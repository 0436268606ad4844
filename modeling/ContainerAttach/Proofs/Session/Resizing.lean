import ContainerAttach.Proofs.Session.Accompanying

/-!
# Resizing is advisory

A turn of the notifier leaves the session alone, and a turn of the session leaves a notifier
alone that has been started.  So the session is what its own turns make of it
(`Occasion.course_follow`), and the notifier gets through its sizes with its own turns, whether
the session goes on, has failed or is over (`Occasion.pending_follow`).  What the notifier has
asked for is told from the stage of the session and from what is pending
(`Occasion.Reached.requests_append`).
-/

namespace ContainerAttach

namespace Occasion

/-- The requests that the session is expected to make: one for each size, in their order.  None is
expected where there is no thread to make them in. -/
def expected (occasion : Occasion) : List WindowSizeRequest :=
  if occasion.client.control.announceError.isSome || occasion.config.passthrough then []
  else (occasion.config.sizes occasion.refused).map fun size => ⟨occasion.config.id, size⟩

/-- The same, where other requests fail. -/
def withFails (occasion : Occasion) (fails : Nat → Bool) : Occasion :=
  { occasion with
    client :=
      { occasion.client with
        control := { occasion.client.control with resizeFails := fails } } }

/-- The same, where the operating system gives the notifier a thread or refuses it. -/
def withNotifier (occasion : Occasion) (refusal : Option IoError) : Occasion :=
  { occasion with refused := { occasion.refused with notifier := refusal } }

end Occasion

/-! ## The session's own turns -/

/-- The part of it that is not the notifier's. -/
def Attaching.course (session : Attaching) : AttachStage × List SessionEvent :=
  (session.stage, session.events)

/-- The turns of the parties among those of all actors. -/
def partiesOf (actors : List Actor) : List Party :=
  actors.filterMap fun
    | .party party => some party
    | .notifier => none

namespace Occasion

variable {occasion : Occasion} {session next : Attaching} {actor : Actor}

theorem course_turn_notifier (occasion : Occasion) (session : Attaching) :
    (occasion.turn session .notifier).course = session.course := by
  rcases occasion.turn_eq_or_does session .notifier with hturn | hdoes
  · rw [hturn]
  · generalize occasion.turn session .notifier = next at hdoes
    cases hdoes
    rfl

/-- The turn of a party depends on no notifier, and on no request that fails. -/
theorem course_turn_party (fails : Nat → Bool) {other : Attaching}
    (hcourse : session.course = other.course) (party : Party) :
    (occasion.turn session (.party party)).course =
      ((occasion.withFails fails).turn other (.party party)).course := by
  obtain ⟨stage, events, notifier⟩ := session
  obtain ⟨_, _, notifier'⟩ := other
  obtain ⟨rfl, rfl⟩ := Prod.mk.inj hcourse
  cases stage with
  | streaming state =>
      simp only [turn, act?, actParty?]
      cases state.act? party <;> rfl
  | ended result => cases party <;> rfl
  | connected socket => cases party <;> rfl
  | unannounced =>
      cases party with
      | coordinator =>
          simp only [turn, act?, actParty?, open?, withFails]
          cases occasion.client.control.announceError <;> rfl
      | input | server | output => rfl
  | announced =>
      cases party with
      | coordinator =>
          cases hpassthrough : occasion.config.passthrough <;>
            simp [turn, act?, actParty?, open?, withFails, hpassthrough, Attaching.course]
      | input | server | output => rfl
  | connecting =>
      cases party with
      | coordinator =>
          simp only [turn, act?, actParty?, open?, withFails]
          rcases occasion.net.connect occasion.config.socketPath occasion.client.kind with
            ⟨_ | _, _⟩ <;> rfl
      | input | server | output => rfl

/-- The notifier's turns can be left out, and its requests may succeed or fail. -/
theorem course_follow (occasion : Occasion) (fails : Nat → Bool) (actors : List Actor) :
    ∀ session other : Attaching, session.course = other.course →
      (occasion.follow session actors).course =
        ((occasion.withFails fails).follow other ((partiesOf actors).map .party)).course := by
  induction actors with
  | nil => exact fun session other hcourse => hcourse
  | cons actor actors ih =>
      intro session other hcourse
      cases actor with
      | notifier => exact ih _ other ((occasion.course_turn_notifier session).trans hcourse)
      | party party => exact ih _ _ (course_turn_party fails hcourse party)

end Occasion

/-! ## The notifier's own turns -/

/-- The notifier has been started, if there is to be one. -/
def AttachStage.Started : AttachStage → Prop
  | .unannounced | .announced => False
  | _ => True

namespace Occasion

variable {occasion : Occasion} {session next : Attaching} {actor : Actor}

theorem turn_notifier (occasion : Occasion) (session : Attaching) :
    (occasion.turn session .notifier).stage = session.stage ∧
      (occasion.turn session .notifier).notifier.pending = session.notifier.pending.tail := by
  obtain ⟨stage, events, pending, log⟩ := session
  cases pending <;> exact ⟨rfl, rfl⟩

/-- No party touches a notifier that has been started. -/
theorem turn_party (occasion : Occasion) (hstarted : session.stage.Started) (party : Party) :
    (occasion.turn session (.party party)).stage.Started ∧
      (occasion.turn session (.party party)).notifier = session.notifier := by
  rcases occasion.turn_eq_or_does session (.party party) with hturn | hdoes
  · rw [hturn]
    exact ⟨hstarted, rfl⟩
  · generalize occasion.turn session (.party party) = next at hdoes
    cases hdoes with
    | streams stage_eq acts => exact ⟨trivial, rfl⟩
    | opens opens =>
        cases opens with
        | refused stage_eq | announces stage_eq | passes stage_eq | notifies stage_eq =>
            rw [stage_eq] at hstarted
            exact hstarted.elim
        | misses | connects | streams => exact ⟨trivial, rfl⟩

/-- A notifier that has been started gets through its sizes with its own turns. -/
theorem pending_follow (occasion : Occasion) (actors : List Actor) :
    ∀ session : Attaching, session.stage.Started →
      (occasion.follow session actors).stage.Started ∧
        (occasion.follow session actors).notifier.pending =
          session.notifier.pending.drop (actors.count .notifier) := by
  induction actors with
  | nil => exact fun session hstarted => ⟨hstarted, rfl⟩
  | cons actor actors ih =>
      intro session hstarted
      cases actor with
      | notifier =>
          obtain ⟨hstage, hpending⟩ := occasion.turn_notifier session
          obtain ⟨hlater, hdrop⟩ := ih (occasion.turn session .notifier) (by rwa [hstage])
          refine ⟨hlater, hdrop.trans ?_⟩
          rw [hpending, List.drop_tail, List.count_cons_self]
      | party party =>
          obtain ⟨hstage, hnotifier⟩ := turn_party occasion hstarted party
          obtain ⟨hlater, hdrop⟩ := ih (occasion.turn session (.party party)) hstage
          refine ⟨hlater, hdrop.trans ?_⟩
          rw [hnotifier, List.count_cons_of_ne (by simp)]

end Occasion

namespace Occasion

variable {occasion : Occasion} {session next : Attaching} {actor : Actor}

/-! ## Requests -/

theorem expected_of_notifies (hnotifies : occasion.Notifies) :
    occasion.expected =
      (occasion.config.sizes occasion.refused).map fun size => ⟨occasion.config.id, size⟩ := by
  simp [expected, hnotifies.announced, hnotifies.not_passthrough]

theorem expected_of_not_notifies (hnot : ¬ occasion.Notifies) : occasion.expected = [] := by
  unfold expected
  refine if_pos ?_
  cases hannounce : occasion.client.control.announceError with
  | some reason => rfl
  | none =>
      cases hpassthrough : occasion.config.passthrough with
      | true => rfl
      | false => exact absurd ⟨hannounce, hpassthrough⟩ hnot

theorem Issues.requests_append {notifier : Notifier} (hissues : occasion.Issues notifier) :
    notifier.log.requests ++
        notifier.pending.map (fun size => ⟨occasion.config.id, size⟩) =
      (occasion.config.sizes occasion.refused).map fun size => ⟨occasion.config.id, size⟩ := by
  obtain ⟨issued, hsplit, hlog⟩ := hissues
  rw [hlog, ResizeLog.requests_ofSizes, ← List.map_append, hsplit]

/-- A request is behind or ahead, once the notifier has been started. -/
theorem Reached.requests_append (hreached : occasion.Reached session)
    (hstarted : session.stage.Started) :
    session.notifier.log.requests ++
        session.notifier.pending.map (fun size => ⟨occasion.config.id, size⟩) =
      occasion.expected := by
  cases hreached with
  | unannounced | announced => exact hstarted.elim
  | silent not_notifies attach_eq => rw [expected_of_not_notifies not_notifies]; rfl
  | connecting notifies issues | missed notifies issues =>
      rw [expected_of_notifies notifies, issues.requests_append]
  | connected connected issues | streaming connected issues =>
      rw [expected_of_notifies ⟨connected.announced, connected.not_passthrough⟩,
        issues.requests_append]

theorem Reached.requests_of_not_started (hreached : occasion.Reached session)
    (hstarted : ¬ session.stage.Started) : session.notifier.log.requests = [] := by
  cases hreached with
  | unannounced | announced => rfl
  | silent | connecting | missed | connected | streaming => exact absurd trivial hstarted

/-- Some turns of the notifier, and whatever else, make as many requests, if there are. -/
theorem Reached.requests_follow (hreached : occasion.Reached session)
    (hstarted : session.stage.Started) (more : List Actor) :
    (occasion.follow session more).notifier.log.requests =
      occasion.expected.take (session.notifier.log.requests.length + more.count .notifier) := by
  obtain ⟨hlater, hpending⟩ := occasion.pending_follow more session hstarted
  have hbefore := hreached.requests_append hstarted
  have hafter := (hreached.follow more).requests_append hlater
  rw [hpending, List.map_drop] at hafter
  refine List.append_cancel_right (hafter.trans ?_)
  rw [← hbefore, List.take_length_add_append, List.append_assoc, List.take_append_drop]

/-! ## Sessions as a whole -/

theorem resize_attach (hnotifies : occasion.Notifies) (schedule : List Party) :
    (occasion.attach schedule).resize =
      occasion.client.resizeLog occasion.config occasion.refused := by
  obtain ⟨hannounced, hpassthrough⟩ := hnotifies
  cases hconnect :
      (occasion.net.connect occasion.config.socketPath occasion.client.kind).1 with
  | error cause =>
      rw [attach, (Client.attach_of_connectError hannounced hpassthrough hconnect).2]
      rfl
  | ok handle =>
      rw [attach_of_connected ⟨hannounced, hpassthrough, by rw [hconnect]; rfl⟩]
      rfl

theorem requests_attach (occasion : Occasion) (schedule : List Party) :
    (occasion.attach schedule).resize.requests = occasion.expected := by
  by_cases hnotifies : occasion.Notifies
  · rw [resize_attach hnotifies, Client.resizeLog, ResizeLog.requests_ofSizes,
      expected_of_notifies hnotifies]
  · rw [expected_of_not_notifies hnotifies, attach]
    cases hannounce : occasion.client.control.announceError with
    | some reason => rw [(Client.attach_of_announceError hannounce).2]; rfl
    | none =>
        cases hpassthrough : occasion.config.passthrough with
        | true => rw [(Client.attach_of_passthrough hannounce hpassthrough).2]; rfl
        | false => exact absurd ⟨hannounce, hpassthrough⟩ hnotifies

end Occasion

/-- The two are the same session, apart from what was asked for on the side. -/
structure SessionOutcome.SameSession (session other : SessionOutcome) : Prop where
  result?_eq : session.result? = other.result?
  events_eq : session.events = other.events
  received_eq : session.received = other.received
  outputs_eq : session.outputs = other.outputs

namespace Occasion

variable {occasion : Occasion} {session next : Attaching} {actor : Actor}

/-- What is to be said about the requests of a session. -/
structure ResizeLaw (occasion : Occasion) : Prop where
  /-- The session as a whole makes all its requests, whatever else becomes of it. -/
  requests_eq : ∀ schedule, (occasion.attach schedule).resize.requests = occasion.expected
  /-- It makes no difference which of them fail. -/
  advisory : ∀ fails schedule,
    ((occasion.withFails fails).attach schedule).SameSession (occasion.attach schedule)
  /-- Nor does it make one whether there is a thread for the notifier. -/
  unattended : ∀ refusal schedule,
    ((occasion.withNotifier refusal).attach schedule).SameSession (occasion.attach schedule)
  /-- At every moment the first requests have been made, and no other. -/
  in_order : ∀ actors,
    (occasion.follow {} actors).notifier.log.requests <+: occasion.expected
  /-- From when it is started on, only its own turns count for the notifier: it makes one
  request with each, until all are made. -/
  own_pace : ∀ actors more, (occasion.follow {} actors).stage.Started →
    (occasion.follow {} (actors ++ more)).notifier.log.requests =
      occasion.expected.take ((occasion.follow {} actors).notifier.log.requests.length +
        more.count .notifier)
  /-- At every moment the session is what its own turns make of it, whenever the notifier has
  its turns and whichever requests fail. -/
  erasable : ∀ fails actors others, partiesOf actors = partiesOf others →
    ((occasion.withFails fails).outcome ((occasion.withFails fails).follow {} others)).SameSession
      (occasion.outcome (occasion.follow {} actors))
  /-- The turns come to an end, and then to the session as a whole. -/
  comes_to_rest : ∀ actors, ∃ more, occasion.Rests (occasion.follow {} (actors ++ more))
  attach_of_rest : ∀ actors, occasion.Rests (occasion.follow {} actors) →
    ∃ schedule, occasion.outcome (occasion.follow {} actors) = occasion.attach schedule
  rest_of_attach : ∀ schedule, ∃ actors, occasion.Rests (occasion.follow {} actors) ∧
    occasion.outcome (occasion.follow {} actors) = occasion.attach schedule

/-- A session is told the same whatever is put beside it. -/
theorem sameSession_resize (session : SessionOutcome) (resize : ResizeLog) :
    { session with resize := resize }.SameSession session :=
  ⟨rfl, rfl, rfl, rfl⟩

/-- What the notifier does is put beside the session, and nothing else of it is looked at. -/
theorem exists_resize_attach (occasion : Occasion) (fails : Nat → Bool)
    (refusal : Option IoError) (schedule : List Party) :
    ∃ resize, ((occasion.withFails fails).withNotifier refusal).attach schedule =
      { occasion.attach schedule with resize := resize } := by
  simp only [attach, withFails, withNotifier, Client.attach]
  cases occasion.client.control.announceError with
  | some reason => exact ⟨{}, rfl⟩
  | none =>
      simp only [Client.attachAnnounced]
      by_cases hpassthrough : occasion.config.passthrough = true
      · simp only [hpassthrough, if_true]
        exact ⟨{}, rfl⟩
      · simp only [hpassthrough, Bool.false_eq_true, if_false]
        rcases occasion.net.connect occasion.config.socketPath occasion.client.kind with
          ⟨cause | handle, after⟩
        · exact ⟨_, rfl⟩
        · exact ⟨_, rfl⟩

theorem attach_withFails (occasion : Occasion) (fails : Nat → Bool) (schedule : List Party) :
    ((occasion.withFails fails).attach schedule).SameSession (occasion.attach schedule) := by
  obtain ⟨resize, hresize⟩ :=
    occasion.exists_resize_attach fails occasion.refused.notifier schedule
  have hsame : (occasion.withFails fails).withNotifier occasion.refused.notifier =
    occasion.withFails fails := rfl
  rw [← hsame, hresize]
  exact sameSession_resize ..

theorem attach_withNotifier (occasion : Occasion) (refusal : Option IoError)
    (schedule : List Party) :
    ((occasion.withNotifier refusal).attach schedule).SameSession (occasion.attach schedule) := by
  obtain ⟨resize, hresize⟩ :=
    occasion.exists_resize_attach occasion.client.control.resizeFails refusal schedule
  have hsame : occasion.withFails occasion.client.control.resizeFails = occasion := rfl
  rw [hsame] at hresize
  rw [hresize]
  exact sameSession_resize ..

theorem outcome_sameSession (fails : Nat → Bool) {other : Attaching}
    (hcourse : session.course = other.course) :
    ((occasion.withFails fails).outcome other).SameSession (occasion.outcome session) := by
  obtain ⟨stage, events, notifier⟩ := session
  obtain ⟨_, _, notifier'⟩ := other
  obtain ⟨rfl, rfl⟩ := Prod.mk.inj hcourse
  cases stage <;> exact ⟨rfl, rfl, rfl, rfl⟩

/-- **Resizing is advisory.**  However the turns fall, a session makes one request for each
size, in order, and none if it is not announced or passes its streams through; and apart from
that it is the same session, whichever of them fail.  If the operating system refuses a thread for
the requests none is made, and the session is the same all the same. -/
theorem resizing_advisory (occasion : Occasion) : occasion.ResizeLaw where
  requests_eq := occasion.requests_attach
  advisory := occasion.attach_withFails
  unattended := occasion.attach_withNotifier
  in_order := by
    intro actors
    have hreached : occasion.Reached (occasion.follow {} actors) :=
      Reached.unannounced.follow actors
    by_cases hstarted : (occasion.follow {} actors).stage.Started
    · exact ⟨_, hreached.requests_append hstarted⟩
    · rw [hreached.requests_of_not_started hstarted]
      exact List.nil_prefix
  own_pace := by
    intro actors more hstarted
    rw [follow_append]
    exact (Reached.unannounced.follow actors).requests_follow hstarted more
  erasable := by
    intro fails actors others hparties
    refine outcome_sameSession fails ?_
    calc (occasion.follow {} actors).course
        = ((occasion.withFails fails).follow {} ((partiesOf actors).map .party)).course :=
          occasion.course_follow fails actors {} {} rfl
      _ = ((occasion.withFails fails).follow {} ((partiesOf others).map .party)).course := by
          rw [hparties]
      _ = ((occasion.withFails fails).follow {} others).course :=
          ((occasion.withFails fails).course_follow fails others {} {} rfl).symm
  comes_to_rest := by
    intro actors
    obtain ⟨more, hrests⟩ := occasion.exists_rests (occasion.follow {} actors)
    refine ⟨more, ?_⟩
    rwa [follow_append]
  attach_of_rest := fun actors hrests =>
    (Reached.unannounced.follow actors).exists_attach_eq hrests
  rest_of_attach := occasion.exists_outcome_eq

/-- A request is made, and fails, before the socket is looked for. -/
example :
    let occasion : Occasion :=
      { client := { control := { resizeFails := fun _ => true } }
        net := {}
        config := { id := "c", socketPath := "s", resize := some [⟨80, 24⟩, ⟨132, 43⟩] }
        server := { steps := [] } }
    let session := occasion.follow {} [.party .coordinator, .party .coordinator, .notifier]
    session.events = [.announce ⟨"c", "s", none⟩] ∧
      session.notifier = ⟨[⟨132, 43⟩], ⟨[⟨"c", ⟨80, 24⟩⟩], 1, 1⟩⟩ := by
  decide

end Occasion

end ContainerAttach
