import ContainerAttach.Proofs.Session.Stages

/-!
# A session and its notifier

`Client.attach` tells what a session comes to, and puts what its notifier comes to beside it.
Here the two take turns.  An actor is one of the parties of the session or the notifier, which
the coordinator starts once the session is announced; before there is a socket only the
coordinator has something to do.  Nobody says who is the next.

Every stage is described by one constructor of `Occasion.Reached`, and a turn leads from one
to another (`Occasion.Reached.step`).  When nobody can act any more, the two have come to what
`Client.attach` tells (`Occasion.Reached.exists_attach_eq`), and there are turns that lead to
all that it tells (`Occasion.exists_outcome_eq`).
-/

namespace ContainerAttach

/-! ## Turns -/

/-- What a session is made with. -/
structure Occasion where
  client : Client
  net : Network
  config : AttachConfig
  server : Server
  refused : SessionRefusals := {}

/-- Who can act while a session is made. -/
inductive Actor where
  | party (party : Party)
  | notifier
  deriving DecidableEq, Repr

/-- How far a session is. -/
inductive AttachStage where
  | unannounced
  | announced
  /-- The notifier has been started if there is a thread for it, and the socket comes next. -/
  | connecting
  | connected (socket : Connection)
  | streaming (state : Streaming)
  /-- There has been no socket, and there will be none. -/
  | ended (result : Except AttachError Unit)

/-- A notifier, with the sizes that it has not been passed yet.  Their source is closed behind
them. -/
structure Notifier where
  pending : List TerminalSize := []
  log : ResizeLog := {}
  deriving DecidableEq, Repr

/-- A session that is being made.  A notifier that has not been started has no sizes, and neither
has one that there is no thread for. -/
structure Attaching where
  stage : AttachStage := .unannounced
  events : List SessionEvent := []
  notifier : Notifier := {}

/-- The request for one size, whatever the server makes of it. -/
def Notifier.act? (id : String) (fails : Nat → Bool) (notifier : Notifier) : Option Notifier :=
  match notifier.pending with
  | [] => none
  | size :: pending => some ⟨pending, notifier.log.notify id fails size⟩

namespace Occasion

/-- What the coordinator does before there are streams. -/
def open? (occasion : Occasion) (session : Attaching) : Option Attaching :=
  let config := occasion.config
  match session.stage with
  | .unannounced =>
    let events := session.events ++ [.announce config.request]
    match occasion.client.control.announceError with
    | some reason =>
      some { session with events, stage := .ended (.error (.announce config.id reason)) }
    | none => some { session with events, stage := .announced }
  | .announced =>
    if config.passthrough then
      some
        { session with
          events := session.events ++ Hook.events .preAttach config.preAttach
          stage := .ended ((Hook.run config.preAttach).mapError .preAttach) }
    else
      some
        { session with
          stage := .connecting
          notifier := { pending := config.sizes occasion.refused } }
  | .connecting =>
    let events := session.events ++ [.connect config.socketPath]
    match occasion.net.connect config.socketPath occasion.client.kind with
    | (.error cause, _) =>
      some { session with events, stage := .ended (.error (.connect config.socketPath cause)) }
    | (.ok handle, net) =>
      let socket := (net.connection? handle).getD { kind := occasion.client.kind }
      some { session with events, stage := .connected socket }
  | .connected socket =>
    some
      { session with
        events := session.events ++ config.openingEvents
        stage := .streaming (.opening config socket occasion.server occasion.refused) }
  | .streaming _ | .ended _ => none

def actNotifier? (occasion : Occasion) (session : Attaching) : Option Attaching :=
  (session.notifier.act? occasion.config.id occasion.client.control.resizeFails).map
    fun notifier => { session with notifier }

def actParty? (occasion : Occasion) (session : Attaching) (party : Party) : Option Attaching :=
  match session.stage, party with
  | .streaming state, party =>
    (state.act? party).map fun next => { session with stage := .streaming next }
  | _, .coordinator => occasion.open? session
  | _, _ => none

/-- What an actor does when it has the turn. -/
def act? (occasion : Occasion) (session : Attaching) : Actor → Option Attaching
  | .notifier => occasion.actNotifier? session
  | .party party => occasion.actParty? session party

/-- Gives an actor the turn; it is lost on an actor that has to wait. -/
def turn (occasion : Occasion) (session : Attaching) (actor : Actor) : Attaching :=
  (occasion.act? session actor).getD session

/-- Gives the turn to some actors, one after the other. -/
def follow (occasion : Occasion) (session : Attaching) (actors : List Actor) : Attaching :=
  actors.foldl occasion.turn session

/-- Nobody can act any more. -/
def Rests (occasion : Occasion) (session : Attaching) : Prop :=
  ∀ actor, occasion.act? session actor = none

/-- What a session has come to. -/
def outcome (occasion : Occasion) (session : Attaching) : SessionOutcome :=
  match session.stage with
  | .streaming state => state.outcome session.events session.notifier.log
  | .ended result =>
    Client.unconnected occasion.config result session.events session.notifier.log
  | _ =>
    { result? := none
      events := session.events
      resize := session.notifier.log
      outputs := occasion.config.streams.outputs }

/-! ## Sessions as a whole -/

/-- The session is one that starts a notifier, if there are sizes to come. -/
structure Notifies (occasion : Occasion) : Prop where
  announced : occasion.client.control.announceError = none
  not_passthrough : occasion.config.passthrough = false

/-- What the session comes to at the end. -/
def attach (occasion : Occasion) (schedule : List Party) : SessionOutcome :=
  occasion.client.attach occasion.net occasion.config occasion.server schedule occasion.refused

/-- The first state of the streams, and the events before it, if there is a socket. -/
def opening (occasion : Occasion) : Streaming :=
  .opening occasion.config { kind := occasion.client.kind } occasion.server occasion.refused

def openingEvents (occasion : Occasion) : List SessionEvent :=
  .announce occasion.config.request :: .connect occasion.config.socketPath ::
    occasion.config.openingEvents

theorem attach_of_connected {occasion : Occasion}
    (hconnected : occasion.client.Connected occasion.net occasion.config)
    (schedule : List Party) :
    occasion.attach schedule =
      (occasion.opening.run schedule).outcome occasion.openingEvents
        (occasion.client.resizeLog occasion.config occasion.refused) :=
  Client.attach_of_connected hconnected occasion.server schedule

/-! ## What a turn can do -/

variable {occasion : Occasion} {session next : Attaching} {actor : Actor}

/-- What the coordinator can do before there are streams. -/
inductive Opens (occasion : Occasion) (session : Attaching) : Attaching → Prop
  | refused {reason : String} (stage_eq : session.stage = .unannounced)
      (refused : occasion.client.control.announceError = some reason) :
      Opens occasion session
        { session with
          events := session.events ++ [.announce occasion.config.request]
          stage := .ended (.error (.announce occasion.config.id reason)) }
  | announces (stage_eq : session.stage = .unannounced)
      (announced : occasion.client.control.announceError = none) :
      Opens occasion session
        { session with
          events := session.events ++ [.announce occasion.config.request]
          stage := .announced }
  | passes (stage_eq : session.stage = .announced)
      (passthrough : occasion.config.passthrough = true) :
      Opens occasion session
        { session with
          events := session.events ++ Hook.events .preAttach occasion.config.preAttach
          stage := .ended ((Hook.run occasion.config.preAttach).mapError .preAttach) }
  | notifies (stage_eq : session.stage = .announced)
      (not_passthrough : occasion.config.passthrough = false) :
      Opens occasion session
        { session with
          stage := .connecting
          notifier := { pending := occasion.config.sizes occasion.refused } }
  | misses {cause : SocketError} (stage_eq : session.stage = .connecting)
      (missed : (occasion.net.connect occasion.config.socketPath occasion.client.kind).1 =
        .error cause) :
      Opens occasion session
        { session with
          events := session.events ++ [.connect occasion.config.socketPath]
          stage := .ended (.error (.connect occasion.config.socketPath cause)) }
  | connects (stage_eq : session.stage = .connecting)
      (connected : (occasion.net.connect occasion.config.socketPath
        occasion.client.kind).1.isOk = true) :
      Opens occasion session
        { session with
          events := session.events ++ [.connect occasion.config.socketPath]
          stage := .connected { kind := occasion.client.kind } }
  | streams {socket : Connection} (stage_eq : session.stage = .connected socket) :
      Opens occasion session
        { session with
          events := session.events ++ occasion.config.openingEvents
          stage := .streaming (.opening occasion.config socket occasion.server occasion.refused) }

theorem opens_of_open? (hopen : occasion.open? session = some next) :
    occasion.Opens session next := by
  unfold open? at hopen
  dsimp only at hopen
  split at hopen
  · next hstage =>
    split at hopen
    · next reason hreason =>
      obtain rfl := Option.some.inj hopen
      exact .refused hstage hreason
    · next hreason =>
      obtain rfl := Option.some.inj hopen
      exact .announces hstage hreason
  · next hstage =>
    split at hopen
    · next hpassthrough =>
      obtain rfl := Option.some.inj hopen
      exact .passes hstage hpassthrough
    · next hpassthrough =>
      obtain rfl := Option.some.inj hopen
      exact .notifies hstage (by simpa using hpassthrough)
  · next hstage =>
    split at hopen
    · next cause after hconnect =>
      obtain rfl := Option.some.inj hopen
      exact .misses hstage (by rw [hconnect])
    · next handle after hconnect =>
      obtain rfl := Option.some.inj hopen
      rw [Network.connection?_of_connect hconnect]
      exact .connects hstage (by rw [hconnect]; rfl)
  · next socket hstage =>
    obtain rfl := Option.some.inj hopen
    exact .streams hstage
  · exact absurd hopen (by simp)
  · exact absurd hopen (by simp)

/-- What a turn can do that is not lost. -/
inductive Does (occasion : Occasion) (session : Attaching) : Actor → Attaching → Prop
  | notifies {size : TerminalSize} {pending : List TerminalSize}
      (pending_eq : session.notifier.pending = size :: pending) :
      Does occasion session .notifier
        { session with
          notifier :=
            ⟨pending, session.notifier.log.notify occasion.config.id
              occasion.client.control.resizeFails size⟩ }
  | streams {party : Party} {state after : Streaming}
      (stage_eq : session.stage = .streaming state) (acts : state.act? party = some after) :
      Does occasion session (.party party) { session with stage := .streaming after }
  | opens {next : Attaching} (opens : occasion.Opens session next) :
      Does occasion session (.party .coordinator) next

theorem does_of_act? (hact : occasion.act? session actor = some next) :
    occasion.Does session actor next := by
  cases actor with
  | notifier =>
      obtain ⟨notifier, hnotifier, rfl⟩ := Option.map_eq_some_iff.mp hact
      unfold Notifier.act? at hnotifier
      split at hnotifier
      · exact absurd hnotifier (by simp)
      · next size pending hpending =>
        obtain rfl := Option.some.inj hnotifier
        exact .notifies hpending
  | party party =>
      replace hact : occasion.actParty? session party = some next := hact
      unfold actParty? at hact
      split at hact
      · next state party hstage =>
        obtain ⟨after, hafter, rfl⟩ := Option.map_eq_some_iff.mp hact
        exact .streams hstage hafter
      · exact .opens (opens_of_open? hact)
      · exact absurd hact (by simp)

/-- A turn leads to what the actor does, or nowhere if it has to wait. -/
theorem turn_eq_or_does (occasion : Occasion) (session : Attaching) (actor : Actor) :
    occasion.turn session actor = session ∨
      occasion.Does session actor (occasion.turn session actor) := by
  cases hact : occasion.act? session actor with
  | none => exact Or.inl (by rw [turn, hact]; rfl)
  | some next =>
      rw [turn, hact]
      exact Or.inr (does_of_act? hact)

theorem follow_append (session : Attaching) (actors more : List Actor) :
    occasion.follow session (actors ++ more) =
      occasion.follow (occasion.follow session actors) more :=
  List.foldl_append

end Occasion

/-! ## Stages -/

namespace Occasion

variable {occasion : Occasion} {session next : Attaching} {actor : Actor}

/-- The notifier has made its requests in order, and the other sizes are pending. -/
def Issues (occasion : Occasion) (notifier : Notifier) : Prop :=
  ∃ issued, issued ++ notifier.pending = occasion.config.sizes occasion.refused ∧
    notifier.log = .ofSizes occasion.config.id occasion.client.control.resizeFails issued

theorem Issues.notify {notifier : Notifier} {size : TerminalSize} {pending : List TerminalSize}
    (hissues : occasion.Issues notifier) (hpending : notifier.pending = size :: pending) :
    occasion.Issues
      ⟨pending, notifier.log.notify occasion.config.id occasion.client.control.resizeFails
        size⟩ := by
  obtain ⟨issued, hsplit, hlog⟩ := hissues
  refine ⟨issued ++ [size], ?_, ?_⟩
  · rw [← hsplit, hpending, List.append_assoc, List.singleton_append]
  · rw [ResizeLog.ofSizes_concat, ← hlog]

/-- How far a session can be, with the events that are behind it then. -/
inductive Reached (occasion : Occasion) : Attaching → Prop
  | unannounced : Reached occasion {}
  | announced (announced : occasion.client.control.announceError = none) :
      Reached occasion ⟨.announced, [.announce occasion.config.request], {}⟩
  /-- A session without a notifier. -/
  | silent {result : Except AttachError Unit} {events : List SessionEvent}
      (not_notifies : ¬ occasion.Notifies)
      (attach_eq : ∀ schedule, occasion.attach schedule =
        Client.unconnected occasion.config result events {}) :
      Reached occasion ⟨.ended result, events, {}⟩
  | connecting {notifier : Notifier} (notifies : occasion.Notifies)
      (issues : occasion.Issues notifier) :
      Reached occasion ⟨.connecting, [.announce occasion.config.request], notifier⟩
  | missed {notifier : Notifier} {result : Except AttachError Unit}
      {events : List SessionEvent} (notifies : occasion.Notifies)
      (issues : occasion.Issues notifier)
      (attach_eq : ∀ schedule, occasion.attach schedule =
        Client.unconnected occasion.config result events
          (occasion.client.resizeLog occasion.config occasion.refused)) :
      Reached occasion ⟨.ended result, events, notifier⟩
  | connected {notifier : Notifier}
      (connected : occasion.client.Connected occasion.net occasion.config)
      (issues : occasion.Issues notifier) :
      Reached occasion
        ⟨.connected { kind := occasion.client.kind },
          [.announce occasion.config.request, .connect occasion.config.socketPath], notifier⟩
  | streaming {notifier : Notifier}
      (connected : occasion.client.Connected occasion.net occasion.config)
      (issues : occasion.Issues notifier) (turns : List Party) :
      Reached occasion
        ⟨.streaming (occasion.opening.follow turns), occasion.openingEvents, notifier⟩

theorem Reached.open (hreached : occasion.Reached session)
    (hopens : occasion.Opens session next) : occasion.Reached next := by
  cases hreached with
  | unannounced =>
      cases hopens with
      | refused stage_eq refused =>
          refine .silent ?_ fun schedule => (Client.attach_of_announceError refused).2
          exact fun hnotifies => Option.some_ne_none _ (refused.symm.trans hnotifies.announced)
      | announces stage_eq announced => exact .announced announced
      | passes stage_eq | notifies stage_eq | misses stage_eq | connects stage_eq
      | streams stage_eq => exact nomatch stage_eq
  | announced announced =>
      cases hopens with
      | passes stage_eq passthrough =>
          refine .silent ?_ fun schedule => (Client.attach_of_passthrough announced passthrough).2
          intro hnotifies
          exact absurd (passthrough.symm.trans hnotifies.not_passthrough) (by simp)
      | notifies stage_eq not_passthrough =>
          exact .connecting ⟨announced, not_passthrough⟩ ⟨[], rfl, rfl⟩
      | refused stage_eq | announces stage_eq | misses stage_eq | connects stage_eq
      | streams stage_eq => exact nomatch stage_eq
  | connecting notifies issues =>
      cases hopens with
      | misses stage_eq missed =>
          exact .missed notifies issues fun schedule =>
            (Client.attach_of_connectError notifies.announced notifies.not_passthrough missed).2
      | connects stage_eq connected =>
          exact .connected ⟨notifies.announced, notifies.not_passthrough, connected⟩ issues
      | refused stage_eq | announces stage_eq | passes stage_eq | notifies stage_eq
      | streams stage_eq => exact nomatch stage_eq
  | connected connected issues =>
      cases hopens with
      | streams stage_eq =>
          obtain rfl := AttachStage.connected.inj stage_eq
          exact .streaming connected issues []
      | refused stage_eq | announces stage_eq | passes stage_eq | notifies stage_eq
      | misses stage_eq | connects stage_eq => exact nomatch stage_eq
  | silent | missed | streaming => cases hopens <;> contradiction

theorem Reached.step (hreached : occasion.Reached session)
    (hdoes : occasion.Does session actor next) : occasion.Reached next := by
  cases hdoes with
  | opens opens => exact hreached.open opens
  | notifies pending_eq =>
      cases hreached with
      | unannounced | announced | silent => exact nomatch pending_eq
      | connecting notifies issues => exact .connecting notifies (issues.notify pending_eq)
      | missed notifies issues attach_eq =>
          exact .missed notifies (issues.notify pending_eq) attach_eq
      | connected connected issues => exact .connected connected (issues.notify pending_eq)
      | streaming connected issues turns =>
          exact .streaming connected (issues.notify pending_eq) turns
  | @streams party state after stage_eq acts =>
      cases hreached with
      | streaming connected issues turns =>
          obtain rfl := AttachStage.streaming.inj stage_eq
          have hafter := Streaming.turn_of_act? acts
          have hturns : occasion.opening.follow (turns ++ [party]) = after := by
            rw [Streaming.follow_append]
            exact hafter
          rw [← hturns]
          exact .streaming connected issues (turns ++ [party])
      | unannounced | announced | silent | connecting | missed | connected =>
          exact nomatch stage_eq

theorem Reached.follow (hreached : occasion.Reached session) (actors : List Actor) :
    occasion.Reached (occasion.follow session actors) := by
  induction actors generalizing session with
  | nil => exact hreached
  | cons actor actors ih =>
      refine ih ?_
      rcases occasion.turn_eq_or_does session actor with hturn | hdoes
      · rwa [hturn]
      · exact hreached.step hdoes

/-! ## Rest -/

end Occasion

/-- The turns of the coordinator until there are streams, or no socket for them. -/
def AttachStage.turnsLeft : AttachStage → Nat
  | .unannounced => 4
  | .announced => 3
  | .connecting => 2
  | .connected _ => 1
  | .streaming _ | .ended _ => 0

namespace Occasion

variable {occasion : Occasion} {session next : Attaching} {actor : Actor}

theorem exists_open? (occasion : Occasion) (session : Attaching)
    (hleft : session.stage.turnsLeft ≠ 0) :
    ∃ next, occasion.open? session = some next := by
  unfold open?
  dsimp only
  split
  · split <;> exact ⟨_, rfl⟩
  · split <;> exact ⟨_, rfl⟩
  · split <;> exact ⟨_, rfl⟩
  · exact ⟨_, rfl⟩
  · next hstage => exact absurd (by rw [hstage]; rfl) hleft
  · next hstage => exact absurd (by rw [hstage]; rfl) hleft

theorem Opens.turnsLeft_lt (hopens : occasion.Opens session next) :
    next.stage.turnsLeft < session.stage.turnsLeft := by
  cases hopens with
  | refused stage_eq | announces stage_eq | passes stage_eq | notifies stage_eq
  | misses stage_eq | connects stage_eq | streams stage_eq =>
      rw [stage_eq]
      simp [AttachStage.turnsLeft]

/-- Until the session is opened the coordinator can act. -/
theorem act?_coordinator (hleft : session.stage.turnsLeft ≠ 0) :
    occasion.act? session (.party .coordinator) = occasion.open? session := by
  simp only [act?, actParty?]
  split
  · next hstage => exact absurd (by rw [hstage]; rfl) hleft
  · rfl
  · next hother => exact absurd rfl hother

theorem turnsLeft_turn_le (occasion : Occasion) (session : Attaching) :
    (occasion.turn session (.party .coordinator)).stage.turnsLeft ≤
      session.stage.turnsLeft - 1 := by
  by_cases hleft : session.stage.turnsLeft = 0
  · rcases occasion.turn_eq_or_does session (.party .coordinator) with hturn | hdoes
    · simp [hturn, hleft]
    · generalize occasion.turn session (.party .coordinator) = next at hdoes
      cases hdoes with
      | streams => exact Nat.zero_le _
      | opens opens => exact absurd opens.turnsLeft_lt (by omega)
  · obtain ⟨next, hopen⟩ := occasion.exists_open? session hleft
    have hlt := (opens_of_open? hopen).turnsLeft_lt
    rw [turn, act?_coordinator hleft, hopen]
    exact Nat.le_sub_one_of_lt hlt

/-- So many turns of the coordinator open the session. -/
theorem opened_follow (count : Nat) :
    ∀ session : Attaching, session.stage.turnsLeft ≤ count →
      (occasion.follow session
        (List.replicate count (.party .coordinator))).stage.turnsLeft = 0 := by
  induction count with
  | zero => exact fun session hleft => Nat.le_zero.mp hleft
  | succ count ih =>
      intro session hleft
      refine ih (occasion.turn session (.party .coordinator)) ?_
      have := occasion.turnsLeft_turn_le session
      omega

/-- Turns of the parties are turns of the streams. -/
theorem follow_parties (turns : List Party) :
    ∀ (state : Streaming) (events : List SessionEvent) (notifier : Notifier),
      occasion.follow ⟨.streaming state, events, notifier⟩ (turns.map .party) =
        ⟨.streaming (state.follow turns), events, notifier⟩ := by
  induction turns with
  | nil => exact fun state events notifier => rfl
  | cons party turns ih =>
      intro state events notifier
      have hturn : occasion.turn ⟨.streaming state, events, notifier⟩ (.party party) =
          ⟨.streaming (state.turn party), events, notifier⟩ := by
        simp only [turn, act?, actParty?, Streaming.turn]
        cases state.act? party <;> rfl
      rw [List.map_cons, follow, List.foldl_cons, hturn]
      exact ih (state.turn party) events notifier

/-- A session is at rest if its streams are, and no size is pending. -/
theorem rests_iff :
    occasion.Rests session ↔ session.notifier.pending = [] ∧
      ((∃ result, session.stage = .ended result) ∨
        ∃ state, session.stage = .streaming state ∧ state.next? = none) := by
  obtain ⟨stage, events, pending, log⟩ := session
  constructor
  · intro hrests
    refine ⟨?_, ?_⟩
    · cases pending with
      | nil => rfl
      | cons size pending => exact absurd (hrests .notifier) (by simp [act?, actNotifier?,
          Notifier.act?])
    · by_cases hleft : stage.turnsLeft = 0
      · cases stage with
        | ended result => exact Or.inl ⟨result, rfl⟩
        | streaming state =>
            refine Or.inr ⟨state, rfl, List.findSome?_eq_none_iff.mpr fun party _ => ?_⟩
            exact Option.map_eq_none_iff.mp (hrests (.party party))
        | unannounced | announced | connecting | connected =>
            exact absurd hleft (by simp [AttachStage.turnsLeft])
      · obtain ⟨next, hopen⟩ := occasion.exists_open? ⟨stage, events, pending, log⟩ hleft
        have hwaits := hrests (.party .coordinator)
        rw [act?_coordinator hleft, hopen] at hwaits
        exact absurd hwaits (by simp)
  · rintro ⟨rfl, ⟨result, rfl⟩ | ⟨state, rfl, hrest⟩⟩ (party | _)
    · cases party <;> rfl
    · rfl
    · exact Option.map_eq_none_iff.mpr (Streaming.act?_of_rest hrest party)
    · rfl

/-- Turns of the notifier end with nothing pending, and leave the session alone. -/
theorem follow_notifier (occasion : Occasion) (pending : List TerminalSize) :
    ∀ (stage : AttachStage) (events : List SessionEvent) (log : ResizeLog),
      ∃ after, occasion.follow ⟨stage, events, pending, log⟩
          (List.replicate pending.length .notifier) = ⟨stage, events, [], after⟩ := by
  induction pending with
  | nil => exact fun stage events log => ⟨log, rfl⟩
  | cons size pending ih => exact fun stage events log => ih stage events _

/-- From where a session is opened, turns of the streams that bring them to rest and the
notifier's turns bring all to rest. -/
theorem rests_of_opened (occasion : Occasion) (events : List SessionEvent) (notifier : Notifier)
    {state : Streaming} {turns : List Party} (hrest : (state.follow turns).next? = none) :
    ∃ log, occasion.follow ⟨.streaming state, events, notifier⟩
        (turns.map .party ++ List.replicate notifier.pending.length .notifier) =
          ⟨.streaming (state.follow turns), events, [], log⟩ ∧
      occasion.Rests ⟨.streaming (state.follow turns), events, [], log⟩ := by
  obtain ⟨log, hlog⟩ := follow_notifier occasion notifier.pending
    (.streaming (state.follow turns)) events notifier.log
  refine ⟨log, ?_, rests_iff.mpr ⟨rfl, Or.inr ⟨_, rfl, hrest⟩⟩⟩
  rw [follow_append, follow_parties]
  exact hlog

/-- Every session can be brought to rest. -/
theorem exists_rests (occasion : Occasion) (session : Attaching) :
    ∃ more, occasion.Rests (occasion.follow session more) := by
  have hopened := occasion.opened_follow session.stage.turnsLeft session (Nat.le_refl _)
  generalize hopening : List.replicate session.stage.turnsLeft (Actor.party .coordinator) =
    opening at hopened
  rcases hsession : occasion.follow session opening with ⟨stage, events, notifier⟩
  rw [hsession] at hopened
  cases stage with
  | ended result =>
      obtain ⟨log, hlog⟩ := follow_notifier occasion notifier.pending
        (.ended result) events notifier.log
      refine ⟨opening ++ List.replicate notifier.pending.length .notifier, ?_⟩
      rw [follow_append, hsession, hlog]
      exact rests_iff.mpr ⟨rfl, Or.inl ⟨result, rfl⟩⟩
  | streaming state =>
      obtain ⟨turns, -, hturns⟩ := Streaming.exists_run_eq_follow state []
      have hrest := Streaming.next?_run state []
      rw [hturns] at hrest
      obtain ⟨log, hlog, hrests⟩ := occasion.rests_of_opened events notifier hrest
      refine ⟨opening ++ (turns.map .party ++
        List.replicate notifier.pending.length .notifier), ?_⟩
      rw [follow_append, hsession, hlog]
      exact hrests
  | unannounced | announced | connecting | connected =>
      exact absurd hopened (by simp [AttachStage.turnsLeft])

theorem Reached.connected_of_streaming {state : Streaming} (hreached : occasion.Reached session)
    (hstage : session.stage = .streaming state) :
    occasion.client.Connected occasion.net occasion.config := by
  cases hreached with
  | streaming connected issues turns => exact connected
  | unannounced | announced | connecting | connected | silent | missed => exact nomatch hstage

/-- A notifier with nothing pending has done what the session's log tells. -/
theorem Issues.log_eq {log : ResizeLog} (hissues : occasion.Issues ⟨[], log⟩) :
    log = occasion.client.resizeLog occasion.config occasion.refused := by
  obtain ⟨issued, hsplit, hlog⟩ := hissues
  rw [List.append_nil] at hsplit
  rw [Client.resizeLog, ← hsplit]
  exact hlog

/-- A session at rest without a socket is the same whatever the schedule. -/
theorem Reached.outcome_of_ended {result : Except AttachError Unit}
    (hreached : occasion.Reached session) (hrests : occasion.Rests session)
    (hstage : session.stage = .ended result) (schedule : List Party) :
    occasion.outcome session = occasion.attach schedule := by
  obtain ⟨hpending, -⟩ := rests_iff.mp hrests
  cases hreached with
  | unannounced | announced | connecting | connected | streaming => exact nomatch hstage
  | silent not_notifies attach_eq => exact (attach_eq schedule).symm
  | @missed notifier result events notifies issues attach_eq =>
      obtain ⟨pending, log⟩ := notifier
      obtain rfl : pending = [] := hpending
      rw [attach_eq, ← issues.log_eq]
      rfl

/-- A session at rest on a socket is what the turns of its streams come to. -/
theorem Reached.outcome_of_streaming {state : Streaming} (hreached : occasion.Reached session)
    (hrests : occasion.Rests session) (hstage : session.stage = .streaming state) :
    ∃ turns, occasion.opening.follow turns = state ∧
      ∀ schedule, occasion.opening.run schedule = state →
        occasion.outcome session = occasion.attach schedule := by
  obtain ⟨hpending, -⟩ := rests_iff.mp hrests
  cases hreached with
  | unannounced | announced | connecting | connected | silent | missed => exact nomatch hstage
  | @streaming notifier connected issues turns =>
      obtain ⟨pending, log⟩ := notifier
      obtain rfl : pending = [] := hpending
      have hstate := AttachStage.streaming.inj hstage
      refine ⟨turns, hstate, ?_⟩
      intro schedule hrun
      rw [attach_of_connected connected, hrun, ← hstate, ← issues.log_eq]
      rfl

/-- At rest a session has come to what `Client.attach` tells. -/
theorem Reached.exists_attach_eq (hreached : occasion.Reached session)
    (hrests : occasion.Rests session) :
    ∃ schedule, occasion.outcome session = occasion.attach schedule := by
  obtain ⟨-, ⟨result, hstage⟩ | ⟨state, hstage, hrest⟩⟩ := rests_iff.mp hrests
  · exact ⟨[], hreached.outcome_of_ended hrests hstage []⟩
  · obtain ⟨turns, hturns, houtcome⟩ := hreached.outcome_of_streaming hrests hstage
    refine ⟨turns, houtcome turns ?_⟩
    rw [← hturns] at hrest ⊢
    exact Streaming.run_of_rest hrest

/-- Where there is a socket, four turns of the coordinator come to the streams. -/
theorem follow_opening (hconnected : occasion.client.Connected occasion.net occasion.config) :
    occasion.follow {} (List.replicate 4 (.party .coordinator)) =
      ⟨.streaming occasion.opening, occasion.openingEvents,
        { pending := occasion.config.sizes occasion.refused }⟩ := by
  obtain ⟨hannounced, hpassthrough, hconnect⟩ := hconnected
  rcases hresult : occasion.net.connect occasion.config.socketPath occasion.client.kind with
    ⟨_ | handle, after⟩
  · rw [hresult] at hconnect
    exact absurd hconnect Bool.false_ne_true
  · simp [follow, turn, act?, actParty?, open?, hannounced, hpassthrough, hresult,
      Network.connection?_of_connect hresult, opening, openingEvents]

/-- Every session is brought about by turns. -/
theorem exists_outcome_eq (occasion : Occasion) (schedule : List Party) :
    ∃ actors, occasion.Rests (occasion.follow {} actors) ∧
      occasion.outcome (occasion.follow {} actors) = occasion.attach schedule := by
  by_cases hconnected : occasion.client.Connected occasion.net occasion.config
  · obtain ⟨turns, -, hturns⟩ := occasion.opening.exists_run_eq_follow schedule
    have hrest := occasion.opening.next?_run schedule
    rw [hturns] at hrest
    obtain ⟨log, hlog, hrests⟩ := occasion.rests_of_opened occasion.openingEvents
      { pending := occasion.config.sizes occasion.refused } hrest
    rw [← follow_opening hconnected, ← follow_append] at hlog
    rw [← hlog] at hrests
    refine ⟨_, hrests, ?_⟩
    obtain ⟨-, -, houtcome⟩ :=
      (Reached.unannounced.follow _).outcome_of_streaming hrests (by rw [hlog])
    exact houtcome schedule hturns
  · -- without a socket the schedule plays no part
    obtain ⟨actors, hrests⟩ := occasion.exists_rests {}
    have hreached : occasion.Reached (occasion.follow {} actors) :=
      Reached.unannounced.follow actors
    refine ⟨actors, hrests, ?_⟩
    obtain ⟨-, ⟨result, hstage⟩ | ⟨state, hstage, -⟩⟩ := rests_iff.mp hrests
    · exact hreached.outcome_of_ended hrests hstage schedule
    · exact absurd (hreached.connected_of_streaming hstage) hconnected

end Occasion

end ContainerAttach
