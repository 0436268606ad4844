import ContainerAttach.Proofs.Input.Forwarding
import ContainerAttach.Proofs.Stream.Calls

/-!
# Forwarding to a sink that may refuse

A sink may take a write in parts, take nothing of it, fail or tear the task down.  A run
of the forwarder is told here as a list of turns, each a read with the calls that write
what the read has released.  It is compared with a run on a sink that takes everything and
gets the same reads: `Source.replaying` is a source that gives some reads again, and what
such a run releases from them is `releasedFrom`.

A call may stop the run (`Call.stop?`).  If none does, all that is released is accepted, and
the run ends as the other one does.  Otherwise the call is the last one of the last turn and
decides the end, even if the keys were completed by the same read (`Forwards`).  Either way
the accepted bytes are the beginning of those released, so the keys are never among them
(`forward_account`).
-/

namespace ContainerAttach

/-! ## Reads made again -/

/-- The reads give the answers, one after the other. -/
inductive Source.Answers (capacity : Nat) : Source → List ReadResult → Source → Prop
  | nil (source : Source) : Answers capacity source [] source
  | read {source middle last : Source} {result : ReadResult} {results : List ReadResult}
      (read : source.read capacity = (result, middle))
      (answers : Answers capacity middle results last) :
      Answers capacity source (result :: results) last

/-- The step of a source that answers a read. -/
def ReadResult.step : ReadResult → ReadStep
  | .data bytes => .data bytes
  | .failed error => .fail error

/-- A source that gives the same answers to the first reads, and then fails. -/
def Source.replaying (results : List ReadResult) : Source :=
  { framing := .packet, steps := results.map ReadResult.step ++ [.fail (.ofKind .other)] }

/-- What is written to a sink that takes everything, from such a source.  The failing read
behind the others releases nothing. -/
def releasedFrom (keys : Bytes) (results : List ReadResult) : Bytes :=
  (forward (.replaying results) (.ofKeys keys) {} 0).2.2.data

/-- The answer has room in a buffer of the given capacity. -/
def ReadResult.Fits (capacity : Nat) : ReadResult → Prop
  | .data bytes => bytes.length ≤ capacity
  | .failed _ => True

theorem Source.fits_read {source rest : Source} {capacity : Nat} {result : ReadResult}
    (hread : source.read capacity = (result, rest)) : result.Fits capacity := by
  cases result with
  | data bytes => exact length_read_le hread
  | failed error => trivial

theorem Source.Answers.fits {source rest : Source} {capacity : Nat} {results : List ReadResult}
    (hanswers : source.Answers capacity results rest) :
    ∀ result ∈ results, result.Fits capacity := by
  induction hanswers with
  | nil source => simp
  | read read answers ih => exact List.forall_mem_cons.mpr ⟨fits_read read, ih⟩

theorem Source.read_replaying {capacity : Nat} {result : ReadResult}
    (hfits : result.Fits capacity) (results : List ReadResult) :
    (replaying (result :: results)).read capacity = (result, replaying results) := by
  cases result with
  | data bytes => exact Prod.ext (congrArg ReadResult.data (List.take_of_length_le hfits)) rfl
  | failed error => rfl

/-! ## A run that nothing stops -/

/-- The end of a run that is stopped by a write. -/
def Ending.ofStop : Ending IoError Unit → Ending ForwardError Nat
  | .failed cause => .failed (.write cause)
  | _ => .crashed

/-- How a run ends after a read, if it ends with it. -/
def Continuation.ending? (next : Continuation) (written : Nat) :
    Option (Ending ForwardError Nat) :=
  match next with
  | .goOn _ => none
  | .detach => some (.failed (.detached written))
  | .finish => some (.done written)
  | .fail cause => some (.failed (.read cause))

theorem Continuation.exists_goOn {next : Continuation} {written : Nat}
    (hnone : next.ending? written = none) : ∃ scanner, next = .goOn scanner := by
  cases next with
  | goOn scanner => exact ⟨scanner, rfl⟩
  | detach | finish | fail => exact absurd hnone (by simp [ending?])

/-- The number that the end of a run reports to have been written. -/
def Ending.written? : Ending ForwardError Nat → Option Nat
  | .done written => some written
  | .failed (.detached written) => some written
  | _ => none

/-- A write has ended the run. -/
def Ending.IsRefusal : Ending ForwardError Nat → Prop
  | .failed (.write _) => True
  | .crashed => True
  | _ => False

namespace DetachScanner

/-- What is released from some reads, and how the run ends that makes them.  A read that
fails comes behind them. -/
def course (scanner : DetachScanner) (written : Nat) :
    List ReadResult → Bytes × Ending ForwardError Nat
  | [] => ([], .failed (.read (.ofKind .other)))
  | result :: results =>
    match scanner.react result with
    | ⟨output, .goOn scanner⟩ =>
      match scanner.course (written + output.length) results with
      | (released, ending) => (output ++ released, ending)
    | ⟨output, .detach⟩ => (output, .failed (.detached (written + output.length)))
    | ⟨output, .finish⟩ => (output, .done (written + output.length))
    | ⟨output, .fail cause⟩ => (output, .failed (.read cause))

variable {scanner : DetachScanner} {result : ReadResult} {output : Bytes} {next : Continuation}

theorem course_of_goOn {scanner' : DetachScanner}
    (hreact : scanner.react result = ⟨output, .goOn scanner'⟩) (written : Nat)
    (results : List ReadResult) :
    scanner.course written (result :: results) =
      (output ++ (scanner'.course (written + output.length) results).1,
        (scanner'.course (written + output.length) results).2) := by
  rw [course, hreact]

theorem course_of_end (hreact : scanner.react result = ⟨output, next⟩) {written : Nat}
    {ending : Ending ForwardError Nat} (hend : next.ending? (written + output.length) = some ending)
    (results : List ReadResult) :
    scanner.course written (result :: results) = (output, ending) := by
  rw [course, hreact]
  cases next with
  | goOn scanner' => exact absurd hend (by simp [Continuation.ending?])
  | detach | finish | fail => exact congrArg (Prod.mk output) (Option.some.inj hend)

theorem output_prefix_course (hreact : scanner.react result = ⟨output, next⟩) (written : Nat)
    (results : List ReadResult) : output <+: (scanner.course written (result :: results)).1 := by
  cases hend : next.ending? (written + output.length) with
  | some ending =>
      exact ⟨[], by rw [course_of_end hreact hend, List.append_nil]⟩
  | none =>
      obtain ⟨scanner', rfl⟩ := Continuation.exists_goOn hend
      rw [course_of_goOn hreact]
      exact List.prefix_append output _

/-- The end of such a run counts what was released, and is no refusal. -/
theorem course_ending (results : List ReadResult) :
    ∀ (scanner : DetachScanner) (written : Nat),
      (∀ count, (scanner.course written results).2.written? = some count →
        count = written + (scanner.course written results).1.length) ∧
      ¬ (scanner.course written results).2.IsRefusal := by
  induction results with
  | nil => exact fun scanner written => ⟨fun count hcount => absurd hcount (by simp [course,
      Ending.written?]), id⟩
  | cons result results ih =>
      intro scanner written
      rcases hreact : scanner.react result with ⟨output, next⟩
      cases hend : next.ending? (written + output.length) with
      | some ending =>
          rw [course_of_end hreact hend]
          cases next with
          | goOn => exact absurd hend (by simp [Continuation.ending?])
          | detach | finish =>
              obtain rfl := Option.some.inj hend
              exact ⟨fun count hcount => (Option.some.inj hcount).symm, id⟩
          | fail cause =>
              obtain rfl := Option.some.inj hend
              exact ⟨fun count hcount => absurd hcount (by simp [Ending.written?]), id⟩
      | none =>
          obtain ⟨scanner', rfl⟩ := Continuation.exists_goOn hend
          obtain ⟨hcount, hrefusal⟩ := ih scanner' (written + output.length)
          rw [course_of_goOn hreact]
          refine ⟨fun count hwritten => ?_, hrefusal⟩
          rw [hcount count hwritten, List.length_append, Nat.add_assoc]

end DetachScanner

/-- The last turn of the forwarder, with a sink that has taken the output. -/
theorem forward_of_end {source rest : Source} {scanner : DetachScanner} {sink after : Sink}
    {result : ReadResult} {output : Bytes} {next : Continuation}
    (hread : source.read forwardCapacity = (result, rest))
    (hreact : scanner.react result = ⟨output, next⟩)
    (hwrite : sink.writeAll output = (.done (), after)) {written : Nat}
    {ending : Ending ForwardError Nat}
    (hend : next.ending? (written + output.length) = some ending) :
    forward source scanner sink written = (ending, rest, after) := by
  rw [forward_of_writeAll hread hreact hwrite]
  cases next with
  | goOn scanner' => exact absurd hend (by simp [Continuation.ending?])
  | detach | finish | fail =>
      obtain rfl := Option.some.inj hend
      rfl

/-- One turn of the forwarder, with a sink that has stopped it. -/
theorem forward_of_stop {source rest : Source} {scanner : DetachScanner} {sink after : Sink}
    {result : ReadResult} {output : Bytes} {next : Continuation} {stop : Ending IoError Unit}
    (hread : source.read forwardCapacity = (result, rest))
    (hreact : scanner.react result = ⟨output, next⟩)
    (hwrite : sink.writeAll output = (stop, after)) (hstop : stop ≠ .done ()) (written : Nat) :
    forward source scanner sink written = (.ofStop stop, rest, after) := by
  rw [forward]
  split
  next result' rest' hread' =>
  obtain ⟨rfl, rfl⟩ := Prod.mk.inj (hread.symm.trans hread')
  split
  next output' next' hreact' =>
  obtain ⟨rfl, rfl⟩ := Reaction.mk.inj (hreact.symm.trans hreact')
  cases stop with
  | done value => exact absurd rfl hstop
  | failed cause => simp only [hwrite, Ending.ofStop]
  | crashed => simp only [hwrite, Ending.ofStop]

/-- A sink that takes everything ends up with what the reads release. -/
theorem forward_replaying (results : List ReadResult)
    (hfits : ∀ result ∈ results, result.Fits forwardCapacity) :
    ∀ (scanner : DetachScanner) (sink : Sink) (written : Nat), sink.Willing →
      (forward (.replaying results) scanner sink written).1 =
          (scanner.course written results).2 ∧
        (forward (.replaying results) scanner sink written).2.2.data =
          sink.data ++ (scanner.course written results).1 := by
  induction results with
  | nil =>
      intro scanner sink written hwilling
      have hread : (Source.replaying []).read forwardCapacity =
          (.failed (.ofKind .other), ⟨.packet, [], []⟩) := rfl
      have hreact : scanner.react (.failed (.ofKind .other)) =
          ⟨[], .fail (.ofKind .other)⟩ := rfl
      obtain ⟨after, hwrite, hdata, -⟩ := sink.writeAll_of_willing [] hwilling
      rw [forward_of_end hread hreact hwrite rfl]
      exact ⟨rfl, hdata⟩
  | cons result results ih =>
      intro scanner sink written hwilling
      obtain ⟨hresult, hresults⟩ := List.forall_mem_cons.mp hfits
      have hread := Source.read_replaying hresult results
      rcases hreact : scanner.react result with ⟨output, next⟩
      obtain ⟨after, hwrite, hdata, hstill⟩ := sink.writeAll_of_willing output hwilling
      cases hend : next.ending? (written + output.length) with
      | some ending =>
          rw [forward_of_end hread hreact hwrite hend, DetachScanner.course_of_end hreact hend]
          exact ⟨rfl, hdata⟩
      | none =>
          obtain ⟨scanner', rfl⟩ := Continuation.exists_goOn hend
          obtain ⟨hending, hafter⟩ := ih hresults scanner' after (written + output.length) hstill
          rw [forward_of_writeAll hread hreact hwrite, DetachScanner.course_of_goOn hreact]
          refine ⟨hending, ?_⟩
          rw [hafter, hdata, List.append_assoc]

/-! ## Turns -/

/-- One read of a run, with the calls that write what it has released. -/
structure ForwardTurn where
  read : ReadResult
  calls : List Call

/-- The reads of some turns. -/
def readsOf (turns : List ForwardTurn) : List ReadResult :=
  turns.map ForwardTurn.read

/-- The calls of some turns. -/
def callsOf (turns : List ForwardTurn) : List Call :=
  turns.flatMap ForwardTurn.calls

/-- What the sink accepts in some turns. -/
def acceptedIn (turns : List ForwardTurn) : Bytes :=
  (callsOf turns).flatMap Call.accepted

/-- None of the calls stops the run. -/
def Quiet (calls : List Call) : Prop :=
  ∀ call ∈ calls, call.stop? = none

theorem callsOf_cons (turn : ForwardTurn) (turns : List ForwardTurn) :
    callsOf (turn :: turns) = turn.calls ++ callsOf turns :=
  List.flatMap_cons

theorem acceptedIn_cons (turn : ForwardTurn) (turns : List ForwardTurn) :
    acceptedIn (turn :: turns) = turn.calls.flatMap Call.accepted ++ acceptedIn turns := by
  rw [acceptedIn, callsOf_cons, List.flatMap_append, acceptedIn]

/-- The end of a run, given its turns.  The scanner may have seen something before, and so
many bytes have been written. -/
inductive Forwards (scanner : DetachScanner) (written : Nat) :
    List ForwardTurn → Ending ForwardError Nat → Prop
  | through {turns : List ForwardTurn} {ending : Ending ForwardError Nat}
      (quiet : Quiet (callsOf turns))
      (course_eq : scanner.course written (readsOf turns) = (acceptedIn turns, ending)) :
      Forwards scanner written turns ending
  | stopped (turns : List ForwardTurn) {read : ReadResult} {calls : List Call} {call : Call}
      {stop : Ending IoError Unit} (quiet : Quiet (callsOf turns ++ calls))
      (stop_eq : call.stop? = some stop) (not_done : stop ≠ .done ())
      (accepted_begins : acceptedIn (turns ++ [⟨read, calls ++ [call]⟩]) <+:
        (scanner.course written (readsOf (turns ++ [⟨read, calls ++ [call]⟩]))).1) :
      Forwards scanner written (turns ++ [⟨read, calls ++ [call]⟩]) (.ofStop stop)

/-- A quiet turn that goes on, in front of a run. -/
theorem Forwards.cons {scanner scanner' : DetachScanner} {result : ReadResult} {output : Bytes}
    (hreact : scanner.react result = ⟨output, .goOn scanner'⟩) {calls : List Call}
    (hquiet : Quiet calls) (haccepted : calls.flatMap Call.accepted = output) {written : Nat}
    {turns : List ForwardTurn} {ending : Ending ForwardError Nat}
    (hforwards : Forwards scanner' (written + output.length) turns ending) :
    Forwards scanner written (⟨result, calls⟩ :: turns) ending := by
  have hcourse : ∀ turns : List ForwardTurn,
      scanner.course written (readsOf (⟨result, calls⟩ :: turns)) =
        (output ++ (scanner'.course (written + output.length) (readsOf turns)).1,
          (scanner'.course (written + output.length) (readsOf turns)).2) :=
    fun turns => DetachScanner.course_of_goOn hreact written (readsOf turns)
  cases hforwards with
  | through quiet course_eq =>
      refine .through ?_ ?_
      · rw [callsOf_cons]
        exact List.forall_mem_append.mpr ⟨hquiet, quiet⟩
      · rw [hcourse, course_eq, acceptedIn_cons, haccepted]
  | @stopped turns read more call stop quiet stop_eq not_done accepted_begins =>
      refine .stopped (⟨result, calls⟩ :: turns) ?_ stop_eq not_done ?_
      · rw [callsOf_cons, List.append_assoc]
        exact List.forall_mem_append.mpr ⟨hquiet, quiet⟩
      · rw [List.cons_append, hcourse, acceptedIn_cons, haccepted]
        exact (List.prefix_append_right_inj _).mpr accepted_begins

/-- Every run is a list of turns with such an end. -/
theorem forward_forwards (source : Source) :
    ∀ (scanner : DetachScanner) (sink : Sink) (written : Nat), ∃ turns,
      source.Answers forwardCapacity (readsOf turns) (forward source scanner sink written).2.1 ∧
      sink.Calls (callsOf turns) (forward source scanner sink written).2.2 ∧
      Forwards scanner written turns (forward source scanner sink written).1 := by
  induction hremaining : source.remaining using Nat.strongRecOn generalizing source with
  | _ remaining ih =>
      intro scanner sink written
      rcases hread : source.read forwardCapacity with ⟨result, rest⟩
      rcases hreact : scanner.react result with ⟨output, next⟩
      obtain ⟨calls, hcalls, hpersist⟩ := sink.writeAll_persists output
      rcases hwrite : sink.writeAll output with ⟨stop, after⟩
      rw [hwrite] at hcalls hpersist
      -- a run that ends with this read has this turn only
      have hanswers : source.Answers forwardCapacity (readsOf [⟨result, calls⟩]) rest :=
        .read hread (.nil rest)
      have hone : sink.Calls (callsOf [⟨result, calls⟩]) after := by
        rw [callsOf_cons]
        exact hcalls.append (.nil after)
      cases hpersist with
      | done quiet accepted_eq =>
          cases hend : next.ending? (written + output.length) with
          | some ending =>
              rw [forward_of_end hread hreact hwrite hend]
              refine ⟨[⟨result, calls⟩], hanswers, hone, .through ?_ ?_⟩
              · rw [callsOf_cons]
                simpa [Quiet, callsOf] using quiet
              · rw [readsOf, List.map_cons, DetachScanner.course_of_end hreact hend,
                  acceptedIn_cons, accepted_eq]
                simp [acceptedIn, callsOf]
          | none =>
              obtain ⟨scanner', rfl⟩ := Continuation.exists_goOn hend
              have hresult : result ≠ .data [] := by
                rintro rfl
                simp at hreact
              have hlt : rest.remaining < remaining := by
                rw [← hremaining]
                exact Source.remaining_read_lt hread hresult
              obtain ⟨turns, hreads, hmore, hforwards⟩ :=
                ih rest.remaining hlt rest rfl scanner' after (written + output.length)
              rw [forward_of_writeAll hread hreact hwrite]
              refine ⟨⟨result, calls⟩ :: turns, .read hread hreads, ?_,
                hforwards.cons hreact quiet accepted_eq⟩
              rw [callsOf_cons]
              exact hcalls.append hmore
      | @stopped calls call _ quiet stop_eq not_done accepted_begins =>
          rw [forward_of_stop hread hreact hwrite not_done]
          refine ⟨_, hanswers, hone, .stopped [] quiet stop_eq not_done ?_⟩
          rw [List.nil_append, acceptedIn_cons]
          refine List.IsPrefix.trans ?_ (DetachScanner.output_prefix_course hreact written [])
          simpa [acceptedIn, callsOf] using accepted_begins

/-! ## The account of a run -/

/-- With a sink that takes everything, the keys are not among what is written. -/
theorem not_typed_releasedFrom (keys : Bytes) (results : List ReadResult) :
    ¬ Keys.Typed keys (releasedFrom keys results) := by
  have hwilling : ({} : Sink).Willing := by simp [Sink.Willing]
  have hforwarded := forward_forwarded keys [] (.replaying results) (.ofKeys keys) {} [] []
    (DetachScanner.watches_ofKeys keys) hwilling rfl
  rw [releasedFrom]
  rcases hrun : forward (.replaying results) (.ofKeys keys) {} 0 with ⟨ending, rest, after⟩
  rw [List.length_nil, hrun] at hforwarded
  cases hforwarded with
  | @detached earlier before chunk _ _ _ reads read ne_nil not_typed just occurs data =>
      rw [data]
      refine just.first before (List.prefix_append before keys) ?_
      exact fun heq => just.ne_nil (List.self_eq_append_right.mp heq)
  | done reads read not_typed data => rwa [data]
  | failed reads read not_interrupted not_typed cut data =>
      rw [data, List.nil_append]
      refine fun htyped => not_typed (htyped.mono ?_)
      rw [cut.split]
      exact (List.prefix_append _ _).isInfix

/-- Only the end of a list is behind a member that is not in front of its last one. -/
theorem eq_nil_of_concat_eq {α : Type} {front before behind : List α} {last member : α}
    (heq : front ++ [last] = before ++ member :: behind) (hmember : member ∉ front) :
    behind = [] := by
  rcases List.eq_nil_or_concat behind with rfl | ⟨more, other, rfl⟩
  · rfl
  · rw [List.concat_eq_append, ← List.cons_append, ← List.append_assoc] at heq
    obtain ⟨rfl, -⟩ := List.append_inj' heq rfl
    exact absurd (by simp) hmember

theorem Ending.written?_ofStop (stop : Ending IoError Unit) : (ofStop stop).written? = none := by
  cases stop <;> rfl

theorem Ending.ofStop_eq_write_iff {stop : Ending IoError Unit} {cause : IoError} :
    Ending.ofStop stop = .failed (.write cause) ↔ stop = .failed cause := by
  cases stop <;> simp [ofStop]

theorem Ending.ofStop_eq_crashed_iff {stop : Ending IoError Unit} (hstop : stop ≠ .done ()) :
    Ending.ofStop stop = .crashed ↔ stop = .crashed := by
  cases stop with
  | done value => exact absurd rfl hstop
  | failed cause => simp [ofStop]
  | crashed => simp [ofStop]

/-- What becomes of a run of the forwarder, told by its turns, whatever the sink does. -/
structure ForwardAccount (keys : Bytes) (source : Source) (sink : Sink)
    (turns : List ForwardTurn) (ending : Ending ForwardError Nat) (rest : Source)
    (after : Sink) : Prop where
  reads : source.Answers forwardCapacity (readsOf turns) rest
  calls : sink.Calls (callsOf turns) after
  data : after.data = sink.data ++ acceptedIn turns
  accepted_begins : acceptedIn turns <+: releasedFrom keys (readsOf turns)
  not_typed : keys ≠ [] → ¬ keys <:+: acceptedIn turns
  /-- A number is reported only if the sink has accepted everything, and counts it. -/
  written : ∀ count, ending = .done count ∨ ending = .failed (.detached count) →
    acceptedIn turns = releasedFrom keys (readsOf turns) ∧ count = (acceptedIn turns).length
  /-- If no call stops the run, it is the run that a sink has that takes everything. -/
  through : Quiet (callsOf turns) → acceptedIn turns = releasedFrom keys (readsOf turns) ∧
    ending = (forward (.replaying (readsOf turns)) (.ofKeys keys) {} 0).1
  refused : ∀ cause, ending = .failed (.write cause) ↔
    ∃ call ∈ callsOf turns, call.stop? = some (.failed cause)
  crashed : ending = .crashed ↔ ∃ call ∈ callsOf turns, call.stop? = some .crashed
  /-- Neither a call nor a read comes after a call that stops the run. -/
  stop_last : ∀ earlier turn later before call behind, turns = earlier ++ turn :: later →
    turn.calls = before ++ call :: behind → call.stop? ≠ none → later = [] ∧ behind = []

section Account

variable {scanner : DetachScanner} {written : Nat} {turns : List ForwardTurn}
  {ending : Ending ForwardError Nat}

theorem Forwards.accepted_begins (hforwards : Forwards scanner written turns ending) :
    acceptedIn turns <+: (scanner.course written (readsOf turns)).1 := by
  cases hforwards with
  | through quiet course_eq =>
      exact ⟨[], by rw [course_eq, List.append_nil]⟩
  | stopped turns quiet stop_eq not_done accepted_begins => exact accepted_begins

theorem Forwards.course_eq_of_quiet (hforwards : Forwards scanner written turns ending)
    (hquiet : Quiet (callsOf turns)) :
    scanner.course written (readsOf turns) = (acceptedIn turns, ending) := by
  cases hforwards with
  | through quiet course_eq => exact course_eq
  | @stopped earlier read calls call stop quiet stop_eq not_done accepted_begins =>
      have hnone := hquiet call (by simp [callsOf])
      exact absurd (stop_eq.symm.trans hnone) (Option.some_ne_none stop)

theorem Forwards.course_eq_of_written {count : Nat}
    (hforwards : Forwards scanner written turns ending) (hwritten : ending.written? = some count) :
    scanner.course written (readsOf turns) = (acceptedIn turns, ending) ∧
      count = written + (acceptedIn turns).length := by
  cases hforwards with
  | through quiet course_eq =>
      have hcount := (DetachScanner.course_ending (readsOf turns) scanner written).1 count
      rw [course_eq] at hcount
      exact ⟨course_eq, hcount hwritten⟩
  | stopped turns quiet stop_eq not_done accepted_begins =>
      exact absurd hwritten (by simp [Ending.written?_ofStop])

/-- The calls of a run decide whether a write ends it, and which one. -/
theorem Forwards.refused (hforwards : Forwards scanner written turns ending) :
    (∀ cause, ending = .failed (.write cause) ↔
      ∃ call ∈ callsOf turns, call.stop? = some (.failed cause)) ∧
    (ending = .crashed ↔ ∃ call ∈ callsOf turns, call.stop? = some .crashed) := by
  cases hforwards with
  | through quiet course_eq =>
      have hrefusal := (DetachScanner.course_ending (readsOf turns) scanner written).2
      rw [course_eq] at hrefusal
      have hnone : ∀ stop, ¬ ∃ call ∈ callsOf turns, call.stop? = some stop := by
        rintro stop ⟨call, hcall, hstop⟩
        exact Option.some_ne_none stop (hstop.symm.trans (quiet call hcall))
      refine ⟨fun cause => ⟨?_, fun h => (hnone _ h).elim⟩, ⟨?_, fun h => (hnone _ h).elim⟩⟩
      · rintro rfl
        exact (hrefusal trivial).elim
      · rintro rfl
        exact (hrefusal trivial).elim
  | @stopped earlier read calls call stop quiet stop_eq not_done accepted_begins =>
      have hcalls : callsOf (earlier ++ [⟨read, calls ++ [call]⟩]) =
          (callsOf earlier ++ calls) ++ [call] := by
        simp [callsOf]
      have honly : ∀ other, (∃ any ∈ callsOf (earlier ++ [⟨read, calls ++ [call]⟩]),
          any.stop? = some other) ↔ stop = other := by
        intro other
        rw [hcalls]
        constructor
        · rintro ⟨another, hanother, hother⟩
          rcases List.mem_append.mp hanother with hearlier | hlast
          · exact absurd (hother.symm.trans (quiet another hearlier)) (Option.some_ne_none other)
          · rw [List.mem_singleton.mp hlast, stop_eq] at hother
            exact Option.some.inj hother
        · rintro rfl
          exact ⟨call, by simp, stop_eq⟩
      exact ⟨fun cause => Ending.ofStop_eq_write_iff.trans (honly _).symm,
        (Ending.ofStop_eq_crashed_iff not_done).trans (honly .crashed).symm⟩

/-- A call that stops a run is its last one, after its last read. -/
theorem Forwards.stop_last (hforwards : Forwards scanner written turns ending)
    {earlier later : List ForwardTurn} {turn : ForwardTurn} {before behind : List Call}
    {call : Call} (hturns : turns = earlier ++ turn :: later)
    (hcalls : turn.calls = before ++ call :: behind) (hstop : call.stop? ≠ none) :
    later = [] ∧ behind = [] := by
  have hcall : call ∈ turn.calls := by simp [hcalls]
  cases hforwards with
  | through quiet course_eq =>
      refine absurd (quiet call ?_) hstop
      rw [hturns]
      exact List.mem_flatMap.mpr ⟨turn, by simp, hcall⟩
  | @stopped front read calls last stop quiet stop_eq not_done accepted_begins =>
      obtain ⟨hfront, hlast⟩ := List.forall_mem_append.mp quiet
      have hturn : turn ∉ front := by
        intro hmem
        exact hstop (hfront call (List.mem_flatMap.mpr ⟨turn, hmem, hcall⟩))
      obtain rfl := eq_nil_of_concat_eq hturns hturn
      obtain ⟨-, hturn⟩ := List.append_inj' hturns rfl
      obtain rfl := List.singleton_inj.mp hturn
      exact ⟨rfl, eq_nil_of_concat_eq hcalls fun hmem => hstop (hlast call hmem)⟩

end Account

/-- **A sink that refuses gets the beginning of what one would get that takes everything.**
A write that fails for good or accepts nothing of something is the end of the run and its
reason, and nothing else is. -/
theorem forward_account (keys : Bytes) (source : Source) (sink : Sink) :
    ∃ turns, ForwardAccount keys source sink turns (forward source (.ofKeys keys) sink 0).1
      (forward source (.ofKeys keys) sink 0).2.1 (forward source (.ofKeys keys) sink 0).2.2 := by
  obtain ⟨turns, hanswers, hcalls, hforwards⟩ := forward_forwards source (.ofKeys keys) sink 0
  have hwilling : ({} : Sink).Willing := by simp [Sink.Willing]
  obtain ⟨hending, hdata⟩ :=
    forward_replaying (readsOf turns) hanswers.fits (.ofKeys keys) {} 0 hwilling
  have hreleased : releasedFrom keys (readsOf turns) =
      ((DetachScanner.ofKeys keys).course 0 (readsOf turns)).1 := hdata
  have hprefix : acceptedIn turns <+: releasedFrom keys (readsOf turns) := by
    rw [hreleased]
    exact hforwards.accepted_begins
  refine
    ⟨turns,
      { reads := hanswers
        calls := hcalls
        data := hcalls.data
        accepted_begins := hprefix
        not_typed := fun hkeys hwithin =>
          not_typed_releasedFrom keys (readsOf turns) ⟨hkeys, hwithin.trans hprefix.isInfix⟩
        written := ?_
        through := ?_
        refused := hforwards.refused.1
        crashed := hforwards.refused.2
        stop_last := fun earlier turn later before call behind hturns hbehind hstop =>
          hforwards.stop_last hturns hbehind hstop }⟩
  · rintro count hcount
    have hwritten : (forward source (.ofKeys keys) sink 0).1.written? = some count := by
      rcases hcount with hcount | hcount <;> rw [hcount] <;> rfl
    obtain ⟨hcourse, hlength⟩ := hforwards.course_eq_of_written hwritten
    exact ⟨by rw [hreleased, hcourse], by omega⟩
  · intro hquiet
    have hcourse := hforwards.course_eq_of_quiet hquiet
    rw [hreleased, hending, hcourse]
    exact ⟨rfl, rfl⟩

/-- A write that fails comes before the keys that the same read completes.  The bytes in
front of them are offered, one is accepted, and the run ends with the failure. -/
example :
    let source : Source := ⟨.stream, [], [.data [97, 98, 16, 17]]⟩
    let sink : Sink := { script := [.atMost 1, .fail (.ofKind .brokenPipe)] }
    (forward source (.ofKeys [16, 17]) sink 0).1 =
        .failed (.write (.ofKind .brokenPipe)) ∧
      (forward source (.ofKeys [16, 17]) sink 0).2.2.data = [97] := by
  decide +kernel

end ContainerAttach
