import ContainerAttach.Input.Forward
import ContainerAttach.Proofs.Keys.Scanning
import ContainerAttach.Proofs.Stream.Reading
import ContainerAttach.Proofs.Stream.Writing

/-!
# Forwarding is a search in the whole input

The forwarder sees its input in chunks and never again.  With a sink that takes
everything, what it writes and how it ends are nevertheless those of a plain
search for the keys in all that the source gives until it ends or fails
(`forward_outcome`).  So they do not depend on where the input was cut, nor on
reads that were interrupted.

One read leads to one of five reactions (`Watches.react`).  Two of them go on and
lead to a shorter run, of which the first read can be taken off again
(`Forwarded.chunk`, `Forwarded.retry`); the other three are the ends of a run.
-/

namespace ContainerAttach

open Keys

/-! ## Places in the input -/

/-- The occurrence of the keys that ends first comes after the given bytes. -/
structure Keys.EarliestAfter (keys input before : Bytes) : Prop where
  occurs : before ++ keys <+: input
  earliest : ∀ other, other ++ keys <+: input →
    (before ++ keys).length ≤ (other ++ keys).length

/-- The input is cut where the longest start of the keys that it ends with begins, and at
its end if there are no keys. -/
structure Keys.CutBeforeStart (keys input front held : Bytes) : Prop where
  split : input = front ++ held
  longest : keys ≠ [] → LongestStart keys input held
  nil : keys = [] → held = []

/-- The source is left as the read that completed the keys has left it. -/
def Source.ReadUntilTyped (keys : Bytes) (source rest : Source) : Prop :=
  ∃ earlier chunk middle, source.Reads forwardCapacity earlier middle ∧
    middle.read forwardCapacity = (.data chunk, rest) ∧
    ¬ Typed keys earlier.flatten ∧ Typed keys (earlier.flatten ++ chunk)

theorem Keys.JustTyped.earliestAfter {keys input before : Bytes}
    (hjust : JustTyped keys (before ++ keys)) (hstart : before ++ keys <+: input) :
    EarliestAfter keys input before := by
  refine ⟨hstart, ?_⟩
  intro other hother
  by_cases hle : (before ++ keys).length ≤ (other ++ keys).length
  · exact hle
  · have hshorter := List.prefix_of_prefix_length_le hother hstart (by omega)
    refine absurd ⟨hjust.ne_nil, (List.suffix_append other keys).isInfix⟩
      (hjust.first (other ++ keys) hshorter ?_)
    intro heq
    rw [heq] at hle
    exact hle (Nat.le_refl _)

theorem Keys.EarliestAfter.eq {keys input first second : Bytes}
    (hfirst : EarliestAfter keys input first) (hsecond : EarliestAfter keys input second) :
    first = second := by
  have hle := hfirst.earliest second hsecond.occurs
  have hge := hsecond.earliest first hfirst.occurs
  have hstart := List.prefix_of_prefix_length_le hfirst.occurs hsecond.occurs hle
  exact List.append_cancel_right (hstart.eq_of_length (Nat.le_antisymm hle hge))

theorem Keys.CutBeforeStart.eq {keys input front other held held' : Bytes}
    (hcut : CutBeforeStart keys input front held)
    (hother : CutBeforeStart keys input other held') : front = other := by
  have hheld : held = held' := by
    by_cases hkeys : keys = []
    · rw [hcut.nil hkeys, hother.nil hkeys]
    · have h := hcut.longest hkeys
      have h' := hother.longest hkeys
      have hle := h'.longest held h.prefix_keys h.ne_keys h.suffix_input
      have hge := h.longest held' h'.prefix_keys h'.ne_keys h'.suffix_input
      have hsuffix := List.suffix_of_suffix_length_le h.suffix_input h'.suffix_input hle
      exact hsuffix.eq_of_length (Nat.le_antisymm hle hge)
  subst hheld
  exact List.append_cancel_right (hcut.split.symm.trans hother.split)

/-! ## One read -/

/-- What a scanner that watches the input does after a read, and what it knows then. -/
inductive Reacts (scanner : DetachScanner) (keys input released : Bytes) :
    ReadResult → Bytes → Continuation → Prop
  | finish {emitted : Bytes} (emitted_eq : emitted = scanner.held) :
      Reacts scanner keys input released (.data []) emitted .finish
  | goOn {chunk emitted : Bytes} {after : DetachScanner} (ne_nil : chunk ≠ [])
      (watches : after.Watches keys (input ++ chunk) (released ++ emitted)) :
      Reacts scanner keys input released (.data chunk) emitted (.goOn after)
  | detach {chunk emitted typed rest : Bytes} (ne_nil : chunk ≠ [])
      (split : chunk = typed ++ rest) (just : JustTyped keys (input ++ typed))
      (released_keys : released ++ emitted ++ keys = input ++ typed) :
      Reacts scanner keys input released (.data chunk) emitted .detach
  | retry {error : IoError} (interrupted : error.isInterrupted = true) :
      Reacts scanner keys input released (.failed error) [] (.goOn scanner)
  | fail {error : IoError} (not_interrupted : error.isInterrupted ≠ true) :
      Reacts scanner keys input released (.failed error) [] (.fail error)

theorem DetachScanner.Watches.react {scanner : DetachScanner} {keys input released : Bytes}
    (hwatches : scanner.Watches keys input released) (result : ReadResult) :
    Reacts scanner keys input released result (scanner.react result).output
      (scanner.react result).next := by
  cases result with
  | failed error =>
      simp only [DetachScanner.react]
      split
      · next herror => exact .retry herror
      · next herror => exact .fail herror
  | data chunk =>
      cases chunk with
      | nil => exact .finish rfl
      | cons byte bytes =>
          simp only [DetachScanner.react]
          cases hdetached : (scanner.scan (byte :: bytes)).detached with
          | false => exact .goOn (by simp) (hwatches.scan_of_not_detached hdetached)
          | true =>
              obtain ⟨-, typed, rest, hsplit, hjust, hreleased⟩ :=
                hwatches.scan_of_detached hdetached
              exact .detach (by simp) hsplit hjust hreleased

/-! ## Runs -/

/-- How a run ends that has been preceded by the given input, of a sink that began with
the given data. -/
inductive Forwarded (keys base input : Bytes) (source : Source) :
    Ending ForwardError Nat × Source × Sink → Prop
  | detached {earlier : List Bytes} {before chunk : Bytes} {middle rest : Source} {sink : Sink}
      (reads : source.Reads forwardCapacity earlier middle)
      (read : middle.read forwardCapacity = (.data chunk, rest)) (ne_nil : chunk ≠ [])
      (not_typed : ¬ Typed keys (input ++ earlier.flatten))
      (just : JustTyped keys (before ++ keys))
      (occurs : before ++ keys <+: input ++ earlier.flatten ++ chunk)
      (data : sink.data = base ++ before) :
      Forwarded keys base input source (.failed (.detached before.length), rest, sink)
  | done {chunks : List Bytes} {middle rest : Source} {sink : Sink}
      (reads : source.Reads forwardCapacity chunks middle)
      (read : middle.read forwardCapacity = (.data [], rest))
      (not_typed : ¬ Typed keys (input ++ chunks.flatten))
      (data : sink.data = base ++ (input ++ chunks.flatten)) :
      Forwarded keys base input source (.done (input ++ chunks.flatten).length, rest, sink)
  | failed {chunks : List Bytes} {front held : Bytes} {middle rest : Source} {sink : Sink}
      {error : IoError} (reads : source.Reads forwardCapacity chunks middle)
      (read : middle.read forwardCapacity = (.failed error, rest))
      (not_interrupted : error.isInterrupted ≠ true)
      (not_typed : ¬ Typed keys (input ++ chunks.flatten))
      (cut : CutBeforeStart keys (input ++ chunks.flatten) front held)
      (data : sink.data = base ++ front) :
      Forwarded keys base input source (.failed (.read error), rest, sink)

section Runs

variable {keys base input : Bytes} {source middle : Source}
  {result : Ending ForwardError Nat × Source × Sink}

/-- A chunk in front of a run has been read by it. -/
theorem Forwarded.chunk {chunk : Bytes}
    (hread : source.read forwardCapacity = (.data chunk, middle)) (hchunk : chunk ≠ [])
    (hforwarded : Forwarded keys base (input ++ chunk) middle result) :
    Forwarded keys base input source result := by
  cases hforwarded with
  | @detached earlier _ _ _ _ _ reads read ne_nil not_typed just occurs data =>
      have hinput : input ++ (chunk :: earlier).flatten = input ++ chunk ++ earlier.flatten := by
        simp
      exact .detached (.chunk hread hchunk reads) read ne_nil (by rwa [hinput]) just
        (by rwa [hinput]) data
  | @done chunks _ _ _ reads read not_typed data =>
      have hinput : input ++ chunk ++ chunks.flatten = input ++ (chunk :: chunks).flatten := by
        simp
      rw [hinput] at not_typed data ⊢
      exact .done (.chunk hread hchunk reads) read not_typed data
  | @failed chunks _ _ _ _ _ _ reads read not_interrupted not_typed cut data =>
      have hinput : input ++ chunk ++ chunks.flatten = input ++ (chunk :: chunks).flatten := by
        simp
      rw [hinput] at not_typed cut
      exact .failed (.chunk hread hchunk reads) read not_interrupted not_typed cut data

/-- An interrupted read in front of a run has left no trace in it. -/
theorem Forwarded.retry {error : IoError}
    (hread : source.read forwardCapacity = (.failed error, middle))
    (herror : error.isInterrupted = true)
    (hforwarded : Forwarded keys base input middle result) :
    Forwarded keys base input source result := by
  cases hforwarded with
  | detached reads read ne_nil not_typed just occurs data =>
      exact .detached (.retry hread herror reads) read ne_nil not_typed just occurs data
  | done reads read not_typed data =>
      exact .done (.retry hread herror reads) read not_typed data
  | failed reads read not_interrupted not_typed cut data =>
      exact .failed (.retry hread herror reads) read not_interrupted not_typed cut data

end Runs

/-- One turn of the forwarder, with a sink that has taken the output. -/
theorem forward_of_writeAll {source rest : Source} {scanner : DetachScanner} {sink after : Sink}
    {result : ReadResult} {output : Bytes} {next : Continuation}
    (hread : source.read forwardCapacity = (result, rest))
    (hreact : scanner.react result = ⟨output, next⟩)
    (hwrite : sink.writeAll output = (.done (), after)) (written : Nat) :
    forward source scanner sink written =
      match next with
      | .goOn scanner => forward rest scanner after (written + output.length)
      | .detach => (.failed (.detached (written + output.length)), rest, after)
      | .finish => (.done (written + output.length), rest, after)
      | .fail cause => (.failed (.read cause), rest, after) := by
  rw [forward]
  split
  next result' rest' hread' =>
  obtain ⟨rfl, rfl⟩ := Prod.mk.inj (hread.symm.trans hread')
  split
  next output' next' hreact' =>
  obtain ⟨rfl, rfl⟩ := Reaction.mk.inj (hreact.symm.trans hreact')
  cases next <;> simp only [hwrite]

/-- What is held at the end of a run is where the input is cut. -/
theorem DetachScanner.Watches.cutBeforeStart {scanner : DetachScanner}
    {keys input released : Bytes} (hwatches : scanner.Watches keys input released) :
    CutBeforeStart keys input released scanner.held := by
  have hheld := held_eq_take hwatches.keys_eq
  refine ⟨hwatches.released_held.symm, ?_, ?_⟩
  · intro hkeys
    rw [hheld]
    exact (hwatches.longest hkeys).longestStart
  · rintro rfl
    rw [hheld, List.take_nil]

/-- With a willing sink a run ends in one of the three ways, wherever it starts. -/
theorem forward_forwarded (keys base : Bytes) (source : Source) :
    ∀ (scanner : DetachScanner) (sink : Sink) (input released : Bytes),
      scanner.Watches keys input released → sink.Willing → sink.data = base ++ released →
        Forwarded keys base input source (forward source scanner sink released.length) := by
  induction hremaining : source.remaining using Nat.strongRecOn generalizing source with
  | _ remaining ih =>
      intro scanner sink input released hwatches hwilling hdata
      rcases hread : source.read forwardCapacity with ⟨result, rest⟩
      rcases hreact : scanner.react result with ⟨output, next⟩
      obtain ⟨after, hwrite, hafter, hstill⟩ := sink.writeAll_of_willing output hwilling
      have hreacts : Reacts scanner keys input released result output next := by
        have hreacts := hwatches.react result
        rwa [hreact] at hreacts
      rw [forward_of_writeAll hread hreact hwrite]
      have hlt : result ≠ .data [] → rest.remaining < remaining := by
        intro hresult
        rw [← hremaining]
        exact Source.remaining_read_lt hread hresult
      rw [hdata] at hafter
      -- a run that ends with this read has read nothing before it
      have hinput : input = input ++ ([] : List Bytes).flatten := by simp
      have huntyped := hwatches.not_typed
      rw [hinput] at huntyped
      cases hreacts with
      | finish emitted_eq =>
          have hlength : released.length + output.length =
              (input ++ ([] : List Bytes).flatten).length := by
            rw [← hinput, ← hwatches.released_held, emitted_eq, List.length_append]
          rw [List.append_assoc, emitted_eq, hwatches.released_held, hinput] at hafter
          simp only [hlength]
          exact .done (.nil source) hread huntyped hafter
      | @goOn chunk emitted scanner ne_nil watches =>
          have hresult : ReadResult.data chunk ≠ .data [] := by simpa using ne_nil
          have hnext := ih _ (hlt hresult) rest rfl scanner after _ _ watches hstill
            (by rw [hafter, List.append_assoc])
          rw [List.length_append] at hnext
          exact hnext.chunk hread ne_nil
      | @detach chunk emitted typed later ne_nil split just released_keys =>
          have hlength : released.length + output.length = (released ++ output).length :=
            List.length_append.symm
          simp only [hlength]
          refine .detached (.nil source) hread ne_nil huntyped (by rwa [released_keys]) ?_
            (by rw [hafter, List.append_assoc])
          rw [released_keys, split]
          simp
      | @retry error interrupted =>
          have hnext := ih _ (hlt (by simp)) rest rfl scanner after _ _ hwatches hstill
            (by simpa using hafter)
          exact hnext.retry hread interrupted
      | @fail error not_interrupted =>
          have hcut := hwatches.cutBeforeStart
          rw [hinput] at hcut
          exact .failed (.nil source) hread not_interrupted huntyped hcut (by simpa using hafter)

/-! ## The whole run -/

/-- What forwarding all of a source comes to, by a plain search for the keys in what the
source gives.  The sink began with the given data. -/
structure ForwardOutcome (keys : Bytes) (source : Source) (base : Bytes)
    (result : Ending ForwardError Nat × Source × Sink) : Prop where
  /-- The keys are found: everything in front of them is written, and nothing is read after
  the chunk that completed them. -/
  typed : Typed keys (source.intake forwardCapacity).data →
    ∃ before, EarliestAfter keys (source.intake forwardCapacity).data before ∧
      result.1 = .failed (.detached before.length) ∧ result.2.2.data = base ++ before ∧
      source.ReadUntilTyped keys result.2.1
  /-- The input ends: all of it is written. -/
  ended : ¬ Typed keys (source.intake forwardCapacity).data →
    (source.intake forwardCapacity).failure = none →
      result.1 = .done (source.intake forwardCapacity).data.length ∧
      result.2.2.data = base ++ (source.intake forwardCapacity).data ∧
      result.2.1 = (source.intake forwardCapacity).rest
  /-- A read fails: what may be the start of the keys is not written. -/
  failed : ¬ Typed keys (source.intake forwardCapacity).data →
    ∀ error, (source.intake forwardCapacity).failure = some error →
      result.1 = .failed (.read error) ∧
      (∃ front held, CutBeforeStart keys (source.intake forwardCapacity).data front held ∧
        result.2.2.data = base ++ front) ∧
      result.2.1 = (source.intake forwardCapacity).rest

/-- The end of a run tells the whole intake of its source, or that the keys are in it. -/
theorem Forwarded.outcome {keys base : Bytes} {source : Source}
    {result : Ending ForwardError Nat × Source × Sink}
    (hforwarded : Forwarded keys base [] source result) :
    ForwardOutcome keys source base result := by
  cases hforwarded with
  | @detached earlier before chunk middle rest _ reads read ne_nil not_typed just occurs data =>
      have hintake : (source.intake forwardCapacity).data =
          earlier.flatten ++ chunk ++ (rest.intake forwardCapacity).data := by
        rw [reads.intake_eq, Source.intake_of_chunk read ne_nil]
        simp [Intake.data, Intake.after]
      have hstart : before ++ keys <+: (source.intake forwardCapacity).data := by
        rw [hintake]
        exact occurs.trans (List.prefix_append _ _)
      have htyped : Typed keys (earlier.flatten ++ chunk) :=
        ⟨just.ne_nil, (List.suffix_append before keys).isInfix.trans occurs.isInfix⟩
      have hall : Typed keys (source.intake forwardCapacity).data :=
        htyped.mono (by rw [hintake]; exact (List.prefix_append _ _).isInfix)
      exact ⟨fun _ => ⟨before, just.earliestAfter hstart, rfl, data,
        earlier, chunk, middle, reads, read, not_typed, htyped⟩, absurd hall, absurd hall⟩
  | @done chunks _ rest _ reads read not_typed data =>
      have hintake : source.intake forwardCapacity = ⟨chunks, none, rest⟩ := by
        rw [reads.intake_eq, Source.intake_of_end read]
        simp [Intake.after]
      rw [List.nil_append] at not_typed data ⊢
      refine ⟨fun h => absurd h (by rwa [hintake]), ?_, ?_⟩
      · intro _ _
        rw [hintake]
        exact ⟨rfl, data, rfl⟩
      · intro _ error herror
        rw [hintake] at herror
        exact absurd herror (by simp)
  | @failed chunks front held _ rest _ error reads read not_interrupted not_typed cut data =>
      have hintake : source.intake forwardCapacity = ⟨chunks, some error, rest⟩ := by
        rw [reads.intake_eq, Source.intake_of_failed read not_interrupted]
        simp [Intake.after]
      rw [List.nil_append] at not_typed cut
      refine ⟨fun h => absurd h (by rwa [hintake]), ?_, ?_⟩
      · intro _ hnone
        rw [hintake] at hnone
        exact absurd hnone (by simp)
      · intro _ other hother
        rw [hintake] at hother ⊢
        obtain rfl := Option.some.inj hother
        exact ⟨rfl, ⟨front, held, cut, data⟩, rfl⟩

/-- Sources that give the same bytes and end alike are forwarded alike. -/
theorem ForwardOutcome.eq {keys base : Bytes} {source other : Source}
    {result result' : Ending ForwardError Nat × Source × Sink}
    (houtcome : ForwardOutcome keys source base result)
    (hother : ForwardOutcome keys other base result')
    (hdata : (other.intake forwardCapacity).data = (source.intake forwardCapacity).data)
    (hfailure : (other.intake forwardCapacity).failure =
      (source.intake forwardCapacity).failure) :
    result'.1 = result.1 ∧ result'.2.2.data = result.2.2.data := by
  by_cases htyped : Typed keys (source.intake forwardCapacity).data
  · obtain ⟨before, hbefore, hending, hwritten, -⟩ := houtcome.typed htyped
    obtain ⟨before', hbefore', hending', hwritten', -⟩ := hother.typed (by rwa [hdata])
    rw [hdata] at hbefore'
    rw [hending, hending', hwritten, hwritten', hbefore'.eq hbefore]
    exact ⟨rfl, rfl⟩
  · have htyped' : ¬ Typed keys (other.intake forwardCapacity).data := by rwa [hdata]
    cases hfail : (source.intake forwardCapacity).failure with
    | none =>
        obtain ⟨hending, hwritten, -⟩ := houtcome.ended htyped hfail
        obtain ⟨hending', hwritten', -⟩ := hother.ended htyped' (hfailure.trans hfail)
        rw [hending, hending', hwritten, hwritten', hdata]
        exact ⟨rfl, rfl⟩
    | some error =>
        obtain ⟨hending, ⟨front, held, hcut, hwritten⟩, -⟩ := houtcome.failed htyped error hfail
        obtain ⟨hending', ⟨front', held', hcut', hwritten'⟩, -⟩ :=
          hother.failed htyped' error (hfailure.trans hfail)
        rw [hdata] at hcut'
        rw [hending, hending', hwritten, hwritten', hcut'.eq hcut]
        exact ⟨rfl, rfl⟩

/-- **Forwarding is a search in the whole input.**  With a willing sink the ending and the
written data are those of a plain search for the keys in all that the source gives, and
they are the same for every source that gives the same bytes and ends in the same way. -/
theorem forward_outcome (keys : Bytes) (source : Source) {sink : Sink} (hsink : sink.Willing) :
    ForwardOutcome keys source sink.data (forward source (.ofKeys keys) sink 0) ∧
      ∀ other : Source,
        (other.intake forwardCapacity).data = (source.intake forwardCapacity).data →
        (other.intake forwardCapacity).failure = (source.intake forwardCapacity).failure →
          (forward other (.ofKeys keys) sink 0).1 = (forward source (.ofKeys keys) sink 0).1 ∧
          (forward other (.ofKeys keys) sink 0).2.2.data =
            (forward source (.ofKeys keys) sink 0).2.2.data := by
  have houtcome : ∀ source : Source,
      ForwardOutcome keys source sink.data (forward source (.ofKeys keys) sink 0) := by
    intro source
    exact (forward_forwarded keys sink.data source (.ofKeys keys) sink [] []
      (DetachScanner.watches_ofKeys keys) hsink (by simp)).outcome
  exact ⟨houtcome source, fun other => (houtcome source).eq (houtcome other)⟩

/-- Keys that are cut in two by an interrupted read are found all the same. -/
theorem forward_outcome_cut_keys :
    let source : Source :=
      ⟨.stream, [], [.data [97, 16], .fail (.ofKind .interrupted), .data [17, 98]]⟩
    ({} : Sink).Willing ∧
      (forward source (.ofKeys [16, 17]) {} 0).1 = .failed (.detached 1) ∧
      (forward source (.ofKeys [16, 17]) {} 0).2.2.data = [97] := by
  intro source
  have hsink : ({} : Sink).Willing := by
    intro step hstep
    exact absurd hstep (List.not_mem_nil)
  have hintake : (source.intake forwardCapacity).data = [97, 16, 17, 98] := by decide +kernel
  obtain ⟨before, hbefore, hending, hdata, -⟩ :=
    (forward_outcome [16, 17] source hsink).1.typed (by rw [hintake]; exact ⟨by decide, by decide⟩)
  have hearliest : EarliestAfter [16, 17] [97, 16, 17, 98] [97] := by
    refine ⟨by decide, ?_⟩
    intro other hother
    cases other with
    | nil => exact absurd hother (by decide)
    | cons byte rest => simp
  rw [hintake] at hbefore
  obtain rfl := hbefore.eq hearliest
  exact ⟨hsink, hending, hdata⟩

end ContainerAttach
