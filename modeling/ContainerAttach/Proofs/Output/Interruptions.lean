import Mathlib.Data.List.Forall2
import ContainerAttach.Proofs.Output.Journals
import ContainerAttach.Proofs.Stream.Interruptions

/-!
# Interruptions of the output

A run of the demultiplexer is compared with one that is interrupted more often: its source
and its sinks have marked scripts, and what was put into them makes reads and writes fail
that are then made again.  The two runs are `Alike` at the start and, whatever they do, in
the end, and the second one has the journal of the first, with more interruptions in it
(`Demultiplexer.run_disturbed`).

Only reads and writes are made again.  A flush that fails ends the run, also if it was
interrupted (`Demultiplexer.Keeps.ending_of_flush`).
-/

namespace ContainerAttach

/-! ## Handing over again -/

namespace Handover

/-- The second handover makes the same write with more interruptions. -/
structure Repeats (handover repeated : Handover) : Prop where
  stream : repeated.stream = handover.stream
  payload : repeated.payload = handover.payload
  verdict : repeated.verdict = handover.verdict
  interruptions : handover.interruptions.Sublist repeated.interruptions

variable {handover repeated : Handover}

theorem Repeats.packet (hrepeats : handover.Repeats repeated) :
    repeated.packet = handover.packet := by
  rw [Handover.packet, hrepeats.stream, hrepeats.payload]
  rfl

theorem Repeats.ending {α : Type} (hrepeats : handover.Repeats repeated) (value : α) :
    repeated.ending value = handover.ending value := by
  rw [Handover.ending, hrepeats.stream, hrepeats.payload, hrepeats.verdict]
  rfl

end Handover

namespace Sink

variable {script : List (Marked WriteStep)} {calm disturbed after : Sink}

theorem Alike.verdict (halike : calm.Alike script disturbed) {verdict : Verdict}
    (hcalls : calm.Calls verdict.flushes after) :
    ∃ last, disturbed.Calls verdict.flushes last ∧ after.Alike script last := by
  cases verdict with
  | refused | short | crashed =>
      obtain rfl := calls_nil_iff.mp hcalls
      exact ⟨disturbed, .nil disturbed, halike⟩
  | delivered | unflushed =>
      obtain ⟨middle, hflush, hnil⟩ := calls_flush_iff.mp hcalls
      obtain rfl := calls_nil_iff.mp hnil
      obtain ⟨last, hlast, hafter⟩ := halike.flush hflush
      exact ⟨last, calls_flush hlast, hafter⟩

/-- What is handed over on the calm side is handed over on the disturbed side, with the same
verdict. -/
theorem Alike.handover (halike : calm.Alike script disturbed) {handover : Handover}
    (hcalls : calm.Calls handover.calls after) :
    ∃ repeated last, handover.Repeats repeated ∧ disturbed.Calls repeated.calls last ∧
      after.Alike script last := by
  obtain ⟨middle, hattempts, hflushes⟩ := calls_append_iff.mp hcalls
  obtain ⟨interruptions, between, hsublist, hinterrupted, hbetween, hmiddle⟩ :=
    halike.attempts handover.interrupted hattempts
  obtain ⟨last, hlast, hafter⟩ := hmiddle.verdict hflushes
  refine ⟨{ handover with interruptions := interruptions, interrupted := hinterrupted }, last,
    ⟨rfl, rfl, rfl, hsublist⟩, ?_, hafter⟩
  exact hbetween.append hlast

end Sink

/-! ## All sinks -/

namespace Outputs

/-- The same sinks are there on both sides, and they differ by what is left of their
scripts. -/
def Alike (scripts : StdStream → List (Marked WriteStep)) (calm disturbed : Outputs) : Prop :=
  ∀ stream, Option.Rel (Sink.Alike (scripts stream)) (calm.sink? stream) (disturbed.sink? stream)

variable {scripts : StdStream → List (Marked WriteStep)} {calm disturbed after : Outputs}

theorem Alike.put (halike : calm.Alike scripts disturbed) {stream : StdStream}
    {sink other last final : Sink} (hsink : calm.sink? stream = some sink)
    (hother : disturbed.sink? stream = some other) (hlast : last.Alike (scripts stream) final) :
    (calm.put stream last).Alike scripts (disturbed.put stream final) := by
  intro name
  by_cases hname : name = stream
  · subst hname
    rw [sink?_put_self hsink, sink?_put_self hother]
    exact .some hlast
  · rw [sink?_put_of_ne calm hname, sink?_put_of_ne disturbed hname]
    exact halike name

theorem Alike.exists_sink (halike : calm.Alike scripts disturbed) {stream : StdStream}
    {sink : Sink} (hsink : calm.sink? stream = some sink) :
    ∃ other, disturbed.sink? stream = some other ∧ sink.Alike (scripts stream) other := by
  have hrel := halike stream
  rw [hsink] at hrel
  generalize disturbed.sink? stream = found at hrel
  cases hrel with
  | some hother => exact ⟨_, rfl, hother⟩

theorem Alike.handsOver (halike : calm.Alike scripts disturbed) {handover : Handover}
    (hhands : calm.HandsOver handover after) :
    ∃ repeated last, handover.Repeats repeated ∧ disturbed.HandsOver repeated last ∧
      after.Alike scripts last := by
  obtain ⟨sink, last, hsink, hcalls, rfl⟩ := hhands
  obtain ⟨other, hother, hsinks⟩ := halike.exists_sink hsink
  obtain ⟨repeated, final, hrepeats, hfinal, hlast⟩ := hsinks.handover hcalls
  refine ⟨repeated, disturbed.put handover.stream final, hrepeats, ?_,
    halike.put hsink hother hlast⟩
  exact ⟨other, final, by rw [hrepeats.stream, hother], hfinal, by rw [hrepeats.stream]⟩

end Outputs

/-! ## Journals -/

/-- The runs stop at the same. -/
inductive Stop.Repeats : Stop → Stop → Prop
  | same (stop : Stop) : Stop.Repeats stop stop
  | undelivered {handover repeated : Handover} (repeats : handover.Repeats repeated) :
      Stop.Repeats (.undelivered handover) (.undelivered repeated)

namespace Stop

variable {stop repeated : Stop}

theorem Repeats.read (hrepeats : stop.Repeats repeated) : repeated.read = stop.read := by
  cases hrepeats with
  | same => rfl
  | undelivered repeats => rw [Stop.read, Stop.read, repeats.packet]

theorem Repeats.ending (hrepeats : stop.Repeats repeated) (tally : Tally) :
    repeated.ending tally = stop.ending tally := by
  cases hrepeats with
  | same => rfl
  | undelivered repeats => exact repeats.ending tally

end Stop

/-- The second journal hands over the same with the same verdicts, and stops at the same. -/
structure Journal.Repeats (journal repeated : Journal) : Prop where
  deliveries : List.Forall₂ Handover.Repeats journal.deliveries repeated.deliveries
  stop : journal.stop.Repeats repeated.stop

theorem payloadsOf_of_repeats {handovers repeated : List Handover}
    (hrepeats : List.Forall₂ Handover.Repeats handovers repeated) (stream : StdStream) :
    payloadsOf stream repeated = payloadsOf stream handovers := by
  induction hrepeats with
  | nil => rfl
  | @cons handover other handovers repeated hfirst hrest ih =>
      unfold payloadsOf handoversTo at ih ⊢
      by_cases hstream : handover.stream = stream
      · simp [hfirst.stream, hfirst.payload, hstream, ih]
      · simp [hfirst.stream, hstream, ih]

/-- What was interrupted is not counted twice. -/
theorem Journal.Repeats.ending {journal repeated : Journal} (hrepeats : journal.Repeats repeated) :
    repeated.ending = journal.ending := by
  have htally : Tally.ofDeliveries repeated.deliveries = .ofDeliveries journal.deliveries := by
    unfold Tally.ofDeliveries
    rw [payloadsOf_of_repeats hrepeats.deliveries, payloadsOf_of_repeats hrepeats.deliveries,
      hrepeats.deliveries.length_eq]
  rw [Journal.ending, Journal.ending, htally, hrepeats.stop.ending]

namespace Outputs

variable {scripts : StdStream → List (Marked WriteStep)} {calm disturbed last : Outputs}

theorem Alike.happens (halike : calm.Alike scripts disturbed) {stop : Stop}
    (hhappens : stop.Happens calm last) :
    ∃ repeated final, stop.Repeats repeated ∧ repeated.Happens disturbed final ∧
      last.Alike scripts final := by
  cases stop with
  | ended =>
      obtain rfl : last = calm := hhappens
      exact ⟨.ended, disturbed, .same _, rfl, halike⟩
  | unread error =>
      obtain ⟨herror, rfl⟩ := hhappens
      exact ⟨.unread error, disturbed, .same _, ⟨herror, rfl⟩, halike⟩
  | unwanted packet =>
      obtain ⟨habsent, rfl⟩ := hhappens
      refine ⟨.unwanted packet, disturbed, .same _, ⟨?_, rfl⟩, halike⟩
      intro stream htag
      exact (eq_none_iff_of_rel (halike stream)).mp (habsent stream htag)
  | undelivered handover =>
      obtain ⟨hverdict, hhands⟩ := hhappens
      obtain ⟨repeated, final, hrepeats, hfinal, hlast⟩ := halike.handsOver hhands
      rw [← hrepeats.verdict] at hverdict
      exact ⟨.undelivered repeated, final, .undelivered hrepeats, ⟨hverdict, hfinal⟩, hlast⟩

/-- Reads that are interrupted leave the sinks to the reads after them. -/
theorem Serves.retries {reads : List ReadResult} {deliveries : List Handover} {stop : Stop}
    {interruptions : List IoError}
    (hinterrupted : ∀ error ∈ interruptions, error.isInterrupted = true)
    (hserves : calm.Serves ⟨reads, deliveries, stop⟩ last) :
    calm.Serves ⟨interruptions.map .failed ++ reads, deliveries, stop⟩ last := by
  induction interruptions with
  | nil => exact hserves
  | cons error interruptions ih =>
      obtain ⟨herror, hothers⟩ := List.forall_mem_cons.mp hinterrupted
      exact .retry herror (ih hothers)

end Outputs

/-- A source and sinks on both sides that differ by what is left of the scripts. -/
structure PartsAlike (reads : List (Marked ReadStep)) (writes : StdStream → List (Marked WriteStep))
    (calm disturbed : Source × Outputs) : Prop where
  source : calm.1.Alike reads disturbed.1
  outputs : calm.2.Alike writes disturbed.2

/-- A journal that fits the calm side is repeated by one that fits the disturbed side. -/
theorem Outputs.Serves.disturbed {capacity : Nat} {reads : List (Marked ReadStep)}
    {writes : StdStream → List (Marked WriteStep)} {calm last : Outputs} {journal : Journal}
    (hserves : calm.Serves journal last) :
    ∀ {source rest other : Source} {disturbed : Outputs},
      source.Gives capacity journal.reads rest →
        PartsAlike reads writes (source, calm) (other, disturbed) →
          ∃ repeated final left, journal.Repeats repeated ∧
            other.Gives capacity repeated.reads left ∧ disturbed.Serves repeated final ∧
              PartsAlike reads writes (rest, last) (left, final) := by
  -- each turn of the calm side is one of the disturbed side, after reads that are interrupted
  induction hserves with
  | @stop calm last stop happens =>
      intro source rest other disturbed hgives halike
      cases hgives with
      | cons read gives =>
          cases gives with
          | nil =>
              obtain ⟨interruptions, left, hall, hleft, hrest⟩ := halike.source.read read
              obtain ⟨repeated, final, hrepeats, hfinal, hlast⟩ := halike.outputs.happens happens
              rw [← hrepeats.read] at hleft
              exact ⟨_, final, left, ⟨.nil, hrepeats⟩, hleft, (Serves.stop hfinal).retries hall,
                hrest, hlast⟩
  | @retry calm last results deliveries stop error interrupted serves ih =>
      intro source rest other disturbed hgives halike
      cases hgives with
      | cons read gives =>
          obtain ⟨interruptions, next, hall, hnext, hmiddle⟩ := halike.source.read read
          obtain ⟨⟨more, again, stopped⟩, final, left, hrepeats, hleft, hfinal, hafter⟩ :=
            ih gives ⟨hmiddle, halike.outputs⟩
          refine ⟨⟨interruptions.map .failed ++ [.failed error] ++ more, again, stopped⟩, final,
            left, ⟨hrepeats.deliveries, hrepeats.stop⟩, hnext.append hleft, ?_, hafter⟩
          rw [List.append_assoc]
          exact (Serves.retry interrupted hfinal).retries hall
  | @deliver calm middle last results deliveries stop handover delivered hands serves ih =>
      intro source rest other disturbed hgives halike
      cases hgives with
      | cons read gives =>
          obtain ⟨interruptions, next, hall, hnext, hmiddle⟩ := halike.source.read read
          obtain ⟨repeated, between, hrepeats, hbetween, houtputs⟩ :=
            halike.outputs.handsOver hands
          obtain ⟨⟨more, again, stopped⟩, final, left, hothers, hleft, hfinal, hafter⟩ :=
            ih gives ⟨hmiddle, houtputs⟩
          have hdelivered : repeated.verdict = .delivered := hrepeats.verdict.trans delivered
          rw [← hrepeats.packet] at hnext
          refine ⟨⟨interruptions.map .failed ++ [.data repeated.packet.bytes] ++ more,
            repeated :: again, stopped⟩, final, left,
            ⟨.cons hrepeats hothers.deliveries, hothers.stop⟩, hnext.append hleft, ?_, hafter⟩
          rw [List.append_assoc]
          exact (Serves.deliver hdelivered hbetween hfinal).retries hall

/-! ## Runs of a demultiplexer -/

/-- The sinks with other scripts for their writes. -/
def Outputs.withScripts (outputs : Outputs) (scripts : StdStream → List WriteStep) : Outputs where
  stdout := outputs.stdout.map fun sink => { sink with script := scripts .stdout }
  stderr := outputs.stderr.map fun sink => { sink with script := scripts .stderr }

namespace Demultiplexer

/-- A new demultiplexer of a source and sinks that are given other scripts. -/
def scripted (source : Source) (outputs : Outputs) (reads : List ReadStep)
    (writes : StdStream → List WriteStep) : Demultiplexer :=
  new { source with steps := reads } (outputs.withScripts writes)

/-- The demultiplexers differ by what is left of the scripts. -/
structure Alike (reads : List (Marked ReadStep)) (writes : StdStream → List (Marked WriteStep))
    (calm disturbed : Demultiplexer) : Prop where
  calm_buffer : calm.HasFullBuffer
  disturbed_buffer : disturbed.HasFullBuffer
  parts : PartsAlike reads writes calm.parts disturbed.parts

variable {reads : List (Marked ReadStep)} {writes : StdStream → List (Marked WriteStep)}
  {calm disturbed : Demultiplexer}

theorem alike_scripted (source : Source) (outputs : Outputs) (reads : List (Marked ReadStep))
    (writes : StdStream → List (Marked WriteStep)) :
    (scripted source outputs (Marked.calm reads) fun stream => Marked.calm (writes stream)).Alike
      reads writes (scripted source outputs (Marked.disturbed .fail reads) fun stream =>
        Marked.disturbed .fail (writes stream)) := by
  refine ⟨hasFullBuffer_new _ _, hasFullBuffer_new _ _, ?_, ?_⟩
  · exact ⟨reads, List.suffix_refl reads, rfl, rfl, rfl, rfl⟩
  · intro stream
    have hsink : ∀ sink : Sink, ({ sink with script := Marked.calm (writes stream) } : Sink).Alike
        (writes stream) { sink with script := Marked.disturbed .fail (writes stream) } :=
      fun sink => ⟨writes stream, List.suffix_refl _, rfl, rfl, rfl, rfl, rfl, rfl⟩
    obtain ⟨stdout, stderr⟩ := outputs
    cases stream with
    | stdin => exact .none
    | stdout =>
        cases stdout with
        | none => exact .none
        | some sink => exact .some (hsink sink)
    | stderr =>
        cases stderr with
        | none => exact .none
        | some sink => exact .some (hsink sink)

theorem Alike.run (halike : calm.Alike reads writes disturbed) :
    calm.run.2.Alike reads writes disturbed.run.2 ∧
      ∃ journal repeated, calm.Keeps journal ∧ disturbed.Keeps repeated ∧
        journal.Repeats repeated := by
  obtain ⟨journal, last, rest, hgives, hserves⟩ := calm.exists_serves
  obtain ⟨repeated, final, left, hrepeats, hleft, hfinal, hparts⟩ :=
    hserves.disturbed hgives halike.parts
  obtain ⟨buffer, hbuffer, hrun⟩ := run_of_serves halike.calm_buffer hserves hgives
  obtain ⟨other, hother, hdisturbed⟩ := run_of_serves halike.disturbed_buffer hfinal hleft
  refine ⟨?_, journal, repeated, keeps_of_serves halike.calm_buffer hserves hgives,
    keeps_of_serves halike.disturbed_buffer hfinal hleft, hrepeats⟩
  rw [hrun, hdisturbed]
  exact ⟨hbuffer, hother, hparts⟩

theorem Alike.runs (count : Nat) :
    ∀ {calm disturbed : Demultiplexer}, calm.Alike reads writes disturbed →
      (calm.runs count).2.Alike reads writes (disturbed.runs count).2 := by
  induction count with
  | zero => exact fun halike => halike
  | succ count ih => exact fun halike => ih halike.run.1

/-- A flush is made once.  If it fails, the run ends with its error. -/
theorem Keeps.ending_of_flush {before : Demultiplexer} {journal : Journal}
    (hkeeps : before.Keeps journal) {handover : Handover} (hmem : handover ∈ journal.handovers)
    {error : IoError} (hflush : .flush (some error) ∈ handover.calls) :
    before.run.1 = .failed (.write handover.stream.name error) := by
  -- of the calls of a handover only those after the attempts are flushes
  have hverdict : handover.verdict = .unflushed error := by
    rw [Handover.calls, List.mem_append] at hflush
    rcases hflush with hattempt | hflush
    · simp [Call.attempts] at hattempt
    · cases hcase : handover.verdict with
      | unflushed cause =>
          rw [hcase] at hflush
          simp only [Verdict.flushes, List.mem_singleton, Call.flush.injEq] at hflush
          rw [Option.some.inj hflush]
      | delivered | refused | short | crashed =>
          rw [hcase] at hflush
          simp [Verdict.flushes] at hflush
  rcases List.mem_append.mp hmem with hdelivered | hstopped
  · have hcase := hkeeps.consistent.delivered handover hdelivered
    rw [hverdict] at hcase
    exact absurd hcase (by simp)
  · rw [hkeeps.ending, Journal.ending]
    cases hstop : journal.stop with
    | ended | unread | unwanted => simp [hstop, Stop.handovers] at hstopped
    | undelivered last =>
        rw [hstop] at hstopped
        obtain rfl := List.mem_singleton.mp hstopped
        rw [Stop.ending, Handover.ending, hverdict]

/-- What interruptions of reads and writes leave of the runs of two demultiplexers. -/
structure Unnoticed (reads : List (Marked ReadStep)) (writes : StdStream → List (Marked WriteStep))
    (calm disturbed : Demultiplexer) : Prop where
  ending : disturbed.run.1 = calm.run.1
  /-- The same steps of its own are left to each source. -/
  unread : calm.run.2.source.Alike reads disturbed.run.2.source
  /-- The sinks have accepted the same data and were flushed as often. -/
  sinks : calm.run.2.outputs.Alike writes disturbed.run.2.outputs
  /-- Every call more is a write of a whole payload that was interrupted. -/
  repeats : ∃ journal repeated, calm.Keeps journal ∧ disturbed.Keeps repeated ∧
    journal.Repeats repeated
  /-- An interruption of a flush is noticed. -/
  flush : ∀ journal, disturbed.Keeps journal → ∀ handover ∈ journal.handovers, ∀ error,
    .flush (some error) ∈ handover.calls →
      disturbed.run.1 = .failed (.write handover.stream.name error)

theorem Alike.unnoticed (halike : calm.Alike reads writes disturbed) :
    Unnoticed reads writes calm disturbed := by
  obtain ⟨hafter, journal, repeated, hcalm, hdisturbed, hrepeats⟩ := halike.run
  refine ⟨?_, hafter.parts.source, hafter.parts.outputs,
    ⟨journal, repeated, hcalm, hdisturbed, hrepeats⟩, ?_⟩
  · calc disturbed.run.1
        = repeated.ending := hdisturbed.ending
      _ = journal.ending := hrepeats.ending
      _ = calm.run.1 := hcalm.ending.symm
  · intro other hkeeps handover hmem error hflush
    exact hkeeps.ending_of_flush hmem hflush

/-- **Interrupted reads and writes are not noticed.**  Whatever interruptions are put into the
steps of the source and the scripts of the sinks, every run ends as it does without them,
with the same bytes accepted, the same number of flushes and the same steps left. -/
theorem run_disturbed (source : Source) (outputs : Outputs) (reads : List (Marked ReadStep))
    (writes : StdStream → List (Marked WriteStep)) (earlier : Nat) :
    Unnoticed reads writes
      ((scripted source outputs (Marked.calm reads) fun stream =>
        Marked.calm (writes stream)).runs earlier).2
      ((scripted source outputs (Marked.disturbed .fail reads) fun stream =>
        Marked.disturbed .fail (writes stream)).runs earlier).2 := by
  have halike := (alike_scripted source outputs reads writes).runs earlier
  exact halike.unnoticed

/-- An interrupted read and an interrupted write are made again, an interrupted flush is not. -/
example :
    let sink : Sink :=
      { script := [.fail (.ofKind .interrupted)], flushScript := [some (.ofKind .interrupted)] }
    let steps := [.fail (.ofKind .interrupted), .data [2, 65]]
    (Relay.run ⟨⟨some sink, none⟩, {}⟩ (.ofPackets steps) [0, 0]).1 =
      .failed (.write "stdout" (.ofKind .interrupted)) := by
  decide +kernel

end Demultiplexer

end ContainerAttach
