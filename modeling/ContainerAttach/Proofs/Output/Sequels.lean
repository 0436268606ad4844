import ContainerAttach.Proofs.Output.Journals

/-!
# Runs that follow one another

A demultiplexer can run again after a run, done or failed.  All that the later run takes
over from the earlier ones is where they left the source and the sinks: its buffer still
holds what they read, but a run that starts with any other buffer of full size comes to
the same (`Demultiplexer.run_congr`).  So several runs of one demultiplexer are the runs of
as many new ones, each made of the parts that the one before leaves, and the journals of
the runs, put one behind the other, are a journal of all they read and deliver.
-/

namespace ContainerAttach

namespace Journal

/-- Every handover is of a read of its own, in the order of the reads. -/
theorem Consistent.handovers_sublist {journal : Journal} (hconsistent : journal.Consistent) :
    (journal.handovers.map fun handover => ReadResult.data handover.packet.bytes).Sublist
      journal.reads := by
  have hstop : (journal.stop.handovers.map fun handover =>
      ReadResult.data handover.packet.bytes).Sublist [journal.stop.read] := by
    cases journal.stop with
    | ended | unread | unwanted => exact List.nil_sublist _
    | undelivered handover => exact List.Sublist.refl _
  have hread : (journal.handovers.map fun handover =>
      ReadResult.data handover.packet.bytes).Sublist
        (journal.reads.filter (!·.isInterrupted)) := by
    rw [hconsistent.reads_eq, handovers, List.map_append]
    exact (List.Sublist.refl _).append hstop
  exact hread.trans List.filter_sublist

end Journal

namespace Demultiplexer

/-! ## A run and its buffer -/

/-- The buffer has no influence on a run, and a run leaves it at its size. -/
theorem run_congr {before fresh : Demultiplexer} (hbefore : before.HasFullBuffer)
    (hfresh : fresh.HasFullBuffer) (hparts : before.parts = fresh.parts) :
    before.run.1 = fresh.run.1 ∧ before.run.2.parts = fresh.run.2.parts ∧
      before.run.2.HasFullBuffer ∧ fresh.run.2.HasFullBuffer := by
  obtain ⟨hsource, houtputs⟩ := Prod.mk.inj hparts
  obtain ⟨journal, last, rest, hgives, hserves⟩ := before.exists_serves
  obtain ⟨buffer, hbuffer, hrun⟩ := run_of_serves hbefore hserves hgives
  -- the same journal fits the other demultiplexer
  rw [houtputs] at hserves
  rw [hsource] at hgives
  obtain ⟨other, hother, hrunFresh⟩ := run_of_serves hfresh hserves hgives
  rw [hrun, hrunFresh]
  exact ⟨rfl, rfl, hbuffer, hother⟩

/-! ## Several runs -/

/-- Several runs, each by a new demultiplexer that is made of the parts of the one before. -/
def runsAfresh (parts : Source × Outputs) :
    Nat → List (Ending PacketError Tally) × (Source × Outputs)
  | 0 => ([], parts)
  | count + 1 =>
    match (new parts.1 parts.2).run with
    | (ending, rest) =>
      match runsAfresh rest.parts count with
      | (endings, last) => (ending :: endings, last)

theorem runs_eq_runsAfresh (count : Nat) :
    ∀ before : Demultiplexer, before.HasFullBuffer →
      ((before.runs count).1, (before.runs count).2.parts) = runsAfresh before.parts count := by
  induction count with
  | zero => exact fun before _ => rfl
  | succ count ih =>
      intro before hbuffer
      obtain ⟨hending, hparts, hrest, -⟩ :=
        run_congr hbuffer (hasFullBuffer_new before.source before.outputs) rfl
      have hlater := ih before.run.2 hrest
      rw [hparts] at hlater
      calc ((before.runs (count + 1)).1, (before.runs (count + 1)).2.parts)
          = (before.run.1 :: (before.run.2.runs count).1, (before.run.2.runs count).2.parts) := rfl
        _ = (before.run.1 :: (runsAfresh _ count).1, (runsAfresh _ count).2) := by
            rw [← hlater]
        _ = runsAfresh before.parts (count + 1) := by
            rw [hending]
            rfl

/-- The journals of several runs that follow one another, and what they come to together. -/
structure KeepAll (before : Demultiplexer) (count : Nat) (journals : List Journal) : Prop where
  endings : (before.runs count).1 = journals.map Journal.ending
  /-- Each run keeps its journal from where the earlier ones left the source and the sinks. -/
  keeps : ∀ index journal, journals[index]? = some journal →
    (before.runs index).2.Keeps journal
  /-- The reads of all runs together are reads of the source, one after the other. -/
  reads : before.source.Gives Packet.sizeLimit (journals.flatMap Journal.reads)
    (before.runs count).2.source
  /-- Each sink gets the calls of its handovers, of one run after the other. -/
  calls : before.outputs.Calls (journals.flatMap Journal.handovers)
    (before.runs count).2.outputs
  /-- No read is handed over twice, neither by its own run nor by a later one. -/
  once : ((journals.flatMap Journal.handovers).map fun handover =>
    ReadResult.data handover.packet.bytes).Sublist (journals.flatMap Journal.reads)

theorem exists_keepAll (count : Nat) :
    ∀ before : Demultiplexer, before.HasFullBuffer → ∃ journals, before.KeepAll count journals := by
  induction count with
  | zero =>
      intro before _
      exact ⟨[], rfl, by simp, .nil _, .nil _, List.Sublist.refl _⟩
  | succ count ih =>
      intro before hbuffer
      obtain ⟨journal, last, rest, hgives, hserves⟩ := before.exists_serves
      have hkeeps := keeps_of_serves hbuffer hserves hgives
      obtain ⟨buffer, hfull, hrun⟩ := run_of_serves hbuffer hserves hgives
      have hrest : before.run.2.HasFullBuffer := by
        rw [hrun]
        exact hfull
      obtain ⟨journals, hall⟩ := ih before.run.2 hrest
      refine ⟨journal :: journals, ?_, ?_, ?_, ?_, ?_⟩
      · calc (before.runs (count + 1)).1
            = before.run.1 :: (before.run.2.runs count).1 := rfl
          _ = (journal :: journals).map Journal.ending := by
              rw [hkeeps.ending, hall.endings, List.map_cons]
      · intro index later hlater
        cases index with
        | zero =>
            obtain rfl := Option.some.inj hlater
            exact hkeeps
        | succ index => exact hall.keeps index later hlater
      · rw [List.flatMap_cons]
        exact hkeeps.reads.append hall.reads
      · rw [List.flatMap_cons]
        exact hkeeps.calls.append hall.calls
      · rw [List.flatMap_cons, List.flatMap_cons, List.map_append]
        exact hkeeps.consistent.handovers_sublist.append hall.once

/-- **Runs of one demultiplexer compose.**  Any number of runs of one demultiplexer gives the
results of as many new ones, each made of the source and the sinks that the one before
leaves, and the source and the sinks are the same in the end.  Each run reads on where the
earlier ones stopped and counts its own deliveries only, and what a run has read is never
handed over again. -/
theorem runs_compose (source : Source) (outputs : Outputs) (count : Nat) :
    (((new source outputs).runs count).1, ((new source outputs).runs count).2.parts) =
        runsAfresh (source, outputs) count ∧
      ∃ journals, (new source outputs).KeepAll count journals := by
  have hbuffer := hasFullBuffer_new source outputs
  exact ⟨runs_eq_runsAfresh count _ hbuffer, exists_keepAll count _ hbuffer⟩

end Demultiplexer

end ContainerAttach
