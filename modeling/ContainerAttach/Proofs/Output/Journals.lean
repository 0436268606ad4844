import ContainerAttach.Proofs.Output.Account

/-!
# The journal of a run

`Relays` follows a run through a script of packets.  This file follows it through the
reads that it makes, so it is about any source, also one that cuts its data into reads
by itself.

A `Journal` lists the reads of a run, the deliveries, and what the run stopped at.  The
relay's part of it is `Outputs.Serves`: a read that was interrupted changes nothing, a
packet is delivered, and the last read is why the run stops.  The source's part is
`Source.Gives`.  The two together are the run: every run makes such a journal
(`Relay.run_serves`), and a journal that fits the source and the sinks is the one that
the run makes (`Outputs.Serves.run_eq`).  Since neither part mentions the buffer, what it
held before has no influence on a run.

What a journal says of a run of the demultiplexer is collected in `Demultiplexer.Keeps`.
-/

namespace ContainerAttach

/-- Whether a read was interrupted. -/
def ReadResult.isInterrupted : ReadResult → Bool
  | .failed error => error.isInterrupted
  | .data _ => false

namespace Stop

/-- The read that brought what the run stopped at. -/
def read : Stop → ReadResult
  | .ended => .data []
  | .unread error => .failed error
  | .unwanted packet => .data packet.bytes
  | .undelivered handover => .data handover.packet.bytes

/-- The run stops at this with the sinks that it has, and leaves them as the last ones. -/
def Happens (outputs last : Outputs) : Stop → Prop
  | .ended => last = outputs
  | .unread error => error.isInterrupted ≠ true ∧ last = outputs
  | .unwanted packet =>
    (∀ stream : StdStream, packet.tag = stream.tag → outputs.sink? stream = none) ∧
      last = outputs
  | .undelivered handover => handover.verdict ≠ .delivered ∧ outputs.HandsOver handover last

end Stop

/-- What a run reads, what it delivers of it, and what it stops at. -/
structure Journal where
  reads : List ReadResult
  deliveries : List Handover
  stop : Stop

namespace Journal

def handovers (journal : Journal) : List Handover :=
  journal.deliveries ++ journal.stop.handovers

/-- How the run ends: the tally counts its own deliveries. -/
def ending (journal : Journal) : Ending PacketError Tally :=
  journal.stop.ending (.ofDeliveries journal.deliveries)

/-- The reads and the handovers of the journal belong together. -/
structure Consistent (journal : Journal) : Prop where
  /-- Apart from the interrupted ones, each read is a packet that is delivered then, but the
  last, at which the run stops. -/
  reads_eq : journal.reads.filter (!·.isInterrupted) =
    journal.deliveries.map (fun handover => .data handover.packet.bytes) ++ [journal.stop.read]
  delivered : ∀ handover ∈ journal.deliveries, handover.verdict = .delivered
  stopped : ∀ handover ∈ journal.stop.handovers, handover.verdict ≠ .delivered

end Journal

/-! ## The sinks -/

namespace Outputs

/-- Each sink gets the calls of the handovers of its stream, and no others. -/
structure Calls (outputs : Outputs) (handovers : List Handover) (last : Outputs) : Prop where
  sinks : ∀ stream, Option.Rel (fun sink after => sink.Calls (callsOn stream handovers) after)
    (outputs.sink? stream) (last.sink? stream)
  wanted : ∀ handover ∈ handovers, outputs.sink? handover.stream ≠ none

variable {outputs middle last : Outputs}

theorem Calls.nil (outputs : Outputs) : outputs.Calls [] outputs := by
  refine ⟨?_, by simp⟩
  intro stream
  cases outputs.sink? stream with
  | none => exact .none
  | some sink => exact .some (.nil sink)

theorem callsOn_append (stream : StdStream) (handovers more : List Handover) :
    callsOn stream (handovers ++ more) = callsOn stream handovers ++ callsOn stream more := by
  simp [callsOn, handoversTo]

theorem eq_none_iff_of_rel {relation : Sink → Sink → Prop} {before after : Option Sink}
    (hrel : Option.Rel relation before after) : before = none ↔ after = none := by
  cases hrel with
  | none => simp
  | some => simp

/-- Sinks that are there stay there, and no others come. -/
theorem Calls.sink?_eq_none_iff {handovers : List Handover} (hcalls : outputs.Calls handovers last)
    (stream : StdStream) : outputs.sink? stream = none ↔ last.sink? stream = none :=
  eq_none_iff_of_rel (hcalls.sinks stream)

theorem Calls.append {handovers more : List Handover} (hcalls : outputs.Calls handovers middle)
    (hmore : middle.Calls more last) : outputs.Calls (handovers ++ more) last := by
  refine ⟨?_, ?_⟩
  · intro stream
    have hfirst := hcalls.sinks stream
    have hsecond := hmore.sinks stream
    rw [callsOn_append]
    generalize outputs.sink? stream = before at hfirst ⊢
    generalize middle.sink? stream = between at hfirst hsecond
    generalize last.sink? stream = after at hsecond ⊢
    cases hfirst with
    | none =>
        cases hsecond with
        | none => exact .none
    | some hsink =>
        cases hsecond with
        | some hafter => exact .some (hsink.append hafter)
  · intro handover hmem
    rcases List.mem_append.mp hmem with hmem | hmem
    · exact hcalls.wanted handover hmem
    · rw [Ne, hcalls.sink?_eq_none_iff]
      exact hmore.wanted handover hmem

/-- A payload that is handed over reaches the sink of its stream alone. -/
theorem HandsOver.calls {handover : Handover} (hhands : outputs.HandsOver handover last) :
    outputs.Calls [handover] last := by
  obtain ⟨sink, after, hsink, hcalls, rfl⟩ := hhands
  refine ⟨?_, ?_⟩
  · intro stream
    by_cases hstream : stream = handover.stream
    · subst hstream
      rw [hsink, sink?_put_self hsink, callsOn_cons_self]
      exact .some (hcalls.append (.nil after))
    · rw [sink?_put_of_ne outputs hstream, callsOn_cons_of_ne (Ne.symm hstream)]
      exact (Calls.nil outputs).sinks stream
  · intro other hmem
    obtain rfl := List.mem_singleton.mp hmem
    simp [hsink]

/-! ## The relay's part -/

/-- The sinks are served with the reads of a journal, one after the other. -/
inductive Serves : Outputs → Journal → Outputs → Prop
  | stop {outputs last : Outputs} {stop : Stop} (happens : stop.Happens outputs last) :
      Serves outputs ⟨[stop.read], [], stop⟩ last
  | retry {outputs last : Outputs} {reads : List ReadResult} {deliveries : List Handover}
      {stop : Stop} {error : IoError} (interrupted : error.isInterrupted = true)
      (serves : Serves outputs ⟨reads, deliveries, stop⟩ last) :
      Serves outputs ⟨.failed error :: reads, deliveries, stop⟩ last
  | deliver {outputs middle last : Outputs} {reads : List ReadResult}
      {deliveries : List Handover} {stop : Stop} {handover : Handover}
      (delivered : handover.verdict = .delivered) (hands : outputs.HandsOver handover middle)
      (serves : Serves middle ⟨reads, deliveries, stop⟩ last) :
      Serves outputs ⟨.data handover.packet.bytes :: reads, handover :: deliveries, stop⟩ last

variable {journal : Journal}

theorem Serves.calls (hserves : outputs.Serves journal last) :
    outputs.Calls journal.handovers last := by
  induction hserves with
  | @stop outputs last stop happens =>
      cases stop with
      | ended =>
          obtain rfl : last = outputs := happens
          exact .nil last
      | unread | unwanted =>
          obtain ⟨-, rfl⟩ := happens
          exact .nil last
      | undelivered handover => exact happens.2.calls
  | retry interrupted serves ih => exact ih
  | deliver delivered hands serves ih => exact hands.calls.append ih

theorem Serves.consistent (hserves : outputs.Serves journal last) : journal.Consistent := by
  induction hserves with
  | @stop outputs last stop happens =>
      refine ⟨?_, by simp, ?_⟩
      · -- an interruption would not have stopped the run
        have hread : stop.read.isInterrupted = false := by
          cases stop with
          | unread error => exact Bool.eq_false_iff.mpr happens.1
          | ended | unwanted | undelivered => rfl
        simp [hread]
      · cases stop with
        | ended | unread | unwanted => simp [Stop.handovers]
        | undelivered handover => simpa [Stop.handovers] using happens.1
  | @retry outputs last reads deliveries stop error interrupted serves ih =>
      refine ⟨?_, ih.delivered, ih.stopped⟩
      have hread : (ReadResult.failed error).isInterrupted = true := interrupted
      simpa [hread] using ih.reads_eq
  | @deliver outputs middle last reads deliveries stop handover delivered hands serves ih =>
      refine ⟨?_, List.forall_mem_cons.mpr ⟨delivered, ih.delivered⟩, ih.stopped⟩
      have hread : (ReadResult.data handover.packet.bytes).isInterrupted = false := rfl
      simpa [hread] using ih.reads_eq

end Outputs

/-! ## Journals and runs -/

namespace Relay

variable (relay : Relay)

theorem onRead_stop {stop : Stop} {last : Outputs} (hhappens : stop.Happens relay.outputs last) :
    relay.onRead stop.read = (⟨last, relay.tally⟩, some (stop.ending relay.tally)) := by
  cases stop with
  | ended =>
      obtain rfl : last = relay.outputs := hhappens
      rfl
  | unread error =>
      obtain ⟨herror, rfl⟩ := hhappens
      simp only [Stop.read, onRead, herror]
      rfl
  | unwanted packet =>
      obtain ⟨habsent, rfl⟩ := hhappens
      simp only [Stop.read, onRead, Packet.ofBytes?_bytes, Outputs.deliver_of_absent habsent]
      rfl
  | undelivered handover =>
      obtain ⟨hverdict, hhands⟩ := hhappens
      rw [Stop.read, relay.onRead_of_handover (Packet.ofBytes?_bytes _) hhands.deliver_eq,
        if_neg hverdict]
      rfl

theorem onRead_deliver {handover : Handover} {middle : Outputs}
    (hdelivered : handover.verdict = .delivered)
    (hhands : relay.outputs.HandsOver handover middle) :
    relay.onRead (.data handover.packet.bytes) =
      (⟨middle, relay.tally.add handover.stream handover.payload.length⟩, none) := by
  rw [relay.onRead_of_handover (Packet.ofBytes?_bytes _) hhands.deliver_eq, if_pos hdelivered]

theorem onRead_retry {error : IoError} (herror : error.isInterrupted = true) :
    relay.onRead (.failed error) = (relay, none) := by
  simp only [onRead, herror, if_true]

end Relay

/-- How a run comes out that has the journal: the sinks, the tally and the source after it. -/
def Journal.Outcome (journal : Journal) (tally : Tally) (last : Outputs) (rest : Source)
    (size : Nat) (result : Ending PacketError Tally × Relay × Source × Bytes) : Prop :=
  ∃ filled : Bytes, filled.length = size ∧
    result = (journal.stop.ending (tally.addAll journal.deliveries),
      ⟨last, tally.addAll journal.deliveries⟩, rest, filled)

/-- A journal that fits the sinks and the source is the journal of the run. -/
theorem Outputs.Serves.run_eq {outputs last : Outputs} {journal : Journal}
    (hserves : outputs.Serves journal last) :
    ∀ {source rest : Source} (tally : Tally) {buffer : Bytes},
      source.Gives buffer.length journal.reads rest →
        journal.Outcome tally last rest buffer.length
          (Relay.run ⟨outputs, tally⟩ source buffer) := by
  induction hserves with
  | @stop outputs last stop happens =>
      intro source rest tally buffer hgives
      cases hgives with
      | cons read gives =>
          cases gives with
          | nil =>
              obtain ⟨filled, hfilled, hrun⟩ := Relay.run_of_read ⟨outputs, tally⟩ read
              rw [Relay.onRead_stop ⟨outputs, tally⟩ happens] at hrun
              exact ⟨filled, hfilled, hrun⟩
  | @retry outputs last reads deliveries stop error interrupted serves ih =>
      intro source rest tally buffer hgives
      cases hgives with
      | cons read gives =>
          obtain ⟨filled, hfilled, hrun⟩ := Relay.run_of_read ⟨outputs, tally⟩ read
          rw [Relay.onRead_retry ⟨outputs, tally⟩ interrupted] at hrun
          rw [hrun, ← hfilled]
          exact ih tally (hfilled ▸ gives)
  | @deliver outputs middle last reads deliveries stop handover delivered hands serves ih =>
      intro source rest tally buffer hgives
      cases hgives with
      | cons read gives =>
          obtain ⟨filled, hfilled, hrun⟩ := Relay.run_of_read ⟨outputs, tally⟩ read
          rw [Relay.onRead_deliver ⟨outputs, tally⟩ delivered hands] at hrun
          rw [hrun, ← hfilled]
          exact ih (tally.add handover.stream handover.payload.length) (hfilled ▸ gives)

/-- Every run has a journal. -/
theorem Relay.run_serves (source : Source) :
    ∀ (outputs : Outputs) (capacity : Nat), ∃ journal last rest,
      source.Gives capacity journal.reads rest ∧ outputs.Serves journal last := by
  induction hremaining : source.remaining using Nat.strongRecOn generalizing source with
  | _ remaining ih =>
      intro outputs capacity
      rcases hread : source.read capacity with ⟨result, middle⟩
      have hturns := Relay.onRead_turns ⟨outputs, {}⟩ result
      have hlt : result ≠ .data [] → middle.remaining < remaining := by
        intro hresult
        rw [← hremaining]
        exact Source.remaining_read_lt hread hresult
      -- four of the turns end the run, and this read is the only one
      have hstop : ∀ (stop : Stop) {last : Outputs}, stop.read = result →
          stop.Happens outputs last → ∃ journal last rest,
            source.Gives capacity journal.reads rest ∧ outputs.Serves journal last := by
        rintro stop last rfl hhappens
        exact ⟨⟨[stop.read], [], stop⟩, last, middle, .cons hread (.nil middle), .stop hhappens⟩
      generalize Relay.onRead ⟨outputs, {}⟩ result = after at hturns
      obtain ⟨after, ending⟩ := after
      cases hturns with
      | ended => exact hstop .ended rfl rfl
      | @unread error not_interrupted =>
          exact hstop (.unread error) rfl ⟨not_interrupted, rfl⟩
      | @unwanted bytes packet packet_eq absent =>
          obtain rfl := Packet.bytes_of_ofBytes? packet_eq
          exact hstop (.unwanted packet) rfl ⟨absent, rfl⟩
      | @undelivered bytes handover sink last packet_eq sink_eq calls not_delivered =>
          obtain rfl := Packet.bytes_of_ofBytes? packet_eq
          exact hstop (.undelivered handover) rfl
            ⟨not_delivered, sink, last, sink_eq, calls, rfl⟩
      | retry interrupted =>
          obtain ⟨⟨reads, deliveries, stop⟩, last, rest, hgives, hserves⟩ :=
            ih middle.remaining (hlt (by simp)) middle rfl outputs capacity
          exact ⟨_, last, rest, .cons hread hgives, .retry interrupted hserves⟩
      | @deliver bytes handover sink last packet_eq sink_eq calls delivered =>
          obtain rfl := Packet.bytes_of_ofBytes? packet_eq
          obtain ⟨⟨reads, deliveries, stop⟩, final, rest, hgives, hserves⟩ :=
            ih middle.remaining (hlt (by simp [Packet.bytes])) middle rfl
              (outputs.put handover.stream last) capacity
          exact ⟨_, final, rest, .cons hread hgives,
            .deliver delivered ⟨sink, last, sink_eq, calls, rfl⟩ hserves⟩

/-! ## Runs of a demultiplexer -/

namespace Demultiplexer

/-- The journal is that of the demultiplexer's next run. -/
structure Keeps (before : Demultiplexer) (journal : Journal) : Prop where
  ending : before.run.1 = journal.ending
  reads : before.source.Gives Packet.sizeLimit journal.reads before.run.2.source
  calls : before.outputs.Calls journal.handovers before.run.2.outputs
  consistent : journal.Consistent

/-- The buffer has the size that it was made with. -/
def HasFullBuffer (demultiplexer : Demultiplexer) : Prop :=
  demultiplexer.buffer.length = Packet.sizeLimit

theorem hasFullBuffer_new (source : Source) (outputs : Outputs) :
    (new source outputs).HasFullBuffer :=
  List.length_replicate

/-- Nothing is handed over to the standard input, so the tally counts all deliveries. -/
theorem tally_of_serves {outputs last : Outputs} {journal : Journal}
    (hserves : outputs.Serves journal last) :
    Tally.addAll {} journal.deliveries = .ofDeliveries journal.deliveries := by
  have hstdin : ∀ handover ∈ journal.deliveries, handover.stream ≠ .stdin := by
    intro handover hmem hstream
    refine hserves.calls.wanted handover (List.mem_append_left _ hmem) ?_
    rw [hstream]
    rfl
  rw [Tally.addAll_eq hstdin]
  simp

theorem run_of_serves {before : Demultiplexer} (hbuffer : before.HasFullBuffer)
    {journal : Journal} {last : Outputs} {rest : Source}
    (hserves : before.outputs.Serves journal last)
    (hgives : before.source.Gives Packet.sizeLimit journal.reads rest) :
    ∃ buffer, buffer.length = Packet.sizeLimit ∧
      before.run = (journal.ending, ⟨rest, last, buffer⟩) := by
  rw [← hbuffer] at hgives
  obtain ⟨filled, hfilled, hrun⟩ := hserves.run_eq {} hgives
  rw [tally_of_serves hserves] at hrun
  refine ⟨filled, hfilled.trans hbuffer, ?_⟩
  rw [run, hrun]
  rfl

theorem exists_serves (before : Demultiplexer) : ∃ journal last rest,
    before.source.Gives Packet.sizeLimit journal.reads rest ∧
      before.outputs.Serves journal last :=
  Relay.run_serves before.source before.outputs Packet.sizeLimit

theorem keeps_of_serves {before : Demultiplexer} (hbuffer : before.HasFullBuffer)
    {journal : Journal} {last : Outputs} {rest : Source}
    (hserves : before.outputs.Serves journal last)
    (hgives : before.source.Gives Packet.sizeLimit journal.reads rest) :
    before.Keeps journal := by
  obtain ⟨buffer, -, hrun⟩ := run_of_serves hbuffer hserves hgives
  refine ⟨?_, ?_, ?_, hserves.consistent⟩
  · rw [hrun]
  · rw [hrun]
    exact hgives
  · rw [hrun]
    exact hserves.calls

end Demultiplexer

end ContainerAttach
