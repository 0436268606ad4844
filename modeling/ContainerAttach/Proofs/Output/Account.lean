import ContainerAttach.Proofs.Output.Relays

/-!
# The account of a run

A run of the demultiplexer is compared with what its source has in store.  Its
`Account` says which packets it delivered, what it stopped at, and what each sink
got: nothing is lost, delivered twice, sent to the wrong sink or dropped in silence.
Every run has one (`Demultiplexer.run_account`), the first and the later ones,
whatever the reads, the writes and the flushes come to.
-/

namespace ContainerAttach

/-! ## The count -/

/-- The count of deliveries, in all and for each stream. -/
def Tally.ofDeliveries (deliveries : List Handover) : Tally where
  packets := deliveries.length
  stdoutBytes := (payloadsOf .stdout deliveries).length
  stderrBytes := (payloadsOf .stderr deliveries).length

theorem Tally.addAll_eq {deliveries : List Handover}
    (hstdin : ∀ handover ∈ deliveries, handover.stream ≠ .stdin) :
    ∀ tally : Tally, tally.addAll deliveries =
      ⟨tally.packets + (ofDeliveries deliveries).packets,
        tally.stdoutBytes + (ofDeliveries deliveries).stdoutBytes,
        tally.stderrBytes + (ofDeliveries deliveries).stderrBytes⟩ := by
  induction deliveries with
  | nil => exact fun tally => rfl
  | cons handover deliveries ih =>
      intro tally
      have hrest := ih (fun other hmem => hstdin other (List.mem_cons_of_mem _ hmem))
        (tally.add handover.stream handover.payload.length)
      have hne := hstdin handover List.mem_cons_self
      show Tally.addAll (tally.add handover.stream handover.payload.length) deliveries = _
      rw [hrest]
      cases hstream : handover.stream with
      | stdin => exact absurd hstream hne
      | stdout =>
          simp [add, ofDeliveries, payloadsOf, handoversTo, hstream]
          omega
      | stderr =>
          simp [add, ofDeliveries, payloadsOf, handoversTo, hstream]
          omega

/-- What a run of the demultiplexer did, given its deliveries and what it stopped at. -/
structure Account (before : Demultiplexer) (deliveries : List Handover) (stop : Stop)
    (result : Ending PacketError Tally × Demultiplexer) : Prop where
  delivered : ∀ handover ∈ deliveries, handover.verdict = .delivered
  /-- The deliveries are the packets that arrived first, and the run stopped at the next. -/
  follows : stop.Follows (deliveries.map Handover.packet) before.outputs
    (.ofSteps before.source.steps)
  /-- No packet was taken from the source but those. -/
  taken : ∃ taken, before.source.steps = taken ++ result.2.source.steps ∧
    (Arrivals.ofSteps taken).packets = deliveries.map Handover.packet ++ stop.packets
  absent : ∀ stream, before.outputs.sink? stream = none →
    result.2.outputs.sink? stream = none ∧
      ∀ handover ∈ deliveries ++ stop.handovers, handover.stream ≠ stream
  /-- A sink got the calls of its own handovers, and accepted its deliveries whole. -/
  configured : ∀ stream sink, before.outputs.sink? stream = some sink →
    ∃ after, result.2.outputs.sink? stream = some after ∧
      sink.Calls (callsOn stream (deliveries ++ stop.handovers)) after ∧
      after.data =
        sink.data ++ payloadsOf stream deliveries ++ acceptedOf stream stop.handovers
  /-- The rest of a packet is missing at one sink at most. -/
  one_stopped : ∀ first second, acceptedOf first stop.handovers ≠ [] →
    acceptedOf second stop.handovers ≠ [] → first = second
  ending : result.1 = stop.ending (.ofDeliveries deliveries)
  done_iff : (∃ tally, result.1 = .done tally) ↔
    Arrivals.ofSteps before.source.steps = ⟨deliveries.map Handover.packet, none⟩

theorem eq_of_acceptedOf_stopped {stop : Stop} {first second : StdStream}
    (hfirst : acceptedOf first stop.handovers ≠ [])
    (hsecond : acceptedOf second stop.handovers ≠ []) : first = second := by
  cases stop with
  | ended | unread | unwanted => exact absurd rfl hfirst
  | undelivered handover =>
      have hstream : ∀ stream, acceptedOf stream [handover] ≠ [] → handover.stream = stream := by
        intro stream haccepted
        by_cases hne : handover.stream = stream
        · exact hne
        · exact absurd (by simp [acceptedOf, handoversTo, hne]) haccepted
      exact (hstream first hfirst).symm.trans (hstream second hsecond)

/-- Only a run that stops at the end is done, and only its source has brought all that was
delivered and nothing else. -/
theorem Stop.Follows.done_iff {stop : Stop} {packets : List Packet} {outputs : Outputs}
    {arrivals : Arrivals} (hfollows : stop.Follows packets outputs arrivals) (tally : Tally) :
    (∃ counted, stop.ending tally = .done counted) ↔ arrivals = ⟨packets, none⟩ := by
  -- a packet that the run stopped at has arrived and was not delivered
  have hlonger : ∀ packet, packets ++ [packet] <+: arrivals.packets →
      arrivals ≠ ⟨packets, none⟩ := by
    intro packet hstart heq
    subst heq
    have hle := hstart.length_le
    rw [List.length_append, List.length_singleton] at hle
    exact absurd hle (Nat.not_succ_le_self _)
  cases stop with
  | ended => exact ⟨fun _ => hfollows, fun _ => ⟨tally, rfl⟩⟩
  | unread error =>
      obtain rfl : arrivals = ⟨packets, some error⟩ := hfollows
      simp [Stop.ending]
  | unwanted packet =>
      have hne := hlonger packet hfollows.1
      simp [Stop.ending, hne]
  | undelivered handover =>
      have hne := hlonger handover.packet hfollows.1
      have hnot : ∀ counted, handover.ending tally ≠ .done counted :=
        Handover.ending_ne_done hfollows.2 tally
      simp [Stop.ending, hne, hnot]

namespace Demultiplexer

/-- A demultiplexer of packets with a buffer of full size. -/
def OfPackets (demultiplexer : Demultiplexer) : Prop :=
  ∃ steps, demultiplexer.source = .ofPackets steps ∧
    demultiplexer.buffer.length = Packet.sizeLimit

/-- A run has an account and leaves a demultiplexer of packets. -/
theorem account_of_run {before : Demultiplexer} (hbefore : before.OfPackets) :
    before.run.2.OfPackets ∧
      ∃ deliveries stop, Account before deliveries stop before.run := by
  obtain ⟨steps, hsource, hbuffer⟩ := hbefore
  obtain ⟨source, outputs, buffer⟩ := before
  subst hsource
  obtain ⟨deliveries, stop, last, rest, filled, hrelays, hfilled, hrun⟩ :=
    Relay.run_relays steps outputs {} buffer hbuffer
  -- the standard input has no sink, so nothing was delivered to it
  have hstdin : ∀ handover ∈ deliveries, handover.stream ≠ .stdin := by
    intro handover hmem
    exact (hrelays.absent rfl).2 handover (List.mem_append_left _ hmem)
  have htally : Tally.addAll {} deliveries = .ofDeliveries deliveries := by
    rw [Tally.addAll_eq hstdin]
    simp
  rw [htally] at hrun
  have hresult : run ⟨.ofPackets steps, outputs, buffer⟩ =
      (stop.ending (.ofDeliveries deliveries), ⟨.ofPackets rest, last, filled⟩) := by
    rw [run, hrun]
  rw [hresult]
  refine ⟨⟨rest, rfl, hfilled⟩, deliveries, stop, ?_⟩
  exact
    { delivered := hrelays.delivered
      follows := hrelays.follows
      taken := hrelays.taken
      absent := fun stream => hrelays.absent
      configured := by
        intro stream sink hsink
        obtain ⟨after, hafter, hcalls⟩ := hrelays.calls hsink
        refine ⟨after, hafter, hcalls, ?_⟩
        calc after.data
            = sink.data ++ acceptedOf stream (deliveries ++ stop.handovers) := by
              rw [hcalls.data, flatMap_accepted_callsOn]
          _ = sink.data ++ (payloadsOf stream deliveries ++ acceptedOf stream stop.handovers) := by
              rw [acceptedOf_append, acceptedOf_of_delivered hrelays.delivered]
          _ = sink.data ++ payloadsOf stream deliveries ++ acceptedOf stream stop.handovers :=
              (List.append_assoc _ _ _).symm
      one_stopped := fun _ _ => eq_of_acceptedOf_stopped
      ending := rfl
      done_iff := hrelays.follows.done_iff _ }

theorem ofPackets_runs (earlier : Nat) :
    ∀ before : Demultiplexer, before.OfPackets → (before.runs earlier).2.OfPackets := by
  induction earlier with
  | zero => exact fun _ hbefore => hbefore
  | succ earlier ih => exact fun before hbefore => ih _ (account_of_run hbefore).1

/-- **Nothing is lost, delivered twice, sent to the wrong sink or dropped in silence.**  Every
run of a demultiplexer of packets, after any number of earlier runs, has an account of what
it did, whatever its source and its sinks do. -/
theorem run_account (steps : List ReadStep) (outputs : Outputs) (earlier : Nat) :
    ∃ deliveries stop,
      Account ((new (.ofPackets steps) outputs).runs earlier).2 deliveries stop
        ((new (.ofPackets steps) outputs).runs earlier).2.run := by
  have hnew : (new (.ofPackets steps) outputs).OfPackets := ⟨steps, rfl, List.length_replicate⟩
  exact (account_of_run (ofPackets_runs earlier _ hnew)).2

end Demultiplexer

end ContainerAttach
