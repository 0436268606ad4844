import ContainerAttach.Proofs.Output.Account
import ContainerAttach.Proofs.Output.Steady

/-!
# What is encoded is delivered

The encoder refuses payloads that are too large, and the demultiplexer reads into a
buffer of fixed size.  The two limits are set apart from each other, and they agree to the
byte: a packet that the encoder lets through fills the buffer at most
(`Packet.readInto_of_encoded`), so it is neither cut off nor cut up.

A source `Brings` packets if it gives the encoding of each in a read of its own, with any
number of interrupted reads around them.  Demultiplexing such a source to sinks that take
everything undoes the encoding (`Demultiplexer.run_encoded`): each sink has the payloads of
its stream in order.  So it does not matter into which packets the data of a stream was
cut, nor how the packets of the two streams were interleaved.
-/

namespace ContainerAttach

/-! ## The two limits -/

theorem Packet.appendTo_eq_ok_iff {packet : Packet} {buffer bytes : Bytes} :
    packet.appendTo buffer = .ok bytes ↔
      packet.payload.length ≤ payloadLimit ∧ bytes = buffer ++ packet.bytes := by
  unfold appendTo
  split
  · next hlarge => simp [Nat.not_le.mpr hlarge]
  · next hfits => simp [Nat.not_lt.mp hfits, eq_comm]

/-- The buffer has room for every packet that can be encoded. -/
theorem Packet.take_of_encoded {packet : Packet} {bytes : Bytes}
    (hencoded : packet.appendTo [] = .ok bytes) : bytes.take sizeLimit = packet.bytes := by
  obtain ⟨hfits, rfl⟩ := appendTo_eq_ok_iff.mp hencoded
  refine List.take_of_length_le ?_
  simp only [List.nil_append, bytes, List.length_cons, sizeLimit]
  omega

/-- One read takes an encoded packet whole, leaves nothing of it to the next read, and
finds the packet at the front of the buffer. -/
theorem Packet.readInto_of_encoded {packet : Packet} {bytes buffer : Bytes}
    (hencoded : packet.appendTo [] = .ok bytes) (hbuffer : buffer.length = sizeLimit)
    (steps : List ReadStep) :
    ∃ filled, (Source.ofPackets (.data bytes :: steps)).readInto buffer =
        (.ok bytes.length, filled, .ofPackets steps) ∧
      Packet.ofBytes? (filled.take bytes.length) = some packet := by
  have hwhole : bytes.take buffer.length = packet.bytes := by
    rw [hbuffer]
    exact take_of_encoded hencoded
  obtain ⟨-, rfl⟩ := appendTo_eq_ok_iff.mp hencoded
  rw [List.nil_append] at hwhole ⊢
  have hread : (Source.ofPackets (.data packet.bytes :: steps)).read buffer.length =
      (.data packet.bytes, .ofPackets steps) := by
    rw [Source.read_ofPackets, ReadStep.result, hwhole]
  refine ⟨Source.overwrite buffer packet.bytes, ?_, ?_⟩
  · rw [Source.readInto, hread]
  · rw [Source.overwrite, List.take_left, ofBytes?_bytes]

/-! ## Sources of encoded packets -/

/-- The source gives each packet as it is encoded, in a read of its own, and then ends.  Any
read may be interrupted before it is made again. -/
inductive Brings : List ReadStep → List Packet → Prop
  | exhausted : Brings [] []
  | ended (steps : List ReadStep) : Brings (.data [] :: steps) []
  | retry {error : IoError} {steps : List ReadStep} {packets : List Packet}
      (interrupted : error.isInterrupted = true) (brings : Brings steps packets) :
      Brings (.fail error :: steps) packets
  | packet {packet : Packet} {bytes : Bytes} {steps : List ReadStep} {packets : List Packet}
      (encoded : packet.appendTo [] = .ok bytes) (brings : Brings steps packets) :
      Brings (.data bytes :: steps) (packet :: packets)

/-- Exactly the packets arrive. -/
theorem Brings.arrivals {steps : List ReadStep} {packets : List Packet}
    (hbrings : Brings steps packets) : Arrivals.ofSteps steps = ⟨packets, none⟩ := by
  induction hbrings with
  | exhausted | ended => rfl
  | retry interrupted brings ih => rw [Arrivals.ofSteps_interrupted interrupted, ih]
  | @packet packet bytes steps packets encoded brings ih =>
      have hpacket : Packet.ofBytes? (bytes.take Packet.sizeLimit) = some packet := by
        rw [Packet.take_of_encoded encoded, Packet.ofBytes?_bytes]
      rw [Arrivals.ofSteps_data hpacket, ih]
      rfl

/-- A relay gets through the packets if its sinks take each of them whole. -/
theorem Brings.run_done {steps : List ReadStep} {packets : List Packet}
    (hbrings : Brings steps packets) :
    ∀ (relay : Relay) (buffer : Bytes), buffer.length = Packet.sizeLimit →
      relay.outputs.Steady → (∀ packet ∈ packets, relay.outputs.Takes packet) →
        ∃ tally, (relay.run (.ofPackets steps) buffer).1 = .done tally := by
  induction hbrings with
  | exhausted =>
      intro relay buffer _ _ _
      have hread : (Source.ofPackets []).read buffer.length = (.data [], .ofPackets []) := rfl
      obtain ⟨filled, -, hrun⟩ := relay.run_of_read hread
      exact ⟨relay.tally, congrArg Prod.fst hrun⟩
  | ended steps =>
      intro relay buffer _ _ _
      obtain ⟨filled, -, hrun⟩ :=
        relay.run_of_read (Source.read_ofPackets (.data []) steps buffer.length)
      rw [ReadStep.result, List.take_nil] at hrun
      exact ⟨relay.tally, congrArg Prod.fst hrun⟩
  | @retry error steps packets interrupted brings ih =>
      intro relay buffer hbuffer hsteady htakes
      obtain ⟨filled, hfilled, hrun⟩ :=
        relay.run_of_read (Source.read_ofPackets (.fail error) steps buffer.length)
      simp only [ReadStep.result, Relay.onRead, interrupted, if_true] at hrun
      rw [hrun]
      exact ih relay filled (hfilled.trans hbuffer) hsteady htakes
  | @packet packet bytes steps packets encoded brings ih =>
      intro relay buffer hbuffer hsteady htakes
      obtain ⟨filled, hfilled, hrun⟩ :=
        relay.run_of_read (Source.read_ofPackets (.data bytes) steps buffer.length)
      rw [ReadStep.result, hbuffer, Packet.take_of_encoded encoded] at hrun
      obtain ⟨after, hread, htook⟩ :=
        Relay.onRead_of_takes hsteady (htakes packet List.mem_cons_self)
      rw [hread] at hrun
      rw [hrun]
      refine ih after filled (hfilled.trans hbuffer) htook.steady ?_
      intro other hother
      exact htook.takes (htakes other (List.mem_cons_of_mem packet hother))

/-! ## The round trip -/

/-- The payloads of some handovers are those of their packets. -/
theorem payloadsOf_eq (stream : StdStream) (handovers : List Handover) :
    payloadsOf stream handovers = payloadsTo stream (handovers.map Handover.packet) := by
  induction handovers with
  | nil => rfl
  | cons handover handovers ih =>
      have hone : payloadsOf stream [handover] = payloadsTo stream [handover.packet] := by
        rw [Handover.packet, payloadsTo_singleton]
        by_cases hstream : handover.stream = stream
        · simp [payloadsOf, handoversTo, hstream]
        · simp [payloadsOf, handoversTo, hstream, Ne.symm hstream]
      have happend : payloadsOf stream (handover :: handovers) =
          payloadsOf stream [handover] ++ payloadsOf stream handovers := by
        simp [payloadsOf, handoversTo, List.filter_cons, apply_ite (List.flatMap Handover.payload)]
        split <;> simp
      rw [happend, hone, ih, List.map_cons, ← payloadsTo_append]
      rfl

/-- What a run comes to that delivers all packets to two sinks. -/
structure RoundTrip (stdout stderr : Sink) (packets : List Packet)
    (result : Ending PacketError Tally × Demultiplexer) : Prop where
  ending : result.1 = .done
    { packets := packets.length
      stdoutBytes := (payloadsTo .stdout packets).length
      stderrBytes := (payloadsTo .stderr packets).length }
  /-- Each packet is handed over whole, and the sinks get nothing else. -/
  handedOver : ∃ (handovers : List Handover) (out err : Sink),
    result.2.outputs = ⟨some out, some err⟩ ∧
    handovers.map Handover.packet = packets ∧
    (∀ handover ∈ handovers, handover.verdict = .delivered) ∧
    stdout.Calls (callsOn .stdout handovers) out ∧
    stderr.Calls (callsOn .stderr handovers) err ∧
    out.data = stdout.data ++ payloadsTo .stdout packets ∧
    err.data = stderr.data ++ payloadsTo .stderr packets

namespace Demultiplexer

variable {stdout stderr : Sink} {steps : List ReadStep} {packets : List Packet}

theorem roundTrip_run (hstdout : stdout.TakesAll) (hstderr : stderr.TakesAll)
    (hbrings : Brings steps packets)
    (htags : ∀ packet ∈ packets,
      packet.tag = StdStream.stdout.tag ∨ packet.tag = StdStream.stderr.tag) :
    RoundTrip stdout stderr packets
      (new (.ofPackets steps) ⟨some stdout, some stderr⟩).run := by
  have hsteady := Outputs.steady_both hstdout.steady hstderr.steady
  have htakes : ∀ packet ∈ packets, Outputs.Takes ⟨some stdout, some stderr⟩ packet := by
    intro packet hmem
    rcases htags packet hmem with htag | htag
    · exact ⟨.stdout, stdout, htag, rfl, hstdout.accepts _⟩
    · exact ⟨.stderr, stderr, htag, rfl, hstderr.accepts _⟩
  obtain ⟨tally, hdone⟩ := hbrings.run_done ⟨⟨some stdout, some stderr⟩, {}⟩
    (List.replicate Packet.sizeLimit 0) List.length_replicate hsteady htakes
  -- the account of the run says what was delivered, now that it is known to get through
  have hnew : (new (.ofPackets steps) ⟨some stdout, some stderr⟩).OfPackets :=
    ⟨steps, rfl, List.length_replicate⟩
  obtain ⟨-, handovers, stop, haccount⟩ := account_of_run hnew
  have hending : (new (.ofPackets steps) ⟨some stdout, some stderr⟩).run.1 = .done tally := by
    rw [← hdone]
    rfl
  have harrivals := haccount.done_iff.mp ⟨tally, hending⟩
  have hpackets : handovers.map Handover.packet = packets :=
    (Arrivals.mk.inj (harrivals.symm.trans hbrings.arrivals)).1
  obtain rfl : stop = .ended := by
    have hstop := haccount.ending.symm.trans hending
    cases stop with
    | ended => rfl
    | unread | unwanted => exact absurd hstop (by simp [Stop.ending])
    | undelivered handover =>
        exact absurd hstop (Handover.ending_ne_done haccount.follows.2 _ _)
  have hsizes : ∀ stream,
      (payloadsOf stream handovers).length = (payloadsTo stream packets).length := by
    intro stream
    rw [payloadsOf_eq, hpackets]
  refine ⟨?_, ?_⟩
  · rw [haccount.ending]
    simp only [Stop.ending, Tally.ofDeliveries, hsizes, ← hpackets, List.length_map]
  · obtain ⟨out, hout, houtCalls, houtData⟩ := haccount.configured .stdout stdout rfl
    obtain ⟨err, herr, herrCalls, herrData⟩ := haccount.configured .stderr stderr rfl
    simp only [Stop.handovers, List.append_nil] at houtCalls herrCalls
    simp only [payloadsOf_eq, hpackets] at houtData herrData
    refine ⟨handovers, out, err, ?_, hpackets, haccount.delivered, houtCalls, herrCalls,
      by simpa [acceptedOf, handoversTo, Stop.handovers] using houtData,
      by simpa [acceptedOf, handoversTo, Stop.handovers] using herrData⟩
    exact Outputs.eq_both hout herr

/-- **Demultiplexing undoes encoding.**  Packets that the encoder lets through are delivered
whole and in order, each to the sink of its stream, and none is too long for the buffer.
The sinks end up with the same contents whenever the data of the two streams is cut into
other packets or interleaved in another way. -/
theorem run_encoded (hstdout : stdout.TakesAll) (hstderr : stderr.TakesAll)
    (hbrings : Brings steps packets)
    (htags : ∀ packet ∈ packets,
      packet.tag = StdStream.stdout.tag ∨ packet.tag = StdStream.stderr.tag) :
    RoundTrip stdout stderr packets
        (new (.ofPackets steps) ⟨some stdout, some stderr⟩).run ∧
      (∀ (packet : Packet) (bytes buffer : Bytes) (more : List ReadStep),
        packet.appendTo [] = .ok bytes →
        buffer.length = (new (.ofPackets steps) ⟨some stdout, some stderr⟩).buffer.length →
        ∃ filled, (Source.ofPackets (.data bytes :: more)).readInto buffer =
            (.ok bytes.length, filled, .ofPackets more) ∧
          Packet.ofBytes? (filled.take bytes.length) = some packet) ∧
      ∀ (otherSteps : List ReadStep) (others : List Packet), Brings otherSteps others →
        (∀ packet ∈ others,
          packet.tag = StdStream.stdout.tag ∨ packet.tag = StdStream.stderr.tag) →
        (∀ stream, payloadsTo stream others = payloadsTo stream packets) →
        ∀ stream,
          ((new (.ofPackets otherSteps) ⟨some stdout, some stderr⟩).run.2.outputs.sink?
            stream).map Sink.data =
          ((new (.ofPackets steps) ⟨some stdout, some stderr⟩).run.2.outputs.sink?
            stream).map Sink.data := by
  have htrip := roundTrip_run hstdout hstderr hbrings htags
  refine ⟨htrip, ?_, ?_⟩
  · intro packet bytes buffer more hencoded hbuffer
    have hlength : buffer.length = Packet.sizeLimit := hbuffer.trans List.length_replicate
    exact Packet.readInto_of_encoded hencoded hlength more
  · intro otherSteps others hothers hotherTags hpayloads stream
    have hother := roundTrip_run hstdout hstderr hothers hotherTags
    obtain ⟨-, out, err, houtputs, -, -, -, -, hout, herr⟩ := htrip.handedOver
    obtain ⟨-, out', err', houtputs', -, -, -, -, hout', herr'⟩ := hother.handedOver
    rw [houtputs, houtputs']
    cases stream with
    | stdin => rfl
    | stdout => simp [Outputs.sink?, hout, hout', hpayloads]
    | stderr => simp [Outputs.sink?, herr, herr', hpayloads]

/-- A packet with the longest payload, and the same data cut once more and sent behind the
error output. -/
theorem run_encoded_full_packet :
    let payload : Bytes := List.replicate 8192 65
    let packets : List Packet := [⟨2, payload⟩, ⟨3, [66]⟩]
    let others : List Packet := [⟨3, [66]⟩, ⟨2, payload.take 1⟩, ⟨2, payload.drop 1⟩]
    let steps : List ReadStep :=
      [.data (2 :: payload), .fail (.ofKind .interrupted), .data [3, 66]]
    let otherSteps : List ReadStep := others.map fun packet => .data packet.bytes
    Brings steps packets ∧
      (new (.ofPackets steps) ⟨some {}, some {}⟩).run.1 = .done ⟨2, 8192, 1⟩ ∧
      ∀ stream,
        ((new (.ofPackets otherSteps) ⟨some {}, some {}⟩).run.2.outputs.sink? stream).map
          Sink.data =
        ((new (.ofPackets steps) ⟨some {}, some {}⟩).run.2.outputs.sink? stream).map
          Sink.data := by
  intro payload packets others steps otherSteps
  have hlength : payload.length = 8192 := List.length_replicate
  -- nothing but the length of the payload matters
  clear_value payload
  have htakes : Sink.TakesAll {} := ⟨⟨by simp, by simp⟩, rfl⟩
  have hencoded : ∀ packet : Packet, packet.payload.length ≤ 8192 →
      packet.appendTo [] = .ok packet.bytes :=
    fun packet hfits => Packet.appendTo_eq_ok_iff.mpr ⟨hfits, rfl⟩
  have hsteps : Brings steps packets :=
    .packet (hencoded _ (by simp [hlength])) (.retry rfl
      (.packet (hencoded ⟨3, [66]⟩ (by simp)) .exhausted))
  have hothers : Brings otherSteps others :=
    .packet (hencoded _ (by simp)) (.packet (hencoded _ (by simp [hlength]))
      (.packet (hencoded _ (by simp [hlength])) .exhausted))
  have htags : ∀ packet ∈ packets,
      packet.tag = StdStream.stdout.tag ∨ packet.tag = StdStream.stderr.tag := by
    simp [packets, StdStream.tag]
  have hotherTags : ∀ packet ∈ others,
      packet.tag = StdStream.stdout.tag ∨ packet.tag = StdStream.stderr.tag := by
    simp [others, StdStream.tag]
  have hpayloads : ∀ stream, payloadsTo stream others = payloadsTo stream packets := by
    intro stream
    cases stream <;>
      simp [payloadsTo, others, packets, StdStream.tag, -List.drop_one, List.take_append_drop]
  obtain ⟨htrip, -, hcontents⟩ := run_encoded htakes htakes hsteps htags
  refine ⟨hsteps, ?_, hcontents otherSteps others hothers hotherTags hpayloads⟩
  rw [htrip.ending]
  simp [payloadsTo, packets, StdStream.tag, hlength]

end Demultiplexer

end ContainerAttach
