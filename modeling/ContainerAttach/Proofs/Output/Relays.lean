import ContainerAttach.Proofs.Output.Handover
import ContainerAttach.Proofs.Stream.Reading

/-!
# Runs of the relay

The packets of a source arrive in the order of its steps, cut off where the buffer
ends, until the source ends or fails (`Arrivals`).  A run of the relay hands over
the first of them, one after the other, and stops at the end, at a failed read, at
a packet that nobody wants, or at one that its sink does not take whole (`Stop`).

`Relays` is such a run as a relation, with one rule for each turn of the loop.
What holds of all runs is shown by induction on it: which packets were taken from
the source, and which calls each sink got.  One read has six outcomes
(`Relay.onRead_turns`), so every run of the relay obeys the relation
(`Relay.run_relays`).
-/

namespace ContainerAttach

/-! ## Arrivals -/

/-- The packets that a source brings before it ends or fails, and the failure if it is one. -/
structure Arrivals where
  packets : List Packet := []
  failure : Option IoError := none
  deriving DecidableEq, Repr

/-- The arrivals with one more packet in front. -/
def Arrivals.after (arrivals : Arrivals) (packet : Packet) : Arrivals :=
  { arrivals with packets := packet :: arrivals.packets }

/-- The arrivals that a script of packets brings.  A packet is cut off where the buffer ends,
and interrupted reads bring nothing. -/
def Arrivals.ofSteps : List ReadStep → Arrivals
  | [] => {}
  | .fail error :: steps => if error.isInterrupted then ofSteps steps else { failure := error }
  | .data bytes :: steps =>
    match Packet.ofBytes? (bytes.take Packet.sizeLimit) with
    | none => {}
    | some packet => (ofSteps steps).after packet

theorem Packet.eq_nil_of_ofBytes? {bytes : Bytes} (hpacket : Packet.ofBytes? bytes = none) :
    bytes = [] := by
  cases bytes with
  | nil => rfl
  | cons tag payload => exact absurd hpacket (by simp [ofBytes?])

theorem Arrivals.ofSteps_data {bytes : Bytes} {packet : Packet}
    (hpacket : Packet.ofBytes? (bytes.take Packet.sizeLimit) = some packet)
    (steps : List ReadStep) : ofSteps (.data bytes :: steps) = (ofSteps steps).after packet := by
  simp only [ofSteps, hpacket]

theorem Arrivals.ofSteps_interrupted {error : IoError} (herror : error.isInterrupted = true)
    (steps : List ReadStep) : ofSteps (.fail error :: steps) = ofSteps steps := by
  simp only [ofSteps, herror, if_true]

/-- A source of packets, with no packet begun. -/
def Source.ofPackets (steps : List ReadStep) : Source :=
  { framing := .packet, steps := steps }

/-- What a reader gets of a step of packets. -/
def ReadStep.result (capacity : Nat) : ReadStep → ReadResult
  | .data bytes => .data (bytes.take capacity)
  | .fail error => .failed error

theorem Source.read_ofPackets (step : ReadStep) (steps : List ReadStep) (capacity : Nat) :
    (ofPackets (step :: steps)).read capacity = (step.result capacity, ofPackets steps) := by
  cases step <;> rfl

/-! ## Stops -/

/-- What a run of the demultiplexer stops at. -/
inductive Stop where
  | ended
  | unread (error : IoError)
  | unwanted (packet : Packet)
  | undelivered (handover : Handover)

namespace Stop

/-- The packet that the run stopped at, if it was one. -/
def packets : Stop → List Packet
  | .unwanted packet => [packet]
  | .undelivered handover => [handover.packet]
  | _ => []

/-- The handover that went wrong, if it was one. -/
def handovers : Stop → List Handover
  | .undelivered handover => [handover]
  | _ => []

/-- How the run ends that has delivered what the tally counts. -/
def ending (tally : Tally) : Stop → Ending PacketError Tally
  | .ended => .done tally
  | .unread error => .failed (.read error)
  | .unwanted packet => .failed (.noDestination packet.tag)
  | .undelivered handover => handover.ending tally

/-- The run has delivered the packets that arrived first, and stops at what comes next. -/
def Follows (delivered : List Packet) (outputs : Outputs) (arrivals : Arrivals) : Stop → Prop
  | .ended => arrivals = ⟨delivered, none⟩
  | .unread error => arrivals = ⟨delivered, some error⟩
  | .unwanted packet => delivered ++ [packet] <+: arrivals.packets ∧
      ∀ stream : StdStream, packet.tag = stream.tag → outputs.sink? stream = none
  | .undelivered handover => delivered ++ [handover.packet] <+: arrivals.packets ∧
      handover.verdict ≠ .delivered

/-- What follows what was delivered follows what was delivered with one more in front. -/
theorem Follows.cons {stop : Stop} {packets : List Packet} {outputs : Outputs}
    {arrivals : Arrivals} {stream : StdStream} {sink after : Sink}
    (hfollows : stop.Follows packets (outputs.put stream after) arrivals)
    (hsink : outputs.sink? stream = some sink) (packet : Packet) :
    stop.Follows (packet :: packets) outputs (arrivals.after packet) := by
  cases stop with
  | ended =>
      obtain rfl : arrivals = ⟨packets, none⟩ := hfollows
      rfl
  | unread error =>
      obtain rfl : arrivals = ⟨packets, some error⟩ := hfollows
      rfl
  | unwanted other =>
      refine ⟨List.cons_prefix_cons.mpr ⟨rfl, hfollows.1⟩, ?_⟩
      intro tagged htag
      have habsent := hfollows.2 tagged htag
      by_cases htagged : tagged = stream
      · subst htagged
        rw [Outputs.sink?_put_self hsink] at habsent
        exact absurd habsent (by simp)
      · rwa [Outputs.sink?_put_of_ne outputs htagged] at habsent
  | undelivered handover =>
      exact ⟨List.cons_prefix_cons.mpr ⟨rfl, hfollows.1⟩, hfollows.2⟩

end Stop

/-! ## Runs -/

/-- A run takes the sinks and the steps of the source from the first state to the last; it
makes the handovers, of which all are deliveries, and stops. -/
inductive Relays : Outputs → List ReadStep → List Handover → Stop → Outputs →
    List ReadStep → Prop
  | exhausted (outputs : Outputs) : Relays outputs [] [] .ended outputs []
  | ended (outputs : Outputs) (steps : List ReadStep) :
      Relays outputs (.data [] :: steps) [] .ended outputs steps
  | unread (outputs : Outputs) (steps : List ReadStep) {error : IoError}
      (not_interrupted : error.isInterrupted ≠ true) :
      Relays outputs (.fail error :: steps) [] (.unread error) outputs steps
  | unwanted {outputs : Outputs} (steps : List ReadStep) {bytes : Bytes} {packet : Packet}
      (packet_eq : Packet.ofBytes? (bytes.take Packet.sizeLimit) = some packet)
      (absent : ∀ stream : StdStream, packet.tag = stream.tag → outputs.sink? stream = none) :
      Relays outputs (.data bytes :: steps) [] (.unwanted packet) outputs steps
  | undelivered {outputs : Outputs} (steps : List ReadStep) {bytes : Bytes}
      {handover : Handover} {sink after : Sink}
      (packet_eq : Packet.ofBytes? (bytes.take Packet.sizeLimit) = some handover.packet)
      (sink_eq : outputs.sink? handover.stream = some sink)
      (calls : sink.Calls handover.calls after) (not_delivered : handover.verdict ≠ .delivered) :
      Relays outputs (.data bytes :: steps) [] (.undelivered handover)
        (outputs.put handover.stream after) steps
  | retry {outputs last : Outputs} {steps rest : List ReadStep} {deliveries : List Handover}
      {stop : Stop} {error : IoError} (interrupted : error.isInterrupted = true)
      (relays : Relays outputs steps deliveries stop last rest) :
      Relays outputs (.fail error :: steps) deliveries stop last rest
  | deliver {outputs last : Outputs} {steps rest : List ReadStep} {deliveries : List Handover}
      {stop : Stop} {bytes : Bytes} {handover : Handover} {sink after : Sink}
      (packet_eq : Packet.ofBytes? (bytes.take Packet.sizeLimit) = some handover.packet)
      (sink_eq : outputs.sink? handover.stream = some sink)
      (calls : sink.Calls handover.calls after) (delivered : handover.verdict = .delivered)
      (relays : Relays (outputs.put handover.stream after) steps deliveries stop last rest) :
      Relays outputs (.data bytes :: steps) (handover :: deliveries) stop last rest

namespace Relays

variable {outputs last : Outputs} {steps rest : List ReadStep} {deliveries : List Handover}
  {stop : Stop}

theorem delivered (hrelays : Relays outputs steps deliveries stop last rest) :
    ∀ handover ∈ deliveries, handover.verdict = .delivered := by
  induction hrelays with
  | exhausted | ended | unread | unwanted | undelivered => simp
  | retry interrupted relays ih => exact ih
  | deliver packet_eq sink_eq calls delivered relays ih =>
      intro handover hmem
      rcases List.mem_cons.mp hmem with rfl | hmem
      · exact delivered
      · exact ih handover hmem

/-- The steps that the run took had the packets that it delivered, and the one that it
stopped at. -/
theorem taken (hrelays : Relays outputs steps deliveries stop last rest) :
    ∃ taken, steps = taken ++ rest ∧ (Arrivals.ofSteps taken).packets =
      deliveries.map Handover.packet ++ stop.packets := by
  induction hrelays with
  | exhausted outputs => exact ⟨[], rfl, rfl⟩
  | ended outputs steps => exact ⟨[.data []], rfl, rfl⟩
  | @unread outputs steps error not_interrupted =>
      refine ⟨[.fail error], rfl, ?_⟩
      simp [Arrivals.ofSteps, not_interrupted, Stop.packets]
  | @unwanted outputs steps bytes packet packet_eq absent =>
      refine ⟨[.data bytes], rfl, ?_⟩
      rw [Arrivals.ofSteps_data packet_eq]
      rfl
  | @undelivered outputs steps bytes handover sink after packet_eq =>
      refine ⟨[.data bytes], rfl, ?_⟩
      rw [Arrivals.ofSteps_data packet_eq]
      rfl
  | @retry outputs last steps rest deliveries stop error interrupted relays ih =>
      obtain ⟨taken, rfl, hpackets⟩ := ih
      refine ⟨.fail error :: taken, rfl, ?_⟩
      rw [Arrivals.ofSteps_interrupted interrupted]
      exact hpackets
  | @deliver outputs last steps rest deliveries stop bytes handover sink after packet_eq sink_eq
      calls delivered relays ih =>
      obtain ⟨taken, rfl, hpackets⟩ := ih
      refine ⟨.data bytes :: taken, rfl, ?_⟩
      rw [Arrivals.ofSteps_data packet_eq]
      exact congrArg (handover.packet :: ·) hpackets

/-- What the run delivered arrived first, and what it stopped at came next. -/
theorem follows (hrelays : Relays outputs steps deliveries stop last rest) :
    stop.Follows (deliveries.map Handover.packet) outputs (.ofSteps steps) := by
  induction hrelays with
  | exhausted | ended => rfl
  | unread outputs steps not_interrupted =>
      simp [Stop.Follows, Arrivals.ofSteps, not_interrupted]
  | unwanted steps packet_eq absent =>
      rw [Arrivals.ofSteps_data packet_eq]
      exact ⟨List.prefix_append _ _, absent⟩
  | undelivered steps packet_eq sink_eq calls not_delivered =>
      rw [Arrivals.ofSteps_data packet_eq]
      exact ⟨List.prefix_append _ _, not_delivered⟩
  | retry interrupted relays ih =>
      rw [Arrivals.ofSteps_interrupted interrupted]
      exact ih
  | @deliver _ _ steps _ _ stop _ handover sink after packet_eq sink_eq calls delivered relays ih =>
      rw [Arrivals.ofSteps_data packet_eq, List.map_cons]
      exact ih.cons sink_eq handover.packet

/-- Sinks that are not configured stay so, and nothing is handed over to them. -/
theorem absent (hrelays : Relays outputs steps deliveries stop last rest) {stream : StdStream}
    (hstream : outputs.sink? stream = none) :
    last.sink? stream = none ∧
      ∀ handover ∈ deliveries ++ stop.handovers, handover.stream ≠ stream := by
  induction hrelays with
  | exhausted | ended | unread | unwanted => exact ⟨hstream, by simp [Stop.handovers]⟩
  | @undelivered outputs steps bytes handover sink after packet_eq sink_eq =>
      have hne := Outputs.ne_of_sink? sink_eq hstream
      exact ⟨by rwa [Outputs.sink?_put_of_ne _ hne.symm], by simpa [Stop.handovers] using hne⟩
  | retry interrupted relays ih => exact ih hstream
  | @deliver outputs last steps rest deliveries stop bytes handover sink after packet_eq sink_eq
      calls delivered relays ih =>
      have hne := Outputs.ne_of_sink? sink_eq hstream
      obtain ⟨hlast, hall⟩ := ih (by rwa [Outputs.sink?_put_of_ne _ hne.symm])
      refine ⟨hlast, ?_⟩
      intro other hmem
      rcases List.mem_cons.mp hmem with rfl | hmem
      · exact hne
      · exact hall other hmem

/-- A sink gets the calls of the handovers of its stream, in order, and no others. -/
theorem calls (hrelays : Relays outputs steps deliveries stop last rest) {stream : StdStream}
    {sink : Sink} (hsink : outputs.sink? stream = some sink) :
    ∃ after, last.sink? stream = some after ∧
      sink.Calls (callsOn stream (deliveries ++ stop.handovers)) after := by
  induction hrelays generalizing sink with
  | exhausted | ended | unread | unwanted => exact ⟨sink, hsink, .nil sink⟩
  | @undelivered outputs steps bytes handover sink' after packet_eq sink_eq calls =>
      simp only [Stop.handovers, List.nil_append]
      by_cases hstream : handover.stream = stream
      · subst hstream
        obtain rfl := Option.some.inj (sink_eq.symm.trans hsink)
        refine ⟨after, Outputs.sink?_put_self hsink after, ?_⟩
        rw [callsOn_cons_self]
        exact calls.append (.nil after)
      · refine ⟨sink, ?_, ?_⟩
        · rwa [Outputs.sink?_put_of_ne _ (Ne.symm hstream)]
        · rw [callsOn_cons_of_ne hstream]
          exact .nil sink
  | retry interrupted relays ih => exact ih hsink
  | @deliver outputs last steps rest deliveries stop bytes handover sink' after packet_eq sink_eq
      calls delivered relays ih =>
      rw [List.cons_append]
      by_cases hstream : handover.stream = stream
      · subst hstream
        obtain rfl := Option.some.inj (sink_eq.symm.trans hsink)
        obtain ⟨final, hfinal, hcalls⟩ := ih (Outputs.sink?_put_self hsink after)
        refine ⟨final, hfinal, ?_⟩
        rw [callsOn_cons_self]
        exact calls.append hcalls
      · rw [callsOn_cons_of_ne hstream]
        exact ih (by rwa [Outputs.sink?_put_of_ne _ (Ne.symm hstream)])

end Relays

/-! ## One read -/

/-- What one read does to a relay, and how the run ends if it ends with it. -/
inductive Relay.Turns (relay : Relay) :
    ReadResult → Relay → Option (Ending PacketError Tally) → Prop
  | ended : relay.Turns (.data []) relay (some (.done relay.tally))
  | retry {error : IoError} (interrupted : error.isInterrupted = true) :
      relay.Turns (.failed error) relay none
  | unread {error : IoError} (not_interrupted : error.isInterrupted ≠ true) :
      relay.Turns (.failed error) relay (some (.failed (.read error)))
  | unwanted {bytes : Bytes} {packet : Packet}
      (packet_eq : Packet.ofBytes? bytes = some packet)
      (absent : ∀ stream : StdStream, packet.tag = stream.tag →
        relay.outputs.sink? stream = none) :
      relay.Turns (.data bytes) relay (some (.failed (.noDestination packet.tag)))
  | undelivered {bytes : Bytes} {handover : Handover} {sink after : Sink}
      (packet_eq : Packet.ofBytes? bytes = some handover.packet)
      (sink_eq : relay.outputs.sink? handover.stream = some sink)
      (calls : sink.Calls handover.calls after) (not_delivered : handover.verdict ≠ .delivered) :
      relay.Turns (.data bytes) ⟨relay.outputs.put handover.stream after, relay.tally⟩
        (some (handover.ending relay.tally))
  | deliver {bytes : Bytes} {handover : Handover} {sink after : Sink}
      (packet_eq : Packet.ofBytes? bytes = some handover.packet)
      (sink_eq : relay.outputs.sink? handover.stream = some sink)
      (calls : sink.Calls handover.calls after) (delivered : handover.verdict = .delivered) :
      relay.Turns (.data bytes)
        ⟨relay.outputs.put handover.stream after,
          relay.tally.add handover.stream handover.payload.length⟩ none

theorem Relay.onRead_of_handover (relay : Relay) {after : Outputs} {bytes : Bytes}
    {handover : Handover} (hpacket : Packet.ofBytes? bytes = some handover.packet)
    (hdeliver : relay.outputs.deliver handover.packet =
      (handover.ending handover.stream, after)) :
    relay.onRead (.data bytes) =
      if handover.verdict = .delivered then
        (⟨after, relay.tally.add handover.stream handover.payload.length⟩, none)
      else (⟨after, relay.tally⟩, some (handover.ending relay.tally)) := by
  simp only [onRead, hpacket, hdeliver]
  unfold Handover.ending
  cases handover.verdict <;> rfl

theorem Relay.onRead_turns (relay : Relay) (result : ReadResult) :
    relay.Turns result (relay.onRead result).1 (relay.onRead result).2 := by
  cases result with
  | failed error =>
      by_cases herror : error.isInterrupted = true
      · simp only [onRead, herror, if_true]
        exact .retry herror
      · simp only [onRead, herror]
        exact .unread herror
  | data bytes =>
      cases hpacket : Packet.ofBytes? bytes with
      | none =>
          obtain rfl : bytes = [] := Packet.eq_nil_of_ofBytes? hpacket
          exact .ended
      | some packet =>
          rcases hdeliver : relay.outputs.deliver packet with ⟨ending, after⟩
          have hdelivers := relay.outputs.deliver_delivers packet
          rw [hdeliver] at hdelivers
          cases hdelivers with
          | unwanted absent =>
              simp only [onRead, hpacket, hdeliver]
              exact .unwanted hpacket absent
          | @handedOver sink after handover packet_eq sink_eq calls =>
              subst packet_eq
              rw [relay.onRead_of_handover hpacket hdeliver]
              by_cases hverdict : handover.verdict = .delivered
              · rw [if_pos hverdict]
                exact .deliver hpacket sink_eq calls hverdict
              · rw [if_neg hverdict]
                exact .undelivered hpacket sink_eq calls hverdict

/-! ## Every run relays -/

/-- The tally after some more deliveries. -/
def Tally.addAll (tally : Tally) (deliveries : List Handover) : Tally :=
  deliveries.foldl (fun tally handover => tally.add handover.stream handover.payload.length) tally

/-- One turn of the relay's loop.  Whatever the buffer held before, what is read decides. -/
theorem Relay.run_of_read (relay : Relay) {source rest : Source} {buffer : Bytes}
    {result : ReadResult} (hread : source.read buffer.length = (result, rest)) :
    ∃ filled : Bytes, filled.length = buffer.length ∧
      relay.run source buffer =
        match relay.onRead result with
        | (relay, some ending) => (ending, relay, rest, filled)
        | (relay, none) => relay.run rest filled := by
  rcases hinto : source.readInto buffer with ⟨answer, filled, rest'⟩
  have hresult := Source.resultIn_readInto hinto
  obtain ⟨rfl, rfl⟩ := Prod.mk.inj (hread.symm.trans hresult)
  refine ⟨filled, Source.length_readInto hinto, ?_⟩
  rw [run]
  split
  next answer' filled' rest'' hinto' =>
  obtain ⟨rfl, hrest⟩ := Prod.mk.inj (hinto.symm.trans hinto')
  obtain ⟨rfl, rfl⟩ := Prod.mk.inj hrest
  split
  · next hstep => rw [hstep]
  · next hstep => rw [hstep]

/-- Every run of a relay over packets is a run, with the tally of what it delivered. -/
theorem Relay.run_relays (steps : List ReadStep) :
    ∀ (outputs : Outputs) (tally : Tally) (buffer : Bytes), buffer.length = Packet.sizeLimit →
      ∃ deliveries stop last rest filled, Relays outputs steps deliveries stop last rest ∧
        filled.length = Packet.sizeLimit ∧
        Relay.run ⟨outputs, tally⟩ (.ofPackets steps) buffer =
          (stop.ending (tally.addAll deliveries), ⟨last, tally.addAll deliveries⟩,
            .ofPackets rest, filled) := by
  induction steps with
  | nil =>
      intro outputs tally buffer hbuffer
      have hread : (Source.ofPackets []).read buffer.length = (.data [], .ofPackets []) := rfl
      obtain ⟨filled, hfilled, hrun⟩ := Relay.run_of_read ⟨outputs, tally⟩ hread
      exact ⟨[], .ended, outputs, [], filled, .exhausted outputs, hfilled.trans hbuffer, hrun⟩
  | cons step steps ih =>
      intro outputs tally buffer hbuffer
      obtain ⟨filled, hfilled, hrun⟩ :=
        Relay.run_of_read ⟨outputs, tally⟩ (Source.read_ofPackets step steps buffer.length)
      rw [hbuffer] at hrun hfilled
      have hturns := Relay.onRead_turns ⟨outputs, tally⟩ (step.result Packet.sizeLimit)
      rcases hturn : Relay.onRead ⟨outputs, tally⟩ (step.result Packet.sizeLimit) with
        ⟨next, ending⟩
      rw [hturn] at hturns hrun
      cases step with
      | fail error =>
          cases hturns with
          | retry interrupted =>
              obtain ⟨deliveries, stop, last, rest, final, hrelays, hfinal, hrest⟩ :=
                ih outputs tally filled hfilled
              exact ⟨deliveries, stop, last, rest, final, .retry interrupted hrelays, hfinal,
                hrun.trans hrest⟩
          | unread not_interrupted =>
              exact ⟨[], .unread error, outputs, steps, filled,
                .unread outputs steps not_interrupted, hfilled, hrun⟩
      | data bytes =>
          replace hturns : Relay.Turns ⟨outputs, tally⟩ (.data (bytes.take Packet.sizeLimit))
            next ending := hturns
          generalize hchunk : bytes.take Packet.sizeLimit = chunk at hturns
          cases hturns with
          | ended =>
              -- the buffer is not empty, so the step is
              rcases List.take_eq_nil_iff.mp hchunk with hlimit | rfl
              · exact absurd hlimit (by decide)
              · exact ⟨[], .ended, outputs, steps, filled, .ended outputs steps, hfilled, hrun⟩
          | @unwanted chunk packet packet_eq absent =>
              rw [← hchunk] at packet_eq
              exact ⟨[], .unwanted packet, outputs, steps, filled,
                .unwanted steps packet_eq absent, hfilled, hrun⟩
          | @undelivered chunk handover sink after packet_eq sink_eq calls not_delivered =>
              rw [← hchunk] at packet_eq
              exact ⟨[], .undelivered handover, outputs.put handover.stream after, steps, filled,
                .undelivered steps packet_eq sink_eq calls not_delivered, hfilled, hrun⟩
          | @deliver chunk handover sink after packet_eq sink_eq calls delivered =>
              -- the rest of the run starts with the sink as this packet has left it
              rw [← hchunk] at packet_eq
              obtain ⟨deliveries, stop, last, rest, final, hrelays, hfinal, hrest⟩ :=
                ih (outputs.put handover.stream after)
                  (tally.add handover.stream handover.payload.length) filled hfilled
              exact ⟨handover :: deliveries, stop, last, rest, final,
                .deliver packet_eq sink_eq calls delivered hrelays, hfinal, hrun.trans hrest⟩

end ContainerAttach
