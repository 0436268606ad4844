import ContainerAttach.Output.Relay
import ContainerAttach.Proofs.Stream.Calls

/-!
# Handing a payload over

A payload is handed over to the sink of its stream by one write that is not
interrupted, after any number of writes that are, and by a flush if the write has
accepted everything.  A `Handover` records this, with the verdict on the payload.
The verdict decides how the delivery ends, and only a payload that was accepted
whole and flushed counts as delivered.

Every packet is handed over, unless nobody wants its stream (`Outputs.deliver_delivers`).
The calls of a handover in turn are all that is needed to know the delivery
(`Outputs.HandsOver.deliver_eq`).
-/

namespace ContainerAttach

/-! ## Verdicts -/

/-- What becomes of a payload that is handed over. -/
inductive Verdict where
  | delivered
  /-- The write failed. -/
  | refused (cause : IoError)
  /-- The write accepted less than the payload. -/
  | short (count : Nat)
  /-- The flush failed. -/
  | unflushed (cause : IoError)
  | crashed
  deriving DecidableEq, Repr

namespace Verdict

/-- The answer to the write that was not interrupted. -/
def answer (payload : Bytes) : Verdict → WriteResult
  | .delivered => .accepted payload.length
  | .refused cause => .failed cause
  | .short count => .accepted count
  | .unflushed _ => .accepted payload.length
  | .crashed => .crashed

/-- The flush with its answer, if there was one. -/
def flushes : Verdict → List Call
  | .delivered => [.flush none]
  | .unflushed cause => [.flush (some cause)]
  | _ => []

/-- An interruption is no verdict, and a short write is short. -/
def Fits (payload : Bytes) : Verdict → Prop
  | .refused cause => cause.isInterrupted ≠ true
  | .short count => count < payload.length
  | _ => True

theorem answer_ne_interrupted {payload : Bytes} {verdict : Verdict} (hfits : verdict.Fits payload)
    (error : IoError) (hanswer : verdict.answer payload = .failed error) :
    error.isInterrupted ≠ true := by
  cases verdict with
  | refused cause =>
      obtain rfl := WriteResult.failed.inj hanswer
      exact hfits
  | delivered | short | unflushed | crashed => simp [answer] at hanswer

end Verdict

/-- A payload that was handed over to the sink of a stream. -/
structure Handover where
  stream : StdStream
  payload : Bytes
  interruptions : List IoError
  verdict : Verdict
  interrupted : ∀ error ∈ interruptions, error.isInterrupted = true
  fits : verdict.Fits payload

namespace Handover

def packet (handover : Handover) : Packet :=
  ⟨handover.stream.tag, handover.payload⟩

/-- The calls on the sink: the attempts, and a flush if the last of them took everything. -/
def calls (handover : Handover) : List Call :=
  Call.attempts handover.payload handover.interruptions
    (handover.verdict.answer handover.payload) ++ handover.verdict.flushes

/-- The part of the payload that the sink accepted. -/
def accepted (handover : Handover) : Bytes :=
  handover.payload.take (handover.verdict.answer handover.payload).count

/-- How the delivery ends, with the given value if it is done. -/
def ending {α : Type} (handover : Handover) (value : α) : Ending PacketError α :=
  match handover.verdict with
  | .delivered => .done value
  | .refused cause => .failed (.write handover.stream.name cause)
  | .short count =>
    .failed (.shortWrite handover.stream.name handover.payload.length count)
  | .unflushed cause => .failed (.write handover.stream.name cause)
  | .crashed => .crashed

theorem ending_ne_done {α : Type} {handover : Handover} (hverdict : handover.verdict ≠ .delivered)
    (value other : α) : handover.ending value ≠ .done other := by
  unfold ending
  cases h : handover.verdict with
  | delivered => exact absurd h hverdict
  | refused | short | unflushed | crashed => simp

@[simp] theorem flatMap_accepted_calls (handover : Handover) :
    handover.calls.flatMap Call.accepted = handover.accepted := by
  have hflushes : handover.verdict.flushes.flatMap Call.accepted = [] := by
    cases handover.verdict <;> rfl
  rw [calls, List.flatMap_append, Call.flatMap_accepted_attempts, hflushes, List.append_nil]
  rfl

theorem accepted_of_delivered {handover : Handover} (hverdict : handover.verdict = .delivered) :
    handover.accepted = handover.payload := by
  rw [accepted, hverdict]
  exact List.take_length

end Handover

/-! ## One sink -/

/-- Whatever the sink answers, the calls are those of a handover. -/
theorem Sink.exists_handover (sink : Sink) (stream : StdStream) (payload : Bytes) :
    ∃ (handover : Handover) (after : Sink), handover.stream = stream ∧
      handover.payload = payload ∧ sink.Calls handover.calls after := by
  obtain ⟨interruptions, hattempted⟩ := sink.offer_attempted payload
  rcases hoffer : sink.offer payload with ⟨answer, rest⟩
  rw [hoffer] at hattempted
  have hcalls : sink.Calls (Call.attempts payload interruptions answer) rest :=
    hattempted.calls
  have hinterrupted := hattempted.interrupted
  cases answer with
  | crashed =>
      exact ⟨⟨stream, payload, interruptions, .crashed, hinterrupted, trivial⟩, rest, rfl, rfl,
        hcalls.append (.nil rest)⟩
  | failed cause =>
      have hfits := hattempted.not_interrupted cause rfl
      exact ⟨⟨stream, payload, interruptions, .refused cause, hinterrupted, hfits⟩, rest, rfl, rfl,
        hcalls.append (.nil rest)⟩
  | accepted count =>
      by_cases hcount : count = payload.length
      · subst hcount
        rcases hflush : rest.flush with ⟨_ | cause, last⟩
        · exact ⟨⟨stream, payload, interruptions, .delivered, hinterrupted, trivial⟩, last, rfl,
            rfl, hcalls.append (calls_flush hflush)⟩
        · exact ⟨⟨stream, payload, interruptions, .unflushed cause, hinterrupted, trivial⟩, last,
            rfl, rfl, hcalls.append (calls_flush hflush)⟩
      · have hshort : count < payload.length := Nat.lt_of_le_of_ne hattempted.count_le hcount
        exact ⟨⟨stream, payload, interruptions, .short count, hinterrupted, hshort⟩, rest, rfl, rfl,
          hcalls.append (.nil rest)⟩

/-- The calls of a handover tell how the delivery ends. -/
theorem Sink.deliver_of_calls {sink after : Sink} {handover : Handover}
    (hcalls : sink.Calls handover.calls after) :
    sink.deliver handover.stream handover.payload = (handover.ending (), after) := by
  obtain ⟨stream, payload, interruptions, verdict, hinterrupted, hfits⟩ := handover
  obtain ⟨middle, hattempts, hflushes⟩ := calls_append_iff.mp hcalls
  have hoffer := offer_of_calls (Verdict.answer_ne_interrupted hfits) interruptions hinterrupted
    hattempts
  simp only at hoffer hflushes ⊢
  cases verdict with
  | crashed | refused =>
      obtain rfl := calls_nil_iff.mp hflushes
      simp only [deliver, hoffer, Verdict.answer, Handover.ending]
  | short count =>
      obtain rfl := calls_nil_iff.mp hflushes
      simp only [deliver, hoffer, Verdict.answer, Handover.ending]
      rw [if_pos (Nat.ne_of_lt hfits)]
  | delivered | unflushed =>
      obtain ⟨last, hflush, hnil⟩ := calls_flush_iff.mp hflushes
      obtain rfl := calls_nil_iff.mp hnil
      simp [deliver, hoffer, Verdict.answer, Handover.ending, hflush]

/-! ## All sinks -/

@[simp] theorem StdStream.ofTag?_tag (stream : StdStream) :
    StdStream.ofTag? stream.tag = some stream := by
  cases stream <;> rfl

theorem StdStream.tag_of_ofTag? {tag : UInt8} {stream : StdStream}
    (htag : StdStream.ofTag? tag = some stream) : stream.tag = tag := by
  unfold ofTag? at htag
  split at htag
  · next h =>
    obtain rfl := Option.some.inj htag
    exact h.symm
  · split at htag
    · next h =>
      obtain rfl := Option.some.inj htag
      exact h.symm
    · split at htag
      · next h =>
        obtain rfl := Option.some.inj htag
        exact h.symm
      · exact absurd htag (by simp)

namespace Outputs

/-- The sink of a stream.  Nothing is ever put out to the standard input. -/
def sink? (outputs : Outputs) : StdStream → Option Sink
  | .stdin => none
  | .stdout => outputs.stdout
  | .stderr => outputs.stderr

def put (outputs : Outputs) (stream : StdStream) (sink : Sink) : Outputs :=
  match stream with
  | .stdin => outputs
  | .stdout => { outputs with stdout := some sink }
  | .stderr => { outputs with stderr := some sink }

theorem sink?_put_self {outputs : Outputs} {stream : StdStream} {sink : Sink}
    (hsink : outputs.sink? stream = some sink) (after : Sink) :
    (outputs.put stream after).sink? stream = some after := by
  cases stream with
  | stdin => exact absurd hsink (by simp [sink?])
  | stdout => rfl
  | stderr => rfl

theorem sink?_put_of_ne (outputs : Outputs) {stream other : StdStream} (hother : other ≠ stream)
    (after : Sink) : (outputs.put stream after).sink? other = outputs.sink? other := by
  cases stream <;> cases other <;> first | rfl | exact absurd rfl hother

theorem ne_of_sink? {outputs : Outputs} {stream other : StdStream} {sink : Sink}
    (hsink : outputs.sink? stream = some sink) (hother : outputs.sink? other = none) :
    stream ≠ other := by
  rintro rfl
  exact absurd (hsink.symm.trans hother) (by simp)

/-- What becomes of a packet: nobody wants it, or it is handed over to the sink of its
stream. -/
inductive Delivers (outputs : Outputs) (packet : Packet) :
    Ending PacketError StdStream × Outputs → Prop
  | unwanted (absent : ∀ stream : StdStream, packet.tag = stream.tag →
      outputs.sink? stream = none) :
      Delivers outputs packet (.failed (.noDestination packet.tag), outputs)
  | handedOver {sink after : Sink} (handover : Handover) (packet_eq : handover.packet = packet)
      (sink_eq : outputs.sink? handover.stream = some sink)
      (calls : sink.Calls handover.calls after) :
      Delivers outputs packet
        (handover.ending handover.stream, outputs.put handover.stream after)

theorem deliver_of_absent {outputs : Outputs} {packet : Packet}
    (habsent : ∀ stream : StdStream, packet.tag = stream.tag → outputs.sink? stream = none) :
    outputs.deliver packet = (.failed (.noDestination packet.tag), outputs) := by
  unfold deliver
  split
  · next htag hsink =>
    have hstdout := habsent .stdout (StdStream.tag_of_ofTag? htag).symm
    exact absurd (hsink.symm.trans hstdout) (by simp)
  · next htag hsink =>
    have hstderr := habsent .stderr (StdStream.tag_of_ofTag? htag).symm
    exact absurd (hsink.symm.trans hstderr) (by simp)
  · rfl

/-- The sink of a stream gets the packets of the stream, and no other sink does. -/
theorem deliver_of_sink {outputs : Outputs} {stream : StdStream} {sink : Sink}
    (hsink : outputs.sink? stream = some sink) (payload : Bytes) :
    outputs.deliver ⟨stream.tag, payload⟩ =
      match sink.deliver stream payload with
      | (.done (), after) => (.done stream, outputs.put stream after)
      | (.failed error, after) => (.failed error, outputs.put stream after)
      | (.crashed, after) => (.crashed, outputs.put stream after) := by
  cases stream with
  | stdin => exact absurd hsink (by simp [sink?])
  | stdout =>
      have hstdout : outputs.stdout = some sink := hsink
      rcases hresult : sink.deliver .stdout payload with ⟨_ | _ | _, after⟩ <;>
        simp only [deliver, StdStream.ofTag?_tag, hstdout, hresult, put]
  | stderr =>
      have hstderr : outputs.stderr = some sink := hsink
      rcases hresult : sink.deliver .stderr payload with ⟨_ | _ | _, after⟩ <;>
        simp only [deliver, StdStream.ofTag?_tag, hstderr, hresult, put]

/-- The payload is handed over to the sink of its stream. -/
def HandsOver (outputs : Outputs) (handover : Handover) (after : Outputs) : Prop :=
  ∃ sink last, outputs.sink? handover.stream = some sink ∧ sink.Calls handover.calls last ∧
    after = outputs.put handover.stream last

theorem HandsOver.deliver_eq {outputs after : Outputs} {handover : Handover}
    (hhands : outputs.HandsOver handover after) :
    outputs.deliver handover.packet = (handover.ending handover.stream, after) := by
  obtain ⟨sink, last, hsink, hcalls, rfl⟩ := hhands
  rw [Handover.packet, deliver_of_sink hsink, Sink.deliver_of_calls hcalls]
  unfold Handover.ending
  cases handover.verdict <;> rfl

/-- Every packet meets with one of the two. -/
theorem deliver_delivers (outputs : Outputs) (packet : Packet) :
    outputs.Delivers packet (outputs.deliver packet) := by
  by_cases habsent :
      ∀ stream : StdStream, packet.tag = stream.tag → outputs.sink? stream = none
  · rw [deliver_of_absent habsent]
    exact .unwanted habsent
  · -- the packet has the tag of a stream that is wanted
    obtain ⟨stream, habsent⟩ := Classical.not_forall.mp habsent
    obtain ⟨htag, hwanted⟩ := Classical.not_imp.mp habsent
    obtain ⟨sink, hsink⟩ := Option.ne_none_iff_exists'.mp hwanted
    obtain ⟨tag, payload⟩ := packet
    obtain rfl : tag = stream.tag := htag
    obtain ⟨handover, after, rfl, rfl, hcalls⟩ := sink.exists_handover stream payload
    have hhands : outputs.HandsOver handover (outputs.put handover.stream after) :=
      ⟨sink, after, hsink, hcalls, rfl⟩
    have hdeliver : outputs.deliver ⟨handover.stream.tag, handover.payload⟩ =
        (handover.ending handover.stream, outputs.put handover.stream after) :=
      hhands.deliver_eq
    rw [hdeliver]
    exact .handedOver handover rfl hsink hcalls

end Outputs

/-! ## Handovers by stream -/

def handoversTo (stream : StdStream) (handovers : List Handover) : List Handover :=
  handovers.filter fun handover => handover.stream = stream

/-- The calls that the handovers make on the sink of a stream. -/
def callsOn (stream : StdStream) (handovers : List Handover) : List Call :=
  (handoversTo stream handovers).flatMap Handover.calls

def payloadsOf (stream : StdStream) (handovers : List Handover) : Bytes :=
  (handoversTo stream handovers).flatMap Handover.payload

/-- What the sink of a stream accepts of the payloads. -/
def acceptedOf (stream : StdStream) (handovers : List Handover) : Bytes :=
  (handoversTo stream handovers).flatMap Handover.accepted

section Streams

variable {stream : StdStream} {handover : Handover} {handovers : List Handover}

theorem callsOn_cons_self :
    callsOn handover.stream (handover :: handovers) =
      handover.calls ++ callsOn handover.stream handovers := by
  simp [callsOn, handoversTo]

theorem callsOn_cons_of_ne (hstream : handover.stream ≠ stream) :
    callsOn stream (handover :: handovers) = callsOn stream handovers := by
  simp [callsOn, handoversTo, hstream]

theorem flatMap_accepted_callsOn (stream : StdStream) (handovers : List Handover) :
    (callsOn stream handovers).flatMap Call.accepted = acceptedOf stream handovers := by
  rw [callsOn, List.flatMap_assoc, acceptedOf]
  simp only [Handover.flatMap_accepted_calls]

theorem acceptedOf_append (stream : StdStream) (handovers more : List Handover) :
    acceptedOf stream (handovers ++ more) =
      acceptedOf stream handovers ++ acceptedOf stream more := by
  simp [acceptedOf, handoversTo]

theorem acceptedOf_of_delivered
    (hdelivered : ∀ handover ∈ handovers, handover.verdict = .delivered) (stream : StdStream) :
    acceptedOf stream handovers = payloadsOf stream handovers := by
  have hmap : (handoversTo stream handovers).map Handover.accepted =
      (handoversTo stream handovers).map Handover.payload := by
    refine List.map_congr_left ?_
    intro handover hmem
    exact Handover.accepted_of_delivered (hdelivered handover (List.mem_filter.mp hmem).1)
  rw [acceptedOf, payloadsOf, List.flatMap_def, hmap, List.flatMap_def]

end Streams

end ContainerAttach
