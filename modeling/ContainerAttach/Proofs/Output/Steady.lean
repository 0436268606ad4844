import ContainerAttach.Proofs.Output.Handover

/-!
# Relaying to steady sinks

A sink is steady if nothing in its scripts refuses a call: a write goes through or is
interrupted, and no flush fails.  What a steady sink accepts of an offer is up to its
buffering alone (`Sink.deliver_of_whole`).  A sink without a buffer takes every
payload whole; one that is buffered by lines may leave the end of a payload to a next
write, which never comes.

`Relay.relayAll` relays some packets one after the other, as a session does that reads
each of them.  It gets through if every payload is taken whole, and each sink then has
the payloads of its stream in order (`Relay.relayAll_of_takes`).  Otherwise it fails at
the first payload that is not (`Relay.relayAll_of_short`).
-/

namespace ContainerAttach

/-! ## One sink -/

/-- Whether a step lets a write through, or is over as soon as it is tried again. -/
def WriteStep.isSteady : WriteStep → Bool
  | .all => true
  | .fail error => error.isInterrupted
  | _ => false

namespace Sink

/-- Nothing in the scripts of the sink refuses a call. -/
structure Steady (sink : Sink) : Prop where
  writes : ∀ step ∈ sink.script, step.isSteady = true
  flushes : ∀ answer ∈ sink.flushScript, answer = none

/-- The sink has taken the bytes, and is as ready for more as it was. -/
structure Took (sink : Sink) (bytes : Bytes) (after : Sink) : Prop where
  data_eq : after.data = sink.data ++ bytes
  steady : after.Steady
  buffering_eq : after.buffering = sink.buffering

theorem Steady.took_nil {sink : Sink} (hsteady : sink.Steady) : sink.Took [] sink :=
  ⟨(List.append_nil _).symm, hsteady, rfl⟩

theorem Took.trans {sink middle after : Sink} {bytes more : Bytes}
    (htook : sink.Took bytes middle) (hmore : middle.Took more after) :
    sink.Took (bytes ++ more) after := by
  refine ⟨?_, hmore.steady, hmore.buffering_eq.trans htook.buffering_eq⟩
  rw [hmore.data_eq, htook.data_eq, List.append_assoc]

theorem Steady.willing {sink : Sink} (hsteady : sink.Steady) : sink.Willing := by
  intro step hstep
  have hthrough := hsteady.writes step hstep
  cases step with
  | all => rfl
  | fail error => exact hthrough
  | atMost | crash => exact absurd hthrough Bool.false_ne_true

/-- A write of a steady sink is answered by its buffering, or interrupted. -/
theorem write_of_steady {sink : Sink} (hsteady : sink.Steady) (bytes : Bytes) :
    ((sink.write bytes).1 = .accepted (sink.buffering.accepts bytes) ∨
      ∃ error, error.isInterrupted = true ∧ (sink.write bytes).1 = .failed error) ∧
    sink.Took (bytes.take (sink.write bytes).1.count) (sink.write bytes).2 := by
  have hdata := data_write sink bytes
  obtain ⟨script, flushScript, buffering, writes, flushes⟩ := sink
  cases script with
  | nil => exact ⟨Or.inl rfl, hdata, ⟨hsteady.writes, hsteady.flushes⟩, rfl⟩
  | cons step script =>
      have hstep : step.isSteady = true := hsteady.writes step List.mem_cons_self
      have hrest : ∀ other ∈ script, other.isSteady = true := by
        intro other hother
        exact hsteady.writes other (List.mem_cons_of_mem step hother)
      cases step with
      | all => exact ⟨Or.inl rfl, hdata, ⟨hrest, hsteady.flushes⟩, rfl⟩
      | fail error =>
          exact ⟨Or.inr ⟨error, hstep, rfl⟩, hdata, ⟨hrest, hsteady.flushes⟩, rfl⟩
      | atMost | crash => exact absurd hstep Bool.false_ne_true

/-- However often it is interrupted, an offer is answered by the buffering in the end. -/
theorem offer_of_steady (sink : Sink) (bytes : Bytes) (hsteady : sink.Steady) :
    ∃ after, sink.offer bytes = (.accepted (sink.buffering.accepts bytes), after) ∧
      sink.Took (bytes.take (sink.buffering.accepts bytes)) after := by
  fun_induction offer sink bytes with
  | case1 sink error rest hwrite hinterrupted ih =>
      have htook := (write_of_steady hsteady bytes).2
      rw [hwrite] at htook
      obtain ⟨after, hoffer, hafter⟩ := ih htook.steady
      rw [htook.buffering_eq] at hoffer hafter
      refine ⟨after, hoffer, ?_⟩
      have hboth := htook.trans hafter
      rwa [WriteResult.count, List.take_zero, List.nil_append] at hboth
  | case2 sink error rest hwrite hinterrupted =>
      rcases (write_of_steady hsteady bytes).1 with haccepted | ⟨other, hother, hfailed⟩
      · simp [hwrite] at haccepted
      · rw [hwrite] at hfailed
        obtain rfl := WriteResult.failed.inj hfailed
        exact absurd hother hinterrupted
  | case3 sink hanswer =>
      obtain ⟨hwrite, htook⟩ := write_of_steady hsteady bytes
      rcases hwrite with haccepted | ⟨error, -, hfailed⟩
      · rw [haccepted, WriteResult.count] at htook
        exact ⟨_, Prod.ext haccepted rfl, htook⟩
      · exact (hanswer error _ (Prod.ext hfailed rfl)).elim

theorem flush_of_steady {sink : Sink} (hsteady : sink.Steady) :
    ∃ after, sink.flush = (none, after) ∧ sink.Took [] after := by
  obtain ⟨script, flushScript, buffering, writes, flushes⟩ := sink
  cases flushScript with
  | nil => exact ⟨_, rfl, (List.append_nil _).symm, ⟨hsteady.writes, hsteady.flushes⟩, rfl⟩
  | cons answer flushScript =>
      obtain rfl : answer = none := hsteady.flushes answer List.mem_cons_self
      refine ⟨_, rfl, (List.append_nil _).symm, ⟨hsteady.writes, ?_⟩, rfl⟩
      intro other hother
      exact hsteady.flushes other (List.mem_cons_of_mem _ hother)

section Deliver

variable {sink : Sink} (hsteady : sink.Steady) (stream : StdStream) {payload : Bytes}
include hsteady

/-- A payload that is taken whole is delivered. -/
theorem deliver_of_whole (hwhole : sink.buffering.accepts payload = payload.length) :
    ∃ after, sink.deliver stream payload = (.done (), after) ∧ sink.Took payload after := by
  obtain ⟨offered, hoffer, htook⟩ := sink.offer_of_steady payload hsteady
  obtain ⟨after, hflush, hflushed⟩ := flush_of_steady htook.steady
  rw [hwhole] at hoffer htook
  rw [List.take_length] at htook
  refine ⟨after, ?_, ?_⟩
  · simp [deliver, hoffer, hflush]
  · have hboth := htook.trans hflushed
    rwa [List.append_nil] at hboth

/-- A payload of which a part is left over fails, and the part in front of it is taken. -/
theorem deliver_of_short (hshort : sink.buffering.accepts payload ≠ payload.length) :
    ∃ after, sink.deliver stream payload =
        (.failed (.shortWrite stream.name payload.length (sink.buffering.accepts payload)),
          after) ∧
      sink.Took (payload.take (sink.buffering.accepts payload)) after := by
  obtain ⟨after, hoffer, htook⟩ := sink.offer_of_steady payload hsteady
  refine ⟨after, ?_, htook⟩
  simp [deliver, hoffer, hshort]

end Deliver

end Sink

/-- A sink that takes every write whole, at the first attempt that is not interrupted. -/
structure Sink.TakesAll (sink : Sink) : Prop where
  steady : sink.Steady
  buffering_eq : sink.buffering = .none

theorem Sink.TakesAll.accepts {sink : Sink} (htakes : sink.TakesAll) (payload : Bytes) :
    sink.buffering.accepts payload = payload.length := by
  rw [htakes.buffering_eq]
  rfl

/-! ## All sinks -/

/-- An output packet as a server can send it. -/
structure Packet.IsOutput (packet : Packet) : Prop where
  encodes : ∃ bytes, packet.appendTo [] = .ok bytes
  tag_eq : packet.tag = StdStream.stdout.tag ∨ packet.tag = StdStream.stderr.tag

/-- A packet that can be encoded has a payload of moderate length. -/
theorem Packet.IsOutput.fits {packet : Packet} (houtput : packet.IsOutput) :
    packet.payload.length ≤ Packet.payloadLimit := by
  obtain ⟨bytes, hbytes⟩ := houtput.encodes
  unfold Packet.appendTo at hbytes
  split at hbytes
  · exact absurd hbytes (by simp)
  · omega

theorem Packet.isOutput_of_fits {packet : Packet}
    (hfits : packet.payload.length ≤ Packet.payloadLimit)
    (htag : packet.tag = StdStream.stdout.tag ∨ packet.tag = StdStream.stderr.tag) :
    packet.IsOutput :=
  ⟨⟨packet.bytes, if_neg (Nat.not_lt.mpr hfits)⟩, htag⟩

theorem StdStream.tag_eq_iff {stream other : StdStream} :
    stream.tag = other.tag ↔ stream = other := by
  cases stream <;> cases other <;> decide

/-- The payloads of the packets of a stream, in order. -/
def payloadsTo (stream : StdStream) (packets : List Packet) : Bytes :=
  (packets.filter fun packet => packet.tag = stream.tag).flatMap Packet.payload

theorem payloadsTo_append (stream : StdStream) (packets more : List Packet) :
    payloadsTo stream (packets ++ more) = payloadsTo stream packets ++ payloadsTo stream more := by
  simp [payloadsTo]

theorem payloadsTo_singleton (stream : StdStream) (payload : Bytes) (other : StdStream) :
    payloadsTo other [⟨stream.tag, payload⟩] = if other = stream then payload else [] := by
  by_cases hother : other = stream
  · subst hother
    simp [payloadsTo]
  · have htag : stream.tag ≠ other.tag := fun heq => hother (StdStream.tag_eq_iff.mp heq).symm
    simp [payloadsTo, hother, htag]

namespace Outputs

/-- All sinks are steady. -/
def Steady (outputs : Outputs) : Prop :=
  ∀ stream sink, outputs.sink? stream = some sink → sink.Steady

/-- The sink of each stream has taken the bytes that are given for it. -/
def Took (outputs : Outputs) (bytes : StdStream → Bytes) (after : Outputs) : Prop :=
  ∀ stream, Option.Rel (fun sink last => sink.Took (bytes stream) last)
    (outputs.sink? stream) (after.sink? stream)

/-- The packet goes to a sink that takes its payload whole. -/
def Takes (outputs : Outputs) (packet : Packet) : Prop :=
  ∃ stream sink, packet.tag = stream.tag ∧ outputs.sink? stream = some sink ∧
    sink.buffering.accepts packet.payload = packet.payload.length

variable {outputs middle after : Outputs} {bytes more : StdStream → Bytes}

theorem Steady.took_nil (hsteady : outputs.Steady) : outputs.Took (fun _ => []) outputs := by
  intro stream
  cases hsink : outputs.sink? stream with
  | none => exact .none
  | some sink => exact .some (hsteady stream sink hsink).took_nil

theorem Took.trans (htook : outputs.Took bytes middle) (hmore : middle.Took more after) :
    outputs.Took (fun stream => bytes stream ++ more stream) after := by
  intro stream
  have hfirst := htook stream
  have hsecond := hmore stream
  generalize outputs.sink? stream = before at hfirst ⊢
  generalize middle.sink? stream = between at hfirst hsecond
  generalize after.sink? stream = last at hsecond ⊢
  cases hfirst with
  | none =>
      cases hsecond with
      | none => exact .none
  | some hsink =>
      cases hsecond with
      | some hlast => exact .some (hsink.trans hlast)

theorem Took.steady (htook : outputs.Took bytes after) : after.Steady := by
  intro stream sink hsink
  have hstream := htook stream
  rw [hsink] at hstream
  generalize outputs.sink? stream = before at hstream
  cases hstream with
  | some hlast => exact hlast.steady

/-- A sink that is there stays there. -/
theorem Took.exists_sink (htook : outputs.Took bytes after) {stream : StdStream} {sink : Sink}
    (hsink : outputs.sink? stream = some sink) :
    ∃ last, after.sink? stream = some last ∧ sink.Took (bytes stream) last := by
  have hstream := htook stream
  rw [hsink] at hstream
  generalize hafter : after.sink? stream = last at hstream
  cases hstream with
  | some hlast => exact ⟨_, rfl, hlast⟩

/-- Whether a payload is taken whole does not change. -/
theorem Took.takes (htook : outputs.Took bytes after) {packet : Packet}
    (htakes : outputs.Takes packet) : after.Takes packet := by
  obtain ⟨stream, sink, htag, hsink, hwhole⟩ := htakes
  obtain ⟨last, hlast, htaken⟩ := htook.exists_sink hsink
  refine ⟨stream, last, htag, hlast, ?_⟩
  rw [htaken.buffering_eq, hwhole]

/-- What one sink has taken. -/
theorem took_put (hsteady : outputs.Steady) {stream : StdStream} {sink last : Sink}
    (hsink : outputs.sink? stream = some sink) {taken : Bytes} (htook : sink.Took taken last) :
    outputs.Took (fun other => if other = stream then taken else []) (outputs.put stream last) := by
  intro other
  by_cases hother : other = stream
  · subst hother
    rw [hsink, sink?_put_self hsink]
    simp only [if_true]
    exact .some htook
  · rw [sink?_put_of_ne outputs hother]
    simp only [hother, if_false]
    exact hsteady.took_nil other

/-! ### Both sinks -/

section Both

variable {stdout stderr : Sink}

theorem sink?_both {stream : StdStream} {sink : Sink}
    (hsink : Outputs.sink? ⟨some stdout, some stderr⟩ stream = some sink) :
    stream = .stdout ∧ sink = stdout ∨ stream = .stderr ∧ sink = stderr := by
  cases stream with
  | stdin => exact absurd hsink (by simp [Outputs.sink?])
  | stdout => exact Or.inl ⟨rfl, (Option.some.inj hsink).symm⟩
  | stderr => exact Or.inr ⟨rfl, (Option.some.inj hsink).symm⟩

theorem eq_both {outputs : Outputs} (hstdout : outputs.sink? .stdout = some stdout)
    (hstderr : outputs.sink? .stderr = some stderr) : outputs = ⟨some stdout, some stderr⟩ := by
  obtain ⟨first, second⟩ := outputs
  obtain rfl : first = some stdout := hstdout
  obtain rfl : second = some stderr := hstderr
  rfl

theorem steady_both (hstdout : stdout.Steady) (hstderr : stderr.Steady) :
    Outputs.Steady ⟨some stdout, some stderr⟩ := by
  intro stream sink hsink
  rcases sink?_both hsink with ⟨-, rfl⟩ | ⟨-, rfl⟩
  · exact hstdout
  · exact hstderr

/-- A packet that the sink of its stream takes whole. -/
theorem takes_both {packet : Packet} (houtput : packet.IsOutput)
    (hstdout : packet.tag = StdStream.stdout.tag →
      stdout.buffering.accepts packet.payload = packet.payload.length)
    (hstderr : stderr.buffering.accepts packet.payload = packet.payload.length) :
    Outputs.Takes ⟨some stdout, some stderr⟩ packet := by
  rcases houtput.tag_eq with htag | htag
  · exact ⟨.stdout, stdout, htag, rfl, hstdout htag⟩
  · exact ⟨.stderr, stderr, htag, rfl, hstderr⟩

theorem took_both {bytes : StdStream → Bytes} {after : Outputs}
    (htook : Outputs.Took ⟨some stdout, some stderr⟩ bytes after) :
    ∃ out err, after = ⟨some out, some err⟩ ∧ stdout.Took (bytes .stdout) out ∧
      stderr.Took (bytes .stderr) err := by
  have hsink : Outputs.sink? ⟨some stdout, some stderr⟩ .stdout = some stdout := rfl
  have hsink' : Outputs.sink? ⟨some stdout, some stderr⟩ .stderr = some stderr := rfl
  obtain ⟨out, hout, htaken⟩ := htook.exists_sink hsink
  obtain ⟨err, herr, htaken'⟩ := htook.exists_sink hsink'
  exact ⟨out, err, eq_both hout herr, htaken, htaken'⟩

end Both

end Outputs

/-! ## Relaying packets -/

namespace Relay

/-- Relays packets, each read whole, until one of them ends the run. -/
def relayAll (relay : Relay) : List Packet → Ending PacketError Tally × Relay
  | [] => (.done relay.tally, relay)
  | packet :: packets =>
    match relay.onRead (.data packet.bytes) with
    | (relay, none) => relay.relayAll packets
    | (relay, some ending) => (ending, relay)

variable {relay : Relay}

/-- A packet that is taken whole is relayed. -/
theorem onRead_of_takes (hsteady : relay.outputs.Steady) {packet : Packet}
    (htakes : relay.outputs.Takes packet) :
    ∃ after, relay.onRead (.data packet.bytes) = (after, none) ∧
      relay.outputs.Took (fun stream => payloadsTo stream [packet]) after.outputs := by
  obtain ⟨stream, sink, htag, hsink, hwhole⟩ := htakes
  obtain ⟨tag, payload⟩ := packet
  obtain rfl : tag = stream.tag := htag
  obtain ⟨last, hdeliver, htook⟩ :=
    Sink.deliver_of_whole (hsteady stream sink hsink) stream hwhole
  refine ⟨⟨relay.outputs.put stream last, relay.tally.add stream payload.length⟩, ?_, ?_⟩
  · simp only [onRead, Packet.ofBytes?_bytes, Outputs.deliver_of_sink hsink, hdeliver]
  · have hput := Outputs.took_put hsteady hsink htook
    have hpayloads : (fun other => payloadsTo other [⟨stream.tag, payload⟩]) =
        fun other => if other = stream then payload else [] :=
      funext (payloadsTo_singleton stream payload)
    rwa [hpayloads]

/-- A packet that is not taken whole ends the run. -/
theorem onRead_of_short (hsteady : relay.outputs.Steady) {stream : StdStream} {sink : Sink}
    (hsink : relay.outputs.sink? stream = some sink) {payload : Bytes}
    (hshort : sink.buffering.accepts payload ≠ payload.length) :
    ∃ after, relay.onRead (.data (Packet.bytes ⟨stream.tag, payload⟩)) =
        (⟨after, relay.tally⟩, some (.failed
          (.shortWrite stream.name payload.length (sink.buffering.accepts payload)))) ∧
      relay.outputs.Took (fun other =>
        if other = stream then payload.take (sink.buffering.accepts payload) else []) after := by
  obtain ⟨last, hdeliver, htook⟩ :=
    Sink.deliver_of_short (hsteady stream sink hsink) stream hshort
  refine ⟨relay.outputs.put stream last, ?_, Outputs.took_put hsteady hsink htook⟩
  simp only [onRead, Packet.ofBytes?_bytes, Outputs.deliver_of_sink hsink, hdeliver]

/-- Packets that are taken whole are relayed, and the run goes on with the others. -/
theorem relayAll_append_of_takes (rest : List Packet) (packets : List Packet) :
    ∀ relay : Relay, relay.outputs.Steady →
      (∀ packet ∈ packets, relay.outputs.Takes packet) →
      ∃ after : Relay, relay.relayAll (packets ++ rest) = after.relayAll rest ∧
        relay.outputs.Took (fun stream => payloadsTo stream packets) after.outputs := by
  induction packets with
  | nil =>
      intro relay hsteady htakes
      exact ⟨relay, rfl, hsteady.took_nil⟩
  | cons packet packets ih =>
      intro relay hsteady htakes
      obtain ⟨middle, hread, hmiddle⟩ := onRead_of_takes hsteady (htakes packet List.mem_cons_self)
      have hothers : ∀ other ∈ packets, middle.outputs.Takes other := by
        intro other hother
        exact hmiddle.takes (htakes other (List.mem_cons_of_mem packet hother))
      obtain ⟨after, hrest, hafter⟩ := ih middle hmiddle.steady hothers
      refine ⟨after, ?_, ?_⟩
      · rw [List.cons_append, relayAll, hread]
        exact hrest
      · have hboth := hmiddle.trans hafter
        have hpayloads : (fun stream => payloadsTo stream (packet :: packets)) =
            fun stream => payloadsTo stream [packet] ++ payloadsTo stream packets := by
          funext stream
          exact payloadsTo_append stream [packet] packets
        rwa [hpayloads]

/-- If every packet is taken whole, all are relayed. -/
theorem relayAll_of_takes (relay : Relay) (hsteady : relay.outputs.Steady) {packets : List Packet}
    (htakes : ∀ packet ∈ packets, relay.outputs.Takes packet) :
    ∃ after, relay.relayAll packets = (.done after.tally, after) ∧
      relay.outputs.Took (fun stream => payloadsTo stream packets) after.outputs := by
  obtain ⟨after, hrelay, htook⟩ := relayAll_append_of_takes [] packets relay hsteady htakes
  rw [List.append_nil] at hrelay
  exact ⟨after, hrelay, htook⟩

/-- The first packet that is not taken whole fails the run, and what comes behind it is not
looked at. -/
theorem relayAll_of_short (relay : Relay) (hsteady : relay.outputs.Steady) {packets : List Packet}
    (htakes : ∀ packet ∈ packets, relay.outputs.Takes packet) {stream : StdStream} {sink : Sink}
    (hsink : relay.outputs.sink? stream = some sink) {payload : Bytes}
    (hshort : sink.buffering.accepts payload ≠ payload.length) (rest : List Packet) :
    ∃ after : Relay, relay.relayAll (packets ++ ⟨stream.tag, payload⟩ :: rest) =
        (.failed (.shortWrite stream.name payload.length (sink.buffering.accepts payload)),
          after) ∧
      relay.outputs.Took (fun other => payloadsTo other packets ++
        if other = stream then payload.take (sink.buffering.accepts payload) else [])
        after.outputs := by
  obtain ⟨middle, hrelay, htook⟩ := relayAll_append_of_takes (⟨stream.tag, payload⟩ :: rest)
    packets relay hsteady htakes
  obtain ⟨last, hlast, htaken⟩ := htook.exists_sink hsink
  have hstill : last.buffering.accepts payload = sink.buffering.accepts payload := by
    rw [htaken.buffering_eq]
  obtain ⟨after, hread, hafter⟩ := onRead_of_short htook.steady hlast (hstill ▸ hshort)
  rw [hstill] at hread hafter
  refine ⟨⟨after, middle.tally⟩, ?_, htook.trans hafter⟩
  rw [hrelay, relayAll, hread]

end Relay

end ContainerAttach
