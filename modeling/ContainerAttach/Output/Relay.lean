import ContainerAttach.Packet
import ContainerAttach.Stream.Source
import ContainerAttach.Stream.Sink

/-!
# The output relay

The relay reads packets and delivers each payload to the sink of its stream: one
write of the whole payload, made again while it is interrupted, and one flush.
It goes on until a read gives nothing, and it stops at the first packet that it
cannot deliver whole.  A sink that is not configured makes every packet of its
stream undeliverable.

`Relay.onRead` is what one read does.  `Demultiplexer.run` repeats it over a
source, with one buffer for all reads; a session repeats it over the attach
socket.
-/

namespace ContainerAttach

/-- The sinks of the container's output; a missing one is not wanted. -/
structure Outputs where
  stdout : Option Sink := none
  stderr : Option Sink := none
  deriving DecidableEq, Repr

def Outputs.any (outputs : Outputs) : Bool :=
  outputs.stdout.isSome || outputs.stderr.isSome

/-- The number of bytes that both sinks together have accepted. -/
def Outputs.acceptedCount (outputs : Outputs) : Nat :=
  (outputs.stdout.elim 0 Sink.acceptedCount) + (outputs.stderr.elim 0 Sink.acceptedCount)

/-- The packets and bytes that one run delivered. -/
structure Tally where
  packets : Nat := 0
  stdoutBytes : Nat := 0
  stderrBytes : Nat := 0
  deriving DecidableEq, Repr, Inhabited

namespace Sink

/-- Hands one payload over: a write of all of it, then a flush. -/
def deliver (sink : Sink) (stream : StdStream) (payload : Bytes) :
    Ending PacketError Unit × Sink :=
  match sink.offer payload with
  | (.crashed, sink) => (.crashed, sink)
  | (.failed cause, sink) => (.failed (.write stream.name cause), sink)
  | (.accepted count, sink) =>
    if count ≠ payload.length then
      (.failed (.shortWrite stream.name payload.length count), sink)
    else
      match sink.flush with
      | (some cause, sink) => (.failed (.write stream.name cause), sink)
      | (none, sink) => (.done (), sink)

end Sink

namespace Outputs

/-- Delivers a packet to the sink of its stream and names the stream. -/
def deliver (outputs : Outputs) (packet : Packet) : Ending PacketError StdStream × Outputs :=
  match StdStream.ofTag? packet.tag, outputs.stdout, outputs.stderr with
  | some .stdout, some sink, _ =>
    match sink.deliver .stdout packet.payload with
    | (.done (), sink) => (.done .stdout, { outputs with stdout := some sink })
    | (.failed error, sink) => (.failed error, { outputs with stdout := some sink })
    | (.crashed, sink) => (.crashed, { outputs with stdout := some sink })
  | some .stderr, _, some sink =>
    match sink.deliver .stderr packet.payload with
    | (.done (), sink) => (.done .stderr, { outputs with stderr := some sink })
    | (.failed error, sink) => (.failed error, { outputs with stderr := some sink })
    | (.crashed, sink) => (.crashed, { outputs with stderr := some sink })
  | _, _, _ => (.failed (.noDestination packet.tag), outputs)

end Outputs

def Tally.add (tally : Tally) (stream : StdStream) (size : Nat) : Tally :=
  match stream with
  | .stderr =>
    { tally with packets := tally.packets + 1, stderrBytes := tally.stderrBytes + size }
  | _ => { tally with packets := tally.packets + 1, stdoutBytes := tally.stdoutBytes + size }

/-- A relay in the middle of a run. -/
structure Relay where
  outputs : Outputs
  tally : Tally := {}
  deriving DecidableEq, Repr

namespace Relay

/-- What one read does to the relay, and how the run ends if it ends with it. -/
def onRead (relay : Relay) : ReadResult → Relay × Option (Ending PacketError Tally)
  | .failed cause =>
    if cause.isInterrupted then (relay, none) else (relay, some (.failed (.read cause)))
  | .data bytes =>
    match Packet.ofBytes? bytes with
    | none => (relay, some (.done relay.tally))
    | some packet =>
      match relay.outputs.deliver packet with
      | (.done stream, outputs) =>
        (⟨outputs, relay.tally.add stream packet.payload.length⟩, none)
      | (.failed error, outputs) => ({ relay with outputs := outputs }, some (.failed error))
      | (.crashed, outputs) => ({ relay with outputs := outputs }, some .crashed)

@[simp] theorem onRead_end (relay : Relay) :
    relay.onRead (.data []) = (relay, some (.done relay.tally)) := rfl

/-- Reads into the buffer and delivers from it until the run ends. -/
def run (relay : Relay) (source : Source) (buffer : Bytes) :
    Ending PacketError Tally × Relay × Source × Bytes :=
  match _hread : source.readInto buffer with
  | (answer, buffer, source) =>
    match _hstep : relay.onRead (Source.resultIn buffer answer) with
    | (relay, some ending) => (ending, relay, source, buffer)
    | (relay, none) => relay.run source buffer
termination_by source.remaining
decreasing_by
  refine Source.remaining_read_lt (Source.resultIn_readInto _hread) ?_
  intro hend
  simp [hend] at _hstep

end Relay

/-- A source of packets, the sinks that its packets go to, and the buffer they pass. -/
structure Demultiplexer where
  source : Source
  outputs : Outputs
  buffer : Bytes
  deriving DecidableEq, Repr

namespace Demultiplexer

/-- A demultiplexer whose buffer holds every packet whole. -/
def new (source : Source) (outputs : Outputs) : Demultiplexer :=
  ⟨source, outputs, List.replicate Packet.sizeLimit 0⟩

def parts (demultiplexer : Demultiplexer) : Source × Outputs :=
  (demultiplexer.source, demultiplexer.outputs)

/-- One run: delivers packets until the source ends or a packet fails, counting from zero.
A later run goes on where this one stopped. -/
def run (demultiplexer : Demultiplexer) : Ending PacketError Tally × Demultiplexer :=
  match Relay.run ⟨demultiplexer.outputs, {}⟩ demultiplexer.source demultiplexer.buffer with
  | (ending, relay, source, buffer) => (ending, ⟨source, relay.outputs, buffer⟩)

/-- Several runs, one after the other. -/
def runs (demultiplexer : Demultiplexer) : Nat → List (Ending PacketError Tally) × Demultiplexer
  | 0 => ([], demultiplexer)
  | count + 1 =>
    match demultiplexer.run with
    | (ending, rest) =>
      match rest.runs count with
      | (endings, last) => (ending :: endings, last)

end Demultiplexer

end ContainerAttach
