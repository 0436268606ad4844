import ContainerAttach.Proofs.Session.Showing
import ContainerAttach.Proofs.Socket.Queues

/-!
# Messages that are too long

A server can send messages of which no packet could be made.  The client reads as much of each
message as its buffer holds and loses the rest, so a message that is too long counts as a packet
that is as long as a packet can be (`packetsIn`).

Showing proves that the sinks never get more than the payloads of these packets.  Here a session
is followed in which they get all of them: there is no input, the server listens to the end and
then sends its messages, and the sinks take everything (`Client.attach_shows`).  A sink can get
bytes behind a message that was cut off, and then it has no first part of what was sent.
-/

namespace ContainerAttach

/-- Of a packet the client reads as much as a packet can have. -/
theorem packetsIn_cons (packet : Packet) (messages : List Bytes) :
    packetsIn (packet.bytes :: messages) =
      ⟨packet.tag, packet.payload.take Packet.payloadLimit⟩ :: packetsIn messages := by
  have hread : packet.bytes.take Packet.sizeLimit =
      Packet.bytes ⟨packet.tag, packet.payload.take Packet.payloadLimit⟩ := rfl
  rw [packetsIn, List.filterMap_cons, hread, Packet.ofBytes?_bytes]
  rfl

/-- A message is read as a packet if there is anything in it. -/
theorem exists_packetsIn_cons {message : Bytes} (hmessage : message ≠ []) (messages : List Bytes) :
    ∃ packet : Packet, message.take Packet.sizeLimit = packet.bytes ∧
      packetsIn (message :: messages) = packet :: packetsIn messages := by
  obtain ⟨tag, payload, rfl⟩ := List.exists_cons_of_ne_nil hmessage
  exact ⟨⟨tag, payload.take Packet.payloadLimit⟩, rfl, packetsIn_cons ⟨tag, payload⟩ messages⟩

namespace Streaming

/-- A message of the server is put behind the queue of the client as it is. -/
theorem turn_server_of_sendRaw {state : Streaming} {message : Bytes} {rest : List ServerStep}
    (hsteps : state.server.steps = .sendRaw message :: rest) (hmessage : message ≠ [])
    (hlimit : message.length ≤ Connection.messageLimit)
    (hreset : state.socket.far.reset = false) (hopen : state.socket.far.writeShut = false) :
    state.turn .server =
      { state with
        server := { state.server with steps := rest }
        socket := state.socket.enqueue .near [message] } := by
  have hsend : state.socket.send .far message =
      (.ok message.length, state.socket.enqueue .near [message]) :=
    Connection.send_of_writable hmessage hreset hopen fun _ => hlimit
  refine turn_of_act? ?_
  show state.actServer? = _
  simp only [actServer?, Server.act?, hsteps, hsend]

/-- The output task reads as much of the next message as its buffer holds. -/
theorem turn_output_of_message {state : Streaming} {message : Bytes} {inbox : List Bytes}
    {packet : Packet} (hrelaying : state.relaying = true) (hkind : state.socket.kind = .packet)
    (hreset : state.socket.near.reset = false)
    (hinbox : state.socket.near.inbox = message :: inbox)
    (hread : message.take Packet.sizeLimit = packet.bytes)
    (hsteady : state.relay.outputs.Steady) (htakes : state.relay.outputs.Takes packet) :
    ∃ relay, state.turn .output =
        { state with
          socket := state.socket.update .near fun near => { near with inbox := inbox }
          relay := relay } ∧
      state.relay.outputs.Took (fun stream => payloadsTo stream [packet]) relay.outputs := by
  obtain ⟨relay, honRead, htook⟩ := Relay.onRead_of_takes hsteady htakes
  refine ⟨relay, turn_of_act? ?_, htook⟩
  show state.actOutput? = _
  simp only [actOutput?, hrelaying, if_true, Connection.receive, hkind, Connection.endpoint, hreset,
    Bool.false_eq_true, if_false, hinbox, hread, onOutput, honRead]

/-- Messages that are sent one after the other are queued one behind the other. -/
theorem follow_sends (messages : List Bytes) :
    ∀ state : Streaming, state.server.steps = messages.map .sendRaw →
      state.socket.far.reset = false → state.socket.far.writeShut = false →
      (∀ message ∈ messages, message ≠ [] ∧ message.length ≤ Connection.messageLimit) →
      state.follow (messages.map fun _ => .server) =
        { state with
          server := { state.server with steps := [] }
          socket := state.socket.enqueue .near messages } := by
  induction messages with
  | nil =>
      intro state hsteps hreset hopen hmessages
      have hserver : state.server = { state.server with steps := [] } := by
        rw [← show state.server.steps = [] from hsteps]
      rw [Connection.enqueue_nil, ← hserver]
      rfl
  | cons message messages ih =>
      intro state hsteps hreset hopen hmessages
      obtain ⟨⟨hne, hlimit⟩, hrest⟩ := List.forall_mem_cons.mp hmessages
      have hturn := turn_server_of_sendRaw hsteps hne hlimit hreset hopen
      have hqueue : (state.socket.enqueue .near [message]).enqueue .near messages =
          state.socket.enqueue .near (message :: messages) := by
        simp only [Connection.enqueue, Connection.update, List.append_assoc, List.singleton_append]
      have hothers := ih (state.turn .server) (by rw [hturn]) (by rw [hturn]; exact hreset)
        (by rw [hturn]; exact hopen) hrest
      show (state.turn .server).follow (messages.map fun _ => .server) = _
      rw [hothers, hturn, ← hqueue]

/-- Sinks that take everything get all of what is queued for them. -/
theorem took_of_queue (messages : List Bytes) :
    ∀ state : Streaming, state.relaying = true → state.socket.kind = .packet →
      state.socket.near.reset = false → state.socket.near.inbox = messages →
      (∀ message ∈ messages, message ≠ []) → state.relay.outputs.Steady →
      (∀ packet ∈ packetsIn messages, state.relay.outputs.Takes packet) →
      state.relay.outputs.Took (fun stream => payloadsTo stream (packetsIn messages))
        (state.follow (messages.map fun _ => .output)).relay.outputs := by
  induction messages with
  | nil =>
      intro state _ _ _ _ _ hsteady _
      exact hsteady.took_nil
  | cons message messages ih =>
      intro state hrelaying hkind hreset hinbox hmessages hsteady htakes
      obtain ⟨hne, hrest⟩ := List.forall_mem_cons.mp hmessages
      obtain ⟨packet, hread, hpackets⟩ := exists_packetsIn_cons hne messages
      rw [hpackets] at htakes ⊢
      obtain ⟨hfirst, hothers⟩ := List.forall_mem_cons.mp htakes
      obtain ⟨relay, hturn, htook⟩ :=
        turn_output_of_message hrelaying hkind hreset hinbox hread hsteady hfirst
      have hqueue := ih (state.turn .output) (by rw [hturn]; exact hrelaying)
        (by rw [hturn]; exact hkind) (by rw [hturn]; exact hreset) (by rw [hturn]; rfl) hrest
        (by rw [hturn]; exact htook.steady)
        (by rw [hturn]; exact fun other hother => htook.takes (hothers other hother))
      have hrelay : (state.turn .output).relay.outputs = relay.outputs := by rw [hturn]
      rw [hrelay] at hqueue
      have hpayloads : (fun stream => payloadsTo stream (packet :: packetsIn messages)) =
          fun stream => payloadsTo stream [packet] ++ payloadsTo stream (packetsIn messages) := by
        funext stream
        exact payloadsTo_append stream [packet] (packetsIn messages)
      rw [hpayloads]
      exact htook.trans hqueue

/-- The turns of a session without input whose server listens to the end, and then sends
messages. -/
def relayingTurns (messages : List Bytes) : List Party :=
  [.coordinator, .input, .coordinator, .server] ++ messages.map (fun _ => .server) ++
    messages.map fun _ => .output

/-- The sinks get the payloads of what the client reads of the messages. -/
theorem took_relayingTurns {config : AttachConfig} (hpre : config.preAttach = none)
    (hpost : config.postAttach = none) (hstop : config.stopAfterStdinEof = false)
    (hstdin : config.streams.stdin = none) (hwanted : config.streams.outputs.any = true)
    (hsteady : config.streams.outputs.Steady) {messages : List Bytes}
    (hmessages : ∀ message ∈ messages, message ≠ [] ∧ message.length ≤ Connection.messageLimit)
    (htakes : ∀ packet ∈ packetsIn messages, config.streams.outputs.Takes packet) :
    config.streams.outputs.Took (fun stream => payloadsTo stream (packetsIn messages))
      ((opening config { kind := .packet } { steps := .drain :: messages.map .sendRaw }).follow
        (relayingTurns messages)).relay.outputs := by
  let listening : Streaming :=
    { policy := ⟨false, false, true⟩
      postAttach := none
      socket := ⟨.packet, { handles := 2, writeShut := true, closed := true }, { readShut := true }⟩
      server := { steps := messages.map .sendRaw }
      input := .ended
      relay := ⟨config.streams.outputs, {}⟩
      phase := .awaiting (.ok ()) }
  have hlistening : (opening config { kind := .packet }
      { steps := .drain :: messages.map .sendRaw }).follow
        [.coordinator, .input, .coordinator, .server] = listening := by
    obtain ⟨id, path, exec, tty, stop, passthrough, resize, ⟨stdin, stdout, stderr⟩, pre, post,
      keys⟩ := config
    obtain rfl : pre = none := hpre
    obtain rfl : post = none := hpost
    obtain rfl : stop = false := hstop
    obtain rfl : stdin = none := hstdin
    cases stdout with
    | some out => rfl
    | none =>
        cases stderr with
        | some err => rfl
        | none => exact absurd hwanted Bool.false_ne_true
  rw [relayingTurns, follow_append, follow_append, hlistening,
    follow_sends messages listening rfl rfl rfl hmessages]
  exact took_of_queue messages
    { listening with server := {}, socket := listening.socket.enqueue .near messages }
    rfl rfl rfl rfl (fun message hmem => (hmessages message hmem).1) hsteady htakes

end Streaming

/-- What the sink of a stream gets, if it is there. -/
theorem Outputs.Took.dataOf_eq {outputs after : Outputs} {bytes : StdStream → Bytes}
    (htook : outputs.Took bytes after) {stream : StdStream} {sink : Sink}
    (hsink : outputs.sink? stream = some sink) :
    after.dataOf stream = outputs.dataOf stream ++ bytes stream := by
  obtain ⟨last, hlast, htaken⟩ := htook.exists_sink hsink
  rw [dataOf, dataOf, hsink, hlast]
  exact htaken.data_eq

/-- A session without input shows all that the client reads of the server's messages. -/
theorem Client.attach_shows {client : Client} {net : Network} {config : AttachConfig}
    (hconnected : client.Connected net config) (hkind : client.kind = .packet)
    (hpre : config.preAttach = none) (hpost : config.postAttach = none)
    (hstop : config.stopAfterStdinEof = false) (hstdin : config.streams.stdin = none)
    (hwanted : config.streams.outputs.any = true) (hsteady : config.streams.outputs.Steady)
    {messages : List Bytes}
    (hmessages : ∀ message ∈ messages, message ≠ [] ∧ message.length ≤ Connection.messageLimit)
    (htakes : ∀ packet ∈ packetsIn messages, config.streams.outputs.Takes packet)
    (stream : StdStream) {sink : Sink} (hsink : config.streams.outputs.sink? stream = some sink) :
    config.streams.outputs.dataOf stream ++ payloadsTo stream (packetsIn messages) <+:
      (client.attach net config { steps := .drain :: messages.map .sendRaw }
        (Streaming.relayingTurns messages)).outputs.dataOf stream := by
  have htook := Streaming.took_relayingTurns hpre hpost hstop hstdin hwanted hsteady hmessages
    htakes
  obtain ⟨turns, ⟨more, rfl⟩, -, houtputs⟩ := client.attach_outputs net config
    { steps := .drain :: messages.map .sendRaw } {} (Streaming.relayingTurns messages)
  have hopening : client.opening? net config { steps := .drain :: messages.map .sendRaw } =
      some (.opening config { kind := .packet } { steps := .drain :: messages.map .sendRaw }) :=
    opening?_eq_some_iff.mpr ⟨hconnected, hkind ▸ rfl⟩
  -- whatever happens behind these turns, the sinks keep what they have got
  obtain ⟨handovers, hcalls⟩ := Streaming.exists_calls_follow
    ((Streaming.opening config { kind := .packet }
      { steps := .drain :: messages.map .sendRaw }).follow (Streaming.relayingTurns messages)) more
  rw [houtputs, outputsAfter, hopening, Option.elim_some, Streaming.follow_append,
    ← htook.dataOf_eq hsink]
  exact hcalls.dataOf_prefix stream

end ContainerAttach
