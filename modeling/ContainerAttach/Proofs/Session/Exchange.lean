import ContainerAttach.Proofs.Output.Steady
import ContainerAttach.Proofs.Session.Settling
import ContainerAttach.Proofs.Session.Typing

/-!
# A server that listens to the end and then answers

In an `Exchange` the server receives until the input ends, sends its packets, and closes
its end.  The input is forwarded to its end and the session then awaits the output, so
neither side can go on without the other: the server answers only after the write
direction of the socket has been closed, and that happens when the input has been
reported.

Whatever the schedule, such a session is always in one of six stages (`Exchange.Stage`):

* the input is being forwarded;
* the input has ended, and its report has not been looked at;
* the write direction is closed, and the server has not come to the end of the input;
* the server answers;
* the server has closed its end;
* the output has ended.

A turn leads to the same stage or to the next (`Stage.step`), and in all stages but the
last somebody can act (`Stage.result_of_rest`).  So the session returns, with the
messages received in order and the packets relayed in order (`Exchange.run_of_stage`).
-/

namespace ContainerAttach

/-! ## Reporting the output -/

/-- What the output task reports of the way in which relaying ended. -/
def Ending.relayed : Ending PacketError Tally → Except AttachError Tally
  | .done tally => .ok tally
  | .failed cause => .error (.output cause)
  | .crashed => .error (.taskTornDown Task.output.name)

theorem Completion.ofRelay_eq (queue : List Completion) (ending : Ending PacketError Tally) :
    ofRelay queue ending = queue ++ [.output ending.relayed] := by
  cases ending <;> rfl

/-! ## Exchanges -/

/-- The hook succeeds, and what it waits for has been put out already. -/
def Hook.Passes (accepted : Nat) : Option Hook → Prop
  | none => True
  | some hook => hook.error = none ∧ hook.waitOut ≤ accepted

/-- A session with a server that listens to the end before it answers. -/
structure Exchange where
  policy : Policy
  postAttach : Option Hook
  /-- The sinks at the start. -/
  outputs : Outputs
  /-- How forwarding ends, and the messages that it makes. -/
  ending : Ending ForwardError Nat
  messages : List Bytes
  /-- What the server answers. -/
  packets : List Packet
  passes : Hook.Passes outputs.acceptedCount postAttach
  awaits : policy.Awaits ending.forwarded
  messages_fit : ∀ message ∈ messages, message ≠ [] ∧ message.length ≤ Connection.messageLimit
  packets_fit : ∀ packet ∈ packets, packet.payload.length ≤ Packet.payloadLimit

namespace Exchange

variable (x : Exchange)

/-- How relaying the answer ends. -/
def verdict : Ending PacketError Tally × Relay :=
  Relay.relayAll ⟨x.outputs, {}⟩ x.packets

/-- The result if the output ends well. -/
def otherwise : Except AttachError Unit :=
  x.ending.forwarded.map fun _ => ()

def result : Except AttachError Unit :=
  match x.verdict.1.relayed with
  | .ok _ => x.otherwise
  | .error error => .error error

/-- All that the server reads: the messages, and then the end of the input. -/
def log : List Received :=
  x.messages.map .data ++ [.data []]

/-! ## Stages -/

/-- The socket while nothing has been closed, with the messages that wait for the server. -/
def openSocket (handles : Nat) (queued : List Bytes) : Connection :=
  ⟨.packet, { handles := handles }, { inbox := queued }⟩

/-- The socket after the client has closed its write direction. -/
def halfClosedSocket (queued : List Bytes) : Connection :=
  ⟨.packet, { handles := 2, writeShut := true, closed := true },
    { inbox := queued, readShut := true }⟩

/-- The socket while the server answers, with the packets that wait for the client. -/
def answeringSocket (queued : List Packet) : Connection :=
  ⟨.packet,
    { inbox := queued.map Packet.bytes, handles := 2, writeShut := true, closed := true },
    { readShut := true }⟩

/-- The socket after the server has closed its end. -/
def answeredSocket (queued : List Packet) : Connection :=
  ⟨.packet,
    { inbox := queued.map Packet.bytes, handles := 2, readShut := true, writeShut := true,
      closed := true },
    { handles := 0, readShut := true }⟩

/-- The state while the server listens. -/
def listening (socket : Connection) (received : List Bytes) (input : InputTask)
    (sent : List Bytes) (completions : List Completion) (phase : Phase) (hooked : Bool) :
    Streaming :=
  { policy := x.policy
    postAttach := x.postAttach
    socket := socket
    server := { steps := .drain :: x.packets.map .send, received := received }
    input := input
    forwarded := sent
    relay := ⟨x.outputs, {}⟩
    completions := completions
    phase := phase
    hooked := hooked }

/-- The state while the answer is relayed. -/
def answering (socket : Connection) (server : Server) (relay : Relay) (hooked : Bool) :
    Streaming :=
  { policy := x.policy
    postAttach := x.postAttach
    socket := socket
    server := server
    input := .ended
    forwarded := x.messages
    relay := relay
    phase := .awaiting x.otherwise
    hooked := hooked }

/-- The state after the output has ended. -/
def told (socket : Connection) (server : Server) (completions : List Completion)
    (phase : Phase) (hooked : Bool) : Streaming :=
  { policy := x.policy
    postAttach := x.postAttach
    socket := socket
    server := server
    input := .ended
    forwarded := x.messages
    relay := x.verdict.2
    relaying := false
    completions := completions
    phase := phase
    hooked := hooked }

/-- The coordinator has not looked at a completion. -/
inductive Undecided : Phase → Prop
  | started : Undecided .started
  | settling : Undecided .settling

/-- The server has received all messages, and does nothing but send any more. -/
structure Replies (server : Server) : Prop where
  received_eq : server.received = x.messages
  sends : ∀ step ∈ server.steps, ∃ packet, step = .send packet

/-- The coordinator on its way from the output's report to the result. -/
inductive Concluding : List Completion → Phase → Prop
  | awaiting : Concluding [.output x.verdict.1.relayed] (.awaiting x.otherwise)
  | finishing : Concluding [] (.finishing x.result)
  | returned : Concluding [] (.returned x.result)

/-- How far a session is, with what the server has read so far. -/
inductive Stage : List Received → Streaming → Prop
  | typing {task : InputTask} {sent received queued : List Bytes} {phase : Phase} {hooked : Bool}
      (forwards : task.Forwards x.ending x.messages sent) (sent_eq : sent = received ++ queued)
      (undecided : Undecided phase) :
      Stage (received.map .data)
        (x.listening (openSocket 3 queued) received task sent [] phase hooked)
  | typed {received queued : List Bytes} {phase : Phase} {hooked : Bool}
      (messages_eq : x.messages = received ++ queued) (undecided : Undecided phase) :
      Stage (received.map .data)
        (x.listening (openSocket 2 queued) received .ended x.messages
          [.input x.ending.forwarded] phase hooked)
  | halfClosed {received queued : List Bytes} {hooked : Bool}
      (messages_eq : x.messages = received ++ queued) :
      Stage (received.map .data)
        (x.listening (halfClosedSocket queued) received .ended x.messages []
          (.awaiting x.otherwise) hooked)
  | answering {queued unsent : List Packet} {relay : Relay} {hooked : Bool}
      (rest_eq : relay.relayAll (queued ++ unsent) = x.verdict)
      (rest : queued ++ unsent <:+ x.packets) :
      Stage x.log
        (x.answering (answeringSocket queued)
          { steps := unsent.map .send, received := x.messages } relay hooked)
  | answered {queued : List Packet} {relay : Relay} {hooked : Bool}
      (rest_eq : relay.relayAll queued = x.verdict) (rest : queued <:+ x.packets) :
      Stage x.log
        (x.answering (answeredSocket queued) { received := x.messages, isOpen := false }
          relay hooked)
  | told {socket : Connection} {server : Server} {completions : List Completion} {phase : Phase}
      {hooked : Bool} (replies : x.Replies server) (concluding : x.Concluding completions phase) :
      Stage x.log (x.told socket server completions phase hooked)

end Exchange

/-! ## Turns of the server and of the output task -/

namespace Streaming

variable (state : Streaming) {rest : List ServerStep}

/-- A server that listens takes the next message. -/
theorem actServer?_of_message (hsteps : state.server.steps = .drain :: rest)
    (hkind : state.socket.kind = .packet) (hreset : state.socket.far.reset = false)
    {message : Bytes} {inbox : List Bytes} (hinbox : state.socket.far.inbox = message :: inbox)
    (hmessage : message ≠ []) :
    state.actServer? =
        some { state with
          server := { state.server with received := state.server.received ++ [message] }
          socket := state.socket.update .far fun far => { far with inbox := inbox } } ∧
      state.reads .server = [.data message] := by
  have hroom : message.length ≤ Server.roomFor state.socket.far := by
    rw [Server.roomFor, hinbox, List.flatten_cons, List.length_append]
    exact Nat.le_add_right _ _
  have hreceive : state.socket.receive .far (Server.roomFor state.socket.far) =
      (.data message, state.socket.update .far fun far => { far with inbox := inbox }) :=
    Connection.receive_of_inbox hkind hreset hinbox hroom
  obtain ⟨byte, tail, rfl⟩ := List.exists_cons_of_ne_nil hmessage
  constructor
  · simp only [actServer?, Server.act?, hsteps, Server.read?, hreceive]
  · simp only [reads, Server.reads, hsteps, hreceive, Received.logged]

/-- A server that listens waits, or finds the end of the input. -/
theorem actServer?_of_empty (hsteps : state.server.steps = .drain :: rest)
    (hreset : state.socket.far.reset = false) (hinbox : state.socket.far.inbox = []) :
    if state.socket.far.readShut then
      state.actServer? = some { state with server := { state.server with steps := rest } } ∧
        state.reads .server = [.data []]
    else state.actServer? = none := by
  have hreceive : state.socket.receive .far (Server.roomFor state.socket.far) =
      (if state.socket.far.readShut then .data [] else .blocked, state.socket) :=
    Connection.receive_of_empty .far hreset hinbox _
  split
  · next hshut =>
    rw [hshut] at hreceive
    constructor
    · simp [actServer?, Server.act?, hsteps, Server.read?, hreceive]
    · simp [reads, Server.reads, hsteps, hreceive, Received.logged]
  · next hshut => simp [actServer?, Server.act?, hsteps, Server.read?, hreceive, hshut]

/-- A server that sends a packet puts it behind the queue of the client. -/
theorem actServer?_of_send {packet : Packet} (hsteps : state.server.steps = .send packet :: rest)
    (hreset : state.socket.far.reset = false) (hopen : state.socket.far.writeShut = false)
    (hfits : packet.payload.length ≤ Packet.payloadLimit) :
    state.actServer? =
      some { state with
        server := { state.server with steps := rest }
        socket := state.socket.enqueue .near [packet.bytes] } := by
  have hlimit : packet.bytes.length ≤ Connection.messageLimit := by
    simp only [Packet.bytes, List.length_cons, Packet.payloadLimit, Connection.messageLimit]
      at hfits ⊢
    omega
  have hsend : state.socket.send .far packet.bytes =
      (.ok packet.bytes.length, state.socket.enqueue .near [packet.bytes]) :=
    Connection.send_of_writable (List.cons_ne_nil _ _) hreset hopen fun _ => hlimit
  simp [actServer?, Server.act?, hsteps, Server.sendPacket, Packet.appendTo,
    Nat.not_lt.mpr hfits, hsend]

/-- As long as nothing has been sent to it and the server is there, the output task waits. -/
theorem actOutput?_of_empty (hreset : state.socket.near.reset = false)
    (hinbox : state.socket.near.inbox = []) (hopen : state.socket.near.readShut = false) :
    state.actOutput? = none := by
  have hreceive : state.socket.receive .near Packet.sizeLimit =
      (if state.socket.near.readShut then .data [] else .blocked, state.socket) :=
    Connection.receive_of_empty .near hreset hinbox _
  rw [hopen] at hreceive
  cases hrelaying : state.relaying with
  | false => simp [actOutput?, hrelaying]
  | true => simp [actOutput?, hrelaying, hreceive]

/-- As long as the output task runs, the coordinator waits for a completion. -/
theorem onNoCompletion?_of_relaying (hrelaying : state.relaying = true) :
    state.onNoCompletion? = none := by
  simp [onNoCompletion?, isAbandoned, hrelaying]

/-- A hook that passes does not hold the coordinator up. -/
theorem actHook?_of_passes (hpasses : Hook.Passes state.accepted state.postAttach) :
    ∃ called, state.actHook? = some { state with phase := .settling, hooked := called } := by
  unfold actHook?
  cases hhook : state.postAttach with
  | none => exact ⟨state.hooked, rfl⟩
  | some hook =>
      rw [hhook] at hpasses
      obtain ⟨herror, hwait⟩ := hpasses
      exact ⟨true, by simp only [hwait, if_true, herror]⟩

/-- The output task takes the next packet whole. -/
theorem actOutput?_of_packet (hrelaying : state.relaying = true)
    (hkind : state.socket.kind = .packet) (hreset : state.socket.near.reset = false)
    {packet : Packet} {inbox : List Bytes}
    (hinbox : state.socket.near.inbox = packet.bytes :: inbox)
    (hfits : packet.payload.length ≤ Packet.payloadLimit) :
    state.actOutput? =
      some ({ state with
        socket := state.socket.update .near fun near => { near with inbox := inbox } }.onOutput
          (.data packet.bytes)) := by
  have hroom : packet.bytes.length ≤ Packet.sizeLimit := Nat.succ_le_succ hfits
  have hreceive : state.socket.receive .near Packet.sizeLimit =
      (.data packet.bytes,
        state.socket.update .near fun near => { near with inbox := inbox }) :=
    Connection.receive_of_inbox hkind hreset hinbox hroom
  simp only [actOutput?, hrelaying, if_true, hreceive]

end Streaming

/-! ## One turn -/

namespace Exchange

variable {x : Exchange} {log : List Received} {state next : Streaming} {party : Party}

theorem fits_of_suffix {packets : List Packet} (hrest : packets <:+ x.packets) {packet : Packet}
    (hmem : packet ∈ packets) : packet.payload.length ≤ Packet.payloadLimit :=
  x.packets_fit packet (hrest.subset hmem)

/-! ### While the server listens -/

section Listening

variable {socket : Connection} {queued received sent : List Bytes} {input : InputTask}
  {completions : List Completion} {phase : Phase} {hooked : Bool}

/-- A turn of the server takes a message, or comes to the end of the input. -/
theorem listening_server {near : Endpoint} {shut : Bool}
    (hstate : state = x.listening ⟨.packet, near, { inbox := queued, readShut := shut }⟩
      received input sent completions phase hooked)
    (hqueued : ∀ message ∈ queued, message ≠ []) (hact : state.act? .server = some next) :
    (∃ message inbox, queued = message :: inbox ∧ state.reads .server = [.data message] ∧
      next = x.listening ⟨.packet, near, { inbox := inbox, readShut := shut }⟩
        (received ++ [message]) input sent completions phase hooked) ∨
    (queued = [] ∧ shut = true ∧ state.reads .server = [.data []] ∧
      next = { state with
        server := { steps := x.packets.map .send, received := received } }) := by
  subst hstate
  cases queued with
  | cons message inbox =>
      obtain ⟨htakes, hreads⟩ := Streaming.actServer?_of_message
        (x.listening ⟨.packet, near, { inbox := message :: inbox, readShut := shut }⟩
          received input sent completions phase hooked)
        rfl rfl rfl rfl (hqueued message List.mem_cons_self)
      have hnext := Option.some.inj (hact.symm.trans htakes)
      exact Or.inl ⟨message, inbox, rfl, hreads, hnext⟩
  | nil =>
      have hempty := Streaming.actServer?_of_empty
        (x.listening ⟨.packet, near, { readShut := shut }⟩ received input sent completions
          phase hooked) rfl rfl rfl
      cases shut with
      | false => exact absurd (hact.symm.trans hempty) (by simp)
      | true =>
          obtain ⟨hends, hreads⟩ := hempty
          have hnext := Option.some.inj (hact.symm.trans hends)
          exact Or.inr ⟨rfl, rfl, hreads, hnext⟩

/-- The output task waits. -/
theorem listening_output (hnear : socket.near.inbox = []) (hopen : socket.near.readShut = false)
    (hreset : socket.near.reset = false) :
    (x.listening socket received input sent completions phase hooked).act? .output = none :=
  Streaming.actOutput?_of_empty _ hreset hnear hopen

/-- The caller's hook does not stop the coordinator. -/
theorem listening_hook :
    ∃ called, (x.listening socket received input sent completions .started hooked).act?
        .coordinator =
      some (x.listening socket received input sent completions .settling called) :=
  Streaming.actHook?_of_passes _ x.passes

/-- The first completion closes the write direction, and the session awaits the output. -/
theorem listening_first :
    (x.listening (openSocket 2 queued) received .ended x.messages [.input x.ending.forwarded]
      .settling hooked).act? .coordinator =
        some (x.listening (halfClosedSocket queued) received .ended x.messages []
          (.awaiting x.otherwise) hooked) := by
  have hclose : (openSocket 2 queued).closeWrite .near = (.ok (), halfClosedSocket queued) := rfl
  have hdecision : x.policy.onFirst (.ok ()) (.input x.ending.forwarded) =
      .awaitOutput x.otherwise := x.awaits.onFirst _
  show some (Streaming.onFirst _ _ _) = _
  simp only [Streaming.onFirst, listening, hclose, hdecision]

end Listening

theorem typing_step {task : InputTask} {sent received queued : List Bytes} {phase : Phase}
    {hooked : Bool} (hforwards : task.Forwards x.ending x.messages sent)
    (hsent : sent = received ++ queued) (hundecided : Undecided phase)
    (hstate : state = x.listening (openSocket 3 queued) received task sent [] phase hooked)
    (hact : state.act? party = some next) :
    x.Stage (received.map .data ++ state.reads party) next := by
  cases party with
  | input =>
      have hinput : state.input = task := by rw [hstate]; rfl
      have hopen : Streaming.OpenForWriting state.socket := by rw [hstate]; exact ⟨rfl, rfl⟩
      obtain ⟨output, hturn⟩ := state.actInput?_of_forwards hforwards hinput hopen
        (fun _ message hmem => (x.messages_fit message hmem).2)
      have hqueue : sent ++ output = received ++ (queued ++ output) := by
        rw [hsent, List.append_assoc]
      show x.Stage (received.map .data ++ []) next
      rw [List.append_nil]
      rcases hturn with ⟨after, hafter, hgoes⟩ | ⟨hall, hends⟩
      · obtain rfl := Option.some.inj (hact.symm.trans hgoes)
        subst hstate
        exact .typing hafter hqueue hundecided
      · have hnext : next = x.listening (openSocket 2 (queued ++ output)) received .ended
            x.messages [.input x.ending.forwarded] phase hooked := by
          rw [Option.some.inj (hact.symm.trans hends), hstate, Streaming.endInput,
            Completion.ofForward_eq, hall]
          rfl
        rw [hnext]
        exact .typed (hall.trans hqueue) hundecided
  | server =>
      obtain ⟨more, hmore, -⟩ := hforwards.exists_append
      have hqueued : ∀ message ∈ queued, message ≠ [] := by
        intro message hmem
        refine (x.messages_fit message ?_).1
        rw [hmore, hsent]
        exact List.mem_append_left more (List.mem_append_right received hmem)
      rcases listening_server hstate hqueued hact with
        ⟨message, inbox, rfl, hreads, rfl⟩ | ⟨-, hshut, -⟩
      · rw [hreads, ← List.map_singleton, ← List.map_append]
        exact .typing hforwards (hsent.trans (List.append_cons ..)) hundecided
      · exact absurd hshut Bool.false_ne_true
  | output =>
      subst hstate
      exact absurd (hact.symm.trans (listening_output rfl rfl rfl)) (by simp)
  | coordinator =>
      show x.Stage (received.map .data ++ []) next
      rw [List.append_nil]
      cases hundecided with
      | started =>
          subst hstate
          obtain ⟨called, hhook⟩ := listening_hook
          obtain rfl := Option.some.inj (hact.symm.trans hhook)
          exact .typing hforwards hsent .settling
      | settling =>
          have hwaits : state.onNoCompletion? = none :=
            Streaming.onNoCompletion?_of_relaying state (by rw [hstate]; rfl)
          subst hstate
          exact absurd (hact.symm.trans hwaits) (by simp)

/-- What is left to be received of the messages is not empty. -/
theorem ne_nil_of_messages {received queued : List Bytes}
    (hmessages : x.messages = received ++ queued) : ∀ message ∈ queued, message ≠ [] := by
  intro message hmem
  refine (x.messages_fit message ?_).1
  rw [hmessages]
  exact List.mem_append_right received hmem

theorem typed_step {received queued : List Bytes} {phase : Phase} {hooked : Bool}
    (hmessages : x.messages = received ++ queued) (hundecided : Undecided phase)
    (hstate : state = x.listening (openSocket 2 queued) received .ended x.messages
      [.input x.ending.forwarded] phase hooked)
    (hact : state.act? party = some next) :
    x.Stage (received.map .data ++ state.reads party) next := by
  cases party with
  | input =>
      subst hstate
      exact absurd hact (by simp [Streaming.act?, Streaming.actInput?, listening])
  | server =>
      rcases listening_server hstate (ne_nil_of_messages hmessages) hact with
        ⟨message, inbox, rfl, hreads, rfl⟩ | ⟨-, hshut, -⟩
      · rw [hreads, ← List.map_singleton, ← List.map_append]
        exact .typed (hmessages.trans (List.append_cons ..)) hundecided
      · exact absurd hshut Bool.false_ne_true
  | output =>
      subst hstate
      exact absurd (hact.symm.trans (listening_output rfl rfl rfl)) (by simp)
  | coordinator =>
      show x.Stage (received.map .data ++ []) next
      rw [List.append_nil]
      subst hstate
      cases hundecided with
      | started =>
          obtain ⟨called, hhook⟩ := listening_hook
          obtain rfl := Option.some.inj (hact.symm.trans hhook)
          exact .typed hmessages .settling
      | settling =>
          obtain rfl := Option.some.inj (hact.symm.trans listening_first)
          exact .halfClosed hmessages

theorem halfClosed_step {received queued : List Bytes} {hooked : Bool}
    (hmessages : x.messages = received ++ queued)
    (hstate : state = x.listening (halfClosedSocket queued) received .ended x.messages []
      (.awaiting x.otherwise) hooked)
    (hact : state.act? party = some next) :
    x.Stage (received.map .data ++ state.reads party) next := by
  cases party with
  | input =>
      subst hstate
      exact absurd hact (by simp [Streaming.act?, Streaming.actInput?, listening])
  | server =>
      rcases listening_server hstate (ne_nil_of_messages hmessages) hact with
        ⟨message, inbox, rfl, hreads, rfl⟩ | ⟨rfl, -, hreads, rfl⟩
      · rw [hreads, ← List.map_singleton, ← List.map_append]
        exact .halfClosed (hmessages.trans (List.append_cons ..))
      · -- everything has been received, and nothing has been sent
        rw [List.append_nil] at hmessages
        have hrest : Relay.relayAll ⟨x.outputs, {}⟩ ([] ++ x.packets) = x.verdict := rfl
        have hsuffix : [] ++ x.packets <:+ x.packets := List.suffix_refl _
        rw [hreads, hstate, ← hmessages]
        exact .answering hrest hsuffix
  | output =>
      subst hstate
      exact absurd (hact.symm.trans (listening_output rfl rfl rfl)) (by simp)
  | coordinator =>
      have hwaits : state.onNoCompletion? = none :=
        Streaming.onNoCompletion?_of_relaying state (by rw [hstate]; rfl)
      subst hstate
      exact absurd (hact.symm.trans hwaits) (by simp)

/-! ### While the answer is relayed -/

/-- The output task takes the next packet: it is relayed, or it is the one at which the run
ends. -/
theorem answering_output {socket : Connection} {server : Server} {relay : Relay} {hooked : Bool}
    {packet : Packet} {packets : List Packet} {inbox : List Bytes}
    (hrest : relay.relayAll (packet :: packets) = x.verdict)
    (hfits : packet.payload.length ≤ Packet.payloadLimit) (hkind : socket.kind = .packet)
    (hreset : socket.near.reset = false) (hinbox : socket.near.inbox = packet.bytes :: inbox)
    (hact : (x.answering socket server relay hooked).act? .output = some next) :
    let left := socket.update .near fun near => { near with inbox := inbox }
    (∃ after, Relay.relayAll after packets = x.verdict ∧
      next = x.answering left server after hooked) ∨
    next = x.told (left.release .near) server [.output x.verdict.1.relayed]
      (.awaiting x.otherwise) hooked := by
  intro left
  have htakes := Streaming.actOutput?_of_packet (x.answering socket server relay hooked) rfl hkind
    hreset hinbox hfits
  rw [Option.some.inj (hact.symm.trans htakes)]
  show (∃ after, _ ∧ (x.answering left server relay hooked).onOutput _ = _) ∨
    (x.answering left server relay hooked).onOutput _ = _
  rcases hread : relay.onRead (.data packet.bytes) with ⟨after, _ | ending⟩
  · rw [Relay.relayAll, hread] at hrest
    refine Or.inl ⟨after, hrest, ?_⟩
    simp only [Streaming.onOutput, answering, hread]
  · rw [Relay.relayAll, hread] at hrest
    have hverdict : x.verdict = (ending, after) := hrest.symm
    refine Or.inr ?_
    simp only [Streaming.onOutput, answering, hread, Completion.ofRelay_eq, told, hverdict]
    rfl

/-- The end of the output is reported. -/
theorem answering_onEnd {relay : Relay} (hrest : relay.relayAll [] = x.verdict)
    (socket : Connection) (server : Server) (hooked : Bool) :
    (x.answering socket server relay hooked).onOutput (.data []) =
      x.told (socket.release .near) server [.output x.verdict.1.relayed]
        (.awaiting x.otherwise) hooked := by
  have hverdict : x.verdict = (.done relay.tally, relay) := hrest.symm
  simp only [Streaming.onOutput, answering, Relay.onRead_end, Completion.ofRelay_eq, told,
    hverdict]
  rfl

theorem replies_of_unsent (unsent : List Packet) (isOpen : Bool) :
    x.Replies { steps := unsent.map .send, received := x.messages, isOpen := isOpen } := by
  refine ⟨rfl, ?_⟩
  intro step hstep
  obtain ⟨packet, -, rfl⟩ := List.mem_map.mp hstep
  exact ⟨packet, rfl⟩

/-- The input task has ended, and the coordinator waits for the output. -/
theorem answering_waits {socket : Connection} {server : Server} {relay : Relay} {hooked : Bool} :
    (x.answering socket server relay hooked).act? .input = none ∧
      (x.answering socket server relay hooked).act? .coordinator = none := by
  refine ⟨rfl, ?_⟩
  exact Streaming.onNoCompletion?_of_relaying (x.answering socket server relay hooked) rfl

theorem answering_step {queued unsent : List Packet} {relay : Relay} {hooked : Bool}
    (hrest : relay.relayAll (queued ++ unsent) = x.verdict)
    (hsuffix : queued ++ unsent <:+ x.packets)
    (hstate : state = x.answering (answeringSocket queued)
      { steps := unsent.map .send, received := x.messages } relay hooked)
    (hact : state.act? party = some next) :
    x.Stage (x.log ++ state.reads party) next := by
  have hreads : state.reads party = [] := by
    rw [hstate]
    cases party with
    | server => cases unsent <;> rfl
    | input | output | coordinator => rfl
  rw [hreads, List.append_nil]
  subst hstate
  cases party with
  | input => exact absurd (hact.symm.trans answering_waits.1) (by simp)
  | server =>
      cases unsent with
      | nil =>
          obtain rfl := Option.some.inj hact
          rw [List.append_nil] at hrest hsuffix
          exact .answered hrest hsuffix
      | cons packet unsent =>
          have hmem : packet ∈ queued ++ packet :: unsent :=
            List.mem_append_right queued List.mem_cons_self
          have hsends := Streaming.actServer?_of_send
            (x.answering (answeringSocket queued)
              { steps := (packet :: unsent).map .send, received := x.messages } relay hooked)
            rfl rfl rfl (fits_of_suffix hsuffix hmem)
          have hqueue : (answeringSocket queued).enqueue .near [packet.bytes] =
              answeringSocket (queued ++ [packet]) := by
            simp only [answeringSocket, List.map_append]
            rfl
          have hnext : next = x.answering (answeringSocket (queued ++ [packet]))
              { steps := unsent.map .send, received := x.messages } relay hooked := by
            rw [← hqueue]
            exact Option.some.inj (hact.symm.trans hsends)
          rw [List.append_cons] at hrest hsuffix
          rw [hnext]
          exact .answering hrest hsuffix
  | output =>
      cases queued with
      | nil =>
          have hwaits := Streaming.actOutput?_of_empty
            (x.answering (answeringSocket [])
              { steps := unsent.map .send, received := x.messages } relay hooked) rfl rfl rfl
          exact absurd (hact.symm.trans hwaits) (by simp)
      | cons packet queued =>
          have hlater : queued ++ unsent <:+ x.packets :=
            (List.suffix_cons packet _).trans hsuffix
          have hfits := fits_of_suffix hsuffix List.mem_cons_self
          rcases answering_output hrest hfits rfl rfl rfl hact with ⟨after, hafter, rfl⟩ | rfl
          · exact .answering hafter hlater
          · exact .told (replies_of_unsent unsent true) .awaiting
  | coordinator => exact absurd (hact.symm.trans answering_waits.2) (by simp)

theorem answered_step {queued : List Packet} {relay : Relay} {hooked : Bool}
    (hrest : relay.relayAll queued = x.verdict) (hsuffix : queued <:+ x.packets)
    (hstate : state = x.answering (answeredSocket queued)
      { received := x.messages, isOpen := false } relay hooked)
    (hact : state.act? party = some next) :
    x.Stage (x.log ++ state.reads party) next := by
  have hreads : state.reads party = [] := by
    rw [hstate]
    cases party <;> rfl
  rw [hreads, List.append_nil]
  subst hstate
  cases party with
  | input => exact absurd (hact.symm.trans answering_waits.1) (by simp)
  | server =>
      have hwaits : (x.answering (answeredSocket queued)
          { received := x.messages, isOpen := false } relay hooked).actServer? = none := rfl
      exact absurd (hact.symm.trans hwaits) (by simp)
  | output =>
      cases queued with
      | nil =>
          have hends := answering_onEnd hrest (answeredSocket [])
            { received := x.messages, isOpen := false } hooked
          obtain rfl := Option.some.inj (hact.symm.trans (congrArg some hends))
          exact .told (replies_of_unsent [] false) .awaiting
      | cons packet queued =>
          have hlater : queued <:+ x.packets := (List.suffix_cons packet queued).trans hsuffix
          have hfits := fits_of_suffix hsuffix List.mem_cons_self
          rcases answering_output hrest hfits rfl rfl rfl hact with ⟨after, hafter, rfl⟩ | rfl
          · exact .answered hafter hlater
          · exact .told (replies_of_unsent [] false) .awaiting
  | coordinator => exact absurd (hact.symm.trans answering_waits.2) (by simp)

/-! ### After the output has ended -/

/-- What the coordinator makes of the output's report. -/
theorem settle?_relayed :
    (Completion.output x.verdict.1.relayed).settle? x.otherwise = some x.result := by
  unfold result
  cases x.verdict.1.relayed <;> rfl

theorem told_step {socket : Connection} {server : Server} {completions : List Completion}
    {phase : Phase} {hooked : Bool} (hreplies : x.Replies server)
    (hconcluding : x.Concluding completions phase)
    (hstate : state = x.told socket server completions phase hooked)
    (hact : state.act? party = some next) :
    x.Stage (x.log ++ state.reads party) next := by
  obtain ⟨steps, received, isOpen⟩ := server
  obtain ⟨hreceived, hsends⟩ := hreplies
  subst hstate
  cases party with
  | input | output =>
      exact absurd hact (by simp [Streaming.act?, Streaming.actInput?, Streaming.actOutput?, told])
  | server =>
      -- whatever becomes of what it sends, the server goes on to its end
      cases steps with
      | nil =>
          cases isOpen with
          | true =>
              obtain rfl := Option.some.inj hact
              show x.Stage (x.log ++ []) _
              rw [List.append_nil]
              exact .told ⟨hreceived, hsends⟩ hconcluding
          | false =>
              have hwaits : (x.told socket ⟨[], received, false⟩ completions phase
                  hooked).actServer? = none := rfl
              exact absurd (hact.symm.trans hwaits) (by simp)
      | cons step steps =>
          obtain ⟨packet, rfl⟩ := hsends step List.mem_cons_self
          obtain rfl := Option.some.inj hact
          show x.Stage (x.log ++ []) _
          rw [List.append_nil]
          refine .told ⟨hreceived, ?_⟩ hconcluding
          intro other hother
          exact hsends other (List.mem_cons_of_mem _ hother)
  | coordinator =>
      show x.Stage (x.log ++ []) next
      rw [List.append_nil]
      cases hconcluding with
      | awaiting =>
          have hnext : next = x.told socket ⟨steps, received, isOpen⟩ [] (.finishing x.result)
              hooked := by
            rw [← Option.some.inj hact]
            simp only [told, settle?_relayed]
          rw [hnext]
          exact .told ⟨hreceived, hsends⟩ .finishing
      | finishing =>
          obtain rfl := Option.some.inj hact
          exact .told ⟨hreceived, hsends⟩ .returned
      | returned => exact absurd hact (by simp [Streaming.act?, Streaming.actCoordinator?, told])

/-- A turn leads to the same stage or to the next. -/
theorem Stage.step (hstage : x.Stage log state) (hact : state.act? party = some next) :
    x.Stage (log ++ state.reads party) next := by
  cases hstage with
  | typing forwards sent_eq undecided => exact typing_step forwards sent_eq undecided rfl hact
  | typed messages_eq undecided => exact typed_step messages_eq undecided rfl hact
  | halfClosed messages_eq => exact halfClosed_step messages_eq rfl hact
  | answering rest_eq rest => exact answering_step rest_eq rest rfl hact
  | answered rest_eq rest => exact answered_step rest_eq rest rfl hact
  | told replies concluding => exact told_step replies concluding rfl hact

/-! ## Whole runs -/

/-- As long as the output has not ended, somebody can act. -/
theorem Stage.exists_act? (hstage : x.Stage log state) (hrelaying : state.relaying = true) :
    ∃ party next, state.act? party = some next := by
  cases hstage with
  | @typing task sent received queued phase hooked forwards sent_eq undecided =>
      obtain ⟨output, ⟨after, -, hgoes⟩ | ⟨-, hends⟩⟩ :=
        Streaming.actInput?_of_forwards
          (x.listening (openSocket 3 queued) received task sent [] phase hooked)
          forwards rfl ⟨rfl, rfl⟩ (fun _ message hmem => (x.messages_fit message hmem).2)
      · exact ⟨.input, _, hgoes⟩
      · exact ⟨.input, _, hends⟩
  | typed messages_eq undecided =>
      cases undecided with
      | started =>
          obtain ⟨called, hhook⟩ := listening_hook
          exact ⟨.coordinator, _, hhook⟩
      | settling => exact ⟨.coordinator, _, listening_first⟩
  | @halfClosed received queued hooked messages_eq =>
      cases queued with
      | nil =>
          have hends := Streaming.actServer?_of_empty (x.listening (halfClosedSocket []) received
            .ended x.messages [] (.awaiting x.otherwise) hooked) rfl rfl rfl
          exact ⟨.server, _, hends.1⟩
      | cons message queued =>
          have hne := ne_nil_of_messages messages_eq message List.mem_cons_self
          have htakes := Streaming.actServer?_of_message
            (x.listening (halfClosedSocket (message :: queued)) received .ended x.messages []
              (.awaiting x.otherwise) hooked) rfl rfl rfl rfl hne
          exact ⟨.server, _, htakes.1⟩
  | @answering queued unsent relay hooked rest_eq rest =>
      cases unsent with
      | nil => exact ⟨.server, _, rfl⟩
      | cons packet unsent => exact ⟨.server, _, rfl⟩
  | @answered queued relay hooked rest_eq rest =>
      cases queued with
      | nil => exact ⟨.output, _, rfl⟩
      | cons packet queued =>
          have htakes := Streaming.actOutput?_of_packet
            (x.answering (answeredSocket (packet :: queued))
              { received := x.messages, isOpen := false } relay hooked)
            rfl rfl rfl rfl (fits_of_suffix rest List.mem_cons_self)
          exact ⟨.output, _, htakes⟩
  | told replies concluding => exact absurd hrelaying (by simp [Exchange.told])

/-- Only a session that has returned is at rest. -/
theorem Stage.result_of_rest (hstage : x.Stage log state)
    (hrest : ∀ party, state.act? party = none) :
    state.result? = some x.result ∧ state.server.received = x.messages ∧
      state.relay = x.verdict.2 ∧ log = x.log := by
  cases hrelaying : state.relaying with
  | true =>
      obtain ⟨party, next, hact⟩ := hstage.exists_act? hrelaying
      exact absurd ((hrest party).symm.trans hact) (by simp)
  | false =>
      cases hstage with
      | typing | typed | halfClosed => exact absurd hrelaying (by simp [listening])
      | answering | answered => exact absurd hrelaying (by simp [Exchange.answering])
      | told replies concluding =>
          have hcoordinator := hrest .coordinator
          cases concluding with
          | awaiting | finishing =>
              exact absurd hcoordinator (by
                simp [Streaming.act?, Streaming.actCoordinator?, Exchange.told])
          | returned => exact ⟨rfl, replies.received_eq, rfl, rfl⟩

/-- Whatever the schedule, a session that starts with an exchange returns, with all messages
received up to the end of the input, and with the answer relayed. -/
theorem run_of_stage (hstart : x.Stage [] state) (schedule : List Party) :
    (state.run schedule).result? = some x.result ∧
      (state.run schedule).server.received = x.messages ∧
      (state.run schedule).relay = x.verdict.2 ∧
      ∃ turns, schedule <+: turns ∧ state.run schedule = state.follow turns ∧
        state.heard turns = x.log := by
  obtain ⟨turns, hturns, hrun⟩ := state.exists_run_eq_follow schedule
  have hstage : x.Stage (state.heard turns) (state.follow turns) :=
    Streaming.follow_induction (fun hcurrent hact => hcurrent.step hact) hstart turns
  have hrest := state.next?_run schedule
  rw [hrun] at hrest
  obtain ⟨hresult, hreceived, hrelay, hlog⟩ :=
    hstage.result_of_rest (Streaming.act?_of_rest hrest)
  rw [hrun]
  exact ⟨hresult, hreceived, hrelay, turns, hturns, rfl, hlog⟩

end Exchange

end ContainerAttach
