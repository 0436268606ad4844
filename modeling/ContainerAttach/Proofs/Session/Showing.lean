import ContainerAttach.Proofs.Output.Journals
import ContainerAttach.Proofs.Output.Steady
import ContainerAttach.Proofs.Session.Stages

/-!
# What a session shows

What the sinks get has been sent by the server, and nothing else ever gets to them.  Like what the
server reads, what it sends is logged turn by turn (`Streaming.sent`).  On a packet socket the
messages that were sent are those that the relay has taken and those that are still queued for it,
and the sinks have accepted the payloads of the first (`Streaming.Shows`).  That goes on until the
relay stops, at a payload of which a part may have been accepted; after that the log can only grow.

So at every moment of a session a sink has got a prefix of the payloads that were sent to its
stream (`Client.showsOnly_outputsAfter`).
-/

namespace ContainerAttach

/-! ## What the server sends -/

/-- The message, if it was taken. -/
def messageTaken (answer : Except IoError Nat) (bytes : Bytes) : List Bytes :=
  match answer with
  | .ok _ => [bytes]
  | .error _ => []

/-- The message that the socket takes from the server with its next step, if there is one. -/
def Server.sends (server : Server) (socket : Connection) : List Bytes :=
  match server.steps with
  | .send packet :: _ =>
    match packet.appendTo [] with
    | .ok bytes => messageTaken (socket.send .far bytes).1 bytes
    | .error _ => []
  | .sendRaw bytes :: _ => messageTaken (socket.send .far bytes).1 bytes
  | _ => []

namespace Streaming

/-- What the server sends in the turn of a party. -/
def sends (state : Streaming) : Party → List Bytes
  | .server => state.server.sends state.socket
  | _ => []

/-- All that the server sends in some turns. -/
def sent (state : Streaming) : List Party → List Bytes
  | [] => []
  | party :: turns => state.sends party ++ (state.turn party).sent turns

end Streaming

/-! ## What a message brings -/

/-- The packets that the client reads from messages.  What does not fit into its buffer is cut
off, and a message without bytes is the end to it. -/
def packetsIn (messages : List Bytes) : List Packet :=
  messages.filterMap fun message => Packet.ofBytes? (message.take Packet.sizeLimit)

theorem packetsIn_append (messages more : List Bytes) :
    packetsIn (messages ++ more) = packetsIn messages ++ packetsIn more :=
  List.filterMap_append

/-- Packets of a proper size are read as they were sent. -/
theorem packetsIn_map_bytes {packets : List Packet}
    (hfits : ∀ packet ∈ packets, packet.payload.length ≤ Packet.payloadLimit) :
    packetsIn (packets.map Packet.bytes) = packets := by
  induction packets with
  | nil => rfl
  | cons packet packets ih =>
      obtain ⟨hpacket, hrest⟩ := List.forall_mem_cons.mp hfits
      have hwhole : packet.bytes.take Packet.sizeLimit = packet.bytes :=
        List.take_of_length_le (Nat.succ_le_succ hpacket)
      rw [packetsIn, List.map_cons, List.filterMap_cons, hwhole, Packet.ofBytes?_bytes]
      exact congrArg _ (ih hrest)

/-- What a sink has got behind what it held before is a first part of what the messages bring
its stream. -/
def ShowsOnly (stream : StdStream) (messages : List Bytes) (before after : Bytes) : Prop :=
  ∃ shown, after = before ++ shown ∧ shown <+: payloadsTo stream (packetsIn messages)

namespace ShowsOnly

variable {stream : StdStream} {messages : List Bytes} {before after : Bytes}

theorem nothing (stream : StdStream) (messages : List Bytes) (before : Bytes) :
    ShowsOnly stream messages before before :=
  ⟨[], (List.append_nil before).symm, List.nil_prefix⟩

theorem more (hshows : ShowsOnly stream messages before after) (later : List Bytes) :
    ShowsOnly stream (messages ++ later) before after := by
  obtain ⟨shown, hafter, hprefix⟩ := hshows
  refine ⟨shown, hafter, hprefix.trans ?_⟩
  rw [packetsIn_append, payloadsTo_append]
  exact List.prefix_append _ _

end ShowsOnly

namespace Outputs

/-- What the sink of a stream has accepted, if there is one. -/
def dataOf (outputs : Outputs) (stream : StdStream) : Bytes :=
  (outputs.sink? stream).elim [] Sink.data

theorem dataOf_put {outputs : Outputs} {handover : Handover} {sink after : Sink}
    (hsink : outputs.sink? handover.stream = some sink) (hcalls : sink.Calls handover.calls after)
    (stream : StdStream) :
    (outputs.put handover.stream after).dataOf stream =
      outputs.dataOf stream ++ if stream = handover.stream then handover.accepted else [] := by
  by_cases hstream : stream = handover.stream
  · subst hstream
    rw [if_pos rfl, dataOf, sink?_put_self hsink, dataOf, hsink]
    show after.data = sink.data ++ _
    rw [hcalls.data, Handover.flatMap_accepted_calls]
  · rw [if_neg hstream, List.append_nil, dataOf, sink?_put_of_ne outputs hstream, dataOf]

/-- The sinks keep what they have got. -/
theorem Calls.dataOf_prefix {outputs last : Outputs} {handovers : List Handover}
    (hcalls : outputs.Calls handovers last) (stream : StdStream) :
    outputs.dataOf stream <+: last.dataOf stream := by
  have hsinks := hcalls.sinks stream
  unfold dataOf
  generalize outputs.sink? stream = before at hsinks ⊢
  generalize last.sink? stream = after at hsinks ⊢
  cases hsinks with
  | none => exact List.prefix_refl _
  | @some sink after hsink =>
      show sink.data <+: after.data
      rw [hsink.data]
      exact List.prefix_append _ _

/-- A sink that refuses nothing goes on like that. -/
theorem Calls.willing {outputs last : Outputs} {handovers : List Handover}
    (hcalls : outputs.Calls handovers last) (stream : StdStream)
    (hwilling : ∀ sink, outputs.sink? stream = some sink → sink.Willing) :
    ∀ sink, last.sink? stream = some sink → sink.Willing := by
  have hsinks := hcalls.sinks stream
  generalize outputs.sink? stream = before at hsinks hwilling
  generalize last.sink? stream = after at hsinks ⊢
  cases hsinks with
  | none => exact fun sink hsink => absurd hsink (by simp)
  | @some sink after hsink =>
      intro other hother
      obtain rfl := Option.some.inj hother
      exact hsink.willing (hwilling sink rfl)

end Outputs

/-! ## The queue of the client -/

/-- The messages are put behind what is queued for the client, and nothing else happens to the
queue. -/
structure Connection.Queues (socket after : Connection) (messages : List Bytes) : Prop where
  kind_eq : after.kind = socket.kind
  inbox_eq : after.near.inbox = socket.near.inbox ++ messages

namespace Connection

variable {socket after : Connection}

theorem Queues.nothing (hkind : after.kind = socket.kind)
    (hinbox : after.near.inbox = socket.near.inbox) : socket.Queues after [] :=
  ⟨hkind, hinbox.trans (List.append_nil _).symm⟩

theorem Queues.leave {last : Connection} {messages : List Bytes}
    (hqueues : socket.Queues after messages) (hleaves : after.Queues last []) :
    socket.Queues last messages :=
  ⟨hleaves.kind_eq.trans hqueues.kind_eq,
    by rw [hleaves.inbox_eq, List.append_nil, hqueues.inbox_eq]⟩

theorem queues_send_far (hkind : socket.kind = .packet) (bytes : Bytes) :
    socket.Queues (socket.send .far bytes).2 (messageTaken (socket.send .far bytes).1 bytes) := by
  unfold send
  dsimp only
  split
  · exact .nothing rfl rfl
  · split
    · exact .nothing rfl rfl
    · split
      · exact .nothing rfl rfl
      · rw [if_neg (fun hstream => absurd (hkind.symm.trans hstream.1) (by simp))]
        exact ⟨rfl, rfl⟩

theorem queues_send_near (bytes : Bytes) : socket.Queues (socket.send .near bytes).2 [] := by
  rcases socket.send_cases .near bytes with ⟨_, _, -, hsend⟩ | ⟨-, hsend⟩ | ⟨-, -, hsend⟩ <;>
    rw [hsend] <;> exact .nothing rfl rfl

theorem queues_receive_far (capacity : Nat) :
    socket.Queues (socket.receive .far capacity).2 [] := by
  obtain ⟨inbox, reset, -, -, hafter⟩ := socket.receive_changes .far capacity
  rw [hafter]
  exact .nothing rfl rfl

theorem queues_release (side : Side) : socket.Queues (socket.release side) [] := by
  cases side with
  | near =>
      rw [release_near]
      split <;> exact .nothing rfl rfl
  | far =>
      obtain ⟨near, -, hinbox, -, -, hrelease⟩ := socket.release_far
      rw [hrelease]
      exact .nothing rfl hinbox

theorem queues_shutdown_near : socket.Queues (socket.shutdown .near).2 [] := by
  rw [shutdown_near]
  exact .nothing rfl rfl

theorem queues_closeWrite (side : Side) : socket.Queues (socket.closeWrite side).2 [] := by
  cases side with
  | near =>
      rw [closeWrite_near]
      dsimp only
      split <;> exact .nothing rfl rfl
  | far =>
      rw [closeWrite_far]
      split <;> exact .nothing rfl rfl

/-- What a read of the client finds: the first message of its queue, or no data. -/
inductive Finds (capacity : Nat) (socket : Connection) : Received → Connection → Prop
  | message {message : Bytes} {after : Connection} (kind_eq : after.kind = socket.kind)
      (inbox_eq : socket.near.inbox = message :: after.near.inbox) :
      Finds capacity socket (.data (message.take capacity)) after
  | nothing {received : Received} {after : Connection} (queues : socket.Queues after [])
      (no_data : ∀ bytes, received = .data bytes → bytes = []) :
      Finds capacity socket received after

theorem receive_near_finds (hkind : socket.kind = .packet) (capacity : Nat) :
    socket.Finds capacity (socket.receive .near capacity).1 (socket.receive .near capacity).2 := by
  obtain ⟨kind, ⟨inbox, handles, readShut, writeShut, reset, closed⟩, far⟩ := socket
  obtain rfl : kind = .packet := hkind
  cases reset with
  | true => exact .nothing (.nothing rfl rfl) (by simp [receive, endpoint])
  | false =>
      cases inbox with
      | cons message inbox => exact .message rfl rfl
      | nil => cases readShut <;> exact .nothing (.nothing rfl rfl) (by simp [receive, endpoint])

end Connection

namespace Server

variable {server next : Server} {rest : List ServerStep} {socket after : Connection}

theorem queues_read? (hread : server.read? rest socket = some (next, after)) :
    socket.Queues after [] := by
  have hqueues := socket.queues_receive_far (roomFor socket.far)
  unfold read? at hread
  split at hread
  · exact absurd hread (by simp)
  all_goals
    next hreceive =>
    obtain ⟨-, rfl⟩ := Prod.mk.inj (Option.some.inj hread)
    rw [hreceive] at hqueues
    exact hqueues

/-- What the server sends is queued for the client. -/
theorem queues_act? {accepted : Nat} (hkind : socket.kind = .packet)
    (hact : server.act? accepted socket = some (next, after)) :
    socket.Queues after (server.sends socket) := by
  unfold act? at hact
  unfold sends
  split at hact
  · next hsteps =>
    rw [hsteps]
    split at hact
    · obtain ⟨-, rfl⟩ := Prod.mk.inj (Option.some.inj hact)
      exact socket.queues_release .far
    · exact absurd hact (by simp)
  · next packet rest hsteps =>
    rw [hsteps]
    obtain ⟨-, rfl⟩ := Prod.mk.inj (Option.some.inj hact)
    unfold sendPacket
    dsimp only
    cases packet.appendTo [] with
    | ok bytes => exact socket.queues_send_far hkind bytes
    | error cause => exact .nothing rfl rfl
  · next bytes rest hsteps =>
    rw [hsteps]
    obtain ⟨-, rfl⟩ := Prod.mk.inj (Option.some.inj hact)
    exact socket.queues_send_far hkind bytes
  · next count rest hsteps =>
    rw [hsteps]
    split at hact
    · obtain ⟨-, rfl⟩ := Prod.mk.inj (Option.some.inj hact)
      exact .nothing rfl rfl
    · exact queues_read? hact
  · next rest hsteps =>
    rw [hsteps]
    exact queues_read? hact
  · next count rest hsteps =>
    rw [hsteps]
    split at hact
    · obtain ⟨-, rfl⟩ := Prod.mk.inj (Option.some.inj hact)
      exact .nothing rfl rfl
    · exact absurd hact (by simp)
  · next rest hsteps =>
    rw [hsteps]
    obtain ⟨-, rfl⟩ := Prod.mk.inj (Option.some.inj hact)
    exact socket.queues_closeWrite .far

/-- A server that has to wait sends nothing. -/
theorem sends_of_act?_none {accepted : Nat} (hact : server.act? accepted socket = none) :
    server.sends socket = [] := by
  unfold act? at hact
  unfold sends
  split at hact
  · next hsteps => rw [hsteps]
  · exact absurd hact (by simp)
  · exact absurd hact (by simp)
  · next hsteps => rw [hsteps]
  · next hsteps => rw [hsteps]
  · next hsteps => rw [hsteps]
  · exact absurd hact (by simp)

end Server

namespace Streaming

variable {state next : Streaming} {party : Party} {origin : Outputs} {log : List Bytes}

theorem sends_of_waiting (hact : state.act? party = none) : state.sends party = [] := by
  cases party with
  | server => exact Server.sends_of_act?_none (server_waits hact)
  | input | output | coordinator => rfl

theorem Sends.queues {socket after : Connection} {sent : List Bytes}
    (hsends : Sends socket sent after) : socket.Queues after [] := by
  cases hsends with
  | nothing => exact .nothing rfl rfl
  | @refused output cause _ send_eq =>
      have hqueues := socket.queues_send_near output
      rwa [send_eq] at hqueues
  | @taken output count _ ne_nil send_eq =>
      have hqueues := socket.queues_send_near output
      rwa [send_eq] at hqueues

/-- The turns of all but the output task leave the relay alone, and add to its queue what the
server sends. -/
structure LeavesRelay (state : Streaming) (sent : List Bytes) (next : Streaming) : Prop where
  queues : state.socket.Queues next.socket sent
  relay_eq : next.relay = state.relay
  relaying_eq : next.relaying = state.relaying

theorem leavesRelay_of_act? (hkind : state.socket.kind = .packet) (hparty : party ≠ .output)
    (hact : state.act? party = some next) : state.LeavesRelay (state.sends party) next := by
  cases party with
  | output => exact absurd rfl hparty
  | server =>
      obtain ⟨server, socket, hserver, rfl⟩ := actServer?_cases hact
      exact ⟨Server.queues_act? hkind hserver, rfl, rfl⟩
  | input =>
      obtain ⟨-, sent, socket, hsends, ⟨task, -, rfl⟩ | ⟨ending, rfl⟩⟩ := actInput?_cases hact
      · exact ⟨hsends.queues, rfl, rfl⟩
      · exact ⟨hsends.queues.leave (socket.queues_release .near), rfl, rfl⟩
  | coordinator =>
      cases actCoordinator?_cases hact with
      | goesOn early not_finishing socket_eq =>
          refine ⟨?_, rfl, rfl⟩
          rcases socket_eq with rfl | rfl
          · exact .nothing rfl rfl
          · exact state.socket.queues_closeWrite .near
      | returns =>
          exact ⟨state.socket.queues_shutdown_near.leave (Connection.queues_release .near), rfl,
            rfl⟩

/-! ## The sinks -/

/-- What the sinks have got, of the messages that have been sent. -/
inductive Shows (origin : Outputs) (log : List Bytes) (state : Streaming) : Prop
  /-- The sinks have accepted what the relay has taken, and the rest is queued. -/
  | relaying (taken : List Bytes) (relaying : state.relaying = true)
      (log_eq : log = taken ++ state.socket.near.inbox)
      (data_eq : ∀ stream, state.relay.outputs.dataOf stream =
        origin.dataOf stream ++ payloadsTo stream (packetsIn taken))
  /-- The relay has taken some of the messages, and a part of the last of them may be missing. -/
  | stopped (stopped : state.relaying = false)
      (shown : ∀ stream, ShowsOnly stream log (origin.dataOf stream)
        (state.relay.outputs.dataOf stream))

theorem Shows.showsOnly (hshows : state.Shows origin log) (stream : StdStream) :
    ShowsOnly stream log (origin.dataOf stream) (state.relay.outputs.dataOf stream) := by
  cases hshows with
  | relaying taken relaying log_eq data_eq =>
      have htaken : ShowsOnly stream taken (origin.dataOf stream)
          (state.relay.outputs.dataOf stream) := ⟨_, data_eq stream, List.prefix_refl _⟩
      exact log_eq ▸ htaken.more state.socket.near.inbox
  | stopped stopped shown => exact shown stream

theorem Shows.leave {sent : List Bytes} (hshows : state.Shows origin log)
    (hleaves : state.LeavesRelay sent next) : next.Shows origin (log ++ sent) := by
  obtain ⟨⟨-, hinbox⟩, hrelay, hrelaying⟩ := hleaves
  cases hshows with
  | relaying taken relaying log_eq data_eq =>
      refine .relaying taken (hrelaying.trans relaying) ?_ (hrelay ▸ data_eq)
      rw [hinbox, log_eq, List.append_assoc]
  | stopped stopped shown =>
      exact .stopped (hrelaying.trans stopped) fun stream => hrelay ▸ (shown stream).more sent

/-! ### The turns of the output task -/

/-- A relay that stops without a handover leaves the sinks as they are. -/
theorem Shows.stop (hshows : state.Shows origin log)
    (houtputs : next.relay.outputs = state.relay.outputs) (hstopped : next.relaying = false) :
    next.Shows origin log :=
  .stopped hstopped fun stream => houtputs ▸ hshows.showsOnly stream

theorem onOutput_of_goesOn {result : ReadResult} {relay : Relay}
    (hread : state.relay.onRead result = (relay, none)) :
    state.onOutput result = { state with relay := relay } := by
  rw [onOutput, hread]

theorem onOutput_of_stops {result : ReadResult} {relay : Relay} {ending : Ending PacketError Tally}
    (hread : state.relay.onRead result = (relay, some ending)) :
    state.onOutput result =
      { state with
        relay := relay
        relaying := false
        completions := Completion.ofRelay state.completions ending
        socket := state.socket.release .near } := by
  rw [onOutput, hread]

theorem queues_onOutput (result : ReadResult) :
    state.socket.Queues (state.onOutput result).socket [] := by
  rcases hread : state.relay.onRead result with ⟨relay, _ | ending⟩
  · rw [onOutput_of_goesOn hread]
    exact .nothing rfl rfl
  · rw [onOutput_of_stops hread]
    exact state.socket.queues_release .near

/-- A read that brings no message leaves the sinks alone. -/
theorem Shows.onOutput_of_nothing {result : ReadResult} (hshows : state.Shows origin log)
    (hnothing : ∀ bytes, result = .data bytes → bytes = []) :
    (state.onOutput result).Shows origin log := by
  have hturns := state.relay.onRead_turns result
  rcases hread : state.relay.onRead result with ⟨relay, _ | ending⟩ <;> rw [hread] at hturns
  · rw [onOutput_of_goesOn hread]
    cases hturns with
    | retry => exact hshows
    | deliver packet_eq =>
        obtain rfl := hnothing _ rfl
        exact absurd packet_eq (by simp [Packet.ofBytes?])
  · rw [onOutput_of_stops hread]
    cases hturns with
    | ended | unread | unwanted => exact hshows.stop rfl rfl
    | undelivered packet_eq =>
        obtain rfl := hnothing _ rfl
        exact absurd packet_eq (by simp [Packet.ofBytes?])

/-- A message brings the payload of its packet to the stream of the packet, and nothing to the
others. -/
theorem payloadsTo_of_packet {message : Bytes} {handover : Handover}
    (hpacket : Packet.ofBytes? (message.take Packet.sizeLimit) = some handover.packet)
    (stream : StdStream) :
    payloadsTo stream (packetsIn [message]) =
      if stream = handover.stream then handover.payload else [] := by
  have hpackets : packetsIn [message] = [handover.packet] := by
    rw [packetsIn, List.filterMap_cons, hpacket]
    rfl
  rw [hpackets, Handover.packet, payloadsTo_singleton]

/-- The relay hands the message that it has taken over, or it stops. -/
theorem shows_onOutput {taken : List Bytes} {message : Bytes} (hrelaying : state.relaying = true)
    (hlog : log = taken ++ message :: state.socket.near.inbox)
    (hdata : ∀ stream, state.relay.outputs.dataOf stream =
      origin.dataOf stream ++ payloadsTo stream (packetsIn taken)) :
    (state.onOutput (.data (message.take Packet.sizeLimit))).Shows origin log := by
  -- what is taken comes first in the log, then this message, and then what is queued behind it
  have hbefore : ∀ stream, payloadsTo stream (packetsIn log) =
      payloadsTo stream (packetsIn taken) ++ (payloadsTo stream (packetsIn [message]) ++
        payloadsTo stream (packetsIn state.socket.near.inbox)) := by
    intro stream
    rw [hlog, ← List.singleton_append, packetsIn_append, packetsIn_append, payloadsTo_append,
      payloadsTo_append]
  have hturns := state.relay.onRead_turns (.data (message.take Packet.sizeLimit))
  rcases hread : state.relay.onRead (.data (message.take Packet.sizeLimit)) with
    ⟨relay, _ | ending⟩ <;> rw [hread] at hturns
  · rw [onOutput_of_goesOn hread]
    generalize hbytes : message.take Packet.sizeLimit = bytes at hturns
    cases hturns with
    | @deliver bytes handover sink after packet_eq sink_eq calls delivered =>
        rw [← hbytes] at packet_eq
        refine .relaying (taken ++ [message]) hrelaying ?_ fun stream => ?_
        · rw [hlog, List.append_assoc]
          rfl
        · show (state.relay.outputs.put handover.stream after).dataOf stream = _
          rw [Outputs.dataOf_put sink_eq calls, hdata, packetsIn_append, payloadsTo_append,
            payloadsTo_of_packet packet_eq, Handover.accepted_of_delivered delivered,
            List.append_assoc]
  · rw [onOutput_of_stops hread]
    generalize hbytes : message.take Packet.sizeLimit = bytes at hturns
    cases hturns with
    | ended | unwanted =>
        -- the message is lost, and the sinks keep what the messages before it brought
        refine .stopped rfl fun stream => ⟨_, hdata stream, ?_⟩
        rw [hbefore]
        exact List.prefix_append _ _
    | @undelivered bytes handover sink after packet_eq sink_eq calls =>
        -- a part of the payload may have been accepted
        rw [← hbytes] at packet_eq
        refine .stopped rfl fun stream => ⟨payloadsTo stream (packetsIn taken) ++
          if stream = handover.stream then handover.accepted else [], ?_, ?_⟩
        · show (state.relay.outputs.put handover.stream after).dataOf stream = _
          rw [Outputs.dataOf_put sink_eq calls, hdata, List.append_assoc]
        · rw [hbefore, payloadsTo_of_packet packet_eq, List.prefix_append_right_inj]
          split
          · exact (List.take_prefix _ _).trans (List.prefix_append _ _)
          · exact List.prefix_append _ _

/-- A turn of the output task takes a message from the queue, or there is none for it. -/
theorem Shows.read (hkind : state.socket.kind = .packet) (hshows : state.Shows origin log)
    (hact : state.act? .output = some next) :
    next.socket.kind = .packet ∧ next.Shows origin log := by
  have hact : state.actOutput? = some next := hact
  have hfinds := state.socket.receive_near_finds hkind Packet.sizeLimit
  unfold actOutput? at hact
  split at hact
  · next hrelaying =>
    rcases hreceive : state.socket.receive .near Packet.sizeLimit with ⟨received, socket⟩
    rw [hreceive] at hact hfinds
    have hnext : ∀ result, socket.kind = state.socket.kind →
        ({ state with socket := socket }.onOutput result).socket.kind = .packet :=
      fun result hsocket => (queues_onOutput result).kind_eq.trans (hsocket.trans hkind)
    cases hfinds with
    | @message message _ kind_eq inbox_eq =>
        obtain rfl := Option.some.inj hact
        refine ⟨hnext _ kind_eq, ?_⟩
        cases hshows with
        | relaying taken relaying log_eq data_eq =>
            exact shows_onOutput hrelaying (log_eq.trans (by rw [inbox_eq])) data_eq
        | stopped stopped => exact absurd (stopped.symm.trans hrelaying) Bool.false_ne_true
    | nothing queues no_data =>
        have hsame : { state with socket := socket }.Shows origin log :=
          List.append_nil log ▸ hshows.leave ⟨queues, rfl, rfl⟩
        cases received with
        | blocked => exact absurd hact (by simp)
        | failed cause =>
            obtain rfl := Option.some.inj hact
            exact ⟨hnext _ queues.kind_eq, hsame.onOutput_of_nothing (by simp)⟩
        | data bytes =>
            obtain rfl := Option.some.inj hact
            refine ⟨hnext _ queues.kind_eq, hsame.onOutput_of_nothing fun bytes hbytes => ?_⟩
            exact no_data bytes (congrArg Received.data (ReadResult.data.inj hbytes))
  · exact absurd hact (by simp)

/-- All that happens to the sinks is that payloads are handed over to them. -/
theorem exists_calls_onOutput (state : Streaming) (result : ReadResult) :
    ∃ handovers, state.relay.outputs.Calls handovers (state.onOutput result).relay.outputs := by
  have hturns := state.relay.onRead_turns result
  have hrelay : (state.onOutput result).relay = (state.relay.onRead result).1 := by
    rcases hread : state.relay.onRead result with ⟨relay, _ | ending⟩
    · rw [onOutput_of_goesOn hread]
    · rw [onOutput_of_stops hread]
  rw [hrelay]
  generalize state.relay.onRead result = turned at hturns
  obtain ⟨relay, ending⟩ := turned
  cases hturns with
  | ended | retry | unread | unwanted => exact ⟨[], .nil _⟩
  | undelivered packet_eq sink_eq calls | deliver packet_eq sink_eq calls =>
      exact ⟨_, Outputs.HandsOver.calls ⟨_, _, sink_eq, calls, rfl⟩⟩

theorem exists_calls_act? (hact : state.act? party = some next) :
    ∃ handovers, state.relay.outputs.Calls handovers next.relay.outputs := by
  cases party with
  | server =>
      obtain ⟨server, socket, -, rfl⟩ := actServer?_cases hact
      exact ⟨[], .nil _⟩
  | input =>
      obtain ⟨-, sent, socket, -, ⟨task, -, rfl⟩ | ⟨ending, rfl⟩⟩ := actInput?_cases hact <;>
        exact ⟨[], .nil _⟩
  | coordinator => cases actCoordinator?_cases hact <;> exact ⟨[], .nil _⟩
  | output =>
      have hact : state.actOutput? = some next := hact
      unfold actOutput? at hact
      split at hact
      · split at hact
        · exact absurd hact (by simp)
        · next cause socket hreceive =>
          obtain rfl := Option.some.inj hact
          exact exists_calls_onOutput { state with socket := socket } (.failed cause)
        · next bytes socket hreceive =>
          obtain rfl := Option.some.inj hact
          exact exists_calls_onOutput { state with socket := socket } (.data bytes)
      · exact absurd hact (by simp)

/-! ## Runs -/

/-- Whatever the party, the sinks go on showing what has been sent. -/
theorem Shows.step (hkind : state.socket.kind = .packet) (hshows : state.Shows origin log)
    (hact : state.act? party = some next) :
    next.socket.kind = .packet ∧ next.Shows origin (log ++ state.sends party) := by
  by_cases hparty : party = .output
  · subst hparty
    obtain ⟨hnext, hshown⟩ := hshows.read hkind hact
    exact ⟨hnext, (List.append_nil log).symm ▸ hshown⟩
  · have hleaves := leavesRelay_of_act? hkind hparty hact
    exact ⟨hleaves.queues.kind_eq.trans hkind, hshows.leave hleaves⟩

theorem Shows.follow (hkind : state.socket.kind = .packet) (hshows : state.Shows origin log)
    (turns : List Party) : (state.follow turns).Shows origin (log ++ state.sent turns) := by
  let Showing (log : List Bytes) (current : Streaming) : Prop :=
    current.socket.kind = .packet ∧ current.Shows origin log
  have hstep : ∀ {log : List Bytes} {current next : Streaming} {party : Party},
      Showing log current → current.act? party = some next →
        Showing (log ++ current.sends party) next :=
    fun hcurrent hact => hcurrent.2.step hcurrent.1 hact
  have hall : Showing (log ++ state.sent turns) (state.follow turns) :=
    logged_induction (fun _ => rfl) (fun _ _ _ => rfl) sends_of_waiting hstep ⟨hkind, hshows⟩ turns
  exact hall.2

theorem exists_calls_follow (state : Streaming) (turns : List Party) :
    ∃ handovers, state.relay.outputs.Calls handovers (state.follow turns).relay.outputs := by
  let Reached (after : Streaming) : Prop :=
    ∃ handovers, state.relay.outputs.Calls handovers after.relay.outputs
  have hstep : ∀ {current next : Streaming} {party : Party},
      Reached current → current.act? party = some next → Reached next := by
    rintro current next party ⟨earlier, hearlier⟩ hact
    obtain ⟨handovers, hcalls⟩ := exists_calls_act? hact
    exact ⟨earlier ++ handovers, hearlier.append hcalls⟩
  exact follow_preserves hstep ⟨[], .nil _⟩ turns

/-- At the beginning nothing has been sent and nothing is shown. -/
theorem shows_opening (config : AttachConfig) (kind : SocketKind) (server : Server)
    (refused : SessionRefusals) :
    (opening config { kind := kind } server refused).Shows config.streams.outputs [] := by
  unfold opening
  split
  · exact .stopped rfl fun stream => .nothing stream [] _
  · split
    · exact .relaying [] rfl rfl fun stream => (List.append_nil _).symm
    · exact .relaying [] rfl rfl fun stream => (List.append_nil _).symm
    · exact .stopped rfl fun stream => .nothing stream [] _

theorem outputs_opening (config : AttachConfig) (socket : Connection) (server : Server)
    (refused : SessionRefusals) :
    (opening config socket server refused).relay.outputs = config.streams.outputs := by
  unfold opening
  split
  · rfl
  · split <;> rfl

theorem kind_opening (config : AttachConfig) (socket : Connection) (server : Server)
    (refused : SessionRefusals) :
    (opening config socket server refused).socket.kind = socket.kind := by
  unfold opening
  split
  · exact (socket.queues_release .near).kind_eq
  · split
    · rfl
    · rfl
    · exact (socket.queues_release .near).kind_eq

end Streaming

/-! ## Sessions -/

namespace Client

variable (client : Client) (net : Network) (config : AttachConfig) (server : Server)
  (refused : SessionRefusals)

/-- What the server has sent after some turns of a session, which is nothing without a
socket. -/
def sentAfter (turns : List Party) : List Bytes :=
  (client.opening? net config server refused).elim [] fun opening => opening.sent turns

/-- The sinks after some turns of a session. -/
def outputsAfter (turns : List Party) : Outputs :=
  (client.opening? net config server refused).elim config.streams.outputs fun opening =>
    (opening.follow turns).relay.outputs

/-- At every moment the sinks have got a first part of what has been sent to them. -/
theorem showsOnly_outputsAfter (hkind : client.kind = .packet) (turns : List Party)
    (stream : StdStream) :
    ShowsOnly stream (client.sentAfter net config server refused turns)
      (config.streams.outputs.dataOf stream)
      ((client.outputsAfter net config server refused turns).dataOf stream) := by
  unfold sentAfter outputsAfter
  cases hopening : client.opening? net config server refused with
  | none => exact .nothing stream [] _
  | some opening =>
      obtain ⟨-, rfl⟩ := opening?_eq_some_iff.mp hopening
      have hopened := Streaming.kind_opening config { kind := client.kind } server refused
      have hsocket := hopened.trans hkind
      exact ((Streaming.shows_opening config client.kind server refused).follow hsocket
        turns).showsOnly stream

/-- A session does nothing to its sinks but hand payloads over to them. -/
theorem exists_calls_outputsAfter (turns : List Party) :
    ∃ handovers, config.streams.outputs.Calls handovers
      (client.outputsAfter net config server refused turns) := by
  unfold outputsAfter
  cases hopening : client.opening? net config server refused with
  | none => exact ⟨[], .nil _⟩
  | some opening =>
      obtain ⟨-, rfl⟩ := opening?_eq_some_iff.mp hopening
      have hcalls := Streaming.exists_calls_follow
        (.opening config { kind := client.kind } server refused) turns
      rwa [Streaming.outputs_opening] at hcalls

/-- What a session leaves to its sinks is what they have after the turns of its run. -/
theorem attach_outputs (schedule : List Party) :
    ∃ turns, schedule <+: turns ∧
      (∀ opening, client.opening? net config server refused = some opening →
        opening.run schedule = opening.follow turns) ∧
      (client.attach net config server schedule refused).outputs =
        client.outputsAfter net config server refused turns := by
  by_cases hconnected : client.Connected net config
  · obtain ⟨turns, hprefix, hturns, -, hsession⟩ := attach_turns hconnected server schedule refused
    have hopening : client.opening? net config server refused =
        some (.opening config { kind := client.kind } server refused) :=
      opening?_eq_some_iff.mpr ⟨hconnected, rfl⟩
    refine ⟨turns, hprefix, ?_, ?_⟩
    · intro opening hsome
      obtain rfl := Option.some.inj (hopening.symm.trans hsome)
      exact hturns
    · rw [hsession, outputsAfter, hopening]
      rfl
  · obtain ⟨hopening, result, events, resize, hsession, -⟩ := attach_of_not_connected hconnected
    refine ⟨schedule, List.prefix_refl _, fun opening hsome => ?_, ?_⟩
    · exact absurd (hopening.symm.trans hsome) (by simp)
    · rw [hsession, outputsAfter, hopening]
      rfl

end Client

end ContainerAttach
