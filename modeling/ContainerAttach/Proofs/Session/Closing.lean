import ContainerAttach.Proofs.Session.Turns

/-!
# What is left to be read of a closed connection

A turn of the server is one call at the far end of the connection (`Server.act?_does`).

Once the far end is closed for reading, its reads never wait.  Whoever reads on gets what
is queued, and then the end of the stream as often as it asks.  If a reset is still to be
reported, it comes before the end (`Connection.readsOut_of_shut`).
-/

namespace ContainerAttach

/-! ## Turns of the server -/

/-- Neither the end of the stream nor waiting for more is a message. -/
theorem Received.messages_of_nothing (shut : Bool) :
    (if shut then Received.data [] else .blocked).messages = [] := by
  cases shut <;> rfl

/-- What a turn of the server does. -/
inductive Server.Does (server : Server) (socket : Connection) (next : Server) :
    Connection → Prop
  | goesOn (received_eq : next.received = server.received) : Does server socket next socket
  | sends (bytes : Bytes) (received_eq : next.received = server.received) :
      Does server socket next (socket.send .far bytes).2
  | closesWrite (received_eq : next.received = server.received) :
      Does server socket next (socket.closeWrite .far).2
  | leaves (received_eq : next.received = server.received) :
      Does server socket next (socket.release .far)
  | reads {received : Received} {after : Connection}
      (receive_eq : socket.receive .far (roomFor socket.far) = (received, after))
      (received_eq : next.received = server.received ++ received.messages) :
      Does server socket next after

namespace Server

variable {server next : Server} {rest : List ServerStep} {socket after : Connection}

theorem read?_does (hread : server.read? rest socket = some (next, after)) :
    server.Does socket next after := by
  have hreceived := received_of_read? hread
  unfold read? at hread
  split at hread
  · exact absurd hread (by simp)
  all_goals
    next hreceive =>
    obtain ⟨rfl, rfl⟩ := Prod.mk.inj (Option.some.inj hread)
    rw [hreceive] at hreceived
    exact .reads hreceive (by simpa [Received.logged] using hreceived)

/-- A packet that is too large is not sent. -/
theorem sendPacket_eq (socket : Connection) (packet : Packet) :
    sendPacket socket packet = socket ∨
      sendPacket socket packet = (socket.send .far packet.bytes).2 := by
  unfold sendPacket Packet.appendTo
  by_cases hlimit : Packet.payloadLimit < packet.payload.length
  · exact .inl (by rw [if_pos hlimit])
  · exact .inr (by rw [if_neg hlimit]; rfl)

theorem act?_does {accepted : Nat} (hact : server.act? accepted socket = some (next, after)) :
    server.Does socket next after := by
  unfold act? at hact
  split at hact
  · split at hact
    · obtain ⟨rfl, rfl⟩ := Prod.mk.inj (Option.some.inj hact)
      exact .leaves rfl
    · exact absurd hact (by simp)
  · next packet rest hsteps =>
    obtain ⟨rfl, rfl⟩ := Prod.mk.inj (Option.some.inj hact)
    rcases sendPacket_eq socket packet with hsame | hsent
    · rw [hsame]
      exact .goesOn rfl
    · rw [hsent]
      exact .sends _ rfl
  · obtain ⟨rfl, rfl⟩ := Prod.mk.inj (Option.some.inj hact)
    exact .sends _ rfl
  · split at hact
    · obtain ⟨rfl, rfl⟩ := Prod.mk.inj (Option.some.inj hact)
      exact .goesOn rfl
    · exact read?_does hact
  · exact read?_does hact
  · split at hact
    · obtain ⟨rfl, rfl⟩ := Prod.mk.inj (Option.some.inj hact)
      exact .goesOn rfl
    · exact absurd hact (by simp)
  · obtain ⟨rfl, rfl⟩ := Prod.mk.inj (Option.some.inj hact)
    exact .closesWrite rfl

/-- Where nothing is queued the server receives nothing, whatever it does. -/
theorem Does.of_empty (hdoes : server.Does socket next after) (hinbox : socket.far.inbox = []) :
    next.received = server.received ∧ after.far.inbox = [] := by
  cases hdoes with
  | goesOn received_eq => exact ⟨received_eq, hinbox⟩
  | sends bytes received_eq =>
      refine ⟨received_eq, ?_⟩
      rcases socket.send_cases .far bytes with ⟨_, _, -, hsend⟩ | ⟨-, hsend⟩ | ⟨-, -, hsend⟩ <;>
        rw [hsend] <;> exact hinbox
  | closesWrite received_eq =>
      refine ⟨received_eq, ?_⟩
      rw [Connection.closeWrite_far]
      split <;> exact hinbox
  | leaves received_eq =>
      refine ⟨received_eq, ?_⟩
      unfold Connection.release
      dsimp only
      split <;> exact hinbox
  | @reads answer after receive_eq received_eq =>
      have hroom : (socket.endpoint .far).inbox.flatten.length ≤ Server.roomFor socket.far :=
        Nat.le_refl _
      rcases socket.receive_whole .far hroom with ⟨bytes, inbox, -, hlength, -⟩ |
        ⟨-, hreceive⟩ | ⟨-, -, hreceive⟩
      · rw [show (socket.endpoint .far).inbox = [] from hinbox] at hlength
        exact absurd hlength (Nat.not_lt_zero _)
      · obtain ⟨rfl, rfl⟩ := Prod.mk.inj (receive_eq.symm.trans hreceive)
        exact ⟨received_eq.trans (List.append_nil _), hinbox⟩
      · obtain ⟨rfl, rfl⟩ := Prod.mk.inj (receive_eq.symm.trans hreceive)
        rw [Received.messages_of_nothing, List.append_nil] at received_eq
        exact ⟨received_eq, hinbox⟩

end Server

/-! ## Reading on -/

namespace Connection

/-- What a number of reads at the far end give, each with room for everything. -/
def readOn (socket : Connection) : Nat → List Received
  | 0 => []
  | count + 1 =>
    match socket.receive .far (Server.roomFor socket.far) with
    | (received, after) => received :: after.readOn count

/-- Whoever reads on at the far end gets the given bytes, and then the end of the stream for
good.  If there is a reset, it is reported once on the way. -/
def ReadsOut (socket : Connection) (rest : Bytes) : Prop :=
  ∃ reads,
    (∀ count, socket.readOn (reads.length + count) =
      reads ++ List.replicate count (.data [])) ∧
    (reads.flatMap Received.messages).flatten = rest ∧
    (∀ received ∈ reads, received.messages ≠ [] ∨ received = .failed (.os 104)) ∧
    reads.count (.failed (.os 104)) = if socket.far.reset then 1 else 0

variable {socket after : Connection} {received : Received} {rest : Bytes}

theorem readOn_succ (hreceive : socket.receive .far (Server.roomFor socket.far) =
      (received, after)) (count : Nat) :
    socket.readOn (count + 1) = received :: after.readOn count := by
  rw [readOn, hreceive]

/-- At the end of the stream nothing else is read any more. -/
theorem readsOut_of_end (hinbox : socket.far.inbox = []) (hreset : socket.far.reset = false)
    (hshut : socket.far.readShut = true) : socket.ReadsOut [] := by
  have hreceive : socket.receive .far (Server.roomFor socket.far) = (.data [], socket) := by
    obtain ⟨kind, near, far⟩ := socket
    cases kind <;> simp_all [receive, endpoint]
  have hends : ∀ count, socket.readOn count = List.replicate count (.data []) := by
    intro count
    induction count with
    | zero => rfl
    | succ count ih => rw [readOn_succ hreceive, ih, List.replicate_succ]
  refine ⟨[], ?_, rfl, by simp, by simp [hreset]⟩
  simpa using hends

theorem readsOut_of_data {bytes : Bytes} (hreceive : socket.receive .far
      (Server.roomFor socket.far) = (.data bytes, after)) (hbytes : bytes ≠ [])
    (hreset : after.far.reset = socket.far.reset) (hafter : after.ReadsOut rest) :
    socket.ReadsOut (bytes ++ rest) := by
  obtain ⟨reads, hreads, hrest, hkinds, hresets⟩ := hafter
  have hmessages : (Received.data bytes).messages = [bytes] := messageOf_of_ne_nil hbytes
  refine ⟨.data bytes :: reads, ?_, ?_, ?_, ?_⟩
  · intro count
    rw [List.length_cons, Nat.add_right_comm, readOn_succ hreceive, hreads, List.cons_append]
  · rw [List.flatMap_cons, hmessages, List.flatten_append, hrest, List.flatten_singleton]
  · intro received hmem
    rcases List.mem_cons.mp hmem with rfl | hmem
    · exact .inl (by rw [hmessages]; exact List.cons_ne_nil _ _)
    · exact hkinds received hmem
  · rw [List.count_cons_of_ne (by simp), hresets, hreset]

theorem readsOut_of_reset (hreceive : socket.receive .far (Server.roomFor socket.far) =
      (.failed (.os 104), after)) (hreset : socket.far.reset = true)
    (hcleared : after.far.reset = false) (hafter : after.ReadsOut rest) :
    socket.ReadsOut rest := by
  obtain ⟨reads, hreads, hrest, hkinds, hresets⟩ := hafter
  refine ⟨.failed (.os 104) :: reads, ?_, ?_, ?_, ?_⟩
  · intro count
    rw [List.length_cons, Nat.add_right_comm, readOn_succ hreceive, hreads, List.cons_append]
  · rw [List.flatMap_cons, List.flatten_append, hrest]
    rfl
  · intro received hmem
    rcases List.mem_cons.mp hmem with rfl | hmem
    · exact .inr rfl
    · exact hkinds received hmem
  · rw [List.count_cons_self, hresets, hcleared, hreset]
    rfl

/-- What is queued at an end that is closed for reading can be read to its end. -/
theorem readsOut_of_shut (hshut : socket.far.readShut = true)
    (hfilled : ∀ message ∈ socket.far.inbox, message ≠ []) :
    socket.ReadsOut socket.far.inbox.flatten := by
  -- every read takes a message away or reports the reset
  induction hleft : socket.far.inbox.length + socket.far.reset.toNat using Nat.strongRecOn
    generalizing socket with
  | _ left ih =>
      have hroom : (socket.endpoint .far).inbox.flatten.length ≤ Server.roomFor socket.far :=
        Nat.le_refl _
      rcases socket.receive_whole .far hroom with ⟨bytes, inbox, hreceive, hlength, hdata, hrest⟩ |
        ⟨hreset, hreceive⟩ | ⟨hinbox, hreset, -⟩
      · obtain ⟨hbytes, hrest⟩ := hrest hfilled
        have hlength : inbox.length < socket.far.inbox.length := hlength
        have hless : inbox.length + socket.far.reset.toNat < left := by omega
        have hlater : (socket.update .far fun here => { here with inbox := inbox }).ReadsOut
            inbox.flatten := ih _ hless hshut hrest rfl
        have hreads : socket.ReadsOut (bytes ++ inbox.flatten) :=
          readsOut_of_data hreceive hbytes rfl hlater
        rwa [show bytes ++ inbox.flatten = socket.far.inbox.flatten from hdata] at hreads
      · have hreset : socket.far.reset = true := hreset
        have hless : socket.far.inbox.length + false.toNat < left := by
          rw [← hleft, hreset]
          exact Nat.lt_succ_self _
        have hlater : (socket.clearReset .far).ReadsOut socket.far.inbox.flatten :=
          ih _ hless hshut hfilled rfl
        exact readsOut_of_reset hreceive hreset rfl hlater
      · have hinbox : socket.far.inbox = [] := hinbox
        rw [hinbox]
        exact readsOut_of_end hinbox hreset hshut

end Connection

end ContainerAttach
