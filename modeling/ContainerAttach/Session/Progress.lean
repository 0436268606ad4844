import ContainerAttach.Session.Streaming

/-!
# Every session comes to rest

`Streaming.work` counts what is left to be done, and each turn that a party can
use lowers it (`work_lt_of_act?`).  So a drain that is given as many turns as
there is work stops only where no party can act (`next?_run`): either the session
has returned and everything it started has ended, or everybody waits for
something that never happens.

The work of a turn is paid for as follows.  What a party takes in front of it,
a step of a script or a queued message, pays for what it puts into the queue of
the other end.  The end of a task pays for a last message, for its completion,
and for the reset that letting go of its handle may cause.
-/

namespace ContainerAttach

namespace Streaming

/-! ## Small amounts -/

theorem workOfReset_le (reset : Bool) : workOfReset reset ≤ 1 := by
  cases reset <;> decide

theorem workOfReset_true : workOfReset true = 1 := rfl

theorem workOfReset_false : workOfReset false = 0 := rfl

theorem workOfClose_true : workOfClose true = 2 := rfl

theorem workOfClose_false : workOfClose false = 0 := rfl

theorem workOfRelay_true : workOfRelay true = 5 := rfl

theorem workOfRelay_false : workOfRelay false = 0 := rfl

theorem workOfTask_ended : workOfTask .ended = 0 := rfl

theorem workOfTask_forwarding (source : InputSource) (scanner : DetachScanner) (written : Nat) :
    workOfTask (.forwarding source scanner written) = workOfSource source + 5 := rfl

theorem workOfPhase_started : workOfPhase .started = 4 := rfl

theorem workOfPhase_settling : workOfPhase .settling = 3 := rfl

theorem workOfPhase_awaiting (otherwise : Except AttachError Unit) :
    workOfPhase (.awaiting otherwise) = 2 := rfl

theorem workOfPhase_finishing (result : Except AttachError Unit) :
    workOfPhase (.finishing result) = 1 := rfl

theorem workOfPhase_returned (result : Except AttachError Unit) :
    workOfPhase (.returned result) = 0 := rfl

/-! ## The socket's share -/

theorem workOfInbox_append (inbox : List Bytes) (bytes : Bytes) :
    workOfInbox (inbox ++ [bytes]) = workOfInbox inbox + (bytes.length + 1) := by
  simp only [workOfInbox, List.flatten_append, List.flatten_singleton, List.length_append,
    List.length_singleton]
  omega

theorem workOfInbox_cons (message : Bytes) (inbox : List Bytes) :
    workOfInbox (message :: inbox) = message.length + 1 + workOfInbox inbox := by
  simp only [workOfInbox, List.flatten_cons, List.length_append, List.length_cons]
  omega

/-- A reset that has been reported is work done. -/
theorem workOfSocket_clearReset_le (socket : Connection) (side : Side) :
    workOfSocket (socket.clearReset side) ≤ workOfSocket socket := by
  cases side <;>
    · simp only [workOfSocket, Connection.clearReset, Connection.update, workOfReset_false]
      omega

theorem workOfSocket_send_near_le (socket : Connection) (bytes : Bytes) :
    workOfSocket (socket.send .near bytes).2 ≤ workOfSocket socket + 1 := by
  unfold Connection.send
  dsimp only
  split
  · exact Nat.le_succ_of_le (workOfSocket_clearReset_le socket .near)
  · split
    · simp
    · split
      · simp
      · split
        · simp
        · simp only [workOfSocket, Connection.update, Side.other, List.length_append,
            List.length_singleton]
          omega

theorem workOfSocket_send_far_le (socket : Connection) (bytes : Bytes) :
    workOfSocket (socket.send .far bytes).2 ≤ workOfSocket socket + (bytes.length + 1) := by
  unfold Connection.send
  dsimp only
  split
  · exact Nat.le_add_right_of_le (workOfSocket_clearReset_le socket .far)
  · split
    · simp
    · split
      · simp
      · split
        · simp
        · simp only [workOfSocket, Connection.update, Side.other, workOfInbox_append]
          omega

theorem workOfSocket_shut (socket : Connection) (side : Side) (how : Shutdown) :
    workOfSocket (Connection.shut side how socket).2 = workOfSocket socket := by
  cases side <;> cases how <;> rfl

theorem workOfSocket_ofGuarded (side : Side) (guarded : Guarded Connection) :
    workOfSocket (Connection.ofGuarded side guarded) = workOfSocket guarded.socket := by
  cases side <;> rfl

theorem workOfSocket_closeWrite (socket : Connection) (side : Side) :
    workOfSocket (socket.closeWrite side).2 = workOfSocket socket := by
  simp only [Connection.closeWrite, workOfSocket_ofGuarded, Guarded.closeWrite]
  split
  · rfl
  · exact workOfSocket_shut socket side .write

theorem workOfSocket_shutdown (socket : Connection) (side : Side) :
    workOfSocket (socket.shutdown side).2 = workOfSocket socket := by
  simp only [Connection.shutdown, workOfSocket_ofGuarded, Guarded.shutdown]
  exact workOfSocket_shut socket side .both

/-- Letting go of a handle can make one read of the other end fail. -/
theorem workOfSocket_release_le (socket : Connection) (side : Side) :
    workOfSocket (socket.release side) ≤ workOfSocket socket + 1 := by
  cases side <;> simp only [Connection.release] <;> split
  · have := workOfReset_le (socket.far.reset || Connection.hasUnread (socket.endpoint .near).inbox)
    simp only [workOfSocket, Connection.hangUp, Connection.update, Side.other]
    omega
  · simp [workOfSocket, Connection.update]
  · have := workOfReset_le (socket.near.reset || Connection.hasUnread (socket.endpoint .far).inbox)
    simp only [workOfSocket, Connection.hangUp, Connection.update, Side.other]
    omega
  · simp [workOfSocket, Connection.update]

/-! ### Reads -/

/-- What is put back after some bytes have been taken is less than before. -/
theorem workOfInbox_requeue_lt {inbox : List Bytes} {capacity : Nat} (hinbox : inbox ≠ [])
    (hcapacity : 0 < capacity) :
    workOfInbox (Connection.requeue (inbox.flatten.drop capacity)) < workOfInbox inbox := by
  have hpos := List.length_pos_iff.mpr hinbox
  unfold Connection.requeue
  split
  · simp only [workOfInbox, List.flatten_nil, List.length_nil]
    omega
  · next hrest =>
    have hlength : inbox.flatten.length - capacity ≠ 0 := by
      rw [← List.length_drop]
      exact fun hzero => hrest (List.length_eq_zero_iff.mp hzero)
    simp only [workOfInbox, List.flatten_singleton, List.length_singleton, List.length_drop]
    omega

/-- A read of the client that finds something uses it up; at the end of the stream a read
changes nothing. -/
theorem receive_near {socket rest : Connection} {capacity : Nat} {received : Received}
    (hcapacity : 0 < capacity) (hreceive : socket.receive .near capacity = (received, rest)) :
    workOfSocket rest < workOfSocket socket
      ∨ rest = socket ∧ (received = .blocked ∨ received = .data []) := by
  obtain ⟨kind, ⟨inbox, handles, readShut, writeShut, reset, closed⟩, far⟩ := socket
  cases kind with
  | packet =>
    cases reset with
    | true =>
      obtain ⟨-, rfl⟩ := Prod.mk.inj hreceive
      refine .inl ?_
      simp only [workOfSocket, Connection.clearReset, Connection.update, workOfReset_true,
        workOfReset_false]
      omega
    | false =>
      cases inbox with
      | cons message inbox =>
        obtain ⟨-, rfl⟩ := Prod.mk.inj hreceive
        refine .inl ?_
        simp only [workOfSocket, Connection.update, workOfInbox_cons]
        omega
      | nil =>
        obtain ⟨rfl, rfl⟩ := Prod.mk.inj hreceive
        cases readShut <;> simp [Connection.endpoint]
  | stream =>
    cases inbox with
    | cons message inbox =>
      obtain ⟨-, rfl⟩ := Prod.mk.inj hreceive
      have := workOfInbox_requeue_lt (List.cons_ne_nil message inbox) hcapacity
      refine .inl ?_
      simp only [workOfSocket, Connection.update, Connection.endpoint]
      omega
    | nil =>
      cases reset with
      | true =>
        obtain ⟨-, rfl⟩ := Prod.mk.inj hreceive
        refine .inl ?_
        simp only [workOfSocket, Connection.clearReset, Connection.update, workOfReset_true,
          workOfReset_false]
        omega
      | false =>
        obtain ⟨rfl, rfl⟩ := Prod.mk.inj hreceive
        cases readShut <;> simp [Connection.endpoint]

/-- A read of the server with room for everything never adds to the work, and uses something
up where it gives data. -/
theorem receive_far {socket rest : Connection} {received : Received}
    (hreceive : socket.receive .far (Server.roomFor socket.far) = (received, rest)) :
    workOfSocket rest ≤ workOfSocket socket
      ∧ (∀ bytes, received = .data bytes → bytes ≠ [] →
          workOfSocket rest < workOfSocket socket) := by
  obtain ⟨kind, near, ⟨inbox, handles, readShut, writeShut, reset, closed⟩⟩ := socket
  cases kind with
  | packet =>
    cases reset with
    | true =>
      obtain ⟨rfl, rfl⟩ := Prod.mk.inj hreceive
      simp only [workOfSocket, Connection.clearReset, Connection.update, workOfReset_true,
        workOfReset_false]
      exact ⟨by omega, fun _ _ _ => by omega⟩
    | false =>
      cases inbox with
      | cons message inbox =>
        obtain ⟨-, rfl⟩ := Prod.mk.inj hreceive
        simp only [workOfSocket, Connection.update, List.length_cons]
        exact ⟨by omega, fun _ _ _ => by omega⟩
      | nil =>
        obtain ⟨rfl, rfl⟩ := Prod.mk.inj hreceive
        cases readShut <;> simp [Connection.endpoint]
  | stream =>
    cases inbox with
    | cons message inbox =>
      obtain ⟨-, rfl⟩ := Prod.mk.inj hreceive
      simp only [workOfSocket, Connection.update, Connection.endpoint, Server.roomFor,
        List.drop_length, Connection.requeue, if_true, List.length_nil, List.length_cons]
      exact ⟨by omega, fun _ _ _ => by omega⟩
    | nil =>
      cases reset with
      | true =>
        obtain ⟨rfl, rfl⟩ := Prod.mk.inj hreceive
        simp only [workOfSocket, Connection.clearReset, Connection.update, workOfReset_true,
          workOfReset_false]
        exact ⟨by omega, fun _ _ _ => by omega⟩
      | false =>
        obtain ⟨rfl, rfl⟩ := Prod.mk.inj hreceive
        cases readShut <;> simp [Connection.endpoint]

/-! ## The turns of the server -/

theorem workOfSocket_sendPacket_le (socket : Connection) (packet : Packet) :
    workOfSocket (Server.sendPacket socket packet)
      ≤ workOfSocket socket + (packet.bytes.length + 1) := by
  unfold Server.sendPacket Packet.appendTo
  by_cases hlimit : Packet.payloadLimit < packet.payload.length
  · rw [if_pos hlimit]
    dsimp only
    omega
  · rw [if_neg hlimit]
    exact workOfSocket_send_far_le socket packet.bytes

theorem server_read?_lt {server next : Server} {step : ServerStep} {rest : List ServerStep}
    {socket after : Connection} (hsteps : server.steps = step :: rest)
    (hread : server.read? rest socket = some (next, after)) :
    workOfScript next + workOfSocket after < workOfScript server + workOfSocket socket := by
  have hstep : 0 < workOfServer step := by
    cases step <;> simp [workOfServer]
  unfold Server.read? at hread
  split at hread
  · simp at hread
  · next hreceive =>
    obtain ⟨rfl, rfl⟩ := Prod.mk.inj (Option.some.inj hread)
    have := (receive_far hreceive).1
    simp only [workOfScript, hsteps, workOfSteps]
    omega
  · next hreceive =>
    obtain ⟨rfl, rfl⟩ := Prod.mk.inj (Option.some.inj hread)
    have := (receive_far hreceive).1
    simp only [workOfScript, hsteps, workOfSteps]
    omega
  · next bytes _ hbytes hreceive =>
    obtain ⟨rfl, rfl⟩ := Prod.mk.inj (Option.some.inj hread)
    have := (receive_far hreceive).2 bytes rfl (fun hnil => hbytes (by rw [hnil]))
    simp only [workOfScript]
    omega

theorem server_act?_lt {server next : Server} {accepted : Nat} {socket after : Connection}
    (hact : server.act? accepted socket = some (next, after)) :
    workOfScript next + workOfSocket after < workOfScript server + workOfSocket socket := by
  obtain ⟨steps, received, isOpen⟩ := server
  cases steps with
  | nil =>
    cases isOpen with
    | false => simp [Server.act?] at hact
    | true =>
      obtain ⟨rfl, rfl⟩ := Prod.mk.inj (Option.some.inj hact)
      have := workOfSocket_release_le socket .far
      simp only [workOfScript, workOfSteps, workOfClose_true, workOfClose_false]
      omega
  | cons step rest =>
    cases step with
    | send packet =>
      obtain ⟨rfl, rfl⟩ := Prod.mk.inj (Option.some.inj hact)
      have := workOfSocket_sendPacket_le socket packet
      simp only [workOfScript, workOfSteps, workOfServer]
      omega
    | sendRaw bytes =>
      obtain ⟨rfl, rfl⟩ := Prod.mk.inj (Option.some.inj hact)
      have := workOfSocket_send_far_le socket bytes
      simp only [workOfScript, workOfSteps, workOfServer]
      omega
    | receive count =>
      simp only [Server.act?] at hact
      split at hact
      · obtain ⟨rfl, rfl⟩ := Prod.mk.inj (Option.some.inj hact)
        simp only [workOfScript, workOfSteps, workOfServer]
        omega
      · exact server_read?_lt rfl hact
    | drain => exact server_read?_lt rfl hact
    | waitOut count =>
      simp only [Server.act?] at hact
      split at hact
      · obtain ⟨rfl, rfl⟩ := Prod.mk.inj (Option.some.inj hact)
        simp only [workOfScript, workOfSteps, workOfServer]
        omega
      · simp at hact
    | halfClose =>
      obtain ⟨rfl, rfl⟩ := Prod.mk.inj (Option.some.inj hact)
      have := workOfSocket_closeWrite socket .far
      simp only [workOfScript, workOfSteps, workOfServer]
      omega

/-! ## The turns of the tasks -/

theorem length_ofForward (queue : List Completion) (ending : Ending ForwardError Nat) :
    (Completion.ofForward queue ending).length = queue.length + 1 := by
  cases ending with
  | done => simp [Completion.ofForward, Reporter.report, Reporter.send, Reporter.drop]
  | failed cause =>
    cases cause <;> simp [Completion.ofForward, Reporter.report, Reporter.send, Reporter.drop]
  | crashed => simp [Completion.ofForward, Reporter.send, Reporter.drop]

theorem length_ofRelay (queue : List Completion) (ending : Ending PacketError Tally) :
    (Completion.ofRelay queue ending).length = queue.length + 1 := by
  cases ending <;> simp [Completion.ofRelay, Reporter.report, Reporter.send, Reporter.drop]

/-- The end of the input task costs its completion and a reset at most. -/
theorem work_endInput_le (state : Streaming) (ending : Ending ForwardError Nat) :
    (state.endInput ending).work + workOfTask state.input ≤ state.work + 2 := by
  have := workOfSocket_release_le state.socket .near
  simp only [work, endInput, workOfTask_ended, length_ofForward]
  omega

/-- Sending what was released costs a message at most, and leaves all but the socket alone. -/
theorem work_forwardOutput_le (state : Streaming) (output : Bytes) :
    (state.forwardOutput output).2.work ≤ state.work + 1
      ∧ (state.forwardOutput output).2.input = state.input := by
  unfold forwardOutput
  split
  · simp
  · have hsend := workOfSocket_send_near_le state.socket output
    split <;> next answer socket h =>
      rw [h] at hsend
      simp only [work, and_true] at hsend ⊢
      omega

/-- A read of the input uses something up, unless it finds the end. -/
theorem turn_gives {source rest : InputSource} {capacity accepted : Nat} {returned : Bool}
    {result : ReadResult} (hcapacity : 0 < capacity)
    (hturn : source.turn capacity accepted returned = .gives result rest) :
    workOfSource rest + 2 ≤ workOfSource source ∨ result = .data [] := by
  obtain ⟨held, steps⟩ := source
  cases held with
  | cons byte held =>
    obtain ⟨rfl, rfl⟩ := InputTurn.gives.inj hturn
    refine .inl ?_
    simp only [workOfSource, List.length_drop, List.length_cons]
    omega
  | nil =>
    cases steps with
    | nil =>
      obtain ⟨rfl, rfl⟩ := InputTurn.gives.inj hturn
      exact .inr rfl
    | cons step steps =>
      cases step with
      | read step =>
        cases step with
        | data bytes =>
          obtain ⟨rfl, rfl⟩ := InputTurn.gives.inj hturn
          refine .inl ?_
          simp only [workOfSource, workOfInputs, workOfInput, List.length_drop,
            List.length_nil]
          omega
        | fail cause =>
          obtain ⟨rfl, rfl⟩ := InputTurn.gives.inj hturn
          refine .inl ?_
          simp only [workOfSource, workOfInputs, workOfInput, List.length_nil]
          omega
      | waitOut count =>
        simp only [InputSource.turn] at hturn
        split at hturn <;> simp at hturn
      | block =>
        simp only [InputSource.turn] at hturn
        split at hturn
        · obtain ⟨rfl, rfl⟩ := InputTurn.gives.inj hturn
          exact .inr rfl
        · simp at hturn
      | crash => simp [InputSource.turn] at hturn

theorem turn_ready {source rest : InputSource} {capacity accepted : Nat} {returned : Bool}
    (hturn : source.turn capacity accepted returned = .ready rest) :
    workOfSource rest < workOfSource source := by
  obtain ⟨held, steps⟩ := source
  cases held with
  | cons byte held => simp [InputSource.turn] at hturn
  | nil =>
    cases steps with
    | nil => simp [InputSource.turn] at hturn
    | cons step steps =>
      cases step with
      | read step => cases step <;> simp [InputSource.turn] at hturn
      | waitOut count =>
        simp only [InputSource.turn] at hturn
        split at hturn
        · obtain rfl := InputTurn.ready.inj hturn
          simp only [workOfSource, workOfInputs, workOfInput]
          omega
        · simp at hturn
      | block =>
        simp only [InputSource.turn] at hturn
        split at hturn <;> simp at hturn
      | crash => simp [InputSource.turn] at hturn

/-- What follows a read of the input stays below the work that the read has used up, and ends
the task where the read found the end. -/
theorem work_onInput_lt {state : Streaming} {source rest : InputSource}
    {scanner : DetachScanner} {written : Nat} {result : ReadResult}
    (hinput : state.input = .forwarding source scanner written)
    (hresult : workOfSource rest + 2 ≤ workOfSource source ∨ result = .data []) :
    (state.onInput rest written (scanner.react result)).work < state.work := by
  have htask : workOfTask state.input = workOfSource source + 5 := by rw [hinput]; rfl
  have hsend := work_forwardOutput_le state (scanner.react result).output
  unfold onInput
  split
  · next after h =>
    rw [h] at hsend
    dsimp only at hsend
    have := work_endInput_le after (.failed (.write ‹_›))
    rw [hsend.2, htask] at this
    omega
  · next after h =>
    rw [h] at hsend
    dsimp only at hsend ⊢
    split
    · next next hnext =>
      rcases hresult with hresult | rfl
      · have : workOfTask after.input = workOfSource source + 5 := by rw [hsend.2, htask]
        simp only [work, workOfTask_forwarding] at hsend ⊢
        omega
      · simp at hnext
    · have := work_endInput_le after
        (.failed (.detached (written + (scanner.react result).output.length)))
      rw [hsend.2, htask] at this
      omega
    · have := work_endInput_le after (.done (written + (scanner.react result).output.length))
      rw [hsend.2, htask] at this
      omega
    · next cause _ =>
      have := work_endInput_le after (.failed (.read cause))
      rw [hsend.2, htask] at this
      omega

theorem work_lt_of_actInput? {state next : Streaming} (hact : state.actInput? = some next) :
    next.work < state.work := by
  unfold actInput? at hact
  split at hact
  · simp at hact
  · next hinput =>
    obtain rfl := Option.some.inj hact
    have := work_endInput_le state (.done 0)
    rw [hinput, workOfTask] at this
    omega
  · next source scanner written hinput =>
    have htask : workOfTask state.input = workOfSource source + 5 := by rw [hinput]; rfl
    split at hact
    · simp at hact
    · obtain rfl := Option.some.inj hact
      have := work_endInput_le state .crashed
      rw [htask] at this
      omega
    · next rest hturn =>
      obtain rfl := Option.some.inj hact
      have := turn_ready hturn
      simp only [work, workOfTask_forwarding]
      omega
    · next result rest hturn =>
      obtain rfl := Option.some.inj hact
      exact work_onInput_lt hinput (turn_gives (by decide) hturn)

/-- What follows a read of the output ends the task or leaves the work as it is. -/
theorem work_onOutput_le (state : Streaming) (result : ReadResult)
    (hrelaying : state.relaying = true) :
    (state.onOutput result).work ≤ state.work := by
  have hrelease := workOfSocket_release_le state.socket .near
  unfold onOutput
  split
  · exact Nat.le_refl _
  · simp only [work, length_ofRelay, hrelaying, workOfRelay_true, workOfRelay_false]
    omega

/-- At the end of the stream the task ends. -/
theorem work_onOutput_end_lt (state : Streaming) (hrelaying : state.relaying = true) :
    (state.onOutput (.data [])).work < state.work := by
  have hrelease := workOfSocket_release_le state.socket .near
  unfold onOutput
  rw [Relay.onRead_end]
  simp only [work, length_ofRelay, hrelaying, workOfRelay_true, workOfRelay_false]
  omega

theorem work_lt_of_actOutput? {state next : Streaming} (hact : state.actOutput? = some next) :
    next.work < state.work := by
  unfold actOutput? at hact
  split at hact
  · next hrelaying =>
    split at hact
    · simp at hact
    · next cause socket hreceive =>
      obtain rfl := Option.some.inj hact
      have hle := work_onOutput_le { state with socket := socket } (.failed cause) hrelaying
      rcases receive_near (by decide) hreceive with hlt | ⟨-, hreceived⟩
      · have : ({ state with socket := socket } : Streaming).work < state.work := by
          simp only [work]
          omega
        omega
      · simp at hreceived
    · next bytes socket hreceive =>
      obtain rfl := Option.some.inj hact
      rcases receive_near (by decide) hreceive with hlt | ⟨rfl, hreceived⟩
      · have hle := work_onOutput_le { state with socket := socket } (.data bytes) hrelaying
        have : ({ state with socket := socket } : Streaming).work < state.work := by
          simp only [work]
          omega
        omega
      · obtain rfl : bytes = [] := by simpa using hreceived
        exact work_onOutput_end_lt state hrelaying
  · simp at hact

theorem work_lt_of_actServer? {state next : Streaming} (hact : state.actServer? = some next) :
    next.work < state.work := by
  unfold actServer? at hact
  split at hact
  · simp at hact
  · next server socket hserver =>
    obtain rfl := Option.some.inj hact
    have := server_act?_lt hserver
    simp only [work]
    omega

/-! ## The turns of the coordinator -/

theorem work_onFirst_lt (state : Streaming) (first : Completion) (rest : List Completion)
    (hphase : state.phase = .settling) (hqueue : state.completions = first :: rest) :
    (state.onFirst first rest).work < state.work := by
  have hsocket := workOfSocket_closeWrite state.socket .near
  simp only [onFirst, work, hphase, hqueue, List.length_cons, workOfPhase_settling]
  split <;> simp only [workOfPhase_finishing, workOfPhase_awaiting] <;> omega

theorem work_lt_of_onNoCompletion? {state next : Streaming} (hphase : 2 ≤ workOfPhase state.phase)
    (hact : state.onNoCompletion? = some next) : next.work < state.work := by
  unfold onNoCompletion? at hact
  split at hact
  · obtain rfl := Option.some.inj hact
    simp only [work, workOfPhase_finishing]
    omega
  · simp at hact

theorem work_lt_of_actHook? {state next : Streaming} (hphase : state.phase = .started)
    (hact : state.actHook? = some next) : next.work < state.work := by
  unfold actHook? at hact
  split at hact
  · obtain rfl := Option.some.inj hact
    simp only [work, hphase, workOfPhase_started, workOfPhase_settling]
    omega
  · split at hact
    · obtain rfl := Option.some.inj hact
      simp only [work, hphase, workOfPhase_started]
      split <;> simp only [workOfPhase_settling, workOfPhase_finishing] <;> omega
    · simp at hact

theorem work_lt_of_actCoordinator? {state next : Streaming}
    (hact : state.actCoordinator? = some next) : next.work < state.work := by
  unfold actCoordinator? at hact
  split at hact
  · next hphase => exact work_lt_of_actHook? hphase hact
  · next hphase =>
    split at hact
    · exact work_lt_of_onNoCompletion? (by rw [hphase, workOfPhase_settling]; decide) hact
    · next first rest hqueue =>
      obtain rfl := Option.some.inj hact
      exact work_onFirst_lt state first rest hphase hqueue
  · next otherwise hphase =>
    split at hact
    · have hleft : 2 = workOfPhase state.phase := by rw [hphase, workOfPhase_awaiting]
      exact work_lt_of_onNoCompletion? (Nat.le_of_eq hleft) hact
    · next completion rest hqueue =>
      obtain rfl := Option.some.inj hact
      simp only [work, hphase, hqueue, List.length_cons, workOfPhase_awaiting]
      split <;> simp only [workOfPhase_finishing, workOfPhase_awaiting] <;> omega
  · next result hphase =>
    obtain rfl := Option.some.inj hact
    have hshutdown := workOfSocket_shutdown state.socket .near
    have hrelease := workOfSocket_release_le (state.socket.shutdown .near).2 .near
    simp only [work, hphase, workOfPhase_finishing, workOfPhase_returned]
    omega
  · simp at hact

/-! ## Rest -/

/-- Every turn that a party can use lowers the work. -/
theorem work_lt_of_act? {state next : Streaming} {party : Party}
    (hact : state.act? party = some next) : next.work < state.work := by
  cases party with
  | input => exact work_lt_of_actInput? hact
  | server => exact work_lt_of_actServer? hact
  | output => exact work_lt_of_actOutput? hact
  | coordinator => exact work_lt_of_actCoordinator? hact

theorem work_lt_of_next? {state next : Streaming} (hnext : state.next? = some next) :
    next.work < state.work := by
  obtain ⟨party, -, hact⟩ := List.exists_of_findSome?_eq_some hnext
  exact work_lt_of_act? hact

/-- A drain with as many turns as there is work stops where no party can act. -/
theorem next?_drain {turns : Nat} {state : Streaming} (hturns : state.work ≤ turns) :
    (drain turns state).next? = none := by
  induction turns generalizing state with
  | zero =>
    cases hnext : state.next? with
    | none => exact hnext
    | some next =>
      have := work_lt_of_next? hnext
      omega
  | succ turns ih =>
    unfold drain
    split
    · next hnext => exact hnext
    · next next hnext =>
      have := work_lt_of_next? hnext
      exact ih (by omega)

/-- A run ends where no party can act, whatever its schedule. -/
theorem next?_run (state : Streaming) (schedule : List Party) :
    (state.run schedule).next? = none :=
  next?_drain (Nat.le_refl _)

end Streaming

end ContainerAttach
