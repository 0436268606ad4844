import ContainerAttach.Proofs.Socket.Queues

/-!
# What one call changes

Each call changes little of a connection.  A send adds a message to the queue of the other
end or fails (`Connection.send_cases`), and a read changes nothing but the queue and the reset
of its own end (`Connection.receive_changes`).  Closing the near end for writing closes the far
end for reading, and dropping the last handle of the near end closes the far end both ways
(`Connection.release_near`).
-/

namespace ContainerAttach

namespace Connection

variable (socket : Connection) (side : Side)

/-! ## Calls -/

/-- A send that fails may have reported a reset, and changes nothing else. -/
theorem send_cases (bytes : Bytes) :
    (∃ cause reset, (reset = true → (socket.endpoint side).reset = true) ∧
      socket.send side bytes =
        (.error cause, socket.update side fun here => { here with reset := reset })) ∨
    ((socket.endpoint side).writeShut = false ∧
      socket.send side bytes = (.ok bytes.length, socket.enqueue side.other [bytes])) ∨
    ((socket.endpoint side).writeShut = false ∧ bytes = [] ∧
      socket.send side bytes = (.ok 0, socket)) := by
  obtain ⟨reset, hreset, hsame⟩ : ∃ reset, (reset = true → (socket.endpoint side).reset = true) ∧
      socket.update side (fun here => { here with reset := reset }) = socket := by
    refine ⟨(socket.endpoint side).reset, id, ?_⟩
    cases side <;> rfl
  unfold send
  dsimp only
  split
  · exact .inl ⟨_, false, by simp, rfl⟩
  · split
    · exact .inl ⟨_, reset, hreset, by rw [hsame]⟩
    · split
      · exact .inl ⟨_, reset, hreset, by rw [hsame]⟩
      · next hopen =>
        split
        · next hnil => exact .inr (.inr ⟨by simpa using hopen, hnil.2, rfl⟩)
        · exact .inr (.inl ⟨by simpa using hopen, rfl⟩)

/-- An end that is closed for writing refuses every message. -/
theorem send_of_writeShut (hshut : (socket.endpoint side).writeShut = true) (bytes : Bytes) :
    ∃ cause after, socket.send side bytes = (.error cause, after) := by
  rcases socket.send_cases side bytes with ⟨cause, _, -, hsend⟩ | ⟨hopen, -⟩ | ⟨hopen, -⟩
  · exact ⟨cause, _, hsend⟩
  · exact absurd (hopen.symm.trans hshut) Bool.false_ne_true
  · exact absurd (hopen.symm.trans hshut) Bool.false_ne_true

/-- A read changes nothing but the queue and the reset of its own end, and adds nothing to
them. -/
theorem receive_changes (capacity : Nat) :
    ∃ inbox reset, (reset = true → (socket.endpoint side).reset = true) ∧
      ((socket.endpoint side).inbox = [] → inbox = []) ∧
      (socket.receive side capacity).2 =
        socket.update side fun here => { here with inbox := inbox, reset := reset } := by
  have hupdate : ∀ reset,
      socket.update side (fun here => { here with reset := reset }) =
        socket.update side fun here =>
          { here with inbox := (socket.endpoint side).inbox, reset := reset } := by
    intro reset
    cases side <;> rfl
  have htaken : (socket.endpoint side).inbox ≠ [] → ∀ inbox,
      ∃ inbox' reset, (reset = true → (socket.endpoint side).reset = true) ∧
        ((socket.endpoint side).inbox = [] → inbox' = []) ∧
        (socket.update side fun here => { here with inbox := inbox }) =
          socket.update side fun here => { here with inbox := inbox', reset := reset } := by
    intro hinbox inbox
    refine ⟨inbox, (socket.endpoint side).reset, id, fun hnil => absurd hnil hinbox, ?_⟩
    cases side <;> rfl
  have hcleared := hupdate false
  have hsame : socket = socket.update side fun here =>
      { here with
        inbox := (socket.endpoint side).inbox
        reset := (socket.endpoint side).reset } := by
    cases side <;> rfl
  unfold receive
  dsimp only
  split
  · split
    · exact ⟨_, false, by simp, id, hcleared⟩
    · split
      · next hinbox => exact htaken (by rw [hinbox]; exact List.cons_ne_nil _ _) _
      · exact ⟨_, _, id, id, hsame⟩
  · split
    · split
      · exact ⟨_, false, by simp, id, hcleared⟩
      · exact ⟨_, _, id, id, hsame⟩
    · next hinbox => exact htaken hinbox _

/-- A read with room for everything takes something from the front of the queue, reports a
reset, or finds nothing. -/
theorem receive_whole {capacity : Nat}
    (hroom : (socket.endpoint side).inbox.flatten.length ≤ capacity) :
    (∃ bytes inbox, socket.receive side capacity =
        (.data bytes, socket.update side fun here => { here with inbox := inbox }) ∧
      inbox.length < (socket.endpoint side).inbox.length ∧
      bytes ++ inbox.flatten = (socket.endpoint side).inbox.flatten ∧
      ((∀ message ∈ (socket.endpoint side).inbox, message ≠ []) →
        bytes ≠ [] ∧ ∀ message ∈ inbox, message ≠ [])) ∨
    ((socket.endpoint side).reset = true ∧
      socket.receive side capacity = (.failed (.os 104), socket.clearReset side)) ∨
    ((socket.endpoint side).inbox = [] ∧ (socket.endpoint side).reset = false ∧
      socket.receive side capacity =
        (if (socket.endpoint side).readShut then .data [] else .blocked, socket)) := by
  unfold receive
  dsimp only
  cases socket.kind with
  | packet =>
      cases hreset : (socket.endpoint side).reset with
      | true => exact .inr (.inl ⟨rfl, rfl⟩)
      | false =>
          cases hinbox : (socket.endpoint side).inbox with
          | nil => exact .inr (.inr ⟨rfl, rfl, rfl⟩)
          | cons message inbox =>
              have hfits : message.length ≤ capacity := by
                rw [hinbox, List.flatten_cons, List.length_append] at hroom
                omega
              refine .inl ⟨message, inbox, ?_, Nat.lt_succ_self _, rfl, ?_⟩
              · simp [List.take_of_length_le hfits]
              · intro hfilled
                exact ⟨hfilled message List.mem_cons_self,
                  fun other hmem => hfilled other (List.mem_cons_of_mem _ hmem)⟩
  | stream =>
      cases hinbox : (socket.endpoint side).inbox with
      | nil =>
          cases hreset : (socket.endpoint side).reset with
          | true => exact .inr (.inl ⟨rfl, rfl⟩)
          | false => exact .inr (.inr ⟨rfl, rfl, rfl⟩)
      | cons message inbox =>
          rw [hinbox] at hroom
          refine .inl ⟨(message :: inbox).flatten, [], ?_, Nat.succ_pos _, List.append_nil _, ?_⟩
          · dsimp only
            rw [List.take_of_length_le hroom, List.drop_of_length_le hroom]
            rfl
          · intro hfilled
            have hmessage := hfilled message List.mem_cons_self
            simp [hmessage]

theorem closeWrite_near :
    socket.closeWrite .near =
      (.ok (), if socket.near.closed then socket else
        ⟨socket.kind, { socket.near with writeShut := true, closed := true },
          { socket.far with readShut := true }⟩) := by
  obtain ⟨kind, ⟨inbox, handles, readShut, writeShut, reset, closed⟩, far⟩ := socket
  cases closed <;> rfl

theorem shutdown_near :
    socket.shutdown .near =
      (.ok (), ⟨socket.kind,
        { socket.near with readShut := true, writeShut := true, closed := true },
        { socket.far with readShut := true, writeShut := true }⟩) := rfl

theorem closeWrite_far :
    (socket.closeWrite .far).2 =
      if socket.far.closed then socket else
        ⟨socket.kind, { socket.near with readShut := true },
          { socket.far with writeShut := true, closed := true }⟩ := by
  obtain ⟨kind, near, ⟨inbox, handles, readShut, writeShut, reset, closed⟩⟩ := socket
  cases closed <;> rfl

theorem release_near :
    socket.release .near =
      if socket.near.handles = 1 then
        ⟨socket.kind, { socket.near with handles := socket.near.handles - 1 },
          { socket.far with
            readShut := true
            writeShut := true
            reset := socket.far.reset || hasUnread socket.near.inbox }⟩
      else
        ⟨socket.kind, { socket.near with handles := socket.near.handles - 1 }, socket.far⟩ := rfl

theorem release_far :
    ∃ near : Endpoint, near.handles = socket.near.handles ∧ near.inbox = socket.near.inbox ∧
      near.closed = socket.near.closed ∧
      (socket.near.writeShut = true → near.writeShut = true) ∧
      socket.release .far =
        ⟨socket.kind, near, { socket.far with handles := socket.far.handles - 1 }⟩ := by
  unfold release
  dsimp only
  split
  · let near : Endpoint :=
      { socket.near with
        readShut := true
        writeShut := true
        reset := socket.near.reset || hasUnread socket.far.inbox }
    exact ⟨near, rfl, rfl, rfl, fun _ => rfl, rfl⟩
  · exact ⟨socket.near, rfl, rfl, rfl, id, rfl⟩

/-- A handle that is dropped while nothing is queued for the client leaves no reset. -/
theorem release_quiet {socket : Connection} (hinbox : socket.near.inbox = []) :
    (socket.release .near).near.inbox = [] ∧
      (socket.release .near).far.inbox = socket.far.inbox ∧
      (socket.release .near).far.reset = socket.far.reset ∧
      (socket.far.readShut = true → (socket.release .near).far.readShut = true) := by
  rw [release_near]
  split
  · exact ⟨hinbox, rfl, by simp [hinbox, hasUnread], fun _ => rfl⟩
  · exact ⟨hinbox, rfl, rfl, id⟩

end Connection

end ContainerAttach
