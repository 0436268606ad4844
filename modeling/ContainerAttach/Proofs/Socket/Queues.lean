import ContainerAttach.Socket.Network
import Mathlib.Data.List.Permutation

/-!
# Messages between the ends of a connection

As long as nothing goes wrong, a message that is sent at one end is put behind the
queue of the other (`Connection.send_of_writable`), and a read of a packet socket with enough
room takes the first message of the queue whole (`Connection.receive_of_inbox`).  A read at
an empty queue waits, or finds the end if the other side has closed
(`Connection.receive_of_empty`).

Whoever connects gets a connection on which nothing has happened yet
(`Network.connection?_of_connect`).
-/

namespace ContainerAttach

namespace Connection

/-- The connection with more messages behind the queue of an end. -/
def enqueue (connection : Connection) (side : Side) (messages : List Bytes) : Connection :=
  connection.update side fun here => { here with inbox := here.inbox ++ messages }

theorem enqueue_nil (connection : Connection) (side : Side) :
    connection.enqueue side [] = connection := by
  cases side <;> simp [enqueue, update]

variable {connection : Connection} {side : Side} {capacity : Nat}

theorem send_of_writable {bytes : Bytes} (hbytes : bytes ≠ [])
    (hreset : (connection.endpoint side).reset = false)
    (hopen : (connection.endpoint side).writeShut = false)
    (hlimit : connection.kind = .packet → bytes.length ≤ messageLimit) :
    connection.send side bytes = (.ok bytes.length, connection.enqueue side.other [bytes]) := by
  have hfits : ¬ (connection.kind = .packet ∧ messageLimit < bytes.length) := by
    rintro ⟨hkind, hlong⟩
    exact absurd (hlimit hkind) (Nat.not_le.mpr hlong)
  simp [send, hreset, hopen, hfits, hbytes, enqueue]

theorem receive_of_inbox {message : Bytes} {inbox : List Bytes} (hkind : connection.kind = .packet)
    (hreset : (connection.endpoint side).reset = false)
    (hinbox : (connection.endpoint side).inbox = message :: inbox)
    (hroom : message.length ≤ capacity) :
    connection.receive side capacity =
      (.data message, connection.update side fun here => { here with inbox := inbox }) := by
  simp [receive, hkind, hreset, hinbox, List.take_of_length_le hroom]

theorem receive_of_empty (side : Side) (hreset : (connection.endpoint side).reset = false)
    (hinbox : (connection.endpoint side).inbox = []) (capacity : Nat) :
    connection.receive side capacity =
      (if (connection.endpoint side).readShut then .data [] else .blocked, connection) := by
  cases hkind : connection.kind <;> simp [receive, hkind, hreset, hinbox]

end Connection

namespace Network

variable {net after : Network} {kind : SocketKind} {handle : Handle}

theorem connection?_of_connectNode {node : Nat}
    (hconnect : net.connectNode kind node = (.ok handle, after)) :
    after.connection? handle = some { kind := kind } := by
  unfold connectNode addConnection at hconnect
  split at hconnect
  · exact absurd (Prod.mk.inj hconnect).1 (by simp)
  · split at hconnect
    · exact absurd (Prod.mk.inj hconnect).1 (by simp)
    · obtain ⟨hhandle, rfl⟩ := Prod.mk.inj hconnect
      obtain rfl := Except.ok.inj hhandle
      simp [connection?, setListener]

theorem connection?_of_connectAddress {find : Bytes → Except IoError Nat}
    {address : SocketAddress}
    (hconnect : net.connectAddress kind find address = (.ok handle, after)) :
    after.connection? handle = some { kind := kind } := by
  unfold connectAddress at hconnect
  split at hconnect
  · exact absurd (Prod.mk.inj hconnect).1 (by simp)
  · exact connection?_of_connectNode hconnect

theorem connection?_of_connectByDirectory {path : Bytes}
    (hconnect : net.connectByDirectory kind path = (.ok handle, after)) :
    after.connection? handle = some { kind := kind } := by
  unfold connectByDirectory at hconnect
  split at hconnect
  · exact absurd (Prod.mk.inj hconnect).1 (by simp)
  · split at hconnect
    · exact absurd (Prod.mk.inj hconnect).1 (by simp)
    · dsimp only at hconnect
      split at hconnect
      · exact absurd (Prod.mk.inj hconnect).1 (by simp)
      · split at hconnect
        · exact absurd (Prod.mk.inj hconnect).1 (by simp)
        · split at hconnect
          · next haddress =>
            obtain ⟨hhandle, rfl⟩ := Prod.mk.inj hconnect
            obtain rfl := Except.ok.inj hhandle
            exact connection?_of_connectAddress haddress
          · exact absurd (Prod.mk.inj hconnect).1 (by simp)

/-- Both routes lead to a new connection. -/
theorem connection?_of_connect {path : Bytes}
    (hconnect : net.connect path kind = (.ok handle, after)) :
    after.connection? handle = some { kind := kind } := by
  unfold connect at hconnect
  split at hconnect
  · split at hconnect
    · next hroute =>
      obtain ⟨hhandle, rfl⟩ := Prod.mk.inj hconnect
      obtain rfl := Except.ok.inj hhandle
      exact connection?_of_connectByDirectory hroute
    · exact absurd (Prod.mk.inj hconnect).1 (by simp)
    · exact absurd (Prod.mk.inj hconnect).1 (by simp)
  · split at hconnect
    · exact absurd (Prod.mk.inj hconnect).1 (by simp)
    · split at hconnect
      · next haddress =>
        obtain ⟨hhandle, rfl⟩ := Prod.mk.inj hconnect
        obtain rfl := Except.ok.inj hhandle
        exact connection?_of_connectAddress haddress
      · exact absurd (Prod.mk.inj hconnect).1 (by simp)

/-- A listener whose name stands in an empty working directory is found there. -/
theorem isOk_connect_attach :
    ((({} : Network).listen "attach" .packet).2.connect "attach" .packet).1.isOk = true := by
  have hpath : Bytes.ofText "attach" = [97, 116, 116, 97, 99, 104] := by decide +kernel
  rw [hpath]
  cbv

end Network

end ContainerAttach
