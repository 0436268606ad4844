import ContainerAttach.Bytes
import ContainerAttach.Socket.HalfClose
import ContainerAttach.Text.Quoted
import ContainerAttach.Text.Record

/-!
# Connections

A connection has two ends, and each end has a queue of what was sent to it and
not yet read.  On a packet socket a queue holds messages: a read takes one and
loses what its buffer has no room for.  On a stream socket a read takes bytes
from the whole queue.

An end can be closed for reading and for writing.  Closing one end for writing
closes the other for reading, and when the last handle of an end is dropped the
other end is closed both ways.  What is queued can still be read after that, and
then the reads give nothing.  If the dropped end had something unread, one call at the
other end fails with a reset: on a packet socket the next read or write, and the
queue is read after it; on a stream socket the first read that finds the queue
empty.
-/

namespace ContainerAttach

/-- Whether a socket keeps the boundaries of what is sent. -/
inductive SocketKind where
  | packet
  | stream
  deriving DecidableEq, Repr

def SocketKind.name : SocketKind → String
  | .packet => "seqpacket"
  | .stream => "stream"

/-- The two ends of a connection. -/
inductive Side where
  | near
  | far
  deriving DecidableEq, Repr

def Side.other : Side → Side
  | .near => .far
  | .far => .near

/-- One end of a connection. -/
structure Endpoint where
  /-- What was sent to this end and not yet read, oldest first. -/
  inbox : List Bytes := []
  /-- The number of handles. -/
  handles : Nat := 1
  readShut : Bool := false
  writeShut : Bool := false
  /-- Whether a call still has to fail because the other end dropped unread data. -/
  reset : Bool := false
  /-- The flag shared by the handles: whether one of them closed the write direction. -/
  closed : Bool := false
  deriving DecidableEq, Repr

/-- A connection. -/
structure Connection where
  kind : SocketKind
  near : Endpoint := {}
  far : Endpoint := {}
  deriving DecidableEq, Repr

/-- What a read from a connection gives. -/
inductive Received where
  | data (bytes : Bytes)
  | failed (cause : IoError)
  /-- There is nothing to read yet. -/
  | blocked
  deriving DecidableEq, Repr

namespace Connection

/-- The longest message of a packet socket. -/
def messageLimit : Nat := 212960

def endpoint (connection : Connection) : Side → Endpoint
  | .near => connection.near
  | .far => connection.far

/-- The connection with one end changed. -/
def update (connection : Connection) (side : Side) (f : Endpoint → Endpoint) : Connection :=
  match side with
  | .near => { connection with near := f connection.near }
  | .far => { connection with far := f connection.far }

open Text in
def debugLine (connection : Connection) (side : Side) : String :=
  (Shown.record "AttachSocket" <| Shown.fieldsOf
    [("kind", .atom (quote connection.kind.name)),
     ("write_closed", .ofBool (connection.endpoint side).closed)]).line

/-- The connection after a reset has been reported at one end. -/
def clearReset (connection : Connection) (side : Side) : Connection :=
  connection.update side fun here => { here with reset := false }

/-- Sends from one end in one call.  A packet socket reports a reset before it looks at the
message. -/
def send (connection : Connection) (side : Side) (bytes : Bytes) :
    Except IoError Nat × Connection :=
  let here := connection.endpoint side
  if connection.kind = .packet ∧ here.reset then (.error (.os 104), connection.clearReset side)
  else if connection.kind = .packet ∧ messageLimit < bytes.length then
    (.error (.os 90), connection)
  else if here.writeShut then (.error (.os 32), connection)
  else if connection.kind = .stream ∧ bytes = [] then (.ok 0, connection)
  else
    (.ok bytes.length,
      connection.update side.other fun other => { other with inbox := other.inbox ++ [bytes] })

/-- The bytes of a stream queue after some have been read. -/
def requeue (bytes : Bytes) : List Bytes :=
  if bytes = [] then [] else [bytes]

/-- Reads at one end into a buffer of the given capacity. -/
def receive (connection : Connection) (side : Side) (capacity : Nat) : Received × Connection :=
  let here := connection.endpoint side
  match connection.kind with
  | .packet =>
    if here.reset then (.failed (.os 104), connection.clearReset side)
    else
      match here.inbox with
      | message :: inbox =>
        (.data (message.take capacity),
          connection.update side fun here => { here with inbox := inbox })
      | [] => (if here.readShut then .data [] else .blocked, connection)
  | .stream =>
    match here.inbox with
    | [] =>
      if here.reset then (.failed (.os 104), connection.clearReset side)
      else (if here.readShut then .data [] else .blocked, connection)
    | inbox =>
      (.data (inbox.flatten.take capacity),
        connection.update side fun here =>
          { here with inbox := requeue (inbox.flatten.drop capacity) })

/-- What the operating system does to shut an end down.  It always succeeds. -/
def shut (side : Side) (how : Shutdown) (connection : Connection) :
    Except IoError Unit × Connection :=
  match how with
  | .write =>
    (.ok (),
      (connection.update side fun here => { here with writeShut := true }).update side.other
        fun other => { other with readShut := true })
  | .both =>
    (.ok (),
      (connection.update side fun here =>
        { here with readShut := true, writeShut := true }).update side.other
        fun other => { other with readShut := true, writeShut := true })

/-- One end with its flag, as its handles see it. -/
def guarded (connection : Connection) (side : Side) : Guarded Connection :=
  ⟨connection, (connection.endpoint side).closed⟩

/-- The connection after an operation of a handle. -/
def ofGuarded (side : Side) (guarded : Guarded Connection) : Connection :=
  guarded.socket.update side fun here => { here with closed := guarded.closed }

/-- Closes the write direction of an end through one of its handles. -/
def closeWrite (connection : Connection) (side : Side) : Except SocketError Unit × Connection :=
  match (connection.guarded side).closeWrite (shut side) with
  | (answer, guarded) => (answer, ofGuarded side guarded)

/-- Shuts an end down through one of its handles. -/
def shutdown (connection : Connection) (side : Side) : Except SocketError Unit × Connection :=
  match (connection.guarded side).shutdown (shut side) with
  | (answer, guarded) => (answer, ofGuarded side guarded)

/-- Adds a handle to an end. -/
def retain (connection : Connection) (side : Side) : Connection :=
  connection.update side fun here => { here with handles := here.handles + 1 }

/-- What the other end sees when the last handle of an end is gone. -/
def hangUp (connection : Connection) (side : Side) (unread : Bool) : Connection :=
  connection.update side.other fun other =>
    { other with
      readShut := true
      writeShut := true
      reset := other.reset || unread }

/-- Whether messages are left that somebody should have read.  An empty message in front is
none of them. -/
def hasUnread : List Bytes → Bool
  | [] :: rest => !rest.isEmpty
  | inbox => !inbox.isEmpty

/-- Drops a handle of an end. -/
def release (connection : Connection) (side : Side) : Connection :=
  let here := connection.endpoint side
  let dropped := connection.update side fun here => { here with handles := here.handles - 1 }
  if here.handles = 1 then dropped.hangUp side (hasUnread here.inbox) else dropped

end Connection

end ContainerAttach
