import ContainerAttach.FileSystem.Change
import ContainerAttach.Socket.Address
import ContainerAttach.Socket.Connection

/-!
# Listening and connecting

The sockets of one machine: its files, the listeners behind its socket files,
and the connections between sockets.

A path that fits into an address is connected to as it stands.  A longer one is
reached through its directory: the directory is opened, and the socket is named
by the descriptor of the directory and the file's own name, which has to fit in
its turn.

A listener takes the place of a socket file left behind, and of nothing else.
When it is dropped it removes its path only if the very socket that it made
still stands there.

Listening takes a number of calls to the operating system, any of which may be
refused: rights may be missing, descriptors may run out, a disk may be full.
What was done before such a call stays done.
-/

namespace ContainerAttach

/-- A socket that accepts connections. -/
structure Listener where
  kind : SocketKind
  path : Bytes
  /-- The node of the socket file. -/
  node : Nat
  /-- The connections made and not yet accepted, oldest first. -/
  backlog : List Nat := []
  deriving DecidableEq, Repr

/-- The sockets of one machine. -/
structure Network where
  files : FileSystem := .empty
  /-- The open listeners by number. -/
  listeners : List (Nat × Listener) := []
  /-- The connections, by their place in the list. -/
  connections : List Connection := []
  /-- The number of the next listener. -/
  nextListener : Nat := 0
  /-- The descriptor that the next opened directory gets. -/
  descriptor : Nat := 3
  /-- The permission bits that a new file does not get. -/
  umask : Nat := 0o022
  deriving DecidableEq, Repr

/-- One handle of one end of a connection. -/
structure Handle where
  connection : Nat
  side : Side
  deriving DecidableEq, Repr

namespace Network

/-- The permission bits of a socket file for which none are asked. -/
def standardMode : Nat := 0o600

/-- The permission bits that a file can have. -/
def modeMask : Nat := 0o7777

/-- The permission bits of a socket file that has just been made. -/
def creationMode (net : Network) : Nat :=
  0o777 &&& (modeMask ^^^ net.umask)

/-! ## Connections -/

def connection? (net : Network) (handle : Handle) : Option Connection :=
  net.connections[handle.connection]?

def setConnection (net : Network) (number : Nat) (connection : Connection) : Network :=
  { net with connections := net.connections.set number connection }

def addConnection (net : Network) (kind : SocketKind) : Nat × Network :=
  (net.connections.length, { net with connections := net.connections ++ [{ kind := kind }] })

/-- Makes two sockets that are connected to each other. -/
def pair (net : Network) (kind : SocketKind) : (Handle × Handle) × Network :=
  match net.addConnection kind with
  | (number, net) => ((⟨number, .near⟩, ⟨number, .far⟩), net)

/-- Runs an operation on the connection of a handle. -/
def onConnection {α : Type} (net : Network) (handle : Handle) (missing : α)
    (f : Connection → α × Connection) : α × Network :=
  match net.connection? handle with
  | none => (missing, net)
  | some connection =>
    match f connection with
    | (answer, connection) => (answer, net.setConnection handle.connection connection)

def write (net : Network) (handle : Handle) (bytes : Bytes) : Except IoError Nat × Network :=
  net.onConnection handle (.error (.os 9)) fun connection => connection.send handle.side bytes

def read (net : Network) (handle : Handle) (capacity : Nat) : Received × Network :=
  net.onConnection handle (.failed (.os 9)) fun connection =>
    connection.receive handle.side capacity

def closeWrite (net : Network) (handle : Handle) : Except SocketError Unit × Network :=
  net.onConnection handle (.error (.io (.os 9))) fun connection =>
    connection.closeWrite handle.side

def shutdown (net : Network) (handle : Handle) : Except SocketError Unit × Network :=
  net.onConnection handle (.error (.io (.os 9))) fun connection =>
    connection.shutdown handle.side

def clone (net : Network) (handle : Handle) : Network :=
  (net.onConnection handle () fun connection => ((), connection.retain handle.side)).2

def drop (net : Network) (handle : Handle) : Network :=
  (net.onConnection handle () fun connection => ((), connection.release handle.side)).2

/-! ## Connecting -/

def listenerAt? (net : Network) (node : Nat) : Option (Nat × Listener) :=
  net.listeners.find? fun entry => entry.2.node == node

def setListener (net : Network) (number : Nat) (listener : Listener) : Network :=
  { net with
    listeners := net.listeners.map fun entry =>
      if entry.1 = number then (number, listener) else entry }

def connectNode (net : Network) (kind : SocketKind) (node : Nat) :
    Except IoError Handle × Network :=
  match net.listenerAt? node with
  | none => (.error (.os 111), net)
  | some (number, listener) =>
    if listener.kind ≠ kind then (.error (.os 91), net)
    else
      match net.addConnection kind with
      | (connection, net) =>
        (.ok ⟨connection, .near⟩,
          net.setListener number { listener with backlog := listener.backlog ++ [connection] })

/-- The node that the operating system finds for an address.  A name outside the file
system has no listener, and neither has anything that is not a socket. -/
def nodeOfName (files : FileSystem) (find : Bytes → Except IoError Nat) :
    SocketName → Except IoError Nat
  | .abstract _ => .error (.os 111)
  | .path bytes =>
    match find bytes with
    | .error cause => .error cause
    | .ok node => if files.isSocket node then .ok node else .error (.os 111)

/-- Connects to an address, with the given way to find what its path names. -/
def connectAddress (net : Network) (kind : SocketKind) (find : Bytes → Except IoError Nat)
    (address : SocketAddress) : Except IoError Handle × Network :=
  match nodeOfName net.files find address.name with
  | .error cause => (.error cause, net)
  | .ok node => net.connectNode kind node

/-- The path of an open directory by its descriptor, up to the name of a file in it. -/
def descriptorPath (descriptor : Nat) : Bytes :=
  Bytes.ofText ("/proc/self/fd/" ++ toString descriptor ++ "/")

/-- The number of links between the root and a directory that is named by a descriptor: the
process names itself by one, and the descriptor is another. -/
def descriptorLinks : Nat := 2

/-- The node that a path through an open directory leads to.  The operating system goes
straight to the directory and looks the rest up there. -/
def findThrough (files : FileSystem) (dir descriptor : Nat) (path : Bytes) :
    Except IoError Nat :=
  files.walk true (FileSystem.linkLimit - descriptorLinks) dir
    (Path.pieces (path.drop (descriptorPath descriptor).length))

/-- Why there is no connection by way of a directory. -/
inductive RouteError where
  /-- There is no shorter way to name the socket. -/
  | unsupported
  | io (cause : IoError)
  deriving DecidableEq, Repr

/-- The directory through which a long path is reached. -/
def directoryOf (path : Bytes) : Bytes :=
  match Path.parent? path with
  | some [] => [PathLetter.dot]
  | some parent => parent
  | none => [PathLetter.dot]

/-- Connects to a path that fits into no address, by way of its directory. -/
def connectByDirectory (net : Network) (kind : SocketKind) (path : Bytes) :
    Except RouteError Handle × Network :=
  match Path.fileName? path with
  | none => (.error .unsupported, net)
  | some name =>
    match net.files.openNode (directoryOf path) with
    | .error cause => (.error (.io cause), net)
    | .ok dir =>
      let short := descriptorPath net.descriptor ++ name
      if addressCapacity ≤ short.length then (.error .unsupported, net)
      else
        match SocketAddress.ofPath short with
        | .error cause => (.error (.io cause), net)
        | .ok address =>
          match
            net.connectAddress kind (findThrough net.files dir net.descriptor) address with
          | (.ok handle, net) => (.ok handle, net)
          | (.error cause, net) => (.error (.io cause), net)

def connect (net : Network) (path : Bytes) (kind : SocketKind) :
    Except SocketError Handle × Network :=
  if addressCapacity ≤ path.length then
    match net.connectByDirectory kind path with
    | (.ok handle, net) => (.ok handle, net)
    | (.error .unsupported, net) =>
      (.error (.pathTooLong path path.length addressCapacity), net)
    | (.error (.io cause), net) => (.error (.connect path cause), net)
  else
    match SocketAddress.ofPath path with
    | .error cause => (.error (.connect path cause), net)
    | .ok address =>
      match net.connectAddress kind (net.files.resolve true) address with
      | (.ok handle, net) => (.ok handle, net)
      | (.error cause, net) => (.error (.connect path cause), net)

/-! ## Listening -/

/-- The calls to the operating system that listening takes, in their order. -/
inductive ListenCall where
  /-- Is there anything at the path? -/
  | look
  /-- What is there? -/
  | examine
  | remove
  /-- Opens a socket. -/
  | openSocket
  | bind
  | listen
  | setMode
  /-- Which node is the new socket? -/
  | identify
  deriving DecidableEq, Repr

/-- What the operating system refuses of a call to listen. -/
abbrev ListenRefusals := ListenCall → Option IoError

/-- What a call comes to if it may be refused. -/
def unlessRefused {α : Type} (refusal : Option IoError) (outcome : Except IoError α) :
    Except IoError α :=
  match refusal with
  | some cause => .error cause
  | none => outcome

/-- The error of listening where something other than a socket stands. -/
def notASocket : IoError :=
  .custom .alreadyExists "existing path is not a unix socket"

/-- Makes room for a new socket: a socket file left behind is removed, and anything else
that the path leads to is in the way.  What cannot be looked for is taken not to be there. -/
def clearStale (files : FileSystem) (path : Bytes) (refuses : ListenRefusals := fun _ => none) :
    Except IoError FileSystem :=
  match unlessRefused (refuses .look) (files.find true path) with
  | .error _ => .ok files
  | .ok _ =>
    match unlessRefused (refuses .examine) (files.find false path) with
    | .error cause => .error cause
    | .ok node =>
      if files.isSocket node then unlessRefused (refuses .remove) (files.remove path)
      else .error notASocket

/-- Enters a socket file under the name that the operating system reads from an address.
Nothing is entered for a name outside the file system. -/
def enterSocket (files : FileSystem) (address : SocketAddress) (mode : Nat) :
    Except IoError FileSystem :=
  match address.name with
  | .abstract _ => .ok files
  | .path bytes =>
    match files.create bytes (.socket mode) with
    | .ok files => .ok files
    | .error cause => .error (if cause = .os 17 then .os 98 else cause)

/-- Opens the socket at a path for connections once its file is there, sets the permission bits
of the file, and looks up its node. -/
def publish (files : FileSystem) (path : Bytes) (mode : Nat) (refuses : ListenRefusals) :
    Except IoError Nat × FileSystem :=
  match refuses .listen with
  | some cause => (.error cause, files)
  | none =>
    match unlessRefused (refuses .setMode) (files.setMode path (mode % (modeMask + 1))) with
    | .error cause => (.error cause, files)
    | .ok files => (unlessRefused (refuses .identify) (files.find false path), files)

/-- What the caller is told once the new socket has been published or not. -/
def answer (net : Network) (path : Bytes) (kind : SocketKind) :
    Except IoError Nat × FileSystem → Except SocketError Nat × Network
  | (.error cause, files) => (.error (.bind path cause), { net with files })
  | (.ok node, files) =>
    (.ok net.nextListener,
      { net with
        files
        listeners := net.listeners ++ [(net.nextListener, ⟨kind, path, node, []⟩)]
        nextListener := net.nextListener + 1 })

/-- Listens at a path, with the given permission bits on the socket file. -/
def listen (net : Network) (path : Bytes) (kind : SocketKind) (mode : Nat := standardMode)
    (refuses : ListenRefusals := fun _ => none) : Except SocketError Nat × Network :=
  if addressCapacity ≤ path.length then
    (.error (.pathTooLong path path.length addressCapacity), net)
  else
    match clearStale net.files path refuses with
    | .error cause => (.error (.bind path cause), net)
    | .ok files =>
      match unlessRefused (refuses .openSocket) (SocketAddress.ofPath path) with
      | .error cause => (.error (.bind path cause), { net with files := files })
      | .ok address =>
        match unlessRefused (refuses .bind) (enterSocket files address net.creationMode) with
        | .error cause => (.error (.bind path cause), { net with files := files })
        | .ok files => net.answer path kind (publish files path mode refuses)

def listener? (net : Network) (number : Nat) : Option Listener :=
  (net.listeners.find? fun entry => entry.1 == number).map Prod.snd

/-- Accepts the oldest connection of a listener, if there is one. -/
def accept (net : Network) (number : Nat) : Option Handle × Network :=
  match net.listener? number with
  | none => (none, net)
  | some listener =>
    match listener.backlog with
    | [] => (none, net)
    | connection :: backlog =>
      (some ⟨connection, .far⟩, net.setListener number { listener with backlog := backlog })

/-- Drops the far end of a connection that was never accepted. -/
def refuse (net : Network) (number : Nat) : Network :=
  (net.onConnection ⟨number, .far⟩ () fun connection =>
    ((), (connection.update .far fun far => { far with handles := 0 }).hangUp .far true)).2

/-- Removes a socket file, provided that the given node still stands behind the path. -/
def removeOwn (files : FileSystem) (path : Bytes) (node : Nat) : FileSystem :=
  match files.find false path with
  | .error _ => files
  | .ok found =>
    if files.isSocket found ∧ found = node then
      match files.remove path with
      | .ok files => files
      | .error _ => files
    else files

/-- Drops a listener.  Its file stays where it is if the operating system refuses to look at it
or to remove it. -/
def dropListener (net : Network) (number : Nat) (refused : Bool := false) : Network :=
  match net.listener? number with
  | none => net
  | some listener =>
    let net := listener.backlog.foldl refuse net
    { net with
      files := if refused then net.files else removeOwn net.files listener.path listener.node
      listeners := net.listeners.filter fun entry => entry.1 ≠ number }

end Network

end ContainerAttach
