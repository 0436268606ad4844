import ContainerAttach.Packet
import ContainerAttach.Socket.Connection

/-!
# The other end of a session

A server takes the far end of the attach socket and follows a script: it sends
packets, receives what the client forwards, and closes its end when the script
is done.  What it receives is kept as it came, message by message.

A send that fails is passed over.  Receiving stops for good at the end of the
stream and at an error, and the script goes on.
-/

namespace ContainerAttach

/-- One step of a server. -/
inductive ServerStep where
  | send (packet : Packet)
  /-- Send bytes that may be no packet. -/
  | sendRaw (bytes : Bytes)
  /-- Receive until so many bytes have been received in all. -/
  | receive (count : Nat)
  /-- Receive until the end of the stream. -/
  | drain
  /-- Wait until the client's sinks together have accepted so many bytes. -/
  | waitOut (count : Nat)
  /-- Close the write direction. -/
  | halfClose
  deriving DecidableEq, Repr

/-- A server in the middle of its script. -/
structure Server where
  steps : List ServerStep := []
  received : List Bytes := []
  /-- Whether the server still holds its end of the socket. -/
  isOpen : Bool := true
  deriving DecidableEq, Repr

namespace Server

def receivedCount (server : Server) : Nat :=
  server.received.flatten.length

/-- Room for everything that is queued at an end. -/
def roomFor (here : Endpoint) : Nat :=
  here.inbox.flatten.length

/-- One read of everything that is there to be read; nothing happens as long as there is
nothing. -/
def read? (server : Server) (rest : List ServerStep) (socket : Connection) :
    Option (Server × Connection) :=
  match socket.receive .far (roomFor socket.far) with
  | (.blocked, _) => none
  | (.failed _, socket) => some ({ server with steps := rest }, socket)
  | (.data [], socket) => some ({ server with steps := rest }, socket)
  | (.data bytes, socket) => some ({ server with received := server.received ++ [bytes] }, socket)

/-- Sends a packet; one that is too large is not sent. -/
def sendPacket (socket : Connection) (packet : Packet) : Connection :=
  match packet.appendTo [] with
  | .ok bytes => (socket.send .far bytes).2
  | .error _ => socket

/-- What the server does next, if it can do anything. -/
def act? (server : Server) (accepted : Nat) (socket : Connection) :
    Option (Server × Connection) :=
  match server.steps with
  | [] =>
    if server.isOpen then some ({ server with isOpen := false }, socket.release .far)
    else none
  | .send packet :: rest =>
    some ({ server with steps := rest }, sendPacket socket packet)
  | .sendRaw bytes :: rest => some ({ server with steps := rest }, (socket.send .far bytes).2)
  | .receive count :: rest =>
    if count ≤ server.receivedCount then some ({ server with steps := rest }, socket)
    else server.read? rest socket
  | .drain :: rest => server.read? rest socket
  | .waitOut count :: rest =>
    if count ≤ accepted then some ({ server with steps := rest }, socket) else none
  | .halfClose :: rest => some ({ server with steps := rest }, (socket.closeWrite .far).2)

end Server

end ContainerAttach
