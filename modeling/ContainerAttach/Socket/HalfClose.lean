import ContainerAttach.Socket.Error

/-!
# Closing a socket once

The handles of one socket share a flag that says whether its write direction has
been closed.  Closing it through any handle sets the flag and reaches the socket
only if the flag was not set; shutting the socket down sets the flag and always
reaches the socket.  A socket that turns out not to be connected counts as
closed.

The rules hold for any socket, so they are stated for a state of any type and
for the function by which the operating system shuts it down.
-/

namespace ContainerAttach

/-- What is shut down: the write direction, or both. -/
inductive Shutdown where
  | write
  | both
  deriving DecidableEq, Repr

/-- A socket with the flag that its handles share. -/
structure Guarded (σ : Type) where
  socket : σ
  closed : Bool := false
  deriving DecidableEq, Repr

namespace Guarded

variable {σ : Type} (shut : Shutdown → σ → Except IoError Unit × σ)

/-- What a handle reports of a shutdown. -/
def report (wrap : IoError → SocketError) : Except IoError Unit → Except SocketError Unit
  | .ok () => .ok ()
  | .error cause => if cause.kind = .notConnected then .ok () else .error (wrap cause)

def closeWrite (guarded : Guarded σ) : Except SocketError Unit × Guarded σ :=
  if guarded.closed then (.ok (), guarded)
  else
    match shut .write guarded.socket with
    | (answer, socket) => (report .closeWrite answer, ⟨socket, true⟩)

def shutdown (guarded : Guarded σ) : Except SocketError Unit × Guarded σ :=
  match shut .both guarded.socket with
  | (answer, socket) => (report .io answer, ⟨socket, true⟩)

end Guarded

end ContainerAttach
