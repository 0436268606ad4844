import ContainerAttach.Bytes

/-!
# Requests to the server

Besides the attach socket there is a control plane, over which the client makes
two requests: it announces that it is about to attach, and it tells the server
how large the terminal is.
-/

namespace ContainerAttach

/-- The size of a terminal in character cells. -/
structure TerminalSize where
  width : UInt16
  height : UInt16
  deriving DecidableEq, Repr

/-- Announces that a client is about to attach to a container's socket.  A session announces any
path; in a request that is printed or read it is a text. -/
structure AttachRequest (Path : Type := String) where
  id : String
  socketPath : Path
  execSession : Option String
  deriving DecidableEq, Repr

/-- Asks for a container's terminal to be resized. -/
structure WindowSizeRequest where
  id : String
  size : TerminalSize
  deriving DecidableEq, Repr

end ContainerAttach
