import ContainerAttach.IoError
import ContainerAttach.Text.Utf8

/-!
# Socket errors

What can go wrong with the attach socket, each with the operation that failed.
Some messages already end with the cause and do not name it apart.  A path stands
in a message as the text that it is shown as.
-/

namespace ContainerAttach

/-- A failed operation on the attach socket. -/
inductive SocketError where
  | bind (path : Bytes) (cause : IoError)
  | connect (path : Bytes) (cause : IoError)
  | accept (cause : IoError)
  | io (cause : IoError)
  /-- The path fits into no address, and there is no way around. -/
  | pathTooLong (path : Bytes) (length limit : Nat)
  | closeWrite (cause : IoError)
  deriving DecidableEq, Repr

namespace SocketError

/-- What is said about a path that is too long, without the path. -/
def lengthText (length limit : Nat) : String :=
  "socket path too long (" ++ toString length ++ " bytes, max " ++ toString limit ++ ")"

def message : SocketError → String
  | .bind path cause => "failed to bind to " ++ Text.lossy path ++ ": " ++ cause.text
  | .connect path cause => "failed to connect to " ++ Text.lossy path ++ ": " ++ cause.text
  | .accept cause => "failed to accept connection: " ++ cause.text
  | .io cause => "transport I/O error: " ++ cause.text
  | .pathTooLong path length limit => lengthText length limit ++ ": " ++ Text.lossy path
  | .closeWrite cause => "failed to close write half: " ++ cause.text

/-- The texts of the causes that are shown apart from the message, outermost first. -/
def causes : SocketError → List String
  | .bind _ cause => [cause.text]
  | .connect _ cause => [cause.text]
  | .io cause => [cause.text]
  | _ => []

/-- The input or output error behind it, if there is one. -/
def cause? : SocketError → Option IoError
  | .bind _ cause => some cause
  | .connect _ cause => some cause
  | .accept cause => some cause
  | .io cause => some cause
  | .pathTooLong .. => none
  | .closeWrite cause => some cause

end SocketError

end ContainerAttach
