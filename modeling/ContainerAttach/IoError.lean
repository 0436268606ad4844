import ContainerAttach.IoError.Errno

/-!
# Input and output errors

An error of the operating system or of a stream is known by its kind, and it
carries the text that is shown to the user.  There are three ways to come by
one: from a kind alone, whose text is fixed; from a kind with a message, whose
text is the message; and from an error number of the operating system, whose
text ends with the number and whose kind is a function of it.
-/

namespace ContainerAttach

/-- An error of a stream, a socket or a path. -/
inductive IoError where
  | ofKind (kind : IoKind)
  | custom (kind : IoKind) (message : String)
  | os (code : Nat)
  deriving DecidableEq, Repr, Inhabited

namespace IoError

/-- The kind, by which the program decides how to go on. -/
def kind : IoError → IoKind
  | .ofKind kind => kind
  | .custom kind _ => kind
  | .os code => Errno.kind code

def text : IoError → String
  | .ofKind kind => kind.text
  | .custom _ message => message
  | .os code => Errno.text code ++ " (os error " ++ toString code ++ ")"

/-- An interrupted call is made again; every other error ends what was going on. -/
def isInterrupted (error : IoError) : Bool :=
  error.kind == .interrupted

end IoError

end ContainerAttach
