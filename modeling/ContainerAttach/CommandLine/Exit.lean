import ContainerAttach.Keys.Notation
import ContainerAttach.Session.Error

/-!
# Exit codes

The program ends with a code that tells scripts what went wrong, and with a
message that tells the user.  The code depends on the kind of the error alone.
-/

namespace ContainerAttach.CommandLine

/-- A failed run: its exit code, and the message for the user. -/
structure Failure where
  code : Nat
  message : String
  deriving DecidableEq, Repr

namespace ExitCode

def success : Nat := 0
def failure : Nat := 1
def transport : Nat := 3
def permissionDenied : Nat := 50
def dataInvalid : Nat := 60
def usage : Nat := 64
/-- The code of a program that panics. -/
def panicked : Nat := 101
def timeout : Nat := 124
def internal : Nat := 125

def ofKind : IoKind → Nat
  | .permissionDenied => permissionDenied
  | .timedOut | .wouldBlock => timeout
  | .connectionRefused | .notFound | .brokenPipe | .connectionReset => transport
  | _ => internal

end ExitCode

namespace Failure

/-- A message after what was being done. -/
def within (context message : String) : String :=
  context ++ ": " ++ message

def ofIo (context : String) (error : IoError) : Failure :=
  ⟨ExitCode.ofKind error.kind, within context error.text⟩

def ofSocket (context : String) (error : SocketError) : Failure :=
  { code := match error.cause? with
      | some cause => (ofIo context (.ofKind cause.kind)).code
      | none => ExitCode.usage
    message := within context error.message }

/-- The failure of a packet error.  One of a stream is told as the error of the stream. -/
def ofPacket (context : String) (error : PacketError) : Failure :=
  match error with
  | .noDestination _ | .payloadTooLarge _ _ =>
    ⟨ExitCode.dataInvalid, within context error.message⟩
  | .read cause => ofIo (within context "read attach socket") cause
  | .write stream cause => ofIo (within context ("write " ++ stream)) cause
  | .shortWrite .. => ⟨ExitCode.failure, within context error.message⟩

/-- The failure of a session.  One of the socket or of the output is told as such. -/
def ofAttach (context : String) (error : AttachError) : Failure :=
  match error with
  | .connect _ cause => ofSocket context cause
  | .output cause => ofPacket context cause
  | .announce .. | .preAttach _ | .postAttach _ =>
    ⟨ExitCode.failure, within context error.message⟩
  | _ => ⟨ExitCode.internal, within context error.message⟩

def ofKeyNotation (error : KeyNotationError) : Failure :=
  ⟨ExitCode.usage, within "--detach-keys" error.message⟩

end Failure

end ContainerAttach.CommandLine
