import ContainerAttach.Keys.Scanner
import ContainerAttach.Stream.Sink

/-!
# Forwarding the input

The forwarder copies what the user types to the container until the input ends,
a read or a write fails, or the detach keys are typed.  Each read is scanned for
the keys, and what the scan releases is written before anything else happens;
the keys themselves are never written.  At the end of the input the bytes still
held back turn out to be plain input and are written too.

`DetachScanner.react` is what one read leads to, and `forward` repeats it over a
source and a sink; a session repeats it over the attach socket.
-/

namespace ContainerAttach

/-- Why forwarding stopped before the end of the input. -/
inductive ForwardError where
  /-- The keys were typed, after the given number of bytes had been written. -/
  | detached (written : Nat)
  | read (cause : IoError)
  | write (cause : IoError)
  deriving DecidableEq, Repr

namespace ForwardError

def message : ForwardError → String
  | .detached written => "detach keys matched after " ++ toString written ++ " bytes"
  | .read cause => "read: " ++ cause.text
  | .write cause => "write: " ++ cause.text

/-- The texts of the causes, outermost first. -/
def causes : ForwardError → List String
  | .detached _ => []
  | .read cause => [cause.text]
  | .write cause => [cause.text]

end ForwardError

/-- How forwarding goes on after a read whose output has been written. -/
inductive Continuation where
  | goOn (scanner : DetachScanner)
  | detach
  | finish
  | fail (cause : IoError)
  deriving DecidableEq, Repr

/-- What one read leads to: the bytes to write, and how to go on after them. -/
structure Reaction where
  output : Bytes
  next : Continuation
  deriving DecidableEq, Repr

def DetachScanner.react (scanner : DetachScanner) : ReadResult → Reaction
  | .data [] => ⟨scanner.held, .finish⟩
  | .data chunk =>
    match scanner.scan chunk with
    | ⟨released, scanner, detached⟩ => ⟨released, if detached then .detach else .goOn scanner⟩
  | .failed cause => if cause.isInterrupted then ⟨[], .goOn scanner⟩ else ⟨[], .fail cause⟩

@[simp] theorem DetachScanner.react_end (scanner : DetachScanner) :
    scanner.react (.data []) = ⟨scanner.held, .finish⟩ := rfl

/-- The size of the buffer that the input is read into. -/
def forwardCapacity : Nat := 32768

/-- Copies the source to the sink.  The number of bytes written so far is counted on. -/
def forward (source : Source) (scanner : DetachScanner) (sink : Sink) (written : Nat) :
    Ending ForwardError Nat × Source × Sink :=
  match _hread : source.read forwardCapacity with
  | (result, source) =>
    match _hreact : scanner.react result with
    | ⟨output, next⟩ =>
      match sink.writeAll output with
      | (.crashed, sink) => (.crashed, source, sink)
      | (.failed cause, sink) => (.failed (.write cause), source, sink)
      | (.done (), sink) =>
        match next with
        | .goOn scanner => forward source scanner sink (written + output.length)
        | .detach => (.failed (.detached (written + output.length)), source, sink)
        | .finish => (.done (written + output.length), source, sink)
        | .fail cause => (.failed (.read cause), source, sink)
termination_by source.remaining
decreasing_by
  refine Source.remaining_read_lt _hread ?_
  rintro rfl
  simp at _hreact

end ContainerAttach
