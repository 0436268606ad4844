import ContainerAttach.CommandLine.Exit
import ContainerAttach.CommandLine.Invocation
import ContainerAttach.Session.Attach

/-!
# The program

The program reads its command line and carries the command out.  `attach` runs a
session between its own standard streams and the socket, and turns the result
into an exit code; detaching is a success that is told to the user.  Its standard
output is buffered by lines, its standard error is not buffered.

What the user is told goes to the standard error behind what the container has
put out there.  A program whose standard error does not take that line panics.

Help and usage texts are not described here, nor are log lines and the report of
a panic.
-/

namespace ContainerAttach.CommandLine

/-- What a run of the program finds around it. -/
structure World where
  /-- The variable that chooses the detach keys. -/
  keysVariable : Option String := none
  network : Network := {}
  server : Server := {}
  stdin : List InputStep := []

/-- What a run of the program leaves.  A run that waits for something that never happens has
no exit code. -/
structure ProgramOutcome where
  code : Option Nat
  stdout : Bytes := []
  stderr : Bytes := []
  received : List Bytes := []
  deriving DecidableEq, Repr

namespace Program

def name : String := "attachprims"

def version : String := "0.1.0"

/-- The capacity of the buffer of the standard output. -/
def lineCapacity : Nat := 1024

/-- A line of text. -/
def lineOf (text : String) : Bytes :=
  Bytes.ofText (text ++ "\n")

def versionLine : Bytes :=
  lineOf (name ++ " " ++ version)

/-- Everything that is known about how the program was built. -/
def provenance : List (String × String) :=
  [("name", name), ("version", version), ("build_target", "x86_64-unknown-linux-gnu"),
   ("target_os", "linux"), ("target_arch", "x86_64"), ("git_hash", "unknown"),
   ("features", "session=true, cli=true")]

def versionOutput (extended : Bool) : Bytes :=
  if extended then provenance.flatMap fun (field, value) => lineOf (field ++ ": " ++ value)
  else versionLine

/-- The identifier of a container for which none was given: sockets usually lie in a
directory of the container's name.  The name is taken as the text that it is shown as. -/
def idOfPath (path : Bytes) : String :=
  match Path.directoryName? path with
  | some name => Text.lossy name
  | none => "container"

end Program

/-- The name of the container for the user. -/
def AttachArguments.container (arguments : AttachArguments) : String :=
  arguments.id.getD (Program.idOfPath arguments.path)

/-- What a run of `attach` finds on its own side: what takes its output, the sizes that it is told
of, and what the operating system refuses to its session. -/
structure Terminal where
  stdout : Sink := { buffering := .line Program.lineCapacity }
  stderr : Sink := {}
  sizes : Option (List TerminalSize) := none
  refused : SessionRefusals := {}

def Terminal.config (terminal : Terminal) (arguments : AttachArguments) (keys : Bytes)
    (stdin : List InputStep) : AttachConfig :=
  { id := arguments.container
    socketPath := arguments.path
    tty := arguments.tty
    stopAfterStdinEof := arguments.stopAfterStdinEof
    resize := terminal.sizes
    streams :=
      { stdin := if arguments.noStdin then none else some stdin
        stdout := some terminal.stdout
        stderr := some terminal.stderr }
    detachKeys := keys }

/-- The session of a run.  Without keys there is none. -/
def Terminal.session (terminal : Terminal) (arguments : AttachArguments) (world : World)
    (schedule : List Party) : Except KeyNotationError SessionOutcome :=
  (KeyNotation.parse arguments.detachKeys).map fun keys =>
    ({} : Client).attach world.network (terminal.config arguments keys world.stdin) world.server
      schedule terminal.refused

namespace Program

/-- What was accepted by a sink, if there is one. -/
def written (sink : Option Sink) : Bytes :=
  sink.elim [] Sink.data

/-- The parts in which a failure is printed. -/
def failureParts (failure : Failure) : List String :=
  ["error: ", failure.message, "\n"]

/-- The parts in which the user is told that the session was detached. -/
def noticeParts (id : String) : List String :=
  ["detached from container ", id, "\n"]

/-- The exit code of a session, and what is told to the user. -/
def conclude (id : String) : Except AttachError Unit → Nat × List String
  | .ok () => (ExitCode.success, [])
  | .error error =>
    if error.isDetached then (ExitCode.success, noticeParts id)
    else
      let failure := Failure.ofAttach "attach failed" error
      (failure.code, failureParts failure)

/-- Prints the parts of a line, up to the first that is not written whole. -/
def print (sink : Sink) : List String → Ending IoError Unit × Sink
  | [] => (.done (), sink)
  | part :: parts =>
    match sink.writeAll (Bytes.ofText part) with
    | (.done (), sink) => print sink parts
    | (.failed cause, sink) => (.failed cause, sink)
    | (.crashed, sink) => (.crashed, sink)

/-- Tells the user something and ends with a code, which is another one if that fails. -/
def tell (stderr : Sink) (told : Nat × List String) : Nat × Sink :=
  match print stderr told.2 with
  | (.done (), stderr) => (told.1, stderr)
  | (.failed _, stderr) => (ExitCode.panicked, stderr)
  | (.crashed, stderr) => (ExitCode.panicked, stderr)

/-- What a run leaves when its session is over.  The standard error is a stream of the session
until then. -/
def finish (id : String) (session : SessionOutcome) : ProgramOutcome :=
  let outcome : ProgramOutcome :=
    { code := none
      stdout := written session.outputs.stdout
      stderr := written session.outputs.stderr
      received := session.received }
  match session.result? with
  | none => outcome
  | some result =>
    match tell (session.outputs.stderr.getD {}) (conclude id result) with
    | (code, stderr) => { outcome with code := some code, stderr := stderr.data }

def attach (arguments : AttachArguments) (world : World) (schedule : List Party)
    (terminal : Terminal := {}) : ProgramOutcome :=
  match terminal.session arguments world schedule with
  | .error error =>
    let failure := Failure.ofKeyNotation error
    match tell terminal.stderr (failure.code, failureParts failure) with
    | (code, stderr) =>
      { code := some code, stdout := terminal.stdout.data, stderr := stderr.data }
  | .ok session => finish arguments.container session

def run (words : List String) (world : World) (schedule : List Party)
    (terminal : Terminal := {}) : ProgramOutcome :=
  match Invocation.parse words world.keysVariable with
  | .error error =>
    { code := some error.exitCode
      stdout := if error = .versionWanted then versionLine else [] }
  | .ok invocation =>
    match invocation.command with
    | .version extended => { code := some ExitCode.success, stdout := versionOutput extended }
    | .attach arguments => attach arguments world schedule terminal

end Program

end ContainerAttach.CommandLine
