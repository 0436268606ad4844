import ContainerAttach.Control.Request
import ContainerAttach.Stream.Sink
import ContainerAttach.Stream.Source
import ContainerAttach.Output.Relay
import ContainerAttach.Text.Quoted
import ContainerAttach.Text.Record

/-!
# Session settings

Everything that a caller decides about a session: which container and which
socket, the streams to connect, the keys that detach, and what is to be done
before and after the streams are started.

The diagnostic form of the settings shows what identifies the session and which
of the optional parts are there.  It shows how many detach keys there are, and
not which.
-/

namespace ContainerAttach

/-- A step of the caller's input, which may wait for the session. -/
inductive InputStep where
  | read (step : ReadStep)
  /-- Wait until both sinks together have accepted so many bytes. -/
  | waitOut (count : Nat)
  /-- Wait until the session has returned, and end. -/
  | block
  /-- Tear the reading task down. -/
  | crash
  deriving DecidableEq, Repr

/-- An action of the caller: it may wait for output, and it may fail. -/
structure Hook where
  waitOut : Nat := 0
  error : Option String := none
  deriving DecidableEq, Repr

/-- The caller's streams; a missing one is not connected. -/
structure AttachStreams where
  stdin : Option (List InputStep) := none
  stdout : Option Sink := none
  stderr : Option Sink := none
  deriving DecidableEq, Repr

def AttachStreams.outputs (streams : AttachStreams) : Outputs :=
  ⟨streams.stdout, streams.stderr⟩

/-- The settings of one session. -/
structure AttachConfig where
  id : String
  socketPath : Bytes
  execSession : Option String := none
  tty : Bool := false
  /-- End the session when the input ends, if there is any. -/
  stopAfterStdinEof : Bool := false
  /-- The streams are connected already, and the session is only announced. -/
  passthrough : Bool := false
  resize : Option (List TerminalSize) := none
  streams : AttachStreams := {}
  preAttach : Option Hook := none
  postAttach : Option Hook := none
  detachKeys : Bytes := []
  deriving DecidableEq, Repr

namespace AttachConfig

def request (config : AttachConfig) : AttachRequest Bytes :=
  ⟨config.id, config.socketPath, config.execSession⟩

open Text in
def shown (config : AttachConfig) : Shown :=
  .record "AttachConfig" <| Shown.fieldsOf
    [("id", .atom (quote config.id)),
     ("socket_path", .atom (quoteBytes config.socketPath)),
     ("exec_session", .ofOption (config.execSession.map quote)),
     ("tty", .ofBool config.tty),
     ("stop_after_stdin_eof", .ofBool config.stopAfterStdinEof),
     ("passthrough", .ofBool config.passthrough),
     ("resize", .ofBool config.resize.isSome),
     ("streams",
       .record "AttachStreams" <| Shown.fieldsOf
         [("stdin", .ofBool config.streams.stdin.isSome),
          ("stdout", .ofBool config.streams.stdout.isSome),
          ("stderr", .ofBool config.streams.stderr.isSome)]),
     ("pre_attach", .ofBool config.preAttach.isSome),
     ("post_attach", .ofBool config.postAttach.isSome),
     ("detach_keys", .atom ("<" ++ toString config.detachKeys.length ++ " bytes>"))]

def debugLine (config : AttachConfig) : String :=
  config.shown.line

/-- The diagnostic form with a line for each field. -/
def debugTall (config : AttachConfig) : String :=
  config.shown.tall 0

end AttachConfig

end ContainerAttach
