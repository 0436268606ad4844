import ContainerAttach.Control.Resize
import ContainerAttach.Session.Streaming
import ContainerAttach.Socket.Network

/-!
# Attaching

A session goes through stages in a fixed order: it is announced to the server,
the socket is connected, the caller's first hook runs, the streams are started,
the caller's second hook runs, and the session is settled.  A stage that fails
ends the session with an error of its own, and nothing of a later stage happens.
Requests to resize the terminal are made beside all this once the session is
announced, and do not touch it.

Starting the streams takes a handle of the socket and a thread for each task.
The operating system may refuse any of these, and the last one when the output
task is running already.  It may refuse a thread to whoever makes the requests to
resize, too: then none are made, and the session goes on.

With passthrough the streams are connected already: the session is announced,
the first hook runs, and that is all.
-/

namespace ContainerAttach

/-- How the server takes the requests of the control plane. -/
structure ControlPlane where
  /-- The error with which the announcement is met, if it is. -/
  announceError : Option String := none
  /-- Which of the resize requests fail, counted from zero. -/
  resizeFails : Nat → Bool := fun _ => false

/-- A client that attaches to containers. -/
structure Client where
  control : ControlPlane := {}
  kind : SocketKind := .packet

/-- Why the streams of a session cannot be started. -/
inductive StartRefusal where
  /-- There is no handle of the socket for a task. -/
  | share (cause : IoError)
  /-- There is no thread for a task. -/
  | thread (task : Task) (cause : IoError)
  deriving DecidableEq, Repr

def StartRefusal.error : StartRefusal → AttachError
  | .share cause => .socket (.io cause)
  | .thread task cause => .spawn task.name cause

/-- What the operating system refuses to a session. -/
structure SessionRefusals where
  /-- A thread for the requests to resize. -/
  notifier : Option IoError := none
  start : Option StartRefusal := none
  deriving DecidableEq, Repr

/-- What a session does, as others see it. -/
inductive SessionEvent where
  | announce (request : AttachRequest Bytes)
  | connect (path : Bytes)
  | preAttach
  /-- The streams are started, or cannot be. -/
  | stream
  | postAttach
  deriving DecidableEq, Repr

/-- A session after everything that it started has ended.  A session that waits for
something that never happens has no result. -/
structure SessionOutcome where
  result? : Option (Except AttachError Unit)
  events : List SessionEvent
  resize : ResizeLog := {}
  /-- The messages that the server received. -/
  received : List Bytes := []
  outputs : Outputs

/-- The result of a hook; a missing hook succeeds. -/
def Hook.run : Option Hook → Except String Unit
  | some ⟨_, some reason⟩ => .error reason
  | _ => .ok ()

/-- The event of a hook, if there is one to be called. -/
def Hook.events (event : SessionEvent) : Option Hook → List SessionEvent
  | some _ => [event]
  | none => []

namespace Streaming

/-- The state in which the client has dropped its socket before any stream was started. -/
def withdrawn (config : AttachConfig) (socket : Connection) (server : Server)
    (result : Except AttachError Unit) : Streaming :=
  { start config socket server with
    socket := socket.release .near
    input := .ended
    relaying := false
    phase := .returned result }

/-- The state in which the output task runs and there is no thread for the input task.  The
socket is about to be shut down. -/
def halted (config : AttachConfig) (socket : Connection) (server : Server)
    (error : AttachError) : Streaming :=
  { start config socket server with
    socket := socket.retain .near
    input := .ended
    phase := .finishing (.error error) }

/-- The first state of a session on its socket.  If the first hook fails, no stream is
started. -/
def opening (config : AttachConfig) (socket : Connection) (server : Server)
    (refused : SessionRefusals := {}) : Streaming :=
  match Hook.run config.preAttach with
  | .error reason => withdrawn config socket server (.error (.preAttach reason))
  | .ok () =>
    match refused.start with
    | none => start config socket server
    | some (.thread .input cause) =>
      halted config socket server (StartRefusal.thread .input cause).error
    | some refusal => withdrawn config socket server (.error refusal.error)

/-- What became of a session, with the events before the second hook. -/
def outcome (state : Streaming) (events : List SessionEvent) (resize : ResizeLog) :
    SessionOutcome :=
  { result? := state.result?
    events := if state.hooked then events ++ [.postAttach] else events
    resize := resize
    received := state.server.received
    outputs := state.relay.outputs }

end Streaming

/-- What a session does on its socket before the second hook. -/
def AttachConfig.openingEvents (config : AttachConfig) : List SessionEvent :=
  Hook.events .preAttach config.preAttach ++
    match Hook.run config.preAttach with
    | .error _ => []
    | .ok () => [.stream]

/-- The sizes that are passed on to the server. -/
def AttachConfig.sizes (config : AttachConfig) (refused : SessionRefusals := {}) :
    List TerminalSize :=
  match refused.notifier with
  | none => config.resize.getD []
  | some _ => []

namespace Client

/-- A session that ends before it has a socket. -/
def unconnected (config : AttachConfig) (result : Except AttachError Unit)
    (events : List SessionEvent) (resize : ResizeLog) : SessionOutcome :=
  { result? := some result
    events := events
    resize := resize
    outputs := config.streams.outputs }

def resizeLog (client : Client) (config : AttachConfig) (refused : SessionRefusals := {}) :
    ResizeLog :=
  .ofSizes config.id client.control.resizeFails (config.sizes refused)

/-- The stages of a session on a connected socket. -/
def stream (config : AttachConfig) (socket : Connection) (server : Server)
    (events : List SessionEvent) (resize : ResizeLog) (schedule : List Party)
    (refused : SessionRefusals := {}) : SessionOutcome :=
  ((Streaming.opening config socket server refused).run schedule).outcome
    (events ++ config.openingEvents) resize

/-- The stages of a session that has been announced.  The server takes the far end of the
socket. -/
def attachAnnounced (client : Client) (net : Network) (config : AttachConfig) (server : Server)
    (schedule : List Party) (refused : SessionRefusals := {}) : SessionOutcome :=
  if config.passthrough then
    unconnected config ((Hook.run config.preAttach).mapError .preAttach)
      (Hook.events .preAttach config.preAttach) {}
  else
    let resize := client.resizeLog config refused
    match net.connect config.socketPath client.kind with
    | (.error cause, _) =>
      unconnected config (.error (.connect config.socketPath cause))
        [.connect config.socketPath] resize
    | (.ok handle, net) =>
      stream config ((net.connection? handle).getD { kind := client.kind }) server
        [.connect config.socketPath] resize schedule refused

/-- All stages of a session. -/
def attach (client : Client) (net : Network) (config : AttachConfig) (server : Server)
    (schedule : List Party) (refused : SessionRefusals := {}) : SessionOutcome :=
  match client.control.announceError with
  | some reason =>
    unconnected config (.error (.announce config.id reason)) [.announce config.request] {}
  | none =>
    let outcome := client.attachAnnounced net config server schedule refused
    { outcome with events := .announce config.request :: outcome.events }

end Client

end ContainerAttach
