import ContainerAttach.Session.Config
import ContainerAttach.Session.Server
import ContainerAttach.Session.Settlement

/-!
# Streaming

While a session streams, four parties share one connection: the input task, the
output task, the coordinator that settles the session, and the server at the
other end.  Each party acts when it can, and nothing says which of them is the
next.  `Streaming.act?` is what a party does when it is its turn; it does
nothing as long as it has to wait for another one.

A schedule says who has the first turns.  After that `Streaming.drain` gives the
turn to the first party that can use it until none can.  Every turn uses up some
of the work that `Streaming.work` counts, so a drain with that many turns runs
to the end.
-/

namespace ContainerAttach

/-! ## The input task -/

/-- The caller's input in the middle of being read. -/
structure InputSource where
  held : Bytes := []
  steps : List InputStep
  deriving DecidableEq, Repr

/-- What one turn of reading leads to. -/
inductive InputTurn where
  | gives (result : ReadResult) (source : InputSource)
  /-- The wait is over, and the next step comes. -/
  | ready (source : InputSource)
  | crashes
  /-- Nothing can be read yet. -/
  | waits
  deriving DecidableEq, Repr

/-- One turn of reading the input, given how much output has been accepted and whether the
session has returned. -/
def InputSource.turn (source : InputSource) (capacity accepted : Nat) (returned : Bool) :
    InputTurn :=
  match source.held, source.steps with
  | byte :: rest, steps =>
    .gives (.data ((byte :: rest).take capacity)) ⟨(byte :: rest).drop capacity, steps⟩
  | [], [] => .gives (.data []) source
  | [], .read (.data bytes) :: steps =>
    .gives (.data (bytes.take capacity)) ⟨bytes.drop capacity, steps⟩
  | [], .read (.fail cause) :: steps => .gives (.failed cause) ⟨[], steps⟩
  | [], .waitOut count :: steps => if count ≤ accepted then .ready ⟨[], steps⟩ else .waits
  | [], .block :: steps => if returned then .gives (.data []) ⟨[], steps⟩ else .waits
  | [], .crash :: _ => .crashes

/-- The input task. -/
inductive InputTask where
  /-- There is no input, and the task is about to say so. -/
  | idle
  | forwarding (source : InputSource) (scanner : DetachScanner) (written : Nat)
  | ended
  deriving DecidableEq, Repr

def InputTask.start (stdin : Option (List InputStep)) (keys : Bytes) : InputTask :=
  match stdin with
  | none => .idle
  | some steps => .forwarding ⟨[], steps⟩ (.ofKeys keys) 0

/-! ## The state -/

/-- How far the coordinator is. -/
inductive Phase where
  /-- The streams are started, and the caller's hook comes next. -/
  | started
  /-- Waiting for the first completion. -/
  | settling
  /-- Waiting for the output, with the result that stands if it ends well. -/
  | awaiting (otherwise : Except AttachError Unit)
  /-- The result is known, and the socket is about to be shut down. -/
  | finishing (result : Except AttachError Unit)
  | returned (result : Except AttachError Unit)

/-- A connected session and its server. -/
structure Streaming where
  policy : Policy
  postAttach : Option Hook
  socket : Connection
  server : Server
  input : InputTask
  /-- The messages that the socket has taken from the input task. -/
  forwarded : List Bytes := []
  relay : Relay
  relaying : Bool := true
  completions : List Completion := []
  phase : Phase := .started
  /-- Whether the caller's hook has been called. -/
  hooked : Bool := false

/-- Who can act. -/
inductive Party where
  | input
  | server
  | output
  | coordinator
  deriving DecidableEq, Repr

namespace Streaming

/-- The state in which the streams have just been started on a connected socket.  Each task
has a handle of its own. -/
def start (config : AttachConfig) (socket : Connection) (server : Server) : Streaming :=
  { policy :=
      { stopAfterStdinEof := config.stopAfterStdinEof
        stdinConfigured := config.streams.stdin.isSome
        outputConfigured := config.streams.outputs.any }
    postAttach := config.postAttach
    socket := (socket.retain .near).retain .near
    server := server
    input := .start config.streams.stdin config.detachKeys
    relay := ⟨config.streams.outputs, {}⟩ }

/-- The number of bytes that the sinks have accepted. -/
def accepted (state : Streaming) : Nat :=
  state.relay.outputs.acceptedCount

def hasReturned (state : Streaming) : Bool :=
  match state.phase with
  | .returned _ => true
  | _ => false

/-- The result, once the session has returned. -/
def result? (state : Streaming) : Option (Except AttachError Unit) :=
  match state.phase with
  | .returned result => some result
  | _ => none

/-! ## Turns -/

/-- The end of the input task: it reports, and its handle is dropped. -/
def endInput (state : Streaming) (ending : Ending ForwardError Nat) : Streaming :=
  { state with
    input := .ended
    completions := Completion.ofForward state.completions ending
    socket := state.socket.release .near }

/-- Sends what a read has released, if there is anything. -/
def forwardOutput (state : Streaming) (output : Bytes) : Except IoError Nat × Streaming :=
  if output = [] then (.ok 0, state)
  else
    match state.socket.send .near output with
    | (.error cause, socket) => (.error cause, { state with socket := socket })
    | (.ok count, socket) =>
      (.ok count, { state with socket := socket, forwarded := state.forwarded ++ [output] })

def onInput (state : Streaming) (source : InputSource) (written : Nat) (reaction : Reaction) :
    Streaming :=
  match state.forwardOutput reaction.output with
  | (.error cause, state) => state.endInput (.failed (.write cause))
  | (.ok _, state) =>
    let written := written + reaction.output.length
    match reaction.next with
    | .goOn scanner => { state with input := .forwarding source scanner written }
    | .detach => state.endInput (.failed (.detached written))
    | .finish => state.endInput (.done written)
    | .fail cause => state.endInput (.failed (.read cause))

/-- A turn of the input task: one read, and the write that it leads to. -/
def actInput? (state : Streaming) : Option Streaming :=
  match state.input with
  | .ended => none
  | .idle => some (state.endInput (.done 0))
  | .forwarding source scanner written =>
    match source.turn forwardCapacity state.accepted state.hasReturned with
    | .waits => none
    | .crashes => some (state.endInput .crashed)
    | .ready source => some { state with input := .forwarding source scanner written }
    | .gives result source => some (state.onInput source written (scanner.react result))

def onOutput (state : Streaming) (result : ReadResult) : Streaming :=
  match state.relay.onRead result with
  | (relay, none) => { state with relay := relay }
  | (relay, some ending) =>
    { state with
      relay := relay
      relaying := false
      completions := Completion.ofRelay state.completions ending
      socket := state.socket.release .near }

/-- A turn of the output task: one read, and the delivery that it leads to. -/
def actOutput? (state : Streaming) : Option Streaming :=
  if state.relaying then
    match state.socket.receive .near Packet.sizeLimit with
    | (.blocked, _) => none
    | (.failed cause, socket) => some ({ state with socket := socket }.onOutput (.failed cause))
    | (.data bytes, socket) => some ({ state with socket := socket }.onOutput (.data bytes))
  else none

def actServer? (state : Streaming) : Option Streaming :=
  match state.server.act? state.accepted state.socket with
  | none => none
  | some (server, socket) => some { state with server := server, socket := socket }

/-- What the coordinator does after the streams are started. -/
def actHook? (state : Streaming) : Option Streaming :=
  match state.postAttach with
  | none => some { state with phase := .settling }
  | some hook =>
    if hook.waitOut ≤ state.accepted then
      some
        { state with
          hooked := true
          phase :=
            match hook.error with
            | none => .settling
            | some reason => .finishing (.error (.postAttach reason)) }
    else none

def isAbandoned (state : Streaming) : Bool :=
  state.input = .ended && !state.relaying

/-- What the coordinator does when it finds no completion. -/
def onNoCompletion? (state : Streaming) : Option Streaming :=
  if state.isAbandoned then some { state with phase := .finishing (.error .taskLost) } else none

/-- Closes the write direction and decides on the first completion. -/
def onFirst (state : Streaming) (first : Completion) (rest : List Completion) : Streaming :=
  match state.socket.closeWrite .near with
  | (closed, socket) =>
    { state with
      socket := socket
      completions := rest
      phase :=
        match state.policy.onFirst closed first with
        | .settled result => .finishing result
        | .awaitOutput otherwise => .awaiting otherwise }

def actCoordinator? (state : Streaming) : Option Streaming :=
  match state.phase with
  | .started => state.actHook?
  | .settling =>
    match state.completions with
    | [] => state.onNoCompletion?
    | first :: rest => some (state.onFirst first rest)
  | .awaiting otherwise =>
    match state.completions with
    | [] => state.onNoCompletion?
    | next :: rest =>
      some
        { state with
          completions := rest
          phase :=
            match next.settle? otherwise with
            | some result => .finishing result
            | none => .awaiting otherwise }
  | .finishing result =>
    some
      { state with
        socket := (state.socket.shutdown .near).2.release .near
        phase := .returned result }
  | .returned _ => none

/-- What a party does when it has the turn. -/
def act? (state : Streaming) : Party → Option Streaming
  | .input => state.actInput?
  | .server => state.actServer?
  | .output => state.actOutput?
  | .coordinator => state.actCoordinator?

/-! ## Running -/

/-- Gives a party the turn; it is lost on a party that has to wait. -/
def turn (state : Streaming) (party : Party) : Streaming :=
  (state.act? party).getD state

/-- Gives the turn to each party of a schedule. -/
def follow (state : Streaming) (schedule : List Party) : Streaming :=
  schedule.foldl turn state

/-- A turn of the first party that can use it. -/
def next? (state : Streaming) : Option Streaming :=
  [Party.input, .server, .output, .coordinator].findSome? state.act?

/-- So many turns, or as many as can be used. -/
def drain : Nat → Streaming → Streaming
  | 0, state => state
  | turns + 1, state =>
    match state.next? with
    | none => state
    | some next => drain turns next

/-! ## The work left -/

/-- The turns that a step of the input can take, with those of the server that receives
what it leads to. -/
def workOfInput : InputStep → Nat
  | .read (.data bytes) => 2 * (bytes.length + 1)
  | _ => 2

/-- The turns that the rest of an input can take. -/
def workOfInputs : List InputStep → Nat
  | [] => 0
  | step :: steps => workOfInput step + workOfInputs steps

/-- The turns that queued messages can take to be read in pieces. -/
def workOfInbox (inbox : List Bytes) : Nat :=
  inbox.flatten.length + inbox.length

/-- The turns that a step of the server can take, with those of the client that relays what
it sends. -/
def workOfServer : ServerStep → Nat
  | .send packet => packet.bytes.length + 2
  | .sendRaw bytes => bytes.length + 2
  | _ => 1

/-- The turns that the rest of a script can take. -/
def workOfSteps : List ServerStep → Nat
  | [] => 0
  | step :: steps => workOfServer step + workOfSteps steps

def workOfPhase : Phase → Nat
  | .started => 4
  | .settling => 3
  | .awaiting _ => 2
  | .finishing _ => 1
  | .returned _ => 0

/-- A reset that is still to be reported. -/
def workOfReset (reset : Bool) : Nat :=
  if reset then 1 else 0

/-- The turns that the queues and resets of a connection can take. -/
def workOfSocket (socket : Connection) : Nat :=
  workOfInbox socket.near.inbox + socket.far.inbox.length
    + workOfReset socket.near.reset + workOfReset socket.far.reset

/-- The turns that closing the server's end can take, with a reset that it may cause. -/
def workOfClose (isOpen : Bool) : Nat :=
  if isOpen then 2 else 0

def workOfScript (server : Server) : Nat :=
  workOfSteps server.steps + workOfClose server.isOpen

def workOfSource (source : InputSource) : Nat :=
  2 * source.held.length + workOfInputs source.steps

/-- The turns that the end of the output task can take, with its completion and a reset. -/
def workOfRelay (relaying : Bool) : Nat :=
  if relaying then 5 else 0

/-- The turns that the input task can take.  Its end counts for itself, for a last message,
for its completion and for a reset. -/
def workOfTask : InputTask → Nat
  | .idle => 5
  | .forwarding source _ _ => workOfSource source + 5
  | .ended => 0

/-- A bound on the turns that the parties can still use. -/
def work (state : Streaming) : Nat :=
  workOfTask state.input + workOfRelay state.relaying + workOfScript state.server
    + workOfSocket state.socket + state.completions.length + 2 * workOfPhase state.phase

/-- Runs a session to its end: the given turns first, and then as they come. -/
def run (state : Streaming) (schedule : List Party) : Streaming :=
  drain (state.follow schedule).work (state.follow schedule)

end Streaming

end ContainerAttach
