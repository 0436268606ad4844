import ContainerAttach.Session.Completion

/-!
# How completions settle a session

The first completion decides.  If the output ends first, the output's result is
the result of the session.  If the input ends first, the session may stop there,
may report that the user detached, or may go on until the output ends too; an
output that fails then matters more than an input that failed.

The write direction of the socket is closed once, as soon as the first completion
is known.  Only where the output has ended well is a failure to close it a
failure of the session.
-/

namespace ContainerAttach

/-- What the session was asked to do, as far as settling it depends on that. -/
structure Policy where
  /-- The session ends when the input does. -/
  stopAfterStdinEof : Bool := false
  stdinConfigured : Bool := false
  outputConfigured : Bool := false
  deriving DecidableEq, Repr

/-- What the first completion leads to. -/
inductive Decision where
  | settled (result : Except AttachError Unit)
  /-- The output decides; if it ends well, the given result stands. -/
  | awaitOutput (otherwise : Except AttachError Unit)

namespace Policy

/-- The decision on the first completion, given how closing the write direction went. -/
def onFirst (policy : Policy) (closed : Except SocketError Unit) : Completion → Decision
  | .output (.ok _) => .settled (closed.mapError .closeWrite)
  | .output (.error error) => .settled (.error error)
  | .input result =>
    if policy.stopAfterStdinEof && policy.stdinConfigured then .settled (.ok ())
    else
      match result with
      | .error .detached => .settled (.error .detached)
      | result =>
        let forwarded := result.map fun _ => ()
        if policy.outputConfigured then .awaitOutput forwarded else .settled forwarded

end Policy

/-- The result that a later completion settles, if it is the output's. -/
def Completion.settle? (otherwise : Except AttachError Unit) :
    Completion → Option (Except AttachError Unit)
  | .input _ => none
  | .output (.error error) => some (.error error)
  | .output (.ok _) => some otherwise

/-- Waits on a queue for the output.  The rest of the queue is left. -/
def awaitOutput (otherwise : Except AttachError Unit) :
    List Completion → Except AttachError Unit × List Completion
  | [] => (.error .taskLost, [])
  | completion :: rest =>
    match completion.settle? otherwise with
    | some result => (result, rest)
    | none => awaitOutput otherwise rest

/-- A settled session: its result, the socket, and the completions nobody looked at. -/
structure Settlement (σ : Type) where
  result : Except AttachError Unit
  socket : σ
  left : List Completion

/-- Settles a session from the completions that its tasks have left on the queue. -/
def settle {σ : Type} (closeWrite : σ → Except SocketError Unit × σ) (policy : Policy)
    (socket : σ) : List Completion → Settlement σ
  | [] => ⟨.error .taskLost, socket, []⟩
  | first :: rest =>
    match closeWrite socket with
    | (closed, socket) =>
      match policy.onFirst closed first with
      | .settled result => ⟨result, socket, rest⟩
      | .awaitOutput otherwise =>
        match ContainerAttach.awaitOutput otherwise rest with
        | (result, left) => ⟨result, socket, left⟩

end ContainerAttach
