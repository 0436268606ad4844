import ContainerAttach.Output.Relay
import ContainerAttach.Session.Error

/-!
# Completions

A session runs two tasks: one forwards the input, the other relays the output.
Each reports once how it ended, on a queue that both share.  A task that is torn
down before it reports is reported by its reporter as it goes, so every task
leaves exactly one completion on the queue, whatever happens to it.
-/

namespace ContainerAttach

/-- The two tasks of a session. -/
inductive Task where
  | input
  | output
  deriving DecidableEq, Repr

def Task.name : Task → String
  | .input => "stdin forwarder"
  | .output => "output demuxer"

/-- How a task ended: with the number of bytes forwarded, or with what was relayed. -/
inductive Completion where
  | input (result : Except AttachError Nat)
  | output (result : Except AttachError Tally)

namespace Completion

def task : Completion → Task
  | .input _ => .input
  | .output _ => .output

end Completion

/-- The completion of a task that was torn down. -/
def Completion.tornDown (task : Task) : Completion :=
  match task with
  | .input => .input (.error (.taskTornDown task.name))
  | .output => .output (.error (.taskTornDown task.name))

/-- What a task reports through.  An armed reporter has not reported yet. -/
structure Reporter where
  task : Task
  armed : Bool := true
  deriving DecidableEq, Repr

namespace Reporter

/-- Puts a completion on the queue, unless one has been put there already. -/
def send (reporter : Reporter) (completion : Completion) (queue : List Completion) :
    Reporter × List Completion :=
  if reporter.armed then ({ reporter with armed := false }, queue ++ [completion])
  else (reporter, queue)

/-- Lets go of a reporter.  If it has not reported, the task was torn down. -/
def drop (reporter : Reporter) (queue : List Completion) : List Completion :=
  (reporter.send (.tornDown reporter.task) queue).2

/-- Reports a completion and lets go of the reporter. -/
def report (reporter : Reporter) (completion : Completion) (queue : List Completion) :
    List Completion :=
  match reporter.send completion queue with
  | (reporter, queue) => reporter.drop queue

end Reporter

/-! ## Completions from endings -/

/-- What the input task puts on the queue for the way in which forwarding ended. -/
def Completion.ofForward (queue : List Completion) : Ending ForwardError Nat → List Completion
  | .done written => (Reporter.mk .input true).report (.input (.ok written)) queue
  | .failed (.detached _) => (Reporter.mk .input true).report (.input (.error .detached)) queue
  | .failed cause => (Reporter.mk .input true).report (.input (.error (.stdin cause))) queue
  | .crashed => (Reporter.mk .input true).drop queue

/-- What the output task puts on the queue for the way in which relaying ended. -/
def Completion.ofRelay (queue : List Completion) : Ending PacketError Tally → List Completion
  | .done tally => (Reporter.mk .output true).report (.output (.ok tally)) queue
  | .failed cause => (Reporter.mk .output true).report (.output (.error (.output cause))) queue
  | .crashed => (Reporter.mk .output true).drop queue

end ContainerAttach
