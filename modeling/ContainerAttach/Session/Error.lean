import ContainerAttach.Packet
import ContainerAttach.Socket.Error
import ContainerAttach.Input.Forward

/-!
# Why a session ends badly

Each stage of a session has its own error, which names the stage and keeps what
went wrong inside it.  Detaching is among them, because it ends a session before
the container's output does, although it is no failure.
-/

namespace ContainerAttach

/-- The failure to open a socket, without the path, for a message that names the path
already. -/
def SocketError.reason : SocketError → String
  | .connect _ cause => cause.text
  | .pathTooLong _ length limit => lengthText length limit
  | error => error.message

/-- What ends a session other than success. -/
inductive AttachError where
  /-- The server did not accept the announcement. -/
  | announce (container reason : String)
  | connect (path : Bytes) (cause : SocketError)
  | preAttach (reason : String)
  | postAttach (reason : String)
  /-- The connected socket could not be shared between the tasks. -/
  | socket (cause : SocketError)
  | spawn (task : String) (cause : IoError)
  | output (cause : PacketError)
  | stdin (cause : ForwardError)
  | closeWrite (cause : SocketError)
  /-- The user typed the detach keys. -/
  | detached
  | taskTornDown (task : String)
  /-- Every task is gone and none has reported. -/
  | taskLost
  deriving DecidableEq, Repr

namespace AttachError

def message : AttachError → String
  | .announce container reason =>
    "announce attach for container " ++ container ++ ": " ++ reason
  | .connect path cause =>
    "failed to connect to container's attach socket: " ++ Text.lossy path ++ ": " ++ cause.reason
  | .preAttach reason => "run pre attach hook: " ++ reason
  | .postAttach reason => "run post attach hook: " ++ reason
  | .socket cause => "attach socket: " ++ cause.message
  | .spawn task cause => "spawn " ++ task ++ " task: " ++ cause.text
  | .output cause => "redirect response to output streams: " ++ cause.message
  | .stdin cause => "forward stdin: " ++ cause.message
  | .closeWrite cause => "close write half of attach socket: " ++ cause.message
  | .detached => "detached from container"
  | .taskTornDown task => task ++ " task panicked"
  | .taskLost => "attach tasks exited without reporting"

/-- The texts of the causes, outermost first. -/
def causes : AttachError → List String
  | .announce _ reason | .preAttach reason | .postAttach reason => [reason]
  | .connect _ cause | .socket cause | .closeWrite cause => cause.message :: cause.causes
  | .spawn _ cause => [cause.text]
  | .output cause => cause.message :: cause.causes
  | .stdin cause => cause.message :: cause.causes
  | .detached | .taskTornDown _ | .taskLost => []

def isDetached : AttachError → Bool
  | .detached => true
  | _ => false

end AttachError

end ContainerAttach
