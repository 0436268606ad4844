import ContainerAttach.CommandLine.Program

/-!
# The outer layer of the program

This is the only part that acts.  It looks up the variable that chooses the
detach keys, carries the command line out on a machine without sockets, and
writes what that leaves to the standard streams.
-/

namespace ContainerAttach.CommandLine

def writeBytes (stream : IO.FS.Stream) (bytes : Bytes) : IO Unit := do
  stream.write (ByteArray.mk bytes.toArray)
  stream.flush

/-- Carries a command line out and gives the exit code. -/
def Program.perform (words : List String) : IO UInt32 := do
  let keysVariable ← IO.getEnv "ATTACHPRIMS_DETACH_KEYS"
  let outcome := Program.run words { keysVariable := keysVariable } []
  writeBytes (← IO.getStdout) outcome.stdout
  writeBytes (← IO.getStderr) outcome.stderr
  return UInt32.ofNat (outcome.code.getD ExitCode.internal)

end ContainerAttach.CommandLine

def main (words : List String) : IO UInt32 :=
  ContainerAttach.CommandLine.Program.perform words
