import ContainerAttach.Bytes
import ContainerAttach.IoError
import ContainerAttach.Stream.Ending

/-!
# Sinks

A sink is a destination of output together with everything that was done to it.
Its scripts say how it answers the next writes and flushes; past their end it
accepts what its buffering lets it accept.  Each write leaves a record of the
length offered and of the bytes accepted, and `Sink.data` is all that was
accepted, in order.

A single write may accept less than it was offered.  `Sink.writeAll` repeats
writes until nothing is left, and `Sink.offer` repeats one write only as long
as it is interrupted.
-/

namespace ContainerAttach

/-- How a sink answers one write. -/
inductive WriteStep where
  | all
  | atMost (count : Nat)
  | fail (error : IoError)
  | crash
  deriving DecidableEq, Repr

/-- How many bytes a sink accepts in one write when nothing is in its way. -/
inductive Buffering where
  /-- Every write is accepted whole. -/
  | none
  /-- Complete lines pass through; an incomplete last line is kept back if it is
  shorter than the capacity, and left to the next write otherwise. -/
  | line (capacity : Nat)
  deriving DecidableEq, Repr

/-- The bytes after the last line feed, or nothing if there is no line feed. -/
def lastLine? (bytes : Bytes) : Option Bytes :=
  if bytes.contains 10 then some (bytes.reverse.takeWhile (· != 10)).reverse else none

/-- The number of offered bytes that an unscripted write accepts. -/
def Buffering.accepts : Buffering → Bytes → Nat
  | .none, bytes => bytes.length
  | .line capacity, bytes =>
    match lastLine? bytes with
    | some rest => if capacity ≤ rest.length then bytes.length - rest.length else bytes.length
    | .none => bytes.length

/-- What one write was offered and what of it was accepted. -/
structure WriteRecord where
  offered : Nat
  accepted : Bytes
  deriving DecidableEq, Repr

/-- A destination of output, its script and its history. -/
structure Sink where
  script : List WriteStep := []
  flushScript : List (Option IoError) := []
  buffering : Buffering := .none
  writes : List WriteRecord := []
  flushes : Nat := 0
  deriving DecidableEq, Repr

/-- The answer to one write. -/
inductive WriteResult where
  | accepted (count : Nat)
  | failed (error : IoError)
  | crashed
  deriving DecidableEq, Repr

namespace Sink

/-- All bytes accepted so far, in order. -/
def data (sink : Sink) : Bytes :=
  sink.writes.flatMap WriteRecord.accepted

def acceptedCount (sink : Sink) : Nat :=
  sink.data.length

def log (sink : Sink) (bytes : Bytes) (count : Nat) : Sink :=
  { sink with writes := sink.writes ++ [⟨bytes.length, bytes.take count⟩] }

/-- The answer that a script step gives to a write. -/
def answer (sink : Sink) (bytes : Bytes) : WriteStep → WriteResult × Sink
  | .all =>
    (.accepted (sink.buffering.accepts bytes), sink.log bytes (sink.buffering.accepts bytes))
  | .atMost count => (.accepted (min count bytes.length), sink.log bytes count)
  | .fail error => (.failed error, sink.log bytes 0)
  | .crash => (.crashed, sink.log bytes 0)

def write (sink : Sink) (bytes : Bytes) : WriteResult × Sink :=
  match sink.script with
  | [] => sink.answer bytes .all
  | step :: script => { sink with script := script }.answer bytes step

def flush (sink : Sink) : Option IoError × Sink :=
  match sink.flushScript with
  | [] => (none, { sink with flushes := sink.flushes + 1 })
  | answer :: script => (answer, { sink with flushScript := script, flushes := sink.flushes + 1 })

@[simp] theorem script_log (sink : Sink) (bytes : Bytes) (count : Nat) :
    (sink.log bytes count).script = sink.script := rfl

/-- A write takes at most the head of the script. -/
theorem length_script_write_le (sink : Sink) (bytes : Bytes) :
    (sink.write bytes).2.script.length ≤ sink.script.length := by
  unfold write
  split
  · next h => simp [answer, h]
  · next step script h => cases step <;> simp [answer, h]

/-- A failing write takes a step of the script. -/
theorem length_script_lt_of_failed {sink rest : Sink} {bytes : Bytes} {error : IoError}
    (hwrite : sink.write bytes = (.failed error, rest)) :
    rest.script.length < sink.script.length := by
  unfold write at hwrite
  split at hwrite
  · simp [answer] at hwrite
  · next step script h =>
    cases step <;> simp [answer] at hwrite
    rw [← hwrite.2, h]
    simp

/-- One write, made again as long as it is interrupted. -/
def offer (sink : Sink) (bytes : Bytes) : WriteResult × Sink :=
  match _hwrite : sink.write bytes with
  | (.failed error, rest) => if error.isInterrupted then rest.offer bytes else (.failed error, rest)
  | answer => answer
termination_by sink.script.length
decreasing_by exact length_script_lt_of_failed _hwrite

/-- The error of a write that accepts nothing of something. -/
def nothingAccepted : IoError :=
  .custom .writeZero "failed to write whole buffer"

/-- Writes, repeated until everything is accepted.  Nothing is written for no bytes. -/
def writeAll (sink : Sink) (bytes : Bytes) : Ending IoError Unit × Sink :=
  if _hbytes : bytes = [] then (.done (), sink)
  else
    match _hwrite : sink.write bytes with
    | (.accepted 0, rest) => (.failed nothingAccepted, rest)
    | (.accepted (count + 1), rest) => rest.writeAll (bytes.drop (count + 1))
    | (.failed error, rest) =>
      if error.isInterrupted then rest.writeAll bytes else (.failed error, rest)
    | (.crashed, rest) => (.crashed, rest)
termination_by bytes.length + sink.script.length
decreasing_by
  · have hle := length_script_write_le sink bytes
    rw [_hwrite] at hle
    have hpos := List.length_pos_iff.mpr _hbytes
    simp only [List.length_drop]
    simp only at hle
    omega
  · have := length_script_lt_of_failed _hwrite
    omega

end Sink

end ContainerAttach
