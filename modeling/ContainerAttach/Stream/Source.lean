import ContainerAttach.Bytes
import ContainerAttach.IoError

/-!
# Sources

A source is what a reader finds when it asks again and again: the data, errors
and ends that a stream has in store, one step per request.  A packet source
gives one step per read and drops what the reader has no room for.  A stream
source keeps what did not fit and gives it to the next reads.  Past its last
step a source is at its end for good.

The measure `Source.remaining` goes down with every read that is not an end of
stream, which is why reading loops stop.
-/

namespace ContainerAttach

/-- What one read gives.  Data without bytes is the end of the stream. -/
inductive ReadResult where
  | data (bytes : Bytes)
  | failed (error : IoError)
  deriving DecidableEq, Repr

/-- One step of a source. -/
inductive ReadStep where
  | data (bytes : Bytes)
  | fail (error : IoError)
  deriving DecidableEq, Repr

/-- Whether the reader's buffer cuts a step off or cuts it up. -/
inductive Framing where
  | packet
  | stream
  deriving DecidableEq, Repr

/-- A source: the rest of a step already begun, and the steps not yet taken. -/
structure Source where
  framing : Framing
  held : Bytes := []
  steps : List ReadStep
  deriving DecidableEq, Repr

namespace Source

/-- One read into a buffer of the given capacity. -/
def read (source : Source) (capacity : Nat) : ReadResult × Source :=
  match source.held with
  | byte :: rest =>
    (.data ((byte :: rest).take capacity), { source with held := (byte :: rest).drop capacity })
  | [] =>
    match source.steps with
    | [] => (.data [], source)
    | .fail error :: steps => (.failed error, { source with steps := steps })
    | .data bytes :: steps =>
      (.data (bytes.take capacity),
        { source with
          held := match source.framing with
            | .packet => []
            | .stream => bytes.drop capacity
          steps := steps })

/-- How much a step can still make a reader ask. -/
def ReadStep.weight : ReadStep → Nat
  | .data bytes => bytes.length + 1
  | .fail _ => 1

/-- How much a sequence of steps can still make a reader ask. -/
def weights : List ReadStep → Nat
  | [] => 0
  | step :: steps => ReadStep.weight step + weights steps

/-- A bound on the reads that are not an end of stream. -/
def remaining (source : Source) : Nat :=
  source.held.length + weights source.steps

/-- A read that is not an end of stream uses the source up. -/
theorem remaining_read_lt {source rest : Source} {capacity : Nat} {result : ReadResult}
    (hread : source.read capacity = (result, rest)) (hresult : result ≠ .data []) :
    rest.remaining < source.remaining := by
  obtain ⟨framing, held, steps⟩ := source
  unfold read at hread
  cases held with
  | cons byte tail =>
    simp only [Prod.mk.injEq] at hread
    obtain ⟨rfl, rfl⟩ := hread
    have hcapacity : capacity ≠ 0 := by
      rintro rfl
      exact hresult rfl
    simp only [remaining, List.length_drop, List.length_cons]
    omega
  | nil =>
    cases steps with
    | nil =>
      simp only [Prod.mk.injEq] at hread
      exact absurd hread.1.symm hresult
    | cons step steps =>
      cases step with
      | fail error =>
        simp only [Prod.mk.injEq] at hread
        obtain ⟨-, rfl⟩ := hread
        simp [remaining, weights, ReadStep.weight]
      | data bytes =>
        simp only [Prod.mk.injEq] at hread
        obtain ⟨-, rfl⟩ := hread
        simp only [remaining, weights, ReadStep.weight]
        cases framing with
        | packet => simp only [List.length_nil]; omega
        | stream => simp only [List.length_nil, List.length_drop]; omega

/-! ## Reading into a buffer

A reader that keeps one buffer for all its reads finds the new data at the front of it, and
behind the data what was there before. -/

/-- The buffer after data has been written to its front. -/
def overwrite (buffer data : Bytes) : Bytes :=
  data ++ buffer.drop data.length

/-- One read into a buffer: the number of bytes or an error, and the buffer after it. -/
def readInto (source : Source) (buffer : Bytes) : Except IoError Nat × Bytes × Source :=
  match source.read buffer.length with
  | (.failed error, source) => (.error error, buffer, source)
  | (.data bytes, source) => (.ok bytes.length, overwrite buffer bytes, source)

/-- What a reader takes from its buffer after a read. -/
def resultIn (buffer : Bytes) : Except IoError Nat → ReadResult
  | .error error => .failed error
  | .ok count => .data (buffer.take count)

/-- What is taken from the buffer is what was read, whatever was in the buffer before. -/
theorem resultIn_readInto {source rest : Source} {buffer after : Bytes}
    {answer : Except IoError Nat} (hread : source.readInto buffer = (answer, after, rest)) :
    source.read buffer.length = (resultIn after answer, rest) := by
  unfold readInto at hread
  split at hread <;> next hsource =>
    simp only [Prod.mk.injEq] at hread
    obtain ⟨rfl, rfl, rfl⟩ := hread
    simp [hsource, resultIn, overwrite]

end Source

end ContainerAttach
