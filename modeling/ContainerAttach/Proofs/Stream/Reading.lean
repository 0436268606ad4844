import ContainerAttach.Stream.Source

/-!
# What a reader gets

A reader that asks until the stream ends or fails gets a list of chunks, and it
asks again when it is interrupted.  `Source.intake` is this list with the way in
which it ends; it depends on the reader only through the capacity of its buffer.

A reader may also stop before that.  `Source.Reads` relates the source before
some reads to the source after them, with the chunks that they gave and without
the interruptions.  What such a reader has got is the beginning of the intake, and
the intake of the source after it is the rest (`Reads.intake_eq`).

`Source.Gives` leaves nothing out: it relates the two sources with what every single
read gave, interruptions, errors and ends included.
-/

namespace ContainerAttach

/-- The chunks that a reader gets until the stream ends or fails, the failure if it is
one, and the source as it is left. -/
structure Intake where
  chunks : List Bytes
  failure : Option IoError
  rest : Source

/-- All bytes of the chunks. -/
def Intake.data (intake : Intake) : Bytes :=
  intake.chunks.flatten

/-- The intake with more chunks in front. -/
def Intake.after (intake : Intake) (chunks : List Bytes) : Intake :=
  { intake with chunks := chunks ++ intake.chunks }

namespace Source

/-- What a reader with a buffer of the given capacity gets from the source. -/
def intake (source : Source) (capacity : Nat) : Intake :=
  match _hread : source.read capacity with
  | (.data [], rest) => ⟨[], none, rest⟩
  | (.data (byte :: bytes), rest) => (rest.intake capacity).after [byte :: bytes]
  | (.failed error, rest) =>
    if error.isInterrupted then rest.intake capacity else ⟨[], some error, rest⟩
termination_by source.remaining
decreasing_by
  · exact remaining_read_lt _hread (by simp)
  · exact remaining_read_lt _hread (by simp)

/-- Reads that give the chunks, none of them empty, with interrupted reads in between. -/
inductive Reads (capacity : Nat) : Source → List Bytes → Source → Prop
  | nil (source : Source) : Reads capacity source [] source
  | chunk {source middle last : Source} {chunk : Bytes} {chunks : List Bytes}
      (read : source.read capacity = (.data chunk, middle)) (ne_nil : chunk ≠ [])
      (reads : Reads capacity middle chunks last) :
      Reads capacity source (chunk :: chunks) last
  | retry {source middle last : Source} {error : IoError} {chunks : List Bytes}
      (read : source.read capacity = (.failed error, middle))
      (interrupted : error.isInterrupted = true) (reads : Reads capacity middle chunks last) :
      Reads capacity source chunks last

/-! ## The intake of each kind of read -/

section Intake

variable {source rest : Source} {capacity : Nat}

theorem intake_of_end (hread : source.read capacity = (.data [], rest)) :
    source.intake capacity = ⟨[], none, rest⟩ := by
  rw [intake]
  split <;> simp_all

theorem intake_of_chunk {chunk : Bytes} (hread : source.read capacity = (.data chunk, rest))
    (hchunk : chunk ≠ []) : source.intake capacity = (rest.intake capacity).after [chunk] := by
  rw [intake]
  split <;> simp_all

theorem intake_of_interrupted {error : IoError}
    (hread : source.read capacity = (.failed error, rest))
    (herror : error.isInterrupted = true) : source.intake capacity = rest.intake capacity := by
  rw [intake]
  split <;> simp_all

theorem intake_of_failed {error : IoError}
    (hread : source.read capacity = (.failed error, rest))
    (herror : error.isInterrupted ≠ true) :
    source.intake capacity = ⟨[], some error, rest⟩ := by
  rw [intake]
  split <;> simp_all

end Intake

/-! ## Reads and the buffer -/

theorem length_read_le {source rest : Source} {capacity : Nat} {bytes : Bytes}
    (hread : source.read capacity = (.data bytes, rest)) : bytes.length ≤ capacity := by
  unfold read at hread
  split at hread
  · obtain ⟨hdata, -⟩ := Prod.mk.inj hread
    obtain rfl := ReadResult.data.inj hdata
    exact List.length_take_le _ _
  · split at hread
    · obtain ⟨hdata, -⟩ := Prod.mk.inj hread
      obtain rfl := ReadResult.data.inj hdata
      exact Nat.zero_le _
    · exact absurd (Prod.mk.inj hread).1 (by simp)
    · obtain ⟨hdata, -⟩ := Prod.mk.inj hread
      obtain rfl := ReadResult.data.inj hdata
      exact List.length_take_le _ _

/-- A buffer keeps its length. -/
theorem length_readInto {source rest : Source} {buffer filled : Bytes}
    {answer : Except IoError Nat} (hread : source.readInto buffer = (answer, filled, rest)) :
    filled.length = buffer.length := by
  unfold readInto at hread
  split at hread
  · obtain ⟨-, hrest⟩ := Prod.mk.inj hread
    obtain ⟨rfl, -⟩ := Prod.mk.inj hrest
    rfl
  · next bytes rest' hsource =>
    obtain ⟨-, hrest⟩ := Prod.mk.inj hread
    obtain ⟨rfl, -⟩ := Prod.mk.inj hrest
    have hle := length_read_le hsource
    simp only [overwrite, List.length_append, List.length_drop]
    omega

/-! ## Reads and the intake -/

variable {capacity : Nat}

/-- What has been read is the beginning of the intake, and the rest is still to come. -/
theorem Reads.intake_eq {source last : Source} {chunks : List Bytes}
    (hreads : Reads capacity source chunks last) :
    source.intake capacity = (last.intake capacity).after chunks := by
  induction hreads with
  | nil source => rfl
  | chunk read ne_nil reads ih => rw [intake_of_chunk read ne_nil, ih]; rfl
  | retry read interrupted reads ih => rw [intake_of_interrupted read interrupted, ih]

/-! ## Every single read -/

/-- Reads that are made one after the other, with what each of them gives. -/
inductive Gives (capacity : Nat) : Source → List ReadResult → Source → Prop
  | nil (source : Source) : Gives capacity source [] source
  | cons {source middle last : Source} {result : ReadResult} {results : List ReadResult}
      (read : source.read capacity = (result, middle))
      (gives : Gives capacity middle results last) :
      Gives capacity source (result :: results) last

theorem Gives.append {source middle last : Source} {results more : List ReadResult}
    (hgives : Gives capacity source results middle) (hmore : Gives capacity middle more last) :
    Gives capacity source (results ++ more) last := by
  induction hgives with
  | nil source => exact hmore
  | cons read gives ih => exact .cons read (ih hmore)

end Source

end ContainerAttach
