/-!
# The border table of a key sequence

A border of a sequence is a proper prefix of it that is also a suffix.  When a
typed byte does not continue the part of the keys matched so far, the longest
border of that part is the next candidate, and its own longest border the one
after that.  The table holds for every non-empty prefix of the keys the length
of its longest border, so the candidates are found without looking at the input
again.

The table is filled from left to right, each entry from the ones before it by
the same descent that the scanner makes.
-/

namespace ContainerAttach.Keys

/-- The longest candidate, no longer than the given one, that the byte continues; zero
if none is left.  The candidates after the first are found in the table. -/
def narrow (keys : Array UInt8) (borders : Array Nat) (byte : UInt8) (length : Nat) : Nat :=
  if length = 0 then 0
  else if keys[length]? = some byte then length
  else
    let next := borders.getD (length - 1) 0
    if next < length then narrow keys borders byte next else 0
termination_by length
decreasing_by assumption

/-- The table with the entry of the next longer prefix. -/
def extend (keys : Array UInt8) (borders : Array Nat) : Array Nat :=
  match keys[borders.size]? with
  | none => borders
  | some byte =>
    let candidate := narrow keys borders byte (borders.back?.getD 0)
    borders.push (if keys[candidate]? = some byte then candidate + 1 else candidate)

/-- The table grown by the given number of entries. -/
def extendBy (keys : Array UInt8) (borders : Array Nat) : Nat → Array Nat
  | 0 => borders
  | count + 1 => extendBy keys (extend keys borders) count

/-- The border table.  A prefix of one key has no border but the empty one. -/
def borderTable (keys : Array UInt8) : Array Nat :=
  if keys.size = 0 then #[] else extendBy keys #[0] (keys.size - 1)

end ContainerAttach.Keys
