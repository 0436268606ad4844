import ContainerAttach.Bytes
import ContainerAttach.Keys.Border
import ContainerAttach.Stream.Source

/-!
# The detach scanner

The scanner watches what the user types for the detach keys.  It holds back the
bytes that may be the start of the keys and releases everything else in order.
What it holds back is always a prefix of the keys, so its length is all that has
to be remembered, and the keys are found however the input is cut into chunks.
Without keys it releases everything.
-/

namespace ContainerAttach

/-- A scanner that holds back the first `matched` keys. -/
structure DetachScanner where
  keys : Array UInt8
  borders : Array Nat
  matched : Nat
  deriving DecidableEq, Repr

/-- What a chunk of input does: the bytes it releases, the scanner after it, and whether
it completed the keys. -/
structure Scan where
  released : Bytes
  scanner : DetachScanner
  detached : Bool
  deriving DecidableEq, Repr

namespace DetachScanner

/-- A scanner that has seen nothing. -/
def ofKeys (keys : Bytes) : DetachScanner :=
  { keys := keys.toArray, borders := Keys.borderTable keys.toArray, matched := 0 }

def hasKeys (scanner : DetachScanner) : Bool :=
  scanner.keys.size ≠ 0

/-- The bytes held back. -/
def held (scanner : DetachScanner) : Bytes :=
  (scanner.keys.extract 0 scanner.matched).toList

/-- Gives up the bytes held back. -/
def giveUp (scanner : DetachScanner) : Bytes × DetachScanner :=
  (scanner.held, { scanner with matched := 0 })

/-- Scans byte by byte, with the released bytes collected in front.  The held-back part
shrinks to the candidate that the byte continues, and its head is released. -/
def scanFrom (scanner : DetachScanner) (released : Array UInt8) :
    Bytes → Array UInt8 × DetachScanner × Bool
  | [] => (released, scanner, false)
  | byte :: rest =>
    let candidate := Keys.narrow scanner.keys scanner.borders byte scanner.matched
    let released := released ++ scanner.keys.extract 0 (scanner.matched - candidate)
    if scanner.keys[candidate]? = some byte then
      if candidate + 1 = scanner.keys.size then (released, { scanner with matched := 0 }, true)
      else scanFrom { scanner with matched := candidate + 1 } released rest
    else scanFrom { scanner with matched := candidate } (released.push byte) rest

/-- Scans a chunk.  Bytes after the keys are dropped. -/
def scan (scanner : DetachScanner) (chunk : Bytes) : Scan :=
  if scanner.hasKeys then
    match scanner.scanFrom #[] chunk with
    | (released, scanner, detached) => ⟨released.toList, scanner, detached⟩
  else ⟨chunk, scanner, false⟩

end DetachScanner

end ContainerAttach
