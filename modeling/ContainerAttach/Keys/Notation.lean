import ContainerAttach.Bytes
import ContainerAttach.Text.Quoted

/-!
# The notation for detach keys

The keys that detach a terminal are written with commas between them, for
example `ctrl-p,ctrl-q`.  A key is a single ASCII character, which stands for
itself, or `ctrl-` followed by a letter of either case or by one of
`@ [ \ ] ^ _`, which stands for the control code typed with it.  The empty text
has no keys and turns detaching off.  A comma cannot be a key.
-/

namespace ContainerAttach

/-- A text that is no key notation: the whole of it, and its first bad element. -/
structure KeyNotationError where
  input : String
  key : String
  deriving DecidableEq, Repr

def KeyNotationError.message (error : KeyNotationError) : String :=
  "invalid detach keys " ++ Text.quote error.input ++ ": unknown key " ++ Text.quote error.key

namespace KeyNotation

/-- The keys in force when the user chooses none. -/
def standard : String := "ctrl-p,ctrl-q"

/-- The elements of a notation: the parts between its commas, at least one. -/
def elements : List Char → List (List Char)
  | [] => [[]]
  | c :: rest =>
    if c = ',' then [] :: elements rest
    else
      match elements rest with
      | first :: others => (c :: first) :: others
      | [] => [[c]]

/-- The byte that the control key makes of a character. -/
def controlByte? (c : Char) : Option UInt8 :=
  let letter := c.toLower
  if 'a' ≤ letter ∧ letter ≤ 'z' then some (UInt8.ofNat (letter.toNat - 'a'.toNat + 1))
  else
    match c with
    | '@' => some 0x00
    | '[' => some 0x1b
    | '\\' => some 0x1c
    | ']' => some 0x1d
    | '^' => some 0x1e
    | '_' => some 0x1f
    | _ => none

def keyOf? : List Char → Option UInt8
  | [c] => if c.toNat < 128 then some (UInt8.ofNat c.toNat) else none
  | ['c', 't', 'r', 'l', '-', c] => controlByte? c
  | _ => none

/-- The bytes of a list of elements, or the first element that stands for none. -/
def keysOf : List (List Char) → Except (List Char) Bytes
  | [] => .ok []
  | element :: rest =>
    match keyOf? element with
    | none => .error element
    | some key =>
      match keysOf rest with
      | .ok keys => .ok (key :: keys)
      | .error element => .error element

def parse (input : String) : Except KeyNotationError Bytes :=
  if input.toList.isEmpty then .ok []
  else
    match keysOf (elements input.toList) with
    | .ok keys => .ok keys
    | .error element => .error ⟨input, String.ofList element⟩

end KeyNotation

end ContainerAttach
