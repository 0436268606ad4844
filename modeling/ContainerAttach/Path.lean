/-!
# Paths

A path is a sequence of letters in which a slash ends a component.  The rules
are the same whether the letters are the characters of a text or the bytes that
the operating system sees, so they are stated for any alphabet that has a slash
and a dot.

Read as a list of components, a path does not change when slashes are doubled or
added at its end, nor when `.` components are inserted anywhere but in front.
-/

namespace ContainerAttach

/-- An alphabet in which paths can be written. -/
class PathLetter (α : Type) where
  slash : α
  dot : α

instance : PathLetter Char := ⟨'/', '.'⟩

instance : PathLetter UInt8 := ⟨0x2f, 0x2e⟩

namespace Path

variable {α : Type} [DecidableEq α] [PathLetter α]

open PathLetter

/-- The parts of a path between its slashes, at least one. -/
def pieces : List α → List (List α)
  | [] => [[]]
  | letter :: rest =>
    if letter = slash then [] :: pieces rest
    else
      match pieces rest with
      | first :: others => (letter :: first) :: others
      | [] => [[letter]]

def join : List (List α) → List α
  | [] => []
  | [piece] => piece
  | piece :: rest => piece ++ slash :: join rest

def isAbsolute : List α → Bool
  | letter :: _ => letter = slash
  | [] => false

/-- A component of a path. -/
inductive Component (α : Type) where
  | root
  | current
  | parent
  | name (letters : List α)
  deriving DecidableEq, Repr

/-- A piece that names no component: nothing between two slashes, or a single dot. -/
def isIdle (piece : List α) : Bool :=
  piece = [] || piece = [dot]

/-- A piece that names a directory by its place: this one, or the one above it. -/
def isDots (piece : List α) : Bool :=
  piece = [dot] || piece = [dot, dot]

/-- The component that a piece after the first stands for. -/
def componentOf? (piece : List α) : Option (Component α) :=
  if isIdle piece then none
  else if piece = [dot, dot] then some .parent
  else some (.name piece)

/-- The component that the first piece stands for.  A single dot counts there. -/
def leading (absolute : Bool) (piece : List α) : List (Component α) :=
  if absolute then [.root]
  else if piece = [dot] then [.current]
  else (componentOf? piece).toList

def components (path : List α) : List (Component α) :=
  match pieces path with
  | [] => []
  | first :: rest => leading (isAbsolute path) first ++ rest.filterMap componentOf?

/-- The pieces without the idle ones at the end. -/
def trimEnd (rest : List (List α)) : List (List α) :=
  (rest.reverse.dropWhile isIdle).reverse

/-- The last component, if it is a plain name. -/
def fileName? (path : List α) : Option (List α) :=
  match (components path).getLast? with
  | some (.name letters) => some letters
  | _ => none

/-- The path without its last component, if it has one that is not the root.  What is
idle before that component goes with it. -/
def parent? (path : List α) : Option (List α) :=
  match pieces path with
  | [] => none
  | first :: rest =>
    match trimEnd rest with
    | [] => if first = [] then none else some []
    | last :: more =>
      match trimEnd (last :: more).dropLast with
      | [] => some (if first = [] then [slash] else first)
      | kept => some (join (first :: kept))

/-- The name of the directory that a path is in, if the directory is given by a plain
name. -/
def directoryName? (path : List α) : Option (List α) :=
  (parent? path).bind fileName?

end Path

end ContainerAttach
