/-!
# Reading JSON

A reader takes what it wants from the front of a text and gives the rest back.
It stops at the first thing that is wrong, and there are three ways to be wrong:
the text ends too early, the text is no JSON, or the JSON is not the value that
was wanted.

`nextItem` is the position between the items of an array or an object, and
`items` repeats it.  A comma has to be followed by an item.
-/

namespace ContainerAttach.Json

/-- Why a text cannot be read. -/
inductive ReadError where
  /-- The text ends too early. -/
  | unfinished
  /-- The text is no JSON. -/
  | malformed
  /-- The value is not the one that was wanted. -/
  | mismatch (message : String)
  deriving DecidableEq, Repr

/-- What reads a value from the front of a text. -/
abbrev Reader (α : Type) := List Char → Except ReadError (α × List Char)

def isSpace (c : Char) : Bool :=
  c = ' ' || c = '\n' || c = '\t' || c = '\r'

/-- The text after the white space in front of it. -/
def skipSpace (text : List Char) : List Char :=
  text.dropWhile isSpace

/-- The text after a word that has to stand in front of it. -/
def afterWord : List Char → List Char → Except ReadError (List Char)
  | [], text => .ok text
  | _ :: _, [] => .error .unfinished
  | letter :: word, c :: text => if letter = c then afterWord word text else .error .malformed

/-- What comes next in an array or an object. -/
inductive Position where
  /-- It ends, and this is the text after it. -/
  | closed (rest : List Char)
  /-- This is the text from the next item on. -/
  | item (text : List Char)
  deriving DecidableEq, Repr

/-- The next position before the given closing character. -/
def nextItem (close : Char) (first : Bool) (text : List Char) : Except ReadError Position :=
  match skipSpace text with
  | [] => .error .unfinished
  | c :: rest =>
    if c = close then .ok (.closed rest)
    else if first then .ok (.item (c :: rest))
    else if c = ',' then
      match skipSpace rest with
      | [] => .error .unfinished
      | d :: more => if d = close then .error .malformed else .ok (.item (d :: more))
    else .error .malformed

/-- Reads items up to the closing character.  Each item takes at least one character, so as
many rounds as there are characters, and one for the end, are always enough. -/
def items {σ : Type} (close : Char) (item : σ → Reader σ) : Nat → Bool → σ → Reader σ
  | 0, _, _, _ => .error .unfinished
  | rounds + 1, first, state, text =>
    match nextItem close first text with
    | .error error => .error error
    | .ok (.closed rest) => .ok (state, rest)
    | .ok (.item text) =>
      match item state text with
      | .error error => .error error
      | .ok (state, rest) => items close item rounds false state rest

/-- Reads the rest of an array after its opening bracket. -/
def arrayItems {σ : Type} (item : σ → Reader σ) (state : σ) : Reader σ := fun text =>
  items ']' item (text.length + 1) true state text

/-- Reads the colon between a name and its value. -/
def afterColon (text : List Char) : Except ReadError (List Char) :=
  match skipSpace text with
  | [] => .error .unfinished
  | c :: rest => if c = ':' then .ok rest else .error .malformed

/-- Reads the rest of an object after its opening brace.  The reader of a member starts
after the opening quote of its name. -/
def objectMembers {σ : Type} (member : σ → Reader σ) (state : σ) : Reader σ := fun text =>
  let item (state : σ) : Reader σ := fun text =>
    match text with
    | '"' :: rest => member state rest
    | _ => .error .malformed
  items '\x7d' item (text.length + 1) true state text

/-- Reads a text that holds nothing but one value. -/
def readAll {α : Type} (reader : Reader α) (text : List Char) : Except ReadError α :=
  match reader text with
  | .error error => .error error
  | .ok (value, rest) => if skipSpace rest = [] then .ok value else .error .malformed

end ContainerAttach.Json
