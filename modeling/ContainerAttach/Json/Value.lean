import ContainerAttach.Decimal.Shortest
import ContainerAttach.Json.Number
import ContainerAttach.Json.Text
import ContainerAttach.Text.Quoted

/-!
# Values in JSON

Of a value that is not the wanted one a message tells what it is: a scalar with
its value, an array or an object without its contents.  `Found` is what can be
told.

A value can be in the way in two manners.  Where it is wanted, an array or an
object is recognised by its bracket alone.  Where it is collected or passed
over, it is read to its end; what is collected is held to stricter rules than
what is passed over, and may not be nested too deeply.
-/

namespace ContainerAttach.Json

/-- What can be told of a value. -/
inductive Found where
  | null
  | boolean (value : Bool)
  | number (value : Number)
  | text (value : String)
  | sequence
  | map

namespace Found

def describe : Found → String
  | .null => "null"
  | .boolean value => "boolean `" ++ (if value then "true" else "false") ++ "`"
  | .number (.integer value) => "integer `" ++ toString value ++ "`"
  | .number (.float value) => "floating point `" ++ Decimal.shortest value ++ "`"
  | .text value => "string " ++ Text.quote value
  | .sequence => "sequence"
  | .map => "map"

/-- The error of a value of the wrong type. -/
def wrongType (found : Found) (expected : String) : ReadError :=
  .mismatch ("invalid type: " ++ found.describe ++ ", expected " ++ expected)

/-- The error of a value of the right type that is out of range. -/
def outOfRange (found : Found) (expected : String) : ReadError :=
  .mismatch ("invalid value: " ++ found.describe ++ ", expected " ++ expected)

end Found

/-! ## What stands where something else was wanted -/

/-- A word, of which the first letter has been seen. -/
def foundWord (word : List Char) (found : Found) (text : List Char) :
    Except ReadError (Found × List Char) :=
  (afterWord word text).map fun rest => (found, rest)

/-- Reads a value that is no array and no object; the text is at the value. -/
def readScalar : Reader Found := fun text =>
  match text with
  | [] => .error .unfinished
  | c :: rest =>
    if c = 'n' then foundWord ['u', 'l', 'l'] .null rest
    else if c = 't' then foundWord ['r', 'u', 'e'] (.boolean true) rest
    else if c = 'f' then foundWord ['a', 'l', 's', 'e'] (.boolean false) rest
    else if c = '"' then (readText rest).map fun (value, rest) => (.text value, rest)
    else if c = '-' || c.isDigit then
      (readNumber text).map fun (value, rest) => (.number value, rest)
    else .error .malformed

/-- Why the value at the front of a text is not the expected one. -/
def unexpected (expected : String) (text : List Char) : ReadError :=
  match text with
  | '[' :: _ => Found.sequence.wrongType expected
  | '\x7b' :: _ => Found.map.wrongType expected
  | _ =>
    match readScalar text with
    | .ok (found, _) => found.wrongType expected
    | .error error => error

/-! ## Whole values -/

/-- How strictly a value is read that is not kept. -/
inductive Rigour where
  | loose
  | strict
  deriving DecidableEq, Repr

/-- Passes over a scalar; the text is at the value. -/
def passScalar (rigour : Rigour) (text : List Char) : Except ReadError (List Char) :=
  match rigour, text with
  | .strict, _ => (readScalar text).map Prod.snd
  | .loose, '"' :: rest => passText rest
  | .loose, c :: rest =>
    if c = '-' || c.isDigit then passNumber (c :: rest) else (readScalar text).map Prod.snd
  | .loose, [] => .error .unfinished

/-- Passes over the name of a member, from behind its opening quote, and its colon. -/
def passName (rigour : Rigour) (text : List Char) : Except ReadError (List Char) :=
  let named :=
    match rigour with
    | .strict => (readChars text).map Prod.snd
    | .loose => passText text
  match named with
  | .error error => .error error
  | .ok rest => afterColon rest

/-- A reader that keeps nothing, as the reader of an item. -/
def keepNothing (pass : List Char → Except ReadError (List Char)) : Unit → Reader Unit :=
  fun _ text => (pass text).map fun rest => ((), rest)

/-- Passes over a value with at most the given number of arrays and objects around any part
of it. -/
def passValue (rigour : Rigour) : Nat → List Char → Except ReadError (List Char)
  | depth, text =>
    match skipSpace text with
    | [] => .error .unfinished
    | c :: rest =>
      if c = '[' then
        match depth with
        | 0 => .error .malformed
        | depth + 1 =>
          (arrayItems (keepNothing (passValue rigour depth)) () rest).map Prod.snd
      else if c = '\x7b' then
        match depth with
        | 0 => .error .malformed
        | depth + 1 =>
          let member (text : List Char) :=
            match passName rigour text with
            | .error error => .error error
            | .ok rest => passValue rigour depth rest
          (objectMembers (keepNothing member) () rest).map Prod.snd
      else passScalar rigour (c :: rest)

/-- The number of arrays and objects that may surround any part of a text. -/
def depthLimit : Nat := 127

/-- Reads a member's value, in an object that is not itself inside another value, and tells
what it is. -/
def readFound : Reader Found := fun text =>
  match skipSpace text with
  | '[' :: rest => (passValue .strict (depthLimit - 1) ('[' :: rest)).map (.sequence, ·)
  | '\x7b' :: rest => (passValue .strict (depthLimit - 1) ('\x7b' :: rest)).map (.map, ·)
  | text => readScalar text

/-- Passes over a member's value that is of no interest.  No value is nested more deeply than
it is long. -/
def passForeign (text : List Char) : Except ReadError (List Char) :=
  passValue .loose text.length text

/-! ## Wanted values -/

def Found.toUInt16 (found : Found) : Except ReadError UInt16 :=
  match found with
  | .number (.integer value) =>
    if 0 ≤ value ∧ value < UInt16.size then .ok (UInt16.ofNat value.toNat)
    else .error (found.outOfRange "u16")
  | _ => .error (found.wrongType "u16")

def readUInt16 : Reader UInt16 := fun text =>
  match skipSpace text with
  | [] => .error .unfinished
  | c :: rest =>
    if c = '-' || c.isDigit then
      match readNumber (c :: rest) with
      | .error error => .error error
      | .ok (value, rest) => (Found.number value).toUInt16.map fun value => (value, rest)
    else .error (unexpected "u16" (c :: rest))

/-- Reads a string; what is expected is named in the error. -/
def readString (expected : String) : Reader String := fun text =>
  match skipSpace text with
  | [] => .error .unfinished
  | '"' :: rest => readText rest
  | text => .error (unexpected expected text)

def readOption : Reader (Option String) := fun text =>
  match skipSpace text with
  | 'n' :: rest => (afterWord ['u', 'l', 'l'] rest).map fun rest => (none, rest)
  | text => (readString "a string" text).map fun (value, rest) => (some value, rest)

end ContainerAttach.Json
