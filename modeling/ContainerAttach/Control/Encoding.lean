import ContainerAttach.Control.Request
import ContainerAttach.Json.Printer
import ContainerAttach.Json.Value

/-!
# Requests as JSON

A request is printed as one object, with its members in a fixed order; the size
of a terminal is not an object of its own inside a request to resize.  A missing
exec session has no member.

A request is read from an object with its members in any order.  Foreign members
are passed over, and no member may be given twice.  A size and an announcement
can also be read from an array of their parts.  A request to resize cannot: its
identifier is read where it stands, and everything else is collected first and
then searched for the size.
-/

namespace ContainerAttach

open Json

/-! ## Errors of a record -/

namespace Json

/-- The error of a member that is given again. -/
def duplicateField (name : String) : ReadError :=
  .mismatch ("duplicate field `" ++ name ++ "`")

/-- The error of a member that is not there. -/
def missingField (name : String) : ReadError :=
  .mismatch ("missing field `" ++ name ++ "`")

/-- The error of an array that ends too soon. -/
def tooShort (length : Nat) (name : String) (wanted : Nat) : ReadError :=
  .mismatch
    ("invalid length " ++ toString length ++ ", expected struct " ++ name ++ " with "
      ++ toString wanted ++ " elements")

/-- A member that has to be there. -/
def required {α : Type} (name : String) : Option α → Except ReadError α
  | some value => .ok value
  | none => .error (missingField name)

/-- Reads the value of a member that may not have been given before. -/
def readOnce {α : Type} (name : String) (given : Option α) (reader : Reader α) :
    Reader (Option α) := fun text =>
  if given.isSome then .error (duplicateField name)
  else
    match afterColon text with
    | .error error => .error error
    | .ok rest => (reader rest).map fun (value, rest) => (some value, rest)

/-- Passes over the value of a member of another name. -/
def passOther {σ : Type} (state : σ) : Reader σ := fun text =>
  match afterColon text with
  | .error error => .error error
  | .ok rest => (passForeign rest).map fun rest => (state, rest)

/-- Reads the element of an array that stands for a part of a record. -/
def readElement {α : Type} (name : String) (wanted index : Nat) (reader : Reader α) :
    Reader α := fun text =>
  match nextItem ']' (index == 0) text with
  | .error error => .error error
  | .ok (.closed _) => .error (tooShort index name wanted)
  | .ok (.item text) => reader text

def readEnd (text : List Char) : Except ReadError (List Char) :=
  match skipSpace text with
  | [] => .error .unfinished
  | c :: rest => if c = ']' then .ok rest else .error .malformed

/-- Reads a record from an array or an object. -/
def readRecord {α : Type} (name : String) (fromArray : Option (Reader α))
    (fromObject : Reader α) : Reader α := fun text =>
  match skipSpace text with
  | [] => .error .unfinished
  | c :: rest =>
    match c, fromArray with
    | '\x7b', _ => fromObject rest
    | '[', some fromArray => fromArray rest
    | _, _ => .error (unexpected ("struct " ++ name) (c :: rest))

end Json

/-! ## The size of a terminal -/

namespace TerminalSize

def members (size : TerminalSize) : List Member :=
  [⟨"width", printNat size.width.toNat⟩, ⟨"height", printNat size.height.toNat⟩]

def print (size : TerminalSize) : List Char :=
  printObject size.members

/-- A size of which some parts are known. -/
structure Partial where
  width : Option UInt16 := none
  height : Option UInt16 := none
  deriving DecidableEq, Repr

def Partial.complete (parts : Partial) : Except ReadError TerminalSize :=
  match required "width" parts.width, required "height" parts.height with
  | .ok width, .ok height => .ok ⟨width, height⟩
  | .error error, _ => .error error
  | _, .error error => .error error

/-- Reads a member from behind its opening quote. -/
def readMember (parts : Partial) : Reader Partial := fun text =>
  match readText text with
  | .error error => .error error
  | .ok (name, rest) =>
    if name = "width" then
      (readOnce name parts.width readUInt16 rest).map fun (width, rest) =>
        ({ parts with width := width }, rest)
    else if name = "height" then
      (readOnce name parts.height readUInt16 rest).map fun (height, rest) =>
        ({ parts with height := height }, rest)
    else passOther parts rest

/-- Reads a size from behind an opening brace. -/
def readObject : Reader TerminalSize := fun text =>
  match objectMembers readMember {} text with
  | .error error => .error error
  | .ok (parts, rest) => parts.complete.map fun size => (size, rest)

/-- Reads a size from behind an opening bracket. -/
def readArray : Reader TerminalSize := fun text =>
  match readElement "TerminalSize" 2 0 readUInt16 text with
  | .error error => .error error
  | .ok (width, rest) =>
    match readElement "TerminalSize" 2 1 readUInt16 rest with
    | .error error => .error error
    | .ok (height, rest) => (readEnd rest).map fun rest => (⟨width, height⟩, rest)

def read : Reader TerminalSize :=
  readRecord "TerminalSize" (some readArray) readObject

def toJson (size : TerminalSize) : String :=
  String.ofList size.print

def ofJson (text : String) : Except ReadError TerminalSize :=
  readAll read text.toList

end TerminalSize

/-! ## Announcements -/

namespace AttachRequest

def members (request : AttachRequest) : List Member :=
  [⟨"id", printText request.id⟩, ⟨"socket_path", printText request.socketPath⟩]
    ++ (request.execSession.map fun session => ⟨"exec_session", printText session⟩).toList

def print (request : AttachRequest) : List Char :=
  printObject request.members

/-- An announcement of which some parts are known. -/
structure Partial where
  id : Option String := none
  socketPath : Option String := none
  execSession : Option (Option String) := none
  deriving DecidableEq, Repr

/-- The announcement of which all parts that are needed are known. -/
def Partial.complete (parts : Partial) : Except ReadError AttachRequest :=
  match required "id" parts.id, required "socket_path" parts.socketPath with
  | .ok id, .ok socketPath => .ok ⟨id, socketPath, parts.execSession.getD none⟩
  | .error error, _ => .error error
  | _, .error error => .error error

def readMember (parts : Partial) : Reader Partial := fun text =>
  match readText text with
  | .error error => .error error
  | .ok (name, rest) =>
    if name = "id" then
      (readOnce name parts.id (readString "a string") rest).map fun (id, rest) =>
        ({ parts with id := id }, rest)
    else if name = "socket_path" then
      (readOnce name parts.socketPath (readString "path string") rest).map fun (path, rest) =>
        ({ parts with socketPath := path }, rest)
    else if name = "exec_session" then
      (readOnce name parts.execSession readOption rest).map fun (session, rest) =>
        ({ parts with execSession := session }, rest)
    else passOther parts rest

def readObject : Reader AttachRequest := fun text =>
  match objectMembers readMember {} text with
  | .error error => .error error
  | .ok (parts, rest) => parts.complete.map fun request => (request, rest)

def readArray : Reader AttachRequest := fun text =>
  match readElement "AttachRequest" 3 0 (readString "a string") text with
  | .error error => .error error
  | .ok (id, rest) =>
    match readElement "AttachRequest" 3 1 (readString "path string") rest with
    | .error error => .error error
    | .ok (socketPath, rest) =>
      match readElement "AttachRequest" 3 2 readOption rest with
      | .error error => .error error
      | .ok (session, rest) => (readEnd rest).map fun rest => (⟨id, socketPath, session⟩, rest)

def read : Reader AttachRequest :=
  readRecord "AttachRequest" (some readArray) readObject

def toJson (request : AttachRequest) : String :=
  String.ofList request.print

def ofJson (text : String) : Except ReadError AttachRequest :=
  readAll read text.toList

end AttachRequest

/-! ## Requests to resize -/

namespace WindowSizeRequest

def members (request : WindowSizeRequest) : List Member :=
  ⟨"id", printText request.id⟩ :: request.size.members

def print (request : WindowSizeRequest) : List Char :=
  printObject request.members

/-- A request of which the identifier may be known, with all other members. -/
structure Partial where
  id : Option String := none
  others : List (String × Found) := []

/-- Takes a collected member into a size. -/
def collect (parts : TerminalSize.Partial) (member : String × Found) :
    Except ReadError TerminalSize.Partial :=
  match member with
  | (name, found) =>
    if name = "width" then
      if parts.width.isSome then .error (duplicateField name)
      else found.toUInt16.map fun width => { parts with width := some width }
    else if name = "height" then
      if parts.height.isSome then .error (duplicateField name)
      else found.toUInt16.map fun height => { parts with height := some height }
    else .ok parts

def sizeOf (others : List (String × Found)) : Except ReadError TerminalSize :=
  match others.foldlM collect {} with
  | .error error => .error error
  | .ok parts => parts.complete

def Partial.complete (parts : Partial) : Except ReadError WindowSizeRequest :=
  match required "id" parts.id with
  | .error error => .error error
  | .ok id => (sizeOf parts.others).map fun size => ⟨id, size⟩

def readMember (parts : Partial) : Reader Partial := fun text =>
  match readText text with
  | .error error => .error error
  | .ok (name, rest) =>
    if name = "id" then
      (readOnce name parts.id (readString "a string") rest).map fun (id, rest) =>
        ({ parts with id := id }, rest)
    else
      match afterColon rest with
      | .error error => .error error
      | .ok rest =>
        (readFound rest).map fun (found, rest) =>
          ({ parts with others := parts.others ++ [(name, found)] }, rest)

def readObject : Reader WindowSizeRequest := fun text =>
  match objectMembers readMember {} text with
  | .error error => .error error
  | .ok (parts, rest) => parts.complete.map fun request => (request, rest)

def read : Reader WindowSizeRequest :=
  readRecord "WindowSizeRequest" none readObject

def toJson (request : WindowSizeRequest) : String :=
  String.ofList request.print

def ofJson (text : String) : Except ReadError WindowSizeRequest :=
  readAll read text.toList

end WindowSizeRequest

end ContainerAttach
