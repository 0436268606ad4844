/-!
# Printed JSON

Values are printed without white space.  A string escapes the quote, the
backslash and every character below the space, and nothing else, so a printed
value is always a single line.
-/

namespace ContainerAttach.Json

/-- The escape of a character below the space that has no letter of its own. -/
def controlEscape (c : Char) : List Char :=
  ['\\', 'u', '0', '0', Nat.digitChar (c.toNat / 16), Nat.digitChar (c.toNat % 16)]

def printChar (c : Char) : List Char :=
  match c with
  | '"' => ['\\', '"']
  | '\\' => ['\\', '\\']
  | '\x08' => ['\\', 'b']
  | '\x0c' => ['\\', 'f']
  | '\n' => ['\\', 'n']
  | '\r' => ['\\', 'r']
  | '\t' => ['\\', 't']
  | c => if c.toNat < 0x20 then controlEscape c else [c]

def printText (text : String) : List Char :=
  '"' :: text.toList.flatMap printChar ++ ['"']

def printNat (n : Nat) : List Char :=
  Nat.toDigits 10 n

/-- A name with the printed value that it is given. -/
structure Member where
  name : String
  value : List Char
  deriving DecidableEq, Repr

def Member.print (member : Member) : List Char :=
  printText member.name ++ ':' :: member.value

def printMembers : List Member → List Char
  | [] => []
  | [member] => member.print
  | member :: rest => member.print ++ ',' :: printMembers rest

def printObject (members : List Member) : List Char :=
  '\x7b' :: printMembers members ++ ['\x7d']

end ContainerAttach.Json
