import ContainerAttach.Bytes

/-!
# Bytes read as text

A path is a sequence of bytes.  Mostly it is the encoding of a text, but nothing
makes it one.  Where it is shown it is read as UTF-8 as far as that goes: bytes
that encode no character are put together as long as they could have begun one,
and what was begun and not ended is a piece of its own.
-/

namespace ContainerAttach.Text

/-- A part of bytes that are read as UTF-8. -/
inductive Utf8Piece where
  | char (c : Char)
  /-- The beginning of no character, or of one that breaks off. -/
  | broken (bytes : Bytes)
  deriving DecidableEq, Repr

def Utf8Piece.bytes : Utf8Piece → Bytes
  | .char c => String.utf8EncodeChar c
  | .broken bytes => bytes

/-- The character at the beginning of some bytes, if its encoding stands there. -/
def leadingChar? (bytes : Bytes) : Option Char :=
  bytes.toByteArray.utf8DecodeChar? 0

/-- The number of bytes of a character that begins with the given one; none does with some. -/
def widthOf (lead : UInt8) : Nat :=
  if lead < 0x80 then 1
  else if lead < 0xc2 then 0
  else if lead < 0xe0 then 2
  else if lead < 0xf0 then 3
  else if lead < 0xf5 then 4
  else 0

def isWithin (low high byte : UInt8) : Bool :=
  low ≤ byte && byte ≤ high

def isContinuation (byte : UInt8) : Bool :=
  isWithin 0x80 0xbf byte

/-- Whether a byte can be the second of a character.  After some first bytes there is less
room: no character has two encodings, and not every number is that of a character. -/
def canFollow (lead second : UInt8) : Bool :=
  if lead = 0xe0 then isWithin 0xa0 0xbf second
  else if lead = 0xed then isWithin 0x80 0x9f second
  else if lead = 0xf0 then isWithin 0x90 0xbf second
  else if lead = 0xf4 then isWithin 0x80 0x8f second
  else isContinuation second

/-- Where no character stands, the number of bytes that could have begun one, and one if there
is none. -/
def brokenLength (lead : UInt8) (rest : Bytes) : Nat :=
  match rest with
  | [] => 1
  | second :: rest =>
    if widthOf lead < 3 || !canFollow lead second then 1
    else
      match rest with
      | [] => 2
      | third :: _ => if widthOf lead = 4 && isContinuation third then 3 else 2

def leadingPiece (lead : UInt8) (rest : Bytes) : Utf8Piece :=
  match leadingChar? (lead :: rest) with
  | some c => .char c
  | none => .broken ((lead :: rest).take (brokenLength lead rest))

/-- The pieces of bytes of which so many at the front have been read. -/
def piecesBehind : Nat → Bytes → List Utf8Piece
  | _, [] => []
  | read + 1, _ :: rest => piecesBehind read rest
  | 0, lead :: rest =>
    let piece := leadingPiece lead rest
    piece :: piecesBehind (piece.bytes.length - 1) rest

def utf8Pieces (bytes : Bytes) : List Utf8Piece :=
  piecesBehind 0 bytes

/-- The character that is shown for a piece. -/
def Utf8Piece.shown : Utf8Piece → Char
  | .char c => c
  | .broken _ => '\ufffd'

/-- The text that bytes are shown as. -/
def lossy (bytes : Bytes) : String :=
  String.ofList ((utf8Pieces bytes).map Utf8Piece.shown)

end ContainerAttach.Text
