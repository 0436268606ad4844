import ContainerAttach.Text.Unprintable
import ContainerAttach.Text.Utf8

/-!
# Quoted text

The form in which a text stands inside a message or a diagnostic: between
double quotes, on one line, with everything invisible spelled out.  A backslash
introduces each escape, so quotes and backslashes inside the text are escaped
too and the closing quote is the first one that no backslash precedes.

Bytes are quoted as the text that they encode.  A byte that belongs to no
character is spelled out too, by its number.
-/

namespace ContainerAttach.Text

def quoteChar (c : Char) : List Char :=
  match c with
  | '\x00' => ['\\', '0']
  | '\t' => ['\\', 't']
  | '\n' => ['\\', 'n']
  | '\r' => ['\\', 'r']
  | '"' => ['\\', '"']
  | '\\' => ['\\', '\\']
  | c =>
    if isUnprintable c then
      ['\\', 'u', '\x7b'] ++ Nat.toDigits 16 c.toNat ++ ['\x7d']
    else [c]

def quoteChars (text : List Char) : List Char :=
  '"' :: text.flatMap quoteChar ++ ['"']

def quote (text : String) : String :=
  String.ofList (quoteChars text.toList)

/-- A digit of a number in base sixteen. -/
def hexDigit (digit : Nat) : Char :=
  (Nat.digitChar digit).toUpper

def quoteByte (byte : UInt8) : List Char :=
  ['\\', 'x', hexDigit (byte.toNat / 16), hexDigit (byte.toNat % 16)]

def quotePiece : Utf8Piece → List Char
  | .char c => quoteChar c
  | .broken bytes => bytes.flatMap quoteByte

def quoteBytes (bytes : Bytes) : String :=
  String.ofList ('"' :: (utf8Pieces bytes).flatMap quotePiece ++ ['"'])

end ContainerAttach.Text
