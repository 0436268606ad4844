import ContainerAttach.Json.Reader

/-!
# Numbers in JSON

A number is an integer part without a needless zero in front, an optional
fraction and an optional exponent.  An integer that fits into a machine word
stays one; every other number becomes a floating-point number.

Of the digits of such a number only as many are used as a word can hold, and the
others shift the exponent.  The value is then the word, times or divided by a
power of ten, each step rounded.  A number too large for this is no number.
-/

namespace ContainerAttach.Json

/-- A number that was read. -/
inductive Number where
  | integer (value : Int)
  | float (value : Float)

/-- The value of a decimal digit. -/
def digitValue (c : Char) : Nat := c.toNat - '0'.toNat

/-- The digits in front of a text, and the text after them. -/
def splitDigits (text : List Char) : List Char × List Char :=
  (text.takeWhile Char.isDigit, text.dropWhile Char.isDigit)

/-- The first value that a word cannot hold. -/
def wordBound : Nat := UInt64.size

/-- The value after as many further digits as a word can hold, and their number. -/
def absorb (significand : Nat) : List Char → Nat × Nat
  | [] => (significand, 0)
  | digit :: digits =>
    let larger := significand * 10 + digitValue digit
    if wordBound ≤ larger then (significand, 0)
    else
      match absorb larger digits with
      | (significand, count) => (significand, count + 1)

/-- The largest exponent of a power of ten that a floating-point number can hold. -/
def powerLimit : Nat := 308

def powerOfTen (exponent : Nat) : Float :=
  Float.ofScientific 1 false exponent

/-- The number `value * 10 ^ exponent`; none if it is too large. -/
def scale? (value : Float) (exponent : Int) : Option Float :=
  if exponent.natAbs ≤ powerLimit then
    if 0 ≤ exponent then
      let scaled := value * powerOfTen exponent.natAbs
      if scaled.isInf then none else some scaled
    else some (value / powerOfTen exponent.natAbs)
  else if value == 0 then some value
  else if _hexponent : 0 ≤ exponent then none
  else scale? (value / powerOfTen powerLimit) (exponent + powerLimit)
termination_by exponent.natAbs
decreasing_by
  simp only [powerLimit] at *
  omega

/-- The sign in front of an exponent: whether it is a minus, and the text after it. -/
def exponentSign (text : List Char) : Bool × List Char :=
  match text with
  | '+' :: rest => (false, rest)
  | '-' :: rest => (true, rest)
  | _ => (false, text)

/-- The first value that the digits of an exponent may not have. -/
def exponentBound : Nat := UInt32.size / 2

def valueOf (digits : List Char) : Nat :=
  digits.foldl (fun value digit => value * 10 + digitValue digit) 0

/-- The floating-point number of a sign, a significand and an exponent. -/
def signed (negative : Bool) (value : Option Float) : Except ReadError Number :=
  match value with
  | none => .error .malformed
  | some value => .ok (.float (if negative then -value else value))

/-- The number of a sign, a significand, an exponent and further digits of an exponent. -/
def withExponent (negative : Bool) (significand : Nat) (exponent : Int) (minus : Bool)
    (digits : List Char) : Except ReadError Number :=
  if exponentBound ≤ valueOf digits then
    if significand ≠ 0 ∧ minus = false then .error .malformed
    else signed negative (some 0)
  else
    signed negative
      (scale? significand.toUInt64.toFloat
        (if minus then exponent - valueOf digits else exponent + valueOf digits))

/-- Whether an exponent comes next, and the text after its letter. -/
def afterExponentMark? (text : List Char) : Option (List Char) :=
  match text with
  | 'e' :: rest | 'E' :: rest => some rest
  | _ => none

/-- Reads what may follow the fraction of a number, or its integer part. -/
def readExponent (negative : Bool) (significand : Nat) (exponent : Int) : Reader Number :=
  fun text =>
    match afterExponentMark? text with
    | none =>
      (signed negative (scale? significand.toUInt64.toFloat exponent)).map fun number =>
        (number, text)
    | some rest =>
      match exponentSign rest with
      | (minus, rest) =>
        match splitDigits rest with
        | ([], []) => .error .unfinished
        | ([], _ :: _) => .error .malformed
        | (digits, rest) =>
          (withExponent negative significand exponent minus digits).map fun number =>
            (number, rest)

/-- The number of an integer part without anything after it. -/
def ofInteger (negative : Bool) (significand : Nat) : Number :=
  if negative then
    if 0 < significand ∧ 2 * significand ≤ wordBound then .integer (-(significand : Int))
    else .float (-significand.toUInt64.toFloat)
  else .integer significand

/-- Reads what may follow the integer part of a number.  The digits that did not fit are
given by their number. -/
def readFraction (negative : Bool) (significand dropped : Nat) : Reader Number := fun text =>
  match text with
  | '.' :: rest =>
    match splitDigits rest with
    | ([], []) => .error .unfinished
    | ([], _ :: _) => .error .malformed
    | (digits, rest) =>
      match absorb significand digits with
      | (significand, count) => readExponent negative significand ((dropped : Int) - count) rest
  | _ =>
    if dropped = 0 ∧ afterExponentMark? text = none then
      .ok (ofInteger negative significand, text)
    else readExponent negative significand dropped text

def readMagnitude (negative : Bool) : Reader Number := fun text =>
  match splitDigits text with
  | ([], []) => .error .unfinished
  | ([], _ :: _) => .error .malformed
  | ('0' :: _ :: _, _) => .error .malformed
  | (digits, rest) =>
    match absorb 0 digits with
    | (significand, count) => readFraction negative significand (digits.length - count) rest

def readNumber : Reader Number := fun text =>
  match text with
  | '-' :: rest => readMagnitude true rest
  | _ => readMagnitude false text

/-! ## Numbers that nobody wants

Only the form is looked at, and a number that ends too early is no number. -/

def passDigits (text : List Char) : Except ReadError (List Char) :=
  match splitDigits text with
  | ([], _) => .error .malformed
  | (_, rest) => .ok rest

/-- Passes over an exponent, if there is one. -/
def passExponent (text : List Char) : Except ReadError (List Char) :=
  match afterExponentMark? text with
  | none => .ok text
  | some rest => passDigits (exponentSign rest).2

/-- Passes over a fraction and an exponent, if they are there. -/
def passFraction (text : List Char) : Except ReadError (List Char) :=
  match text with
  | '.' :: rest =>
    match passDigits rest with
    | .error error => .error error
    | .ok rest => passExponent rest
  | _ => passExponent text

def passMagnitude (text : List Char) : Except ReadError (List Char) :=
  match splitDigits text with
  | ([], _) => .error .malformed
  | ('0' :: _ :: _, _) => .error .malformed
  | (_, rest) => passFraction rest

def passNumber (text : List Char) : Except ReadError (List Char) :=
  match text with
  | '-' :: rest => passMagnitude rest
  | _ => passMagnitude text

end ContainerAttach.Json
