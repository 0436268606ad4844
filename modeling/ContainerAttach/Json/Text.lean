import ContainerAttach.Json.Reader

/-!
# Strings in JSON

A string is read from behind its opening quote up to its closing one.  It holds
no character below the space, and a backslash starts an escape.  A character
beyond the first plane can be written as two escapes of four hexadecimal digits,
and then it needs both.

A string whose value nobody wants is passed over; only the form of its escapes
is looked at.
-/

namespace ContainerAttach.Json

def hexDigit? (c : Char) : Option Nat :=
  if '0' ≤ c ∧ c ≤ '9' then some (c.toNat - '0'.toNat)
  else if 'a' ≤ c ∧ c ≤ 'f' then some (c.toNat - 'a'.toNat + 10)
  else if 'A' ≤ c ∧ c ≤ 'F' then some (c.toNat - 'A'.toNat + 10)
  else none

/-- The number of bytes that a text takes, counted no further than its fourth character. -/
def firstBytes (text : List Char) : Nat :=
  (String.ofList (text.take 4)).utf8ByteSize

/-- Reads four hexadecimal digits.  A text of fewer than four bytes ends too early, whatever
they are. -/
def readHex : Reader Nat := fun text =>
  if firstBytes text < 4 then .error .unfinished
  else
    match text with
    | a :: b :: c :: d :: rest =>
      match hexDigit? a, hexDigit? b, hexDigit? c, hexDigit? d with
      | some a, some b, some c, some d => .ok (((a * 16 + b) * 16 + c) * 16 + d, rest)
      | _, _, _, _ => .error .malformed
    | _ => .error .malformed

/-- The characters that stand for themselves or for a control character after a backslash. -/
def shortEscape? (c : Char) : Option Char :=
  match c with
  | '"' => some '"'
  | '\\' => some '\\'
  | '/' => some '/'
  | 'b' => some '\x08'
  | 'f' => some '\x0c'
  | 'n' => some '\n'
  | 'r' => some '\r'
  | 't' => some '\t'
  | _ => none

/-- Whether a code is the first half of a pair. -/
def isLeading (code : Nat) : Bool := 0xd800 ≤ code && code < 0xdc00

/-- Whether a code is the second half of a pair. -/
def isTrailing (code : Nat) : Bool := 0xdc00 ≤ code && code < 0xe000

/-- The character of a pair. -/
def pairedChar (leading trailing : Nat) : Char :=
  Char.ofNat (0x10000 + (leading - 0xd800) * 0x400 + (trailing - 0xdc00))

/-- Reads the second half of a pair, backslash and letter included. -/
def readTrailing (leading : Nat) : Reader Char := fun text =>
  match afterWord ['\\', 'u'] text with
  | .error error => .error error
  | .ok rest =>
    match readHex rest with
    | .error error => .error error
    | .ok (code, rest) =>
      if isTrailing code then .ok (pairedChar leading code, rest) else .error .malformed

def readEscape : Reader Char := fun text =>
  match text with
  | [] => .error .unfinished
  | 'u' :: rest =>
    match readHex rest with
    | .error error => .error error
    | .ok (code, rest) =>
      if isTrailing code then .error .malformed
      else if isLeading code then readTrailing code rest
      else .ok (Char.ofNat code, rest)
  | c :: rest =>
    match shortEscape? c with
    | some value => .ok (value, rest)
    | none => .error .malformed

def passEscape (text : List Char) : Except ReadError (List Char) :=
  match text with
  | [] => .error .unfinished
  | 'u' :: rest => (readHex rest).map Prod.snd
  | c :: rest => if (shortEscape? c).isSome then .ok rest else .error .malformed

/-! ## Every escape takes something -/

theorem length_of_readHex {text rest : List Char} {code : Nat}
    (hread : readHex text = .ok (code, rest)) : rest.length < text.length := by
  unfold readHex at hread
  split at hread
  · simp at hread
  · split at hread
    · split at hread
      · simp only [Except.ok.injEq, Prod.mk.injEq] at hread
        obtain ⟨-, rfl⟩ := hread
        simp only [List.length_cons]
        omega
      · simp at hread
    · simp at hread

theorem length_of_afterWord {word text rest : List Char}
    (hread : afterWord word text = .ok rest) : rest.length ≤ text.length := by
  induction word generalizing text with
  | nil => simp_all [afterWord]
  | cons letter word ih =>
    cases text with
    | nil => simp [afterWord] at hread
    | cons c text =>
      simp only [afterWord] at hread
      split at hread
      · have := ih hread
        simp only [List.length_cons]
        omega
      · simp at hread

theorem length_of_readTrailing {text rest : List Char} {leading : Nat} {c : Char}
    (hread : readTrailing leading text = .ok (c, rest)) : rest.length < text.length := by
  unfold readTrailing at hread
  split at hread
  · simp at hread
  · next hword =>
    split at hread
    · simp at hread
    · next hhex =>
      split at hread
      · simp only [Except.ok.injEq, Prod.mk.injEq] at hread
        obtain ⟨-, rfl⟩ := hread
        have := length_of_afterWord hword
        have := length_of_readHex hhex
        omega
      · simp at hread

theorem length_of_readEscape {text rest : List Char} {c : Char}
    (hread : readEscape text = .ok (c, rest)) : rest.length < text.length := by
  unfold readEscape at hread
  split at hread
  · simp at hread
  · split at hread
    · simp at hread
    · next hhex =>
      have := length_of_readHex hhex
      split at hread
      · simp at hread
      · split at hread
        · have := length_of_readTrailing hread
          simp only [List.length_cons]
          omega
        · simp only [Except.ok.injEq, Prod.mk.injEq] at hread
          obtain ⟨-, rfl⟩ := hread
          simp only [List.length_cons]
          omega
  · split at hread
    · simp only [Except.ok.injEq, Prod.mk.injEq] at hread
      obtain ⟨-, rfl⟩ := hread
      simp
    · simp at hread

theorem length_of_passEscape {text rest : List Char}
    (hread : passEscape text = .ok rest) : rest.length < text.length := by
  unfold passEscape at hread
  split at hread
  · simp at hread
  · next tail =>
    cases hhex : readHex tail with
    | error error => simp [hhex, Except.map] at hread
    | ok pair =>
      obtain ⟨code, more⟩ := pair
      simp only [hhex, Except.map, Except.ok.injEq] at hread
      have := length_of_readHex hhex
      subst hread
      simp only [List.length_cons]
      omega
  · split at hread
    · simp only [Except.ok.injEq] at hread
      subst hread
      simp
    · simp at hread

/-! ## Strings -/

def readChars : Reader (List Char) := fun text =>
  match text with
  | [] => .error .unfinished
  | c :: rest =>
    if c = '"' then .ok ([], rest)
    else if c = '\\' then
      match _hescape : readEscape rest with
      | .error error => .error error
      | .ok (value, rest) =>
        match readChars rest with
        | .error error => .error error
        | .ok (values, rest) => .ok (value :: values, rest)
    else if c.toNat < 0x20 then .error .malformed
    else
      match readChars rest with
      | .error error => .error error
      | .ok (values, rest) => .ok (c :: values, rest)
termination_by text => text.length
decreasing_by
  · have := length_of_readEscape _hescape
    simp only [List.length_cons]
    omega
  · simp

def readText : Reader String := fun text =>
  match readChars text with
  | .error error => .error error
  | .ok (chars, rest) => .ok (String.ofList chars, rest)

/-- Passes over a string from behind its opening quote. -/
def passText (text : List Char) : Except ReadError (List Char) :=
  match text with
  | [] => .error .unfinished
  | c :: rest =>
    if c = '"' then .ok rest
    else if c = '\\' then
      match _hescape : passEscape rest with
      | .error error => .error error
      | .ok rest => passText rest
    else if c.toNat < 0x20 then .error .malformed
    else passText rest
termination_by text.length
decreasing_by
  · have := length_of_passEscape _hescape
    simp only [List.length_cons]
    omega
  · simp

end ContainerAttach.Json
