import ContainerAttach.Json.Printer
import ContainerAttach.Json.Text

/-!
# What a string stands for

A string has many texts, since every character may be escaped, many of them in several
ways.  `Spelled chars text` says that a text between two quotes stands for the characters.
All these texts are read alike (`readChars_spelled`), and a string that nobody wants is
passed over up to the same place (`passText_spelled`).

The printer chooses one of the texts (`spelled_printChar`), and none of its characters is
a control character (`noControl_printText`).
-/

namespace ContainerAttach.Json

/-! ## Spellings -/

/-- The number that four hexadecimal digits stand for. -/
inductive HexDigits : Nat → List Char → Prop
  | four {a b c d : Char} {w x y z : Nat} (first : hexDigit? a = some w)
      (second : hexDigit? b = some x) (third : hexDigit? c = some y)
      (fourth : hexDigit? d = some z) :
      HexDigits (((w * 16 + x) * 16 + y) * 16 + z) [a, b, c, d]

/-- The characters that a text between two quotes stands for.  A character beyond the first
plane has no code of four digits, and is escaped by two. -/
inductive Spelled : List Char → List Char → Prop
  | empty : Spelled [] []
  | plain {c : Char} {chars text : List Char} (noQuote : c ≠ '"') (noBackslash : c ≠ '\\')
      (noControl : 0x20 ≤ c.toNat) (rest : Spelled chars text) :
      Spelled (c :: chars) (c :: text)
  | letter {c letter : Char} {chars text : List Char} (escape : shortEscape? letter = some c)
      (rest : Spelled chars text) : Spelled (c :: chars) ('\\' :: letter :: text)
  | code {c : Char} {digits chars text : List Char} (code : HexDigits c.toNat digits)
      (rest : Spelled chars text) :
      Spelled (c :: chars) ('\\' :: 'u' :: (digits ++ text))
  | pair {leading trailing : Nat} {first second chars text : List Char}
      (leadingCode : HexDigits leading first) (isLeading : isLeading leading = true)
      (trailingCode : HexDigits trailing second) (isTrailing : isTrailing trailing = true)
      (rest : Spelled chars text) :
      Spelled (pairedChar leading trailing :: chars)
        ('\\' :: 'u' :: (first ++ '\\' :: 'u' :: (second ++ text)))

/-! ## Reading a spelling -/

theorem le_firstBytes (a b c d : Char) (rest : List Char) :
    4 ≤ firstBytes (a :: b :: c :: d :: rest) := by
  have := a.utf8Size_pos
  have := b.utf8Size_pos
  have := c.utf8Size_pos
  have := d.utf8Size_pos
  show 4 ≤ (String.ofList [a, b, c, d]).toByteArray.size
  rw [String.toByteArray_ofList, List.utf8Encode, List.size_toByteArray]
  simp only [List.flatMap_cons, List.flatMap_nil, List.length_append,
    String.length_utf8EncodeChar]
  omega

theorem readHex_hexDigits {code : Nat} {digits : List Char} (hdigits : HexDigits code digits)
    (rest : List Char) : readHex (digits ++ rest) = .ok (code, rest) := by
  cases hdigits with
  | @four a b c d w x y z first second third fourth =>
      simp only [List.cons_append, List.nil_append, readHex,
        if_neg (Nat.not_lt.mpr (le_firstBytes a b c d rest)), first, second, third, fourth]

theorem ne_u_of_escape {letter c : Char} (hescape : shortEscape? letter = some c) :
    letter ≠ 'u' := by
  rintro rfl
  exact nomatch hescape

theorem readEscape_letter {letter c : Char} (hescape : shortEscape? letter = some c)
    (rest : List Char) : readEscape (letter :: rest) = .ok (c, rest) := by
  have hletter := ne_u_of_escape hescape
  simp [readEscape, hescape]

/-- No character is half of a pair. -/
theorem not_half (c : Char) : isLeading c.toNat = false ∧ isTrailing c.toNat = false := by
  have hvalid : c.toNat < 0xd800 ∨ 0xdfff < c.toNat ∧ c.toNat < 0x110000 := c.valid
  simp only [isLeading, isTrailing, Bool.and_eq_false_iff, decide_eq_false_iff_not]
  omega

theorem readEscape_code {c : Char} {digits : List Char} (hcode : HexDigits c.toNat digits)
    (rest : List Char) : readEscape ('u' :: (digits ++ rest)) = .ok (c, rest) := by
  obtain ⟨hleading, htrailing⟩ := not_half c
  simp [readEscape, readHex_hexDigits hcode, hleading, htrailing, Char.ofNat_toNat]

theorem readEscape_pair {leading trailing : Nat} {first second : List Char}
    (hfirst : HexDigits leading first) (hleading : isLeading leading = true)
    (hsecond : HexDigits trailing second) (htrailing : isTrailing trailing = true)
    (rest : List Char) : readEscape ('u' :: (first ++ '\\' :: 'u' :: (second ++ rest))) =
      .ok (pairedChar leading trailing, rest) := by
  have hnot : isTrailing leading = false := by
    simp only [isLeading, isTrailing, Bool.and_eq_true, decide_eq_true_eq,
      Bool.and_eq_false_iff, decide_eq_false_iff_not] at *
    omega
  simp [readEscape, readHex_hexDigits hfirst, hnot, hleading, readTrailing, afterWord,
    readHex_hexDigits hsecond, htrailing]

theorem readChars_escape {c : Char} {text rest : List Char}
    (hescape : readEscape text = .ok (c, rest)) : readChars ('\\' :: text) =
      (readChars rest).map fun (chars, rest) => (c :: chars, rest) := by
  rw [readChars, if_neg (by decide), if_pos rfl, hescape]
  cases hread : readChars rest with
  | ok pair => simp [hread, Except.map]
  | error error => simp [hread, Except.map]

/-- Every spelling is read as what it stands for. -/
theorem readChars_spelled {chars text : List Char} (hspelled : Spelled chars text)
    (rest : List Char) : readChars (text ++ '"' :: rest) = .ok (chars, rest) := by
  induction hspelled with
  | empty => rw [List.nil_append, readChars, if_pos rfl]
  | plain noQuote noBackslash noControl _ ih =>
      rw [List.cons_append, readChars, if_neg noQuote, if_neg noBackslash,
        if_neg (Nat.not_lt.mpr noControl), ih]
  | letter escape _ ih =>
      rw [List.cons_append, List.cons_append, readChars_escape (readEscape_letter escape _), ih]
      rfl
  | code code _ ih =>
      rw [List.cons_append, List.cons_append, List.append_assoc,
        readChars_escape (readEscape_code code _), ih]
      rfl
  | pair leadingCode isLeading trailingCode isTrailing _ ih =>
      simp only [List.cons_append, List.append_assoc]
      rw [readChars_escape (readEscape_pair leadingCode isLeading trailingCode isTrailing _), ih]
      rfl

theorem readText_spelled {value : String} {text : List Char}
    (hspelled : Spelled value.toList text) (rest : List Char) :
    readText (text ++ '"' :: rest) = .ok (value, rest) := by
  rw [readText, readChars_spelled hspelled]
  simp only [String.ofList_toList]

/-! ## Passing over a spelling -/

theorem passEscape_letter {letter c : Char} (hescape : shortEscape? letter = some c)
    (rest : List Char) : passEscape (letter :: rest) = .ok rest := by
  have hletter := ne_u_of_escape hescape
  simp [passEscape, hescape]

theorem passEscape_code {code : Nat} {digits : List Char} (hdigits : HexDigits code digits)
    (rest : List Char) : passEscape ('u' :: (digits ++ rest)) = .ok rest := by
  simp [passEscape, readHex_hexDigits hdigits, Except.map]

theorem passText_plain {c : Char} (noQuote : c ≠ '"') (noBackslash : c ≠ '\\')
    (noControl : 0x20 ≤ c.toNat) (rest : List Char) : passText (c :: rest) = passText rest := by
  rw [passText, if_neg noQuote, if_neg noBackslash, if_neg (Nat.not_lt.mpr noControl)]

theorem passText_escape {text rest : List Char} (hescape : passEscape text = .ok rest) :
    passText ('\\' :: text) = passText rest := by
  rw [passText, if_neg (by decide), if_pos rfl, hescape]

/-- A string that nobody wants ends where it would end if it was wanted. -/
theorem passText_spelled {chars text : List Char} (hspelled : Spelled chars text)
    (rest : List Char) : passText (text ++ '"' :: rest) = .ok rest := by
  induction hspelled with
  | empty => rw [List.nil_append, passText, if_pos rfl]
  | plain noQuote noBackslash noControl _ ih =>
      rw [List.cons_append, passText_plain noQuote noBackslash noControl, ih]
  | letter escape _ ih =>
      rw [List.cons_append, List.cons_append, passText_escape (passEscape_letter escape _), ih]
  | code code _ ih =>
      rw [List.cons_append, List.cons_append, List.append_assoc,
        passText_escape (passEscape_code code _), ih]
  | pair leadingCode _ trailingCode _ _ ih =>
      -- the halves are passed over as two escapes
      simp only [List.cons_append, List.append_assoc]
      rw [passText_escape (passEscape_code leadingCode _),
        passText_escape (passEscape_code trailingCode _), ih]

/-! ## The printed spelling -/

theorem hexDigit?_digitChar : ∀ n < 16, hexDigit? (Nat.digitChar n) = some n := by
  decide

theorem hexDigits_controlEscape {c : Char} (hcontrol : c.toNat < 0x20) :
    HexDigits c.toNat ['0', '0', Nat.digitChar (c.toNat / 16), Nat.digitChar (c.toNat % 16)] := by
  have hhigh := hexDigit?_digitChar (c.toNat / 16) (by omega)
  have hlow := hexDigit?_digitChar (c.toNat % 16) (by omega)
  have hzero : hexDigit? '0' = some 0 := rfl
  have hdigits := HexDigits.four hzero hzero hhigh hlow
  have hvalue : ((0 * 16 + 0) * 16 + c.toNat / 16) * 16 + c.toNat % 16 = c.toNat := by omega
  rwa [hvalue] at hdigits

/-- The printer puts a spelling in front of a spelling. -/
theorem spelled_printChar (c : Char) {chars text : List Char} (hspelled : Spelled chars text) :
    Spelled (c :: chars) (printChar c ++ text) := by
  unfold printChar
  split
  case h_8 noQuote noBackslash _ _ _ _ _ =>
    split
    · next hcontrol => exact .code (hexDigits_controlEscape hcontrol) hspelled
    · next hcontrol =>
        exact .plain noQuote noBackslash (Nat.not_lt.mp hcontrol) hspelled
  all_goals exact .letter rfl hspelled

theorem spelled_flatMap_printChar (chars : List Char) :
    Spelled chars (chars.flatMap printChar) := by
  induction chars with
  | nil => exact .empty
  | cons c chars ih => exact spelled_printChar c ih

/-- No character of the text is a control character. -/
def NoControl (text : List Char) : Prop :=
  ∀ c ∈ text, 0x20 ≤ c.toNat

theorem NoControl.append {first second : List Char} (hfirst : NoControl first)
    (hsecond : NoControl second) : NoControl (first ++ second) := by
  intro c hmem
  exact (List.mem_append.mp hmem).elim (hfirst c) (hsecond c)

theorem noControl_digitChar : ∀ n < 16, 0x20 ≤ (Nat.digitChar n).toNat := by
  decide

theorem noControl_printChar (c : Char) : NoControl (printChar c) := by
  unfold printChar
  split
  case h_8 =>
    split
    · next hcontrol =>
        have hhigh := noControl_digitChar (c.toNat / 16) (by omega)
        have hlow := noControl_digitChar (c.toNat % 16) (by omega)
        simp [NoControl, controlEscape, hhigh, hlow]
    · next hcontrol => simpa [NoControl] using Nat.not_lt.mp hcontrol
  all_goals simp [NoControl]

theorem noControl_printText (text : String) : NoControl (printText text) := by
  intro c hmem
  simp only [printText, List.cons_append, List.mem_cons, List.mem_append, List.mem_flatMap,
    List.not_mem_nil, or_false] at hmem
  obtain rfl | ⟨d, -, hmem⟩ | rfl := hmem
  · decide
  · exact noControl_printChar d c hmem
  · decide

end ContainerAttach.Json
