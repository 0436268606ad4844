import ContainerAttach.Json.Value
import ContainerAttach.Proofs.Json.Integers
import ContainerAttach.Proofs.Json.Strings

/-!
# Scalars in JSON

A scalar is a value that is no array and no object.  Whoever comes upon one, to read it, to
keep it or to pass over it, does what its value says, whatever white space stands in front
and however it is spelled.

Where a value of one type is wanted, exactly the scalars of that type are accepted
(`Scalar.toUInt16_eq_ok_iff` and its neighbours); a size is an integer between 0 and
65535, and nothing else is turned into one.
-/

namespace ContainerAttach.Json

/-! ## Scalars -/

/-- A value that is no array and no object. -/
inductive Scalar where
  | null
  | boolean (value : Bool)
  | integer (value : Int)
  | text (value : String)
  deriving DecidableEq, Repr

namespace Scalar

/-- The texts of a scalar.  Only a string has more than one. -/
inductive Spelled : Scalar → List Char → Prop
  | null : Spelled .null ['n', 'u', 'l', 'l']
  | yes : Spelled (.boolean true) ['t', 'r', 'u', 'e']
  | no : Spelled (.boolean false) ['f', 'a', 'l', 's', 'e']
  | integer (value : Int) : Spelled (.integer value) (printInt value)
  | text {value : String} {text : List Char} (spelled : Json.Spelled value.toList text) :
      Spelled (.text value) ('"' :: (text ++ ['"']))

/-- What is found where the scalar stands. -/
def found : Scalar → Except ReadError Found
  | .null => .ok .null
  | .boolean value => .ok (.boolean value)
  | .integer value =>
    match numberOf? value with
    | some number => .ok (.number number)
    | none => .error .malformed
  | .text value => .ok (.text value)

/-- What is found where a size is wanted. -/
def toUInt16 (value : Scalar) : Except ReadError UInt16 :=
  value.found.bind Found.toUInt16

/-- What is found where a string is wanted. -/
def toText (expected : String) : Scalar → Except ReadError String
  | .text value => .ok value
  | value => value.found.bind fun found => .error (found.wrongType expected)

/-- What is found where a string or nothing is wanted. -/
def toOption : Scalar → Except ReadError (Option String)
  | .null => .ok none
  | value => (value.toText "a string").map some

end Scalar

/-! ## White space -/

/-- White space, of any length. -/
def Blank (text : List Char) : Prop :=
  ∀ c ∈ text, isSpace c = true

theorem blank_nil : Blank [] := by
  simp [Blank]

theorem skipSpace_blank {blank : List Char} (hblank : Blank blank) (text : List Char) :
    skipSpace (blank ++ text) = skipSpace text :=
  List.dropWhile_append_of_pos hblank

theorem skipSpace_cons {c : Char} (hspace : isSpace c = false) (text : List Char) :
    skipSpace (c :: text) = c :: text :=
  List.dropWhile_cons_of_neg (by simp [hspace])

/-- White space and a separator end a number. -/
theorem endsNumber_blank {blank : List Char} (hblank : Blank blank) {c : Char}
    (hc : c = ',' ∨ c = '\x7d') (rest : List Char) : EndsNumber (blank ++ c :: rest) := by
  have hseparator : ∀ d, isSpace d = true ∨ d = ',' ∨ d = '\x7d' →
      d.isDigit = false ∧ d ≠ '.' ∧ d ≠ 'e' ∧ d ≠ 'E' := by
    intro d hd
    simp only [isSpace, Bool.or_eq_true, decide_eq_true_eq] at hd
    obtain (((rfl | rfl) | rfl) | rfl) | rfl | rfl := hd <;> decide
  intro d hd
  cases blank with
  | nil =>
      obtain rfl := Option.some.inj hd
      exact hseparator c (.inr hc)
  | cons first blank =>
      obtain rfl := Option.some.inj hd
      exact hseparator first (.inl (hblank first List.mem_cons_self))

/-! ## Reading scalars -/

/-- The character that an integer starts with starts nothing else. -/
structure StartsInteger (c : Char) : Prop where
  digitOrMinus : (c = '-' || c.isDigit) = true
  noSpace : isSpace c = false
  noBracket : c ≠ '['
  noBrace : c ≠ '\x7b'
  noQuote : c ≠ '"'
  noWord : c ≠ 'n' ∧ c ≠ 't' ∧ c ≠ 'f'

theorem exists_printInt_eq (value : Int) :
    ∃ c rest, printInt value = c :: rest ∧ StartsInteger c := by
  have hall : ∀ c : Char, c = '-' ∨ c.isDigit = true → StartsInteger c := by
    intro c hc
    refine ⟨by simpa using hc, ?_, ?_, ?_, ?_, ?_, ?_, ?_⟩
    · rw [Bool.eq_false_iff]
      intro hspace
      simp only [isSpace, Bool.or_eq_true, decide_eq_true_eq] at hspace
      obtain ((rfl | rfl) | rfl) | rfl := hspace <;> exact absurd hc (by decide)
    all_goals
      rintro rfl
      exact absurd hc (by decide)
  rw [printInt]
  split
  · exact ⟨'-', _, rfl, hall '-' (.inl rfl)⟩
  · obtain ⟨c, digits, hdigits, -⟩ := exists_printNat_eq value.natAbs
    have hdigit : c.isDigit = true := isDigit_of_mem_printNat (hdigits ▸ List.mem_cons_self)
    exact ⟨c, digits, hdigits, hall c (.inr hdigit)⟩

variable {value : Scalar} {text rest : List Char}

theorem readScalar_spelled (hspelled : value.Spelled text) (hends : EndsNumber rest) :
    readScalar (text ++ rest) = value.found.map (·, rest) := by
  cases hspelled with
  | null => rfl
  | yes => rfl
  | no => rfl
  | integer value =>
      obtain ⟨c, digits, hdigits, hstarts⟩ := exists_printInt_eq value
      have hread := readNumber_printInt value hends
      rw [hdigits, List.cons_append] at hread ⊢
      obtain ⟨hnull, htrue, hfalse⟩ := hstarts.noWord
      simp only [readScalar, if_neg hnull, if_neg htrue, if_neg hfalse, if_neg hstarts.noQuote,
        if_pos hstarts.digitOrMinus, hread, Scalar.found]
      cases numberOf? value with
      | some number => rfl
      | none => rfl
  | text spelled =>
      rw [List.cons_append, List.append_assoc]
      simp [readScalar, readText_spelled spelled, Scalar.found, Except.map]

theorem passScalar_spelled (hspelled : value.Spelled text) (hends : EndsNumber rest) :
    passScalar .loose (text ++ rest) = .ok rest := by
  cases hspelled with
  | null => rfl
  | yes => rfl
  | no => rfl
  | integer value =>
      obtain ⟨c, digits, hdigits, hstarts⟩ := exists_printInt_eq value
      have hpass := passNumber_printInt value hends
      have hquote := hstarts.noQuote
      rw [hdigits, List.cons_append] at hpass ⊢
      simp [passScalar, hstarts.digitOrMinus, hpass]
  | text spelled =>
      rw [List.cons_append, List.append_assoc]
      exact passText_spelled spelled rest

/-- What every scalar starts with. -/
structure StartsScalar (c : Char) : Prop where
  noSpace : isSpace c = false
  noBracket : c ≠ '['
  noBrace : c ≠ '\x7b'

theorem Scalar.Spelled.exists_eq (hspelled : value.Spelled text) :
    ∃ c rest, text = c :: rest ∧ StartsScalar c := by
  cases hspelled with
  | null => exact ⟨'n', _, rfl, rfl, by decide, by decide⟩
  | yes => exact ⟨'t', _, rfl, rfl, by decide, by decide⟩
  | no => exact ⟨'f', _, rfl, rfl, by decide, by decide⟩
  | integer value =>
      obtain ⟨c, digits, hdigits, hstarts⟩ := exists_printInt_eq value
      exact ⟨c, digits, hdigits, hstarts.noSpace, hstarts.noBracket, hstarts.noBrace⟩
  | text spelled => exact ⟨'"', _, rfl, rfl, by decide, by decide⟩

variable {blank : List Char}

theorem skipSpace_spelled (hblank : Blank blank) (hspelled : value.Spelled text)
    (rest : List Char) : skipSpace (blank ++ (text ++ rest)) = text ++ rest := by
  obtain ⟨c, more, rfl, hstarts⟩ := hspelled.exists_eq
  rw [skipSpace_blank hblank, List.cons_append, skipSpace_cons hstarts.noSpace]

/-- A scalar of no interest is passed over. -/
theorem passForeign_spelled (hblank : Blank blank) (hspelled : value.Spelled text)
    (hends : EndsNumber rest) : passForeign (blank ++ (text ++ rest)) = .ok rest := by
  have hpass := passScalar_spelled hspelled hends
  have hskip := skipSpace_spelled hblank hspelled rest
  obtain ⟨c, more, rfl, hstarts⟩ := hspelled.exists_eq
  rw [passForeign, passValue, hskip, List.cons_append]
  simp only [if_neg hstarts.noBracket, if_neg hstarts.noBrace]
  exact hpass

/-- A scalar that is collected is kept as what is found there. -/
theorem readFound_spelled (hblank : Blank blank) (hspelled : value.Spelled text)
    (hends : EndsNumber rest) :
    readFound (blank ++ (text ++ rest)) = value.found.map (·, rest) := by
  have hread := readScalar_spelled hspelled hends
  have hskip := skipSpace_spelled hblank hspelled rest
  obtain ⟨c, more, rfl, hstarts⟩ := hspelled.exists_eq
  rw [List.cons_append] at hread hskip
  rw [readFound, List.cons_append, hskip, ← hread]
  split
  · next heq => exact absurd (List.cons.inj heq).1 hstarts.noBracket
  · next heq => exact absurd (List.cons.inj heq).1 hstarts.noBrace
  · rfl

theorem unexpected_spelled {α : Type} (expected : String) (hspelled : value.Spelled text)
    (hends : EndsNumber rest) : (.error (unexpected expected (text ++ rest)) : Except _ α) =
      value.found.bind fun found => .error (found.wrongType expected) := by
  have hread := readScalar_spelled hspelled hends
  obtain ⟨c, more, rfl, hstarts⟩ := hspelled.exists_eq
  rw [List.cons_append] at hread ⊢
  unfold unexpected
  -- arrays and objects are known by their brackets, and no scalar starts with one
  split
  · next heq => exact absurd (List.cons.inj heq).1 hstarts.noBracket
  · next heq => exact absurd (List.cons.inj heq).1 hstarts.noBrace
  · rw [hread]
    cases value.found with
    | ok found => rfl
    | error error => rfl

theorem readUInt16_spelled (hblank : Blank blank) (hspelled : value.Spelled text)
    (hends : EndsNumber rest) :
    readUInt16 (blank ++ (text ++ rest)) = value.toUInt16.map (·, rest) := by
  have hunexpected := unexpected_spelled (α := UInt16 × List Char) "u16" hspelled hends
  rw [readUInt16, skipSpace_spelled hblank hspelled]
  cases hspelled with
  | null => exact hunexpected
  | yes => exact hunexpected
  | no => exact hunexpected
  | text spelled => exact hunexpected
  | integer value =>
      obtain ⟨c, digits, hdigits, hstarts⟩ := exists_printInt_eq value
      have hread := readNumber_printInt value hends
      rw [hdigits, List.cons_append] at hread ⊢
      simp only [if_pos hstarts.digitOrMinus, hread, Scalar.toUInt16, Scalar.found]
      cases numberOf? value with
      | some number => rfl
      | none => rfl

theorem readString_spelled (expected : String) (hblank : Blank blank)
    (hspelled : value.Spelled text) (hends : EndsNumber rest) :
    readString expected (blank ++ (text ++ rest)) = (value.toText expected).map (·, rest) := by
  have hunexpected := unexpected_spelled (α := String × List Char) expected hspelled hends
  rw [readString, skipSpace_spelled hblank hspelled]
  cases hspelled with
  | null => exact hunexpected
  | yes => exact hunexpected
  | no => exact hunexpected
  | text spelled =>
      rw [List.cons_append, List.append_assoc]
      exact readText_spelled spelled rest
  | integer value =>
      obtain ⟨c, digits, hdigits, hstarts⟩ := exists_printInt_eq value
      rw [hdigits, List.cons_append] at hunexpected ⊢
      split
      · next heq => exact nomatch heq
      · next heq => exact absurd (List.cons.inj heq).1 hstarts.noQuote
      · rw [hunexpected]
        show _ = ((Scalar.integer value).found.bind _).map _
        cases (Scalar.integer value).found with
        | ok found => rfl
        | error error => rfl

theorem readOption_spelled (hblank : Blank blank) (hspelled : value.Spelled text)
    (hends : EndsNumber rest) :
    readOption (blank ++ (text ++ rest)) = value.toOption.map (·, rest) := by
  have hread := readString_spelled "a string" blank_nil hspelled hends
  rw [readOption, skipSpace_spelled hblank hspelled]
  cases hspelled with
  | null => rfl
  | yes => rfl
  | no => rfl
  | text spelled =>
      rw [List.nil_append, List.cons_append] at hread
      rw [List.cons_append]
      show Except.map _ (readString _ ('"' :: _)) = _
      rw [hread]
      rfl
  | integer value =>
      obtain ⟨c, digits, hdigits, hstarts⟩ := exists_printInt_eq value
      rw [List.nil_append, hdigits, List.cons_append] at hread
      rw [hdigits, List.cons_append]
      split
      · next heq => exact absurd (List.cons.inj heq).1 hstarts.noWord.1
      · rw [hread]
        show _ = (((Scalar.integer value).toText _).map some).map _
        cases (Scalar.integer value).toText "a string" with
        | ok found => rfl
        | error error => rfl

/-! ## What is accepted -/

theorem toUInt16_of_mem_range {n : Int} (hrange : 0 ≤ n ∧ n < UInt16.size) :
    (Scalar.integer n).toUInt16 = .ok (UInt16.ofNat n.toNat) := by
  obtain ⟨n, rfl⟩ := Int.eq_ofNat_of_zero_le hrange.1
  have hword : (n : Int).natAbs < wordBound := by
    rw [wordBound, UInt64.size]
    have := hrange.2
    rw [UInt16.size] at this
    omega
  have hnonneg : ¬(n : Int) < 0 := by omega
  simp only [Scalar.toUInt16, Scalar.found, numberOf?_of_lt hword, ofInteger, hnonneg,
    decide_false, Bool.false_eq_true, if_false, Int.natAbs_natCast, Except.bind, Found.toUInt16,
    if_pos hrange]

/-- An integer that is no size is refused, however large it is. -/
theorem toUInt16_of_not_mem_range {n : Int} (hrange : ¬(0 ≤ n ∧ n < UInt16.size)) :
    ∃ error, (Scalar.integer n).toUInt16 = .error error := by
  rw [Scalar.toUInt16, Scalar.found]
  cases hnumber : numberOf? n with
  | none => exact ⟨_, rfl⟩
  | some number =>
      cases number with
      | float value => exact ⟨_, rfl⟩
      | integer value =>
          obtain rfl := eq_of_numberOf?_integer hnumber
          exact ⟨_, if_neg hrange⟩

theorem Scalar.toUInt16_eq_ok_iff {value : Scalar} {size : UInt16} :
    value.toUInt16 = .ok size ↔ value = .integer size.toNat := by
  cases value with
  | null => exact ⟨nofun, nofun⟩
  | boolean value => exact ⟨nofun, nofun⟩
  | text value => exact ⟨nofun, nofun⟩
  | integer n =>
      rw [Scalar.integer.injEq]
      have hsize := size.toNat_lt
      by_cases hrange : 0 ≤ n ∧ n < UInt16.size
      · rw [toUInt16_of_mem_range hrange, Except.ok.injEq, ← UInt16.toNat_inj,
          UInt16.toNat_ofNat_of_lt' (by omega)]
        omega
      · obtain ⟨error, herror⟩ := toUInt16_of_not_mem_range hrange
        rw [herror]
        refine ⟨nofun, fun hn => absurd ?_ hrange⟩
        rw [UInt16.size]
        omega

theorem Scalar.toText_eq_ok_iff {expected text : String} {value : Scalar} :
    value.toText expected = .ok text ↔ value = .text text := by
  cases value with
  | null => exact ⟨nofun, nofun⟩
  | boolean value => exact ⟨nofun, nofun⟩
  | text value => simp [Scalar.toText]
  | integer n =>
      rw [Scalar.toText, Scalar.found]
      · cases numberOf? n with
        | none => exact ⟨nofun, nofun⟩
        | some number => exact ⟨nofun, nofun⟩
      · exact nofun

/-- What gives an optional string. -/
def ofOption (text : Option String) : Scalar :=
  text.elim .null .text

theorem Scalar.toOption_eq_ok_iff {text : Option String} {value : Scalar} :
    value.toOption = .ok text ↔ value = ofOption text := by
  have hsome (value : Scalar) (hnull : value ≠ .null) :
      (value.toText "a string").map some = .ok text ↔ value = ofOption text := by
    cases text with
    | none => cases value.toText "a string" <;> simp [Except.map, ofOption, hnull]
    | some chosen =>
        show _ ↔ value = .text chosen
        rw [← @Scalar.toText_eq_ok_iff "a string"]
        cases value.toText "a string" <;> simp [Except.map]
  cases value with
  | null =>
      cases text with
      | none => exact iff_of_true rfl rfl
      | some chosen => exact ⟨nofun, nofun⟩
  | boolean value => exact hsome (.boolean value) nofun
  | integer value => exact hsome (.integer value) nofun
  | text value => exact hsome (.text value) nofun

/-! ## What can be told -/

/-- What the scalar is can be told. -/
def Scalar.Readable (value : Scalar) : Prop :=
  ∃ found, value.found = .ok found

theorem Scalar.readable_integer_iff {n : Int} : (Scalar.integer n).Readable ↔
    n.natAbs < wordBound ∨ (floatOf? n.natAbs).isSome = true := by
  have hfound : (Scalar.integer n).Readable ↔ (numberOf? n).isSome = true := by
    rw [Scalar.Readable, Scalar.found]
    cases numberOf? n with
    | none => exact ⟨nofun, nofun⟩
    | some number => exact iff_of_true ⟨_, rfl⟩ rfl
  rw [hfound, numberOf?]
  by_cases hword : n.natAbs < wordBound
  · rw [if_pos hword]
    exact iff_of_true rfl (.inl hword)
  · rw [if_neg hword, Option.isSome_map]
    exact (or_iff_right hword).symm

/-- Every scalar can be told but an integer that neither a word nor a floating-point number
can hold. -/
theorem Scalar.readable_iff {value : Scalar} : value.Readable ↔ ∀ n, value = .integer n →
    n.natAbs < wordBound ∨ (floatOf? n.natAbs).isSome = true := by
  cases value with
  | null => exact iff_of_true ⟨_, rfl⟩ nofun
  | boolean value => exact iff_of_true ⟨_, rfl⟩ nofun
  | text value => exact iff_of_true ⟨_, rfl⟩ nofun
  | integer n =>
      rw [Scalar.readable_integer_iff]
      constructor
      · intro hnumber m hm
        obtain rfl := Scalar.integer.inj hm
        exact hnumber
      · intro hnumber
        exact hnumber n rfl

end ContainerAttach.Json
