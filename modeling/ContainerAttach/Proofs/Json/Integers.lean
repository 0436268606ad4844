import ContainerAttach.Json.Number
import ContainerAttach.Json.Printer

/-!
# Integers in JSON

An integer has one text: its digits, without a needless zero in front.  It is read as long
as there is a number for it (`readNumber_printInt`).  Below 2 ^ 64 the number is the
integer itself.  Beyond that it is a floating-point number, and there is none if that
would be too large, which takes more than three hundred digits.

An integer that nobody wants is passed over whatever its size (`passNumber_printInt`).
-/

namespace ContainerAttach.Json

/-- The text of an integer. -/
def printInt (value : Int) : List Char :=
  if value < 0 then '-' :: printNat value.natAbs else printNat value.natAbs

theorem printInt_natCast (n : Nat) : printInt n = printNat n :=
  if_neg (by omega)

/-! ## Digits -/

theorem isDigit_of_mem_printNat {n : Nat} {c : Char} (hmem : c ∈ printNat n) :
    c.isDigit = true :=
  Nat.isDigit_of_mem_toDigits (by decide) (by decide) hmem

/-- No digit, fraction or exponent continues the number in front of the text. -/
def EndsNumber (rest : List Char) : Prop :=
  ∀ c ∈ rest.head?, c.isDigit = false ∧ c ≠ '.' ∧ c ≠ 'e' ∧ c ≠ 'E'

theorem splitDigits_append {digits rest : List Char} (hdigits : ∀ c ∈ digits, c.isDigit = true)
    (hends : EndsNumber rest) : splitDigits (digits ++ rest) = (digits, rest) := by
  have hrest : rest.takeWhile Char.isDigit = [] ∧ rest.dropWhile Char.isDigit = rest := by
    cases rest with
    | nil => exact ⟨rfl, rfl⟩
    | cons c rest =>
        have hc : c.isDigit = false := (hends c rfl).1
        simp [hc]
  rw [splitDigits, List.takeWhile_append_of_pos hdigits, List.dropWhile_append_of_pos hdigits,
    hrest.1, hrest.2, List.append_nil]

/-- No further digits come after a leading zero. -/
theorem exists_printNat_eq (n : Nat) :
    ∃ c digits, printNat n = c :: digits ∧ (c = '0' → n = 0 ∧ digits = []) := by
  induction n using Nat.strongRecOn with
  | _ n ih =>
      rcases Nat.lt_or_ge n 10 with hlt | hge
      · refine ⟨Nat.digitChar n, [], Nat.toDigits_of_lt_base hlt, fun hzero => ⟨?_, rfl⟩⟩
        have hall : ∀ m < 10, Nat.digitChar m = '0' → m = 0 := by decide
        exact hall n hlt hzero
      · -- the first digit is that of the number without its last digit, which is not zero
        obtain ⟨c, digits, hdigits, hzero⟩ := ih (n / 10) (by omega)
        refine ⟨c, digits ++ [Nat.digitChar (n % 10)], ?_, ?_⟩
        · rw [printNat, Nat.toDigits_of_base_le (by decide) hge, ← printNat, hdigits]
          rfl
        · intro hc
          have := (hzero hc).1
          omega

theorem ofDigitChars_printNat (n : Nat) : Nat.ofDigitChars 10 (printNat n) 0 = n :=
  Nat.ofDigitChars_ten_toDigits

theorem le_ofDigitChars (digits : List Char) (significand : Nat) :
    significand ≤ Nat.ofDigitChars 10 digits significand := by
  induction digits generalizing significand with
  | nil => exact Nat.le_of_eq Nat.ofDigitChars_nil.symm
  | cons digit digits ih =>
      rw [Nat.ofDigitChars_cons]
      have := ih (10 * significand + (digit.toNat - '0'.toNat))
      omega

/-! ## As many digits as a word can hold -/

theorem absorb_cons (significand : Nat) (digit : Char) (digits : List Char) {larger : Nat}
    (hlarger : larger = 10 * significand + (digit.toNat - '0'.toNat)) :
    absorb significand (digit :: digits) = if wordBound ≤ larger then (significand, 0)
      else ((absorb larger digits).1, (absorb larger digits).2 + 1) := by
  rw [hlarger, Nat.mul_comm]
  rfl

theorem absorb_of_lt {digits : List Char} {significand : Nat}
    (hlt : Nat.ofDigitChars 10 digits significand < wordBound) :
    absorb significand digits = (Nat.ofDigitChars 10 digits significand, digits.length) := by
  induction digits generalizing significand with
  | nil => rfl
  | cons digit digits ih =>
      rw [Nat.ofDigitChars_cons] at hlt ⊢
      have hlarger := Nat.lt_of_le_of_lt (le_ofDigitChars digits _) hlt
      rw [absorb_cons _ _ _ rfl, if_neg (Nat.not_le.mpr hlarger), ih hlt]
      rfl

/-- A number too large for a word leaves digits over. -/
theorem absorb_lt_of_le {digits : List Char} {significand : Nat}
    (hsignificand : significand < wordBound)
    (hle : wordBound ≤ Nat.ofDigitChars 10 digits significand) :
    (absorb significand digits).2 < digits.length := by
  induction digits generalizing significand with
  | nil =>
      rw [Nat.ofDigitChars_nil] at hle
      omega
  | cons digit digits ih =>
      rw [Nat.ofDigitChars_cons] at hle
      rw [absorb_cons _ _ _ rfl]
      split
      · exact Nat.succ_pos _
      · next hfits => exact Nat.succ_lt_succ (ih (Nat.not_le.mp hfits) hle)

/-! ## Reading -/

/-- The floating-point number of an integer that is too large for a word; none if the integer
is too large for that as well. -/
def floatOf? (n : Nat) : Option Float :=
  match absorb 0 (printNat n) with
  | (significand, count) =>
    scale? significand.toUInt64.toFloat ((printNat n).length - count : Nat)

/-- The number that an integer is read as. -/
def numberOf? (value : Int) : Option Number :=
  if value.natAbs < wordBound then some (ofInteger (value < 0) value.natAbs)
  else (floatOf? value.natAbs).map fun float => .float (if value < 0 then -float else float)

theorem numberOf?_of_lt {value : Int} (hlt : value.natAbs < wordBound) :
    numberOf? value = some (ofInteger (value < 0) value.natAbs) :=
  if_pos hlt

/-- A number that is an integer is the integer that was written. -/
theorem eq_of_numberOf?_integer {n value : Int} (hnumber : numberOf? n = some (.integer value)) :
    value = n := by
  unfold numberOf? ofInteger at hnumber
  split at hnumber
  · split at hnumber
    · next hneg =>
        rw [decide_eq_true_eq] at hneg
        split at hnumber
        · injections
          omega
        · exact nomatch hnumber
    · next hneg =>
        rw [decide_eq_true_eq] at hneg
        injections
        omega
  · cases hfloat : floatOf? n.natAbs with
    | none => exact nomatch hfloat ▸ hnumber
    | some float => exact nomatch hfloat ▸ hnumber

/-- What is read of an integer with the given number and the text after it. -/
def readAs (number : Option Number) (rest : List Char) : Except ReadError (Number × List Char) :=
  match number with
  | some number => .ok (number, rest)
  | none => .error .malformed

theorem afterExponentMark?_of_ends {rest : List Char} (hends : EndsNumber rest) :
    afterExponentMark? rest = none := by
  unfold afterExponentMark?
  split
  · exact absurd rfl (hends 'e' rfl).2.2.1
  · exact absurd rfl (hends 'E' rfl).2.2.2
  · rfl

theorem readFraction_of_ends {rest : List Char} (hends : EndsNumber rest) (negative : Bool)
    (significand dropped : Nat) : readFraction negative significand dropped rest =
      if dropped = 0 then .ok (ofInteger negative significand, rest)
      else readExponent negative significand dropped rest := by
  unfold readFraction
  split
  · exact absurd rfl (hends '.' rfl).2.1
  · simp [afterExponentMark?_of_ends hends]

theorem readExponent_of_ends {rest : List Char} (hends : EndsNumber rest) (negative : Bool)
    (significand : Nat) (exponent : Int) : readExponent negative significand exponent rest =
      readAs ((scale? significand.toUInt64.toFloat exponent).map fun float =>
        .float (if negative then -float else float)) rest := by
  rw [readExponent, afterExponentMark?_of_ends hends]
  cases scale? significand.toUInt64.toFloat exponent with
  | none => rfl
  | some float => rfl

theorem readMagnitude_printNat (negative : Bool) (n : Nat) {rest : List Char}
    (hends : EndsNumber rest) : readMagnitude negative (printNat n ++ rest) =
      readAs (if n < wordBound then some (ofInteger negative n)
        else (floatOf? n).map fun float => .float (if negative then -float else float)) rest := by
  have hsplit := splitDigits_append (fun c => isDigit_of_mem_printNat (n := n)) hends
  obtain ⟨c, digits, hdigits, hzero⟩ := exists_printNat_eq n
  have hread : readMagnitude negative (printNat n ++ rest) =
      readFraction negative (absorb 0 (printNat n)).1
        ((printNat n).length - (absorb 0 (printNat n)).2) rest := by
    rw [readMagnitude, hsplit, hdigits]
    -- what is refused is an empty number and a needless zero, and neither is printed
    split
    · next heq => exact nomatch heq
    · next heq => exact nomatch heq
    · next heq =>
        obtain ⟨rfl, rfl⟩ := List.cons.inj (Prod.mk.inj heq).1
        exact absurd (hzero rfl).2 (List.cons_ne_nil _ _)
    · next heq =>
        obtain ⟨rfl, rfl⟩ := Prod.mk.inj heq
        rfl
  rw [hread, readFraction_of_ends hends]
  by_cases hlt : n < wordBound
  · have habsorb : absorb 0 (printNat n) = (n, (printNat n).length) := by
      rw [absorb_of_lt (by rwa [ofDigitChars_printNat]), ofDigitChars_printNat]
    rw [habsorb, if_pos (Nat.sub_self _), if_pos hlt]
    rfl
  · have hcount : (absorb 0 (printNat n)).2 < (printNat n).length :=
      absorb_lt_of_le (by decide) (by rwa [ofDigitChars_printNat, ← Nat.not_lt])
    rw [if_neg (by omega), if_neg hlt, readExponent_of_ends hends]
    rfl

theorem readNumber_of_digit {c : Char} (hdigit : c.isDigit = true) (rest : List Char) :
    readNumber (c :: rest) = readMagnitude false (c :: rest) := by
  unfold readNumber
  split
  · next heq =>
      obtain rfl := (List.cons.inj heq).1
      exact absurd hdigit (by decide)
  · rfl

/-- An integer is read as its number, if there is one. -/
theorem readNumber_printInt (value : Int) {rest : List Char} (hends : EndsNumber rest) :
    readNumber (printInt value ++ rest) = readAs (numberOf? value) rest := by
  rw [printInt, numberOf?]
  by_cases hneg : value < 0
  · simp only [hneg, if_true, List.cons_append, readNumber, readMagnitude_printNat _ _ hends,
      decide_true]
  · obtain ⟨c, digits, hdigits, -⟩ := exists_printNat_eq value.natAbs
    have hdigit : c.isDigit = true := isDigit_of_mem_printNat (hdigits ▸ List.mem_cons_self)
    have hread := readMagnitude_printNat false value.natAbs hends
    rw [hdigits, List.cons_append, ← readNumber_of_digit hdigit] at hread
    simp only [hneg, if_false, decide_false, hdigits, List.cons_append, hread]
    rfl

/-! ## Passing over -/

theorem passMagnitude_printNat (n : Nat) {rest : List Char} (hends : EndsNumber rest) :
    passMagnitude (printNat n ++ rest) = .ok rest := by
  have hfraction : passFraction rest = .ok rest := by
    unfold passFraction
    split
    · exact absurd rfl (hends '.' rfl).2.1
    · rw [passExponent, afterExponentMark?_of_ends hends]
  obtain ⟨c, digits, hdigits, hzero⟩ := exists_printNat_eq n
  rw [passMagnitude, splitDigits_append (fun c => isDigit_of_mem_printNat) hends, hdigits]
  split
  · next heq => exact nomatch heq
  · next heq =>
      obtain ⟨rfl, rfl⟩ := List.cons.inj (Prod.mk.inj heq).1
      exact absurd (hzero rfl).2 (List.cons_ne_nil _ _)
  · next heq =>
      obtain ⟨-, rfl⟩ := Prod.mk.inj heq
      exact hfraction

theorem passNumber_printInt (value : Int) {rest : List Char} (hends : EndsNumber rest) :
    passNumber (printInt value ++ rest) = .ok rest := by
  rw [printInt]
  split
  · exact passMagnitude_printNat value.natAbs hends
  · obtain ⟨c, digits, hdigits, -⟩ := exists_printNat_eq value.natAbs
    have hpass := passMagnitude_printNat value.natAbs hends
    rw [hdigits, List.cons_append] at hpass ⊢
    unfold passNumber
    split
    · next heq =>
        obtain rfl := (List.cons.inj heq).1
        have hdigit := isDigit_of_mem_printNat (n := value.natAbs) (hdigits ▸ List.mem_cons_self)
        exact absurd hdigit (by decide)
    · exact hpass

end ContainerAttach.Json
