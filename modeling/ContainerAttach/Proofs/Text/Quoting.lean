import ContainerAttach.Proofs.Text.Utf8
import ContainerAttach.Text.Quoted
import Mathlib.Logic.Function.Basic

/-!
# Quoted texts end where they end

A way of writing values down delimits them if the value can be told from the front of any text
that starts with it, whatever comes behind (`Delimits`).  Quoting delimits texts: no character
is written with a quote in front, so the closing quote is the first that stands in such a place,
and the written forms of the characters delimit them in their turn.  The digits of a number do
not delimit it, but they do with a character behind them that is no digit.

Quoting delimits bytes too.  A byte that is spelled out has a mark of its own, so it is not taken
for a character, and the characters and bytes together are the bytes that were quoted.
-/

namespace ContainerAttach.Text

/-- What is written can be told from the front of a text, and so can what comes behind it. -/
def Delimits {α : Type} (write : α → List Char) : Prop :=
  ∀ ⦃value other : α⦄ ⦃rest further : List Char⦄,
    write value ++ rest = write other ++ further → value = other ∧ rest = further

/-- A character that is not written otherwise ends what is written. -/
theorem delimits_of_not_mem {α : Type} {write : α → List Char} {stop : Char}
    (hstop : ∀ value, stop ∉ write value) (hinjective : Function.Injective write) :
    Delimits fun value => write value ++ [stop] := by
  have hbefore : ∀ value, ∀ c ∈ write value, (c != stop) = true := by
    intro value c hc
    rw [bne_iff_ne]
    rintro rfl
    exact hstop value hc
  have htake : ∀ value rest,
      (write value ++ [stop] ++ rest).takeWhile (· != stop) = write value := by
    intro value rest
    rw [List.append_assoc, List.takeWhile_append_of_pos (hbefore value)]
    simp
  intro value other rest further heq
  have hvalue : write value = write other := by
    rw [← htake value rest, ← htake other further, heq]
  dsimp only at heq
  rw [hvalue] at heq
  exact ⟨hinjective hvalue, List.append_cancel_left heq⟩

/-- Values are delimited by what ends them all, if no value begins with it and the values delimit
themselves. -/
theorem delimits_flatMap {α : Type} {write : α → List Char} {stop : Char}
    (hwrite : Delimits write)
    (hstop : ∀ value behind rest, write value ++ behind ≠ stop :: rest) :
    Delimits fun values : List α => values.flatMap write ++ [stop] := by
  intro values others rest further heq
  dsimp only at heq
  rw [List.append_assoc, List.append_assoc] at heq
  induction values generalizing others with
  | nil =>
      cases others with
      | nil => exact ⟨rfl, List.append_cancel_left heq⟩
      | cons other others =>
          rw [List.flatMap_cons, List.append_assoc] at heq
          exact absurd heq.symm (hstop other _ _)
  | cons value values ih =>
      rw [List.flatMap_cons, List.append_assoc] at heq
      cases others with
      | nil => exact absurd heq (hstop value _ _)
      | cons other others =>
          rw [List.flatMap_cons, List.append_assoc] at heq
          obtain ⟨rfl, hmore⟩ := hwrite heq
          obtain ⟨rfl, hrest⟩ := ih hmore
          exact ⟨rfl, hrest⟩

/-! ## Numbers -/

theorem digitChar_inj {digit other : Nat} (hdigit : digit < 16) (hother : other < 16)
    (heq : Nat.digitChar digit = Nat.digitChar other) : digit = other := by
  have hall : ∀ digit < 16, ∀ other < 16, Nat.digitChar digit = Nat.digitChar other →
      digit = other := by
    decide
  exact hall digit hdigit other hother heq

theorem exists_digitChar_of_mem_toDigits {base n : Nat} (hbase : 1 < base) {c : Char}
    (hmem : c ∈ Nat.toDigits base n) : ∃ digit < base, c = Nat.digitChar digit := by
  induction n using Nat.strongRecOn with
  | _ n ih =>
      rcases Nat.lt_or_ge n base with hlt | hge
      · rw [Nat.toDigits_of_lt_base hlt] at hmem
        exact ⟨n, hlt, List.mem_singleton.mp hmem⟩
      · rw [Nat.toDigits_of_base_le hbase hge, List.mem_append, List.mem_singleton] at hmem
        rcases hmem with hmem | hlast
        · exact ih (n / base) (Nat.div_lt_self (by omega) hbase) hmem
        · exact ⟨n % base, Nat.mod_lt n (by omega), hlast⟩

/-- Different numbers have different digits, as long as there is a letter for each of them. -/
theorem toDigits_inj {base n other : Nat} (hbase : 1 < base) (hletters : base ≤ 16)
    (heq : Nat.toDigits base n = Nat.toDigits base other) : n = other := by
  have hshort : ∀ small big : Nat, small < base → base ≤ big →
      Nat.toDigits base small ≠ Nat.toDigits base big := by
    intro small big hsmall hbig hdigits
    have hlength := congrArg List.length hdigits
    rw [Nat.toDigits_of_lt_base hsmall, Nat.toDigits_of_base_le hbase hbig,
      List.length_append] at hlength
    have hfront : 0 < (Nat.toDigits base (big / base)).length := Nat.length_toDigits_pos
    simp only [List.length_singleton] at hlength
    omega
  induction n using Nat.strongRecOn generalizing other with
  | _ n ih =>
      rcases Nat.lt_or_ge n base with hlt | hge <;>
        rcases Nat.lt_or_ge other base with hother | hother
      · rw [Nat.toDigits_of_lt_base hlt, Nat.toDigits_of_lt_base hother] at heq
        exact digitChar_inj (by omega) (by omega) (List.singleton_inj.mp heq)
      · exact absurd heq (hshort n other hlt hother)
      · exact absurd heq.symm (hshort other n hother hge)
      · rw [Nat.toDigits_of_base_le hbase hge, Nat.toDigits_of_base_le hbase hother] at heq
        obtain ⟨hfront, hlast⟩ := List.append_inj' heq rfl
        have hquotient := ih (n / base) (Nat.div_lt_self (by omega) hbase) hfront
        have hmod : n % base < base := Nat.mod_lt n (by omega)
        have hmod_other : other % base < base := Nat.mod_lt other (by omega)
        have hremainder : n % base = other % base :=
          digitChar_inj (by omega) (by omega) (List.singleton_inj.mp hlast)
        rw [← Nat.div_add_mod n base, ← Nat.div_add_mod other base, hquotient, hremainder]

/-- A character that is no digit ends a number. -/
theorem delimits_toDigits {base : Nat} (hbase : 1 < base) (hletters : base ≤ 16) {stop : Char}
    (hstop : ∀ digit < 16, Nat.digitChar digit ≠ stop) :
    Delimits fun n : Nat => Nat.toDigits base n ++ [stop] := by
  refine delimits_of_not_mem (fun n hmem => ?_) fun n other => toDigits_inj hbase hletters
  obtain ⟨digit, hdigit, hchar⟩ := exists_digitChar_of_mem_toDigits hbase hmem
  exact hstop digit (by omega) hchar.symm

/-! ## Characters -/

/-- The characters that have a short escape, with the mark that stands for them. -/
def marks : List (Char × Char) :=
  [('\x00', '0'), ('\t', 't'), ('\n', 'n'), ('\r', 'r'), ('"', '"'), ('\\', '\\')]

/-- The ways in which a character can be written. -/
inductive Spelling (c : Char) : List Char → Prop
  | marked {mark : Char} (mem : (c, mark) ∈ marks) : Spelling c ['\\', mark]
  | numbered : Spelling c ('\\' :: 'u' :: '\x7b' :: (Nat.toDigits 16 c.toNat ++ ['\x7d']))
  | plain (not_backslash : c ≠ '\\') (not_quote : c ≠ '"') : Spelling c [c]

theorem spelling_quoteChar (c : Char) : Spelling c (quoteChar c) := by
  unfold quoteChar
  split
  case h_7 _ _ _ _ hquote hbackslash =>
    split
    · exact .numbered
    · exact .plain hbackslash hquote
  all_goals exact .marked (by simp [marks])

/-- Each mark stands for one character, and none begins a number. -/
theorem eq_of_mem_marks {c other mark : Char} (hmem : (c, mark) ∈ marks)
    (hother : (other, mark) ∈ marks) : c = other := by
  have hall : ∀ entry ∈ marks, ∀ further ∈ marks, entry.2 = further.2 → entry.1 = further.1 := by
    decide
  exact hall _ hmem _ hother rfl

theorem ne_of_mem_marks {c mark : Char} (hmem : (c, mark) ∈ marks) :
    mark ≠ 'u' ∧ mark ≠ 'x' := by
  have hall : ∀ entry ∈ marks, entry.2 ≠ 'u' ∧ entry.2 ≠ 'x' := by decide
  exact hall _ hmem

theorem Spelling.exists_cons {c : Char} {spelled : List Char} (hspelled : Spelling c spelled) :
    ∃ first more, spelled = first :: more ∧ first ≠ '"' := by
  cases hspelled with
  | marked mem => exact ⟨_, _, rfl, by decide⟩
  | numbered => exact ⟨_, _, rfl, by decide⟩
  | plain not_backslash not_quote => exact ⟨_, _, rfl, not_quote⟩

theorem delimits_quoteChar : Delimits quoteChar := by
  intro c other rest further heq
  have hspelled := spelling_quoteChar c
  have hother := spelling_quoteChar other
  generalize quoteChar c = spelled at heq hspelled
  generalize quoteChar other = otherwise at heq hother
  cases hspelled with
  | marked mem =>
      cases hother with
      | marked mem' =>
          obtain ⟨hmark, hrest⟩ := List.cons.inj (List.cons.inj heq).2
          exact ⟨eq_of_mem_marks mem (hmark ▸ mem'), hrest⟩
      | numbered =>
          exact absurd (List.cons.inj (List.cons.inj heq).2).1 (ne_of_mem_marks mem).1
      | plain not_backslash => exact absurd (List.cons.inj heq).1.symm not_backslash
  | numbered =>
      cases hother with
      | marked mem' =>
          exact absurd (List.cons.inj (List.cons.inj heq).2).1.symm (ne_of_mem_marks mem').1
      | numbered =>
          -- behind the brace stand the digits of the two numbers
          have hdigits := (List.cons.inj (List.cons.inj (List.cons.inj heq).2).2).2
          have hbrace : ∀ digit < 16, Nat.digitChar digit ≠ '\x7d' := by decide
          obtain ⟨hnumber, hrest⟩ :=
            delimits_toDigits (by decide) (Nat.le_refl 16) hbrace hdigits
          exact ⟨Char.toNat_inj.mp hnumber, hrest⟩
      | plain not_backslash => exact absurd (List.cons.inj heq).1.symm not_backslash
  | plain not_backslash not_quote =>
      cases hother with
      | marked mem' => exact absurd (List.cons.inj heq).1 not_backslash
      | numbered => exact absurd (List.cons.inj heq).1 not_backslash
      | plain => exact List.cons.inj heq

/-! ## Texts -/

/-- The closing quote is the first that no character is written with. -/
theorem delimits_quoted : Delimits fun text : List Char => text.flatMap quoteChar ++ ['"'] := by
  refine delimits_flatMap delimits_quoteChar ?_
  intro c behind rest heq
  obtain ⟨first, more, hspelled, hfirst⟩ := (spelling_quoteChar c).exists_cons
  rw [hspelled] at heq
  exact hfirst (List.cons.inj heq).1

theorem toList_quote (text : String) :
    (quote text).toList = '"' :: (text.toList.flatMap quoteChar ++ ['"']) := by
  rw [quote, String.toList_ofList]
  rfl

theorem delimits_quote : Delimits fun text : String => (quote text).toList := by
  intro text other rest further heq
  dsimp only at heq
  rw [toList_quote, toList_quote] at heq
  obtain ⟨htext, hrest⟩ := delimits_quoted (List.cons.inj heq).2
  exact ⟨String.toList_inj.mp htext, hrest⟩

/-! ## Bytes -/

/-- What is quoted at a time: a character, or a byte of none. -/
inductive Sign where
  | char (c : Char)
  | byte (value : UInt8)

def Sign.bytes : Sign → Bytes
  | .char c => String.utf8EncodeChar c
  | .byte value => [value]

def Sign.written : Sign → List Char
  | .char c => quoteChar c
  | .byte value => quoteByte value

def Utf8Piece.signs : Utf8Piece → List Sign
  | .char c => [.char c]
  | .broken bytes => bytes.map .byte

def signs (bytes : Bytes) : List Sign :=
  (utf8Pieces bytes).flatMap Utf8Piece.signs

theorem flatMap_bytes_signs (bytes : Bytes) : (signs bytes).flatMap Sign.bytes = bytes := by
  have hpieces : ∀ piece : Utf8Piece, piece.signs.flatMap Sign.bytes = piece.bytes := by
    rintro (c | bytes)
    · exact List.append_nil _
    · induction bytes with
      | nil => rfl
      | cons byte bytes ih => exact congrArg (byte :: ·) ih
  rw [signs, List.flatMap_assoc]
  simp only [hpieces]
  exact flatMap_bytes_utf8Pieces bytes

theorem flatMap_written_signs (bytes : Bytes) :
    (signs bytes).flatMap Sign.written = (utf8Pieces bytes).flatMap quotePiece := by
  have hpieces : ∀ piece : Utf8Piece, piece.signs.flatMap Sign.written = quotePiece piece := by
    rintro (c | bytes)
    · exact List.append_nil _
    · exact List.flatMap_map ..
  rw [signs, List.flatMap_assoc]
  simp only [hpieces]

theorem hexDigit_inj {digit other : Nat} (hdigit : digit < 16) (hother : other < 16)
    (heq : hexDigit digit = hexDigit other) : digit = other := by
  have hall : ∀ digit < 16, ∀ other < 16, hexDigit digit = hexDigit other → digit = other := by
    decide
  exact hall digit hdigit other hother heq

theorem delimits_quoteByte : Delimits quoteByte := by
  intro byte other rest further heq
  have hdigits := (List.cons.inj (List.cons.inj heq).2).2
  obtain ⟨hhigh, hmore⟩ := List.cons.inj hdigits
  obtain ⟨hlow, hrest⟩ := List.cons.inj hmore
  have hbyte := byte.toNat_lt
  have hother := other.toNat_lt
  have hquotient := hexDigit_inj (by omega) (by omega) hhigh
  have hremainder := hexDigit_inj (by omega) (by omega) hlow
  exact ⟨UInt8.toNat_inj.mp (by omega), hrest⟩

/-- A byte is not taken for a character. -/
theorem quoteChar_append_ne (c : Char) (byte : UInt8) (rest further : List Char) :
    quoteChar c ++ rest ≠ quoteByte byte ++ further := by
  intro heq
  have hspelled := spelling_quoteChar c
  generalize quoteChar c = spelled at heq hspelled
  cases hspelled with
  | marked mem => exact (ne_of_mem_marks mem).2 (List.cons.inj (List.cons.inj heq).2).1
  | numbered => exact absurd (List.cons.inj (List.cons.inj heq).2).1 (by decide)
  | plain not_backslash => exact not_backslash (List.cons.inj heq).1

theorem delimits_written : Delimits Sign.written := by
  intro sign other rest further heq
  cases sign with
  | char c =>
      cases other with
      | char d =>
          obtain ⟨rfl, hrest⟩ := delimits_quoteChar heq
          exact ⟨rfl, hrest⟩
      | byte value => exact absurd heq (quoteChar_append_ne c value _ _)
  | byte value =>
      cases other with
      | char d => exact absurd heq.symm (quoteChar_append_ne d value _ _)
      | byte value' =>
          obtain ⟨rfl, hrest⟩ := delimits_quoteByte heq
          exact ⟨rfl, hrest⟩

theorem toList_quoteBytes (bytes : Bytes) :
    (quoteBytes bytes).toList = '"' :: ((signs bytes).flatMap Sign.written ++ ['"']) := by
  rw [quoteBytes, String.toList_ofList, flatMap_written_signs]
  rfl

theorem delimits_quoteBytes : Delimits fun bytes : Bytes => (quoteBytes bytes).toList := by
  have hquote : ∀ (sign : Sign) (behind rest : List Char),
      sign.written ++ behind ≠ '"' :: rest := by
    rintro (c | byte) behind rest heq
    · obtain ⟨first, more, hspelled, hfirst⟩ := (spelling_quoteChar c).exists_cons
      rw [Sign.written, hspelled] at heq
      exact hfirst (List.cons.inj heq).1
    · exact absurd (List.cons.inj heq).1 (by decide)
  intro bytes other rest further heq
  dsimp only at heq
  rw [toList_quoteBytes, toList_quoteBytes] at heq
  obtain ⟨hsigns, hrest⟩ := delimits_flatMap delimits_written hquote (List.cons.inj heq).2
  exact ⟨by rw [← flatMap_bytes_signs bytes, hsigns, flatMap_bytes_signs], hrest⟩

/-- The encoding of a text is quoted as the text. -/
theorem quoteBytes_ofText (text : String) : quoteBytes (Bytes.ofText text) = quote text := by
  rw [quoteBytes, utf8Pieces_ofText, List.flatMap_map]
  rfl

end ContainerAttach.Text
