import ContainerAttach.Keys.Notation
import Mathlib.Data.List.Forall2

/-!
# What a notation for keys says

A notation is split at its commas, and each element has to stand for one key.  So a text
says `keys` exactly if its elements spell the keys one by one (`parse_eq_ok_iff`).  There
are three ways to spell a key: a character for itself, and `ctrl-` with a capital or a
small letter for the control code.  In ASCII the capital letters stand between `@` and
`[ \ ] ^ _`, and a control code is the place of its character in this row.

The empty text is not split.  It would have one element, which is empty and stands for no
key; but it has no keys at all.

The last two sections put this together: what can be said, and what cannot and what the
user is told then.
-/

namespace ContainerAttach.KeyNotation

/-! ## Elements -/

theorem elements_eq_splitOn (text : List Char) : elements text = text.splitOn ',' := by
  induction text with
  | nil => rfl
  | cons c rest ih =>
      rw [List.splitOn, List.splitOnP_cons_eq_if_modifyHead, ← List.splitOn, ← ih, elements]
      by_cases hcomma : c = ','
      · rw [if_pos hcomma, if_pos (by simp [hcomma])]
      · rw [if_neg hcomma, if_neg (by simp [hcomma])]
        cases hrest : elements rest with
        | cons first others => rfl
        | nil => exact absurd (ih.symm.trans hrest) (List.splitOnP_ne_nil _ _)

/-- Two texts with a comma between them have the elements of both. -/
theorem splitOn_append_comma (first second : List Char) :
    (first ++ ',' :: second).splitOn ',' = first.splitOn ',' ++ second.splitOn ',' :=
  List.splitOnP_append_cons first second (by simp)

theorem not_mem_of_mem_elements {text element : List Char} (hmem : element ∈ elements text) :
    ',' ∉ element := by
  induction text generalizing element with
  | nil =>
      obtain rfl : element = [] := List.mem_singleton.mp hmem
      exact List.not_mem_nil
  | cons c rest ih =>
      rw [elements] at hmem
      by_cases hcomma : c = ','
      · rw [if_pos hcomma, List.mem_cons] at hmem
        obtain rfl | hlater := hmem
        · exact List.not_mem_nil
        · exact ih hlater
      · rw [if_neg hcomma] at hmem
        cases hrest : elements rest with
        | nil =>
            rw [hrest] at hmem
            obtain rfl : element = [c] := List.mem_singleton.mp hmem
            simpa using Ne.symm hcomma
        | cons first others =>
            rw [hrest] at hmem
            obtain rfl | hlater := List.mem_cons.mp hmem
            · have hfirst : ',' ∉ first := ih (hrest ▸ List.mem_cons_self)
              simpa [hfirst] using Ne.symm hcomma
            · exact ih (hrest ▸ List.mem_cons_of_mem _ hlater)

/-! ## Keys -/

/-- What the notation of a control code starts with. -/
def controlPrefix : List Char := ['c', 't', 'r', 'l', '-']

/-- The characters that the control key makes a control code of. -/
def IsControlled (c : Char) : Prop :=
  c.isAlpha = true ∨ c ∈ ['@', '[', '\\', ']', '^', '_']

instance (c : Char) : Decidable (IsControlled c) :=
  inferInstanceAs (Decidable (_ ∨ _))

/-- What an element has to be to stand for a key. -/
inductive IsKey : List Char → Prop
  | literal {c : Char} (ascii : c.toNat < 128) : IsKey [c]
  | control {c : Char} (controlled : IsControlled c) : IsKey (controlPrefix ++ [c])

/-- How a key can be written.  The row of `@`, the capital letters and `[ \ ] ^ _` begins at
64, and the small letters stand 32 places behind the capital ones. -/
inductive Spells (key : UInt8) : List Char → Prop
  | literal (ascii : key < 128) (noComma : key ≠ 0x2c) : Spells key [Char.ofNat key.toNat]
  | capital (control : key < 0x20) :
      Spells key (controlPrefix ++ [Char.ofNat (key.toNat + 64)])
  | small (letter : 0x01 ≤ key ∧ key ≤ 0x1a) :
      Spells key (controlPrefix ++ [Char.ofNat (key.toNat + 96)])

/-- A fact about all characters of ASCII can be checked one by one. -/
theorem forall_ascii {P : Char → Prop} (hall : ∀ n < 128, P (Char.ofNat n)) {c : Char}
    (hascii : c.toNat < 128) : P c := by
  have := hall c.toNat hascii
  rwa [Char.ofNat_toNat] at this

theorem controlByte?_eq_none {c : Char} (hlarge : 128 ≤ c.toNat) : controlByte? c = none := by
  have hlower : c.toLower = c := by
    unfold Char.toLower
    rw [dif_neg]
    rintro ⟨-, hle⟩
    have : c.toNat ≤ 90 := hle
    omega
  have hletter : ¬ ('a' ≤ c ∧ c ≤ 'z') := by
    rintro ⟨-, hle⟩
    have : c.toNat ≤ 122 := hle
    omega
  simp only [controlByte?, hlower]
  rw [if_neg hletter]
  split
  case h_7 => rfl
  all_goals exact absurd hlarge (by decide)

theorem ascii_of_controlByte? {c : Char} {key : UInt8} (hkey : controlByte? c = some key) :
    c.toNat < 128 := by
  by_contra hlarge
  rw [controlByte?_eq_none (Nat.not_lt.mp hlarge)] at hkey
  exact nomatch hkey

theorem isControlled_iff {c : Char} : IsControlled c ↔ (controlByte? c).isSome = true := by
  by_cases hascii : c.toNat < 128
  · exact forall_ascii (P := fun c => IsControlled c ↔ (controlByte? c).isSome = true)
      (by decide) hascii
  · have hnone := controlByte?_eq_none (Nat.not_lt.mp hascii)
    have hletter : ¬ c.isAlpha = true := by
      intro hletter
      obtain hupper | hlower := (Bool.or_eq_true _ _).mp hletter
      · have : c.toNat ≤ 90 := (of_decide_eq_true hupper).2
        omega
      · have : c.toNat ≤ 122 := of_decide_eq_true ((Bool.and_eq_true _ _).mp hlower).2
        omega
    have hsymbol : c ∉ ['@', '[', '\\', ']', '^', '_'] := by
      intro hmem
      have hall : ['@', '[', '\\', ']', '^', '_'].all (fun c => c.toNat < 128) = true := by decide
      exact hascii (of_decide_eq_true (List.all_eq_true.mp hall c hmem))
    simp [IsControlled, hletter, hsymbol, hnone]

/-- A control code comes from its two letters only. -/
theorem controlByte?_eq_some_iff {c : Char} {key : UInt8} : controlByte? c = some key ↔
    (key < 0x20 ∧ c = Char.ofNat (key.toNat + 64)) ∨
      ((0x01 ≤ key ∧ key ≤ 0x1a) ∧ c = Char.ofNat (key.toNat + 96)) := by
  constructor
  · intro hkey
    have hplace := forall_ascii (P := fun c => (controlByte? c).all (fun key => decide
      ((key < 0x20 ∧ c = Char.ofNat (key.toNat + 64)) ∨
        ((0x01 ≤ key ∧ key ≤ 0x1a) ∧ c = Char.ofNat (key.toNat + 96)))) = true)
      (by decide) (ascii_of_controlByte? hkey)
    rw [hkey] at hplace
    exact of_decide_eq_true hplace
  · rintro (⟨hcontrol, rfl⟩ | ⟨⟨hfirst, hlast⟩, rfl⟩)
    · have hall : ∀ n < 32, controlByte? (Char.ofNat (n + 64)) = some (UInt8.ofNat n) := by
        decide
      rw [hall key.toNat hcontrol, UInt8.ofNat_toNat]
    · have hall : ∀ n < 27, 1 ≤ n →
          controlByte? (Char.ofNat (n + 96)) = some (UInt8.ofNat n) := by
        decide
      rw [hall key.toNat (Nat.lt_succ_of_le hlast) hfirst, UInt8.ofNat_toNat]

theorem keyOf?_control (c : Char) : keyOf? (controlPrefix ++ [c]) = controlByte? c :=
  rfl

theorem keyOf?_literal_eq_some_iff {c : Char} {key : UInt8} :
    keyOf? [c] = some key ↔ key < 128 ∧ c = Char.ofNat key.toNat := by
  constructor
  · intro hkey
    simp only [keyOf?] at hkey
    split at hkey
    · next hascii =>
        have hbyte : (UInt8.ofNat c.toNat).toNat = c.toNat := by
          rw [UInt8.toNat_ofNat']
          omega
        obtain rfl := Option.some.inj hkey
        refine ⟨?_, ?_⟩
        · rw [UInt8.lt_iff_toNat_lt, hbyte]
          exact hascii
        · rw [hbyte, Char.ofNat_toNat]
    · exact nomatch hkey
  · rintro ⟨hascii, rfl⟩
    have hall : ∀ n < 128, keyOf? [Char.ofNat n] = some (UInt8.ofNat n) := by decide
    rw [hall key.toNat hascii, UInt8.ofNat_toNat]

/-- Only elements of the two forms stand for a key. -/
theorem form_of_keyOf? {element : List Char} (hkey : (keyOf? element).isSome = true) :
    (∃ c, element = [c]) ∨ ∃ c, element = controlPrefix ++ [c] := by
  unfold keyOf? at hkey
  split at hkey
  · next c => exact .inl ⟨c, rfl⟩
  · next c => exact .inr ⟨c, rfl⟩
  · exact absurd hkey (by simp)

theorem isKey_iff {element : List Char} : IsKey element ↔ (keyOf? element).isSome = true := by
  constructor
  · intro hkey
    cases hkey with
    | @literal c ascii => simp [keyOf?, ascii]
    | @control c controlled =>
        rw [keyOf?_control]
        exact isControlled_iff.mp controlled
  · intro hkey
    obtain ⟨c, rfl⟩ | ⟨c, rfl⟩ := form_of_keyOf? hkey
    · refine .literal ?_
      by_contra hlarge
      simp [keyOf?, hlarge] at hkey
    · rw [keyOf?_control] at hkey
      exact .control (isControlled_iff.mpr hkey)

/-- An element of a notation stands for a key exactly if it spells it. -/
theorem keyOf?_eq_some_iff {element : List Char} {key : UInt8} (hcomma : ',' ∉ element) :
    keyOf? element = some key ↔ Spells key element := by
  constructor
  · intro hkey
    obtain ⟨c, rfl⟩ | ⟨c, rfl⟩ := form_of_keyOf? (Option.isSome_of_eq_some hkey)
    · obtain ⟨hascii, rfl⟩ := keyOf?_literal_eq_some_iff.mp hkey
      refine .literal hascii ?_
      rintro rfl
      exact hcomma (by decide)
    · rw [keyOf?_control, controlByte?_eq_some_iff] at hkey
      obtain ⟨hcontrol, rfl⟩ | ⟨hletter, rfl⟩ := hkey
      · exact .capital hcontrol
      · exact .small hletter
  · intro hspells
    cases hspells with
    | literal ascii noComma => exact keyOf?_literal_eq_some_iff.mpr ⟨ascii, rfl⟩
    | capital control => exact controlByte?_eq_some_iff.mpr (.inl ⟨control, rfl⟩)
    | small letter => exact controlByte?_eq_some_iff.mpr (.inr ⟨letter, rfl⟩)

theorem Spells.ascii {key : UInt8} {element : List Char} (hspells : Spells key element) :
    key < 128 ∧ key ≠ 0x2c := by
  -- the control codes all lie below the comma
  have hcontrol : key.toNat < 32 → key < 128 ∧ key ≠ 0x2c := by
    intro hkey
    refine ⟨Nat.lt_trans hkey (by decide), ?_⟩
    rintro rfl
    exact absurd hkey (by decide)
  cases hspells with
  | literal ascii noComma => exact ⟨ascii, noComma⟩
  | capital control => exact hcontrol control
  | small letter => exact hcontrol (Nat.lt_of_le_of_lt letter.2 (by decide))

/-- A key is never spelled with a comma, so it can stand beside others. -/
theorem Spells.no_comma {key : UInt8} {element : List Char} (hspells : Spells key element) :
    ',' ∉ element := by
  obtain ⟨hascii, hcomma⟩ := hspells.ascii
  have hliteral : ∀ n < 128, n ≠ 0x2c → ',' ∉ [Char.ofNat n] := by decide
  have hcapital : ∀ n < 32, ',' ∉ controlPrefix ++ [Char.ofNat (n + 64)] := by decide
  have hletter : ∀ n < 27, ',' ∉ controlPrefix ++ [Char.ofNat (n + 96)] := by decide
  cases hspells with
  | literal ascii noComma =>
      refine hliteral key.toNat ascii ?_
      intro heq
      exact noComma (UInt8.toNat_inj.mp heq)
  | capital control => exact hcapital key.toNat control
  | small letter => exact hletter key.toNat (Nat.lt_succ_of_le letter.2)

theorem Spells.isKey {key : UInt8} {element : List Char} (hspells : Spells key element) :
    IsKey element := by
  have hkey := (keyOf?_eq_some_iff hspells.no_comma).mpr hspells
  exact isKey_iff.mpr (Option.isSome_of_eq_some hkey)

/-! ## Whole notations -/

/-- The keys of the elements are what the elements spell, one by one. -/
theorem keysOf_eq_ok_iff {elements : List (List Char)}
    (hcomma : ∀ element ∈ elements, ',' ∉ element) {keys : Bytes} :
    keysOf elements = .ok keys ↔ List.Forall₂ Spells keys elements := by
  induction elements generalizing keys with
  | nil => simp [keysOf, eq_comm]
  | cons element rest ih =>
      have hfirst := hcomma element List.mem_cons_self
      have hrest : ∀ {keys : Bytes}, keysOf rest = .ok keys ↔ List.Forall₂ Spells keys rest :=
        ih fun other hother => hcomma other (List.mem_cons_of_mem element hother)
      rw [List.forall₂_cons_right_iff]
      constructor
      · intro hkeys
        rw [keysOf] at hkeys
        split at hkeys
        · exact nomatch hkeys
        · next key hkey =>
            split at hkeys
            · next others hothers =>
                obtain rfl := Except.ok.inj hkeys
                exact ⟨key, others, (keyOf?_eq_some_iff hfirst).mp hkey, hrest.mp hothers, rfl⟩
            · exact nomatch hkeys
      · rintro ⟨key, others, hkey, hothers, rfl⟩
        rw [keysOf, (keyOf?_eq_some_iff hfirst).mpr hkey]
        simp only [hrest.mpr hothers]

/-- What is refused is the first element that stands for no key. -/
theorem exists_of_keysOf_eq_error {elements : List (List Char)} {element : List Char}
    (herror : keysOf elements = .error element) :
    ∃ before after, elements = before ++ element :: after ∧
      (∀ other ∈ before, IsKey other) ∧ ¬ IsKey element := by
  induction elements with
  | nil => exact nomatch herror
  | cons first rest ih =>
      rw [keysOf] at herror
      split at herror
      · next hnone =>
          obtain rfl := Except.error.inj herror
          refine ⟨[], rest, rfl, by simp, ?_⟩
          rw [isKey_iff, hnone]
          exact Bool.false_ne_true
      · next key hkey =>
          split at herror
          · exact nomatch herror
          · next other hother =>
              obtain rfl := Except.error.inj herror
              obtain ⟨before, after, rfl, hbefore, hnone⟩ := ih hother
              refine ⟨first :: before, after, rfl, ?_, hnone⟩
              intro earlier hearlier
              obtain rfl | hearlier := List.mem_cons.mp hearlier
              · exact isKey_iff.mpr (Option.isSome_of_eq_some hkey)
              · exact hbefore earlier hearlier

theorem parse_empty : parse "" = .ok [] :=
  rfl

theorem parse_of_ne {text : String} (hne : text ≠ "") :
    parse text = (keysOf (text.toList.splitOn ',')).mapError
      fun element => ⟨text, String.ofList element⟩ := by
  have hlist : text.toList.isEmpty = false := by simpa using hne
  rw [parse, hlist, ← elements_eq_splitOn]
  cases keysOf (elements text.toList) with
  | ok keys => rfl
  | error element => rfl

/-- **A text says its keys exactly if its elements spell them.** -/
theorem parse_eq_ok_iff {text : String} {keys : Bytes} : parse text = .ok keys ↔
    if text = "" then keys = [] else List.Forall₂ Spells keys (text.toList.splitOn ',') := by
  split
  · next hempty =>
      rw [hempty, parse_empty, Except.ok.injEq, eq_comm]
  · next hne =>
      have hcomma : ∀ element ∈ text.toList.splitOn ',', ',' ∉ element := by
        rw [← elements_eq_splitOn]
        exact fun element => not_mem_of_mem_elements
      rw [parse_of_ne hne, ← keysOf_eq_ok_iff hcomma]
      cases keysOf (text.toList.splitOn ',') with
      | ok keys => simp [Except.mapError]
      | error element => simp [Except.mapError]

/-! ## What can be said -/

/-- The notation of some elements: the elements with commas between them. -/
def joined (elements : List (List Char)) : String :=
  String.ofList ([','].intercalate elements)

theorem toList_joined (elements : List (List Char)) :
    (joined elements).toList = [','].intercalate elements :=
  String.toList_ofList

theorem Spells.ne_nil {key : UInt8} {element : List Char} (hspells : Spells key element) :
    element ≠ [] := by
  cases hspells <;> simp [controlPrefix]

/-- Every element spells one of the keys. -/
theorem exists_spelled {keys : Bytes} {elements : List (List Char)}
    (hspells : List.Forall₂ Spells keys elements) {element : List Char}
    (hmem : element ∈ elements) : ∃ key ∈ keys, Spells key element := by
  induction hspells with
  | nil => exact absurd hmem List.not_mem_nil
  | cons hfirst hrest ih =>
      obtain rfl | hlater := List.mem_cons.mp hmem
      · exact ⟨_, List.mem_cons_self, hfirst⟩
      · obtain ⟨key, hkey, hspells⟩ := ih hlater
        exact ⟨key, List.mem_cons_of_mem _ hkey, hspells⟩

theorem parse_joined {keys : Bytes} {elements : List (List Char)}
    (hspells : List.Forall₂ Spells keys elements) : parse (joined elements) = .ok keys := by
  cases hspells with
  | nil => rfl
  | @cons key element keys elements hfirst hrest =>
      have hne : joined (element :: elements) ≠ "" := by
        intro hempty
        have hnil : [','].intercalate (element :: elements) = [] := by
          rw [← toList_joined, hempty]
          rfl
        cases elements with
        | nil => exact hfirst.ne_nil (by simpa [List.intercalate] using hnil)
        | cons other others => simp [List.intercalate] at hnil
      have hspells := List.Forall₂.cons hfirst hrest
      have hcomma : ∀ other ∈ element :: elements, ',' ∉ other := by
        intro other hother
        obtain ⟨_, -, hother⟩ := exists_spelled hspells hother
        exact hother.no_comma
      rw [parse_eq_ok_iff, if_neg hne, toList_joined,
        List.splitOn_intercalate ',' hcomma (List.cons_ne_nil _ _)]
      exact hspells

theorem spells_literals {keys : Bytes} (hascii : ∀ key ∈ keys, key < 128 ∧ key ≠ 0x2c) :
    List.Forall₂ Spells keys (keys.map fun key => [Char.ofNat key.toNat]) := by
  rw [List.forall₂_map_right_iff, List.forall₂_same]
  intro key hkey
  obtain ⟨hsmall, hcomma⟩ := hascii key hkey
  exact .literal hsmall hcomma

theorem forall_ascii_of_spells {keys : Bytes} {elements : List (List Char)}
    (hspells : List.Forall₂ Spells keys elements) : ∀ key ∈ keys, key < 128 ∧ key ≠ 0x2c := by
  induction hspells with
  | nil => simp
  | cons hfirst hrest ih => exact List.forall_mem_cons.mpr ⟨hfirst.ascii, ih⟩

/-- A comma between two notations puts their keys one after the other. -/
theorem parse_append {first second : String} (hfirst : first ≠ "") (hsecond : second ≠ "")
    {keys : Bytes} : parse (first ++ "," ++ second) = .ok keys ↔
      ∃ firstKeys secondKeys, parse first = .ok firstKeys ∧ parse second = .ok secondKeys ∧
        keys = firstKeys ++ secondKeys := by
  have hlist : (first ++ "," ++ second).toList = first.toList ++ ',' :: second.toList := by
    simp
  have hne : first ++ "," ++ second ≠ "" := by
    intro hempty
    rw [hempty] at hlist
    simp at hlist
  simp only [parse_eq_ok_iff, if_neg hfirst, if_neg hsecond, if_neg hne, hlist,
    splitOn_append_comma]
  constructor
  · intro hspells
    exact ⟨_, _, List.forall₂_take_append keys _ _ hspells,
      List.forall₂_drop_append keys _ _ hspells, (List.take_append_drop _ keys).symm⟩
  · rintro ⟨firstKeys, secondKeys, h₁, h₂, rfl⟩
    exact List.rel_append h₁ h₂

/-- **The notation can say every sequence of ASCII keys without a comma, and nothing else.**
A key stands for itself, and a control code can also be written with its letter.  Notations
are put together with a comma. -/
theorem parse_speaks :
    (∀ (text : String) (keys : Bytes), parse text = .ok keys →
      keys.length = (if text = "" then 0 else (text.toList.splitOn ',').length) ∧
        ∀ key ∈ keys, key < 128 ∧ key ≠ 0x2c) ∧
    (∀ keys : Bytes, (∀ key ∈ keys, key < 128 ∧ key ≠ 0x2c) →
      parse (joined (keys.map fun key => [Char.ofNat key.toNat])) = .ok keys) ∧
    (∀ (keys : Bytes) (elements : List (List Char)), List.Forall₂ Spells keys elements →
      parse (joined elements) = .ok keys) ∧
    ∀ first second : String, first ≠ "" → second ≠ "" → ∀ keys : Bytes,
      parse (first ++ "," ++ second) = .ok keys ↔
        ∃ firstKeys secondKeys, parse first = .ok firstKeys ∧
          parse second = .ok secondKeys ∧ keys = firstKeys ++ secondKeys := by
  refine ⟨?_, ?_, ?_, ?_⟩
  · intro text keys hkeys
    rw [parse_eq_ok_iff] at hkeys
    split at hkeys
    · next hempty => simp [hkeys, hempty]
    · next hne =>
        rw [if_neg hne]
        exact ⟨hkeys.length_eq, forall_ascii_of_spells hkeys⟩
  · intro keys hascii
    exact parse_joined (spells_literals hascii)
  · intro keys elements hspells
    exact parse_joined hspells
  · intro first second hfirst hsecond keys
    exact parse_append hfirst hsecond

example : parse "ctrl-@,ctrl-A,ctrl-z,ctrl-_, " = .ok [0x00, 0x01, 0x1a, 0x1f, 0x20] := by decide

/-! ## What cannot be said -/

/-- What an element has to be, said of the bytes that it is made of. -/
inductive IsKeyInBytes : Bytes → Prop
  | literal {byte : UInt8} (ascii : byte < 128) : IsKeyInBytes [byte]
  | control {byte : UInt8} (ascii : byte < 128)
      (controlled : IsControlled (Char.ofNat byte.toNat)) :
      IsKeyInBytes (Bytes.ofText "ctrl-" ++ [byte])

theorem ofList_inj_of_ofText {first second : List Char}
    (heq : Bytes.ofText (String.ofList first) = Bytes.ofText (String.ofList second)) :
    first = second := by
  have hbytes := ByteArray.ext (Array.toList_inj.mp heq)
  exact String.ofList_injective (String.toByteArray_inj.mp hbytes)

/-- A character of ASCII is a single byte. -/
theorem utf8EncodeChar_ascii {byte : UInt8} (hascii : byte < 128) :
    String.utf8EncodeChar (Char.ofNat byte.toNat) = [byte] := by
  have hall : ∀ n < 128, String.utf8EncodeChar (Char.ofNat n) = [UInt8.ofNat n] := by decide
  rw [hall byte.toNat hascii, UInt8.ofNat_toNat]

theorem exists_byte {c : Char} (hascii : c.toNat < 128) :
    ∃ byte : UInt8, byte < 128 ∧ c = Char.ofNat byte.toNat := by
  have hbyte : (UInt8.ofNat c.toNat).toNat = c.toNat := by
    rw [UInt8.toNat_ofNat']
    omega
  refine ⟨UInt8.ofNat c.toNat, ?_, ?_⟩
  · rw [UInt8.lt_iff_toNat_lt, hbyte]
    exact hascii
  · rw [hbyte, Char.ofNat_toNat]

/-- A longer character can never pass for a key, although only bytes are looked at. -/
theorem isKey_iff_inBytes {element : List Char} :
    IsKey element ↔ IsKeyInBytes (Bytes.ofText (String.ofList element)) := by
  have hliteral : ∀ byte : UInt8, byte < 128 →
      Bytes.ofText (String.ofList [Char.ofNat byte.toNat]) = [byte] := by
    intro byte hascii
    rw [Bytes.ofText_ofList, List.flatMap_singleton, utf8EncodeChar_ascii hascii]
  have hcontrol : ∀ byte : UInt8, byte < 128 →
      Bytes.ofText (String.ofList (controlPrefix ++ [Char.ofNat byte.toNat])) =
        Bytes.ofText "ctrl-" ++ [byte] := by
    intro byte hascii
    rw [Bytes.ofText_ofList, List.flatMap_append, List.flatMap_singleton,
      utf8EncodeChar_ascii hascii, ← Bytes.ofText_ofList]
    rfl
  constructor
  · intro hkey
    cases hkey with
    | @literal c ascii =>
        obtain ⟨byte, hbyte, rfl⟩ := exists_byte ascii
        rw [hliteral byte hbyte]
        exact .literal hbyte
    | @control c controlled =>
        obtain ⟨key, hkey⟩ := Option.isSome_iff_exists.mp (isControlled_iff.mp controlled)
        obtain ⟨byte, hbyte, rfl⟩ := exists_byte (ascii_of_controlByte? hkey)
        rw [hcontrol byte hbyte]
        exact .control hbyte controlled
  · intro hkey
    generalize hbytes : Bytes.ofText (String.ofList element) = bytes at hkey
    cases hkey with
    | @literal byte ascii =>
        obtain rfl := ofList_inj_of_ofText (hbytes.trans (hliteral byte ascii).symm)
        refine .literal ?_
        have hall : ∀ n < 128, (Char.ofNat n).toNat < 128 := by decide
        exact hall byte.toNat ascii
    | @control byte ascii controlled =>
        obtain rfl := ofList_inj_of_ofText (hbytes.trans (hcontrol byte ascii).symm)
        exact .control controlled

/-- What was accepted is made of keys. -/
theorem forall_isKey_of_parse {text : String} {keys : Bytes} (hkeys : parse text = .ok keys) :
    text = "" ∨ ∀ element ∈ text.toList.splitOn ',', IsKey element := by
  rw [parse_eq_ok_iff] at hkeys
  split at hkeys
  · next hempty => exact .inl hempty
  · refine .inr fun element hmem => ?_
    obtain ⟨key, -, hspells⟩ := exists_spelled hkeys hmem
    exact hspells.isKey

/-- What was refused has a first element that is no key. -/
theorem exists_of_parse_eq_error {text : String} {error : KeyNotationError}
    (herror : parse text = .error error) : error.input = text ∧ ∃ before element after,
      text.toList.splitOn ',' = before ++ element :: after ∧
        (∀ other ∈ before, IsKey other) ∧ ¬ IsKey element ∧
          error.key = String.ofList element := by
  have hne : text ≠ "" := by
    rintro rfl
    rw [parse_empty] at herror
    exact nomatch herror
  rw [parse_of_ne hne] at herror
  cases hread : keysOf (text.toList.splitOn ',') with
  | ok keys =>
      rw [hread] at herror
      exact nomatch herror
  | error element =>
      rw [hread] at herror
      obtain rfl := Except.error.inj herror
      obtain ⟨before, after, hsplit, hbefore, hnone⟩ := exists_of_keysOf_eq_error hread
      exact ⟨rfl, before, element, after, hsplit, hbefore, hnone, rfl⟩

/-- **A text is refused for its first element that is no key.**  It is accepted if it is empty
or each element is a single ASCII character or `ctrl-` with a letter or one of
`@ [ \ ] ^ _`.  The error names the text and the leftmost other element, and what is in
front of it is in order. -/
theorem parse_refuses :
    (∀ text : String, (∃ keys, parse text = .ok keys) ↔
      text = "" ∨ ∀ element ∈ text.toList.splitOn ',', IsKey element) ∧
    (∀ (text : String) (error : KeyNotationError), parse text = .error error →
      error.input = text ∧ ∃ before element after,
        text.toList.splitOn ',' = before ++ element :: after ∧
          (∀ other ∈ before, IsKey other) ∧ ¬ IsKey element ∧
            error.key = String.ofList element) ∧
    ∀ element : List Char,
      IsKey element ↔ IsKeyInBytes (Bytes.ofText (String.ofList element)) := by
  refine ⟨?_, fun text error => exists_of_parse_eq_error, fun element => isKey_iff_inBytes⟩
  intro text
  constructor
  · rintro ⟨keys, hkeys⟩
    exact forall_isKey_of_parse hkeys
  · intro hkeys
    cases hparse : parse text with
    | ok keys => exact ⟨keys, rfl⟩
    | error error =>
        obtain ⟨-, before, element, after, hsplit, -, hnone, -⟩ :=
          exists_of_parse_eq_error hparse
        obtain rfl | hall := hkeys
        · rw [parse_empty] at hparse
          exact nomatch hparse
        · exact absurd (hall element (by simp [hsplit])) hnone

/-- The second `ctrl-` is no letter, so this is where the reading stops. -/
example : parse "a,ctrl-ctrl-a,é" = .error ⟨"a,ctrl-ctrl-a,é", "ctrl-ctrl-a"⟩ := by decide

end ContainerAttach.KeyNotation
