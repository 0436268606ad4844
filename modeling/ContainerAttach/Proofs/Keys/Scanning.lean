import ContainerAttach.Keys.Scanner
import ContainerAttach.Proofs.Keys.Borders

/-!
# What the scanner knows of its input

A scanner sees each byte once and keeps nothing but a number.  `Watches` is what
that number stands for: with all the bytes that it was fed and has released given
back to it as `input` and `released`, the released bytes and the held ones are
the input, the keys are not in it, and the held ones are as many of the first
keys as the input can end with.

One byte leads to one of three places, according to the longest candidate that it
continues: the keys are complete (`Watches.complete`), or more of them are held
(`Watches.advance`), or nothing is held and the byte itself is released
(`Watches.fallBack`).  A scan follows by induction on the chunk (`Watches.scan`).
-/

namespace ContainerAttach

namespace Keys

/-- The keys are in the input.  An empty sequence of keys is never typed. -/
def Typed (keys input : Bytes) : Prop :=
  keys ≠ [] ∧ keys <:+: input

/-- The input ends with the keys, and they are nowhere else in it. -/
structure JustTyped (keys input : Bytes) : Prop where
  ne_nil : keys ≠ []
  suffix : keys <:+ input
  first : ∀ earlier, earlier <+: input → earlier ≠ input → ¬ Typed keys earlier

/-- The longest end of the input that is a prefix of the keys and not all of them. -/
structure LongestStart (keys input start : Bytes) : Prop where
  prefix_keys : start <+: keys
  ne_keys : start ≠ keys
  suffix_input : start <:+ input
  longest : ∀ other, other <+: keys → other ≠ keys → other <:+ input →
    other.length ≤ start.length

variable {keys input : Bytes}

theorem not_typed_nil (keys : Bytes) : ¬ Typed keys [] := by
  rintro ⟨hne, hwithin⟩
  exact hne (List.infix_nil.mp hwithin)

theorem Typed.mono {longer : Bytes} (htyped : Typed keys input) (hwithin : input <:+: longer) :
    Typed keys longer :=
  ⟨htyped.1, htyped.2.trans hwithin⟩

/-- Keys that are typed with one byte more end with it, unless they were typed before. -/
theorem suffix_of_typed_concat {byte : UInt8} (hbefore : ¬ Typed keys input)
    (htyped : Typed keys (input ++ [byte])) : keys <:+ input ++ [byte] := by
  rcases List.infix_concat_iff.mp htyped.2 with hsuffix | hwithin
  · exact hsuffix
  · exact absurd ⟨htyped.1, hwithin⟩ hbefore

theorem JustTyped.concat {byte : UInt8} (hkeys : keys ≠ []) (hbefore : ¬ Typed keys input)
    (hsuffix : keys <:+ input ++ [byte]) : JustTyped keys (input ++ [byte]) := by
  refine ⟨hkeys, hsuffix, ?_⟩
  intro earlier hearlier hne htyped
  rcases List.prefix_concat_iff.mp hearlier with heq | hstart
  · exact hne heq
  · exact hbefore (htyped.mono hstart.isInfix)

/-- The number of keys held stands for the bytes held. -/
theorem LongestMatch.longestStart {length : Nat}
    (hmatch : LongestMatch keys.toArray keys.length input length) :
    LongestStart keys input (keys.take length) := by
  have hlt := hmatch.lt
  refine ⟨List.take_prefix _ _, ?_, hmatch.suffix, ?_⟩
  · intro heq
    have := congrArg List.length heq
    simp only [List.length_take] at this
    omega
  · intro other hstart hne hsuffix
    have hshorter : other.length < keys.length := by
      refine Nat.lt_of_le_of_ne hstart.length_le ?_
      exact fun heq => hne (hstart.eq_of_length heq)
    rw [List.length_take, Nat.min_eq_left (Nat.le_of_lt hlt)]
    exact hmatch.longest _ hshorter (by rwa [← List.prefix_iff_eq_take.mp hstart])

end Keys

namespace DetachScanner

open Keys

/-- A scanner that was fed the input and has released the given bytes, and has not found
the keys. -/
structure Watches (scanner : DetachScanner) (keys input released : Bytes) : Prop where
  keys_eq : scanner.keys = keys.toArray
  borders_eq : scanner.borders = borderTable keys.toArray
  released_held : released ++ scanner.held = input
  not_typed : ¬ Typed keys input
  longest : keys ≠ [] → LongestMatch keys.toArray keys.length input scanner.matched

theorem held_eq_take {scanner : DetachScanner} {keys : Bytes}
    (hkeys : scanner.keys = keys.toArray) : scanner.held = keys.take scanner.matched := by
  simp [held, hkeys]

@[simp] theorem held_ofKeys (keys : Bytes) : (ofKeys keys).held = [] := by
  simp [held, ofKeys]

theorem hasKeys_eq_true_iff {scanner : DetachScanner} {keys : Bytes}
    (hkeys : scanner.keys = keys.toArray) : scanner.hasKeys = true ↔ keys ≠ [] := by
  simp [hasKeys, hkeys]

/-- A new scanner has been fed nothing and has released nothing. -/
theorem watches_ofKeys (keys : Bytes) : (ofKeys keys).Watches keys [] [] := by
  refine ⟨rfl, rfl, by simp, not_typed_nil keys, ?_⟩
  intro hkeys
  refine ⟨List.length_pos_iff.mpr hkeys, by simp [ofKeys], ?_⟩
  intro other hother hsuffix
  have hlength := hsuffix.length_le
  simp only [List.length_take, List.length_nil] at hlength
  simp only [ofKeys]
  omega

/-- The scanner that found the keys, or gave up what it held, is as good as new. -/
theorem Watches.reset_eq {scanner : DetachScanner} {keys input released : Bytes}
    (hwatches : scanner.Watches keys input released) :
    { scanner with matched := 0 } = ofKeys keys := by
  simp only [ofKeys, hwatches.keys_eq, hwatches.borders_eq]

/-! ## One byte -/

section Step

variable {scanner : DetachScanner} {keys input released : Bytes}

/-- The longest candidate that the byte continues. -/
abbrev candidate (scanner : DetachScanner) (byte : UInt8) : Nat :=
  narrow scanner.keys scanner.borders byte scanner.matched

theorem Watches.narrowed (hwatches : scanner.Watches keys input released) (hkeys : keys ≠ [])
    (byte : UInt8) : Narrowed keys.toArray byte scanner.matched (scanner.candidate byte) := by
  have hlt := (hwatches.longest hkeys).lt
  rw [candidate, hwatches.keys_eq, hwatches.borders_eq]
  refine narrow_narrowed (borderTable_correct _) byte _ ?_
  rw [size_borderTable, List.size_toArray]
  exact Nat.le_of_lt hlt

theorem Watches.grow (hwatches : scanner.Watches keys input released) (hkeys : keys ≠ [])
    (byte : UInt8) : LongestMatch keys.toArray (keys.length + 1) (input ++ [byte])
      (if keys[scanner.candidate byte]? = some byte then scanner.candidate byte + 1
        else scanner.candidate byte) := by
  have hstep := (hwatches.longest hkeys).step (by simp) (hwatches.narrowed hkeys byte)
  rwa [List.getElem?_toArray] at hstep

/-- The head of the held bytes is released, and the candidate is left. -/
theorem Watches.released_candidate (hwatches : scanner.Watches keys input released)
    (hkeys : keys ≠ []) (byte : UInt8) :
    released ++ keys.take (scanner.matched - scanner.candidate byte) ++
      keys.take (scanner.candidate byte) = input := by
  have hlt := (hwatches.longest hkeys).lt
  have hnarrowed := hwatches.narrowed hkeys byte
  have hle := hnarrowed.le
  -- the candidate is an end of what is held, and what is in front of it is released
  have hsplit := List.suffix_iff_eq_append.mp hnarrowed.suffix
  simp only [List.length_take, List.take_take] at hsplit
  rw [Nat.min_eq_left (by omega), Nat.min_eq_left (by omega), Nat.min_eq_left (by omega)] at hsplit
  rw [List.append_assoc, hsplit, ← held_eq_take hwatches.keys_eq]
  exact hwatches.released_held

/-- What is held is still not all of the keys, so they have not been typed. -/
theorem not_typed_concat {byte : UInt8} {length : Nat} (hbefore : ¬ Typed keys input)
    (hmatch : LongestMatch keys.toArray (keys.length + 1) (input ++ [byte]) length)
    (hlt : length < keys.length) : ¬ Typed keys (input ++ [byte]) := by
  intro htyped
  have hsuffix := suffix_of_typed_concat hbefore htyped
  have hle := hmatch.longest keys.length (Nat.lt_succ_self _) (by simpa using hsuffix)
  omega

theorem longestMatch_of_lt {byte : UInt8} {length : Nat}
    (hmatch : LongestMatch keys.toArray (keys.length + 1) (input ++ [byte]) length)
    (hlt : length < keys.length) :
    LongestMatch keys.toArray keys.length (input ++ [byte]) length :=
  ⟨hlt, hmatch.suffix, fun other hother => hmatch.longest other (Nat.lt_succ_of_lt hother)⟩

/-- The byte is the last key. -/
theorem Watches.complete (hwatches : scanner.Watches keys input released) (hkeys : keys ≠ [])
    {byte : UInt8} (hkey : keys[scanner.candidate byte]? = some byte)
    (hlast : scanner.candidate byte + 1 = keys.length) :
    JustTyped keys (input ++ [byte]) ∧
      released ++ keys.take (scanner.matched - scanner.candidate byte) ++ keys =
        input ++ [byte] := by
  have hall : keys.take (scanner.candidate byte) ++ [byte] = keys := by
    rw [← take_succ_of_getElem? hkey, hlast, List.take_length]
  have hreleased : released ++ keys.take (scanner.matched - scanner.candidate byte) ++ keys =
      input ++ [byte] := by
    rw [← hwatches.released_candidate hkeys byte, List.append_assoc _ _ [byte], hall]
  exact ⟨JustTyped.concat hkeys hwatches.not_typed ⟨_, hreleased⟩, hreleased⟩

/-- The byte is one of the keys, and more of them are to come. -/
theorem Watches.advance (hwatches : scanner.Watches keys input released) (hkeys : keys ≠ [])
    {byte : UInt8} (hkey : keys[scanner.candidate byte]? = some byte)
    (hmore : scanner.candidate byte + 1 ≠ keys.length) :
    Watches { scanner with matched := scanner.candidate byte + 1 } keys (input ++ [byte])
      (released ++ keys.take (scanner.matched - scanner.candidate byte)) := by
  have hmatch := hwatches.grow hkeys byte
  rw [if_pos hkey] at hmatch
  have hlt : scanner.candidate byte + 1 < keys.length :=
    Nat.lt_of_le_of_ne (Nat.le_of_lt_succ hmatch.lt) hmore
  have hreleased := hwatches.released_candidate hkeys byte
  refine ⟨hwatches.keys_eq, hwatches.borders_eq, ?_,
    not_typed_concat hwatches.not_typed hmatch hlt, fun _ => longestMatch_of_lt hmatch hlt⟩
  have hheld : held { scanner with matched := scanner.candidate byte + 1 } =
      keys.take (scanner.candidate byte + 1) := held_eq_take hwatches.keys_eq
  rw [hheld, take_succ_of_getElem? hkey, ← List.append_assoc, hreleased]

/-- The byte continues nothing that is held, so all of it and the byte are plain input. -/
theorem Watches.fallBack (hwatches : scanner.Watches keys input released) (hkeys : keys ≠ [])
    {byte : UInt8} (hkey : keys[scanner.candidate byte]? ≠ some byte) :
    Watches { scanner with matched := scanner.candidate byte } keys (input ++ [byte])
      (released ++ keys.take (scanner.matched - scanner.candidate byte) ++ [byte]) := by
  have hmatch := hwatches.grow hkeys byte
  rw [if_neg hkey] at hmatch
  have hreleased := hwatches.released_candidate hkeys byte
  -- only the empty candidate continues with no key
  have hzero : scanner.candidate byte = 0 :=
    (hwatches.narrowed hkeys byte).continues.resolve_right (by simpa using hkey)
  have hlt : scanner.candidate byte < keys.length := by
    rw [hzero]
    exact List.length_pos_iff.mpr hkeys
  refine ⟨hwatches.keys_eq, hwatches.borders_eq, ?_,
    not_typed_concat hwatches.not_typed hmatch hlt, fun _ => longestMatch_of_lt hmatch hlt⟩
  have hheld : held { scanner with matched := scanner.candidate byte } =
      keys.take (scanner.candidate byte) := held_eq_take hwatches.keys_eq
  rw [hheld, hzero, List.take_zero, List.append_nil]
  rw [hzero, List.take_zero, List.append_nil] at hreleased
  rw [hreleased]

end Step

/-! ## One chunk -/

/-- What a chunk comes to: the scanner goes on watching, or it has released what stood in
front of the keys and is as good as new. -/
inductive Outcome (keys input released chunk : Bytes) : Bytes → DetachScanner → Bool → Prop
  | goesOn {emitted : Bytes} {scanner : DetachScanner}
      (watches : scanner.Watches keys (input ++ chunk) (released ++ emitted)) :
      Outcome keys input released chunk emitted scanner false
  | detaches {emitted : Bytes} (typed rest : Bytes) (split : chunk = typed ++ rest)
      (just : JustTyped keys (input ++ typed))
      (released_keys : released ++ emitted ++ keys = input ++ typed) :
      Outcome keys input released chunk emitted (ofKeys keys) true

/-- What the rest of a chunk comes to after its first byte has been dealt with. -/
theorem Outcome.cons {keys input released chunk emitted : Bytes} {scanner : DetachScanner}
    {detached : Bool} {byte : UInt8} (hrest : Outcome keys (input ++ [byte]) released chunk
      emitted scanner detached) :
    Outcome keys input released (byte :: chunk) emitted scanner detached := by
  cases hrest with
  | goesOn watches => exact .goesOn (by simpa using watches)
  | detaches typed rest split just released_keys =>
      exact .detaches (byte :: typed) rest (by simp [split]) (by simpa using just)
        (by simpa using released_keys)

theorem scanFrom_cons (scanner : DetachScanner) (collected : Array UInt8) (byte : UInt8)
    (rest : Bytes) :
    scanner.scanFrom collected (byte :: rest) =
      let released := collected ++
        scanner.keys.extract 0 (scanner.matched - scanner.candidate byte)
      if scanner.keys[scanner.candidate byte]? = some byte then
        if scanner.candidate byte + 1 = scanner.keys.size then
          (released, { scanner with matched := 0 }, true)
        else { scanner with matched := scanner.candidate byte + 1 }.scanFrom released rest
      else { scanner with matched := scanner.candidate byte }.scanFrom (released.push byte) rest :=
  rfl

/-- The bytes collected in front of a scan count as released before it. -/
theorem Watches.scanFrom {keys : Bytes} (hkeys : keys ≠ []) (released : Bytes) (chunk : Bytes) :
    ∀ (scanner : DetachScanner) (input : Bytes) (collected : Array UInt8),
      scanner.Watches keys input (released ++ collected.toList) →
        Outcome keys input released chunk (scanner.scanFrom collected chunk).1.toList
          (scanner.scanFrom collected chunk).2.1 (scanner.scanFrom collected chunk).2.2 := by
  induction chunk with
  | nil =>
      intro scanner input collected hwatches
      exact .goesOn (by simpa [DetachScanner.scanFrom] using hwatches)
  | cons byte chunk ih =>
      intro scanner input collected hwatches
      have hkey : scanner.keys[scanner.candidate byte]? = keys[scanner.candidate byte]? := by
        rw [hwatches.keys_eq, List.getElem?_toArray]
      have hsize : scanner.keys.size = keys.length := by
        rw [hwatches.keys_eq, List.size_toArray]
      have hhead : (collected ++
            scanner.keys.extract 0 (scanner.matched - scanner.candidate byte)).toList =
          collected.toList ++ keys.take (scanner.matched - scanner.candidate byte) := by
        simp [hwatches.keys_eq]
      rw [scanFrom_cons]
      split
      · next hcontinues =>
        split
        · next hlast =>
          obtain ⟨hjust, hreleased⟩ :=
            hwatches.complete hkeys (hkey.symm.trans hcontinues) (hlast.trans hsize)
          rw [hwatches.reset_eq]
          refine .detaches [byte] chunk rfl hjust ?_
          simpa only [hhead, List.append_assoc] using hreleased
        · next hmore =>
          refine Outcome.cons (ih _ _ _ ?_)
          have hadvance := hwatches.advance hkeys (hkey.symm.trans hcontinues)
            (fun hlast => hmore (hlast.trans hsize.symm))
          simpa only [hhead, List.append_assoc] using hadvance
      · next hcontinues =>
        refine Outcome.cons (ih _ _ _ ?_)
        have hfall := hwatches.fallBack hkeys (fun h => hcontinues (hkey.trans h))
        simpa only [Array.toList_push, hhead, List.append_assoc] using hfall

/-- Whatever the keys are, a scan goes on watching or finds them where they are first
complete. -/
theorem Watches.scan {scanner : DetachScanner} {keys input released : Bytes}
    (hwatches : scanner.Watches keys input released) (chunk : Bytes) :
    Outcome keys input released chunk (scanner.scan chunk).released (scanner.scan chunk).scanner
      (scanner.scan chunk).detached := by
  have hhasKeys := hasKeys_eq_true_iff hwatches.keys_eq
  by_cases hkeys : keys = []
  · -- without keys nothing is held, and the chunk passes as it is
    have hheld : scanner.held = [] := by
      rw [held_eq_take hwatches.keys_eq, hkeys, List.take_nil]
    have hreleased := hwatches.released_held
    rw [hheld, List.append_nil] at hreleased
    rw [DetachScanner.scan, if_neg fun h => hhasKeys.mp h hkeys]
    refine .goesOn ⟨hwatches.keys_eq, hwatches.borders_eq, ?_, fun h => h.1 hkeys,
      fun h => absurd hkeys h⟩
    rw [hheld, List.append_nil, hreleased]
  · rw [DetachScanner.scan, if_pos (hhasKeys.mpr hkeys)]
    exact Watches.scanFrom hkeys released chunk scanner input #[] (by simpa using hwatches)

theorem Watches.scan_of_not_detached {scanner : DetachScanner} {keys input released : Bytes}
    (hwatches : scanner.Watches keys input released) {chunk : Bytes}
    (hdetached : (scanner.scan chunk).detached = false) :
    (scanner.scan chunk).scanner.Watches keys (input ++ chunk)
      (released ++ (scanner.scan chunk).released) := by
  have houtcome := hwatches.scan chunk
  generalize scanner.scan chunk = scan at hdetached houtcome ⊢
  obtain ⟨emitted, after, detached⟩ := scan
  dsimp only at hdetached
  subst hdetached
  cases houtcome with
  | goesOn watches => exact watches

theorem Watches.scan_of_detached {scanner : DetachScanner} {keys input released : Bytes}
    (hwatches : scanner.Watches keys input released) {chunk : Bytes}
    (hdetached : (scanner.scan chunk).detached = true) :
    (scanner.scan chunk).scanner = ofKeys keys ∧ ∃ typed rest, chunk = typed ++ rest ∧
      JustTyped keys (input ++ typed) ∧
      released ++ (scanner.scan chunk).released ++ keys = input ++ typed := by
  have houtcome := hwatches.scan chunk
  generalize scanner.scan chunk = scan at hdetached houtcome ⊢
  obtain ⟨emitted, after, detached⟩ := scan
  dsimp only at hdetached
  subst hdetached
  cases houtcome with
  | detaches typed rest split just released_keys =>
      exact ⟨rfl, typed, rest, split, just, released_keys⟩

/-- Nothing after the keys is looked at. -/
theorem scanFrom_append_of_detached (typed rest : Bytes) :
    ∀ (scanner : DetachScanner) (collected : Array UInt8),
      (scanner.scanFrom collected typed).2.2 = true →
        scanner.scanFrom collected (typed ++ rest) = scanner.scanFrom collected typed := by
  induction typed with
  | nil =>
      intro scanner collected hdetached
      simp [DetachScanner.scanFrom] at hdetached
  | cons byte typed ih =>
      intro scanner collected hdetached
      rw [scanFrom_cons] at hdetached
      rw [List.cons_append, scanFrom_cons, scanFrom_cons]
      dsimp only at hdetached ⊢
      split
      · next hkey =>
        rw [if_pos hkey] at hdetached
        split
        · rfl
        · next hmore =>
          rw [if_neg hmore] at hdetached
          exact ih _ _ hdetached
      · next hkey =>
        rw [if_neg hkey] at hdetached
        exact ih _ _ hdetached

theorem scan_append_of_detached {scanner : DetachScanner} {typed : Bytes}
    (hdetached : (scanner.scan typed).detached = true) (rest : Bytes) :
    scanner.scan (typed ++ rest) = scanner.scan typed := by
  unfold DetachScanner.scan at hdetached ⊢
  split
  · next hhasKeys =>
    rw [if_pos hhasKeys] at hdetached
    rw [scanFrom_append_of_detached typed rest scanner #[] hdetached]
  · next hhasKeys =>
    rw [if_neg hhasKeys] at hdetached
    exact absurd hdetached Bool.false_ne_true

end DetachScanner

end ContainerAttach
