import ContainerAttach.Proofs.Keys.Descent
import ContainerAttach.Proofs.Keys.History

/-!
# What the scanner looks up

For each byte the scanner descends from the part of the keys that it holds, compares the
byte with the key behind the candidate that is left, and releases the held keys in front of
it.  `Feeds` is such a run over a chunk, with every key, every entry and every slice there
where it is used; like the descent it is finite and there is never more than one.

A scanner is fit for its keys if what it holds is not all of them, and nothing where there
are none.  Then every byte has its run (`Fit.takes`).  The number of held keys grows by one at
most and is reset when it gets to all of them, so the scanner stays fit; and so it does through
any history, since copies are as fit as what they were made from.
-/

namespace ContainerAttach

open Keys

namespace DetachScanner

/-- A run for one byte, with what it releases and how many keys are held after it. -/
inductive Takes (scanner : DetachScanner) (byte : UInt8) : Bytes → Nat → Prop
  | taken {candidate : Nat} {key : UInt8}
      (descends : Descends scanner.keys scanner.borders byte scanner.matched candidate)
      (no_underflow : candidate ≤ scanner.matched)
      (within : scanner.matched - candidate ≤ scanner.keys.size)
      (looked : scanner.keys[candidate]? = some key) :
      Takes scanner byte
        (scanner.keys.toList.take (scanner.matched - candidate) ++
          if key = byte then [] else [byte])
        (if key = byte then candidate + 1 else candidate)

/-- A run over a chunk.  A scanner without keys looks at none of it. -/
inductive Feeds : DetachScanner → Bytes → Scan → Prop
  | disabled {scanner : DetachScanner} {chunk : Bytes} (none : scanner.keys.size = 0) :
      Feeds scanner chunk ⟨chunk, scanner, false⟩
  | finished {scanner : DetachScanner} (some : scanner.keys.size ≠ 0) :
      Feeds scanner [] ⟨[], scanner, false⟩
  | completed {scanner : DetachScanner} {byte : UInt8} {rest released : Bytes} {matched : Nat}
      (some : scanner.keys.size ≠ 0) (takes : scanner.Takes byte released matched)
      (all : matched = scanner.keys.size) :
      Feeds scanner (byte :: rest) ⟨released, { scanner with matched := 0 }, true⟩
  | continued {scanner after : DetachScanner} {byte : UInt8} {rest released later : Bytes}
      {matched : Nat} {detached : Bool} (some : scanner.keys.size ≠ 0)
      (takes : scanner.Takes byte released matched) (part : matched ≠ scanner.keys.size)
      (feeds : Feeds { scanner with matched := matched } rest ⟨later, after, detached⟩) :
      Feeds scanner (byte :: rest) ⟨released ++ later, after, detached⟩

/-- A scanner for the keys that holds a part of them. -/
structure Fit (keys : Bytes) (scanner : DetachScanner) : Prop where
  keys_eq : scanner.keys = keys.toArray
  borders_eq : scanner.borders = borderTable keys.toArray
  matched_eq : keys = [] → scanner.matched = 0
  matched_lt : keys ≠ [] → scanner.matched < keys.length

variable {keys : Bytes} {scanner : DetachScanner}

/-! ## One run at most -/

theorem Takes.unique {byte : UInt8} {first second : Bytes} {after other : Nat}
    (hfirst : scanner.Takes byte first after) (hsecond : scanner.Takes byte second other) :
    first = second ∧ after = other := by
  cases hfirst with
  | taken descends _ _ looked =>
      cases hsecond with
      | taken descends' _ _ looked' =>
          obtain rfl := descends.unique descends'
          obtain rfl := Option.some.inj (looked.symm.trans looked')
          exact ⟨rfl, rfl⟩

theorem Feeds.unique {chunk : Bytes} {first second : Scan} (hfirst : Feeds scanner chunk first)
    (hsecond : Feeds scanner chunk second) : first = second := by
  induction hfirst generalizing second with
  | disabled none =>
      cases hsecond with
      | disabled => rfl
      | finished some | completed some | continued some => exact absurd none some
  | finished some =>
      cases hsecond with
      | disabled none => exact absurd none some
      | finished => rfl
  | completed some takes all =>
      cases hsecond with
      | disabled none => exact absurd none some
      | completed _ takes' =>
          obtain ⟨rfl, rfl⟩ := takes.unique takes'
          rfl
      | continued _ takes' part =>
          obtain ⟨rfl, rfl⟩ := takes.unique takes'
          exact absurd all part
  | continued some takes part _ ih =>
      cases hsecond with
      | disabled none => exact absurd none some
      | completed _ takes' all =>
          obtain ⟨rfl, rfl⟩ := takes.unique takes'
          exact absurd all part
      | continued _ takes' _ feeds' =>
          obtain ⟨rfl, rfl⟩ := takes.unique takes'
          cases ih feeds'
          rfl

/-! ## A fit scanner has a run -/

theorem fit_ofKeys (keys : Bytes) : (ofKeys keys).Fit keys :=
  ⟨rfl, rfl, fun _ => rfl, List.length_pos_iff.mpr⟩

theorem Fit.size_eq (hfit : scanner.Fit keys) : scanner.keys.size = keys.length := by
  rw [hfit.keys_eq, List.size_toArray]

theorem Fit.size_ne_zero (hfit : scanner.Fit keys) (hkeys : keys ≠ []) :
    scanner.keys.size ≠ 0 := by
  rw [hfit.size_eq]
  exact fun hzero => hkeys (List.length_eq_zero_iff.mp hzero)

theorem Fit.lowers (hfit : scanner.Fit keys) : Lowers scanner.borders keys.length := by
  have hlowers := (borderTable_correct keys.toArray).lowers
  rwa [size_borderTable, List.size_toArray, ← hfit.borders_eq] at hlowers

theorem Fit.reset (hfit : scanner.Fit keys) : Fit keys { scanner with matched := 0 } :=
  ⟨hfit.keys_eq, hfit.borders_eq, fun _ => rfl, List.length_pos_iff.mpr⟩

theorem Fit.hold (hfit : scanner.Fit keys) {matched : Nat} (hlt : matched < keys.length) :
    Fit keys { scanner with matched := matched } :=
  ⟨hfit.keys_eq, hfit.borders_eq, fun hnil => by simp [hnil] at hlt, fun _ => hlt⟩

/-- The candidate that a byte leaves is a part of what is held. -/
theorem Fit.candidate_le (hfit : scanner.Fit keys) (hkeys : keys ≠ []) (byte : UInt8) :
    scanner.candidate byte ≤ scanner.matched := by
  rw [candidate, hfit.keys_eq, hfit.borders_eq]
  refine (narrow_narrowed (borderTable_correct _) byte _ ?_).le
  rw [size_borderTable, List.size_toArray]
  exact Nat.le_of_lt (hfit.matched_lt hkeys)

/-- Every byte has its run, and at most all keys are held after it. -/
theorem Fit.takes (hfit : scanner.Fit keys) (hkeys : keys ≠ []) (byte : UInt8) :
    ∃ key, scanner.keys[scanner.candidate byte]? = some key ∧
      scanner.candidate byte + 1 ≤ keys.length ∧
      scanner.Takes byte
        (scanner.keys.toList.take (scanner.matched - scanner.candidate byte) ++
          if key = byte then [] else [byte])
        (if key = byte then scanner.candidate byte + 1 else scanner.candidate byte) := by
  have hlt := hfit.matched_lt hkeys
  have hle := hfit.candidate_le hkeys byte
  have hsize := hfit.size_eq
  have hlooked := Array.getElem?_eq_getElem
    (show scanner.candidate byte < scanner.keys.size by omega)
  have hdescends := descends_narrow byte scanner.matched
    (hfit.lowers.mono (Nat.le_of_lt hlt)) (hsize ▸ hlt)
  exact ⟨_, hlooked, by omega, .taken hdescends hle (by omega) hlooked⟩

/-- The scanner finds what it looks for in every chunk, and is fit after it. -/
theorem Fit.feeds_scanFrom (hkeys : keys ≠ []) (chunk : Bytes) :
    ∀ (scanner : DetachScanner) (collected : Array UInt8), scanner.Fit keys →
      ∃ released, (scanner.scanFrom collected chunk).1.toList = collected.toList ++ released ∧
        Feeds scanner chunk ⟨released, (scanner.scanFrom collected chunk).2.1,
          (scanner.scanFrom collected chunk).2.2⟩ ∧
        (scanner.scanFrom collected chunk).2.1.Fit keys := by
  induction chunk with
  | nil =>
      intro scanner collected hfit
      exact ⟨[], (List.append_nil _).symm, .finished (hfit.size_ne_zero hkeys), hfit⟩
  | cons byte chunk ih =>
      intro scanner collected hfit
      have hsome := hfit.size_ne_zero hkeys
      obtain ⟨key, hlooked, hle, htakes⟩ := hfit.takes hkeys byte
      have hhead : (collected ++
            scanner.keys.extract 0 (scanner.matched - scanner.candidate byte)).toList =
          collected.toList ++
            scanner.keys.toList.take (scanner.matched - scanner.candidate byte) := by
        simp
      rw [scanFrom_cons, hlooked]
      simp only [Option.some.injEq]
      by_cases hkey : key = byte
      · rw [if_pos hkey, if_pos hkey, List.append_nil] at htakes
        rw [if_pos hkey]
        by_cases hlast : scanner.candidate byte + 1 = scanner.keys.size
        · rw [if_pos hlast]
          exact ⟨_, hhead, .completed hsome htakes hlast, hfit.reset⟩
        · rw [if_neg hlast]
          have hpart : scanner.candidate byte + 1 < keys.length :=
            Nat.lt_of_le_of_ne hle (hfit.size_eq ▸ hlast)
          obtain ⟨later, hlater, hfeeds, hafter⟩ := ih _ _ (hfit.hold hpart)
          exact ⟨_, by rw [hlater, hhead, List.append_assoc],
            .continued hsome htakes hlast hfeeds, hafter⟩
      · rw [if_neg hkey, if_neg hkey] at htakes
        rw [if_neg hkey]
        have hpart : scanner.candidate byte ≠ scanner.keys.size := by
          rw [hfit.size_eq]
          omega
        obtain ⟨later, hlater, hfeeds, hafter⟩ := ih _ _ (hfit.hold hle)
        exact ⟨_, by
          rw [hlater, Array.toList_push, hhead, List.append_assoc, List.append_assoc,
            List.append_assoc],
          .continued hsome htakes hpart hfeeds, hafter⟩

theorem Fit.scan (hfit : scanner.Fit keys) (chunk : Bytes) :
    Feeds scanner chunk (scanner.scan chunk) ∧ (scanner.scan chunk).scanner.Fit keys := by
  by_cases hkeys : keys = []
  · have hnone : scanner.keys.size = 0 := by rw [hfit.size_eq, hkeys, List.length_nil]
    rw [DetachScanner.scan, if_neg (by simp [hasKeys, hnone])]
    exact ⟨.disabled hnone, hfit⟩
  · rw [DetachScanner.scan, if_pos ((hasKeys_eq_true_iff hfit.keys_eq).mpr hkeys)]
    obtain ⟨released, hreleased, hfeeds, hafter⟩ :=
      Fit.feeds_scanFrom hkeys chunk scanner #[] hfit
    rw [List.nil_append] at hreleased
    rw [← hreleased] at hfeeds
    exact ⟨hfeeds, hafter⟩

end DetachScanner

namespace Bench

open DetachScanner

/-- Every scanner on the bench is fit for the keys. -/
structure Fit (keys : Bytes) (bench : Bench) : Prop where
  current : bench.current.scanner.Fit keys
  saved : ∀ slot, (bench.saved slot).scanner.Fit keys

theorem scanner_feed (watch : Watch) (chunk : Bytes) :
    (watch.feed chunk).scanner = (watch.scanner.scan chunk).scanner := by
  unfold Watch.feed
  split <;> next hscan => rw [hscan]

theorem fit_apply {keys : Bytes} {bench : Bench} (hfit : bench.Fit keys) (operation : Operation) :
    (bench.apply operation).Fit keys := by
  cases operation with
  | feed chunk =>
      refine ⟨?_, hfit.saved⟩
      rw [apply, scanner_feed]
      exact (hfit.current.scan chunk).2
  | giveUp => exact ⟨hfit.current.reset, hfit.saved⟩
  | restore slot => exact ⟨hfit.saved slot, hfit.saved⟩
  | save slot =>
      refine ⟨hfit.current, ?_⟩
      intro other
      simp only [apply]
      split
      · exact hfit.current
      · exact hfit.saved other

theorem fit_run {keys : Bytes} (operations : List Operation) :
    ∀ bench : Bench, bench.Fit keys → (bench.run operations).Fit keys := by
  induction operations with
  | nil => exact fun _ hfit => hfit
  | cons operation operations ih =>
      exact fun bench hfit => ih (bench.apply operation) (fit_apply hfit operation)

/-- **After any history the scanner stays within its keys and its table.**  It holds less than
all keys, and nothing without keys; every entry is below the length it belongs to; so feeding
it a chunk comes to an end, with every key, entry and slice in range, and does what `scan`
says. -/
theorem current_run_inRange (keys : Bytes) (operations : List Operation) :
    let scanner := ((ofKeys keys).run operations).current.scanner
    scanner.keys = keys.toArray ∧
    (keys = [] → scanner.matched = 0) ∧ (keys ≠ [] → scanner.matched < keys.length) ∧
    (∀ length, 1 ≤ length → length ≤ keys.length →
      ∃ border, scanner.borders[length - 1]? = some border ∧ border < length) ∧
    ∀ chunk scan, Feeds scanner chunk scan ↔ scan = scanner.scan chunk := by
  intro scanner
  have hfit : scanner.Fit keys :=
    (fit_run operations (ofKeys keys) ⟨fit_ofKeys keys, fun _ => fit_ofKeys keys⟩).current
  refine ⟨hfit.keys_eq, hfit.matched_eq, hfit.matched_lt, hfit.lowers, ?_⟩
  intro chunk scan
  have hfeeds := (hfit.scan chunk).1
  constructor
  · exact fun hscan => hscan.unique hfeeds
  · rintro rfl
    exact hfeeds

end Bench

end ContainerAttach
