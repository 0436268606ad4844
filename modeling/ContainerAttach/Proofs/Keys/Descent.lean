import ContainerAttach.Keys.Scanner
import ContainerAttach.Proofs.Keys.Borders
import Mathlib.Data.List.DropRight
import Mathlib.Order.Bounds.Defs

/-!
# The loops behind the border table

`narrow` and `extend` always have an answer: where there is no key or no entry they
go on without one, and a candidate that does not get shorter ends the descent.  The
loops that they stand for have no such way out.  They look up a key or an entry that
has to be there, and they go on for as long as the candidate is not zero.

`Descends` and `Fills` are the runs of these loops.  A run is finite, and in each of its
steps everything was found where it was looked for, so a loop that does not end, or that
leaves the keys or the table, has no run.  Each step follows from what is looked up, so
there is never more than one.  It remains to show that there is one: the entries in front
of a candidate are there and each is below its length (`Lowers`), also while the table is
half full and the rest of it is zero (`fills_extendBy`).
-/

namespace ContainerAttach.Keys

variable {keys : Array UInt8} {borders : Array Nat} {byte : UInt8}

/-- A run of the loop that descends from a candidate: the candidate is not zero and the key
behind it is another one than the byte, so it is replaced by its entry. -/
inductive Descends (keys : Array UInt8) (borders : Array Nat) (byte : UInt8) : Nat → Nat → Prop
  | empty : Descends keys borders byte 0 0
  | continued {length : Nat} (pos : 0 < length) (looked : keys[length]? = some byte) :
      Descends keys borders byte length length
  | replaced {length border candidate : Nat} {key : UInt8} (pos : 0 < length)
      (looked : keys[length]? = some key) (differs : key ≠ byte)
      (entry : borders[length - 1]? = some border)
      (rest : Descends keys borders byte border candidate) :
      Descends keys borders byte length candidate

/-- A run of the loop that fills a table, from an index and the candidate that the index
before it has left. -/
inductive Fills (keys : Array UInt8) : Nat → Nat → Array Nat → Array Nat → Prop
  | finished {index length : Nat} {table : Array Nat} (whole : keys.size ≤ index) :
      Fills keys index length table table
  | entered {index length candidate : Nat} {table final : Array Nat} {byte key : UInt8}
      (current : keys[index]? = some byte)
      (descends : Descends keys table byte length candidate)
      (looked : keys[candidate]? = some key) (room : index < table.size)
      (rest : Fills keys (index + 1) (if key = byte then candidate + 1 else candidate)
        (table.set index (if key = byte then candidate + 1 else candidate) room) final) :
      Fills keys index length table final

/-- The entry of every prefix up to a length is there, and is below the length of the prefix. -/
def Lowers (borders : Array Nat) (length : Nat) : Prop :=
  ∀ other, 1 ≤ other → other ≤ length → ∃ border, borders[other - 1]? = some border ∧ border < other

/-! ## One run at most -/

theorem Descends.unique {length first second : Nat}
    (hfirst : Descends keys borders byte length first)
    (hsecond : Descends keys borders byte length second) : first = second := by
  induction hfirst with
  | empty =>
      cases hsecond with
      | empty => rfl
      | continued pos | replaced pos => exact absurd pos (Nat.lt_irrefl 0)
  | continued pos looked =>
      cases hsecond with
      | empty => exact absurd pos (Nat.lt_irrefl 0)
      | continued => rfl
      | replaced _ looked' differs =>
          exact absurd (Option.some.inj (looked'.symm.trans looked)) differs
  | replaced pos looked differs entry _ ih =>
      cases hsecond with
      | empty => exact absurd pos (Nat.lt_irrefl 0)
      | continued _ looked' =>
          exact absurd (Option.some.inj (looked.symm.trans looked')) differs
      | replaced _ _ _ entry' rest' =>
          obtain rfl := Option.some.inj (entry.symm.trans entry')
          exact ih rest'

theorem Fills.unique {index length : Nat} {table first second : Array Nat}
    (hfirst : Fills keys index length table first)
    (hsecond : Fills keys index length table second) : first = second := by
  induction hfirst with
  | finished whole =>
      cases hsecond with
      | finished => rfl
      | entered current => exact absurd (lt_size_of_getElem? current) (Nat.not_lt.mpr whole)
  | entered current descends looked room _ ih =>
      cases hsecond with
      | finished whole => exact absurd (lt_size_of_getElem? current) (Nat.not_lt.mpr whole)
      | entered current' descends' looked' _ rest' =>
          obtain rfl := Option.some.inj (current.symm.trans current')
          obtain rfl := descends.unique descends'
          obtain rfl := Option.some.inj (looked.symm.trans looked')
          exact ih rest'

/-! ## The descent ends -/

theorem Lowers.mono {shorter length : Nat} (hlowers : Lowers borders length)
    (hle : shorter ≤ length) : Lowers borders shorter :=
  fun other hpos hother => hlowers other hpos (Nat.le_trans hother hle)

theorem Correct.lowers (hcorrect : Correct keys borders) : Lowers borders borders.size := by
  intro other hpos hle
  have hindex : other - 1 < borders.size := by omega
  refine ⟨borders[other - 1], Array.getElem?_eq_getElem hindex, ?_⟩
  have hlt := (hcorrect (other - 1) hindex).lt
  omega

/-- Where every entry is there and below its length, the descent ends where `narrow` does. -/
theorem descends_narrow (byte : UInt8) (length : Nat) (hlowers : Lowers borders length)
    (hlt : length < keys.size) :
    Descends keys borders byte length (narrow keys borders byte length) := by
  induction length using Nat.strongRecOn with
  | _ length ih =>
      by_cases hzero : length = 0
      · subst hzero
        rw [narrow_zero]
        exact .empty
      · have hpos := Nat.pos_of_ne_zero hzero
        have hlooked : keys[length]? = some keys[length] := Array.getElem?_eq_getElem hlt
        by_cases hkey : keys[length] = byte
        · rw [hkey] at hlooked
          rw [narrow_of_key hlooked]
          exact .continued hpos hlooked
        · obtain ⟨border, hentry, hborder⟩ := hlowers length hpos (Nat.le_refl _)
          have hgetD : borders.getD (length - 1) 0 = border := by
            rw [Array.getD_eq_getD_getElem?, hentry, Option.getD_some]
          have hother : keys[length]? ≠ some byte := by
            rw [hlooked]
            exact fun h => hkey (Option.some.inj h)
          rw [narrow_of_not_key hzero hother hgetD hborder]
          exact .replaced hpos hlooked hkey hentry
            (ih border hborder (hlowers.mono (Nat.le_of_lt hborder)) (hborder.trans hlt))

/-- The descent reads no entry behind the candidate that it starts from. -/
theorem narrow_congr {others : Array Nat} (byte : UInt8) (length : Nat)
    (hagree : ∀ index, index < length → borders.getD index 0 = others.getD index 0) :
    narrow keys borders byte length = narrow keys others byte length := by
  induction length using Nat.strongRecOn with
  | _ length ih =>
      by_cases hzero : length = 0
      · rw [hzero, narrow_zero, narrow_zero]
      · have hentry := hagree (length - 1) (by omega)
        rw [narrow, narrow, hentry]
        simp only [hzero, if_false]
        split
        · rfl
        · split
          · next hlt => exact ih _ hlt fun index hindex => hagree index (hindex.trans hlt)
          · rfl

/-! ## The table gets full -/

/-- The entry that is pushed onto a table, from the key that the descent ends at. -/
theorem extend_eq_push {key : UInt8} (hcurrent : keys[borders.size]? = some byte)
    (hlooked : keys[narrow keys borders byte (borders.back?.getD 0)]? = some key) :
    extend keys borders = borders.push
      (if key = byte then narrow keys borders byte (borders.back?.getD 0) + 1
        else narrow keys borders byte (borders.back?.getD 0)) := by
  simp only [extend, hcurrent, hlooked, Option.some.injEq]

/-- An entry that is written behind the others takes the place of a zero. -/
theorem set_size_eq_push (borders : Array Nat) (count entry : Nat)
    (room : borders.size < (borders ++ Array.replicate (count + 1) 0).size) :
    (borders ++ Array.replicate (count + 1) 0).set borders.size entry room =
      borders.push entry ++ Array.replicate count 0 := by
  apply Array.toList_inj.mp
  simp [List.replicate_succ]

/-- A table that holds the entries of the first prefixes and is zero behind them is filled
with the entries of all prefixes. -/
theorem fills_extendBy (count : Nat) :
    ∀ borders : Array Nat, Correct keys borders → 0 < borders.size →
      borders.size + count = keys.size →
        Fills keys borders.size (borders.back?.getD 0) (borders ++ Array.replicate count 0)
          (extendBy keys borders count) := by
  induction count with
  | zero =>
      intro borders _ _ hsize
      rw [Array.replicate_zero, Array.append_empty]
      exact .finished (Nat.le_of_eq hsize.symm)
  | succ count ih =>
      intro borders hcorrect hpos hsize
      have hlt : borders.size < keys.size := by omega
      obtain ⟨byte, hcurrent⟩ : ∃ byte, keys[borders.size]? = some byte :=
        ⟨keys[borders.size], Array.getElem?_eq_getElem hlt⟩
      have hlast : borders.back?.getD 0 < borders.size := by
        have hborder := hcorrect.getD (Nat.pos_iff_ne_zero.mp hpos) (Nat.le_refl _)
        rw [show borders.back?.getD 0 = borders.getD (borders.size - 1) 0 by
          simp [Array.back?, Array.getD_eq_getD_getElem?]]
        exact hborder.lt
      -- the descent starts below the entries that are there, so it meets no zero behind them
      have hfront : ∀ index, index < borders.size →
          (borders ++ Array.replicate (count + 1) 0)[index]? = borders[index]? :=
        fun index hindex => Array.getElem?_append_left hindex
      have hlowers : Lowers (borders ++ Array.replicate (count + 1) 0) (borders.back?.getD 0) := by
        intro other hother hle
        rw [hfront _ (by omega)]
        exact hcorrect.lowers other hother (by omega)
      have hcongr : narrow keys (borders ++ Array.replicate (count + 1) 0) byte
          (borders.back?.getD 0) = narrow keys borders byte (borders.back?.getD 0) := by
        apply narrow_congr
        intro index hindex
        rw [Array.getD_eq_getD_getElem?, Array.getD_eq_getD_getElem?,
          hfront index (hindex.trans hlast)]
      have hdescends := descends_narrow byte _ hlowers (hlast.trans hlt)
      rw [hcongr] at hdescends
      have hle := (narrow_narrowed hcorrect byte _ (Nat.le_of_lt hlast)).le
      obtain ⟨key, hlooked⟩ :
          ∃ key, keys[narrow keys borders byte (borders.back?.getD 0)]? = some key :=
        ⟨_, Array.getElem?_eq_getElem (by omega)⟩
      obtain ⟨hextended, hgrown⟩ := correct_extend hcorrect hpos hlt
      have hrest := ih (extend keys borders) hextended (by omega) (by omega)
      rw [hgrown, extend_eq_push hcurrent hlooked, Array.back?_push, Option.getD_some] at hrest
      refine .entered hcurrent hdescends hlooked (by simp) ?_
      rw [set_size_eq_push, extendBy, extend_eq_push hcurrent hlooked]
      exact hrest

/-- The loop has one run over a table of zeros, and it leaves the border table. -/
theorem fills_iff (table : Array Nat) :
    Fills keys 1 0 (Array.replicate keys.size 0) table ↔ table = borderTable keys := by
  have hfills : Fills keys 1 0 (Array.replicate keys.size 0) (borderTable keys) := by
    unfold borderTable
    split
    · next hempty =>
      rw [hempty, Array.replicate_zero]
      exact .finished (by omega)
    · next hempty =>
      obtain ⟨count, hcount⟩ := Nat.exists_eq_succ_of_ne_zero hempty
      have hfills := fills_extendBy count #[0] (correct_singleton keys) Nat.one_pos
        (by rw [hcount, Nat.succ_eq_add_one, Nat.add_comm]; rfl)
      have hzeros : Array.replicate (count + 1) 0 = #[0] ++ Array.replicate count 0 := by
        apply Array.toList_inj.mp
        simp [List.replicate_succ]
      rw [hcount, Nat.succ_eq_add_one, hzeros, Nat.add_sub_cancel]
      exact hfills
  constructor
  · exact fun htable => htable.unique hfills
  · rintro rfl
    exact hfills

/-! ## What the table says -/

/-- A border is as many of the first keys of a prefix as the prefix ends with. -/
theorem take_suffix_take_iff {bytes : Bytes} {index length : Nat} (hle : length ≤ index + 1)
    (hindex : index < bytes.length) :
    bytes.take length <:+ bytes.take (index + 1) ↔
      bytes.take length = (bytes.take (index + 1)).rtake length := by
  rw [List.suffix_iff_eq_drop, List.rtake, List.length_take, List.length_take]
  rw [Nat.min_eq_left (by omega : length ≤ bytes.length)]

theorem LongestMatch.isGreatest {bytes : Bytes} {index border : Nat}
    (hindex : index < bytes.length) (hborder : LongestBorder bytes.toArray (index + 1) border) :
    IsGreatest {length | length ≤ index ∧
      bytes.take length = (bytes.take (index + 1)).rtake length} border := by
  have hle := Nat.le_of_lt_succ hborder.lt
  constructor
  · exact ⟨hle, (take_suffix_take_iff (by omega) hindex).mp hborder.suffix⟩
  · rintro length ⟨hlength, heq⟩
    exact hborder.longest length (Nat.lt_succ_of_le hlength)
      ((take_suffix_take_iff (by omega) hindex).mpr heq)

end ContainerAttach.Keys

namespace ContainerAttach.DetachScanner

open Keys

/-- **The table of a scanner names the longest borders.**  The loop that fills it ends, with
every look within the keys and within the entries; it has one entry for each key, and an entry
is the greatest number, not above its index, of first keys that the keys up to the index end
with. -/
theorem borders_ofKeys_isGreatest (keys : Bytes) :
    (∀ table, Fills keys.toArray 1 0 (Array.replicate keys.length 0) table ↔
      table = (ofKeys keys).borders) ∧
    (ofKeys keys).borders.size = keys.length ∧
    ∀ index (hindex : index < (ofKeys keys).borders.size),
      IsGreatest {length | length ≤ index ∧
        keys.take length = (keys.take (index + 1)).rtake length} (ofKeys keys).borders[index] := by
  have hsize : (ofKeys keys).borders.size = keys.length := size_borderTable keys.toArray
  refine ⟨fills_iff, hsize, ?_⟩
  intro index hindex
  exact (borderTable_correct keys.toArray index hindex).isGreatest (hsize ▸ hindex)

end ContainerAttach.DetachScanner
