import ContainerAttach.Bytes
import ContainerAttach.Keys.Border

/-!
# The descent finds the longest match

The table and the scanner ask the same question about a text that grows by one
byte: how many of the first keys does it end with?  `LongestMatch` is the answer
below a bound, and `LongestMatch.step` is how the answer moves.  Whatever the
grown text ends with, less its last byte, the text before it ended with; so the
new answer is one more than the longest old candidate that the byte continues,
and nothing if there is none.

`narrow` finds that candidate, since every candidate but the longest is a border
of the longest, and the table names the longest border of each
(`narrow_narrowed`).  For the table the text is the keys themselves, so each
entry follows from those in front of it (`borderTable_correct`).
-/

namespace ContainerAttach.Keys

variable {keys : Array UInt8} {borders : Array Nat} {byte : UInt8}

/-! ## The longest match below a bound -/

/-- The greatest number below the bound such that the text ends with so many of
the first keys. -/
structure LongestMatch (keys : Array UInt8) (bound : Nat) (text : Bytes) (length : Nat) :
    Prop where
  lt : length < bound
  suffix : keys.toList.take length <:+ text
  longest : ∀ other, other < bound → keys.toList.take other <:+ text → other ≤ length

/-- The length of the longest border of a prefix of the keys. -/
abbrev LongestBorder (keys : Array UInt8) (length border : Nat) : Prop :=
  LongestMatch keys length (keys.toList.take length) border

/-- Every entry is the length of the longest border of its prefix. -/
def Correct (keys : Array UInt8) (borders : Array Nat) : Prop :=
  ∀ index (hindex : index < borders.size), LongestBorder keys (index + 1) borders[index]

/-- The longest candidate that a byte continues, among the borders of a prefix and the
prefix itself; zero if the byte continues none. -/
structure Narrowed (keys : Array UInt8) (byte : UInt8) (length candidate : Nat) : Prop where
  le : candidate ≤ length
  suffix : keys.toList.take candidate <:+ keys.toList.take length
  continues : candidate = 0 ∨ keys[candidate]? = some byte
  longest : ∀ other, other ≤ length → keys.toList.take other <:+ keys.toList.take length →
    keys[other]? = some byte → other ≤ candidate

/-! ## One byte more -/

theorem lt_size_of_getElem? {index : Nat} (hkey : keys[index]? = some byte) :
    index < keys.size :=
  (Array.getElem?_eq_some_iff.mp hkey).1

theorem take_succ_of_getElem? {bytes : Bytes} {index : Nat} (hbyte : bytes[index]? = some byte) :
    bytes.take (index + 1) = bytes.take index ++ [byte] := by
  rw [List.take_add_one, hbyte, Option.toList_some]

/-- A grown text ends with one more key exactly if the text ended with the keys before it
and the new byte is that key. -/
theorem take_succ_suffix_concat_iff {index : Nat} (hindex : index < keys.size) {text : Bytes} :
    keys.toList.take (index + 1) <:+ text ++ [byte] ↔
      keys.toList.take index <:+ text ∧ keys[index]? = some byte := by
  obtain ⟨key, hkey⟩ : ∃ key, keys[index]? = some key :=
    ⟨keys[index], Array.getElem?_eq_getElem hindex⟩
  have htake := take_succ_of_getElem? (Array.getElem?_toList.trans hkey)
  rw [htake, hkey, List.suffix_concat_iff]
  constructor
  · rintro (hnil | ⟨front, hfront, hsuffix⟩)
    · simp at hnil
    · obtain ⟨rfl, hlast⟩ := List.append_inj' hfront rfl
      exact ⟨hsuffix, by simpa using hlast⟩
  · rintro ⟨hsuffix, hlast⟩
    exact Or.inr ⟨_, by rw [Option.some.inj hlast], hsuffix⟩

/-- Of two matches of one text the shorter is a border of the longer. -/
theorem take_suffix_take {text : Bytes} {shorter longer : Nat}
    (hshorter : keys.toList.take shorter <:+ text) (hlonger : keys.toList.take longer <:+ text)
    (hle : shorter ≤ longer) : keys.toList.take shorter <:+ keys.toList.take longer := by
  refine List.suffix_of_suffix_length_le hshorter hlonger ?_
  simp only [List.length_take]
  omega

/-- The longest match of a text grown by one byte, from the longest candidate that the
byte continues. -/
theorem LongestMatch.step {bound length candidate : Nat} {text : Bytes}
    (hmatch : LongestMatch keys bound text length) (hbound : bound ≤ keys.size)
    (hnarrowed : Narrowed keys byte length candidate) :
    LongestMatch keys (bound + 1) (text ++ [byte])
      (if keys[candidate]? = some byte then candidate + 1 else candidate) := by
  have hlt := hmatch.lt
  have hle := hnarrowed.le
  -- a match of the grown text is one longer than a candidate that the byte continues
  have hcandidate : ∀ other, other + 1 < bound + 1 →
      keys.toList.take (other + 1) <:+ text ++ [byte] →
        keys[other]? = some byte ∧ other ≤ candidate := by
    intro other hother hsuffix
    obtain ⟨hother', hkey⟩ := (take_succ_suffix_concat_iff (by omega)).mp hsuffix
    have hle := hmatch.longest other (by omega) hother'
    exact ⟨hkey, hnarrowed.longest other hle (take_suffix_take hother' hmatch.suffix hle) hkey⟩
  split
  · next hkey =>
    refine ⟨by omega, ?_, ?_⟩
    · exact (take_succ_suffix_concat_iff (lt_size_of_getElem? hkey)).mpr
        ⟨hnarrowed.suffix.trans hmatch.suffix, hkey⟩
    · intro other hother hsuffix
      cases other with
      | zero => exact Nat.zero_le _
      | succ other => exact Nat.succ_le_succ (hcandidate other hother hsuffix).2
  · next hkey =>
    have hzero : candidate = 0 := hnarrowed.continues.resolve_right hkey
    subst hzero
    refine ⟨by omega, by simp, ?_⟩
    intro other hother hsuffix
    cases other with
    | zero => exact Nat.le_refl 0
    | succ other =>
        obtain ⟨hother', hle⟩ := hcandidate other hother hsuffix
        rw [Nat.le_zero.mp hle] at hother'
        exact absurd hother' hkey

/-! ## The descent -/

theorem narrow_zero : narrow keys borders byte 0 = 0 := by
  rw [narrow, if_pos rfl]

theorem narrow_of_key {length : Nat} (hkey : keys[length]? = some byte) :
    narrow keys borders byte length = length := by
  rw [narrow]
  split
  · next hzero => exact hzero.symm
  · rfl

/-- If the byte does not continue a candidate, the descent goes on with its longest border. -/
theorem narrow_of_not_key {length border : Nat} (hpos : length ≠ 0)
    (hkey : keys[length]? ≠ some byte) (hborder : borders.getD (length - 1) 0 = border)
    (hlt : border < length) :
    narrow keys borders byte length = narrow keys borders byte border := by
  rw [narrow, if_neg hpos, if_neg hkey]
  simp only [hborder, hlt, if_true]

theorem Correct.getD {length : Nat} (hcorrect : Correct keys borders) (hpos : length ≠ 0)
    (hle : length ≤ borders.size) : LongestBorder keys length (borders.getD (length - 1) 0) := by
  have hindex : length - 1 < borders.size := by omega
  have hborder := hcorrect (length - 1) hindex
  rw [Nat.sub_add_cancel (Nat.pos_of_ne_zero hpos)] at hborder
  simpa [Array.getD, hindex] using hborder

/-- The descent finds the longest candidate that the byte continues. -/
theorem narrow_narrowed (hcorrect : Correct keys borders) (byte : UInt8) :
    ∀ length, length ≤ borders.size →
      Narrowed keys byte length (narrow keys borders byte length) := by
  intro length
  induction length using Nat.strongRecOn with
  | _ length ih =>
      intro hle
      by_cases hzero : length = 0
      · subst hzero
        rw [narrow_zero]
        exact ⟨Nat.le_refl 0, List.suffix_refl _, Or.inl rfl, fun other hother _ _ => hother⟩
      · by_cases hkey : keys[length]? = some byte
        · rw [narrow_of_key hkey]
          exact ⟨Nat.le_refl _, List.suffix_refl _, Or.inr hkey, fun other hother _ _ => hother⟩
        · have hborder := hcorrect.getD hzero hle
          have hlt := hborder.lt
          have hnarrowed := ih _ hlt (by omega)
          rw [narrow_of_not_key hzero hkey rfl hlt]
          refine ⟨Nat.le_trans hnarrowed.le (Nat.le_of_lt hlt),
            hnarrowed.suffix.trans hborder.suffix,
            hnarrowed.continues, ?_⟩
          intro other hother hsuffix hother'
          -- the prefix itself is out, so the candidate is one of its borders
          have hne : other ≠ length := by
            rintro rfl
            exact hkey hother'
          have hshorter := hborder.longest other (by omega) hsuffix
          exact hnarrowed.longest other hshorter
            (take_suffix_take hsuffix hborder.suffix hshorter) hother'

/-! ## The table -/

theorem correct_singleton (keys : Array UInt8) : Correct keys #[0] := by
  intro index hindex
  have hzero : index = 0 := by simpa using hindex
  subst hzero
  exact ⟨Nat.one_pos, by simp, fun other hother _ => Nat.le_of_lt_succ hother⟩

/-- Each entry follows from the entries in front of it. -/
theorem correct_extend (hcorrect : Correct keys borders) (hpos : 0 < borders.size)
    (hlt : borders.size < keys.size) :
    Correct keys (extend keys borders) ∧ (extend keys borders).size = borders.size + 1 := by
  obtain ⟨key, hkey⟩ : ∃ key, keys[borders.size]? = some key :=
    ⟨keys[borders.size], Array.getElem?_eq_getElem hlt⟩
  have hback : borders.back?.getD 0 = borders.getD (borders.size - 1) 0 := by
    simp [Array.back?, Array.getD_eq_getD_getElem?]
  have hborder := hcorrect.getD (Nat.pos_iff_ne_zero.mp hpos) (Nat.le_refl _)
  have hnarrowed := narrow_narrowed hcorrect key _ (Nat.le_of_lt hborder.lt)
  have hstep := hborder.step (Nat.le_of_lt hlt) hnarrowed
  rw [← take_succ_of_getElem? (Array.getElem?_toList.trans hkey)] at hstep
  simp only [extend, hkey, hback, Array.size_push, and_true]
  intro index hindex
  rw [Array.size_push] at hindex
  by_cases hlast : index = borders.size
  · subst hlast
    rw [Array.getElem_push_eq]
    exact hstep
  · have hindex' : index < borders.size := by omega
    rw [Array.getElem_push_lt hindex']
    exact hcorrect index hindex'

theorem correct_extendBy (count : Nat) :
    ∀ borders : Array Nat, Correct keys borders → 0 < borders.size →
      borders.size + count ≤ keys.size → Correct keys (extendBy keys borders count) ∧
        (extendBy keys borders count).size = borders.size + count := by
  induction count with
  | zero => exact fun borders hcorrect _ _ => ⟨hcorrect, rfl⟩
  | succ count ih =>
      intro borders hcorrect hpos hle
      obtain ⟨hextend, hsize⟩ := correct_extend hcorrect hpos (by omega)
      obtain ⟨hall, htotal⟩ := ih (extend keys borders) hextend (by omega) (by omega)
      exact ⟨hall, by rw [extendBy, htotal, hsize]; omega⟩

theorem size_borderTable (keys : Array UInt8) : (borderTable keys).size = keys.size := by
  unfold borderTable
  split
  · next hempty => simp [hempty]
  · next hempty =>
    rw [(correct_extendBy (keys.size - 1) #[0] (correct_singleton keys) Nat.one_pos (by
      simp only [List.size_toArray, List.length_singleton]; omega)).2]
    simp only [List.size_toArray, List.length_singleton]
    omega

/-- The table names the longest border of every prefix. -/
theorem borderTable_correct (keys : Array UInt8) : Correct keys (borderTable keys) := by
  unfold borderTable
  split
  · intro index hindex
    simp at hindex
  · next hempty =>
    exact (correct_extendBy (keys.size - 1) #[0] (correct_singleton keys) Nat.one_pos (by
      simp only [List.size_toArray, List.length_singleton]; omega)).1

end ContainerAttach.Keys
