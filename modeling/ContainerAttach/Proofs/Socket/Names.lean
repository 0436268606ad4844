import ContainerAttach.Socket.Address
import Mathlib.Data.List.TakeWhile

/-!
# The names of addresses

An address is made of a path byte by byte with a zero byte behind it, and the operating system
reads a name from it up to the first zero byte (`SocketAddress.name_eq`).  So the name is the path
itself exactly if the path is not empty and has no zero byte in it
(`SocketName.ofPath_eq_self_iff`).  Of any other path it is what comes before the first zero byte,
and a name outside the file system if that is nothing.
-/

namespace ContainerAttach

/-! ## Names and paths -/

/-- A path that is the name of its address. -/
structure Nameable (path : Bytes) : Prop where
  ne_nil : path ≠ []
  no_zero : (0 : UInt8) ∉ path

namespace SocketName

/-- The name that is read from the address of a path. -/
def ofPath : Bytes → SocketName
  | [] => .abstract []
  | byte :: rest =>
    if byte = 0 then .abstract (rest ++ [0]) else .path ((byte :: rest).takeWhile (· != 0))

variable {path front : Bytes}

theorem ofPath_eq_path_iff {given : Bytes} :
    ofPath path = .path given ↔ given ≠ [] ∧ path.takeWhile (· != 0) = given := by
  cases path with
  | nil =>
      refine ⟨fun h => (nomatch h), ?_⟩
      rintro ⟨hne, rfl⟩
      exact absurd rfl hne
  | cons byte rest =>
      by_cases hzero : byte = 0
      · rw [ofPath, if_pos hzero, hzero]
        refine ⟨fun h => (nomatch h), ?_⟩
        rintro ⟨hne, rfl⟩
        exact absurd rfl hne
      · rw [ofPath, if_neg hzero, SocketName.path.injEq]
        refine ⟨?_, fun h => h.2⟩
        rintro rfl
        refine ⟨?_, rfl⟩
        rw [List.takeWhile_cons_of_pos (by simpa using hzero)]
        exact List.cons_ne_nil _ _

/-- The bytes before the first zero byte are all bytes if there is no zero byte. -/
theorem takeWhile_eq_self_iff : path.takeWhile (· != 0) = path ↔ (0 : UInt8) ∉ path := by
  rw [List.takeWhile_eq_self_iff]
  constructor
  · intro hall hzero
    exact absurd (hall 0 hzero) (by decide)
  · intro hzero byte hbyte
    rw [bne_iff_ne]
    rintro rfl
    exact hzero hbyte

theorem ofPath_eq_self_iff : ofPath path = .path path ↔ Nameable path := by
  rw [ofPath_eq_path_iff, takeWhile_eq_self_iff]
  exact ⟨fun h => ⟨h.1, h.2⟩, fun h => ⟨h.ne_nil, h.no_zero⟩⟩

/-- A zero byte cuts a path off. -/
theorem ofPath_cut (hfront : Nameable front) (rest : Bytes) :
    ofPath (front ++ 0 :: rest) = .path front := by
  refine ofPath_eq_path_iff.mpr ⟨hfront.ne_nil, ?_⟩
  have hall : ∀ byte ∈ front, (byte != 0) = true := by
    intro byte hbyte
    rw [bne_iff_ne]
    rintro rfl
    exact hfront.no_zero hbyte
  rw [List.takeWhile_append_of_pos hall, List.takeWhile_cons_of_neg (by simp), List.append_nil]

/-- What is not nameable has nothing before its first zero byte, or is cut off there. -/
theorem ofPath_of_not_nameable (hpath : ¬ Nameable path) :
    (∃ bytes, ofPath path = .abstract bytes) ∨
      ∃ front rest, Nameable front ∧ path = front ++ 0 :: rest := by
  by_cases hempty : path = []
  · rw [hempty]
    exact Or.inl ⟨[], rfl⟩
  · have hzero : (0 : UInt8) ∈ path := by
      apply Decidable.byContradiction
      exact fun hzero => hpath ⟨hempty, hzero⟩
    obtain ⟨front, rest, hsplit, hfront⟩ := List.eq_append_cons_of_mem hzero
    cases front with
    | nil =>
        rw [hsplit]
        exact Or.inl ⟨rest ++ [0], rfl⟩
    | cons byte front => exact Or.inr ⟨_, rest, ⟨List.cons_ne_nil _ _, hfront⟩, hsplit⟩

end SocketName

namespace SocketAddress

/-- The zero byte behind a path adds nothing to what is before the first one. -/
theorem takeWhile_append_zero (path : Bytes) :
    (path ++ [0]).takeWhile (· != 0) = path.takeWhile (· != 0) := by
  rw [List.takeWhile_append]
  split
  · next hall =>
    have hsame := (List.takeWhile_prefix (· != 0)).eq_of_length hall
    rw [List.takeWhile_cons_of_neg (by simp), List.append_nil, hsame]
  · rfl

/-- What the length of an address leaves of its field is the path and a zero byte. -/
theorem take_field_ofPath {path : Bytes} {address : SocketAddress}
    (haddress : ofPath path = .ok address) :
    address.field.take (address.length - pathOffset) = path ++ [0] := by
  unfold ofPath at haddress
  split at haddress
  · exact nomatch haddress
  · next hlength =>
    obtain rfl := Except.ok.inj haddress
    dsimp only
    rw [Nat.add_assoc, Nat.add_sub_cancel_left, List.take_length_add_append, List.take_replicate,
      Nat.min_eq_left (by omega)]
    rfl

theorem name_eq {path : Bytes} {address : SocketAddress}
    (haddress : ofPath path = .ok address) : address.name = .ofPath path := by
  unfold name
  rw [take_field_ofPath haddress]
  cases path with
  | nil => rfl
  | cons byte rest =>
      by_cases hzero : byte = 0
      · rw [hzero]
        rfl
      · rw [SocketName.ofPath, if_neg hzero, ← takeWhile_append_zero]
        split
        · next hfirst => exact absurd (List.cons.inj hfirst).1 hzero
        · rfl

end SocketAddress

end ContainerAttach
