import ContainerAttach.Stream.Sink

/-!
# Buffering by lines

A sink that is buffered by lines passes complete lines through.  What comes after the
last line feed is kept in the buffer if it is shorter than the buffer, and otherwise it
is not accepted at all by the same write.  So there is one shape of text of which such a
sink accepts a part only: a last line feed, and after it as many bytes as the buffer
holds, or more (`FillsBuffer`, `Buffering.accepts_of_not_fills`).  Without a line feed a text of
any length is accepted whole.
-/

namespace ContainerAttach

/-- The text has a line feed, and after the last one at least as many bytes as the buffer
holds. -/
def FillsBuffer (capacity : Nat) (bytes : Bytes) : Prop :=
  ∃ line rest : Bytes, bytes = line ++ 10 :: rest ∧ 10 ∉ rest ∧ capacity ≤ rest.length

theorem lastLine?_of_feed (line : Bytes) {rest : Bytes} (hrest : 10 ∉ rest) :
    lastLine? (line ++ 10 :: rest) = some rest := by
  have hfeed : (line ++ 10 :: rest).contains 10 = true := by simp
  have hstart : (line ++ 10 :: rest).reverse.takeWhile (· != 10) = rest.reverse := by
    have hreverse : (line ++ 10 :: rest).reverse = rest.reverse ++ 10 :: line.reverse := by simp
    have hall : ∀ byte ∈ rest.reverse, (byte != 10) = true := by
      intro byte hbyte
      have hmem : byte ∈ rest := List.mem_reverse.mp hbyte
      simp only [bne_iff_ne]
      rintro rfl
      exact hrest hmem
    rw [hreverse, List.takeWhile_append_of_pos hall]
    simp
  rw [lastLine?, if_pos hfeed, hstart, List.reverse_reverse]

theorem lastLine?_of_not_mem {bytes : Bytes} (hbytes : 10 ∉ bytes) : lastLine? bytes = none := by
  have hfeed : ¬ bytes.contains 10 = true := by simpa using hbytes
  rw [lastLine?, if_neg hfeed]

/-- A text with a line feed in it has a last one. -/
theorem exists_last_feed {bytes : Bytes} (hbytes : 10 ∈ bytes) :
    ∃ line rest : Bytes, bytes = line ++ 10 :: rest ∧ 10 ∉ rest := by
  obtain ⟨after, before, hreverse, hafter⟩ :=
    List.eq_append_cons_of_mem (List.mem_reverse.mpr hbytes)
  refine ⟨before.reverse, after.reverse, ?_, ?_⟩
  · rw [← List.reverse_reverse bytes, hreverse]
    simp
  · exact fun hmem => hafter (List.mem_reverse.mp hmem)

namespace Buffering

variable {capacity : Nat} {line rest bytes : Bytes}

/-- The rest of a line that does not fit is left. -/
theorem accepts_of_fills (line : Bytes) (hrest : 10 ∉ rest) (hfills : capacity ≤ rest.length) :
    (Buffering.line capacity).accepts (line ++ 10 :: rest) = line.length + 1 := by
  simp only [accepts, lastLine?_of_feed line hrest, hfills, if_true, List.length_append,
    List.length_cons]
  omega

/-- A text is accepted whole unless the rest of its last line fills the buffer. -/
theorem accepts_of_not_fills (hfills : ¬ FillsBuffer capacity bytes) :
    (Buffering.line capacity).accepts bytes = bytes.length := by
  by_cases hfeed : 10 ∈ bytes
  · obtain ⟨line, rest, rfl, hrest⟩ := exists_last_feed hfeed
    have hshort : ¬ capacity ≤ rest.length := fun hle => hfills ⟨line, rest, rfl, hrest, hle⟩
    simp only [accepts, lastLine?_of_feed line hrest, hshort, if_false]
  · simp only [accepts, lastLine?_of_not_mem hfeed]

end Buffering

end ContainerAttach
