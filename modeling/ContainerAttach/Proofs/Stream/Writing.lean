import ContainerAttach.Stream.Sink

/-!
# What a sink accepts

A write adds to the data of a sink exactly the part of the offered bytes that its
answer admits to (`data_write`), whatever its script and its buffering are.  All
accounts of delivered bytes go back to this.

A sink is willing if no step of its script refuses: each accepts something or is
interrupted.  Writing repeats until nothing is left, so a willing sink gets
everything (`writeAll_of_willing`), in as many writes as it likes.  Any other sink has
got a first part of it when the writes stop (`writeAll_accepts`).
-/

namespace ContainerAttach

/-- The number of bytes that an answer admits to have accepted. -/
def WriteResult.count : WriteResult → Nat
  | .accepted count => count
  | .failed _ => 0
  | .crashed => 0

/-- Whether a step accepts something or is over as soon as it is tried again. -/
def WriteStep.isWilling : WriteStep → Bool
  | .all => true
  | .atMost count => count ≠ 0
  | .fail error => error.isInterrupted
  | .crash => false

namespace Sink

/-- A sink that accepts everything in the end. -/
def Willing (sink : Sink) : Prop :=
  ∀ step ∈ sink.script, step.isWilling = true

/-! ## One write -/

@[simp] theorem data_log (sink : Sink) (bytes : Bytes) (count : Nat) :
    (sink.log bytes count).data = sink.data ++ bytes.take count := by
  simp [log, data]

theorem data_answer (sink : Sink) (bytes : Bytes) (step : WriteStep) :
    (sink.answer bytes step).2.data =
      sink.data ++ bytes.take (sink.answer bytes step).1.count := by
  cases step with
  | all => exact data_log sink bytes _
  | atMost count =>
      simp only [answer, data_log, WriteResult.count, ← List.take_take, List.take_length]
  | fail error => exact data_log sink bytes 0
  | crash => exact data_log sink bytes 0

/-- The data grows by what the answer admits to. -/
theorem data_write (sink : Sink) (bytes : Bytes) :
    (sink.write bytes).2.data = sink.data ++ bytes.take (sink.write bytes).1.count := by
  unfold write
  split
  · exact data_answer sink bytes .all
  · next step script _ => exact data_answer { sink with script := script } bytes step

theorem accepts_le (buffering : Buffering) (bytes : Bytes) :
    buffering.accepts bytes ≤ bytes.length := by
  cases buffering with
  | none => exact Nat.le_refl _
  | line capacity =>
      simp only [Buffering.accepts]
      split
      · split <;> omega
      · exact Nat.le_refl _

theorem count_answer_le (sink : Sink) (bytes : Bytes) (step : WriteStep) :
    (sink.answer bytes step).1.count ≤ bytes.length := by
  cases step with
  | all => exact accepts_le sink.buffering bytes
  | atMost count => exact Nat.min_le_right count bytes.length
  | fail error => exact Nat.zero_le _
  | crash => exact Nat.zero_le _

/-- No answer admits to more than was offered. -/
theorem count_write_le (sink : Sink) (bytes : Bytes) :
    (sink.write bytes).1.count ≤ bytes.length := by
  unfold write
  split
  · exact count_answer_le sink bytes .all
  · next step script _ => exact count_answer_le { sink with script := script } bytes step

theorem script_answer (sink : Sink) (bytes : Bytes) (step : WriteStep) :
    (sink.answer bytes step).2.script = sink.script := by
  cases step <;> rfl

/-! ## Willing sinks -/

theorem willing_write {sink : Sink} (hwilling : sink.Willing) (bytes : Bytes) :
    (sink.write bytes).2.Willing := by
  unfold write
  split
  · next hscript =>
    rw [Willing, script_answer]
    exact hwilling
  · next step script hscript =>
    rw [Willing, script_answer]
    intro other hother
    exact hwilling other (by rw [hscript]; exact List.mem_cons_of_mem step hother)

/-- The last line is shorter than the text that it ends, by the line feed in front of it. -/
theorem length_lastLine?_lt {bytes rest : Bytes} (hrest : lastLine? bytes = some rest) :
    rest.length < bytes.length := by
  unfold lastLine? at hrest
  split at hrest
  · next hfeed =>
    obtain rfl := Option.some.inj hrest
    have hreverse : bytes.reverse.length = bytes.length := List.length_reverse
    rw [List.length_reverse, ← hreverse]
    have hstart := List.takeWhile_prefix (l := bytes.reverse) (· != 10)
    refine Nat.lt_of_le_of_ne hstart.length_le ?_
    intro hlength
    have hall := List.all_takeWhile (l := bytes.reverse) (p := (· != 10))
    rw [hstart.eq_of_length hlength, List.all_reverse, List.all_eq_true] at hall
    have := hall 10 (by simpa using hfeed)
    simp at this
  · simp at hrest

/-- What is buffered by lines is still accepted up to the end of a line. -/
theorem accepts_pos (buffering : Buffering) {bytes : Bytes} (hbytes : bytes ≠ []) :
    0 < buffering.accepts bytes := by
  have hpos := List.length_pos_iff.mpr hbytes
  cases buffering with
  | none => exact hpos
  | line capacity =>
      simp only [Buffering.accepts]
      split
      · next rest hrest =>
        split
        · have hlt : rest.length < bytes.length := length_lastLine?_lt hrest
          omega
        · exact hpos
      · exact hpos

theorem answer_of_willing (sink : Sink) {bytes : Bytes} (hbytes : bytes ≠ []) {step : WriteStep}
    (hstep : step.isWilling = true) :
    (∃ count, (sink.answer bytes step).1 = .accepted (count + 1)) ∨
      ∃ error, error.isInterrupted = true ∧ (sink.answer bytes step).1 = .failed error := by
  cases step with
  | all =>
      refine Or.inl ⟨sink.buffering.accepts bytes - 1, ?_⟩
      have := accepts_pos sink.buffering hbytes
      rw [Nat.sub_add_cancel this]
      rfl
  | atMost count =>
      have hcount : count ≠ 0 := by simpa [WriteStep.isWilling] using hstep
      have := List.length_pos_iff.mpr hbytes
      refine Or.inl ⟨min count bytes.length - 1, ?_⟩
      rw [Nat.sub_add_cancel (by omega)]
      rfl
  | fail error => exact Or.inr ⟨error, hstep, rfl⟩
  | crash => exact absurd hstep Bool.false_ne_true

/-- A willing sink accepts something of something, or is interrupted. -/
theorem write_of_willing {sink : Sink} (hwilling : sink.Willing) {bytes : Bytes}
    (hbytes : bytes ≠ []) :
    (∃ count, (sink.write bytes).1 = .accepted (count + 1)) ∨
      ∃ error, error.isInterrupted = true ∧ (sink.write bytes).1 = .failed error := by
  unfold write
  split
  · exact answer_of_willing sink hbytes rfl
  · next step script hscript =>
    exact answer_of_willing _ hbytes (hwilling step (by rw [hscript]; exact List.mem_cons_self))

/-- Everything that is offered to a willing sink is accepted. -/
theorem writeAll_of_willing (sink : Sink) (bytes : Bytes) (hwilling : sink.Willing) :
    ∃ after, sink.writeAll bytes = (.done (), after) ∧ after.data = sink.data ++ bytes ∧
      after.Willing := by
  fun_induction writeAll sink bytes with
  | case1 sink => exact ⟨sink, rfl, by simp, hwilling⟩
  | case2 sink bytes hbytes rest hwrite =>
      rcases write_of_willing hwilling hbytes with ⟨count, haccepted⟩ | ⟨error, -, hfailed⟩
      · simp [hwrite] at haccepted
      · simp [hwrite] at hfailed
  | case3 sink bytes hbytes count rest hwrite ih =>
      have hrest := willing_write hwilling bytes
      have hdata := data_write sink bytes
      rw [hwrite] at hrest hdata
      obtain ⟨after, hafter, hall, hstill⟩ := ih hrest
      refine ⟨after, hafter, ?_, hstill⟩
      calc after.data
          = rest.data ++ bytes.drop (count + 1) := hall
        _ = sink.data ++ (bytes.take (count + 1) ++ bytes.drop (count + 1)) := by
            rw [hdata, WriteResult.count, List.append_assoc]
        _ = sink.data ++ bytes := by rw [List.take_append_drop]
  | case4 sink bytes hbytes error rest hwrite hinterrupted ih =>
      have hrest := willing_write hwilling bytes
      have hdata := data_write sink bytes
      rw [hwrite] at hrest hdata
      obtain ⟨after, hafter, hall, hstill⟩ := ih hrest
      refine ⟨after, hafter, ?_, hstill⟩
      rw [hall, hdata, WriteResult.count, List.take_zero, List.append_nil]
  | case5 sink bytes hbytes error rest hwrite hinterrupted =>
      rcases write_of_willing hwilling hbytes with ⟨count, haccepted⟩ | ⟨other, hother, hfailed⟩
      · simp [hwrite] at haccepted
      · simp only [hwrite, WriteResult.failed.injEq] at hfailed
        subst hfailed
        exact absurd hother hinterrupted
  | case6 sink bytes hbytes rest hwrite =>
      rcases write_of_willing hwilling hbytes with ⟨count, haccepted⟩ | ⟨error, -, hfailed⟩
      · simp [hwrite] at haccepted
      · simp [hwrite] at hfailed

/-- Repeated writes get a first part of the bytes accepted, and end well if nothing is left of
them. -/
theorem writeAll_accepts (sink : Sink) (bytes : Bytes) :
    ∃ accepted left, bytes = accepted ++ left ∧
      (sink.writeAll bytes).2.data = sink.data ++ accepted ∧
      ((sink.writeAll bytes).1 = .done () ↔ left = []) := by
  fun_induction writeAll sink bytes with
  | case1 sink => exact ⟨[], [], rfl, by simp, by simp⟩
  | case2 sink bytes hbytes rest hwrite =>
      have hdata := data_write sink bytes
      rw [hwrite] at hdata
      exact ⟨[], bytes, rfl, hdata, by simp [hbytes]⟩
  | case3 sink bytes hbytes count rest hwrite ih =>
      have hdata := data_write sink bytes
      rw [hwrite] at hdata
      obtain ⟨accepted, left, hrest, hafter, hends⟩ := ih
      refine ⟨bytes.take (count + 1) ++ accepted, left, ?_, ?_, hends⟩
      · rw [List.append_assoc, ← hrest, List.take_append_drop]
      · rw [hafter, hdata, WriteResult.count, List.append_assoc]
  | case4 sink bytes hbytes error rest hwrite hinterrupted ih =>
      have hdata := data_write sink bytes
      rw [hwrite, WriteResult.count, List.take_zero, List.append_nil] at hdata
      rw [← hdata]
      exact ih
  | case5 sink bytes hbytes error rest hwrite hinterrupted =>
      have hdata := data_write sink bytes
      rw [hwrite] at hdata
      exact ⟨[], bytes, rfl, hdata, by simp [hbytes]⟩
  | case6 sink bytes hbytes rest hwrite =>
      have hdata := data_write sink bytes
      rw [hwrite] at hdata
      exact ⟨[], bytes, rfl, hdata, by simp [hbytes]⟩

end Sink

end ContainerAttach
