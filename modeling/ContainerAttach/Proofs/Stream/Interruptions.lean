import ContainerAttach.Proofs.Stream.Calls
import ContainerAttach.Proofs.Stream.Reading

/-!
# Scripts with interruptions

An interruption in a script makes one call fail, which is then made again.  A script of
`Marked` steps tells the steps of its own from the interruptions that were put between
them.  So it stands for two scripts, a calm one and a disturbed one, and two sources or two
sinks that differ by them are `Alike`.

What one call on the calm side gives, the disturbed side gives after some interruptions, and
the two sides are alike again (`Source.Alike.read`, `Sink.Alike.attempts`).  The calls on the
two sides get out of step this way, but what is left of the marked script is the same.
-/

namespace ContainerAttach

/-- A step of a script, or an interruption that was put into the script. -/
inductive Marked (Step : Type) where
  | own (step : Step)
  | inserted (error : IoError) (interrupted : error.isInterrupted = true)

namespace Marked

variable {Step : Type}

/-- The script without the interruptions that were put into it. -/
def calm : List (Marked Step) → List Step
  | [] => []
  | .own step :: script => step :: calm script
  | .inserted _ _ :: script => calm script

/-- The script with the interruptions, each of them a step that fails. -/
def disturbed (fail : IoError → Step) : List (Marked Step) → List Step
  | [] => []
  | .own step :: script => step :: disturbed fail script
  | .inserted error _ :: script => fail error :: disturbed fail script

end Marked

/-! ## Reads -/

/-- The second source differs from the first in the interruptions that were put into its
steps. -/
structure Source.DifferBy (script : List (Marked ReadStep)) (calm disturbed : Source) : Prop where
  framing : disturbed.framing = calm.framing
  held : disturbed.held = calm.held
  calm_steps : calm.steps = Marked.calm script
  disturbed_steps : disturbed.steps = Marked.disturbed .fail script

/-- The sources differ by what is left of the script. -/
def Source.Alike (script : List (Marked ReadStep)) (calm disturbed : Source) : Prop :=
  ∃ rest, rest <:+ script ∧ calm.DifferBy rest disturbed

namespace Source

variable {capacity : Nat} {calm middle disturbed : Source} {result : ReadResult}
  {script : List (Marked ReadStep)}

/-- What is held is read without a look at the steps. -/
theorem DifferBy.read_held (hdiffer : calm.DifferBy script disturbed) (hheld : calm.held ≠ [])
    (hread : calm.read capacity = (result, middle)) :
    ∃ last, disturbed.read capacity = (result, last) ∧ middle.DifferBy script last := by
  obtain ⟨byte, tail, hheld⟩ := List.exists_cons_of_ne_nil hheld
  have hother : disturbed.held = byte :: tail := hdiffer.held.trans hheld
  unfold read at hread ⊢
  rw [hheld] at hread
  obtain ⟨rfl, rfl⟩ := Prod.mk.inj hread
  rw [hother]
  exact ⟨_, rfl, hdiffer.framing, rfl, hdiffer.calm_steps, hdiffer.disturbed_steps⟩

theorem DifferBy.read_end (hdiffer : calm.DifferBy [] disturbed) (hheld : calm.held = [])
    (hread : calm.read capacity = (result, middle)) :
    ∃ last, disturbed.read capacity = (result, last) ∧ middle.DifferBy [] last := by
  have hother : disturbed.held = [] := hdiffer.held.trans hheld
  have hsteps : calm.steps = [] := hdiffer.calm_steps
  have hsame : disturbed.steps = [] := hdiffer.disturbed_steps
  simp only [read, hheld, hsteps] at hread
  obtain ⟨rfl, rfl⟩ := Prod.mk.inj hread
  simp only [read, hother, hsame]
  exact ⟨disturbed, rfl, hdiffer⟩

/-- A step of its own is taken on both sides. -/
theorem DifferBy.read_own {step : ReadStep}
    (hdiffer : calm.DifferBy (.own step :: script) disturbed) (hheld : calm.held = [])
    (hread : calm.read capacity = (result, middle)) :
    ∃ last, disturbed.read capacity = (result, last) ∧ middle.DifferBy script last := by
  have hother : disturbed.held = [] := hdiffer.held.trans hheld
  have hsteps : calm.steps = step :: Marked.calm script := hdiffer.calm_steps
  have hsame : disturbed.steps = step :: Marked.disturbed .fail script := hdiffer.disturbed_steps
  cases step with
  | data bytes =>
      simp only [read, hheld, hsteps] at hread
      obtain ⟨rfl, rfl⟩ := Prod.mk.inj hread
      simp only [read, hother, hsame, hdiffer.framing]
      exact ⟨_, rfl, rfl, rfl, rfl, rfl⟩
  | fail error =>
      simp only [read, hheld, hsteps] at hread
      obtain ⟨rfl, rfl⟩ := Prod.mk.inj hread
      simp only [read, hother, hsame]
      exact ⟨_, rfl, hdiffer.framing, rfl, rfl, rfl⟩

/-- An interruption that was put in fails on the disturbed side alone. -/
theorem DifferBy.read_inserted {error : IoError} {interrupted : error.isInterrupted = true}
    (hdiffer : calm.DifferBy (.inserted error interrupted :: script) disturbed)
    (hheld : calm.held = []) :
    ∃ last, disturbed.read capacity = (.failed error, last) ∧ calm.DifferBy script last := by
  have hother : disturbed.held = [] := hdiffer.held.trans hheld
  have hsame : disturbed.steps = .fail error :: Marked.disturbed .fail script :=
    hdiffer.disturbed_steps
  simp only [read, hother, hsame]
  exact ⟨_, rfl, hdiffer.framing, hheld.symm, hdiffer.calm_steps, rfl⟩

theorem DifferBy.read (hdiffer : calm.DifferBy script disturbed)
    (hread : calm.read capacity = (result, middle)) :
    ∃ (interruptions : List IoError) (last : Source),
      (∀ error ∈ interruptions, error.isInterrupted = true) ∧
        disturbed.Gives capacity (interruptions.map .failed ++ [result]) last ∧
          middle.Alike script last := by
  by_cases hheld : calm.held = []
  case neg =>
    obtain ⟨last, hlast, hafter⟩ := hdiffer.read_held hheld hread
    exact ⟨[], last, by simp, .cons hlast (.nil last), script, List.suffix_refl script, hafter⟩
  case pos =>
    -- the interruptions that come first are those in front of the first step of its own
    induction script generalizing disturbed with
    | nil =>
        obtain ⟨last, hlast, hafter⟩ := hdiffer.read_end hheld hread
        exact ⟨[], last, by simp, .cons hlast (.nil last), [], List.suffix_refl [], hafter⟩
    | cons mark script ih =>
        cases mark with
        | own step =>
            obtain ⟨last, hlast, hafter⟩ := hdiffer.read_own hheld hread
            exact ⟨[], last, by simp, .cons hlast (.nil last), script, List.suffix_cons _ script,
              hafter⟩
        | inserted error interrupted =>
            obtain ⟨next, hfails, hnext⟩ := hdiffer.read_inserted hheld
            obtain ⟨interruptions, last, hall, hgives, rest, hrest, hafter⟩ := ih hnext
            refine ⟨error :: interruptions, last, ?_, .cons hfails hgives, rest, ?_, hafter⟩
            · exact List.forall_mem_cons.mpr ⟨interrupted, hall⟩
            · exact hrest.trans (List.suffix_cons _ script)

/-- A read gives on the disturbed side what it gives on the calm one, after the interruptions
that come first. -/
theorem Alike.read (halike : calm.Alike script disturbed)
    (hread : calm.read capacity = (result, middle)) :
    ∃ (interruptions : List IoError) (last : Source),
      (∀ error ∈ interruptions, error.isInterrupted = true) ∧
        disturbed.Gives capacity (interruptions.map .failed ++ [result]) last ∧
          middle.Alike script last := by
  obtain ⟨rest, hrest, hdiffer⟩ := halike
  obtain ⟨interruptions, last, hall, hgives, left, hleft, hafter⟩ := hdiffer.read hread
  exact ⟨interruptions, last, hall, hgives, left, hleft.trans hrest, hafter⟩

end Source

/-! ## Writes and flushes -/

theorem Call.attempts_append (offered : Bytes) (interruptions more : List IoError)
    (error : IoError) (answer : WriteResult) :
    Call.attempts offered interruptions (.failed error) ++ Call.attempts offered more answer =
      Call.attempts offered (interruptions ++ error :: more) answer := by
  simp [Call.attempts]

/-- The second sink differs from the first in the interruptions that were put into its script
and in the writes that they have made fail. -/
structure Sink.DifferBy (script : List (Marked WriteStep)) (calm disturbed : Sink) : Prop where
  calm_script : calm.script = Marked.calm script
  disturbed_script : disturbed.script = Marked.disturbed .fail script
  buffering : disturbed.buffering = calm.buffering
  data : disturbed.data = calm.data
  flushScript : disturbed.flushScript = calm.flushScript
  flushes : disturbed.flushes = calm.flushes

/-- The sinks differ by what is left of the script. -/
def Sink.Alike (script : List (Marked WriteStep)) (calm disturbed : Sink) : Prop :=
  ∃ rest, rest <:+ script ∧ calm.DifferBy rest disturbed

namespace Sink

variable {script : List (Marked WriteStep)} {calm disturbed after : Sink} {offered : Bytes}
  {result : WriteResult}

theorem DifferBy.log (hdiffer : calm.DifferBy script disturbed) (offered : Bytes) (count : Nat) :
    (calm.log offered count).DifferBy script (disturbed.log offered count) := by
  have hdata : (disturbed.log offered count).data = (calm.log offered count).data := by
    rw [data_log, data_log, hdiffer.data]
  exact { hdiffer with data := hdata }

/-- A write that failed has accepted nothing. -/
theorem DifferBy.log_failed (hdiffer : calm.DifferBy script disturbed) (offered : Bytes) :
    calm.DifferBy script (disturbed.log offered 0) := by
  have hdata : (disturbed.log offered 0).data = calm.data := by
    rw [data_log, hdiffer.data, List.take_zero, List.append_nil]
  exact { hdiffer with data := hdata }

theorem DifferBy.answer (hdiffer : calm.DifferBy script disturbed) {step : WriteStep}
    (hanswer : calm.answer offered step = (result, after)) :
    ∃ last, disturbed.answer offered step = (result, last) ∧ after.DifferBy script last := by
  cases step with
  | all =>
      obtain ⟨rfl, rfl⟩ := Prod.mk.inj hanswer
      refine ⟨disturbed.log offered (calm.buffering.accepts offered), ?_, hdiffer.log _ _⟩
      rw [Sink.answer, hdiffer.buffering]
  | atMost | fail | crash =>
      obtain ⟨rfl, rfl⟩ := Prod.mk.inj hanswer
      exact ⟨_, rfl, hdiffer.log _ _⟩

theorem write_of_script {sink : Sink} {step : WriteStep} {steps : List WriteStep}
    (hscript : sink.script = step :: steps) (offered : Bytes) :
    sink.write offered = { sink with script := steps }.answer offered step := by
  unfold write
  rw [hscript]

theorem DifferBy.write_end (hdiffer : calm.DifferBy [] disturbed)
    (hwrite : calm.write offered = (result, after)) :
    ∃ last, disturbed.write offered = (result, last) ∧ after.DifferBy [] last := by
  have hscript : calm.script = [] := hdiffer.calm_script
  have hsame : disturbed.script = [] := hdiffer.disturbed_script
  simp only [Sink.write, hscript] at hwrite
  simp only [Sink.write, hsame]
  exact hdiffer.answer hwrite

/-- A step of its own is taken on both sides. -/
theorem DifferBy.write_own {step : WriteStep}
    (hdiffer : calm.DifferBy (.own step :: script) disturbed)
    (hwrite : calm.write offered = (result, after)) :
    ∃ last, disturbed.write offered = (result, last) ∧ after.DifferBy script last := by
  have hscript : calm.script = step :: Marked.calm script := hdiffer.calm_script
  have hsame : disturbed.script = step :: Marked.disturbed .fail script := hdiffer.disturbed_script
  have hrest : { calm with script := Marked.calm script }.DifferBy script
      { disturbed with script := Marked.disturbed .fail script } :=
    { hdiffer with calm_script := rfl, disturbed_script := rfl }
  rw [write_of_script hscript] at hwrite
  rw [write_of_script hsame]
  exact hrest.answer hwrite

/-- An interruption that was put in fails on the disturbed side alone. -/
theorem DifferBy.write_inserted {error : IoError} {interrupted : error.isInterrupted = true}
    (hdiffer : calm.DifferBy (.inserted error interrupted :: script) disturbed) (offered : Bytes) :
    ∃ last, disturbed.write offered = (.failed error, last) ∧ calm.DifferBy script last := by
  have hsame : disturbed.script = .fail error :: Marked.disturbed .fail script :=
    hdiffer.disturbed_script
  have hrest : calm.DifferBy script { disturbed with script := Marked.disturbed .fail script } :=
    { hdiffer with calm_script := hdiffer.calm_script, disturbed_script := rfl }
  exact ⟨_, write_of_script hsame offered, hrest.log_failed offered⟩

theorem DifferBy.write (hdiffer : calm.DifferBy script disturbed)
    (hwrite : calm.write offered = (result, after)) :
    ∃ (interruptions : List IoError) (last : Sink),
      (∀ error ∈ interruptions, error.isInterrupted = true) ∧
        disturbed.Calls (Call.attempts offered interruptions result) last ∧
          after.Alike script last := by
  induction script generalizing disturbed with
  | nil =>
      obtain ⟨last, hlast, hafter⟩ := hdiffer.write_end hwrite
      exact ⟨[], last, by simp, calls_write hlast, [], List.suffix_refl [], hafter⟩
  | cons mark script ih =>
      cases mark with
      | own step =>
          obtain ⟨last, hlast, hafter⟩ := hdiffer.write_own hwrite
          exact ⟨[], last, by simp, calls_write hlast, script, List.suffix_cons _ script, hafter⟩
      | inserted error interrupted =>
          obtain ⟨next, hfails, hnext⟩ := hdiffer.write_inserted offered
          obtain ⟨interruptions, last, hall, hcalls, rest, hrest, hafter⟩ := ih hnext
          refine ⟨error :: interruptions, last, ?_, ?_, rest, ?_, hafter⟩
          · exact List.forall_mem_cons.mpr ⟨interrupted, hall⟩
          · exact (calls_write hfails).append hcalls
          · exact hrest.trans (List.suffix_cons _ script)

/-- A write gets on the disturbed side the answer that it gets on the calm one, after the
interruptions that come first, each of which makes it again. -/
theorem Alike.write (halike : calm.Alike script disturbed)
    (hwrite : calm.write offered = (result, after)) :
    ∃ (interruptions : List IoError) (last : Sink),
      (∀ error ∈ interruptions, error.isInterrupted = true) ∧
        disturbed.Calls (Call.attempts offered interruptions result) last ∧
          after.Alike script last := by
  obtain ⟨rest, hrest, hdiffer⟩ := halike
  obtain ⟨interruptions, last, hall, hcalls, left, hleft, hafter⟩ := hdiffer.write hwrite
  exact ⟨interruptions, last, hall, hcalls, left, hleft.trans hrest, hafter⟩

/-- A flush is answered alike, also if it is interrupted. -/
theorem Alike.flush (halike : calm.Alike script disturbed) {answer : Option IoError}
    (hflush : calm.flush = (answer, after)) :
    ∃ last, disturbed.flush = (answer, last) ∧ after.Alike script last := by
  obtain ⟨rest, hrest, hdiffer⟩ := halike
  have hflushes : disturbed.flushes + 1 = calm.flushes + 1 := by rw [hdiffer.flushes]
  unfold Sink.flush at hflush ⊢
  rw [hdiffer.flushScript]
  cases hscript : calm.flushScript with
  | nil | cons =>
      rw [hscript] at hflush
      obtain ⟨rfl, rfl⟩ := Prod.mk.inj hflush
      exact ⟨_, rfl, rest, hrest, { hdiffer with flushes := hflushes, flushScript := rfl }⟩

/-- The attempts at a write are made on the disturbed side too, with more interruptions
between them. -/
theorem Alike.attempts {interruptions : List IoError} (halike : calm.Alike script disturbed)
    (hinterrupted : ∀ error ∈ interruptions, error.isInterrupted = true)
    (hcalls : calm.Calls (Call.attempts offered interruptions result) after) :
    ∃ (more : List IoError) (last : Sink),
      interruptions.Sublist more ∧ (∀ error ∈ more, error.isInterrupted = true) ∧
        disturbed.Calls (Call.attempts offered more result) last ∧ after.Alike script last := by
  induction interruptions generalizing calm disturbed with
  | nil =>
      obtain ⟨middle, hwrite, hnil⟩ := calls_write_iff.mp hcalls
      obtain rfl := calls_nil_iff.mp hnil
      obtain ⟨more, last, hmore, hlast, hafter⟩ := halike.write hwrite
      exact ⟨more, last, List.nil_sublist more, hmore, hlast, hafter⟩
  | cons error interruptions ih =>
      obtain ⟨herror, hothers⟩ := List.forall_mem_cons.mp hinterrupted
      obtain ⟨middle, hwrite, hlater⟩ := calls_write_iff.mp hcalls
      obtain ⟨first, between, hfirst, hbetween, hmiddle⟩ := halike.write hwrite
      obtain ⟨more, last, hsublist, hmore, hlast, hafter⟩ := ih hmiddle hothers hlater
      refine ⟨first ++ error :: more, last, ?_, ?_, ?_, hafter⟩
      · exact (hsublist.cons_cons error).trans (List.sublist_append_right first _)
      · exact List.forall_mem_append.mpr ⟨hfirst, List.forall_mem_cons.mpr ⟨herror, hmore⟩⟩
      · rw [← Call.attempts_append]
        exact hbetween.append hlast

end Sink

end ContainerAttach
