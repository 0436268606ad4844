import ContainerAttach.CommandLine.Program
import ContainerAttach.Proofs.Stream.Writing

/-!
# What the program tells

A line for the user is printed in parts, and each of them is written until all of it is accepted.
So the standard error gets the whole line, or a first part of it, and then the program panics
(`Told`).  That is a law of every sink (`told_tell`), and a sink that refuses nothing gets the whole
line (`tell_of_willing`).
-/

namespace ContainerAttach.CommandLine

/-- The line that tells the user that the session was detached. -/
def AttachArguments.notice (arguments : AttachArguments) : Bytes :=
  Program.lineOf ("detached from container " ++ arguments.container)

/-- A line was told behind what was there before, and the run has a code. -/
inductive Told (before : Bytes) (code : Nat) (line : Bytes) : Nat → Bytes → Prop
  | whole : Told before code line code (before ++ line)
  /-- The line was cut off, which is a panic. -/
  | cut {shown missing : Bytes} (line_eq : line = shown ++ missing)
      (missing_ne_nil : missing ≠ []) :
      Told before code line ExitCode.panicked (before ++ shown)

namespace Told

variable {before line after : Bytes} {code ended : Nat}

/-- The code is the intended one if the line is there, and tells of a panic otherwise. -/
theorem code_eq (htold : Told before code line ended after) :
    ended = if after = before ++ line then code else ExitCode.panicked := by
  cases htold with
  | whole => rw [if_pos rfl]
  | @cut shown missing line_eq missing_ne_nil =>
      refine (if_neg fun hwhole => missing_ne_nil ?_).symm
      rw [line_eq] at hwhole
      exact List.self_eq_append_right.mp (List.append_cancel_left hwhole)

/-- A first part of the line is there. -/
theorem exists_shown (htold : Told before code line ended after) :
    ∃ shown, after = before ++ shown ∧ shown <+: line := by
  cases htold with
  | whole => exact ⟨line, rfl, List.prefix_refl _⟩
  | @cut shown missing line_eq => exact ⟨shown, rfl, line_eq ▸ List.prefix_append _ _⟩

/-- A run that has nothing to tell has the intended code. -/
theorem of_nothing (htold : Told before code [] ended after) : ended = code ∧ after = before := by
  cases htold with
  | whole => exact ⟨rfl, List.append_nil before⟩
  | cut line_eq missing_ne_nil =>
      exact absurd (List.append_eq_nil_iff.mp line_eq.symm).2 missing_ne_nil

end Told

namespace Program

/-- The line that reports a failure. -/
def failureLine (failure : Failure) : Bytes :=
  lineOf ("error: " ++ failure.message)

/-- The bytes of what is printed in parts. -/
def bytesOf (parts : List String) : Bytes :=
  parts.flatMap Bytes.ofText

theorem bytesOf_line (first rest : String) :
    bytesOf [first, rest, "\n"] = lineOf (first ++ rest) := by
  simp only [bytesOf, lineOf, List.flatMap_cons, List.flatMap_nil, Bytes.ofText_append,
    List.append_nil, List.append_assoc]

theorem bytesOf_failureParts (failure : Failure) :
    bytesOf (failureParts failure) = failureLine failure :=
  bytesOf_line "error: " failure.message

theorem bytesOf_noticeParts (arguments : AttachArguments) :
    bytesOf (noticeParts arguments.container) = arguments.notice :=
  bytesOf_line "detached from container " arguments.container

/-! ## Printing -/

/-- What is printed is accepted up to some point, and the print ends well if that is the end. -/
theorem print_accepts (parts : List String) :
    ∀ sink : Sink, ∃ shown missing, bytesOf parts = shown ++ missing ∧
      (print sink parts).2.data = sink.data ++ shown ∧
      ((print sink parts).1 = .done () ↔ missing = []) := by
  induction parts with
  | nil => exact fun sink => ⟨[], [], rfl, by simp [print], by simp [print]⟩
  | cons part parts ih =>
      intro sink
      obtain ⟨accepted, left, hpart, hdata, hends⟩ := sink.writeAll_accepts (Bytes.ofText part)
      have hparts : bytesOf (part :: parts) = Bytes.ofText part ++ bytesOf parts :=
        List.flatMap_cons
      rcases hwrite : sink.writeAll (Bytes.ofText part) with ⟨ending, after⟩
      rw [hwrite] at hdata hends
      cases ending with
      | done =>
          obtain rfl : left = [] := hends.mp rfl
          obtain ⟨shown, missing, hrest, hafter, hdone⟩ := ih after
          refine ⟨accepted ++ shown, missing, ?_, ?_, ?_⟩
          · rw [hparts, hpart, hrest, List.append_nil, List.append_assoc]
          · rw [print, hwrite, hafter, hdata, List.append_assoc]
          · rw [print, hwrite]
            exact hdone
      | failed | crashed =>
          -- what is left of this part is missing, with all parts behind it
          refine ⟨accepted, left ++ bytesOf parts, ?_, ?_, ?_⟩
          · rw [hparts, hpart, List.append_assoc]
          · rw [print, hwrite]
            exact hdata
          · have hleft : left ≠ [] := fun hnil => by simpa using hends.mpr hnil
            rw [print, hwrite]
            simp [hleft]

theorem print_of_willing (parts : List String) :
    ∀ {sink : Sink}, sink.Willing → ∃ after, print sink parts = (.done (), after) := by
  induction parts with
  | nil => exact fun _ => ⟨_, rfl⟩
  | cons part parts ih =>
      intro sink hwilling
      obtain ⟨after, hwrite, -, hstill⟩ := sink.writeAll_of_willing (Bytes.ofText part) hwilling
      rw [print, hwrite]
      exact ih hstill

/-- The line is told as far as the standard error takes it. -/
theorem told_tell (stderr : Sink) (told : Nat × List String) :
    Told stderr.data told.1 (bytesOf told.2) (tell stderr told).1 (tell stderr told).2.data := by
  obtain ⟨shown, missing, hparts, hdata, hends⟩ := print_accepts told.2 stderr
  rcases hprint : print stderr told.2 with ⟨ending, after⟩
  rw [hprint] at hdata hends
  rw [tell, hprint]
  cases ending with
  | done =>
      obtain rfl : missing = [] := hends.mp rfl
      rw [hparts, List.append_nil, hdata]
      exact .whole
  | failed | crashed =>
      rw [hdata]
      exact .cut hparts fun hnil => by simpa using hends.mpr hnil

/-- A standard error that refuses nothing takes the line. -/
theorem tell_of_willing {stderr : Sink} (hwilling : stderr.Willing) (told : Nat × List String) :
    (tell stderr told).1 = told.1 ∧ (tell stderr told).2.data = stderr.data ++ bytesOf told.2 := by
  obtain ⟨shown, missing, hparts, hdata, hends⟩ := print_accepts told.2 stderr
  obtain ⟨after, hprint⟩ := print_of_willing told.2 hwilling
  rw [hprint] at hdata hends
  obtain rfl : missing = [] := hends.mp rfl
  rw [tell, hprint, hparts, List.append_nil]
  exact ⟨rfl, hdata⟩

/-! ## The end of a run -/

variable {session : SessionOutcome}

theorem finish_of_waiting (hwaits : session.result? = none) (id : String) :
    finish id session =
      { code := none
        stdout := written session.outputs.stdout
        stderr := written session.outputs.stderr
        received := session.received } := by
  simp only [finish, hwaits]

theorem finish_of_result {result : Except AttachError Unit}
    (hresult : session.result? = some result) (id : String) :
    finish id session =
      { code := some (tell (session.outputs.stderr.getD {}) (conclude id result)).1
        stdout := written session.outputs.stdout
        stderr := (tell (session.outputs.stderr.getD {}) (conclude id result)).2.data
        received := session.received } := by
  simp only [finish, hresult]

end Program

end ContainerAttach.CommandLine
