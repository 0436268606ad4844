import ContainerAttach.Proofs.Session.Settling

/-!
# An input that failed

A session that goes on after its input has ended does not lose the error in which the input
ended.  The error is the result of the session, unless the session waits for its output and that
fails in its turn or never reports (`Policy.Surfaces`).  Nothing takes the place of a detach.

A session that ends with its input is settled before anyone looks at how the input ended.  To it
an input that failed, or in which the detach keys were typed, is as good as one that was read to
its end: the session is a success (`settle_of_input_error`).
-/

namespace ContainerAttach

/-- The errors in which a session can end after its input has failed, with the given completions
behind that of the input. -/
inductive Policy.Surfaces (policy : Policy) (failure : AttachError) (rest : List Completion) :
    AttachError → Prop
  | itself : policy.Surfaces failure rest failure
  | outputFailed {skipped left : List Completion} {error : AttachError}
      (awaits : policy.Awaits (.error failure)) (only_input : OnlyInput skipped)
      (rest_eq : rest = skipped ++ .output (.error error) :: left) :
      policy.Surfaces failure rest error
  | lost (awaits : policy.Awaits (.error failure)) (only_input : OnlyInput rest) :
      policy.Surfaces failure rest .taskLost

namespace Policy

variable {policy : Policy} {failure error : AttachError} {rest : List Completion}

/-- Nothing takes the place of a detach. -/
theorem Surfaces.eq_detached (hsurfaces : policy.Surfaces .detached rest error) :
    error = .detached := by
  cases hsurfaces with
  | itself => rfl
  | outputFailed awaits => exact absurd rfl awaits.not_detached
  | lost awaits => exact absurd rfl awaits.not_detached

/-- Without an output to wait for the error is the input's own. -/
theorem Surfaces.eq_of_unwanted (hsurfaces : policy.Surfaces failure rest error)
    (hunwanted : policy.outputConfigured = false) : error = failure := by
  cases hsurfaces with
  | itself => rfl
  | outputFailed awaits => exact absurd awaits.wanted (by simp [hunwanted])
  | lost awaits => exact absurd awaits.wanted (by simp [hunwanted])

end Policy

/-- However a session is settled that goes on after its input has failed, it ends in an error. -/
theorem Settles.surfaces {policy : Policy} {closed : Except SocketError Unit}
    {failure : AttachError} {rest left : List Completion} {result : Except AttachError Unit}
    (hsettles : Settles policy closed (.input (.error failure) :: rest) result left)
    (hgoes : ¬ policy.StopsWithInput) :
    ∃ error, result = .error error ∧ policy.Surfaces failure rest error := by
  cases hsettles with
  | stopped ended left stops => exact absurd stops hgoes
  | detached left goes_on => exact ⟨_, rfl, .itself⟩
  | unwanted left goes_on not_detached unwanted => exact ⟨_, rfl, .itself⟩
  | awaitedFailure error left awaits only_input =>
      exact ⟨_, rfl, .outputFailed awaits only_input rfl⟩
  | awaitedEnd tally left awaits only_input => exact ⟨_, rfl, .itself⟩
  | neverEnded awaits only_input => exact ⟨_, rfl, .lost awaits only_input⟩

/-- **What becomes of a session whose input failed first.**  It is a success if and only if the
session ends with its input, however the socket was closed and whatever else was reported.
Otherwise it ends in an error, in the input's own or in one that the output puts before it, and
in a detach if the input was detached. -/
theorem settle_of_input_error {σ : Type} (closeWrite : σ → Except SocketError Unit × σ)
    (policy : Policy) (socket : σ) (failure : AttachError) (rest : List Completion) :
    ((settle closeWrite policy socket (.input (.error failure) :: rest)).result = .ok () ↔
      policy.StopsWithInput) ∧
    (¬ policy.StopsWithInput →
      ∃ error,
        (settle closeWrite policy socket (.input (.error failure) :: rest)).result =
          .error error ∧
        policy.Surfaces failure rest error ∧ (failure = .detached → error = .detached) ∧
        (policy.outputConfigured = false → error = failure)) := by
  have hsettles := settles_settle closeWrite policy socket (.input (.error failure) :: rest)
  by_cases hstops : policy.StopsWithInput
  · have hresult : (settle closeWrite policy socket (.input (.error failure) :: rest)).result =
        .ok () := by
      rw [settle_of_settled (policy.onFirst_of_stops _ hstops (.error failure))]
    exact ⟨⟨fun _ => hstops, fun _ => hresult⟩, fun hgoes => absurd hstops hgoes⟩
  · obtain ⟨error, hresult, hsurfaces⟩ := hsettles.surfaces hstops
    refine ⟨⟨fun hok => ?_, fun hgoes => absurd hgoes hstops⟩, fun _ =>
      ⟨error, hresult, hsurfaces, ?_, hsurfaces.eq_of_unwanted⟩⟩
    · rw [hresult] at hok
      exact nomatch hok
    · rintro rfl
      exact hsurfaces.eq_detached

/-- The detach keys are typed.  A session that waits for its output tells so, and one that stops at
the end of its input reports a success. -/
theorem settle_of_input_error_detached :
    let closeWrite : Unit → Except SocketError Unit × Unit := fun _ => (.ok (), ())
    let waiting : Policy := { stdinConfigured := true, outputConfigured := true }
    let stopping : Policy := { waiting with stopAfterStdinEof := true }
    ¬ waiting.StopsWithInput ∧
      (settle closeWrite waiting () [.input (.error .detached)]).result = .error .detached ∧
      stopping.StopsWithInput ∧
      (settle closeWrite stopping () [.input (.error .detached)]).result = .ok () := by
  intro closeWrite waiting stopping
  have hwaiting : ¬ waiting.StopsWithInput := by simp [Policy.StopsWithInput, waiting]
  have hstopping : stopping.StopsWithInput := ⟨rfl, rfl⟩
  obtain ⟨error, hresult, -, hdetached, -⟩ :=
    (settle_of_input_error closeWrite waiting () .detached []).2 hwaiting
  exact ⟨hwaiting, hdetached rfl ▸ hresult, hstopping,
    (settle_of_input_error closeWrite stopping () .detached []).1.mpr hstopping⟩

end ContainerAttach
