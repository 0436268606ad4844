import ContainerAttach.Session.Settlement

/-!
# What settles a session

The rules by which completions settle a session are written out as the relation
`Settles`, one rule for each way in which a session can end.  The relation says
nothing of the order in which the queue is looked at: a session that awaits its
output is settled by the first completion of the output, wherever that is in the
queue, and it leaves what comes after it.

Settling finds exactly the result that the rules give, and leaves exactly the
completions that they leave (`settle_law`).  The write direction of the socket
is closed once if there is a first completion, and not at all if there is none;
`recording` keeps the answers of the closer to count them.
-/

namespace ContainerAttach

/-! ## Rules -/

/-- The session ends with its input. -/
def Policy.StopsWithInput (policy : Policy) : Prop :=
  policy.stopAfterStdinEof = true ∧ policy.stdinConfigured = true

/-- The session goes on after its input has ended in the given way. -/
structure Policy.Awaits (policy : Policy) (ended : Except AttachError Nat) : Prop where
  goes_on : ¬ policy.StopsWithInput
  not_detached : ended ≠ .error .detached
  wanted : policy.outputConfigured = true

/-- The output is not among the completions. -/
def OnlyInput (queue : List Completion) : Prop :=
  ∀ completion ∈ queue, completion.task = .input

/-- The queue settles the session with the result, and the last completions are left.
Closing the write direction of the socket went as given. -/
inductive Settles (policy : Policy) (closed : Except SocketError Unit) :
    List Completion → Except AttachError Unit → List Completion → Prop
  | lost : Settles policy closed [] (.error .taskLost) []
  | outputFailed (error : AttachError) (left : List Completion) :
      Settles policy closed (.output (.error error) :: left) (.error error) left
  | outputEnded (tally : Tally) (left : List Completion) (closed_eq : closed = .ok ()) :
      Settles policy closed (.output (.ok tally) :: left) (.ok ()) left
  | unclosed (tally : Tally) (left : List Completion) {cause : SocketError}
      (closed_eq : closed = .error cause) :
      Settles policy closed (.output (.ok tally) :: left) (.error (.closeWrite cause)) left
  | stopped (ended : Except AttachError Nat) (left : List Completion)
      (stops : policy.StopsWithInput) :
      Settles policy closed (.input ended :: left) (.ok ()) left
  | detached (left : List Completion) (goes_on : ¬ policy.StopsWithInput) :
      Settles policy closed (.input (.error .detached) :: left) (.error .detached) left
  | unwanted {ended : Except AttachError Nat} (left : List Completion)
      (goes_on : ¬ policy.StopsWithInput) (not_detached : ended ≠ .error .detached)
      (unwanted : policy.outputConfigured = false) :
      Settles policy closed (.input ended :: left) (ended.map fun _ => ()) left
  | awaitedFailure {ended : Except AttachError Nat} {skipped : List Completion}
      (error : AttachError) (left : List Completion) (awaits : policy.Awaits ended)
      (only_input : OnlyInput skipped) :
      Settles policy closed (.input ended :: (skipped ++ .output (.error error) :: left))
        (.error error) left
  | awaitedEnd {ended : Except AttachError Nat} {skipped : List Completion} (tally : Tally)
      (left : List Completion) (awaits : policy.Awaits ended) (only_input : OnlyInput skipped) :
      Settles policy closed (.input ended :: (skipped ++ .output (.ok tally) :: left))
        (ended.map fun _ => ()) left
  | neverEnded {ended : Except AttachError Nat} {skipped : List Completion}
      (awaits : policy.Awaits ended) (only_input : OnlyInput skipped) :
      Settles policy closed (.input ended :: skipped) (.error .taskLost) []

/-! ## Waiting for the output -/

theorem OnlyInput.tail {first : Completion} {queue : List Completion}
    (honly : OnlyInput (first :: queue)) : OnlyInput queue :=
  fun completion hmem => honly completion (List.mem_cons_of_mem first hmem)

theorem Completion.settle?_of_input {completion : Completion} (htask : completion.task = .input)
    (otherwise : Except AttachError Unit) : completion.settle? otherwise = none := by
  cases completion with
  | input result => rfl
  | output result => exact absurd htask (by simp [task])

/-- What the input has put in front of a queue is passed over. -/
theorem awaitOutput_append {skipped : List Completion} (honly : OnlyInput skipped)
    (otherwise : Except AttachError Unit) (queue : List Completion) :
    awaitOutput otherwise (skipped ++ queue) = awaitOutput otherwise queue := by
  induction skipped with
  | nil => rfl
  | cons first skipped ih =>
      rw [List.cons_append, awaitOutput,
        Completion.settle?_of_input (honly first List.mem_cons_self)]
      exact ih honly.tail

theorem awaitOutput_of_onlyInput {queue : List Completion} (honly : OnlyInput queue)
    (otherwise : Except AttachError Unit) :
    awaitOutput otherwise queue = (.error .taskLost, []) := by
  rw [← List.append_nil queue, awaitOutput_append honly]
  rfl

/-- The output is in the queue for the first time somewhere, or nowhere. -/
theorem onlyInput_or_output (queue : List Completion) :
    OnlyInput queue ∨ ∃ skipped result left, OnlyInput skipped ∧
      queue = skipped ++ .output result :: left := by
  induction queue with
  | nil => exact Or.inl (by simp [OnlyInput])
  | cons first queue ih =>
      cases first with
      | output result => exact Or.inr ⟨[], result, queue, by simp [OnlyInput], rfl⟩
      | input ended =>
          have hcons : ∀ {inputs : List Completion}, OnlyInput inputs →
              OnlyInput (.input ended :: inputs) := by
            intro inputs honly completion hmem
            rcases List.mem_cons.mp hmem with rfl | hmem
            · rfl
            · exact honly completion hmem
          rcases ih with honly | ⟨skipped, result, left, honly, rfl⟩
          · exact Or.inl (hcons honly)
          · exact Or.inr ⟨.input ended :: skipped, result, left, hcons honly, rfl⟩

/-! ## The first completion -/

namespace Policy

variable {policy : Policy} (closed : Except SocketError Unit)

theorem onFirst_of_stops (hstops : policy.StopsWithInput) (ended : Except AttachError Nat) :
    policy.onFirst closed (.input ended) = .settled (.ok ()) := by
  unfold onFirst
  exact if_pos (by simpa [StopsWithInput] using hstops)

theorem onFirst_detached (hgoes : ¬ policy.StopsWithInput) :
    policy.onFirst closed (.input (.error .detached)) = .settled (.error .detached) := by
  rw [onFirst, if_neg (by simpa [StopsWithInput] using hgoes)]

theorem onFirst_of_goes_on (hgoes : ¬ policy.StopsWithInput) {ended : Except AttachError Nat}
    (hended : ended ≠ .error .detached) :
    policy.onFirst closed (.input ended) =
      if policy.outputConfigured then .awaitOutput (ended.map fun _ => ())
      else .settled (ended.map fun _ => ()) := by
  rw [onFirst, if_neg (by simpa [StopsWithInput] using hgoes)]
  exact hended

theorem Awaits.onFirst {ended : Except AttachError Nat} (hawaits : policy.Awaits ended) :
    policy.onFirst closed (.input ended) = .awaitOutput (ended.map fun _ => ()) := by
  rw [onFirst_of_goes_on closed hawaits.goes_on hawaits.not_detached, if_pos hawaits.wanted]

end Policy

/-! ## Settling -/

section Settle

variable {σ : Type} {closeWrite : σ → Except SocketError Unit × σ} {policy : Policy}
  {socket : σ} {first : Completion} {rest : List Completion}

theorem settle_of_settled {result : Except AttachError Unit}
    (hfirst : policy.onFirst (closeWrite socket).1 first = .settled result) :
    settle closeWrite policy socket (first :: rest) = ⟨result, (closeWrite socket).2, rest⟩ := by
  simp only [settle, hfirst]

theorem settle_of_awaitOutput {otherwise : Except AttachError Unit}
    (hfirst : policy.onFirst (closeWrite socket).1 first = .awaitOutput otherwise) :
    settle closeWrite policy socket (first :: rest) =
      ⟨(awaitOutput otherwise rest).1, (closeWrite socket).2, (awaitOutput otherwise rest).2⟩ := by
  simp only [settle, hfirst]

theorem settles_settle (closeWrite : σ → Except SocketError Unit × σ) (policy : Policy)
    (socket : σ) (queue : List Completion) :
    Settles policy (closeWrite socket).1 queue (settle closeWrite policy socket queue).result
      (settle closeWrite policy socket queue).left := by
  cases queue with
  | nil => exact .lost
  | cons first rest =>
      cases first with
      | output result =>
          cases result with
          | error error =>
              rw [settle_of_settled rfl]
              exact .outputFailed error rest
          | ok tally =>
              rw [settle_of_settled rfl]
              cases hclosed : (closeWrite socket).1 with
              | ok => exact .outputEnded tally rest rfl
              | error cause => exact .unclosed tally rest rfl
      | input ended =>
          by_cases hstops : policy.StopsWithInput
          · rw [settle_of_settled (policy.onFirst_of_stops _ hstops ended)]
            exact .stopped ended rest hstops
          · by_cases hdetached : ended = .error .detached
            · subst hdetached
              rw [settle_of_settled (Policy.onFirst_detached _ hstops)]
              exact .detached rest hstops
            · cases hwanted : policy.outputConfigured with
              | false =>
                  have hfirst := Policy.onFirst_of_goes_on (closeWrite socket).1 hstops hdetached
                  rw [if_neg (by simp [hwanted])] at hfirst
                  rw [settle_of_settled hfirst]
                  exact .unwanted rest hstops hdetached hwanted
              | true =>
                  -- only here the rest of the queue is looked at
                  have hawaits : policy.Awaits ended := ⟨hstops, hdetached, hwanted⟩
                  rw [settle_of_awaitOutput (hawaits.onFirst _)]
                  rcases onlyInput_or_output rest with honly | ⟨skipped, result, left, honly, rfl⟩
                  · rw [awaitOutput_of_onlyInput honly]
                    exact .neverEnded hawaits honly
                  · rw [awaitOutput_append honly]
                    cases result with
                    | error error => exact .awaitedFailure error left hawaits honly
                    | ok tally => exact .awaitedEnd tally left hawaits honly

theorem Settles.settle_eq {queue left : List Completion} {result : Except AttachError Unit}
    (hsettles : Settles policy (closeWrite socket).1 queue result left) :
    (settle closeWrite policy socket queue).result = result ∧
      (settle closeWrite policy socket queue).left = left := by
  cases hsettles with
  | lost => exact ⟨rfl, rfl⟩
  | outputFailed error left =>
      rw [settle_of_settled rfl]
      exact ⟨rfl, rfl⟩
  | outputEnded tally left closed_eq =>
      rw [settle_of_settled rfl, closed_eq]
      exact ⟨rfl, rfl⟩
  | unclosed tally left closed_eq =>
      rw [settle_of_settled rfl, closed_eq]
      exact ⟨rfl, rfl⟩
  | stopped ended left stops =>
      rw [settle_of_settled (policy.onFirst_of_stops _ stops ended)]
      exact ⟨rfl, rfl⟩
  | detached left goes_on =>
      rw [settle_of_settled (Policy.onFirst_detached _ goes_on)]
      exact ⟨rfl, rfl⟩
  | unwanted left goes_on not_detached unwanted =>
      have hfirst := Policy.onFirst_of_goes_on (closeWrite socket).1 goes_on not_detached
      rw [if_neg (by simp [unwanted])] at hfirst
      rw [settle_of_settled hfirst]
      exact ⟨rfl, rfl⟩
  | awaitedFailure error left awaits only_input =>
      rw [settle_of_awaitOutput (awaits.onFirst _), awaitOutput_append only_input]
      exact ⟨rfl, rfl⟩
  | awaitedEnd tally left awaits only_input =>
      rw [settle_of_awaitOutput (awaits.onFirst _), awaitOutput_append only_input]
      exact ⟨rfl, rfl⟩
  | neverEnded awaits only_input =>
      rw [settle_of_awaitOutput (awaits.onFirst _), awaitOutput_of_onlyInput only_input]
      exact ⟨rfl, rfl⟩

end Settle

/-! ## Closing the write direction -/

/-- A closer that also keeps its answers. -/
def recording {σ : Type} (closeWrite : σ → Except SocketError Unit × σ)
    (state : σ × List (Except SocketError Unit)) :
    Except SocketError Unit × σ × List (Except SocketError Unit) :=
  match closeWrite state.1 with
  | (closed, socket) => (closed, socket, state.2 ++ [closed])

/-- The socket is closed once, if there is a first completion to close it on. -/
theorem settle_socket {σ : Type} (closeWrite : σ → Except SocketError Unit × σ)
    (policy : Policy) (socket : σ) (queue : List Completion) :
    (settle closeWrite policy socket queue).socket =
      if queue.isEmpty then socket else (closeWrite socket).2 := by
  cases queue with
  | nil => rfl
  | cons first rest =>
      cases hfirst : policy.onFirst (closeWrite socket).1 first with
      | settled result =>
          rw [settle_of_settled hfirst]
          rfl
      | awaitOutput otherwise =>
          rw [settle_of_awaitOutput hfirst]
          rfl

/-- The answers are kept of one close or of none, and keeping them changes nothing else. -/
theorem settle_recording {σ : Type} (closeWrite : σ → Except SocketError Unit × σ)
    (policy : Policy) (socket : σ) (answers : List (Except SocketError Unit))
    (queue : List Completion) :
    settle (recording closeWrite) policy (socket, answers) queue =
      { result := (settle closeWrite policy socket queue).result
        socket := ((settle closeWrite policy socket queue).socket,
          answers ++ if queue.isEmpty then [] else [(closeWrite socket).1])
        left := (settle closeWrite policy socket queue).left } := by
  have hsocket := settle_socket (recording closeWrite) policy (socket, answers) queue
  rcases hrecorded : settle (recording closeWrite) policy (socket, answers) queue with
    ⟨result, last, left⟩
  -- the recording closer gives the same answer, so the same rule applies
  have hanswer : (recording closeWrite (socket, answers)).1 = (closeWrite socket).1 := rfl
  have hsettles := settles_settle closeWrite policy socket queue
  rw [← hanswer] at hsettles
  have hsettle := hsettles.settle_eq
  rw [hrecorded] at hsettle hsocket
  obtain ⟨rfl, rfl⟩ := hsettle
  rw [settle_socket closeWrite policy socket queue, show last = _ from hsocket]
  cases queue with
  | nil => simp
  | cons first rest => rfl

/-- One close has been answered if there is a first completion. -/
theorem answers_of_ne_nil {σ : Type} (closeWrite : σ → Except SocketError Unit × σ)
    (policy : Policy) (socket : σ) {queue : List Completion} (hqueue : queue ≠ []) :
    (settle (recording closeWrite) policy (socket, []) queue).socket.2 =
      [(closeWrite socket).1] := by
  rw [settle_recording]
  simp [hqueue]

/-- **What settles a session.**  Its result and the completions that are left are those
that the rules give.  The write direction is closed once if there is a completion and not at
all if there is none, whatever the answer. -/
theorem settle_law {σ : Type} (closeWrite : σ → Except SocketError Unit × σ) (policy : Policy)
    (socket : σ) (queue : List Completion) :
    (∀ result left, Settles policy (closeWrite socket).1 queue result left ↔
      (settle closeWrite policy socket queue).result = result ∧
        (settle closeWrite policy socket queue).left = left) ∧
    (settle closeWrite policy socket queue).socket =
      (if queue.isEmpty then socket else (closeWrite socket).2) ∧
    settle (recording closeWrite) policy (socket, []) queue =
      { result := (settle closeWrite policy socket queue).result
        socket := ((settle closeWrite policy socket queue).socket,
          if queue.isEmpty then [] else [(closeWrite socket).1])
        left := (settle closeWrite policy socket queue).left } := by
  refine ⟨?_, settle_socket closeWrite policy socket queue,
    settle_recording closeWrite policy socket [] queue⟩
  intro result left
  refine ⟨Settles.settle_eq, ?_⟩
  rintro ⟨rfl, rfl⟩
  exact settles_settle closeWrite policy socket queue

end ContainerAttach
