import ContainerAttach.Proofs.Session.Settling

/-!
# One completion for each task

Tasks report on a queue that they share, each through a reporter of its own and at
its own time.  A task that reports sends its completion and drops the reporter
after that; a task that is torn down drops the reporter without having sent
anything.  What the reporters do is cut into these uses here, and the uses of
different reporters come in any order (`Interleaves`).

However they come, each task leaves one completion: the one it reported, or the
one that says it was torn down.  The queue has them in the order of the uses that
count (`Desk.run_queue`), which are the first of each reporter.

With one task for the input and one for the output such a queue is enough to
settle a session.  The coordinator finds what it waits for, so it never comes to
the end of the queue, and it never takes the tasks for lost
(`reporters_report_once`).
-/

namespace ContainerAttach

/-! ## Uses of reporters -/

/-- What becomes of a task: it reports, or it is torn down before. -/
inductive Fate where
  | reports (completion : Completion)
  | tornDown

/-- One use of a reporter. -/
inductive ReporterUse where
  | send (completion : Completion)
  | drop

namespace Fate

/-- The uses of the task's reporter, in order. -/
def uses : Fate → List ReporterUse
  | .reports completion => [.send completion, .drop]
  | .tornDown => [.drop]

/-- The completion that the task leaves. -/
def completion (task : Task) : Fate → Completion
  | .reports completion => completion
  | .tornDown => .tornDown task

/-- A task reports nothing but its own end. -/
def Own (task : Task) (fate : Fate) : Prop :=
  ∀ completion, fate = .reports completion → completion.task = task

/-- The use says how the task ended: it reports, or it drops a reporter that was not used. -/
def isToldBy : Fate → ReporterUse → Bool
  | .reports _, .send _ => true
  | .tornDown, .drop => true
  | _, _ => false

theorem task_completion {task : Task} {fate : Fate} (hown : fate.Own task) :
    (fate.completion task).task = task := by
  cases fate with
  | reports completion => exact hown completion rfl
  | tornDown => cases task <;> rfl

/-- A task tells how it ended once. -/
theorem countP_isToldBy_uses (fate : Fate) : fate.uses.countP fate.isToldBy = 1 := by
  cases fate <;> rfl

end Fate

/-- Reporters that share a queue.  One that has been dropped is not there any more. -/
structure Desk (ι : Type) where
  reporters : ι → Option Reporter
  queue : List Completion := []

namespace Desk

variable {ι : Type} [DecidableEq ι]

/-- New reporters for some tasks. -/
def ofTasks (tasks : ι → Task) : Desk ι :=
  { reporters := fun owner => some { task := tasks owner } }

def put (desk : Desk ι) (owner : ι) (reporter : Option Reporter) (queue : List Completion) :
    Desk ι :=
  { reporters := fun other => if other = owner then reporter else desk.reporters other
    queue := queue }

/-- One use of the reporter of an owner. -/
def use (desk : Desk ι) (step : ι × ReporterUse) : Desk ι :=
  match desk.reporters step.1, step.2 with
  | none, _ => desk
  | some reporter, .send completion =>
    match reporter.send completion desk.queue with
    | (reporter, queue) => desk.put step.1 (some reporter) queue
  | some reporter, .drop => desk.put step.1 none (reporter.drop desk.queue)

def run (desk : Desk ι) (steps : List (ι × ReporterUse)) : Desk ι :=
  steps.foldl use desk

end Desk

/-! ## Interleavings -/

section Interleavings

variable {ι : Type} [DecidableEq ι]

/-- The uses of one reporter among those of all. -/
def usesOf (owner : ι) (steps : List (ι × ReporterUse)) : List ReporterUse :=
  (steps.filter fun step => step.1 = owner).map Prod.snd

/-- Each reporter is used as the fate of its task has it, and nothing is said of the order
between different reporters. -/
def Interleaves (fates : ι → Fate) (steps : List (ι × ReporterUse)) : Prop :=
  ∀ owner, usesOf owner steps = (fates owner).uses

/-- The owners in the order in which they reported, or dropped reporters that were not
used. -/
def reportOrder (fates : ι → Fate) (steps : List (ι × ReporterUse)) : List ι :=
  (steps.filter fun step => (fates step.1).isToldBy step.2).map Prod.fst

theorem usesOf_cons_self (owner : ι) (use : ReporterUse) (steps : List (ι × ReporterUse)) :
    usesOf owner ((owner, use) :: steps) = use :: usesOf owner steps := by
  simp [usesOf]

theorem usesOf_cons_of_ne {owner other : ι} (hother : other ≠ owner) (use : ReporterUse)
    (steps : List (ι × ReporterUse)) :
    usesOf other ((owner, use) :: steps) = usesOf other steps := by
  simp [usesOf, Ne.symm hother]

omit [DecidableEq ι] in
theorem reportOrder_cons_of_told {fates : ι → Fate} {owner : ι} {use : ReporterUse}
    (htold : (fates owner).isToldBy use = true) (steps : List (ι × ReporterUse)) :
    reportOrder fates ((owner, use) :: steps) = owner :: reportOrder fates steps := by
  simp [reportOrder, htold]

omit [DecidableEq ι] in
theorem reportOrder_cons_of_not_told {fates : ι → Fate} {owner : ι} {use : ReporterUse}
    (htold : (fates owner).isToldBy use = false) (steps : List (ι × ReporterUse)) :
    reportOrder fates ((owner, use) :: steps) = reportOrder fates steps := by
  simp [reportOrder, htold]

/-- An owner is in the order as often as its uses tell how its task ended. -/
theorem count_reportOrder (fates : ι → Fate) (steps : List (ι × ReporterUse)) (owner : ι) :
    (reportOrder fates steps).count owner =
      (usesOf owner steps).countP (fates owner).isToldBy := by
  induction steps with
  | nil => rfl
  | cons step steps ih =>
      obtain ⟨other, use⟩ := step
      by_cases howner : owner = other
      · subst howner
        rw [usesOf_cons_self]
        cases htold : (fates owner).isToldBy use with
        | true =>
            rw [reportOrder_cons_of_told htold, List.count_cons_self,
              List.countP_cons_of_pos htold, ih]
        | false =>
            rw [reportOrder_cons_of_not_told htold, List.countP_cons_of_neg (by simp [htold]), ih]
      · rw [usesOf_cons_of_ne howner]
        cases htold : (fates other).isToldBy use with
        | true =>
            rw [reportOrder_cons_of_told htold, List.count_cons_of_ne (Ne.symm howner), ih]
        | false => rw [reportOrder_cons_of_not_told htold, ih]

theorem Interleaves.count_reportOrder {fates : ι → Fate} {steps : List (ι × ReporterUse)}
    (hsteps : Interleaves fates steps) (owner : ι) :
    (reportOrder fates steps).count owner = 1 := by
  rw [ContainerAttach.count_reportOrder, hsteps owner]
  exact (fates owner).countP_isToldBy_uses

end Interleavings

/-! ## What is left on the queue -/

/-- How a reporter stands, and how it is still to be used. -/
inductive Standing (task : Task) (fate : Fate) : Option Reporter → List ReporterUse → Prop
  | fresh : Standing task fate (some { task := task, armed := true }) fate.uses
  | reported {completion : Completion} (fate_eq : fate = .reports completion) :
      Standing task fate (some { task := task, armed := false }) [.drop]
  | gone : Standing task fate none []

namespace Desk

variable {ι : Type} [DecidableEq ι] {desk : Desk ι} {tasks : ι → Task} {fates : ι → Fate}

theorem reporters_put_self (owner : ι) (reporter : Option Reporter) (queue : List Completion) :
    (desk.put owner reporter queue).reporters owner = reporter := by
  simp [put]

theorem reporters_put_of_ne {owner other : ι} (hother : other ≠ owner)
    (reporter : Option Reporter) (queue : List Completion) :
    (desk.put owner reporter queue).reporters other = desk.reporters other := by
  simp [put, hother]

/-- One use of a reporter in good standing: it stands well afterwards, and its task's
completion is on the queue if the use tells how the task ended. -/
theorem use_of_standing {owner : ι} {use : ReporterUse} {uses : List ReporterUse}
    (hstanding : Standing (tasks owner) (fates owner) (desk.reporters owner) (use :: uses)) :
    ∃ reporter, Standing (tasks owner) (fates owner) reporter uses ∧
      desk.use (owner, use) = desk.put owner reporter
        (desk.queue ++ if (fates owner).isToldBy use then
          [(fates owner).completion (tasks owner)] else []) := by
  generalize hreporter : desk.reporters owner = before at hstanding
  generalize huses : use :: uses = all at hstanding
  cases hstanding with
  | fresh =>
      cases hfate : fates owner with
      | reports completion =>
          rw [hfate] at huses
          obtain ⟨rfl, rfl⟩ := List.cons.inj huses
          refine ⟨_, .reported rfl, ?_⟩
          simp [Desk.use, hreporter, Reporter.send, Fate.isToldBy, Fate.completion]
      | tornDown =>
          rw [hfate] at huses
          obtain ⟨rfl, rfl⟩ := List.cons.inj huses
          refine ⟨_, .gone, ?_⟩
          simp [Desk.use, hreporter, Reporter.drop, Reporter.send, Fate.isToldBy, Fate.completion]
  | reported fate_eq =>
      obtain ⟨rfl, rfl⟩ := List.cons.inj huses
      refine ⟨_, .gone, ?_⟩
      simp [Desk.use, hreporter, Reporter.drop, Reporter.send, Fate.isToldBy, fate_eq]
  | gone => exact absurd huses (by simp)

/-- The queue gets the completions of the tasks, in the order in which they are told. -/
theorem run_queue_of_standing (steps : List (ι × ReporterUse)) :
    ∀ desk : Desk ι, (∀ owner,
        Standing (tasks owner) (fates owner) (desk.reporters owner) (usesOf owner steps)) →
      (desk.run steps).queue = desk.queue ++
        (reportOrder fates steps).map fun owner => (fates owner).completion (tasks owner) := by
  induction steps with
  | nil =>
      intro desk hstanding
      exact (List.append_nil _).symm
  | cons step steps ih =>
      intro desk hstanding
      obtain ⟨owner, use⟩ := step
      have howner := hstanding owner
      rw [usesOf_cons_self] at howner
      obtain ⟨reporter, hreporter, huse⟩ := use_of_standing howner
      have hrest := ih (desk.use (owner, use)) ?_
      · show ((desk.use (owner, use)).run steps).queue = _
        rw [hrest, huse]
        cases htold : (fates owner).isToldBy use with
        | true =>
            rw [reportOrder_cons_of_told htold]
            simp [put]
        | false =>
            rw [reportOrder_cons_of_not_told htold]
            simp [put]
      · -- the others have not been used
        intro other
        rw [huse]
        by_cases hother : other = owner
        · subst hother
          rwa [reporters_put_self]
        · have hsame := hstanding other
          rw [usesOf_cons_of_ne hother] at hsame
          rwa [reporters_put_of_ne hother]

/-- Each task leaves its completion on the queue, in the order in which they are told. -/
theorem run_queue (tasks : ι → Task) {fates : ι → Fate} {steps : List (ι × ReporterUse)}
    (hsteps : Interleaves fates steps) :
    ((ofTasks tasks).run steps).queue =
      (reportOrder fates steps).map fun owner => (fates owner).completion (tasks owner) := by
  have hstanding : ∀ owner, Standing (tasks owner) (fates owner)
      ((ofTasks tasks).reporters owner) (usesOf owner steps) := by
    intro owner
    rw [hsteps owner]
    exact .fresh
  exact run_queue_of_standing steps (ofTasks tasks) hstanding

end Desk

/-! ## Settling what the reporters leave -/

/-- Settling finds all that it needs on the queue: whatever is reported later is left, so
nobody waits for it. -/
def Suffices {σ : Type} (closeWrite : σ → Except SocketError Unit × σ) (policy : Policy)
    (socket : σ) (queue : List Completion) : Prop :=
  ∀ later, settle closeWrite policy socket (queue ++ later) =
    { settle closeWrite policy socket queue with
      left := (settle closeWrite policy socket queue).left ++ later }

/-- The completion tells of the error. -/
def Completion.Carries (error : AttachError) (completion : Completion) : Prop :=
  completion = .input (.error error) ∨ completion = .output (.error error)

theorem OnlyInput.not_output {queue : List Completion} (honly : OnlyInput queue)
    (result : Except AttachError Tally) : .output result ∉ queue := by
  intro hmem
  exact absurd (honly _ hmem) (by simp [Completion.task])

section Output

variable {σ : Type} (closeWrite : σ → Except SocketError Unit × σ) (policy : Policy) (socket : σ)
  {queue : List Completion} {relayed : Except AttachError Tally}

/-- A queue with the end of the output on it is enough. -/
theorem suffices_of_output (houtput : .output relayed ∈ queue) :
    Suffices closeWrite policy socket queue := by
  intro later
  cases queue with
  | nil => exact absurd houtput List.not_mem_nil
  | cons first rest =>
      cases hfirst : policy.onFirst (closeWrite socket).1 first with
      | settled result =>
          rw [List.cons_append, settle_of_settled hfirst, settle_of_settled hfirst]
      | awaitOutput otherwise =>
          rw [List.cons_append, settle_of_awaitOutput hfirst, settle_of_awaitOutput hfirst]
          rcases onlyInput_or_output rest with honly | ⟨skipped, result, left, honly, rfl⟩
          · -- only the output itself is settled without waiting
            rcases List.mem_cons.mp houtput with rfl | hmem
            · cases relayed <;> simp [Policy.onFirst] at hfirst
            · exact absurd hmem (honly.not_output relayed)
          · rw [List.append_assoc, awaitOutput_append honly, awaitOutput_append honly]
            cases result <;> rfl

/-- Where the output has ended, tasks are lost only if one of them says so. -/
theorem carries_of_taskLost (houtput : .output relayed ∈ queue)
    (hlost : (settle closeWrite policy socket queue).result = .error .taskLost) :
    ∃ completion ∈ queue, completion.Carries .taskLost := by
  have hsettles := settles_settle closeWrite policy socket queue
  rw [hlost] at hsettles
  generalize (settle closeWrite policy socket queue).left = left at hsettles
  generalize hresult : (Except.error AttachError.taskLost : Except AttachError Unit) = result
    at hsettles
  have hended : ∀ {ended : Except AttachError Nat},
      .error AttachError.taskLost = ended.map (fun _ => ()) → ended = .error .taskLost := by
    rintro (error | count) hmap
    · obtain rfl := Except.error.inj hmap
      rfl
    · exact absurd hmap (by simp [Except.map])
  cases hsettles with
  | lost => exact absurd houtput List.not_mem_nil
  | outputFailed error left =>
      obtain rfl := Except.error.inj hresult
      exact ⟨_, List.mem_cons_self, Or.inr rfl⟩
  | outputEnded => exact absurd hresult (by simp)
  | unclosed => exact absurd hresult (by simp)
  | stopped => exact absurd hresult (by simp)
  | detached => exact absurd hresult (by simp)
  | unwanted =>
      obtain rfl := hended hresult
      exact ⟨_, List.mem_cons_self, Or.inl rfl⟩
  | awaitedFailure error left =>
      obtain rfl := Except.error.inj hresult
      exact ⟨_, List.mem_cons_of_mem _ (List.mem_append_right _ List.mem_cons_self), Or.inr rfl⟩
  | awaitedEnd =>
      obtain rfl := hended hresult
      exact ⟨_, List.mem_cons_self, Or.inl rfl⟩
  | neverEnded awaits only_input =>
      rcases List.mem_cons.mp houtput with houtput | hmem
      · exact absurd houtput (by simp)
      · exact absurd hmem (only_input.not_output relayed)

end Output

/-- Of two tasks of which each is told once, one is told first and the other second. -/
theorem eq_pair_of_count {order : List Task} (hcount : ∀ task, order.count task = 1) :
    ∃ first second, first ≠ second ∧ order = [first, second] := by
  have hperm : order.Perm [.input, .output] := by
    rw [List.perm_iff_count]
    intro task
    rw [hcount task]
    cases task <;> rfl
  match order, hperm.length_eq with
  | [first, second], _ =>
    refine ⟨first, second, ?_, rfl⟩
    rintro rfl
    have := hcount first
    simp at this

/-- A completion that was not reported says that its task was torn down. -/
theorem Fate.reports_of_carries {task : Task} {fate : Fate}
    (hcarries : (fate.completion task).Carries .taskLost) :
    ∃ completion, fate = .reports completion ∧ completion.Carries .taskLost := by
  cases fate with
  | reports completion => exact ⟨completion, rfl, hcarries⟩
  | tornDown =>
      cases task <;> simp [completion, Completion.tornDown, Completion.Carries] at hcarries

/-- **Each task leaves one completion, and the session is settled by them.**  Any number of
reporters leave one completion each, in the order in which they report or are dropped
unused.  If there is one for the input and one for the output, what they leave settles a
session without anything else being waited for, with one close, and no task is lost. -/
theorem reporters_report_once :
    (∀ (ι : Type) [DecidableEq ι] (tasks : ι → Task) (fates : ι → Fate)
        (steps : List (ι × ReporterUse)), Interleaves fates steps →
      ((Desk.ofTasks tasks).run steps).queue =
          (reportOrder fates steps).map (fun owner => (fates owner).completion (tasks owner)) ∧
        ∀ owner, (reportOrder fates steps).count owner = 1) ∧
    (∀ (fates : Task → Fate) (steps : List (Task × ReporterUse)), Interleaves fates steps →
      (∀ task, (fates task).Own task) →
        (∃ first second, first ≠ second ∧ reportOrder fates steps = [first, second] ∧
          ((Desk.ofTasks id).run steps).queue =
            [(fates first).completion first, (fates second).completion second] ∧
          ((Desk.ofTasks id).run steps).queue.map Completion.task = [first, second]) ∧
        ∀ (σ : Type) (closeWrite : σ → Except SocketError Unit × σ) (policy : Policy) (socket : σ),
          Suffices closeWrite policy socket ((Desk.ofTasks id).run steps).queue ∧
          (settle (recording closeWrite) policy (socket, [])
            ((Desk.ofTasks id).run steps).queue).socket.2 = [(closeWrite socket).1] ∧
          ((settle closeWrite policy socket ((Desk.ofTasks id).run steps).queue).result =
              .error .taskLost →
            ∃ task completion, fates task = .reports completion ∧
              completion.Carries .taskLost)) := by
  refine ⟨?_, ?_⟩
  · intro ι _ tasks fates steps hsteps
    exact ⟨Desk.run_queue tasks hsteps, hsteps.count_reportOrder⟩
  · intro fates steps hsteps hown
    obtain ⟨first, second, hne, horder⟩ := eq_pair_of_count hsteps.count_reportOrder
    have hqueue : ((Desk.ofTasks id).run steps).queue =
        [(fates first).completion first, (fates second).completion second] := by
      rw [Desk.run_queue id hsteps, horder]
      rfl
    have htasks : ((Desk.ofTasks id).run steps).queue.map Completion.task = [first, second] := by
      rw [hqueue]
      simp [Fate.task_completion (hown _)]
    refine ⟨⟨first, second, hne, horder, hqueue, htasks⟩, ?_⟩
    intro σ closeWrite policy socket
    -- one of the two tasks is the output
    have houtput : ∃ relayed, .output relayed ∈ ((Desk.ofTasks id).run steps).queue := by
      have hmem : Task.output ∈ ((Desk.ofTasks id).run steps).queue.map Completion.task := by
        rw [htasks]
        cases first <;> cases second <;> simp at hne ⊢
      obtain ⟨completion, hcompletion, htask⟩ := List.mem_map.mp hmem
      cases completion with
      | input ended => exact absurd htask (by simp [Completion.task])
      | output relayed => exact ⟨relayed, hcompletion⟩
    obtain ⟨relayed, hrelayed⟩ := houtput
    refine ⟨suffices_of_output closeWrite policy socket hrelayed,
      answers_of_ne_nil closeWrite policy socket (List.ne_nil_of_mem hrelayed), ?_⟩
    intro hlost
    obtain ⟨completion, hmem, hcarries⟩ :=
      carries_of_taskLost closeWrite policy socket hrelayed hlost
    rw [hqueue] at hmem
    rcases List.mem_cons.mp hmem with rfl | hmem
    · obtain ⟨reported, hfate, hreported⟩ := Fate.reports_of_carries hcarries
      exact ⟨first, reported, hfate, hreported⟩
    · obtain rfl := List.mem_singleton.mp hmem
      obtain ⟨reported, hfate, hreported⟩ := Fate.reports_of_carries hcarries
      exact ⟨second, reported, hfate, hreported⟩

/-- The input reports while the output is torn down: the coordinator finds both on the queue,
and does not wait for more, even with a socket that cannot be closed. -/
theorem reporters_report_once_tornDown :
    let fates : Task → Fate
      | .input => .reports (.input (.ok 3))
      | .output => .tornDown
    let steps : List (Task × ReporterUse) :=
      [(.input, .send (.input (.ok 3))), (.output, .drop), (.input, .drop)]
    let queue : List Completion :=
      [.input (.ok 3), .output (.error (.taskTornDown Task.output.name))]
    let closeWrite : Unit → Except SocketError Unit × Unit :=
      fun _ => (.error (.closeWrite (.os 32)), ())
    Interleaves fates steps ∧ (∀ task, (fates task).Own task) ∧
      ((Desk.ofTasks id).run steps).queue = queue ∧
      Suffices closeWrite { stdinConfigured := true, outputConfigured := true } () queue := by
  intro fates steps queue closeWrite
  have hsteps : Interleaves fates steps := by
    intro owner
    cases owner <;> rfl
  have hown : ∀ task, (fates task).Own task := by
    intro task completion hreports
    cases task with
    | input =>
        obtain rfl := Fate.reports.inj hreports
        rfl
    | output => exact absurd hreports (by simp [fates])
  have honce := reporters_report_once.2 fates steps hsteps hown
  obtain ⟨⟨first, second, -, horder, hqueue, -⟩, hsettle⟩ := honce
  have hfirst : [first, second] = [.input, .output] := horder.symm
  obtain ⟨rfl, hsecond⟩ := List.cons.inj hfirst
  obtain rfl := List.singleton_inj.mp hsecond
  have hsuffices := (hsettle Unit closeWrite
    { stdinConfigured := true, outputConfigured := true } ()).1
  rw [hqueue] at hsuffices
  exact ⟨hsteps, hown, hqueue, hsuffices⟩

end ContainerAttach
