import ContainerAttach.Control.Resize

/-!
# A notifier that waits for sizes

`ResizeLog.ofSizes` is told all sizes at once.  Here they come one at a time: somebody sends them
and closes the channel at some time, and the notifier takes the next one whenever it has the turn.
It waits while there is none, and ends when there is none and the channel is closed.

The sizes that the notifier has taken and those that are queued are all that were sent, in their
order, and its log is that of the ones taken (`Notifying.Takes`).  So the log of a notifier that
has ended is that of all sizes.  Which requests fail decides the number of failures and nothing
else (`Notifying.Alike`); for the rest, two notifiers do the same at every turn.
-/

namespace ContainerAttach

/-! ## Totals -/

/-- What a notifier tells at its end. -/
structure ResizeTotals where
  events : Nat
  failures : Nat
  deriving DecidableEq, Repr

namespace ResizeLog

def totals (log : ResizeLog) : ResizeTotals :=
  ⟨log.events, log.failures⟩

end ResizeLog

/-- The totals of the first so many requests. -/
def ResizeTotals.ofCount (fails : Nat → Bool) (count : Nat) : ResizeTotals :=
  ⟨count, (List.range count).countP fails⟩

/-- One event more, and one failure more if its request fails. -/
theorem ResizeTotals.ofCount_succ (fails : Nat → Bool) (count : Nat) :
    ofCount fails (count + 1) =
      ⟨count + 1, (ofCount fails count).failures + if fails count then 1 else 0⟩ := by
  simp only [ofCount, List.range_succ, List.countP_append, List.countP_singleton]

theorem ResizeLog.totals_notify {id : String} {fails : Nat → Bool} {log : ResizeLog}
    (hlog : log.totals = .ofCount fails log.requests.length) (size : TerminalSize) :
    (log.notify id fails size).totals = .ofCount fails (log.requests.length + 1) := by
  obtain ⟨hevents, hfailures⟩ := ResizeTotals.mk.inj hlog
  rw [ResizeTotals.ofCount_succ, totals, notify, hevents]
  congr 1
  rw [hfailures]
  split <;> rfl

/-! ## Turns -/

/-- A notifier at work. -/
structure Notifying where
  /-- The sizes that were sent and that it has not taken yet, oldest first. -/
  queued : List TerminalSize := []
  /-- Nobody is left who could send one. -/
  closed : Bool := false
  log : ResizeLog := {}
  /-- The totals that it has told at its end. -/
  told : Option ResizeTotals := none
  deriving DecidableEq, Repr

inductive NotifyingTurn where
  | sends (size : TerminalSize)
  /-- The last sender goes away. -/
  | closes
  | notifies
  deriving DecidableEq, Repr

/-- The sizes that are sent as long as there is a sender. -/
def sizesSent : List NotifyingTurn → List TerminalSize
  | [] => []
  | .sends size :: turns => size :: sizesSent turns
  | .closes :: _ => []
  | .notifies :: turns => sizesSent turns

namespace Notifying

variable {id : String} {fails : Nat → Bool} {state : Notifying}

/-- The notifier has the turn. -/
def act (id : String) (fails : Nat → Bool) (state : Notifying) : Notifying :=
  match state.told, state.queued with
  | some _, _ => state
  | none, size :: queued => { state with queued, log := state.log.notify id fails size }
  | none, [] => if state.closed then { state with told := some state.log.totals } else state

/-- A size is put behind the others.  Nobody can send one when nobody is left. -/
def send (state : Notifying) (size : TerminalSize) : Notifying :=
  if state.closed then state else { state with queued := state.queued ++ [size] }

def turn (id : String) (fails : Nat → Bool) (state : Notifying) : NotifyingTurn → Notifying
  | .sends size => state.send size
  | .closes => { state with closed := true }
  | .notifies => state.act id fails

def follow (id : String) (fails : Nat → Bool) (state : Notifying) (turns : List NotifyingTurn) :
    Notifying :=
  turns.foldl (turn id fails) state

/-- What has become of a new notifier. -/
def after (id : String) (fails : Nat → Bool) (turns : List NotifyingTurn) : Notifying :=
  follow id fails {} turns

theorem after_append (turns more : List NotifyingTurn) :
    after id fails (turns ++ more) = (after id fails turns).follow id fails more :=
  List.foldl_append

theorem send_of_closed (hclosed : state.closed = true) (size : TerminalSize) :
    state.send size = state :=
  if_pos hclosed

theorem send_of_open (hopen : state.closed = false) (size : TerminalSize) :
    state.send size = { state with queued := state.queued ++ [size] } :=
  if_neg (by simp [hopen])

@[simp] theorem closed_send (state : Notifying) (size : TerminalSize) :
    (state.send size).closed = state.closed := by
  unfold send
  split <;> rfl

@[simp] theorem log_send (state : Notifying) (size : TerminalSize) :
    (state.send size).log = state.log := by
  unfold send
  split <;> rfl

/-! ### What the notifier can do -/

/-- The notifier has ended, or takes a size, or ends, or waits. -/
inductive Acts (id : String) (fails : Nat → Bool) (state : Notifying) : Notifying → Prop
  | settled (told : state.told ≠ none) : Acts id fails state state
  | takes {size : TerminalSize} {queued : List TerminalSize} (not_told : state.told = none)
      (queued_eq : state.queued = size :: queued) :
      Acts id fails state { state with queued, log := state.log.notify id fails size }
  | ends (not_told : state.told = none) (nothing_queued : state.queued = [])
      (is_closed : state.closed = true) :
      Acts id fails state { state with told := some state.log.totals }
  | waits (not_told : state.told = none) (nothing_queued : state.queued = [])
      (not_closed : state.closed = false) : Acts id fails state state

theorem act_acts (id : String) (fails : Nat → Bool) (state : Notifying) :
    Acts id fails state (state.act id fails) := by
  unfold act
  split
  · next totals htold => exact .settled (by rw [htold]; exact Option.some_ne_none totals)
  · next size queued htold hqueued => exact .takes htold hqueued
  · next htold hqueued =>
    split
    · next hclosed => exact .ends htold hqueued hclosed
    · next hclosed => exact .waits htold hqueued (by simpa using hclosed)

/-! ## What has been taken -/

/-- The sizes are those that were sent, and some of them have been taken. -/
structure Takes (id : String) (fails : Nat → Bool) (sizes : List TerminalSize)
    (state : Notifying) : Prop where
  log_eq : state.log = .ofSizes id fails (sizes.take state.log.requests.length)
  queued_eq : state.queued = sizes.drop state.log.requests.length
  le : state.log.requests.length ≤ sizes.length
  totals : state.log.totals = .ofCount fails state.log.requests.length
  ended : ∀ totals, state.told = some totals →
    state.closed = true ∧ state.queued = [] ∧ totals = state.log.totals

theorem takes_nothing (id : String) (fails : Nat → Bool) : Takes id fails [] {} :=
  ⟨rfl, rfl, Nat.le_refl 0, rfl, fun _ htold => nomatch htold⟩

variable {sizes : List TerminalSize}

theorem length_notify (id : String) (fails : Nat → Bool) (log : ResizeLog) (size : TerminalSize) :
    (log.notify id fails size).requests.length = log.requests.length + 1 := by
  simp [ResizeLog.notify]

/-- The next size is taken from the front of the queue. -/
theorem Takes.take (htakes : Takes id fails sizes state) {size : TerminalSize}
    {queued : List TerminalSize} (hqueued : state.queued = size :: queued)
    (htold : state.told = none) :
    Takes id fails sizes { state with queued, log := state.log.notify id fails size } := by
  have hdrop : sizes.drop state.log.requests.length = size :: queued := by
    rw [← htakes.queued_eq, hqueued]
  have hlt : state.log.requests.length < sizes.length := by
    apply Nat.lt_of_not_le
    intro hle
    rw [List.drop_eq_nil_of_le hle] at hdrop
    exact nomatch hdrop
  have hsize : sizes[state.log.requests.length]? = some size := by
    rw [← List.head?_drop, hdrop, List.head?_cons]
  refine ⟨?_, ?_, ?_, ?_, fun _ h => absurd (htold.symm.trans h) (by simp)⟩
  · dsimp only
    rw [length_notify, List.take_add_one, hsize, Option.toList_some,
      ResizeLog.ofSizes_concat, ← htakes.log_eq]
  · dsimp only
    rw [length_notify, ← List.drop_drop, hdrop, List.drop_succ_cons, List.drop_zero]
  · dsimp only
    rw [length_notify]
    exact hlt
  · dsimp only
    rw [ResizeLog.totals_notify htakes.totals, length_notify]

theorem Takes.act (htakes : Takes id fails sizes state) :
    Takes id fails sizes (state.act id fails) := by
  have hacts := act_acts id fails state
  generalize state.act id fails = next at hacts
  cases hacts with
  | settled told => exact htakes
  | takes not_told queued_eq => exact htakes.take queued_eq not_told
  | ends not_told nothing_queued is_closed =>
      refine ⟨htakes.log_eq, htakes.queued_eq, htakes.le, htakes.totals, ?_⟩
      intro totals htold
      exact ⟨is_closed, nothing_queued, (Option.some.inj htold).symm⟩
  | waits => exact htakes

/-- A size that is sent is behind all others, and nothing has come to its end yet. -/
theorem Takes.send (htakes : Takes id fails sizes state) (hopen : state.closed = false)
    (size : TerminalSize) :
    Takes id fails (sizes ++ [size]) { state with queued := state.queued ++ [size] } := by
  refine ⟨?_, ?_, ?_, htakes.totals, ?_⟩
  · dsimp only
    rw [List.take_append_of_le_length htakes.le]
    exact htakes.log_eq
  · dsimp only
    rw [List.drop_append_of_le_length htakes.le, ← htakes.queued_eq]
  · dsimp only
    rw [List.length_append]
    exact Nat.le_add_right_of_le htakes.le
  · intro totals htold
    obtain ⟨hclosed, -, -⟩ := htakes.ended totals htold
    exact absurd (hclosed.symm.trans hopen) (by simp)

theorem Takes.close (htakes : Takes id fails sizes state) :
    Takes id fails sizes { state with closed := true } :=
  ⟨htakes.log_eq, htakes.queued_eq, htakes.le, htakes.totals, fun totals htold =>
    ⟨rfl, (htakes.ended totals htold).2⟩⟩

/-- The sizes that are sent in some turns, if the channel may have been closed before. -/
def sentIn (state : Notifying) (turns : List NotifyingTurn) : List TerminalSize :=
  if state.closed then [] else sizesSent turns

theorem sentIn_of_closed (hclosed : state.closed = true) (turns : List NotifyingTurn) :
    state.sentIn turns = [] :=
  if_pos hclosed

theorem sentIn_of_open (hopen : state.closed = false) (turns : List NotifyingTurn) :
    state.sentIn turns = sizesSent turns :=
  if_neg (by simp [hopen])

theorem closed_act (id : String) (fails : Nat → Bool) (state : Notifying) :
    (state.act id fails).closed = state.closed := by
  have hacts := act_acts id fails state
  generalize state.act id fails = next at hacts
  cases hacts <;> rfl

theorem sentIn_act (turns : List NotifyingTurn) :
    (state.act id fails).sentIn turns = state.sentIn turns := by
  rw [sentIn, closed_act, sentIn]

theorem Takes.follow (turns : List NotifyingTurn) :
    ∀ {sizes : List TerminalSize} {state : Notifying}, Takes id fails sizes state →
      Takes id fails (sizes ++ state.sentIn turns) (state.follow id fails turns) := by
  induction turns with
  | nil =>
      intro sizes state htakes
      have hnothing : state.sentIn [] = [] := by
        unfold sentIn
        split <;> rfl
      rwa [hnothing, List.append_nil]
  | cons turn turns ih =>
      intro sizes state htakes
      cases turn with
      | sends size =>
          show Takes id fails _ ((state.send size).follow id fails turns)
          cases hclosed : state.closed with
          | true =>
              have hlater := ih htakes
              rw [sentIn_of_closed hclosed] at hlater ⊢
              rwa [send_of_closed hclosed]
          | false =>
              have hlater := ih (htakes.send hclosed size)
              rw [sentIn_of_open (by exact hclosed), List.append_assoc] at hlater
              rw [sentIn_of_open hclosed, send_of_open hclosed]
              exact hlater
      | closes =>
          have hnothing : state.sentIn (.closes :: turns) = [] := by
            unfold sentIn
            split <;> rfl
          have hlater := ih htakes.close
          rw [sentIn_of_closed rfl] at hlater
          rwa [hnothing]
      | notifies =>
          have hsame : state.sentIn (.notifies :: turns) = state.sentIn turns := rfl
          have hlater := ih htakes.act
          rw [sentIn_act] at hlater
          rwa [hsame]

/-- Behind a new notifier are the first sizes that were sent, and ahead of it are the others. -/
theorem takes_after (id : String) (fails : Nat → Bool) (turns : List NotifyingTurn) :
    Takes id fails (sizesSent turns) (after id fails turns) :=
  (takes_nothing id fails).follow turns

/-! ## Progress -/

theorem closed_follow (turns : List NotifyingTurn) :
    ∀ state : Notifying, (state.follow id fails turns).closed = true ↔
      state.closed = true ∨ .closes ∈ turns := by
  induction turns with
  | nil => simp [Notifying.follow]
  | cons turn turns ih =>
      intro state
      refine (ih (state.turn id fails turn)).trans ?_
      cases turn with
      | sends size => simp [Notifying.turn]
      | closes => simp [Notifying.turn]
      | notifies => simp [Notifying.turn, closed_act]

/-- A turn makes no request less than were made, and one of the notifier makes one more if a
size is left. -/
theorem Takes.keepsUp (htakes : Takes id fails sizes state) (turn : NotifyingTurn) :
    min sizes.length (state.log.requests.length + [turn].count .notifies) ≤
      (state.turn id fails turn).log.requests.length := by
  cases turn with
  | sends size =>
      rw [Notifying.turn, log_send]
      exact Nat.min_le_right _ _
  | closes => exact Nat.min_le_right _ _
  | notifies =>
      have hacts := act_acts id fails state
      rw [Notifying.turn]
      generalize state.act id fails = next at hacts
      have hall : state.queued = [] → sizes.length ≤ state.log.requests.length := by
        intro hqueued
        rw [htakes.queued_eq] at hqueued
        exact List.drop_eq_nil_iff.mp hqueued
      cases hacts with
      | settled told =>
          obtain ⟨totals, htold⟩ := Option.ne_none_iff_exists'.mp told
          exact Nat.le_trans (Nat.min_le_left _ _) (hall (htakes.ended totals htold).2.1)
      | takes not_told queued_eq =>
          dsimp only
          rw [length_notify]
          exact Nat.min_le_right _ _
      | ends not_told nothing_queued is_closed | waits not_told nothing_queued not_closed =>
          exact Nat.le_trans (Nat.min_le_left _ _) (hall nothing_queued)

theorem Takes.keepsUp_follow (more : List NotifyingTurn) :
    ∀ {sizes : List TerminalSize} {state : Notifying}, Takes id fails sizes state →
      min sizes.length (state.log.requests.length + more.count .notifies) ≤
        (state.follow id fails more).log.requests.length := by
  induction more with
  | nil => exact fun _ => Nat.min_le_right _ _
  | cons turn more ih =>
      intro sizes state htakes
      have hfirst := htakes.keepsUp turn
      have hlater := ih (htakes.follow [turn])
      have hcount :
          (turn :: more).count .notifies = [turn].count .notifies + more.count .notifies := by
        rw [← List.count_append, List.singleton_append]
      calc min sizes.length (state.log.requests.length + (turn :: more).count .notifies)
          ≤ min (sizes ++ state.sentIn [turn]).length
              ((state.turn id fails turn).log.requests.length + more.count .notifies) := by
            rw [List.length_append]
            omega
        _ ≤ _ := hlater

/-- A notifier that has ended does nothing more, and nobody is left who could do anything. -/
theorem follow_of_ended {totals : ResizeTotals} (htold : state.told = some totals)
    (hclosed : state.closed = true) (more : List NotifyingTurn) :
    state.follow id fails more = state := by
  induction more with
  | nil => rfl
  | cons turn more ih =>
      have hturn : state.turn id fails turn = state := by
        cases turn with
        | sends size => exact send_of_closed hclosed size
        | closes => rw [Notifying.turn, ← hclosed]
        | notifies => rw [Notifying.turn, Notifying.act, htold]
      rw [Notifying.follow, List.foldl_cons, hturn]
      exact ih

/-- Once the channel is closed, one turn for each queued size and one more lead to the end. -/
theorem ends_of_closed (more : List NotifyingTurn) :
    ∀ state : Notifying, state.closed = true → state.queued.length < more.count .notifies →
      (state.follow id fails more).told ≠ none := by
  induction more with
  | nil => exact fun state _ hlt => absurd hlt (Nat.not_lt_zero _)
  | cons turn more ih =>
      intro state hclosed hlt
      cases htold : state.told with
      | some totals =>
          rw [follow_of_ended htold hclosed, htold]
          exact Option.some_ne_none totals
      | none =>
          rw [Notifying.follow, List.foldl_cons]
          cases turn with
          | sends size =>
              rw [Notifying.turn, send_of_closed hclosed]
              exact ih state hclosed (by simpa using hlt)
          | closes => exact ih _ rfl (by simpa [Notifying.turn] using hlt)
          | notifies =>
              have hnext := (closed_act id fails state).trans hclosed
              have hacts := act_acts id fails state
              rw [Notifying.turn]
              generalize state.act id fails = next at hacts hnext
              rw [List.count_cons_self] at hlt
              cases hacts with
              | settled told => exact absurd htold told
              | takes not_told queued_eq =>
                  rw [queued_eq, List.length_cons] at hlt
                  exact ih _ hnext (Nat.lt_of_succ_lt_succ hlt)
              | ends => rw [← Notifying.follow, follow_of_ended rfl hnext]; simp
              | waits not_told nothing_queued not_closed =>
                  exact absurd (hclosed.symm.trans not_closed) (by simp)

/-! ## Failures -/

/-- The two differ in the number of failures at most. -/
structure Alike (state other : Notifying) : Prop where
  queued_eq : state.queued = other.queued
  closed_eq : state.closed = other.closed
  requests_eq : state.log.requests = other.log.requests
  events_eq : state.log.events = other.log.events
  told_eq : state.told.map ResizeTotals.events = other.told.map ResizeTotals.events

variable {other : Notifying} {fails' : Nat → Bool}

theorem Alike.act (halike : state.Alike other) :
    (state.act id fails).Alike (other.act id fails') := by
  obtain ⟨queued, closed, log, told⟩ := state
  obtain ⟨_, _, log', told'⟩ := other
  obtain ⟨rfl, rfl, hrequests, hevents, htold⟩ := halike
  cases told with
  | some totals =>
      cases told' with
      | none => exact nomatch htold
      | some totals' => exact ⟨rfl, rfl, hrequests, hevents, htold⟩
  | none =>
      cases told' with
      | some totals' => exact nomatch htold
      | none =>
          cases queued with
          | cons size queued =>
              refine ⟨rfl, rfl, congrArg (· ++ [_]) hrequests, congrArg (· + 1) hevents, rfl⟩
          | nil =>
              cases closed with
              | true => exact ⟨rfl, rfl, hrequests, hevents, congrArg some hevents⟩
              | false => exact ⟨rfl, rfl, hrequests, hevents, rfl⟩

theorem Alike.turn (halike : state.Alike other) (turn : NotifyingTurn) :
    (state.turn id fails turn).Alike (other.turn id fails' turn) := by
  cases turn with
  | sends size =>
      obtain ⟨queued, closed, log, told⟩ := state
      obtain ⟨_, _, log', told'⟩ := other
      obtain ⟨rfl, rfl, hrequests, hevents, htold⟩ := halike
      cases closed with
      | true => exact ⟨rfl, rfl, hrequests, hevents, htold⟩
      | false => exact ⟨rfl, rfl, hrequests, hevents, htold⟩
  | closes =>
      exact ⟨halike.queued_eq, rfl, halike.requests_eq, halike.events_eq, halike.told_eq⟩
  | notifies => exact halike.act

theorem Alike.follow (turns : List NotifyingTurn) :
    ∀ {state other : Notifying}, state.Alike other →
      (state.follow id fails turns).Alike (other.follow id fails' turns) := by
  induction turns with
  | nil => exact fun halike => halike
  | cons turn turns ih => exact fun halike => ih (halike.turn turn)

/-! ## The bookkeeping -/

/-- What is to be said of a notifier, however the turns have fallen. -/
structure Bookkeeping (id : String) (fails : Nat → Bool) (turns : List NotifyingTurn) :
    Prop where
  /-- For each size there is one request behind the notifier or ahead of it, in order. -/
  in_order : (after id fails turns).log.requests ++
      (after id fails turns).queued.map (fun size => ⟨id, size⟩) =
    (sizesSent turns).map fun size => ⟨id, size⟩
  /-- All requests are counted, and those that failed. -/
  counted : (after id fails turns).log.totals =
    .ofCount fails (after id fails turns).log.requests.length
  /-- Each of its turns makes a request as long as sizes are left. -/
  keeps_up : ∀ more, min (sizesSent turns).length
      ((after id fails turns).log.requests.length + more.count .notifies) ≤
    (after id fails (turns ++ more)).log.requests.length
  /-- It ends only when the channel is closed, with all requests made and in the totals. -/
  told : ∀ totals, (after id fails turns).told = some totals →
    .closes ∈ turns ∧ (after id fails turns).log = .ofSizes id fails (sizesSent turns) ∧
      (after id fails turns).log.requests = (sizesSent turns).map (fun size => ⟨id, size⟩) ∧
      totals = .ofCount fails (sizesSent turns).length
  /-- When the channel is closed it comes to its end, and then to nothing else. -/
  ends : .closes ∈ turns → ∀ more,
    (after id fails turns).queued.length < more.count .notifies →
      (after id fails (turns ++ more)).told = some (.ofCount fails (sizesSent turns).length)
  /-- Whichever requests fail, the same ones are made at the same turns. -/
  unaffected : ∀ fails', (after id fails turns).Alike (after id fails' turns)

theorem sizesSent_append_of_closes {turns : List NotifyingTurn} (hcloses : .closes ∈ turns)
    (more : List NotifyingTurn) : sizesSent (turns ++ more) = sizesSent turns := by
  induction turns with
  | nil => exact absurd hcloses List.not_mem_nil
  | cons turn turns ih =>
      cases turn with
      | sends size =>
          exact congrArg (size :: ·) (ih (List.mem_of_ne_of_mem (by simp) hcloses))
      | closes => rfl
      | notifies => exact ih (List.mem_of_ne_of_mem (by simp) hcloses)

theorem told_after {turns : List NotifyingTurn} {totals : ResizeTotals}
    (htold : (after id fails turns).told = some totals) :
    .closes ∈ turns ∧ (after id fails turns).log = .ofSizes id fails (sizesSent turns) ∧
      (after id fails turns).log.requests = (sizesSent turns).map (fun size => ⟨id, size⟩) ∧
      totals = .ofCount fails (sizesSent turns).length := by
  have htakes := takes_after id fails turns
  obtain ⟨hclosed, hqueued, rfl⟩ := htakes.ended totals htold
  rw [htakes.queued_eq] at hqueued
  have hall := Nat.le_antisymm htakes.le (List.drop_eq_nil_iff.mp hqueued)
  have hlog := htakes.log_eq
  rw [hall, List.take_length] at hlog
  refine ⟨((closed_follow turns {}).mp hclosed).resolve_left (by simp), hlog, ?_, ?_⟩
  · rw [hlog, ResizeLog.requests_ofSizes]
  · rw [htakes.totals, hall]

/-- **A notifier makes one request for each size, in order, and counts them all.**  It does so
whenever the sizes come and whichever requests fail, and it ends when the channel is closed and
not before. -/
theorem one_request_each (id : String) (fails : Nat → Bool) (turns : List NotifyingTurn) :
    Bookkeeping id fails turns where
  in_order := by
    have htakes := takes_after id fails turns
    calc (after id fails turns).log.requests ++
          (after id fails turns).queued.map (fun size => ⟨id, size⟩)
        = ((sizesSent turns).take (after id fails turns).log.requests.length ++
            (sizesSent turns).drop (after id fails turns).log.requests.length).map
              (fun size => ⟨id, size⟩) := by
          rw [List.map_append, ← htakes.queued_eq,
            ← ResizeLog.requests_ofSizes id fails (List.take _ _), ← htakes.log_eq]
      _ = (sizesSent turns).map fun size => ⟨id, size⟩ := by rw [List.take_append_drop]
  counted := (takes_after id fails turns).totals
  keeps_up := by
    intro more
    rw [after_append]
    exact (takes_after id fails turns).keepsUp_follow more
  told _ htold := told_after htold
  ends := by
    intro hcloses more hmore
    have hended : (after id fails (turns ++ more)).told ≠ none := by
      rw [after_append]
      exact ends_of_closed more _ ((closed_follow turns {}).mpr (Or.inr hcloses)) hmore
    obtain ⟨totals, htold⟩ := Option.ne_none_iff_exists'.mp hended
    obtain ⟨-, -, -, htotals⟩ := told_after htold
    rw [htold, htotals, sizesSent_append_of_closes hcloses]
  unaffected _ := Alike.follow turns ⟨rfl, rfl, rfl, rfl, rfl⟩

/-- Two sizes come before the notifier has a turn, and both are passed on; the first and the last
request fail. -/
example :
    let fails := fun number => number == 0 || number == 2
    let turns : List NotifyingTurn :=
      [.sends ⟨80, 24⟩, .sends ⟨80, 24⟩, .notifies, .notifies, .notifies, .sends ⟨100, 30⟩,
        .closes, .sends ⟨1, 1⟩, .notifies, .notifies]
    after "c" fails turns =
      { closed := true
        log := ⟨[⟨"c", ⟨80, 24⟩⟩, ⟨"c", ⟨80, 24⟩⟩, ⟨"c", ⟨100, 30⟩⟩], 3, 2⟩
        told := some ⟨3, 2⟩ } := by
  decide

end Notifying

end ContainerAttach
