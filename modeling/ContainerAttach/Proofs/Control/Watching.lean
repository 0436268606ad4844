import ContainerAttach.Control.Resize

/-!
# A watch at work

`SizeWatch` is told when a reading is made, when its listener goes away and when it is stopped.
Here this is left to those who do it.  The thread of the watch makes a first reading, and one more
whenever a signal has woken it up; signals that it has not answered yet count as one.  The owner
may drop the watch, and waits for the thread to end then.  The listener takes the sizes out of a
channel, and may go away.  Nobody says who is the next.

The readings are numbered, and any of them may fail.  As long as the listener is there, what has
been sent are the readings made that succeeded (`Watching.Heard`).  After that nothing is sent,
and the first reading that succeeds is the last one (`Watching.Unheard`).  A thread that has ended
never makes another (`Watching.over_follow`), so the listener of a watch that was dropped gets
what is left in the channel and is told the end (`Watching.told_of_over`).
-/

namespace ContainerAttach

/-! ## Readings -/

/-- The sizes that are read in the first so many readings. -/
def sizesRead (readings : Nat → Option TerminalSize) (count : Nat) : List TerminalSize :=
  (List.range count).filterMap readings

theorem sizesRead_succ (readings : Nat → Option TerminalSize) (count : Nat) :
    sizesRead readings (count + 1) = sizesRead readings count ++ (readings count).toList := by
  rw [sizesRead, List.range_succ, List.filterMap_append, sizesRead]
  cases hsize : readings count <;> simp [hsize]

/-- A watch that is left alone passes on the readings that succeed. -/
theorem SizeWatch.sizes_eq (readings : List (Option TerminalSize)) :
    sizes readings = readings.filterMap id := by
  have hrun : ∀ sent : List TerminalSize,
      run { sent := sent } (readings.map .reading) = { sent := sent ++ readings.filterMap id } := by
    induction readings with
    | nil => exact fun sent => by rw [List.filterMap_nil, List.append_nil]; rfl
    | cons reading readings ih =>
        intro sent
        cases reading with
        | none => exact ih sent
        | some size =>
            refine (ih (sent ++ [size])).trans ?_
            rw [List.append_assoc]
            rfl
  rw [sizes, hrun, List.nil_append]

theorem SizeWatch.sizes_map_range (readings : Nat → Option TerminalSize) (count : Nat) :
    sizes ((List.range count).map readings) = sizesRead readings count := by
  rw [sizes_eq, List.filterMap_map]
  rfl

/-! ## Turns -/

/-- A watch with its thread, its owner and its listener. -/
structure Watching where
  watch : SizeWatch := {}
  /-- The number of readings made. -/
  made : Nat := 0
  /-- A signal has come that no reading has answered yet. -/
  signalled : Bool := false
  /-- The owner drops the watch, or has dropped it. -/
  dropped : Bool := false
  /-- The sizes that the listener has got. -/
  received : List TerminalSize := []
  /-- The listener has been told that nothing more will come. -/
  told : Bool := false
  deriving DecidableEq, Repr

inductive WatchingTurn where
  | signals
  /-- The thread has the turn. -/
  | watches
  | drops
  /-- The listener asks for a size. -/
  | listens
  | leaves
  deriving DecidableEq, Repr

theorem WatchingTurn.count_cons (kind turn : WatchingTurn) (more : List WatchingTurn) :
    (turn :: more).count kind = [turn].count kind + more.count kind := by
  rw [← List.count_append, List.singleton_append]

namespace Watching

variable {readings : Nat → Option TerminalSize} {state : Watching}

/-- The sizes that are in the channel. -/
def queued (state : Watching) : List TerminalSize :=
  state.watch.sent.drop state.received.length

/-- The next reading.  All but the first one answer the signals that have come. -/
def read (readings : Nat → Option TerminalSize) (state : Watching) : Watching :=
  { state with
    watch := state.watch.step (.reading (readings state.made))
    made := state.made + 1
    signalled := state.signalled && state.made == 0 }

/-- The thread reads once without being asked to, and then waits for signals.  A watch that is
dropped waits for none. -/
def act (readings : Nat → Option TerminalSize) (state : Watching) : Watching :=
  if state.watch.running then
    if state.made = 0 then state.read readings
    else if state.dropped then { state with watch := state.watch.step .stop }
    else if state.signalled then state.read readings
    else state
  else state

/-- The listener takes the next size.  Without one it waits as long as the thread may send. -/
def listen (state : Watching) : Watching :=
  if state.watch.listening then
    match state.queued with
    | size :: _ => { state with received := state.received ++ [size] }
    | [] => if state.watch.running then state else { state with told := true }
  else state

def turn (readings : Nat → Option TerminalSize) (state : Watching) : WatchingTurn → Watching
  | .signals => { state with signalled := true }
  | .watches => state.act readings
  | .drops => { state with dropped := true }
  | .listens => state.listen
  | .leaves => { state with watch := state.watch.step .listenerGone }

def follow (readings : Nat → Option TerminalSize) (state : Watching)
    (turns : List WatchingTurn) : Watching :=
  turns.foldl (turn readings) state

/-- What has become of a new watch. -/
def after (readings : Nat → Option TerminalSize) (turns : List WatchingTurn) : Watching :=
  follow readings {} turns

theorem after_append (readings : Nat → Option TerminalSize) (turns more : List WatchingTurn) :
    after readings (turns ++ more) = (after readings turns).follow readings more :=
  List.foldl_append

/-! ### What the thread can do -/

/-- The thread is about to make a reading. -/
structure Due (state : Watching) : Prop where
  running : state.watch.running = true
  woken : state.made ≠ 0 → state.dropped = false ∧ state.signalled = true

/-- What the thread makes of its turn: a reading that fails, one that is sent and one that nobody
wants, its end after a drop, or nothing. -/
inductive Acts (readings : Nat → Option TerminalSize) (state : Watching) : Watching → Prop
  | fails (due : state.Due) (failed : readings state.made = none) :
      Acts readings state
        { state with
          made := state.made + 1
          signalled := state.signalled && state.made == 0 }
  | sends {size : TerminalSize} (due : state.Due) (succeeded : readings state.made = some size)
      (listening : state.watch.listening = true) :
      Acts readings state
        { state with
          watch := { state.watch with sent := state.watch.sent ++ [size] }
          made := state.made + 1
          signalled := state.signalled && state.made == 0 }
  | ends {size : TerminalSize} (due : state.Due) (succeeded : readings state.made = some size)
      (not_listening : state.watch.listening = false) :
      Acts readings state
        { state with
          watch := { state.watch with running := false }
          made := state.made + 1
          signalled := state.signalled && state.made == 0 }
  | stops (begun : state.made ≠ 0) (dropped : state.dropped = true) :
      Acts readings state { state with watch := { state.watch with running := false } }
  | rests (not_due : ¬ state.Due)
      (not_stopped : state.watch.running = true → state.dropped = false) :
      Acts readings state state

theorem step_of_listening {watch : SizeWatch} (hrunning : watch.running = true)
    (hlistening : watch.listening = true) (size : TerminalSize) :
    watch.step (.reading (some size)) = { watch with sent := watch.sent ++ [size] } := by
  rw [SizeWatch.step, if_pos hrunning, if_pos hlistening]

theorem step_of_not_listening {watch : SizeWatch} (hrunning : watch.running = true)
    (hlistening : watch.listening = false) (size : TerminalSize) :
    watch.step (.reading (some size)) = { watch with running := false } := by
  rw [SizeWatch.step, if_pos hrunning, if_neg (by simp [hlistening])]

theorem acts_read (hdue : state.Due) : Acts readings state (state.read readings) := by
  unfold read
  cases hsize : readings state.made with
  | none => exact .fails hdue hsize
  | some size =>
      cases hlistening : state.watch.listening with
      | true =>
          rw [step_of_listening hdue.running hlistening]
          exact .sends hdue hsize hlistening
      | false =>
          rw [step_of_not_listening hdue.running hlistening]
          exact .ends hdue hsize hlistening

theorem act_acts (readings : Nat → Option TerminalSize) (state : Watching) :
    Acts readings state (state.act readings) := by
  unfold act
  split
  · next hrunning =>
    split
    · next hfirst => exact acts_read ⟨hrunning, fun h => absurd hfirst h⟩
    · next hbegun =>
      split
      · next hdropped => exact .stops hbegun hdropped
      · next hdropped =>
        have hdropped : state.dropped = false := by simpa using hdropped
        split
        · next hsignalled => exact acts_read ⟨hrunning, fun _ => ⟨hdropped, hsignalled⟩⟩
        · next hsignalled =>
          exact .rests (fun hdue => hsignalled (hdue.woken hbegun).2) (fun _ => hdropped)
  · next hrunning => exact .rests (fun hdue => hrunning hdue.running) (fun h => absurd h hrunning)

/-! ### What the listener can do -/

/-- The listener takes a size, is told the end, or gets nothing. -/
inductive Listens (state : Watching) : Watching → Prop
  | takes {size : TerminalSize} {queued : List TerminalSize}
      (listening : state.watch.listening = true) (queued_eq : state.queued = size :: queued) :
      Listens state { state with received := state.received ++ [size] }
  | ends (listening : state.watch.listening = true) (queued_eq : state.queued = [])
      (ended : state.watch.running = false) : Listens state { state with told := true }
  | waits (not_ended : state.watch.listening = true →
      state.queued = [] ∧ state.watch.running = true) : Listens state state

theorem listen_listens (state : Watching) : Listens state state.listen := by
  unfold listen
  split
  · next hlistening =>
    split
    · next hqueued => exact .takes hlistening hqueued
    · next hqueued =>
      split
      · next hrunning => exact .waits fun _ => ⟨hqueued, hrunning⟩
      · next hrunning => exact .ends hlistening hqueued (by simpa using hrunning)
  · next hlistening => exact .waits fun h => absurd h hlistening

/-! ### What the others leave alone -/

/-- Nobody but the thread makes readings, sends sizes or ends the thread. -/
theorem turn_of_ne_watches (readings : Nat → Option TerminalSize) (state : Watching)
    {turn : WatchingTurn} (hne : turn ≠ .watches) :
    (state.turn readings turn).made = state.made ∧
      (state.turn readings turn).watch.sent = state.watch.sent ∧
      (state.turn readings turn).watch.running = state.watch.running := by
  cases turn with
  | signals | drops | leaves => exact ⟨rfl, rfl, rfl⟩
  | watches => exact absurd rfl hne
  | listens =>
      have hlistens := state.listen_listens
      rw [Watching.turn]
      generalize state.listen = next at hlistens
      cases hlistens <;> exact ⟨rfl, rfl, rfl⟩

/-- Nobody but the listener takes sizes or is told the end. -/
theorem turn_of_ne_listens (readings : Nat → Option TerminalSize) (state : Watching)
    {turn : WatchingTurn} (hne : turn ≠ .listens) :
    (state.turn readings turn).received = state.received ∧
      (state.turn readings turn).told = state.told := by
  cases turn with
  | signals | drops | leaves => exact ⟨rfl, rfl⟩
  | watches =>
      have hacts := act_acts readings state
      rw [Watching.turn]
      generalize state.act readings = next at hacts
      cases hacts <;> exact ⟨rfl, rfl⟩
  | listens => exact absurd rfl hne

/-! ## Who has gone away -/

theorem listening_turn (readings : Nat → Option TerminalSize) (state : Watching)
    (turn : WatchingTurn) :
    (state.turn readings turn).watch.listening = true ↔
      state.watch.listening = true ∧ turn ≠ .leaves := by
  cases turn with
  | signals | drops => simp [Watching.turn]
  | leaves => simp [Watching.turn, SizeWatch.step]
  | watches =>
      have hacts := act_acts readings state
      rw [Watching.turn]
      generalize state.act readings = next at hacts
      cases hacts <;> simp
  | listens =>
      have hlistens := state.listen_listens
      rw [Watching.turn]
      generalize state.listen = next at hlistens
      cases hlistens <;> simp

theorem dropped_turn (readings : Nat → Option TerminalSize) (state : Watching)
    (turn : WatchingTurn) :
    (state.turn readings turn).dropped = true ↔ state.dropped = true ∨ turn = .drops := by
  cases turn with
  | signals | drops | leaves => simp [Watching.turn]
  | watches =>
      have hacts := act_acts readings state
      rw [Watching.turn]
      generalize state.act readings = next at hacts
      cases hacts <;> simp
  | listens =>
      have hlistens := state.listen_listens
      rw [Watching.turn]
      generalize state.listen = next at hlistens
      cases hlistens <;> simp

theorem listening_follow (readings : Nat → Option TerminalSize) (turns : List WatchingTurn) :
    ∀ state : Watching, (state.follow readings turns).watch.listening = true ↔
      state.watch.listening = true ∧ .leaves ∉ turns := by
  induction turns with
  | nil => simp [follow]
  | cons turn turns ih =>
      intro state
      refine (ih (state.turn readings turn)).trans ?_
      rw [listening_turn, List.mem_cons, not_or, ne_comm, and_assoc]

theorem dropped_follow (readings : Nat → Option TerminalSize) (turns : List WatchingTurn) :
    ∀ state : Watching, (state.follow readings turns).dropped = true ↔
      state.dropped = true ∨ .drops ∈ turns := by
  induction turns with
  | nil => simp [follow]
  | cons turn turns ih =>
      intro state
      refine (ih (state.turn readings turn)).trans ?_
      rw [dropped_turn, List.mem_cons, or_assoc, eq_comm (a := turn)]

/-! ## The watch and its listener -/

/-- What the listener has got begins what was sent, and as long as it listens, that is what was
read. -/
structure Heard (readings : Nat → Option TerminalSize) (state : Watching) : Prop where
  received : state.received <+: state.watch.sent
  sent_eq : state.watch.listening = true → state.watch.sent = sizesRead readings state.made
  running : state.watch.listening = true → state.dropped = false → state.watch.running = true
  told : state.told = true →
    state.watch.running = false ∧ state.received = state.watch.sent

theorem heard_start (readings : Nat → Option TerminalSize) : Heard readings {} :=
  ⟨List.prefix_refl [], fun _ => rfl, fun _ _ => rfl, fun h => nomatch h⟩

theorem Heard.not_told (hheard : Heard readings state) (hrunning : state.watch.running = true) :
    state.told ≠ true := by
  intro htold
  exact absurd (hrunning.symm.trans (hheard.told htold).1) (by simp)

theorem Heard.act (hheard : Heard readings state) : Heard readings (state.act readings) := by
  have hacts := act_acts readings state
  generalize state.act readings = next at hacts
  cases hacts with
  | fails due failed =>
      refine ⟨hheard.received, ?_, hheard.running, hheard.told⟩
      intro hlistening
      dsimp only
      rw [sizesRead_succ, failed, Option.toList_none, List.append_nil]
      exact hheard.sent_eq hlistening
  | @sends size due succeeded listening =>
      refine ⟨hheard.received.trans (List.prefix_append _ _), ?_, hheard.running, ?_⟩
      · intro hlistening
        dsimp only
        rw [sizesRead_succ, succeeded, Option.toList_some, hheard.sent_eq hlistening]
      · intro htold
        exact absurd htold (hheard.not_told due.running)
  | ends due succeeded not_listening =>
      have hgone : ∀ {p : Prop}, state.watch.listening = true → p := by
        intro p hlistening
        exact absurd (hlistening.symm.trans not_listening) (by simp)
      refine ⟨hheard.received, hgone, hgone, ?_⟩
      intro htold
      exact absurd htold (hheard.not_told due.running)
  | stops begun dropped =>
      refine ⟨hheard.received, hheard.sent_eq, ?_, ?_⟩
      · intro _ hdropped
        exact absurd (dropped.symm.trans hdropped) (by simp)
      · intro htold
        exact ⟨rfl, (hheard.told htold).2⟩
  | rests => exact hheard

/-- What the listener gets next is the next size that was sent. -/
theorem Heard.received_concat (hheard : Heard readings state) {size : TerminalSize}
    {queued : List TerminalSize} (hqueued : state.queued = size :: queued) :
    state.received ++ [size] <+: state.watch.sent := by
  obtain ⟨rest, hrest⟩ := hheard.received
  have hdrop : rest = size :: queued := by
    rw [← hqueued, Watching.queued, ← hrest, List.drop_left]
  refine ⟨queued, ?_⟩
  rw [← hrest, hdrop, List.append_assoc, List.singleton_append]

theorem Heard.received_eq (hheard : Heard readings state) (hqueued : state.queued = []) :
    state.received = state.watch.sent := by
  apply hheard.received.eq_of_length
  apply Nat.le_antisymm hheard.received.length_le
  exact List.drop_eq_nil_iff.mp hqueued

theorem Heard.listen (hheard : Heard readings state) : Heard readings state.listen := by
  have hlistens := state.listen_listens
  generalize state.listen = next at hlistens
  cases hlistens with
  | takes listening queued_eq =>
      have hconcat := hheard.received_concat queued_eq
      refine ⟨hconcat, hheard.sent_eq, hheard.running, ?_⟩
      intro htold
      have hlength := hconcat.length_le
      rw [← (hheard.told htold).2, List.length_append, List.length_singleton] at hlength
      omega
  | ends listening queued_eq ended =>
      exact ⟨hheard.received, hheard.sent_eq, hheard.running, fun _ =>
        ⟨ended, hheard.received_eq queued_eq⟩⟩
  | waits => exact hheard

theorem Heard.turn (hheard : Heard readings state) (turn : WatchingTurn) :
    Heard readings (state.turn readings turn) := by
  cases turn with
  | signals => exact ⟨hheard.received, hheard.sent_eq, hheard.running, hheard.told⟩
  | watches => exact hheard.act
  | drops =>
      exact ⟨hheard.received, hheard.sent_eq, fun _ h => (nomatch h), hheard.told⟩
  | listens => exact hheard.listen
  | leaves =>
      exact ⟨hheard.received, fun h => (nomatch h), fun h => (nomatch h), hheard.told⟩

theorem heard_after (readings : Nat → Option TerminalSize) (turns : List WatchingTurn) :
    Heard readings (after readings turns) := by
  have hfollow : ∀ state : Watching, Heard readings state →
      Heard readings (state.follow readings turns) := by
    induction turns with
    | nil => exact fun _ hheard => hheard
    | cons turn turns ih => exact fun _ hheard => ih _ (hheard.turn turn)
  exact hfollow {} (heard_start readings)

/-- As long as somebody listens, a watch that may be dropped does what one that is left alone
does with the same readings. -/
theorem sent_eq_sizes {turns : List WatchingTurn} (hstays : .leaves ∉ turns) :
    (after readings turns).watch.sent =
      SizeWatch.sizes ((List.range (after readings turns).made).map readings) := by
  have hlistening := (listening_follow readings turns {}).mpr ⟨rfl, hstays⟩
  rw [SizeWatch.sizes_map_range]
  exact (heard_after readings turns).sent_eq hlistening

/-! ## A watch without a listener -/

/-- A watch that had made some readings and sent some sizes when its listener went away.  Of the
readings made since then, none but the last can have succeeded, and that one has ended it. -/
structure Unheard (readings : Nat → Option TerminalSize) (made : Nat) (sent : List TerminalSize)
    (state : Watching) : Prop where
  gone : state.watch.listening = false
  sent_eq : state.watch.sent = sent
  made_le : made ≤ state.made
  failed : ∀ index, made ≤ index → index + 1 < state.made → readings index = none
  running : state.watch.running = true →
    ∀ index, made ≤ index → index < state.made → readings index = none
  ended : state.watch.running = false → state.dropped = false →
    made < state.made ∧ readings (state.made - 1) ≠ none

theorem unheard_start (hgone : state.watch.listening = false)
    (hrunning : state.watch.running = true) :
    Unheard readings state.made state.watch.sent state :=
  ⟨hgone, rfl, Nat.le_refl _, fun index _ _ => by omega, fun _ index _ _ => by omega,
    fun hover => absurd (hover.symm.trans hrunning) (by simp)⟩

variable {made : Nat} {sent : List TerminalSize}

theorem Unheard.act (hunheard : Unheard readings made sent state) :
    Unheard readings made sent (state.act readings) := by
  have hacts := act_acts readings state
  generalize state.act readings = next at hacts
  have hmade := hunheard.made_le
  cases hacts with
  | fails due failed =>
      have hall := hunheard.running due.running
      refine ⟨hunheard.gone, hunheard.sent_eq, by dsimp only; omega, ?_, ?_, ?_⟩
      · intro index hle hlt
        exact hall index hle (by dsimp only at hlt; omega)
      · intro _ index hle hlt
        rcases Nat.lt_succ_iff_lt_or_eq.mp hlt with hearlier | rfl
        · exact hall index hle hearlier
        · exact failed
      · intro hover
        exact absurd (hover.symm.trans due.running) (by simp)
  | sends due succeeded listening =>
      exact absurd (listening.symm.trans hunheard.gone) (by simp)
  | ends due succeeded not_listening =>
      have hall := hunheard.running due.running
      refine ⟨hunheard.gone, hunheard.sent_eq, by dsimp only; omega, ?_, ?_, ?_⟩
      · intro index hle hlt
        exact hall index hle (by dsimp only at hlt; omega)
      · intro hrunning
        exact nomatch hrunning
      · intro _ _
        refine ⟨by dsimp only; omega, ?_⟩
        dsimp only
        rw [Nat.add_sub_cancel, succeeded]
        exact Option.some_ne_none _
  | stops begun dropped =>
      refine ⟨hunheard.gone, hunheard.sent_eq, hmade, hunheard.failed, fun h => (nomatch h), ?_⟩
      intro _ hdropped
      exact absurd (dropped.symm.trans hdropped) (by simp)
  | rests => exact hunheard

theorem Unheard.turn (hunheard : Unheard readings made sent state) (turn : WatchingTurn) :
    Unheard readings made sent (state.turn readings turn) := by
  cases turn with
  | signals =>
      exact ⟨hunheard.gone, hunheard.sent_eq, hunheard.made_le, hunheard.failed,
        hunheard.running, hunheard.ended⟩
  | watches => exact hunheard.act
  | drops =>
      exact ⟨hunheard.gone, hunheard.sent_eq, hunheard.made_le, hunheard.failed,
        hunheard.running, fun _ h => nomatch h⟩
  | listens =>
      have hlistens := state.listen_listens
      rw [Watching.turn]
      generalize state.listen = next at hlistens
      cases hlistens with
      | takes listening | ends listening =>
          exact absurd (listening.symm.trans hunheard.gone) (by simp)
      | waits => exact hunheard
  | leaves =>
      exact ⟨rfl, hunheard.sent_eq, hunheard.made_le, hunheard.failed, hunheard.running,
        hunheard.ended⟩

theorem Unheard.follow (more : List WatchingTurn) :
    ∀ {state : Watching}, Unheard readings made sent state →
      Unheard readings made sent (state.follow readings more) := by
  induction more with
  | nil => exact fun hunheard => hunheard
  | cons turn more ih => exact fun hunheard => ih (hunheard.turn turn)

/-! ## The end of the thread -/

/-- The thread has come to its end, with so many readings made and these sizes sent. -/
structure Over (made : Nat) (sent : List TerminalSize) (state : Watching) : Prop where
  ended : state.watch.running = false
  made_eq : state.made = made
  sent_eq : state.watch.sent = sent

theorem Over.turn (hover : Over made sent state) (turn : WatchingTurn) :
    Over made sent (state.turn readings turn) := by
  by_cases hturn : turn = .watches
  · have hsame : state.act readings = state := if_neg (by simp [hover.ended])
    rwa [hturn, Watching.turn, hsame]
  · obtain ⟨hmade, hsent, hrunning⟩ := turn_of_ne_watches readings state hturn
    exact ⟨hrunning.trans hover.ended, hmade.trans hover.made_eq, hsent.trans hover.sent_eq⟩

theorem Over.follow (more : List WatchingTurn) :
    ∀ {state : Watching}, Over made sent state → Over made sent (state.follow readings more) := by
  induction more with
  | nil => exact fun hover => hover
  | cons turn more ih => exact fun hover => ih (hover.turn turn)

theorem over_follow (readings : Nat → Option TerminalSize)
    (hover : state.watch.running = false) (more : List WatchingTurn) :
    Over state.made state.watch.sent (state.follow readings more) :=
  Over.follow more ⟨hover, rfl, rfl⟩

/-- A thread that is to end makes a reading only if it is the first one. -/
theorem made_turn_of_dropped (readings : Nat → Option TerminalSize)
    (hdropped : state.dropped = true) (turn : WatchingTurn) :
    (state.turn readings turn).made ≤ max state.made 1 := by
  by_cases hturn : turn = .watches
  · have hacts := act_acts readings state
    rw [hturn, Watching.turn]
    generalize state.act readings = next at hacts
    have hfirst : state.Due → state.made = 0 := by
      intro hdue
      apply Decidable.byContradiction
      intro hbegun
      exact absurd (hdropped.symm.trans (hdue.woken hbegun).1) (by simp)
    cases hacts with
    | fails due | sends due | ends due =>
        dsimp only
        rw [hfirst due]
        exact Nat.le_max_right 0 1
    | stops | rests => exact Nat.le_max_left state.made 1
  · rw [(turn_of_ne_watches readings state hturn).1]
    exact Nat.le_max_left state.made 1

theorem made_of_dropped (more : List WatchingTurn) :
    ∀ state : Watching, state.dropped = true →
      (state.follow readings more).made ≤ max state.made 1 := by
  induction more with
  | nil => exact fun state _ => Nat.le_max_left state.made 1
  | cons turn more ih =>
      intro state hdropped
      have hstill := (dropped_turn readings state turn).mpr (Or.inl hdropped)
      have hmade := made_turn_of_dropped readings hdropped turn
      calc (state.follow readings (turn :: more)).made
          ≤ max (state.turn readings turn).made 1 := ih _ hstill
        _ ≤ max state.made 1 := Nat.max_le.mpr ⟨hmade, Nat.le_max_right state.made 1⟩

/-- A thread that is to end does so as soon as it has made a reading. -/
theorem act_of_dropped (hdropped : state.dropped = true) (hbegun : state.made ≠ 0) :
    (state.act readings).watch.running = false := by
  unfold act
  split
  · rfl
  · next hover => simpa using hover

/-- Two turns of the thread are enough for its owner to drop the watch: one for a first reading
and one to see that it is dropped. -/
theorem over_of_dropped (more : List WatchingTurn) :
    ∀ state : Watching, state.dropped = true → 2 ≤ state.made + more.count .watches →
      more.count .watches ≠ 0 → (state.follow readings more).watch.running = false := by
  induction more with
  | nil => exact fun state _ _ hnone => absurd rfl hnone
  | cons turn more ih =>
      intro state hdropped hcount hsome
      have hstill := (dropped_turn readings state turn).mpr (Or.inl hdropped)
      by_cases hturn : turn = .watches
      · subst hturn
        rw [List.count_cons_self] at hcount
        by_cases hbegun : state.made = 0
        · cases hrunning : state.watch.running with
          | false => exact (over_follow readings hrunning (.watches :: more)).ended
          | true =>
              have hact : state.act readings = state.read readings := by
                rw [Watching.act, if_pos hrunning, if_pos hbegun]
              refine ih _ hstill ?_ (by omega)
              rw [Watching.turn, hact]
              show 2 ≤ state.made + 1 + more.count .watches
              omega
        · have hover : (state.turn readings .watches).watch.running = false :=
            act_of_dropped hdropped hbegun
          exact (over_follow readings hover more).ended
      · rw [List.count_cons_of_ne (by simpa using hturn)] at hcount hsome
        refine ih _ hstill ?_ hsome
        rwa [(turn_of_ne_watches readings state hturn).1]

/-! ## Signals -/

/-- So many signals have come, and have been answered or not. -/
structure Answers (count : Nat) (state : Watching) : Prop where
  made_le : state.made - 1 + state.signalled.toNat ≤ count
  begun : state.made = 0 → state.watch.running = true

theorem Answers.turn {count : Nat} (hanswers : Answers count state)
    (readings : Nat → Option TerminalSize) (turn : WatchingTurn) :
    Answers (count + [turn].count .signals) (state.turn readings turn) := by
  have hmade := hanswers.made_le
  cases turn with
  | signals =>
      refine ⟨?_, hanswers.begun⟩
      show state.made - 1 + 1 ≤ count + 1
      omega
  | drops | leaves => exact ⟨hmade, hanswers.begun⟩
  | watches =>
      have hacts := act_acts readings state
      rw [Watching.turn]
      generalize state.act readings = next at hacts
      have hreading : state.Due →
          state.made + 1 - 1 + (state.signalled && state.made == 0).toNat ≤ count := by
        intro hdue
        by_cases hfirst : state.made = 0
        · simpa [hfirst] using hmade
        · have hsignalled := (hdue.woken hfirst).2
          rw [hsignalled] at hmade ⊢
          have hnone : (true && state.made == 0).toNat = 0 := by simp [hfirst]
          rw [hnone]
          simp only [Bool.toNat_true] at hmade
          omega
      cases hacts with
      | fails due | sends due | ends due =>
          exact ⟨hreading due, fun h => absurd h (Nat.succ_ne_zero _)⟩
      | stops begun => exact ⟨hmade, fun h => absurd h begun⟩
      | rests => exact ⟨hmade, hanswers.begun⟩
  | listens =>
      have hlistens := state.listen_listens
      rw [Watching.turn]
      generalize state.listen = next at hlistens
      cases hlistens <;> exact ⟨hmade, hanswers.begun⟩

theorem answers_after (readings : Nat → Option TerminalSize) (turns : List WatchingTurn) :
    Answers (turns.count .signals) (after readings turns) := by
  have hfollow : ∀ (count : Nat) (state : Watching), Answers count state →
      Answers (count + turns.count .signals) (state.follow readings turns) := by
    induction turns with
    | nil => exact fun _ _ hanswers => hanswers
    | cons turn turns ih =>
        intro count state hanswers
        have hlater := ih _ _ (hanswers.turn readings turn)
        rw [WatchingTurn.count_cons, ← Nat.add_assoc]
        exact hlater
  have hstart : Answers 0 {} := ⟨Nat.le_refl 0, fun _ => rfl⟩
  have hafter := hfollow 0 {} hstart
  rwa [Nat.zero_add] at hafter

/-! ## What is left for the listener -/

theorem sent_turn (readings : Nat → Option TerminalSize) (state : Watching)
    (turn : WatchingTurn) : state.watch.sent <+: (state.turn readings turn).watch.sent := by
  by_cases hturn : turn = .watches
  · have hacts := act_acts readings state
    rw [hturn, Watching.turn]
    generalize state.act readings = next at hacts
    cases hacts with
    | sends => exact List.prefix_append _ _
    | fails | ends | stops | rests => exact List.prefix_refl _
  · obtain ⟨-, hsame, -⟩ := turn_of_ne_watches readings state hturn
    exact hsame ▸ List.prefix_refl _

/-- With a turn of its own the listener gets one size more, if one is left for it. -/
theorem received_turn (readings : Nat → Option TerminalSize)
    (hlistening : state.watch.listening = true) (turn : WatchingTurn) :
    min state.watch.sent.length (state.received.length + [turn].count .listens) ≤
      (state.turn readings turn).received.length := by
  by_cases hturn : turn = .listens
  · have hlistens := state.listen_listens
    rw [hturn, Watching.turn]
    generalize state.listen = next at hlistens
    cases hlistens with
    | takes listening queued_eq =>
        rw [List.length_append]
        exact Nat.min_le_right _ _
    | ends listening queued_eq ended =>
        exact Nat.le_trans (Nat.min_le_left _ _) (List.drop_eq_nil_iff.mp queued_eq)
    | waits not_ended =>
        obtain ⟨hqueued, -⟩ := not_ended hlistening
        exact Nat.le_trans (Nat.min_le_left _ _) (List.drop_eq_nil_iff.mp hqueued)
  · rw [(turn_of_ne_listens readings state hturn).1,
      List.count_cons_of_ne (by simpa using hturn), List.count_nil]
    exact Nat.min_le_right _ _

theorem received_follow (more : List WatchingTurn) :
    ∀ state : Watching, state.watch.listening = true → .leaves ∉ more →
      min state.watch.sent.length (state.received.length + more.count .listens) ≤
        (state.follow readings more).received.length := by
  induction more with
  | nil => exact fun state _ _ => Nat.min_le_right _ _
  | cons turn more ih =>
      intro state hlistening hstays
      rw [List.mem_cons, not_or, eq_comm] at hstays
      have hstill := (listening_turn readings state turn).mpr ⟨hlistening, hstays.1⟩
      have hfirst := received_turn readings hlistening turn
      have hlater := ih _ hstill hstays.2
      have hsent := (sent_turn readings state turn).length_le
      have hcount := WatchingTurn.count_cons .listens turn more
      calc min state.watch.sent.length (state.received.length + (turn :: more).count .listens)
          ≤ min (state.turn readings turn).watch.sent.length
              ((state.turn readings turn).received.length + more.count .listens) := by omega
        _ ≤ (state.follow readings (turn :: more)).received.length := hlater

theorem told_turn (readings : Nat → Option TerminalSize) (htold : state.told = true)
    (turn : WatchingTurn) : (state.turn readings turn).told = true := by
  by_cases hturn : turn = .listens
  · have hlistens := state.listen_listens
    rw [hturn, Watching.turn]
    generalize state.listen = next at hlistens
    cases hlistens with
    | takes | waits => exact htold
    | ends => rfl
  · rw [(turn_of_ne_listens readings state hturn).2]
    exact htold

theorem told_follow (more : List WatchingTurn) :
    ∀ state : Watching, state.told = true → (state.follow readings more).told = true := by
  induction more with
  | nil => exact fun _ htold => htold
  | cons turn more ih => exact fun state htold => ih _ (told_turn readings htold turn)

/-- A listener that asks for more than was sent is told that the thread has ended. -/
theorem told_of_over (more : List WatchingTurn) :
    ∀ state : Watching, Heard readings state → state.watch.running = false →
      state.watch.listening = true → .leaves ∉ more →
        state.watch.sent.length < state.received.length + more.count .listens →
          (state.follow readings more).told = true := by
  induction more with
  | nil =>
      intro state hheard _ _ _ hlt
      exact absurd hheard.received.length_le (Nat.not_le.mpr hlt)
  | cons turn more ih =>
      intro state hheard hover hlistening hstays hlt
      rw [List.mem_cons, not_or, eq_comm] at hstays
      have hstill := (listening_turn readings state turn).mpr ⟨hlistening, hstays.1⟩
      obtain ⟨hover', -, hsent⟩ := over_follow readings hover [turn]
      have hfirst := received_turn readings hlistening turn
      rw [WatchingTurn.count_cons] at hlt
      by_cases hleft :
          state.received.length + [turn].count .listens ≤ state.watch.sent.length
      · refine ih _ (hheard.turn turn) hover' hstill hstays.2 ?_
        have hsame : (state.turn readings turn).watch.sent = state.watch.sent := hsent
        rw [hsame]
        omega
      · -- the listener has asked although nothing was left
        refine told_follow more _ ?_
        have hreceived := hheard.received.length_le
        cases turn with
        | signals | watches | drops | leaves => exact absurd hreceived (by simpa using hleft)
        | listens =>
            have hnothing : state.queued = [] := by
              apply List.drop_eq_nil_of_le
              rw [List.count_singleton_self] at hleft
              omega
            have hlistens := state.listen_listens
            rw [Watching.turn]
            generalize state.listen = next at hlistens
            cases hlistens with
            | takes listening queued_eq => exact nomatch hnothing.symm.trans queued_eq
            | ends => rfl
            | waits not_ended =>
                exact absurd (hover.symm.trans (not_ended hlistening).2) (by simp)

/-! ## The report -/

/-- What is to be said of a watch, however the turns have fallen. -/
structure Report (readings : Nat → Option TerminalSize) (turns : List WatchingTurn) : Prop where
  /-- The thread makes a first reading without being asked to. -/
  first : (after readings (turns ++ [.watches])).made ≠ 0
  /-- It makes one more for a signal that wakes it up, and no others. -/
  wakes : (after readings turns).watch.running = true → .drops ∉ turns →
    (after readings (turns ++ [.signals, .watches])).made = (after readings turns).made + 1
  made_le : (after readings turns).made ≤ 1 + turns.count .signals
  /-- As long as the listener is there, the readings that succeed are sent, and none ends the
  watch. -/
  heard : .leaves ∉ turns →
    (after readings turns).watch.sent = sizesRead readings (after readings turns).made ∧
      (.drops ∉ turns → (after readings turns).watch.running = true)
  /-- The listener gets what was sent, in order, one size whenever it asks. -/
  received : (after readings turns).received <+: (after readings turns).watch.sent
  keeps_up : ∀ more, .leaves ∉ turns ++ more →
    min (after readings turns).watch.sent.length
        ((after readings turns).received.length + more.count .listens) ≤
      (after readings (turns ++ more)).received.length
  /-- When the listener is gone, the next reading that succeeds ends the watch, and no other. -/
  unheard : .leaves ∈ turns → (after readings turns).watch.running = true → ∀ more,
    Unheard readings (after readings turns).made (after readings turns).watch.sent
      (after readings (turns ++ more))
  /-- Dropping the watch comes to an end, with the first reading at most. -/
  dropped : .drops ∈ turns → ∀ more,
    (after readings (turns ++ more)).made ≤ max (after readings turns).made 1 ∧
      (2 ≤ more.count .watches → (after readings (turns ++ more)).watch.running = false)
  /-- A watch that has ended reads and sends nothing more. -/
  ended : (after readings turns).watch.running = false → ∀ more,
    Over (after readings turns).made (after readings turns).watch.sent
      (after readings (turns ++ more))
  /-- Its listener is told so when it has got everything, and not before. -/
  told : (after readings turns).told = true →
    (after readings turns).watch.running = false ∧
      (after readings turns).received = (after readings turns).watch.sent
  ends : (after readings turns).watch.running = false → ∀ more, .leaves ∉ turns ++ more →
    (after readings turns).watch.sent.length <
        (after readings turns).received.length + more.count .listens →
      (after readings (turns ++ more)).told = true

theorem listening_after {turns : List WatchingTurn} (hstays : .leaves ∉ turns) :
    (after readings turns).watch.listening = true :=
  (listening_follow readings turns {}).mpr ⟨rfl, hstays⟩

theorem dropped_after (readings : Nat → Option TerminalSize) (turns : List WatchingTurn) :
    (after readings turns).dropped = true ↔ .drops ∈ turns := by
  refine (dropped_follow readings turns {}).trans ?_
  simp

theorem not_dropped_after (readings : Nat → Option TerminalSize) {turns : List WatchingTurn}
    (hdrops : .drops ∉ turns) : (after readings turns).dropped = false :=
  Bool.eq_false_iff.mpr fun hdropped => hdrops ((dropped_after readings turns).mp hdropped)

theorem made_first (readings : Nat → Option TerminalSize) (turns : List WatchingTurn) :
    (after readings (turns ++ [.watches])).made ≠ 0 := by
  have hbegun := (answers_after readings turns).begun
  rw [after_append]
  show ((after readings turns).act readings).made ≠ 0
  by_cases hfirst : (after readings turns).made = 0
  · rw [act, if_pos (hbegun hfirst), if_pos hfirst]
    exact Nat.succ_ne_zero _
  · have hacts := act_acts readings (after readings turns)
    generalize (after readings turns).act readings = next at hacts
    cases hacts with
    | fails | sends | ends => exact Nat.succ_ne_zero _
    | stops | rests => exact hfirst

theorem made_woken {turns : List WatchingTurn}
    (hrunning : (after readings turns).watch.running = true) (hdrops : .drops ∉ turns) :
    (after readings (turns ++ [.signals, .watches])).made = (after readings turns).made + 1 := by
  have hdropped := not_dropped_after readings hdrops
  rw [after_append]
  show (act readings { after readings turns with signalled := true }).made = _
  unfold act
  dsimp only
  rw [if_pos hrunning, hdropped]
  split <;> rfl

/-- **A listener gets the sizes that were read, in order, and nothing else.**  A reading that
fails makes no difference to it or to the watch, and one that nobody wants is the last.  After the
watch has been dropped, the listener gets what is left and is told the end. -/
theorem sizes_reported (readings : Nat → Option TerminalSize) (turns : List WatchingTurn) :
    Report readings turns where
  first := made_first readings turns
  wakes := made_woken
  made_le := by
    have hmade := (answers_after readings turns).made_le
    omega
  heard := by
    intro hstays
    have hheard := heard_after readings turns
    refine ⟨hheard.sent_eq (listening_after hstays), fun hdrops => ?_⟩
    exact hheard.running (listening_after hstays) (not_dropped_after readings hdrops)
  received := (heard_after readings turns).received
  keeps_up := by
    intro more hstays
    rw [List.mem_append, not_or] at hstays
    rw [after_append]
    exact received_follow more _ (listening_after hstays.1) hstays.2
  unheard := by
    intro hleaves hrunning more
    have hgone : (after readings turns).watch.listening = false := by
      apply Bool.eq_false_iff.mpr
      exact fun h => ((listening_follow readings turns {}).mp h).2 hleaves
    rw [after_append]
    exact (unheard_start hgone hrunning).follow more
  dropped := by
    intro hdrops more
    have hdropped := (dropped_after readings turns).mpr hdrops
    rw [after_append]
    refine ⟨made_of_dropped more _ hdropped, fun htwo => ?_⟩
    apply over_of_dropped more _ hdropped <;> omega
  ended := by
    intro hover more
    rw [after_append]
    exact over_follow readings hover more
  told := (heard_after readings turns).told
  ends := by
    intro hover more hstays hlt
    rw [List.mem_append, not_or] at hstays
    rw [after_append]
    exact told_of_over more _ (heard_after readings turns) hover (listening_after hstays.1)
      hstays.2 hlt

/-- The second reading fails, the third answers two signals, and the fourth one finds the listener
gone. -/
example :
    let readings := fun index => if index = 1 then none else some ⟨.ofNat (80 + index), 24⟩
    let turns : List WatchingTurn :=
      [.signals, .watches, .watches, .signals, .signals, .watches, .watches, .listens, .leaves,
        .signals, .watches]
    after readings turns =
      { watch := { running := false, listening := false, sent := [⟨80, 24⟩, ⟨82, 24⟩] }
        made := 4
        received := [⟨80, 24⟩] } := by
  decide

end Watching

end ContainerAttach
