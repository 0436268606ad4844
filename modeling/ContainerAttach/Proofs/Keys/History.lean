import ContainerAttach.Proofs.Keys.Scanning

/-!
# The scanner through its whole history

A scanner can be fed, made to give up what it holds, kept as a copy and put back
from one, in any order and any number of times.  This file follows such a history
and proves that the scanner never depends on more of it than the bytes fed since
it was last fresh.

A `Watch` is a scanner together with these bytes and those it has released
meanwhile; a copy carries them along.  `Lawful` says everything that a caller can
see of the next call, in terms of these two byte sequences only:

* before the keys are found, nothing is lost, nothing is released too early, and
  nothing is held without need;
* the next chunk finds the keys exactly if they end within it, and then
  everything in front of them has been released and nothing behind them counts.

Every operation takes watched scanners to watched scanners (`Bench.apply_watched`),
so the scanner obeys the law after any sequence of operations
(`Bench.current_run_lawful`).
-/

namespace ContainerAttach

open Keys

/-- The shortest part of a chunk that makes the input so far contain the keys. -/
structure Keys.FirstCompletion (keys input chunk typed : Bytes) : Prop where
  prefix_chunk : typed <+: chunk
  infix_typed : keys <:+: input ++ typed
  shortest : ∀ other, other <+: chunk → keys <:+: input ++ other → typed.length ≤ other.length

/-- A scanner, and what it was fed and has released since it was last fresh. -/
structure Watch where
  scanner : DetachScanner
  fed : Bytes := []
  released : Bytes := []

namespace Watch

/-- The scanner is fed a chunk.  It is fresh again if that completes the keys. -/
def feed (watch : Watch) (chunk : Bytes) : Watch :=
  match watch.scanner.scan chunk with
  | ⟨_, scanner, true⟩ => { scanner := scanner }
  | ⟨released, scanner, false⟩ =>
    { scanner := scanner, fed := watch.fed ++ chunk, released := watch.released ++ released }

/-- The scanner gives up what it holds and is fresh again. -/
def giveUp (watch : Watch) : Watch :=
  { scanner := watch.scanner.giveUp.2 }

/-- What the history of a scanner says of its next chunk. -/
structure Lawful (keys : Bytes) (watch : Watch) : Prop where
  released_held : watch.released ++ watch.scanner.held = watch.fed
  not_infix : ¬ keys <:+: watch.fed
  longest : LongestStart keys watch.fed watch.scanner.held
  detached_iff : ∀ chunk, (watch.scanner.scan chunk).detached = true ↔
    ∃ typed, typed <+: chunk ∧ keys <:+: watch.fed ++ typed
  completion : ∀ chunk, (watch.scanner.scan chunk).detached = true →
    ∃ typed, FirstCompletion keys watch.fed chunk typed ∧
      watch.released ++ (watch.scanner.scan chunk).released ++ keys = watch.fed ++ typed ∧
      watch.scanner.scan chunk = watch.scanner.scan typed ∧
      (watch.scanner.scan chunk).scanner.held = []

/-- The scanner has seen what its history says. -/
abbrev Watched (keys : Bytes) (watch : Watch) : Prop :=
  watch.scanner.Watches keys watch.fed watch.released

end Watch

/-! ## Operations -/

/-- What can be done with a scanner and its copies, which are kept under numbers. -/
inductive Operation where
  | feed (chunk : Bytes)
  | giveUp
  | save (slot : Nat)
  | restore (slot : Nat)

/-- A scanner in use, and the copies of it that were kept. -/
structure Bench where
  current : Watch
  saved : Nat → Watch

namespace Bench

/-- A new scanner, of which nothing but copies as new as itself has been kept. -/
def ofKeys (keys : Bytes) : Bench :=
  { current := { scanner := .ofKeys keys }, saved := fun _ => { scanner := .ofKeys keys } }

def apply (bench : Bench) : Operation → Bench
  | .feed chunk => { bench with current := bench.current.feed chunk }
  | .giveUp => { bench with current := bench.current.giveUp }
  | .save slot =>
    { bench with saved := fun other => if other = slot then bench.current else bench.saved other }
  | .restore slot => { bench with current := bench.saved slot }

def run (bench : Bench) (operations : List Operation) : Bench :=
  operations.foldl apply bench

/-- Every scanner on the bench has seen what its history says. -/
structure Watched (keys : Bytes) (bench : Bench) : Prop where
  current : bench.current.Watched keys
  saved : ∀ slot, (bench.saved slot).Watched keys

end Bench

/-! ## The law of a watched scanner -/

theorem Keys.JustTyped.firstCompletion {keys input typed rest : Bytes}
    (hjust : JustTyped keys (input ++ typed)) :
    FirstCompletion keys input (typed ++ rest) typed := by
  refine ⟨List.prefix_append _ _, hjust.suffix.isInfix, ?_⟩
  intro other hstart hwithin
  by_cases hle : typed.length ≤ other.length
  · exact hle
  · -- a shorter part would have completed the keys before
    have hshorter : other <+: typed :=
      List.prefix_of_prefix_length_le hstart (List.prefix_append _ _) (by omega)
    refine absurd ⟨hjust.ne_nil, hwithin⟩ (hjust.first (input ++ other) ?_ ?_)
    · exact (List.prefix_append_right_inj input).mpr hshorter
    · intro heq
      have := congrArg List.length (List.append_cancel_left heq)
      omega

namespace DetachScanner

variable {scanner : DetachScanner} {keys input released : Bytes}

theorem Watches.not_infix (hwatches : scanner.Watches keys input released) (hkeys : keys ≠ []) :
    ¬ keys <:+: input :=
  fun hwithin => hwatches.not_typed ⟨hkeys, hwithin⟩

theorem Watches.longestStart (hwatches : scanner.Watches keys input released)
    (hkeys : keys ≠ []) : LongestStart keys input scanner.held := by
  rw [held_eq_take hwatches.keys_eq]
  exact (hwatches.longest hkeys).longestStart

/-- The keys are found in every chunk whose beginning completes them. -/
theorem Watches.detached_of_infix (hwatches : scanner.Watches keys input released)
    (hkeys : keys ≠ []) {chunk typed : Bytes} (hstart : typed <+: chunk)
    (hwithin : keys <:+: input ++ typed) : (scanner.scan chunk).detached = true := by
  cases hdetached : (scanner.scan chunk).detached with
  | true => rfl
  | false =>
      obtain ⟨rest, rfl⟩ := hstart
      have hwatches' := hwatches.scan_of_not_detached hdetached
      refine absurd (hwithin.trans ?_) (hwatches'.not_infix hkeys)
      rw [← List.append_assoc]
      exact (List.prefix_append _ _).isInfix

theorem Watches.completion (hwatches : scanner.Watches keys input released) (hkeys : keys ≠ [])
    {chunk : Bytes} (hdetached : (scanner.scan chunk).detached = true) :
    ∃ typed, FirstCompletion keys input chunk typed ∧
      released ++ (scanner.scan chunk).released ++ keys = input ++ typed ∧
      scanner.scan chunk = scanner.scan typed ∧ (scanner.scan chunk).scanner.held = [] := by
  obtain ⟨hfresh, typed, rest, rfl, hjust, hreleased⟩ := hwatches.scan_of_detached hdetached
  refine ⟨typed, hjust.firstCompletion, hreleased, ?_, by rw [hfresh, held_ofKeys]⟩
  exact scan_append_of_detached
    (hwatches.detached_of_infix hkeys (List.prefix_refl typed) hjust.suffix.isInfix) rest

theorem Watches.lawful {watch : Watch} (hwatched : watch.Watched keys) (hkeys : keys ≠ []) :
    watch.Lawful keys where
  released_held := hwatched.released_held
  not_infix := hwatched.not_infix hkeys
  longest := hwatched.longestStart hkeys
  detached_iff := by
    intro chunk
    constructor
    · intro hdetached
      obtain ⟨typed, hfirst, -⟩ := hwatched.completion hkeys hdetached
      exact ⟨typed, hfirst.prefix_chunk, hfirst.infix_typed⟩
    · rintro ⟨typed, hstart, hwithin⟩
      exact hwatched.detached_of_infix hkeys hstart hwithin
  completion := fun _ => hwatched.completion hkeys

/-- A scanner without keys passes everything and holds nothing. -/
theorem Watches.scan_nil (hwatches : scanner.Watches [] input released) (chunk : Bytes) :
    scanner.scan chunk = ⟨chunk, scanner, false⟩ ∧ scanner.held = [] := by
  constructor
  · rw [DetachScanner.scan, if_neg fun h => (hasKeys_eq_true_iff hwatches.keys_eq).mp h rfl]
  · rw [held_eq_take hwatches.keys_eq, List.take_nil]

end DetachScanner

/-! ## Every operation keeps the law -/

namespace Bench

theorem watched_ofKeys (keys : Bytes) : (ofKeys keys).Watched keys :=
  ⟨DetachScanner.watches_ofKeys keys, fun _ => DetachScanner.watches_ofKeys keys⟩

theorem feed_watched {keys : Bytes} {watch : Watch} (hwatched : watch.Watched keys)
    (chunk : Bytes) : (watch.feed chunk).Watched keys := by
  unfold Watch.feed
  split
  · next after hscan =>
    have hfresh := (DetachScanner.Watches.scan_of_detached hwatched (by rw [hscan])).1
    rw [hscan] at hfresh
    rw [show after = .ofKeys keys from hfresh]
    exact DetachScanner.watches_ofKeys keys
  · next hscan =>
    have hwatches := DetachScanner.Watches.scan_of_not_detached hwatched (by rw [hscan])
    rwa [hscan] at hwatches

theorem giveUp_watched {keys : Bytes} {watch : Watch} (hwatched : watch.Watched keys) :
    watch.giveUp.Watched keys := by
  have hreset : watch.scanner.giveUp.2 = .ofKeys keys :=
    DetachScanner.Watches.reset_eq hwatched
  show DetachScanner.Watches watch.scanner.giveUp.2 keys [] []
  rw [hreset]
  exact DetachScanner.watches_ofKeys keys

theorem apply_watched {keys : Bytes} {bench : Bench} (hwatched : bench.Watched keys)
    (operation : Operation) : (bench.apply operation).Watched keys := by
  cases operation with
  | feed chunk => exact ⟨feed_watched hwatched.current chunk, hwatched.saved⟩
  | giveUp => exact ⟨giveUp_watched hwatched.current, hwatched.saved⟩
  | restore slot => exact ⟨hwatched.saved slot, hwatched.saved⟩
  | save slot =>
      refine ⟨hwatched.current, ?_⟩
      intro other
      simp only [apply]
      split
      · -- the copy carries the history of what it was made from
        exact hwatched.current
      · exact hwatched.saved other

theorem run_watched {keys : Bytes} (operations : List Operation) :
    ∀ bench : Bench, bench.Watched keys → (bench.run operations).Watched keys := by
  induction operations with
  | nil => exact fun _ hwatched => hwatched
  | cons operation operations ih =>
      exact fun bench hwatched => ih (bench.apply operation) (apply_watched hwatched operation)

/-- **After any history the scanner obeys its law.**  With keys, the bytes fed and released
since it was last fresh tell what it holds and what the next chunk does; without keys it
passes every chunk. -/
theorem current_run_lawful (keys : Bytes) (operations : List Operation) :
    (keys ≠ [] → ((ofKeys keys).run operations).current.Lawful keys) ∧
      (keys = [] → ∀ chunk,
        ((ofKeys keys).run operations).current.scanner.scan chunk =
          ⟨chunk, ((ofKeys keys).run operations).current.scanner, false⟩ ∧
        ((ofKeys keys).run operations).current.scanner.held = []) := by
  have hwatched := (run_watched operations _ (watched_ofKeys keys)).current
  refine ⟨DetachScanner.Watches.lawful hwatched, ?_⟩
  rintro rfl chunk
  exact DetachScanner.Watches.scan_nil hwatched chunk

end Bench

end ContainerAttach
