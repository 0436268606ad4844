import ContainerAttach.Proofs.Keys.History
import ContainerAttach.Proofs.Input.Forwarding

/-!
# Nothing is held without need

A scanner does not know what will be typed next.  A byte that may still turn out to
belong to the keys must be held, and what is held delays the container's input, so
everything else should be released at once.

`DetachScanner.outputOf` is what the scanner still puts out if its input goes on in some
way: until the keys are complete, or with what is left given up at the end of the
input.  Together with the bytes released before, this is what gets through of the whole
input (`Passes`), however the input goes on and is cut.

The input can always end here, or go on with the keys that are missing.  The one lets
all of the input through, the other nothing of what is held
(`DetachScanner.Watches.scan_missing`).  So the bytes released so far are the longest
that every continuation has in common, and no scanner could release more of them
(`Bench.current_run_tight`).
-/

namespace ContainerAttach

open Keys

/-- What gets through of an input: what comes before the keys where they are complete for
the first time, and everything if they are not in it. -/
inductive Keys.Passes (keys input : Bytes) : Bytes → Prop
  | cut {front : Bytes} (ne_nil : keys ≠ []) (earliest : EarliestAfter keys input front) :
      Passes keys input front
  | whole (not_typed : ¬ Typed keys input) : Passes keys input input

/-- What the scanner still puts out if it is fed the chunks, unless they complete the keys,
and then gives up what it holds. -/
def DetachScanner.outputOf (scanner : DetachScanner) : List Bytes → Bytes
  | [] => scanner.giveUp.1
  | chunk :: chunks =>
    match scanner.scan chunk with
    | ⟨released, _, true⟩ => released
    | ⟨released, scanner, false⟩ => released ++ scanner.outputOf chunks

/-- What the bytes released so far are among all that the input can still lead to. -/
structure Watch.Tight (keys : Bytes) (watch : Watch) : Prop where
  passes : ∀ chunks, Passes keys (watch.fed ++ chunks.flatten)
    (watch.released ++ watch.scanner.outputOf chunks)
  /-- They begin whatever is put out in the end, and nothing longer does. -/
  longest : ∀ text, text <+: watch.released ↔
    ∀ chunks, text <+: watch.released ++ watch.scanner.outputOf chunks
  /-- They come before the keys, wherever these are typed. -/
  before_keys : ∀ more front, keys ≠ [] → EarliestAfter keys (watch.fed ++ more) front →
    watch.released <+: front
  /-- What is held begins the keys, and if the rest of them follows, nothing of it gets
  through. -/
  needed : keys ≠ [] → ∃ missing, watch.scanner.held ++ missing = keys ∧
    watch.scanner.scan missing = ⟨[], .ofKeys keys, true⟩

namespace DetachScanner

variable {scanner : DetachScanner} {keys input released : Bytes}

/-! ## The output of every continuation -/

theorem outputOf_cons_of_detached {chunk : Bytes}
    (hdetached : (scanner.scan chunk).detached = true) (chunks : List Bytes) :
    scanner.outputOf (chunk :: chunks) = (scanner.scan chunk).released := by
  rcases hscan : scanner.scan chunk with ⟨emitted, after, detached⟩
  rw [hscan] at hdetached
  obtain rfl : detached = true := hdetached
  rw [outputOf, hscan]

theorem outputOf_cons_of_not_detached {chunk : Bytes}
    (hdetached : (scanner.scan chunk).detached = false) (chunks : List Bytes) :
    scanner.outputOf (chunk :: chunks) =
      (scanner.scan chunk).released ++ (scanner.scan chunk).scanner.outputOf chunks := by
  rcases hscan : scanner.scan chunk with ⟨emitted, after, detached⟩
  rw [hscan] at hdetached
  obtain rfl : detached = false := hdetached
  rw [outputOf, hscan]

/-- However the input goes on, the scanner puts out what gets through of it. -/
theorem Watches.passes (chunks : List Bytes) :
    ∀ {scanner : DetachScanner} {input released : Bytes},
      scanner.Watches keys input released →
        Passes keys (input ++ chunks.flatten) (released ++ scanner.outputOf chunks) := by
  induction chunks with
  | nil =>
      intro scanner input released hwatches
      have hall : released ++ scanner.outputOf [] = input := hwatches.released_held
      rw [hall, List.flatten_nil, List.append_nil]
      exact .whole hwatches.not_typed
  | cons chunk chunks ih =>
      intro scanner input released hwatches
      rw [List.flatten_cons]
      cases hdetached : (scanner.scan chunk).detached with
      | false =>
          have hrest := ih (hwatches.scan_of_not_detached hdetached)
          rwa [outputOf_cons_of_not_detached hdetached, ← List.append_assoc, ← List.append_assoc]
      | true =>
          obtain ⟨-, typed, rest, rfl, hjust, hreleased⟩ := hwatches.scan_of_detached hdetached
          rw [outputOf_cons_of_detached hdetached]
          rw [← hreleased] at hjust
          refine .cut hjust.ne_nil (hjust.earliestAfter ?_)
          rw [hreleased, List.append_assoc typed, ← List.append_assoc input]
          exact List.prefix_append _ _

/-! ## What is held -/

/-- What is held begins the keys, and the missing ones complete them and release nothing. -/
theorem Watches.scan_missing (hwatches : scanner.Watches keys input released)
    (hkeys : keys ≠ []) : ∃ missing, scanner.held ++ missing = keys ∧
      scanner.scan missing = ⟨[], .ofKeys keys, true⟩ := by
  obtain ⟨missing, hmissing⟩ := (hwatches.longestStart hkeys).prefix_keys
  refine ⟨missing, hmissing, ?_⟩
  have hinput : input ++ missing = released ++ keys := by
    rw [← hwatches.released_held, List.append_assoc, hmissing]
  have hdetached : (scanner.scan missing).detached = true := by
    refine hwatches.detached_of_infix hkeys (List.prefix_refl missing) ?_
    rw [hinput]
    exact (List.suffix_append released keys).isInfix
  obtain ⟨hfresh, typed, rest, hsplit, -, hreleased⟩ := hwatches.scan_of_detached hdetached
  -- at most the missing keys were needed, so nothing is left over to be released
  have hnothing : (scanner.scan missing).released = [] := by
    have hlength := congrArg List.length hreleased
    have hlength' := congrArg List.length hinput
    have hsplit' := congrArg List.length hsplit
    simp only [List.length_append] at hlength hlength' hsplit'
    exact List.eq_nil_of_length_eq_zero (by omega)
  generalize scanner.scan missing = scan at hdetached hfresh hnothing ⊢
  obtain ⟨emitted, after, detached⟩ := scan
  obtain rfl : emitted = [] := hnothing
  obtain rfl : after = .ofKeys keys := hfresh
  obtain rfl : detached = true := hdetached
  rfl

/-- Some continuation puts nothing out: none at all if nothing is held, else the missing
keys. -/
theorem Watches.exists_outputOf_eq_nil (hwatches : scanner.Watches keys input released) :
    ∃ chunks, scanner.outputOf chunks = [] := by
  by_cases hkeys : keys = []
  · refine ⟨[], ?_⟩
    show scanner.held = []
    rw [held_eq_take hwatches.keys_eq, hkeys, List.take_nil]
  · obtain ⟨missing, -, hscan⟩ := hwatches.scan_missing hkeys
    refine ⟨[missing], ?_⟩
    rw [outputOf_cons_of_detached (by rw [hscan]), hscan]

theorem Watches.tight {watch : Watch} (hwatched : watch.Watched keys) : watch.Tight keys where
  passes chunks := hwatched.passes chunks
  longest := by
    intro text
    constructor
    · intro hstart chunks
      exact hstart.trans (List.prefix_append _ _)
    · intro hcommon
      obtain ⟨chunks, hnothing⟩ := hwatched.exists_outputOf_eq_nil
      have hstart := hcommon chunks
      rwa [hnothing, List.append_nil] at hstart
  before_keys := by
    intro more front hkeys hearliest
    have hpasses := hwatched.passes [more]
    rw [List.flatten_singleton] at hpasses
    generalize houtput : watch.released ++ watch.scanner.outputOf [more] = output at hpasses
    cases hpasses with
    | cut ne_nil earliest =>
        rw [hearliest.eq earliest, ← houtput]
        exact List.prefix_append _ _
    | whole not_typed =>
        have hwithin : keys <:+: watch.fed ++ more :=
          (List.suffix_append front keys).isInfix.trans hearliest.occurs.isInfix
        exact absurd ⟨hkeys, hwithin⟩ not_typed
  needed hkeys := hwatched.scan_missing hkeys

end DetachScanner

/-- **A scanner holds as little as it can.**  After any history, the bytes released since it
was last fresh are the longest that begin the output of every continuation of the input:
none of them belongs to the keys, whatever is typed next, and all that is held does if the
missing keys are. -/
theorem Bench.current_run_tight (keys : Bytes) (operations : List Operation) :
    ((ofKeys keys).run operations).current.Tight keys :=
  DetachScanner.Watches.tight (run_watched operations _ (watched_ofKeys keys)).current

/-- Of a repeated beginning of the keys the older part is released and the newer one held. -/
example : ((Bench.ofKeys [1, 1, 2]).run [.feed [1], .feed [1, 1]]).current.released = [1] ∧
    ((Bench.ofKeys [1, 1, 2]).run [.feed [1], .feed [1, 1]]).current.scanner.held = [1, 1] := by
  cbv

end ContainerAttach
