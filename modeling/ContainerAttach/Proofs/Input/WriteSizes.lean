import ContainerAttach.Proofs.Input.Messages
import ContainerAttach.Proofs.Input.Refusals
import ContainerAttach.Proofs.Keys.History

/-!
# The sizes of the writes

What a read releases is what was held before it and what it has read, less what is held after
it.  Something is held only if more of the keys could follow, so it is shorter than they are, and
no write is longer than a buffer and all keys but one (`writeLimit`).  A run writes only
what a read has released, and nothing if that is nothing (`ForwardTurn.Sparing`).

The limit is the best one.  A source that gives all keys but the last one, each in a read of its
own, and then a whole buffer of a byte that is none of the keys, makes the scanner hold all of
them until it releases them at once (`forward_teasing`).
-/

namespace ContainerAttach

open Keys

/-! ## What a read releases -/

/-- The length of the longest write that forwarding can make. -/
def writeLimit (keys : Bytes) : Nat :=
  forwardCapacity + max keys.length 1 - 1

section Released

variable {scanner : DetachScanner} {keys input released : Bytes}

/-- Something is held only if more of the keys could follow. -/
theorem DetachScanner.Watches.length_held_le (hwatches : scanner.Watches keys input released) :
    scanner.held.length ≤ max keys.length 1 - 1 := by
  rw [held_eq_take hwatches.keys_eq, List.length_take]
  by_cases hkeys : keys = []
  · rw [hkeys, List.length_nil]
    omega
  · have hlt := (hwatches.longest hkeys).lt
    omega

theorem DetachScanner.Watches.length_output_le (hwatches : scanner.Watches keys input released)
    {result : ReadResult} (hfits : result.Fits forwardCapacity) :
    (scanner.react result).output.length ≤ writeLimit keys := by
  have hheld := hwatches.length_held_le
  have hbefore := congrArg List.length hwatches.released_held
  have hreacts := hwatches.react result
  generalize (scanner.react result).output = output at hreacts
  generalize (scanner.react result).next = next at hreacts
  rw [writeLimit]
  rw [List.length_append] at hbefore
  cases hreacts with
  | finish emitted_eq =>
      rw [emitted_eq]
      omega
  | @goOn chunk _ after ne_nil watches =>
      have hchunk : chunk.length ≤ forwardCapacity := hfits
      have hafter := congrArg List.length watches.released_held
      simp only [List.length_append] at hafter
      omega
  | @detach chunk _ typed rest ne_nil split just released_keys =>
      have hchunk : chunk.length ≤ forwardCapacity := hfits
      have hafter := congrArg List.length released_keys
      rw [split, List.length_append] at hchunk
      simp only [List.length_append] at hafter
      omega
  | retry | fail => exact Nat.zero_le _

/-- A scanner that is to go on still watches its input. -/
theorem DetachScanner.Watches.goesOn (hwatches : scanner.Watches keys input released)
    {result : ReadResult} {output : Bytes} {after : DetachScanner}
    (hreact : scanner.react result = ⟨output, .goOn after⟩) :
    ∃ input released, after.Watches keys input released := by
  have hreacts := hwatches.react result
  rw [hreact] at hreacts
  cases hreacts with
  | goOn ne_nil watches => exact ⟨_, _, watches⟩
  | retry => exact ⟨_, _, hwatches⟩

end Released

/-! ## The writes of one turn -/

/-- The sink has taken all that it was offered. -/
def Call.IsWhole : Call → Prop
  | .write offered answer => answer = .accepted offered.length
  | .flush _ => True

/-- What is written of some bytes is never nothing, and all of it at once if the sink takes it. -/
structure Call.Offer (bytes : Bytes) (calls : List Call) : Prop where
  writes : ∀ call ∈ calls,
    ∃ offered answer, call = .write offered answer ∧ offered ≠ [] ∧ offered <:+ bytes
  once : (∀ call ∈ calls, call.IsWhole) → calls.length ≤ 1

theorem Call.offer_singleton {bytes : Bytes} (hbytes : bytes ≠ []) (answer : WriteResult) :
    Call.Offer bytes [.write bytes answer] := by
  refine ⟨?_, fun _ => Nat.le_refl 1⟩
  intro call hcall
  exact ⟨bytes, answer, List.mem_singleton.mp hcall, hbytes, List.suffix_refl bytes⟩

/-- A write of which something is left, and the writes of that. -/
theorem Call.Offer.cons {bytes rest : Bytes} {calls : List Call} (hoffer : Call.Offer rest calls)
    (hbytes : bytes ≠ []) (hrest : rest <:+ bytes) {answer : WriteResult}
    (hleft : answer = .accepted bytes.length → rest = []) :
    Call.Offer bytes (.write bytes answer :: calls) := by
  constructor
  · intro call hcall
    rcases List.mem_cons.mp hcall with hfirst | hlater
    · exact ⟨bytes, answer, hfirst, hbytes, List.suffix_refl bytes⟩
    · obtain ⟨offered, later, hwrite, hne, hsuffix⟩ := hoffer.writes call hlater
      exact ⟨offered, later, hwrite, hne, hsuffix.trans hrest⟩
  · intro hwhole
    have hnothing : calls = [] := by
      -- nothing of the bytes is left, and nothing else can be offered
      apply List.eq_nil_iff_forall_not_mem.mpr
      intro call hcall
      obtain ⟨offered, later, -, hne, hsuffix⟩ := hoffer.writes call hcall
      have hall : answer = .accepted bytes.length := hwhole _ List.mem_cons_self
      rw [hleft hall] at hsuffix
      exact hne (List.suffix_nil.mp hsuffix)
    rw [hnothing]
    exact Nat.le_refl 1

theorem Sink.writeAll_offers (sink : Sink) (bytes : Bytes) :
    ∃ calls, sink.Calls calls (sink.writeAll bytes).2 ∧ Call.Offer bytes calls := by
  fun_induction writeAll sink bytes with
  | case1 sink => exact ⟨[], .nil sink, by simp, by simp⟩
  | case2 sink bytes hbytes rest hwrite =>
      exact ⟨_, calls_write hwrite, Call.offer_singleton hbytes _⟩
  | case3 sink bytes hbytes count rest hwrite ih =>
      obtain ⟨calls, hcalls, hoffer⟩ := ih
      refine ⟨_, (calls_write hwrite).append hcalls,
        hoffer.cons hbytes (List.drop_suffix _ _) fun hall => ?_⟩
      have hcount : count + 1 = bytes.length := WriteResult.accepted.inj hall
      rw [hcount, List.drop_length]
  | case4 sink bytes hbytes error rest hwrite hinterrupted ih =>
      obtain ⟨calls, hcalls, hoffer⟩ := ih
      exact ⟨_, (calls_write hwrite).append hcalls,
        hoffer.cons hbytes (List.suffix_refl bytes) fun hall => WriteResult.noConfusion hall⟩
  | case5 sink bytes hbytes error rest hwrite hinterrupted =>
      exact ⟨_, calls_write hwrite, Call.offer_singleton hbytes _⟩
  | case6 sink bytes hbytes rest hwrite =>
      exact ⟨_, calls_write hwrite, Call.offer_singleton hbytes _⟩

/-- A read and its writes: no empty one, none beyond the limit, and one at most if it is taken
whole.  A read that fails writes nothing. -/
structure ForwardTurn.Sparing (limit : Nat) (turn : ForwardTurn) : Prop where
  writes : ∀ call ∈ turn.calls,
    ∃ offered answer, call = .write offered answer ∧ offered ≠ [] ∧ offered.length ≤ limit
  once : (∀ call ∈ turn.calls, call.IsWhole) → turn.calls.length ≤ 1
  failed : ∀ error, turn.read = .failed error → turn.calls = []

theorem DetachScanner.output_of_failed (scanner : DetachScanner) (error : IoError) :
    (scanner.react (.failed error)).output = [] := by
  rw [react]
  split <;> rfl

theorem DetachScanner.Watches.sparing {scanner : DetachScanner} {keys input released : Bytes}
    (hwatches : scanner.Watches keys input released) {result : ReadResult}
    (hfits : result.Fits forwardCapacity) {calls : List Call}
    (hoffer : Call.Offer (scanner.react result).output calls) :
    ForwardTurn.Sparing (writeLimit keys) ⟨result, calls⟩ := by
  refine ⟨?_, hoffer.once, ?_⟩
  · intro call hcall
    obtain ⟨offered, answer, hwrite, hne, hsuffix⟩ := hoffer.writes call hcall
    exact ⟨offered, answer, hwrite, hne,
      Nat.le_trans hsuffix.length_le (hwatches.length_output_le hfits)⟩
  · rintro error rfl
    apply List.eq_nil_iff_forall_not_mem.mpr
    intro call hcall
    obtain ⟨offered, answer, -, hne, hsuffix⟩ := hoffer.writes call hcall
    rw [scanner.output_of_failed] at hsuffix
    exact hne (List.suffix_nil.mp hsuffix)

/-! ## The writes of a run -/

/-- A run is a list of such turns, and only the last of them can have read the end of the
input. -/
theorem forward_sparing (keys : Bytes) (source : Source) :
    ∀ (scanner : DetachScanner) (sink : Sink) (input released : Bytes) (written : Nat),
      scanner.Watches keys input released → ∃ turns,
        source.Answers forwardCapacity (readsOf turns)
          (forward source scanner sink written).2.1 ∧
        sink.Calls (callsOf turns) (forward source scanner sink written).2.2 ∧
        (∀ turn ∈ turns, turn.Sparing (writeLimit keys)) ∧
        (readsOf turns).count (.data []) ≤ 1 := by
  induction hremaining : source.remaining using Nat.strongRecOn generalizing source with
  | _ remaining ih =>
      intro scanner sink input released written hwatches
      rcases hread : source.read forwardCapacity with ⟨result, rest⟩
      rcases hreact : scanner.react result with ⟨output, next⟩
      obtain ⟨calls, hcalls, hoffer⟩ := sink.writeAll_offers output
      rcases hwrite : sink.writeAll output with ⟨stop, after⟩
      rw [hwrite] at hcalls
      have hsparing : ForwardTurn.Sparing (writeLimit keys) ⟨result, calls⟩ := by
        apply hwatches.sparing (Source.fits_read hread)
        rwa [hreact]
      -- a run that ends with this read has this turn only
      have hone : ∃ turns, source.Answers forwardCapacity (readsOf turns) rest ∧
          sink.Calls (callsOf turns) after ∧
          (∀ turn ∈ turns, turn.Sparing (writeLimit keys)) ∧
          (readsOf turns).count (.data []) ≤ 1 := by
        refine ⟨[⟨result, calls⟩], .read hread (.nil rest), ?_,
          List.forall_mem_singleton.mpr hsparing, List.count_le_length⟩
        rw [callsOf_cons]
        exact hcalls.append (.nil after)
      cases stop with
      | failed cause =>
          rw [forward_of_stop hread hreact hwrite (by simp)]
          exact hone
      | crashed =>
          rw [forward_of_stop hread hreact hwrite (by simp)]
          exact hone
      | done value =>
          cases hend : next.ending? (written + output.length) with
          | some ending =>
              rw [forward_of_end hread hreact hwrite hend]
              exact hone
          | none =>
              obtain ⟨scanner', rfl⟩ := Continuation.exists_goOn hend
              have hresult : result ≠ .data [] := by
                rintro rfl
                simp at hreact
              have hlt : rest.remaining < remaining := by
                rw [← hremaining]
                exact Source.remaining_read_lt hread hresult
              obtain ⟨input', released', hstill⟩ := hwatches.goesOn hreact
              obtain ⟨turns, hreads, hmore, hall, hcount⟩ := ih rest.remaining hlt rest rfl
                scanner' after input' released' (written + output.length) hstill
              rw [forward_of_writeAll hread hreact hwrite]
              refine ⟨⟨result, calls⟩ :: turns, .read hread hreads, ?_,
                List.forall_mem_cons.mpr ⟨hsparing, hall⟩, ?_⟩
              · rw [callsOf_cons]
                exact hcalls.append hmore
              · rw [readsOf, List.map_cons, List.count_cons_of_ne (by simpa using hresult)]
                exact hcount

/-! ## Counting -/

/-- The read has given some bytes. -/
def ReadResult.isChunk : ReadResult → Bool
  | .data bytes => !bytes.isEmpty
  | .failed _ => false

/-- A turn makes one call for a chunk or for the end of the input, if all calls are taken whole. -/
theorem ForwardTurn.Sparing.length_calls_le {limit : Nat} {turn : ForwardTurn}
    (hsparing : turn.Sparing limit) (hwhole : ∀ call ∈ turn.calls, call.IsWhole) :
    turn.calls.length ≤
      [turn.read].countP ReadResult.isChunk + [turn.read].count (.data []) := by
  have hone := hsparing.once hwhole
  cases hread : turn.read with
  | failed error =>
      rw [hsparing.failed error hread]
      exact Nat.zero_le _
  | data bytes =>
      cases bytes with
      | nil => exact hone
      | cons byte bytes => exact hone

theorem length_callsOf_le {limit : Nat} {turns : List ForwardTurn}
    (hsparing : ∀ turn ∈ turns, turn.Sparing limit)
    (hwhole : ∀ call ∈ callsOf turns, call.IsWhole) :
    (callsOf turns).length ≤
      (readsOf turns).countP ReadResult.isChunk + (readsOf turns).count (.data []) := by
  induction turns with
  | nil => exact Nat.zero_le _
  | cons turn turns ih =>
      obtain ⟨hfirst, hrest⟩ := List.forall_mem_cons.mp hsparing
      rw [callsOf_cons] at hwhole ⊢
      obtain ⟨hwholeFirst, hwholeRest⟩ := List.forall_mem_append.mp hwhole
      have hone := hfirst.length_calls_le hwholeFirst
      have hlater := ih hrest hwholeRest
      have hchunks : (readsOf (turn :: turns)).countP ReadResult.isChunk =
          [turn.read].countP ReadResult.isChunk + (readsOf turns).countP ReadResult.isChunk := by
        rw [← List.countP_append]
        rfl
      have hends : (readsOf (turn :: turns)).count (.data []) =
          [turn.read].count (.data []) + (readsOf turns).count (.data []) := by
        rw [← List.count_append]
        rfl
      rw [List.length_append]
      omega

namespace Sink

/-- A sink that takes every write whole. -/
structure TakesWhole (sink : Sink) : Prop where
  script : ∀ step ∈ sink.script, step = .all
  buffering : sink.buffering = .none

theorem TakesWhole.write {sink : Sink} (htakes : sink.TakesWhole) (bytes : Bytes) :
    (sink.write bytes).1 = .accepted bytes.length ∧ (sink.write bytes).2.TakesWhole := by
  obtain ⟨script, flushScript, buffering, writes, flushes⟩ := sink
  obtain ⟨hscript, rfl⟩ := htakes
  cases script with
  | nil => exact ⟨rfl, hscript, rfl⟩
  | cons step script =>
      obtain ⟨rfl, hlater⟩ := List.forall_mem_cons.mp hscript
      exact ⟨rfl, hlater, rfl⟩

theorem TakesWhole.flush {sink : Sink} (htakes : sink.TakesWhole) : sink.flush.2.TakesWhole := by
  unfold Sink.flush
  split <;> exact ⟨htakes.script, htakes.buffering⟩

theorem Calls.whole {sink last : Sink} {calls : List Call} (hcalls : sink.Calls calls last)
    (htakes : sink.TakesWhole) : ∀ call ∈ calls, call.IsWhole := by
  induction hcalls with
  | nil sink => simp
  | write offered calls_after ih =>
      obtain ⟨hall, hstill⟩ := htakes.write offered
      exact List.forall_mem_cons.mpr ⟨hall, ih hstill⟩
  | flush calls_after ih => exact List.forall_mem_cons.mpr ⟨trivial, ih htakes.flush⟩

/-- What is recorded of some calls. -/
def recordsOf (calls : List Call) : List WriteRecord :=
  calls.filterMap fun
    | .write offered answer => some ⟨offered.length, offered.take answer.count⟩
    | .flush _ => none

theorem writes_answer (sink : Sink) (bytes : Bytes) (step : WriteStep) :
    (sink.answer bytes step).2.writes = sink.writes ++
      [⟨bytes.length, bytes.take (sink.answer bytes step).1.count⟩] := by
  cases step with
  | all => rfl
  | atMost count =>
      have htake : bytes.take (min count bytes.length) = bytes.take count := by
        rw [← List.take_take, List.take_length]
      simp only [answer, log, WriteResult.count, htake]
  | fail error => rfl
  | crash => rfl

theorem writes_write (sink : Sink) (bytes : Bytes) :
    (sink.write bytes).2.writes = sink.writes ++
      [⟨bytes.length, bytes.take (sink.write bytes).1.count⟩] := by
  unfold write
  split
  · exact writes_answer sink bytes .all
  · next step script _ => exact writes_answer { sink with script := script } bytes step

/-- The records of a sink are those of its calls. -/
theorem Calls.writes {sink last : Sink} {calls : List Call} (hcalls : sink.Calls calls last) :
    last.writes = sink.writes ++ recordsOf calls := by
  induction hcalls with
  | nil sink => exact (List.append_nil _).symm
  | write offered calls_after ih =>
      rw [ih, writes_write, List.append_assoc]
      rfl
  | @flush sink last calls calls_after ih =>
      have hsame : sink.flush.2.writes = sink.writes := by
        unfold Sink.flush
        split <;> rfl
      rw [ih, hsame]
      rfl

theorem flushes_write (sink : Sink) (bytes : Bytes) :
    (sink.write bytes).2.flushes = sink.flushes := by
  have hanswer : ∀ (sink : Sink) (step : WriteStep),
      (sink.answer bytes step).2.flushes = sink.flushes := by
    intro sink step
    cases step <;> rfl
  unfold write
  split
  · exact hanswer sink .all
  · next step script _ => exact hanswer { sink with script := script } step

theorem Calls.flushes {sink last : Sink} {calls : List Call} (hcalls : sink.Calls calls last)
    (hwrites : ∀ call ∈ calls, ∃ offered answer, call = .write offered answer) :
    last.flushes = sink.flushes := by
  induction hcalls with
  | nil sink => rfl
  | write offered calls_after ih =>
      rw [ih fun call hcall => hwrites call (List.mem_cons_of_mem _ hcall), flushes_write]
  | flush calls_after ih =>
      obtain ⟨offered, answer, hflush⟩ := hwrites _ List.mem_cons_self
      exact nomatch hflush

end Sink

/-! ## The account of a run -/

/-- What becomes of a run of the forwarder, told by its turns, as far as the sizes of its writes
go. -/
structure SizeAccount (keys : Bytes) (source : Source) (sink : Sink) (turns : List ForwardTurn)
    (rest : Source) (after : Sink) : Prop where
  reads : source.Answers forwardCapacity (readsOf turns) rest
  calls : sink.Calls (callsOf turns) after
  /-- All calls are writes of something, within the limit. -/
  writes : ∀ call ∈ callsOf turns, ∃ offered answer,
    call = .write offered answer ∧ offered ≠ [] ∧ offered.length ≤ writeLimit keys
  records : ∃ records, after.writes = sink.writes ++ records ∧
    ∀ record ∈ records, 0 < record.offered ∧ record.offered ≤ writeLimit keys
  flushes : after.flushes = sink.flushes
  /-- Without refusals there is one write at most for each chunk and for the end of the input. -/
  one_each : ∀ turn ∈ turns, (∀ call ∈ turn.calls, call.IsWhole) → turn.calls.length ≤
    [turn.read].countP ReadResult.isChunk + [turn.read].count (.data [])
  at_most : sink.TakesWhole → (callsOf turns).length ≤
    (readsOf turns).countP ReadResult.isChunk + (readsOf turns).count (.data [])
  ends_once : (readsOf turns).count (.data []) ≤ 1

theorem forward_sizeAccount (keys : Bytes) (source : Source) (sink : Sink) :
    ∃ turns, SizeAccount keys source sink turns (forward source (.ofKeys keys) sink 0).2.1
      (forward source (.ofKeys keys) sink 0).2.2 := by
  obtain ⟨turns, hreads, hcalls, hsparing, hends⟩ :=
    forward_sparing keys source (.ofKeys keys) sink [] [] 0 (DetachScanner.watches_ofKeys keys)
  have hwrites : ∀ call ∈ callsOf turns, ∃ offered answer,
      call = .write offered answer ∧ offered ≠ [] ∧ offered.length ≤ writeLimit keys := by
    intro call hcall
    obtain ⟨turn, hturn, hmem⟩ := List.mem_flatMap.mp hcall
    exact (hsparing turn hturn).writes call hmem
  refine ⟨turns, hreads, hcalls, hwrites, ⟨_, hcalls.writes, ?_⟩, ?_, ?_, ?_, hends⟩
  · intro record hrecord
    obtain ⟨call, hcall, hsome⟩ := List.mem_filterMap.mp hrecord
    obtain ⟨offered, answer, rfl, hne, hle⟩ := hwrites call hcall
    obtain rfl := Option.some.inj hsome
    exact ⟨List.length_pos_iff.mpr hne, hle⟩
  · apply hcalls.flushes
    intro call hcall
    obtain ⟨offered, answer, hwrite, -, -⟩ := hwrites call hcall
    exact ⟨offered, answer, hwrite⟩
  · intro turn hturn hwhole
    exact (hsparing turn hturn).length_calls_le hwhole
  · intro htakes
    exact length_callsOf_le hsparing (hcalls.whole htakes)

/-! ## A write of that length -/

theorem Source.read_of_fits {bytes : Bytes} (hfits : bytes.length ≤ forwardCapacity)
    (framing : Framing) (steps : List ReadStep) :
    Source.read ⟨framing, [], .data bytes :: steps⟩ forwardCapacity =
      (.data bytes, ⟨framing, [], steps⟩) := by
  cases framing <;> simp [Source.read, List.take_of_length_le hfits, List.drop_of_length_le hfits]

/-- The steps of a source that gives the bytes one by one, and then a full buffer of another
byte. -/
def teasing (bytes : Bytes) (spare : UInt8) : List ReadStep :=
  bytes.map (fun byte => .data [byte]) ++ [.data (List.replicate forwardCapacity spare)]

section Teasing

variable {scanner : DetachScanner} {keys input : Bytes}

/-- All that has been fed is held, as long as it begins the keys. -/
theorem DetachScanner.Watches.scan_key (hwatches : scanner.Watches keys input []) {byte : UInt8}
    (hstart : input ++ [byte] <+: keys) (hmore : input ++ [byte] ≠ keys) :
    ∃ after, scanner.react (.data [byte]) = ⟨[], .goOn after⟩ ∧
      after.Watches keys (input ++ [byte]) [] := by
  have hlt : (input ++ [byte]).length < keys.length := by
    apply Nat.lt_of_le_of_ne hstart.length_le
    exact fun heq => hmore (hstart.eq_of_length heq)
  rcases hreact : scanner.react (.data [byte]) with ⟨output, next⟩
  have hreacts : Reacts scanner keys input [] (.data [byte]) output next := by
    have hreacts := hwatches.react (.data [byte])
    rwa [hreact] at hreacts
  cases hreacts with
  | @goOn _ _ after ne_nil watches =>
      rw [List.nil_append] at watches
      have hkeys : keys ≠ [] := by
        rintro rfl
        exact absurd hlt (Nat.not_lt_zero _)
      have hall := (watches.longestStart hkeys).longest _ hstart hmore (List.suffix_refl _)
      have hsplit := congrArg List.length watches.released_held
      rw [List.length_append] at hsplit
      have hnothing : output = [] := List.eq_nil_of_length_eq_zero (by omega)
      subst hnothing
      exact ⟨after, rfl, watches⟩
  | detach ne_nil split just released_keys =>
      -- the keys are longer than all that was fed
      have hsuffix := just.suffix.length_le
      have hsplit := congrArg List.length split
      rw [List.length_append] at hsuffix hsplit hlt
      omega

/-- A byte that is none of the keys leaves nothing to be held. -/
theorem DetachScanner.Watches.scan_spare (hwatches : scanner.Watches keys input [])
    {spare : UInt8} (hspare : spare ∉ keys) (count : Nat) (hcount : count ≠ 0) :
    ∃ after, scanner.react (.data (List.replicate count spare)) =
      ⟨input ++ List.replicate count spare, .goOn after⟩ := by
  -- whatever ends what has been fed and begins or is the keys is empty
  have hempty : ∀ {start front : Bytes} {length : Nat}, length ≠ 0 → start <:+: keys →
      start <:+ front ++ List.replicate length spare → start = [] := by
    intro start front length hlength hwithin hsuffix
    rcases List.eq_nil_or_concat start with hnil | ⟨begin, last, rfl⟩
    · exact hnil
    · obtain ⟨length, rfl⟩ := Nat.exists_eq_succ_of_ne_zero hlength
      rw [List.replicate_succ', ← List.append_assoc] at hsuffix
      rw [List.concat_eq_append] at hsuffix hwithin
      obtain ⟨before, hbefore⟩ := hsuffix
      rw [← List.append_assoc] at hbefore
      obtain ⟨-, hlast⟩ := List.append_inj' hbefore rfl
      obtain rfl := List.singleton_inj.mp hlast
      exact absurd (hwithin.subset (by simp)) hspare
  generalize hchunk : List.replicate count spare = chunk
  rcases hreact : scanner.react (.data chunk) with ⟨output, next⟩
  have hreacts : Reacts scanner keys input [] (.data chunk) output next := by
    have hreacts := hwatches.react (.data chunk)
    rwa [hreact] at hreacts
  cases hreacts with
  | finish => exact absurd ((List.replicate_eq_nil_iff _).mp hchunk) hcount
  | @goOn _ _ after ne_nil watches =>
      have hheld : after.held = [] := by
        by_cases hkeys : keys = []
        · rw [held_eq_take watches.keys_eq, hkeys, List.take_nil]
        · have hlongest := watches.longestStart hkeys
          rw [← hchunk] at hlongest
          exact hempty hcount hlongest.prefix_keys.isInfix hlongest.suffix_input
      have hall := watches.released_held
      rw [hheld, List.append_nil, List.nil_append] at hall
      exact ⟨after, by rw [hall]⟩
  | @detach _ _ typed rest ne_nil split just released_keys =>
      have htyped : typed = List.replicate typed.length spare := by
        apply List.eq_replicate_iff.mpr
        refine ⟨rfl, fun byte hbyte => ?_⟩
        apply List.eq_of_mem_replicate (n := count)
        rw [hchunk, split]
        exact List.mem_append_left rest hbyte
      by_cases hlength : typed.length = 0
      · rw [List.eq_nil_of_length_eq_zero hlength, List.append_nil] at just
        exact absurd ⟨just.ne_nil, just.suffix.isInfix⟩ hwatches.not_typed
      · rw [htyped] at just
        exact absurd (hempty hlength (List.infix_refl keys) just.suffix) just.ne_nil

/-- With such a source all keys but the last one are written together with a whole buffer. -/
theorem forward_teasing {spare : UInt8} (hspare : spare ∉ keys) (framing : Framing)
    (rest : Bytes) :
    ∀ (fed : Bytes) (scanner : DetachScanner) (written : Nat), keys.dropLast = fed ++ rest →
      scanner.Watches keys fed [] →
        ∃ more, (forward ⟨framing, [], teasing rest spare⟩ scanner (.holding []) written).2.2 =
          .holding ((keys.dropLast ++ List.replicate forwardCapacity spare) :: more) := by
  induction rest with
  | nil =>
      intro fed scanner written hfed hwatches
      obtain ⟨after, hreact⟩ := hwatches.scan_spare hspare forwardCapacity (by decide)
      rw [List.append_nil] at hfed
      have hfits : (List.replicate forwardCapacity spare).length ≤ forwardCapacity :=
        Nat.le_of_eq List.length_replicate
      have hread := Source.read_of_fits hfits framing []
      rw [teasing, List.map_nil, List.nil_append,
        forward_of_writeAll hread hreact (Sink.writeAll_holding [] _)]
      have hmessage : messageOf (fed ++ List.replicate forwardCapacity spare) =
          [fed ++ List.replicate forwardCapacity spare] := by
        apply messageOf_of_ne_nil
        apply List.append_ne_nil_of_right_ne_nil
        intro hnothing
        exact absurd ((List.replicate_eq_nil_iff _).mp hnothing) (by decide)
      obtain ⟨more, hmore, -⟩ := forward_holding ⟨framing, [], []⟩ after
        ([] ++ messageOf (fed ++ List.replicate forwardCapacity spare))
        (written + (fed ++ List.replicate forwardCapacity spare).length)
      refine ⟨more, ?_⟩
      rw [hfed]
      rw [hmessage] at hmore ⊢
      exact hmore
  | cons byte rest ih =>
      intro fed scanner written hfed hwatches
      have hsplit : keys.dropLast = (fed ++ [byte]) ++ rest := by simp [hfed]
      have hkeys : keys ≠ [] := by
        rintro rfl
        simp at hfed
      have hstart : fed ++ [byte] <+: keys := by
        apply List.IsPrefix.trans _ (List.dropLast_prefix keys)
        exact ⟨rest, hsplit.symm⟩
      have hmore : fed ++ [byte] ≠ keys := by
        intro heq
        have hlength := congrArg List.length hsplit
        rw [heq, List.length_dropLast, List.length_append] at hlength
        have := List.length_pos_iff.mpr hkeys
        omega
      obtain ⟨after, hreact, hstill⟩ := hwatches.scan_key hstart hmore
      have hfits : [byte].length ≤ forwardCapacity := by
        show 1 ≤ forwardCapacity
        decide
      have hread := Source.read_of_fits hfits framing (teasing rest spare)
      obtain ⟨more, hlater⟩ := ih (fed ++ [byte]) after (written + 0) hsplit hstill
      refine ⟨more, ?_⟩
      have hsteps : teasing (byte :: rest) spare = .data [byte] :: teasing rest spare := rfl
      rw [hsteps, forward_of_writeAll hread hreact (Sink.writeAll_holding [] [])]
      exact hlater

end Teasing

/-- **The limit is reached.**  If some byte is none of the keys, a source of either kind makes the
forwarder write as much at once as the limit admits. -/
theorem forward_reaches_limit {keys : Bytes} {spare : UInt8} (hspare : spare ∉ keys)
    (framing : Framing) :
    ∃ written ∈ (forward ⟨framing, [], teasing keys.dropLast spare⟩ (.ofKeys keys) {} 0).2.2.writes,
      written.offered = writeLimit keys ∧ written.accepted.length = writeLimit keys := by
  obtain ⟨more, hmore⟩ := forward_teasing hspare framing keys.dropLast [] (.ofKeys keys) 0
    (List.nil_append _).symm (DetachScanner.watches_ofKeys keys)
  have hlength : (keys.dropLast ++ List.replicate forwardCapacity spare).length =
      writeLimit keys := by
    rw [List.length_append, List.length_dropLast, List.length_replicate, writeLimit]
    omega
  have hsame : ({} : Sink) = .holding [] := rfl
  rw [hsame, hmore]
  exact ⟨_, Sink.mem_writes_holding List.mem_cons_self, hlength, hlength⟩

end ContainerAttach
