import ContainerAttach.Proofs.Stream.Writing

/-!
# The calls made on a sink

`Sink.Calls` relates a sink before some writes and flushes to the sink after them,
with the calls in order: what each write offered, and how each call was answered.
The calls alone tell what the sink has accepted meanwhile (`Calls.data`).

A write that is made again while it is interrupted is a sequence of attempts with
the same bytes, of which only the last has an answer that counts
(`Sink.offer_attempted`), and every such sequence is a write of this kind
(`Sink.offer_of_calls`).

Writes that are repeated until everything is accepted go on after any call but one that
stops them (`Call.stop?`): it fails for good, or accepts nothing of something.  If there is
such a call it is the last one, and it is why the writes end (`Sink.writeAll_persists`).
-/

namespace ContainerAttach

/-- One call on a sink, and its answer. -/
inductive Call where
  | write (offered : Bytes) (answer : WriteResult)
  | flush (answer : Option IoError)
  deriving DecidableEq, Repr

/-- The bytes that a call makes the sink accept. -/
def Call.accepted : Call → Bytes
  | .write offered answer => offered.take answer.count
  | .flush _ => []

/-! ## Sequences of calls -/

/-- The calls are made on the first sink, one after the other, and leave the last. -/
inductive Sink.Calls : Sink → List Call → Sink → Prop
  | nil (sink : Sink) : Sink.Calls sink [] sink
  | write {sink last : Sink} {calls : List Call} (offered : Bytes)
      (calls_after : Sink.Calls (sink.write offered).2 calls last) :
      Sink.Calls sink (.write offered (sink.write offered).1 :: calls) last
  | flush {sink last : Sink} {calls : List Call}
      (calls_after : Sink.Calls sink.flush.2 calls last) :
      Sink.Calls sink (.flush sink.flush.1 :: calls) last

namespace Sink

theorem Calls.append {first middle last : Sink} {calls more : List Call}
    (hcalls : first.Calls calls middle) (hmore : middle.Calls more last) :
    first.Calls (calls ++ more) last := by
  induction hcalls with
  | nil sink => exact hmore
  | write offered calls_after ih => exact .write offered (ih hmore)
  | flush calls_after ih => exact .flush (ih hmore)

theorem data_flush (sink : Sink) : sink.flush.2.data = sink.data := by
  unfold flush
  split <;> rfl

/-- The data grows by what the calls make the sink accept. -/
theorem Calls.data {sink last : Sink} {calls : List Call} (hcalls : sink.Calls calls last) :
    last.data = sink.data ++ calls.flatMap Call.accepted := by
  induction hcalls with
  | nil sink => simp
  | @write sink last calls offered calls_after ih =>
      rw [ih, data_write, List.flatMap_cons, List.append_assoc]
      rfl
  | @flush sink last calls calls_after ih =>
      rw [ih, data_flush, List.flatMap_cons]
      rfl

theorem willing_flush {sink : Sink} (hwilling : sink.Willing) : sink.flush.2.Willing := by
  unfold flush
  split <;> exact hwilling

/-- A sink that refuses nothing goes on like that. -/
theorem Calls.willing {sink last : Sink} {calls : List Call} (hcalls : sink.Calls calls last)
    (hwilling : sink.Willing) : last.Willing := by
  induction hcalls with
  | nil => exact hwilling
  | write offered calls_after ih => exact ih (willing_write hwilling offered)
  | flush calls_after ih => exact ih (willing_flush hwilling)

theorem calls_write {sink rest : Sink} {offered : Bytes} {answer : WriteResult}
    (hwrite : sink.write offered = (answer, rest)) :
    sink.Calls [.write offered answer] rest := by
  have hcalls : sink.Calls [.write offered (sink.write offered).1] (sink.write offered).2 :=
    .write offered (.nil _)
  rwa [hwrite] at hcalls

theorem calls_flush {sink rest : Sink} {answer : Option IoError}
    (hflush : sink.flush = (answer, rest)) : sink.Calls [.flush answer] rest := by
  have hcalls : sink.Calls [.flush sink.flush.1] sink.flush.2 := .flush (.nil _)
  rwa [hflush] at hcalls

/-! ### The first call -/

section First

variable {sink last : Sink} {calls : List Call}

theorem calls_nil_iff : sink.Calls [] last ↔ last = sink := by
  constructor
  · intro hcalls
    cases hcalls with
    | nil => rfl
  · rintro rfl
    exact .nil last

theorem calls_write_iff {offered : Bytes} {answer : WriteResult} :
    sink.Calls (.write offered answer :: calls) last ↔
      ∃ middle, sink.write offered = (answer, middle) ∧ middle.Calls calls last := by
  constructor
  · intro hcalls
    generalize hall : Call.write offered answer :: calls = all at hcalls
    cases hcalls with
    | nil | flush => simp at hall
    | write offered calls_after =>
        simp only [List.cons.injEq, Call.write.injEq] at hall
        obtain ⟨⟨rfl, rfl⟩, rfl⟩ := hall
        exact ⟨_, rfl, calls_after⟩
  · rintro ⟨middle, hwrite, hcalls⟩
    exact (calls_write hwrite).append hcalls

theorem calls_flush_iff {answer : Option IoError} :
    sink.Calls (.flush answer :: calls) last ↔
      ∃ middle, sink.flush = (answer, middle) ∧ middle.Calls calls last := by
  constructor
  · intro hcalls
    generalize hall : Call.flush answer :: calls = all at hcalls
    cases hcalls with
    | nil | write => simp at hall
    | flush calls_after =>
        simp only [List.cons.injEq, Call.flush.injEq] at hall
        obtain ⟨rfl, rfl⟩ := hall
        exact ⟨_, rfl, calls_after⟩
  · rintro ⟨middle, hflush, hcalls⟩
    exact (calls_flush hflush).append hcalls

theorem calls_append_iff {more : List Call} :
    sink.Calls (calls ++ more) last ↔
      ∃ middle, sink.Calls calls middle ∧ middle.Calls more last := by
  constructor
  · intro hcalls
    induction calls generalizing sink with
    | nil => exact ⟨sink, .nil sink, hcalls⟩
    | cons call calls ih =>
        rw [List.cons_append] at hcalls
        cases call with
        | write offered answer =>
            obtain ⟨next, hwrite, hrest⟩ := calls_write_iff.mp hcalls
            obtain ⟨middle, hfirst, hmore⟩ := ih hrest
            exact ⟨middle, calls_write_iff.mpr ⟨next, hwrite, hfirst⟩, hmore⟩
        | flush answer =>
            obtain ⟨next, hflush, hrest⟩ := calls_flush_iff.mp hcalls
            obtain ⟨middle, hfirst, hmore⟩ := ih hrest
            exact ⟨middle, calls_flush_iff.mpr ⟨next, hflush, hfirst⟩, hmore⟩
  · rintro ⟨middle, hcalls, hmore⟩
    exact hcalls.append hmore

end First

end Sink

/-! ## One write, made again while it is interrupted -/

/-- Writes of the same bytes: interrupted ones, and the one that is not, with its answer. -/
def Call.attempts (offered : Bytes) (interruptions : List IoError) (answer : WriteResult) :
    List Call :=
  interruptions.map (fun error => .write offered (.failed error)) ++ [.write offered answer]

@[simp] theorem Call.flatMap_accepted_attempts (offered : Bytes) (interruptions : List IoError)
    (answer : WriteResult) :
    (Call.attempts offered interruptions answer).flatMap Call.accepted =
      offered.take answer.count := by
  induction interruptions with
  | nil => simp [attempts, accepted]
  | cons error errors ih => simp [attempts, accepted, WriteResult.count] at ih ⊢

/-- The attempts at offering some bytes to a sink, with an answer that tells no interruption. -/
structure Sink.Attempted (sink : Sink) (offered : Bytes) (interruptions : List IoError)
    (answer : WriteResult) (rest : Sink) : Prop where
  calls : sink.Calls (Call.attempts offered interruptions answer) rest
  interrupted : ∀ error ∈ interruptions, error.isInterrupted = true
  not_interrupted : ∀ error, answer = .failed error → error.isInterrupted ≠ true
  count_le : answer.count ≤ offered.length

namespace Sink

theorem offer_attempted (sink : Sink) (offered : Bytes) :
    ∃ interruptions, sink.Attempted offered interruptions (sink.offer offered).1
      (sink.offer offered).2 := by
  fun_induction offer sink offered with
  | case1 sink error rest hwrite hinterrupted ih =>
      obtain ⟨interruptions, hattempted⟩ := ih
      refine ⟨error :: interruptions, (calls_write hwrite).append hattempted.calls, ?_,
        hattempted.not_interrupted, hattempted.count_le⟩
      intro other hother
      rcases List.mem_cons.mp hother with rfl | hmem
      · exact hinterrupted
      · exact hattempted.interrupted other hmem
  | case2 sink error rest hwrite hinterrupted =>
      refine ⟨[], calls_write hwrite, by simp, ?_, Nat.zero_le _⟩
      rintro other hother
      obtain rfl := WriteResult.failed.inj hother
      exact hinterrupted
  | case3 sink hanswer =>
      refine ⟨[], calls_write rfl, by simp, ?_, count_write_le sink offered⟩
      intro error herror
      exact (hanswer error _ (Prod.ext herror rfl)).elim

/-! ### What the attempts say of the write -/

section Offer

variable {sink rest last : Sink} {bytes : Bytes}

theorem offer_of_interrupted {error : IoError}
    (hwrite : sink.write bytes = (.failed error, rest)) (herror : error.isInterrupted = true) :
    sink.offer bytes = rest.offer bytes := by
  rw [offer]
  split
  · next other rest' hwrite' =>
    obtain ⟨hother, rfl⟩ := Prod.mk.inj (hwrite.symm.trans hwrite')
    obtain rfl := WriteResult.failed.inj hother
    rw [if_pos herror]
  · next hanswer => exact absurd hwrite (hanswer error rest)

theorem offer_of_answer {answer : WriteResult}
    (hwrite : sink.write bytes = (answer, rest))
    (hanswer : ∀ error, answer = .failed error → error.isInterrupted ≠ true) :
    sink.offer bytes = (answer, rest) := by
  rw [offer]
  split
  · next error rest' hwrite' =>
    obtain ⟨rfl, rfl⟩ := Prod.mk.inj (hwrite.symm.trans hwrite')
    rw [if_neg (hanswer error rfl)]
  · exact hwrite

/-- The answer that is no interruption answers the write. -/
theorem offer_of_calls {answer : WriteResult}
    (hanswer : ∀ error, answer = .failed error → error.isInterrupted ≠ true)
    (interruptions : List IoError) :
    ∀ {sink : Sink}, (∀ error ∈ interruptions, error.isInterrupted = true) →
      sink.Calls (Call.attempts bytes interruptions answer) last →
        sink.offer bytes = (answer, last) := by
  induction interruptions with
  | nil =>
      intro sink _ hcalls
      obtain ⟨middle, hwrite, hrest⟩ := calls_write_iff.mp hcalls
      obtain rfl := calls_nil_iff.mp hrest
      exact offer_of_answer hwrite hanswer
  | cons error interruptions ih =>
      intro sink hinterrupted hcalls
      obtain ⟨middle, hwrite, hrest⟩ := calls_write_iff.mp hcalls
      rw [offer_of_interrupted hwrite (hinterrupted error List.mem_cons_self)]
      exact ih (fun other hother => hinterrupted other (List.mem_cons_of_mem _ hother)) hrest

end Offer

end Sink

/-! ## Writes, repeated until everything is accepted -/

/-- The end that a call puts to repeated writes, if it puts one. -/
def Call.stop? : Call → Option (Ending IoError Unit)
  | .write offered (.accepted 0) =>
    if offered = [] then none else some (.failed Sink.nothingAccepted)
  | .write _ (.failed error) => if error.isInterrupted then none else some (.failed error)
  | .write _ .crashed => some .crashed
  | _ => none

/-- How repeated writes of some bytes end, given the calls that were made. -/
inductive Call.Persist (bytes : Bytes) : List Call → Ending IoError Unit → Prop
  | done {calls : List Call} (quiet : ∀ call ∈ calls, call.stop? = none)
      (accepted_eq : calls.flatMap Call.accepted = bytes) : Persist bytes calls (.done ())
  | stopped (calls : List Call) {call : Call} {ending : Ending IoError Unit}
      (quiet : ∀ earlier ∈ calls, earlier.stop? = none) (stop : call.stop? = some ending)
      (not_done : ending ≠ .done ())
      (accepted_begins : (calls ++ [call]).flatMap Call.accepted <+: bytes) :
      Persist bytes (calls ++ [call]) ending

/-- A call that does not stop the writes leaves the rest of the bytes to the others. -/
theorem Call.Persist.cons {bytes rest : Bytes} {calls : List Call} {ending : Ending IoError Unit}
    {call : Call} (hpersist : Call.Persist rest calls ending) (hquiet : call.stop? = none)
    (hbytes : call.accepted ++ rest = bytes) : Call.Persist bytes (call :: calls) ending := by
  cases hpersist with
  | done quiet accepted_eq =>
      refine .done (List.forall_mem_cons.mpr ⟨hquiet, quiet⟩) ?_
      rw [List.flatMap_cons, accepted_eq, hbytes]
  | @stopped earlier last _ quiet stop not_done accepted_begins =>
      refine .stopped (call :: earlier) (List.forall_mem_cons.mpr ⟨hquiet, quiet⟩) stop
        not_done ?_
      rw [List.cons_append, List.flatMap_cons, ← hbytes]
      exact (List.prefix_append_right_inj _).mpr accepted_begins

namespace Sink

theorem writeAll_persists (sink : Sink) (bytes : Bytes) :
    ∃ calls, sink.Calls calls (sink.writeAll bytes).2 ∧
      Call.Persist bytes calls (sink.writeAll bytes).1 := by
  fun_induction writeAll sink bytes with
  | case1 sink => exact ⟨[], .nil sink, .done (by simp) rfl⟩
  | case2 sink bytes hbytes rest hwrite =>
      refine ⟨_, calls_write hwrite, .stopped [] (by simp) ?_ (by simp) ?_⟩
      · rw [Call.stop?, if_neg hbytes]
      · exact List.nil_prefix
  | case3 sink bytes hbytes count rest hwrite ih =>
      obtain ⟨calls, hcalls, hpersist⟩ := ih
      refine ⟨_, (calls_write hwrite).append hcalls, hpersist.cons rfl ?_⟩
      exact List.take_append_drop (count + 1) bytes
  | case4 sink bytes hbytes error rest hwrite hinterrupted ih =>
      obtain ⟨calls, hcalls, hpersist⟩ := ih
      refine ⟨_, (calls_write hwrite).append hcalls, hpersist.cons ?_ rfl⟩
      rw [Call.stop?, if_pos hinterrupted]
  | case5 sink bytes hbytes error rest hwrite hinterrupted =>
      refine ⟨_, calls_write hwrite, .stopped [] (by simp) ?_ (by simp) ?_⟩
      · rw [Call.stop?, if_neg hinterrupted]
      · exact List.nil_prefix
  | case6 sink bytes hbytes rest hwrite =>
      exact ⟨_, calls_write hwrite, .stopped [] (by simp) rfl (by simp) List.nil_prefix⟩

end Sink

end ContainerAttach
