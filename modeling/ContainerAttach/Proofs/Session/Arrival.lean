import ContainerAttach.Proofs.Session.Settling

/-!
# The order in which the tasks end

When both tasks of a session end at about the same time, chance decides which of
them reports first, and the two orders are settled by different rules.  The
output in front is settled without a look at the input, and there a failure to
close the socket counts; the input in front makes the session wait for the
output, and there it does not.

An output that failed is the result in both orders, whatever the input and the
closing came to.  After a clean input and a clean closing the result is the
output's in both orders (`settle_of_bothEnded`).  Nothing is claimed of an input
that failed before an output that ended well: there the order does count.
-/

namespace ContainerAttach

/-- Both tasks have reported, in one order or the other, and whatever else was reported
between and behind is the input's. -/
inductive BothEnded (ended : Except AttachError Nat) (relayed : Except AttachError Tally) :
    List Completion → Prop
  | inputFirst {between after : List Completion} (only_between : OnlyInput between)
      (only_after : OnlyInput after) :
      BothEnded ended relayed (.input ended :: (between ++ .output relayed :: after))
  | outputFirst {between after : List Completion} (only_between : OnlyInput between)
      (only_after : OnlyInput after) :
      BothEnded ended relayed (.output relayed :: (between ++ .input ended :: after))

namespace BothEnded

variable {σ : Type} {closeWrite : σ → Except SocketError Unit × σ} {policy : Policy} {socket : σ}
  {ended : Except AttachError Nat} {relayed : Except AttachError Tally}
  {queue : List Completion}

theorem ne_nil (hqueue : BothEnded ended relayed queue) : queue ≠ [] := by
  cases hqueue <;> simp

/-- No order swallows the failure of the output, and none puts another error in its place. -/
theorem settle_of_failed (hqueue : BothEnded ended relayed queue) (hawaits : policy.Awaits ended)
    {error : AttachError} (hrelayed : relayed = .error error) :
    (settle closeWrite policy socket queue).result = .error error := by
  subst hrelayed
  cases hqueue with
  | inputFirst only_between only_after =>
      rw [settle_of_awaitOutput (hawaits.onFirst _), awaitOutput_append only_between]
      rfl
  | outputFirst only_between only_after =>
      rw [settle_of_settled rfl]

/-- After a clean input and a clean closing the result is the output's. -/
theorem settle_of_clean (hqueue : BothEnded ended relayed queue) (hawaits : policy.Awaits ended)
    {count : Nat} (hended : ended = .ok count) (hclosed : (closeWrite socket).1 = .ok ()) :
    (settle closeWrite policy socket queue).result = relayed.map fun _ => () := by
  cases relayed with
  | error error => exact hqueue.settle_of_failed hawaits rfl
  | ok tally =>
      cases hqueue with
      | inputFirst only_between only_after =>
          rw [settle_of_awaitOutput (hawaits.onFirst _), awaitOutput_append only_between, hended]
          rfl
      | outputFirst only_between only_after =>
          rw [settle_of_settled rfl, hclosed]
          rfl

end BothEnded

/-- **The order in which the tasks end does not change the result** where the output failed, and
where the input and the closing of the socket went well.  Either way the socket is closed
once. -/
theorem settle_of_bothEnded {σ : Type} (closeWrite : σ → Except SocketError Unit × σ)
    {policy : Policy} (socket : σ) {ended : Except AttachError Nat}
    {relayed : Except AttachError Tally} {queue other : List Completion}
    (hawaits : policy.Awaits ended) (hqueue : BothEnded ended relayed queue)
    (hother : BothEnded ended relayed other) :
    (∀ error, relayed = .error error →
      (settle closeWrite policy socket queue).result = .error error ∧
        (settle closeWrite policy socket other).result = .error error) ∧
    (∀ count, ended = .ok count → (closeWrite socket).1 = .ok () →
      (settle closeWrite policy socket queue).result =
        (settle closeWrite policy socket other).result) ∧
    (settle (recording closeWrite) policy (socket, []) queue).socket.2 =
      [(closeWrite socket).1] ∧
    (settle (recording closeWrite) policy (socket, []) other).socket.2 =
      [(closeWrite socket).1] := by
  refine ⟨?_, ?_, answers_of_ne_nil closeWrite policy socket hqueue.ne_nil,
    answers_of_ne_nil closeWrite policy socket hother.ne_nil⟩
  · intro error hrelayed
    exact ⟨hqueue.settle_of_failed hawaits hrelayed, hother.settle_of_failed hawaits hrelayed⟩
  · intro count hended hclosed
    rw [hqueue.settle_of_clean hawaits hended hclosed,
      hother.settle_of_clean hawaits hended hclosed]

/-- A packet without a destination fails the session although the socket could not be closed,
and although the input had ended well before and another report of it stands between. -/
theorem settle_of_bothEnded_undelivered :
    let policy : Policy := { stdinConfigured := true, outputConfigured := true }
    let closeWrite : Unit → Except SocketError Unit × Unit :=
      fun _ => (.error (.closeWrite (.os 32)), ())
    let relayed : Except AttachError Tally := .error (.output (.noDestination 9))
    policy.Awaits (.ok 3) ∧
      (settle closeWrite policy () [.input (.ok 3), .input (.ok 4), .output relayed]).result =
        .error (.output (.noDestination 9)) ∧
      (settle closeWrite policy () [.output relayed, .input (.ok 3)]).result =
        .error (.output (.noDestination 9)) := by
  intro policy closeWrite relayed
  have hawaits : policy.Awaits (.ok 3) :=
    ⟨by simp [Policy.StopsWithInput, policy], by simp, rfl⟩
  have hinput : OnlyInput [.input (.ok 4)] := by simp [OnlyInput, Completion.task]
  have hnone : OnlyInput [] := by simp [OnlyInput]
  have hqueue : BothEnded (.ok 3) relayed [.input (.ok 3), .input (.ok 4), .output relayed] :=
    .inputFirst hinput hnone
  have hother : BothEnded (.ok 3) relayed [.output relayed, .input (.ok 3)] :=
    .outputFirst hnone hnone
  exact ⟨hawaits, (settle_of_bothEnded closeWrite () hawaits hqueue hother).1 _ rfl⟩

end ContainerAttach
