import ContainerAttach.Proofs.Session.Stages
import ContainerAttach.Proofs.Socket.Queues

/-!
# Nothing is sent after a session has returned

There are three ways to the end of a connected session: a half-close that the first
completion brings about, the shutdown of the socket by the coordinator, and the last handle
being dropped.  A task that is still waiting for its caller keeps a handle and may come back
to it at any time later.

One invariant covers all of them (`Connection.Carries`).  It counts the handles, it keeps
account of every byte that the socket has taken, and it says that after the return no handle
can write and the server's end is closed.  It names neither the result nor the way to it, so
each turn is looked at once (`Carries.step`).

What the server reads on is then what is queued for it (`Connection.readsOut_of_shut`), and
that is what it has not yet received of the forwarded bytes.
-/

namespace ContainerAttach

namespace Connection

variable {origin : Bytes} {holders : Nat} {returned : Bool} {received forwarded : List Bytes}
  {socket after : Connection}

/-! ## The account of a connection -/

/-- No handle of the near end can write any more. -/
def NearShut (socket : Connection) : Prop :=
  socket.near.handles ≠ 0 → socket.near.closed = true ∧ socket.near.writeShut = true

/-- The connection of a session, with the number of handles that the client holds, the
messages that the server has received and those that the client has sent. -/
structure Carries (origin : Bytes) (holders : Nat) (returned : Bool)
    (received forwarded : List Bytes) (socket : Connection) : Prop where
  handles_eq : socket.near.handles = holders
  /-- No byte is lost, made up or moved. -/
  conserved : received.flatten ++ socket.far.inbox.flatten = origin ++ forwarded.flatten
  filled : ∀ message ∈ socket.far.inbox, message ≠ []
  shut : returned = true → NearShut socket ∧ socket.far.readShut = true
  /-- Without a handle the server cannot send either. -/
  gone : holders = 0 → returned = true ∧ socket.far.writeShut = true
  /-- The server finds a reset only after it has sent what nobody has read. -/
  unread : socket.far.reset = true →
    socket.near.handles = 0 ∧ hasUnread socket.near.inbox = true

namespace Carries

/-- As long as the client has a handle, the server finds no reset. -/
theorem no_reset (hcarries : socket.Carries origin holders returned received forwarded)
    (hholders : holders ≠ 0) : socket.far.reset = false := by
  refine eq_false_of_ne_true fun hreset => hholders ?_
  exact hcarries.handles_eq.symm.trans (hcarries.unread hreset).1

/-- A message that the socket takes goes to the server, and then the session has not
returned. -/
theorem sent (hcarries : socket.Carries origin holders returned received forwarded)
    {output : Bytes} {count : Nat} (hholders : holders ≠ 0) (houtput : output ≠ [])
    (hsend : socket.send .near output = (.ok count, after)) :
    returned = false ∧
      after.Carries origin holders returned received (forwarded ++ [output]) := by
  obtain ⟨hhandles, hconserved, hfilled, hshut, hgone, hunread⟩ := hcarries
  rcases socket.send_cases .near output with ⟨_, _, -, herror⟩ | ⟨hopen, htaken⟩ | ⟨-, hnil, -⟩
  · exact absurd (hsend.symm.trans herror) (by simp)
  · obtain ⟨-, rfl⟩ := Prod.mk.inj (hsend.symm.trans htaken)
    have hreturned : returned = false := by
      refine eq_false_of_ne_true fun hreturned => ?_
      have hclosed := ((hshut hreturned).1 (by rw [hhandles]; exact hholders)).2
      exact absurd (hopen.symm.trans hclosed) Bool.false_ne_true
    refine ⟨hreturned, hhandles, ?_, ?_, hshut, hgone, hunread⟩
    · calc received.flatten ++ (socket.far.inbox ++ [output]).flatten
          = (received.flatten ++ socket.far.inbox.flatten) ++ output := by simp
        _ = (origin ++ forwarded.flatten) ++ output := by rw [hconserved]
        _ = origin ++ (forwarded ++ [output]).flatten := by simp
    · intro message hmem
      rcases List.mem_append.mp hmem with hqueued | hlast
      · exact hfilled message hqueued
      · rw [List.mem_singleton.mp hlast]
        exact houtput
  · exact absurd hnil houtput

theorem unsent (hcarries : socket.Carries origin holders returned received forwarded)
    {output : Bytes} {cause : IoError} (hsend : socket.send .near output = (.error cause, after)) :
    after.Carries origin holders returned received forwarded := by
  rcases socket.send_cases .near output with ⟨_, _, -, herror⟩ | ⟨-, htaken⟩ | ⟨-, -, htaken⟩
  · obtain ⟨-, rfl⟩ := Prod.mk.inj (hsend.symm.trans herror)
    exact ⟨hcarries.1, hcarries.2, hcarries.3, hcarries.4, hcarries.5, hcarries.6⟩
  · exact absurd (hsend.symm.trans htaken) (by simp)
  · exact absurd (hsend.symm.trans htaken) (by simp)

theorem read (hcarries : socket.Carries origin holders returned received forwarded)
    (hholders : holders ≠ 0) (inbox : List Bytes) (reset : Bool) :
    (socket.update .near fun near => { near with inbox := inbox, reset := reset }).Carries origin
      holders returned received forwarded := by
  have hquiet := hcarries.no_reset hholders
  obtain ⟨hhandles, hconserved, hfilled, hshut, hgone, -⟩ := hcarries
  exact ⟨hhandles, hconserved, hfilled, hshut, hgone,
    fun hreset => absurd (hquiet.symm.trans hreset) Bool.false_ne_true⟩

/-- A handle is dropped.  The last one is dropped only after the return. -/
theorem release (hcarries : socket.Carries origin (holders + 1) returned received forwarded)
    (hlast : holders = 0 → returned = true) :
    (socket.release .near).Carries origin holders returned received forwarded := by
  have hreset := hcarries.no_reset (Nat.succ_ne_zero holders)
  obtain ⟨hhandles, hconserved, hfilled, hshut, hgone, -⟩ := hcarries
  rw [release_near]
  split
  · next hone =>
    have hzero : holders = 0 := by omega
    refine ⟨by simp [hone, hzero], hconserved, hfilled, ?_, fun _ => ⟨hlast hzero, rfl⟩, ?_⟩
    · exact fun _ => ⟨fun hne => absurd (show socket.near.handles - 1 = 0 by omega) hne, rfl⟩
    · intro hunread
      refine ⟨show socket.near.handles - 1 = 0 by omega, ?_⟩
      simpa [hreset] using hunread
  · next hmore =>
    refine ⟨show socket.near.handles - 1 = holders by omega, hconserved, hfilled, ?_, ?_, ?_⟩
    · intro hreturned
      obtain ⟨hnear, hfar⟩ := hshut hreturned
      exact ⟨fun _ => hnear (by omega), hfar⟩
    · exact fun hzero => absurd hzero (by omega)
    · intro hunread
      exact absurd (hreset.symm.trans hunread) Bool.false_ne_true

theorem closeWrite (hcarries : socket.Carries origin holders returned received forwarded) :
    (socket.closeWrite .near).2.Carries origin holders returned received forwarded := by
  rw [closeWrite_near]
  dsimp only
  split
  · exact hcarries
  · exact ⟨hcarries.1, hcarries.2, hcarries.3, fun _ => ⟨fun _ => ⟨rfl, rfl⟩, rfl⟩, hcarries.5,
      hcarries.6⟩

/-- The coordinator shuts the socket down and drops its handle. -/
theorem finish (hcarries : socket.Carries origin (holders + 1) false received forwarded) :
    ((socket.shutdown .near).2.release .near).Carries origin holders true received
      forwarded := by
  have hdown : (socket.shutdown .near).2.Carries origin (holders + 1) true received
      forwarded := by
    rw [shutdown_near]
    exact ⟨hcarries.1, hcarries.2, hcarries.3, fun _ => ⟨fun _ => ⟨rfl, rfl⟩, rfl⟩,
      fun hzero => absurd hzero (by simp), hcarries.6⟩
  exact hdown.release fun _ => rfl

/-- The client drops its only handle before it has started a stream. -/
theorem withdraw (hcarries : socket.Carries origin 1 false received forwarded) :
    (socket.release .near).Carries origin 0 true received forwarded := by
  have hreset := hcarries.no_reset Nat.one_ne_zero
  obtain ⟨hhandles, hconserved, hfilled, -, -, -⟩ := hcarries
  have hzero : socket.near.handles - 1 = 0 := by omega
  rw [release_near, if_pos hhandles]
  refine ⟨hzero, hconserved, hfilled, fun _ => ⟨fun hne => absurd hzero hne, rfl⟩,
    fun _ => ⟨rfl, rfl⟩, ?_⟩
  intro hunread
  exact ⟨hzero, by simpa [hreset] using hunread⟩

/-- A turn of the server only moves bytes from its queue to what it has received. -/
theorem does {server next : Server}
    (hcarries : socket.Carries origin holders returned server.received forwarded)
    (hdoes : server.Does socket next after) :
    after.Carries origin holders returned next.received forwarded := by
  obtain ⟨hhandles, hconserved, hfilled, hshut, hgone, hunread⟩ := hcarries
  cases hdoes with
  | goesOn received_eq =>
      rw [received_eq]
      exact ⟨hhandles, hconserved, hfilled, hshut, hgone, hunread⟩
  | sends bytes received_eq =>
      rw [received_eq]
      rcases socket.send_cases .far bytes with ⟨_, _, hreset, hsend⟩ | ⟨hopen, hsend⟩ |
        ⟨-, -, hsend⟩ <;> rw [hsend]
      · exact ⟨hhandles, hconserved, hfilled, hshut, hgone, fun h => hunread (hreset h)⟩
      · -- a server that can still send finds no reset
        refine ⟨hhandles, hconserved, hfilled, hshut, hgone, ?_⟩
        intro hreset
        have hzero : holders = 0 := hhandles.symm.trans (hunread hreset).1
        exact absurd (hopen.symm.trans (hgone hzero).2) Bool.false_ne_true
      · exact ⟨hhandles, hconserved, hfilled, hshut, hgone, hunread⟩
  | closesWrite received_eq =>
      rw [received_eq, closeWrite_far]
      split
      · exact ⟨hhandles, hconserved, hfilled, hshut, hgone, hunread⟩
      · exact ⟨hhandles, hconserved, hfilled, hshut, fun hzero => ⟨(hgone hzero).1, rfl⟩,
          hunread⟩
  | leaves received_eq =>
      obtain ⟨near, hsame, hinbox, hclosed, hwrite, hrelease⟩ := socket.release_far
      rw [received_eq, hrelease]
      refine ⟨hsame.trans hhandles, hconserved, hfilled, ?_, hgone, ?_⟩
      · intro hreturned
        obtain ⟨hnear, hfar⟩ := hshut hreturned
        refine ⟨fun hhandle => ?_, hfar⟩
        have hdown := hnear (by rw [← hsame]; exact hhandle)
        exact ⟨hclosed.trans hdown.1, hwrite hdown.2⟩
      · intro hreset
        show near.handles = 0 ∧ hasUnread near.inbox = true
        rw [hsame, hinbox]
        exact hunread hreset
  | @reads answer after receive_eq received_eq =>
      have hroom : (socket.endpoint .far).inbox.flatten.length ≤ Server.roomFor socket.far :=
        Nat.le_refl _
      rcases socket.receive_whole .far hroom with ⟨bytes, inbox, hreceive, -, hdata, hrest⟩ |
        ⟨-, hreceive⟩ | ⟨-, -, hreceive⟩ <;>
        obtain ⟨rfl, rfl⟩ := Prod.mk.inj (receive_eq.symm.trans hreceive) <;>
        rw [received_eq]
      · obtain ⟨hbytes, hrest⟩ := hrest hfilled
        refine ⟨hhandles, ?_, hrest, hshut, hgone, hunread⟩
        have hmessages : (Received.data bytes).messages = [bytes] := messageOf_of_ne_nil hbytes
        have hdata : bytes ++ inbox.flatten = socket.far.inbox.flatten := hdata
        rw [hmessages]
        calc (server.received ++ [bytes]).flatten ++ inbox.flatten
            = server.received.flatten ++ (bytes ++ inbox.flatten) := by simp
          _ = server.received.flatten ++ socket.far.inbox.flatten := by rw [hdata]
          _ = origin ++ forwarded.flatten := hconserved
      · rw [show (Received.failed (.os 104)).messages = [] from rfl, List.append_nil]
        exact ⟨hhandles, hconserved, hfilled, hshut, hgone, by simp [clearReset, update]⟩
      · rw [Received.messages_of_nothing, List.append_nil]
        exact ⟨hhandles, hconserved, hfilled, hshut, hgone, hunread⟩

end Carries

end Connection

namespace Streaming

variable {origin : Bytes} {state next : Streaming} {party : Party}

/-! ## Turns -/

/-- The handles of the client: one of the coordinator until it returns, and one of each task
until it ends. -/
def holders (state : Streaming) : Nat :=
  (if state.hasReturned then 0 else 1) + (if state.input = .ended then 0 else 1) +
    (if state.relaying then 1 else 0)

/-- The account of a session. -/
def Carries (origin : Bytes) (state : Streaming) : Prop :=
  state.socket.Carries origin state.holders state.hasReturned state.server.received
    state.forwarded

/-- A session that has returned stays so, and has sent all that it ever sends. -/
def StaysReturned (state next : Streaming) : Prop :=
  state.hasReturned = true → next.hasReturned = true ∧ next.forwarded = state.forwarded

theorem holders_ne_zero_of_input (hinput : state.input ≠ .ended) : state.holders ≠ 0 := by
  simp only [holders, if_neg hinput]
  omega

theorem holders_ne_zero_of_relaying (hrelaying : state.relaying = true) : state.holders ≠ 0 := by
  simp only [holders, if_pos hrelaying]
  omega

/-- As long as the session has not returned, the coordinator has a handle. -/
theorem hasReturned_of_holders (hholders : state.holders = 0) : state.hasReturned = true := by
  cases hreturned : state.hasReturned with
  | true => rfl
  | false =>
      rw [holders, hreturned] at hholders
      simp only [Bool.false_eq_true, if_false] at hholders
      omega

namespace Carries

theorem endInput (hcarries : state.Carries origin) (hinput : state.input ≠ .ended)
    (ending : Ending ForwardError Nat) : (state.endInput ending).Carries origin := by
  have hholders : state.holders = (state.endInput ending).holders + 1 := by
    simp only [holders, Streaming.endInput, if_neg hinput]
    show _ = (if state.hasReturned then 0 else 1) + 0 + (if state.relaying then 1 else 0) + 1
    omega
  unfold Carries at hcarries
  rw [hholders] at hcarries
  exact hcarries.release hasReturned_of_holders

/-- Which input it is does not matter, as long as it goes on or has ended as before. -/
theorem withInput (hcarries : state.Carries origin) {task : InputTask}
    (htask : task = .ended ↔ state.input = .ended) :
    { state with input := task }.Carries origin := by
  have hholders : { state with input := task }.holders = state.holders := by
    simp only [holders, htask]
    rfl
  unfold Carries
  rw [hholders]
  exact hcarries

/-- What a read has released is sent, or refused. -/
theorem afterSending (hcarries : state.Carries origin) (hinput : state.input ≠ .ended)
    {sent : List Bytes} {socket : Connection} (hsends : Sends state.socket sent socket) :
    (state.afterSending sent socket).Carries origin ∧
      state.StaysReturned (state.afterSending sent socket) := by
  cases hsends with
  | nothing =>
      rw [afterSending_nil]
      exact ⟨hcarries, fun hreturned => ⟨hreturned, rfl⟩⟩
  | refused send_eq =>
      rw [afterSending_nil]
      exact ⟨hcarries.unsent send_eq, fun hreturned => ⟨hreturned, rfl⟩⟩
  | taken ne_nil send_eq =>
      obtain ⟨hearly, hsent⟩ := hcarries.sent (holders_ne_zero_of_input hinput) ne_nil send_eq
      refine ⟨hsent, fun hreturned => ?_⟩
      exact absurd (hearly.symm.trans hreturned) Bool.false_ne_true

/-- The output task drops its handle. -/
theorem endOutput (hcarries : state.Carries origin) (hrelaying : state.relaying = true)
    (relay : Relay) (completions : List Completion) :
    { state with
      socket := state.socket.release .near
      relay := relay
      relaying := false
      completions := completions }.Carries origin := by
  let after : Streaming :=
    { state with
      socket := state.socket.release .near
      relay := relay
      relaying := false
      completions := completions }
  have hholders : state.holders = after.holders + 1 := by
    simp only [holders, if_pos hrelaying]
    rfl
  have hlast : after.holders = 0 → after.hasReturned = true := hasReturned_of_holders
  unfold Carries at hcarries
  rw [hholders] at hcarries
  exact hcarries.release hlast

/-- A turn that leaves the tasks and the server alone and does not return. -/
theorem of_phase (hearly : state.hasReturned = false) {socket : Connection}
    (hsocket : socket.Carries origin state.holders false state.server.received state.forwarded)
    (completions : List Completion) {phase : Phase} (hooked : Bool)
    (hphase : ∀ result, phase ≠ .returned result) :
    let after : Streaming :=
      { state with
        socket := socket
        completions := completions
        phase := phase
        hooked := hooked }
    after.Carries origin ∧ state.StaysReturned after := by
  intro after
  have hreturned : after.hasReturned = false := by
    cases phase with
    | returned result => exact absurd rfl (hphase result)
    | started | settling | awaiting | finishing => rfl
  have hholders : after.holders = state.holders := by
    simp only [holders, hreturned, hearly]
    rfl
  refine ⟨?_, fun hstate => absurd (hearly.symm.trans hstate) Bool.false_ne_true⟩
  unfold Carries
  rw [hholders, hreturned]
  exact hsocket

/-- The coordinator settles the session, closes the write direction, or returns. -/
theorem coordinator (hcarries : state.Carries origin)
    (hact : state.actCoordinator? = some next) :
    next.Carries origin ∧ state.StaysReturned next := by
  have hsocket := hcarries
  unfold Carries at hsocket
  cases actCoordinator?_cases hact with
  | goesOn early not_finishing socket_eq phase_ne phase_open hooked_eq =>
      rw [early] at hsocket
      rcases socket_eq with rfl | rfl
      · exact of_phase early hsocket _ _ phase_open
      · exact of_phase early hsocket.closeWrite _ _ phase_open
  | @returns result phase_eq =>
      have hearly : state.hasReturned = false := by rw [hasReturned, phase_eq]
      refine ⟨?_, fun hstate => absurd (hearly.symm.trans hstate) Bool.false_ne_true⟩
      let after : Streaming :=
        { state with
          socket := (state.socket.shutdown .near).2.release .near
          phase := .returned result }
      have hholders : state.holders = after.holders + 1 := by
        rw [holders, hearly]
        show 1 + (if state.input = .ended then 0 else 1) + (if state.relaying then 1 else 0) =
          0 + (if state.input = .ended then 0 else 1) + (if state.relaying then 1 else 0) + 1
        omega
      rw [hearly, hholders] at hsocket
      exact hsocket.finish

theorem step (hcarries : state.Carries origin) (hact : state.act? party = some next) :
    next.Carries origin ∧ state.StaysReturned next := by
  cases party with
  | coordinator => exact hcarries.coordinator hact
  | server =>
      obtain ⟨server, socket, hserver, rfl⟩ := actServer?_cases hact
      exact ⟨Connection.Carries.does hcarries (Server.act?_does hserver),
        fun hreturned => ⟨hreturned, rfl⟩⟩
  | input =>
      obtain ⟨hinput, sent, socket, hsends, hnext⟩ := actInput?_cases hact
      obtain ⟨hafter, hstays⟩ := hcarries.afterSending hinput hsends
      rcases hnext with ⟨task, htask, rfl⟩ | ⟨ending, rfl⟩
      · exact ⟨hafter.withInput (iff_of_false htask hinput), hstays⟩
      · exact ⟨hafter.endInput hinput ending, hstays⟩
  | output =>
      obtain ⟨hrelaying, inbox, reset, relay, -, hnext⟩ := actOutput?_cases hact
      let socket := state.socket.update .near fun near =>
        { near with inbox := inbox, reset := reset }
      have hread : { state with socket := socket }.Carries origin :=
        Connection.Carries.read hcarries (holders_ne_zero_of_relaying hrelaying) inbox reset
      rcases hnext with rfl | ⟨completions, rfl⟩
      · exact ⟨hread, fun hreturned => ⟨hreturned, rfl⟩⟩
      · exact ⟨hread.endOutput hrelaying relay completions, fun hreturned => ⟨hreturned, rfl⟩⟩

end Carries

/-! ## After the return -/

/-- Nothing can be sent any more, and the server can read what has been sent to its end. -/
structure Sealed (received : List Bytes) (state : Streaming) : Prop where
  /-- Every handle that is left shows that the write direction is closed, and refuses every
  message. -/
  closed : state.socket.near.handles ≠ 0 → state.socket.near.closed = true ∧
    ∀ bytes, ∃ cause after, state.socket.send .near bytes = (.error cause, after)
  reads_out : ∃ rest, state.socket.ReadsOut rest ∧
    state.server.received.flatten ++ rest = received.flatten ++ state.forwarded.flatten
  /-- A reset comes only from what the client has left unread. -/
  reset : state.socket.far.reset = true →
    state.socket.near.handles = 0 ∧ Connection.hasUnread state.socket.near.inbox = true

/-- A sealed session stays so, whatever a task that is still reading finds in the input, and
sends nothing more. -/
structure SealedForGood (received : List Bytes) (state : Streaming) : Prop where
  now : state.Sealed received
  later : ∀ task more, (task = .ended ↔ state.input = .ended) →
    ({ state with input := task }.follow more).Sealed received ∧
      ({ state with input := task }.follow more).forwarded = state.forwarded

variable {received : List Bytes}

theorem Carries.sealed (hcarries : state.Carries received.flatten)
    (hreturned : state.hasReturned = true) : state.Sealed received := by
  obtain ⟨hnear, hfar⟩ := hcarries.shut hreturned
  refine ⟨?_, ⟨_, Connection.readsOut_of_shut hfar hcarries.filled, hcarries.conserved⟩,
    hcarries.unread⟩
  intro hhandle
  obtain ⟨hclosed, hshut⟩ := hnear hhandle
  exact ⟨hclosed, state.socket.send_of_writeShut .near hshut⟩

theorem Carries.follow (hcarries : state.Carries origin) (turns : List Party) :
    (state.follow turns).Carries origin :=
  follow_preserves (fun hcurrent hact => (hcurrent.step hact).1) hcarries turns

/-- After the return nothing more is sent. -/
theorem Carries.forwarded_follow (hcarries : state.Carries origin)
    (hreturned : state.hasReturned = true) (turns : List Party) :
    (state.follow turns).hasReturned = true ∧
      (state.follow turns).forwarded = state.forwarded := by
  let Keeps (after : Streaming) : Prop :=
    after.Carries origin ∧ after.hasReturned = true ∧ after.forwarded = state.forwarded
  have hstart : Keeps state := ⟨hcarries, hreturned, rfl⟩
  have hstep : ∀ {current next : Streaming} {party : Party}, Keeps current →
      current.act? party = some next → Keeps next := by
    intro current next party hcurrent hact
    obtain ⟨hcarries, hreturned, hforwarded⟩ := hcurrent
    obtain ⟨hnext, hstays⟩ := hcarries.step hact
    obtain ⟨hreturned, hsame⟩ := hstays hreturned
    exact ⟨hnext, hreturned, hsame.trans hforwarded⟩
  exact (follow_preserves hstep hstart turns).2

theorem Carries.sealedForGood (hcarries : state.Carries received.flatten)
    (hreturned : state.hasReturned = true) : state.SealedForGood received := by
  refine ⟨hcarries.sealed hreturned, ?_⟩
  intro task more htask
  have hother := hcarries.withInput htask
  obtain ⟨hlater, hforwarded⟩ := hother.forwarded_follow hreturned more
  exact ⟨(hother.follow more).sealed hlater, hforwarded⟩

/-- Whatever the result is that the coordinator is about to return, its last turn seals the
session. -/
theorem Carries.exit (hcarries : state.Carries received.flatten)
    (hearly : state.hasReturned = false) (result : Except AttachError Unit) :
    let exit := { state with phase := .finishing result }.turn .coordinator
    exit.result? = some result ∧ exit.SealedForGood received := by
  intro exit
  have hsocket := hcarries
  unfold Carries at hsocket
  rw [hearly] at hsocket
  obtain ⟨hfinishing, -⟩ := Carries.of_phase hearly hsocket state.completions state.hooked
    (show ∀ other, Phase.finishing result ≠ .returned other by simp)
  have hact : { state with phase := .finishing result }.act? .coordinator = some exit := rfl
  exact ⟨rfl, (hfinishing.step hact).1.sealedForGood rfl⟩

/-! ## The opening -/

theorem carries_start {config : AttachConfig} {socket : Connection} {server : Server}
    (hsocket : socket.Carries origin 1 false server.received []) :
    (Streaming.start config socket server).Carries origin := by
  have hinput : InputTask.start config.streams.stdin config.detachKeys ≠ .ended := by
    cases config.streams.stdin <;> simp [InputTask.start]
  have hholders : (Streaming.start config socket server).holders = 3 := by
    unfold holders
    show 1 + (if InputTask.start config.streams.stdin config.detachKeys = .ended then 0 else 1) +
      1 = 3
    rw [if_neg hinput]
  have hquiet := hsocket.no_reset Nat.one_ne_zero
  obtain ⟨hhandles, hconserved, hfilled, -, -, -⟩ := hsocket
  have hthree : ((socket.retain .near).retain .near).near.handles = 3 := by
    show socket.near.handles + 1 + 1 = 3
    rw [hhandles]
  unfold Carries
  rw [hholders]
  exact ⟨hthree, hconserved, hfilled,
    fun hreturned => absurd hreturned (by simp [hasReturned, Streaming.start]),
    fun hzero => absurd hzero (by simp),
    fun hreset => absurd (hquiet.symm.trans hreset) Bool.false_ne_true⟩

/-- Where only the output task was started, the client has a handle for it and its own. -/
theorem carries_halted {config : AttachConfig} {socket : Connection} {server : Server}
    (hsocket : socket.Carries origin 1 false server.received []) (error : AttachError) :
    (halted config socket server error).Carries origin := by
  have hquiet := hsocket.no_reset Nat.one_ne_zero
  obtain ⟨hhandles, hconserved, hfilled, -, -, -⟩ := hsocket
  have htwo : (socket.retain .near).near.handles = 2 := by
    show socket.near.handles + 1 = 2
    rw [hhandles]
  have hholders : (halted config socket server error).holders = 2 := rfl
  unfold Carries
  rw [hholders]
  exact ⟨htwo, hconserved, hfilled,
    fun hreturned => absurd hreturned (by simp [hasReturned, halted]),
    fun hzero => absurd hzero (by simp),
    fun hreset => absurd (hquiet.symm.trans hreset) Bool.false_ne_true⟩

theorem carries_opening {config : AttachConfig} {socket : Connection} {server : Server}
    (hsocket : socket.Carries origin 1 false server.received []) (refused : SessionRefusals) :
    (Streaming.opening config socket server refused).Carries origin := by
  unfold opening
  split
  · exact hsocket.withdraw
  · split
    · exact carries_start hsocket
    · exact carries_halted hsocket _
    · exact hsocket.withdraw

end Streaming

/-- The server takes so many turns on a socket that nobody else uses yet. -/
def Server.advance (accepted : Nat) : Nat → Server × Connection → Server × Connection
  | 0, begun => begun
  | turns + 1, (server, socket) =>
    match server.act? accepted socket with
    | none => (server, socket)
    | some begun => advance accepted turns begun

theorem Server.carries_advance {origin : Bytes} (accepted turns : Nat) :
    ∀ {begun : Server × Connection}, begun.2.Carries origin 1 false begun.1.received [] →
      (Server.advance accepted turns begun).2.Carries origin 1 false
        (Server.advance accepted turns begun).1.received [] := by
  induction turns with
  | zero => exact id
  | succ turns ih =>
      rintro ⟨server, socket⟩ hcarries
      rw [advance]
      split
      · exact hcarries
      · next hact => exact ih (Connection.Carries.does hcarries (act?_does hact))

namespace Client

variable {client : Client} {net : Network} {config : AttachConfig}

/-- The state in which a session begins on its socket after the server has taken so many
turns. -/
def openingAfter (client : Client) (config : AttachConfig) (server : Server) (early : Nat)
    (refused : SessionRefusals := {}) : Streaming :=
  match Server.advance config.streams.outputs.acceptedCount early
    (server, { kind := client.kind }) with
  | (server, socket) => .opening config socket server refused

theorem carries_openingAfter (client : Client) (config : AttachConfig) (server : Server)
    (early : Nat) (refused : SessionRefusals) :
    (client.openingAfter config server early refused).Carries server.received.flatten := by
  have hfresh : ({ kind := client.kind } : Connection).Carries server.received.flatten 1 false
      server.received [] :=
    ⟨rfl, rfl, by simp, by simp, by simp, by simp⟩
  exact Streaming.carries_opening
    (Server.carries_advance config.streams.outputs.acceptedCount early hfresh) refused

/-- **The socket is closed for writing on every way out.**  A session on a socket is turns
from its opening.  In every state after its return, whatever the schedule and the result,
whatever was refused to it, and however many turns the server has taken before the streams were
started, no handle can write, and the server reads exactly what has been forwarded and then the
end.  This stays so when a task that is still reading comes back with more input.  It holds too if
the coordinator gives up at any other time, with any result. -/
theorem attach_seals (hconnected : client.Connected net config) (server : Server)
    (schedule : List Party) (refused : SessionRefusals) :
    (∃ turns, schedule <+: turns ∧
      client.attach net config server schedule refused =
        ((client.openingAfter config server 0 refused).follow turns).outcome
          (.announce config.request :: .connect config.socketPath :: config.openingEvents)
          (client.resizeLog config refused)) ∧
    ∀ early turns,
      let state := (client.openingAfter config server early refused).follow turns
      (state.hasReturned = true → state.SealedForGood server.received) ∧
      (state.hasReturned = false → ∀ result,
        let exit := { state with phase := .finishing result }.turn .coordinator
        exit.result? = some result ∧ exit.SealedForGood server.received) := by
  constructor
  · obtain ⟨turns, hprefix, hturns⟩ :=
      (client.openingAfter config server 0 refused).exists_run_eq_follow schedule
    refine ⟨turns, hprefix, ?_⟩
    rw [attach_of_connected hconnected, ← hturns]
    rfl
  · intro early turns state
    have hcarries : state.Carries server.received.flatten :=
      (carries_openingAfter client config server early refused).follow turns
    exact ⟨hcarries.sealedForGood, hcarries.exit⟩

/-- The second hook fails while the input is still being read.  The bytes that are read after
that do not reach the server. -/
theorem attach_seals_released_input :
    let net : Network := (({} : Network).listen "attach" .packet).2
    let config : AttachConfig :=
      { id := "c"
        socketPath := "attach"
        streams := { stdin := some [.read (.data [97]), .block], stdout := some {} }
        postAttach := some { error := some "refused" } }
    let server : Server := { steps := [.drain] }
    let state := (({} : Client).openingAfter config server 0).follow
      [.input, .coordinator, .coordinator]
    let later := { state with input := .forwarding ⟨[98, 99], []⟩ (.ofKeys []) 1 }.follow
      [.server, .input, .server, .server]
    ({} : Client).Connected net config ∧
      state.result? = some (.error (.postAttach "refused")) ∧
      later.forwarded = [[97]] ∧
      ∃ rest, later.socket.ReadsOut rest ∧ later.server.received.flatten ++ rest = [97] := by
  intro net config server state later
  have hconnected : ({} : Client).Connected net config :=
    ⟨rfl, rfl, Network.isOk_connect_attach⟩
  have hresult : state.result? = some (.error (.postAttach "refused")) := by cbv
  have hreturned : state.hasReturned = true := by decide +kernel
  have hreading : state.input ≠ .ended := by decide +kernel
  have hsent : state.forwarded = [[97]] := by decide +kernel
  have hlaw := ((attach_seals hconnected server [] {}).2 0 [.input, .coordinator, .coordinator]).1
  have hsealed : state.SealedForGood [] := hlaw hreturned
  have hlater : later.Sealed [] ∧ later.forwarded = state.forwarded :=
    hsealed.later _ _ (iff_of_false (by simp) hreading)
  have hforwarded : later.forwarded = [[97]] := hlater.2.trans hsent
  obtain ⟨rest, hreads, hbytes⟩ := hlater.1.reads_out
  rw [hforwarded] at hbytes
  exact ⟨hconnected, hresult, hforwarded, rest, hreads, hbytes⟩

end Client

end ContainerAttach
