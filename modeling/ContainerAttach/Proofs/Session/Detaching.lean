import ContainerAttach.Proofs.Session.Exchange
import ContainerAttach.Proofs.Session.Sealing

/-!
# Detaching from end to end

The user types the detach keys in a session whose server listens to the end of the input and
does nothing before that.  The input may wait for output, block or crash behind the keys;
what counts is how much of it can be read (`InputSource.readable`).

Such a session is always in one of four stages (`Detachment.Stage`):

* the input is being forwarded, and what is left of it ends with the keys;
* the keys have been typed, and their report has not been looked at;
* the session is decided, and the server has not come to the end of the input;
* the server has come to the end of the input.

In the first two stages the output is still being relayed, so the session does not wait for
it.  In the first three somebody can act, and in the last somebody can act until the session
has returned (`Stage.rest`).  What the server has received is then what has been forwarded,
which the search in the whole input tells (`Client.attach_detaches`).
-/

namespace ContainerAttach

/-! ## Reading -/

/-- The steps of an input that can be read one after the other, if the sinks have accepted so
many bytes and accept no more. -/
def InputStep.readable (accepted : Nat) : List InputStep → List ReadStep
  | [] => []
  | .read step :: steps => step :: readable accepted steps
  | .waitOut count :: steps => if count ≤ accepted then readable accepted steps else []
  | .block :: _ => []
  | .crash :: _ => []

/-- What can be read of an input, as a source. -/
def InputSource.readable (accepted : Nat) (source : InputSource) : Source :=
  ⟨.stream, source.held, InputStep.readable accepted source.steps⟩

/-- As long as there is something to be read, a turn reads it or ends a wait. -/
theorem InputSource.turn_readable (source : InputSource) (capacity accepted : Nat) :
    (∃ result left, source.turn capacity accepted false = .gives result left ∧
      (source.readable accepted).read capacity = (result, left.readable accepted)) ∨
    (∃ left, source.turn capacity accepted false = .ready left ∧
      left.readable accepted = source.readable accepted) ∨
    ∃ left, (source.readable accepted).read capacity = (.data [], left) := by
  obtain ⟨held, steps⟩ := source
  cases held with
  | cons byte rest => exact Or.inl ⟨_, _, rfl, rfl⟩
  | nil =>
      cases steps with
      | nil => exact Or.inl ⟨_, _, rfl, rfl⟩
      | cons step steps =>
          cases step with
          | read step => cases step <;> exact Or.inl ⟨_, _, rfl, rfl⟩
          | block | crash => exact Or.inr (Or.inr ⟨_, rfl⟩)
          | waitOut count =>
              by_cases hcount : count ≤ accepted
              · refine Or.inr (Or.inl ⟨⟨[], steps⟩, if_pos hcount, ?_⟩)
                simp [readable, InputStep.readable, hcount]
              · refine Or.inr (Or.inr ⟨⟨.stream, [], []⟩, ?_⟩)
                simp [readable, InputStep.readable, hcount, Source.read]

/-- What is left of the task's run ends with the keys and with all messages sent. -/
inductive InputTask.Detaches (accepted : Nat) (messages : List Bytes) :
    InputTask → List Bytes → Prop
  | typing {source : InputSource} {rest : Source} {scanner : DetachScanner} {written count : Nat}
      {sent : List Bytes}
      (forward_eq : forward (source.readable accepted) scanner (.holding sent) written =
        (.failed (.detached count), rest, .holding messages)) :
      Detaches accepted messages (.forwarding source scanner written) sent

/-- What has been sent is where the messages start. -/
theorem InputTask.Detaches.starts {accepted : Nat} {messages sent : List Bytes}
    {task : InputTask} (hdetaches : task.Detaches accepted messages sent) :
    sent <+: messages := by
  cases hdetaches with
  | typing forward_eq =>
      obtain ⟨more, hmore, -⟩ := forward_holding _ _ sent _
      rw [forward_eq] at hmore
      exact ⟨more, (Sink.holding_injective hmore).symm⟩

namespace Streaming

variable {state next : Streaming} {messages : List Bytes}

/-- A turn of the input task sends some of the messages and goes on, or the keys are typed and
all of them are sent. -/
theorem actInput?_of_detaches
    (hdetaches : state.input.Detaches state.accepted messages state.forwarded)
    (hearly : state.hasReturned = false) (hopen : OpenForWriting state.socket)
    (hlimit : state.socket.kind = .packet →
      ∀ message ∈ messages, message.length ≤ Connection.messageLimit) :
    ∃ more,
      (∃ after, InputTask.Detaches state.accepted messages after (state.forwarded ++ more) ∧
        state.actInput? = some { state.sending more with input := after }) ∨
      (messages = state.forwarded ++ more ∧ ∃ count,
        state.actInput? = some ((state.sending more).endInput (.failed (.detached count)))) := by
  rcases hinput : state.input with _ | ⟨source, scanner, written⟩ | _ <;>
    rw [hinput] at hdetaches <;> cases hdetaches
  next rest count forward_eq =>
  rcases source.turn_readable forwardCapacity state.accepted with
    ⟨result, left, hturn, hread⟩ | ⟨left, hturn, hsame⟩ | ⟨left, hend⟩
  · have hact : state.actInput? = some (state.onInput left written (scanner.react result)) := by
      simp only [actInput?, hinput, hearly, hturn]
    rw [hact]
    obtain ⟨more, ⟨scanner', written', hrest, hgoes⟩ | ⟨hall, hends⟩⟩ :=
      onInput_of_forward hopen hread forward_eq hlimit left
    · exact ⟨more, Or.inl ⟨_, .typing hrest, by rw [hgoes]⟩⟩
    · exact ⟨more, Or.inr ⟨hall, count, by rw [hends]⟩⟩
  · refine ⟨[], Or.inl ⟨.forwarding left scanner written, ?_, ?_⟩⟩
    · rw [List.append_nil]
      exact .typing (by rw [hsame]; exact forward_eq)
    · rw [sending_nil]
      simp only [actInput?, hinput, hearly, hturn]
  · -- a run that comes to the end of its source does not detach
    rw [forward_of_writeAll hend (scanner.react_end) (Sink.writeAll_holding _ _)] at forward_eq
    exact absurd (Prod.mk.inj forward_eq).1 (by simp)

/-! ## Turns of the others -/

/-- A server that listens takes something from its queue. -/
theorem actServer?_of_filled {rest : List ServerStep}
    (hsteps : state.server.steps = .drain :: rest) (hreset : state.socket.far.reset = false)
    (hinbox : state.socket.far.inbox ≠ [])
    (hfilled : ∀ message ∈ state.socket.far.inbox, message ≠ []) :
    ∃ bytes inbox, bytes ≠ [] ∧ state.reads .server = [.data bytes] ∧
      state.actServer? =
        some { state with
          server := { state.server with received := state.server.received ++ [bytes] }
          socket := state.socket.update .far fun here => { here with inbox := inbox } } := by
  have hroom : (state.socket.endpoint .far).inbox.flatten.length ≤
      Server.roomFor state.socket.far := Nat.le_refl _
  rcases state.socket.receive_whole .far hroom with ⟨bytes, inbox, hreceive, -, -, hrest⟩ |
    ⟨htrue, -⟩ | ⟨hempty, -⟩
  · obtain ⟨hbytes, -⟩ := hrest hfilled
    refine ⟨bytes, inbox, hbytes, ?_, ?_⟩
    · simp only [reads, Server.reads, hsteps, hreceive, Received.logged]
    · obtain ⟨byte, tail, rfl⟩ := List.exists_cons_of_ne_nil hbytes
      simp only [actServer?, Server.act?, hsteps, Server.read?, hreceive]
  · exact absurd (hreset.symm.trans htrue) Bool.false_ne_true
  · exact absurd hempty hinbox

end Streaming

/-! ## Stages -/

/-- A session in which the keys are typed, with a server that listens to the end of the input
before it does anything else. -/
structure Detachment where
  policy : Policy
  postAttach : Option Hook
  /-- The number of bytes that the sinks have accepted at the start. -/
  accepted : Nat
  /-- What is forwarded in front of the keys. -/
  messages : List Bytes
  /-- What the server does after the end of the input. -/
  script : List ServerStep
  goes_on : ¬ policy.StopsWithInput
  passes : Hook.Passes accepted postAttach

namespace Detachment

variable (d : Detachment)

/-- The server has not come to the end of the input, and has sent nothing. -/
structure Listening (log : List Received) (state : Streaming) : Prop where
  steps_eq : state.server.steps = .drain :: d.script
  log_eq : log = state.server.received.map .data
  inbox_eq : state.socket.near.inbox = []
  no_reset : state.socket.far.reset = false

/-- Nothing has been decided, the output is being relayed, and nothing has been closed. -/
structure Undecided (state : Streaming) : Prop where
  policy_eq : state.policy = d.policy
  postAttach_eq : state.postAttach = d.postAttach
  accepted_eq : state.accepted = d.accepted
  relaying : state.relaying = true
  undecided : Exchange.Undecided state.phase
  open_near : Streaming.OpenForWriting state.socket
  not_closed : state.socket.near.closed = false
  near_readable : state.socket.near.readShut = false
  far_readable : state.socket.far.readShut = false
  fits : state.socket.kind = .packet →
    ∀ message ∈ d.messages, message.length ≤ Connection.messageLimit

/-- The input has ended with the keys, and that is the result. -/
structure Decided (state : Streaming) : Prop where
  input_eq : state.input = .ended
  forwarded_eq : state.forwarded = d.messages
  phase_eq : state.phase = .finishing (.error .detached) ∨
    state.phase = .returned (.error .detached)

/-- How far a session is, with what the server has read so far. -/
inductive Stage (log : List Received) (state : Streaming) : Prop
  | typing (listening : d.Listening log state) (undecided : d.Undecided state)
      (completions_eq : state.completions = [])
      (detaches : state.input.Detaches d.accepted d.messages state.forwarded)
  | typed (listening : d.Listening log state) (undecided : d.Undecided state)
      (completions_eq : state.completions = [.input (.error .detached)])
      (input_eq : state.input = .ended) (forwarded_eq : state.forwarded = d.messages)
  | decided (listening : d.Listening log state) (decided : d.Decided state)
      (shut : state.socket.far.readShut = true)
  | heard {chunks : List Bytes} {tail : List Received} (decided : d.Decided state)
      (inbox_eq : state.socket.far.inbox = [])
      (log_eq : log = chunks.map .data ++ .data [] :: tail)
      (whole : chunks.flatten = d.messages.flatten)
      (silent : tail.flatMap Received.messages = [])

variable {d} {log : List Received} {state next : Streaming} {party : Party}

/-! ## One turn -/

/-- A turn of the server takes something from its queue, or comes to the end of the input. -/
theorem Listening.server (hlistening : d.Listening log state)
    (hfilled : ∀ message ∈ state.socket.far.inbox, message ≠ [])
    (hact : state.act? .server = some next) :
    (∃ bytes inbox, state.reads .server = [.data bytes] ∧
      next = { state with
        server := { state.server with received := state.server.received ++ [bytes] }
        socket := state.socket.update .far fun here => { here with inbox := inbox } }) ∨
    (state.socket.far.inbox = [] ∧ state.socket.far.readShut = true ∧
      state.reads .server = [.data []] ∧
      next = { state with server := { state.server with steps := d.script } }) := by
  by_cases hinbox : state.socket.far.inbox = []
  · have hempty := state.actServer?_of_empty hlistening.steps_eq hlistening.no_reset hinbox
    cases hshut : state.socket.far.readShut with
    | false =>
        rw [hshut] at hempty
        exact absurd (hact.symm.trans hempty) (by simp)
    | true =>
        rw [hshut] at hempty
        obtain ⟨hends, hreads⟩ := hempty
        exact Or.inr ⟨hinbox, rfl, hreads, Option.some.inj (hact.symm.trans hends)⟩
  · obtain ⟨bytes, inbox, -, hreads, htakes⟩ :=
      Streaming.actServer?_of_filled hlistening.steps_eq hlistening.no_reset hinbox hfilled
    exact Or.inl ⟨bytes, inbox, hreads, Option.some.inj (hact.symm.trans htakes)⟩

/-- What the server takes is logged. -/
theorem Listening.take (hlistening : d.Listening log state) (bytes : Bytes)
    (inbox : List Bytes) :
    d.Listening (log ++ [.data bytes]) { state with
      server := { state.server with received := state.server.received ++ [bytes] }
      socket := state.socket.update .far fun here => { here with inbox := inbox } } := by
  refine ⟨hlistening.steps_eq, ?_, hlistening.inbox_eq, hlistening.no_reset⟩
  rw [hlistening.log_eq, List.map_append, List.map_singleton]

/-- As long as nothing has been decided, the output task waits. -/
theorem Undecided.output (hundecided : d.Undecided state) (hlistening : d.Listening log state) :
    state.act? .output = none :=
  state.actOutput?_of_empty hundecided.open_near.no_reset hlistening.inbox_eq
    hundecided.near_readable

theorem Undecided.hasReturned (hundecided : d.Undecided state) : state.hasReturned = false := by
  have hphase := hundecided.undecided
  rw [Streaming.hasReturned]
  cases hstate : state.phase with
  | returned result =>
      rw [hstate] at hphase
      cases hphase
  | started | settling | awaiting | finishing => rfl

/-! ### While the keys are being typed -/

/-- The input goes on, or it ends with the keys and reports them. -/
theorem typing_input (hcarries : state.Carries []) (hlistening : d.Listening log state)
    (hundecided : d.Undecided state) (hcompletions : state.completions = [])
    (hdetaches : state.input.Detaches d.accepted d.messages state.forwarded)
    (hact : state.act? .input = some next) : d.Stage log next := by
  have hearly := hundecided.hasReturned
  rw [← hundecided.accepted_eq] at hdetaches
  obtain ⟨more, ⟨after, hafter, hgoes⟩ | ⟨hall, count, hends⟩⟩ :=
    Streaming.actInput?_of_detaches hdetaches hearly hundecided.open_near hundecided.fits
  · obtain rfl := Option.some.inj (hact.symm.trans hgoes)
    rw [hundecided.accepted_eq] at hafter
    obtain ⟨hpolicy, hhook, haccepted, hrelaying, hphase, hopen, hclosed, hnear, hfar, hfits⟩ :=
      hundecided
    exact .typing
      ⟨hlistening.steps_eq, hlistening.log_eq, hlistening.inbox_eq, hlistening.no_reset⟩
      ⟨hpolicy, hhook, haccepted, hrelaying, hphase, ⟨hopen.1, hopen.2⟩, hclosed, hnear, hfar,
        hfits⟩
      hcompletions hafter
  · have hinput : state.input ≠ .ended := by
      intro hended
      rw [hended] at hdetaches
      cases hdetaches
    -- the other two handles are still there
    have hhandles : (state.sending more).socket.near.handles ≠ 1 := by
      show state.socket.near.handles ≠ 1
      rw [hcarries.handles_eq]
      simp [Streaming.holders, hearly, hinput, hundecided.relaying]
    have hnext : next = { state.sending more with
        input := .ended
        completions := [.input (.error .detached)]
        socket := ⟨state.socket.kind,
          { state.socket.near with handles := state.socket.near.handles - 1 },
          (state.socket.enqueue .far more).far⟩ } := by
      rw [Option.some.inj (hact.symm.trans hends), Streaming.endInput,
        Connection.release_near, if_neg hhandles, Completion.ofForward_eq,
        show (state.sending more).completions = [] from hcompletions]
      rfl
    obtain ⟨hpolicy, hhook, haccepted, hrelaying, hphase, hopen, hclosed, hnear, hfar, hfits⟩ :=
      hundecided
    rw [hnext]
    exact .typed
      ⟨hlistening.steps_eq, hlistening.log_eq, hlistening.inbox_eq, hlistening.no_reset⟩
      ⟨hpolicy, hhook, haccepted, hrelaying, hphase, ⟨hopen.1, hopen.2⟩, hclosed, hnear, hfar,
        hfits⟩
      rfl rfl hall.symm

/-- As long as nothing has been decided, the server only takes what is queued. -/
theorem Undecided.server (hundecided : d.Undecided state) (hlistening : d.Listening log state)
    (hfilled : ∀ message ∈ state.socket.far.inbox, message ≠ [])
    (hact : state.act? .server = some next) :
    d.Listening (log ++ state.reads .server) next ∧ d.Undecided next ∧
      next.input = state.input ∧ next.forwarded = state.forwarded ∧
      next.completions = state.completions := by
  rcases hlistening.server hfilled hact with ⟨bytes, inbox, hreads, rfl⟩ | ⟨-, hshut, -⟩
  · rw [hreads]
    obtain ⟨hpolicy, hhook, haccepted, hrelaying, hphase, hopen, hclosed, hnear, hfar, hfits⟩ :=
      hundecided
    exact ⟨hlistening.take bytes inbox,
      ⟨hpolicy, hhook, haccepted, hrelaying, hphase, ⟨hopen.1, hopen.2⟩, hclosed, hnear, hfar,
        hfits⟩, rfl, rfl, rfl⟩
  · exact absurd (hundecided.far_readable.symm.trans hshut) Bool.false_ne_true

/-- The second hook passes. -/
theorem Undecided.hook (hundecided : d.Undecided state) (hlistening : d.Listening log state)
    (hphase : state.phase = .started) (hact : state.act? .coordinator = some next) :
    d.Listening log next ∧ d.Undecided next ∧
      next.input = state.input ∧ next.forwarded = state.forwarded ∧
      next.completions = state.completions := by
  have hpasses : Hook.Passes state.accepted state.postAttach := by
    rw [hundecided.accepted_eq, hundecided.postAttach_eq]
    exact d.passes
  obtain ⟨called, hcalled⟩ := state.actHook?_of_passes hpasses
  have hhook : state.act? .coordinator = state.actHook? := by
    simp only [Streaming.act?, Streaming.actCoordinator?, hphase]
  obtain rfl := Option.some.inj (hact.symm.trans (hhook.trans hcalled))
  obtain ⟨hpolicy, hhook, haccepted, hrelaying, -, hopen, hclosed, hnear, hfar, hfits⟩ :=
    hundecided
  exact ⟨⟨hlistening.steps_eq, hlistening.log_eq, hlistening.inbox_eq, hlistening.no_reset⟩,
    ⟨hpolicy, hhook, haccepted, hrelaying, .settling, hopen, hclosed, hnear, hfar, hfits⟩,
    rfl, rfl, rfl⟩

theorem typing_step (hcarries : state.Carries []) (hlistening : d.Listening log state)
    (hundecided : d.Undecided state) (hcompletions : state.completions = [])
    (hdetaches : state.input.Detaches d.accepted d.messages state.forwarded)
    (hact : state.act? party = some next) : d.Stage (log ++ state.reads party) next := by
  cases party with
  | input =>
      show d.Stage (log ++ []) next
      rw [List.append_nil]
      exact typing_input hcarries hlistening hundecided hcompletions hdetaches hact
  | server =>
      obtain ⟨hlater, hstill, hinput, hforwarded, hsame⟩ :=
        hundecided.server hlistening hcarries.filled hact
      exact .typing hlater hstill (hsame.trans hcompletions) (by rwa [hinput, hforwarded])
  | output => exact absurd (hact.symm.trans (hundecided.output hlistening)) (by simp)
  | coordinator =>
      show d.Stage (log ++ []) next
      rw [List.append_nil]
      cases hphase : state.phase with
      | started =>
          obtain ⟨hlater, hstill, hinput, hforwarded, hsame⟩ :=
            hundecided.hook hlistening hphase hact
          exact .typing hlater hstill (hsame.trans hcompletions) (by rwa [hinput, hforwarded])
      | settling =>
          have hwaits : state.act? .coordinator = none := by
            simp only [Streaming.act?, Streaming.actCoordinator?, hphase, hcompletions]
            exact state.onNoCompletion?_of_relaying hundecided.relaying
          exact absurd (hact.symm.trans hwaits) (by simp)
      | awaiting | finishing | returned =>
          have hundecided := hundecided.undecided
          rw [hphase] at hundecided
          cases hundecided

/-! ### After the keys have been typed -/

/-- The report of the keys closes the write direction and decides. -/
theorem typed_first (hlistening : d.Listening log state) (hundecided : d.Undecided state)
    (hcompletions : state.completions = [.input (.error .detached)])
    (hinput : state.input = .ended) (hforwarded : state.forwarded = d.messages)
    (hphase : state.phase = .settling) :
    ∃ after, state.act? .coordinator = some after ∧ d.Stage log after := by
  have hdecision : ∀ closed, state.policy.onFirst closed (.input (.error .detached)) =
      .settled (.error .detached) := by
    intro closed
    rw [hundecided.policy_eq]
    exact Policy.onFirst_detached closed d.goes_on
  have hact : state.act? .coordinator = some (state.onFirst (.input (.error .detached)) []) := by
    simp only [Streaming.act?, Streaming.actCoordinator?, hphase, hcompletions]
  refine ⟨_, hact, ?_⟩
  have hclose := state.socket.closeWrite_near
  rw [hundecided.not_closed] at hclose
  simp only [Streaming.onFirst, hclose, hdecision]
  exact .decided
    ⟨hlistening.steps_eq, hlistening.log_eq, hlistening.inbox_eq, hlistening.no_reset⟩
    ⟨hinput, hforwarded, Or.inl rfl⟩ rfl

theorem typed_step (hcarries : state.Carries []) (hlistening : d.Listening log state)
    (hundecided : d.Undecided state)
    (hcompletions : state.completions = [.input (.error .detached)])
    (hinput : state.input = .ended) (hforwarded : state.forwarded = d.messages)
    (hact : state.act? party = some next) : d.Stage (log ++ state.reads party) next := by
  cases party with
  | input => exact absurd hact (by simp [Streaming.act?, Streaming.actInput?, hinput])
  | server =>
      obtain ⟨hlater, hstill, hsame, hsent, hqueue⟩ :=
        hundecided.server hlistening hcarries.filled hact
      exact .typed hlater hstill (hqueue.trans hcompletions) (hsame.trans hinput)
        (hsent.trans hforwarded)
  | output => exact absurd (hact.symm.trans (hundecided.output hlistening)) (by simp)
  | coordinator =>
      show d.Stage (log ++ []) next
      rw [List.append_nil]
      cases hphase : state.phase with
      | started =>
          obtain ⟨hlater, hstill, hsame, hsent, hqueue⟩ :=
            hundecided.hook hlistening hphase hact
          exact .typed hlater hstill (hqueue.trans hcompletions) (hsame.trans hinput)
            (hsent.trans hforwarded)
      | settling =>
          obtain ⟨after, hfirst, hstage⟩ :=
            typed_first hlistening hundecided hcompletions hinput hforwarded hphase
          obtain rfl := Option.some.inj (hact.symm.trans hfirst)
          exact hstage
      | awaiting | finishing | returned =>
          have hundecided := hundecided.undecided
          rw [hphase] at hundecided
          cases hundecided

/-! ### After the session has been decided -/

/-- The coordinator returns, if it has not done so. -/
theorem Decided.coordinator (hdecided : d.Decided state)
    (hact : state.act? .coordinator = some next) :
    next = { state with
      socket := (state.socket.shutdown .near).2.release .near
      phase := .returned (.error .detached) } := by
  rcases hdecided.phase_eq with hphase | hphase
  · simp only [Streaming.act?, Streaming.actCoordinator?, hphase] at hact
    exact (Option.some.inj hact).symm
  · exact absurd hact (by simp [Streaming.act?, Streaming.actCoordinator?, hphase])

theorem decided_step (hcarries : state.Carries []) (hlistening : d.Listening log state)
    (hdecided : d.Decided state) (hshut : state.socket.far.readShut = true)
    (hact : state.act? party = some next) : d.Stage (log ++ state.reads party) next := by
  cases party with
  | input => exact absurd hact (by simp [Streaming.act?, Streaming.actInput?, hdecided.input_eq])
  | server =>
      rcases hlistening.server hcarries.filled hact with
        ⟨bytes, inbox, hreads, rfl⟩ | ⟨hinbox, -, hreads, rfl⟩
      · rw [hreads]
        exact .decided (hlistening.take bytes inbox)
          ⟨hdecided.input_eq, hdecided.forwarded_eq, hdecided.phase_eq⟩ hshut
      · -- all that has been forwarded has been received
        have hwhole := hcarries.conserved
        rw [hinbox, hdecided.forwarded_eq] at hwhole
        rw [hreads, hlistening.log_eq]
        exact .heard ⟨hdecided.input_eq, hdecided.forwarded_eq, hdecided.phase_eq⟩ hinbox rfl
          (by simpa using hwhole) rfl
  | output =>
      show d.Stage (log ++ []) next
      rw [List.append_nil]
      obtain ⟨-, inbox, reset, relay, hempty, hnext⟩ := Streaming.actOutput?_cases hact
      let socket := state.socket.update .near fun near =>
        { near with inbox := inbox, reset := reset }
      have hnear : socket.near.inbox = [] := hempty hlistening.inbox_eq
      rcases hnext with rfl | ⟨completions, rfl⟩
      · exact .decided
          ⟨hlistening.steps_eq, hlistening.log_eq, hnear, hlistening.no_reset⟩
          ⟨hdecided.input_eq, hdecided.forwarded_eq, hdecided.phase_eq⟩ hshut
      · obtain ⟨hempty, -, hreset, hstill⟩ := Connection.release_quiet hnear
        exact .decided
          ⟨hlistening.steps_eq, hlistening.log_eq, hempty, hreset.trans hlistening.no_reset⟩
          ⟨hdecided.input_eq, hdecided.forwarded_eq, hdecided.phase_eq⟩ (hstill hshut)
  | coordinator =>
      show d.Stage (log ++ []) next
      rw [List.append_nil, hdecided.coordinator hact]
      have hdown := state.socket.shutdown_near
      obtain ⟨hempty, -, hreset, hstill⟩ :=
        Connection.release_quiet (show (state.socket.shutdown .near).2.near.inbox = [] by
          rw [hdown]; exact hlistening.inbox_eq)
      rw [hdown] at hreset hstill
      exact .decided
        ⟨hlistening.steps_eq, hlistening.log_eq, hempty, by
          rw [hdown]; exact hreset.trans hlistening.no_reset⟩
        ⟨hdecided.input_eq, hdecided.forwarded_eq, Or.inr rfl⟩ (by rw [hdown]; exact hstill rfl)

/-- Whatever the server does after the end of the input, there is nothing more to be read. -/
theorem heard_step {chunks : List Bytes} {tail : List Received} (hdecided : d.Decided state)
    (hinbox : state.socket.far.inbox = []) (hlog : log = chunks.map .data ++ .data [] :: tail)
    (hwhole : chunks.flatten = d.messages.flatten)
    (hsilent : tail.flatMap Received.messages = [])
    (hact : state.act? party = some next) : d.Stage (log ++ state.reads party) next := by
  have hreceived := Streaming.received_of_act? hact
  have hlater : log ++ state.reads party =
      chunks.map .data ++ .data [] :: (tail ++ state.reads party) := by
    rw [hlog, List.append_assoc]
    rfl
  rw [hlater]
  cases party with
  | input => exact absurd hact (by simp [Streaming.act?, Streaming.actInput?, hdecided.input_eq])
  | server =>
      obtain ⟨server, socket, hserver, rfl⟩ := Streaming.actServer?_cases hact
      obtain ⟨hsame, hempty⟩ := (Server.act?_does hserver).of_empty hinbox
      have hnone : (state.reads .server).flatMap Received.messages = [] :=
        List.append_right_eq_self.mp (hreceived.symm.trans hsame)
      refine .heard ⟨hdecided.input_eq, hdecided.forwarded_eq, hdecided.phase_eq⟩ hempty rfl
        hwhole ?_
      rw [List.flatMap_append, hsilent, hnone, List.append_nil]
  | output =>
      obtain ⟨-, inbox, reset, relay, -, hnext⟩ := Streaming.actOutput?_cases hact
      let socket := state.socket.update .near fun near =>
        { near with inbox := inbox, reset := reset }
      have hempty : socket.far.inbox = [] := hinbox
      have hreleased : (socket.release .near).far.inbox = [] := by
        rw [Connection.release_near]
        split <;> exact hempty
      rw [show state.reads .output = [] from rfl, List.append_nil]
      rcases hnext with rfl | ⟨completions, rfl⟩
      · exact .heard ⟨hdecided.input_eq, hdecided.forwarded_eq, hdecided.phase_eq⟩ hempty rfl
          hwhole hsilent
      · exact .heard ⟨hdecided.input_eq, hdecided.forwarded_eq, hdecided.phase_eq⟩ hreleased rfl
          hwhole hsilent
  | coordinator =>
      have hreleased : ((state.socket.shutdown .near).2.release .near).far.inbox = [] := by
        rw [Connection.shutdown_near, Connection.release_near]
        split <;> exact hinbox
      rw [show state.reads .coordinator = [] from rfl, List.append_nil, hdecided.coordinator hact]
      exact .heard ⟨hdecided.input_eq, hdecided.forwarded_eq, Or.inr rfl⟩ hreleased rfl hwhole
        hsilent

/-- A turn leads to the same stage or to the next. -/
theorem Stage.step (hcarries : state.Carries []) (hstage : d.Stage log state)
    (hact : state.act? party = some next) : d.Stage (log ++ state.reads party) next := by
  cases hstage with
  | typing listening undecided completions_eq detaches =>
      exact typing_step hcarries listening undecided completions_eq detaches hact
  | typed listening undecided completions_eq input_eq forwarded_eq =>
      exact typed_step hcarries listening undecided completions_eq input_eq forwarded_eq hact
  | decided listening decided shut => exact decided_step hcarries listening decided shut hact
  | heard decided inbox_eq log_eq whole silent =>
      exact heard_step decided inbox_eq log_eq whole silent hact

/-! ## Whole runs -/

/-- The server has read the bytes in some chunks and then the end, and after that nothing
more. -/
def HeardOut (bytes : Bytes) (log : List Received) : Prop :=
  ∃ (chunks : List Bytes) (tail : List Received), log = chunks.map .data ++ .data [] :: tail ∧
    chunks.flatten = bytes ∧ tail.flatMap Received.messages = []

/-- In every stage no more has been sent than what comes before the keys, and the output is
being relayed until the session is decided. -/
theorem Stage.starts (hstage : d.Stage log state) :
    state.forwarded <+: d.messages ∧
      (Exchange.Undecided state.phase → state.relaying = true) := by
  have hdecided : d.Decided state → state.forwarded <+: d.messages ∧
      (Exchange.Undecided state.phase → state.relaying = true) := by
    intro hdecided
    refine ⟨hdecided.forwarded_eq ▸ List.prefix_refl _, fun hundecided => ?_⟩
    rcases hdecided.phase_eq with hphase | hphase <;>
      · rw [hphase] at hundecided
        cases hundecided
  cases hstage with
  | typing _ undecided _ detaches => exact ⟨detaches.starts, fun _ => undecided.relaying⟩
  | typed _ undecided _ _ forwarded_eq =>
      exact ⟨forwarded_eq ▸ List.prefix_refl _, fun _ => undecided.relaying⟩
  | decided _ decided _ => exact hdecided decided
  | heard decided => exact hdecided decided

/-- Only a session that has returned is at rest, and then the server has come to the end. -/
theorem Stage.rest (hcarries : state.Carries []) (hstage : d.Stage log state)
    (hrest : ∀ party, state.act? party = none) :
    state.result? = some (.error .detached) ∧ state.forwarded = d.messages ∧
      state.server.received.flatten = d.messages.flatten ∧ HeardOut d.messages.flatten log := by
  cases hstage with
  | typing listening undecided completions_eq detaches =>
      rw [← undecided.accepted_eq] at detaches
      obtain ⟨_, ⟨_, -, hgoes⟩ | ⟨-, _, hends⟩⟩ := Streaming.actInput?_of_detaches detaches
        undecided.hasReturned undecided.open_near undecided.fits
      · exact absurd ((hrest .input).symm.trans hgoes) (by simp)
      · exact absurd ((hrest .input).symm.trans hends) (by simp)
  | typed listening undecided completions_eq input_eq forwarded_eq =>
      have hphase := undecided.undecided
      cases hstate : state.phase with
      | started =>
          have hpasses : Hook.Passes state.accepted state.postAttach := by
            rw [undecided.accepted_eq, undecided.postAttach_eq]
            exact d.passes
          obtain ⟨_, hhook⟩ := state.actHook?_of_passes hpasses
          have hwaits := hrest .coordinator
          simp only [Streaming.act?, Streaming.actCoordinator?, hstate] at hwaits
          exact absurd (hwaits.symm.trans hhook) (by simp)
      | settling =>
          obtain ⟨_, hfirst, -⟩ := typed_first listening undecided completions_eq input_eq
            forwarded_eq hstate
          exact absurd ((hrest .coordinator).symm.trans hfirst) (by simp)
      | awaiting | finishing | returned =>
          rw [hstate] at hphase
          cases hphase
  | decided listening decided shut =>
      by_cases hinbox : state.socket.far.inbox = []
      · have hends := state.actServer?_of_empty listening.steps_eq listening.no_reset hinbox
        rw [shut] at hends
        exact absurd ((hrest .server).symm.trans hends.1) (by simp)
      · obtain ⟨_, _, -, -, htakes⟩ := Streaming.actServer?_of_filled listening.steps_eq
          listening.no_reset hinbox hcarries.filled
        exact absurd ((hrest .server).symm.trans htakes) (by simp)
  | heard decided inbox_eq log_eq whole silent =>
      have hreceived := hcarries.conserved
      rw [inbox_eq, decided.forwarded_eq] at hreceived
      refine ⟨?_, decided.forwarded_eq, by simpa using hreceived, _, _, log_eq, whole, silent⟩
      rcases decided.phase_eq with hphase | hphase
      · have hwaits := hrest .coordinator
        simp [Streaming.act?, Streaming.actCoordinator?, hphase] at hwaits
      · rw [Streaming.result?, hphase]

/-- Every state of a session that starts with the typing is in one of the stages. -/
theorem Stage.follow (hcarries : state.Carries []) (hstage : d.Stage [] state)
    (turns : List Party) :
    (state.follow turns).Carries [] ∧ d.Stage (state.heard turns) (state.follow turns) := by
  let Keeps (log : List Received) (after : Streaming) : Prop :=
    after.Carries [] ∧ d.Stage log after
  have hstart : Keeps [] state := ⟨hcarries, hstage⟩
  have hstep : ∀ {log : List Received} {current next : Streaming} {party : Party},
      Keeps log current → current.act? party = some next →
        Keeps (log ++ current.reads party) next := by
    intro log current next party hcurrent hact
    exact ⟨(hcurrent.1.step hact).1, hcurrent.2.step hcurrent.1 hact⟩
  exact Streaming.follow_induction hstep hstart turns

end Detachment

/-! ## From end to end -/

/-- The messages that an input makes in which the keys are typed are what comes before the
first place where the keys are complete. -/
theorem forward_of_typed {keys : Bytes} {source : Source}
    (htyped : Keys.Typed keys (source.intake forwardCapacity).data) :
    ∃ before messages rest,
      Keys.EarliestAfter keys (source.intake forwardCapacity).data before ∧
      forward source (.ofKeys keys) (.holding []) 0 =
        (.failed (.detached before.length), rest, .holding messages) ∧
      messages.flatten = before := by
  obtain ⟨messages, hmessages, -⟩ := forward_holding source (.ofKeys keys) [] 0
  have hforwarded := forward_forwarded keys [] source (.ofKeys keys) (.holding []) [] []
    (DetachScanner.watches_ofKeys keys) (Sink.willing_holding []) rfl
  obtain ⟨before, hbefore, hending, hdata, -⟩ := hforwarded.outcome.typed htyped
  rw [List.nil_append] at hmessages hdata
  refine ⟨before, messages, _, hbefore, Prod.ext hending (Prod.ext rfl hmessages), ?_⟩
  rw [← hdata]
  show messages.flatten = (forward source (.ofKeys keys) (.holding []) 0).2.2.data
  rw [hmessages, Sink.data_holding]

/-- What can be read of the input of a session as long as its sinks accept nothing. -/
def AttachConfig.readable (config : AttachConfig) : Source :=
  (InputSource.mk [] (config.streams.stdin.getD [])).readable config.streams.outputs.acceptedCount

/-- Without an input nothing is typed. -/
theorem AttachConfig.isSome_of_typed (config : AttachConfig)
    (htyped : Keys.Typed config.detachKeys (config.readable.intake forwardCapacity).data) :
    config.streams.stdin.isSome = true := by
  cases hstdin : config.streams.stdin with
  | some stdin => rfl
  | none =>
      have hend : config.readable.read forwardCapacity = (.data [], config.readable) := by
        rw [readable, hstdin]
        rfl
      rw [Source.intake_of_end hend] at htyped
      exact absurd htyped (Keys.not_typed_nil config.detachKeys)

/-- The start of a session in which the keys are typed. -/
theorem Detachment.stage_start (d : Detachment) {config : AttachConfig} {kind : SocketKind}
    {count : Nat} {rest : Source}
    (hpolicy : d.policy =
      { stopAfterStdinEof := config.stopAfterStdinEof
        stdinConfigured := config.streams.stdin.isSome
        outputConfigured := config.streams.outputs.any })
    (hhook : d.postAttach = config.postAttach)
    (haccepted : d.accepted = config.streams.outputs.acceptedCount)
    (hstdin : config.streams.stdin.isSome = true)
    (hforward : forward config.readable (.ofKeys config.detachKeys) (.holding []) 0 =
      (.failed (.detached count), rest, .holding d.messages))
    (hlimit : kind = .packet →
      ∀ message ∈ d.messages, message.length ≤ Connection.messageLimit) :
    d.Stage []
      (Streaming.start config { kind := kind } { steps := .drain :: d.script }) := by
  obtain ⟨stdin, hsteps⟩ := Option.isSome_iff_exists.mp hstdin
  have hinput : InputTask.start config.streams.stdin config.detachKeys =
      .forwarding ⟨[], stdin⟩ (.ofKeys config.detachKeys) 0 := by
    rw [hsteps]
    rfl
  have hdetaches : InputTask.Detaches d.accepted d.messages
      (.start config.streams.stdin config.detachKeys) [] := by
    rw [hinput, haccepted]
    rw [AttachConfig.readable, hsteps] at hforward
    exact .typing hforward
  exact .typing ⟨rfl, rfl, rfl, rfl⟩
    ⟨hpolicy.symm, hhook.symm, haccepted.symm, rfl, .started, ⟨rfl, rfl⟩, rfl, rfl, rfl, hlimit⟩
    rfl hdetaches

namespace Client

variable {client : Client} {net : Network} {config : AttachConfig}

/-- **The detach keys end a session.**  Both hooks pass, the session does not stop at the end of
the input, and the keys are in what can be read of the input.  The server listens to the end
of the input before it does anything else.  Then the session returns with `detached` for every
schedule, and it does not wait for the output.  The server has received what comes before the
first place where the keys are complete, and then the end of the input.  At no time has
anything else been sent. -/
theorem attach_detaches (hconnected : client.Connected net config)
    (hpre : Hook.run config.preAttach = .ok ())
    (hpost : Hook.Passes config.streams.outputs.acceptedCount config.postAttach)
    (hgoes_on : config.stopAfterStdinEof = false)
    (htyped : Keys.Typed config.detachKeys (config.readable.intake forwardCapacity).data)
    (hlimit : client.kind = .packet →
      ∀ write ∈ (forward config.readable (.ofKeys config.detachKeys) {} 0).2.2.writes,
        write.offered ≤ Connection.messageLimit)
    (script : List ServerStep) (schedule : List Party) :
    let server : Server := { steps := .drain :: script }
    let session := client.attach net config server schedule
    let start := Streaming.start config { kind := client.kind } server
    ∃ before,
      Keys.EarliestAfter config.detachKeys (config.readable.intake forwardCapacity).data before ∧
      session.result? = some (.error .detached) ∧
      session.received.flatten = before ∧
      (∃ turns, schedule <+: turns ∧
        session = (start.follow turns).outcome
          (.announce config.request :: .connect config.socketPath :: config.openingEvents)
          (client.resizeLog config) ∧
        (start.follow turns).forwarded.flatten = before ∧
        Detachment.HeardOut before (start.heard turns)) ∧
      ∀ turns, (start.follow turns).forwarded.flatten <+: before ∧
        (Exchange.Undecided (start.follow turns).phase →
          (start.follow turns).relaying = true) := by
  intro server session start
  obtain ⟨before, messages, rest, hbefore, hforward, hmessages⟩ := forward_of_typed htyped
  have hstdin := config.isSome_of_typed htyped
  let d : Detachment :=
    { policy :=
        { stopAfterStdinEof := config.stopAfterStdinEof
          stdinConfigured := config.streams.stdin.isSome
          outputConfigured := config.streams.outputs.any }
      postAttach := config.postAttach
      accepted := config.streams.outputs.acceptedCount
      messages := messages
      script := script
      goes_on := by simp [Policy.StopsWithInput, hgoes_on]
      passes := hpost }
  have hfits : client.kind = .packet →
      ∀ message ∈ messages, message.length ≤ Connection.messageLimit := by
    intro hkind message hmem
    refine hlimit hkind ⟨message.length, message⟩ ?_
    show _ ∈ (forward config.readable (.ofKeys config.detachKeys) (.holding []) 0).2.2.writes
    rw [hforward]
    exact Sink.mem_writes_holding hmem
  have hstage : d.Stage [] start :=
    d.stage_start rfl rfl rfl hstdin hforward hfits
  have hcarries : start.Carries [] :=
    Streaming.carries_start ⟨rfl, rfl, by simp, by simp, by simp, by simp⟩
  have hall := hstage.follow hcarries
  obtain ⟨turns, hprefix, hturns⟩ := start.exists_run_eq_follow schedule
  have hrest := start.next?_run schedule
  rw [hturns] at hrest
  obtain ⟨hresult, hforwarded, hreceived, hheard⟩ :=
    (hall turns).2.rest (hall turns).1 (Streaming.act?_of_rest hrest)
  have hsession : session = (start.follow turns).outcome
      (.announce config.request :: .connect config.socketPath :: config.openingEvents)
      (client.resizeLog config) := by
    have hopening : Streaming.opening config { kind := client.kind } server = start := by
      rw [Streaming.opening, hpre]
    rw [← hturns, ← hopening]
    exact attach_of_connected hconnected server schedule
  have hwhole : d.messages.flatten = before := hmessages
  rw [hwhole] at hreceived hheard
  refine ⟨before, hbefore, ?_, ?_, ⟨turns, hprefix, hsession, ?_, hheard⟩, ?_⟩
  · rw [hsession]
    exact hresult
  · rw [hsession]
    exact hreceived
  · rw [hforwarded, hwhole]
  · intro turns
    obtain ⟨hsent, hrelaying⟩ := (hall turns).2.starts
    obtain ⟨more, hmore⟩ := hsent
    refine ⟨⟨more.flatten, ?_⟩, hrelaying⟩
    calc (start.follow turns).forwarded.flatten ++ more.flatten
        = ((start.follow turns).forwarded ++ more).flatten := List.flatten_append.symm
      _ = before := by rw [hmore, hwhole]

/-- The keys are cut in two by an interrupted read, and the input breaks down behind them. -/
theorem attach_detaches_cut_keys :
    let net : Network := (({} : Network).listen "attach" .packet).2
    let stdin : List InputStep :=
      [.waitOut 0, .read (.data [97, 16]), .read (.fail (.ofKind .interrupted)),
        .read (.data [17, 98]), .crash]
    let config : AttachConfig :=
      { id := "c"
        socketPath := "attach"
        streams := { stdin := some stdin, stdout := some {} }
        postAttach := some {}
        detachKeys := [16, 17] }
    let server : Server := { steps := [.drain, .send ⟨2, [104]⟩, .receive 9] }
    let session := ({} : Client).attach net config server [.server, .coordinator, .input]
    ({} : Client).Connected net config ∧ session.result? = some (.error .detached) ∧
      session.received.flatten = [97] := by
  intro net stdin config server session
  have hconnected : ({} : Client).Connected net config :=
    ⟨rfl, rfl, Network.isOk_connect_attach⟩
  have hdata : (config.readable.intake forwardCapacity).data = [97, 16, 17, 98] := by
    decide +kernel
  have htyped : Keys.Typed config.detachKeys
      (config.readable.intake forwardCapacity).data := by
    rw [hdata]
    exact ⟨by decide, by decide⟩
  have hearliest : Keys.EarliestAfter [16, 17] [97, 16, 17, 98] [97] := by
    refine ⟨by decide, ?_⟩
    intro other hother
    cases other with
    | nil => exact absurd hother (by decide)
    | cons byte rest => simp
  obtain ⟨before, hbefore, hresult, hreceived, -⟩ :=
    attach_detaches hconnected rfl ⟨rfl, Nat.le_refl 0⟩ rfl htyped (by decide +kernel)
      [.send ⟨2, [104]⟩, .receive 9] [.server, .coordinator, .input]
  rw [hdata] at hbefore
  obtain rfl := hbefore.eq hearliest
  exact ⟨hconnected, hresult, hreceived⟩

end Client

end ContainerAttach
