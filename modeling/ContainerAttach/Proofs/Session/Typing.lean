import ContainerAttach.Proofs.Session.Turns
import ContainerAttach.Proofs.Socket.Queues

/-!
# The input task as a run of the forwarder

A session does not call the forwarder; its input task makes one turn of it at a time,
and the other parties have turns in between.  The turns together are nevertheless a run
of `forward`: what is left of the run is the same before and after a turn
(`InputTask.Forwards`), with a sink that holds the messages that the socket has taken so
far.

This holds while the socket is open for writing.  Then every turn of a task either goes
on, or ends it with the ending and the messages of the whole run
(`Streaming.actInput?_of_forwards`).
-/

namespace ContainerAttach

/-! ## Reading -/

/-- A source as the input of a session.  Nothing in it makes the reader wait. -/
def Source.asInput (source : Source) : InputSource :=
  ⟨source.held, source.steps.map .read⟩

namespace Source

theorem framing_read (source : Source) (capacity : Nat) :
    (source.read capacity).2.framing = source.framing := by
  unfold read
  split
  · rfl
  · split <;> rfl

/-- A turn of reading is a read of the source. -/
theorem turn_asInput {source : Source} (hframing : source.framing = .stream)
    (capacity accepted : Nat) (returned : Bool) :
    source.asInput.turn capacity accepted returned =
      .gives (source.read capacity).1 (source.read capacity).2.asInput := by
  obtain ⟨framing, held, steps⟩ := source
  obtain rfl : framing = .stream := hframing
  cases held with
  | cons byte rest => rfl
  | nil =>
      cases steps with
      | nil => rfl
      | cons step steps => cases step <;> rfl

end Source

/-! ## Reporting -/

/-- What the input task reports of the way in which forwarding ended. -/
def Ending.forwarded : Ending ForwardError Nat → Except AttachError Nat
  | .done written => .ok written
  | .failed (.detached _) => .error .detached
  | .failed cause => .error (.stdin cause)
  | .crashed => .error (.taskTornDown Task.input.name)

theorem Completion.ofForward_eq (queue : List Completion) (ending : Ending ForwardError Nat) :
    ofForward queue ending = queue ++ [.input ending.forwarded] := by
  cases ending with
  | done written => rfl
  | failed cause => cases cause <;> rfl
  | crashed => rfl

/-! ## What is left of a run -/

/-- The task has sent the given messages, and what is left of its run ends in the given way
with all messages sent. -/
inductive InputTask.Forwards (ending : Ending ForwardError Nat) (messages : List Bytes) :
    InputTask → List Bytes → Prop
  | idle (ending_eq : ending = .done 0) (messages_eq : messages = []) :
      Forwards ending messages .idle []
  | forwarding {source rest : Source} {scanner : DetachScanner} {written : Nat}
      {sent : List Bytes} (framing_eq : source.framing = .stream)
      (forward_eq : forward source scanner (.holding sent) written =
        (ending, rest, .holding messages)) :
      Forwards ending messages (.forwarding source.asInput scanner written) sent

namespace InputTask

variable {ending : Ending ForwardError Nat} {messages sent : List Bytes} {task : InputTask}

/-- What has been sent is a part of the messages, and none of the others is empty. -/
theorem Forwards.exists_append (hforwards : Forwards ending messages task sent) :
    ∃ more, messages = sent ++ more ∧ ∀ message ∈ more, message ≠ [] := by
  cases hforwards with
  | idle ending_eq messages_eq => exact ⟨[], messages_eq, by simp⟩
  | @forwarding source rest scanner written sent framing_eq forward_eq =>
      obtain ⟨more, hmore, hne⟩ := forward_holding source scanner sent written
      rw [forward_eq] at hmore
      exact ⟨more, Sink.holding_injective hmore, hne⟩

/-- The input of a session is forwarded as a source with the same steps.  If there is none,
the source has no steps. -/
theorem forwards_start (stdin : Option (List ReadStep)) (keys : Bytes) {rest : Source}
    (hforward : forward ⟨.stream, [], stdin.getD []⟩ (.ofKeys keys) (.holding []) 0 =
      (ending, rest, .holding messages)) :
    Forwards ending messages (.start (stdin.map fun steps => steps.map .read) keys) [] := by
  cases stdin with
  | some steps => exact .forwarding rfl hforward
  | none =>
      have hend : Source.read ⟨.stream, [], []⟩ forwardCapacity = (.data [], ⟨.stream, [], []⟩) :=
        rfl
      have hreact : (DetachScanner.ofKeys keys).react (.data []) = ⟨[], .finish⟩ := by simp
      have hdone := forward_of_writeAll hend hreact (Sink.writeAll_holding [] []) 0
      obtain ⟨hending, hsink⟩ := Prod.mk.inj (hforward.symm.trans hdone)
      obtain ⟨-, hsink⟩ := Prod.mk.inj hsink
      exact .idle hending (Sink.holding_injective hsink)

end InputTask

namespace Streaming

variable {state : Streaming} {ending : Ending ForwardError Nat} {messages : List Bytes}

/-! ## Turns -/

/-- The near end of the socket can be written to. -/
structure OpenForWriting (socket : Connection) : Prop where
  no_reset : socket.near.reset = false
  not_shut : socket.near.writeShut = false

/-- The state after some messages have been sent. -/
def sending (state : Streaming) (messages : List Bytes) : Streaming :=
  { state with
    socket := state.socket.enqueue .far messages
    forwarded := state.forwarded ++ messages }

theorem sending_nil (state : Streaming) : state.sending [] = state := by
  simp [sending, Connection.enqueue_nil]

theorem forwardOutput_of_open (hopen : OpenForWriting state.socket) {output : Bytes}
    (hlimit : state.socket.kind = .packet →
      ∀ message ∈ messageOf output, message.length ≤ Connection.messageLimit) :
    state.forwardOutput output = (.ok output.length, state.sending (messageOf output)) := by
  by_cases houtput : output = []
  · subst houtput
    rw [messageOf_nil, sending_nil]
    rfl
  · rw [messageOf_of_ne_nil houtput] at hlimit ⊢
    have hsend : state.socket.send .near output =
        (.ok output.length, state.socket.enqueue .far [output]) :=
      Connection.send_of_writable houtput hopen.no_reset hopen.not_shut
        (fun hkind => hlimit hkind output List.mem_cons_self)
    rw [forwardOutput, if_neg houtput, hsend]
    rfl

/-- A turn that reads makes the next turn of the run. -/
theorem onInput_of_open (hopen : OpenForWriting state.socket) (source : InputSource)
    (written : Nat) {output : Bytes} (next : Continuation)
    (hlimit : state.socket.kind = .packet →
      ∀ message ∈ messageOf output, message.length ≤ Connection.messageLimit) :
    state.onInput source written ⟨output, next⟩ =
      match next with
      | .goOn scanner =>
        { state.sending (messageOf output) with
          input := .forwarding source scanner (written + output.length) }
      | .detach =>
        (state.sending (messageOf output)).endInput
          (.failed (.detached (written + output.length)))
      | .finish =>
        (state.sending (messageOf output)).endInput (.done (written + output.length))
      | .fail cause => (state.sending (messageOf output)).endInput (.failed (.read cause)) := by
  have hforwarded := forwardOutput_of_open hopen hlimit
  cases next <;> simp only [onInput, hforwarded]

/-- The reaction to a read sends some of the messages, and the run goes on from what is left
of the source or is at its end. -/
theorem onInput_of_forward (hopen : OpenForWriting state.socket) {source left rest : Source}
    {scanner : DetachScanner} {sent : List Bytes} {written : Nat} {result : ReadResult}
    (hread : source.read forwardCapacity = (result, left))
    (hforward : forward source scanner (.holding sent) written =
      (ending, rest, .holding messages))
    (hlimit : state.socket.kind = .packet →
      ∀ message ∈ messages, message.length ≤ Connection.messageLimit) (after : InputSource) :
    ∃ more,
      (∃ scanner' written',
        forward left scanner' (.holding (sent ++ more)) written' =
          (ending, rest, .holding messages) ∧
        state.onInput after written (scanner.react result) =
          { state.sending more with input := .forwarding after scanner' written' }) ∨
      (messages = sent ++ more ∧
        state.onInput after written (scanner.react result) =
          (state.sending more).endInput ending) := by
  rcases hreact : scanner.react result with ⟨output, next⟩
  rw [forward_of_writeAll hread hreact (Sink.writeAll_holding sent output)] at hforward
  -- what this turn sends is among the messages of the whole run
  have hpart : sent ++ messageOf output <+: messages := by
    cases next with
    | goOn scanner =>
        obtain ⟨more, hmore, -⟩ := forward_holding left scanner (sent ++ messageOf output)
          (written + output.length)
        dsimp only at hforward
        rw [hforward] at hmore
        exact ⟨more, (Sink.holding_injective hmore).symm⟩
    | detach | finish | fail =>
        obtain ⟨-, hrest⟩ := Prod.mk.inj hforward
        obtain ⟨-, hsink⟩ := Prod.mk.inj hrest
        exact ⟨[], (List.append_nil _).trans (Sink.holding_injective hsink)⟩
  have hfits : state.socket.kind = .packet →
      ∀ message ∈ messageOf output, message.length ≤ Connection.messageLimit := by
    intro hkind message hmem
    exact hlimit hkind message (hpart.subset (List.mem_append_right sent hmem))
  refine ⟨messageOf output, ?_⟩
  rw [onInput_of_open hopen after written next hfits]
  cases next with
  | goOn scanner => exact Or.inl ⟨scanner, _, hforward, rfl⟩
  | detach | finish | fail =>
      obtain ⟨rfl, hrest⟩ := Prod.mk.inj hforward
      obtain ⟨-, hsink⟩ := Prod.mk.inj hrest
      exact Or.inr ⟨(Sink.holding_injective hsink).symm, rfl⟩

/-- A turn of the input task sends some of the messages, and goes on or ends as the whole run
does. -/
theorem actInput?_of_forwards (state : Streaming) {task : InputTask} {sent : List Bytes}
    (hforwards : task.Forwards ending messages sent) (hinput : state.input = task)
    (hopen : OpenForWriting state.socket)
    (hlimit : state.socket.kind = .packet →
      ∀ message ∈ messages, message.length ≤ Connection.messageLimit) :
    ∃ more,
      (∃ after, InputTask.Forwards ending messages after (sent ++ more) ∧
        state.actInput? = some { state.sending more with input := after }) ∨
      (messages = sent ++ more ∧
        state.actInput? = some ((state.sending more).endInput ending)) := by
  cases hforwards with
  | idle ending_eq messages_eq =>
      refine ⟨[], Or.inr ⟨by rw [messages_eq, List.append_nil], ?_⟩⟩
      rw [actInput?, hinput, sending_nil, ending_eq]
  | @forwarding source rest scanner written sent framing_eq forward_eq =>
      rcases hread : source.read forwardCapacity with ⟨result, left⟩
      have hturn := Source.turn_asInput framing_eq forwardCapacity state.accepted
        state.hasReturned
      have hframing := source.framing_read forwardCapacity
      rw [hread] at hturn hframing
      have hact : state.actInput? =
          some (state.onInput left.asInput written (scanner.react result)) := by
        simp only [actInput?, hinput, hturn]
      rw [hact]
      obtain ⟨more, ⟨scanner', written', hrest, hgoes⟩ | ⟨hall, hends⟩⟩ :=
        onInput_of_forward hopen hread forward_eq hlimit left.asInput
      · exact ⟨more, Or.inl ⟨_, .forwarding (hframing.trans framing_eq) hrest, by rw [hgoes]⟩⟩
      · exact ⟨more, Or.inr ⟨hall, by rw [hends]⟩⟩

end Streaming

end ContainerAttach
