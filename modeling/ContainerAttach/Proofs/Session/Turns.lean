import ContainerAttach.Proofs.Input.Messages
import ContainerAttach.Proofs.Socket.Changes
import ContainerAttach.Session.Progress

/-!
# The turns of a session

A run gives the turns of its schedule and then as many as can be used, which is one
list of turns that could have been the schedule in the first place (`exists_run_eq_follow`).
So what every turn preserves holds at the end of a run.  What a turn of a task can change is
said once (`actInput?_cases`, `actOutput?_cases`, `actCoordinator?_cases`).

The server's script goes on at the end of the input and at an error alike, and the
messages it keeps do not tell the two apart.  What it reads is therefore logged turn
by turn (`Streaming.heard`).  The messages that it keeps are those that the log shows
(`received_follow`), and the log shows besides how the input ended.
-/

namespace ContainerAttach

/-! ## What the server reads -/

namespace Received

/-- What is logged of an attempt to read; one that has to wait is no read. -/
def logged : Received → List Received
  | .blocked => []
  | received => [received]

/-- The message that was read, if it was one. -/
def messages : Received → List Bytes
  | .data bytes => messageOf bytes
  | _ => []

end Received

/-- What the server reads with its next step, if that is a read and does not have to wait. -/
def Server.reads (server : Server) (socket : Connection) : List Received :=
  match server.steps with
  | .drain :: _ => (socket.receive .far (roomFor socket.far)).1.logged
  | .receive count :: _ =>
    if count ≤ server.receivedCount then []
    else (socket.receive .far (roomFor socket.far)).1.logged
  | _ => []

namespace Server

variable {server next : Server} {rest : List ServerStep} {socket after : Connection}

theorem logged_of_read?_none (hread : server.read? rest socket = none) :
    (socket.receive .far (roomFor socket.far)).1.logged = [] := by
  unfold read? at hread
  split at hread
  · next hreceive =>
    rw [hreceive]
    rfl
  all_goals exact absurd hread (by simp)

/-- A server that has to wait reads nothing. -/
theorem reads_of_act?_none {accepted : Nat} (hact : server.act? accepted socket = none) :
    server.reads socket = [] := by
  unfold act? at hact
  unfold reads
  split at hact
  · next hsteps => rw [hsteps]
  · next hsteps => rw [hsteps]
  · next hsteps => rw [hsteps]
  · next count rest hsteps =>
    rw [hsteps]
    split at hact
    · next hcount =>
      dsimp only
      rw [if_pos hcount]
    · next hcount =>
      dsimp only
      rw [if_neg hcount]
      exact logged_of_read?_none hact
  · next rest hsteps =>
    rw [hsteps]
    exact logged_of_read?_none hact
  · next hsteps => rw [hsteps]
  · next hsteps => rw [hsteps]

theorem received_of_read? (hread : server.read? rest socket = some (next, after)) :
    next.received = server.received ++
      (socket.receive .far (roomFor socket.far)).1.logged.flatMap Received.messages := by
  unfold read? at hread
  split at hread
  · exact absurd hread (by simp)
  · next hreceive =>
    obtain ⟨rfl, rfl⟩ := Prod.mk.inj (Option.some.inj hread)
    simp [hreceive, Received.logged, Received.messages]
  · next hreceive =>
    obtain ⟨rfl, rfl⟩ := Prod.mk.inj (Option.some.inj hread)
    simp [hreceive, Received.logged, Received.messages, messageOf_nil]
  · next bytes _ hbytes hreceive =>
    obtain ⟨rfl, rfl⟩ := Prod.mk.inj (Option.some.inj hread)
    have hne : bytes ≠ [] := fun hnil => hbytes (by rw [hnil])
    simp [hreceive, Received.logged, Received.messages, messageOf_of_ne_nil hne]

/-- The server keeps the messages that it reads. -/
theorem received_of_act? {accepted : Nat}
    (hact : server.act? accepted socket = some (next, after)) :
    next.received = server.received ++
      (server.reads socket).flatMap Received.messages := by
  unfold act? at hact
  unfold reads
  split at hact
  · next hsteps =>
    split at hact
    · obtain ⟨rfl, rfl⟩ := Prod.mk.inj (Option.some.inj hact)
      simp [hsteps]
    · exact absurd hact (by simp)
  · next hsteps =>
    obtain ⟨rfl, rfl⟩ := Prod.mk.inj (Option.some.inj hact)
    simp [hsteps]
  · next hsteps =>
    obtain ⟨rfl, rfl⟩ := Prod.mk.inj (Option.some.inj hact)
    simp [hsteps]
  · next count rest hsteps =>
    rw [hsteps]
    split at hact
    · next hcount =>
      obtain ⟨rfl, rfl⟩ := Prod.mk.inj (Option.some.inj hact)
      simp [hcount]
    · next hcount =>
      dsimp only
      rw [if_neg hcount]
      exact received_of_read? hact
  · next rest hsteps =>
    rw [hsteps]
    exact received_of_read? hact
  · next hsteps =>
    split at hact
    · obtain ⟨rfl, rfl⟩ := Prod.mk.inj (Option.some.inj hact)
      simp [hsteps]
    · exact absurd hact (by simp)
  · next hsteps =>
    obtain ⟨rfl, rfl⟩ := Prod.mk.inj (Option.some.inj hact)
    simp [hsteps]

end Server

namespace Streaming

/-! ## The log -/

/-- What the server reads in the turn of a party. -/
def reads (state : Streaming) : Party → List Received
  | .server => state.server.reads state.socket
  | _ => []

/-- All that the server reads in some turns. -/
def heard (state : Streaming) : List Party → List Received
  | [] => []
  | party :: turns => state.reads party ++ (state.turn party).heard turns

theorem turn_of_act? {state next : Streaming} {party : Party}
    (hact : state.act? party = some next) : state.turn party = next := by
  rw [turn, hact]
  rfl

theorem turn_of_waiting {state : Streaming} {party : Party} (hact : state.act? party = none) :
    state.turn party = state := by
  rw [turn, hact]
  rfl

/-- A server that loses its turn has to wait. -/
theorem server_waits {state : Streaming} (hact : state.act? .server = none) :
    state.server.act? state.accepted state.socket = none := by
  have hact : state.actServer? = none := hact
  unfold actServer? at hact
  split at hact
  · assumption
  · exact absurd hact (by simp)

/-- Nothing is read in a turn that is lost. -/
theorem reads_of_waiting {state : Streaming} {party : Party} (hact : state.act? party = none) :
    state.reads party = [] := by
  cases party with
  | server => exact Server.reads_of_act?_none (server_waits hact)
  | input | output | coordinator => rfl

/-! ## Runs as turns -/

/-- A log is kept turn by turn, with nothing for a turn that is lost.  Whatever holds at the start
and is preserved by every turn that is used holds after all turns, of the state and of the
log. -/
theorem logged_induction {α : Type} {entries : Streaming → Party → List α}
    {logged : Streaming → List Party → List α} (hnil : ∀ state, logged state [] = [])
    (hcons : ∀ state party turns,
      logged state (party :: turns) = entries state party ++ logged (state.turn party) turns)
    (hwaits : ∀ {state : Streaming} {party : Party}, state.act? party = none →
      entries state party = [])
    {P : List α → Streaming → Prop}
    (hstep : ∀ {log : List α} {state next : Streaming} {party : Party},
      P log state → state.act? party = some next → P (log ++ entries state party) next)
    {log : List α} {state : Streaming} (hstart : P log state) (turns : List Party) :
    P (log ++ logged state turns) (state.follow turns) := by
  induction turns generalizing log state with
  | nil =>
      rw [hnil, List.append_nil]
      exact hstart
  | cons party turns ih =>
      have hturn : P (log ++ entries state party) (state.turn party) := by
        cases hact : state.act? party with
        | none =>
            rw [hwaits hact, List.append_nil, turn_of_waiting hact]
            exact hstart
        | some next =>
            rw [turn_of_act? hact]
            exact hstep hstart hact
      have hrest := ih hturn
      rw [List.append_assoc] at hrest
      rw [hcons]
      exact hrest

/-- What every turn preserves of the state and of what the server has read. -/
theorem follow_induction {P : List Received → Streaming → Prop}
    (hstep : ∀ {log : List Received} {state next : Streaming} {party : Party},
      P log state → state.act? party = some next → P (log ++ state.reads party) next)
    {log : List Received} {state : Streaming} (hstart : P log state) (turns : List Party) :
    P (log ++ state.heard turns) (state.follow turns) :=
  logged_induction (fun _ => rfl) (fun _ _ _ => rfl) reads_of_waiting hstep hstart turns

/-- Whatever every turn that is used preserves of the state alone holds after all turns. -/
theorem follow_preserves {P : Streaming → Prop}
    (hstep : ∀ {state next : Streaming} {party : Party},
      P state → state.act? party = some next → P next)
    {state : Streaming} (hstart : P state) (turns : List Party) : P (state.follow turns) :=
  @follow_induction (fun _ after => P after) (fun hcurrent hact => hstep hcurrent hact) [] state
    hstart turns

theorem follow_append (state : Streaming) (turns more : List Party) :
    state.follow (turns ++ more) = (state.follow turns).follow more :=
  List.foldl_append

theorem exists_drain_eq_follow (count : Nat) :
    ∀ state : Streaming, ∃ turns, drain count state = state.follow turns := by
  induction count with
  | zero =>
      intro state
      exact ⟨[], rfl⟩
  | succ count ih =>
      intro state
      cases hnext : state.next? with
      | none =>
          refine ⟨[], ?_⟩
          rw [drain, hnext]
          rfl
      | some next =>
          obtain ⟨party, -, hact⟩ := List.exists_of_findSome?_eq_some hnext
          obtain ⟨turns, hturns⟩ := ih next
          refine ⟨party :: turns, ?_⟩
          calc drain (count + 1) state
              = drain count next := by rw [drain, hnext]
            _ = next.follow turns := hturns
            _ = (state.turn party).follow turns := by rw [turn_of_act? hact]
            _ = state.follow (party :: turns) := rfl

/-- Where nobody comes next, nobody can act. -/
theorem act?_of_rest {state : Streaming} (hrest : state.next? = none) (party : Party) :
    state.act? party = none := by
  refine List.findSome?_eq_none_iff.mp hrest party ?_
  cases party <;> simp

/-- A run is its schedule and some more turns. -/
theorem exists_run_eq_follow (state : Streaming) (schedule : List Party) :
    ∃ turns, schedule <+: turns ∧ state.run schedule = state.follow turns := by
  obtain ⟨turns, hturns⟩ :=
    exists_drain_eq_follow (state.follow schedule).work (state.follow schedule)
  refine ⟨schedule ++ turns, List.prefix_append schedule turns, ?_⟩
  rw [follow_append]
  exact hturns

/-- A schedule that leads to rest is the whole run. -/
theorem run_of_rest {state : Streaming} {schedule : List Party}
    (hrest : (state.follow schedule).next? = none) :
    state.run schedule = state.follow schedule := by
  rw [run]
  cases (state.follow schedule).work with
  | zero => rfl
  | succ work => rw [drain, hrest]

/-! ## What a turn can do -/

theorem actServer?_cases {state next : Streaming} (hact : state.actServer? = some next) :
    ∃ server socket, state.server.act? state.accepted state.socket = some (server, socket) ∧
      next = { state with server := server, socket := socket } := by
  unfold actServer? at hact
  split at hact
  · exact absurd hact (by simp)
  · next server socket hserver =>
    exact ⟨server, socket, hserver, (Option.some.inj hact).symm⟩

/-- What the near end makes of the bytes that it is given to send, with the messages that it
takes and the connection after that. -/
inductive Sends (socket : Connection) : List Bytes → Connection → Prop
  | nothing : Sends socket [] socket
  | refused {output : Bytes} {cause : IoError} {after : Connection}
      (send_eq : socket.send .near output = (.error cause, after)) : Sends socket [] after
  | taken {output : Bytes} {count : Nat} {after : Connection} (ne_nil : output ≠ [])
      (send_eq : socket.send .near output = (.ok count, after)) : Sends socket [output] after

/-- The state after the input task has tried to send something. -/
def afterSending (state : Streaming) (sent : List Bytes) (socket : Connection) : Streaming :=
  { state with socket := socket, forwarded := state.forwarded ++ sent }

theorem afterSending_nil (state : Streaming) (socket : Connection) :
    state.afterSending [] socket = { state with socket := socket } := by
  rw [afterSending, List.append_nil]

theorem forwardOutput_cases (state : Streaming) (output : Bytes) :
    ∃ sent socket, Sends state.socket sent socket ∧
      (state.forwardOutput output).2 = state.afterSending sent socket := by
  unfold forwardOutput
  split
  · exact ⟨[], state.socket, .nothing, (state.afterSending_nil _).symm⟩
  · next houtput =>
    split
    · next socket hsend =>
      exact ⟨[], socket, .refused hsend, (state.afterSending_nil socket).symm⟩
    · next socket hsend => exact ⟨[output], socket, .taken houtput hsend, rfl⟩

/-- A turn of the input task sends a message at most, and then goes on or ends. -/
theorem actInput?_cases {state next : Streaming} (hact : state.actInput? = some next) :
    state.input ≠ .ended ∧ ∃ sent socket, Sends state.socket sent socket ∧
      ((∃ task, task ≠ .ended ∧ next = { state.afterSending sent socket with input := task }) ∨
        ∃ ending, next = (state.afterSending sent socket).endInput ending) := by
  have hidle : state.afterSending [] state.socket = state := state.afterSending_nil _
  -- only a turn that reads can send anything
  have hreading : ∀ (source : InputSource) (written : Nat) (reaction : Reaction),
      ∃ sent socket, Sends state.socket sent socket ∧
        ((∃ task, task ≠ .ended ∧ state.onInput source written reaction =
            { state.afterSending sent socket with input := task }) ∨
          ∃ ending, state.onInput source written reaction =
            (state.afterSending sent socket).endInput ending) := by
    intro source written reaction
    obtain ⟨sent, socket, hsends, hafter⟩ := state.forwardOutput_cases reaction.output
    refine ⟨sent, socket, hsends, ?_⟩
    unfold onInput
    split
    · next after houtput =>
      have hafter : after = state.afterSending sent socket := by rw [← hafter, houtput]
      rw [hafter]
      exact Or.inr ⟨_, rfl⟩
    · next after houtput =>
      have hafter : after = state.afterSending sent socket := by rw [← hafter, houtput]
      rw [hafter]
      dsimp only
      split
      · exact Or.inl ⟨_, by simp, rfl⟩
      all_goals exact Or.inr ⟨_, rfl⟩
  unfold actInput? at hact
  split at hact
  · exact absurd hact (by simp)
  · next hinput =>
    refine ⟨by simp [hinput], [], state.socket, .nothing, Or.inr ⟨.done 0, ?_⟩⟩
    rw [hidle]
    exact (Option.some.inj hact).symm
  · next source scanner written hinput =>
    refine ⟨by simp [hinput], ?_⟩
    split at hact
    · exact absurd hact (by simp)
    · refine ⟨[], state.socket, .nothing, Or.inr ⟨.crashed, ?_⟩⟩
      rw [hidle]
      exact (Option.some.inj hact).symm
    · next source _ =>
      have htask : InputTask.forwarding source scanner written ≠ .ended := by simp
      refine ⟨[], state.socket, .nothing, Or.inl ⟨_, htask, ?_⟩⟩
      rw [hidle]
      exact (Option.some.inj hact).symm
    · obtain rfl := Option.some.inj hact
      exact hreading _ _ _

/-- A turn of the output task takes something from its queue at most, and goes on or drops its
handle. -/
theorem actOutput?_cases {state next : Streaming} (hact : state.actOutput? = some next) :
    state.relaying = true ∧ ∃ inbox reset relay,
      (state.socket.near.inbox = [] → inbox = []) ∧
      let socket := state.socket.update .near fun near =>
        { near with inbox := inbox, reset := reset }
      (next = { state with socket := socket, relay := relay } ∨
        ∃ completions,
          next = { state with
            socket := socket.release .near
            relay := relay
            relaying := false
            completions := completions }) := by
  obtain ⟨inbox, reset, -, hempty, hafter⟩ :=
    state.socket.receive_changes .near Packet.sizeLimit
  -- what a read gives moves the relay on, and the socket changes only if the relay ends
  have hdelivered : ∀ (socket : Connection) (result : ReadResult),
      ∃ relay, { state with socket := socket }.onOutput result =
          { state with socket := socket, relay := relay } ∨
        ∃ completions, { state with socket := socket }.onOutput result =
          { state with
            socket := socket.release .near
            relay := relay
            relaying := false
            completions := completions } := by
    intro socket result
    unfold onOutput
    split
    · exact ⟨_, Or.inl rfl⟩
    · exact ⟨_, Or.inr ⟨_, rfl⟩⟩
  unfold actOutput? at hact
  split at hact
  · next hrelaying =>
    refine ⟨hrelaying, inbox, reset, ?_⟩
    split at hact
    · exact absurd hact (by simp)
    all_goals
      next socket hreceive =>
      obtain rfl := Option.some.inj hact
      rw [hreceive] at hafter
      obtain rfl : socket = _ := hafter
      obtain ⟨relay, hnext⟩ := hdelivered _ _
      exact ⟨relay, hempty, hnext⟩
  · exact absurd hact (by simp)

/-- What a turn of the coordinator comes to. -/
inductive Coordinates (state : Streaming) : Streaming → Prop
  /-- It looks at the hook or at a completion, and may close the write direction. -/
  | goesOn {socket : Connection} {completions : List Completion} {phase : Phase} {hooked : Bool}
      (early : state.hasReturned = false)
      (not_finishing : ∀ result, state.phase ≠ .finishing result)
      (socket_eq : socket = state.socket ∨ socket = (state.socket.closeWrite .near).2)
      (phase_ne : phase ≠ .started) (phase_open : ∀ result, phase ≠ .returned result)
      (hooked_eq : state.phase ≠ .started → hooked = state.hooked) :
      Coordinates state
        { state with
          socket := socket
          completions := completions
          phase := phase
          hooked := hooked }
  | returns {result : Except AttachError Unit} (phase_eq : state.phase = .finishing result) :
      Coordinates state
        { state with
          socket := (state.socket.shutdown .near).2.release .near
          phase := .returned result }

theorem onNoCompletion?_cases {state next : Streaming} (hearly : state.hasReturned = false)
    (hphase : ∀ result, state.phase ≠ .finishing result)
    (hact : state.onNoCompletion? = some next) : state.Coordinates next := by
  unfold onNoCompletion? at hact
  split at hact
  · obtain rfl := Option.some.inj hact
    exact .goesOn hearly hphase (.inl rfl) (by simp) (by simp) fun _ => rfl
  · exact absurd hact (by simp)

theorem actCoordinator?_cases {state next : Streaming}
    (hact : state.actCoordinator? = some next) : state.Coordinates next := by
  unfold actCoordinator? at hact
  split at hact
  · next hstarted =>
    have hearly : state.hasReturned = false := by rw [hasReturned, hstarted]
    have hphase : ∀ result, state.phase ≠ .finishing result := by simp [hstarted]
    unfold actHook? at hact
    split at hact
    · obtain rfl := Option.some.inj hact
      exact .goesOn hearly hphase (.inl rfl) (by simp) (by simp) fun _ => rfl
    · next hook _ =>
      split at hact
      · obtain rfl := Option.some.inj hact
        -- this is the only turn that changes `hooked`
        refine .goesOn hearly hphase (.inl rfl) ?_ ?_ fun hlater => absurd hstarted hlater
        all_goals cases hook.error <;> simp
      · exact absurd hact (by simp)
  · next hsettling =>
    have hearly : state.hasReturned = false := by rw [hasReturned, hsettling]
    have hphase : ∀ result, state.phase ≠ .finishing result := by simp [hsettling]
    split at hact
    · exact onNoCompletion?_cases hearly hphase hact
    · next first rest _ =>
      obtain rfl := Option.some.inj hact
      rcases hclose : state.socket.closeWrite .near with ⟨closed, socket⟩
      have hsocket : socket = (state.socket.closeWrite .near).2 := by rw [hclose]
      simp only [onFirst, hclose]
      refine .goesOn hearly hphase (.inr hsocket) ?_ ?_ fun _ => rfl
      all_goals cases state.policy.onFirst closed first <;> simp
  · next otherwise hawaiting =>
    have hearly : state.hasReturned = false := by rw [hasReturned, hawaiting]
    have hphase : ∀ result, state.phase ≠ .finishing result := by simp [hawaiting]
    split at hact
    · exact onNoCompletion?_cases hearly hphase hact
    · next completion rest _ =>
      obtain rfl := Option.some.inj hact
      refine .goesOn hearly hphase (.inl rfl) ?_ ?_ fun _ => rfl
      all_goals cases completion.settle? otherwise <;> simp
  · next result hfinishing =>
    obtain rfl := Option.some.inj hact
    exact .returns hfinishing
  · exact absurd hact (by simp)

/-! ## The log and the messages -/

/-- The turns of the client leave the server alone. -/
theorem server_of_act? {state next : Streaming} {party : Party} (hparty : party ≠ .server)
    (hact : state.act? party = some next) : next.server = state.server := by
  cases party with
  | server => exact absurd rfl hparty
  | input =>
      obtain ⟨-, sent, socket, -, ⟨task, -, rfl⟩ | ⟨ending, rfl⟩⟩ := actInput?_cases hact <;> rfl
  | output =>
      obtain ⟨-, inbox, reset, relay, -, rfl | ⟨completions, rfl⟩⟩ := actOutput?_cases hact <;> rfl
  | coordinator => cases actCoordinator?_cases hact <;> rfl

theorem received_of_act? {state next : Streaming} {party : Party}
    (hact : state.act? party = some next) :
    next.server.received =
      state.server.received ++ (state.reads party).flatMap Received.messages := by
  by_cases hparty : party = .server
  · subst hparty
    obtain ⟨server, socket, hserver, rfl⟩ := actServer?_cases hact
    exact Server.received_of_act? hserver
  · have hreads : state.reads party = [] := by
      cases party with
      | server => exact absurd rfl hparty
      | input | output | coordinator => rfl
    rw [server_of_act? hparty hact, hreads, List.flatMap_nil, List.append_nil]

/-- The server keeps the messages that the log shows, and nothing else. -/
theorem received_follow (state : Streaming) (turns : List Party) :
    (state.follow turns).server.received =
      state.server.received ++ (state.heard turns).flatMap Received.messages := by
  let Keeps (log : List Received) (after : Streaming) : Prop :=
    after.server.received = state.server.received ++ log.flatMap Received.messages
  have hstart : Keeps [] state := (List.append_nil _).symm
  have hstep : ∀ {log : List Received} {current next : Streaming} {party : Party},
      Keeps log current → current.act? party = some next →
        Keeps (log ++ current.reads party) next := by
    intro log current next party hcurrent hact
    show next.server.received = _
    rw [received_of_act? hact, hcurrent, List.flatMap_append, List.append_assoc]
  exact follow_induction hstep hstart turns

end Streaming

end ContainerAttach
