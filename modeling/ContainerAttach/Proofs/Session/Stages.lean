import ContainerAttach.Proofs.Session.Closing
import ContainerAttach.Session.Attach

/-!
# The stages of a session

A session that gets a socket begins in one state (`Client.opening?`), and all that happens
after that is turns taken from there (`Client.attach_of_connected`).  Without a socket there
is no such state, and no task that could read the input or write to a sink.

If the first hook fails, or the operating system refuses what the streams need, the client gives
up before the input is read, and the server has nothing to read (`Mute.step`).  Mostly nobody but
the server can act then any more (`Withdrawn.step`).  Only if the thread of the input task is
refused does the output task run already, and it goes on until the socket is shut down.

The second hook is called by a turn of the coordinator in the first phase, and the
coordinator never comes back to that phase; so the hook is called at most once
(`Client.replicate_hookCalls_sublist`).  From the call on, a hook that fails determines the
result: no turn of a task and no completion is looked at any more (`HookStage.step`).
-/

namespace ContainerAttach

/-! ## The opening of a session -/

/-- The second hook, if the streams are started. -/
def AttachConfig.dueHook (config : AttachConfig) (refused : SessionRefusals) : Option Hook :=
  match Hook.run config.preAttach, refused.start with
  | .ok (), none => config.postAttach
  | _, _ => none

namespace Streaming

variable {config : AttachConfig} {socket : Connection} {server : Server}
  {refused : SessionRefusals}

theorem opening_of_preAttachError {reason : String}
    (hrun : Hook.run config.preAttach = .error reason) :
    opening config socket server refused =
      withdrawn config socket server (.error (.preAttach reason)) := by
  rw [opening, hrun]

theorem opening_of_unrefused (hrun : Hook.run config.preAttach = .ok ())
    (hstart : refused.start = none) :
    opening config socket server refused = start config socket server := by
  rw [opening, hrun, hstart]

/-- Of what is refused only the thread of the input task comes too late to withdraw. -/
theorem opening_of_refused {refusal : StartRefusal} (hrun : Hook.run config.preAttach = .ok ())
    (hstart : refused.start = some refusal) (socket : Connection) (server : Server) :
    opening config socket server refused = halted config socket server refusal.error ∧
        (∃ cause, refusal = .thread .input cause) ∨
      opening config socket server refused =
        withdrawn config socket server (.error refusal.error) := by
  rw [opening, hrun, hstart]
  obtain cause | ⟨task, cause⟩ := refusal
  · exact Or.inr rfl
  · cases task with
    | input => exact Or.inl ⟨rfl, cause, rfl⟩
    | output => exact Or.inr rfl

end Streaming

theorem Hook.events_sublist (event : SessionEvent) (hook : Option Hook) :
    (Hook.events event hook).Sublist [event] := by
  cases hook with
  | none => exact List.nil_sublist _
  | some hook => exact List.Sublist.refl _

namespace Client

variable {client : Client} {net : Network} {config : AttachConfig} {server : Server}
  {refused : SessionRefusals} {opening : Streaming}

/-- The session is announced and gets a socket of its own. -/
structure Connected (client : Client) (net : Network) (config : AttachConfig) : Prop where
  announced : client.control.announceError = none
  not_passthrough : config.passthrough = false
  connected : (net.connect config.socketPath client.kind).1.isOk = true

/-- The state in which a session begins on its socket, if it gets one. -/
def opening? (client : Client) (net : Network) (config : AttachConfig) (server : Server)
    (refused : SessionRefusals := {}) : Option Streaming :=
  match client.control.announceError with
  | some _ => none
  | none =>
    if config.passthrough then none
    else
      match (net.connect config.socketPath client.kind).1 with
      | .error _ => none
      | .ok _ => some (.opening config { kind := client.kind } server refused)

theorem opening?_eq_some_iff :
    client.opening? net config server refused = some opening ↔
      client.Connected net config ∧
        opening = .opening config { kind := client.kind } server refused := by
  constructor
  · intro hopening
    unfold opening? at hopening
    split at hopening
    · exact absurd hopening (by simp)
    · next hannounced =>
      split at hopening
      · exact absurd hopening (by simp)
      · next hpassthrough =>
        split at hopening
        · exact absurd hopening (by simp)
        · next handle hconnect =>
          have hconnected : (net.connect config.socketPath client.kind).1.isOk = true := by
            rw [hconnect]
            rfl
          exact ⟨⟨hannounced, by simpa using hpassthrough, hconnected⟩,
            (Option.some.inj hopening).symm⟩
  · rintro ⟨⟨hannounced, hpassthrough, hconnect⟩, rfl⟩
    unfold opening?
    rw [hannounced, hpassthrough]
    cases hresult : (net.connect config.socketPath client.kind).1 with
    | error cause =>
        rw [hresult] at hconnect
        exact absurd hconnect Bool.false_ne_true
    | ok handle => rfl

/-- A session on a socket is what the turns from its first state come to. -/
theorem attach_of_connected (hconnected : client.Connected net config) (server : Server)
    (schedule : List Party) :
    client.attach net config server schedule refused =
      ((Streaming.opening config { kind := client.kind } server refused).run schedule).outcome
        (.announce config.request :: .connect config.socketPath :: config.openingEvents)
        (client.resizeLog config refused) := by
  obtain ⟨handle, after, hconnect⟩ : ∃ handle after,
      net.connect config.socketPath client.kind = (.ok handle, after) := by
    have hconnect := hconnected.connected
    rcases hresult : net.connect config.socketPath client.kind with ⟨_ | handle, after⟩
    · rw [hresult] at hconnect
      exact absurd hconnect Bool.false_ne_true
    · exact ⟨handle, after, rfl⟩
  have hsocket := Network.connection?_of_connect hconnect
  have hstream : client.attachAnnounced net config server schedule refused =
      stream config { kind := client.kind } server [.connect config.socketPath]
        (client.resizeLog config refused) schedule refused := by
    simp [attachAnnounced, hconnected.not_passthrough, hconnect, hsocket]
  unfold attach
  rw [hconnected.announced]
  dsimp only
  rw [hstream]
  unfold stream
  simp only [Streaming.outcome]
  split <;> simp

end Client

namespace Streaming

variable {state next : Streaming} {party : Party}

/-! ## The coordinator -/

/-- All that belongs to the coordinator is the same. -/
structure KeepsCoordinator (state next : Streaming) : Prop where
  policy_eq : next.policy = state.policy
  postAttach_eq : next.postAttach = state.postAttach
  phase_eq : next.phase = state.phase
  hooked_eq : next.hooked = state.hooked

/-- The turns of the others leave the coordinator alone. -/
theorem keepsCoordinator_of_act? (hparty : party ≠ .coordinator)
    (hact : state.act? party = some next) : state.KeepsCoordinator next := by
  cases party with
  | coordinator => exact absurd rfl hparty
  | input =>
      obtain ⟨-, sent, socket, -, ⟨task, -, rfl⟩ | ⟨ending, rfl⟩⟩ := actInput?_cases hact <;>
        exact ⟨rfl, rfl, rfl, rfl⟩
  | server =>
      obtain ⟨server, socket, -, rfl⟩ := actServer?_cases hact
      exact ⟨rfl, rfl, rfl, rfl⟩
  | output =>
      obtain ⟨-, inbox, reset, relay, -, rfl | ⟨completions, rfl⟩⟩ := actOutput?_cases hact <;>
        exact ⟨rfl, rfl, rfl, rfl⟩

/-! ## The second hook -/

/-- Whether the turn of a party calls the second hook. -/
def callsHook (state : Streaming) (party : Party) : Bool :=
  match party, state.phase, state.postAttach with
  | .coordinator, .started, some hook => hook.waitOut ≤ state.accepted
  | _, _, _ => false

/-- How often the second hook is called in some turns. -/
def hookCalls (state : Streaming) : List Party → Nat
  | [] => 0
  | party :: turns => (state.callsHook party).toNat + (state.turn party).hookCalls turns

/-- How far the second hook is. -/
inductive HookStage (hook : Option Hook) (state : Streaming) : Prop
  | due (postAttach_eq : state.postAttach = hook) (phase_eq : state.phase = .started)
      (hooked_eq : state.hooked = false)
  | missing (hook_eq : hook = none) (phase_ne : state.phase ≠ .started)
      (hooked_eq : state.hooked = false)
  | called {action : Hook} (hook_eq : hook = some action) (phase_ne : state.phase ≠ .started)
      (hooked_eq : state.hooked = true)
      (ends : ∀ reason, action.error = some reason →
        state.phase = .finishing (.error (.postAttach reason)) ∨
          state.phase = .returned (.error (.postAttach reason)))

/-- Once the first phase is over the hook is left alone, and a result that stands is kept. -/
theorem coordinator_of_phase_ne (hphase : state.phase ≠ .started)
    (hact : state.act? .coordinator = some next) :
    next.phase ≠ .started ∧ next.hooked = state.hooked ∧
      ∀ result, state.phase = .finishing result → next.phase = .returned result := by
  cases actCoordinator?_cases hact with
  | goesOn early not_finishing socket_eq phase_ne phase_open hooked_eq =>
      exact ⟨phase_ne, hooked_eq hphase,
        fun result hresult => absurd hresult (not_finishing result)⟩
  | returns phase_eq =>
      refine ⟨by simp, rfl, ?_⟩
      intro other hother
      rw [phase_eq] at hother
      rw [Phase.finishing.inj hother]

theorem callsHook_of_phase_ne (hphase : state.phase ≠ .started) (party : Party) :
    state.callsHook party = false := by
  unfold callsHook
  split
  · next hstarted _ => exact absurd hstarted hphase
  · rfl

theorem callsHook_of_party_ne (hparty : party ≠ .coordinator) :
    state.callsHook party = false := by
  cases party with
  | coordinator => exact absurd rfl hparty
  | input | server | output => rfl

/-- A turn that is used moves the hook on or leaves it where it is. -/
theorem HookStage.step {hook : Option Hook} (hstage : state.HookStage hook)
    (hact : state.act? party = some next) :
    next.HookStage hook ∧
      next.hooked.toNat = state.hooked.toNat + (state.callsHook party).toNat := by
  by_cases hparty : party = .coordinator
  · subst hparty
    cases hstage with
    | due postAttach_eq phase_eq hooked_eq =>
        replace hact : state.actHook? = some next := by
          rw [← hact]
          simp only [act?, actCoordinator?, phase_eq]
        unfold actHook? at hact
        simp only [callsHook, phase_eq]
        cases hook with
        | none =>
            rw [postAttach_eq] at hact ⊢
            obtain rfl := Option.some.inj hact
            exact ⟨.missing rfl (by simp) hooked_eq, rfl⟩
        | some action =>
            rw [postAttach_eq] at hact ⊢
            dsimp only at hact ⊢
            split at hact
            · next hwait =>
              obtain rfl := Option.some.inj hact
              refine ⟨.called rfl ?_ rfl ?_, by simp [hwait, hooked_eq]⟩
              · cases action.error <;> simp
              · intro reason herror
                simp [herror]
            · exact absurd hact (by simp)
    | missing hook_eq phase_ne hooked_eq =>
        obtain ⟨hphase, hhooked, -⟩ := coordinator_of_phase_ne phase_ne hact
        refine ⟨.missing hook_eq hphase (hhooked.trans hooked_eq), ?_⟩
        rw [hhooked, callsHook_of_phase_ne phase_ne]
        rfl
    | @called action hook_eq phase_ne hooked_eq ends =>
        obtain ⟨hphase, hhooked, hresult⟩ := coordinator_of_phase_ne phase_ne hact
        have hends : ∀ reason, action.error = some reason →
            next.phase = .finishing (.error (.postAttach reason)) ∨
              next.phase = .returned (.error (.postAttach reason)) := by
          intro reason herror
          rcases ends reason herror with hfinishing | hreturned
          · exact Or.inr (hresult _ hfinishing)
          · exact absurd hact (by simp [act?, actCoordinator?, hreturned])
        refine ⟨.called hook_eq hphase (hhooked.trans hooked_eq) hends, ?_⟩
        rw [hhooked, callsHook_of_phase_ne phase_ne]
        rfl
  · -- nobody else touches the phase or the hook
    obtain ⟨-, hhook, hphase, hhooked⟩ := keepsCoordinator_of_act? hparty hact
    refine ⟨?_, by rw [hhooked, callsHook_of_party_ne hparty]; rfl⟩
    cases hstage with
    | due postAttach_eq phase_eq hooked_eq =>
        exact .due (hhook.trans postAttach_eq) (hphase.trans phase_eq) (hhooked.trans hooked_eq)
    | missing hook_eq phase_ne hooked_eq =>
        exact .missing hook_eq (by rwa [hphase]) (hhooked.trans hooked_eq)
    | called hook_eq phase_ne hooked_eq ends =>
        exact .called hook_eq (by rwa [hphase]) (hhooked.trans hooked_eq) (by rwa [hphase])

/-- A turn that calls the hook is used. -/
theorem callsHook_of_waiting (hact : state.act? party = none) :
    state.callsHook party = false := by
  unfold callsHook
  split
  · next hook hphase hhook =>
    have hwaits : state.actHook? = none := by
      rw [← hact]
      simp only [act?, actCoordinator?, hphase]
    unfold actHook? at hwaits
    rw [hhook] at hwaits
    dsimp only at hwaits
    split at hwaits
    · exact absurd hwaits (by simp)
    · next hearly => simpa using hearly
  · rfl

/-- The hook is called in as many turns as the state tells. -/
theorem HookStage.follow {hook : Option Hook} (hstage : state.HookStage hook)
    (turns : List Party) :
    (state.follow turns).HookStage hook ∧
      (state.follow turns).hooked.toNat = state.hooked.toNat + state.hookCalls turns := by
  induction turns generalizing state with
  | nil => exact ⟨hstage, rfl⟩
  | cons party turns ih =>
      have hturn : (state.turn party).HookStage hook ∧
          (state.turn party).hooked.toNat =
            state.hooked.toNat + (state.callsHook party).toNat := by
        cases hact : state.act? party with
        | none =>
            rw [turn_of_waiting hact, callsHook_of_waiting hact]
            exact ⟨hstage, rfl⟩
        | some next =>
            rw [turn_of_act? hact]
            exact hstage.step hact
      obtain ⟨hlater, hcalls⟩ := ih hturn.1
      refine ⟨hlater, ?_⟩
      rw [hturn.2, Nat.add_assoc] at hcalls
      exact hcalls

theorem HookStage.not_hooked (hstage : state.HookStage none) : state.hooked = false := by
  cases hstage with
  | due _ _ hooked_eq | missing _ _ hooked_eq => exact hooked_eq
  | called hook_eq => exact absurd hook_eq (by simp)

/-- When nobody can act any more, a hook that need not wait has been called. -/
theorem HookStage.hooked_of_rest {action : Hook} (hstage : state.HookStage (some action))
    (hrest : state.next? = none) (hwait : action.waitOut ≤ state.accepted) :
    state.hooked = true := by
  cases hstage with
  | missing hook_eq => exact absurd hook_eq (by simp)
  | called _ _ hooked_eq => exact hooked_eq
  | due postAttach_eq phase_eq =>
      have hwaits := act?_of_rest hrest .coordinator
      simp [act?, actCoordinator?, actHook?, phase_eq, postAttach_eq, hwait] at hwaits

/-- When nobody can act any more, a hook that has been called and failed is the result. -/
theorem HookStage.result_of_rest {action : Hook} {reason : String}
    (hstage : state.HookStage (some action)) (hrest : state.next? = none)
    (hhooked : state.hooked = true) (herror : action.error = some reason) :
    state.result? = some (.error (.postAttach reason)) := by
  cases hstage with
  | due _ _ hooked_eq | missing _ _ hooked_eq =>
      exact absurd (hooked_eq.symm.trans hhooked) Bool.false_ne_true
  | called hook_eq _ _ ends =>
      obtain rfl := Option.some.inj hook_eq
      have hwaits := act?_of_rest hrest .coordinator
      rcases ends reason herror with hfinishing | hreturned
      · simp [act?, actCoordinator?, hfinishing] at hwaits
      · rw [result?, hreturned]

/-! ## Giving up -/

/-- Nobody reads the input, the result is known, and the server has nothing to read. -/
structure Mute (received : List Bytes) (result : Except AttachError Unit) (state : Streaming) :
    Prop where
  input_eq : state.input = .ended
  phase_eq : state.phase = .finishing result ∨ state.phase = .returned result
  hooked_eq : state.hooked = false
  received_eq : state.server.received = received
  inbox_eq : state.socket.far.inbox = []

namespace Mute

variable {received : List Bytes} {result : Except AttachError Unit}

theorem input_waits (hmute : state.Mute received result) : state.act? .input = none := by
  simp [act?, actInput?, hmute.input_eq]

theorem step (hmute : state.Mute received result) (hact : state.act? party = some next) :
    next.Mute received result := by
  have hrelease : ∀ socket : Connection, (socket.release .near).far.inbox = socket.far.inbox := by
    intro socket
    rw [Connection.release_near]
    split <;> rfl
  obtain ⟨hinput, hphase, hhooked, hreceived, hinbox⟩ := hmute
  cases party with
  | input => simp [act?, actInput?, hinput] at hact
  | server =>
      obtain ⟨server, socket, hserver, rfl⟩ := actServer?_cases hact
      obtain ⟨hsame, hempty⟩ := (Server.act?_does hserver).of_empty hinbox
      exact ⟨hinput, hphase, hhooked, hsame.trans hreceived, hempty⟩
  | output =>
      obtain ⟨-, inbox, reset, relay, -, rfl | ⟨completions, rfl⟩⟩ := actOutput?_cases hact
      · exact ⟨hinput, hphase, hhooked, hreceived, hinbox⟩
      · exact ⟨hinput, hphase, hhooked, hreceived, (hrelease _).trans hinbox⟩
  | coordinator =>
      cases actCoordinator?_cases hact with
      | goesOn early not_finishing =>
          -- a result that is known is only returned
          obtain hfinishing | hreturned := hphase
          · exact absurd hfinishing (not_finishing result)
          · rw [hasReturned, hreturned] at early
            exact absurd early (by simp)
      | @returns other phase_eq =>
          obtain hfinishing | hreturned := hphase
          · obtain rfl := Phase.finishing.inj (phase_eq.symm.trans hfinishing)
            exact ⟨hinput, Or.inr rfl, hhooked, hreceived, (hrelease _).trans hinbox⟩
          · exact absurd (phase_eq.symm.trans hreturned) (by simp)

theorem follow (hmute : state.Mute received result) (turns : List Party) :
    (state.follow turns).Mute received result :=
  follow_preserves (fun hcurrent hact => hcurrent.step hact) hmute turns

theorem result_of_rest (hmute : state.Mute received result) (hrest : state.next? = none) :
    state.result? = some result := by
  obtain hfinishing | hreturned := hmute.phase_eq
  · have hwaits := act?_of_rest hrest .coordinator
    simp [act?, actCoordinator?, hfinishing] at hwaits
  · rw [result?, hreturned]

end Mute

/-- The client has withdrawn, and no stream was started. -/
structure Withdrawn (config : AttachConfig) (received : List Bytes)
    (result : Except AttachError Unit) (state : Streaming) : Prop where
  mute : state.Mute received result
  not_relaying : state.relaying = false
  phase_eq : state.phase = .returned result
  relay_eq : state.relay = ⟨config.streams.outputs, {}⟩

namespace Withdrawn

variable {config : AttachConfig} {received : List Bytes} {result : Except AttachError Unit}

/-- Only the server can act any more. -/
theorem act?_eq_none (hwithdrawn : state.Withdrawn config received result)
    (hparty : party ≠ .server) : state.act? party = none := by
  obtain ⟨hmute, hrelaying, hphase, -⟩ := hwithdrawn
  cases party with
  | server => exact absurd rfl hparty
  | input => exact hmute.input_waits
  | output => simp [act?, actOutput?, hrelaying]
  | coordinator => simp [act?, actCoordinator?, hphase]

theorem step (hwithdrawn : state.Withdrawn config received result)
    (hact : state.act? party = some next) : next.Withdrawn config received result := by
  have hmute := hwithdrawn.mute.step hact
  by_cases hparty : party = .server
  · subst hparty
    obtain ⟨server, socket, -, rfl⟩ := actServer?_cases hact
    exact ⟨hmute, hwithdrawn.not_relaying, hwithdrawn.phase_eq, hwithdrawn.relay_eq⟩
  · exact absurd (hact.symm.trans (hwithdrawn.act?_eq_none hparty)) (by simp)

theorem follow (hwithdrawn : state.Withdrawn config received result) (turns : List Party) :
    (state.follow turns).Withdrawn config received result :=
  follow_preserves (fun hcurrent hact => hcurrent.step hact) hwithdrawn turns

end Withdrawn

theorem withdrawn_withdrawn (config : AttachConfig) (kind : SocketKind) (server : Server)
    (result : Except AttachError Unit) :
    (withdrawn config { kind := kind } server result).Withdrawn config server.received result :=
  ⟨⟨rfl, Or.inr rfl, rfl, rfl, rfl⟩, rfl, rfl, rfl⟩

theorem mute_halted (config : AttachConfig) (kind : SocketKind) (server : Server)
    (error : AttachError) :
    (halted config { kind := kind } server error).Mute server.received (.error error) :=
  ⟨rfl, Or.inl rfl, rfl, rfl, rfl⟩

end Streaming

/-! ## The law of the stages -/

namespace Client

variable {client : Client} {net : Network} {config : AttachConfig} {server : Server}
  {schedule : List Party} {refused : SessionRefusals}

/-- What a session comes to, stage by stage. -/
structure StageLaw (client : Client) (net : Network) (config : AttachConfig) (server : Server)
    (schedule : List Party) (refused : SessionRefusals) (session : SessionOutcome) : Prop where
  /-- No stage comes twice, and none comes before its time. -/
  in_order : session.events.Sublist
    [.announce config.request, .connect config.socketPath, .preAttach, .stream, .postAttach]
  /-- The second hook is called as often as the session tells. -/
  hook_calls : ∀ opening, client.opening? net config server refused = some opening →
    ∃ turns, schedule <+: turns ∧ opening.run schedule = opening.follow turns ∧
      opening.hookCalls turns = session.events.count .postAttach
  /-- Nothing follows an announcement that fails. -/
  announce_failed : ∀ reason, client.control.announceError = some reason →
    client.opening? net config server refused = none ∧
      session =
        { result? := some (.error (.announce config.id reason))
          events := [.announce config.request]
          resize := {}
          received := []
          outputs := config.streams.outputs }
  /-- With passthrough there is no socket, and the first hook alone decides. -/
  passed_through : client.control.announceError = none → config.passthrough = true →
    client.opening? net config server refused = none ∧
      session =
        { result? := some ((Hook.run config.preAttach).mapError .preAttach)
          events := .announce config.request :: Hook.events .preAttach config.preAttach
          resize := {}
          received := []
          outputs := config.streams.outputs }
  /-- Without a socket no hook is called, and no stream is touched. -/
  connect_failed : ∀ cause, client.control.announceError = none → config.passthrough = false →
    (net.connect config.socketPath client.kind).1 = .error cause →
    client.opening? net config server refused = none ∧
      session =
        { result? := some (.error (.connect config.socketPath cause))
          events := [.announce config.request, .connect config.socketPath]
          resize := client.resizeLog config refused
          received := []
          outputs := config.streams.outputs }
  /-- If the first hook fails, nobody but the server can ever act on the socket, and the
  server receives nothing. -/
  pre_attach_failed : ∀ reason, client.Connected net config →
    Hook.run config.preAttach = .error reason →
    session =
        { result? := some (.error (.preAttach reason))
          events := [.announce config.request, .connect config.socketPath, .preAttach]
          resize := client.resizeLog config refused
          received := server.received
          outputs := config.streams.outputs } ∧
      ∀ opening, client.opening? net config server refused = some opening →
        ∀ turns, ∀ party ≠ .server, (opening.follow turns).act? party = none
  /-- If the streams cannot be started, nobody ever reads the input, the server receives nothing,
  and the second hook is not called.  Only the output task may be running already, and that only
  if it is the thread of the other task that is refused. -/
  start_failed : ∀ refusal, client.Connected net config →
    Hook.run config.preAttach = .ok () → refused.start = some refusal →
    session =
        { result? := some (.error refusal.error)
          events := .announce config.request :: .connect config.socketPath ::
            (Hook.events .preAttach config.preAttach ++ [.stream])
          resize := client.resizeLog config refused
          received := server.received
          outputs := session.outputs } ∧
      (∀ opening, client.opening? net config server refused = some opening →
        ∀ turns, (opening.follow turns).act? .input = none) ∧
      ((∀ cause, refusal ≠ .thread .input cause) →
        session.outputs = config.streams.outputs ∧
        ∀ opening, client.opening? net config server refused = some opening →
          ∀ turns, ∀ party ≠ .server, (opening.follow turns).act? party = none)
  /-- If nothing else happens, the streams come after the first hook. -/
  streams : client.Connected net config → Hook.run config.preAttach = .ok () →
    ∃ called, called.Sublist (Hook.events .postAttach config.postAttach) ∧
      session.events = .announce config.request :: .connect config.socketPath ::
        (Hook.events .preAttach config.preAttach ++ .stream :: called)
  /-- Once the streams are started, the second hook is called as soon as the output that it waits
  for is there. -/
  post_attach_called : .stream ∈ session.events → refused.start = none →
    ∀ hook, config.postAttach = some hook →
      hook.waitOut ≤ session.outputs.acceptedCount → .postAttach ∈ session.events
  /-- If the second hook fails, that is the result, whatever the tasks have done. -/
  post_attach_failed : .postAttach ∈ session.events → ∀ hook reason,
    config.postAttach = some hook → hook.error = some reason →
    session.result? = some (.error (.postAttach reason))

/-! ### Sessions without a socket -/

theorem attach_of_announceError {reason : String}
    (hannounce : client.control.announceError = some reason) :
    client.opening? net config server refused = none ∧
      client.attach net config server schedule refused =
        unconnected config (.error (.announce config.id reason)) [.announce config.request] {} := by
  constructor
  · rw [opening?, hannounce]
  · rw [attach, hannounce]

theorem attach_of_passthrough (hannounce : client.control.announceError = none)
    (hpassthrough : config.passthrough = true) :
    client.opening? net config server refused = none ∧
      client.attach net config server schedule refused =
        unconnected config ((Hook.run config.preAttach).mapError .preAttach)
          (.announce config.request :: Hook.events .preAttach config.preAttach) {} := by
  constructor
  · rw [opening?, hannounce]
    exact if_pos hpassthrough
  · rw [attach, hannounce]
    dsimp only
    rw [attachAnnounced, if_pos hpassthrough]
    rfl

theorem attach_of_connectError {cause : SocketError}
    (hannounce : client.control.announceError = none)
    (hpassthrough : config.passthrough = false)
    (hconnect : (net.connect config.socketPath client.kind).1 = .error cause) :
    client.opening? net config server refused = none ∧
      client.attach net config server schedule refused =
        unconnected config (.error (.connect config.socketPath cause))
          [.announce config.request, .connect config.socketPath]
          (client.resizeLog config refused) := by
  constructor
  · simp [opening?, hannounce, hpassthrough, hconnect]
  · obtain ⟨after, hafter⟩ : ∃ after,
        net.connect config.socketPath client.kind = (.error cause, after) := by
      refine ⟨(net.connect config.socketPath client.kind).2, ?_⟩
      rw [← hconnect]
    simp [attach, attachAnnounced, hannounce, hpassthrough, hafter, unconnected]

/-- A session without a socket gets no further than the first hook, and leaves the sinks as they
are. -/
theorem attach_of_not_connected (hconnected : ¬ client.Connected net config) :
    client.opening? net config server refused = none ∧
      ∃ result events resize,
        client.attach net config server schedule refused = unconnected config result events resize ∧
        events.Sublist [.announce config.request, .connect config.socketPath, .preAttach] := by
  cases hannounce : client.control.announceError with
  | some reason =>
      obtain ⟨hopening, hsession⟩ := attach_of_announceError hannounce
      exact ⟨hopening, _, _, _, hsession, by simp⟩
  | none =>
      cases hpassthrough : config.passthrough with
      | true =>
          obtain ⟨hopening, hsession⟩ := attach_of_passthrough hannounce hpassthrough
          exact ⟨hopening, _, _, _, hsession,
            ((Hook.events_sublist .preAttach config.preAttach).cons _).cons_cons _⟩
      | false =>
          cases hconnect : (net.connect config.socketPath client.kind).1 with
          | error cause =>
              obtain ⟨hopening, hsession⟩ :=
                attach_of_connectError hannounce hpassthrough hconnect
              exact ⟨hopening, _, _, _, hsession, by simp⟩
          | ok handle => exact absurd ⟨hannounce, hpassthrough, by rw [hconnect]; rfl⟩ hconnected

theorem events_of_not_connected (hconnected : ¬ client.Connected net config) :
    client.opening? net config server refused = none ∧
      (client.attach net config server schedule refused).events.Sublist
        [.announce config.request, .connect config.socketPath, .preAttach] := by
  obtain ⟨hopening, result, events, resize, hsession, hevents⟩ :=
    attach_of_not_connected hconnected
  exact ⟨hopening, by rw [hsession]; exact hevents⟩

/-- What comes after the first hook happens on a socket. -/
theorem connected_of_mem {event : SessionEvent}
    (hmem : event ∈ (client.attach net config server schedule refused).events)
    (hlate : event ∉ [.announce config.request, .connect config.socketPath, .preAttach]) :
    client.Connected net config :=
  Classical.byContradiction fun hconnected =>
    hlate ((events_of_not_connected hconnected).2.subset hmem)

/-! ### Sessions on a socket -/

/-- The session of a client that withdraws. -/
theorem attach_of_withdrawn {result : Except AttachError Unit}
    (hconnected : client.Connected net config)
    (hopening : Streaming.opening config { kind := client.kind } server refused =
      .withdrawn config { kind := client.kind } server result) (schedule : List Party) :
    client.attach net config server schedule refused =
        { result? := some result
          events := .announce config.request :: .connect config.socketPath ::
            config.openingEvents
          resize := client.resizeLog config refused
          received := server.received
          outputs := config.streams.outputs } ∧
      ∀ opening, client.opening? net config server refused = some opening →
        ∀ turns, ∀ party ≠ .server, (opening.follow turns).act? party = none := by
  have hwithdrawn := Streaming.withdrawn_withdrawn config client.kind server result
  rw [← hopening] at hwithdrawn
  constructor
  · obtain ⟨turns, -, hturns⟩ := Streaming.exists_run_eq_follow
      (.opening config { kind := client.kind } server refused) schedule
    have hafter := hwithdrawn.follow turns
    rw [attach_of_connected hconnected, hturns]
    simp only [Streaming.outcome, Streaming.result?, hafter.phase_eq, hafter.mute.hooked_eq,
      hafter.mute.received_eq, hafter.relay_eq]
    rfl
  · intro opening hsome turns party hparty
    obtain ⟨-, rfl⟩ := opening?_eq_some_iff.mp hsome
    exact (hwithdrawn.follow turns).act?_eq_none hparty

/-- The session of a client that has no thread for its input task. -/
theorem attach_of_halted {error : AttachError} (hconnected : client.Connected net config)
    (hopening : Streaming.opening config { kind := client.kind } server refused =
      .halted config { kind := client.kind } server error) (schedule : List Party) :
    client.attach net config server schedule refused =
        { result? := some (.error error)
          events := .announce config.request :: .connect config.socketPath ::
            config.openingEvents
          resize := client.resizeLog config refused
          received := server.received
          outputs := (client.attach net config server schedule refused).outputs } ∧
      ∀ opening, client.opening? net config server refused = some opening →
        ∀ turns, (opening.follow turns).act? .input = none := by
  have hmute := Streaming.mute_halted config client.kind server error
  rw [← hopening] at hmute
  constructor
  · obtain ⟨turns, -, hturns⟩ := Streaming.exists_run_eq_follow
      (.opening config { kind := client.kind } server refused) schedule
    have hrest := Streaming.next?_run
      (.opening config { kind := client.kind } server refused) schedule
    rw [hturns] at hrest
    have hafter := hmute.follow turns
    rw [attach_of_connected hconnected, hturns]
    simp only [Streaming.outcome, hafter.result_of_rest hrest, hafter.hooked_eq,
      hafter.received_eq]
    rfl
  · intro opening hsome turns
    obtain ⟨-, rfl⟩ := opening?_eq_some_iff.mp hsome
    exact (hmute.follow turns).input_waits

theorem attach_of_preAttachError {reason : String} (hconnected : client.Connected net config)
    (hrun : Hook.run config.preAttach = .error reason) :
    client.attach net config server schedule refused =
        { result? := some (.error (.preAttach reason))
          events := [.announce config.request, .connect config.socketPath, .preAttach]
          resize := client.resizeLog config refused
          received := server.received
          outputs := config.streams.outputs } ∧
      ∀ opening, client.opening? net config server refused = some opening →
        ∀ turns, ∀ party ≠ .server, (opening.follow turns).act? party = none := by
  have hevents : config.openingEvents = [.preAttach] := by
    cases hhook : config.preAttach with
    | none =>
        rw [hhook] at hrun
        exact absurd hrun (by simp [Hook.run])
    | some hook =>
        rw [AttachConfig.openingEvents, hrun, hhook]
        rfl
  have hopening : Streaming.opening config { kind := client.kind } server refused = _ :=
    Streaming.opening_of_preAttachError hrun
  obtain ⟨hsession, hothers⟩ := attach_of_withdrawn hconnected hopening schedule
  exact ⟨hevents ▸ hsession, hothers⟩

theorem attach_of_startError {refusal : StartRefusal} (hconnected : client.Connected net config)
    (hrun : Hook.run config.preAttach = .ok ()) (hstart : refused.start = some refusal) :
    client.attach net config server schedule refused =
        { result? := some (.error refusal.error)
          events := .announce config.request :: .connect config.socketPath ::
            (Hook.events .preAttach config.preAttach ++ [.stream])
          resize := client.resizeLog config refused
          received := server.received
          outputs := (client.attach net config server schedule refused).outputs } ∧
      (∀ opening, client.opening? net config server refused = some opening →
        ∀ turns, (opening.follow turns).act? .input = none) ∧
      ((∀ cause, refusal ≠ .thread .input cause) →
        (client.attach net config server schedule refused).outputs = config.streams.outputs ∧
        ∀ opening, client.opening? net config server refused = some opening →
          ∀ turns, ∀ party ≠ .server, (opening.follow turns).act? party = none) := by
  have hevents : config.openingEvents = Hook.events .preAttach config.preAttach ++ [.stream] := by
    rw [AttachConfig.openingEvents, hrun]
  rw [← hevents]
  obtain ⟨hopening, hinput⟩ | hopening :=
    Streaming.opening_of_refused hrun hstart { kind := client.kind } server
  · obtain ⟨cause, hrefusal⟩ := hinput
    obtain ⟨hsession, hwaits⟩ := attach_of_halted hconnected hopening schedule
    exact ⟨hsession, hwaits, fun hnot => absurd hrefusal (hnot cause)⟩
  · obtain ⟨hsession, hwaits⟩ := attach_of_withdrawn hconnected hopening schedule
    refine ⟨?_, fun opening hsome turns => hwaits opening hsome turns .input (by decide),
      fun _ => ⟨?_, hwaits⟩⟩
    · rw [hsession]
    · rw [hsession]

/-- The second hook is due if the streams are started, and never called if they are not. -/
theorem hookStage_follow (config : AttachConfig) (kind : SocketKind) (server : Server)
    (refused : SessionRefusals) (turns : List Party) :
    let opening := Streaming.opening config { kind := kind } server refused
    (opening.follow turns).HookStage (config.dueHook refused) ∧
      (opening.follow turns).hooked.toNat = opening.hookCalls turns := by
  intro opening
  have hstart : opening.HookStage (config.dueHook refused) ∧ opening.hooked = false := by
    unfold AttachConfig.dueHook
    cases hrun : Hook.run config.preAttach with
    | error reason =>
        simp only [opening, Streaming.opening_of_preAttachError hrun]
        exact ⟨.missing rfl (by simp [Streaming.withdrawn]) rfl, rfl⟩
    | ok =>
        cases hrefused : refused.start with
        | none =>
            simp only [opening, Streaming.opening_of_unrefused hrun hrefused]
            exact ⟨.due rfl rfl rfl, rfl⟩
        | some refusal =>
            obtain ⟨hopening, -⟩ | hopening :=
              Streaming.opening_of_refused hrun hrefused { kind := kind } server
            · simp only [opening, hopening]
              exact ⟨.missing rfl (by simp [Streaming.halted]) rfl, rfl⟩
            · simp only [opening, hopening]
              exact ⟨.missing rfl (by simp [Streaming.withdrawn]) rfl, rfl⟩
  obtain ⟨hstage, hcalls⟩ := hstart.1.follow turns
  rw [hstart.2] at hcalls
  exact ⟨hstage, hcalls.trans (Nat.zero_add _)⟩

/-- A session on a socket is the turns of a run, and tells every call of the second hook. -/
theorem attach_turns (hconnected : client.Connected net config) (server : Server)
    (schedule : List Party) (refused : SessionRefusals) :
    let opening := Streaming.opening config { kind := client.kind } server refused
    ∃ turns, schedule <+: turns ∧ opening.run schedule = opening.follow turns ∧
      (opening.follow turns).next? = none ∧
      client.attach net config server schedule refused =
        { result? := (opening.follow turns).result?
          events := .announce config.request :: .connect config.socketPath ::
            (config.openingEvents ++ List.replicate (opening.hookCalls turns) .postAttach)
          resize := client.resizeLog config refused
          received := (opening.follow turns).server.received
          outputs := (opening.follow turns).relay.outputs } := by
  intro opening
  obtain ⟨turns, hprefix, hturns⟩ := opening.exists_run_eq_follow schedule
  have hrest := opening.next?_run schedule
  rw [hturns] at hrest
  refine ⟨turns, hprefix, hturns, hrest, ?_⟩
  rw [attach_of_connected hconnected, hturns, ← (hookStage_follow config _ server refused turns).2]
  show (opening.follow turns).outcome _ _ = _
  cases hhooked : (opening.follow turns).hooked <;> simp [Streaming.outcome, hhooked]

/-- Before the second hook there are the first hook and the streams, in this order. -/
theorem openingEvents_sublist (config : AttachConfig) :
    config.openingEvents.Sublist [.preAttach, .stream] := by
  show config.openingEvents.Sublist ([.preAttach] ++ [.stream])
  unfold AttachConfig.openingEvents
  refine (Hook.events_sublist .preAttach config.preAttach).append ?_
  cases Hook.run config.preAttach with
  | error reason => exact List.nil_sublist _
  | ok => exact List.Sublist.refl _

/-- A hook that is due is the one that the settings have. -/
theorem dueHook_cases (config : AttachConfig) (refused : SessionRefusals) :
    config.dueHook refused = config.postAttach ∨ config.dueHook refused = none := by
  unfold AttachConfig.dueHook
  split
  · exact Or.inl rfl
  · exact Or.inr rfl

/-- The second hook is called once at most, and not at all if there is none. -/
theorem replicate_hookCalls_sublist (config : AttachConfig) (kind : SocketKind) (server : Server)
    (refused : SessionRefusals) (turns : List Party) :
    (List.replicate ((Streaming.opening config { kind := kind } server refused).hookCalls turns)
      SessionEvent.postAttach).Sublist (Hook.events .postAttach config.postAttach) := by
  obtain ⟨hstage, hcalls⟩ := hookStage_follow config kind server refused turns
  rw [← hcalls]
  cases hhooked :
      ((Streaming.opening config { kind := kind } server refused).follow turns).hooked with
  | false => exact List.nil_sublist _
  | true =>
      cases hhook : config.postAttach with
      | some hook => exact List.Sublist.refl _
      | none =>
          have hnone : config.dueHook refused = none :=
            (dueHook_cases config refused).elim (·.trans hhook) id
          rw [hnone] at hstage
          exact absurd (hstage.not_hooked.symm.trans hhooked) Bool.false_ne_true

/-- **A session goes through its stages in order.**  Whatever its settings, its control
plane, its network, its server and its schedule, and whatever the operating system refuses to it,
a stage that fails ends it with the error of that stage, and nothing of a later stage happens. -/
theorem attach_stages (client : Client) (net : Network) (config : AttachConfig)
    (server : Server) (schedule : List Party) (refused : SessionRefusals) :
    StageLaw client net config server schedule refused
      (client.attach net config server schedule refused) := by
  refine
    { in_order := ?in_order
      hook_calls := ?hook_calls
      announce_failed := fun reason hannounce => attach_of_announceError hannounce
      passed_through := fun hannounce hpassthrough =>
        attach_of_passthrough hannounce hpassthrough
      connect_failed := fun cause hannounce hpassthrough hconnect =>
        attach_of_connectError hannounce hpassthrough hconnect
      pre_attach_failed := fun reason hconnected hrun =>
        attach_of_preAttachError hconnected hrun
      start_failed := fun refusal hconnected hrun hstart =>
        attach_of_startError hconnected hrun hstart
      streams := ?streams
      post_attach_called := ?post_attach_called
      post_attach_failed := ?post_attach_failed }
  case in_order =>
    by_cases hconnected : client.Connected net config
    · obtain ⟨turns, -, -, -, hsession⟩ := attach_turns hconnected server schedule refused
      rw [hsession]
      have hhook := (replicate_hookCalls_sublist config client.kind server refused turns).trans
        (Hook.events_sublist .postAttach config.postAttach)
      exact (((openingEvents_sublist config).append hhook).cons_cons _).cons_cons _
    · exact (events_of_not_connected hconnected).2.trans
        (List.sublist_append_left _ [SessionEvent.stream, .postAttach])
  case hook_calls =>
    intro opening hopening
    obtain ⟨hconnected, rfl⟩ := opening?_eq_some_iff.mp hopening
    obtain ⟨turns, hprefix, hturns, -, hsession⟩ :=
      attach_turns hconnected server schedule refused
    refine ⟨turns, hprefix, hturns, ?_⟩
    have hnone : config.openingEvents.count .postAttach = 0 :=
      List.count_eq_zero.mpr fun hmem =>
        absurd ((openingEvents_sublist config).subset hmem) (by simp)
    rw [hsession]
    simp [List.count_append, hnone]
  case streams =>
    intro hconnected hrun
    obtain ⟨turns, -, -, -, hsession⟩ := attach_turns hconnected server schedule refused
    refine ⟨_, replicate_hookCalls_sublist config client.kind server refused turns, ?_⟩
    rw [hsession, AttachConfig.openingEvents, hrun, List.append_assoc]
    rfl
  case post_attach_called =>
    intro hstream hstart hook hhook hwait
    have hconnected := connected_of_mem hstream (by simp)
    obtain ⟨turns, -, -, hrest, hsession⟩ := attach_turns hconnected server schedule refused
    obtain ⟨hstage, hcalls⟩ := hookStage_follow config client.kind server refused turns
    rw [hsession] at hstream hwait ⊢
    cases hrun : Hook.run config.preAttach with
    | error reason =>
        simp [AttachConfig.openingEvents, hrun] at hstream
        exact absurd ((Hook.events_sublist _ _).subset hstream) (by simp)
    | ok =>
        rw [AttachConfig.dueHook, hrun, hstart, hhook] at hstage
        have hhooked := hstage.hooked_of_rest hrest hwait
        rw [hhooked] at hcalls
        simp [← hcalls]
  case post_attach_failed =>
    intro hcalled hook reason hhook herror
    have hconnected := connected_of_mem hcalled (by simp)
    obtain ⟨turns, -, -, hrest, hsession⟩ := attach_turns hconnected server schedule refused
    obtain ⟨hstage, hcalls⟩ := hookStage_follow config client.kind server refused turns
    rw [hsession] at hcalled ⊢
    have hhooked : ((Streaming.opening config { kind := client.kind } server refused).follow
        turns).hooked = true := by
      refine eq_true_of_ne_false fun hnot => ?_
      rw [hnot] at hcalls
      rw [← hcalls] at hcalled
      simp at hcalled
      exact absurd ((openingEvents_sublist config).subset hcalled) (by simp)
    obtain hdue | hnone := dueHook_cases config refused
    · rw [hdue, hhook] at hstage
      exact hstage.result_of_rest hrest hhooked herror
    · rw [hnone] at hstage
      exact absurd (hstage.not_hooked.symm.trans hhooked) Bool.false_ne_true

end Client

end ContainerAttach
