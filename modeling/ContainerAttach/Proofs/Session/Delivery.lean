import ContainerAttach.Proofs.Session.Exchange
import ContainerAttach.Proofs.Session.Stages

/-!
# Delivery from end to end

A session with a server that listens to the end and then answers is an exchange from its
first turn on (`Exchange.stage_start`), provided that it gets as far as its streams
(`Client.Connects`).  So its result, what the server receives and what the sinks get are
those of the exchange, and no schedule changes any of them (`attach_exchange`).

If in addition the sinks take everything, nothing is lost on either way: the server
receives all of the input and then its end, and the sinks get all of the output
(`attach_delivers`).
-/

namespace ContainerAttach

/-- A server that receives until the end of the input, sends some packets, and closes its
end. -/
def Server.replying (packets : List Packet) : Server :=
  { steps := .drain :: packets.map .send }

/-- In the turns of a run the server reads what the log says. -/
def Streaming.Hears (state : Streaming) (schedule : List Party) (log : List Received) : Prop :=
  ∃ turns, schedule <+: turns ∧ state.run schedule = state.follow turns ∧ state.heard turns = log

/-- The start of a session that is an exchange. -/
theorem Exchange.stage_start (x : Exchange) {config : AttachConfig}
    {stdin : Option (List ReadStep)} {rest : Source}
    (hpolicy : x.policy =
      { stopAfterStdinEof := config.stopAfterStdinEof
        stdinConfigured := config.streams.stdin.isSome
        outputConfigured := config.streams.outputs.any })
    (hhook : x.postAttach = config.postAttach) (houtputs : x.outputs = config.streams.outputs)
    (hstdin : config.streams.stdin = stdin.map fun steps => steps.map .read)
    (hforward : forward ⟨.stream, [], stdin.getD []⟩ (.ofKeys config.detachKeys) (.holding []) 0 =
      (x.ending, rest, .holding x.messages)) :
    x.Stage [] (Streaming.start config { kind := .packet } (.replying x.packets)) := by
  have htask : (InputTask.start config.streams.stdin config.detachKeys).Forwards x.ending
      x.messages [] := by
    rw [hstdin]
    exact InputTask.forwards_start stdin config.detachKeys hforward
  have hstart : Streaming.start config { kind := .packet } (.replying x.packets) =
      x.listening (openSocket 3 []) [] (.start config.streams.stdin config.detachKeys) [] []
        .started false := by
    simp only [Streaming.start, Exchange.listening, hpolicy, hhook, houtputs]
    rfl
  have hsent : ([] : List Bytes) = [] ++ [] := rfl
  rw [hstart]
  exact .typing htask hsent .started

namespace Client

variable {client : Client} {net : Network} {config : AttachConfig}

/-- The session gets as far as its streams, and the caller's hooks do not hold it up. -/
structure Connects (client : Client) (net : Network) (config : AttachConfig) : Prop where
  kind_eq : client.kind = .packet
  announced : client.control.announceError = none
  not_passthrough : config.passthrough = false
  connected : (net.connect config.socketPath .packet).1.isOk = true
  pre_attach : Hook.run config.preAttach = .ok ()
  post_attach : Hook.Passes config.streams.outputs.acceptedCount config.postAttach

/-- What others see of a session that connects is what its streams come to. -/
theorem attach_of_connects (hconnects : client.Connects net config) (server : Server)
    (schedule : List Party) :
    let state := (Streaming.start config { kind := .packet } server).run schedule
    (client.attach net config server schedule).result? = state.result? ∧
      (client.attach net config server schedule).received = state.server.received ∧
      (client.attach net config server schedule).outputs = state.relay.outputs := by
  have hconnected : client.Connected net config :=
    ⟨hconnects.announced, hconnects.not_passthrough, hconnects.kind_eq ▸ hconnects.connected⟩
  have hopening : Streaming.opening config { kind := client.kind } server {} = _ :=
    Streaming.opening_of_unrefused hconnects.pre_attach rfl
  rw [attach_of_connected hconnected, hopening, hconnects.kind_eq]
  exact ⟨rfl, rfl, rfl⟩

/-- An exchange comes to the same for every schedule. -/
theorem attach_exchange (x : Exchange) (hconnects : client.Connects net config)
    {stdin : Option (List ReadStep)} {rest : Source}
    (hpolicy : x.policy =
      { stopAfterStdinEof := config.stopAfterStdinEof
        stdinConfigured := config.streams.stdin.isSome
        outputConfigured := config.streams.outputs.any })
    (hhook : x.postAttach = config.postAttach) (houtputs : x.outputs = config.streams.outputs)
    (hstdin : config.streams.stdin = stdin.map fun steps => steps.map .read)
    (hforward : forward ⟨.stream, [], stdin.getD []⟩ (.ofKeys config.detachKeys) (.holding []) 0 =
      (x.ending, rest, .holding x.messages)) (schedule : List Party) :
    (client.attach net config (.replying x.packets) schedule).result? = some x.result ∧
      (client.attach net config (.replying x.packets) schedule).received = x.messages ∧
      (client.attach net config (.replying x.packets) schedule).outputs = x.verdict.2.outputs ∧
      (Streaming.start config { kind := .packet } (.replying x.packets)).Hears schedule x.log := by
  have hstart := x.stage_start hpolicy hhook houtputs hstdin hforward
  obtain ⟨hresult, hreceived, hrelay, hheard⟩ := Exchange.run_of_stage hstart schedule
  obtain ⟨hresult', hreceived', houtputs'⟩ :=
    attach_of_connects hconnects (.replying x.packets) schedule
  refine ⟨hresult'.trans hresult, hreceived'.trans hreceived, ?_, hheard⟩
  rw [houtputs', hrelay]

/-- Where the input ends well and both sinks are there, the result is the output's. -/
theorem attach_relays (hconnects : client.Connects net config) {stdin : Option (List ReadStep)}
    {stdout stderr : Sink} {packets : List Packet} {messages : List Bytes} {written : Nat}
    {rest : Source}
    (hgoes_on : ¬ (config.stopAfterStdinEof = true ∧ config.streams.stdin.isSome = true))
    (hstdin : config.streams.stdin = stdin.map fun steps => steps.map .read)
    (houtputs : config.streams.outputs = ⟨some stdout, some stderr⟩)
    (hpackets : ∀ packet ∈ packets, packet.IsOutput)
    (hforward : forward ⟨.stream, [], stdin.getD []⟩ (.ofKeys config.detachKeys) (.holding []) 0 =
      (.done written, rest, .holding messages))
    (hmessages : ∀ message ∈ messages, message ≠ [] ∧ message.length ≤ Connection.messageLimit)
    (schedule : List Party) :
    let session := client.attach net config (.replying packets) schedule
    let relayed := Relay.relayAll ⟨⟨some stdout, some stderr⟩, {}⟩ packets
    session.result? = some (relayed.1.relayed.map fun _ => ()) ∧
      session.received = messages ∧ session.outputs = relayed.2.outputs ∧
      (Streaming.start config { kind := .packet } (.replying packets)).Hears schedule
        (messages.map .data ++ [.data []]) := by
  have hwanted : config.streams.outputs.any = true := by
    rw [houtputs]
    rfl
  let x : Exchange :=
    { policy :=
        { stopAfterStdinEof := config.stopAfterStdinEof
          stdinConfigured := config.streams.stdin.isSome
          outputConfigured := config.streams.outputs.any }
      postAttach := config.postAttach
      outputs := config.streams.outputs
      ending := .done written
      messages := messages
      packets := packets
      passes := hconnects.post_attach
      awaits := ⟨hgoes_on, by simp [Ending.forwarded], hwanted⟩
      messages_fit := hmessages
      packets_fit := fun packet hmem => (hpackets packet hmem).fits }
  have hverdict : x.verdict = Relay.relayAll ⟨⟨some stdout, some stderr⟩, {}⟩ packets := by
    rw [← houtputs]
    rfl
  have hresult : x.result = x.verdict.1.relayed.map fun _ => () := by
    unfold Exchange.result
    cases x.verdict.1.relayed <;> rfl
  have hexchange := attach_exchange x hconnects rfl rfl rfl hstdin hforward schedule
  rw [hresult, hverdict] at hexchange
  exact hexchange

/-- **Nothing is lost on either way.**  A session whose input ends without the detach keys in
it, with sinks that take everything and a server that listens to the end and then answers,
returns well for every schedule.  The server has then received the input, in order and to
the end, and the sinks have the payloads of their packets in order. -/
theorem attach_delivers (hconnects : client.Connects net config)
    {stdin : List ReadStep} {stdout stderr : Sink} {packets : List Packet}
    (hgoes_on : config.stopAfterStdinEof = false)
    (hstdin : config.streams.stdin = some (stdin.map .read))
    (hstdout : config.streams.stdout = some stdout) (hstderr : config.streams.stderr = some stderr)
    (htakes : stdout.TakesAll ∧ stderr.TakesAll)
    (hpackets : ∀ packet ∈ packets, packet.IsOutput)
    (hends : ((Source.mk .stream [] stdin).intake forwardCapacity).failure = none)
    (huntyped : ¬ Keys.Typed config.detachKeys
      ((Source.mk .stream [] stdin).intake forwardCapacity).data)
    (hlimit : ∀ write ∈ (forward ⟨.stream, [], stdin⟩ (.ofKeys config.detachKeys) {} 0).2.2.writes,
      write.offered ≤ Connection.messageLimit)
    (schedule : List Party) :
    let session := client.attach net config (.replying packets) schedule
    session.result? = some (.ok ()) ∧
      session.received.flatten = ((Source.mk .stream [] stdin).intake forwardCapacity).data ∧
      (Streaming.start config { kind := .packet } (.replying packets)).Hears schedule
        (session.received.map .data ++ [.data []]) ∧
      ∃ out err, session.outputs = ⟨some out, some err⟩ ∧
        out.data = stdout.data ++ payloadsTo .stdout packets ∧
        err.data = stderr.data ++ payloadsTo .stderr packets := by
  obtain ⟨messages, rest, hforward, hdata, hne⟩ := forward_of_untyped huntyped hends
  have hmessages : ∀ message ∈ messages, message ≠ [] ∧
      message.length ≤ Connection.messageLimit := by
    intro message hmem
    refine ⟨hne message hmem, hlimit ⟨message.length, message⟩ ?_⟩
    show _ ∈ (forward ⟨.stream, [], stdin⟩ (.ofKeys config.detachKeys) (.holding []) 0).2.2.writes
    rw [hforward]
    exact Sink.mem_writes_holding hmem
  have hstops : ¬ (config.stopAfterStdinEof = true ∧ config.streams.stdin.isSome = true) := by
    simp [hgoes_on]
  have hinput : config.streams.stdin = (some stdin).map fun steps => steps.map .read := hstdin
  have houtputs : config.streams.outputs = ⟨some stdout, some stderr⟩ := by
    rw [AttachStreams.outputs, hstdout, hstderr]
  obtain ⟨hresult, hreceived, hsinks, hheard⟩ := attach_relays hconnects hstops hinput houtputs
    hpackets hforward hmessages schedule
  -- every payload is taken whole, so the relay gets to the end
  have hsteady := Outputs.steady_both htakes.1.steady htakes.2.steady
  obtain ⟨after, hrelay, htook⟩ := Relay.relayAll_of_takes ⟨_, {}⟩ hsteady
    (fun packet hmem => Outputs.takes_both (hpackets packet hmem)
      (fun _ => htakes.1.accepts packet.payload) (htakes.2.accepts packet.payload))
  obtain ⟨out, err, hafter, hout, herr⟩ := Outputs.took_both htook
  rw [hrelay] at hresult hsinks
  refine ⟨hresult, ?_, ?_, out, err, hsinks.trans hafter, hout.data_eq, herr.data_eq⟩
  · rw [hreceived, hdata]
  · rw [hreceived]
    exact hheard

/-- The detach keys are begun at the end of the input and never completed, so the server gets
them too. -/
theorem attach_delivers_begun_keys :
    let net : Network := (({} : Network).listen "attach" .packet).2
    let stdin : List ReadStep := [.data [97], .fail (.ofKind .interrupted), .data [98, 16]]
    let config : AttachConfig :=
      { id := "c"
        socketPath := "attach"
        streams := { stdin := some (stdin.map .read), stdout := some {}, stderr := some {} }
        postAttach := some {}
        detachKeys := [16, 17] }
    let packets : List Packet := [⟨2, [104, 105]⟩, ⟨3, [33]⟩, ⟨2, [10]⟩]
    let session := ({} : Client).attach net config (.replying packets) [.server, .coordinator]
    ({} : Client).Connects net config ∧ (∀ packet ∈ packets, packet.IsOutput) ∧
      session.result? = some (.ok ()) ∧ session.received.flatten = [97, 98, 16] ∧
      ∃ out err, session.outputs = ⟨some out, some err⟩ ∧
        out.data = [104, 105, 10] ∧ err.data = [33] := by
  intro net stdin config packets session
  have hconnects : ({} : Client).Connects net config :=
    ⟨rfl, rfl, rfl, Network.isOk_connect_attach, rfl, rfl, Nat.le_refl 0⟩
  have htakes : ({} : Sink).TakesAll := ⟨⟨by simp, by simp⟩, rfl⟩
  have hpackets : ∀ packet ∈ packets, packet.IsOutput := by
    intro packet hmem
    refine Packet.isOutput_of_fits ?_ ?_
    · revert packet
      decide
    · revert packet
      decide
  have hdata : ((Source.mk .stream [] stdin).intake forwardCapacity).data = [97, 98, 16] := by
    decide +kernel
  have huntyped : ¬ Keys.Typed config.detachKeys
      ((Source.mk .stream [] stdin).intake forwardCapacity).data := by
    rw [hdata]
    exact fun htyped => absurd htyped.2 (by decide)
  have hlaw := attach_delivers hconnects rfl rfl rfl rfl ⟨htakes, htakes⟩ hpackets
    (by decide +kernel) huntyped (by decide +kernel) [.server, .coordinator]
  obtain ⟨hresult, hreceived, -, out, err, houtputs, hout, herr⟩ := hlaw
  exact ⟨hconnects, hpackets, hresult, hreceived.trans hdata, out, err, houtputs, hout, herr⟩

end Client

end ContainerAttach
