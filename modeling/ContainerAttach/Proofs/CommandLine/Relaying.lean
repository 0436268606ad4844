import ContainerAttach.Proofs.CommandLine.Telling
import ContainerAttach.Proofs.Session.Delivery
import ContainerAttach.Proofs.Stream.Lines

/-!
# What the program relays

`attach` without input shows what the container puts out.  Its standard error is not
buffered and takes every payload; its standard output is buffered by lines, and the
relay makes one write of each payload and takes a payload that is not accepted whole for
an error.

So the program relays everything and succeeds exactly if no payload for the standard
output fills the buffer behind its last line feed.  The first payload that does ends the
session with a failure, after the complete lines of it have been written, although the
standard output would have taken the rest with a second write (`relays_until_filled`).
-/

namespace ContainerAttach.CommandLine

/-- There is no input for the session, or it is at its end and does not end the session. -/
def HasNoInput (arguments : AttachArguments) (stdin : List InputStep) : Prop :=
  arguments.noStdin = true ∨
    arguments.stopAfterStdinEof = false ∧ ∃ steps : List ReadStep, stdin = steps.map .read ∧
      ((Source.mk .stream [] steps).intake forwardCapacity).data = [] ∧
      ((Source.mk .stream [] steps).intake forwardCapacity).failure = none

/-- An input without data is forwarded as nothing but its end. -/
theorem forward_of_no_data (source : Source) (keys : Bytes)
    (hdata : (source.intake forwardCapacity).data = [])
    (hends : (source.intake forwardCapacity).failure = none) :
    ∃ rest, forward source (.ofKeys keys) (.holding []) 0 = (.done 0, rest, .holding []) := by
  have huntyped : ¬ Keys.Typed keys (source.intake forwardCapacity).data := by
    rw [hdata]
    exact Keys.not_typed_nil keys
  obtain ⟨messages, rest, hforward, hflatten, hne⟩ := forward_of_untyped huntyped hends
  have hmessages : messages = [] := by
    refine List.eq_nil_iff_forall_not_mem.mpr fun message hmem => hne message hmem ?_
    exact List.flatten_eq_nil_iff.mp (hflatten.trans hdata) message hmem
  rw [hdata, hmessages] at hforward
  exact ⟨rest, hforward⟩

/-- Where there is no input, the session has none or one without data, and goes on when it
ends. -/
theorem HasNoInput.exists_forward {arguments : AttachArguments} {stdin : List InputStep}
    (hnone : HasNoInput arguments stdin) (keys : Bytes) :
    ∃ steps : Option (List ReadStep),
      (if arguments.noStdin then none else some stdin) = steps.map (fun reads => reads.map .read) ∧
      ¬ (arguments.stopAfterStdinEof = true ∧
        (if arguments.noStdin then none else some stdin).isSome = true) ∧
      ∃ rest, forward ⟨.stream, [], steps.getD []⟩ (.ofKeys keys) (.holding []) 0 =
        (.done 0, rest, .holding []) := by
  by_cases hflag : arguments.noStdin = true
  · have hend : (Source.mk .stream [] []).intake forwardCapacity =
        ⟨[], none, Source.mk .stream [] []⟩ := Source.intake_of_end rfl
    have hforward := forward_of_no_data (.mk .stream [] []) keys (by rw [hend]; rfl) (by rw [hend])
    exact ⟨none, by simp [hflag], by simp [hflag], hforward⟩
  · obtain hflag' | ⟨hgoes_on, steps, rfl, hdata, hends⟩ := hnone
    · exact absurd hflag' hflag
    · exact ⟨some steps, by simp [hflag], by simp [hgoes_on],
        forward_of_no_data _ keys hdata hends⟩

namespace Program

/-- The words attach at the standard log level to a server that listens to the end and then
sends the packets, and there is no input. -/
structure Attaches (words : List String) (world : World) (arguments : AttachArguments)
    (packets : List Packet) : Prop where
  parsed : ∃ format, Invocation.parse words world.keysVariable =
    .ok { command := .attach arguments, logFormat := format }
  keys : (KeyNotation.parse arguments.detachKeys).isOk = true
  connected : (world.network.connect arguments.path .packet).1.isOk = true
  no_input : HasNoInput arguments world.stdin
  server_eq : world.server = .replying packets
  outputs : ∀ packet ∈ packets, packet.IsOutput

variable {words : List String} {world : World} {arguments : AttachArguments}
  {packets : List Packet}

/-- The standard streams of the program as the sinks of a session. -/
def standardOutputs : Outputs :=
  ⟨some { buffering := .line lineCapacity }, some {}⟩

theorem steady_standardOutputs : standardOutputs.Steady :=
  Outputs.steady_both ⟨by simp, by simp⟩ ⟨by simp, by simp⟩

/-- What the program makes of a run of the relay over the packets. -/
theorem run_of_relayAll (hattaches : Attaches words world arguments packets)
    (schedule : List Party) {ending : Ending PacketError Tally} {out err : Sink} {tally : Tally}
    (hrelay : Relay.relayAll ⟨standardOutputs, {}⟩ packets =
      (ending, ⟨⟨some out, some err⟩, tally⟩)) (hwilling : err.Willing) :
    let concluded := conclude arguments.container (ending.relayed.map fun _ => ())
    run words world schedule =
      { code := some concluded.1
        stdout := out.data
        stderr := err.data ++ bytesOf concluded.2
        received := [] } := by
  intro concluded
  obtain ⟨format, hparse⟩ := hattaches.parsed
  obtain ⟨keys, hkeys⟩ : ∃ keys, KeyNotation.parse arguments.detachKeys = .ok keys := by
    have hok := hattaches.keys
    cases hresult : KeyNotation.parse arguments.detachKeys with
    | ok keys => exact ⟨keys, rfl⟩
    | error cause =>
        rw [hresult] at hok
        exact absurd hok Bool.false_ne_true
  have hconnects : ({} : Client).Connects world.network
      (({} : Terminal).config arguments keys world.stdin) :=
    ⟨rfl, rfl, rfl, hattaches.connected, rfl, trivial⟩
  obtain ⟨steps, hstdin, hgoes_on, rest, hforward⟩ := hattaches.no_input.exists_forward keys
  obtain ⟨hresult, hreceived, houtputs, -⟩ := Client.attach_relays hconnects hgoes_on hstdin rfl
    hattaches.outputs hforward (by simp) schedule
  rw [← hattaches.server_eq] at hresult hreceived houtputs
  have hsinks : Relay.relayAll ⟨⟨some { buffering := .line lineCapacity }, some {}⟩, {}⟩ packets =
      (ending, ⟨⟨some out, some err⟩, tally⟩) := hrelay
  rw [hsinks] at hresult houtputs
  have hsession : ({} : Terminal).session arguments world schedule = .ok _ :=
    congrArg (Except.map _) hkeys
  obtain ⟨hcode, hstderr⟩ := tell_of_willing hwilling concluded
  simp only [run, hparse, attach, hsession]
  rw [finish_of_result hresult, hreceived, houtputs, Option.getD_some, hcode, hstderr]
  rfl

/-- None of the packets for the standard output fills its buffer. -/
def NoneFills (packets : List Packet) : Prop :=
  ∀ packet ∈ packets, packet.tag = StdStream.stdout.tag → ¬ FillsBuffer lineCapacity packet.payload

/-- Among packets of which one fills the buffer there is a first. -/
theorem exists_first_fills (hfills : ¬ NoneFills packets) :
    ∃ (before after : List Packet) (line rest : Bytes),
      packets = before ++ ⟨StdStream.stdout.tag, line ++ 10 :: rest⟩ :: after ∧
      NoneFills before ∧ 10 ∉ rest ∧ lineCapacity ≤ rest.length := by
  induction packets with
  | nil => exact absurd (fun packet hmem => absurd hmem List.not_mem_nil) hfills
  | cons packet packets ih =>
      by_cases hfirst : packet.tag = StdStream.stdout.tag ∧ FillsBuffer lineCapacity packet.payload
      · obtain ⟨tag, payload⟩ := packet
        obtain ⟨rfl, line, rest, rfl, hrest, hlength⟩ := hfirst
        exact ⟨[], packets, line, rest, rfl, fun _ hmem => absurd hmem List.not_mem_nil, hrest,
          hlength⟩
      · have hpacket := not_and.mp hfirst
        have hothers : ¬ NoneFills packets := fun hnone =>
          hfills (List.forall_mem_cons.mpr ⟨hpacket, hnone⟩)
        obtain ⟨before, after, line, rest, rfl, hnone, hrest, hlength⟩ := ih hothers
        exact ⟨packet :: before, after, line, rest, rfl,
          List.forall_mem_cons.mpr ⟨hpacket, hnone⟩, hrest, hlength⟩

theorem takes_standardOutputs {packet : Packet} (houtput : packet.IsOutput)
    (hfills : packet.tag = StdStream.stdout.tag → ¬ FillsBuffer lineCapacity packet.payload) :
    standardOutputs.Takes packet :=
  Outputs.takes_both houtput (fun htag => Buffering.accepts_of_not_fills (hfills htag)) rfl

/-- If no payload fills the buffer, everything is relayed. -/
theorem run_of_noneFills (hattaches : Attaches words world arguments packets)
    (hnone : NoneFills packets) (schedule : List Party) :
    run words world schedule =
      { code := some ExitCode.success
        stdout := payloadsTo .stdout packets
        stderr := payloadsTo .stderr packets } := by
  have htakes : ∀ packet ∈ packets, standardOutputs.Takes packet := fun packet hmem =>
    takes_standardOutputs (hattaches.outputs packet hmem) (hnone packet hmem)
  obtain ⟨⟨outputs, tally⟩, hrelay, htook⟩ :=
    Relay.relayAll_of_takes ⟨standardOutputs, {}⟩ steady_standardOutputs htakes
  obtain ⟨out, err, rfl, hout, herr⟩ := Outputs.took_both htook
  have hstderr : err.data ++ [] = payloadsTo .stderr packets := by
    rw [List.append_nil, herr.data_eq]
    rfl
  rw [run_of_relayAll hattaches schedule hrelay herr.steady.willing, hout.data_eq, ← hstderr]
  rfl

/-- The first payload that fills the buffer ends the session. -/
theorem run_of_fills {before after : List Packet} {line rest : Bytes}
    (hattaches : Attaches words world arguments
      (before ++ ⟨StdStream.stdout.tag, line ++ 10 :: rest⟩ :: after))
    (hnone : NoneFills before) (hrest : 10 ∉ rest) (hfills : lineCapacity ≤ rest.length)
    (schedule : List Party) :
    run words world schedule =
      { code := some ExitCode.failure
        stdout := payloadsTo .stdout before ++ (line ++ [10])
        stderr := payloadsTo .stderr before ++ failureLine (.ofAttach "attach failed"
          (.output (.shortWrite "stdout" (line ++ 10 :: rest).length (line.length + 1)))) } := by
  have haccepts := Buffering.accepts_of_fills line hrest hfills
  have hshort : (Buffering.line lineCapacity).accepts (line ++ 10 :: rest) ≠
      (line ++ 10 :: rest).length := by
    rw [haccepts, List.length_append, List.length_cons]
    have hpos : 0 < lineCapacity := by decide
    omega
  have hkept : (line ++ 10 :: rest).take (line.length + 1) = line ++ [10] := by
    rw [List.take_length_add_append]
    rfl
  have hsink : standardOutputs.sink? .stdout = some { buffering := .line lineCapacity } := rfl
  have htakes : ∀ packet ∈ before, standardOutputs.Takes packet := fun packet hmem =>
    takes_standardOutputs (hattaches.outputs packet (List.mem_append_left _ hmem))
      (hnone packet hmem)
  obtain ⟨⟨outputs, tally⟩, hrelay, htook⟩ :=
    Relay.relayAll_of_short ⟨standardOutputs, {}⟩ steady_standardOutputs htakes hsink hshort
      after
  rw [haccepts] at hrelay htook
  obtain ⟨out, err, rfl, hout, herr⟩ := Outputs.took_both htook
  have hstdout : out.data = payloadsTo .stdout before ++ (line ++ [10]) := by
    rw [hout.data_eq, ← hkept]
    rfl
  have hstderr : err.data = payloadsTo .stderr before := by
    rw [herr.data_eq]
    exact List.append_nil _
  rw [run_of_relayAll hattaches schedule hrelay herr.steady.willing, hstdout, hstderr,
    ← bytesOf_failureParts]
  rfl

/-- **What the container puts out is relayed up to the first payload that fills the buffer.**
Without such a payload the program succeeds, and its standard streams carry the payloads of
their packets in order.  Otherwise it fails at the first one, and what is missing is that
payload behind its last line feed, and everything after it. -/
theorem relays_until_filled (hattaches : Attaches words world arguments packets)
    (schedule : List Party) :
    (NoneFills packets → run words world schedule =
      { code := some ExitCode.success
        stdout := payloadsTo .stdout packets
        stderr := payloadsTo .stderr packets }) ∧
    (¬ NoneFills packets → ∃ (before after : List Packet) (line rest : Bytes),
      packets = before ++ ⟨StdStream.stdout.tag, line ++ 10 :: rest⟩ :: after ∧
      NoneFills before ∧ 10 ∉ rest ∧ lineCapacity ≤ rest.length ∧
      run words world schedule =
        { code := some ExitCode.failure
          stdout := payloadsTo .stdout before ++ (line ++ [10])
          stderr := payloadsTo .stderr before ++ failureLine (.ofAttach "attach failed"
            (.output (.shortWrite "stdout" (line ++ 10 :: rest).length (line.length + 1)))) }) := by
  refine ⟨fun hnone => run_of_noneFills hattaches hnone schedule, fun hfills => ?_⟩
  obtain ⟨before, after, line, rest, rfl, hnone, hrest, hlength⟩ := exists_first_fills hfills
  exact ⟨before, after, line, rest, rfl, hnone, hrest, hlength,
    run_of_fills hattaches hnone hrest hlength schedule⟩

theorem ofText_ctr : Bytes.ofText "ctr" = [99, 116, 114] := by
  decide +kernel

theorem ofText_ctr_attach :
    Bytes.ofText "ctr/attach" = [99, 116, 114, 47, 97, 116, 116, 97, 99, 104] := by
  decide +kernel

/-- A listener whose name stands in a directory of its own is found there. -/
theorem isOk_connect_ctr :
    ((Network.listen { files := (FileSystem.empty.makeDirectories (Bytes.ofText "ctr")).2 }
      "ctr/attach" .packet).2.connect "ctr/attach" .packet).1.isOk = true := by
  rw [ofText_ctr, ofText_ctr_attach]
  cbv

/-- A line feed and as many letters behind it as the buffer holds: the letters are lost. -/
theorem relays_until_filled_long_line :
    let words := ["attach", "ctr/attach", "--no-stdin"]
    let files := (FileSystem.empty.makeDirectories (Bytes.ofText "ctr")).2
    let payload : Bytes := 10 :: List.replicate lineCapacity 65
    let packets : List Packet := [⟨2, payload⟩]
    let world : World :=
      { network := (Network.listen { files := files } "ctr/attach" .packet).2
        server := .replying packets }
    (∃ arguments, Attaches words world arguments packets) ∧
      payloadsTo .stdout packets = payload ∧
      (run words world []).code = some 1 ∧ (run words world []).stdout = [10] := by
  intro words files payload packets world
  have hparse : Invocation.parse words none =
      .ok { command := .attach { path := "ctr/attach", noStdin := true } } := by
    have hread : (Invocation.parse words none).toOption =
        some { command := .attach { path := "ctr/attach", noStdin := true } } := by
      decide +kernel
    cases hresult : Invocation.parse words none with
    | ok invocation =>
        rw [hresult] at hread
        exact congrArg Except.ok (Option.some.inj hread)
    | error cause =>
        rw [hresult] at hread
        exact absurd hread (by simp [Except.toOption])
  have hlength : payload.length = lineCapacity + 1 := by
    rw [List.length_cons, List.length_replicate]
  have hattaches : Attaches words world { path := "ctr/attach", noStdin := true } packets :=
    { parsed := ⟨.text, hparse⟩
      keys := by decide +kernel
      connected := isOk_connect_ctr
      no_input := Or.inl rfl
      server_eq := rfl
      outputs := by
        intro packet hmem
        obtain rfl := List.mem_singleton.mp hmem
        refine Packet.isOutput_of_fits ?_ (by decide)
        show payload.length ≤ Packet.payloadLimit
        rw [hlength]
        decide }
  have hletters : (10 : UInt8) ∉ List.replicate lineCapacity 65 := by
    intro hmem
    exact absurd (List.eq_of_mem_replicate hmem) (by decide)
  have hfills : ¬ NoneFills packets := by
    intro hnone
    have hfull : lineCapacity ≤ (List.replicate lineCapacity (65 : UInt8)).length :=
      Nat.le_of_eq List.length_replicate.symm
    exact hnone _ (List.mem_singleton_self _) rfl ⟨[], _, rfl, hletters, hfull⟩
  obtain ⟨before, after, line, rest, hpackets, -, -, hrest, hrun⟩ :=
    (relays_until_filled hattaches []).2 hfills
  have hpayloads : payloadsTo .stdout packets = payload := List.append_nil payload
  cases before with
  | nil =>
      -- the payload has no room for anything in front of its line feed
      have hpayload : payload = line ++ 10 :: rest :=
        congrArg Packet.payload (List.cons.inj hpackets).1
      have hlengths := congrArg List.length hpayload
      rw [hlength, List.length_append, List.length_cons] at hlengths
      obtain rfl : line = [] := List.length_eq_zero_iff.mp (by omega)
      rw [hrun]
      exact ⟨⟨_, hattaches⟩, hpayloads, rfl, rfl⟩
  | cons first before =>
      have hrest : before ++ _ :: after = [] := (List.cons.inj hpackets).2.symm
      exact absurd (List.append_eq_nil_iff.mp hrest).2 (List.cons_ne_nil _ _)

end Program

end ContainerAttach.CommandLine
