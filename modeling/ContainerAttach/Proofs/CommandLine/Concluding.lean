import ContainerAttach.Proofs.CommandLine.Failures
import ContainerAttach.Proofs.CommandLine.Relaying
import ContainerAttach.Proofs.Session.LongMessages

/-!
# How the program concludes

A run of `attach` has a session if the detach keys can be read, and otherwise it is over before
anything outside was touched (`Rejects`).  Whatever a session comes to is told twice: by the exit
code and, unless it succeeded, by a line on the standard error.  Detaching has the code of a success
and a line of its own.  The two are found from the result of the session alone
(`AttachArguments.closing`), so nothing has to be known about how the result came about.

What the user is told has to get through.  A standard error that does not take the whole line ends
the program with a panic, whose code says nothing of the session (`Concludes`).

The standard output belongs to the container.  It may refuse bytes or accept only a part of them,
and it shows the messages of the server as the client reads them: one that is too long for a packet
is cut off (`Terminal.Shows`).
-/

namespace ContainerAttach.CommandLine

/-! ## What the user is told -/

/-- A line begins with what its text begins with. -/
theorem Program.head?_lineOf {text : String} {first : UInt8}
    (htext : (Bytes.ofText text).head? = some first) (rest : String) :
    (lineOf (text ++ rest)).head? = some first := by
  rw [lineOf, Bytes.ofText_append, Bytes.ofText_append, List.append_assoc, List.head?_append,
    htext]
  rfl

theorem AttachArguments.head?_notice (arguments : AttachArguments) :
    arguments.notice.head? = some 100 :=
  Program.head?_lineOf (by decide +kernel) arguments.container

theorem Program.head?_failureLine (failure : Failure) :
    (failureLine failure).head? = some 101 :=
  head?_lineOf (by decide +kernel) failure.message

theorem AttachArguments.notice_ne_nil (arguments : AttachArguments) : arguments.notice ≠ [] :=
  fun hnil => absurd (hnil ▸ arguments.head?_notice) (by simp)

/-- No first part of the line of a failure is the notice. -/
theorem AttachArguments.notice_not_prefix (arguments : AttachArguments) (failure : Failure) :
    ¬ arguments.notice <+: Program.failureLine failure := by
  rintro ⟨rest, hline⟩
  have hfirst := Program.head?_failureLine failure
  rw [← hline, List.head?_append, arguments.head?_notice, Option.some_or] at hfirst
  exact absurd hfirst (by decide)

/-- The failure that a session ends with. -/
def sessionFailure (error : AttachError) : Failure :=
  .ofAttach "attach failed" error

/-- The code that the result of a session stands for, and the line that is told of it. -/
def AttachArguments.closing (arguments : AttachArguments) :
    Except AttachError Unit → Nat × Bytes
  | .ok () => (ExitCode.success, [])
  | .error .detached => (ExitCode.success, arguments.notice)
  | .error error => ((sessionFailure error).code, Program.failureLine (sessionFailure error))

theorem AttachArguments.closing_of_not_detached (arguments : AttachArguments)
    {error : AttachError} (herror : error ≠ .detached) :
    arguments.closing (.error error) =
      ((sessionFailure error).code, Program.failureLine (sessionFailure error)) := by
  cases error with
  | detached => exact absurd rfl herror
  | announce | connect | preAttach | postAttach | socket | spawn | output | stdin | closeWrite
  | taskTornDown | taskLost => rfl

/-- What the program makes of a result is its code and its line. -/
theorem Program.conclude_closing (arguments : AttachArguments) (result : Except AttachError Unit) :
    (conclude arguments.container result).1 = (arguments.closing result).1 ∧
      bytesOf (conclude arguments.container result).2 = (arguments.closing result).2 := by
  cases result with
  | ok => exact ⟨rfl, rfl⟩
  | error error =>
      cases error with
      | detached => exact ⟨rfl, bytesOf_noticeParts arguments⟩
      | announce | connect | preAttach | postAttach | socket | spawn | output | stdin | closeWrite
      | taskTornDown | taskLost => exact ⟨rfl, bytesOf_failureParts _⟩

/-- What a session comes to for the user: an exit code, and a line behind what the container has
put out on the standard error. -/
structure Concludes (stderr : Sink) (arguments : AttachArguments) (session : SessionOutcome)
    (outcome : ProgramOutcome) : Prop where
  /-- The program goes on with the session. -/
  waiting : session.result? = none →
    outcome.code = none ∧ outcome.stderr = Program.written session.outputs.stderr
  told : ∀ result, session.result? = some result → ∃ code, outcome.code = some code ∧
    Told (Program.written session.outputs.stderr) (arguments.closing result).1
      (arguments.closing result).2 code outcome.stderr
  /-- A standard error that refuses nothing takes the line. -/
  heard : stderr.Willing → ∀ result, session.result? = some result →
    outcome.code = some (arguments.closing result).1 ∧
      outcome.stderr =
        Program.written session.outputs.stderr ++ (arguments.closing result).2
  success_iff : outcome.code = some ExitCode.success ↔
    session.result? = some (.ok ()) ∨ session.result? = some (.error .detached) ∧
      outcome.stderr = Program.written session.outputs.stderr ++ arguments.notice
  notice_iff : outcome.stderr = Program.written session.outputs.stderr ++ arguments.notice ↔
    session.result? = some (.error .detached) ∧ outcome.code = some ExitCode.success
  /-- Every other error has its own code, which is none of a success. -/
  failure : ∀ error, session.result? = some (.error error) → error ≠ .detached →
    (sessionFailure error).code ≠ ExitCode.success ∧
      outcome.code = some (if outcome.stderr = Program.written session.outputs.stderr ++
          Program.failureLine (sessionFailure error) then (sessionFailure error).code
        else ExitCode.panicked)

theorem Program.data_getD (sink : Option Sink) : (sink.getD {}).data = written sink := by
  cases sink <;> rfl

/-- What is told of the result is all that the law needs. -/
theorem concludes_of_told {stderr : Sink} {arguments : AttachArguments} {session : SessionOutcome}
    {outcome : ProgramOutcome}
    (hwaiting : session.result? = none →
      outcome.code = none ∧ outcome.stderr = Program.written session.outputs.stderr)
    (htold : ∀ result, session.result? = some result → ∃ code, outcome.code = some code ∧
      Told (Program.written session.outputs.stderr) (arguments.closing result).1
        (arguments.closing result).2 code outcome.stderr)
    (hheard : stderr.Willing → ∀ result, session.result? = some result →
      outcome.code = some (arguments.closing result).1 ∧
        outcome.stderr =
          Program.written session.outputs.stderr ++ (arguments.closing result).2) :
    Concludes stderr arguments session outcome := by
  have hnotice := arguments.notice_ne_nil
  cases hresult : session.result? with
  | none =>
      obtain ⟨hcode, hstderr⟩ := hwaiting hresult
      exact
        { waiting := hwaiting
          told := htold
          heard := hheard
          success_iff := by simp [hresult, hcode]
          notice_iff := by simp [hresult, hstderr, hnotice]
          failure := by simp [hresult] }
  | some result =>
      obtain ⟨code, hcode, hcloses⟩ := htold result hresult
      cases result with
      | ok =>
          obtain ⟨rfl, hstderr⟩ := hcloses.of_nothing
          exact
            { waiting := hwaiting
              told := htold
              heard := hheard
              success_iff := by simp [hresult, hcode, AttachArguments.closing]
              notice_iff := by simp [hresult, hstderr, hnotice]
              failure := by simp [hresult] }
      | error error =>
          have heq := hcloses.code_eq
          by_cases hdetached : error = .detached
          · subst hdetached
            have hsuccess : code = ExitCode.success ↔
                outcome.stderr = Program.written session.outputs.stderr ++ arguments.notice := by
              rw [heq]
              split
              · next hwhole => exact iff_of_true rfl hwhole
              · next hcut => exact iff_of_false (by decide) hcut
            exact
              { waiting := hwaiting
                told := htold
                heard := hheard
                success_iff := by simp [hresult, hcode, hsuccess]
                notice_iff := by simp [hresult, hcode, hsuccess]
                failure := by simp [hresult] }
          · have hfailure : (sessionFailure error).code ≠ ExitCode.success :=
              Failure.code_ne_success "attach failed" error
            rw [arguments.closing_of_not_detached hdetached] at heq hcloses
            have hunsuccessful : code ≠ ExitCode.success := by
              rw [heq]
              split
              · exact hfailure
              · decide
            have hunnoticed : outcome.stderr ≠
                Program.written session.outputs.stderr ++ arguments.notice := by
              obtain ⟨shown, hstderr, hshown⟩ := hcloses.exists_shown
              intro hsame
              obtain rfl := List.append_cancel_left (hstderr.symm.trans hsame)
              exact arguments.notice_not_prefix _ hshown
            exact
              { waiting := hwaiting
                told := htold
                heard := hheard
                success_iff := by simp [hresult, hcode, hunsuccessful, hdetached]
                notice_iff := by simp [hresult, hunnoticed, hdetached]
                failure := by
                  intro other hother _
                  obtain rfl := Except.error.inj (Option.some.inj (hresult.symm.trans hother))
                  exact ⟨hfailure, hcode.trans (congrArg some heq)⟩ }

/-- The result of a session decides what the user is told, and the standard error how much of
it. -/
theorem concludes_finish {stderr : Sink} (arguments : AttachArguments) {session : SessionOutcome}
    (hstderr : stderr.Willing → (session.outputs.stderr.getD {}).Willing) :
    Concludes stderr arguments session (Program.finish arguments.container session) := by
  have hbefore : (session.outputs.stderr.getD {}).data =
      Program.written session.outputs.stderr := Program.data_getD _
  refine concludes_of_told (fun hwaits => ?_) (fun result hresult => ?_)
    (fun hwilling result hresult => ?_)
  · rw [Program.finish_of_waiting hwaits]
    exact ⟨rfl, rfl⟩
  · obtain ⟨hcode, hline⟩ := Program.conclude_closing arguments result
    rw [Program.finish_of_result hresult, ← hcode, ← hline, ← hbefore]
    exact ⟨_, rfl, Program.told_tell _ _⟩
  · obtain ⟨hcode, hline⟩ := Program.conclude_closing arguments result
    obtain ⟨htells, hdata⟩ := Program.tell_of_willing (hstderr hwilling)
      (Program.conclude arguments.container result)
    rw [Program.finish_of_result hresult, ← hcode, ← hline, ← hbefore]
    exact ⟨congrArg some htells, hdata⟩

/-- What is left by a run whose detach keys cannot be read: the code of a wrong usage, and a
line. -/
structure Rejects (terminal : Terminal) (error : KeyNotationError) (outcome : ProgramOutcome) :
    Prop where
  told : ∃ code, outcome.code = some code ∧
    Told terminal.stderr.data ExitCode.usage (Program.failureLine (.ofKeyNotation error)) code
      outcome.stderr
  /-- A standard error that refuses nothing takes the line. -/
  heard : terminal.stderr.Willing → outcome.code = some ExitCode.usage ∧
    outcome.stderr = terminal.stderr.data ++ Program.failureLine (.ofKeyNotation error)
  stdout_eq : outcome.stdout = terminal.stdout.data
  received_eq : outcome.received = []

/-! ## What appears -/

/-- The standard output has got a first part of what the server has sent to it, and nothing
else. -/
structure Terminal.Shows (terminal : Terminal) (net : Network) (config : AttachConfig)
    (server : Server) (schedule : List Party) (stdout : Bytes) : Prop where
  /-- That is so at every moment of the session. -/
  always : ∀ turns,
    ShowsOnly .stdout (({} : Client).sentAfter net config server terminal.refused turns)
      terminal.stdout.data
      ((({} : Client).outputsAfter net config server terminal.refused turns).dataOf .stdout)
  /-- It is so after the run, in particular for a server that sends nothing but packets of a
  proper size. -/
  at_last : ∃ turns, schedule <+: turns ∧
    (∀ opening, ({} : Client).opening? net config server terminal.refused = some opening →
      opening.run schedule = opening.follow turns) ∧
    ShowsOnly .stdout (({} : Client).sentAfter net config server terminal.refused turns)
      terminal.stdout.data stdout ∧
    ∀ packets : List Packet,
      ({} : Client).sentAfter net config server terminal.refused turns =
        packets.map Packet.bytes →
      (∀ packet ∈ packets, packet.payload.length ≤ Packet.payloadLimit) →
        ∃ shown, stdout = terminal.stdout.data ++ shown ∧ shown <+: payloadsTo .stdout packets

section Session

variable (terminal : Terminal) (net : Network) {config : AttachConfig} (server : Server)
  (schedule : List Party)

theorem Terminal.shows_attach (hstdout : config.streams.stdout = some terminal.stdout) :
    terminal.Shows net config server schedule (Program.written
      (({} : Client).attach net config server schedule terminal.refused).outputs.stdout) := by
  have horigin : config.streams.outputs.dataOf .stdout = terminal.stdout.data := by
    show config.streams.stdout.elim [] Sink.data = _
    rw [hstdout]
    rfl
  have halways : ∀ turns,
      ShowsOnly .stdout (({} : Client).sentAfter net config server terminal.refused turns)
        terminal.stdout.data
        ((({} : Client).outputsAfter net config server terminal.refused turns).dataOf
          .stdout) := fun turns =>
    horigin ▸ ({} : Client).showsOnly_outputsAfter net config server terminal.refused rfl turns
      .stdout
  obtain ⟨turns, hprefix, hrun, houtputs⟩ :=
    ({} : Client).attach_outputs net config server terminal.refused schedule
  have hlast := houtputs ▸ halways turns
  refine ⟨halways, turns, hprefix, hrun, hlast, fun packets hsent hfits => ?_⟩
  rw [hsent, ShowsOnly, packetsIn_map_bytes hfits] at hlast
  exact hlast

/-- A session leaves a standard error that refuses nothing as such a one. -/
theorem Terminal.willing_attach (hstderr : config.streams.stderr = some terminal.stderr)
    (hwilling : terminal.stderr.Willing) :
    ((({} : Client).attach net config server schedule terminal.refused).outputs.stderr.getD
      {}).Willing := by
  obtain ⟨turns, -, -, houtputs⟩ :=
    ({} : Client).attach_outputs net config server terminal.refused schedule
  obtain ⟨handovers, hcalls⟩ :=
    ({} : Client).exists_calls_outputsAfter net config server terminal.refused turns
  rw [← houtputs] at hcalls
  have hstill := hcalls.willing .stderr fun sink hsink => by
    obtain rfl := Option.some.inj (hstderr.symm.trans hsink)
    exact hwilling
  generalize (({} : Client).attach net config server schedule terminal.refused).outputs = last
    at hstill ⊢
  cases hlast : last.stderr with
  | none => exact fun step hstep => absurd hstep List.not_mem_nil
  | some sink => exact hstill sink hlast

end Session

/-! ## The law of the program -/

namespace Program

/-- A container that puts out a line, and a user who types the detach keys behind a letter. -/
def typing : World :=
  { network :=
      (Network.listen { files := (FileSystem.empty.makeDirectories (Bytes.ofText "ctr")).2 }
        "ctr/attach" .packet).2
    server := { steps := [.send ⟨2, [104, 10]⟩, .drain] }
    stdin := [.read (.data [108, 16, 17])] }

theorem ok_of_toOption {ε α : Type} {result : Except ε α} {value : α}
    (hresult : result.toOption = some value) : result = .ok value := by
  cases result with
  | ok other => exact congrArg Except.ok (Option.some.inj hresult)
  | error cause => exact absurd hresult (by simp [Except.toOption])

theorem typing_parsed : Invocation.parse ["attach", "ctr/attach"] typing.keysVariable =
    .ok { command := .attach { path := "ctr/attach" } } :=
  ok_of_toOption (by decide +kernel)

theorem standard_parsed : KeyNotation.parse KeyNotation.standard = .ok [16, 17] :=
  ok_of_toOption (by decide +kernel)

/-- What the standard error takes does not matter to that session, which has nothing for it. -/
theorem typing_detaches (stderr : Sink) :
    let session := ({} : Client).attach typing.network
      (({ stderr := stderr } : Terminal).config { path := "ctr/attach" } [16, 17] typing.stdin)
      typing.server []
    session.result? = some (.error .detached) ∧ session.outputs.stderr = some stderr := by
  simp only [typing, Terminal.config]
  generalize AttachArguments.container _ = id
  rw [ofText_ctr, ofText_ctr_attach]
  cbv

theorem stdout_finish (id : String) (session : SessionOutcome) :
    (finish id session).stdout = written session.outputs.stdout := by
  cases hresult : session.result? with
  | none => rw [finish_of_waiting hresult]
  | some result => rw [finish_of_result hresult]

theorem rejects_tell (terminal : Terminal) (error : KeyNotationError) :
    let failure := Failure.ofKeyNotation error
    let told := tell terminal.stderr (failure.code, failureParts failure)
    Rejects terminal error
      { code := some told.1, stdout := terminal.stdout.data, stderr := told.2.data } := by
  intro failure told
  have hline : bytesOf (failureParts failure) = failureLine failure := bytesOf_failureParts failure
  refine ⟨⟨told.1, rfl, ?_⟩, fun hwilling => ?_, rfl, rfl⟩
  · rw [← hline]
    exact told_tell terminal.stderr (failure.code, failureParts failure)
  · obtain ⟨hcode, hdata⟩ := tell_of_willing hwilling (failure.code, failureParts failure)
    exact ⟨congrArg some hcode, hdata.trans (congrArg _ hline)⟩

/-! ### A full standard error, and a message that is too long -/

/-- A terminal whose standard error is full. -/
def deaf : Terminal :=
  { stderr := { script := [.fail (.os 28)] } }

theorem tell_deaf (id : String) :
    (tell deaf.stderr (conclude id (.error .detached))).1 = ExitCode.panicked := by
  have hpart : Bytes.ofText "detached from container " =
      [100, 101, 116, 97, 99, 104, 101, 100, 32, 102, 114, 111, 109, 32, 99, 111, 110, 116, 97, 105,
        110, 101, 114, 32] := by
    decide +kernel
  have hwrite : ({ script := [.fail (.os 28)] } : Sink).writeAll
      (Bytes.ofText "detached from container ") = (.failed (.os 28), { writes := [⟨24, []⟩] }) := by
    rw [hpart]
    cbv
  show (tell { script := [.fail (.os 28)] } (ExitCode.success, noticeParts id)).1 = _
  simp only [tell, noticeParts, print, hwrite]

/-- A packet that is too long by a byte, and another one. -/
def overlong : List Packet :=
  [⟨2, List.replicate (Packet.payloadLimit + 1) 97⟩, ⟨2, [98]⟩]

/-- A container that puts them out. -/
def overflowing : World :=
  { network := typing.network
    server := { steps := .drain :: (overlong.map Packet.bytes).map .sendRaw } }

theorem overflowing_parsed :
    Invocation.parse ["attach", "ctr/attach", "--no-stdin"] overflowing.keysVariable =
      .ok { command := .attach { path := "ctr/attach", noStdin := true } } :=
  ok_of_toOption (by decide +kernel)

theorem packetsIn_pair (long : Bytes) :
    packetsIn ([⟨2, long⟩, ⟨2, [98]⟩].map Packet.bytes) =
      [⟨2, long.take Packet.payloadLimit⟩, ⟨2, [98]⟩] :=
  packetsIn_cons ⟨2, long⟩ [Packet.bytes ⟨2, [98]⟩]

theorem payloadsTo_pair (long : Bytes) :
    payloadsTo .stdout [⟨2, long⟩, ⟨2, [98]⟩] = long ++ [98] :=
  rfl

/-- The client loses the last byte of the first packet. -/
theorem packetsIn_overlong : packetsIn (overlong.map Packet.bytes) =
    [⟨2, List.replicate Packet.payloadLimit 97⟩, ⟨2, [98]⟩] := by
  have hcut : ∀ count : Nat,
      (List.replicate (count + 1) (97 : UInt8)).take count = List.replicate count 97 := by
    intro count
    rw [List.take_replicate, Nat.min_eq_left (Nat.le_succ count)]
  rw [overlong, packetsIn_pair, hcut]

theorem overlong_sendable {message : Bytes} (hmessage : message ∈ overlong.map Packet.bytes) :
    message ≠ [] ∧ message.length ≤ Connection.messageLimit := by
  obtain ⟨packet, hpacket, rfl⟩ := List.mem_map.mp hmessage
  refine ⟨List.cons_ne_nil _ _, ?_⟩
  simp only [overlong, List.mem_cons, List.not_mem_nil, or_false] at hpacket
  rcases hpacket with rfl | rfl
  · rw [Packet.bytes, List.length_cons, List.length_replicate]
    decide
  · decide

theorem takes_overlong {packet : Packet}
    (hpacket : packet ∈ packetsIn (overlong.map Packet.bytes)) : standardOutputs.Takes packet := by
  simp only [packetsIn_overlong, List.mem_cons, List.not_mem_nil, or_false] at hpacket
  have hstdout : packet.tag = StdStream.stdout.tag := by
    rcases hpacket with rfl | rfl <;> rfl
  have hfits : packet.payload.length ≤ Packet.payloadLimit := by
    rcases hpacket with rfl | rfl
    · exact Nat.le_of_eq List.length_replicate
    · decide
  have hfeed : 10 ∉ packet.payload := by
    rcases hpacket with rfl | rfl
    · exact fun hmem => absurd (List.eq_of_mem_replicate hmem) (by decide)
    · decide
  refine takes_standardOutputs (Packet.isOutput_of_fits hfits (.inl hstdout)) fun _ hfills => ?_
  obtain ⟨line, rest, hpayload, -⟩ := hfills
  exact hfeed (hpayload ▸ List.mem_append_right line List.mem_cons_self)

/-- The second packet is shown behind the rest of the first. -/
theorem overflowing_shown :
    List.replicate Packet.payloadLimit 97 ++ [98] <+:
      (run ["attach", "ctr/attach", "--no-stdin"] overflowing
        (Streaming.relayingTurns (overlong.map Packet.bytes))).stdout := by
  let arguments : AttachArguments := { path := "ctr/attach", noStdin := true }
  have hconnected : ({} : Client).Connected overflowing.network
      (({} : Terminal).config arguments [16, 17] []) := ⟨rfl, rfl, isOk_connect_ctr⟩
  have hshown := Client.attach_shows hconnected rfl rfl rfl rfl rfl rfl steady_standardOutputs
    (fun _ => overlong_sendable) (fun _ => takes_overlong) .stdout rfl
  have hsession : ({} : Terminal).session arguments overflowing
      (Streaming.relayingTurns (overlong.map Packet.bytes)) = .ok _ :=
    congrArg (Except.map _) standard_parsed
  simp only [run, overflowing_parsed, attach]
  rw [hsession]
  show _ <+: (finish _ _).stdout
  rw [stdout_finish]
  rw [packetsIn_overlong, payloadsTo_pair] at hshown
  exact hshown

/-- **The program tells how the session ended, and shows what the container put out.**  For every
command line of `attach` that can be read, whatever is around the program and whatever its
standard streams do: if the detach keys cannot be read, there is no session, and what the run
leaves is one line and the code of a wrong usage.  Otherwise the code and the line behind the
container's output tell the result of the session, if the standard error takes the line, and the
standard output shows what the server has sent to it. -/
theorem attach_concludes {words : List String} {world : World} {invocation : Invocation}
    {arguments : AttachArguments}
    (hparse : Invocation.parse words world.keysVariable = .ok invocation)
    (hcommand : invocation.command = .attach arguments) (schedule : List Party)
    (terminal : Terminal) :
    let outcome := run words world schedule terminal
    (∀ error, KeyNotation.parse arguments.detachKeys = .error error →
      terminal.session arguments world schedule = .error error ∧
        Rejects terminal error outcome) ∧
    ∀ keys, KeyNotation.parse arguments.detachKeys = .ok keys →
      ∃ session, terminal.session arguments world schedule = .ok session ∧
        Concludes terminal.stderr arguments session outcome ∧
        terminal.Shows world.network (terminal.config arguments keys world.stdin) world.server
          schedule outcome.stdout := by
  have hrun : run words world schedule terminal = attach arguments world schedule terminal := by
    simp only [run, hparse, hcommand]
  rw [hrun]
  refine ⟨fun error hkeys => ?_, fun keys hkeys => ?_⟩
  · have hsession : terminal.session arguments world schedule = .error error :=
      congrArg (Except.map _) hkeys
    refine ⟨hsession, ?_⟩
    simp only [attach, hsession]
    exact rejects_tell terminal error
  · have hsession : terminal.session arguments world schedule =
        .ok (({} : Client).attach world.network (terminal.config arguments keys world.stdin)
          world.server schedule terminal.refused) := congrArg (Except.map _) hkeys
    refine ⟨_, hsession, ?_⟩
    simp only [attach, hsession]
    refine ⟨concludes_finish arguments ?_, ?_⟩
    · exact terminal.willing_attach world.network world.server schedule rfl
    · rw [stdout_finish]
      exact terminal.shows_attach world.network world.server schedule rfl

/-- The detach keys are typed behind a letter, and a second run is given keys that do not
exist. -/
theorem attach_concludes_typing :
    let typed := run ["attach", "ctr/attach"] typing []
    let misspelt := run ["attach", "ctr/attach", "--detach-keys", "ctrl-1"] typing []
    typed.code = some 0 ∧
      (∃ relayed, typed.stderr = relayed ++ Bytes.ofText "detached from container ctr\n") ∧
      misspelt.code = some 64 ∧ misspelt.stdout = [] ∧ misspelt.received = [] := by
  intro typed misspelt
  obtain ⟨error, hnokey⟩ : ∃ error, KeyNotation.parse "ctrl-1" = .error error := by
    have hnot : (KeyNotation.parse "ctrl-1").isOk = false := by decide +kernel
    cases hparsed : KeyNotation.parse "ctrl-1" with
    | error error => exact ⟨error, rfl⟩
    | ok keys =>
        rw [hparsed] at hnot
        exact absurd hnot.symm Bool.false_ne_true
  have hmisspelt : Invocation.parse ["attach", "ctr/attach", "--detach-keys", "ctrl-1"]
      typing.keysVariable =
        .ok { command := .attach { path := "ctr/attach", detachKeys := "ctrl-1" } } :=
    ok_of_toOption (by decide +kernel)
  -- the standard error refuses nothing
  have hwilling : ({} : Terminal).stderr.Willing :=
    fun step hstep => absurd hstep List.not_mem_nil
  obtain ⟨session, hsession, hconcludes, -⟩ :=
    (attach_concludes typing_parsed rfl [] {}).2 _ standard_parsed
  have hresult : session.result? = some (.error .detached) := by
    have hattach := congrArg (Except.map fun left => left.result?) hsession
    rw [Terminal.session, standard_parsed] at hattach
    exact (Except.ok.inj hattach).symm.trans (typing_detaches {}).1
  obtain ⟨hcode, hstderr⟩ := hconcludes.heard hwilling _ hresult
  have hnotice : (AttachArguments.notice { path := "ctr/attach" }) =
      Bytes.ofText "detached from container ctr\n" := by
    decide +kernel
  obtain ⟨-, hrejects⟩ := (attach_concludes hmisspelt rfl [] {}).1 _ hnokey
  exact ⟨hcode, ⟨_, hstderr.trans (congrArg _ hnotice)⟩, (hrejects.heard hwilling).1,
    hrejects.stdout_eq, hrejects.received_eq⟩

/-- A detached session fails where the standard error is full, and what is shown need not be a
first part of what was sent where a message is too long. -/
theorem attach_unheard_and_cut_off :
    (∃ session, deaf.session { path := "ctr/attach" } typing [] = .ok session ∧
      session.result? = some (.error .detached) ∧
      (run ["attach", "ctr/attach"] typing [] deaf).code = some ExitCode.panicked) ∧
    ¬ (run ["attach", "ctr/attach", "--no-stdin"] overflowing
      (Streaming.relayingTurns (overlong.map Packet.bytes))).stdout <+:
        payloadsTo .stdout overlong := by
  constructor
  · have hsession : deaf.session { path := "ctr/attach" } typing [] =
        .ok (({} : Client).attach typing.network
          (({ stderr := deaf.stderr } : Terminal).config { path := "ctr/attach" } [16, 17]
            typing.stdin) typing.server []) :=
      congrArg (Except.map _) standard_parsed
    obtain ⟨hresult, hstderr⟩ := typing_detaches deaf.stderr
    refine ⟨_, hsession, hresult, ?_⟩
    simp only [run, typing_parsed, attach]
    rw [hsession]
    show (finish _ _).code = _
    rw [finish_of_result hresult, hstderr, Option.getD_some]
    exact congrArg some (tell_deaf _)
  · intro hprefix
    have hboth := overflowing_shown.trans hprefix
    rw [overlong, payloadsTo_pair, List.replicate_succ', List.append_assoc,
      List.prefix_append_right_inj] at hboth
    exact absurd hboth (by decide)

end Program

end ContainerAttach.CommandLine
