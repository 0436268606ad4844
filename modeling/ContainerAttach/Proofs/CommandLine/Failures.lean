import ContainerAttach.CommandLine.Exit
import ContainerAttach.Proofs.Session.Causes

/-!
# What a failure tells

A failed session ends the program with a code and a message.  The message is that of the error
behind what was being done, or of the inner error if the socket or the output failed
(`Failure.message_ofAttach`).  For an output that could not be read or written the message is
put together by hand from the words for the stream and the text of the cause, and comes to the
same.

The code is for scripts, so it must not depend on anything that a script cannot know.  An error
is stripped of all its texts and numbers (`AttachError.outline`), which leaves its variant, the
variants inside it and the kind of the cause, and the code is found from the rest alone
(`Failure.code_ofAttach`).
-/

namespace ContainerAttach

/-! ## Errors without their data -/

/-- The error of which nothing but the kind is known. -/
def IoError.outline (error : IoError) : IoError :=
  .ofKind error.kind

def SocketError.outline : SocketError → SocketError
  | .bind _ cause => .bind [] cause.outline
  | .connect _ cause => .connect [] cause.outline
  | .accept cause => .accept cause.outline
  | .io cause => .io cause.outline
  | .pathTooLong .. => .pathTooLong [] 0 0
  | .closeWrite cause => .closeWrite cause.outline

def PacketError.outline : PacketError → PacketError
  | .noDestination _ => .noDestination 0
  | .shortWrite .. => .shortWrite "" 0 0
  | .write _ cause => .write "" cause.outline
  | .read cause => .read cause.outline
  | .payloadTooLarge .. => .payloadTooLarge 0 0

def ForwardError.outline : ForwardError → ForwardError
  | .detached _ => .detached 0
  | .read cause => .read cause.outline
  | .write cause => .write cause.outline

/-- The error without its texts and numbers. -/
def AttachError.outline : AttachError → AttachError
  | .announce .. => .announce "" ""
  | .connect _ cause => .connect [] cause.outline
  | .preAttach _ => .preAttach ""
  | .postAttach _ => .postAttach ""
  | .socket cause => .socket cause.outline
  | .spawn _ cause => .spawn "" cause.outline
  | .output cause => .output cause.outline
  | .stdin cause => .stdin cause.outline
  | .closeWrite cause => .closeWrite cause.outline
  | .detached => .detached
  | .taskTornDown _ => .taskTornDown ""
  | .taskLost => .taskLost

/-- The part of the error that the user is told. -/
def AttachError.told : AttachError → String
  | .connect _ cause => cause.message
  | .output cause => cause.message
  | error => error.message

/-- The cause decides about the code: it kept the socket from being opened, or a stream of the
output from being read or written. -/
inductive AttachError.DecidedBy : AttachError → IoError → Prop
  | connect {inner : SocketError} {cause : IoError} (path : Bytes)
      (cause_eq : inner.cause? = some cause) : DecidedBy (.connect path inner) cause
  | read (cause : IoError) : DecidedBy (.output (.read cause)) cause
  | write (stream : String) (cause : IoError) : DecidedBy (.output (.write stream cause)) cause

theorem AttachError.endsWith_told {error : AttachError} {cause : IoError}
    (hcarries : (Fault.attach error).Carries cause) : Text.EndsWith error.told cause.text := by
  cases hcarries with
  | connect path cause_eq => exact SocketError.endsWith_message cause_eq
  | output cause_eq => exact PacketError.endsWith_message cause_eq
  | announce container inside => exact (Fault.Carries.announce container inside).endsWith
  | preAttach inside => exact (Fault.Carries.preAttach inside).endsWith
  | postAttach inside => exact (Fault.Carries.postAttach inside).endsWith
  | sharing cause_eq => exact (Fault.Carries.sharing cause_eq).endsWith
  | spawn task cause => exact (Fault.Carries.spawn task cause).endsWith
  | stdin cause_eq => exact (Fault.Carries.stdin cause_eq).endsWith
  | closeWrite cause_eq => exact (Fault.Carries.closeWrite cause_eq).endsWith

namespace CommandLine

namespace Failure

/-! ## Messages -/

theorem message_ofPacket (context : String) (error : PacketError) :
    (ofPacket context error).message = within context error.message := by
  -- two branches put the words for the stream behind the context, and the text behind both
  have hwords : ∀ words text : String,
      within (within context words) text = within context (words ++ ": " ++ text) := by
    intro words text
    simp only [within, String.append_assoc]
  cases error with
  | noDestination | shortWrite | payloadTooLarge => rfl
  | read cause => exact hwords "read attach socket" cause.text
  | write stream cause => exact hwords ("write " ++ stream) cause.text

theorem message_ofAttach (context : String) (error : AttachError) :
    (ofAttach context error).message = within context error.told := by
  cases error with
  | output cause => exact message_ofPacket context cause
  | announce | connect | preAttach | postAttach | socket | spawn | stdin | closeWrite | detached
  | taskTornDown | taskLost => rfl

/-! ## Codes -/

theorem code_ofSocket (context : String) (error : SocketError) :
    (ofSocket context error).code = (ofSocket "" error.outline).code := by
  cases error <;> rfl

theorem code_ofPacket (context : String) (error : PacketError) :
    (ofPacket context error).code = (ofPacket "" error.outline).code := by
  cases error <;> rfl

/-- The code is found from the outline alone. -/
theorem code_ofAttach (context : String) (error : AttachError) :
    (ofAttach context error).code = (ofAttach "" error.outline).code := by
  cases error with
  | connect path cause => exact code_ofSocket context cause
  | output cause => exact code_ofPacket context cause
  | announce | preAttach | postAttach | socket | spawn | stdin | closeWrite | detached
  | taskTornDown | taskLost => rfl

theorem code_of_decidedBy (context : String) {error : AttachError} {cause : IoError}
    (hdecided : error.DecidedBy cause) :
    (ofAttach context error).code = ExitCode.ofKind cause.kind := by
  cases hdecided with
  | read cause => rfl
  | write stream cause => rfl
  | @connect inner cause path cause_eq =>
      show (ofSocket context inner).code = _
      rw [ofSocket, cause_eq]
      rfl

/-- The codes that a failed session can have. -/
def sessionCodes : List Nat :=
  [1, 3, 50, 60, 64, 124, 125]

theorem ofKind_mem_sessionCodes (kind : IoKind) : ExitCode.ofKind kind ∈ sessionCodes := by
  cases kind <;> decide

theorem code_mem_sessionCodes (context : String) (error : AttachError) :
    (ofAttach context error).code ∈ sessionCodes := by
  by_cases hdecided : ∃ cause, error.DecidedBy cause
  · obtain ⟨cause, hcause⟩ := hdecided
    rw [code_of_decidedBy context hcause]
    exact ofKind_mem_sessionCodes cause.kind
  · -- no cause decides, so the variant does
    have hfailure : ExitCode.failure ∈ sessionCodes := by decide
    have hinternal : ExitCode.internal ∈ sessionCodes := by decide
    have hinvalid : ExitCode.dataInvalid ∈ sessionCodes := by decide
    have husage : ExitCode.usage ∈ sessionCodes := by decide
    cases error with
    | connect path inner =>
        cases inner with
        | pathTooLong => exact husage
        | bind _ cause | connect _ cause | accept cause | io cause | closeWrite cause =>
            exact absurd ⟨cause, .connect path rfl⟩ hdecided
    | output inner =>
        cases inner with
        | noDestination | payloadTooLarge => exact hinvalid
        | shortWrite => exact hfailure
        | read cause => exact absurd ⟨cause, .read cause⟩ hdecided
        | write stream cause => exact absurd ⟨cause, .write stream cause⟩ hdecided
    | announce | preAttach | postAttach => exact hfailure
    | socket | spawn | stdin | closeWrite | detached | taskTornDown | taskLost =>
        exact hinternal

theorem code_ne_success (context : String) (error : AttachError) :
    (ofAttach context error).code ≠ ExitCode.success := by
  intro hsuccess
  have hcode := code_mem_sessionCodes context error
  rw [hsuccess] at hcode
  exact absurd hcode (by decide)

/-! ## The laws -/

/-- **Every cause stays visible.**  However errors are nested, the message of the outermost one
ends with the text of the input or output error inside, whether or not the layers between show
it apart, and so does what the program tells the user.  A failure to connect names the path
that the session was given, and nothing of the path that the socket was given. -/
theorem causes_stay_visible :
    (∀ (fault : Fault) (cause : IoError), fault.Carries cause →
      Text.EndsWith fault.text cause.text) ∧
    (∀ (context : String) (error : AttachError) (cause : IoError),
      (Fault.attach error).Carries cause →
        Text.EndsWith (ofAttach context error).message cause.text) ∧
    ∀ path inner : Bytes,
      (∀ cause : IoError, (AttachError.connect path (.connect inner cause)).message =
        "failed to connect to container's attach socket: " ++ Text.lossy path ++ ": " ++
          cause.text) ∧
      ∀ length limit : Nat, (AttachError.connect path (.pathTooLong inner length limit)).message =
        "failed to connect to container's attach socket: " ++ Text.lossy path ++ ": " ++
          SocketError.lengthText length limit := by
  refine ⟨fun fault cause hcarries => hcarries.endsWith, fun context error cause hcarries => ?_,
    fun path inner => ⟨fun cause => rfl, fun length limit => rfl⟩⟩
  rw [message_ofAttach]
  exact (AttachError.endsWith_told hcarries).behind (context ++ ": ")

/-- The control plane fails with an error that does not show its cause apart. -/
theorem causes_stay_visible_hidden :
    let cause : IoError := .custom .other "no \"such\" thing"
    let inner : Fault := .attach (.connect "/run/c/attach" (.closeWrite cause))
    let error : AttachError := .announce "c" inner.text
    (Fault.attach error).Carries cause ∧ cause.text ∉ error.causes ∧
      Text.EndsWith error.message cause.text ∧
      Text.EndsWith (ofAttach "attach failed" error).message cause.text := by
  intro cause inner error
  have hcarries : (Fault.attach error).Carries cause := .announce "c" (.connect _ rfl)
  exact ⟨hcarries, by decide, causes_stay_visible.1 _ cause hcarries,
    causes_stay_visible.2.1 _ error cause hcarries⟩

/-- **The code tells the kind of the failure and the message all of it.**  The code is one of
seven and never that of success.  Two errors of the same variants with causes of the same kind
have the same code, whatever else is in them and whatever was being done, and causes of one
kind have one code wherever the cause decides. -/
theorem ofAttach_tells :
    (∀ (context : String) (error : AttachError),
      (ofAttach context error).code ∈ sessionCodes ∧
      (ofAttach context error).code ≠ ExitCode.success ∧
      (ofAttach context error).message = context ++ ": " ++ error.told) ∧
    (∀ (context other : String) (error variant : AttachError), error.outline = variant.outline →
      (ofAttach context error).code = (ofAttach other variant).code) ∧
    ∀ (context other : String) (error variant : AttachError) (cause reason : IoError),
      error.DecidedBy cause → variant.DecidedBy reason → cause.kind = reason.kind →
        (ofAttach context error).code = (ofAttach other variant).code := by
  refine ⟨fun context error => ?_, fun context other error variant houtline => ?_,
    fun context other error variant cause reason herror hvariant hkind => ?_⟩
  · exact ⟨code_mem_sessionCodes context error, code_ne_success context error,
      message_ofAttach context error⟩
  · rw [code_ofAttach context error, code_ofAttach other variant, houtline]
  · rw [code_of_decidedBy context herror, code_of_decidedBy other hvariant, hkind]

/-- A missing socket and an output whose reader is not found: other variants and texts, and
the same code. -/
theorem ofAttach_tells_not_found :
    let missing : AttachError := .connect "/run/a" (.connect "/run/a" (.os 2))
    let moved : AttachError := .connect "/run/b" (.connect "" (.custom .notFound "moved"))
    let unread : AttachError := .output (.write "stdout" (.ofKind .notFound))
    missing.outline = moved.outline ∧ missing.DecidedBy (.os 2) ∧
      unread.DecidedBy (.ofKind .notFound) ∧
      (ofAttach "a" missing).code = (ofAttach "b" moved).code ∧
      (ofAttach "a" missing).code = (ofAttach "b" unread).code := by
  intro missing moved unread
  have houtline : missing.outline = moved.outline := by decide
  have hmissing : missing.DecidedBy (.os 2) := .connect "/run/a" rfl
  have hunread : unread.DecidedBy (.ofKind .notFound) := .write "stdout" _
  exact ⟨houtline, hmissing, hunread, ofAttach_tells.2.1 "a" "b" missing moved houtline,
    ofAttach_tells.2.2 "a" "b" missing unread _ _ hmissing hunread (by decide)⟩

end Failure

end CommandLine

end ContainerAttach
