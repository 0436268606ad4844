import ContainerAttach.Session.Error

/-!
# Every cause stays visible

Errors are put into errors: one of a stream into one of a packet or of the socket, that into
one of the session, and any of them may come back inside an error of the caller's hooks or of
the control plane, of which only the text is kept.  Some layers show their cause apart, some do
not, and a failure to connect is told without what its inner message says of the path.

Whatever the layers, the message of the outermost error ends with the text of the input or
output error innermost (`Fault.Carries.endsWith`).  A message is always some words in front of
the text of the next layer, so the proof goes up the layers one by one.
-/

namespace ContainerAttach

/-- The text has the given end. -/
def Text.EndsWith (text ending : String) : Prop :=
  ∃ front, text = front ++ ending

theorem Text.EndsWith.refl (text : String) : EndsWith text text :=
  ⟨"", by simp⟩

/-- Words put in front of a text leave its end alone. -/
theorem Text.EndsWith.behind {text ending : String} (hends : EndsWith text ending)
    (words : String) : EndsWith (words ++ text) ending := by
  obtain ⟨front, rfl⟩ := hends
  exact ⟨words ++ front, String.append_assoc.symm⟩

/-! ## Errors and what they carry -/

/-- The input or output error behind an error of a packet, if there is one. -/
def PacketError.cause? : PacketError → Option IoError
  | .write _ cause | .read cause => some cause
  | .noDestination _ | .shortWrite .. | .payloadTooLarge .. => none

/-- The input or output error that stopped the forwarder, if it was one. -/
def ForwardError.cause? : ForwardError → Option IoError
  | .read cause | .write cause => some cause
  | .detached _ => none

/-- An error of any layer. -/
inductive Fault where
  | io (error : IoError)
  | socket (error : SocketError)
  | packet (error : PacketError)
  | forward (error : ForwardError)
  | attach (error : AttachError)

namespace Fault

def text : Fault → String
  | .io error => error.text
  | .socket error => error.message
  | .packet error => error.message
  | .forward error => error.message
  | .attach error => error.message

/-- The fault carries an input or output error, in itself or in the faults inside it.  A hook
and the control plane may fail with any fault. -/
inductive Carries : Fault → IoError → Prop
  | io (cause : IoError) : Carries (.io cause) cause
  | socket {error : SocketError} {cause : IoError} (cause_eq : error.cause? = some cause) :
      Carries (.socket error) cause
  | packet {error : PacketError} {cause : IoError} (cause_eq : error.cause? = some cause) :
      Carries (.packet error) cause
  | forward {error : ForwardError} {cause : IoError} (cause_eq : error.cause? = some cause) :
      Carries (.forward error) cause
  | announce {inner : Fault} {cause : IoError} (container : String) (inside : inner.Carries cause) :
      Carries (.attach (.announce container inner.text)) cause
  | preAttach {inner : Fault} {cause : IoError} (inside : inner.Carries cause) :
      Carries (.attach (.preAttach inner.text)) cause
  | postAttach {inner : Fault} {cause : IoError} (inside : inner.Carries cause) :
      Carries (.attach (.postAttach inner.text)) cause
  | connect {inner : SocketError} {cause : IoError} (path : Bytes)
      (cause_eq : inner.cause? = some cause) : Carries (.attach (.connect path inner)) cause
  | sharing {inner : SocketError} {cause : IoError} (cause_eq : inner.cause? = some cause) :
      Carries (.attach (.socket inner)) cause
  | spawn (task : String) (cause : IoError) : Carries (.attach (.spawn task cause)) cause
  | output {inner : PacketError} {cause : IoError} (cause_eq : inner.cause? = some cause) :
      Carries (.attach (.output inner)) cause
  | stdin {inner : ForwardError} {cause : IoError} (cause_eq : inner.cause? = some cause) :
      Carries (.attach (.stdin inner)) cause
  | closeWrite {inner : SocketError} {cause : IoError} (cause_eq : inner.cause? = some cause) :
      Carries (.attach (.closeWrite inner)) cause

end Fault

/-! ## One layer -/

section Layers

open Text

variable {cause : IoError}

theorem SocketError.endsWith_message {error : SocketError} (hcause : error.cause? = some cause) :
    EndsWith error.message cause.text := by
  cases error with
  | pathTooLong path length limit => exact absurd hcause (by simp [cause?])
  | bind | connect | accept | io | closeWrite =>
      obtain rfl := Option.some.inj hcause
      exact ⟨_, rfl⟩

/-- What is left of a failure to connect when its path is told elsewhere still ends with the
cause. -/
theorem SocketError.endsWith_reason {error : SocketError} (hcause : error.cause? = some cause) :
    EndsWith error.reason cause.text := by
  cases error with
  | connect path inner =>
      obtain rfl := Option.some.inj hcause
      exact EndsWith.refl _
  | pathTooLong path length limit => exact absurd hcause (by simp [cause?])
  | bind | accept | io | closeWrite => exact endsWith_message hcause

theorem PacketError.endsWith_message {error : PacketError} (hcause : error.cause? = some cause) :
    EndsWith error.message cause.text := by
  cases error with
  | noDestination | shortWrite | payloadTooLarge => exact absurd hcause (by simp [cause?])
  | write | read =>
      obtain rfl := Option.some.inj hcause
      exact ⟨_, rfl⟩

theorem ForwardError.endsWith_message {error : ForwardError}
    (hcause : error.cause? = some cause) : EndsWith error.message cause.text := by
  cases error with
  | detached => exact absurd hcause (by simp [cause?])
  | read | write =>
      obtain rfl := Option.some.inj hcause
      exact ⟨_, rfl⟩

end Layers

/-! ## All layers -/

/-- Through any number of layers the message ends with the cause. -/
theorem Fault.Carries.endsWith {fault : Fault} {cause : IoError} (hcarries : fault.Carries cause) :
    Text.EndsWith fault.text cause.text := by
  induction hcarries with
  | io cause => exact Text.EndsWith.refl _
  | socket cause_eq => exact SocketError.endsWith_message cause_eq
  | packet cause_eq => exact PacketError.endsWith_message cause_eq
  | forward cause_eq => exact ForwardError.endsWith_message cause_eq
  | announce container inside ih => exact ih.behind _
  | preAttach inside ih => exact ih.behind _
  | postAttach inside ih => exact ih.behind _
  | connect path cause_eq => exact (SocketError.endsWith_reason cause_eq).behind _
  | sharing cause_eq => exact (SocketError.endsWith_message cause_eq).behind _
  | spawn task cause => exact ⟨_, rfl⟩
  | output cause_eq => exact (PacketError.endsWith_message cause_eq).behind _
  | stdin cause_eq => exact (ForwardError.endsWith_message cause_eq).behind _
  | closeWrite cause_eq => exact (SocketError.endsWith_message cause_eq).behind _

end ContainerAttach
