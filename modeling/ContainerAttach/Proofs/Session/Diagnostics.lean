import ContainerAttach.Proofs.Text.Printing
import ContainerAttach.Session.Config

/-!
# What the diagnostic form of the settings shows

The diagnostic form shows the texts, the path and the switches of the settings and which of their
optional parts are there (`AttachConfig.Alike`).  It shows that much and no more.  Settings that are
alike in it have the same form, so of the detach keys it shows only how many there are, and of
streams, hooks and sizes only whether there are any.  Settings with the same form are alike in it:
no text can be chosen so that its quoted form runs on into what is printed behind it.
-/

namespace ContainerAttach.AttachConfig

open Text

variable {config other : AttachConfig}

/-- The settings agree in what may be shown of them. -/
structure Alike (config other : AttachConfig) : Prop where
  id_eq : config.id = other.id
  socketPath_eq : config.socketPath = other.socketPath
  execSession_eq : config.execSession = other.execSession
  tty_eq : config.tty = other.tty
  stopAfterStdinEof_eq : config.stopAfterStdinEof = other.stopAfterStdinEof
  passthrough_eq : config.passthrough = other.passthrough
  resize_there : config.resize.isSome = other.resize.isSome
  stdin_there : config.streams.stdin.isSome = other.streams.stdin.isSome
  stdout_there : config.streams.stdout.isSome = other.streams.stdout.isSome
  stderr_there : config.streams.stderr.isSome = other.streams.stderr.isSome
  preAttach_there : config.preAttach.isSome = other.preAttach.isSome
  postAttach_there : config.postAttach.isSome = other.postAttach.isSome
  keyCount_eq : config.detachKeys.length = other.detachKeys.length

/-- The number of the detach keys is told by its digits and the blank behind them. -/
theorem tells_keyCount (count further : Nat) :
    Shown.Tells (count = further) (.atom ("<" ++ toString count ++ " bytes>"))
      (.atom ("<" ++ toString further ++ " bytes>")) := by
  have hblank : ∀ digit < 16, Nat.digitChar digit ≠ ' ' := by decide
  have hdigits := Text.Tells.of_delimits
    (delimits_toDigits (by decide : 1 < 10) (by decide) hblank) count further
  have hbetween := hdigits.between ['<'] "bytes>".toList
  refine .atom ?_
  simpa [Nat.toString_eq_ofList_toDigits] using hbetween

theorem tells_streams (streams further : AttachStreams) :
    ShownFields.Tells
      (streams.stdin.isSome = further.stdin.isSome ∧
        streams.stdout.isSome = further.stdout.isSome ∧
        streams.stderr.isSome = further.stderr.isSome ∧ True)
      (Shown.fieldsOf
        [("stdin", .ofBool streams.stdin.isSome), ("stdout", .ofBool streams.stdout.isSome),
          ("stderr", .ofBool streams.stderr.isSome)])
      (Shown.fieldsOf
        [("stdin", .ofBool further.stdin.isSome), ("stdout", .ofBool further.stdout.isSome),
          ("stderr", .ofBool further.stderr.isSome)]) :=
  .cons "stdin" (.ofBool _ _) <| .cons "stdout" (.ofBool _ _) <| .cons "stderr" (.ofBool _ _) .nil

/-- Field by field the printed settings tell whether the settings are alike. -/
theorem tells_shown (config other : AttachConfig) :
    Shown.Tells (config.Alike other) config.shown other.shown := by
  have hfields := Shown.Tells.record "AttachConfig" <|
    .cons "id" (.quoted config.id other.id) <|
    .cons "socket_path" (.quotedBytes config.socketPath other.socketPath) <|
    .cons "exec_session" (.ofOption config.execSession other.execSession) <|
    .cons "tty" (.ofBool config.tty other.tty) <|
    .cons "stop_after_stdin_eof" (.ofBool config.stopAfterStdinEof other.stopAfterStdinEof) <|
    .cons "passthrough" (.ofBool config.passthrough other.passthrough) <|
    .cons "resize" (.ofBool config.resize.isSome other.resize.isSome) <|
    .cons "streams" (.record "AttachStreams" (tells_streams config.streams other.streams)) <|
    .cons "pre_attach" (.ofBool config.preAttach.isSome other.preAttach.isSome) <|
    .cons "post_attach" (.ofBool config.postAttach.isSome other.postAttach.isSome) <|
    .cons "detach_keys" (tells_keyCount config.detachKeys.length other.detachKeys.length) .nil
  refine hfields.congr ⟨?_, ?_⟩
  · rintro ⟨hid, hpath, hexec, htty, hstop, hpass, hresize, ⟨hin, hout, herr, -⟩, hpre, hpost,
      hkeys, -⟩
    exact ⟨hid, hpath, hexec, htty, hstop, hpass, hresize, hin, hout, herr, hpre, hpost, hkeys⟩
  · rintro ⟨hid, hpath, hexec, htty, hstop, hpass, hresize, hin, hout, herr, hpre, hpost, hkeys⟩
    exact ⟨hid, hpath, hexec, htty, hstop, hpass, hresize, ⟨hin, hout, herr, trivial⟩, hpre, hpost,
      hkeys, trivial⟩

/-- **The diagnostic form of the settings shows what they are alike in, and nothing else**: two
settings have the same form, on one line as well as on many, if and only if they are alike. -/
theorem debug_eq_iff_alike (config other : AttachConfig) :
    (config.debugLine = other.debugLine ↔ config.Alike other) ∧
      (config.debugTall = other.debugTall ↔ config.Alike other) := by
  have htells := tells_shown config other
  exact ⟨String.toList_inj.symm.trans htells.line.eq_iff,
    String.toList_inj.symm.trans (htells.tall 0).eq_iff⟩

end ContainerAttach.AttachConfig
