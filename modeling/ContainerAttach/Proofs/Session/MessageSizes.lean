import ContainerAttach.Proofs.Input.WriteSizes
import ContainerAttach.Proofs.Keys.Notation
import ContainerAttach.Proofs.Session.Turns

/-!
# The sizes of a session's messages

A session writes what its reads have released to the socket at once, so its messages are what
the writes of the forwarder are, whoever has the turns: none is empty, and none is longer than
`writeLimit` allows.  An empty one would tell the server that the input has ended.
-/

namespace ContainerAttach

namespace InputSource

/-- No turn gives more than there is room for. -/
theorem fits_turn {source rest : InputSource} {capacity accepted : Nat} {returned : Bool}
    {result : ReadResult} (hturn : source.turn capacity accepted returned = .gives result rest) :
    result.Fits capacity := by
  have htake : ∀ bytes : Bytes, (ReadResult.data (bytes.take capacity)).Fits capacity :=
    fun bytes => List.length_take_le capacity bytes
  have hnothing : (ReadResult.data []).Fits capacity := Nat.zero_le _
  unfold turn at hturn
  split at hturn
  · obtain ⟨rfl, -⟩ := InputTurn.gives.inj hturn
    exact htake _
  · obtain ⟨rfl, -⟩ := InputTurn.gives.inj hturn
    exact hnothing
  · obtain ⟨rfl, -⟩ := InputTurn.gives.inj hturn
    exact htake _
  · obtain ⟨rfl, -⟩ := InputTurn.gives.inj hturn
    trivial
  · split at hturn <;> exact nomatch hturn
  · split at hturn
    · obtain ⟨rfl, -⟩ := InputTurn.gives.inj hturn
      exact hnothing
    · exact nomatch hturn
  · exact nomatch hturn

end InputSource

/-- If the task goes on, its scanner watches what it has been fed. -/
def InputTask.Watched (keys : Bytes) : InputTask → Prop
  | .forwarding _ scanner _ => ∃ input released, scanner.Watches keys input released
  | .idle => True
  | .ended => True

namespace Streaming

/-- The messages that have been sent are not empty, and within the limit. -/
structure Sized (keys : Bytes) (state : Streaming) : Prop where
  watched : state.input.Watched keys
  sized : ∀ message ∈ state.forwarded, message ≠ [] ∧ message.length ≤ writeLimit keys

variable {keys : Bytes} {state next : Streaming}

theorem sized_start (config : AttachConfig) (socket : Connection) (server : Server) :
    (start config socket server).Sized config.detachKeys := by
  refine ⟨?_, fun message hmem => absurd hmem List.not_mem_nil⟩
  show (InputTask.start config.streams.stdin config.detachKeys).Watched config.detachKeys
  cases config.streams.stdin with
  | none => trivial
  | some steps => exact ⟨[], [], DetachScanner.watches_ofKeys config.detachKeys⟩

/-- What a read has released is sent, or nothing is. -/
theorem Sized.forwardOutput (hsized : state.Sized keys) {output : Bytes}
    (houtput : output.length ≤ writeLimit keys) :
    ∀ message ∈ (state.forwardOutput output).2.forwarded,
      message ≠ [] ∧ message.length ≤ writeLimit keys := by
  unfold Streaming.forwardOutput
  split
  · exact hsized.sized
  · next hne =>
    split
    · exact hsized.sized
    · intro message hmem
      rcases List.mem_append.mp hmem with hearlier | hlast
      · exact hsized.sized message hearlier
      · rw [List.mem_singleton.mp hlast]
        exact ⟨hne, houtput⟩

theorem Sized.onInput (hsized : state.Sized keys) {scanner : DetachScanner}
    {input released : Bytes} (hwatches : scanner.Watches keys input released)
    {result : ReadResult} (hfits : result.Fits forwardCapacity) (source : InputSource)
    (written : Nat) : (state.onInput source written (scanner.react result)).Sized keys := by
  have hsent := hsized.forwardOutput (hwatches.length_output_le hfits)
  rcases hreact : scanner.react result with ⟨output, continuation⟩
  rw [hreact] at hsent
  unfold Streaming.onInput
  split
  · next after houtput =>
    rw [houtput] at hsent
    exact ⟨trivial, hsent⟩
  · next after houtput =>
    rw [houtput] at hsent
    dsimp only
    cases continuation with
    | goOn after => exact ⟨hwatches.goesOn hreact, hsent⟩
    | detach | finish | fail => exact ⟨trivial, hsent⟩

theorem Sized.actInput? (hsized : state.Sized keys) (hact : state.actInput? = some next) :
    next.Sized keys := by
  have hwatched := hsized.watched
  unfold Streaming.actInput? at hact
  split at hact
  · exact absurd hact (by simp)
  · obtain rfl := Option.some.inj hact
    exact ⟨trivial, hsized.sized⟩
  · next source scanner written hinput =>
    rw [hinput] at hwatched
    obtain ⟨input, released, hwatches⟩ := hwatched
    split at hact
    · exact absurd hact (by simp)
    · obtain rfl := Option.some.inj hact
      exact ⟨trivial, hsized.sized⟩
    · obtain rfl := Option.some.inj hact
      exact ⟨⟨input, released, hwatches⟩, hsized.sized⟩
    · next result rest hturn =>
      obtain rfl := Option.some.inj hact
      exact hsized.onInput hwatches (InputSource.fits_turn hturn) rest written

/-- The input task is the only one that sends anything. -/
theorem Sized.act? {party : Party} (hsized : state.Sized keys)
    (hact : state.act? party = some next) : next.Sized keys := by
  cases party with
  | input => exact hsized.actInput? hact
  | server =>
      obtain ⟨server, socket, -, rfl⟩ := actServer?_cases hact
      exact ⟨hsized.watched, hsized.sized⟩
  | output =>
      obtain ⟨-, inbox, reset, relay, -, rfl | ⟨completions, rfl⟩⟩ := actOutput?_cases hact
      · exact ⟨hsized.watched, hsized.sized⟩
      · exact ⟨hsized.watched, hsized.sized⟩
  | coordinator => cases actCoordinator?_cases hact <;> exact ⟨hsized.watched, hsized.sized⟩

end Streaming

/-! ## The law of sizes -/

/-- What is to be said of the sizes of writes, whatever the keys are. -/
structure WriteSizes (keys : Bytes) : Prop where
  limit_eq : writeLimit keys = 32768 + max keys.length 1 - 1
  /-- Whatever the source gives and the sink does, nothing empty is written and nothing beyond
  the limit, and the sink is never flushed. -/
  account : ∀ source sink, ∃ turns, SizeAccount keys source sink turns
    (forward source (.ofKeys keys) sink 0).2.1 (forward source (.ofKeys keys) sink 0).2.2
  /-- The same is true of the messages of a session. -/
  messages : ∀ config socket server turns, config.detachKeys = keys →
    ∀ message ∈ ((Streaming.start config socket server).follow turns).forwarded,
      message ≠ [] ∧ message.length ≤ writeLimit keys
  /-- If some byte is none of the keys, there is a source that leads to a write of that length. -/
  reached : ∀ spare, spare ∉ keys → ∀ framing, ∃ steps,
    ∃ written ∈ (forward ⟨framing, [], steps⟩ (.ofKeys keys) {} 0).2.2.writes,
      written.offered = writeLimit keys ∧ written.accepted.length = writeLimit keys
  /-- Keys that can be said in the notation leave a byte unused. -/
  spoken : ∀ text, KeyNotation.parse text = .ok keys → ∃ spare, spare ∉ keys
  /-- With two keys or more, a write can be longer than a read. -/
  exceeds : 2 ≤ keys.length → forwardCapacity < writeLimit keys

/-- **No write is empty, and none is longer than a read with all keys but one before it.**  Writes
of that length do happen. -/
theorem write_sizes (keys : Bytes) : WriteSizes keys where
  limit_eq := rfl
  account := forward_sizeAccount keys
  messages := by
    rintro config socket server turns rfl
    have hsized := Streaming.follow_preserves (fun hsized hact => hsized.act? hact)
      (Streaming.sized_start config socket server) turns
    exact hsized.sized
  reached spare hspare framing := ⟨_, forward_reaches_limit hspare framing⟩
  spoken text hparse := by
    refine ⟨0x2c, fun hcomma => ?_⟩
    rw [KeyNotation.parse_eq_ok_iff] at hparse
    split at hparse
    · rw [hparse] at hcomma
      exact absurd hcomma List.not_mem_nil
    · exact (KeyNotation.forall_ascii_of_spells hparse _ hcomma).2 rfl
  exceeds htwo := by
    rw [writeLimit]
    omega

end ContainerAttach
