import ContainerAttach.Proofs.Input.Forwarding

/-!
# The messages that forwarding makes

A packet socket keeps the writes of the forwarder apart, so what the server receives
is a list of messages.  `Sink.holding` is a sink that takes every write whole and
holds a list of messages already; a run of the forwarder on it shows the messages
that the run makes.

A run only adds messages to those that are held, and none of them is empty
(`forward_holding`): a read that releases nothing makes no message.  An empty message
would look to the server like the end of the input.
-/

namespace ContainerAttach

/-- The message that some bytes make; no bytes make none. -/
def messageOf (bytes : Bytes) : List Bytes :=
  if bytes = [] then [] else [bytes]

theorem messageOf_nil : messageOf [] = [] := rfl

theorem messageOf_of_ne_nil {bytes : Bytes} (hbytes : bytes ≠ []) : messageOf bytes = [bytes] :=
  if_neg hbytes

theorem ne_nil_of_mem_messageOf {bytes message : Bytes} (hmem : message ∈ messageOf bytes) :
    message ≠ [] := by
  by_cases hbytes : bytes = []
  · rw [hbytes] at hmem
    exact absurd hmem List.not_mem_nil
  · rw [messageOf_of_ne_nil hbytes, List.mem_singleton] at hmem
    rwa [hmem]

namespace Sink

/-- A sink that takes every write whole, with the messages that were written to it. -/
def holding (messages : List Bytes) : Sink :=
  { writes := messages.map fun message => ⟨message.length, message⟩ }

theorem willing_holding (messages : List Bytes) : (holding messages).Willing := by
  intro step hstep
  exact absurd hstep List.not_mem_nil

theorem map_accepted_holding (messages : List Bytes) :
    (holding messages).writes.map WriteRecord.accepted = messages := by
  simp [holding, Function.comp_def]

@[simp] theorem data_holding (messages : List Bytes) :
    (holding messages).data = messages.flatten := by
  rw [data, List.flatMap_def, map_accepted_holding]

theorem holding_injective {messages other : List Bytes}
    (hholding : holding messages = holding other) : messages = other := by
  rw [← map_accepted_holding messages, hholding, map_accepted_holding]

/-- Every write of a run was offered a message, and took it. -/
theorem mem_writes_holding {messages : List Bytes} {message : Bytes} (hmem : message ∈ messages) :
    ⟨message.length, message⟩ ∈ (holding messages).writes :=
  List.mem_map_of_mem hmem

theorem log_holding (messages : List Bytes) (bytes : Bytes) :
    (holding messages).log bytes bytes.length = holding (messages ++ [bytes]) := by
  simp [log, holding]

/-- A write that is accepted whole is the only one. -/
theorem writeAll_of_write {sink after : Sink} {bytes : Bytes} (hbytes : bytes ≠ [])
    (hwrite : sink.write bytes = (.accepted bytes.length, after)) :
    sink.writeAll bytes = (.done (), after) := by
  have hpos := List.length_pos_iff.mpr hbytes
  rw [writeAll, dif_neg hbytes]
  split
  · next rest hzero =>
    obtain ⟨hanswer, -⟩ := Prod.mk.inj (hwrite.symm.trans hzero)
    have := WriteResult.accepted.inj hanswer
    omega
  · next count rest hcount =>
    -- nothing is left to be written
    obtain ⟨hanswer, rfl⟩ := Prod.mk.inj (hwrite.symm.trans hcount)
    have hlength : bytes.length = count + 1 := WriteResult.accepted.inj hanswer
    rw [← hlength, List.drop_length, writeAll]
    rfl
  · next hfailed => exact absurd (hwrite.symm.trans hfailed) (by simp)
  · next hcrashed => exact absurd (hwrite.symm.trans hcrashed) (by simp)

/-- Whatever is written makes one message, or none. -/
theorem writeAll_holding (messages : List Bytes) (bytes : Bytes) :
    (holding messages).writeAll bytes = (.done (), holding (messages ++ messageOf bytes)) := by
  by_cases hbytes : bytes = []
  · rw [hbytes, writeAll, messageOf_nil, List.append_nil]
    rfl
  · rw [messageOf_of_ne_nil hbytes, ← log_holding]
    exact writeAll_of_write hbytes rfl

end Sink

/-- A run of the forwarder adds messages to those that were made before, and none of them is
empty. -/
theorem forward_holding (source : Source) :
    ∀ (scanner : DetachScanner) (messages : List Bytes) (written : Nat),
      ∃ more, (forward source scanner (.holding messages) written).2.2 =
          .holding (messages ++ more) ∧
        ∀ message ∈ more, message ≠ [] := by
  induction hremaining : source.remaining using Nat.strongRecOn generalizing source with
  | _ remaining ih =>
      intro scanner messages written
      rcases hread : source.read forwardCapacity with ⟨result, rest⟩
      rcases hreact : scanner.react result with ⟨output, next⟩
      rw [forward_of_writeAll hread hreact (Sink.writeAll_holding messages output)]
      cases next with
      | goOn scanner =>
          have hresult : result ≠ .data [] := by
            rintro rfl
            simp at hreact
          have hlt : rest.remaining < remaining := by
            rw [← hremaining]
            exact Source.remaining_read_lt hread hresult
          obtain ⟨more, hmore, hne⟩ := ih rest.remaining hlt rest rfl scanner
            (messages ++ messageOf output) (written + output.length)
          refine ⟨messageOf output ++ more, ?_, ?_⟩
          · rw [← List.append_assoc]
            exact hmore
          · intro message hmem
            rcases List.mem_append.mp hmem with hfirst | hlater
            · exact ne_nil_of_mem_messageOf hfirst
            · exact hne message hlater
      | detach | finish | fail =>
          exact ⟨messageOf output, rfl, fun message => ne_nil_of_mem_messageOf⟩

/-- The messages that an input makes which ends without the keys in it are the input, cut in
some way. -/
theorem forward_of_untyped {keys : Bytes} {source : Source}
    (huntyped : ¬ Keys.Typed keys (source.intake forwardCapacity).data)
    (hends : (source.intake forwardCapacity).failure = none) :
    ∃ messages rest, forward source (.ofKeys keys) (.holding []) 0 =
        (.done (source.intake forwardCapacity).data.length, rest, .holding messages) ∧
      messages.flatten = (source.intake forwardCapacity).data ∧
      ∀ message ∈ messages, message ≠ [] := by
  obtain ⟨messages, hmessages, hne⟩ := forward_holding source (.ofKeys keys) [] 0
  have hforwarded := forward_forwarded keys [] source (.ofKeys keys) (.holding []) [] []
    (DetachScanner.watches_ofKeys keys) (Sink.willing_holding []) rfl
  obtain ⟨hending, hdata, -⟩ := hforwarded.outcome.ended huntyped hends
  rw [List.nil_append] at hmessages hdata
  refine ⟨messages, _, Prod.ext hending (Prod.ext rfl hmessages), ?_, hne⟩
  rw [← hdata]
  show messages.flatten = (forward source (.ofKeys keys) (.holding []) 0).2.2.data
  rw [hmessages, Sink.data_holding]

end ContainerAttach
