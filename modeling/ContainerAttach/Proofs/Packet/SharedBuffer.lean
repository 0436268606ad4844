import ContainerAttach.Packet

/-!
# Packets in one buffer

A sender may collect packets in one buffer before it sends them.  `Packet.write` writes
into such a buffer in place, first the tag and then the payload, so a packet that was
begun and could not be finished would leave a part of itself behind.  This never happens:
the size is checked first, and a packet that is refused leaves the buffer as it was
(`Packet.run_write`).

Nothing in the buffer says where one packet ends and the next begins.  But the sender
knows: cut at the lengths that the buffer had after each packet, it gives back exactly
the packets that were not refused (`Packet.collected_run_writeAll`).
-/

namespace ContainerAttach.Packet

/-! ## One packet -/

/-- Writes the packet behind what is in the buffer.  What has been written stays there even
if the writing fails. -/
def write (packet : Packet) : ExceptT PacketError (StateM Bytes) Unit := do
  if payloadLimit < packet.payload.length then
    throw (.payloadTooLarge packet.payload.length payloadLimit)
  modify (· ++ [packet.tag])
  modify (· ++ packet.payload)

/-- Whether the payload is small enough for a packet. -/
def Fits (packet : Packet) : Prop :=
  packet.payload.length ≤ 8192

instance (packet : Packet) : Decidable packet.Fits :=
  inferInstanceAs (Decidable (packet.payload.length ≤ 8192))

/-- What the sender is told of the packet. -/
def answer (packet : Packet) : Except PacketError Unit :=
  if packet.Fits then .ok () else .error (.payloadTooLarge packet.payload.length 8192)

/-- What the packet adds to a buffer. -/
def added (packet : Packet) : Bytes :=
  if packet.Fits then packet.bytes else []

theorem run_write (packet : Packet) (buffer : Bytes) :
    packet.write.run.run buffer = (packet.answer, buffer ++ packet.added) := by
  by_cases hfits : packet.Fits
  · have hlimit : ¬ payloadLimit < packet.payload.length := Nat.not_lt.mpr hfits
    rw [write, if_neg hlimit, answer, added, if_pos hfits, if_pos hfits]
    show (Except.ok (), buffer ++ [packet.tag] ++ packet.payload) = _
    rw [List.append_assoc]
    rfl
  · have hlimit : payloadLimit < packet.payload.length := Nat.lt_of_not_le hfits
    rw [write, if_pos hlimit, answer, added, if_neg hfits, if_neg hfits, List.append_nil]
    rfl

/-- Appending to a buffer gives the buffer that writing into it leaves, unless the packet is
refused. -/
theorem appendTo_eq_write (packet : Packet) (buffer : Bytes) :
    packet.appendTo buffer =
      (packet.write.run.run buffer).1.map fun _ => (packet.write.run.run buffer).2 := by
  rw [run_write]
  by_cases hfits : packet.Fits
  · have hlimit : ¬ payloadLimit < packet.payload.length := Nat.not_lt.mpr hfits
    rw [appendTo, if_neg hlimit, answer, added, if_pos hfits, if_pos hfits]
    rfl
  · have hlimit : payloadLimit < packet.payload.length := Nat.lt_of_not_le hfits
    rw [appendTo, if_pos hlimit, answer, if_neg hfits]
    rfl

theorem ofBytes?_eq_none_iff {bytes : Bytes} : ofBytes? bytes = none ↔ bytes = [] := by
  cases bytes with
  | nil => simp [ofBytes?]
  | cons tag payload => simp [ofBytes?]

/-- What was read and is no longer than a packet is written back as it was. -/
theorem run_write_of_ofBytes? {bytes : Bytes} {packet : Packet}
    (hpacket : ofBytes? bytes = some packet) (hlength : bytes.length ≤ 8193) :
    packet.write.run.run [] = (.ok (), bytes) := by
  have hbytes := bytes_of_ofBytes? hpacket
  have hfits : packet.Fits := by
    have hlonger : bytes.length = packet.payload.length + 1 := by rw [← hbytes]; rfl
    unfold Fits
    omega
  rw [run_write, answer, added, if_pos hfits, if_pos hfits, hbytes, List.nil_append]

/-! ## Any packets -/

/-- What the sender knows after a packet: the answer, and the length of the buffer. -/
structure Report where
  answer : Except PacketError Unit
  length : Nat

/-- Writes all packets into the buffer, one after the other. -/
def writeAll : List Packet → StateM Bytes (List Report)
  | [] => return []
  | packet :: packets => do
    let answer ← packet.write.run
    let length := (← get).length
    return ⟨answer, length⟩ :: (← writeAll packets)

/-- The pieces of a text between one place and the next. -/
def cutAt (start : Nat) : List Nat → Bytes → List Bytes
  | [], _ => []
  | stop :: stops, bytes => (bytes.take stop).drop start :: cutAt stop stops bytes

/-- What becomes of a buffer into which packets are written. -/
structure Collected (initial : Bytes) (packets : List Packet) (result : List Report × Bytes) :
    Prop where
  answers : result.1.map Report.answer = packets.map answer
  buffer : result.2 = initial ++ (packets.filter (·.Fits)).flatMap bytes
  /-- The pieces that the packets have added, without those that are empty. -/
  pieces : ((cutAt initial.length (result.1.map Report.length) result.2).filter (· ≠ [])).map
    ofBytes? = (packets.filter (·.Fits)).map some

theorem run_writeAll_cons (packet : Packet) (packets : List Packet) (buffer : Bytes) :
    (writeAll (packet :: packets)).run buffer =
      let rest := (writeAll packets).run (buffer ++ packet.added)
      (⟨packet.answer, (buffer ++ packet.added).length⟩ :: rest.1, rest.2) := by
  show (let written := packet.write.run.run buffer
    let rest := (writeAll packets).run written.2
    ((⟨written.1, written.2.length⟩ :: rest.1, rest.2) : List Report × Bytes)) = _
  rw [run_write]

theorem run_writeAll_buffer (packets : List Packet) :
    ∀ buffer : Bytes, ((writeAll packets).run buffer).2 = buffer ++ packets.flatMap added := by
  induction packets with
  | nil => exact fun buffer => (List.append_nil buffer).symm
  | cons packet packets ih =>
      intro buffer
      rw [run_writeAll_cons, List.flatMap_cons, ← List.append_assoc]
      exact ih (buffer ++ packet.added)

theorem run_writeAll_answers (packets : List Packet) :
    ∀ buffer : Bytes,
      ((writeAll packets).run buffer).1.map Report.answer = packets.map answer := by
  induction packets with
  | nil => exact fun buffer => rfl
  | cons packet packets ih =>
      intro buffer
      rw [run_writeAll_cons, List.map_cons, List.map_cons, ih]

/-- Between the length of the buffer before a packet and the one after it stands what the
packet has added. -/
theorem cutAt_run_writeAll (packets : List Packet) :
    ∀ buffer : Bytes, cutAt buffer.length
      (((writeAll packets).run buffer).1.map Report.length) ((writeAll packets).run buffer).2 =
        packets.map added := by
  induction packets with
  | nil => exact fun buffer => rfl
  | cons packet packets ih =>
      intro buffer
      -- what is written later comes behind this piece
      have hpiece : ((((writeAll packets).run (buffer ++ packet.added)).2).take
          (buffer ++ packet.added).length).drop buffer.length = packet.added := by
        rw [run_writeAll_buffer, List.take_left, List.drop_left]
      rw [run_writeAll_cons, List.map_cons, List.map_cons, cutAt, hpiece, ih]

theorem flatMap_added (packets : List Packet) :
    packets.flatMap added = (packets.filter (·.Fits)).flatMap bytes := by
  induction packets with
  | nil => rfl
  | cons packet packets ih =>
      by_cases hfits : packet.Fits
      · simp [added, hfits, ih]
      · simp [added, hfits, ih]

theorem filter_map_added (packets : List Packet) :
    (packets.map added).filter (· ≠ []) = (packets.filter (·.Fits)).map bytes := by
  induction packets with
  | nil => rfl
  | cons packet packets ih =>
      rw [List.map_cons, added]
      by_cases hfits : packet.Fits
      · rw [if_pos hfits, List.filter_cons_of_pos (by simp [bytes]), ih,
          List.filter_cons_of_pos (by simpa using hfits), List.map_cons]
      · rw [if_neg hfits, List.filter_cons_of_neg (by simp), ih,
          List.filter_cons_of_neg (by simpa using hfits)]

/-- **A buffer gives back the packets that it has accepted.**  Refused are exactly the packets
whose payload has more than 8192 bytes, and they leave the buffer as it was.  Conversely,
every text but the empty one is a packet, and if it has at most 8193 bytes it is the encoding
of that packet. -/
theorem collected_run_writeAll (initial : Bytes) (packets : List Packet) :
    Collected initial packets ((writeAll packets).run initial) ∧
      (∀ (packet : Packet) (buffer : Bytes),
        packet.write.run.run buffer =
          (if packet.payload.length ≤ 8192 then (.ok (), buffer ++ packet.bytes)
            else (.error (.payloadTooLarge packet.payload.length 8192), buffer)) ∧
        packet.appendTo buffer =
          (packet.write.run.run buffer).1.map fun _ => (packet.write.run.run buffer).2) ∧
      ∀ bytes : Bytes, (ofBytes? bytes = none ↔ bytes = []) ∧
        ∀ packet, ofBytes? bytes = some packet → bytes.length ≤ 8193 →
          packet.write.run.run [] = (.ok (), bytes) := by
  refine ⟨⟨run_writeAll_answers packets initial, ?_, ?_⟩, ?_, ?_⟩
  · rw [run_writeAll_buffer, flatMap_added]
  · rw [cutAt_run_writeAll, filter_map_added, List.map_map]
    exact List.map_congr_left fun packet _ => ofBytes?_bytes packet
  · intro packet buffer
    refine ⟨?_, appendTo_eq_write packet buffer⟩
    rw [run_write]
    by_cases hfits : packet.Fits
    · rw [answer, added, if_pos hfits, if_pos hfits, if_pos (show _ ≤ 8192 from hfits)]
    · rw [answer, added, if_neg hfits, if_neg hfits, if_neg (show ¬ _ ≤ 8192 from hfits),
        List.append_nil]
  · intro bytes
    exact ⟨ofBytes?_eq_none_iff, fun packet => run_write_of_ofBytes?⟩

end ContainerAttach.Packet
