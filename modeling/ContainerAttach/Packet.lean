import ContainerAttach.Bytes
import ContainerAttach.IoError

/-!
# Packets

The server sends the container's output in packets.  A packet is one byte that
tags the standard stream, followed by the payload.  A payload has at most
`Packet.payloadLimit` bytes, so a buffer of `Packet.sizeLimit` bytes holds
every packet whole.
-/

namespace ContainerAttach

/-- The standard streams of the container. -/
inductive StdStream where
  | stdin
  | stdout
  | stderr
  deriving DecidableEq, Repr

namespace StdStream

def tag : StdStream → UInt8
  | .stdin => 1
  | .stdout => 2
  | .stderr => 3

/-- The stream with the given tag. -/
def ofTag? (tag : UInt8) : Option StdStream :=
  if tag = 1 then some .stdin
  else if tag = 2 then some .stdout
  else if tag = 3 then some .stderr
  else none

def name : StdStream → String
  | .stdin => "stdin"
  | .stdout => "stdout"
  | .stderr => "stderr"

def nameOfTag (tag : UInt8) : String :=
  match ofTag? tag with
  | some stream => stream.name
  | none => "unknown"

end StdStream

/-- What can go wrong with a packet between its encoding and its delivery. -/
inductive PacketError where
  /-- The tag names no stream, or one that nobody wants. -/
  | noDestination (tag : UInt8)
  /-- The destination accepted a part of the payload only. -/
  | shortWrite (stream : String) (expected written : Nat)
  /-- Writing to the destination or flushing it failed. -/
  | write (stream : String) (cause : IoError)
  /-- Reading the next packet failed. -/
  | read (cause : IoError)
  /-- The payload does not fit into a packet. -/
  | payloadTooLarge (size limit : Nat)
  deriving DecidableEq, Repr

namespace PacketError

def message : PacketError → String
  | .noDestination tag =>
    "output destination cannot be nil (packet tag " ++ toString tag.toNat ++ ")"
  | .shortWrite stream expected written =>
    "short write to " ++ stream ++ " (" ++ toString written ++ " of " ++ toString expected
      ++ " bytes)"
  | .write stream cause => "write " ++ stream ++ ": " ++ cause.text
  | .read cause => "read attach socket: " ++ cause.text
  | .payloadTooLarge size limit =>
    "payload too large (" ++ toString size ++ " bytes, max " ++ toString limit ++ ")"

/-- The texts of the causes that are shown apart from the message, outermost first. -/
def causes : PacketError → List String
  | .write _ cause => [cause.text]
  | _ => []

/-- Whether the peer broke the protocol, as opposed to a stream that failed. -/
def isViolation : PacketError → Bool
  | .noDestination _ => true
  | _ => false

end PacketError

/-- A packet: a tag and what is sent under it. -/
structure Packet where
  tag : UInt8
  payload : Bytes
  deriving DecidableEq, Repr

namespace Packet

/-- The most bytes that the payload of one packet may have. -/
def payloadLimit : Nat := 8192

/-- The most bytes that one packet may have: a tag and a full payload. -/
def sizeLimit : Nat := payloadLimit + 1

def bytes (packet : Packet) : Bytes :=
  packet.tag :: packet.payload

/-- The buffer with the packet written behind it. -/
def appendTo (packet : Packet) (buffer : Bytes) : Except PacketError Bytes :=
  if payloadLimit < packet.payload.length then
    .error (.payloadTooLarge packet.payload.length payloadLimit)
  else .ok (buffer ++ packet.bytes)

/-- The packet that a read has given.  A read without bytes gives none. -/
def ofBytes? : Bytes → Option Packet
  | [] => none
  | tag :: payload => some ⟨tag, payload⟩

@[simp] theorem ofBytes?_bytes (packet : Packet) : ofBytes? packet.bytes = some packet := rfl

/-- A packet has the bytes that it was read from. -/
theorem bytes_of_ofBytes? {bytes : Bytes} {packet : Packet}
    (hpacket : ofBytes? bytes = some packet) : packet.bytes = bytes := by
  cases bytes with
  | nil => simp [ofBytes?] at hpacket
  | cons tag payload =>
      obtain rfl := Option.some.inj hpacket
      rfl

end Packet

end ContainerAttach
