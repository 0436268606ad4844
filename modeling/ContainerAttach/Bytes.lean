/-!
# Bytes

Everything that crosses the attach socket is a list of bytes, and so is a path.
Texts enter as their UTF-8 encoding, and the lengths that limit a packet or a
socket address are lengths of such lists.
-/

namespace ContainerAttach

/-- A finite sequence of bytes. -/
abbrev Bytes := List UInt8

/-- The UTF-8 encoding of a text. -/
def Bytes.ofText (text : String) : Bytes :=
  text.toByteArray.data.toList

/-- Where bytes are wanted a text stands for its encoding. -/
instance : Coe String Bytes := ⟨Bytes.ofText⟩

@[simp] theorem Bytes.length_ofText (text : String) :
    (Bytes.ofText text).length = text.utf8ByteSize := by
  rfl

theorem Bytes.ofText_append (first second : String) :
    Bytes.ofText (first ++ second) = Bytes.ofText first ++ Bytes.ofText second := by
  rw [Bytes.ofText, String.toByteArray_append, ByteArray.data_append, Array.toList_append]
  rfl

theorem Bytes.ofText_ofList (chars : List Char) :
    Bytes.ofText (String.ofList chars) = chars.flatMap String.utf8EncodeChar := by
  rw [Bytes.ofText, String.toByteArray_ofList, List.utf8Encode]
  exact List.toList_data_toByteArray

end ContainerAttach
