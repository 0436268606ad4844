import ContainerAttach.Bytes
import ContainerAttach.IoError

/-!
# Socket addresses

A socket is named to the operating system by an address with a field of fixed
size for the path, padded with zero bytes, and by the length of what is used of
it.  The operating system reads the name back from the field: up to the first
zero byte it is a path, unless the field starts with one, which stands for a
name outside the file system.
-/

namespace ContainerAttach

/-- The size of the path field of an address. -/
def addressCapacity : Nat := 108

/-- An address, with the bytes before the path field counted in its length. -/
structure SocketAddress where
  field : Bytes
  length : Nat
  deriving DecidableEq, Repr

/-- The name that an address is read as. -/
inductive SocketName where
  | path (bytes : Bytes)
  | abstract (bytes : Bytes)
  deriving DecidableEq, Repr

namespace SocketAddress

/-- The number of bytes before the path field. -/
def pathOffset : Nat := 2

/-- The address of a path.  The path and a closing zero byte must fit into the field. -/
def ofPath (path : Bytes) : Except IoError SocketAddress :=
  if addressCapacity ≤ path.length then
    .error (.custom .invalidInput "socket path does not fit sun_path")
  else
    .ok
      { field := path ++ List.replicate (addressCapacity - path.length) 0
        length := pathOffset + path.length + 1 }

/-- The name that the operating system reads. -/
def name (address : SocketAddress) : SocketName :=
  match address.field.take (address.length - pathOffset) with
  | 0 :: rest => .abstract rest
  | given => .path (given.takeWhile (· != 0))

end SocketAddress

end ContainerAttach
