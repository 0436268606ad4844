import ContainerAttach.Bytes
import ContainerAttach.IoError
import ContainerAttach.Path

/-!
# The file system

Sockets are found by name, so a session depends on a few facts about files:
which names a directory has, what stands behind them, and where links lead.  A
file system is a list of nodes and a list of directory entries.  A node is
known by its place in the list, and places are never used again, so a socket
that was removed is never mistaken for a later one of the same name.

Resolving a path walks through its pieces.  A link is replaced by the pieces of
its target, and only so many links are followed.
-/

namespace ContainerAttach

/-- What can stand behind a name. -/
inductive FileNode where
  | directory (parent : Nat)
  | file
  | socket (mode : Nat)
  | link (target : Bytes)
  deriving DecidableEq, Repr

/-- A name in a directory, and the node behind it. -/
structure DirEntry where
  dir : Nat
  name : Bytes
  node : Nat
  deriving DecidableEq, Repr

/-- The nodes, by number, and the names they have. -/
structure FileSystem where
  nodes : List FileNode
  entries : List DirEntry
  deriving DecidableEq, Repr

namespace FileSystem

/-- The number of the root directory. -/
def root : Nat := 0

/-- The number of the working directory. -/
def workingDirectory : Nat := 1

/-- An empty working directory, somewhere below the root. -/
def empty : FileSystem :=
  { nodes := [.directory 0, .directory 0], entries := [] }

/-- The longest name of one directory entry. -/
def nameLimit : Nat := 255

/-- A path of this length is refused as a whole. -/
def pathLimit : Nat := 4096

/-- The number of links that one resolution follows. -/
def linkLimit : Nat := 40

def child? (fs : FileSystem) (dir : Nat) (name : Bytes) : Option Nat :=
  (fs.entries.find? fun entry => entry.dir == dir && entry.name == name).map DirEntry.node

/-- Walks from a node through the pieces of a path.  A link at the very end is followed
only on demand. -/
def walk (fs : FileSystem) (follow : Bool) (links : Nat) (node : Nat) :
    List Bytes → Except IoError Nat
  | [] => .ok node
  | piece :: rest =>
    match fs.nodes[node]? with
    | some (.directory parent) =>
      if Path.isIdle piece then walk fs follow links node rest
      else if piece = [0x2e, 0x2e] then walk fs follow links parent rest
      else if nameLimit < piece.length then .error (.os 36)
      else
        match fs.child? node piece with
        | none => .error (.os 2)
        | some next =>
          match fs.nodes[next]? with
          | some (.link target) =>
            if rest.isEmpty && !follow then .ok next
            else
              match links with
              | 0 => .error (.os 40)
              | links + 1 =>
                walk fs follow links (if Path.isAbsolute target then root else node)
                  (Path.pieces target ++ rest)
          | _ => walk fs follow links next rest
    | _ => .error (.os 20)
termination_by pieces => (links, pieces.length)

/-- The node that a path leads to. -/
def resolve (fs : FileSystem) (follow : Bool) (path : Bytes) : Except IoError Nat :=
  if path = [] then .error (.os 2)
  else if pathLimit ≤ path.length then .error (.os 36)
  else
    walk fs follow linkLimit (if Path.isAbsolute path then root else workingDirectory)
      (Path.pieces path)

/-- The error of a call that is given a path with a zero byte in it. -/
def zeroByteInPath : IoError :=
  .custom .invalidInput "file name contained an unexpected NUL byte"

/-- The node that a caller's path leads to.  Callers may not use zero bytes. -/
def find (fs : FileSystem) (follow : Bool) (path : Bytes) : Except IoError Nat :=
  if path.contains 0 then .error zeroByteInPath else fs.resolve follow path

/-- Opens what a path leads to, for reading.  A socket cannot be opened. -/
def openNode (fs : FileSystem) (path : Bytes) : Except IoError Nat :=
  match fs.find true path with
  | .error error => .error error
  | .ok node =>
    match fs.nodes[node]? with
    | some (.socket _) => .error (.os 6)
    | _ => .ok node

def isSocket (fs : FileSystem) (node : Nat) : Bool :=
  match fs.nodes[node]? with
  | some (.socket _) => true
  | _ => false

def isDirectory (fs : FileSystem) (node : Nat) : Bool :=
  match fs.nodes[node]? with
  | some (.directory _) => true
  | _ => false

/-- The permission bits of a socket. -/
def mode? (fs : FileSystem) (node : Nat) : Option Nat :=
  match fs.nodes[node]? with
  | some (.socket mode) => some mode
  | _ => none

/-- Whether a path names anything, with a link counted as itself. -/
def hasEntry (fs : FileSystem) (path : Bytes) : Bool :=
  (fs.find false path).isOk

end FileSystem

end ContainerAttach
