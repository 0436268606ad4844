import ContainerAttach.FileSystem

/-!
# Changing the file system

What is made, removed or moved is a name in a directory.  `Place` says which one
a path ends in, whether or not anything has that name yet.  A link at the end of
the path is the thing itself and is not followed, except where a file is made:
that goes to where the links lead.

A directory knows the directory it is in, so a move tells it the new one.
-/

namespace ContainerAttach

/-- A name in a directory, as the end of a path. -/
structure Place where
  dir : Nat
  name : Bytes
  /-- Whether slashes follow the name, which then can only be a directory's. -/
  slashed : Bool
  deriving DecidableEq, Repr

/-- A node as it is after a move: a directory is in another directory then. -/
def FileNode.movedTo (dir : Nat) : FileNode → FileNode
  | .directory _ => .directory dir
  | node => node

namespace FileSystem

/-! ## Where a path ends -/

/-- The place that a path ends in, looked up from a directory.  The root is a dot in itself. -/
def placeFrom (fs : FileSystem) (start : Nat) (path : Bytes) : Except IoError Place :=
  let backwards := (Path.pieces path).reverse
  match backwards.dropWhile (· = []) with
  | [] => .ok ⟨root, [PathLetter.dot], true⟩
  | name :: before =>
    match walk fs true linkLimit (if Path.isAbsolute path then root else start) before.reverse with
    | .error cause => .error cause
    | .ok dir =>
      if !fs.isDirectory dir then .error (.os 20)
      else if nameLimit < name.length then .error (.os 36)
      else .ok ⟨dir, name, backwards.head? = some []⟩

def place (fs : FileSystem) (path : Bytes) : Except IoError Place :=
  if path.contains 0 then .error zeroByteInPath
  else if path = [] then .error (.os 2)
  else if pathLimit ≤ path.length then .error (.os 36)
  else fs.placeFrom workingDirectory path

def nodeAt? (fs : FileSystem) (place : Place) : Option Nat :=
  fs.child? place.dir place.name

/-- The place to which so many links lead at most.  A name with slashes after it is not looked
up, because nothing but a directory could be there. -/
def followLinks (fs : FileSystem) : Nat → Place → Except IoError Place
  | 0, place => .ok place
  | links + 1, place =>
    if place.slashed then .error (.os 21)
    else
      match (fs.nodeAt? place).bind (fs.nodes[·]?) with
      | some (.link target) =>
        match fs.placeFrom place.dir target with
        | .error cause => .error cause
        | .ok next => followLinks fs links next
      | _ => .ok place

/-! ## Making -/

/-- The file system with a new node under a vacant name. -/
def enter (fs : FileSystem) (dir : Nat) (name : Bytes) (node : FileNode) : FileSystem :=
  { nodes := fs.nodes ++ [node], entries := ⟨dir, name, fs.nodes.length⟩ :: fs.entries }

/-- Makes a node at a place.  Nothing may stand there, not even a link that leads nowhere. -/
def createAt (fs : FileSystem) (place : Place) (node : FileNode) : Except IoError FileSystem :=
  if Path.isDots place.name ∨ (fs.nodeAt? place).isSome then .error (.os 17)
  else .ok (fs.enter place.dir place.name node)

/-- Makes a node that is no directory, so that no slashes may follow a vacant name. -/
def create (fs : FileSystem) (path : Bytes) (node : FileNode) : Except IoError FileSystem :=
  match fs.place path with
  | .error cause => .error cause
  | .ok place =>
    match fs.createAt place node with
    | .error cause => .error cause
    | .ok after => if place.slashed then .error (.os 2) else .ok after

def makeDirectory (fs : FileSystem) (path : Bytes) : Except IoError FileSystem :=
  match fs.place path with
  | .error cause => .error cause
  | .ok place => fs.createAt place (.directory place.dir)

def leadsToDirectory (fs : FileSystem) (path : Bytes) : Bool :=
  match fs.find true path with
  | .ok node => fs.isDirectory node
  | .error _ => false

def ensureDirectory (fs : FileSystem) (path : Bytes) : Except IoError FileSystem :=
  match fs.makeDirectory path with
  | .ok fs => .ok fs
  | .error cause =>
    if cause = .os 17 ∧ fs.leadsToDirectory path then .ok fs else .error cause

/-- Makes the first of some directories, each of which is in the next one, after those that
are missing.  They stay also if the first cannot be made itself. -/
def ensureChain (fs : FileSystem) : List Bytes → Except IoError Unit × FileSystem
  | [] => (.ok (), fs)
  | path :: above =>
    match fs.ensureDirectory path with
    | .ok fs => (.ok (), fs)
    | .error cause =>
      if cause ≠ .os 2 then (.error cause, fs)
      else
        match ensureChain fs above with
        | (.error cause, fs) => (.error cause, fs)
        | (.ok (), fs) =>
          match fs.ensureDirectory path with
          | .ok fs => (.ok (), fs)
          | .error cause => (.error cause, fs)

/-- Makes a directory together with the directories above it that are missing. -/
def makeDirectories (fs : FileSystem) (path : Bytes) : Except IoError Unit × FileSystem :=
  let pieces := (Path.trimEnd (Path.pieces path)).dropLast
  let above := (List.range pieces.length).map fun i =>
    Path.join (pieces.take (pieces.length - i))
  if path = [] then (.ok (), fs) else fs.ensureChain (path :: above.filter (· ≠ []))

/-- Makes an empty file at a place, or opens the one that is there for writing. -/
def makeFileAt (fs : FileSystem) (place : Place) : Except IoError FileSystem :=
  match fs.nodeAt? place with
  | none => fs.createAt place .file
  | some node =>
    if fs.isDirectory node then .error (.os 21)
    else if fs.isSocket node then .error (.os 6)
    else .ok fs

/-- Makes an empty file where a path leads, also if its links lead to nothing yet. -/
def makeFile (fs : FileSystem) (path : Bytes) : Except IoError FileSystem :=
  match fs.place path, fs.find true path with
  | .error cause, _ => .error cause
  | .ok _, .error (.os 40) => .error (.os 40)
  | .ok place, _ =>
    match fs.followLinks linkLimit place with
    | .error cause => .error cause
    | .ok place => if Path.isDots place.name then .error (.os 21) else fs.makeFileAt place

def makeLink (fs : FileSystem) (path target : Bytes) : Except IoError FileSystem :=
  if target.contains 0 then .error zeroByteInPath
  else if target = [] then .error (.os 2)
  else if pathLimit ≤ target.length then .error (.os 36)
  else fs.create path (.link target)

/-! ## Removing -/

/-- The file system without the entry at a place. -/
def removeEntry (fs : FileSystem) (place : Place) : FileSystem :=
  { fs with
    entries :=
      fs.entries.filter fun entry => !(entry.dir == place.dir && entry.name == place.name) }

def remove (fs : FileSystem) (path : Bytes) : Except IoError FileSystem :=
  match fs.place path with
  | .error cause => .error cause
  | .ok place =>
    if Path.isDots place.name then .error (.os 21)
    else
      match fs.nodeAt? place with
      | none => .error (.os 2)
      | some node =>
        if place.slashed && !fs.isDirectory node then .error (.os 20)
        else .ok (fs.removeEntry place)

/-! ## Permissions -/

/-- Sets the permission bits of what a path leads to.  Only those of a socket are kept here. -/
def setMode (fs : FileSystem) (path : Bytes) (mode : Nat) : Except IoError FileSystem :=
  match fs.find true path with
  | .error cause => .error cause
  | .ok node =>
    if fs.isSocket node then .ok { fs with nodes := fs.nodes.set node (.socket mode) }
    else .ok fs

/-! ## Moving -/

/-- Whether a directory is empty. -/
def isVacant (fs : FileSystem) (dir : Nat) : Bool :=
  !fs.entries.any fun entry => entry.dir == dir

/-- Whether a directory is another one or lies below it, so many levels up at most. -/
def isWithin (fs : FileSystem) (outer : Nat) : Nat → Nat → Bool
  | 0, dir => dir = outer
  | levels + 1, dir =>
    dir = outer ||
      match fs.nodes[dir]? with
      | some (.directory parent) => isWithin fs outer levels parent
      | _ => false

/-- The file system with a node moved from one place to another, over whatever stood there. -/
def move (fs : FileSystem) (node : Nat) (origin target : Place) : FileSystem :=
  { nodes := fs.nodes.modify node (.movedTo target.dir)
    entries :=
      ⟨target.dir, target.name, node⟩
        :: ((fs.removeEntry origin).removeEntry target).entries }

/-- Why a node may not replace another one: a directory replaces only an empty directory, and
nothing else replaces a directory. -/
def replaceError? (fs : FileSystem) (node old : Nat) : Option IoError :=
  match fs.isDirectory node, fs.isDirectory old with
  | true, false => some (.os 20)
  | false, true => some (.os 21)
  | true, true => if fs.isVacant old then none else some (.os 39)
  | false, false => none

/-- Moves the node at a place to another place. -/
def moveTo (fs : FileSystem) (node : Nat) (origin target : Place) :
    Except IoError FileSystem :=
  if !fs.isDirectory node && (origin.slashed || target.slashed) then .error (.os 20)
  else if fs.isWithin node fs.nodes.length target.dir then .error (.os 22)
  else
    match fs.nodeAt? target with
    | none => .ok (fs.move node origin target)
    | some old =>
      if old = node then .ok fs
      else
        match fs.replaceError? node old with
        | some cause => .error cause
        | none => .ok (fs.move node origin target)

/-- Moves what a path names to another path.  Neither may end in dots. -/
def rename (fs : FileSystem) (path target : Bytes) : Except IoError FileSystem :=
  if target.contains 0 then .error zeroByteInPath
  else
    match fs.place path, fs.place target with
    | .error cause, _ => .error cause
    | _, .error cause => .error cause
    | .ok origin, .ok target =>
      if Path.isDots origin.name || Path.isDots target.name then .error (.os 16)
      else
        match fs.nodeAt? origin with
        | none => .error (.os 2)
        | some node => fs.moveTo node origin target

end FileSystem

end ContainerAttach
