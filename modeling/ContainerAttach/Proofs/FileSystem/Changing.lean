import ContainerAttach.Proofs.FileSystem.Walking

/-!
# Changes of the file system

A change may spare everything that is not a socket (`FileSystem.Spares`).  Then every walk that
does not end at a socket is still there, and so is the place that a path ends in
(`FileSystem.Reaches.of_spares`).

Any change at all that others make is an evolution (`FileSystem.Evolves`): a node keeps its
number, and the number is never given to another one.  So a socket is known by its number,
whatever happens to its names.  Making, removing and moving are such changes.
-/

namespace ContainerAttach

namespace FileSystem

variable {fs after : FileSystem}

/-! ## Looking up -/

theorem child?_enter (fs : FileSystem) (dir : Nat) (name : Bytes) (node : FileNode) (other : Nat)
    (piece : Bytes) :
    (fs.enter dir name node).child? other piece =
      if other = dir ∧ piece = name then some fs.nodes.length else fs.child? other piece := by
  unfold child? enter
  rw [List.find?_cons]
  by_cases hsame : other = dir ∧ piece = name
  · obtain ⟨rfl, rfl⟩ := hsame
    simp
  · have hnot : (dir == other && name == piece) = false := by
      simp only [Bool.and_eq_false_iff, beq_eq_false_iff_ne]
      by_cases hdir : dir = other
      · exact Or.inr fun hname => hsame ⟨hdir.symm, hname.symm⟩
      · exact Or.inl hdir
    simp [hnot, hsame]

theorem child?_removeEntry (fs : FileSystem) (place : Place) (other : Nat) (piece : Bytes) :
    (fs.removeEntry place).child? other piece =
      if other = place.dir ∧ piece = place.name then none else fs.child? other piece := by
  unfold child? removeEntry
  dsimp only
  rw [List.find?_filter]
  by_cases hsame : other = place.dir ∧ piece = place.name
  · obtain ⟨rfl, rfl⟩ := hsame
    rw [if_pos ⟨rfl, rfl⟩, Option.map_eq_none_iff, List.find?_eq_none]
    intro entry _
    cases entry.dir == place.dir && entry.name == place.name <;> simp
  · rw [if_neg hsame]
    congr 2
    funext entry
    by_cases hentry : (entry.dir == other && entry.name == piece) = true
    · simp only [Bool.and_eq_true, beq_iff_eq] at hentry
      obtain ⟨rfl, rfl⟩ := hentry
      simpa using Decidable.not_and_iff_not_or_not.mp hsame
    · simp [hentry]

/-! ## Sparing everything but sockets -/

theorem ne_socket_of_isSocket {number : Nat} {node : FileNode}
    (hnode : fs.nodes[number]? = some node) (hsocket : fs.isSocket number = false) (mode : Nat) :
    node ≠ .socket mode := by
  rintro rfl
  rw [isSocket, hnode] at hsocket
  exact absurd hsocket (by simp)

theorem isSocket_of_link {number : Nat} {target : Bytes}
    (hnode : fs.nodes[number]? = some (.link target)) : fs.isSocket number = false := by
  rw [isSocket, hnode]

/-- The names and nodes of everything that is not a socket are kept. -/
structure Spares (fs after : FileSystem) : Prop where
  node_eq : ∀ {number : Nat} {node : FileNode}, fs.nodes[number]? = some node →
    (∀ mode, node ≠ .socket mode) → after.nodes[number]? = some node
  child_eq : ∀ {dir : Nat} {name : Bytes} {node : Nat}, fs.child? dir name = some node →
    fs.isSocket node = false → after.child? dir name = some node

theorem Spares.refl (fs : FileSystem) : fs.Spares fs :=
  ⟨fun hnode _ => hnode, fun hchild _ => hchild⟩

theorem Spares.isDirectory (hspares : fs.Spares after) {node : Nat}
    (hdirectory : fs.isDirectory node = true) : after.isDirectory node = true := by
  obtain ⟨parent, hnode⟩ := isDirectory_iff.mp hdirectory
  exact isDirectory_iff.mpr ⟨parent, hspares.node_eq hnode (by simp)⟩

theorem Spares.isSocket (hspares : fs.Spares after) {node : Nat} (hlt : node < fs.nodes.length)
    (hsocket : fs.isSocket node = false) : after.isSocket node = false := by
  have hnode := List.getElem?_eq_getElem hlt
  rw [FileSystem.isSocket, hspares.node_eq hnode (ne_socket_of_isSocket hnode hsocket), ← hnode]
  exact hsocket

theorem Spares.trans {last : FileSystem} (hsound : fs.Sound) (hfirst : fs.Spares after)
    (hsecond : after.Spares last) : fs.Spares last where
  node_eq hnode hmode := hsecond.node_eq (hfirst.node_eq hnode hmode) hmode
  child_eq hchild hsocket :=
    hsecond.child_eq (hfirst.child_eq hchild hsocket)
      (hfirst.isSocket (hsound.child_lt hchild) hsocket)

/-- There is nothing at the place, or a socket. -/
def Free (fs : FileSystem) (place : Place) : Prop :=
  ∀ node, fs.nodeAt? place = some node → fs.isSocket node = true

theorem free_of_vacant {place : Place} (hvacant : fs.nodeAt? place = none) : fs.Free place :=
  fun _ hnode => nomatch hvacant.symm.trans hnode

theorem free_of_isSocket {place : Place} {node : Nat} (hnode : fs.nodeAt? place = some node)
    (hsocket : fs.isSocket node = true) : fs.Free place := by
  intro other hother
  rwa [← Option.some.inj (hnode.symm.trans hother)]

theorem spares_removeEntry {place : Place} (hfree : fs.Free place) :
    fs.Spares (fs.removeEntry place) where
  node_eq hnode _ := hnode
  child_eq := by
    intro dir name node hchild hnot
    rw [child?_removeEntry]
    split
    · next hsame =>
      obtain ⟨rfl, rfl⟩ := hsame
      exact absurd ((hfree node hchild).symm.trans hnot) (by simp)
    · exact hchild

theorem spares_enter {dir : Nat} {name : Bytes} (hvacant : fs.child? dir name = none)
    (node : FileNode) : fs.Spares (fs.enter dir name node) where
  node_eq hnode _ := by
    rw [enter, List.getElem?_append_left (List.getElem?_eq_some_iff.mp hnode).1]
    exact hnode
  child_eq := by
    intro other piece child hchild _
    rw [child?_enter]
    split
    · next hsame =>
      obtain ⟨rfl, rfl⟩ := hsame
      exact absurd (hvacant.symm.trans hchild) (by simp)
    · exact hchild

/-! ## Walks in what is spared -/

theorem Spares.names (hspares : fs.Spares after) {dir node : Nat} {piece : Bytes}
    (hnames : fs.Names dir piece node) (hsocket : fs.isSocket node = false) :
    after.Names dir piece node :=
  { hnames with
    directory := hspares.isDirectory hnames.directory
    child_eq := hspares.child_eq hnames.child_eq hsocket }

/-- A walk that does not end at a socket has passed none. -/
theorem Walks.of_spares {follow : Bool} {links node last : Nat} {pieces : List Bytes}
    (hsound : fs.Sound) (hspares : fs.Spares after)
    (hwalks : fs.Walks follow links node pieces last) (hlast : fs.isSocket last = false) :
    after.Walks follow links node pieces last := by
  induction hwalks with
  | here links node => exact .here links node
  | idle directory idle walks ih => exact .idle (hspares.isDirectory directory) idle (ih hlast)
  | up node_eq walks ih => exact .up (hspares.node_eq node_eq (by simp)) (ih hlast)
  | stop names link not_follow =>
      exact .stop (hspares.names names hlast) (hspares.node_eq link (by simp)) not_follow
  | jump names link goes_on walks ih =>
      have hnext : fs.isSocket _ = false := isSocket_of_link link
      exact .jump (hspares.names names hnext) (hspares.node_eq link (by simp)) goes_on (ih hlast)
  | @down links node next last piece rest names not_link walks ih =>
      -- a socket can only be the end, since nothing can be walked on from it
      have hnext : fs.isSocket next = false := by
        cases rest with
        | nil =>
            cases walks
            exact hlast
        | cons piece rest => exact isSocket_of_isDirectory walks.isDirectory
      refine .down (hspares.names names hnext) ?_ (ih hlast)
      have hnode := List.getElem?_eq_getElem (hsound.child_lt names.child_eq)
      rw [hspares.node_eq hnode (ne_socket_of_isSocket hnode hnext), ← hnode]
      exact not_link

theorem Reaches.of_spares {path : Bytes} {place : Place} (hsound : fs.Sound)
    (hspares : fs.Spares after) (hreaches : fs.Reaches path place) :
    after.Reaches path place := by
  obtain ⟨hpath, ⟨before, empties, hlast, hslashed, hwalks⟩, hdirectory, hlength⟩ := hreaches
  exact ⟨hpath, ⟨before, empties, hlast, hslashed,
    hwalks.of_spares hsound hspares (isSocket_of_isDirectory hdirectory)⟩,
    hspares.isDirectory hdirectory, hlength⟩

/-! ## Evolution -/

/-- A node keeps its number, and no number is given to another one. -/
structure Evolves (fs after : FileSystem) : Prop where
  sound : after.Sound
  length_le : fs.nodes.length ≤ after.nodes.length
  isSocket_eq : ∀ node < fs.nodes.length, after.isSocket node = fs.isSocket node

theorem Evolves.refl (hsound : fs.Sound) : fs.Evolves fs :=
  ⟨hsound, Nat.le_refl _, fun _ _ => rfl⟩

theorem Evolves.trans {last : FileSystem} (hfirst : fs.Evolves after)
    (hsecond : after.Evolves last) : fs.Evolves last where
  sound := hsecond.sound
  length_le := Nat.le_trans hfirst.length_le hsecond.length_le
  isSocket_eq node hlt :=
    (hsecond.isSocket_eq node (Nat.lt_of_lt_of_le hlt hfirst.length_le)).trans
      (hfirst.isSocket_eq node hlt)

theorem lt_of_isDirectory {node : Nat} (hdirectory : fs.isDirectory node = true) :
    node < fs.nodes.length := by
  obtain ⟨parent, hnode⟩ := isDirectory_iff.mp hdirectory
  exact (List.getElem?_eq_some_iff.mp hnode).1

theorem lt_of_isSocket {node : Nat} (hsocket : fs.isSocket node = true) :
    node < fs.nodes.length := by
  obtain ⟨mode, hnode⟩ := isSocket_iff.mp hsocket
  exact (List.getElem?_eq_some_iff.mp hnode).1

/-- A new directory is in one that is there. -/
def Placed (fs : FileSystem) : FileNode → Prop
  | .directory parent => fs.isDirectory parent = true
  | _ => True

theorem nodes_enter_of_lt {dir : Nat} {name : Bytes} {node : FileNode} {number : Nat}
    (hlt : number < fs.nodes.length) :
    (fs.enter dir name node).nodes[number]? = fs.nodes[number]? :=
  List.getElem?_append_left hlt

theorem evolves_enter {node : FileNode} (hsound : fs.Sound) (hplaced : fs.Placed node)
    (dir : Nat) (name : Bytes) : fs.Evolves (fs.enter dir name node) := by
  have hdirectory : ∀ number, fs.isDirectory number = true →
      (fs.enter dir name node).isDirectory number = true := by
    intro number hnumber
    rwa [isDirectory, nodes_enter_of_lt (lt_of_isDirectory hnumber)]
  refine ⟨⟨?_, ?_⟩, ?_, ?_⟩
  · intro other piece child hchild
    rw [enter, List.length_append, List.length_singleton]
    rw [child?_enter] at hchild
    split at hchild
    · obtain rfl := Option.some.inj hchild
      exact Nat.lt_succ_self _
    · exact Nat.lt_succ_of_lt (hsound.child_lt hchild)
  · intro number parent hnode
    rw [enter, List.getElem?_append] at hnode
    split at hnode
    · exact hdirectory parent (hsound.parent_isDirectory hnode)
    · obtain rfl : node = .directory parent := by
        rw [List.getElem?_singleton] at hnode
        split at hnode
        · exact Option.some.inj hnode
        · exact nomatch hnode
      exact hdirectory parent hplaced
  · rw [enter, List.length_append]
    exact Nat.le_add_right _ _
  · intro number hlt
    rw [isSocket, nodes_enter_of_lt hlt, isSocket]

/-- Fewer names are as sound. -/
theorem Sound.of_fewer (hsound : fs.Sound) (hnodes : after.nodes = fs.nodes)
    (hchild : ∀ {dir : Nat} {name : Bytes} {node : Nat}, after.child? dir name = some node →
      fs.child? dir name = some node) : after.Sound where
  child_lt hnode := by
    rw [hnodes]
    exact hsound.child_lt (hchild hnode)
  parent_isDirectory hnode := by
    rw [hnodes] at hnode
    rw [isDirectory, hnodes]
    exact hsound.parent_isDirectory hnode

theorem child?_of_removeEntry {place : Place} {dir node : Nat} {name : Bytes}
    (hchild : (fs.removeEntry place).child? dir name = some node) :
    fs.child? dir name = some node := by
  rw [child?_removeEntry] at hchild
  split at hchild
  · exact nomatch hchild
  · exact hchild

theorem evolves_removeEntry (hsound : fs.Sound) (place : Place) :
    fs.Evolves (fs.removeEntry place) :=
  ⟨hsound.of_fewer rfl child?_of_removeEntry, Nat.le_refl _, fun _ _ => rfl⟩

/-! ### Moving -/

theorem nodes_move (node : Nat) (origin target : Place) (number : Nat) :
    (fs.move node origin target).nodes[number]? =
      (fs.nodes[number]?).map fun found =>
        if node = number then found.movedTo target.dir else found :=
  List.getElem?_modify ..

theorem isSocket_move (node : Nat) (origin target : Place) (number : Nat) :
    (fs.move node origin target).isSocket number = fs.isSocket number := by
  rw [isSocket, isSocket, nodes_move]
  rcases fs.nodes[number]? with _ | found
  · rfl
  · by_cases hsame : node = number
    · cases found <;> simp [hsame, FileNode.movedTo]
    · simp [hsame]

theorem isDirectory_move (node : Nat) (origin target : Place) (number : Nat) :
    (fs.move node origin target).isDirectory number = fs.isDirectory number := by
  rw [isDirectory, isDirectory, nodes_move]
  rcases fs.nodes[number]? with _ | found
  · rfl
  · by_cases hsame : node = number
    · cases found <;> simp [hsame, FileNode.movedTo]
    · simp [hsame]

/-- Under a name there is what was there before, or what was moved there. -/
theorem child?_of_move {node dir child : Nat} {origin target : Place} {name : Bytes}
    (hchild : (fs.move node origin target).child? dir name = some child) :
    child = node ∨ fs.child? dir name = some child := by
  unfold child? move at hchild
  dsimp only at hchild
  rw [List.find?_cons] at hchild
  split at hchild
  · exact Or.inl (Option.some.inj hchild).symm
  · exact Or.inr (child?_of_removeEntry (child?_of_removeEntry hchild))

theorem evolves_move (hsound : fs.Sound) {node : Nat} (origin : Place) {target : Place}
    (hnode : node < fs.nodes.length) (htarget : fs.isDirectory target.dir = true) :
    fs.Evolves (fs.move node origin target) := by
  have hlength : (fs.move node origin target).nodes.length = fs.nodes.length := by
    simp [move]
  refine ⟨⟨?_, ?_⟩, Nat.le_of_eq hlength.symm, fun number _ => isSocket_move ..⟩
  · intro dir name child hchild
    rw [hlength]
    rcases child?_of_move hchild with rfl | hbefore
    · exact hnode
    · exact hsound.child_lt hbefore
  · intro number parent hparent
    rw [isDirectory_move]
    rw [nodes_move, Option.map_eq_some_iff] at hparent
    obtain ⟨found, hfound, hmoved⟩ := hparent
    split at hmoved
    · cases found with
      | directory before =>
          obtain rfl := FileNode.directory.inj hmoved
          exact htarget
      | file | socket | link => exact nomatch hmoved
    · rw [hmoved] at hfound
      exact hsound.parent_isDirectory hfound

/-! ### What others can do -/

theorem createAt_eq_ok {place : Place} {node : FileNode}
    (hcreate : fs.createAt place node = .ok after) :
    Path.isDots place.name = false ∧ fs.nodeAt? place = none ∧
      after = fs.enter place.dir place.name node := by
  unfold createAt at hcreate
  split at hcreate
  · exact nomatch hcreate
  · next hfree =>
    rw [not_or] at hfree
    exact ⟨by simpa using hfree.1, by simpa using hfree.2, (Except.ok.inj hcreate).symm⟩

theorem evolves_createAt (hsound : fs.Sound) {place : Place} {node : FileNode}
    (hplaced : fs.Placed node) (hcreate : fs.createAt place node = .ok after) :
    fs.Evolves after := by
  obtain ⟨-, -, rfl⟩ := createAt_eq_ok hcreate
  exact evolves_enter hsound hplaced _ _

theorem evolves_create (hsound : fs.Sound) {path : Bytes} {node : FileNode}
    (hplaced : fs.Placed node) (hcreate : fs.create path node = .ok after) :
    fs.Evolves after := by
  unfold create at hcreate
  split at hcreate
  · exact nomatch hcreate
  · split at hcreate
    · exact nomatch hcreate
    · next created hcreated =>
      split at hcreate
      · exact nomatch hcreate
      · obtain rfl := Except.ok.inj hcreate
        exact evolves_createAt hsound hplaced hcreated

theorem evolves_makeDirectory (hsound : fs.Sound) {path : Bytes}
    (hmake : fs.makeDirectory path = .ok after) : fs.Evolves after := by
  unfold makeDirectory at hmake
  split at hmake
  · exact nomatch hmake
  · next place hplace =>
    obtain ⟨hdots, -, rfl⟩ := createAt_eq_ok hmake
    have hplaced : fs.Placed (.directory place.dir) := (reaches_of_place hplace hdots).directory
    exact evolves_enter hsound hplaced _ _

theorem evolves_makeLink (hsound : fs.Sound) {path target : Bytes}
    (hmake : fs.makeLink path target = .ok after) : fs.Evolves after := by
  unfold makeLink at hmake
  split at hmake
  · exact nomatch hmake
  · split at hmake
    · exact nomatch hmake
    · split at hmake
      · exact nomatch hmake
      · have hplaced : fs.Placed (.link target) := trivial
        exact evolves_create hsound hplaced hmake

theorem evolves_makeFile (hsound : fs.Sound) {path : Bytes}
    (hmake : fs.makeFile path = .ok after) : fs.Evolves after := by
  unfold makeFile at hmake
  split at hmake
  · cases hmake
  · cases hmake
  · split at hmake
    · cases hmake
    · split at hmake
      · cases hmake
      · unfold makeFileAt at hmake
        split at hmake
        · have hplaced : fs.Placed .file := trivial
          exact evolves_createAt hsound hplaced hmake
        · split at hmake
          · cases hmake
          · split at hmake
            · cases hmake
            · obtain rfl := Except.ok.inj hmake
              exact .refl hsound

theorem remove_eq_ok {path : Bytes} (hremove : fs.remove path = .ok after) :
    ∃ place, fs.place path = .ok place ∧ Path.isDots place.name = false ∧
      after = fs.removeEntry place := by
  unfold remove at hremove
  split at hremove
  · cases hremove
  · next place hplace =>
    split at hremove
    · cases hremove
    · next hdots =>
      split at hremove
      · cases hremove
      · split at hremove
        · cases hremove
        · exact ⟨place, hplace, by simpa using hdots, (Except.ok.inj hremove).symm⟩

theorem evolves_remove (hsound : fs.Sound) {path : Bytes} (hremove : fs.remove path = .ok after) :
    fs.Evolves after := by
  obtain ⟨place, -, -, rfl⟩ := remove_eq_ok hremove
  exact evolves_removeEntry hsound place

theorem evolves_rename (hsound : fs.Sound) {path target : Bytes}
    (hrename : fs.rename path target = .ok after) : fs.Evolves after := by
  unfold rename at hrename
  split at hrename
  · cases hrename
  · split at hrename
    · cases hrename
    · cases hrename
    · next origin place _ hplace =>
      split at hrename
      · cases hrename
      · next hdots =>
        split at hrename
        · cases hrename
        · next node hnode =>
          simp only [Bool.or_eq_true, not_or, Bool.not_eq_true] at hdots
          have hmove := evolves_move hsound origin (hsound.child_lt hnode)
            (reaches_of_place hplace hdots.2).directory
          unfold moveTo at hrename
          split at hrename
          · cases hrename
          · split at hrename
            · cases hrename
            · split at hrename
              · obtain rfl := Except.ok.inj hrename
                exact hmove
              · split at hrename
                · obtain rfl := Except.ok.inj hrename
                  exact .refl hsound
                · split at hrename
                  · cases hrename
                  · obtain rfl := Except.ok.inj hrename
                    exact hmove

end FileSystem

/-- Something that others do to the file system. -/
structure OutsideChange where
  apply : FileSystem → FileSystem
  evolves : ∀ {files : FileSystem}, files.Sound → files.Evolves (apply files)

namespace OutsideChange

/-- An attempt at a change, which leaves the file system as it was if it fails. -/
def attempt (change : FileSystem → Except IoError FileSystem)
    (evolves : ∀ {files after : FileSystem}, files.Sound → change files = .ok after →
      files.Evolves after) : OutsideChange where
  apply files :=
    match change files with
    | .ok after => after
    | .error _ => files
  evolves := by
    intro files hsound
    split
    · next after hchange => exact evolves hsound hchange
    · exact .refl hsound

/-- One change after another. -/
def andThen (first second : OutsideChange) : OutsideChange where
  apply files := second.apply (first.apply files)
  evolves hsound := (first.evolves hsound).trans (second.evolves (first.evolves hsound).sound)

def makeFile (path : Bytes) : OutsideChange :=
  attempt (·.makeFile path) fun hsound happly => FileSystem.evolves_makeFile hsound happly

def makeDirectory (path : Bytes) : OutsideChange :=
  attempt (·.makeDirectory path) fun hsound happly => FileSystem.evolves_makeDirectory hsound happly

def makeLink (path target : Bytes) : OutsideChange :=
  attempt (·.makeLink path target) fun hsound happly => FileSystem.evolves_makeLink hsound happly

/-- Somebody else's socket. -/
def makeSocket (path : Bytes) (mode : Nat) : OutsideChange :=
  attempt (·.create path (.socket mode)) fun hsound => FileSystem.evolves_create hsound trivial

def remove (path : Bytes) : OutsideChange :=
  attempt (·.remove path) fun hsound happly => FileSystem.evolves_remove hsound happly

def rename (path target : Bytes) : OutsideChange :=
  attempt (·.rename path target) fun hsound happly => FileSystem.evolves_rename hsound happly

/-- What stands at a path makes room for a file. -/
def replace (path : Bytes) : OutsideChange :=
  (remove path).andThen (makeFile path)

end OutsideChange

end ContainerAttach
