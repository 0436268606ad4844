import ContainerAttach.Proofs.FileSystem.Changing
import ContainerAttach.Proofs.Socket.Names
import ContainerAttach.Socket.Network

/-!
# Listening

A call to listen either leaves all as it was, or puts a new socket in a place where there was
nothing or a socket (`Network.Listens`).  If the operating system refuses a call in between, the
old socket may be gone and the new one missing, or there without a listener.  Otherwise it is only
with a path that has a zero byte in it that a socket may be entered, in a vacant place, and
listening fail afterwards: the operating system and the program read such a path in different
ways.

Dropping a listener removes the very socket that it made, or none (`Network.Drops`).
-/

namespace ContainerAttach

namespace FileSystem

variable {fs : FileSystem} {path : Bytes} {place : Place} {node : Nat}

/-! ## One place -/

/-- The file system with a new node at a place, instead of what was there. -/
def put (fs : FileSystem) (place : Place) (node : FileNode) : FileSystem :=
  (fs.removeEntry place).enter place.dir place.name node

theorem child?_put (fs : FileSystem) (place : Place) (node : FileNode) (dir : Nat)
    (name : Bytes) :
    (fs.put place node).child? dir name =
      if dir = place.dir ∧ name = place.name then some fs.nodes.length else fs.child? dir name := by
  rw [put, child?_enter, child?_removeEntry]
  split <;> rfl

theorem nodeAt?_put (fs : FileSystem) (place : Place) (node : FileNode) :
    (fs.put place node).nodeAt? place = some fs.nodes.length := by
  rw [nodeAt?, child?_put, if_pos ⟨rfl, rfl⟩]

theorem nodeAt?_removeEntry (fs : FileSystem) (place : Place) :
    (fs.removeEntry place).nodeAt? place = none := by
  rw [nodeAt?, child?_removeEntry, if_pos ⟨rfl, rfl⟩]

theorem isSocket_put (fs : FileSystem) (place : Place) (mode : Nat) :
    (fs.put place (.socket mode)).isSocket fs.nodes.length = true :=
  isSocket_iff.mpr ⟨mode, List.getElem?_concat_length⟩

theorem removeEntry_of_vacant (hvacant : fs.nodeAt? place = none) : fs.removeEntry place = fs := by
  rw [nodeAt?, child?, Option.map_eq_none_iff, List.find?_eq_none] at hvacant
  have hentries : fs.entries.filter (fun entry =>
      !(entry.dir == place.dir && entry.name == place.name)) = fs.entries := by
    rw [List.filter_eq_self]
    intro entry hentry
    rw [Bool.not_eq_true']
    exact Bool.eq_false_iff.mpr (hvacant entry hentry)
  rw [removeEntry, hentries]

theorem spares_put (hsound : fs.Sound) (hfree : fs.Free place) (node : FileNode) :
    fs.Spares (fs.put place node) :=
  (spares_removeEntry hfree).trans hsound (spares_enter (fs.nodeAt?_removeEntry place) node)

theorem evolves_put (hsound : fs.Sound) {node : FileNode} (hplaced : fs.Placed node)
    (place : Place) : fs.Evolves (fs.put place node) := by
  have hremoved := evolves_removeEntry hsound place
  refine hremoved.trans (evolves_enter hremoved.sound ?_ place.dir place.name)
  cases node with
  | directory parent => exact hplaced
  | file | socket | link => trivial

/-- A plain name at the end of a path: not dots, and no slashes behind it. -/
structure Plain (place : Place) : Prop where
  not_slashed : place.slashed = false
  not_dots : Path.isDots place.name = false

theorem remove_of_reaches (hreaches : fs.Reaches path place) (hplain : Plain place)
    (hnode : fs.nodeAt? place = some node) : fs.remove path = .ok (fs.removeEntry place) := by
  rw [remove, place_of_reaches hreaches]
  simp [hplain.not_slashed, hplain.not_dots, hnode]

theorem create_of_reaches (hreaches : fs.Reaches path place) (hplain : Plain place)
    (hvacant : fs.nodeAt? place = none) (node : FileNode) :
    fs.create path node = .ok (fs.enter place.dir place.name node) := by
  rw [create, place_of_reaches hreaches]
  simp [createAt, hplain.not_slashed, hplain.not_dots, hvacant]

theorem create_eq_ok {after : FileSystem} {node : FileNode}
    (hcreate : fs.create path node = .ok after) :
    ∃ place, fs.Reaches path place ∧ Plain place ∧ fs.nodeAt? place = none ∧
      after = fs.enter place.dir place.name node := by
  unfold create at hcreate
  split at hcreate
  · exact nomatch hcreate
  · next place hplace =>
    split at hcreate
    · exact nomatch hcreate
    · next created hcreated =>
      obtain ⟨hdots, hvacant, rfl⟩ := createAt_eq_ok hcreated
      split at hcreate
      · exact nomatch hcreate
      · next hslashed =>
        obtain rfl := Except.ok.inj hcreate
        exact ⟨place, reaches_of_place hplace hdots, ⟨by simpa using hslashed, hdots⟩, hvacant,
          rfl⟩

end FileSystem

/-! ## Addresses -/

theorem SocketAddress.name_of_ofPath {path : Bytes} {address : SocketAddress}
    (haddress : ofPath path = .ok address) (hpath : FileSystem.Acceptable path) :
    address.name = .path path := by
  have hzero : (0 : UInt8) ∉ path := by
    intro hmem
    exact absurd (hpath.no_zero.symm.trans (List.contains_iff_mem.mpr hmem)) (by simp)
  rw [name_eq haddress]
  exact SocketName.ofPath_eq_self_iff.mpr ⟨hpath.ne_nil, hzero⟩

theorem SocketAddress.exists_ofPath {path : Bytes} (hlength : path.length < addressCapacity) :
    ∃ address, ofPath path = .ok address :=
  ⟨_, if_neg (Nat.not_le.mpr hlength)⟩

namespace Network

open FileSystem

/-! ## Refusals -/

theorem unlessRefused_eq_ok {α : Type} {refusal : Option IoError} {outcome : Except IoError α}
    {value : α} :
    unlessRefused refusal outcome = .ok value ↔ refusal = none ∧ outcome = .ok value := by
  cases refusal <;> simp [unlessRefused]

/-! ## Making room -/

/-- What is found without following a link at the end is found with it, unless it is a link. -/
theorem find_follow {files : FileSystem} {bytes : Bytes} {node : Nat}
    (hfind : files.find false bytes = .ok node)
    (hlink : ∀ target, files.nodes[node]? ≠ some (.link target)) :
    files.find true bytes = .ok node := by
  obtain ⟨hbytes, hwalks⟩ := FileSystem.find_eq_ok_iff.mp hfind
  exact FileSystem.find_eq_ok_iff.mpr ⟨hbytes, hwalks.follow hlink⟩

theorem find_follow_of_isSocket {files : FileSystem} {bytes : Bytes} {node : Nat}
    (hfind : files.find false bytes = .ok node) (hsocket : files.isSocket node = true) :
    files.find true bytes = .ok node := by
  refine find_follow hfind fun target htarget => ?_
  exact Bool.false_ne_true ((isSocket_of_link htarget).symm.trans hsocket)

/-- Nothing is removed to make room but a socket, and only if that is not refused. -/
theorem clearStale_cases {files after : FileSystem} {bytes : Bytes} {refuses : ListenRefusals}
    (hsound : files.Sound) (hclear : clearStale files bytes refuses = .ok after) :
    after = files ∨ ∃ place node, files.Reaches bytes place ∧ Plain place ∧
      files.nodeAt? place = some node ∧ files.isSocket node = true ∧
        after = files.removeEntry place := by
  unfold clearStale at hclear
  split at hclear
  · exact Or.inl (Except.ok.inj hclear).symm
  · split at hclear
    · exact nomatch hclear
    · next node hfound =>
      split at hclear
      · next hsocket =>
        have hfind := (unlessRefused_eq_ok.mp hfound).2
        have hremove := (unlessRefused_eq_ok.mp hclear).2
        obtain ⟨place, hreaches, hslashed, hdots, hnode⟩ :=
          (find_eq_socket_iff hsound hsocket).mp hfind
        rw [remove_of_reaches hreaches ⟨hslashed, hdots⟩ hnode] at hremove
        exact Or.inr ⟨place, node, hreaches, ⟨hslashed, hdots⟩, hnode, hsocket,
          (Except.ok.inj hremove).symm⟩
      · exact nomatch hclear

/-! ## Binding -/

variable {net after : Network} {path : Bytes} {kind : SocketKind}

/-- The network with a listener for a new socket at a place. -/
def bound (net : Network) (path : Bytes) (kind : SocketKind) (place : Place) (mode : Nat) :
    Network :=
  { net with
    files := net.files.put place (.socket mode)
    listeners := net.listeners ++ [(net.nextListener, ⟨kind, path, net.files.nodes.length, []⟩)]
    nextListener := net.nextListener + 1 }

/-- What a call to listen can do. -/
inductive Listens (net : Network) (path : Bytes) (kind : SocketKind) (refuses : ListenRefusals) :
    Except SocketError Nat × Network → Prop
  | fails (cause : SocketError) : Listens net path kind refuses (.error cause, net)
  /-- A socket is entered where the operating system reads the path to end. -/
  | strays {place : Place} (cause : SocketError) (hidden : ¬ Acceptable path)
      (vacant : net.files.nodeAt? place = none) (mode : Nat) :
      Listens net path kind refuses
        (.error cause,
          { net with files := net.files.enter place.dir place.name (.socket mode) })
  /-- The old socket is removed, and then there is none. -/
  | clears {place : Place} {node : Nat} (cause : SocketError)
      (reaches : net.files.Reaches path place) (plain : Plain place)
      (node_eq : net.files.nodeAt? place = some node)
      (socket : net.files.isSocket node = true) (refused : ∃ call, refuses call ≠ none) :
      Listens net path kind refuses
        (.error cause, { net with files := net.files.removeEntry place })
  /-- There is a new socket, and nobody listens to it. -/
  | leaves {place : Place} (cause : SocketError) (reaches : net.files.Reaches path place)
      (plain : Plain place) (free : net.files.Free place) (mode : Nat)
      (refused : ∃ call, refuses call ≠ none) :
      Listens net path kind refuses
        (.error cause, { net with files := net.files.put place (.socket mode) })
  | binds {place : Place} (reaches : net.files.Reaches path place)
      (plain : Plain place) (free : net.files.Free place) (mode : Nat) :
      Listens net path kind refuses (.ok net.nextListener, net.bound path kind place mode)

/-- Where a socket has been put it is found. -/
theorem find_put {files : FileSystem} {bytes : Bytes} {place : Place} (hsound : files.Sound)
    (hreaches : files.Reaches bytes place) (hplain : Plain place) (hfree : files.Free place)
    (mode : Nat) : (files.put place (.socket mode)).find false bytes = .ok files.nodes.length := by
  have hafter := hreaches.of_spares hsound (spares_put hsound hfree (.socket mode))
  exact (hafter.find_eq_ok_iff hplain.not_slashed hplain.not_dots).mpr (nodeAt?_put ..)

/-- Its permission bits are those that it is given last. -/
theorem setMode_put {files : FileSystem} {bytes : Bytes} {place : Place} (hsound : files.Sound)
    (hreaches : files.Reaches bytes place) (hplain : Plain place) (hfree : files.Free place)
    (made mode : Nat) :
    (files.put place (.socket made)).setMode bytes mode = .ok (files.put place (.socket mode)) := by
  have hsocket := isSocket_put files place made
  have hfind := find_follow_of_isSocket (find_put hsound hreaches hplain hfree made) hsocket
  rw [setMode, hfind]
  dsimp only
  rw [if_pos hsocket]
  simp [put, enter, removeEntry]

/-- Nothing is found along a path that the operating system does not look at. -/
theorem find_error_of_not_acceptable (files : FileSystem) (follow : Bool) {bytes : Bytes}
    (hbytes : ¬ Acceptable bytes) : ∃ cause, files.find follow bytes = .error cause := by
  cases hfind : files.find follow bytes with
  | error cause => exact ⟨cause, rfl⟩
  | ok node => exact absurd (FileSystem.find_eq_ok_iff.mp hfind).1 hbytes

/-! ### Entering a socket -/

/-- A socket at a place where there is one already is put there. -/
theorem enterSocket_of_removed {files : FileSystem} {bytes : Bytes} {place : Place}
    {address : SocketAddress} (hsound : files.Sound) (hname : address.name = .path bytes)
    (hreaches : files.Reaches bytes place) (hplain : Plain place)
    (hfree : files.Free place) (mode : Nat) :
    enterSocket (files.removeEntry place) address mode = .ok (files.put place (.socket mode)) := by
  have hremoved := hreaches.of_spares hsound (spares_removeEntry hfree)
  unfold enterSocket
  rw [hname]
  dsimp only
  rw [create_of_reaches hremoved hplain (files.nodeAt?_removeEntry place)]
  rfl

/-- A socket is entered at a vacant place, or nothing is entered. -/
theorem enterSocket_cases {files after : FileSystem} {address : SocketAddress} {mode : Nat}
    (henter : enterSocket files address mode = .ok after) :
    (∃ bytes, address.name = .abstract bytes ∧ after = files) ∨
      ∃ bytes place, address.name = .path bytes ∧ files.Reaches bytes place ∧ Plain place ∧
        files.nodeAt? place = none ∧ after = files.enter place.dir place.name (.socket mode) := by
  unfold enterSocket at henter
  split at henter
  · next bytes hname => exact Or.inl ⟨bytes, hname, (Except.ok.inj henter).symm⟩
  · next bytes hname =>
    split at henter
    · next created hcreated =>
      obtain rfl := Except.ok.inj henter
      obtain ⟨place, hreaches, hplain, hvacant, hentered⟩ := create_eq_ok hcreated
      exact Or.inr ⟨bytes, place, hname, hreaches, hplain, hvacant, hentered⟩
    · cases henter

/-! ### Publishing -/

/-- Whatever is refused of that, the socket stays where it was put. -/
theorem publish_put_cases {files : FileSystem} {place : Place} (hsound : files.Sound)
    (hreaches : files.Reaches path place) (hplain : Plain place) (hfree : files.Free place)
    (made mode : Nat) (refuses : ListenRefusals) :
    ∃ kept, publish (files.put place (.socket made)) path mode refuses =
        (.ok files.nodes.length, files.put place (.socket kept)) ∨
      ∃ cause, publish (files.put place (.socket made)) path mode refuses =
        (.error cause, files.put place (.socket kept)) ∧ ∃ call, refuses call ≠ none := by
  unfold publish
  cases hlisten : refuses .listen with
  | some cause => exact ⟨made, Or.inr ⟨cause, rfl, .listen, by simp [hlisten]⟩⟩
  | none =>
      dsimp only
      rw [setMode_put hsound hreaches hplain hfree]
      cases hmode : refuses .setMode with
      | some cause => exact ⟨made, Or.inr ⟨cause, rfl, .setMode, by simp [hmode]⟩⟩
      | none =>
          refine ⟨mode % (modeMask + 1), ?_⟩
          dsimp only [unlessRefused]
          rw [find_put hsound hreaches hplain hfree]
          cases hidentify : refuses .identify with
          | some cause => exact Or.inr ⟨cause, rfl, .identify, by simp [hidentify]⟩
          | none => exact Or.inl rfl

/-- A path that the operating system does not look at cannot be published. -/
theorem publish_of_not_acceptable (files : FileSystem) (hpath : ¬ Acceptable path) (mode : Nat)
    (refuses : ListenRefusals) :
    ∃ cause, publish files path mode refuses = (.error cause, files) := by
  obtain ⟨missing, hfind⟩ := find_error_of_not_acceptable files true hpath
  unfold publish
  cases refuses .listen with
  | some cause => exact ⟨cause, rfl⟩
  | none =>
      dsimp only
      rw [setMode, hfind]
      cases refuses .setMode with
      | some cause => exact ⟨cause, rfl⟩
      | none => exact ⟨missing, rfl⟩

/-! ### Listening -/

/-- The end of a call to listen, when there is room at the place that the path leads to. -/
theorem listens_of_put {place : Place} (hsound : net.files.Sound)
    (hreaches : net.files.Reaches path place) (hplain : Plain place)
    (hfree : net.files.Free place) (made mode : Nat) (refuses : ListenRefusals) :
    net.Listens path kind refuses
      (net.answer path kind
        (publish (net.files.put place (.socket made)) path mode refuses)) := by
  obtain ⟨kept, hpublish | ⟨cause, hpublish, hrefused⟩⟩ :=
    publish_put_cases hsound hreaches hplain hfree made mode refuses
  · rw [hpublish]
    exact .binds hreaches hplain hfree kept
  · rw [hpublish]
    exact .leaves _ hreaches hplain hfree kept hrefused

/-- The end of a call to listen that has removed nothing. -/
theorem listens_of_entered {address : SocketAddress} {entered : FileSystem} {made : Nat}
    (hsound : net.files.Sound) (haddress : SocketAddress.ofPath path = .ok address)
    (henter : enterSocket net.files address made = .ok entered) (mode : Nat)
    (refuses : ListenRefusals) :
    net.Listens path kind refuses (net.answer path kind (publish entered path mode refuses)) := by
  by_cases hpath : Acceptable path
  · have hname := SocketAddress.name_of_ofPath haddress hpath
    obtain ⟨bytes, hother, -⟩ | ⟨bytes, place, hother, hreaches, hplain, hvacant, rfl⟩ :=
      enterSocket_cases henter
    · exact nomatch hother.symm.trans hname
    · obtain rfl := SocketName.path.inj (hother.symm.trans hname)
      have hput : net.files.enter place.dir place.name (.socket made) =
          net.files.put place (.socket made) := by
        rw [put, removeEntry_of_vacant hvacant]
      rw [hput]
      exact listens_of_put hsound hreaches hplain (free_of_vacant hvacant) made mode refuses
  · obtain ⟨cause, hpublish⟩ := publish_of_not_acceptable entered hpath mode refuses
    rw [hpublish]
    obtain ⟨bytes, -, rfl⟩ | ⟨bytes, place, -, -, -, hvacant, rfl⟩ := enterSocket_cases henter
    · exact .fails _
    · exact .strays _ hpath hvacant _

/-- A call to listen that has removed nothing. -/
theorem listens_of_kept {refuses : ListenRefusals} (hsound : net.files.Sound)
    (hlength : path.length < addressCapacity)
    (hclear : clearStale net.files path refuses = .ok net.files) (mode : Nat) :
    net.Listens path kind refuses (net.listen path kind mode refuses) := by
  unfold listen
  rw [if_neg (Nat.not_le.mpr hlength), hclear]
  dsimp only
  cases haddress : unlessRefused (refuses .openSocket) (SocketAddress.ofPath path) with
  | error cause => exact .fails _
  | ok address =>
      dsimp only
      cases henter : unlessRefused (refuses .bind)
          (enterSocket net.files address net.creationMode) with
      | error cause => exact .fails _
      | ok entered =>
          exact listens_of_entered hsound (unlessRefused_eq_ok.mp haddress).2
            (unlessRefused_eq_ok.mp henter).2 mode refuses

/-- A call to listen that has removed a socket.  It goes on unless it is refused something. -/
theorem listens_of_removed {refuses : ListenRefusals} {place : Place} {node : Nat}
    (hsound : net.files.Sound) (hlength : path.length < addressCapacity)
    (hclear : clearStale net.files path refuses = .ok (net.files.removeEntry place))
    (hreaches : net.files.Reaches path place) (hplain : Plain place)
    (hnode : net.files.nodeAt? place = some node) (hsocket : net.files.isSocket node = true)
    (mode : Nat) : net.Listens path kind refuses (net.listen path kind mode refuses) := by
  obtain ⟨address, haddress⟩ := SocketAddress.exists_ofPath hlength
  have hname := SocketAddress.name_of_ofPath haddress hreaches.acceptable
  have hfree := free_of_isSocket hnode hsocket
  unfold listen
  rw [if_neg (Nat.not_le.mpr hlength), hclear]
  dsimp only
  rw [haddress]
  cases hopen : refuses .openSocket with
  | some cause => exact .clears _ hreaches hplain hnode hsocket ⟨.openSocket, by simp [hopen]⟩
  | none =>
      dsimp only [unlessRefused]
      rw [enterSocket_of_removed hsound hname hreaches hplain hfree]
      cases hbind : refuses .bind with
      | some cause => exact .clears _ hreaches hplain hnode hsocket ⟨.bind, by simp [hbind]⟩
      | none => exact listens_of_put hsound hreaches hplain hfree net.creationMode mode refuses

theorem listens_listen (hsound : net.files.Sound) (path : Bytes) (kind : SocketKind)
    (mode : Nat) (refuses : ListenRefusals) :
    net.Listens path kind refuses (net.listen path kind mode refuses) := by
  by_cases hlength : addressCapacity ≤ path.length
  · unfold listen
    rw [if_pos hlength]
    exact .fails _
  have hshort := Nat.not_le.mp hlength
  cases hclear : clearStale net.files path refuses with
  | error cause =>
      unfold listen
      rw [if_neg hlength, hclear]
      exact .fails _
  | ok files =>
      obtain rfl | ⟨place, node, hreaches, hplain, hnode, hsocket, rfl⟩ :=
        clearStale_cases hsound hclear
      · exact listens_of_kept hsound hshort hclear mode
      · exact listens_of_removed hsound hshort hclear hreaches hplain hnode hsocket mode

/-! ## Dropping -/

theorem removeOwn_cases {files : FileSystem} (hsound : files.Sound) (bytes : Bytes) (node : Nat) :
    (removeOwn files bytes node = files ∧
        ¬ (files.find false bytes = .ok node ∧ files.isSocket node = true)) ∨
      ∃ place, files.Reaches bytes place ∧ Plain place ∧ files.nodeAt? place = some node ∧
        files.isSocket node = true ∧ removeOwn files bytes node = files.removeEntry place := by
  unfold removeOwn
  cases hfind : files.find false bytes with
  | error cause => exact Or.inl ⟨rfl, fun h => nomatch h.1⟩
  | ok found =>
      dsimp only
      split
      · next hown =>
        obtain ⟨hsocket, rfl⟩ := hown
        obtain ⟨place, hreaches, hslashed, hdots, hnode⟩ :=
          (find_eq_socket_iff hsound hsocket).mp hfind
        refine Or.inr ⟨place, hreaches, ⟨hslashed, hdots⟩, hnode, hsocket, ?_⟩
        rw [remove_of_reaches hreaches ⟨hslashed, hdots⟩ hnode]
      · next hown =>
        refine Or.inl ⟨rfl, fun ⟨hfound, hsocket⟩ => hown ?_⟩
        obtain rfl := Except.ok.inj hfound
        exact ⟨hsocket, rfl⟩

/-- Refusing connections changes nothing but connections. -/
theorem exists_refuse_eq (net : Network) (number : Nat) :
    ∃ connections, net.refuse number = { net with connections } := by
  unfold refuse onConnection
  split
  · exact ⟨net.connections, rfl⟩
  · exact ⟨_, rfl⟩

theorem exists_foldl_refuse_eq (backlog : List Nat) :
    ∀ net : Network, ∃ connections, backlog.foldl refuse net = { net with connections } := by
  induction backlog with
  | nil => exact fun net => ⟨net.connections, rfl⟩
  | cons number backlog ih =>
      intro net
      obtain ⟨connections, hrefuse⟩ := net.exists_refuse_eq number
      obtain ⟨later, hlater⟩ := ih { net with connections }
      exact ⟨later, by rw [List.foldl_cons, hrefuse, hlater]⟩

/-- What dropping a listener can do. -/
inductive Drops (net : Network) (number : Nat) (refused : Bool) : Network → Prop
  | absent (absent : net.listener? number = none) : Drops net number refused net
  | leaves {listener : Listener} (listener_eq : net.listener? number = some listener)
      (not_own : refused = false → ¬ (net.files.find false listener.path = .ok listener.node ∧
        net.files.isSocket listener.node = true)) (connections : List Connection) :
      Drops net number refused
        { net with
          connections
          listeners := net.listeners.filter fun entry => entry.1 ≠ number }
  | removes {listener : Listener} {place : Place}
      (listener_eq : net.listener? number = some listener)
      (reaches : net.files.Reaches listener.path place) (plain : Plain place)
      (node_eq : net.files.nodeAt? place = some listener.node)
      (socket : net.files.isSocket listener.node = true) (connections : List Connection) :
      Drops net number refused
        { net with
          connections
          files := net.files.removeEntry place
          listeners := net.listeners.filter fun entry => entry.1 ≠ number }

theorem drops_dropListener (hsound : net.files.Sound) (number : Nat) (refused : Bool) :
    net.Drops number refused (net.dropListener number refused) := by
  unfold dropListener
  cases hlistener : net.listener? number with
  | none => exact .absent hlistener
  | some listener =>
      obtain ⟨connections, hrefused⟩ := exists_foldl_refuse_eq listener.backlog net
      dsimp only
      rw [hrefused]
      cases refused with
      | true =>
          have hnot : true = false → ¬ (net.files.find false listener.path = .ok listener.node ∧
              net.files.isSocket listener.node = true) := nofun
          exact .leaves hlistener hnot connections
      | false =>
          rw [if_neg Bool.false_ne_true]
          dsimp only
          obtain ⟨hsame, hnot⟩ | ⟨place, hreaches, hplain, hnode, hsocket, hremoved⟩ :=
            removeOwn_cases hsound listener.path listener.node
          · rw [hsame]
            exact .leaves hlistener (fun _ => hnot) connections
          · rw [hremoved]
            exact .removes hlistener hreaches hplain hnode hsocket connections

end Network

end ContainerAttach
