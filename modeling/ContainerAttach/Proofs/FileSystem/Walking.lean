import ContainerAttach.FileSystem.Change

/-!
# Walks through the file system

A walk that comes to an end is told by one rule for each piece of the path: it is idle, it
leads up, it names a link that is followed or is the end itself, or it names something else
(`FileSystem.Walks`).

The place that a path ends in is the end of a walk to the directory before the last piece
that is not empty (`FileSystem.Reaches`).  So the walk to what has the path is the walk to
the place and one piece more, and a socket is always found that way
(`FileSystem.find_eq_socket_iff`).
-/

namespace ContainerAttach

namespace FileSystem

variable {fs : FileSystem}

/-! ## Names -/

/-- The piece names a node in a directory. -/
structure Names (fs : FileSystem) (dir : Nat) (piece : Bytes) (node : Nat) : Prop where
  directory : fs.isDirectory dir = true
  not_idle : Path.isIdle piece = false
  not_up : piece ≠ [0x2e, 0x2e]
  length_le : piece.length ≤ nameLimit
  child_eq : fs.child? dir piece = some node

theorem isDirectory_iff {node : Nat} :
    fs.isDirectory node = true ↔ ∃ parent, fs.nodes[node]? = some (.directory parent) := by
  unfold isDirectory
  split
  · next parent hnode => simp [hnode]
  · next hnode =>
    constructor
    · intro h
      exact absurd h Bool.false_ne_true
    · rintro ⟨parent, hparent⟩
      exact absurd hparent (hnode parent)

theorem isSocket_iff {node : Nat} :
    fs.isSocket node = true ↔ ∃ mode, fs.nodes[node]? = some (.socket mode) := by
  unfold isSocket
  split
  · next mode hnode => simp [hnode]
  · next hnode =>
    constructor
    · intro h
      exact absurd h Bool.false_ne_true
    · rintro ⟨mode, hmode⟩
      exact absurd hmode (hnode mode)

theorem isSocket_of_isDirectory {node : Nat} (hdirectory : fs.isDirectory node = true) :
    fs.isSocket node = false := by
  obtain ⟨parent, hnode⟩ := isDirectory_iff.mp hdirectory
  rw [isSocket, hnode]

/-! ## Walks -/

/-- A walk from a node, with so many links to follow, that comes to its end. -/
inductive Walks (fs : FileSystem) (follow : Bool) : Nat → Nat → List Bytes → Nat → Prop
  | here (links node : Nat) : Walks fs follow links node [] node
  | idle {links node last : Nat} {piece : Bytes} {rest : List Bytes}
      (directory : fs.isDirectory node = true) (idle : Path.isIdle piece = true)
      (walks : Walks fs follow links node rest last) :
      Walks fs follow links node (piece :: rest) last
  | up {links node parent last : Nat} {rest : List Bytes}
      (node_eq : fs.nodes[node]? = some (.directory parent))
      (walks : Walks fs follow links parent rest last) :
      Walks fs follow links node ([0x2e, 0x2e] :: rest) last
  /-- A link at the end that is not followed. -/
  | stop {links node last : Nat} {piece target : Bytes} (names : fs.Names node piece last)
      (link : fs.nodes[last]? = some (.link target)) (not_follow : follow = false) :
      Walks fs follow links node [piece] last
  | jump {links node next last : Nat} {piece target : Bytes} {rest : List Bytes}
      (names : fs.Names node piece next) (link : fs.nodes[next]? = some (.link target))
      (goes_on : rest ≠ [] ∨ follow = true)
      (walks : Walks fs follow links (if Path.isAbsolute target then root else node)
        (Path.pieces target ++ rest) last) :
      Walks fs follow (links + 1) node (piece :: rest) last
  | down {links node next last : Nat} {piece : Bytes} {rest : List Bytes}
      (names : fs.Names node piece next)
      (not_link : ∀ target, fs.nodes[next]? ≠ some (.link target))
      (walks : Walks fs follow links next rest last) :
      Walks fs follow links node (piece :: rest) last

theorem walks_of_walk {follow : Bool} {links node last : Nat} {pieces : List Bytes}
    (hwalk : fs.walk follow links node pieces = .ok last) :
    fs.Walks follow links node pieces last := by
  fun_induction walk fs follow links node pieces with
  | case1 links node =>
      obtain rfl := Except.ok.inj hwalk
      exact .here links node
  | case2 links node piece rest parent hnode hidle ih =>
      exact .idle (isDirectory_iff.mpr ⟨parent, hnode⟩) hidle (ih hwalk)
  | case3 links node rest parent hnode hidle ih => exact .up hnode (ih hwalk)
  | case4 => exact nomatch hwalk
  | case5 => exact nomatch hwalk
  | case6 links node piece rest parent hnode hidle hup hlength next hchild target hlink hstop =>
      obtain rfl := Except.ok.inj hwalk
      simp only [Bool.and_eq_true, List.isEmpty_iff, Bool.not_eq_true'] at hstop
      obtain ⟨rfl, hfollow⟩ := hstop
      exact .stop ⟨isDirectory_iff.mpr ⟨parent, hnode⟩, by simpa using hidle, hup, by omega,
        hchild⟩ hlink hfollow
  | case7 => exact nomatch hwalk
  | case8 node piece rest parent hnode hidle hup hlength next hchild target hlink hgoes links ih =>
      have hgoes_on : rest ≠ [] ∨ follow = true := by
        simp only [Bool.and_eq_true, List.isEmpty_iff, Bool.not_eq_true'] at hgoes
        by_cases hrest : rest = []
        · exact Or.inr (by simpa [hrest] using hgoes)
        · exact Or.inl hrest
      exact .jump ⟨isDirectory_iff.mpr ⟨parent, hnode⟩, by simpa using hidle, hup, by omega,
        hchild⟩ hlink hgoes_on (ih hwalk)
  | case9 links node piece rest parent hnode hidle hup hlength next hchild hlink ih =>
      exact .down ⟨isDirectory_iff.mpr ⟨parent, hnode⟩, by simpa using hidle, hup, by omega,
        hchild⟩ hlink (ih hwalk)
  | case10 => exact nomatch hwalk

theorem Names.walk_eq {follow : Bool} {links node next : Nat} {piece : Bytes}
    {rest : List Bytes} (hnames : fs.Names node piece next) :
    fs.walk follow links node (piece :: rest) =
      match fs.nodes[next]? with
      | some (.link target) =>
        if rest.isEmpty && !follow then .ok next
        else
          match links with
          | 0 => .error (.os 40)
          | links + 1 =>
            fs.walk follow links (if Path.isAbsolute target then root else node)
              (Path.pieces target ++ rest)
      | _ => fs.walk follow links next rest := by
  obtain ⟨hdirectory, hidle, hup, hlength, hchild⟩ := hnames
  obtain ⟨parent, hnode⟩ := isDirectory_iff.mp hdirectory
  rw [walk, hnode]
  simp only [hidle, hup, Nat.not_lt.mpr hlength, Bool.false_eq_true, if_false]
  exact hchild ▸ rfl

theorem walk_of_walks {follow : Bool} {links node last : Nat} {pieces : List Bytes}
    (hwalks : fs.Walks follow links node pieces last) :
    fs.walk follow links node pieces = .ok last := by
  induction hwalks with
  | here links node => rw [walk]
  | idle directory idle walks ih =>
      obtain ⟨parent, hnode⟩ := isDirectory_iff.mp directory
      rw [walk, hnode]
      simp only [idle, if_true, ih]
  | up node_eq walks ih =>
      rw [walk, node_eq]
      exact ih
  | stop names link not_follow =>
      rw [names.walk_eq, link]
      simp [not_follow]
  | @jump links node next last piece target rest names link goes_on walks ih =>
      rw [names.walk_eq, link]
      have hgoes : (rest.isEmpty && !follow) = false := by
        rcases goes_on with hrest | hfollow
        · simp [hrest]
        · simp [hfollow]
      simp only [hgoes, Bool.false_eq_true, if_false, ih]
  | down names not_link walks ih =>
      rw [names.walk_eq]
      split
      · next target hlink => exact absurd hlink (not_link target)
      · exact ih

/-- Only a directory can be walked on from. -/
theorem Walks.isDirectory {follow : Bool} {links node last : Nat} {piece : Bytes}
    {rest : List Bytes} (hwalks : fs.Walks follow links node (piece :: rest) last) :
    fs.isDirectory node = true := by
  cases hwalks with
  | idle directory => exact directory
  | up node_eq => exact isDirectory_iff.mpr ⟨_, node_eq⟩
  | stop names | jump names | down names => exact names.directory

/-- A walk goes through the end of the walk through the first pieces. -/
theorem Walks.split {follow : Bool} {links node last : Nat} {pieces : List Bytes}
    (hwalks : fs.Walks follow links node pieces last) :
    ∀ front back : List Bytes, pieces = front ++ back → back ≠ [] →
      ∃ left middle, fs.Walks true links node front middle ∧
        fs.Walks follow left middle back last := by
  -- either there are no first pieces, or the walk takes the first of them
  induction hwalks with
  | here links node =>
      intro front back hpieces hback
      exact absurd (List.append_eq_nil_iff.mp hpieces.symm).2 hback
  | idle directory idle walks ih =>
      intro front back hpieces hback
      obtain ⟨rfl, rfl⟩ | ⟨front, rfl, rfl⟩ := List.cons_eq_append_iff.mp hpieces
      · exact ⟨_, _, .here _ _, .idle directory idle walks⟩
      · obtain ⟨left, middle, hfront, hrest⟩ := ih front back rfl hback
        exact ⟨left, middle, .idle directory idle hfront, hrest⟩
  | up node_eq walks ih =>
      intro front back hpieces hback
      obtain ⟨rfl, rfl⟩ | ⟨front, rfl, rfl⟩ := List.cons_eq_append_iff.mp hpieces
      · exact ⟨_, _, .here _ _, .up node_eq walks⟩
      · obtain ⟨left, middle, hfront, hrest⟩ := ih front back rfl hback
        exact ⟨left, middle, .up node_eq hfront, hrest⟩
  | stop names link not_follow =>
      intro front back hpieces hback
      obtain ⟨rfl, rfl⟩ | ⟨front, rfl, hrest⟩ := List.cons_eq_append_iff.mp hpieces
      · exact ⟨0, _, .here _ _, .stop names link not_follow⟩
      · exact absurd (List.append_eq_nil_iff.mp hrest.symm).2 hback
  | jump names link goes_on walks ih =>
      intro front back hpieces hback
      obtain ⟨rfl, rfl⟩ | ⟨front, rfl, rfl⟩ := List.cons_eq_append_iff.mp hpieces
      · exact ⟨_, _, .here _ _, .jump names link goes_on walks⟩
      · obtain ⟨left, middle, hfront, hrest⟩ :=
          ih _ back (List.append_assoc _ front back).symm hback
        exact ⟨left, middle, .jump names link (Or.inr rfl) hfront, hrest⟩
  | down names not_link walks ih =>
      intro front back hpieces hback
      obtain ⟨rfl, rfl⟩ | ⟨front, rfl, rfl⟩ := List.cons_eq_append_iff.mp hpieces
      · exact ⟨_, _, .here _ _, .down names not_link walks⟩
      · obtain ⟨left, middle, hfront, hrest⟩ := ih front back rfl hback
        exact ⟨left, middle, .down names not_link hfront, hrest⟩

/-- A walk through the first pieces can be walked on from its end. -/
theorem Walks.join {links node middle : Nat} {front : List Bytes}
    (hwalks : fs.Walks true links node front middle) :
    ∃ left, ∀ (follow : Bool) (back : List Bytes) (last : Nat), back ≠ [] →
      fs.Walks follow left middle back last → fs.Walks follow links node (front ++ back) last := by
  -- the walk follows links, so it is not one that stops at a link
  generalize hon : true = on at hwalks
  induction hwalks with
  | here links node => exact ⟨links, fun follow back last _ hback => hback⟩
  | idle directory idle walks ih =>
      obtain ⟨left, hleft⟩ := ih
      exact ⟨left, fun follow back last hback hwalks =>
        .idle directory idle (hleft follow back last hback hwalks)⟩
  | up node_eq walks ih =>
      obtain ⟨left, hleft⟩ := ih
      exact ⟨left, fun follow back last hback hwalks =>
        .up node_eq (hleft follow back last hback hwalks)⟩
  | stop names link not_follow => exact absurd (hon.trans not_follow) (by simp)
  | jump names link goes_on walks ih =>
      obtain ⟨left, hleft⟩ := ih
      refine ⟨left, fun follow back last hback hwalks => .jump names link (Or.inl ?_) ?_⟩
      · exact fun hnil => hback (List.append_eq_nil_iff.mp hnil).2
      · have hjoined := hleft follow back last hback hwalks
        rwa [List.append_assoc] at hjoined
  | down names not_link walks ih =>
      obtain ⟨left, hleft⟩ := ih
      exact ⟨left, fun follow back last hback hwalks =>
        .down names not_link (hleft follow back last hback hwalks)⟩

/-- A walk that does not end at a link is the same if links are followed. -/
theorem Walks.follow {links node last : Nat} {pieces : List Bytes}
    (hwalks : fs.Walks false links node pieces last)
    (hlink : ∀ target, fs.nodes[last]? ≠ some (.link target)) :
    fs.Walks true links node pieces last := by
  induction hwalks with
  | here links node => exact .here links node
  | idle directory idle walks ih => exact .idle directory idle (ih hlink)
  | up node_eq walks ih => exact .up node_eq (ih hlink)
  | stop names link not_follow => exact absurd link (hlink _)
  | jump names link goes_on walks ih => exact .jump names link (Or.inr rfl) (ih hlink)
  | down names not_link walks ih => exact .down names not_link (ih hlink)

theorem Names.not_dots {dir node : Nat} {piece : Bytes} (hnames : fs.Names dir piece node) :
    Path.isDots piece = false := by
  have hidle := hnames.not_idle
  have hup := hnames.not_up
  simp only [Path.isIdle, Path.isDots, Bool.or_eq_false_iff, decide_eq_false_iff_not] at hidle ⊢
  exact ⟨hidle.2, hup⟩

/-- Such a piece names something, if the walk through it comes to an end. -/
theorem Walks.names {follow : Bool} {links node last : Nat} {piece : Bytes} {rest : List Bytes}
    (hwalks : fs.Walks follow links node (piece :: rest) last)
    (hdots : Path.isDots piece = false) (hpiece : piece ≠ []) :
    ∃ next, fs.Names node piece next := by
  cases hwalks with
  | idle directory idle walks =>
      simp only [Path.isIdle, Path.isDots, Bool.or_eq_true, Bool.or_eq_false_iff,
        decide_eq_true_eq, decide_eq_false_iff_not] at idle hdots
      exact absurd idle (by simp [hpiece, hdots.1])
  | up node_eq walks => exact absurd hdots (by decide)
  | stop names | jump names | down names => exact ⟨_, names⟩

/-- A walk through one such piece that follows no link leads to what the piece names. -/
theorem Walks.names_last {links node last : Nat} {piece : Bytes}
    (hwalks : fs.Walks false links node [piece] last) (hdots : Path.isDots piece = false)
    (hpiece : piece ≠ []) : fs.Names node piece last := by
  obtain ⟨next, hnames⟩ := hwalks.names hdots hpiece
  cases hwalks with
  | idle directory idle => exact absurd (hnames.not_idle.symm.trans idle) Bool.false_ne_true
  | up => exact absurd rfl hnames.not_up
  | stop names => exact names
  | jump names link goes_on => exact absurd goes_on (by simp)
  | down names not_link walks =>
      cases walks
      exact names

/-! ## The last piece -/

/-- The pieces end with one that is not empty, and some that are. -/
structure LastPiece (pieces before : List Bytes) (name : Bytes) (empties : List Bytes) : Prop where
  pieces_eq : pieces = before ++ name :: empties
  name_ne : name ≠ []
  empty : ∀ piece ∈ empties, piece = []

theorem exists_lastPiece (pieces : List Bytes) :
    (∀ piece ∈ pieces, piece = []) ∨
      ∃ before name empties, LastPiece pieces before name empties := by
  induction pieces with
  | nil => exact Or.inl (by simp)
  | cons piece pieces ih =>
      rcases ih with hempty | ⟨before, name, empties, hpieces, hname, hempty⟩
      · by_cases hpiece : piece = []
        · exact Or.inl (List.forall_mem_cons.mpr ⟨hpiece, hempty⟩)
        · exact Or.inr ⟨[], piece, pieces, rfl, hpiece, hempty⟩
      · exact Or.inr ⟨piece :: before, name, empties, by rw [hpieces]; rfl, hname, hempty⟩

theorem LastPiece.dropWhile_reverse {pieces before empties : List Bytes} {name : Bytes}
    (hlast : LastPiece pieces before name empties) :
    pieces.reverse.dropWhile (· = []) = name :: before.reverse := by
  rw [hlast.pieces_eq, List.reverse_append, List.reverse_cons, List.append_assoc,
    List.dropWhile_append_of_pos]
  · simp [hlast.name_ne]
  · intro piece hpiece
    simpa using hlast.empty piece (List.mem_reverse.mp hpiece)

theorem LastPiece.head?_reverse {pieces before empties : List Bytes} {name : Bytes}
    (hlast : LastPiece pieces before name empties) :
    pieces.reverse.head? = some [] ↔ empties ≠ [] := by
  rw [hlast.pieces_eq]
  rcases List.eq_nil_or_concat empties with rfl | ⟨more, piece, rfl⟩
  · simp [hlast.name_ne]
  · have hpiece := hlast.empty piece (by simp)
    simp [hpiece]

/-- Nothing but empty pieces leads nowhere else. -/
theorem Walks.of_empty {follow : Bool} {links node last : Nat} {pieces : List Bytes}
    (hwalks : fs.Walks follow links node pieces last) (hempty : ∀ piece ∈ pieces, piece = []) :
    last = node := by
  induction hwalks with
  | here links node => rfl
  | idle directory idle walks ih => exact ih fun piece hpiece => hempty piece (by simp [hpiece])
  | up node_eq walks ih => exact absurd (hempty _ List.mem_cons_self) (by simp)
  | stop names | jump names | down names =>
      have hpiece := hempty _ List.mem_cons_self
      exact absurd names.not_idle (by simp [hpiece, Path.isIdle])

/-! ## Places -/

/-- A path that the operating system looks at. -/
structure Acceptable (path : Bytes) : Prop where
  no_zero : path.contains 0 = false
  ne_nil : path ≠ []
  length_lt : path.length < pathLimit

/-- The directory that the walk along a path starts from. -/
def startOf (path : Bytes) : Nat :=
  if Path.isAbsolute path then root else workingDirectory

theorem find_eq_ok_iff {follow : Bool} {path : Bytes} {node : Nat} :
    fs.find follow path = .ok node ↔
      Acceptable path ∧ fs.Walks follow linkLimit (startOf path) (Path.pieces path) node := by
  unfold find resolve
  constructor
  · intro hfind
    split at hfind
    · exact nomatch hfind
    · next hzero =>
      split at hfind
      · exact nomatch hfind
      · next hpath =>
        split at hfind
        · exact nomatch hfind
        · next hlength =>
          exact ⟨⟨by simpa using hzero, hpath, by omega⟩, walks_of_walk hfind⟩
  · rintro ⟨⟨hzero, hpath, hlength⟩, hwalks⟩
    simp only [hzero, hpath, Nat.not_le.mpr hlength, Bool.false_eq_true, if_false]
    exact walk_of_walks hwalks

/-- A path ends in a name in a directory. -/
structure Reaches (fs : FileSystem) (path : Bytes) (place : Place) : Prop where
  acceptable : Acceptable path
  walks : ∃ before empties, LastPiece (Path.pieces path) before place.name empties ∧
    (place.slashed = true ↔ empties ≠ []) ∧
    fs.Walks true linkLimit (startOf path) before place.dir
  directory : fs.isDirectory place.dir = true
  length_le : place.name.length ≤ nameLimit

theorem placeFrom_eq_of_lastPiece {path : Bytes} {before empties : List Bytes} {name : Bytes}
    (hlast : LastPiece (Path.pieces path) before name empties) (start : Nat) :
    fs.placeFrom start path =
      match fs.walk true linkLimit (if Path.isAbsolute path then root else start) before with
      | .error cause => .error cause
      | .ok dir =>
        if !fs.isDirectory dir then .error (.os 20)
        else if nameLimit < name.length then .error (.os 36)
        else .ok ⟨dir, name, (Path.pieces path).reverse.head? = some []⟩ := by
  unfold placeFrom
  dsimp only
  rw [hlast.dropWhile_reverse]
  have hreverse : before.reverse.reverse = before := List.reverse_reverse before
  generalize before.reverse = backwards at hreverse ⊢
  subst hreverse
  rfl

theorem place_of_reaches {path : Bytes} {place : Place} (hreaches : fs.Reaches path place) :
    fs.place path = .ok place := by
  obtain ⟨⟨hzero, hpath, hlength⟩, ⟨before, empties, hlast, hslashed, hwalks⟩, hdirectory,
    hname⟩ := hreaches
  obtain ⟨dir, name, slashed⟩ := place
  unfold FileSystem.place
  simp only [hzero, hpath, Nat.not_le.mpr hlength, Bool.false_eq_true, if_false]
  have hwalk : fs.walk true linkLimit
      (if Path.isAbsolute path then root else workingDirectory) before = .ok dir :=
    walk_of_walks hwalks
  rw [placeFrom_eq_of_lastPiece hlast, hwalk]
  simp only [hdirectory, Nat.not_lt.mpr hname, Bool.not_true, Bool.false_eq_true, if_false]
  have hends : decide ((Path.pieces path).reverse.head? = some []) = slashed := by
    rw [Bool.eq_iff_iff, decide_eq_true_eq, hlast.head?_reverse, hslashed]
  rw [hends]

theorem placeFrom_of_empty {path : Bytes} (hempty : ∀ piece ∈ Path.pieces path, piece = [])
    (start : Nat) : fs.placeFrom start path = .ok ⟨root, [PathLetter.dot], true⟩ := by
  have hdrop : (Path.pieces path).reverse.dropWhile (· = []) = [] := by
    rw [← List.append_nil (Path.pieces path).reverse, List.dropWhile_append_of_pos]
    · rfl
    · intro piece hpiece
      simpa using hempty piece (List.mem_reverse.mp hpiece)
  unfold placeFrom
  dsimp only
  rw [hdrop]

theorem acceptable_of_place {path : Bytes} {place : Place} (hplace : fs.place path = .ok place) :
    Acceptable path ∧ fs.placeFrom workingDirectory path = .ok place := by
  unfold FileSystem.place at hplace
  split at hplace
  · exact nomatch hplace
  · next hzero =>
    split at hplace
    · exact nomatch hplace
    · next hpath =>
      split at hplace
      · exact nomatch hplace
      · next hlength => exact ⟨⟨by simpa using hzero, hpath, by omega⟩, hplace⟩

theorem reaches_of_place {path : Bytes} {place : Place} (hplace : fs.place path = .ok place)
    (hdots : Path.isDots place.name = false) : fs.Reaches path place := by
  obtain ⟨hpath, hfrom⟩ := acceptable_of_place hplace
  rcases exists_lastPiece (Path.pieces path) with hempty | ⟨before, name, empties, hlast⟩
  · rw [placeFrom_of_empty hempty] at hfrom
    obtain rfl := Except.ok.inj hfrom
    exact absurd hdots (by decide)
  · rw [placeFrom_eq_of_lastPiece hlast] at hfrom
    split at hfrom
    · exact nomatch hfrom
    · next dir hwalk =>
      split at hfrom
      · exact nomatch hfrom
      · next hdirectory =>
        split at hfrom
        · exact nomatch hfrom
        · next hname =>
          obtain rfl := Except.ok.inj hfrom
          refine ⟨hpath, ⟨before, empties, hlast, ?_, walks_of_walk hwalk⟩,
            by simpa using hdirectory, Nat.not_lt.mp hname⟩
          rw [decide_eq_true_eq]
          exact hlast.head?_reverse

theorem Walks.last_unique {follow : Bool} {links node last other : Nat} {pieces : List Bytes}
    (hwalks : fs.Walks follow links node pieces last)
    (hother : fs.Walks follow links node pieces other) : last = other :=
  Except.ok.inj ((walk_of_walks hwalks).symm.trans (walk_of_walks hother))

theorem Reaches.names_iff {path : Bytes} {place : Place} {node : Nat}
    (hreaches : fs.Reaches path place) (hdots : Path.isDots place.name = false) :
    fs.Names place.dir place.name node ↔ fs.nodeAt? place = some node := by
  obtain ⟨-, ⟨before, empties, hlast, -⟩, hdirectory, hlength⟩ := hreaches
  refine ⟨Names.child_eq, fun hchild => ?_⟩
  have hname := hlast.name_ne
  simp only [Path.isDots, Bool.or_eq_false_iff, decide_eq_false_iff_not] at hdots
  exact ⟨hdirectory, by simp [Path.isIdle, hname, hdots.1], hdots.2, hlength, hchild⟩

/-- What has a name at a place is found there, if no slashes follow the name and links are not
followed. -/
theorem Reaches.find_eq_ok_iff {path : Bytes} {place : Place} {node : Nat}
    (hreaches : fs.Reaches path place) (hslashed : place.slashed = false)
    (hdots : Path.isDots place.name = false) :
    fs.find false path = .ok node ↔ fs.nodeAt? place = some node := by
  obtain ⟨before, empties, hlast, hends, hbefore⟩ := hreaches.walks
  obtain rfl : empties = [] := by
    rw [hslashed] at hends
    exact Decidable.byContradiction fun hempties => Bool.false_ne_true (hends.mpr hempties)
  rw [FileSystem.find_eq_ok_iff, ← hreaches.names_iff hdots]
  constructor
  · rintro ⟨-, hwalks⟩
    obtain ⟨left, dir, hfront, hrest⟩ := hwalks.split before [place.name] hlast.pieces_eq (by simp)
    obtain rfl := hfront.last_unique hbefore
    exact hrest.names_last hdots hlast.name_ne
  · intro hnames
    refine ⟨hreaches.acceptable, ?_⟩
    obtain ⟨left, hleft⟩ := hbefore.join
    rw [hlast.pieces_eq]
    refine hleft false [place.name] node (by simp) ?_
    by_cases hlink : ∃ target, fs.nodes[node]? = some (.link target)
    · obtain ⟨target, hlink⟩ := hlink
      exact .stop hnames hlink rfl
    · exact .down hnames (fun target htarget => hlink ⟨target, htarget⟩) (.here left node)

/-- With slashes behind it a path leads to nothing but a directory. -/
theorem Walks.isDirectory_of_slashed {follow : Bool} {links node last : Nat}
    (before : List Bytes) {empties : List Bytes}
    (hwalks : fs.Walks follow links node (before ++ empties) last)
    (hempty : ∀ piece ∈ empties, piece = []) (hempties : empties ≠ []) :
    fs.isDirectory last = true := by
  obtain ⟨left, middle, -, hrest⟩ := hwalks.split before empties rfl hempties
  obtain rfl := hrest.of_empty hempty
  cases empties with
  | nil => exact absurd rfl hempties
  | cons piece empties => exact hrest.isDirectory

/-- A directory knows the directory it is in, and a name stands for something. -/
structure Sound (fs : FileSystem) : Prop where
  child_lt : ∀ {dir : Nat} {name : Bytes} {node : Nat}, fs.child? dir name = some node →
    node < fs.nodes.length
  parent_isDirectory : ∀ {node parent : Nat}, fs.nodes[node]? = some (.directory parent) →
    fs.isDirectory parent = true

theorem Walks.isDirectory_of_dots {follow : Bool} {links node last : Nat} {piece : Bytes}
    (hsound : fs.Sound) (hwalks : fs.Walks follow links node [piece] last)
    (hdots : Path.isDots piece = true) : fs.isDirectory last = true := by
  cases hwalks with
  | idle directory idle walks =>
      cases walks
      exact directory
  | up node_eq walks =>
      cases walks
      exact hsound.parent_isDirectory node_eq
  | stop names | jump names | down names =>
      exact absurd (names.not_dots.symm.trans hdots) Bool.false_ne_true

theorem ne_nil_pieces (path : Bytes) : Path.pieces path ≠ [] := by
  cases path with
  | nil => simp [Path.pieces]
  | cons letter rest =>
      rw [Path.pieces]
      split
      · simp
      · split <;> simp

/-- A socket is found at the place that its path ends in, and nowhere else. -/
theorem find_eq_socket_iff {path : Bytes} {node : Nat} (hsound : fs.Sound)
    (hsocket : fs.isSocket node = true) :
    fs.find false path = .ok node ↔
      ∃ place, fs.Reaches path place ∧ place.slashed = false ∧
        Path.isDots place.name = false ∧ fs.nodeAt? place = some node := by
  have hnot : fs.isDirectory node ≠ true := fun hdirectory =>
    Bool.false_ne_true ((isSocket_of_isDirectory hdirectory).symm.trans hsocket)
  constructor
  · intro hfind
    obtain ⟨hpath, hwalks⟩ := FileSystem.find_eq_ok_iff.mp hfind
    rcases exists_lastPiece (Path.pieces path) with hempty | ⟨before, name, empties, hlast⟩
    · have hdirectory : fs.isDirectory node = true :=
        Walks.isDirectory_of_slashed [] hwalks hempty (ne_nil_pieces path)
      exact absurd hdirectory hnot
    · have hpieces : Path.pieces path = (before ++ [name]) ++ empties := by
        rw [hlast.pieces_eq, List.append_assoc, List.singleton_append]
      -- slashes or dots at the end would lead to a directory
      obtain rfl : empties = [] := by
        refine Decidable.byContradiction fun hempties => hnot ?_
        rw [hpieces] at hwalks
        exact hwalks.isDirectory_of_slashed _ hlast.empty hempties
      obtain ⟨left, dir, hbefore, hrest⟩ :=
        hwalks.split before [name] hlast.pieces_eq (by simp)
      have hdots : Path.isDots name = false := by
        cases hdots : Path.isDots name with
        | false => rfl
        | true => exact absurd (hrest.isDirectory_of_dots hsound hdots) hnot
      obtain ⟨next, hnames⟩ := hrest.names hdots hlast.name_ne
      have hreaches : fs.Reaches path ⟨dir, name, false⟩ :=
        ⟨hpath, ⟨before, [], hlast, by simp, hbefore⟩, hrest.isDirectory, hnames.length_le⟩
      exact ⟨_, hreaches, rfl, hdots, (hreaches.find_eq_ok_iff rfl hdots).mp hfind⟩
  · rintro ⟨place, hreaches, hslashed, hdots, hnode⟩
    exact (hreaches.find_eq_ok_iff hslashed hdots).mpr hnode

end FileSystem

end ContainerAttach
