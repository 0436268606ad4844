import ContainerAttach.Proofs.FileSystem.Walking
import ContainerAttach.Proofs.Path.Pieces

/-!
# Links on the way

The links that a resolution may follow are spent in order.  A walk through the first pieces of
a path takes so many of them, and what comes after goes on with the others
(`FileSystem.Walks.exists_takes`).  With more links a walk leads to the same, unless it has run
out of them before (`FileSystem.walk_of_le`).

Idle pieces cost nothing and lead nowhere, so a walk to a directory is a matter of the steps on
the way alone (`FileSystem.walks_iff_of_steps`).
-/

namespace ContainerAttach

namespace FileSystem

variable {fs : FileSystem} {follow : Bool} {links node : Nat} {piece : Bytes} {rest : List Bytes}

/-- The error of a resolution that has no links left. -/
def tooManyLinks : IoError := .os 40

/-! ## One piece -/

theorem walk_idle (hdirectory : fs.isDirectory node = true) (hidle : Path.isIdle piece = true) :
    fs.walk follow links node (piece :: rest) = fs.walk follow links node rest := by
  obtain ⟨parent, hnode⟩ := isDirectory_iff.mp hdirectory
  rw [walk, hnode]
  exact if_pos hidle

theorem walk_up {parent : Nat} (hnode : fs.nodes[node]? = some (.directory parent)) :
    fs.walk follow links node ([0x2e, 0x2e] :: rest) = fs.walk follow links parent rest := by
  rw [walk, hnode]
  rfl

/-- A link that is followed takes one of the links that are left. -/
theorem Names.walk_link {next : Nat} {target : Bytes} (hnames : fs.Names node piece next)
    (hlink : fs.nodes[next]? = some (.link target)) (hgoes : rest ≠ [] ∨ follow = true) :
    fs.walk follow links node (piece :: rest) =
      match links with
      | 0 => .error tooManyLinks
      | links + 1 =>
        fs.walk follow links (if Path.isAbsolute target then root else node)
          (Path.pieces target ++ rest) := by
  have hstop : (rest.isEmpty && !follow) = false := by
    rcases hgoes with hrest | hfollow
    · simp [hrest]
    · simp [hfollow]
  rw [hnames.walk_eq, hlink]
  exact if_neg (Bool.eq_false_iff.mp hstop)

theorem Names.walk_down {next : Nat} (hnames : fs.Names node piece next)
    (hlink : ∀ target, fs.nodes[next]? ≠ some (.link target)) :
    fs.walk follow links node (piece :: rest) = fs.walk follow links next rest := by
  rw [hnames.walk_eq]
  split
  · next target htarget => exact absurd htarget (hlink target)
  · rfl

/-! ## Spending links -/

/-- The walk through the first pieces takes just so many links: with fewer it fails, and of more
the others are left to what comes after. -/
structure Takes (fs : FileSystem) (used node : Nat) (front : List Bytes) (middle : Nat) :
    Prop where
  walks : fs.Walks true used node front middle
  stuck : ∀ fewer < used, fs.walk true fewer node front = .error tooManyLinks
  walk_append : ∀ (follow : Bool) (left : Nat) (back : List Bytes), back ≠ [] →
    fs.walk follow (used + left) node (front ++ back) = fs.walk follow left middle back

/-- A walk through the first pieces takes some of the links that there are. -/
theorem Walks.exists_takes {middle : Nat} {front : List Bytes}
    (hwalks : fs.Walks true links node front middle) :
    ∃ used ≤ links, fs.Takes used node front middle := by
  -- the walk follows links, so it is not one that stops at a link
  generalize hon : true = on at hwalks
  induction hwalks with
  | here links node =>
      refine ⟨0, Nat.zero_le _, .here 0 node,
        fun fewer hfewer => absurd hfewer (Nat.not_lt_zero _), fun follow left back _ => ?_⟩
      rw [Nat.zero_add, List.nil_append]
  | idle directory idle walks ih =>
      obtain ⟨used, hused, hfront, hstuck, happend⟩ := ih
      refine ⟨used, hused, .idle directory idle hfront, fun fewer hfewer => ?_,
        fun follow left back hback => ?_⟩
      · rw [walk_idle directory idle, hstuck fewer hfewer]
      · rw [List.cons_append, walk_idle directory idle, happend follow left back hback]
  | up node_eq walks ih =>
      obtain ⟨used, hused, hfront, hstuck, happend⟩ := ih
      refine ⟨used, hused, .up node_eq hfront, fun fewer hfewer => ?_,
        fun follow left back hback => ?_⟩
      · rw [walk_up node_eq, hstuck fewer hfewer]
      · rw [List.cons_append, walk_up node_eq, happend follow left back hback]
  | stop names link not_follow => exact absurd (hon.trans not_follow) (by simp)
  | jump names link goes_on walks ih =>
      obtain ⟨used, hused, hfront, hstuck, happend⟩ := ih
      refine ⟨used + 1, Nat.succ_le_succ hused, .jump names link (Or.inr rfl) hfront,
        fun fewer hfewer => ?_, fun follow left back hback => ?_⟩
      · rw [names.walk_link link (Or.inr rfl)]
        cases fewer with
        | zero => rfl
        | succ fewer => exact hstuck fewer (Nat.lt_of_succ_lt_succ hfewer)
      · rw [List.cons_append, Nat.add_right_comm, names.walk_link link
          (Or.inl (List.append_ne_nil_of_right_ne_nil _ hback))]
        dsimp only
        rw [← List.append_assoc, happend follow left back hback]
  | down names not_link walks ih =>
      obtain ⟨used, hused, hfront, hstuck, happend⟩ := ih
      refine ⟨used, hused, .down names not_link hfront, fun fewer hfewer => ?_,
        fun follow left back hback => ?_⟩
      · rw [names.walk_down not_link, hstuck fewer hfewer]
      · rw [List.cons_append, names.walk_down not_link, happend follow left back hback]

/-- With more links a walk is the same, unless it had too few. -/
theorem walk_of_le {fewer more : Nat} (hle : fewer ≤ more) (pieces : List Bytes) :
    fs.walk follow more node pieces = fs.walk follow fewer node pieces ∨
      fs.walk follow fewer node pieces = .error tooManyLinks := by
  -- the walks part only where the one with fewer links has none left
  fun_induction walk fs follow fewer node pieces generalizing more with
  | case1 => exact Or.inl (by rw [walk])
  | case2 links node piece rest parent hnode hidle ih =>
      rw [walk_idle (isDirectory_iff.mpr ⟨parent, hnode⟩) hidle]
      exact ih hle
  | case3 links node rest parent hnode hidle ih =>
      rw [walk_up hnode]
      exact ih hle
  | case4 links node piece rest parent hnode hidle hup hlength =>
      exact Or.inl (by rw [walk, hnode]; simp [hidle, hup, hlength])
  | case5 links node piece rest parent hnode hidle hup hlength hchild =>
      exact Or.inl (by rw [walk, hnode]; simp [hidle, hup, hlength, hchild])
  | case6 links node piece rest parent hnode hidle hup hlength next hchild target hlink hstop =>
      exact Or.inl (by rw [walk, hnode]; simp [hidle, hup, hlength, hchild, hlink, hstop])
  | case7 => exact Or.inr rfl
  | case8 node piece rest parent hnode hidle hup hlength next hchild target hlink hgoes links ih =>
      obtain ⟨more, rfl⟩ : ∃ left, more = left + 1 := ⟨more - 1, by omega⟩
      have hnames : fs.Names node piece next :=
        ⟨isDirectory_iff.mpr ⟨parent, hnode⟩, by simpa using hidle, hup, by omega, hchild⟩
      have hgoes_on : rest ≠ [] ∨ follow = true := by
        by_cases hrest : rest = []
        · exact Or.inr (by simpa [hrest] using hgoes)
        · exact Or.inl hrest
      rw [hnames.walk_link hlink hgoes_on]
      exact ih (Nat.le_of_succ_le_succ hle)
  | case9 links node piece rest parent hnode hidle hup hlength next hchild hlink ih =>
      have hnames : fs.Names node piece next :=
        ⟨isDirectory_iff.mpr ⟨parent, hnode⟩, by simpa using hidle, hup, by omega, hchild⟩
      rw [hnames.walk_down hlink]
      exact ih hle
  | case10 links node piece rest hnode =>
      refine Or.inl ?_
      rw [walk]
      split
      · next parent hparent => exact absurd hparent (hnode parent)
      · rfl

/-- Where no link is followed it does not matter how many could be. -/
theorem walk_of_not_link (hdirectory : fs.isDirectory node = true)
    (hidle : Path.isIdle piece = false) (hup : piece ≠ [0x2e, 0x2e])
    (hlink : ∀ next target, fs.child? node piece = some next →
      fs.nodes[next]? ≠ some (.link target)) (fewer more : Nat) :
    fs.walk follow more node [piece] = fs.walk follow fewer node [piece] := by
  have hstep : ∀ links, fs.walk follow links node [piece] =
      if nameLimit < piece.length then .error (.os 36)
      else (fs.child? node piece).elim (.error (.os 2)) .ok := by
    intro links
    obtain ⟨parent, hnode⟩ := isDirectory_iff.mp hdirectory
    by_cases hlength : nameLimit < piece.length
    · rw [walk, hnode, if_pos hlength]
      simp [hidle, hup, hlength]
    · rw [if_neg hlength]
      cases hchild : fs.child? node piece with
      | none =>
          rw [walk, hnode]
          simp [hidle, hup, hlength, hchild]
      | some next =>
          have hnames : fs.Names node piece next :=
            ⟨hdirectory, hidle, hup, Nat.not_lt.mp hlength, hchild⟩
          rw [hnames.walk_down fun target => hlink next target hchild, walk]
          rfl
  rw [hstep, hstep]

/-! ## Idle pieces -/

/-- A walk to a directory starts from one. -/
theorem Walks.isDirectory_start {last : Nat} {pieces : List Bytes}
    (hwalks : fs.Walks follow links node pieces last) (hlast : fs.isDirectory last = true) :
    fs.isDirectory node = true := by
  cases pieces with
  | nil =>
      cases hwalks
      exact hlast
  | cons piece rest => exact hwalks.isDirectory

/-- An idle piece can be put in anywhere on the way to a directory. -/
theorem Walks.insert_idle {last : Nat} {pieces : List Bytes}
    (hwalks : fs.Walks follow links node pieces last) (hlast : fs.isDirectory last = true)
    (hidle : Path.isIdle piece = true) :
    ∀ front back : List Bytes, pieces = front ++ back →
      fs.Walks follow links node (front ++ piece :: back) last := by
  -- it is put in where the walk is, or further on
  have here : ∀ {links node : Nat} {pieces : List Bytes}, fs.Walks follow links node pieces last →
      fs.Walks follow links node (piece :: pieces) last := fun hwalks =>
    .idle (hwalks.isDirectory_start hlast) hidle hwalks
  induction hwalks with
  | here links node =>
      intro front back hpieces
      obtain ⟨rfl, rfl⟩ := List.append_eq_nil_iff.mp hpieces.symm
      exact here (.here links node)
  | idle directory idle walks ih =>
      intro front back hpieces
      obtain ⟨rfl, rfl⟩ | ⟨front, rfl, rfl⟩ := List.cons_eq_append_iff.mp hpieces
      · exact here (.idle directory idle walks)
      · exact .idle directory idle (ih hlast here front back rfl)
  | up node_eq walks ih =>
      intro front back hpieces
      obtain ⟨rfl, rfl⟩ | ⟨front, rfl, rfl⟩ := List.cons_eq_append_iff.mp hpieces
      · exact here (.up node_eq walks)
      · exact .up node_eq (ih hlast here front back rfl)
  | stop names link not_follow =>
      obtain ⟨parent, hparent⟩ := isDirectory_iff.mp hlast
      exact nomatch hparent.symm.trans link
  | jump names link goes_on walks ih =>
      intro front back hpieces
      obtain ⟨rfl, rfl⟩ | ⟨front, rfl, rfl⟩ := List.cons_eq_append_iff.mp hpieces
      · exact here (.jump names link goes_on walks)
      · have hjoined := ih hlast here _ back (List.append_assoc _ front back).symm
        rw [List.append_assoc] at hjoined
        exact .jump names link (Or.inl (by simp)) hjoined
  | down names not_link walks ih =>
      intro front back hpieces
      obtain ⟨rfl, rfl⟩ | ⟨front, rfl, rfl⟩ := List.cons_eq_append_iff.mp hpieces
      · exact here (.down names not_link walks)
      · exact .down names not_link (ih hlast here front back rfl)

/-- An idle piece can be left out, if a link at the end is followed. -/
theorem Walks.erase_idle {last : Nat} {pieces : List Bytes}
    (hwalks : fs.Walks follow links node pieces last) (hfollow : follow = true)
    (hidle : Path.isIdle piece = true) :
    ∀ front back : List Bytes, pieces = front ++ piece :: back →
      fs.Walks follow links node (front ++ back) last := by
  -- it is the piece that is walked through, or comes later
  induction hwalks with
  | here links node =>
      intro front back hpieces
      exact absurd hpieces (by simp)
  | idle directory idle walks ih =>
      intro front back hpieces
      obtain ⟨rfl, hback⟩ | ⟨front, rfl, rfl⟩ := List.cons_eq_append_iff.mp hpieces
      · obtain ⟨rfl, rfl⟩ := List.cons.inj hback
        exact walks
      · exact .idle directory idle (ih front back rfl)
  | up node_eq walks ih =>
      intro front back hpieces
      obtain ⟨rfl, hback⟩ | ⟨front, rfl, rfl⟩ := List.cons_eq_append_iff.mp hpieces
      · obtain ⟨rfl, rfl⟩ := List.cons.inj hback
        exact absurd hidle (by decide)
      · exact .up node_eq (ih front back rfl)
  | stop names link not_follow => exact absurd (hfollow.symm.trans not_follow) (by simp)
  | jump names link goes_on walks ih =>
      intro front back hpieces
      obtain ⟨rfl, hback⟩ | ⟨front, rfl, rfl⟩ := List.cons_eq_append_iff.mp hpieces
      · obtain ⟨rfl, rfl⟩ := List.cons.inj hback
        exact absurd (hidle.symm.trans names.not_idle) (by simp)
      · have hjoined := ih _ back (List.append_assoc _ front _).symm
        rw [List.append_assoc] at hjoined
        exact .jump names link (Or.inr hfollow) hjoined
  | down names not_link walks ih =>
      intro front back hpieces
      obtain ⟨rfl, hback⟩ | ⟨front, rfl, rfl⟩ := List.cons_eq_append_iff.mp hpieces
      · obtain ⟨rfl, rfl⟩ := List.cons.inj hback
        exact absurd (hidle.symm.trans names.not_idle) (by simp)
      · exact .down names not_link (ih front back rfl)

/-- A walk to a directory is one along the steps. -/
theorem walks_append_steps_iff (links node : Nat) {last : Nat}
    (hlast : fs.isDirectory last = true) (pieces : List Bytes) : ∀ front : List Bytes,
      fs.Walks true links node (front ++ pieces) last ↔
        fs.Walks true links node (front ++ Path.steps pieces) last := by
  induction pieces with
  | nil => exact fun front => Iff.rfl
  | cons piece pieces ih =>
      intro front
      cases hidle : Path.isIdle piece with
      | true =>
          have hsteps : Path.steps (piece :: pieces) = Path.steps pieces :=
            List.filter_cons_of_neg (by simp [hidle])
          rw [hsteps, ← ih front]
          exact ⟨fun hwalks => hwalks.erase_idle rfl hidle front pieces rfl,
            fun hwalks => hwalks.insert_idle hlast hidle front pieces rfl⟩
      | false =>
          have hsteps : Path.steps (piece :: pieces) = piece :: Path.steps pieces :=
            List.filter_cons_of_pos (by simp [hidle])
          rw [hsteps, List.append_cons, ih, ← List.append_cons]

/-- Walks to a directory along the same steps are the same. -/
theorem walks_iff_of_steps {last : Nat} {pieces others : List Bytes}
    (hlast : fs.isDirectory last = true) (hsteps : Path.steps pieces = Path.steps others) :
    fs.Walks true links node pieces last ↔ fs.Walks true links node others last := by
  have hpieces := walks_append_steps_iff links node hlast pieces []
  have hothers := walks_append_steps_iff links node hlast others []
  rw [List.nil_append, List.nil_append] at hpieces hothers
  rw [hpieces, hsteps, ← hothers]

end FileSystem

end ContainerAttach
