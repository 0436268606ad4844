import ContainerAttach.Path
import Mathlib.Data.List.TakeWhile

/-!
# Pieces

Cutting a path into pieces and joining pieces are inverse to each other, as long as no piece
has a slash in it.  So what is read off a path is a matter of its pieces alone: whether it is
absolute (`isAbsolute_iff`), the plain name at its end (`fileName?_of_pieces`) and the path
without that name, which has the same pieces but for idle ones (`parent?_of_pieces`).
-/

namespace ContainerAttach

namespace Path

variable {α : Type} [DecidableEq α] [PathLetter α]

open PathLetter

/-! ## Cutting and joining -/

theorem pieces_ne_nil (path : List α) : pieces path ≠ [] := by
  cases path with
  | nil => exact List.cons_ne_nil _ _
  | cons letter rest =>
      rw [pieces]
      split
      · exact List.cons_ne_nil _ _
      · split <;> exact List.cons_ne_nil _ _

theorem pieces_cons {letter : α} (hletter : letter ≠ slash) {path first : List α}
    {others : List (List α)} (hpieces : pieces path = first :: others) :
    pieces (letter :: path) = (letter :: first) :: others := by
  rw [pieces, if_neg hletter, hpieces]

/-- The letters of the pieces are those of the path without its slashes. -/
theorem mem_of_mem_pieces {path piece : List α} (hpiece : piece ∈ pieces path) {letter : α}
    (hletter : letter ∈ piece) : letter ∈ path ∧ letter ≠ slash := by
  induction path generalizing piece with
  | nil =>
      obtain rfl := List.mem_singleton.mp hpiece
      exact absurd hletter List.not_mem_nil
  | cons head path ih =>
      by_cases hhead : head = slash
      · rw [pieces, if_pos hhead] at hpiece
        rcases List.mem_cons.mp hpiece with rfl | hpiece
        · exact absurd hletter List.not_mem_nil
        · exact (ih hpiece hletter).imp_left (List.mem_cons_of_mem _)
      · obtain ⟨first, others, hpieces⟩ := List.exists_cons_of_ne_nil (pieces_ne_nil path)
        rw [pieces_cons hhead hpieces] at hpiece
        rcases List.mem_cons.mp hpiece with rfl | hpiece
        · rcases List.mem_cons.mp hletter with rfl | hletter
          · exact ⟨List.mem_cons_self, hhead⟩
          · exact (ih (hpieces ▸ List.mem_cons_self) hletter).imp_left (List.mem_cons_of_mem _)
        · exact (ih (hpieces ▸ List.mem_cons_of_mem _ hpiece) hletter).imp_left
            (List.mem_cons_of_mem _)

theorem slash_not_mem_of_mem_pieces {path piece : List α} (hpiece : piece ∈ pieces path) :
    slash ∉ piece :=
  fun hslash => (mem_of_mem_pieces hpiece hslash).2 rfl

theorem pieces_of_slash_not_mem {piece : List α} (hslash : slash ∉ piece) :
    pieces piece = [piece] := by
  induction piece with
  | nil => rfl
  | cons letter piece ih =>
      obtain ⟨hletter, hrest⟩ := List.ne_and_not_mem_of_not_mem_cons hslash
      exact pieces_cons hletter.symm (ih hrest)

/-- A slash cuts what stands before it from what stands behind. -/
theorem pieces_append (front back : List α) :
    pieces (front ++ slash :: back) = pieces front ++ pieces back := by
  induction front with
  | nil => exact if_pos rfl
  | cons letter front ih =>
      obtain ⟨first, others, hpieces⟩ := List.exists_cons_of_ne_nil (pieces_ne_nil front)
      rw [hpieces, List.cons_append] at ih
      by_cases hletter : letter = slash
      · rw [List.cons_append, pieces, if_pos hletter, pieces, if_pos hletter, ih, hpieces]
        rfl
      · rw [List.cons_append, pieces_cons hletter ih, pieces_cons hletter hpieces]
        rfl

theorem pieces_append_slash {piece : List α} (hslash : slash ∉ piece) (rest : List α) :
    pieces (piece ++ slash :: rest) = piece :: pieces rest := by
  rw [pieces_append, pieces_of_slash_not_mem hslash, List.singleton_append]

omit [DecidableEq α] in
theorem join_cons (piece : List α) {parts : List (List α)} (hparts : parts ≠ []) :
    join (piece :: parts) = piece ++ slash :: join parts := by
  obtain ⟨next, others, rfl⟩ := List.exists_cons_of_ne_nil hparts
  rw [join]
  exact hparts

theorem pieces_join {parts : List (List α)} (hparts : parts ≠ [])
    (hslash : ∀ piece ∈ parts, slash ∉ piece) : pieces (join parts) = parts := by
  induction parts with
  | nil => exact absurd rfl hparts
  | cons piece parts ih =>
      obtain ⟨hpiece, hrest⟩ := List.forall_mem_cons.mp hslash
      by_cases hmore : parts = []
      · subst hmore
        exact pieces_of_slash_not_mem hpiece
      · rw [join_cons piece hmore, pieces_append_slash hpiece, ih hmore hrest]

omit [DecidableEq α] in
theorem mem_join {parts : List (List α)} {letter : α} (hletter : letter ∈ join parts) :
    letter = slash ∨ ∃ piece ∈ parts, letter ∈ piece := by
  induction parts with
  | nil => exact absurd hletter List.not_mem_nil
  | cons piece parts ih =>
      by_cases hmore : parts = []
      · subst hmore
        exact Or.inr ⟨piece, List.mem_cons_self, hletter⟩
      · rw [join_cons piece hmore, List.mem_append, List.mem_cons] at hletter
        rcases hletter with hletter | rfl | hletter
        · exact Or.inr ⟨piece, List.mem_cons_self, hletter⟩
        · exact Or.inl rfl
        · exact (ih hletter).imp_right fun ⟨other, hother, hmem⟩ =>
            ⟨other, List.mem_cons_of_mem _ hother, hmem⟩

/-- A path is absolute if it has an empty piece in front of others. -/
theorem isAbsolute_iff {path : List α} :
    isAbsolute path = true ↔ ∃ rest, pieces path = [] :: rest ∧ rest ≠ [] := by
  cases path with
  | nil => simp [isAbsolute, pieces]
  | cons letter path =>
      rw [isAbsolute, decide_eq_true_eq]
      constructor
      · rintro rfl
        exact ⟨pieces path, by rw [pieces, if_pos rfl], pieces_ne_nil path⟩
      · rintro ⟨rest, hrest, -⟩
        by_contra hletter
        obtain ⟨first, others, hpieces⟩ := List.exists_cons_of_ne_nil (pieces_ne_nil path)
        rw [pieces_cons hletter hpieces] at hrest
        exact List.cons_ne_nil _ _ (List.cons.inj hrest).1

theorem isAbsolute_eq_false {path first : List α} {rest : List (List α)}
    (hpieces : pieces path = first :: rest) (hfirst : first ≠ []) : isAbsolute path = false := by
  rw [Bool.eq_false_iff]
  intro habsolute
  obtain ⟨other, hother, -⟩ := isAbsolute_iff.mp habsolute
  exact hfirst (List.cons.inj (hpieces.symm.trans hother)).1

/-! ## The plain name at the end -/

/-- The pieces that are steps on the way, in their order. -/
def steps (parts : List (List α)) : List (List α) :=
  parts.filter fun piece => !isIdle piece

theorem steps_append (front back : List (List α)) :
    steps (front ++ back) = steps front ++ steps back :=
  List.filter_append front back

theorem steps_cons (piece : List α) (parts : List (List α)) :
    steps (piece :: parts) = steps [piece] ++ steps parts :=
  steps_append [piece] parts

theorem steps_eq_nil {parts : List (List α)} (hidle : ∀ piece ∈ parts, isIdle piece = true) :
    steps parts = [] := by
  rw [steps, List.filter_eq_nil_iff]
  exact fun piece hpiece => by simp [hidle piece hpiece]

theorem isIdle_of_plain {name : List α} (hname : name ≠ []) (hdots : isDots name = false) :
    isIdle name = false := by
  rw [isDots, Bool.or_eq_false_iff] at hdots
  rw [isIdle, Bool.or_eq_false_iff]
  exact ⟨decide_eq_false hname, hdots.1⟩

theorem componentOf?_of_plain {name : List α} (hname : name ≠ []) (hdots : isDots name = false) :
    componentOf? name = some (.name name) := by
  have hidle := isIdle_of_plain hname hdots
  rw [isDots, Bool.or_eq_false_iff] at hdots
  rw [componentOf?, if_neg (Bool.eq_false_iff.mp hidle), if_neg (of_decide_eq_false hdots.2)]

theorem trimEnd_of_plain {front : List (List α)} {name : List α} (hidle : isIdle name = false) :
    trimEnd (front ++ [name]) = front ++ [name] := by
  rw [trimEnd, List.reverse_append, List.reverse_singleton, List.singleton_append,
    List.dropWhile_cons_of_neg (Bool.eq_false_iff.mp hidle), List.reverse_cons,
    List.reverse_reverse]

/-- Only idle pieces are trimmed. -/
theorem steps_trimEnd (parts : List (List α)) : steps (trimEnd parts) = steps parts := by
  have hparts : trimEnd parts ++ (parts.reverse.takeWhile isIdle).reverse = parts := by
    rw [trimEnd, ← List.reverse_append, List.takeWhile_append_dropWhile, List.reverse_reverse]
  have hidle : steps (parts.reverse.takeWhile isIdle).reverse = [] :=
    steps_eq_nil fun piece hpiece => List.mem_takeWhile_imp (List.mem_reverse.mp hpiece)
  calc steps (trimEnd parts)
      = steps (trimEnd parts) ++ steps (parts.reverse.takeWhile isIdle).reverse := by
        rw [hidle, List.append_nil]
    _ = steps parts := by rw [← steps_append, hparts]

theorem mem_of_mem_trimEnd {parts : List (List α)} {piece : List α}
    (hpiece : piece ∈ trimEnd parts) : piece ∈ parts := by
  rw [trimEnd, List.mem_reverse] at hpiece
  exact List.mem_reverse.mp ((List.dropWhile_suffix _).mem hpiece)

theorem mem_cons_of_mem_trimEnd {first : List α} {parts : List (List α)} {piece : List α}
    (hpiece : piece ∈ first :: trimEnd parts) : piece ∈ first :: parts :=
  (List.mem_cons.mp hpiece).elim (fun hfirst => hfirst ▸ List.mem_cons_self)
    fun hrest => List.mem_cons_of_mem _ (mem_of_mem_trimEnd hrest)

theorem fileName?_of_pieces {path name : List α} {front : List (List α)}
    (hpieces : pieces path = front ++ [name]) (hname : name ≠ []) (hdots : isDots name = false) :
    fileName? path = some name := by
  have hcomponent := componentOf?_of_plain hname hdots
  have hlast : (components path).getLast? = some (.name name) := by
    cases front with
    | nil =>
        have habsolute := isAbsolute_eq_false hpieces hname
        rw [isDots, Bool.or_eq_false_iff] at hdots
        rw [components, hpieces]
        simp [leading, habsolute, of_decide_eq_false hdots.1, hcomponent]
    | cons first front =>
        rw [components, hpieces]
        simp [hcomponent]
  rw [fileName?, hlast]

/-- The parent of a path, by its pieces.  There is none if all pieces are idle and the first is
empty. -/
theorem parent?_eq {path first : List α} {rest : List (List α)}
    (hpieces : pieces path = first :: rest) :
    parent? path =
      if trimEnd rest = [] then (if first = [] then none else some [])
      else some (if trimEnd (trimEnd rest).dropLast = []
        then (if first = [] then [slash] else first)
        else join (first :: trimEnd (trimEnd rest).dropLast)) := by
  rw [parent?, hpieces]
  dsimp only
  cases trimEnd rest with
  | nil => rfl
  | cons last more =>
      dsimp only
      cases trimEnd (last :: more).dropLast <;> rfl

theorem parent?_of_pieces {path name first : List α} {front : List (List α)}
    (hpieces : pieces path = first :: (front ++ [name])) (hname : isIdle name = false) :
    parent? path =
      some (if trimEnd front = [] then (if first = [] then [slash] else first)
        else join (first :: trimEnd front)) := by
  rw [parent?_eq hpieces, trimEnd_of_plain hname, List.dropLast_concat]
  exact if_neg (List.append_ne_nil_of_right_ne_nil front (List.cons_ne_nil name []))

theorem mem_steps {parts : List (List α)} {piece : List α} (hpiece : piece ∈ parts) {letter : α}
    (hletter : letter ∈ piece) (hdot : letter ≠ dot) : piece ∈ steps parts := by
  refine List.mem_filter.mpr ⟨hpiece, ?_⟩
  have hidle : isIdle piece = false := by
    rw [isIdle, Bool.or_eq_false_iff]
    exact ⟨decide_eq_false (List.ne_nil_of_mem hletter),
      decide_eq_false fun heq => hdot (List.mem_singleton.mp (heq ▸ hletter))⟩
  rw [hidle, Bool.not_false]

/-- What stands for the directory that a path is in, given by the pieces before its name: it
starts in the same place, has the same steps, and is written in their letters. -/
structure Leads (front : List (List α)) (absolute : Bool) (directory : List α) : Prop where
  ne_nil : directory ≠ []
  isAbsolute_eq : isAbsolute directory = absolute
  steps_eq : steps (pieces directory) = steps front
  mem : ∀ letter ∈ directory, letter ≠ slash → letter ≠ dot →
    ∃ piece ∈ steps front, letter ∈ piece

theorem leads_root {front : List (List α)} (hfront : steps front = []) :
    Leads ([] :: front) true [slash] where
  ne_nil := List.cons_ne_nil _ _
  isAbsolute_eq := decide_eq_true rfl
  steps_eq := by
    have hroot : pieces [(slash : α)] = [[], []] := pieces_append_slash List.not_mem_nil []
    rw [hroot, steps_cons [] front, hfront]
    rfl
  mem letter hletter hslash _ := absurd (List.mem_singleton.mp hletter) hslash

theorem leads_first {first : List α} {front : List (List α)} (hfirst : first ≠ [])
    (hslash : slash ∉ first) (hfront : steps front = []) :
    Leads (first :: front) false first where
  ne_nil := hfirst
  isAbsolute_eq := isAbsolute_eq_false (pieces_of_slash_not_mem hslash) hfirst
  steps_eq := by rw [pieces_of_slash_not_mem hslash, steps_cons first front, hfront,
    List.append_nil]
  mem _ hletter _ hdot := ⟨first, mem_steps List.mem_cons_self hletter hdot, hletter⟩

theorem leads_join {first : List α} {front : List (List α)} (htrim : trimEnd front ≠ [])
    (hslash : ∀ piece ∈ first :: front, slash ∉ piece) :
    Leads (first :: front) (decide (first = [])) (join (first :: trimEnd front)) := by
  have hpieces : pieces (join (first :: trimEnd front)) = first :: trimEnd front :=
    pieces_join (List.cons_ne_nil _ _) fun piece hpiece =>
      hslash piece (mem_cons_of_mem_trimEnd hpiece)
  refine ⟨?_, ?_, ?_, fun letter hletter hnot_slash hdot => ?_⟩
  · rw [join_cons first htrim]
    exact List.append_ne_nil_of_right_ne_nil _ (List.cons_ne_nil _ _)
  · by_cases hfirst : first = []
    · rw [decide_eq_true hfirst]
      exact isAbsolute_iff.mpr ⟨_, hfirst ▸ hpieces, htrim⟩
    · rw [decide_eq_false hfirst]
      exact isAbsolute_eq_false hpieces hfirst
  · rw [hpieces, steps_cons, steps_trimEnd, ← steps_cons]
  · obtain hletter | ⟨piece, hpiece, hmem⟩ := mem_join hletter
    · exact absurd hletter hnot_slash
    · exact ⟨piece, mem_steps (mem_cons_of_mem_trimEnd hpiece) hmem hdot, hmem⟩

theorem leads_dot (hdot : (dot : α) ≠ slash) : Leads [] false [(dot : α)] where
  ne_nil := List.cons_ne_nil _ _
  isAbsolute_eq := decide_eq_false hdot
  steps_eq := by
    rw [pieces_of_slash_not_mem (mt List.mem_singleton.mp hdot.symm)]
    exact steps_eq_nil (List.forall_mem_singleton.mpr (by simp [isIdle]))
  mem letter hletter _ hnot := absurd (List.mem_singleton.mp hletter) hnot

/-- The path without the plain name at its end is empty, if there is nothing else, or leads the
way to the name. -/
theorem parent?_of_plain {path name : List α} {front : List (List α)}
    (hpieces : pieces path = front ++ [name]) (hname : isIdle name = false) :
    (front = [] ∧ parent? path = some []) ∨
      ∃ parent, parent? path = some parent ∧ Leads front (isAbsolute path) parent := by
  cases front with
  | nil =>
      have hempty : name ≠ [] := by
        rintro rfl
        exact Bool.noConfusion hname
      refine Or.inl ⟨rfl, ?_⟩
      rw [parent?, hpieces]
      exact if_neg hempty
  | cons first front =>
      have hslash : ∀ piece ∈ first :: front, slash ∉ piece := fun piece hpiece =>
        slash_not_mem_of_mem_pieces (hpieces ▸ List.mem_append_left _ hpiece)
      have habsolute : isAbsolute path = decide (first = []) := by
        by_cases hfirst : first = []
        · rw [decide_eq_true hfirst]
          exact isAbsolute_iff.mpr ⟨_, hfirst ▸ hpieces, by simp⟩
        · rw [decide_eq_false hfirst]
          exact isAbsolute_eq_false hpieces hfirst
      have hsteps := steps_trimEnd front
      refine Or.inr ?_
      rw [parent?_of_pieces hpieces hname, habsolute]
      by_cases htrim : trimEnd front = []
      · rw [htrim] at hsteps
        rw [if_pos htrim]
        by_cases hfirst : first = []
        · subst hfirst
          exact ⟨_, rfl, leads_root hsteps.symm⟩
        · rw [if_neg hfirst, decide_eq_false hfirst]
          exact ⟨_, rfl, leads_first hfirst (hslash first List.mem_cons_self) hsteps.symm⟩
      · rw [if_neg htrim]
        exact ⟨_, rfl, leads_join htrim hslash⟩

end Path

end ContainerAttach
