import ContainerAttach.Proofs.Text.Quoting
import ContainerAttach.Text.Record

/-!
# What two printed records have in common

Two texts tell whether something is the case if they can be exchanged for each other exactly
where it is: in front of any two rests they make the same whole if it is the case and the rests
are the same, and only then (`Tells`).  Texts that tell something are put behind each other to
texts that tell both.  So two records of one shape, printed in either layout, tell what their
values tell together (`Shown.Tells`, `ShownFields.Tells`), and nothing else: the names, braces and
commas between the values are the same in both.
-/

namespace ContainerAttach.Text

/-- The two texts are the same in front of the same, if something is the case, and cannot be
taken for each other in front of anything, if it is not. -/
def Tells (agree : Prop) (first second : List Char) : Prop :=
  ∀ rest further, first ++ rest = second ++ further ↔ agree ∧ rest = further

namespace Tells

variable {agree more : Prop} {first second : List Char}

theorem same (text : List Char) : Tells True text text :=
  fun rest further => by rw [true_and, List.append_cancel_left_eq]

theorem append {third fourth : List Char} (hfront : Tells agree first second)
    (hback : Tells more third fourth) :
    Tells (agree ∧ more) (first ++ third) (second ++ fourth) := by
  intro rest further
  rw [List.append_assoc, List.append_assoc, hfront, hback, and_assoc]

theorem congr (htells : Tells agree first second) (hiff : agree ↔ more) :
    Tells more first second := by
  intro rest further
  rw [htells, hiff]

theorem symm (htells : Tells agree first second) : Tells agree second first := by
  intro rest further
  rw [eq_comm, htells, eq_comm]

/-- The same text may be put in front, and behind. -/
theorem between (htells : Tells agree first second) (front back : List Char) :
    Tells agree (front ++ first ++ back) (front ++ second ++ back) :=
  (((same front).append htells).append (same back)).congr (by simp)

theorem eq_iff (htells : Tells agree first second) : first = second ↔ agree := by
  have hwhole := htells [] []
  rwa [List.append_nil, List.append_nil, and_iff_left rfl] at hwhole

/-- Two texts that begin with different letters are never taken for each other. -/
theorem of_head {c d : Char} (hfirst : first.head? = some c) (hsecond : second.head? = some d)
    (hne : c ≠ d) (hagree : ¬ agree) : Tells agree first second := by
  obtain ⟨others, rfl⟩ := List.head?_eq_some_iff.mp hfirst
  obtain ⟨further, rfl⟩ := List.head?_eq_some_iff.mp hsecond
  exact fun _ _ =>
    ⟨fun heq => absurd (List.cons.inj heq).1 hne, fun hboth => absurd hboth.1 hagree⟩

theorem of_delimits {α : Type} {write : α → List Char} (hwrite : Delimits write)
    (value other : α) : Tells (value = other) (write value) (write other) := by
  intro rest further
  refine ⟨fun heq => hwrite heq, ?_⟩
  rintro ⟨rfl, rfl⟩
  rfl

end Tells

/-! ## Records -/

/-- What two values tell in either layout. -/
structure Shown.Tells (agree : Prop) (first second : Shown) : Prop where
  line : Text.Tells agree first.line.toList second.line.toList
  tall : ∀ level, Text.Tells agree (first.tall level).toList (second.tall level).toList

/-- What the fields of two records tell, as many in one as in the other. -/
structure ShownFields.Tells (agree : Prop) (first second : ShownFields) : Prop where
  ends : first = .nil ↔ second = .nil
  line : Text.Tells agree (Shown.lineFields first).toList (Shown.lineFields second).toList
  tall : ∀ level, Text.Tells agree (Shown.tallFields level first).toList
    (Shown.tallFields level second).toList

/-- What stands between a field and the next. -/
def ShownFields.separator : ShownFields → String
  | .nil => ""
  | .cons .. => ","

theorem Shown.toList_lineFields_cons (name : String) (value : Shown) (rest : ShownFields) :
    (lineFields (.cons name value rest)).toList =
      (" " ++ name ++ ": ").toList ++ (line value).toList ++
        (rest.separator.toList ++ (lineFields rest).toList) := by
  cases rest <;> simp [lineFields, ShownFields.separator]

theorem Shown.toList_tallFields_cons (level : Nat) (name : String) (value : Shown)
    (rest : ShownFields) :
    (tallFields level (.cons name value rest)).toList =
      (indent level ++ name ++ ": ").toList ++ (tall level value).toList ++
        (",\n".toList ++ (tallFields level rest).toList) := by
  simp [tallFields]

namespace ShownFields.Tells

variable {agree more : Prop} {value other : Shown} {first second : ShownFields}

theorem nil : ShownFields.Tells True .nil .nil where
  ends := Iff.rfl
  line := .same _
  tall _ := .same _

/-- A field more tells what its values tell. -/
theorem cons (name : String) (hvalue : Shown.Tells agree value other)
    (hrest : ShownFields.Tells more first second) :
    ShownFields.Tells (agree ∧ more) (.cons name value first) (.cons name other second) where
  ends := by simp
  line := by
    have hseparator : first.separator = second.separator := by
      cases first with
      | nil => rw [hrest.ends.mp rfl]
      | cons _ _ _ =>
          cases second with
          | nil => exact nomatch hrest.ends.mpr rfl
          | cons _ _ _ => rfl
    rw [Shown.toList_lineFields_cons, Shown.toList_lineFields_cons, hseparator]
    have hfront := (Text.Tells.same (" " ++ name ++ ": ").toList).append hvalue.line
    have hback := (Text.Tells.same second.separator.toList).append hrest.line
    exact (hfront.append hback).congr (by simp)
  tall level := by
    rw [Shown.toList_tallFields_cons, Shown.toList_tallFields_cons]
    have hfront :=
      (Text.Tells.same (Shown.indent level ++ name ++ ": ").toList).append (hvalue.tall level)
    have hback := (Text.Tells.same ",\n".toList).append (hrest.tall level)
    exact (hfront.append hback).congr (by simp)

end ShownFields.Tells

namespace Shown.Tells

variable {agree : Prop}

theorem atom {first second : String} (htells : Text.Tells agree first.toList second.toList) :
    Shown.Tells agree (.atom first) (.atom second) where
  line := htells
  tall _ := htells

theorem present {first second : Shown} (htells : Shown.Tells agree first second) :
    Shown.Tells agree (.present first) (.present second) where
  line := by
    have hbetween := htells.line.between "Some(".toList ")".toList
    simpa [Shown.line] using hbetween
  tall level := by
    have hbetween := (htells.tall (level + 1)).between
      ("Some(\n" ++ indent (level + 1)).toList (",\n" ++ indent level ++ ")").toList
    simpa [Shown.tall] using hbetween

theorem record {first second : ShownFields} (name : String)
    (htells : ShownFields.Tells agree first second) :
    Shown.Tells agree (.record name first) (.record name second) where
  line := by
    have hbetween := htells.line.between (name ++ " \x7b").toList " \x7d".toList
    simpa [Shown.line] using hbetween
  tall level := by
    have hbetween := (htells.tall (level + 1)).between
      (name ++ " \x7b\n").toList (indent level ++ "\x7d").toList
    simpa [Shown.tall] using hbetween

theorem congr {more : Prop} {first second : Shown} (htells : Shown.Tells agree first second)
    (hiff : agree ↔ more) : Shown.Tells more first second where
  line := htells.line.congr hiff
  tall level := (htells.tall level).congr hiff

/-! ## Values -/

theorem quoted (text other : String) :
    Shown.Tells (text = other) (.atom (quote text)) (.atom (quote other)) :=
  atom (.of_delimits delimits_quote text other)

theorem quotedBytes (bytes other : Bytes) :
    Shown.Tells (bytes = other) (.atom (quoteBytes bytes)) (.atom (quoteBytes other)) :=
  atom (.of_delimits delimits_quoteBytes bytes other)

theorem ofBool (value other : Bool) :
    Shown.Tells (value = other) (.ofBool value) (.ofBool other) := by
  refine atom ?_
  cases value <;> cases other
  · exact (Text.Tells.same _).congr (by simp)
  · exact .of_head rfl rfl (by decide) (by simp)
  · exact .of_head rfl rfl (by decide) (by simp)
  · exact (Text.Tells.same _).congr (by simp)

/-- A missing value is not taken for one that is there. -/
theorem missing (value : Shown) {agree : Prop} (hagree : ¬ agree) :
    Shown.Tells agree (.atom "None") (.present value) where
  line := by
    have hpresent : (Shown.line (.present value)).toList.head? = some 'S' := by simp [Shown.line]
    exact .of_head rfl hpresent (by decide) hagree
  tall level := by
    have hmissing : (Shown.tall level (.atom "None")).toList.head? = some 'N' := by
      simp [Shown.tall]
    have hpresent : (Shown.tall level (.present value)).toList.head? = some 'S' := by
      simp [Shown.tall]
    exact .of_head hmissing hpresent (by decide) hagree

theorem symm {first second : Shown} (htells : Shown.Tells agree first second) :
    Shown.Tells agree second first where
  line := htells.line.symm
  tall level := (htells.tall level).symm

theorem ofOption (text other : Option String) :
    Shown.Tells (text = other) (.ofOption (text.map quote)) (.ofOption (other.map quote)) := by
  cases text with
  | none =>
      cases other with
      | none => exact (atom (.same _)).congr (by simp)
      | some other => exact missing _ (by simp)
  | some text =>
      cases other with
      | none => exact (missing _ (by simp)).symm
      | some other => exact (present (quoted text other)).congr (by simp)

end Shown.Tells

end ContainerAttach.Text
