import ContainerAttach.Control.Encoding
import ContainerAttach.Proofs.Json.Objects

/-!
# The parts of a record

A record is read by taking the entries of an object one by one.  What is taken of an entry
depends on its name only, and each part of a record looks at its own name alone.  In the
end a part is known if exactly one entry has its name and the value is of the wanted type
(`foldlM_takePart_none`), wherever the entry stands and whatever stands around it.

`readAll_readRecord_spelled` is about the whole: a record that is read from the text of an
object is what its entries make of it.
-/

namespace ContainerAttach

namespace Json

/-! ## Results in sequence -/

section Results

variable {α β : Type}

theorem bind_eq_ok_iff {first : Except ReadError α} {second : α → Except ReadError β}
    {result : β} :
    first.bind second = .ok result ↔ ∃ value, first = .ok value ∧ second value = .ok result := by
  cases first with
  | ok value => simp [Except.bind]
  | error error => simp [Except.bind]

theorem map_eq_ok_iff {first : Except ReadError α} {change : α → β} {result : β} :
    first.map change = .ok result ↔ ∃ value, first = .ok value ∧ change value = result := by
  cases first with
  | ok value => simp [Except.map]
  | error error => simp [Except.map]

theorem foldlM_cons_eq_ok_iff {step : α → β → Except ReadError α} {state state' : α}
    {first : β} {rest : List β} : (first :: rest).foldlM step state = .ok state' ↔
      ∃ next, step state first = .ok next ∧ rest.foldlM step next = .ok state' := by
  rw [List.foldlM_cons]
  exact bind_eq_ok_iff

theorem foldlM_nil_eq_ok_iff {step : α → β → Except ReadError α} {state state' : α} :
    ([] : List β).foldlM step state = .ok state' ↔ state' = state := by
  rw [List.foldlM_nil]
  exact ⟨fun h => (Except.ok.inj h).symm, fun h => h ▸ rfl⟩

end Results

/-! ## One part of a record -/

section Parts

variable {α : Type}

/-- Takes a value for a part that may not have been given before. -/
def takeOnce (name : String) (given : Option α) (value : Except ReadError α) :
    Except ReadError (Option α) :=
  if given.isSome then .error (duplicateField name) else value.map some

/-- Takes an entry for the part of the given name. -/
def takePart (name : String) (convert : Scalar → Except ReadError α) (given : Option α)
    (entry : Entry) : Except ReadError (Option α) :=
  if entry.name = name then takeOnce name given (convert entry.value) else .ok given

theorem takePart_of_eq {name : String} {convert : Scalar → Except ReadError α} {given : Option α}
    {entry : Entry} (hname : entry.name = name) :
    takePart name convert given entry = takeOnce name given (convert entry.value) :=
  if_pos hname

theorem takePart_of_ne {name : String} {convert : Scalar → Except ReadError α} {given : Option α}
    {entry : Entry} (hname : entry.name ≠ name) :
    takePart name convert given entry = .ok given :=
  if_neg hname

/-- The values that some entries give to a name, in their order. -/
def valuesOf (name : String) (entries : List Entry) : List Scalar :=
  (entries.filter fun entry => entry.name = name).map Entry.value

theorem valuesOf_cons (name : String) (entry : Entry) (entries : List Entry) :
    valuesOf name (entry :: entries) =
      if entry.name = name then entry.value :: valuesOf name entries
      else valuesOf name entries := by
  by_cases hname : entry.name = name <;> simp [valuesOf, hname]

variable {name : String} {convert : Scalar → Except ReadError α}

/-- Nothing is taken for a part that is given already. -/
theorem foldlM_takePart_some {entries : List Entry} {value : α} {given : Option α} :
    entries.foldlM (takePart name convert) (some value) = .ok given ↔
      valuesOf name entries = [] ∧ given = some value := by
  induction entries with
  | nil =>
      rw [foldlM_nil_eq_ok_iff]
      simp [valuesOf]
  | cons entry entries ih =>
      rw [foldlM_cons_eq_ok_iff, valuesOf_cons]
      by_cases hname : entry.name = name
      · simp [takePart, takeOnce, hname]
      · simp [takePart, hname, ih]

/-- What is known in the end is what the only value says; without a value nothing is known. -/
theorem foldlM_takePart_none {entries : List Entry} {given : Option α} :
    entries.foldlM (takePart name convert) none = .ok given ↔
      valuesOf name entries = [] ∧ given = none ∨
        ∃ scalar value, valuesOf name entries = [scalar] ∧ convert scalar = .ok value ∧
          given = some value := by
  induction entries with
  | nil =>
      rw [foldlM_nil_eq_ok_iff]
      simp [valuesOf]
  | cons entry entries ih =>
      rw [foldlM_cons_eq_ok_iff, valuesOf_cons]
      by_cases hname : entry.name = name
      · cases hconvert : convert entry.value with
        | ok value =>
            simp [takePart, takeOnce, hname, hconvert, Except.map, foldlM_takePart_some, and_assoc]
        | error error =>
            simp [takePart, takeOnce, hname, hconvert, Except.map]
      · simp [takePart, hname, ih]

/-- A part is known in the end if its name has one value, and this is the wanted one. -/
theorem foldlM_takePart_eq_some {entries : List Entry} {value : α} {wanted : Scalar}
    (hconvert : ∀ scalar, convert scalar = .ok value ↔ scalar = wanted) :
    entries.foldlM (takePart name convert) none = .ok (some value) ↔
      valuesOf name entries = [wanted] := by
  simp [foldlM_takePart_none, hconvert]

theorem foldlM_size_eq_some {entries : List Entry} {size : UInt16} :
    entries.foldlM (takePart name Scalar.toUInt16) none = .ok (some size) ↔
      valuesOf name entries = [.integer size.toNat] :=
  foldlM_takePart_eq_some fun _ => Scalar.toUInt16_eq_ok_iff

theorem foldlM_text_eq_some {entries : List Entry} {text expected : String} :
    entries.foldlM (takePart name (Scalar.toText expected)) none = .ok (some text) ↔
      valuesOf name entries = [.text text] :=
  foldlM_takePart_eq_some fun _ => Scalar.toText_eq_ok_iff

/-- The values that may give an optional string: none at all, or the only one. -/
def GivesOption (values : List Scalar) (text : Option String) : Prop :=
  values = [] ∧ text = none ∨ values = [ofOption text]

theorem foldlM_toOption_iff {entries : List Entry} {text : Option String} :
    (∃ given, entries.foldlM (takePart name Scalar.toOption) none = .ok given ∧
      given.getD none = text) ↔ GivesOption (valuesOf name entries) text := by
  simp only [foldlM_takePart_none, GivesOption, Scalar.toOption_eq_ok_iff]
  constructor
  · rintro ⟨given, ⟨hnone, rfl⟩ | ⟨scalar, chosen, hvalues, rfl, rfl⟩, hgiven⟩
    · exact .inl ⟨hnone, hgiven.symm⟩
    · obtain rfl : chosen = text := hgiven
      exact .inr hvalues
  · rintro (⟨hnone, rfl⟩ | hvalues)
    · exact ⟨none, .inl ⟨hnone, rfl⟩, rfl⟩
    · exact ⟨some text, .inr ⟨_, text, hvalues, rfl, rfl⟩, rfl⟩

end Parts

/-! ## Reading a part -/

section Reading

variable {α : Type} {value : Scalar} {before after valueText rest : List Char}

/-- What is done with the part that was read does not touch the text after it. -/
theorem readOnce_spelled {σ : Type} (name : String) (given : Option α) {reader : Reader α}
    {converted : Except ReadError α} (change : Option α → σ) (hbefore : Blank before)
    (hread : reader (after ++ (valueText ++ rest)) = converted.map (·, rest)) :
    ((readOnce name given reader (before ++ ':' :: (after ++ (valueText ++ rest)))).map
      fun read => (change read.1, read.2)) =
      ((takeOnce name given converted).map change).map (·, rest) := by
  rw [readOnce, takeOnce]
  split
  · rfl
  · simp only [afterColon_blank hbefore, hread]
    cases converted with
    | ok value => rfl
    | error error => rfl

theorem passOther_spelled {σ : Type} (state : σ) (hbefore : Blank before) (hafter : Blank after)
    (hspelled : value.Spelled valueText) (hends : EndsNumber rest) :
    passOther state (before ++ ':' :: (after ++ (valueText ++ rest))) = .ok (state, rest) := by
  rw [passOther, afterColon_blank hbefore]
  simp only [passForeign_spelled hafter hspelled hends]
  rfl

/-- A record that is read from an object is what its entries make of it. -/
theorem readAll_readRecord_spelled {σ : Type} {member : σ → Reader σ}
    {take : σ → Entry → Except ReadError σ} (htakes : TakesEntries member take) (init : σ)
    (complete : σ → Except ReadError α) (fromObject : Reader α)
    (hobject : ∀ text, fromObject text = (objectMembers member init text).bind fun read =>
      (complete read.1).map fun value => (value, read.2))
    (name : String) (fromArray : Option (Reader α)) {entries : List Entry} {text : List Char}
    (hspelled : ObjectSpelled entries text) :
    readAll (readRecord name fromArray fromObject) text =
      (entries.foldlM take init).bind complete := by
  obtain ⟨body, after, hskip, hafter, hmembers⟩ := objectMembers_spelled htakes hspelled init
  have hread : readRecord name fromArray fromObject text = fromObject body := by
    rw [readRecord, hskip]
    rfl
  have hend : skipSpace after = [] := by
    simpa [skipSpace] using skipSpace_blank hafter []
  rw [readAll, hread, hobject, hmembers]
  cases entries.foldlM take init with
  | error error => rfl
  | ok parts =>
      simp only [Except.map, Except.bind]
      cases complete parts with
      | error error => rfl
      | ok value => exact if_pos hend

end Reading

end Json

end ContainerAttach
