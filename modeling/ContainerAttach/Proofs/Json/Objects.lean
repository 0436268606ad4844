import ContainerAttach.Proofs.Json.Scalars

/-!
# Objects of scalars

`ObjectSpelled entries text` says that a text is an object with the entries in this order,
where an entry is a name with a scalar.  White space may stand between any two parts, and
strings may be spelled in any way.

Reading an object is taking its entries one by one (`objectMembers_spelled`), whatever the
text looks like.  So what becomes of a request can be said of lists of entries alone.
-/

namespace ContainerAttach.Json

/-! ## Entries -/

/-- A name with the value that it is given. -/
structure Entry where
  name : String
  value : Scalar
  deriving DecidableEq, Repr

/-- The texts of an entry. -/
inductive Entry.Spelled : Entry → List Char → Prop
  | entry {name : String} {value : Scalar} {nameText valueText before after : List Char}
      (spelledName : Json.Spelled name.toList nameText) (blankBefore : Blank before)
      (blankAfter : Blank after) (spelledValue : value.Spelled valueText) :
      Entry.Spelled ⟨name, value⟩
        ('"' :: (nameText ++ '"' :: (before ++ ':' :: (after ++ valueText))))

/-- The texts of some entries, between the braces. -/
inductive EntriesSpelled : List Entry → List Char → Prop
  | single {entry : Entry} {text before after : List Char} (blankBefore : Blank before)
      (spelled : entry.Spelled text) (blankAfter : Blank after) :
      EntriesSpelled [entry] (before ++ (text ++ after))
  | cons {entry : Entry} {entries : List Entry} {text before after rest : List Char}
      (blankBefore : Blank before) (spelled : entry.Spelled text) (blankAfter : Blank after)
      (others : EntriesSpelled entries rest) :
      EntriesSpelled (entry :: entries) (before ++ (text ++ (after ++ ',' :: rest)))

/-- The texts of an object. -/
inductive ObjectSpelled : List Entry → List Char → Prop
  | empty {before between after : List Char} (blankBefore : Blank before)
      (blankBetween : Blank between) (blankAfter : Blank after) :
      ObjectSpelled [] (before ++ '\x7b' :: (between ++ '\x7d' :: after))
  | entries {entries : List Entry} {text before after : List Char} (blankBefore : Blank before)
      (spelled : EntriesSpelled entries text) (blankAfter : Blank after) :
      ObjectSpelled entries (before ++ '\x7b' :: (text ++ '\x7d' :: after))

/-! ## Reading entries -/

variable {blank : List Char}

/-- The reader of a member, which starts behind the opening quote of its name, takes an entry
as the function says. -/
def TakesEntries {σ : Type} (member : σ → Reader σ)
    (take : σ → Entry → Except ReadError σ) : Prop :=
  ∀ (state : σ) (entry : Entry) (text rest : List Char), entry.Spelled ('"' :: text) →
    EndsNumber rest → member state (text ++ rest) = (take state entry).map (·, rest)

theorem afterColon_blank (hblank : Blank blank) (rest : List Char) :
    afterColon (blank ++ ':' :: rest) = .ok rest := by
  rw [afterColon, skipSpace_blank hblank, skipSpace_cons (by decide)]
  rfl

/-- A reader of a member reads its name first, and what it does then depends on the name. -/
theorem takes_of_named {σ : Type} {member : σ → Reader σ}
    {take : σ → Entry → Except ReadError σ} (behind : σ → String → Reader σ)
    (hmember : ∀ state text, member state text =
      match readText text with
      | .error error => .error error
      | .ok (name, rest) => behind state name rest)
    (hbehind : ∀ (state : σ) (entry : Entry) {before after valueText rest : List Char},
      Blank before → Blank after → entry.value.Spelled valueText → EndsNumber rest →
        behind state entry.name (before ++ ':' :: (after ++ (valueText ++ rest))) =
          (take state entry).map (·, rest)) :
    TakesEntries member take := by
  intro state entry text rest hspelled hends
  cases hspelled with
  | entry spelledName blankBefore blankAfter spelledValue =>
      rw [hmember, List.append_assoc, List.cons_append, readText_spelled spelledName]
      simp only [List.append_assoc, List.cons_append]
      exact hbehind state ⟨_, _⟩ blankBefore blankAfter spelledValue hends

theorem isSpace_quote : isSpace '"' = false := by decide
theorem isSpace_comma : isSpace ',' = false := by decide
theorem isSpace_brace : isSpace '\x7d' = false := by decide

theorem nextItem_closed {first : Bool} (hblank : Blank blank) (rest : List Char) :
    nextItem '\x7d' first (blank ++ '\x7d' :: rest) = .ok (.closed rest) := by
  rw [nextItem, skipSpace_blank hblank, skipSpace_cons isSpace_brace]
  rfl

theorem nextItem_first (hblank : Blank blank) (rest : List Char) :
    nextItem '\x7d' true (blank ++ '"' :: rest) = .ok (.item ('"' :: rest)) := by
  rw [nextItem, skipSpace_blank hblank, skipSpace_cons isSpace_quote]
  rfl

theorem nextItem_next {before after : List Char} (hbefore : Blank before)
    (hafter : Blank after) (rest : List Char) :
    nextItem '\x7d' false (before ++ ',' :: (after ++ '"' :: rest)) =
      .ok (.item ('"' :: rest)) := by
  rw [nextItem, skipSpace_blank hbefore, skipSpace_cons isSpace_comma]
  simp [skipSpace_blank hafter, skipSpace_cons isSpace_quote]

theorem length_le_of_spelled {entries : List Entry} {text : List Char}
    (hspelled : EntriesSpelled entries text) : entries.length ≤ text.length := by
  induction hspelled with
  | single _ spelled _ =>
      cases spelled
      simp
      omega
  | cons _ spelled _ _ ih =>
      simp only [List.length_cons, List.length_append]
      omega

/-- What has to stand in front of the first entry, and of every later one. -/
def Lead (first : Bool) (lead : List Char) : Prop :=
  match first with
  | true => lead = []
  | false => ∃ blank, Blank blank ∧ lead = blank ++ [',']

theorem nextItem_lead {first : Bool} {lead before : List Char} (hlead : Lead first lead)
    (hbefore : Blank before) (rest : List Char) :
    nextItem '\x7d' first (lead ++ (before ++ '"' :: rest)) = .ok (.item ('"' :: rest)) := by
  cases first with
  | true =>
      obtain rfl : lead = [] := hlead
      exact nextItem_first hbefore rest
  | false =>
      obtain ⟨blank, hblank, rfl⟩ := hlead
      rw [List.append_assoc]
      exact nextItem_next hblank hbefore rest

variable {σ : Type} {member : σ → Reader σ} {take : σ → Entry → Except ReadError σ}

/-- The reader of an item is the reader of a member behind the quote. -/
def itemOf (member : σ → Reader σ) (state : σ) : Reader σ := fun text =>
  match text with
  | '"' :: rest => member state rest
  | _ => .error .malformed

theorem objectMembers_eq (state : σ) (text : List Char) : objectMembers member state text =
    items '\x7d' (itemOf member) (text.length + 1) true state text :=
  rfl

theorem items_closed {item : σ → Reader σ} {rounds : Nat} {first : Bool} {state : σ}
    (hblank : Blank blank) (rest : List Char) :
    items '\x7d' item (rounds + 1) first state (blank ++ '\x7d' :: rest) = .ok (state, rest) := by
  rw [items, nextItem_closed hblank]

/-- One round takes one entry. -/
theorem items_entry (htakes : TakesEntries member take) {first : Bool} {lead before : List Char}
    (hlead : Lead first lead) (hbefore : Blank before) {entry : Entry} {text : List Char}
    (hspelled : entry.Spelled text) {rest : List Char} (hends : EndsNumber rest) (rounds : Nat)
    (state : σ) : items '\x7d' (itemOf member) (rounds + 1) first state
        (lead ++ (before ++ (text ++ rest))) =
      (take state entry).bind fun state =>
        items '\x7d' (itemOf member) rounds false state rest := by
  obtain ⟨more, rfl⟩ : ∃ more, text = '"' :: more := by
    cases hspelled
    exact ⟨_, rfl⟩
  have hmember : itemOf member state ('"' :: (more ++ rest)) =
      (take state entry).map (·, rest) := htakes state entry more rest hspelled hends
  rw [List.cons_append, items, nextItem_lead hlead hbefore]
  simp only [hmember]
  cases take state entry with
  | ok state => rfl
  | error error => rfl

/-- All rounds together take all entries. -/
theorem items_spelled (htakes : TakesEntries member take) {entries : List Entry} {text : List Char}
    (hspelled : EntriesSpelled entries text) (rest : List Char) :
    ∀ (first : Bool) (lead : List Char) (rounds : Nat) (state : σ), Lead first lead →
      entries.length < rounds →
        items '\x7d' (itemOf member) rounds first state (lead ++ (text ++ '\x7d' :: rest)) =
          (entries.foldlM take state).map (·, rest) := by
  induction hspelled with
  | @single entry text before after blankBefore spelled blankAfter =>
      intro first lead rounds state hlead hrounds
      obtain ⟨rounds, rfl⟩ : ∃ n, rounds = n + 2 := ⟨rounds - 2, by simp at hrounds; omega⟩
      have hends := endsNumber_blank blankAfter (.inr rfl) rest
      have hread := items_entry htakes hlead blankBefore spelled hends (rounds + 1) state
      rw [List.append_assoc, List.append_assoc, hread, List.foldlM_cons]
      cases take state entry with
      | ok state => exact items_closed blankAfter rest
      | error error => rfl
  | @cons entry entries text before after others blankBefore spelled blankAfter _ ih =>
      intro first lead rounds state hlead hrounds
      obtain ⟨rounds, rfl⟩ : ∃ n, rounds = n + 1 := ⟨rounds - 1, by omega⟩
      have hends := endsNumber_blank blankAfter (.inl rfl) (others ++ '\x7d' :: rest)
      have hread := items_entry htakes hlead blankBefore spelled hends rounds state
      -- the comma behind this entry leads the next one
      have hothers (state : σ) := ih false (after ++ [',']) rounds state
        ⟨after, blankAfter, rfl⟩ (Nat.lt_of_succ_lt_succ hrounds)
      simp only [List.append_assoc, List.cons_append, List.nil_append] at hothers ⊢
      rw [hread, List.foldlM_cons]
      cases take state entry with
      | ok state => exact hothers state
      | error error => rfl

/-- Reading an object is taking its entries one by one. -/
theorem objectMembers_spelled (htakes : TakesEntries member take) {entries : List Entry}
    {text : List Char} (hspelled : ObjectSpelled entries text) (state : σ) :
    ∃ body after, skipSpace text = '\x7b' :: body ∧ Blank after ∧
      objectMembers member state body = (entries.foldlM take state).map (·, after) := by
  cases hspelled with
  | @empty before between after blankBefore blankBetween blankAfter =>
      refine ⟨between ++ '\x7d' :: after, after, ?_, blankAfter, ?_⟩
      · rw [skipSpace_blank blankBefore, skipSpace_cons (by decide)]
      · rw [objectMembers_eq]
        exact items_closed blankBetween after
  | @entries entries text before after blankBefore spelled blankAfter =>
      refine ⟨text ++ '\x7d' :: after, after, ?_, blankAfter, ?_⟩
      · rw [skipSpace_blank blankBefore, skipSpace_cons (by decide)]
      · -- a round for each entry and one for the closing brace
        have hlength := length_le_of_spelled spelled
        have hrounds : entries.length < (text ++ '\x7d' :: after).length + 1 := by
          rw [List.length_append]
          omega
        exact items_spelled htakes spelled after true [] _ state rfl hrounds

/-! ## Printed objects -/

/-- The text that the printer would choose for a scalar. -/
def Scalar.print : Scalar → List Char
  | .null => ['n', 'u', 'l', 'l']
  | .boolean true => ['t', 'r', 'u', 'e']
  | .boolean false => ['f', 'a', 'l', 's', 'e']
  | .integer value => printInt value
  | .text value => printText value

theorem Scalar.spelled_print : ∀ value : Scalar, value.Spelled value.print
  | .null => .null
  | .boolean true => .yes
  | .boolean false => .no
  | .integer value => .integer value
  | .text value => .text (spelled_flatMap_printChar value.toList)

/-- The entry as a member of a printed object. -/
def Entry.toMember (entry : Entry) : Member :=
  ⟨entry.name, entry.value.print⟩

theorem Entry.spelled_toMember (entry : Entry) : entry.Spelled entry.toMember.print := by
  have hname := spelled_flatMap_printChar entry.name.toList
  have hentry := Entry.Spelled.entry hname blank_nil blank_nil entry.value.spelled_print
  simpa [Entry.toMember, Member.print, printText] using hentry

theorem entriesSpelled_printMembers (entry : Entry) (entries : List Entry) :
    EntriesSpelled (entry :: entries) (printMembers ((entry :: entries).map Entry.toMember)) := by
  induction entries generalizing entry with
  | nil =>
      have hsingle := EntriesSpelled.single blank_nil entry.spelled_toMember blank_nil
      simpa [printMembers] using hsingle
  | cons next entries ih =>
      exact .cons blank_nil entry.spelled_toMember blank_nil (ih next)

/-- What is printed is the object of its members. -/
theorem objectSpelled_printObject (entries : List Entry) :
    ObjectSpelled entries (printObject (entries.map Entry.toMember)) := by
  cases entries with
  | nil => exact .empty blank_nil blank_nil blank_nil
  | cons entry entries =>
      exact .entries blank_nil (entriesSpelled_printMembers entry entries) blank_nil

end ContainerAttach.Json
