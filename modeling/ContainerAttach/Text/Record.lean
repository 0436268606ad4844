/-!
# Printed records

The diagnostic form of a structured value: a record shows its name and its
fields, an optional value shows whether it is there, everything else is a text
of its own.  There are two layouts.  The one-line layout puts the fields between
braces, the tall layout gives every field a line of its own, indented by four
spaces per level and closed by a comma.
-/

namespace ContainerAttach.Text

mutual

/-- A value as the printer sees it. -/
inductive Shown where
  | atom (text : String)
  | present (value : Shown)
  | record (name : String) (fields : ShownFields)

/-- The named fields of a record, in the order in which they are printed. -/
inductive ShownFields where
  | nil
  | cons (name : String) (value : Shown) (rest : ShownFields)

end

namespace Shown

/-- The fields of a record, from a list. -/
def fieldsOf : List (String × Shown) → ShownFields
  | [] => .nil
  | (name, value) :: rest => .cons name value (fieldsOf rest)

def ofBool (value : Bool) : Shown :=
  .atom (if value then "true" else "false")

/-- The printed form of an optional text that is already quoted. -/
def ofOption : Option String → Shown
  | none => .atom "None"
  | some text => .present (.atom text)

mutual

def line : Shown → String
  | .atom text => text
  | .present value => "Some(" ++ line value ++ ")"
  | .record name fields => name ++ " \x7b" ++ lineFields fields ++ " \x7d"

/-- The fields of the one-line layout, each with what separates it from the one before. -/
def lineFields : ShownFields → String
  | .nil => ""
  | .cons name value .nil => " " ++ name ++ ": " ++ line value
  | .cons name value rest => " " ++ name ++ ": " ++ line value ++ "," ++ lineFields rest

end

/-- The white space before a line of the tall layout. -/
def indent (level : Nat) : String :=
  String.ofList (List.replicate (4 * level) ' ')

mutual

/-- The tall layout of a value that stands at the given level. -/
def tall (level : Nat) : Shown → String
  | .atom text => text
  | .present value =>
    "Some(\n" ++ indent (level + 1) ++ tall (level + 1) value ++ ",\n" ++ indent level ++ ")"
  | .record name fields =>
    name ++ " \x7b\n" ++ tallFields (level + 1) fields ++ indent level ++ "\x7d"

def tallFields (level : Nat) : ShownFields → String
  | .nil => ""
  | .cons name value rest =>
    indent level ++ name ++ ": " ++ tall level value ++ ",\n" ++ tallFields level rest

end

end Shown

end ContainerAttach.Text
