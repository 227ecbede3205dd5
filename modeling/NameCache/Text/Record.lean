/-
  Records shown as text: a name, then the fields between braces, each as `label: value`.  An open
  record ends in two dots, which stand for fields that are not shown.
-/
namespace NameCache.Text.Record

/-- The fields of a record, separated by commas. -/
def fieldList (fields : List (String × String)) : String :=
  ", ".intercalate (fields.map fun (label, value) => label ++ ": " ++ value)

/-- A record all of whose fields are shown. -/
def whole (name : String) (fields : List (String × String)) : String :=
  name ++ " \x7b " ++ fieldList fields ++ " \x7d"

/-- A record with further fields that are not shown. -/
def abridged (name : String) (fields : List (String × String)) : String :=
  name ++ " \x7b " ++ fieldList fields ++ ", .. \x7d"

/-- A value in the brackets of a constructor. -/
def wrapped (name value : String) : String := name ++ "(" ++ value ++ ")"

/-- A truth value. -/
def flag (b : Bool) : String := if b then "true" else "false"

end NameCache.Text.Record
