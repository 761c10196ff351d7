/-
What is expected of TOML values: strings, lists of strings, natural numbers and
tables of such. Each reader answers with nothing when a value is of another shape;
tables come out in the order of their keys. A date is none of these by itself, but may
stand for a table.
-/
import WorldModel.Table
import WorldModel.Toml.Parser

set_option autoImplicit false

namespace WorldModel.Toml

/-- A string. -/
def string? : Toml → Option String
  | string s => some s
  | _ => none

/-- An integer that is not negative. -/
def nat? : Toml → Option Nat
  | integer n => if 0 ≤ n then some n.toNat else none
  | _ => none

/-- An array of strings. -/
def strings? : Toml → Option (List String)
  | array items => items.mapM string?
  | _ => none

/-- The key of the text of a date that stands for a table. -/
def dateKey : String :=
  "$__toml_private_datetime"

/-- The entries of a table. A date stands for the table that holds nothing but its
text. -/
def entries? : Toml → Option (List (String × Toml))
  | table entries => some entries
  | date d => some [(dateKey, string d.text)]
  | _ => none

/-- A table whose values all have the shape that `read?` accepts. -/
def table? {α : Type} (read? : Toml → Option α) (v : Toml) : Option (Table α) := do
  let entries ← v.entries?
  let values ← entries.mapM fun e => (read? e.2).map (e.1, ·)
  return Table.ofList values

/-- The value of a key, if there is one. -/
def entry? (entries : List (String × Toml)) (key : String) : Option Toml :=
  (entries.find? fun e => e.1 == key).map (·.2)

/-- The value of a key in the shape that `read?` accepts, or a default if the key is
missing; a value of another shape is refused. -/
def entryOr? {α : Type} (entries : List (String × Toml)) (key : String)
    (read? : Toml → Option α) (default : α) : Option α :=
  match entry? entries key with
  | some v => read? v
  | none => some default

end WorldModel.Toml
