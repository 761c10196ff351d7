/-
Values of the settings format TOML, and the tables they are collected in.

A finished value is a `Toml`. While a document is read its tables are still open in
different ways: a table that was only passed through on the way to another may get a
header of its own, one that has a header may not get a second, and one that came
from a dotted key takes further dotted keys but no header. `Draft` keeps this apart;
the three operations at the end are what a header, a header of an array of tables
and a key do to the tables of a document, or nothing if that is not allowed.
-/
import WorldModel.Toml.Date

set_option autoImplicit false

namespace WorldModel

/-- A value. Numbers with a fraction are kept as written. -/
inductive Toml where
  | string (s : String)
  | integer (n : Int)
  | float (text : String)
  | boolean (b : Bool)
  | date (d : Toml.Date)
  | array (items : List Toml)
  | table (entries : List (String × Toml))
deriving Inhabited

namespace Toml

/-- How a table came to be. -/
inductive Origin where
  /-- Passed through by a header. -/
  | passed
  /-- Opened by a header of its own. -/
  | header
  /-- Made by a dotted key. -/
  | dotted
deriving DecidableEq

/-- A value or a table that may still grow. -/
inductive Draft where
  | value (v : Toml)
  | table (origin : Origin) (entries : List (String × Draft))
  | tables (elements : List (List (String × Draft)))
deriving Inhabited

/-- The entries of a table that may still grow. -/
abbrev Entries :=
  List (String × Draft)

namespace Draft

mutual

/-- The finished value. -/
def finish : Draft → Toml
  | value v => v
  | table _ es => .table (finishEntries es)
  | tables ts => .array (finishTables ts)

/-- The finished entries. -/
def finishEntries : List (String × Draft) → List (String × Toml)
  | [] => []
  | (k, d) :: es => (k, finish d) :: finishEntries es

/-- The finished tables. -/
def finishTables : List (List (String × Draft)) → List Toml
  | [] => []
  | t :: ts => .table (finishEntries t) :: finishTables ts

end

end Draft

namespace Entries

/-- The entry of a key. -/
def find? (es : Entries) (key : String) : Option Draft :=
  (List.find? (fun e => e.1 == key) es).map (·.2)

/-- Replaces the entry of a key, or adds one. -/
def set (es : Entries) (key : String) (d : Draft) : Entries :=
  if es.any (·.1 == key) then es.map fun e => if e.1 == key then (key, d) else e
  else es ++ [(key, d)]

/-- Replaces the last table of an array of tables. -/
def setLast (ts : List Entries) (es : Entries) : List Entries :=
  ts.dropLast ++ [es]

/-- Goes down into the table of a key, made as `fresh` if it is missing, and applies
`change` to its entries; only a table whose origin is `allowed` is entered. -/
def descend (key : String) (fresh : Origin) (allowed : Origin → Bool)
    (change : Origin → Entries → Option Entries) (es : Entries) : Option Entries :=
  match es.find? key with
  | none => (change fresh []).map fun sub => es.set key (.table fresh sub)
  | some (.value _) => none
  | some (.tables ts) =>
    (change .header (ts.getLastD [])).map fun sub => es.set key (.tables (setLast ts sub))
  | some (.table o sub) =>
    if allowed o then (change o sub).map fun sub => es.set key (.table o sub) else none

/-! ## Headers and keys -/

/-- Opens a table by its header. -/
def openTable : (path : List String) → Entries → Option Entries
  | [], _ => none
  | [key], es =>
    match es.find? key with
    | none => some (es.set key (.table .header []))
    | some (.table .passed sub) => some (es.set key (.table .header sub))
    | some _ => none
  | key :: path, es => es.descend key .passed (fun _ => true) fun _ sub => openTable path sub

/-- Opens another table of an array of tables by its header. -/
def openElement : (path : List String) → Entries → Option Entries
  | [], _ => none
  | [key], es =>
    match es.find? key with
    | none => some (es.set key (.tables [[]]))
    | some (.tables ts) => some (es.set key (.tables (ts ++ [[]])))
    | some _ => none
  | key :: path, es => es.descend key .passed (fun _ => true) fun _ sub => openElement path sub

/-- Adds a key that is not there yet. -/
def add (key : String) (v : Toml) (es : Entries) : Option Entries :=
  if es.any (·.1 == key) then none else some (es ++ [(key, .value v)])

/-- Adds a value under a dotted key, seen from the table of the given origin. Tables
on the way must not have a header, and the last one must come from a dotted key. -/
def addDotted (v : Toml) (key : String) : (path : List String) → Origin → Entries →
    Option Entries
  | [], o, es => if o = .dotted then es.add key v else none
  | k :: path, _, es => es.descend k .dotted (· != .header) (addDotted v key path)

/-- Adds a value under a key, dotted if `path` is not empty. -/
def put (path : List String) (key : String) (v : Toml) (es : Entries) : Option Entries :=
  if path.isEmpty then es.add key v else addDotted v key path .dotted es

/-- Applies a change to the table of a header that has been opened. -/
def within (change : Entries → Option Entries) : (path : List String) → Entries →
    Option Entries
  | [], es => change es
  | key :: path, es => es.descend key .passed (fun _ => true) fun _ sub =>
    within change path sub

end Entries

end Toml

end WorldModel
