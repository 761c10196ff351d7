/-
Settings as TOML. Every entry may be missing and has its standard value then; entries
of other names are passed over.
-/
import WorldModel.Problem.Writer
import WorldModel.Toml.Decode

set_option autoImplicit false

namespace WorldModel

namespace Casing

/-- The name of a casing in settings. -/
def label : Casing → String
  | lower => "lower-identifiers"
  | asStored => "preserve"

/-- The casing of a name in settings. -/
def ofLabel? (s : String) : Option Casing :=
  if s = lower.label then some lower
  else if s = asStored.label then some asStored
  else none

/-- A casing: its name, or a table with its name as the only key and nothing in it. -/
def ofToml? : Toml → Option Casing
  | .string s => ofLabel? s
  | .table [(key, .table [])] => ofLabel? key
  | .table [(key, .array [])] => ofLabel? key
  | _ => none

end Casing

namespace Settings

/-- The settings in the entries of a document. -/
def ofEntries? (es : List (String × Toml)) : Option Settings := do
  let name ← Toml.entryOr? es "problem_name" Toml.string? standard.problemName
  let casing ← Toml.entryOr? es "case_folding" Casing.ofToml? standard.casing
  let indent ← Toml.entryOr? es "indent" Toml.nat? standard.indent
  return ⟨name, casing, indent⟩

/-- **Settings from text**, nothing if it is malformed or an entry has the wrong
shape. -/
def ofText? (s : String) : Option Settings :=
  (Toml.parse s).bind ofEntries?

/-- **Settings as text**, one entry a line. -/
def text (s : Settings) : String :=
  "problem_name = " ++ Toml.stringText s.problemName ++ "\ncase_folding = " ++
    Toml.stringText s.casing.label ++ "\nindent = " ++ toString s.indent ++ "\n"

end Settings

end WorldModel
