/-
Domains from their description in TOML. Only the name is required; every other entry
may be missing, and entries of other names are passed over.
-/
import WorldModel.Domain.Basic
import WorldModel.Toml.Decode

set_option autoImplicit false

namespace WorldModel

/-- Why a text describes no domain. -/
inductive DescriptionError where
  /-- The text is no TOML, or an entry has the wrong shape. -/
  | malformed
  /-- The description contradicts itself. -/
  | invalid (error : DomainError)
deriving DecidableEq

/-- The message of an error. -/
def DescriptionError.message : DescriptionError → String
  | malformed => "failed to parse domain description"
  | invalid e => e.message

/-- The description in the entries of a document. -/
def Description.ofEntries? (es : List (String × Toml)) : Option Description := do
  let name ← (← Toml.entry? es "name").string?
  let requirements ← Toml.entryOr? es "requirements" Toml.strings? []
  let types ← Toml.entryOr? es "types" (Toml.table? Toml.string?) []
  let predicates ← Toml.entryOr? es "predicates" (Toml.table? Toml.strings?) []
  let functions ← Toml.entryOr? es "functions" (Toml.table? Toml.strings?) []
  let constants ← Toml.entryOr? es "constants" (Toml.table? Toml.strings?) []
  return ⟨name, requirements, types, predicates, functions, constants⟩

/-- **A domain from its description.** -/
def Domain.ofText (s : String) : Except DescriptionError Domain :=
  match (Toml.parse s).bind Description.ofEntries? with
  | none => .error .malformed
  | some d => (Domain.ofDescription d).mapError .invalid

end WorldModel
