/-
The spelling of declared names.

A domain finds a symbol under every spelling of its name and answers with the one it
uses itself. Two facts carry everything that compares names: a name and its spelling
have the same signature (`predicate?_spell`, `function?_spell`), and spelling a second
time changes nothing (`spellPredicate_spell`, `spellFunction_spell`). Predicates and
functions are two tables that are looked up in the same way, so both facts are proved
once, of a table (`signatureIn`, `spellIn`).
-/
import WorldModel.Proofs.Text.LowerCase

set_option autoImplicit false

namespace WorldModel.Domain

/-! ## One table -/

/-- The signature of a symbol of the table, under any spelling. -/
def signatureIn (d : Domain) (table : Table (List String)) (name : String) : Option Signature :=
  (table.find? (fold name)).map (d.signature (fold name))

/-- The name of a symbol as the table has it; any other name as it is. -/
def spellIn (d : Domain) (table : Table (List String)) (name : String) : String :=
  match d.signatureIn table name with
  | some s => s.name
  | none => name

variable {d : Domain} {t : Table (List String)}

theorem name_of_signatureIn {name : String} {s : Signature}
    (h : d.signatureIn t name = some s) : s.name = fold name := by
  obtain ⟨types, _, rfl⟩ := Option.map_eq_some_iff.1 h
  rfl

theorem signatureIn_fold (name : String) :
    d.signatureIn t (fold name) = d.signatureIn t name := by
  rw [signatureIn, signatureIn, fold_fold]

theorem spellIn_of_some {name : String} {s : Signature} (h : d.signatureIn t name = some s) :
    d.spellIn t name = s.name := by
  rw [spellIn, h]

theorem spellIn_of_none {name : String} (h : d.signatureIn t name = none) :
    d.spellIn t name = name := by
  rw [spellIn, h]

/-- **A name and its spelling** have the same signature. -/
theorem signatureIn_spellIn (name : String) :
    d.signatureIn t (d.spellIn t name) = d.signatureIn t name := by
  cases h : d.signatureIn t name with
  | none => rw [spellIn_of_none h, h]
  | some s => rw [spellIn_of_some h, name_of_signatureIn h, signatureIn_fold, h]

/-- Spelling a second time changes nothing. -/
theorem spellIn_spellIn (name : String) :
    d.spellIn t (d.spellIn t name) = d.spellIn t name := by
  cases h : d.signatureIn t name with
  | none => rw [spellIn_of_none h, spellIn_of_none h]
  | some s =>
    have again : d.signatureIn t (d.spellIn t name) = some s := by
      rw [signatureIn_spellIn, h]
    rw [spellIn_of_some again, spellIn_of_some h]

/-! ## Predicates and functions -/

theorem predicate?_spell (d : Domain) (name : String) :
    d.predicate? (d.spellPredicate name) = d.predicate? name :=
  signatureIn_spellIn (t := d.predicates) name

theorem function?_spell (d : Domain) (name : String) :
    d.function? (d.spellFunction name) = d.function? name :=
  signatureIn_spellIn (t := d.functions) name

theorem spellPredicate_spell (d : Domain) (name : String) :
    d.spellPredicate (d.spellPredicate name) = d.spellPredicate name :=
  spellIn_spellIn (t := d.predicates) name

theorem spellFunction_spell (d : Domain) (name : String) :
    d.spellFunction (d.spellFunction name) = d.spellFunction name :=
  spellIn_spellIn (t := d.functions) name

theorem name_of_predicate? {d : Domain} {name : String} {s : Signature}
    (h : d.predicate? name = some s) (spelled : d.spellPredicate name = name) : s.name = name :=
  (spellIn_of_some (t := d.predicates) h).symm.trans spelled

theorem name_of_function? {d : Domain} {name : String} {s : Signature}
    (h : d.function? name = some s) (spelled : d.spellFunction name = name) : s.name = name :=
  (spellIn_of_some (t := d.functions) h).symm.trans spelled

/-! ## Letters -/

/-- The name of a declared symbol has no capitals. -/
theorem lower_of_predicate? {d : Domain} {name : String} {s : Signature}
    (h : d.predicate? name = some s) : Text.lower s.name = s.name := by
  rw [name_of_signatureIn (t := d.predicates) h, fold, Text.lower_lower]

theorem lower_of_function? {d : Domain} {name : String} {s : Signature}
    (h : d.function? name = some s) : Text.lower s.name = s.name := by
  rw [name_of_signatureIn (t := d.functions) h, fold, Text.lower_lower]

/-- Nor have the types of a hierarchy. -/
theorem lower_of_mem_hierarchyOf {types : Table String} :
    ∀ type ∈ Table.keys (hierarchyOf types), Text.lower type = type := by
  rw [hierarchyOf]
  refine List.foldlRecOn (motive := fun h => ∀ type ∈ Table.keys h, Text.lower type = type)
    types _ ?_ fun h settled p _ => ?_
  · intro type mem
    rw [List.mem_singleton.1 mem]
    decide +kernel
  · intro type mem
    split at mem
    · exact settled type mem
    · rcases Table.mem_keys_insert.1 mem with same | mem
      · rw [same, fold, Text.lower_lower]
      · exact settled type mem

end WorldModel.Domain
