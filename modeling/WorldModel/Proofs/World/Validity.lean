/-
What validity depends on.

Whether an atom is valid is a question to the domain and to the objects of a world;
facts, fluents, contingent facts and the goal have no part in it. An atom stays valid as
long as each of its arguments names the object that it named before
(`validLiteral_mono`), and so does a term as long as its atoms do (`validTerm_mono`).
Spelling is no part of it either: an atom is valid under one spelling if it is under
another (`validLiteral_spell`, `validTerm_spell`).
-/
import Mathlib.Data.List.Forall2
import WorldModel.Proofs.Domain.Spelling
import WorldModel.Proofs.Formula.Unfold
import WorldModel.World.Validity

set_option autoImplicit false

namespace WorldModel.World

/-! ## Spelling -/

theorem spellLiteral_spell (w : World) (l : Literal) :
    w.spellLiteral (w.spellLiteral l) = w.spellLiteral l := by
  simp only [spellLiteral, Domain.spellPredicate_spell]

theorem spellFluent_spell (w : World) (f : Fluent) :
    w.spellFluent (w.spellFluent f) = w.spellFluent f := by
  simp only [spellFluent, Domain.spellFunction_spell]

theorem spellLiteral_of_spelled {w : World} {l : Literal}
    (spelled : w.domain.spellPredicate l.name = l.name) : w.spellLiteral l = l := by
  rw [spellLiteral, spelled]

theorem spellFluent_of_spelled {w : World} {f : Fluent}
    (spelled : w.domain.spellFunction f.name = f.name) : w.spellFluent f = f := by
  rw [spellFluent, spelled]

theorem hasFact_spell (w : World) (l : Literal) : w.hasFact (w.spellLiteral l) = w.hasFact l := by
  rw [hasFact, spellLiteral_spell, hasFact]

theorem hasFluent_spell (w : World) (f : Fluent) :
    w.hasFluent (w.spellFluent f) = w.hasFluent f := by
  rw [hasFluent, spellFluent_spell, hasFluent]

theorem validLiteral_spell (w : World) (l : Literal) :
    w.validLiteral (w.spellLiteral l) = w.validLiteral l := by
  simp only [validLiteral, spellLiteral, Domain.predicate?_spell]

theorem validFluent_spell (w : World) (f : Fluent) :
    w.validFluent (w.spellFluent f) = w.validFluent f := by
  simp only [validFluent, spellFluent, Domain.function?_spell]

/-! ## Arguments -/

/-- **Arguments that fit** a signature are as many as its positions, and each of them
names an object that its position accepts. -/
theorem argumentsFit_iff {w : World} {s : Signature} {as : List Argument} :
    w.argumentsFit s as = true ↔
      List.Forall₂ (fun slot a => ∃ e, w.object? a.name = some e ∧ slot.accepts e.typeName = true)
        s.slots as := by
  have fits_iff : ∀ slot a, w.fits slot a = true ↔
      ∃ e, w.object? a.name = some e ∧ slot.accepts e.typeName = true := by
    intro slot a
    rw [fits]
    cases w.object? a.name <;> simp
  rw [argumentsFit, Signature.arity, List.forall₂_iff_zip, Bool.and_eq_true, beq_iff_eq,
    List.all_eq_true]
  constructor
  · rintro ⟨length, each⟩
    exact ⟨length, fun mem => (fits_iff _ _).1 (each _ mem)⟩
  · rintro ⟨length, each⟩
    exact ⟨length, fun p mem => (fits_iff _ _).2 (each mem)⟩

theorem mem_of_object? {w : World} {name : String} {e : Entity} (h : w.object? name = some e) :
    e ∈ w.objects ∧ e.name = name :=
  ⟨List.mem_of_find?_eq_some h, by simpa using List.find?_some h⟩

/-- Arguments that fit name objects. -/
theorem object?_of_argumentsFit {w : World} {s : Signature} {as : List Argument}
    (fit : w.argumentsFit s as = true) {a : Argument} (mem : a ∈ as) :
    ∃ e, w.object? a.name = some e := by
  have pairs := List.Forall₂.flip (argumentsFit_iff.1 fit)
  obtain ⟨_, _, e, found, _⟩ := exists_mem_of_forall₂ pairs mem
  exact ⟨e, found⟩

/-- A valid literal names objects. -/
theorem object?_of_validLiteral {w : World} {l : Literal} (valid : w.validLiteral l = true)
    {a : Argument} (mem : a ∈ l.args) : ∃ e, w.object? a.name = some e := by
  rw [validLiteral] at valid
  split at valid
  · exact object?_of_argumentsFit valid mem
  · cases valid

/-- A valid fluent names objects. -/
theorem object?_of_validFluent {w : World} {f : Fluent} (valid : w.validFluent f = true)
    {a : Argument} (mem : a ∈ f.args) : ∃ e, w.object? a.name = some e := by
  rw [validFluent] at valid
  split at valid
  · exact object?_of_argumentsFit valid mem
  · cases valid

/-! ## From one world to another -/

/-- The arguments name in `v` what they name in `w`. -/
def Keeps (w v : World) (as : List Argument) : Prop :=
  ∀ a ∈ as, ∀ e, w.object? a.name = some e → v.object? a.name = some e

theorem keeps_of_objects {w v : World} (objects : v.objects = w.objects) (as : List Argument) :
    Keeps w v as := by
  intro a _ e found
  rw [object?, objects]
  exact found

/-- Arguments fit where they name the same objects. -/
theorem argumentsFit_mono {w v : World} {s : Signature} {as : List Argument} (keeps : Keeps w v as)
    (fit : w.argumentsFit s as = true) : v.argumentsFit s as = true := by
  rw [argumentsFit_iff, List.forall₂_iff_zip] at fit ⊢
  refine ⟨fit.1, fun mem => ?_⟩
  obtain ⟨e, found, accepted⟩ := fit.2 mem
  exact ⟨e, keeps _ (List.of_mem_zip mem).2 e found, accepted⟩

/-- **A literal stays valid** where its arguments name the same objects. -/
theorem validLiteral_mono {w v : World} {l : Literal} (domain : v.domain = w.domain)
    (keeps : Keeps w v l.args) (valid : w.validLiteral l = true) : v.validLiteral l = true := by
  rw [validLiteral] at valid ⊢
  rw [domain]
  split at valid
  · exact argumentsFit_mono keeps valid
  · cases valid

/-- **A fluent stays valid** where its arguments name the same objects. -/
theorem validFluent_mono {w v : World} {f : Fluent} (domain : v.domain = w.domain)
    (keeps : Keeps w v f.args) (valid : w.validFluent f = true) : v.validFluent f = true := by
  rw [validFluent] at valid ⊢
  rw [domain]
  split at valid
  · exact argumentsFit_mono keeps valid
  · cases valid

/-- Validity is a question to the domain and the objects. -/
theorem validLiteral_congr {w v : World} (domain : v.domain = w.domain)
    (objects : v.objects = w.objects) (l : Literal) : v.validLiteral l = w.validLiteral l := by
  rw [Bool.eq_iff_iff]
  exact ⟨validLiteral_mono domain.symm (keeps_of_objects objects.symm _),
    validLiteral_mono domain (keeps_of_objects objects _)⟩

theorem validFluent_congr {w v : World} (domain : v.domain = w.domain)
    (objects : v.objects = w.objects) (f : Fluent) : v.validFluent f = w.validFluent f := by
  rw [Bool.eq_iff_iff]
  exact ⟨validFluent_mono domain.symm (keeps_of_objects objects.symm _),
    validFluent_mono domain (keeps_of_objects objects _)⟩

/-- Nothing gets lost when an object is added. -/
theorem keeps_append (w : World) (es : List Entity) (as : List Argument) :
    Keeps w { w with objects := w.objects ++ es } as := by
  intro a _ e found
  rw [object?] at found
  rw [object?, List.find?_append, found]
  rfl

/-- What names another object than the one that is taken out is found as before. -/
theorem object?_eraseP {w : World} {object name : String} (other : name ≠ object) :
    World.object? { w with objects := w.objects.eraseP (·.name == object) } name =
      w.object? name := by
  simp only [object?]
  induction w.objects with
  | nil => rfl
  | cons e es ih =>
    by_cases erased : e.name = object
    · rw [List.eraseP_cons_of_pos (by simp [erased]), List.find?_cons_of_neg]
      simpa [erased] using fun same : object = name => other same.symm
    · rw [List.eraseP_cons_of_neg (by simp [erased]), List.find?_cons, List.find?_cons, ih]

/-- Arguments that do not name the object do not notice that it goes. -/
theorem keeps_eraseP {w : World} {object : String} {as : List Argument}
    (silent : argumentsMention as object = false) :
    Keeps w { w with objects := w.objects.eraseP (·.name == object) } as := by
  intro a mem e found
  have other : a.name ≠ object := by simpa using List.any_eq_false.1 silent a mem
  rw [object?_eraseP other, found]

/-! ## Terms -/

theorem validTerms_eq (w : World) (ts : List Term) : w.validTerms ts = ts.all w.validTerm := by
  induction ts with
  | nil => rfl
  | cons t ts ih => rw [validTerms, ih, List.all_cons]

/-- The kind of a node as it is checked: an atom must be valid. -/
def ValidKind (w : World) : NodeKind → Prop
  | .predicate l => w.validLiteral l = true
  | .function f => w.validFluent f = true
  | _ => True

/-- **A term is valid** when its top is and what stands below: an atom must be valid, a NOT and
an UNKNOWN have one child, and below an atom or a number nothing is looked at. -/
theorem validTerm_iff {w : World} {k : NodeKind} {cs : List Term} :
    w.validTerm (.node k cs) = true ↔
      (w.ValidKind k ∧ (k = .not ∨ k = .unknown → cs.length = 1)) ∧
        (k.keyword? ≠ none → ∀ c ∈ cs, w.validTerm c = true) := by
  have below : w.validTerms cs = true ↔ ∀ c ∈ cs, w.validTerm c = true := by
    rw [validTerms_eq, List.all_eq_true]
  match k with
  | .and | .or | .oneOf | .expression _ | .update _ =>
    simp [validTerm, ValidKind, NodeKind.keyword?, below]
  | .not | .unknown => simp [validTerm, ValidKind, NodeKind.keyword?, below]
  | .predicate _ | .function _ | .number _ => simp [validTerm, ValidKind, NodeKind.keyword?]

/-- **A bare term is valid** when its atoms are and every NOT and UNKNOWN in it has one
child: nothing in it is passed over. -/
theorem validTerm_node_iff {w : World} {k : NodeKind} {cs : List Term}
    (leaf : k.keyword? = none → cs = []) :
    w.validTerm (.node k cs) = true ↔
      w.ValidKind k ∧ (k = .not ∨ k = .unknown → cs.length = 1) ∧
        ∀ c ∈ cs, w.validTerm c = true := by
  rw [validTerm_iff, and_assoc]
  refine and_congr_right fun _ => and_congr_right fun _ => ⟨fun seen c mem => ?_, fun all _ => all⟩
  exact seen (fun word => by rw [leaf word] at mem; cases mem) c mem

/-- All atoms of a valid bare term are valid. -/
theorem validKind_of_validTerm {w : World} {t : Term} (bare : t.Bare)
    (valid : w.validTerm t = true) : ∀ k ∈ t.kinds, w.ValidKind k := by
  induction bare with
  | node leaf _ ih =>
    obtain ⟨top, _, below⟩ := (validTerm_node_iff leaf).1 valid
    exact Term.forall_kinds_node.2 ⟨top, fun c mem => ih c mem (below c mem)⟩

/-- **A term stays valid** where its atoms do. -/
theorem validTerm_mono {w v : World} {t : Term} (bare : t.Bare)
    (atoms : ∀ k ∈ t.kinds, w.ValidKind k → v.ValidKind k) (valid : w.validTerm t = true) :
    v.validTerm t = true := by
  induction bare with
  | node leaf _ ih =>
    obtain ⟨top, single, below⟩ := (validTerm_node_iff leaf).1 valid
    obtain ⟨first, later⟩ := Term.forall_kinds_node.1 atoms
    refine (validTerm_node_iff leaf).2 ⟨first top, single, fun c mem => ?_⟩
    exact ih c mem (later c mem) (below c mem)

theorem validTerm_congr {w v : World} (domain : v.domain = w.domain)
    (objects : v.objects = w.objects) (t : Term) : v.validTerm t = w.validTerm t := by
  induction t with
  | node k cs ih =>
    have below : v.validTerms cs = w.validTerms cs := by
      rw [validTerms_eq, validTerms_eq, Bool.eq_iff_iff, List.all_eq_true, List.all_eq_true]
      exact forall₂_congr fun c mem => by rw [ih c mem]
    match k with
    | .and | .or | .oneOf | .expression _ | .update _ => rw [validTerm, validTerm, below]
    | .not | .unknown => rw [validTerm, validTerm, below]
    | .predicate l => exact validLiteral_congr domain objects l
    | .function f => exact validFluent_congr domain objects f
    | .number _ => rfl

/-- The kinds of a term in the domain's spelling. -/
def spellKind (w : World) (k : NodeKind) : NodeKind :=
  k.rename w.domain.spellPredicate w.domain.spellFunction

theorem term?_spellFormula (w : World) (f : Formula) :
    (w.spellFormula f).term? = f.term?.map (Term.mapKinds w.spellKind) :=
  Formula.term?_renameAtoms f _ _

theorem spellKind_spellKind (w : World) (k : NodeKind) :
    w.spellKind (w.spellKind k) = w.spellKind k := by
  cases k <;>
    simp only [spellKind, NodeKind.rename, Domain.spellPredicate_spell,
      Domain.spellFunction_spell]

theorem spellFormula_spell (w : World) (f : Formula) :
    w.spellFormula (w.spellFormula f) = w.spellFormula f := by
  rw [spellFormula, spellFormula, Formula.renameAtoms, Formula.renameAtoms, Array.map_map]
  congr 2
  funext n
  exact congrArg (fun k => { n with kind := k }) (w.spellKind_spellKind n.kind)

/-- **A term is valid under one spelling** if it is under another. -/
theorem validTerm_spell (w : World) (t : Term) :
    w.validTerm (t.mapKinds w.spellKind) = w.validTerm t := by
  induction t with
  | node k cs ih =>
    have below : w.validTerms (cs.map (Term.mapKinds w.spellKind)) = w.validTerms cs := by
      rw [validTerms_eq, validTerms_eq, List.all_map, Bool.eq_iff_iff, List.all_eq_true,
        List.all_eq_true]
      exact forall₂_congr fun c mem => by rw [Function.comp_apply, ih c mem]
    rw [Term.mapKinds_node]
    match k with
    | .and | .or | .oneOf | .expression _ | .update _ =>
      simp only [spellKind, NodeKind.rename, validTerm, below]
    | .not | .unknown =>
      simp only [spellKind, NodeKind.rename, validTerm, below, List.length_map]
    | .predicate l => exact validLiteral_spell w l
    | .function f => exact validFluent_spell w f
    | .number _ => rfl

theorem validFormula_of_term? {w : World} {f : Formula} {t : Term} (h : f.term? = some t) :
    w.validFormula f = w.validTerm t := by
  have nonempty : f.isEmpty = false := by
    rw [← Bool.not_eq_true, ← Formula.term?_eq_none_iff, h]
    exact Option.some_ne_none t
  rw [Formula.term?] at h
  rw [validFormula, nonempty, Bool.false_or, validAt, h]

/-- A formula is valid under one spelling if it is under another. -/
theorem validFormula_spell (w : World) (f : Formula) :
    w.validFormula (w.spellFormula f) = w.validFormula f := by
  cases h : f.term? with
  | none =>
    have empty := Formula.term?_eq_none_iff.1 h
    rw [validFormula, validFormula, spellFormula, Formula.isEmpty_renameAtoms, empty]
    rfl
  | some t =>
    have spelled : (w.spellFormula f).term? = some (t.mapKinds w.spellKind) := by
      rw [term?_spellFormula, h, Option.map_some]
    rw [validFormula_of_term? spelled, validFormula_of_term? h, validTerm_spell]

theorem validFormula_congr {w v : World} (domain : v.domain = w.domain)
    (objects : v.objects = w.objects) (f : Formula) : v.validFormula f = w.validFormula f := by
  have terms : v.validTerm = w.validTerm := funext (validTerm_congr domain objects)
  rw [validFormula, validFormula, validAt, validAt, terms]

end WorldModel.World
