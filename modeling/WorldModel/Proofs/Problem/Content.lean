/-
What a problem text holds, section by section, before it is written and after it is read.

The contents of a problem are objects, facts, contingent facts, fluents and a goal, the
formulas as terms. If all of them are as the reader makes them (`Content.Readable`), then
reading the form of the contents gives a problem with the same contents, but for the types
of arguments (`problem_of_form`).
-/
import WorldModel.Proofs.Problem.Reread

set_option autoImplicit false

namespace WorldModel

open Reader

theorem Reader.Possible.ofWords {P : String → Prop} {t : Term} (h : Possible P t) :
    ∀ k ∈ t.kinds, k.OfWords P := by
  rcases h with words | words | words
  · exact ofWords_flat (k := .unknown) trivial (List.forall_mem_singleton.2 words)
  · exact ofWords_flat (k := .oneOf) trivial words
  · exact ofWords_flat (k := .or) trivial words

/-- **The contents of a problem.** -/
structure Content where
  objects : List Entity
  facts : List Literal
  contingents : List Term
  fluents : List Fluent
  goal : Option Term

namespace Content

/-- The forms in the section of the initial state, the values of fluents in the given
words. -/
def initForms (c : Content) (number : Float → String) : List Form :=
  c.facts.map Literal.form ++ c.contingents.map Term.form ++
    c.fluents.map fun f => f.form (number f.value)

/-- The form of the whole text, the values of fluents in the given words. -/
def form (c : Content) (number : Float → String) (name domain : String) : Form :=
  problemForm name domain (objectForms c.objects) (c.initForms number) (c.goal.map Term.form)

/-- The items that the reader finds in the initial state, arguments typed by the given function. -/
def items (c : Content) (typeOf : TypeOf) : List InitItem :=
  c.facts.map (fun l => .certain (leaf (.predicate (l.retype typeOf)))) ++
    c.contingents.map (fun t => .contingent (t.retype typeOf)) ++
    c.fluents.map fun f => .certain (leaf (.function (f.retype typeOf)))

/-- The problem with these contents, arguments typed by the given function. -/
def problem (c : Content) (name : String) (typeOf : TypeOf) : Problem where
  name := name
  objects := c.objects
  init := c.facts.map (fun l => .ofTerm (leaf (.predicate (l.retype typeOf)))) ++
    c.fluents.map fun f => .ofTerm (leaf (.function (f.retype typeOf)))
  contingent := c.contingents.map fun t => .ofTerm (t.retype typeOf)
  goal := c.goal.map fun t => .ofTerm (t.retype typeOf)

/-- What the reader makes of the sections with these contents. -/
def parts (c : Content) (ss : List SExpr) (name : String) (typeOf : TypeOf) : Parts :=
  ⟨ss, name, c.objects.map fun e => (e.name, e.typeName), c.items typeOf,
    (c.problem name typeOf).goal⟩

/-- **The contents are as the reader makes them**, and no fact goes by a word that means
something else. -/
structure Readable (P : String → Prop) (c : Content) : Prop where
  objects : ∀ e ∈ c.objects, ObjectWords P (e.name, e.typeName)
  facts : ∀ l ∈ c.facts, ReadLiteral P l
  free : ∀ l ∈ c.facts, l.name ∉ reservedHeads
  contingents : ∀ t ∈ c.contingents, Possible P t
  fluents : ∀ f ∈ c.fluents, AtomWords P f.name f.args
  goal : ∀ t ∈ c.goal, Logical P t

variable {P : String → Prop} {c : Content} {number : Float → String}

/-- The initial state is read back, if the values of the fluents are. -/
theorem mapM_initItem_of_forms (h : c.Readable P)
    (values : ∀ f ∈ c.fluents, Number.read? (number f.value) = some f.value) (typeOf : TypeOf)
    {sxs : List SExpr} (forms : sxs.map SExpr.form = c.initForms number) :
    sxs.mapM (initItem typeOf) = .ok (c.items typeOf) := by
  obtain ⟨before, last, rfl, formsBefore, formsFluents⟩ := List.map_eq_append_iff.1 forms
  obtain ⟨first, second, rfl, formsFacts, formsContingents⟩ := List.map_eq_append_iff.1 formsBefore
  have facts : first.mapM (initItem typeOf) = .ok _ := mapM_of_forms formsFacts
    fun l mem _ form => initItem_of_literal (h.facts l mem) (h.free l mem) form
  have contingents : second.mapM (initItem typeOf) = .ok _ := mapM_of_forms formsContingents
    fun t mem _ form => initItem_of_possible (h.contingents t mem) form
  have fluents : last.mapM (initItem typeOf) = .ok _ := mapM_of_forms formsFluents
    fun f mem _ form => initItem_of_fluent (h.fluents f mem) (values f mem) form
  rw [List.mapM_append, List.mapM_append, facts, contingents, fluents]
  rfl

/-- The items fall into those that are certain and those that are not. -/
theorem filterMap_items (c : Content) (name : String) (typeOf : TypeOf) :
    (c.items typeOf).filterMap InitItem.certain? = (c.problem name typeOf).init ∧
      (c.items typeOf).filterMap InitItem.contingent? = (c.problem name typeOf).contingent := by
  simp only [items, problem, List.filterMap_append, List.filterMap_map, Function.comp_def,
    InitItem.certain?, InitItem.contingent?, List.filterMap_eq_map', List.filterMap_none,
    List.append_nil, List.nil_append, and_self]

theorem objects_parts (c : Content) (ss : List SExpr) (name : String) (typeOf : TypeOf) :
    (c.parts ss name typeOf).objects = c.objects := by
  rw [Parts.objects, parts, List.map_map]
  exact List.map_id c.objects

theorem problem_parts (c : Content) (ss : List SExpr) (name : String) (typeOf : TypeOf) :
    (c.parts ss name typeOf).problem = c.problem name typeOf := by
  obtain ⟨certain, contingent⟩ := c.filterMap_items name typeOf
  rw [Parts.problem, objects_parts, parts, certain, contingent]
  rfl

/-- The goal is read back; the goal section is there exactly if a goal is set. -/
theorem goal_of_forms (h : c.Readable P) (name : String) (typeOf : TypeOf)
    {section_ : Option (List SExpr)}
    (forms : section_.map (List.map SExpr.form) = (c.goal.map Term.form).map fun g => [g]) :
    Reader.goal typeOf section_ = .ok (c.problem name typeOf).goal := by
  rw [problem]
  cases goal : c.goal with
  | none =>
    rw [goal] at forms
    rw [Option.map_eq_none_iff.1 forms]
    rfl
  | some t =>
    rw [goal] at forms
    obtain ⟨sxs, rfl, only⟩ := Option.map_eq_some_iff.1 forms
    obtain ⟨sought, rfl, form⟩ := exists_eq_singleton_of_forms (t := t) only
    rw [Reader.goal, logical_of_form (h.goal t goal) form]
    rfl

/-- **Contents are read back** from their form. -/
theorem problem_of_form (h : c.Readable P) {s name domain : String} {sx : SExpr}
    (parsed : SExpr.parse s = .ok [sx]) (form : sx.form = c.form number name domain)
    (values : ∀ f ∈ c.fluents, Number.read? (number f.value) = some f.value) (d : Domain) :
    Reader.problem s d = .ok (c.problem name (typeAmong (d.constants ++ c.objects))) := by
  obtain ⟨ss, found, hold⟩ := exists_sections_of_form form
  obtain ⟨objectItems, objects, objectForms⟩ := hold.objects
  obtain ⟨initItems, init, initForms⟩ := hold.init
  -- the types are known once the objects are read, and those are the ones written
  have types : (c.parts ss name (typeAmong (d.constants ++ c.objects))).typeOf d =
      typeAmong (d.constants ++ c.objects) := by
    rw [Parts.typeOf, objects_parts]
  refine problem_eq_ok_iff.2 ⟨c.parts ss name (typeAmong (d.constants ++ c.objects)),
    ⟨⟨[sx], parsed, found⟩, hold.name, ?_, hold.known, ?_, ?_, ?_⟩, (problem_parts c ss _ _).symm⟩
  · rw [parts, hold.domain]
    rfl
  · rw [parts, objects, Option.getD_some]
    exact typedList_of_forms (fun e mem => (h.objects e mem).name_ne_dash) objectForms
  · rw [types, parts, init, Option.getD_some]
    exact mapM_initItem_of_forms h values _ initForms
  · rw [types]
    exact goal_of_forms h name _ hold.goal

end Content

end WorldModel
