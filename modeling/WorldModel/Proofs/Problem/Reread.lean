/-
Reading what has been written.

An expression with the form of an atom, of a term or of an item of the initial state is
read as that again, with its arguments retyped (`literal_of_form`, `numeric_of_form`,
`logical_of_form`). For a term this takes that it was read before: a one-of over something
other than literals, say, is written as any other term and refused when it is read. In the
initial state it takes besides that no fact goes by one of the words that the reader gives
another meaning there (`initItem_of_literal`).
-/
import WorldModel.Proofs.Problem.Sections
import WorldModel.Proofs.Problem.Written

set_option autoImplicit false

namespace WorldModel.Reader

variable {P : String → Prop} {typeOf : TypeOf} {sx : SExpr}

/-! ## Several expressions -/

/-- **Expressions of the forms of some things** are read as these, one by one. -/
theorem mapM_of_forms {α β : Type} {read : SExpr → Result β} {form : α → Form} {out : α → β}
    {as : List α} {sxs : List SExpr} (forms : sxs.map SExpr.form = as.map form)
    (each : ∀ a ∈ as, ∀ sx, sx.form = form a → read sx = .ok (out a)) :
    sxs.mapM read = .ok (as.map out) := by
  rw [mapM_eq_ok_iff]
  induction as generalizing sxs with
  | nil =>
    rw [List.map_eq_nil_iff.1 forms]
    exact .nil
  | cons a as ih =>
    obtain ⟨sx, rest, rfl, first, later⟩ := List.map_eq_cons_iff.1 forms
    obtain ⟨readFirst, readLater⟩ := List.forall_mem_cons.1 each
    exact .cons (readFirst sx first) (ih later readLater)

/-! ## Atoms -/

theorem arguments_of_forms {name : String} {as : List Argument} {sxs : List SExpr}
    (words : AtomWords P name as) (forms : sxs.map SExpr.form = as.map fun a => .word a.name) :
    sxs.mapM (argument typeOf) = .ok (retypeArguments typeOf as) :=
  mapM_of_forms forms fun a mem _ form =>
    argument_eq_ok_iff.2 ⟨a.name, form, words.constants a mem, rfl⟩

/-- **A literal is read back.** -/
theorem literal_of_form {l : Literal} (h : ReadLiteral P l) (form : sx.form = l.form) :
    literal typeOf sx = .ok (l.retype typeOf) := by
  -- the atom is read the same way on its own and under `not`
  have positive : ∀ sx : SExpr, sx.form = atomForm l.name l.args →
      literal typeOf sx = .ok ⟨l.name, retypeArguments typeOf l.args, false⟩ := by
    intro sx form
    obtain ⟨place, args, span, rfl, forms⟩ := SExpr.exists_headed_of_form form
    rw [literal.eq_def]
    dsimp only
    rw [if_neg h.name_ne_not, arguments_of_forms h.words forms]
    rfl
  rw [Literal.form] at form
  obtain ⟨name, as, negated⟩ := l
  cases negated with
  | false => exact positive sx form
  | true =>
    obtain ⟨place, args, span, rfl, forms⟩ := SExpr.exists_headed_of_form form
    obtain ⟨inner, rest, rfl, atom, none_⟩ := List.map_eq_cons_iff.1 forms
    obtain rfl := List.map_eq_nil_iff.1 none_
    rw [literal.eq_def]
    dsimp only
    rw [if_pos rfl, positive inner atom]
    rfl

/-- A fluent term is read back, without a value. -/
theorem fluentTerm_of_form {name : String} {as : List Argument} (words : AtomWords P name as)
    (form : sx.form = atomForm name as) :
    fluentTerm typeOf sx = .ok ⟨name, retypeArguments typeOf as, 0⟩ := by
  obtain ⟨place, args, span, rfl, forms⟩ := SExpr.exists_headed_of_form form
  exact fluentTerm_eq_ok_iff.2 ⟨name, args, _, rfl, arguments_of_forms words forms, rfl⟩

/-- A word that a number is read from. -/
theorem number_of_word {x : Float} {word : String} (reads : Number.read? word = some x)
    (form : sx.form = .word word) : number sx = .ok x := by
  obtain ⟨span, rfl⟩ := SExpr.exists_atom_of_form form
  rw [number, SExpr.atom?, Option.bind_some, reads]

/-- **A number is read back.** -/
theorem number_of_form {x : Float} (form : sx.form = numberForm x) : number sx = .ok x :=
  number_of_word (read?_lower_write x) form

/-- **A fluent is read back** with its value. -/
theorem assignment_of_form {f : Fluent} {value : String} (words : AtomWords P f.name f.args)
    (reads : Number.read? value = some f.value) (form : sx.form = f.form value) :
    assignment typeOf sx = .ok (f.retype typeOf) := by
  obtain ⟨place, args, span, rfl, forms⟩ := SExpr.exists_headed_of_form form
  obtain ⟨term, rest, rfl, termForm, forms⟩ := List.map_eq_cons_iff.1 forms
  obtain ⟨value, rest, rfl, valueForm, none_⟩ := List.map_eq_cons_iff.1 forms
  obtain rfl := List.map_eq_nil_iff.1 none_
  exact assignment_eq_ok_iff.2 ⟨term, value, _, f.value, rfl, fluentTerm_of_form words termForm,
    number_of_word reads valueForm, rfl⟩

/-! ## Numeric expressions -/

/-- The form of a node that is no leaf has its word at the head, and the forms of the
subterms behind it. -/
theorem exists_headed_of_node {k : NodeKind} {word : String} {cs : List Term}
    (head : k.keyword? = some word) (form : sx.form = (Term.node k cs).form) :
    ∃ place args span, sx = .list (.atom word place :: args) span ∧
      args.map SExpr.form = cs.map Term.form := by
  rw [Term.form_of_keyword? head] at form
  exact SExpr.exists_headed_of_form form

/-- Only one expression has the forms of one term. -/
theorem exists_eq_singleton_of_forms {sxs : List SExpr} {t : Term}
    (forms : sxs.map SExpr.form = [t].map Term.form) :
    ∃ sx, sxs = [sx] ∧ sx.form = t.form := by
  obtain ⟨sx, rest, rfl, form, none_⟩ := List.map_eq_cons_iff.1 forms
  obtain rfl := List.map_eq_nil_iff.1 none_
  exact ⟨sx, rfl, form⟩

/-- Only two expressions have the forms of two terms. -/
theorem exists_eq_pair_of_forms {sxs : List SExpr} {t u : Term}
    (forms : sxs.map SExpr.form = [t, u].map Term.form) :
    ∃ sx sy, sxs = [sx, sy] ∧ sx.form = t.form ∧ sy.form = u.form := by
  obtain ⟨sx, rest, rfl, first, forms⟩ := List.map_eq_cons_iff.1 forms
  obtain ⟨sy, rfl, second⟩ := exists_eq_singleton_of_forms forms
  exact ⟨sx, sy, rfl, first, second⟩

/-- **A numeric term is read back.** -/
theorem numeric_of_form {t : Term} (h : Numeric P t) (form : sx.form = t.form) :
    numeric typeOf sx = .ok (t.retype typeOf) := by
  induction h generalizing sx with
  | number x =>
    have value := number_of_form form
    obtain ⟨span, rfl⟩ := SExpr.exists_atom_of_form form
    -- only a number is read from an expression that is no list
    rw [numeric, value]
    rfl
  | @fluent f words zero plain =>
    have term : fluentTerm typeOf sx = .ok ⟨f.name, retypeArguments typeOf f.args, 0⟩ :=
      fluentTerm_of_form words form
    obtain ⟨place, args, span, rfl, forms⟩ := SExpr.exists_headed_of_form form
    rw [numeric.eq_def]
    dsimp only
    -- the value that the reader leaves open is the one that was there
    rw [plain, term, ← zero]
    rfl
  | minus _ ih =>
    obtain ⟨place, args, span, rfl, forms⟩ := exists_headed_of_node rfl form
    obtain ⟨only, rfl, inner⟩ := exists_eq_singleton_of_forms forms
    rw [numeric.eq_def]
    dsimp only [Operator.symbol]
    rw [show (Operator.ofSymbol? "-").filter (!·.isComparison) = some .sub by decide]
    dsimp only
    rw [if_pos rfl, ih inner]
    rfl
  | @pair op l r combines _ _ left right =>
    obtain ⟨place, args, span, rfl, forms⟩ := exists_headed_of_node rfl form
    obtain ⟨sl, sr, rfl, first, second⟩ := exists_eq_pair_of_forms forms
    rw [numeric.eq_def]
    dsimp only
    rw [Operator.ofSymbol?_symbol, Option.filter_some, combines]
    simp only [Bool.not_false, if_true, left first, right second]
    rfl

/-! ## Logical expressions -/

/-- The literals of a flat term are read back. -/
theorem literals_of_forms {ls : List Literal} {sxs : List SExpr}
    (h : ∀ l ∈ ls, ReadLiteral P l)
    (forms : sxs.map SExpr.form = (ls.map fun l => leaf (.predicate l)).map Term.form) :
    sxs.mapM (literal typeOf) = .ok (ls.map (Literal.retype typeOf)) := by
  have each : sxs.map SExpr.form = ls.map Literal.form := by
    rw [forms, List.map_map]
    rfl
  exact mapM_of_forms each fun l mem sx form => literal_of_form (h l mem) form

/-- A head that is no connective and is not refused. -/
structure Unconnected (head : String) : Prop where
  connective : head ∉ ["and", "or", "not", "unknown", "oneof"]
  refused : refusedHeads.contains head = false

theorem unconnected_symbol (op : Operator) : Unconnected op.symbol := by
  cases op <;> exact ⟨by decide, by decide⟩

theorem unconnected_keyword (op : UpdateOp) : Unconnected op.keyword := by
  cases op <;> exact ⟨by decide, by decide⟩

/-- A form whose head is no connective is read as a plain form. -/
theorem logical_of_plainForm {head : String} {place : Span} {args : List SExpr} {span : Span}
    (plain : Unconnected head) :
    logical typeOf (.list (.atom head place :: args) span) =
      plainForm typeOf (.list (.atom head place :: args) span) head args := by
  obtain ⟨connective, refused⟩ := plain
  simp only [List.mem_cons, List.not_mem_nil, or_false, not_or] at connective
  obtain ⟨notAnd, notOr, notNot, notUnknown, notOneOf⟩ := connective
  rw [logical.eq_def]
  dsimp only
  rw [if_neg notAnd, if_neg notOr, if_neg notNot, if_neg notUnknown, if_neg notOneOf, refused,
    if_neg Bool.false_ne_true]

/-- **A logical term is read back.** -/
theorem logical_of_form {t : Term} (h : Logical P t) (form : sx.form = t.form) :
    logical typeOf sx = .ok (t.retype typeOf) := by
  induction h generalizing sx with
  | and _ ih | or _ ih =>
    obtain ⟨place, args, span, rfl, forms⟩ := exists_headed_of_node rfl form
    rw [logical.eq_def]
    dsimp only
    simp only [String.reduceEq, if_false, if_true]
    rw [logicalAll_eq, mapM_of_forms forms fun t mem sx form => ih t mem form, Term.retype_node]
    rfl
  | not _ ih =>
    obtain ⟨place, args, span, rfl, forms⟩ := exists_headed_of_node rfl form
    obtain ⟨only, rfl, inner⟩ := exists_eq_singleton_of_forms forms
    rw [logical.eq_def]
    dsimp only
    simp only [String.reduceEq, if_false, if_true]
    rw [ih inner, Term.retype_node]
    rfl
  | @unknown l words =>
    obtain ⟨place, args, span, rfl, forms⟩ := exists_headed_of_node rfl form
    obtain ⟨only, rfl, inner⟩ := exists_eq_singleton_of_forms forms
    have readInner : literal typeOf only = .ok (l.retype typeOf) := literal_of_form words inner
    rw [logical.eq_def]
    dsimp only
    simp only [String.reduceEq, if_false, if_true]
    rw [readInner, Term.retype_flat typeOf (by simp [NodeKind.keyword?])]
    rfl
  | @oneOf ls words =>
    obtain ⟨place, args, span, rfl, forms⟩ := exists_headed_of_node rfl form
    have readAll : args.mapM (literal typeOf) = .ok (ls.map (Literal.retype typeOf)) :=
      literals_of_forms words forms
    rw [logical.eq_def]
    dsimp only
    simp only [String.reduceEq, if_false, if_true]
    rw [Reader.oneOf, readAll, Term.retype_flat typeOf (by simp [NodeKind.keyword?])]
    rfl
  | @comparison op l r compares left right =>
    -- from here on the head is none of the connectives, and the reader goes on
    obtain ⟨place, args, span, rfl, forms⟩ := exists_headed_of_node rfl form
    obtain ⟨sl, sr, rfl, first, second⟩ := exists_eq_pair_of_forms forms
    rw [logical_of_plainForm (unconnected_symbol op), plainForm,
      Operator.ofSymbol?_symbol, Option.filter_some, compares]
    simp only [if_true, numeric_of_form left first, numeric_of_form right second]
    rfl
  | @update op f amount words zero value =>
    obtain ⟨place, args, span, rfl, forms⟩ := exists_headed_of_node rfl form
    obtain ⟨st, sa, rfl, target, second⟩ := exists_eq_pair_of_forms forms
    have term : fluentTerm typeOf st = .ok ⟨f.name, retypeArguments typeOf f.args, 0⟩ :=
      fluentTerm_of_form words target
    rw [logical_of_plainForm (unconnected_keyword op), plainForm,
      show (Operator.ofSymbol? op.keyword).filter (·.isComparison) = none by cases op <;> decide,
      UpdateOp.ofKeyword?_keyword]
    simp only [term, numeric_of_form value second, ← zero]
    rfl
  | @literal l words positive plain =>
    -- what is left over is read as a fact, and the form of a fact has its name at the head
    have whole : literal typeOf sx = .ok (l.retype typeOf) := literal_of_form words form
    have atom : sx.form = atomForm l.name l.args := by
      rw [form, leaf, Term.form]
      simp [NodeKind.keyword?, NodeKind.form, Literal.form, positive]
    obtain ⟨place, args, span, rfl, forms⟩ := SExpr.exists_headed_of_form atom
    rw [logical_of_plainForm ⟨plain.connective, plain.refused⟩, plainForm, plain.comparison,
      plain.update, whole]
    rfl

/-! ## Initial state -/

/-- The words that mean something else than a fact at the head of an item of the initial
state. -/
def reservedHeads : List String :=
  ["=", "or", "unknown", "oneof"]

/-- **A fact is read back**, unless its name is a word that means something else. -/
theorem initItem_of_literal {l : Literal} (h : ReadLiteral P l) (free : l.name ∉ reservedHeads)
    (form : sx.form = l.form) :
    initItem typeOf sx = .ok (.certain (leaf (.predicate (l.retype typeOf)))) := by
  have readLiteral : literal typeOf sx = .ok (l.retype typeOf) := literal_of_form h form
  have shape : ∃ head args, headed sx = .ok (head, args) ∧ head ∉ reservedHeads := by
    rw [Literal.form] at form
    split at form
    · obtain ⟨place, args, span, rfl, _⟩ := SExpr.exists_headed_of_form form
      exact ⟨"not", args, rfl, by decide⟩
    · obtain ⟨place, args, span, rfl, _⟩ := SExpr.exists_headed_of_form form
      exact ⟨l.name, args, rfl, free⟩
  obtain ⟨head, args, shape, plain⟩ := shape
  simp only [reservedHeads, List.mem_cons, List.not_mem_nil, or_false, not_or] at plain
  obtain ⟨notEqual, notOr, notUnknown, notOneOf⟩ := plain
  refine bind_eq_ok_iff.2 ⟨(head, args), shape, ?_⟩
  dsimp only
  rw [if_neg notEqual, if_neg (not_or.2 ⟨notUnknown, notOneOf⟩), if_neg notOr, readLiteral]
  rfl

/-- **A fluent is read back.** -/
theorem initItem_of_fluent {f : Fluent} {value : String} (words : AtomWords P f.name f.args)
    (reads : Number.read? value = some f.value) (form : sx.form = f.form value) :
    initItem typeOf sx = .ok (.certain (leaf (.function (f.retype typeOf)))) := by
  have readFluent : assignment typeOf sx = .ok (f.retype typeOf) :=
    assignment_of_form words reads form
  obtain ⟨place, args, span, rfl, _⟩ := SExpr.exists_headed_of_form form
  refine bind_eq_ok_iff.2 ⟨("=", args), rfl, ?_⟩
  dsimp only
  rw [if_pos rfl, readFluent]
  rfl

/-- **A contingent fact is read back.** -/
theorem initItem_of_possible {t : Term} (h : Possible P t) (form : sx.form = t.form) :
    initItem typeOf sx = .ok (.contingent (t.retype typeOf)) := by
  rcases h with words | words | words
  · have readLogical : logical typeOf sx = .ok _ := logical_of_form (.unknown words) form
    obtain ⟨place, args, span, rfl, _⟩ := exists_headed_of_node rfl form
    refine bind_eq_ok_iff.2 ⟨("unknown", args), rfl, ?_⟩
    dsimp only
    rw [if_neg (by decide), if_pos (.inl rfl), readLogical]
    rfl
  · have readLogical : logical typeOf sx = .ok _ := logical_of_form (.oneOf words) form
    obtain ⟨place, args, span, rfl, _⟩ := exists_headed_of_node rfl form
    refine bind_eq_ok_iff.2 ⟨("oneof", args), rfl, ?_⟩
    dsimp only
    rw [if_neg (by decide), if_pos (.inr rfl), readLogical]
    rfl
  · -- a disjunction of facts is read by itself, not as a logical expression
    obtain ⟨place, args, span, rfl, forms⟩ := exists_headed_of_node rfl form
    have readAll : args.mapM (literal typeOf) = .ok _ := literals_of_forms words forms
    refine bind_eq_ok_iff.2 ⟨("or", args), rfl, ?_⟩
    dsimp only
    rw [if_neg (by decide), if_neg (by decide), if_pos rfl, readAll,
      Term.retype_flat typeOf (by simp [NodeKind.keyword?])]
    rfl

/-! ## Objects -/

/-- The forms of listed objects, three words for each. -/
def objectForms (es : List Entity) : List Form :=
  es.flatMap fun e => [.word e.name, .word "-", .word e.typeName]

/-- **Listed objects are read back**, if none of them goes by the name of a dash. -/
theorem typedList_of_forms {es : List Entity} {sxs : List SExpr} (names : ∀ e ∈ es, e.name ≠ "-")
    (forms : sxs.map SExpr.form = objectForms es) :
    typedList [] sxs = .ok (es.map fun e => (e.name, e.typeName)) := by
  induction es generalizing sxs with
  | nil =>
    rw [List.map_eq_nil_iff.1 forms]
    rfl
  | cons e es ih =>
    obtain ⟨noDash, names⟩ := List.forall_mem_cons.1 names
    obtain ⟨first, _, rfl, nameForm, afterName⟩ := List.map_eq_cons_iff.1 forms
    obtain ⟨second, _, rfl, dashForm, afterDash⟩ := List.map_eq_cons_iff.1 afterName
    obtain ⟨third, rest, rfl, typeForm, later⟩ := List.map_eq_cons_iff.1 afterDash
    obtain ⟨_, rfl⟩ := SExpr.exists_atom_of_form nameForm
    obtain ⟨_, rfl⟩ := SExpr.exists_atom_of_form dashForm
    obtain ⟨_, rfl⟩ := SExpr.exists_atom_of_form typeForm
    rw [typedList, if_neg noDash, typedList, if_pos rfl, ih names later]
    rfl

/-! ## Sections -/

/-- The form of a problem, given what its sections hold. -/
def problemForm (name domain : String) (objects init : List Form) (goal : Option Form) : Form :=
  .list ([.word "define", .list [.word "problem", .word name],
    .list [.word ":domain", .word domain], .list (.word ":objects" :: objects),
    .list (.word ":init" :: init)] ++ goal.toList.map fun g => .list [.word ":goal", g])

/-- **The sections of a problem** and what they hold. -/
structure SectionsHold (ss : List SExpr) (name domain : String) (objects init : List Form)
    (goal : Option Form) : Prop where
  name : problemName ss = .ok name
  domain : sectionName? ss ":domain" = some domain
  known : unknownSection? ss = none
  objects : ∃ sxs, sectionItems? ss ":objects" = some sxs ∧ sxs.map SExpr.form = objects
  init : ∃ sxs, sectionItems? ss ":init" = some sxs ∧ sxs.map SExpr.form = init
  goal : (sectionItems? ss ":goal").map (List.map SExpr.form) = goal.map fun g => [g]

/-- Only one word has the form of one word. -/
theorem exists_eq_atom_of_forms {sxs : List SExpr} {word : String}
    (forms : sxs.map SExpr.form = [.word word]) : ∃ span, sxs = [.atom word span] := by
  obtain ⟨sx, _, rfl, form, none_⟩ := List.map_eq_cons_iff.1 forms
  obtain rfl := List.map_eq_nil_iff.1 none_
  obtain ⟨span, rfl⟩ := SExpr.exists_atom_of_form form
  exact ⟨span, rfl⟩

/-- **An expression with the form of a problem** has its sections. -/
theorem exists_sections_of_form {name domain : String} {objects init : List Form}
    {goal : Option Form} (form : sx.form = problemForm name domain objects init goal) :
    ∃ ss, sections [sx] = .ok ss ∧ SectionsHold ss name domain objects init goal := by
  obtain ⟨_, ss, _, rfl, forms⟩ := SExpr.exists_headed_of_form form
  obtain ⟨header, _, rfl, headerForm, afterHeader⟩ := List.map_eq_cons_iff.1 forms
  obtain ⟨domainOf, _, rfl, domainForm, afterDomain⟩ := List.map_eq_cons_iff.1 afterHeader
  obtain ⟨listed, _, rfl, objectsForm, afterObjects⟩ := List.map_eq_cons_iff.1 afterDomain
  obtain ⟨state, rest, rfl, initForm, goalForms⟩ := List.map_eq_cons_iff.1 afterObjects
  obtain ⟨_, _, _, rfl, nameForms⟩ := SExpr.exists_headed_of_form headerForm
  obtain ⟨_, _, _, rfl, domainForms⟩ := SExpr.exists_headed_of_form domainForm
  obtain ⟨_, objectItems, _, rfl, objectForms⟩ := SExpr.exists_headed_of_form objectsForm
  obtain ⟨_, initItems, _, rfl, initForms⟩ := SExpr.exists_headed_of_form initForm
  obtain ⟨_, rfl⟩ := exists_eq_atom_of_forms nameForms
  obtain ⟨_, rfl⟩ := exists_eq_atom_of_forms domainForms
  refine ⟨_, rfl, ?_⟩
  cases goal with
  | none =>
    obtain rfl := List.map_eq_nil_iff.1 goalForms
    exact ⟨rfl, rfl, rfl, ⟨_, rfl, objectForms⟩, ⟨_, rfl, initForms⟩, rfl⟩
  | some g =>
    obtain ⟨sought, _, rfl, soughtForm, none_⟩ := List.map_eq_cons_iff.1 goalForms
    obtain rfl := List.map_eq_nil_iff.1 none_
    obtain ⟨_, goalItems, _, rfl, goalForm⟩ := SExpr.exists_headed_of_form soughtForm
    refine ⟨rfl, rfl, rfl, ⟨_, rfl, objectForms⟩, ⟨_, rfl, initForms⟩, ?_⟩
    exact congrArg some goalForm

end WorldModel.Reader
