/-
What the reader makes of a problem.

A problem is read when its text parses and each of its sections is read, one after the
other and each by its own reader (`problem_eq_ok_iff`). So what a problem consists of is
known from what the readers of expressions make: objects whose names are no dashes, facts
and fluents of the words of the text, contingent facts that are a head over literals, and
a logical goal (`Readable`, `readable_of_problem`).
-/
import WorldModel.Proofs.Problem.Reading
import WorldModel.Proofs.World.Run

set_option autoImplicit false

namespace WorldModel.Reader

variable {P : String → Prop}

/-! ## Initial state -/

/-- An item of the initial state that is certain: a literal or a fluent. -/
inductive Certain (P : String → Prop) : Term → Prop
  | literal {l : Literal} : ReadLiteral P l → Certain P (leaf (.predicate l))
  | fluent {f : Fluent} : AtomWords P f.name f.args → Certain P (leaf (.function f))

/-- An item of the initial state that is contingent: a head over literals. -/
inductive Possible (P : String → Prop) : Term → Prop
  | unknown {l : Literal} : ReadLiteral P l → Possible P (.flat .unknown [l])
  | oneOf {ls : List Literal} : (∀ l ∈ ls, ReadLiteral P l) → Possible P (.flat .oneOf ls)
  | or {ls : List Literal} : (∀ l ∈ ls, ReadLiteral P l) → Possible P (.flat .or ls)

theorem Certain.bare {t : Term} (h : Certain P t) : t.Bare := by
  rcases h with _ | _ <;> exact .node (fun _ => rfl) (by simp)

theorem Possible.bare {t : Term} (h : Possible P t) : t.Bare := by
  rcases h with _ | _ | _ <;> exact Term.bare_flat (by simp [NodeKind.keyword?]) _

/-- A contingent item is flat. -/
theorem Possible.exists_flat {t : Term} (h : Possible P t) :
    ∃ k ls, t = .flat k ls ∧ ∀ l ∈ ls, ReadLiteral P l := by
  rcases h with word | words | words
  · exact ⟨_, _, rfl, List.forall_mem_singleton.2 word⟩
  · exact ⟨_, _, rfl, words⟩
  · exact ⟨_, _, rfl, words⟩

/-- An item is one of the two. -/
def InitItem.Read (P : String → Prop) : InitItem → Prop
  | .certain t => Certain P t
  | .contingent t => Possible P t

/-- An assignment is read from a fluent term and a number. -/
theorem assignment_eq_ok_iff {typeOf : TypeOf} {sx : SExpr} {f : Fluent} :
    assignment typeOf sx = .ok f ↔ ∃ term value g x, headed sx = .ok ("=", [term, value]) ∧
      fluentTerm typeOf term = .ok g ∧ number value = .ok x ∧ f = { g with value := x } := by
  rw [assignment, bind_eq_ok_iff]
  constructor
  · rintro ⟨⟨head, args⟩, shape, rest⟩
    split at rest
    · -- the shape is taken apart by the same match that the reader makes
      next term value same =>
      cases same
      obtain ⟨g, readTerm, rest⟩ := bind_eq_ok_iff.1 rest
      obtain ⟨x, readValue, same⟩ := bind_eq_ok_iff.1 rest
      exact ⟨term, value, g, x, shape, readTerm, readValue, (Except.ok.inj same).symm⟩
    · exact absurd rest faulty_ne_ok
  · rintro ⟨term, value, g, x, shape, readTerm, readValue, rfl⟩
    refine ⟨_, shape, ?_⟩
    exact bind_eq_ok_iff.2 ⟨g, readTerm, bind_eq_ok_iff.2 ⟨x, readValue, rfl⟩⟩

/-- An assignment has the words of the form; its head is none of them. -/
theorem atomWords_of_assignment {typeOf : TypeOf} {sx : SExpr} {f : Fluent}
    (words : sx.form.Over P) (read : assignment typeOf sx = .ok f) : AtomWords P f.name f.args := by
  obtain ⟨term, value, g, x, shape, readTerm, _, rfl⟩ := assignment_eq_ok_iff.1 read
  obtain ⟨place, span, rfl⟩ := headed_eq_ok_iff.1 shape
  exact (atomWords_of_fluentTerm (over_of_mem words (by simp)) readTerm).1

/-- **Items of the initial state** are read as such. -/
theorem read_of_initItem {typeOf : TypeOf} {sx : SExpr} {item : InitItem}
    (words : sx.form.Over P) (read : initItem typeOf sx = .ok item) : item.Read P := by
  rw [initItem, bind_eq_ok_iff] at read
  obtain ⟨⟨head, args⟩, shape, rest⟩ := read
  obtain ⟨place, span, rfl⟩ := headed_eq_ok_iff.1 shape
  have wordsArgs : ∀ sx ∈ args, sx.form.Over P :=
    fun sx mem => over_of_mem words (List.mem_cons_of_mem _ mem)
  dsimp only at rest
  split at rest
  · obtain ⟨f, readAssignment, same⟩ := bind_eq_ok_iff.1 rest
    obtain rfl := Except.ok.inj same
    exact .fluent (atomWords_of_assignment words readAssignment)
  split at rest
  · next mayBe =>
    obtain ⟨t, readLogical, same⟩ := bind_eq_ok_iff.1 rest
    obtain rfl := Except.ok.inj same
    rw [logical.eq_def] at readLogical
    rcases mayBe with rfl | rfl
    · dsimp only at readLogical
      simp only [String.reduceEq, if_false, if_true] at readLogical
      match args with
      | [] | _ :: _ :: _ => exact absurd readLogical faulty_ne_ok
      | [inner] =>
        obtain ⟨l, readInner, rfl⟩ := map_eq_ok_iff.1 readLogical
        exact Possible.unknown (readLiteral_of_literal (wordsArgs inner (by simp)) readInner)
    · dsimp only at readLogical
      simp only [String.reduceEq, if_false, if_true] at readLogical
      obtain ⟨ls, readAll, rfl⟩ := map_eq_ok_iff.1 readLogical
      exact Possible.oneOf (readLiterals wordsArgs readAll)
  split at rest
  · obtain ⟨ls, readAll, same⟩ := bind_eq_ok_iff.1 rest
    obtain rfl := Except.ok.inj same
    exact Possible.or (readLiterals wordsArgs readAll)
  · obtain ⟨l, readLiteral, same⟩ := bind_eq_ok_iff.1 rest
    obtain rfl := Except.ok.inj same
    exact Certain.literal (readLiteral_of_literal words readLiteral)

/-! ## Objects -/

/-- The words of an object that has been read: its name is no dash, and its type is a
word of the text, or the root type where the text gives none. -/
structure ObjectWords (P : String → Prop) (p : String × String) : Prop where
  name : P p.1
  name_ne_dash : p.1 ≠ "-"
  type : P p.2 ∨ p.2 = Hierarchy.rootType

/-- Objects are read as such. -/
theorem objectWords_of_typedList {sxs : List SExpr} {pending : List String}
    {pairs : List (String × String)} (words : ∀ sx ∈ sxs, sx.form.Over P)
    (waiting : ∀ n ∈ pending, P n ∧ n ≠ "-") (read : typedList pending sxs = .ok pairs) :
    ∀ p ∈ pairs, ObjectWords P p := by
  -- the induction follows the reader, which takes one item or two at a time
  fun_induction typedList pending sxs generalizing pairs with
  | case1 pending =>
    obtain rfl := Except.ok.inj read
    intro p mem
    obtain ⟨n, inside, rfl⟩ := List.mem_map.1 mem
    exact ⟨(waiting n inside).1, (waiting n inside).2, .inr rfl⟩
  | case2 => exact absurd read faulty_ne_ok
  | case3 pending _ type _ rest ih =>
    -- a dash and a type: both are done with, and so are the names before them
    obtain ⟨later, readLater, rfl⟩ := map_eq_ok_iff.1 read
    obtain ⟨_, words⟩ := List.forall_mem_cons.1 words
    obtain ⟨wordType, words⟩ := List.forall_mem_cons.1 words
    refine List.forall_mem_append.2 ⟨?_, ih words (by simp) readLater⟩
    intro p mem
    obtain ⟨n, inside, rfl⟩ := List.mem_map.1 mem
    rcases wordType with word | _
    exact ⟨(waiting n inside).1, (waiting n inside).2, .inl word⟩
  | case4 => cases read
  | case5 pending word _ rest noDash ih =>
    obtain ⟨wordFirst, words⟩ := List.forall_mem_cons.1 words
    rcases wordFirst with first | _
    refine ih words ?_ read
    exact List.forall_mem_append.2 ⟨waiting, List.forall_mem_singleton.2 ⟨first, noDash⟩⟩

/-! ## Whole problems -/

/-- What is read of a problem, section by section. -/
structure Parts where
  sections : List SExpr
  name : String
  pairs : List (String × String)
  items : List InitItem
  goal : Option Formula

namespace Parts

/-- The objects that are listed. -/
def objects (x : Parts) : List Entity :=
  x.pairs.map fun p => ⟨p.1, p.2⟩

/-- The types that are known when atoms are read. -/
def typeOf (x : Parts) (d : Domain) : TypeOf :=
  typeAmong (d.constants ++ x.objects)

/-- The problem that the parts make up. -/
def problem (x : Parts) : Problem :=
  ⟨x.name, x.objects, x.items.filterMap InitItem.certain?, x.items.filterMap InitItem.contingent?,
    x.goal⟩

/-- **The parts are read from the text.** -/
structure ReadFrom (x : Parts) (s : String) (d : Domain) : Prop where
  sections : ∃ forms, SExpr.parse s = .ok forms ∧ Reader.sections forms = .ok x.sections
  name : problemName x.sections = .ok x.name
  domain : (sectionName? x.sections ":domain").isSome = true
  known : unknownSection? x.sections = none
  pairs : typedList [] ((sectionItems? x.sections ":objects").getD []) = .ok x.pairs
  items : ((sectionItems? x.sections ":init").getD []).mapM (initItem (x.typeOf d)) = .ok x.items
  goal : Reader.goal (x.typeOf d) (sectionItems? x.sections ":goal") = .ok x.goal

end Parts

/-- **A problem is read** when its parts are. -/
theorem problem_eq_ok_iff {s : String} {d : Domain} {p : Problem} :
    problem s d = .ok p ↔ ∃ x : Parts, x.ReadFrom s d ∧ p = x.problem := by
  rw [problem, bind_eq_ok_iff]
  constructor
  · rintro ⟨forms, parsed, rest⟩
    have parsed : SExpr.parse s = .ok forms := by
      cases eq : SExpr.parse s <;> rw [eq] at parsed <;> cases parsed
      rfl
    obtain ⟨ss, found, rest⟩ := bind_eq_ok_iff.1 rest
    obtain ⟨name, named, rest⟩ := bind_eq_ok_iff.1 rest
    cases domain : (sectionName? ss ":domain").isNone with
    | true =>
      rw [domain] at rest
      cases rest
    | false =>
      cases known : unknownSection? ss with
      | some sx =>
        rw [domain, known] at rest
        cases rest
      | none =>
        rw [domain, known] at rest
        obtain ⟨pairs, readPairs, rest⟩ := bind_eq_ok_iff.1 rest
        obtain ⟨items, readItems, rest⟩ := bind_eq_ok_iff.1 rest
        obtain ⟨g, readGoal, same⟩ := bind_eq_ok_iff.1 rest
        exact ⟨⟨ss, name, pairs, items, g⟩, ⟨⟨forms, parsed, found⟩, named, by simpa using domain,
          known, readPairs, readItems, readGoal⟩, (Except.ok.inj same).symm⟩
  · rintro ⟨x, ⟨⟨forms, parsed, found⟩, name, domain, known, pairs, items, goal⟩, rfl⟩
    have domain : (sectionName? x.sections ":domain").isNone = false := by simpa using domain
    refine ⟨forms, by rw [parsed]; rfl, bind_eq_ok_iff.2 ⟨x.sections, found, ?_⟩⟩
    refine bind_eq_ok_iff.2 ⟨x.name, name, ?_⟩
    rw [domain, known]
    refine bind_eq_ok_iff.2 ⟨x.pairs, pairs, bind_eq_ok_iff.2 ⟨x.items, items, ?_⟩⟩
    exact bind_eq_ok_iff.2 ⟨x.goal, goal, rfl⟩

/-- A goal is read from the one expression in its section. -/
theorem goal_eq_ok_some_iff {typeOf : TypeOf} {items : Option (List SExpr)} {f : Formula} :
    goal typeOf items = .ok (some f) ↔
      ∃ sx t, items = some [sx] ∧ logical typeOf sx = .ok t ∧ f = .ofTerm t := by
  match items with
  | none => simp [goal]
  | some [] | some (_ :: _ :: _) => simp [goal]
  | some [sx] =>
    rw [goal, map_eq_ok_iff]
    constructor
    · rintro ⟨t, readLogical, same⟩
      cases same
      exact ⟨sx, t, rfl, readLogical, rfl⟩
    · rintro ⟨_, t, same, readLogical, rfl⟩
      cases same
      exact ⟨t, readLogical, rfl⟩

/-- **What a problem consists of** when all words of its text have the property. -/
structure Readable (P : String → Prop) (p : Problem) : Prop where
  objects : ∀ e ∈ p.objects, ObjectWords P (e.name, e.typeName)
  init : ∀ f ∈ p.init, ∃ t, f = .ofTerm t ∧ Certain P t
  contingent : ∀ f ∈ p.contingent, ∃ t, f = .ofTerm t ∧ Possible P t
  goal : ∀ f ∈ p.goal, ∃ t, f = .ofTerm t ∧ Logical P t

/-- Items of a section are items of the text. -/
theorem over_of_sectionItems? {forms ss : List SExpr} (words : ∀ sx ∈ forms, sx.form.Over P)
    (found : sections forms = .ok ss) (head : String) :
    ∀ sx ∈ (sectionItems? ss head).getD [], sx.form.Over P := by
  have inside : ∀ sx ∈ ss, sx.form.Over P := by
    rw [sections] at found
    split at found
    · next first rest span eq =>
      obtain rfl := Except.ok.inj found
      have whole := words _ (List.mem_of_find?_eq_some eq)
      exact fun sx mem => over_of_mem whole (List.mem_cons_of_mem first mem)
    · cases found
  rw [sectionItems?]
  match eq : ss.find? (·.head? = some head) with
  | none => simp [eq]
  | some (.atom _ _) => simp [eq, SExpr.list?]
  | some (.list items span) =>
    have whole := inside _ (List.mem_of_find?_eq_some eq)
    rw [eq]
    exact fun sx mem => over_of_mem whole (List.mem_of_mem_tail mem)

/-- **Problems are read as such.** -/
theorem readable_of_problem {s : String} {d : Domain} {p : Problem}
    (words : ∀ forms, SExpr.parse s = .ok forms → ∀ sx ∈ forms, sx.form.Over P)
    (read : problem s d = .ok p) : Readable P p := by
  obtain ⟨x, from_, rfl⟩ := problem_eq_ok_iff.1 read
  obtain ⟨forms, parsed, found⟩ := from_.sections
  have section_ := over_of_sectionItems? (words forms parsed) found
  have items : ∀ item ∈ x.items, item.Read P := by
    intro item mem
    have each := mapM_eq_ok_iff.1 from_.items
    obtain ⟨sx, inside, readItem⟩ := exists_mem_of_forall₂ each.flip mem
    exact read_of_initItem (section_ ":init" sx inside) readItem
  refine ⟨?_, ?_, ?_, ?_⟩
  · intro e mem
    obtain ⟨q, inside, rfl⟩ := List.mem_map.1 mem
    exact objectWords_of_typedList (section_ ":objects") (by simp) from_.pairs q inside
  · intro f mem
    obtain ⟨item, inside, made⟩ := List.mem_filterMap.1 mem
    match item, made with
    | .certain t, rfl => exact ⟨t, rfl, items _ inside⟩
  · intro f mem
    obtain ⟨item, inside, made⟩ := List.mem_filterMap.1 mem
    match item, made with
    | .contingent t, rfl => exact ⟨t, rfl, items _ inside⟩
  · intro f mem
    have readGoal := from_.goal
    rw [show x.goal = some f from mem] at readGoal
    obtain ⟨sx, t, items, readLogical, rfl⟩ := goal_eq_ok_some_iff.1 readGoal
    have wordsGoal := section_ ":goal"
    rw [items] at wordsGoal
    exact ⟨t, rfl, logical_logical (wordsGoal sx (by simp)) readLogical⟩

/-! ## Formulas handed over -/

/-- Any expression is one over words of no particular kind. -/
theorem over_true (f : Form) : f.Over fun _ => True := by
  induction f with
  | word text => exact .word trivial
  | list items ih => exact .list ih

/-- **The formulas of a problem** have bare leaves and no cycles. -/
theorem bareLeaves_and_acyclic_of_problem {s : String} {d : Domain} {p : Problem}
    (read : problem s d = .ok p) : ∀ f ∈ p.formulas, f.BareLeaves ∧ f.Acyclic := by
  have readable := readable_of_problem (fun _ _ sx _ => over_true sx.form) read
  have made : ∀ (f : Formula) (t : Term), f = .ofTerm t → t.Bare → f.BareLeaves ∧ f.Acyclic := by
    rintro _ t rfl bare
    exact ⟨Formula.bareLeaves_ofTerm bare, Formula.acyclic_ofTerm t⟩
  intro f mem
  simp only [Problem.formulas, List.mem_append, Option.mem_toList] at mem
  rcases mem with (mem | mem) | mem
  · obtain ⟨t, eq, certain⟩ := readable.init f mem
    exact made f t eq certain.bare
  · obtain ⟨t, eq, possible⟩ := readable.contingent f mem
    exact made f t eq possible.bare
  · obtain ⟨t, eq, logical⟩ := readable.goal f mem
    exact made f t eq logical.bare

end WorldModel.Reader
