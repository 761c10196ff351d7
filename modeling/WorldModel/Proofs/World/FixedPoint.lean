/-
Writing a world and importing it again.

The text of a world that has been filled from a text is a fixed point. Imported over the same
domain it gives the world again, retyped (`exists_importProblem_problemText`): the constants
come first as they did before, every other item is written once and in the order in which
it was stored, and none of them is refused, since what was checked when the world was
filled is true of it still. Types of arguments are all that is lost, and they are not
written.

Words that mean something else at the head of an item are the exception. A predicate may be
declared under such a name, and its facts would not be read as facts. Domains without such
predicates are those for which the theorem holds (`importProblem_problemText`).
-/
import WorldModel.Proofs.World.Retyped

set_option autoImplicit false

namespace WorldModel.World

open Reader (TypeOf Logical leaf)

/-! ## The contents again -/

/-- **A world that can be written and imported again**: it has been filled from a text,
what is stored has been checked, and no fact goes by a word that means something else. -/
structure Settled (w : World) : Prop where
  imported : w.Imported
  sound : w.Sound
  contingents : w.ContingentsStand
  goal : w.GoalStands
  free : ∀ l ∈ w.facts, l.name ∉ Reader.reservedHeads

namespace Settled

variable {w : World} (h : w.Settled)
include h

/-- No contingent fact is the empty formula. -/
theorem contingents_nonempty : ∀ f ∈ w.contingents, f.isEmpty = false := by
  intro f mem
  obtain ⟨t, rfl, _⟩ := h.imported.contingents f mem
  exact Formula.isEmpty_ofTerm t

/-- The contingent facts are made of the terms that are written. -/
theorem map_contingents (typeOf : TypeOf) :
    w.content.contingents.map (fun t => Formula.ofTerm (t.retype typeOf)) =
      w.contingents.map (Formula.retype typeOf) := by
  have shown : ∀ f ∈ w.contingents, f.term?.map (fun t => Formula.ofTerm (t.retype typeOf)) =
      some (f.retype typeOf) := by
    intro f mem
    obtain ⟨t, rfl, _⟩ := h.imported.contingents f mem
    rw [Formula.retype_of_term? typeOf (Formula.term?_ofTerm t), Formula.term?_ofTerm]
    rfl
  rw [content, List.map_filterMap, ← List.filterMap_eq_map]
  exact List.filterMap_congr shown

/-- **The contents are as the reader makes them.** -/
theorem readable_content : w.content.Readable Word := by
  refine ⟨h.imported.objects_words, h.imported.facts, h.free, ?_, h.imported.fluents, ?_⟩
  · intro t mem
    obtain ⟨f, inside, term⟩ := List.mem_filterMap.1 mem
    obtain ⟨u, rfl, possible⟩ := h.imported.contingents f inside
    rw [Formula.term?_ofTerm] at term
    rwa [← Option.some.inj term]
  · intro t term
    rcases h.imported.goal with empty | ⟨u, made, logical⟩
    · rw [content, empty] at term
      cases term
    · rw [content, made, Formula.term?_ofTerm] at term
      rwa [← Option.some.inj term]

/-- The goal is set again. -/
theorem setGoal_retype {v : World} (typeOf : TypeOf) (domain : v.domain = w.domain)
    (objects : v.objects = w.objects) {t : Term} (made : w.goal = .ofTerm t)
    (logical : Logical Word t) : (v.setGoal (.ofTerm (t.retype typeOf))).world =
      { v with goal := .ofTerm (t.retype typeOf) } := by
  have stands := h.goal.stands t (by rw [made, Formula.term?_ofTerm])
  have valid : v.validFormula (.ofTerm (t.retype typeOf)) = true := by
    rw [validFormula_of_term? (Formula.term?_ofTerm _), validTerm_retype]
    exact (stands.mono domain fun k _ =>
      validKind_mono domain (keeps_of_objects objects)).valid
  have words : ∀ k ∈ (t.retype typeOf).kinds, k.OfWords Word := by
    rw [Term.retype, Term.kinds_mapKinds]
    exact List.forall_mem_map.2 fun k mem => (logical.ofWords k mem).retype typeOf
  rw [World.setGoal, valid, spellFormula_word v words]
  rfl

/-- The objects come after the constants, as they did before. -/
theorem addItems_objects : (constantsOnly w.domain).addItems (w.content.objects.map .object) =
    ⟨w.domain, w.objects, [], [], [], .empty⟩ := by
  obtain ⟨es, _, constants⟩ := constantsOnly_eq w.domain
  have objects : w.objects = es ++ w.content.objects := by
    rw [h.imported.objects, constants]
  have stages := addItems_stages w.content.objects
    (fun done => ⟨w.domain, es ++ done, [], [], [], .empty⟩) .object fun done e rest eq => by
      have next : w.objects = es ++ done ++ e :: rest := by rw [objects, eq, List.append_assoc]
      rw [← List.append_assoc]
      exact addObject_next (v := ⟨w.domain, es ++ done, [], [], [], .empty⟩) h.sound rfl rfl next
  rw [constants, objects, ← stages, List.append_nil]
  rfl

/-- The facts follow, and the fluents. -/
theorem addItems_init (name : String) (typeOf : TypeOf) :
    addItems ⟨w.domain, w.objects, [], [], [], .empty⟩
      ((w.content.problem name typeOf).init.map .init) =
    ⟨w.domain, w.objects, w.facts.map (Literal.retype typeOf),
      w.fluents.map (Fluent.retype typeOf), [], .empty⟩ := by
  have facts := addItems_stages w.facts
    (fun done => ⟨w.domain, w.objects, done.map (Literal.retype typeOf), [], [], .empty⟩)
    (fun l => .init (.ofTerm (leaf (.predicate (l.retype typeOf)))))
    fun done l rest eq => by
      rw [addItem, addInit_predicate, List.map_append]
      exact addFact_next (v := ⟨w.domain, w.objects, done.map (Literal.retype typeOf), [], [],
        .empty⟩) h.sound rfl rfl rfl eq
  have fluents := addItems_stages w.fluents
    (fun done => ⟨w.domain, w.objects, w.facts.map (Literal.retype typeOf),
      done.map (Fluent.retype typeOf), [], .empty⟩)
    (fun f => .init (.ofTerm (leaf (.function (f.retype typeOf)))))
    fun done f rest eq => by
      rw [addItem, addInit_function, List.map_append]
      exact addFluent_next (v := ⟨w.domain, w.objects, w.facts.map (Literal.retype typeOf),
        done.map (Fluent.retype typeOf), [], .empty⟩) h.sound rfl rfl rfl eq
  rw [Content.problem, List.map_append, List.map_map, List.map_map, addItems_append]
  exact (congrArg (addItems · _) facts).trans fluents

/-- The contingent facts follow. -/
theorem addItems_contingents (name : String) (typeOf : TypeOf) {v : World}
    (domain : v.domain = w.domain) (objects : v.objects = w.objects)
    (contingents : v.contingents = []) :
    v.addItems ((w.content.problem name typeOf).contingent.map .contingent) =
      { v with contingents := w.contingents.map (Formula.retype typeOf) } := by
  have stages := addItems_stages w.contingents
    (fun done => { v with contingents := done.map (Formula.retype typeOf) })
    (fun f => .contingent (f.retype typeOf))
    fun done f rest eq => by
      rw [addItem, List.map_append]
      exact addContingent_next (v := { v with contingents := done.map (Formula.retype typeOf) })
        h.imported h.contingents domain objects rfl eq
  rw [List.map_nil, ← contingents] at stages
  rw [Content.problem, h.map_contingents, List.map_map]
  exact stages

/-- The goal comes last. -/
theorem addItems_goal (name : String) (typeOf : TypeOf) {v : World}
    (domain : v.domain = w.domain) (objects : v.objects = w.objects) (goal : v.goal = .empty) :
    v.addItems ((w.content.problem name typeOf).goal.toList.map .goal) =
      { v with goal := w.goal.retype typeOf } := by
  rcases h.imported.goal with none_ | ⟨t, made, logical⟩
  · have nothing : (w.content.problem name typeOf).goal = none := by
      rw [Content.problem, content, none_]
      rfl
    have kept : w.goal.retype typeOf = v.goal := by
      rw [none_, goal]
      rfl
    rw [nothing, kept]
    rfl
  · have set_ := h.setGoal_retype typeOf domain objects made logical
    rw [Content.problem, content, made, Formula.term?_ofTerm,
      Formula.retype_of_term? typeOf (Formula.term?_ofTerm t), ← set_]
    rfl

/-- **Importing the contents again** gives the world, retyped. -/
theorem addItems_content (name : String) (typeOf : TypeOf) :
    (empty w.domain).addItems (ImportItem.ofProblem w.domain (w.content.problem name typeOf)) =
      w.retype typeOf := by
  have contingents := h.addItems_contingents name typeOf (v := ⟨w.domain, w.objects,
    w.facts.map (Literal.retype typeOf), w.fluents.map (Fluent.retype typeOf), [], .empty⟩)
    rfl rfl rfl
  have goal := h.addItems_goal name typeOf (v := ⟨w.domain, w.objects,
    w.facts.map (Literal.retype typeOf), w.fluents.map (Fluent.retype typeOf),
    w.contingents.map (Formula.retype typeOf), .empty⟩) rfl rfl rfl
  rw [ImportItem.ofProblem, List.map_append, addItems_append, addItems_append, addItems_append,
    addItems_append, ← constantsOnly]
  rw [show (w.content.problem name typeOf).objects = w.content.objects from rfl,
    h.addItems_objects, h.addItems_init, contingents, goal]
  rfl

end Settled

/-! ## Worlds filled from a text -/

/-- **A problem is imported** when the text is not blank, names the domain of the world, and
is read. -/
theorem importProblem_eq_ok_iff {w v : World} {r : ImportReport} {s : String} :
    w.importProblem s = .ok (v, r) ↔
      Text.isAllBlank s = false ∧
        (∃ name, Reader.domainName (prepared s) = some name ∧ Text.isAllBlank name = false ∧
          w.domain.answersTo name = true) ∧
        ∃ p, Reader.problem (prepared s) w.domain = .ok p ∧ w.importRead p = (v, r) := by
  -- rewritten by name: comparing the readers on a text would run them
  have names : Grammar.standard.domainName = Reader.domainName := rfl
  have reads : Grammar.standard.read = Reader.problem := rfl
  rw [importProblem, importWith, map_eq_ok_iff, ← names, ← reads]
  simp only [readProblem_eq_ok_iff, and_assoc, exists_and_left]

/-- The name of the domain stands alone in its section. -/
theorem domainName_eq_some_iff {s name : String} :
    Reader.domainName s = some name ↔ ∃ forms ss, SExpr.parse s = .ok forms ∧
      Reader.sections forms = .ok ss ∧ Reader.sectionName? ss ":domain" = some name := by
  rw [Reader.domainName]
  cases SExpr.parse s with
  | error e => simp
  | ok forms =>
    cases found : Reader.sections forms with
    | error e => simp [found]
    | ok ss => simp [found]

/-- A section with one word in it. -/
theorem exists_atom_of_sectionName? {ss : List SExpr} {head name : String}
    (named : Reader.sectionName? ss head = some name) :
    ∃ span, Reader.sectionItems? ss head = some [.atom name span] := by
  rw [Reader.sectionName?] at named
  split at named
  · next sx items =>
    cases sx with
    | atom text span =>
      cases named
      exact ⟨span, items⟩
    | list items span => cases named
  · cases named

/-- The domain that a prepared text names goes by a word. -/
theorem word_of_domainName {s name : String}
    (named : Reader.domainName (prepared s) = some name) : Word name := by
  obtain ⟨forms, ss, parsed, found, alone⟩ := domainName_eq_some_iff.1 named
  obtain ⟨span, items⟩ := exists_atom_of_sectionName? alone
  have words := Reader.over_of_sectionItems? (over_of_prepared parsed) found ":domain"
  rw [items] at words
  cases words _ (List.mem_singleton_self _)
  assumption

/-- **A world that a text has been imported into** can be written and imported again, over
a domain that keeps clear of words which mean something else. -/
theorem settled_of_importProblem {d : Domain}
    (undeclared : ∀ name ∈ Reader.reservedHeads, d.predicate? name = none) {s : String}
    {w : World} {r : ImportReport} (read : (empty d).importProblem s = .ok (w, r)) :
    w.Settled ∧ w.domain = d ∧ Word d.name := by
  -- an import is a run of one step, so that what every run keeps is true after it
  have run : (empty d).run [.importProblem s] = w := by
    rw [World.run, List.foldl_cons, List.foldl_nil, Mutation.apply, read]
    rfl
  obtain ⟨_, ⟨name, named, _, answers⟩, p, parsed, made⟩ := importProblem_eq_ok_iff.1 read
  have world : ((empty d).importRead p).1 = w := congrArg Prod.fst made
  have readable := Reader.readable_of_problem (fun forms => over_of_prepared) parsed
  have domain : w.domain = d := by
    rw [← world, domain_importRead]
    rfl
  have takes : ∀ P, ∀ m ∈ [Mutation.importProblem s], m.Takes d P :=
    fun P => List.forall_mem_singleton.2 trivial
  have sound := sound_run d [.importProblem s]
  have contingents := (kept_contingentsStand d).run readerMakes_bareLeaves (takes _)
  have goal := (kept_goalStands d).run readerMakes_bareLeaves_and_acyclic (takes _)
  rw [run] at sound contingents goal
  have free : ∀ l ∈ w.facts, l.name ∉ Reader.reservedHeads := by
    intro l mem reserved
    obtain ⟨s, declared, _⟩ :=
      stands_of_validLiteral (sound.facts_valid l mem) (sound.facts_spelled l mem)
    -- a fact that is stored has a declared predicate
    rw [domain, undeclared l.name reserved] at declared
    cases declared
  have word := word_of_domainName named
  have same : name = d.name := by
    rw [Domain.answersTo, fold_word word, beq_iff_eq] at answers
    exact answers
  exact ⟨⟨world ▸ imported_importRead readable, sound, contingents, goal, free⟩, domain,
    same ▸ word⟩

/-! ## The text again -/

/-- The text of a world is not blank. -/
theorem isAllBlank_problemText (w : World) (s : Settings) :
    Text.isAllBlank (w.problemText s) = false := by
  rw [Text.isAllBlank, List.all_eq_false]
  refine ⟨'(', ?_, by decide⟩
  unfold problemText
  simp

/-- **The text is imported again**, and gives the world, retyped. -/
theorem Settled.exists_importProblem_problemText {w : World} (h : w.Settled)
    (domain : Word w.domain.name) {s : Settings} (casing : s.casing = .lower)
    (name : Word s.problemName) : ∃ typeOf q,
      (empty w.domain).importProblem (w.problemText s) = .ok (w.retype typeOf, q) := by
  have readable := h.readable_content
  obtain ⟨sx, parsed, form⟩ :=
    parse_prepared_problemText readable domain h.contingents_nonempty casing name
  have named : Reader.domainName (prepared (w.problemText s)) = some w.domain.name := by
    obtain ⟨ss, found, hold⟩ := Reader.exists_sections_of_form form
    exact domainName_eq_some_iff.2 ⟨[sx], ss, parsed, found, hold.domain⟩
  have answers : w.domain.answersTo w.domain.name = true := by
    rw [Domain.answersTo, fold_word domain, beq_self_eq_true]
  -- the types that arguments are given are those of the objects in the new text
  let typeOf := Reader.typeAmong (w.domain.constants ++ w.content.objects)
  have world : ((empty w.domain).importRead (w.content.problem s.problemName typeOf)).1 =
      w.retype typeOf := by
    rw [importRead, fst_foldl_importItem]
    exact h.addItems_content s.problemName typeOf
  refine ⟨typeOf, ((empty w.domain).importRead (w.content.problem s.problemName typeOf)).2, ?_⟩
  refine importProblem_eq_ok_iff.2 ⟨w.isAllBlank_problemText s,
    ⟨_, named, isAllBlank_word domain, answers⟩,
    ⟨_, Content.problem_of_form readable parsed form (fun f _ => read?_lower_write f.value) w.domain,
      Prod.ext world rfl⟩⟩

/-! ## What is the same -/

/-- **Two worlds hold the same**: objects, facts, fluents and contingent facts agree one by
one, and the goals are the same term, where types of arguments do not count. A goal is equal
to the other one unless it has a number in it that is not one, which equals none. -/
structure SameContents (v w : World) : Prop where
  objects : v.objects = w.objects
  facts : List.Forall₂ (fun l m => l.sameFact m = true) v.facts w.facts
  fluents : List.Forall₂ (fun f g => f.sameKey g = true ∧ f.value = g.value) v.fluents w.fluents
  contingents : List.Forall₂ (fun f g => f.equiv g = true) v.contingents w.contingents
  goal : v.goal.term?.map (Term.retype Reader.untyped) =
    w.goal.term?.map (Term.retype Reader.untyped)
  goal_isEmpty : v.goal.isEmpty = w.goal.isEmpty
  goal_equiv : (∀ t ∈ v.goal.term?, ∀ x, .number x ∈ t.kinds → x.isNaN = false) →
    v.goal.equiv w.goal = true

/-- **A world holds the same, retyped.** -/
theorem Settled.sameContents_retype {w : World} (h : w.Settled) (typeOf : TypeOf) :
    w.SameContents (w.retype typeOf) := by
  refine ⟨rfl, ?_, ?_, ?_, ?_, ?_, ?_⟩
  · rw [retype, List.forall₂_map_right_iff, List.forall₂_same]
    exact fun l _ => l.sameFact_self_retype typeOf
  · rw [retype, List.forall₂_map_right_iff, List.forall₂_same]
    exact fun f _ => ⟨f.sameKey_self_retype typeOf, rfl⟩
  · rw [retype, List.forall₂_map_right_iff, List.forall₂_same]
    intro f mem
    obtain ⟨t, rfl, possible⟩ := h.imported.contingents f mem
    rw [Formula.retype_of_term? typeOf (Formula.term?_ofTerm t), Formula.equiv_ofTerm]
    refine Term.same_self_retype typeOf fun x number => ?_
    -- there are no numbers in contingent facts
    rcases possible with _ | _ | _ <;> simp [Term.kinds_flat] at number
  · rw [retype, Formula.term?_retype, Option.map_map]
    refine congrArg (Option.map · w.goal.term?) (funext fun t => ?_)
    exact (t.retype_retype Reader.untyped typeOf).symm
  · exact (w.goal.isEmpty_retype typeOf).symm
  · intro defined
    rcases h.imported.goal with none_ | ⟨t, made, _⟩
    · rw [retype, none_]
      rfl
    · rw [made, Formula.term?_ofTerm] at defined
      rw [retype, made, Formula.retype_of_term? typeOf (Formula.term?_ofTerm t),
        Formula.equiv_ofTerm]
      exact Term.same_self_retype typeOf (defined t rfl)

/-- **Writing and importing again gives the same.** Over a domain that declares no predicate
named by a word which means something else at the head of an item, what a text has been
imported to, with whatever was skipped, is written as a text that is imported again, gives a
world that holds the same, and this one is written as the same text. -/
theorem importProblem_problemText (d : Domain)
    (undeclared : ∀ name ∈ ["=", "or", "unknown", "oneof"], d.predicate? name = none)
    (s : String) {w : World} {r : ImportReport}
    (read : (empty d).importProblem s = .ok (w, r)) :
    ∃ v q, (empty d).importProblem (w.problemText .standard) = .ok (v, q) ∧ w.SameContents v ∧
      v.problemText .standard = w.problemText .standard := by
  obtain ⟨settled, rfl, word⟩ := settled_of_importProblem undeclared read
  obtain ⟨typeOf, q, again⟩ := settled.exists_importProblem_problemText word (s := .standard) rfl
    (word_of_isSmallWord rfl)
  exact ⟨_, q, again, settled.sameContents_retype typeOf, w.problemText_retype typeOf .standard⟩

/-- A domain with one predicate, one function and one constant. -/
def lamps : Domain :=
  ⟨"d", [], [("object", none)], [("on", ["object"])], [("t", [])], [⟨"k", "object"⟩]⟩

/-- Of the facts one names no object, and the one-of leaves no choice. -/
def lampsText : String :=
  "(define (problem p) (:domain d) (:objects a b - object) " ++
    "(:init (on z) (oneof (on a)) (or (on a) (on k)) (= (t) 1.5)) (:goal (> (t) 0)))"

theorem lower_lampsText : Text.lower lampsText = lampsText :=
  Text.lower_of_all_isSmall (by decide +kernel)

theorem importProblem_problemText_lamps :
    ∃ w r, (empty lamps).importProblem lampsText = .ok (w, r) ∧
      (w.facts.length, w.fluents.length, w.contingents.length, r.skipped.length) = (1, 1, 1, 1) ∧
      ∃ v q, (empty lamps).importProblem (w.problemText .standard) = .ok (v, q) ∧
        w.SameContents v ∧ v.problemText .standard = w.problemText .standard := by
  have counted : ((empty lamps).importProblem lampsText).toOption.map (fun x =>
      (x.1.facts.length, x.1.fluents.length, x.1.contingents.length, x.2.skipped.length)) =
      some (1, 1, 1, 1) := by
    rw [importProblem, importWith, readProblem, prepared, lower_lampsText]
    decide +kernel
  have undeclared : ∀ name ∈ ["=", "or", "unknown", "oneof"], lamps.predicate? name = none := by
    decide +kernel
  cases read : (empty lamps).importProblem lampsText with
  | error e =>
    rw [read] at counted
    cases counted
  | ok x =>
    rw [read] at counted
    exact ⟨x.1, x.2, rfl, Option.some.inj counted,
      importProblem_problemText lamps undeclared lampsText read⟩

end WorldModel.World
