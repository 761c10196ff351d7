/-
The problem that the text of a world is read as.

What is read from the text of a world, as it stands and under any settings, is the world
again, up to types of arguments and values of fluents in the goal. For this all names have
to be plain, that is, words to the reader, and none of them may mean something else where it
stands. **Main statement.** `exists_problem_problemText`: over a described domain and after any
run such a text is read, and as the contents of the world (`ReadAs`).

Names of predicates, functions and types are written in small letters or as they are stored,
and are read back either way because the domain's own spelling has no capitals. A literal of
a contingent fact that the domain does not know has no such spelling. The statement
therefore asks that these literals are valid, which they are if nothing stands below the
leaves of the formulas that are handed in, and it fails without
(`exists_legible_and_not_read`).
-/
import WorldModel.Proofs.Domain.Described
import WorldModel.Proofs.Problem.Alike
import WorldModel.Proofs.Problem.Reprinted
import WorldModel.Proofs.World.Atomic
import WorldModel.Proofs.World.FixedPoint
import WorldModel.Proofs.World.Named

set_option autoImplicit false

namespace WorldModel

/-! ## Names without capitals -/

/-- What has no capitals is written the same under any casing. -/
theorem Casing.apply_of_lower {name : String} (small : Text.lower name = name) (casing : Casing) :
    casing.apply name = name := by
  cases casing with
  | lower => exact small
  | asStored => rfl

/-- An atom of plain names comes in as it is written, if its own name has no capitals. -/
theorem atomAudible_raw {name : String} {as : List Argument}
    (words : Reader.AtomWords Plain name as) (small : Text.lower name = name) (casing : Casing) :
    AtomAudible .raw casing name as :=
  ⟨words.name.isWord, Casing.apply_of_lower small casing, fun a mem => (words.args a mem).isWord⟩

namespace Domain

/-- **The types of a described domain** have no capitals. -/
theorem lower_of_declares {description : Description} {d : Domain}
    (described : ofDescription description = .ok d) {type : String}
    (declared : d.declares type = true) : Text.lower type = type := by
  rw [declares, (tables_of_ofDescription described).1, Table.hasKey,
    List.contains_iff_mem] at declared
  exact lower_of_mem_hierarchyOf type declared

end Domain

namespace World

open Reader (AtomWords ReadLiteral Possible Logical Constant)

/-! ## What is asked of a world -/

/-- The words that are read as something else at the head of a literal or of an item. -/
def headWords : List String :=
  "not" :: Reader.reservedHeads

/-- **A legible world**: all names in its text are plain and none means something else where
it stands, contingent facts are flat, and the goal equals one that can be read. -/
structure Legible (w : World) (s : Settings) : Prop where
  problem : Plain s.problemName
  domain : Plain w.domain.name
  objects : ∀ e ∈ w.objects, Plain e.name ∧ e.name ≠ "-" ∧ Constant e.name
  types : ∀ e ∈ w.objects, Plain e.typeName
  facts : ∀ l ∈ w.facts, Plain l.name ∧ l.name ∉ headWords
  fluents : ∀ f ∈ w.fluents, Plain f.name
  flat : ∀ f ∈ w.contingents, f.Flat
  contingents : ∀ f ∈ w.contingents, ∀ l ∈ f.literals, Plain l.name ∧ l.name ∉ headWords
  goal : w.goal.isEmpty = true ∨ ∃ text g, Formula.parse text = .ok g ∧ w.goal.equiv g = true

/-- **The problem holds what the world does**: its objects other than constants, its facts
and after them its fluents with their values, its contingent facts, each in order, and its
goal. -/
structure ReadAs (w : World) (s : Settings) (p : Problem) : Prop where
  name : p.name = s.problemName
  objects : p.objects = w.objects.filter fun e => !w.domain.isConstant e
  init : ∃ ls fs, p.init = ls.map Formula.ofLiteral ++ fs.map Formula.ofFluent ∧
    List.Forall₂ (fun l m => l.sameFact m = true) w.facts ls ∧
    List.Forall₂ (fun f g => f.sameKey g = true ∧ f.value = g.value) w.fluents fs
  contingents : List.Forall₂ (fun f g => f.equiv g = true) w.contingents p.contingent
  goal : (w.goal.isEmpty = true ∧ p.goal = none) ∨ ∃ g, p.goal = some g ∧ w.goal.equiv g = true

variable {w : World} {s : Settings}

/-! ## Atoms -/

section Atoms

variable (legible : w.Legible s)
include legible

/-- An atom over stored objects is one of plain names, if its own name is plain. -/
theorem atomWords_of_stored {name : String} {as : List Argument} (plain : Plain name)
    (stored : ∀ a ∈ as, ∃ e, w.object? a.name = some e) : AtomWords Plain name as := by
  have named : ∀ a ∈ as, Plain a.name ∧ a.name ≠ "-" ∧ Constant a.name := by
    intro a mem
    obtain ⟨e, found⟩ := stored a mem
    obtain ⟨inside, same⟩ := mem_of_object? found
    rw [← same]
    exact legible.objects e inside
  exact ⟨plain, fun a mem => (named a mem).1, fun a mem => (named a mem).2.2⟩

/-- A valid literal is read back, if its name is plain and means nothing else. -/
theorem readLiteral_of_valid {l : Literal} (valid : w.validLiteral l = true)
    (plain : Plain l.name ∧ l.name ∉ headWords) : ReadLiteral Plain l := by
  refine ⟨atomWords_of_stored legible plain.1 fun a mem => object?_of_validLiteral valid mem, ?_⟩
  intro same
  exact plain.2 (by rw [same]; exact List.mem_cons_self)

end Atoms

/-- A valid literal in the domain's spelling has a name without capitals. -/
theorem lower_of_validLiteral {l : Literal} (valid : w.validLiteral l = true)
    (spelled : w.domain.spellPredicate l.name = l.name) : Text.lower l.name = l.name := by
  obtain ⟨_, declared, name, _⟩ := stands_of_validLiteral valid spelled
  rw [← name]
  exact Domain.lower_of_predicate? declared

theorem lower_of_validFluent {f : Fluent} (valid : w.validFluent f = true)
    (spelled : w.domain.spellFunction f.name = f.name) : Text.lower f.name = f.name := by
  obtain ⟨_, declared, name, _⟩ := stands_of_validFluent valid spelled
  rw [← name]
  exact Domain.lower_of_function? declared

/-! ## Contingent facts and the goal -/

/-- A head over literals is an item that can be read. -/
theorem possible_of_heads {k : NodeKind} {ls : List Literal} (head : Heads k ls.length)
    (words : ∀ l ∈ ls, ReadLiteral Plain l) : Possible Plain (.flat k ls) := by
  generalize count : ls.length = n at head
  cases head with
  | unknown =>
    obtain ⟨l, rfl⟩ := List.length_eq_one_iff.1 count
    exact .unknown (words l (List.mem_singleton_self l))
  | oneOf _ => exact .oneOf words
  | or => exact .or words

theorem audible_of_heads {k : NodeKind} {count : Nat} (head : Heads k count) (casing : Casing) :
    k.Audible .raw casing := by
  rcases head with _ | _ | _ <;> trivial

section Formulas

variable (legible : w.Legible s) (named : w.FormulasNamed)
include legible named

/-- **A contingent fact** whose literals are valid is a head over literals that are read
back, with names without capitals. -/
theorem exists_lists_of_contingent {f : Formula} (mem : f ∈ w.contingents)
    (valid : ∀ l ∈ f.literals, w.validLiteral l = true) :
    ∃ k ls, f.Lists k ls ∧ Heads k ls.length ∧
      ∀ l ∈ ls, ReadLiteral Plain l ∧ Text.lower l.name = l.name := by
  have spells := named.contingents f mem
  obtain ⟨k, ls, lists, head⟩ := Formula.exists_lists_of_flat (legible.flat f mem) spells.shape
  have literals := lists.literals_eq head
  refine ⟨k, ls, lists, head, fun l inside => ?_⟩
  rw [← literals] at inside
  exact ⟨readLiteral_of_valid legible (valid l inside) (legible.contingents f mem l inside),
    lower_of_validLiteral (valid l inside) (spells.literals l inside)⟩

/-- **The term of the goal** equals one that has been read. -/
theorem exists_same_of_goal {t : Term} (shown : w.goal.term? = some t) :
    ∃ u, Logical Plain u ∧ t.same u = true := by
  rcases legible.goal with empty | ⟨text, g, read, equal⟩
  · rw [Formula.term?_eq_none_iff.2 empty] at shown
    cases shown
  · obtain ⟨u, rfl, logical⟩ := Formula.exists_logical_of_parse read
    obtain ⟨t', shown', same⟩ := (Formula.equiv_ofTerm_iff named.acyclic).1 equal
    obtain rfl := Option.some.inj (shown.symm.trans shown')
    exact ⟨u, logical, same⟩

/-- All of the goal comes in as it is written. -/
theorem audible_of_goal {t : Term} (shown : w.goal.term? = some t) (casing : Casing) :
    ∀ k ∈ t.kinds, k.Audible .raw casing := by
  obtain ⟨u, logical, same⟩ := exists_same_of_goal legible named shown
  have defined := Term.isNaN_of_same same
  have unvalued := Reader.logical_of_same logical same
  -- what can be read is bare, and of a bare term everything is shown
  have names := (named.named t shown).forall_kinds
    (Term.bare_of_mapKinds NodeKind.keyword?_unvalued unvalued.bare)
  intro k mem
  have words : k.unvalued.OfWords Plain := by
    refine unvalued.ofWords _ ?_
    rw [Term.unvalued, Term.kinds_mapKinds]
    exact List.mem_map_of_mem mem
  cases k with
  | predicate l =>
    obtain ⟨_, declared, name⟩ := names _ mem
    exact atomAudible_raw words (by rw [← name]; exact Domain.lower_of_predicate? declared) casing
  | function f =>
    obtain ⟨_, declared, name⟩ := names _ mem
    exact atomAudible_raw words (by rw [← name]; exact Domain.lower_of_function? declared) casing
  | number x => exact NodeKind.audible_number (defined x mem)
  | _ => trivial

end Formulas

end World

/-! ## The contents -/

/-- The contents without the values of fluents in the goal. -/
def Content.unvalued (c : Content) : Content :=
  { c with goal := c.goal.map Term.unvalued }

/-- Values of fluents in the goal are not written. -/
theorem Content.form_unvalued (c : Content) (number : Float → String) (name domain : String) :
    c.unvalued.form number name domain = c.form number name domain := by
  have goal : (c.goal.map Term.unvalued).map Term.form = c.goal.map Term.form := by
    rw [Option.map_map]
    exact congrArg (Option.map · c.goal) (funext Term.form_unvalued)
  rw [form, form, unvalued, goal]
  rfl

namespace World

section Contents

variable {w : World} {s : Settings} (legible : w.Legible s) (named : w.FormulasNamed)
  (valid : ∀ f ∈ w.contingents, ∀ l ∈ f.literals, w.validLiteral l = true)
include legible named valid

/-- **The contents hold what the world does.** -/
theorem Legible.readAs_problem (typeOf : Reader.TypeOf) :
    w.ReadAs s (w.content.unvalued.problem s.problemName typeOf) where
  name := rfl
  objects := rfl
  init := by
    refine ⟨w.facts.map (Literal.retype typeOf), w.fluents.map (Fluent.retype typeOf), ?_, ?_, ?_⟩
    · rw [List.map_map, List.map_map]
      rfl
    · rw [List.forall₂_map_right_iff, List.forall₂_same]
      exact fun l _ => l.sameFact_self_retype typeOf
    · rw [List.forall₂_map_right_iff, List.forall₂_same]
      exact fun f _ => ⟨f.sameKey_self_retype typeOf, rfl⟩
  contingents := by
    rw [Content.problem, List.forall₂_map_right_iff]
    refine forall₂_filterMap fun f mem => ?_
    obtain ⟨k, ls, lists, head, _⟩ := exists_lists_of_contingent legible named mem (valid f mem)
    have term := lists.term?_eq head.keyword?_ne_none
    -- only a number may differ from itself, and there is none in it
    refine ⟨_, term, (Formula.equiv_ofTerm_iff lists.acyclic).2 ⟨_, term, ?_⟩⟩
    exact Term.same_self_retype typeOf fun x number =>
      absurd number (Term.number_notMem_flat head.keyword?_ne_none ls x)
  goal := by
    rw [Content.problem, Content.unvalued]
    cases shown : w.goal.term? with
    | none =>
      refine .inl ⟨Formula.term?_eq_none_iff.1 shown, ?_⟩
      rw [content, shown]
      rfl
    | some t =>
      obtain ⟨u, _, same⟩ := exists_same_of_goal legible named shown
      refine .inr ⟨.ofTerm (t.unvalued.retype typeOf), ?_, ?_⟩
      · rw [content, shown]
        rfl
      · exact (Formula.equiv_ofTerm_iff named.acyclic).2
          ⟨t, shown, Term.same_unvalued_retype typeOf (Term.isNaN_of_same same)⟩

variable (sound : w.Sound)
include sound

/-- **The contents are as the reader makes them**, but for the values in the goal. -/
theorem Legible.readable_content : w.content.unvalued.Readable Plain where
  objects e mem := by
    have inside := List.mem_of_mem_filter mem
    obtain ⟨plain, notDash, _⟩ := legible.objects e inside
    exact ⟨plain, notDash, .inl (legible.types e inside)⟩
  facts l mem := readLiteral_of_valid legible (sound.facts_valid l mem) (legible.facts l mem)
  free l mem reserved := (legible.facts l mem).2 (List.mem_cons_of_mem _ reserved)
  contingents t mem := by
    obtain ⟨f, inside, term⟩ := List.mem_filterMap.1 mem
    obtain ⟨k, ls, lists, head, words⟩ :=
      exists_lists_of_contingent legible named inside (valid f inside)
    rw [lists.term?_eq head.keyword?_ne_none] at term
    rw [← Option.some.inj term]
    exact possible_of_heads head fun l mem => (words l mem).1
  fluents f mem := atomWords_of_stored legible (legible.fluents f mem) fun a inside =>
    object?_of_validFluent (sound.fluents_valid f mem) inside
  goal t mem := by
    obtain ⟨u, shown, rfl⟩ := Option.map_eq_some_iff.1 mem
    obtain ⟨v, logical, same⟩ := exists_same_of_goal legible named shown
    exact Reader.logical_of_same logical same

/-- **The contents come in as they are written**, under either casing. -/
theorem Legible.audible_content
    (small : ∀ type, w.domain.declares type = true → Text.lower type = type) (casing : Casing) :
    w.content.Audible .raw casing where
  objects e mem := (legible.objects e (List.mem_of_mem_filter mem)).1.isWord
  types e mem := by
    have inside := List.mem_of_mem_filter mem
    exact ⟨(legible.types e inside).isWord,
      Casing.apply_of_lower (small _ (sound.objects_declared e inside)) casing⟩
  facts l mem := by
    have fact := sound.facts_valid l mem
    exact atomAudible_raw (readLiteral_of_valid legible fact (legible.facts l mem)).words
      (lower_of_validLiteral fact (sound.facts_spelled l mem)) casing
  contingents t mem := by
    obtain ⟨f, inside, term⟩ := List.mem_filterMap.1 mem
    obtain ⟨k, ls, lists, head, words⟩ :=
      exists_lists_of_contingent legible named inside (valid f inside)
    rw [lists.term?_eq head.keyword?_ne_none] at term
    rw [← Option.some.inj term, Term.kinds_flat, List.forall_mem_cons]
    refine ⟨audible_of_heads head casing, List.forall_mem_map.2 fun l mem => ?_⟩
    exact atomAudible_raw (words l mem).1.words (words l mem).2 casing
  fluents f mem := by
    have fluent := sound.fluents_valid f mem
    exact atomAudible_raw (atomWords_of_stored legible (legible.fluents f mem) fun a inside =>
      object?_of_validFluent fluent inside)
      (lower_of_validFluent fluent (sound.fluents_spelled f mem)) casing
  goal t mem := audible_of_goal legible named mem casing

/-- **The text of a legible world is read**, and as what the world holds. -/
theorem Legible.exists_problem
    (small : ∀ type, w.domain.declares type = true → Text.lower type = type) :
    ∃ p, Reader.problem (w.problemText s) w.domain = .ok p ∧ w.ReadAs s p := by
  have audible := legible.audible_content named valid sound small s.casing
  obtain ⟨sx, parsed, form⟩ := parse_problemText audible legible.domain.isWord
    named.contingents_nonempty legible.problem.isWord
  -- the text does not tell the values in the goal, so it is read as if there were none
  rw [← Content.form_unvalued] at form
  have readable := legible.readable_content named valid sound
  have values : ∀ f ∈ w.content.unvalued.fluents,
      Number.read? (Number.write f.value) = some f.value :=
    fun f _ => Number.read?_write f.value
  exact ⟨_, Content.problem_of_form readable parsed form values w.domain,
    legible.readAs_problem named valid _⟩

end Contents

/-! ## Every run -/

section Runs

variable {description : Description} {d : Domain}
  (described : Domain.ofDescription description = .ok d) (ms : List Mutation)
include described

/-- The types that a world may have are those of its domain. -/
theorem lower_of_declares_run {type : String}
    (declared : ((empty d).run ms).domain.declares type = true) : Text.lower type = type := by
  rw [domain_run] at declared
  exact Domain.lower_of_declares described declared

/-- **The text of a world is read as the world**, after any run over a described domain and
under any settings, if the world is legible and the literals of its contingent facts are
valid. -/
theorem exists_problem_problemText (takes : ∀ m ∈ ms, m.Takes d Formula.Acyclic) (s : Settings) :
    let w := (empty d).run ms
    w.Legible s → (∀ f ∈ w.contingents, ∀ l ∈ f.literals, w.validLiteral l = true) →
      ∃ p, Reader.problem (w.problemText s) d = .ok p ∧ w.ReadAs s p := by
  intro w legible valid
  have named : w.FormulasNamed := formulasNamed_run d takes
  have read := legible.exists_problem named valid (sound_run d ms)
    fun _ => lower_of_declares_run described ms
  rwa [domain_run] at read

/-- **If nothing stands below the leaves** of the formulas that are handed in, it is enough
that the world is legible. -/
theorem exists_problem_of_bareLeaves
    (takes : ∀ m ∈ ms, m.Takes d fun f => f.BareLeaves ∧ f.Acyclic) {s : Settings}
    (legible : ((empty d).run ms).Legible s) :
    ∃ p, Reader.problem (((empty d).run ms).problemText s) d = .ok p ∧
      ((empty d).run ms).ReadAs s p := by
  have named : ((empty d).run ms).FormulasNamed :=
    formulasNamed_run d fun m mem => (takes m mem).imp fun _ both => both.2
  have stand : ((empty d).run ms).ContingentsStand :=
    (kept_contingentsStand d).run readerMakes_bareLeaves
      fun m mem => (takes m mem).imp fun _ both => both.1
  have read := legible.exists_problem named stand.valid (sound_run d ms)
    fun _ => lower_of_declares_run described ms
  rwa [domain_run] at read

end Runs

/-- That the goal can be read may be seen from a text. -/
theorem exists_parse_of_any {goal : Formula} {t : String}
    (any : (Formula.parse t).toOption.any (goal.equiv ·) = true) :
    ∃ text g, Formula.parse text = .ok g ∧ goal.equiv g = true := by
  cases read : Formula.parse t with
  | error e =>
    rw [read] at any
    cases any
  | ok g =>
    rw [read] at any
    exact ⟨t, g, read, any⟩

/-- Two objects, one of them a constant, with a bit of everything said of them. -/
def lighting : List Mutation :=
  [.addObject ⟨"a", "object"⟩, .addObject ⟨"k", "object"⟩, .addFact (.positive "On" ["a"]),
    .addFluent (.ground "t" [] 1.5),
    .addContingent (.oneOf [.positive "on" ["a"], .positive "ON" ["k"]]),
    .setGoal (.ofTerm (.flat .and [.positive "on" ["a"], .positive "ON" ["k"]]))]

/-- The text has no blanks at the beginning of its lines. -/
def flushLeft : Settings :=
  ⟨"p", .asStored, 0⟩

theorem legible_lighting : ((empty lamps).run lighting).Legible flushLeft where
  problem := by decide +kernel
  domain := by decide +kernel
  objects := by decide +kernel
  types := by decide +kernel
  facts := by decide +kernel
  fluents := by decide +kernel
  flat := by decide +kernel
  contingents := by decide +kernel
  goal := .inr (exists_parse_of_any (t := "(and (on a) (on k))") (by decide +kernel))

theorem exists_problem_problemText_lighting :
    let w := (empty lamps).run lighting
    (w.facts.length, w.fluents.length, w.contingents.length, w.goal.size) = (1, 1, 1, 3) ∧
      ∃ p, Reader.problem (w.problemText flushLeft) lamps = .ok p ∧ w.ReadAs flushLeft p := by
  intro w
  have described : Domain.ofDescription ((((Description.named "d").withPredicate "on" ["object"]
      ).withFunction "t" []).withConstant "k" "object") = .ok lamps := rfl
  have takes : ∀ m ∈ lighting, m.Takes lamps Formula.Acyclic := by
    simp only [lighting, List.forall_mem_cons, Mutation.Takes, Formula.oneOf_eq]
    exact ⟨trivial, trivial, trivial, trivial, Formula.acyclic_ofTerm _, Formula.acyclic_ofTerm _,
      by simp⟩
  refine ⟨by decide +kernel, ?_⟩
  exact exists_problem_problemText described lighting takes flushLeft legible_lighting
    (by decide +kernel)

/-! ## A literal that the domain does not know -/

/-- A one-of over clear things with a literal below one of them that was never checked, and
the removal that lists it beside the other. -/
def leftOver : List Mutation :=
  [.addObject ⟨"a", "object"⟩, .addObject ⟨"b", "object"⟩,
    .addContingent (oneOfOver (.positive "clear" ["a"]) (.positive "clear" ["b"])
      (.positive "Ghost" ["a"])),
    .addContingent (.unknown (.positive "clear" ["a"])),
    .removeContingent (.unknown (.positive "clear" ["a"]))]

theorem legible_leftOver : ((empty clearOnly).run leftOver).Legible .standard where
  problem := by decide +kernel
  domain := by decide +kernel
  objects := by decide +kernel
  types := by decide +kernel
  facts := by decide +kernel
  fluents := by decide +kernel
  flat := by decide +kernel
  contingents := by decide +kernel
  goal := .inl (by decide +kernel)

/-- **A legible world whose text is not read as the world**: the capital in the name of the
literal is lost when it is written. -/
theorem exists_legible_and_not_read :
    ∃ description d ms s, Domain.ofDescription description = .ok d ∧
      (∀ m ∈ ms, m.Takes d Formula.Acyclic) ∧ ((empty d).run ms).Legible s ∧
      ¬ ∃ p, Reader.problem (((empty d).run ms).problemText s) d = .ok p ∧
        ((empty d).run ms).ReadAs s p := by
  have unknown : (Formula.unknown (.positive "clear" ["a"])).Acyclic := Formula.acyclic_ofTerm _
  refine ⟨(Description.named "d").withPredicate "clear" ["object"], clearOnly, leftOver, .standard,
    rfl, ?_, legible_leftOver, ?_⟩
  · simp only [leftOver, List.forall_mem_cons]
    exact ⟨trivial, trivial, Formula.acyclic_ofTerm _, unknown, unknown, by simp⟩
  · rintro ⟨p, read, same⟩
    let w := (empty clearOnly).run leftOver
    let equal := fun p : Problem => (w.contingents.zip p.contingent).all fun q => q.1.equiv q.2
    have differs : (Reader.problem (w.problemText .standard) clearOnly).toOption.all
        (fun p => !equal p) = true := by decide +kernel
    have agrees : equal p = true :=
      List.all_eq_true.2 fun q mem => (List.forall₂_iff_zip.1 same.contingents).2 mem
    rw [read] at differs
    simp [Except.toOption, agrees] at differs

end World

end WorldModel
