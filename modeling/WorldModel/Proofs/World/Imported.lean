/-
What a world holds that has been filled from a text.

An import begins with the constants of the domain and goes on with what the text lists.
So after it the objects are those constants that the domain could take, followed by others
that are no constants, and everything that has been stored beside them is as the reader
makes it, in words of the text (`Imported`). Spelling changes none of it, since words are
spelled as they are. This is shown for one item after the other, accepted or skipped.
-/
import WorldModel.Proofs.World.Goal
import WorldModel.Proofs.World.ProblemText

set_option autoImplicit false

namespace WorldModel

/-! ## Items one by one -/

/-- What a problem asks a world to take, besides the constants of the domain. -/
def Problem.items (p : Problem) : List ImportItem :=
  p.objects.map .object ++ p.init.map .init ++ p.contingent.map .contingent ++
    p.goal.toList.map .goal

theorem ImportItem.ofProblem_eq (d : Domain) (p : Problem) :
    ofProblem d p = d.constants.map object ++ p.items := by
  simp only [ofProblem, Problem.items, List.map_append, List.append_assoc]

namespace World

open Reader (ReadLiteral AtomWords Certain Possible Logical ObjectWords)

/-- The world after some items have been added or skipped. -/
def addItems (w : World) (items : List ImportItem) : World :=
  items.foldl (fun v item => (v.addItem item).world) w

theorem fst_foldl_importItem (items : List ImportItem) (s : World × ImportReport) :
    (items.foldl importItem s).1 = s.1.addItems items := by
  induction items generalizing s with
  | nil => rfl
  | cons item items ih =>
    rw [List.foldl_cons, ih, importItem_fst]
    rfl

theorem addItems_append (w : World) (items later : List ImportItem) :
    w.addItems (items ++ later) = (w.addItems items).addItems later :=
  List.foldl_append

theorem addItems_induction {I : World → Prop} {items : List ImportItem}
    (add : ∀ w, ∀ item ∈ items, I w → I (w.addItem item).world) {w : World} (h : I w) :
    I (w.addItems items) := by
  have whole := importItems_induction add (s := (w, default)) h
  rwa [fst_foldl_importItem] at whole

theorem addInit_predicate (w : World) (l : Literal) :
    w.addInit (.ofTerm (Reader.leaf (.predicate l))) = w.addFact l := by
  rw [addInit, Formula.root?_ofTerm]
  rfl

theorem addInit_function (w : World) (f : Fluent) :
    w.addInit (.ofTerm (Reader.leaf (.function f))) = w.addFluent f := by
  rw [addInit, Formula.root?_ofTerm]
  rfl

/-! ## Constants -/

/-- The world that holds the constants of the domain and nothing else. -/
def constantsOnly (d : Domain) : World :=
  (empty d).addItems (d.constants.map .object)

/-- Adding an object changes the objects only, and loses none. -/
theorem exists_addObject_eq (w : World) (e : Entity) :
    ∃ es, es ⊆ [e] ∧ (w.addObject e).world = { w with objects := w.objects ++ es } := by
  rcases addObject_cases w e with ⟨_, _, _, eq⟩ | ⟨_, _, eq⟩ | ⟨r, eq⟩ <;> rw [eq]
  · exact ⟨[], by simp, by simp⟩
  · exact ⟨[e], by simp, rfl⟩
  · exact ⟨[], by simp, by simp⟩

/-- Adding objects changes the objects only, and loses none. -/
theorem exists_addItems_object_eq (w : World) (es : List Entity) :
    ∃ fs, fs ⊆ es ∧ w.addItems (es.map .object) = { w with objects := w.objects ++ fs } := by
  induction es generalizing w with
  | nil => exact ⟨[], by simp, by simp [addItems]⟩
  | cons e es ih =>
    obtain ⟨first, among, added⟩ := exists_addObject_eq w e
    obtain ⟨later, amongLater, addedLater⟩ := ih (w.addObject e).world
    refine ⟨first ++ later, ?_, ?_⟩
    · exact List.append_subset.2 ⟨List.Subset.trans among (by simp),
        List.Subset.trans amongLater (by simp)⟩
    · rw [List.map_cons, addItems, List.foldl_cons, ← addItems, addItem, addedLater, added,
        List.append_assoc]

/-- An object of a declared type is there afterwards, or another one of its name. -/
theorem exists_name_addItems_object {w : World} {es : List Entity} {e : Entity} (mem : e ∈ es)
    (declared : w.domain.declares e.typeName = true) :
    ∃ o ∈ (w.addItems (es.map .object)).objects, o.name = e.name := by
  induction es generalizing w with
  | nil => cases mem
  | cons f es ih =>
    rw [List.map_cons, addItems, List.foldl_cons, ← addItems, addItem]
    rcases List.mem_cons.1 mem with rfl | mem
    · -- it is there right after it has been added, and nothing gets lost later
      obtain ⟨fs, _, later⟩ := exists_addItems_object_eq (w.addObject e).world es
      have here : ∃ o ∈ (w.addObject e).world.objects, o.name = e.name := by
        rw [addObject, declared]
        cases found : w.object? e.name with
        | none => exact ⟨e, by simp, rfl⟩
        | some old =>
          obtain ⟨inside, name⟩ := mem_of_object? found
          refine ⟨old, ?_, name⟩
          by_cases same : old.typeName = e.typeName
          · simpa [same] using inside
          · simpa [same] using inside
      obtain ⟨o, inside, name⟩ := here
      rw [later]
      exact ⟨o, List.mem_append_left fs inside, name⟩
    · exact ih mem (by rw [domain_addObject]; exact declared)

theorem constantsOnly_eq (d : Domain) : ∃ es, es ⊆ d.constants ∧
    constantsOnly d = { empty d with objects := es } := by
  obtain ⟨es, among, eq⟩ := exists_addItems_object_eq (empty d) d.constants
  exact ⟨es, among, by rw [constantsOnly, eq]; rfl⟩

/-! ## The invariant -/

/-- **The world has been filled from a text**, with the constants of the domain first. -/
structure Imported (w : World) : Prop where
  objects : w.objects = (constantsOnly w.domain).objects ++ w.content.objects
  objects_words : ∀ e ∈ w.content.objects, ObjectWords Word (e.name, e.typeName)
  facts : ∀ l ∈ w.facts, ReadLiteral Word l
  fluents : ∀ f ∈ w.fluents, AtomWords Word f.name f.args
  contingents : ∀ f ∈ w.contingents, ∃ t, f = .ofTerm t ∧ Possible Word t
  contingents_distinct : w.contingents.Pairwise fun f g => f.equiv g = false
  goal : w.goal = .empty ∨ ∃ t, w.goal = .ofTerm t ∧ Logical Word t

/-- The constants alone have been filled in. -/
theorem imported_constantsOnly (d : Domain) : (constantsOnly d).Imported := by
  obtain ⟨es, among, eq⟩ := constantsOnly_eq d
  have none_ : (constantsOnly d).content.objects = [] := by
    rw [content, eq]
    refine List.filter_eq_nil_iff.2 fun e mem => ?_
    simpa [Domain.isConstant, empty] using among mem
  have domain : (constantsOnly d).domain = d := by rw [eq]; rfl
  refine ⟨?_, ?_, ?_, ?_, ?_, ?_, ?_⟩
  · rw [none_, domain, List.append_nil]
  · rw [none_]
    simp
  all_goals rw [eq]; simp [empty]

theorem spellLiteral_word (w : World) {l : Literal} (h : ReadLiteral Word l) :
    w.spellLiteral l = l :=
  spellLiteral_of_spelled (w.domain.spellPredicate_word h.words.name)

theorem spellFluent_word (w : World) {f : Fluent} (h : AtomWords Word f.name f.args) :
    w.spellFluent f = f :=
  spellFluent_of_spelled (w.domain.spellFunction_word h.name)

/-- A kind of words is spelled as it is. -/
theorem spellKind_word (w : World) {k : NodeKind} (h : k.OfWords Word) : w.spellKind k = k := by
  cases k with
  | predicate l =>
    have name : w.domain.spellPredicate l.name = l.name := w.domain.spellPredicate_word h.name
    rw [spellKind, NodeKind.rename, name]
  | function f =>
    have name : w.domain.spellFunction f.name = f.name := w.domain.spellFunction_word h.name
    rw [spellKind, NodeKind.rename, name]
  | _ => rfl

/-- **A formula of words** is spelled as it is. -/
theorem spellFormula_word (w : World) {t : Term} (h : ∀ k ∈ t.kinds, k.OfWords Word) :
    w.spellFormula (.ofTerm t) = .ofTerm t :=
  Formula.renameAtoms_ofTerm_eq_self fun k mem => w.spellKind_word (h k mem)

namespace Imported

variable {w : World}

/-- What is written of the objects is what they are besides constants. -/
theorem addObject (h : w.Imported) {e : Entity} (words : ObjectWords Word (e.name, e.typeName)) :
    (w.addObject e).world.Imported := by
  rcases addObject_cases w e with ⟨_, _, _, eq⟩ | ⟨fresh, declared, eq⟩ | ⟨r, eq⟩ <;> rw [eq]
  · exact h
  · -- a constant of this type would be there already, or another one of its name
    have noConstant : w.domain.isConstant e = false := by
      by_contra constant
      rw [Bool.not_eq_false, Domain.isConstant, List.contains_iff_mem] at constant
      obtain ⟨o, inside, name⟩ :=
        exists_name_addItems_object (w := empty w.domain) constant declared
      have there : o ∈ w.objects := by
        rw [h.objects]
        exact List.mem_append_left _ inside
      exact List.find?_eq_none.1 fresh o there (by simpa using name)
    have listed : (content { w with objects := w.objects ++ [e] }).objects =
        w.content.objects ++ [e] := by
      simp [content, noConstant]
    refine ⟨?_, ?_, h.facts, h.fluents, h.contingents, h.contingents_distinct, h.goal⟩
    · rw [world_accepted, listed, ← List.append_assoc, ← h.objects]
    · rw [world_accepted, listed]
      exact List.forall_mem_append.2 ⟨h.objects_words, List.forall_mem_singleton.2 words⟩
  · exact h

theorem addFact (h : w.Imported) {l : Literal} (words : ReadLiteral Word l) :
    (w.addFact l).world.Imported := by
  rcases addFact_cases w l with ⟨_, eq⟩ | ⟨_, _, eq⟩ | ⟨_, _, r, eq⟩ <;> rw [eq]
  · exact h
  · rw [spellLiteral_word w words]
    exact ⟨h.objects, h.objects_words,
      List.forall_mem_append.2 ⟨h.facts, List.forall_mem_singleton.2 words⟩, h.fluents,
      h.contingents, h.contingents_distinct, h.goal⟩
  · exact h

theorem addFluent (h : w.Imported) {f : Fluent} (words : AtomWords Word f.name f.args) :
    (w.addFluent f).world.Imported := by
  rcases addFluent_cases w f with ⟨_, _, eq⟩ | ⟨_, _, eq⟩ | ⟨_, r, eq⟩ <;> rw [eq]
  · -- a second value for the same key replaces the first and keeps its words
    have kept : ∀ g ∈ setValue (w.spellFluent f) w.fluents, AtomWords Word g.name g.args :=
      Sound.forall_mem_setValue (P := fun p => AtomWords Word p.1 p.2) _ h.fluents
    exact ⟨h.objects, h.objects_words, h.facts, kept, h.contingents, h.contingents_distinct,
      h.goal⟩
  · rw [spellFluent_word w words]
    exact ⟨h.objects, h.objects_words, h.facts,
      List.forall_mem_append.2 ⟨h.fluents, List.forall_mem_singleton.2 words⟩, h.contingents,
      h.contingents_distinct, h.goal⟩
  · exact h

/-- **Storing** a one-of over a single literal stores that literal as a fact. -/
theorem store (h : w.Imported) {t : Term} (possible : Possible Word t)
    (fresh : w.hasContingent (.ofTerm t) = false) : (w.store (.ofTerm t)).world.Imported := by
  obtain ⟨k, ls, rfl, words⟩ := possible.exists_flat
  have lists := Formula.lists_ofTerm k ls
  rcases store_cases w (.ofTerm (.flat k ls)) with ⟨l, sole, eq⟩ | ⟨_, eq⟩ <;> rw [eq]
  · refine h.addFact (words l ?_)
    -- the only formula with a sole disjunct is a one-of over that one
    by_cases single : k = .oneOf ∧ ls.length = 1
    · obtain ⟨rfl, length⟩ := single
      obtain ⟨m, rfl⟩ := List.length_eq_one_iff.1 length
      rw [lists.soleDisjunct?_eq_some] at sole
      rw [Option.some.inj sole]
      exact List.mem_singleton_self l
    · rw [lists.soleDisjunct?_eq_none fun oneOf length => single ⟨oneOf, length⟩] at sole
      cases sole
  · rw [hasContingent, spellFormula_word w possible.ofWords, List.any_eq_false] at fresh
    refine ⟨h.objects, h.objects_words, h.facts, h.fluents, ?_, ?_, h.goal⟩
    · exact List.forall_mem_append.2 ⟨h.contingents,
        List.forall_mem_singleton.2 ⟨_, rfl, possible⟩⟩
    · refine List.pairwise_append.2 ⟨h.contingents_distinct, List.pairwise_singleton _ _, ?_⟩
      intro f mem g last
      rw [List.mem_singleton.1 last]
      simpa using fresh f mem

theorem addContingent (h : w.Imported) {t : Term} (possible : Possible Word t) :
    (w.addContingent (.ofTerm t)).world.Imported := by
  rcases addContingent_cases w (.ofTerm t) with ⟨_, _, fresh, eq⟩ | ⟨r, eq⟩ <;> rw [eq]
  · rw [spellFormula_word w possible.ofWords] at fresh ⊢
    exact h.store possible fresh
  · exact h

theorem setGoal (h : w.Imported) {t : Term} (logical : Logical Word t) :
    (w.setGoal (.ofTerm t)).world.Imported := by
  rcases setGoal_cases w (.ofTerm t) with ⟨_, eq⟩ | ⟨_, r, eq⟩ <;> rw [eq]
  · rw [spellFormula_word w logical.ofWords]
    exact ⟨h.objects, h.objects_words, h.facts, h.fluents, h.contingents, h.contingents_distinct,
      .inr ⟨t, rfl, logical⟩⟩
  · exact h

/-! ## Every import -/

/-- An item of the initial state is a fact or a fluent. -/
theorem addInit (h : w.Imported) {t : Term} (certain : Certain Word t) :
    (w.addInit (.ofTerm t)).world.Imported := by
  rcases certain with words | words
  · rw [addInit_predicate]
    exact h.addFact words
  · rw [addInit_function]
    exact h.addFluent words

end Imported

/-- **A world that a problem of words is imported into** has been filled from a text. -/
theorem imported_importRead {d : Domain} {p : Problem} (readable : Reader.Readable Word p) :
    ((empty d).importRead p).1.Imported := by
  rw [importRead, fst_foldl_importItem, show (empty d).domain = d from rfl,
    ImportItem.ofProblem_eq, addItems_append]
  -- the constants come first, and from there on the items are those of the problem
  refine addItems_induction ?_ (imported_constantsOnly d)
  intro w item mem h
  simp only [Problem.items, List.mem_append, List.mem_map, Option.mem_toList] at mem
  rcases mem with ((⟨e, mem, rfl⟩ | ⟨f, mem, rfl⟩) | ⟨f, mem, rfl⟩) | ⟨f, mem, rfl⟩
  · exact h.addObject (readable.objects e mem)
  · obtain ⟨t, rfl, certain⟩ := readable.init f mem
    exact h.addInit certain
  · obtain ⟨t, rfl, possible⟩ := readable.contingent f mem
    exact h.addContingent possible
  · obtain ⟨t, rfl, logical⟩ := readable.goal f mem
    exact h.setGoal logical

end World

end WorldModel
