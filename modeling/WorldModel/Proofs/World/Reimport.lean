/-
Importing the same text again changes nothing.

Objects, facts, contingent facts and the goal are easy: what the first import took is there,
what it refused is refused for the same reason, and nothing gets lost in between, so an item
finds everything that it looks at as it has left it (`Grows`). Values are different. A
fluent can be given several values by one text, and the second import gives them to it once
more, one after the other, so that for a while it has other values than before. What matters
in the end is the last one (`foldl_revalue`), and that is the value which the first import
left.

**Main statement.** `importProblem_again`: in every world that a run has reached, an import
that succeeds can be repeated, and leaves the world as it is, whatever was skipped.
-/
import WorldModel.Proofs.World.Atomic
import WorldModel.Proofs.World.FixedPoint

set_option autoImplicit false

namespace WorldModel

/-- A flat term equals itself. -/
theorem Term.same_self_flat {k : NodeKind} (head : k.same k = true) (ls : List Literal) :
    (flat k ls).same (flat k ls) = true := by
  have leaf : ∀ l, (node (.predicate l) []).same (node (.predicate l) []) = true := by
    intro l
    have fact : l.sameFact l = true := Literal.sameFact_iff.2 ⟨rfl, rfl, rfl⟩
    rw [same, NodeKind.same, fact, sameAll, Bool.true_and]
  rw [flat, same, head, Bool.true_and, sameAll_iff, List.forall₂_same]
  intro t mem
  obtain ⟨l, _, rfl⟩ := List.mem_map.1 mem
  exact leaf l

/-- What a fluent is known by. -/
def Fluent.key (f : Fluent) : String × List Argument :=
  (f.name, f.args)

namespace World

variable {w v u : World}

/-! ## Growing worlds -/

/-- **Nothing has got lost** that items of the initial state look at; values may be others. -/
structure Grows (w v : World) : Prop where
  domain : v.domain = w.domain
  objects : v.objects = w.objects
  facts : w.facts ⊆ v.facts
  contingents : w.contingents ⊆ v.contingents
  keys : w.fluents.map Fluent.key ⊆ v.fluents.map Fluent.key

theorem Grows.refl (w : World) : w.Grows w :=
  ⟨rfl, rfl, List.Subset.refl _, List.Subset.refl _, List.Subset.refl _⟩

theorem Grows.trans (h : w.Grows v) (later : v.Grows u) : w.Grows u :=
  ⟨later.domain.trans h.domain, later.objects.trans h.objects,
    List.Subset.trans h.facts later.facts, List.Subset.trans h.contingents later.contingents,
    List.Subset.trans h.keys later.keys⟩

theorem Grows.hasFact (h : w.Grows v) {l : Literal} (stored : w.hasFact l = true) :
    v.hasFact l = true := by
  rw [World.hasFact, List.any_eq_true] at stored ⊢
  obtain ⟨m, mem, same⟩ := stored
  exact ⟨m, h.facts mem, by rwa [spellLiteral, h.domain]⟩

theorem Grows.hasContingent (h : w.Grows v) {f : Formula} (stored : w.hasContingent f = true) :
    v.hasContingent f = true := by
  rw [World.hasContingent, List.any_eq_true] at stored ⊢
  obtain ⟨g, mem, same⟩ := stored
  exact ⟨g, h.contingents mem, by rwa [spellFormula, h.domain]⟩

theorem Grows.hasFluent (h : w.Grows v) {f : Fluent} (stored : w.hasFluent f = true) :
    v.hasFluent f = true := by
  rw [World.hasFluent, List.any_eq_true] at stored ⊢
  obtain ⟨g, mem, same⟩ := stored
  obtain ⟨k, inside, keys⟩ := List.mem_map.1 (h.keys (List.mem_map_of_mem mem))
  obtain ⟨name, args⟩ := Prod.mk.inj keys
  refine ⟨k, inside, ?_⟩
  rw [Fluent.sameKey_iff] at same ⊢
  rw [name, args, spellFluent, h.domain]
  exact same

theorem grows_addFact (w : World) (l : Literal) : w.Grows (w.addFact l).world := by
  rcases addFact_cases w l with ⟨_, eq⟩ | ⟨_, _, eq⟩ | ⟨_, _, r, eq⟩ <;> rw [eq]
  · exact .refl w
  · exact { Grows.refl w with facts := List.subset_append_left _ _ }
  · exact .refl w

theorem grows_addFluent (w : World) (f : Fluent) : w.Grows (w.addFluent f).world := by
  rcases addFluent_cases w f with ⟨_, _, eq⟩ | ⟨_, _, eq⟩ | ⟨_, r, eq⟩ <;> rw [eq]
  · have keys : (setValue (w.spellFluent f) w.fluents).map Fluent.key = w.fluents.map Fluent.key :=
      map_key_setValue _ _
    exact { Grows.refl w with keys := fun k mem => keys ▸ mem }
  · exact { Grows.refl w with keys := List.map_subset _ (List.subset_append_left _ _) }
  · exact .refl w

theorem grows_addContingent (w : World) (f : Formula) : w.Grows (w.addContingent f).world := by
  rcases addContingent_cases w f with ⟨_, _, _, eq⟩ | ⟨r, eq⟩ <;> rw [eq]
  · rcases store_cases w (w.spellFormula f) with ⟨l, _, eq⟩ | ⟨_, eq⟩ <;> rw [eq]
    · exact grows_addFact w l
    · exact { Grows.refl w with contingents := List.subset_append_left _ _ }
  · exact .refl w

/-! ## Adding again -/

/-- **A fact that has been added** is there, or it is invalid as it was. -/
theorem addFact_again {l : Literal} (grows : (w.addFact l).world.Grows v) :
    (v.addFact l).world = v := by
  rcases addFact_cases v l with ⟨_, eq⟩ | ⟨fresh, valid, _⟩ | ⟨_, _, r, eq⟩
  · rw [eq, world_accepted]
  · -- valid and not there: the first time it would have been stored
    exfalso
    rcases addFact_cases w l with ⟨stored, eq⟩ | ⟨_, _, eq⟩ | ⟨_, invalid, r, eq⟩ <;>
      rw [eq] at grows
    · rw [grows.hasFact stored] at fresh
      cases fresh
    · have stored : World.hasFact { w with facts := w.facts ++ [w.spellLiteral l] } l = true := by
        refine List.any_eq_true.2 ⟨w.spellLiteral l, by simp, ?_⟩
        exact Literal.sameFact_iff.2 ⟨rfl, rfl, rfl⟩
      rw [grows.hasFact stored] at fresh
      cases fresh
    · rw [validLiteral_congr grows.domain grows.objects] at valid
      exact absurd valid (by simp [invalid])
  · rw [eq, world_refused]

theorem addContingent_of_fresh {f : Formula} (shape : shapeFault? f = none)
    (valid : w.validFormula f = true) (fresh : w.hasContingent (w.spellFormula f) = false) :
    w.addContingent f = w.store (w.spellFormula f) := by
  simp [World.addContingent, shape, valid, fresh]

/-- **A contingent fact that has been added** is there, as a fact if it is a one-of over a
single literal, or it is refused as it was. -/
theorem addContingent_again {f : Formula} (grows : (w.addContingent f).world.Grows v)
    (self : (w.spellFormula f).equiv (w.spellFormula f) = true) :
    (v.addContingent f).world = v := by
  have whole := (grows_addContingent w f).trans grows
  have spelled : v.spellFormula f = w.spellFormula f := by
    rw [spellFormula, whole.domain, spellFormula]
  rcases addContingent_cases v f with ⟨shape, valid, fresh, eq⟩ | ⟨r, eq⟩ <;> rw [eq]
  · rw [spelled] at fresh ⊢
    rw [validFormula_congr whole.domain whole.objects] at valid
    -- so it was not there the first time either, and was stored
    have before : w.hasContingent (w.spellFormula f) = false := by
      by_contra stored
      rw [whole.hasContingent (by simpa using stored)] at fresh
      cases fresh
    rw [addContingent_of_fresh shape valid before] at grows
    rcases store_cases w (w.spellFormula f) with ⟨l, sole, eq⟩ | ⟨_, eq⟩ <;> rw [eq] at grows
    · have folded : v.store (w.spellFormula f) = v.addFact l := by rw [store, sole]
      rw [folded, addFact_again grows]
    · exfalso
      have stored : v.hasContingent (w.spellFormula f) = true := by
        refine List.any_eq_true.2 ⟨w.spellFormula f, grows.contingents (by simp), ?_⟩
        rwa [← spelled, spellFormula_spell, spelled]
      rw [stored] at fresh
      cases fresh
  · rfl

/-- **A fluent that has been added** is there and takes the value once more, or it is
invalid as it was. -/
theorem addFluent_again {f : Fluent} (grows : (w.addFluent f).world.Grows v) :
    (v.addFluent f).world =
      if v.validFluent f then { v with fluents := setValue (v.spellFluent f) v.fluents }
      else v := by
  rcases addFluent_cases v f with ⟨valid, _, eq⟩ | ⟨valid, fresh, _⟩ | ⟨invalid, r, eq⟩
  · rw [eq, if_pos valid, world_accepted]
  · exfalso
    rw [validFluent_congr ((grows_addFluent w f).trans grows).domain
      ((grows_addFluent w f).trans grows).objects] at valid
    have stored : (w.addFluent f).world.hasFluent f = true := by
      rcases addFluent_cases w f with ⟨_, stored, _⟩ | ⟨_, _, eq⟩ | ⟨invalid, _⟩
      · exact (grows_addFluent w f).hasFluent stored
      · rw [eq, World.hasFluent, List.any_eq_true]
        exact ⟨w.spellFluent f, by simp, Fluent.sameKey_iff.2 ⟨rfl, rfl⟩⟩
      · rw [invalid] at valid
        cases valid
    rw [grows.hasFluent stored] at fresh
    cases fresh
  · rw [eq, if_neg (by simp [invalid]), world_refused]

/-! ## Values -/

/-- The fluent with the value of `f`, if `f` has its key. -/
def withValue (f g : Fluent) : Fluent :=
  if g.sameKey f then { g with value := f.value } else g

theorem key_withValue (f g : Fluent) : (withValue f g).key = g.key := by
  rw [withValue]
  split <;> rfl

/-- **Where keys are different**, a new value goes to all fluents of the key. -/
theorem setValue_eq_map {gs : List Fluent} (distinct : gs.Pairwise fun g h => g.sameKey h = false)
    (f : Fluent) : setValue f gs = gs.map (withValue f) := by
  induction gs with
  | nil => rfl
  | cons g gs ih =>
    obtain ⟨other, distinct⟩ := List.pairwise_cons.1 distinct
    rw [setValue, List.map_cons, withValue]
    split
    · next here =>
      -- no other fluent has the key
      have untouched : ∀ h ∈ gs, withValue f h = id h := by
        intro h mem
        refine if_neg fun same => ?_
        have both : g.sameKey h = true := by
          rw [Fluent.sameKey_iff] at here same ⊢
          exact ⟨here.1.trans same.1.symm, here.2.trans same.2.symm⟩
        rw [other h mem] at both
        cases both
      rw [List.map_congr_left untouched, List.map_id]
    · rw [ih distinct]

/-- **What an item of the initial state makes of a stored fluent.** -/
def revalue (w : World) (g : Fluent) : ImportItem → Fluent
  | .init f =>
    match f.root?.map Node.kind with
    | some (.function k) => if w.validFluent k then withValue (w.spellFluent k) g else g
    | _ => g
  | _ => g

theorem revalue_congr (domain : v.domain = w.domain) (objects : v.objects = w.objects) :
    v.revalue = w.revalue := by
  funext g item
  cases item with
  | init f =>
    rw [revalue, revalue]
    split
    · rw [validFluent_congr domain objects, spellFluent, spellFluent, domain]
    · rfl
  | _ => rfl

theorem key_foldl_revalue (w : World) (items : List ImportItem) (g : Fluent) :
    (items.foldl w.revalue g).key = g.key := by
  have step : ∀ h item, (w.revalue h item).key = h.key := by
    intro h item
    cases item with
    | init f =>
      rw [revalue]
      split
      · split
        · exact key_withValue _ h
        · rfl
      · rfl
    | _ => rfl
  induction items generalizing g with
  | nil => rfl
  | cons item items ih => rw [List.foldl_cons, ih, step]

/-! ## Items of the initial state -/

/-- **The item says something of the initial state**: a literal, a fluent, or something
contingent, in which case it equals itself. -/
inductive Stated : ImportItem → Prop
  | fact (l : Literal) : Stated (.init (.ofTerm (Reader.leaf (.predicate l))))
  | fluent (f : Fluent) : Stated (.init (.ofTerm (Reader.leaf (.function f))))
  | contingent {f : Formula}
      (self : ∀ w : World, (w.spellFormula f).equiv (w.spellFormula f) = true) :
      Stated (.contingent f)

theorem revalue_fact (w : World) (g : Fluent) (l : Literal) :
    w.revalue g (.init (.ofTerm (Reader.leaf (.predicate l)))) = g := by
  rw [revalue, Formula.root?_ofTerm]
  rfl

theorem revalue_fluent (w : World) (g f : Fluent) :
    w.revalue g (.init (.ofTerm (Reader.leaf (.function f)))) =
      if w.validFluent f then withValue (w.spellFluent f) g else g := by
  rw [revalue, Formula.root?_ofTerm]
  rfl

theorem Stated.grows {item : ImportItem} (stated : Stated item) (w : World) :
    w.Grows (w.addItem item).world := by
  rcases stated with l | f | _
  · rw [addItem, addInit_predicate]
    exact grows_addFact w l
  · rw [addItem, addInit_function]
    exact grows_addFluent w f
  · exact grows_addContingent w _

theorem grows_addItems {items : List ImportItem} (stated : ∀ item ∈ items, Stated item)
    (w : World) : w.Grows (w.addItems items) :=
  addItems_induction (I := w.Grows)
    (fun v item mem grown => grown.trans ((stated item mem).grows v)) (.refl w)

/-- **An item that has been added** bears on values only when it is added again. -/
theorem Stated.addItem_again {item : ImportItem} (stated : Stated item)
    (grows : (w.addItem item).world.Grows v)
    (distinct : v.fluents.Pairwise fun g h => g.sameKey h = false) :
    (v.addItem item).world = { v with fluents := v.fluents.map (v.revalue · item) } := by
  rcases stated with l | f | self
  · rw [addItem, addInit_predicate] at grows ⊢
    simp only [revalue_fact, List.map_id']
    exact addFact_again grows
  · rw [addItem, addInit_function] at grows ⊢
    rw [addFluent_again grows]
    simp only [revalue_fluent]
    split
    · rw [setValue_eq_map distinct]
    · rw [List.map_id']
  · simp only [revalue, List.map_id']
    exact addContingent_again grows (self w)

theorem sound_addItems (h : w.Sound) (items : List ImportItem) : (w.addItems items).Sound := by
  refine addItems_induction (fun v item _ sound => ?_) h
  cases item with
  | object e => exact sound.addObject e
  | init f => exact (kept_sound v.domain).addInit trivial sound
  | contingent f => exact sound.addContingent f
  | goal f => exact sound.setGoal f

theorem withValue_of_key {f g h : Fluent} (same : g.sameKey f = true) (keys : h.key = g.key) :
    withValue f h = { g with value := f.value } := by
  obtain ⟨name, args⟩ := Prod.mk.inj keys
  have here : h.sameKey f = true := by rwa [Fluent.sameKey_iff, name, args, ← Fluent.sameKey_iff]
  rw [withValue, if_pos here, name, args]

theorem fluents_addFact (w : World) (l : Literal) : (w.addFact l).world.fluents = w.fluents := by
  rcases addFact_cases w l with ⟨_, eq⟩ | ⟨_, _, eq⟩ | ⟨_, _, r, eq⟩ <;> rw [eq] <;> rfl

theorem fluents_addContingent (w : World) (f : Formula) :
    (w.addContingent f).world.fluents = w.fluents := by
  rcases addContingent_cases w f with ⟨_, _, _, eq⟩ | ⟨r, eq⟩ <;> rw [eq]
  · exact (sameButFacts_store ⟨rfl, rfl, rfl⟩ _).2.1
  · rfl

/-- **One item**: if `r` gives every fluent the value that it has, then so does `r` followed by
the item, once the item has been added. -/
theorem Stated.revalue_addItem {item : ImportItem} (stated : Stated item)
    (distinct : w.fluents.Pairwise fun g h => g.sameKey h = false) {r : Fluent → Fluent}
    (keys : ∀ g, (r g).key = g.key) (kept : ∀ g ∈ w.fluents, r g = g) :
    ∀ g ∈ (w.addItem item).world.fluents, w.revalue (r g) item = g := by
  rcases stated with l | f | _
  · simp only [addItem, addInit_predicate, revalue_fact, fluents_addFact]
    exact kept
  · simp only [addItem, addInit_function, revalue_fluent]
    rcases addFluent_cases w f with ⟨valid, _, eq⟩ | ⟨valid, fresh, eq⟩ | ⟨invalid, e, eq⟩ <;>
      rw [eq]
    · rw [setValue_eq_map distinct]
      refine List.forall_mem_map.2 fun g mem => ?_
      rw [if_pos valid]
      cases same : g.sameKey (w.spellFluent f) with
      | true =>
        have given : withValue (w.spellFluent f) g = { g with value := f.value } :=
          withValue_of_key same rfl
        rw [given]
        exact withValue_of_key (f := w.spellFluent f) (g := { g with value := f.value }) same
          (keys _)
      | false =>
        have untouched : withValue (w.spellFluent f) g = g := if_neg (by simp [same])
        rw [untouched, kept g mem, untouched]
    · rw [hasFluent, List.any_eq_false] at fresh
      refine List.forall_mem_append.2 ⟨fun g mem => ?_, List.forall_mem_singleton.2 ?_⟩
      · rw [if_pos valid, kept g mem]
        exact if_neg (fresh g mem)
      · rw [if_pos valid]
        exact withValue_of_key (Fluent.sameKey_iff.2 ⟨rfl, rfl⟩) (keys _)
    · simp only [invalid, Bool.false_eq_true, if_false]
      exact kept
  · rw [addItem, fluents_addContingent]
    exact kept

/-- **The first time**: whatever values are given, every fluent has the last one in the
end. -/
theorem foldl_revalue (sound : w.Sound) {items : List ImportItem}
    (stated : ∀ item ∈ items, Stated item) :
    ∀ g ∈ (w.addItems items).fluents, items.foldl w.revalue g = g := by
  induction items using List.reverseRecOn with
  | nil => exact fun _ _ => rfl
  | append_singleton items item ih =>
    obtain ⟨before, last⟩ := List.forall_mem_append.1 stated
    have grown := grows_addItems before w
    have step := (last item (List.mem_singleton_self item)).revalue_addItem
      (sound_addItems sound items).fluents_distinct (key_foldl_revalue w items) (ih before)
    rw [revalue_congr grown.domain grown.objects] at step
    rw [addItems_append]
    intro g mem
    rw [List.foldl_append]
    exact step g mem

/-- **The second time** the values are given once more, one after the other, and nothing else
changes. -/
theorem addItems_again (sound : v.Sound) {items : List ImportItem}
    (tried : ∀ item ∈ items, Stated item ∧ ∃ w : World, (w.addItem item).world.Grows v) :
    v.addItems items = { v with fluents := v.fluents.map (items.foldl v.revalue) } := by
  induction items generalizing v with
  | nil => simp [addItems]
  | cons item items ih =>
    obtain ⟨⟨stated, w, grows⟩, later⟩ := List.forall_mem_cons.1 tried
    have first := stated.addItem_again grows sound.fluents_distinct
    have grown : v.Grows (v.addItem item).world := stated.grows v
    have rest := ih (v := (v.addItem item).world) (sound_addItems sound [item]) fun i mem =>
      ⟨(later i mem).1, (later i mem).2.imp fun _ h => h.trans grown⟩
    rw [addItems, List.foldl_cons, ← addItems, rest, revalue_congr grown.domain grown.objects,
      first, List.map_map]
    rfl

/-! ## Objects and the goal -/

theorem addItems_eq_self {items : List ImportItem}
    (each : ∀ item ∈ items, (w.addItem item).world = w) : w.addItems items = w := by
  induction items with
  | nil => rfl
  | cons item items ih =>
    obtain ⟨first, later⟩ := List.forall_mem_cons.1 each
    rw [addItems, List.foldl_cons, ← addItems, first, ih later]

/-- **Objects that have been added** are there, or others of their names, or their types are
not declared. -/
theorem addItems_objects_again {es : List Entity} (domain : v.domain = w.domain)
    (objects : v.objects = (w.addItems (es.map .object)).objects) :
    v.addItems (es.map .object) = v := by
  refine addItems_eq_self (List.forall_mem_map.2 fun e mem => ?_)
  rcases addObject_cases v e with ⟨_, _, _, eq⟩ | ⟨fresh, declared, _⟩ | ⟨r, eq⟩
  · rw [addItem, eq, world_accepted]
  · rw [domain] at declared
    obtain ⟨o, inside, name⟩ := exists_name_addItems_object mem declared
    rw [← objects] at inside
    exact absurd (by simpa using name) (List.find?_eq_none.1 fresh o inside)
  · rw [addItem, eq, world_refused]

/-- A goal that has been set is set again, or refused as it was. -/
theorem addItems_goal_again (w : World) (goal : Option Formula) :
    (w.addItems (goal.toList.map .goal)).addItems (goal.toList.map .goal) =
      w.addItems (goal.toList.map .goal) := by
  cases goal with
  | none => rfl
  | some f =>
    have one : ∀ u : World, u.addItems ((some f).toList.map .goal) = (u.setGoal f).world :=
      fun _ => rfl
    rw [one, one]
    rcases setGoal_cases w f with ⟨valid, eq⟩ | ⟨invalid, r, eq⟩
    · let v : World := { w with goal := w.spellFormula f }
      have again : v.validFormula f = true :=
        (validFormula_congr (v := v) (w := w) rfl rfl f).trans valid
      rw [eq, world_accepted, setGoal, if_pos again]
      rfl
    · rw [eq, world_refused, eq, world_refused]

/-- A goal is all that adding one changes. -/
theorem exists_addItems_goal_eq (w : World) (goal : Option Formula) :
    ∃ g, w.addItems (goal.toList.map .goal) = { w with goal := g } := by
  refine addItems_induction (I := fun v => ∃ g, v = { w with goal := g }) ?_ ⟨w.goal, rfl⟩
  rintro v item mem ⟨g, rfl⟩
  obtain ⟨f, _, rfl⟩ := List.mem_map.1 mem
  rw [addItem]
  rcases setGoal_cases { w with goal := g } f with ⟨_, eq⟩ | ⟨_, r, eq⟩ <;> rw [eq]
  · exact ⟨_, rfl⟩
  · exact ⟨g, rfl⟩

/-! ## Problems and texts -/

/-- The statements of a problem of words are of the initial state. -/
theorem stated_of_readable {p : Problem} (readable : Reader.Readable Word p) :
    ∀ item ∈ p.init.map ImportItem.init ++ p.contingent.map .contingent, Stated item := by
  refine List.forall_mem_append.2
    ⟨List.forall_mem_map.2 fun f mem => ?_, List.forall_mem_map.2 fun f mem => ?_⟩
  · obtain ⟨t, rfl, certain⟩ := readable.init f mem
    rcases certain with words | words
    · exact .fact _
    · exact .fluent _
  · obtain ⟨t, rfl, possible⟩ := readable.contingent f mem
    refine .contingent fun w => ?_
    rw [spellFormula_word w possible.ofWords, Formula.equiv_ofTerm]
    rcases possible with _ | _ | _ <;> exact Term.same_self_flat rfl _

/-- **Objects, statements and a goal** that have been added are added again without a
trace. -/
theorem addItems_stages_again (sound : w.Sound) (es : List Entity) {statements : List ImportItem}
    (stated : ∀ item ∈ statements, Stated item) (goal : Option Formula) :
    let v := ((w.addItems (es.map .object)).addItems statements).addItems (goal.toList.map .goal)
    ((v.addItems (es.map .object)).addItems statements).addItems (goal.toList.map .goal) = v := by
  let u := w.addItems (es.map .object)
  let x := u.addItems statements
  intro v
  have soundObjects : u.Sound := sound_addItems sound _
  have grown : u.Grows x := grows_addItems stated u
  obtain ⟨g, last⟩ : ∃ g, v = { x with goal := g } := exists_addItems_goal_eq x goal
  have keeps : x.Grows v := by
    rw [last]
    exact ⟨rfl, rfl, List.Subset.refl _, List.Subset.refl _, List.Subset.refl _⟩
  have whole : u.Grows v := grown.trans keeps
  -- no statement changes the objects, so each object finds those of the first time
  have objects : v.addItems (es.map .object) = v := by
    obtain ⟨_, _, added⟩ := exists_addItems_object_eq w es
    have domain : u.domain = w.domain := by rw [show u = _ from added]
    exact addItems_objects_again (whole.domain.trans domain) whole.objects
  have again : v.addItems statements = v := by
    have tried : ∀ item ∈ statements,
        Stated item ∧ ∃ y : World, (y.addItem item).world.Grows v := by
      intro item mem
      -- the world in which it was tried the first time
      obtain ⟨before, after, rfl⟩ := List.append_of_mem mem
      obtain ⟨_, later⟩ := List.forall_mem_append.1 stated
      refine ⟨stated item mem, u.addItems before, ?_⟩
      have rest : ((u.addItems before).addItem item).world.addItems after = x := by
        simp only [x, addItems_append]
        rfl
      rw [← rest] at keeps
      exact (grows_addItems (List.forall_mem_cons.1 later).2 _).trans keeps
    have soundGoal : v.Sound := sound_addItems (sound_addItems soundObjects _) _
    have values : v.fluents.map (statements.foldl v.revalue) = v.fluents.map id := by
      refine List.map_congr_left fun f mem => ?_
      rw [revalue_congr whole.domain whole.objects]
      rw [last] at mem
      exact foldl_revalue soundObjects stated f mem
    rw [addItems_again soundGoal tried, values, List.map_id]
  rw [objects, again]
  exact addItems_goal_again x goal

theorem Sound.exists_importProblem_again (sound : w.Sound) {s : String} {r : ImportReport}
    (imported : w.importProblem s = .ok (v, r)) : ∃ q, v.importProblem s = .ok (v, q) := by
  obtain ⟨notBlank, ⟨name, named, notEmpty, answers⟩, p, parsed, made⟩ :=
    importProblem_eq_ok_iff.1 imported
  have left : (w.importRead p).1 = v := congrArg Prod.fst made
  have domain : v.domain = w.domain := by rw [← left, domain_importRead]
  have world : ∀ u : World, u.domain = w.domain → (u.importRead p).1 =
      ((u.addItems ((w.domain.constants ++ p.objects).map .object)).addItems
        (p.init.map .init ++ p.contingent.map .contingent)).addItems (p.goal.toList.map .goal) := by
    intro u domain
    simp only [importRead, fst_foldl_importItem, ImportItem.ofProblem, domain, addItems_append]
  have readable := Reader.readable_of_problem (fun forms => over_of_prepared) parsed
  have again := addItems_stages_again sound (w.domain.constants ++ p.objects)
    (stated_of_readable readable) p.goal
  simp only [← world w rfl, left] at again
  refine ⟨(v.importRead p).2, importProblem_eq_ok_iff.2
    ⟨notBlank, ⟨name, named, notEmpty, ?_⟩, p, ?_, Prod.ext ?_ rfl⟩⟩
  · rw [domain, answers]
  · rw [domain, parsed]
  · rw [world v domain, again]

/-- **An import that succeeds can be repeated**, in every world that a run over any domain has
reached: it succeeds again and leaves the world as it is, objects, facts, fluents with their
values, contingent facts and goal, whatever the first one skipped and whatever the second one
does. -/
theorem importProblem_again (d : Domain) (ms : List Mutation) (s : String) {v : World}
    {r : ImportReport} (imported : ((empty d).run ms).importProblem s = .ok (v, r)) :
    ∃ q, v.importProblem s = .ok (v, q) :=
  (sound_run d ms).exists_importProblem_again imported

/-- The fluent is given two values, and a fact names no object. -/
def twiceAssigned : String :=
  "(define (problem p) (:domain d) (:init (= (t) 1) (on z) (= (t) 2)))"

/-- Both values are given, and the fact is skipped; the second import is as good as none. -/
theorem importProblem_again_twiceAssigned :
    ∃ v r q, ((empty lamps).run []).importProblem twiceAssigned = .ok (v, r) ∧
      (v.fluents.length, r.fluents, r.skipped.length) = (1, 2, 1) ∧
      v.importProblem twiceAssigned = .ok (v, q) := by
  have small : Text.lower twiceAssigned = twiceAssigned :=
    Text.lower_of_all_isSmall (by decide +kernel)
  have counted : (((empty lamps).run []).importProblem twiceAssigned).toOption.map (fun x =>
      (x.1.fluents.length, x.2.fluents, x.2.skipped.length)) = some (1, 2, 1) := by
    rw [importProblem, importWith, readProblem, prepared, small]
    decide +kernel
  obtain ⟨x, imported, counts⟩ := exists_ok_of_map_toOption counted
  obtain ⟨q, again⟩ := importProblem_again lamps [] twiceAssigned imported
  exact ⟨x.1, x.2, q, imported, counts, again⟩

end World

end WorldModel
