/-
Runs: everything that can happen to a world, one operation after the other.

A `Mutation` is one public operation with its arguments; applying it leaves the world of
its outcome, accepted or refused. A run starts from the empty world over a domain. The
induction over runs is done here once: what holds of the empty world and is kept by the
single operations holds of every world that a run reaches (`Kept.run`). Imports need no
step of their own in it, because they add their items by the same operations one by one
(`Kept.importRead`).

What some invariants ask of the formulas that are handed in is a condition on the
mutations of the run (`Mutation.Takes`); for an import by a grammar of one's own it is a
condition on the formulas which that grammar makes of the text.
-/
import WorldModel.Proofs.World.Operations
import WorldModel.World.Import

set_option autoImplicit false

namespace WorldModel

/-! ## Mutations -/

/-- An operation that may change a world, with its arguments. -/
inductive Mutation where
  | addObject (e : Entity)
  | removeObject (object : String)
  | addFact (l : Literal)
  | removeFact (l : Literal)
  | addFluent (f : Fluent)
  | updateFluent (f : Fluent)
  | removeFluent (f : Fluent)
  | addContingent (f : Formula)
  | removeContingent (f : Formula)
  | setGoal (f : Formula)
  | clearGoal
  | clear
  | importProblem (s : String)
  | importWith (g : Grammar) (s : String)

/-- The world that an import leaves: a refused one leaves it as it was. -/
def World.afterImport (w : World) : Except ProblemError (World × ImportReport) → World
  | .ok (v, _) => v
  | .error _ => w

/-- The world after a mutation. -/
def Mutation.apply (w : World) : Mutation → World
  | addObject e => (w.addObject e).world
  | removeObject object => (w.removeObject object).1
  | addFact l => (w.addFact l).world
  | removeFact l => (w.removeFact l).world
  | addFluent f => (w.addFluent f).world
  | updateFluent f => (w.updateFluent f).world
  | removeFluent f => (w.removeFluent f).world
  | addContingent f => (w.addContingent f).world
  | removeContingent f => (w.removeContingent f).world
  | setGoal f => (w.setGoal f).world
  | clearGoal => w.clearGoal
  | clear => w.clear
  | importProblem s => w.afterImport (w.importProblem s)
  | importWith g s => w.afterImport (w.importWith g s)

/-- **The world after a run.** -/
def World.run (w : World) (ms : List Mutation) : World :=
  ms.foldl Mutation.apply w

/-! ## Formulas handed in -/

/-- The formulas of a problem. -/
def Problem.formulas (p : Problem) : List Formula :=
  p.init ++ p.contingent ++ p.goal.toList

/-- All formulas that the mutation hands to a world over the domain are such. When a
grammar of one's own is imported with, they are the ones it makes of the text; the usual
grammar is given no choice. -/
def Mutation.Takes (d : Domain) (P : Formula → Prop) : Mutation → Prop
  | addContingent f | removeContingent f | setGoal f => P f
  | importWith g s => ∀ p, g.read (World.prepared s) d = .ok p → ∀ f ∈ p.formulas, P f
  | _ => True

/-- Formulas of one sort are formulas of a wider one. -/
theorem Mutation.Takes.imp {d : Domain} {P Q : Formula → Prop} {m : Mutation}
    (takes : m.Takes d P) (wider : ∀ f, P f → Q f) : m.Takes d Q := by
  match m with
  | addContingent f | removeContingent f | setGoal f => exact wider f takes
  | importWith g s => exact fun p read f mem => wider f (takes p read f mem)
  | addObject _ | removeObject _ | addFact _ | removeFact _ | addFluent _ | updateFluent _
  | removeFluent _ | clearGoal | clear | importProblem _ => trivial

/-- The usual grammar makes only such formulas. -/
def ReaderMakes (P : Formula → Prop) : Prop :=
  ∀ s d p, Reader.problem s d = .ok p → ∀ f ∈ p.formulas, P f

namespace World

/-! ## The domain stays -/

@[simp] theorem world_accepted (w : World) : (accepted w).world = w := rfl

@[simp] theorem world_refused (w : World) (r : Refusal) : (w.refused r).world = w := rfl

@[simp] theorem domain_addObject (w : World) (e : Entity) :
    (w.addObject e).world.domain = w.domain := by
  rcases addObject_cases w e with ⟨_, _, _, eq⟩ | ⟨_, _, eq⟩ | ⟨r, eq⟩ <;> rw [eq] <;> rfl

@[simp] theorem domain_addFact (w : World) (l : Literal) :
    (w.addFact l).world.domain = w.domain := by
  rcases addFact_cases w l with ⟨_, eq⟩ | ⟨_, _, eq⟩ | ⟨_, _, r, eq⟩ <;> rw [eq] <;> rfl

@[simp] theorem domain_removeFact (w : World) (l : Literal) :
    (w.removeFact l).world.domain = w.domain := by
  rcases removeFact_cases w l with ⟨_, eq⟩ | ⟨_, r, eq⟩ <;> rw [eq] <;> rfl

@[simp] theorem domain_addFluent (w : World) (f : Fluent) :
    (w.addFluent f).world.domain = w.domain := by
  rcases addFluent_cases w f with ⟨_, _, eq⟩ | ⟨_, _, eq⟩ | ⟨_, r, eq⟩ <;> rw [eq] <;> rfl

@[simp] theorem domain_updateFluent (w : World) (f : Fluent) :
    (w.updateFluent f).world.domain = w.domain := by
  rcases updateFluent_cases w f with ⟨_, _, eq⟩ | ⟨_, r, eq⟩ <;> rw [eq] <;> rfl

@[simp] theorem domain_removeFluent (w : World) (f : Fluent) :
    (w.removeFluent f).world.domain = w.domain := by
  rcases removeFluent_cases w f with ⟨_, eq⟩ | ⟨_, r, eq⟩ <;> rw [eq] <;> rfl

@[simp] theorem domain_setGoal (w : World) (f : Formula) :
    (w.setGoal f).world.domain = w.domain := by
  rcases setGoal_cases w f with ⟨_, eq⟩ | ⟨_, r, eq⟩ <;> rw [eq] <;> rfl

@[simp] theorem domain_store (w : World) (f : Formula) :
    (w.store f).world.domain = w.domain := by
  rcases store_cases w f with ⟨l, _, eq⟩ | ⟨_, eq⟩ <;> rw [eq]
  · exact domain_addFact w l
  · rfl

@[simp] theorem domain_addContingent (w : World) (f : Formula) :
    (w.addContingent f).world.domain = w.domain := by
  rcases addContingent_cases w f with ⟨_, _, _, eq⟩ | ⟨r, eq⟩ <;> rw [eq]
  · exact domain_store w _
  · rfl

/-- **Storing one-ofs one by one** keeps what storing each of them keeps. -/
theorem storeOneOfs_induction {I : World → Prop} {lists : List (List Literal)}
    (store : ∀ w, ∀ ls ∈ lists, ls ≠ [] → I w → I (w.store (.oneOf ls)).world) {w : World}
    (h : I w) : I (w.storeOneOfs lists).world := by
  induction lists generalizing w with
  | nil => exact h
  | cons ls lists ih =>
    have later : ∀ w, ∀ ms ∈ lists, ms ≠ [] → I w → I (w.store (.oneOf ms)).world :=
      fun w ms mem => store w ms (List.mem_cons_of_mem ls mem)
    cases ls with
    | nil => exact ih later h
    | cons l ls =>
      have first := store w _ List.mem_cons_self (List.cons_ne_nil l ls) h
      rw [storeOneOfs]
      · cases eq : (w.store (.oneOf (l :: ls))).refusal with
        | none => simpa only [eq] using ih later first
        | some r => simpa only [eq] using first
      · exact List.cons_ne_nil l ls

/-- Settling an unknown fact touches contingent facts and then stores one-ofs. -/
@[simp] theorem domain_settle (w : World) (l : Literal) :
    (w.settle l).world.domain = w.domain := by
  rw [settle]
  exact storeOneOfs_induction (I := fun v => v.domain = w.domain)
    (fun v ls _ _ same => (domain_store v _).trans same) rfl

@[simp] theorem domain_removeContingent (w : World) (f : Formula) :
    (w.removeContingent f).world.domain = w.domain := by
  rcases removeContingent_cases w f with ⟨_, r, eq⟩ | ⟨_, eq⟩ | ⟨l, _, _, eq⟩ | eq <;> rw [eq]
  · rfl
  · rfl
  · exact domain_settle _ l
  · rfl

/-- Adding facts one by one keeps what adding each of them keeps. -/
theorem addFacts_induction {I : World → Prop} {ls : List Literal}
    (add : ∀ w, ∀ l ∈ ls, I w → I (w.addFact l).world) {w : World} (h : I w) :
    I (w.addFacts ls) := by
  induction ls generalizing w with
  | nil => exact h
  | cons l ls ih =>
    exact ih (fun v m mem => add v m (List.mem_cons_of_mem l mem))
      (add w l List.mem_cons_self h)

/-- Removing an object touches the contents and then adds facts. -/
@[simp] theorem domain_removeObject (w : World) (object : String) :
    (w.removeObject object).1.domain = w.domain := by
  rw [removeObject]
  split
  · exact addFacts_induction (I := fun v => v.domain = w.domain)
      (fun v l _ same => (domain_addFact v l).trans same) rfl
  · rfl

/-- Adding an item of the initial state adds a fact, a fluent or a contingent fact, or
nothing. -/
theorem addInit_cases (w : World) (f : Formula) :
    (∃ l, (f.root?.map Node.kind) = some (.predicate l) ∧ w.addInit f = w.addFact l) ∨
      (∃ g, (f.root?.map Node.kind) = some (.function g) ∧ w.addInit f = w.addFluent g) ∨
      w.addInit f = w.addContingent f ∨ (f.root? = none ∧ w.addInit f = accepted w) := by
  rw [addInit]
  split
  · next empty => exact .inr (.inr (.inr ⟨by simpa using empty, rfl⟩))
  · next l kind => exact .inl ⟨l, kind, rfl⟩
  · next g kind => exact .inr (.inl ⟨g, kind, rfl⟩)
  · exact .inr (.inr (.inl rfl))

@[simp] theorem domain_addItem (w : World) (item : ImportItem) :
    (w.addItem item).world.domain = w.domain := by
  cases item with
  | object e => exact domain_addObject w e
  | init f =>
    rw [addItem]
    rcases addInit_cases w f with ⟨l, _, eq⟩ | ⟨g, _, eq⟩ | eq | ⟨_, eq⟩ <;> rw [eq] <;> simp
  | contingent f => exact domain_addContingent w f
  | goal f => exact domain_setGoal w f

/-- Skipped or not, an item leaves the world of its outcome. -/
theorem importItem_fst (s : World × ImportReport) (item : ImportItem) :
    (importItem s item).1 = (s.1.addItem item).world := by
  rw [importItem]
  split <;> rfl

/-- **Importing items one by one** keeps what adding each of them keeps. -/
theorem importItems_induction {I : World → Prop} {items : List ImportItem}
    (add : ∀ w, ∀ item ∈ items, I w → I (w.addItem item).world) {s : World × ImportReport}
    (h : I s.1) : I (items.foldl importItem s).1 := by
  induction items generalizing s with
  | nil => exact h
  | cons item items ih =>
    refine ih (fun w next mem => add w next (List.mem_cons_of_mem item mem)) ?_
    rw [importItem_fst]
    exact add s.1 item List.mem_cons_self h

@[simp] theorem domain_importRead (w : World) (p : Problem) :
    (w.importRead p).1.domain = w.domain :=
  importItems_induction (I := fun v => v.domain = w.domain)
    (fun v item _ same => (domain_addItem v item).trans same) rfl

/-- **A problem is read** when the text is not blank and names the domain of the world,
and the grammar makes the problem of it. -/
theorem readProblem_eq_ok_iff {w : World} {g : Grammar} {s : String} {p : Problem} :
    w.readProblem g s = .ok p ↔
      Text.isAllBlank s = false ∧
        (∃ name, g.domainName (prepared s) = some name ∧ Text.isAllBlank name = false ∧
          w.domain.answersTo name = true) ∧
        g.read (prepared s) w.domain = .ok p := by
  rw [readProblem]
  cases Text.isAllBlank s with
  | true => simp
  | false =>
    cases g.domainName (prepared s) with
    | none => simp
    | some name =>
      cases blank : Text.isAllBlank name with
      | true => simp [blank]
      | false => cases answers : w.domain.answersTo name <;> simp [blank, answers]

/-- An import leaves the world as it was, or with the items of the problem that the
grammar made of the text. -/
theorem afterImport_cases (w : World) (g : Grammar) (s : String) :
    w.afterImport (w.importWith g s) = w ∨
      ∃ p, g.read (prepared s) w.domain = .ok p ∧
        w.afterImport (w.importWith g s) = (w.importRead p).1 := by
  rw [importWith]
  cases read : w.readProblem g s with
  | error e => exact .inl rfl
  | ok p => exact .inr ⟨p, (readProblem_eq_ok_iff.1 read).2.2, rfl⟩

/-- **The domain of a world** is the same after every mutation. -/
theorem domain_apply (w : World) (m : Mutation) : (m.apply w).domain = w.domain := by
  have imported : ∀ g s, (w.afterImport (w.importWith g s)).domain = w.domain := by
    intro g s
    rcases afterImport_cases w g s with eq | ⟨p, _, eq⟩ <;> rw [eq]
    exact domain_importRead w p
  cases m with
  | importProblem s => exact imported .standard s
  | importWith g s => exact imported g s
  | _ => simp [Mutation.apply, clearGoal, clear, empty]

/-- A run is carried on by one mutation. -/
theorem run_concat (w : World) (ms : List Mutation) (m : Mutation) :
    w.run (ms ++ [m]) = m.apply (w.run ms) := by
  simp [run]

/-- The domain is the same after every run. -/
theorem domain_run (w : World) (ms : List Mutation) : (w.run ms).domain = w.domain := by
  induction ms generalizing w with
  | nil => rfl
  | cons m ms ih => exact (ih _).trans (domain_apply w m)

end World

/-! ## What a run keeps -/

/-- The property holds of the empty world and is kept by every operation that is handed
formulas of the given sort. -/
structure Kept (d : Domain) (P : Formula → Prop) (I : World → Prop) : Prop where
  empty : I (.empty d)
  addObject {w : World} (e : Entity) : I w → I (w.addObject e).world
  removeObject {w : World} (object : String) : I w → I (w.removeObject object).1
  addFact {w : World} (l : Literal) : I w → I (w.addFact l).world
  removeFact {w : World} (l : Literal) : I w → I (w.removeFact l).world
  addFluent {w : World} (f : Fluent) : I w → I (w.addFluent f).world
  updateFluent {w : World} (f : Fluent) : I w → I (w.updateFluent f).world
  removeFluent {w : World} (f : Fluent) : I w → I (w.removeFluent f).world
  addContingent {w : World} {f : Formula} : P f → I w → I (w.addContingent f).world
  removeContingent {w : World} {f : Formula} : P f → I w → I (w.removeContingent f).world
  setGoal {w : World} {f : Formula} : P f → I w → I (w.setGoal f).world
  clearGoal {w : World} : I w → I w.clearGoal

namespace Kept

variable {d : Domain} {P : Formula → Prop} {I : World → Prop}

/-- An item of the initial state is a fact, a fluent or a contingent fact. -/
theorem addInit (kept : Kept d P I) {w : World} {f : Formula} (takes : P f) (h : I w) :
    I (w.addInit f).world := by
  rcases w.addInit_cases f with ⟨l, _, eq⟩ | ⟨g, _, eq⟩ | eq | ⟨_, eq⟩ <;> rw [eq]
  · exact kept.addFact l h
  · exact kept.addFluent g h
  · exact kept.addContingent takes h
  · exact h

/-- **Importing a problem** that has been read keeps what its items keep. -/
theorem importRead (kept : Kept d P I) {w : World} {p : Problem} (takes : ∀ f ∈ p.formulas, P f)
    (h : I w) : I (w.importRead p).1 := by
  refine World.importItems_induction ?_ h
  intro v item mem hv
  simp only [ImportItem.ofProblem, List.mem_append, List.mem_map] at mem
  rcases mem with ((⟨e, _, rfl⟩ | ⟨f, mem, rfl⟩) | ⟨f, mem, rfl⟩) | ⟨f, mem, rfl⟩
  · exact kept.addObject e hv
  · exact kept.addInit (takes f (by simp [Problem.formulas, mem])) hv
  · exact kept.addContingent (takes f (by simp [Problem.formulas, mem])) hv
  · exact kept.setGoal (takes f (by simpa [Problem.formulas] using .inr (.inr (by simpa using mem)))) hv

/-- Every mutation keeps what the operations keep. -/
theorem apply (kept : Kept d P I) (reader : ReaderMakes P) {w : World} {m : Mutation}
    (takes : m.Takes d P) (domain : w.domain = d) (h : I w) : I (m.apply w) := by
  cases m with
  | addObject e => exact kept.addObject e h
  | removeObject object => exact kept.removeObject object h
  | addFact l => exact kept.addFact l h
  | removeFact l => exact kept.removeFact l h
  | addFluent f => exact kept.addFluent f h
  | updateFluent f => exact kept.updateFluent f h
  | removeFluent f => exact kept.removeFluent f h
  | addContingent f => exact kept.addContingent takes h
  | removeContingent f => exact kept.removeContingent takes h
  | setGoal f => exact kept.setGoal takes h
  | clearGoal => exact kept.clearGoal h
  | clear =>
    rw [Mutation.apply, World.clear, domain]
    exact kept.empty
  | importProblem s =>
    rw [Mutation.apply, World.importProblem]
    rcases w.afterImport_cases .standard s with eq | ⟨p, read, eq⟩ <;> rw [eq]
    · exact h
    · exact kept.importRead (reader _ _ p read) h
  | importWith g s =>
    rw [Mutation.apply]
    rcases w.afterImport_cases g s with eq | ⟨p, read, eq⟩ <;> rw [eq]
    · exact h
    · exact kept.importRead (takes p (domain ▸ read)) h

/-- **Every world that a run reaches** has the property. -/
theorem run (kept : Kept d P I) (reader : ReaderMakes P) {ms : List Mutation}
    (takes : ∀ m ∈ ms, m.Takes d P) : I ((World.empty d).run ms) := by
  suffices ∀ w : World, w.domain = d → I w → I (w.run ms) from this _ rfl kept.empty
  induction ms with
  | nil => exact fun w _ h => h
  | cons m ms ih =>
    intro w domain h
    refine ih (fun n mem => takes n (List.mem_cons_of_mem m mem)) _ ?_ ?_
    · rw [World.domain_apply, domain]
    · exact kept.apply reader (takes m List.mem_cons_self) domain h

end Kept

end WorldModel
