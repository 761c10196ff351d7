/-
Nobody can tell spellings of a declared name apart.

A domain finds a predicate or a function under many spellings of its name, and a caller may
use any of them, in atoms as well as in the nodes of formulas. **Main statement.**
`answers_respelled`: two lists of calls that differ in such spellings only get the same
answers, up to the wording of refusals, and leave the same world, which is the strongest
thing that can be said of worlds.

There is one reason for this, and it is the same for every call: an operation looks at its
argument in the domain's spelling (`spellFormula_eq` and its companions for atoms), or
checks it, and a check does not depend on spelling (`validFormula_spell`,
`shapeFault?_renameAtoms`). Only the text of a refusal quotes the argument as it was given.
-/
import WorldModel.Proofs.World.Goal
import WorldModel.Proofs.World.Reply
import WorldModel.World.Satisfaction

set_option autoImplicit false

namespace WorldModel

/-! ## Spellings of one name -/

/-- Two names of one predicate: the same, or both declared with the same signature. -/
def Domain.SamePredicate (d : Domain) (name other : String) : Prop :=
  name = other ∨ ∃ s, d.predicate? name = some s ∧ d.predicate? other = some s

/-- Two names of one function: the same, or both declared with the same signature. -/
def Domain.SameFunction (d : Domain) (name other : String) : Prop :=
  name = other ∨ ∃ s, d.function? name = some s ∧ d.function? other = some s

/-- Names that fold to one name are names of one predicate, if it is declared. -/
theorem Domain.samePredicate_of_fold {d : Domain} {name other : String}
    (key : fold name = fold other) (declared : (d.predicate? name).isSome = true) :
    d.SamePredicate name other := by
  obtain ⟨s, found⟩ := Option.isSome_iff_exists.1 declared
  refine .inr ⟨s, found, ?_⟩
  rw [← found]
  exact congrArg (fun key => (d.predicates.find? key).map (d.signature key)) key.symm

theorem Domain.SamePredicate.spell_eq {d : Domain} {name other : String}
    (same : d.SamePredicate name other) : d.spellPredicate name = d.spellPredicate other := by
  unfold Domain.spellPredicate
  rcases same with rfl | ⟨s, here, there⟩
  · rfl
  · rw [here, there]

theorem Domain.SameFunction.spell_eq {d : Domain} {name other : String}
    (same : d.SameFunction name other) : d.spellFunction name = d.spellFunction other := by
  unfold Domain.spellFunction
  rcases same with rfl | ⟨s, here, there⟩
  · rfl
  · rw [here, there]

/-- Two literals that differ in the spelling of the predicate only. -/
def Literal.Respelled (d : Domain) (l m : Literal) : Prop :=
  d.SamePredicate l.name m.name ∧ l.args = m.args ∧ l.negated = m.negated

/-- Two fluents that differ in the spelling of the function only. -/
def Fluent.Respelled (d : Domain) (f g : Fluent) : Prop :=
  d.SameFunction f.name g.name ∧ f.args = g.args ∧ f.value = g.value

/-- Two kinds of nodes that differ in the spelling of the name only, if there is one. -/
inductive NodeKind.Respelled (d : Domain) : NodeKind → NodeKind → Prop
  | predicate {l m : Literal} : l.Respelled d m → Respelled d (.predicate l) (.predicate m)
  | function {f g : Fluent} : f.Respelled d g → Respelled d (.function f) (.function g)
  | same (k : NodeKind) : Respelled d k k

/-- **Two formulas** that differ in the spelling of names only: node by node, those that
the root does not reach as well. -/
def Formula.Respelled (d : Domain) (f g : Formula) : Prop :=
  List.Forall₂ (fun n m => n.id = m.id ∧ n.children = m.children ∧ n.kind.Respelled d m.kind)
    f.nodes.toList g.nodes.toList

namespace World

variable {w : World} {l m : Literal} {f g : Fluent} {p q : Formula}

/-! ## What the operations look at -/

theorem spellLiteral_eq (same : l.Respelled w.domain m) : w.spellLiteral l = w.spellLiteral m := by
  obtain ⟨name, args, sign⟩ := same
  unfold spellLiteral
  rw [name.spell_eq, args, sign]

theorem spellFluent_eq (same : f.Respelled w.domain g) : w.spellFluent f = w.spellFluent g := by
  obtain ⟨name, args, value⟩ := same
  unfold spellFluent
  rw [name.spell_eq, args, value]

theorem spellKind_eq {k j : NodeKind} (same : k.Respelled w.domain j) :
    w.spellKind k = w.spellKind j := by
  cases same with
  | predicate same => exact congrArg NodeKind.predicate (spellLiteral_eq same)
  | function same => exact congrArg NodeKind.function (spellFluent_eq same)
  | same k => rfl

/-- **Formulas that differ in spelling** are the same formula in the domain's spelling. -/
theorem spellFormula_eq (same : p.Respelled w.domain q) : w.spellFormula p = w.spellFormula q := by
  have nodes : ∀ ns ms : List Node,
      List.Forall₂ (fun n m => n.id = m.id ∧ n.children = m.children ∧
        n.kind.Respelled w.domain m.kind) ns ms →
      ns.map (fun n => { n with kind := w.spellKind n.kind }) =
        ms.map fun n => { n with kind := w.spellKind n.kind } := by
    intro ns ms each
    induction each with
    | nil => rfl
    | cons head _ ih =>
      obtain ⟨id, children, kind⟩ := head
      rw [List.map_cons, List.map_cons, ih, id, children, spellKind_eq kind]
  unfold spellFormula Formula.renameAtoms
  -- the nodes that the root does not reach are spelled as well
  congr 1
  apply Array.toList_inj.1
  rw [Array.toList_map, Array.toList_map]
  exact nodes _ _ same

theorem validLiteral_eq (same : l.Respelled w.domain m) : w.validLiteral l = w.validLiteral m := by
  rw [← validLiteral_spell, spellLiteral_eq same, validLiteral_spell]

theorem validFluent_eq (same : f.Respelled w.domain g) : w.validFluent f = w.validFluent g := by
  rw [← validFluent_spell, spellFluent_eq same, validFluent_spell]

theorem validFormula_eq (same : p.Respelled w.domain q) : w.validFormula p = w.validFormula q := by
  rw [← validFormula_spell, spellFormula_eq same, validFormula_spell]

theorem shapeFault?_eq (same : p.Respelled w.domain q) : shapeFault? p = shapeFault? q := by
  -- spelling does not change the shape, and both are spelled the same
  have spelled := congrArg shapeFault? (spellFormula_eq same)
  unfold spellFormula at spelled
  rwa [shapeFault?_renameAtoms, shapeFault?_renameAtoms] at spelled

end World

/-! ## Answers that agree -/

/-- A refusal without its wording. -/
inductive RefusalTag where
  | unknownType
  | objectConflict
  | invalidLiteral
  | invalidFluent
  | fluentNotFound
  | invalidFormula
  | malformedContingent
  | duplicateContingent
deriving DecidableEq

/-- The tag of a refusal: what is refused, not the text that says so. -/
def Refusal.tag : Refusal → RefusalTag
  | unknownType _ => .unknownType
  | objectConflict _ _ _ => .objectConflict
  | invalidLiteral _ => .invalidLiteral
  | invalidFluent _ => .invalidFluent
  | fluentNotFound _ => .fluentNotFound
  | invalidFormula _ => .invalidFormula
  | malformedContingent _ _ => .malformedContingent
  | duplicateContingent _ => .duplicateContingent

/-- Two replies that say the same; of refusals, that they are of the same tag. -/
inductive Reply.Agrees : Reply → Reply → Prop
  | same (r : Reply) : Agrees r r
  | refused {r s : Refusal} : r.tag = s.tag → Agrees (.refused r) (.refused s)

/-- Two outcomes that leave the same world and agree on what they answer. -/
def Outcome.Agrees (o p : Outcome) : Prop :=
  o.world = p.world ∧ o.reply.Agrees p.reply

theorem Outcome.agrees_of_eq {o p : Outcome} (eq : o = p) : o.Agrees p := by
  rw [eq]
  exact ⟨rfl, .same _⟩

theorem Outcome.agrees_refused (w : World) {r s : Refusal} (tag : r.tag = s.tag) :
    (w.refused r).Agrees (w.refused s) :=
  ⟨rfl, .refused tag⟩

namespace World

variable {w : World} {l m : Literal} {f g : Fluent} {p q : Formula}

open Outcome (agrees_of_eq agrees_refused)

/-! ## Operations

To add a fact or a fluent is to spell it first, so that nothing remains of the spelling it
was given in. The others check before they spell. -/

theorem addFact_agrees (same : l.Respelled w.domain m) : (w.addFact l).Agrees (w.addFact m) := by
  apply agrees_of_eq
  unfold addFact
  rw [spellLiteral_eq same]

theorem updateFluent_agrees (same : f.Respelled w.domain g) :
    (w.updateFluent f).Agrees (w.updateFluent g) := by
  apply agrees_of_eq
  unfold updateFluent
  rw [spellFluent_eq same]

theorem addFluent_agrees (same : f.Respelled w.domain g) :
    (w.addFluent f).Agrees (w.addFluent g) := by
  apply agrees_of_eq
  unfold addFluent
  rw [spellFluent_eq same]

/-- **A check that comes first** fails under both spellings or under none, and behind it
nothing remains of the spelling. -/
theorem agrees_of_check {check : Bool} {r s : Refusal} {o : Outcome} (tag : r.tag = s.tag) :
    (if !check then w.refused r else o).Agrees (if !check then w.refused s else o) := by
  by_cases passed : check = true
  · rw [passed]
    exact agrees_of_eq rfl
  · rw [Bool.not_eq_true] at passed
    rw [passed]
    exact agrees_refused w tag

theorem removeFact_agrees (same : l.Respelled w.domain m) :
    (w.removeFact l).Agrees (w.removeFact m) := by
  unfold removeFact
  rw [validLiteral_eq same, spellLiteral_eq same]
  apply agrees_of_check
  simp only [Refusal.tag]

theorem removeFluent_agrees (same : f.Respelled w.domain g) :
    (w.removeFluent f).Agrees (w.removeFluent g) := by
  unfold removeFluent
  rw [validFluent_eq same, spellFluent_eq same]
  apply agrees_of_check
  simp only [Refusal.tag]

theorem removeContingent_agrees (same : p.Respelled w.domain q) :
    (w.removeContingent p).Agrees (w.removeContingent q) := by
  unfold removeContingent
  rw [validFormula_eq same, spellFormula_eq same]
  apply agrees_of_check
  simp only [Refusal.tag]

theorem addContingent_agrees (same : p.Respelled w.domain q) :
    (w.addContingent p).Agrees (w.addContingent q) := by
  unfold addContingent
  rw [shapeFault?_eq same, validFormula_eq same, spellFormula_eq same]
  cases shapeFault? q with
  | some reason =>
    apply agrees_refused
    simp only [Refusal.tag]
  | none =>
    apply agrees_of_check
    simp only [Refusal.tag]

theorem setGoal_agrees (same : p.Respelled w.domain q) : (w.setGoal p).Agrees (w.setGoal q) := by
  unfold setGoal
  rw [validFormula_eq same, spellFormula_eq same]
  by_cases valid : w.validFormula q = true
  · rw [if_pos valid, if_pos valid]
    exact agrees_of_eq rfl
  · rw [if_neg valid, if_neg valid]
    apply agrees_refused
    simp only [Refusal.tag]

end World

/-! ## Calls -/

/-- What a caller may ask of a world: whether it has an atom or a contingent fact, whether an argument is
valid, and whether a formula holds. -/
inductive Question where
  | hasFact (l : Literal)
  | hasFluent (f : Fluent)
  | hasContingent (f : Formula)
  | isValidLiteral (l : Literal)
  | isValidFluent (f : Fluent)
  | isValid (f : Formula)
  | holds (f : Formula)

/-- The answer that a world gives to a question. -/
def Question.answer (w : World) : Question → Bool
  | hasFact l => w.hasFact l
  | hasFluent f => w.hasFluent f
  | hasContingent f => w.hasContingent f
  | isValidLiteral l => w.validLiteral l
  | isValidFluent f => w.validFluent f
  | isValid f => w.validFormula f
  | holds f => w.holds f

/-- What a caller may do with a world: change it, or ask. -/
inductive Call where
  | change (m : Mutation)
  | ask (q : Question)

/-- What a call is answered with: the reply to a change, or the truth about a question. -/
inductive Answer where
  | reply (r : Reply)
  | truth (b : Bool)

/-- The world that a call leaves. A question leaves it as it is. -/
def Call.apply (w : World) : Call → World
  | change m => m.apply w
  | ask _ => w

/-- The answer to a call, given in the world before it. -/
def Call.answer (w : World) : Call → Answer
  | change m => .reply (m.reply w)
  | ask q => .truth (q.answer w)

/-- **The answers to a list of calls**, each to the world that those before it leave. -/
def World.answers (w : World) : List Call → List Answer
  | [] => []
  | c :: cs => c.answer w :: (c.apply w).answers cs

/-- The world after a list of calls. -/
def World.after (w : World) (cs : List Call) : World :=
  cs.foldl Call.apply w

/-! ## Calls that differ in spelling -/

/-- Two mutations that differ in the spelling of names only. -/
inductive Mutation.Respelled (d : Domain) : Mutation → Mutation → Prop
  | addFact {l m : Literal} : l.Respelled d m → Respelled d (.addFact l) (.addFact m)
  | removeFact {l m : Literal} : l.Respelled d m → Respelled d (.removeFact l) (.removeFact m)
  | addFluent {f g : Fluent} : f.Respelled d g → Respelled d (.addFluent f) (.addFluent g)
  | updateFluent {f g : Fluent} : f.Respelled d g → Respelled d (.updateFluent f) (.updateFluent g)
  | removeFluent {f g : Fluent} : f.Respelled d g → Respelled d (.removeFluent f) (.removeFluent g)
  | addContingent {f g : Formula} :
    f.Respelled d g → Respelled d (.addContingent f) (.addContingent g)
  | removeContingent {f g : Formula} :
    f.Respelled d g → Respelled d (.removeContingent f) (.removeContingent g)
  | setGoal {f g : Formula} : f.Respelled d g → Respelled d (.setGoal f) (.setGoal g)
  /-- Such as those on objects, which have no names of predicates or functions in them. -/
  | same (m : Mutation) : Respelled d m m

/-- Two questions that differ in the spelling of names only. -/
inductive Question.Respelled (d : Domain) : Question → Question → Prop
  | hasFact {l m : Literal} : l.Respelled d m → Respelled d (.hasFact l) (.hasFact m)
  | hasFluent {f g : Fluent} : f.Respelled d g → Respelled d (.hasFluent f) (.hasFluent g)
  | hasContingent {f g : Formula} :
    f.Respelled d g → Respelled d (.hasContingent f) (.hasContingent g)
  | isValidLiteral {l m : Literal} :
    l.Respelled d m → Respelled d (.isValidLiteral l) (.isValidLiteral m)
  | isValidFluent {f g : Fluent} :
    f.Respelled d g → Respelled d (.isValidFluent f) (.isValidFluent g)
  | isValid {f g : Formula} : f.Respelled d g → Respelled d (.isValid f) (.isValid g)
  | holds {f g : Formula} : f.Respelled d g → Respelled d (.holds f) (.holds g)

/-- Two calls that differ in the spelling of names only. -/
inductive Call.Respelled (d : Domain) : Call → Call → Prop
  | change {m n : Mutation} : m.Respelled d n → Respelled d (.change m) (.change n)
  | ask {q r : Question} : q.Respelled d r → Respelled d (.ask q) (.ask r)

/-- Two answers that say the same, up to the wording of refusals. -/
inductive Answer.Agrees : Answer → Answer → Prop
  | reply {r s : Reply} : r.Agrees s → Agrees (.reply r) (.reply s)
  | truth (b : Bool) : Agrees (.truth b) (.truth b)

/-- **A mutation under another spelling** leaves the same world, and the replies agree. -/
theorem Mutation.Respelled.agrees {w : World} {m n : Mutation} (same : m.Respelled w.domain n) :
    m.apply w = n.apply w ∧ (m.reply w).Agrees (n.reply w) := by
  cases same with
  | addFact same => exact World.addFact_agrees same
  | addFluent same => exact World.addFluent_agrees same
  | updateFluent same => exact World.updateFluent_agrees same
  | removeFact same => exact World.removeFact_agrees same
  | removeFluent same => exact World.removeFluent_agrees same
  | addContingent same => exact World.addContingent_agrees same
  | removeContingent same => exact World.removeContingent_agrees same
  | setGoal same => exact World.setGoal_agrees same
  | same m => exact ⟨rfl, .same _⟩

theorem Question.Respelled.answer_eq {w : World} {q r : Question} (same : q.Respelled w.domain r) :
    q.answer w = r.answer w := by
  unfold Question.answer
  cases same with
  | hasFact same => simp only [World.hasFact, World.spellLiteral_eq same]
  | hasFluent same => simp only [World.hasFluent, World.spellFluent_eq same]
  | hasContingent same => simp only [World.hasContingent, World.spellFormula_eq same]
  | isValidLiteral same => exact World.validLiteral_eq same
  | isValidFluent same => exact World.validFluent_eq same
  | isValid same => exact World.validFormula_eq same
  | holds same => simp only [World.holds, World.spellFormula_eq same]

theorem Call.Respelled.agrees {w : World} {c e : Call} (same : c.Respelled w.domain e) :
    c.apply w = e.apply w ∧ (c.answer w).Agrees (e.answer w) := by
  cases same with
  | change same =>
    obtain ⟨world, reply⟩ := same.agrees
    exact ⟨world, .reply reply⟩
  | ask same =>
    have truth : Call.answer w (.ask _) = .truth _ := congrArg Answer.truth same.answer_eq
    rw [truth]
    exact ⟨rfl, .truth _⟩

namespace World

theorem domain_call (w : World) (c : Call) : (c.apply w).domain = w.domain := by
  cases c with
  | change m => exact domain_apply w m
  | ask q => rfl

/-- **Spellings cannot be told apart**: calls to a world that differ only in the spellings of
declared names get answers that agree, one by one, and leave the same world. -/
theorem answers_respelled (w : World) (cs es : List Call)
    (same : List.Forall₂ (Call.Respelled w.domain) cs es) :
    List.Forall₂ Answer.Agrees (w.answers cs) (w.answers es) ∧ w.after cs = w.after es := by
  induction cs generalizing w es with
  | nil =>
    rw [List.forall₂_nil_left_iff.1 same]
    exact ⟨.nil, rfl⟩
  | cons c cs ih =>
    obtain ⟨e, es, head, tail, rfl⟩ := List.forall₂_cons_left_iff.1 same
    obtain ⟨world, answer⟩ := head.agrees
    -- the first calls leave one world, and the others go on from there
    rw [← domain_call w c] at tail
    obtain ⟨answers, after⟩ := ih (c.apply w) es tail
    refine ⟨?_, ?_⟩
    · unfold World.answers
      rw [← world]
      exact .cons answer answers
    · unfold World.after at after ⊢
      rw [List.foldl_cons, List.foldl_cons, ← world, after]

/-- Two callers who write the name of a predicate in their own ways, one of them in capitals
and with a space behind it. -/
theorem answers_respelled_clear :
    let calls (name : String) : List Call :=
      [.change (.addObject ⟨"a", "object"⟩), .change (.addFact (.positive name ["a"])),
        .ask (.hasFact (.positive name ["a"])), .change (.removeFact (.positive name ["b"])),
        .change (.addContingent (.leaf (.predicate (.positive name ["a"]))))]
    clearOnly.SamePredicate "clear" "CLEAR " ∧
      List.Forall₂ Answer.Agrees ((empty clearOnly).answers (calls "clear"))
        ((empty clearOnly).answers (calls "CLEAR ")) ∧
      (empty clearOnly).after (calls "clear") = (empty clearOnly).after (calls "CLEAR ") := by
  intro calls
  have same : clearOnly.SamePredicate "clear" "CLEAR " :=
    Domain.samePredicate_of_fold (by decide +kernel) (by decide +kernel)
  have literal : ∀ args, (Literal.positive "clear" args).Respelled clearOnly (.positive "CLEAR " args) :=
    fun args => ⟨same, rfl, rfl⟩
  have leaf : (Formula.leaf (.predicate (.positive "clear" ["a"]))).Respelled clearOnly
      (.leaf (.predicate (.positive "CLEAR " ["a"]))) :=
    .cons ⟨rfl, rfl, .predicate (literal ["a"])⟩ .nil
  refine ⟨same, answers_respelled (empty clearOnly) (calls "clear") (calls "CLEAR ") ?_⟩
  exact .cons (.change (.same _)) <| .cons (.change (.addFact (literal ["a"]))) <|
    .cons (.ask (.hasFact (literal ["a"]))) <| .cons (.change (.removeFact (literal ["b"]))) <|
    .cons (.change (.addContingent leaf)) .nil

end World

end WorldModel
