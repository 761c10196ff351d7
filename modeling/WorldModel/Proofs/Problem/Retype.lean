/-
Atoms under other types of their arguments.

The reader gives an argument the type of the object that it names in the text at hand. So
one and the same atom, read in front of two lists of objects, may come with two lists of
types, and that is all it differs in: the second is the first one retyped. Nothing that
compares, checks or writes atoms looks at the types of arguments, and retyping goes
unnoticed by all of it (`Term.same_retype`, `Term.text_retype`, `World.validTerm_retype`).
-/
import WorldModel.Proofs.Problem.Reading
import WorldModel.Proofs.World.Validity

set_option autoImplicit false

namespace WorldModel

open Reader (TypeOf argumentOf name_argumentOf)

/-! ## Retyping -/

/-- The arguments as they are read where objects have the given types. -/
def retypeArguments (typeOf : TypeOf) (as : List Argument) : List Argument :=
  as.map fun a => argumentOf typeOf a.name

/-- The literal with its arguments retyped. -/
def Literal.retype (typeOf : TypeOf) (l : Literal) : Literal :=
  { l with args := retypeArguments typeOf l.args }

/-- The fluent with its arguments retyped. -/
def Fluent.retype (typeOf : TypeOf) (f : Fluent) : Fluent :=
  { f with args := retypeArguments typeOf f.args }

/-- The kind with its atom retyped, if it has one. -/
def NodeKind.retype (typeOf : TypeOf) : NodeKind → NodeKind
  | predicate l => predicate (l.retype typeOf)
  | function f => function (f.retype typeOf)
  | k => k

/-- **The term with all its atoms retyped.** -/
def Term.retype (typeOf : TypeOf) (t : Term) : Term :=
  t.mapKinds (NodeKind.retype typeOf)

variable (typeOf other : TypeOf)

@[simp] theorem map_name_retypeArguments (as : List Argument) :
    (retypeArguments typeOf as).map (·.name) = as.map (·.name) := by
  rw [retypeArguments, List.map_map]
  exact List.map_congr_left fun a _ => name_argumentOf typeOf a.name

/-- Types are forgotten when others are given. -/
@[simp] theorem retypeArguments_retypeArguments (as : List Argument) :
    retypeArguments typeOf (retypeArguments other as) = retypeArguments typeOf as := by
  rw [retypeArguments, retypeArguments, List.map_map, retypeArguments]
  refine List.map_congr_left fun a _ => ?_
  rw [Function.comp_apply, name_argumentOf]

theorem NodeKind.retype_retype (k : NodeKind) :
    (k.retype other).retype typeOf = k.retype typeOf := by
  cases k <;> simp [retype, Literal.retype, Fluent.retype]

theorem Term.retype_node (k : NodeKind) (cs : List Term) :
    (Term.node k cs).retype typeOf = .node (k.retype typeOf) (cs.map (Term.retype typeOf)) :=
  mapKinds_node _ k cs

theorem Term.retype_retype (t : Term) : (t.retype other).retype typeOf = t.retype typeOf := by
  induction t with
  | node k cs ih =>
    rw [retype_node, retype_node, retype_node, NodeKind.retype_retype, List.map_map]
    exact congrArg _ (List.map_congr_left ih)

theorem Term.retype_flat {k : NodeKind} (head : k.keyword? ≠ none) (ls : List Literal) :
    (flat k ls).retype typeOf = flat k (ls.map (Literal.retype typeOf)) := by
  have kept : k.retype typeOf = k := by
    cases k with
    | predicate _ | function _ => exact absurd rfl head
    | _ => rfl
  rw [retype, mapKinds_flat (h := Literal.retype typeOf) k ls fun _ => rfl, kept]

/-! ## Comparing -/

/-- Types do not count when facts are compared. -/
@[simp] theorem Literal.sameFact_retype (l m : Literal) :
    (l.retype typeOf).sameFact (m.retype other) = l.sameFact m := by
  simp only [sameFact, sameAtom, sameArguments, retype, map_name_retypeArguments]

/-- Types do not count when fluents are compared. -/
@[simp] theorem Fluent.sameKey_retype (f g : Fluent) :
    (f.retype typeOf).sameKey (g.retype other) = f.sameKey g := by
  simp only [sameKey, sameArguments, retype, map_name_retypeArguments]

theorem NodeKind.same_retype (k l : NodeKind) :
    (k.retype typeOf).same (l.retype other) = k.same l := by
  cases k with
  | predicate _ =>
    cases l with
    | predicate _ => exact Literal.sameFact_retype typeOf other _ _
    | _ => rfl
  | function _ =>
    cases l with
    | function _ => exact Fluent.sameKey_retype typeOf other _ _
    | _ => rfl
  | _ => cases l <;> rfl

/-- **Types do not count when terms are compared.** -/
theorem Term.same_retype (t u : Term) : (t.retype typeOf).same (u.retype other) = t.same u := by
  induction t generalizing u with
  | node k cs ih =>
    obtain ⟨l, ds⟩ := u
    have below : sameAll (cs.map (Term.retype typeOf)) (ds.map (Term.retype other)) =
        sameAll cs ds := by
      induction cs generalizing ds with
      | nil => cases ds <;> rfl
      | cons c cs ihs =>
        obtain ⟨first, later⟩ := List.forall_mem_cons.1 ih
        cases ds with
        | nil => rfl
        | cons d ds => rw [List.map_cons, List.map_cons, sameAll, sameAll, first, ihs later]
    rw [retype_node, retype_node, same, same, NodeKind.same_retype, below]

theorem Literal.sameFact_self_retype (l : Literal) : l.sameFact (l.retype typeOf) = true := by
  rw [Literal.sameFact_iff]
  exact ⟨rfl, rfl, (map_name_retypeArguments typeOf l.args).symm⟩

theorem Fluent.sameKey_self_retype (f : Fluent) : f.sameKey (f.retype typeOf) = true := by
  rw [Fluent.sameKey_iff]
  exact ⟨rfl, (map_name_retypeArguments typeOf f.args).symm⟩

/-- A kind equals the retyped one, unless it is a number that is not one. -/
theorem NodeKind.same_self_retype {k : NodeKind} (defined : ∀ x, k = .number x → x.isNaN = false) :
    k.same (k.retype typeOf) = true := by
  cases k with
  | predicate l => exact l.sameFact_self_retype typeOf
  | function f => exact f.sameKey_self_retype typeOf
  | number x => exact Number.beq_self_iff.2 (defined x rfl)
  | expression op => exact beq_self_eq_true op
  | update op => exact beq_self_eq_true op
  | _ => rfl

/-- **Terms are equal when they are up to types**, if no number in them is not one. -/
theorem Term.same_self_retype {t : Term} (defined : ∀ x, .number x ∈ t.kinds → x.isNaN = false) :
    t.same (t.retype typeOf) = true := by
  refine same_mapKinds fun k mem => NodeKind.same_self_retype typeOf ?_
  rintro x rfl
  exact defined x mem

/-! ## Writing -/

variable (casing : Casing)

theorem atomText_retype (name : String) (as : List Argument) :
    atomText casing name (retypeArguments typeOf as) = atomText casing name as := by
  have names : (retypeArguments typeOf as).map (fun a => " " ++ a.name) =
      as.map fun a => " " ++ a.name := by
    have each := congrArg (List.map (" " ++ ·)) (map_name_retypeArguments typeOf as)
    rwa [List.map_map, List.map_map] at each
  rw [atomText, names, atomText]

theorem Literal.text_retype (l : Literal) : (l.retype typeOf).text casing = l.text casing := by
  simp only [text, retype, atomText_retype]

theorem Fluent.text_retype (f : Fluent) : (f.retype typeOf).text casing = f.text casing := by
  simp only [text, termText, retype, atomText_retype]

theorem Term.textAll_eq (ts : List Term) :
    textAll casing ts = String.join (ts.map fun t => " " ++ t.text casing) := by
  induction ts with
  | nil => rfl
  | cons t ts ih => rw [textAll, ih, List.map_cons, String.join_cons]

/-- **Types are not written.** -/
theorem Term.text_retype (t : Term) : (t.retype typeOf).text casing = t.text casing := by
  induction t with
  | node k cs ih =>
    have word : (k.retype typeOf).keyword? = k.keyword? := by cases k <;> rfl
    have leaf : (k.retype typeOf).leafText casing = k.leafText casing := by
      cases k with
      | predicate l => exact l.text_retype typeOf casing
      | function f => exact atomText_retype typeOf casing f.name f.args
      | _ => rfl
    have below : textAll casing (cs.map (Term.retype typeOf)) = textAll casing cs := by
      rw [textAll_eq, textAll_eq, List.map_map]
      refine congrArg _ (List.map_congr_left fun c mem => ?_)
      rw [Function.comp_apply, ih c mem]
    rw [retype_node, text, text, word, leaf, below]

/-! ## Validity -/

namespace World

variable (w : World)

theorem argumentsFit_retype (s : Signature) (as : List Argument) :
    w.argumentsFit s (retypeArguments typeOf as) = w.argumentsFit s as := by
  have fits : ∀ slot a, w.fits slot (argumentOf typeOf a.name) = w.fits slot a := by
    intro slot a
    rw [World.fits, name_argumentOf, World.fits]
  have pairs : s.slots.zip (retypeArguments typeOf as) =
      (s.slots.zip as).map (Prod.map id fun a => argumentOf typeOf a.name) := by
    rw [retypeArguments, ← List.zip_map, List.map_id]
  rw [argumentsFit, argumentsFit, pairs, List.all_map, retypeArguments, List.length_map]
  refine congrArg _ (congrArg (List.all _) (funext fun p => ?_))
  exact fits p.1 p.2

theorem validLiteral_retype (l : Literal) :
    w.validLiteral (l.retype typeOf) = w.validLiteral l := by
  simp only [validLiteral, Literal.retype, argumentsFit_retype]

theorem validFluent_retype (f : Fluent) : w.validFluent (f.retype typeOf) = w.validFluent f := by
  simp only [validFluent, Fluent.retype, argumentsFit_retype]

/-- **Types do not bear on validity.** -/
theorem validTerm_retype (t : Term) : w.validTerm (t.retype typeOf) = w.validTerm t := by
  induction t with
  | node k cs ih =>
    have below : w.validTerms (cs.map (Term.retype typeOf)) = w.validTerms cs := by
      rw [validTerms_eq, validTerms_eq, List.all_map, Bool.eq_iff_iff, List.all_eq_true,
        List.all_eq_true]
      exact forall₂_congr fun c mem => by rw [Function.comp_apply, ih c mem]
    rw [Term.retype_node]
    cases k with
    | and | or | oneOf | expression _ | update _ =>
      simp only [NodeKind.retype, validTerm, below]
    | not | unknown => simp only [NodeKind.retype, validTerm, below, List.length_map]
    | predicate l => exact w.validLiteral_retype typeOf l
    | function f => exact w.validFluent_retype typeOf f
    | number _ => rfl

end World

end WorldModel
