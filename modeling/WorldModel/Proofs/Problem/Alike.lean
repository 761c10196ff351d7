/-
Terms that equal one that has been read.

Equality looks at the identity of atoms only, and takes zero for the negative zero. So a term
that equals one which the reader has made need not be such a term: its fluents may have
values. But values of fluents are not written in a term, and without them it is one that
the reader could have made (`logical_of_same`).
-/
import WorldModel.Proofs.Problem.Reread

set_option autoImplicit false

namespace WorldModel

/-! ## Without values -/

/-- The kind without the value of its fluent, if it has one. -/
def NodeKind.unvalued : NodeKind → NodeKind
  | function f => function { f with value := 0 }
  | k => k

theorem NodeKind.keyword?_unvalued (k : NodeKind) : k.unvalued.keyword? = k.keyword? := by
  cases k <;> rfl

theorem NodeKind.form_unvalued (k : NodeKind) : k.unvalued.form = k.form := by
  cases k <;> rfl

namespace Term

/-- The term without the values of its fluents. -/
def unvalued (t : Term) : Term :=
  t.mapKinds NodeKind.unvalued

theorem unvalued_node (k : NodeKind) (cs : List Term) :
    (node k cs).unvalued = node k.unvalued (cs.map unvalued) :=
  mapKinds_node _ k cs

theorem unvalued_flat {k : NodeKind} (head : k.keyword? ≠ none) (ls : List Literal) :
    (flat k ls).unvalued = flat k ls := by
  have kept : k.unvalued = k := by
    cases k with
    | function _ => exact absurd rfl head
    | _ => rfl
  rw [unvalued, mapKinds_flat (h := id) k ls fun _ => rfl, kept, List.map_id]

/-- Values of fluents are not written. -/
theorem form_unvalued (t : Term) : t.unvalued.form = t.form := by
  induction t with
  | node k cs ih =>
    rw [unvalued_node]
    cases head : k.keyword? with
    | none => rw [form, form, k.keyword?_unvalued, head, k.form_unvalued]
    | some word =>
      rw [form_of_keyword? head, form_of_keyword? (by rw [k.keyword?_unvalued, head]),
        List.map_map]
      exact congrArg _ (congrArg _ (List.map_congr_left ih))

/-- **A term equals what is read as it**, if no number in it is not one. -/
theorem same_unvalued_retype (typeOf : Reader.TypeOf) {t : Term}
    (defined : ∀ x, .number x ∈ t.kinds → x.isNaN = false) :
    t.same (t.unvalued.retype typeOf) = true := by
  rw [unvalued, retype, mapKinds_mapKinds]
  refine same_mapKinds fun k mem => ?_
  have kind := NodeKind.same_self_retype typeOf (k := k) (by rintro x rfl; exact defined x mem)
  cases k <;> exact kind

end Term

/-! ## Equal terms -/

/-- **What equals a kind**: a literal that states the same fact, a fluent of the same key,
some number, or the kind itself. -/
def NodeKind.Alike (k : NodeKind) : NodeKind → Prop
  | predicate m => ∃ l, k = predicate l ∧ l.sameFact m = true
  | function g => ∃ f, k = function f ∧ f.sameKey g = true
  | number _ => ∃ x, k = number x
  | l => k = l

theorem NodeKind.alike_of_same {k l : NodeKind} (h : k.same l = true) : k.Alike l := by
  cases k with
  | predicate a =>
    cases l with
    | predicate b => exact ⟨a, rfl, h⟩
    | _ => cases h
  | function a =>
    cases l with
    | function b => exact ⟨a, rfl, h⟩
    | _ => cases h
  | expression a =>
    cases l with
    | expression b => exact congrArg expression (beq_iff_eq.1 h)
    | _ => cases h
  | update a =>
    cases l with
    | update b => exact congrArg update (beq_iff_eq.1 h)
    | _ => cases h
  | number x =>
    cases l with
    | number y => exact ⟨x, rfl⟩
    | _ => cases h
  | _ => cases l <;> first | rfl | cases h

theorem Term.exists_of_same {t : Term} {l : NodeKind} {ds : List Term}
    (h : t.same (.node l ds) = true) : ∃ k cs, t = .node k cs ∧ k.Alike l ∧
      List.Forall₂ (fun c d => c.same d = true) cs ds := by
  obtain ⟨k, cs⟩ := t
  rw [same, Bool.and_eq_true, sameAll_iff] at h
  exact ⟨k, cs, rfl, NodeKind.alike_of_same h.1, h.2⟩

namespace Reader

variable {P : String → Prop} {t u : Term}

theorem leaf_of_same {l : NodeKind} (h : t.same (leaf l) = true) :
    ∃ k, t = leaf k ∧ k.Alike l := by
  obtain ⟨k, cs, rfl, alike, each⟩ := Term.exists_of_same h
  obtain rfl := List.forall₂_nil_right_iff.1 each
  exact ⟨k, rfl, alike⟩

/-- What equals a node over one or two terms is a node over as many that equal them. -/
theorem single_of_same {l : NodeKind} {d : Term} (h : t.same (.node l [d]) = true) :
    ∃ k c, t = .node k [c] ∧ k.Alike l ∧ c.same d = true := by
  obtain ⟨k, cs, rfl, alike, each⟩ := Term.exists_of_same h
  rcases each with _ | ⟨first, none_⟩
  obtain rfl := List.forall₂_nil_right_iff.1 none_
  exact ⟨k, _, rfl, alike, first⟩

theorem pair_of_same {l : NodeKind} {d e : Term} (h : t.same (.node l [d, e]) = true) :
    ∃ k b c, t = .node k [b, c] ∧ k.Alike l ∧ b.same d = true ∧ c.same e = true := by
  obtain ⟨k, cs, rfl, alike, each⟩ := Term.exists_of_same h
  rcases each with _ | ⟨first, _ | ⟨second, none_⟩⟩
  obtain rfl := List.forall₂_nil_right_iff.1 none_
  exact ⟨k, _, _, rfl, alike, first, second⟩

theorem flat_of_same {l : NodeKind} {ms : List Literal} (h : t.same (.flat l ms) = true) :
    ∃ k ls, t = .flat k ls ∧ k.Alike l ∧
      List.Forall₂ (fun a b => a.sameFact b = true) ls ms := by
  obtain ⟨k, cs, rfl, alike, each⟩ := Term.exists_of_same h
  suffices leaves : ∃ ls, cs = ls.map (fun a => .node (.predicate a) []) ∧
      List.Forall₂ (fun a b => a.sameFact b = true) ls ms by
    obtain ⟨ls, rfl, pairs⟩ := leaves
    exact ⟨k, ls, rfl, alike, pairs⟩
  -- from left to right, each child equals one of the listed leaves
  clear h alike
  induction ms generalizing cs with
  | nil =>
    obtain rfl := List.forall₂_nil_right_iff.1 each
    exact ⟨[], rfl, .nil⟩
  | cons m ms ih =>
    rcases each with _ | ⟨first, later⟩
    obtain ⟨_, rfl, a, rfl, same⟩ := leaf_of_same first
    obtain ⟨ls, rfl, pairs⟩ := ih _ later
    exact ⟨a :: ls, rfl, .cons same pairs⟩

theorem readLiterals_of_same {ls ms : List Literal}
    (each : List.Forall₂ (fun a b => a.sameFact b = true) ls ms) (h : ∀ m ∈ ms, ReadLiteral P m) :
    ∀ l ∈ ls, ReadLiteral P l := by
  intro l mem
  obtain ⟨m, inside, same⟩ := exists_mem_of_forall₂ each mem
  exact (h m inside).of_sameFact same

theorem atomWords_of_sameKey {f g : Fluent} (words : AtomWords P g.name g.args)
    (same : f.sameKey g = true) : AtomWords P f.name f.args := by
  obtain ⟨name, names⟩ := Fluent.sameKey_iff.1 same
  rw [name]
  exact words.of_names names

/-- **What equals a numeric term** is one without its values. -/
theorem numeric_of_same (h : Numeric P u) (same : t.same u = true) : Numeric P t.unvalued := by
  induction h generalizing t with
  | number y =>
    obtain ⟨_, rfl, x, rfl⟩ := leaf_of_same same
    exact .number x
  | fluent words _ plain =>
    -- the key is that of the fluent that was read, the value need not be
    obtain ⟨_, rfl, f, rfl, key⟩ := leaf_of_same same
    rw [← (Fluent.sameKey_iff.1 key).1] at plain
    exact .fluent (f := { f with value := 0 }) (atomWords_of_sameKey words key) rfl plain
  | minus _ ih =>
    obtain ⟨_, c, rfl, rfl, inner⟩ := single_of_same same
    exact .minus (ih inner)
  | pair combines _ _ left right =>
    obtain ⟨_, b, c, rfl, rfl, first, second⟩ := pair_of_same same
    exact .pair combines (left first) (right second)

/-- **What equals a logical term** is one without its values. -/
theorem logical_of_same (h : Logical P u) (same : t.same u = true) : Logical P t.unvalued := by
  induction h generalizing t with
  | @and us _ ih =>
    obtain ⟨_, cs, rfl, rfl, each⟩ := Term.exists_of_same same
    rw [Term.unvalued_node]
    refine .and (List.forall_mem_map.2 fun c mem => ?_)
    obtain ⟨d, inside, pair⟩ := exists_mem_of_forall₂ each mem
    exact ih d inside pair
  | @or us _ ih =>
    obtain ⟨_, cs, rfl, rfl, each⟩ := Term.exists_of_same same
    rw [Term.unvalued_node]
    refine .or (List.forall_mem_map.2 fun c mem => ?_)
    obtain ⟨d, inside, pair⟩ := exists_mem_of_forall₂ each mem
    exact ih d inside pair
  | not _ ih =>
    obtain ⟨_, c, rfl, rfl, inner⟩ := single_of_same same
    exact .not (ih inner)
  | unknown words =>
    obtain ⟨_, ls, rfl, rfl, each⟩ := flat_of_same same
    rcases each with _ | ⟨first, none_⟩
    obtain rfl := List.forall₂_nil_right_iff.1 none_
    rw [Term.unvalued_flat (by simp [NodeKind.keyword?])]
    exact .unknown (words.of_sameFact first)
  | oneOf words =>
    obtain ⟨_, ls, rfl, rfl, each⟩ := flat_of_same same
    rw [Term.unvalued_flat (by simp [NodeKind.keyword?])]
    exact .oneOf (readLiterals_of_same each words)
  | comparison compares left right =>
    obtain ⟨_, b, c, rfl, rfl, first, second⟩ := pair_of_same same
    exact .comparison compares (numeric_of_same left first) (numeric_of_same right second)
  | update words _ amount =>
    obtain ⟨_, b, c, rfl, rfl, first, second⟩ := pair_of_same same
    obtain ⟨_, rfl, f, rfl, key⟩ := leaf_of_same first
    exact .update (f := { f with value := 0 }) (atomWords_of_sameKey words key) rfl
      (numeric_of_same amount second)
  | literal words positive plain =>
    obtain ⟨_, rfl, l, rfl, fact⟩ := leaf_of_same same
    obtain ⟨sign, name, _⟩ := Literal.sameFact_iff.1 fact
    rw [← name] at plain
    exact .literal (words.of_sameFact fact) (sign.trans positive) plain

end Reader

end WorldModel
