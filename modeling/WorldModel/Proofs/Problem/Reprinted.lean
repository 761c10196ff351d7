/-
The text of an expression that has been read.

Reading goes by place, writing does not: `(x a b)` is a fact in one place and a fluent in
another, a word that joins expressions elsewhere is the name of a fact inside a one-of, and a
negation is a node of its own here and part of a fact there. **Main statement.**
`Formula.parse_text`: even so the text of what has been read is read as the same again, node for
node.

The work is in `Reread`, where a term of the kind that the reader makes is read back from
its form, with its arguments retyped. Two things are left for this module. What has been read
comes in again as it is written, since its words are those of a text (`audible_of_ofWords`);
and it has the types that the reader gives it already, so that retyping changes nothing
(`retype_of_logical`).
-/
import WorldModel.Proofs.Problem.Reread

set_option autoImplicit false

namespace WorldModel

open SExpr (Separates)

/-! ## Plain names -/

/-- **A plain name**: not empty, without blanks and parentheses. -/
structure Plain (name : String) : Prop where
  nonempty : name ≠ ""
  inside : ∀ c ∈ name.toList, ¬ Separates c

instance (name : String) : Decidable (Plain name) :=
  decidable_of_iff (name ≠ "" ∧ name.toList.all fun c => !decide (Separates c))
    ⟨fun h => ⟨h.1, by simpa using h.2⟩, fun h => ⟨h.nonempty, by simpa using h.inside⟩⟩

/-- A plain name comes in as it is where a text is read as it is. -/
theorem Plain.isWord {name : String} (h : Plain name) : Intake.raw.IsWord name :=
  Intake.isWord_raw h.nonempty h.inside

/-- An atom of plain names comes in as it is written where it is written as it is stored. -/
theorem atomAudible_asStored {name : String} {as : List Argument}
    (words : Reader.AtomWords Plain name as) : AtomAudible .raw .asStored name as :=
  ⟨words.name.isWord, rfl, fun a mem => (words.args a mem).isWord⟩

theorem Reader.single_eq_ok_iff {s : String} {sx : SExpr} :
    Reader.single s = .ok sx ↔ SExpr.parse s = .ok [sx] := by
  rw [single]
  split <;> simp_all

/-- A text is read as the one expression in it. -/
theorem Formula.parse_eq_ok_iff {s : String} {f : Formula} : Formula.parse s = .ok f ↔
    ∃ sx t, SExpr.parse s = .ok [sx] ∧ Reader.logical Reader.untyped sx = .ok t ∧ f = .ofTerm t := by
  constructor
  · intro read
    obtain ⟨sx, alone, rest⟩ := bind_eq_ok_iff.1 read
    obtain ⟨t, logical, same⟩ := bind_eq_ok_iff.1 rest
    exact ⟨sx, t, Reader.single_eq_ok_iff.1 alone, logical, (Except.ok.inj same).symm⟩
  · rintro ⟨sx, t, alone, logical, rfl⟩
    exact bind_eq_ok_iff.2 ⟨sx, Reader.single_eq_ok_iff.2 alone, bind_eq_ok_iff.2 ⟨t, logical, rfl⟩⟩

/-- A formula that is read from a text has plain names. -/
theorem Formula.exists_logical_of_parse {s : String} {f : Formula} (read : Formula.parse s = .ok f) :
    ∃ t, f = .ofTerm t ∧ Reader.Logical Plain t := by
  obtain ⟨sx, t, parsed, logical, rfl⟩ := parse_eq_ok_iff.1 read
  have words := SExpr.over_of_parse (fun _ _ inside => inside) parsed
  refine ⟨t, rfl, Reader.logical_logical ?_ logical⟩
  exact (words _ (List.mem_singleton_self _)).imp fun _ word => ⟨word.1, word.2⟩

/-- A number that is one is written in small letters, and comes in as the form has it. -/
theorem NodeKind.audible_number {x : Float} {casing : Casing} (defined : x.isNaN = false) :
    (number x).Audible .raw casing := by
  have word := word_write defined
  rw [Audible, word.lower_eq]
  exact heard_number_raw x

/-- **What is made of plain names** comes in as it is written, unless it is a number that is
none. -/
theorem NodeKind.audible_of_ofWords {k : NodeKind} (words : k.OfWords Plain)
    (defined : ∀ x, k = .number x → x.isNaN = false) : k.Audible .raw .asStored := by
  cases k with
  | predicate l => exact atomAudible_asStored words
  | function f => exact atomAudible_asStored words
  | number x => exact audible_number (defined x rfl)
  | _ => trivial

/-! ## What is read has its types -/

namespace Reader

variable {typeOf : TypeOf} {sx : SExpr}

theorem retype_of_arguments {sxs : List SExpr} {as : List Argument}
    (read : sxs.mapM (argument typeOf) = .ok as) : retypeArguments typeOf as = as := by
  obtain ⟨names, _, _, rfl⟩ := arguments_eq_ok_iff.1 read
  rw [retypeArguments, List.map_map]
  refine List.map_congr_left fun name _ => ?_
  rw [Function.comp_apply, name_argumentOf]

theorem retype_of_literal {l : Literal} (read : literal typeOf sx = .ok l) :
    l.retype typeOf = l := by
  induction sx generalizing l with
  | atom text span => exact absurd read notHeaded_ne_ok
  | list items span ih =>
    rcases items with _ | ⟨⟨head, place⟩ | _, args⟩
    case cons.atom =>
      rw [literal.eq_def] at read
      dsimp only at read
      split at read
      · rcases args with _ | ⟨inner, _ | _⟩
        case cons.nil =>
          -- the negation has the arguments of the literal inside
          obtain ⟨m, readInner, rfl⟩ := map_eq_ok_iff.1 read
          exact congrArg Literal.negate (ih inner (by simp) readInner)
        all_goals exact absurd read faulty_ne_ok
      · obtain ⟨as, readArgs, rfl⟩ := map_eq_ok_iff.1 read
        rw [Literal.retype, retype_of_arguments readArgs]
    all_goals exact absurd read notHeaded_ne_ok

theorem retype_of_literals {sxs : List SExpr} {ls : List Literal}
    (read : sxs.mapM (literal typeOf) = .ok ls) : ∀ l ∈ ls, l.retype typeOf = l := by
  rw [mapM_eq_ok_iff] at read
  intro l mem
  obtain ⟨sx, _, readOne⟩ := exists_mem_of_forall₂ read.flip mem
  exact retype_of_literal readOne

theorem retype_of_fluentTerm {f : Fluent} (read : fluentTerm typeOf sx = .ok f) :
    f.retype typeOf = f := by
  obtain ⟨_, _, _, _, readArgs, rfl⟩ := fluentTerm_eq_ok_iff.1 read
  rw [Fluent.retype, retype_of_arguments readArgs]

/-- A node has its types when its atom has, and all that stands below it. -/
theorem retype_eq_self {k : NodeKind} {cs : List Term} (top : k.retype typeOf = k)
    (below : ∀ c ∈ cs, c.retype typeOf = c) : (Term.node k cs).retype typeOf = .node k cs := by
  rw [Term.retype_node, top, List.map_congr_left below, List.map_id']

/-- A leaf has its types when its atom has. -/
theorem retype_leaf {k : NodeKind} (top : k.retype typeOf = k) : (leaf k).retype typeOf = leaf k :=
  retype_eq_self top (by simp)

theorem retype_of_numeric {t : Term} (read : numeric typeOf sx = .ok t) :
    t.retype typeOf = t := by
  induction sx generalizing t with
  | atom text span =>
    obtain ⟨x, _, rfl⟩ := map_eq_ok_iff.1 read
    exact retype_leaf rfl
  | list items span ih =>
    rcases items with _ | ⟨⟨head, place⟩ | _, args⟩
    case cons.atom =>
      rw [numeric.eq_def] at read
      dsimp only at read
      split at read
      · rcases args with _ | ⟨left, _ | ⟨right, _ | _⟩⟩
        case cons.nil =>
          dsimp only at read
          split at read
          · obtain ⟨u, readOnly, rfl⟩ := map_eq_ok_iff.1 read
            have inner := ih left (by simp) readOnly
            exact retype_eq_self rfl (by simpa using inner)
          · exact absurd read faulty_ne_ok
        case cons.cons.nil =>
          obtain ⟨l, readLeft, rest⟩ := bind_eq_ok_iff.1 read
          obtain ⟨r, readRight, same⟩ := bind_eq_ok_iff.1 rest
          obtain rfl := Except.ok.inj same
          have first := ih left (by simp) readLeft
          have second := ih right (by simp) readRight
          exact retype_eq_self rfl (by simpa using ⟨first, second⟩)
        all_goals exact absurd read faulty_ne_ok
      · obtain ⟨f, readTerm, rfl⟩ := map_eq_ok_iff.1 read
        exact retype_leaf (congrArg NodeKind.function (retype_of_fluentTerm readTerm))
    all_goals exact absurd read notHeaded_ne_ok

theorem retype_of_plainForm {head : String} {args : List SExpr} {t : Term}
    (read : plainForm typeOf sx head args = .ok t) : t.retype typeOf = t := by
  rw [plainForm] at read
  split at read
  · rcases args with _ | ⟨left, _ | ⟨right, _ | _⟩⟩
    case cons.cons.nil =>
      obtain ⟨l, readLeft, rest⟩ := bind_eq_ok_iff.1 read
      obtain ⟨r, readRight, same⟩ := bind_eq_ok_iff.1 rest
      obtain rfl := Except.ok.inj same
      have first := retype_of_numeric readLeft
      have second := retype_of_numeric readRight
      exact retype_eq_self rfl (by simpa using ⟨first, second⟩)
    all_goals exact absurd read faulty_ne_ok
  · rcases args with _ | ⟨target, _ | ⟨amount, _ | _⟩⟩
    case cons.cons.nil =>
      obtain ⟨f, readTarget, rest⟩ := bind_eq_ok_iff.1 read
      obtain ⟨a, readAmount, same⟩ := bind_eq_ok_iff.1 rest
      obtain rfl := Except.ok.inj same
      have first : (leaf (.function f)).retype typeOf = leaf (.function f) :=
        retype_leaf (congrArg NodeKind.function (retype_of_fluentTerm readTarget))
      have second := retype_of_numeric readAmount
      exact retype_eq_self rfl (by simpa using ⟨first, second⟩)
    all_goals exact absurd read faulty_ne_ok
  · obtain ⟨l, readLiteral, rfl⟩ := map_eq_ok_iff.1 read
    exact retype_leaf (congrArg NodeKind.predicate (retype_of_literal readLiteral))

/-- **What has been read has its types**: to give them to it again changes nothing. -/
theorem retype_of_logical {t : Term} (read : logical typeOf sx = .ok t) :
    t.retype typeOf = t := by
  induction sx generalizing t with
  | atom text span => exact absurd read notHeaded_ne_ok
  | list items span ih =>
    rcases items with _ | ⟨⟨head, place⟩ | _, args⟩
    case cons.atom =>
      -- what follows a conjunction or disjunction is read one by one
      have parts : ∀ ts, logicalAll typeOf args = .ok ts → ∀ t ∈ ts, t.retype typeOf = t := by
        intro ts readAll t mem
        rw [logicalAll_eq, mapM_eq_ok_iff] at readAll
        obtain ⟨sx, inside, readOne⟩ := exists_mem_of_forall₂ readAll.flip mem
        exact ih sx (List.mem_cons_of_mem _ inside) readOne
      rw [logical.eq_def] at read
      dsimp only at read
      split at read
      · obtain ⟨ts, readAll, rfl⟩ := map_eq_ok_iff.1 read
        exact retype_eq_self rfl (parts ts readAll)
      split at read
      · obtain ⟨ts, readAll, rfl⟩ := map_eq_ok_iff.1 read
        exact retype_eq_self rfl (parts ts readAll)
      split at read
      · rcases args with _ | ⟨inner, _ | _⟩
        case cons.nil =>
          obtain ⟨u, readInner, rfl⟩ := map_eq_ok_iff.1 read
          have below := ih inner (by simp) readInner
          exact retype_eq_self rfl (by simpa using below)
        all_goals exact absurd read faulty_ne_ok
      split at read
      · rcases args with _ | ⟨inner, _ | _⟩
        case cons.nil =>
          obtain ⟨l, readInner, rfl⟩ := map_eq_ok_iff.1 read
          have below : (leaf (.predicate l)).retype typeOf = leaf (.predicate l) :=
            retype_leaf (congrArg NodeKind.predicate (retype_of_literal readInner))
          exact retype_eq_self rfl (by simpa using below)
        all_goals exact absurd read faulty_ne_ok
      split at read
      · obtain ⟨ls, readAll, rfl⟩ := map_eq_ok_iff.1 read
        refine retype_eq_self rfl (List.forall_mem_map.2 fun l mem => retype_leaf ?_)
        exact congrArg NodeKind.predicate (retype_of_literals readAll l mem)
      split at read
      · cases read
      · exact retype_of_plainForm read
    all_goals exact absurd read notHeaded_ne_ok

end Reader

/-! ## Reading again -/

/-- **The text of what has been read is read as the same again**, node for node, unless there
is a number in it that is none. -/
theorem Formula.parse_text {s : String} {f : Formula} (read : Formula.parse s = .ok f)
    (defined : ∀ n ∈ f.nodes, ∀ x, n.kind = .number x → x.isNaN = false) :
    Formula.parse f.text = .ok f := by
  obtain ⟨sx, t, parsed, readTerm, rfl⟩ := parse_eq_ok_iff.1 read
  obtain ⟨u, same, logical⟩ := exists_logical_of_parse read
  obtain rfl : t = u := by
    have terms := congrArg Formula.term? same
    rw [term?_ofTerm, term?_ofTerm] at terms
    exact Option.some.inj terms
  have numbers : ∀ k ∈ t.kinds, ∀ x, k = .number x → x.isNaN = false := by
    intro k mem
    rw [← map_kind_nodesFrom 0 t] at mem
    obtain ⟨n, inside, rfl⟩ := List.mem_map.1 mem
    exact defined n (by simpa [ofTerm] using inside)
  have heard : Heard .raw (t.text .asStored) (SExpr.marks t.form) :=
    Term.heard_term fun k mem => NodeKind.audible_of_ofWords (logical.ofWords k mem) (numbers k mem)
  have written : (ofTerm t).text = t.text .asStored := by
    have shown : (ofTerm t).unfold 0 = some t := term?_ofTerm t
    rw [text, render, shown]
  have raw : Intake.raw.chars (t.text .asStored) = (t.text .asStored).toList := List.map_id _
  obtain ⟨sy, reparsed, form⟩ := SExpr.parse_of_scan_one (raw ▸ heard.scan_eq)
  rw [written]
  refine parse_eq_ok_iff.2 ⟨sy, t, reparsed, ?_, rfl⟩
  rw [Reader.logical_of_form logical form, Reader.retype_of_logical readTerm]

/-- Connectives as names of facts, a negation of each kind and a minus of each kind. -/
def mixedText : String :=
  "(and (not (p a)) (oneof (or a) (not (not (and)))) (> (- (- (f A) 1.50)) 2e1))"

theorem Formula.parse_text_mixed : ∃ f, Formula.parse mixedText = .ok f ∧ f.size = 12 ∧
    f.text = "(and (not (p a)) (oneof (or a) (and)) (> (- (- (f A) 1.5)) 20))" ∧
      Formula.parse f.text = .ok f := by
  have facts : (Formula.parse mixedText).toOption.any (fun f => f.size == 12 &&
      f.text == "(and (not (p a)) (oneof (or a) (and)) (> (- (- (f A) 1.5)) 20))" &&
        f.nodes.all fun n => !n.toRecord.value.isNaN) = true := by decide +kernel
  cases read : Formula.parse mixedText with
  | error e =>
    rw [read] at facts
    cases facts
  | ok f =>
    rw [read, Except.toOption, Option.any_some, Bool.and_eq_true, Bool.and_eq_true, beq_iff_eq,
      beq_iff_eq] at facts
    obtain ⟨⟨size, text⟩, numbers⟩ := facts
    refine ⟨f, rfl, size, text, parse_text read fun n mem x number => ?_⟩
    have one := Array.all_eq_true'.1 numbers n mem
    simpa [Node.toRecord, number] using one

end WorldModel
