/-
What the reader makes of an expression.

Reading is partial in many ways, but what does come out of it is of a very regular kind:
a literal has a name other than `not` and arguments that are no variables, a one-of
stands over literals only, a comparison over numeric terms, and so on. The two
predicates here say so for whole terms (`Numeric`, `Logical`), and each of the readers is
shown to make nothing else (`numeric_numeric`, `logical_logical`). Every word of such a
term is a word of the text, which is what the parameter of the predicates is for: a
property of words that all words of the text have.

That the leaves of the terms are bare is a consequence, so that the usual grammar only
ever hands over formulas with bare leaves and without cycles (`readerMakes`).
-/
import WorldModel.Problem.Reader
import WorldModel.Proofs.Formula.Unfold
import WorldModel.Proofs.Results
import WorldModel.Proofs.SExpr.Form

set_option autoImplicit false

namespace WorldModel

namespace Reader

/-! ## Faults -/

theorem faulty_ne_ok {α : Type} {fault : FormFault} {sx : SExpr} {a : α} :
    faulty fault sx ≠ .ok a := by
  rw [faulty]
  exact fun h => nomatch h

theorem notHeaded_ne_ok {α : Type} {sx : SExpr} {a : α} : notHeaded sx ≠ .ok a := by
  match sx with
  | .atom _ _ | .list [] _ | .list (_ :: _) _ => exact faulty_ne_ok

/-- A form is taken apart when it is a list with a word at its head. -/
theorem headed_eq_ok_iff {sx : SExpr} {head : String} {args : List SExpr} :
    headed sx = .ok (head, args) ↔ ∃ place span, sx = .list (.atom head place :: args) span := by
  match sx with
  | .list (.atom _ _ :: _) _ => simp [headed]
  | .atom _ _ | .list [] _ | .list (.list _ _ :: _) _ =>
    rw [headed]
    · exact ⟨fun h => absurd h notHeaded_ne_ok, by simp⟩
    · simp

/-! ## Atoms -/

/-- The argument that a name stands for. -/
def argumentOf (typeOf : TypeOf) (name : String) : Argument :=
  match typeOf name with
  | some t => .typed name t
  | none => .untyped name

@[simp] theorem name_argumentOf (typeOf : TypeOf) (name : String) :
    (argumentOf typeOf name).name = name := by
  rw [argumentOf]
  split <;> rfl

/-- A name that is no variable. -/
def Constant (name : String) : Prop :=
  name.toList.head? ≠ some '?'

instance (name : String) : Decidable (Constant name) :=
  inferInstanceAs (Decidable (_ ≠ _))

theorem argument_eq_ok_iff {typeOf : TypeOf} {sx : SExpr} {a : Argument} :
    argument typeOf sx = .ok a ↔
      ∃ name, sx.form = .word name ∧ Constant name ∧ a = argumentOf typeOf name := by
  match sx with
  | .list items span =>
    rw [argument, SExpr.form_list]
    exact ⟨fun h => absurd h faulty_ne_ok, fun ⟨_, form, _⟩ => nomatch form⟩
  | .atom name span =>
    rw [argument, SExpr.form_atom]
    by_cases starts : name.toList.head? = some '?'
    · rw [if_pos starts]
      constructor
      · intro h
        cases h
      · rintro ⟨_, form, constant, _⟩
        cases form
        exact absurd starts constant
    · -- the reader looks for a type in front of the constructor, not behind it
      have made : (match typeOf name with
          | some t => .ok (Argument.typed name t)
          | none => .ok (.untyped name)) = (.ok (argumentOf typeOf name) : Result Argument) := by
        rw [argumentOf]
        cases typeOf name <;> rfl
      rw [if_neg starts]
      constructor
      · intro h
        exact ⟨name, rfl, starts, Except.ok.inj (h.symm.trans made)⟩
      · rintro ⟨_, form, _, rfl⟩
        cases form
        exact made

/-- **Arguments are read** when all items are words and none is a variable. -/
theorem arguments_eq_ok_iff {typeOf : TypeOf} {sxs : List SExpr} {as : List Argument} :
    sxs.mapM (argument typeOf) = .ok as ↔
      ∃ names : List String, sxs.map SExpr.form = names.map .word ∧ (∀ n ∈ names, Constant n) ∧
        as = names.map (argumentOf typeOf) := by
  rw [mapM_eq_ok_iff]
  constructor
  · intro each
    induction each with
    | nil => exact ⟨[], rfl, by simp, rfl⟩
    | cons first _ ih =>
      obtain ⟨name, form, constant, rfl⟩ := argument_eq_ok_iff.1 first
      obtain ⟨names, forms, constants, rfl⟩ := ih
      refine ⟨name :: names, ?_, List.forall_mem_cons.2 ⟨constant, constants⟩, rfl⟩
      rw [List.map_cons, form, forms, List.map_cons]
  · rintro ⟨names, forms, constants, rfl⟩
    induction names generalizing sxs with
    | nil =>
      rw [List.map_eq_nil_iff.1 forms]
      exact .nil
    | cons name names ih =>
      obtain ⟨sx, rest, rfl, form, later⟩ := List.map_eq_cons_iff.1 forms
      obtain ⟨constant, constants⟩ := List.forall_mem_cons.1 constants
      exact .cons (argument_eq_ok_iff.2 ⟨name, form, constant, rfl⟩) (ih later constants)

variable {P : String → Prop}

/-- **The words of an atom**: name and arguments have the property, and no argument is a
variable. -/
structure AtomWords (P : String → Prop) (name : String) (as : List Argument) : Prop where
  name : P name
  args : ∀ a ∈ as, P a.name
  constants : ∀ a ∈ as, Constant a.name

/-- Only the names of the arguments matter. -/
theorem AtomWords.of_names {name : String} {as bs : List Argument} (h : AtomWords P name as)
    (names : bs.map (·.name) = as.map (·.name)) : AtomWords P name bs := by
  have each : ∀ Q : String → Prop, (∀ a ∈ as, Q a.name) → ∀ b ∈ bs, Q b.name := by
    intro Q h
    have all : ∀ n ∈ bs.map (·.name), Q n := by
      rw [names]
      exact List.forall_mem_map.2 h
    exact List.forall_mem_map.1 all
  exact ⟨h.name, each P h.args, each Constant h.constants⟩

/-- The words of an atom that has been read are those of the form. -/
theorem atomWords_of_arguments {typeOf : TypeOf} {head : String} {place span : Span}
    {sxs : List SExpr} {as : List Argument}
    (words : (SExpr.list (.atom head place :: sxs) span).form.Over P)
    (read : sxs.mapM (argument typeOf) = .ok as) : AtomWords P head as := by
  obtain ⟨names, forms, constants, rfl⟩ := arguments_eq_ok_iff.1 read
  rw [SExpr.form_list, List.map_cons, forms] at words
  rcases words with _ | words
  obtain ⟨first, later⟩ := List.forall_mem_cons.1 words
  refine ⟨?_, ?_, ?_⟩
  · rcases first with word | _
    exact word
  · intro a mem
    obtain ⟨name, inside, rfl⟩ := List.mem_map.1 mem
    rcases later _ (List.mem_map_of_mem inside) with word | _
    rw [name_argumentOf]
    exact word
  · intro a mem
    obtain ⟨name, inside, rfl⟩ := List.mem_map.1 mem
    rw [name_argumentOf]
    exact constants name inside

/-- **A literal as it is read**: its name is not the word that negates. -/
structure ReadLiteral (P : String → Prop) (l : Literal) : Prop where
  words : AtomWords P l.name l.args
  name_ne_not : l.name ≠ "not"

theorem ReadLiteral.of_sameFact {l m : Literal} (h : ReadLiteral P m)
    (same : l.sameFact m = true) : ReadLiteral P l := by
  obtain ⟨_, name, names⟩ := Literal.sameFact_iff.1 same
  refine ⟨?_, ?_⟩ <;> rw [name]
  · exact h.words.of_names names
  · exact h.name_ne_not

/-- Literals are read as such. -/
theorem readLiteral_of_literal {typeOf : TypeOf} {sx : SExpr} {l : Literal}
    (words : sx.form.Over P) (read : literal typeOf sx = .ok l) : ReadLiteral P l := by
  induction sx generalizing l with
  | atom text span => exact absurd read notHeaded_ne_ok
  | list items span ih =>
    match items with
    | [] | .list _ _ :: _ => exact absurd read notHeaded_ne_ok
    | .atom head place :: args =>
      rw [literal.eq_def] at read
      dsimp only at read
      by_cases negated : head = "not"
      · rw [if_pos negated] at read
        match args with
        | [] | _ :: _ :: _ => exact absurd read faulty_ne_ok
        | [inner] =>
          -- a negation has the name and the arguments of the literal inside
          obtain ⟨m, readInner, rfl⟩ := map_eq_ok_iff.1 read
          have wordsInner : inner.form.Over P := by
            rw [SExpr.form_list] at words
            rcases words with _ | words
            exact words _ (by simp)
          have inside := ih inner (by simp) wordsInner readInner
          exact ⟨inside.words, inside.name_ne_not⟩
      · rw [if_neg negated] at read
        obtain ⟨as, readArgs, rfl⟩ := map_eq_ok_iff.1 read
        exact ⟨atomWords_of_arguments words readArgs, negated⟩

/-- A fluent term is an atom of value 0. -/
theorem fluentTerm_eq_ok_iff {typeOf : TypeOf} {sx : SExpr} {f : Fluent} :
    fluentTerm typeOf sx = .ok f ↔ ∃ head args as, headed sx = .ok (head, args) ∧
      args.mapM (argument typeOf) = .ok as ∧ f = ⟨head, as, 0⟩ := by
  rw [fluentTerm, bind_eq_ok_iff]
  constructor
  · rintro ⟨⟨head, args⟩, shape, rest⟩
    obtain ⟨as, readArgs, same⟩ := bind_eq_ok_iff.1 rest
    exact ⟨head, args, as, shape, readArgs, (Except.ok.inj same).symm⟩
  · rintro ⟨head, args, as, shape, readArgs, rfl⟩
    exact ⟨(head, args), shape, bind_eq_ok_iff.2 ⟨as, readArgs, rfl⟩⟩

/-- A fluent term has the words of the form. -/
theorem atomWords_of_fluentTerm {typeOf : TypeOf} {sx : SExpr} {f : Fluent}
    (words : sx.form.Over P) (read : fluentTerm typeOf sx = .ok f) :
    AtomWords P f.name f.args ∧ f.value = 0 := by
  obtain ⟨head, args, as, shape, readArgs, rfl⟩ := fluentTerm_eq_ok_iff.1 read
  obtain ⟨place, span, rfl⟩ := headed_eq_ok_iff.1 shape
  exact ⟨atomWords_of_arguments words readArgs, rfl⟩

/-! ## Numeric expressions -/

/-- **A numeric term as it is read**: numbers, fluents under names that are no arithmetic
symbols, and the arithmetic operators over two terms or, the minus, over one. -/
inductive Numeric (P : String → Prop) : Term → Prop
  | number (x : Float) : Numeric P (leaf (.number x))
  | fluent {f : Fluent} : AtomWords P f.name f.args → f.value = 0 →
      (Operator.ofSymbol? f.name).filter (!·.isComparison) = none → Numeric P (leaf (.function f))
  | minus {t : Term} : Numeric P t → Numeric P (.node (.expression .sub) [t])
  | pair {op : Operator} {l r : Term} : op.isComparison = false → Numeric P l → Numeric P r →
      Numeric P (.node (.expression op) [l, r])

theorem over_of_mem {items : List SExpr} {span : Span} (words : (SExpr.list items span).form.Over P)
    {i : SExpr} (mem : i ∈ items) : i.form.Over P := by
  rw [SExpr.form_list] at words
  rcases words with _ | words
  exact words _ (List.mem_map_of_mem mem)

/-- Numeric expressions are read as such. -/
theorem numeric_numeric {typeOf : TypeOf} {sx : SExpr} {t : Term} (words : sx.form.Over P)
    (read : numeric typeOf sx = .ok t) : Numeric P t := by
  induction sx generalizing t with
  | atom text span =>
    obtain ⟨x, _, rfl⟩ := map_eq_ok_iff.1 read
    exact .number x
  | list items span ih =>
    match items with
    | [] | .list _ _ :: _ => exact absurd read notHeaded_ne_ok
    | .atom head place :: args =>
      rw [numeric.eq_def] at read
      dsimp only at read
      -- any head that does no arithmetic is taken for the name of a fluent
      cases arithmetic : (Operator.ofSymbol? head).filter (!·.isComparison) with
      | none =>
        rw [arithmetic] at read
        obtain ⟨f, readTerm, rfl⟩ := map_eq_ok_iff.1 read
        obtain ⟨_, _, _, shape, _, rfl⟩ := fluentTerm_eq_ok_iff.1 readTerm
        obtain ⟨_, _, same⟩ := headed_eq_ok_iff.1 shape
        cases same
        exact .fluent (atomWords_of_fluentTerm words readTerm).1 rfl arithmetic
      | some op =>
        rw [arithmetic] at read
        have noComparison : op.isComparison = false := by
          simpa using (Option.filter_eq_some_iff.1 arithmetic).2
        match args with
        | [] | _ :: _ :: _ :: _ => exact absurd read faulty_ne_ok
        | [only] =>
          -- a single argument is for the minus sign alone
          dsimp only at read
          split at read
          · next minus =>
            obtain ⟨u, readOnly, rfl⟩ := map_eq_ok_iff.1 read
            rw [minus]
            exact .minus (ih only (by simp) (over_of_mem words (by simp)) readOnly)
          · exact absurd read faulty_ne_ok
        | [left, right] =>
          obtain ⟨l, readLeft, rest⟩ := bind_eq_ok_iff.1 read
          obtain ⟨r, readRight, same⟩ := bind_eq_ok_iff.1 rest
          obtain rfl := Except.ok.inj same
          exact .pair noComparison (ih left (by simp) (over_of_mem words (by simp)) readLeft)
            (ih right (by simp) (over_of_mem words (by simp)) readRight)

/-! ## Logical expressions -/

/-- A head under which a literal is read, not a connective, a comparison or an update. -/
structure PlainHead (head : String) : Prop where
  connective : head ∉ ["and", "or", "not", "unknown", "oneof"]
  refused : refusedHeads.contains head = false
  comparison : (Operator.ofSymbol? head).filter (·.isComparison) = none
  update : UpdateOp.ofKeyword? head = none

/-- **A logical term as it is read.** -/
inductive Logical (P : String → Prop) : Term → Prop
  | and {ts : List Term} : (∀ t ∈ ts, Logical P t) → Logical P (.node .and ts)
  | or {ts : List Term} : (∀ t ∈ ts, Logical P t) → Logical P (.node .or ts)
  | not {t : Term} : Logical P t → Logical P (.node .not [t])
  | unknown {l : Literal} : ReadLiteral P l → Logical P (.flat .unknown [l])
  | oneOf {ls : List Literal} : (∀ l ∈ ls, ReadLiteral P l) → Logical P (.flat .oneOf ls)
  | comparison {op : Operator} {l r : Term} : op.isComparison = true → Numeric P l →
      Numeric P r → Logical P (.node (.expression op) [l, r])
  | update {op : UpdateOp} {f : Fluent} {amount : Term} : AtomWords P f.name f.args →
      f.value = 0 → Numeric P amount → Logical P (.node (.update op) [leaf (.function f), amount])
  | literal {l : Literal} : ReadLiteral P l → l.negated = false → PlainHead l.name →
      Logical P (leaf (.predicate l))

/-- Several literals are read as such. -/
theorem readLiterals {typeOf : TypeOf} {sxs : List SExpr} {ls : List Literal}
    (words : ∀ sx ∈ sxs, sx.form.Over P) (read : sxs.mapM (literal typeOf) = .ok ls) :
    ∀ l ∈ ls, ReadLiteral P l := by
  rw [mapM_eq_ok_iff] at read
  induction read with
  | nil => simp
  | cons first _ ih =>
    obtain ⟨wordsFirst, wordsLater⟩ := List.forall_mem_cons.1 words
    exact List.forall_mem_cons.2 ⟨readLiteral_of_literal wordsFirst first, ih wordsLater⟩

theorem logicalAll_eq (typeOf : TypeOf) (sxs : List SExpr) :
    logicalAll typeOf sxs = sxs.mapM (logical typeOf) := by
  induction sxs with
  | nil =>
    rw [logicalAll, List.mapM_nil]
    rfl
  | cons sx sxs ih => rw [logicalAll, ih, List.mapM_cons]

/-- A plain form is read as a comparison, an update or a literal. -/
theorem logical_plainForm {typeOf : TypeOf} {head : String} {place : Span} {args : List SExpr}
    {span : Span} {t : Term} (words : (SExpr.list (.atom head place :: args) span).form.Over P)
    (connective : head ∉ ["and", "or", "not", "unknown", "oneof"])
    (refused : refusedHeads.contains head = false)
    (read : plainForm typeOf (.list (.atom head place :: args) span) head args = .ok t) :
    Logical P t := by
  rw [plainForm] at read
  cases comparison : (Operator.ofSymbol? head).filter (·.isComparison) with
  | some op =>
    rw [comparison] at read
    have compares : op.isComparison = true := (Option.filter_eq_some_iff.1 comparison).2
    match args with
    | [] | [_] | _ :: _ :: _ :: _ => exact absurd read faulty_ne_ok
    | [left, right] =>
      obtain ⟨l, readLeft, rest⟩ := bind_eq_ok_iff.1 read
      obtain ⟨r, readRight, same⟩ := bind_eq_ok_iff.1 rest
      obtain rfl := Except.ok.inj same
      exact .comparison compares (numeric_numeric (over_of_mem words (by simp)) readLeft)
        (numeric_numeric (over_of_mem words (by simp)) readRight)
  | none =>
    cases update : UpdateOp.ofKeyword? head with
    | some op =>
      rw [comparison, update] at read
      match args with
      | [] | [_] | _ :: _ :: _ :: _ => exact absurd read faulty_ne_ok
      | [target, amount] =>
        obtain ⟨f, readTarget, rest⟩ := bind_eq_ok_iff.1 read
        obtain ⟨a, readAmount, same⟩ := bind_eq_ok_iff.1 rest
        obtain rfl := Except.ok.inj same
        obtain ⟨wordsTarget, zero⟩ :=
          atomWords_of_fluentTerm (over_of_mem words (by simp)) readTarget
        exact .update wordsTarget zero (numeric_numeric (over_of_mem words (by simp)) readAmount)
    | none =>
      rw [comparison, update] at read
      obtain ⟨l, readLiteral, rfl⟩ := map_eq_ok_iff.1 read
      -- the head is not the word that negates, so the literal is the atom itself
      have positive : head ≠ "not" := by
        rintro rfl
        exact connective (by simp)
      have whole := readLiteral_of_literal words readLiteral
      rw [literal.eq_def] at readLiteral
      dsimp only at readLiteral
      rw [if_neg positive] at readLiteral
      obtain ⟨as, _, rfl⟩ := map_eq_ok_iff.1 readLiteral
      exact .literal whole rfl ⟨connective, refused, comparison, update⟩

/-- **Logical expressions are read as such.** -/
theorem logical_logical {typeOf : TypeOf} {sx : SExpr} {t : Term} (words : sx.form.Over P)
    (read : logical typeOf sx = .ok t) : Logical P t := by
  induction sx generalizing t with
  | atom text span => exact absurd read notHeaded_ne_ok
  | list items span ih =>
    match items with
    | [] | .list _ _ :: _ => exact absurd read notHeaded_ne_ok
    | .atom head place :: args =>
      have wordsArgs : ∀ sx ∈ args, sx.form.Over P :=
        fun sx mem => over_of_mem words (List.mem_cons_of_mem _ mem)
      -- what follows a conjunction or disjunction is read one by one
      have parts : ∀ ts, logicalAll typeOf args = .ok ts → ∀ t ∈ ts, Logical P t := by
        intro ts readAll u mem
        rw [logicalAll_eq, mapM_eq_ok_iff] at readAll
        obtain ⟨sx, inside, readOne⟩ := exists_mem_of_forall₂ readAll.flip mem
        exact ih sx (List.mem_cons_of_mem _ inside) (wordsArgs sx inside) readOne
      rw [logical.eq_def] at read
      dsimp only at read
      split at read
      · obtain ⟨ts, readAll, rfl⟩ := map_eq_ok_iff.1 read
        exact .and (parts ts readAll)
      next notAnd =>
      split at read
      · obtain ⟨ts, readAll, rfl⟩ := map_eq_ok_iff.1 read
        exact .or (parts ts readAll)
      next notOr =>
      split at read
      · match args with
        | [] | _ :: _ :: _ => exact absurd read faulty_ne_ok
        | [inner] =>
          obtain ⟨u, readInner, rfl⟩ := map_eq_ok_iff.1 read
          exact .not (ih inner (by simp) (wordsArgs inner (by simp)) readInner)
      next notNot =>
      split at read
      · match args with
        | [] | _ :: _ :: _ => exact absurd read faulty_ne_ok
        | [inner] =>
          obtain ⟨l, readInner, rfl⟩ := map_eq_ok_iff.1 read
          exact .unknown (readLiteral_of_literal (wordsArgs inner (by simp)) readInner)
      next notUnknown =>
      split at read
      · obtain ⟨ls, readAll, rfl⟩ := map_eq_ok_iff.1 read
        exact .oneOf (readLiterals wordsArgs readAll)
      next notOneOf =>
      split at read
      · cases read
      next refused =>
      have connective : head ∉ ["and", "or", "not", "unknown", "oneof"] := by
        simp [notAnd, notOr, notNot, notUnknown, notOneOf]
      exact logical_plainForm words connective (by simpa using refused) read

/-! ## Formulas handed over -/

/-- Numeric terms are bare. -/
theorem Numeric.bare {t : Term} (h : Numeric P t) : t.Bare := by
  induction h with
  | number _ | fluent _ _ _ => exact .node (fun _ => rfl) (by simp)
  | minus _ ih => exact .of_keyword (by simp [NodeKind.keyword?]) (by simpa using ih)
  | pair _ _ _ left right =>
    exact .of_keyword (by simp [NodeKind.keyword?]) (by simpa using ⟨left, right⟩)

/-- **Logical terms are bare.** -/
theorem Logical.bare {t : Term} (h : Logical P t) : t.Bare := by
  induction h with
  | and _ ih | or _ ih => exact .of_keyword (by simp [NodeKind.keyword?]) ih
  | not _ ih => exact .of_keyword (by simp [NodeKind.keyword?]) (by simpa using ih)
  | unknown _ => exact Term.bare_flat (by simp [NodeKind.keyword?]) _
  | oneOf _ => exact Term.bare_flat (by simp [NodeKind.keyword?]) _
  | comparison _ left right =>
    exact .of_keyword (by simp [NodeKind.keyword?]) (by simpa using ⟨left.bare, right.bare⟩)
  | update _ _ amount =>
    have target : ∀ f, (leaf (.function f)).Bare := fun f => .node (fun _ => rfl) (by simp)
    exact .of_keyword (by simp [NodeKind.keyword?]) (by simpa using ⟨target _, amount.bare⟩)
  | literal _ _ _ => exact .node (fun _ => rfl) (by simp)

end Reader

end WorldModel
