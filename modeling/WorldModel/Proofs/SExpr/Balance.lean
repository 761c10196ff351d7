/-
Which texts are read, and what is said of the others.

A text is read when its parentheses balance. One that is not is refused for the first closing
parenthesis that meets no open one, and if there is none, for the last opening one that is never
closed. **Main statement.** `parse_exact`: all of this, together with what the expressions of a
text that is read are made of.

Which parentheses are open is said by counting what comes behind them (`OpenAt`). The reader
keeps a stack of them, and what the stack stands for is a way to cut the text: a balanced piece,
and behind it an opening parenthesis and a balanced piece for every entry (`Opened`). One
character more does to such a text what it does to the stack, and the counts can be read off it.
-/
import Mathlib.Data.List.Induction
import Mathlib.Order.Bounds.Basic
import WorldModel.Proofs.SExpr.Lexemes

set_option autoImplicit false

namespace WorldModel.SExpr

/-! ## Parentheses that are open -/

/-- **Nothing is closed** that was not opened: no beginning of the characters has more closing
than opening parentheses. -/
def StaysOpen (cs : List Char) : Prop :=
  ∀ ds, ds <+: cs → ds.count ')' ≤ ds.count '('

/-- **The parentheses balance.** -/
structure Balanced (cs : List Char) : Prop where
  staysOpen : StaysOpen cs
  total : cs.count '(' = cs.count ')'

/-- **An opening parenthesis at this byte is never closed**: what comes behind it closes only
what it opens. -/
def OpenAt (cs : List Char) (offset : Nat) : Prop :=
  ∃ before behind, cs = before ++ '(' :: behind ∧ StaysOpen behind ∧ offset = byteLength before

/-- **A closing parenthesis at this byte meets no open one.** -/
def UnopenedAt (cs : List Char) (offset : Nat) : Prop :=
  ∃ before behind, cs = before ++ ')' :: behind ∧ (∀ i, ¬ OpenAt before i) ∧
    offset = byteLength before

/-- **The open parentheses of some characters**, innermost first: a balanced piece, and behind
it an open parenthesis and a balanced piece, one after the other. -/
inductive Opened : List Char → List Nat → Prop
  | base {cs : List Char} : Balanced cs → Opened cs []
  | push {cs ds : List Char} {starts : List Nat} : Opened cs starts → Balanced ds →
      Opened (cs ++ '(' :: ds) (byteLength cs :: starts)

theorem StaysOpen.of_prefix {cs ds : List Char} (h : StaysOpen cs) (first : ds <+: cs) :
    StaysOpen ds :=
  fun es early => h es (early.trans first)

theorem StaysOpen.append {cs ds : List Char} (first : StaysOpen cs) (second : StaysOpen ds) :
    StaysOpen (cs ++ ds) := by
  rintro es ⟨rest, whole⟩
  rcases List.append_eq_append_iff.1 whole with ⟨as, rfl, _⟩ | ⟨bs, rfl, rfl⟩
  · exact first es (List.prefix_append es as)
  · have before := first cs (List.prefix_refl cs)
    have behind := second bs (List.prefix_append bs rest)
    rw [List.count_append, List.count_append]
    omega

theorem staysOpen_concat_iff {cs : List Char} {c : Char} : StaysOpen (cs ++ [c]) ↔
    StaysOpen cs ∧ (cs ++ [c]).count ')' ≤ (cs ++ [c]).count '(' := by
  constructor
  · intro h
    exact ⟨h.of_prefix (List.prefix_append cs [c]), h _ (List.prefix_refl _)⟩
  · rintro ⟨before, whole⟩ ds early
    rcases List.prefix_concat_iff.1 early with rfl | early
    · exact whole
    · exact before ds early

theorem staysOpen_cons_opening {cs : List Char} (h : StaysOpen cs) : StaysOpen ('(' :: cs) := by
  have first : StaysOpen ['('] := by
    intro ds early
    rcases List.prefix_cons_iff.1 early with rfl | ⟨es, rfl, rest⟩
    · exact Nat.le_refl 0
    · rw [List.prefix_nil.1 rest]
      decide
  exact first.append h

/-! ## Pieces that balance -/

theorem balanced_nil : Balanced [] := by
  refine ⟨fun ds early => ?_, rfl⟩
  rw [List.prefix_nil.1 early]
  exact Nat.le_refl 0

theorem Balanced.append {cs ds : List Char} (first : Balanced cs) (second : Balanced ds) :
    Balanced (cs ++ ds) := by
  refine ⟨first.staysOpen.append second.staysOpen, ?_⟩
  rw [List.count_append, List.count_append, first.total, second.total]

/-- What is no parenthesis balances. -/
theorem balanced_singleton {c : Char} (notOpening : c ≠ '(') (notClosing : c ≠ ')') :
    Balanced [c] := by
  have opening : List.count '(' [c] = 0 := List.count_eq_zero.2 (by simpa using notOpening.symm)
  have closing : List.count ')' [c] = 0 := List.count_eq_zero.2 (by simpa using notClosing.symm)
  refine ⟨fun ds early => ?_, opening.trans closing.symm⟩
  have few := early.sublist.count_le ')'
  omega

/-- A list balances when what it holds does. -/
theorem Balanced.parenthesized {cs : List Char} (h : Balanced cs) :
    Balanced ('(' :: cs ++ [')']) := by
  have total : ('(' :: cs ++ [')']).count '(' = ('(' :: cs ++ [')']).count ')' := by
    simp [List.count_append, h.total]
  exact ⟨staysOpen_concat_iff.2 ⟨staysOpen_cons_opening h.staysOpen, total.ge⟩, total⟩

/-- One closing parenthesis more is one too many for what balances. -/
theorem Balanced.not_staysOpen_closing {cs : List Char} (h : Balanced cs) :
    ¬ StaysOpen (cs ++ [')']) := by
  intro further
  have whole := further _ (List.prefix_refl _)
  have closing : List.count '(' [')'] = 0 := by decide
  rw [List.count_append, List.count_append, List.count_singleton_self, closing, h.total] at whole
  omega

/-- Nothing is open in what balances. -/
theorem Balanced.not_openAt {cs : List Char} (h : Balanced cs) (offset : Nat) :
    ¬ OpenAt cs offset := by
  rintro ⟨before, behind, rfl, open_, _⟩
  -- the parenthesis is one too many for what stands before and behind it
  have early := h.staysOpen before (List.prefix_append _ _)
  have late := open_ behind (List.prefix_refl _)
  have total := h.total
  rw [List.count_append, List.count_append, List.count_cons_self,
    List.count_cons_of_ne (by decide)] at total
  omega

/-! ## One character more -/

namespace Opened

variable {cs ds : List Char} {starts : List Nat}

theorem balanced (h : Opened cs []) : Balanced cs := by
  cases h with
  | base balanced => exact balanced

theorem append (h : Opened cs starts) (balanced : Balanced ds) : Opened (cs ++ ds) starts := by
  cases h with
  | base first => exact .base (first.append balanced)
  | push before inner =>
    rw [List.append_assoc, List.cons_append]
    exact .push before (inner.append balanced)

theorem opening (h : Opened cs starts) : Opened (cs ++ ['(']) (byteLength cs :: starts) :=
  .push h balanced_nil

theorem closing {start : Nat} (h : Opened cs (start :: starts)) : Opened (cs ++ [')']) starts := by
  cases h with
  | push before inner =>
    rw [List.append_assoc]
    exact before.append inner.parenthesized

theorem staysOpen (h : Opened cs starts) : StaysOpen cs := by
  induction h with
  | base balanced => exact balanced.staysOpen
  | push _ inner ih => exact ih.append (staysOpen_cons_opening inner.staysOpen)

end Opened

/-- **What closes nothing that was not opened** has its open parentheses. -/
theorem exists_opened {cs : List Char} (h : StaysOpen cs) : ∃ starts, Opened cs starts := by
  induction cs using List.reverseRecOn with
  | nil => exact ⟨[], .base balanced_nil⟩
  | append_singleton cs c ih =>
    obtain ⟨starts, opened⟩ := ih (staysOpen_concat_iff.1 h).1
    -- the last character does to the cut what it does to the stack
    by_cases opening : c = '('
    · subst opening
      exact ⟨_, opened.opening⟩
    by_cases closing : c = ')'
    · subst closing
      cases starts with
      | nil => exact absurd h opened.balanced.not_staysOpen_closing
      | cons start starts => exact ⟨starts, opened.closing⟩
    · exact ⟨starts, opened.append (balanced_singleton opening closing)⟩

/-! ## Which parentheses are open -/

namespace Opened

variable {cs : List Char} {starts : List Nat}

/-- **The open parentheses** are those that are never closed. -/
theorem openAt_iff (h : Opened cs starts) {offset : Nat} : OpenAt cs offset ↔ offset ∈ starts := by
  induction h with
  | base balanced => simp [balanced.not_openAt offset]
  | @push cs ds starts _ inner ih =>
    rw [List.mem_cons, ← ih]
    constructor
    · rintro ⟨before, behind, whole, open_, rfl⟩
      rcases List.append_eq_append_iff.1 whole with ⟨as, rfl, rest⟩ | ⟨bs, rfl, rest⟩
      · -- no parenthesis is open in the last piece
        rcases List.cons_eq_append_iff.1 rest with ⟨rfl, _⟩ | ⟨es, rfl, piece⟩
        · exact .inl (by rw [List.append_nil])
        · exact absurd ⟨es, behind, piece, open_, rfl⟩ (inner.not_openAt _)
      · rcases List.cons_eq_append_iff.1 rest with ⟨rfl, _⟩ | ⟨es, rfl, rfl⟩
        · exact .inl (by rw [List.append_nil])
        · exact .inr ⟨before, es, rfl, open_.of_prefix (List.prefix_append _ _), rfl⟩
    · rintro (rfl | ⟨before, behind, rfl, open_, rfl⟩)
      · exact ⟨cs, ds, rfl, inner.staysOpen, rfl⟩
      · refine ⟨before, behind ++ '(' :: ds, by simp, ?_, rfl⟩
        exact open_.append (staysOpen_cons_opening inner.staysOpen)

/-- The innermost one begins last. -/
theorem le_of_openAt {start offset : Nat} (h : Opened cs (start :: starts))
    (open_ : OpenAt cs offset) : offset ≤ start := by
  have mem := h.openAt_iff.1 open_
  cases h with
  | @push cs ds _ before inner =>
    rcases List.mem_cons.1 mem with rfl | mem
    · exact Nat.le_refl _
    · -- an outer one begins in the pieces before
      obtain ⟨first, behind, rfl, _, rfl⟩ := before.openAt_iff.2 mem
      rw [byteLength_append]
      exact Nat.le_add_right _ _

end Opened

/-- **No closing parenthesis is without an open one** in what closes nothing that was not
opened. -/
theorem StaysOpen.not_unopenedAt {cs : List Char} (h : StaysOpen cs) (offset : Nat) :
    ¬ UnopenedAt cs offset := by
  rintro ⟨before, behind, rfl, none_, _⟩
  have further : StaysOpen (before ++ [')']) := h.of_prefix (by simp)
  obtain ⟨starts, opened⟩ := exists_opened (staysOpen_concat_iff.1 further).1
  cases starts with
  | nil => exact opened.balanced.not_staysOpen_closing further
  | cons start starts => exact none_ start (opened.openAt_iff.2 List.mem_cons_self)

/-- **The first closing parenthesis without an open one** stands behind what balances. -/
theorem isLeast_unopenedAt {before behind : List Char} (h : Balanced before) :
    IsLeast {offset | UnopenedAt (before ++ ')' :: behind) offset} (byteLength before) := by
  refine ⟨⟨before, behind, rfl, h.not_openAt, rfl⟩, ?_⟩
  rintro _ ⟨first, rest, whole, none_, rfl⟩
  rcases List.append_eq_append_iff.1 whole with ⟨as, rfl, _⟩ | ⟨bs, rfl, piece⟩
  · rw [byteLength_append]
    exact Nat.le_add_right _ _
  · rcases List.cons_eq_append_iff.1 piece with ⟨rfl, _⟩ | ⟨es, rfl, _⟩
    · rw [List.append_nil]
    · -- an earlier one would be part of what balances
      exact absurd ⟨first, es, rfl, none_, rfl⟩ (h.staysOpen.not_unopenedAt _)

/-- **The last opening parenthesis that is never closed** is the innermost open one. -/
theorem isGreatest_openAt {cs : List Char} {start : Nat} {starts : List Nat}
    (h : Opened cs (start :: starts)) : IsGreatest {offset | OpenAt cs offset} start :=
  ⟨h.openAt_iff.2 List.mem_cons_self, fun _ => h.le_of_openAt⟩

/-! ## What the reader holds -/

/-- **The lists of an expression** stand between parentheses of the text that match: what is
between them balances. -/
inductive Matches (cs : List Char) : SExpr → Prop
  | atom {text : String} {span : Span} : Matches cs (.atom text span)
  | list {items : List SExpr} {before inner behind : List Char} :
      cs = before ++ '(' :: inner ++ ')' :: behind → Balanced inner → (∀ i ∈ items, Matches cs i) →
        Matches cs (.list items ⟨byteLength before, byteLength (before ++ '(' :: inner) + 1⟩)

theorem Matches.append {cs : List Char} {sx : SExpr} (h : Matches cs sx) (ds : List Char) :
    Matches (cs ++ ds) sx := by
  induction h with
  | atom => exact .atom
  | @list items before inner behind text balanced _ ih =>
    exact @Matches.list _ items before inner (behind ++ ds) (by simp [text]) balanced ih

/-- **What the reader holds** when it has read some characters: on its stack the parentheses that
are open in them, and expressions whose lists match. -/
structure Holds (before : List Char) (opened : List (Nat × List SExpr)) (items : List SExpr) :
    Prop where
  parens : Opened before (opened.map Prod.fst)
  outer : ∀ p ∈ opened, ∀ sx ∈ p.2, Matches before sx
  items : ∀ sx ∈ items, Matches before sx

namespace Holds

variable {before : List Char} {opened : List (Nat × List SExpr)} {items : List SExpr}

theorem opening (h : Holds before opened items) :
    Holds (before ++ ['(']) ((byteLength before, items) :: opened) [] where
  parens := h.parens.opening
  outer := List.forall_mem_cons.2 ⟨fun sx mem => (h.items sx mem).append _,
    fun p mem sx inside => (h.outer p mem sx inside).append _⟩
  items := List.forall_mem_nil _

theorem closing {start : Nat} {outer : List SExpr} (h : Holds before ((start, outer) :: opened) items) :
    Holds (before ++ [')']) opened (list items.reverse ⟨start, byteLength before + 1⟩ :: outer) := by
  obtain ⟨parens, around, held⟩ := h
  obtain ⟨first, later⟩ := List.forall_mem_cons.1 around
  refine ⟨parens.closing, fun p mem sx inside => (later p mem sx inside).append _,
    List.forall_mem_cons.2 ⟨?_, fun sx mem => (first sx mem).append _⟩⟩
  -- the piece behind the innermost open parenthesis is what the list stands around
  cases parens with
  | @push cs ds _ _ inner =>
    have inside : ∀ sx ∈ items.reverse, Matches (cs ++ '(' :: ds ++ [')']) sx :=
      fun sx mem => (held sx (List.mem_reverse.1 mem)).append _
    exact @Matches.list _ items.reverse cs ds [] (by simp) inner inside

/-- A character that is no parenthesis leaves everything as it is. -/
theorem other (h : Holds before opened items) {c : Char} (notOpening : c ≠ '(')
    (notClosing : c ≠ ')') : Holds (before ++ [c]) opened items where
  parens := h.parens.append (balanced_singleton notOpening notClosing)
  outer p mem sx inside := (h.outer p mem sx inside).append _
  items sx mem := (h.items sx mem).append _

/-- A word that ends is an item more. -/
theorem exists_items (h : Holds before opened items) (stop : Nat) (reversed : List Char) :
    ∃ items', Holds before opened items' ∧ ∀ ts,
      assemble opened items (wordEnding stop reversed ++ ts) = assemble opened items' ts := by
  rw [wordEnding]
  split
  · exact ⟨items, h, fun _ => rfl⟩
  · exact ⟨_, ⟨h.parens, h.outer, List.forall_mem_cons.2 ⟨.atom, h.items⟩⟩, fun _ => rfl⟩

end Holds

/-! ## What the reader finds -/

/-- **What the reader says** of some characters. -/
inductive Finds (cs : List Char) : Except ParenError (List SExpr) → Prop
  | balanced {sxs : List SExpr} : Balanced cs → (∀ sx ∈ sxs, Matches cs sx) → Finds cs (.ok sxs)
  | unexpected {before behind : List Char} : cs = before ++ ')' :: behind → Balanced before →
      Finds cs (.error (.unexpected (byteLength before)))
  | unclosed {start : Nat} {starts : List Nat} : Opened cs (start :: starts) →
      Finds cs (.error (.unclosed start))

/-- **What the reader holds** decides what it finds in the end. -/
theorem Holds.finds {before : List Char} {opened : List (Nat × List SExpr)} {items : List SExpr}
    (h : Holds before opened items) (reversed cs : List Char) :
    Finds (before ++ cs) (assemble opened items (tokensFrom (byteLength before) reversed cs)) := by
  induction cs generalizing before opened items reversed with
  | nil =>
    obtain ⟨items', held, word⟩ := h.exists_items (byteLength before) reversed
    have last := word []
    rw [List.append_nil] at last
    rw [tokensFrom, last, List.append_nil]
    cases opened with
    | nil => exact .balanced held.parens.balanced fun sx mem => held.items sx (List.mem_reverse.1 mem)
    | cons p opened => exact .unclosed held.parens
  | cons c cs ih =>
    obtain ⟨items', held, word⟩ := h.exists_items (byteLength before) reversed
    have through : before ++ c :: cs = before ++ [c] ++ cs := by simp
    have further : byteLength before + c.utf8Size = byteLength (before ++ [c]) := by
      simp [byteLength]
    rw [tokensFrom]
    split
    · next opening =>
      subst opening
      have inner := ih held.opening []
      rw [← further, ← through] at inner
      rw [word]
      exact inner
    split
    · next closing =>
      subst closing
      rw [word]
      cases opened with
      | nil => exact .unexpected rfl held.parens.balanced
      | cons p rest =>
        have inner := ih held.closing []
        rw [← further, ← through] at inner
        exact inner
    next notOpening notClosing =>
    rw [further, through]
    split
    · rw [word]
      exact ih (held.other notOpening notClosing) []
    · exact ih (h.other notOpening notClosing) (c :: reversed)

namespace Finds

variable {cs : List Char} {found : Except ParenError (List SExpr)} (h : Finds cs found)
include h

theorem ok_iff : (∃ sxs, found = .ok sxs) ↔ Balanced cs := by
  cases h with
  | balanced balanced _ => exact ⟨fun _ => balanced, fun _ => ⟨_, rfl⟩⟩
  | unexpected text before =>
    refine ⟨fun ⟨_, read⟩ => (nomatch read), fun balanced => ?_⟩
    subst text
    exact absurd (balanced.staysOpen.of_prefix (by simp)) before.not_staysOpen_closing
  | unclosed opened =>
    refine ⟨fun ⟨_, read⟩ => (nomatch read), fun balanced => ?_⟩
    exact absurd (opened.openAt_iff.2 List.mem_cons_self) (balanced.not_openAt _)

theorem unexpected_iff (offset : Nat) :
    found = .error (.unexpected offset) ↔ IsLeast {i | UnopenedAt cs i} offset := by
  cases h with
  | balanced balanced _ =>
    exact ⟨fun read => (nomatch read), fun least => absurd least.1 (balanced.staysOpen.not_unopenedAt _)⟩
  | @unexpected before behind text balanced =>
    subst text
    have least := @isLeast_unopenedAt before behind balanced
    constructor
    · intro read
      cases read
      exact least
    · intro other
      rw [least.unique other]
  | unclosed opened =>
    exact ⟨fun read => (nomatch read), fun least => absurd least.1 (opened.staysOpen.not_unopenedAt _)⟩

theorem unclosed_iff (offset : Nat) : found = .error (.unclosed offset) ↔
    (∀ i, ¬ UnopenedAt cs i) ∧ IsGreatest {i | OpenAt cs i} offset := by
  cases h with
  | balanced balanced _ =>
    exact ⟨fun read => (nomatch read), fun greatest => absurd greatest.2.1 (balanced.not_openAt _)⟩
  | unexpected text before =>
    subst text
    exact ⟨fun read => (nomatch read), fun other => absurd (isLeast_unopenedAt before).1 (other.1 _)⟩
  | unclosed opened =>
    have greatest := isGreatest_openAt opened
    constructor
    · intro read
      cases read
      exact ⟨opened.staysOpen.not_unopenedAt, greatest⟩
    · intro other
      rw [greatest.unique other.2]

theorem matches_of_ok {sxs : List SExpr} (read : found = .ok sxs) : ∀ sx ∈ sxs, Matches cs sx := by
  cases h with
  | balanced _ each =>
    cases read
    exact each
  | unexpected _ _ => cases read
  | unclosed _ => cases read

end Finds

/-- **The reading of texts.** A text is read when its parentheses balance. What it is read as goes
through its lexemes in order, and lists stand between parentheses that match. Any other text is
refused for its first closing parenthesis without an open one, or, if there is none, for the last
opening one that is never closed. -/
theorem parse_exact (s : String) :
    ((∃ sxs, parse s = .ok sxs) ↔ Balanced s.toList) ∧
      (∀ sxs, parse s = .ok sxs →
        Tokenizes s.toList (lexemesAll sxs) ∧ ∀ sx ∈ sxs, Matches s.toList sx) ∧
      (∀ offset, parse s = .error (.unexpected offset) ↔
        IsLeast {i | UnopenedAt s.toList i} offset) ∧
      ∀ offset, parse s = .error (.unclosed offset) ↔
        (∀ i, ¬ UnopenedAt s.toList i) ∧ IsGreatest {i | OpenAt s.toList i} offset := by
  have start : Holds [] [] [] :=
    ⟨.base balanced_nil, List.forall_mem_nil _, List.forall_mem_nil _⟩
  have found : Finds s.toList (parse s) := start.finds [] s.toList
  exact ⟨found.ok_iff, fun _ read => ⟨tokenizes_of_parse read, found.matches_of_ok read⟩,
    found.unexpected_iff, found.unclosed_iff⟩

example : parse "(a (b c) (d" = .error (.unclosed 9) := rfl

end WorldModel.SExpr
