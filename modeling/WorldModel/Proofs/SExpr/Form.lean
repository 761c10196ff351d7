/-
S-expressions without their places.

An expression remembers where in the text it was read, and nothing but messages depends
on that. Its form is what is left without the places, and two texts say the same thing
when they have the same forms. What a reader asks of an expression, whether it is a word
and what follows its head, it asks of the form.
-/
import WorldModel.SExpr.Basic

set_option autoImplicit false

namespace WorldModel

/-- A word or a list of forms. -/
inductive Form where
  | word (text : String)
  | list (items : List Form)

namespace Form

/-- **Induction over forms**, with the hypothesis for all items of a list. -/
@[elab_as_elim, induction_eliminator]
theorem induction {motive : Form → Prop} (word : ∀ text, motive (.word text))
    (list : ∀ items, (∀ i ∈ items, motive i) → motive (.list items)) (f : Form) : motive f :=
  Form.rec (motive_1 := motive) (motive_2 := fun items => ∀ i ∈ items, motive i) word list
    (fun _ mem => absurd mem List.not_mem_nil)
    (fun _ _ first later => List.forall_mem_cons.2 ⟨first, later⟩) f

/-- All words in the form have the property. -/
inductive Over (P : String → Prop) : Form → Prop
  | word {text : String} : P text → Over P (.word text)
  | list {items : List Form} : (∀ i ∈ items, Over P i) → Over P (.list items)

theorem Over.imp {P Q : String → Prop} {f : Form} (h : f.Over P) (wider : ∀ t, P t → Q t) :
    f.Over Q := by
  induction h with
  | word inside => exact .word (wider _ inside)
  | list _ ih => exact .list ih

end Form

namespace SExpr

/-- Induction over expressions, with the hypothesis for all items of a list. -/
@[elab_as_elim, induction_eliminator]
theorem induction {motive : SExpr → Prop} (atom : ∀ text span, motive (.atom text span))
    (list : ∀ items span, (∀ i ∈ items, motive i) → motive (.list items span)) (sx : SExpr) :
    motive sx :=
  SExpr.rec (motive_1 := motive) (motive_2 := fun items => ∀ i ∈ items, motive i) atom list
    (fun _ mem => absurd mem List.not_mem_nil)
    (fun _ _ first later => List.forall_mem_cons.2 ⟨first, later⟩) sx

mutual

/-- **The form of an expression.** -/
def form : SExpr → Form
  | atom text _ => .word text
  | list items _ => .list (formAll items)

/-- The forms of several expressions. -/
def formAll : List SExpr → List Form
  | [] => []
  | x :: xs => form x :: formAll xs

end

theorem formAll_eq (xs : List SExpr) : formAll xs = xs.map form := by
  induction xs with
  | nil => rfl
  | cons x xs ih => rw [formAll, ih, List.map_cons]

@[simp] theorem form_atom (text : String) (span : Span) : (atom text span).form = .word text :=
  rfl

@[simp] theorem form_list (items : List SExpr) (span : Span) :
    (list items span).form = .list (items.map form) := by
  rw [form, formAll_eq]

/-- Only a word has the form of a word. -/
theorem exists_atom_of_form {sx : SExpr} {text : String} (h : sx.form = .word text) :
    ∃ span, sx = .atom text span := by
  match sx with
  | .atom _ span =>
    cases h
    exact ⟨span, rfl⟩
  | .list _ _ => cases h

/-- Only a list has the form of a list. -/
theorem exists_list_of_form {sx : SExpr} {forms : List Form} (h : sx.form = .list forms) :
    ∃ items span, sx = .list items span ∧ items.map form = forms := by
  match sx with
  | .atom _ _ => cases h
  | .list items span =>
    rw [form_list] at h
    cases h
    exact ⟨items, span, rfl, rfl⟩

/-- Only a list with a word at its head has the form of one. -/
theorem exists_headed_of_form {sx : SExpr} {head : String} {forms : List Form}
    (h : sx.form = .list (.word head :: forms)) :
    ∃ place args span, sx = .list (.atom head place :: args) span ∧ args.map form = forms := by
  obtain ⟨items, span, rfl, eq⟩ := exists_list_of_form h
  obtain ⟨first, args, rfl, headForm, argForms⟩ := List.map_eq_cons_iff.1 eq
  obtain ⟨place, rfl⟩ := exists_atom_of_form headForm
  exact ⟨place, args, span, rfl, argForms⟩

end SExpr

end WorldModel
