/-
Atoms in text.

Facts and fluents are asked for by text as well as by what they are. For this the text of an atom has to
be read as the atom again, and that depends on its names alone. If they are plain, that is, not empty and
without blanks and parentheses, no argument begins like a variable and no literal is called `not`, then
the text is read back (`Literal.parse_of_words`, `Fluent.parse_of_words`); other words that mean something
elsewhere may be names here.

There is no other way. Whatever is read, of any text, is an atom of this kind
(`Literal.readLiteral_of_parse`, `Fluent.atomWords_of_parse`), so that an atom of another kind is not read
from its own text, nor from any. **Main statement.** `World.atoms_in_text`: which atoms are read back,
and that for these it is the same to ask by text.
-/
import WorldModel.Proofs.Problem.Reprinted
import WorldModel.Proofs.World.Lookup

set_option autoImplicit false

namespace WorldModel

open Reader (AtomWords ReadLiteral)

/-! ## Reading one atom -/

theorem Reader.asAtom_eq_ok_iff {α : Type} {input : String} {r : Result α} {a : α} :
    asAtom input r = .ok a ↔ r = .ok a := by
  cases r <;> simp [asAtom]

/-- A text is read as the literal of the one expression in it. -/
theorem Literal.parse_eq_ok_iff {s : String} {l : Literal} : Literal.parse s = .ok l ↔
    ∃ sx, SExpr.parse s = .ok [sx] ∧ Reader.literal Reader.untyped sx = .ok l := by
  rw [parse, Reader.asAtom_eq_ok_iff, bind_eq_ok_iff]
  simp only [Reader.single_eq_ok_iff]

/-- A text is read as the fluent of the one expression in it. -/
theorem Fluent.parse_eq_ok_iff {s : String} {f : Fluent} : Fluent.parse s = .ok f ↔
    ∃ sx, SExpr.parse s = .ok [sx] ∧ Reader.fluent sx = .ok f := by
  rw [parse, Reader.asAtom_eq_ok_iff, bind_eq_ok_iff]
  simp only [Reader.single_eq_ok_iff]

/-- The words of the one expression in a text are plain. -/
theorem over_plain_of_parse {s : String} {sx : SExpr} (parsed : SExpr.parse s = .ok [sx]) :
    sx.form.Over Plain := by
  have words := SExpr.over_of_parse (fun _ _ inside => inside) parsed sx (List.mem_singleton_self sx)
  exact words.imp fun _ word => ⟨word.1, word.2⟩

/-- A text that is heard as a form is read as the one expression of that form. -/
theorem exists_parse_of_heard {s : String} {f : Form} (heard : Heard .raw s (SExpr.marks f)) :
    ∃ sx, SExpr.parse s = .ok [sx] ∧ sx.form = f := by
  have raw : Intake.raw.chars s = s.toList := List.map_id _
  exact SExpr.parse_of_scan_one (raw ▸ heard.scan_eq)

/-! ## Literals -/

/-- **Any literal that is read** has plain names, is not called `not` and is over no variables. -/
theorem Literal.readLiteral_of_parse {s : String} {l : Literal} (read : Literal.parse s = .ok l) :
    ReadLiteral Plain l := by
  obtain ⟨sx, parsed, readOne⟩ := parse_eq_ok_iff.1 read
  exact Reader.readLiteral_of_literal (over_plain_of_parse parsed) readOne

/-- **A literal is read back** from its text, over arguments of unknown type. -/
theorem Literal.parse_of_words {l : Literal} (words : ReadLiteral Plain l) :
    Literal.parse (l.text .asStored) = .ok (l.retype Reader.untyped) := by
  obtain ⟨sx, parsed, form⟩ := exists_parse_of_heard (heard_literal (atomAudible_asStored words.words))
  exact parse_eq_ok_iff.2 ⟨sx, parsed, Reader.literal_of_form words form⟩

/-! ## Fluents -/

/-- **Any fluent that is read**, with or without a value, has plain names and is over no variables. -/
theorem Fluent.atomWords_of_parse {s : String} {f : Fluent} (read : Fluent.parse s = .ok f) :
    AtomWords Plain f.name f.args := by
  obtain ⟨sx, parsed, readOne⟩ := parse_eq_ok_iff.1 read
  have words := over_plain_of_parse parsed
  rw [Reader.fluent] at readOne
  split at readOne
  · exact Reader.atomWords_of_assignment words readOne
  · exact (Reader.atomWords_of_fluentTerm words readOne).1

/-- **A fluent is read back** from its text with its value, over arguments of unknown type. -/
theorem Fluent.parse_of_words {f : Fluent} (words : AtomWords Plain f.name f.args) :
    Fluent.parse (f.text .asStored) = .ok (f.retype Reader.untyped) := by
  obtain ⟨sx, parsed, form⟩ := exists_parse_of_heard
    (heard_fluent (atomAudible_asStored words) (heard_number_raw f.value))
  have readOne : Reader.assignment Reader.untyped sx = .ok (f.retype Reader.untyped) :=
    Reader.assignment_of_form words (Number.read?_write f.value) form
  have assigned : sx.head? = some "=" := by
    obtain ⟨place, args, span, rfl, _⟩ := SExpr.exists_headed_of_form form
    rfl
  refine parse_eq_ok_iff.2 ⟨sx, parsed, ?_⟩
  rw [Reader.fluent, if_pos assigned, readOne]

namespace World

/-! ## Asking by text -/

/-- **A fact that is asked for by its text** is looked up as the fact itself. -/
theorem fact?_text (w : World) {l : Literal} (words : ReadLiteral Plain l) :
    w.fact? (l.text .asStored) = w.facts.find? (·.sameFact (w.spellLiteral l)) := by
  have same : (fun m : Literal => m.sameFact (w.spellLiteral (l.retype Reader.untyped))) =
      fun m => m.sameFact (w.spellLiteral l) := by
    funext m
    rw [Bool.eq_iff_iff, Literal.sameFact_iff, Literal.sameFact_iff]
    simp only [spellLiteral, Literal.retype, map_name_retypeArguments]
  rw [fact?, Literal.parse_of_words words]
  exact congrArg (w.facts.find? ·) same

/-- **A fluent that is asked for by its text** is looked up by its key. -/
theorem fluent?_text (w : World) {f : Fluent} (words : AtomWords Plain f.name f.args) :
    w.fluent? (f.text .asStored) = w.fluents.find? (·.sameKey (w.spellFluent f)) := by
  have same : (fun g : Fluent => g.sameKey (w.spellFluent (f.retype Reader.untyped))) =
      fun g => g.sameKey (w.spellFluent f) := by
    funext g
    rw [Bool.eq_iff_iff, Fluent.sameKey_iff, Fluent.sameKey_iff]
    simp only [spellFluent, Fluent.retype, map_name_retypeArguments]
  rw [fluent?, Fluent.parse_of_words words]
  exact congrArg (w.fluents.find? ·) same

/-- **Atoms in text.** The text of a literal is read as the same fact if and only if its names are plain,
no argument is a variable and its own name is not `not`; the text of a fluent is read as the same key with
the same value if and only if its names are plain and no argument is a variable. In every world, to ask
for such an atom by its text is to ask for the atom. -/
theorem atoms_in_text :
    (∀ l : Literal,
      (∃ m, Literal.parse (l.text .asStored) = .ok m ∧ m.sameFact l = true) ↔
        AtomWords Plain l.name l.args ∧ l.name ≠ "not") ∧
      (∀ f : Fluent,
        (∃ g, Fluent.parse (f.text .asStored) = .ok g ∧ g.sameKey f = true ∧ g.value = f.value) ↔
          AtomWords Plain f.name f.args) ∧
      (∀ (w : World) (l : Literal), AtomWords Plain l.name l.args → l.name ≠ "not" →
        ((w.fact? (l.text .asStored)).isSome = true ↔ w.hasFact l = true)) ∧
      ∀ (w : World) (f : Fluent), AtomWords Plain f.name f.args →
        ((w.fluent? (f.text .asStored)).isSome = true ↔ w.hasFluent f = true) := by
  refine ⟨fun l => ⟨?_, ?_⟩, fun f => ⟨?_, ?_⟩, fun w l words positive => ?_, fun w f words => ?_⟩
  · rintro ⟨m, read, same⟩
    -- what has been read is of this kind, and the literal has the same names
    have words := (Literal.readLiteral_of_parse read).of_sameFact (Literal.sameFact_comm m l ▸ same)
    exact ⟨words.words, words.name_ne_not⟩
  · rintro ⟨words, positive⟩
    refine ⟨_, Literal.parse_of_words ⟨words, positive⟩, ?_⟩
    rw [Literal.sameFact_comm]
    exact Literal.sameFact_self_retype Reader.untyped l
  · rintro ⟨g, read, same, _⟩
    obtain ⟨name, names⟩ := Fluent.sameKey_iff.1 same
    rw [← name]
    exact (Fluent.atomWords_of_parse read).of_names names.symm
  · intro words
    refine ⟨_, Fluent.parse_of_words words, ?_, rfl⟩
    rw [Fluent.sameKey_comm]
    exact Fluent.sameKey_self_retype Reader.untyped f
  · rw [fact?_text w ⟨words, positive⟩, List.find?_isSome, hasFact, List.any_eq_true]
  · rw [fluent?_text w words, List.find?_isSome, hasFluent, List.any_eq_true]

/-- A fact and a fluent are asked for in capitals, by their texts. -/
theorem atoms_in_text_levelled :
    let w := (empty levels).run levelled
    AtomWords Plain "CLEAR" [.untyped "a"] ∧ AtomWords Plain "LEVEL" [.untyped "b"] ∧
      (w.fact? ((Literal.positive "CLEAR" ["a"]).text .asStored)).isSome = true ∧
      (w.fact? ((Literal.positive "CLEAR" ["a"]).negate.text .asStored)).isSome = false ∧
      (w.fluent? ((Fluent.ground "LEVEL" ["b"] 7).text .asStored)).isSome = true := by
  intro w
  obtain ⟨_, _, facts, fluents⟩ := atoms_in_text
  have clear : AtomWords Plain "CLEAR" [.untyped "a"] := ⟨by decide, by decide, by decide⟩
  have level : AtomWords Plain "LEVEL" [.untyped "b"] := ⟨by decide, by decide, by decide⟩
  refine ⟨clear, level, ?_, ?_, ?_⟩
  · exact (facts w (.positive "CLEAR" ["a"]) clear (by decide)).2 (by decide +kernel)
  · have absent : w.hasFact (Literal.positive "CLEAR" ["a"]).negate = false := by decide +kernel
    rw [Bool.eq_false_iff, Ne, facts w (Literal.positive "CLEAR" ["a"]).negate clear (by decide), absent]
    exact Bool.false_ne_true
  · exact (fluents w (.ground "LEVEL" ["b"] 7) level).2 (by decide +kernel)

/-- A blank in the name: the text is that of another fact, which is stored. -/
example : let w := (empty levels).run levelled
    (w.fact? ((Literal.positive "clear a" []).text .asStored)).isSome = true ∧
      w.hasFact (.positive "clear a" []) = false := by
  decide +kernel

end World

end WorldModel
