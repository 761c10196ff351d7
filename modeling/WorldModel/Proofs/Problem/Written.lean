/-
What is written of atoms and terms, as forms.

Between the hand that writes a text and the reader something may happen to its characters.
A world that imports a text lower-cases it and removes the comments first; a reader that is
handed a text as it is does neither. Either way what counts of a text is which marks its
characters have as they come in, and that all of them are admitted (`Intake`, `Heard`).

What a writer puts around words comes in as it is under every intake. So one statement serves
all of them: every atom, and every term over atoms whose words come in as they are, is heard
as the marks of its form (`Term.heard_term`).
-/
import WorldModel.Number.RoundTrip
import WorldModel.Proofs.Problem.Retype
import WorldModel.Proofs.Problem.Words
import WorldModel.Problem.Writer

set_option autoImplicit false

namespace WorldModel

open SExpr

/-! ## Intakes -/

/-- A character that is put around words: an ASCII character other than a capital that
begins no comment and ends no line together with the next one. -/
def isFrame (c : Char) : Bool :=
  Text.isSmall c && c != ';' && c != '\r'

/-- **What happens to the characters of a text** before words are told apart: which one
comes in for each of them, and which are admitted at all. -/
structure Intake where
  hear : Char → Char
  admits : Char → Bool
  frame : ∀ c, isFrame c = true → hear c = c ∧ admits c = true

/-- A character that is lowered by itself and ends neither a line nor a text. -/
def isPlain (c : Char) : Bool :=
  c != ';' && c != '\r' && c != 'Σ' && c != 'İ'

namespace Intake

/-- The intake of a text that is lower-cased and loses its comments. -/
def lowering : Intake where
  hear := Text.lowerSimple
  admits := isPlain
  frame c framed := by
    simp only [isFrame, Bool.and_eq_true] at framed
    obtain ⟨notSigma, notDotted, settled⟩ := Text.isLower_of_isSmall framed.1.1
    refine ⟨settled, ?_⟩
    simp only [isPlain, framed.1.2, framed.2, bne_iff_ne, Bool.true_and, Bool.and_eq_true]
    exact ⟨notSigma, notDotted⟩

/-- The intake of a text that is read as it is. -/
def raw : Intake :=
  ⟨id, fun _ => true, fun _ _ => ⟨rfl, rfl⟩⟩

/-- The characters of a text as they come in. -/
def chars (i : Intake) (t : String) : List Char :=
  t.toList.map i.hear

variable (i : Intake)

theorem chars_append (a b : String) : i.chars (a ++ b) = i.chars a ++ i.chars b := by
  rw [chars, String.toList_append, List.map_append, chars, chars]

/-- A text each character of which comes in as it is comes in as it is. -/
theorem chars_eq {t : String} (same : ∀ c ∈ t.toList, i.hear c = c) : i.chars t = t.toList :=
  (List.map_congr_left same).trans (List.map_id _)

/-- What is put around words comes in as it is. -/
theorem chars_of_frame {t : String} (frame : t.toList.all isFrame = true) :
    i.chars t = t.toList :=
  i.chars_eq fun c mem => (i.frame c (List.all_eq_true.1 frame c mem)).1

/-- **A word that comes in as it is.** -/
structure IsWord (t : String) : Prop where
  nonempty : t ≠ ""
  inside : ∀ c ∈ t.toList, ¬ Separates c
  same : ∀ c ∈ t.toList, i.hear c = c ∧ i.admits c = true

variable {i}

theorem isWord_lowering {t : String} (h : Word t) : lowering.IsWord t := by
  refine ⟨h.nonempty, fun c mem => (h.chars c mem).inside, fun c mem => ?_⟩
  have char := h.chars c mem
  have noReturn : c ≠ '\r' := by
    rintro rfl
    exact char.inside (by decide)
  refine ⟨char.lower.2.2, ?_⟩
  simp [lowering, isPlain, char.ne_semicolon, noReturn, char.lower.1, char.lower.2.1]

theorem isWord_raw {t : String} (nonempty : t ≠ "") (inside : ∀ c ∈ t.toList, ¬ Separates c) :
    raw.IsWord t :=
  ⟨nonempty, inside, fun _ _ => ⟨rfl, rfl⟩⟩

/-- The words of the notation come in as they are under every intake. -/
theorem isWord_of_isSmallWord {t : String} (small : isSmallWord t = true) : i.IsWord t := by
  have word := word_of_isSmallWord small
  refine ⟨word.nonempty, fun c mem => (word.chars c mem).inside, fun c mem => i.frame c ?_⟩
  have noReturn : c ≠ '\r' := by
    rintro rfl
    exact (word.chars _ mem).inside (by decide)
  simp only [isSmallWord, Bool.and_eq_true, List.all_eq_true] at small
  simp [isFrame, (small.2 c mem).1.1, (word.chars c mem).ne_semicolon, noReturn]

end Intake

/-! ## Texts and their marks -/

/-- **The text is heard as the marks.** -/
structure Heard (i : Intake) (t : String) (ms : List Mark) : Prop where
  admitted : t.toList.all i.admits = true
  scan_eq : scan [] (i.chars t) = ms

namespace Heard

variable {i : Intake} {a b : String} {ms ns : List Mark}

theorem append (first : Heard i a ms) (second : Heard i b ns)
    (apart : scan [] (i.chars a ++ i.chars b) = scan [] (i.chars a) ++ scan [] (i.chars b)) :
    Heard i (a ++ b) (ms ++ ns) := by
  refine ⟨?_, ?_⟩
  · rw [String.toList_append, List.all_append, first.admitted, second.admitted]
    rfl
  · rw [i.chars_append, apart, first.scan_eq, second.scan_eq]

/-- The second text begins apart from whatever stands before it. -/
theorem append_closed (first : Heard i a ms) (second : Heard i b ns) (closed : Closed (i.chars b)) :
    Heard i (a ++ b) (ms ++ ns) :=
  first.append second (scan_append closed [])

/-- The first text has ended before whatever follows it. -/
theorem append_ended (first : Heard i a ms) (second : Heard i b ns) (ended : Ended (i.chars a)) :
    Heard i (a ++ b) (ms ++ ns) :=
  first.append second (scan_append_of_ended ended _)

end Heard

section Frame

variable {i : Intake} {t : String} {ms : List Mark} (frame : t.toList.all isFrame = true)
include frame

/-- What is put around words is heard as the marks it has. -/
theorem heard_frame (scan_eq : scan [] t.toList = ms) : Heard i t ms := by
  refine ⟨List.all_eq_true.2 fun c mem => ?_, ?_⟩
  · exact (i.frame c (List.all_eq_true.1 frame c mem)).2
  · rw [i.chars_of_frame frame, scan_eq]

theorem closed_frame (closed : Closed t.toList) : Closed (i.chars t) := by
  rwa [i.chars_of_frame frame]

theorem ended_frame (ended : Ended t.toList) : Ended (i.chars t) := by
  rwa [i.chars_of_frame frame]

end Frame

variable {i : Intake}

theorem closed_chars_append {a : String} (b : String) (closed : Closed (i.chars a))
    (nonempty : i.chars a ≠ []) : Closed (i.chars (a ++ b)) := by
  rw [i.chars_append]
  cases eq : i.chars a with
  | nil => exact absurd eq nonempty
  | cons c cs =>
    rw [eq] at closed
    exact closed

/-! ## Words and numbers -/

/-- **A word** is heard as itself. -/
theorem heard_word {t : String} (h : i.IsWord t) : Heard i t [.word t] := by
  refine ⟨List.all_eq_true.2 fun c mem => (h.same c mem).2, ?_⟩
  rw [i.chars_eq fun c mem => (h.same c mem).1, scan_word (by simpa using h.nonempty) h.inside,
    String.ofList_toList]

theorem wordChar_of_isDigit {c : Char} (digit : c.isDigit = true) : WordChar c := by
  have range : 0x30 ≤ c.toNat ∧ c.toNat ≤ 0x39 := by
    simpa [Char.isDigit, UInt32.le_iff_toNat_le] using digit
  have other : ∀ d : Char, d.toNat < 0x30 ∨ 0x39 < d.toNat → c ≠ d := by
    rintro d outside rfl
    omega
  refine ⟨?_, other _ (by decide), Text.isLower_of_isSmall ?_⟩
  · rintro (same | same | blank)
    · exact other _ (by decide) same
    · exact other _ (by decide) same
    · simp [Text.isBlank] at blank
      omega
  · simp only [Text.isSmall, Bool.and_eq_true, Bool.or_eq_true, Nat.blt_eq]
    omega

/-- Positional notation is made of digits and a point. -/
theorem wordChar_of_mem_positional {d : Number.Decimal} {c : Char} (mem : c ∈ d.positional) :
    WordChar c := by
  simp only [Number.Decimal.positional] at mem
  split at mem
  · refine wordChar_of_isDigit ?_
    rcases List.mem_append.1 mem with mem | mem
    · exact Number.isDigit_of_mem_digitChars mem
    · exact Number.isDigit_of_mem_replicate mem
  · simp only [Number.pointed] at mem
    rcases List.mem_append.1 mem with before | mem
    · exact wordChar_of_isDigit (Number.isDigit_of_mem_padded (List.mem_of_mem_take before))
    · rcases List.mem_cons.1 mem with rfl | behind
      · exact (word_of_isSmallWord (t := ".") rfl).chars _ (by simp)
      · exact wordChar_of_isDigit (Number.isDigit_of_mem_padded (List.mem_of_mem_drop behind))

/-- **A number is written as a word**, unless it is none. -/
theorem word_write_or (x : Float) : Word (Number.write x) ∨ Number.write x = "NaN" := by
  by_cases undefined : Number.infinityBits < Number.magnitudeBits x
  -- what is no number is the one text with capitals in it
  · exact .inr (by rw [Number.write, if_pos undefined])
  · refine .inl ⟨fun empty => ?_, fun c mem => ?_⟩
    · -- nothing is read from an empty text, but the number is read from its own
      have none_ := Number.read?_write x
      rw [empty] at none_
      cases none_
    · rw [Number.write, if_neg undefined, String.toList_ofList] at mem
      rcases List.mem_append.1 mem with sign | magnitude
      · rw [Number.signChars] at sign
        split at sign
        · exact (word_of_isSmallWord (t := "-") rfl).chars c (by simpa using sign)
        · cases sign
      · rw [Number.magnitudeChars] at magnitude
        split at magnitude
        · exact (word_of_isSmallWord (t := "inf") rfl).chars c magnitude
        · exact wordChar_of_mem_positional magnitude

/-- A number is heard in small letters where a text is lower-cased. -/
theorem heard_number_lowering (x : Float) :
    Heard .lowering (Number.write x) [.word (Text.lower (Number.write x))] := by
  rcases word_write_or x with word | undefined
  · rw [word.lower_eq]
    exact heard_word (Intake.isWord_lowering word)
  · rw [undefined]
    exact ⟨by decide, by decide +kernel⟩

/-- A number is heard as it is written where a text is read as it is. -/
theorem heard_number_raw (x : Float) : Heard .raw (Number.write x) [.word (Number.write x)] := by
  refine heard_word ?_
  rcases word_write_or x with word | undefined
  · exact Intake.isWord_raw word.nonempty fun c mem => (word.chars c mem).inside
  · rw [undefined]
    exact Intake.isWord_raw (by decide) (by simp [Separates, Text.isBlank])

/-- What is written in capitals is no number, and any other number is written as a word. -/
theorem word_write {x : Float} (defined : x.isNaN = false) : Word (Number.write x) := by
  rcases word_write_or x with word | undefined
  · exact word
  · have capitals := Number.read?_write x
    have none_ : (Number.read? "NaN").all Float.isNaN = true := by decide +kernel
    rw [← undefined, capitals, Option.all_some, defined] at none_
    cases none_

/-- **A number is read back** from its text in small letters. -/
theorem read?_lower_write (x : Float) :
    Number.read? (Text.lower (Number.write x)) = some x := by
  rcases word_write_or x with word | undefined
  · rw [word.lower_eq, Number.read?_write]
  · -- in capitals or not, the word names the same number
    have capitals := Number.read?_write x
    rw [undefined] at capitals
    rw [undefined, ← capitals]
    decide

/-! ## Lists -/

theorem heard_space : Heard i " " [] :=
  heard_frame (by decide) (by decide)

theorem heard_opening : Heard i "(" [.opening] :=
  heard_frame (by decide) (by decide)

theorem heard_closing : Heard i ")" [.closing] :=
  heard_frame (by decide) (by decide)

theorem ended_opening : Ended (i.chars "(") :=
  ended_frame (by decide) (ended_of_getLast? (c := '(') (by decide) (by decide))

theorem ended_space : Ended (i.chars " ") :=
  ended_frame (by decide) (ended_of_getLast? (c := ' ') (by decide) (by decide))

theorem closed_closing : Closed (i.chars ")") :=
  closed_frame (by decide) (closed_cons (by decide) [])

theorem closed_spaced (t : String) : Closed (i.chars (" " ++ t)) :=
  closed_chars_append t (closed_frame (by decide) (closed_cons (c := ' ') (by decide) []))
    (List.cons_ne_nil _ _)

theorem Heard.spaced {t : String} {ms : List Mark} (h : Heard i t ms) : Heard i (" " ++ t) ms :=
  heard_space.append_ended h ended_space

section Several

variable {α : Type} {xs : List α} {text : α → String} {form : α → Form}

theorem closed_join_spaced : Closed (i.chars (String.join (xs.map fun x => " " ++ text x))) := by
  induction xs with
  | nil => exact closed_nil
  | cons x xs ih =>
    rw [List.map_cons, String.join_cons, i.chars_append]
    exact (closed_spaced _).append ih

/-- **Texts with a space before each** are heard as the marks of one after the other. -/
theorem heard_join_spaced (each : ∀ x ∈ xs, Heard i (text x) (marks (form x))) :
    Heard i (String.join (xs.map fun x => " " ++ text x)) (marksAll (xs.map form)) := by
  induction xs with
  | nil => exact ⟨rfl, rfl⟩
  | cons x xs ih =>
    obtain ⟨first, later⟩ := List.forall_mem_cons.1 each
    rw [List.map_cons, String.join_cons, List.map_cons, marksAll]
    exact first.spaced.append_closed (ih later) closed_join_spaced

end Several

/-- **A word and what follows it** in parentheses are heard as the marks of a list. -/
theorem heard_list {head body : String} {fs : List Form} (word : i.IsWord head)
    (rest : Heard i body (marksAll fs)) (apart : Closed (i.chars body)) :
    Heard i ("(" ++ head ++ body ++ ")") (marks (.list (.word head :: fs))) := by
  have opened := heard_opening.append_ended (heard_word word) ended_opening
  have whole := (opened.append_closed rest apart).append_closed heard_closing closed_closing
  simpa [marks, marksAll] using whole

/-! ## Atoms -/

/-- The form of an atom: its name and its arguments in parentheses. -/
def atomForm (name : String) (as : List Argument) : Form :=
  .list (.word name :: as.map fun a => .word a.name)

/-- The form of a literal, that of its atom behind `not` if it is negated. -/
def Literal.form (l : Literal) : Form :=
  if l.negated then .list [.word "not", atomForm l.name l.args] else atomForm l.name l.args

/-- The form of a number whose text is lower-cased before it is read. -/
def numberForm (x : Float) : Form :=
  .word (Text.lower (Number.write x))

/-- The form of a fluent with its value, a number that is heard as the word. -/
def Fluent.form (f : Fluent) (number : String) : Form :=
  .list [.word "=", atomForm f.name f.args, .word number]

/-- **An atom whose words come in as they are**, and whose name is written as it is. -/
structure AtomAudible (i : Intake) (casing : Casing) (name : String) (as : List Argument) :
    Prop where
  word : i.IsWord name
  written : casing.apply name = name
  args : ∀ a ∈ as, i.IsWord a.name

open Reader (AtomWords ReadLiteral)

theorem atomAudible_lowering {name : String} {as : List Argument}
    (words : AtomWords Word name as) : AtomAudible .lowering .lower name as :=
  ⟨Intake.isWord_lowering words.name, words.name.lower_eq,
    fun a mem => Intake.isWord_lowering (words.args a mem)⟩

variable {casing : Casing}

theorem heard_atomText {name : String} {as : List Argument}
    (audible : AtomAudible i casing name as) :
    Heard i (atomText casing name as) (marks (atomForm name as)) := by
  rw [atomText, audible.written]
  have each : ∀ a ∈ as, Heard i a.name (marks (.word a.name)) :=
    fun a mem => heard_word (audible.args a mem)
  exact heard_list audible.word (heard_join_spaced each) closed_join_spaced

/-- **A literal** is heard as the marks of its form. -/
theorem heard_literal {l : Literal} (audible : AtomAudible i casing l.name l.args) :
    Heard i (l.text casing) (marks l.form) := by
  have atom := heard_atomText audible
  rw [Literal.text, Literal.form]
  split
  · -- the word `not` comes with its parenthesis, and the atom follows after a space
    have body : Heard i (" " ++ atomText casing l.name l.args)
        (marksAll [atomForm l.name l.args]) := by
      simpa [marksAll] using atom.spaced
    have whole : Heard i ("(" ++ "not" ++ (" " ++ atomText casing l.name l.args) ++ ")")
        (marks (.list [.word "not", atomForm l.name l.args])) :=
      heard_list (Intake.isWord_of_isSmallWord rfl) body (closed_spaced _)
    rwa [← String.append_assoc] at whole
  · exact atom

/-- A fluent with its value is heard as the marks of its form, whatever the number is heard
as. -/
theorem heard_fluent {f : Fluent} {number : String} (audible : AtomAudible i casing f.name f.args)
    (value : Heard i (Number.write f.value) [.word number]) :
    Heard i (f.text casing) (marks (f.form number)) := by
  have parts := (heard_atomText audible).spaced.append_closed value.spaced (closed_spaced _)
  have body : Heard i (" " ++ atomText casing f.name f.args ++ (" " ++ Number.write f.value))
      (marksAll [atomForm f.name f.args, .word number]) := by
    simpa [marksAll, marks] using parts
  have apart := closed_chars_append (" " ++ Number.write f.value)
    (closed_spaced (i := i) (atomText casing f.name f.args)) (by simp [Intake.chars])
  have whole : Heard i ("(" ++ "=" ++ (" " ++ atomText casing f.name f.args ++
      (" " ++ Number.write f.value)) ++ ")")
      (marks (.list [.word "=", atomForm f.name f.args, .word number])) :=
    heard_list (Intake.isWord_of_isSmallWord rfl) body apart
  rw [← String.append_assoc, ← String.append_assoc, ← String.append_assoc] at whole
  rw [Fluent.text, Fluent.form]
  exact whole

/-! ## Terms -/

namespace NodeKind

/-- The form of an atom or a number; other kinds are written by their keyword. -/
def form : NodeKind → Form
  | predicate l => l.form
  | function f => atomForm f.name f.args
  | number x => numberForm x
  | _ => .list []

/-- The atom of the kind, if it has one, is made of words with the property. -/
def OfWords (P : String → Prop) : NodeKind → Prop
  | predicate l => AtomWords P l.name l.args
  | function f => AtomWords P f.name f.args
  | _ => True

/-- Types are not made of words of the text. -/
theorem OfWords.retype {P : String → Prop} {k : NodeKind} (h : k.OfWords P)
    (typeOf : Reader.TypeOf) : (k.retype typeOf).OfWords P := by
  cases k with
  | predicate l => exact AtomWords.of_names h (map_name_retypeArguments typeOf l.args)
  | function f => exact AtomWords.of_names h (map_name_retypeArguments typeOf f.args)
  | _ => exact h

/-- **The kind comes in as it is written**: its atom, if it has one, and a number as the
form has it. -/
def Audible (i : Intake) (casing : Casing) : NodeKind → Prop
  | predicate l => AtomAudible i casing l.name l.args
  | function f => AtomAudible i casing f.name f.args
  | number x => Heard i (Number.write x) [.word (Text.lower (Number.write x))]
  | _ => True

/-- Kinds of words come in as they are written where a text is lower-cased. -/
theorem OfWords.audible {k : NodeKind} (h : k.OfWords Word) : k.Audible .lowering .lower := by
  cases k with
  | predicate l => exact atomAudible_lowering h
  | function f => exact atomAudible_lowering h
  | number x => exact heard_number_lowering x
  | _ => trivial

theorem isWord_of_keyword? {k : NodeKind} {word : String} (h : k.keyword? = some word) :
    i.IsWord word := by
  refine Intake.isWord_of_isSmallWord ?_
  cases k with
  | expression op => cases op <;> cases h <;> rfl
  | update op => cases op <;> cases h <;> rfl
  | predicate _ | function _ | number _ => cases h
  | _ =>
    cases h
    rfl

theorem heard_leafText {k : NodeKind} (leaf : k.keyword? = none) (audible : k.Audible i casing) :
    Heard i (k.leafText casing) (marks k.form) := by
  cases k with
  | predicate l => exact heard_literal audible
  | function f => exact heard_atomText audible
  | number x => exact audible
  | _ => cases leaf

end NodeKind

namespace Reader

variable {P : String → Prop}

theorem ofWords_flat {k : NodeKind} {ls : List Literal} (head : k.OfWords P)
    (h : ∀ l ∈ ls, ReadLiteral P l) : ∀ m ∈ (Term.flat k ls).kinds, m.OfWords P := by
  rw [Term.kinds_flat, List.forall_mem_cons]
  exact ⟨head, List.forall_mem_map.2 fun l mem => (h l mem).words⟩

theorem Numeric.ofWords {t : Term} (h : Numeric P t) : ∀ k ∈ t.kinds, k.OfWords P := by
  induction h with
  | number _ => exact Term.forall_kinds_node.2 ⟨trivial, by simp⟩
  | fluent words _ _ => exact Term.forall_kinds_node.2 ⟨words, by simp⟩
  | minus _ ih => exact Term.forall_kinds_node.2 ⟨trivial, by simpa using ih⟩
  | pair _ _ _ left right =>
    exact Term.forall_kinds_node.2 ⟨trivial, by simpa using ⟨left, right⟩⟩

/-- **A logical term of words** has atoms of words only. -/
theorem Logical.ofWords {t : Term} (h : Logical P t) : ∀ k ∈ t.kinds, k.OfWords P := by
  induction h with
  | and _ ih | or _ ih => exact Term.forall_kinds_node.2 ⟨trivial, ih⟩
  | not _ ih => exact Term.forall_kinds_node.2 ⟨trivial, by simpa using ih⟩
  | unknown words => exact ofWords_flat (k := .unknown) trivial (List.forall_mem_singleton.2 words)
  | oneOf words => exact ofWords_flat (k := .oneOf) trivial words
  | comparison _ left right =>
    exact Term.forall_kinds_node.2 ⟨trivial, by simpa using ⟨left.ofWords, right.ofWords⟩⟩
  | @update op f amount words _ value =>
    have target : ∀ k ∈ (leaf (.function f)).kinds, k.OfWords P :=
      Term.forall_kinds_node.2 ⟨words, by simp⟩
    exact Term.forall_kinds_node.2 ⟨trivial, by simpa using ⟨target, value.ofWords⟩⟩
  | literal words _ _ => exact Term.forall_kinds_node.2 ⟨words.words, by simp⟩

end Reader

namespace Term

mutual

/-- **The form of a term**: what its text is read as. Nothing below an atom or a number is written. -/
def form : Term → Form
  | node k cs =>
    match k.keyword? with
    | none => k.form
    | some word => .list (.word word :: formAll cs)

/-- The forms of terms, one after the other. -/
def formAll : List Term → List Form
  | [] => []
  | t :: ts => form t :: formAll ts

end

theorem formAll_eq (ts : List Term) : formAll ts = ts.map form := by
  induction ts with
  | nil => rfl
  | cons t ts ih => rw [formAll, ih, List.map_cons]

theorem form_of_keyword? {k : NodeKind} {word : String} (h : k.keyword? = some word)
    (cs : List Term) : (node k cs).form = .list (.word word :: cs.map form) := by
  rw [form, h, formAll_eq]

/-- **A term whose atoms come in as they are** is heard as the marks of its form. -/
theorem heard_term {t : Term} (audible : ∀ k ∈ t.kinds, k.Audible i casing) :
    Heard i (t.text casing) (marks t.form) := by
  induction t with
  | node k cs ih =>
    obtain ⟨top, below⟩ := forall_kinds_node.1 audible
    cases head : k.keyword? with
    | none =>
      rw [text, form, head]
      exact NodeKind.heard_leafText head top
    | some word =>
      have each : ∀ c ∈ cs, Heard i (c.text casing) (marks c.form) :=
        fun c mem => ih c mem (below c mem)
      rw [form_of_keyword? head, text, head, textAll_eq]
      exact heard_list (NodeKind.isWord_of_keyword? head) (heard_join_spaced each)
        closed_join_spaced

end Term

end WorldModel
