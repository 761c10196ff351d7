/-
Printed expressions are read back.

An expression is printed with one space between the items of a list, and so are several expressions one
after the other (`printed`, `text_list`). Words run into each other only where nothing stands between
them: a space does before every item but the first one, and a parenthesis before that. So the marks of
what is printed are the marks of the forms (`scan_text`, `scan_printed`), provided every word is one in
a text: not empty, and without blanks and parentheses (`PlainWord`). What is read from a text has no other
words. **Main statement.** `parse_printed`.
-/
import WorldModel.Proofs.SExpr.Scan

set_option autoImplicit false

namespace WorldModel.SExpr

/-- **A word that can stand in a text**: it is not empty, and no word ends inside it. -/
structure PlainWord (t : String) : Prop where
  nonempty : t ≠ ""
  inside : ∀ c ∈ t.toList, ¬ Separates c

/-- **Expressions are printed** with single spaces between them. -/
def printed (sxs : List SExpr) : String :=
  " ".intercalate (sxs.map text)

/-! ## What is printed -/

theorem printed_cons (sx : SExpr) (sxs : List SExpr) : printed (sx :: sxs) = sx.text ++ textAll sxs := by
  rw [printed]
  induction sxs generalizing sx with
  | nil => rw [List.map_singleton, String.intercalate_singleton, textAll, String.append_empty]
  | cons next sxs ih =>
    rw [List.map_cons, List.map_cons, String.intercalate_cons_cons, ← List.map_cons, ih, textAll]
    simp only [String.append_assoc]

/-- The items of a list are printed like expressions in a row. -/
theorem text_list (items : List SExpr) (span : Span) :
    text (.list items span) = "(" ++ printed items ++ ")" := by
  cases items with
  | nil => rfl
  | cons first items =>
    rw [text, printed_cons]
    simp only [String.append_assoc]

theorem toList_textAll_cons (sx : SExpr) (sxs : List SExpr) :
    (textAll (sx :: sxs)).toList = ' ' :: (sx.text.toList ++ (textAll sxs).toList) := by
  simp [textAll]

/-! ## Its marks -/

/-- What follows the first expression begins with a space, if there is anything. -/
theorem closed_textAll (sxs : List SExpr) : Closed (textAll sxs).toList := by
  cases sxs with
  | nil => exact closed_nil
  | cons sx sxs =>
    rw [toList_textAll_cons]
    exact closed_cons (by decide) _

theorem scan_textAll {sxs : List SExpr} (each : ∀ sx ∈ sxs, scan [] sx.text.toList = marks sx.form) :
    scan [] (textAll sxs).toList = marksAll (sxs.map form) := by
  induction sxs with
  | nil => rfl
  | cons sx sxs ih =>
    obtain ⟨first, later⟩ := List.forall_mem_cons.1 each
    rw [toList_textAll_cons, scan_nil_cons_of_blank (by decide), scan_append (closed_textAll sxs),
      first, ih later, List.map_cons, marksAll]

/-- **Printed expressions have the marks of one form after the other** when each has the marks of its
own. -/
theorem scan_printed {sxs : List SExpr} (each : ∀ sx ∈ sxs, scan [] sx.text.toList = marks sx.form) :
    scan [] (printed sxs).toList = marksAll (sxs.map form) := by
  cases sxs with
  | nil => rfl
  | cons sx sxs =>
    obtain ⟨first, later⟩ := List.forall_mem_cons.1 each
    rw [printed_cons, String.toList_append, scan_append (closed_textAll sxs), first,
      scan_textAll later, List.map_cons, marksAll]

/-- **A printed expression has the marks of its form.** -/
theorem scan_text (sx : SExpr) (plain : sx.form.Over PlainWord) :
    scan [] sx.text.toList = marks sx.form := by
  induction sx with
  | atom t span =>
    rcases plain with ⟨nonempty, inside⟩
    rw [text, scan_word (by simpa using nonempty) inside, String.ofList_toList, form, marks]
  | list items span ih =>
    rw [form_list] at plain
    rcases plain with _ | each
    have marked : scan [] (printed items).toList = marksAll (items.map form) := by
      apply scan_printed
      intro sx mem
      exact ih sx mem (each _ (List.mem_map_of_mem mem))
    -- the closing parenthesis ends the last word, the opening one is read by itself
    have chars : (text (.list items span)).toList = '(' :: ((printed items).toList ++ [')']) := by
      rw [text_list]
      simp
    rw [chars, scan, if_pos rfl, scan_append (closed_cons (by decide) []), marked, form_list, marks]
    rfl

/-! ## Reading it back -/

/-- What is read from a text is made of plain words. -/
theorem over_plainWord_of_parse {s : String} {sxs : List SExpr} (parsed : parse s = .ok sxs) :
    ∀ sx ∈ sxs, sx.form.Over PlainWord := by
  intro sx mem
  have words := over_of_parse (Q := fun c => ¬ Separates c) (fun _ _ inside => inside) parsed sx mem
  exact words.imp fun t h => ⟨h.1, h.2⟩

/-- **Printed expressions are read back**, up to their places: all those over plain words, and with them
whatever was read from a text. -/
theorem parse_printed :
    (∀ sxs : List SExpr, (∀ sx ∈ sxs, sx.form.Over PlainWord) →
      ∃ read, parse (printed sxs) = .ok read ∧ read.map form = sxs.map form) ∧
      ∀ (s : String) (sxs : List SExpr), parse s = .ok sxs →
        ∃ read, parse (printed sxs) = .ok read ∧ read.map form = sxs.map form := by
  have plain : ∀ sxs : List SExpr, (∀ sx ∈ sxs, sx.form.Over PlainWord) →
      ∃ read, parse (printed sxs) = .ok read ∧ read.map form = sxs.map form := by
    intro sxs words
    apply parse_of_scan
    exact scan_printed fun sx mem => scan_text sx (words sx mem)
  refine ⟨plain, ?_⟩
  intro s sxs parsed
  exact plain sxs (over_plainWord_of_parse parsed)

/-- An empty list, and lists in a row without a space between them. -/
theorem parse_printed_nested :
    (∃ read, parse (printed [.list [] ⟨5, 7⟩, .atom "k" ⟨1, 2⟩]) = .ok read ∧
      read.map form = [.list [], .word "k"]) ∧
      ∃ sxs, parse "((a)())b" = .ok sxs ∧
        ∃ read, parse (printed sxs) = .ok read ∧ read.map form = sxs.map form := by
  obtain ⟨plain, again⟩ := parse_printed
  refine ⟨?_, ?_⟩
  · refine plain _ ?_
    simp only [List.forall_mem_cons, form_list, form_atom]
    refine ⟨.list (by simp), .word ⟨by decide, by simp [Separates, Text.isBlank]⟩, by simp⟩
  · have parsed : parse "((a)())b" = .ok [.list [.list [.atom "a" ⟨2, 3⟩] ⟨1, 4⟩, .list [] ⟨4, 6⟩] ⟨0, 7⟩,
        .atom "b" ⟨7, 8⟩] := rfl
    exact ⟨_, parsed, again _ _ parsed⟩

end WorldModel.SExpr
