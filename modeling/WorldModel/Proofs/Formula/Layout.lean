/-
The two layouts of a formula.

A formula is written on one line, with a space before every part, or with one node a line, and each of
the two is a recursion of its own. The indented form puts a line feed behind every leaf, does not write
the parts of a node without any, and gives the closing parenthesis of a node with parts a line to itself.

None of this is seen in what is read. In both layouts a part stands between characters at which words
end, whatever its own characters are: on one line between a space and the next space or parenthesis,
indented between blanks and a line feed. So names may hold blanks and parentheses, and the marks of a
part are still the same wherever it stands; and a line has the marks of what is written on it
(`scan_line_append`). The induction over terms says so of the indented form in front of any characters
(`scan_pretty_append`). **Main statement.** `Formula.forms?_pretty`.

Both forms are written of terms. For a forest that is the recursion over nodes (`Forest.render_eq`,
`Forest.prettyBelow_eq`).
-/
import WorldModel.Proofs.Formula.Extraction
import WorldModel.Proofs.SExpr.Comments

set_option autoImplicit false

namespace WorldModel

open SExpr

namespace Term

theorem prettyAll_eq (depth : Nat) (ts : List Term) :
    prettyAll depth ts = String.join (ts.map (pretty depth)) := by
  induction ts with
  | nil => rfl
  | cons t ts ih => rw [prettyAll, ih, List.map_cons, String.join_cons]

/-- A closing parenthesis is a mark by itself. -/
theorem scan_append_closing (content : String) :
    scan [] (content ++ ")").toList = scan [] content.toList ++ [.closing] := by
  have chars : (content ++ ")").toList = content.toList ++ [')'] := by simp
  rw [chars, scan_append (closed_cons (by decide) [])]
  rfl

/-! ## On one line -/

/-- What follows the keyword begins with a space, if there is anything. -/
theorem closed_textAll (casing : Casing) (ts : List Term) : Closed (textAll casing ts).toList := by
  cases ts with
  | nil => exact closed_nil
  | cons t ts =>
    have chars : (textAll casing (t :: ts)).toList =
        ' ' :: ((t.text casing).toList ++ (textAll casing ts).toList) := by simp [textAll]
    rw [chars]
    exact closed_cons (by decide) _

/-- **Parts with a space before each** have the marks of one part after the other. -/
theorem scan_textAll (casing : Casing) (ts : List Term) :
    scan [] (textAll casing ts).toList = ts.flatMap fun t => scan [] (t.text casing).toList := by
  induction ts with
  | nil => rfl
  | cons t ts ih =>
    have chars : (textAll casing (t :: ts)).toList =
        ' ' :: ((t.text casing).toList ++ (textAll casing ts).toList) := by simp [textAll]
    rw [chars, scan_nil_cons_of_blank (by decide), scan_append (closed_textAll casing ts), ih,
      List.flatMap_cons]

/-- The marks of a node that is written by its keyword, on one line. -/
theorem scan_text_of_keyword? {k : NodeKind} {word : String} (head : k.keyword? = some word)
    (casing : Casing) (cs : List Term) : scan [] ((node k cs).text casing).toList =
      scan [] ("(" ++ word).toList ++ (cs.flatMap fun c => scan [] (c.text casing).toList) ++
        [.closing] := by
  have written : (node k cs).text casing = "(" ++ word ++ textAll casing cs ++ ")" := by
    simp only [text, head]
  rw [written, scan_append_closing, String.toList_append, scan_append (closed_textAll casing cs),
    scan_textAll]

/-! ## Line by line -/

/-- **A line** has the marks of what is written on it, and what follows is apart from it. -/
theorem scan_line_append (depth : Nat) (content : String) (rest : List Char) :
    scan [] ((indentation depth ++ content ++ "\n").toList ++ rest) =
      scan [] content.toList ++ scan [] rest := by
  have chars : (indentation depth ++ content ++ "\n").toList ++ rest =
      List.replicate (2 * depth) ' ' ++ (content.toList ++ '\n' :: rest) := by
    simp [indentation]
  rw [chars, scan_replicate_append, scan_append_cons_of_blank (by decide)]

/-- A node without parts stands on one line, and with parts on several. -/
theorem pretty_of_keyword? {k : NodeKind} {word : String} (head : k.keyword? = some word)
    (depth : Nat) (cs : List Term) : (node k cs).pretty depth =
      if cs = [] then indentation depth ++ ("(" ++ word ++ ")") ++ "\n"
      else (indentation depth ++ ("(" ++ word) ++ "\n") ++
        (prettyAll (depth + 1) cs ++ (indentation depth ++ ")" ++ "\n")) := by
  have lastLine : ")\n" = ")" ++ "\n" := rfl
  rw [pretty.eq_def]
  cases cs with
  | nil => simp only [head, if_true, lastLine, String.append_assoc]
  | cons c cs =>
    rw [if_neg (List.cons_ne_nil c cs)]
    simp only [prettyAll, head, lastLine, String.append_assoc]

/-- Parts on lines of their own have the marks of one part after the other, if each of them has its
own. -/
theorem scan_prettyAll_append {depth : Nat} {ts : List Term}
    (each : ∀ t ∈ ts, ∀ rest, scan [] ((t.pretty depth).toList ++ rest) =
      scan [] (t.text .asStored).toList ++ scan [] rest) (rest : List Char) :
    scan [] ((prettyAll depth ts).toList ++ rest) =
      (ts.flatMap fun t => scan [] (t.text .asStored).toList) ++ scan [] rest := by
  induction ts with
  | nil => rfl
  | cons t ts ih =>
    obtain ⟨first, later⟩ := List.forall_mem_cons.1 each
    rw [prettyAll, String.toList_append, List.append_assoc, first, ih later, List.flatMap_cons,
      List.append_assoc]

/-- **The indented form has the marks of the form on one line**, whatever follows it. -/
theorem scan_pretty_append (depth : Nat) (t : Term) (rest : List Char) :
    scan [] ((t.pretty depth).toList ++ rest) = scan [] (t.text .asStored).toList ++ scan [] rest := by
  induction t generalizing depth rest with
  | node k cs ih =>
    cases head : k.keyword? with
    | none =>
      have onLine : (node k cs).pretty depth = indentation depth ++ k.leafText .asStored ++ "\n" := by
        simp only [pretty, head]
      rw [onLine, scan_line_append, text, head]
    | some word =>
      rw [scan_text_of_keyword? head, pretty_of_keyword? head]
      split
      · next empty =>
        rw [scan_line_append, scan_append_closing, empty, List.flatMap_nil, List.append_nil]
      · have parts := scan_prettyAll_append fun c mem => ih c mem (depth + 1)
        have lines (first between last : String) : (first ++ (between ++ last)).toList ++ rest =
            first.toList ++ (between.toList ++ (last.toList ++ rest)) := by simp
        rw [lines, scan_line_append, parts, scan_line_append, List.append_assoc, List.append_assoc]
        rfl

theorem scan_pretty (depth : Nat) (t : Term) :
    scan [] (t.pretty depth).toList = scan [] (t.text .asStored).toList := by
  have marked := scan_pretty_append depth t []
  rwa [List.append_nil, scan, flush, List.isEmpty_nil, if_pos rfl, List.append_nil] at marked

end Term

namespace Formula

/-! ## Node by node -/

/-- The indented form of what stands below a node, from a depth on. -/
def prettyBelow (f : Formula) (depth id : Nat) : String :=
  match f.unfold id with
  | some t => t.pretty depth
  | none => ""

theorem pretty_eq (f : Formula) : f.pretty = f.prettyBelow 0 0 :=
  rfl

/-- **A node is indented** as its atom on a line, as its keyword in parentheses on a line, or as its
keyword with its children one level deeper and a parenthesis below them. -/
theorem Forest.prettyBelow_eq {f : Formula} (forest : f.Forest) {id : Nat} {n : Node}
    (found : f.node? id = some n) (depth : Nat) :
    f.prettyBelow depth id = match n.kind.keyword? with
      | none => Term.indentation depth ++ f.render id .asStored ++ "\n"
      | some word =>
        if n.children = [] then Term.indentation depth ++ ("(" ++ word ++ ")") ++ "\n"
        else (Term.indentation depth ++ ("(" ++ word) ++ "\n") ++
          (String.join (n.children.map (f.prettyBelow (depth + 1))) ++
            (Term.indentation depth ++ ")" ++ "\n")) := by
  have below := map_eq_map_unfold (forest.children_inside found) (f.prettyBelow (depth + 1))
    (Term.pretty (depth + 1)) fun c t under => by rw [prettyBelow, under]
  have leaves : n.children.filterMap f.unfold = [] ↔ n.children = [] := by
    rw [← List.length_eq_zero_iff, ← List.length_map (Term.pretty (depth + 1)), ← below,
      List.length_map, List.length_eq_zero_iff]
  rw [prettyBelow, forest.unfold_eq found]
  dsimp only
  cases head : n.kind.keyword? with
  | none =>
    dsimp only
    rw [forest.render_eq found, head]
    simp only [Term.pretty, head]
  | some word =>
    dsimp only
    rw [Term.pretty_of_keyword? head, Term.prettyAll_eq, ← below]
    simp only [leaves]

/-! ## Reading either layout -/

/-- **The two layouts are read alike.** Indented or on one line, a formula has the same tokens but for
their places, and is read as the same forms, or neither is read; whatever its names are and however it
is shaped. -/
theorem forms?_pretty (f : Formula) :
    (tokens f.pretty).map Token.mark = (tokens f.text).map Token.mark ∧
      forms? f.pretty = forms? f.text := by
  have same : scan [] f.pretty.toList = scan [] f.text.toList := by
    rw [pretty_eq, prettyBelow, text, render]
    cases f.unfold 0 with
    | none => rfl
    | some t => exact t.scan_pretty 0
  refine ⟨?_, forms?_congr same⟩
  rw [tokens, tokens, map_mark_tokensFrom, map_mark_tokensFrom, same]

end Formula

end WorldModel
