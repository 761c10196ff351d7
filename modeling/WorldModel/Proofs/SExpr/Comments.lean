/-
Comments are blanks.

Comments are removed by taking a text apart into lines, cutting every line at its first semicolon and
joining what is left. Carriage returns and the last line feed get lost on the way. None of this is seen
in what is read: it is the same as if every comment had been overwritten with spaces, character by
character (`blankComments`).

The marks of both texts are compared, for a text is read by its marks alone (`forms?_congr`). On one side
they are those of the cut lines in a row, since no word goes on over a line feed (`scan_intercalate`); on
the other a line has the marks of what stands before its first semicolon (`scan_blankFrom_of_line`). The
induction follows the lines as they are cut, with the line that has begun carried along
(`flatMap_linesFrom`). **Main statement.** `forms?_removeComments`.
-/
import Mathlib.Data.List.TakeWhile
import WorldModel.Proofs.SExpr.Scan

set_option autoImplicit false

namespace WorldModel.SExpr

/-! ## Texts with blanked comments -/

/-- The characters with a space for each one of a comment; `inside` says whether a comment has begun. -/
def blankFrom (inside : Bool) : List Char → List Char
  | [] => []
  | c :: cs =>
    if c = '\n' then '\n' :: blankFrom false cs
    else if inside || c = ';' then ' ' :: blankFrom true cs
    else c :: blankFrom false cs

/-- **The text with its comments blanked**: every character from a semicolon up to the end of the line
is a space. -/
def blankComments (s : String) : String :=
  String.ofList (blankFrom false s.toList)

/-- Characters are blanked one after the other: of what stands before, only whether a comment has begun
bears on what comes behind. -/
theorem exists_blankFrom_append (inside : Bool) (cs : List Char) :
    ∃ begun, ∀ ds, blankFrom inside (cs ++ ds) = blankFrom inside cs ++ blankFrom begun ds := by
  induction cs generalizing inside with
  | nil => exact ⟨inside, fun _ => rfl⟩
  | cons c cs ih =>
    -- a line feed ends a comment and a semicolon begins one; any other character leaves it at that
    by_cases feed : c = '\n'
    · obtain ⟨begun, later⟩ := ih false
      refine ⟨begun, fun ds => ?_⟩
      rw [List.cons_append, blankFrom, blankFrom, if_pos feed, if_pos feed, later, List.cons_append]
    by_cases comment : (inside || c = ';') = true
    · obtain ⟨begun, later⟩ := ih true
      refine ⟨begun, fun ds => ?_⟩
      rw [List.cons_append, blankFrom, blankFrom, if_neg feed, if_neg feed, if_pos comment,
        if_pos comment, later, List.cons_append]
    · obtain ⟨begun, later⟩ := ih false
      refine ⟨begun, fun ds => ?_⟩
      rw [List.cons_append, blankFrom, blankFrom, if_neg feed, if_neg feed, if_neg comment,
        if_neg comment, later, List.cons_append]

/-- A comment ends with its line. -/
theorem blankFrom_append_feed (inside : Bool) (cs ds : List Char) :
    blankFrom inside (cs ++ '\n' :: ds) = blankFrom inside cs ++ '\n' :: blankFrom false ds := by
  obtain ⟨begun, append⟩ := exists_blankFrom_append inside cs
  rw [append, blankFrom, if_pos rfl]

/-- Behind a semicolon there are spaces as far as the line goes. -/
theorem blankFrom_true_append {line : List Char} (noFeed : '\n' ∉ line) (ds : List Char) :
    blankFrom true (line ++ ds) = List.replicate line.length ' ' ++ blankFrom true ds := by
  induction line with
  | nil => rfl
  | cons c line ih =>
    rw [List.mem_cons, not_or] at noFeed
    rw [List.cons_append, blankFrom, if_neg (Ne.symm noFeed.1), Bool.true_or, if_pos rfl,
      ih noFeed.2, List.length_cons, List.replicate_succ, List.cons_append]

/-- **A line with its comment blanked** is what stands before the comment, and spaces. -/
theorem exists_blankFrom_of_line {line : List Char} (noFeed : '\n' ∉ line) :
    ∃ n, blankFrom false line = line.takeWhile (· != ';') ++ List.replicate n ' ' := by
  induction line with
  | nil => exact ⟨0, rfl⟩
  | cons c line ih =>
    rw [List.mem_cons, not_or] at noFeed
    rw [blankFrom, if_neg (Ne.symm noFeed.1), Bool.false_or]
    by_cases semicolon : c = ';'
    · have spaces := blankFrom_true_append noFeed.2 []
      rw [List.append_nil, blankFrom, List.append_nil] at spaces
      refine ⟨line.length + 1, ?_⟩
      rw [semicolon, if_pos (by decide), List.takeWhile_cons_of_neg (by decide), spaces]
      rfl
    · obtain ⟨n, rest⟩ := ih noFeed.2
      refine ⟨n, ?_⟩
      rw [if_neg (by simpa using semicolon), List.takeWhile_cons_of_pos (by simpa using semicolon),
        rest, List.cons_append]

/-! ## Blanks have no marks -/

theorem scan_replicate_append (n : Nat) (ds : List Char) :
    scan [] (List.replicate n ' ' ++ ds) = scan [] ds := by
  induction n with
  | zero => rfl
  | succ n ih =>
    rw [List.replicate_succ, List.cons_append, scan_nil_cons_of_blank (by decide), ih]

/-- Spaces at the end have no marks. -/
theorem scan_append_replicate (cs : List Char) (n : Nat) :
    scan [] (cs ++ List.replicate n ' ') = scan [] cs := by
  cases n with
  | zero => rw [List.replicate_zero, List.append_nil]
  | succ n =>
    have none_ := scan_replicate_append n []
    rw [List.append_nil] at none_
    rw [List.replicate_succ, scan_append_cons_of_blank (by decide), none_]
    exact List.append_nil _

/-- **The marks of joined lines** are those of one line after the other. -/
theorem scan_intercalate (lines : List (List Char)) :
    scan [] (List.intercalate ['\n'] lines) = lines.flatMap (scan []) := by
  induction lines with
  | nil => rfl
  | cons line lines ih =>
    by_cases last : lines = []
    · rw [last, List.intercalate_singleton, List.flatMap_singleton]
    · rw [List.intercalate_cons_of_ne_nil last, List.append_assoc, List.singleton_append,
        scan_append_cons_of_blank (by decide), ih, List.flatMap_cons]

/-! ## Line by line -/

/-- The marks of a line without its comment. -/
def lineMarks (line : List Char) : List Mark :=
  scan [] (line.takeWhile (· != ';'))

theorem scan_blankFrom_of_line {line : List Char} (noFeed : '\n' ∉ line) :
    scan [] (blankFrom false line) = lineMarks line := by
  obtain ⟨n, blanked⟩ := exists_blankFrom_of_line noFeed
  rw [blanked, scan_append_replicate, lineMarks]

/-- A carriage return at the end of a line is no part of its marks, in a comment or not. -/
theorem lineMarks_concat_return (line : List Char) : lineMarks (line ++ ['\r']) = lineMarks line := by
  by_cases whole : ∀ c ∈ line, (c != ';') = true
  · -- no comment: the carriage return is kept, and it is a blank
    rw [lineMarks, lineMarks, List.takeWhile_append_of_pos whole, List.takeWhile_eq_self_iff.2 whole]
    exact (scan_append_cons_of_blank (by decide) line []).trans (List.append_nil _)
  · -- it stands in the comment and is cut off with it
    have cut : (line ++ ['\r']).takeWhile (· != ';') = line.takeWhile (· != ';') := by
      rw [List.takeWhile_append, if_neg]
      intro all
      exact whole (List.takeWhile_eq_self_iff.1 ((List.takeWhile_prefix _).eq_of_length all))
    rw [lineMarks, cut, lineMarks]

/-- **The lines of a text** have the marks that the text has with its comments blanked. -/
theorem flatMap_linesFrom {reversed : List Char} (noFeed : '\n' ∉ reversed) (cs : List Char) :
    (linesFrom reversed cs).flatMap lineMarks = scan [] (blankFrom false (reversed.reverse ++ cs)) := by
  have begun : '\n' ∉ reversed.reverse := by rwa [List.mem_reverse]
  induction cs generalizing reversed with
  | nil =>
    rw [linesFrom, List.append_nil, scan_blankFrom_of_line begun]
    -- what follows the last line feed is no line if there is nothing, and has no marks then
    split
    · next empty => rw [List.isEmpty_iff.1 empty]; rfl
    · exact List.flatMap_singleton _ _
  | cons c cs ih =>
    rw [linesFrom]
    by_cases feed : c = '\n'
    · -- the line ends, with or without a carriage return, and the next one begins
      have line : lineMarks (if reversed.head? = some '\r' then reversed.tail else reversed).reverse =
          lineMarks reversed.reverse := by
        split
        · next last =>
          obtain ⟨before, rfl⟩ := List.head?_eq_some_iff.1 last
          rw [List.tail_cons, List.reverse_cons, lineMarks_concat_return]
        · rfl
      have rest := ih (List.not_mem_nil (a := '\n')) List.not_mem_nil
      rw [if_pos feed, feed, blankFrom_append_feed, scan_append_cons_of_blank (by decide),
        scan_blankFrom_of_line begun, List.flatMap_cons, line, rest]
      rfl
    · rw [if_neg feed, ih (by simp [Ne.symm feed, noFeed]) (by simp [Ne.symm feed, noFeed]),
        List.reverse_cons, List.append_assoc, List.singleton_append]

/-- **Without comments a text has the marks** that it has with its comments blanked. -/
theorem scan_removeComments (s : String) :
    scan [] (removeComments s).toList = scan [] (blankComments s).toList := by
  rw [removeComments, String.toList_ofList, scan_intercalate, List.flatMap_map, blankComments,
    String.toList_ofList]
  exact flatMap_linesFrom List.not_mem_nil s.toList

/-! ## What a comment says -/

/-- A comment has no marks, whatever stands in it. -/
theorem scan_blankFrom_comment {comment : List Char} (noFeed : '\n' ∉ comment)
    (before behind : List Char) : scan [] (blankFrom false (before ++ ';' :: comment ++ behind)) =
      scan [] (blankFrom false before) ++ scan [] (blankFrom true behind) := by
  obtain ⟨begun, append⟩ := exists_blankFrom_append false before
  have semicolon : blankFrom begun (';' :: (comment ++ behind)) =
      ' ' :: blankFrom true (comment ++ behind) := by
    rw [blankFrom, if_neg (by decide), if_pos (by simp)]
  rw [List.append_assoc, List.cons_append, append, semicolon, scan_append_cons_of_blank (by decide),
    blankFrom_true_append noFeed, scan_replicate_append]

/-- The marks of a text around a comment do not depend on the comment. -/
theorem scan_removeComments_comment {comment : String} (noFeed : '\n' ∉ comment.toList)
    (before behind : String) :
    scan [] (removeComments (before ++ ";" ++ comment ++ behind)).toList =
      scan [] (blankFrom false before.toList) ++ scan [] (blankFrom true behind.toList) := by
  have chars : (before ++ ";" ++ comment ++ behind).toList =
      before.toList ++ ';' :: comment.toList ++ behind.toList := by simp
  rw [scan_removeComments, blankComments, String.toList_ofList, chars, scan_blankFrom_comment noFeed]

/-- Every line has its own marks. -/
theorem scan_removeComments_feed (first second : String) :
    scan [] (removeComments (first ++ "\n" ++ second)).toList =
      scan [] (removeComments first).toList ++ scan [] (removeComments second).toList := by
  have chars : (first ++ "\n" ++ second).toList = first.toList ++ '\n' :: second.toList := by simp
  simp only [scan_removeComments, blankComments, String.toList_ofList]
  rw [chars, blankFrom_append_feed, scan_append_cons_of_blank (by decide)]

/-- **Comments are blanks.** A text without its comments is read as the text with its comments blanked,
or neither is read. So what a comment says does not matter, also where no line feed ends it; and words of
different lines stay apart, since the tokens of one line after the other are those of the lines in a
row. -/
theorem forms?_removeComments :
    (∀ s, forms? (removeComments s) = forms? (blankComments s)) ∧
      (∀ before comment other behind : String, '\n' ∉ comment.toList → '\n' ∉ other.toList →
        forms? (removeComments (before ++ ";" ++ comment ++ behind)) =
          forms? (removeComments (before ++ ";" ++ other ++ behind))) ∧
      ∀ first second : String,
        (tokens (removeComments (first ++ "\n" ++ second))).map Token.mark =
          (tokens (removeComments first)).map Token.mark ++
            (tokens (removeComments second)).map Token.mark := by
  refine ⟨fun s => forms?_congr (scan_removeComments s), ?_, ?_⟩
  · intro before comment other behind noFeed noFeed'
    apply forms?_congr
    rw [scan_removeComments_comment noFeed, scan_removeComments_comment noFeed']
  · intro first second
    simp only [tokens, map_mark_tokensFrom]
    exact scan_removeComments_feed first second

/-- A comment with a parenthesis in it, in a text whose lines end with carriage returns. -/
theorem forms?_removeComments_paren :
    '\n' ∉ " left) of\r".toList ∧ '\n' ∉ "\r".toList ∧
      forms? (removeComments ("(at r k " ++ ";" ++ " left) of\r" ++ "\n it)\r")) =
        forms? (removeComments ("(at r k " ++ ";" ++ "\r" ++ "\n it)\r")) := by
  have comment : '\n' ∉ " left) of\r".toList := by decide
  have other : '\n' ∉ "\r".toList := by decide
  exact ⟨comment, other,
    forms?_removeComments.2.1 "(at r k " " left) of\r" "\r" "\n it)\r" comment other⟩

example : forms? (removeComments "(at r ;)\r\n k)\r") =
    some [.list [.word "at", .word "r", .word "k"]] := by
  cbv

end WorldModel.SExpr
