/-
The words of a problem text as a world hands it to a grammar.

The text is lower-cased and cut at its semicolons first. So the words that a grammar finds
in it are made of settled characters, none of which is blank, a parenthesis or a semicolon
(`Word`, `over_of_prepared`), and a domain finds them under the spelling they have
(`fold_word`). A text that is made of such characters and blanks only goes through the
preparation as it is, up to the line feed at its end (`removeComments_lines`).
-/
import Mathlib.Data.List.TakeWhile
import WorldModel.Proofs.SExpr.Scan
import WorldModel.Proofs.Text.LowerCase
import WorldModel.World.Import

set_option autoImplicit false

namespace WorldModel

/-! ## Words -/

/-- A character of a word. -/
structure WordChar (c : Char) : Prop where
  inside : ¬ SExpr.Separates c
  ne_semicolon : c ≠ ';'
  lower : Text.IsLower c

/-- **A word of a prepared text.** -/
structure Word (t : String) : Prop where
  nonempty : t ≠ ""
  chars : ∀ c ∈ t.toList, WordChar c

/-- An ASCII text of small letters, digits and signs is seen to be a word. -/
def isSmallWord (t : String) : Bool :=
  !t.toList.isEmpty &&
    t.toList.all fun c => Text.isSmall c && !decide (SExpr.Separates c) && c != ';'

theorem word_of_isSmallWord {t : String} (small : isSmallWord t = true) : Word t := by
  simp only [isSmallWord, Bool.and_eq_true, Bool.not_eq_true', List.all_eq_true, bne_iff_ne,
    decide_eq_false_iff_not] at small
  refine ⟨?_, fun c mem => ?_⟩
  · rintro rfl
    exact absurd small.1 (by decide)
  · obtain ⟨⟨settled, inside⟩, before⟩ := small.2 c mem
    exact ⟨inside, before, Text.isLower_of_isSmall settled⟩

theorem Word.toList_ne_nil {t : String} (h : Word t) : t.toList ≠ [] := by
  simpa using h.nonempty

theorem Word.lower_eq {t : String} (h : Word t) : Text.lower t = t :=
  Text.lower_of_allLower fun c mem => (h.chars c mem).lower

theorem Word.isBlank_eq_false {t : String} (h : Word t) {c : Char} (mem : c ∈ t.toList) :
    Text.isBlank c = false := by
  have inside := (h.chars c mem).inside
  rw [SExpr.Separates, not_or, not_or] at inside
  simpa using inside.2.2

/-- **A word is its own spelling.** -/
theorem fold_word {t : String} (h : Word t) : fold t = t := by
  have trimmed : Text.trim t = t := by
    rw [Text.trim, Text.trimChars_of_ends, String.ofList_toList]
    · exact fun c head => h.isBlank_eq_false (List.mem_of_head? head)
    · exact fun c last => h.isBlank_eq_false (List.mem_of_getLast? last)
  rw [fold, trimmed, h.lower_eq]

theorem isAllBlank_word {t : String} (h : Word t) : Text.isAllBlank t = false := by
  obtain ⟨c, mem⟩ := List.exists_mem_of_ne_nil _ h.toList_ne_nil
  rw [Text.isAllBlank, List.all_eq_false]
  exact ⟨c, mem, by simp [h.isBlank_eq_false mem]⟩

/-- A domain spells the words it declares as they are. -/
theorem Domain.spellPredicate_word (d : Domain) {name : String} (h : Word name) :
    d.spellPredicate name = name := by
  rw [spellPredicate]
  split
  · next s declared =>
    obtain ⟨types, _, rfl⟩ := Option.map_eq_some_iff.1 declared
    exact fold_word h
  · rfl

theorem Domain.spellFunction_word (d : Domain) {name : String} (h : Word name) :
    d.spellFunction name = name := by
  rw [spellFunction]
  split
  · next s declared =>
    obtain ⟨types, _, rfl⟩ := Option.map_eq_some_iff.1 declared
    exact fold_word h
  · rfl

namespace SExpr

/-! ## Lines -/

/-- The lines of a text are made of its characters. -/
theorem mem_of_mem_linesFrom {reversed cs line : List Char} (mem : line ∈ linesFrom reversed cs)
    {c : Char} (inside : c ∈ line) : c ∈ reversed ∨ c ∈ cs := by
  induction cs generalizing reversed with
  | nil =>
    rw [linesFrom] at mem
    split at mem
    · cases mem
    · rw [List.mem_singleton.1 mem] at inside
      exact .inl (List.mem_reverse.1 inside)
  | cons d cs ih =>
    rw [linesFrom] at mem
    split at mem
    · rcases List.mem_cons.1 mem with rfl | mem
      · -- the line that ends here, without the carriage return at its end
        refine .inl ?_
        split at inside
        · exact List.mem_of_mem_tail (List.mem_reverse.1 inside)
        · exact List.mem_reverse.1 inside
      · rcases ih mem with none_ | later
        · cases none_
        · exact .inr (List.mem_cons_of_mem d later)
    · -- the line goes on with the character, which is no longer ahead
      rcases ih mem with first | later
      · rcases List.mem_cons.1 first with rfl | begun
        · exact .inr List.mem_cons_self
        · exact .inl begun
      · exact .inr (List.mem_cons_of_mem d later)

/-- What is put between lines or stands in one of them. -/
theorem mem_intercalate {sep : List Char} {lines : List (List Char)} {c : Char}
    (mem : c ∈ List.intercalate sep lines) : c ∈ sep ∨ ∃ line ∈ lines, c ∈ line := by
  induction lines with
  | nil => cases mem
  | cons line lines ih =>
    by_cases last : lines = []
    · rw [last, List.intercalate_singleton] at mem
      exact .inr ⟨line, List.mem_cons_self, mem⟩
    · rw [List.intercalate_cons_of_ne_nil last] at mem
      rcases List.mem_append.1 mem with here | mem
      · rcases List.mem_append.1 here with here | between
        · exact .inr ⟨line, List.mem_cons_self, here⟩
        · exact .inl between
      · rcases ih mem with between | ⟨other, inside, here⟩
        · exact .inl between
        · exact .inr ⟨other, List.mem_cons_of_mem line inside, here⟩

/-- **The characters of a text without comments** are line feeds, or characters of the text
other than semicolons. -/
theorem mem_removeComments {s : String} {c : Char} (mem : c ∈ (removeComments s).toList) :
    c = '\n' ∨ c ∈ s.toList ∧ c ≠ ';' := by
  rw [removeComments, String.toList_ofList] at mem
  rcases mem_intercalate mem with feed | ⟨cut, inside, here⟩
  · exact .inl (List.mem_singleton.1 feed)
  · obtain ⟨line, mem, rfl⟩ := List.mem_map.1 inside
    have before : c ≠ ';' := by simpa using List.mem_takeWhile_imp here
    rcases mem_of_mem_linesFrom mem (List.takeWhile_subset _ here) with none_ | there
    · cases none_
    · exact .inr ⟨there, before⟩

theorem linesFrom_append_ne_nil (reversed cs : List Char) :
    linesFrom reversed (cs ++ ['\n']) ≠ [] := by
  induction cs generalizing reversed with
  | nil => simp [linesFrom]
  | cons c cs ih =>
    rw [List.cons_append, linesFrom]
    split
    · exact List.cons_ne_nil _ _
    · exact ih _

/-- **The lines of a text without carriage returns**, joined again, are the text without the
line feed at its end. -/
theorem intercalate_linesFrom {reversed cs : List Char} (begun : ∀ c ∈ reversed, c ≠ '\r')
    (plain : ∀ c ∈ cs, c ≠ '\r') :
    List.intercalate ['\n'] (linesFrom reversed (cs ++ ['\n'])) = reversed.reverse ++ cs := by
  have head : ∀ reversed : List Char, (∀ c ∈ reversed, c ≠ '\r') → reversed.head? ≠ some '\r' :=
    fun reversed begun same => begun _ (List.mem_of_head? same) rfl
  induction cs generalizing reversed with
  | nil => simp [linesFrom, head reversed begun]
  | cons c cs ih =>
    obtain ⟨first, later⟩ := List.forall_mem_cons.1 plain
    rw [List.cons_append, linesFrom]
    split
    · next feed =>
      dsimp only
      rw [if_neg (head reversed begun),
        List.intercalate_cons_of_ne_nil (linesFrom_append_ne_nil [] cs), ih (by simp) later, feed]
      simp
    · rw [ih (List.forall_mem_cons.2 ⟨first, begun⟩) later, List.reverse_cons, List.append_assoc,
        List.singleton_append]

/-- **A text without semicolons and carriage returns** loses the line feed at its end. -/
theorem removeComments_lines {cs : List Char} (plain : ∀ c ∈ cs, c ≠ ';' ∧ c ≠ '\r') :
    removeComments (String.ofList (cs ++ ['\n'])) = String.ofList cs := by
  have whole : ∀ line ∈ linesFrom [] (cs ++ ['\n']), line.takeWhile (· != ';') = id line := by
    intro line mem
    refine List.takeWhile_eq_self_iff.2 fun c inside => ?_
    rcases mem_of_mem_linesFrom mem inside with none_ | there
    · cases none_
    · rcases List.mem_append.1 there with there | last
      · simpa using (plain c there).1
      · rw [List.mem_singleton.1 last]
        decide
  rw [removeComments, String.toList_ofList, List.map_congr_left whole, List.map_id,
    intercalate_linesFrom (by simp) fun c mem => (plain c mem).2]
  rfl

end SExpr

/-! ## Prepared texts -/

/-- **The words of a prepared text** are words. -/
theorem over_of_prepared {s : String} {forms : List SExpr}
    (parsed : SExpr.parse (World.prepared s) = .ok forms) : ∀ sx ∈ forms, sx.form.Over Word := by
  have chars : ∀ c ∈ (World.prepared s).toList, ¬ SExpr.Separates c → WordChar c := by
    intro c mem inside
    rcases SExpr.mem_removeComments mem with rfl | ⟨there, before⟩
    · exact absurd (.inr (.inr (by decide))) inside
    · exact ⟨inside, before, Text.allLower_lower s c there⟩
  have whole := SExpr.over_of_parse chars parsed
  exact fun sx mem => (whole sx mem).imp fun t word => ⟨word.1, word.2⟩

end WorldModel
