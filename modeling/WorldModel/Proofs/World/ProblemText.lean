/-
The text of a world.

A world is written line by line, and no word runs from one line into the next: a text of
whole lines is heard as the marks of each of its lines in a row (`Lines`). So if all names in
a world come in as they are written, its text is heard as the marks of the problem with the
contents of the world (`heard_problemText`), under any intake.

Two intakes matter. A world that imports the text prepares it, and with all names words
nothing but the line feed at the end gets lost (`parse_prepared_problemText`). A reader that is
handed the text as it is finds any names in it that are plain (`parse_problemText`).
-/
import WorldModel.Proofs.Problem.Content

set_option autoImplicit false

namespace WorldModel

open SExpr

/-! ## Lines -/

/-- **The text consists of whole lines** that are heard as the marks. -/
structure Lines (i : Intake) (t : String) (ms : List Mark) : Prop extends Heard i t ms where
  ended : Ended (i.chars t)

variable {i : Intake}

theorem Lines.append {a b : String} {ms ns : List Mark} (first : Lines i a ms)
    (second : Lines i b ns) : Lines i (a ++ b) (ms ++ ns) := by
  refine ⟨first.append_ended second.toHeard first.ended, ?_⟩
  rw [i.chars_append]
  exact first.ended.append second.ended

theorem lines_empty : Lines i "" [] :=
  ⟨⟨rfl, rfl⟩, by simp [Ended, Intake.chars]⟩

/-- Lines of which each is heard as some marks are heard as them in a row. -/
theorem lines_join {α : Type} {xs : List α} {text : α → String} {ms : α → List Mark}
    (each : ∀ x ∈ xs, Lines i (text x) (ms x)) :
    Lines i (String.join (xs.map text)) (xs.flatMap ms) := by
  induction xs with
  | nil => exact lines_empty
  | cons x xs ih =>
    obtain ⟨first, later⟩ := List.forall_mem_cons.1 each
    rw [List.map_cons, String.join_cons, List.flatMap_cons]
    exact first.append (ih later)

/-- Blanks are heard as nothing, and no word runs on from them. -/
theorem lines_blanks (n : Nat) : Lines i (String.ofList (List.replicate n ' ')) [] := by
  have blanks : (String.ofList (List.replicate n ' ')).toList = List.replicate n ' ' :=
    String.toList_ofList
  have frame : (String.ofList (List.replicate n ' ')).toList.all isFrame = true := by
    rw [blanks, List.all_replicate]
    simp [show isFrame ' ' = true by decide]
  refine ⟨heard_frame frame ?_, ended_frame frame ?_⟩
  · rw [blanks]
    -- the equations are about the number of blanks at hand, not the one in the induction
    clear blanks frame
    induction n with
    | zero => rfl
    | succ n ih =>
      have single : Ended [' '] := ended_of_getLast? rfl (by decide)
      rw [List.replicate_succ, ← List.singleton_append, scan_append_of_ended single, ih]
      rfl
  · rw [blanks]
    intro c last
    have same := List.eq_of_mem_replicate (List.mem_of_getLast? last)
    rw [same]
    decide

/-- What is put behind a text so that it ends with a line feed has ended. -/
theorem ended_append_feed (t : String) {u : String} (frame : u.toList.all isFrame = true)
    (last : u.toList.getLast? = some '\n') : Ended (i.chars (t ++ u)) := by
  refine ended_of_getLast? (c := '\n') ?_ (by decide)
  rw [i.chars_append, i.chars_of_frame frame, List.getLast?_append, last]
  rfl

/-- **A line** is heard as its text is. -/
theorem lines_line {t : String} {ms : List Mark} (h : Heard i t ms) (s : Settings) (level : Nat) :
    Lines i (s.line level t) ms := by
  have feed : Heard i "\n" [] := heard_frame (by decide) (by decide)
  have closed : Closed (i.chars "\n") := closed_frame (by decide) (closed_cons (by decide) [])
  have margin := lines_blanks (i := i) (level * s.indent)
  have whole := (margin.append_ended h margin.ended).append_closed feed closed
  rw [List.nil_append, List.append_nil] at whole
  exact ⟨whole, ended_append_feed _ (by decide) (by decide)⟩

/-! ## The text of a world -/

/-- What a world has to say in a problem. -/
def World.content (w : World) : Content where
  objects := w.objects.filter fun e => !w.domain.isConstant e
  facts := w.facts
  contingents := w.contingents.filterMap Formula.term?
  fluents := w.fluents
  goal := w.goal.term?

/-- **The contents come in as they are written.** -/
structure Content.Audible (i : Intake) (casing : Casing) (c : Content) : Prop where
  objects : ∀ e ∈ c.objects, i.IsWord e.name
  types : ∀ e ∈ c.objects, i.IsWord e.typeName ∧ casing.apply e.typeName = e.typeName
  facts : ∀ l ∈ c.facts, AtomAudible i casing l.name l.args
  contingents : ∀ t ∈ c.contingents, ∀ k ∈ t.kinds, k.Audible i casing
  fluents : ∀ f ∈ c.fluents, AtomAudible i casing f.name f.args
  goal : ∀ t ∈ c.goal, ∀ k ∈ t.kinds, k.Audible i casing

/-- Contents of words come in as they are written where a text is lower-cased. -/
theorem Content.Readable.audible {c : Content} (words : c.Readable Word) :
    c.Audible .lowering .lower where
  objects e mem := Intake.isWord_lowering (words.objects e mem).name
  types e mem := by
    have type : Word e.typeName := by
      rcases (words.objects e mem).type with word | root
      · exact word
      · rw [show e.typeName = "object" from root]
        exact word_of_isSmallWord rfl
    exact ⟨Intake.isWord_lowering type, type.lower_eq⟩
  facts l mem := atomAudible_lowering (words.facts l mem).words
  contingents t mem k inside := ((words.contingents t mem).ofWords k inside).audible
  fluents f mem := atomAudible_lowering (words.fluents f mem)
  goal t mem k inside := ((words.goal t mem).ofWords k inside).audible

namespace World

open Reader (objectForms)

variable {w : World}

/-- Contingent facts are written as the terms they have. -/
theorem map_render_contingents (whole : ∀ f ∈ w.contingents, f.isEmpty = false)
    {casing : Casing} {β : Type} (g : String → β) :
    w.contingents.map (fun f => g (f.render 0 casing)) =
      w.content.contingents.map fun t => g (t.text casing) := by
  have shown : ∀ f ∈ w.contingents,
      some (g (f.render 0 casing)) = f.term?.map fun t => g (t.text casing) := by
    intro f mem
    have nonempty := whole f mem
    cases term : f.term? with
    | none =>
      rw [Formula.term?_eq_none_iff.1 term] at nonempty
      cases nonempty
    | some t =>
      rw [Formula.term?] at term
      rw [Formula.render, term]
      rfl
  rw [content, List.map_filterMap, ← List.filterMap_eq_map]
  exact List.filterMap_congr shown

section Sections

variable {s : Settings} (audible : w.content.Audible i s.casing)
include audible

theorem lines_objectLines :
    Lines i (String.join (w.objectLines s)) ((objectForms w.content.objects).flatMap marks) := by
  have dash : Heard i " - " [.word "-"] := heard_frame (by decide) (by decide)
  have apart : Closed (i.chars " - ") :=
    closed_frame (by decide) (closed_cons (c := ' ') (by decide) _)
  have ended : Ended (i.chars " - ") :=
    ended_frame (by decide) (ended_of_getLast? (c := ' ') (by decide) (by decide))
  have each : ∀ e ∈ w.content.objects,
      Lines i (s.line 2 (e.name ++ " - " ++ s.casing.apply e.typeName))
        ([.word e.name, .word "-", .word e.typeName].flatMap marks) := by
    intro e mem
    obtain ⟨type, written⟩ := audible.types e mem
    -- a dash with spaces on both sides is a word of its own
    have typed := dash.append_ended (heard_word type) ended
    have closed := closed_chars_append e.typeName apart (List.cons_ne_nil _ _)
    rw [written, String.append_assoc]
    exact lines_line ((heard_word (audible.objects e mem)).append_closed typed closed) s 2
  have whole := lines_join each
  rwa [← List.flatMap_assoc] at whole

theorem lines_initLines (whole : ∀ f ∈ w.contingents, f.isEmpty = false)
    {number : Float → String} (values : ∀ f ∈ w.fluents,
      Heard i (Number.write f.value) [.word (number f.value)]) :
    Lines i (String.join (w.initLines s)) ((w.content.initForms number).flatMap marks) := by
  have facts : ∀ l ∈ w.facts, Lines i (s.line 2 (l.text s.casing)) (marks l.form) :=
    fun l mem => lines_line (heard_literal (audible.facts l mem)) s 2
  have contingents : ∀ t ∈ w.content.contingents,
      Lines i (s.line 2 (t.text s.casing)) (marks t.form) :=
    fun t mem => lines_line (Term.heard_term (audible.contingents t mem)) s 2
  have fluents : ∀ f ∈ w.fluents,
      Lines i (s.line 2 (f.text s.casing)) (marks (f.form (number f.value))) :=
    fun f mem => lines_line (heard_fluent (audible.fluents f mem) (values f mem)) s 2
  -- contingent facts stand between the facts and the fluents
  have all := ((lines_join facts).append (lines_join contingents)).append (lines_join fluents)
  rw [initLines, map_render_contingents whole, String.join_append, String.join_append]
  rw [Content.initForms, List.flatMap_append, List.flatMap_append, List.flatMap_map,
    List.flatMap_map, List.flatMap_map]
  exact all

theorem lines_goalLine : Lines i (w.goalLine s)
    ((w.content.goal.map Term.form).toList.flatMap fun g =>
      marks (.list [.word ":goal", g])) := by
  rw [goalLine]
  cases term : w.goal.term? with
  | none =>
    rw [if_pos (Formula.term?_eq_none_iff.1 term), content, term]
    exact lines_empty
  | some t =>
    have nonempty : w.goal.isEmpty = false := by
      rw [← Bool.not_eq_true, ← Formula.term?_eq_none_iff, term]
      exact Option.some_ne_none t
    have text : w.goal.render 0 s.casing = t.text s.casing := by
      rw [Formula.term?] at term
      rw [Formula.render, term]
    have spaced := (Term.heard_term (audible.goal t term)).spaced
    have list : Heard i ("(" ++ ":goal" ++ (" " ++ t.text s.casing) ++ ")")
        (marks (.list [.word ":goal", t.form])) :=
      heard_list (Intake.isWord_of_isSmallWord rfl) (by simpa [marksAll] using spaced)
        (closed_spaced _)
    rw [← String.append_assoc] at list
    rw [nonempty, if_neg Bool.false_ne_true, text, content, term]
    simpa using lines_line list s 1

end Sections

theorem lines_header {name : String} (word : i.IsWord name) :
    Lines i ("(define (problem " ++ name ++ ")\n")
      [.opening, .word "define", .opening, .word "problem", .word name, .closing] := by
  have start : Heard i "(define (problem "
      [.opening, .word "define", .opening, .word "problem"] :=
    heard_frame (by decide) (by decide +kernel)
  have endedStart : Ended (i.chars "(define (problem ") :=
    ended_frame (by decide) (ended_of_getLast? (c := ' ') (by decide) (by decide))
  have stop : Heard i ")\n" [.closing] := heard_frame (by decide) (by decide)
  have closedStop : Closed (i.chars ")\n") :=
    closed_frame (by decide) (closed_cons (c := ')') (by decide) _)
  exact ⟨(start.append_ended (heard_word word) endedStart).append_closed stop closedStop,
    ended_append_feed _ (by decide) (by decide)⟩

theorem append_stop (t : String) : t ++ ")" ++ "\n" = t ++ ")\n" := by
  rw [String.append_assoc]
  rfl

/-- **A world whose names come in as they are written** is heard as the form of its
contents, up to the line feed at the end of its text. -/
theorem heard_problemText {s : Settings} (audible : w.content.Audible i s.casing)
    (domain : i.IsWord w.domain.name) (whole : ∀ f ∈ w.contingents, f.isEmpty = false)
    (name : i.IsWord s.problemName) (number : Float → String)
    (values : ∀ f ∈ w.fluents, Heard i (Number.write f.value) [.word (number f.value)]) :
    ∃ body, w.problemText s = body ++ "\n" ∧
      Heard i body (marks (w.content.form number s.problemName w.domain.name)) := by
  have domainOf : Heard i ("(" ++ ":domain" ++ (" " ++ w.domain.name) ++ ")")
      (marks (.list [.word ":domain", .word w.domain.name])) :=
    heard_list (Intake.isWord_of_isSmallWord rfl) (heard_word domain).spaced (closed_spaced _)
  rw [← String.append_assoc] at domainOf
  have listed : Heard i "(:objects" [.opening, .word ":objects"] :=
    heard_frame (by decide) (by decide +kernel)
  have state : Heard i "(:init" [.opening, .word ":init"] :=
    heard_frame (by decide) (by decide +kernel)
  -- line by line from the top, down to the parenthesis that closes the problem
  have lines := (lines_header name).append (lines_line domainOf s 1)
  have lines := (lines.append (lines_line listed s 1)).append (lines_objectLines audible)
  have lines := (lines.append (lines_line heard_closing s 1)).append (lines_line state s 1)
  have lines := (lines.append (lines_initLines audible whole values)).append
    (lines_line heard_closing s 1)
  have lines := lines.append (lines_goalLine audible)
  have body := lines.append_closed heard_closing closed_closing
  refine ⟨_, ?_, body.admitted, body.scan_eq.trans ?_⟩
  · unfold problemText
    exact (append_stop _).symm
  · simp [Content.form, Reader.problemForm, marks, marksAll, marksAll_eq, List.flatMap_map]

/-- **What the text of a world is read as**, as it is. -/
theorem parse_problemText {s : Settings} (audible : w.content.Audible .raw s.casing)
    (domain : Intake.raw.IsWord w.domain.name) (whole : ∀ f ∈ w.contingents, f.isEmpty = false)
    (name : Intake.raw.IsWord s.problemName) :
    ∃ sx, SExpr.parse (w.problemText s) = .ok [sx] ∧
      sx.form = w.content.form Number.write s.problemName w.domain.name := by
  obtain ⟨body, text, _, scanned⟩ := heard_problemText audible domain whole name Number.write
    fun f _ => heard_number_raw f.value
  have raw : Intake.raw.chars body = body.toList := List.map_id _
  refine parse_of_scan_one ?_
  -- the line feed at the end has no mark
  have feed : Closed "\n".toList := closed_cons (c := '\n') (by decide) []
  rw [text, String.toList_append, scan_append feed, ← raw, scanned]
  exact List.append_nil _

/-- **What the text of a world is read as**, once it has been prepared. -/
theorem parse_prepared_problemText (words : w.content.Readable Word)
    (domain : Word w.domain.name) (whole : ∀ f ∈ w.contingents, f.isEmpty = false) {s : Settings}
    (casing : s.casing = .lower) (name : Word s.problemName) :
    ∃ sx, SExpr.parse (prepared (w.problemText s)) = .ok [sx] ∧
      sx.form = w.content.form (fun x => Text.lower (Number.write x)) s.problemName
        w.domain.name := by
  have audible : w.content.Audible .lowering s.casing := casing ▸ words.audible
  obtain ⟨body, text, plain, scanned⟩ := heard_problemText audible
    (Intake.isWord_lowering domain) whole (Intake.isWord_lowering name)
    (fun x => Text.lower (Number.write x)) fun f _ => heard_number_lowering f.value
  have each : ∀ c ∈ body.toList, c ≠ ';' ∧ c ≠ '\r' ∧ c ≠ 'Σ' ∧ c ≠ 'İ' := by
    intro c mem
    have here := List.all_eq_true.1 plain c mem
    simpa [Intake.lowering, isPlain, and_assoc] using here
  -- nothing but the line feed at the end gets lost
  have lower : Text.lower (w.problemText s) =
      String.ofList (Intake.lowering.chars body ++ ['\n']) := by
    have settled : ∀ c ∈ (w.problemText s).toList, c ≠ 'Σ' ∧ c ≠ 'İ' := by
      rw [text, String.toList_append]
      refine List.forall_mem_append.2 ⟨fun c mem => (each c mem).2.2, ?_⟩
      exact List.forall_mem_singleton.2 ⟨by decide, by decide⟩
    rw [Text.lower, Text.lowerAfter_eq_map [] settled, text, String.toList_append,
      List.map_append]
    rfl
  have cut : prepared (w.problemText s) = String.ofList (Intake.lowering.chars body) := by
    rw [prepared, lower]
    refine removeComments_lines fun c mem => ?_
    obtain ⟨b, inside, rfl⟩ := List.mem_map.1 mem
    obtain ⟨noSemicolon, noReturn, _⟩ := each b inside
    exact ⟨fun same => noSemicolon ((Text.lowerSimple_eq_iff (by decide)).1 same),
      fun same => noReturn ((Text.lowerSimple_eq_iff (by decide)).1 same)⟩
  refine parse_of_scan_one ?_
  rw [cut, String.toList_ofList, scanned]

end World

end WorldModel
