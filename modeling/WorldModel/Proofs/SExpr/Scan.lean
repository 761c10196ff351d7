/-
Which expressions a text stands for, without their places.

The tokens of a text without their places are its marks, and they are found by a scan
that counts no bytes (`map_mark_tokensFrom`). The marks of a form are those of its written
form, and tokens with these marks are put together to an expression of that form
(`assemble_marks`). So to know what a text is read as it is enough to know its marks
(`parse_of_scan`), and texts with the same marks are read alike or not at all (`forms?_congr`).

Cutting a text is compositional where words cannot run into each other: if the first piece of
a text ends with a parenthesis or a blank, or the second begins with one, then the tokens of
both are the tokens of one after the other (`tokensFrom_append`, `tokensFrom_append_of_ended`),
and so are the marks.
-/
import WorldModel.Proofs.SExpr.Form
import WorldModel.SExpr.Parser

set_option autoImplicit false

namespace WorldModel.SExpr

/-! ## Marks -/

/-- A token without its place. -/
inductive Mark where
  | opening
  | closing
  | word (text : String)
deriving DecidableEq

/-- The mark of a token. -/
def Token.mark : Token → Mark
  | opening _ => .opening
  | closing _ => .closing
  | word text _ => .word text

/-- The mark of the word whose characters in reverse are given; none if there are none. -/
def flush (reversed : List Char) : List Mark :=
  if reversed.isEmpty then [] else [.word (String.ofList reversed.reverse)]

/-- The marks of some characters, after the characters `reversed` of a word that has
begun. -/
def scan (reversed : List Char) : List Char → List Mark
  | [] => flush reversed
  | c :: cs =>
    if c = '(' then flush reversed ++ .opening :: scan [] cs
    else if c = ')' then flush reversed ++ .closing :: scan [] cs
    else if Text.isBlank c then flush reversed ++ scan [] cs
    else scan (c :: reversed) cs

theorem map_mark_wordEnding (stop : Nat) (reversed : List Char) :
    (wordEnding stop reversed).map Token.mark = flush reversed := by
  rw [wordEnding, flush]
  split <;> rfl

/-- **The tokens of a text have its marks.** -/
theorem map_mark_tokensFrom (offset : Nat) (reversed cs : List Char) :
    (tokensFrom offset reversed cs).map Token.mark = scan reversed cs := by
  induction cs generalizing offset reversed with
  | nil => exact map_mark_wordEnding offset reversed
  | cons c cs ih =>
    rw [tokensFrom, scan]
    split
    · rw [List.map_append, List.map_cons, map_mark_wordEnding, ih, Token.mark]
    split
    · rw [List.map_append, List.map_cons, map_mark_wordEnding, ih, Token.mark]
    split
    · rw [List.map_append, map_mark_wordEnding, ih]
    · exact ih _ _

/-! ## Composition -/

/-- A character at which a word ends. -/
def Separates (c : Char) : Prop :=
  c = '(' ∨ c = ')' ∨ Text.isBlank c = true

instance (c : Char) : Decidable (Separates c) :=
  inferInstanceAs (Decidable (_ ∨ _ ∨ _))

/-- No word goes on into the characters. -/
def Closed (cs : List Char) : Prop :=
  ∀ c ∈ cs.head?, Separates c

theorem closed_nil : Closed [] := by
  simp [Closed]

theorem closed_cons {c : Char} (separates : Separates c) (cs : List Char) : Closed (c :: cs) := by
  simpa [Closed] using separates

theorem Closed.append {cs ds : List Char} (first : Closed cs) (second : Closed ds) :
    Closed (cs ++ ds) := by
  cases cs with
  | nil => exact second
  | cons c cs => exact first

/-- The characters end with one that a word ends at, or there are none. -/
def Ended (cs : List Char) : Prop :=
  ∀ c ∈ cs.getLast?, Separates c

theorem ended_of_getLast? {cs : List Char} {c : Char} (last : cs.getLast? = some c)
    (separates : Separates c) : Ended cs := by
  simpa [Ended, last] using separates

theorem Ended.append {cs ds : List Char} (first : Ended cs) (second : Ended ds) :
    Ended (cs ++ ds) := by
  cases ds with
  | nil => simpa using first
  | cons d ds =>
    simpa [Ended, List.getLast?_append] using second

@[simp] theorem byteLength_append (cs ds : List Char) :
    byteLength (cs ++ ds) = byteLength cs + byteLength ds := by
  induction cs with
  | nil => rw [List.nil_append, byteLength, Nat.zero_add]
  | cons c cs ih => rw [List.cons_append, byteLength, ih, byteLength, Nat.add_assoc]

@[simp] theorem byteLength_reverse (cs : List Char) : byteLength cs.reverse = byteLength cs := by
  induction cs with
  | nil => rfl
  | cons c cs ih =>
    rw [List.reverse_cons, byteLength_append, ih, byteLength, byteLength, byteLength, Nat.add_zero,
      Nat.add_comm]

/-- What stands before characters into which no word goes on is a word by itself. -/
theorem tokensFrom_of_closed {cs : List Char} (closed : Closed cs) (offset : Nat)
    (reversed : List Char) :
    tokensFrom offset reversed cs = wordEnding offset reversed ++ tokensFrom offset [] cs := by
  cases cs with
  | nil => simp [tokensFrom, wordEnding]
  | cons c cs =>
    have separates : Separates c := closed c rfl
    rw [tokensFrom, tokensFrom]
    split
    · simp [wordEnding]
    split
    · simp [wordEnding]
    split
    · simp [wordEnding]
    · next notOpening notClosing notBlank =>
      rcases separates with same | same | blank
      · exact absurd same notOpening
      · exact absurd same notClosing
      · exact absurd blank notBlank

/-- Characters of a word are collected. -/
theorem tokensFrom_append_of_word {cs : List Char} (word : ∀ c ∈ cs, ¬ Separates c) (offset : Nat)
    (reversed rest : List Char) : tokensFrom offset reversed (cs ++ rest) =
      tokensFrom (offset + byteLength cs) (cs.reverse ++ reversed) rest := by
  induction cs generalizing offset reversed with
  | nil => rfl
  | cons c cs ih =>
    obtain ⟨first, later⟩ := List.forall_mem_cons.1 word
    rw [Separates, not_or, not_or] at first
    obtain ⟨notOpening, notClosing, notBlank⟩ := first
    rw [List.cons_append, tokensFrom, if_neg notOpening, if_neg notClosing, if_neg notBlank, ih later,
      List.reverse_cons, List.append_assoc, List.singleton_append, byteLength, Nat.add_assoc]

/-- A word by itself. -/
theorem tokensFrom_word {cs : List Char} (nonempty : cs ≠ []) (word : ∀ c ∈ cs, ¬ Separates c)
    (offset : Nat) : tokensFrom offset [] cs =
      [.word (String.ofList cs) ⟨offset, offset + byteLength cs⟩] := by
  have whole := tokensFrom_append_of_word word offset [] []
  rw [List.append_nil, List.append_nil] at whole
  rw [whole, tokensFrom, wordEnding]
  simp [nonempty]

/-- **Pieces that do not run into each other**: the tokens of one after the other are those of
both in a row. -/
theorem tokensFrom_append {cs ds : List Char} (apart : Closed ds) (offset : Nat)
    (reversed : List Char) : tokensFrom offset reversed (cs ++ ds) =
      tokensFrom offset reversed cs ++ tokensFrom (offset + byteLength cs) [] ds := by
  induction cs generalizing offset reversed with
  | nil => exact tokensFrom_of_closed apart offset reversed
  | cons c cs ih =>
    rw [List.cons_append, tokensFrom, tokensFrom, byteLength, ← Nat.add_assoc]
    split
    · next opening =>
      rw [ih, List.append_assoc, List.cons_append, opening]
      rfl
    split
    · next closing =>
      rw [ih, List.append_assoc, List.cons_append, closing]
      rfl
    split
    · rw [ih, List.append_assoc]
    · exact ih _ _

/-- Nothing runs on from what has ended. -/
theorem tokensFrom_append_of_ended {cs : List Char} (ended : Ended cs) (offset : Nat)
    (ds : List Char) : tokensFrom offset [] (cs ++ ds) =
      tokensFrom offset [] cs ++ tokensFrom (offset + byteLength cs) [] ds := by
  rcases List.eq_nil_or_concat cs with rfl | ⟨before, c, rfl⟩
  · rfl
  · have separates : Separates c := ended c (by simp)
    -- what begins at the last character is apart from what stands before it
    have single : ∀ offset, tokensFrom offset [] (c :: ds) =
        tokensFrom offset [] [c] ++ tokensFrom (offset + byteLength [c]) [] ds := by
      intro offset
      rw [tokensFrom, tokensFrom]
      rcases separates with rfl | rfl | blank
      · rfl
      · rfl
      · split
        · next opening => rw [opening]; rfl
        split
        · next closing => rw [closing]; rfl
        · simp [tokensFrom, wordEnding, byteLength]
    rw [List.concat_eq_append, List.append_assoc, List.singleton_append,
      tokensFrom_append (closed_cons separates ds), tokensFrom_append (closed_cons separates []),
      single, List.append_assoc, byteLength_append, Nat.add_assoc]

/-- The marks of one piece after the other are those of both in a row. -/
theorem scan_append {cs ds : List Char} (apart : Closed ds) (reversed : List Char) :
    scan reversed (cs ++ ds) = scan reversed cs ++ scan [] ds := by
  rw [← map_mark_tokensFrom 0, tokensFrom_append apart, List.map_append, map_mark_tokensFrom,
    map_mark_tokensFrom]

theorem scan_append_of_ended {cs : List Char} (ended : Ended cs) (ds : List Char) :
    scan [] (cs ++ ds) = scan [] cs ++ scan [] ds := by
  rw [← map_mark_tokensFrom 0, tokensFrom_append_of_ended ended, List.map_append,
    map_mark_tokensFrom, map_mark_tokensFrom]

/-- A blank is no mark itself. -/
theorem scan_nil_cons_of_blank {c : Char} (blank : Text.isBlank c = true) (cs : List Char) :
    scan [] (c :: cs) = scan [] cs := by
  have notOpening : c ≠ '(' := by rintro rfl; cases blank
  have notClosing : c ≠ ')' := by rintro rfl; cases blank
  rw [scan, if_neg notOpening, if_neg notClosing, if_pos blank]
  rfl

/-- A blank keeps words apart. -/
theorem scan_append_cons_of_blank {c : Char} (blank : Text.isBlank c = true) (cs ds : List Char) :
    scan [] (cs ++ c :: ds) = scan [] cs ++ scan [] ds := by
  rw [scan_append (closed_cons (.inr (.inr blank)) ds), scan_nil_cons_of_blank blank]

theorem scan_word {cs : List Char} (nonempty : cs ≠ []) (word : ∀ c ∈ cs, ¬ Separates c) :
    scan [] cs = [.word (String.ofList cs)] := by
  rw [← map_mark_tokensFrom 0, tokensFrom_word nonempty word]
  rfl

/-! ## Forms -/

mutual

/-- The marks of a form. -/
def marks : Form → List Mark
  | .word text => [.word text]
  | .list items => .opening :: (marksAll items ++ [.closing])

/-- The marks of several forms, one after the other. -/
def marksAll : List Form → List Mark
  | [] => []
  | f :: fs => marks f ++ marksAll fs

end

theorem marksAll_eq (fs : List Form) : marksAll fs = fs.flatMap marks := by
  induction fs with
  | nil => rfl
  | cons f fs ih => rw [marksAll, ih, List.flatMap_cons]

/-- Tokens are put together to an expression of the form. -/
def AssemblesTo (ts : List Token) (f : Form) : Prop :=
  ∃ sx : SExpr, sx.form = f ∧ ∀ opened items rest,
    assemble opened items (ts ++ rest) = assemble opened (sx :: items) rest

/-- Several forms are put together when each of them is. -/
theorem assemble_marksAll {fs : List Form}
    (each : ∀ f ∈ fs, ∀ ts, ts.map Token.mark = marks f → AssemblesTo ts f) {ts : List Token}
    (has : ts.map Token.mark = marksAll fs) :
    ∃ sxs : List SExpr, sxs.map form = fs ∧ ∀ opened items rest,
      assemble opened items (ts ++ rest) = assemble opened (sxs.reverse ++ items) rest := by
  induction fs generalizing ts with
  | nil =>
    obtain rfl := List.map_eq_nil_iff.1 has
    exact ⟨[], rfl, fun _ _ _ => rfl⟩
  | cons f fs ih =>
    obtain ⟨first, later⟩ := List.forall_mem_cons.1 each
    obtain ⟨us, vs, rfl, hasFirst, hasLater⟩ := List.map_eq_append_iff.1 has
    obtain ⟨sx, form, put⟩ := first us hasFirst
    obtain ⟨sxs, forms, putAll⟩ := ih later hasLater
    refine ⟨sx :: sxs, by rw [List.map_cons, form, forms], fun opened items rest => ?_⟩
    rw [List.append_assoc, put, putAll, List.reverse_cons, List.append_assoc, List.singleton_append]

/-- **Tokens with the marks of a form** are put together to an expression of it. -/
theorem assemble_marks (f : Form) : ∀ ts, ts.map Token.mark = marks f → AssemblesTo ts f := by
  induction f with
  | word text =>
    intro ts has
    obtain ⟨t, us, rfl, mark, none_⟩ := List.map_eq_cons_iff.1 has
    obtain rfl := List.map_eq_nil_iff.1 none_
    cases t with
    | opening _ => cases mark
    | closing _ => cases mark
    | word _ span =>
      cases mark
      exact ⟨.atom text span, rfl, fun _ _ _ => rfl⟩
  | list fs ih =>
    intro ts has
    obtain ⟨t, us, rfl, markOpening, inside⟩ := List.map_eq_cons_iff.1 has
    obtain ⟨vs, ws, rfl, hasItems, last⟩ := List.map_eq_append_iff.1 inside
    obtain ⟨u, xs, rfl, markClosing, none_⟩ := List.map_eq_cons_iff.1 last
    obtain rfl := List.map_eq_nil_iff.1 none_
    obtain ⟨sxs, forms, put⟩ := assemble_marksAll ih hasItems
    -- tokens have places besides their marks, so their kinds are told apart by cases
    cases t with
    | closing _ => cases markOpening
    | word _ _ => cases markOpening
    | opening start =>
      cases u with
      | opening _ => cases markClosing
      | word _ _ => cases markClosing
      | closing offset =>
        refine ⟨.list sxs ⟨start, offset + 1⟩, by rw [form_list, forms], ?_⟩
        intro opened items rest
        rw [List.cons_append, assemble, List.append_assoc, put, List.append_nil,
          List.singleton_append, assemble, List.reverse_reverse]

/-- **What a text is read as** is known from its marks. -/
theorem parse_of_scan {s : String} {fs : List Form} (has : scan [] s.toList = marksAll fs) :
    ∃ sxs, parse s = .ok sxs ∧ sxs.map form = fs := by
  have marked : (tokens s).map Token.mark = marksAll fs := by
    rw [tokens, map_mark_tokensFrom, has]
  obtain ⟨sxs, forms, put⟩ := assemble_marksAll (fun f _ => assemble_marks f) marked
  refine ⟨sxs, ?_, forms⟩
  have all := put [] [] []
  rw [List.append_nil] at all
  rw [parse, all, assemble, List.append_nil, List.reverse_reverse]

/-- A text with the marks of one form is read as one expression. -/
theorem parse_of_scan_one {s : String} {f : Form} (has : scan [] s.toList = marks f) :
    ∃ sx, parse s = .ok [sx] ∧ sx.form = f := by
  have all : scan [] s.toList = marksAll [f] := by
    rw [has]
    simp [marksAll]
  obtain ⟨sxs, parsed, forms⟩ := parse_of_scan all
  obtain ⟨sx, _, rfl, form, none_⟩ := List.map_eq_cons_iff.1 forms
  obtain rfl := List.map_eq_nil_iff.1 none_
  exact ⟨sx, parsed, form⟩

/-! ## Texts with the same marks -/

/-- **The forms of a text**, if it is read. -/
def forms? (s : String) : Option (List Form) :=
  (parse s).toOption.map (·.map form)

/-- The forms that marks stand for, put together as expressions are, but without places: `items` are
those of the innermost open list, last one first, and `opened` has the items before it in every list
around it. -/
def assembleForms (opened : List (List Form)) (items : List Form) : List Mark → Option (List Form)
  | [] =>
    match opened with
    | [] => some items.reverse
    | _ :: _ => none
  | .opening :: ms => assembleForms (items :: opened) [] ms
  | .closing :: ms =>
    match opened with
    | [] => none
    | outer :: rest => assembleForms rest (.list items.reverse :: outer) ms
  | .word text :: ms => assembleForms opened (.word text :: items) ms

/-- Tokens are put together to expressions of the forms of their marks, or neither are put together. -/
theorem map_form_assemble (opened : List (Nat × List SExpr)) (items : List SExpr) (ts : List Token) :
    (assemble opened items ts).toOption.map (·.map form) =
      assembleForms (opened.map fun p => p.2.map form) (items.map form) (ts.map Token.mark) := by
  induction ts generalizing opened items with
  | nil =>
    cases opened with
    | nil =>
      rw [assemble, List.map_nil, List.map_nil, assembleForms, ← List.map_reverse]
      rfl
    | cons p opened => rfl
  | cons t ts ih =>
    rw [List.map_cons]
    cases t with
    | opening start =>
      rw [assemble, ih, Token.mark, assembleForms]
      rfl
    | closing offset =>
      cases opened with
      | nil => rfl
      | cons p rest =>
        rw [assemble, ih, List.map_cons, form_list, List.map_reverse]
        rfl
    | word text span =>
      rw [assemble, ih, Token.mark, assembleForms]
      rfl

/-- **The forms of a text** are put together from its marks. -/
theorem forms?_eq (s : String) : forms? s = assembleForms [] [] (scan [] s.toList) := by
  rw [forms?, parse, map_form_assemble, tokens, map_mark_tokensFrom]
  rfl

/-- Texts with the same marks are read as the same forms, or neither is read. -/
theorem forms?_congr {s t : String} (same : scan [] s.toList = scan [] t.toList) :
    forms? s = forms? t := by
  rw [forms?_eq, forms?_eq, same]

/-! ## The words of a text -/

/-- Every word of a scan is made of characters that no word ends at. -/
theorem word_of_mem_scan {Q : Char → Prop} {reversed cs : List Char} (begun : ∀ c ∈ reversed, Q c)
    (chars : ∀ c ∈ cs, ¬ Separates c → Q c) {t : String} (mem : .word t ∈ scan reversed cs) :
    t ≠ "" ∧ ∀ c ∈ t.toList, Q c := by
  -- the word that has begun is one of them
  have flushed : ∀ reversed : List Char, (∀ c ∈ reversed, Q c) → .word t ∈ flush reversed →
      t ≠ "" ∧ ∀ c ∈ t.toList, Q c := by
    intro reversed begun mem
    rw [flush] at mem
    split at mem
    · cases mem
    · next nonempty =>
      obtain rfl := Mark.word.inj (List.mem_singleton.1 mem)
      refine ⟨fun empty => nonempty ?_, fun c inside => begun c (by simpa using inside)⟩
      have none_ := congrArg String.toList empty
      simpa using none_
  induction cs generalizing reversed with
  | nil => exact flushed reversed begun mem
  | cons c cs ih =>
    obtain ⟨first, later⟩ := List.forall_mem_cons.1 chars
    rw [scan] at mem
    split at mem
    · rcases List.mem_append.1 mem with mem | mem
      · exact flushed reversed begun mem
      · exact ih (List.forall_mem_nil Q) later (by simpa using mem)
    split at mem
    · rcases List.mem_append.1 mem with mem | mem
      · exact flushed reversed begun mem
      · exact ih (List.forall_mem_nil Q) later (by simpa using mem)
    split at mem
    · rcases List.mem_append.1 mem with mem | mem
      · exact flushed reversed begun mem
      · exact ih (List.forall_mem_nil Q) later mem
    · next notOpening notClosing notBlank =>
      refine ih (List.forall_mem_cons.2 ⟨first ?_, begun⟩) later mem
      rintro (same | same | blank)
      · exact notOpening same
      · exact notClosing same
      · exact notBlank blank

/-- Expressions are made of the words of their tokens. -/
theorem over_of_assemble {P : String → Prop} {opened : List (Nat × List SExpr)}
    {items : List SExpr} {ts : List Token} {sxs : List SExpr}
    (outer : ∀ p ∈ opened, ∀ sx ∈ p.2, sx.form.Over P) (before : ∀ sx ∈ items, sx.form.Over P)
    (words : ∀ t, .word t ∈ ts.map Token.mark → P t) (put : assemble opened items ts = .ok sxs) :
    ∀ sx ∈ sxs, sx.form.Over P := by
  induction ts generalizing opened items with
  | nil =>
    cases opened with
    | nil =>
      obtain rfl := Except.ok.inj put
      exact fun sx mem => before sx (List.mem_reverse.1 mem)
    | cons p opened => cases put
  | cons t ts ih =>
    have later : ∀ u, .word u ∈ ts.map Token.mark → P u :=
      fun u mem => words u (List.mem_cons_of_mem _ mem)
    cases t with
    | opening start =>
      exact ih (List.forall_mem_cons.2 ⟨before, outer⟩) (by simp) later put
    | closing offset =>
      cases opened with
      | nil => cases put
      | cons p opened =>
        -- what stood inside becomes one item of what stands around it
        obtain ⟨around, outer⟩ := List.forall_mem_cons.1 outer
        refine ih outer (List.forall_mem_cons.2 ⟨?_, around⟩) later put
        rw [form_list]
        refine .list fun f mem => ?_
        obtain ⟨sx, inside, rfl⟩ := List.mem_map.1 mem
        exact before sx (List.mem_reverse.1 inside)
    | word u span =>
      have first : (SExpr.atom u span).form.Over P := .word (words u List.mem_cons_self)
      exact ih outer (List.forall_mem_cons.2 ⟨first, before⟩) later put

/-- **The words of the expressions of a text** are not empty, and none of their characters
separates words. -/
theorem over_of_parse {Q : Char → Prop} {s : String} {sxs : List SExpr}
    (chars : ∀ c ∈ s.toList, ¬ Separates c → Q c) (parsed : parse s = .ok sxs) :
    ∀ sx ∈ sxs, sx.form.Over fun t => t ≠ "" ∧ ∀ c ∈ t.toList, Q c := by
  refine over_of_assemble (by simp) (by simp) (fun t mem => ?_) parsed
  rw [tokens, map_mark_tokensFrom] at mem
  exact word_of_mem_scan (by simp) chars mem

end WorldModel.SExpr
