/-
The tokens of a text, and where they come back.

A lexeme of a text is a parenthesis or a longest run of characters that are neither
parentheses nor blank, with its range of bytes. That is said without a machine that reads
character by character (`IsLexeme`), and the tokens that the machine cuts are the lexemes,
each once and in order (`tokenizes_tokens`): it misses none because what stands before and
behind a lexeme is cut by itself (`tokensFrom_append`).

An expression is walked by writing down its parentheses and words with the places that it
remembers (`lexemes`). **Main statement.** `tokenizes_of_parse`: to walk all expressions of a text
is to go through its lexemes.
-/
import WorldModel.Proofs.SExpr.Scan

set_option autoImplicit false

namespace WorldModel.SExpr

/-! ## Lexemes -/

/-- A piece of a text with its range of bytes. -/
structure Lexeme where
  text : String
  span : Span

/-- The piece and the place of a token. -/
def Token.lexeme : Token → Lexeme
  | opening offset => ⟨"(", offset, offset + 1⟩
  | closing offset => ⟨")", offset, offset + 1⟩
  | word text span => ⟨text, span⟩

/-- **A longest run** between what stands before it and behind it: characters that are neither
parentheses nor blank, which do not go on to either side. -/
structure Run (before run behind : List Char) : Prop where
  nonempty : run ≠ []
  inside : ∀ c ∈ run, ¬ Separates c
  ended : Ended before
  closed : Closed behind

/-- **A lexeme of a text** is a parenthesis or a longest run. -/
def IsLexeme (cs : List Char) (l : Lexeme) : Prop :=
  ∃ before piece behind, cs = before ++ piece ++ behind ∧
    (piece = ['('] ∨ piece = [')'] ∨ Run before piece behind) ∧
    l = ⟨String.ofList piece, byteLength before, byteLength (before ++ piece)⟩

/-- **The lexemes of a text in order**, and nothing else. -/
structure Tokenizes (cs : List Char) (ls : List Lexeme) : Prop where
  mem_iff : ∀ l, l ∈ ls ↔ IsLexeme cs l
  ordered : ls.Pairwise fun l m => l.span.stop ≤ m.span.start

/-! ## Every token is a lexeme -/

/-- A character at which a word ends is no part of what comes after it. -/
theorem ended_concat {c : Char} (separates : Separates c) (before : List Char) :
    Ended (before ++ [c]) :=
  ended_of_getLast? (by simp) separates

theorem isLexeme_of_mem_wordEnding {before reversed behind : List Char} (ended : Ended before)
    (begun : ∀ c ∈ reversed, ¬ Separates c) (closed : Closed behind) {t : Token}
    (mem : t ∈ wordEnding (byteLength (before ++ reversed.reverse)) reversed) :
    IsLexeme (before ++ reversed.reverse ++ behind) t.lexeme := by
  rw [wordEnding] at mem
  split at mem
  · cases mem
  · next nonempty =>
    obtain rfl := List.mem_singleton.1 mem
    refine ⟨before, reversed.reverse, behind, rfl, .inr (.inr ⟨?_, ?_, ended, closed⟩), ?_⟩
    · simpa using nonempty
    · simpa using begun
    · simp [Token.lexeme]

/-- **Every token is a lexeme**, also behind characters of a word that has begun. -/
theorem isLexeme_of_mem_tokensFrom {before reversed cs : List Char} (ended : Ended before)
    (begun : ∀ c ∈ reversed, ¬ Separates c) {t : Token}
    (mem : t ∈ tokensFrom (byteLength (before ++ reversed.reverse)) reversed cs) :
    IsLexeme (before ++ reversed.reverse ++ cs) t.lexeme := by
  induction cs generalizing before reversed with
  | nil => exact isLexeme_of_mem_wordEnding ended begun closed_nil mem
  | cons c cs ih =>
    have through : before ++ reversed.reverse ++ c :: cs =
        before ++ reversed.reverse ++ [c] ++ [].reverse ++ cs := by simp
    -- where a word ends, cutting goes on as if the text began there
    have behind (separates : Separates c)
        (mem : t ∈ tokensFrom (byteLength (before ++ reversed.reverse) + c.utf8Size) [] cs) :
        IsLexeme (before ++ reversed.reverse ++ c :: cs) t.lexeme := by
      rw [through]
      refine ih (ended_concat separates _) (List.forall_mem_nil _) ?_
      simpa [byteLength, Nat.add_assoc] using mem
    have paren (piece : c = '(' ∨ c = ')') :
        IsLexeme (before ++ reversed.reverse ++ c :: cs)
          ⟨String.ofList [c], byteLength (before ++ reversed.reverse),
            byteLength (before ++ reversed.reverse) + 1⟩ := by
      refine ⟨before ++ reversed.reverse, [c], cs, by simp, ?_, ?_⟩
      · rcases piece with rfl | rfl
        · exact .inl rfl
        · exact .inr (.inl rfl)
      · rcases piece with rfl | rfl <;> simp [byteLength] <;> rfl
    rw [tokensFrom] at mem
    split at mem
    · next opening =>
      subst opening
      rcases List.mem_append.1 mem with word | mem
      · exact isLexeme_of_mem_wordEnding ended begun (closed_cons (.inl rfl) cs) word
      · rcases List.mem_cons.1 mem with rfl | mem
        · exact paren (.inl rfl)
        · exact behind (.inl rfl) mem
    split at mem
    · next closing =>
      subst closing
      rcases List.mem_append.1 mem with word | mem
      · exact isLexeme_of_mem_wordEnding ended begun (closed_cons (.inr (.inl rfl)) cs) word
      · rcases List.mem_cons.1 mem with rfl | mem
        · exact paren (.inr rfl)
        · exact behind (.inr (.inl rfl)) mem
    split at mem
    · next blank =>
      have separates : Separates c := .inr (.inr blank)
      rcases List.mem_append.1 mem with word | mem
      · exact isLexeme_of_mem_wordEnding ended begun (closed_cons separates cs) word
      · exact behind separates mem
    · next notOpening notClosing notBlank =>
      have inside : ¬ Separates c := not_or.2 ⟨notOpening, not_or.2 ⟨notClosing, notBlank⟩⟩
      have word : before ++ reversed.reverse ++ c :: cs = before ++ (c :: reversed).reverse ++ cs := by
        simp
      rw [word]
      refine ih ended (List.forall_mem_cons.2 ⟨inside, begun⟩) ?_
      simpa [byteLength, Nat.add_assoc] using mem

/-! ## Every lexeme is a token -/

/-- **Every lexeme is a token**: what stands before it and behind it is cut by itself. -/
theorem exists_token_of_isLexeme {s : String} {l : Lexeme} (lexeme : IsLexeme s.toList l) :
    ∃ t ∈ tokens s, t.lexeme = l := by
  obtain ⟨before, piece, behind, text, kind, rfl⟩ := lexeme
  rw [tokens, text, List.append_assoc]
  rcases kind with rfl | rfl | run
  · rw [List.singleton_append, tokensFrom_append (closed_cons (.inl rfl) behind)]
    refine ⟨.opening (byteLength before), List.mem_append_right _ ?_, ?_⟩
    · simp [tokensFrom, wordEnding]
    · rw [byteLength_append]
      rfl
  · rw [List.singleton_append, tokensFrom_append (closed_cons (.inr (.inl rfl)) behind)]
    refine ⟨.closing (byteLength before), List.mem_append_right _ ?_, ?_⟩
    · simp [tokensFrom, wordEnding]
    · rw [byteLength_append]
      rfl
  · rw [tokensFrom_append_of_ended run.ended, tokensFrom_append run.closed,
      tokensFrom_word run.nonempty run.inside]
    refine ⟨_, List.mem_append_right _ (List.mem_append_left _ (List.mem_singleton_self _)), ?_⟩
    rw [Token.lexeme, byteLength_append, Nat.zero_add]

/-! ## The order of tokens -/

/-- A word that ends goes before what comes later. -/
theorem ordered_wordEnding {start : Nat} {reversed : List Char} {later : List Token}
    (behind : ∀ t ∈ later, start + byteLength reversed ≤ t.lexeme.span.start)
    (ordered : later.Pairwise fun t u => t.lexeme.span.stop ≤ u.lexeme.span.start) :
    (∀ t ∈ wordEnding (start + byteLength reversed) reversed ++ later, start ≤ t.lexeme.span.start) ∧
      (wordEnding (start + byteLength reversed) reversed ++ later).Pairwise
        fun t u => t.lexeme.span.stop ≤ u.lexeme.span.start := by
  have from_ : ∀ t ∈ later, start ≤ t.lexeme.span.start :=
    fun t mem => Nat.le_trans (Nat.le_add_right _ _) (behind t mem)
  rw [wordEnding]
  split
  · exact ⟨from_, ordered⟩
  · rw [List.singleton_append]
    refine ⟨List.forall_mem_cons.2 ⟨?_, from_⟩, List.pairwise_cons.2 ⟨behind, ordered⟩⟩
    simp [Token.lexeme]

/-- **Tokens come in the order of their places**, and none of them begins before the word that
has begun. -/
theorem ordered_tokensFrom (start : Nat) (reversed cs : List Char) :
    (∀ t ∈ tokensFrom (start + byteLength reversed) reversed cs, start ≤ t.lexeme.span.start) ∧
      (tokensFrom (start + byteLength reversed) reversed cs).Pairwise
        fun t u => t.lexeme.span.stop ≤ u.lexeme.span.start := by
  induction cs generalizing start reversed with
  | nil =>
    rw [tokensFrom, ← List.append_nil (wordEnding _ _)]
    exact ordered_wordEnding (List.forall_mem_nil _) .nil
  | cons c cs ih =>
    -- a parenthesis is one byte long, and what comes behind it begins after it
    have paren {t : Token} {offset : Nat} (place : t.lexeme.span = ⟨offset, offset + 1⟩) :
        (∀ u ∈ t :: tokensFrom (offset + 1) [] cs, offset ≤ u.lexeme.span.start) ∧
          (t :: tokensFrom (offset + 1) [] cs).Pairwise
            fun t u => t.lexeme.span.stop ≤ u.lexeme.span.start := by
      obtain ⟨behind, ordered⟩ := ih (offset + 1) []
      refine ⟨List.forall_mem_cons.2 ⟨Nat.le_of_eq (by rw [place]), fun u mem => ?_⟩,
        List.pairwise_cons.2 ⟨?_, ordered⟩⟩
      · exact Nat.le_of_succ_le (behind u mem)
      · rw [place]
        exact behind
    rw [tokensFrom]
    split
    · exact ordered_wordEnding (paren rfl).1 (paren rfl).2
    split
    · exact ordered_wordEnding (paren rfl).1 (paren rfl).2
    split
    · obtain ⟨behind, ordered⟩ := ih (start + byteLength reversed + c.utf8Size) []
      exact ordered_wordEnding
        (fun t mem => Nat.le_trans (Nat.le_add_right _ _) (behind t mem)) ordered
    · have later := ih start (c :: reversed)
      rwa [byteLength, Nat.add_comm c.utf8Size, ← Nat.add_assoc] at later

/-- **The tokens of a text** are its lexemes in order. -/
theorem tokenizes_tokens (s : String) : Tokenizes s.toList ((tokens s).map Token.lexeme) := by
  refine ⟨fun l => ⟨fun mem => ?_, fun lexeme => ?_⟩, ?_⟩
  · obtain ⟨t, inside, rfl⟩ := List.mem_map.1 mem
    exact @isLexeme_of_mem_tokensFrom [] [] s.toList (by simp [Ended]) (by simp) t inside
  · obtain ⟨t, mem, rfl⟩ := exists_token_of_isLexeme lexeme
    exact List.mem_map_of_mem mem
  · exact List.pairwise_map.2 (ordered_tokensFrom 0 [] s.toList).2

/-! ## Walking expressions -/

mutual

/-- **The lexemes of an expression** in the places that it remembers. -/
def lexemes : SExpr → List Lexeme
  | atom text span => [⟨text, span⟩]
  | list items span => ⟨"(", span.start, span.start + 1⟩ ::
      (lexemesAll items ++ [⟨")", span.stop - 1, span.stop⟩])

/-- The lexemes of several expressions, one after the other. -/
def lexemesAll : List SExpr → List Lexeme
  | [] => []
  | x :: xs => lexemes x ++ lexemesAll xs

end

theorem lexemesAll_eq (xs : List SExpr) : lexemesAll xs = xs.flatMap lexemes := by
  induction xs with
  | nil => rfl
  | cons x xs ih => rw [lexemesAll, ih, List.flatMap_cons]

/-- What has been read so far, with the parentheses of the lists that are still open. -/
def lexemesHeld (items : List SExpr) : List (Nat × List SExpr) → List Lexeme
  | [] => lexemesAll items.reverse
  | (start, outer) :: rest =>
    lexemesHeld outer rest ++ ⟨"(", start, start + 1⟩ :: lexemesAll items.reverse

theorem lexemesHeld_cons (x : SExpr) (items : List SExpr) (opened : List (Nat × List SExpr)) :
    lexemesHeld (x :: items) opened = lexemesHeld items opened ++ lexemes x := by
  cases opened <;> simp [lexemesHeld, lexemesAll_eq]

/-- **Nothing gets lost or moved** when tokens are put together. -/
theorem lexemesAll_of_assemble {opened : List (Nat × List SExpr)} {items : List SExpr}
    {ts : List Token} {sxs : List SExpr} (put : assemble opened items ts = .ok sxs) :
    lexemesAll sxs = lexemesHeld items opened ++ ts.map Token.lexeme := by
  induction ts generalizing opened items with
  | nil =>
    cases opened with
    | nil =>
      obtain rfl := Except.ok.inj put
      rw [lexemesHeld, List.map_nil, List.append_nil]
    | cons p opened => cases put
  | cons t ts ih =>
    rw [List.map_cons]
    -- a word or a list that ends is an item more, and an open list waits behind its parenthesis
    cases t with
    | opening start =>
      rw [ih put, lexemesHeld]
      simp [lexemesAll, Token.lexeme]
    | closing offset =>
      cases opened with
      | nil => cases put
      | cons p rest =>
        obtain ⟨start, outer⟩ := p
        rw [ih put, lexemesHeld_cons, lexemesHeld, lexemes]
        simp [Token.lexeme]
    | word text span =>
      rw [ih put, lexemesHeld_cons, lexemes, Token.lexeme]
      simp

/-- **To walk what a text is read as** is to go through its lexemes in order. -/
theorem tokenizes_of_parse {s : String} {sxs : List SExpr} (read : parse s = .ok sxs) :
    Tokenizes s.toList (lexemesAll sxs) := by
  rw [lexemesAll_of_assemble read]
  exact tokenizes_tokens s

end WorldModel.SExpr
