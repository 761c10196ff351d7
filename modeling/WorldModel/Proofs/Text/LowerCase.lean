/-
Lower-casing a second time changes nothing.

The reason is a property of the table of capitals: no lower-case counterpart is itself
listed as a capital. The table is checked for it range by range (`avoids_caseRanges`),
and the same check shows that a letter never turns into a blank, a parenthesis or any
other character below the letters (`proper_caseRanges`). So the two facts the rest of
the library needs hold for every text: what comes out of `lower` is left alone by
`lower` (`lower_lower`), and the spelling that a domain looks names up by is a spelling
that it looks up as itself (`fold_fold`).
-/
import Mathlib.Data.List.Basic
import WorldModel.Domain.Basic

set_option autoImplicit false

namespace WorldModel.Text

/-! ## The table of capitals -/

/-- No counterpart of a capital of `r` is a capital of `s`. -/
def CaseRange.avoids (r s : CaseRange) : Bool :=
  Nat.blt (r.target + (r.last - r.first)) s.first || Nat.blt s.last r.target ||
    (List.range (r.last + 1 - r.first)).all fun k => k % r.step != 0 || !s.contains (r.target + k)

/-- Every capital of the range and its counterpart are letters: characters from the
first capital on, none of them blank and none a dotted capital I. -/
def CaseRange.proper (r : CaseRange) : Bool :=
  0x41 ≤ r.first && (List.range (r.last + 1 - r.first)).all fun k => k % r.step != 0 ||
    decide (r.target + k).isValidChar && r.target + k != 0x130 && 0x41 ≤ r.target + k &&
      !isBlank (Char.ofNat (r.target + k)) && !isBlank (Char.ofNat (r.first + k))

set_option maxRecDepth 20000 in
/-- **No counterpart is a capital.** -/
theorem avoids_caseRanges : (caseRanges.all fun r => caseRanges.all r.avoids) = true := by
  decide +kernel

set_option maxRecDepth 20000 in
/-- Capitals and counterparts are letters. -/
theorem proper_caseRanges : caseRanges.all CaseRange.proper = true := by
  decide +kernel

/-- Below `0x80` there are no capitals but the twenty-six letters. -/
theorem ascii_caseRanges :
    (caseRanges.all fun r => Nat.ble r.last 0x5A || Nat.ble 0x80 r.first) = true := by
  decide +kernel

/-- A character is its own lower case, or it is a capital of some range and its lower
case stands at the same distance from the range's target. -/
theorem lowerSimple_cases (c : Char) :
    lowerSimple c = c ∨ ∃ r ∈ caseRanges, ∃ k, k < r.last + 1 - r.first ∧ k % r.step = 0 ∧
      c.toNat = r.first + k ∧ lowerSimple c = Char.ofNat (r.target + k) := by
  rw [lowerSimple]
  cases found : caseRanges.find? (·.contains c.toNat) with
  | none => exact .inl rfl
  | some r =>
    have inside := List.find?_some found
    simp only [CaseRange.contains, Bool.and_eq_true, decide_eq_true_eq, beq_iff_eq] at inside
    obtain ⟨⟨above, below⟩, step⟩ := inside
    exact .inr ⟨r, List.mem_of_find?_eq_some found, c.toNat - r.first, by omega, step, by omega, rfl⟩

/-- What the check of the table says of one capital. -/
theorem proper_spec {r : CaseRange} (mem : r ∈ caseRanges) {k : Nat}
    (inside : k < r.last + 1 - r.first) (step : k % r.step = 0) :
    0x41 ≤ r.first ∧ (r.target + k).isValidChar ∧ r.target + k ≠ 0x130 ∧ 0x41 ≤ r.target + k ∧
      isBlank (Char.ofNat (r.target + k)) = false ∧ isBlank (Char.ofNat (r.first + k)) = false := by
  have proper := List.all_eq_true.1 proper_caseRanges r mem
  rw [CaseRange.proper, Bool.and_eq_true, List.all_eq_true] at proper
  have at_k := proper.2 k (List.mem_range.2 inside)
  simp [step] at at_k
  exact ⟨of_decide_eq_true proper.1, at_k.1.1.1.1, at_k.1.1.1.2, at_k.1.1.2, at_k.1.2, at_k.2⟩

/-- A counterpart is no capital of any range. -/
theorem contains_target {r s : CaseRange} (mem : r ∈ caseRanges) (other : s ∈ caseRanges) {k : Nat}
    (inside : k < r.last + 1 - r.first) (step : k % r.step = 0) :
    s.contains (r.target + k) = false := by
  have avoids := List.all_eq_true.1 (List.all_eq_true.1 avoids_caseRanges r mem) s other
  simp only [CaseRange.avoids, Bool.or_eq_true, Nat.blt_eq] at avoids
  rcases avoids with (below | above) | each
  · simp only [CaseRange.contains, Bool.and_eq_false_iff, decide_eq_false_iff_not]
    omega
  · simp only [CaseRange.contains, Bool.and_eq_false_iff, decide_eq_false_iff_not]
    omega
  · have at_k := List.all_eq_true.1 each k (List.mem_range.2 inside)
    simpa [step] using at_k

theorem toNat_ofNat_target {n : Nat} (valid : n.isValidChar) : (Char.ofNat n).toNat = n := by
  rw [Char.ofNat, dif_pos valid]
  rfl

/-! ## Settled characters -/

/-- A character that lower-casing leaves alone wherever it stands. -/
def IsLower (c : Char) : Prop :=
  c ≠ 'Σ' ∧ c ≠ 'İ' ∧ lowerSimple c = c

instance (c : Char) : Decidable (IsLower c) :=
  inferInstanceAs (Decidable (_ ∧ _ ∧ _))

/-- The lower case of a character other than the dotted capital I is settled. -/
theorem isLower_lowerSimple {c : Char} (plain : c ≠ 'İ') : IsLower (lowerSimple c) := by
  rcases lowerSimple_cases c with same | ⟨r, mem, k, inside, step, _, eq⟩
  · rw [same]
    refine ⟨?_, plain, same⟩
    rintro rfl
    exact absurd same (by decide)
  · obtain ⟨_, valid, dotted, _⟩ := proper_spec mem inside step
    have code : (lowerSimple c).toNat = r.target + k := by rw [eq, toNat_ofNat_target valid]
    have settled : lowerSimple (lowerSimple c) = lowerSimple c := by
      rw [lowerSimple, List.find?_eq_none.2 fun s other => by
        rw [code, contains_target mem other inside step]
        decide]
    refine ⟨?_, ?_, settled⟩
    · intro sigma
      rw [sigma] at settled
      exact absurd settled (by decide)
    · intro capital
      rw [capital] at code
      exact dotted code.symm

/-- A letter is blank as little as its lower case is. -/
theorem isBlank_lowerSimple (c : Char) : isBlank (lowerSimple c) = isBlank c := by
  rcases lowerSimple_cases c with same | ⟨r, mem, k, inside, step, code, eq⟩
  · rw [same]
  · obtain ⟨_, _, _, _, lower, capital⟩ := proper_spec mem inside step
    rw [eq, lower, ← Char.ofNat_toNat c, code, capital]

/-- Below the letters a character is met exactly where it stood before. -/
theorem lowerSimple_eq_iff {c d : Char} (below : d.toNat < 0x41) : lowerSimple c = d ↔ c = d := by
  rcases lowerSimple_cases c with same | ⟨r, mem, k, inside, step, code, eq⟩
  · rw [same]
  · obtain ⟨first, valid, _, target, _⟩ := proper_spec mem inside step
    constructor
    · intro lower
      rw [← lower, eq, toNat_ofNat_target valid] at below
      omega
    · rintro rfl
      omega

/-- An ASCII character that is no capital. -/
def isSmall (c : Char) : Bool :=
  Nat.blt c.toNat 0x80 && (Nat.blt c.toNat 0x41 || Nat.blt 0x5A c.toNat)

/-- **Such a character** is settled. -/
theorem isLower_of_isSmall {c : Char} (small : isSmall c = true) : IsLower c := by
  simp only [isSmall, Bool.and_eq_true, Bool.or_eq_true, Nat.blt_eq] at small
  refine ⟨?_, ?_, ?_⟩
  · rintro rfl
    exact absurd small.1 (by decide)
  · rintro rfl
    exact absurd small.1 (by decide)
  · rcases lowerSimple_cases c with same | ⟨r, mem, k, inside, step, code, _⟩
    · exact same
    · -- a range that holds it would lie among the capitals or above all ASCII
      have apart := List.all_eq_true.1 ascii_caseRanges r mem
      simp only [Bool.or_eq_true, Nat.ble_eq] at apart
      have first := (proper_spec mem inside step).1
      omega

/-- **What lower-casing puts in the place of a character** is settled. -/
theorem isLower_of_mem_lowerChar {before : List Char} {c : Char} {after : List Char} {d : Char}
    (mem : d ∈ lowerChar before c after) : IsLower d := by
  rw [lowerChar] at mem
  split at mem
  · split at mem <;> (rw [List.mem_singleton.1 mem]; decide)
  · split at mem
    · rcases List.mem_cons.1 mem with rfl | mem
      · decide
      · rw [List.mem_singleton.1 mem]
        decide
    · next plain =>
      rw [List.mem_singleton.1 mem]
      exact isLower_lowerSimple plain

theorem lowerChar_of_isLower (before : List Char) {c : Char} (after : List Char) (h : IsLower c) :
    lowerChar before c after = [c] := by
  rw [lowerChar, if_neg h.1, if_neg h.2.1, h.2.2]

/-! ## Texts -/

/-- All characters of the text are settled. -/
def AllLower (s : String) : Prop :=
  ∀ c ∈ s.toList, IsLower c

/-- Settled characters are left alone. -/
theorem lowerAfter_of_isLower (before : List Char) {cs : List Char} (h : ∀ c ∈ cs, IsLower c) :
    lowerAfter before cs = cs := by
  induction cs generalizing before with
  | nil => rfl
  | cons c cs ih =>
    rw [lowerAfter, lowerChar_of_isLower before cs (h c List.mem_cons_self),
      ih _ fun d mem => h d (List.mem_cons_of_mem c mem)]
    rfl

theorem lower_of_allLower {s : String} (h : AllLower s) : lower s = s := by
  rw [lower, lowerAfter_of_isLower [] h, String.ofList_toList]

/-- A text of small characters, which can be checked by looking at them, is settled. -/
theorem lower_of_all_isSmall {s : String} (small : s.toList.all isSmall = true) : lower s = s :=
  lower_of_allLower fun c mem => isLower_of_isSmall (List.all_eq_true.1 small c mem)

/-- What comes out of lower-casing is settled. -/
theorem isLower_of_mem_lowerAfter {before cs : List Char} {d : Char}
    (mem : d ∈ lowerAfter before cs) : IsLower d := by
  induction cs generalizing before with
  | nil => cases mem
  | cons c cs ih =>
    rw [lowerAfter, List.mem_append] at mem
    exact mem.elim isLower_of_mem_lowerChar ih

theorem allLower_lower (s : String) : AllLower (lower s) := by
  intro c mem
  rw [lower, String.toList_ofList] at mem
  exact isLower_of_mem_lowerAfter mem

/-- **Lower-casing twice** is lower-casing once. -/
theorem lower_lower (s : String) : lower (lower s) = lower s :=
  lower_of_allLower (allLower_lower s)

/-- Where there is neither a capital sigma nor a dotted capital I, every character is
lowered by itself. -/
theorem lowerAfter_eq_map (before : List Char) {cs : List Char}
    (plain : ∀ c ∈ cs, c ≠ 'Σ' ∧ c ≠ 'İ') : lowerAfter before cs = cs.map lowerSimple := by
  induction cs generalizing before with
  | nil => rfl
  | cons c cs ih =>
    obtain ⟨sigma, dotted⟩ := plain c List.mem_cons_self
    rw [lowerAfter, lowerChar, if_neg sigma, if_neg dotted,
      ih _ fun d mem => plain d (List.mem_cons_of_mem c mem)]
    rfl

/-! ## Trimming -/

/-- What stands for a character that is not blank begins and ends with one that is
not. -/
theorem isBlank_of_mem_lowerChar {before : List Char} {c : Char} {after : List Char} {d : Char}
    (mem : d ∈ lowerChar before c after) : isBlank d = isBlank c := by
  rw [lowerChar] at mem
  split at mem
  · next sigma =>
    subst sigma
    split at mem <;> (rw [List.mem_singleton.1 mem]; decide)
  · split at mem
    · next dotted =>
      subst dotted
      rcases List.mem_cons.1 mem with rfl | mem
      · decide
      · rw [List.mem_singleton.1 mem]
        decide
    · rw [List.mem_singleton.1 mem, isBlank_lowerSimple]

/-- Every character leaves something behind. -/
theorem lowerChar_ne_nil (before : List Char) (c : Char) (after : List Char) :
    lowerChar before c after ≠ [] := by
  rw [lowerChar]
  split
  · split <;> simp
  · split <;> simp

/-- Trimming keeps characters that are blank at neither end. -/
theorem trimChars_of_ends {cs : List Char} (first : ∀ c ∈ cs.head?, isBlank c = false)
    (last : ∀ c ∈ cs.getLast?, isBlank c = false) : trimChars cs = cs := by
  have front : cs.dropWhile isBlank = cs := by
    cases cs with
    | nil => rfl
    | cons c cs => rw [List.dropWhile_cons_of_neg (by simp [first c rfl])]
  have back : cs.reverse.dropWhile isBlank = cs.reverse := by
    cases eq : cs.reverse with
    | nil => rfl
    | cons c ds =>
      have end_ : c ∈ cs.getLast? := by rw [← List.head?_reverse, eq]; rfl
      rw [List.dropWhile_cons_of_neg (by simp [last c end_])]
  rw [trimChars, front, back, List.reverse_reverse]

/-- Trimmed characters begin with one that is not blank. -/
theorem isBlank_head?_trimChars (cs : List Char) {c : Char} (head : c ∈ (trimChars cs).head?) :
    isBlank c = false := by
  have front : (trimChars cs).head? = (cs.dropWhile isBlank).head? ∨ trimChars cs = [] := by
    have pre : trimChars cs <+: cs.dropWhile isBlank := by
      rw [trimChars, ← List.reverse_suffix, List.reverse_reverse]
      exact List.dropWhile_suffix _
    obtain ⟨rest, eq⟩ := pre
    cases trimmed : trimChars cs with
    | nil => exact .inr rfl
    | cons d ds => exact .inl (by rw [← eq, trimmed]; rfl)
  rcases front with same | empty
  · rw [same] at head
    have := List.head?_dropWhile_not isBlank cs
    rw [head] at this
    exact this
  · rw [empty] at head
    cases head

/-- Trimmed characters end with one that is not blank. -/
theorem isBlank_getLast?_trimChars (cs : List Char) {c : Char}
    (last : c ∈ (trimChars cs).getLast?) : isBlank c = false := by
  rw [trimChars, List.getLast?_reverse] at last
  have := List.head?_dropWhile_not isBlank (cs.dropWhile isBlank).reverse
  rw [last] at this
  exact this

/-- The last character of a lowered text comes from the last character. -/
theorem getLast?_lowerAfter {before cs : List Char} {d : Char}
    (last : d ∈ (lowerAfter before cs).getLast?) :
    ∃ c ∈ cs.getLast?, isBlank d = isBlank c := by
  induction cs generalizing before with
  | nil => cases last
  | cons c cs ih =>
    rw [lowerAfter] at last
    cases cs with
    | nil =>
      rw [lowerAfter, List.append_nil] at last
      exact ⟨c, rfl, isBlank_of_mem_lowerChar (List.mem_of_getLast? last)⟩
    | cons e es =>
      rw [List.getLast?_append_of_ne_nil _ (by
        rw [lowerAfter]
        exact List.append_ne_nil_of_left_ne_nil (lowerChar_ne_nil _ e es) _)] at last
      obtain ⟨l, mem, same⟩ := ih last
      exact ⟨l, by simpa using mem, same⟩

/-- The first character of a lowered text comes from the first character. -/
theorem head?_lowerAfter {before cs : List Char} {d : Char}
    (head : d ∈ (lowerAfter before cs).head?) : ∃ c ∈ cs.head?, isBlank d = isBlank c := by
  cases cs with
  | nil => cases head
  | cons c cs =>
    rw [lowerAfter, List.head?_append_of_ne_nil _ (lowerChar_ne_nil before c cs)] at head
    exact ⟨c, rfl, isBlank_of_mem_lowerChar (List.mem_of_head? head)⟩

/-- A trimmed text stays trimmed when it is lowered. -/
theorem trim_lower_trim (s : String) : trim (lower (trim s)) = lower (trim s) := by
  rw [trim, lower, String.toList_ofList, trimChars_of_ends]
  · intro d head
    obtain ⟨c, mem, same⟩ := head?_lowerAfter head
    rw [trim, String.toList_ofList] at mem
    rw [same, isBlank_head?_trimChars s.toList mem]
  · intro d last
    obtain ⟨c, mem, same⟩ := getLast?_lowerAfter last
    rw [trim, String.toList_ofList] at mem
    rw [same, isBlank_getLast?_trimChars s.toList mem]

end WorldModel.Text

namespace WorldModel

/-- **The spelling of a spelling** is that spelling. -/
theorem fold_fold (s : String) : fold (fold s) = fold s := by
  rw [fold, fold, Text.trim_lower_trim, Text.lower_lower]

end WorldModel
