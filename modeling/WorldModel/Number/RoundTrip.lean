/-
A number that is written is read back as itself.

**Main statement.** `read?_write`, for all numbers: signed zeros, infinities and what is
not a number included, because there is only one of the last.

The shortest decimal reads back by the way it is searched for (`reads_shortest`), up to
one case: should none of the decimals tried do so, the exact value is written. That
one reads back because its text names exactly the number (`decimal?_positional`) and the
number nearest to an exact value is that number (`nearest_of_units`).

The library is imported as a whole here, and here only: no single module of it brings what is
known of the bits of a number (`Float.toBits_inj`, `Float.ofBits_toBits`).
-/
import Mathlib
import WorldModel.Number.Nearest

set_option autoImplicit false

namespace WorldModel.Number

/-! ## Bits -/

/-- A number is put together again from its sign and its magnitude. -/
theorem ofMagnitude_magnitudeBits (x : Float) :
    ofMagnitude (isNegative x) (magnitudeBits x) = x := by
  have bound := x.toBits.toNat_lt
  have sum : magnitudeBits x + (if isNegative x then signBit else 0) = x.toBits.toNat := by
    by_cases negative : signBit ≤ x.toBits.toNat
    · simp only [magnitudeBits, isNegative, negative, decide_true, if_true]
      unfold signBit at *
      omega
    · simp only [magnitudeBits, isNegative, negative, decide_false, Bool.false_eq_true, if_false]
      unfold signBit at *
      omega
  rw [ofMagnitude, sum, UInt64.ofNat_toNat, Float.ofBits_toBits]

/-- There is only one number whose magnitude is beyond infinity. -/
theorem eq_nan_of_lt {x : Float} (h : infinityBits < magnitudeBits x) : x = Float.nan := by
  have bound := x.toBits.toNat_lt
  have same : x.toModel.toBits.toBitVec.toNat = x.toBits.toNat := rfl
  unfold infinityBits magnitudeBits signBit at h
  rw [← Float.toBits_inj, ← UInt64.toBitVec_inj]
  refine x.toModel.valid.eq_packedNaN ?_ ?_
  · rw [← BitVec.toNat_inj]
    simp [Float.Model.UnpackedFloat.unpackExponent, same, Nat.shiftRight_eq_div_pow]
    omega
  · intro zero
    rw [← BitVec.toNat_inj] at zero
    simp [Float.Model.UnpackedFloat.unpackMantissa, same] at zero
    omega

/-- That number is the one of the bits set aside for it. -/
theorem ofMagnitude_undefinedBits {x : Float} (h : infinityBits < magnitudeBits x) :
    ofMagnitude false undefinedBits = x := by
  rw [eq_nan_of_lt h, ← Float.toBits_inj]
  rfl

/-! ## Digits -/

/-- The digits of a number are digits. -/
theorem isDigit_of_mem_digitChars {n : Nat} {c : Char} (mem : c ∈ digitChars n) :
    c.isDigit = true :=
  Nat.isDigit_of_mem_toDigits (by decide) (by decide) mem

/-- A number has a digit. -/
theorem digitChars_ne_nil (n : Nat) : digitChars n ≠ [] :=
  Nat.toDigits_ne_nil

/-- The digits of a number have its value. -/
theorem ofDigitChars_digitChars (n : Nat) : Nat.ofDigitChars 10 (digitChars n) 0 = n :=
  Nat.ofDigitChars_ten_toDigits

/-- A zero is a digit. -/
theorem isDigit_of_mem_replicate {k : Nat} {c : Char} (mem : c ∈ List.replicate k '0') :
    c.isDigit = true := by
  rw [List.eq_of_mem_replicate mem]
  rfl

/-- Zeros in front of digits do not count. -/
theorem ofDigitChars_replicate_append (k : Nat) (ds : List Char) :
    Nat.ofDigitChars 10 (List.replicate k '0' ++ ds) 0 = Nat.ofDigitChars 10 ds 0 := by
  rw [Nat.ofDigitChars_append, Nat.ofDigitChars_replicate_zero, mul_zero]

/-- Zeros behind digits multiply by ten. -/
theorem ofDigitChars_append_replicate (ds : List Char) (k : Nat) :
    Nat.ofDigitChars 10 (ds ++ List.replicate k '0') 0 = Nat.ofDigitChars 10 ds 0 * 10 ^ k := by
  rw [Nat.ofDigitChars_append, Nat.ofDigitChars_replicate_zero, mul_comm]

/-- **Taking zeros off the end** divides by the power of ten that they stand for. -/
theorem ofDigitChars_dropWhile (ds : List Char) :
    Nat.ofDigitChars 10 (ds.reverse.dropWhile (· == '0')).reverse 0 *
      10 ^ (ds.reverse.takeWhile (· == '0')).length = Nat.ofDigitChars 10 ds 0 := by
  have zeros : ds.reverse.takeWhile (· == '0') =
      List.replicate (ds.reverse.takeWhile (· == '0')).length '0' := by
    rw [List.eq_replicate_iff]
    exact ⟨rfl, fun c mem => by simpa using List.mem_takeWhile_imp mem⟩
  have parts : ds = (ds.reverse.dropWhile (· == '0')).reverse ++
      List.replicate (ds.reverse.takeWhile (· == '0')).length '0' := by
    conv_lhs => rw [← List.reverse_reverse ds,
      ← List.takeWhile_append_dropWhile (p := (· == '0')) (l := ds.reverse), List.reverse_append,
      zeros, List.reverse_replicate]
  conv_rhs => rw [parts]
  rw [ofDigitChars_append_replicate]

/-- Trimming keeps the value and raises the exponent. -/
theorem trimmed_eq {n : Nat} (k : Nat) (nonzero : n ≠ 0) :
    ∃ t z : Nat, Decimal.trimmed ⟨n, -(k : Int)⟩ = ⟨t, (z : Int) - k⟩ ∧ t * 10 ^ z = n := by
  refine ⟨Nat.ofDigitChars 10 ((digitChars n).reverse.dropWhile (· == '0')).reverse 0,
    ((digitChars n).reverse.takeWhile (· == '0')).length, ?_, ?_⟩
  · simp only [Decimal.trimmed, nonzero, if_false]
    congr 1
    omega
  · rw [ofDigitChars_dropWhile, ofDigitChars_digitChars]

/-! ## Reading digits -/

/-- Digits are read up to where they end. -/
theorem span_isDigit {ds : List Char} (digits : ∀ c ∈ ds, c.isDigit = true) (rest : List Char)
    (stop : rest.head?.all (fun c => !c.isDigit)) :
    (ds ++ rest).takeWhile Char.isDigit = ds ∧ (ds ++ rest).dropWhile Char.isDigit = rest := by
  rw [List.takeWhile_append_of_pos digits, List.dropWhile_append_of_pos digits]
  cases rest with
  | nil => simp
  | cons c cs => simp_all

/-- Digits alone name a whole number. -/
theorem decimal?_digits {ds : List Char} (digits : ∀ c ∈ ds, c.isDigit = true) (nonempty : ds ≠ []) :
    decimal? ds = some ⟨Nat.ofDigitChars 10 ds 0, 0⟩ := by
  have span := span_isDigit digits [] rfl
  rw [List.append_nil] at span
  simp [decimal?, span.1, span.2, splitFraction, exponent?, nonempty]

/-- Digits around a point name what they would name without it, divided by ten for
every digit behind it. -/
theorem decimal?_pointed {as bs : List Char} (before : ∀ c ∈ as, c.isDigit = true)
    (behind : ∀ c ∈ bs, c.isDigit = true) (nonempty : as ≠ []) :
    decimal? (as ++ '.' :: bs) = some ⟨Nat.ofDigitChars 10 (as ++ bs) 0, -(bs.length : Int)⟩ := by
  have whole := span_isDigit before ('.' :: bs) rfl
  have fraction := span_isDigit behind [] rfl
  rw [List.append_nil] at fraction
  simp [decimal?, whole.1, whole.2, splitFraction, fraction.1, fraction.2, exponent?, nonempty]

/-! ## Positional text -/

/-- Digits with zeros in front are digits. -/
theorem isDigit_of_mem_padded {k n : Nat} {c : Char}
    (mem : c ∈ List.replicate k '0' ++ digitChars n) : c.isDigit = true := by
  rcases List.mem_append.1 mem with mem | mem
  · exact isDigit_of_mem_replicate mem
  · exact isDigit_of_mem_digitChars mem

/-- What is put before the point is not empty. -/
theorem take_padded_ne_nil (places : Nat) (ds : List Char) :
    (List.replicate (places + 1 - ds.length) '0' ++ ds).take
      ((List.replicate (places + 1 - ds.length) '0' ++ ds).length - places) ≠ [] := by
  intro empty
  have length := congrArg List.length empty
  simp at length
  omega

/-- The text of digits with a point names their number, divided by ten for every
place. -/
theorem decimal?_pointed_digitChars (t places : Nat) :
    decimal? (pointed (digitChars t) places) = some ⟨t, -(places : Int)⟩ := by
  have nonempty := take_padded_ne_nil places (digitChars t)
  have value := ofDigitChars_replicate_append (places + 1 - (digitChars t).length) (digitChars t)
  have long : places ≤ (List.replicate (places + 1 - (digitChars t).length) '0' ++
      digitChars t).length := by
    rw [List.length_append, List.length_replicate]
    omega
  rw [pointed, decimal?_pointed (fun c mem => isDigit_of_mem_padded (List.mem_of_mem_take mem))
    (fun c mem => isDigit_of_mem_padded (List.mem_of_mem_drop mem)) nonempty,
    List.take_append_drop, value, ofDigitChars_digitChars, List.length_drop]
  congr 2
  omega

/-- **The positional text of a decimal** names a decimal of the same value:
`n / 10 ^ k` is `d / 10 ^ j`. -/
theorem decimal?_positional (n k : Nat) :
    ∃ d j : Nat, decimal? (Decimal.positional ⟨n, -(k : Int)⟩) = some ⟨d, -(j : Int)⟩ ∧
      d * 10 ^ k = n * 10 ^ j := by
  by_cases zero : n = 0
  · subst zero
    exact ⟨0, 0, by simp [Decimal.positional, Decimal.trimmed]; rfl, by simp⟩
  · obtain ⟨t, z, trimmed, value⟩ := trimmed_eq k zero
    simp only [Decimal.positional, trimmed]
    by_cases whole : k ≤ z
    · refine ⟨t * 10 ^ (z - k), 0, ?_, ?_⟩
      · rw [if_pos (by omega), decimal?_digits ?_ (by simp [digitChars_ne_nil]),
          ofDigitChars_append_replicate, ofDigitChars_digitChars,
          show ((z : Int) - k).toNat = z - k by omega]
        · rfl
        · intro c mem
          rcases List.mem_append.1 mem with mem | mem
          · exact isDigit_of_mem_digitChars mem
          · exact isDigit_of_mem_replicate mem
      · rw [mul_assoc, ← pow_add, Nat.sub_add_cancel whole, value, pow_zero, mul_one]
    · refine ⟨t, k - z, ?_, ?_⟩
      · rw [if_neg (by omega), show (-((z : Int) - k)).toNat = k - z by omega]
        exact decimal?_pointed_digitChars t (k - z)
      · rw [← value, mul_assoc, ← pow_add]
        congr 2
        omega

/-- Positional text begins with a digit. -/
theorem positional_eq_cons (d : Decimal) :
    ∃ c cs, d.positional = c :: cs ∧ c.isDigit = true := by
  have starts : ∀ {ds rest : List Char}, ds ≠ [] → (∀ c ∈ ds, c.isDigit = true) →
      ∃ c cs, ds ++ rest = c :: cs ∧ c.isDigit = true := by
    intro ds rest nonempty digits
    obtain ⟨c, cs, rfl⟩ := List.exists_cons_of_ne_nil nonempty
    exact ⟨c, cs ++ rest, rfl, digits c List.mem_cons_self⟩
  simp only [Decimal.positional]
  split
  · exact starts (digitChars_ne_nil _) fun _ mem => isDigit_of_mem_digitChars mem
  · exact starts (take_padded_ne_nil _ _)
      fun _ mem => isDigit_of_mem_padded (List.mem_of_mem_take mem)

/-- No word begins with a digit. -/
theorem word?_of_isDigit {c : Char} (cs : List Char) (digit : c.isDigit = true) :
    word? (c :: cs) = none := by
  have lower : c.toLower = c := by
    apply Char.toLower_eq_of_not_isUpper
    simp [Char.isUpper, Char.isDigit, UInt32.le_iff_toNat_le] at digit ⊢
    omega
  have notI : c ≠ 'i' := by
    rintro rfl
    simp at digit
  have notN : c ≠ 'n' := by
    rintro rfl
    simp at digit
  simp [word?, lower, notI, notN]

/-! ## The shortest decimal -/

/-- The exact decimal has the value of its number in units. -/
theorem units_of_tens {n m s j u : Nat}
    (value : n * 10 ^ (u - s) = m * 2 ^ (s - u) * 5 ^ (u - s) * 10 ^ j) :
    n * 2 ^ u = m * 2 ^ s * 10 ^ j := by
  have halves : n * 2 ^ (u - s) = m * 2 ^ (s - u) * 10 ^ j := by
    refine Nat.eq_of_mul_eq_mul_right (show 0 < 5 ^ (u - s) by positivity) ?_
    rw [mul_assoc, ← mul_pow, show 2 * 5 = 10 from rfl, value]
    ring
  have below : u = u - s + min u s := by omega
  have above : s = s - u + min u s := by omega
  calc n * 2 ^ u = n * 2 ^ (u - s) * 2 ^ min u s := by rw [mul_assoc, ← pow_add, ← below]
    _ = m * (2 ^ (s - u) * 2 ^ min u s) * 10 ^ j := by rw [halves]; ring
    _ = m * 2 ^ s * 10 ^ j := by rw [← pow_add, ← above]

/-- The exact decimal of a finite number reads back. -/
theorem reads_exactDecimal {x : Float} (finite : magnitudeBits x < infinityBits) :
    (exactDecimal x).reads (magnitudeBits x) = true := by
  obtain ⟨d, j, named, value⟩ := decimal?_positional
    (mantissa x * 2 ^ (scale x - unitPlaces) * 5 ^ (unitPlaces - scale x)) (unitPlaces - scale x)
  obtain ⟨c, cs, text, digit⟩ := positional_eq_cons (exactDecimal x)
  have named : decimal? (exactDecimal x).positional = some ⟨d, -(j : Int)⟩ := named
  rw [Decimal.reads, magnitude?, named, text, word?_of_isDigit cs digit, Option.none_or,
    Option.map_some, nearest_of_units (canonical_mantissa_scale x) (units_of_tens value),
    scale_mul_add_mantissa, Nat.min_eq_right (Nat.le_of_lt finite)]
  exact beq_self_eq_true _

/-- **The shortest decimal** of a finite number reads back. -/
theorem reads_shortest (tie : Tie) {x : Float} (finite : magnitudeBits x < infinityBits) :
    (shortest tie x).reads (magnitudeBits x) = true := by
  rw [shortest]
  cases found : (exactDecimal x).shortest? tie (magnitudeBits x) with
  | none => exact reads_exactDecimal finite
  | some d =>
    rw [Decimal.shortest?] at found
    obtain ⟨n, _, found⟩ := List.exists_of_findSome?_eq_some found
    exact List.find?_some (p := fun d : Decimal => d.reads (magnitudeBits x)) found

/-! ## Reading what has been written -/

/-- The sign is read off in front of what does not begin with one. -/
theorem splitSign_signChars (x : Float) {c : Char} (cs : List Char) (plain : c ≠ '-' ∧ c ≠ '+') :
    splitSign (signChars x ++ c :: cs) = (isNegative x, c :: cs) := by
  rw [signChars]
  cases isNegative x
  · simp only [Bool.false_eq_true, if_false, List.nil_append]
    unfold splitSign
    split <;> simp_all
  · rfl

/-- The text of a magnitude has no sign and names that magnitude. -/
theorem magnitude?_magnitudeChars {x : Float} (defined : magnitudeBits x ≤ infinityBits) :
    ∃ c cs, magnitudeChars x = c :: cs ∧ (c ≠ '-' ∧ c ≠ '+') ∧
      magnitude? (c :: cs) = some (magnitudeBits x) := by
  rw [magnitudeChars]
  split
  · next infinite => exact ⟨'i', ['n', 'f'], rfl, by decide, congrArg some infinite⟩
  · next finite =>
    have reads := reads_shortest .up (Nat.lt_of_le_of_ne defined (Ne.symm finite))
    obtain ⟨c, cs, text, digit⟩ := positional_eq_cons (shortest .up x)
    refine ⟨c, cs, text, ?_, ?_⟩
    · constructor <;> (rintro rfl; simp at digit)
    · rw [Decimal.reads, text] at reads
      exact eq_of_beq reads

/-- Reading splits off the sign and reads the magnitude. -/
theorem read?_ofList (cs : List Char) :
    read? (String.ofList cs) = (magnitude? (splitSign cs).2).map (ofMagnitude (splitSign cs).1) := by
  rw [read?, String.toList_ofList]

/-- **What is written is read back.** -/
theorem read?_write (x : Float) : read? (write x) = some x := by
  rw [write, read?_ofList]
  split
  · next undefined =>
    have word : magnitude? ['N', 'a', 'N'] = some undefinedBits := by decide
    rw [show splitSign ['N', 'a', 'N'] = (false, ['N', 'a', 'N']) from rfl, word, Option.map_some,
      ofMagnitude_undefinedBits undefined]
  · next defined =>
    obtain ⟨c, cs, text, plain, names⟩ := magnitude?_magnitudeChars (Nat.le_of_not_lt defined)
    rw [text, splitSign_signChars x cs plain, names, Option.map_some, ofMagnitude_magnitudeBits]

end WorldModel.Number
