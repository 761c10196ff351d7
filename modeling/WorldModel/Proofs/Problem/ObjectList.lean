/-
Object lists by place.

The reader takes an object list from the left, one item or two at a time, and keeps the names that wait
for a type. What comes out can be said without it. Every place of the list plays a part that the places
before it decide: a dash separates unless it stands right behind a separator, what stands behind a
separator is a type, also if it is a dash, and all the rest are names (`IsSeparator`, `IsType`, `IsName`).
A name is of the type behind the first separator after it, or of the root type if none comes
(`TypeFrom`).

**The idea.** Behind a name, and behind a separator with its type, the list begins anew: the parts there
are those of the list without what stands before (`isSeparator_drop`). These are the two steps of the
reader. Names that wait have no separator between them and the place reached, so they all get the type
from there on (`exists_lists_of_typedList`). As a list has one listing of its names (`Lists.unique`), it
is the one that is read. **Main statement.** `typedList_pairs_names`.
-/
import Mathlib.Data.List.Sort
import Mathlib.Order.Bounds.Basic
import WorldModel.Proofs.Problem.Sections

set_option autoImplicit false

namespace WorldModel.Reader

/-! ## The parts that places play -/

/-- The item at a place, if it is a word. -/
def wordAt? (sxs : List SExpr) (i : Nat) : Option String :=
  sxs[i]?.bind SExpr.atom?

/-- **A separator** is a dash that does not stand right behind another separator. -/
def IsSeparator (sxs : List SExpr) : Nat → Prop
  | 0 => wordAt? sxs 0 = some "-"
  | i + 1 => wordAt? sxs (i + 1) = some "-" ∧ ¬ IsSeparator sxs i

/-- **A type** stands right behind a separator. -/
def IsType (sxs : List SExpr) (i : Nat) : Prop :=
  ∃ d, IsSeparator sxs d ∧ i = d + 1

/-- **A name** is an item that is neither a separator nor a type. -/
structure IsName (sxs : List SExpr) (i : Nat) : Prop where
  inside : i < sxs.length
  noSeparator : ¬ IsSeparator sxs i
  noType : ¬ IsType sxs i

/-- **The type from a place on**: that behind the first separator which comes there or later, or the root
type if none does. -/
def TypeFrom (sxs : List SExpr) (i : Nat) (type : String) : Prop :=
  (∃ d, IsLeast {d | i ≤ d ∧ IsSeparator sxs d} d ∧ wordAt? sxs (d + 1) = some type) ∨
    (∀ d, i ≤ d → ¬ IsSeparator sxs d) ∧ type = Hierarchy.rootType

/-- **The list is of words, and no separator is last.** -/
structure WellSeparated (sxs : List SExpr) : Prop where
  words : ∀ sx ∈ sxs, ∃ word, sx.atom? = some word
  followed : ∀ d, IsSeparator sxs d → d + 1 < sxs.length

/-- **The pairs list the names**: all of them, in order and each once, with the type from behind the
name on. -/
def Lists (sxs : List SExpr) (pairs : List (String × String)) : Prop :=
  ∃ places : List Nat, places.Pairwise (· < ·) ∧ (∀ i, i ∈ places ↔ IsName sxs i) ∧
    List.Forall₂ (fun i p => wordAt? sxs i = some p.1 ∧ TypeFrom sxs (i + 1) p.2) places pairs

/-- There is one type from a place on. -/
theorem TypeFrom.unique {sxs : List SExpr} {i : Nat} {type other : String}
    (h : TypeFrom sxs i type) (h' : TypeFrom sxs i other) : type = other := by
  rcases h with ⟨d, first, word⟩ | ⟨none_, rfl⟩ <;> rcases h' with ⟨e, first', word'⟩ | ⟨none', rfl⟩
  · obtain rfl := first.unique first'
    exact Option.some.inj (word.symm.trans word')
  · exact absurd first.1.2 (none' d first.1.1)
  · exact absurd first'.1.2 (none_ e first'.1.1)
  · rfl

/-- **A list has one listing** of its names. -/
theorem Lists.unique {sxs : List SExpr} {pairs others : List (String × String)}
    (h : Lists sxs pairs) (h' : Lists sxs others) : pairs = others := by
  obtain ⟨places, ordered, names, each⟩ := h
  obtain ⟨places', ordered', names', each'⟩ := h'
  obtain rfl : places = places' :=
    ordered.eq_of_mem_iff ordered' fun i => (names i).trans (names' i).symm
  clear ordered ordered' names names'
  induction each generalizing others with
  | nil =>
    cases each'
    rfl
  | cons first _ ih =>
    rcases each' with _ | ⟨first', later'⟩
    refine congrArg₂ _ (Prod.ext ?_ (first.2.unique first'.2)) (ih later')
    exact Option.some.inj (first.1.symm.trans first'.1)

/-! ## Beginning anew -/

theorem lt_length_of_isSeparator {sxs : List SExpr} {d : Nat} (separator : IsSeparator sxs d) :
    d < sxs.length := by
  have dash : wordAt? sxs d = some "-" := by
    cases d with
    | zero => exact separator
    | succ d => exact separator.1
  obtain ⟨sx, found, _⟩ := Option.bind_eq_some_iff.1 dash
  exact (List.getElem?_eq_some_iff.1 found).1

section Drop

variable {sxs : List SExpr} {n : Nat}

theorem wordAt?_drop (i : Nat) : wordAt? (sxs.drop n) i = wordAt? sxs (n + i) := by
  rw [wordAt?, List.getElem?_drop, wordAt?]

variable (fresh : ∀ d, IsSeparator sxs d → d + 1 ≠ n)
include fresh

/-- **Where no type is due** the list begins anew: a place is a separator if it is one in the list without
what stands before. -/
theorem isSeparator_drop (i : Nat) : IsSeparator (sxs.drop n) i ↔ IsSeparator sxs (n + i) := by
  induction i with
  | zero =>
    rw [IsSeparator, wordAt?_drop, Nat.add_zero]
    cases n with
    | zero => rfl
    | succ m =>
      have noType : ¬ IsSeparator sxs m := fun before => fresh m before rfl
      rw [IsSeparator, and_iff_left noType]
  | succ i ih => rw [IsSeparator, wordAt?_drop, ih, ← Nat.add_assoc, IsSeparator]

theorem isName_drop (i : Nat) : IsName (sxs.drop n) i ↔ IsName sxs (n + i) := by
  have inside : i < (sxs.drop n).length ↔ n + i < sxs.length := by
    rw [List.length_drop]
    omega
  have type : IsType (sxs.drop n) i ↔ IsType sxs (n + i) := by
    constructor
    · rintro ⟨d, separator, rfl⟩
      exact ⟨n + d, (isSeparator_drop fresh d).1 separator, rfl⟩
    · rintro ⟨d, separator, eq⟩
      -- the separator in front is not the one that would make the first place a type
      have later : n ≤ d := by
        have := fresh d separator
        omega
      obtain ⟨e, rfl⟩ := Nat.exists_eq_add_of_le later
      exact ⟨e, (isSeparator_drop fresh e).2 separator, by omega⟩
  constructor
  · rintro ⟨within, noSeparator, noType⟩
    exact ⟨inside.1 within, mt (isSeparator_drop fresh i).2 noSeparator, mt type.2 noType⟩
  · rintro ⟨within, noSeparator, noType⟩
    exact ⟨inside.2 within, mt (isSeparator_drop fresh i).1 noSeparator, mt type.1 noType⟩

theorem typeFrom_of_drop {i : Nat} {type : String} (h : TypeFrom (sxs.drop n) i type) :
    TypeFrom sxs (n + i) type := by
  rcases h with ⟨d, ⟨⟨from_, separator⟩, least⟩, word⟩ | ⟨none_, rfl⟩
  · refine .inl ⟨n + d, ⟨⟨by omega, (isSeparator_drop fresh d).1 separator⟩, ?_⟩, ?_⟩
    · rintro e ⟨later, other⟩
      obtain ⟨k, rfl⟩ := Nat.exists_eq_add_of_le (show n ≤ e by omega)
      have first : d ≤ k := least ⟨by omega, (isSeparator_drop fresh k).2 other⟩
      omega
    · rwa [wordAt?_drop, ← Nat.add_assoc] at word
  · refine .inr ⟨fun e later separator => ?_, rfl⟩
    obtain ⟨k, rfl⟩ := Nat.exists_eq_add_of_le (show n ≤ e by omega)
    exact none_ k (by omega) ((isSeparator_drop fresh k).2 separator)

/-- A list is well separated if what begins anew is, and what stands before is of words. -/
theorem wellSeparated_drop_iff (within : n ≤ sxs.length)
    (words : ∀ sx ∈ sxs.take n, ∃ word, sx.atom? = some word) :
    WellSeparated (sxs.drop n) ↔ WellSeparated sxs := by
  constructor
  · intro h
    refine ⟨?_, fun d separator => ?_⟩
    · rw [← List.take_append_drop n sxs]
      exact List.forall_mem_append.2 ⟨words, h.words⟩
    · by_cases before : d < n
      · have := fresh d separator
        omega
      · obtain ⟨e, rfl⟩ := Nat.exists_eq_add_of_le (Nat.le_of_not_lt before)
        have := h.followed e ((isSeparator_drop fresh e).2 separator)
        rw [List.length_drop] at this
        omega
  · intro h
    refine ⟨fun sx mem => h.words sx (List.mem_of_mem_drop mem), fun d separator => ?_⟩
    have := h.followed (n + d) ((isSeparator_drop fresh d).1 separator)
    rw [List.length_drop]
    omega

/-- The names of what begins anew are names of the list, and those that stand there or later are listed. -/
theorem exists_places_of_drop {pairs : List (String × String)} (h : Lists (sxs.drop n) pairs) :
    ∃ places : List Nat, places.Pairwise (· < ·) ∧ (∀ i, i ∈ places ↔ n ≤ i ∧ IsName sxs i) ∧
      List.Forall₂ (fun i p => wordAt? sxs i = some p.1 ∧ TypeFrom sxs (i + 1) p.2) places pairs := by
  obtain ⟨places, ordered, names, each⟩ := h
  refine ⟨places.map (n + ·), ?_, fun i => ?_, ?_⟩
  · exact List.pairwise_map.2 (ordered.imp fun later => by omega)
  · rw [List.mem_map]
    constructor
    · rintro ⟨j, mem, rfl⟩
      exact ⟨Nat.le_add_right n j, (isName_drop fresh j).1 ((names j).1 mem)⟩
    · rintro ⟨later, name⟩
      obtain ⟨j, rfl⟩ := Nat.exists_eq_add_of_le later
      exact ⟨j, (names j).2 ((isName_drop fresh j).2 name), rfl⟩
  · refine List.forall₂_map_left_iff.2 (each.imp fun i p given => ⟨?_, ?_⟩)
    · rw [← wordAt?_drop, given.1]
    · rw [Nat.add_assoc]
      exact typeFrom_of_drop fresh given.2

end Drop

/-! ## The two steps -/

/-- A place that is no separator does not change the type. -/
theorem typeFrom_of_succ {sxs : List SExpr} {i : Nat} {type : String} (no : ¬ IsSeparator sxs i)
    (h : TypeFrom sxs (i + 1) type) : TypeFrom sxs i type := by
  have later : ∀ d, IsSeparator sxs d → i ≤ d → i + 1 ≤ d := by
    intro d separator from_
    have other : d ≠ i := by
      rintro rfl
      exact no separator
    omega
  rcases h with ⟨d, ⟨⟨from_, separator⟩, least⟩, word⟩ | ⟨none_, rfl⟩
  · exact .inl ⟨d, ⟨⟨by omega, separator⟩, fun e h => least ⟨later e h.2 h.1, h.2⟩⟩, word⟩
  · exact .inr ⟨fun d from_ separator => none_ d (later d separator from_) separator, rfl⟩

section Steps

variable {rest : List SExpr} {word type : String} {place span : Span}

/-- Behind a name no type is due. -/
theorem fresh_of_name (noDash : word ≠ "-") (d : Nat)
    (separator : IsSeparator (.atom word place :: rest) d) : d + 1 ≠ 1 := by
  intro first
  obtain rfl : d = 0 := by omega
  exact noDash (Option.some.inj separator)

/-- Behind a separator with its type no type is due. -/
theorem fresh_of_dash (sx : SExpr) (d : Nat)
    (separator : IsSeparator (.atom "-" place :: sx :: rest) d) : d + 1 ≠ 2 := by
  intro second
  obtain rfl : d = 1 := by omega
  exact separator.2 rfl

/-- **A name in front** is listed first, with the type from there on. -/
theorem lists_of_name (noDash : word ≠ "-") {pairs : List (String × String)}
    (later : Lists rest pairs) (given : TypeFrom rest 0 type) :
    Lists (.atom word place :: rest) ((word, type) :: pairs) := by
  have fresh : ∀ d, IsSeparator (.atom word place :: rest) d → d + 1 ≠ 1 := fresh_of_name noDash
  obtain ⟨places, ordered, names, each⟩ := exists_places_of_drop fresh later
  have first : IsName (.atom word place :: rest) 0 := by
    refine ⟨Nat.zero_lt_succ _, fun separator => fresh 0 separator rfl, ?_⟩
    rintro ⟨d, _, same⟩
    cases same
  refine ⟨0 :: places, List.pairwise_cons.2 ⟨fun i mem => ((names i).1 mem).1, ordered⟩,
    fun i => ?_, .cons ⟨rfl, typeFrom_of_drop fresh given⟩ each⟩
  rw [List.mem_cons, names]
  constructor
  · rintro (rfl | ⟨_, name⟩)
    · exact first
    · exact name
  · intro name
    rcases Nat.eq_zero_or_pos i with front | behind
    · exact .inl front
    · exact .inr ⟨behind, name⟩

/-- **A separator in front** and its type are not listed. -/
theorem lists_of_dash {sx : SExpr} {pairs : List (String × String)} (later : Lists rest pairs) :
    Lists (.atom "-" place :: sx :: rest) pairs := by
  have fresh : ∀ d, IsSeparator (.atom "-" place :: sx :: rest) d → d + 1 ≠ 2 := fresh_of_dash sx
  obtain ⟨places, ordered, names, each⟩ := exists_places_of_drop fresh later
  refine ⟨places, ordered, fun i => (names i).trans (and_iff_right_of_imp fun name => ?_), each⟩
  match i with
  | 0 => exact absurd rfl name.noSeparator
  | 1 => exact absurd ⟨0, rfl, rfl⟩ name.noType
  | i + 2 => omega

end Steps

/-! ## What the reader makes of a list -/

/-- **When a list is read**, whatever waits for a type. -/
theorem exists_typedList_iff {pending : List String} {sxs : List SExpr} :
    (∃ pairs, typedList pending sxs = .ok pairs) ↔ WellSeparated sxs := by
  fun_induction typedList pending sxs with
  | case1 pending =>
    refine iff_of_true ⟨_, rfl⟩ ⟨by simp, fun d separator => ?_⟩
    exact absurd (lt_length_of_isSeparator separator) (Nat.not_lt_zero d)
  | case2 pending items span rest =>
    refine iff_of_false ?_ fun h => ?_
    · rintro ⟨_, read⟩
      exact faulty_ne_ok read
    · obtain ⟨word, atom⟩ := h.words _ List.mem_cons_self
      cases atom
  | case3 pending place type span rest ih =>
    -- the names that wait do not bear on whether the rest is read
    have read : (∃ pairs, (typedList [] rest).map (fun later =>
        pending.map (fun n => (n, type)) ++ later) = .ok pairs) ↔
          ∃ later, typedList [] rest = .ok later := by
      cases typedList [] rest <;> simp [Except.map]
    rw [read, ih]
    exact wellSeparated_drop_iff (n := 2) (fresh_of_dash _) (by simp) (by simp [SExpr.atom?])
  | case4 pending place rest noWord =>
    refine iff_of_false (by simp) fun h => ?_
    rcases rest with _ | ⟨⟨type, span⟩ | ⟨items, span⟩, rest⟩
    · exact absurd (h.followed 0 rfl) (by simp)
    · exact noWord type span rest rfl
    · obtain ⟨word, atom⟩ := h.words (.list items span) (by simp)
      cases atom
  | case5 pending word place rest noDash ih =>
    rw [ih]
    exact wellSeparated_drop_iff (n := 1) (fresh_of_name noDash) (by simp) (by simp [SExpr.atom?])

/-- **What is read of a list**: the names that wait get the type from the first place on, and the names
in the list come behind them. -/
theorem exists_lists_of_typedList {pending : List String} {sxs : List SExpr}
    {pairs : List (String × String)} (read : typedList pending sxs = .ok pairs) :
    ∃ type listed, pairs = pending.map (fun n => (n, type)) ++ listed ∧ TypeFrom sxs 0 type ∧
      Lists sxs listed := by
  fun_induction typedList pending sxs generalizing pairs with
  | case1 pending =>
    obtain rfl := Except.ok.inj read
    have none_ : ∀ d, ¬ IsSeparator [] d :=
      fun d separator => Nat.not_lt_zero d (lt_length_of_isSeparator separator)
    refine ⟨_, [], (List.append_nil _).symm, .inr ⟨fun d _ => none_ d, rfl⟩,
      [], .nil, fun i => iff_of_false List.not_mem_nil fun name => ?_, .nil⟩
    exact Nat.not_lt_zero i name.inside
  | case2 => exact absurd read faulty_ne_ok
  | case3 pending place type span rest ih =>
    -- no name waits behind a type, so that what is read later is all listed
    obtain ⟨later, readLater, rfl⟩ := map_eq_ok_iff.1 read
    obtain ⟨_, _, rfl, _, lists⟩ := ih readLater
    exact ⟨type, later, rfl, .inl ⟨0, ⟨⟨Nat.le_refl 0, rfl⟩, fun d _ => Nat.zero_le d⟩, rfl⟩,
      lists_of_dash lists⟩
  | case4 => cases read
  | case5 pending word place rest noDash ih =>
    obtain ⟨type, listed, rfl, given, lists⟩ := ih read
    have fresh : ∀ d, IsSeparator (.atom word place :: rest) d → d + 1 ≠ 1 := fresh_of_name noDash
    refine ⟨type, (word, type) :: listed, by simp, ?_, lists_of_name noDash lists given⟩
    exact typeFrom_of_succ (fun separator => fresh 0 separator rfl) (typeFrom_of_drop fresh given)

/-- **Typed object lists.** A list is read if and only if it is of words and no separator is last. What
is read of it are the pairs that list its names, in order and each once, with the type behind the first
separator after the name, or the root type if there is none. -/
theorem typedList_pairs_names (sxs : List SExpr) :
    ((∃ pairs, typedList [] sxs = .ok pairs) ↔ WellSeparated sxs) ∧
      ∀ pairs, typedList [] sxs = .ok pairs ↔ WellSeparated sxs ∧ Lists sxs pairs := by
  have lists : ∀ pairs, typedList [] sxs = .ok pairs → Lists sxs pairs := by
    intro pairs read
    obtain ⟨_, listed, rfl, _, lists⟩ := exists_lists_of_typedList read
    exact lists
  refine ⟨exists_typedList_iff, fun pairs => ⟨fun read => ?_, fun ⟨separated, listed⟩ => ?_⟩⟩
  · exact ⟨exists_typedList_iff.1 ⟨pairs, read⟩, lists pairs read⟩
  · obtain ⟨others, read⟩ := exists_typedList_iff.2 separated
    rw [read, (lists others read).unique listed]

/-- A list of words. -/
def wordList (words : List String) : List SExpr :=
  words.map fun word => .atom word ⟨0, 0⟩

/-- A dash as a type, a type for two names, and a name without one; and a separator that is last. -/
theorem typedList_pairs_names_dashes :
    (WellSeparated (wordList ["a", "-", "-", "b", "c", "-", "room", "d"]) ∧
      Lists (wordList ["a", "-", "-", "b", "c", "-", "room", "d"])
        [("a", "-"), ("b", "room"), ("c", "room"), ("d", "object")]) ∧
      ¬ WellSeparated (wordList ["a", "-", "-", "-"]) := by
  have read : typedList [] (wordList ["a", "-", "-", "b", "c", "-", "room", "d"]) =
      .ok [("a", "-"), ("b", "room"), ("c", "room"), ("d", "object")] := rfl
  refine ⟨((typedList_pairs_names _).2 _).1 read, fun separated => ?_⟩
  obtain ⟨_, last⟩ := (typedList_pairs_names _).1.2 separated
  cases last

end WorldModel.Reader
