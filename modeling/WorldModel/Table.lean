/-
Tables from names to values, kept in the order of their names.

A table is a list of pairs with increasing keys, so that what it lists it lists in
the order of code points, whatever the order in which it was filled. Inserting an
existing key replaces its value.

**Main statements.** After an insertion the new value is found under its key and
all other keys are found as before (`find?_insert`), and keys that increased still
do (`increasing_insert`), so that every table made from pairs has increasing keys
(`increasing_ofList`).
-/

set_option autoImplicit false

namespace WorldModel

/-- Pairs in increasing order of their keys. -/
abbrev Table (α : Type) :=
  List (String × α)

namespace Table

variable {α : Type}

/-! ## Looking up and inserting -/

/-- The value of a key. -/
def find? (t : Table α) (key : String) : Option α :=
  (List.find? (fun p => p.1 == key) t).map (·.2)

/-- The keys in increasing order. -/
def keys (t : Table α) : List String :=
  t.map (·.1)

/-- Whether a key is present. -/
def hasKey (t : Table α) (key : String) : Bool :=
  (keys t).contains key

/-- Adds a pair at its place, or replaces the value of its key. -/
def insert (key : String) (value : α) : Table α → Table α
  | [] => [(key, value)]
  | (k, v) :: t =>
    if key < k then (key, value) :: (k, v) :: t
    else if key = k then (key, value) :: t
    else (k, v) :: insert key value t

/-- The table of some pairs, the last one of a key winning. -/
def ofList (ps : List (String × α)) : Table α :=
  ps.foldl (fun t p => insert p.1 p.2 t) []

/-! ## What is found -/

/-- The first pair answers for its key; any other key is looked up in the rest. -/
theorem find?_cons (k : String) (v : α) (t : Table α) (key : String) :
    find? ((k, v) :: t) key = if k = key then some v else find? t key := by
  by_cases h : k = key <;> simp [find?, h, beq_false_of_ne]

/-- **An insertion is seen under its own key** and nowhere else. -/
theorem find?_insert (key : String) (value : α) (t : Table α) (other : String) :
    find? (insert key value t) other = if key = other then some value else find? t other := by
  induction t with
  | nil => simp [insert, find?_cons]
  | cons p t ih => grind [insert, find?_cons]

/-- An insertion adds its key to the keys. -/
theorem mem_keys_insert {key : String} {value : α} {t : Table α} {other : String} :
    other ∈ keys (insert key value t) ↔ other = key ∨ other ∈ keys t := by
  induction t with
  | nil => simp [insert, keys]
  | cons p t ih => grind [insert, keys]

/-- The keys are what something is found under. -/
theorem mem_keys_iff {t : Table α} {key : String} : key ∈ keys t ↔ ∃ v, find? t key = some v := by
  induction t with
  | nil => simp [keys, find?]
  | cons p t ih =>
    obtain ⟨k, u⟩ := p
    rw [keys, List.map_cons, List.mem_cons, ← keys, ih, find?_cons]
    split
    · next same => simp [same]
    · next differ => rw [or_iff_right fun same => differ same.symm]

/-! ## The order of the keys -/

/-- The keys of the table increase. -/
def Increasing (t : Table α) : Prop :=
  (keys t).Pairwise (· < ·)

/-- Keys increase when the first one is below the others and the others increase. -/
theorem increasing_cons (k : String) (v : α) (t : Table α) :
    Increasing ((k, v) :: t) ↔ (∀ other ∈ keys t, k < other) ∧ Increasing t := by
  simp [Increasing, keys]

/-- **Increasing keys still increase** after an insertion. -/
theorem increasing_insert {t : Table α} (h : Increasing t) (key : String) (value : α) :
    Increasing (insert key value t) := by
  induction t with
  | nil => simp [Increasing, insert, keys]
  | cons p t ih =>
    obtain ⟨k, v⟩ := p
    obtain ⟨first, rest⟩ := (increasing_cons k v t).1 h
    rw [insert]
    split
    · next less =>
      -- the new key comes first
      refine (increasing_cons _ _ _).2 ⟨fun other mem => ?_, h⟩
      rcases List.mem_cons.1 mem with rfl | mem
      · exact less
      · exact String.lt_trans less (first other mem)
    · next notLess =>
      split
      · next same =>
        exact (increasing_cons _ _ _).2 ⟨fun other mem => same ▸ first other mem, rest⟩
      · next differ =>
        -- the new key goes somewhere behind `k`
        have above : k < key :=
          String.not_le.1 fun le => differ (String.le_antisymm le (String.not_lt.1 notLess))
        refine (increasing_cons _ _ _).2 ⟨fun other mem => ?_, ih rest⟩
        rcases mem_keys_insert.1 mem with rfl | mem
        · exact above
        · exact first other mem

/-- A table with increasing keys holds the pairs that are found in it. -/
theorem find?_eq_some_iff {t : Table α} (h : Increasing t) {key : String} {v : α} :
    find? t key = some v ↔ (key, v) ∈ t := by
  induction t with
  | nil => simp [find?]
  | cons p t ih =>
    obtain ⟨k, u⟩ := p
    obtain ⟨first, rest⟩ := (increasing_cons k u t).1 h
    rw [find?_cons, List.mem_cons, Prod.mk.injEq]
    split
    · next same =>
      -- no later pair has the first key
      have fresh : (key, v) ∉ t := fun mem =>
        String.lt_irrefl k (first k (same ▸ List.mem_map_of_mem mem))
      rw [or_iff_left fresh, Option.some.injEq, and_iff_right same.symm, eq_comm]
    · next differ => rw [ih rest, or_iff_right fun both => differ both.1.symm]

/-- Every table made from pairs has increasing keys. -/
theorem increasing_ofList (ps : List (String × α)) : Increasing (ofList ps) := by
  suffices ∀ t : Table α, Increasing t → Increasing (ps.foldl (fun t p => insert p.1 p.2 t) t) from
    this [] List.Pairwise.nil
  induction ps with
  | nil => exact fun t h => h
  | cons p ps ih => exact fun t h => ih _ (increasing_insert h p.1 p.2)

end Table

end WorldModel
