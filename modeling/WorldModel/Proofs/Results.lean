/-
When a computation that may be refused succeeds.

What is read or checked comes in steps, each of which may stop it: one after the other, one
for each entry of a list, or one for each entry with what was made of the entries before.
Each of them succeeds when all of its steps do (`bind_eq_ok_iff`, `mapM_eq_ok_iff`,
`foldlM_eq_ok_iff`).
-/
import Mathlib.Data.List.Basic
import Mathlib.Data.List.Forall2

set_option autoImplicit false

namespace WorldModel

variable {ε α β : Type}

theorem map_eq_ok_iff {f : α → β} {x : Except ε α} {b : β} :
    x.map f = .ok b ↔ ∃ a, x = .ok a ∧ f a = b := by
  cases x <;> simp [Except.map]

/-- A result of which something is known is there. -/
theorem exists_ok_of_map_toOption {f : α → β} {x : Except ε α} {b : β}
    (known : x.toOption.map f = some b) : ∃ a, x = .ok a ∧ f a = b := by
  cases x with
  | error e => cases known
  | ok a => exact ⟨a, rfl, Option.some.inj known⟩

theorem bind_eq_ok_iff {x : Except ε α} {f : α → Except ε β} {b : β} :
    x >>= f = .ok b ↔ ∃ a, x = .ok a ∧ f a = .ok b := by
  cases x <;> simp [bind, Except.bind]

/-- Reading several things succeeds when each of them is read. -/
theorem mapM_eq_ok_iff {f : α → Except ε β} {as : List α} {bs : List β} :
    as.mapM f = .ok bs ↔ List.Forall₂ (fun a b => f a = .ok b) as bs := by
  induction as generalizing bs with
  | nil =>
    rw [List.mapM_nil, List.forall₂_nil_left_iff]
    exact ⟨fun h => (Except.ok.inj h).symm, fun h => h ▸ rfl⟩
  | cons a as ih =>
    rw [List.mapM_cons, bind_eq_ok_iff]
    constructor
    · rintro ⟨b, first, rest⟩
      obtain ⟨cs, later, same⟩ := bind_eq_ok_iff.1 rest
      obtain rfl := Except.ok.inj same
      exact .cons first (ih.1 later)
    · rintro (_ | ⟨first, later⟩)
      exact ⟨_, first, bind_eq_ok_iff.2 ⟨_, ih.2 later, rfl⟩⟩

/-- **Checks of one entry after the other** succeed when every entry is good, and make what
the entries make without the checks. -/
theorem foldlM_eq_ok_iff {step : β → α → Except ε β} {make : β → α → β} {good : α → Prop}
    (step_iff : ∀ b a c, step b a = .ok c ↔ good a ∧ c = make b a) {as : List α} {b c : β} :
    as.foldlM step b = .ok c ↔ (∀ a ∈ as, good a) ∧ c = as.foldl make b := by
  induction as generalizing b with
  | nil =>
    rw [List.foldlM_nil, List.foldl_nil]
    exact ⟨fun same => ⟨by simp, (Except.ok.inj same).symm⟩, fun both => both.2 ▸ rfl⟩
  | cons a as ih =>
    rw [List.foldlM_cons, bind_eq_ok_iff, List.forall_mem_cons, List.foldl_cons]
    constructor
    · rintro ⟨b', first, rest⟩
      obtain ⟨isGood, rfl⟩ := (step_iff _ _ _).1 first
      obtain ⟨others, same⟩ := ih.1 rest
      exact ⟨⟨isGood, others⟩, same⟩
    · rintro ⟨⟨isGood, others⟩, same⟩
      exact ⟨_, (step_iff _ _ _).2 ⟨isGood, rfl⟩, ih.2 ⟨others, same⟩⟩

end WorldModel
