/-
An import accounts for every item, and the items that it skips have no part in it.

Each item is tried in the world that those before it have left. It is taken, and counted
once, or refused, and then it gets a line in the report and leaves the world as it was. So
the counts and the lines make up all items, and it makes no difference to the items that are
taken whether the refused ones stand between them or not: tried alone, each of them finds
the same world and is taken again (`trials_taken`).

**Main statement.** `importWith_accounts`, for every world, text and grammar: an import that
fails changes nothing; one that does not accounts for every constant of the domain and every
item of the problem; and a problem of just those items that are taken is imported with the
same outcome, where nothing of it is skipped.
-/
import WorldModel.Proofs.World.Atomic
import WorldModel.Proofs.World.Imported

set_option autoImplicit false

namespace WorldModel

/-! ## The items of a problem -/

/-- **Any items of a problem**, in their order, are those of a problem. -/
theorem Problem.exists_items_eq {p : Problem} {items : List ImportItem}
    (among : items.Sublist p.items) : ∃ q : Problem, q.name = p.name ∧ q.items = items := by
  obtain ⟨front, goals, rfl, amongFront, amongGoals⟩ := List.sublist_append_iff.1 among
  obtain ⟨front, contingent, rfl, amongFront, amongContingent⟩ :=
    List.sublist_append_iff.1 amongFront
  obtain ⟨objects, init, rfl, amongObjects, amongInit⟩ := List.sublist_append_iff.1 amongFront
  obtain ⟨es, _, rfl⟩ := List.sublist_map_iff.1 amongObjects
  obtain ⟨is, _, rfl⟩ := List.sublist_map_iff.1 amongInit
  obtain ⟨cs, _, rfl⟩ := List.sublist_map_iff.1 amongContingent
  obtain ⟨gs, one, rfl⟩ := List.sublist_map_iff.1 amongGoals
  have goal : gs.head?.toList = gs := by
    have few : gs.length ≤ 1 := one.length_le.trans (by cases p.goal <;> simp)
    match gs, few with
    | [], _ | [_], _ => rfl
  exact ⟨⟨p.name, es, is, cs, gs.head?⟩, rfl, by rw [Problem.items, goal]⟩

/-! ## Counting -/

/-- How many things a report says were added. -/
def ImportReport.added (r : ImportReport) : Nat :=
  r.objects + r.facts + r.fluents + r.contingents + r.goalSet.toNat

namespace ImportItem

/-- Whether the item is a goal. Of goals a report says whether one was set, not how many. -/
def isGoal : ImportItem → Bool
  | goal _ => true
  | _ => false

theorem goalSet_count (r : ImportReport) (item : ImportItem) :
    (item.count r).goalSet = (item.isGoal || r.goalSet) := by
  cases item <;> simp only [count, isGoal, Bool.true_or, Bool.false_or]
  split <;> rfl

/-- What is skipped is none of what is counted. -/
theorem count_skipped (r : ImportReport) (lines : List String) (item : ImportItem) :
    item.count { r with skipped := lines } = { item.count r with skipped := lines } := by
  cases item <;> simp only [count]
  split <;> rfl

theorem foldl_count_skipped (r : ImportReport) (lines : List String) (items : List ImportItem) :
    items.foldl count { r with skipped := lines } =
      { items.foldl count r with skipped := lines } := by
  induction items generalizing r with
  | nil => rfl
  | cons item items ih => rw [List.foldl_cons, count_skipped, ih, List.foldl_cons]

/-- **Every item counts for one**, except that a second goal does not. -/
theorem added_count {r : ImportReport} {item : ImportItem}
    (first : item.isGoal = true → r.goalSet = false) : (item.count r).added = r.added + 1 := by
  cases item with
  | object e =>
    simp only [count, ImportReport.added]
    omega
  | init f =>
    rw [count]
    split <;>
    · simp only [ImportReport.added]
      omega
  | contingent f =>
    simp only [count, ImportReport.added]
    omega
  | goal f => simp [count, ImportReport.added, first rfl]

/-- Items with one goal at most count for as many as they are. -/
theorem added_foldl_count {items : List ImportItem} {r : ImportReport}
    (once : items.countP isGoal + r.goalSet.toNat ≤ 1) :
    (items.foldl count r).added = r.added + items.length := by
  induction items generalizing r with
  | nil => rfl
  | cons item items ih =>
    rw [List.countP_cons] at once
    have first : item.isGoal = true → r.goalSet = false := by
      intro goal
      cases set : r.goalSet with
      | false => rfl
      | true =>
        simp only [goal, set, if_true, Bool.toNat_true] at once
        omega
    have later : items.countP isGoal + (item.count r).goalSet.toNat ≤ 1 := by
      rw [goalSet_count]
      cases goal : item.isGoal with
      | false => simpa [goal] using once
      | true =>
        simp only [goal, Bool.true_or, if_true, Bool.toNat_true] at once ⊢
        omega
    rw [List.foldl_cons, ih later, added_count first, List.length_cons]
    omega

/-- A problem has one goal at most. -/
theorem countP_isGoal_items (p : Problem) : p.items.countP isGoal ≤ 1 := by
  have none_ : ∀ {α : Type} (as : List α) (item : α → ImportItem), (∀ a, (item a).isGoal = false) →
      (as.map item).countP isGoal = 0 := by
    intro α as item no
    rw [List.countP_map]
    exact List.countP_eq_zero.2 fun a _ => by simp [no a]
  rw [Problem.items, List.countP_append, List.countP_append, List.countP_append,
    none_ _ object fun _ => rfl, none_ _ init fun _ => rfl, none_ _ contingent fun _ => rfl]
  refine (Nat.add_le_add_left List.countP_le_length _).trans ?_
  cases p.goal <;> simp

end ImportItem

namespace World

/-! ## Trials -/

/-- Every item with the refusal, if it is refused, in the world that those before it have
left. -/
def trials (w : World) : List ImportItem → List (ImportItem × Option Refusal)
  | [] => []
  | item :: items => (item, (w.addItem item).refusal) :: (w.addItem item).world.trials items

/-- **The items that are taken.** -/
def taken (w : World) (items : List ImportItem) : List ImportItem :=
  ((w.trials items).filter (·.2.isNone)).map (·.1)

/-- **The lines of the items that are skipped.** -/
def skippedLines (w : World) (items : List ImportItem) : List String :=
  (w.trials items).filterMap fun t => t.2.map fun r => t.1.text ++ ": " ++ r.message

theorem map_fst_trials (w : World) (items : List ImportItem) :
    (w.trials items).map (·.1) = items := by
  induction items generalizing w with
  | nil => rfl
  | cons item items ih => rw [trials, List.map_cons, ih]

theorem trials_append (w : World) (items later : List ImportItem) :
    w.trials (items ++ later) = w.trials items ++ (w.addItems items).trials later := by
  induction items generalizing w with
  | nil => rfl
  | cons item items ih =>
    rw [List.cons_append, trials, trials, ih, List.cons_append]
    rfl

theorem taken_append (w : World) (items later : List ImportItem) :
    w.taken (items ++ later) = w.taken items ++ (w.addItems items).taken later := by
  rw [taken, trials_append, List.filter_append, List.map_append, taken, taken]

theorem skippedLines_append (w : World) (items later : List ImportItem) :
    w.skippedLines (items ++ later) =
      w.skippedLines items ++ (w.addItems items).skippedLines later := by
  rw [skippedLines, trials_append, List.filterMap_append, skippedLines, skippedLines]

theorem taken_sublist (w : World) (items : List ImportItem) : (w.taken items).Sublist items := by
  have among := (List.filter_sublist (p := (·.2.isNone)) (l := w.trials items)).map (·.1)
  rwa [map_fst_trials] at among

/-- **Taken or skipped**: there is no third way. -/
theorem length_taken_add (w : World) (items : List ImportItem) :
    (w.taken items).length + (w.skippedLines items).length = items.length := by
  have each : ∀ ts : List (ImportItem × Option Refusal),
      (ts.filter (·.2.isNone)).length + (ts.filterMap fun t =>
        t.2.map fun r => t.1.text ++ ": " ++ r.message).length = ts.length := by
    intro ts
    induction ts with
    | nil => rfl
    | cons t ts ih =>
      obtain ⟨item, _ | r⟩ := t <;> simp <;> omega
  rw [taken, skippedLines, List.length_map, each, ← List.length_map (·.1), map_fst_trials]

/-! ## Refused items -/

/-- **An item is taken**, or gets a line and is passed over: the world and the items behind
it do not notice it. -/
theorem trial_cases (w : World) (item : ImportItem) (items : List ImportItem) :
    ((w.addItem item).refusal = none ∧
        w.taken (item :: items) = item :: (w.addItem item).world.taken items ∧
        w.skippedLines (item :: items) = (w.addItem item).world.skippedLines items) ∨
      ∃ r, w.addItem item = w.refused r ∧ w.taken (item :: items) = w.taken items ∧
        w.skippedLines (item :: items) =
          (item.text ++ ": " ++ r.message) :: w.skippedLines items := by
  cases refusal : (w.addItem item).refusal with
  | none =>
    refine .inl ⟨rfl, ?_, ?_⟩
    · simp [taken, trials, refusal]
    · simp [skippedLines, trials, refusal]
  | some r =>
    have same : (w.addItem item).world = w := atomic_addItem w item (by rw [refusal]; rfl)
    have parts : w.addItem item = ⟨(w.addItem item).world, (w.addItem item).refusal⟩ := rfl
    refine .inr ⟨r, ?_, ?_, ?_⟩
    · rw [parts, same, refusal, refused]
    · simp [taken, trials, refusal, same]
    · simp [skippedLines, trials, refusal, same]

/-- **Without the items that are refused** the world comes out the same. -/
theorem addItems_taken (w : World) (items : List ImportItem) :
    w.addItems (w.taken items) = w.addItems items := by
  induction items generalizing w with
  | nil => rfl
  | cons item items ih =>
    rcases trial_cases w item items with ⟨_, eq, _⟩ | ⟨r, refused, eq, _⟩ <;> rw [eq]
    · rw [addItems, List.foldl_cons, ← addItems, ih]
      rfl
    · rw [ih, addItems, addItems, List.foldl_cons, refused, world_refused]

/-- **The items that are taken** are taken when they are tried alone. -/
theorem trials_taken (w : World) (items : List ImportItem) :
    w.trials (w.taken items) = (w.taken items).map (·, none) := by
  induction items generalizing w with
  | nil => rfl
  | cons item items ih =>
    rcases trial_cases w item items with ⟨accepted, eq, _⟩ | ⟨r, _, eq, _⟩ <;> rw [eq]
    · rw [trials, accepted, ih, List.map_cons]
    · exact ih w

theorem taken_taken (w : World) (items : List ImportItem) :
    w.taken (w.taken items) = w.taken items := by
  conv_lhs => rw [taken, trials_taken, List.filter_map, List.map_map]
  simp [Function.comp_def]

theorem skippedLines_taken (w : World) (items : List ImportItem) :
    w.skippedLines (w.taken items) = [] := by
  rw [skippedLines, trials_taken, List.filterMap_map]
  simp

/-! ## Reports -/

/-- **The report** counts what is taken and lists what is skipped. -/
theorem foldl_importItem (w : World) (r : ImportReport) (items : List ImportItem) :
    items.foldl importItem (w, r) =
      (w.addItems items, { (w.taken items).foldl ImportItem.count r with
        skipped := r.skipped ++ w.skippedLines items }) := by
  refine Prod.ext (fst_foldl_importItem items (w, r)) ?_
  induction items generalizing w r with
  | nil => simp [taken, trials, skippedLines]
  | cons item items ih =>
    rw [List.foldl_cons, importItem]
    rcases trial_cases w item items with ⟨accepted, taken, lines⟩ | ⟨e, refused, taken, lines⟩
    · have same : (item.count r).skipped = r.skipped :=
        (congrArg ImportReport.skipped (item.count_skipped r r.skipped) :)
      rw [taken, lines, List.foldl_cons, ← same]
      simp only [accepted]
      exact ih _ _
    · -- the line is written before the others are tried
      rw [taken, lines, List.append_cons]
      simp only [refused, World.refused]
      rw [ih, ImportItem.foldl_count_skipped]

/-- **Counts and lines** make up all items. -/
theorem added_importRead (w : World) (p : Problem) :
    (w.importRead p).2.added + (w.importRead p).2.skipped.length =
      (ImportItem.ofProblem w.domain p).length := by
  -- the only goal is that of the problem, if it is taken
  have noGoal : (w.domain.constants.map ImportItem.object).countP ImportItem.isGoal = 0 := by
    rw [List.countP_map]
    exact List.countP_eq_zero.2 fun _ _ => by simp [ImportItem.isGoal]
  have once : (w.taken (ImportItem.ofProblem w.domain p)).countP ImportItem.isGoal ≤ 1 := by
    refine (taken_sublist w _).countP_le.trans ?_
    rw [ImportItem.ofProblem_eq, List.countP_append, noGoal, Nat.zero_add]
    exact ImportItem.countP_isGoal_items p
  have added := ImportItem.added_foldl_count (r := .started p.name) once
  rw [show (ImportReport.started p.name).added = 0 from rfl, Nat.zero_add] at added
  rw [importRead, foldl_importItem, ← length_taken_add w, ← added]
  rfl

/-- **A problem of the items that are taken** is imported with the same outcome, and nothing
but constants is skipped. -/
theorem importRead_taken (w : World) {p q : Problem} (name : q.name = p.name)
    (items : q.items = (w.addItems (w.domain.constants.map .object)).taken p.items) :
    w.importRead q = ((w.importRead p).1,
      { (w.importRead p).2 with skipped := w.skippedLines (w.domain.constants.map .object) }) := by
  simp only [importRead, foldl_importItem, ImportItem.ofProblem_eq, addItems_append, taken_append,
    skippedLines_append, items, addItems_taken, taken_taken, skippedLines_taken, List.append_nil,
    name]
  rfl

/-- **An import accounts for every item**, for any world, grammar and text. One that fails
leaves the world as it was. One that does not counts or skips every constant of the domain
and every item of the problem that was read; and a problem of the items that were taken,
without those that were skipped, is imported from the same world with the same outcome, and
nothing of it is skipped. -/
theorem importWith_accounts (w : World) (g : Grammar) (s : String) :
    (∀ e, w.importWith g s = .error e → (Mutation.importWith g s).apply w = w) ∧
      ∀ v r, w.importWith g s = .ok (v, r) →
        let constants := w.domain.constants.map ImportItem.object
        ∃ p q : Problem, w.readProblem g s = .ok p ∧
          r.added + r.skipped.length = w.domain.constants.length + p.objects.length +
            p.init.length + p.contingent.length + p.goal.isSome.toNat ∧
          r.skipped = w.skippedLines (constants ++ p.items) ∧
          q.items = (w.addItems constants).taken p.items ∧
          w.importWith { g with read := fun _ _ => .ok q } s =
            .ok (v, { r with skipped := w.skippedLines constants }) := by
  refine ⟨fun e failed => ?_, fun v r imported => ?_⟩
  · rw [Mutation.apply, failed, afterImport]
  · intro constants
    obtain ⟨p, read, made⟩ := map_eq_ok_iff.1 imported
    obtain ⟨q, name, items⟩ :=
      Problem.exists_items_eq (taken_sublist (w.addItems constants) p.items)
    have counted := w.added_importRead p
    rw [made, ImportItem.ofProblem_eq] at counted
    refine ⟨p, q, read, ?_, ?_, items, ?_⟩
    · have one : p.goal.toList.length = p.goal.isSome.toNat := by cases p.goal <;> rfl
      rw [counted, Problem.items]
      simp only [List.length_append, List.length_map, one]
      omega
    · have lines : (w.importRead p).2.skipped = w.skippedLines (constants ++ p.items) := by
        rw [importRead, foldl_importItem, ImportItem.ofProblem_eq]
        exact List.nil_append _
      rwa [made] at lines
    · have again : w.readProblem { g with read := fun _ _ => .ok q } s = .ok q :=
        have asked := readProblem_eq_ok_iff.1 read
        readProblem_eq_ok_iff.2 ⟨asked.1, asked.2.1, rfl⟩
      rw [importWith, again, Except.map, importRead_taken w name items, made]

/-- The grammar to which every text is the same problem, of the domain `d`. -/
def alwaysReads (p : Problem) : Grammar :=
  ⟨fun _ => some "d", fun _ _ => .ok p⟩

/-- An object without a type, a fact about it, and a contingent fact for the second time,
among items that there is nothing against. -/
def partlyRefused : Problem where
  name := "p"
  objects := [⟨"a", "object"⟩, ⟨"c", "thing"⟩, ⟨"b", "object"⟩]
  init := [.ofLiteral (.positive "clear" ["a"]), .ofLiteral (.positive "clear" ["c"])]
  contingent := [.oneOf [.positive "clear" ["a"], .positive "clear" ["b"]],
    .oneOf [.positive "clear" ["a"], .positive "clear" ["b"]]]
  goal := some (.ofLiteral (.positive "clear" ["b"]))

/-- Five of the eight items are taken, and they are all of a problem that is imported without
a line. -/
theorem importWith_accounts_partlyRefused :
    ∃ v r q, (empty clearOnly).importWith (alwaysReads partlyRefused) "p" = .ok (v, r) ∧
      r.added + r.skipped.length = 8 ∧ q.items.length = 5 ∧
      (empty clearOnly).importWith (alwaysReads q) "p" = .ok (v, { r with skipped := [] }) := by
  have known : ((empty clearOnly).importWith (alwaysReads partlyRefused) "p").toOption.map
      (fun x => x.2.added + x.2.skipped.length) = some 8 := by decide +kernel
  obtain ⟨⟨v, r⟩, imported, counted⟩ := exists_ok_of_map_toOption known
  obtain ⟨p, q, read, _, _, items, again⟩ :=
    (importWith_accounts (empty clearOnly) (alwaysReads partlyRefused) "p").2 v r imported
  obtain rfl : partlyRefused = p := Except.ok.inj (readProblem_eq_ok_iff.1 read).2.2
  refine ⟨v, r, q, imported, counted, ?_, again⟩
  rw [items]
  decide +kernel

end World

end WorldModel
