import Mathlib.Data.List.Basic

/-! Counting the items that pass a test: with an exit as soon as a threshold is exceeded, and row by
row. -/

variable {α : Type*}

namespace Counting

/-- Whether the count comes to exceed the threshold. -/
def exceeds (test : α → Bool) (threshold : Nat) : List α → Nat → Bool
  | [], _ => false
  | item :: later, count =>
    if test item then
      -- The later items do not matter once the threshold is exceeded.
      if threshold < count + 1 then true else exceeds test threshold later (count + 1)
    else exceeds test threshold later count

/-- The items that are looked at before the exit. -/
def examined (test : α → Bool) (threshold : Nat) : List α → Nat → List α
  | [], _ => []
  | item :: later, count =>
    -- The item that leads to the exit is looked at as well.
    if test item then
      if threshold < count + 1 then [item] else item :: examined test threshold later (count + 1)
    else item :: examined test threshold later count

variable {test : α → Bool} {threshold count : Nat} {items first second : List α} {item : α}

/-- The exit is taken exactly if all items together exceed the threshold. -/
theorem exceeds_iff (within : count ≤ threshold) :
    exceeds test threshold items count = true ↔ threshold < count + items.countP test := by
  -- The count goes up on the way, so it stays quantified over.
  induction items generalizing count with
  | nil => simpa [exceeds] using within
  | cons item later ih =>
    by_cases passes : test item = true
    · by_cases leaves : threshold < count + 1
      · -- The items behind the exit only add to the count.
        simp only [exceeds, passes, leaves, if_true, List.countP_cons_of_pos, true_iff]
        omega
      · simp only [exceeds, passes, leaves, if_true, if_false, List.countP_cons_of_pos]
        rw [ih (by omega)]
        omega
    · simp only [exceeds, passes, Bool.false_eq_true, if_false]
      rw [ih within, List.countP_cons_of_neg passes]

/-- Nothing else than the items is looked at. -/
theorem examined_subset : examined test threshold items count ⊆ items := by
  induction items generalizing count with
  | nil => simp [examined]
  | cons item later ih =>
    -- Each branch looks at the first item and then at most at later ones.
    unfold examined
    split
    · split
      · simp
      · exact List.cons_subset_cons item ih
    · exact List.cons_subset_cons item ih

/-- As long as the threshold is not exceeded, every item is looked at, and counting goes on with the
items that follow. -/
theorem examined_append_of_le (below : count + first.countP test ≤ threshold) :
    examined test threshold (first ++ second) count =
      first ++ examined test threshold second (count + first.countP test) := by
  induction first generalizing count with
  | nil => simp
  | cons item later ih =>
    by_cases passes : test item = true
    · rw [List.countP_cons_of_pos passes] at below ⊢
      have stays : ¬ threshold < count + 1 := by omega
      have rest := @ih (count + 1) (by omega)
      -- The item raises the count by one before the later ones are counted.
      have shifted : count + (later.countP test + 1) = count + 1 + later.countP test := by omega
      simp only [List.cons_append, examined, passes, stays, if_true, if_false, rest, shifted]
    · rw [List.countP_cons_of_neg passes] at below ⊢
      simp only [List.cons_append, examined, passes, Bool.false_eq_true, if_false, ih below]

/-- Behind the exit nothing is looked at. -/
theorem examined_append_of_lt (within : count ≤ threshold)
    (above : threshold < count + first.countP test) :
    examined test threshold (first ++ second) count = examined test threshold first count := by
  -- The exit lies in the first part, whatever the count at its start.
  induction first generalizing count with
  | nil => simp at above; omega
  | cons item later ih =>
    by_cases passes : test item = true
    · rw [List.countP_cons_of_pos passes] at above
      by_cases leaves : threshold < count + 1
      · simp only [List.cons_append, examined, passes, leaves, if_true]
      · have rest := @ih (count + 1) (by omega) (by omega)
        simp only [List.cons_append, examined, passes, leaves, if_true, if_false, rest]
    · rw [List.countP_cons_of_neg passes] at above
      simp only [List.cons_append, examined, passes, Bool.false_eq_true, if_false, ih within above]

/-- A last item is looked at exactly if those before it do not exceed the threshold. -/
theorem examined_concat (within : count ≤ threshold) :
    examined test threshold (first ++ [item]) count =
      if threshold < count + first.countP test then examined test threshold first count
      else first ++ [item] := by
  split
  · rename_i above
    exact examined_append_of_lt within above
  · rename_i below
    rw [examined_append_of_le (Nat.le_of_not_lt below)]
    -- A single item is looked at, whether or not it leads to the exit.
    have single : ∀ count, examined test threshold [item] count = [item] := by
      intro count
      unfold examined
      split
      · split <;> rfl
      · rfl
    rw [single]

/-- Numbers up to a sum are those up to its first part and then those of the second one. -/
theorem countP_range_add (test : Nat → Bool) (first second : Nat) :
    (List.range (first + second)).countP test =
      (List.range first).countP test +
        (List.range second).countP fun index => test (first + index) := by
  -- The second part is the range moved behind the first.
  rw [List.range_add, List.countP_append, List.countP_map]
  rfl

/-- The places of a grid, row by row. -/
def grid (rows columns : Nat) : List (Nat × Nat) :=
  (List.range rows).flatMap fun row => (List.range columns).map fun column => (row, column)

/-- The last row of a grid comes behind all others. -/
theorem grid_succ (rows columns : Nat) :
    grid (rows + 1) columns =
      grid rows columns ++ (List.range columns).map fun column => (rows, column) := by
  -- Rows are put together from the first one on.
  simp [grid, List.range_succ]

/-- Numbers up to a product are counted row by row. -/
theorem countP_range_mul (test : Nat → Bool) (rows columns : Nat) :
    (List.range (rows * columns)).countP test =
      (grid rows columns).countP fun place => test (place.1 * columns + place.2) := by
  -- One more row counts the numbers of one more period.
  induction rows with
  | zero => simp [grid]
  | succ rows ih =>
    rw [Nat.succ_mul, countP_range_add, ih, grid_succ, List.countP_append, List.countP_map]
    rfl

/-- Rows with two parts are counted part by part. -/
theorem countP_grid_add (test : Nat × Nat → Bool) (rows first second : Nat) :
    (grid rows (first + second)).countP test =
      (grid rows first).countP test +
        (grid rows second).countP fun place => test (place.1, first + place.2) := by
  induction rows with
  | zero => simp [grid]
  | succ rows ih =>
    -- The last row is split like a range.
    have last : ((List.range (first + second)).map fun column => (rows, column)).countP test =
        ((List.range first).map fun column => (rows, column)).countP test +
          ((List.range second).map fun column => (rows, column)).countP
            fun place => test (place.1, first + place.2) := by
      simp only [List.countP_map]
      exact countP_range_add (test ∘ fun column => (rows, column)) first second
    simp only [grid_succ, List.countP_append, ih, last]
    omega

end Counting
