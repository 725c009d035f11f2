import Mathlib.Data.List.Basic

/-! Changes that give some places fixed values and leave all others alone, and what repeating them does. -/

/-- Give new values to the places that a change names. -/
def assign {A B : Type*} (change : A → Option B) (state : A → B) : A → B := fun place =>
  -- The new value does not depend on the old one.
  (change place).getD (state place)

/-- Perform changes one after the other. -/
def assignAll {A B : Type*} (changes : List (A → Option B)) (state : A → B) : A → B :=
  changes.foldl (fun state change => assign change state) state

section Assign

variable {A A' B : Type*} {changes earlier later : List (A → Option B)} {first second state : A → B}

theorem assign_apply (change : A → Option B) (place : A) :
    assign change state place = (change place).getD (state place) := rfl

@[simp] theorem assignAll_nil : assignAll [] state = state := rfl

@[simp] theorem assignAll_cons (change : A → Option B) :
    assignAll (change :: changes) state = assignAll changes (assign change state) := rfl

theorem assignAll_append : assignAll (earlier ++ later) state = assignAll later (assignAll earlier state) :=
  List.foldl_append

/-- The value of a place depends on what the changes do with that place alone. -/
theorem assignAll_apply (changes : List (A → Option B)) (state : A → B) (place : A) :
    assignAll changes state place =
      (changes.map fun change => change place).foldl (fun value new => new.getD value) (state place) := by
  induction changes generalizing state with
  | nil => rfl
  | cons change changes ih => exact ih _

/-- Changes that do the same with two places give them the same value. -/
theorem assignAll_transfer {other : List (A' → Option B)} {otherState : A' → B} {place : A} {otherPlace : A'}
    (same : (changes.map fun change => change place) = other.map fun change => change otherPlace)
    (start : state place = otherState otherPlace) :
    assignAll changes state place = assignAll other otherState otherPlace := by
  rw [assignAll_apply, assignAll_apply, same, start]

/-- A place that no change names keeps its value. -/
theorem assignAll_of_unnamed {place : A} (unnamed : ∀ change ∈ changes, change place = none) :
    assignAll changes state place = state place := by
  induction changes generalizing state with
  | nil => rfl
  | cons change changes ih =>
    rw [assignAll_cons, ih fun later member => unnamed later (List.mem_cons_of_mem _ member),
      assign_apply, unnamed change List.mem_cons_self, Option.getD_none]

/-- A place to which some changes give one value, and the others none, has that value. -/
theorem assignAll_of_named {place : A} {value : B}
    (agree : ∀ change ∈ changes, change place = none ∨ change place = some value)
    (named : ∃ change ∈ changes, change place = some value) : assignAll changes state place = value := by
  induction changes generalizing state with
  | nil => simp at named
  | cons change changes ih =>
    have rest : ∀ change ∈ changes, change place = none ∨ change place = some value :=
      fun later member => agree later (List.mem_cons_of_mem _ member)
    rw [assignAll_cons]
    by_cases again : ∃ later ∈ changes, later place = some value
    · exact ih rest again
    · -- The first change is the only one that names the place.
      have unnamed : ∀ later ∈ changes, later place = none := fun later member =>
        (rest later member).resolve_right fun reads => again ⟨later, member, reads⟩
      obtain ⟨one, member, reads⟩ := named
      rcases List.mem_cons.mp member with rfl | inside
      · rw [assignAll_of_unnamed unnamed, assign_apply, reads, Option.getD_some]
      · exact absurd ⟨one, inside, reads⟩ again

/-- The result does not depend on the values of the places that are named. -/
theorem assignAll_congr
    (same : ∀ place, (∀ change ∈ changes, change place = none) → first place = second place) :
    assignAll changes first = assignAll changes second := by
  induction changes generalizing first second with
  | nil => exact funext fun place => same place fun _ member => absurd member List.not_mem_nil
  | cons change changes ih =>
    refine ih fun place unnamed => ?_
    show assign change first place = assign change second place
    rw [assign_apply, assign_apply]
    cases reads : change place with
    | some value => rfl
    | none =>
      refine same place fun other member => ?_
      rcases List.mem_cons.mp member with rfl | inside
      · exact reads
      · exact unnamed other inside

/-- Changes performed before others that repeat all of them leave no trace. -/
theorem assignAll_replay (repeated : ∀ change ∈ earlier, change ∈ later) :
    assignAll later (assignAll earlier state) = assignAll later state :=
  -- Outside of the places named later, the earlier changes did nothing.
  assignAll_congr fun _ unnamed =>
    assignAll_of_unnamed fun change member => unnamed change (repeated change member)

/-- Changes that agree on every place may be performed in any order, and any number of times. -/
theorem assignAll_of_compatible
    (members : ∀ change, change ∈ earlier ↔ change ∈ later)
    (agree : ∀ first ∈ earlier, ∀ second ∈ earlier, ∀ place,
      first place = none ∨ second place = none ∨ first place = second place) :
    assignAll earlier state = assignAll later state := by
  funext place
  by_cases named : ∃ change ∈ earlier, change place ≠ none
  · obtain ⟨change, member, reads⟩ := named
    obtain ⟨value, found⟩ := Option.ne_none_iff_exists'.mp reads
    have one : ∀ other ∈ earlier, other place = none ∨ other place = some value := by
      intro other inside
      rcases agree change member other inside place with absent | absent | same
      · exact absurd absent reads
      · exact .inl absent
      · exact .inr (same.symm.trans found)
    rw [assignAll_of_named one ⟨change, member, found⟩,
      assignAll_of_named (fun other inside => one other ((members other).mpr inside))
        ⟨change, (members change).mp member, found⟩]
  · push Not at named
    rw [assignAll_of_unnamed named,
      assignAll_of_unnamed fun other inside => named other ((members other).mpr inside)]

end Assign
