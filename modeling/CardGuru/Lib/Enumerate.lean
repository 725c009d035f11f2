import Mathlib.Data.List.Basic

/-! Objects taken from an enumerator one by one. -/

namespace Enumerate

variable {S O : Type*}

/-- At most so many objects, until the enumerator returns none. -/
def objects (next : S → Option O × S) : ℕ → S → List O
  | 0, _ => []
  | limit + 1, state =>
    match next state with
    | (none, _) => []
    | (some object, rest) => object :: objects next limit rest

/-- An enumerator works through a list, if each step takes the first of what is left. -/
structure WorksThrough (next : S → Option O × S) (Good : S → Prop) (left : S → List O) : Prop where
  first : ∀ {state : S}, Good state → (next state).1 = (left state).head?
  rest : ∀ {state : S}, Good state → left (next state).2 = (left state).tail
  good : ∀ {state : S}, Good state → Good (next state).2

/-- The objects of an enumerator that works through a list are the first ones of the list. -/
theorem WorksThrough.objects_eq_take {next : S → Option O × S} {Good : S → Prop} {left : S → List O}
    (works : WorksThrough next Good left) (limit : ℕ) :
    ∀ {state : S}, Good state → objects next limit state = (left state).take limit := by
  induction limit with
  | zero =>
    intro state _
    rw [objects, List.take_zero]
  | succ limit ih =>
    intro state good
    have first := works.first good
    have rest := works.rest good
    have after := ih (works.good good)
    cases remaining : left state with
    | nil =>
      -- Nothing is left to be returned.
      rw [remaining] at first
      rw [objects]
      cases step : next state with
      | mk object state =>
        rw [step] at first
        cases first
        rfl
    | cons object others =>
      rw [remaining] at first rest
      rw [objects]
      cases step : next state with
      | mk returned state =>
        rw [step] at first rest after
        cases first
        simp only [List.take_succ_cons]
        rw [after, rest, List.tail_cons]

end Enumerate
