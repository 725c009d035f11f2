import Mathlib.Data.List.Induction

/-! The latest value that the events of a history give to something, if nothing reset it since. -/

variable {α β : Type*}

namespace Latest

/-- Reading events from the latest one on: the first value that is met before a reset. -/
def upTo (value : α → Option β) (resets : α → Bool) : List α → Option β
  | [] => none
  | event :: earlier =>
    match value event with
    | some given => some given
    -- An event that gives no value may still end the search.
    | none => if resets event then none else upTo value resets earlier

/-- The value given last in a history, unless it was reset afterwards. -/
def since (value : α → Option β) (resets : α → Bool) (history : List α) : Option β :=
  upTo value resets history.reverse

variable {value : α → Option β} {resets : α → Bool} {history before later : List α} {event other : α}

@[simp] theorem since_nil : since value resets [] = none := rfl

end Latest
