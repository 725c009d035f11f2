import Mathlib.Data.Nat.Digits.Defs
import Mathlib.Data.List.Lex

/-! Digit lists of a fixed length, which compare like the numbers they spell. -/

namespace Digits

/-- The given number of low digits of a value, least significant first. -/
def low (base : ℕ) : ℕ → ℕ → List ℕ
  -- Each digit is what the division leaves over.
  | 0, _ => []
  | length + 1, value => value % base :: low base length (value / base)

@[simp] theorem length_low (base length value : ℕ) : (low base length value).length = length := by
  -- One digit is taken per turn.
  induction length generalizing value with
  | zero => rfl
  | succ length ih => simp [low, ih]

/-- The digits taken from a value are digits. -/
theorem lt_of_mem_low {base length value digit : ℕ} (positive : 0 < base)
    (member : digit ∈ low base length value) : digit < base := by
  -- A remainder is smaller than what it was divided by.
  induction length generalizing value with
  | zero => simp [low] at member
  | succ length ih =>
    rcases List.mem_cons.mp member with rfl | later
    · exact Nat.mod_lt _ positive
    · exact ih later

/-- The low digits spell a value that needs no more of them. -/
theorem ofDigits_low {base length value : ℕ} (fits : value < base ^ length) :
    Nat.ofDigits base (low base length value) = value := by
  -- The quotient fits into the remaining digits.
  induction length generalizing value with
  | zero =>
    obtain rfl : value = 0 := by simpa using fits
    rfl
  | succ length ih =>
    have rest : value / base < base ^ length := by
      refine Nat.div_lt_of_lt_mul ?_
      rwa [← pow_succ']
    rw [low, Nat.ofDigits_cons, ih rest]
    exact Nat.mod_add_div value base

/-- Add one, least significant digit first; nothing is left when every digit is the largest. -/
def increment (largest : ℕ) : List ℕ → Option (List ℕ)
  -- The carry passes over the largest digits and is absorbed by the first other one.
  | [] => none
  | digit :: more =>
    if digit = largest then (increment largest more).map (0 :: ·) else some ((digit + 1) :: more)

/-- Adding one keeps the length and the bound of the digits and raises the value by one. -/
theorem increment_spec {largest : ℕ} {digits next : List ℕ}
    (bounded : ∀ digit ∈ digits, digit < largest + 1)
    (added : increment largest digits = some next) :
    next.length = digits.length ∧ (∀ digit ∈ next, digit < largest + 1) ∧
      Nat.ofDigits (largest + 1) next = Nat.ofDigits (largest + 1) digits + 1 := by
  -- A carried digit becomes zero, and the carry adds one base further on.
  induction digits generalizing next with
  | nil => simp [increment] at added
  | cons digit more ih =>
    have rest : ∀ digit ∈ more, digit < largest + 1 := fun digit member =>
      bounded digit (List.mem_cons_of_mem _ member)
    rw [increment] at added
    split at added
    · rename_i carried
      obtain ⟨raised, carry, rfl⟩ := Option.map_eq_some_iff.mp added
      obtain ⟨length, digits, value⟩ := ih rest carry
      refine ⟨by simp [length], ?_, ?_⟩
      · intro other member
        rcases List.mem_cons.mp member with rfl | inside
        · exact Nat.succ_pos _
        · exact digits other inside
      · simp only [Nat.ofDigits_cons, value, carried]
        ring
    · rename_i smaller
      cases added
      have head := bounded digit List.mem_cons_self
      refine ⟨rfl, ?_, ?_⟩
      · intro other member
        rcases List.mem_cons.mp member with rfl | inside
        · omega
        · exact rest other inside
      · simp only [Nat.ofDigits_cons]
        ring

/-- Of two digit lists of one length, most significant first, the smaller value comes first. -/
theorem lt_of_ofDigits_reverse_lt {base : ℕ} {first second : List ℕ} (large : 1 < base)
    (length : first.length = second.length) (firstDigits : ∀ digit ∈ first, digit < base)
    (secondDigits : ∀ digit ∈ second, digit < base)
    (smaller : Nat.ofDigits base first.reverse < Nat.ofDigits base second.reverse) :
    first < second := by
  -- A larger leading digit outweighs everything after it.
  induction first generalizing second with
  | nil =>
    obtain rfl : second = [] := List.length_eq_zero_iff.mp length.symm
    simp at smaller
  | cons digit more ih =>
    cases second with
    | nil => simp at length
    | cons other rest =>
      have same : more.length = rest.length := by simpa using length
      rw [Nat.ofDigits_reverse_cons, Nat.ofDigits_reverse_cons, same] at smaller
      rcases lt_trichotomy digit other with below | rfl | above
      · exact List.cons_lt_cons_iff.mpr (.inl below)
      · refine List.cons_lt_cons_iff.mpr (.inr ⟨rfl, ?_⟩)
        refine ih same (fun digit member => firstDigits digit (List.mem_cons_of_mem _ member))
          (fun digit member => secondDigits digit (List.mem_cons_of_mem _ member)) ?_
        omega
      · have tail : Nat.ofDigits base rest.reverse < base ^ rest.length := by
          have bound := Nat.ofDigits_lt_base_pow_length (l := rest.reverse) large
            fun digit member => secondDigits digit
              (List.mem_cons_of_mem _ (List.mem_reverse.mp member))
          rwa [List.length_reverse] at bound
        have outweighed : base ^ rest.length * (other + 1) ≤ base ^ rest.length * digit :=
          Nat.mul_le_mul_left _ above
        rw [Nat.mul_succ] at outweighed
        omega

end Digits
