import Mathlib.Data.List.Induction
import Mathlib.Data.List.Lex
import Mathlib.Data.Prod.Lex
import Mathlib.Order.Compare
import Mathlib.Tactic.IntervalCases
import Mathlib.Data.String.Basic

/-! Keys and paths of the realtime database: their validation, their parsing and their order. -/

namespace CardGuru

/-- Characters that no path string may contain. -/
def kInvalidPathCharacters : List Char := "[].#$".toList

/-- Characters that no key may contain. -/
def kInvalidKeyCharacters : List Char := "[].#$/".toList

/-- The check made on every string passed to `child:`. -/
def isValidPathString (pathString : String) : Bool :=
  -- Slashes are allowed here, since a path string may name several levels.
  !pathString.toList.isEmpty && pathString.toList.all fun c => !kInvalidPathCharacters.contains c

/-- The check made on every single key. -/
def isValidKey (key : String) : Bool :=
  -- A key names exactly one level.
  !key.toList.isEmpty && key.toList.all fun c => !kInvalidKeyCharacters.contains c

/-- The number that digits spell. -/
def magnitude (digits : List Char) : Int :=
  digits.foldl (fun value c => value * 10 + (c.toNat - '0'.toNat : Int)) 0

/-- The integer that a key spells, when it fits in 32 bits. -/
def tryParseStringToInt (str : String) : Option Int :=
  -- At most eleven characters: an optional minus sign and then digits only.
  let (negative, digits) := match str.toList with
    | '-' :: rest => (true, rest)
    | all => (false, all)
  if 11 < str.toList.length ∨ digits.isEmpty ∨ ¬ digits.all Char.isDigit then none
  else
    let value := if negative then -magnitude digits else magnitude digits
    if value < -2147483648 ∨ 2147483647 < value then none else some value

/-- The UTF-16 code units of a character. -/
def codeUnits (c : Char) : List Nat :=
  if c.toNat < 0x10000 then [c.toNat]
  -- Characters beyond the basic plane take a surrogate pair.
  else [0xD800 + (c.toNat - 0x10000) / 0x400, 0xDC00 + (c.toNat - 0x10000) % 0x400]

/-- The UTF-16 code units of a string. -/
def utf16 (str : String) : List Nat := str.toList.flatMap codeUnits

/-- The order of children: integer keys first by value and length, the others by code units. -/
def compareKey (a b : String) : Ordering :=
  match tryParseStringToInt a, tryParseStringToInt b with
  | some aAsInt, some bAsInt =>
    if aAsInt < bAsInt then .lt
    else if bAsInt < aAsInt then .gt
    -- Leading zeros make a longer spelling of the same value, which comes later.
    else if a.length < b.length then .lt
    else if b.length < a.length then .gt
    else .eq
  | some _, none => .lt
  | none, some _ => .gt
  | none, none =>
    if utf16 a < utf16 b then .lt else if utf16 b < utf16 a then .gt else .eq

/-- The code units of a string begin with those of its first character, which they determine. -/
theorem eq_of_codeUnits {c d : Char} {first second : List Nat}
    (same : codeUnits c ++ first = codeUnits d ++ second) : c = d ∧ first = second := by
  -- A character is no surrogate, so its first unit says how many it has.
  have valid : ∀ e : Char, e.toNat < 0xD800 ∨ 0xDFFF < e.toNat ∧ e.toNat < 0x110000 := fun e => e.valid
  have eq_of_toNat : c.toNat = d.toNat → c = d := Char.toNat_inj.mp
  have validC := valid c
  have validD := valid d
  unfold codeUnits at same
  split at same <;> split at same <;>
    simp only [List.cons_append, List.nil_append, List.cons.injEq] at same
  · exact ⟨eq_of_toNat same.1, same.2⟩
  · omega
  · omega
  · exact ⟨eq_of_toNat (by omega), same.2.2⟩

/-- A character has at least one code unit. -/
theorem codeUnits_ne_nil (c : Char) : codeUnits c ≠ [] := by
  -- One unit or two.
  unfold codeUnits
  split <;> simp

/-- Strings with the same code units are the same string. -/
theorem utf16_injective : Function.Injective utf16 := by
  -- Character by character.
  have lists : ∀ first second : List Char,
      first.flatMap codeUnits = second.flatMap codeUnits → first = second := by
    intro first
    induction first with
    | nil =>
      intro second same
      cases second with
      | nil => rfl
      | cons d second =>
        exact absurd (List.append_eq_nil_iff.mp same.symm).1 (codeUnits_ne_nil d)
    | cons c first ih =>
      intro second same
      cases second with
      | nil => exact absurd (List.append_eq_nil_iff.mp same).1 (codeUnits_ne_nil c)
      | cons d second =>
        simp only [List.flatMap_cons] at same
        obtain ⟨rfl, rest⟩ := eq_of_codeUnits same
        rw [ih second rest]
  exact fun a b same => String.toList_inj.mp (lists _ _ same)

/-- Digits spell no negative number. -/
theorem magnitude_nonneg {digits : List Char} (spelled : ∀ c ∈ digits, c.isDigit = true) :
    0 ≤ magnitude digits := by
  -- Induction from the last digit.
  induction digits using List.reverseRecOn with
  | nil => exact Int.le_refl 0
  | append_singleton digits c ih =>
    have front := ih fun e member => spelled e (by simp [member])
    have digit := Char.isDigit_iff_toNat.mp (spelled c (by simp))
    simp only [magnitude, List.foldl_concat] at front ⊢
    omega

/-- Equally many digits that spell one number are the same digits. -/
theorem eq_of_magnitude {first second : List Char} (length : first.length = second.length)
    (firstDigits : ∀ c ∈ first, c.isDigit = true) (secondDigits : ∀ c ∈ second, c.isDigit = true)
    (same : magnitude first = magnitude second) : first = second := by
  induction first using List.reverseRecOn generalizing second with
  | nil => exact (List.length_eq_zero_iff.mp length.symm).symm
  | append_singleton first c ih =>
    rcases List.eq_nil_or_concat second with rfl | ⟨second, d, rfl⟩
    · simp at length
    · rw [List.concat_eq_append] at length secondDigits same ⊢
      have cDigit := Char.isDigit_iff_toNat.mp (firstDigits c (by simp))
      have dDigit := Char.isDigit_iff_toNat.mp (secondDigits d (by simp))
      have zero : '0'.toNat = 48 := rfl
      have nine : '9'.toNat = 57 := rfl
      simp only [magnitude, List.foldl_concat] at same ih
      -- The last digit is what division by ten leaves over.
      have front : first = second := by
        refine ih (by simpa using length) (fun e member => firstDigits e (by simp [member]))
          (fun e member => secondDigits e (by simp [member])) ?_
        omega
      subst front
      have last : c.toNat = d.toNat := by omega
      rw [Char.toNat_inj.mp last]

/-- A string that spells an integer is short: an optional minus sign and its digits. -/
theorem exists_digits {str : String} {value : Int} (parsed : tryParseStringToInt str = some value) :
    str.length ≤ 11 ∧ ∃ (negative : Bool) (digits : List Char), digits ≠ [] ∧
      (∀ c ∈ digits, c.isDigit = true) ∧
      str.toList = (if negative then '-' :: digits else digits) ∧
      value = if negative then -magnitude digits else magnitude digits := by
  unfold tryParseStringToInt at parsed
  split at parsed
  rename_i negative digits split
  split at parsed
  · cases parsed
  · rename_i spelled
    rw [not_or, not_or, not_not, List.all_eq_true] at spelled
    obtain ⟨_, same⟩ := Option.ite_none_left_eq_some.mp parsed
    obtain rfl := Option.some.inj same
    -- What is left has passed the three tests of the source.
    refine ⟨by simpa [← String.length_toList] using spelled.1, negative, digits, by simpa using spelled.2.1,
      spelled.2.2, ?_, rfl⟩
    split at split <;> cases split
    · rename_i whole
      exact whole
    · rfl

/-- Zeros, with or without a minus sign. -/
def zeros (negative : Bool) (count : ℕ) : String :=
  String.ofList (if negative then '-' :: List.replicate count '0' else List.replicate count '0')

@[simp] theorem length_zeros (negative : Bool) (count : ℕ) :
    (zeros negative count).length = count + negative.toNat := by
  rw [← String.length_toList]
  -- The minus sign is one more character.
  cases negative <;> simp [zeros]

/-- A few zeros are a valid key that spells zero. -/
theorem zeros_spec (negative : Bool) {count : ℕ} (something : 0 < count)
    (short : (zeros negative count).length ≤ 11) :
    isValidKey (zeros negative count) = true ∧ tryParseStringToInt (zeros negative count) = some 0 := by
  -- There are at most eleven of each kind, so each is tried.
  have few : count ≤ 11 := by
    rw [length_zeros] at short
    omega
  cases negative <;> interval_cases count <;> first | exact ⟨rfl, rfl⟩ | exact absurd short (by decide)

/-- Digits that spell zero are zeros. -/
theorem eq_replicate_of_magnitude {digits : List Char} (spelled : ∀ c ∈ digits, c.isDigit = true)
    (zero : magnitude digits = 0) : digits = List.replicate digits.length '0' := by
  -- Digits of the same length with the same number are the same.
  have none : ∀ count : ℕ, magnitude (List.replicate count '0') = 0 := by
    intro count
    induction count with
    | zero => rfl
    | succ count ih => exact ih
  refine eq_of_magnitude List.length_replicate.symm spelled (fun c member => ?_) (zero.trans (none _).symm)
  rw [List.eq_of_mem_replicate member]
  rfl

/-- The place of a key in the order of children, compared component by component. -/
def keyPlace (key : String) : ℕ ×ₗ ℤ ×ₗ ℕ ×ₗ List ℕ :=
  match tryParseStringToInt key with
  -- Integers come first, by their value and then by the length of their spelling.
  | some value => toLex (0, toLex (value, toLex (key.length, [])))
  | none => toLex (1, toLex (0, toLex (0, utf16 key)))

/-- The position of a key among all keys: its place and its text, which separates the spellings of zero
that have one place (such as `00` and `-0`, of which a node of the client keeps only one). -/
def keyRank (key : String) : (ℕ ×ₗ ℤ ×ₗ ℕ ×ₗ List ℕ) ×ₗ String :=
  toLex (keyPlace key, key)

/-- The order of children is the order of their places. -/
theorem compareKey_eq_cmp (a b : String) : compareKey a b = cmp (keyPlace a) (keyPlace b) := by
  -- Each branch of the comparison decides one component of the place.
  refine Eq.symm ?_
  unfold compareKey keyPlace
  cases tryParseStringToInt a with
  | some aAsInt =>
    cases tryParseStringToInt b with
    | some bAsInt =>
      rcases lt_trichotomy aAsInt bAsInt with less | rfl | greater
      · exact ((cmp_eq_lt_iff _ _).mpr (by simp [Prod.Lex.toLex_lt_toLex, less])).trans (if_pos less).symm
      · -- The value is the same, and the shorter spelling comes first.
        refine Eq.trans ?_ ((if_neg (lt_irrefl aAsInt)).trans (if_neg (lt_irrefl aAsInt))).symm
        rcases lt_trichotomy a.length b.length with shorter | same | longer
        · exact ((cmp_eq_lt_iff _ _).mpr (by simp [Prod.Lex.toLex_lt_toLex, shorter])).trans (if_pos shorter).symm
        · rw [same, if_neg (lt_irrefl _), if_neg (lt_irrefl _)]
          exact cmp_self_eq_eq _
        · rw [if_neg longer.not_gt, if_pos longer]
          exact (cmp_eq_gt_iff _ _).mpr (by simp [Prod.Lex.toLex_lt_toLex, longer])
      · refine Eq.trans ?_ ((if_neg greater.not_gt).trans (if_pos greater)).symm
        exact (cmp_eq_gt_iff _ _).mpr (by simp [Prod.Lex.toLex_lt_toLex, greater])
    | none => exact (cmp_eq_lt_iff _ _).mpr (by simp [Prod.Lex.toLex_lt_toLex])
  | none =>
    cases tryParseStringToInt b with
    | some bAsInt => exact (cmp_eq_gt_iff _ _).mpr (by simp [Prod.Lex.toLex_lt_toLex])
    | none =>
      -- Strings compare by their code units.
      rcases lt_trichotomy (utf16 a) (utf16 b) with less | same | greater
      · exact ((cmp_eq_lt_iff _ _).mpr (by simp [Prod.Lex.toLex_lt_toLex, less])).trans (if_pos less).symm
      · rw [same]
        exact (cmp_self_eq_eq _).trans ((if_neg (lt_irrefl (utf16 b))).trans (if_neg (lt_irrefl (utf16 b)))).symm
      · refine Eq.trans ?_ ((if_neg greater.not_gt).trans (if_pos greater)).symm
        exact (cmp_eq_gt_iff _ _).mpr (by simp [Prod.Lex.toLex_lt_toLex, greater])

/-- A valid key of one database level. -/
structure Key where
  /-- The characters of the key. -/
  text : String
  /-- The key passes the check of single keys. -/
  valid : isValidKey text = true
deriving DecidableEq

namespace Key

/-- Keys with the same text are the same key. -/
theorem ext_text {a b : Key} (same : a.text = b.text) : a = b := by
  -- Validity carries no further data.
  cases a
  cases b
  cases same
  rfl

/-- The position in the order determines the key. -/
theorem keyRank_injective : Function.Injective fun key : Key => keyRank key.text := by
  -- The last component is the text.
  intro a b same
  exact ext_text (congrArg (fun rank => (ofLex rank).2) same)

/-- Keys are ordered as children are enumerated. -/
instance : LinearOrder Key := LinearOrder.lift' (fun key => keyRank key.text) keyRank_injective

/-- The order of keys follows the comparison of the source. -/
theorem lt_of_compareKey {a b : Key} (before : compareKey a.text b.text = .lt) : a < b := by
  -- The place is the first component of the position.
  rw [compareKey_eq_cmp, cmp_eq_lt_iff] at before
  exact Prod.Lex.toLex_lt_toLex.mpr (.inl before)

/-- Whether a key spells zero with more than one character, as `00` and `-0` do. -/
def spellsZero (key : Key) : Bool :=
  tryParseStringToInt key.text = some 0 && key.text.length ≠ 1

/-- A key that does not spell zero in a longer way shares its place with no other key. -/
theorem eq_of_compareKey {a b : Key} (plain : a.spellsZero = false)
    (same : compareKey a.text b.text = .eq) : a = b := by
  apply ext_text
  rw [compareKey_eq_cmp, cmp_eq_eq_iff] at same
  unfold keyPlace at same
  cases parsedA : tryParseStringToInt a.text with
  | none =>
    cases parsedB : tryParseStringToInt b.text with
    | none =>
      -- Two keys that are no integers have their code units as places.
      simp only [parsedA, parsedB] at same
      exact utf16_injective (by simpa using same)
    | some value => simp [parsedA, parsedB] at same
  | some value =>
    cases parsedB : tryParseStringToInt b.text with
    | none => simp [parsedA, parsedB] at same
    | some other =>
      -- Two integers of one value and one length differ in nothing but the sign of a zero.
      obtain ⟨rfl, length⟩ : value = other ∧ a.text.length = b.text.length := by
        simpa [parsedA, parsedB] using same
      obtain ⟨_, negA, digitsA, someA, allA, wholeA, valueA⟩ := exists_digits parsedA
      obtain ⟨_, negB, digitsB, someB, allB, wholeB, valueB⟩ := exists_digits parsedB
      rw [← String.length_toList, ← String.length_toList, wholeA, wholeB] at length
      have single : value = 0 → a.text.length = 1 := by
        rintro rfl
        simpa [spellsZero, parsedA] using plain
      rw [← String.length_toList, wholeA] at single
      have signs : negA = negB := by
        have magA := magnitude_nonneg allA
        have magB := magnitude_nonneg allB
        have lenA : 0 < digitsA.length := List.length_pos_iff.mpr someA
        have lenB : 0 < digitsB.length := List.length_pos_iff.mpr someB
        -- With different signs the value is zero, and the minus sign leaves no digit on one side.
        cases negA <;> cases negB <;>
          simp only [Bool.false_eq_true, if_false, if_true, List.length_cons] at valueA valueB length single
        · rfl
        · have short := single (by omega)
          omega
        · have short := single (by omega)
          omega
        · rfl
      subst signs
      apply String.toList_inj.mp
      rw [wholeA, wholeB]
      cases negA
      · simp only [Bool.false_eq_true, if_false] at length valueA valueB ⊢
        exact eq_of_magnitude length allA allB (valueA.symm.trans valueB)
      · simp only [if_true] at length valueA valueB ⊢
        rw [eq_of_magnitude (by simpa using length) allA allB (by omega)]

/-- A key that spells zero in a longer way has the place of another one, which has a minus sign in place of
the first zero or a zero in place of the minus sign. -/
theorem exists_same_of_spellsZero {key : Key} (zero : key.spellsZero = true) :
    ∃ other : Key, other ≠ key ∧ compareKey key.text other.text = .eq := by
  simp only [spellsZero, Bool.and_eq_true, decide_eq_true_eq] at zero
  obtain ⟨parsed, longer⟩ := zero
  obtain ⟨short, negative, digits, something, all, whole, value⟩ := exists_digits parsed
  have magnitude : magnitude digits = 0 := by
    cases negative <;> simp only [Bool.false_eq_true, if_false, if_true] at value <;> omega
  have positive : 0 < digits.length := List.length_pos_iff.mpr something
  rw [eq_replicate_of_magnitude all magnitude] at whole
  rw [← String.length_toList, whole] at short longer
  -- Both spellings have the same length and value.
  have flipped : ∀ {count : ℕ}, 0 < count → (zeros (!negative) count).length = key.text.length →
      ∃ other : Key, other ≠ key ∧ compareKey key.text other.text = .eq := by
    intro count some same
    have few : (zeros (!negative) count).length ≤ 11 := by
      rw [same, ← String.length_toList, whole]
      exact short
    obtain ⟨valid, zero⟩ := zeros_spec (!negative) some few
    refine ⟨⟨_, valid⟩, fun equal => ?_, ?_⟩
    · have text : (zeros (!negative) count).toList = key.text.toList :=
        congrArg (fun key : Key => key.text.toList) equal
      rw [whole] at text
      cases negative <;> cases count <;> cases length : digits.length <;>
        simp [zeros, length, List.replicate_succ] at text some positive
    · rw [compareKey_eq_cmp, cmp_eq_eq_iff]
      simp only [keyPlace, parsed, zero, same]
  cases negative with
  | true =>
    refine @flipped (digits.length + 1) (Nat.succ_pos _) ?_
    rw [length_zeros, ← @String.length_toList key.text, whole]
    simp
  | false =>
    simp only [Bool.false_eq_true, if_false, List.length_replicate] at longer
    refine @flipped (digits.length - 1) (by omega) ?_
    rw [length_zeros, ← @String.length_toList key.text, whole]
    simp only [Bool.not_false, Bool.toNat_true, Bool.false_eq_true, if_false, List.length_replicate]
    omega

/-- Whether no other key has the place of a key among the children of a node. -/
def Single (key : Key) : Prop := ∀ other : Key, compareKey key.text other.text = .eq → other = key

/-- Only spellings of zero share a place. -/
theorem single_iff {key : Key} : key.Single ↔ key.spellsZero = false := by
  -- Another spelling of zero is found for each; every other key is alone at its place.
  constructor
  · intro single
    refine Bool.eq_false_iff.mpr fun zero => ?_
    obtain ⟨other, different, same⟩ := exists_same_of_spellsZero zero
    exact different (single other same)
  · exact fun plain other same => (eq_of_compareKey plain same).symm

instance (key : Key) : Decidable key.Single := decidable_of_iff _ single_iff.symm

/-- Read a string as a key if it is valid. -/
def ofText? (text : String) : Option Key :=
  -- Invalid strings name no key.
  if valid : isValidKey text = true then some ⟨text, valid⟩ else none

@[simp] theorem ofText?_text (key : Key) : ofText? key.text = some key := by
  -- A key is valid by construction.
  simp [ofText?, key.valid]

/-- A key contains at least one character and no slash. -/
theorem text_spec (key : Key) : key.text.toList ≠ [] ∧ '/' ∉ key.text.toList := by
  -- The slash is one of the characters that the check excludes.
  have valid := key.valid
  simp only [isValidKey, Bool.and_eq_true, Bool.not_eq_true', List.isEmpty_eq_false_iff,
    List.all_eq_true] at valid
  refine ⟨valid.1, fun slash => ?_⟩
  have excluded := valid.2 '/' slash
  revert excluded
  decide

/-- Every key may be passed to `child:`. -/
theorem isValidPathString_text (key : Key) : isValidPathString key.text = true := by
  -- The characters excluded from paths are excluded from keys as well.
  have valid := key.valid
  simp only [isValidKey, isValidPathString, Bool.and_eq_true, List.all_eq_true] at valid ⊢
  refine ⟨valid.1, fun c member => ?_⟩
  have excluded := valid.2 c member
  simp only [kInvalidKeyCharacters, kInvalidPathCharacters] at excluded ⊢
  grind

/-- An accented letter as one character. -/
def composed : Key := ⟨"\u00e9", by decide⟩

/-- The same letter as two characters, which Unicode calls equivalent. -/
def decomposed : Key := ⟨"e\u0301", by decide⟩

end Key

/-- A location of the database, as the keys on the way from its root. -/
abbrev Path := List Key

/-- The keys of a path string: its nonempty pieces between slashes. -/
def pathWithString (path : String) : Path :=
  -- On a valid path string every nonempty piece is a key.
  (path.toList.splitOn '/').filterMap fun piece => Key.ofText? (String.ofList piece)

/-- The text of a key parses to that key alone. -/
@[simp] theorem pathWithString_text (key : Key) : pathWithString key.text = [key] := by
  -- Without a slash there is one piece.
  rw [pathWithString, List.splitOn_eq_singleton key.text_spec.2]
  simp

end CardGuru
