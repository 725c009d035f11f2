import CardGuru.Lib.Digits
import CardGuru.Services.DatabaseService

/-! The generator of keys for new records: eight characters of time, then twelve random ones. -/

namespace CardGuru

/-- The character that a digit of a generated key is written as. -/
def pushChar (digit : ℕ) : Char :=
  -- Every digit is below the size of the alphabet.
  PUSH_CHARS.getD digit '-'

/-- The twelve random digits of a generated key. -/
structure RandChars where
  digits : List ℕ
  /-- There are twelve, each below the size of the alphabet. -/
  spec : digits.length = 12 ∧ ∀ digit ∈ digits, digit < 64
deriving DecidableEq

namespace RandChars

/-- Twelve zeros, as static storage starts. -/
def zero : RandChars := ⟨List.replicate 12 0, by decide⟩

/-- Twelve digits drawn anew. -/
def drawn (arc4random : ℕ → ℕ) : RandChars where
  -- Each draw is reduced to the size of the alphabet.
  digits := (List.range 12).map fun i => arc4random i % 64
  spec := by
    refine ⟨by simp, fun digit member => ?_⟩
    obtain ⟨i, _, rfl⟩ := List.mem_map.mp member
    exact Nat.mod_lt _ (by decide)

/-- The digits counted up by one, from the last one on. -/
def next (chars : RandChars) : Option RandChars :=
  -- When all are the largest digit, the program writes in front of the array.
  match added : Digits.increment 63 chars.digits.reverse with
  | none => none
  | some raised => some
    { digits := raised.reverse
      spec := by
        have bounded : ∀ digit ∈ chars.digits.reverse, digit < 63 + 1 := fun digit member =>
          chars.spec.2 digit (List.mem_reverse.mp member)
        obtain ⟨length, digits, _⟩ := Digits.increment_spec bounded added
        refine ⟨by simpa [chars.spec.1] using length, fun digit member => ?_⟩
        exact digits digit (List.mem_reverse.mp member) }

/-- The number the digits spell. -/
def value (chars : RandChars) : ℕ :=
  Nat.ofDigits 64 chars.digits.reverse

/-- Counting up raises the number by one. -/
theorem value_next {chars counted : RandChars} (up : chars.next = some counted) :
    counted.value = chars.value + 1 := by
  -- Both numbers are read off the reversed digits.
  unfold next at up
  split at up
  · cases up
  · rename_i raised added
    cases up
    have bounded : ∀ digit ∈ chars.digits.reverse, digit < 63 + 1 := fun digit member =>
      chars.spec.2 digit (List.mem_reverse.mp member)
    have raises := (Digits.increment_spec bounded added).2.2
    simpa [value] using raises

end RandChars

/-- The digits of the time stamp, most significant first. -/
def timeStampChars (now : ℕ) : List ℕ :=
  -- The characters are filled in from the last to the first.
  (Digits.low 64 8 now).reverse

/-- The digits of a generated key. -/
def pushDigits (now : ℕ) (chars : RandChars) : List ℕ :=
  timeStampChars now ++ chars.digits

/-- The digits of a generated key are twenty digits. -/
theorem pushDigits_spec (now : ℕ) (chars : RandChars) :
    (pushDigits now chars).length = 20 ∧ ∀ digit ∈ pushDigits now chars, digit < 64 := by
  -- Eight of them are remainders and twelve are bounded by construction.
  refine ⟨by simp [pushDigits, timeStampChars, chars.spec.1], fun digit member => ?_⟩
  rcases List.mem_append.mp member with time | random
  · exact Digits.lt_of_mem_low (by decide) (List.mem_reverse.mp time)
  · exact chars.spec.2 digit random

/-- Every digit is written as a character of the alphabet. -/
theorem pushChar_mem {digit : ℕ} (bounded : digit < 64) : pushChar digit ∈ PUSH_CHARS := by
  have all : ∀ digit < 64, pushChar digit ∈ PUSH_CHARS := by decide +kernel
  exact all digit bounded

/-- The key generated from a time and random digits. -/
def pushId (now : ℕ) (chars : RandChars) : PushId where
  text := String.ofList ((pushDigits now chars).map pushChar)
  chars := by
    -- The characters are looked up digit by digit.
    obtain ⟨length, bounded⟩ := pushDigits_spec now chars
    refine ⟨fun c member => ?_, by simpa using length⟩
    rw [String.toList_ofList] at member
    obtain ⟨digit, inside, rfl⟩ := List.mem_map.mp member
    exact pushChar_mem (bounded digit inside)

/-- A generated key never spells a 32-bit integer. -/
theorem tryParseStringToInt_pushId (now : ℕ) (chars : RandChars) :
    tryParseStringToInt (pushId now chars).text = none := by
  -- It has more than eleven characters.
  have long : 11 < (pushId now chars).text.toList.length := by
    rw [(pushId now chars).chars.2]
    decide
  simp [tryParseStringToInt, long]

/-- The code units of written digits are those of the characters themselves. -/
theorem utf16_pushChars {digits : List ℕ} (bounded : ∀ digit ∈ digits, digit < 64) :
    utf16 (String.ofList (digits.map pushChar)) = digits.map fun digit => (pushChar digit).toNat := by
  -- No character of the alphabet needs a surrogate pair.
  have basic : ∀ digit < 64, (pushChar digit).toNat < 0x10000 := by decide +kernel
  induction digits with
  | nil => rfl
  | cons digit more ih =>
    have rest := ih fun other member => bounded other (List.mem_cons_of_mem _ member)
    have head := basic digit (bounded digit List.mem_cons_self)
    simp only [utf16, String.toList_ofList, List.map_cons, List.flatMap_cons] at rest ⊢
    rw [rest, codeUnits, if_pos head, List.singleton_append]

/-- The alphabet is listed in the order of its code units. -/
theorem pushChar_lt {first second : ℕ} (smaller : first < second) (bounded : second < 64) :
    (pushChar first).toNat < (pushChar second).toNat := by
  have ascending : ∀ second < 64, ∀ first < second,
      (pushChar first).toNat < (pushChar second).toNat := by decide +kernel
  exact ascending second bounded first smaller

/-- Digit lists in order are written as code units in order. -/
theorem pushChars_lt {first second : List ℕ} (bounded : ∀ digit ∈ first ++ second, digit < 64)
    (smaller : first < second) :
    first.map (fun digit => (pushChar digit).toNat) <
      second.map fun digit => (pushChar digit).toNat := by
  -- The lists part at one digit, and the characters of the two digits are ordered alike.
  induction first generalizing second with
  | nil =>
    cases second with
    | nil => exact absurd smaller (lt_irrefl _)
    | cons other rest => exact List.nil_lt_cons _ _
  | cons digit more ih =>
    cases second with
    | nil => exact absurd smaller (List.not_lt_nil _)
    | cons other rest =>
      rcases List.cons_lt_cons_iff.mp smaller with below | ⟨rfl, later⟩
      · have ordered := pushChar_lt below (bounded other (by simp))
        exact List.cons_lt_cons_iff.mpr (.inl ordered)
      · refine List.cons_lt_cons_iff.mpr (.inr ⟨rfl, ih (fun other member => ?_) later⟩)
        rcases List.mem_append.mp member with left | right
        · exact bounded other (by simp [left])
        · exact bounded other (by simp [right])

/-- Generated keys are ordered by their time and then by their random digits. -/
theorem pushId_lt {earlier later : ℕ} {chars laterChars : RandChars} (fits : later < 64 ^ 8)
    (ahead : earlier < later ∨ earlier = later ∧ chars.value < laterChars.value) :
    (pushId earlier chars).key < (pushId later laterChars).key := by
  -- The digits spell a number whose high part is the time.
  obtain ⟨length, bounded⟩ := pushDigits_spec earlier chars
  obtain ⟨laterLength, laterBounded⟩ := pushDigits_spec later laterChars
  have spelled : ∀ {now : ℕ} {random : RandChars}, now < 64 ^ 8 →
      Nat.ofDigits 64 (pushDigits now random).reverse = random.value + 64 ^ 12 * now := by
    intro now random inside
    rw [pushDigits, List.reverse_append, Nat.ofDigits_append, List.length_reverse, random.spec.1,
      timeStampChars, List.reverse_reverse, Digits.ofDigits_low inside]
    rfl
  have below : chars.value < 64 ^ 12 := by
    have bound := Nat.ofDigits_lt_base_pow_length (b := 64) (l := chars.digits.reverse) (by decide)
      fun digit member => chars.spec.2 digit (List.mem_reverse.mp member)
    rwa [List.length_reverse, chars.spec.1] at bound
  have fitsToo : earlier < 64 ^ 8 := by omega
  have digits : pushDigits earlier chars < pushDigits later laterChars := by
    refine Digits.lt_of_ofDigits_reverse_lt (by decide) (length.trans laterLength.symm) bounded
      laterBounded ?_
    rw [spelled fitsToo, spelled fits]
    omega
  refine Key.lt_of_compareKey ?_
  have units : utf16 (pushId earlier chars).text < utf16 (pushId later laterChars).text := by
    show utf16 (String.ofList _) < utf16 (String.ofList _)
    rw [utf16_pushChars bounded, utf16_pushChars laterBounded]
    refine pushChars_lt (fun digit member => ?_) digits
    exact (List.mem_append.mp member).elim (bounded digit) (laterBounded digit)
  show compareKey (pushId earlier chars).text (pushId later laterChars).text = .lt
  simp [compareKey, tryParseStringToInt_pushId, units]

/-- What the generator remembers between two keys. -/
structure NextPushId where
  /-- The milliseconds of the last call. -/
  lastPushTime : ℕ
  lastRandChars : RandChars
deriving DecidableEq

namespace NextPushId

/-- Before the first call of a process. -/
def initial : NextPushId := ⟨0, .zero⟩

/-- Generate a key at a time in milliseconds, with the numbers drawn if the time is a new one. There is no key
if the time repeats and all twelve digits are 63: the source then counts up a number in front of its array,
which is undefined, and in practice returns a smaller key that ends in twelve zero digits. -/
def get (state : NextPushId) (now : ℕ) (arc4random : ℕ → ℕ) : Option (PushId × NextPushId) :=
  -- Within one millisecond the random digits of the last key are counted up.
  let chars := if now = state.lastPushTime then state.lastRandChars.next
    else some (.drawn arc4random)
  chars.map fun chars => (pushId now chars, ⟨now, chars⟩)

/-- Generate keys one after the other. -/
def getAll (state : NextPushId) : List (ℕ × (ℕ → ℕ)) → Option (List PushId)
  | [] => some []
  | (now, arc4random) :: calls =>
    (state.get now arc4random).bind fun (autoId, after) =>
      (after.getAll calls).map (autoId :: ·)

/-- The key generated last. -/
def last (state : NextPushId) : PushId :=
  pushId state.lastPushTime state.lastRandChars

variable {state after : NextPushId} {now : ℕ} {arc4random : ℕ → ℕ} {autoId : PushId}

/-- A call returns the key of the state it leaves behind, at the time it was made. -/
theorem get_last (generated : state.get now arc4random = some (autoId, after)) :
    autoId = after.last ∧ after.lastPushTime = now := by
  -- Both are made of the same digits.
  obtain ⟨chars, _, returned⟩ := Option.map_eq_some_iff.mp generated
  cases returned
  exact ⟨rfl, rfl⟩

/-- A key generated at no earlier time comes after the last one. -/
theorem get_lt (generated : state.get now arc4random = some (autoId, after))
    (notBack : state.lastPushTime ≤ now) (fits : now < 64 ^ 8) :
    state.last.key < autoId.key := by
  -- At the same time the random digits are higher.
  obtain ⟨chars, chosen, returned⟩ := Option.map_eq_some_iff.mp generated
  cases returned
  refine pushId_lt fits ?_
  split at chosen
  · rename_i duplicateTime
    have raised := RandChars.value_next chosen
    exact .inr ⟨duplicateTime.symm, by omega⟩
  · rename_i newTime
    exact .inl (by omega)

/-- Keys generated while the clock does not go back come after the last one and one another. -/
theorem getAll_sorted {calls : List (ℕ × (ℕ → ℕ))} {autoIds : List PushId}
    (generated : state.getAll calls = some autoIds)
    (notBack : ∀ call ∈ calls, state.lastPushTime ≤ call.1)
    (clock : calls.Pairwise fun earlier later => earlier.1 ≤ later.1)
    (fits : ∀ call ∈ calls, call.1 < 64 ^ 8) :
    (state.last :: autoIds).Pairwise fun earlier later => earlier.key < later.key := by
  -- Each call leaves a state whose last key is the one just returned.
  induction calls generalizing state autoIds with
  | nil =>
    cases generated
    simp
  | cons call calls ih =>
    obtain ⟨now, arc4random⟩ := call
    obtain ⟨⟨autoId, after⟩, first, rest⟩ := Option.bind_eq_some_iff.mp generated
    obtain ⟨later, others, returned⟩ := Option.map_eq_some_iff.mp rest
    cases returned
    obtain ⟨later_ge, ordered⟩ := List.pairwise_cons.mp clock
    obtain ⟨rfl, time⟩ := get_last first
    have next := get_lt first (notBack _ List.mem_cons_self) (fits _ List.mem_cons_self)
    have remaining := ih others
      (fun call member => by rw [time]; exact later_ge call member) ordered
      fun call member => fits call (List.mem_cons_of_mem _ member)
    refine List.pairwise_cons.mpr ⟨fun autoId member => ?_, remaining⟩
    rcases List.mem_cons.mp member with rfl | inside
    · exact next
    · exact next.trans ((List.pairwise_cons.mp remaining).1 autoId inside)

/-- Two keys of one millisecond and one of the next. -/
theorem getAll_sorted_sameTime : ∃ autoIds,
    initial.getAll [(1500, id), (1500, id), (1501, id)] = some autoIds ∧ autoIds.length = 3 ∧
      (initial.last :: autoIds).Pairwise fun earlier later => earlier.key < later.key := by
  have possible : ((initial.getAll [(1500, id), (1500, id), (1501, id)]).any fun autoIds =>
      decide (autoIds.length = 3)) = true := by decide +kernel
  obtain ⟨autoIds, generated, length⟩ := (Option.any_eq_true _ _).mp possible
  exact ⟨autoIds, generated, of_decide_eq_true length,
    getAll_sorted generated (by simp [initial]) (by simp) (by simp)⟩

end NextPushId

end CardGuru
