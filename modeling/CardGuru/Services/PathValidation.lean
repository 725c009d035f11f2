import CardGuru.Services.DatabaseService

/-! Which calls of the database service raise because a path string is not valid. -/

namespace CardGuru

/-- A step ends the program because a path string is not valid. -/
def Raises {α : Type} (result : Except Fault α) : Prop :=
  ∃ pathString, result = .error (.invalidPathValidation pathString)

section Sequences

variable {α β : Type} {first : Except Fault α} {next : α → Except Fault β} {value : α}

@[simp] theorem not_raises_ok : ¬ Raises (.ok value : Except Fault α) := by
  -- A result is not a fault.
  rintro ⟨pathString, raised⟩
  cases raised

/-- A sequence raises in its first step or after it. -/
theorem raises_bind :
    Raises (first >>= next) ↔ Raises first ∨ ∃ value, first = .ok value ∧ Raises (next value) := by
  cases first with
  | error fault =>
    -- The fault of the first step is that of the sequence.
    constructor
    · intro ⟨pathString, raised⟩
      cases raised
      exact .inl ⟨pathString, rfl⟩
    · rintro (⟨pathString, raised⟩ | ⟨_, done, _⟩)
      · cases raised
        exact ⟨pathString, rfl⟩
      · cases done
  | ok value =>
    constructor
    · intro raised
      exact .inr ⟨value, rfl, raised⟩
    · rintro (raised | ⟨_, done, raised⟩)
      · exact absurd raised not_raises_ok
      · cases done
        exact raised

/-- Looking at a result differently does not make it a fault. -/
theorem raises_map {change : α → β} : Raises (first.map change) ↔ Raises first := by
  cases first with
  | error fault => simp [Raises, Except.map]
  | ok value => simp [Raises, Except.map]

end Sequences

/-- A reference is refused exactly if the path string is not valid. -/
theorem raises_child {reference : Path} {pathString : String} :
    Raises (child reference pathString) ↔ isValidPathString pathString = false := by
  -- The check is the only thing that can fail.
  unfold child
  split
  · rename_i valid
    simp [valid]
  · rename_i invalid
    simp [Raises, invalid]

/-- A write may be too large, but its path is not looked at again. -/
theorem Server.not_raises_perform {server : Server} {write : DatabaseWrite} :
    ¬ Raises (server.perform write) := by
  unfold Server.perform
  rintro ⟨pathString, raised⟩
  split at raised <;> cases raised

/-- An e-mail address names a folder if it is not empty and contains none of four characters. -/
def IsNamed (email : String) : Prop :=
  email ≠ "" ∧ ∀ c ∈ email.toList, c ∉ ['#', '$', '[', ']']

instance {email : String} : Decidable (IsNamed email) :=
  -- The characters of the address are checked, and not all characters that there are.
  have : Decidable (∀ c ∈ email.toList, c ∉ ['#', '$', '[', ']']) := List.decidableBAll _ email.toList
  inferInstanceAs (Decidable (_ ∧ _))

/-- The folder name of a user is valid exactly if the e-mail address names a folder. -/
theorem isValidPathString_userKey {email : String} :
    isValidPathString (userKey email) = true ↔ IsNamed email := by
  -- The full stop, the fifth character that is not allowed, has been replaced.
  have characters : ∀ c : Char, kInvalidPathCharacters.contains (if c = '.' then '_' else c) = false ↔
      c ∉ ['#', '$', '[', ']'] := by
    intro c
    by_cases stop : c = '.'
    · subst stop
      decide
    · simp only [stop, if_false, kInvalidPathCharacters]
      have texts : "[].#$".toList = ['[', ']', '.', '#', '$'] := by decide
      rw [texts]
      simp [stop]
      grind
  have empty : email = "" ↔ email.toList = [] := by simp
  simp only [isValidPathString, userKey, String.toList_ofList, Bool.and_eq_true, List.all_eq_true,
    Bool.not_eq_true', List.isEmpty_eq_false_iff, ne_eq, List.map_eq_nil_iff, List.forall_mem_map,
    IsNamed, empty, characters]

namespace DatabaseService

variable {defaults : UserDefaults} {server : Server} {userRef uid : String}

/-- The folder of the cards is refused exactly if the name of the user is not valid. -/
theorem raises_cardsRef : Raises (cardsRef userRef) ↔ isValidPathString userRef = false := by
  -- The name of the folder of cards is valid, so that the one of the user decides.
  have folder : ∀ user : Path, ¬ Raises (child user Paths.cards.text) := by
    intro user
    rw [raises_child, Key.isValidPathString_text]
    decide
  unfold cardsRef
  rw [raises_bind, raises_child]
  constructor
  · rintro (invalid | ⟨user, _, raised⟩)
    · exact invalid
    · exact absurd raised (folder user)
  · exact .inl

/-- The current user has a name that is not valid. -/
def Unnamed (defaults : UserDefaults) : Prop :=
  ∃ user, defaults.fetchUser = some user ∧ ¬ IsNamed user.email

/-- The name of the current user is not valid exactly if the e-mail address names no folder. -/
theorem unnamed_iff : Unnamed defaults ↔
    ∃ userRef, getCurrentUserRef defaults = some userRef ∧ isValidPathString userRef = false := by
  -- The folder of a user is the e-mail address in another spelling.
  unfold Unnamed getCurrentUserRef
  cases defaults.fetchUser with
  | none => simp
  | some user => simp [← isValidPathString_userKey]

/-- A load raises exactly if the name of the user is not valid. -/
theorem raises_loadDataFromDb : Raises (loadDataFromDb defaults) ↔ Unnamed defaults := by
  -- Without a user nothing is addressed.
  rw [unnamed_iff]
  unfold loadDataFromDb
  cases getCurrentUserRef defaults with
  | none => simp
  | some userRef => simp [raises_map, raises_cardsRef]

/-- Storing a new card raises exactly if the name of the user is not valid. -/
theorem raises_saveCard {parameters : List (Key × Leaf)} {autoId : PushId} :
    Raises (saveCard defaults server parameters autoId) ↔ Unnamed defaults := by
  rw [unnamed_iff]
  unfold saveCard
  cases getCurrentUserRef defaults with
  | none => simp
  | some userRef =>
    -- A generated key is always valid.
    have generated : ∀ cards : Path, ¬ Raises (child cards autoId.text) := by
      intro cards
      rw [raises_child, show autoId.text = autoId.key.text from rfl, Key.isValidPathString_text]
      decide
    have stored : ∀ cards : Path, ¬ Raises (do
        let cardRef ← child cards autoId.text
        let server ← server.perform (.setValue cardRef parameters)
        return (server, autoId.text)) := by
      intro cards
      rw [raises_bind]
      rintro (raised | ⟨cardRef, _, raised⟩)
      · exact generated cards raised
      · rcases raises_bind.mp raised with raised | ⟨_, _, raised⟩
        · exact Server.not_raises_perform raised
        · exact not_raises_ok raised
    simp only [Option.some.injEq, exists_eq_left']
    rw [raises_bind, raises_cardsRef]
    constructor
    · rintro (invalid | ⟨cards, _, raised⟩)
      · exact invalid
      · exact absurd raised (stored cards)
    · exact .inl

/-- A write on a record raises exactly if the name of the user or the uid is not valid. -/
theorem raises_onRecord {request : Path → DatabaseWrite} :
    Raises (onRecord defaults server uid request) ↔
      ∃ userRef, getCurrentUserRef defaults = some userRef ∧
        (isValidPathString userRef = false ∨ isValidPathString uid = false) := by
  -- The folder is addressed before the record.
  unfold onRecord
  cases getCurrentUserRef defaults with
  | none => simp
  | some userRef =>
    have written : ∀ cards : Path, Raises (do
        let cardRef ← child cards uid
        server.perform (request cardRef)) ↔ isValidPathString uid = false := by
      intro cards
      rw [raises_bind, raises_child]
      constructor
      · rintro (invalid | ⟨cardRef, _, raised⟩)
        · exact invalid
        · exact absurd raised Server.not_raises_perform
      · exact .inl
    simp only [Option.some.injEq, exists_eq_left']
    rw [raises_bind, raises_cardsRef]
    constructor
    · rintro (invalid | ⟨cards, _, raised⟩)
      · exact .inl invalid
      · exact .inr ((written cards).mp raised)
    · intro invalid
      by_cases named : isValidPathString userRef = false
      · exact .inl named
      · -- With a valid user the record is reached, and its uid decides.
        have found := cardsRef_of_valid (Bool.eq_true_of_not_eq_false named)
        exact .inr ⟨_, found, (written _).mpr (invalid.resolve_left named)⟩

end DatabaseService

end CardGuru
