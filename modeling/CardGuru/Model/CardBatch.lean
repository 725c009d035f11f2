import CardGuru.Model.CardList
import Mathlib.Data.List.Nodup
import Mathlib.Data.List.Perm.Basic

/-! Batches of operations on pairwise different cards: their order does not matter, and a batch
changes nothing exactly if none of its operations does. -/

namespace CardGuru

namespace CardOperation

/-- The uid of the card that an operation concerns. -/
def uid : CardOperation → String
  | add card => card.uid
  | edit uid _ _ | addNotes uid _ | delete uid => uid

/-- Whether an operation concerns a card of the list. -/
def isChange : CardOperation → Bool
  | add _ => false
  | _ => true

/-- Whether an operation deletes a card. -/
def isDeletion : CardOperation → Bool
  | delete _ => true
  | _ => false

/-- What an operation makes of one card of the list. -/
def onCard : CardOperation → Card.View → Option Card.View
  | add _, card => some card
  | edit uid name barcode, card =>
    some (if card.uid = uid then { card with name := name, barcode := barcode } else card)
  | addNotes uid notes, card =>
    some (if card.uid = uid then { card with notesText := some notes } else card)
  | delete uid, card => if card.uid = uid then none else some card

/-- The list after a batch of operations. -/
def performAll (operations : List CardOperation) (cards : List Card.View) : List Card.View :=
  operations.foldl (fun cards operation => operation.perform cards) cards

variable {operation other : CardOperation} {operations first second : List CardOperation}
  {card after : Card.View} {cards : List Card.View} {uid : String}

/-- A change of the list treats each card by itself. -/
theorem perform_eq_filterMap (change : operation.isChange = true) (cards : List Card.View) :
    operation.perform cards = cards.filterMap operation.onCard := by
  cases operation with
  | add card => cases change
  | edit uid name barcode =>
    -- Every card is kept, changed or not.
    exact (congrFun List.filterMap_eq_map cards).symm
  | addNotes uid notes => exact (congrFun List.filterMap_eq_map cards).symm
  | delete uid =>
    rw [perform, ← List.filterMap_eq_filter]
    refine List.filterMap_congr fun card _ => ?_
    by_cases concerned : card.uid = uid
    · simp [onCard, concerned, Option.guard]
    · simp [onCard, concerned, Option.guard]

/-- A card of another uid stays as it is. -/
theorem onCard_of_other (other : operation.uid ≠ card.uid) : operation.onCard card = some card := by
  -- Every operation compares the uids first.
  cases operation with
  | add added => rfl
  | edit uid name barcode =>
    have elsewhere : card.uid ≠ uid := Ne.symm other
    simp only [onCard, elsewhere, if_false]
  | addNotes uid notes =>
    have elsewhere : card.uid ≠ uid := Ne.symm other
    simp only [onCard, elsewhere, if_false]
  | delete uid =>
    have elsewhere : card.uid ≠ uid := Ne.symm other
    simp only [onCard, elsewhere, if_false]

/-- A card that is kept keeps its uid. -/
theorem uid_of_onCard (kept : operation.onCard card = some after) : after.uid = card.uid := by
  cases operation with
  | add added =>
    cases kept
    rfl
  | edit uid name barcode =>
    cases kept
    split <;> rfl
  | addNotes uid notes =>
    cases kept
    split <;> rfl
  | delete uid =>
    -- The card is kept because it is another one.
    simp only [onCard] at kept
    split at kept
    · cases kept
    · cases kept
      rfl

/-- Operations on different cards commute. -/
theorem perform_comm (change : operation.isChange = true) (otherChange : other.isChange = true)
    (different : operation.uid ≠ other.uid) (cards : List Card.View) :
    other.perform (operation.perform cards) = operation.perform (other.perform cards) := by
  rw [perform_eq_filterMap otherChange, perform_eq_filterMap change, perform_eq_filterMap change,
    perform_eq_filterMap otherChange, List.filterMap_filterMap, List.filterMap_filterMap]
  refine List.filterMap_congr fun card _ => ?_
  -- Of the two operations at most one concerns the card.
  by_cases concerned : operation.uid = card.uid
  · have otherwise : other.uid ≠ card.uid := fun same => different (concerned.trans same.symm)
    rw [onCard_of_other otherwise]
    cases kept : operation.onCard card with
    | none => simp [kept]
    | some after =>
      have still : other.uid ≠ after.uid := by rw [uid_of_onCard kept]; exact otherwise
      simp [kept, onCard_of_other still]
  · rw [onCard_of_other concerned]
    cases kept : other.onCard card with
    | none => simp [kept]
    | some after =>
      have still : operation.uid ≠ after.uid := by rw [uid_of_onCard kept]; exact concerned
      simp [kept, onCard_of_other still]

/-- Changes of pairwise different cards. -/
def Different (operations : List CardOperation) : Prop :=
  (∀ operation ∈ operations, operation.isChange = true) ∧ (operations.map CardOperation.uid).Nodup

/-- The order of a batch does not matter for whether its cards are different. -/
theorem Different.perm (different : Different first) (order : first.Perm second) :
    Different second :=
  ⟨fun operation member => different.1 operation (order.mem_iff.mpr member),
    (order.map CardOperation.uid).nodup_iff.mp different.2⟩

/-- The first part of a batch concerns different cards. -/
theorem Different.left (different : Different (first ++ second)) : Different first := by
  refine ⟨fun operation member => different.1 operation (List.mem_append_left _ member), ?_⟩
  have all := different.2
  rw [List.map_append] at all
  exact all.of_append_left

/-- The second part of a batch concerns different cards. -/
theorem Different.right (different : Different (first ++ second)) : Different second := by
  refine ⟨fun operation member => different.1 operation (List.mem_append_right _ member), ?_⟩
  have all := different.2
  rw [List.map_append] at all
  exact all.of_append_right

/-- Operations in the two parts of a batch concern different cards. -/
theorem Different.apart (different : Different (first ++ second)) (left : operation ∈ first)
    (right : other ∈ second) : operation.uid ≠ other.uid := by
  have all := different.2
  rw [List.map_append] at all
  -- No uid occurs in both parts.
  intro same
  exact List.disjoint_of_nodup_append all (List.mem_map_of_mem left)
    (same ▸ List.mem_map_of_mem right)

/-- The order of a batch does not matter. -/
theorem performAll_perm (different : Different first) (order : first.Perm second)
    (cards : List Card.View) : performAll first cards = performAll second cards := by
  -- Operations with different uids commute.
  refine order.foldl_eq' (fun operation member other otherMember cards => ?_) cards
  by_cases same : operation.uid = other.uid
  · -- One uid, one operation.
    rw [List.inj_on_of_nodup_map different.2 member otherMember same]
  · exact perform_comm (different.1 operation member) (different.1 other otherMember) same cards

theorem performAll_append (first second : List CardOperation) (cards : List Card.View) :
    performAll (first ++ second) cards = performAll second (performAll first cards) :=
  List.foldl_append

/-- A card that no operation of a batch concerns is listed as before. -/
theorem mem_performAll (changes : ∀ operation ∈ operations, operation.isChange = true)
    (untouched : ∀ operation ∈ operations, operation.uid ≠ card.uid) :
    card ∈ performAll operations cards ↔ card ∈ cards := by
  induction operations generalizing cards with
  | nil => rfl
  | cons operation later ih =>
    have rest := @ih (operation.perform cards)
      (fun other member => changes other (List.mem_cons_of_mem _ member))
      (fun other member => untouched other (List.mem_cons_of_mem _ member))
    refine rest.trans ?_
    rw [perform_eq_filterMap (changes operation List.mem_cons_self), List.mem_filterMap]
    have other := untouched operation List.mem_cons_self
    constructor
    · intro ⟨before, member, kept⟩
      -- The card comes from a card with its uid, which was kept as it is.
      have same : before = card := by
        have still : operation.onCard before = some before :=
          onCard_of_other (by rw [← uid_of_onCard kept]; exact other)
        exact Option.some.inj (still.symm.trans kept)
      exact same ▸ member
    · intro member
      exact ⟨card, member, onCard_of_other other⟩

/-- A uid that no operation of a batch concerns is listed as before. -/
theorem uid_mem_performAll (changes : ∀ operation ∈ operations, operation.isChange = true)
    (untouched : ∀ operation ∈ operations, operation.uid ≠ uid)
    (listed : uid ∈ cards.map Card.View.uid) :
    uid ∈ (performAll operations cards).map Card.View.uid := by
  -- A card that no operation concerns stays as it is.
  obtain ⟨card, member, rfl⟩ := List.mem_map.mp listed
  exact List.mem_map_of_mem ((mem_performAll changes untouched).mpr member)

/-- Changes of cards bring no uid into a list. -/
theorem uids_performAll_subset (changes : ∀ operation ∈ operations, operation.isChange = true) :
    (performAll operations cards).map Card.View.uid ⊆ cards.map Card.View.uid := by
  induction operations generalizing cards with
  | nil => exact fun _ member => member
  | cons operation rest ih =>
    have later : (performAll rest (operation.perform cards)).map Card.View.uid ⊆
        (operation.perform cards).map Card.View.uid :=
      ih fun other member => changes other (List.mem_cons_of_mem _ member)
    intro uid member
    -- What is left after the first operation has the uid of a card before it.
    obtain ⟨after, kept, rfl⟩ := List.mem_map.mp (later member)
    rw [perform_eq_filterMap (changes operation List.mem_cons_self)] at kept
    obtain ⟨card, listed, made⟩ := List.mem_filterMap.mp kept
    rw [uid_of_onCard made]
    exact List.mem_map_of_mem listed

/-- A list is left as it is exactly if each of its cards is. -/
theorem perform_eq_self_iff (change : operation.isChange = true) :
    operation.perform cards = cards ↔ ∀ card ∈ cards, operation.onCard card = some card := by
  rw [perform_eq_filterMap change]
  induction cards with
  | nil => simp
  | cons card cards ih =>
    cases kept : operation.onCard card with
    | none =>
      -- A card that is left out would have to be made up for.
      have shorter := List.length_filterMap_le operation.onCard cards
      simp only [List.filterMap_cons, kept, List.forall_mem_cons, reduceCtorEq, false_and, iff_false]
      intro same
      have lengths := congrArg List.length same
      simp only [List.length_cons] at lengths
      omega
    | some after => simp [kept, ih]

/-- Whether an operation changes a list does not depend on a batch that concerns other cards. -/
theorem perform_performAll_eq_self_iff (change : operation.isChange = true)
    (changes : ∀ other ∈ operations, other.isChange = true)
    (apart : ∀ other ∈ operations, other.uid ≠ operation.uid) :
    operation.perform (performAll operations cards) = performAll operations cards ↔
      operation.perform cards = cards := by
  rw [perform_eq_self_iff change, perform_eq_self_iff change]
  have same : ∀ card : Card.View, card.uid = operation.uid →
      (card ∈ performAll operations cards ↔ card ∈ cards) := by
    intro card concerned
    exact mem_performAll changes fun other member => concerned ▸ apart other member
  -- Only the cards of the uid of the operation count, and those are the same.
  constructor
  · intro all card member
    by_cases concerned : operation.uid = card.uid
    · exact all card ((same card concerned.symm).mpr member)
    · exact onCard_of_other concerned
  · intro all card member
    by_cases concerned : operation.uid = card.uid
    · exact all card ((same card concerned.symm).mp member)
    · exact onCard_of_other concerned

/-- An operation that was just performed changes nothing more. -/
theorem perform_perform (change : operation.isChange = true) (cards : List Card.View) :
    operation.perform (operation.perform cards) = operation.perform cards := by
  rw [perform_eq_self_iff change, perform_eq_filterMap change]
  intro card member
  obtain ⟨before, _, kept⟩ := List.mem_filterMap.mp member
  -- The card already carries the values of the operation.
  cases operation with
  | add added => cases change
  | edit uid name barcode =>
    by_cases concerned : before.uid = uid
    · simp only [onCard, concerned, if_true, Option.some.injEq] at kept
      simp [onCard, ← kept]
    · simp only [onCard, concerned, if_false, Option.some.injEq] at kept
      simp [onCard, ← kept, concerned]
  | addNotes uid notes =>
    by_cases concerned : before.uid = uid
    · simp only [onCard, concerned, if_true, Option.some.injEq] at kept
      simp [onCard, ← kept]
    · simp only [onCard, concerned, if_false, Option.some.injEq] at kept
      simp [onCard, ← kept, concerned]
  | delete uid =>
    by_cases concerned : before.uid = uid
    · simp [onCard, concerned] at kept
    · simp only [onCard, concerned, if_false, Option.some.injEq] at kept
      simp [onCard, ← kept, concerned]

/-- A batch changes nothing exactly if none of its operations does. -/
theorem performAll_eq_self_iff (different : Different operations) :
    performAll operations cards = cards ↔
      ∀ operation ∈ operations, operation.perform cards = cards := by
  constructor
  · intro same operation member
    -- Any of the operations may be performed last.
    have order : operations.Perm (operations.erase operation ++ [operation]) :=
      (List.perm_cons_erase member).trans (List.perm_append_singleton _ _).symm
    rw [performAll_perm different order, performAll_append] at same
    have change := different.1 operation member
    rw [← same]
    exact perform_perform change _
  · intro idle
    clear different
    induction operations with
    | nil => rfl
    | cons operation later ih =>
      show performAll later (operation.perform cards) = cards
      rw [idle operation List.mem_cons_self]
      exact ih fun other member => idle other (List.mem_cons_of_mem _ member)

end CardOperation

end CardGuru
