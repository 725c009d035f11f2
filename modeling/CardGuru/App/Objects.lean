import CardGuru.App.Reachable
import CardGuru.App.Views

/-! Properties that all card objects of the home screen have, listed or not. -/

namespace CardGuru

namespace HomeViewController

/-- Every card object has a property, and the list and the search results are card objects. -/
structure Objects (good : Card → Prop) (home : HomeViewController) : Prop where
  good : ∀ ref < home.nextRef, good (home.heap ref)
  listed : home.Allocated
  found : ∀ ref ∈ home.filteredCards, ref < home.nextRef

variable {good weaker : Card → Prop} {platform : Platform} {home after : HomeViewController}

/-- A new home screen has no objects. -/
theorem objects_new (id : Nat) : (HomeViewController.new id).Objects good where
  good := fun ref below => absurd below (Nat.not_lt_zero ref)
  listed := fun refs shown => by cases shown
  found := fun ref member => by simp [new] at member

/-- Objects keep a property that becomes weaker. -/
theorem Objects.imp (objects : home.Objects good) (weaken : ∀ card, good card → weaker card) :
    home.Objects weaker :=
  ⟨fun ref below => weaken _ (objects.good ref below), objects.listed, objects.found⟩

/-- Nothing changes for the objects while heap, list and search results stay. -/
theorem Objects.of_kept (objects : home.Objects good) (heap : after.heap = home.heap)
    (nextRef : after.nextRef = home.nextRef) (cards : after.cards = home.cards)
    (filteredCards : after.filteredCards = home.filteredCards) : after.Objects good := by
  -- Each of the three facts is about parts that stay.
  refine ⟨?_, objects.listed.of_kept cards nextRef, ?_⟩
  · rw [heap, nextRef]
    exact objects.good
  · rw [filteredCards, nextRef]
    exact objects.found

/-- The listed cards are objects. -/
theorem Objects.good_of_loaded (objects : home.Objects good) {cards : List Card}
    (loaded : home.loadedCards = some cards) : ∀ card ∈ cards, good card := by
  obtain ⟨refs, listed, rfl⟩ := Option.map_eq_some_iff.mp loaded
  intro card member
  obtain ⟨ref, inside, rfl⟩ := List.mem_map.mp member
  exact objects.good ref (objects.listed refs listed ref inside)

/-- The displayed rows are objects. -/
theorem Objects.displayed (objects : home.Objects good) :
    ∀ ref ∈ home.displayedCards, ref < home.nextRef := by
  -- Rows show the search results or the list, and both refer to objects.
  intro ref member
  unfold displayedCards at member
  split at member
  · simp at member
  · rename_i refs listed
    split at member
    · exact objects.found ref member
    · exact objects.listed refs listed ref member

theorem Objects.viewWillAppear (objects : home.Objects good) : home.viewWillAppear.Objects good :=
  objects.of_kept (by simp) (by simp) (by simp) (by simp)

/-- The search results are taken from the list. -/
theorem Objects.updateSearchResults (objects : home.Objects good) (platform : Platform)
    (isActive : Bool) (text : String) :
    (home.updateSearchResults platform isActive text).Objects good := by
  refine ⟨?_, objects.listed.of_kept (by simp) (by simp), ?_⟩
  · simpa using objects.good
  · rw [nextRef_updateSearchResults]
    unfold HomeViewController.updateSearchResults filterCardsForSearchedText
    split
    · exact objects.found
    · rename_i refs listed
      intro ref member
      exact objects.listed refs listed ref (List.mem_of_mem_filter member)

/-- New objects have the property if their cards do. -/
theorem good_allocate {cards : List Card} (old : ∀ ref < home.nextRef, good (home.heap ref))
    (new : ∀ card ∈ cards, good card) :
    ∀ ref < (home.allocate cards).nextRef, good ((home.allocate cards).heap ref) := by
  intro ref below
  by_cases before : ref < home.nextRef
  · simpa [allocate, before] using old ref before
  · -- The reference belongs to one of the new cards.
    have inside : ref - home.nextRef < cards.length :=
      Nat.sub_lt_left_of_lt_add (Nat.le_of_not_lt before) below
    simpa [allocate, before, inside] using new _ (List.getElem_mem inside)

/-- A delivered load adds objects for its cards. -/
theorem Objects.loadCompletion (objects : home.Objects good) (initial : Bool) {cards : List Card}
    (delivered : ∀ card ∈ cards, good card) : (home.loadCompletion initial cards).Objects good := by
  -- The list is new, while the search results still refer to older objects.
  have listed := home.allocated_loadCompletion initial cards
  obtain ⟨_, _, _, _, shape⟩ := home.loadCompletion_frame initial cards
  refine ⟨?_, listed, ?_⟩
  · rw [shape]
    exact good_allocate objects.good delivered
  · rw [shape]
    intro ref member
    have old := objects.found ref member
    exact Nat.lt_add_right _ old

/-- A reported card becomes an object. -/
theorem Objects.userDidEnterCard (objects : home.Objects good) {card : Card} (entered : good card) :
    (home.userDidEnterCard card).Objects good := by
  have listed := allocated_userDidEnterCard objects.listed card
  -- Without a list the card is not kept anywhere.
  cases loaded : home.cards with
  | none =>
    exact objects.of_kept (by simp [HomeViewController.userDidEnterCard, loaded])
      (by simp [HomeViewController.userDidEnterCard, loaded])
      (by simp [HomeViewController.userDidEnterCard, loaded])
      (by simp [HomeViewController.userDidEnterCard, loaded, reloadData])
  | some refs =>
    rw [userDidEnterCard_loaded loaded] at listed ⊢
    refine ⟨?_, listed, ?_⟩
    · exact good_allocate objects.good fun other member => List.mem_singleton.mp member ▸ entered
    · intro ref member
      have old := objects.found ref member
      exact Nat.lt_succ_of_lt old

/-- Changed objects have the property if the change keeps it. -/
private theorem objects_mutate (objects : home.Objects good) {refs : List CardRef}
    (uid : String) {change : Card → Card}
    (kept : ∀ card, platform.equals card.uid uid → good card → good (change card)) :
    (home.mutate platform refs uid change).Objects good := by
  refine ⟨?_, objects.listed, objects.found⟩
  -- An object is changed or stays the same.
  intro ref below
  have before := objects.good ref below
  simp only [mutate]
  split
  · rename_i concerned
    exact kept _ concerned.2 before
  · exact before

/-- An edited card keeps a property that does not depend on what is edited. -/
theorem Objects.userDidUpdateData (objects : home.Objects good) {updated : Card}
    (kept : ∀ card, platform.equals card.uid updated.uid → good card →
      good { card with
        name := updated.name, barcode := updated.barcode, image := updated.image,
        absoluteURL := none }) : (home.userDidUpdateData platform updated).Objects good := by
  unfold HomeViewController.userDidUpdateData
  split
  · exact objects
  · exact (objects_mutate objects updated.uid kept).of_kept rfl rfl rfl rfl

/-- New notes keep a property that does not depend on notes. -/
theorem Objects.userDidAddNotes (objects : home.Objects good) {noted : Card}
    (kept : ∀ card, platform.equals card.uid noted.uid → good card →
      good { card with notesText := noted.notesText }) :
    (home.userDidAddNotes platform noted).Objects good := by
  unfold HomeViewController.userDidAddNotes
  split
  · exact objects
  · exact (objects_mutate objects noted.uid kept).of_kept rfl rfl rfl rfl

/-- An opened row shows the fields of a card object. -/
theorem Objects.detailedCard (objects : home.Objects good) {row : Nat}
    {opened : DetailedViewController} (rows : home.RowsLoaded) (inside : row < home.rowCount)
    (filled : home.detailedCard row = .ok opened) :
    ∃ card, good card ∧ opened = DetailedViewController.setDetailedCard card.uid card.name
      card.barcode (card.image.getD .shop) (card.absoluteURL.getD "") card.notesText true := by
  -- Rows are there only for a loaded list, so the row has a card.
  unfold HomeViewController.detailedCard at filled
  split at filled
  · rename_i missing
    rw [rows missing] at inside
    exact absurd inside (Nat.not_lt_zero row)
  · split at filled
    · cases filled
    · rename_i ref shown
      cases filled
      have member := List.mem_of_getElem? shown
      exact ⟨home.heap ref, objects.good ref (objects.displayed ref member), rfl⟩

end HomeViewController

namespace App

variable {platform : Platform} {app after : App} {good : String → Prop} {userRef : String}

/-- Every step keeps a property of uids that new and delivered cards have. -/
theorem objects_step {action : Action} (objects : app.home.Objects fun card => good card.uid)
    (stepped : Steps platform app action after)
    (entered : ∀ {server : Server} {cardId : String} {parameters : List (Key × Leaf)}
      {autoId : PushId}, DatabaseService.saveCard app.defaults app.server parameters autoId =
        .ok (server, cardId) → good cardId)
    (delivered : ∀ load ∈ app.loads, ∀ cards, load.snapshot = some cards →
      ∀ card ∈ cards, good card.uid) :
    after.home.Objects fun card => good card.uid := by
  -- The steps that reach the home screen come first; all others leave its objects alone.
  cases stepped with
  | homeViewDidLoad =>
    rw [home_withLoad]
    exact HomeViewController.objects_new _
  | signedIn shown =>
    rw [home_withLoad]
    exact HomeViewController.objects_new _
  | loadDelivered found answered =>
    rename_i load cards
    show HomeViewController.Objects _ (if _ then app.home.loadCompletion load.initial cards else _)
    split
    · exact objects.loadCompletion load.initial
        (delivered load (List.mem_of_find?_eq_some found) cards answered)
    · exact objects
  | searchChanged shown => exact objects.updateSearchResults _ _ _
  | scanned shown fresh stored =>
    refine HomeViewController.Objects.viewWillAppear ?_
    show HomeViewController.Objects _ (if _ then _ else _)
    split
    · exact objects.userDidEnterCard (entered stored)
    · exact objects
  | addNewCard shown filled fresh stored =>
    refine HomeViewController.Objects.viewWillAppear ?_
    show HomeViewController.Objects _ (if _ then _ else _)
    split
    · exact objects.userDidEnterCard (entered stored)
    · exact objects
  | saveNotesClicked shown written =>
    show HomeViewController.Objects _ (if _ then _ else _)
    split
    · exact objects.userDidAddNotes fun card _ known => known
    · exact objects
  | saveCard shown filled fresh removed =>
    show HomeViewController.Objects _ (if _ then _ else _)
    split
    · exact objects.userDidUpdateData fun card _ known => known
    · exact objects
  | deleteCard shown removed deleted =>
    simp only [popToRoot, home_reloading]
    exact objects.viewWillAppear
  | backToRoot shown => exact objects.viewWillAppear
  | _ => exact objects

/-- The text is a key of the database. -/
def IsKey (text : String) : Prop :=
  ∃ key : Key, text = key.text

/-- All uids on the home screen and in answered loads are keys. -/
structure Keyed (app : App) : Prop where
  objects : app.home.Objects fun card => IsKey card.uid
  read : ∀ load ∈ app.loads, ∀ cards, load.snapshot = some cards → ∀ card ∈ cards, IsKey card.uid

/-- The listed uids are keys. -/
theorem Keyed.of_mem_uids (keyed : app.Keyed) {uid : String} (listed : uid ∈ app.home.uids) :
    IsKey uid := by
  obtain ⟨card, member, rfl⟩ := List.mem_map.mp listed
  cases loaded : app.home.loadedCards with
  | none => simp [loaded] at member
  | some cards => exact keyed.objects.good_of_loaded loaded card (by simpa [loaded] using member)

/-- Pending loads after a step were pending before, have just been answered, or are new. -/
theorem loads_cases {action : Action} (stepped : Steps platform app action after) {load : Load}
    (pending : load ∈ after.loads) :
    load ∈ app.loads ∨ load.snapshot = none ∨
      load.snapshot = some (Node.cards (app.server.database.get load.path)) := by
  -- A load that is started has no answer yet.
  have started : ∀ (base : App) (flag : Bool), load ∈ (base.withLoad flag).loads →
      load ∈ base.loads ∨ load.snapshot = none := by
    intro base flag member
    unfold withLoad at member
    split at member
    · exact .inl member
    · rcases List.mem_append.mp member with old | new
      · exact .inl old
      · rw [List.mem_singleton.mp new]
        exact .inr rfl
  cases stepped with
  | homeViewDidLoad => exact (started _ _ pending).imp_right .inl
  | signedIn shown => exact (started _ _ pending).imp_right .inl
  | snapshotRead asked =>
    obtain ⟨old, member, rfl⟩ := List.mem_map.mp pending
    split
    · exact .inr (.inr rfl)
    · exact .inl member
  | loadDelivered found answered => exact .inl (List.mem_of_mem_filter pending)
  | @deleteCard edit detailed cleaned server shown removed deleted =>
    simp only [popToRoot, reloading] at pending
    split at pending
    · exact (started _ _ pending).imp_right .inl
    · exact .inl pending
  | launch => simp at pending
  | _ => exact .inl pending

/-- While there is a user, every step keeps the uids keys. -/
theorem Keyed.step {action : Action} (keyed : app.Keyed)
    (current : DatabaseService.getCurrentUserRef app.defaults = some userRef)
    (stepped : Steps platform app action after) : after.Keyed := by
  refine ⟨objects_step keyed.objects stepped ?_ keyed.read, ?_⟩
  · -- A new uid is the generated key of the record.
    intro server cardId parameters autoId stored
    rcases DatabaseService.saveCard_ok stored with ⟨nobody, _⟩ | ⟨_, _, rfl, _⟩
    · simp [current] at nobody
    · exact ⟨autoId.key, rfl⟩
  · intro load pending cards answered card listed
    rcases loads_cases stepped pending with old | unanswered | read
    · exact keyed.read load old cards answered card listed
    · simp [unanswered] at answered
    · obtain rfl := Option.some.inj (read.symm.trans answered)
      exact Node.exists_key_of_mem_uids (List.mem_map_of_mem listed)

end App

end CardGuru
