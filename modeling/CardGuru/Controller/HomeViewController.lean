import CardGuru.Firebase.Server

/-! The home screen: its shared card objects, its search results and the rows it offers. -/

namespace CardGuru

/-- A reference to a card object; the list and the search results share objects. -/
abbrev CardRef := Nat

/-- The state of one `HomeViewController`. -/
structure HomeViewController where
  /-- The identity of this instance. -/
  id : Nat
  /-- The card objects by reference. -/
  heap : CardRef → Card
  /-- References from here on have not been used. -/
  nextRef : CardRef
  cards : Option (List CardRef)
  filteredCards : List CardRef
  /-- Whether the search controller is active. -/
  isActive : Bool
  /-- The text of the search bar. -/
  searchText : String
  /-- The row count returned at the last `reloadData`. -/
  rowCount : Nat
  cardPlaceholderView : Option Nat
  /-- The placeholder views that the view contains. -/
  subviews : List Nat
  /-- The identity of the next placeholder view. -/
  nextView : Nat

namespace HomeViewController

/-- A new instance, before its view has loaded. -/
def new (id : Nat) : HomeViewController where
  id := id
  heap := fun _ => Card.make "" "" "" .empty
  nextRef := 0
  cards := none
  filteredCards := []
  isActive := false
  searchText := ""
  rowCount := 0
  cardPlaceholderView := none
  subviews := []
  nextView := 0

/-- The cards of a list of references. -/
def cardsAt (home : HomeViewController) (refs : List CardRef) : List Card :=
  refs.map home.heap

/-- The cards of the list, once they are loaded. -/
def loadedCards (home : HomeViewController) : Option (List Card) :=
  home.cards.map home.cardsAt

/-- The uids of the list. -/
def uids (home : HomeViewController) : List String :=
  (home.loadedCards.getD []).map Card.uid

/-- Put new card objects into the heap. -/
def allocate (home : HomeViewController) (cards : List Card) : HomeViewController :=
  { home with
    -- Objects in use stay as they are; unused references hold nothing that counts.
    heap := fun ref =>
      if ref < home.nextRef then home.heap ref
      else (cards[ref - home.nextRef]?).getD (home.heap ref)
    nextRef := home.nextRef + cards.length }

/-- The references that new card objects get. -/
def allocated (home : HomeViewController) (cards : List Card) : List CardRef :=
  List.range' home.nextRef cards.length

/-- Whether the rows show search results. -/
def isSearching (home : HomeViewController) : Bool :=
  home.isActive && !home.searchText.isEmpty

/-- The rows that the data source offers. -/
def displayedCards (home : HomeViewController) : List CardRef :=
  match home.cards with
  | none => []
  -- Results may be left over from an earlier list; the data source does not compare them.
  | some cards => if home.isSearching then home.filteredCards else cards

/-- Ask the data source for the number of rows again. -/
def reloadData (home : HomeViewController) : HomeViewController :=
  { home with rowCount := home.displayedCards.length }

/-- Put a new placeholder view into the view. -/
def addCardPlaceholderView (home : HomeViewController) : HomeViewController :=
  -- A view that was referred to before is forgotten, not removed.
  { home with
    cardPlaceholderView := some home.nextView
    subviews := home.subviews ++ [home.nextView]
    nextView := home.nextView + 1 }

/-- Add the placeholder view to an empty list and remove it otherwise. -/
def checkIfPlaceholderViewNeeded (home : HomeViewController) : HomeViewController :=
  if home.cards.map List.length = some 0 then
    match home.cardPlaceholderView with
    | some placeholder =>
      if placeholder ∈ home.subviews then home else home.addCardPlaceholderView
    | none => home.addCardPlaceholderView
  else
    match home.cardPlaceholderView with
    -- A placeholder view that is not in the view has nothing to be removed from.
    | some placeholder => { home with subviews := home.subviews.erase placeholder }
    | none => home

/-- The screen appears, again or for the first time. -/
def viewWillAppear (home : HomeViewController) : HomeViewController :=
  if home.cards.isSome then home.checkIfPlaceholderViewNeeded else home

/-- The cards read by the load of `viewDidLoad` arrive. -/
def viewDidLoadCompletion (home : HomeViewController) (cards : List Card) : HomeViewController :=
  let stored := { home.allocate cards with cards := some (home.allocated cards) }
  -- Nothing looks whether there is a placeholder view already.
  if cards.length = 0 then stored.addCardPlaceholderView else stored.reloadData

/-- The cards read by the load of a deletion arrive. -/
def userDidRemoveDataCompletion (home : HomeViewController) (cards : List Card) :
    HomeViewController :=
  let stored := { home.allocate cards with cards := some (home.allocated cards) }
  stored.checkIfPlaceholderViewNeeded.reloadData

/-- Search the list for names that start with a text, ignoring case. -/
def filterCardsForSearchedText (platform : Platform) (home : HomeViewController)
    (searchText : String) : HomeViewController :=
  match home.cards with
  -- Without a list the earlier results stay.
  | none => home
  | some cards =>
    reloadData
      { home with
        filteredCards := cards.filter fun ref =>
          platform.startsWith (platform.lowercased (home.heap ref).name)
            (platform.lowercased searchText) }

/-- The search text or the activation changes, and the results are updated. -/
def updateSearchResults (platform : Platform) (home : HomeViewController) (isActive : Bool)
    (text : String) : HomeViewController :=
  filterCardsForSearchedText platform { home with isActive := isActive, searchText := text } text

/-- A scanned or entered card is appended, unless the list is not loaded. -/
def userDidEnterCard (home : HomeViewController) (card : Card) : HomeViewController :=
  match home.cards with
  -- The card is lost to the list, but the rows are counted again.
  | none => home.reloadData
  | some cards =>
    reloadData { home.allocate [card] with cards := some (cards ++ home.allocated [card]) }

/-- Change every listed card object whose uid equals the given one. -/
def mutate (platform : Platform) (home : HomeViewController) (cards : List CardRef) (uid : String)
    (change : Card → Card) : HomeViewController :=
  -- Search results that share an object with the list see the change.
  { home with
    heap := fun ref =>
      -- Equal texts need not consist of the same characters.
      if ref ∈ cards ∧ platform.equals (home.heap ref).uid uid then change (home.heap ref)
      else home.heap ref }

/-- An edited card replaces name, barcode and picture of the listed one. -/
def userDidUpdateData (platform : Platform) (home : HomeViewController) (updated : Card) :
    HomeViewController :=
  match home.cards with
  | none => home
  | some cards =>
    reloadData <| home.mutate platform cards updated.uid fun card =>
      { card with
        name := updated.name
        barcode := updated.barcode
        image := updated.image
        -- The address of the new picture is not known yet.
        absoluteURL := none }

/-- New notes replace those of the listed card. -/
def userDidAddNotes (platform : Platform) (home : HomeViewController) (noted : Card) :
    HomeViewController :=
  match home.cards with
  | none => home
  | some cards =>
    reloadData <| home.mutate platform cards noted.uid fun card =>
      { card with notesText := noted.notesText }

section Frame

variable (home : HomeViewController)

@[simp] theorem cards_reloadData : home.reloadData.cards = home.cards := rfl

@[simp] theorem heap_reloadData : home.reloadData.heap = home.heap := rfl

@[simp] theorem nextRef_reloadData : home.reloadData.nextRef = home.nextRef := rfl

@[simp] theorem cardsAt_reloadData (refs : List CardRef) :
    home.reloadData.cardsAt refs = home.cardsAt refs := rfl

@[simp] theorem id_reloadData : home.reloadData.id = home.id := rfl

@[simp] theorem cards_addCardPlaceholderView : home.addCardPlaceholderView.cards = home.cards := rfl

@[simp] theorem heap_addCardPlaceholderView : home.addCardPlaceholderView.heap = home.heap := rfl

/-- Looking after the placeholder view changes nothing that concerns cards. -/
theorem checkIfPlaceholderViewNeeded_frame :
    ∃ placeholder subviews nextView, home.checkIfPlaceholderViewNeeded =
      { home with
        cardPlaceholderView := placeholder, subviews := subviews, nextView := nextView } := by
  -- Each branch adds or removes one view at most.
  unfold checkIfPlaceholderViewNeeded
  split
  · split
    · split
      · exact ⟨_, _, _, rfl⟩
      · exact ⟨_, _, _, rfl⟩
    · exact ⟨_, _, _, rfl⟩
  · split
    · exact ⟨_, _, _, rfl⟩
    · exact ⟨_, _, _, rfl⟩

/-- Appearing changes nothing that concerns cards. -/
theorem viewWillAppear_frame :
    ∃ placeholder subviews nextView, home.viewWillAppear =
      { home with
        cardPlaceholderView := placeholder, subviews := subviews, nextView := nextView } := by
  -- Only the placeholder view is looked after.
  unfold viewWillAppear
  split
  · exact home.checkIfPlaceholderViewNeeded_frame
  · exact ⟨_, _, _, rfl⟩

@[simp] theorem cards_viewWillAppear : home.viewWillAppear.cards = home.cards := by
  obtain ⟨_, _, _, same⟩ := home.viewWillAppear_frame
  rw [same]

@[simp] theorem heap_viewWillAppear : home.viewWillAppear.heap = home.heap := by
  obtain ⟨_, _, _, same⟩ := home.viewWillAppear_frame
  rw [same]

@[simp] theorem nextRef_viewWillAppear : home.viewWillAppear.nextRef = home.nextRef := by
  obtain ⟨_, _, _, same⟩ := home.viewWillAppear_frame
  rw [same]

@[simp] theorem id_viewWillAppear : home.viewWillAppear.id = home.id := by
  obtain ⟨_, _, _, same⟩ := home.viewWillAppear_frame
  rw [same]

@[simp] theorem filteredCards_viewWillAppear :
    home.viewWillAppear.filteredCards = home.filteredCards := by
  obtain ⟨_, _, _, same⟩ := home.viewWillAppear_frame
  rw [same]

/-- Searching changes neither the list nor any card. -/
theorem updateSearchResults_frame (platform : Platform) (isActive : Bool) (text : String) :
    ∃ filteredCards rowCount, home.updateSearchResults platform isActive text =
      { home with
        isActive := isActive, searchText := text, filteredCards := filteredCards,
        rowCount := rowCount } := by
  -- The results are computed from the list, if it is loaded.
  unfold updateSearchResults filterCardsForSearchedText
  split
  · exact ⟨_, _, rfl⟩
  · exact ⟨_, _, rfl⟩

@[simp] theorem cards_updateSearchResults (platform : Platform) (isActive : Bool) (text : String) :
    (home.updateSearchResults platform isActive text).cards = home.cards := by
  obtain ⟨_, _, same⟩ := home.updateSearchResults_frame platform isActive text
  rw [same]

@[simp] theorem heap_updateSearchResults (platform : Platform) (isActive : Bool) (text : String) :
    (home.updateSearchResults platform isActive text).heap = home.heap := by
  obtain ⟨_, _, same⟩ := home.updateSearchResults_frame platform isActive text
  rw [same]

@[simp] theorem nextRef_updateSearchResults (platform : Platform) (isActive : Bool)
    (text : String) :
    (home.updateSearchResults platform isActive text).nextRef = home.nextRef := by
  obtain ⟨_, _, same⟩ := home.updateSearchResults_frame platform isActive text
  rw [same]

@[simp] theorem id_updateSearchResults (platform : Platform) (isActive : Bool) (text : String) :
    (home.updateSearchResults platform isActive text).id = home.id := by
  obtain ⟨_, _, same⟩ := home.updateSearchResults_frame platform isActive text
  rw [same]

/-- The loaded cards are determined by the list and the heap. -/
theorem loadedCards_of_kept {home after : HomeViewController} (cards : after.cards = home.cards)
    (heap : after.heap = home.heap) : after.loadedCards = home.loadedCards := by
  -- Equal heaps turn equal references into equal cards.
  have same : after.cardsAt = home.cardsAt := by
    funext refs
    rw [cardsAt, cardsAt, heap]
  rw [loadedCards, loadedCards, cards, same]

@[simp] theorem loadedCards_viewWillAppear : home.viewWillAppear.loadedCards = home.loadedCards :=
  loadedCards_of_kept (by simp) (by simp)

@[simp] theorem loadedCards_updateSearchResults (platform : Platform) (isActive : Bool)
    (text : String) :
    (home.updateSearchResults platform isActive text).loadedCards = home.loadedCards :=
  loadedCards_of_kept (by simp) (by simp)

@[simp] theorem cards_userDidUpdateData (platform : Platform) (updated : Card) :
    (home.userDidUpdateData platform updated).cards = home.cards := by
  unfold userDidUpdateData
  split <;> rfl

@[simp] theorem nextRef_userDidUpdateData (platform : Platform) (updated : Card) :
    (home.userDidUpdateData platform updated).nextRef = home.nextRef := by
  unfold userDidUpdateData
  split <;> rfl

@[simp] theorem id_userDidUpdateData (platform : Platform) (updated : Card) :
    (home.userDidUpdateData platform updated).id = home.id := by
  unfold userDidUpdateData
  split <;> rfl

@[simp] theorem cards_userDidAddNotes (platform : Platform) (noted : Card) :
    (home.userDidAddNotes platform noted).cards = home.cards := by
  unfold userDidAddNotes
  split <;> rfl

@[simp] theorem nextRef_userDidAddNotes (platform : Platform) (noted : Card) :
    (home.userDidAddNotes platform noted).nextRef = home.nextRef := by
  unfold userDidAddNotes
  split <;> rfl

@[simp] theorem id_userDidAddNotes (platform : Platform) (noted : Card) :
    (home.userDidAddNotes platform noted).id = home.id := by
  unfold userDidAddNotes
  split <;> rfl

@[simp] theorem id_userDidEnterCard (card : Card) : (home.userDidEnterCard card).id = home.id := by
  unfold userDidEnterCard
  split <;> rfl

end Frame

section Loaded

variable {home : HomeViewController} {refs : List CardRef}

/-- Changing listed cards concerns only the heap and the number of rows. -/
theorem userDidUpdateData_loaded (listed : home.cards = some refs) (platform : Platform)
    (updated : Card) :
    home.userDidUpdateData platform updated =
      reloadData (home.mutate platform refs updated.uid fun card =>
        { card with
          name := updated.name, barcode := updated.barcode, image := updated.image,
          absoluteURL := none }) := by
  -- The list is loaded.
  simp only [userDidUpdateData, listed]

/-- Changing the notes of listed cards concerns only the heap and the number of rows. -/
theorem userDidAddNotes_loaded (listed : home.cards = some refs) (platform : Platform)
    (noted : Card) :
    home.userDidAddNotes platform noted =
      reloadData (home.mutate platform refs noted.uid fun card =>
        { card with notesText := noted.notesText }) := by
  -- The list is loaded.
  simp only [userDidAddNotes, listed]

/-- A new card is appended as a new object. -/
theorem userDidEnterCard_loaded (listed : home.cards = some refs) (card : Card) :
    home.userDidEnterCard card =
      reloadData { home.allocate [card] with cards := some (refs ++ [home.nextRef]) } := by
  -- The list is loaded.
  simp only [userDidEnterCard, listed]
  rfl

/-- What the loaded cards are after some objects were changed. -/
private theorem cardsAt_mutate (platform : Platform) (uid : String) (change : Card → Card) :
    (home.mutate platform refs uid change).cardsAt refs =
      (home.cardsAt refs).map fun card =>
        if platform.equals card.uid uid then change card else card := by
  -- Every listed object is changed exactly if its uid equals the given one.
  simp only [cardsAt, List.map_map]
  refine List.map_congr_left fun ref member => ?_
  simp [mutate, member]

/-- An edited card changes the listed cards with an equal uid. -/
theorem loadedCards_userDidUpdateData (platform : Platform) (home : HomeViewController)
    (updated : Card) :
    (home.userDidUpdateData platform updated).loadedCards =
      home.loadedCards.map (List.map fun card =>
        if platform.equals card.uid updated.uid then
          { card with
            name := updated.name, barcode := updated.barcode, image := updated.image,
            absoluteURL := none }
        else card) := by
  cases listed : home.cards with
  | none => simp [userDidUpdateData, loadedCards, listed]
  | some refs =>
    rw [loadedCards, cards_userDidUpdateData, userDidUpdateData_loaded listed, loadedCards, listed]
    simp only [Option.map_some, cardsAt_reloadData, cardsAt_mutate]

/-- New notes change the listed cards with an equal uid. -/
theorem loadedCards_userDidAddNotes (platform : Platform) (home : HomeViewController)
    (noted : Card) :
    (home.userDidAddNotes platform noted).loadedCards =
      home.loadedCards.map (List.map fun card =>
        if platform.equals card.uid noted.uid then { card with notesText := noted.notesText }
        else card) := by
  cases listed : home.cards with
  | none => simp [userDidAddNotes, loadedCards, listed]
  | some refs =>
    rw [loadedCards, cards_userDidAddNotes, userDidAddNotes_loaded listed, loadedCards, listed]
    simp only [Option.map_some, cardsAt_reloadData, cardsAt_mutate]

/-- The listed references are in use. -/
def Allocated (home : HomeViewController) : Prop :=
  ∀ refs, home.cards = some refs → ∀ ref ∈ refs, ref < home.nextRef

/-- New objects do not disturb the ones in use. -/
theorem cardsAt_allocate (cards : List Card) (inUse : ∀ ref ∈ refs, ref < home.nextRef) :
    (home.allocate cards).cardsAt refs = home.cardsAt refs := by
  -- Their references come after the ones in use.
  refine List.map_congr_left fun ref member => ?_
  have old := inUse ref member
  simp [allocate, old]

/-- New objects are found under the references that they get. -/
theorem cardsAt_allocated (home : HomeViewController) (cards : List Card) :
    (home.allocate cards).cardsAt (home.allocated cards) = cards := by
  -- Position by position, the reference leads back to the new card.
  apply List.ext_getElem
  · simp [cardsAt, allocated]
  · intro position inside outside
    have inRange : position < cards.length := outside
    simp [cardsAt, allocated, allocate, inRange]

/-- A new card is the last one of a loaded list. -/
theorem loadedCards_userDidEnterCard (listed : home.cards = some refs) (inUse : home.Allocated)
    (card : Card) : (home.userDidEnterCard card).loadedCards = some (home.cardsAt refs ++ [card]) := by
  -- The old objects stay, and the new one follows.
  have old : (home.allocate [card]).cardsAt refs = home.cardsAt refs :=
    cardsAt_allocate [card] (inUse refs listed)
  have new : (home.allocate [card]).cardsAt (home.allocated [card]) = [card] :=
    home.cardsAt_allocated [card]
  rw [userDidEnterCard_loaded listed]
  show some ((home.allocate [card]).cardsAt (refs ++ home.allocated [card])) = _
  rw [cardsAt, List.map_append]
  exact congrArg some (congrArg₂ _ old new)

end Loaded

end HomeViewController

end CardGuru
