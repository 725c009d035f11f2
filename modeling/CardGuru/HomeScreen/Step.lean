import CardGuru.App.State
import CardGuru.HomeScreen.State
import CardGuru.Lib.Run

/-! What each event does to the home screen, its cells and its downloads. -/

namespace CardGuru

namespace HomeScreen

/-- A home screen whose view has just loaded. -/
def viewDidLoad (id : Nat) : HomeScreen where
  home := .new id
  cells := fun _ => none
  downloads := []
  isLoading := true
  reloads := 0
  opened := none

/-- The collection view drops its cells when its data is reloaded. -/
def reloaded (screen : HomeScreen) (home : HomeViewController) : HomeScreen :=
  { screen with home := home, cells := fun _ => none }

/-- A change that reloads the data if the list is loaded, and else does nothing. -/
def reloadedIfLoaded (screen : HomeScreen) (home : HomeViewController) : HomeScreen :=
  if screen.home.cards.isSome then screen.reloaded home else { screen with home := home }

@[simp] theorem home_reloadedIfLoaded (screen : HomeScreen) (home : HomeViewController) :
    (screen.reloadedIfLoaded home).home = home := by
  unfold reloadedIfLoaded
  split <;> rfl

/-- The cards read by the load of `viewDidLoad` arrive, once. -/
def loadDelivered (screen : HomeScreen) (cards : List Card) : Except Fault HomeScreen :=
  offered (screen.isLoading = true) <|
    let home := screen.home.viewDidLoadCompletion cards
    -- An empty list does not reload the data.
    let shown := if cards.length = 0 then { screen with home := home } else screen.reloaded home
    .ok { shown with isLoading := false }

/-- A deletion starts a reload; the screens that delete a card are opened from a loaded list. -/
def userDidRemoveData (screen : HomeScreen) : Except Fault HomeScreen :=
  offered (screen.home.cards.isSome = true) <| .ok { screen with reloads := screen.reloads + 1 }

/-- The cards read after a deletion arrive. -/
def reloadDelivered (screen : HomeScreen) (cards : List Card) : Except Fault HomeScreen :=
  offered (0 < screen.reloads) <|
    .ok { screen.reloaded (screen.home.userDidRemoveDataCompletion cards) with
      reloads := screen.reloads - 1 }

/-- Start a download for every card of a list that has a stored picture. -/
def loadCardImages (screen : HomeScreen) (cards : List CardRef) : HomeScreen :=
  { screen with
    downloads := screen.downloads ++ cards.zipIdx.filterMap fun (card, index) =>
      (screen.home.heap card).absoluteURL.map fun url =>
        { cards := cards, index := index, card := card, url := url } }

/-- Without a connection the cell shows the placeholder picture. -/
def loadCardsIfOffline (isConnectedToInternet : Bool) (cell : CardCollectionViewCell) (card : Card) :
    CardCollectionViewCell :=
  if isConnectedToInternet then cell else cell.setCell card.name .shop

/-- The cell of a row is filled, and downloads for all rows are started. -/
def cellForItemAt (screen : HomeScreen) (row : Nat) (isConnectedToInternet : Bool) :
    Except Fault HomeScreen :=
  offered (row < screen.home.rowCount) <|
    match screen.home.cards with
    -- A cell of another kind is given out, which shows nothing.
    | none => .ok screen
    | some _ =>
      match screen.home.displayedCards[row]? with
      | none => .error (.indexOutOfRange row screen.home.displayedCards.length)
      | some ref =>
        let card := screen.home.heap ref
        let started := screen.loadCardImages screen.home.displayedCards
        let cell := loadCardsIfOffline isConnectedToInternet .prepareForReuse card
        let filled := cell.setCell card.name (card.image.getD .shop)
        .ok { started with
          cells := fun other => if other = row then some ⟨ref, filled⟩ else started.cells other }

/-- The cell of a row leaves the screen. -/
def didEndDisplaying (screen : HomeScreen) (row : Nat) : HomeScreen :=
  { screen with cells := fun other => if other = row then none else screen.cells other }

/-- A cell of an offered row is tapped, and the fields of the row are handed over to a detail screen. -/
def prepare (screen : HomeScreen) (row : Nat) : Except Fault HomeScreen :=
  offered (row < screen.home.rowCount) <|
    (screen.home.detailedCard row).map fun opened => { screen with opened := some opened }

/-- A download ends; its completion is called only with a picture. -/
def downloadFinished (screen : HomeScreen) (position : Nat) (image : Option UIImage) :
    Except Fault HomeScreen :=
  match screen.downloads[position]? with
  | none => .error .unavailable
  | some download =>
    let rest := { screen with downloads := screen.downloads.eraseIdx position }
    match image with
    | none => .ok rest
    | some image =>
      match download.cards[download.index]? with
      | none => .error (.indexOutOfRange download.index download.cards.length)
      | some ref =>
        -- The card gets the picture, and so does whatever cell is visible in the captured row.
        let heap := fun other =>
          if other = ref then { screen.home.heap ref with image := some image }
          else screen.home.heap other
        .ok { rest with
          home := { screen.home with heap := heap }
          cells := fun row =>
            if row = download.index then
              (screen.cells row).map fun shown =>
                { shown with cell := shown.cell.setCell (heap download.card).name image }
            else screen.cells row }

/-- What one event does. -/
def step (platform : Platform) (screen : HomeScreen) : HomeEvent → Except Fault HomeScreen
  | .loadDelivered cards => screen.loadDelivered cards
  | .userDidRemoveData => screen.userDidRemoveData
  | .reloadDelivered cards => screen.reloadDelivered cards
  | .userDidEnterCard card => .ok (screen.reloaded (screen.home.userDidEnterCard card))
  | .userDidUpdateData updated =>
    .ok (screen.reloadedIfLoaded (screen.home.userDidUpdateData platform updated))
  | .userDidAddNotes noted => .ok (screen.reloadedIfLoaded (screen.home.userDidAddNotes platform noted))
  | .viewWillAppear => .ok { screen with home := screen.home.viewWillAppear }
  | .searchChanged isActive text =>
    .ok (screen.reloadedIfLoaded (screen.home.updateSearchResults platform isActive text))
  | .cellForItemAt row isConnectedToInternet => screen.cellForItemAt row isConnectedToInternet
  | .didEndDisplaying row => .ok (screen.didEndDisplaying row)
  | .prepare row => screen.prepare row
  | .downloadFinished position image => screen.downloadFinished position image

/-- The screen after an event, unless the event cannot happen or ends the program. -/
def next (platform : Platform) (screen : HomeScreen) (event : HomeEvent) : Option HomeScreen :=
  (screen.step platform event).toOption

variable {platform : Platform} {screen after : HomeScreen} {history : List (HomeScreen × HomeEvent)}

/-- The screen after the cell of a row was filled for a card object. -/
def configured (screen : HomeScreen) (row : Nat) (ref : CardRef) : HomeScreen :=
  -- Every configured cell starts the downloads of all displayed cards.
  { screen.loadCardImages screen.home.displayedCards with
    cells := fun other =>
      if other = row then
        some ⟨ref, ⟨some (screen.home.heap ref).name,
          some ((screen.home.heap ref).image.getD .shop)⟩⟩
      else screen.cells other }

/-- The screen after a card object got a downloaded picture. -/
def downloaded (screen : HomeScreen) (position : Nat) (download : Download) (ref : CardRef)
    (image : UIImage) : HomeScreen :=
  -- The card gets the picture, and the cell of the remembered row shows both.
  let heap := fun other =>
    if other = ref then { screen.home.heap ref with image := some image }
    else screen.home.heap other
  { screen with
    home := { screen.home with heap := heap }
    downloads := screen.downloads.eraseIdx position
    cells := fun row =>
      if row = download.index then
        (screen.cells row).map fun shown =>
          { shown with cell := ⟨some (heap download.card).name, some image⟩ }
      else screen.cells row }

/-- All that an event can do, with the conditions under which it does so. -/
inductive Steps (platform : Platform) (screen : HomeScreen) : HomeEvent → HomeScreen → Prop where
  | loadedEmpty {cards : List Card} (loading : screen.isLoading = true) (empty : cards.length = 0) :
    Steps platform screen (.loadDelivered cards)
      { screen with home := screen.home.viewDidLoadCompletion cards, isLoading := false }
  | loaded {cards : List Card} (loading : screen.isLoading = true) (filled : cards.length ≠ 0) :
    Steps platform screen (.loadDelivered cards)
      { screen.reloaded (screen.home.viewDidLoadCompletion cards) with isLoading := false }
  | userDidRemoveData (loaded : screen.home.cards.isSome = true) :
    Steps platform screen .userDidRemoveData { screen with reloads := screen.reloads + 1 }
  | reloadDelivered {cards : List Card} (pending : 0 < screen.reloads) :
    Steps platform screen (.reloadDelivered cards)
      { screen.reloaded (screen.home.userDidRemoveDataCompletion cards) with
        reloads := screen.reloads - 1 }
  | userDidEnterCard {card : Card} :
    Steps platform screen (.userDidEnterCard card)
      (screen.reloaded (screen.home.userDidEnterCard card))
  | userDidUpdateData {updated : Card} :
    Steps platform screen (.userDidUpdateData updated)
      (screen.reloadedIfLoaded (screen.home.userDidUpdateData platform updated))
  | userDidAddNotes {noted : Card} :
    Steps platform screen (.userDidAddNotes noted)
      (screen.reloadedIfLoaded (screen.home.userDidAddNotes platform noted))
  | viewWillAppear :
    Steps platform screen .viewWillAppear { screen with home := screen.home.viewWillAppear }
  | searchChanged {isActive : Bool} {text : String} :
    Steps platform screen (.searchChanged isActive text)
      (screen.reloadedIfLoaded (screen.home.updateSearchResults platform isActive text))
  | cellUnloaded {row : Nat} {isConnected : Bool} (missing : screen.home.cards = none) :
    Steps platform screen (.cellForItemAt row isConnected) screen
  | cellForItemAt {row : Nat} {isConnected : Bool} {ref : CardRef}
    (inside : row < screen.home.rowCount)
    (shown : screen.home.displayedCards[row]? = some ref) :
    Steps platform screen (.cellForItemAt row isConnected) (screen.configured row ref)
  | didEndDisplaying {row : Nat} :
    Steps platform screen (.didEndDisplaying row) (screen.didEndDisplaying row)
  | prepare {row : Nat} {opened : DetailedViewController} (inside : row < screen.home.rowCount)
    (filled : screen.home.detailedCard row = .ok opened) :
    Steps platform screen (.prepare row) { screen with opened := some opened }
  | downloadFailed {position : Nat} :
    Steps platform screen (.downloadFinished position none)
      { screen with downloads := screen.downloads.eraseIdx position }
  | downloadFinished {position : Nat} {image : UIImage} {download : Download} {ref : CardRef}
    (pending : screen.downloads[position]? = some download)
    (captured : download.cards[download.index]? = some ref) :
    Steps platform screen (.downloadFinished position (some image))
      (screen.downloaded position download ref image)

private theorem cellForItemAt_ok {row : Nat} {isConnected : Bool}
    (done : screen.cellForItemAt row isConnected = .ok after) :
    Steps platform screen (.cellForItemAt row isConnected) after := by
  -- The cell of an offline device is filled twice, and the second filling remains.
  obtain ⟨inside, filled⟩ := offered_ok done
  split at filled
  · rename_i missing
    cases filled
    exact .cellUnloaded missing
  · split at filled
    · cases filled
    · rename_i ref shown
      cases filled
      exact .cellForItemAt inside shown

private theorem downloadFinished_ok {position : Nat} {image : Option UIImage}
    (done : screen.downloadFinished position image = .ok after) :
    Steps platform screen (.downloadFinished position image) after := by
  -- A completion looks its card up in the list that it captured.
  unfold downloadFinished at done
  split at done
  · cases done
  · rename_i download pending
    cases image with
    | none =>
      cases done
      exact .downloadFailed
    | some image =>
      simp only at done
      split at done
      · cases done
      · rename_i ref captured
        cases done
        exact .downloadFinished pending captured

/-- The screens that follow each other in a run do so by one of the listed steps. -/
theorem steps_of_next {event : HomeEvent} (taken : screen.next platform event = some after) :
    Steps platform screen event after := by
  have done : screen.step platform event = .ok after := by
    unfold next at taken
    cases happens : screen.step platform event with
    | error fault => simp [happens, Except.toOption] at taken
    | ok result => simpa [happens, Except.toOption] using taken
  -- Each event is inverted by itself.
  cases event with
  | loadDelivered cards =>
    obtain ⟨loading, result⟩ := offered_ok done
    cases result
    by_cases empty : cards.length = 0
    · simpa only [empty, if_true] using Steps.loadedEmpty loading empty
    · simpa only [empty, if_false] using Steps.loaded loading empty
  | userDidRemoveData =>
    obtain ⟨loaded, result⟩ := offered_ok done
    cases result
    exact .userDidRemoveData loaded
  | reloadDelivered cards =>
    obtain ⟨pending, result⟩ := offered_ok done
    cases result
    exact .reloadDelivered pending
  | userDidEnterCard card =>
    cases done
    exact .userDidEnterCard
  | userDidUpdateData updated =>
    cases done
    exact .userDidUpdateData
  | userDidAddNotes noted =>
    cases done
    exact .userDidAddNotes
  | viewWillAppear =>
    cases done
    exact .viewWillAppear
  | searchChanged isActive text =>
    cases done
    exact .searchChanged
  | cellForItemAt row isConnected => exact cellForItemAt_ok done
  | didEndDisplaying row =>
    cases done
    exact .didEndDisplaying
  | prepare row =>
    obtain ⟨inside, result⟩ := offered_ok done
    cases filled : screen.home.detailedCard row with
    | error fault => simp [filled, Except.map] at result
    | ok opened =>
      simp only [filled, Except.map] at result
      cases result
      exact .prepare inside filled
  | downloadFinished position image => exact downloadFinished_ok done

end HomeScreen

end CardGuru
