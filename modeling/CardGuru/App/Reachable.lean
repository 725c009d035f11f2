import CardGuru.App.Uploads

/-! What holds in every state that a started process reaches. -/

namespace CardGuru

namespace HomeViewController

/-- Rows are only offered once the list is loaded. -/
def RowsLoaded (home : HomeViewController) : Prop :=
  home.cards = none → home.rowCount = 0

/-- Asking for the number of rows of an unloaded list gives none. -/
theorem rowsLoaded_reloadData (home : HomeViewController) : home.reloadData.RowsLoaded := by
  -- An unloaded list has nothing to display.
  intro missing
  have unloaded : home.cards = none := missing
  simp [reloadData, displayedCards, unloaded]

/-- A loaded list may offer any number of rows. -/
theorem rowsLoaded_of_loaded {home : HomeViewController} {refs : List CardRef}
    (listed : home.cards = some refs) : home.RowsLoaded := by
  -- The premise fails.
  intro missing
  simp [listed] at missing

theorem rowsLoaded_viewWillAppear {home : HomeViewController} (rows : home.RowsLoaded) :
    home.viewWillAppear.RowsLoaded := by
  -- Only placeholder views are touched.
  obtain ⟨_, _, _, same⟩ := home.viewWillAppear_frame
  rw [same]
  exact rows

theorem rowsLoaded_updateSearchResults {home : HomeViewController} (platform : Platform)
    (isActive : Bool) (text : String) (rows : home.RowsLoaded) :
    (home.updateSearchResults platform isActive text).RowsLoaded := by
  -- A search over a loaded list asks for the rows again.
  unfold updateSearchResults filterCardsForSearchedText
  split
  · exact rows
  · exact rowsLoaded_reloadData _

theorem rowsLoaded_userDidEnterCard {home : HomeViewController} (card : Card) :
    (home.userDidEnterCard card).RowsLoaded := by
  -- The rows are asked for in both cases.
  unfold userDidEnterCard
  split
  · exact rowsLoaded_reloadData _
  · exact rowsLoaded_reloadData _

theorem rowsLoaded_userDidUpdateData {platform : Platform} {home : HomeViewController} (card : Card)
    (rows : home.RowsLoaded) : (home.userDidUpdateData platform card).RowsLoaded := by
  -- An unloaded list is left alone.
  unfold userDidUpdateData
  split
  · exact rows
  · exact rowsLoaded_reloadData _

theorem rowsLoaded_userDidAddNotes {platform : Platform} {home : HomeViewController} (card : Card)
    (rows : home.RowsLoaded) : (home.userDidAddNotes platform card).RowsLoaded := by
  -- An unloaded list is left alone.
  unfold userDidAddNotes
  split
  · exact rows
  · exact rowsLoaded_reloadData _

/-- After the first load the list holds the new card objects. -/
theorem viewDidLoadCompletion_frame (home : HomeViewController) (cards : List Card) :
    ∃ rowCount placeholder subviews nextView, home.viewDidLoadCompletion cards =
      { home.allocate cards with
        cards := some (home.allocated cards), rowCount := rowCount,
        cardPlaceholderView := placeholder, subviews := subviews, nextView := nextView } := by
  -- A placeholder is shown or the rows are asked for.
  unfold viewDidLoadCompletion
  simp only
  split
  · exact ⟨_, _, _, _, rfl⟩
  · exact ⟨_, _, _, _, rfl⟩

/-- After a reload the list holds the new card objects. -/
theorem userDidRemoveDataCompletion_frame (home : HomeViewController) (cards : List Card) :
    ∃ rowCount placeholder subviews nextView, home.userDidRemoveDataCompletion cards =
      { home.allocate cards with
        cards := some (home.allocated cards), rowCount := rowCount,
        cardPlaceholderView := placeholder, subviews := subviews, nextView := nextView } := by
  -- The placeholder view is looked after, and the rows are asked for.
  unfold userDidRemoveDataCompletion
  obtain ⟨_, _, _, same⟩ :=
    checkIfPlaceholderViewNeeded_frame
      { home.allocate cards with cards := some (home.allocated cards) }
  simp only [same]
  exact ⟨_, _, _, _, rfl⟩

/-- The home screen after a load was delivered to it. -/
def loadCompletion (home : HomeViewController) (initial : Bool) (cards : List Card) :
    HomeViewController :=
  if initial then home.viewDidLoadCompletion cards else home.userDidRemoveDataCompletion cards

/-- Whichever load is delivered, the list holds the new card objects. -/
theorem loadCompletion_frame (home : HomeViewController) (initial : Bool) (cards : List Card) :
    ∃ rowCount placeholder subviews nextView, home.loadCompletion initial cards =
      { home.allocate cards with
        cards := some (home.allocated cards), rowCount := rowCount,
        cardPlaceholderView := placeholder, subviews := subviews, nextView := nextView } := by
  -- The two completions differ in what they do about the placeholder view.
  cases initial with
  | true => exact home.viewDidLoadCompletion_frame cards
  | false => exact home.userDidRemoveDataCompletion_frame cards

/-- A delivered load lists exactly the delivered cards. -/
theorem loadedCards_loadCompletion (home : HomeViewController) (initial : Bool)
    (cards : List Card) : (home.loadCompletion initial cards).loadedCards = some cards := by
  -- The new objects hold the delivered cards.
  obtain ⟨_, _, _, _, same⟩ := home.loadCompletion_frame initial cards
  rw [same]
  exact congrArg some (home.cardsAt_allocated cards)

/-- References stay in use while neither the list nor the counter changes. -/
theorem Allocated.of_kept {home after : HomeViewController} (inUse : home.Allocated)
    (cards : after.cards = home.cards) (nextRef : after.nextRef = home.nextRef) :
    after.Allocated := by
  -- The list is the same, and so is the bound.
  intro refs listed ref member
  rw [nextRef]
  exact inUse refs (cards ▸ listed) ref member

/-- A delivered load lists new objects. -/
theorem allocated_loadCompletion (home : HomeViewController) (initial : Bool) (cards : List Card) :
    (home.loadCompletion initial cards).Allocated := by
  -- The new references are the ones that the counter has just passed.
  obtain ⟨_, _, _, _, same⟩ := home.loadCompletion_frame initial cards
  rw [same]
  rintro refs listed ref member
  obtain rfl : home.allocated cards = refs := Option.some.inj listed
  have bounds := List.mem_range'_1.mp member
  exact bounds.2

/-- A reported card is a new object. -/
theorem allocated_userDidEnterCard {home : HomeViewController} (inUse : home.Allocated)
    (card : Card) : (home.userDidEnterCard card).Allocated := by
  -- Without a list the card is dropped.
  cases listed : home.cards with
  | none => exact inUse.of_kept (by simp [userDidEnterCard, listed]) (by simp [userDidEnterCard, listed])
  | some refs =>
    rw [userDidEnterCard_loaded listed]
    intro shown here ref member
    obtain rfl := Option.some.inj here
    rcases List.mem_append.mp member with old | new
    · have below := inUse refs listed ref old
      exact Nat.lt_succ_of_lt below
    · obtain rfl := List.mem_singleton.mp new
      exact Nat.lt_succ_self _

/-- A detail screen opened by an offered row reports to the list. -/
theorem hasDelegates_of_detailedCard {home : HomeViewController} {row : Nat}
    {opened : DetailedViewController} (rows : home.RowsLoaded) (inside : row < home.rowCount)
    (filled : home.detailedCard row = .ok opened) : opened.hasDelegates = true := by
  -- The delegates are set together with the fields, and an unloaded list offers no row.
  unfold detailedCard at filled
  split at filled
  · rename_i missing
    rw [rows missing] at inside
    exact absurd inside (Nat.not_lt_zero row)
  · split at filled
    · cases filled
    · cases filled
      rfl

end HomeViewController

namespace App

variable {platform : Platform} {app after final : App} {history : List (App × Action)}

/-- The screens above the home screen were opened from its list, one from the other. -/
def OpenedFromList (app : App) : Prop :=
  -- An edit screen holds the fields that its detail screen handed over.
  match app.screen with
  | .detailed detailed => detailed.hasDelegates = true
  | .edit edit detailed => detailed.hasDelegates = true ∧ edit = detailed.edit
  | _ => True

/-- The screens are opened from a loaded list, and rows are offered by a loaded list only. -/
structure WellOpened (app : App) : Prop where
  rows : app.home.RowsLoaded
  opened : app.OpenedFromList

/-- Every step keeps the screens well opened. -/
theorem WellOpened.step {action : Action} (well : app.WellOpened)
    (stepped : Steps platform app action after) : after.WellOpened := by
  obtain ⟨rows, opened⟩ := well
  -- Screens are opened by taps and segues, and the rows follow the list.
  cases stepped with
  | homeViewDidLoad => exact ⟨by simp [HomeViewController.RowsLoaded, HomeViewController.new],
      by simp [OpenedFromList]⟩
  | signedIn shown => exact ⟨by simp [HomeViewController.RowsLoaded, HomeViewController.new],
      by simp [OpenedFromList]⟩
  | loadDelivered found answered =>
    rename_i load cards
    refine ⟨?_, opened⟩
    show HomeViewController.RowsLoaded (if _ then app.home.loadCompletion load.initial cards else _)
    split
    · obtain ⟨_, _, _, _, same⟩ := app.home.loadCompletion_frame load.initial cards
      rw [same]
      exact HomeViewController.rowsLoaded_of_loaded rfl
    · exact rows
  | searchChanged shown =>
    exact ⟨HomeViewController.rowsLoaded_updateSearchResults _ _ _ rows, opened⟩
  | addCardSegue shown => exact ⟨rows, trivial⟩
  | cellSegue shown inside filled =>
    have reporting := HomeViewController.hasDelegates_of_detailedCard rows inside filled
    exact ⟨rows, reporting⟩
  | scanned shown fresh stored =>
    refine ⟨HomeViewController.rowsLoaded_viewWillAppear ?_, trivial⟩
    show HomeViewController.RowsLoaded (if _ then _ else _)
    split
    · exact HomeViewController.rowsLoaded_userDidEnterCard _
    · exact rows
  | addNewCard shown filled fresh stored =>
    refine ⟨HomeViewController.rowsLoaded_viewWillAppear ?_, trivial⟩
    show HomeViewController.RowsLoaded (if _ then _ else _)
    split
    · exact HomeViewController.rowsLoaded_userDidEnterCard _
    · exact rows
  | saveNotesClicked shown written =>
    refine ⟨?_, by simpa [OpenedFromList, shown] using opened⟩
    show HomeViewController.RowsLoaded (if _ then _ else _)
    split
    · exact HomeViewController.rowsLoaded_userDidAddNotes _ rows
    · exact rows
  | editSegue shown => exact ⟨rows, by simpa [OpenedFromList, shown] using opened⟩
  | saveCard shown filled fresh removed =>
    simp only [OpenedFromList, shown] at opened
    refine ⟨?_, opened.1⟩
    show HomeViewController.RowsLoaded (if _ then _ else _)
    split
    · exact HomeViewController.rowsLoaded_userDidUpdateData _ rows
    · exact rows
  | deleteCard shown removed deleted =>
    refine ⟨HomeViewController.rowsLoaded_viewWillAppear ?_, trivial⟩
    rw [home_reloading]
    exact rows
  | backToDetail shown =>
    simp only [OpenedFromList, shown] at opened
    exact ⟨rows, opened.1⟩
  | backToRoot shown => exact ⟨HomeViewController.rowsLoaded_viewWillAppear rows, trivial⟩
  | logoutPressed shown => exact ⟨rows, trivial⟩
  | launch => exact ⟨rows, trivial⟩
  | _ => exact ⟨rows, opened⟩

/-- In every run of a started process the screens are well opened. -/
theorem wellOpened_of_run {server : Server} {defaults : UserDefaults}
    (run : Run (App.next platform) (App.launched server defaults) history final) :
    final.WellOpened := by
  -- A started process shows no card yet.
  refine run.invariant_always (fun well taken => well.step (steps_of_next taken)) ?_
  exact ⟨fun _ => rfl, trivial⟩

/-- No completion is still to come. -/
def Quiet (app : App) : Prop :=
  app.uploads = [] ∧ app.loads = []

instance : Decidable app.Quiet :=
  inferInstanceAs (Decidable (_ ∧ _))

/-- The uid of the card on the screen. -/
def shownUid (app : App) : Option String :=
  -- The scanner shows no card.
  match app.screen with
  | .detailed detailed => some detailed.uid
  | .edit edit _ => some edit.uid
  | _ => none

/-- The card on the screen is listed, and no completion is still to come. -/
def operates (app : App) : Bool :=
  decide app.Quiet && app.shownUid.any app.home.uids.contains

/-- An operation on a listed card while no completion is to come, a successful completion, or a move
between the screens. -/
def sequential (app : App) : Action → Bool
  | .scanned _ _ _ => decide app.Quiet
  | .addNewCard _ _ _ => decide app.Quiet
  | .saveNotesClicked _ => app.operates
  | .saveCard _ _ _ _ => app.operates
  | .deleteCard => app.operates
  | .uploadFinished _ (.stored _) | .snapshotRead _ | .loadDelivered _ => true
  | .searchChanged _ _ | .addCardSegue | .cellSegue _ | .editSegue | .back => true
  -- One user stays signed in, and no upload fails.
  | _ => false

/-- An operation on the shown card is made in quiet and on a listed card. -/
theorem listed_of_operates (operating : app.operates = true) :
    app.Quiet ∧ ∀ uid, app.shownUid = some uid → uid ∈ app.home.uids := by
  -- Both are conditions of the operation.
  simp only [operates, Bool.and_eq_true, decide_eq_true_eq] at operating
  refine ⟨operating.1, fun uid shown => ?_⟩
  simpa [shown] using operating.2

/-- The steps that open the home screen and complete its first load. -/
def firstLoad : List Action :=
  [.homeViewDidLoad, .snapshotRead 0, .loadDelivered 0]

/-- After the first load of a process the home screen lists the cards of the user. -/
theorem loaded_of_firstLoad {server : Server} {defaults : UserDefaults} {userRef : String}
    {loaded : App} (current : DatabaseService.getCurrentUserRef defaults = some userRef)
    (loading : Run.exec (App.next platform) (App.launched server defaults) firstLoad = some loaded) :
    loaded = { App.launched server defaults with
      home := (HomeViewController.new 1).loadCompletion true
        (Node.cards (server.database.get (DatabaseService.cardsPath userRef)))
      screen := .home
      nextTask := 1
      nextHome := 2 } := by
  simp only [firstLoad, Run.exec, Option.bind_eq_some_iff, Option.some.injEq] at loading
  obtain ⟨begun, first, read, second, delivered, third, rfl⟩ := loading
  cases steps_of_next first
  cases steps_of_next second
  cases steps_of_next third with
  | loadDelivered found answered =>
    rename_i load cards
    -- The only load is the one of the new home screen.
    simp only [withLoad, launched, current, List.nil_append, List.map_cons, List.map_nil, if_true,
      List.find?_cons, decide_true, Option.some.injEq] at found
    subst found
    obtain rfl := Option.some.inj answered
    simp only [withLoad, launched, current, List.nil_append, List.map_cons, List.map_nil, if_true]
    simp [HomeViewController.loadCompletion, HomeViewController.new]

end App

end CardGuru
