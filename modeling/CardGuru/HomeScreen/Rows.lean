import CardGuru.App.Objects
import CardGuru.HomeScreen.Step

/-! The number of rows that the collection view remembers always is the length of the list that is
displayed, and each visible cell belongs to the card displayed in its row. -/

namespace CardGuru

namespace HomeViewController

/-- The remembered number of rows is the number of displayed cards. -/
def Counted (home : HomeViewController) : Prop :=
  home.rowCount = home.displayedCards.length

variable {home : HomeViewController}

/-- Reloading the data counts the rows. -/
theorem counted_reloadData (home : HomeViewController) : home.reloadData.Counted :=
  -- The count is not itself part of what is displayed.
  rfl

theorem counted_userDidEnterCard (card : Card) : (home.userDidEnterCard card).Counted := by
  -- The data is reloaded whether or not the list is loaded.
  unfold userDidEnterCard
  split
  · exact counted_reloadData _
  · exact counted_reloadData _

theorem counted_userDidUpdateData (counted : home.Counted) (platform : Platform) (updated : Card) :
    (home.userDidUpdateData platform updated).Counted := by
  -- Without a list nothing changes, and else the data is reloaded.
  unfold userDidUpdateData
  split
  · exact counted
  · exact counted_reloadData _

theorem counted_userDidAddNotes (counted : home.Counted) (platform : Platform) (noted : Card) :
    (home.userDidAddNotes platform noted).Counted := by
  -- Without a list nothing changes, and else the data is reloaded.
  unfold userDidAddNotes
  split
  · exact counted
  · exact counted_reloadData _

/-- An unloaded list displays nothing. -/
theorem displayedCards_of_unloaded (missing : home.cards = none) : home.displayedCards = [] := by
  -- The search results are not looked at before there is a list.
  unfold displayedCards
  rw [missing]

theorem counted_updateSearchResults (counted : home.Counted) (platform : Platform) (isActive : Bool)
    (text : String) : (home.updateSearchResults platform isActive text).Counted := by
  -- The rows are counted again only if there is a list.
  unfold updateSearchResults filterCardsForSearchedText
  split
  · -- The search may start before the list is loaded; no row is offered then.
    rename_i missing
    have before : home.displayedCards = [] := displayedCards_of_unloaded missing
    have after : displayedCards { home with isActive := isActive, searchText := text } = [] :=
      displayedCards_of_unloaded missing
    show home.rowCount = _
    rw [after, counted, before]
  · exact counted_reloadData _

theorem counted_viewWillAppear (counted : home.Counted) : home.viewWillAppear.Counted := by
  -- Only the placeholder view is looked after.
  obtain ⟨_, _, _, same⟩ := home.viewWillAppear_frame
  rw [same]
  exact counted

theorem counted_userDidRemoveDataCompletion (cards : List Card) :
    (home.userDidRemoveDataCompletion cards).Counted :=
  -- The last thing that happens is a reload of the data.
  counted_reloadData _

/-- A first load without cards leaves the rows as they were: there are none. -/
theorem counted_viewDidLoadCompletion (counted : home.Counted) (missing : home.cards = none)
    (found : home.filteredCards = []) (cards : List Card) :
    (home.viewDidLoadCompletion cards).Counted := by
  unfold viewDidLoadCompletion
  split
  · rename_i empty
    obtain rfl : cards = [] := List.eq_nil_of_length_eq_zero empty
    -- The empty list is displayed, or the empty search results are.
    have before : home.displayedCards = [] := displayedCards_of_unloaded missing
    show home.rowCount = _
    rw [counted, before]
    simp only [addCardPlaceholderView, displayedCards, allocated, allocate, found, List.length_nil,
      List.range'_zero, ite_self]
  · exact counted_reloadData _

end HomeViewController

namespace HomeScreen

variable {platform : Platform} {screen after final : HomeScreen} {event : HomeEvent}
  {history : List (HomeScreen × HomeEvent)} {id : Nat}

/-- What the rows, the cells and the downloads of a home screen have to do with its lists. -/
structure Rows (screen : HomeScreen) : Prop where
  counted : screen.home.Counted
  /-- A visible cell was configured with the card displayed in its row. -/
  shown : ∀ row cell, screen.cells row = some cell →
    screen.home.displayedCards[row]? = some cell.card
  /-- A download finds its card again. -/
  captured : ∀ download ∈ screen.downloads,
    download.cards[download.index]? = some download.card
  /-- Nothing was listed before the first delivery. -/
  loading : screen.isLoading = true → screen.home.cards = none
  /-- Nothing is found or deleted in a list that is not loaded. -/
  unloaded : screen.home.cards = none → screen.home.filteredCards = [] ∧ screen.reloads = 0

/-- Before the list is loaded no cell is visible. -/
theorem Rows.cells_of_unloaded (rows : screen.Rows) (missing : screen.home.cards = none)
    (row : Nat) : screen.cells row = none := by
  cases visible : screen.cells row with
  | none => rfl
  | some cell =>
    -- Its card would be displayed.
    have inside := rows.shown row cell visible
    rw [HomeViewController.displayedCards_of_unloaded missing] at inside
    cases inside

/-- A visible row is one of the counted rows. -/
theorem Rows.lt_rowCount (rows : screen.Rows) {row : Nat} {cell : VisibleCell}
    (visible : screen.cells row = some cell) : row < screen.home.rowCount := by
  -- Its card is displayed.
  have inside := rows.shown row cell visible
  obtain ⟨below, _⟩ := List.getElem?_eq_some_iff.mp inside
  exact rows.counted ▸ below

/-- A completion writes into the card that its download captured. -/
theorem Rows.captured_eq (rows : screen.Rows) {position : Nat} {download : Download} {ref : CardRef}
    (pending : screen.downloads[position]? = some download)
    (captured : download.cards[download.index]? = some ref) : ref = download.card := by
  -- The captured list and the captured card belong together.
  have own := rows.captured download (List.mem_of_getElem? pending)
  exact Option.some.inj (captured.symm.trans own)

/-- A reload that is still to be delivered was started from a loaded list. -/
theorem Rows.loaded_of_pending (rows : screen.Rows) (pending : 0 < screen.reloads) :
    ∃ refs, screen.home.cards = some refs := by
  cases listed : screen.home.cards with
  | some refs => exact ⟨refs, rfl⟩
  | none =>
    -- No reload is pending before the list is loaded.
    have := (rows.unloaded listed).2
    omega

/-- A change that keeps the list and reloads the data keeps the rows. -/
private theorem rows_reloadedIfLoaded (rows : screen.Rows) {home : HomeViewController}
    (counted : home.Counted) (cards : home.cards = screen.home.cards)
    (found : screen.home.cards = none → home.filteredCards = screen.home.filteredCards) :
    (screen.reloadedIfLoaded home).Rows := by
  cases listed : screen.home.cards with
  | none =>
    -- Nothing is displayed, and so there are no cells either.
    have unchanged : screen.reloadedIfLoaded home = { screen with home := home } := by
      simp [reloadedIfLoaded, listed]
    rw [unchanged]
    refine ⟨counted, ?_, rows.captured, fun _ => cards.trans listed, ?_⟩
    · intro row cell visible
      cases (rows.cells_of_unloaded listed row).symm.trans visible
    · intro _
      rw [found listed]
      exact rows.unloaded listed
  | some refs =>
    have changed : screen.reloadedIfLoaded home = screen.reloaded home := by
      simp [reloadedIfLoaded, listed]
    have loaded : home.cards = some refs := cards.trans listed
    rw [changed]
    refine ⟨counted, (fun _ _ visible => nomatch visible), rows.captured, ?_, ?_⟩
    · intro loading
      simp [rows.loading loading] at listed
    · intro missing
      have nothing : home.cards = none := missing
      simp [loaded] at nothing

/-- Every download of a loop captures a row and the card in it. -/
private theorem captured_loadCardImages (screen : HomeScreen) (cards : List CardRef) :
    ∀ download ∈ (screen.loadCardImages cards).downloads,
      download ∈ screen.downloads ∨ download.cards[download.index]? = some download.card := by
  intro download member
  rcases List.mem_append.mp member with old | new
  · exact .inl old
  · -- The loop pairs each card with its position.
    obtain ⟨⟨card, index⟩, paired, made⟩ := List.mem_filterMap.mp new
    obtain ⟨url, _, rfl⟩ := Option.map_eq_some_iff.mp made
    exact .inr (List.mem_zipIdx_iff_getElem?.mp paired)

/-- Every event keeps the rows. -/
theorem Rows.step (rows : screen.Rows) (stepped : Steps platform screen event after) :
    after.Rows := by
  cases stepped with
  | @loadedEmpty cards loading empty =>
    have missing := rows.loading loading
    have counted := HomeViewController.counted_viewDidLoadCompletion rows.counted missing
      (rows.unloaded missing).1 cards
    obtain ⟨_, _, _, _, shape⟩ := screen.home.viewDidLoadCompletion_frame cards
    refine ⟨counted, ?_, rows.captured, (fun loading => nomatch loading), ?_⟩
    · intro row cell visible
      cases (rows.cells_of_unloaded missing row).symm.trans visible
    · intro nothing
      simp [shape] at nothing
  | @loaded cards loading filled =>
    have missing := rows.loading loading
    have counted := HomeViewController.counted_viewDidLoadCompletion rows.counted missing
      (rows.unloaded missing).1 cards
    obtain ⟨_, _, _, _, shape⟩ := screen.home.viewDidLoadCompletion_frame cards
    refine ⟨counted, (fun _ _ visible => nomatch visible), rows.captured,
      (fun loading => nomatch loading), ?_⟩
    intro nothing
    simp [reloaded, shape] at nothing
  | userDidRemoveData loaded =>
    refine ⟨rows.counted, rows.shown, rows.captured, rows.loading, ?_⟩
    intro missing
    have nothing : screen.home.cards = none := missing
    simp [nothing] at loaded
  | @reloadDelivered cards pending =>
    obtain ⟨refs, listed⟩ := rows.loaded_of_pending pending
    obtain ⟨_, _, _, _, shape⟩ := screen.home.userDidRemoveDataCompletion_frame cards
    refine ⟨HomeViewController.counted_userDidRemoveDataCompletion cards,
      (fun _ _ visible => nomatch visible), rows.captured, ?_, ?_⟩
    · intro loading
      simp [rows.loading loading] at listed
    · intro nothing
      simp [reloaded, shape] at nothing
  | @userDidEnterCard card =>
    refine ⟨HomeViewController.counted_userDidEnterCard card,
      (fun _ _ visible => nomatch visible), rows.captured, ?_, ?_⟩
    · intro loading
      simp [reloaded, HomeViewController.userDidEnterCard, rows.loading loading]
    · intro missing
      cases listed : screen.home.cards with
      | none =>
        have before := rows.unloaded listed
        simpa [reloaded, HomeViewController.userDidEnterCard, listed,
          HomeViewController.reloadData] using before
      | some refs => simp [reloaded, HomeViewController.userDidEnterCard, listed] at missing
  | @userDidUpdateData updated =>
    refine rows_reloadedIfLoaded rows
      (HomeViewController.counted_userDidUpdateData rows.counted platform updated) (by simp) ?_
    intro missing
    simp [HomeViewController.userDidUpdateData, missing]
  | @userDidAddNotes noted =>
    refine rows_reloadedIfLoaded rows
      (HomeViewController.counted_userDidAddNotes rows.counted platform noted) (by simp) ?_
    intro missing
    simp [HomeViewController.userDidAddNotes, missing]
  | viewWillAppear =>
    obtain ⟨_, _, _, same⟩ := screen.home.viewWillAppear_frame
    refine ⟨HomeViewController.counted_viewWillAppear rows.counted, ?_, rows.captured, ?_, ?_⟩
    · simp only [same]
      exact rows.shown
    · simpa using rows.loading
    · simpa using rows.unloaded
  | @searchChanged isActive text =>
    refine rows_reloadedIfLoaded rows
      (HomeViewController.counted_updateSearchResults rows.counted platform isActive text)
      (by simp) ?_
    intro missing
    simp [HomeViewController.updateSearchResults, HomeViewController.filterCardsForSearchedText,
      missing]
  | cellUnloaded missing => exact rows
  | @cellForItemAt row isConnected ref inside shown =>
    refine ⟨rows.counted, ?_, ?_, rows.loading, rows.unloaded⟩
    · intro other cell visible
      by_cases same : other = row
      · -- The cell has just been filled for the card displayed in its row.
        have filled : (screen.configured row ref).cells row = some cell := same ▸ visible
        simp only [configured, if_true, Option.some.injEq] at filled
        subst filled
        rw [same]
        exact shown
      · refine rows.shown other cell ?_
        simpa [configured, same] using visible
    · intro download pending
      rcases captured_loadCardImages screen _ download pending with old | new
      · exact rows.captured download old
      · exact new
  | @didEndDisplaying row =>
    refine ⟨rows.counted, ?_, rows.captured, rows.loading, rows.unloaded⟩
    intro other cell visible
    refine rows.shown other cell ?_
    by_cases same : other = row
    · simp [HomeScreen.didEndDisplaying, same] at visible
    · simpa [HomeScreen.didEndDisplaying, same] using visible
  | prepare inside filled => exact ⟨rows.counted, rows.shown, rows.captured, rows.loading, rows.unloaded⟩
  | downloadFailed =>
    refine ⟨rows.counted, rows.shown, ?_, rows.loading, rows.unloaded⟩
    intro download pending
    exact rows.captured download (List.mem_of_mem_eraseIdx pending)
  | @downloadFinished position image download ref pending captured =>
    refine ⟨rows.counted, ?_, ?_, rows.loading, rows.unloaded⟩
    · intro row cell visible
      -- The cell may show another picture, but its row was configured with the same card.
      simp only [downloaded] at visible
      split at visible
      · obtain ⟨before, earlier, rfl⟩ := Option.map_eq_some_iff.mp visible
        exact rows.shown row before earlier
      · exact rows.shown row cell visible
    · intro other member
      exact rows.captured other (List.mem_of_mem_eraseIdx member)

/-- Every event keeps the listed and the found references in use. -/
theorem objects_step (objects : screen.home.Objects fun _ => True)
    (stepped : Steps platform screen event after) : after.home.Objects fun _ => True := by
  -- No property of cards is asked for, so that every change keeps it.
  cases stepped with
  | @loadedEmpty cards loading empty => exact objects.loadCompletion true fun _ _ => trivial
  | @loaded cards loading filled => exact objects.loadCompletion true fun _ _ => trivial
  | @reloadDelivered cards pending => exact objects.loadCompletion false fun _ _ => trivial
  | userDidEnterCard => exact objects.userDidEnterCard trivial
  | @userDidUpdateData updated =>
    rw [home_reloadedIfLoaded]
    exact objects.userDidUpdateData fun _ _ _ => trivial
  | @userDidAddNotes noted =>
    rw [home_reloadedIfLoaded]
    exact objects.userDidAddNotes fun _ _ _ => trivial
  | viewWillAppear => exact objects.viewWillAppear
  | @searchChanged isActive text =>
    rw [home_reloadedIfLoaded]
    exact objects.updateSearchResults platform isActive text
  | downloadFinished pending captured => exact ⟨fun _ _ => trivial, objects.listed, objects.found⟩
  | _ => exact objects

/-- In every run of a home screen the rows are as described. -/
theorem rows_of_run (run : Run (HomeScreen.next platform) (viewDidLoad id) history final) :
    final.Rows := by
  -- A home screen starts without a list, without cells and without downloads.
  refine run.invariant_always (fun rows taken => rows.step (steps_of_next taken)) ?_
  refine ⟨rfl, (fun _ _ visible => nomatch visible), ?_, fun _ => rfl, fun _ => ⟨rfl, rfl⟩⟩
  intro download pending
  cases pending

end HomeScreen

end CardGuru
