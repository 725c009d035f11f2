import CardGuru.HomeScreen.Scenario

/-! Visible cells show their own cards exactly as long as every picture that arrives finds its card in
the row that its download remembers, and only there. -/

namespace CardGuru

namespace HomeScreen

variable {platform : Platform} {screen after final : HomeScreen} {event : HomeEvent}
  {history : List (HomeScreen × HomeEvent)} {id : Nat}

/-- The cell of a card: its name and its picture, or the placeholder. -/
def label (card : Card) : CardCollectionViewCell where
  cellName := some card.name
  cellImage := some (card.image.getD .shop)

/-- Every visible cell shows the card that is displayed in its row. -/
def Labelled (screen : HomeScreen) : Prop :=
  ∀ row shown, screen.cells row = some shown → ∃ ref,
    screen.home.displayedCards[row]? = some ref ∧ shown.cell = label (screen.home.heap ref)

/-- A picture arrives for the card in the remembered row, or for one that looks the same there; in any
other visible row the card shows that picture already. -/
def FindsRow (screen : HomeScreen) : HomeEvent → Prop
  | .downloadFinished position (some image) =>
    ∀ download ∈ screen.downloads[position]?, ∀ row < screen.home.rowCount,
      ∀ shown ∈ screen.cells row,
        if row = download.index then
          shown.card = download.card ∨
            (screen.home.heap shown.card).name = (screen.home.heap download.card).name ∧
              (screen.home.heap shown.card).image.getD .shop = image
        else
          shown.card = download.card → (screen.home.heap shown.card).image.getD .shop = image
  -- All other events fill the cells again or leave them alone.
  | _ => True

instance (screen : HomeScreen) (event : HomeEvent) : Decidable (FindsRow screen event) := by
  unfold FindsRow
  split <;> infer_instance

/-- A visible cell shows the displayed card if it shows the card it was configured with. -/
private theorem labelled_iff (rows : screen.Rows) :
    screen.Labelled ↔ ∀ row shown, screen.cells row = some shown →
      shown.cell = label (screen.home.heap shown.card) := by
  -- Both are the same card.
  refine forall₃_congr fun row shown visible => ?_
  rw [rows.shown row shown visible]
  simp

/-- Without visible cells nothing is labelled wrongly. -/
private theorem labelled_of_empty (nothing : ∀ row, screen.cells row = none) : screen.Labelled := by
  intro row shown visible
  cases (nothing row).symm.trans visible

/-- Reloading the data leaves no cell behind that could be wrong. -/
private theorem labelled_reloadedIfLoaded (rows : screen.Rows) (home : HomeViewController) :
    (screen.reloadedIfLoaded home).Labelled := by
  -- A reload empties all cells.
  refine labelled_of_empty fun row => ?_
  unfold reloadedIfLoaded
  split
  · rfl
  · -- There were no cells before the list was loaded.
    rename_i unloaded
    exact rows.cells_of_unloaded (by simpa using unloaded) row

/-- A picture keeps one cell right exactly if it arrives where it belongs. -/
private theorem cell_downloaded_iff {download : Download} {position row : Nat} {shown : VisibleCell}
    {image : UIImage} (visible : screen.cells row = some shown)
    (right : shown.cell = label (screen.home.heap shown.card)) :
    (∀ cell, (screen.downloaded position download download.card image).cells row = some cell →
      cell.cell = label ((screen.downloaded position download download.card image).home.heap
        cell.card)) ↔
      if row = download.index then
        shown.card = download.card ∨
          (screen.home.heap shown.card).name = (screen.home.heap download.card).name ∧
            (screen.home.heap shown.card).image.getD .shop = image
      else shown.card = download.card → (screen.home.heap shown.card).image.getD .shop = image := by
  by_cases remembered : row = download.index
  · -- The cell gets the name and the picture of the downloaded card.
    subst remembered
    by_cases own : shown.card = download.card
    · simp [downloaded, visible, own, label]
    · simp only [downloaded, visible, own, label, if_true, if_false, false_or, Option.map_some,
        Option.some.injEq, forall_eq', CardCollectionViewCell.mk.injEq]
      exact and_congr eq_comm eq_comm
  · by_cases own : shown.card = download.card
    · -- The cell keeps the old picture of the card.
      simp [downloaded, remembered, visible, right, own, label]
    · simp [downloaded, remembered, visible, right, own]

/-- An event keeps the cells right exactly if it is of the described kind. -/
private theorem labelled_iff_findsRow (rows : screen.Rows) (labelled : screen.Labelled)
    (stepped : Steps platform screen event after) : after.Labelled ↔ FindsRow screen event := by
  have next := rows.step stepped
  cases stepped with
  | @loadedEmpty cards loading empty =>
    have nothing := rows.cells_of_unloaded (rows.loading loading)
    exact iff_of_true (labelled_of_empty nothing) trivial
  | loaded loading filled => exact iff_of_true (labelled_of_empty fun _ => rfl) trivial
  | reloadDelivered pending => exact iff_of_true (labelled_of_empty fun _ => rfl) trivial
  | userDidEnterCard => exact iff_of_true (labelled_of_empty fun _ => rfl) trivial
  | userDidUpdateData => exact iff_of_true (labelled_reloadedIfLoaded rows _) trivial
  | userDidAddNotes => exact iff_of_true (labelled_reloadedIfLoaded rows _) trivial
  | searchChanged => exact iff_of_true (labelled_reloadedIfLoaded rows _) trivial
  | viewWillAppear =>
    obtain ⟨_, _, _, same⟩ := screen.home.viewWillAppear_frame
    refine iff_of_true ?_ trivial
    rw [same]
    exact labelled
  | @cellForItemAt row isConnected ref inside shown =>
    refine iff_of_true ?_ trivial
    intro other cell visible
    by_cases same : other = row
    · -- The cell has just been filled.
      have filled : (screen.configured row ref).cells row = some cell := same ▸ visible
      simp only [configured, if_true, Option.some.injEq] at filled
      subst filled
      exact ⟨ref, same ▸ shown, rfl⟩
    · have before : screen.cells other = some cell := by
        simpa [configured, same] using visible
      exact labelled other cell before
  | @didEndDisplaying row =>
    refine iff_of_true ?_ trivial
    intro other cell visible
    by_cases same : other = row
    · simp [HomeScreen.didEndDisplaying, same] at visible
    · exact labelled other cell (by simpa [HomeScreen.didEndDisplaying, same] using visible)
  | @downloadFinished position image download ref pending captured =>
    obtain rfl := rows.captured_eq pending captured
    rw [labelled_iff next]
    have right := (labelled_iff rows).mp labelled
    simp only [FindsRow, pending, Option.mem_def, Option.some.injEq, forall_eq']
    constructor
    · intro all row _ shown visible
      exact (cell_downloaded_iff visible (right row shown visible)).mp (all row)
    · intro finds row cell after
      -- The row was visible before.
      cases before : screen.cells row with
      | none => simp [downloaded, before] at after
      | some shown =>
        have fits := finds row (rows.lt_rowCount before) shown before
        exact (cell_downloaded_iff before (right row shown before)).mpr fits cell after
  | _ => exact iff_of_true labelled trivial

/-- In every run of a home screen all visible cells show their own cards in all states exactly if all
pictures of the run arrive where they belong. -/
theorem cells_labelled_iff (run : Run (HomeScreen.next platform) (viewDidLoad id) history final) :
    (∀ screen ∈ Run.states history final, screen.Labelled) ↔ Run.Within FindsRow history := by
  have preserved : ∀ {screen after : HomeScreen} {event : HomeEvent}, screen.Rows →
      screen.next platform event = some after → after.Rows :=
    fun rows taken => rows.step (steps_of_next taken)
  have exactly : ∀ {screen after : HomeScreen} {event : HomeEvent}, screen.Rows →
      screen.Labelled → screen.next platform event = some after →
        (after.Labelled ↔ FindsRow screen event) :=
    fun rows labelled taken => labelled_iff_findsRow rows labelled (steps_of_next taken)
  -- A new home screen shows no cells.
  have rows : (viewDidLoad id).Rows := @rows_of_run platform _ _ id .nil
  exact Run.states_iff_within preserved exactly run rows (labelled_of_empty fun _ => rfl)

/-- Pictures that arrive in the rows of their cards keep the cells right. -/
theorem cells_labelled_inPlace :
    ∃ final, Run (HomeScreen.next Platform.ascii) (viewDidLoad 0)
        (Scenario.homeHistory (Scenario.twoRows ++
          [.downloadFinished 0 (some (.photo 1)), .downloadFinished 0 (some (.photo 2))])) final ∧
      ∀ screen ∈ Run.states (Scenario.homeHistory (Scenario.twoRows ++
          [.downloadFinished 0 (some (.photo 1)), .downloadFinished 0 (some (.photo 2))])) final,
        screen.Labelled := by
  -- Both pictures arrive in the rows in which their cards are listed.
  obtain ⟨final, run, _⟩ := Scenario.home_run_of_reached (Scenario.twoRows ++
      [.downloadFinished 0 (some (.photo 1)), .downloadFinished 0 (some (.photo 2))])
    (fun _ => true) (by decide +kernel)
  have finds : Run.Within FindsRow (Scenario.homeHistory (Scenario.twoRows ++
      [.downloadFinished 0 (some (.photo 1)), .downloadFinished 0 (some (.photo 2))])) := by
    decide +kernel
  exact ⟨final, run, (cells_labelled_iff run).mpr finds⟩

/-- A download started before a search labels the first found card as the first listed one. -/
theorem found_card_mislabelled :
    ¬ ∀ (id : Nat) (history : List (HomeScreen × HomeEvent)) (final : HomeScreen),
        Run (HomeScreen.next Platform.ascii) (viewDidLoad id) history final →
        ∀ screen ∈ Run.states history final, screen.Labelled := by
  -- The search has put another card into the first row by the time the picture arrives.
  intro always
  obtain ⟨final, run, facts⟩ := Scenario.home_run_of_reached
    (Scenario.secondFound ++ [.downloadFinished 0 (some (.photo 1))])
    (fun final => decide (final.home.displayedCards = [1]) &&
      (final.cells 0).any fun shown => decide (shown.cell ≠ label (final.home.heap 1)))
    (by decide +kernel)
  rw [Bool.and_eq_true, Option.any_eq_true] at facts
  obtain ⟨displayed, shown, visible, wrong⟩ := facts
  -- The only found card is the second one.
  obtain ⟨ref, inRow, right⟩ :=
    always 0 _ final run final (by simp [Run.states]) 0 shown visible
  rw [of_decide_eq_true displayed] at inRow
  cases inRow
  exact of_decide_eq_true wrong right

end HomeScreen

end CardGuru
