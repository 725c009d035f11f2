import CardGuru.HomeScreen.Scenario

/-! No event of a home screen reaches outside of its lists, and a tapped cell opens the card that its
row was configured with. -/

namespace CardGuru

namespace HomeScreen

variable {platform : Platform} {screen final : HomeScreen} {event : HomeEvent}
  {history : List (HomeScreen × HomeEvent)} {id : Nat}

/-- The detail screen of a card, as a row hands it over. -/
def detailedCard (card : Card) : DetailedViewController :=
  DetailedViewController.setDetailedCard card.uid card.name card.barcode (card.image.getD .shop)
    (card.absoluteURL.getD "") card.notesText true

/-- A visible row hands over the fields of the card object it was configured with. -/
private theorem detailedCard_of_visible (rows : screen.Rows) {row : Nat} {shown : VisibleCell}
    (visible : screen.cells row = some shown) :
    screen.home.detailedCard row = .ok (detailedCard (screen.home.heap shown.card)) := by
  -- The row was configured with the card that the list displays there.
  have displayed := rows.shown row shown visible
  cases listed : screen.home.cards with
  | none =>
    rw [HomeViewController.displayedCards_of_unloaded listed] at displayed
    cases displayed
  | some refs =>
    simp only [HomeViewController.detailedCard, listed, displayed]
    rfl

/-- Offered rows are rows of the displayed list. -/
private theorem cellForItemAt_inRange (rows : screen.Rows) (row count index : Nat)
    (isConnected : Bool) : screen.cellForItemAt row isConnected ≠ .error (.indexOutOfRange index count) := by
  unfold cellForItemAt offered
  split
  · rename_i inside
    -- The offered rows are counted by the displayed list.
    have below : row < screen.home.displayedCards.length := rows.counted ▸ inside
    split
    · simp
    · simp [List.getElem?_eq_getElem below]
  · simp

/-- Downloads write into the lists that they captured. -/
private theorem downloadFinished_inRange (rows : screen.Rows) (position count index : Nat)
    (image : Option UIImage) :
    screen.downloadFinished position image ≠ .error (.indexOutOfRange index count) := by
  -- The position was taken from the cards that the download has captured.
  unfold downloadFinished
  split
  · simp
  · rename_i download pending
    have captured := rows.captured download (List.mem_of_getElem? pending)
    cases image with
    | none => simp
    | some image => simp [captured]

/-- Tapped rows are rows of the displayed list. -/
private theorem prepare_inRange (rows : screen.Rows) (row count index : Nat) :
    screen.prepare row ≠ .error (.indexOutOfRange index count) := by
  unfold prepare offered
  split
  · rename_i inside
    -- The offered rows are counted by the displayed list, and an unloaded list offers none.
    have below : row < screen.home.displayedCards.length := rows.counted ▸ inside
    cases listed : screen.home.cards with
    | none =>
      rw [HomeViewController.displayedCards_of_unloaded listed] at below
      exact absurd below (Nat.not_lt_zero _)
    | some refs =>
      simp [HomeViewController.detailedCard, listed, List.getElem?_eq_getElem below, Except.map]
  · simp

/-- Whatever happens to a home screen, no index is out of range, and a visible row that is tapped
hands over the fields of the card object that it was configured with. -/
theorem rows_accessed_in_range
    (run : Run (HomeScreen.next platform) (viewDidLoad id) history final) :
    (∀ event index count, final.step platform event ≠ .error (.indexOutOfRange index count)) ∧
      ∀ row shown, final.cells row = some shown →
        final.home.detailedCard row = .ok (detailedCard (final.home.heap shown.card)) := by
  have rows := rows_of_run run
  refine ⟨?_, fun row shown visible => detailedCard_of_visible rows visible⟩
  intro event index count
  -- Only three events look a row up.
  cases event with
  | cellForItemAt row isConnected => exact cellForItemAt_inRange rows row count index isConnected
  | prepare row => exact prepare_inRange rows row count index
  | downloadFinished position image =>
    exact downloadFinished_inRange rows position count index image
  | loadDelivered cards =>
    simp only [step, HomeScreen.loadDelivered, offered]
    split <;> simp
  | userDidRemoveData =>
    simp only [step, HomeScreen.userDidRemoveData, offered]
    split <;> simp
  | reloadDelivered cards =>
    simp only [step, HomeScreen.reloadDelivered, offered]
    split <;> simp
  | _ => simp [step]

/-- After a search and a picture download the first row opens the card that it was configured with. -/
theorem rows_accessed_in_range_search :
    ∃ final, Run (HomeScreen.next Platform.ascii) (viewDidLoad 0)
        (Scenario.homeHistory
          (Scenario.secondFound ++ [.downloadFinished 1 (some (.photo 1))])) final ∧
      final.home.detailedCard 0 = .ok (detailedCard (final.home.heap 1)) := by
  -- The found card is in the first row, and the picture of the other card changes nothing.
  obtain ⟨final, run, shown⟩ := Scenario.home_run_of_reached
    (Scenario.secondFound ++ [.downloadFinished 1 (some (.photo 1))])
    (fun final => (final.cells 0).any fun shown => shown.card = 1) (by decide +kernel)
  obtain ⟨cell, visible, card⟩ := (Option.any_eq_true _ _).mp shown
  obtain ⟨_, opens⟩ := rows_accessed_in_range run
  refine ⟨final, run, ?_⟩
  rw [opens 0 cell visible, of_decide_eq_true card]

end HomeScreen

end CardGuru
