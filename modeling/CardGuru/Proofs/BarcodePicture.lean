import CardGuru.Proofs.LastCard

/-! The detail screen shows the barcode of its number exactly as long as only cards with an ASCII
number are opened and no open card gets another number. -/

namespace CardGuru

/-- A text that the barcode can encode. -/
def IsASCII (text : String) : Prop :=
  ∀ c ∈ text.toList, c.toNat < 128

instance {text : String} : Decidable (IsASCII text) :=
  -- The characters of the text are checked, and not all characters that there are.
  List.decidableBAll _ text.toList

/-- Exactly the ASCII texts have a barcode. -/
theorem generateBarcode_eq_some_iff {text : String} :
    generateBarcode text = some ⟨text⟩ ↔ IsASCII text := by
  unfold generateBarcode
  simp [IsASCII, List.all_eq_true]

namespace DetailedViewController

/-- The picture is the barcode of the number beside it. -/
def ShowsBarcode (detailed : DetailedViewController) : Prop :=
  detailed.barcodeImageView = some ⟨detailed.barcodeLabel⟩

instance {detailed : DetailedViewController} : Decidable detailed.ShowsBarcode :=
  inferInstanceAs (Decidable (_ = _))

/-- A screen that has just loaded shows the barcode of its card if there is one. -/
theorem showsBarcode_viewDidLoad {detailed : DetailedViewController}
    (generated : detailed.barcodeGenerated = generateBarcode detailed.barcode) :
    detailed.viewDidLoad.ShowsBarcode ↔ IsASCII detailed.barcode := by
  rw [← generateBarcode_eq_some_iff, ← generated]
  rfl

/-- An edit leaves the picture of the old number. -/
theorem showsBarcode_userDidUpdateData {detailed : DetailedViewController} {updated : Card}
    (before : detailed.ShowsBarcode) (label : detailed.barcodeLabel = detailed.barcode) :
    (detailed.userDidUpdateData updated).ShowsBarcode ↔ updated.barcode = detailed.barcode := by
  have picture : detailed.barcodeImageView = some ⟨detailed.barcode⟩ := label ▸ before
  simp only [ShowsBarcode, userDidUpdateData, picture, Option.some.injEq, BarcodeImage.mk.injEq]
  exact eq_comm

end DetailedViewController

/-- The detail screen that is open, on top or below the edit screen. -/
def Screen.openDetail : Screen → Option DetailedViewController
  | .detailed opened => some opened
  | .edit _ opened => some opened
  | _ => none

namespace AppDelegate

/-- The detail screen, when it is on top, shows the barcode of its number. -/
def Shows (delegate : AppDelegate) : Prop :=
  match delegate.app.screen with
  | .detailed detailed => detailed.ShowsBarcode
  | _ => True

instance {delegate : AppDelegate} : Decidable delegate.Shows := by
  unfold Shows
  split <;> infer_instance

/-- A card is opened with an ASCII number only, and an open card keeps its number. -/
def KeepsBarcode (delegate : AppDelegate) (event : AppEvent) : Prop :=
  (∀ detailed ∈ delegate.opened event, IsASCII detailed.barcode) ∧
    match event, delegate.app.screen with
    | .action (.saveCard name barcode _ _), .edit _ detailed =>
      EditCardTableViewController.isEnteredDataValid name barcode = true → barcode = detailed.barcode
    | _, _ => True

instance {delegate : AppDelegate} {event : AppEvent} : Decidable (delegate.KeepsBarcode event) := by
  unfold KeepsBarcode
  split <;> infer_instance

variable {platform : Platform} {delegate after start final : AppDelegate}
  {history : List (AppDelegate × AppEvent)}

/-- What an event makes of the open detail screen, and whether it keeps barcodes. -/
inductive DetailStep (delegate : AppDelegate) (event : AppEvent) :
    Option DetailedViewController → Prop where
  /-- No detail screen is open any more. -/
  | closed (keeps : delegate.KeepsBarcode event) : DetailStep delegate event none
  /-- A detail screen opens, and its view loads. -/
  | opened {detailed : DetailedViewController}
    (generated : detailed.barcodeGenerated = generateBarcode detailed.barcode)
    (keeps : delegate.KeepsBarcode event ↔ IsASCII detailed.barcode) :
    DetailStep delegate event (some detailed.viewDidLoad)
  /-- The card of the open screen is edited. -/
  | edited {detailed : DetailedViewController} {updated : Card}
    (before : delegate.app.screen.openDetail = some detailed)
    (keeps : delegate.KeepsBarcode event ↔ updated.barcode = detailed.barcode) :
    DetailStep delegate event (some (detailed.userDidUpdateData updated))
  /-- The screen stays open, perhaps with other notes. -/
  | kept {detailed : DetailedViewController} (notes : String)
    (before : delegate.app.screen.openDetail = some detailed)
    (keeps : delegate.KeepsBarcode event) :
    DetailStep delegate event (some { detailed with notesText := notes })

/-- An event that neither opens nor saves a card keeps barcodes. -/
private theorem keepsBarcode_of_silent {action : Action} (silent : delegate.opened (.action action) = none)
    (unsaved : ∀ name barcode image uuid, action ≠ .saveCard name barcode image uuid) :
    delegate.KeepsBarcode (.action action) := by
  -- Nothing is opened, and only a save compares numbers.
  refine ⟨by simp [silent], ?_⟩
  split
  · rename_i same _
    cases same
    exact absurd rfl (unsaved _ _ _ _)
  · trivial

/-- A step without effect on the open screen leaves it as it is. -/
private theorem detailStep_of_same {action : Action} {screen : Screen}
    (silent : delegate.opened (.action action) = none)
    (unsaved : ∀ name barcode image uuid, action ≠ .saveCard name barcode image uuid)
    (same : screen.openDetail = delegate.app.screen.openDetail ∨ screen.openDetail = none) :
    DetailStep delegate (.action action) screen.openDetail := by
  -- The open screen stays as it is, or it is closed.
  have keeps := keepsBarcode_of_silent silent unsaved
  rcases same with same | closed
  · rw [same]
    cases before : delegate.app.screen.openDetail with
    | none => exact .closed keeps
    | some detailed => exact .kept detailed.notesText before keeps
  · rw [closed]
    exact .closed keeps

/-- The fields of an opened row come with the barcode of their number. -/
private theorem generated_of_detailedCard {home : HomeViewController} {row : Nat}
    {opened : DetailedViewController} (filled : home.detailedCard row = .ok opened) :
    opened.barcodeGenerated = generateBarcode opened.barcode := by
  -- Every opened card goes through the same setup.
  unfold HomeViewController.detailedCard at filled
  split at filled
  · cases filled
    rfl
  · split at filled <;> cases filled
    rfl

/-- What a step on the screens makes of the open detail screen. -/
private theorem detailStep_of_steps {action : Action} {app : App}
    (stepped : App.Steps platform delegate.app action app) :
    DetailStep delegate (.action action) app.screen.openDetail := by
  -- Opening a card, saving it and saving notes are the steps that say something about the screen.
  cases stepped with
  | cellSegue shown inside filled =>
    refine .opened (generated_of_detailedCard filled) ?_
    simp [KeepsBarcode, AppDelegate.opened, filled, Except.toOption,
      DetailedViewController.viewDidLoad]
  | @saveCard edit detailed server name barcode uuid image shown filled fresh removed =>
    refine .edited (by rw [shown]; rfl) ?_
    simp [KeepsBarcode, AppDelegate.opened, shown, filled, Card.make]
  | @saveCardAlert edit detailed name barcode uuid image shown missing =>
    have keeps : delegate.KeepsBarcode (.action (.saveCard name barcode image uuid)) := by
      simp [KeepsBarcode, AppDelegate.opened, shown, missing]
    have before : delegate.app.screen.openDetail = some detailed := by rw [shown]; rfl
    rw [before]
    exact .kept detailed.notesText before keeps
  | @saveNotesClicked detailed server text shown written =>
    exact .kept text (by rw [shown]; rfl) (keepsBarcode_of_silent rfl (by simp))
  | editSegue shown => exact detailStep_of_same rfl (by simp) (.inl (by rw [shown]; rfl))
  | backToDetail shown => exact detailStep_of_same rfl (by simp) (.inl (by rw [shown]; rfl))
  | snapshotRead asked => exact detailStep_of_same rfl (by simp) (.inl rfl)
  | loadDelivered found answered => exact detailStep_of_same rfl (by simp) (.inl rfl)
  | searchChanged shown => exact detailStep_of_same rfl (by simp) (.inl rfl)
  | addNewCardAlert shown missing => exact detailStep_of_same rfl (by simp) (.inl rfl)
  | uploadFailed found => exact detailStep_of_same rfl (by simp) (.inl rfl)
  | downloadURLFailed found named => exact detailStep_of_same rfl (by simp) (.inl rfl)
  | uploadStored found named written => exact detailStep_of_same rfl (by simp) (.inl rfl)
  | homeViewDidLoad => exact detailStep_of_same rfl (by simp) (.inr (by simp [Screen.openDetail]))
  | signedIn shown => exact detailStep_of_same rfl (by simp) (.inr (by simp [Screen.openDetail]))
  | _ => exact detailStep_of_same rfl (by simp) (.inr rfl)

/-- What an event makes of the open detail screen. -/
theorem detailStep_of_next {event : AppEvent} (taken : delegate.next platform event = some after) :
    DetailStep delegate event after.app.screen.openDetail := by
  cases event with
  | action action =>
    obtain ⟨app, stepped, ⟨rfl, _⟩ | ⟨_, _, rfl⟩⟩ := action_ok taken
    · exact detailStep_of_steps stepped
    · rw [App.screen_withLoad]
      exact detailStep_of_steps stepped
  | enter entrance =>
    obtain rfl := enter_ok taken
    -- Only the stored card opens a detail screen.
    cases root : (delegate.window entrance).root with
    | none =>
      have keeps : delegate.KeepsBarcode (.enter entrance) := by
        simp [KeepsBarcode, AppDelegate.opened, presented, root]
      simpa [enter, root, Screen.openDetail] using DetailStep.closed keeps
    | some screen =>
      cases screen with
      | tabBar pushed =>
        cases pushed with
        | addCard =>
          have keeps : delegate.KeepsBarcode (.enter entrance) := by
            simp [KeepsBarcode, AppDelegate.opened, presented, root]
          simpa [enter, root, Screen.openDetail] using DetailStep.closed keeps
        | cardDetails detailed =>
          obtain ⟨card, data, _, _, _, same⟩ := of_cardDetails root
          have generated : detailed.barcodeGenerated = generateBarcode detailed.barcode := by
            rw [same]
            rfl
          have keeps : delegate.KeepsBarcode (.enter entrance) ↔ IsASCII detailed.barcode := by
            simp [KeepsBarcode, AppDelegate.opened, presented, root,
              DetailedViewController.viewDidLoad]
          simpa [enter, root, Screen.openDetail] using DetailStep.opened generated keeps
      | _ =>
        have keeps : delegate.KeepsBarcode (.enter entrance) := by
          simp [KeepsBarcode, AppDelegate.opened, presented, root]
        simpa [enter, root, Screen.openDetail] using DetailStep.closed keeps

/-- The open detail screen shows the number of its card. -/
def Labelled (delegate : AppDelegate) : Prop :=
  ∀ detailed, delegate.app.screen.openDetail = some detailed →
    detailed.barcodeLabel = detailed.barcode

/-- The open detail screen, on top or below the edit screen, shows the barcode of its number. -/
def Faithful (delegate : AppDelegate) : Prop :=
  ∀ detailed, delegate.app.screen.openDetail = some detailed → detailed.ShowsBarcode

/-- Every event keeps the number on the screen that of the card. -/
private theorem Labelled.next {event : AppEvent} (labelled : delegate.Labelled)
    (taken : delegate.next platform event = some after) : after.Labelled := by
  -- A screen that opens or is edited sets its label together with the number.
  intro detailed shown
  have made := detailStep_of_next taken
  rw [shown] at made
  cases made with
  | opened generated keeps => rfl
  | edited before keeps => rfl
  | kept notes before keeps =>
    have same := labelled _ before
    exact same

/-- An event keeps the barcode on the screen that of the number exactly under the condition. -/
private theorem faithful_next_iff {event : AppEvent} (labelled : delegate.Labelled)
    (faithful : delegate.Faithful) (taken : delegate.next platform event = some after) :
    after.Faithful ↔ delegate.KeepsBarcode event := by
  -- By the one description of the open screen after the event.
  have made := detailStep_of_next taken
  unfold Faithful
  generalize after.app.screen.openDetail = open_ at made
  cases made with
  | closed keeps => simp [keeps]
  | opened generated keeps =>
    simp only [Option.some.injEq, forall_eq']
    rw [keeps]
    exact DetailedViewController.showsBarcode_viewDidLoad generated
  | edited before keeps =>
    simp only [Option.some.injEq, forall_eq']
    rw [keeps]
    exact DetailedViewController.showsBarcode_userDidUpdateData (faithful _ before)
      (labelled _ before)
  | kept notes before keeps =>
    have same := faithful _ before
    simp only [Option.some.injEq, forall_eq', keeps, iff_true]
    exact same

/-- The detail screen below the edit screen was open before. -/
private theorem openDetail_of_edit {event : AppEvent} {edit : EditCardTableViewController}
    {detailed : DetailedViewController} (taken : delegate.next platform event = some after)
    (shown : after.app.screen = .edit edit detailed) :
    delegate.app.screen.openDetail = some detailed := by
  -- An edit screen is opened above the open detail screen, or it was there before.
  have steps : ∀ {action : Action} {app : App}, App.Steps platform delegate.app action app →
      app.screen = .edit edit detailed → delegate.app.screen.openDetail = some detailed := by
    intro action app stepped here
    have same : delegate.app.screen = .edit edit detailed →
        delegate.app.screen.openDetail = some detailed := fun before => by
      rw [before]
      rfl
    cases stepped with
    | editSegue before =>
      cases here
      rw [before]
      rfl
    | snapshotRead asked => exact same here
    | loadDelivered found answered => exact same here
    | searchChanged before => exact same here
    | addNewCardAlert before missing => exact same here
    | saveCardAlert before missing => exact same here
    | uploadFailed found => exact same here
    | downloadURLFailed found named => exact same here
    | uploadStored found named written => exact same here
    | homeViewDidLoad => simp at here
    | signedIn before => simp at here
    | _ => cases here
  cases event with
  | action action =>
    obtain ⟨app, stepped, ⟨rfl, _⟩ | ⟨_, _, rfl⟩⟩ := action_ok taken
    · exact steps stepped shown
    · rw [App.screen_withLoad] at shown
      exact steps stepped shown
  | enter entrance =>
    obtain rfl := enter_ok taken
    unfold enter at shown
    split at shown <;> cases shown

/-- The detail screen is faithful whenever it is shown exactly if it always is. -/
private theorem shows_iff_faithful (first : start.Faithful)
    (run : Run (AppDelegate.next platform) start history final) :
    (∀ state ∈ Run.states history final, state.Shows) ↔
      ∀ state ∈ Run.states history final, state.Faithful := by
  constructor
  · intro shows
    -- Below the edit screen it is what was shown before.
    induction run with
    | nil => simpa [Run.states] using first
    | @snoc earlier past next event before taken ih =>
      have all := ih fun state member =>
        shows state (List.mem_append_left _ (by simpa [Run.states] using member))
      intro state member
      rcases List.mem_append.mp member with passed | latest
      · exact all state (by simpa [Run.states] using passed)
      · cases List.mem_singleton.mp latest
        intro detailed open_
        have now := shows next (by simp [Run.states])
        have earlierState := all past (by simp [Run.states])
        unfold Shows at now
        cases screen : next.app.screen with
        | detailed top =>
          rw [screen] at open_ now
          cases open_
          exact now
        | edit edit below =>
          rw [screen] at open_
          cases open_
          exact earlierState _ (openDetail_of_edit taken screen)
        | _ =>
          rw [screen] at open_
          cases open_
  · intro faithful state member
    unfold Shows
    split
    · rename_i detailed screen
      exact faithful state member detailed (by rw [screen]; rfl)
    · trivial

/-- In all states of a run the detail screen, whenever it is shown, has the barcode of its number,
exactly if only cards with an ASCII number are opened and no open card gets another number. -/
theorem shows_barcode_iff {server : Server} {defaults : UserDefaults}
    (run : Run (AppDelegate.next platform) (launched server defaults) history final) :
    (∀ state ∈ Run.states history final, state.Shows) ↔
      Run.Within (fun delegate event => delegate.KeepsBarcode event) history := by
  -- A started process shows no detail screen, so that both invariants hold at first.
  have closed : (launched server defaults).app.screen.openDetail = none := rfl
  have labelled : (launched server defaults).Labelled := by simp [Labelled, closed]
  have faithful : (launched server defaults).Faithful := by simp [Faithful, closed]
  rw [shows_iff_faithful faithful run]
  have kept : ∀ {state after : AppDelegate} {event : AppEvent}, state.Labelled →
      state.next platform event = some after → after.Labelled :=
    fun before taken => before.next taken
  have exactly : ∀ {state after : AppDelegate} {event : AppEvent}, state.Labelled →
      state.Faithful → state.next platform event = some after →
        (after.Faithful ↔ state.KeepsBarcode event) :=
    fun before shows taken => faithful_next_iff before shows taken
  exact run.states_iff_within kept exactly labelled faithful

/-- The opened card gets another name and keeps its number. -/
def openedCardRenamed : List AppEvent :=
  cardOpened ++ [.action .editSegue, .action (.saveCard "Aldi" "123" (.photo 1) "U1")]

/-- A renamed card still shows the barcode of its number. -/
theorem shows_barcode_renamed :
    ∃ final, Run (AppDelegate.next Platform.ascii) installed
        (Run.trace (AppDelegate.next Platform.ascii) installed openedCardRenamed) final ∧
      final.Shows := by
  -- The number of the card stays, so that all events of the run meet the condition.
  obtain ⟨final, run, _⟩ := @Run.of_exec_any _ _ (AppDelegate.next Platform.ascii) installed
    openedCardRenamed (fun _ => true) (by decide +kernel)
  have keeps : Run.Within (fun delegate event => delegate.KeepsBarcode event)
      (Run.trace (AppDelegate.next Platform.ascii) installed openedCardRenamed) := by
    decide +kernel
  exact ⟨final, run, (shows_barcode_iff run).mpr keeps final (by simp [Run.states])⟩

/-- A card with another number keeps the barcode of the old one. -/
theorem edited_barcode_mismatch :
    ¬ ∀ (server : Server) (defaults : UserDefaults) (history : List (AppDelegate × AppEvent))
        (final : AppDelegate),
        Run (AppDelegate.next Platform.ascii) (launched server defaults) history final →
        ∀ state ∈ Run.states history final, state.Shows := by
  -- The run ends with the label 456 above the barcode of 123.
  intro always
  obtain ⟨final, run, differs⟩ := @Run.of_exec_any _ _ (AppDelegate.next Platform.ascii) installed
    openedCardEdited (fun final => ¬ final.Shows) (by decide +kernel)
  exact of_decide_eq_true differs (always _ _ _ final run final (by simp [Run.states]))

end AppDelegate

end CardGuru
