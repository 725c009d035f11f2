import CardGuru.App.Delegate
import CardGuru.App.Scenario

/-! The shortcut and the widget describe the card opened last, as it was when it was opened. -/

namespace CardGuru

/-- All copies on the device describe one card. -/
structure Artefacts.Describe (platform : Platform) (artefacts : Artefacts) (name barcode : String)
    (image : UIImage) : Prop where
  shortcutTitle : artefacts.shortcutTitle = some (platform.capitalized name)
  shortcutItem : artefacts.shortcutItem = some
    { name := platform.capitalized name, barcode := barcode, imageData := image.pngData }
  widgetName : artefacts.widgetName = some name
  widgetImageData : artefacts.widgetImageData = image.pngData

instance {platform : Platform} {artefacts : Artefacts} {name barcode : String} {image : UIImage} :
    Decidable (artefacts.Describe platform name barcode image) :=
  decidable_of_iff
    (artefacts.shortcutTitle = some (platform.capitalized name) ∧
      artefacts.shortcutItem = some
        { name := platform.capitalized name, barcode := barcode, imageData := image.pngData } ∧
      artefacts.widgetName = some name ∧ artefacts.widgetImageData = image.pngData)
    ⟨fun ⟨title, item, shared, picture⟩ => ⟨title, item, shared, picture⟩,
      fun describe => ⟨describe.1, describe.2, describe.3, describe.4⟩⟩

/-- A loaded detail screen leaves copies of its card, if its picture can be encoded. -/
theorem DetailedViewController.describe_recordLastCard (platform : Platform)
    (detailed : DetailedViewController) (artefacts : Artefacts)
    (encoded : detailed.image.pngData ≠ none) :
    (detailed.recordLastCard platform artefacts).Describe platform detailed.name detailed.barcode
      detailed.image := by
  obtain ⟨data, encoding⟩ := Option.ne_none_iff_exists'.mp encoded
  refine ⟨rfl, rfl, rfl, ?_⟩
  -- Only without an encoding the old picture stays.
  simp [recordLastCard, encoding]

namespace AppDelegate

variable {platform : Platform} {delegate after start final : AppDelegate}
  {history : List (AppDelegate × AppEvent)} {detailed : DetailedViewController}

/-- The detail screens that the events of a history opened, in order. -/
def openings (history : List (AppDelegate × AppEvent)) : List DetailedViewController :=
  history.filterMap fun entry => entry.1.opened entry.2

@[simp] theorem openings_snoc {event : AppEvent} :
    openings (history ++ [(delegate, event)]) = openings history ++ (delegate.opened event).toList := by
  -- The last event opens at most one detail screen.
  cases shown : delegate.opened event <;> simp [openings, shown]

/-- The copies after a step: a detail screen that opens replaces them, and nothing else does. -/
private theorem artefacts_steps {action : Action} {app : App}
    (stepped : App.Steps platform delegate.app action app) :
    app.artefacts = (delegate.opened (.action action)).elim delegate.app.artefacts
      fun detailed => detailed.recordLastCard platform delegate.app.artefacts := by
  -- Of all steps on the screens only opening a card from the list records anything.
  cases stepped with
  | cellSegue shown inside filled => simp [opened, filled, Except.toOption]
  | homeViewDidLoad => simp [opened]
  | signedIn shown => simp [opened]
  | deleteCard shown removed deleted => simp [opened, App.popToRoot]
  | backToRoot shown => simp [opened, App.popToRoot]
  | _ => rfl

/-- Entering the program records the card of the screen that is presented, if there is one. -/
private theorem artefacts_enter (platform : Platform) (delegate : AppDelegate) (entrance : Entrance) :
    (delegate.enter platform entrance).app.artefacts =
      (delegate.presented entrance).elim delegate.app.artefacts
        fun detailed => detailed.recordLastCard platform delegate.app.artefacts := by
  -- The card is recorded exactly if the new window has a detail screen at its root.
  unfold enter presented
  cases (delegate.window entrance).root with
  | none => rfl
  | some root =>
    cases root with
    | tabBar pushed => cases pushed <;> rfl
    | _ => rfl

/-- An event that opens a detail screen makes the copies anew, and no other event touches them. -/
theorem artefacts_next {event : AppEvent} (taken : delegate.next platform event = some after) :
    after.app.artefacts = (delegate.opened event).elim delegate.app.artefacts
      fun detailed => detailed.recordLastCard platform delegate.app.artefacts := by
  -- A step on the screens may be followed by the loading of the home screen.
  cases event with
  | action action =>
    obtain ⟨app, stepped, ⟨rfl, _⟩ | ⟨_, _, rfl⟩⟩ := action_ok taken
    · exact artefacts_steps stepped
    · -- Loading the view of the home screen records no card.
      rw [App.artefacts_withLoad]
      exact artefacts_steps stepped
  | enter entrance =>
    obtain rfl := enter_ok taken
    exact artefacts_enter platform delegate entrance

/-- In every state of every run the copies describe the card that was opened last, with the name,
the barcode and the picture that it had when it was opened. -/
theorem artefacts_describe_opened (run : Run (AppDelegate.next platform) start history final)
    (latest : (openings history).getLast? = some detailed)
    (encoded : detailed.image.pngData ≠ none) :
    final.app.artefacts.Describe platform detailed.name detailed.barcode detailed.image := by
  -- The last step opened the card, or the copies are older than it.
  induction run with
  | nil => simp [openings] at latest
  | @snoc earlier delegate after event before taken ih =>
    rw [openings_snoc] at latest
    rw [artefacts_next taken]
    cases shown : delegate.opened event with
    | none => exact ih (by simpa [shown] using latest)
    | some other =>
      obtain rfl : other = detailed := by simpa [shown] using latest
      exact other.describe_recordLastCard platform _ encoded

/-- The installation in which the first user has added a card and opened it. -/
def cardOpened : List AppEvent :=
  (Scenario.addFirstCard ++ [Action.cellSegue 0]).map AppEvent.action

/-- The opened card gets another name and barcode. -/
def openedCardEdited : List AppEvent :=
  cardOpened ++ [.action .editSegue, .action (.saveCard "Aldi" "456" (.photo 1) "U1")]

/-- The process that has just started on a device where nobody was signed in. -/
def installed : AppDelegate :=
  launched Scenario.emptyServer { isLoggedIn := false, isTouchIDEnabled := false, user := none }

/-- An opened card is described by all copies. -/
theorem artefacts_describe_opened_scanned :
    ∃ final, Run (AppDelegate.next Platform.ascii) installed
        (Run.trace (AppDelegate.next Platform.ascii) installed cardOpened) final ∧
      final.app.artefacts.Describe Platform.ascii "Lidl" "123" .shop := by
  -- The scanned card is the last one that was opened.
  obtain ⟨final, run, _⟩ := @Run.of_exec_any _ _ (AppDelegate.next Platform.ascii) installed cardOpened
    (fun _ => true) (by decide +kernel)
  have latest : (openings (Run.trace (AppDelegate.next Platform.ascii) installed cardOpened)).getLast? =
      some (DetailedViewController.setDetailedCard Scenario.firstId.text "Lidl" "123" .shop "" none
        true).viewDidLoad := by
    decide +kernel
  exact ⟨final, run, artefacts_describe_opened run latest (by decide)⟩

/-- After an edit the copies still describe the card as it was. -/
theorem copies_keep_old_name :
    ¬ ∀ (server : Server) (defaults : UserDefaults) (history : List (AppDelegate × AppEvent))
        (final : AppDelegate) (detailed : DetailedViewController),
        Run (AppDelegate.next Platform.ascii) (launched server defaults) history final →
        (∀ detailed ∈ openings history, detailed.image.pngData ≠ none) →
        (openings history).getLast? = some detailed →
        ∃ card ∈ final.app.home.loadedCards.getD [], card.uid = detailed.uid ∧
          final.app.artefacts.Describe Platform.ascii card.name card.barcode
            (card.image.getD .shop) := by
  -- The copies are those of the opening, while the list has the values of the edit.
  intro always
  obtain ⟨final, run, old⟩ := @Run.of_exec_any _ _ (AppDelegate.next Platform.ascii) installed
    openedCardEdited
    (fun final => (final.app.home.loadedCards.getD []).all fun card =>
      ¬ final.app.artefacts.Describe Platform.ascii card.name card.barcode (card.image.getD .shop))
    (by decide +kernel)
  have facts :
      let opened :=
        openings (Run.trace (AppDelegate.next Platform.ascii) installed openedCardEdited)
      (∀ detailed ∈ opened, detailed.image.pngData ≠ none) ∧ opened.getLast? =
        some (DetailedViewController.setDetailedCard Scenario.firstId.text "Lidl" "123" .shop "" none
          true).viewDidLoad := by
    decide +kernel
  obtain ⟨card, listed, _, describe⟩ := always _ _ _ final _ run facts.1 facts.2
  have differs := List.all_eq_true.mp old card listed
  exact of_decide_eq_true differs describe

end AppDelegate

end CardGuru
