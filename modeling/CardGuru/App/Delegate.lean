import CardGuru.App.Inversion
import CardGuru.Session.Step

/-! The application delegate: shortcuts and the address of the widget open screens in a new window,
above a home screen whose view loads only when it is shown. -/

namespace CardGuru

/-- The ways into the program besides its own screens. -/
inductive Entrance where
  /-- The shortcut for searching. -/
  | openSearch
  /-- The shortcut for adding a card. -/
  | addCard
  /-- The shortcut for the card opened last, or the address that the widget opens. -/
  | openLast
deriving DecidableEq

/-- What the delegate makes of the window, where every storyboard lookup succeeds. -/
def Entrance.setup : Entrance → Session → Option Session
  | .openSearch, session => some session.setupSearchViewController
  | .addCard, session => session.setupAddCardViewController .complete
  -- The URL of the widget and the shortcut for the last card lead to the same screen.
  | .openLast, session => session.setupOpenLastViewController .complete

/-- With a complete storyboard nothing raises. -/
theorem Entrance.isSome_setup (entrance : Entrance) (session : Session) :
    (entrance.setup session).isSome = true := by
  -- The identifiers are in the storyboard, whoever is logged in.
  have addCard : Storyboard.complete.instantiates "AddCardViewController" = true := by decide
  have details : Storyboard.complete.instantiates "DetailsVC" = true := by decide
  have tabBar : Storyboard.complete.instantiates "TabBar" = true := by decide
  cases entrance with
  | openSearch => rfl
  | addCard =>
    simp only [setup, Session.setupAddCardViewController, Session.presentAddViewController, addCard,
      tabBar, Bool.and_self, if_true]
    split <;> rfl
  | openLast =>
    simp only [setup, Session.setupOpenLastViewController, Session.presentDetailsViewController,
      details, tabBar, if_true]
    split
    · split <;> rfl
    · rfl

/-- What happens to the program. -/
inductive AppEvent where
  /-- A step on the screens, an answer of a service, or an event of the system. -/
  | action (action : Action)
  /-- The program is entered in another way. -/
  | enter (entrance : Entrance)
deriving DecidableEq

/-- The program and its home screen as far as the window is concerned. -/
structure AppDelegate where
  app : App
  /-- Whether the view of the home screen has been loaded. -/
  homeLoaded : Bool

/-- The settings, the stored card and a new window, as the screens that are presented see them. -/
def App.session (app : App) : Session :=
  -- Only the settings and the stored card matter for the screen that is presented.
  .new app.defaults app.artefacts.shortcutItem 0 []

namespace AppDelegate

/-- The screen at the root of the new window, with the settings that are stored by then. -/
def window (delegate : AppDelegate) (entrance : Entrance) : Session :=
  (entrance.setup delegate.app.session).get (entrance.isSome_setup _)

/-- The detail screen that an entrance opens. -/
def presented (delegate : AppDelegate) (entrance : Entrance) : Option DetailedViewController :=
  -- Any other root shows no card.
  match (delegate.window entrance).root with
  | some (.tabBar (.cardDetails detailed)) => some detailed.viewDidLoad
  | _ => none

/-- The program is entered by a shortcut or an address. -/
def enter (platform : Platform) (delegate : AppDelegate) (entrance : Entrance) : AppDelegate :=
  -- The home screen of the new tab bar lies below the pushed screen and is not shown yet.
  let fresh :=
    { delegate.app with
      home := .new delegate.app.nextHome
      nextHome := delegate.app.nextHome + 1 }
  match (delegate.window entrance).root with
  | some (.tabBar .addCard) => { app := { fresh with screen := .scanner false }, homeLoaded := false }
  | some (.tabBar (.cardDetails detailed)) =>
    { app :=
        { fresh with
          screen := .detailed detailed.viewDidLoad
          artefacts := detailed.viewDidLoad.recordLastCard platform delegate.app.artefacts }
      homeLoaded := false }
  -- The login, Touch ID or start screen, or a window that stays empty.
  | _ =>
    { delegate with
      app :=
        { delegate.app with
          defaults := (delegate.window entrance).defaults
          screen := .entry } }

/-- A home screen that is shown for the first time loads its view. -/
def appear (delegate : AppDelegate) : Except Fault AppDelegate :=
  -- The list of cards below a presented screen is loaded when that screen is left.
  if delegate.app.screen = .home ∧ delegate.homeLoaded = false then do
    let app ← delegate.app.startLoad true
    return { app := app, homeLoaded := true }
  else .ok delegate

/-- Whether an action creates a home screen and loads its view at once. -/
def loadsHome : Action → Bool
  | .homeViewDidLoad | .signedIn _ => true
  | _ => false

/-- What one event does. -/
def step (platform : Platform) (delegate : AppDelegate) : AppEvent → Except Fault AppDelegate
  -- An action may leave the presented screen, so that the list below appears.
  | .action action => do
    let app ← delegate.app.step platform action
    appear { app := app, homeLoaded := loadsHome action || delegate.homeLoaded }
  | .enter entrance => .ok (delegate.enter platform entrance)

/-- The state after an event, unless it is not possible or ends the program. -/
def next (platform : Platform) (delegate : AppDelegate) (event : AppEvent) : Option AppDelegate :=
  (delegate.step platform event).toOption

/-- A process that has just started on a device. -/
def launched (server : Server) (defaults : UserDefaults) : AppDelegate where
  app := App.launched server defaults
  homeLoaded := false

/-- The detail screen that an event opens. -/
def opened (delegate : AppDelegate) : AppEvent → Option DetailedViewController
  -- Cards are opened from the list or presented from the stored one.
  | .action (.cellSegue row) =>
    (delegate.app.home.detailedCard row).toOption.map DetailedViewController.viewDidLoad
  | .enter entrance => delegate.presented entrance
  | _ => none

variable {platform : Platform} {delegate after : AppDelegate}

/-- A detail screen in a new window shows the stored card, without a uid and without delegates. -/
theorem of_cardDetails {entrance : Entrance} {detailed : DetailedViewController}
    (root : (delegate.window entrance).root = some (.tabBar (.cardDetails detailed))) :
    ∃ card data, entrance = .openLast ∧ delegate.app.artefacts.shortcutItem = some card ∧
      card.imageData = some data ∧
      detailed = DetailedViewController.setDetailedCard "" card.name card.barcode
        ((UIImage.ofData data).getD .empty) "" none false := by
  have presented := (Option.some_get (entrance.isSome_setup delegate.app.session)).symm
  change _ = some (delegate.window entrance) at presented
  generalize delegate.window entrance = window at presented root
  cases entrance with
  | openSearch =>
    -- One of three screens without a card is presented.
    obtain rfl := Option.some.inj presented
    simp only [Session.setupSearchViewController, Session.presentCurrentUserUI] at root
    split at root
    · split at root <;> cases root
    · cases root
  | addCard =>
    -- Neither the tab bar with the screen for a new card nor the login screen shows a card.
    rcases Session.presentAddViewController_ok presented with ⟨_, rfl⟩ | ⟨_, rfl⟩
    · cases root
    · cases root
  | openLast =>
    rcases Session.presentDetailsViewController_ok presented with
      ⟨_, _, rfl⟩ | ⟨data, _, encoded, rfl⟩ | ⟨_, rfl⟩
    · cases root
    · cases stored : delegate.app.artefacts.shortcutItem with
      | none => simp [App.session, stored] at encoded
      | some card =>
        refine ⟨card, data, rfl, rfl, ?_, ?_⟩
        · simpa [App.session, stored] using encoded
        · cases root
          simp [App.session, stored]
    · cases root

/-- A step on the screens, after which a new home screen may load its view. -/
theorem action_ok {action : Action} (taken : delegate.next platform (.action action) = some after) :
    ∃ app, App.Steps platform delegate.app action app ∧
      ((after = { app := app, homeLoaded := loadsHome action || delegate.homeLoaded } ∧
          (app.screen = .home → after.homeLoaded = true)) ∨
        (app.screen = .home ∧ (loadsHome action || delegate.homeLoaded) = false ∧
          after = { app := app.withLoad true, homeLoaded := true })) := by
  unfold next at taken
  cases done : delegate.step platform (.action action) with
  | error fault => simp [done, Except.toOption] at taken
  | ok result =>
    obtain rfl : result = after := by simpa [done, Except.toOption] using taken
    obtain ⟨app, stepped, appeared⟩ := bind_ok done
    refine ⟨app, App.steps_of_step stepped, ?_⟩
    unfold appear at appeared
    split at appeared
    · rename_i hidden
      obtain ⟨loading, started, continued⟩ := bind_ok appeared
      obtain rfl := App.startLoad_ok started
      cases continued
      exact .inr ⟨hidden.1, hidden.2, rfl⟩
    · rename_i shown
      cases appeared
      -- Either the home screen is not shown, or its view was loaded before.
      refine .inl ⟨rfl, fun home => ?_⟩
      by_contra unloaded
      exact shown ⟨home, Bool.eq_false_of_not_eq_true unloaded⟩

/-- Entering the program always succeeds. -/
theorem enter_ok {entrance : Entrance} (taken : delegate.next platform (.enter entrance) = some after) :
    after = delegate.enter platform entrance := by
  simpa [next, step, Except.toOption, eq_comm] using taken

end AppDelegate

end CardGuru
