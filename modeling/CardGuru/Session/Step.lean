import CardGuru.Lib.Run
import CardGuru.Session.State

/-! The events of a process: what each of them does to the stored settings and to the window. -/

namespace CardGuru

namespace LoginService

/-- A login service that has not been used yet. -/
def new : LoginService where
  presenter := none
  singInCompletion := none

end LoginService

namespace Session

/-- A sign-in that waits for an answer has been started. -/
theorem number_lt (session : Session) {attempt : Attempt} (member : attempt ∈ session.attempts) :
    attempt.number < session.started := by
  -- Its service holds the completion of this sign-in or of a later one.
  obtain ⟨response, holds, notLater⟩ := session.stored attempt member
  exact Nat.lt_of_le_of_lt notLater (session.numbered _ _ holds)

/-- The login controller that is on the screen. -/
def loginScreen (session : Session) : Option Nat :=
  match session.root, session.isPresenting with
  | some (.login controller), false => some controller
  | _, _ => none

/-- Replace the controller at the root of the window. -/
def setRoot (session : Session) (root : RootScreen) : Session :=
  -- Whatever was presented over the old root goes with it.
  { session with
    root := some root
    isPresenting := false
    -- A login screen that disappears dismisses the indicator.
    isShowingProgress := session.isShowingProgress && session.loginScreen.isNone }

/-- Create the initial controller of the login storyboard and make it the root. -/
def presentLogin (session : Session) : Session :=
  { session.setRoot (.login session.nextController) with
    nextController := session.nextController + 1 }

/-- Present what the settings ask for: Touch ID, the start animation or the login screen. -/
def presentCurrentUserUI (session : Session) : Session :=
  if session.defaults.isLoggedIn then
    if session.defaults.isTouchIDEnabled then
      -- The controller asks for an authentication as soon as its view loads.
      { session.setRoot (.touch session.nextController) with
        authentications := session.authentications ++ [session.nextController]
        nextController := session.nextController + 1 }
    else
      { session.setRoot (.start session.nextController) with
        animations := session.animations ++ [session.nextController]
        nextController := session.nextController + 1 }
  else session.presentLogin

/-- Present the screen for adding a card, or the login screen; `none` if a lookup raises. -/
def presentAddViewController (storyboard : Storyboard) (session : Session) : Option Session :=
  if session.defaults.isLoggedIn then
    if storyboard.instantiates "AddCardViewController" && storyboard.instantiates "TabBar" then
      some (session.setRoot (.tabBar .addCard))
    else none
  else some session.presentLogin

/-- Present the details of a card, or the login screen; `none` if a lookup raises. -/
def presentDetailsViewController (storyboard : Storyboard) (session : Session) (card : LastCard) :
    Option Session :=
  if session.defaults.isLoggedIn then
    -- The controller is instantiated before the picture is looked at.
    if storyboard.instantiates "DetailsVC" then
      match card.imageData with
      -- Without a picture nothing is presented.
      | none => some session
      | some data =>
        if storyboard.instantiates "TabBar" then
          some <| session.setRoot <| .tabBar <| .cardDetails <|
            DetailedViewController.setDetailedCard "" card.name card.barcode
              ((UIImage.ofData data).getD .empty) "" none false
        else none
    else none
  else some session.presentLogin

/-- Presenting the screen for adding a card makes the tab bar or the login screen the root. -/
theorem presentAddViewController_ok {storyboard : Storyboard} {session after : Session}
    (presented : session.presentAddViewController storyboard = some after) :
    (session.defaults.isLoggedIn = true ∧ after = session.setRoot (.tabBar .addCard)) ∨
      (session.defaults.isLoggedIn = false ∧ after = session.presentLogin) := by
  unfold presentAddViewController at presented
  split at presented
  · -- A lookup that raises leaves no state.
    rename_i loggedIn
    obtain ⟨_, shown⟩ := Option.ite_none_right_eq_some.mp presented
    exact .inl ⟨loggedIn, (Option.some.inj shown).symm⟩
  · rename_i nobody
    exact .inr ⟨Bool.eq_false_iff.mpr nobody, (Option.some.inj presented).symm⟩

/-- Presenting the details of a card makes the tab bar or the login screen the root, or does nothing for a
card without a picture. -/
theorem presentDetailsViewController_ok {storyboard : Storyboard} {session after : Session} {card : LastCard}
    (presented : session.presentDetailsViewController storyboard card = some after) :
    (session.defaults.isLoggedIn = true ∧ card.imageData = none ∧ after = session) ∨
      (∃ data, session.defaults.isLoggedIn = true ∧ card.imageData = some data ∧
        after = session.setRoot (.tabBar (.cardDetails (DetailedViewController.setDetailedCard "" card.name
          card.barcode ((UIImage.ofData data).getD .empty) "" none false)))) ∨
      (session.defaults.isLoggedIn = false ∧ after = session.presentLogin) := by
  unfold presentDetailsViewController at presented
  split at presented
  · -- Both lookups have to succeed, the second one only with a picture.
    rename_i loggedIn
    obtain ⟨_, found⟩ := Option.ite_none_right_eq_some.mp presented
    split at found
    · rename_i missing
      exact .inl ⟨loggedIn, missing, (Option.some.inj found).symm⟩
    · rename_i data pictured
      obtain ⟨_, shown⟩ := Option.ite_none_right_eq_some.mp found
      exact .inr (.inl ⟨data, loggedIn, pictured, (Option.some.inj shown).symm⟩)
  · rename_i nobody
    exact .inr (.inr ⟨Bool.eq_false_iff.mpr nobody, (Option.some.inj presented).symm⟩)

/-- The application delegate replaces its window by a new one without a root. -/
def newWindow (session : Session) : Session :=
  { session with
    root := none
    isPresenting := false
    isShowingProgress := session.isShowingProgress && session.loginScreen.isNone }

/-- The first screen of a process. -/
def setupInitialViewController (session : Session) : Session :=
  session.newWindow.presentCurrentUserUI

/-- The screen of the shortcut for adding a card. -/
def setupAddCardViewController (storyboard : Storyboard) (session : Session) : Option Session :=
  session.newWindow.presentAddViewController storyboard

/-- The screen of the shortcut for searching; the search opens with the list of cards. -/
def setupSearchViewController (session : Session) : Session :=
  { session.newWindow with
    defaults := session.defaults.saveForceTouchActive true }.presentCurrentUserUI

/-- The screen of the shortcut for the card opened last. -/
def setupOpenLastViewController (storyboard : Storyboard) (session : Session) : Option Session :=
  -- Without a readable file an empty card is presented.
  session.newWindow.presentDetailsViewController storyboard <|
    session.shortcutItem.getD { name := "", barcode := "", imageData := none }

/-- A process that has not presented anything; the calls of completions before it are only remembered. -/
def new (defaults : UserDefaults) (shortcutItem : Option LastCard) (started : Nat)
    (calls : List (Nat × Option User)) : Session where
  defaults := defaults
  shortcutItem := shortcutItem
  root := none
  isPresenting := false
  isShowingProgress := false
  -- The new process waits for no answer to an earlier sign-in.
  login := fun _ => .new
  attempts := []
  started := started
  calls := calls
  authentications := []
  alerts := []
  animations := []
  nextController := 0
  distinct := .nil
  stored := fun _ member => nomatch member
  numbered := fun _ _ holds => nomatch holds

@[simp] theorem defaults_new (defaults : UserDefaults) (shortcutItem : Option LastCard)
    (started : Nat) (calls : List (Nat × Option User)) :
    (new defaults shortcutItem started calls).defaults = defaults := rfl

@[simp] theorem shortcutItem_new (defaults : UserDefaults) (shortcutItem : Option LastCard)
    (started : Nat) (calls : List (Nat × Option User)) :
    (new defaults shortcutItem started calls).shortcutItem = shortcutItem := rfl

/-- A process starts on a device. -/
def didFinishLaunching (defaults : UserDefaults) (shortcutItem : Option LastCard) (started : Nat)
    (calls : List (Nat × Option User)) : Session :=
  setupInitialViewController (new defaults shortcutItem started calls)

/-- The first process on a device with these settings. -/
def launched (defaults : UserDefaults) (shortcutItem : Option LastCard) : Session :=
  didFinishLaunching defaults shortcutItem 0 []

/-- The scheme of the URLs that open the application itself. -/
def scheme : String := "cardguru"

/-- A URL is handled by the first that recognizes it. -/
def openURL (storyboard : Storyboard) (session : Session) (isGoogle isFacebook : Bool)
    (scheme : Option String) : Option Session :=
  -- The providers only take up the answer that the URL carries.
  if isGoogle then some session
  else if isFacebook then some session
  else if scheme = some Session.scheme then session.setupOpenLastViewController storyboard
  else some session

/-- The shortcut for searching. -/
def openSearch : String := "work.CardGuru.openSearch"

/-- The shortcut for adding a card. -/
def addCard : String := "work.CardGuru.addCard"

/-- The shortcut for the card opened last. -/
def openLast : String := "work.CardGuru.openLast"

/-- A shortcut presents the screen of its type. -/
def performActionFor (storyboard : Storyboard) (session : Session) (type : String) :
    Option Session :=
  if type = openSearch then some session.setupSearchViewController
  else if type = addCard then session.setupAddCardViewController storyboard
  else if type = openLast then session.setupOpenLastViewController storyboard
  else some session

/-- Whether the tab bar of the main storyboard is on the screen. -/
def showsTabBar (session : Session) : Bool :=
  session.isPresenting || session.root.any RootScreen.isMain

/-- A controller exists as long as the window or a login service holds it. -/
def isAlive (session : Session) (controller : Nat) : Bool :=
  decide (session.root = some (.login controller)) ||
    decide ((session.login .google).presenter = some controller) ||
    decide ((session.login .facebook).presenter = some controller)

/-- A sign-in starts: its completion replaces the one that the service held, and the logged-in state
is stored with the request already. -/
def signIn (session : Session) (provider : Provider) (controller : Nat) : Session :=
  { session with
    login := fun other =>
      if other = provider then
        { presenter := some controller
          singInCompletion := some { number := session.started, controller := controller } }
      else session.login other
    attempts := session.attempts ++
      [{ number := session.started, provider := provider, isGranted := false }]
    started := session.started + 1
    defaults := session.defaults.saveLoggedState true
    distinct := by
      rw [List.map_append, List.nodup_append]
      refine ⟨session.distinct, by simp, ?_⟩
      intro number earlier other latest
      obtain ⟨attempt, member, rfl⟩ := List.mem_map.mp earlier
      have before := session.number_lt member
      have last : other = session.started := by simpa using latest
      omega
    stored := by
      intro attempt member
      rcases List.mem_append.mp member with earlier | latest
      · have before := session.number_lt earlier
        by_cases same : attempt.provider = provider
        · exact ⟨_, by rw [if_pos same], Nat.le_of_lt before⟩
        · obtain ⟨response, holds, notLater⟩ := session.stored attempt earlier
          exact ⟨response, by rw [if_neg same, holds], notLater⟩
      · cases List.mem_singleton.mp latest
        exact ⟨_, by rw [if_pos rfl], Nat.le_refl _⟩
    numbered := by
      intro other response holds
      split at holds
      · cases holds
        exact Nat.lt_succ_self _
      · exact Nat.lt_succ_of_lt (session.numbered other response holds) }

/-- The data of the user is requested for a sign-in. -/
def grant (session : Session) (number : Nat) : Session :=
  -- The sign-in keeps its number and its provider.
  { session with
    attempts := session.attempts.map fun attempt =>
      if attempt.number = number then { attempt with isGranted := true } else attempt
    distinct := by
      have same : ∀ attempt : Attempt, Attempt.number (if attempt.number = number then
          { attempt with isGranted := true } else attempt) = attempt.number := by
        intro attempt
        split <;> rfl
      simpa [List.map_map, Function.comp_def, same] using session.distinct
    stored := by
      intro attempt member
      obtain ⟨source, earlier, rfl⟩ := List.mem_map.mp member
      have before := session.stored source earlier
      split <;> exact before }

/-- A sign-in is answered for good. -/
def answer (session : Session) (number : Nat) : Session :=
  -- The completion stays stored, whether it is called or not.
  { session with
    attempts := session.attempts.filter fun attempt => attempt.number ≠ number
    distinct := session.distinct.sublist (List.filter_sublist.map _)
    stored := fun attempt member => session.stored attempt (List.mem_of_mem_filter member) }

/-- The button of a provider is pressed on the login screen. -/
def loginPressed (provider : Provider) (session : Session) : Option Session :=
  session.loginScreen.map (session.signIn provider)

/-- The button of Google is pressed. -/
def loginWithGoogle : Session → Option Session := loginPressed .google

/-- The button of Facebook is pressed. -/
def loginWithFacebook : Session → Option Session := loginPressed .facebook

/-- The segues of the entry screens present the tab bar over the root, and the card list appears. -/
def performSegue (session : Session) (source : RootScreen) : Session :=
  -- A controller that has left the window presents nothing.
  if session.root = some source then
    { session with
      isPresenting := true
      isShowingProgress := session.isShowingProgress && session.loginScreen.isNone
      defaults := session.defaults.saveForceTouchActive false }
  else session

/-- The status closure of a sign-in, as the login controller has handed it to the service. -/
def status (session : Session) : Session :=
  { session with isShowingProgress := true }

/-- A service calls the completion that it holds. -/
def complete (session : Session) (provider : Provider) (user : Option User) : Session :=
  match (session.login provider).singInCompletion with
  | none => session
  | some response =>
    let called := { session with calls := session.calls ++ [(response.number, user)] }
    match user with
    | some user =>
      -- The closure refers to its controller weakly.
      if session.isAlive response.controller then
        performSegue { called with defaults := session.defaults.save user }
          (.login response.controller)
      else called
    | none =>
      { called with
        isShowingProgress := false
        defaults := session.defaults.saveLoggedState false }

/-- A provider answers a sign-in; unless it is granted the completion is called without a user. -/
def didSignIn (session : Session) (number : Nat) (provider : Provider) (result : SignInResult) :
    Option Session :=
  if { number := number, provider := provider, isGranted := false } ∈ session.attempts then
    match result with
    -- Both failures call the completion without a user.
    | .error => some ((session.status.answer number).complete provider none)
    | .notGranted => some ((session.status.answer number).complete provider none)
    -- The sign-in goes on with the request for the data.
    | .granted => some (session.status.grant number)
  else none

/-- The request for the data of the user is answered. -/
def didRetrieveData (session : Session) (number : Nat) (answer : DataAnswer) : Option Session :=
  if { number := number, provider := answer.provider, isGranted := true } ∈ session.attempts then
    match answer.reported with
    -- The service returns without calling anything.
    | none => some (session.answer number)
    | some user => some ((session.answer number).complete answer.provider user)
  else none

/-- The Google service lets go of the controller when its screen is dismissed. -/
def dismissed (session : Session) : Session :=
  have kept : ∀ provider, (if provider = .google then
      { session.login .google with presenter := none } else session.login provider).singInCompletion =
        (session.login provider).singInCompletion := by
    intro provider
    split
    · rename_i same
      rw [same]
    · rfl
  { session with
    login := fun provider =>
      if provider = .google then { session.login .google with presenter := none }
      else session.login provider
    -- The completion stays.
    stored := fun attempt member => by rw [kept]; exact session.stored attempt member
    numbered := fun provider response => by rw [kept]; exact session.numbered provider response }

/-- A service signs out at its provider and stores that nobody is logged in. -/
def signOut (_ : Provider) (session : Session) : Session :=
  { session with defaults := session.defaults.saveLoggedState false }

/-- Both services sign out, and the screen for the settings is presented. -/
def logoutPressed (session : Session) : Option Session :=
  if session.showsTabBar then
    -- Nobody is logged in any more, so this is the login screen.
    some ((session.signOut .facebook).signOut .google).presentCurrentUserUI
  else none

/-- A local authentication ends: the card list is presented, or an alert offers another try. -/
def authenticated (session : Session) (controller : Nat) (success : Bool) : Option Session :=
  if controller ∈ session.authentications then
    let answered :=
      { session with authentications := session.authentications.erase controller }
    -- The segue is performed from the screen that asked.
    if success then some (answered.performSegue (.touch controller))
    else some { answered with alerts := answered.alerts ++ [controller] }
  else none

/-- Confirming the alert of a failed authentication asks for another one. -/
def alertConfirmed (session : Session) (controller : Nat) : Option Session :=
  if controller ∈ session.alerts then
    -- The same screen asks again.
    some { session with
      alerts := session.alerts.erase controller
      authentications := session.authentications ++ [controller] }
  else none

/-- The card list follows the start animation. -/
def animationEnded (session : Session) (controller : Nat) : Option Session :=
  if controller ∈ session.animations then
    -- An animation ends once.
    some
      ({ session with animations := session.animations.erase controller }.performSegue
        (.start controller))
  else none

/-- The Touch ID switch is set in the preferences, one of the screens of the tab bar. -/
def touchIdSwitched (session : Session) (isOn : Bool) : Option Session :=
  if session.showsTabBar then
    some { session with defaults := session.defaults.saveTouchIdStatus isOn }
  else none

/-- The detail screen saves its card when it loads. -/
def lastCardSaved (session : Session) (lastCard : LastCard) : Option Session :=
  if session.showsTabBar then some { session with shortcutItem := some lastCard } else none

/-- The state after an event, unless it cannot happen or raises. -/
def next (storyboard : Storyboard) (session : Session) : SessionEvent → Option Session
  -- The settings and the file outlive the process.
  | .didFinishLaunching =>
    some (didFinishLaunching session.defaults session.shortcutItem session.started session.calls)
  | .openURL isGoogle isFacebook scheme => session.openURL storyboard isGoogle isFacebook scheme
  | .performActionFor type => session.performActionFor storyboard type
  | .loginPressed .google => session.loginWithGoogle
  | .loginPressed .facebook => session.loginWithFacebook
  | .didSignIn attempt provider result => session.didSignIn attempt provider result
  | .didRetrieveData attempt answer => session.didRetrieveData attempt answer
  | .dismissed => some session.dismissed
  | .logoutPressed => session.logoutPressed
  | .authenticated controller success => session.authenticated controller success
  | .alertConfirmed controller => session.alertConfirmed controller
  | .animationEnded controller => session.animationEnded controller
  | .touchIdSwitched isOn => session.touchIdSwitched isOn
  | .lastCardSaved lastCard => session.lastCardSaved lastCard

/-- A fresh installation, whose first process presents the login screen. -/
def Scenario.fresh : Session :=
  launched { isLoggedIn := false, isTouchIDEnabled := false, user := none } none

end Session

end CardGuru
