import CardGuru.Session.Step

/-! What each event does to the stored settings, and which screen the presenting ones choose. -/

namespace CardGuru

namespace SessionEvent

/-- Whether an event makes the program choose the root of the window. -/
def presents : SessionEvent → Bool
  -- A URL of a provider and an unknown shortcut leave the window alone.
  | didFinishLaunching => true
  | openURL isGoogle isFacebook scheme => !isGoogle && !isFacebook && scheme = some Session.scheme
  | performActionFor type =>
    type = Session.openSearch || type = Session.addCard || type = Session.openLast
  | logoutPressed => true
  | _ => false

/-- Whether an event leads to the screen for adding a card. -/
def addsCard : SessionEvent → Bool
  | performActionFor type => type = Session.addCard
  | _ => false

/-- Whether an event leads to the card opened last. -/
def opensLast : SessionEvent → Bool
  | openURL isGoogle isFacebook scheme => !isGoogle && !isFacebook && scheme = some Session.scheme
  -- The shortcut and the link lead to the same function.
  | performActionFor type => type = Session.openLast
  | _ => false

/-- What an event calls the completion of a sign-in with, if it calls one. -/
def completion : SessionEvent → Option (Option User)
  -- A granted sign-in waits for the data.
  | didSignIn _ _ .granted => none
  | didSignIn _ _ _ => some none
  | didRetrieveData _ answer => answer.reported
  | _ => none

end SessionEvent

namespace Session

variable {storyboard : Storyboard} {session state after : Session} {event : SessionEvent}

/-- Whether the controller that a stored completion refers to still exists. -/
def completionIsAlive (session : Session) (provider : Provider) : Bool :=
  (session.login provider).singInCompletion.any fun response => session.isAlive response.controller

/-- Whether a completed sign-in finds the login controller that asked for it. -/
def isDelivered (state : Session) : SessionEvent → Bool
  | .didRetrieveData _ answer =>
    match answer.reported with
    | some (some _) => state.completionIsAlive answer.provider
    | _ => true
  -- All other events have nothing to deliver.
  | _ => true

section Settings

variable (session : Session) (root : RootScreen)

@[simp] theorem defaults_setRoot : (session.setRoot root).defaults = session.defaults := rfl

@[simp] theorem defaults_newWindow : session.newWindow.defaults = session.defaults := rfl

@[simp] theorem defaults_presentLogin : session.presentLogin.defaults = session.defaults := rfl

@[simp] theorem defaults_presentCurrentUserUI :
    session.presentCurrentUserUI.defaults = session.defaults := by
  -- The settings are read only.
  unfold presentCurrentUserUI
  split
  · split <;> rfl
  · rfl

@[simp] theorem defaults_didFinishLaunching (defaults : UserDefaults)
    (shortcutItem : Option LastCard) (started : Nat) (calls : List (Nat × Option User)) :
    (didFinishLaunching defaults shortcutItem started calls).defaults = defaults := by
  simp [didFinishLaunching, setupInitialViewController]

@[simp] theorem defaults_setupSearchViewController :
    session.setupSearchViewController.defaults = session.defaults.saveForceTouchActive true := by
  simp [setupSearchViewController]

end Settings

/-- Presenting the screen for adding a card keeps the settings. -/
theorem defaults_presentAddViewController
    (presented : session.presentAddViewController storyboard = some after) :
    after.defaults = session.defaults := by
  -- Neither of the two screens stores anything.
  rcases presentAddViewController_ok presented with ⟨_, rfl⟩ | ⟨_, rfl⟩
  · rfl
  · rfl

/-- Presenting the details of a card keeps the settings. -/
theorem defaults_presentDetailsViewController {card : LastCard}
    (presented : session.presentDetailsViewController storyboard card = some after) :
    after.defaults = session.defaults := by
  -- An empty window, the tab bar, or the login screen.
  rcases presentDetailsViewController_ok presented with ⟨_, _, rfl⟩ | ⟨_, _, _, rfl⟩ | ⟨_, rfl⟩
  · rfl
  · rfl
  · rfl

/-- The shortcut for adding a card keeps the settings. -/
theorem defaults_setupAddCardViewController
    (presented : session.setupAddCardViewController storyboard = some after) :
    after.defaults = session.defaults := by
  -- Neither the window nor the screen stores anything.
  unfold setupAddCardViewController at presented
  rw [defaults_presentAddViewController presented, defaults_newWindow]

/-- The shortcut for the card opened last keeps the settings. -/
theorem defaults_setupOpenLastViewController
    (presented : session.setupOpenLastViewController storyboard = some after) :
    after.defaults = session.defaults := by
  unfold setupOpenLastViewController at presented
  rw [defaults_presentDetailsViewController presented, defaults_newWindow]

/-- Two settings agree in who is logged in, who is the stored user and whether Touch ID is on. -/
structure SameAccount (first second : UserDefaults) : Prop where
  isLoggedIn : first.isLoggedIn = second.isLoggedIn
  fetchUser : first.fetchUser = second.fetchUser
  isTouchIDEnabled : first.isTouchIDEnabled = second.isTouchIDEnabled

/-- Settings agree with themselves. -/
theorem SameAccount.of_eq {first second : UserDefaults} (same : first = second) :
    SameAccount first second :=
  ⟨same ▸ rfl, same ▸ rfl, same ▸ rfl⟩

/-- Agreement can be composed. -/
theorem SameAccount.trans {first second third : UserDefaults} (earlier : SameAccount first second)
    (later : SameAccount second third) : SameAccount first third :=
  ⟨earlier.isLoggedIn.trans later.isLoggedIn, earlier.fetchUser.trans later.fetchUser,
    earlier.isTouchIDEnabled.trans later.isTouchIDEnabled⟩

/-- Presenting the tab bar keeps the account. -/
theorem sameAccount_performSegue (session : Session) (source : RootScreen) :
    SameAccount (session.performSegue source).defaults session.defaults := by
  -- Only the request for the search is dropped.
  unfold performSegue
  split
  · exact ⟨rfl, rfl, rfl⟩
  · exact .of_eq rfl

/-- A URL keeps the settings. -/
theorem defaults_openURL {isGoogle isFacebook : Bool} {scheme : Option String}
    (opened : session.openURL storyboard isGoogle isFacebook scheme = some after) :
    after.defaults = session.defaults := by
  -- At most the card opened last is presented.
  unfold openURL at opened
  split at opened
  · cases opened
    rfl
  · split at opened
    · cases opened
      rfl
    · split at opened
      · exact defaults_setupOpenLastViewController opened
      · cases opened
        rfl

/-- A shortcut keeps the account. -/
theorem sameAccount_performActionFor {type : String}
    (performed : session.performActionFor storyboard type = some after) :
    SameAccount after.defaults session.defaults := by
  unfold performActionFor at performed
  split at performed
  · -- The shortcut for searching stores its request for the list of cards.
    cases performed
    rw [defaults_setupSearchViewController]
    exact ⟨rfl, rfl, rfl⟩
  · refine .of_eq ?_
    split at performed
    · exact defaults_setupAddCardViewController performed
    · split at performed
      · exact defaults_setupOpenLastViewController performed
      · cases performed
        rfl

section Completion

variable {provider : Provider} {user : User}

/-- A completion without a user stores that nobody is logged in. -/
theorem defaults_complete_none {response : SignInResponse}
    (holds : (session.login provider).singInCompletion = some response) :
    (session.complete provider none).defaults = session.defaults.saveLoggedState false := by
  -- The closure does so even when its controller is gone.
  simp [complete, holds]

/-- A completion with a user stores the user if its controller still exists. -/
theorem fetchUser_complete_some (alive : session.completionIsAlive provider = true) :
    (session.complete provider (some user)).defaults.fetchUser = some user := by
  unfold completionIsAlive at alive
  unfold complete
  cases holds : (session.login provider).singInCompletion with
  | none => simp [holds] at alive
  | some response =>
    -- The completion is called on a controller that is still there.
    have exists' : session.isAlive response.controller = true := by simpa [holds] using alive
    simp only [exists', if_true]
    exact (sameAccount_performSegue _ _).fetchUser

end Completion

/-- What an event does to the account that the settings describe. -/
inductive AccountStep (state : Session) : SessionEvent → UserDefaults → Prop where
  /-- The logged-in state and the user stay. -/
  | kept {event : SessionEvent} {defaults : UserDefaults} (silent : event.completion = none)
      (noRequest : ∀ provider, event ≠ .loginPressed provider) (stays : event ≠ .logoutPressed)
      (isLoggedIn : defaults.isLoggedIn = state.defaults.isLoggedIn)
      (fetchUser : defaults.fetchUser = state.defaults.fetchUser) : AccountStep state event defaults
  /-- A request for a sign-in stores the logged-in state. -/
  | requested {defaults : UserDefaults} (provider : Provider)
      (fetchUser : defaults.fetchUser = state.defaults.fetchUser) :
      AccountStep state (.loginPressed provider) defaults
  /-- A completion without a user takes the logged-in state back. -/
  | refused {event : SessionEvent} {defaults : UserDefaults} (answer : event.completion = some none)
      (isLoggedIn : defaults.isLoggedIn = false)
      (fetchUser : defaults.fetchUser = state.defaults.fetchUser) : AccountStep state event defaults
  /-- A completion with a user stores the user if its controller still exists. -/
  | completed {defaults : UserDefaults} (number : Nat) (answer : DataAnswer) (user : User)
      (reported : answer.reported = some (some user))
      (fetchUser : state.completionIsAlive answer.provider = true →
        defaults.fetchUser = some user) :
      AccountStep state (.didRetrieveData number answer) defaults
  /-- Signing out takes the logged-in state back. -/
  | signedOut {defaults : UserDefaults} (isLoggedIn : defaults.isLoggedIn = false) :
      AccountStep state .logoutPressed defaults

/-- A granted sign-in asks for the data of the user, and any other answer is a refusal. -/
private theorem accountStep_didSignIn {number : Nat} {provider : Provider} {result : SignInResult}
    (taken : state.didSignIn number provider result = some after) :
    AccountStep state (.didSignIn number provider result) after.defaults := by
  unfold didSignIn at taken
  split at taken
  · rename_i outstanding
    -- A sign-in is outstanding, so a completion is stored.
    obtain ⟨response, holds, _⟩ := state.stored _ outstanding
    cases result with
    | granted =>
      cases taken
      exact .kept rfl (fun _ => nofun) nofun rfl rfl
    | _ =>
      cases taken
      have defaults : ((state.status.answer number).complete provider none).defaults =
          state.defaults.saveLoggedState false := defaults_complete_none holds
      exact .refused rfl (by rw [defaults]; rfl) (by rw [defaults]; rfl)
  · cases taken

/-- The data of a user completes a sign-in; a failed request for Facebook refuses it. -/
private theorem accountStep_didRetrieveData {number : Nat} {answer : DataAnswer}
    (taken : state.didRetrieveData number answer = some after) :
    AccountStep state (.didRetrieveData number answer) after.defaults := by
  unfold didRetrieveData at taken
  split at taken
  · rename_i outstanding
    obtain ⟨response, holds, _⟩ := state.stored _ outstanding
    cases reported : answer.reported with
    | none =>
      rw [reported] at taken
      cases taken
      exact .kept reported (fun _ => nofun) nofun rfl rfl
    | some called =>
      rw [reported] at taken
      cases called with
      | some user =>
        cases taken
        exact .completed number answer user reported fun alive => fetchUser_complete_some alive
      | none =>
        cases taken
        have defaults : ((state.answer number).complete answer.provider none).defaults =
            state.defaults.saveLoggedState false := defaults_complete_none holds
        exact .refused reported (by rw [defaults]; rfl) (by rw [defaults]; rfl)
  · cases taken

/-- Every event does one of these things to the account. -/
theorem accountStep_of_next (taken : state.next storyboard event = some after) :
    AccountStep state event after.defaults := by
  -- Only sign-ins and the logout concern the account.
  cases event with
  | didFinishLaunching =>
    cases taken
    exact .kept rfl (fun _ => nofun) nofun (by simp) (by simp)
  | openURL isGoogle isFacebook scheme =>
    have defaults := defaults_openURL taken
    exact .kept rfl (fun _ => nofun) nofun (by rw [defaults]) (by rw [defaults])
  | performActionFor type =>
    have same := sameAccount_performActionFor taken
    exact .kept rfl (fun _ => nofun) nofun same.isLoggedIn same.fetchUser
  | loginPressed provider =>
    have pressed : state.loginPressed provider = some after := by
      cases provider <;> exact taken
    obtain ⟨controller, _, rfl⟩ := Option.map_eq_some_iff.mp pressed
    exact .requested provider rfl
  | didSignIn number provider result => exact accountStep_didSignIn taken
  | didRetrieveData number answer => exact accountStep_didRetrieveData taken
  | dismissed =>
    cases taken
    exact .kept rfl (fun _ => nofun) nofun rfl rfl
  | logoutPressed =>
    have pressed : state.logoutPressed = some after := taken
    unfold logoutPressed at pressed
    split at pressed
    · cases pressed
      refine .signedOut ?_
      rw [defaults_presentCurrentUserUI]
      rfl
    · cases pressed
  | authenticated controller success =>
    have ended : state.authenticated controller success = some after := taken
    unfold authenticated at ended
    split at ended
    · cases success with
      | true =>
        cases ended
        have same := sameAccount_performSegue
          { state with authentications := state.authentications.erase controller } (.touch controller)
        exact .kept rfl (fun _ => nofun) nofun same.isLoggedIn same.fetchUser
      | false =>
        cases ended
        exact .kept rfl (fun _ => nofun) nofun rfl rfl
    · cases ended
  | alertConfirmed controller =>
    have confirmed : state.alertConfirmed controller = some after := taken
    unfold alertConfirmed at confirmed
    split at confirmed
    · cases confirmed
      exact .kept rfl (fun _ => nofun) nofun rfl rfl
    · cases confirmed
  | animationEnded controller =>
    have ended : state.animationEnded controller = some after := taken
    unfold animationEnded at ended
    split at ended
    · cases ended
      have same := sameAccount_performSegue
        { state with animations := state.animations.erase controller } (.start controller)
      exact .kept rfl (fun _ => nofun) nofun same.isLoggedIn same.fetchUser
    · cases ended
  | touchIdSwitched isOn =>
    have switched : state.touchIdSwitched isOn = some after := taken
    unfold touchIdSwitched at switched
    split at switched
    · cases switched
      exact .kept rfl (fun _ => nofun) nofun rfl rfl
    · cases switched
  | lastCardSaved lastCard =>
    have saved : state.lastCardSaved lastCard = some after := taken
    unfold lastCardSaved at saved
    split at saved
    · cases saved
      exact .kept rfl (fun _ => nofun) nofun rfl rfl
    · cases saved

section Root

/-- The current user interface is never a screen of the main storyboard. -/
theorem isMain_presentCurrentUserUI (session : Session) :
    session.presentCurrentUserUI.root.any RootScreen.isMain = false := by
  unfold presentCurrentUserUI
  -- The start, the lock or the login screen.
  split
  · split <;> rfl
  · rfl

/-- A screen for adding a card is presented exactly if somebody is logged in. -/
theorem isMain_presentAddViewController
    (presented : session.presentAddViewController storyboard = some after) :
    after.root.any RootScreen.isMain = session.defaults.isLoggedIn := by
  -- Only the tab bar belongs to the main storyboard.
  rcases presentAddViewController_ok presented with ⟨loggedIn, rfl⟩ | ⟨nobody, rfl⟩
  · exact loggedIn.symm
  · exact nobody.symm

/-- The details of a card are presented exactly if somebody is logged in and there is a picture. -/
theorem isMain_presentDetailsViewController {card : LastCard} (opened : session.root = none)
    (presented : session.presentDetailsViewController storyboard card = some after) :
    after.root.any RootScreen.isMain = (session.defaults.isLoggedIn && card.imageData.isSome) := by
  rcases presentDetailsViewController_ok presented with
    ⟨_, missing, rfl⟩ | ⟨data, loggedIn, pictured, rfl⟩ | ⟨nobody, rfl⟩
  · -- Without a picture nothing is presented.
    simp [opened, missing]
  · simp [loggedIn, pictured, setRoot, RootScreen.isMain]
  · simp [nobody, presentLogin, setRoot, RootScreen.isMain]

/-- The card that the shortcut for the card opened last presents has a picture. -/
def hasLastPicture (session : Session) : Bool :=
  session.shortcutItem.any fun card => card.imageData.isSome

/-- The shortcut for the card opened last presents details exactly for a card with a picture. -/
theorem isMain_setupOpenLastViewController
    (presented : session.setupOpenLastViewController storyboard = some after) :
    after.root.any RootScreen.isMain = (session.defaults.isLoggedIn && session.hasLastPicture) := by
  -- The empty card that stands for a missing file has no picture.
  unfold setupOpenLastViewController at presented
  unfold hasLastPicture
  rw [isMain_presentDetailsViewController rfl presented, defaults_newWindow]
  cases session.shortcutItem <;> rfl

/-- Whether an event presents a screen of the main storyboard to whoever is logged in. -/
def opensCards (state : Session) (event : SessionEvent) : Bool :=
  event.addsCard || (event.opensLast && state.hasLastPicture)

/-- The three ways in which an event chooses the root. -/
inductive Presentation (storyboard : Storyboard) (state : Session) :
    SessionEvent → Session → Prop where
  /-- The current user interface of some session is presented. -/
  | currentUserUI {event : SessionEvent} (session : Session) (plain : opensCards state event = false) :
      Presentation storyboard state event session.presentCurrentUserUI
  /-- The screen for adding a card is presented. -/
  | addCard {event : SessionEvent} {after : Session} (adds : event.addsCard = true)
      (presented : state.setupAddCardViewController storyboard = some after) :
      Presentation storyboard state event after
  /-- The card opened last is presented. -/
  | lastCard {event : SessionEvent} {after : Session} (opens : event.opensLast = true)
      (other : event.addsCard = false)
      (presented : state.setupOpenLastViewController storyboard = some after) :
      Presentation storyboard state event after

/-- Every presenting event chooses the root in one of these ways. -/
theorem presentation_of_presents (presents : event.presents = true)
    (taken : state.next storyboard event = some after) :
    Presentation storyboard state event after := by
  cases event with
  | didFinishLaunching =>
    cases taken
    exact .currentUserUI _ rfl
  | openURL isGoogle isFacebook scheme =>
    -- Neither provider recognizes the URL, and it has the scheme of the application.
    have own := presents
    simp only [SessionEvent.presents, Bool.and_eq_true, Bool.not_eq_true', decide_eq_true_eq] at own
    obtain ⟨⟨rfl, rfl⟩, rfl⟩ := own
    exact .lastCard presents rfl taken
  | performActionFor type =>
    simp only [SessionEvent.presents, Bool.or_eq_true, decide_eq_true_eq] at presents
    rcases presents with (rfl | rfl) | rfl
    · cases taken
      exact .currentUserUI _ rfl
    · exact .addCard rfl taken
    · exact .lastCard rfl rfl taken
  | logoutPressed =>
    have pressed : state.logoutPressed = some after := taken
    unfold logoutPressed at pressed
    split at pressed
    · cases pressed
      exact .currentUserUI _ rfl
    · cases pressed
  | _ => simp [SessionEvent.presents] at presents

/-- A presenting event makes a screen of the main storyboard the root exactly if it is one of those
that do so for whoever is logged in, and somebody is. -/
theorem isMain_of_presentation (presented : Presentation storyboard state event after) :
    after.root.any RootScreen.isMain = (state.defaults.isLoggedIn && opensCards state event) := by
  -- Each way of presenting has its own lemma.
  cases presented with
  | currentUserUI session plain => simp [isMain_presentCurrentUserUI, plain]
  | addCard adds presented =>
    rw [isMain_presentAddViewController presented, defaults_newWindow]
    simp [opensCards, adds]
  | lastCard opens other presented =>
    rw [isMain_setupOpenLastViewController presented]
    simp [opensCards, opens, other]

/-- While nobody is logged in every presenting event chooses the login screen. -/
theorem isLogin_of_presentation (presented : Presentation storyboard state event after)
    (nobody : after.defaults.isLoggedIn = false) :
    ∃ controller, after.root = some (.login controller) := by
  -- Nobody is logged in, so each way ends at the login screen.
  cases presented with
  | currentUserUI session plain =>
    rw [defaults_presentCurrentUserUI] at nobody
    exact ⟨session.nextController, by simp [presentCurrentUserUI, nobody, presentLogin, setRoot]⟩
  | addCard adds presented =>
    rw [defaults_setupAddCardViewController presented] at nobody
    have login : state.setupAddCardViewController storyboard = some state.newWindow.presentLogin := by
      simp [setupAddCardViewController, presentAddViewController, nobody]
    cases login.symm.trans presented
    exact ⟨state.nextController, rfl⟩
  | lastCard opens other presented =>
    rw [defaults_setupOpenLastViewController presented] at nobody
    have login : state.setupOpenLastViewController storyboard = some state.newWindow.presentLogin := by
      simp [setupOpenLastViewController, presentDetailsViewController, nobody]
    cases login.symm.trans presented
    exact ⟨state.nextController, rfl⟩

end Root

end Session

end CardGuru
