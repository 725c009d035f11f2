import CardGuru.Controller.DetailedViewController
import CardGuru.Session.Answers

/-! What a process keeps about signing in, unlocking and the screen at the root of its window. -/

namespace CardGuru

/-- The completion that a login controller hands over with a sign-in. -/
structure SignInResponse where
  /-- The number of the sign-in. -/
  number : Nat
  /-- The login controller that the closure refers to weakly. -/
  controller : Nat
deriving DecidableEq

/-- The state of a login service; view controllers are known by the order of their creation. -/
structure LoginService where
  /-- The controller that the service holds for presenting other screens. -/
  presenter : Option Nat
  /-- The completion of the last sign-in that the service was asked for. -/
  singInCompletion : Option SignInResponse
deriving DecidableEq

/-- A sign-in whose provider still owes an answer. -/
structure Attempt where
  /-- The number of the sign-in. -/
  number : Nat
  provider : Provider
  /-- Whether it has been granted, so that the data of the user has been requested. -/
  isGranted : Bool
deriving DecidableEq

/-- A screen pushed onto the card list of a tab bar. -/
inductive PushedScreen where
  /-- The screen for adding a card. -/
  | addCard
  /-- The screen with the details of a card. -/
  | cardDetails (detailed : DetailedViewController)
deriving DecidableEq

/-- The controller at the root of a window. -/
inductive RootScreen where
  /-- The initial controller of the login storyboard. -/
  | login (controller : Nat)
  /-- The initial controller of the Touch ID storyboard. -/
  | touch (controller : Nat)
  /-- The initial controller of the start storyboard, an animation. -/
  | start (controller : Nat)
  /-- The tab bar of the main storyboard, with a screen pushed onto its card list. -/
  | tabBar (pushed : PushedScreen)
deriving DecidableEq

namespace RootScreen

/-- Whether a screen of the main storyboard is at the root. -/
def isMain : RootScreen → Bool
  | tabBar _ => true
  | _ => false

/-- Whether the login screen is at the root. -/
def isLogin : RootScreen → Bool
  | login _ => true
  | _ => false

end RootScreen

/-- A storyboard, as far as its controllers are asked for by name. -/
structure Storyboard where
  /-- The identifiers that the storyboard gives to its controllers. -/
  identifiers : List String
deriving DecidableEq

namespace Storyboard

/-- Whether a controller can be instantiated; a storyboard raises for an unknown identifier. -/
def instantiates (storyboard : Storyboard) (identifier : String) : Bool :=
  identifier ∈ storyboard.identifiers

/-- The main storyboard as it is. -/
def main : Storyboard where
  identifiers := ["HomeVC", "TabBar", "NavigationVC"]

/-- A main storyboard that has a controller for every identifier that the program asks for. -/
def complete : Storyboard where
  identifiers := main.identifiers ++ ["AddCardViewController", "DetailsVC"]

end Storyboard

/-- A process together with what the device stores for it. -/
structure Session where
  defaults : UserDefaults
  /-- The content of the file of the shortcut. -/
  shortcutItem : Option LastCard
  /-- The root of the window; a new window has none. -/
  root : Option RootScreen
  /-- Whether a segue has presented the tab bar over the root. -/
  isPresenting : Bool
  /-- Whether the progress indicator is shown. -/
  isShowingProgress : Bool
  login : Provider → LoginService
  /-- The sign-ins of this process that wait for an answer of their provider. -/
  attempts : List Attempt
  /-- How many sign-ins have been started, by this process and those before it. -/
  started : Nat
  /-- The calls of completions so far: of which sign-in, and with which user. -/
  calls : List (Nat × Option User)
  /-- The Touch ID controllers that wait for an authentication. -/
  authentications : List Nat
  /-- The Touch ID controllers that show the alert of a failed authentication. -/
  alerts : List Nat
  /-- The start controllers whose animation is running. -/
  animations : List Nat
  nextController : Nat
  /-- Every sign-in has its own number. -/
  distinct : (attempts.map Attempt.number).Nodup
  /-- A service holds the completion of the last sign-in it was asked for. -/
  stored : ∀ attempt ∈ attempts, ∃ response,
    (login attempt.provider).singInCompletion = some response ∧ attempt.number ≤ response.number
  /-- Completions belong to sign-ins that were started. -/
  numbered : ∀ provider response,
    (login provider).singInCompletion = some response → response.number < started

/-- What happens to a process: an event of the system, a step of the user, or an answer. -/
inductive SessionEvent where
  /-- The process is killed, if there is one, and started again. -/
  | didFinishLaunching
  /-- The system hands over a URL, which one of the providers may recognize. -/
  | openURL (isGoogle isFacebook : Bool) (scheme : Option String)
  /-- A home-screen shortcut is chosen. -/
  | performActionFor (type : String)
  /-- The button of a provider is pressed on the login screen. -/
  | loginPressed (provider : Provider)
  /-- A provider answers a sign-in. -/
  | didSignIn (attempt : Nat) (provider : Provider) (result : SignInResult)
  /-- The request for the data of the user is answered. -/
  | didRetrieveData (attempt : Nat) (answer : DataAnswer)
  /-- The screen of the Google sign-in is dismissed. -/
  | dismissed
  /-- The user signs out. -/
  | logoutPressed
  /-- The local authentication of a Touch ID controller ends. -/
  | authenticated (controller : Nat) (success : Bool)
  /-- The alert of a failed authentication is confirmed. -/
  | alertConfirmed (controller : Nat)
  /-- The time of the start animation is over. -/
  | animationEnded (controller : Nat)
  /-- The Touch ID switch of the preferences is set. -/
  | touchIdSwitched (isOn : Bool)
  /-- A detail screen loads and saves its card for the shortcut. -/
  | lastCardSaved (lastCard : LastCard)

end CardGuru
