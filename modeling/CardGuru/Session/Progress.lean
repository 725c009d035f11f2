import CardGuru.Session.Presenting

/-! Signing in and unlocking as their purpose has it, followed along the events of a run. -/

namespace CardGuru

/-- How far signing in has come since the last sign-out. -/
inductive SignInProgress where
  /-- Nobody has signed in, and no request is outstanding. -/
  | idle
  /-- A request is outstanding, and nobody has signed in. -/
  | outstanding
  /-- A sign-in has completed with a user, who is the one of the last such sign-in. -/
  | completed (user : User)
deriving DecidableEq

namespace SignInProgress

/-- A sign-in is requested. -/
def request : SignInProgress → SignInProgress
  -- Whoever has signed in stays so until the new request completes.
  | completed user => completed user
  | _ => outstanding

/-- A request is refused. -/
def refuse : SignInProgress → SignInProgress
  | completed user => completed user
  | _ => idle

/-- The progress after an event. -/
def after (progress : SignInProgress) : SessionEvent → SignInProgress
  | .loginPressed _ => progress.request
  | .logoutPressed => idle
  | event =>
    match event.completion with
    | some (some user) => completed user
    | some none => progress.refuse
    -- All other events, and answers that call no completion, change nothing.
    | none => progress

/-- An event that is neither a request nor a sign-out nor an answer changes nothing. -/
theorem after_of_silent {event : SessionEvent} (progress : SignInProgress)
    (silent : event.completion = none) (noRequest : ∀ provider, event ≠ .loginPressed provider)
    (stays : event ≠ .logoutPressed) : progress.after event = progress := by
  unfold after
  split
  · rename_i provider
    exact absurd rfl (noRequest provider)
  · exact absurd rfl stays
  · rw [silent]

/-- An answer that calls a completion without a user is a refusal. -/
theorem after_of_refused {event : SessionEvent} (progress : SignInProgress)
    (refused : event.completion = some none) : progress.after event = progress.refuse := by
  -- Neither a request nor a sign-out calls a completion.
  unfold after
  split
  · simp [SessionEvent.completion] at refused
  · simp [SessionEvent.completion] at refused
  · rw [refused]

/-- The progress at the end of a run that begins with nobody signed in. -/
def atEnd (history : List (Session × SessionEvent)) : SignInProgress :=
  history.foldl (fun progress entry => progress.after entry.2) idle

/-- One more event is one more step. -/
theorem atEnd_snoc (history : List (Session × SessionEvent)) (state : Session)
    (event : SessionEvent) : atEnd (history ++ [(state, event)]) = (atEnd history).after event := by
  simp [atEnd, List.foldl_append]

end SignInProgress

namespace Session

/-- Whether a process is unlocked after an event. -/
def unlockedAfter (unlocked : Bool) (state : Session) : SessionEvent → Bool
  -- A new process is unlocked if it finds the Touch ID switch off.
  | .didFinishLaunching => !state.defaults.isTouchIDEnabled
  | .authenticated _ true => true
  | event =>
    match event.completion with
    | some (some _) => true
    | _ => unlocked

/-- Whether the process at the end of a run is unlocked, if the first one was launched with the
given settings. -/
def isUnlocked (defaults : UserDefaults) (history : List (Session × SessionEvent)) : Bool :=
  history.foldl (fun unlocked entry => unlockedAfter unlocked entry.1 entry.2)
    (!defaults.isTouchIDEnabled)

/-- One more event is one more step. -/
theorem isUnlocked_snoc (defaults : UserDefaults) (history : List (Session × SessionEvent))
    (state : Session) (event : SessionEvent) :
    isUnlocked defaults (history ++ [(state, event)]) =
      unlockedAfter (isUnlocked defaults history) state event := by
  simp [isUnlocked, List.foldl_append]

end Session

end CardGuru
