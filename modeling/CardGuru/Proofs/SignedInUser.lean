import CardGuru.Session.Progress

/-! Screens with cards are presented to the user of the last completed sign-in, as long as nothing is
presented while a request is outstanding and every user finds the login controller that asked. -/

namespace CardGuru

namespace Session

variable {storyboard : Storyboard} {start state final after : Session} {event : SessionEvent}
  {history : List (Session × SessionEvent)} {progress : SignInProgress}

/-- Whenever an event presents anything but the login screen, some sign-in has completed with a
user since the last sign-out, and the stored user is the one of the last such sign-in. -/
def ShownForSignedIn (storyboard : Storyboard) (earlier : List (Session × SessionEvent))
    (state : Session) (event : SessionEvent) : Prop :=
  ∀ after screen, state.next storyboard event = some after → event.presents = true →
    after.root = some screen → screen.isLogin = false →
    ∃ user, SignInProgress.atEnd (earlier ++ [(state, event)]) = .completed user ∧
      after.defaults.fetchUser = some user

/-- No event presents a screen while a request is outstanding, and a sign-in completes with a user
only while the login controller that asked for it exists. -/
def Orderly (earlier : List (Session × SessionEvent)) (state : Session) (event : SessionEvent) : Prop :=
  (event.presents = true → SignInProgress.atEnd earlier ≠ .outstanding) ∧
    isDelivered state event = true

instance (earlier : List (Session × SessionEvent)) (state : Session) (event : SessionEvent) :
    Decidable (Orderly earlier state event) :=
  inferInstanceAs (Decidable (_ ∧ _))

/-- The settings agree with the progress of signing in. -/
structure Agrees (progress : SignInProgress) (defaults : UserDefaults) : Prop where
  /-- The logged-in state is stored by requests and taken back by refusals and sign-outs. -/
  requested : defaults.isLoggedIn = true → progress ≠ .idle
  /-- The user of the last completed sign-in is the stored one. -/
  stored : ∀ user, progress = .completed user → defaults.fetchUser = some user

/-- Every event keeps the settings in agreement, unless it brings a user whom nobody stores. -/
private theorem Agrees.next (agrees : Agrees progress state.defaults)
    (delivered : isDelivered state event = true)
    (taken : state.next storyboard event = some after) :
    Agrees (progress.after event) after.defaults := by
  -- The event changes the account in one of five ways.
  have moved := accountStep_of_next taken
  cases moved with
  | kept silent noRequest stays isLoggedIn fetchUser =>
    rw [progress.after_of_silent silent noRequest stays]
    refine ⟨?_, ?_⟩
    · rw [isLoggedIn]
      exact agrees.requested
    · rw [fetchUser]
      exact agrees.stored
  | requested provider fetchUser =>
    -- A request leaves a completed sign-in as it is, and any other progress outstanding.
    cases progress with
    | completed user =>
      refine ⟨fun _ same => (by cases same), ?_⟩
      rw [fetchUser]
      exact agrees.stored
    | _ => exact ⟨fun _ same => (by cases same), fun _ same => (by cases same)⟩
  | refused answer isLoggedIn fetchUser =>
    rw [progress.after_of_refused answer]
    refine ⟨?_, ?_⟩
    · intro loggedIn
      rw [isLoggedIn] at loggedIn
      cases loggedIn
    · intro user completed
      rw [fetchUser]
      refine agrees.stored user ?_
      cases progress with
      | completed other => exact completed
      | _ => cases completed
  | completed number answer user reported fetchUser =>
    have latest : progress.after (.didRetrieveData number answer) = .completed user := by
      simp [SignInProgress.after, SessionEvent.completion, reported]
    have alive : state.completionIsAlive answer.provider = true := by
      simpa [isDelivered, reported] using delivered
    rw [latest]
    refine ⟨fun _ same => (by cases same), ?_⟩
    intro other same
    cases same
    exact fetchUser alive
  | signedOut isLoggedIn =>
    refine ⟨?_, fun _ same => (by cases same)⟩
    intro loggedIn
    rw [isLoggedIn] at loggedIn
    cases loggedIn

/-- In an orderly run the settings agree with the progress of signing in. -/
theorem agrees_of_run (run : Run (next storyboard) start history state)
    (nobody : start.defaults.isLoggedIn = false) (orderly : Run.Always Orderly history) :
    Agrees (SignInProgress.atEnd history) state.defaults := by
  have kept : ∀ {earlier : List (Session × SessionEvent)} {state after : Session}
      {event : SessionEvent}, Agrees (SignInProgress.atEnd earlier) state.defaults →
      Orderly earlier state event → state.next storyboard event = some after →
        Agrees (SignInProgress.atEnd (earlier ++ [(state, event)])) after.defaults := by
    intro earlier state after event agrees met taken
    rw [SignInProgress.atEnd_snoc]
    exact agrees.next met.2 taken
  have initially : Agrees (SignInProgress.atEnd []) start.defaults := by
    refine ⟨?_, fun _ same => (by cases same)⟩
    intro loggedIn
    rw [nobody] at loggedIn
    cases loggedIn
  exact Run.invariant_history kept run initially orderly

/-- Presenting a screen keeps the progress of signing in, unless it is a sign-out. -/
private theorem after_of_presents (presents : event.presents = true) (stays : event ≠ .logoutPressed) :
    progress.after event = progress := by
  cases event with
  | logoutPressed => exact absurd rfl stays
  | didFinishLaunching => rfl
  | openURL isGoogle isFacebook scheme => rfl
  | performActionFor type => rfl
  | _ => simp [SessionEvent.presents] at presents

/-- In every orderly run that begins with nobody logged in, only the login screen is presented until
a sign-in has completed, and from then on the stored user is the one who signed in last. -/
theorem cards_shown_for_signed_in (run : Run (next storyboard) start history final)
    (nobody : start.defaults.isLoggedIn = false) (orderly : Run.Always Orderly history) :
    Run.Always (ShownForSignedIn storyboard) history := by
  induction run with
  | nil =>
    intro earlier state event later splits
    simp at splits
  | snoc earlier taken ih =>
    rename_i past state reached event
    obtain ⟨before, last⟩ := Run.always_snoc.mp orderly
    refine Run.always_snoc.mpr ⟨ih before, ?_⟩
    intro after screen next presents shown other
    have agrees := agrees_of_run earlier nobody before
    have presented := presentation_of_presents presents next
    have kept := agrees.next last.2 next
    rw [SignInProgress.atEnd_snoc]
    -- Another screen than the login screen is presented to somebody who is logged in.
    have loggedIn : after.defaults.isLoggedIn = true := by
      by_contra nobody
      obtain ⟨controller, root⟩ := isLogin_of_presentation presented (Bool.eq_false_iff.mpr nobody)
      rw [root] at shown
      cases shown
      cases other
    have begun := kept.requested loggedIn
    have stays : event ≠ .logoutPressed := by
      intro same
      subst same
      exact begun rfl
    have answered := last.1 presents
    rw [after_of_presents presents stays] at begun kept ⊢
    cases progress : SignInProgress.atEnd past with
    | idle => exact absurd progress begun
    | outstanding => exact absurd progress answered
    | completed user => exact ⟨user, rfl, kept.stored user progress⟩

/-- Google grants a sign-in, and Firebase knows the user. -/
def Scenario.googleSignIn : List SessionEvent :=
  [.loginPressed .google, .didSignIn 0 .google .granted,
    .didRetrieveData 0 (.google (.user (some "Anna") (some "anna@mail.com") none))]

/-- After a completed sign-in the search is opened for the user who signed in. -/
theorem cards_shown_for_signed_in_search :
    Run.Always (ShownForSignedIn .main)
      (Run.trace (next .main) Scenario.fresh
        (Scenario.googleSignIn ++ [.performActionFor openSearch])) := by
  have possible : (Run.exec (next .main) Scenario.fresh
      (Scenario.googleSignIn ++ [.performActionFor openSearch])).any (fun _ => true) = true := by
    decide +kernel
  obtain ⟨final, ends, _⟩ := (Option.any_eq_true _ _).mp possible
  exact cards_shown_for_signed_in (Run.of_exec ends) rfl (by decide +kernel)

/-- The start screen, which leads to the cards, is presented when a sign-in has been requested only. -/
theorem cards_shown_before_sign_in :
    ¬ ∀ (start final : Session) (history : List (Session × SessionEvent)),
        start.defaults.isLoggedIn = false → Run (next .main) start history final →
        Run.Always (ShownForSignedIn .main) history := by
  intro always
  let requested : Session := Scenario.fresh.signIn .google 0
  have pressed : Scenario.fresh.next .main (.loginPressed .google) = some requested := rfl
  have chosen : requested.next .main (.performActionFor openSearch) =
      some requested.setupSearchViewController := rfl
  have shown := always _ _ _ rfl ((Run.nil.snoc pressed).snoc chosen)
  -- The shortcut for searching is the last event, and no sign-in has completed.
  obtain ⟨_, last⟩ := Run.always_snoc.mp shown
  obtain ⟨user, completed, _⟩ := last _ (.start 1) chosen rfl rfl rfl
  cases completed

end Session

end CardGuru
