import CardGuru.Session.Presenting

/-! What each event does to the sign-ins that wait for an answer, and which completions it calls. -/

namespace CardGuru

namespace SessionEvent

/-- The sign-in that an event answers for good. -/
def answered : SessionEvent → Option Nat
  -- After a granted sign-in the data of the user is still to come.
  | didSignIn _ _ .granted => none
  | didSignIn attempt _ _ => some attempt
  | didRetrieveData attempt _ => some attempt
  | _ => none

end SessionEvent

namespace Session

variable {storyboard : Storyboard} {session state after : Session} {event : SessionEvent}
  {provider : Provider} {number : Nat}

/-- The sign-in whose completion a service holds. -/
def held (session : Session) (provider : Provider) : Option Nat :=
  (session.login provider).singInCompletion.map SignInResponse.number

/-- The call that an event leads to: of whose completion, and with what. -/
def called (state : Session) : SessionEvent → Option (Nat × Option User)
  -- The data of the user is requested first.
  | .didSignIn _ _ .granted => none
  | .didSignIn _ provider _ => (state.held provider).map fun latest => (latest, none)
  | .didRetrieveData _ answer =>
    answer.reported.bind fun user => (state.held answer.provider).map fun latest => (latest, user)
  | _ => none

/-- The service of a sign-in that waits holds the completion of it or of a later one. -/
theorem held_of_waiting {attempt : Attempt} (member : attempt ∈ session.attempts) :
    ∃ latest, session.held attempt.provider = some latest ∧ attempt.number ≤ latest := by
  -- A later sign-in replaces the completion and has a larger number.
  obtain ⟨response, holds, notLater⟩ := session.stored attempt member
  exact ⟨response.number, by simp [held, holds], notLater⟩

/-- Two states agree in the sign-ins that wait and in the calls of completions. -/
structure SameSignIns (after before : Session) : Prop where
  attempts : after.attempts = before.attempts
  started : after.started = before.started
  calls : after.calls = before.calls

/-- Presenting the current user interface leaves the sign-ins alone. -/
theorem sameSignIns_presentCurrentUserUI (session : Session) :
    SameSignIns session.presentCurrentUserUI session := by
  -- Only the window changes.
  unfold presentCurrentUserUI
  split
  · split <;> exact ⟨rfl, rfl, rfl⟩
  · exact ⟨rfl, rfl, rfl⟩

/-- Presenting the screen for adding a card leaves the sign-ins alone. -/
theorem sameSignIns_setupAddCardViewController
    (presented : session.setupAddCardViewController storyboard = some after) :
    SameSignIns after session := by
  -- Only the window changes, whichever screen becomes its root.
  rcases presentAddViewController_ok presented with ⟨_, rfl⟩ | ⟨_, rfl⟩
  · exact ⟨rfl, rfl, rfl⟩
  · exact ⟨rfl, rfl, rfl⟩

/-- Presenting the card opened last leaves the sign-ins alone. -/
theorem sameSignIns_setupOpenLastViewController
    (presented : session.setupOpenLastViewController storyboard = some after) :
    SameSignIns after session := by
  -- Only the window changes, if anything does.
  rcases presentDetailsViewController_ok presented with ⟨_, _, rfl⟩ | ⟨_, _, _, rfl⟩ | ⟨_, rfl⟩
  · exact ⟨rfl, rfl, rfl⟩
  · exact ⟨rfl, rfl, rfl⟩
  · exact ⟨rfl, rfl, rfl⟩

/-- A URL leaves the sign-ins alone. -/
theorem sameSignIns_openURL {isGoogle isFacebook : Bool} {scheme : Option String}
    (opened : session.openURL storyboard isGoogle isFacebook scheme = some after) :
    SameSignIns after session := by
  -- A URL is left to a provider, leads to the card opened last, or is ignored.
  unfold openURL at opened
  split at opened
  · cases opened
    exact ⟨rfl, rfl, rfl⟩
  · split at opened
    · cases opened
      exact ⟨rfl, rfl, rfl⟩
    · split at opened
      · exact sameSignIns_setupOpenLastViewController opened
      · cases opened
        exact ⟨rfl, rfl, rfl⟩

/-- A shortcut leaves the sign-ins alone. -/
theorem sameSignIns_performActionFor {type : String}
    (performed : session.performActionFor storyboard type = some after) :
    SameSignIns after session := by
  unfold performActionFor at performed
  -- Each of the three shortcuts presents something; another one nothing.
  split at performed
  · cases performed
    have same := sameSignIns_presentCurrentUserUI
      { session.newWindow with defaults := session.defaults.saveForceTouchActive true }
    exact ⟨same.attempts, same.started, same.calls⟩
  · split at performed
    · exact sameSignIns_setupAddCardViewController performed
    · split at performed
      · exact sameSignIns_setupOpenLastViewController performed
      · cases performed
        exact ⟨rfl, rfl, rfl⟩

/-- Presenting the tab bar leaves the sign-ins alone. -/
theorem sameSignIns_performSegue (session : Session) (source : RootScreen) :
    SameSignIns (session.performSegue source) session := by
  unfold performSegue
  -- Whether the segue is performed or not.
  split <;> exact ⟨rfl, rfl, rfl⟩

/-- A new process remembers the calls of completions. -/
theorem calls_didFinishLaunching (defaults : UserDefaults) (shortcutItem : Option LastCard)
    (started : Nat) (calls : List (Nat × Option User)) :
    (didFinishLaunching defaults shortcutItem started calls).calls = calls := by
  -- Choosing the first screen calls no completion.
  unfold didFinishLaunching setupInitialViewController
  rw [(sameSignIns_presentCurrentUserUI _).calls]
  rfl

/-- A new process waits for nothing, and sign-ins keep their numbers. -/
theorem attempts_didFinishLaunching (defaults : UserDefaults) (shortcutItem : Option LastCard)
    (started : Nat) (calls : List (Nat × Option User)) :
    (didFinishLaunching defaults shortcutItem started calls).attempts = [] ∧
      (didFinishLaunching defaults shortcutItem started calls).started = started := by
  -- Requests of the old process are not answered.
  unfold didFinishLaunching setupInitialViewController
  have same := sameSignIns_presentCurrentUserUI
  exact ⟨(same _).attempts, (same _).started⟩

/-- A service calls the completion that it holds, once, and leaves the sign-ins alone. -/
theorem calls_complete (session : Session) (provider : Provider) (user : Option User) :
    (session.complete provider user).calls =
        session.calls ++ ((session.held provider).map fun latest => (latest, user)).toList ∧
      (session.complete provider user).attempts = session.attempts ∧
      (session.complete provider user).started = session.started := by
  unfold complete held
  cases holds : (session.login provider).singInCompletion with
  | none => simp
  | some response =>
    cases user with
    | none => simp
    | some user =>
      -- Whether the controller still exists makes no difference.
      dsimp only
      split
      · have same := sameSignIns_performSegue
          { session with
            calls := session.calls ++ [(response.number, some user)]
            defaults := session.defaults.save user } (.login response.controller)
        exact ⟨by rw [same.calls]; simp, same.attempts, same.started⟩
      · simp

/-- What a step does to the sign-ins that wait, and which completions it calls. -/
structure SignInStep (state : Session) (event : SessionEvent) (after : Session) : Prop where
  /-- The calls are those of the completions that the services hold. -/
  calls : after.calls = state.calls ++ (state.called event).toList
  /-- Sign-ins are started, but never forgotten as started. -/
  started : state.started ≤ after.started
  /-- A sign-in waits only if it did before and is not answered by the event, or is new. -/
  attempts : ∀ attempt ∈ after.attempts,
    ((∃ source ∈ state.attempts, source.number = attempt.number) ∧
      event.answered ≠ some attempt.number) ∨ attempt.number = state.started

/-- An event without an answer that leaves the sign-ins alone calls nothing. -/
theorem SameSignIns.signInStep (same : SameSignIns after state) (silent : state.called event = none)
    (open_ : event.answered = none) : SignInStep state event after where
  calls := by rw [same.calls, silent]; simp
  started := same.started.ge
  attempts := by
    -- Whoever waited before waits still.
    intro attempt member
    rw [same.attempts] at member
    exact .inl ⟨⟨attempt, member, rfl⟩, by simp [open_]⟩

/-- An answer for good is awaited no more, and calls the completion that the service holds. -/
theorem signInStep_answer (number : Nat) (answered : event.answered = some number)
    (calls : after.calls = state.calls ++ (state.called event).toList)
    (started : after.started = state.started)
    (attempts : after.attempts = (state.answer number).attempts) : SignInStep state event after where
  calls := calls
  started := started.ge
  attempts := by
    intro attempt member
    rw [attempts] at member
    obtain ⟨before, other⟩ := List.mem_filter.mp member
    refine .inl ⟨⟨attempt, before, rfl⟩, ?_⟩
    rw [answered]
    intro same
    cases same
    simp at other

/-- The answer to a sign-in is taken while the sign-in waits for it. -/
theorem waiting_of_didSignIn {result : SignInResult}
    (taken : state.didSignIn number provider result = some after) :
    { number := number, provider := provider, isGranted := false } ∈ state.attempts := by
  unfold didSignIn at taken
  split at taken
  · assumption
  · cases taken

/-- The data of a user are taken while a granted sign-in waits for them. -/
theorem waiting_of_didRetrieveData {answer : DataAnswer}
    (taken : state.didRetrieveData number answer = some after) :
    { number := number, provider := answer.provider, isGranted := true } ∈ state.attempts := by
  unfold didRetrieveData at taken
  split at taken
  · assumption
  · cases taken

/-- An answer to a sign-in calls the completion, or asks for the data of the user. -/
theorem signInStep_didSignIn {result : SignInResult}
    (taken : state.didSignIn number provider result = some after) :
    SignInStep state (.didSignIn number provider result) after := by
  unfold didSignIn at taken
  split at taken
  · have called := calls_complete (state.status.answer number) provider none
    cases result with
    | granted =>
      cases taken
      refine ⟨by simp [Session.called, grant, status], Nat.le_refl _, ?_⟩
      intro attempt member
      -- Granting keeps the numbers.
      obtain ⟨source, before, rfl⟩ := List.mem_map.mp member
      refine .inl ⟨⟨source, before, ?_⟩, fun answered => (by cases answered)⟩
      split <;> rfl
    | _ =>
      cases taken
      exact signInStep_answer number rfl called.1 called.2.2 called.2.1
  · cases taken

/-- The data of a user call the completion if the service reports them. -/
theorem signInStep_didRetrieveData {answer : DataAnswer}
    (taken : state.didRetrieveData number answer = some after) :
    SignInStep state (.didRetrieveData number answer) after := by
  unfold didRetrieveData at taken
  split at taken
  · cases reported : answer.reported with
    | none =>
      rw [reported] at taken
      cases taken
      exact signInStep_answer number rfl (by simp [Session.called, reported, Session.answer]) rfl rfl
    | some user =>
      rw [reported] at taken
      cases taken
      have called := calls_complete (state.answer number) answer.provider user
      refine signInStep_answer number rfl ?_ called.2.2 called.2.1
      rw [called.1]
      simp [Session.called, reported, held, Session.answer]
  · cases taken

/-- Every step does this to the sign-ins. -/
theorem signInStep_of_next (taken : state.next storyboard event = some after) :
    SignInStep state event after := by
  cases event with
  | didFinishLaunching =>
    cases taken
    have fresh := attempts_didFinishLaunching state.defaults state.shortcutItem state.started
      state.calls
    refine ⟨?_, fresh.2.ge, ?_⟩
    · rw [calls_didFinishLaunching]
      simp [called]
    · intro attempt member
      rw [fresh.1] at member
      cases member
  | loginPressed asked =>
    have pressed : state.loginPressed asked = some after := by
      cases asked <;> exact taken
    obtain ⟨controller, _, rfl⟩ := Option.map_eq_some_iff.mp pressed
    refine ⟨by simp [called, signIn], Nat.le_succ _, ?_⟩
    intro attempt member
    -- The new sign-in comes last.
    rcases List.mem_append.mp member with before | latest
    · exact .inl ⟨⟨attempt, before, rfl⟩, fun answered => (by cases answered)⟩
    · cases List.mem_singleton.mp latest
      exact .inr rfl
  | didSignIn number provider result => exact signInStep_didSignIn taken
  | didRetrieveData number answer => exact signInStep_didRetrieveData taken
  | openURL isGoogle isFacebook scheme => exact (sameSignIns_openURL taken).signInStep rfl rfl
  | performActionFor type => exact (sameSignIns_performActionFor taken).signInStep rfl rfl
  | dismissed =>
    cases taken
    exact SameSignIns.signInStep ⟨rfl, rfl, rfl⟩ rfl rfl
  | logoutPressed =>
    have pressed : state.logoutPressed = some after := taken
    unfold logoutPressed at pressed
    split at pressed
    · cases pressed
      have same := sameSignIns_presentCurrentUserUI ((state.signOut .facebook).signOut .google)
      exact SameSignIns.signInStep ⟨same.attempts, same.started, same.calls⟩ rfl rfl
    · cases pressed
  | authenticated controller success =>
    have ended : state.authenticated controller success = some after := taken
    unfold authenticated at ended
    split at ended
    · cases success with
      | true =>
        cases ended
        have same := sameSignIns_performSegue
          { state with authentications := state.authentications.erase controller } (.touch controller)
        exact SameSignIns.signInStep ⟨same.attempts, same.started, same.calls⟩ rfl rfl
      | false =>
        cases ended
        exact SameSignIns.signInStep ⟨rfl, rfl, rfl⟩ rfl rfl
    · cases ended
  | alertConfirmed controller =>
    have confirmed : state.alertConfirmed controller = some after := taken
    unfold alertConfirmed at confirmed
    split at confirmed
    · cases confirmed
      exact SameSignIns.signInStep ⟨rfl, rfl, rfl⟩ rfl rfl
    · cases confirmed
  | animationEnded controller =>
    have ended : state.animationEnded controller = some after := taken
    unfold animationEnded at ended
    split at ended
    · cases ended
      have same := sameSignIns_performSegue
        { state with animations := state.animations.erase controller } (.start controller)
      exact SameSignIns.signInStep ⟨same.attempts, same.started, same.calls⟩ rfl rfl
    · cases ended
  | touchIdSwitched isOn =>
    have switched : state.touchIdSwitched isOn = some after := taken
    unfold touchIdSwitched at switched
    split at switched
    · cases switched
      exact SameSignIns.signInStep ⟨rfl, rfl, rfl⟩ rfl rfl
    · cases switched
  | lastCardSaved lastCard =>
    have saved : state.lastCardSaved lastCard = some after := taken
    unfold lastCardSaved at saved
    split at saved
    · cases saved
      exact SameSignIns.signInStep ⟨rfl, rfl, rfl⟩ rfl rfl
    · cases saved

end Session

end CardGuru
