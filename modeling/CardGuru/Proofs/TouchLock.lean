import CardGuru.Session.Progress

/-! The Touch ID lock holds exactly in the runs in which no shortcut or URL leads to cards while the
process is locked, whichever controllers the main storyboard has. -/

namespace CardGuru

namespace Session

variable {storyboard : Storyboard} {defaults : UserDefaults} {shortcutItem : Option LastCard}
  {state final after : Session}
  {event : SessionEvent} {history earlier : List (Session × SessionEvent)}

/-- No event makes a screen of the main storyboard the root while somebody is logged in with Touch ID
enabled and the process is not unlocked. -/
def LockHolds (storyboard : Storyboard) (defaults : UserDefaults)
    (earlier : List (Session × SessionEvent)) (state : Session) (event : SessionEvent) : Prop :=
  ∀ after, state.next storyboard event = some after → event.presents = true →
    after.defaults.isLoggedIn = true → after.defaults.isTouchIDEnabled = true →
    isUnlocked defaults (earlier ++ [(state, event)]) = false →
    after.root.any RootScreen.isMain = false

/-- While the process is locked for somebody who is logged in, the shortcut for adding a card is not
chosen, and the card opened last is not asked for if it has a picture. -/
def KeepsOut (defaults : UserDefaults) (earlier : List (Session × SessionEvent)) (state : Session)
    (event : SessionEvent) : Prop :=
  state.defaults.isLoggedIn = true → state.defaults.isTouchIDEnabled = true →
    isUnlocked defaults earlier = false → opensCards state event = false

instance (earlier : List (Session × SessionEvent)) (state : Session) (event : SessionEvent) :
    Decidable (KeepsOut defaults earlier state event) :=
  inferInstanceAs (Decidable (_ → _ → _ → _))

/-- An event that leads to cards presents a screen, keeps the account and unlocks nothing. -/
private theorem of_opensCards (opens : opensCards state event = true)
    (taken : state.next storyboard event = some after) :
    event.presents = true ∧ SameAccount after.defaults state.defaults ∧
      ∀ unlocked, unlockedAfter unlocked state event = unlocked := by
  cases event with
  | openURL isGoogle isFacebook scheme =>
    refine ⟨?_, .of_eq (defaults_openURL taken), fun _ => rfl⟩
    -- The event asks for the card opened last.
    simp only [opensCards, SessionEvent.addsCard, Bool.false_or, Bool.and_eq_true] at opens
    exact opens.1
  | performActionFor type =>
    refine ⟨?_, sameAccount_performActionFor taken, fun _ => rfl⟩
    simp only [opensCards, SessionEvent.addsCard, SessionEvent.opensLast, Bool.or_eq_true,
      Bool.and_eq_true, decide_eq_true_eq] at opens
    simp only [SessionEvent.presents, Bool.or_eq_true, decide_eq_true_eq]
    rcases opens with add | ⟨last, _⟩
    · exact .inl (.inr add)
    · exact .inr last
  | _ => simp [opensCards, SessionEvent.addsCard, SessionEvent.opensLast] at opens

/-- A single event keeps the lock exactly if it does not lead past it. -/
private theorem lockHolds_iff_keepsOut (taken : state.next storyboard event = some after) :
    LockHolds storyboard defaults earlier state event ↔ KeepsOut defaults earlier state event := by
  constructor
  · intro holds loggedIn enabled locked
    by_contra opens
    rw [Bool.not_eq_false] at opens
    obtain ⟨presents, same, unchanged⟩ := of_opensCards opens taken
    -- The event makes a screen with cards the root, while the process is as locked as before.
    have still : isUnlocked defaults (earlier ++ [(state, event)]) = false := by
      rw [isUnlocked_snoc, unchanged]
      exact locked
    have hidden := holds after taken presents (same.isLoggedIn.trans loggedIn)
      (same.isTouchIDEnabled.trans enabled) still
    have shown := isMain_of_presentation (presentation_of_presents presents taken)
    rw [hidden, loggedIn, opens] at shown
    cases shown
  · intro keeps next possible presents loggedIn enabled locked
    rw [taken] at possible
    cases possible
    rw [isMain_of_presentation (presentation_of_presents presents taken)]
    cases opens : opensCards state event with
    | false => exact Bool.and_false _
    | true =>
      -- Then the process was locked before, and the event is excluded.
      obtain ⟨_, same, unchanged⟩ := of_opensCards opens taken
      rw [isUnlocked_snoc, unchanged] at locked
      have closed := keeps (same.isLoggedIn.symm.trans loggedIn)
        (same.isTouchIDEnabled.symm.trans enabled) locked
      rw [opens] at closed
      cases closed

/-- The lock holds throughout a run exactly if no event of the run leads past it. -/
theorem touch_lock_holds_iff
    (run : Run (next storyboard) (launched defaults shortcutItem) history final) :
    Run.Always (LockHolds storyboard defaults) history ↔ Run.Always (KeepsOut defaults) history :=
  -- Each event decides for itself, given what happened before.
  run.always_congr lockHolds_iff_keepsOut

/-- A device on which somebody is logged in with Touch ID enabled. -/
def Scenario.locked : UserDefaults where
  isLoggedIn := true
  isTouchIDEnabled := true
  user := some { name := "Anna", email := "anna@mail.com", absoluteURL := none }

/-- The search is opened, the authentication fails once, and after it a card is added. -/
def Scenario.searchThenAdd : List SessionEvent :=
  [.performActionFor openSearch, .authenticated 1 false, .alertConfirmed 1, .authenticated 1 true,
    .performActionFor addCard]

/-- The lock holds when a card is added after the authentication. -/
theorem touch_lock_holds_searchThenAdd :
    Run.Always (LockHolds .complete Scenario.locked)
      (Run.trace (next .complete) (launched Scenario.locked none) Scenario.searchThenAdd) := by
  have possible : (Run.exec (next .complete) (launched Scenario.locked none)
      Scenario.searchThenAdd).any (fun _ => true) = true := by decide +kernel
  obtain ⟨final, ends, _⟩ := (Option.any_eq_true _ _).mp possible
  exact (touch_lock_holds_iff (Run.of_exec ends)).mpr (by decide +kernel)

/-- Where every storyboard lookup succeeds, the shortcut for adding a card leads past the lock of a
process that has just been launched. -/
theorem touch_lock_bypassed :
    ¬ ∀ (defaults : UserDefaults) (shortcutItem : Option LastCard) (final : Session)
        (history : List (Session × SessionEvent)),
        Run (next .complete) (launched defaults shortcutItem) history final →
        Run.Always (LockHolds .complete defaults) history := by
  intro always
  let locked := launched Scenario.locked none
  have chosen : locked.next .complete (.performActionFor addCard) =
      some (locked.newWindow.setRoot (.tabBar .addCard)) := rfl
  obtain ⟨_, last⟩ := Run.always_snoc.mp (always _ _ _ _ (Run.nil.snoc chosen))
  have hidden := last _ chosen rfl rfl rfl rfl
  cases hidden

end Session

end CardGuru
