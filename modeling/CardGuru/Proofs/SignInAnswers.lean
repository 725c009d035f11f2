import CardGuru.Lib.Callback
import CardGuru.Session.SignIns

/-! Every sign-in is answered exactly once in the runs in which the services report every answer, and
no sign-in is started before the last one of its provider has been answered. -/

namespace CardGuru

namespace DataAnswer

/-- Whether a service reports an answer at all. -/
def isReported (answer : DataAnswer) : Bool :=
  match answer with
  -- Firebase is ignored unless it signs in a user with a name and an e-mail address.
  | google _ => answer.name.isSome && answer.email.isSome
  | facebook .error => true
  -- A profile from Facebook needs a picture too.
  | facebook (.result user) =>
    answer.name.isSome && answer.email.isSome && (user.bind ProfileValue.absoluteURL).isSome

/-- The answers that are reported are those that call a completion, with a user exactly if there is a
name and an e-mail address. -/
theorem isReported_iff (answer : DataAnswer) : answer.isReported = true ↔
    ∃ user, answer.reported = some user ∧
      user.isSome = (answer.name.isSome && answer.email.isSome) := by
  cases answer with
  | google answer =>
    cases answer with
    | error => simp [isReported, name, result, provider, retrieveData, reported]
    | user displayName email photoURL =>
      cases displayName <;> cases email <;>
        simp [isReported, name, DataAnswer.email, result, provider, retrieveData, reported]
  | facebook answer =>
    cases answer with
    | error =>
      simp [isReported, name, email, result, provider, fbSignInCall, reported]
    | result user =>
      cases user with
      | none => simp [isReported, name, result, provider, fbSignInCall, reported]
      | some user =>
        cases named : user.name <;> cases mailed : user.email <;> cases shown : user.absoluteURL <;>
          simp [isReported, name, email, result, provider, fbSignInCall, reported, named,
            mailed, shown]

end DataAnswer

namespace SessionEvent

/-- Whether an event brings a name and an e-mail address. -/
def carriesUser : SessionEvent → Bool
  | didRetrieveData _ answer => answer.name.isSome && answer.email.isSome
  | _ => false

end SessionEvent

namespace Session

variable {storyboard : Storyboard} {defaults : UserDefaults} {shortcutItem : Option LastCard}
  {session state after final : Session} {event : SessionEvent}
  {history : List (Session × SessionEvent)} {number : Nat}

/-- What the completion of a sign-in has been called with so far. -/
def callsOf (session : Session) (number : Nat) : List (Option User) :=
  session.calls.filterMap fun call => if call.1 = number then some call.2 else none

/-- At the end of a run the completion of every sign-in that has been answered for good has been
called exactly once, with a user exactly if the answer brought a name and an e-mail address. -/
def AnsweredOnce (history : List (Session × SessionEvent)) (final : Session) : Prop :=
  ∀ entry ∈ history, ∀ number, entry.2.answered = some number →
    ∃ user, final.callsOf number = [user] ∧ user.isSome = entry.2.carriesUser

/-- After an answer without a name and an e-mail address the progress indicator is not shown, and
nobody is logged in. -/
def Resets (storyboard : Storyboard) (state : Session) (event : SessionEvent) : Prop :=
  ∀ after, state.next storyboard event = some after → event.answered ≠ none →
    event.carriesUser = false →
    after.isShowingProgress = false ∧ after.defaults.isLoggedIn = false

/-- An answer for good arrives while the service holds the completion of its own sign-in, and it is
one that the service reports. -/
def Reported (state : Session) : SessionEvent → Prop
  | .didSignIn _ _ .granted => True
  | .didSignIn number provider _ => state.held provider = some number
  | .didRetrieveData number answer =>
    state.held answer.provider = some number ∧ answer.isReported = true
  | _ => True

instance (state : Session) (event : SessionEvent) : Decidable (Reported state event) := by
  unfold Reported
  split <;> infer_instance

/-- An answer belongs to a sign-in that waits for it. -/
private theorem exists_attempt (taken : state.next storyboard event = some after)
    (answered : event.answered = some number) :
    ∃ attempt ∈ state.attempts, attempt.number = number := by
  cases event with
  | didSignIn attempt provider result =>
    have member := waiting_of_didSignIn taken
    cases result with
    | granted => cases answered
    | _ =>
      cases answered
      exact ⟨_, member, rfl⟩
  | didRetrieveData attempt answer =>
    cases answered
    exact ⟨_, waiting_of_didRetrieveData taken, rfl⟩
  | _ => cases answered

/-- A completion that a step calls belongs to the answered sign-in or to a later one. -/
private theorem called_later {call : Nat × Option User}
    (taken : state.next storyboard event = some after) (calls : state.called event = some call) :
    ∃ number, event.answered = some number ∧ number ≤ call.1 := by
  -- The service holds the completion of the answered sign-in or of a later one.
  cases event with
  | didSignIn attempt provider result =>
    obtain ⟨latest, holds, notLater⟩ := held_of_waiting (waiting_of_didSignIn taken)
    cases result with
    | granted => cases calls
    | _ =>
      simp only [Session.called, holds, Option.map_some, Option.some.injEq] at calls
      subst calls
      exact ⟨attempt, rfl, notLater⟩
  | didRetrieveData attempt answer =>
    obtain ⟨latest, holds, notLater⟩ := held_of_waiting (waiting_of_didRetrieveData taken)
    simp only [Session.called, Option.bind_eq_some_iff, holds, Option.map_some,
      Option.some.injEq] at calls
    obtain ⟨user, _, rfl⟩ := calls
    exact ⟨attempt, rfl, notLater⟩
  | _ => cases calls

/-- The numbers of the sign-ins that a history answers for good. -/
def answeredIn (history : List (Session × SessionEvent)) : List Nat :=
  history.filterMap fun entry => entry.2.answered

/-- No sign-in has been answered for good twice, none that was still waits, and the completions called
so far are those of the steps. -/
structure Settled (history : List (Session × SessionEvent)) (state : Session) : Prop where
  once : (answeredIn history).Nodup
  /-- New sign-ins get new numbers. -/
  started : ∀ number ∈ answeredIn history, number < state.started
  closed : ∀ number ∈ answeredIn history, ∀ attempt ∈ state.attempts, attempt.number ≠ number
  calls : state.calls = history.filterMap fun entry => entry.1.called entry.2

/-- Every step keeps the answered sign-ins settled. -/
private theorem Settled.next (settled : Settled history state)
    (taken : state.next storyboard event = some after) :
    Settled (history ++ [(state, event)]) after := by
  have step := signInStep_of_next taken
  have members : ∀ number ∈ answeredIn (history ++ [(state, event)]),
      number ∈ answeredIn history ∨ event.answered = some number := by
    intro number member
    simpa [answeredIn, List.filterMap_append] using member
  -- A sign-in answered now was waiting until now, and so it was started before.
  have unanswered : ∀ number, event.answered = some number →
      number < state.started ∧ number ∉ answeredIn history := by
    intro number answered
    obtain ⟨attempt, member, rfl⟩ := exists_attempt taken answered
    exact ⟨state.number_lt member, fun closed => settled.closed _ closed attempt member rfl⟩
  have begun : ∀ number ∈ answeredIn (history ++ [(state, event)]), number < state.started := by
    intro number member
    rcases members number member with before | now
    · exact settled.started number before
    · exact (unanswered number now).1
  refine ⟨?_, ?_, ?_, ?_⟩
  · cases answered : event.answered with
    | none => simpa [answeredIn, List.filterMap_append, answered] using settled.once
    | some number =>
      have new := (unanswered number answered).2
      have extended : answeredIn (history ++ [(state, event)]) = answeredIn history ++ [number] := by
        simp [answeredIn, List.filterMap_append, answered]
      rw [extended, List.nodup_append]
      refine ⟨settled.once, by simp, ?_⟩
      intro earlier before latest last same
      cases List.mem_singleton.mp last
      exact new (same ▸ before)
  · intro number member
    exact Nat.lt_of_lt_of_le (begun number member) step.started
  · intro number member attempt inside same
    subst same
    rcases step.attempts attempt inside with ⟨⟨source, earlier, named⟩, open_⟩ | new
    · rcases members _ member with before | now
      · exact settled.closed _ before source earlier named
      · exact open_ now
    · exact absurd new (Nat.ne_of_lt (begun _ member))
  · rw [step.calls, settled.calls, List.filterMap_append]
    cases called : state.called event <;> simp [called]

/-- In every run the answered sign-ins are settled. -/
private theorem settled_of_run
    (run : Run (next storyboard) (launched defaults shortcutItem) history final) :
    Settled history final := by
  -- Nothing has been answered in the first process.
  induction run with
  | nil =>
    exact ⟨.nil, fun _ => nofun, fun _ => nofun, calls_didFinishLaunching defaults shortcutItem 0 []⟩
  | snoc earlier taken ih => exact ih.next taken

/-- An answer is reported exactly if it calls the completion of its own sign-in as it asks for. -/
private theorem reported_iff : Reported state event ↔
    ∀ number, event.answered = some number →
      ∃ user, state.called event = some (number, user) ∧ user.isSome = event.carriesUser := by
  -- A sign-in that fails always calls the stored completion; data do so if they are reported.
  cases event with
  | didSignIn number provider result =>
    cases result <;> simp [Reported, SessionEvent.answered, called, SessionEvent.carriesUser]
  | didRetrieveData number answer =>
    simp only [Reported, SessionEvent.answered, called, SessionEvent.carriesUser,
      DataAnswer.isReported_iff, Option.some.injEq, forall_eq', Option.bind_eq_some_iff,
      Option.map_eq_some_iff, Prod.mk.injEq]
    constructor
    · rintro ⟨holds, user, reported, carries⟩
      exact ⟨user, ⟨user, reported, number, holds, rfl, rfl⟩, carries⟩
    · rintro ⟨user, ⟨other, reported, latest, holds, own, same⟩, carries⟩
      subst own same
      exact ⟨holds, other, reported, carries⟩
  | _ => simp [Reported, SessionEvent.answered]

/-- A completion without a user dismisses the indicator and takes the logged-in state back. -/
theorem resets_complete (session : Session) {provider : Provider}
    (holds : session.held provider = some number) :
    (session.complete provider none).isShowingProgress = false ∧
      (session.complete provider none).defaults.isLoggedIn = false := by
  obtain ⟨response, stored, _⟩ := Option.map_eq_some_iff.mp holds
  simp [complete, stored, UserDefaults.saveLoggedState]

/-- A reported answer without a name and an e-mail address resets the indicator and the settings. -/
private theorem resets_of_reported (reported : Reported state event) :
    Resets storyboard state event := by
  -- The reported answer calls the completion that the service holds, without a user.
  intro after taken answers empty
  obtain ⟨number, answered⟩ := Option.ne_none_iff_exists'.mp answers
  obtain ⟨user, calls, carries⟩ := reported_iff.mp reported number answered
  rw [empty, Option.isSome_eq_false_iff, Option.isNone_iff_eq_none] at carries
  subst carries
  cases event with
  | didSignIn attempt provider result =>
    have ends : state.didSignIn attempt provider result = some after := taken
    unfold didSignIn at ends
    rw [if_pos (waiting_of_didSignIn taken)] at ends
    cases result with
    | granted => cases answered
    | _ =>
      cases ends
      exact resets_complete (state.status.answer attempt) reported
  | didRetrieveData attempt answer =>
    have ends : state.didRetrieveData attempt answer = some after := taken
    obtain ⟨other, silent, latest, holds, same⟩ : ∃ user, answer.reported = some user ∧
        ∃ latest, state.held answer.provider = some latest ∧ (latest, user) = (number, none) := by
      simpa [called, Option.bind_eq_some_iff, Option.map_eq_some_iff] using calls
    cases same
    unfold didRetrieveData at ends
    rw [if_pos (waiting_of_didRetrieveData taken), silent] at ends
    cases ends
    exact resets_complete (state.answer attempt) holds
  | _ => cases answered

/-- Every sign-in is answered exactly once, and every answer without a name and an e-mail address
dismisses the progress indicator and takes the logged-in state back, exactly if every answer is
reported while the service holds the completion of the answered sign-in. -/
theorem answered_once_iff
    (run : Run (next storyboard) (launched defaults shortcutItem) history final) :
    (AnsweredOnce history final ∧ Run.Within (Resets storyboard) history) ↔
      Run.Within Reported history := by
  have settled := settled_of_run run
  have later : ∀ entry ∈ history, ∀ call, entry.1.called entry.2 = some call →
      ∃ number, entry.2.answered = some number ∧ number ≤ call.1 := by
    rintro ⟨past, event⟩ member call calls
    obtain ⟨_, _, _, _, taken⟩ := run.reached member
    exact called_later taken calls
  -- The completions called at the end of the run are those that its steps called.
  have calls : ∀ number, final.callsOf number = Callback.callsOf
      (fun entry : Session × SessionEvent => entry.1.called entry.2) history number := by
    intro number
    simp [callsOf, settled.calls, List.filterMap_filterMap, Callback.callsOf]
  -- By the general rule about callbacks, every answer has to call its own sign-in back.
  have once : AnsweredOnce history final ↔ Run.Within Reported history := by
    simp only [AnsweredOnce, calls]
    refine (Callback.called_once_iff settled.once later).trans ?_
    exact forall₂_congr fun entry _ => reported_iff.symm
  rw [once]
  constructor
  · rintro ⟨reported, _⟩
    exact reported
  · intro reported
    exact ⟨reported, fun entry member => resets_of_reported (reported entry member)⟩

/-- A sign-in with Facebook is cancelled, and one with Google succeeds without a photo. -/
def Scenario.secondTry : List SessionEvent :=
  [.loginPressed .facebook, .didSignIn 0 .facebook .notGranted, .loginPressed .google,
    .didSignIn 1 .google .granted,
    .didRetrieveData 1 (.google (.user (some "Anna") (some "anna@mail.com") none))]

/-- Both sign-ins are answered exactly once, and the first one is reset. -/
theorem answered_once_secondTry :
    ∃ final, Run (next .main) Scenario.fresh
        (Run.trace (next .main) Scenario.fresh Scenario.secondTry) final ∧
      AnsweredOnce (Run.trace (next .main) Scenario.fresh Scenario.secondTry) final ∧
      Run.Within (Resets .main) (Run.trace (next .main) Scenario.fresh Scenario.secondTry) := by
  -- Every answer of the run is reported to its own sign-in.
  have possible : (Run.exec (next .main) Scenario.fresh Scenario.secondTry).any
      (fun _ => true) = true := by decide +kernel
  obtain ⟨final, ends, _⟩ := (Option.any_eq_true _ _).mp possible
  exact ⟨final, Run.of_exec ends, (answered_once_iff (Run.of_exec ends)).mpr (by decide +kernel)⟩

/-- A sign-in with Google is granted, but Firebase does not accept it. -/
def Scenario.refusedByFirebase : List SessionEvent :=
  [.loginPressed .google, .didSignIn 0 .google .granted, .didRetrieveData 0 (.google .error)]

/-- A sign-in that Firebase refuses is not answered at all. -/
theorem refused_by_firebase_unanswered :
    ¬ ∀ (defaults : UserDefaults) (shortcutItem : Option LastCard) (final : Session)
        (history : List (Session × SessionEvent)),
        Run (next .main) (launched defaults shortcutItem) history final →
        AnsweredOnce history final ∧ Run.Within (Resets .main) history := by
  intro always
  have possible : (Run.exec (next .main) Scenario.fresh Scenario.refusedByFirebase).any
      (fun final => final.callsOf 0 = []) = true := by decide +kernel
  obtain ⟨final, ends, silent⟩ := (Option.any_eq_true _ _).mp possible
  obtain ⟨once, _⟩ := always _ _ _ _ (Run.of_exec ends)
  have answered : ∃ entry ∈ Run.trace (next .main) Scenario.fresh Scenario.refusedByFirebase,
      entry.2.answered = some 0 := by decide +kernel
  obtain ⟨entry, member, zero⟩ := answered
  obtain ⟨user, only, _⟩ := once entry member 0 zero
  -- The completion of the only sign-in is never called.
  cases (of_decide_eq_true silent).symm.trans only

end Session

end CardGuru
