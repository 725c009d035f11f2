import CardGuru.App.Scenario
import CardGuru.App.Uploads

/-! Writes reach the account of the operation that causes them as long as no upload ends while
somebody else is the current user. -/

namespace CardGuru

namespace App

variable {platform : Platform} {start final : App} {history : List (App × Action)}

/-- The user who was current when the operation behind a step was performed. -/
def PerformedBy (history : List (App × Action)) (state : App) (userRef : String) : Action → Prop
  -- An upload ends long after the save that started it.
  | .uploadFinished task _ =>
    ∃ save ∈ history, ∃ upload, save.1.startedUpload save.2 = some upload ∧ upload.task = task ∧
      DatabaseService.getCurrentUserRef save.1.defaults = some userRef
  | _ => DatabaseService.getCurrentUserRef state.defaults = some userRef

/-- Every write of the run was caused by an operation of some user, and it lies among the cards of
the user who performed that operation. -/
def WritesOwnCards (platform : Platform) (history : List (App × Action)) : Prop :=
  ∀ state action after write, (state, action) ∈ history → state.next platform action = some after →
    after.server.writes = state.server.writes ++ [write] →
    (∃ userRef, PerformedBy history state userRef action) ∧
      ∀ userRef, PerformedBy history state userRef action →
        DatabaseService.cardsPath userRef <+: write.path

/-- Whenever an upload delivers its address, the current user is the one of its save. -/
def UploadsEndForSaver (history : List (App × Action)) : Prop :=
  ∀ save ∈ history, ∀ completion ∈ history, ∀ upload url,
    save.1.startedUpload save.2 = some upload →
    completion.2 = .uploadFinished upload.task (.stored url) →
    DatabaseService.getCurrentUserRef completion.1.defaults =
      DatabaseService.getCurrentUserRef save.1.defaults

private theorem issued_of_append {state after : App} {action : Action} {write : DatabaseWrite}
    (taken : state.next platform action = some after)
    (appended : after.server.writes = state.server.writes ++ [write]) :
    state.request action = some write := by
  -- A step without a request would have left the record of writes as it was.
  have performed := step_request (steps_of_next taken)
  cases issued : state.request action with
  | none =>
    rw [issued] at performed
    rw [performed.2] at appended
    simp at appended
  | some other =>
    rw [issued] at performed
    rw [performed.2] at appended
    simpa using appended

/-- If uploads deliver their addresses only while the user of their save is current, every write
goes to the account that caused it. -/
theorem writes_own_cards (run : Run (App.next platform) start history final)
    (idle : start.uploads = []) (kept : UploadsEndForSaver history) :
    WritesOwnCards platform history := by
  intro state action after write member taken appended
  have issued := issued_of_append taken appended
  obtain ⟨current, isCurrent, under⟩ := request_path issued
  have immediate : PerformedBy history state current action →
      (∀ userRef, PerformedBy history state userRef action → userRef = current) →
      (∃ userRef, PerformedBy history state userRef action) ∧
        ∀ userRef, PerformedBy history state userRef action →
          DatabaseService.cardsPath userRef <+: write.path := by
    intro performed only
    refine ⟨⟨current, performed⟩, fun userRef other => ?_⟩
    rw [only userRef other]
    exact under
  cases action with
  | uploadFinished task result =>
    -- The upload was pending, so one of the saves of the run started it.
    obtain ⟨earlier, _, continued, reaching, _⟩ := run.reached member
    unfold request at issued
    rw [isCurrent, Option.bind_some] at issued
    cases result with
    | stored url =>
      obtain ⟨upload, found, _⟩ := Option.map_eq_some_iff.mp issued
      have named : upload.task = task := by simpa using List.find?_some found
      have begun := (numbered_of_run reaching idle).pending upload (List.mem_of_find?_eq_some found)
      obtain ⟨⟨saver, save⟩, saved, starts⟩ := List.mem_filterMap.mp begun
      subst named
      have inside := continued.subset saved
      have same := kept _ inside _ member upload url starts rfl
      apply immediate
      · exact ⟨_, inside, upload, starts, rfl, same ▸ isCurrent⟩
      · rintro other ⟨otherSave, otherInside, otherUpload, otherStarts, otherTask, otherOwner⟩
        have agrees := kept _ otherInside _ member otherUpload url otherStarts (by rw [otherTask])
        rw [isCurrent, otherOwner] at agrees
        exact (Option.some.inj agrees).symm
    | putDataFailed => simp [requestFor] at issued
    | downloadURLFailed url => simp [requestFor] at issued
  | _ =>
    apply immediate isCurrent
    intro userRef performed
    exact Option.some.inj (performed.symm.trans isCurrent)

/-- The steps of a save whose upload ends while its user is still signed in. -/
def Scenario.promptUpload : List Action :=
  Scenario.addFirstCard ++
    [.cellSegue 0, .editSegue, .saveCard "Aldi" "456" (.photo 1) "U1",
      .uploadFinished 1 (.stored (Scenario.urlOf "U1"))]

/-- A save and its upload under one user write among the cards of that user only. -/
theorem writes_own_cards_promptUpload :
    WritesOwnCards Platform.ascii (Scenario.history Scenario.installed Scenario.promptUpload) := by
  -- From the sign-in on, the same user is the current one.
  have facts : (Scenario.reached Scenario.installed Scenario.promptUpload).any (fun _ => true) = true ∧
      ∀ entry ∈ Scenario.history Scenario.installed Scenario.promptUpload,
        DatabaseService.getCurrentUserRef entry.1.defaults = some "anna@mail_com" ∨
          entry.2 matches .signedIn _ := by
    decide +kernel
  obtain ⟨possible, signed⟩ := facts
  obtain ⟨final, run, _⟩ :=
    Scenario.run_of_reached Scenario.installed Scenario.promptUpload (fun _ => true) possible
  refine writes_own_cards run rfl ?_
  rintro ⟨saver, save⟩ saved ⟨ender, completion⟩ ended upload url starts rfl
  have first := signed _ saved
  have second := signed _ ended
  cases save with
  | saveCard name barcode image uuid =>
    simp only [Bool.false_eq_true, or_false] at first second
    exact second.trans first.symm
  | _ => simp [startedUpload] at starts

/-- The steps of a save whose upload ends after another user has signed in. -/
def Scenario.foreignUpload : List Action :=
  Scenario.addFirstCard ++
    [.cellSegue 0, .editSegue, .saveCard "Aldi" "456" (.photo 1) "U1", .logoutPressed,
      .signedIn Scenario.boris, .uploadFinished 1 (.stored (Scenario.urlOf "U1"))]

/-- An upload that ends after another user has signed in writes among the cards of that user. -/
theorem foreign_upload_writes_elsewhere :
    ¬ ∀ (start final : App) (history : List (App × Action)), start.uploads = [] →
        Run (App.next Platform.ascii) start history final →
        WritesOwnCards Platform.ascii history := by
  intro always
  -- The last entry is the completion, and the entry of the save names the first user.
  have facts :
      let history := Scenario.history Scenario.installed Scenario.foreignUpload
      (Scenario.reached Scenario.installed Scenario.foreignUpload).any (fun _ => true) = true ∧
        history.any (fun completion =>
          completion.2 = .uploadFinished 1 (.stored (Scenario.urlOf "U1")) &&
            (completion.1.next Platform.ascii completion.2).any (fun after =>
              after.server.writes = completion.1.server.writes ++
                [updateRequest "boris@mail_com"
                  (Card.make Scenario.firstId.text "Aldi" "456" (.photo 1))
                  (Scenario.urlOf "U1")])) = true ∧
        history.any (fun save =>
          (save.1.startedUpload save.2).any (fun upload => upload.task = 1) &&
            DatabaseService.getCurrentUserRef save.1.defaults = some "anna@mail_com") = true := by
    decide +kernel
  obtain ⟨possible, completes, saves⟩ := facts
  obtain ⟨final, run, _⟩ :=
    Scenario.run_of_reached Scenario.installed Scenario.foreignUpload (fun _ => true) possible
  have owned := always _ _ _ rfl run
  obtain ⟨⟨state, action⟩, member, rest⟩ := List.any_eq_true.mp completes
  simp only [Bool.and_eq_true, decide_eq_true_eq, Option.any_eq_true] at rest
  obtain ⟨rfl, after, taken, appended⟩ := rest
  obtain ⟨⟨saver, save⟩, saved, same⟩ := List.any_eq_true.mp saves
  simp only [Bool.and_eq_true, decide_eq_true_eq, Option.any_eq_true] at same
  obtain ⟨⟨upload, started, named⟩, current⟩ := same
  have performed : PerformedBy (Scenario.history Scenario.installed Scenario.foreignUpload) state "anna@mail_com"
      (.uploadFinished 1 (.stored (Scenario.urlOf "U1"))) :=
    ⟨_, saved, upload, started, named, current⟩
  have under := (owned _ _ _ _ member taken appended).2 _ performed
  revert under
  decide +kernel

end App

end CardGuru
