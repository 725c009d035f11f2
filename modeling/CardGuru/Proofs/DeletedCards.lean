import CardGuru.App.Scenario

/-! A deleted record stays deleted exactly as long as no later step stores values in its place. -/

namespace CardGuru

namespace App

/-- Every record that was ever deleted is absent. -/
def RemovedAbsent (app : App) : Prop :=
  ∀ place, .removeValue place ∈ app.server.writes → (app.server.database.get place).isEmpty = true

/-- A field of the current user's record with this uid lies at the given place or below it. -/
def RecordUnder (app : App) (place : Path) (uid : String) (fields : List Key) : Prop :=
  ∃ userRef, DatabaseService.getCurrentUserRef app.defaults = some userRef ∧
    ∃ field ∈ fields, place <+: DatabaseService.recordPath userRef uid ++ [field]

/-- The action stores values of a card whose record lies at the given place or below it. -/
def StoresUnder (app : App) (place : Path) : Action → Prop
  -- An upload completion stores the card that its save captured.
  | .uploadFinished task (.stored _) =>
    ∃ upload, app.uploads.find? (fun upload => upload.task = task) = some upload ∧
      app.RecordUnder place upload.card.uid [Key.name, Key.barcode, Key.absoluteURL]
  | .saveNotesClicked _ =>
    ∃ detailed, app.screen = .detailed detailed ∧
      app.RecordUnder place detailed.uid [Key.notes]
  | .scanned _ _ autoId =>
    (∃ hasDelegate, app.screen = .scanner hasDelegate) ∧
      app.RecordUnder place autoId.text [Key.name, Key.barcode]
  | .addNewCard name barcode autoId =>
    (∃ hasDelegate, app.screen = .scanner hasDelegate) ∧
      (name.isEmpty || barcode.isEmpty) = false ∧
      app.RecordUnder place autoId.text [Key.name, Key.barcode]
  | _ => False

variable {platform : Platform} {app start final : App} {history : List (App × Action)}

/-- All the writes of the program store values and delete no single field. -/
private theorem request_plain {action : Action} {write : DatabaseWrite}
    (issued : app.request action = some write) : ∀ field ∈ write.fields, field.2 ≠ none := by
  -- Each kind of request lists its values explicitly.
  obtain ⟨userRef, _, requested⟩ := Option.bind_eq_some_iff.mp issued
  unfold requestFor at requested
  split at requested
  · split at requested <;> cases requested
    simp [newCardRequest, DatabaseWrite.fields]
  · split at requested
    · split at requested <;> cases requested
      simp [newCardRequest, DatabaseWrite.fields]
    · cases requested
  · split at requested <;> cases requested
    simp [notesRequest, DatabaseWrite.fields]
  · split at requested <;> cases requested
    simp [removeRequest, DatabaseWrite.fields]
  · obtain ⟨upload, _, rfl⟩ := Option.map_eq_some_iff.mp requested
    simp [updateRequest, DatabaseWrite.fields]
  · cases requested

private theorem newCard_storesUnder {place : Path} {userRef name barcode : String}
    {autoId : PushId} :
    (newCardRequest userRef name barcode autoId).StoresUnder place ↔
      ∃ field ∈ [Key.name, Key.barcode],
        place <+: DatabaseService.recordPath userRef autoId.text ++ [field] := by
  -- A generated key is a single piece of the path.
  have piece : pathWithString autoId.text = [autoId.key] := pathWithString_text autoId.key
  simp [DatabaseWrite.StoresUnder, newCardRequest, DatabaseWrite.fields, DatabaseWrite.path,
    DatabaseService.recordPath, piece, or_and_right, exists_or]

/-- An action stores values under a place exactly when the write it issues does. -/
theorem storesUnder_iff {place : Path} {action : Action} :
    app.StoresUnder place action ↔
      ∃ write, app.request action = some write ∧ write.StoresUnder place := by
  -- Without a current user both sides fail; with one they name the same fields.
  unfold request StoresUnder RecordUnder
  cases DatabaseService.getCurrentUserRef app.defaults with
  | none =>
    cases action with
    | uploadFinished task result => cases result <;> simp
    | _ => simp
  | some userRef =>
    simp only [Option.bind_some, Option.some.injEq, exists_eq_left']
    cases action with
    | uploadFinished task result =>
      cases result with
      | stored url =>
        cases found : app.uploads.find? fun upload => upload.task = task with
        | none => simp [requestFor, found]
        | some upload =>
          simp [requestFor, found, updateRequest, DatabaseWrite.StoresUnder, DatabaseWrite.fields,
            DatabaseWrite.path, or_and_right, exists_or]
      | putDataFailed => simp [requestFor]
      | downloadURLFailed url => simp [requestFor]
    | saveNotesClicked text =>
      cases shown : app.screen <;>
        simp [requestFor, shown, notesRequest, DatabaseWrite.StoresUnder, DatabaseWrite.fields,
          DatabaseWrite.path]
    | deleteCard =>
      cases shown : app.screen <;>
        simp [requestFor, shown, removeRequest, DatabaseWrite.StoresUnder, DatabaseWrite.fields]
    | scanned name barcode autoId =>
      cases shown : app.screen <;> simp [requestFor, shown, newCard_storesUnder]
    | addNewCard name barcode autoId =>
      cases shown : app.screen with
      | scanner hasDelegate =>
        simp only [requestFor, shown]
        cases name.isEmpty || barcode.isEmpty <;> simp [newCard_storesUnder]
      | _ => simp [requestFor, shown]
    | _ => simp [requestFor]

/-- A step that stores nothing under deleted records leaves all of them absent. -/
private theorem removedAbsent_step {after : App} {action : Action} (absent : app.RemovedAbsent)
    (spared : ∀ place, .removeValue place ∈ app.server.writes → ¬ app.StoresUnder place action)
    (taken : app.next platform action = some after) : after.RemovedAbsent := by
  -- The new write either is itself a deletion or stores nothing at deleted places.
  have performed := step_request (steps_of_next taken)
  intro place removed
  cases issued : app.request action with
  | none =>
    rw [issued] at performed
    rw [performed.1]
    exact absent place (performed.2 ▸ removed)
  | some write =>
    rw [issued] at performed
    rw [performed.1]
    rw [performed.2] at removed
    rcases List.mem_append.mp removed with old | new
    · refine Database.get_apply_isEmpty (fun stores => ?_) (absent place old)
      exact spared place old (storesUnder_iff.mpr ⟨write, issued, stores⟩)
    · have same : .removeValue place = write := by simpa using new
      subst same
      exact congrArg KeyTree.isEmpty
        (Database.get_apply_self app.server.database (.removeValue place))

/-- A step that stores something under a deleted record brings it back. -/
private theorem returned_of_storesUnder {after : App} {action : Action} {place : Path}
    (removed : .removeValue place ∈ app.server.writes) (stores : app.StoresUnder place action)
    (taken : app.next platform action = some after) : ¬ after.RemovedAbsent := by
  -- The deletion stays on record, and the stored field is there.
  intro absent
  obtain ⟨write, issued, under⟩ := storesUnder_iff.mp stores
  have performed := step_request (steps_of_next taken)
  rw [issued] at performed
  have still : .removeValue place ∈ after.server.writes := by
    rw [performed.2]
    exact List.mem_append_left _ removed
  have present : (after.server.database.get place).isEmpty = false := by
    rw [performed.1]
    exact Database.get_apply_present (request_plain issued) under
  rw [absent place still] at present
  exact Bool.noConfusion present

/-- Deleted records stay absent through a whole run exactly when none of its steps stores values
of a card whose record was deleted before. -/
theorem removed_stays_absent (run : Run (App.next platform) start history final)
    (unwritten : start.server.writes = []) :
    (∀ state ∈ Run.states history final, state.RemovedAbsent) ↔
      Run.Within (fun app action =>
        ∀ place, .removeValue place ∈ app.server.writes → ¬ app.StoresUnder place action) history := by
  constructor
  · -- The state after an offending step would show the record again.
    rintro absent ⟨state, action⟩ member place removed stores
    obtain ⟨_, after, _, _, taken⟩ := run.reached member
    exact returned_of_storesUnder removed stores taken
      (absent after (run.after_mem_states member taken))
  · -- Nothing was deleted at the start, and each step keeps deleted records absent.
    intro within
    have initially : start.RemovedAbsent := by
      intro place removed
      simp [unwritten] at removed
    exact run.invariant_states (fun now spared taken => removedAbsent_step now spared taken)
      initially within

/-- The steps of a deletion of the only card. -/
def Scenario.deletion : List Action :=
  Scenario.addFirstCard ++ [.cellSegue 0, .editSegue, .deleteCard, .snapshotRead 1, .loadDelivered 1]

/-- A deletion without pending uploads leaves the record absent to the end. -/
theorem removed_stays_absent_deletion :
    ∃ final, Run (App.next Platform.ascii) Scenario.installed
        (Scenario.history Scenario.installed Scenario.deletion) final ∧
      ∀ state ∈ Run.states (Scenario.history Scenario.installed Scenario.deletion) final, state.RemovedAbsent := by
  obtain ⟨final, run, _⟩ :=
    Scenario.run_of_reached Scenario.installed Scenario.deletion (fun _ => true) (by decide +kernel)
  refine ⟨final, run, (removed_stays_absent run rfl).mpr ?_⟩
  -- Values are stored only before anything is deleted.
  have silent : ∀ entry ∈ Scenario.history Scenario.installed Scenario.deletion,
      entry.1.server.writes.all (fun write => write matches .setValue _ _) = true ∨
        entry.2 matches .snapshotRead _ | .loadDelivered _ := by decide +kernel
  intro entry member place removed stores
  rcases silent entry member with early | late
  · have stored := List.all_eq_true.mp early _ removed
    simp at stored
  · cases action : entry.2 <;> simp [action, StoresUnder] at late stores

/-- The steps of a save whose upload ends after the card was deleted. -/
def Scenario.lateUpload : List Action :=
  Scenario.addFirstCard ++
    [.cellSegue 0, .editSegue, .saveCard "Aldi" "456" (.photo 1) "U1", .editSegue, .deleteCard,
      .uploadFinished 1 (.stored (Scenario.urlOf "U1"))]

/-- An upload that ends after the deletion of its card creates the record again. -/
theorem late_upload_returns_record :
    ¬ ∀ (start final : App) (history : List (App × Action)), start.server.writes = [] →
        Run (App.next Platform.ascii) start history final →
        ∀ state ∈ Run.states history final, state.RemovedAbsent := by
  intro always
  let place := DatabaseService.recordPath "anna@mail_com" Scenario.firstId.text
  -- At the end the record was deleted, and yet there is something in its place.
  obtain ⟨final, run, facts⟩ := Scenario.run_of_reached Scenario.installed Scenario.lateUpload
    (fun final => !(final.server.database.get place).isEmpty &&
      final.server.writes.contains (.removeValue place)) (by decide +kernel)
  have absent := always _ _ _ rfl run final (by simp [Run.states])
  simp only [Bool.and_eq_true, Bool.not_eq_true', List.contains_iff_mem] at facts
  rw [absent place facts.2] at facts
  exact Bool.noConfusion facts.1

end App

end CardGuru
