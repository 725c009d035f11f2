import CardGuru.App.Requests
import Mathlib.Data.List.Nodup

/-! Pending uploads: each is started by one save, under a task number and a path of its own. -/

namespace CardGuru

namespace App

variable {platform : Platform} {app after start final : App} {history : List (App × Action)}

/-- The upload that an action starts: a save with filled fields, while there is a user. -/
def startedUpload (app : App) : Action → Option Upload
  | .saveCard name barcode image uuid =>
    -- The fields are checked before anything is uploaded.
    match app.screen with
    | .edit edit _ =>
      if EditCardTableViewController.isEnteredDataValid name barcode then
        (DatabaseService.saveCardImage app.defaults image uuid).map fun (path, data) =>
          { task := app.nextTask, path := path, data := data,
            card := Card.make edit.uid name barcode image }
      else none
    | _ => none
  | _ => none

/-- The uploads that the saves of a history started, in order. -/
def starts (history : List (App × Action)) : List Upload :=
  history.filterMap fun entry => entry.1.startedUpload entry.2

/-- A started upload has the next task, and it is for the card that is being edited. -/
theorem of_startedUpload {action : Action} {upload : Upload}
    (started : app.startedUpload action = some upload) :
    upload.task = app.nextTask ∧
      ∃ edit detailed, app.screen = .edit edit detailed ∧ upload.card.uid = edit.uid := by
  -- Only a save on the edit screen with valid values starts an upload.
  unfold startedUpload at started
  split at started
  · split at started
    · rename_i edit detailed shown
      split at started
      · obtain ⟨result, _, rfl⟩ := Option.map_eq_some_iff.mp started
        exact ⟨rfl, edit, detailed, shown, rfl⟩
      · cases started
    · cases started
  · cases started

/-- The upload that an action ends with a delivered address. -/
def completedUpload : Action → Option (Nat × String)
  | .uploadFinished task (.stored url) => some (task, url)
  | _ => none

/-- The uploads that ended with a delivered address in a history, in order. -/
def completions (history : List (App × Action)) : List (Nat × String) :=
  history.filterMap fun entry => completedUpload entry.2

@[simp] theorem starts_snoc {action : Action} :
    starts (history ++ [(app, action)]) = starts history ++ (app.startedUpload action).toList := by
  -- The last entry starts at most one upload.
  cases started : app.startedUpload action <;> simp [starts, started]

@[simp] theorem completions_snoc {action : Action} :
    completions (history ++ [(app, action)]) =
      completions history ++ (completedUpload action).toList := by
  -- The last entry completes at most one upload.
  cases completed : completedUpload action <;> simp [completions, completed]

/-- What a step makes of the pending uploads. -/
theorem step_uploads {action : Action} (stepped : Steps platform app action after) :
    after.uploads =
      match action with
      | .uploadFinished task _ => app.uploads.filter fun upload => upload.task ≠ task
      | .launch => []
      | _ => app.uploads ++ (app.startedUpload action).toList := by
  -- Only saves start uploads, and only their ends and a new process remove some.
  cases stepped with
  | saveCard shown filled fresh removed =>
    simp only [saved, startedUpload, shown, filled, if_true]
    cases DatabaseService.saveCardImage app.defaults _ _ <;> simp
  | saveCardAlert shown missing => simp [startedUpload, shown, missing]
  | homeViewDidLoad => simp [startedUpload]
  | signedIn shown => simp [startedUpload]
  | deleteCard shown removed deleted => simp [startedUpload, popToRoot]
  | backToRoot shown => simp [startedUpload, popToRoot]
  | scanned shown fresh stored => simp [startedUpload, added, popToRoot]
  | addNewCard shown filled fresh stored => simp [startedUpload, added, popToRoot]
  | _ => simp [startedUpload]

/-- Every upload pending after a step was pending before or was just started. -/
theorem pending_cases {action : Action} (stepped : Steps platform app action after)
    {upload : Upload} (pending : upload ∈ after.uploads) :
    upload ∈ app.uploads ∨ app.startedUpload action = some upload := by
  -- Ends of uploads only remove.
  rw [step_uploads stepped] at pending
  split at pending
  · exact .inl (List.mem_of_mem_filter pending)
  · simp at pending
  · rcases List.mem_append.mp pending with old | new
    · exact .inl old
    · exact .inr (Option.mem_toList.mp new)

/-- Task numbers are never taken back, and an upload takes one. -/
theorem step_nextTask {action : Action} (stepped : Steps platform app action after) :
    app.nextTask + (app.startedUpload action).toList.length ≤ after.nextTask := by
  -- Loads and saves advance the counter, and nothing else changes it.
  cases stepped with
  | homeViewDidLoad => simp [nextTask_withLoad, startedUpload]
  | signedIn shown => simp [nextTask_withLoad, startedUpload]
  | saveCard shown filled fresh removed =>
    have bound : ∀ found : Option Upload, found.toList.length ≤ 1 := by
      intro found
      cases found <;> simp
    exact Nat.add_le_add_left (bound _) _
  | saveCardAlert shown missing => simp [startedUpload, shown, missing]
  | deleteCard shown removed deleted =>
    simp only [popToRoot, reloading, startedUpload]
    split
    · simp [nextTask_withLoad]
    · simp
  | _ => exact Nat.le_refl _

/-- The path of a started upload was not used before and is used from then on. -/
theorem step_uploaded {action : Action} (stepped : Steps platform app action after) :
    after.uploaded = app.uploaded ++ (app.startedUpload action).toList.map Upload.path ∧
      ∀ upload, app.startedUpload action = some upload → upload.path ∉ app.uploaded := by
  -- A save checks that the name of its picture is unused.
  cases stepped with
  | @saveCard edit detailed server name barcode uuid image shown filled fresh removed =>
    have named : ∀ result ∈ DatabaseService.saveCardImage app.defaults image uuid,
        result.1 ∉ app.uploaded := by
      intro result found
      unfold isFreshUpload at fresh
      obtain ⟨userRef, current, rfl⟩ := Option.map_eq_some_iff.mp found
      simp only [DatabaseService.saveCardImage, current, Option.map_some, Option.all_some,
        Bool.and_eq_true, Bool.not_eq_true', List.contains_eq_mem, decide_eq_false_iff_not] at fresh
      exact fresh.1
    simp only [saved, startedUpload, shown, filled, if_true]
    constructor
    · cases DatabaseService.saveCardImage app.defaults image uuid <;> simp
    · intro upload started
      obtain ⟨result, found, rfl⟩ := Option.map_eq_some_iff.mp started
      exact named result found
  | saveCardAlert shown missing => simp [startedUpload, shown, missing]
  | homeViewDidLoad => simp [startedUpload]
  | signedIn shown => simp [startedUpload]
  | deleteCard shown removed deleted => simp [startedUpload, popToRoot]
  | backToRoot shown => simp [startedUpload, popToRoot]
  | scanned shown fresh stored => simp [startedUpload, added, popToRoot]
  | addNewCard shown filled fresh stored => simp [startedUpload, added, popToRoot]
  | _ => simp [startedUpload]

/-- The numbering of the uploads of a run: tasks and paths are used once, and what is pending or
has delivered an address was started. -/
structure Numbered (platform : Platform) (history : List (App × Action)) (app : App) : Prop where
  /-- Started tasks lie below the counter. -/
  below : ∀ upload ∈ starts history, upload.task < app.nextTask
  /-- Started paths are on record. -/
  used : ∀ upload ∈ starts history, upload.path ∈ app.uploaded
  /-- No two started uploads share a task. -/
  tasks : ((starts history).map Upload.task).Nodup
  /-- No two started uploads share a path. -/
  paths : ((starts history).map Upload.path).Nodup
  /-- Pending uploads were started. -/
  pending : ∀ upload ∈ app.uploads, upload ∈ starts history
  /-- A delivered address names the path of the upload that delivered it. -/
  delivered : ∀ task url, (task, url) ∈ completions history →
    ∃ upload ∈ starts history, upload.task = task ∧ platform.referenceForURL url = .ok upload.path

private theorem numbered_step {action : Action} (numbered : Numbered platform history app)
    (stepped : Steps platform app action after) :
    Numbered platform (history ++ [(app, action)]) after := by
  -- Tasks are numbered upwards, and the path of a new upload was never used.
  have counted := step_nextTask stepped
  obtain ⟨recorded, fresh⟩ := step_uploaded stepped
  have started_lt : ∀ upload, app.startedUpload action = some upload →
      upload.task < after.nextTask := by
    intro upload started
    rw [started] at counted
    rw [(of_startedUpload started).1]
    exact counted
  constructor
  · intro upload member
    rw [starts_snoc] at member
    rcases List.mem_append.mp member with old | new
    · have := numbered.below upload old
      omega
    · exact started_lt upload (Option.mem_toList.mp new)
  · intro upload member
    rw [starts_snoc] at member
    rw [recorded]
    rcases List.mem_append.mp member with old | new
    · exact List.mem_append_left _ (numbered.used upload old)
    · exact List.mem_append_right _ (List.mem_map_of_mem new)
  · rw [starts_snoc, List.map_append]
    refine List.Nodup.append numbered.tasks ?_ ?_
    · cases app.startedUpload action <;> simp
    · intro task old new
      obtain ⟨first, member, rfl⟩ := List.mem_map.mp old
      obtain ⟨second, latest, same⟩ := List.mem_map.mp new
      have earlier := numbered.below first member
      rw [← same, (of_startedUpload (Option.mem_toList.mp latest)).1] at earlier
      omega
  · rw [starts_snoc, List.map_append]
    refine List.Nodup.append numbered.paths ?_ ?_
    · cases app.startedUpload action <;> simp
    · intro path old new
      obtain ⟨first, member, rfl⟩ := List.mem_map.mp old
      obtain ⟨second, latest, same⟩ := List.mem_map.mp new
      have earlier := numbered.used first member
      rw [← same] at earlier
      exact fresh second (Option.mem_toList.mp latest) earlier
  · intro upload member
    rw [starts_snoc]
    rcases pending_cases stepped member with old | new
    · exact List.mem_append_left _ (numbered.pending upload old)
    · exact List.mem_append_right _ (Option.mem_toList.mpr new)
  · intro task url member
    rw [completions_snoc] at member
    rw [starts_snoc]
    rcases List.mem_append.mp member with old | new
    · obtain ⟨upload, inside, rest⟩ := numbered.delivered task url old
      exact ⟨upload, List.mem_append_left _ inside, rest⟩
    · -- The upload that delivers its address now was pending.
      cases stepped with
      | @uploadStored ended upload address server found named written =>
        have same : (ended, address) = (task, url) := by
          simpa [completedUpload, eq_comm] using new
        cases same
        refine ⟨upload, List.mem_append_left _ ?_, by simpa using List.find?_some found, named⟩
        exact numbered.pending upload (List.mem_of_find?_eq_some found)
      | _ => simp [completedUpload] at new

/-- In every run that starts without pending uploads those pending are some of those started, in the
same order. -/
theorem uploads_sublist_starts (run : Run (App.next platform) start history final)
    (idle : start.uploads = []) : final.uploads.Sublist (starts history) := by
  induction run with
  | nil => simp [idle]
  | snoc earlier taken ih =>
    rw [step_uploads (steps_of_next taken), starts_snoc]
    -- A step appends the upload that it starts, or leaves some out.
    split
    · exact ((List.filter_sublist).trans ih).trans (List.sublist_append_left _ _)
    · exact List.nil_sublist _
    · exact ih.append (List.Sublist.refl _)

/-- Removing a pending upload by its task takes away this one only. -/
theorem perm_of_found {uploads : List Upload} {upload : Upload} {task : Nat}
    (tasks : (uploads.map Upload.task).Nodup)
    (found : uploads.find? (fun upload => upload.task = task) = some upload) :
    uploads.Perm (upload :: uploads.filter fun other => other.task ≠ task) := by
  have member := List.mem_of_find?_eq_some found
  have named : upload.task = task := by simpa using List.find?_some found
  refine (List.perm_cons_erase member).trans (List.Perm.of_eq ?_)
  rw [(List.Nodup.of_map _ tasks).erase_eq_filter]
  congr 1
  refine List.filter_congr fun other inside => ?_
  -- Pending uploads with one task are one upload.
  have same : other.task = task → other = upload := fun equal =>
    List.inj_on_of_nodup_map tasks inside member (equal.trans named.symm)
  by_cases equal : other = upload
  · simp [equal, named]
  · have different : other.task ≠ task := fun task => equal (same task)
    simp [equal, different]

/-- In every run that starts without pending uploads the uploads are numbered. -/
theorem numbered_of_run (run : Run (App.next platform) start history final)
    (idle : start.uploads = []) : Numbered platform history final := by
  -- Each step extends the numbering by at most one upload.
  induction run with
  | nil => exact ⟨by simp [starts], by simp [starts], by simp [starts], by simp [starts],
      by simp [idle], by simp [completions]⟩
  | snoc earlier taken ih => exact numbered_step ih (steps_of_next taken)

/-- Started uploads with one task number are one upload. -/
theorem Numbered.eq_of_task (numbered : Numbered platform history app) {first second : Upload}
    (firstStarted : first ∈ starts history) (secondStarted : second ∈ starts history)
    (same : first.task = second.task) : first = second :=
  -- The task determines the entry of the list.
  List.inj_on_of_nodup_map numbered.tasks firstStarted secondStarted same

/-- Started uploads with one path are one upload. -/
theorem Numbered.eq_of_path (numbered : Numbered platform history app) {first second : Upload}
    (firstStarted : first ∈ starts history) (secondStarted : second ∈ starts history)
    (same : first.path = second.path) : first = second :=
  -- The path determines the entry of the list.
  List.inj_on_of_nodup_map numbered.paths firstStarted secondStarted same

end App

end CardGuru
