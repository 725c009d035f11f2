import CardGuru.Firebase.Scenario
import CardGuru.Firebase.ShownNodes

/-! Before the server has acknowledged its writes, the client shows what they make of the server data. -/

namespace CardGuru

open Layers (ofWrites)

namespace WriteTree

variable {tree after : WriteTree} {history : List (WriteTree × Event)} {comparator : StringComparator}

/-- A write of the program is recorded over the others, except for an update without fields. -/
theorem applyUserWrite_ok {writeId : ℤ} {write : DatabaseWrite}
    (done : tree.applyUserWrite writeId write = some after) :
    (write.overwrites = [] ∧ after = tree) ∨
      (write.overwrites ≠ [] ∧ tree.lastWriteId < writeId ∧
        after = ⟨tree.comparator,
          (write.record tree.comparator writeId).layer tree.comparator [] tree.visibleWrites,
          tree.allWrites ++ [write.record tree.comparator writeId], writeId⟩) := by
  -- Only the update asks whether there is anything to write.
  cases write with
  | setValue path value =>
    simp only [applyUserWrite, addOverwriteAtPath] at done
    split at done
    · cases done
      exact .inr ⟨by simp [DatabaseWrite.overwrites], ‹_›,
        by simp [DatabaseWrite.record, WriteRecord.layer, DatabaseWrite.path]⟩
    · cases done
  | removeValue path =>
    simp only [applyUserWrite, addOverwriteAtPath] at done
    split at done
    · cases done
      exact .inr ⟨by simp [DatabaseWrite.overwrites], ‹_›, by
        simp [DatabaseWrite.record, WriteRecord.layer, DatabaseWrite.path, DatabaseWrite.replacement]⟩
    · cases done
  | updateChildValues path values =>
    simp only [applyUserWrite, isEmpty_compoundWriteFromDictionary, addMergeAtPath] at done
    split at done
    · rename_i nothing
      cases done
      exact .inl ⟨by simp [DatabaseWrite.overwrites, List.isEmpty_iff.mp nothing], rfl⟩
    · rename_i something
      split at done
      · cases done
        refine .inr ⟨?_, ‹_›, by simp [DatabaseWrite.record, WriteRecord.layer]⟩
        simpa [DatabaseWrite.overwrites] using something
      · cases done

/-- No earlier write made above the path of an acknowledged one is still pending. -/
def AcksOutermost (tree : WriteTree) : Event → Prop
  | .ackUserWrite writeId => ∀ removed ∈ tree.allWrites, removed.writeId = writeId →
      ∀ record ∈ tree.allWrites, record.writeId < writeId →
        -- Only an earlier write of something above matters.
        record.containsPath removed.path = true → removed.path <+: record.path
  | _ => True

instance : ∀ (tree : WriteTree) (event : Event), Decidable (AcksOutermost tree event)
  | _, .userWrite _ _ => .isTrue trivial
  | _, .ackUserWrite _ => inferInstanceAs (Decidable (∀ _ ∈ _, _ → ∀ _ ∈ _, _ → _ → _))
  | _, .removeAllWrites => .isTrue trivial

/-- Whether an event uses clear names only. -/
def Event.Clear (comparator : StringComparator) : Event → Prop
  | .userWrite _ write => write.val.Clear comparator
  | _ => True

instance (comparator : StringComparator) : ∀ event : Event, Decidable (event.Clear comparator)
  | .userWrite _ write => inferInstanceAs (Decidable (write.val.Clear comparator))
  | .ackUserWrite _ => .isTrue trivial
  | .removeAllWrites => .isTrue trivial

/-- The writes that are pending after an event, with their numbers. -/
def pendingAfter (pending : List (ℤ × UserWrite)) : Event → List (ℤ × UserWrite)
  -- An update without fields is over at once.
  | .userWrite writeId write =>
    if write.val.overwrites.isEmpty then pending else pending ++ [(writeId, write)]
  | .ackUserWrite writeId => pending.filter fun entry => entry.1 ≠ writeId
  | .removeAllWrites => []

/-- The writes that are pending after some events. -/
def pending (events : List Event) : List (ℤ × UserWrite) :=
  events.foldl pendingAfter []

/-- What is recorded of pending writes. -/
def recorded (comparator : StringComparator) (pending : List (ℤ × UserWrite)) : List WriteRecord :=
  pending.map fun entry => entry.2.val.record comparator entry.1

/-- Removing a number from ascending records leaves all others. -/
theorem filter_removed {before later : List WriteRecord} {removed : WriteRecord}
    (ascending : (before ++ removed :: later).Pairwise fun earlier later => earlier.writeId < later.writeId) :
    (before ++ removed :: later).filter (fun record => record.writeId ≠ removed.writeId) =
      before ++ later := by
  obtain ⟨_, tail, between⟩ := List.pairwise_append.mp ascending
  -- Numbers ascend, so no other record has the number.
  have smaller : ∀ record ∈ before, record.writeId ≠ removed.writeId := fun record member =>
    (between record member removed List.mem_cons_self).ne
  have larger : ∀ record ∈ later, record.writeId ≠ removed.writeId := fun record member =>
    ((List.pairwise_cons.mp tail).1 record member).ne'
  rw [List.filter_append, List.filter_cons_of_neg (by simp),
    List.filter_eq_self.mpr (by simpa using smaller), List.filter_eq_self.mpr (by simpa using larger)]

/-- One event keeps the records layered and equal to those of the pending writes. -/
theorem Layered.next {pending : List (ℤ × UserWrite)} {event : Event} (layered : tree.Layered)
    (records : tree.allWrites = recorded tree.comparator pending) (outermost : AcksOutermost tree event)
    (clear : event.Clear tree.comparator) (taken : tree.next event = some after) :
    after.Layered ∧ after.comparator = tree.comparator ∧
      after.allWrites = recorded tree.comparator (pendingAfter pending event) := by
  cases event with
  | userWrite writeId write =>
    rcases applyUserWrite_ok taken with ⟨nothing, rfl⟩ | ⟨something, newer, rfl⟩
    · exact ⟨layered, rfl, by simpa [pendingAfter, nothing] using records⟩
    · refine ⟨?_, rfl, ?_⟩
      · have sound := DatabaseWrite.Clear.sound_record clear writeId
        simpa using layered.add sound (by simpa using newer)
      · simp [pendingAfter, something, recorded, records]
  | ackUserWrite writeId =>
    obtain ⟨⟨_, changed⟩, done, rfl⟩ := Option.map_eq_some_iff.mp taken
    obtain ⟨before, removed, later, split, rfl, _, rfl⟩ := removeWriteId_ok done
    have ascending := layered.ascending
    rw [split] at ascending
    -- The removal leaves the layers of the others, and the filter drops the same record.
    refine ⟨layered.removing split fun record member covers => ?_, comparator_removing, ?_⟩
    · exact outermost removed (by simp [split]) rfl record (by simp [split, member])
        ((List.pairwise_append.mp ascending).2.2 record member removed List.mem_cons_self) covers
    · rw [allWrites_removing, ← filter_removed ascending, ← split, records]
      simp [recorded, pendingAfter, List.filter_map, Function.comp_def]
  | removeAllWrites =>
    cases taken
    refine ⟨⟨CompoundWrite.sound_emptyWrite, ?_, ?_, ?_, CompoundWrite.layers_emptyWrite⟩, rfl, rfl⟩ <;>
      simp [removeAllWrites]

/-- A card is saved, renamed and deleted, and the first of the writes is acknowledged. -/
def edited : List Event :=
  [.userWrite 0 Scenario.cardSaved, .userWrite 1 Scenario.cardRenamed, .userWrite 2 Scenario.cardDeleted,
    .ackUserWrite 0]

/-- A comparison that calls the two spellings of an accented letter the same. -/
def accented : StringComparator where
  filed name := if name = Key.decomposed then Key.composed else name
  filed_filed name := by
    -- The composed name is filed as itself.
    by_cases same : name = Key.decomposed
    · rw [if_pos same, if_neg (by decide)]
    · rw [if_neg same, if_neg same]

/-- Both names are written, and the first of the writes is acknowledged. -/
def accentedWrites : List Event :=
  [.userWrite 0 ⟨.setValue [Key.composed] [(Key.name, .string "Lidl")], by decide⟩,
    .userWrite 1 ⟨.setValue [Key.decomposed] [(Key.name, .string "Aldi")], by decide⟩, .ackUserWrite 0]

/-- Without clear names the acknowledgement takes along what the other write is to show: paths are compared
plainly, so that neither write is seen to hide the other one, and the tree has one place for both. -/
theorem isEmpty_visibleWrites_accented : ∃ tree,
    Run next (initial accented) (Run.trace next (initial accented) accentedWrites) tree ∧
      tree.allWrites.length = 1 ∧ tree.visibleWrites.isEmpty = true := by
  -- The events are performed one after the other.
  obtain ⟨tree, run, test⟩ : ∃ tree,
      Run next (initial accented) (Run.trace next (initial accented) accentedWrites) tree ∧
        decide (tree.allWrites.length = 1 ∧ tree.visibleWrites.isEmpty = true) = true :=
    Run.of_exec_any (by decide +kernel)
  exact ⟨tree, run, of_decide_eq_true test⟩

/-- Layering what is recorded of writes shows what performing the writes leaves. -/
theorem over_recorded {pending : List (ℤ × UserWrite)} {database : Database}
    (clear : ∀ entry ∈ pending, entry.2.val.Clear comparator)
    (bare : ∀ entry ∈ pending, ∀ found ∈ entry.2.val.overwrites, Layers.Bare database.root.valueAt found.1) :
    (ofWrites (placedWrites (recorded comparator pending))).laidOver database.root.valueAt =
      (database.applyAll (pending.map fun entry => entry.2.val)).root.valueAt := by
  -- Both perform the changes of one write after the other.
  have changes : ∀ values, assignAll ((placedWrites (recorded comparator pending)).map Layers.change) values =
      assignAll ((pending.map fun entry => entry.2.val).flatMap DatabaseWrite.changes) values := by
    clear bare
    induction pending with
    | nil => exact fun _ => rfl
    | cons entry rest ih =>
      intro values
      rw [recorded, List.map_cons, placedWrites_cons, List.map_append, assignAll_append,
        (clear entry List.mem_cons_self).assignAll_record entry.2.property, List.map_cons,
        List.flatMap_cons, assignAll_append]
      exact ih (fun other member => clear other (List.mem_cons_of_mem _ member)) _
  rw [Database.valueAt_applyAll, ← changes, ← Layers.valueAt_foldl, Layers.valueAt_performed]
  · intro found member
    obtain ⟨record, listed, inside⟩ := List.mem_flatMap.mp member
    obtain ⟨entry, present, rfl⟩ := List.mem_map.mp listed
    exact bare entry present found
      (((clear entry present).mem_writes_record entry.2.property entry.1 found).mp inside)
  · intro write member
    obtain ⟨entry, present, rfl⟩ := List.mem_map.mp member
    exact entry.2.property

/-- Whichever way is taken, what is seen at a path are the layers over the server data. -/
theorem calculateCompleteEventCacheAtPath_of_over {server result : Database}
    (sound : tree.visibleWrites.Sound)
    (bare : ∀ place, (tree.visibleWrites.layers place).isSome → Layers.Bare server.root.valueAt place)
    (shown : tree.visibleWrites.layers.laidOver server.root.valueAt = result.root.valueAt)
    {path : Path} (named : ∀ name ∈ path, tree.comparator.Clear name) :
    tree.calculateCompleteEventCacheAtPath path (some (server.get path)) none false =
      some (result.get path) := by
  rw [calculateCompleteEventCacheAtPath_some]
  refine congrArg some ?_
  refine (canonical_shownAtPath sound (server.canonical_get path)).ext_valueAt (result.canonical_get path) ?_
  intro place
  -- Both sides are the values of the result below the path.
  have data : ∀ place, server.root.valueAt (path ++ place) = (server.get path).valueAt place := fun place =>
    (KeyTree.valueAt_get server.root path place).symm
  rw [valueAt_shownAtPath sound (StringComparator.filedPath_eq named) bare data, shown]
  exact (KeyTree.valueAt_get result.root path place).symm

/-- With layered records, what is seen at a path is what the recorded writes make of the server data. -/
theorem Layered.calculateCompleteEventCacheAtPath {server : Database} {pending : List (ℤ × UserWrite)}
    (layered : tree.Layered) (records : tree.allWrites = recorded tree.comparator pending)
    (clear : ∀ entry ∈ pending, entry.2.val.Clear tree.comparator)
    (bare : ∀ entry ∈ pending, ∀ found ∈ entry.2.val.overwrites, Layers.Bare server.root.valueAt found.1)
    {path : Path} (named : ∀ name ∈ path, tree.comparator.Clear name) :
    tree.calculateCompleteEventCacheAtPath path (some (server.get path)) none false =
      some ((server.applyAll (pending.map fun entry => entry.2.val)).get path) := by
  -- What is layered are the replacements of the pending writes.
  have layers := layered.layers
  rw [records] at layers
  have shown := over_recorded clear bare
  rw [← layers] at shown
  refine calculateCompleteEventCacheAtPath_of_over layered.sound (fun place replaced => ?_) shown named
  rw [layers] at replaced
  obtain ⟨record, member, write, listed, rfl⟩ := exists_of_replaced replaced
  obtain ⟨entry, present, rfl⟩ := List.mem_map.mp member
  exact bare entry present write
    (((clear entry present).mem_writes_record entry.2.property entry.1 write).mp listed)

end WriteTree

end CardGuru
