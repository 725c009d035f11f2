import CardGuru.Firebase.WriteTree

/-! The recorded writes as layers over the server data: what recording a write and removing one leave. -/

namespace CardGuru

open Layers (ofWrites)

namespace WriteRecord

/-- A record as the writes of the program make it: seen at once, of canonical nodes, and with single
keys as the places of a merge, where all names are filed as they are. -/
structure Sound (comparator : StringComparator) (record : WriteRecord) : Prop where
  visible : record.visible = true
  filed : comparator.filedPath record.path = record.path
  overwrites : ∀ {node : Node}, record.change = .overwrite node → node.Canonical
  merges : ∀ {changedChildren : CompoundWrite}, record.change = .merge changedChildren →
    changedChildren.Sound ∧ ∀ found ∈ changedChildren.writes,
      found.1.length = 1 ∧ comparator.filedPath found.1 = found.1

variable {comparator : StringComparator} {record : WriteRecord} {path : Path}

/-- Every place a record writes lies at its path or below it. -/
theorem path_prefix {write : Path × Node} (member : write ∈ record.writes) : record.path <+: write.1 := by
  unfold writes at member
  split at member
  · simp at member
    simp [member]
  · -- The places of an update are written below its path.
    obtain ⟨found, _, rfl⟩ := List.mem_map.mp member
    exact List.prefix_append _ _

/-- A record replaces everything at a path when one of its places is the path or lies above it. -/
theorem containsPath_iff : record.containsPath path = true ↔ ∃ write ∈ record.writes, write.1 <+: path := by
  unfold containsPath writes
  -- An overwrite has one place, an update one for each field.
  split
  · simp
  · simp only [List.any_eq_true, contains_iff, CompoundWrite.writesAt, List.mem_map]
    constructor
    · rintro ⟨found, member, above⟩
      exact ⟨_, ⟨found, member, rfl⟩, above⟩
    · rintro ⟨_, ⟨found, member, rfl⟩, above⟩
      exact ⟨found, member, above⟩

/-- What lies above a written place lies above the path of its record or is the place itself. -/
theorem Sound.prefix_cases (sound : record.Sound comparator) {write : Path × Node} (member : write ∈ record.writes)
    (shorter : path <+: write.1) : path <+: record.path ∨ write.1 = path := by
  -- The places of a merge are one level below its path.
  cases change : record.change with
  | overwrite node =>
    simp only [writes, change, List.mem_singleton] at member
    subst member
    exact .inl shorter
  | merge changedChildren =>
    simp only [writes, change] at member
    obtain ⟨found, inside, rfl⟩ := List.mem_map.mp member
    obtain ⟨key, single⟩ := List.length_eq_one_iff.mp ((sound.merges change).2 found inside).1
    simp only [single] at shorter ⊢
    rcases List.prefix_concat_iff.mp shorter with whole | above
    · exact .inr whole.symm
    · exact .inl above

/-- Layering a record over the whole tree puts its writes. -/
theorem Sound.layer (sound : record.Sound comparator) {compoundWrite : CompoundWrite}
    (before : compoundWrite.Sound) :
    (record.layer comparator [] compoundWrite).Sound ∧
      (record.layer comparator [] compoundWrite).layers =
        compoundWrite.layers.putAll record.writes := by
  have below : contains [] record.path = true := by simp
  -- The whole tree is layered, so nothing is cut off the path of the record.
  cases change : record.change with
  | overwrite node =>
    simp only [WriteRecord.layer, change, below, if_true, List.length_nil, List.drop_zero,
      sound.filed, writes]
    exact ⟨before.addWrite (sound.overwrites change) _, CompoundWrite.layers_addWrite before.separate _ _⟩
  | merge changedChildren =>
    simp only [WriteRecord.layer, change, below, if_true, List.length_nil, List.drop_zero,
      sound.filed, writes]
    exact before.addCompoundWrite (sound.merges change).1 _

end WriteRecord

namespace WriteTree

/-- The places of all recorded writes, with what is stored there, in order. -/
def placedWrites (records : List WriteRecord) : List (Path × Node) :=
  records.flatMap WriteRecord.writes

@[simp] theorem placedWrites_append (first second : List WriteRecord) :
    placedWrites (first ++ second) = placedWrites first ++ placedWrites second := by
  simp [placedWrites]

@[simp] theorem placedWrites_cons (record : WriteRecord) (records : List WriteRecord) :
    placedWrites (record :: records) = record.writes ++ placedWrites records := rfl

/-- Layering records over the whole tree puts all of their writes. -/
theorem layers_layerTreeFromWrites {comparator : StringComparator} {records : List WriteRecord}
    (sound : ∀ record ∈ records, record.Sound comparator) :
    (layerTreeFromWrites comparator records defaultFilter []).Sound ∧
      (layerTreeFromWrites comparator records defaultFilter []).layers =
        ofWrites (placedWrites records) := by
  -- By induction over the records, from any compound write.
  have general : ∀ {compoundWrite : CompoundWrite}, compoundWrite.Sound →
      (records.foldl (fun compoundWrite record => record.layer comparator [] compoundWrite)
          compoundWrite).Sound ∧
        (records.foldl (fun compoundWrite record => record.layer comparator [] compoundWrite)
            compoundWrite).layers =
          compoundWrite.layers.putAll (placedWrites records) := by
    induction records with
    | nil => exact fun before => ⟨before, rfl⟩
    | cons record records ih =>
      intro compoundWrite before
      obtain ⟨still, layers⟩ := (sound record List.mem_cons_self).layer before
      obtain ⟨last, all⟩ := ih (fun other member => sound other (List.mem_cons_of_mem _ member)) still
      refine ⟨last, all.trans ?_⟩
      rw [layers, placedWrites_cons, Layers.putAll_append]
  have result := general CompoundWrite.sound_emptyWrite
  rw [CompoundWrite.layers_emptyWrite] at result
  simpa [layerTreeFromWrites, defaultFilter, ofWrites] using result

/-- The scan finds a later write that hides the removed one, or there is none; and it notices every
write below the removed path unless it stops before. -/
theorem scanWrites_spec {removed : WriteRecord} {index : ℕ} {records : List (WriteRecord × ℕ)}
    {overlaps : Bool} (visible : ∀ entry ∈ records, entry.1.visible = true) :
    ((scanWrites removed index records overlaps).1 = true →
      ∃ entry ∈ records, index ≤ entry.2 ∧ entry.1.containsPath removed.path = true) ∧
    ((scanWrites removed index records overlaps).1 = false →
      (∀ entry ∈ records, ¬ (index ≤ entry.2 ∧ entry.1.containsPath removed.path = true)) ∧
      ((scanWrites removed index records overlaps).2 = false →
        overlaps = false ∧ ∀ entry ∈ records, ¬ removed.path <+: entry.1.path)) := by
  induction records generalizing overlaps with
  | nil => simp [scanWrites]
  | cons entry earlier ih =>
    obtain ⟨currentWrite, i⟩ := entry
    have shown : currentWrite.visible = true := visible _ List.mem_cons_self
    have rest : ∀ entry ∈ earlier, entry.1.visible = true := fun entry member =>
      visible entry (List.mem_cons_of_mem _ member)
    rw [scanWrites, if_pos shown]
    -- The scan ends at the first write that hides the removed one.
    by_cases hides : index ≤ i ∧ currentWrite.containsPath removed.path = true
    · rw [if_pos hides]
      exact ⟨fun _ => ⟨_, List.mem_cons_self, hides⟩, fun impossible => by cases impossible⟩
    · rw [if_neg hides]
      obtain ⟨found, absent⟩ := @ih (overlaps || contains removed.path currentWrite.path) rest
      refine ⟨fun yes => ?_, fun no => ?_⟩
      · obtain ⟨entry, member, facts⟩ := found yes
        exact ⟨entry, List.mem_cons_of_mem _ member, facts⟩
      · obtain ⟨none, apart⟩ := absent no
        refine ⟨?_, fun quiet => ?_⟩
        · intro entry member
          rcases List.mem_cons.mp member with rfl | inside
          · exact hides
          · exact none entry inside
        · obtain ⟨before, away⟩ := apart quiet
          simp only [Bool.or_eq_false_iff] at before
          refine ⟨before.1, fun entry member => ?_⟩
          rcases List.mem_cons.mp member with rfl | inside
          · intro below
            rw [← contains_iff, before.2] at below
            cases below
          · exact away entry inside

/-- What the scan of the remaining writes finds about a removed one. -/
def scanned (before later : List WriteRecord) (removed : WriteRecord) : Bool × Bool :=
  scanWrites removed before.length (before ++ later).zipIdx.reverse false

/-- The scan finds a later write that hides the removed one, or no write hides it; and if it
notices no overlap, no remaining write lies below the removed path. -/
theorem scanned_spec {before later : List WriteRecord} {removed : WriteRecord}
    (visible : ∀ record ∈ before ++ later, record.visible = true) :
    ((scanned before later removed).1 = true →
      ∃ record ∈ later, record.containsPath removed.path = true) ∧
    ((scanned before later removed).1 = false →
      (∀ record ∈ later, ¬ record.containsPath removed.path = true) ∧
      ((scanned before later removed).2 = false →
        ∀ record ∈ before ++ later, ¬ removed.path <+: record.path)) := by
  -- The index tells the later writes from those before.
  have indexed : ∀ entry ∈ (before ++ later).zipIdx.reverse,
      entry.1 ∈ before ++ later ∧ (before.length ≤ entry.2 → entry.1 ∈ later) := by
    rintro ⟨record, i⟩ member
    have reads := List.mk_mem_zipIdx_iff_getElem?.mp (List.mem_reverse.mp member)
    refine ⟨List.mem_of_getElem? reads, fun late => ?_⟩
    rw [List.getElem?_append_right late] at reads
    exact List.mem_of_getElem? reads
  have placed : ∀ record ∈ before ++ later, ∃ i, (record, i) ∈ (before ++ later).zipIdx.reverse ∧
      (record ∈ later → ∃ i, (record, i) ∈ (before ++ later).zipIdx.reverse ∧ before.length ≤ i) := by
    intro record member
    obtain ⟨i, reads⟩ := List.mem_iff_getElem?.mp member
    refine ⟨i, List.mem_reverse.mpr (List.mk_mem_zipIdx_iff_getElem?.mpr reads), fun late => ?_⟩
    obtain ⟨j, later_reads⟩ := List.mem_iff_getElem?.mp late
    refine ⟨before.length + j, List.mem_reverse.mpr (List.mk_mem_zipIdx_iff_getElem?.mpr ?_), by omega⟩
    rw [List.getElem?_append_right (by omega)]
    simpa using later_reads
  obtain ⟨found, absent⟩ := @scanWrites_spec removed before.length (before ++ later).zipIdx.reverse false
    fun entry member => visible _ (indexed entry member).1
  refine ⟨fun yes => ?_, fun no => ⟨fun record late hides => ?_, fun quiet record member => ?_⟩⟩
  · obtain ⟨entry, member, late, hides⟩ := found yes
    exact ⟨entry.1, (indexed entry member).2 late, hides⟩
  · obtain ⟨_, _, positioned⟩ := placed record (List.mem_append_right _ late)
    obtain ⟨i, inside, after⟩ := positioned late
    exact (absent no).1 _ inside ⟨after, hides⟩
  · obtain ⟨i, inside, _⟩ := placed record member
    exact ((absent no).2 quiet).2 _ inside

/-- The tree after the removal of a write between others. -/
def removing (tree : WriteTree) (before later : List WriteRecord) (removed : WriteRecord) : WriteTree :=
  let remaining := { tree with allWrites := before ++ later }
  -- A hidden write is not part of what is visible.
  if removed.visible = false ∨ (scanned before later removed).1 = true then remaining
  else if (scanned before later removed).2 then remaining.resetTree
  else { remaining with visibleWrites := takenBack tree.comparator tree.visibleWrites removed }

section Removing

variable {tree : WriteTree} {before later : List WriteRecord} {removed : WriteRecord}

/-- The other writes stay recorded. -/
theorem allWrites_removing : (tree.removing before later removed).allWrites = before ++ later := by
  rw [removing]
  split_ifs <;> rfl

/-- A removal changes nothing about the comparison of names. -/
theorem comparator_removing : (tree.removing before later removed).comparator = tree.comparator := by
  rw [removing]
  split_ifs <;> rfl

end Removing

/-- Removing a number removes the first write that has it. -/
theorem removeWriteId_ok {tree after : WriteTree} {writeId : ℤ} {changed : Bool}
    (done : tree.removeWriteId writeId = some (after, changed)) :
    ∃ before removed later, tree.allWrites = before ++ removed :: later ∧ removed.writeId = writeId ∧
      (∀ record ∈ before, record.writeId ≠ writeId) ∧ after = tree.removing before later removed := by
  unfold removeWriteId at done
  cases found : tree.allWrites.findIdx? fun record => record.writeId = writeId with
  | none => simp [found] at done
  | some index =>
    obtain ⟨within, named, earlier⟩ := List.findIdx?_eq_some_iff_getElem.mp found
    have split : tree.allWrites =
        tree.allWrites.take index ++ tree.allWrites[index] :: tree.allWrites.drop (index + 1) := by
      rw [List.getElem_cons_drop, List.take_append_drop]
    have length : (tree.allWrites.take index).length = index := by
      rw [List.length_take]
      omega
    refine ⟨_, _, _, split, by simpa using named, ?_, ?_⟩
    · intro record member
      obtain ⟨i, inside, rfl⟩ := List.mem_take_iff_getElem.mp member
      simpa using earlier i (by omega)
    · simp only [found, List.getElem?_eq_getElem within, List.eraseIdx_eq_take_drop_succ] at done
      rw [removing, scanned, length]
      -- Only a write to be seen is looked for among the others.
      cases seen : tree.allWrites[index].visible with
      | false =>
        simp only [seen, Bool.not_false, if_true, Option.some.injEq, Prod.mk.injEq] at done
        simp [← done.1]
      | true =>
        rcases scan : scanWrites tree.allWrites[index] index
          (tree.allWrites.take index ++ tree.allWrites.drop (index + 1)).zipIdx.reverse false
          with ⟨shadowed, overlaps⟩
        simp only [seen, scan, Bool.not_true, Bool.false_eq_true, if_false] at done
        cases shadowed <;> cases overlaps <;>
          simp only [if_true, if_false, Bool.false_eq_true, Option.some.injEq, Prod.mk.injEq] at done <;>
          simp [← done.1]

/-- The recorded writes are those to be seen, in the order of their numbers. -/
structure Layered (tree : WriteTree) : Prop where
  sound : tree.visibleWrites.Sound
  records : ∀ record ∈ tree.allWrites, record.Sound tree.comparator
  ascending : tree.allWrites.Pairwise fun earlier later => earlier.writeId < later.writeId
  numbered : ∀ record ∈ tree.allWrites, record.writeId ≤ tree.lastWriteId
  layers : tree.visibleWrites.layers = ofWrites (placedWrites tree.allWrites)

/-- Nothing is recorded before the first write. -/
theorem layered_initial (comparator : StringComparator) : (initial comparator).Layered where
  sound := CompoundWrite.sound_emptyWrite
  records := by simp [initial]
  ascending := by simp [initial]
  numbered := by simp [initial]
  layers := CompoundWrite.layers_emptyWrite

variable {tree after : WriteTree} {record : WriteRecord}

/-- A write with a new largest number is recorded over the others. -/
theorem Layered.add (layered : tree.Layered) (sound : record.Sound tree.comparator)
    (later : tree.lastWriteId < record.writeId) :
    Layered ⟨tree.comparator, record.layer tree.comparator [] tree.visibleWrites,
      tree.allWrites ++ [record], record.writeId⟩ := by
  -- The visible writes and the list grow by the same record.
  obtain ⟨still, layers⟩ := sound.layer layered.sound
  refine ⟨still, ?_, ?_, ?_, ?_⟩
  · intro other member
    rcases List.mem_append.mp member with old | new
    · exact layered.records other old
    · exact List.mem_singleton.mp new ▸ sound
  · refine List.pairwise_append.mpr ⟨layered.ascending, List.pairwise_singleton _ _, ?_⟩
    intro other member last new
    obtain rfl := List.mem_singleton.mp new
    exact (layered.numbered other member).trans_lt later
  · intro other member
    rcases List.mem_append.mp member with old | new
    · exact ((layered.numbered other old).trans_lt later).le
    · exact (List.mem_singleton.mp new ▸ le_refl _)
  · rw [layers, layered.layers, placedWrites_append, ofWrites, ofWrites, Layers.putAll_append]
    simp [placedWrites]

/-- A replaced place of recorded writes is one that a record writes. -/
theorem exists_of_replaced {records : List WriteRecord} {place : Path}
    (replaced : (ofWrites (placedWrites records) place).isSome) :
    ∃ record ∈ records, ∃ write ∈ record.writes, write.1 = place := by
  -- A place is replaced by a write or was replaced before, and nothing was.
  rcases Layers.isSome_putAll replaced with ⟨write, member, rfl⟩ | nothing
  · obtain ⟨record, inside, listed⟩ := List.mem_flatMap.mp member
    exact ⟨record, inside, write, listed, rfl⟩
  · cases nothing

/-- No earlier write replaces everything at the path of a write, unless it lies below that path. -/
def Outermost (before : List WriteRecord) (removed : WriteRecord) : Prop :=
  ∀ record ∈ before, record.containsPath removed.path = true → removed.path <+: record.path

section Removal

variable {comparator : StringComparator} {before later : List WriteRecord} {removed : WriteRecord}

/-- A removed write that no earlier one takes up leaves nothing replaced above its path. -/
private theorem freeAbove_before (outermost : Outermost before removed) :
    Layers.FreeAbove (ofWrites (placedWrites before)) removed.path := by
  intro above shorter proper
  -- A record that writes above the path takes it up, so it starts at the path or below it.
  by_contra replaced
  obtain ⟨record, member, write, listed, rfl⟩ :=
    exists_of_replaced (Option.isSome_iff_ne_none.mpr replaced)
  have covers : record.containsPath removed.path = true :=
    WriteRecord.containsPath_iff.mpr ⟨write, listed, shorter⟩
  have below := (outermost record member covers).trans (record.path_prefix listed)
  exact proper (shorter.eq_of_length_le below.length_le)

/-- What the writes of a record change lies at its path or below it. -/
private theorem agreeOff_record (outermost : Outermost before removed) :
    Layers.AgreeOff removed.path ((ofWrites (placedWrites before)).putAll removed.writes)
        (ofWrites (placedWrites before)) ∧
      Layers.FreeAbove ((ofWrites (placedWrites before)).putAll removed.writes) removed.path :=
  -- All of its places are below the path, and nothing above was replaced.
  Layers.agreeOff_putAll (freeAbove_before outermost) fun _ member => removed.path_prefix member

/-- The layers of records with one more in between. -/
private theorem ofWrites_between (before later : List WriteRecord) (removed : WriteRecord) :
    ofWrites (placedWrites (before ++ removed :: later)) =
      ((ofWrites (placedWrites before)).putAll removed.writes).putAll (placedWrites later) := by
  -- The three parts are put one after the other.
  rw [placedWrites_append, placedWrites_cons, ofWrites, Layers.putAll_append, Layers.putAll_append]
  rfl

/-- The layers of the records that remain. -/
private theorem ofWrites_remaining (before later : List WriteRecord) :
    ofWrites (placedWrites (before ++ later)) =
      (ofWrites (placedWrites before)).putAll (placedWrites later) := by
  -- The removed record is left out of the middle.
  rw [placedWrites_append, ofWrites, Layers.putAll_append]
  rfl

/-- A hidden write leaves no trace in the layers. -/
private theorem ofWrites_shadowed (outermost : Outermost before removed)
    (hidden : ∃ record ∈ later, record.containsPath removed.path = true) :
    ofWrites (placedWrites (before ++ removed :: later)) = ofWrites (placedWrites (before ++ later)) := by
  obtain ⟨agree, free⟩ := agreeOff_record outermost
  rw [ofWrites_between, ofWrites_remaining]
  -- With and without the removed record the layers agree away from its path.
  refine Layers.putAll_shadowed agree free ((Layers.separate_ofWrites _).putAll _)
    (Layers.separate_ofWrites _) ?_
  obtain ⟨record, member, covers⟩ := hidden
  obtain ⟨write, listed, above⟩ := WriteRecord.containsPath_iff.mp covers
  exact ⟨write, List.mem_flatMap.mpr ⟨record, member, listed⟩, above⟩

/-- No place of a record lies at or below a path that it neither contains nor lies below. -/
private theorem not_below_of_apart (sound : record.Sound comparator)
    (notContaining : ¬ record.containsPath removed.path = true)
    (notBelow : ¬ removed.path <+: record.path) :
    ∀ write ∈ record.writes, ¬ removed.path <+: write.1 := by
  intro write listed inside
  -- The record starts below the path, or one of its fields is the path.
  rcases sound.prefix_cases listed inside with below | same
  · exact notBelow below
  · exact notContaining (WriteRecord.containsPath_iff.mpr ⟨write, listed, by simp [same]⟩)

/-- Taking back the subtree of a write that overlaps with no other one leaves the layers of these. -/
private theorem cut_disjoint (outermost : Outermost before removed)
    (apart : ∀ record ∈ before ++ later, ∀ write ∈ record.writes, ¬ removed.path <+: write.1) :
    (ofWrites (placedWrites (before ++ removed :: later))).cut removed.path =
      ofWrites (placedWrites (before ++ later)) := by
  -- The later writes leave the cut part alone, so the cut passes through them.
  have outside : ∀ write ∈ placedWrites later, ¬ removed.path <+: write.1 := by
    intro write member
    obtain ⟨record, inside, listed⟩ := List.mem_flatMap.mp member
    exact apart record (List.mem_append_right _ inside) write listed
  rw [ofWrites_between, ofWrites_remaining, Layers.cut_putAll outside,
    (agreeOff_record outermost).1.cut_eq]
  intro place below
  by_contra replaced
  obtain ⟨record, member, write, listed, rfl⟩ :=
    exists_of_replaced (Option.isSome_iff_ne_none.mpr replaced)
  exact apart record (List.mem_append_left _ member) write listed below

/-- Removing the writes at several paths keeps exactly what lies below none of them. -/
private theorem removed_fold {visible : CompoundWrite} (sound : visible.Sound)
    (found : List (Path × Node)) (path : Path)
    (filed : ∀ write ∈ found, comparator.filedPath (path ++ write.1) = path ++ write.1) :
    (found.foldl (fun visible found =>
        visible.removeWriteAtPath (comparator.filedPath (path ++ found.1))) visible).Sound ∧
      ∀ place, (found.foldl (fun visible found =>
          visible.removeWriteAtPath (comparator.filedPath (path ++ found.1))) visible).layers place =
        if ∃ write ∈ found, path ++ write.1 <+: place then none else visible.layers place := by
  -- The places are cut one after the other.
  induction found generalizing visible with
  | nil => exact ⟨sound, fun place => by simp⟩
  | cons write rest ih =>
    have asIs := filed write List.mem_cons_self
    obtain ⟨still, layers⟩ := ih (sound.removeWriteAtPath (comparator.filedPath (path ++ write.1)))
      fun other member => filed other (List.mem_cons_of_mem _ member)
    refine ⟨still, fun place => (layers place).trans ?_⟩
    rw [CompoundWrite.layers_removeWriteAtPath, Layers.cut, asIs]
    by_cases first : path ++ write.1 <+: place
    · simp [first]
    · have same : (∃ other ∈ write :: rest, path ++ other.1 <+: place) ↔
          ∃ other ∈ rest, path ++ other.1 <+: place := by
        simp only [List.mem_cons, exists_eq_or_imp, first, false_or]
      simp only [if_neg first, same]

/-- Taking a write back on its own takes back everything at its path and below it, if nothing else
is written there. -/
private theorem takenBack_spec {visible : CompoundWrite} (sound : visible.Sound)
    (record : removed.Sound comparator)
    (own : ∀ place, removed.path <+: place → (visible.layers place).isSome →
      ∃ write ∈ removed.writes, write.1 <+: place) :
    (takenBack comparator visible removed).Sound ∧
      (takenBack comparator visible removed).layers = visible.layers.cut removed.path := by
  -- An overwrite is taken back at its path, an update field by field.
  cases change : removed.change with
  | overwrite node =>
    simp only [takenBack, change, record.filed]
    exact ⟨sound.removeWriteAtPath _, CompoundWrite.layers_removeWriteAtPath _ _⟩
  | merge merge =>
    simp only [takenBack, change]
    have filed : ∀ write ∈ merge.writes,
        comparator.filedPath (removed.path ++ write.1) = removed.path ++ write.1 := by
      intro write member
      rw [StringComparator.filedPath_append, record.filed, ((record.merges change).2 write member).2]
    obtain ⟨still, layers⟩ := removed_fold sound merge.writes removed.path filed
    refine ⟨still, funext fun place => (layers place).trans ?_⟩
    rw [Layers.cut]
    by_cases inside : removed.path <+: place
    · -- What is left below the path would be written by the record itself.
      rw [if_pos inside]
      split
      · rfl
      · rename_i untouched
        by_contra replaced
        obtain ⟨write, listed, above⟩ := own place inside (Option.isSome_iff_ne_none.mpr replaced)
        simp only [WriteRecord.writes, change] at listed
        obtain ⟨found, member, rfl⟩ := List.mem_map.mp listed
        exact untouched ⟨found, member, above⟩
    · rw [if_neg inside, if_neg]
      rintro ⟨write, _, above⟩
      exact inside ((List.prefix_append _ _).trans above)

/-- Removing a write that no earlier one takes up leaves the layers of the remaining writes. -/
theorem Layered.removing (layered : tree.Layered) (split : tree.allWrites = before ++ removed :: later)
    (outermost : Outermost before removed) : (tree.removing before later removed).Layered := by
  have kept : ∀ record ∈ before ++ later, record ∈ tree.allWrites := by
    intro record member
    rw [split]
    rcases List.mem_append.mp member with early | late
    · exact List.mem_append_left _ early
    · exact List.mem_append_right _ (List.mem_cons_of_mem _ late)
  have sounds : ∀ record ∈ before ++ later, record.Sound tree.comparator := fun record member =>
    layered.records record (kept record member)
  have sublist : (before ++ later).Sublist tree.allWrites := by
    rw [split]
    exact (List.Sublist.refl before).append (List.sublist_cons_self removed later)
  have ascending := layered.ascending.sublist sublist
  have removedSound : removed.Sound tree.comparator := layered.records removed (by simp [split])
  have all := layered.layers
  rw [split] at all
  obtain ⟨found, absent⟩ := @scanned_spec before later removed fun record member =>
    (sounds record member).visible
  rw [WriteTree.removing]
  split_ifs with hidden overlap
  · -- The write was hidden by a later one.
    have shadowed := hidden.resolve_left (by simp [removedSound.visible])
    exact ⟨layered.sound, sounds, ascending, fun record member => layered.numbered record (kept record member),
      all.trans (ofWrites_shadowed outermost (found shadowed))⟩
  · -- Everything is layered again.
    obtain ⟨sound, layers⟩ := layers_layerTreeFromWrites sounds
    refine ⟨sound, sounds, ascending, fun record member => ?_, layers⟩
    show record.writeId ≤ ((before ++ later).getLast?.map WriteRecord.writeId).getD (-1)
    cases last : (before ++ later).getLast? with
    | none =>
      rw [List.getLast?_eq_none_iff.mp last] at member
      exact absurd member List.not_mem_nil
    | some final =>
      obtain ⟨front, whole⟩ := List.getLast?_eq_some_iff.mp last
      rw [whole] at member ascending
      rcases List.mem_append.mp member with early | atEnd
      · exact ((List.pairwise_append.mp ascending).2.2 record early final (by simp)).le
      · rw [List.mem_singleton.mp atEnd]
        rfl
  · -- Nothing overlaps, and the write is taken back on its own.
    obtain ⟨notHidden, apart⟩ := absent (by simpa using fun shadowed => hidden (.inr shadowed))
    have notBelow := apart (by simpa using overlap)
    have outside : ∀ record ∈ before ++ later, ∀ write ∈ record.writes, ¬ removed.path <+: write.1 := by
      intro record member
      refine not_below_of_apart (sounds record member) (fun covers => ?_) (notBelow record member)
      rcases List.mem_append.mp member with early | late
      · exact notBelow record member (outermost record early covers)
      · exact notHidden record late covers
    have own : ∀ place, removed.path <+: place → (tree.visibleWrites.layers place).isSome →
        ∃ write ∈ removed.writes, write.1 <+: place := by
      intro place inside replaced
      rw [all] at replaced
      obtain ⟨record, member, write, listed, rfl⟩ := exists_of_replaced replaced
      rcases List.mem_append.mp member with early | late
      · exact absurd inside (outside record (List.mem_append_left _ early) write listed)
      · rcases List.mem_cons.mp late with rfl | after
        · exact ⟨write, listed, List.prefix_rfl⟩
        · exact absurd inside (outside record (List.mem_append_right _ after) write listed)
    obtain ⟨sound, layers⟩ := takenBack_spec layered.sound removedSound own
    exact ⟨sound, sounds, ascending, fun record member => layered.numbered record (kept record member),
      layers.trans ((congrArg (fun layers => Layers.cut layers removed.path) all).trans
        (cut_disjoint outermost outside))⟩

end Removal

/-- The places and nodes that an update lists, one after the other. -/
def listedWrites (values : List (Key × Option Leaf)) : List (Path × Node) :=
  values.map fun field => ([field.1], field.2.elim .empty .leaf)

/-- The compound of an update layers its fields, each at the name under which it is filed. -/
theorem compoundWriteFromDictionary_spec (comparator : StringComparator)
    (values : List (Key × Option Leaf)) :
    (compoundWriteFromDictionary comparator values).Sound ∧
      (compoundWriteFromDictionary comparator values).layers =
        ofWrites (listedWrites (values.map fun field => (comparator.filed field.1, field.2))) := by
  -- By induction over the fields, from any compound write.
  have general : ∀ {compoundWrite : CompoundWrite}, compoundWrite.Sound →
      (values.foldl (fun compoundWrite field =>
          compoundWrite.addWrite (field.2.elim .empty .leaf) (comparator.filedPath [field.1]))
          compoundWrite).Sound ∧
        (values.foldl (fun compoundWrite field =>
            compoundWrite.addWrite (field.2.elim .empty .leaf) (comparator.filedPath [field.1]))
            compoundWrite).layers =
          compoundWrite.layers.putAll
            (listedWrites (values.map fun field => (comparator.filed field.1, field.2))) := by
    induction values with
    | nil => exact fun sound => ⟨sound, rfl⟩
    | cons field values ih =>
      intro compoundWrite sound
      obtain ⟨still, layers⟩ := ih (sound.addWrite (DatabaseWrite.canonical_field field.2) _)
      refine ⟨still, layers.trans ?_⟩
      rw [CompoundWrite.layers_addWrite sound.separate]
      rfl
  have result := general CompoundWrite.sound_emptyWrite
  rw [CompoundWrite.layers_emptyWrite] at result
  exact result

/-- Only an update without fields makes an empty compound. -/
theorem isEmpty_compoundWriteFromDictionary (comparator : StringComparator)
    (values : List (Key × Option Leaf)) :
    (compoundWriteFromDictionary comparator values).isEmpty = values.isEmpty := by
  -- The field added last is written.
  rcases List.eq_nil_or_concat values with rfl | ⟨earlier, field, rfl⟩
  · rfl
  · rw [List.concat_eq_append]
    have nonempty : (earlier ++ [field]).isEmpty = false := by simp
    rw [nonempty]
    by_contra nothing
    rw [Bool.not_eq_false] at nothing
    have free : ∀ path, (compoundWriteFromDictionary comparator (earlier ++ [field])).layers path = none :=
      fun path => ImmutableTree.valueAtPath_of_isEmpty nothing (names path)
    obtain ⟨sound, _⟩ := compoundWriteFromDictionary_spec comparator earlier
    have last : (compoundWriteFromDictionary comparator (earlier ++ [field])).layers =
        (compoundWriteFromDictionary comparator earlier).layers.put [comparator.filed field.1]
          (field.2.elim .empty .leaf) := by
      rw [← CompoundWrite.layers_addWrite sound.separate]
      simp [compoundWriteFromDictionary, StringComparator.filedPath]
    obtain ⟨above, _, written⟩ :=
      Layers.exists_put (compoundWriteFromDictionary comparator earlier).layers
        [comparator.filed field.1] (field.2.elim .empty .leaf)
    rw [← last, free] at written
    cases written

end WriteTree

namespace DatabaseWrite

/-- Whether every name that a write uses is clear. -/
def Clear (comparator : StringComparator) (write : DatabaseWrite) : Prop :=
  ∀ name ∈ write.path ++ write.fields.map Prod.fst, comparator.Clear name

instance (comparator : StringComparator) (write : DatabaseWrite) : Decidable (write.Clear comparator) :=
  inferInstanceAs (Decidable (∀ _ ∈ _, _))

variable {comparator : StringComparator} {write : DatabaseWrite}

/-- The record of a write of the program. -/
def record (comparator : StringComparator) (writeId : ℤ) : DatabaseWrite → WriteRecord
  | .updateChildValues path values =>
    ⟨path, .merge (WriteTree.compoundWriteFromDictionary comparator values), writeId, true⟩
  -- A removal is an overwrite with the empty node.
  | write => ⟨write.path, .overwrite (write.replacement .empty), writeId, true⟩

/-- The path of a clear write is filed as it is. -/
theorem Clear.filedPath (clear : write.Clear comparator) : comparator.filedPath write.path = write.path :=
  StringComparator.filedPath_eq fun name member => clear name (List.mem_append_left _ member)

/-- The fields of a clear update are filed as they are. -/
theorem Clear.filed_fields {path : Path} {values : List (Key × Option Leaf)}
    (clear : (updateChildValues path values).Clear comparator) :
    (values.map fun field => (comparator.filed field.1, field.2)) = values := by
  refine (List.map_congr_left fun field member => ?_).trans (List.map_id values)
  -- The names of fields are among those that are filed as they are.
  have own := (clear field.1 (List.mem_append_right _ (List.mem_map_of_mem member))).1
  exact Prod.ext own rfl

/-- The records of the program are sound when their names are clear. -/
theorem Clear.sound_record (clear : write.Clear comparator) (writeId : ℤ) :
    (write.record comparator writeId).Sound comparator := by
  have filed := clear.filedPath
  have overwriting :
      (⟨write.path, .overwrite (write.replacement .empty), writeId, true⟩ : WriteRecord).Sound comparator := by
    refine ⟨rfl, filed, fun same => ?_, fun impossible => by cases impossible⟩
    cases same
    exact write.canonical_replacement KeyTree.canonical_empty
  cases write with
  | setValue path value => exact overwriting
  | removeValue path => exact overwriting
  | updateChildValues path values =>
    obtain ⟨sound, layers⟩ := WriteTree.compoundWriteFromDictionary_spec comparator values
    rw [clear.filed_fields] at layers
    refine ⟨rfl, filed, (fun impossible => by cases impossible), fun same => ?_⟩
    cases same
    refine ⟨sound, fun found member => ?_⟩
    -- What the compound holds is one of the listed fields.
    have reads := sound.mem_writes.mp member
    rw [layers] at reads
    rcases Layers.isSome_putAll (Option.isSome_of_eq_some reads) with ⟨write, listed, same⟩ | nothing
    · obtain ⟨field, fromValues, rfl⟩ := List.mem_map.mp listed
      have own := (clear field.1 (List.mem_append_right _ (List.mem_map_of_mem fromValues))).1
      rw [← same]
      exact ⟨rfl, congrArg (fun name => [name]) own⟩
    · cases nothing

/-- The record of a write has its number. -/
@[simp] theorem writeId_record (comparator : StringComparator) (write : DatabaseWrite) (writeId : ℤ) :
    (write.record comparator writeId).writeId = writeId := by
  cases write <;> rfl

/-- What is recorded of a write is what it overwrites. -/
theorem Clear.mem_writes_record (clear : write.Clear comparator) (distinct : write.Distinct) (writeId : ℤ)
    (found : Path × Node) :
    found ∈ (write.record comparator writeId).writes ↔ found ∈ write.overwrites := by
  cases write with
  | setValue path value => exact Iff.rfl
  | removeValue path => exact Iff.rfl
  | updateChildValues path values =>
    obtain ⟨sound, layers⟩ := WriteTree.compoundWriteFromDictionary_spec comparator values
    rw [clear.filed_fields] at layers
    -- Distinct fields do not meet each other in the compound.
    have antichain : ∀ first ∈ WriteTree.listedWrites values, ∀ second ∈ WriteTree.listedWrites values,
        first.1 <+: second.1 → first = second := by
      have below : ∀ one ∈ WriteTree.listedWrites values,
          (path ++ one.1, one.2) ∈ (updateChildValues path values).overwrites := by
        intro one member
        obtain ⟨field, listed, rfl⟩ := List.mem_map.mp member
        exact List.mem_map.mpr ⟨field, listed, rfl⟩
      intro first member second other inside
      have same := overwrites_antichain distinct _ (below first member) _ (below second other)
        ((List.prefix_append_right_inj path).mpr inside)
      obtain ⟨place, node⟩ := first
      simpa [Prod.ext_iff] using same
    have nothing : ∀ (place : Path) (node : Node),
        (fun _ => none : Layers Key Leaf) place = some node ↔ (place, node) ∈ ([] : List (Path × Node)) := by
      simp
    have stored : ∀ place node,
        (WriteTree.compoundWriteFromDictionary comparator values).layers place = some node ↔
          (place, node) ∈ WriteTree.listedWrites values := by
      rw [layers]
      exact Layers.putAll_of_antichain nothing (by simpa using antichain)
    constructor
    · intro member
      obtain ⟨⟨place, node⟩, inside, rfl⟩ := List.mem_map.mp member
      obtain ⟨field, listed, same⟩ := List.mem_map.mp ((stored _ _).mp (sound.mem_writes.mp inside))
      cases same
      exact List.mem_map.mpr ⟨field, listed, rfl⟩
    · intro member
      obtain ⟨field, listed, rfl⟩ := List.mem_map.mp member
      refine List.mem_map.mpr ⟨([field.1], field.2.elim .empty .leaf), ?_, rfl⟩
      exact sound.mem_writes.mpr ((stored _ _).mpr (List.mem_map.mpr ⟨field, listed, rfl⟩))

/-- Performing what is recorded of a write assigns what the write changes. -/
theorem Clear.assignAll_record (clear : write.Clear comparator) (distinct : write.Distinct) (writeId : ℤ)
    (values : Path → Option Leaf) :
    assignAll ((write.record comparator writeId).writes.map Layers.change) values =
      assignAll write.changes values := by
  have members := clear.mem_writes_record distinct writeId
  -- The order of the changes does not matter, since no place lies below another.
  refine Layers.assignAll_change_congr members fun first member second other inside => ?_
  exact overwrites_antichain distinct _ ((members _).mp member) _ ((members _).mp other) inside

end DatabaseWrite

end CardGuru
