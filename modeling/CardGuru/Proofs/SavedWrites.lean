import CardGuru.Firebase.Pipeline
import CardGuru.Firebase.Repo
import CardGuru.Proofs.PendingWrites

/-! The writes that a client has saved, recorded and handed to its connection. -/

namespace CardGuru

namespace WriteTree

/-- A write that changes something is recorded under every newer number. -/
theorem applyUserWrite_some {tree : WriteTree} {writeId : ℤ} {write : DatabaseWrite}
    (something : write.overwrites ≠ []) (newer : tree.lastWriteId < writeId) :
    tree.applyUserWrite writeId write =
      some ⟨tree.comparator,
        (write.record tree.comparator writeId).layer tree.comparator [] tree.visibleWrites,
        tree.allWrites ++ [write.record tree.comparator writeId], writeId⟩ := by
  -- Only an older number or an update without fields is not recorded.
  cases found : tree.applyUserWrite writeId write with
  | some after =>
    rcases applyUserWrite_ok found with ⟨nothing, _⟩ | ⟨_, _, same⟩
    · exact absurd nothing something
    · rw [same]
  | none =>
    cases write with
    | setValue path value => simp [applyUserWrite, addOverwriteAtPath, newer] at found
    | removeValue path => simp [applyUserWrite, addOverwriteAtPath, newer] at found
    | updateChildValues path values =>
      have listed : values.isEmpty = false := by
        cases values with
        | nil => exact absurd rfl something
        | cons field values => rfl
      simp [applyUserWrite, isEmpty_compoundWriteFromDictionary, listed, addMergeAtPath, newer] at found

/-- A recorded number can be removed. -/
theorem removeWriteId_some {tree : WriteTree} {writeId : ℤ}
    (recorded : ∃ record ∈ tree.allWrites, record.writeId = writeId) :
    ∃ after changed, tree.removeWriteId writeId = some (after, changed) := by
  -- The source asserts that the number is found; here it is.
  cases found : tree.allWrites.findIdx? fun record => record.writeId = writeId with
  | none =>
    obtain ⟨record, member, same⟩ := recorded
    have absent := List.findIdx?_eq_none_iff.mp found record member
    simp [same] at absent
  | some index =>
    obtain ⟨within, _, _⟩ := List.findIdx?_eq_some_iff_getElem.mp found
    rw [removeWriteId]
    simp only [found, List.getElem?_eq_getElem within]
    split
    · exact ⟨_, _, rfl⟩
    · split
      · exact ⟨_, _, rfl⟩
      · split <;> exact ⟨_, _, rfl⟩

/-- The last number after a removal is bounded by every bound on the remaining ones and on the last. -/
theorem lastWriteId_removing {tree : WriteTree} {before later : List WriteRecord} {removed : WriteRecord}
    {bound : ℤ} (last : tree.lastWriteId < bound) (positive : 0 ≤ bound)
    (each : ∀ record ∈ before ++ later, record.writeId < bound) :
    (tree.removing before later removed).lastWriteId < bound := by
  rw [WriteTree.removing]
  -- Only a reset computes the last number again.
  split_ifs
  · exact last
  · show ((before ++ later).getLast?.map WriteRecord.writeId).getD (-1) < bound
    cases ends : (before ++ later).getLast? with
    | none => simpa using (by omega : (-1 : ℤ) < bound)
    | some record => exact each record (List.mem_of_getLast? ends)
  · exact last

end WriteTree

namespace Repo

open WriteTree (recorded)

/-- What is saved on disk is recorded, under ascending numbers that are not used again. -/
structure Saved (repo : Repo) : Prop where
  ascending : Entries.Sorted repo.writesDB
  numbered : ∀ saved ∈ repo.writesDB, saved.1 < repo.writeIdCounter
  something : ∀ saved ∈ repo.writesDB, saved.2.val.overwrites ≠ []
  records : repo.pendingWriteTree.allWrites = recorded repo.pendingWriteTree.comparator repo.writesDB
  last : repo.pendingWriteTree.lastWriteId < repo.writeIdCounter
  positive : 0 ≤ repo.writeIdCounter

/-- With clear names, what is seen are the layers of what is saved. -/
structure Layered (comparator : StringComparator) (repo : Repo) : Prop where
  compares : repo.pendingWriteTree.comparator = comparator
  layered : repo.pendingWriteTree.Layered
  clear : ∀ saved ∈ repo.writesDB, saved.2.val.Clear comparator

/-- Nothing is saved at first. -/
theorem saved_started (comparator : StringComparator) : (started comparator).Saved where
  -- There are no entries yet.
  ascending := List.Pairwise.nil
  numbered := by simp [started]
  something := by simp [started]
  records := rfl
  last := show (-1 : ℤ) < 0 by decide
  positive := le_refl _

/-- Nothing is seen at first. -/
theorem layered_started (comparator : StringComparator) : (started comparator).Layered comparator where
  compares := rfl
  layered := WriteTree.layered_initial comparator
  clear := by simp [started]

variable {repo : Repo} {comparator : StringComparator}

/-- What is seen depends on the records and on the disk only. -/
theorem Layered.congr {other : Repo} (layered : repo.Layered comparator)
    (records : other.pendingWriteTree = repo.pendingWriteTree) (onDisk : other.writesDB = repo.writesDB) :
    other.Layered comparator :=
  -- The connection does not take part.
  ⟨records ▸ layered.compares, records ▸ layered.layered, onDisk ▸ layered.clear⟩

/-- A new write is saved, recorded and handed to the connection. -/
theorem Saved.recordWrite (saved : repo.Saved) {writeId : ℤ} {write : UserWrite}
    (newer : repo.writeIdCounter ≤ writeId) (something : write.val.overwrites ≠ [])
    (writesDB : List (ℤ × UserWrite)) (onDisk : writesDB = repo.writesDB ++ [(writeId, write)]) :
    ∃ after, { repo with writesDB := writesDB }.recordWrite writeId write = .ok after ∧ after.Saved ∧
      after.writesDB = writesDB ∧ after.connection = repo.connection.putInternal write writeId ∧
      after.writeIdCounter = writeId + 1 ∧
      ∀ {comparator : StringComparator}, write.val.Clear comparator → repo.Layered comparator →
        after.Layered comparator := by
  have later : repo.pendingWriteTree.lastWriteId < writeId := saved.last.trans_le newer
  have applied := WriteTree.applyUserWrite_some something later
  -- The tree accepts the number, so the client goes on.
  have recording : ∃ after, { repo with writesDB := writesDB }.recordWrite writeId write = .ok after ∧
      after = Repo.mk (writeId + 1) _ writesDB (repo.connection.putInternal write writeId) :=
    ⟨_, by rw [Repo.recordWrite, applied], rfl⟩
  obtain ⟨_, done, rfl⟩ := recording
  refine ⟨_, done, ⟨?_, ?_, ?_, ?_, ?_, ?_⟩, rfl, rfl, rfl,
    fun clear layered => ⟨layered.compares, ?_, fun entry member => ?_⟩⟩
  · rw [onDisk]
    exact saved.ascending.concat (fun entry member => (saved.numbered entry member).trans_le newer) write
  · show ∀ entry ∈ writesDB, entry.1 < writeId + 1
    intro entry member
    rw [onDisk] at member
    rcases List.mem_append.mp member with old | new
    · exact ((saved.numbered entry old).trans_le newer).trans (Int.lt_succ writeId)
    · rw [List.mem_singleton.mp new]
      exact Int.lt_succ writeId
  · show ∀ entry ∈ writesDB, _
    intro entry member
    rw [onDisk] at member
    rcases List.mem_append.mp member with old | new
    · exact saved.something entry old
    · rw [List.mem_singleton.mp new]
      exact something
  · show repo.pendingWriteTree.allWrites ++ [write.val.record repo.pendingWriteTree.comparator writeId] =
      recorded repo.pendingWriteTree.comparator writesDB
    rw [saved.records, onDisk]
    simp [recorded]
  · exact Int.lt_succ writeId
  · exact (saved.positive.trans newer).trans (Int.lt_succ writeId).le
  · -- A clear write lies over the layers of the others.
    have sound := clear.sound_record writeId
    rw [← layered.compares] at sound
    simpa using layered.layered.add sound (by simpa using later)
  · have listed : entry ∈ writesDB := member
    rw [onDisk] at listed
    rcases List.mem_append.mp listed with old | new
    · exact layered.clear entry old
    · rw [List.mem_singleton.mp new]
      exact clear

/-- A write of the program is saved under the next number; an update without fields changes nothing. -/
theorem Saved.set (saved : repo.Saved) (write : UserWrite) :
    (write.val.overwrites = [] ∧ repo.set write = .ok repo) ∨
      write.val.overwrites ≠ [] ∧ ∃ after, repo.set write = .ok after ∧ after.Saved ∧
        after.writesDB = repo.writesDB ++ [(repo.writeIdCounter, write)] ∧
        after.connection = repo.connection.putInternal write repo.writeIdCounter ∧
        ∀ {comparator : StringComparator}, write.val.Clear comparator → repo.Layered comparator →
          after.Layered comparator := by
  -- No saved write has the next number.
  have unused : (repo.writesDB.filter fun entry => entry.1 ≠ repo.writeIdCounter) = repo.writesDB := by
    rw [List.filter_eq_self]
    intro entry member
    simpa using (saved.numbered entry member).ne
  by_cases nothing : write.val.overwrites = []
  · refine .inl ⟨nothing, ?_⟩
    rcases write with ⟨write, distinct⟩
    cases write with
    | setValue path value => simp [DatabaseWrite.overwrites] at nothing
    | removeValue path => simp [DatabaseWrite.overwrites] at nothing
    | updateChildValues path values =>
      obtain rfl : values = [] := by simpa [DatabaseWrite.overwrites] using nothing
      rfl
  · refine .inr ⟨nothing, ?_⟩
    obtain ⟨after, done, still, onDisk, connection, _, layered⟩ :=
      saved.recordWrite (le_refl _) nothing _ rfl
    refine ⟨after, ?_, still, onDisk, connection, layered⟩
    rw [← done]
    have same : repo.saveUserWrite repo.writeIdCounter write =
        { repo with writesDB := repo.writesDB ++ [(repo.writeIdCounter, write)] } := by
      rw [saveUserWrite, unused]
    rcases write with ⟨write, distinct⟩
    cases write with
    | setValue path value => rw [Repo.set, same]
    | removeValue path => rw [Repo.set, same]
    | updateChildValues path values =>
      have listed : (WriteTree.compoundWriteFromDictionary repo.pendingWriteTree.comparator
          values).isEmpty = false := by
        rw [WriteTree.isEmpty_compoundWriteFromDictionary]
        cases values with
        | nil => exact absurd rfl nothing
        | cons field values => rfl
      rw [Repo.set]
      simp only [listed, Bool.false_eq_true, if_false]
      rw [same]

/-- A saved write that is completed is forgotten, and nothing else is. -/
theorem Saved.ackWrite (saved : repo.Saved) {earlier later : List (ℤ × UserWrite)} {write : UserWrite}
    {completion : ℤ × Status} (split : repo.writesDB = earlier ++ (completion.1, write) :: later)
    (answered : completion.2 ≠ .writeCanceled) :
    ∃ after, repo.ackWrite completion = .ok after ∧ after.Saved ∧ after.writesDB = earlier ++ later ∧
      after.connection = repo.connection ∧
      ∀ {comparator : StringComparator}, earlier = [] → repo.Layered comparator →
        after.Layered comparator := by
  have records := saved.records
  rw [split] at records
  have listed : ∃ record ∈ repo.pendingWriteTree.allWrites, record.writeId = completion.1 :=
    ⟨write.val.record repo.pendingWriteTree.comparator completion.1, by simp [records, recorded], by simp⟩
  obtain ⟨tree, changed, found⟩ := WriteTree.removeWriteId_some listed
  obtain ⟨before, removed, rest, whole, same, first, rfl⟩ := WriteTree.removeWriteId_ok found
  -- The numbers ascend, so that the removed record is that of the write.
  have ascending := saved.ascending
  rw [split] at ascending
  obtain ⟨_, tail, between⟩ := List.pairwise_append.mp ascending
  have smaller : ∀ entry ∈ earlier, entry.1 < completion.1 := fun entry member =>
    between entry member _ List.mem_cons_self
  have larger : ∀ entry ∈ later, completion.1 < entry.1 := (List.pairwise_cons.mp tail).1
  have remaining : (repo.writesDB.filter fun entry => entry.1 ≠ completion.1) = earlier ++ later := by
    rw [split, List.filter_append, List.filter_cons_of_neg (by simp),
      List.filter_eq_self.mpr fun entry member => by simpa using (smaller entry member).ne,
      List.filter_eq_self.mpr fun entry member => by simpa using (larger entry member).ne']
  have kept : before ++ rest = recorded repo.pendingWriteTree.comparator (earlier ++ later) := by
    have sorted : (repo.pendingWriteTree.allWrites).Pairwise
        fun earlier later => earlier.writeId < later.writeId := by
      rw [saved.records, recorded, List.pairwise_map]
      simp only [DatabaseWrite.writeId_record]
      exact saved.ascending
    rw [whole] at sorted
    rw [← WriteTree.filter_removed sorted, ← whole, saved.records, same, ← remaining]
    simp [recorded, List.filter_map, Function.comp_def]
  have inside : ∀ entry ∈ earlier ++ later, entry ∈ repo.writesDB := by
    intro entry member
    rw [← remaining] at member
    exact (List.mem_filter.mp member).1
  let after : Repo :=
    { repo with
      pendingWriteTree := repo.pendingWriteTree.removing before rest removed
      writesDB := repo.writesDB.filter fun entry => entry.1 ≠ completion.1 }
  have acked : repo.ackWrite completion = .ok after := by
    rw [Repo.ackWrite, if_neg answered, found]
    rfl
  refine ⟨after, acked, ⟨?_, ?_, ?_, ?_, ?_, saved.positive⟩, remaining,
    rfl, fun nothing layered => ⟨WriteTree.comparator_removing.trans layered.compares,
      layered.layered.removing whole ?_, fun entry member => layered.clear entry (List.mem_filter.mp member).1⟩⟩
  · exact saved.ascending.filter _
  · exact fun entry member => saved.numbered entry (List.mem_filter.mp member).1
  · exact fun entry member => saved.something entry (List.mem_filter.mp member).1
  · show (repo.pendingWriteTree.removing before rest removed).allWrites =
      recorded (repo.pendingWriteTree.removing before rest removed).comparator _
    rw [WriteTree.allWrites_removing, WriteTree.comparator_removing, kept]
    exact congrArg _ remaining.symm
  · refine WriteTree.lastWriteId_removing saved.last saved.positive fun record member => ?_
    rw [kept] at member
    obtain ⟨entry, listed, rfl⟩ := List.mem_map.mp member
    simpa using saved.numbered entry (inside entry listed)
  · -- The first write has no earlier one.
    intro record member covers
    have sorted := layered.layered.ascending
    rw [whole] at sorted
    have less := (List.pairwise_append.mp sorted).2.2 record member removed List.mem_cons_self
    have listed : record ∈ recorded repo.pendingWriteTree.comparator (earlier ++ later) :=
      kept ▸ List.mem_append_left _ member
    obtain ⟨entry, present, rfl⟩ := List.mem_map.mp listed
    rw [nothing, List.nil_append] at present
    have more := larger entry present
    rw [DatabaseWrite.writeId_record, same] at less
    omega

/-- The first saved writes are completed one after the other. -/
theorem Saved.ackWrites (saved : repo.Saved) {done rest : List (ℤ × UserWrite)}
    {completions : List (ℤ × Status)} (split : repo.writesDB = done ++ rest)
    (same : done.map Prod.fst = completions.map Prod.fst)
    (answered : ∀ completion ∈ completions, completion.2 ≠ .writeCanceled) :
    ∃ after, repo.ackWrites completions = .ok after ∧ after.Saved ∧ after.writesDB = rest ∧
      after.connection = repo.connection ∧
      ∀ {comparator : StringComparator}, repo.Layered comparator → after.Layered comparator := by
  -- By induction over the completions, each of the first write on disk.
  induction completions generalizing repo done with
  | nil =>
    obtain rfl : done = [] := by simpa using same
    exact ⟨repo, rfl, saved, split, rfl, id⟩
  | cons completion completions ih =>
    cases done with
    | nil => simp at same
    | cons first done =>
      obtain ⟨number, write⟩ := first
      rw [List.map_cons, List.map_cons, List.cons.injEq] at same
      obtain ⟨rfl, later⟩ := same
      obtain ⟨middle, acked, still, onDisk, connection, layered⟩ :=
        @Saved.ackWrite _ saved [] _ _ _ split (answered completion List.mem_cons_self)
      obtain ⟨after, all, last, rest, unchanged, alsoLayered⟩ := ih still onDisk later
        fun other member => answered other (List.mem_cons_of_mem _ member)
      refine ⟨after, ?_, last, rest, unchanged.trans connection, fun now => alsoLayered (layered rfl now)⟩
      rw [Repo.ackWrites, List.foldlM_cons, acked]
      exact all

/-- Writes that were given up before are not forgotten again. -/
theorem ackWrites_canceled {completions : List (ℤ × Status)}
    (canceled : ∀ completion ∈ completions, completion.2 = .writeCanceled) :
    repo.ackWrites completions = .ok repo := by
  induction completions with
  | nil => rfl
  | cons completion completions ih =>
    -- Each of them is ignored.
    rw [Repo.ackWrites, List.foldlM_cons, Repo.ackWrite, if_pos (canceled completion List.mem_cons_self)]
    exact ih fun other member => canceled other (List.mem_cons_of_mem _ member)

/-- What is outstanding, with the numbers of the writes. -/
def operation (put : ℕ × OutstandingPut) : ℤ × UserWrite := (put.2.onCompleteBlock, put.2.write)

/-- A client that has taken over some writes from the disk, before it is connected. -/
structure Restoring (comparator : StringComparator) (repo : Repo) (restored : List (ℤ × UserWrite)) : Prop where
  saved : { repo with writesDB := restored }.Saved
  layered : (∀ saved ∈ restored, saved.2.val.Clear comparator) →
    { repo with writesDB := restored }.Layered comparator
  pipeline : repo.connection.Pipeline
  disconnected : repo.connection.connectionState = .disconnected
  outstanding : repo.connection.outstandingPuts.map operation = restored
  putsToAck : repo.connection.putsToAck = []
  last : repo.writeIdCounter = (restored.getLast?.map fun entry => entry.1 + 1).getD 0

/-- Recording a write does not look at the disk. -/
private theorem recordWrite_writesDB (repo : Repo) (writesDB : List (ℤ × UserWrite)) (writeId : ℤ)
    (write : UserWrite) : { repo with writesDB := writesDB }.recordWrite writeId write =
      (repo.recordWrite writeId write).map fun after => { after with writesDB := writesDB } := by
  rw [recordWrite, recordWrite]
  -- Only the tree decides whether the write is refused.
  cases repo.pendingWriteTree.applyUserWrite writeId write.val <;> rfl

/-- The next write from the disk is taken over. -/
private theorem Restoring.recordWrite {restored : List (ℤ × UserWrite)} {saved : ℤ × UserWrite}
    (restoring : repo.Restoring comparator restored) (sorted : Entries.Sorted (restored ++ [saved]))
    (positive : 0 ≤ saved.1) (something : saved.2.val.overwrites ≠ []) :
    ∃ after, repo.recordWrite saved.1 saved.2 = .ok after ∧ after.Restoring comparator (restored ++ [saved]) ∧
      after.writesDB = repo.writesDB := by
  have newer : repo.writeIdCounter ≤ saved.1 := by
    rw [restoring.last]
    cases ends : restored.getLast? with
    | none => exact positive
    | some entry =>
      obtain ⟨front, rfl⟩ := List.getLast?_eq_some_iff.mp ends
      exact (List.pairwise_append.mp sorted).2.2 entry (by simp) saved List.mem_cons_self
  obtain ⟨recorded, done, still, onDisk, connection, counter, layered⟩ :=
    restoring.saved.recordWrite newer something _ rfl
  -- The same record is made with what is really on disk.
  have made := recordWrite_writesDB repo (restored ++ [saved]) saved.1 saved.2
  cases real : repo.recordWrite saved.1 saved.2 with
  | error fault =>
    rw [real] at made
    rw [made] at done
    cases done
  | ok after =>
    rw [real] at made
    obtain rfl : { after with writesDB := restored ++ [saved] } = recorded :=
      Except.ok.inj (made.symm.trans done)
    obtain ⟨put, same, pipeline, state, outstanding, waiting, _⟩ :=
      restoring.pipeline.putInternal saved.2 saved.1
    have connected : after.connection = repo.connection.putInternal saved.2 saved.1 := connection
    have layers : (∀ entry ∈ restored ++ [saved], entry.2.val.Clear comparator) →
        { after with writesDB := restored ++ [saved] }.Layered comparator := fun clear =>
      layered (clear saved (by simp))
        (restoring.layered fun entry member => clear entry (List.mem_append_left _ member))
    refine ⟨after, rfl, ⟨still, layers, connected ▸ pipeline,
      (congrArg PersistentConnection.connectionState connected).trans (state.trans restoring.disconnected),
      ?_, (congrArg PersistentConnection.putsToAck connected).trans (waiting.trans restoring.putsToAck), ?_⟩, ?_⟩
    · rw [connected, outstanding, List.map_append, restoring.outstanding, List.map_singleton, operation, same]
    · have count : after.writeIdCounter = saved.1 + 1 := counter
      simp [count]
    · rw [Repo.recordWrite] at real
      split at real
      · cases real
      · cases real
        rfl

/-- All writes from the disk are taken over in the order of their numbers. -/
private theorem foldlM_restoreWrite {restored rest : List (ℤ × UserWrite)} {lastWriteId : Option ℤ}
    (restoring : repo.Restoring comparator restored) (last : lastWriteId = restored.getLast?.map Prod.fst)
    (sorted : Entries.Sorted (restored ++ rest)) (positive : ∀ entry ∈ rest, 0 ≤ entry.1)
    (something : ∀ entry ∈ rest, entry.2.val.overwrites ≠ []) :
    ∃ after final, rest.foldlM restoreWrite (repo, lastWriteId) = .ok (after, final) ∧
      after.Restoring comparator (restored ++ rest) ∧ after.writesDB = repo.writesDB := by
  induction rest generalizing repo restored lastWriteId with
  | nil => exact ⟨repo, lastWriteId, rfl, by simpa using restoring, rfl⟩
  | cons saved rest ih =>
    have whole : restored ++ saved :: rest = (restored ++ [saved]) ++ rest := by simp
    rw [whole] at sorted ⊢
    obtain ⟨middle, done, still, onDisk⟩ := restoring.recordWrite (List.pairwise_append.mp sorted).1
      (positive saved List.mem_cons_self) (something saved List.mem_cons_self)
    -- The number is larger than the last one taken over.
    have inOrder : restoreWrite (repo, lastWriteId) saved = .ok (middle, some saved.1) := by
      cases ends : restored.getLast? with
      | none =>
        rw [ends] at last
        rw [last, restoreWrite]
        simp only [Option.map_none, done]
        rfl
      | some entry =>
        rw [ends] at last
        obtain ⟨front, rfl⟩ := List.getLast?_eq_some_iff.mp ends
        have less : entry.1 < saved.1 := (List.pairwise_append.mp
          (List.pairwise_append.mp sorted).1).2.2 entry (by simp) saved List.mem_cons_self
        rw [last, restoreWrite]
        simp only [Option.map_some, if_neg less.not_ge, done]
        rfl
    obtain ⟨after, final, all, finished, unchanged⟩ := @ih _ _ (some saved.1) still (by simp) sorted
      (fun entry member => positive entry (List.mem_cons_of_mem _ member))
      fun entry member => something entry (List.mem_cons_of_mem _ member)
    refine ⟨after, final, ?_, finished, unchanged.trans onDisk⟩
    rw [List.foldlM_cons, inOrder]
    exact all

/-- A client that is started takes over everything on disk, and nothing is on its way. -/
theorem restoreWrites_ok (comparator : StringComparator) {writesDB : List (ℤ × UserWrite)}
    (sorted : Entries.Sorted writesDB) (positive : ∀ entry ∈ writesDB, 0 ≤ entry.1)
    (something : ∀ entry ∈ writesDB, entry.2.val.overwrites ≠ []) :
    ∃ repo, restoreWrites comparator writesDB = .ok repo ∧ repo.Restoring comparator writesDB ∧
      repo.writesDB = writesDB := by
  -- What is on disk is sorted already.
  have onDisk : userWrites writesDB = writesDB :=
    List.Pairwise.insertionSort_eq (sorted.imp fun less => less.le)
  have fresh : ({ started comparator with writesDB := writesDB } : Repo).Restoring comparator [] :=
    ⟨saved_started comparator, fun _ => layered_started comparator, PersistentConnection.pipeline_opened,
      rfl, rfl, rfl, rfl⟩
  obtain ⟨repo, lastWriteId, all, restoring, unchanged⟩ :=
    @foldlM_restoreWrite _ comparator [] writesDB none fresh rfl sorted positive something
  refine ⟨repo, ?_, restoring, unchanged⟩
  rw [restoreWrites, onDisk, all]
  rfl

end Repo

end CardGuru
