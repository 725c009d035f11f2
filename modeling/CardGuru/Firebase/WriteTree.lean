import CardGuru.Firebase.CompoundWrite
import CardGuru.Firebase.WriteChanges
import CardGuru.Lib.Run

/-! The writes that the database client has made and the server has not acknowledged. -/

namespace CardGuru

/-- Whether a path is another one or lies above it. -/
def contains (path other : Path) : Bool := decide (path <+: other)

@[simp] theorem contains_iff {path other : Path} : contains path other = true ↔ path <+: other := by
  simp [contains]

/-- What a recorded write does at its path. -/
inductive WriteChange where
  /-- Replace everything. -/
  | overwrite (node : Node)
  /-- Replace the listed children. -/
  | merge (changedChildren : CompoundWrite)

/-- A recorded write. -/
structure WriteRecord where
  path : Path
  change : WriteChange
  writeId : ℤ
  /-- Whether the write is to be seen before the server has acknowledged it. -/
  visible : Bool

namespace WriteRecord

/-- The places a write replaces, with what it stores there. -/
def writes (record : WriteRecord) : List (Path × Node) :=
  -- An overwrite has one place, a merge one for each field.
  match record.change with
  | .overwrite node => [(record.path, node)]
  | .merge changedChildren => changedChildren.writesAt record.path

/-- Whether a write replaces everything at a path. -/
def containsPath (record : WriteRecord) (path : Path) : Bool :=
  match record.change with
  | .overwrite _ => contains record.path path
  | .merge changedChildren =>
    -- A merge replaces what lies below one of its fields.
    changedChildren.writes.any fun found => contains (record.path ++ found.1) path

/-- Layer a write over others, as far as it concerns what is below a path. -/
def layer (comparator : StringComparator) (treeRoot : Path) (compoundWrite : CompoundWrite)
    (record : WriteRecord) : CompoundWrite :=
  match record.change with
  | .overwrite node =>
    -- Paths are compared plainly, and only the tree files names that are the same together.
    if contains treeRoot record.path then
      compoundWrite.addWrite node (comparator.filedPath (record.path.drop treeRoot.length))
    else if contains record.path treeRoot then
      compoundWrite.addWrite (node.get (treeRoot.drop record.path.length)) []
    -- The write does not overlap with what is below the root.
    else compoundWrite
  | .merge changedChildren =>
    if contains treeRoot record.path then
      compoundWrite.addCompoundWrite changedChildren
        (comparator.filedPath (record.path.drop treeRoot.length))
    else if contains record.path treeRoot then
      let relativePath := treeRoot.drop record.path.length
      if relativePath.isEmpty then compoundWrite.addCompoundWrite changedChildren []
      else
        match changedChildren.completeNodeAtPath (comparator.filedPath relativePath) with
        | some child => compoundWrite.addWrite (child.get relativePath.tail) []
        | none => compoundWrite
    else compoundWrite

end WriteRecord

/-- The recorded writes, and what those to be seen amount to. -/
structure WriteTree where
  comparator : StringComparator
  visibleWrites : CompoundWrite
  /-- The writes in the order in which they were made. -/
  allWrites : List WriteRecord
  lastWriteId : ℤ

namespace WriteTree

/-- Before the first write. -/
def initial (comparator : StringComparator) : WriteTree := ⟨comparator, .emptyWrite, [], -1⟩

/-- Record an overwrite; the number of the write must be larger than that of the last one. -/
def addOverwriteAtPath (tree : WriteTree) (path : Path) (newData : Node) (writeId : ℤ)
    (visible : Bool) : Option WriteTree :=
  if tree.lastWriteId < writeId then
    some
      { comparator := tree.comparator
        visibleWrites :=
          -- A hidden write is recorded only.
          if visible then tree.visibleWrites.addWrite newData (tree.comparator.filedPath path)
          else tree.visibleWrites
        allWrites := tree.allWrites ++ [⟨path, .overwrite newData, writeId, visible⟩]
        lastWriteId := writeId }
  else none

/-- Record a merge, which is always seen. -/
def addMergeAtPath (tree : WriteTree) (path : Path) (changedChildren : CompoundWrite)
    (writeId : ℤ) : Option WriteTree :=
  if tree.lastWriteId < writeId then
    some
      { comparator := tree.comparator
        -- A merge is layered field by field.
        visibleWrites :=
          tree.visibleWrites.addCompoundWrite changedChildren (tree.comparator.filedPath path)
        allWrites := tree.allWrites ++ [⟨path, .merge changedChildren, writeId, true⟩]
        lastWriteId := writeId }
  else none

/-- Layer the writes that pass a filter, as far as they concern what is below a path. -/
def layerTreeFromWrites (comparator : StringComparator) (writes : List WriteRecord)
    (filter : WriteRecord → Bool) (treeRoot : Path) : CompoundWrite :=
  -- From the oldest write to the newest.
  writes.foldl
    (fun compoundWrite record =>
      if filter record then record.layer comparator treeRoot compoundWrite else compoundWrite)
    .emptyWrite

/-- The filter of the whole tree keeps every write. -/
def defaultFilter (_ : WriteRecord) : Bool := true

/-- Compute again what the writes amount to. -/
def resetTree (tree : WriteTree) : WriteTree :=
  { tree with
    -- The filter lets every write pass, hidden ones too.
    visibleWrites := layerTreeFromWrites tree.comparator tree.allWrites defaultFilter []
    -- Without writes the numbers start again.
    lastWriteId := (tree.allWrites.getLast?.map WriteRecord.writeId).getD (-1) }

/-- Look through the remaining writes from the last one on, each with its index: whether a later one
hides the removed write, and if none does, whether any lies below its path. -/
def scanWrites (removed : WriteRecord) (index : ℕ) : List (WriteRecord × ℕ) → Bool → Bool × Bool
  | [], overlaps => (false, overlaps)
  | (currentWrite, i) :: earlier, overlaps =>
    if currentWrite.visible then
      -- From the index on stand the writes that came after the removed one.
      if index ≤ i ∧ currentWrite.containsPath removed.path then (true, overlaps)
      else scanWrites removed index earlier (overlaps || contains removed.path currentWrite.path)
    else scanWrites removed index earlier overlaps

/-- What the writes to be seen become when a write is taken back on its own. -/
def takenBack (comparator : StringComparator) (visibleWrites : CompoundWrite)
    (writeToRemove : WriteRecord) : CompoundWrite :=
  match writeToRemove.change with
  | .overwrite _ => visibleWrites.removeWriteAtPath (comparator.filedPath writeToRemove.path)
  -- Only the fields are taken back, not everything below the path.
  | .merge merge => merge.writes.foldl
      (fun visible found =>
        visible.removeWriteAtPath (comparator.filedPath (writeToRemove.path ++ found.1)))
      visibleWrites

/-- Forget the write with a number, and whether anything seen may have changed by that. -/
def removeWriteId (tree : WriteTree) (writeId : ℤ) : Option (WriteTree × Bool) :=
  match tree.allWrites.findIdx? fun record => record.writeId = writeId with
  | none => none
  | some index =>
    match tree.allWrites[index]? with
    | none => none
    | some writeToRemove =>
      let remaining := { tree with allWrites := tree.allWrites.eraseIdx index }
      if !writeToRemove.visible then some (remaining, false)
      else
        let (shadowed, overlaps) :=
          scanWrites writeToRemove index remaining.allWrites.zipIdx.reverse false
        -- The removed write was hidden completely by a later one.
        if shadowed then some (remaining, false)
        -- Other writes lie below its path, and everything is computed again.
        else if overlaps then some (remaining.resetTree, true)
        else
          some
            ({ remaining with
                visibleWrites := takenBack tree.comparator tree.visibleWrites writeToRemove }, true)

/-- Forget all writes. -/
def removeAllWrites (tree : WriteTree) : WriteTree :=
  { tree with visibleWrites := .emptyWrite, allWrites := [] }

/-- What is seen at a path, if it is known completely: server data under the writes to be seen, or
under chosen ones. -/
def calculateCompleteEventCacheAtPath (tree : WriteTree) (treePath : Path)
    (completeServerCache : Option Node) (writeIdsToExclude : Option (List ℤ))
    (includeHiddenWrites : Bool) : Option Node :=
  let subMerge := tree.visibleWrites.childCompoundWriteAtPath (tree.comparator.filedPath treePath)
  let incomplete := completeServerCache.isNone && !subMerge.hasCompleteWriteAtPath []
  -- The usual case works on the writes that are kept layered.
  if writeIdsToExclude.isNone && !includeHiddenWrites then
    match tree.visibleWrites.completeNodeAtPath (tree.comparator.filedPath treePath) with
    | some shadowingNode => some shadowingNode
    | none =>
      if subMerge.isEmpty then completeServerCache
      else if incomplete then none
      else some (subMerge.applyToNode (completeServerCache.getD .empty))
  else if !includeHiddenWrites && subMerge.isEmpty then completeServerCache
  else if !includeHiddenWrites && incomplete then none
  else
    -- Otherwise the chosen writes are layered for this call.
    let filter := fun record : WriteRecord =>
      (record.visible || includeHiddenWrites) &&
        (writeIdsToExclude.all fun excluded => !excluded.contains record.writeId) &&
        (contains record.path treePath || contains treePath record.path)
    let mergeAtPath := layerTreeFromWrites tree.comparator tree.allWrites filter treePath
    some (mergeAtPath.applyToNode (completeServerCache.getD .empty))

/-- The compound of the fields that an update lists. -/
def compoundWriteFromDictionary (comparator : StringComparator) (values : List (Key × Option Leaf)) :
    CompoundWrite :=
  -- A field set to null is stored as the empty node.
  values.foldl
    (fun compoundWrite field =>
      compoundWrite.addWrite (field.2.elim .empty .leaf) (comparator.filedPath [field.1]))
    .emptyWrite

/-- Record a write of the program; an update without fields does nothing. -/
def applyUserWrite (tree : WriteTree) (writeId : ℤ) (write : DatabaseWrite) : Option WriteTree :=
  match write with
  | .setValue path _ => tree.addOverwriteAtPath path (write.replacement .empty) writeId true
  | .removeValue path => tree.addOverwriteAtPath path .empty writeId true
  | .updateChildValues path values =>
    let nodes := compoundWriteFromDictionary tree.comparator values
    -- The number is not recorded either.
    if nodes.isEmpty then some tree else tree.addMergeAtPath path nodes writeId

/-- What happens to the recorded writes. -/
inductive Event where
  /-- The program makes a write, which gets a number. -/
  | userWrite (writeId : ℤ) (write : UserWrite)
  /-- The server has acknowledged a write. -/
  | ackUserWrite (writeId : ℤ)
  /-- All writes are given up. -/
  | removeAllWrites
deriving DecidableEq

/-- The tree after an event, unless the number of a write is refused. -/
def next (tree : WriteTree) : Event → Option WriteTree
  | .userWrite writeId write => tree.applyUserWrite writeId write.val
  -- What the removal reports is not needed here.
  | .ackUserWrite writeId => (tree.removeWriteId writeId).map Prod.fst
  | .removeAllWrites => some tree.removeAllWrites

end WriteTree

end CardGuru
