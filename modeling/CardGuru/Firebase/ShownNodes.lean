import CardGuru.Firebase.LayeredWrites

/-! The node that pending writes make of the server data at a path. -/

namespace CardGuru

namespace CompoundWrite

/-- The writes that concern a subtree are sound when all of them are. -/
theorem Sound.childCompoundWriteAtPath {write : CompoundWrite} (sound : write.Sound) (path : Path)
    (free : rootMost write.layers path = none) :
    (write.childCompoundWriteAtPath path).Sound ∧
      (write.childCompoundWriteAtPath path).layers = fun place => write.layers (path ++ place) := by
  rw [CompoundWrite.childCompoundWriteAtPath]
  split
  · rename_i atRoot
    obtain rfl : path = [] := List.isEmpty_iff.mp atRoot
    exact ⟨sound, rfl⟩
  · rw [completeNodeAtPath_eq, free]
    have below : layers ⟨write.writeTree.subtreeAtPath (names path)⟩ =
        fun place => write.layers (path ++ place) := by
      funext place
      rw [layers, ImmutableTree.valueAtPath_subtreeAtPath, ← names_append]
      rfl
    refine ⟨⟨sound.ordered.subtreeAtPath _, ?_, fun reads => ?_⟩, below⟩
    · show Layers.Separate (layers ⟨write.writeTree.subtreeAtPath (names path)⟩)
      rw [below]
      intro above place inside upper lower
      exact List.append_cancel_left
        (sound.separate _ _ ((List.prefix_append_right_inj path).mpr inside) upper lower)
    · exact sound.canonical ((congrFun below _).symm.trans reads)

variable {write : CompoundWrite} {path : Path} {node : Node}

/-- Performing no write changes nothing. -/
theorem applyToNode_of_isEmpty (nothing : write.isEmpty = true) (node : Node) : write.applyToNode node = node := by
  -- There is neither a value at the top nor a child.
  obtain ⟨⟨value, children⟩⟩ := write
  simp only [isEmpty, ImmutableTree.isEmpty, Bool.and_eq_true, Option.isNone_iff_eq_none, List.isEmpty_iff] at nothing
  obtain ⟨rfl, rfl⟩ := nothing
  rfl

/-- A node that is written completely is canonical. -/
theorem Sound.canonical_completeNodeAtPath (sound : write.Sound)
    (complete : write.completeNodeAtPath path = some node) : node.Canonical := by
  -- It is read inside of a replacement.
  rw [completeNodeAtPath_eq] at complete
  obtain ⟨⟨above, stored⟩, found, rfl⟩ := Option.map_eq_some_iff.mp complete
  exact (sound.canonical (Layers.rootMost_some found).2.1).get _

end CompoundWrite

namespace WriteTree

variable {tree : WriteTree} {path : Path} {server node : Node}

/-- The node that a write at a path or above it leaves there, whatever the server data. -/
def shadowingWriteAtPath (tree : WriteTree) (path : Path) : Option Node :=
  tree.visibleWrites.completeNodeAtPath (tree.comparator.filedPath path)

/-- The node at a path: written completely, or the writes performed on the server data. -/
def shownAtPath (tree : WriteTree) (path : Path) (server : Node) : Node :=
  match tree.shadowingWriteAtPath path with
  | some shadowingNode => shadowingNode
  | none =>
    (tree.visibleWrites.childCompoundWriteAtPath (tree.comparator.filedPath path)).applyToNode server

/-- A write that hides the server data determines what is shown. -/
theorem shownAtPath_of_shadowing (shadowing : tree.shadowingWriteAtPath path = some node) (server : Node) :
    tree.shownAtPath path server = node := by
  rw [shownAtPath, shadowing]

/-- Without such a write the pending writes are performed on the server data. -/
theorem shownAtPath_of_free (free : tree.shadowingWriteAtPath path = none) (server : Node) :
    tree.shownAtPath path server =
      (tree.visibleWrites.childCompoundWriteAtPath (tree.comparator.filedPath path)).applyToNode server := by
  rw [shownAtPath, free]

/-- What is shown is canonical. -/
theorem canonical_shownAtPath (sound : tree.visibleWrites.Sound) (canonical : server.Canonical) :
    (tree.shownAtPath path server).Canonical := by
  unfold shownAtPath
  split
  · rename_i complete
    exact sound.canonical_completeNodeAtPath complete
  · rename_i free
    have nothing := free
    rw [shadowingWriteAtPath, CompoundWrite.completeNodeAtPath_eq, Option.map_eq_none_iff] at nothing
    exact (sound.childCompoundWriteAtPath _ nothing).1.canonical_applyToNode canonical

/-- What is shown below a path are the values of the server data seen through the writes. -/
theorem valueAt_shownAtPath {base : Path → Option Leaf} (sound : tree.visibleWrites.Sound)
    (filed : tree.comparator.filedPath path = path)
    (bare : ∀ place, (tree.visibleWrites.layers place).isSome → Layers.Bare base place)
    (data : ∀ place, base (path ++ place) = server.valueAt place) (place : Path) :
    (tree.shownAtPath path server).valueAt place = tree.visibleWrites.layers.laidOver base (path ++ place) := by
  -- The writes of the subtree show below the path what all writes show there.
  have below := CompoundWrite.over_childCompoundWriteAtPath tree.visibleWrites base path place
  cases found : rootMost tree.visibleWrites.layers path with
  | some pair =>
    obtain ⟨above, node⟩ := pair
    obtain ⟨⟨rest, rfl⟩, holds, _⟩ := Layers.rootMost_some found
    have shadowing : tree.shadowingWriteAtPath (above ++ rest) = some (node.get rest) := by
      rw [shadowingWriteAtPath, filed, CompoundWrite.completeNodeAtPath_eq, found, Option.map_some,
        List.drop_left]
    rw [shownAtPath_of_shadowing shadowing, KeyTree.valueAt_get, List.append_assoc,
      sound.separate.laidOver base (List.prefix_append above _) holds, List.drop_left]
  | none =>
    obtain ⟨childSound, childLayers⟩ := sound.childCompoundWriteAtPath path found
    have free : tree.shadowingWriteAtPath path = none := by
      rw [shadowingWriteAtPath, filed, CompoundWrite.completeNodeAtPath_eq, found, Option.map_none]
    have server : server.valueAt = fun place => base (path ++ place) := funext fun place => (data place).symm
    rw [shownAtPath_of_free free, filed, childSound.valueAt_applyToNode, server, below]
    -- No value of the subtree lies above a place that is written.
    intro written stored above shorter proper
    rw [childLayers] at stored
    rw [server]
    refine bare _ stored _ ((List.prefix_append_right_inj path).mpr shorter) fun same => proper ?_
    exact List.append_cancel_left same

/-- Over complete server data, the node at a path is known. -/
theorem calculateCompleteEventCacheAtPath_some (tree : WriteTree) (path : Path) (server : Node) :
    tree.calculateCompleteEventCacheAtPath path (some server) none false = some (tree.shownAtPath path server) := by
  simp only [calculateCompleteEventCacheAtPath, Option.isNone_none, Bool.not_false, Bool.and_self, if_true,
    Option.isNone_some, Bool.false_and, Bool.false_eq_true, if_false, Option.getD_some, shownAtPath,
    shadowingWriteAtPath]
  cases tree.visibleWrites.completeNodeAtPath (tree.comparator.filedPath path) with
  | some shadowingNode => rfl
  | none =>
    dsimp only
    -- Performing no write is left out.
    split
    · rename_i nothing
      rw [CompoundWrite.applyToNode_of_isEmpty nothing]
    · rfl

end WriteTree

end CardGuru
