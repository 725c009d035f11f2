import CardGuru.Firebase.Database
import CardGuru.Firebase.ImmutableTree

/-! Several writes of the database client combined into one. -/

namespace CardGuru

/-- How a tree of writes compares names: `compare:` calls different strings the same if they are
canonically equivalent, and children with such names are one child. -/
structure StringComparator where
  /-- The name under which the tree files a child: one for all names that are the same. -/
  filed : Key → Key
  filed_filed : ∀ name, filed (filed name) = filed name

namespace StringComparator

/-- The names under which the children along a path are filed. -/
def filedPath (comparator : StringComparator) (path : Path) : Path := path.map comparator.filed

/-- The comparison of names in plain ASCII, of which no two different ones are the same. -/
def ascii : StringComparator where
  filed := id
  filed_filed := fun _ => rfl

/-- Whether a name is one of its own: it is filed as it is, and no other key has its place in a node. -/
def Clear (comparator : StringComparator) (name : Key) : Prop :=
  comparator.filed name = name ∧ name.Single

instance (comparator : StringComparator) (name : Key) : Decidable (comparator.Clear name) :=
  inferInstanceAs (Decidable (_ ∧ _))

variable {comparator : StringComparator} {path : Path}

/-- A path is filed as it is when each of its names is clear. -/
theorem filedPath_eq (clear : ∀ name ∈ path, comparator.Clear name) : comparator.filedPath path = path :=
  (List.map_congr_left fun name member => (clear name member).1).trans (List.map_id path)

/-- A path is filed part by part. -/
theorem filedPath_append (comparator : StringComparator) (first second : Path) :
    comparator.filedPath (first ++ second) = comparator.filedPath first ++ comparator.filedPath second :=
  List.map_append

end StringComparator

/-- A key under which a tree of writes files a child. -/
structure ChildName where
  key : Key

namespace ChildName

/-- The position of a filed name among all names: its code units, and its text for equal ones. -/
def rank (name : ChildName) : List ℕ ×ₗ String :=
  toLex (utf16 name.key.text, name.key.text)

/-- The position in the order determines the name. -/
theorem rank_injective : Function.Injective rank := by
  -- The last component is the text of the key.
  rintro ⟨first⟩ ⟨second⟩ same
  have text := congrArg (fun rank => (ofLex rank).2) same
  exact congrArg ChildName.mk (Key.ext_text text)

/-- Filed names are ordered as strings, without regard to the integers they spell. -/
instance stringComparator : LinearOrder ChildName := LinearOrder.lift' rank rank_injective

end ChildName

/-- The names along a path. -/
def names (path : Path) : List ChildName := path.map ChildName.mk

/-- The path along some names. -/
def keys (names : List ChildName) : Path := names.map ChildName.key

@[simp] theorem keys_names (path : Path) : keys (names path) = path := by
  simp [keys, names, Function.comp_def]

@[simp] theorem names_keys (list : List ChildName) : names (keys list) = list := by
  simp [keys, names, Function.comp_def]

@[simp] theorem length_names (path : Path) : (names path).length = path.length := by
  simp [names]

/-- Different paths have different names. -/
theorem names_injective : Function.Injective names := fun first second same => by
  rw [← keys_names first, same, keys_names]

@[simp] theorem names_nil : names [] = [] := rfl

@[simp] theorem names_eq_nil {path : Path} : names path = [] ↔ path = [] := by
  simp [names]

@[simp] theorem names_cons (key : Key) (path : Path) : names (key :: path) = ⟨key⟩ :: names path := rfl

@[simp] theorem names_append (first second : Path) : names (first ++ second) = names first ++ names second := by
  simp [names]

/-- A path continues another one exactly when its names do. -/
@[simp] theorem names_prefix_iff {above path : Path} : names above <+: names path ↔ above <+: path :=
  List.prefix_map_iff_of_injective fun _ _ same => congrArg ChildName.key same

/-- Writes at different places, as a tree whose values replace what is stored there. -/
structure CompoundWrite where
  writeTree : ImmutableTree ChildName Node

namespace CompoundWrite

/-- No write at all. -/
def emptyWrite : CompoundWrite := ⟨.empty⟩

/-- Whether no place is written. -/
def isEmpty (write : CompoundWrite) : Bool := write.writeTree.isEmpty

/-- Add a write at a path; one that lies above it takes the new one up. -/
def addWrite (write : CompoundWrite) (node : Node) (path : Path) : CompoundWrite :=
  if path.isEmpty then ⟨.withValue node⟩
  else
    match write.writeTree.findRootMostValueAndPath (names path) with
    | some (rootMost, value) =>
      let relativePath := path.drop rootMost.length
      ⟨write.writeTree.setValue (value.set relativePath node) rootMost⟩
    | none => ⟨write.writeTree.setTree (.withValue node) (names path)⟩

/-- Add all writes of another compound below a path. -/
def addCompoundWrite (write compoundWrite : CompoundWrite) (path : Path) : CompoundWrite :=
  compoundWrite.writeTree.forEach.foldl
    (fun newWrite found => newWrite.addWrite found.2 (path ++ keys found.1)) write

/-- Remove the writes at a path and below it; a write above it stays as it is. -/
def removeWriteAtPath (write : CompoundWrite) (path : Path) : CompoundWrite :=
  if path.isEmpty then emptyWrite else ⟨write.writeTree.setTree .empty (names path)⟩

/-- What a path reads if it is completely overwritten, at the path itself or above it. -/
def completeNodeAtPath (write : CompoundWrite) (path : Path) : Option Node :=
  (write.writeTree.findRootMostValueAndPath (names path)).map fun (rootMost, value) =>
    value.get (path.drop rootMost.length)

/-- Whether a path is completely overwritten. -/
def hasCompleteWriteAtPath (write : CompoundWrite) (path : Path) : Bool :=
  (write.completeNodeAtPath path).isSome

/-- The writes that concern the subtree at a path. -/
def childCompoundWriteAtPath (write : CompoundWrite) (path : Path) : CompoundWrite :=
  if path.isEmpty then write
  else
    match write.completeNodeAtPath path with
    -- A replacement above the path leaves nothing of what is below it.
    | some shadowingNode => ⟨.withValue shadowingNode⟩
    | none => ⟨write.writeTree.subtreeAtPath (names path)⟩

mutual

/-- Perform the writes of a subtree on a node. -/
def applySubtreeWrite : ImmutableTree ChildName Node → Path → Node → Node
  -- A write is always a leaf of its tree, so that nothing is left to do below it.
  | .mk (some value) _, relativePath, node => node.set relativePath value
  | .mk none children, relativePath, node => applyChildrenWrites children relativePath node

/-- Perform the writes below some children on a node. -/
def applyChildrenWrites : List (ChildName × ImmutableTree ChildName Node) → Path → Node → Node
  | [], _, node => node
  | (childKey, childTree) :: rest, relativePath, node =>
    applyChildrenWrites rest relativePath
      (applySubtreeWrite childTree (relativePath ++ [childKey.key]) node)

end

/-- Perform all writes on a node. -/
def applyToNode (write : CompoundWrite) (node : Node) : Node :=
  applySubtreeWrite write.writeTree [] node

/-- The writes with their places, in the order of their enumeration. -/
def writes (write : CompoundWrite) : List (Path × Node) :=
  write.writeTree.forEach.map fun found => (keys found.1, found.2)

/-- What each path is replaced by. -/
def layers (write : CompoundWrite) : Layers Key Leaf := fun path =>
  write.writeTree.valueAtPath (names path)

/-- A compound that the operations build: ordered, without writes below others, of canonical nodes. -/
structure Sound (write : CompoundWrite) : Prop where
  ordered : write.writeTree.Ordered
  separate : write.layers.Separate
  canonical : ∀ {path : Path} {node : Node}, write.layers path = some node → node.Canonical

variable {write : CompoundWrite} {path : Path} {node : Node}

/-- The search of the tree is the search among the layers. -/
theorem findRootMostValueAndPath_names (write : CompoundWrite) (path : Path) :
    write.writeTree.findRootMostValueAndPath (names path) =
      (rootMost write.layers path).map fun found => (names found.1, found.2) := by
  -- The names of a path are searched key by key.
  rw [ImmutableTree.findRootMostValueAndPath_eq]
  have search : ∀ stored : List ChildName → Option Node,
      rootMost stored (names path) =
        (rootMost (fun path => stored (names path)) path).map fun found => (names found.1, found.2) := by
    induction path with
    | nil => intro stored; simp [rootMost, Function.comp_def]
    | cons key path ih =>
      intro stored
      rw [names_cons, rootMost, rootMost, names_nil]
      cases stored [] with
      | some value => rfl
      | none =>
        rw [ih]
        simp [Option.map_map, Function.comp_def]
  exact search _

@[simp] theorem layers_emptyWrite : emptyWrite.layers = fun _ => none :=
  funext fun path => ImmutableTree.valueAtPath_empty (names path)

/-- Adding a write layers it over the others. -/
theorem layers_addWrite (separate : write.layers.Separate) (node : Node) (path : Path) :
    (write.addWrite node path).layers = write.layers.put path node := by
  funext place
  rw [addWrite]
  split
  · -- At the root everything else is replaced.
    rename_i atRoot
    obtain rfl : path = [] := List.isEmpty_iff.mp atRoot
    show ImmutableTree.valueAtPath (.withValue node) (names place) = _
    rw [ImmutableTree.valueAtPath_withValue,
      Layers.put_of_freeAbove (fun above shorter proper => absurd (List.prefix_nil.mp shorter) proper)
        separate List.prefix_rfl]
    cases place <;> simp
  · rw [findRootMostValueAndPath_names, Layers.put]
    cases found : rootMost write.layers path with
    | some pair =>
      obtain ⟨above, value⟩ := pair
      show ImmutableTree.valueAtPath (write.writeTree.setValue _ _) (names place) = _
      rw [ImmutableTree.valueAtPath_setValue, length_names]
      by_cases same : place = above
      · subst same
        simp
      · simp only [if_neg same, if_neg fun equal => same (names_injective equal)]
        rfl
    | none =>
      show ImmutableTree.valueAtPath (write.writeTree.setTree _ _) (names place) = _
      rw [ImmutableTree.valueAtPath_setTree, ImmutableTree.valueAtPath_withValue]
      simp only [names_prefix_iff]
      -- Below the path only the new write counts.
      by_cases below : path <+: place
      · obtain ⟨rest, rfl⟩ := below
        simp
      · have different : place ≠ path := fun same => below (same ▸ List.prefix_rfl)
        simp [below, different, layers]

/-- Nothing written is sound. -/
theorem sound_emptyWrite : emptyWrite.Sound where
  ordered := ImmutableTree.ordered_empty
  separate := by
    rw [layers_emptyWrite]
    -- There is no upper replacement.
    intro above below inside upper
    cases upper
  canonical reads := by simp at reads

/-- Adding a canonical node keeps a compound sound. -/
theorem Sound.addWrite (sound : write.Sound) (canonical : node.Canonical) (path : Path) :
    (write.addWrite node path).Sound where
  ordered := by
    rw [CompoundWrite.addWrite]
    split
    · exact ImmutableTree.ordered_withValue node
    · split
      · exact sound.ordered.setValue _ _
      · exact sound.ordered.setTree (ImmutableTree.ordered_withValue node) _
  separate := by
    rw [layers_addWrite sound.separate]
    exact sound.separate.put path node
  canonical := by
    intro place stored reads
    rw [layers_addWrite sound.separate, Layers.put] at reads
    -- Inside a replacement its node is changed; otherwise a new replacement is made.
    cases found : rootMost write.layers path with
    | some pair =>
      obtain ⟨above, value⟩ := pair
      obtain ⟨_, holds, _⟩ := Layers.rootMost_some found
      rw [found] at reads
      by_cases same : place = above
      · subst same
        simp only [if_true, Option.some.injEq] at reads
        subst reads
        exact (sound.canonical holds).set _ canonical
      · simp only [if_neg same] at reads
        exact sound.canonical reads
    | none =>
      simp only [found] at reads
      split at reads
      · cases reads
        exact canonical
      · split at reads
        · cases reads
        · exact sound.canonical reads

/-- The writes of a compound below a path of the whole tree. -/
def writesAt (write : CompoundWrite) (path : Path) : List (Path × Node) :=
  write.writes.map fun found => (path ++ found.1, found.2)

/-- What is enumerated for a sound compound is what its layers hold. -/
theorem Sound.mem_writes (sound : write.Sound) :
    (path, node) ∈ write.writes ↔ write.layers path = some node := by
  simp only [writes, List.mem_map, Prod.mk.injEq, Prod.exists]
  -- A path of names and the names of a path determine each other.
  constructor
  · rintro ⟨place, stored, member, rfl, rfl⟩
    rw [layers, names_keys]
    exact sound.ordered.mem_forEach.mp member
  · intro reads
    exact ⟨names path, node, sound.ordered.mem_forEach.mpr reads, keys_names path, rfl⟩

/-- Adding a compound layers all of its writes, and keeps the result sound. -/
theorem Sound.addCompoundWrite {compoundWrite : CompoundWrite} (sound : write.Sound)
    (other : compoundWrite.Sound) (path : Path) :
    (write.addCompoundWrite compoundWrite path).Sound ∧
      (write.addCompoundWrite compoundWrite path).layers =
        write.layers.putAll (compoundWrite.writesAt path) := by
  -- The writes are added one by one, each of them a canonical node.
  have each : ∀ found ∈ compoundWrite.writeTree.forEach, found.2.Canonical := by
    rintro ⟨place, node⟩ member
    have reads : compoundWrite.layers (keys place) = some node := by
      rw [layers, names_keys]
      exact other.ordered.mem_forEach.mp member
    exact other.canonical reads
  rw [CompoundWrite.addCompoundWrite, writesAt, writes]
  revert each
  induction compoundWrite.writeTree.forEach generalizing write with
  | nil => exact fun _ => ⟨sound, rfl⟩
  | cons found rest ih =>
    intro each
    have canonical := each found List.mem_cons_self
    obtain ⟨still, layers⟩ := ih (sound.addWrite canonical _)
      fun later member => each later (List.mem_cons_of_mem _ member)
    refine ⟨still, layers.trans ?_⟩
    rw [layers_addWrite sound.separate]
    rfl

/-- Removing a write takes back everything at its path and below it. -/
theorem layers_removeWriteAtPath (write : CompoundWrite) (path : Path) :
    (write.removeWriteAtPath path).layers = write.layers.cut path := by
  funext place
  rw [removeWriteAtPath, Layers.cut]
  -- At the root nothing is left.
  split
  · rename_i atRoot
    obtain rfl : path = [] := List.isEmpty_iff.mp atRoot
    simp
  · show ImmutableTree.valueAtPath (write.writeTree.setTree _ _) (names place) = _
    rw [ImmutableTree.valueAtPath_setTree]
    simp [layers]

/-- Removing a write keeps a compound sound. -/
theorem Sound.removeWriteAtPath (sound : write.Sound) (path : Path) :
    (write.removeWriteAtPath path).Sound where
  ordered := by
    rw [CompoundWrite.removeWriteAtPath]
    split
    · exact ImmutableTree.ordered_empty
    · exact sound.ordered.setTree ImmutableTree.ordered_empty _
  separate := by
    -- What is left was there before.
    intro above below inside upper lower
    rw [layers_removeWriteAtPath, Layers.cut] at upper lower
    split at upper
    · cases upper
    · split at lower
      · cases lower
      · exact sound.separate above below inside upper lower
  canonical := by
    intro place stored reads
    rw [layers_removeWriteAtPath, Layers.cut] at reads
    split at reads
    · cases reads
    · exact sound.canonical reads

/-- A complete node is read inside the replacement on the way to it. -/
theorem completeNodeAtPath_eq (write : CompoundWrite) (path : Path) :
    write.completeNodeAtPath path =
      (rootMost write.layers path).map fun found => found.2.get (path.drop found.1.length) := by
  -- The tree is asked along the names of the path.
  rw [completeNodeAtPath, findRootMostValueAndPath_names, Option.map_map]
  simp [Function.comp_def]

/-- What is seen at a node without a write of its own, and below one of its children. -/
private theorem over_children {children : List (ChildName × ImmutableTree ChildName Node)}
    (base : Path → Option Leaf) :
    (layers ⟨.mk none children⟩).laidOver base [] = base [] ∧
      ∀ key path, (layers ⟨.mk none children⟩).laidOver base (key :: path) =
        (layers ⟨(children.lookup ⟨key⟩).getD .empty⟩).laidOver (fun path => base (key :: path)) path := by
  -- The search finds nothing at the node itself.
  have top : layers ⟨.mk none children⟩ [] = none := rfl
  refine ⟨by simp [Layers.laidOver, rootMost, top], fun key path => ?_⟩
  have below : (fun path => layers ⟨.mk none children⟩ (key :: path)) =
      layers ⟨(children.lookup ⟨key⟩).getD .empty⟩ := by
    funext path
    exact ImmutableTree.valueAtPath_cons _ _ _
  rw [Layers.laidOver, rootMost, top]
  simp only [below]
  rw [Layers.laidOver]
  cases rootMost (layers ⟨(children.lookup ⟨key⟩).getD .empty⟩) path with
  | none => rfl
  | some found => simp

/-- What performing the writes of a tree at a path shows, there and elsewhere. -/
private structure Shown (tree : ImmutableTree ChildName Node) (relativePath : Path)
    (node written : Node) : Prop where
  inside : ∀ place, written.valueAt (relativePath ++ place) =
    (layers ⟨tree⟩).laidOver (fun place => node.valueAt (relativePath ++ place)) place
  outside : ∀ place, ¬ relativePath <+: place → written.valueAt place = node.valueAt place

/-- The writes below some children show what the children show. -/
private theorem shown_children {children : List (ChildName × ImmutableTree ChildName Node)}
    (sorted : Entries.Sorted children)
    (each : ∀ entry ∈ children, ∀ relativePath node,
      (∀ place, (layers ⟨entry.2⟩ place).isSome → Layers.Bare node.valueAt (relativePath ++ place)) →
      Shown entry.2 relativePath node (applySubtreeWrite entry.2 relativePath node))
    (relativePath : Path) (node : Node)
    (bare : ∀ place, (layers ⟨.mk none children⟩ place).isSome →
      Layers.Bare node.valueAt (relativePath ++ place)) :
    Shown (.mk none children) relativePath node (applyChildrenWrites children relativePath node) := by
  -- The first child changes only what lies below it, where no other child writes.
  induction children generalizing node with
  | nil =>
    have nothing : layers ⟨(.mk none [] : ImmutableTree ChildName Node)⟩ = fun _ => none :=
      layers_emptyWrite
    refine ⟨fun place => ?_, fun _ _ => rfl⟩
    rw [Layers.over_of_free _ fun above _ => by rw [nothing]]
    rfl
  | cons entry rest ih =>
    obtain ⟨name, tree⟩ := entry
    obtain ⟨larger, restSorted⟩ := List.pairwise_cons.mp sorted
    have absent : rest.lookup name = none := by
      rw [List.lookup_eq_none_iff]
      intro other member
      exact bne_iff_ne.mpr (larger other member).ne
    have first : Shown tree (relativePath ++ [name.key]) node
        (applySubtreeWrite tree (relativePath ++ [name.key]) node) := by
      refine each _ List.mem_cons_self _ _ fun place stored => ?_
      have moved := bare (name.key :: place) (by
        show (ImmutableTree.valueAtPath _ (name :: names place)).isSome = true
        rw [ImmutableTree.valueAtPath_cons, ImmutableTree.children_mk, List.lookup_cons_self]
        exact stored)
      simpa using moved
    have elsewhere : ∀ key path, ChildName.mk key ≠ name →
        (applySubtreeWrite tree (relativePath ++ [name.key]) node).valueAt
          (relativePath ++ key :: path) = node.valueAt (relativePath ++ key :: path) := by
      intro key path different
      refine first.outside _ fun inside => different ?_
      simp only [List.prefix_append_right_inj, List.cons_prefix_cons] at inside
      rw [← inside.1]
    have skipped : ∀ key : Key, ChildName.mk key ≠ name →
        ((name, tree) :: rest).lookup ⟨key⟩ = rest.lookup ⟨key⟩ := fun key different => by
      rw [List.lookup_cons, beq_eq_false_iff_ne.mpr different]
    have later := ih restSorted (fun entry member => each entry (List.mem_cons_of_mem _ member))
      (applySubtreeWrite tree (relativePath ++ [name.key]) node) (by
        intro place stored above shorter proper
        cases place with
        | nil => cases stored
        | cons key path =>
          have reads : (layers ⟨.mk none rest⟩ (key :: path)) =
              ((rest.lookup ⟨key⟩).getD .empty).valueAtPath (names path) :=
            ImmutableTree.valueAtPath_cons _ _ _
          have different : ChildName.mk key ≠ name := by
            rintro rfl
            simp [reads, absent] at stored
          rw [first.outside above fun inside => different ?_]
          · refine bare (key :: path) ?_ above shorter proper
            show (ImmutableTree.valueAtPath _ (⟨key⟩ :: names path)).isSome = true
            rw [ImmutableTree.valueAtPath_cons, ImmutableTree.children_mk, skipped key different, ← reads]
            exact stored
          · have within := inside.trans shorter
            simp only [List.prefix_append_right_inj, List.cons_prefix_cons] at within
            rw [← within.1])
    refine ⟨fun place => ?_, fun place away => ?_⟩
    · rw [applyChildrenWrites, later.inside place]
      cases place with
      | nil =>
        rw [(over_children _).1, (over_children _).1]
        refine first.outside _ fun inside => ?_
        have lengths := inside.length_le
        simp at lengths
      | cons key path =>
        rw [(over_children _).2, (over_children _).2]
        by_cases same : ChildName.mk key = name
        · subst same
          have shown := first.inside path
          simp only [List.append_assoc, List.singleton_append] at shown
          rw [absent, List.lookup_cons_self, Option.getD_some, Option.getD_none, ← shown]
          exact Layers.over_of_free _ fun above _ => ImmutableTree.valueAtPath_empty _
        · rw [skipped key same]
          simp only [elsewhere key _ same]
    · rw [applyChildrenWrites, later.outside place away, first.outside place fun inside =>
        away ((List.prefix_append _ _).trans inside)]

/-- The writes of a tree show what its layers show, where the node has no values above them. -/
private theorem shown_applySubtreeWrite {tree : ImmutableTree ChildName Node} (ordered : tree.Ordered)
    (relativePath : Path) (node : Node)
    (bare : ∀ place, (layers ⟨tree⟩ place).isSome → Layers.Bare node.valueAt (relativePath ++ place)) :
    Shown tree relativePath node (applySubtreeWrite tree relativePath node) := by
  induction ordered generalizing relativePath node with
  | @mk top children sorted each ih =>
    cases top with
    -- The value replaces everything below its place.
    | some value =>
      have atTop : layers ⟨.mk (some value) children⟩ [] = some value := rfl
      refine ⟨fun place => ?_, fun place away => ?_⟩
      · rw [applySubtreeWrite, KeyTree.valueAt_set, if_pos (List.prefix_append _ _), List.drop_left]
        cases place <;> simp [Layers.laidOver, rootMost, atTop]
      · rw [applySubtreeWrite, KeyTree.valueAt_set, if_neg away]
        split
        · rename_i stored
          refine (bare [] (by simp [atTop]) place (by simpa using stored.1) ?_).symm
          rintro rfl
          simp at away
        · rfl
    -- The children are performed one after the other.
    | none =>
      exact shown_children sorted (fun entry member relativePath node bare =>
        ih entry member relativePath node bare) relativePath node bare

/-- Performing a compound on a node without values above its places shows its layers over the node. -/
theorem Sound.valueAt_applyToNode (sound : write.Sound)
    (bare : ∀ place, (write.layers place).isSome → Layers.Bare node.valueAt place) :
    (write.applyToNode node).valueAt = write.layers.laidOver node.valueAt :=
  -- Every place lies below the root.
  funext (shown_applySubtreeWrite sound.ordered [] node bare).inside

/-- Performing canonical writes keeps a node canonical. -/
private theorem canonical_applySubtreeWrite {tree : ImmutableTree ChildName Node}
    (ordered : tree.Ordered) (stored : ∀ {path : Path} {node : Node},
      layers ⟨tree⟩ path = some node → node.Canonical)
    (relativePath : Path) (canonical : node.Canonical) :
    (applySubtreeWrite tree relativePath node).Canonical := by
  induction ordered generalizing relativePath node with
  | @mk top children sorted each ih =>
    cases top with
    | some value =>
      rw [applySubtreeWrite]
      exact canonical.set _ (@stored [] value rfl)
    | none =>
      rw [applySubtreeWrite]
      -- The children hold canonical nodes, as parts of the tree.
      have below : ∀ entry ∈ children, ∀ {path : Path} {node : Node},
          layers ⟨entry.2⟩ path = some node → node.Canonical := by
        intro entry member path node reads
        have looked : children.lookup entry.1 = some entry.2 := sorted.lookup_of_mem member
        refine @stored (entry.1.key :: path) node ?_
        rw [layers, names_cons, ImmutableTree.valueAtPath_cons, ImmutableTree.children_mk, looked,
          Option.getD_some]
        exact reads
      clear sorted stored
      induction children generalizing node with
      | nil => exact canonical
      | cons entry rest restIh =>
        rw [applyChildrenWrites]
        refine restIh (fun other member => each other (List.mem_cons_of_mem _ member))
          (fun other member => ih other (List.mem_cons_of_mem _ member)) ?_
          fun other member => below other (List.mem_cons_of_mem _ member)
        exact ih entry List.mem_cons_self (below entry List.mem_cons_self) _ canonical

/-- Performing a sound compound keeps a node canonical. -/
theorem Sound.canonical_applyToNode (sound : write.Sound) (canonical : node.Canonical) :
    (write.applyToNode node).Canonical :=
  canonical_applySubtreeWrite sound.ordered sound.canonical [] canonical

/-- The writes of a path, seen over its subtree, are those of the whole, seen below the path. -/
theorem over_childCompoundWriteAtPath (write : CompoundWrite) (base : Path → Option Leaf)
    (path place : Path) :
    (write.childCompoundWriteAtPath path).layers.laidOver (fun place => base (path ++ place)) place =
      write.layers.laidOver base (path ++ place) := by
  rw [childCompoundWriteAtPath]
  split
  · rename_i atRoot
    obtain rfl : path = [] := List.isEmpty_iff.mp atRoot
    rfl
  · rw [completeNodeAtPath_eq]
    cases found : rootMost write.layers path with
    | some pair =>
      -- A replacement on the way to the path is all that is seen below it.
      obtain ⟨above, node⟩ := pair
      obtain ⟨⟨rest, rfl⟩, holds, free⟩ := Layers.rootMost_some found
      have search : rootMost write.layers (above ++ rest ++ place) = some (above, node) := by
        rw [List.append_assoc, Layers.rootMost_append free]
        cases rest ++ place <;> simp [rootMost, holds]
      have top : layers ⟨.withValue (node.get rest)⟩ [] = some (node.get rest) := rfl
      rw [Layers.laidOver, Layers.laidOver, search]
      simp only [Option.map_some, List.drop_left, List.append_assoc]
      rw [← KeyTree.valueAt_get]
      cases place <;> simp [rootMost, top]
    | none =>
      have free : write.layers.FreeAbove path := fun above shorter _ =>
        Layers.rootMost_eq_none.mp found above shorter
      have below : layers ⟨write.writeTree.subtreeAtPath (names path)⟩ =
          fun place => write.layers (path ++ place) := by
        funext place
        rw [layers, ImmutableTree.valueAtPath_subtreeAtPath, ← names_append]
        rfl
      simp only [Option.map_none]
      rw [Layers.laidOver, Layers.laidOver, below, Layers.rootMost_append free]
      cases rootMost (fun place => write.layers (path ++ place)) place with
      | none => rfl
      | some pair =>
        simp only [Option.map_some, List.length_append, ← List.drop_drop, List.drop_left]

end CompoundWrite

end CardGuru
