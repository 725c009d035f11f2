import Mathlib.Data.List.Infix
import CardGuru.Lib.TreeValues

/-! Replaced subtrees layered over a tree: what a sequence of writes amounts to, and what is left of
it when some of the writes are taken back. -/

/-- What is stored nearest to the root on the way along a path. -/
def rootMost {K A : Type*} (stored : List K → Option A) : List K → Option (List K × A)
  | [] => (stored []).map fun value => ([], value)
  | key :: path =>
    match stored [] with
    | some value => some ([], value)
    -- Nothing is stored here, so the search goes on below the first key.
    | none => (rootMost (fun below => stored (key :: below)) path).map fun found =>
        (key :: found.1, found.2)

/-- The subtrees that replace those at some paths. -/
abbrev Layers (K V : Type*) := List K → Option (KeyTree K V)

namespace Layers

variable {K V : Type*}

/-- No replacement lies below another one. -/
def Separate (layers : Layers K V) : Prop :=
  ∀ above below, above <+: below → (layers above).isSome → (layers below).isSome → above = below

/-- Nothing is replaced above a path. -/
def FreeAbove (layers : Layers K V) (path : List K) : Prop :=
  ∀ above, above <+: path → above ≠ path → layers above = none

/-- Both replace the same outside the subtree at a path. -/
def AgreeOff (path : List K) (first second : Layers K V) : Prop :=
  ∀ place, ¬ path <+: place → first place = second place

variable {layers first second : Layers K V} {path place above : List K} {node : KeyTree K V}

/-- What is found lies on the path and is the first one there. -/
theorem rootMost_some (found : rootMost layers path = some (above, node)) :
    above <+: path ∧ layers above = some node ∧ layers.FreeAbove above := by
  -- Each turn of the search has seen that nothing is replaced so far.
  induction path generalizing layers above with
  | nil =>
    obtain ⟨_, top, pair⟩ := Option.map_eq_some_iff.mp found
    cases pair
    exact ⟨List.nil_prefix, top, fun other inside proper => absurd (List.prefix_nil.mp inside) proper⟩
  | cons key path ih =>
    rw [rootMost] at found
    cases top : layers [] with
    | some replaced =>
      simp only [top] at found
      cases found
      exact ⟨List.nil_prefix, top,
        fun other inside proper => absurd (List.prefix_nil.mp inside) proper⟩
    | none =>
      simp only [top] at found
      obtain ⟨⟨rest, _⟩, below, pair⟩ := Option.map_eq_some_iff.mp found
      cases pair
      obtain ⟨inside, reads, free⟩ := ih below
      refine ⟨List.cons_prefix_cons.mpr ⟨rfl, inside⟩, reads, fun other shorter proper => ?_⟩
      cases other with
      | nil => exact top
      | cons step other =>
        obtain ⟨rfl, deeper⟩ := List.cons_prefix_cons.mp shorter
        exact free other deeper fun same => proper (by rw [same])

/-- Nothing is found exactly when nothing on the path is replaced. -/
theorem rootMost_eq_none : rootMost layers path = none ↔ ∀ above, above <+: path → layers above = none := by
  -- The search goes down from the root, one step of the path after the other.
  induction path generalizing layers with
  | nil => simp [rootMost, List.prefix_nil]
  | cons key path ih =>
    rw [rootMost]
    cases top : layers [] with
    | some replaced =>
      constructor
      · intro found
        cases found
      · intro free
        rw [free [] List.nil_prefix] at top
        cases top
    | none =>
      simp only [Option.map_eq_none_iff]
      rw [ih]
      constructor
      · intro free other inside
        cases other with
        | nil => exact top
        | cons step other =>
          obtain ⟨rfl, deeper⟩ := List.cons_prefix_cons.mp inside
          exact free other deeper
      · intro free other inside
        exact free (key :: other) (List.cons_prefix_cons.mpr ⟨rfl, inside⟩)

/-- Separate replacements leave at most one candidate on a path. -/
theorem Separate.rootMost_eq (separate : layers.Separate) (inside : above <+: path)
    (replaced : layers above = some node) : rootMost layers path = some (above, node) := by
  -- What is found is comparable with the candidate, as both lie on the path.
  cases found : rootMost layers path with
  | none =>
    rw [rootMost_eq_none.mp found above inside] at replaced
    cases replaced
  | some pair =>
    obtain ⟨other, value⟩ := pair
    obtain ⟨otherInside, reads, _⟩ := rootMost_some found
    have same : other = above := by
      rcases List.prefix_or_prefix_of_prefix otherInside inside with shorter | longer
      · exact separate _ _ shorter (by simp [reads]) (by simp [replaced])
      · exact (separate _ _ longer (by simp [replaced]) (by simp [reads])).symm
    subst same
    rw [reads] at replaced
    cases replaced
    rfl

/-- The search only looks at what lies on the path. -/
theorem rootMost_congr (same : ∀ above, above <+: path → first above = second above) :
    rootMost first path = rootMost second path := by
  induction path generalizing first second with
  | nil => simp [rootMost, same [] List.nil_prefix]
  | cons key path ih =>
    -- Below the first step the same holds of the rest of the path.
    have below := @ih (fun rest => first (key :: rest)) (fun rest => second (key :: rest))
      fun rest inside => same (key :: rest) (List.cons_prefix_cons.mpr ⟨rfl, inside⟩)
    simp [rootMost, same [] List.nil_prefix, below]

/-- Without anything stored above a path, what is found further down is found below it. -/
theorem rootMost_append (free : layers.FreeAbove path) (below : List K) :
    rootMost layers (path ++ below) =
      (rootMost (fun place => layers (path ++ place)) below).map fun found =>
        (path ++ found.1, found.2) := by
  induction path generalizing layers with
  | nil => simp
  | cons key path ih =>
    -- Nothing is found on the way to the path.
    have top : layers [] = none := free [] List.nil_prefix (by simp)
    have deeper : FreeAbove (fun place => layers (key :: place)) path := by
      intro above shorter proper
      exact free (key :: above) (List.cons_prefix_cons.mpr ⟨rfl, shorter⟩) (by simpa using proper)
    rw [List.cons_append, rootMost, top]
    simp only [ih deeper, Option.map_map]
    rfl

/-- The search agrees on paths that do not lead into the subtree. -/
theorem AgreeOff.rootMost_eq (agree : AgreeOff path first second) (outside : ¬ path <+: place) :
    rootMost first place = rootMost second place :=
  -- No part of the path lies in the subtree either.
  rootMost_congr fun other shorter => agree other fun inside => outside (inside.trans shorter)

/-- What is free above a path stays so for whatever agrees outside of it. -/
theorem FreeAbove.of_agreeOff (free : first.FreeAbove path) (agree : AgreeOff path first second) :
    second.FreeAbove path := by
  intro other shorter proper
  -- A shorter path does not lie below the path itself.
  rw [← agree other fun longer => proper (shorter.eq_of_length_le longer.length_le)]
  exact free other shorter proper

variable [LinearOrder K]

/-- Layer one more replacement over the others. -/
def put (layers : Layers K V) (path : List K) (replacement : KeyTree K V) : Layers K V :=
  match rootMost layers path with
  -- A replacement above the path takes the new one up.
  | some (above, node) => fun place =>
    if place = above then some (node.set (path.drop above.length) replacement) else layers place
  -- Otherwise it takes the place of everything below the path.
  | none => fun place =>
    if place = path then some replacement else if path <+: place then none else layers place

/-- Take back everything at a path and below it. -/
def cut (layers : Layers K V) (path : List K) : Layers K V := fun place =>
  if path <+: place then none else layers place

/-- The values seen through the replacements. -/
def laidOver (layers : Layers K V) (base : List K → Option V) : List K → Option V := fun place =>
  match rootMost layers place with
  -- A replacement hides the base, also where it has no value.
  | some (above, node) => node.valueAt (place.drop above.length)
  | none => base place

/-- Layer writes one after the other. -/
def putAll (layers : Layers K V) (writes : List (List K × KeyTree K V)) : Layers K V :=
  writes.foldl (fun layers write => layers.put write.1 write.2) layers

/-- The layers of a sequence of writes alone. -/
def ofWrites (writes : List (List K × KeyTree K V)) : Layers K V :=
  putAll (fun _ => none) writes

@[simp] theorem putAll_nil : layers.putAll [] = layers := rfl

@[simp] theorem putAll_cons (write : List K × KeyTree K V) (writes : List (List K × KeyTree K V)) :
    layers.putAll (write :: writes) = (layers.put write.1 write.2).putAll writes := rfl

theorem putAll_append (earlier later : List (List K × KeyTree K V)) :
    layers.putAll (earlier ++ later) = (layers.putAll earlier).putAll later := by
  simp [putAll]

/-- A replacement is where it was put or where there was one before. -/
theorem isSome_put {replacement : KeyTree K V}
    (replaced : (layers.put path replacement place).isSome) : place = path ∨ (layers place).isSome := by
  -- Being taken up does not move the replacement above.
  cases found : rootMost layers path with
  | some pair =>
    by_cases same : place = pair.1
    · subst same
      exact .inr (by simp [(rootMost_some found).2.1])
    · simp only [put, found, if_neg same] at replaced
      exact .inr replaced
  | none =>
    simp only [put, found] at replaced
    split at replaced
    · exact .inl ‹_›
    · split at replaced
      · cases replaced
      · exact .inr replaced

/-- After a write something is replaced at its path or above it. -/
theorem exists_put (layers : Layers K V) (path : List K) (replacement : KeyTree K V) :
    ∃ above, above <+: path ∧ (layers.put path replacement above).isSome := by
  -- The write is taken up by what is there, or replaces the path itself.
  cases found : rootMost layers path with
  | some pair => exact ⟨pair.1, (rootMost_some found).1, by simp [put, found]⟩
  | none => exact ⟨path, List.prefix_rfl, by simp [put, found]⟩

/-- A replacement of a layered sequence is at the path of one of the writes. -/
theorem isSome_putAll {writes : List (List K × KeyTree K V)}
    (replaced : (layers.putAll writes place).isSome) :
    (∃ write ∈ writes, write.1 = place) ∨ (layers place).isSome := by
  induction writes generalizing layers with
  | nil => exact .inr replaced
  | cons write writes ih =>
    -- It is from a later write, from this one, or from before.
    rcases ih replaced with ⟨later, member, rfl⟩ | earlier
    · exact .inl ⟨later, List.mem_cons_of_mem _ member, rfl⟩
    · rcases isSome_put earlier with rfl | before
      · exact .inl ⟨write, List.mem_cons_self, rfl⟩
      · exact .inr before

/-- Layering keeps the replacements separate. -/
theorem Separate.put (separate : layers.Separate) (path : List K) (replacement : KeyTree K V) :
    (layers.put path replacement).Separate := by
  -- Without a replacement above, those below the path give way to the new one.
  intro above below inside upper lower
  cases found : rootMost layers path with
  | some pair =>
    have kept : ∀ place, (layers.put path replacement place).isSome → (layers place).isSome := by
      intro place replaced
      rcases isSome_put replaced with rfl | before
      · by_contra nothing
        obtain ⟨holder, node⟩ := pair
        obtain ⟨_, holds, _⟩ := rootMost_some found
        have other : place ≠ holder := by
          rintro rfl
          simp [holds] at nothing
        simp only [Layers.put, found, if_neg other] at replaced
        exact nothing replaced
      · exact before
    exact separate above below inside (kept above upper) (kept below lower)
  | none =>
    have free := rootMost_eq_none.mp found
    simp only [Layers.put, found] at upper lower
    by_cases atPath : above = path
    · subst atPath
      by_contra different
      rw [if_neg (Ne.symm different), if_pos inside] at lower
      cases lower
    · rw [if_neg atPath] at upper
      split at upper
      · cases upper
      · split at lower
        · rename_i belowPath
          subst belowPath
          rw [free above inside] at upper
          cases upper
        · split at lower
          · cases lower
          · exact separate above below inside upper lower

/-- Layering a sequence keeps the replacements separate. -/
theorem Separate.putAll (separate : layers.Separate) (writes : List (List K × KeyTree K V)) :
    (layers.putAll writes).Separate := by
  -- One write after the other.
  induction writes generalizing layers with
  | nil => exact separate
  | cons write writes ih => exact ih (separate.put write.1 write.2)

/-- Layered sequences are separate. -/
theorem separate_ofWrites (writes : List (List K × KeyTree K V)) :
    (ofWrites writes : Layers K V).Separate :=
  -- Nothing at all is separate.
  Separate.putAll (fun _ _ _ upper _ => by simp at upper) writes

/-- Through a replacement its own values are seen. -/
theorem Separate.laidOver (separate : layers.Separate) (base : List K → Option V) (inside : above <+: place)
    (replaced : layers above = some node) :
    layers.laidOver base place = node.valueAt (place.drop above.length) := by
  -- The search ends at this replacement, as no other lies above it.
  rw [Layers.laidOver, separate.rootMost_eq inside replaced]

/-- Where nothing is replaced the base is seen. -/
theorem over_of_free (base : List K → Option V) (free : ∀ above, above <+: place → layers above = none) :
    layers.laidOver base place = base place := by
  rw [Layers.laidOver, rootMost_eq_none.mpr free]

/-- No value lies above a path. -/
def Bare (base : List K → Option V) (path : List K) : Prop :=
  ∀ above, above <+: path → above ≠ path → base above = none

instance {Key Value : Type*} [DecidableEq Key] (base : List Key → Option Value) (path : List Key) :
    Decidable (Bare base path) :=
  decidable_of_iff (∀ above ∈ path.inits, above ≠ path → (base above).isNone = true)
    (by simp only [Bare, List.mem_inits, Option.isNone_iff_eq_none])

/-- The values after one write: replaced below it, and gone above it if something is stored. -/
def overwrite (path : List K) (replacement : KeyTree K V) (values : List K → Option V) :
    List K → Option V := fun place =>
  if path <+: place then replacement.valueAt (place.drop path.length)
  -- A value cannot have children, so it goes when something is stored below it.
  else if place <+: path ∧ replacement.isEmpty = false then none
  else values place

/-- Writing into a tree overwrites its values. -/
theorem valueAt_set (tree : KeyTree K V) (path : List K) (replacement : KeyTree K V) :
    (tree.set path replacement).valueAt = overwrite path replacement tree.valueAt :=
  funext fun place => KeyTree.valueAt_set tree path place replacement

/-- Below the replacement that takes a write up, the write is seen inside of it. -/
private theorem over_put_taken {base : List K → Option V} (separate : layers.Separate)
    (found : rootMost layers path = some (above, node)) (inside : above <+: place)
    (replacement : KeyTree K V) :
    (layers.put path replacement).laidOver base place = overwrite path replacement (layers.laidOver base) place := by
  obtain ⟨onPath, holds, _⟩ := rootMost_some found
  obtain ⟨rest, rfl⟩ := onPath
  obtain ⟨below, rfl⟩ := inside
  -- The upper replacement takes the write up.
  have put : layers.put (above ++ rest) replacement above = some (node.set rest replacement) := by
    simp [Layers.put, found]
  rw [(separate.put _ _).laidOver base (List.prefix_append _ _) put, List.drop_left, valueAt_set]
  simp only [overwrite, List.prefix_append_right_inj, separate.laidOver base (List.prefix_append _ _) holds,
    List.drop_left, List.length_append, ← List.drop_drop]

/-- Values seen through one more layer are those seen before, overwritten once more. -/
theorem over_put {base : List K → Option V} (separate : layers.Separate) (bare : Bare base path)
    (replacement : KeyTree K V) :
    (layers.put path replacement).laidOver base = overwrite path replacement (layers.laidOver base) := by
  funext place
  cases found : rootMost layers path with
  | some pair =>
    obtain ⟨above, node⟩ := pair
    by_cases inside : above <+: place
    · exact over_put_taken separate found inside replacement
    · -- Outside of the replacement that takes the write up, nothing changes.
      obtain ⟨onPath, holds, free⟩ := rootMost_some found
      have same : (layers.put path replacement).laidOver base place = layers.laidOver base place := by
        have search : rootMost (layers.put path replacement) place = rootMost layers place := by
          refine rootMost_congr fun other shorter => ?_
          have different : other ≠ above := by
            rintro rfl
            exact inside shorter
          simp [put, found, different]
        rw [laidOver, laidOver, search]
      rw [same, overwrite, if_neg fun below => inside (onPath.trans below)]
      split
      · rename_i stored
        -- Above that replacement the base has no value.
        have shorter : place <+: above :=
          (List.prefix_or_prefix_of_prefix stored.1 onPath).resolve_right inside
        have nothing : ∀ other, other <+: place → layers other = none := fun other within =>
          free other (within.trans shorter) fun equal => inside (equal ▸ within)
        rw [over_of_free base nothing]
        refine bare place stored.1 ?_
        rintro rfl
        exact inside onPath
      · rfl
  | none =>
    have free := rootMost_eq_none.mp found
    by_cases below : path <+: place
    · have put : layers.put path replacement path = some replacement := by simp [Layers.put, found]
      rw [(separate.put _ _).laidOver base below put, overwrite, if_pos below]
    · have search : rootMost (layers.put path replacement) place = rootMost layers place := by
        refine rootMost_congr fun other shorter => ?_
        have notBelow : ¬ path <+: other := fun inside => below (inside.trans shorter)
        have different : other ≠ path := fun same => notBelow (same ▸ List.prefix_rfl)
        simp [put, found, different, notBelow]
      rw [laidOver, search, ← laidOver, overwrite, if_neg below]
      split
      · rename_i stored
        rw [over_of_free base fun other within => free other (within.trans stored.1)]
        refine bare place stored.1 ?_
        rintro rfl
        exact below List.prefix_rfl
      · rfl

/-- Performing writes on a tree without values above them shows what their layers show. -/
theorem valueAt_foldl_set {base : List K → Option V} {writes : List (List K × KeyTree K V)}
    (separate : layers.Separate) (bare : ∀ write ∈ writes, Bare base write.1) {tree : KeyTree K V}
    (start : tree.valueAt = layers.laidOver base) :
    (writes.foldl (fun tree write => tree.set write.1 write.2) tree).valueAt =
      (layers.putAll writes).laidOver base := by
  induction writes generalizing layers tree with
  | nil => exact start
  | cons write writes ih =>
    -- One write is the overwrite of one layer.
    refine ih (separate.put write.1 write.2)
      (fun later member => bare later (List.mem_cons_of_mem _ member)) ?_
    rw [valueAt_set, start, over_put separate (bare write List.mem_cons_self)]

/-- A write at a path or below it does not change what is replaced elsewhere. -/
theorem agreeOff_put (free : layers.FreeAbove path) (inside : path <+: place)
    (replacement : KeyTree K V) : AgreeOff path (layers.put place replacement) layers := by
  -- A replacement that takes the write up is not above the path.
  intro other outside
  cases found : rootMost layers place with
  | some pair =>
    obtain ⟨above, node⟩ := pair
    obtain ⟨onPlace, holds, _⟩ := rootMost_some found
    have different : other ≠ above := by
      rintro rfl
      rcases List.prefix_or_prefix_of_prefix onPlace inside with shorter | longer
      · rw [free other shorter fun same => outside (same ▸ List.prefix_rfl)] at holds
        cases holds
      · exact outside longer
    simp [put, found, different]
  | none =>
    have notBelow : ¬ place <+: other := fun below => outside (inside.trans below)
    have different : other ≠ place := fun same => notBelow (same ▸ List.prefix_rfl)
    simp [put, found, different, notBelow]

/-- Nothing comes above a path while no write is made above it. -/
theorem FreeAbove.put (free : layers.FreeAbove path) (outside : ¬ (place <+: path ∧ place ≠ path))
    (replacement : KeyTree K V) : (layers.put place replacement).FreeAbove path := by
  intro other shorter proper
  by_contra replaced
  -- What is replaced above was written there or was replaced before.
  rcases isSome_put (Option.isSome_iff_ne_none.mpr replaced) with rfl | before
  · exact outside ⟨shorter, proper⟩
  · simp [free other shorter proper] at before

/-- A write keeps the agreement outside of a path above which nothing is replaced. -/
theorem AgreeOff.put (agree : AgreeOff path first second) (free : first.FreeAbove path)
    (place : List K) (replacement : KeyTree K V) :
    AgreeOff path (first.put place replacement) (second.put place replacement) := by
  intro other away
  -- A write below the path changes nothing outside; another one finds the same on its way.
  by_cases inside : path <+: place
  · rw [agreeOff_put free inside replacement other away, agree other away,
      agreeOff_put (free.of_agreeOff agree) inside replacement other away]
  · have search := agree.rootMost_eq inside
    cases found : rootMost first place with
    | some pair =>
      by_cases same : other = pair.1
      · subst same
        simp [Layers.put, found, ← search]
      · simpa [Layers.put, found, ← search, same] using agree other away
    | none => simp [Layers.put, found, ← search, agree other away]

/-- A write at a path above which nothing is replaced, or above that path, replaces everything below. -/
theorem put_of_freeAbove (free : layers.FreeAbove path) (separate : layers.Separate)
    (shorter : place <+: path) (replacement : KeyTree K V) :
    layers.put place replacement = fun other =>
      if other = place then some replacement else if place <+: other then none else layers other := by
  cases found : rootMost layers place with
  | none => simp [put, found]
  | some pair =>
    -- Only a replacement at the path itself can take the write up.
    obtain ⟨above, node⟩ := pair
    obtain ⟨onPlace, holds, _⟩ := rootMost_some found
    have atPath : above = path := by
      by_contra proper
      rw [free above (onPlace.trans shorter) proper] at holds
      cases holds
    subst atPath
    obtain rfl : place = above := shorter.eq_of_length_le onPlace.length_le
    funext other
    by_cases same : other = place
    · subst same
      simp [put, found]
    · simp only [put, found, if_neg same]
      split
      · rename_i below
        by_contra replaced
        have stored : (layers other).isSome := Option.isSome_iff_ne_none.mpr replaced
        exact same (separate _ _ below (by simp [holds]) stored).symm
      · rfl

/-- A write at a path or above it makes agreement outside of the path an equality. -/
theorem AgreeOff.put_eq (agree : AgreeOff path first second) (free : first.FreeAbove path)
    (firstSeparate : first.Separate) (secondSeparate : second.Separate) (shorter : place <+: path)
    (replacement : KeyTree K V) : first.put place replacement = second.put place replacement := by
  -- At the path or above it the write replaces everything below, and both agree elsewhere.
  rw [put_of_freeAbove free firstSeparate shorter,
    put_of_freeAbove (free.of_agreeOff agree) secondSeparate shorter]
  funext other
  split
  · rfl
  · split
    · rfl
    · rename_i outside
      exact agree other fun inside => outside (shorter.trans inside)

/-- Writes made at a path or below it do not change what is replaced elsewhere. -/
theorem agreeOff_putAll {writes : List (List K × KeyTree K V)} (free : layers.FreeAbove path)
    (inside : ∀ write ∈ writes, path <+: write.1) :
    AgreeOff path (layers.putAll writes) layers ∧ (layers.putAll writes).FreeAbove path := by
  induction writes generalizing layers with
  | nil => exact ⟨fun _ _ => rfl, free⟩
  | cons write writes ih =>
    have first := inside write List.mem_cons_self
    -- A write inside is not above the path.
    have notAbove : ¬ (write.1 <+: path ∧ write.1 ≠ path) := fun above =>
      above.2 (above.1.eq_of_length_le first.length_le)
    obtain ⟨agree, still⟩ := ih (free.put notAbove write.2)
      fun later member => inside later (List.mem_cons_of_mem _ member)
    exact ⟨fun other away => (agree other away).trans (agreeOff_put free first write.2 other away), still⟩

/-- Writes that are followed by one at or above their path may be left out. -/
theorem putAll_shadowed {later : List (List K × KeyTree K V)}
    (agree : AgreeOff path first second) (free : first.FreeAbove path)
    (firstSeparate : first.Separate) (secondSeparate : second.Separate)
    (shadowed : ∃ write ∈ later, write.1 <+: path) : first.putAll later = second.putAll later := by
  -- The agreement lasts until the first write that covers the path.
  induction later generalizing first second with
  | nil => simp at shadowed
  | cons write later ih =>
    rw [putAll_cons, putAll_cons]
    by_cases covers : write.1 <+: path
    · rw [agree.put_eq free firstSeparate secondSeparate covers]
    · obtain ⟨shadow, member, above⟩ := shadowed
      have inLater : shadow ∈ later := by
        rcases List.mem_cons.mp member with rfl | inside
        · exact absurd above covers
        · exact inside
      exact ih (agree.put free write.1 write.2) (free.put (fun proper => covers proper.1) write.2)
        (firstSeparate.put _ _) (secondSeparate.put _ _) ⟨shadow, inLater, above⟩

/-- Taking back a subtree commutes with a write that is not made there. -/
theorem cut_put (notBelow : ¬ path <+: place) (replacement : KeyTree K V) :
    (layers.put place replacement).cut path = (layers.cut path).put place replacement := by
  -- The search of the write does not pass through what is cut.
  have agree : AgreeOff path (layers.cut path) layers := fun other outside => by simp [cut, outside]
  have search := agree.rootMost_eq notBelow
  funext other
  cases found : rootMost layers place with
  | some pair =>
    obtain ⟨above, node⟩ := pair
    have outside : ¬ path <+: above := fun inside => notBelow (inside.trans (rootMost_some found).1)
    by_cases same : other = above
    · subst same
      simp [cut, put, search, found, outside]
    · simp [cut, put, search, found, same]
  | none =>
    simp only [cut, put, search, found]
    by_cases inside : path <+: other
    · have different : other ≠ place := fun same => notBelow (same ▸ inside)
      simp [inside, different]
    · simp [inside]

/-- Taking back a subtree commutes with writes that are not made there. -/
theorem cut_putAll {writes : List (List K × KeyTree K V)}
    (apart : ∀ write ∈ writes, ¬ path <+: write.1) :
    (layers.putAll writes).cut path = (layers.cut path).putAll writes := by
  induction writes generalizing layers with
  | nil => rfl
  -- The cut passes through one write after the other.
  | cons write writes ih =>
    rw [putAll_cons, putAll_cons, ih fun later member => apart later (List.mem_cons_of_mem _ member),
      cut_put (apart write List.mem_cons_self)]

/-- Taking back what agrees outside of it with something that has nothing there gives that back. -/
theorem AgreeOff.cut_eq (agree : AgreeOff path first second)
    (nothing : ∀ place, path <+: place → second place = none) : first.cut path = second := by
  funext place
  -- Inside both have nothing, and outside they agree.
  by_cases inside : path <+: place
  · simp [cut, inside, nothing place inside]
  · simp [cut, inside, agree place inside]

/-- Writes of which none lies below another one are layered as they are. -/
theorem putAll_of_antichain {earlier later : List (List K × KeyTree K V)}
    (holds : ∀ place node, layers place = some node ↔ (place, node) ∈ earlier)
    (antichain : ∀ first ∈ earlier ++ later, ∀ second ∈ earlier ++ later,
      first.1 <+: second.1 → first = second) (place : List K) (node : KeyTree K V) :
    layers.putAll later place = some node ↔ (place, node) ∈ earlier ++ later := by
  induction later generalizing layers earlier with
  | nil => simpa using holds place node
  | cons write later ih =>
    -- Whatever the new write meets is the same write.
    have put : ∀ place, layers.put write.1 write.2 place =
        if place = write.1 then some write.2 else layers place := by
      intro place
      cases found : rootMost layers write.1 with
      | some pair =>
        obtain ⟨inside, reads, _⟩ := rootMost_some found
        have same := antichain pair (List.mem_append_left _ ((holds _ _).mp reads)) write (by simp) inside
        subst same
        simp [Layers.put, found]
      | none =>
        simp only [Layers.put, found]
        split
        · rfl
        · rename_i different
          split
          · rename_i below
            by_contra stored
            obtain ⟨other, reads⟩ := Option.ne_none_iff_exists'.mp (Ne.symm stored)
            have same := antichain write (by simp) (place, other)
              (List.mem_append_left _ ((holds _ _).mp reads)) below
            exact different (congrArg Prod.fst same).symm
          · rfl
    have next : ∀ place node, layers.put write.1 write.2 place = some node ↔
        (place, node) ∈ earlier ++ [write] := by
      intro place node
      rw [put, List.mem_append, List.mem_singleton, ← holds]
      by_cases same : place = write.1
      · subst same
        simp only [if_true, Option.some.injEq]
        constructor
        · rintro rfl
          exact .inr rfl
        · rintro (reads | pair)
          · have equal := antichain _ (List.mem_append_left _ ((holds _ _).mp reads)) write (by simp)
              List.prefix_rfl
            rw [← equal]
          · rw [← pair]
      · rw [if_neg same]
        constructor
        · exact .inl
        · rintro (reads | pair)
          · exact reads
          · exact absurd (congrArg Prod.fst pair) same
    rw [putAll_cons, ih next (by simpa using antichain)]
    simp

/-- Performing writes on a tree without values above them shows their layers over the tree. -/
theorem valueAt_performed {writes : List (List K × KeyTree K V)} {tree : KeyTree K V}
    (bare : ∀ write ∈ writes, Bare tree.valueAt write.1) :
    (writes.foldl (fun tree write => tree.set write.1 write.2) tree).valueAt =
      (ofWrites writes).laidOver tree.valueAt := by
  -- At the start nothing is replaced.
  refine valueAt_foldl_set (fun _ _ _ upper _ => by cases upper) bare ?_
  funext place
  exact (over_of_free _ fun _ _ => rfl).symm

end Layers
