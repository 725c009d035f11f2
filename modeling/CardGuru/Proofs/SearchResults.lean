import CardGuru.HomeScreen.Scenario

/-! The search results are those of the list exactly as long as no event other than a search changes
which listed cards match. -/

namespace CardGuru

namespace HomeViewController

/-- Whether a name starts with the text of the search bar, ignoring case. -/
def isFound (platform : Platform) (home : HomeViewController) (name : String) : Bool :=
  platform.startsWith (platform.lowercased name) (platform.lowercased home.searchText)

variable {platform : Platform}

/-- While a search is active, the results are the listed cards whose names match, in list order. -/
def ResultsCurrent (platform : Platform) (home : HomeViewController) : Prop :=
  ∀ refs, home.cards = some refs → home.isSearching = true →
    home.filteredCards = refs.filter fun ref => home.isFound platform (home.heap ref).name

instance (home : HomeViewController) : Decidable (ResultsCurrent platform home) :=
  inferInstanceAs (Decidable (∀ refs ∈ home.cards, _ → _))

variable {home after : HomeViewController} {refs : List CardRef}

/-- Filtering one list by two tests gives the same exactly if they agree on the list. -/
private theorem filter_eq_filter_iff {first second : CardRef → Bool} :
    refs.filter first = refs.filter second ↔ ∀ ref ∈ refs, first ref = second ref := by
  constructor
  · intro same ref member
    -- A card passes a test exactly if it is among those that do.
    have one : ref ∈ refs.filter first ↔ ref ∈ refs.filter second := by rw [same]
    simp only [List.mem_filter, member, true_and] at one
    exact Bool.eq_iff_iff.mpr one
  · exact List.filter_congr

/-- After a load the results are current exactly if neither an old nor a new card was found. -/
private theorem resultsCurrent_loadCompletion (objects : home.Objects fun _ => True) (initial : Bool)
    (cards : List Card) :
    (home.loadCompletion initial cards).ResultsCurrent platform ↔
      (home.isSearching = true → home.filteredCards = [] ∧
        ∀ card ∈ cards, home.isFound platform card.name = false) := by
  obtain ⟨_, _, _, _, shape⟩ := home.loadCompletion_frame initial cards
  have delivered : (home.allocated cards).map (home.allocate cards).heap = cards :=
    home.cardsAt_allocated cards
  have unmatched : (home.allocated cards).filter (fun ref =>
        home.isFound platform ((home.allocate cards).heap ref).name) = [] ↔
      ∀ card ∈ cards, home.isFound platform card.name = false := by
    conv_rhs => rw [← delivered]
    simp [List.filter_eq_nil_iff]
  rw [shape, ResultsCurrent, ← unmatched]
  constructor
  · intro current searching
    have same : home.filteredCards = (home.allocated cards).filter fun ref =>
        home.isFound platform ((home.allocate cards).heap ref).name := current _ rfl searching
    -- The old results are old objects, and the list consists of new ones.
    have nothing : home.filteredCards = [] := by
      refine List.eq_nil_iff_forall_not_mem.mpr fun ref member => ?_
      have old := objects.found ref member
      rw [same] at member
      have new := List.mem_range'_1.mp (List.mem_of_mem_filter member)
      exact absurd old (Nat.not_lt.mpr new.1)
    exact ⟨nothing, same.symm.trans nothing⟩
  · intro absent listed here searching
    cases Option.some.inj here
    obtain ⟨nothing, none⟩ := absent searching
    exact nothing.trans none.symm

/-- After an addition the results are current exactly if the new card does not match. -/
private theorem resultsCurrent_userDidEnterCard (objects : home.Objects fun _ => True)
    (current : home.ResultsCurrent platform) (card : Card) :
    (home.userDidEnterCard card).ResultsCurrent platform ↔
      (home.cards.isSome = true → home.isSearching = true →
        home.isFound platform card.name = false) := by
  cases listed : home.cards with
  | none =>
    -- Nothing is listed before and after.
    simp [ResultsCurrent, userDidEnterCard, listed]
  | some refs =>
    have old : ∀ ref ∈ refs, (home.allocate [card]).heap ref = home.heap ref := by
      intro ref member
      simp [allocate, objects.listed refs listed ref member]
    have new : (home.allocate [card]).heap home.nextRef = card := by simp [allocate]
    have kept : (refs.filter fun ref =>
        home.isFound platform ((home.allocate [card]).heap ref).name) =
          refs.filter fun ref => home.isFound platform (home.heap ref).name :=
      List.filter_congr fun ref member => by rw [old ref member]
    have results : ((refs ++ [home.nextRef]).filter fun ref =>
        home.isFound platform ((home.allocate [card]).heap ref).name) =
          (refs.filter fun ref => home.isFound platform (home.heap ref).name) ++
            bif home.isFound platform card.name then [home.nextRef] else [] := by
      rw [List.filter_append, kept, List.filter_singleton, new]
    rw [userDidEnterCard_loaded listed]
    constructor
    · intro after _ searching
      have same := after _ rfl searching
      have before := current refs listed searching
      have added : home.filteredCards = _ := same.trans results
      rw [before] at added
      cases found : home.isFound platform card.name with
      | false => rfl
      | true => simp [found] at added
    · intro unmatched shown here searching
      cases Option.some.inj here
      have before := current refs listed searching
      refine before.trans (Eq.trans ?_ results.symm)
      simp [unmatched rfl searching]

/-- After an edit the results are current exactly if every edited card matches as before. -/
private theorem resultsCurrent_userDidUpdateData (current : home.ResultsCurrent platform)
    (updated : Card) :
    (home.userDidUpdateData platform updated).ResultsCurrent platform ↔
      (home.isSearching = true → ∀ ref ∈ home.cards.getD [],
        platform.equals (home.heap ref).uid updated.uid = true →
          home.isFound platform (home.heap ref).name = home.isFound platform updated.name) := by
  cases listed : home.cards with
  | none =>
    -- Nothing is listed before and after.
    simp [ResultsCurrent, userDidUpdateData, listed]
  | some refs =>
    rw [userDidUpdateData_loaded listed]
    -- Only the names of the edited cards have changed.
    have names : (∀ ref ∈ refs, home.isFound platform (home.heap ref).name =
        home.isFound platform ((home.userDidUpdateData platform updated).heap ref).name) ↔
        ∀ ref ∈ refs, platform.equals (home.heap ref).uid updated.uid = true →
          home.isFound platform (home.heap ref).name = home.isFound platform updated.name := by
      refine forall₂_congr fun ref member => ?_
      by_cases edited : platform.equals (home.heap ref).uid updated.uid = true
      · simp [userDidUpdateData_loaded listed, mutate, member, edited]
      · simp [userDidUpdateData_loaded listed, mutate, edited]
    rw [userDidUpdateData_loaded listed] at names
    constructor
    · intro after searching
      have before := current refs listed searching
      have same := after refs listed searching
      exact names.mp (filter_eq_filter_iff.mp (before.symm.trans same))
    · intro matching shown here searching
      cases Option.some.inj (listed.symm.trans here)
      have before := current refs listed searching
      exact before.trans (filter_eq_filter_iff.mpr (names.mpr (matching searching)))

/-- The results stay current while nothing that a search looks at changes. -/
private theorem ResultsCurrent.of_kept (current : home.ResultsCurrent platform)
    (cards : after.cards = home.cards) (found : after.filteredCards = home.filteredCards)
    (isActive : after.isActive = home.isActive) (searchText : after.searchText = home.searchText)
    (names : ∀ ref, (after.heap ref).name = (home.heap ref).name) :
    after.ResultsCurrent platform := by
  -- The search reads the list, the names and the text only.
  intro refs listed searching
  have before := current refs (cards ▸ listed) (by simpa [isSearching, isActive, searchText] using searching)
  simpa only [found, isFound, searchText, names] using before

/-- New notes do not concern the results. -/
private theorem resultsCurrent_userDidAddNotes (current : home.ResultsCurrent platform)
    (noted : Card) : (home.userDidAddNotes platform noted).ResultsCurrent platform := by
  cases listed : home.cards with
  | none => simpa [userDidAddNotes, listed] using current
  | some refs =>
    rw [userDidAddNotes_loaded listed]
    refine current.of_kept rfl rfl rfl rfl fun ref => ?_
    -- The name of a card is not part of its notes.
    simp only [heap_reloadData, mutate]
    split <;> rfl

/-- A search makes the results current. -/
private theorem resultsCurrent_updateSearchResults (home : HomeViewController) (isActive : Bool)
    (text : String) : (home.updateSearchResults platform isActive text).ResultsCurrent platform := by
  -- Results that have just been computed are current.
  unfold updateSearchResults filterCardsForSearchedText
  split
  · rename_i missing
    intro refs listed
    have nothing : home.cards = some refs := listed
    simp only at missing
    rw [missing] at nothing
    cases nothing
  · rename_i listed found
    intro refs here searching
    have same : home.cards = some refs := here
    simp only at found
    cases Option.some.inj (found.symm.trans same)
    rfl

end HomeViewController

namespace HomeScreen

variable {platform : Platform} {screen after final : HomeScreen} {event : HomeEvent}
  {history : List (HomeScreen × HomeEvent)} {id : Nat}

/-- An event changes neither the list nor the names in it in a way that a search would notice. -/
def KeepsResults (platform : Platform) (screen : HomeScreen) : HomeEvent → Prop
  -- A delivered list consists of new objects, which the old results are not.
  | .loadDelivered cards | .reloadDelivered cards =>
    screen.home.isSearching = true → screen.home.filteredCards = [] ∧
      ∀ card ∈ cards, screen.home.isFound platform card.name = false
  | .userDidEnterCard card =>
    screen.home.cards.isSome = true → screen.home.isSearching = true →
      screen.home.isFound platform card.name = false
  | .userDidUpdateData updated =>
    screen.home.isSearching = true → ∀ ref ∈ screen.home.cards.getD [],
      platform.equals (screen.home.heap ref).uid updated.uid = true →
        screen.home.isFound platform (screen.home.heap ref).name =
          screen.home.isFound platform updated.name
  | _ => True

instance (screen : HomeScreen) (event : HomeEvent) : Decidable (KeepsResults platform screen event) :=
  match event with
  | .loadDelivered cards | .reloadDelivered cards =>
    inferInstanceAs (Decidable (_ → _ ∧ ∀ card ∈ cards, _ = false))
  | .userDidEnterCard _ => inferInstanceAs (Decidable (_ → _ → _ = false))
  | .userDidUpdateData _ =>
    inferInstanceAs (Decidable (_ → ∀ ref ∈ screen.home.cards.getD [], _ = true → _ = _))
  | .userDidRemoveData | .userDidAddNotes _ | .viewWillAppear | .searchChanged _ _
  | .cellForItemAt _ _ | .didEndDisplaying _ | .prepare _ | .downloadFinished _ _ => .isTrue trivial

/-- An event keeps the results current exactly if it is of the described kind. -/
private theorem resultsCurrent_iff_keepsResults (objects : screen.home.Objects fun _ => True)
    (current : screen.home.ResultsCurrent platform) (stepped : Steps platform screen event after) :
    after.home.ResultsCurrent platform ↔ KeepsResults platform screen event := by
  cases stepped with
  | @loadedEmpty cards loading empty =>
    exact HomeViewController.resultsCurrent_loadCompletion objects true cards
  | @loaded cards loading filled =>
    exact HomeViewController.resultsCurrent_loadCompletion objects true cards
  | @reloadDelivered cards pending =>
    exact HomeViewController.resultsCurrent_loadCompletion objects false cards
  | @userDidEnterCard card =>
    exact HomeViewController.resultsCurrent_userDidEnterCard objects current card
  | @userDidUpdateData updated =>
    rw [home_reloadedIfLoaded]
    exact HomeViewController.resultsCurrent_userDidUpdateData current updated
  | @userDidAddNotes noted =>
    rw [home_reloadedIfLoaded]
    exact iff_of_true (HomeViewController.resultsCurrent_userDidAddNotes current noted) trivial
  | viewWillAppear =>
    obtain ⟨_, _, _, same⟩ := screen.home.viewWillAppear_frame
    refine iff_of_true ?_ trivial
    rw [same]
    exact current.of_kept rfl rfl rfl rfl fun _ => rfl
  | @searchChanged isActive text =>
    rw [home_reloadedIfLoaded]
    exact iff_of_true
      (HomeViewController.resultsCurrent_updateSearchResults screen.home isActive text) trivial
  | @downloadFinished position image download ref pending captured =>
    refine iff_of_true (current.of_kept rfl rfl rfl rfl fun other => ?_) trivial
    -- A picture does not change the name.
    simp only [downloaded]
    split
    · rename_i same
      rw [same]
    · rfl
  | _ => exact iff_of_true current trivial

/-- In every run of a home screen the search results are current in all states exactly if all events
of the run keep them so. -/
theorem results_current_iff (run : Run (HomeScreen.next platform) (viewDidLoad id) history final) :
    (∀ screen ∈ Run.states history final, screen.home.ResultsCurrent platform) ↔
      Run.Within (KeepsResults platform) history := by
  have preserved : ∀ {screen after : HomeScreen} {event : HomeEvent},
      (screen.home.Objects fun _ => True) → screen.next platform event = some after →
        after.home.Objects fun _ => True :=
    fun objects taken => objects_step objects (steps_of_next taken)
  have exactly : ∀ {screen after : HomeScreen} {event : HomeEvent},
      (screen.home.Objects fun _ => True) → screen.home.ResultsCurrent platform →
        screen.next platform event = some after →
          (after.home.ResultsCurrent platform ↔ KeepsResults platform screen event) :=
    fun objects current taken =>
      resultsCurrent_iff_keepsResults objects current (steps_of_next taken)
  -- A new home screen lists nothing.
  have nothing : (viewDidLoad id).home.ResultsCurrent platform := fun refs listed => nomatch listed
  exact Run.states_iff_within preserved exactly run (HomeViewController.objects_new id) nothing

/-- A new name that still matches keeps the results current. -/
theorem results_current_sameStart :
    ∃ final, Run (HomeScreen.next Platform.ascii) (viewDidLoad 0)
        (Scenario.homeHistory (Scenario.renamed "Alnatura")) final ∧
      ∀ screen ∈ Run.states (Scenario.homeHistory (Scenario.renamed "Alnatura")) final,
        screen.home.ResultsCurrent Platform.ascii := by
  -- The card was found before and is found under its new name.
  obtain ⟨final, run, _⟩ := Scenario.home_run_of_reached (Scenario.renamed "Alnatura")
    (fun _ => true) (by decide +kernel)
  have keeps : Run.Within (KeepsResults Platform.ascii)
      (Scenario.homeHistory (Scenario.renamed "Alnatura")) := by
    decide +kernel
  exact ⟨final, run, (results_current_iff run).mpr keeps⟩

/-- A found card that is renamed stays among the results. -/
theorem renamed_card_found :
    ¬ ∀ (id : Nat) (history : List (HomeScreen × HomeEvent)) (final : HomeScreen),
        Run (HomeScreen.next Platform.ascii) (viewDidLoad id) history final →
        ∀ screen ∈ Run.states history final, screen.home.ResultsCurrent Platform.ascii := by
  -- The card is not found under its new name, but stays among the results.
  intro always
  obtain ⟨final, run, facts⟩ := Scenario.home_run_of_reached (Scenario.renamed "Rewe")
    (fun final => decide (¬ final.home.ResultsCurrent Platform.ascii)) (by decide +kernel)
  exact of_decide_eq_true facts (always 0 _ final run final (by simp [Run.states]))

end HomeScreen

end CardGuru
