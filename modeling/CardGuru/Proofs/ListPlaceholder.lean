import CardGuru.HomeScreen.Scenario

/-! The home screen never contains two placeholder views, and after a load or an appearance it
contains one exactly if the loaded list is empty. -/

namespace CardGuru

namespace HomeViewController

variable {home after : HomeViewController}

/-- The view contains a placeholder view exactly if the list is loaded and empty. -/
def PlaceholderMatches (home : HomeViewController) : Prop :=
  home.subviews ≠ [] ↔ home.cards = some []

/-- What the reference, the subviews and the list have to do with each other. -/
structure Placed (home : HomeViewController) : Prop where
  /-- Only the placeholder view that is referred to can be in the view. -/
  referred : home.subviews = [] ∨
    ∃ view, home.cardPlaceholderView = some view ∧ home.subviews = [view]
  /-- Before the list is loaded there is none. -/
  unloaded : home.cards = none → home.subviews = []

/-- At most one placeholder view is in the view. -/
theorem Placed.length_le_one (placed : home.Placed) : home.subviews.length ≤ 1 := by
  -- There is none, or only the one that is referred to.
  rcases placed.referred with bare | ⟨view, _, one⟩
  · simp [bare]
  · simp [one]

/-- A change that leaves the views alone and does not unload the list keeps them in place. -/
private theorem Placed.of_kept (placed : home.Placed)
    (view : after.cardPlaceholderView = home.cardPlaceholderView)
    (subviews : after.subviews = home.subviews) (loaded : after.cards = none → home.cards = none) :
    after.Placed := by
  -- Both facts are about what is kept.
  refine ⟨by rw [view, subviews]; exact placed.referred, ?_⟩
  intro missing
  rw [subviews]
  exact placed.unloaded (loaded missing)

/-- A placeholder view added to a view without one is the only one. -/
private theorem placed_addCardPlaceholderView (bare : home.subviews = [])
    (empty : home.cards = some []) :
    home.addCardPlaceholderView.Placed ∧ home.addCardPlaceholderView.PlaceholderMatches := by
  -- The new view is referred to, and there was no other one.
  refine ⟨⟨.inr ⟨home.nextView, rfl, by simp [addCardPlaceholderView, bare]⟩, ?_⟩, ?_⟩
  · intro missing
    cases empty.symm.trans missing
  · -- The new view is in the view, and the list is empty.
    exact iff_of_true (by simp [addCardPlaceholderView]) empty

/-- The placeholder view of a loaded list is put right, whatever it was before. -/
private theorem placed_checkIfPlaceholderViewNeeded
    (referred : home.subviews = [] ∨
      ∃ view, home.cardPlaceholderView = some view ∧ home.subviews = [view])
    {refs : List CardRef} (listed : home.cards = some refs) :
    home.checkIfPlaceholderViewNeeded.Placed ∧
      home.checkIfPlaceholderViewNeeded.PlaceholderMatches := by
  have loaded : home.cards ≠ none := by simp [listed]
  cases refs with
  | nil =>
    have counted : home.cards.map List.length = some 0 := by simp [listed]
    rcases referred with bare | ⟨view, named, one⟩
    · -- A view that is still referred to was removed before.
      have added : home.checkIfPlaceholderViewNeeded = home.addCardPlaceholderView := by
        cases named : home.cardPlaceholderView with
        | none => simp [checkIfPlaceholderViewNeeded, counted, named]
        | some view => simp [checkIfPlaceholderViewNeeded, counted, named, bare]
      rw [added]
      exact placed_addCardPlaceholderView bare listed
    · have kept : home.checkIfPlaceholderViewNeeded = home := by
        simp [checkIfPlaceholderViewNeeded, counted, named, one]
      rw [kept]
      exact ⟨⟨.inr ⟨view, named, one⟩, fun missing => absurd missing loaded⟩,
        iff_of_true (by simp [one]) listed⟩
  | cons ref rest =>
    have counted : ¬ home.cards.map List.length = some 0 := by simp [listed]
    have removed : home.checkIfPlaceholderViewNeeded.subviews = [] := by
      rcases referred with bare | ⟨view, named, one⟩
      · cases named : home.cardPlaceholderView with
        | none => simp [checkIfPlaceholderViewNeeded, counted, named, bare]
        | some view => simp [checkIfPlaceholderViewNeeded, counted, named, bare]
      · simp [checkIfPlaceholderViewNeeded, counted, named, one]
    have same : home.checkIfPlaceholderViewNeeded.cards = some (ref :: rest) := by
      obtain ⟨_, _, _, shape⟩ := home.checkIfPlaceholderViewNeeded_frame
      rw [shape]
      exact listed
    refine ⟨⟨.inl removed, fun _ => removed⟩, ?_⟩
    -- Neither is there a placeholder view, nor is the list empty.
    exact iff_of_false (fun shown => shown removed) (by simp [same])

/-- The first load shows a placeholder view exactly if it brings no cards. -/
private theorem placed_viewDidLoadCompletion (bare : home.subviews = []) (cards : List Card) :
    (home.viewDidLoadCompletion cards).Placed ∧
      (home.viewDidLoadCompletion cards).PlaceholderMatches := by
  -- A view is added without a check, but there cannot be one yet.
  cases cards with
  | nil => exact placed_addCardPlaceholderView bare rfl
  | cons card rest =>
    refine ⟨⟨.inl bare, fun _ => bare⟩, ?_⟩
    refine iff_of_false (fun shown => shown bare) ?_
    simp [viewDidLoadCompletion, allocated, List.range'_succ]

/-- A reload after a deletion puts the placeholder view right. -/
private theorem placed_userDidRemoveDataCompletion (placed : home.Placed) (cards : List Card) :
    (home.userDidRemoveDataCompletion cards).Placed ∧
      (home.userDidRemoveDataCompletion cards).PlaceholderMatches := by
  -- The views are those from before the new cards, and counting the rows leaves them alone.
  have checked := @placed_checkIfPlaceholderViewNeeded
    { home.allocate cards with cards := some (home.allocated cards) } placed.referred _ rfl
  exact ⟨checked.1.of_kept rfl rfl fun missing => missing, checked.2⟩

/-- An appearance puts the placeholder view right. -/
private theorem placed_viewWillAppear (placed : home.Placed) :
    home.viewWillAppear.Placed ∧ home.viewWillAppear.PlaceholderMatches := by
  cases listed : home.cards with
  | none =>
    -- Nothing is checked before the list is loaded, and there is no placeholder view.
    have unchanged : home.viewWillAppear = home := by simp [viewWillAppear, listed]
    rw [unchanged]
    have missing := placed.unloaded listed
    exact ⟨placed, iff_of_false (fun shown => shown missing) (by simp [listed])⟩
  | some refs =>
    have checked : home.viewWillAppear = home.checkIfPlaceholderViewNeeded := by
      simp [viewWillAppear, listed]
    rw [checked]
    exact placed_checkIfPlaceholderViewNeeded placed.referred listed

end HomeViewController

namespace HomeScreen

variable {platform : Platform} {screen after final : HomeScreen} {event : HomeEvent}
  {history : List (HomeScreen × HomeEvent)} {id : Nat}

/-- The events after which the placeholder view is looked at. -/
def checksPlaceholder : HomeEvent → Bool
  | .loadDelivered _ => true
  | .reloadDelivered _ => true
  | .viewWillAppear => true
  | _ => false

/-- Every event leaves the placeholder view in place, and some put it right. -/
private theorem placed_step (rows : screen.Rows) (placed : screen.home.Placed)
    (stepped : Steps platform screen event after) :
    after.home.Placed ∧ (checksPlaceholder event = true → after.home.PlaceholderMatches) := by
  cases stepped with
  | @loadedEmpty cards loading empty =>
    have bare := placed.unloaded (rows.loading loading)
    obtain ⟨next, right⟩ := HomeViewController.placed_viewDidLoadCompletion bare cards
    exact ⟨next, fun _ => right⟩
  | @loaded cards loading filled =>
    have bare := placed.unloaded (rows.loading loading)
    obtain ⟨next, right⟩ := HomeViewController.placed_viewDidLoadCompletion bare cards
    exact ⟨next, fun _ => right⟩
  | @reloadDelivered cards pending =>
    obtain ⟨next, right⟩ := HomeViewController.placed_userDidRemoveDataCompletion placed cards
    exact ⟨next, fun _ => right⟩
  | viewWillAppear =>
    obtain ⟨next, right⟩ := HomeViewController.placed_viewWillAppear placed
    exact ⟨next, fun _ => right⟩
  | @userDidEnterCard card =>
    -- A new card leaves the placeholder view in the view until the screen appears again.
    refine ⟨?_, fun checks => absurd checks Bool.false_ne_true⟩
    cases listed : screen.home.cards with
    | none =>
      refine placed.of_kept ?_ ?_ fun _ => listed <;>
        simp [reloaded, HomeViewController.userDidEnterCard, listed, HomeViewController.reloadData]
    | some refs =>
      refine placed.of_kept ?_ ?_ ?_ <;>
        simp [reloaded, HomeViewController.userDidEnterCard, listed, HomeViewController.reloadData,
          HomeViewController.allocate]
  | @userDidUpdateData updated =>
    refine ⟨?_, fun checks => absurd checks Bool.false_ne_true⟩
    rw [home_reloadedIfLoaded]
    refine placed.of_kept ?_ ?_ (by simp) <;> unfold HomeViewController.userDidUpdateData <;>
      split <;> rfl
  | @userDidAddNotes noted =>
    refine ⟨?_, fun checks => absurd checks Bool.false_ne_true⟩
    rw [home_reloadedIfLoaded]
    refine placed.of_kept ?_ ?_ (by simp) <;> unfold HomeViewController.userDidAddNotes <;>
      split <;> rfl
  | @searchChanged isActive text =>
    refine ⟨?_, fun checks => absurd checks Bool.false_ne_true⟩
    rw [home_reloadedIfLoaded]
    obtain ⟨_, _, same⟩ := screen.home.updateSearchResults_frame platform isActive text
    rw [same]
    exact placed.of_kept rfl rfl fun missing => missing
  | downloadFinished pending captured =>
    exact ⟨placed.of_kept rfl rfl fun missing => missing, fun checks => absurd checks Bool.false_ne_true⟩
  | _ => exact ⟨placed, fun checks => absurd checks Bool.false_ne_true⟩

/-- In every run of a home screen the placeholder view is in place. -/
private theorem placed_of_run
    (run : Run (HomeScreen.next platform) (viewDidLoad id) history final) :
    final.Rows ∧ final.home.Placed := by
  -- A new home screen has neither a list nor a placeholder view.
  induction run with
  | nil => exact ⟨@rows_of_run platform _ _ id .nil, .inl rfl, fun _ => rfl⟩
  | snoc earlier taken ih =>
    have stepped := steps_of_next taken
    exact ⟨ih.1.step stepped, (placed_step ih.1 ih.2 stepped).1⟩

/-- In every state of a run the view contains at most one placeholder view, and after every load and
every appearance it contains one exactly if the list is loaded and empty. -/
theorem placeholder_matches_list
    (run : Run (HomeScreen.next platform) (viewDidLoad id) history final) :
    (∀ screen ∈ Run.states history final, screen.home.subviews.length ≤ 1) ∧
      ∀ entry ∈ history, ∀ after, entry.1.next platform entry.2 = some after →
        checksPlaceholder entry.2 = true → after.home.PlaceholderMatches := by
  constructor
  · intro screen member
    rcases List.mem_append.mp member with passed | last
    · obtain ⟨⟨_, event⟩, entry, rfl⟩ := List.mem_map.mp passed
      obtain ⟨_, _, _, reaching, _⟩ := run.reached entry
      exact (placed_of_run reaching).2.length_le_one
    · cases List.mem_singleton.mp last
      exact (placed_of_run run).2.length_le_one
  · intro (screen, event) entry after taken checks
    -- The step was taken in a state that the run reaches.
    obtain ⟨_, _, _, reaching, _⟩ := run.reached entry
    obtain ⟨rows, placed⟩ := placed_of_run reaching
    exact (placed_step rows placed (steps_of_next taken)).2 checks

/-- An empty list gets a card, which is deleted again after the screen has appeared. -/
def Scenario.emptiedAgain : List HomeEvent :=
  [.viewWillAppear, .loadDelivered [], .userDidEnterCard (Card.make "-La" "Lidl" "123" .shop),
    .viewWillAppear, .userDidRemoveData, .viewWillAppear, .reloadDelivered [], .viewWillAppear]

/-- The placeholder view of a list that is emptied again is right all the time. -/
theorem placeholder_matches_list_emptiedAgain :
    ∃ final, final.home.subviews = [1] ∧
      (∀ screen ∈ Run.states (Scenario.homeHistory Scenario.emptiedAgain) final,
        screen.home.subviews.length ≤ 1) ∧
      ∀ entry ∈ Scenario.homeHistory Scenario.emptiedAgain, ∀ after,
        entry.1.next Platform.ascii entry.2 = some after →
          checksPlaceholder entry.2 = true → after.home.PlaceholderMatches := by
  -- The placeholder view at the end is the second one.
  obtain ⟨final, run, shown⟩ := Scenario.home_run_of_reached Scenario.emptiedAgain
    (fun final => final.home.subviews = [1]) (by decide +kernel)
  exact ⟨final, of_decide_eq_true shown, placeholder_matches_list run⟩

end HomeScreen

end CardGuru
