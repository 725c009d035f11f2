import CardGuru.HomeScreen.Scenario

/-! A card keeps the picture of its latest edit exactly as long as no download that ends after the edit
brings another one. -/

namespace CardGuru

namespace HomeScreen

variable {platform : Platform} {screen after final : HomeScreen} {event : HomeEvent}
  {history : List (HomeScreen × HomeEvent)} {id : Nat} {ref : CardRef}

/-- The picture that an event stores for a card object by editing it. -/
def imageOfEdit (platform : Platform) (screen : HomeScreen) (event : HomeEvent) (ref : CardRef) :
    Option (Option UIImage) :=
  -- An edit reaches all listed objects with an equal uid.
  match event with
  | .userDidUpdateData updated =>
    if ref ∈ screen.home.cards.getD [] ∧ platform.equals (screen.home.heap ref).uid updated.uid then
      some updated.image
    else none
  | _ => none

/-- The pictures of the edits of a card object in a history, in order. -/
def edits (platform : Platform) (history : List (HomeScreen × HomeEvent)) (ref : CardRef) :
    List (Option UIImage) :=
  history.filterMap fun entry => imageOfEdit platform entry.1 entry.2 ref

@[simp] theorem edits_snoc :
    edits platform (history ++ [(screen, event)]) ref =
      edits platform history ref ++ (imageOfEdit platform screen event ref).toList := by
  -- The last entry edits the card at most once.
  cases edited : imageOfEdit platform screen event ref <;> simp [edits, edited]

/-- The edited cards have the pictures of their latest edits, and saving one of them again without
choosing another picture uploads that picture. -/
structure EditsKept (platform : Platform) (history : List (HomeScreen × HomeEvent)) (screen : HomeScreen) : Prop where
  image : ∀ ref image, (edits platform history ref).getLast? = some image →
    (screen.home.heap ref).image = image
  upload : ∀ ref image row opened, (edits platform history ref).getLast? = some (some image) →
    screen.home.displayedCards[row]? = some ref → screen.home.detailedCard row = .ok opened →
      ∀ defaults uuid, DatabaseService.saveCardImage defaults opened.viewDidLoad.edit.image uuid =
        DatabaseService.saveCardImage defaults image uuid

/-- A picture that arrives for an edited card is the one of its latest edit. -/
def BringsEdited (platform : Platform) (history : List (HomeScreen × HomeEvent))
    (screen : HomeScreen) : HomeEvent → Prop
  | .downloadFinished position (some image) =>
    ∀ download ∈ screen.downloads[position]?, ∀ edited ∈ (edits platform history download.card).getLast?,
      edited = some image
  -- All other events leave the pictures of edited cards alone, or edit them again.
  | _ => True

instance (screen : HomeScreen) (event : HomeEvent) :
    Decidable (BringsEdited platform history screen event) :=
  match event with
  | .downloadFinished position (some image) =>
    inferInstanceAs (Decidable (∀ download ∈ screen.downloads[position]?,
      ∀ edited ∈ (edits platform history download.card).getLast?, edited = some image))
  | .loadDelivered _ | .userDidRemoveData | .reloadDelivered _ | .userDidEnterCard _
  | .userDidUpdateData _ | .userDidAddNotes _ | .viewWillAppear | .searchChanged _ _
  | .cellForItemAt _ _ | .didEndDisplaying _ | .prepare _ | .downloadFinished _ none => .isTrue trivial

/-- An opened card hands its picture on to the screens that save it. -/
private theorem upload_of_image
    (kept : ∀ ref image, (edits platform history ref).getLast? = some image →
      (screen.home.heap ref).image = image) : EditsKept platform history screen := by
  refine ⟨kept, ?_⟩
  intro ref image row opened latest displayed filled defaults uuid
  have stored := kept ref (some image) latest
  have picture : opened.viewDidLoad.edit.image = image := by
    cases listed : screen.home.cards with
    | none => simp [HomeViewController.displayedCards_of_unloaded listed] at displayed
    | some refs =>
      simp only [HomeViewController.detailedCard, listed, displayed] at filled
      cases filled
      -- The detail screen takes the picture of the card, and the edit screen takes that.
      simp [DetailedViewController.viewDidLoad, DetailedViewController.edit,
        DetailedViewController.setDetailedCard, stored]
  rw [picture]

/-- What is known about the edited cards in every run. -/
structure Edited (platform : Platform) (history : List (HomeScreen × HomeEvent)) (screen : HomeScreen) : Prop where
  rows : screen.Rows
  objects : screen.home.Objects fun _ => True
  /-- Only objects in use have been edited. -/
  inUse : ∀ ref, edits platform history ref ≠ [] → ref < screen.home.nextRef

/-- No event takes a reference out of use. -/
private theorem nextRef_step (stepped : Steps platform screen event after) :
    screen.home.nextRef ≤ after.home.nextRef := by
  -- Deliveries and additions take new references.
  cases stepped with
  | @loadedEmpty cards loading empty =>
    obtain ⟨_, _, _, _, shape⟩ := screen.home.viewDidLoadCompletion_frame cards
    simp [shape, HomeViewController.allocate]
  | @loaded cards loading filled =>
    obtain ⟨_, _, _, _, shape⟩ := screen.home.viewDidLoadCompletion_frame cards
    simp [reloaded, shape, HomeViewController.allocate]
  | @reloadDelivered cards pending =>
    obtain ⟨_, _, _, _, shape⟩ := screen.home.userDidRemoveDataCompletion_frame cards
    simp [reloaded, shape, HomeViewController.allocate]
  | @userDidEnterCard card =>
    cases listed : screen.home.cards with
    | none => simp [reloaded, HomeViewController.userDidEnterCard, listed]
    | some refs =>
      simp [reloaded, HomeViewController.userDidEnterCard, listed, HomeViewController.allocate]
  | userDidUpdateData => simp
  | userDidAddNotes => simp
  | viewWillAppear => simp
  | searchChanged => simp
  | _ => exact Nat.le_refl _

/-- An edited object is one of the list. -/
private theorem listed_of_imageOfEdit {image : Option UIImage}
    (edited : imageOfEdit platform screen event ref = some image) : ref ∈ screen.home.cards.getD [] := by
  -- Only listed objects are edited.
  unfold imageOfEdit at edited
  split at edited
  · split at edited
    · rename_i concerned
      exact concerned.1
    · cases edited
  · cases edited

/-- Every event keeps what is known. -/
private theorem Edited.step (edited : Edited platform history screen)
    (stepped : Steps platform screen event after) : Edited platform (history ++ [(screen, event)]) after := by
  refine ⟨edited.rows.step stepped, objects_step edited.objects stepped, ?_⟩
  intro ref some
  refine Nat.lt_of_lt_of_le ?_ (nextRef_step stepped)
  cases latest : imageOfEdit platform screen event ref with
  | none => exact edited.inUse ref (by simpa [latest] using some)
  | some image =>
    -- Listed objects are in use.
    have inside := listed_of_imageOfEdit latest
    cases listed : screen.home.cards with
    | none => simp [listed] at inside
    | some refs => exact edited.objects.listed refs listed ref (by simpa [listed] using inside)

/-- An event that edits nothing and leaves the pictures of the objects in use alone keeps the edits. -/
private theorem editsKept_of_frame (edited : Edited platform history screen) (kept : EditsKept platform history screen)
    (silent : ∀ ref, imageOfEdit platform screen event ref = none)
    (images : ∀ ref < screen.home.nextRef,
      (after.home.heap ref).image = (screen.home.heap ref).image) :
    EditsKept platform (history ++ [(screen, event)]) after := by
  refine upload_of_image fun ref image latest => ?_
  have before : (edits platform history ref).getLast? = some image := by simpa [silent] using latest
  -- An object that was edited is in use.
  have used : edits platform history ref ≠ [] := by
    intro nothing
    simp [nothing] at before
  rw [images ref (edited.inUse ref used)]
  exact kept.image ref image before

/-- An edit leaves each edited object with its picture. -/
private theorem editsKept_userDidUpdateData (kept : EditsKept platform history screen) (updated : Card) :
    EditsKept platform (history ++ [(screen, .userDidUpdateData updated)])
      (screen.reloadedIfLoaded (screen.home.userDidUpdateData platform updated)) := by
  -- The objects that the edit reaches get its picture, and the others keep theirs.
  refine upload_of_image fun ref image latest => ?_
  rw [home_reloadedIfLoaded]
  by_cases concerned : ref ∈ screen.home.cards.getD [] ∧ platform.equals (screen.home.heap ref).uid updated.uid
  · -- This is the latest edit of the object.
    obtain rfl : updated.image = image := by simpa [imageOfEdit, concerned] using latest
    cases listed : screen.home.cards with
    | none => simp [listed] at concerned
    | some refs =>
      have member : ref ∈ refs := by simpa [listed] using concerned.1
      simp [HomeViewController.userDidUpdateData_loaded listed, HomeViewController.mutate, member,
        concerned.2]
  · have before : (edits platform history ref).getLast? = some image := by
      simpa [imageOfEdit, concerned] using latest
    rw [← kept.image ref image before]
    cases listed : screen.home.cards with
    | none => simp [HomeViewController.userDidUpdateData, listed]
    | some refs =>
      have other : ¬ (ref ∈ refs ∧ platform.equals (screen.home.heap ref).uid updated.uid) := by
        simpa [listed] using concerned
      simp [HomeViewController.userDidUpdateData_loaded listed, HomeViewController.mutate, other]

/-- An event keeps the edits exactly if it is of the described kind. -/
private theorem editsKept_iff_bringsEdited (edited : Edited platform history screen)
    (kept : EditsKept platform history screen) (stepped : Steps platform screen event after) :
    EditsKept platform (history ++ [(screen, event)]) after ↔ BringsEdited platform history screen event := by
  cases stepped with
  | @userDidUpdateData updated =>
    exact iff_of_true (editsKept_userDidUpdateData kept updated) trivial
  | @downloadFinished position image download ref pending captured =>
    obtain rfl := edited.rows.captured_eq pending captured
    simp only [BringsEdited, pending, Option.mem_def, Option.some.injEq, forall_eq']
    constructor
    · intro next latest last
      -- The object has the picture that has just arrived.
      have now := next.image download.card latest (by simpa [imageOfEdit] using last)
      simpa [downloaded] using now.symm
    · intro brings
      refine upload_of_image fun other latest last => ?_
      have before : (edits platform history other).getLast? = some latest := by
        simpa [imageOfEdit] using last
      by_cases same : other = download.card
      · subst same
        simp [downloaded, brings latest before]
      · simpa [downloaded, same] using kept.image other latest before
  | @loadedEmpty cards loading empty =>
    refine iff_of_true (editsKept_of_frame edited kept (fun _ => rfl) fun ref below => ?_) trivial
    obtain ⟨_, _, _, _, shape⟩ := screen.home.viewDidLoadCompletion_frame cards
    simp [shape, HomeViewController.allocate, below]
  | @loaded cards loading filled =>
    refine iff_of_true (editsKept_of_frame edited kept (fun _ => rfl) fun ref below => ?_) trivial
    obtain ⟨_, _, _, _, shape⟩ := screen.home.viewDidLoadCompletion_frame cards
    simp [reloaded, shape, HomeViewController.allocate, below]
  | @reloadDelivered cards pending =>
    refine iff_of_true (editsKept_of_frame edited kept (fun _ => rfl) fun ref below => ?_) trivial
    obtain ⟨_, _, _, _, shape⟩ := screen.home.userDidRemoveDataCompletion_frame cards
    simp [reloaded, shape, HomeViewController.allocate, below]
  | @userDidEnterCard card =>
    refine iff_of_true (editsKept_of_frame edited kept (fun _ => rfl) fun ref below => ?_) trivial
    cases listed : screen.home.cards with
    | none => simp [reloaded, HomeViewController.userDidEnterCard, listed]
    | some refs =>
      simp [reloaded, HomeViewController.userDidEnterCard, listed, HomeViewController.allocate,
        below]
  | @userDidAddNotes noted =>
    refine iff_of_true (editsKept_of_frame edited kept (fun _ => rfl) fun ref below => ?_) trivial
    rw [home_reloadedIfLoaded]
    cases listed : screen.home.cards with
    | none => simp [HomeViewController.userDidAddNotes, listed]
    | some refs =>
      simp only [HomeViewController.userDidAddNotes_loaded listed,
        HomeViewController.heap_reloadData, HomeViewController.mutate]
      split <;> rfl
  | viewWillAppear =>
    exact iff_of_true (editsKept_of_frame edited kept (fun _ => rfl) fun ref _ => by simp) trivial
  | searchChanged =>
    exact iff_of_true (editsKept_of_frame edited kept (fun _ => rfl) fun ref _ => by simp) trivial
  | _ => exact iff_of_true (editsKept_of_frame edited kept (fun _ => rfl) fun _ _ => rfl) trivial

/-- Throughout a run of a home screen edited cards keep the pictures of their latest edits exactly if
no download of the run brings another one. -/
theorem edited_images_kept_iff
    (run : Run (HomeScreen.next platform) (viewDidLoad id) history final) :
    (Run.Always (fun earlier screen _ => EditsKept platform earlier screen) history ∧
        EditsKept platform history final) ↔ Run.Always (BringsEdited platform) history := by
  have preserved : ∀ {earlier : List (HomeScreen × HomeEvent)} {screen after : HomeScreen}
      {event : HomeEvent}, Edited platform earlier screen → screen.next platform event = some after →
        Edited platform (earlier ++ [(screen, event)]) after :=
    fun edited taken => edited.step (steps_of_next taken)
  have exactly : ∀ {earlier : List (HomeScreen × HomeEvent)} {screen after : HomeScreen}
      {event : HomeEvent}, Edited platform earlier screen → EditsKept platform earlier screen →
        screen.next platform event = some after →
          (EditsKept platform (earlier ++ [(screen, event)]) after ↔ BringsEdited platform earlier screen event) :=
    fun edited kept taken => editsKept_iff_bringsEdited edited kept (steps_of_next taken)
  -- Nothing has been edited before the view loads.
  have initially : Edited platform [] (viewDidLoad id) :=
    ⟨@rows_of_run platform _ _ id .nil, HomeViewController.objects_new id,
      fun ref some => absurd rfl some⟩
  have first : EditsKept platform [] (viewDidLoad id) := upload_of_image fun ref image latest => nomatch latest
  exact Run.always_iff_always preserved exactly run initially first

/-- The first card is opened and gets another picture, before or after its download ends. -/
def Scenario.editedPicture (editFirst : Bool) : List HomeEvent :=
  let edit : List HomeEvent :=
    [.prepare 0, .userDidUpdateData (Card.make "-La" "Lidl" "123" (.photo 2))]
  let download : List HomeEvent := [.downloadFinished 0 (some (.photo 1))]
  Scenario.twoRows ++ if editFirst then edit ++ download else download ++ edit

/-- A download that ends before the edit leaves the card with the edited picture. -/
theorem edited_images_kept_downloadFirst :
    ∃ final, Run (HomeScreen.next Platform.ascii) (viewDidLoad 0)
        (Scenario.homeHistory (Scenario.editedPicture false)) final ∧
      EditsKept Platform.ascii (Scenario.homeHistory (Scenario.editedPicture false)) final := by
  -- The old picture arrives before the edit.
  obtain ⟨final, run, _⟩ := Scenario.home_run_of_reached (Scenario.editedPicture false)
    (fun _ => true) (by decide +kernel)
  have brings : Run.Always (BringsEdited Platform.ascii)
      (Scenario.homeHistory (Scenario.editedPicture false)) := by
    decide +kernel
  exact ⟨final, run, ((edited_images_kept_iff run).mpr brings).2⟩

/-- A download that ends after the edit brings the old picture back. -/
theorem old_picture_returns :
    ¬ ∀ (id : Nat) (history : List (HomeScreen × HomeEvent)) (final : HomeScreen),
        Run (HomeScreen.next Platform.ascii) (viewDidLoad id) history final →
        EditsKept Platform.ascii history final := by
  -- The old picture arrives after the edit, and replaces the new one.
  intro always
  obtain ⟨final, run, facts⟩ := Scenario.home_run_of_reached (Scenario.editedPicture true)
    (fun final => decide ((edits Platform.ascii (Scenario.homeHistory (Scenario.editedPicture true)) 0).getLast? =
      some (some (.photo 2)) ∧ (final.home.heap 0).image = some (.photo 1))) (by decide +kernel)
  obtain ⟨latest, image⟩ := of_decide_eq_true facts
  have kept := (always 0 _ final run).image 0 _ latest
  rw [image] at kept
  cases kept

end HomeScreen

end CardGuru
