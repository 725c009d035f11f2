import CardGuru.Scanner.Step

/-! The camera runs exactly while a card is scanned, in the runs in which the last callback of a visit
neither starts a session that is not wanted nor replaces one that is. -/

namespace CardGuru

/-- Whether a screen is shown and has not accepted a barcode. -/
def ScannerViewController.isScanning (controller : ScannerViewController) : Bool :=
  controller.presence = .onScreen && controller.barcodes.isEmpty

namespace Scanner

variable {scanner after final : Scanner} {event : ScannerEvent}
  {history : List (Scanner × ScannerEvent)} {authorizationStatus : AVAuthorizationStatus}

/-- The screen of the present visit: the one loaded last. -/
def current (scanner : Scanner) : Option ScannerViewController :=
  scanner.controllers[scanner.controllers.length - 1]?

/-- Whether the camera should run: it may be used, and the present visit is still scanning. -/
def isScanning (scanner : Scanner) : Bool :=
  scanner.authorizationStatus = .authorized &&
    scanner.current.any ScannerViewController.isScanning

/-- Whether the present session is running. -/
def isRunning (scanner : Scanner) : Bool :=
  scanner.service.session.any AVCaptureSession.isRunning

/-- Every dispatched block and every callback has run. -/
def IsSettled (scanner : Scanner) : Prop :=
  scanner.starts = 0 ∧ scanner.requests = []

instance (scanner : Scanner) : Decidable scanner.IsSettled :=
  inferInstanceAs (Decidable (_ ∧ _))

/-- When nothing is waiting any more, the camera runs exactly if it should. -/
def CameraMatches (scanner : Scanner) : Prop :=
  scanner.IsSettled → (scanner.isRunning = true ↔ scanner.isScanning = true)

/-- An event that leaves nothing waiting leaves the camera as it should be. -/
def InOrder (scanner : Scanner) : ScannerEvent → Prop
  -- The last block starts the session of a visit that is still scanning, if there is a session.
  | .startRunning =>
    scanner.starts = 1 → scanner.requests = [] → scanner.authorizationStatus = .authorized →
      scanner.isScanning = true
  -- The last request does not bring a new session for a visit that is still scanning.
  | .requestAccessCompletion _ _ =>
    scanner.starts = 0 → scanner.requests.length = 1 → scanner.isScanning = false
  -- A screen that stays after all has accepted a barcode, or the camera may not be used.
  | .viewWillAppear controller =>
    scanner.IsSettled → controller + 1 = scanner.controllers.length →
      scanner.authorizationStatus = .authorized →
        scanner.current.any (fun present => present.barcodes.isEmpty) = false
  -- A screen that was replaced does not leave while the later one is scanning.
  | .viewWillDisappear controller =>
    scanner.IsSettled → controller + 1 ≠ scanner.controllers.length → scanner.isScanning = false
  | _ => True

instance (scanner : Scanner) (event : ScannerEvent) : Decidable (InOrder scanner event) := by
  unfold InOrder
  split <;> infer_instance

/-- What the service and the screens have to do with each other. -/
structure Prepared (scanner : Scanner) : Prop where
  /-- The service reports to the screen that was loaded last. -/
  delegate : 0 < scanner.controllers.length →
    scanner.service.delegate = some (scanner.controllers.length - 1)
  /-- Sessions are set up only with the permission of the user. -/
  granted : scanner.service.session.isSome = true → scanner.authorizationStatus = .authorized
  /-- With the permission there is a session, once all requests have been called back. -/
  ready : 0 < scanner.controllers.length → scanner.requests = [] →
    scanner.authorizationStatus = .authorized → scanner.service.session.isSome = true
  /-- Blocks are dispatched by screens. -/
  dispatched : 0 < scanner.starts → 0 < scanner.controllers.length

/-- What does not load a screen, answer a request or replace the session keeps all prepared. -/
private theorem Prepared.of_kept (prepared : scanner.Prepared)
    (status : after.authorizationStatus = scanner.authorizationStatus)
    (requests : after.requests = scanner.requests)
    (length : after.controllers.length = scanner.controllers.length)
    (delegate : after.service.delegate = scanner.service.delegate)
    (session : after.service.session.isSome = scanner.service.session.isSome)
    (starts : after.starts ≤ scanner.starts) : after.Prepared := by
  -- Each fact is about what is kept.
  refine ⟨?_, ?_, ?_, fun waiting => length ▸ prepared.dispatched (Nat.lt_of_lt_of_le waiting starts)⟩
  · rw [length, delegate]
    exact prepared.delegate
  · rw [session, status]
    exact prepared.granted
  · rw [length, requests, status, session]
    exact prepared.ready

/-- Every event keeps the service and the screens prepared. -/
private theorem Prepared.step (prepared : scanner.Prepared) (stepped : Steps scanner event after) :
    after.Prepared := by
  cases stepped with
  | loadAuthorized authorized =>
    exact ⟨by simp [loaded, setupCaptureSession], fun _ => authorized, fun _ _ _ => rfl,
      by simp [loaded, setupCaptureSession]⟩
  | loadAsking undecided =>
    exact ⟨by simp [loaded], prepared.granted, by simp, by simp [loaded]⟩
  | loadRefused known refused asked =>
    exact ⟨by simp [loaded], prepared.granted, fun _ _ authorized => absurd authorized refused,
      by simp [loaded]⟩
  | viewWillAppear found leaving =>
    exact prepared.of_kept rfl rfl (by simp) rfl rfl (Nat.le_refl _)
  | viewWillDisappear found shown =>
    exact prepared.of_kept rfl rfl (by simp) rfl (by simp) (Nat.le_refl _)
  | viewDidDisappear found leaving =>
    exact prepared.of_kept rfl rfl (by simp) rfl rfl (Nat.le_refl _)
  | startRunning dispatched =>
    exact prepared.of_kept rfl rfl rfl rfl (by simp) (Nat.sub_le _ _)
  | answered undecided asked =>
    refine ⟨prepared.delegate, ?_, fun _ called => absurd called asked, prepared.dispatched⟩
    intro isSome
    -- There was no session before the answer.
    cases undecided.symm.trans (prepared.granted isSome)
  | accessGranted pending authorized =>
    exact ⟨prepared.delegate, fun _ => authorized, fun _ _ _ => rfl, prepared.dispatched⟩
  | accessRefused pending refused found shown =>
    exact ⟨by simpa using prepared.delegate, prepared.granted,
      fun _ _ authorized => absurd authorized refused, by simpa using prepared.dispatched⟩
  | nothingScanned => exact prepared
  | scanned detected =>
    refine prepared.of_kept rfl rfl ?_ rfl (ScannerService.isSome_session_stopRunning _) (Nat.le_refl _)
    unfold scanned
    dsimp only
    split <;> simp

/-- A changed screen is the present one if it was loaded last. -/
private theorem current_of_set {controller : Nat} {present changed : ScannerViewController}
    (found : scanner.controllers[controller]? = some present)
    (set : after.controllers = scanner.controllers.set controller changed) :
    after.current =
      if controller + 1 = scanner.controllers.length then some changed else scanner.current := by
  -- Screens are changed in place, so the last one keeps its position.
  have inside := (List.getElem?_eq_some_iff.mp found).1
  rw [current, set, List.length_set, List.getElem?_set, current]
  by_cases last : controller + 1 = scanner.controllers.length
  · have here : controller = scanner.controllers.length - 1 := by omega
    simp [last, ← here, inside]
  · have elsewhere : controller ≠ scanner.controllers.length - 1 := by omega
    simp [last, elsewhere]

/-- The screen that was loaded last is the present one. -/
private theorem current_of_last {controller : Nat} {present : ScannerViewController}
    (found : scanner.controllers[controller]? = some present)
    (last : controller + 1 = scanner.controllers.length) : scanner.current = some present := by
  -- Positions are counted from zero.
  rw [current, ← last]
  exact found

/-- A stopped session is not running. -/
private theorem isRunning_of_stopRunning (stopped : after.service = scanner.service.stopRunning) :
    after.isRunning = false := by
  -- Without a session nothing was running before.
  rw [isRunning, stopped]
  cases session : scanner.service.session <;>
    simp [ScannerService.stopRunning, AVCaptureSession.stopRunning, session]

/-- The camera does not have to run without the permission. -/
private theorem isScanning_of_refused (refused : scanner.authorizationStatus ≠ .authorized) :
    scanner.isScanning = false := by
  simp [isScanning, refused]

/-- Without the permission nothing runs. -/
private theorem Prepared.isRunning_of_refused (prepared : scanner.Prepared)
    (refused : scanner.authorizationStatus ≠ .authorized) : scanner.isRunning = false := by
  -- A session would have needed the permission.
  cases session : scanner.service.session with
  | none => simp [isRunning, session]
  | some present => exact absurd (prepared.granted (by simp [session])) refused

/-- A detected barcode ends the scanning of the present visit. -/
private theorem Prepared.isScanning_scanned (prepared : scanner.Prepared) (barcode : String) :
    (scanner.scanned barcode).isScanning = false := by
  rcases Nat.eq_zero_or_pos scanner.controllers.length with none | any
  · -- There is no screen that could scan.
    have empty : scanner.controllers = [] := List.eq_nil_of_length_eq_zero none
    have still : (scanner.scanned barcode).controllers = [] := by
      unfold scanned
      dsimp only
      split <;> simp [empty]
    simp [isScanning, current, still]
  · -- The barcode goes to the screen of the present visit.
    have changed : (scanner.scanned barcode).current =
        scanner.current.map fun present => present.get barcode := by
      simp [current, scanned, prepared.delegate any]
    rw [isScanning, changed]
    cases scanner.current with
    | none => simp
    | some present => simp [ScannerViewController.isScanning, ScannerViewController.get]

/-- After the last request has been called back, nothing waits if no block does. -/
private theorem isSettled_erase {position controller : Nat}
    (pending : scanner.requests[position]? = some controller)
    (starts : after.starts = scanner.starts)
    (requests : after.requests = scanner.requests.eraseIdx position) :
    after.IsSettled ↔ scanner.starts = 0 ∧ scanner.requests.length = 1 := by
  -- One request fewer is waiting.
  have inside := (List.getElem?_eq_some_iff.mp pending).1
  rw [IsSettled, starts, requests, ← List.length_eq_zero_iff, List.length_eraseIdx, if_pos inside]
  omega

/-- Whether the present visit is scanning after one of the screens was changed. -/
private theorem isScanning_of_set {controller : Nat} {present changed : ScannerViewController}
    (found : scanner.controllers[controller]? = some present)
    (set : after.controllers = scanner.controllers.set controller changed)
    (status : after.authorizationStatus = scanner.authorizationStatus) :
    after.isScanning =
      if controller + 1 = scanner.controllers.length then
        scanner.authorizationStatus = .authorized && changed.isScanning
      else scanner.isScanning := by
  -- Only the screen that was loaded last counts.
  rw [isScanning, isScanning, current_of_set found set, status]
  split <;> rfl

/-- A screen that has begun to leave is not scanning. -/
private theorem isScanning_of_leaving {controller : Nat} {present : ScannerViewController}
    (found : scanner.controllers[controller]? = some present)
    (last : controller + 1 = scanner.controllers.length) (leaving : present.presence = .leaving) :
    scanner.isScanning = false := by
  -- It is not on the screen.
  rw [isScanning, current_of_last found last]
  simp [ScannerViewController.isScanning, leaving]

/-- A screen that stays after all finds the session stopped. -/
private theorem matches_iff_of_viewWillAppear (right : scanner.CameraMatches) {controller : Nat}
    {present : ScannerViewController} (found : scanner.controllers[controller]? = some present)
    (leaving : present.presence = .leaving)
    (set : after.controllers =
      scanner.controllers.set controller { present with presence := .onScreen })
    (status : after.authorizationStatus = scanner.authorizationStatus)
    (running : after.isRunning = scanner.isRunning)
    (settles : after.IsSettled ↔ scanner.IsSettled) :
    after.CameraMatches ↔ InOrder scanner (.viewWillAppear controller) := by
  rw [CameraMatches, settles, running, isScanning_of_set found set status]
  -- The session was stopped when the screen began to leave, and it stays so.
  refine forall_congr' fun settled => ?_
  by_cases last : controller + 1 = scanner.controllers.length
  · have stopped : scanner.isRunning = false := by
      simpa [isScanning_of_leaving found last leaving] using right settled
    simp [stopped, last, current_of_last found last, ScannerViewController.isScanning]
  · -- Another screen than that of the present visit changes nothing.
    simpa [last] using right settled

/-- A screen that begins to leave stops the session, whether or not it is its own. -/
private theorem matches_iff_of_viewWillDisappear {controller : Nat}
    {present changed : ScannerViewController}
    (found : scanner.controllers[controller]? = some present) (leaving : changed.presence = .leaving)
    (set : after.controllers = scanner.controllers.set controller changed)
    (status : after.authorizationStatus = scanner.authorizationStatus)
    (stopped : after.isRunning = false) (settles : after.IsSettled ↔ scanner.IsSettled) :
    after.CameraMatches ↔ InOrder scanner (.viewWillDisappear controller) := by
  rw [CameraMatches, settles, stopped, isScanning_of_set found set status]
  -- Nothing runs any more, so nothing may be scanning either.
  refine forall_congr' fun settled => ?_
  by_cases last : controller + 1 = scanner.controllers.length
  · simp [last, ScannerViewController.isScanning, leaving]
  · simp [last]

/-- A screen that has left changes nothing about the camera. -/
private theorem matches_of_viewDidDisappear (right : scanner.CameraMatches) {controller : Nat}
    {present : ScannerViewController} (found : scanner.controllers[controller]? = some present)
    (leaving : present.presence = .leaving)
    (set : after.controllers = scanner.controllers.set controller { present with presence := .gone })
    (status : after.authorizationStatus = scanner.authorizationStatus)
    (running : after.isRunning = scanner.isRunning)
    (settles : after.IsSettled ↔ scanner.IsSettled) : after.CameraMatches := by
  rw [CameraMatches, settles, running, isScanning_of_set found set status]
  -- A leaving screen is as little on the screen as one that is gone.
  intro settled
  by_cases last : controller + 1 = scanner.controllers.length
  · have before := right settled
    rw [isScanning_of_leaving found last leaving] at before
    simpa [last, ScannerViewController.isScanning] using before
  · simpa [last] using right settled

/-- The last block starts the session that is there. -/
private theorem matches_iff_of_startRunning (prepared : scanner.Prepared)
    (dispatched : 0 < scanner.starts) :
    CameraMatches
        { scanner with service := scanner.service.startRunning, starts := scanner.starts - 1 } ↔
      InOrder scanner .startRunning := by
  -- A session runs after the block exactly if there is one.
  have running : ∀ starts, isRunning
      { scanner with service := scanner.service.startRunning, starts := starts } =
        scanner.service.session.isSome := by
    intro starts
    cases session : scanner.service.session <;>
      simp [isRunning, ScannerService.startRunning, AVCaptureSession.startRunning, session]
  constructor
  · intro right starts requests authorized
    have ready := prepared.ready (prepared.dispatched dispatched) requests authorized
    exact (right ⟨by simp [starts], requests⟩).mp ((running _).trans ready)
  · intro inOrder settled
    have starts : scanner.starts - 1 = 0 := settled.1
    have requests : scanner.requests = [] := settled.2
    by_cases authorized : scanner.authorizationStatus = .authorized
    · have ready := prepared.ready (prepared.dispatched dispatched) requests authorized
      exact iff_of_true ((running _).trans ready) (inOrder (by omega) requests authorized)
    · -- Without the permission there is no session to start.
      refine iff_of_false ?_ (by simp [isScanning, authorized])
      rw [running]
      exact fun isSome => authorized (prepared.granted isSome)

/-- The last request brings a session that is not running. -/
private theorem matches_iff_of_accessGranted {position controller : Nat} {hasCamera : Bool}
    (pending : scanner.requests[position]? = some controller)
    (starts : after.starts = scanner.starts)
    (requests : after.requests = scanner.requests.eraseIdx position)
    (stopped : after.isRunning = false) (same : after.isScanning = scanner.isScanning) :
    after.CameraMatches ↔ InOrder scanner (.requestAccessCompletion position hasCamera) := by
  rw [CameraMatches, isSettled_erase pending starts requests, and_imp, stopped, same]
  -- What replaces the session does not run.
  refine forall₂_congr fun _ _ => ?_
  simp

/-- An event leaves the camera as it should be exactly if it comes in order. -/
private theorem matches_iff_inOrder (prepared : scanner.Prepared) (right : scanner.CameraMatches)
    (stepped : Steps scanner event after) : after.CameraMatches ↔ InOrder scanner event := by
  have next := prepared.step stepped
  cases stepped with
  | loadAuthorized authorized =>
    exact iff_of_true (fun settled => nomatch settled.1) trivial
  | loadAsking undecided => exact iff_of_true (fun settled => nomatch settled.1) trivial
  | loadRefused known refused asked => exact iff_of_true (fun settled => nomatch settled.1) trivial
  | viewWillAppear found leaving =>
    exact matches_iff_of_viewWillAppear right found leaving rfl rfl rfl Iff.rfl
  | viewWillDisappear found shown =>
    exact matches_iff_of_viewWillDisappear found rfl rfl rfl (isRunning_of_stopRunning rfl) Iff.rfl
  | viewDidDisappear found leaving =>
    exact iff_of_true (matches_of_viewDidDisappear right found leaving rfl rfl rfl Iff.rfl) trivial
  | startRunning dispatched => exact matches_iff_of_startRunning prepared dispatched
  | answered undecided asked => exact iff_of_true (fun settled => absurd settled.2 asked) trivial
  | accessGranted pending authorized =>
    exact matches_iff_of_accessGranted pending rfl rfl rfl rfl
  | accessRefused pending refused found shown =>
    -- Neither before nor after the answer is there a session.
    refine iff_of_true (fun _ => ?_) fun _ _ => isScanning_of_refused refused
    rw [next.isRunning_of_refused refused, isScanning_of_refused]
    exact refused
  | nothingScanned => exact iff_of_true right trivial
  | scanned detected =>
    refine iff_of_true (fun _ => ?_) trivial
    rw [isRunning_of_stopRunning rfl, prepared.isScanning_scanned]

/-- In every run of a process the camera runs exactly while a card is scanned, whenever nothing is
waiting, exactly if all events come in order. -/
theorem camera_matches_iff (run : Run next (launched authorizationStatus) history final) :
    (∀ scanner ∈ Run.states history final, scanner.CameraMatches) ↔ Run.Within InOrder history := by
  have preserved : ∀ {scanner after : Scanner} {event : ScannerEvent}, scanner.Prepared →
      scanner.next event = some after → after.Prepared :=
    fun prepared taken => prepared.step (steps_of_next taken)
  have exactly : ∀ {scanner after : Scanner} {event : ScannerEvent}, scanner.Prepared →
      scanner.CameraMatches → scanner.next event = some after →
        (after.CameraMatches ↔ InOrder scanner event) :=
    fun prepared right taken => matches_iff_inOrder prepared right (steps_of_next taken)
  -- A new process has neither screens nor a session.
  have prepared : (launched authorizationStatus).Prepared :=
    ⟨nofun, nofun, nofun, nofun⟩
  have right : (launched authorizationStatus).CameraMatches := fun _ => by
    simp [isRunning, isScanning, current, launched]
  exact Run.states_iff_within preserved exactly run prepared right

/-- What the camera detects on a card. -/
def Scenario.detected : List AVMetadataObject :=
  [.machineReadableCode .ean13 (some "4006381333931")]

/-- Two visits with the permission: a card is scanned in the first one. -/
def Scenario.twoVisits : List ScannerEvent :=
  [.viewDidLoad true, .startRunning, .metadataOutput Scenario.detected, .viewWillDisappear 0,
    .viewDidDisappear 0, .viewDidLoad true, .startRunning]

/-- In two such visits the camera is right all the time. -/
theorem camera_matches_twoVisits :
    ∃ final, Run next (launched .authorized) (Run.trace next (launched .authorized) Scenario.twoVisits)
        final ∧
      final.isRunning = true ∧
      ∀ scanner ∈ Run.states (Run.trace next (launched .authorized) Scenario.twoVisits) final,
        scanner.CameraMatches := by
  -- Each block runs during its own visit.
  obtain ⟨final, run, running⟩ := @Run.of_exec_any _ _ next (launched .authorized) Scenario.twoVisits
    isRunning (by decide +kernel)
  exact ⟨final, run, running, (camera_matches_iff run).mpr (by decide +kernel)⟩

/-- The first visit: the user grants the permission after the block has run. -/
def Scenario.firstVisit : List ScannerEvent :=
  [.viewDidLoad true, .startRunning, .answered true, .requestAccessCompletion 0 true]

/-- In the first visit of a new installation the camera is never started. -/
theorem first_visit_not_running :
    ¬ ∀ (authorizationStatus : AVAuthorizationStatus) (history : List (Scanner × ScannerEvent))
        (final : Scanner), Run next (launched authorizationStatus) history final →
        ∀ scanner ∈ Run.states history final, scanner.CameraMatches := by
  intro always
  obtain ⟨final, run, facts⟩ := @Run.of_exec_any _ _ next (launched .notDetermined) Scenario.firstVisit
    (fun final => decide final.IsSettled && final.isScanning && !final.isRunning) (by decide +kernel)
  simp only [Bool.and_eq_true, decide_eq_true_eq, Bool.not_eq_true'] at facts
  obtain ⟨⟨settled, scanning⟩, stopped⟩ := facts
  -- The screen is shown and waits for a barcode, but the session of the permission does not run.
  have running := (always _ _ _ run final (by simp [Run.states]) settled).mpr scanning
  cases stopped.symm.trans running

end Scanner

end CardGuru
