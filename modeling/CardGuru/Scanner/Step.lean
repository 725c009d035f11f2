import CardGuru.Scanner.State

/-! What each event does to the camera and to the scanner screens. -/

namespace CardGuru

namespace Scanner

/-- A process that has just been started. -/
def launched (authorizationStatus : AVAuthorizationStatus) : Scanner where
  authorizationStatus := authorizationStatus
  service := { session := none, delegate := none }
  replaced := []
  controllers := []
  starts := 0
  requests := []

/-- Change one screen, unless that ends the program. -/
def onController (scanner : Scanner) (controller : Nat)
    (change : ScannerViewController → Option ScannerViewController) : Option Scanner :=
  -- The screen has to be there, and the change has to be possible.
  (scanner.controllers[controller]?).bind fun present =>
    (change present).map fun changed =>
      { scanner with controllers := scanner.controllers.set controller changed }

/-- The completion that a screen gave to the camera setup is called. -/
def completion (scanner : Scanner) (controller : Nat) (success : Bool) : Option Scanner :=
  -- A screen that may use the camera does nothing more about it.
  if success then some scanner
  else scanner.onController controller ScannerViewController.requestCameraAccess

/-- A new capture session is set up. -/
def setupCaptureSession (scanner : Scanner) (hasCamera : Bool) : Scanner :=
  -- Nothing stops the session that is replaced.
  { scanner with
    service := scanner.service.setupCaptureSession hasCamera
    replaced := scanner.replaced ++ scanner.service.session.toList }

/-- The camera is set up for a screen, or the user is asked first. -/
def setupSession (scanner : Scanner) (controller : Nat) (hasCamera : Bool) : Option Scanner :=
  match scanner.authorizationStatus with
  -- The completion is not called here, and nothing waits for it.
  | .authorized => some (scanner.setupCaptureSession hasCamera)
  | .notDetermined => some { scanner with requests := scanner.requests ++ [controller] }
  | .restricted => scanner.completion controller false
  | .denied => scanner.completion controller false

/-- A screen is loaded: it sets the camera up and dispatches a block that starts the session. -/
def viewDidLoad (scanner : Scanner) (hasCamera : Bool) : Option Scanner :=
  -- A camera that may not be used is reported to the new screen at once.
  let controller := scanner.controllers.length
  let loaded := { scanner with controllers := scanner.controllers ++ [ScannerViewController.new] }
  (loaded.setupSession controller hasCamera).map fun prepared =>
    { prepared with
      service := { prepared.service with delegate := some controller }
      starts := prepared.starts + 1 }

/-- A screen moves on from where it is. -/
def move (scanner : Scanner) (controller : Nat) (source target : Presence) : Option Scanner :=
  scanner.onController controller fun present =>
    if present.presence = source then some { present with presence := target } else none

/-- A screen begins to leave, and the present session is stopped. -/
def viewWillDisappear (scanner : Scanner) (controller : Nat) : Option Scanner :=
  -- The present session is stopped, whichever screen it was set up for.
  (scanner.onController controller fun present =>
    if present.presence = .onScreen then present.viewWillDisappear else none).map fun left =>
      { left with service := left.service.stopRunning }

/-- A dispatched block starts whatever session is the present one by now. -/
def startRunning (scanner : Scanner) : Option Scanner :=
  -- Whether the screen of the block is still shown is not looked at.
  if 0 < scanner.starts then
    some { scanner with service := scanner.service.startRunning, starts := scanner.starts - 1 }
  else none

/-- The user answers, which is possible once. -/
def answered (scanner : Scanner) (granted : Bool) : Option Scanner :=
  -- The system shows the question because of a request.
  if scanner.authorizationStatus = .notDetermined ∧ scanner.requests ≠ [] then
    some { scanner with authorizationStatus := if granted then .authorized else .denied }
  else none

/-- A request is called back after the user has answered. -/
def requestAccessCompletion (scanner : Scanner) (position : Nat) (hasCamera : Bool) :
    Option Scanner :=
  (scanner.requests[position]?).bind fun controller =>
    let rest := { scanner with requests := scanner.requests.eraseIdx position }
    match scanner.authorizationStatus with
    | .notDetermined => none
    | .authorized => (rest.setupCaptureSession hasCamera).completion controller true
    | .restricted => rest.completion controller false
    | .denied => rest.completion controller false

/-- The sessions that were set up with a camera; they may also deliver late. -/
def outputs (scanner : Scanner) : List AVCaptureSession :=
  (scanner.replaced ++ scanner.service.session.toList).filter AVCaptureSession.hasOutput

/-- A detected barcode is handed to the screen, and the present session is stopped. -/
def metadataOutput (scanner : Scanner) (metadataObjects : List AVMetadataObject) : Option Scanner :=
  -- Detections without a barcode leave the session running.
  if scanner.outputs ≠ [] then
    match ScannerService.barcode? metadataObjects with
    | none => some scanner
    | some barcode =>
      some
        { scanner with
          service := scanner.service.stopRunning
          controllers :=
            match scanner.service.delegate with
            | none => scanner.controllers
            | some controller => scanner.controllers.modify controller fun present => present.get barcode }
  else none

/-- The scanner after an event, unless the event cannot happen or ends the program. -/
def next (scanner : Scanner) : ScannerEvent → Option Scanner
  | .viewDidLoad hasCamera => scanner.viewDidLoad hasCamera
  | .viewWillAppear controller => scanner.move controller .leaving .onScreen
  | .viewWillDisappear controller => scanner.viewWillDisappear controller
  | .viewDidDisappear controller => scanner.move controller .leaving .gone
  | .startRunning => scanner.startRunning
  | .answered granted => scanner.answered granted
  | .requestAccessCompletion position hasCamera =>
    scanner.requestAccessCompletion position hasCamera
  | .metadataOutput metadataObjects => scanner.metadataOutput metadataObjects

variable {scanner after : Scanner} {event : ScannerEvent}

/-- The scanner with one more screen, whose block has been dispatched. -/
def loaded (scanner : Scanner) (controller : ScannerViewController) : Scanner :=
  -- The session and the requests are those of before.
  { scanner with
    controllers := scanner.controllers ++ [controller]
    service := { scanner.service with delegate := some scanner.controllers.length }
    starts := scanner.starts + 1 }

/-- The scanner after the barcode of a card was detected. -/
def scanned (scanner : Scanner) (barcode : String) : Scanner :=
  -- The delegate need not be on the screen any more.
  { scanner with
    service := scanner.service.stopRunning
    controllers :=
      match scanner.service.delegate with
      | none => scanner.controllers
      | some controller => scanner.controllers.modify controller fun present => present.get barcode }

/-- All that an event can do, with the conditions under which it does so. -/
inductive Steps (scanner : Scanner) : ScannerEvent → Scanner → Prop where
  | loadAuthorized {hasCamera : Bool} (authorized : scanner.authorizationStatus = .authorized) :
    Steps scanner (.viewDidLoad hasCamera) ((scanner.setupCaptureSession hasCamera).loaded .new)
  | loadAsking {hasCamera : Bool} (undecided : scanner.authorizationStatus = .notDetermined) :
    Steps scanner (.viewDidLoad hasCamera)
      { scanner.loaded .new with requests := scanner.requests ++ [scanner.controllers.length] }
  | loadRefused {hasCamera : Bool} {controller : ScannerViewController}
    (known : scanner.authorizationStatus ≠ .notDetermined)
    (refused : scanner.authorizationStatus ≠ .authorized)
    (asked : ScannerViewController.new.requestCameraAccess = some controller) :
    Steps scanner (.viewDidLoad hasCamera) (scanner.loaded controller)
  | viewWillAppear {controller : Nat} {present : ScannerViewController}
    (found : scanner.controllers[controller]? = some present) (leaving : present.presence = .leaving) :
    Steps scanner (.viewWillAppear controller)
      { scanner with
        controllers := scanner.controllers.set controller { present with presence := .onScreen } }
  | viewWillDisappear {controller : Nat} {present : ScannerViewController}
    (found : scanner.controllers[controller]? = some present)
    (shown : present.presence = .onScreen) :
    Steps scanner (.viewWillDisappear controller)
      { scanner with
        service := scanner.service.stopRunning
        controllers := scanner.controllers.set controller
          { present with presence := .leaving, animatedView := none } }
  | viewDidDisappear {controller : Nat} {present : ScannerViewController}
    (found : scanner.controllers[controller]? = some present) (leaving : present.presence = .leaving) :
    Steps scanner (.viewDidDisappear controller)
      { scanner with
        controllers := scanner.controllers.set controller { present with presence := .gone } }
  | startRunning (dispatched : 0 < scanner.starts) :
    Steps scanner .startRunning
      { scanner with service := scanner.service.startRunning, starts := scanner.starts - 1 }
  | answered {granted : Bool} (undecided : scanner.authorizationStatus = .notDetermined)
    (asked : scanner.requests ≠ []) :
    Steps scanner (.answered granted)
      { scanner with authorizationStatus := if granted then .authorized else .denied }
  | accessGranted {position controller : Nat} {hasCamera : Bool}
    (pending : scanner.requests[position]? = some controller)
    (authorized : scanner.authorizationStatus = .authorized) :
    Steps scanner (.requestAccessCompletion position hasCamera)
      { scanner.setupCaptureSession hasCamera with requests := scanner.requests.eraseIdx position }
  | accessRefused {position controller : Nat} {hasCamera : Bool} {present asked : ScannerViewController}
    (pending : scanner.requests[position]? = some controller)
    (refused : scanner.authorizationStatus ≠ .authorized)
    (found : scanner.controllers[controller]? = some present)
    (shown : present.requestCameraAccess = some asked) :
    Steps scanner (.requestAccessCompletion position hasCamera)
      { scanner with
        requests := scanner.requests.eraseIdx position
        controllers := scanner.controllers.set controller asked }
  | nothingScanned {metadataObjects : List AVMetadataObject} :
    Steps scanner (.metadataOutput metadataObjects) scanner
  | scanned {metadataObjects : List AVMetadataObject} {barcode : String}
    (detected : ScannerService.barcode? metadataObjects = some barcode) :
    Steps scanner (.metadataOutput metadataObjects) (scanner.scanned barcode)

/-- A changed screen was there before. -/
private theorem onController_ok {controller : Nat}
    {change : ScannerViewController → Option ScannerViewController}
    (done : scanner.onController controller change = some after) :
    ∃ present changed, scanner.controllers[controller]? = some present ∧
      change present = some changed ∧
      after = { scanner with controllers := scanner.controllers.set controller changed } := by
  -- Both the screen and its change exist.
  obtain ⟨present, found, rest⟩ := Option.bind_eq_some_iff.mp done
  obtain ⟨changed, made, rfl⟩ := Option.map_eq_some_iff.mp rest
  exact ⟨present, changed, found, made, rfl⟩

private theorem viewDidLoad_ok {hasCamera : Bool}
    (done : scanner.viewDidLoad hasCamera = some after) :
    Steps scanner (.viewDidLoad hasCamera) after := by
  -- The camera is set up for the screen that was just added.
  obtain ⟨prepared, setup, rfl⟩ := Option.map_eq_some_iff.mp done
  have added : (scanner.controllers ++ [ScannerViewController.new])[scanner.controllers.length]? =
      some ScannerViewController.new := by simp
  have last : ∀ {changed : ScannerViewController},
      (scanner.controllers ++ [ScannerViewController.new]).set scanner.controllers.length changed =
        scanner.controllers ++ [changed] := by simp
  unfold setupSession at setup
  split at setup <;> rename_i status
  · cases setup
    exact .loadAuthorized status
  · cases setup
    exact .loadAsking status
  · obtain ⟨present, changed, found, made, rfl⟩ := onController_ok setup
    cases added.symm.trans found
    rw [last]
    exact .loadRefused (status.trans_ne nofun) (status.trans_ne nofun) made
  · obtain ⟨present, changed, found, made, rfl⟩ := onController_ok setup
    cases added.symm.trans found
    rw [last]
    exact .loadRefused (status.trans_ne nofun) (status.trans_ne nofun) made

private theorem requestAccessCompletion_ok {position : Nat} {hasCamera : Bool}
    (done : scanner.requestAccessCompletion position hasCamera = some after) :
    Steps scanner (.requestAccessCompletion position hasCamera) after := by
  -- The user has answered, and the answer is the present status.
  obtain ⟨controller, pending, rest⟩ := Option.bind_eq_some_iff.mp done
  dsimp only at rest
  split at rest <;> rename_i status
  · cases rest
  · cases rest
    exact .accessGranted pending status
  · obtain ⟨present, asked, found, made, rfl⟩ := onController_ok rest
    exact .accessRefused pending (status.trans_ne nofun) found made
  · obtain ⟨present, asked, found, made, rfl⟩ := onController_ok rest
    exact .accessRefused pending (status.trans_ne nofun) found made

private theorem metadataOutput_ok {metadataObjects : List AVMetadataObject}
    (done : scanner.metadataOutput metadataObjects = some after) :
    Steps scanner (.metadataOutput metadataObjects) after := by
  -- There are detections with a barcode and without one.
  unfold metadataOutput at done
  split at done
  · split at done
    · cases done
      exact .nothingScanned
    · rename_i barcode detected
      cases done
      exact .scanned detected
  · cases done

private theorem move_ok {controller : Nat} {source target : Presence}
    (done : scanner.move controller source target = some after) :
    ∃ present, scanner.controllers[controller]? = some present ∧ present.presence = source ∧
      after = { scanner with
        controllers := scanner.controllers.set controller { present with presence := target } } := by
  -- Only a screen that is where it should be moves on.
  obtain ⟨present, changed, found, made, rfl⟩ := onController_ok done
  split at made
  · rename_i here
    cases made
    exact ⟨present, found, here, rfl⟩
  · cases made

/-- The states that follow each other in a run do so by one of the listed steps. -/
theorem steps_of_next (taken : scanner.next event = some after) : Steps scanner event after := by
  -- Each event is inverted by itself.
  cases event with
  | viewDidLoad hasCamera => exact viewDidLoad_ok taken
  | viewWillAppear controller =>
    obtain ⟨present, found, leaving, rfl⟩ := move_ok taken
    exact .viewWillAppear found leaving
  | viewWillDisappear controller =>
    obtain ⟨left, moved, rfl⟩ := Option.map_eq_some_iff.mp taken
    obtain ⟨present, changed, found, made, rfl⟩ := onController_ok moved
    split at made
    · rename_i shown
      obtain ⟨_, _, rfl⟩ := Option.map_eq_some_iff.mp made
      exact .viewWillDisappear found shown
    · cases made
  | viewDidDisappear controller =>
    obtain ⟨present, found, leaving, rfl⟩ := move_ok taken
    exact .viewDidDisappear found leaving
  | startRunning =>
    have done : scanner.startRunning = some after := taken
    unfold Scanner.startRunning at done
    split at done
    · rename_i dispatched
      cases done
      exact .startRunning dispatched
    · cases done
  | answered granted =>
    have done : scanner.answered granted = some after := taken
    unfold Scanner.answered at done
    split at done
    · rename_i possible
      cases done
      exact .answered possible.1 possible.2
    · cases done
  | requestAccessCompletion position hasCamera => exact requestAccessCompletion_ok taken
  | metadataOutput metadataObjects => exact metadataOutput_ok taken

end Scanner

end CardGuru
