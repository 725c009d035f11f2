import CardGuru.Lib.Run

/-! The camera: capture sessions, the service that owns them and the scanner screens that use it. -/

namespace CardGuru

/-- Whether the user lets the program use the camera. -/
inductive AVAuthorizationStatus where
  /-- The user has not been asked yet, or has not answered. -/
  | notDetermined
  | restricted
  | denied
  | authorized
deriving DecidableEq

/-- A capture session. -/
structure AVCaptureSession where
  isRunning : Bool
  /-- Whether a camera was found, so that the service gets what it detects. -/
  hasOutput : Bool
deriving DecidableEq

namespace AVCaptureSession

/-- Start the session on which it is called. -/
def startRunning (session : AVCaptureSession) : AVCaptureSession :=
  { session with isRunning := true }

/-- Stop the session on which it is called. -/
def stopRunning (session : AVCaptureSession) : AVCaptureSession :=
  { session with isRunning := false }

end AVCaptureSession

/-- The types of machine-readable codes. -/
inductive ObjectType where
  | upce
  | code39
  | code39Mod43
  | code93
  | code128
  | ean8
  | ean13
  /-- A type that the service does not support. -/
  | unsupported
deriving DecidableEq

/-- What a camera detects. -/
inductive AVMetadataObject where
  /-- A machine-readable code, with its text if it can be decoded. -/
  | machineReadableCode (type : ObjectType) (stringValue : Option String)
  /-- Something else, such as a face. -/
  | other
deriving DecidableEq

/-- The state of the shared scanner service; screens are known by the order of their loading. -/
structure ScannerService where
  session : Option AVCaptureSession
  delegate : Option Nat
deriving DecidableEq

namespace ScannerService

/-- The types of codes that a card can have. -/
def supportedTypes : List ObjectType :=
  [.upce, .code39, .code39Mod43, .code93, .code128, .ean8, .ean13]

/-- A new session replaces the present one; it is not running. -/
def setupCaptureSession (service : ScannerService) (hasCamera : Bool) : ScannerService :=
  { service with session := some { isRunning := false, hasOutput := hasCamera } }

/-- Start the present session, if there is one. -/
def startRunning (service : ScannerService) : ScannerService :=
  { service with session := service.session.map .startRunning }

/-- Stop the present session, if there is one. -/
def stopRunning (service : ScannerService) : ScannerService :=
  { service with session := service.session.map .stopRunning }

@[simp] theorem delegate_startRunning (service : ScannerService) :
    service.startRunning.delegate = service.delegate := rfl

@[simp] theorem delegate_stopRunning (service : ScannerService) :
    service.stopRunning.delegate = service.delegate := rfl

@[simp] theorem isSome_session_startRunning (service : ScannerService) :
    service.startRunning.session.isSome = service.session.isSome := by
  simp [startRunning]

@[simp] theorem isSome_session_stopRunning (service : ScannerService) :
    service.stopRunning.session.isSome = service.session.isSome := by
  simp [stopRunning]

/-- The barcode in what was detected: only the first object is looked at. -/
def barcode? (metadataObjects : List AVMetadataObject) : Option String :=
  -- A code without a text is passed over like an unsupported one.
  match metadataObjects.head? with
  | some (.machineReadableCode type stringValue) =>
    if type ∈ supportedTypes then stringValue else none
  | _ => none

end ScannerService

/-- Where a scanner screen is. -/
inductive Presence where
  | onScreen
  /-- It has begun to leave, which can still be given up. -/
  | leaving
  | gone
deriving DecidableEq

/-- The animated view of a scanner screen. -/
structure AnimatedView where
  /-- Whether it is grey, because the camera may not be used. -/
  isLightGray : Bool
deriving DecidableEq

/-- A scanner screen. -/
structure ScannerViewController where
  presence : Presence
  /-- The animated view, while it is in the view of the screen. -/
  animatedView : Option AnimatedView
  /-- Whether the user was asked to change the settings. -/
  requestedCameraAccess : Bool
  /-- The barcodes for which a name is asked for. -/
  barcodes : List String
deriving DecidableEq

namespace ScannerViewController

/-- A screen whose view has just loaded. -/
def new : ScannerViewController where
  presence := .onScreen
  animatedView := some { isLightGray := false }
  requestedCameraAccess := false
  barcodes := []

/-- A barcode was found, and its name is asked for. -/
def get (controller : ScannerViewController) (barcode : String) : ScannerViewController :=
  { controller with barcodes := controller.barcodes ++ [barcode] }

/-- The camera may not be used; an animated view that is gone ends the program. -/
def requestCameraAccess (controller : ScannerViewController) : Option ScannerViewController :=
  controller.animatedView.map fun _ =>
    { controller with
      animatedView := some { isLightGray := true }
      requestedCameraAccess := true }

/-- The screen begins to leave; an animated view that is gone ends the program. -/
def viewWillDisappear (controller : ScannerViewController) : Option ScannerViewController :=
  controller.animatedView.map fun _ =>
    -- The outlet is weak, and nothing else holds the view.
    { controller with presence := .leaving, animatedView := none }

end ScannerViewController

/-- The scanner screens, the service and the work that waits for other queues. -/
structure Scanner where
  authorizationStatus : AVAuthorizationStatus
  service : ScannerService
  /-- Sessions that were replaced by later ones. -/
  replaced : List AVCaptureSession
  /-- All screens in the order of their loading. -/
  controllers : List ScannerViewController
  /-- The number of dispatched blocks that start the present session. -/
  starts : Nat
  /-- The screens whose requests for the camera have not been called back. -/
  requests : List Nat
deriving DecidableEq

/-- What happens to the scanner. -/
inductive ScannerEvent where
  /-- A screen is loaded and appears. -/
  | viewDidLoad (hasCamera : Bool)
  /-- A screen that has begun to leave stays after all. -/
  | viewWillAppear (controller : Nat)
  /-- A screen begins to leave. -/
  | viewWillDisappear (controller : Nat)
  /-- A screen has left. -/
  | viewDidDisappear (controller : Nat)
  /-- A dispatched block runs. -/
  | startRunning
  /-- The user answers whether the camera may be used. -/
  | answered (granted : Bool)
  /-- A request for the camera is called back. -/
  | requestAccessCompletion (position : Nat) (hasCamera : Bool)
  /-- A camera has detected something. -/
  | metadataOutput (metadataObjects : List AVMetadataObject)
deriving DecidableEq

end CardGuru
