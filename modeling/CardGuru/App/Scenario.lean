import Mathlib.Data.Bool.AllAny
import CardGuru.App.Reachable

/-! A small installation with two users, on which closed statements about runs are evaluated. -/

namespace CardGuru

namespace Scenario

/-- A database without any record. -/
def emptyDatabase : Database := ⟨.empty, KeyTree.canonical_empty⟩

/-- A server that stores nothing yet. -/
def emptyServer : Server := { database := emptyDatabase, writes := [], objects := [] }

/-- A fresh installation. -/
def installed : App :=
  App.launched emptyServer { isLoggedIn := false, isTouchIDEnabled := false, user := none }

/-- One user of the installation. -/
def anna : User := { name := "Anna", email := "anna@mail.com", absoluteURL := none }

/-- Another user of the same device. -/
def boris : User := { name := "Boris", email := "boris@mail.com", absoluteURL := none }

/-- The defaults of a device on which the first user is signed in. -/
def annaSignedIn : UserDefaults :=
  { isLoggedIn := true, isTouchIDEnabled := false, user := some anna }

/-- The generated key of a first card. -/
def firstId : PushId := ⟨"-LaaaaaaaaaaaaaaaaaA", List.all_iff_forall_prop.mp (by decide), by decide⟩

/-- The generated key of a second card. -/
def secondId : PushId := ⟨"-LbbbbbbbbbbbbbbbbbB", List.all_iff_forall_prop.mp (by decide), by decide⟩

/-- The download address of a picture of the first user. -/
def urlOf (uuid : String) : String :=
  bucketURL ++ "anna%40mail_com%2F" ++ uuid ++ ".png?alt=media"

/-- The first user signs in and adds a card with the first key. -/
def addFirstCard : List Action :=
  [.signedIn anna, .snapshotRead 0, .loadDelivered 0, .addCardSegue, .scanned "Lidl" "123" firstId]

/-- The steps of adding one card by scanning. -/
def addition (autoId : PushId) : List Action :=
  [.addCardSegue, .scanned "Lidl" "123" autoId]

/-- The steps of a run from a state. -/
def history (start : App) (actions : List Action) : List (App × Action) :=
  Run.trace (App.next Platform.ascii) start actions

/-- The state in which a run ends, if all its actions are possible. -/
def reached (start : App) (actions : List Action) : Option App :=
  Run.exec (App.next Platform.ascii) start actions

/-- A process that has found no card of the first user. -/
def emptyLoaded : Option App :=
  reached (App.launched emptyServer annaSignedIn) App.firstLoad

/-- Possible actions make a run. -/
theorem run_of_ends {start final : App} {actions : List Action}
    (ends : reached start actions = some final) :
    Run (App.next Platform.ascii) start (history start actions) final :=
  Run.of_exec ends

/-- A test passed by the end of a list of possible actions is passed by the end of a run. -/
theorem run_of_reached (start : App) (actions : List Action) (test : App → Bool)
    (passed : (reached start actions).any test = true) :
    ∃ final, Run (App.next Platform.ascii) start (history start actions) final ∧
      test final = true :=
  Run.of_exec_any passed

/-- The installation with one card in the list and nothing pending. -/
def listed : App := (reached installed addFirstCard).get (by decide +kernel)

end Scenario

end CardGuru
