import CardGuru.HomeScreen.Rows

/-! A home screen with two stored cards, on which closed statements about runs are evaluated. -/

namespace CardGuru

namespace Scenario

/-- A card with a stored picture, as a load delivers it. -/
def storedCard (uid name url : String) : Card where
  uid := uid
  name := name
  barcode := "123"
  image := none
  absoluteURL := some url
  notesText := none

/-- The list arrives, and the cells of both rows are filled. -/
def twoRows : List HomeEvent :=
  [.loadDelivered [storedCard "-La" "Lidl" "U1", storedCard "-Lb" "Aldi" "U2"],
    .cellForItemAt 0 true, .cellForItemAt 1 true]

/-- The second card is found by a search. -/
def secondFound : List HomeEvent :=
  twoRows ++ [.searchChanged true "Al", .cellForItemAt 0 true]

/-- The found card is opened and gets another name. -/
def renamed (name : String) : List HomeEvent :=
  secondFound ++ [.prepare 0, .userDidUpdateData (Card.make "-Lb" name "123" .shop)]

/-- The steps of a run of a new home screen. -/
def homeHistory (events : List HomeEvent) : List (HomeScreen × HomeEvent) :=
  Run.trace (HomeScreen.next Platform.ascii) (.viewDidLoad 0) events

/-- A test passed by a new home screen after some possible events is passed by the end of a run. -/
theorem home_run_of_reached (events : List HomeEvent) (test : HomeScreen → Bool)
    (passed : (Run.exec (HomeScreen.next Platform.ascii) (.viewDidLoad 0) events).any test = true) :
    ∃ final, Run (HomeScreen.next Platform.ascii) (.viewDidLoad 0) (homeHistory events) final ∧
      test final = true :=
  Run.of_exec_any passed

end Scenario

end CardGuru
