import CardGuru.Firebase.Repo
import CardGuru.Lib.Run
import CardGuru.Services.DatabaseService

/-! Writes of one card and a few runs of the client, on which closed statements are evaluated. -/

namespace CardGuru

namespace Scenario

/-- A service that stores nothing yet. -/
def nothingStored : Database := ⟨.empty, KeyTree.canonical_empty⟩

/-- The place of a card. -/
def cardPlace : Path := [Paths.cards, ⟨"-La", by decide⟩]

/-- The card is saved. -/
def cardSaved : UserWrite := ⟨.setValue cardPlace [(Key.name, .string "Lidl")], by decide⟩

/-- The card gets another name. -/
def cardRenamed : UserWrite := ⟨.updateChildValues cardPlace [(Key.name, some (.string "Aldi"))], by decide⟩

/-- The card is deleted. -/
def cardDeleted : UserWrite := ⟨.removeValue cardPlace, by decide⟩

/-- The steps by which a client without a token is connected. -/
def connecting : List ExchangeEvent := [.retry, .tokenFetched (some none), .ready]

/-- The card is saved, and the connection is lost before the answer; then the card is renamed. -/
def answerLost : List ExchangeEvent :=
  [.set cardSaved] ++ connecting ++ [.serve true, .disconnected, .set cardRenamed]

/-- After that another process is started, which sends both writes; the first one is answered. -/
def relaunched : List ExchangeEvent :=
  answerLost ++ [.relaunch] ++ connecting ++ [.serve true, .receive]

/-- The answer to a write arrives while a listener is not answered. -/
def heldBack : List ExchangeEvent :=
  connecting ++ [.set cardSaved, .listen cardPlace, .serve true, .receive]

/-- A write is held back when the connection is lost; over the next one, without a listener, the deletion
that follows it is completed before it. -/
def overtaken : List ExchangeEvent :=
  heldBack ++ [.disconnected, .unlisten cardPlace, .set cardDeleted] ++ connecting ++ [.serve true, .receive]

/-- A service that accepts every write. -/
def acceptsAll : Service := .rules fun _ => true

/-- A client with plain names, at a service that stores nothing. -/
def atFirst : Exchange := .started .ascii nothingStored

/-- The history of some events, with a service that accepts every write. -/
def exchanged (events : List ExchangeEvent) : List (Exchange × ExchangeEvent) :=
  Run.trace (Exchange.next acceptsAll) atFirst events

/-- A test passed by the end of possible events is passed by the end of a run. -/
theorem run_exchanged (events : List ExchangeEvent) (test : Exchange → Bool)
    (passed : (Run.exec (Exchange.next acceptsAll) atFirst events).any test = true) :
    ∃ exchange, Run (Exchange.next acceptsAll) atFirst (exchanged events) exchange ∧
      test exchange = true :=
  Run.of_exec_any passed

end Scenario

end CardGuru
