import Mathlib.Data.List.Sort
import CardGuru.Firebase.WriteChanges

/-! The connection of the database client to the service: what is sent, what is awaited, and what is
sent again after the connection was lost. -/

namespace CardGuru

/-- Where a connection stands. -/
inductive ConnectionState where
  | disconnected
  /-- A token is being fetched, without which no connection is opened. -/
  | gettingToken
  | connecting
  /-- The connection is open, and the credential has been sent. -/
  | authenticating
  | connected
deriving DecidableEq

/-- What the answer to a request says. -/
inductive Status where
  | ok
  | failed (reason : String)
  /-- The client itself has given the write up. -/
  | writeCanceled
deriving DecidableEq

/-- What the client sends to the service. -/
inductive Request where
  | auth (credential : String)
  | listen (path : Path)
  /-- A `put` or a `merge`, with its path and its data. -/
  | put (write : UserWrite)
deriving DecidableEq

/-- A listener that the service is asked for. -/
structure OutstandingQuery where
  path : Path
  /-- Tells a listener from an earlier one at the same path. -/
  identity : ℕ
deriving DecidableEq

/-- A write that the service has not answered. -/
structure OutstandingPut where
  write : UserWrite
  /-- The number of the write that its completion acknowledges. -/
  onCompleteBlock : ℤ
deriving DecidableEq

/-- What is done with the answer to a request. -/
inductive RequestCallback where
  | auth (restoreStateAfterComplete : Bool)
  | listen (listenSpec : OutstandingQuery)
  | put (index : ℕ) (put : OutstandingPut)
deriving DecidableEq

/-- The messages on their way over an open connection, in both directions, each with the number of
its request. -/
structure Realtime where
  requests : List (ℕ × Request)
  responses : List (ℕ × Status)
deriving DecidableEq

/-- The state of the connection of a client. -/
structure PersistentConnection where
  connectionState : ConnectionState
  interruptReasons : List String
  authToken : Option String
  listens : List OutstandingQuery
  /-- The number of listeners that there were. -/
  listenCounter : ℕ
  outstandingPuts : List (ℕ × OutstandingPut)
  putCounter : ℕ
  requestNumber : ℕ
  requestCBHash : List (ℕ × RequestCallback)
  unackedListensCount : ℕ
  /-- The answered writes whose completion waits for the listeners. -/
  putsToAck : List (ℤ × Status)
  realtime : Realtime
deriving DecidableEq

namespace PersistentConnection

/-- The reason that keeps a connection closed that the service has killed. -/
def kFInterruptReasonServerKill : String := "server_kill"

/-- A connection that was opened and has not done anything yet. -/
def opened : PersistentConnection where
  -- The source opens the connection later, by a retry.
  connectionState := .disconnected
  interruptReasons := []
  authToken := none
  listens := []
  listenCounter := 0
  outstandingPuts := []
  putCounter := 0
  requestNumber := 0
  requestCBHash := []
  unackedListensCount := 0
  putsToAck := []
  realtime := ⟨[], []⟩

/-- Whether requests can be sent. -/
def isConnected (connection : PersistentConnection) : Bool :=
  connection.connectionState = .authenticating ∨ connection.connectionState = .connected

/-- Whether writes can be sent. -/
def canSendWrites (connection : PersistentConnection) : Bool :=
  connection.connectionState = .connected

/-- Whether the connection is to be opened again after it was lost. -/
def shouldReconnect (connection : PersistentConnection) : Bool :=
  connection.interruptReasons.isEmpty

/-- Send a request, and remember what to do with its answer. -/
def sendAction (connection : PersistentConnection) (request : Request) (onMessage : RequestCallback) :
    PersistentConnection :=
  { connection with
    requestNumber := connection.requestNumber + 1
    -- The answer is recognised by the number of the request.
    requestCBHash := connection.requestCBHash ++ [(connection.requestNumber, onMessage)]
    realtime :=
      { connection.realtime with
        requests := connection.realtime.requests ++ [(connection.requestNumber, request)] } }

/-- Send a write that has no answer yet. -/
def sendPut (connection : PersistentConnection) (index : ℕ) : PersistentConnection :=
  match connection.outstandingPuts.lookup index with
  -- There always is one.
  | none => connection
  | some put => connection.sendAction (.put put.write) (.put index put)

/-- Take over a write, and send it if that is possible now. -/
def putInternal (connection : PersistentConnection) (write : UserWrite) (onComplete : ℤ) :
    PersistentConnection :=
  let index := connection.putCounter
  let taken :=
    { connection with
      putCounter := connection.putCounter + 1
      outstandingPuts := connection.outstandingPuts ++ [(index, OutstandingPut.mk write onComplete)] }
  -- Otherwise it is sent when the connection is restored.
  if taken.canSendWrites then taken.sendPut index else taken

/-- Ask for a listener. -/
def sendListen (connection : PersistentConnection) (listenSpec : OutstandingQuery) :
    PersistentConnection :=
  let sent := connection.sendAction (.listen listenSpec.path) (.listen listenSpec)
  -- Writes are not completed while a listener waits for its answer.
  { sent with unackedListensCount := sent.unackedListensCount + 1 }

/-- Add a listener at a path. -/
def listen (connection : PersistentConnection) (path : Path) : PersistentConnection :=
  -- Each listener gets a number of its own.
  let outstanding : OutstandingQuery := ⟨path, connection.listenCounter⟩
  let added :=
    { connection with
      listens := connection.listens ++ [outstanding]
      listenCounter := connection.listenCounter + 1 }
  if added.isConnected then added.sendListen outstanding else added

/-- Remove the listener at a path. -/
def removeListen (connection : PersistentConnection) (path : Path) : PersistentConnection :=
  { connection with listens := connection.listens.filter fun listen => listen.path ≠ path }

/-- Send the credential. -/
def sendAuth (connection : PersistentConnection) (restoreStateAfterComplete : Bool) : PersistentConnection :=
  match connection.authToken with
  -- There always is one.
  | none => connection
  | some token => connection.sendAction (.auth token) (.auth restoreStateAfterComplete)

/-- Use another token from now on. -/
def refreshAuthToken (connection : PersistentConnection) (token : Option String) : PersistentConnection :=
  let refreshed := { connection with authToken := token }
  if refreshed.isConnected ∧ token.isSome then refreshed.sendAuth false else refreshed

/-- Send all listeners and, in order, all writes that have no answer. -/
def restoreState (connection : PersistentConnection) : PersistentConnection :=
  let listening := connection.listens.foldl sendListen connection
  -- The keys are sorted, so writes are sent in the order of their numbers.
  let keys := (listening.outstandingPuts.map Prod.fst).insertionSort (· ≤ ·)
  keys.foldl sendPut listening

/-- Send the credential, if there is one, before everything else. -/
def restoreAuth (connection : PersistentConnection) : PersistentConnection :=
  match connection.authToken with
  | none => { connection with connectionState := .connected }.restoreState
  -- The rest is restored when the credential is answered.
  | some _ => { connection with connectionState := .authenticating }.sendAuth true

/-- The connection is lost: no answer is expected any more. -/
def onDisconnect (connection : PersistentConnection) : PersistentConnection :=
  { connection with
    connectionState := .disconnected
    -- The writes themselves stay outstanding.
    requestCBHash := []
    unackedListensCount := 0
    realtime := ⟨[], []⟩ }

/-- Whether there is a network connection, which may still be about to open. -/
def hasRealtime (connection : PersistentConnection) : Bool :=
  connection.connectionState = .connecting ∨ connection.isConnected

/-- Keep the connection closed for a reason. -/
def interruptForReason (connection : PersistentConnection) (reason : String) : PersistentConnection :=
  let interrupted :=
    { connection with
      interruptReasons :=
        if reason ∈ connection.interruptReasons then connection.interruptReasons
        else connection.interruptReasons ++ [reason] }
  -- Only a connection that exists is closed.
  if interrupted.hasRealtime then interrupted.onDisconnect
  else { interrupted with connectionState := .disconnected }

/-- A reason to keep the connection closed does not hold any more. -/
def resumeForReason (connection : PersistentConnection) (reason : String) : PersistentConnection :=
  { connection with
    interruptReasons := connection.interruptReasons.filter fun other => other ≠ reason }

/-- Complete the writes whose completion was held back. -/
def ackPuts (connection : PersistentConnection) : PersistentConnection × List (ℤ × Status) :=
  ({ connection with putsToAck := [] }, connection.putsToAck)

/-- The credential was answered. -/
def onAuth (connection : PersistentConnection) (restoreStateAfterComplete : Bool) (status : Status) :
    PersistentConnection :=
  let authenticated := { connection with connectionState := .connected }
  if status = .ok then
    if restoreStateAfterComplete then authenticated.restoreState else authenticated
  -- The connection is closed, and a new token will be fetched.
  else { authenticated with authToken := none }.onDisconnect

/-- A listener was answered. -/
def onListen (connection : PersistentConnection) (listenSpec : OutstandingQuery) (status : Status) :
    PersistentConnection × List (ℤ × Status) :=
  let current :=
    -- A refused listener is dropped if it is still the same one.
    if listenSpec ∈ connection.listens ∧ status ≠ .ok then connection.removeListen listenSpec.path
    else connection
  let counted := { current with unackedListensCount := current.unackedListensCount - 1 }
  -- The last answer completes the writes that were held back.
  if counted.unackedListensCount = 0 then counted.ackPuts else (counted, [])

/-- A write was answered: it is completed unless the answer to a listener is awaited. -/
def onPut (connection : PersistentConnection) (index : ℕ) (put : OutstandingPut) (status : Status) :
    PersistentConnection × List (ℤ × Status) :=
  if connection.outstandingPuts.lookup index = some put then
    let removed :=
      { connection with
        outstandingPuts := connection.outstandingPuts.filter fun other => other.1 ≠ index }
    if removed.unackedListensCount = 0 then (removed, [(put.onCompleteBlock, status)])
    else
      ({ removed with putsToAck := removed.putsToAck ++ [(put.onCompleteBlock, status)] }, [])
  -- The write was removed before.
  else (connection, [])

/-- The callback of a request is called with the answer. -/
def call (connection : PersistentConnection) (callback : RequestCallback) (status : Status) :
    PersistentConnection × List (ℤ × Status) :=
  match callback with
  -- Only the answer to a write or a listener completes anything.
  | .auth restoreStateAfterComplete => (connection.onAuth restoreStateAfterComplete status, [])
  | .listen listenSpec => connection.onListen listenSpec status
  | .put index put => connection.onPut index put status

/-- An answer arrives; it comes with the writes that are completed now. -/
def onDataMessage (connection : PersistentConnection) (response : ℕ × Status) :
    PersistentConnection × List (ℤ × Status) :=
  match connection.requestCBHash.lookup response.1 with
  -- An answer nobody waits for is ignored.
  | none => (connection, [])
  | some callback =>
    { connection with
      requestCBHash := connection.requestCBHash.filter fun other => other.1 ≠ response.1 }.call
      callback response.2

/-- Give up all writes; it comes with the writes that are completed by that. -/
def purgeOutstandingWrites (connection : PersistentConnection) :
    PersistentConnection × List (ℤ × Status) :=
  let keys := (connection.outstandingPuts.map Prod.fst).insertionSort (· ≤ ·)
  -- The calls to the service are not taken back.
  let canceled := keys.filterMap fun key => (connection.outstandingPuts.lookup key).map fun put =>
    (put.onCompleteBlock, Status.writeCanceled)
  ({ connection with putsToAck := [], outstandingPuts := [] }, connection.putsToAck ++ canceled)

end PersistentConnection

end CardGuru
