import CardGuru.Firebase.PersistentConnection
import CardGuru.Firebase.WriteTree

/-! The database client of a process with what it keeps on disk, and the service at the other end. -/

namespace CardGuru

/-- Why a step of the client does not happen. -/
inductive RepoFault where
  /-- Nothing of this kind can happen now. -/
  | unavailable
  /-- The number of a write is not larger than that of the last one. -/
  | olderWrite (writeId : ℤ)
  /-- A write is acknowledged that is not recorded. -/
  | nonexistentWriteId (writeId : ℤ)
  /-- The writes read from the disk are not in the order of their numbers. -/
  | restoredWritesNotInOrder
deriving DecidableEq

/-- The client of the database in one process, and the writes that it has saved. -/
structure Repo where
  writeIdCounter : ℤ
  pendingWriteTree : WriteTree
  /-- The writes on disk, with their numbers. -/
  writesDB : List (ℤ × UserWrite)
  connection : PersistentConnection

namespace Repo

/-- A client that has been started with nothing on disk. -/
def started (comparator : StringComparator) : Repo := ⟨0, .initial comparator, [], .opened⟩

/-- Save a write on disk under its number. -/
def saveUserWrite (repo : Repo) (writeId : ℤ) (write : UserWrite) : Repo :=
  { repo with writesDB := (repo.writesDB.filter fun saved => saved.1 ≠ writeId) ++ [(writeId, write)] }

/-- Remove a write from the disk. -/
def removeUserWrite (repo : Repo) (writeId : ℤ) : Repo :=
  { repo with writesDB := repo.writesDB.filter fun saved => saved.1 ≠ writeId }

/-- The writes on disk, sorted by their numbers; every one of them can be read back (a write with a number
out of range would be dropped here, and any other damage would raise). -/
def userWrites (writesDB : List (ℤ × UserWrite)) : List (ℤ × UserWrite) :=
  writesDB.insertionSort fun one two => one.1 ≤ two.1

/-- Record a write under a number, and hand it to the connection. -/
def recordWrite (repo : Repo) (writeId : ℤ) (write : UserWrite) : Except RepoFault Repo :=
  match repo.pendingWriteTree.applyUserWrite writeId write.val with
  -- FWriteTree asserts that numbers only grow.
  | none => .error (.olderWrite writeId)
  | some tree =>
    .ok
      -- The counter is raised before the connection is given the write.
      { repo with
        writeIdCounter := writeId + 1
        pendingWriteTree := tree
        connection := repo.connection.putInternal write writeId }

/-- Make a write; an update without fields does nothing. -/
def set (repo : Repo) (write : UserWrite) : Except RepoFault Repo :=
  let writeId := repo.writeIdCounter
  match write.val with
  | .updateChildValues _ values =>
    -- The number is not used up, and nothing reaches the disk.
    if (WriteTree.compoundWriteFromDictionary repo.pendingWriteTree.comparator values).isEmpty then .ok repo
    else (repo.saveUserWrite writeId write).recordWrite writeId write
  -- The disk comes first, so a write that is on its way is always stored.
  | _ => (repo.saveUserWrite writeId write).recordWrite writeId write

/-- A write is completed: unless it was given up, it is forgotten. -/
def ackWrite (repo : Repo) (completion : ℤ × Status) : Except RepoFault Repo :=
  -- A write that was given up has left the tree and the disk already.
  if completion.2 = .writeCanceled then .ok repo
  else
    match repo.pendingWriteTree.removeWriteId completion.1 with
    -- The tree asserts that it holds the write.
    | none => .error (.nonexistentWriteId completion.1)
    | some (tree, _) => .ok ({ repo with pendingWriteTree := tree }.removeUserWrite completion.1)

/-- Writes are completed one after the other. -/
def ackWrites (repo : Repo) (completions : List (ℤ × Status)) : Except RepoFault Repo :=
  completions.foldlM ackWrite repo

/-- The next answer arrives. -/
def receive (repo : Repo) : Except RepoFault Repo :=
  match repo.connection.realtime.responses with
  | [] => .error .unavailable
  | response :: rest =>
    -- The answer is taken off the line before it is handled.
    let delivered :=
      { repo.connection with realtime := { repo.connection.realtime with responses := rest } }
    let (connection, completions) := delivered.onDataMessage response
    { repo with connection := connection }.ackWrites completions

/-- Give up all writes that have not been acknowledged. -/
def purgeOutstandingWrites (repo : Repo) : Except RepoFault Repo :=
  let (connection, completions) := repo.connection.purgeOutstandingWrites
  -- The tree and the disk are emptied before the completions run.
  { repo with
    pendingWriteTree := repo.pendingWriteTree.removeAllWrites
    writesDB := []
    connection := connection }.ackWrites completions

/-- Take over the next write from the disk, which has to have a larger number than the one before. -/
def restoreWrite (restored : Repo × Option ℤ) (saved : ℤ × UserWrite) :
    Except RepoFault (Repo × Option ℤ) :=
  match restored.2 with
  | some lastWriteId =>
    -- The source asserts that the stored numbers grow.
    if saved.1 ≤ lastWriteId then .error .restoredWritesNotInOrder
    else (restored.1.recordWrite saved.1 saved.2).map fun repo => (repo, some saved.1)
  | none => (restored.1.recordWrite saved.1 saved.2).map fun repo => (repo, some saved.1)

/-- A client is started with what is on disk. -/
def restoreWrites (comparator : StringComparator) (writesDB : List (ℤ × UserWrite)) :
    Except RepoFault Repo :=
  -- The writes stay on the disk while they are taken over.
  ((userWrites writesDB).foldlM restoreWrite
    ({ started comparator with writesDB := writesDB }, none)).map Prod.fst

end Repo

/-- The service at the other end, which is not part of the client: what handling a write makes of its
database, and the reason for which it refuses the write, if it does. -/
structure Service where
  handle : Database → UserWrite → Database
  refusal : Database → UserWrite → Option String

/-- A service with rules on writes, which performs what they accept. -/
def Service.rules (accepts : UserWrite → Bool) : Service where
  handle database write := if accepts write then database.apply write.val else database
  refusal _ write := if accepts write then none else some "permission_denied"

/-- A client and the service, and what may still reach the service from closed connections. -/
structure Exchange where
  repo : Repo
  /-- The content of the database at the service. -/
  database : Database
  stale : List UserWrite

/-- What may happen between the client, the network and the service. -/
inductive ExchangeEvent where
  | set (write : UserWrite)
  | listen (path : Path)
  | unlisten (path : Path)
  | refreshAuthToken (token : Option String)
  | interrupt (reason : String)
  | resume (reason : String)
  /-- A scheduled attempt to connect begins by fetching a token. -/
  | retry
  /-- The token is there, or fetching it has failed. -/
  | tokenFetched (token : Option (Option String))
  /-- The network connection is open. -/
  | ready
  /-- The network connection is lost. -/
  | disconnected
  /-- The service kills the connection. -/
  | killed
  /-- The service handles the next request; it may refuse credentials and listeners. -/
  | serve (grants : Bool)
  /-- The service handles a request from a closed connection. -/
  | serveStale
  /-- The next answer arrives at the client. -/
  | receive
  | purge
  /-- The process ends, and another one is started with what is on disk. -/
  | relaunch
deriving DecidableEq

namespace Exchange

/-- The writes among requests. -/
def puts (requests : List (ℕ × Request)) : List UserWrite :=
  requests.filterMap fun request =>
    match request.2 with
    | .put write => some write
    -- A credential or a listen request changes nothing at the service.
    | _ => none

/-- The connection has changed; what was on its way over a closed one may still arrive. -/
def change (exchange : Exchange) (connection : PersistentConnection) : Exchange :=
  { exchange with
    repo := { exchange.repo with connection := connection }
    stale :=
      -- A connection that stays open keeps its requests in the queue of the connection itself.
      if connection.isConnected then exchange.stale
      else exchange.stale ++ puts exchange.repo.connection.realtime.requests }

/-- What handling a request makes of the database. -/
def handleRequest (service : Service) (database : Database) : Request → Database
  | .put write => service.handle database write
  | _ => database

/-- What the service answers. -/
def answer (service : Service) (database : Database) (grants : Bool) : Request → Status
  | .put write => (service.refusal database write).elim .ok .failed
  | _ => if grants then .ok else .failed "permission_denied"

/-- The service handles the next request and answers it. -/
def serve (service : Service) (exchange : Exchange) (grants : Bool) : Except RepoFault Exchange :=
  let realtime := exchange.repo.connection.realtime
  match realtime.requests with
  | [] => .error .unavailable
  | (requestNumber, request) :: rest =>
    let status := answer service exchange.database grants request
    -- The answer carries the number of its request.
    let served : Realtime :=
      { requests := rest
        responses := realtime.responses ++ [(requestNumber, status)] }
    .ok
      { exchange with
        repo := { exchange.repo with connection := { exchange.repo.connection with realtime := served } }
        database := handleRequest service exchange.database request }

/-- The next answer arrives; a refused credential closes the connection. -/
def receive (exchange : Exchange) : Except RepoFault Exchange :=
  exchange.repo.receive.map fun repo => { exchange.change repo.connection with repo := repo }

/-- What happens at an event, unless it is not possible or raises. -/
def step (service : Service) (exchange : Exchange) : ExchangeEvent → Except RepoFault Exchange
  | .set write => (exchange.repo.set write).map fun repo => { exchange with repo := repo }
  | .listen path =>
    if exchange.repo.connection.listens.any fun listen => listen.path = path then .error .unavailable
    else .ok (exchange.change (exchange.repo.connection.listen path))
  | .unlisten path => .ok (exchange.change (exchange.repo.connection.removeListen path))
  | .refreshAuthToken token => .ok (exchange.change (exchange.repo.connection.refreshAuthToken token))
  | .interrupt reason => .ok (exchange.change (exchange.repo.connection.interruptForReason reason))
  | .resume reason => .ok (exchange.change (exchange.repo.connection.resumeForReason reason))
  | .retry =>
    if exchange.repo.connection.connectionState = .disconnected ∧
        exchange.repo.connection.shouldReconnect then
      .ok (exchange.change { exchange.repo.connection with connectionState := .gettingToken })
    else .error .unavailable
  | .tokenFetched fetched =>
    if exchange.repo.connection.connectionState = .gettingToken then
      match fetched with
      | none => .ok (exchange.change { exchange.repo.connection with connectionState := .disconnected })
      | some token =>
        .ok (exchange.change
          { exchange.repo.connection with authToken := token, connectionState := .connecting })
    else .error .unavailable
  | .ready =>
    if exchange.repo.connection.connectionState = .connecting then
      .ok { exchange.change exchange.repo.connection.restoreAuth with stale := [] }
    else .error .unavailable
  | .disconnected =>
    if exchange.repo.connection.hasRealtime then
      .ok (exchange.change exchange.repo.connection.onDisconnect)
    else .error .unavailable
  | .killed =>
    if exchange.repo.connection.hasRealtime then
      .ok (exchange.change
        (exchange.repo.connection.interruptForReason PersistentConnection.kFInterruptReasonServerKill))
    else .error .unavailable
  | .serve grants => serve service exchange grants
  | .serveStale =>
    match exchange.stale with
    | [] => .error .unavailable
    | write :: rest =>
      .ok { exchange with database := service.handle exchange.database write, stale := rest }
  | .receive => exchange.receive
  | .purge => exchange.repo.purgeOutstandingWrites.map fun repo => { exchange with repo := repo }
  | .relaunch =>
    -- The new process compares names as the old one did.
    (Repo.restoreWrites exchange.repo.pendingWriteTree.comparator exchange.repo.writesDB).map fun repo =>
      { exchange.change repo.connection with repo := repo }

/-- The exchange after an event, if the event is possible. -/
def next (service : Service) (exchange : Exchange) (event : ExchangeEvent) : Option Exchange :=
  (exchange.step service event).toOption

/-- A client that has been started, and a database with some content. -/
def started (comparator : StringComparator) (database : Database) : Exchange :=
  ⟨.started comparator, database, []⟩

end Exchange

end CardGuru
