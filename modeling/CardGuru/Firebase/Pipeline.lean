import CardGuru.Firebase.PersistentConnection
import CardGuru.Lib.Entries

/-! What is on its way over a connection agrees with what the client awaits, and both with the writes
that have no answer. -/

namespace CardGuru

namespace PersistentConnection

/-- The write whose answer a call awaits. -/
def putOf (call : ℕ × RequestCallback) : Option (ℕ × OutstandingPut) :=
  match call.2 with
  | .put index put => some (index, put)
  | _ => none

/-- The write that a request carries. -/
def writeOf (request : ℕ × Request) : Option UserWrite :=
  match request.2 with
  | .put write => some write
  | _ => none

/-- The calls whose answers are awaited are those on their way, in the same order. -/
structure Aligned (connection : PersistentConnection) : Prop where
  numbers : connection.requestCBHash.map Prod.fst =
    connection.realtime.responses.map Prod.fst ++ connection.realtime.requests.map Prod.fst
  ascending : Entries.Sorted connection.requestCBHash
  numbered : ∀ call ∈ connection.requestCBHash, call.1 < connection.requestNumber
  writes : (connection.requestCBHash.drop connection.realtime.responses.length).map
      (fun call => (putOf call).map fun put => put.2.write) =
    connection.realtime.requests.map writeOf

/-- What the state of a connection says about the calls whose answers are awaited. -/
structure Phase (connection : PersistentConnection) : Prop where
  idle : connection.isConnected = false → connection.requestCBHash = []
  authenticating : connection.connectionState = .authenticating → ∃ number later,
    connection.requestCBHash = (number, .auth true) :: later ∧
      ∀ call ∈ later, call.2 ≠ .auth true ∧ putOf call = none
  connected : connection.connectionState = .connected →
    (∀ call ∈ connection.requestCBHash, call.2 ≠ .auth true) ∧
      connection.requestCBHash.filterMap putOf = connection.outstandingPuts

/-- The outstanding writes are in the order of their indices. -/
structure Indexed (connection : PersistentConnection) : Prop where
  ascending : Entries.Sorted connection.outstandingPuts
  numbered : ∀ entry ∈ connection.outstandingPuts, entry.1 < connection.putCounter

/-- A connection as the client leaves it after each step. -/
structure Pipeline (connection : PersistentConnection) : Prop where
  aligned : connection.Aligned
  phase : connection.Phase
  indexed : connection.Indexed

variable {connection before middle after : PersistentConnection}

/-- The number of answers on their way is at most the number of awaited ones. -/
theorem Aligned.length_le (aligned : connection.Aligned) :
    connection.realtime.responses.length ≤ connection.requestCBHash.length := by
  -- Every answer has a call of its own, in front of the calls whose requests are still on their way.
  have lengths := congrArg List.length aligned.numbers
  simp only [List.length_map, List.length_append] at lengths
  omega

/-- Without awaited answers nothing is on its way. -/
theorem Aligned.realtime_eq (aligned : connection.Aligned) (idle : connection.requestCBHash = []) :
    connection.realtime = ⟨[], []⟩ := by
  -- Requests and answers together are as many as the calls, which are none.
  have lengths := congrArg List.length aligned.numbers
  simp only [idle, List.map_nil, List.length_nil, List.length_append, List.length_map] at lengths
  rcases same : connection.realtime with ⟨requests, responses⟩
  rw [same] at lengths
  rw [List.length_eq_zero_iff.mp (show requests.length = 0 by simp at lengths; omega),
    List.length_eq_zero_iff.mp (show responses.length = 0 by simp at lengths; omega)]

/-- Sending keeps the order of the calls. -/
theorem Aligned.sendAction (aligned : connection.Aligned) {request : Request} {onMessage : RequestCallback}
    (same : (putOf (connection.requestNumber, onMessage)).map (fun put => put.2.write) =
      writeOf (connection.requestNumber, request)) : (connection.sendAction request onMessage).Aligned where
  numbers := by simp [PersistentConnection.sendAction, aligned.numbers]
  ascending := aligned.ascending.concat aligned.numbered onMessage
  numbered := by
    intro call member
    -- The new call has the number that the connection gives out next.
    rcases List.mem_append.mp member with old | new
    · exact (aligned.numbered call old).trans (Nat.lt_succ_self _)
    · rw [List.mem_singleton.mp new]
      exact Nat.lt_succ_self _
  writes := by
    simp only [PersistentConnection.sendAction, List.drop_append_of_le_length aligned.length_le,
      List.map_append, aligned.writes, List.map_cons, List.map_nil, same]

/-- One connection is left by another one through sending alone. -/
structure Sends (before after : PersistentConnection) (puts : List (ℕ × OutstandingPut)) : Prop where
  aligned : before.Aligned → after.Aligned
  calls : ∃ calls, after.requestCBHash = before.requestCBHash ++ calls ∧ calls.filterMap putOf = puts ∧
    ∀ call ∈ calls, call.2 ≠ .auth true
  connectionState : after.connectionState = before.connectionState
  outstandingPuts : after.outstandingPuts = before.outstandingPuts
  putCounter : after.putCounter = before.putCounter
  putsToAck : after.putsToAck = before.putsToAck
  responses : after.realtime.responses = before.realtime.responses

/-- Sending nothing. -/
theorem Sends.refl (connection : PersistentConnection) : Sends connection connection [] :=
  ⟨id, ⟨[], by simp⟩, rfl, rfl, rfl, rfl, rfl⟩

/-- Sending more after what was sent. -/
theorem Sends.trans {first second : List (ℕ × OutstandingPut)} (earlier : Sends before middle first)
    (later : Sends middle after second) : Sends before after (first ++ second) := by
  obtain ⟨calls, sent, puts, plain⟩ := earlier.calls
  obtain ⟨more, then_sent, then_puts, then_plain⟩ := later.calls
  -- What was sent first stands in front of what was sent later.
  refine ⟨later.aligned ∘ earlier.aligned, ⟨calls ++ more, ?_, ?_, ?_⟩,
    later.connectionState.trans earlier.connectionState, later.outstandingPuts.trans earlier.outstandingPuts,
    later.putCounter.trans earlier.putCounter, later.putsToAck.trans earlier.putsToAck,
    later.responses.trans earlier.responses⟩
  · rw [then_sent, sent, List.append_assoc]
  · rw [List.filterMap_append, puts, then_puts]
  · intro call member
    rcases List.mem_append.mp member with old | new
    · exact plain call old
    · exact then_plain call new

/-- One request is sent that does not carry a write. -/
theorem sends_sendAction (connection : PersistentConnection) {request : Request}
    {onMessage : RequestCallback} (plain : onMessage ≠ .auth true)
    (noPut : ∀ number, putOf (number, onMessage) = none) (noWrite : ∀ number, writeOf (number, request) = none) :
    Sends connection (connection.sendAction request onMessage) [] where
  aligned aligned := aligned.sendAction (by rw [noPut, noWrite]; rfl)
  calls := ⟨_, rfl, by simp [noPut], by simpa using plain⟩
  connectionState := rfl
  outstandingPuts := rfl
  putCounter := rfl
  putsToAck := rfl
  responses := rfl

/-- An outstanding write is sent. -/
theorem sends_sendPut {index : ℕ} {put : OutstandingPut}
    (found : connection.outstandingPuts.lookup index = some put) :
    Sends connection (connection.sendPut index) [(index, put)] := by
  -- A write that is found is sent with its own callback.
  rw [sendPut, found]
  exact ⟨fun aligned => aligned.sendAction rfl, ⟨_, rfl, rfl, by simp⟩, rfl, rfl, rfl, rfl, rfl⟩

/-- A listener is sent. -/
theorem sends_sendListen (connection : PersistentConnection) (listenSpec : OutstandingQuery) :
    Sends connection (connection.sendListen listenSpec) [] := by
  -- Beside sending, only the listener is remembered, which none of the fields depends on.
  have sent : Sends connection (connection.sendAction (.listen listenSpec.path) (.listen listenSpec)) [] :=
    sends_sendAction connection (by simp) (fun _ => rfl) fun _ => rfl
  exact ⟨fun aligned => ⟨(sent.aligned aligned).numbers, (sent.aligned aligned).ascending,
    (sent.aligned aligned).numbered, (sent.aligned aligned).writes⟩, sent.calls, rfl, rfl, rfl, rfl, rfl⟩

/-- Listeners are sent. -/
theorem sends_foldl_sendListen (listens : List OutstandingQuery) (connection : PersistentConnection) :
    Sends connection (listens.foldl sendListen connection) [] := by
  -- One listener after the other.
  induction listens generalizing connection with
  | nil => exact .refl connection
  | cons listenSpec listens ih => exact (sends_sendListen connection listenSpec).trans (ih _)

/-- Outstanding writes are sent in the order of their indices. -/
theorem sends_foldl_sendPut {puts : List (ℕ × OutstandingPut)}
    (found : ∀ entry ∈ puts, connection.outstandingPuts.lookup entry.1 = some entry.2) :
    Sends connection ((puts.map Prod.fst).foldl sendPut connection) puts := by
  induction puts generalizing connection with
  | nil => exact .refl connection
  | cons entry puts ih =>
    -- Sending does not change what is outstanding, so that the later ones are found as well.
    have first := sends_sendPut (found entry List.mem_cons_self)
    refine first.trans (ih fun other member => ?_)
    rw [first.outstandingPuts]
    exact found other (List.mem_cons_of_mem _ member)

/-- Restoring sends every outstanding write once and in order. -/
theorem sends_restoreState (indexed : connection.Indexed) :
    Sends connection connection.restoreState connection.outstandingPuts := by
  have listening := sends_foldl_sendListen connection.listens connection
  -- The indices ascend already, so that sorting them changes nothing.
  have sorted : (connection.outstandingPuts.map Prod.fst).Pairwise (· ≤ ·) :=
    List.pairwise_map.mpr (indexed.ascending.imp fun less => less.le)
  rw [restoreState, listening.outstandingPuts, List.Pairwise.insertionSort_eq sorted]
  refine listening.trans (sends_foldl_sendPut fun entry member => ?_)
  rw [listening.outstandingPuts]
  exact indexed.ascending.lookup_of_mem member

/-- The writes whose answers are on their way. -/
def answeredPuts (connection : PersistentConnection) : List (ℕ × OutstandingPut) :=
  (connection.requestCBHash.take connection.realtime.responses.length).filterMap putOf

/-- The writes that are on their way themselves. -/
def requestedPuts (connection : PersistentConnection) : List (ℕ × OutstandingPut) :=
  (connection.requestCBHash.drop connection.realtime.responses.length).filterMap putOf

/-- Together they are the awaited writes. -/
theorem answeredPuts_append_requestedPuts (connection : PersistentConnection) :
    connection.answeredPuts ++ connection.requestedPuts = connection.requestCBHash.filterMap putOf := by
  -- The answers on their way split the calls in two.
  rw [answeredPuts, requestedPuts, ← List.filterMap_append, List.take_append_drop]

/-- Without awaited writes none is on its way, in either direction. -/
theorem no_puts (none : connection.requestCBHash.filterMap putOf = []) :
    connection.answeredPuts = [] ∧ connection.requestedPuts = [] := by
  -- Both are parts of the awaited writes.
  rw [← answeredPuts_append_requestedPuts] at none
  exact List.append_eq_nil_iff.mp none

/-- Unless the connection is established, no write is on its way. -/
theorem Phase.no_puts (phase : connection.Phase) (notConnected : connection.connectionState ≠ .connected) :
    connection.requestCBHash.filterMap putOf = [] := by
  -- Over an open connection only credentials and listeners are awaited before it is established.
  by_cases authenticating : connection.connectionState = .authenticating
  · obtain ⟨number, later, awaited, plain⟩ := phase.authenticating authenticating
    rw [awaited, List.filterMap_cons_none rfl, List.filterMap_eq_nil_iff]
    exact fun call member => (plain call member).2
  · rw [phase.idle (by simp [isConnected, authenticating, notConnected])]
    rfl

/-- Over an established connection every outstanding write is on its way, and otherwise none is. -/
theorem Phase.puts (phase : connection.Phase) :
    if connection.connectionState = .connected then
      connection.outstandingPuts = connection.answeredPuts ++ connection.requestedPuts
    else connection.answeredPuts = [] ∧ connection.requestedPuts = [] := by
  -- Once established, the awaited writes are the outstanding ones.
  split
  · rename_i established
    rw [answeredPuts_append_requestedPuts, (phase.connected established).2]
  · rename_i notConnected
    exact PersistentConnection.no_puts (phase.no_puts notConnected)

/-- What is sent comes after what is on its way. -/
theorem Sends.puts {puts : List (ℕ × OutstandingPut)} (sends : Sends before after puts)
    (aligned : before.Aligned) :
    after.answeredPuts = before.answeredPuts ∧ after.requestedPuts = before.requestedPuts ++ puts := by
  -- The new calls come last, and the answers on their way belong to the first ones.
  obtain ⟨calls, sent, carried, _⟩ := sends.calls
  rw [answeredPuts, requestedPuts, sends.responses, sent, List.take_append_of_le_length aligned.length_le,
    List.drop_append_of_le_length aligned.length_le, List.filterMap_append, carried]
  exact ⟨rfl, rfl⟩

/-- Sending all outstanding writes that are not awaited establishes the connection. -/
theorem Sends.established {puts : List (ℕ × OutstandingPut)} (sends : Sends before after puts)
    (aligned : before.Aligned) (indexed : before.Indexed) (state : before.connectionState = .connected)
    (plain : ∀ call ∈ before.requestCBHash, call.2 ≠ .auth true)
    (complete : before.requestCBHash.filterMap putOf ++ puts = before.outstandingPuts) : after.Pipeline := by
  obtain ⟨calls, sent, carried, alsoPlain⟩ := sends.calls
  -- The other two phases are excluded by the state of the connection.
  refine ⟨sends.aligned aligned, ⟨fun idle => ?_, fun other => ?_, fun _ => ⟨?_, ?_⟩⟩, ?_⟩
  · simp [isConnected, sends.connectionState, state] at idle
  · simp [sends.connectionState, state] at other
  · rw [sent]
    intro call member
    rcases List.mem_append.mp member with old | new
    · exact plain call old
    · exact alsoPlain call new
  · rw [sent, List.filterMap_append, carried, complete, sends.outstandingPuts]
  · refine ⟨?_, ?_⟩
    · rw [sends.outstandingPuts]
      exact indexed.ascending
    · rw [sends.outstandingPuts, sends.putCounter]
      exact indexed.numbered

/-- A change that neither takes over nor completes a write. -/
structure Quiet (before after : PersistentConnection) : Prop where
  pipeline : after.Pipeline
  outstandingPuts : after.outstandingPuts = before.outstandingPuts
  putsToAck : after.putsToAck = before.putsToAck
  isConnected : after.isConnected = before.isConnected
  answeredPuts : after.answeredPuts = before.answeredPuts
  requestedPuts : after.requestedPuts = before.requestedPuts
  responses : after.realtime.responses ⊆ before.realtime.responses

/-- Sending something without writes is quiet. -/
theorem Sends.quiet (sends : Sends before after []) (pipeline : before.Pipeline)
    (connected : before.isConnected = true) : Quiet before after := by
  obtain ⟨answered, requested⟩ := sends.puts pipeline.aligned
  have same : after.isConnected = before.isConnected := by
    rw [PersistentConnection.isConnected, sends.connectionState]
    rfl
  refine ⟨?_, sends.outstandingPuts, sends.putsToAck, same, answered, by simpa using requested,
    by rw [sends.responses]; exact List.Subset.refl _⟩
  -- An established connection stays established, since nothing with a write is sent.
  by_cases state : before.connectionState = .connected
  · obtain ⟨plain, complete⟩ := pipeline.phase.connected state
    exact sends.established pipeline.aligned pipeline.indexed state plain (by simpa using complete)
  · -- The credential stays the first thing that is awaited.
    have authenticating : before.connectionState = .authenticating := by
      simpa [PersistentConnection.isConnected, state] using connected
    obtain ⟨number, later, awaited, plain⟩ := pipeline.phase.authenticating authenticating
    obtain ⟨calls, sent, carried, alsoPlain⟩ := sends.calls
    refine ⟨sends.aligned pipeline.aligned, ⟨fun idle => ?_, fun _ => ⟨number, later ++ calls, ?_, ?_⟩,
      fun other => ?_⟩, ⟨?_, ?_⟩⟩
    · rw [same, connected] at idle
      cases idle
    · rw [sent, awaited, List.cons_append]
    · intro call member
      rcases List.mem_append.mp member with old | new
      · exact plain call old
      · exact ⟨alsoPlain call new, List.filterMap_eq_nil_iff.mp carried call new⟩
    · rw [sends.connectionState] at other
      exact absurd other state
    · rw [sends.outstandingPuts]
      exact pipeline.indexed.ascending
    · rw [sends.outstandingPuts, sends.putCounter]
      exact pipeline.indexed.numbered

/-- A change of what the calls do not depend on is quiet. -/
theorem Pipeline.quiet (pipeline : before.Pipeline) (state : after.connectionState = before.connectionState ∨
      (before.isConnected = false ∧ after.isConnected = false))
    (awaited : after.requestCBHash = before.requestCBHash) (numbered : after.requestNumber = before.requestNumber)
    (realtime : after.realtime = before.realtime) (puts : after.outstandingPuts = before.outstandingPuts)
    (counted : after.putCounter = before.putCounter) (waiting : after.putsToAck = before.putsToAck) :
    Quiet before after := by
  have same : after.isConnected = before.isConnected := by
    rcases state with same | ⟨idle, still⟩
    · rw [isConnected, same]
      rfl
    · rw [idle, still]
  -- Each property is carried over field by field.
  have aligned : after.Aligned := by
    refine ⟨?_, ?_, ?_, ?_⟩
    · rw [awaited, realtime]
      exact pipeline.aligned.numbers
    · rw [awaited]
      exact pipeline.aligned.ascending
    · rw [awaited, numbered]
      exact pipeline.aligned.numbered
    · rw [awaited, realtime]
      exact pipeline.aligned.writes
  have indexed : after.Indexed := by
    refine ⟨?_, ?_⟩
    · rw [puts]
      exact pipeline.indexed.ascending
    · rw [puts, counted]
      exact pipeline.indexed.numbered
  refine ⟨⟨aligned, ?_, indexed⟩, puts, waiting, same, by rw [answeredPuts, awaited, realtime]; rfl,
    by rw [requestedPuts, awaited, realtime]; rfl, by rw [realtime]; exact List.Subset.refl _⟩
  -- Either the phase is the same, or there is no connection before and after.
  rcases state with unchanged | ⟨idle, still⟩
  · refine ⟨?_, ?_, ?_⟩
    · rw [same, awaited]
      exact pipeline.phase.idle
    · rw [unchanged, awaited]
      exact pipeline.phase.authenticating
    · rw [unchanged, awaited, puts]
      exact pipeline.phase.connected
  · refine ⟨fun _ => awaited.trans (pipeline.phase.idle idle), fun other => ?_, fun other => ?_⟩ <;>
      simp [isConnected, other] at still

/-- Asking for a listener is quiet. -/
theorem Pipeline.listen (pipeline : connection.Pipeline) (path : Path) :
    Quiet connection (connection.listen path) := by
  rw [PersistentConnection.listen]
  have added : Quiet connection
      { connection with
        listens := connection.listens ++ [⟨path, connection.listenCounter⟩]
        listenCounter := connection.listenCounter + 1 } :=
    pipeline.quiet (.inl rfl) rfl rfl rfl rfl rfl rfl
  -- Only an open connection sends the listener at once.
  split
  · rename_i connected
    have sent := (sends_sendListen _ ⟨path, connection.listenCounter⟩).quiet added.pipeline connected
    exact ⟨sent.pipeline, sent.outstandingPuts, sent.putsToAck, sent.isConnected, sent.answeredPuts,
      sent.requestedPuts, sent.responses⟩
  · exact added

/-- Another token is quiet. -/
theorem Pipeline.refreshAuthToken (pipeline : connection.Pipeline) (token : Option String) :
    Quiet connection (connection.refreshAuthToken token) := by
  rw [PersistentConnection.refreshAuthToken]
  have refreshed : Quiet connection { connection with authToken := token } :=
    pipeline.quiet (.inl rfl) rfl rfl rfl rfl rfl rfl
  -- Only an open connection sends the credential at once.
  split
  · rename_i connected
    obtain ⟨credential, rfl⟩ := Option.isSome_iff_exists.mp connected.2
    let authorized : PersistentConnection := { connection with authToken := some credential }
    have sends : Sends authorized (authorized.sendAction (.auth credential) (.auth false)) [] :=
      sends_sendAction authorized (by simp) (fun _ => rfl) fun _ => rfl
    have sent := sends.quiet refreshed.pipeline connected.1
    exact ⟨sent.pipeline, sent.outstandingPuts, sent.putsToAck, sent.isConnected, sent.answeredPuts,
      sent.requestedPuts, sent.responses⟩
  · exact refreshed

/-- A lost connection leaves nothing on its way that is awaited. -/
theorem Indexed.onDisconnect (indexed : connection.Indexed) : connection.onDisconnect.Pipeline where
  aligned := ⟨rfl, List.Pairwise.nil, by simp [PersistentConnection.onDisconnect], rfl⟩
  phase := ⟨fun _ => rfl, fun other => (by cases other), fun other => (by cases other)⟩
  indexed := ⟨indexed.ascending, indexed.numbered⟩

/-- A connection that was opened awaits nothing. -/
theorem pipeline_opened : opened.Pipeline where
  aligned := ⟨rfl, List.Pairwise.nil, by simp [opened], rfl⟩
  phase := ⟨fun _ => rfl, fun other => (by cases other), fun other => (by cases other)⟩
  indexed := ⟨List.Pairwise.nil, by simp [opened]⟩

/-- A write is taken over, and sent exactly over an established connection. -/
theorem Pipeline.putInternal (pipeline : connection.Pipeline) (write : UserWrite) (onComplete : ℤ) :
    ∃ put : ℕ × OutstandingPut, put.2 = ⟨write, onComplete⟩ ∧
      (connection.putInternal write onComplete).Pipeline ∧
      (connection.putInternal write onComplete).connectionState = connection.connectionState ∧
      (connection.putInternal write onComplete).outstandingPuts = connection.outstandingPuts ++ [put] ∧
      (connection.putInternal write onComplete).putsToAck = connection.putsToAck ∧
      (connection.putInternal write onComplete).realtime.responses = connection.realtime.responses ∧
      (connection.putInternal write onComplete).answeredPuts = connection.answeredPuts ∧
      (connection.putInternal write onComplete).requestedPuts =
        if connection.connectionState = .connected then connection.requestedPuts ++ [put]
        else connection.requestedPuts := by
  refine ⟨(connection.putCounter, ⟨write, onComplete⟩), rfl, ?_⟩
  let taken : PersistentConnection :=
    { connection with
      putCounter := connection.putCounter + 1
      outstandingPuts := connection.outstandingPuts ++ [(connection.putCounter, ⟨write, onComplete⟩)] }
  -- The new index is the one that the counter gives out.
  have indexed : taken.Indexed := by
    refine ⟨pipeline.indexed.ascending.concat pipeline.indexed.numbered _, fun entry member => ?_⟩
    rcases List.mem_append.mp member with old | new
    · exact (pipeline.indexed.numbered entry old).trans (Nat.lt_succ_self _)
    · rw [List.mem_singleton.mp new]
      exact Nat.lt_succ_self _
  have aligned : taken.Aligned := ⟨pipeline.aligned.numbers, pipeline.aligned.ascending,
    pipeline.aligned.numbered, pipeline.aligned.writes⟩
  -- Sent after everything else, the write is the last one on its way.
  by_cases state : connection.connectionState = .connected
  · have sent : connection.putInternal write onComplete = taken.sendPut connection.putCounter := by
      simp [PersistentConnection.putInternal, canSendWrites, state, taken]
    have sends : Sends taken (taken.sendPut connection.putCounter)
        [(connection.putCounter, ⟨write, onComplete⟩)] :=
      sends_sendPut (indexed.ascending.lookup_of_mem (by simp [taken]))
    obtain ⟨plain, complete⟩ := pipeline.phase.connected state
    obtain ⟨answered, requested⟩ := sends.puts aligned
    rw [sent, if_pos state]
    refine ⟨sends.established aligned indexed state plain (congrArg (· ++ _) complete), sends.connectionState,
      sends.outstandingPuts, sends.putsToAck, sends.responses, answered, requested⟩
  · have kept : connection.putInternal write onComplete = taken := by
      simp [PersistentConnection.putInternal, canSendWrites, state, taken]
    rw [kept, if_neg state]
    exact ⟨⟨aligned, ⟨pipeline.phase.idle, pipeline.phase.authenticating, fun other => absurd other state⟩,
      indexed⟩, rfl, rfl, rfl, rfl, rfl, rfl⟩

/-- A new connection sends everything outstanding at once, or the credential first. -/
theorem Pipeline.restoreAuth (pipeline : connection.Pipeline) (state : connection.connectionState = .connecting) :
    connection.restoreAuth.Pipeline ∧ connection.restoreAuth.isConnected = true ∧
      connection.restoreAuth.outstandingPuts = connection.outstandingPuts ∧
      connection.restoreAuth.putsToAck = connection.putsToAck ∧
      connection.restoreAuth.realtime.responses = [] ∧ connection.restoreAuth.answeredPuts = [] ∧
      (connection.restoreAuth.requestedPuts = [] ∨
        connection.restoreAuth.requestedPuts = connection.outstandingPuts) := by
  -- Nothing is awaited before.
  have nothing : connection.requestCBHash = [] := pipeline.phase.idle (by simp [isConnected, state])
  have realtime := pipeline.aligned.realtime_eq nothing
  have noAnswers : ∀ after : PersistentConnection, after.realtime.responses = connection.realtime.responses →
      after.answeredPuts = [] := by
    intro after same
    rw [answeredPuts, same, realtime]
    rfl
  cases token : connection.authToken with
  | none =>
    -- Without a token the connection is established, and everything outstanding is sent.
    let established : PersistentConnection := { connection with connectionState := .connected }
    have restored : connection.restoreAuth = established.restoreState := by
      simp only [PersistentConnection.restoreAuth, token, established]
    have aligned : established.Aligned := ⟨pipeline.aligned.numbers, pipeline.aligned.ascending,
      pipeline.aligned.numbered, pipeline.aligned.writes⟩
    have indexed : established.Indexed := ⟨pipeline.indexed.ascending, pipeline.indexed.numbered⟩
    have sends := sends_restoreState indexed
    obtain ⟨answered, requested⟩ := sends.puts aligned
    have none : established.requestedPuts = [] := by
      show (connection.requestCBHash.drop _).filterMap putOf = []
      rw [nothing, List.drop_nil]
      rfl
    have awaited : established.requestCBHash = [] := nothing
    rw [restored]
    refine ⟨sends.established aligned indexed rfl ?_ ?_, ?_, sends.outstandingPuts, sends.putsToAck, ?_,
      noAnswers _ sends.responses, .inr ?_⟩
    · simp [awaited]
    · rw [awaited]
      rfl
    · simp [isConnected, sends.connectionState, established]
    · rw [sends.responses]
      exact congrArg Realtime.responses realtime
    · rw [requested, none]
      rfl
  | some credential =>
    -- With a token nothing but the credential is sent until it is answered.
    let authenticating : PersistentConnection := { connection with connectionState := .authenticating }
    have sent : connection.restoreAuth = authenticating.sendAction (.auth credential) (.auth true) := by
      simp only [PersistentConnection.restoreAuth, PersistentConnection.sendAuth, token, authenticating]
    have aligned : authenticating.Aligned := ⟨pipeline.aligned.numbers, pipeline.aligned.ascending,
      pipeline.aligned.numbered, pipeline.aligned.writes⟩
    have awaited : connection.restoreAuth.requestCBHash = [(connection.requestNumber, .auth true)] := by
      rw [sent]
      simp [sendAction, authenticating, nothing]
    have phase : connection.restoreAuth.connectionState = .authenticating := by
      rw [sent]
      rfl
    refine ⟨⟨?_, ⟨fun idle => ?_, fun _ => ⟨connection.requestNumber, [], awaited, by simp⟩,
      fun other => ?_⟩,
      ?_⟩, by simp [isConnected, phase], by rw [sent]; rfl, by rw [sent]; rfl, ?_, ?_, .inl ?_⟩
    · rw [sent]
      exact aligned.sendAction rfl
    · simp [isConnected, phase] at idle
    · simp [phase] at other
    · rw [sent]
      exact ⟨pipeline.indexed.ascending, pipeline.indexed.numbered⟩
    · rw [sent]
      exact congrArg Realtime.responses realtime
    · refine noAnswers _ ?_
      rw [sent]
      rfl
    · rw [requestedPuts, awaited, sent]
      simp [sendAction, authenticating, realtime, putOf]

end PersistentConnection

end CardGuru
