import CardGuru.Firebase.Answers
import CardGuru.Lib.Resend
import CardGuru.Proofs.SavedWrites

/-! The client and the service deliver writes by repeating whatever was not answered. -/

namespace CardGuru

namespace Exchange

open PersistentConnection (Leaves Quiet)
open Relation (ReflTransGen)
open Repo (operation)

/-- The service handles the write of an operation. -/
def perform (service : Service) (database : Database) (operation : ℤ × UserWrite) : Database :=
  service.handle database operation.2

/-- The delivery of numbered writes to the database. -/
abbrev Delivery := Resend (ℤ × UserWrite) Database

/-- Performing operations is handling their writes. -/
theorem performAll_perform (service : Service) (operations : List (ℤ × UserWrite)) (database : Database) :
    performAll (perform service) operations database =
      performAll service.handle (operations.map Prod.snd) database := by
  -- An operation is a write under a number that the service does not see.
  rw [performAll, performAll, List.foldl_map]
  rfl

/-- Operations may be performed again whenever their writes may be handled again. -/
theorem replayable_perform {service : Service} (replay : Replayable service.handle) :
    Replayable (perform service) := by
  intro earlier later database repeated
  rw [performAll_perform, performAll_perform, performAll_perform]
  -- The writes of repeated operations are repeated writes.
  refine replay _ _ _ fun write member => ?_
  obtain ⟨operation, inside, rfl⟩ := List.mem_map.mp member
  exact List.mem_map_of_mem (repeated operation inside)

/-- The writes of a connection are those of a delivery. -/
structure Matches (connection : PersistentConnection) (delivery : Delivery) : Prop where
  pipeline : connection.Pipeline
  outstanding : connection.outstandingPuts.map operation = delivery.outstanding
  waiting : connection.putsToAck.map Prod.fst = delivery.waiting.map Prod.fst
  requested : connection.requestedPuts.map operation = delivery.requested
  answered : connection.answeredPuts.map operation = delivery.answered
  -- The service gives up no write.
  answers : ∀ response ∈ connection.realtime.responses, response.2 ≠ .writeCanceled
  completions : ∀ completion ∈ connection.putsToAck, completion.2 ≠ .writeCanceled

/-- A client and the service are at some point of a delivery, and everything not completed is on disk. -/
structure Refines (exchange : Exchange) (delivery : Delivery) : Prop where
  saved : exchange.repo.Saved
  positive : ∀ entry ∈ exchange.repo.writesDB, 0 ≤ entry.1
  onDisk : exchange.repo.writesDB = delivery.waiting ++ delivery.outstanding
  connection : Matches exchange.repo.connection delivery
  stale : exchange.stale = delivery.stale.map Prod.snd
  content : exchange.database = delivery.content
  -- The service has closed older connections when a newer one is open.
  alone : exchange.repo.connection.isConnected = true → exchange.stale = []

/-- An answer to a write does not arrive while completions are held back for no listener. -/
def InOrder (exchange : Exchange) (event : ExchangeEvent) : Prop :=
  event = .receive → exchange.repo.connection.answersPut = true →
    exchange.repo.connection.unackedListensCount = 0 → exchange.repo.connection.putsToAck = []

/-- What an event makes of a delivery. -/
inductive Moves (service : Service) (exchange : Exchange) :
    ExchangeEvent → Delivery → Delivery → Prop where
  /-- Operations are completed in order. -/
  | steps {event : ExchangeEvent} {delivery after : Delivery}
      (taken : ReflTransGen (Resend.Step (perform service)) delivery after) :
      Moves service exchange event delivery after
  /-- An operation is completed while earlier ones are held back. -/
  | overtakes {delivery : Delivery} (linked : delivery.Linked) (arrives : delivery.answered ≠ [])
      (early : ¬ InOrder exchange .receive) : Moves service exchange .receive delivery delivery.completed
  /-- The client is started again. -/
  | restarts {delivery : Delivery} : Moves service exchange .relaunch delivery delivery.restarted

/-- The writes that an event adds; an update without fields adds none. -/
def written : ExchangeEvent → List UserWrite
  | .set write => if write.val.overwrites = [] then [] else [write]
  | _ => []

/-- An event was a move of the delivery. -/
structure Follows (service : Service) (exchange : Exchange) (event : ExchangeEvent)
    (delivery : Delivery) (after : Exchange) (moved : Delivery) : Prop where
  refines : Refines after moved
  moves : Moves service exchange event delivery moved
  issued : moved.issued.map Prod.snd = delivery.issued.map Prod.snd ++ written event
  layered : ∀ {comparator : StringComparator}, InOrder exchange event →
    (∀ write ∈ written event, write.val.Clear comparator) → exchange.repo.Layered comparator →
      after.repo.Layered comparator

variable {service : Service} {exchange after : Exchange} {event : ExchangeEvent}
  {delivery : Delivery} {connection : PersistentConnection}

instance : Decidable (InOrder exchange event) := inferInstanceAs (Decidable (_ → _ → _ → _))

/-- The writes on their way are those of the calls that wait for them. -/
theorem puts_requests (aligned : connection.Aligned) :
    puts connection.realtime.requests = (connection.requestedPuts.map operation).map Prod.snd := by
  -- Each awaited call carries the write of its request.
  have carried := congrArg (List.filterMap id) aligned.writes
  rw [List.filterMap_map, List.filterMap_map] at carried
  rw [PersistentConnection.requestedPuts, List.map_map, List.map_filterMap]
  exact carried.symm

/-- Over an open connection everything outstanding was sent, and otherwise nothing. -/
theorem Matches.phase (same : Matches connection delivery) :
    if connection.connectionState = .connected then
      delivery.outstanding = delivery.answered ++ delivery.requested
    else delivery.Idle := by
  -- The pipeline states this about calls; it carries over to operations.
  have puts := same.pipeline.phase.puts
  split
  · rename_i established
    rw [if_pos established] at puts
    rw [← same.outstanding, puts, List.map_append, same.answered, same.requested]
  · rename_i other
    rw [if_neg other] at puts
    exact ⟨by rw [← same.requested, puts.2]; rfl, by rw [← same.answered, puts.1]; rfl⟩

/-- Over an established connection the two ends are linked. -/
theorem Refines.linked (refines : exchange.Refines delivery)
    (established : exchange.repo.connection.connectionState = .connected) : delivery.Linked := by
  have phase := refines.connection.phase
  rw [if_pos established] at phase
  refine ⟨phase, ?_⟩
  -- An open connection leaves nothing behind on an older one.
  have alone := refines.alone (by simp [PersistentConnection.isConnected, established])
  rw [refines.stale] at alone
  exact List.map_eq_nil_iff.mp alone

/-- Without an established connection no write is on its way. -/
theorem Refines.idle (refines : exchange.Refines delivery)
    (other : exchange.repo.connection.connectionState ≠ .connected) : delivery.Idle := by
  -- This is the other case of the phase.
  have phase := refines.connection.phase
  rwa [if_neg other] at phase

/-- A connection that is not open has nothing on its way. -/
theorem Refines.puts_eq_nil (refines : exchange.Refines delivery)
    (closed : exchange.repo.connection.isConnected = false) :
    puts exchange.repo.connection.realtime.requests = [] := by
  have pipeline := refines.connection.pipeline
  -- Nothing is awaited on a closed connection.
  rw [pipeline.aligned.realtime_eq (pipeline.phase.idle closed)]
  rfl

/-- What a change leaves of the writes of a connection is what a move leaves of the delivery. -/
theorem Matches.leaves {outstanding answered requested : List (ℕ × OutstandingPut)}
    {waiting : List (ℤ × Status)} {connected : Bool} {changed : PersistentConnection} {moved : Delivery}
    (same : Matches connection delivery)
    (leaves : Leaves connection changed outstanding answered requested waiting connected)
    (toDo : outstanding.map operation = moved.outstanding) (done : answered.map operation = moved.answered)
    (sent : requested.map operation = moved.requested)
    (held : waiting.map Prod.fst = moved.waiting.map Prod.fst)
    (completions : ∀ completion ∈ waiting, completion.2 ≠ .writeCanceled) : Matches changed moved where
  -- The two sides change alike, list by list.
  pipeline := leaves.pipeline
  outstanding := by rw [leaves.outstandingPuts, toDo]
  waiting := by rw [leaves.putsToAck, held]
  requested := by rw [leaves.requestedPuts, sent]
  answered := by rw [leaves.answeredPuts, done]
  answers := fun response member => same.answers response (leaves.responses member)
  completions := by
    rw [leaves.putsToAck]
    exact completions

/-- The disk does not depend on the connection. -/
theorem saved_connection {repo : Repo} (saved : repo.Saved) (connection : PersistentConnection) :
    { repo with connection := connection }.Saved :=
  ⟨saved.ascending, saved.numbered, saved.something, saved.records, saved.last, saved.positive⟩

/-- Nothing is left behind unless an open connection is lost. -/
theorem Refines.stale_change (refines : exchange.Refines delivery)
    (kept : exchange.repo.connection.isConnected = connection.isConnected ∨ connection.isConnected = true) :
    (exchange.change connection).stale = exchange.stale := by
  rw [change]
  split
  · rfl
  · -- The connection was closed before, so nothing was on its way.
    rename_i closed
    have before := (kept.resolve_right closed).trans (Bool.eq_false_iff.mpr closed)
    rw [refines.puts_eq_nil before, List.append_nil]

/-- A quiet change of the connection is no move. -/
theorem Refines.quiet (refines : exchange.Refines delivery)
    (quiet : Quiet exchange.repo.connection connection) : (exchange.change connection).Refines delivery := by
  have same := refines.stale_change (.inl quiet.isConnected.symm)
  -- What the connection remembers of writes is as before.
  have leaves : Leaves exchange.repo.connection connection exchange.repo.connection.outstandingPuts
      exchange.repo.connection.answeredPuts exchange.repo.connection.requestedPuts
      exchange.repo.connection.putsToAck exchange.repo.connection.isConnected :=
    ⟨quiet.pipeline, quiet.outstandingPuts, quiet.answeredPuts, quiet.requestedPuts, quiet.putsToAck,
      quiet.isConnected, quiet.responses⟩
  refine ⟨saved_connection refines.saved connection, refines.positive, refines.onDisk,
    refines.connection.leaves leaves refines.connection.outstanding refines.connection.answered
      refines.connection.requested refines.connection.waiting refines.connection.completions,
    same.trans refines.stale, refines.content, fun connected => ?_⟩
  rw [same]
  exact refines.alone (quiet.isConnected.symm.trans connected)

/-- What the delivery is after the connection is lost. -/
def lost (delivery : Delivery) : Delivery :=
  { delivery with
    requested := []
    answered := []
    -- Their answers will not arrive, and the service may still handle them.
    stale := delivery.stale ++ delivery.requested }

/-- A lost connection leaves what was on its way to the service. -/
theorem Refines.lost (refines : exchange.Refines delivery)
    (leaves : Leaves exchange.repo.connection connection exchange.repo.connection.outstandingPuts [] []
      exchange.repo.connection.putsToAck false) :
    (exchange.change connection).Refines (Exchange.lost delivery) := by
  have closed : connection.isConnected = false := leaves.isConnected
  refine ⟨saved_connection refines.saved connection, refines.positive, refines.onDisk,
    refines.connection.leaves leaves refines.connection.outstanding rfl rfl refines.connection.waiting
      refines.connection.completions, ?_, refines.content, fun connected => ?_⟩
  · -- What was requested joins what is left behind.
    rw [change, closed, puts_requests refines.connection.pipeline.aligned, refines.connection.requested,
      refines.stale, Exchange.lost, List.map_append]
    rfl
  · -- The connection is closed now.
    rw [show (exchange.change connection).repo.connection = connection from rfl, closed] at connected
    cases connected

/-- An event that does not concern the writes. -/
theorem Refines.unmoved (refines : after.Refines delivery) (nothing : written event = [])
    (records : after.repo.pendingWriteTree = exchange.repo.pendingWriteTree)
    (onDisk : after.repo.writesDB = exchange.repo.writesDB) :
    Follows service exchange event delivery after delivery :=
  -- The delivery takes no step.
  ⟨refines, .steps .refl, by rw [nothing, List.append_nil], fun _ _ layered => layered.congr records onDisk⟩

/-- The connection is lost at an event. -/
theorem Refines.follows_lost (refines : exchange.Refines delivery)
    (leaves : Leaves exchange.repo.connection connection exchange.repo.connection.outstandingPuts [] []
      exchange.repo.connection.putsToAck false) (nothing : written event = []) :
    Follows service exchange event delivery (exchange.change connection) (Exchange.lost delivery) :=
  -- The delivery loses its connection in one step.
  ⟨refines.lost leaves, .steps (.single .lose), by rw [nothing, List.append_nil]; rfl,
    fun _ _ layered => layered.congr rfl rfl⟩

/-- A write is issued, and sent if the connection is established. -/
theorem Refines.set (refines : exchange.Refines delivery) (write : UserWrite) :
    ∃ after moved, exchange.step service (.set write) = .ok after ∧
      Follows service exchange (.set write) delivery after moved := by
  rcases refines.saved.set write with ⟨nothing, done⟩ | ⟨something, repo, done, saved, onDisk, same, layered⟩
  · exact ⟨exchange, delivery, by rw [step, done]; rfl, refines.unmoved (by simp [written, nothing]) rfl rfl⟩
  · obtain ⟨put, carries, pipeline, state, outstanding, waiting, responses, answered, requested⟩ :=
      refines.connection.pipeline.putInternal write exchange.repo.writeIdCounter
    have operates : operation put = (exchange.repo.writeIdCounter, write) := by rw [operation, carries]
    have connected : repo.connection.isConnected = exchange.repo.connection.isConnected := by
      rw [same, PersistentConnection.isConnected, state]
      rfl
    have positive : ∀ entry ∈ repo.writesDB, 0 ≤ entry.1 := by
      intro entry member
      rw [onDisk] at member
      rcases List.mem_append.mp member with old | new
      · exact refines.positive entry old
      · rw [List.mem_singleton.mp new]
        exact refines.saved.positive
    -- Both ways of issuing agree but for what is sent.
    have taking : ∀ moved : Delivery,
        moved.outstanding = delivery.outstanding ++ [(exchange.repo.writeIdCounter, write)] →
        moved.waiting = delivery.waiting → moved.answered = delivery.answered →
        moved.stale = delivery.stale → moved.content = delivery.content →
        (exchange.repo.connection.putInternal write exchange.repo.writeIdCounter).requestedPuts.map operation =
          moved.requested →
        Refines { exchange with repo := repo } moved := by
      intro moved toDo held answers old content sent
      refine ⟨saved, positive, ?_, ?_, ?_, ?_, fun open' => refines.alone (connected ▸ open')⟩
      · rw [onDisk, refines.onDisk, toDo, held, List.append_assoc]
      · rw [show ({ exchange with repo := repo } : Exchange).repo.connection = repo.connection from rfl, same]
        refine ⟨pipeline, ?_, ?_, sent, ?_, ?_, ?_⟩
        · rw [outstanding, List.map_append, refines.connection.outstanding, toDo, List.map_singleton, operates]
        · rw [waiting, refines.connection.waiting, held]
        · rw [answered, refines.connection.answered, answers]
        · rw [responses]
          exact refines.connection.answers
        · rw [waiting]
          exact refines.connection.completions
      · rw [old]
        exact refines.stale
      · rw [content]
        exact refines.content
    have added : written (.set write) = [write] := if_neg something
    let issues : Delivery :=
      { delivery with
        issued := delivery.issued ++ [(exchange.repo.writeIdCounter, write)]
        outstanding := delivery.outstanding ++ [(exchange.repo.writeIdCounter, write)] }
    have numbered : issues.issued.map Prod.snd = delivery.issued.map Prod.snd ++ written (.set write) := by
      rw [show written (.set write) = [write] from if_neg something]
      simp [issues]
    by_cases established : exchange.repo.connection.connectionState = .connected
    · rw [if_pos established] at requested
      let sends : Delivery :=
        { issues with requested := delivery.requested ++ [(exchange.repo.writeIdCounter, write)] }
      have taken : Resend.Step (perform service) delivery sends := .send _ (refines.linked established)
      refine ⟨{ exchange with repo := repo }, sends, by rw [step, done]; rfl,
        taking sends rfl rfl rfl rfl rfl ?_, .steps (.single taken), numbered,
        fun _ clear seen => layered (clear write (by simp [added])) seen⟩
      rw [requested, List.map_append, refines.connection.requested, List.map_singleton, operates]
    · rw [if_neg established] at requested
      have taken : Resend.Step (perform service) delivery issues := .issue _ (refines.idle established)
      refine ⟨{ exchange with repo := repo }, issues, by rw [step, done]; rfl,
        taking issues rfl rfl rfl rfl rfl ?_, .steps (.single taken), numbered,
        fun _ clear seen => layered (clear write (by simp [added])) seen⟩
      rw [requested, refines.connection.requested]

/-- A new connection ends the older ones, and sends everything outstanding at once or later. -/
theorem Refines.ready (refines : exchange.Refines delivery)
    (state : exchange.repo.connection.connectionState = .connecting) :
    ∃ moved, Follows service exchange .ready delivery
      { exchange.change exchange.repo.connection.restoreAuth with stale := [] } moved := by
  obtain ⟨pipeline, connected, outstanding, waiting, responses, answered, requested⟩ :=
    refines.connection.pipeline.restoreAuth state
  have idle : delivery.Idle := refines.idle (by simp [state])
  -- The service has finished with the older connections.
  let alone : Delivery := { delivery with stale := [] }
  have connects : Resend.Step (perform service) delivery alone := .connect idle
  have leaves : Leaves exchange.repo.connection exchange.repo.connection.restoreAuth
      exchange.repo.connection.outstandingPuts [] exchange.repo.connection.restoreAuth.requestedPuts
      exchange.repo.connection.putsToAck true :=
    ⟨pipeline, outstanding, answered, rfl, waiting, connected, by rw [responses]; exact List.nil_subset _⟩
  -- Both cases below differ in what is requested only.
  have opened : ∀ moved : Delivery, moved.outstanding = delivery.outstanding →
      moved.waiting = delivery.waiting → moved.answered = [] → moved.stale = [] →
      moved.content = delivery.content →
      exchange.repo.connection.restoreAuth.requestedPuts.map operation = moved.requested →
      Refines { exchange.change exchange.repo.connection.restoreAuth with stale := [] } moved := by
    intro moved toDo held answers old content sent
    refine ⟨saved_connection refines.saved _, refines.positive, ?_, refines.connection.leaves leaves ?_ ?_ sent
      ?_ refines.connection.completions, ?_, ?_, fun _ => rfl⟩
    · rw [held, toDo]
      exact refines.onDisk
    · rw [toDo, refines.connection.outstanding]
    · rw [answers]
      rfl
    · rw [held, refines.connection.waiting]
    · rw [old]
      rfl
    · rw [content]
      exact refines.content
  have issued : delivery.issued.map Prod.snd = delivery.issued.map Prod.snd ++ written .ready :=
    (List.append_nil _).symm
  -- With a credential the writes wait until it is accepted.
  rcases requested with none | all
  · refine ⟨alone, opened alone rfl rfl idle.2 rfl rfl ?_, .steps (.single connects), issued,
      fun _ _ layered => layered.congr rfl rfl⟩
    rw [none]
    exact idle.1.symm
  · -- Without a credential everything outstanding is sent at once.
    let restores : Delivery := { alone with requested := alone.outstanding }
    have restored : Resend.Step (perform service) alone restores := .restore idle rfl
    refine ⟨restores, opened restores rfl rfl idle.2 rfl rfl ?_, .steps (.tail (.single connects) restored),
      issued, fun _ _ layered => layered.congr rfl rfl⟩
    rw [all]
    exact refines.connection.outstanding

/-- The next request was handled: its answer is on its way. -/
private theorem aligned_served (aligned : connection.Aligned) {requestNumber : ℕ} {request : Request}
    {rest : List (ℕ × Request)} (status : Status)
    (first : connection.realtime.requests = (requestNumber, request) :: rest) :
    ∃ call, call ∈ connection.requestCBHash ∧
      (PersistentConnection.putOf call).map (fun put => put.2.write) =
        PersistentConnection.writeOf (requestNumber, request) ∧
      let served : PersistentConnection :=
        { connection with
          realtime := ⟨rest, connection.realtime.responses ++ [(requestNumber, status)]⟩ }
      served.Aligned ∧
        served.answeredPuts = connection.answeredPuts ++ (PersistentConnection.putOf call).toList ∧
        connection.requestedPuts = (PersistentConnection.putOf call).toList ++ served.requestedPuts := by
  -- It answers the first call that has no answer on its way.
  have numbers := aligned.numbers
  have writes := aligned.writes
  rw [first] at numbers writes
  cases awaited : connection.requestCBHash.drop connection.realtime.responses.length with
  | nil => simp [awaited] at writes
  | cons call later =>
    have whole : connection.requestCBHash =
        connection.requestCBHash.take connection.realtime.responses.length ++ call :: later := by
      rw [← awaited, List.take_append_drop]
    have length : (connection.requestCBHash.take connection.realtime.responses.length).length =
        connection.realtime.responses.length := by
      rw [List.length_take, Nat.min_eq_left aligned.length_le]
    have taken : connection.requestCBHash.take (connection.realtime.responses.length + 1) =
        connection.requestCBHash.take connection.realtime.responses.length ++ [call] := by
      rw [List.take_add, awaited]
      rfl
    have dropped : connection.requestCBHash.drop (connection.realtime.responses.length + 1) = later := by
      rw [← List.drop_drop, awaited]
      rfl
    rw [awaited, List.map_cons, List.map_cons, List.cons.injEq] at writes
    refine ⟨call, by rw [whole]; simp, writes.1, ⟨?_, aligned.ascending, aligned.numbered, ?_⟩, ?_, ?_⟩
    · simpa using numbers
    · simp only [List.length_append, List.length_singleton, dropped]
      exact writes.2
    · rw [PersistentConnection.answeredPuts, PersistentConnection.answeredPuts]
      simp only [List.length_append, List.length_singleton, taken, List.filterMap_append]
      cases carried : PersistentConnection.putOf call <;> simp [carried]
    · rw [PersistentConnection.requestedPuts, PersistentConnection.requestedPuts]
      simp only [List.length_append, List.length_singleton, dropped, awaited]
      cases carried : PersistentConnection.putOf call <;> simp [carried]

/-- The service handles the next request. -/
theorem Refines.serve (refines : exchange.Refines delivery) (grants : Bool) :
    exchange.step service (.serve grants) = .error .unavailable ∨
      ∃ after moved, exchange.step service (.serve grants) = .ok after ∧
        Follows service exchange (.serve grants) delivery after moved := by
  have pipeline := refines.connection.pipeline
  cases first : exchange.repo.connection.realtime.requests with
  | nil =>
    refine .inl ?_
    rw [step, Exchange.serve]
    simp only [first]
  | cons next rest =>
    obtain ⟨requestNumber, request⟩ := next
    refine .inr ?_
    let status := answer service exchange.database grants request
    obtain ⟨call, listed, carries, aligned, answers, requests⟩ := aligned_served pipeline.aligned status first
    let served : PersistentConnection :=
      { exchange.repo.connection with
        realtime := ⟨rest, exchange.repo.connection.realtime.responses ++ [(requestNumber, status)]⟩ }
    have servedPipeline : served.Pipeline := ⟨aligned,
      ⟨pipeline.phase.idle, pipeline.phase.authenticating, pipeline.phase.connected⟩,
      ⟨pipeline.indexed.ascending, pipeline.indexed.numbered⟩⟩
    have given : ∀ response ∈ served.realtime.responses, response.2 ≠ .writeCanceled := by
      intro response member
      rcases List.mem_append.mp member with old | new
      · exact refines.connection.answers response old
      · rw [List.mem_singleton.mp new]
        show answer service exchange.database grants request ≠ .writeCanceled
        cases request with
        | put write => cases refused : service.refusal exchange.database write <;> simp [answer, refused]
        | auth credential => cases grants <;> simp [answer]
        | listen path => cases grants <;> simp [answer]
    let handled : Exchange :=
      { exchange with
        repo := { exchange.repo with connection := served }
        database := handleRequest service exchange.database request }
    have done : exchange.step service (.serve grants) = .ok handled := by
      rw [step, Exchange.serve]
      simp only [first]
      rfl
    refine ⟨handled, ?_⟩
    cases put : PersistentConnection.putOf call with
    | none =>
      -- The request does not carry a write.
      rw [put] at answers requests carries
      refine ⟨delivery, done, Refines.unmoved ⟨saved_connection refines.saved served, refines.positive,
        refines.onDisk, ⟨servedPipeline, refines.connection.outstanding, refines.connection.waiting, ?_, ?_,
        given, refines.connection.completions⟩, refines.stale, ?_, refines.alone⟩ rfl rfl rfl⟩
      · rw [← refines.connection.requested, requests]
        rfl
      · rw [← refines.connection.answered]
        exact congrArg (List.map operation) (answers.trans (List.append_nil _))
      · cases request with
        | put write => simp [PersistentConnection.writeOf] at carries
        | auth credential => exact refines.content
        | listen path => exact refines.content
    | some put' =>
      rw [put] at answers requests carries
      cases request with
      | auth credential => simp [PersistentConnection.writeOf] at carries
      | listen path => simp [PersistentConnection.writeOf] at carries
      | put write =>
        obtain rfl : put'.2.write = write := by simpa [PersistentConnection.writeOf] using carries
        have sent : delivery.requested = operation put' :: served.requestedPuts.map operation := by
          rw [← refines.connection.requested, requests]
          rfl
        let moved : Delivery :=
          { delivery with
            requested := served.requestedPuts.map operation
            answered := delivery.answered ++ [operation put']
            content := perform service delivery.content (operation put') }
        have taken : Resend.Step (perform service) delivery moved := .perform sent
        refine ⟨moved, done, ⟨saved_connection refines.saved served, refines.positive, refines.onDisk,
          ⟨servedPipeline, refines.connection.outstanding, refines.connection.waiting, rfl, ?_, given,
          refines.connection.completions⟩, refines.stale, ?_, refines.alone⟩, .steps (.single taken),
          (List.append_nil _).symm, fun _ _ layered => layered.congr rfl rfl⟩
        · show served.answeredPuts.map operation = delivery.answered ++ [operation put']
          rw [← refines.connection.answered]
          simpa using congrArg (List.map operation) answers
        · show service.handle exchange.database put'.2.write = _
          rw [refines.content]
          rfl

/-- The service handles a request from a closed connection. -/
theorem Refines.serveStale (refines : exchange.Refines delivery) :
    exchange.step service .serveStale = .error .unavailable ∨
      ∃ after moved, exchange.step service .serveStale = .ok after ∧
        Follows service exchange .serveStale delivery after moved := by
  cases first : exchange.stale with
  | nil =>
    refine .inl ?_
    rw [step]
    simp only [first]
  | cons write rest =>
    refine .inr ?_
    have stale := refines.stale
    rw [first] at stale
    cases late : delivery.stale with
    | nil => simp [late] at stale
    | cons operation operations =>
      rw [late, List.map_cons, List.cons.injEq] at stale
      obtain ⟨rfl, later⟩ := stale
      -- The service performs the oldest write left behind, and nobody hears of it.
      let performs : Delivery :=
        { delivery with
          stale := operations
          content := perform service delivery.content operation }
      have taken : Resend.Step (perform service) delivery performs := .performStale late
      have same := refines.connection
      refine ⟨{ exchange with database := service.handle exchange.database operation.2, stale := rest },
        performs, by rw [step]; simp only [first], ⟨refines.saved, refines.positive, refines.onDisk,
        ⟨same.pipeline, same.outstanding, same.waiting, same.requested, same.answered, same.answers,
          same.completions⟩, later, ?_, fun connected => ?_⟩, .steps (.single taken), (List.append_nil _).symm,
        fun _ _ layered => layered⟩
      · show service.handle exchange.database operation.2 = _
        rw [refines.content]
        rfl
      · -- An open connection leaves nothing behind, so this one is closed.
        have alone := refines.alone connected
        rw [first] at alone
        cases alone

end Exchange

end CardGuru
