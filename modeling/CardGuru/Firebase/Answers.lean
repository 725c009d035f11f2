import CardGuru.Firebase.Pipeline

/-! What the arrival of an answer does to the writes of a connection. -/

namespace CardGuru

namespace PersistentConnection

/-- The next answer is one to a write. -/
def answersPut (connection : PersistentConnection) : Bool :=
  match connection.realtime.responses with
  | [] => false
  | response :: _ =>
    match connection.requestCBHash.lookup response.1 with
    | some (.put _ _) => true
    | _ => false

/-- What a change of the connection leaves of its writes. -/
structure Leaves (before after : PersistentConnection)
    (outstanding answered requested : List (ℕ × OutstandingPut)) (waiting : List (ℤ × Status))
    (connected : Bool) : Prop where
  pipeline : after.Pipeline
  outstandingPuts : after.outstandingPuts = outstanding
  answeredPuts : after.answeredPuts = answered
  requestedPuts : after.requestedPuts = requested
  putsToAck : after.putsToAck = waiting
  isConnected : after.isConnected = connected
  responses : after.realtime.responses ⊆ before.realtime.responses

/-- The possible effects of an answer, each with the writes that it completes. -/
inductive Received (before : PersistentConnection) (status : Status) :
    PersistentConnection → List (ℤ × Status) → Prop where
  /-- No write is concerned. -/
  | quiet {after : PersistentConnection} (leaves : Leaves before after before.outstandingPuts
      before.answeredPuts before.requestedPuts before.putsToAck before.isConnected) :
      Received before status after []
  /-- The last listener was answered, and nothing is held back any more. -/
  | released {after : PersistentConnection} (leaves : Leaves before after before.outstandingPuts
      before.answeredPuts before.requestedPuts [] before.isConnected) :
      Received before status after before.putsToAck
  /-- The credential was accepted, and everything outstanding is sent. -/
  | restored {after : PersistentConnection} (idle : before.answeredPuts = [] ∧ before.requestedPuts = [])
      (connected : before.isConnected = true) (leaves : Leaves before after before.outstandingPuts
      [] before.outstandingPuts before.putsToAck true) : Received before status after []
  /-- The credential was refused, and the connection is closed. -/
  | lost {after : PersistentConnection} (leaves : Leaves before after before.outstandingPuts [] []
      before.putsToAck false) : Received before status after []
  /-- A write was answered and is completed. -/
  | completed {after : PersistentConnection} {put : ℕ × OutstandingPut} {rest : List (ℕ × OutstandingPut)}
      (state : before.connectionState = .connected) (first : before.answeredPuts = put :: rest)
      (unawaited : before.unackedListensCount = 0) (answers : before.answersPut = true) (leaves : Leaves before after
      before.outstandingPuts.tail rest before.requestedPuts before.putsToAck true) :
      Received before status after [(put.2.onCompleteBlock, status)]
  /-- A write was answered, and its completion is held back. -/
  | held {after : PersistentConnection} {put : ℕ × OutstandingPut} {rest : List (ℕ × OutstandingPut)}
      (state : before.connectionState = .connected) (first : before.answeredPuts = put :: rest)
      (awaited : before.unackedListensCount ≠ 0) (leaves : Leaves before after
      before.outstandingPuts.tail rest before.requestedPuts
      (before.putsToAck ++ [(put.2.onCompleteBlock, status)]) true) : Received before status after []

variable {connection called : PersistentConnection} {response : ℕ × Status} {rest : List (ℕ × Status)}

/-- The connection when the callback of an answer is called. -/
structure Called (connection : PersistentConnection) (response : ℕ × Status) (rest : List (ℕ × Status))
    (callback : RequestCallback) (called : PersistentConnection) : Prop where
  aligned : called.Aligned
  awaited : connection.requestCBHash = (response.1, callback) :: called.requestCBHash
  responses : called.realtime.responses = rest
  requestedPuts : called.requestedPuts = connection.requestedPuts
  answeredPuts : connection.answeredPuts =
    (putOf (response.1, callback)).toList ++ called.answeredPuts
  same : called.connectionState = connection.connectionState ∧
    called.outstandingPuts = connection.outstandingPuts ∧ called.putCounter = connection.putCounter ∧
    called.putsToAck = connection.putsToAck ∧
    called.unackedListensCount = connection.unackedListensCount
  effect : ({ connection with realtime := { connection.realtime with responses := rest } }.onDataMessage
    response) = called.call callback response.2

/-- An answer is for the call that was made first. -/
theorem Aligned.exists_called (aligned : connection.Aligned)
    (first : connection.realtime.responses = response :: rest) :
    ∃ callback called, Called connection response rest callback called := by
  have numbers := aligned.numbers
  rw [first, List.map_cons, List.cons_append] at numbers
  cases awaited : connection.requestCBHash with
  | nil => simp [awaited] at numbers
  | cons call later =>
    obtain ⟨number, callback⟩ := call
    rw [awaited, List.map_cons, List.cons.injEq] at numbers
    obtain ⟨same, tail⟩ := numbers
    obtain rfl : number = response.1 := same
    have sorted := aligned.ascending
    rw [awaited] at sorted
    let called : PersistentConnection :=
      { connection with
        realtime := { connection.realtime with responses := rest }
        requestCBHash := later }
    have writes := aligned.writes
    rw [awaited, first, List.length_cons, List.drop_succ_cons] at writes
    refine ⟨callback, called, ⟨⟨tail, (List.pairwise_cons.mp sorted).2, ?_, writes⟩, awaited, rfl, ?_, ?_,
      ⟨rfl, rfl, rfl, rfl, rfl⟩, ?_⟩⟩
    · intro call member
      exact aligned.numbered call (by simp [awaited, show call ∈ later from member])
    · rw [requestedPuts, requestedPuts, awaited, first, List.length_cons, List.drop_succ_cons]
    · rw [answeredPuts, answeredPuts, awaited, first, List.length_cons, List.take_succ_cons,
        List.filterMap_cons]
      cases putOf (response.1, callback) <;> rfl
    · have removed : (connection.requestCBHash.filter fun other => other.1 ≠ response.1) = later := by
        rw [awaited]
        exact sorted.drop_cons
      have found : connection.requestCBHash.lookup response.1 = some callback := by simp [awaited]
      simp only [onDataMessage, found, removed, called]

/-- Losing the connection leaves the writes outstanding and nothing on its way. -/
theorem leaves_onDisconnect {lost : PersistentConnection} (indexed : lost.Indexed)
    (outstanding : lost.outstandingPuts = connection.outstandingPuts)
    (waiting : lost.putsToAck = connection.putsToAck) :
    Leaves connection lost.onDisconnect connection.outstandingPuts [] [] connection.putsToAck false :=
  ⟨indexed.onDisconnect, outstanding, rfl, rfl, waiting, rfl, List.nil_subset _⟩

/-- The answer to a credential restores the state, closes the connection or does nothing. -/
private theorem received_auth (pipeline : connection.Pipeline) {restoreStateAfterComplete : Bool}
    (call : Called connection response rest (.auth restoreStateAfterComplete) called)
    (first : connection.realtime.responses = response :: rest) :
    Received connection response.2 (called.onAuth restoreStateAfterComplete response.2) [] := by
  obtain ⟨state, outstanding, counter, waiting, _⟩ := call.same
  have later : rest ⊆ connection.realtime.responses := by
    rw [first]
    exact List.subset_cons_self _ _
  let authenticated : PersistentConnection := { called with connectionState := .connected }
  have aligned : authenticated.Aligned := ⟨call.aligned.numbers, call.aligned.ascending,
    call.aligned.numbered, call.aligned.writes⟩
  have indexed : authenticated.Indexed := by
    refine ⟨?_, ?_⟩
    · exact outstanding.symm ▸ pipeline.indexed.ascending
    · show ∀ entry ∈ called.outstandingPuts, entry.1 < called.putCounter
      rw [outstanding, counter]
      exact pipeline.indexed.numbered
  rw [onAuth]
  split
  · have connected : connection.isConnected = true := by
      by_contra idle
      have nothing := pipeline.phase.idle (by simpa using idle)
      exact absurd call.awaited (by simp [nothing])
    by_cases established : connection.connectionState = .connected
    · -- The state was restored before.
      obtain ⟨plain, complete⟩ := pipeline.phase.connected established
      obtain rfl : restoreStateAfterComplete = false := by
        have := plain (response.1, .auth restoreStateAfterComplete) (by simp [call.awaited])
        cases restoreStateAfterComplete with
        | false => rfl
        | true => exact absurd rfl this
      have unchanged : authenticated.requestCBHash.filterMap putOf ++ [] = authenticated.outstandingPuts := by
        rw [List.append_nil]
        show called.requestCBHash.filterMap putOf = called.outstandingPuts
        rw [outstanding, ← complete, call.awaited]
        rfl
      have alsoPlain : ∀ call ∈ authenticated.requestCBHash, call.2 ≠ .auth true := fun other member =>
        plain other (by rw [call.awaited]; exact List.mem_cons_of_mem _ member)
      refine .quiet ⟨(Sends.refl authenticated).established aligned indexed rfl alsoPlain unchanged,
        outstanding, ?_, call.requestedPuts, waiting, ?_, ?_⟩
      · rw [call.answeredPuts]
        rfl
      · simp [isConnected, established]
      · rw [show (if false = true then authenticated.restoreState else authenticated) = authenticated from rfl]
        show called.realtime.responses ⊆ _
        rw [call.responses]
        exact later
    · have authenticating : connection.connectionState = .authenticating := by
        simpa [isConnected, established] using connected
      obtain ⟨number, others, awaited, plain⟩ := pipeline.phase.authenticating authenticating
      rw [call.awaited, List.cons.injEq] at awaited
      obtain ⟨same, rfl⟩ := awaited
      cases same
      have none : authenticated.requestCBHash.filterMap putOf = [] :=
        List.filterMap_eq_nil_iff.mpr fun other member => (plain other member).2
      have sends := sends_restoreState indexed
      obtain ⟨answered, requested⟩ := sends.puts aligned
      obtain ⟨noAnswers, noRequests⟩ := no_puts none
      refine .restored ?_ connected ⟨sends.established aligned indexed rfl
        (fun other member => (plain other member).1) (by rw [none]; rfl),
        sends.outstandingPuts.trans outstanding, answered.trans noAnswers, ?_,
        sends.putsToAck.trans waiting, ?_, ?_⟩
      · have phase := pipeline.phase.puts
        rwa [if_neg established] at phase
      · show authenticated.restoreState.requestedPuts = _
        rw [requested, noRequests]
        exact outstanding
      · show authenticated.restoreState.isConnected = true
        simp [isConnected, sends.connectionState, authenticated]
      · show authenticated.restoreState.realtime.responses ⊆ _
        rw [sends.responses]
        show called.realtime.responses ⊆ _
        rw [call.responses]
        exact later
  · exact .lost (leaves_onDisconnect ⟨indexed.ascending, indexed.numbered⟩ outstanding waiting)

/-- An established connection stays so when an answer without a credential is taken. -/
private theorem Called.established {callback : RequestCallback} (pipeline : connection.Pipeline)
    (call : Called connection response rest callback called) (plain : ∀ restore, callback ≠ .auth restore) :
    connection.connectionState = .connected ∧
      (∀ other ∈ called.requestCBHash, other.2 ≠ .auth true) ∧
      connection.outstandingPuts =
        (putOf (response.1, callback)).toList ++ called.requestCBHash.filterMap putOf := by
  -- While the credential has no answer, its answer is the first one.
  have established : connection.connectionState = .connected := by
    by_contra notConnected
    by_cases authenticating : connection.connectionState = .authenticating
    · obtain ⟨number, others, awaited, _⟩ := pipeline.phase.authenticating authenticating
      rw [call.awaited, List.cons.injEq] at awaited
      exact plain true (congrArg Prod.snd awaited.1)
    · have nothing := pipeline.phase.idle (by simp [isConnected, notConnected, authenticating])
      exact absurd call.awaited (by simp [nothing])
  obtain ⟨all, complete⟩ := pipeline.phase.connected established
  refine ⟨established,
    fun other member => all other (by rw [call.awaited]; exact List.mem_cons_of_mem _ member), ?_⟩
  rw [← complete, call.awaited, List.filterMap_cons]
  cases putOf (response.1, callback) <;> rfl

/-- The answer to a listener may release what is held back. -/
private theorem received_listen (pipeline : connection.Pipeline) {listenSpec : OutstandingQuery}
    (call : Called connection response rest (.listen listenSpec) called)
    (first : connection.realtime.responses = response :: rest) :
    Received connection response.2 (called.onListen listenSpec response.2).1
      (called.onListen listenSpec response.2).2 := by
  obtain ⟨state, outstanding, counter, waiting, _⟩ := call.same
  obtain ⟨established, plain, complete⟩ := call.established pipeline (by simp)
  have later : called.realtime.responses ⊆ connection.realtime.responses := by
    rw [call.responses, first]
    exact List.subset_cons_self _ _
  have indexed : called.Indexed := by
    refine ⟨?_, ?_⟩
    · exact outstanding.symm ▸ pipeline.indexed.ascending
    · rw [outstanding, counter]
      exact pipeline.indexed.numbered
  have unchanged : called.requestCBHash.filterMap putOf ++ [] = called.outstandingPuts := by
    rw [List.append_nil, outstanding, complete]
    rfl
  have calledPipeline := (Sends.refl called).established call.aligned indexed (state.trans established)
    plain unchanged
  have answers : called.answeredPuts = connection.answeredPuts := call.answeredPuts.symm
  have connected : called.isConnected = connection.isConnected := by
    rw [isConnected, state]
    rfl
  -- The removed listener and the count play no role for the writes.
  let current : PersistentConnection :=
    if listenSpec ∈ called.listens ∧ response.2 ≠ .ok then called.removeListen listenSpec.path else called
  have listening : Quiet called { current with unackedListensCount := current.unackedListensCount - 1 } := by
    show Quiet called { (if _ then _ else _ : PersistentConnection) with unackedListensCount := _ }
    split <;> exact calledPipeline.quiet (.inl rfl) rfl rfl rfl rfl rfl rfl
  have same : called.onListen listenSpec response.2 =
      if ({ current with unackedListensCount := current.unackedListensCount - 1 } :
          PersistentConnection).unackedListensCount = 0 then
        ({ current with unackedListensCount := current.unackedListensCount - 1 } :
          PersistentConnection).ackPuts
      else ({ current with unackedListensCount := current.unackedListensCount - 1 }, []) := rfl
  rw [same]
  split
  · have released := listening.pipeline
    have completions : current.putsToAck = connection.putsToAck := listening.putsToAck.trans waiting
    show Received connection response.2 _ current.putsToAck
    rw [completions]
    refine .released ⟨⟨⟨released.aligned.numbers, released.aligned.ascending,
      released.aligned.numbered, released.aligned.writes⟩,
      ⟨released.phase.idle, released.phase.authenticating, released.phase.connected⟩,
      ⟨released.indexed.ascending, released.indexed.numbered⟩⟩,
      listening.outstandingPuts.trans outstanding, listening.answeredPuts.trans answers,
      listening.requestedPuts.trans call.requestedPuts, rfl, listening.isConnected.trans connected,
      fun _ member => later (listening.responses member)⟩
  · exact .quiet ⟨listening.pipeline, listening.outstandingPuts.trans outstanding,
      listening.answeredPuts.trans answers, listening.requestedPuts.trans call.requestedPuts,
      listening.putsToAck.trans waiting, listening.isConnected.trans connected,
      fun _ member => later (listening.responses member)⟩

/-- The answer to a write completes the write, or holds its completion back. -/
private theorem received_put (pipeline : connection.Pipeline) {index : ℕ} {put : OutstandingPut}
    (call : Called connection response rest (.put index put) called)
    (first : connection.realtime.responses = response :: rest) :
    Received connection response.2 (called.onPut index put response.2).1
      (called.onPut index put response.2).2 := by
  obtain ⟨state, outstanding, counter, waiting, unacked⟩ := call.same
  obtain ⟨established, plain, complete⟩ := call.established pipeline (by simp)
  have later : called.realtime.responses ⊆ connection.realtime.responses := by
    rw [call.responses, first]
    exact List.subset_cons_self _ _
  -- The write is the first outstanding one.
  have listed : called.outstandingPuts = (index, put) :: called.requestCBHash.filterMap putOf :=
    outstanding.trans complete
  have sorted : Entries.Sorted ((index, put) :: called.requestCBHash.filterMap putOf) := by
    rw [← listed, outstanding]
    exact pipeline.indexed.ascending
  have found : called.outstandingPuts.lookup index = some put := by simp [listed]
  let removed : PersistentConnection :=
    { called with outstandingPuts := called.outstandingPuts.filter fun other => other.1 ≠ index }
  have remaining : removed.outstandingPuts = called.requestCBHash.filterMap putOf := by
    show (called.outstandingPuts.filter fun other => other.1 ≠ index) = _
    rw [listed]
    exact sorted.drop_cons
  have tail : removed.outstandingPuts = connection.outstandingPuts.tail := by
    rw [remaining, complete]
    rfl
  have indexed : removed.Indexed := by
    refine ⟨?_, ?_⟩
    · rw [remaining]
      exact (List.pairwise_cons.mp sorted).2
    · intro entry member
      rw [remaining] at member
      have earlier := pipeline.indexed.numbered entry (by
        rw [complete]
        exact List.mem_append_right _ member)
      exact counter.symm ▸ earlier
  have aligned : removed.Aligned := ⟨call.aligned.numbers, call.aligned.ascending, call.aligned.numbered,
    call.aligned.writes⟩
  have removedPipeline := (Sends.refl removed).established aligned indexed (state.trans established)
    plain (by rw [List.append_nil, remaining])
  have answers : connection.answeredPuts = (index, put) :: removed.answeredPuts := call.answeredPuts
  have connected : removed.isConnected = true := by
    show called.isConnected = true
    simp [isConnected, state, established]
  have same : called.onPut index put response.2 =
      if removed.unackedListensCount = 0 then (removed, [(put.onCompleteBlock, response.2)])
      else
        ({ removed with putsToAck := removed.putsToAck ++ [(put.onCompleteBlock, response.2)] }, []) := by
    rw [onPut, if_pos found]
  rw [same]
  split
  · rename_i nothing
    have toPut : connection.answersPut = true := by
      simp [answersPut, first, call.awaited]
    exact .completed established answers (unacked.symm.trans nothing) toPut ⟨removedPipeline, tail, rfl,
      call.requestedPuts, waiting, connected, later⟩
  · rename_i something
    refine .held established answers (fun nothing => something (unacked.trans nothing))
      ⟨⟨⟨aligned.numbers, aligned.ascending, aligned.numbered, aligned.writes⟩,
      ⟨removedPipeline.phase.idle, removedPipeline.phase.authenticating, removedPipeline.phase.connected⟩,
      ⟨indexed.ascending, indexed.numbered⟩⟩, tail, rfl, call.requestedPuts, ?_, connected, later⟩
    show called.putsToAck ++ _ = _
    rw [waiting]

/-- Every answer has one of the possible effects. -/
theorem Pipeline.received (pipeline : connection.Pipeline)
    (first : connection.realtime.responses = response :: rest) :
    Received connection response.2
      ({ connection with realtime := { connection.realtime with responses := rest } }.onDataMessage response).1
      ({ connection with
        realtime := { connection.realtime with responses := rest } }.onDataMessage response).2 := by
  obtain ⟨callback, called, call⟩ := pipeline.aligned.exists_called first
  rw [call.effect]
  cases callback with
  | auth restoreStateAfterComplete => exact received_auth pipeline call first
  | listen listenSpec => exact received_listen pipeline call first
  | put index put => exact received_put pipeline call first

end PersistentConnection

end CardGuru
