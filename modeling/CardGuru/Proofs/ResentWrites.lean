import CardGuru.Proofs.SentWrites

/-! An answer, another process or any other event is a move of the delivery of the writes. -/

namespace CardGuru

namespace Exchange

open PersistentConnection (Received)
open Repo (operation)

variable {service : Service} {exchange : Exchange} {event : ExchangeEvent}
  {delivery : Delivery} {connection : PersistentConnection}

/-- The client after an answer, with what is left on disk. -/
private theorem Refines.acked {moved : Delivery} {repo : Repo} {status : Status}
    {completions : List (ℤ × Status)} (refines : exchange.Refines delivery)
    (received : Received exchange.repo.connection status connection completions)
    (same : Matches connection moved) (saved : repo.Saved) (unchanged : repo.connection = connection)
    (onDisk : repo.writesDB = moved.waiting ++ moved.outstanding)
    (fewer : ∀ entry ∈ moved.waiting ++ moved.outstanding, entry ∈ delivery.waiting ++ delivery.outstanding)
    (stale : (exchange.change connection).stale = moved.stale.map Prod.snd)
    (content : moved.content = delivery.content) :
    Refines { exchange.change repo.connection with repo := repo } moved := by
  subst unchanged
  -- What is on disk has become less, so its numbers are still allowed.
  refine ⟨saved, fun entry member => ?_, onDisk, same, stale, refines.content.trans content.symm,
    fun connected => ?_⟩
  · refine refines.positive entry ?_
    rw [refines.onDisk]
    exact fewer entry (onDisk ▸ member)
  · -- An answer arrives over an open connection only.
    have opened : repo.connection.isConnected = true := connected
    show (exchange.change repo.connection).stale = []
    rw [change, if_pos opened]
    refine refines.alone ?_
    cases received with
    | quiet leaves => exact leaves.isConnected.symm.trans opened
    | released leaves => exact leaves.isConnected.symm.trans opened
    | restored idle before leaves => exact before
    | lost leaves => exact absurd (leaves.isConnected.symm.trans opened) (by simp)
    | completed state => simp [PersistentConnection.isConnected, state]
    | held state => simp [PersistentConnection.isConnected, state]

/-- Every effect of an answer is a move of the delivery. -/
private theorem Refines.received {status : Status} {completions : List (ℤ × Status)}
    (refines : exchange.Refines delivery)
    (received : Received exchange.repo.connection status connection completions)
    (given : status ≠ .writeCanceled) :
    ∃ repo moved, { exchange.repo with connection := connection }.ackWrites completions = .ok repo ∧
      Follows service exchange .receive delivery { exchange.change repo.connection with repo := repo } moved := by
  have saved := saved_connection refines.saved connection
  have before := refines.connection
  have nothing : delivery.issued.map Prod.snd = delivery.issued.map Prod.snd ++ written .receive :=
    (List.append_nil _).symm
  have effect := received
  cases received with
  | quiet leaves =>
    have same := before.leaves leaves before.outstanding before.answered before.requested before.waiting
      before.completions
    exact ⟨_, delivery, rfl, refines.acked effect same saved rfl refines.onDisk (fun _ => id)
      ((refines.stale_change (.inl leaves.isConnected.symm)).trans refines.stale) rfl, .steps .refl, nothing,
      fun _ _ layered => layered.congr rfl rfl⟩
  | released leaves =>
    -- Everything held back comes first on disk.
    let releases : Delivery := { delivery with waiting := [] }
    have same : Matches connection releases :=
      before.leaves leaves before.outstanding before.answered before.requested rfl (by simp)
    obtain ⟨repo, acked, still, onDisk, unchanged, layered⟩ :=
      saved.ackWrites refines.onDisk before.waiting.symm before.completions
    exact ⟨repo, releases, acked, refines.acked effect same still unchanged onDisk
      (fun _ member => List.mem_append_right _ member)
      ((refines.stale_change (.inl leaves.isConnected.symm)).trans refines.stale) rfl,
      .steps (.single .release), nothing, fun _ _ seen => layered (seen.congr rfl rfl)⟩
  | restored idle connected leaves =>
    have isIdle : delivery.Idle := by
      refine ⟨?_, ?_⟩
      · rw [← before.requested, idle.2]
        rfl
      · rw [← before.answered, idle.1]
        rfl
    have alone : delivery.stale = [] := by
      have empty := refines.alone connected
      rw [refines.stale] at empty
      exact List.map_eq_nil_iff.mp empty
    let restores : Delivery := { delivery with requested := delivery.outstanding }
    have same : Matches connection restores :=
      before.leaves leaves before.outstanding isIdle.2.symm before.outstanding before.waiting before.completions
    exact ⟨_, restores, rfl, refines.acked effect same saved rfl refines.onDisk (fun _ => id)
      ((refines.stale_change (.inr leaves.isConnected)).trans refines.stale) rfl,
      .steps (.single (.restore isIdle alone)), nothing,
      fun _ _ layered => layered.congr rfl rfl⟩
  | lost leaves =>
    have after := refines.lost leaves
    exact ⟨_, Exchange.lost delivery, rfl, refines.acked effect after.connection saved rfl refines.onDisk
      (fun _ => id) after.stale rfl, .steps (.single .lose), nothing,
      fun _ _ layered => layered.congr rfl rfl⟩
  | @completed put rest state first unawaited answers leaves =>
    have linked := refines.linked state
    have arrives : delivery.answered = operation put :: rest.map operation := by
      rw [← before.answered, first]
      rfl
    have outstanding : delivery.outstanding = operation put :: delivery.outstanding.tail := by
      rw [linked.sent, arrives]
      rfl
    have onDisk : exchange.repo.writesDB =
        delivery.waiting ++ (put.2.onCompleteBlock, put.2.write) :: delivery.outstanding.tail := by
      rw [refines.onDisk]
      exact congrArg _ outstanding
    have same : Matches connection delivery.completed := by
      refine before.leaves leaves ?_ ?_ before.requested before.waiting before.completions
      · rw [List.map_tail, before.outstanding]
        rfl
      · show rest.map operation = delivery.answered.tail
        rw [arrives, List.tail_cons]
    obtain ⟨repo, acked, still, remaining, unchanged, layered⟩ :=
      @Repo.Saved.ackWrite _ saved _ _ _ (put.2.onCompleteBlock, status) onDisk given
    have all : { exchange.repo with connection := connection }.ackWrites
        [(put.2.onCompleteBlock, status)] = .ok repo := by
      rw [Repo.ackWrites, List.foldlM_cons, acked]
      rfl
    have after := refines.acked effect same still unchanged remaining
      (fun entry member => by
        rw [outstanding]
        rcases List.mem_append.mp member with held | later
        · exact List.mem_append_left _ held
        · exact List.mem_append_right _ (List.mem_cons_of_mem _ later))
      ((refines.stale_change (.inr leaves.isConnected)).trans refines.stale) rfl
    have inOrder : InOrder exchange .receive → delivery.waiting = [] := by
      intro inOrder
      have none := inOrder rfl answers unawaited
      have waiting := before.waiting
      rw [none] at waiting
      exact List.map_eq_nil_iff.mp waiting.symm
    refine ⟨repo, delivery.completed, all, after, ?_, nothing,
      fun ordered _ seen => layered (inOrder ordered) (seen.congr rfl rfl)⟩
    by_cases ordered : InOrder exchange .receive
    · exact .steps (.single (.complete linked (by simp [arrives]) (inOrder ordered)))
    · exact .overtakes linked (by simp [arrives]) ordered
  | @held put rest state first awaited leaves =>
    have linked := refines.linked state
    have arrives : delivery.answered = operation put :: rest.map operation := by
      rw [← before.answered, first]
      rfl
    have outstanding : delivery.outstanding = operation put :: delivery.outstanding.tail := by
      rw [linked.sent, arrives]
      rfl
    let holds : Delivery :=
      { delivery with
        outstanding := delivery.outstanding.tail
        waiting := delivery.waiting ++ [operation put]
        answered := rest.map operation }
    have whole : holds.waiting ++ holds.outstanding = delivery.waiting ++ delivery.outstanding := by
      show (delivery.waiting ++ [operation put]) ++ delivery.outstanding.tail = _
      rw [List.append_assoc, List.singleton_append, ← outstanding]
    have same : Matches connection holds := by
      refine before.leaves leaves ?_ rfl before.requested ?_ fun completion member => ?_
      · rw [List.map_tail, before.outstanding]
      · show _ = (delivery.waiting ++ [operation put]).map Prod.fst
        rw [List.map_append, before.waiting, List.map_append]
        rfl
      · rcases List.mem_append.mp member with old | new
        · exact before.completions completion old
        · rw [List.mem_singleton.mp new]
          exact given
    exact ⟨_, holds, rfl, refines.acked effect same saved rfl (refines.onDisk.trans whole.symm)
      (fun entry member => whole ▸ member)
      ((refines.stale_change (.inr leaves.isConnected)).trans refines.stale) rfl,
      .steps (.single (.hold linked arrives)), nothing,
      fun _ _ layered => layered.congr rfl rfl⟩

/-- The next answer arrives. -/
theorem Refines.receive (refines : exchange.Refines delivery) :
    exchange.step service .receive = .error .unavailable ∨
      ∃ after moved, exchange.step service .receive = .ok after ∧
        Follows service exchange .receive delivery after moved := by
  cases first : exchange.repo.connection.realtime.responses with
  -- There is no answer to receive.
  | nil =>
    refine .inl ?_
    rw [step, Exchange.receive, Repo.receive]
    simp only [first]
    rfl
  | cons response rest =>
    refine .inr ?_
    -- The first answer is handled by the connection, then by the client.
    have received := refines.connection.pipeline.received first
    have given := refines.connection.answers response (by simp [first])
    obtain ⟨repo, moved, acked, follows⟩ := refines.received received given
    refine ⟨_, moved, ?_, follows⟩
    rw [step, Exchange.receive, Repo.receive]
    simp only [first]
    rw [acked]
    rfl

/-- Another process takes over from the disk everything that is not completed. -/
theorem Refines.relaunch (refines : exchange.Refines delivery) :
    ∃ after, exchange.step service .relaunch = .ok after ∧
      Follows service exchange .relaunch delivery after delivery.restarted := by
  obtain ⟨repo, done, restoring, onDisk⟩ :=
    Repo.restoreWrites_ok exchange.repo.pendingWriteTree.comparator refines.saved.ascending
      refines.positive refines.saved.something
  -- The restored tree has the writes that are on disk, and these stay there.
  have saved : repo.Saved := by
    have saved := restoring.saved
    rwa [← onDisk] at saved
  have other : repo.connection.connectionState ≠ .connected := by simp [restoring.disconnected]
  -- A new connection has not sent anything.
  have closed : repo.connection.isConnected = false := by
    simp [PersistentConnection.isConnected, restoring.disconnected]
  have nothing := restoring.pipeline.phase.idle closed
  have puts := restoring.pipeline.phase.puts
  rw [if_neg other] at puts
  refine ⟨{ exchange.change repo.connection with repo := repo }, by rw [step, done]; rfl, ⟨⟨saved, ?_, ?_,
    ⟨restoring.pipeline, ?_, ?_, ?_, ?_, ?_, ?_⟩, ?_, refines.content, fun opened => ?_⟩, .restarts,
    (List.append_nil _).symm, fun _ _ seen => ?_⟩⟩
  · rw [onDisk]
    exact refines.positive
  · rw [onDisk]
    exact refines.onDisk
  · rw [restoring.outstanding]
    exact refines.onDisk
  · rw [restoring.putsToAck]
    rfl
  · rw [puts.2]
    rfl
  · rw [puts.1]
    rfl
  · rw [restoring.pipeline.aligned.realtime_eq nothing]
    simp
  · rw [restoring.putsToAck]
    simp
  · show (exchange.change repo.connection).stale = _
    rw [change, closed, puts_requests refines.connection.pipeline.aligned, refines.connection.requested,
      refines.stale, Resend.restarted, List.map_append]
    rfl
  · exact absurd (closed.symm.trans opened) (by simp)
  · obtain rfl := seen.compares
    exact (restoring.layered seen.clear).congr rfl onDisk

/-- A change of what the writes do not depend on, while the connection is or stays closed. -/
private theorem Refines.reconnecting (refines : exchange.Refines delivery)
    (state : connection.connectionState = exchange.repo.connection.connectionState ∨
      (exchange.repo.connection.isConnected = false ∧ connection.isConnected = false))
    (same : connection.requestCBHash = exchange.repo.connection.requestCBHash ∧
      connection.requestNumber = exchange.repo.connection.requestNumber ∧
      connection.realtime = exchange.repo.connection.realtime ∧
      connection.outstandingPuts = exchange.repo.connection.outstandingPuts ∧
      connection.putCounter = exchange.repo.connection.putCounter ∧
      connection.putsToAck = exchange.repo.connection.putsToAck) (nothing : written event = []) :
    Follows service exchange event delivery (exchange.change connection) delivery := by
  obtain ⟨awaited, numbered, realtime, puts, counted, waiting⟩ := same
  -- The list of writes and their calls are untouched.
  exact (refines.quiet (refines.connection.pipeline.quiet state awaited numbered realtime puts counted
    waiting)).unmoved nothing rfl rfl

/-- An interrupted connection is lost, if there is one. -/
private theorem Refines.interrupt (refines : exchange.Refines delivery) (reason : String)
    (event : ExchangeEvent) (nothing : written event = []) :
    ∃ moved, Follows service exchange event delivery
      (exchange.change (exchange.repo.connection.interruptForReason reason)) moved := by
  -- The reason is noted first; what follows depends on whether there is a connection.
  let interrupted : PersistentConnection :=
    { exchange.repo.connection with
      interruptReasons :=
        if reason ∈ exchange.repo.connection.interruptReasons then exchange.repo.connection.interruptReasons
        else exchange.repo.connection.interruptReasons ++ [reason] }
  have same : exchange.repo.connection.interruptForReason reason =
      if exchange.repo.connection.hasRealtime then interrupted.onDisconnect
      else { interrupted with connectionState := .disconnected } := rfl
  rw [same]
  split
  · have indexed := refines.connection.pipeline.indexed
    exact ⟨_, refines.follows_lost (PersistentConnection.leaves_onDisconnect
      ⟨indexed.ascending, indexed.numbered⟩ rfl rfl) nothing⟩
  · rename_i none
    have closed : exchange.repo.connection.isConnected = false := by
      simp only [PersistentConnection.hasRealtime, decide_eq_true_eq, not_or] at none
      simpa using none.2
    exact ⟨delivery, refines.reconnecting (.inr ⟨closed, rfl⟩) ⟨rfl, rfl, rfl, rfl, rfl, rfl⟩ nothing⟩

/-- Except for giving up all writes, every event is impossible or a move of the delivery. -/
theorem Refines.step (refines : exchange.Refines delivery) (event : ExchangeEvent) (kept : event ≠ .purge) :
    exchange.step service event = .error .unavailable ∨
      ∃ after moved, exchange.step service event = .ok after ∧
        Follows service exchange event delivery after moved := by
  have pipeline := refines.connection.pipeline
  -- Each event is a move of the delivery of its own, or concerns no write.
  cases event with
  | set write => exact .inr (refines.set write)
  | listen path =>
    rw [Exchange.step]
    split
    · exact .inl rfl
    · exact .inr ⟨_, delivery, rfl, (refines.quiet (pipeline.listen path)).unmoved rfl rfl rfl⟩
  | unlisten path =>
    exact .inr ⟨_, delivery, rfl, refines.reconnecting (.inl rfl) ⟨rfl, rfl, rfl, rfl, rfl, rfl⟩ rfl⟩
  | refreshAuthToken token =>
    exact .inr ⟨_, delivery, rfl, (refines.quiet (pipeline.refreshAuthToken token)).unmoved rfl rfl rfl⟩
  | interrupt reason =>
    obtain ⟨moved, follows⟩ := refines.interrupt reason (.interrupt reason) rfl
    exact .inr ⟨_, moved, rfl, follows⟩
  | resume reason =>
    exact .inr ⟨_, delivery, rfl, refines.reconnecting (.inl rfl) ⟨rfl, rfl, rfl, rfl, rfl, rfl⟩ rfl⟩
  | retry =>
    rw [Exchange.step]
    split
    · rename_i disconnected
      exact .inr ⟨_, delivery, rfl, refines.reconnecting
        (.inr ⟨by simp [PersistentConnection.isConnected, disconnected.1], rfl⟩)
        ⟨rfl, rfl, rfl, rfl, rfl, rfl⟩ rfl⟩
    · exact .inl rfl
  | tokenFetched fetched =>
    by_cases fetching : exchange.repo.connection.connectionState = .gettingToken
    · have closed : exchange.repo.connection.isConnected = false := by
        simp [PersistentConnection.isConnected, fetching]
      refine .inr ?_
      cases fetched with
      | none =>
        rw [Exchange.step, if_pos fetching]
        exact ⟨_, delivery, rfl, refines.reconnecting (.inr ⟨closed, rfl⟩)
          ⟨rfl, rfl, rfl, rfl, rfl, rfl⟩ rfl⟩
      | some token =>
        rw [Exchange.step, if_pos fetching]
        exact ⟨_, delivery, rfl, refines.reconnecting (.inr ⟨closed, rfl⟩)
          ⟨rfl, rfl, rfl, rfl, rfl, rfl⟩ rfl⟩
    · cases fetched <;> exact .inl (by rw [Exchange.step, if_neg fetching])
  | ready =>
    rw [Exchange.step]
    split
    · rename_i connecting
      obtain ⟨moved, follows⟩ := refines.ready connecting
      exact .inr ⟨_, moved, rfl, follows⟩
    · exact .inl rfl
  | disconnected =>
    rw [Exchange.step]
    split
    · exact .inr ⟨_, _, rfl, refines.follows_lost
        (PersistentConnection.leaves_onDisconnect pipeline.indexed rfl rfl) rfl⟩
    · exact .inl rfl
  | killed =>
    rw [Exchange.step]
    split
    · obtain ⟨moved, follows⟩ :=
        refines.interrupt PersistentConnection.kFInterruptReasonServerKill .killed rfl
      exact .inr ⟨_, moved, rfl, follows⟩
    · exact .inl rfl
  | serve grants => exact refines.serve grants
  | serveStale => exact refines.serveStale
  | receive => exact refines.receive
  | purge => exact absurd rfl kept
  | relaunch =>
    obtain ⟨after, done, follows⟩ := refines.relaunch
    exact .inr ⟨after, _, done, follows⟩

/-- At first nothing was written. -/
theorem refines_started (comparator : StringComparator) (database : Database) :
    (started comparator database).Refines
    { issued := [], outstanding := [], waiting := [], requested := [], answered := [], stale := []
      content := database } := by
  -- Every list is empty, and the connection has no open request.
  refine ⟨Repo.saved_started comparator, by simp [started, Repo.started], rfl,
    ⟨?_, rfl, rfl, rfl, rfl, ?_, ?_⟩, rfl, rfl, fun _ => rfl⟩
  · exact PersistentConnection.pipeline_opened
  · simp [started, Repo.started, PersistentConnection.opened]
  · simp [started, Repo.started, PersistentConnection.opened]

end Exchange

end CardGuru
