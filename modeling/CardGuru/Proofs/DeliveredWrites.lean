import CardGuru.Firebase.Scenario
import CardGuru.Proofs.ResentWrites

/-! Over whole runs the service performs what the client writes, and the client shows it before. -/

namespace CardGuru

namespace Exchange

open Repo (operation)

variable {service : Service} {comparator : StringComparator} {database : Database} {exchange : Exchange}
  {history : List (Exchange × ExchangeEvent)}

/-- The writes that were made in a run, without the updates that have no fields. -/
def made (history : List (Exchange × ExchangeEvent)) : List UserWrite :=
  history.flatMap fun entry => written entry.2

/-- The database after the service has handled writes one after the other. -/
def handleAll (service : Service) (database : Database) (writes : List UserWrite) : Database :=
  writes.foldl service.handle database

/-- Performing operations is handling their writes. -/
theorem performAll_eq_handleAll (operations : List (ℤ × UserWrite)) (database : Database) :
    performAll (perform service) operations database =
      handleAll service database (operations.map Prod.snd) :=
  -- The numbers of the writes play no part at the service.
  performAll_perform service operations database

/-- A service with rules on writes handles those that it accepts. -/
theorem handleAll_rules (accepts : UserWrite → Bool) (writes : List UserWrite) (database : Database) :
    handleAll (.rules accepts) database writes =
      database.applyAll ((writes.filter accepts).map Subtype.val) := by
  induction writes generalizing database with
  | nil => rfl
  | cons write writes ih =>
    -- The rules decide on each write for itself.
    have first : handleAll (.rules accepts) database (write :: writes) =
        handleAll (.rules accepts) ((Service.rules accepts).handle database write) writes := rfl
    rw [first, ih, List.filter_cons]
    cases accepted : accepts write <;> simp [Service.rules, accepted, Database.applyAll]

/-- Such a service may handle writes again as long as everything after them is handled again too. -/
theorem replayable_rules (accepts : UserWrite → Bool) : Replayable (Service.rules accepts).handle := by
  intro earlier later database repeated
  -- Replaying what is accepted is replaying writes on a database without rules.
  have handled : ∀ writes database, performAll (Service.rules accepts).handle writes database =
      database.applyAll ((writes.filter accepts).map Subtype.val) := handleAll_rules accepts
  rw [handled, handled, handled]
  refine Database.applyAll_replay (fun write member => ?_) fun write member => ?_
  · obtain ⟨user, _, rfl⟩ := List.mem_map.mp member
    exact user.property
  · -- An accepted write is accepted again.
    obtain ⟨user, accepted, rfl⟩ := List.mem_map.mp member
    obtain ⟨listed, granted⟩ := List.mem_filter.mp accepted
    exact List.mem_map_of_mem (List.mem_filter.mpr ⟨repeated user listed, granted⟩)

/-- No write is given up, and no other process takes over. -/
def Uninterrupted (_ : Exchange) (event : ExchangeEvent) : Prop := event ≠ .purge ∧ event ≠ .relaunch

/-- No write is given up, and all of them are completed in order. -/
def Orderly (exchange : Exchange) (event : ExchangeEvent) : Prop := event ≠ .purge ∧ InOrder exchange event

instance {exchange : Exchange} {event : ExchangeEvent} : Decidable (Uninterrupted exchange event) :=
  inferInstanceAs (Decidable (_ ∧ _))

instance {exchange : Exchange} {event : ExchangeEvent} : Decidable (Orderly exchange event) :=
  inferInstanceAs (Decidable (_ ∧ _))

/-- A run without giving up writes is a delivery of the writes made in it. -/
structure Delivering (database : Database) (history : List (Exchange × ExchangeEvent)) (exchange : Exchange)
    (delivery : Delivery) : Prop where
  refines : exchange.Refines delivery
  issued : delivery.issued.map Prod.snd = made history

/-- Nothing was delivered at first. -/
theorem delivering_started (comparator : StringComparator) (database : Database) : ∃ delivery,
    Delivering database [] (started comparator database) delivery ∧ delivery.Delivers (perform service) database ∧
      delivery.Restorable (perform service) database :=
  -- The delivery has issued nothing and has nothing to restore.
  ⟨_, ⟨refines_started comparator database, rfl⟩,
    ⟨.inl ⟨rfl, rfl⟩, by simp, ⟨database, rfl⟩, rfl⟩, rfl⟩

/-- A possible event goes on with the delivery. -/
theorem Delivering.next {delivery : Delivery} {event : ExchangeEvent} {after : Exchange}
    (delivering : Delivering database history exchange delivery) (kept : event ≠ .purge)
    (taken : exchange.next service event = some after) :
    ∃ moved, Follows service exchange event delivery after moved ∧
      Delivering database (history ++ [(exchange, event)]) after moved := by
  rw [Exchange.next] at taken
  -- An impossible event raises; it was not taken.
  rcases delivering.refines.step event kept with impossible | ⟨other, moved, done, follows⟩
  · rw [impossible] at taken
    cases taken
  · rw [done] at taken
    cases taken
    refine ⟨moved, follows, follows.refines, ?_⟩
    rw [follows.issued, delivering.issued]
    simp [made]

/-- As long as no write is given up, each state of a run is some point of a delivery. -/
theorem delivering_of_run (run : Run (next service) (started comparator database) history exchange)
    (kept : Run.Within (fun _ event => event ≠ .purge) history) :
    ∃ delivery, Delivering database history exchange delivery := by
  -- By induction on the run: each step is one of the delivery.
  induction run with
  | nil =>
    obtain ⟨delivery, delivering, _⟩ := @delivering_started service comparator database
    exact ⟨delivery, delivering⟩
  | snoc earlier taken ih =>
    obtain ⟨within, last⟩ := Run.within_snoc.mp kept
    obtain ⟨delivery, delivering⟩ := ih within
    obtain ⟨moved, _, still⟩ := delivering.next last taken
    exact ⟨moved, still⟩

/-- While one process runs, what is outstanding is all that the service may miss. -/
theorem delivers_of_run (replay : Replayable service.handle)
    (run : Run (next service) (started comparator database) history exchange)
    (within : Run.Within Uninterrupted history) :
    ∃ delivery, Delivering database history exchange delivery ∧
      delivery.Delivers (perform service) database := by
  induction run with
  | nil =>
    obtain ⟨delivery, delivering, delivers, _⟩ :=
      delivering_started comparator database
    exact ⟨delivery, delivering, delivers⟩
  | snoc earlier taken ih =>
    obtain ⟨before, last⟩ := Run.within_snoc.mp within
    obtain ⟨delivery, delivering, delivers⟩ := ih before
    obtain ⟨moved, follows, still⟩ := delivering.next last.1 taken
    refine ⟨moved, still, ?_⟩
    -- Without a restart the delivery takes its own steps, or answers overtake each other.
    cases follows.moves with
    | steps taken => exact (delivers.steps (replayable_perform replay) taken).1
    | overtakes linked arrives => exact delivers.completed (replayable_perform replay) linked arrives
    | restarts => exact absurd rfl last.2

/-- While writes are completed in order, what is on disk is all that the service may miss. -/
theorem restorable_of_run (replay : Replayable service.handle)
    (run : Run (next service) (started comparator database) history exchange)
    (within : Run.Within Orderly history) :
    ∃ delivery, Delivering database history exchange delivery ∧
      delivery.Delivers (perform service) database ∧ delivery.Restorable (perform service) database := by
  induction run with
  | nil =>
    obtain ⟨delivery, delivering, delivers, restorable⟩ :=
      delivering_started comparator database
    exact ⟨delivery, delivering, delivers, restorable⟩
  | snoc earlier taken ih =>
    obtain ⟨before, last⟩ := Run.within_snoc.mp within
    obtain ⟨delivery, delivering, delivers, restorable⟩ := ih before
    obtain ⟨moved, follows, still⟩ := delivering.next last.1 taken
    refine ⟨moved, still, ?_⟩
    -- In order no answer overtakes another, so the disk always holds what is missing.
    cases follows.moves with
    | steps taken =>
      obtain ⟨delivered, restored⟩ := delivers.steps (replayable_perform replay) taken
      exact ⟨delivered, restored restorable⟩
    | overtakes linked arrives early => exact absurd last.2 early
    | restarts => exact ⟨delivers.restarted restorable, restorable⟩

/-- Whether every write that an event adds uses clear names only. -/
def Clear (comparator : StringComparator) (event : ExchangeEvent) : Prop :=
  ∀ write ∈ written event, write.val.Clear comparator

instance {event : ExchangeEvent} : Decidable (Clear comparator event) :=
  inferInstanceAs (Decidable (∀ _ ∈ _, _))

/-- The writes that the service has not answered, in the order in which they were made. -/
def outstandingWrites (exchange : Exchange) : List UserWrite :=
  exchange.repo.connection.outstandingPuts.map fun put => put.2.write

/-- What is outstanding in a delivery are the outstanding writes. -/
theorem Refines.outstandingWrites {delivery : Delivery} (refines : exchange.Refines delivery) :
    exchange.outstandingWrites = delivery.outstanding.map Prod.snd := by
  -- The connection keeps the writes under their numbers.
  rw [← refines.connection.outstanding, List.map_map]
  rfl

/-- While one process runs, the outstanding writes bring the service to what all writes make of the start. -/
theorem handleAll_outstandingWrites (replay : Replayable service.handle)
    (run : Run (next service) (started comparator database) history exchange)
    (within : Run.Within Uninterrupted history) :
    handleAll service exchange.database exchange.outstandingWrites =
      handleAll service database (made history) := by
  obtain ⟨delivery, delivering, delivers⟩ := delivers_of_run replay run within
  -- The delivery says so about operations; each is the handling of its write.
  have delivered := delivers.delivered
  rw [performAll_eq_handleAll, performAll_eq_handleAll, ← delivering.refines.content,
    ← delivering.refines.outstandingWrites, delivering.issued] at delivered
  exact delivered

/-- After a lost answer, both writes of a card are outstanding, and they repeat what was performed. -/
theorem handleAll_outstandingWrites_answerLost : ∃ exchange,
    Run (next Scenario.acceptsAll) Scenario.atFirst (Scenario.exchanged Scenario.answerLost) exchange ∧
      exchange.outstandingWrites = [Scenario.cardSaved, Scenario.cardRenamed] ∧
      handleAll Scenario.acceptsAll exchange.database exchange.outstandingWrites =
        handleAll Scenario.acceptsAll Scenario.nothingStored (made (Scenario.exchanged Scenario.answerLost)) := by
  obtain ⟨exchange, run, test⟩ := Scenario.run_exchanged Scenario.answerLost
    (fun exchange => decide (exchange.outstandingWrites = [Scenario.cardSaved, Scenario.cardRenamed]))
    (by decide +kernel)
  exact ⟨exchange, run, of_decide_eq_true test,
    handleAll_outstandingWrites (replayable_rules _) run (by decide +kernel)⟩

/-- What is on disk brings the service to what all writes make of the start. -/
theorem handleAll_saved (replay : Replayable service.handle)
    (run : Run (next service) (started comparator database) history exchange)
    (within : Run.Within Orderly history) :
    handleAll service exchange.database (exchange.repo.writesDB.map Prod.snd) =
      handleAll service database (made history) := by
  obtain ⟨delivery, delivering, _, restorable⟩ := restorable_of_run replay run within
  -- What is waiting has been performed, and is repeated before what is outstanding.
  have restored : performAll (perform service) (delivery.waiting ++ delivery.outstanding) delivery.content =
    performAll (perform service) delivery.issued database := restorable
  rwa [← delivering.refines.onDisk, performAll_eq_handleAll, performAll_eq_handleAll,
    ← delivering.refines.content, delivering.issued] at restored

/-- Over restarts of the client, so do both the outstanding writes and those on disk. -/
theorem handleAll_writesDB (replay : Replayable service.handle)
    (run : Run (next service) (started comparator database) history exchange)
    (within : Run.Within Orderly history) :
    handleAll service exchange.database exchange.outstandingWrites =
        handleAll service database (made history) ∧
      handleAll service exchange.database (exchange.repo.writesDB.map Prod.snd) =
        handleAll service database (made history) := by
  obtain ⟨delivery, delivering, delivers, _⟩ := restorable_of_run replay run within
  -- The first part is about the connection, the second about the disk.
  have delivered := delivers.delivered
  rw [performAll_eq_handleAll, performAll_eq_handleAll, ← delivering.refines.content, delivering.issued,
    ← delivering.refines.outstandingWrites] at delivered
  exact ⟨delivered, handleAll_saved replay run within⟩

/-- Another process sends both writes of a card again; the second one is still on disk. -/
theorem handleAll_writesDB_relaunched : ∃ exchange,
    Run (next Scenario.acceptsAll) Scenario.atFirst (Scenario.exchanged Scenario.relaunched) exchange ∧
      exchange.repo.writesDB.map Prod.snd = [Scenario.cardRenamed] ∧
      handleAll Scenario.acceptsAll exchange.database (exchange.repo.writesDB.map Prod.snd) =
        handleAll Scenario.acceptsAll Scenario.nothingStored (made (Scenario.exchanged Scenario.relaunched)) := by
  obtain ⟨exchange, run, test⟩ := Scenario.run_exchanged Scenario.relaunched
    (fun exchange => decide (exchange.repo.writesDB.map Prod.snd = [Scenario.cardRenamed])) (by decide +kernel)
  exact ⟨exchange, run, of_decide_eq_true test,
    (handleAll_writesDB (replayable_rules _) run (by decide +kernel)).2⟩

/-- Out of order, a write that is still on disk would undo a later one that is completed. -/
theorem handleAll_writesDB_overtaken : ∃ exchange,
    Run (next Scenario.acceptsAll) Scenario.atFirst (Scenario.exchanged Scenario.overtaken) exchange ∧
      exchange.outstandingWrites = [] ∧ exchange.repo.writesDB.map Prod.snd = [Scenario.cardSaved] ∧
      handleAll Scenario.acceptsAll exchange.database (exchange.repo.writesDB.map Prod.snd) ≠
        handleAll Scenario.acceptsAll Scenario.nothingStored (made (Scenario.exchanged Scenario.overtaken)) := by
  obtain ⟨exchange, run, test⟩ := Scenario.run_exchanged Scenario.overtaken
    (fun exchange => decide (exchange.outstandingWrites = [] ∧
      exchange.repo.writesDB.map Prod.snd = [Scenario.cardSaved] ∧
      (handleAll Scenario.acceptsAll exchange.database (exchange.repo.writesDB.map Prod.snd)).root.isEmpty = false))
    (by decide +kernel)
  obtain ⟨nothing, saved, stored⟩ := of_decide_eq_true test
  -- All writes together leave nothing, since the card was deleted in the end.
  have deleted : (handleAll Scenario.acceptsAll Scenario.nothingStored
      (made (Scenario.exchanged Scenario.overtaken))).root.isEmpty = true := by decide +kernel
  refine ⟨exchange, run, nothing, saved, fun same => ?_⟩
  rw [same, deleted] at stored
  cases stored

/-- Unless writes are given up, nothing raises: every completed write is still recorded. -/
theorem step_fault (run : Run (next service) (started comparator database) history exchange)
    (kept : Run.Within (fun _ event => event ≠ .purge) history) {event : ExchangeEvent} {fault : RepoFault}
    (also : event ≠ .purge) (raised : exchange.step service event = .error fault) : fault = .unavailable := by
  obtain ⟨delivery, delivering⟩ := delivering_of_run run kept
  -- A step that is not impossible succeeds.
  rcases delivering.refines.step event also with impossible | ⟨after, moved, done, _⟩
  · rw [impossible] at raised
    cases raised
    rfl
  · rw [done] at raised
    cases raised

/-- No connection gets ready that is not being opened. -/
theorem step_fault_answerLost : ∃ exchange,
    Run (next Scenario.acceptsAll) Scenario.atFirst (Scenario.exchanged Scenario.answerLost) exchange ∧
      ∃ fault, exchange.step Scenario.acceptsAll .ready = .error fault ∧ fault = .unavailable := by
  obtain ⟨exchange, run, test⟩ := Scenario.run_exchanged Scenario.answerLost
    (fun exchange => (exchange.step Scenario.acceptsAll .ready).toOption.isNone) (by decide +kernel)
  -- The event raises, and the theorem names the fault.
  cases raised : exchange.step Scenario.acceptsAll .ready with
  | ok after => simp [raised, Except.toOption] at test
  | error fault =>
    exact ⟨exchange, run, fault, raised, step_fault run (by decide +kernel) (by decide) raised⟩

/-- Giving up writes raises if one was answered that is held back, and else leaves nothing of them. -/
theorem step_purge (run : Run (next service) (started comparator database) history exchange)
    (kept : Run.Within (fun _ event => event ≠ .purge) history) :
    exchange.step service .purge =
      match exchange.repo.connection.putsToAck with
      | completion :: _ => .error (.nonexistentWriteId completion.1)
      | [] =>
        .ok
          { exchange with
            repo :=
              { exchange.repo with
                pendingWriteTree := exchange.repo.pendingWriteTree.removeAllWrites
                writesDB := []
                connection := { exchange.repo.connection with outstandingPuts := [] } } } := by
  obtain ⟨delivery, delivering⟩ := delivering_of_run run kept
  have completions := delivering.refines.connection.completions
  rw [step, Repo.purgeOutstandingWrites]
  cases waiting : exchange.repo.connection.putsToAck with
  -- Only writes that are given up are completed, and the client ignores them.
  | nil =>
    simp only [PersistentConnection.purgeOutstandingWrites, waiting, List.nil_append]
    rw [Repo.ackWrites_canceled]
    · rfl
    · intro completion member
      obtain ⟨key, _, found⟩ := List.mem_filterMap.mp member
      obtain ⟨put, _, rfl⟩ := Option.map_eq_some_iff.mp found
      rfl
  -- The first completion is an answer, and its write has just been forgotten.
  | cons completion rest =>
    have answered := completions completion (by simp [waiting])
    simp only [PersistentConnection.purgeOutstandingWrites, waiting, List.cons_append]
    rw [Repo.ackWrites, List.foldlM_cons, Repo.ackWrite, if_neg answered]
    rfl

/-- While a listener has no answer, giving up writes raises after the answer to a write. -/
theorem step_purge_heldBack : ∃ exchange,
    Run (next Scenario.acceptsAll) Scenario.atFirst (Scenario.exchanged Scenario.heldBack) exchange ∧
      exchange.step Scenario.acceptsAll .purge = .error (.nonexistentWriteId 0) := by
  obtain ⟨exchange, run, test⟩ := Scenario.run_exchanged Scenario.heldBack
    (fun exchange => decide (exchange.repo.connection.putsToAck = [(0, .ok)])) (by decide +kernel)
  refine ⟨exchange, run, ?_⟩
  rw [step_purge run (by decide +kernel), of_decide_eq_true test]

end Exchange

end CardGuru
