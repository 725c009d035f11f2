import Mathlib.Data.List.Basic
import Mathlib.Logic.Relation

/-! Delivery by repetition: a sender repeats, in order and over any number of connections, whatever was
not answered, and a receiver performs whatever it is sent. -/

/-- Perform operations one after the other. -/
def performAll {O S : Type*} (act : S → O → S) (operations : List O) (state : S) : S :=
  operations.foldl act state

/-- Executions before operations that repeat all of them leave no trace. -/
def Replayable {O S : Type*} (act : S → O → S) : Prop :=
  ∀ (earlier later : List O) (state : S), (∀ operation ∈ earlier, operation ∈ later) →
    performAll act later (performAll act earlier state) = performAll act later state

/-- Both ends of the delivery. -/
structure Resend (O S : Type*) where
  /-- Everything issued so far. -/
  issued : List O
  /-- What was issued and not answered to the sender. -/
  outstanding : List O
  /-- What was answered while the completion is held back. -/
  waiting : List O
  /-- What is on its way to the receiver over the present connection. -/
  requested : List O
  /-- What was performed over the present connection, with the answer on its way. -/
  answered : List O
  /-- What may still reach the receiver from connections that are lost. -/
  stale : List O
  /-- What the receiver has made of all this. -/
  content : S

namespace Resend

variable {O S : Type*} {act : S → O → S}

theorem performAll_append (earlier later : List O) (state : S) :
    performAll act (earlier ++ later) state = performAll act later (performAll act earlier state) :=
  List.foldl_append

/-- Nothing is on its way over a present connection. -/
def Idle (state : Resend O S) : Prop := state.requested = [] ∧ state.answered = []

/-- Everything outstanding was sent over the present connection, and nothing else can arrive. -/
structure Linked (state : Resend O S) : Prop where
  sent : state.outstanding = state.answered ++ state.requested
  stale : state.stale = []

/-- The next answer has arrived, and its operation is completed. -/
def completed (state : Resend O S) : Resend O S :=
  { state with outstanding := state.outstanding.tail, answered := state.answered.tail }

/-- The sender is started again from what it has recorded, which is everything not completed. -/
def restarted (state : Resend O S) : Resend O S :=
  { state with
    -- What was held back was never completed, so it is sent again too.
    outstanding := state.waiting ++ state.outstanding
    waiting := []
    requested := []
    answered := []
    stale := state.stale ++ state.requested }

/-- What may happen between a sender and a receiver while operations are completed in order. -/
inductive Step (act : S → O → S) : Resend O S → Resend O S → Prop where
  /-- An operation is issued while there is no connection. -/
  | issue {state : Resend O S} (operation : O) (idle : state.Idle) :
      Step act state
        { state with
          issued := state.issued ++ [operation]
          outstanding := state.outstanding ++ [operation] }
  /-- An operation is issued and sent. -/
  | send {state : Resend O S} (operation : O) (linked : state.Linked) :
      Step act state
        { state with
          issued := state.issued ++ [operation]
          outstanding := state.outstanding ++ [operation]
          requested := state.requested ++ [operation] }
  /-- The receiver performs an operation and answers. -/
  | perform {state : Resend O S} {operation : O} {rest : List O}
      (first : state.requested = operation :: rest) :
      Step act state
        { state with
          requested := rest
          answered := state.answered ++ [operation]
          content := act state.content operation }
  /-- The receiver performs an operation from a connection that the sender has given up. -/
  | performStale {state : Resend O S} {operation : O} {rest : List O}
      (first : state.stale = operation :: rest) :
      Step act state { state with stale := rest, content := act state.content operation }
  /-- An answer arrives, and the operation is completed at once. -/
  | complete {state : Resend O S} (linked : state.Linked) (arrives : state.answered ≠ [])
      (nothing : state.waiting = []) : Step act state state.completed
  /-- An answer arrives, and the completion is held back. -/
  | hold {state : Resend O S} {operation : O} {rest : List O} (linked : state.Linked)
      (first : state.answered = operation :: rest) :
      Step act state
        { state with
          outstanding := state.outstanding.tail
          waiting := state.waiting ++ [operation]
          answered := rest }
  /-- Everything held back is completed. -/
  | release {state : Resend O S} : Step act state { state with waiting := [] }
  /-- The connection is lost. -/
  | lose {state : Resend O S} :
      Step act state
        { state with requested := [], answered := [], stale := state.stale ++ state.requested }
  /-- A new connection is there, and nothing arrives from older ones any more. -/
  | connect {state : Resend O S} (idle : state.Idle) : Step act state { state with stale := [] }
  /-- Everything outstanding is sent again. -/
  | restore {state : Resend O S} (idle : state.Idle) (alone : state.stale = []) :
      Step act state { state with requested := state.outstanding }

/-- What is outstanding, performed again, makes the content what everything issued makes of the start. -/
structure Delivers (act : S → O → S) (start : S) (state : Resend O S) : Prop where
  linked : state.Idle ∨ state.Linked
  stale : ∀ operation ∈ state.stale, operation ∈ state.outstanding
  performed : ∃ before, state.content = performAll act state.answered before
  delivered : performAll act state.outstanding state.content = performAll act state.issued start

/-- The same with what is held back in front, as a restarted sender would send it. -/
def Restorable (act : S → O → S) (start : S) (state : Resend O S) : Prop :=
  performAll act (state.waiting ++ state.outstanding) state.content = performAll act state.issued start

variable {start : S} {state after : Resend O S}

/-- An operation performed once more before a list that has it leaves no trace. -/
theorem performAll_act (replay : Replayable act) {operation : O} {later : List O} (state : S)
    (member : operation ∈ later) : performAll act later (act state operation) = performAll act later state :=
  replay [operation] later state (by simpa using member)

/-- What was performed last needs not be performed again in front of what followed it. -/
theorem performAll_performed (replay : Replayable act) (operation : O) (answered requested : List O)
    (state : S) :
    performAll act (answered ++ requested) (performAll act (operation :: answered) state) =
      performAll act (operation :: (answered ++ requested)) (performAll act (operation :: answered) state) := by
  -- Both come to performing everything once.
  have inside : ∀ other ∈ operation :: answered, other ∈ operation :: (answered ++ requested) := by
    intro other member
    rcases List.mem_cons.mp member with rfl | later
    · exact List.mem_cons_self
    · exact List.mem_cons_of_mem _ (List.mem_append_left _ later)
  rw [replay _ _ state inside]
  have moved : performAll act (operation :: answered) state =
      performAll act answered (act state operation) := rfl
  rw [moved, replay answered _ _ fun other member => List.mem_append_left _ member]
  rfl

/-- Receiving an answer keeps what is delivered. -/
private theorem Delivers.answered (replay : Replayable act) (delivers : state.Delivers act start)
    {operation : O} {rest : List O} (linked : state.Linked) (first : state.answered = operation :: rest) :
    state.outstanding.tail = rest ++ state.requested ∧
      performAll act (rest ++ state.requested) state.content = performAll act state.issued start := by
  obtain ⟨before, content⟩ := delivers.performed
  have sent := linked.sent
  rw [first, List.cons_append] at sent
  refine ⟨by rw [sent, List.tail_cons], ?_⟩
  rw [first] at content
  -- The first answered operation is performed already, so repeating it changes nothing.
  rw [← delivers.delivered, sent, content, performAll_performed replay]

/-- A completed operation needs not be sent again. -/
theorem Delivers.completed (replay : Replayable act) (delivers : state.Delivers act start)
    (linked : state.Linked) (arrives : state.answered ≠ []) : state.completed.Delivers act start := by
  obtain ⟨operation, rest, first⟩ := List.exists_cons_of_ne_nil arrives
  obtain ⟨tail, delivered⟩ := delivers.answered replay linked first
  obtain ⟨before, content⟩ := delivers.performed
  -- The first answer is taken, and its operation leaves with it.
  have answers : state.completed.answered = rest := by simp [Resend.completed, first]
  refine ⟨.inr ⟨?_, linked.stale⟩, by simp [Resend.completed, linked.stale], ⟨act before operation, ?_⟩, ?_⟩
  · rw [answers]
    exact tail
  · rw [answers]
    exact content.trans (by rw [first]; rfl)
  · show performAll act state.outstanding.tail state.content = _
    rw [tail]
    exact delivered

/-- A restarted sender delivers what could be sent again. -/
theorem Delivers.restarted (delivers : state.Delivers act start) (restorable : state.Restorable act start) :
    state.restarted.Delivers act start := by
  refine ⟨.inl ⟨rfl, rfl⟩, fun other member => ?_, ⟨state.content, rfl⟩, restorable⟩
  rcases List.mem_append.mp member with old | new
  · exact List.mem_append_right _ (delivers.stale other old)
  · -- Something was requested, so the two ends are linked.
    have linked : state.Linked := delivers.linked.resolve_left fun idle => by simp [idle.1] at new
    exact List.mem_append_right _ (by simp [linked.sent, new])

/-- Every step keeps what is delivered. -/
theorem Delivers.step (replay : Replayable act) (delivers : state.Delivers act start)
    (taken : Step act state after) : after.Delivers act start := by
  cases taken with
  | issue operation idle =>
    refine ⟨.inl idle, fun other member => List.mem_append_left _ (delivers.stale other member),
      delivers.performed, ?_⟩
    rw [performAll_append, performAll_append, delivers.delivered]
  | send operation linked =>
    refine ⟨.inr ⟨?_, linked.stale⟩, fun other member => List.mem_append_left _ (delivers.stale other member),
      delivers.performed, ?_⟩
    · rw [linked.sent, List.append_assoc]
    · rw [performAll_append, performAll_append, delivers.delivered]
  | @perform operation rest first =>
    -- Something is on its way, so that the sender waits for its answer.
    have linked : state.Linked := delivers.linked.resolve_left fun idle => by simp [idle.1] at first
    have member : operation ∈ state.outstanding := by simp [linked.sent, first]
    obtain ⟨before, content⟩ := delivers.performed
    refine ⟨.inr ⟨?_, linked.stale⟩, delivers.stale, ⟨before, ?_⟩, ?_⟩
    · simp [linked.sent, first]
    · simp [content, performAll]
    · rw [performAll_act replay _ member, delivers.delivered]
  | @performStale operation rest first =>
    have idle : state.Idle := delivers.linked.resolve_right fun linked => by simp [linked.stale] at first
    have member : operation ∈ state.outstanding := delivers.stale operation (by simp [first])
    refine ⟨.inl idle, fun other later => delivers.stale other (by simp [first, later]),
      ⟨act state.content operation, by simp [idle.2, performAll]⟩, ?_⟩
    rw [performAll_act replay _ member, delivers.delivered]
  | complete linked arrives nothing => exact delivers.completed replay linked arrives
  | @hold operation rest linked first =>
    obtain ⟨tail, delivered⟩ := delivers.answered replay linked first
    obtain ⟨before, content⟩ := delivers.performed
    refine ⟨.inr ⟨tail, linked.stale⟩, by simp [linked.stale], ⟨act before operation, ?_⟩, ?_⟩
    · rw [content, first]
      rfl
    · rw [tail]
      exact delivered
  | release =>
    refine ⟨delivers.linked.imp id fun linked => ⟨linked.sent, linked.stale⟩, delivers.stale,
      delivers.performed, delivers.delivered⟩
  | lose =>
    refine ⟨.inl ⟨rfl, rfl⟩, fun other member => ?_, ⟨state.content, rfl⟩, delivers.delivered⟩
    rcases List.mem_append.mp member with old | new
    · exact delivers.stale other old
    · have linked : state.Linked := delivers.linked.resolve_left fun idle => by simp [idle.1] at new
      simp [linked.sent, new]
  | connect idle => exact ⟨.inl idle, by simp, delivers.performed, delivers.delivered⟩
  | restore idle alone =>
    exact ⟨.inr ⟨by simp [idle.2], alone⟩, delivers.stale, ⟨state.content, by simp [idle.2, performAll]⟩,
      delivers.delivered⟩

/-- Something issued comes after everything that can be sent again. -/
private theorem Restorable.issue (restorable : state.Restorable act start) (operation : O) :
    performAll act (state.waiting ++ (state.outstanding ++ [operation])) state.content =
      performAll act (state.issued ++ [operation]) start := by
  -- The new operation comes last on both sides.
  have restored : performAll act (state.waiting ++ state.outstanding) state.content = _ := restorable
  rw [← List.append_assoc, performAll_append, restored, performAll_append]

/-- What is held back can be sent again as long as operations are completed in order. -/
theorem Restorable.step (replay : Replayable act) (restorable : state.Restorable act start)
    (delivers : state.Delivers act start) (taken : Step act state after) :
    after.Restorable act start := by
  -- Only a completion takes something away, and it does so in order.
  cases taken with
  | issue operation idle =>
    exact restorable.issue operation
  | send operation linked =>
    exact restorable.issue operation
  | @perform operation rest first =>
    have linked : state.Linked := delivers.linked.resolve_left fun idle => by simp [idle.1] at first
    have member : operation ∈ state.waiting ++ state.outstanding := by simp [linked.sent, first]
    exact (performAll_act replay _ member).trans restorable
  | @performStale operation rest first =>
    have member : operation ∈ state.waiting ++ state.outstanding :=
      List.mem_append_right _ (delivers.stale operation (by simp [first]))
    exact (performAll_act replay _ member).trans restorable
  | complete linked arrives nothing =>
    have delivered := (delivers.completed replay linked arrives).delivered
    show performAll act (state.waiting ++ state.outstanding.tail) _ = _
    rw [nothing]
    exact delivered
  | @hold operation rest linked first =>
    obtain ⟨tail, _⟩ := delivers.answered replay linked first
    have same : (state.waiting ++ [operation]) ++ (rest ++ state.requested) =
        state.waiting ++ state.outstanding := by simp [linked.sent, first]
    show performAll act ((state.waiting ++ [operation]) ++ state.outstanding.tail) _ = _
    rw [tail, same]
    exact restorable
  | release => exact delivers.delivered
  | lose => exact restorable
  | connect idle => exact restorable
  | restore idle alone => exact restorable

/-- What is delivered and what can be sent again both last over several steps. -/
theorem Delivers.steps (replay : Replayable act) (delivers : state.Delivers act start)
    (taken : Relation.ReflTransGen (Step act) state after) :
    after.Delivers act start ∧ (state.Restorable act start → after.Restorable act start) := by
  -- The second part needs the first one at each step.
  induction taken with
  | refl => exact ⟨delivers, id⟩
  | tail _ last ih =>
    exact ⟨ih.1.step replay last, fun restorable => (ih.2 restorable).step replay ih.1 last⟩

end Resend
