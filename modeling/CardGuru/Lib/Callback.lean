import Mathlib.Data.List.Nodup
import Mathlib.Data.List.Perm.Subperm
import Mathlib.Order.Defs.PartialOrder

/-! Requests that are answered with a call of a callback, where an answer may reach the callback of a
later request only. -/

variable {ι κ β : Type*}

namespace Callback

section Bounds

variable [PartialOrder κ] [DecidableLE κ] {request : ι → Option κ} {call : ι → Option (κ × β)}
  {history : List ι}

/-- If every answered request is called back, no fewer are called back up to a bound than are
answered up to it. -/
private theorem answered_le_called (distinct : (history.filterMap request).Nodup)
    (each : ∀ asked ∈ history.filterMap request, asked ∈ (history.filterMap call).map Prod.fst)
    (bound : κ) : (history.filterMap request).countP (· ≤ bound) ≤
      ((history.filterMap call).map Prod.fst).countP (· ≤ bound) := by
  -- The answered requests up to the bound are distinct members of the called ones up to it.
  rw [List.countP_eq_length_filter, List.countP_eq_length_filter]
  apply (distinct.filter _).length_le_of_subset
  intro asked member
  obtain ⟨answered, below⟩ := List.mem_filter.mp member
  exact List.mem_filter.mpr ⟨each asked answered, below⟩

/-- If calls reach the answered request or a later one, no more requests are called back up to a bound
than are answered up to it. -/
private theorem called_le_answered (history : List ι)
    (later : ∀ event ∈ history, ∀ called, call event = some called →
      ∃ asked, request event = some asked ∧ asked ≤ called.1)
    (bound : κ) : ((history.filterMap call).map Prod.fst).countP (· ≤ bound) ≤
      (history.filterMap request).countP (· ≤ bound) := by
  -- Each event that adds to the first count adds to the second.
  induction history with
  | nil => simp
  | cons event rest ih =>
    have behind := ih fun other member => later other (List.mem_cons_of_mem _ member)
    cases called : call event with
    | none =>
      rw [List.filterMap_cons_none called]
      refine Nat.le_trans behind ?_
      exact List.Sublist.countP_le ((List.sublist_cons_self event rest).filterMap request)
    | some pair =>
      obtain ⟨asked, answered, notLater⟩ := later event List.mem_cons_self pair called
      rw [List.filterMap_cons_some called, List.filterMap_cons_some answered, List.map_cons,
        List.countP_cons, List.countP_cons]
      by_cases below : pair.1 ≤ bound
      · have alsoBelow : asked ≤ bound := le_trans notLater below
        simpa [below, alsoBelow] using behind
      · simp only [below, decide_false, Bool.false_eq_true, if_false]
        omega

end Bounds

variable [DecidableEq κ]

/-- What the callback of a request is called with in a history. -/
def callsOf (call : ι → Option (κ × β)) (history : List ι) (request : κ) : List β :=
  -- A call of the callback of another request is left out.
  history.filterMap fun event =>
    (call event).bind fun called => if called.1 = request then some called.2 else none

variable {request : ι → Option κ} {call : ι → Option (κ × β)} {history : List ι} {event : ι}
  {asked : κ} {value : β}

/-- The callback of a request is called with the values of the calls that name the request. -/
theorem mem_callsOf : value ∈ callsOf call history asked ↔
    ∃ event ∈ history, call event = some (asked, value) := by
  -- A call of another request contributes nothing.
  simp only [callsOf, List.mem_filterMap]
  constructor
  · intro ⟨event, member, found⟩
    cases called : call event with
    | none => simp [called] at found
    | some pair =>
      simp only [called, Option.bind_some, Option.ite_none_right_eq_some, Option.some.injEq] at found
      obtain ⟨rfl, rfl⟩ := found
      exact ⟨event, member, called⟩
  · intro ⟨event, member, called⟩
    exact ⟨event, member, by simp [called]⟩

/-- If every answer calls its own request back, a request is called back by its answer only. -/
private theorem callsOf_of_own (distinct : (history.filterMap request).Nodup)
    (own : ∀ event ∈ history, ∀ called, call event = some called → request event = some called.1)
    (member : event ∈ history) (called : call event = some (asked, value)) :
    callsOf call history asked = [value] := by
  -- The history is split at the answer, and neither part calls the request back.
  obtain ⟨before, after, rfl⟩ := List.append_of_mem member
  have answered := own event member (asked, value) called
  rw [List.filterMap_append, List.filterMap_cons_some answered, List.nodup_append] at distinct
  obtain ⟨_, tail, apart⟩ := distinct
  have silent : ∀ part : List ι, (∀ other ∈ part, other ∈ before ++ event :: after) →
      asked ∉ part.filterMap request → callsOf call part asked = [] := by
    intro part within absent
    rw [List.eq_nil_iff_forall_not_mem]
    intro other found
    obtain ⟨source, inside, called⟩ := mem_callsOf.mp found
    have named := own source (within source inside) _ called
    exact absent (List.mem_filterMap.mpr ⟨source, inside, named⟩)
  have first := silent before (fun _ inside => List.mem_append_left _ inside)
    fun inside => apart asked inside asked List.mem_cons_self rfl
  have last := silent after
    (fun _ inside => List.mem_append_right _ (List.mem_cons_of_mem _ inside))
    (List.nodup_cons.mp tail).1
  unfold callsOf at first last ⊢
  rw [List.filterMap_append, first, List.filterMap_cons_some (b := value) (by simp [called]), last]
  rfl

variable [PartialOrder κ] [DecidableLE κ]

/-- An answer that does not call its own request back leaves some request without a call. -/
private theorem own_of_all_called (distinct : (history.filterMap request).Nodup)
    (later : ∀ event ∈ history, ∀ called, call event = some called →
      ∃ asked, request event = some asked ∧ asked ≤ called.1)
    (each : ∀ asked ∈ history.filterMap request, asked ∈ (history.filterMap call).map Prod.fst)
    (member : event ∈ history) (answered : request event = some asked) :
    ∃ value, call event = some (asked, value) := by
  obtain ⟨before, after, rfl⟩ := List.append_of_mem member
  have enough := answered_le_called distinct each asked
  -- Up to the request itself, the other events call back no more than they answer.
  have first := called_le_answered before
    (fun other inside => later other (List.mem_append_left _ inside)) asked
  have last := called_le_answered after
    (fun other inside => later other (List.mem_append_right _ (List.mem_cons_of_mem _ inside))) asked
  cases called : call event with
  | none =>
    simp only [List.filterMap_append, List.filterMap_cons_none called,
      List.filterMap_cons_some answered, List.map_append, List.countP_append, List.countP_cons,
      le_refl, decide_true, if_true] at enough
    omega
  | some pair =>
    obtain ⟨other, same, notLater⟩ := later event member pair called
    cases answered.symm.trans same
    by_cases own : pair.1 = asked
    · exact ⟨pair.2, by rw [← own]⟩
    · have above : ¬ pair.1 ≤ asked := fun below => own (le_antisymm below notLater)
      simp only [List.filterMap_append, List.filterMap_cons_some called,
        List.filterMap_cons_some answered, List.map_append, List.map_cons, List.countP_append,
        List.countP_cons, le_refl, decide_true, if_true, above, decide_false, Bool.false_eq_true,
        if_false] at enough
      omega

/-- Every answered request is called back exactly once, and as its answer asks for, exactly if every
answer calls its own request back as it asks for. -/
theorem called_once_iff {asks : ι → β → Prop} (distinct : (history.filterMap request).Nodup)
    (later : ∀ event ∈ history, ∀ called, call event = some called →
      ∃ asked, request event = some asked ∧ asked ≤ called.1) :
    (∀ event ∈ history, ∀ asked, request event = some asked →
        ∃ value, callsOf call history asked = [value] ∧ asks event value) ↔
      ∀ event ∈ history, ∀ asked, request event = some asked →
        ∃ value, call event = some (asked, value) ∧ asks event value := by
  constructor
  · intro once event member asked answered
    obtain ⟨value, only, asksFor⟩ := once event member asked answered
    have each : ∀ asked ∈ history.filterMap request,
        asked ∈ (history.filterMap call).map Prod.fst := by
      intro asked inside
      obtain ⟨source, within, named⟩ := List.mem_filterMap.mp inside
      obtain ⟨value, only, _⟩ := once source within asked named
      obtain ⟨caller, calling, called⟩ := mem_callsOf.mp (only ▸ List.mem_singleton_self value)
      exact List.mem_map.mpr ⟨_, List.mem_filterMap.mpr ⟨caller, calling, called⟩, rfl⟩
    obtain ⟨own, called⟩ := own_of_all_called distinct later each member answered
    -- The value of the own call is the only one that the callback is called with.
    have listed : own ∈ callsOf call history asked := mem_callsOf.mpr ⟨event, member, called⟩
    rw [only, List.mem_singleton] at listed
    exact ⟨own, called, listed ▸ asksFor⟩
  · intro own event member asked answered
    obtain ⟨value, called, asksFor⟩ := own event member asked answered
    refine ⟨value, callsOf_of_own distinct ?_ member called, asksFor⟩
    intro other inside pair calling
    obtain ⟨named, answers, _⟩ := later other inside pair calling
    obtain ⟨_, same, _⟩ := own other inside named answers
    cases calling.symm.trans same
    exact answers

end Callback
