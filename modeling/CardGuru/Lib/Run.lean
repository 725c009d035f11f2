import Mathlib.Data.List.Basic

/-! Finite runs of a partial step function, recording each action with the state it was taken in. -/

variable {σ α : Type*}

/-- A finite run of a step function, with its history of states and actions. -/
inductive Run (step : σ → α → Option σ) (start : σ) : List (σ × α) → σ → Prop where
  /-- Nothing has happened yet. -/
  | nil : Run step start [] start
  /-- A run goes on by one action that the step function allows. -/
  | snoc {history : List (σ × α)} {state after : σ} {action : α}
      (earlier : Run step start history state) (taken : step state action = some after) :
      Run step start (history ++ [(state, action)]) after

namespace Run

variable {step : σ → α → Option σ} {start final : σ} {history : List (σ × α)}

/-- Every recorded action was taken in a state where the condition holds. -/
def Within (condition : σ → α → Prop) (history : List (σ × α)) : Prop :=
  -- The condition speaks about the state before the action.
  ∀ entry ∈ history, condition entry.1 entry.2

instance {condition : σ → α → Prop} [∀ state action, Decidable (condition state action)] :
    Decidable (Within condition history) :=
  inferInstanceAs (Decidable (∀ entry ∈ history, condition entry.1 entry.2))

/-- A history extended by one action is within a condition exactly when both parts are. -/
theorem within_snoc {condition : σ → α → Prop} {state : σ} {action : α} :
    Within condition (history ++ [(state, action)]) ↔
      Within condition history ∧ condition state action := by
  -- The last entry is the only one that is not in the earlier history.
  simp only [Within, List.mem_append, List.mem_singleton]
  constructor
  · intro all
    exact ⟨fun entry member => all entry (.inl member), all _ (.inr rfl)⟩
  · rintro ⟨earlier, last⟩ entry (member | rfl)
    · exact earlier entry member
    · exact last

/-- A property that holds at the start and survives every allowed step holds at the end. -/
theorem invariant {holds : σ → Prop} {condition : σ → α → Prop}
    (kept : ∀ {state after : σ} {action : α}, holds state → condition state action →
      step state action = some after → holds after)
    (run : Run step start history final) (initially : holds start)
    (within : Within condition history) : holds final := by
  -- Follow the run, carrying the condition of its earlier steps.
  induction run with
  | nil => exact initially
  | snoc earlier taken ih =>
    obtain ⟨before, last⟩ := within_snoc.mp within
    exact kept (ih before) last taken

/-- A property kept by every step holds at the end of a run that starts with it. -/
theorem invariant_always {holds : σ → Prop}
    (kept : ∀ {state after : σ} {action : α}, holds state →
      step state action = some after → holds after)
    (run : Run step start history final) (initially : holds start) : holds final := by
  -- No step is excluded.
  have all : Within (fun _ _ => True) history := fun _ _ => trivial
  exact run.invariant (fun now _ taken => kept now taken) initially all

/-- Every recorded action was taken in a state that an earlier part of the run reaches. -/
theorem reached {state : σ} {action : α} (run : Run step start history final)
    (member : (state, action) ∈ history) :
    ∃ earlier after, earlier <+: history ∧ Run step start earlier state ∧
      step state action = some after := by
  -- The entry is the last one or belongs to the earlier run.
  induction run with
  | nil => simp at member
  | snoc before taken ih =>
    rename_i past present next latest
    rcases List.mem_append.mp member with old | new
    · obtain ⟨earlier, after, continued, reaching, allowed⟩ := ih old
      exact ⟨earlier, after, continued.trans (List.prefix_append _ _), reaching, allowed⟩
    · cases List.mem_singleton.mp new
      exact ⟨past, next, List.prefix_append _ _, before, taken⟩

/-- A property of states holds whenever an action is taken if every run keeps it. -/
theorem invariant_at {holds : σ → Prop} {condition : σ → α → Prop}
    (kept : ∀ {state after : σ} {action : α}, holds state → condition state action →
      step state action = some after → holds after)
    (run : Run step start history final) (initially : holds start)
    (within : Within condition history) {state : σ} {action : α}
    (member : (state, action) ∈ history) : holds state := by
  -- The state is the end of an earlier run whose steps meet the condition too.
  obtain ⟨earlier, _, continued, reaching, _⟩ := run.reached member
  exact reaching.invariant kept initially fun entry inside =>
    within entry (continued.subset inside)

/-- Every recorded action satisfies a property, together with the history before it. -/
def Always (holds : List (σ × α) → σ → α → Prop) (history : List (σ × α)) : Prop :=
  -- The history before an action is what was recorded in front of it.
  ∀ earlier state action later, history = earlier ++ (state, action) :: later →
    holds earlier state action

/-- The same, read from the front, for a history that comes after another one. -/
def AlwaysAfter (holds : List (σ × α) → σ → α → Prop) :
    List (σ × α) → List (σ × α) → Prop
  -- Each entry joins what is before the next one.
  | _, [] => True
  | earlier, (state, action) :: later =>
    holds earlier state action ∧ AlwaysAfter holds (earlier ++ [(state, action)]) later

/-- Both readings agree. -/
theorem alwaysAfter_iff {holds : List (σ × α) → σ → α → Prop} (before : List (σ × α)) :
    AlwaysAfter holds before history ↔ ∀ earlier state action later,
      history = earlier ++ (state, action) :: later → holds (before ++ earlier) state action := by
  -- The first entry has nothing but the other history before it.
  induction history generalizing before with
  | nil => simp [AlwaysAfter]
  | cons entry rest ih =>
    obtain ⟨first, taken⟩ := entry
    simp only [AlwaysAfter, ih]
    constructor
    · intro ⟨head, tail⟩ earlier state action later splits
      cases earlier with
      | nil =>
        cases splits
        simpa using head
      | cons other earlier =>
        cases splits
        simpa using tail earlier state action later rfl
    · intro all
      refine ⟨by simpa using all [] first taken rest rfl, ?_⟩
      intro earlier state action later splits
      have reached := all ((first, taken) :: earlier) state action later (by simp [splits])
      simpa using reached

instance decidableAlwaysAfter {holds : List (σ × α) → σ → α → Prop}
    [∀ earlier state action, Decidable (holds earlier state action)] :
    ∀ before history, Decidable (AlwaysAfter holds before history)
  | _, [] => .isTrue trivial
  | before, (state, action) :: later =>
    have : Decidable (AlwaysAfter holds (before ++ [(state, action)]) later) :=
      decidableAlwaysAfter _ later
    inferInstanceAs (Decidable (_ ∧ _))

instance {holds : List (σ × α) → σ → α → Prop}
    [∀ earlier state action, Decidable (holds earlier state action)] :
    Decidable (Always holds history) :=
  decidable_of_iff (AlwaysAfter holds [] history) (alwaysAfter_iff [])

/-- An extended history satisfies a property of all actions exactly when both parts do. -/
theorem always_snoc {holds : List (σ × α) → σ → α → Prop} {state : σ} {action : α} :
    Always holds (history ++ [(state, action)]) ↔ Always holds history ∧ holds history state action := by
  constructor
  · intro all
    refine ⟨?_, all history state action [] rfl⟩
    intro earlier past done later splits
    exact all earlier past done (later ++ [(state, action)]) (by simp [splits])
  · intro ⟨before, last⟩ earlier past done later splits
    -- The action is the last one, or it was recorded before.
    rcases List.eq_nil_or_concat later with rfl | ⟨rest, entry, rfl⟩
    · obtain ⟨same, ends⟩ := List.append_inj' splits rfl
      cases ends
      exact same ▸ last
    · have longer : history ++ [(state, action)] =
          (earlier ++ (past, done) :: rest) ++ [entry] := by simp [splits]
      obtain ⟨same, _⟩ := List.append_inj' longer rfl
      exact before earlier past done rest same

/-- A property of the history and its last state that every step carries on holds at the end. -/
theorem invariant_history {holds : List (σ × α) → σ → Prop}
    {condition : List (σ × α) → σ → α → Prop}
    (kept : ∀ {earlier : List (σ × α)} {state after : σ} {action : α}, holds earlier state →
      condition earlier state action → step state action = some after →
        holds (earlier ++ [(state, action)]) after)
    (run : Run step start history final) (initially : holds [] start)
    (always : Always condition history) : holds history final := by
  -- Follow the run, carrying the condition of its earlier steps.
  induction run with
  | nil => exact initially
  | snoc earlier taken ih =>
    obtain ⟨before, last⟩ := always_snoc.mp always
    exact kept (ih before) last taken

/-- Properties that agree on every possible step agree on runs. -/
theorem always_congr {first second : List (σ × α) → σ → α → Prop}
    (each : ∀ {earlier : List (σ × α)} {state after : σ} {action : α},
      step state action = some after → (first earlier state action ↔ second earlier state action))
    (run : Run step start history final) : Always first history ↔ Always second history := by
  -- Every recorded action was possible.
  induction run with
  | nil => simp [Always]
  | snoc earlier taken ih =>
    rw [always_snoc, always_snoc, ih, each taken]

/-- All states that a run passes through, its end included. -/
def states (history : List (σ × α)) (final : σ) : List σ :=
  -- Each entry records the state it leaves.
  history.map Prod.fst ++ [final]

/-- What a recorded action leads to is one of the states of the run. -/
theorem after_mem_states {state after : σ} {action : α} (run : Run step start history final)
    (member : (state, action) ∈ history) (taken : step state action = some after) :
    after ∈ states history final := by
  -- The next entry starts in that state, or the run ends there.
  induction run with
  | nil => simp at member
  | snoc before last ih =>
    rename_i past present next latest
    rcases List.mem_append.mp member with old | new
    · have earlier := ih old
      simp only [states, List.map_append, List.mem_append, List.map_cons, List.map_nil] at earlier ⊢
      exact .inl earlier
    · cases List.mem_singleton.mp new
      rw [taken] at last
      cases last
      simp [states]

/-- A property kept by the steps of a run holds in all its states. -/
theorem invariant_states {holds : σ → Prop} {condition : σ → α → Prop}
    (kept : ∀ {state after : σ} {action : α}, holds state → condition state action →
      step state action = some after → holds after)
    (run : Run step start history final) (initially : holds start)
    (within : Within condition history) : ∀ state ∈ states history final, holds state := by
  -- A state is the end of the run or the start of one of its steps.
  intro state member
  rcases List.mem_append.mp member with passed | last
  · obtain ⟨⟨_, action⟩, entry, rfl⟩ := List.mem_map.mp passed
    exact run.invariant_at kept initially within entry
  · cases List.mem_singleton.mp last
    exact run.invariant kept initially within

/-- If a single step keeps a property exactly under a condition, all states of a run have it exactly
if all steps meet the condition. -/
theorem states_iff_within {kept holds : σ → Prop} {condition : σ → α → Prop}
    (preserved : ∀ {state after : σ} {action : α}, kept state →
      step state action = some after → kept after)
    (exactly : ∀ {state after : σ} {action : α}, kept state → holds state →
      step state action = some after → (holds after ↔ condition state action))
    (run : Run step start history final) (initially : kept start) (first : holds start) :
    (∀ state ∈ states history final, holds state) ↔ Within condition history := by
  -- The states of a longer run are those of the shorter one and its own end.
  induction run with
  | nil => simp [states, Within, first]
  | snoc earlier taken ih =>
    rename_i past present next latest
    have invariant := earlier.invariant_always preserved initially
    rw [within_snoc, ← ih]
    constructor
    · intro all
      have before : ∀ state ∈ states past present, holds state := by
        intro state member
        refine all state (List.mem_append_left _ ?_)
        simpa [states] using member
      have now : holds present := before present (by simp [states])
      exact ⟨before, (exactly invariant now taken).mp (all next (by simp [states]))⟩
    · intro ⟨before, last⟩ state member
      have now : holds present := before present (by simp [states])
      rcases List.mem_append.mp member with passed | latest
      · exact before state (by simpa [states] using passed)
      · cases List.mem_singleton.mp latest
        exact (exactly invariant now taken).mpr last

/-- The same for a property that also speaks about the history of the state. -/
theorem always_iff_always {kept holds : List (σ × α) → σ → Prop}
    {condition : List (σ × α) → σ → α → Prop}
    (preserved : ∀ {earlier : List (σ × α)} {state after : σ} {action : α}, kept earlier state →
      step state action = some after → kept (earlier ++ [(state, action)]) after)
    (exactly : ∀ {earlier : List (σ × α)} {state after : σ} {action : α}, kept earlier state →
      holds earlier state → step state action = some after →
        (holds (earlier ++ [(state, action)]) after ↔ condition earlier state action))
    (run : Run step start history final) (initially : kept [] start) (first : holds [] start) :
    (Always (fun earlier state _ => holds earlier state) history ∧ holds history final) ↔
      Always condition history := by
  -- The property at the end of the shorter run is part of what the longer one asks for.
  have invariant : ∀ {earlier : List (σ × α)} {state : σ}, Run step start earlier state →
      kept earlier state := by
    intro earlier state reaching
    induction reaching with
    | nil => exact initially
    | snoc _ taken ih => exact preserved ih taken
  induction run with
  | nil => simp [Always, first]
  | snoc earlier taken ih =>
    rw [always_snoc, always_snoc]
    constructor
    · intro ⟨before, last⟩
      exact ⟨ih.mp before, (exactly (invariant earlier) before.2 taken).mp last⟩
    · intro ⟨within, last⟩
      have before := ih.mpr within
      exact ⟨before, (exactly (invariant earlier) before.2 taken).mpr last⟩

/-- Run a list of actions from a state; an action that is not allowed stops it. -/
def exec (step : σ → α → Option σ) (state : σ) : List α → Option σ
  -- Actions are taken from the front.
  | [] => some state
  | action :: later => (step state action).bind fun after => exec step after later

/-- The history of running a list of actions. -/
def trace (step : σ → α → Option σ) (state : σ) : List α → List (σ × α)
  -- Recording stops at the first action that is not allowed.
  | [] => []
  | action :: later =>
    match step state action with
    | none => []
    | some after => (state, action) :: trace step after later

/-- Two runs that meet make one run. -/
theorem append {before : List (σ × α)} {middle : σ}
    (first : Run step start before middle) (second : Run step middle history final) :
    Run step start (before ++ history) final := by
  -- The second run is added action by action.
  induction second with
  | nil => simpa using first
  | snoc _ taken ih => simpa using ih.snoc taken

/-- Running a list of actions to its end is a run. -/
theorem of_exec {actions : List α} (ends : exec step start actions = some final) :
    Run step start (trace step start actions) final := by
  -- Each action taken puts one entry in front of the rest of the history.
  induction actions generalizing start with
  | nil =>
    obtain rfl : start = final := by simpa [exec] using ends
    exact .nil
  | cons action later ih =>
    cases taken : step start action with
    | none => simp [exec, taken] at ends
    | some after =>
      have rest : exec step after later = some final := by simpa [exec, taken] using ends
      have one : Run step start [(start, action)] after := .snoc .nil taken
      simpa [trace, taken] using one.append (ih rest)

/-- A test passed by the end of a list of possible actions is passed by the end of a run. -/
theorem of_exec_any {actions : List α} {test : σ → Bool}
    (passed : (exec step start actions).any test = true) :
    ∃ final, Run step start (trace step start actions) final ∧ test final = true := by
  -- The actions are possible, since there is an end to test.
  obtain ⟨final, ends, holds⟩ := (Option.any_eq_true _ _).mp passed
  exact ⟨final, of_exec ends, holds⟩

end Run
