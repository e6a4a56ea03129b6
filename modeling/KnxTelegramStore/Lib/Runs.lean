import Mathlib.Data.List.Defs
import Mathlib.Logic.Function.Basic

/-!
Runs of a machine that is driven by events: one partial step function, a run
as the state after a list of events, and the rule that carries what one step
preserves to every state a run reaches. A step that is not enabled has no
successor, and neither has a run that contains one.
-/
namespace EventMachine

variable {σ ε : Type*} {step : σ → ε → Option σ} {ok : σ → ε → Prop}
variable {s middle after : σ} {before rest : List ε}

/-- The state after a list of events, if each was enabled in its turn. -/
def run (step : σ → ε → Option σ) : σ → List ε → Option σ
  | s, [] => some s
  | s, event :: rest => (step s event).bind fun next => run step next rest

/-- Every event of the run meets `ok` in the state that takes it. -/
def Along (step : σ → ε → Option σ) (ok : σ → ε → Prop) : σ → List ε → Prop
  | _, [] => True
  | s, event :: rest => ok s event ∧ ∀ next, step s event = some next → Along step ok next rest

theorem run_cons {event : ε} :
    run step s (event :: rest) = some after ↔
      ∃ next, step s event = some next ∧ run step next rest = some after := by
  simp [run, Option.bind_eq_some_iff]

/-- A run splits wherever its list of events does. -/
theorem run_append :
    run step s (before ++ rest) = some after ↔
      ∃ middle, run step s before = some middle ∧ run step middle rest = some after := by
  induction before generalizing s with
  | nil => simp [run]
  | cons event before ih =>
    rw [List.cons_append, run_cons]
    constructor
    · rintro ⟨next, taken, ran⟩
      obtain ⟨middle, reached, last⟩ := ih.mp ran
      exact ⟨middle, run_cons.mpr ⟨next, taken, reached⟩, last⟩
    · rintro ⟨middle, ran, last⟩
      obtain ⟨next, taken, reached⟩ := run_cons.mp ran
      exact ⟨next, taken, ih.mpr ⟨middle, reached, last⟩⟩

/-- A condition that every step of a run meets is met up to any point of it
and from there on. -/
theorem along_append (held : Along step ok s (before ++ rest))
    (reached : run step s before = some middle) :
    Along step ok s before ∧ Along step ok middle rest := by
  induction before generalizing s with
  | nil =>
    cases reached
    exact ⟨trivial, held⟩
  | cons event before ih =>
    obtain ⟨next, taken, ran⟩ := run_cons.mp reached
    obtain ⟨first, others⟩ := held
    refine ⟨⟨first, fun other took => ?_⟩, (ih (others next taken) ran).2⟩
    cases taken.symm.trans took
    exact (ih (others next taken) ran).1

/-- Event by event: the condition is met by each of them in the state that the
run is in by then. -/
theorem along_iff {events : List ε} :
    Along step ok s events ↔ ∀ before event rest middle, events = before ++ event :: rest →
      run step s before = some middle → ok middle event := by
  constructor
  · rintro held before event rest middle rfl reached
    exact (along_append held reached).2.1
  · intro each
    induction events generalizing s with
    | nil => trivial
    | cons event rest ih =>
      refine ⟨each [] event rest s rfl rfl, fun next taken => ih fun before event' rest' middle split reached => ?_⟩
      apply each (event :: before) event' rest' middle
      · rw [split, List.cons_append]
      · exact run_cons.mpr ⟨next, taken, reached⟩

/-- A condition on the events alone. -/
theorem along_of_mem {events : List ε} (all : ∀ event ∈ events, ∀ s, ok s event) :
    Along step ok s events := by
  induction events generalizing s with
  | nil => trivial
  | cons event rest ih =>
    exact ⟨all event List.mem_cons_self s,
      fun _ _ => ih fun other mem => all other (List.mem_cons_of_mem _ mem)⟩

/-- **The invariant rule.** What holds at the start and is kept by every step
that meets the run's condition holds wherever the run ends. -/
theorem run_invariant {I : σ → Prop} {events : List ε}
    (keep : ∀ s event next, I s → ok s event → step s event = some next → I next)
    (start : I s) (held : Along step ok s events) (ran : run step s events = some after) :
    I after := by
  induction events generalizing s with
  | nil =>
    cases ran
    exact start
  | cons event rest ih =>
    obtain ⟨next, taken, later⟩ := run_cons.mp ran
    exact ih (keep s event next start held.1 taken) (held.2 next taken) later

/-- The invariant rule for a run under no condition. -/
theorem run_keeps {I : σ → Prop} {events : List ε}
    (keep : ∀ s event next, I s → step s event = some next → I next)
    (start : I s) (ran : run step s events = some after) : I after := by
  have free : Along step (fun _ _ => True) s events := along_of_mem fun _ _ _ => trivial
  exact run_invariant (fun s event next held _ taken => keep s event next held taken) start free ran

/-- What a view of the state goes through, where every step acts on the view
alone. -/
theorem run_view {τ : Type*} {v : σ → τ} {effect : τ → ε → τ} {events : List ε}
    (acts : ∀ s event next, step s event = some next → v next = effect (v s) event)
    (ran : run step s events = some after) : v after = events.foldl effect (v s) := by
  induction events generalizing s with
  | nil =>
    cases ran
    rfl
  | cons event rest ih =>
    obtain ⟨next, taken, later⟩ := run_cons.mp ran
    rw [ih later, acts s event next taken, List.foldl_cons]

/-- What came to hold during a run came to hold at one of its steps. -/
theorem run_crossing {P : σ → Prop} {events : List ε} (ran : run step s events = some after)
    (fresh : ¬ P s) (holds : P after) :
    ∃ before event rest middle next, events = before ++ event :: rest ∧
      run step s before = some middle ∧ step middle event = some next ∧ ¬ P middle ∧ P next := by
  induction events generalizing s with
  | nil =>
    cases ran
    exact absurd holds fresh
  | cons event rest ih =>
    obtain ⟨next, taken, later⟩ := run_cons.mp ran
    by_cases crossed : P next
    · exact ⟨[], event, rest, s, next, rfl, rfl, taken, fresh, crossed⟩
    · obtain ⟨before, event', rest', middle, next', split, reached, taken', outside, inside⟩ :=
        ih later crossed
      exact ⟨event :: before, event', rest', middle, next', by rw [split, List.cons_append],
        run_cons.mpr ⟨next, taken, reached⟩, taken', outside, inside⟩

/-- **The simulation rule.** Where every step shows as some steps of another
machine, a run shows as a run of it. -/
theorem run_simulates {τ φ : Type*} {step' : τ → φ → Option τ} {I : σ → Prop} {v : σ → τ}
    {shows : ε → List φ → Prop} {events : List ε}
    (keep : ∀ s event next, I s → step s event = some next → I next)
    (each : ∀ s event next, I s → step s event = some next →
      ∃ steps, shows event steps ∧ run step' (v s) steps = some (v next))
    (start : I s) (ran : run step s events = some after) :
    ∃ shown, List.Forall₂ shows events shown ∧ run step' (v s) shown.flatten = some (v after) := by
  induction events generalizing s with
  | nil =>
    cases ran
    exact ⟨[], .nil, rfl⟩
  | cons event rest ih =>
    obtain ⟨next, taken, later⟩ := run_cons.mp ran
    obtain ⟨steps, first, reached⟩ := each s event next start taken
    obtain ⟨shown, others, ended⟩ := ih (keep s event next start taken) later
    exact ⟨steps :: shown, .cons first others, run_append.mpr ⟨v next, reached, ended⟩⟩

end EventMachine
