import RawImport.Lib.Run

/-!
# Runs that remember their steps

A machine with its past beside its state, latest step first.  What a property
says about the history of a run is a recursive function of the past.
-/

namespace Transition

universe u v

variable {σ : Type u} {α : Type v}

/-- A state with the steps that led to it: the state before each step and its
action, latest first. -/
structure Tracked (σ : Type u) (α : Type v) where
  past : List (σ × α)
  now : σ

namespace Tracked

def start (now : σ) : Tracked σ α :=
  ⟨[], now⟩

end Tracked

def track (step : σ → α → Option σ) (state : Tracked σ α) (action : α) :
    Option (Tracked σ α) :=
  (step state.now action).map fun next =>
    ⟨(state.now, action) :: state.past, next⟩

section Rules

variable {step : σ → α → Option σ}

theorem track_eq_some_iff {state after : Tracked σ α} {action : α} :
    track step state action = some after ↔
      step state.now action = some after.now ∧
        after.past = (state.now, action) :: state.past := by
  unfold track
  constructor
  · intro taken
    obtain ⟨next, result, equality⟩ := Option.map_eq_some_iff.mp taken
    cases equality
    exact ⟨result, rfl⟩
  · intro both
    obtain ⟨result, past⟩ := both
    rw [result]
    cases after
    cases past
    rfl

theorem track_of_step {state : Tracked σ α} {action : α} {next : σ}
    (taken : step state.now action = some next) :
    track step state action =
      some ⟨(state.now, action) :: state.past, next⟩ :=
  track_eq_some_iff.mpr ⟨taken, rfl⟩

theorem run_track (state : Tracked σ α) (actions : List α) :
    (run (track step) state actions).map Tracked.now =
      run step state.now actions := by
  induction actions generalizing state with
  | nil => rfl
  | cons action actions ih =>
      rw [run_cons, run_cons]
      unfold track
      cases taken : step state.now action with
      | none => rfl
      | some next => exact ih ⟨(state.now, action) :: state.past, next⟩

/-- What a property of steps says about a step behind a first part of the
run. -/
theorem Along.last {allowed : σ → α → Prop} {state middle next : σ}
    {actions : List α} {action : α}
    (along : Along step allowed state (actions ++ [action]))
    (reached : run step state actions = some middle)
    (taken : step middle action = some next) : allowed middle action := by
  induction actions generalizing state with
  | nil =>
      cases reached
      exact (along next taken).1
  | cons first actions ih =>
      obtain ⟨after, firstTaken, later⟩ := run_cons_eq_some_iff.mp reached
      exact ih (along after firstTaken).2 later

end Rules

end Transition
