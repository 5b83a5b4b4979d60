import Mathlib.Logic.Relation

/-!
# Runs of a deterministic labelled machine

A machine is a partial step function: an action that is disabled in a state
has no successor.  All nondeterminism sits in the action list, so one action
list is one interleaving.  `Visits` speaks about the states of a run and
`Along` about its steps; the rules below turn a step lemma into a statement
about whole runs.
-/

namespace Transition

universe u v

variable {σ : Type u} {α : Type v}

-- runs with one and with two parties number them by `Fin`
instance oneParty : @NeZero Nat Zero.ofOfNat0 1 := ⟨Nat.one_ne_zero⟩

instance twoParties : @NeZero Nat Zero.ofOfNat0 2 := ⟨Nat.succ_ne_zero 1⟩

/-- Execute an action list.  A disabled action makes the run undefined. -/
def run (step : σ → α → Option σ) : σ → List α → Option σ
  | state, [] => some state
  | state, action :: actions =>
      (step state action).bind fun next => run step next actions

/-- Every state passed by the enabled part of the run satisfies `good`. -/
def Visits (step : σ → α → Option σ) (good : σ → Prop) :
    σ → List α → Prop
  | state, [] => good state
  | state, action :: actions =>
      good state ∧
        ∀ next, step state action = some next →
          Visits step good next actions

/-- Every step taken by the run satisfies `allowed` in the state before it. -/
def Along (step : σ → α → Option σ) (allowed : σ → α → Prop) :
    σ → List α → Prop
  | _, [] => True
  | state, action :: actions =>
      ∀ next, step state action = some next →
        allowed state action ∧ Along step allowed next actions

section Rules

variable {step : σ → α → Option σ}

@[simp] theorem run_nil (state : σ) :
    run step state [] = some state :=
  rfl

theorem run_cons (state : σ) (action : α) (actions : List α) :
    run step state (action :: actions) =
      (step state action).bind fun next => run step next actions :=
  rfl

theorem run_cons_eq_some_iff {state final : σ} {action : α}
    {actions : List α} :
    run step state (action :: actions) = some final ↔
      ∃ next, step state action = some next ∧
        run step next actions = some final := by
  rw [run_cons]
  exact Option.bind_eq_some_iff

theorem run_append (state : σ) (first second : List α) :
    run step state (first ++ second) =
      (run step state first).bind fun next => run step next second := by
  induction first generalizing state with
  | nil => rfl
  | cons action actions ih =>
      rw [List.cons_append, run_cons, run_cons, Option.bind_assoc]
      congr 1
      funext next
      exact ih next

theorem exists_run_of_decide {start : σ} {actions : List α}
    {reached : σ → Prop} [DecidablePred reached]
    (result : (run step start actions).map (fun final =>
      decide (reached final)) = some true) :
    ∃ final, run step start actions = some final ∧ reached final := by
  obtain ⟨final, runResult, holds⟩ := Option.map_eq_some_iff.mp result
  exact ⟨final, runResult, of_decide_eq_true holds⟩

theorem Visits.head {good : σ → Prop} {state : σ} {actions : List α}
    (visits : Visits step good state actions) : good state := by
  cases actions with
  | nil => exact visits
  | cons action actions => exact visits.1

theorem Visits.final {good : σ → Prop} {state final : σ}
    {actions : List α} (visits : Visits step good state actions)
    (reached : run step state actions = some final) : good final := by
  induction actions generalizing state with
  | nil =>
      cases reached
      exact visits
  | cons action actions ih =>
      obtain ⟨next, taken, later⟩ := run_cons_eq_some_iff.mp reached
      exact ih (visits.2 next taken) later

theorem Visits.mono {good weaker : σ → Prop} {state : σ}
    {actions : List α}
    (implies : ∀ state, good state → weaker state)
    (visits : Visits step good state actions) :
    Visits step weaker state actions := by
  induction actions generalizing state with
  | nil => exact implies state visits
  | cons action actions ih =>
      exact ⟨implies state visits.1, fun next stepResult =>
        ih (visits.2 next stepResult)⟩

/-- Invariant rule: an invariant kept by every allowed step holds in every
state of a run that takes allowed steps only. -/
theorem visits_of_along (invariant : σ → Prop)
    {allowed : σ → α → Prop}
    (preserved : ∀ state action next, invariant state →
      allowed state action → step state action = some next →
        invariant next)
    {start : σ} (holds : invariant start) {actions : List α}
    (along : Along step allowed start actions) :
    Visits step invariant start actions := by
  induction actions generalizing start with
  | nil => exact holds
  | cons action actions ih =>
      refine ⟨holds, fun next stepResult => ?_⟩
      obtain ⟨here, later⟩ := along next stepResult
      exact ih (preserved start action next holds here stepResult) later

theorem visits_of_preserved (invariant : σ → Prop)
    (preserved : ∀ state action next, invariant state →
      step state action = some next → invariant next)
    {start : σ} (holds : invariant start) (actions : List α) :
    Visits step invariant start actions := by
  induction actions generalizing start with
  | nil => exact holds
  | cons action actions ih =>
      exact ⟨holds, fun next stepResult =>
        ih (preserved start action next holds stepResult)⟩

/-- Step rule: what an invariant implies about each allowed step holds
along the whole run. -/
theorem along_of_preserved (invariant : σ → Prop)
    {allowed conclusion : σ → α → Prop}
    (preserved : ∀ state action next, invariant state →
      allowed state action → step state action = some next →
        invariant next)
    (concludes : ∀ state action next, invariant state →
      allowed state action → step state action = some next →
        conclusion state action)
    {start : σ} (holds : invariant start) {actions : List α}
    (along : Along step allowed start actions) :
    Along step conclusion start actions := by
  induction actions generalizing start with
  | nil => trivial
  | cons action actions ih =>
      intro next stepResult
      obtain ⟨here, later⟩ := along next stepResult
      exact ⟨concludes start action next holds here stepResult,
        ih (preserved start action next holds here stepResult) later⟩

/-- Exactness rule: when a step into a good state that keeps `conclusion` had
to be allowed, the run stays good and keeps `conclusion` exactly when all its
steps are allowed.  `assumed` is what the environment promises about every
step. -/
theorem visits_and_along_iff (invariant : σ → Prop)
    {good : σ → Prop} {assumed conclusion allowed : σ → α → Prop}
    (sound : ∀ state, invariant state → good state)
    (preserved : ∀ state action next, invariant state →
      assumed state action → allowed state action →
        step state action = some next →
          invariant next ∧ conclusion state action)
    (exactly : ∀ state action next, invariant state →
      assumed state action → step state action = some next → good next →
        conclusion state action → allowed state action)
    {start : σ} (holds : invariant start) {actions : List α}
    (assumption : Along step assumed start actions) :
    Visits step good start actions ∧ Along step conclusion start actions ↔
      Along step allowed start actions := by
  induction actions generalizing start with
  | nil => exact ⟨fun _ => trivial, fun _ => ⟨sound start holds, trivial⟩⟩
  | cons action actions ih =>
      constructor
      · intro both next stepResult
        obtain ⟨promise, promises⟩ := assumption next stepResult
        have later := both.1.2 next stepResult
        obtain ⟨concluded, conclusions⟩ := both.2 next stepResult
        have here : allowed start action :=
          exactly start action next holds promise stepResult later.head
            concluded
        obtain ⟨kept, -⟩ :=
          preserved start action next holds promise here stepResult
        exact ⟨here, (ih kept promises).mp ⟨later, conclusions⟩⟩
      · intro along
        refine ⟨⟨sound start holds, fun next stepResult => ?_⟩,
          fun next stepResult => ?_⟩
        · obtain ⟨promise, promises⟩ := assumption next stepResult
          obtain ⟨here, later⟩ := along next stepResult
          obtain ⟨kept, -⟩ :=
            preserved start action next holds promise here stepResult
          exact ((ih kept promises).mpr later).1
        · obtain ⟨promise, promises⟩ := assumption next stepResult
          obtain ⟨here, later⟩ := along next stepResult
          obtain ⟨kept, concluded⟩ :=
            preserved start action next holds promise here stepResult
          exact ⟨concluded, ((ih kept promises).mpr later).2⟩

theorem along_of_forall {allowed : σ → α → Prop}
    (always : ∀ state action, allowed state action) (start : σ)
    (actions : List α) : Along step allowed start actions := by
  induction actions generalizing start with
  | nil => trivial
  | cons action actions ih =>
      exact fun next _ => ⟨always start action, ih next⟩

theorem visits_iff_along_of_assumed (invariant : σ → Prop)
    {good : σ → Prop} {assumed allowed : σ → α → Prop}
    (sound : ∀ state, invariant state → good state)
    (preserved : ∀ state action next, invariant state →
      assumed state action → allowed state action →
        step state action = some next → invariant next)
    (exactly : ∀ state action next, invariant state →
      assumed state action → step state action = some next → good next →
        allowed state action)
    {start : σ} (holds : invariant start) {actions : List α}
    (assumption : Along step assumed start actions) :
    Visits step good start actions ↔ Along step allowed start actions := by
  have trivially : Along step (fun _ _ => True) start actions :=
    along_of_forall (fun _ _ => True.intro) start actions
  have both : Visits step good start actions ∧
      Along step (fun _ _ => True) start actions ↔
        Along step allowed start actions := visits_and_along_iff
    invariant sound
    (fun state action next holds promise here taken =>
      ⟨preserved state action next holds promise here taken, trivial⟩)
    (fun state action next holds promise taken later _ =>
      exactly state action next holds promise taken later)
    holds assumption
  constructor
  · intro visits
    exact both.mp ⟨visits, trivially⟩
  · intro along
    exact (both.mpr along).1

theorem visits_iff_along (invariant : σ → Prop) {good : σ → Prop}
    {allowed : σ → α → Prop}
    (sound : ∀ state, invariant state → good state)
    (preserved : ∀ state action next, invariant state →
      allowed state action → step state action = some next →
        invariant next)
    (exactly : ∀ state action next, invariant state →
      step state action = some next → good next → allowed state action)
    {start : σ} (holds : invariant start) (actions : List α) :
    Visits step good start actions ↔ Along step allowed start actions :=
  visits_iff_along_of_assumed invariant sound
    (fun state action next holds _ => preserved state action next holds)
    (fun state action next holds _ => exactly state action next holds)
    holds (along_of_forall (fun _ _ => True.intro) start actions)

/-- Two properties of steps that an invariant makes equivalent hold along the
same runs. -/
theorem along_congr (invariant : σ → Prop)
    {assumed first second : σ → α → Prop}
    (preserved : ∀ state action next, invariant state →
      assumed state action → step state action = some next →
        invariant next)
    (same : ∀ state action next, invariant state →
      assumed state action → step state action = some next →
        (first state action ↔ second state action))
    {start : σ} (holds : invariant start) {actions : List α}
    (assumption : Along step assumed start actions) :
    Along step first start actions ↔ Along step second start actions := by
  induction actions generalizing start with
  | nil => exact Iff.rfl
  | cons action actions ih =>
      constructor
      · intro along next stepResult
        obtain ⟨promise, promises⟩ := assumption next stepResult
        obtain ⟨here, later⟩ := along next stepResult
        exact ⟨(same start action next holds promise stepResult).mp here,
          (ih (preserved start action next holds promise stepResult)
            promises).mp later⟩
      · intro along next stepResult
        obtain ⟨promise, promises⟩ := assumption next stepResult
        obtain ⟨here, later⟩ := along next stepResult
        exact ⟨(same start action next holds promise stepResult).mpr here,
          (ih (preserved start action next holds promise stepResult)
            promises).mpr later⟩

/-- Two properties of steps that are the same in the states reached by steps
with the second one hold along the same runs. -/
theorem along_iff_along (invariant : σ → Prop)
    {first second : σ → α → Prop}
    (preserved : ∀ state action next, invariant state →
      second state action → step state action = some next →
        invariant next)
    (same : ∀ state action next, invariant state →
      step state action = some next →
        (first state action ↔ second state action))
    {start : σ} (holds : invariant start) (actions : List α) :
    Along step first start actions ↔ Along step second start actions := by
  induction actions generalizing start with
  | nil => exact Iff.rfl
  | cons action actions ih =>
      constructor
      · intro along next stepResult
        obtain ⟨here, later⟩ := along next stepResult
        have allowed := (same start action next holds stepResult).mp here
        have kept := preserved start action next holds allowed stepResult
        exact ⟨allowed, (ih kept).mp later⟩
      · intro along next stepResult
        obtain ⟨allowed, later⟩ := along next stepResult
        have kept := preserved start action next holds allowed stepResult
        exact ⟨(same start action next holds stepResult).mpr allowed,
          (ih kept).mpr later⟩

theorem along_cons_of_some {allowed : σ → α → Prop} {state next : σ}
    {action : α} {actions : List α}
    (stepResult : step state action = some next) :
    Along step allowed state (action :: actions) ↔
      allowed state action ∧ Along step allowed next actions := by
  constructor
  · exact fun along => along next stepResult
  · intro both other result
    rw [stepResult] at result
    cases result
    exact both

instance decidableAlong {allowed : σ → α → Prop}
    [decide : ∀ state action, Decidable (allowed state action)] :
    (state : σ) → (actions : List α) →
      Decidable (Along step allowed state actions)
  | _, [] => .isTrue trivial
  | state, action :: actions =>
      match stepResult : step state action with
      | none => .isTrue fun next result => by
          rw [stepResult] at result
          cases result
      | some next =>
          match decide state action, decidableAlong next actions with
          | .isTrue here, .isTrue later =>
              .isTrue ((along_cons_of_some stepResult).mpr ⟨here, later⟩)
          | .isFalse not, _ =>
              .isFalse fun along =>
                not ((along_cons_of_some stepResult).mp along).1
          | _, .isFalse not =>
              .isFalse fun along =>
                not ((along_cons_of_some stepResult).mp along).2

theorem visits_cons_of_some {good : σ → Prop} {state next : σ} {action : α}
    {actions : List α} (stepResult : step state action = some next) :
    Visits step good state (action :: actions) ↔
      good state ∧ Visits step good next actions := by
  constructor
  · exact fun visits => ⟨visits.1, visits.2 next stepResult⟩
  · intro both
    refine ⟨both.1, ?_⟩
    intro other result
    rw [stepResult] at result
    cases result
    exact both.2

instance decidableVisits {good : σ → Prop}
    [decide : ∀ state, Decidable (good state)] :
    (state : σ) → (actions : List α) →
      Decidable (Visits step good state actions)
  | state, [] => decide state
  | state, action :: actions =>
      match stepResult : step state action, decide state with
      | none, .isTrue here => .isTrue ⟨here, fun next result => by
          rw [stepResult] at result
          cases result⟩
      | some next, .isTrue here =>
          match decidableVisits next actions with
          | .isTrue later =>
              .isTrue ((visits_cons_of_some stepResult).mpr ⟨here, later⟩)
          | .isFalse not =>
              .isFalse fun visits =>
                not ((visits_cons_of_some stepResult).mp visits).2
      | _, .isFalse not => .isFalse fun visits => not visits.1

def outputs {β : Type*} (step : σ → α → Option σ) (emit : σ → α → List β) :
    σ → List α → List β
  | _, [] => []
  | state, action :: actions =>
      match step state action with
      | some next => emit state action ++ outputs step emit next actions
      | none => []

/-- Freshness rule: when what is fresh in a state was fresh before, and a step
emits fresh values that differ from each other and from all that is fresh
after it, a run emits fresh and different values. -/
theorem outputs_fresh {β : Type*} {step : σ → α → Option σ}
    {emit : σ → α → List β} {differ : β → β → Prop}
    (fresh : σ → β → Prop)
    (shrinks : ∀ state action next value, step state action = some next →
      fresh next value → fresh state value)
    (emitted : ∀ state action next, step state action = some next →
      (emit state action).Pairwise differ ∧
        ∀ value ∈ emit state action, fresh state value ∧
          ∀ later, fresh next later → differ value later)
    (start : σ) (actions : List α) :
    (outputs step emit start actions).Pairwise differ ∧
      ∀ value ∈ outputs step emit start actions, fresh start value := by
  induction actions generalizing start with
  | nil => exact ⟨List.Pairwise.nil, by simp [outputs]⟩
  | cons action actions ih =>
      cases stepResult : step start action with
      | none => simp [outputs, stepResult]
      | some next =>
          obtain ⟨pairwise, later⟩ := ih next
          obtain ⟨first, news⟩ := emitted start action next stepResult
          simp only [outputs, stepResult]
          constructor
          · refine List.pairwise_append.mpr ⟨first, pairwise, ?_⟩
            exact fun value member other after =>
              (news value member).2 other (later other after)
          · intro value member
            rcases List.mem_append.mp member with here | after
            · exact (news value here).1
            · exact shrinks start action next value stepResult
                (later value after)

end Rules

end Transition
