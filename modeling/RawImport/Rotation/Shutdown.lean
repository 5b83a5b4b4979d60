import Mathlib.Data.Finset.Basic
import RawImport.Lib.History

/-!
# Shutting the worker down

The worker loop of the rotation manager against `Stop`, with each wait taken
apart: the predicate is checked and the thread goes to sleep under the mutex,
while `Stop` sets its flag and notifies without it.  What a dispatch writes and
how long a deadline is makes no difference here.
-/

namespace RawImport

namespace Rotation

namespace Wakeup

open Transition

/-- A thread in `wait`: it holds the mutex before and behind the check of its
predicate, sleeps without it, and takes it again when it is woken. -/
inductive Wait where
  | checking
  | checked
  | blocked
  | woken
  deriving DecidableEq, Repr

/-- Where the worker stands: before the loop condition, before the mutex, in
`wait` or in `wait_until`, in the sweep, in `Dispatch`, or returned. -/
inductive Place where
  | top
  | entering
  | idle (wait : Wait)
  | sleeping (wait : Wait)
  | sweeping
  | dispatching
  | returned
  deriving DecidableEq, Repr

/-- Where `Stop` stands. -/
inductive Stopping where
  | uncalled
  | notifying
  | joining
  | joined
  deriving DecidableEq, Repr

/-- The manager; `unannounced` counts the calls of `Queue` that have released
the mutex and not yet notified. -/
structure State where
  pending : Finset Int := ∅
  unannounced : Nat := 0
  worker : Place := .top
  stop : Bool := false
  stopping : Stopping := .uncalled
  deriving DecidableEq

inductive Action where
  | queue (importId : Int)
  | announce
  | test
  | lock
  | check
  | block
  | wake
  | relock (timedOut : Bool)
  | dispatch (importId : Int)
  | dispatched
  | sweepEnd
  | stop
  | notifyStop
  | join
  deriving DecidableEq, Repr

namespace State

def mutexHeld (state : State) : Bool :=
  match state.worker with
  | .idle .checking => true
  | .idle .checked => true
  | .sleeping .checking => true
  | .sleeping .checked => true
  | .sweeping => true
  | _ => false

/-- `cv.notify_all()` wakes the worker if it sleeps. -/
def notifyAll (state : State) : State :=
  match state.worker with
  | .idle .blocked => { state with worker := .idle .woken }
  | .sleeping .blocked => { state with worker := .sleeping .woken }
  | _ => state

end State

/-- The order of the steps is free: a call of `Queue` may come at any time. -/
def step (state : State) : Action → Option State
  | .queue importId =>
      if state.mutexHeld = false then
        some { state with
          pending := insert importId state.pending
          unannounced := state.unannounced + 1 }
      else none
  | .announce =>
      match state.unannounced with
      | 0 => none
      | calls + 1 => some { state with unannounced := calls }.notifyAll
  | .test =>
      if state.worker = .top then
        some { state with
          worker := if state.stop then .returned else .entering }
      else none
  | .lock =>
      if state.worker = .entering then
        some { state with
          worker :=
            if state.pending = ∅ then .idle .checking
            else .sleeping .checking }
      else none
  | .check =>
      match state.worker with
      | .idle .checking =>
          if state.stop = true ∨ state.pending ≠ ∅ then
            some { state with worker := .top }
          else some { state with worker := .idle .checked }
      | .sleeping .checking =>
          if state.stop then some { state with worker := .sweeping }
          else some { state with worker := .sleeping .checked }
      | _ => none
  | .block =>
      match state.worker with
      | .idle .checked => some { state with worker := .idle .blocked }
      | .sleeping .checked =>
          some { state with worker := .sleeping .blocked }
      | _ => none
  | .wake =>
      -- a spurious wake-up, or the deadline of `wait_until`
      match state.worker with
      | .idle .blocked => some { state with worker := .idle .woken }
      | .sleeping .blocked =>
          some { state with worker := .sleeping .woken }
      | _ => none
  | .relock timedOut =>
      match state.worker with
      | .idle .woken => some { state with worker := .idle .checking }
      | .sleeping .woken =>
          some { state with
            worker := if timedOut then .sweeping else .sleeping .checking }
      | _ => none
  | .dispatch importId =>
      if state.worker = .sweeping ∧ importId ∈ state.pending then
        some { state with
          pending := state.pending.erase importId
          worker := .dispatching }
      else none
  | .dispatched =>
      if state.worker = .dispatching then
        some { state with worker := .sweeping }
      else none
  | .sweepEnd =>
      if state.worker = .sweeping then some { state with worker := .top }
      else none
  | .stop =>
      if state.stop then some state
      else some { state with stop := true, stopping := .notifying }
  | .notifyStop =>
      if state.stopping = .notifying then
        some { state with stopping := .joining }.notifyAll
      else none
  | .join =>
      if state.stopping = .joining ∧ state.worker = .returned then
        some { state with stopping := .joined }
      else none

/-! ## The lost wake-up -/

/-- The notification of `Stop` is past. -/
def Notified (state : State) : Prop :=
  state.stopping = .joining ∨ state.stopping = .joined

instance (state : State) : Decidable (Notified state) :=
  inferInstanceAs (Decidable (_ ∨ _))

/-- The worker sleeps without a deadline, and `Stop` has done all it does to
wake it. -/
def Hangs (state : State) : Prop :=
  state.worker = .idle .blocked ∧ state.stop = true ∧ Notified state

instance (state : State) : Decidable (Hangs state) :=
  inferInstanceAs (Decidable (_ ∧ _ ∧ _))

/-- `Stop` notified behind the latest check of a predicate. -/
def notifiedSinceCheck : List (State × Action) → Bool
  | [] => false
  | (_, .check) :: _ => false
  | (_, .notifyStop) :: _ => true
  | _ :: past => notifiedSinceCheck past

/-- A worker that goes to sleep was not notified between its check and the
sleep. -/
def Unmissed (tracked : Tracked State Action) : Action → Prop
  | .block =>
      tracked.now.worker = .idle .checked →
        notifiedSinceCheck tracked.past = false
  | _ => True

/-- What holds before the wake-up is lost: the flag comes before the
notification, a worker behind its check has missed what came since, and one
that sleeps has missed nothing. -/
structure Awake (tracked : Tracked State Action) : Prop where
  flagged : Notified tracked.now → tracked.now.stop = true
  notifying : tracked.now.stopping = .notifying → tracked.now.stop = true
  behind : tracked.now.worker = .idle .checked →
    (Notified tracked.now ↔ notifiedSinceCheck tracked.past = true)
  reachable : tracked.now.worker = .idle .blocked → ¬Notified tracked.now

theorem awake_initial : Awake (.start {}) where
  flagged notified := by
    rcases notified with joining | joined
    · cases joining
    · cases joined
  notifying started := by cases started
  behind checked := by cases checked
  reachable blocked := by cases blocked

/-- What a step leaves alone that neither checks nor sleeps and is no part of
`Stop` before its notification. -/
structure Keeps (state next : State) : Prop where
  stop : next.stop = state.stop
  notified : Notified next ↔ Notified state
  notifying : next.stopping = .notifying → state.stopping = .notifying
  checked : next.worker = .idle .checked → state.worker = .idle .checked
  blocked : next.worker = .idle .blocked → state.worker = .idle .blocked

theorem Keeps.of_worker {state next : State} (stop : next.stop = state.stop)
    (stopping : next.stopping = state.stopping)
    (checked : next.worker = .idle .checked → state.worker = .idle .checked)
    (blocked : next.worker = .idle .blocked →
      state.worker = .idle .blocked) : Keeps state next where
  stop := stop
  notified := by
    unfold Notified
    rw [stopping]
  notifying started := stopping ▸ started
  checked := checked
  blocked := blocked

theorem Keeps.of_elsewhere {state next : State}
    (stop : next.stop = state.stop) (stopping : next.stopping = state.stopping)
    (checked : next.worker ≠ .idle .checked)
    (blocked : next.worker ≠ .idle .blocked) : Keeps state next :=
  .of_worker stop stopping (fun reached => absurd reached checked)
    fun reached => absurd reached blocked

theorem Keeps.refl (state : State) : Keeps state state :=
  .of_worker rfl rfl id id

theorem Keeps.trans {first second third : State}
    (earlier : Keeps first second) (later : Keeps second third) :
    Keeps first third where
  stop := later.stop.trans earlier.stop
  notified := later.notified.trans earlier.notified
  notifying := earlier.notifying ∘ later.notifying
  checked := earlier.checked ∘ later.checked
  blocked := earlier.blocked ∘ later.blocked

theorem keeps_notifyAll (state : State) : Keeps state state.notifyAll := by
  unfold State.notifyAll
  split
  · exact .of_elsewhere rfl rfl nofun nofun
  · exact .of_elsewhere rfl rfl nofun nofun
  · exact .refl state

theorem notifyAll_awake (state : State) (wait : Place)
    (asleep : wait = .idle .blocked) : state.notifyAll.worker ≠ wait := by
  subst asleep
  unfold State.notifyAll
  split
  · intro woken
    cases woken
  · intro woken
    cases woken
  · rename_i awake _
    exact awake

/-- The actions that the invariant speaks about. -/
def Action.isNeutral : Action → Bool
  | .check => false
  | .block => false
  | .stop => false
  | .notifyStop => false
  | _ => true

theorem keeps_of_neutral {state next : State} {action : Action}
    (neutral : action.isNeutral = true)
    (taken : step state action = some next) : Keeps state next := by
  cases action with
  | check => cases neutral
  | block => cases neutral
  | stop => cases neutral
  | notifyStop => cases neutral
  | queue importId =>
      simp only [step] at taken
      split at taken
      · cases taken
        exact .of_worker rfl rfl id id
      · cases taken
  | announce =>
      simp only [step] at taken
      split at taken
      · cases taken
      · rename_i calls _
        cases taken
        have released : Keeps state { state with unannounced := calls } :=
          .of_worker rfl rfl id id
        exact released.trans (keeps_notifyAll _)
  | test =>
      simp only [step] at taken
      split at taken
      · cases taken
        refine .of_elsewhere rfl rfl ?_ ?_
        · cases state.stop <;> simp
        · cases state.stop <;> simp
      · cases taken
  | lock =>
      simp only [step] at taken
      split at taken
      · cases taken
        refine .of_elsewhere rfl rfl ?_ ?_
        · by_cases empty : state.pending = ∅ <;> simp [empty]
        · by_cases empty : state.pending = ∅ <;> simp [empty]
      · cases taken
  | wake =>
      simp only [step] at taken
      split at taken
      · cases taken
        exact .of_elsewhere rfl rfl nofun nofun
      · cases taken
        exact .of_elsewhere rfl rfl nofun nofun
      · cases taken
  | relock timedOut =>
      simp only [step] at taken
      split at taken
      · cases taken
        exact .of_elsewhere rfl rfl nofun nofun
      · cases taken
        cases timedOut with
        | true => exact .of_elsewhere rfl rfl nofun nofun
        | false => exact .of_elsewhere rfl rfl nofun nofun
      · cases taken
  | dispatch importId =>
      simp only [step] at taken
      split at taken
      · cases taken
        exact .of_elsewhere rfl rfl nofun nofun
      · cases taken
  | dispatched =>
      simp only [step] at taken
      split at taken
      · cases taken
        exact .of_elsewhere rfl rfl nofun nofun
      · cases taken
  | sweepEnd =>
      simp only [step] at taken
      split at taken
      · cases taken
        exact .of_elsewhere rfl rfl nofun nofun
      · cases taken
  | join =>
      simp only [step] at taken
      split at taken
      · rename_i ready
        cases taken
        exact {
          stop := rfl
          notified := by simp [Notified, ready.1]
          notifying := fun started => by cases started
          checked := id
          blocked := id }
      · cases taken

theorem notifiedSinceCheck_of_neutral {action : Action}
    (neutral : action.isNeutral = true) (state : State)
    (past : List (State × Action)) :
    notifiedSinceCheck ((state, action) :: past) =
      notifiedSinceCheck past := by
  cases action with
  | check => cases neutral
  | notifyStop => cases neutral
  | _ => rfl

theorem awake_of_neutral {tracked after : Tracked State Action}
    {action : Action} (neutral : action.isNeutral = true)
    (awake : Awake tracked)
    (taken : track step tracked action = some after) : Awake after := by
  obtain ⟨moved, past⟩ := track_eq_some_iff.mp taken
  have kept := keeps_of_neutral neutral moved
  exact {
    flagged := fun notified =>
      kept.stop.trans (awake.flagged (kept.notified.mp notified))
    notifying := fun started =>
      kept.stop.trans (awake.notifying (kept.notifying started))
    behind := fun checked => by
      rw [past, notifiedSinceCheck_of_neutral neutral, kept.notified]
      exact awake.behind (kept.checked checked)
    reachable := fun blocked notified =>
      awake.reachable (kept.blocked blocked) (kept.notified.mp notified) }

theorem awake_of_place {tracked after : Tracked State Action}
    {place : Place} (awake : Awake tracked)
    (next : after.now = { tracked.now with worker := place })
    (behind : place = .idle .checked →
      (Notified tracked.now ↔ notifiedSinceCheck after.past = true))
    (reachable : place = .idle .blocked → ¬Notified tracked.now) :
    Awake after := by
  have kept : Notified after.now ↔ Notified tracked.now := by
    rw [next]
    rfl
  have stop : after.now.stop = tracked.now.stop := by rw [next]
  have worker : after.now.worker = place := by rw [next]
  exact {
    flagged := fun notified => stop.trans (awake.flagged (kept.mp notified))
    notifying := fun started => by
      rw [next] at started
      exact stop.trans (awake.notifying started)
    behind := fun checked => kept.trans (behind (worker.symm.trans checked))
    reachable := fun blocked notified =>
      reachable (worker.symm.trans blocked) (kept.mp notified) }

/-- A predicate that fails saw no flag, so the notification is still to
come. -/
theorem awake_check {tracked after : Tracked State Action}
    (awake : Awake tracked)
    (taken : track step tracked .check = some after) : Awake after := by
  obtain ⟨moved, past⟩ := track_eq_some_iff.mp taken
  simp only [step] at moved
  split at moved
  · split at moved
    · exact awake_of_place awake (Option.some.inj moved).symm
        nofun nofun
    · rename_i fails
      refine awake_of_place awake (Option.some.inj moved).symm ?_
        fun reached => by cases reached
      intro _
      have forgotten : notifiedSinceCheck after.past = false := by
        rw [past]
        rfl
      rw [forgotten]
      constructor
      · intro notified
        exact absurd (.inl (awake.flagged notified)) fails
      · intro impossible
        cases impossible
  · split at moved
    · exact awake_of_place awake (Option.some.inj moved).symm
        nofun nofun
    · exact awake_of_place awake (Option.some.inj moved).symm
        nofun nofun
  · cases moved

theorem awake_block {tracked after : Tracked State Action}
    (awake : Awake tracked) (unmissed : Unmissed tracked .block)
    (taken : track step tracked .block = some after) : Awake after := by
  obtain ⟨moved, past⟩ := track_eq_some_iff.mp taken
  simp only [step] at moved
  split at moved
  · rename_i checked
    refine awake_of_place awake (Option.some.inj moved).symm
      (fun reached => by cases reached) ?_
    intro _ notified
    have missed := (awake.behind checked).mp notified
    rw [unmissed checked] at missed
    cases missed
  · exact awake_of_place awake (Option.some.inj moved).symm
      nofun nofun
  · cases moved

/-- `Stop` goes on behind the exchange for the first caller only, whose
notification is still to come. -/
theorem awake_stop {tracked after : Tracked State Action}
    (awake : Awake tracked)
    (taken : track step tracked .stop = some after) : Awake after := by
  obtain ⟨moved, past⟩ := track_eq_some_iff.mp taken
  simp only [step] at moved
  split at moved
  · exact awake_of_place awake (Option.some.inj moved).symm
      (fun checked => by
        rw [past]
        exact awake.behind checked)
      awake.reachable
  · rename_i unset
    have early : ¬Notified tracked.now :=
      fun notified => unset (awake.flagged notified)
    have next := (Option.some.inj moved).symm
    have unnotified : ¬Notified after.now := by
      rw [next]
      intro notified
      rcases notified with joining | joined
      · cases joining
      · cases joined
    exact {
      flagged := fun notified => absurd notified unnotified
      notifying := fun _ => by rw [next]
      behind := fun checked => by
        rw [past]
        rw [next] at checked
        have same := awake.behind checked
        constructor
        · intro notified
          exact absurd notified unnotified
        · intro since
          exact absurd (same.mpr since) early
      reachable := fun _ => unnotified }

theorem awake_notifyStop {tracked after : Tracked State Action}
    (awake : Awake tracked)
    (taken : track step tracked .notifyStop = some after) :
    Awake after := by
  obtain ⟨moved, past⟩ := track_eq_some_iff.mp taken
  simp only [step] at moved
  split at moved
  · rename_i started
    have next := (Option.some.inj moved).symm
    have kept := keeps_notifyAll { tracked.now with stopping := .joining }
    rw [← next] at kept
    have notified : Notified after.now := kept.notified.mpr (.inl rfl)
    exact {
      flagged := fun _ => kept.stop.trans (awake.notifying started)
      notifying := fun again => by cases kept.notifying again
      behind := fun _ => by
        rw [past]
        exact iff_of_true notified rfl
      reachable := fun blocked => by
        rw [next] at blocked
        exact absurd blocked (notifyAll_awake _ _ rfl) }
  · cases moved

theorem awake_step {tracked after : Tracked State Action}
    {action : Action} (awake : Awake tracked)
    (unmissed : Unmissed tracked action)
    (taken : track step tracked action = some after) : Awake after := by
  cases action with
  | check => exact awake_check awake taken
  | block => exact awake_block awake unmissed taken
  | stop => exact awake_stop awake taken
  | notifyStop => exact awake_notifyStop awake taken
  | _ => exact awake_of_neutral rfl awake taken

theorem Awake.not_hangs {tracked : Tracked State Action}
    (awake : Awake tracked) : ¬Hangs tracked.now := by
  intro hangs
  obtain ⟨blocked, _, notified⟩ := hangs
  exact awake.reachable blocked notified

theorem unmissed_of_not_hangs {tracked after : Tracked State Action}
    {action : Action} (awake : Awake tracked)
    (taken : track step tracked action = some after)
    (runs : ¬Hangs after.now) : Unmissed tracked action := by
  cases action with
  | block =>
      obtain ⟨moved, past⟩ := track_eq_some_iff.mp taken
      intro checked
      simp only [step, checked] at moved
      have next := (Option.some.inj moved).symm
      rw [Bool.eq_false_iff]
      intro missed
      have notified := (awake.behind checked).mpr missed
      apply runs
      rw [next]
      exact ⟨rfl, awake.flagged notified, notified⟩
  | _ => exact True.intro

/-- The shutdown misses no wake-up exactly when the worker never goes to sleep
with the notification of `Stop` between its check and the sleep. -/
theorem stop_wakes_iff (actions : List Action) :
    Visits (track step) (fun tracked => ¬Hangs tracked.now)
        (.start {}) actions ↔
      Along (track step) Unmissed (.start {}) actions :=
  visits_iff_along Awake (fun _ awake => awake.not_hangs)
    (fun _ _ _ awake unmissed taken => awake_step awake unmissed taken)
    (fun _ _ _ awake taken runs => unmissed_of_not_hangs awake taken runs)
    awake_initial actions

/-- `Stop` sets its flag and notifies while the worker stands between its check
and the sleep: the worker then sleeps without a deadline. -/
theorem stop_missed : ∃ final,
    run step {} [.test, .lock, .check, .stop, .notifyStop, .block] =
        some final ∧
      Hangs final :=
  exists_run_of_decide (by decide)

/-- With no call of `Queue` left, nothing but a spurious wake-up moves a worker
that hangs, and `join` does not return. -/
theorem hangs_step {state next : State} {action : Action}
    (hangs : Hangs state) (announced : state.unannounced = 0)
    (uncalled : ∀ importId, action ≠ .queue importId)
    (asleep : action ≠ .wake) (taken : step state action = some next) :
    next = state := by
  obtain ⟨blocked, flagged, notified⟩ := hangs
  cases action with
  | queue importId => exact absurd rfl (uncalled importId)
  | wake => exact absurd rfl asleep
  | stop => simpa [step, flagged] using taken.symm
  | notifyStop =>
      rcases notified with joining | joined
      · simp [step, joining] at taken
      · simp [step, joined] at taken
  | announce => simp [step, announced] at taken
  | _ => simp [step, blocked] at taken

theorem hangs_run {state final : State} {actions : List Action}
    (hangs : Hangs state) (announced : state.unannounced = 0)
    (uncalled : ∀ importId, .queue importId ∉ actions)
    (asleep : .wake ∉ actions)
    (result : run step state actions = some final) : final = state := by
  induction actions with
  | nil =>
      cases result
      rfl
  | cons action actions inductionHypothesis =>
      rw [run_cons] at result
      cases taken : step state action with
      | none => simp [taken] at result
      | some next =>
          have stays := hangs_step hangs announced
            (fun importId called => uncalled importId (by simp [called]))
            (fun woken => asleep (by simp [woken])) taken
          rw [taken, stays] at result
          exact inductionHypothesis
            (fun importId called =>
              uncalled importId (List.mem_cons_of_mem _ called))
            (fun woken => asleep (List.mem_cons_of_mem _ woken)) result

end Wakeup

end Rotation

end RawImport
