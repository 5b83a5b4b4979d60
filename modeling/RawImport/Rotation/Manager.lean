import Mathlib.Data.List.AList
import RawImport.Lib.History
import RawImport.Library.Operations

/-!
# The rotation manager

`Queue` puts an intent into `pending` and resets its deadline; the worker loop
sleeps until the soonest deadline and dispatches what is due, without the
mutex during each `Dispatch`; `Stop` joins the worker and drains the rest.
Times are nanoseconds of the steady clock.  A step is what one thread does
under the mutex, and the sweep over `pending` is one step per visited entry.
What was queued and taken is read off the actions of a run.
-/

namespace RawImport

namespace Rotation

open Transition

/-- An entry of `pending`: the intent with the deadline of its grace timer. -/
structure Entry where
  rot : PendingRot
  deadline : Int
  deriving DecidableEq, Repr

abbrev Pending := AList fun _ : Int => Entry

/-- `cfg.rotation_grace_ms > 0 ? cfg.rotation_grace_ms : 1500`. -/
def graceMs (rotationGraceMs : Int) : Int :=
  if rotationGraceMs > 0 then rotationGraceMs else 1500

/-- `std::chrono::milliseconds` on the steady clock. -/
def grace (rotationGraceMs : Int) : Int :=
  graceMs rotationGraceMs * 1000000

/-- Where the worker stands: before the loop condition, before the mutex, in
either wait, in the sweep with its `now`, in `Dispatch`, or returned. -/
inductive Loop where
  | top
  | entering
  | idle
  | sleeping (soonest : Int)
  | sweeping (now : Int)
  | dispatching (now importId : Int) (rot : PendingRot)
  | returned
  deriving DecidableEq, Repr

/-- How far `Stop` is; the body of its loop works on one intent. -/
inductive Shutdown where
  | running
  | stopping
  | draining
  | applying (importId : Int) (rot : PendingRot)
  | stopped
  deriving DecidableEq, Repr

/-- The `now` of the sweep the loop is in. -/
def Loop.sweep : Loop → Option Int
  | .sweeping now => some now
  | .dispatching now _ _ => some now
  | _ => none

/-- `Stop` has taken the intents over. -/
def Shutdown.moved : Shutdown → Bool
  | .running => false
  | .stopping => false
  | _ => true

structure Manager where
  time : Int
  pending : Pending := ∅
  remaining : Pending := ∅
  loop : Loop := .top
  shutdown : Shutdown := .running

namespace Manager

inductive Action where
  | advance (nanoseconds : Nat)
  | queue (importId : Int) (rot : PendingRot)
  | test
  | lock
  | wake
  | visit (importId : Int)
  | dispatched
  | sweepEnd
  | stop
  | join
  | drain (importId : Int)
  | applied
  | finish
  deriving DecidableEq, Repr

def soonest : List (Sigma fun _ : Int => Entry) → Option Int
  | [] => none
  | entry :: entries =>
      match soonest entries with
      | none => some entry.2.deadline
      | some least => some (min entry.2.deadline least)

/-- The sweep keeps the mutex; `Queue` waits for it. -/
def mutexHeld (manager : Manager) : Bool :=
  match manager.loop with
  | .sweeping _ => true
  | _ => false

/-- `Stop` comes after the last `Queue`. -/
def step (rotationGraceMs : Int) (manager : Manager) :
    Action → Option Manager
  | .advance nanoseconds =>
      some { manager with time := manager.time + nanoseconds }
  | .queue importId rot =>
      if manager.mutexHeld = false ∧ manager.shutdown = .running then
        some { manager with
          pending := manager.pending.insert importId
            { rot := rot
              deadline := manager.time + grace rotationGraceMs } }
      else none
  | .test =>
      if manager.loop = .top then
        some { manager with
          loop :=
            if manager.shutdown = .running then .entering else .returned }
      else none
  | .lock =>
      if manager.loop = .entering then
        some { manager with
          loop :=
            match soonest manager.pending.entries with
            | none => .idle
            | some least => .sleeping least }
      else none
  | .wake =>
      match manager.loop with
      | .idle =>
          if manager.shutdown ≠ .running ∨ manager.pending ≠ ∅ then
            some { manager with loop := .top }
          else none
      | .sleeping least =>
          if manager.shutdown ≠ .running ∨ least ≤ manager.time then
            some { manager with loop := .sweeping manager.time }
          else none
      | _ => none
  | .visit importId =>
      match manager.loop, manager.pending.lookup importId with
      | .sweeping now, some entry =>
          if entry.deadline ≤ now then
            some { manager with
              pending := manager.pending.erase importId
              loop := .dispatching now importId entry.rot }
          else some manager
      | _, _ => none
  | .dispatched =>
      match manager.loop with
      | .dispatching now _ _ => some { manager with loop := .sweeping now }
      | _ => none
  | .sweepEnd =>
      match manager.loop with
      | .sweeping _ => some { manager with loop := .top }
      | _ => none
  | .stop =>
      if manager.shutdown = .running then
        some { manager with shutdown := .stopping }
      else none
  | .join =>
      if manager.shutdown = .stopping ∧ manager.loop = .returned then
        some { manager with
          remaining := manager.pending
          pending := ∅
          shutdown := .draining }
      else none
  | .drain importId =>
      match manager.shutdown, manager.remaining.lookup importId with
      | .draining, some entry =>
          some { manager with
            remaining := manager.remaining.erase importId
            shutdown := .applying importId entry.rot }
      | _, _ => none
  | .applied =>
      match manager.shutdown with
      | .applying _ _ => some { manager with shutdown := .draining }
      | _ => none
  | .finish =>
      if manager.shutdown = .draining ∧ manager.remaining = ∅ then
        some { manager with shutdown := .stopped }
      else none

end Manager

/-! ## Coalescing -/

/-- What happened to the intents of one import. -/
inductive Event where
  | queued (rot : PendingRot) (at' : Int)
  | taken (rot : PendingRot) (at' : Int) (drained : Bool)
  deriving DecidableEq, Repr

namespace Manager

/-- What an action did to the intents of an import: `Queue` was called, the
loop went into `Dispatch`, or `Stop` into the body of its loop. -/
def event (before : Manager) (action : Action) (after : Manager) :
    Option (Int × Event) :=
  match action with
  | .queue importId rot => some (importId, .queued rot before.time)
  | .visit _ =>
      match after.loop with
      | .dispatching _ importId rot =>
          some (importId, .taken rot before.time false)
      | _ => none
  | .drain _ =>
      match after.shutdown with
      | .applying importId rot =>
          some (importId, .taken rot before.time true)
      | _ => none
  | _ => none

def extend (histories : Int → List Event) :
    Option (Int × Event) → Int → List Event
  | none => histories
  | some (importId, event) =>
      Function.update histories importId (event :: histories importId)

/-- The events of each import in a run, latest first. -/
def histories :
    List (Manager × Action) → Manager → Int → List Event
  | [], _ => fun _ => []
  | (before, action) :: past, after =>
      extend (histories past before) (event before action after)

end Manager

/-- Every intent taken is the one queued last: nothing came between the two.
So an intent is replaced by the next one of its import or taken once, and the
worker loop takes it after its grace period. -/
def Coalesced (grace : Int) : List Event → Prop
  | [] => True
  | .queued _ _ :: earlier => Coalesced grace earlier
  | .taken rot time drained :: .queued rot' time' :: earlier =>
      rot = rot' ∧ (drained = false → time' + grace ≤ time) ∧
        Coalesced grace earlier
  | .taken _ _ _ :: _ => False

/-- The intent of a history that is neither replaced nor taken. -/
def outstanding (grace : Int) : List Event → Option Entry
  | .queued rot time :: _ =>
      some { rot := rot, deadline := time + grace }
  | _ => none

/-- Where a manager keeps the intent of an import. -/
def Manager.kept (manager : Manager) (importId : Int) : Option Entry :=
  (manager.pending.lookup importId).or (manager.remaining.lookup importId)

/-- What became of an intent, by the next event of its import. -/
def Fate (grace : Int) (kept : Option Entry) (rot : PendingRot)
    (time : Int) : Option Event → Prop
  | none => kept = some { rot := rot, deadline := time + grace }
  | some (.queued _ _) => True
  | some (.taken rot' time' drained) =>
      rot' = rot ∧ (drained = false → time + grace ≤ time')

section Histories

variable {grace' : Int} {history : List Event} {entry : Entry}

@[simp] theorem coalesced_queued {rot : PendingRot} {time : Int} :
    Coalesced grace' (.queued rot time :: history) ↔
      Coalesced grace' history :=
  Iff.rfl

theorem outstanding_eq_some
    (open' : outstanding grace' history = some entry) :
    ∃ time earlier, history = .queued entry.rot time :: earlier ∧
      entry.deadline = time + grace' := by
  unfold outstanding at open'
  split at open'
  · cases open'
    exact ⟨_, _, rfl, rfl⟩
  · cases open'

theorem Coalesced.tail {event : Event}
    (coalesced : Coalesced grace' (event :: history)) :
    Coalesced grace' history := by
  cases event with
  | queued rot time => exact coalesced
  | taken rot time drained =>
      cases history with
      | nil => exact coalesced.elim
      | cons event earlier =>
          cases event with
          | queued rot' time' => exact coalesced.2.2
          | taken rot' time' drained' => exact coalesced.elim

theorem Coalesced.behind {later : List Event}
    (coalesced : Coalesced grace' (later ++ history)) :
    Coalesced grace' history := by
  induction later with
  | nil => exact coalesced
  | cons event later ih => exact ih coalesced.tail

theorem Coalesced.fate {later earlier : List Event} {rot : PendingRot}
    {time : Int}
    (coalesced : Coalesced grace' (later ++ .queued rot time :: earlier)) :
    Fate grace'
      (outstanding grace' (later ++ .queued rot time :: earlier)) rot time
      later.getLast? := by
  cases later using List.reverseRecOn with
  | nil => rfl
  | append_singleton later event =>
      rw [List.getLast?_concat]
      cases event with
      | queued rot' time' => trivial
      | taken rot' time' drained =>
          rw [List.append_assoc] at coalesced
          obtain ⟨same, due, -⟩ := coalesced.behind
          exact ⟨same, due⟩

theorem Coalesced.take (coalesced : Coalesced grace' history)
    (open' : outstanding grace' history = some entry) (time : Int)
    (drained : Bool) (due : drained = false → entry.deadline ≤ time) :
    Coalesced grace' (.taken entry.rot time drained :: history) := by
  obtain ⟨time', earlier, rfl, deadline⟩ := outstanding_eq_some open'
  refine ⟨rfl, ?_, coalesced⟩
  intro byLoop
  rw [← deadline]
  exact due byLoop

def Event.isQueued : Event → Bool
  | .queued _ _ => true
  | .taken _ _ _ => false

@[simp] theorem isQueued_queued (rot : PendingRot) (time : Int) :
    (Event.queued rot time).isQueued = true :=
  rfl

@[simp] theorem isQueued_taken (rot : PendingRot) (time : Int)
    (drained : Bool) : (Event.taken rot time drained).isQueued = false :=
  rfl

/-- The intents that the next one of their import replaced. -/
def replaced : List Event → Nat
  | .queued _ _ :: .queued rot time :: earlier =>
      replaced (.queued rot time :: earlier) + 1
  | _ :: earlier => replaced earlier
  | [] => 0

theorem Coalesced.conserved (coalesced : Coalesced grace' history) :
    history.countP Event.isQueued =
      replaced history + history.countP (fun event => !event.isQueued) +
        (outstanding grace' history).toList.length := by
  fun_induction replaced history with
  | case1 rot time rot' time' earlier ih =>
      have before := ih coalesced
      simp [List.countP_cons, outstanding] at before ⊢
      omega
  | case2 event earlier notQueued ih =>
      cases event with
      | queued rot time =>
          have before := ih coalesced
          cases earlier with
          | nil => simp [outstanding, replaced]
          | cons event earlier =>
              cases event with
              | queued rot' time' => exact (notQueued _ _ _ _ _ rfl rfl).elim
              | taken rot' time' drained =>
                  simp [List.countP_cons, outstanding] at before ⊢
                  omega
      | taken rot time drained =>
          cases earlier with
          | nil => exact coalesced.elim
          | cons event earlier =>
              cases event with
              | queued rot' time' =>
                  have before := ih coalesced.2.2
                  simp [List.countP_cons, outstanding] at before ⊢
                  omega
              | taken rot' time' drained' => exact coalesced.elim
  | case3 => rfl

end Histories

namespace Manager

/-- What the manager holds is what the histories leave outstanding. -/
structure Accounted (grace' : Int) (manager : Manager)
    (told : Int → List Event) : Prop where
  coalesced : ∀ importId, Coalesced grace' (told importId)
  held : ∀ importId,
    manager.kept importId = outstanding grace' (told importId)
  swept : ∀ now, manager.loop.sweep = some now → now ≤ manager.time
  undrained : manager.shutdown.moved = false → manager.remaining = ∅
  moved : manager.shutdown.moved = true → manager.pending = ∅
  drained : manager.shutdown = .stopped → manager.remaining = ∅
  awake : manager.shutdown = .running → manager.loop ≠ .returned

variable {rotationGraceMs : Int} {manager next : Manager}
  {told : Int → List Event}

theorem accounted_initial (grace' time : Int) :
    Accounted grace' { time := time } fun _ => [] := by
  constructor
  · intro importId
    trivial
  · intro importId
    rfl
  · intro now swept
    cases swept
  · intro _
    rfl
  · intro _
    rfl
  · intro _
    rfl
  · intro _ returned
    cases returned

theorem Accounted.setLoop {grace' : Int}
    (accounted : manager.Accounted grace' told) (loop : Loop)
    (swept : ∀ now, loop.sweep = some now → now ≤ manager.time)
    (awake : manager.shutdown = .running → loop ≠ .returned) :
    Accounted grace' { manager with loop := loop } told :=
  { coalesced := accounted.coalesced
    held := accounted.held
    swept := swept
    undrained := accounted.undrained
    moved := accounted.moved
    drained := accounted.drained
    awake := awake }

theorem Accounted.advance {grace' : Int}
    (accounted : manager.Accounted grace' told) (nanoseconds : Nat) :
    Accounted grace'
      { manager with time := manager.time + nanoseconds } told := by
  refine
    { coalesced := accounted.coalesced
      held := accounted.held
      swept := ?_
      undrained := accounted.undrained
      moved := accounted.moved
      drained := accounted.drained
      awake := accounted.awake }
  intro now swept
  have before := accounted.swept now swept
  simp only
  omega

theorem Accounted.queue
    (accounted : manager.Accounted (grace rotationGraceMs) told)
    (running : manager.shutdown = .running) (importId : Int)
    (rot : PendingRot) :
    Accounted (grace rotationGraceMs)
      { manager with
        pending := manager.pending.insert importId
          { rot := rot
            deadline := manager.time + grace rotationGraceMs } }
      (extend told (some (importId, .queued rot manager.time))) := by
  constructor
  · intro other
    by_cases same : other = importId
    · subst same
      simpa [extend] using accounted.coalesced other
    · simpa [extend, same] using accounted.coalesced other
  · intro other
    by_cases same : other = importId
    · subst same
      simp [kept, extend, outstanding]
    · have before := accounted.held other
      simpa [kept, extend, same] using before
  · exact accounted.swept
  · exact accounted.undrained
  · intro late
    rw [running] at late
    cases late
  · exact accounted.drained
  · exact accounted.awake

theorem Accounted.take {grace' : Int}
    (accounted : manager.Accounted grace' told) {importId now : Int}
    {entry : Entry} (sweeping : manager.loop = .sweeping now)
    (present : manager.pending.lookup importId = some entry)
    (due : entry.deadline ≤ now) :
    Accounted grace'
      { manager with
        pending := manager.pending.erase importId
        loop := .dispatching now importId entry.rot }
      (extend told
        (some (importId, .taken entry.rot manager.time false))) := by
  have early := accounted.swept now (by rw [sweeping]; rfl)
  have open' : outstanding grace' (told importId) = some entry := by
    rw [← accounted.held importId, kept, present]
    rfl
  have undrained : manager.remaining = ∅ := by
    apply accounted.undrained
    cases phase : manager.shutdown.moved with
    | false => rfl
    | true =>
        rw [accounted.moved phase] at present
        cases present
  constructor
  · intro other
    by_cases same : other = importId
    · subst same
      have taken := (accounted.coalesced other).take open'
        manager.time false (fun _ => by omega)
      simpa [extend] using taken
    · simpa [extend, same] using accounted.coalesced other
  · intro other
    by_cases same : other = importId
    · subst same
      simp [kept, extend, outstanding, undrained]
    · have before := accounted.held other
      simpa [kept, extend, same] using before
  · intro now' swept
    cases swept
    exact early
  · exact accounted.undrained
  · intro late
    simp only
    rw [accounted.moved late]
    rfl
  · exact accounted.drained
  · intro _ returned
    cases returned

theorem Accounted.stop {grace' : Int}
    (accounted : manager.Accounted grace' told)
    (running : manager.shutdown = .running) :
    Accounted grace' { manager with shutdown := .stopping } told := by
  constructor
  · exact accounted.coalesced
  · exact accounted.held
  · exact accounted.swept
  · intro _
    exact accounted.undrained (by rw [running]; rfl)
  · intro late
    cases late
  · intro stopped
    cases stopped
  · intro running'
    cases running'

theorem Accounted.join {grace' : Int}
    (accounted : manager.Accounted grace' told)
    (stopping : manager.shutdown = .stopping) :
    Accounted grace'
      { manager with
        remaining := manager.pending
        pending := ∅
        shutdown := .draining } told := by
  have undrained := accounted.undrained (by rw [stopping]; rfl)
  constructor
  · exact accounted.coalesced
  · intro importId
    have before := accounted.held importId
    simpa [kept, undrained] using before
  · exact accounted.swept
  · intro early
    cases early
  · intro _
    rfl
  · intro stopped
    cases stopped
  · intro running
    cases running

/-- A round of the drain takes the intent whatever its deadline. -/
theorem Accounted.drain {grace' : Int}
    (accounted : manager.Accounted grace' told) {importId : Int}
    {entry : Entry} (draining : manager.shutdown = .draining)
    (present : manager.remaining.lookup importId = some entry) :
    Accounted grace'
      { manager with
        remaining := manager.remaining.erase importId
        shutdown := .applying importId entry.rot }
      (extend told
        (some (importId, .taken entry.rot manager.time true))) := by
  have moved := accounted.moved (by rw [draining]; rfl)
  have open' : outstanding grace' (told importId) = some entry := by
    rw [← accounted.held importId, kept, moved, present]
    rfl
  constructor
  · intro other
    by_cases same : other = importId
    · subst same
      have taken := (accounted.coalesced other).take open'
        manager.time true (fun byLoop => by cases byLoop)
      simpa [extend] using taken
    · simpa [extend, same] using accounted.coalesced other
  · intro other
    by_cases same : other = importId
    · subst same
      simp [kept, extend, outstanding, moved]
    · have before := accounted.held other
      simpa [kept, extend, same] using before
  · exact accounted.swept
  · intro early
    cases early
  · intro _
    exact moved
  · intro stopped
    cases stopped
  · intro running
    cases running

theorem Accounted.applied {grace' : Int}
    (accounted : manager.Accounted grace' told)
    (late : manager.shutdown.moved = true) :
    Accounted grace' { manager with shutdown := .draining } told := by
  constructor
  · exact accounted.coalesced
  · exact accounted.held
  · exact accounted.swept
  · intro early
    cases early
  · intro _
    exact accounted.moved late
  · intro stopped
    cases stopped
  · intro running
    cases running

theorem Accounted.finish {grace' : Int}
    (accounted : manager.Accounted grace' told)
    (draining : manager.shutdown = .draining)
    (empty : manager.remaining = ∅) :
    Accounted grace' { manager with shutdown := .stopped } told := by
  constructor
  · exact accounted.coalesced
  · exact accounted.held
  · exact accounted.swept
  · intro early
    cases early
  · intro _
    exact accounted.moved (by rw [draining]; rfl)
  · intro _
    exact empty
  · intro running
    cases running

theorem accounted_step {action : Action}
    (accounted : manager.Accounted (grace rotationGraceMs) told)
    (taken : step rotationGraceMs manager action = some next) :
    next.Accounted (grace rotationGraceMs)
      (extend told (event manager action next)) := by
  cases action with
  | advance nanoseconds =>
      cases taken
      exact accounted.advance nanoseconds
  | queue importId rot =>
      simp only [step] at taken
      split at taken
      · rename_i running
        cases taken
        exact accounted.queue running.2 importId rot
      · cases taken
  | test =>
      simp only [step] at taken
      split at taken
      · cases taken
        apply accounted.setLoop
        · intro now swept
          split at swept <;> simp [Loop.sweep] at swept
        · intro running
          simp [running]
      · cases taken
  | lock =>
      simp only [step] at taken
      split at taken
      · cases taken
        apply accounted.setLoop
        · intro now swept
          split at swept <;> simp [Loop.sweep] at swept
        · intro _
          split <;> simp
      · cases taken
  | wake =>
      simp only [step] at taken
      split at taken
      · split at taken
        · cases taken
          apply accounted.setLoop
          · intro now swept
            cases swept
          · intro _ returned
            cases returned
        · cases taken
      · split at taken
        · cases taken
          apply accounted.setLoop
          · intro now swept
            cases swept
            exact le_refl _
          · intro _ returned
            cases returned
        · cases taken
      · cases taken
  | visit importId =>
      simp only [step] at taken
      split at taken
      · rename_i sweeping present
        split at taken
        · rename_i due
          cases taken
          exact accounted.take sweeping present due
        · cases taken
          simpa [event, extend, sweeping] using accounted
      · cases taken
  | dispatched =>
      simp only [step] at taken
      split at taken
      · rename_i now importId rot dispatching
        cases taken
        apply accounted.setLoop
        · intro now' swept
          cases swept
          exact accounted.swept now (by rw [dispatching]; rfl)
        · intro _ returned
          cases returned
      · cases taken
  | sweepEnd =>
      simp only [step] at taken
      split at taken
      · cases taken
        apply accounted.setLoop
        · intro now swept
          cases swept
        · intro _ returned
          cases returned
      · cases taken
  | stop =>
      simp only [step] at taken
      split at taken
      · rename_i running
        cases taken
        exact accounted.stop running
      · cases taken
  | join =>
      simp only [step] at taken
      split at taken
      · rename_i returned
        cases taken
        exact accounted.join returned.1
      · cases taken
  | drain importId =>
      simp only [step] at taken
      split at taken
      · rename_i draining present
        cases taken
        exact accounted.drain draining present
      · cases taken
  | applied =>
      simp only [step] at taken
      split at taken
      · rename_i importId rot applying
        cases taken
        exact accounted.applied (by rw [applying]; rfl)
      · cases taken
  | finish =>
      simp only [step] at taken
      split at taken
      · rename_i empty
        cases taken
        exact accounted.finish empty.1 empty.2
      · cases taken

theorem Accounted.settled {grace' : Int}
    (accounted : manager.Accounted grace' told)
    (stopped : manager.shutdown = .stopped) (importId : Int) :
    outstanding grace' (told importId) = none := by
  rw [← accounted.held importId, kept,
    accounted.moved (by rw [stopped]; rfl), accounted.drained stopped]
  rfl

/-! ## The end of a run -/

theorem worker_returns (rotationGraceMs : Int)
    (stopping : manager.shutdown = .stopping) :
    ∃ actions,
      run (step rotationGraceMs) manager actions =
        some { manager with loop := .returned } := by
  cases stage : manager.loop with
  | top => exact ⟨[.test], by simp [run, step, stage, stopping]⟩
  | entering =>
      cases least : soonest manager.pending.entries with
      | none =>
          exact ⟨[.lock, .wake, .test],
            by simp [run, step, stage, stopping, least]⟩
      | some deadline =>
          exact ⟨[.lock, .wake, .sweepEnd, .test],
            by simp [run, step, stage, stopping, least]⟩
  | idle =>
      exact ⟨[.wake, .test], by simp [run, step, stage, stopping]⟩
  | sleeping least =>
      exact ⟨[.wake, .sweepEnd, .test],
        by simp [run, step, stage, stopping]⟩
  | sweeping now =>
      exact ⟨[.sweepEnd, .test], by simp [run, step, stage, stopping]⟩
  | dispatching now importId rot =>
      exact ⟨[.dispatched, .sweepEnd, .test],
        by simp [run, step, stage, stopping]⟩
  | returned => exact ⟨[], by rw [run_nil, ← stage]⟩

theorem drain_ends (rotationGraceMs : Int) (manager : Manager)
    (draining : manager.shutdown = .draining) :
    ∃ actions final,
      run (step rotationGraceMs) manager actions = some final ∧
      final.shutdown = .stopped := by
  generalize size : manager.remaining.keys.length = count
  induction count generalizing manager with
  | zero =>
      have empty : manager.remaining = ∅ := by
        apply AList.ext
        simpa [AList.keys, List.keys] using size
      exact ⟨[.finish], { manager with shutdown := .stopped },
        by simp [run, step, draining, empty], rfl⟩
  | succ count ih =>
      have some' : 0 < manager.remaining.keys.length := by omega
      obtain ⟨importId, present⟩ := List.exists_mem_of_length_pos some'
      obtain ⟨entry, found⟩ := Option.isSome_iff_exists.mp
        (AList.lookup_isSome.mpr (AList.mem_keys.mpr present))
      have smaller :
          (manager.remaining.erase importId).keys.length = count := by
        rw [AList.keys_erase, List.length_erase_of_mem present, size]
        rfl
      obtain ⟨actions, final, rounds, stopped⟩ := ih
        { manager with remaining := manager.remaining.erase importId }
        draining smaller
      refine ⟨.drain importId :: .applied :: actions, final, ?_, stopped⟩
      rw [run_cons_eq_some_iff]
      refine ⟨{ manager with
          remaining := manager.remaining.erase importId
          shutdown := .applying importId entry.rot },
        by simp [step, draining, found], ?_⟩
      rw [run_cons_eq_some_iff]
      exact ⟨_, rfl, by rw [← rounds, draining]⟩

/-- `Stop` runs to its end from every state in which it was called. -/
theorem stop_ends (rotationGraceMs : Int)
    (called : manager.shutdown ≠ .running) :
    ∃ actions final,
      run (step rotationGraceMs) manager actions = some final ∧
      final.shutdown = .stopped := by
  cases phase : manager.shutdown with
  | running => exact (called phase).elim
  | stopping =>
      obtain ⟨actions, returned⟩ := worker_returns rotationGraceMs phase
      obtain ⟨rounds, final, drained, stopped⟩ := drain_ends rotationGraceMs
        { manager with
          remaining := manager.pending
          pending := ∅
          loop := .returned
          shutdown := .draining }
        rfl
      refine ⟨actions ++ .join :: rounds, final, ?_, stopped⟩
      rw [run_append, returned, Option.bind_some, run_cons_eq_some_iff]
      exact ⟨_, by simp [step, phase], drained⟩
  | draining => exact drain_ends rotationGraceMs manager phase
  | applying importId rot =>
      obtain ⟨rounds, final, drained, stopped⟩ := drain_ends rotationGraceMs
        { manager with shutdown := .draining } rfl
      refine ⟨.applied :: rounds, final, ?_, stopped⟩
      rw [run_cons_eq_some_iff]
      exact ⟨_, by simp [step, phase], drained⟩
  | stopped => exact ⟨[], manager, rfl, phase⟩

/-- The steps of the worker loop, and the passing of time. -/
def Action.ofLoop : Action → Bool
  | .advance _ => true
  | .test => true
  | .lock => true
  | .wake => true
  | .visit _ => true
  | .dispatched => true
  | .sweepEnd => true
  | _ => false

theorem sleeper_sweeps (rotationGraceMs : Int) {least : Int}
    (sleeping : manager.loop = .sleeping least) (time : Int) :
    ∃ nanoseconds : Nat, time ≤ manager.time + nanoseconds ∧
      run (step rotationGraceMs) manager [.advance nanoseconds, .wake] =
        some { manager with
          time := manager.time + nanoseconds
          loop := .sweeping (manager.time + nanoseconds) } := by
  generalize wait : (max time least - manager.time).toNat = nanoseconds
  have due : least ≤ manager.time + nanoseconds := by omega
  refine ⟨nanoseconds, by omega, ?_⟩
  simp [run, step, sleeping, due]

theorem top_sleeps (rotationGraceMs : Int)
    (running : manager.shutdown = .running) (top : manager.loop = .top)
    (pending : manager.pending ≠ ∅) :
    ∃ least, run (step rotationGraceMs) manager [.test, .lock] =
      some { manager with loop := .sleeping least } := by
  cases least : soonest manager.pending.entries with
  | none =>
      exfalso
      apply pending
      apply AList.ext
      cases entries : manager.pending.entries with
      | nil => rfl
      | cons entry rest =>
          rw [entries, soonest] at least
          split at least <;> cases least
  | some least' => exact ⟨least', by simp [run, step, running, top, least]⟩

/-- While the manager runs with something pending, its loop comes to sleep. -/
theorem loop_returns (rotationGraceMs : Int)
    (awake : manager.loop ≠ .returned)
    (running : manager.shutdown = .running)
    (pending : manager.pending ≠ ∅) :
    ∃ actions least, (∀ action ∈ actions, action.ofLoop = true) ∧
      run (step rotationGraceMs) manager actions =
        some { manager with loop := .sleeping least } := by
  have slept : ∀ first, (∀ action ∈ first, action.ofLoop = true) →
      run (step rotationGraceMs) manager first =
        some { manager with loop := .top } →
      ∃ actions least, (∀ action ∈ actions, action.ofLoop = true) ∧
        run (step rotationGraceMs) manager actions =
          some { manager with loop := .sleeping least } := by
    intro first own reached
    obtain ⟨least, sleeps⟩ := @top_sleeps { manager with loop := .top }
      rotationGraceMs running rfl pending
    refine ⟨first ++ [.test, .lock], least, ?_, ?_⟩
    · simpa [or_imp, forall_and, Action.ofLoop] using own
    · rw [run_append, reached, Option.bind_some, sleeps]
  cases stage : manager.loop with
  | top => exact slept [] (by simp) (by rw [run_nil, ← stage])
  | entering =>
      obtain ⟨least, sleeps⟩ := @top_sleeps { manager with loop := .top }
        rotationGraceMs running rfl pending
      refine ⟨[.lock], least, by simp [Action.ofLoop], ?_⟩
      rw [← sleeps]
      simp [run, step, running, stage]
  | idle =>
      exact slept [.wake] (by simp [Action.ofLoop])
        (by simp [run, step, stage, pending])
  | sleeping least =>
      exact ⟨[], least, by simp, by rw [run_nil, ← stage]⟩
  | sweeping now =>
      exact slept [.sweepEnd] (by simp [Action.ofLoop])
        (by simp [run, step, stage])
  | dispatching now importId rot =>
      exact slept [.dispatched, .sweepEnd] (by simp [Action.ofLoop])
        (by simp [run, step, stage])
  | returned => exact (awake stage).elim

/-- While the manager runs, its loop takes each pending intent in the end. -/
theorem loop_takes (rotationGraceMs : Int)
    (awake : manager.loop ≠ .returned)
    (running : manager.shutdown = .running) {importId : Int} {entry : Entry}
    (present : manager.pending.lookup importId = some entry) :
    ∃ actions final now, (∀ action ∈ actions, action.ofLoop = true) ∧
      run (step rotationGraceMs) manager actions = some final ∧
      final.loop = .dispatching now importId entry.rot := by
  have pending : manager.pending ≠ ∅ := by
    intro empty
    rw [empty] at present
    cases present
  obtain ⟨first, least, own, slept⟩ :=
    loop_returns rotationGraceMs awake running pending
  obtain ⟨nanoseconds, late, swept⟩ := @sleeper_sweeps
    { manager with loop := .sleeping least } rotationGraceMs least rfl
    entry.deadline
  refine ⟨first ++ ([.advance nanoseconds, .wake] ++ [.visit importId]),
    { manager with
      time := manager.time + nanoseconds
      pending := manager.pending.erase importId
      loop := .dispatching (manager.time + nanoseconds) importId entry.rot },
    manager.time + nanoseconds, ?_, ?_, rfl⟩
  · simpa [or_imp, forall_and, Action.ofLoop] using own
  · rw [run_append, slept, Option.bind_some, run_append, swept,
      Option.bind_some]
    simp only at late
    simp [run, step, present, late]

def history (state : Tracked Manager Action) (importId : Int) : List Event :=
  histories state.past state.now importId

/-- Every intent queued for the import is pending, was replaced or was taken;
what is taken was the latest intent and was not taken before; and the manager
keeps what is pending. -/
structure Coalesces (grace : Int) (state : Tracked Manager Action)
    (importId : Int) : Prop where
  fate : ∀ later rot time earlier,
    history state importId = later ++ .queued rot time :: earlier →
      Fate grace (state.now.kept importId) rot time later.getLast?
  once : Coalesced grace (history state importId)
  settled : state.now.shutdown = .stopped →
    (history state importId).countP Event.isQueued =
      replaced (history state importId) +
        (history state importId).countP (fun event => !event.isQueued)

theorem Accounted.coalesces {state : Tracked Manager Action}
    (accounted : state.now.Accounted (grace rotationGraceMs)
      (histories state.past state.now)) (importId : Int) :
    Coalesces (grace rotationGraceMs) state importId := by
  have coalesced := accounted.coalesced importId
  constructor
  · intro later rot time earlier split
    rw [accounted.held importId]
    change histories state.past state.now importId = _ at split
    rw [split] at coalesced ⊢
    exact coalesced.fate
  · exact coalesced
  · intro stopped
    have conserved := coalesced.conserved
    rw [accounted.settled stopped importId] at conserved
    exact conserved

theorem accounted_track {state after : Tracked Manager Action}
    {action : Action}
    (accounted : state.now.Accounted (grace rotationGraceMs)
      (histories state.past state.now))
    (taken : track (step rotationGraceMs) state action = some after) :
    after.now.Accounted (grace rotationGraceMs)
      (histories after.past after.now) := by
  obtain ⟨stepTaken, past⟩ := track_eq_some_iff.mp taken
  rw [past]
  exact accounted_step accounted stepTaken

/-- In every state of every run the intents of each import coalesce; while the
manager runs, its loop takes each pending intent in the end; and once `Stop`
was called it comes to its end, where nothing is pending. -/
theorem coalesced_run (rotationGraceMs time : Int)
    (actions : List Action) :
    Visits (track (step rotationGraceMs))
      (fun state =>
        (∀ importId, Coalesces (grace rotationGraceMs) state importId) ∧
        (state.now.shutdown = .running → ∀ importId entry,
          state.now.kept importId = some entry →
            ∃ rest final now, (∀ action ∈ rest, action.ofLoop = true) ∧
              run (step rotationGraceMs) state.now rest = some final ∧
              final.loop = .dispatching now importId entry.rot) ∧
        (state.now.shutdown ≠ .running →
          ∃ rest final,
            run (track (step rotationGraceMs)) state rest = some final ∧
            final.now.shutdown = .stopped ∧
            ∀ importId, final.now.kept importId = none))
      (.start { time := time }) actions := by
  have visits : ∀ state, state.now.Accounted (grace rotationGraceMs)
        (histories state.past state.now) →
      ∀ actions, Visits (track (step rotationGraceMs))
        (fun state => state.now.Accounted (grace rotationGraceMs)
          (histories state.past state.now)) state actions := by
    intro state accounted actions
    apply visits_of_preserved
    · intro state action next accounted taken
      exact accounted_track accounted taken
    · exact accounted
  apply (visits (.start { time := time })
    (accounted_initial (grace rotationGraceMs) time) actions).mono
  intro state accounted
  refine ⟨accounted.coalesces, ?_, ?_⟩
  · intro running importId entry kept
    have undrained := accounted.undrained (by rw [running]; rfl)
    have present : state.now.pending.lookup importId = some entry := by
      simpa [Manager.kept, undrained] using kept
    exact loop_takes rotationGraceMs (accounted.awake running) running present
  · intro called
    obtain ⟨rest, final, reached, stopped⟩ := stop_ends rotationGraceMs called
    obtain ⟨tracked, trackedRun, same⟩ :=
      Option.map_eq_some_iff.mp ((run_track state rest).trans reached)
    subst same
    refine ⟨rest, tracked, trackedRun, stopped, ?_⟩
    intro importId
    have last := (visits state accounted rest).final trackedRun
    rw [last.held importId]
    exact last.settled stopped importId

end Manager

end Rotation

end RawImport
