import Mathlib.Data.Fintype.Basic
import RawImport.Library.Operations
import RawImport.Store.Locks

/-!
# Rotation managers that share a database

Every instance brackets its `exiftool` runs by `AcquireLock` and
`ReleaseLock`, in `Dispatch` and again in the loop of `Stop`.  All of them
pass the same worker id, and `AcquireLock` grants a row to the worker it
names; so the lock keeps instances apart only while their critical sections
happen not to meet.
-/

namespace RawImport

namespace Rotation

open Transition

/-- The worker id and the TTL of every `AcquireLock` call. -/
def lockWorker : WorkerId := ⟨"rotation-mgr", by decide⟩

def lockTtl : Int := 30

/-- Where a critical section stands: `exiftool` not yet started, running, or
done. -/
inductive Phase where
  | locked
  | writing
  | written
  deriving DecidableEq, Repr

/-- An instance between a successful `AcquireLock` and its `ReleaseLock`. -/
structure Section where
  importId : Int
  rot : PendingRot
  expires : Int
  phase : Phase := .locked
  deriving DecidableEq, Repr

/-- One `RotationManager`: whether `Stop` has joined the worker, and what it
is in the middle of. -/
structure Instance where
  joined : Bool := false
  inside : Option Section := none
  deriving DecidableEq, Repr

structure Instances (n : Nat) where
  clock : Int
  locks : ProcessingLocks
  instances : Fin n → Instance := fun _ => {}

namespace Instances

variable {n : Nat}

inductive Action (n : Nat) where
  | advance (seconds : Nat)
  | dispatch (index : Fin n) (importId : Int) (rot : PendingRot)
      (call : ProcessingLocks.AcquireCall)
  | join (index : Fin n)
  | drain (index : Fin n) (importId : Int) (rot : PendingRot)
      (call : ProcessingLocks.AcquireCall)
  | exiftool (index : Fin n)
  | exited (index : Fin n)
  | release (index : Fin n) (executed : Bool)
  deriving DecidableEq, Repr

def setInstance (state : Instances n) (index : Fin n)
    (instance' : Instance) : Instances n :=
  { state with
    instances := Function.update state.instances index instance' }

/-- Both paths enter the critical section the same way; a busy lock skips
the intent. -/
def enter (state : Instances n) (index : Fin n) (importId : Int)
    (rot : PendingRot) (call : ProcessingLocks.AcquireCall) : Instances n :=
  let acquired := state.locks.acquireLock state.clock importId
    lockWorker.val lockTtl call
  if acquired.2 then
    { (state.setInstance index
        { state.instances index with
          inside := some
            { importId := importId
              rot := rot
              expires := state.clock + lockTtl } }) with
      locks := acquired.1 }
  else { state with locks := acquired.1 }

/-- Time passes only while no lock outlives its TTL. -/
def step (state : Instances n) : Action n → Option (Instances n)
  | .advance seconds =>
      if ∀ index, ∀ critical ∈ (state.instances index).inside,
          state.clock + seconds < critical.expires then
        some { state with clock := state.clock + seconds }
      else none
  | .dispatch index importId rot call =>
      if (state.instances index).inside = none ∧
          (state.instances index).joined = false then
        some (state.enter index importId rot call)
      else none
  | .join index =>
      if (state.instances index).inside = none then
        some (state.setInstance index
          { state.instances index with joined := true })
      else none
  | .drain index importId rot call =>
      if (state.instances index).inside = none ∧
          (state.instances index).joined = true then
        some (state.enter index importId rot call)
      else none
  | .exiftool index =>
      match (state.instances index).inside with
      | some { importId, rot, expires, phase := .locked } =>
          some (state.setInstance index
            { state.instances index with
              inside := some
                { importId := importId
                  rot := rot
                  expires := expires
                  phase := .writing } })
      | _ => none
  | .exited index =>
      match (state.instances index).inside with
      | some { importId, rot, expires, phase := .writing } =>
          some (state.setInstance index
            { state.instances index with
              inside := some
                { importId := importId
                  rot := rot
                  expires := expires
                  phase := .written } })
      | _ => none
  | .release index executed =>
      match (state.instances index).inside with
      | some { importId, phase := .written, .. } =>
          some
            { (state.setInstance index
                { state.instances index with inside := none }) with
              locks := (state.locks.releaseLock importId executed).1 }
      | _ => none

/-- The instance is in a critical section for the import. -/
def Inside (state : Instances n) (index : Fin n) (importId : Int) : Prop :=
  ∃ critical ∈ (state.instances index).inside, critical.importId = importId

instance (state : Instances n) (index : Fin n) (importId : Int) :
    Decidable (state.Inside index importId) :=
  inferInstanceAs (Decidable (∃ critical ∈ _, _))

/-- No two instances are in critical sections for one import. -/
def Serialised (state : Instances n) : Prop :=
  ∀ first second importId, state.Inside first importId →
    state.Inside second importId → first = second

/-! ## Who is where -/

/-- The part of a state that the lock is about. -/
structure Occupancy (n : Nat) where
  clock : Int
  locks : ProcessingLocks
  place : Fin n → Option (Int × Int)

def occupancy (state : Instances n) : Occupancy n :=
  { clock := state.clock
    locks := state.locks
    place := fun index =>
      (state.instances index).inside.map fun critical =>
        (critical.importId, critical.expires) }

/-- The import of an `AcquireLock` call, from either path. -/
def Action.acquires : Action n →
    Option (Fin n × Int × ProcessingLocks.AcquireCall)
  | .dispatch index importId _ call => some (index, importId, call)
  | .drain index importId _ call => some (index, importId, call)
  | _ => none

namespace Occupancy

/-- An instance moves to another place, and its row with it. -/
def entered (before : Occupancy n) (index : Fin n) (importId : Int) :
    Occupancy n :=
  { before with
    locks := Function.update before.locks importId
      (some ⟨lockWorker.val, before.clock + lockTtl⟩)
    place := Function.update before.place index
      (some (importId, before.clock + lockTtl)) }

inductive Move (before : Occupancy n) : Action n → Occupancy n → Prop where
  | advance (seconds : Nat)
      (brief : ∀ index importId expires,
        before.place index = some (importId, expires) →
          before.clock + seconds < expires) :
      Move before (.advance seconds)
        { before with clock := before.clock + seconds }
  | enter {action : Action n} {index : Fin n} {importId : Int}
      {call : ProcessingLocks.AcquireCall}
      (acquires : action.acquires = some (index, importId, call))
      (outside : before.place index = none) :
      Move before action (before.entered index importId)
  | leave {index : Fin n} {importId expires : Int} {executed : Bool}
      (inside : before.place index = some (importId, expires)) :
      Move before (.release index executed)
        { before with
          locks := (before.locks.releaseLock importId executed).1
          place := Function.update before.place index none }
  | stay {action : Action n} : Move before action before

end Occupancy

theorem inside_iff_place {state : Instances n} {index : Fin n}
    {importId : Int} :
    state.Inside index importId ↔
      ∃ expires,
        state.occupancy.place index = some (importId, expires) := by
  constructor
  · intro inside
    obtain ⟨critical, present, rfl⟩ := inside
    refine ⟨critical.expires, ?_⟩
    exact Option.map_eq_some_iff.mpr ⟨critical, present, rfl⟩
  · intro placed
    obtain ⟨expires, place⟩ := placed
    obtain ⟨critical, present, same⟩ := Option.map_eq_some_iff.mp place
    exact ⟨critical, present, congrArg Prod.fst same⟩

theorem place_eq_none_iff {state : Instances n} {index : Fin n} :
    state.occupancy.place index = none ↔
      (state.instances index).inside = none :=
  Option.map_eq_none_iff

/-- A new instance record changes the place of that instance alone. -/
theorem occupancy_setInstance (state : Instances n) (index : Fin n)
    (instance' : Instance) :
    (state.setInstance index instance').occupancy.place =
      Function.update state.occupancy.place index
        (instance'.inside.map fun critical =>
          (critical.importId, critical.expires)) := by
  funext other
  by_cases same : other = index
  · subst same
    simp [occupancy, setInstance]
  · simp [occupancy, setInstance, same]

theorem occupancy_setInstance_same {state : Instances n} {index : Fin n}
    {instance' : Instance}
    (same : (instance'.inside.map fun critical =>
      (critical.importId, critical.expires)) =
        state.occupancy.place index) :
    (state.setInstance index instance').occupancy = state.occupancy := by
  have places := occupancy_setInstance state index instance'
  rw [same, Function.update_eq_self] at places
  simp only [occupancy, setInstance] at places ⊢
  rw [places]

theorem enter_cases (state : Instances n) (index : Fin n) (importId : Int)
    (rot : PendingRot) (call : ProcessingLocks.AcquireCall) :
    (state.enter index importId rot call).occupancy =
        state.occupancy.entered index importId ∨
      (state.enter index importId rot call).occupancy =
        state.occupancy := by
  unfold enter
  rcases ProcessingLocks.acquireLock_cases state.locks state.clock importId
    lockWorker lockTtl call with ⟨-, -, written⟩ | refused
  · left
    have places := occupancy_setInstance state index
      { state.instances index with
        inside := some
          { importId := importId
            rot := rot
            expires := state.clock + lockTtl } }
    simp only [written, if_true]
    simp only [occupancy, setInstance, Occupancy.entered] at places ⊢
    rw [places]
    rfl
  · right
    simp only [refused]
    rfl

theorem step_moves {state next : Instances n} {action : Action n}
    (taken : step state action = some next) :
    state.occupancy.Move action next.occupancy := by
  cases action with
  | advance seconds =>
      simp only [step] at taken
      split at taken
      · rename_i brief
        cases taken
        apply Occupancy.Move.advance
        intro index importId expires place
        obtain ⟨critical, present, same⟩ :=
          Option.map_eq_some_iff.mp place
        cases same
        exact brief index critical present
      · cases taken
  | dispatch index importId rot call | drain index importId rot call =>
      simp only [step] at taken
      split at taken
      · rename_i outside
        cases taken
        rcases enter_cases state index importId rot call with
          entered | skipped
        · rw [entered]
          exact .enter rfl (place_eq_none_iff.mpr outside.1)
        · rw [skipped]
          exact .stay
      · cases taken
  | join index =>
      simp only [step] at taken
      split at taken
      · cases taken
        have same : (state.setInstance index
            { state.instances index with joined := true }).occupancy =
              state.occupancy :=
          occupancy_setInstance_same rfl
        rw [same]
        exact .stay
      · cases taken
  | exiftool index | exited index =>
      simp only [step] at taken
      split at taken
      · rename_i inside
        cases taken
        rw [occupancy_setInstance_same]
        · exact .stay
        · simp [occupancy, inside]
      · cases taken
  | release index executed =>
      simp only [step] at taken
      split at taken
      · rename_i importId rot expires inside
        cases taken
        have place : state.occupancy.place index =
            some (importId, expires) := by
          simp [occupancy, inside]
        have places := occupancy_setInstance state index
          { state.instances index with inside := none }
        have move : state.occupancy.Move (.release index executed) _ :=
          .leave place
        simp only [occupancy, setInstance] at places move ⊢
        rw [places]
        exact move
      · cases taken

/-! ## When the lock serialises -/

/-- Whenever an instance calls `AcquireLock`, no unexpired row of
`rotation-mgr` stands for the import. -/
def Fresh (state : Instances n) (action : Action n) : Prop :=
  match action.acquires with
  | some (_, importId, _) =>
      ∀ row ∈ state.locks importId,
        row.workerId = lockWorker.val → ¬state.clock < row.expiresAt
  | none => True

/-- The statements of the step reach the server and are taken. -/
def Executed (state : Instances n) : Action n → Prop
  | .release _ executed => executed = true
  | action =>
      match action.acquires with
      | some (_, importId, call) =>
          call.selected = true ∧ call.upserted = true ∧
            ProcessingLocks.Fits importId lockWorker.val
              (state.clock + lockTtl)
      | none => True

namespace Occupancy

/-- Every instance has its own unexpired row. -/
structure Serial (before : Occupancy n) : Prop where
  covered : ∀ index importId expires,
    before.place index = some (importId, expires) →
      before.locks importId = some ⟨lockWorker.val, expires⟩ ∧
        before.clock < expires
  alone : ∀ first second importId expires expires',
    before.place first = some (importId, expires) →
      before.place second = some (importId, expires') → first = second

/-- Every unexpired row belongs to an instance. -/
def Inhabited (before : Occupancy n) : Prop :=
  ∀ importId, ∀ row ∈ before.locks importId,
    before.clock < row.expiresAt →
      row.workerId = lockWorker.val ∧
        ∃ index expires, before.place index = some (importId, expires)

variable {before : Occupancy n}

theorem Serial.entered (serial : before.Serial) {index : Fin n}
    {importId : Int}
    (fresh : ∀ row ∈ before.locks importId,
      row.workerId = lockWorker.val → ¬before.clock < row.expiresAt) :
    (before.entered index importId).Serial := by
  have nobody : ∀ other expires,
      before.place other ≠ some (importId, expires) := by
    intro other expires place
    obtain ⟨row, live⟩ := serial.covered other importId expires place
    exact fresh _ row rfl live
  constructor
  · intro other importId' expires place
    by_cases same : other = index
    · subst same
      simp only [Occupancy.entered, Function.update_self] at place ⊢
      cases place
      exact ⟨by simp, Int.lt_add_of_pos_right _ (by decide)⟩
    · simp only [Occupancy.entered, Function.update_of_ne same] at place ⊢
      obtain ⟨row, live⟩ := serial.covered other importId' expires place
      have differs : importId' ≠ importId := by
        rintro rfl
        exact nobody other expires place
      exact ⟨by rw [Function.update_of_ne differs, row], live⟩
  · intro first second importId' expires expires' placeFirst placeSecond
    simp only [Occupancy.entered] at placeFirst placeSecond
    by_cases sameFirst : first = index
    · by_cases sameSecond : second = index
      · rw [sameFirst, sameSecond]
      · rw [sameFirst, Function.update_self] at placeFirst
        rw [Function.update_of_ne sameSecond] at placeSecond
        cases placeFirst
        exact (nobody second expires' placeSecond).elim
    · rw [Function.update_of_ne sameFirst] at placeFirst
      by_cases sameSecond : second = index
      · rw [sameSecond, Function.update_self] at placeSecond
        cases placeSecond
        exact (nobody first expires placeFirst).elim
      · rw [Function.update_of_ne sameSecond] at placeSecond
        exact serial.alone first second importId' expires expires'
          placeFirst placeSecond

theorem Serial.leave (serial : before.Serial) {index : Fin n}
    {importId expires : Int} {executed : Bool}
    (inside : before.place index = some (importId, expires)) :
    Serial
      { before with
        locks := (before.locks.releaseLock importId executed).1
        place := Function.update before.place index none } := by
  have others : ∀ other importId' expires',
      Function.update before.place index none other =
          some (importId', expires') →
        before.place other = some (importId', expires') ∧
          importId' ≠ importId := by
    intro other importId' expires' place
    by_cases same : other = index
    · rw [same, Function.update_self] at place
      cases place
    · rw [Function.update_of_ne same] at place
      refine ⟨place, ?_⟩
      rintro rfl
      exact same (serial.alone other index _ expires' expires place inside)
  constructor
  · intro other importId' expires' place
    obtain ⟨old, differs⟩ := others other importId' expires' place
    obtain ⟨row, live⟩ := serial.covered other importId' expires' old
    refine ⟨?_, live⟩
    cases executed with
    | true =>
        simp only [ProcessingLocks.releaseLock, if_true]
        rw [Function.update_of_ne differs, row]
    | false => exact row
  · intro first second importId' expires' expires'' placeFirst placeSecond
    exact serial.alone first second importId' expires' expires''
      (others first importId' expires' placeFirst).1
      (others second importId' expires'' placeSecond).1

theorem Serial.advance (serial : before.Serial) {seconds : Nat}
    (brief : ∀ index importId expires,
      before.place index = some (importId, expires) →
        before.clock + seconds < expires) :
    Serial { before with clock := before.clock + seconds } := by
  constructor
  · intro index importId expires place
    exact ⟨(serial.covered index importId expires place).1,
      brief index importId expires place⟩
  · exact serial.alone

theorem Inhabited.entered (inhabited : before.Inhabited) {index : Fin n}
    {importId : Int} (outside : before.place index = none) :
    (before.entered index importId).Inhabited := by
  intro importId' row present live
  simp only [Occupancy.entered] at present live ⊢
  by_cases same : importId' = importId
  · subst same
    rw [Function.update_self] at present
    cases present
    exact ⟨rfl, index, _, Function.update_self ..⟩
  · rw [Function.update_of_ne same] at present
    obtain ⟨named, other, expires, place⟩ :=
      inhabited importId' row present live
    refine ⟨named, other, expires, ?_⟩
    have differs : other ≠ index := by
      rintro rfl
      rw [outside] at place
      cases place
    rw [Function.update_of_ne differs, place]

theorem Inhabited.leave (inhabited : before.Inhabited) {index : Fin n}
    {importId expires : Int}
    (inside : before.place index = some (importId, expires)) :
    Inhabited
      { before with
        locks := (before.locks.releaseLock importId true).1
        place := Function.update before.place index none } := by
  intro importId' row present live
  simp only [ProcessingLocks.releaseLock, if_true] at present
  by_cases same : importId' = importId
  · subst same
    rw [Function.update_self] at present
    cases present
  · rw [Function.update_of_ne same] at present
    obtain ⟨named, other, expires', place⟩ :=
      inhabited importId' row present live
    refine ⟨named, other, expires', ?_⟩
    have differs : other ≠ index := by
      rintro rfl
      rw [inside] at place
      cases place
      exact same rfl
    simp only
    rw [Function.update_of_ne differs, place]

end Occupancy

theorem serial_step {state next : Instances n} {action : Action n}
    (serial : state.occupancy.Serial) (fresh : Fresh state action)
    (taken : step state action = some next) : next.occupancy.Serial := by
  have move := step_moves taken
  generalize next.occupancy = after at move
  cases move with
  | advance seconds brief => exact serial.advance brief
  | enter acquires outside =>
      apply serial.entered
      unfold Fresh at fresh
      rw [acquires] at fresh
      exact fresh
  | leave inside => exact serial.leave inside
  | stay => exact serial

theorem inhabited_step {state next : Instances n} {action : Action n}
    (inhabited : state.occupancy.Inhabited)
    (executed : Executed state action)
    (taken : step state action = some next) :
    next.occupancy.Inhabited := by
  have move := step_moves taken
  generalize next.occupancy = after at move
  cases move with
  | advance seconds brief =>
      intro importId row present live
      apply inhabited importId row present
      simp only at live
      omega
  | enter acquires outside => exact inhabited.entered outside
  | leave inside =>
      obtain rfl : _ = true := executed
      exact inhabited.leave inside
  | stay => exact inhabited

theorem Occupancy.Serial.serialised {state : Instances n}
    (serial : state.occupancy.Serial) : state.Serialised := by
  intro first second importId insideFirst insideSecond
  obtain ⟨expires, placeFirst⟩ := inside_iff_place.mp insideFirst
  obtain ⟨expires', placeSecond⟩ := inside_iff_place.mp insideSecond
  exact serial.alone first second importId expires expires' placeFirst
    placeSecond

/-- An instance that calls `AcquireLock` on a row of another instance gets
the lock as well. -/
theorem enter_held {state : Instances n} {index : Fin n} {importId : Int}
    {rot : PendingRot} {call : ProcessingLocks.AcquireCall}
    (named : ∀ row ∈ state.locks importId, state.clock < row.expiresAt →
      row.workerId = lockWorker.val)
    (executed : call.selected = true ∧ call.upserted = true ∧
      ProcessingLocks.Fits importId lockWorker.val
        (state.clock + lockTtl)) :
    (state.enter index importId rot call).Inside index importId := by
  have free : ProcessingLocks.busy (state.locks.select importId)
      state.clock lockWorker.val = false := by
    by_contra busy
    obtain ⟨row, fetched, live, different⟩ :=
      ProcessingLocks.busy_eq_true_iff.mp ((Bool.not_eq_false _).mp busy)
    have present := (Option.filter_eq_some_iff.mp fetched).1
    exact different (named row present live)
  have granted : (state.locks.acquireLock state.clock importId
      lockWorker.val lockTtl call).2 = true := by
    simp [ProcessingLocks.acquireLock,
      ProcessingLocks.effectiveWorkerId_of_ne, ProcessingLocks.upsert,
      executed.1, executed.2.1, executed.2.2, free]
  have present :
      ((state.enter index importId rot call).instances index).inside =
        some
          { importId := importId
            rot := rot
            expires := state.clock + lockTtl } := by
    simp [enter, granted, setInstance]
  exact ⟨_, present, rfl⟩

theorem enter_inside_other (state : Instances n) {index other : Fin n}
    (different : other ≠ index) {importId importId' : Int}
    {rot : PendingRot} {call : ProcessingLocks.AcquireCall}
    (inside : state.Inside other importId') :
    (state.enter index importId rot call).Inside other importId' := by
  unfold enter
  simp only
  split
  · simpa [Inside, setInstance, different] using inside
  · exact inside

/-- Taking the lock while its row is alive puts two instances inside. -/
theorem fresh_of_serialised {state next : Instances n} {action : Action n}
    (inhabited : state.occupancy.Inhabited)
    (executed : Executed state action)
    (taken : step state action = some next)
    (serialised : next.Serialised) : Fresh state action := by
  cases action with
  | dispatch index importId rot call | drain index importId rot call =>
      intro row present _ live
      obtain ⟨-, other, expires, place⟩ :=
        inhabited importId row present live
      simp only [step] at taken
      split at taken
      · rename_i outside
        cases taken
        have insideOther : state.Inside other importId :=
          inside_iff_place.mpr ⟨expires, place⟩
        have different : other ≠ index := by
          rintro rfl
          rw [place_eq_none_iff.mpr outside.1] at place
          cases place
        have both := serialised other index importId
          (enter_inside_other state different insideOther)
          (enter_held (fun row present live =>
            (inhabited importId row present live).1) executed)
        exact different both
      · cases taken
  | _ => trivial

theorem serial_initial (clock : Int) (locks : ProcessingLocks) :
    (occupancy (n := n) { clock := clock, locks := locks }).Serial := by
  constructor
  · intro index importId expires place
    cases place
  · intro first second importId expires expires' place
    cases place

theorem inhabited_initial (clock : Int) :
    (occupancy (n := n)
      { clock := clock, locks := fun _ => none }).Inhabited := by
  intro importId row present
  cases present

/-- Any number of instances, any intents, any interleaving of both dispatch
paths: where every `AcquireLock` call finds no unexpired row, no import is
rotated by two instances at once.  From an empty lock table and with every
statement executed, nothing less will do. -/
theorem serialised_run (clock : Int) (locks : ProcessingLocks)
    (actions : List (Action n)) :
    (Along step Fresh { clock := clock, locks := locks } actions →
      Visits step Serialised { clock := clock, locks := locks } actions) ∧
    (Along step Executed { clock := clock, locks := fun _ => none }
        actions →
      (Visits step Serialised { clock := clock, locks := fun _ => none }
          actions ↔
        Along step Fresh { clock := clock, locks := fun _ => none }
          actions)) := by
  constructor
  · intro fresh
    have visits := visits_of_along (fun state => state.occupancy.Serial)
      (fun state action next serial here taken =>
        serial_step serial here taken)
      (serial_initial clock locks) fresh
    exact visits.mono fun state serial => serial.serialised
  · intro executed
    refine visits_iff_along_of_assumed
      (fun state =>
        state.occupancy.Serial ∧ state.occupancy.Inhabited)
      ?_ ?_ ?_ ⟨serial_initial clock _, inhabited_initial clock⟩ executed
    · intro state invariant
      exact invariant.1.serialised
    · intro state action next invariant promise fresh taken
      exact ⟨serial_step invariant.1 fresh taken,
        inhabited_step invariant.2 promise taken⟩
    · intro state action next invariant promise taken serialised
      exact fresh_of_serialised invariant.2 promise taken serialised

instance (state : Instances n) (action : Action n) :
    Decidable (Fresh state action) := by
  unfold Fresh
  split <;> infer_instance

def sideways : PendingRot :=
  { orientation := 6, dngPath := "/library/IMG_1.dng", clientId := "phone" }

/-- One instance dispatches, the other one drains at its stop. -/
def meeting : List (Action 2) :=
  [.dispatch 0 1 sideways {}, .exiftool 0, .join 1,
    .drain 1 1 sideways {}, .exiftool 1]

/-- Both instances run `exiftool` on the DNG of import 1. -/
theorem two_instances_inside :
    ∃ state,
      run step { clock := 0, locks := fun _ => none } meeting =
        some state ∧
      (∀ index, (state.instances index).inside =
        some
          { importId := 1
            rot := sideways
            expires := 30
            phase := .writing }) ∧
      ¬state.Serialised := by
  have both : ∃ state,
      run step { clock := 0, locks := fun _ => none } meeting =
        some state ∧
      ∀ index, (state.instances index).inside =
        some
          { importId := 1
            rot := sideways
            expires := 30
            phase := .writing } :=
    exists_run_of_decide (by decide +kernel)
  obtain ⟨state, result, inside⟩ := both
  refine ⟨state, result, inside, ?_⟩
  intro serialised
  have equal := serialised 0 1 1 ⟨_, inside 0, rfl⟩ ⟨_, inside 1, rfl⟩
  cases equal

def inTurn : List (Action 2) :=
  [.dispatch 0 1 sideways {}, .exiftool 0, .exited 0, .release 0 true,
    .dispatch 1 1 sideways {}, .exiftool 1, .exited 1, .release 1 true]

theorem serialised_inTurn :
    Visits step Serialised { clock := 0, locks := fun _ => none } inTurn :=
  (serialised_run 0 (fun _ => none) inTurn).1 (by decide +kernel)

end Instances

end Rotation

end RawImport
