import RawImport.Library.Operations
import RawImport.Worker.Machine

/-!
# Orientation of the column and of the file

`Dispatch` updates the column after `exiftool` succeeded; the drain in `Stop`
updates it whatever the exit code was.  Beside the library stands what
`exiftool` wrote: the last orientation of each file, and the imports under
which it succeeded.
-/

namespace RawImport

namespace Rotation

open Transition

structure Rotations where
  library : Library
  written : Path → Option Int := fun _ => none
  rotated : Int → Bool := fun _ => false

namespace Rotations

inductive Action where
  | queue (sourcePath : Path) (orientation : Int) (clientId : String)
      (found : Bool)
  | dispatch (importId : Int) (call : RotateCall)
  | stop
  | drain (importId : Int) (call : RotateCall)
  deriving DecidableEq, Repr

def Action.operation : Action → Library.Operation
  | .queue sourcePath orientation clientId found =>
      .rotationUpdated sourcePath orientation clientId found
  | .dispatch importId call => .dispatch importId call
  | .stop => .stop
  | .drain importId call => .drain importId call

/-- The intent that the action takes, with the course of its rotation. -/
def taken (state : Rotations) : Action →
    Option (Int × PendingRot × RotateCall)
  | .dispatch importId call =>
      (state.library.pending importId).map fun rot => (importId, rot, call)
  | .drain importId call =>
      (state.library.remaining importId).map fun rot =>
        (importId, rot, call)
  | _ => none

/-- A rotation behind its lock whose `exiftool` succeeded leaves its
orientation in the file. -/
def note (state : Rotations) (importId : Int) (rot : PendingRot)
    (call : RotateCall) : Rotations :=
  if call.acquired = true ∧ call.succeeded = true then
    { state with
      written := Function.update state.written rot.dngPath
        (some rot.orientation)
      rotated := Function.update state.rotated importId true }
  else state

def step (platform : Worker.Platform) (cfg : Config) (state : Rotations)
    (action : Action) : Option Rotations :=
  (Library.step platform cfg state.library action.operation).map
    fun library =>
      match state.taken action with
      | some (importId, rot, call) =>
          { state.note importId rot call with library := library }
      | none => { state with library := library }

def initial (shared : Worker.Shared) : Rotations :=
  { library := { shared := shared } }

/-- The column of a rotated import is what `exiftool` last wrote into its
DNG. -/
def Follows (state : Rotations) : Prop :=
  ∀ row ∈ state.library.shared.db.imports,
    state.rotated row.id = true →
      ∃ orientation, state.written row.outputPath = some orientation ∧
        row.orientation.map Int.ofNat = some orientation

/-- A round of the drain leaves the tables as `Dispatch` would have. -/
def DrainAsDispatch (state : Rotations) : Action → Prop
  | .drain importId call =>
      ∀ rot ∈ state.library.remaining importId,
        (Rotation.drain state.library.shared importId rot call).db =
          (Rotation.dispatch state.library.shared importId rot call).db
  | _ => True

def Executed (state : Rotations) (action : Action) : Prop :=
  match state.taken action with
  | some (_, rot, call) =>
      call.updated = true ∧ 0 ≤ rot.orientation ∧ rot.orientation ≤ 255
  | none => True

/-- `exiftool` does not turn the DNG of another rotated import away from its
column. -/
def Apart (state : Rotations) (importId : Int) (rot : PendingRot) : Prop :=
  ∀ row ∈ state.library.shared.db.imports,
    (row.id : Int) ≠ importId → state.rotated row.id = true →
      row.outputPath = rot.dngPath →
        row.orientation = some rot.orientation.toNat

def Already (state : Rotations) (importId : Int) (rot : PendingRot) : Prop :=
  ∀ row ∈ state.library.shared.db.imports, (row.id : Int) = importId →
    row.orientation = some rot.orientation.toNat

/-- A successful `exiftool` run stays off the DNGs of other imports, and in
the drain a failing one has nothing to change. -/
def Faithful (state : Rotations) (action : Action) : Prop :=
  match state.taken action with
  | some (importId, rot, call) =>
      (call.acquired = true ∧ call.succeeded = true →
        state.Apart importId rot) ∧
      (action = .drain importId call → call.acquired = true →
        call.succeeded = false → state.Already importId rot)
  | none => True

/-! ## What a step does -/

/-- The manager keeps the intent, pending or in the drain. -/
def Keeps (state : Rotations) (importId : Int) (rot : PendingRot) : Prop :=
  state.library.pending importId = some rot ∨
    state.library.remaining importId = some rot

def Names (db : Db) (importId : Int) (rot : PendingRot) : Prop :=
  ∃ row ∈ db.imports, (row.id : Int) = importId ∧
    row.outputPath = rot.dngPath

inductive Effect (state next : Rotations) (action : Action) : Prop where
  | quiet (untaken : state.taken action = none)
      (shared : next.library.shared = state.library.shared)
      (written : next.written = state.written)
      (rotated : next.rotated = state.rotated)
      (keeps : ∀ importId rot, next.Keeps importId rot →
        state.Keeps importId rot ∨
          Names state.library.shared.db importId rot)
  | rotate (importId : Int) (rot : PendingRot) (call : RotateCall)
      (update : Bool)
      (took : state.taken action = some (importId, rot, call))
      (kept : state.Keeps importId rot)
      (path : update = call.succeeded ∧
          (∀ importId' call', action ≠ .drain importId' call') ∨
        update = true ∧ action = .drain importId call)
      (shared : next.library.shared =
        Rotation.rotate state.library.shared importId rot call update)
      (written : next.written = (state.note importId rot call).written)
      (rotated : next.rotated = (state.note importId rot call).rotated)
      (keeps : ∀ importId' rot', next.Keeps importId' rot' →
        state.Keeps importId' rot')

variable {platform : Worker.Platform} {cfg : Config}
  {state next : Rotations} {action : Action}

theorem names_of_queue {sourcePath : Path} {orientation : Int}
    {clientId : String} {found : Bool} {library : Library}
    {importId : Int} {rot : PendingRot}
    (kept : (library.rotationUpdated platform sourcePath orientation clientId
      found).1.pending importId = some rot) :
    library.pending importId = some rot ∨
      Names library.shared.db importId rot := by
  unfold Library.rotationUpdated at kept
  split at kept
  · exact .inl kept
  · rename_i row looked
    by_cases same : importId = row.id
    · subst same
      simp only [Function.update_self] at kept
      cases kept
      right
      exact ⟨row, Db.mem_of_getImportBySourcePath looked, rfl, rfl⟩
    · left
      simpa [same] using kept

theorem step_effect
    (stepped : step platform cfg state action = some next) :
    Effect state next action := by
  obtain ⟨library, performed, rfl⟩ := Option.map_eq_some_iff.mp stepped
  cases action with
  | queue sourcePath orientation clientId found =>
      cases performed
      have shared : (state.library.rotationUpdated platform sourcePath
          orientation clientId found).1.shared = state.library.shared := by
        unfold Library.rotationUpdated
        split <;> rfl
      have remaining : (state.library.rotationUpdated platform sourcePath
          orientation clientId found).1.remaining =
            state.library.remaining := by
        unfold Library.rotationUpdated
        split <;> rfl
      refine .quiet rfl shared rfl rfl ?_
      intro importId rot keeps
      cases keeps with
      | inl pending =>
          rcases names_of_queue pending with before | names
          · exact .inl (.inl before)
          · exact .inr names
      | inr drained =>
          left
          right
          exact (congrFun remaining importId).symm.trans drained
  | stop =>
      simp only [Action.operation, Library.step] at performed
      split at performed
      · cases performed
      · cases performed
        refine .quiet rfl rfl rfl rfl ?_
        intro importId rot keeps
        cases keeps with
        | inl pending => cases pending
        | inr drained => exact .inl (.inl drained)
  | dispatch importId call =>
      obtain ⟨rot, pending, rfl⟩ := Option.map_eq_some_iff.mp performed
      have took : state.taken (.dispatch importId call) =
          some (importId, rot, call) :=
        Option.map_eq_some_iff.mpr ⟨rot, pending, rfl⟩
      simp only [took]
      refine .rotate importId rot call call.succeeded took (.inl pending)
        (.inl ⟨rfl, fun _ _ => Action.noConfusion⟩) rfl rfl rfl ?_
      intro importId' rot' keeps
      cases keeps with
      | inl pending' =>
          by_cases same : importId' = importId
          · subst same
            simp at pending'
          · left
            simpa [same] using pending'
      | inr drained => exact .inr drained
  | drain importId call =>
      obtain ⟨rot, remaining, rfl⟩ := Option.map_eq_some_iff.mp performed
      have took : state.taken (.drain importId call) =
          some (importId, rot, call) :=
        Option.map_eq_some_iff.mpr ⟨rot, remaining, rfl⟩
      simp only [took]
      refine .rotate importId rot call true took (.inr remaining)
        (.inr ⟨rfl, rfl⟩) rfl rfl rfl ?_
      intro importId' rot' keeps
      cases keeps with
      | inl pending => exact .inl pending
      | inr drained =>
          by_cases same : importId' = importId
          · subst same
            simp at drained
          · right
            simpa [same] using drained

/-! ## Rows under a rotation -/

section Rows

variable {shared : Worker.Shared} {importId : Int} {rot : PendingRot}
  {call : RotateCall} {update : Bool}

def orient (importId orientation : Int) (row : ImportRow) : ImportRow :=
  if (row.id : Int) = importId then
    { row with orientation := some orientation.toNat }
  else row

@[simp] theorem orient_id (importId orientation : Int) (row : ImportRow) :
    (orient importId orientation row).id = row.id := by
  unfold orient
  split <;> rfl

@[simp] theorem orient_outputPath (importId orientation : Int)
    (row : ImportRow) :
    (orient importId orientation row).outputPath = row.outputPath := by
  unfold orient
  split <;> rfl

theorem orient_other {orientation : Int} {row : ImportRow}
    (different : (row.id : Int) ≠ importId) :
    orient importId orientation row = row :=
  if_neg different

theorem orient_same {orientation : Int} {row : ImportRow}
    (same : (row.id : Int) = importId) :
    (orient importId orientation row).orientation =
      some orientation.toNat := by
  unfold orient
  rw [if_pos same]

theorem orient_eq_self_iff {orientation : Int} {row : ImportRow}
    (same : (row.id : Int) = importId) :
    orient importId orientation row = row ↔
      row.orientation = some orientation.toNat := by
  constructor
  · intro fixed
    rw [← fixed]
    exact orient_same same
  · intro already
    unfold orient
    rw [if_pos same, ← already]

theorem rotate_db
    (executed : call.updated = true ∧ 0 ≤ rot.orientation ∧
      rot.orientation ≤ 255) :
    (Rotation.rotate shared importId rot call update).db =
      if call.acquired = true ∧ update = true then
        { shared.db with
          imports := shared.db.imports.map
            (orient importId rot.orientation) }
      else shared.db := by
  unfold Rotation.rotate
  by_cases acquired : call.acquired = true
  · rw [if_pos acquired]
    cases update with
    | true =>
        simp only [if_true, acquired, and_self]
        exact if_pos executed
    | false => simp
  · rw [if_neg acquired, if_neg (fun both => acquired both.1)]

/-- A second orientation leaves the rows alone exactly when the column has it
already. -/
theorem map_orient_eq_iff {state : Rotations} :
    state.library.shared.db.imports.map (orient importId rot.orientation) =
        state.library.shared.db.imports ↔
      state.Already importId rot := by
  have fixed : state.library.shared.db.imports.map
      (orient importId rot.orientation) =
        state.library.shared.db.imports ↔
      ∀ row ∈ state.library.shared.db.imports,
        orient importId rot.orientation row = row := by
    nth_rewrite 2 [← List.map_id' state.library.shared.db.imports]
    exact List.map_inj_left
  rw [fixed]
  constructor
  · intro same row member here
    exact (orient_eq_self_iff here).mp (same row member)
  · intro already row member
    by_cases here : (row.id : Int) = importId
    · exact (orient_eq_self_iff here).mpr (already row member here)
    · exact orient_other here

theorem drain_eq_dispatch_iff {state : Rotations}
    (executed : call.updated = true ∧ 0 ≤ rot.orientation ∧
      rot.orientation ≤ 255) :
    (Rotation.drain state.library.shared importId rot call).db =
        (Rotation.dispatch state.library.shared importId rot call).db ↔
      (call.acquired = true → call.succeeded = false →
        state.Already importId rot) := by
  unfold Rotation.drain Rotation.dispatch
  rw [rotate_db executed, rotate_db executed]
  by_cases acquired : call.acquired = true
  · cases succeeded : call.succeeded with
    | true => simp
    | false =>
        rw [if_pos ⟨acquired, rfl⟩, if_neg (by simp), ← map_orient_eq_iff]
        constructor
        · intro same _ _
          exact congrArg Db.imports same
        · intro same
          rw [same acquired rfl]
  · simp [acquired]

end Rows

/-! ## Runs -/

/-- The columns follow the files, row keys are unique, and every intent names
the DNG of its import. -/
structure Sound (state : Rotations) : Prop where
  unique : (state.library.shared.db.imports.map ImportRow.id).Nodup
  names : ∀ importId rot, state.Keeps importId rot →
    Names state.library.shared.db importId rot
  follows : state.Follows

theorem Sound.path (sound : Sound state) {importId : Int} {rot : PendingRot}
    (kept : state.Keeps importId rot) {row : ImportRow}
    (member : row ∈ state.library.shared.db.imports)
    (here : (row.id : Int) = importId) : row.outputPath = rot.dngPath := by
  obtain ⟨named, namedMember, sameId, path⟩ := sound.names importId rot kept
  have equal : row = named := by
    apply List.inj_on_of_nodup_map sound.unique member namedMember
    omega
  rw [equal, path]

theorem Names.oriented {db : Db} {importId : Int} {rot : PendingRot}
    (names : Names db importId rot) (importId' orientation : Int) :
    Names
      { db with
        imports := db.imports.map (orient importId' orientation) }
      importId rot := by
  obtain ⟨row, member, here, path⟩ := names
  refine ⟨orient importId' orientation row, ?_, ?_, ?_⟩
  · exact List.mem_map_of_mem member
  · rw [orient_id]
    exact here
  · rw [orient_outputPath]
    exact path

theorem note_of_success {importId : Int} {rot : PendingRot}
    {call : RotateCall}
    (success : call.acquired = true ∧ call.succeeded = true) :
    state.note importId rot call =
      { state with
        written := Function.update state.written rot.dngPath
          (some rot.orientation)
        rotated := Function.update state.rotated importId true } :=
  if_pos success

theorem note_of_failure {importId : Int} {rot : PendingRot}
    {call : RotateCall}
    (failure : ¬(call.acquired = true ∧ call.succeeded = true)) :
    state.note importId rot call = state :=
  if_neg failure

/-- Under its lock and with a successful `exiftool`, a rotation keeps columns
and files together exactly when it stays off the DNGs of other imports. -/
theorem follows_of_success (sound : Sound state) {importId : Int}
    {rot : PendingRot} (kept : state.Keeps importId rot)
    (valid : 0 ≤ rot.orientation)
    (imports : next.library.shared.db.imports =
      state.library.shared.db.imports.map (orient importId rot.orientation))
    (written : next.written = Function.update state.written rot.dngPath
      (some rot.orientation))
    (rotated : next.rotated =
      Function.update state.rotated importId true) :
    next.Follows ↔ state.Apart importId rot := by
  constructor
  · intro follows row member different done path
    have changed : row ∈ next.library.shared.db.imports := by
      rw [imports]
      exact List.mem_map.mpr ⟨row, member, orient_other different⟩
    obtain ⟨orientation, last, column⟩ := follows row changed
      (by rw [rotated, Function.update_of_ne different, done])
    rw [written, path, Function.update_self] at last
    cases last
    cases value : row.orientation with
    | none =>
        rw [value] at column
        cases column
    | some number =>
        rw [value] at column
        have equal : (number : Int) = rot.orientation := by
          simpa using column
        rw [← equal]
        rfl
  · intro apart changed changedMember done
    rw [imports] at changedMember
    obtain ⟨row, member, rfl⟩ := List.mem_map.mp changedMember
    rw [orient_id, rotated] at done
    rw [written, orient_outputPath]
    have back : (some rot.orientation.toNat).map Int.ofNat =
        some rot.orientation := by
      simp only [Option.map_some, Int.ofNat_eq_natCast]
      rw [Int.toNat_of_nonneg valid]
    by_cases here : (row.id : Int) = importId
    · refine ⟨rot.orientation, ?_, ?_⟩
      · rw [sound.path kept member here, Function.update_self]
      · rw [orient_same here, back]
    · rw [Function.update_of_ne here] at done
      rw [orient_other here]
      by_cases same : row.outputPath = rot.dngPath
      · refine ⟨rot.orientation, ?_, ?_⟩
        · rw [same, Function.update_self]
        · rw [apart row member here done same, back]
      · rw [Function.update_of_ne same]
        exact sound.follows row member done

/-- A step that changes neither rows nor files keeps everything sound. -/
theorem Sound.of_same (sound : Sound state)
    (imports : next.library.shared.db.imports =
      state.library.shared.db.imports)
    (written : next.written = state.written)
    (rotated : next.rotated = state.rotated)
    (keeps : ∀ importId rot, next.Keeps importId rot →
      state.Keeps importId rot ∨
        Names state.library.shared.db importId rot) : Sound next := by
  constructor
  · rw [imports]
    exact sound.unique
  · intro importId rot kept
    unfold Names
    rw [imports]
    rcases keeps importId rot kept with before | names
    · exact sound.names importId rot before
    · exact names
  · unfold Follows
    rw [imports, written, rotated]
    exact sound.follows

theorem drainAsDispatch_of_already {importId : Int} {rot : PendingRot}
    {call : RotateCall}
    (took : state.taken action = some (importId, rot, call))
    (executed : call.updated = true ∧ 0 ≤ rot.orientation ∧
      rot.orientation ≤ 255)
    (already : action = .drain importId call → call.acquired = true →
      call.succeeded = false → state.Already importId rot) :
    DrainAsDispatch state action := by
  cases action with
  | drain importId' call' =>
      intro rot' remaining
      rw [Option.mem_def] at remaining
      simp only [taken, remaining, Option.map_some, Option.some.injEq,
        Prod.mk.injEq] at took
      obtain ⟨rfl, rfl, rfl⟩ := took
      exact (drain_eq_dispatch_iff executed).mpr (already rfl)
  | _ => trivial

/-- A faithful step keeps everything sound, and its drain does what
`Dispatch` would. -/
theorem sound_step (sound : Sound state) (executed : Executed state action)
    (faithful : Faithful state action)
    (stepped : step platform cfg state action = some next) :
    Sound next ∧ DrainAsDispatch state action := by
  cases step_effect stepped with
  | quiet untaken shared written rotated keeps =>
      constructor
      · exact sound.of_same (by rw [shared]) written rotated keeps
      · cases action with
        | drain importId call =>
            intro rot remaining
            rw [Option.mem_def] at remaining
            simp [taken, remaining] at untaken
        | _ => trivial
  | rotate importId rot call update took kept path shared written rotated
      keeps =>
      unfold Executed at executed
      unfold Faithful at faithful
      rw [took] at executed faithful
      simp only at executed faithful
      have db : next.library.shared.db = _ :=
        (congrArg Worker.Shared.db shared).trans (rotate_db executed)
      constructor
      · by_cases success : call.acquired = true ∧ call.succeeded = true
        · -- the file and the column are written together
          have updates : update = true := by
            rcases path with ⟨same, -⟩ | ⟨always, -⟩
            · rw [same, success.2]
            · exact always
          rw [if_pos ⟨success.1, updates⟩] at db
          rw [note_of_success success] at written rotated
          have apart : state.Apart importId rot := faithful.1 success
          constructor
          · rw [db]
            simpa [List.map_map, Function.comp_def] using sound.unique
          · intro importId' rot' kept'
            rw [db]
            exact (sound.names importId' rot'
              (keeps importId' rot' kept')).oriented importId rot.orientation
          · exact (follows_of_success sound kept executed.2.1
              (by rw [db]) written rotated).mpr apart
        · -- nothing is written, and an updated column had the value already
          rw [note_of_failure success] at written rotated
          refine sound.of_same ?_ written rotated
            fun importId' rot' kept' => .inl (keeps importId' rot' kept')
          rw [db]
          split
          · rename_i changed
            have failed : call.succeeded = false := by
              rw [← Bool.not_eq_true]
              exact fun succeeded => success ⟨changed.1, succeeded⟩
            rcases path with ⟨same, -⟩ | ⟨-, drains⟩
            · rw [same, failed] at changed
              cases changed.2
            · exact map_orient_eq_iff.mpr
                (faithful.2 drains changed.1 failed)
          · rfl
      · exact drainAsDispatch_of_already took executed faithful.2

/-- A step that keeps the columns with the files and drains as `Dispatch`
would is faithful. -/
theorem faithful_of_follows (sound : Sound state)
    (executed : Executed state action)
    (stepped : step platform cfg state action = some next)
    (follows : next.Follows) (same : DrainAsDispatch state action) :
    Faithful state action := by
  unfold Faithful
  cases step_effect stepped with
  | quiet untaken shared written rotated keeps =>
      rw [untaken]
      trivial
  | rotate importId rot call update took kept path shared written rotated
      keeps =>
      unfold Executed at executed
      rw [took] at executed ⊢
      simp only at executed ⊢
      constructor
      · intro success
        have db : next.library.shared.db = _ :=
          (congrArg Worker.Shared.db shared).trans (rotate_db executed)
        have updates : update = true := by
          rcases path with ⟨equal, -⟩ | ⟨always, -⟩
          · rw [equal, success.2]
          · exact always
        rw [if_pos ⟨success.1, updates⟩] at db
        rw [note_of_success success] at written rotated
        exact (follows_of_success sound kept executed.2.1 (by rw [db])
          written rotated).mp follows
      · rintro rfl acquired failed
        obtain ⟨rot', remaining, equal⟩ := Option.map_eq_some_iff.mp took
        cases equal
        exact (drain_eq_dispatch_iff executed).mp
          (same rot remaining) acquired failed

/-- Over whole runs whose statements succeed, with any outcome of every
`exiftool` command: the columns follow the files in every state and the drain
does what `Dispatch` would have done exactly when every step is faithful. -/
theorem follows_run_iff (platform : Worker.Platform) (cfg : Config)
    (shared : Worker.Shared)
    (unique : (shared.db.imports.map ImportRow.id).Nodup)
    (actions : List Action)
    (executed : Along (step platform cfg) Executed (initial shared)
      actions) :
    Visits (step platform cfg) Follows (initial shared) actions ∧
        Along (step platform cfg) DrainAsDispatch (initial shared) actions ↔
      Along (step platform cfg) Faithful (initial shared) actions := by
  refine visits_and_along_iff Sound ?_ ?_ ?_ ?_ executed
  · intro state sound
    exact sound.follows
  · intro state action next sound promise faithful stepped
    exact sound_step sound promise faithful stepped
  · intro state action next sound promise stepped follows same
    exact faithful_of_follows sound promise stepped follows same
  · constructor
    · exact unique
    · intro importId rot kept
      cases kept with
      | inl pending => cases pending
      | inr remaining => cases remaining
    · intro row member done
      cases done

def imported : Worker.Shared :=
  { db :=
      { imports :=
          [{ id := 1
             sequenceId := 1
             sourcePath := "/watch/DSC_0001.NEF"
             sourceHash := ""
             outputPath := "/library/IMG_1.dng"
             outputHash := ""
             cameraModel := none
             captureDate := none
             captureTime := none
             dateSource := .exif
             folderSchema := none
             conversionSettings := none
             status := .completed
             createdAt := none
             completedAt := none
             orientation := none }]
        nextImport := 2 } }

/-- Turned once by the worker loop; the second turn waits for the stop, where
`exiftool` fails. -/
def failedDrain : List Action :=
  [.queue "/watch/DSC_0001.NEF" 3 "phone" true,
    .dispatch 1 { output := some ⟨[7], 0⟩ },
    .queue "/watch/DSC_0001.NEF" 6 "phone" true, .stop,
    .drain 1 { succeeded := false, output := none }]

/-- The file keeps orientation 3 and the column says 6. -/
theorem column_ahead_of_file :
    ∃ final,
      run (step Worker.photographs {}) (initial imported) failedDrain =
        some final ∧
      final.written "/library/IMG_1.dng" = some 3 ∧
      final.library.shared.db.imports.map ImportRow.orientation =
        [some 6] ∧
      ¬final.Follows := by
  have reached : ∃ final,
      run (step Worker.photographs {}) (initial imported) failedDrain =
        some final ∧
      final.written "/library/IMG_1.dng" = some 3 ∧
      final.library.shared.db.imports.map (fun row =>
        (row.id, row.outputPath, row.orientation)) =
          [(1, "/library/IMG_1.dng", some 6)] ∧
      final.rotated 1 = true :=
    exists_run_of_decide (by decide +kernel)
  obtain ⟨final, result, written, rows, rotated⟩ := reached
  obtain ⟨row, single, values⟩ := List.map_eq_singleton_iff.mp rows
  simp only [Prod.mk.injEq] at values
  refine ⟨final, result, written, ?_, ?_⟩
  · rw [single]
    simp [values.2.2]
  · intro follows
    have member : row ∈ final.library.shared.db.imports := by
      rw [single]
      exact List.mem_singleton_self row
    obtain ⟨orientation, last, column⟩ := follows row member
      (by rw [values.1]; exact rotated)
    rw [values.2.1, written] at last
    cases last
    rw [values.2.2] at column
    cases column

def turnedTwice : List Action :=
  [.queue "/watch/DSC_0001.NEF" 3 "phone" true,
    .dispatch 1 { output := some ⟨[7], 0⟩ },
    .queue "/watch/DSC_0001.NEF" 6 "phone" true, .stop,
    .drain 1 { output := some ⟨[7], 0⟩ }]

instance (state : Rotations) (action : Action) :
    Decidable (Executed state action) := by
  unfold Executed
  split <;> infer_instance

instance (state : Rotations) (importId : Int) (rot : PendingRot) :
    Decidable (state.Apart importId rot) :=
  inferInstanceAs (Decidable (∀ row ∈ _, _))

instance (state : Rotations) (importId : Int) (rot : PendingRot) :
    Decidable (state.Already importId rot) :=
  inferInstanceAs (Decidable (∀ row ∈ _, _))

instance (state : Rotations) (action : Action) :
    Decidable (Faithful state action) := by
  unfold Faithful
  split <;> infer_instance

theorem follows_turnedTwice :
    Visits (step Worker.photographs {}) Follows (initial imported)
      turnedTwice :=
  ((follows_run_iff Worker.photographs {} imported (by decide) turnedTwice
    (by decide +kernel)).mpr (by decide +kernel)).1

end Rotations

end Rotation

end RawImport
