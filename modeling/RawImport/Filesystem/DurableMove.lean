import RawImport.Filesystem.Move

/-!
# What a crash leaves of a copied file

The fallback of `move_file` syncs its copy, but looks at no result of a sync.
A copy is safe from a crash when its bytes have reached the disk, and is found
again when the entry in its directory has too.
-/

namespace RawImport

namespace Move

open Transition

/-- Both the bytes and the entry of the target have reached the disk. -/
def State.findable (state : State) : Bool :=
  state.settled && state.linked

/-- The source is removed only when the copy is whole and durable, and a
refused move leaves it as it was. -/
structure DurablyMoved (durable : State → Bool) (source target : Path)
    (file : File) (state : State) : Prop where
  removed : state.fs source = none →
    state.fs.bytesAt target = some file.bytes ∧ durable state = true
  moved : state.stage = .returned true → state.fs source = none
  refused : state.stage = .returned false → state.fs source = some file

/-- A failure on the way to the disk that `move_file` does not look at. -/
def Call.unsynced : Call → Bool
  | .fsync done => !done
  | .openCopy opened => !opened
  | .fsyncCopy done => !done
  | _ => false

/-- The directory is synced, as only the first route tries. -/
def Call.linking : Call → Bool
  | .fsyncDir done => done
  | _ => false

def bytesSynced (past : List (State × Call)) : Bool :=
  !past.any fun taken => taken.2.unsynced

/-- The target was there, or its directory was synced. -/
def entrySynced (existed : Bool) (past : List (State × Call)) : Bool :=
  existed || past.any fun taken => taken.2.linking

/-- The source is removed only behind such calls. -/
def RemovedBehind (synced : List (State × Call) → Bool)
    (tracked : Tracked State Call) (call : Call) : Prop :=
  call = .remove true → synced tracked.past = true

@[simp] theorem bytesSynced_cons (state : State) (call : Call)
    (past : List (State × Call)) :
    bytesSynced ((state, call) :: past) =
      (!call.unsynced && bytesSynced past) := by
  simp [bytesSynced]

@[simp] theorem entrySynced_cons (existed : Bool) (state : State)
    (call : Call) (past : List (State × Call)) :
    entrySynced existed ((state, call) :: past) =
      (call.linking || entrySynced existed past) := by
  unfold entrySynced
  rw [List.any_cons, Bool.or_left_comm]

/-- What has reached the disk at a stage: behind the syncs, all that no
failure kept from it. -/
def SettledAt (stage : Stage) (settled synced : Bool) : Prop :=
  match stage with
  | .renaming => False
  | .openingSource => synced = true
  | .stating => synced = true
  | .openingTarget _ => synced = true
  | .openingDir => settled = synced
  | .syncingDir => settled = synced
  | .removing => settled = synced
  | .returned _ => True
  | _ => settled = false ∧ synced = true

/-- What has reached the disk is what the calls have synced. -/
structure Recorded (existed : Bool) (tracked : Tracked State Call) :
    Prop where
  settled : SettledAt tracked.now.stage tracked.now.settled
    (bytesSynced tracked.past)
  linked : tracked.now.linked = entrySynced existed tracked.past

section Steps

variable {fs : Fs} {source target : Path} {file : File}
  {existed : Bool} {tracked after : Tracked State Call} {call : Call}
  {state next : State}

theorem settledAt_copyEnded {size copied : Nat} {synced : Bool}
    (clean : synced = true) :
    SettledAt (copyEnded size copied) false synced := by
  unfold copyEnded
  split
  · exact ⟨rfl, clean⟩
  · exact ⟨rfl, clean⟩

theorem settledAt_copyLoop {size offset copied : Nat} {synced : Bool}
    (clean : synced = true) :
    SettledAt (copyLoop size offset copied) false synced := by
  unfold copyLoop
  split
  · exact ⟨rfl, clean⟩
  · exact settledAt_copyEnded clean

theorem settledAt_sync {settled synced done : Bool}
    (unsettled : settled = false ∧ synced = true) :
    (settled || done) = (!!done && synced) := by
  rw [unsettled.1, unsettled.2, Bool.false_or, Bool.not_not, Bool.and_true]

theorem copyEnded_running (size copied : Nat) (result : Bool) :
    copyEnded size copied ≠ .returned result := by
  unfold copyEnded
  intro equal
  split at equal
  · cases equal
  · cases equal

theorem copyLoop_running (size offset copied : Nat) (result : Bool) :
    copyLoop size offset copied ≠ .returned result := by
  unfold copyLoop
  intro equal
  split at equal
  · cases equal
  · exact copyEnded_running size copied result equal

theorem removed_of_returned (running : state.stage ≠ .renaming)
    (taken : step source target state call = some next)
    (returned : next.stage = .returned true) : call = .remove true := by
  cases moves_of_step taken with
  | renamed => exact absurd rfl running
  | openedTarget => exact absurd returned (copyLoop_running _ _ _ _)
  | copied => exact absurd returned (copyLoop_running _ _ _ _)
  | copyStopped => exact absurd returned (copyEnded_running _ _ _)
  | removed => rfl
  | _ => cases returned

theorem Recorded.running (recorded : Recorded existed tracked) :
    tracked.now.stage ≠ .renaming := by
  intro stage
  have settled := recorded.settled
  rw [stage] at settled
  exact settled

theorem recorded_step (recorded : Recorded existed tracked)
    (taken : track (step source target) tracked call = some after) :
    Recorded existed after := by
  obtain ⟨moved, past⟩ := track_eq_some_iff.mp taken
  obtain ⟨settled, linked⟩ := recorded
  have shown : SettledAt after.now.stage after.now.settled
        (!call.unsynced && bytesSynced tracked.past) ∧
      after.now.linked =
        (call.linking || entrySynced existed tracked.past) := by
    clear past taken
    rw [← linked]
    generalize after.now = next at moved
    generalize bytesSynced tracked.past = synced at settled ⊢
    generalize tracked.now = state at moved settled ⊢
    cases moves_of_step moved with
    | renamed => exact settled.elim
    | renameFailed => exact settled.elim
    | openedSource => exact ⟨settled, rfl⟩
    | sourceFailed => exact ⟨trivial, rfl⟩
    | stated => exact ⟨settled, rfl⟩
    | statFailed => exact ⟨trivial, rfl⟩
    | openedTarget => exact ⟨settledAt_copyLoop settled, rfl⟩
    | targetFailed => exact ⟨trivial, rfl⟩
    | copied => exact ⟨settledAt_copyLoop settled.2, rfl⟩
    | copyStopped =>
        obtain ⟨unsettled, clean⟩ := settled
        refine ⟨?_, rfl⟩
        dsimp only at unsettled ⊢
        rw [unsettled]
        exact settledAt_copyEnded clean
    | synced => exact ⟨settledAt_sync settled, rfl⟩
    | openedDir => exact ⟨settled, rfl⟩
    | dirFailed => exact ⟨settled, rfl⟩
    | syncedDir => exact ⟨settled, Bool.or_comm _ _⟩
    | copiedFile => exact ⟨⟨rfl, settled.2⟩, rfl⟩
    | fileFailed => exact ⟨trivial, rfl⟩
    | openedCopy => exact ⟨settled, rfl⟩
    | copyFailed => exact ⟨settled.1, rfl⟩
    | resynced => exact ⟨settledAt_sync settled, rfl⟩
    | removed => exact ⟨trivial, rfl⟩
    | removeFailed => exact ⟨trivial, rfl⟩
  constructor
  · rw [past, bytesSynced_cons]
    exact shown.1
  · rw [past, entrySynced_cons]
    exact shown.2

theorem remove_durable
    (taken : step source target state (.remove true) = some next) :
    state.stage = .removing ∧ next.stage = .returned true ∧
      next.settled = state.settled ∧ next.linked = state.linked := by
  cases moves_of_step taken with
  | removed => exact ⟨rfl, rfl, rfl, rfl⟩

/-- The moving is under way, and what it has done is durable. -/
structure Durable (durable : State → Bool) (fs : Fs) (source target : Path)
    (file : File) (existed : Bool) (tracked : Tracked State Call) :
    Prop where
  progress : Progress fs source target file tracked.now
  recorded : Recorded existed tracked
  moved : tracked.now.stage = .returned true → durable tracked.now = true

theorem Durable.durablyMoved {durable : State → Bool}
    (different : source ≠ target) (present : fs source = some file)
    (holds : Durable durable fs source target file existed tracked) :
    DurablyMoved durable source target file tracked.now := by
  have kept := holds.progress.kept different present
  constructor
  · intro gone
    have returned : tracked.now.stage = .returned true := by
      by_contra still
      rw [holds.progress.present different present still] at gone
      cases gone
    exact ⟨(kept.moved returned).1, holds.moved returned⟩
  · intro returned
    exact (kept.moved returned).2
  · exact kept.refused

/-- A durability that is a matter of the two syncs is kept exactly by the
removals behind calls that give it. -/
theorem durablyMoved_iff {durable : State → Bool}
    {synced : List (State × Call) → Bool}
    (local_durable : ∀ first second : State,
      first.settled = second.settled → first.linked = second.linked →
        durable first = durable second)
    (agree : ∀ tracked : Tracked State Call,
      tracked.now.settled = bytesSynced tracked.past →
        tracked.now.linked = entrySynced existed tracked.past →
          durable tracked.now = synced tracked.past)
    (different : source ≠ target) (present : fs source = some file)
    (start : Durable durable fs source target file existed tracked)
    (calls : List Call) :
    Visits (track (step source target))
        (fun tracked => DurablyMoved durable source target file tracked.now)
        tracked calls ↔
      Along (track (step source target)) (RemovedBehind synced) tracked
        calls := by
  have removal : ∀ before after : Tracked State Call,
      Recorded existed before →
        track (step source target) before (.remove true) = some after →
          after.now.stage = .returned true ∧
            durable after.now = synced before.past := by
    intro before after recorded taken
    obtain ⟨moved, -⟩ := track_eq_some_iff.mp taken
    obtain ⟨stage, returned, settled, linked⟩ := remove_durable moved
    have bytes := recorded.settled
    rw [stage] at bytes
    refine ⟨returned, ?_⟩
    rw [local_durable _ _ settled linked]
    exact agree before bytes recorded.linked
  apply visits_iff_along
    (Durable durable fs source target file existed)
  · intro before holds
    exact holds.durablyMoved different present
  · intro before call after holds allowed taken
    obtain ⟨moved, -⟩ := track_eq_some_iff.mp taken
    have recorded := recorded_step holds.recorded taken
    refine ⟨progress_step different present holds.progress moved,
      recorded, ?_⟩
    intro returned
    have removed :=
      removed_of_returned holds.recorded.running moved returned
    rw [removed] at taken
    rw [(removal before after holds.recorded taken).2]
    exact allowed removed
  · intro before call after holds taken good removed
    rw [removed] at taken
    obtain ⟨returned, durability⟩ :=
      removal before after holds.recorded taken
    rw [← durability]
    exact (good.removed (good.moved returned)).2
  · exact start

theorem Durable.start (durable : State → Bool) (fs : Fs)
    (source target : Path) (file : File) :
    Durable durable fs source target file (fs target).isSome
      (Tracked.start (before fs target .openingSource)) where
  progress := rfl
  recorded := {
    settled := rfl
    linked := (Bool.or_false _).symm }
  moved := fun returned => by cases returned

/-- Where no sync fails, every removal is behind a synced copy. -/
theorem along_of_synced {calls : List Call}
    (clean : bytesSynced tracked.past = true)
    (synced : ∀ call ∈ calls, call.unsynced = false) :
    Along (track (step source target)) (RemovedBehind bytesSynced) tracked
      calls := by
  induction calls generalizing tracked with
  | nil => trivial
  | cons call calls induction =>
      intro next taken
      obtain ⟨-, past⟩ := track_eq_some_iff.mp taken
      have first := synced call List.mem_cons_self
      refine ⟨fun _ => clean, induction ?_ ?_⟩
      · rw [past, bytesSynced_cons, first, clean]
        rfl
      · intro later member
        exact synced later (List.mem_cons_of_mem call member)

end Steps

/-- The fallback removes the source only when the copy is whole and its bytes
are on the disk, exactly when no sync or reopening of the copy fails before a
removal that succeeds.  That the copy is found again needs the target to have
been there, or the sync of its directory. -/
theorem moveFile_durable_iff {fs : Fs} {source target : Path} {file : File}
    (different : source ≠ target) (present : fs source = some file)
    (calls : List Call) :
    (Visits (track (step source target))
        (fun tracked =>
          DurablyMoved State.settled source target file tracked.now)
        (Tracked.start (before fs target .openingSource)) calls ↔
      Along (track (step source target)) (RemovedBehind bytesSynced)
        (Tracked.start (before fs target .openingSource)) calls) ∧
    (Visits (track (step source target))
        (fun tracked =>
          DurablyMoved State.findable source target file tracked.now)
        (Tracked.start (before fs target .openingSource)) calls ↔
      Along (track (step source target))
        (RemovedBehind fun past =>
          bytesSynced past && entrySynced (fs target).isSome past)
        (Tracked.start (before fs target .openingSource)) calls) := by
  constructor
  · apply durablyMoved_iff _ _ different present
      (Durable.start _ fs source target file)
    · intro first second settled _
      exact settled
    · intro tracked settled _
      exact settled
  · apply durablyMoved_iff _ _ different present
      (Durable.start _ fs source target file)
    · intro first second settled linked
      rw [State.findable, settled, linked, State.findable]
    · intro tracked settled linked
      rw [State.findable, settled, linked]

/-- A copy across devices, and how its sync ends. -/
def copyAcross (synced : Bool) : List Call :=
  [.openSource true, .fstat true, .openTarget true 10,
    .copyFileRange 2 11, .fsync synced, .openDir true, .fsyncDir true,
    .remove true]

theorem moveFile_durable_iff_synced :
    Visits (track (step "/watch/a.nef" "/archive/a.nef"))
      (fun tracked => DurablyMoved State.settled "/watch/a.nef"
        "/archive/a.nef" twoBytes tracked.now)
      (Tracked.start (before beforeMove "/archive/a.nef" .openingSource))
      (copyAcross true) := by
  have different : "/watch/a.nef" ≠ "/archive/a.nef" := by decide
  have present : beforeMove "/watch/a.nef" = some twoBytes := rfl
  have exactly :=
    moveFile_durable_iff different present (copyAcross true)
  apply exactly.1.mpr
  apply along_of_synced rfl
  decide

theorem moveFile_unsynced :
    ¬ Visits (track (step "/watch/a.nef" "/archive/a.nef"))
      (fun tracked => DurablyMoved State.settled "/watch/a.nef"
        "/archive/a.nef" twoBytes tracked.now)
      (Tracked.start (before beforeMove "/archive/a.nef" .openingSource))
      (copyAcross false) := by
  intro visits
  have ends : ∃ final, run (track (step "/watch/a.nef" "/archive/a.nef"))
      (Tracked.start (before beforeMove "/archive/a.nef" .openingSource))
      (copyAcross false) = some final ∧
        final.now.stage = .returned true ∧ final.now.settled = false :=
    exists_run_of_decide (by decide +kernel)
  obtain ⟨final, reached, returned, unsettled⟩ := ends
  have durably := visits.final reached
  obtain ⟨-, settled⟩ := durably.removed (durably.moved returned)
  rw [unsettled] at settled
  cases settled

end Move

end RawImport
