import RawImport.Library.Operations
import RawImport.Worker.Machine

/-!
# The audit trail of preview edits

A `preview-updated` request writes the new hash and then its audit row, each
by one statement whose result nobody looks at.  The audit row names
`api-preview-updated` as its worker, which is longer than the column.
-/

namespace RawImport

open Transition

/-- The handler with the first hash of every import. -/
structure PreviewEdits where
  shared : Worker.Shared
  first : Nat → String

namespace PreviewEdits

inductive Action where
  | reembed (fs : Fs)
  | request (outputPath : Path) (call : Api.PreviewCall)

/-- Any program may rewrite the files between two requests. -/
def step (platform : Worker.Platform) (state : PreviewEdits) :
    Action → Option PreviewEdits
  | .reembed fs =>
      some { state with shared := { state.shared with fs := fs } }
  | .request outputPath call =>
      some { state with
        shared :=
          (Api.previewUpdated platform state.shared outputPath call).1 }

/-- Audit rows that lead from one hash to another. -/
def Chain : String → List PreviewEditRow → String → Prop
  | hash, [], current => hash = current
  | hash, edit :: edits, current =>
      edit.previousOutputHash = hash ∧
        Chain edit.newOutputHash edits current

def editsOf (db : Db) (importId : Nat) : List PreviewEditRow :=
  db.previewEdits.filter fun edit => edit.importId == importId

/-- Every import's audit rows lead from its first to its current hash. -/
def Chained (state : PreviewEdits) : Prop :=
  ∀ row ∈ state.shared.db.imports,
    Chain (state.first row.id) (editsOf state.shared.db row.id)
      row.outputHash

/-- A request answered with 200 that changed a hash has left its row. -/
def EditRecorded (platform : Worker.Platform) (state : PreviewEdits) :
    Action → Prop
  | .request outputPath call =>
      let answer := Api.previewUpdated platform state.shared outputPath call
      answer.2.status = 200 →
        ∀ row ∈ state.shared.db.imports, ∀ changed ∈ answer.1.db.imports,
          changed.id = row.id → changed.outputHash ≠ row.outputHash →
            ∃ edit ∈ answer.1.db.previewEdits,
              edit.importId = row.id ∧
                edit.previousOutputHash = row.outputHash ∧
                edit.newOutputHash = changed.outputHash
  | .reembed _ => True

/-- A request whose hash update takes effect finds the hash it writes. -/
def Unchanged (platform : Worker.Platform) (state : PreviewEdits) :
    Action → Prop
  | .request outputPath call =>
      ∀ row ∈ state.shared.db.getImportByOutputPath platform.mariadb
          outputPath call.found,
        outputPath ≠ "" →
          sha256File platform.digest state.shared.fs outputPath
            call.opened ≠ "" →
          call.hashUpdated = true →
          (sha256File platform.digest state.shared.fs outputPath
            call.opened).length ≤ 64 →
          row.outputHash = sha256File platform.digest state.shared.fs
            outputPath call.opened
  | .reembed _ => True

theorem Chain.end_unique {hash current other : String}
    {edits : List PreviewEditRow} (chain : Chain hash edits current)
    (chain' : Chain hash edits other) : current = other := by
  induction edits generalizing hash with
  | nil =>
      have ends : hash = current := chain
      have ends' : hash = other := chain'
      rw [← ends, ← ends']
  | cons edit edits ih => exact ih chain.2 chain'.2

theorem recordPreviewEdit_refused (db : Db) (importId : Nat)
    (previousHash newHash : String) (recorded : Bool) :
    db.recordPreviewEdit importId "api-preview-updated" previousHash newHash
      0 0 0 recorded = db := by
  unfold Db.recordPreviewEdit
  apply if_neg
  intro fits
  exact absurd fits.2.1 (by decide)

/-- What a request leaves: the library as it was, or the hash update. -/
theorem previewUpdated_cases (platform : Worker.Platform)
    (shared : Worker.Shared) (outputPath : Path) (call : Api.PreviewCall) :
    ((Api.previewUpdated platform shared outputPath call).1 = shared ∧
      (Api.previewUpdated platform shared outputPath call).2.status ≠
        200 ∧
      ∀ row ∈ shared.db.getImportByOutputPath platform.mariadb outputPath
        call.found, outputPath ≠ "" →
          sha256File platform.digest shared.fs outputPath call.opened =
            "") ∨
    ∃ row ∈ shared.db.getImportByOutputPath platform.mariadb outputPath
        call.found,
      outputPath ≠ "" ∧
      sha256File platform.digest shared.fs outputPath call.opened ≠ "" ∧
      (Api.previewUpdated platform shared outputPath call).2.status = 200 ∧
      (Api.previewUpdated platform shared outputPath call).1 =
        { shared with
          db := shared.db.updateOutputHash row.id
            (sha256File platform.digest shared.fs outputPath call.opened)
            call.hashUpdated } := by
  unfold Api.previewUpdated
  split
  · rename_i missing
    left
    exact ⟨rfl, by simp [Api.failure], fun _ _ named =>
      (named missing).elim⟩
  · rename_i named
    cases looked : shared.db.getImportByOutputPath platform.mariadb
        outputPath call.found with
    | none =>
        left
        exact ⟨rfl, by simp [Api.failure], fun _ found => by cases found⟩
    | some row =>
        simp only
        split
        · rename_i unread
          left
          exact ⟨rfl, by simp [Api.failure], fun _ _ _ => unread⟩
        · rename_i read
          right
          refine ⟨row, rfl, named, read, rfl, ?_⟩
          rw [recordPreviewEdit_refused]

section Requests

variable {platform : Worker.Platform} {state next : PreviewEdits}
  {outputPath : Path} {call : Api.PreviewCall} {row : ImportRow}

theorem found_mem
    (found : row ∈ state.shared.db.getImportByOutputPath platform.mariadb
      outputPath call.found) : row ∈ state.shared.db.imports := by
  exact Db.mem_of_getImportByOutputPath (Option.mem_def.mp found)

theorem Chained.same_hash (chained : state.Chained) {other : ImportRow}
    (member : row ∈ state.shared.db.imports)
    (otherMember : other ∈ state.shared.db.imports)
    (same : other.id = row.id) : other.outputHash = row.outputHash := by
  have chain := chained other otherMember
  rw [same] at chain
  exact chain.end_unique (chained row member)

theorem Chained.update_same (chained : state.Chained)
    (member : row ∈ state.shared.db.imports) (executed : Bool) :
    state.shared.db.updateOutputHash row.id row.outputHash executed =
      state.shared.db := by
  unfold Db.updateOutputHash
  split
  · have fixed : state.shared.db.imports.map (fun other =>
        if (other.id : Int) = row.id then
          { other with outputHash := row.outputHash }
        else other) = state.shared.db.imports := by
      nth_rewrite 2 [← List.map_id' state.shared.db.imports]
      apply List.map_congr_left
      intro other otherMember
      split
      · rename_i same
        have equal := chained.same_hash member otherMember
          (Int.natCast_inj.mp same)
        rw [← equal]
      · rfl
    rw [fixed]
  · rfl

/-- A request that changes no hash keeps the chains and has nothing to
record. -/
theorem chained_step {action : Action} (chained : state.Chained)
    (unchanged : Unchanged platform state action)
    (stepped : step platform state action = some next) :
    next.Chained ∧ EditRecorded platform state action := by
  cases action with
  | reembed fs =>
      cases stepped
      exact ⟨chained, trivial⟩
  | request outputPath call =>
      cases stepped
      rcases previewUpdated_cases platform state.shared outputPath call with
        ⟨same, refused, -⟩ | ⟨row, found, named, read, -, after⟩
      · constructor
        · unfold Chained
          simp only [same]
          exact chained
        · intro accepted
          exact (refused accepted).elim
      · have member := found_mem found
        have database : state.shared.db.updateOutputHash row.id
            (sha256File platform.digest state.shared.fs outputPath
              call.opened) call.hashUpdated = state.shared.db := by
          by_cases effective : call.hashUpdated = true ∧
              (sha256File platform.digest state.shared.fs outputPath
                call.opened).length ≤ 64
          · have equal := unchanged row found named read effective.1
              effective.2
            rw [← equal]
            exact chained.update_same member call.hashUpdated
          · exact if_neg effective
        rw [database] at after
        constructor
        · unfold Chained
          simp only [after]
          exact chained
        · intro accepted before beforeMember changed changedMember sameId
            differs
          have kept : changed ∈ state.shared.db.imports := by
            rwa [after] at changedMember
          exact (differs (chained.same_hash beforeMember kept sameId)).elim

theorem unchanged_of_chained {action : Action} (chained : state.Chained)
    (stepped : step platform state action = some next)
    (chained' : next.Chained) : Unchanged platform state action := by
  cases action with
  | reembed fs => trivial
  | request outputPath call =>
      cases stepped
      intro row found named read updated fits
      have member := found_mem found
      rcases previewUpdated_cases platform state.shared outputPath call with
        ⟨-, -, unread⟩ | ⟨row', found', -, -, -, after⟩
      · exact (read (unread row found named)).elim
      · rw [Option.mem_def.mp found] at found'
        cases found'
        have effective : state.shared.db.updateOutputHash row.id
            (sha256File platform.digest state.shared.fs outputPath
              call.opened) call.hashUpdated = _ :=
          if_pos ⟨updated, fits⟩
        have changed := chained'
          { row with
            outputHash := sha256File platform.digest state.shared.fs
              outputPath call.opened }
          (by
            simp only [after, effective]
            exact List.mem_map.mpr ⟨row, member, if_pos rfl⟩)
        simp only [after, effective] at changed
        exact (chained row member).end_unique changed

end Requests

/-- Over all sequences of requests, whatever else rewrites the files between
them: every changed hash has its audit row and the rows form chains exactly
when no request changes a hash. -/
theorem chained_run_iff (platform : Worker.Platform) (start : PreviewEdits)
    (chained : start.Chained) (actions : List Action) :
    Visits (step platform) Chained start actions ∧
        Along (step platform) (EditRecorded platform) start actions ↔
      Along (step platform) (Unchanged platform) start actions := by
  apply visits_and_along_iff Chained
  · intro state chained
    exact chained
  · intro state action next chained _ unchanged stepped
    exact chained_step chained unchanged stepped
  · intro state action next chained _ stepped chained' _
    exact unchanged_of_chained chained stepped chained'
  · exact chained
  · exact along_of_forall (fun _ _ => True.intro) start actions

instance (platform : Worker.Platform) (state : PreviewEdits)
    (action : Action) : Decidable (Unchanged platform state action) := by
  unfold Unchanged
  split <;> infer_instance

instance : (hash : String) → (edits : List PreviewEditRow) →
    (current : String) → Decidable (Chain hash edits current)
  | hash, [], current => inferInstanceAs (Decidable (hash = current))
  | hash, edit :: edits, current =>
      match decEq edit.previousOutputHash hash,
          instDecidableChain edit.newOutputHash edits current with
      | .isTrue here, .isTrue later => .isTrue ⟨here, later⟩
      | .isFalse differs, _ => .isFalse fun chain => differs chain.1
      | _, .isFalse broken => .isFalse fun chain => broken chain.2

/-- One import with the hash of bytes 1, and nothing audited. -/
def oneImport : PreviewEdits :=
  { shared :=
      { fs := fun path =>
          if path = "/library/IMG_1.dng" then some ⟨[1], 0⟩ else none
        db :=
          { imports :=
              [{ id := 1
                 sequenceId := 1
                 sourcePath := "/watch/DSC_0001.NEF"
                 sourceHash := ""
                 outputPath := "/library/IMG_1.dng"
                 outputHash := Worker.photographs.digest.sha256 [1]
                 cameraModel := none
                 captureDate := none
                 captureTime := none
                 dateSource := .exif
                 folderSchema := none
                 conversionSettings := none
                 status := .completed
                 createdAt := none
                 completedAt := none
                 orientation := none }]
            nextImport := 2 } }
    first := fun _ => Worker.photographs.digest.sha256 [1] }

theorem oneImport_chained : oneImport.Chained := by
  intro row member
  obtain rfl := List.mem_singleton.mp member
  rfl

def announced : List Action :=
  [.reembed fun path =>
      if path = "/library/IMG_1.dng" then some ⟨[2], 0⟩ else none,
    .request "/library/IMG_1.dng" {}]

/-- The request is answered with 200 and has changed the hash, and
`preview_edits` is still empty. -/
theorem edit_unrecorded :
    ∃ state next,
      run (step Worker.photographs) oneImport announced.dropLast =
        some state ∧
      step Worker.photographs state (.request "/library/IMG_1.dng" {}) =
        some next ∧
      (Api.previewUpdated Worker.photographs state.shared
        "/library/IMG_1.dng" {}).2.status = 200 ∧
      state.shared.db.imports.map ImportRow.outputHash =
        [Worker.photographs.digest.sha256 [1]] ∧
      next.shared.db.imports.map ImportRow.outputHash =
        [Worker.photographs.digest.sha256 [2]] ∧
      next.shared.db.previewEdits = [] ∧
      ¬EditRecorded Worker.photographs state
        (.request "/library/IMG_1.dng" {}) ∧
      ¬next.Chained := by
  refine ⟨_, _, rfl, rfl, by decide +kernel, by decide +kernel,
    by decide +kernel, by decide +kernel, ?_, ?_⟩
  · intro recorded
    obtain ⟨edit, member, -⟩ := recorded (by decide +kernel) _
      (List.mem_singleton.mpr rfl) _ (List.mem_singleton.mpr rfl) rfl
      (by decide +kernel)
    cases member
  · intro chained
    have chain := chained _ (List.mem_singleton.mpr rfl)
    exact absurd chain (by decide +kernel)

/-- An announcement of a DNG that is as it was. -/
def unchangedDng : List Action :=
  [.request "/library/IMG_1.dng" {}]

theorem chained_unchangedDng :
    Visits (step Worker.photographs) Chained oneImport unchangedDng :=
  ((chained_run_iff Worker.photographs oneImport oneImport_chained
    unchangedDng).mpr (by decide +kernel)).1

end PreviewEdits

end RawImport
