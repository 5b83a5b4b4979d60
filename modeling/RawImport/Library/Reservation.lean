import RawImport.Library.Restarts

/-!
# The reserve loop

The loop is bounded by a count and aims at a value.  Every call that succeeds
returns a key past the one before, so the count carries the keys past the
largest number found, and every later conversion takes a larger one.
-/

namespace RawImport

namespace Reconcile

open PathText Transition

theorem toInt64_nonneg_iff {value : Nat} (bounded : value < 2 ^ 64) :
    0 ≤ toInt64 value ↔ value < 2 ^ 63 := by
  by_cases small : value < 2 ^ 63
  · rw [toInt64_of_lt small]
    omega
  · rw [toInt64_of_ge (by omega) bounded]
    omega

section Loop

variable {context : Context} {cfg : Config} {library : Library} {db : Db}
  {outcomes : Nat → Db.AllocateOutcome}

/-- A loop that meets no failure ends after no round, or with a key that
reaches the bound or lies as far as the rounds carry it. -/
theorem reserve_lastId {mariadb : Mariadb} {maxN : Int} (rounds i : Nat)
    (reserved : Reserved)
    (succeeded : (reserve mariadb maxN outcomes rounds i
      reserved).failed = false) :
    (rounds = 0 ∧
      reserve mariadb maxN outcomes rounds i reserved = reserved) ∨
    ∃ id, 0 < rounds ∧ id < 2 ^ 64 ∧
      (reserve mariadb maxN outcomes rounds i reserved).lastId =
        toInt64 id ∧
      (reserve mariadb maxN outcomes rounds i
        reserved).db.nextSequence = id + 1 ∧
      (maxN ≤ toInt64 id ∨
        max reserved.db.nextSequence 1 + rounds ≤ id + 1) := by
  induction rounds generalizing i reserved with
  | zero => exact .inl ⟨rfl, rfl⟩
  | succ rounds ih =>
      right
      rcases Db.allocateSequence_cases mariadb reserved.db (outcomes i) with
        ⟨id, unallocated, bounded, counter, -, names⟩ | ⟨-, names⟩
      · have lastId : (reserved.db.allocateSequence mariadb
            (outcomes i)).2.1 = toInt64 id := by
          rw [names]
        simp only [reserve] at succeeded ⊢
        rw [lastId] at succeeded ⊢
        split at succeeded
        · cases succeeded
        · rename_i nonzero
          rw [if_neg nonzero]
          have positive : id ≠ 0 := by
            rintro rfl
            exact nonzero toInt64_zero
          split at succeeded
          · rename_i reached
            rw [if_pos reached]
            exact ⟨id, Nat.succ_pos _, bounded, by simp only, counter,
              .inl reached⟩
          · rename_i below
            rw [if_neg below]
            rcases ih _ _ succeeded with ⟨rfl, unchanged⟩ |
              ⟨last, -, lastBounded, lastEq, lastCounter, far⟩
            · rw [unchanged]
              refine ⟨id, Nat.succ_pos _, bounded, by simp only, counter,
                .inr ?_⟩
              omega
            · refine ⟨last, Nat.succ_pos _, lastBounded, lastEq, lastCounter, ?_⟩
              simp only [counter] at far
              omega
      · have zero : (reserved.db.allocateSequence mariadb
            (outcomes i)).2.1 = 0 := by
          rw [names]
        simp only [reserve, zero] at succeeded
        cases succeeded

theorem visitFile_maxN (context : Context) (scan : Scan)
    (visit : Path × Entry) :
    (visitFile context scan visit).maxN =
      (imgNumber visit.2.name).elim scan.maxN fun n =>
        if scan.maxN < n then n else scan.maxN := by
  unfold visitFile
  cases imgNumber visit.2.name with
  | none => rfl
  | some n =>
      simp only [Option.elim]
      split
      · rfl
      · rfl

theorem le_maxN (list : List (Path × Entry)) (scan : Scan) :
    scan.maxN ≤ (list.foldl (visitFile context) scan).maxN ∧
      ∀ visit ∈ list, ∀ n, imgNumber visit.2.name = some n →
        n ≤ (list.foldl (visitFile context) scan).maxN := by
  induction list generalizing scan with
  | nil => exact ⟨le_rfl, by simp⟩
  | cons first list ih =>
      obtain ⟨grows, below⟩ := ih (visitFile context scan first)
      have maxN := visitFile_maxN context scan first
      rw [List.foldl_cons]
      constructor
      · refine le_trans ?_ grows
        rw [maxN]
        cases imgNumber first.2.name with
        | none => exact le_rfl
        | some n =>
            simp only [Option.elim]
            split
            · omega
            · exact le_rfl
      · intro visit member n number
        rcases List.mem_cons.mp member with rfl | later
        · refine le_trans ?_ grows
          rw [maxN, number]
          simp only [Option.elim]
          split
          · exact le_rfl
          · omega
        · exact below visit later n number

/-- The largest number of the library, 0 for a library without numbers. -/
def maxNumber (context : Context) (cfg : Config) (library : Library)
    (db : Db) : Int :=
  (scanLibrary context cfg library db).maxN

theorem maxNumber_nonneg (context : Context) (cfg : Config)
    (library : Library) (db : Db) :
    0 ≤ maxNumber context cfg library db := by
  unfold maxNumber
  rw [scanLibrary_eq]
  exact (le_maxN (libraryVisits cfg library) { db := db }).1

theorem le_maxNumber (context : Context) (db : Db)
    {visit : Path × Entry} {n : Int}
    (member : visit ∈ libraryVisits cfg library)
    (number : imgNumber visit.2.name = some n) :
    n ≤ maxNumber context cfg library db := by
  unfold maxNumber
  rw [scanLibrary_eq]
  exact (le_maxN (libraryVisits cfg library) { db := db }).2 visit member n
    number

/-- How the loop ends when no call fails: without a round, or with a key that
has reached the largest number. -/
theorem reconcile_lastId
    (succeeded : (reconcileLibrary context cfg library outcomes
      db).1.failed = false) :
    (maxNumber context cfg library db = 0 ∧
      (reconcileLibrary context cfg library outcomes db).1.lastId = 0) ∨
    ∃ id, id < 2 ^ 64 ∧
      (reconcileLibrary context cfg library outcomes db).1.lastId =
        toInt64 id ∧
      (reconcileLibrary context cfg library outcomes
        db).1.db.nextSequence = id + 1 ∧
      0 < maxNumber context cfg library db ∧
      maxNumber context cfg library db ≤ id := by
  have nonneg := maxNumber_nonneg context cfg library db
  rcases reserve_lastId _ _ _ succeeded with ⟨rounds, unchanged⟩ |
    ⟨id, rounds, bounded, lastId, counter, far⟩
  · left
    refine ⟨by unfold maxNumber at nonneg ⊢; omega, ?_⟩
    exact congrArg Reserved.lastId unchanged
  · right
    have positive : 0 < maxNumber context cfg library db := by
      unfold maxNumber
      omega
    refine ⟨id, bounded, lastId, counter, positive, ?_⟩
    rcases far with reached | carried
    · have small := (toInt64_nonneg_iff bounded).mp
        (le_trans nonneg reached)
      rw [toInt64_of_lt small] at reached
      exact reached
    · unfold maxNumber at nonneg ⊢
      omega

/-- The loop reaches the largest number exactly when it has nothing to reach
or its keys stay below `2 ^ 63`. -/
theorem maxNumber_le_lastId_iff
    (succeeded : (reconcileLibrary context cfg library outcomes
      db).1.failed = false) :
    maxNumber context cfg library db ≤
        (reconcileLibrary context cfg library outcomes db).1.lastId ↔
      maxNumber context cfg library db = 0 ∨
        (reconcileLibrary context cfg library outcomes
          db).1.db.nextSequence ≤ 2 ^ 63 := by
  rcases reconcile_lastId succeeded with ⟨zero, lastId⟩ |
    ⟨id, bounded, lastId, counter, positive, reached⟩
  · rw [zero, lastId]
    simp
  · rw [lastId, counter]
    constructor
    · intro below
      have small := (toInt64_nonneg_iff bounded).mp
        (le_trans positive.le below)
      exact .inr small
    · rintro (zero | small)
      · omega
      · rw [toInt64_of_lt small]
        exact reached

theorem maxNumber_lt_of_counter_le
    (succeeded : (reconcileLibrary context cfg library outcomes
      db).1.failed = false) {number : Nat}
    (unallocated : (reconcileLibrary context cfg library outcomes
      db).1.db.nextSequence ≤ number) (positive : number ≠ 0) :
    maxNumber context cfg library db < number := by
  rcases reconcile_lastId succeeded with ⟨zero, -⟩ |
    ⟨id, -, -, counter, -, reached⟩
  · omega
  · omega

end Loop

section Later

variable {n : Nat}

/-- The path that an allocating pass computes for its output. -/
def computedPath (platform : Worker.Platform) (cfg : Config)
    (world : Worker.World n) : Operation n → List Path
  | .work (.pass thread (.allocate outcome)) =>
      match world.threads thread with
      | some ⟨_, .allocate srcHash ex⟩ =>
          let (_, seqId, seqName) :=
            world.shared.db.allocateSequence platform.mariadb outcome
          if seqId = 0 then []
          else [(Worker.ProcessFile.conversion cfg srcHash ex seqId
            seqName).dst]
      | _ => []
  | _ => []

/-- A path named after a key from the counter on. -/
def Unallocated (world : Worker.World n) (path : Path) : Prop :=
  ∃ number, world.shared.db.nextSequence ≤ number ∧ number ≠ 0 ∧
    number < 2 ^ 64 ∧
    filename path = Db.sequenceName (toInt64 number) ++ ".dng"

variable {platform : Worker.Platform} {cfg : Config}
  {world after : Worker.World n}

theorem Unallocated.mono {path : Path}
    (unallocated : Unallocated after path)
    (grows : world.shared.db.nextSequence ≤ after.shared.db.nextSequence) :
    Unallocated world path := by
  obtain ⟨number, above, positive, bounded, named⟩ := unallocated
  exact ⟨number, grows.trans above, positive, bounded, named⟩

/-- A step computes nothing, or one path with the key it takes. -/
theorem computedPath_step {operation : Operation n}
    (taken : step platform cfg world operation = some after) :
    world.shared.db.nextSequence ≤ after.shared.db.nextSequence ∧
      (computedPath platform cfg world operation = [] ∨
        ∃ number folder, world.shared.db.nextSequence ≤ number ∧
          number ≠ 0 ∧ number < 2 ^ 64 ∧
          after.shared.db.nextSequence = number + 1 ∧
          computedPath platform cfg world operation =
            [Worker.ProcessFile.outputPath cfg folder
              (Db.sequenceName (toInt64 number))]) := by
  cases operation with
  | restart cwd library outcomes clock wall =>
      cases taken
      exact ⟨le_reconcile_counter .., .inl rfl⟩
  | work action =>
      rcases Worker.step_cases taken with ⟨quiet, sameDb, -, -⟩ |
        ⟨thread, event, ⟨path, stage⟩, shared, stage', rfl, busy, passStep,
          rfl⟩
      · refine ⟨by rw [sameDb], .inl ?_⟩
        cases action with
        | pass thread event => exact (quiet thread event rfl).elim
        | _ => rfl
      · refine ⟨passStep.counter.1, ?_⟩
        cases passStep with
        | noSequence failed =>
            left
            simp only [computedPath, busy, failed]
            rfl
        | allocate allocated =>
            rename_i srcHash ex outcome
            right
            rcases Db.allocateSequence_cases platform.mariadb
                world.shared.db outcome with
              ⟨number, unallocated, bounded, counter, -, names⟩ | ⟨-, names⟩
            · have positive : number ≠ 0 := by
                rintro rfl
                rw [names] at allocated
                exact allocated toInt64_zero
              refine ⟨number,
                buildFolderSchema cfg.folderSchema ex.date,
                unallocated, positive, bounded, counter, ?_⟩
              simp only [computedPath, busy, if_neg allocated]
              exact congrArg (fun key =>
                [(Worker.ProcessFile.conversion cfg srcHash ex key.1
                  key.2).dst]) names
            · rw [names] at allocated
              exact (allocated rfl).elim
        | _ => exact .inl rfl

/-- A run computes paths with different file names, all named after keys that
were not allocated when it started. -/
theorem computedPath_run (platform : Worker.Platform) (cfg : Config)
    (world : Worker.World n) (operations : List (Operation n)) :
    (outputs (step platform cfg) (computedPath platform cfg) world
        operations).Pairwise
        (fun first second => filename first ≠ filename second) ∧
      ∀ path ∈ outputs (step platform cfg) (computedPath platform cfg)
        world operations, Unallocated world path := by
  refine outputs_fresh Unallocated ?_ ?_ world operations
  · intro world operation after path taken unallocated
    exact unallocated.mono (computedPath_step taken).1
  · intro world operation after taken
    rcases (computedPath_step taken).2 with none |
      ⟨number, folder, unallocated, positive, bounded, counter, one⟩
    · rw [none]
      exact ⟨List.Pairwise.nil, by simp⟩
    · have named := Worker.ProcessFile.filename_outputPath cfg folder
        (toInt64 number)
      rw [one]
      refine ⟨List.pairwise_singleton _ _, ?_⟩
      intro path member
      rw [List.mem_singleton.mp member]
      refine ⟨⟨number, unallocated, positive, bounded, named⟩, ?_⟩
      rintro later ⟨other, above, -, otherBounded, laterNamed⟩ same
      rw [named, laterNamed] at same
      have equal := toInt64_injective bounded otherBounded
        (number_of_numbered same)
      omega

/-- A name with a key past a number is not the name with that number. -/
theorem ne_of_imgNumber_lt {name : String} {found : Int} {number : Nat}
    (read : imgNumber name = some found) (past : found < number)
    (bounded : number < 2 ^ 64) :
    Db.sequenceName (toInt64 number) ++ ".dng" ≠ name := by
  rintro rfl
  by_cases small : number < 2 ^ 63
  · rw [toInt64_of_lt small, imgNumber_nat] at read
    cases read
    unfold int64Max at past
    omega
  · rw [toInt64_of_ge (by omega) bounded] at read
    obtain ⟨id, negative⟩ := Int.eq_negSucc_of_lt_zero
      (a := (number : Int) - 2 ^ 64) (by omega)
    rw [negative, imgNumber_negSucc] at read
    cases read

/-- The paths are different, and none has the name of a numbered file of the
library, so none is the path of one. -/
structure NoOverwrite (context : Context) (cfg : Config)
    (library : Library) (paths : List Path) : Prop where
  different : paths.Nodup
  names : ∀ path ∈ paths, ∀ visit ∈ libraryVisits cfg library,
    imgNumber visit.2.name ≠ none → filename path ≠ visit.2.name
  files : ∀ path ∈ paths, ∀ visit ∈ libraryVisits cfg library,
    imgNumber visit.2.name ≠ none →
      path ≠ entryAbsolute context visit.1 visit.2

theorem noOverwrite_of_reserved {context : Context} {own : Config}
    {library : Library} {outcomes : Nat → Db.AllocateOutcome} {db : Db}
    (succeeded : (reconcileLibrary context own library outcomes
      db).1.failed = false)
    (started : world.shared.db =
      (reconcileLibrary context own library outcomes db).1.db)
    (operations : List (Operation n)) :
    NoOverwrite context own library
      (outputs (step platform cfg) (computedPath platform cfg) world
        operations) := by
  obtain ⟨different, unallocated⟩ :=
    computedPath_run platform cfg world operations
  have names : ∀ path ∈ outputs (step platform cfg)
      (computedPath platform cfg) world operations,
      ∀ visit ∈ libraryVisits own library,
        imgNumber visit.2.name ≠ none → filename path ≠ visit.2.name := by
    intro path member visit visited numbered
    obtain ⟨found, read⟩ := Option.ne_none_iff_exists'.mp numbered
    obtain ⟨number, above, positive, bounded, named⟩ :=
      unallocated path member
    rw [started] at above
    have past := maxNumber_lt_of_counter_le succeeded above positive
    have reached := le_maxNumber context db visited read
    rw [named]
    exact ne_of_imgNumber_lt read (lt_of_le_of_lt reached past) bounded
  refine ⟨?_, names, ?_⟩
  · refine different.imp ?_
    rintro first second other rfl
    exact other rfl
  · rintro path member visit visited numbered rfl
    exact names _ member visit visited numbered
      (filename_entryAbsolute context visit.1 visit.2)

/-- When no call of the loop fails, it ends with a key that reaches the largest
number, except where it passes `2 ^ 63`; and no later run, over restarts too,
computes the path of a found file or one path twice. -/
theorem reserved_noOverwrite (context : Context) (own : Config)
    (library : Library) (outcomes : Nat → Db.AllocateOutcome) (db : Db)
    (succeeded : (reconcileLibrary context own library outcomes
      db).1.failed = false) :
    (maxNumber context own library db ≤
        (reconcileLibrary context own library outcomes db).1.lastId ↔
      maxNumber context own library db = 0 ∨
        (reconcileLibrary context own library outcomes
          db).1.db.nextSequence ≤ 2 ^ 63) ∧
    ∀ (n : Nat) (platform : Worker.Platform) (cfg : Config)
      (clock wall : Int) (fs : Fs) (operations : List (Operation n)),
      NoOverwrite context own library
        (outputs (step platform cfg) (computedPath platform cfg)
          (Worker.World.initial clock wall fs
            (reconcileLibrary context own library outcomes db).1.db)
          operations) :=
  ⟨maxNumber_le_lastId_iff succeeded,
    fun _ _ _ _ _ _ operations =>
      noOverwrite_of_reserved succeeded rfl operations⟩

/-- The first start over one converted file, and an import after it. -/
theorem reserved_noOverwrite_oneDng :
    (maxNumber oneFile {} oneDng {} ≤
        (reconcileLibrary oneFile {} oneDng (fun _ => {}) {}).1.lastId ↔
      maxNumber oneFile {} oneDng {} = 0 ∨
        (reconcileLibrary oneFile {} oneDng (fun _ => {})
          {}).1.db.nextSequence ≤ 2 ^ 63) ∧
    NoOverwrite oneFile {} oneDng
      (outputs (step Worker.photographs {})
        (computedPath Worker.photographs {})
        (Worker.World.initial (n := 1) 0 (60 * Worker.nsPerSecond)
          (fun path =>
            if path = "/watch/DSC_0001.NEF" then some ⟨[1], 0⟩ else none)
          (reconcileLibrary oneFile {} oneDng (fun _ => {}) {}).1.db)
        ((Worker.scanning "DSC_0001.NEF" ++
          Worker.importing 0 "2024-05-01" ⟨[7], 0⟩ true).map .work)) :=
  have reserved := reserved_noOverwrite oneFile {} oneDng (fun _ => {}) {}
    (by decide +kernel)
  ⟨reserved.1, reserved.2 1 Worker.photographs {} 0 (60 * Worker.nsPerSecond) _ _⟩

/-- A counter that has left the signed range: no call fails, and the loop
ends below the number it aims at. -/
theorem reserve_below_number :
    (reconcileLibrary oneFile {} oneDng (fun _ => {})
        { nextSequence := 2 ^ 63 }).1.failed = false ∧
    (reconcileLibrary oneFile {} oneDng (fun _ => {})
        { nextSequence := 2 ^ 63 }).1.lastId = -2 ^ 63 ∧
    maxNumber oneFile {} oneDng { nextSequence := 2 ^ 63 } = 1 := by
  decide +kernel

end Later

end Reconcile

end RawImport
