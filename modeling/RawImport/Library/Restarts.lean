import RawImport.Library.Numbers
import RawImport.Worker.Tokens

/-!
# Restarts

The scan skips a file that some row has as its *source* path.  Whether it
registers a file a second time is therefore decided by the rows it would take;
the same condition decides, over imports and restarts in any order, whether
two rows come to share an output path.
-/

namespace RawImport

namespace Reconcile

open PathText Transition

section Idempotence

variable {context : Context}

def visitStep (context : Context) (scan : Scan) (visit : Path × Entry) :
    Option Scan :=
  some (visitFile context scan visit)

/-- A visit that inserts a row meets no row with the file's path. -/
def InsertsUnknown (context : Context) (scan : Scan)
    (visit : Path × Entry) : Prop :=
  (visitFile context scan visit).db.imports ≠ scan.db.imports →
    ∀ row ∈ scan.db.imports,
      row.outputPath ≠ entryAbsolute context visit.1 visit.2

/-- The scan inserts no row for a file whose absolute path is already the
output path of some row. -/
def NoReinsert (context : Context) (cfg : Config) (library : Library)
    (db : Db) : Prop :=
  Along (visitStep context) (InsertsUnknown context) { db := db }
    (libraryVisits cfg library)

/-- The paths of the files that the tables would register. -/
def registeredPaths (context : Context) (cfg : Config) (library : Library)
    (db : Db) : List Path :=
  (registered context cfg library db).map fun visit =>
    entryAbsolute context visit.1 visit.2

/-- The files the tables would register are different files, and no row has
one of their paths. -/
structure Separate (context : Context) (cfg : Config) (library : Library)
    (db : Db) : Prop where
  different : (registeredPaths context cfg library db).Nodup
  unknown : ∀ path ∈ registeredPaths context cfg library db,
    path ∉ db.imports.map ImportRow.outputPath

theorem inserts_iff {scan : Scan} {visit : Path × Entry} :
    (visitFile context scan visit).db.imports ≠ scan.db.imports ↔
      Registers context scan.db visit := by
  rcases visitFile_cases context scan visit with
    ⟨registers, row, after, -⟩ | ⟨refused, after⟩
  · rw [after]
    simp [registers]
  · rw [after]
    simp [refused]

theorem unknown_iff {db : Db} {path : Path} :
    (∀ row ∈ db.imports, row.outputPath ≠ path) ↔
      path ∉ db.imports.map ImportRow.outputPath := by
  simp

theorem along_insertsUnknown_iff (list : List (Path × Entry))
    (scan : Scan) :
    Along (visitStep context) (InsertsUnknown context) scan list ↔
      ((list.filter fun visit => Registers context scan.db visit).map
        fun visit => entryAbsolute context visit.1 visit.2).Nodup ∧
      ∀ path ∈ (list.filter fun visit =>
          Registers context scan.db visit).map
            fun visit => entryAbsolute context visit.1 visit.2,
        path ∉ scan.db.imports.map ImportRow.outputPath := by
  induction list generalizing scan with
  | nil => simp [Along]
  | cons visit list ih =>
      have same : (list.filter fun other =>
          Registers context (visitFile context scan visit).db other) =
          list.filter fun other => Registers context scan.db other := by
        apply List.filter_congr
        intro other _
        exact decide_eq_decide.mpr registers_visitFile
      have taken : visitStep context scan visit =
          some (visitFile context scan visit) := rfl
      rw [along_cons_of_some taken, ih, same, InsertsUnknown, inserts_iff,
        unknown_iff]
      rcases visitFile_cases context scan visit with
        ⟨registers, row, after, -, path⟩ | ⟨refused, after⟩
      · rw [List.filter_cons_of_pos (by simpa using registers),
          List.map_cons, List.nodup_cons, after, List.map_append]
        simp only [registers, true_implies, List.map_cons, List.map_nil,
          path, List.mem_append, List.mem_singleton, List.forall_mem_cons]
        constructor
        · rintro ⟨fresh, nodup, away⟩
          refine ⟨⟨fun member => (away _ member) (.inr rfl), nodup⟩, fresh,
            fun other member known => away other member (.inl known)⟩
        · rintro ⟨⟨new, nodup⟩, fresh, away⟩
          refine ⟨fresh, nodup, fun other member known => ?_⟩
          rcases known with old | same
          · exact away other member old
          · exact new (same ▸ member)
      · rw [List.filter_cons_of_neg (by simpa using refused), after]
        simp only [refused, false_implies, true_and]

/-- A scan registers no file twice exactly when the files it would register
are different and new. -/
theorem noReinsert_iff {cfg : Config} {library : Library} {db : Db} :
    NoReinsert context cfg library db ↔
      Separate context cfg library db := by
  refine (along_insertsUnknown_iff (libraryVisits cfg library)
    { db := db }).trans ?_
  exact ⟨fun both => ⟨both.1, both.2⟩, fun separate =>
    ⟨separate.different, separate.unknown⟩⟩

/-- A reconciliation inserts nothing exactly when it has nothing to
register. -/
theorem reconcile_imports_eq_iff {cfg : Config} {library : Library}
    {outcomes : Nat → Db.AllocateOutcome} {db : Db} :
    (reconcileLibrary context cfg library outcomes db).1.db.imports =
        db.imports ↔ registered context cfg library db = [] := by
  obtain ⟨added, rows, paths⟩ :=
    reconcile_imports context cfg library outcomes db
  have lengths : added = [] ↔ registered context cfg library db = [] := by
    have equal := congrArg List.length paths
    rw [List.length_map, List.length_map] at equal
    rw [← List.length_eq_zero_iff, ← List.length_eq_zero_iff, equal]
  rw [rows, List.append_right_eq_self]
  exact lengths

theorem lookup_scan (context : Context) {n : Int} {visit : Path × Entry}
    (number : imgNumber visit.2.name = some n)
    (list : List (Path × Entry)) (scan : Scan) :
    (list.foldl (visitFile context) scan).db.getImportBySourcePath
        context.mariadb (entryAbsolute context visit.1 visit.2)
        visit.2.selected = none ↔
      scan.db.getImportBySourcePath context.mariadb
        (entryAbsolute context visit.1 visit.2) visit.2.selected = none := by
  induction list generalizing scan with
  | nil => exact Iff.rfl
  | cons first list ih =>
      rw [List.foldl_cons, ih]
      exact lookup_visitFile number

/-- The tables a reconciliation leaves, with the rows it wrote left out. -/
def forgetful (context : Context) (cfg : Config) (library : Library)
    (outcomes : Nat → Db.AllocateOutcome) (db : Db) : Db :=
  { db with
    sequences :=
      (reconcileLibrary context cfg library outcomes db).1.db.sequences }

/-- The next reconciliation does not see the rows of the one before. -/
theorem registers_reconcile {cfg : Config} {library : Library}
    {outcomes : Nat → Db.AllocateOutcome} {db : Db}
    {visit : Path × Entry} :
    Registers context
        (reconcileLibrary context cfg library outcomes db).1.db visit ↔
      Registers context (forgetful context cfg library outcomes db)
        visit := by
  have imports :
      (reconcileLibrary context cfg library outcomes db).1.db.imports =
        ((libraryVisits cfg library).foldl (visitFile context)
          { db := db }).db.imports := by
    unfold reconcileLibrary
    simp only
    rw [reserve_imports, scanLibrary_eq]
  have lookup : ∀ n, imgNumber visit.2.name = some n →
      ((reconcileLibrary context cfg library outcomes
          db).1.db.getImportBySourcePath context.mariadb
          (entryAbsolute context visit.1 visit.2) visit.2.selected = none ↔
        (forgetful context cfg library outcomes db).getImportBySourcePath
          context.mariadb (entryAbsolute context visit.1 visit.2)
          visit.2.selected = none) := by
    intro n number
    have unseen := lookup_scan context number
      (libraryVisits cfg library) { db := db }
    rw [Db.getImportBySourcePath_eq_none, Db.getImportBySourcePath_eq_none]
      at unseen ⊢
    rw [imports]
    exact unseen
  constructor
  · rintro ⟨n, number, unknown, rest⟩
    exact ⟨n, number, (lookup n number).mp unknown, rest⟩
  · rintro ⟨n, number, unknown, rest⟩
    exact ⟨n, number, (lookup n number).mpr unknown, rest⟩

/-- A second run inserts nothing exactly when it would register no file had
the first run written no row. -/
theorem reconcile_again_imports_eq_iff {cfg : Config}
    {library again : Library} {outcomes later : Nat → Db.AllocateOutcome}
    {db : Db} :
    (reconcileLibrary context cfg again later
        (reconcileLibrary context cfg library outcomes
          db).1.db).1.db.imports =
        (reconcileLibrary context cfg library outcomes db).1.db.imports ↔
      ∀ visit ∈ libraryVisits cfg again,
        ¬Registers context (forgetful context cfg library outcomes db)
          visit := by
  rw [reconcile_imports_eq_iff, registered, List.filter_eq_nil_iff]
  simp only [decide_eq_true_eq, registers_reconcile]

end Idempotence

/-! ## Imports and restarts -/

/-- The output path a pass computes and holds until its insert. -/
def output : Worker.ProcessFile.Stage → Option String
  | .convert job => some job.dst
  | .clearConverted job => some job.dst
  | .hashOutput job => some job.dst
  | .insert record => some record.outputPath
  | _ => none

def HasPath (row : ImportRow) (path : String) : Prop :=
  row.outputPath = path

/-- A file named after a number that was not yet allocated does not lie at
the path. -/
def BelowCounter (db : Db) (path : Path) : Prop :=
  ∀ number, number < 2 ^ 64 →
    filename path = Db.sequenceName (toInt64 number) ++ ".dng" →
      number < db.nextSequence

theorem output_step {platform : Worker.Platform} {cfg : Config}
    {path : Path} {shared after : Worker.Shared}
    {stage stage' : Worker.ProcessFile.Stage}
    {event : Worker.ProcessFile.Event} {token : String}
    (step : Worker.ProcessFile.Step platform cfg path shared stage event
      after stage') (holds : output stage' = some token) :
    output stage = some token ∨
      ∃ number folder, shared.db.nextSequence ≤ number ∧ number < 2 ^ 64 ∧
        after.db.nextSequence = number + 1 ∧
        token = Worker.ProcessFile.outputPath cfg folder
          (Db.sequenceName (toInt64 number)) := by
  cases step with
  | allocate allocated =>
      rename_i srcHash ex outcome
      rcases Db.allocateSequence_cases platform.mariadb shared.db outcome with
        ⟨number, unallocated, bounded, counter, -, names⟩ | ⟨-, names⟩
      · right
        rw [names] at holds
        cases holds
        exact ⟨number, _, unallocated, bounded, counter, rfl⟩
      · rw [names] at allocated
        exact (allocated rfl).elim
  | converted => exact .inl holds
  | clearConverted => exact .inl holds
  | hashOutput => exact .inl holds
  | cacheHit =>
      rw [Worker.ProcessFile.held_hashed output rfl fun _ => rfl] at holds
      cases holds
  | hashOnly =>
      rw [Worker.ProcessFile.held_hashed output rfl fun _ => rfl] at holds
      cases holds
  | cacheStore =>
      rw [Worker.ProcessFile.held_hashed output rfl fun _ => rfl] at holds
      cases holds
  | insert => split at holds <;> cases holds
  | countFailure =>
      rw [Worker.ProcessFile.held_ite_after output rfl rfl rfl] at holds
      cases holds
  | moveDead =>
      rw [Worker.ProcessFile.held_ite_after output rfl rfl rfl] at holds
      cases holds
  | alert =>
      rw [Worker.ProcessFile.held_after output rfl rfl] at holds
      cases holds
  | _ => cases holds

theorem BelowCounter.mono {db next : Db} {path : Path}
    (below : BelowCounter db path)
    (grows : db.nextSequence ≤ next.nextSequence) :
    BelowCounter next path := by
  intro number bounded named
  exact Nat.lt_of_lt_of_le (below number bounded named) grows

theorem belowCounter_outputPath {cfg : Config} {folder : String} {db : Db}
    {number : Nat} (bounded : number < 2 ^ 64)
    (allocated : number < db.nextSequence) :
    BelowCounter db (Worker.ProcessFile.outputPath cfg folder
      (Db.sequenceName (toInt64 number))) := by
  intro other otherBounded named
  rw [Worker.ProcessFile.filename_outputPath] at named
  have equal := toInt64_injective bounded otherBounded
    (number_of_numbered named)
  omega

theorem not_belowCounter {cfg : Config} {folder : String} {db : Db}
    {number : Nat} (bounded : number < 2 ^ 64)
    (unallocated : db.nextSequence ≤ number) :
    ¬BelowCounter db (Worker.ProcessFile.outputPath cfg folder
      (Db.sequenceName (toInt64 number))) := by
  intro below
  have allocated := below number bounded
    (Worker.ProcessFile.filename_outputPath cfg folder _)
  omega

theorem belowCounter_of_registers {context : Context} {db : Db}
    {visit : Path × Entry} (keyed : db.Keyed)
    (registers : Registers context db visit) :
    BelowCounter db (entryAbsolute context visit.1 visit.2) := by
  obtain ⟨n, number, -, -, -, row, member, key⟩ := registers
  intro other bounded named
  rw [filename_entryAbsolute] at named
  rw [named] at number
  cases id : toInt64 other with
  | negSucc id' =>
      rw [id, imgNumber_negSucc] at number
      cases number
  | ofNat id' =>
      rw [id] at number
      have read := imgNumber_nat id'
      rw [show (Int.ofNat id' : Int) = (id' : Int) from rfl, read] at number
      cases number
      have small : other < 2 ^ 63 := by
        by_contra large
        rw [toInt64_of_ge (by omega) bounded] at id
        have value : ((other : Int) - 2 ^ 64) = id' := id
        omega
      rw [toInt64_of_lt small] at id
      have value : (other : Int) = id' := id
      have recorded : (row.id : Int) = min (id' : Int) int64Max := key
      have below := keyed row member
      unfold int64Max at recorded
      omega

section System

variable {n : Nat}

/-- A step of the running worker, or a restart: the process is gone with its
queues and passes, the library is reconciled and the worker starts anew. -/
inductive Operation (n : Nat) where
  | work (action : Worker.Action n)
  | restart (cwd : Path) (library : Library)
      (outcomes : Nat → Db.AllocateOutcome) (clock wall : Int)

/-- What the reconciliation of a restart works on. -/
def contextAt (platform : Worker.Platform) (cwd : Path)
    (world : Worker.World n) : Context :=
  { cwd := cwd
    digest := platform.digest
    mariadb := platform.mariadb
    fs := world.shared.fs }

def step (platform : Worker.Platform) (cfg : Config)
    (world : Worker.World n) : Operation n → Option (Worker.World n)
  | .work action => Worker.step platform cfg world action
  | .restart cwd library outcomes clock wall =>
      some (Worker.World.initial clock wall world.shared.fs
        (reconcileLibrary (contextAt platform cwd world) cfg library outcomes
          world.shared.db).1.db)

def UniqueOutputs (world : Worker.World n) : Prop :=
  (world.shared.db.imports.map ImportRow.outputPath).Nodup

def RestartSeparate (platform : Worker.Platform) (cfg : Config)
    (world : Worker.World n) : Operation n → Prop
  | .restart cwd library _ _ _ =>
      Separate (contextAt platform cwd world) cfg library world.shared.db
  | .work _ => True

/-- Rows and passes have different output paths, all below the counter. -/
structure Allocated (world : Worker.World n) : Prop where
  exclusive : Worker.Exclusively output HasPath world
  keyed : world.shared.db.Keyed
  rows : ∀ row ∈ world.shared.db.imports,
    BelowCounter world.shared.db row.outputPath
  passes : ∀ thread token, Worker.heldBy output world thread = some token →
    BelowCounter world.shared.db token

theorem uniqueOutputs_iff {world : Worker.World n} :
    UniqueOutputs world ↔
      world.shared.db.imports.Pairwise fun first second =>
        ∀ path, HasPath first path → ¬HasPath second path := by
  have same : ∀ first second : ImportRow,
      (∀ path, HasPath first path → ¬HasPath second path) ↔
        first.outputPath ≠ second.outputPath := by
    intro first second
    constructor
    · exact fun exclusive equal => exclusive _ rfl equal.symm
    · rintro different path rfl equal
      exact different equal.symm
  simp only [UniqueOutputs, List.Nodup, List.pairwise_map, same]

variable {platform : Worker.Platform} {cfg : Config}
  {world after : Worker.World n}

section Step

variable {path : Path} {shared next : Worker.Shared}
  {stage stage' : Worker.ProcessFile.Stage}
  {event : Worker.ProcessFile.Event}

theorem rows_step
    (step : Worker.ProcessFile.Step platform cfg path shared stage event
      next stage')
    (rows : ∀ row ∈ shared.db.imports, BelowCounter shared.db row.outputPath)
    (own : ∀ token, output stage = some token →
      BelowCounter shared.db token) :
    ∀ row ∈ next.db.imports, BelowCounter next.db row.outputPath := by
  have grows := step.counter.1
  intro row member
  rcases step.rows with sameRows |
    ⟨record, executed, now, inserting, -, inserted⟩
  · rw [sameRows] at member
    exact (rows row member).mono grows
  · rw [inserted] at member
    rcases Db.insertImport_cases platform.mariadb shared.db record executed
        now with ⟨-, -, grown⟩ | ⟨-, same⟩
    · rw [grown] at member
      rcases List.mem_append.mp member with old | new
      · exact (rows row old).mono grows
      · rw [List.mem_singleton.mp new]
        refine (own _ ?_).mono grows
        rw [inserting]
        rfl
    · rw [same] at member
      exact (rows row member).mono grows

/-- The output path a pass has behind a step is below the counter. -/
theorem token_step
    (step : Worker.ProcessFile.Step platform cfg path shared stage event
      next stage')
    (own : ∀ token, output stage = some token →
      BelowCounter shared.db token)
    {token : String} (holds : output stage' = some token) :
    BelowCounter next.db token := by
  rcases output_step step holds with
    before | ⟨number, folder, unallocated, bounded, counter, rfl⟩
  · exact (own token before).mono step.counter.1
  · exact belowCounter_outputPath bounded (by omega)

end Step

theorem Allocated.exclusive_work (allocated : Allocated world)
    {action : Worker.Action n}
    (taken : Worker.step platform cfg world action = some after) :
    Worker.Exclusively output HasPath after := by
  refine allocated.exclusive.step taken rfl ?_ (fun record => ⟨rfl, rfl⟩) ?_
  · rintro record db now token rfl
    rfl
  · rintro thread event pass shared stage token rfl busy passStep holds
    rcases output_step passStep holds with
      before | ⟨number, folder, unallocated, bounded, -, rfl⟩
    · exact .inl before
    · refine .inr ⟨?_, ?_⟩
      · rintro row member same
        exact not_belowCounter bounded unallocated
          (same ▸ allocated.rows row member)
      · intro other holding
        exact not_belowCounter bounded unallocated
          (allocated.passes other _ holding)

theorem Allocated.work (allocated : Allocated world)
    {action : Worker.Action n}
    (taken : Worker.step platform cfg world action = some after) :
    Allocated after := by
  have exclusive := allocated.exclusive_work taken
  rcases Worker.step_cases taken with ⟨-, sameDb, -, before⟩ |
    ⟨actor, event, pass, shared, stage, -, busy, passStep, rfl⟩
  · refine ⟨exclusive, ?_, ?_, ?_⟩
    · rw [sameDb]
      exact allocated.keyed
    · rw [sameDb]
      exact allocated.rows
    · intro thread token holds
      rw [sameDb]
      obtain ⟨pass, running, token⟩ := Option.bind_eq_some_iff.mp holds
      rcases before thread pass running with old | new
      · exact allocated.passes thread _
          (Option.bind_eq_some_iff.mpr ⟨pass, old, token⟩)
      · rw [new] at token
        cases token
  · have own : ∀ token, output pass.stage = some token →
        BelowCounter world.shared.db token := by
      intro token holds
      refine allocated.passes actor token ?_
      exact Option.bind_eq_some_iff.mpr ⟨pass, busy, holds⟩
    refine ⟨exclusive, passStep.counter.2 allocated.keyed, ?_, ?_⟩
    · exact rows_step passStep allocated.rows own
    · intro thread token holds
      by_cases here : thread = actor
      · subst here
        rw [Worker.heldBy, Worker.World.setThread_same, Option.bind_some]
          at holds
        exact token_step passStep own holds
      · rw [Worker.heldBy, Worker.World.setThread_other _ _ here] at holds
        exact (allocated.passes thread token holds).mono passStep.counter.1

/-- A restart over a separate library keeps rows and numbers apart. -/
theorem Allocated.restart (allocated : Allocated world) {cwd : Path}
    {library : Library} {outcomes : Nat → Db.AllocateOutcome}
    {clock wall : Int}
    (separate : Separate (contextAt platform cwd world) cfg library
      world.shared.db) :
    Allocated (Worker.World.initial (n := n) clock wall world.shared.fs
      (reconcileLibrary (contextAt platform cwd world) cfg library outcomes
        world.shared.db).1.db) := by
  have grows := le_reconcile_counter (contextAt platform cwd world) cfg
    library outcomes world.shared.db
  have unique : UniqueOutputs (Worker.World.initial (n := n) clock wall
      world.shared.fs (reconcileLibrary (contextAt platform cwd world) cfg
        library outcomes world.shared.db).1.db) := by
    have before : UniqueOutputs world :=
      uniqueOutputs_iff.mpr allocated.exclusive.once
    have paths := reconcile_outputPaths (contextAt platform cwd world) cfg
      library outcomes world.shared.db
    refine (congrArg List.Nodup paths).mpr ?_
    refine List.nodup_append'.mpr ⟨before, separate.different, ?_⟩
    exact fun path known found => separate.unknown path found known
  refine ⟨?_, reconcile_keyed allocated.keyed, ?_, ?_⟩
  · exact Worker.exclusively_initial clock wall world.shared.fs
      (uniqueOutputs_iff.mp unique)
  · intro row member
    obtain ⟨added, rows, paths⟩ := reconcile_imports
      (contextAt platform cwd world) cfg library outcomes world.shared.db
    have member : row ∈ world.shared.db.imports ++ added := rows ▸ member
    rcases List.mem_append.mp member with old | new
    · exact (allocated.rows row old).mono grows
    · have path : row.outputPath ∈ added.map ImportRow.outputPath :=
        List.mem_map_of_mem new
      rw [paths] at path
      obtain ⟨visit, registers, same⟩ := List.mem_map.mp path
      have accepted : Registers (contextAt platform cwd world)
          world.shared.db visit := by
        simpa using (List.mem_filter.mp registers).2
      rw [← same]
      exact (belowCounter_of_registers allocated.keyed accepted).mono grows
  · intro thread token holds
    cases holds

/-- A restart that leaves one row per path found a separate library. -/
theorem separate_of_uniqueOutputs {cwd : Path} {library : Library}
    {outcomes : Nat → Db.AllocateOutcome} {clock wall : Int}
    (unique : UniqueOutputs (Worker.World.initial (n := n) clock wall
      world.shared.fs (reconcileLibrary (contextAt platform cwd world) cfg
        library outcomes world.shared.db).1.db)) :
    Separate (contextAt platform cwd world) cfg library
      world.shared.db := by
  have paths := reconcile_outputPaths (contextAt platform cwd world) cfg
    library outcomes world.shared.db
  have nodup := (congrArg List.Nodup paths).mp unique
  obtain ⟨-, different, disjoint⟩ := List.nodup_append'.mp nodup
  exact ⟨different, fun path found known => disjoint known found⟩

theorem allocated_initial (clock wall : Int) (fs : Fs) :
    Allocated (Worker.World.initial (n := n) clock wall fs {}) := by
  refine ⟨Worker.exclusively_initial clock wall fs List.Pairwise.nil, ?_, ?_,
    ?_⟩
  · intro row member
    cases member
  · intro row member
    cases member
  · intro thread token holds
    cases holds

theorem Allocated.step (allocated : Allocated world)
    {operation : Operation n}
    (separate : RestartSeparate platform cfg world operation)
    (taken : Reconcile.step platform cfg world operation = some after) :
    Allocated after := by
  cases operation with
  | work action => exact allocated.work taken
  | restart cwd library outcomes clock wall =>
      cases taken
      exact allocated.restart separate

/-- Over imports and restarts from a fresh database, the output paths stay
unique exactly when every restart finds a separate library. -/
theorem uniqueOutputs_visits_iff (clock wall : Int) (fs : Fs)
    (operations : List (Operation n)) :
    Visits (step platform cfg) UniqueOutputs
        (Worker.World.initial clock wall fs {}) operations ↔
      Along (step platform cfg) (RestartSeparate platform cfg)
        (Worker.World.initial clock wall fs {}) operations := by
  refine visits_iff_along Allocated ?_ ?_ ?_
    (allocated_initial clock wall fs) operations
  · exact fun world allocated => uniqueOutputs_iff.mpr allocated.exclusive.once
  · exact fun world operation after allocated separate taken =>
      allocated.step separate taken
  · intro world operation after allocated taken unique
    cases operation with
    | work action => trivial
    | restart cwd library outcomes clock wall =>
        cases taken
        exact separate_of_uniqueOutputs unique

end System

/-- One run registers no file twice exactly when what it would take is new and
different; a second run inserts nothing exactly when no file is left to the
tables, the rows of the first run aside; and over imports and restarts the
output paths stay unique exactly when every restart finds a separate
library. -/
theorem reconcile_idempotent_iff (context : Context) (cfg : Config)
    (library again : Library) (outcomes later : Nat → Db.AllocateOutcome)
    (db : Db) (n : Nat) (platform : Worker.Platform) (clock wall : Int)
    (fs : Fs) (operations : List (Operation n)) :
    (NoReinsert context cfg library db ↔
      Separate context cfg library db) ∧
    ((reconcileLibrary context cfg again later
          (reconcileLibrary context cfg library outcomes
            db).1.db).1.db.imports =
        (reconcileLibrary context cfg library outcomes db).1.db.imports ↔
      ∀ visit ∈ libraryVisits cfg again,
        ¬Registers context (forgetful context cfg library outcomes db)
          visit) ∧
    (Visits (step platform cfg) UniqueOutputs
        (Worker.World.initial clock wall fs {}) operations ↔
      Along (step platform cfg) (RestartSeparate platform cfg)
        (Worker.World.initial clock wall fs {}) operations) :=
  ⟨noReinsert_iff, reconcile_again_imports_eq_iff,
    uniqueOutputs_visits_iff clock wall fs operations⟩

/-- The tables after one import: the row has the path of the original as its
source path. -/
def imported : Db :=
  { sequences := [⟨1, "IMG_1"⟩]
    nextSequence := 2
    imports :=
      [{ id := 1
         sequenceId := 1
         sourcePath := "/watch/DSC_0001.NEF"
         sourceHash := Worker.photographs.digest.sha256 [1]
         outputPath := "/output/2024/05/IMG_1.dng"
         outputHash := Worker.photographs.digest.sha256 [7]
         cameraModel := some "unknown"
         captureDate := some "2024-05-01"
         captureTime := none
         dateSource := .exif
         folderSchema := some "2024/05"
         conversionSettings :=
           some "\x7b\"compression\":\"lossless\"\x7d"
         status := .completed
         createdAt := some "2024-05-03 00:00:00"
         completedAt := some "2024-05-03 00:00:00"
         orientation := some 0 }]
    nextImport := 2 }

/-- One import and two restarts over its output. -/
def importAndRestarts : List (Operation 1) :=
  ((Worker.scanning "DSC_0001.NEF" ++
      Worker.importing 0 "2024-05-01" ⟨[7], 0⟩ true).map .work) ++
    [.restart "/" oneDng (fun _ => {}) 0 0,
      .restart "/" oneDng (fun _ => {}) 0 0]

/-- The scan takes a converted file for a new one, at every restart. -/
theorem registered_twice :
    ¬NoReinsert oneFile {} oneDng imported ∧
    ∃ world,
      run (step Worker.photographs {}) (Worker.onePhotograph 1)
        importAndRestarts = some world ∧
      world.shared.db.imports.map ImportRow.outputPath =
        ["/output/2024/05/IMG_1.dng", "/output/2024/05/IMG_1.dng",
          "/output/2024/05/IMG_1.dng"] ∧
      ¬UniqueOutputs world := by
  constructor
  · intro none
    have visited := (none _ rfl).1
    refine visited (by decide +kernel) _ List.mem_cons_self ?_
    decide +kernel
  · have computed : ∃ world,
        run (step Worker.photographs {}) (Worker.onePhotograph 1)
          importAndRestarts = some world ∧
        world.shared.db.imports.map ImportRow.outputPath =
          ["/output/2024/05/IMG_1.dng", "/output/2024/05/IMG_1.dng",
            "/output/2024/05/IMG_1.dng"] :=
      exists_run_of_decide (by decide +kernel)
    obtain ⟨world, result, paths⟩ := computed
    refine ⟨world, result, paths, ?_⟩
    unfold UniqueOutputs
    rw [paths]
    decide

end Reconcile

end RawImport
