import Mathlib.Data.List.Nodup
import RawImport.Library.Reconcile
import RawImport.Lib.Run

/-!
# What the scan registers

The rows of one scan share the empty source path, and the scan leaves
`sequences` alone, so every visit is decided by the tables before the scan.
Completeness and idempotence of `ReconcileLibrary` follow from the list of
output paths that the scan appends.
-/

namespace RawImport

namespace Db

theorem getImportBySourcePath_eq_none {mariadb : Mariadb} {db : Db}
    {path : Path} {executed : Bool} :
    db.getImportBySourcePath mariadb path executed = none ↔
      (executed = true →
        ∀ row ∈ db.imports, mariadb.same row.sourcePath path = false) := by
  unfold getImportBySourcePath
  split
  · rename_i reached
    simp [List.find?_eq_none, reached]
  · rename_i lost
    simp [lost]

end Db

namespace Reconcile

open PathText Transition

section Scan

variable {context : Context} {scan : Scan} {visit other : Path × Entry}

/-- The name of an image file has a character that is no space. -/
theorem letter_of_imgNumber {name : String} {n : Int}
    (number : imgNumber name = some n) : '_' ∈ name.toList := by
  unfold imgNumber at number
  split at number
  · rename_i i m g rest text
    rw [text]
    simp
  · cases number

theorem toList_entryAbsolute (context : Context) (root : Path)
    (entry : Entry) :
    ∃ before, (entryAbsolute context root entry).toList =
      before ++ entry.name.toList := by
  unfold entryAbsolute absolutePath entryPath joinPath
  split
  · exact ⟨_, String.toList_append⟩
  · rw [String.toList_append, String.toList_append, ← List.append_assoc]
    exact ⟨_, rfl⟩

theorem same_empty_absolute {root : Path} {entry : Entry} {n : Int}
    (number : imgNumber entry.name = some n) :
    context.mariadb.same "" (entryAbsolute context root entry) = false := by
  rw [Bool.eq_false_iff]
  intro same
  obtain ⟨before, text⟩ := toList_entryAbsolute context root entry
  have letter : '_' ∈ (entryAbsolute context root entry).toList := by
    rw [text]
    exact List.mem_append_right _ (letter_of_imgNumber number)
  have space := context.mariadb.same_empty _ same '_' letter
  cases space

/-- A visit appends one row with an empty source path, or nothing. -/
theorem visitFile_cases (context : Context) (scan : Scan)
    (visit : Path × Entry) :
    (Registers context scan.db visit ∧
      ∃ row, (visitFile context scan visit).db =
          { scan.db with
            imports := scan.db.imports ++ [row]
            nextImport := scan.db.nextImport + 1 } ∧
        row.sourcePath = "" ∧
        row.outputPath = entryAbsolute context visit.1 visit.2) ∨
    (¬Registers context scan.db visit ∧
      (visitFile context scan visit).db = scan.db) := by
  unfold visitFile
  split
  · rename_i unnumbered
    right
    refine ⟨?_, rfl⟩
    rintro ⟨n, number, -⟩
    rw [unnumbered] at number
    cases number
  · rename_i n number
    simp only
    split
    · rename_i row known
      right
      refine ⟨?_, rfl⟩
      rintro ⟨n', number', unknown, -⟩
      rw [known] at unknown
      cases unknown
    · rename_i unknown
      rcases Db.insertImport_cases context.mariadb scan.db
          (legacyRecord context visit.1 visit.2 n) visit.2.executed
          visit.2.now with ⟨executed, accepted, after⟩ | ⟨refused, after⟩
      · exact .inl ⟨⟨n, number, unknown, executed, accepted⟩, _, after,
          rfl, rfl⟩
      · right
        refine ⟨?_, after⟩
        rintro ⟨n', number', -, executed, accepted⟩
        rw [number] at number'
        cases number'
        exact refused ⟨executed, accepted⟩

/-- The lookup of a numbered file does not see the placeholders. -/
theorem lookup_visitFile {n : Int}
    (number : imgNumber other.2.name = some n) :
    (visitFile context scan visit).db.getImportBySourcePath context.mariadb
        (entryAbsolute context other.1 other.2) other.2.selected = none ↔
      scan.db.getImportBySourcePath context.mariadb
        (entryAbsolute context other.1 other.2) other.2.selected = none := by
  rcases visitFile_cases context scan visit with
    ⟨-, row, after, source, -⟩ | ⟨-, after⟩
  · rw [after, Db.getImportBySourcePath_eq_none,
      Db.getImportBySourcePath_eq_none]
    constructor
    · exact fun unknown reached known member =>
        unknown reached known (List.mem_append_left _ member)
    · intro unknown reached known member
      rcases List.mem_append.mp member with old | new
      · exact unknown reached known old
      · rw [List.mem_singleton.mp new, source]
        exact same_empty_absolute number
  · rw [after]

theorem registers_visitFile :
    Registers context (visitFile context scan visit).db other ↔
      Registers context scan.db other := by
  have sequences : (visitFile context scan visit).db.sequences =
      scan.db.sequences := by
    rcases visitFile_cases context scan visit with
      ⟨-, row, after, -⟩ | ⟨-, after⟩
    · rw [after]
    · rw [after]
  constructor
  · rintro ⟨n, number, unknown, executed, fits, keyed⟩
    refine ⟨n, number, (lookup_visitFile number).mp unknown, executed, fits,
      ?_⟩
    unfold Db.HasSequence at keyed ⊢
    rwa [sequences] at keyed
  · rintro ⟨n, number, unknown, executed, fits, keyed⟩
    refine ⟨n, number, (lookup_visitFile number).mpr unknown, executed,
      fits, ?_⟩
    unfold Db.HasSequence at keyed ⊢
    rwa [sequences]

theorem scan_imports (context : Context) (list : List (Path × Entry))
    (scan : Scan) :
    ∃ added, (list.foldl (visitFile context) scan).db.imports =
        scan.db.imports ++ added ∧
      added.map ImportRow.outputPath =
        (list.filter fun visit => Registers context scan.db visit).map
          fun visit => entryAbsolute context visit.1 visit.2 := by
  induction list generalizing scan with
  | nil => exact ⟨[], by simp, rfl⟩
  | cons visit list ih =>
      have same : (list.filter fun other =>
          Registers context (visitFile context scan visit).db other) =
          list.filter fun other => Registers context scan.db other := by
        apply List.filter_congr
        intro other _
        exact decide_eq_decide.mpr registers_visitFile
      obtain ⟨added, rows, paths⟩ := ih (visitFile context scan visit)
      rw [same] at paths
      rw [List.foldl_cons, rows]
      rcases visitFile_cases context scan visit with
        ⟨registers, row, after, -, path⟩ | ⟨refused, after⟩
      · rw [after, List.filter_cons_of_pos (by simpa using registers)]
        exact ⟨row :: added, by simp, by simp [path, paths]⟩
      · rw [after, List.filter_cons_of_neg (by simpa using refused)]
        exact ⟨added, rfl, paths⟩

theorem reserve_imports (mariadb : Mariadb) (maxN : Int)
    (outcomes : Nat → Db.AllocateOutcome) (rounds i : Nat)
    (reserved : Reserved) :
    (reserve mariadb maxN outcomes rounds i reserved).db.imports =
      reserved.db.imports := by
  induction rounds generalizing i reserved with
  | zero => rfl
  | succ rounds ih =>
      simp only [reserve]
      split
      · simp
      · split
        · simp
        · rw [ih]
          simp

/-- The visits of a library that put a row into the tables. -/
def registered (context : Context) (cfg : Config) (library : Library)
    (db : Db) : List (Path × Entry) :=
  (libraryVisits cfg library).filter fun visit =>
    Registers context db visit

/-- `ReconcileLibrary` appends one row for each file it registers. -/
theorem reconcile_imports (context : Context) (cfg : Config)
    (library : Library) (outcomes : Nat → Db.AllocateOutcome) (db : Db) :
    ∃ added,
      (reconcileLibrary context cfg library outcomes db).1.db.imports =
        db.imports ++ added ∧
      added.map ImportRow.outputPath =
        (registered context cfg library db).map fun visit =>
          entryAbsolute context visit.1 visit.2 := by
  unfold reconcileLibrary
  simp only
  rw [reserve_imports, scanLibrary_eq]
  exact scan_imports context (libraryVisits cfg library) { db := db }

theorem reconcile_outputPaths (context : Context) (cfg : Config)
    (library : Library) (outcomes : Nat → Db.AllocateOutcome) (db : Db) :
    (reconcileLibrary context cfg library outcomes db).1.db.imports.map
        ImportRow.outputPath =
      db.imports.map ImportRow.outputPath ++
        (registered context cfg library db).map fun visit =>
          entryAbsolute context visit.1 visit.2 := by
  obtain ⟨added, rows, paths⟩ :=
    reconcile_imports context cfg library outcomes db
  rw [rows, List.map_append, paths]

/-- Every file of the library with an image number from 1 on has a row. -/
def Complete (context : Context) (cfg : Config) (library : Library)
    (db : Db) : Prop :=
  ∀ visit ∈ libraryVisits cfg library, ∀ n,
    imgNumber visit.2.name = some n → 1 ≤ n →
      ∃ row ∈ db.imports,
        row.outputPath = entryAbsolute context visit.1 visit.2

/-- Every such file has its row already, or the tables as they are take its
placeholder: among others, `sequences` has its number. -/
def Registrable (context : Context) (cfg : Config) (library : Library)
    (db : Db) : Prop :=
  ∀ visit ∈ libraryVisits cfg library, ∀ n,
    imgNumber visit.2.name = some n → 1 ≤ n →
      (∃ row ∈ db.imports,
        row.outputPath = entryAbsolute context visit.1 visit.2) ∨
      ∃ other ∈ libraryVisits cfg library, Registers context db other ∧
        entryAbsolute context other.1 other.2 =
          entryAbsolute context visit.1 visit.2

theorem exists_outputPath_reconcile {cfg : Config} {library : Library}
    {outcomes : Nat → Db.AllocateOutcome} {db : Db} {path : Path} :
    (∃ row ∈
        (reconcileLibrary context cfg library outcomes db).1.db.imports,
      row.outputPath = path) ↔
    (∃ row ∈ db.imports, row.outputPath = path) ∨
      ∃ other ∈ libraryVisits cfg library, Registers context db other ∧
        entryAbsolute context other.1 other.2 = path := by
  have paths :
      path ∈ (reconcileLibrary context cfg library outcomes
        db).1.db.imports.map ImportRow.outputPath ↔
      path ∈ db.imports.map ImportRow.outputPath ++
        (registered context cfg library db).map fun visit =>
          entryAbsolute context visit.1 visit.2 := by
    rw [reconcile_outputPaths]
  rw [List.mem_append, List.mem_map, List.mem_map, List.mem_map] at paths
  rw [paths]
  simp only [registered, List.mem_filter, decide_eq_true_eq, and_assoc]

/-- Over every library, all tables and all calls: the reconciliation returns
true, and it is complete exactly when the tables take the placeholder of every
numbered file that has no row. -/
theorem reconcile_complete_iff (context : Context) (cfg : Config)
    (library : Library) (outcomes : Nat → Db.AllocateOutcome) (db : Db) :
    (reconcileLibrary context cfg library outcomes db).2 = true ∧
      (Complete context cfg library
          (reconcileLibrary context cfg library outcomes db).1.db ↔
        Registrable context cfg library db) := by
  refine ⟨rfl, ?_⟩
  unfold Complete Registrable
  simp only [exists_outputPath_reconcile]

/-- The surroundings of a library with one converted file. -/
def oneFile : Context :=
  { cwd := "/"
    digest := .ofTable [([7], '7')]
    mariadb := .binary
    fs := fun path =>
      if path = "/output/2024/05/IMG_1.dng" then some ⟨[7], 0⟩ else none }

def dng : Entry :=
  { parents := "2024/05"
    name := "IMG_1.dng"
    bare := by decide
    now := "2024-05-03 00:00:00" }

def oneDng : Library :=
  { output := [dng], archive := [] }

/-- The first start over a fresh database: the foreign key refuses the
placeholder, and the number it lacks is reserved afterwards. -/
theorem incomplete_on_fresh_database :
    (reconcileLibrary oneFile {} oneDng (fun _ => {}) {}).2 = true ∧
    (reconcileLibrary oneFile {} oneDng (fun _ => {}) {}).1.db.imports =
      [] ∧
    (reconcileLibrary oneFile {} oneDng (fun _ => {}) {}).1.db.sequences =
      [⟨1, "IMG_1"⟩] ∧
    ¬Complete oneFile {} oneDng
      (reconcileLibrary oneFile {} oneDng (fun _ => {}) {}).1.db := by
  have empty : (reconcileLibrary oneFile {} oneDng (fun _ => {})
      {}).1.db.imports = [] := by
    decide +kernel
  refine ⟨rfl, empty, by decide +kernel, ?_⟩
  intro complete
  have visited : ("/output", dng) ∈ libraryVisits {} oneDng := by
    simp [libraryVisits, visits, oneDng]
  obtain ⟨row, member, -⟩ := complete _ visited 1 (by decide) (by decide)
  rw [empty] at member
  cases member

end Scan

end Reconcile

end RawImport
