import RawImport.Store.Statements

/-!
# `ReconcileLibrary`

The start-up scan of `output_dir` and `archive_dir`.  A library is the list of
regular files that the two recursive iterations yield, in their order, each
with the way its calls go.  The scan registers what it does not know; the
reserve loop then raises the sequence counter past the largest number found.
-/

namespace RawImport

namespace Reconcile

open PathText

/-- A regular file below a scanned root: the relative path of its directory,
its name, and whether its lookup, its hash and its insert reach the server or
the disk. -/
structure Entry where
  parents : String
  name : String
  bare : Bare name
  selected : Bool := true
  opened : Bool := true
  executed : Bool := true
  now : String := ""

structure Library where
  output : List Entry
  archive : List Entry

/-- What `ReconcileLibrary` finds around the library. -/
structure Context where
  cwd : Path
  digest : Digest
  mariadb : Mariadb
  fs : Fs

/-- `INT64_MAX`. -/
def int64Max : Int := 2 ^ 63 - 1

/-- The number of a name that matches `^IMG_(\d+)\.dng$` without regard to
case; `strtoll` saturates. -/
def imgNumber (name : String) : Option Int :=
  match name.toList with
  | i :: m :: g :: '_' :: rest =>
      if i.toLower = 'i' ∧ m.toLower = 'm' ∧ g.toLower = 'g' ∧
          rest.takeWhile Char.isDigit ≠ [] ∧
          (rest.dropWhile Char.isDigit).map Char.toLower =
            ['.', 'd', 'n', 'g'] then
        some (min (Nat.ofDigitChars 10 (rest.takeWhile Char.isDigit) 0 : Int)
          int64Max)
      else none
  | _ => none

/-- `e.path().parent_path()`, up to a separator at the end of the root. -/
def parentPath (root : Path) (entry : Entry) : Path :=
  if entry.parents = "" then root else joinPath root entry.parents

/-- `e.path()`. -/
def entryPath (root : Path) (entry : Entry) : Path :=
  joinPath (parentPath root entry) entry.name

/-- `fs::absolute(e.path())`. -/
def absolutePath (cwd : Path) (path : Path) : Path :=
  if path.toList.head? = some '/' then path else joinPath cwd path

def entryAbsolute (context : Context) (root : Path) (entry : Entry) : Path :=
  absolutePath context.cwd (entryPath root entry)

/-- `parent.substr(root.size() + 1)` when the parent is longer. -/
def folderSchema (root parent : Path) : String :=
  if root.length < parent.length then
    String.ofList (parent.toList.drop (root.length + 1))
  else ""

def legacyRecord (context : Context) (root : Path) (entry : Entry)
    (n : Int) : ImportRecord :=
  { sequenceId := n
    sequenceName := "IMG_" ++ toString n
    sourcePath := ""
    sourceHash := "legacy:IMG_" ++ toString n
    outputPath := entryAbsolute context root entry
    outputHash := sha256File context.digest context.fs
      (entryAbsolute context root entry) entry.opened
    cameraModel := "legacy"
    captureDate := ""
    captureTime := ""
    folderSchema := folderSchema root (parentPath root entry)
    conversionSettings := "\x7b\x7d"
    status := .legacy
    orientation := 0 }

/-- The variables of the scan. -/
structure Scan where
  db : Db
  maxN : Int := 0
  found : Nat := 0
  inserted : Nat := 0

/-- One round of the loop in `scan_dir`. -/
def visitFile (context : Context) (scan : Scan) (visit : Path × Entry) :
    Scan :=
  match imgNumber visit.2.name with
  | none => scan
  | some n =>
      let scan := { scan with
        maxN := if scan.maxN < n then n else scan.maxN
        found := scan.found + 1 }
      match scan.db.getImportBySourcePath context.mariadb
          (entryAbsolute context visit.1 visit.2) visit.2.selected with
      | some _ => scan
      | none =>
          let (db, id) := scan.db.insertImport context.mariadb
            (legacyRecord context visit.1 visit.2 n) visit.2.executed
            visit.2.now
          { scan with
            db := db
            inserted := if id = 0 then scan.inserted else scan.inserted + 1 }

/-- The files `scan_dir` comes to. -/
def visits (root : Path) (entries : List Entry) : List (Path × Entry) :=
  if root = "" then [] else entries.map fun entry => (root, entry)

def scanDir (context : Context) (root : Path) (entries : List Entry)
    (scan : Scan) : Scan :=
  (visits root entries).foldl (visitFile context) scan

/-- `scan_dir(cfg.output_dir)`, then `scan_dir(cfg.archive_dir)`. -/
def scanLibrary (context : Context) (cfg : Config) (library : Library)
    (db : Db) : Scan :=
  scanDir context cfg.archiveDir library.archive
    (scanDir context cfg.outputDir library.output { db := db })

/-- How the reserve loop ended. -/
structure Reserved where
  db : Db
  lastId : Int := 0
  failed : Bool := false

/-- The reserve loop from round `i` on, with the rounds left to it. -/
def reserve (mariadb : Mariadb) (maxN : Int)
    (outcomes : Nat → Db.AllocateOutcome) :
    Nat → Nat → Reserved → Reserved
  | 0, _, reserved => reserved
  | rounds + 1, i, reserved =>
      let (db, id, _) := reserved.db.allocateSequence mariadb (outcomes i)
      if id = 0 then { db := db, lastId := reserved.lastId, failed := true }
      else if maxN ≤ id then { db := db, lastId := id }
      else reserve mariadb maxN outcomes rounds (i + 1)
        { db := db, lastId := id }

/-- The tables and the reserve loop's end after `ReconcileLibrary`, which
returns true in every case. -/
def reconcileLibrary (context : Context) (cfg : Config) (library : Library)
    (outcomes : Nat → Db.AllocateOutcome) (db : Db) : Reserved × Bool :=
  let scan := scanLibrary context cfg library db
  (reserve context.mariadb scan.maxN outcomes scan.maxN.toNat 0
    { db := scan.db }, true)

def libraryVisits (cfg : Config) (library : Library) :
    List (Path × Entry) :=
  visits cfg.outputDir library.output ++
    visits cfg.archiveDir library.archive

theorem scanLibrary_eq (context : Context) (cfg : Config)
    (library : Library) (db : Db) :
    scanLibrary context cfg library db =
      (libraryVisits cfg library).foldl (visitFile context) { db := db } := by
  unfold scanLibrary scanDir libraryVisits
  rw [List.foldl_append]

/-- A file with an image number is unknown to the lookup, and the server
takes its placeholder. -/
def Registers (context : Context) (db : Db) (visit : Path × Entry) : Prop :=
  ∃ n, imgNumber visit.2.name = some n ∧
    db.getImportBySourcePath context.mariadb
      (entryAbsolute context visit.1 visit.2) visit.2.selected = none ∧
    visit.2.executed = true ∧
    db.Accepts context.mariadb (legacyRecord context visit.1 visit.2 n)

instance (context : Context) (db : Db) (visit : Path × Entry) :
    Decidable (Registers context db visit) :=
  match number : imgNumber visit.2.name with
  | none => .isFalse (by
      rintro ⟨n, some, -⟩
      rw [number] at some
      cases some)
  | some n =>
      decidable_of_iff
        (db.getImportBySourcePath context.mariadb
            (entryAbsolute context visit.1 visit.2) visit.2.selected =
              none ∧
          visit.2.executed = true ∧
          db.Accepts context.mariadb
            (legacyRecord context visit.1 visit.2 n))
        (by simp [Registers, number])

end Reconcile

end RawImport
