import RawImport.Store.Tables

/-!
# Store operations

Each operation of `db.cpp` as one function of the committed tables.  A flag
per statement says whether it reached the server; a lookup whose statement
fails finds nothing, an update whose statement fails changes nothing.
-/

namespace RawImport

namespace Db

/-- The row an accepted `InsertImport` stores.  `date_source` is not bound
and takes the column default. -/
def importRow (db : Db) (record : ImportRecord) (now : String) : ImportRow :=
  { id := db.nextImport
    sequenceId := record.sequenceId.toNat
    sourcePath := record.sourcePath
    sourceHash := record.sourceHash
    outputPath := record.outputPath
    outputHash := record.outputHash
    cameraModel := some record.cameraModel
    captureDate := Mariadb.nullable record.captureDate
    captureTime := Mariadb.nullable record.captureTime
    dateSource := .exif
    folderSchema := some record.folderSchema
    conversionSettings := some record.conversionSettings
    status := record.status
    createdAt := some now
    completedAt := some now
    orientation := some record.orientation.toNat }

def Accepts (mariadb : Mariadb) (db : Db) (record : ImportRecord) : Prop :=
  mariadb.ColumnsFit record ∧ db.HasSequence record.sequenceId

instance (mariadb : Mariadb) (db : Db) (record : ImportRecord) :
    Decidable (db.Accepts mariadb record) :=
  inferInstanceAs (Decidable (_ ∧ _))

/-- `InsertImport`: the new row id, 0 on failure. -/
def insertImport (mariadb : Mariadb) (db : Db) (record : ImportRecord)
    (executed : Bool) (now : String) : Db × Int :=
  if executed = true ∧ db.Accepts mariadb record then
    ({ db with
        imports := db.imports ++ [db.importRow record now]
        nextImport := db.nextImport + 1 },
      toInt64 db.nextImport)
  else (db, 0)

/-- `GetImportByHash`. -/
def getImportByHash (mariadb : Mariadb) (db : Db) (sha : String)
    (executed : Bool) : Option ImportRow :=
  if executed = true then
    db.imports.find? fun row =>
      mariadb.same row.sourceHash sha || mariadb.same row.outputHash sha
  else none

/-- `GetImportBySourcePath`. -/
def getImportBySourcePath (mariadb : Mariadb) (db : Db) (path : Path)
    (executed : Bool) : Option ImportRow :=
  if executed = true then
    db.imports.find? fun row => mariadb.same row.sourcePath path
  else none

/-- `GetImportByOutputPath`. -/
def getImportByOutputPath (mariadb : Mariadb) (db : Db) (path : Path)
    (executed : Bool) : Option ImportRow :=
  if executed = true then
    db.imports.find? fun row => mariadb.same row.outputPath path
  else none

/-- `GetImportById`. -/
def getImportById (db : Db) (id : Int) (executed : Bool) :
    Option ImportRow :=
  if executed = true then
    db.imports.find? fun row => decide ((row.id : Int) = id)
  else none

/-- `UpdateOutputHash`. -/
def updateOutputHash (db : Db) (id : Int) (newHash : String)
    (executed : Bool) : Db :=
  if executed = true ∧ newHash.length ≤ 64 then
    { db with
      imports := db.imports.map fun row =>
        if (row.id : Int) = id then { row with outputHash := newHash }
        else row }
  else db

/-- `UpdateOrientation`. -/
def updateOrientation (db : Db) (id : Int) (orientation : Int)
    (executed : Bool) : Db :=
  if executed = true ∧ 0 ≤ orientation ∧ orientation ≤ 255 then
    { db with
      imports := db.imports.map fun row =>
        if (row.id : Int) = id then
          { row with orientation := some orientation.toNat }
        else row }
  else db

/-- `RecordPreviewEdit`; `worker` is `VARCHAR(16)`. -/
def recordPreviewEdit (db : Db) (importId : Nat) (worker : String)
    (previousHash newHash : String) (width height quality : Nat)
    (executed : Bool) : Db :=
  if executed = true ∧ worker.length ≤ 16 ∧ previousHash.length ≤ 64 ∧
      newHash.length ≤ 64 ∧ quality ≤ 255 then
    { db with
      previewEdits := db.previewEdits ++
        [{ importId := importId
           worker := worker
           previousOutputHash := previousHash
           newOutputHash := newHash
           previewWidth := some width
           previewHeight := some height
           previewQuality := some quality }] }
  else db

/-- `UpdateReconversion`. -/
def updateReconversion (db : Db) (id : Int) (newHash : String)
    (status : ImportStatus) (executed : Bool) (now : String) : Db :=
  if executed = true ∧ newHash.length ≤ 64 then
    { db with
      reconversions := db.reconversions.map fun row =>
        if (row.id : Int) = id then
          { row with
            newOutputHash := some newHash
            status := status
            completedAt := some now }
        else row }
  else db

/-- `InsertAlert`. -/
def insertAlert (db : Db) (severity category message : String)
    (refSequence : String) (executed : Bool) : Db × Bool :=
  if executed = true ∧ category.length ≤ 32 ∧
      message.utf8ByteSize ≤ 65535 ∧ refSequence.length ≤ 32 then
    ({ db with
        alerts := db.alerts ++
          [{ severity := severity
             category := category
             message := message
             refSequence := refSequence }] },
      true)
  else (db, false)

/-- `name = ''` under a padding comparison. -/
def matchesEmpty (name : String) : Bool :=
  name.toList.all (· == ' ')

/-- `name LIKE 'TMP_%'`: the underscore stands for any one character. -/
def matchesTmp (name : String) : Bool :=
  match name.toList with
  | t :: m :: p :: _ :: _ =>
      t.toLower == 't' && m.toLower == 'm' && p.toLower == 'p'
  | _ => false

/-- `imports` refers to none of the matching rows. -/
def Deletable (db : Db) (matching : String → Bool) : Prop :=
  ∀ row ∈ db.sequences, matching row.name = true →
    ∀ entry ∈ db.imports, entry.sequenceId ≠ row.id

instance (db : Db) (matching : String → Bool) :
    Decidable (db.Deletable matching) :=
  inferInstanceAs (Decidable (∀ row ∈ db.sequences,
    matching row.name = true → ∀ entry ∈ db.imports,
      entry.sequenceId ≠ row.id))

/-- A clean-up `DELETE` on `sequences`; a referenced row restricts it. -/
def deleteSequences (db : Db) (matching : String → Bool)
    (executed : Bool) : Db :=
  if executed = true ∧ db.Deletable matching then
    { db with
      sequences := db.sequences.filter fun row => !matching row.name }
  else db

/-- `"IMG_" + std::to_string(id)`. -/
def sequenceName (id : Int) : String :=
  "IMG_" ++ toString id

/-- How the statements of one uninterrupted `AllocateSequence` call went:
the two clean-ups, the counter values it passed over, its random token, and
whether the transaction committed. -/
structure AllocateOutcome where
  emptyDeleted : Bool := true
  tmpDeleted : Bool := true
  skipped : Nat := 0
  token : String := ""
  committed : Bool := true
  deriving DecidableEq, Repr

/-- The name the committed row carries: `UPDATE … WHERE id=?` binds the
signed id, so a key of `2 ^ 63` or more keeps its placeholder. -/
def storedName (id : Nat) (token : String) : String :=
  if toInt64 id = id then sequenceName (toInt64 id) else "TMP_" ++ token

/-- `AllocateSequence` without interleaved statements. -/
def allocateSequence (mariadb : Mariadb) (db : Db)
    (outcome : AllocateOutcome) : Db × Int × String :=
  let cleaned :=
    (db.deleteSequences matchesEmpty outcome.emptyDeleted).deleteSequences
      matchesTmp outcome.tmpDeleted
  let id := cleaned.nextSequence + outcome.skipped
  let name := storedName id outcome.token
  if outcome.committed = true ∧ id < 2 ^ 64 ∧
      ∀ row ∈ cleaned.sequences, mariadb.same row.name name = false then
    ({ cleaned with
        sequences := cleaned.sequences ++ [⟨id, name⟩]
        nextSequence := id + 1 },
      toInt64 id, sequenceName (toInt64 id))
  else ({ cleaned with nextSequence := id }, 0, "")

section Specifications

variable {mariadb : Mariadb} {db : Db}

theorem mem_of_getImportBySourcePath {path : Path} {executed : Bool}
    {row : ImportRow}
    (found : db.getImportBySourcePath mariadb path executed = some row) :
    row ∈ db.imports := by
  unfold getImportBySourcePath at found
  split at found
  · exact List.mem_of_find?_eq_some found
  · cases found

theorem mem_of_getImportByOutputPath {path : Path} {executed : Bool}
    {row : ImportRow}
    (found : db.getImportByOutputPath mariadb path executed = some row) :
    row ∈ db.imports := by
  unfold getImportByOutputPath at found
  split at found
  · exact List.mem_of_find?_eq_some found
  · cases found

theorem mem_of_getImportById {id : Int} {executed : Bool} {row : ImportRow}
    (found : db.getImportById id executed = some row) :
    row ∈ db.imports := by
  unfold getImportById at found
  split at found
  · exact List.mem_of_find?_eq_some found
  · cases found

theorem id_of_getImportById {id : Int} {executed : Bool} {row : ImportRow}
    (found : db.getImportById id executed = some row) :
    (row.id : Int) = id := by
  unfold getImportById at found
  split at found
  · simpa using List.find?_some found
  · cases found

theorem getImportById_ne_none {row : ImportRow} (member : row ∈ db.imports) :
    db.getImportById row.id true ≠ none := by
  intro absent
  unfold getImportById at absent
  rw [if_pos rfl] at absent
  have unmatched := List.find?_eq_none.mp absent row member
  exact unmatched (decide_eq_true rfl)

theorem insertImport_accepted {record : ImportRecord} {now : String}
    (accepted : db.Accepts mariadb record) :
    db.insertImport mariadb record true now =
      ({ db with
          imports := db.imports ++ [db.importRow record now]
          nextImport := db.nextImport + 1 },
        toInt64 db.nextImport) := by
  simp [insertImport, accepted]

theorem insertImport_refused {record : ImportRecord} {executed : Bool}
    {now : String}
    (refused : ¬(executed = true ∧ db.Accepts mariadb record)) :
    db.insertImport mariadb record executed now = (db, 0) := by
  simp only [insertImport, if_neg refused]

theorem insertImport_cases (mariadb : Mariadb) (db : Db)
    (record : ImportRecord) (executed : Bool) (now : String) :
    (executed = true ∧ db.Accepts mariadb record ∧
      (db.insertImport mariadb record executed now).1 =
        { db with
          imports := db.imports ++ [db.importRow record now]
          nextImport := db.nextImport + 1 }) ∨
    (¬(executed = true ∧ db.Accepts mariadb record) ∧
      (db.insertImport mariadb record executed now).1 = db) := by
  by_cases accepted : executed = true ∧ db.Accepts mariadb record
  · left
    obtain ⟨rfl, accepted⟩ := accepted
    exact ⟨rfl, accepted, by rw [insertImport_accepted accepted]⟩
  · exact .inr ⟨accepted, by rw [insertImport_refused accepted]⟩

theorem mem_insertImport {record : ImportRecord} {executed : Bool}
    {now : String} {row : ImportRow} (member : row ∈ db.imports) :
    row ∈ (db.insertImport mariadb record executed now).1.imports := by
  rcases insertImport_cases mariadb db record executed now with ⟨-, -, after⟩ | ⟨-, after⟩
  · rw [after]
    exact List.mem_append_left _ member
  · rwa [after]

@[simp] theorem insertImport_sequences (record : ImportRecord)
    (executed : Bool) (now : String) :
    (db.insertImport mariadb record executed now).1.sequences =
      db.sequences := by
  unfold insertImport
  split <;> rfl

@[simp] theorem insertImport_nextSequence (record : ImportRecord)
    (executed : Bool) (now : String) :
    (db.insertImport mariadb record executed now).1.nextSequence =
      db.nextSequence := by
  unfold insertImport
  split <;> rfl

@[simp] theorem deleteSequences_imports (matching : String → Bool)
    (executed : Bool) :
    (db.deleteSequences matching executed).imports = db.imports := by
  unfold deleteSequences
  split <;> rfl

@[simp] theorem deleteSequences_nextSequence (matching : String → Bool)
    (executed : Bool) :
    (db.deleteSequences matching executed).nextSequence =
      db.nextSequence := by
  unfold deleteSequences
  split <;> rfl

@[simp] theorem deleteSequences_nextImport (matching : String → Bool)
    (executed : Bool) :
    (db.deleteSequences matching executed).nextImport = db.nextImport := by
  unfold deleteSequences
  split <;> rfl

theorem mem_deleteSequences {matching : String → Bool} {executed : Bool}
    {row : SequenceRow} (kept : matching row.name = false)
    (member : row ∈ db.sequences) :
    row ∈ (db.deleteSequences matching executed).sequences := by
  unfold deleteSequences
  split
  · exact List.mem_filter.mpr ⟨member, by simp [kept]⟩
  · exact member

theorem mem_of_mem_deleteSequences {matching : String → Bool}
    {executed : Bool} {row : SequenceRow}
    (member : row ∈ (db.deleteSequences matching executed).sequences) :
    row ∈ db.sequences := by
  unfold deleteSequences at member
  split at member
  · exact List.mem_of_mem_filter member
  · exact member

@[simp] theorem allocateSequence_imports (outcome : AllocateOutcome) :
    (db.allocateSequence mariadb outcome).1.imports = db.imports := by
  unfold allocateSequence
  simp only
  split <;> simp

@[simp] theorem allocateSequence_nextImport (outcome : AllocateOutcome) :
    (db.allocateSequence mariadb outcome).1.nextImport =
      db.nextImport := by
  unfold allocateSequence
  simp only
  split <;> simp

@[simp] theorem updateReconversion_imports (id : Int) (newHash : String)
    (status : ImportStatus) (executed : Bool) (now : String) :
    (db.updateReconversion id newHash status executed now).imports =
      db.imports := by
  unfold updateReconversion
  split <;> rfl

@[simp] theorem updateReconversion_nextSequence (id : Int) (newHash : String)
    (status : ImportStatus) (executed : Bool) (now : String) :
    (db.updateReconversion id newHash status executed now).nextSequence =
      db.nextSequence := by
  unfold updateReconversion
  split <;> rfl

@[simp] theorem updateReconversion_nextImport (id : Int) (newHash : String)
    (status : ImportStatus) (executed : Bool) (now : String) :
    (db.updateReconversion id newHash status executed now).nextImport =
      db.nextImport := by
  unfold updateReconversion
  split <;> rfl

@[simp] theorem recordPreviewEdit_imports (importId : Nat)
    (worker previousHash newHash : String) (width height quality : Nat)
    (executed : Bool) :
    (db.recordPreviewEdit importId worker previousHash newHash width height
      quality executed).imports = db.imports := by
  unfold recordPreviewEdit
  split <;> rfl

@[simp] theorem recordPreviewEdit_nextSequence (importId : Nat)
    (worker previousHash newHash : String) (width height quality : Nat)
    (executed : Bool) :
    (db.recordPreviewEdit importId worker previousHash newHash width height
      quality executed).nextSequence = db.nextSequence := by
  unfold recordPreviewEdit
  split <;> rfl

@[simp] theorem recordPreviewEdit_nextImport (importId : Nat)
    (worker previousHash newHash : String) (width height quality : Nat)
    (executed : Bool) :
    (db.recordPreviewEdit importId worker previousHash newHash width height
      quality executed).nextImport = db.nextImport := by
  unfold recordPreviewEdit
  split <;> rfl

@[simp] theorem insertAlert_imports (severity category message ref : String)
    (executed : Bool) :
    (db.insertAlert severity category message ref executed).1.imports =
      db.imports := by
  unfold insertAlert
  split <;> rfl

@[simp] theorem insertAlert_sequences
    (severity category message ref : String) (executed : Bool) :
    (db.insertAlert severity category message ref executed).1.sequences =
      db.sequences := by
  unfold insertAlert
  split <;> rfl

@[simp] theorem insertAlert_nextSequence
    (severity category message ref : String) (executed : Bool) :
    (db.insertAlert severity category message ref executed).1.nextSequence =
      db.nextSequence := by
  unfold insertAlert
  split <;> rfl

@[simp] theorem insertAlert_nextImport
    (severity category message ref : String) (executed : Bool) :
    (db.insertAlert severity category message ref executed).1.nextImport =
      db.nextImport := by
  unfold insertAlert
  split <;> rfl

/-- What one `AllocateSequence` call does to the counter and returns: a fresh
key past the counter, or `{0, ""}`. -/
theorem allocateSequence_cases (mariadb : Mariadb) (db : Db)
    (outcome : AllocateOutcome) :
    (∃ id, db.nextSequence ≤ id ∧ id < 2 ^ 64 ∧
      (db.allocateSequence mariadb outcome).1.nextSequence = id + 1 ∧
      (⟨id, storedName id outcome.token⟩ : SequenceRow) ∈
        (db.allocateSequence mariadb outcome).1.sequences ∧
      (db.allocateSequence mariadb outcome).2 =
        (toInt64 id, sequenceName (toInt64 id))) ∨
    (db.nextSequence ≤
        (db.allocateSequence mariadb outcome).1.nextSequence ∧
      (db.allocateSequence mariadb outcome).2 = (0, "")) := by
  unfold allocateSequence
  simp only [deleteSequences_nextSequence]
  split
  · rename_i committed
    left
    refine ⟨db.nextSequence + outcome.skipped, Nat.le_add_right _ _,
      committed.2.1, rfl, ?_, rfl⟩
    exact List.mem_append_right _ (List.mem_singleton.mpr rfl)
  · exact .inr ⟨Nat.le_add_right _ _, rfl⟩

/-- `AUTO_INCREMENT`: no key is at the counter or above. -/
def Keyed (db : Db) : Prop :=
  ∀ row ∈ db.sequences, row.id < db.nextSequence

theorem nextSequence_le_allocateSequence (mariadb : Mariadb) (db : Db)
    (outcome : AllocateOutcome) :
    db.nextSequence ≤
      (db.allocateSequence mariadb outcome).1.nextSequence := by
  rcases allocateSequence_cases mariadb db outcome with
    ⟨id, unallocated, -, counter, -⟩ | ⟨grows, -⟩
  · omega
  · exact grows

theorem Keyed.allocateSequence (keyed : db.Keyed) (mariadb : Mariadb)
    (outcome : AllocateOutcome) :
    (db.allocateSequence mariadb outcome).1.Keyed := by
  intro row member
  have grows := nextSequence_le_allocateSequence mariadb db outcome
  unfold Db.allocateSequence at member grows ⊢
  simp only at member grows ⊢
  split at member
  · rename_i committed
    rw [if_pos committed]
    rcases List.mem_append.mp member with old | new
    · have before := keyed row (mem_of_mem_deleteSequences
        (mem_of_mem_deleteSequences old))
      simp only [deleteSequences_nextSequence]
      omega
    · rw [List.mem_singleton.mp new]
      exact Nat.lt_succ_self _
  · rename_i failed
    rw [if_neg failed]
    have before := keyed row (mem_of_mem_deleteSequences
      (mem_of_mem_deleteSequences member))
    simp only [deleteSequences_nextSequence]
    omega

theorem Keyed.of_same {next : Db} (keyed : db.Keyed)
    (sequences : next.sequences = db.sequences)
    (counter : next.nextSequence = db.nextSequence) : next.Keyed := by
  intro row member
  rw [sequences] at member
  rw [counter]
  exact keyed row member

end Specifications

end Db

end RawImport
