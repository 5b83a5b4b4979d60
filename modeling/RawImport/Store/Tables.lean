import Mathlib.Algebra.Group.Int.Defs
import RawImport.Lib.Numeral
import RawImport.Pipeline

/-!
# Tables

The tables of `0001_init.sql` with the constraints that decide whether strict
mode takes a row: column widths, the enumerations, the unique sequence name
and the foreign key of `imports`.  Text comparison and literal syntax are the
server's; `Mariadb` keeps the documented facts the code relies on.
-/

namespace RawImport

/-- The server's text comparison and literal parsers.  A comparison pads with
spaces, so the empty string equals blank text only.  It goes by the weights of
the characters, which tell digits, signs and separators apart, so it keeps
numbered files apart. -/
structure Mariadb where
  same : String → String → Bool
  same_refl : ∀ text, same text text = true
  same_empty : ∀ text, same "" text = true → ∀ c ∈ text.toList, c = ' '
  same_numbered : ∀ (before before' : String) (number number' : Int),
    same (before ++ "/" ++ ("IMG_" ++ toString number ++ ".dng"))
      (before' ++ "/" ++ ("IMG_" ++ toString number' ++ ".dng")) = true →
    number = number'
  dateOk : String → Bool
  timeOk : String → Bool
  jsonOk : String → Bool

/-- `static_cast<int64_t>` of an unsigned 64-bit value. -/
@[irreducible] def toInt64 (value : Nat) : Int :=
  Int.bmod value (2 ^ 64)

theorem toInt64_of_lt {value : Nat} (small : value < 2 ^ 63) :
    toInt64 value = value := by
  unfold toInt64
  rw [Int.bmod_def]
  omega

theorem toInt64_of_ge {value : Nat} (large : 2 ^ 63 ≤ value)
    (bounded : value < 2 ^ 64) :
    toInt64 value = (value : Int) - 2 ^ 64 := by
  unfold toInt64
  rw [Int.bmod_def]
  omega

theorem toInt64_zero : toInt64 0 = 0 :=
  toInt64_of_lt (by decide)

theorem toInt64_injective {left right : Nat}
    (leftBounded : left < 2 ^ 64) (rightBounded : right < 2 ^ 64)
    (equal : toInt64 left = toInt64 right) : left = right := by
  unfold toInt64 at equal
  rw [Int.bmod_def, Int.bmod_def] at equal
  omega

structure SequenceRow where
  id : Nat
  name : String
  deriving DecidableEq, Repr

structure ImportRow where
  id : Nat
  sequenceId : Nat
  sourcePath : Path
  sourceHash : String
  outputPath : Path
  outputHash : String
  cameraModel : Option String
  captureDate : Option String
  captureTime : Option String
  dateSource : DateSource
  folderSchema : Option String
  conversionSettings : Option String
  status : ImportStatus
  createdAt : Option String
  completedAt : Option String
  orientation : Option Nat
  deriving DecidableEq, Repr

structure ReconversionRow where
  id : Nat
  importId : Nat
  previousOutputHash : String
  newOutputHash : Option String
  conversionSettings : String
  reason : Option String
  status : ImportStatus
  completedAt : Option String
  deriving DecidableEq, Repr

structure PreviewEditRow where
  importId : Nat
  worker : String
  previousOutputHash : String
  newOutputHash : String
  previewWidth : Option Nat
  previewHeight : Option Nat
  previewQuality : Option Nat
  deriving DecidableEq, Repr

structure AlertRow where
  severity : String
  category : String
  message : String
  refSequence : String
  deriving DecidableEq, Repr

/-- The committed contents, with the `AUTO_INCREMENT` counters of the two
tables whose keys the code reads back. -/
structure Db where
  sequences : List SequenceRow := []
  nextSequence : Nat := 1
  imports : List ImportRow := []
  nextImport : Nat := 1
  reconversions : List ReconversionRow := []
  previewEdits : List PreviewEditRow := []
  alerts : List AlertRow := []
  deriving DecidableEq, Repr

namespace Db

/-- `FOREIGN KEY (sequence_id) REFERENCES sequences(id)`. -/
def HasSequence (db : Db) (id : Int) : Prop :=
  ∃ row ∈ db.sequences, (row.id : Int) = id

instance (db : Db) (id : Int) : Decidable (db.HasSequence id) :=
  inferInstanceAs (Decidable (∃ row ∈ db.sequences, (row.id : Int) = id))

end Db

namespace Mariadb

def nullable (text : String) : Option String :=
  if text = "" then none else some text

/-- Every bound value of an `imports` row fits its column. -/
def ColumnsFit (mariadb : Mariadb) (record : ImportRecord) : Prop :=
  0 ≤ record.sequenceId ∧
  record.sourcePath.utf8ByteSize ≤ 65535 ∧
  record.sourceHash.length ≤ 64 ∧
  record.outputPath.utf8ByteSize ≤ 65535 ∧
  record.outputHash.length ≤ 64 ∧
  record.cameraModel.length ≤ 64 ∧
  (record.captureDate = "" ∨ mariadb.dateOk record.captureDate = true) ∧
  (record.captureTime = "" ∨ mariadb.timeOk record.captureTime = true) ∧
  record.folderSchema.length ≤ 16 ∧
  mariadb.jsonOk record.conversionSettings = true ∧
  0 ≤ record.orientation ∧ record.orientation ≤ 255

instance (mariadb : Mariadb) (record : ImportRecord) :
    Decidable (mariadb.ColumnsFit record) := by
  unfold ColumnsFit
  infer_instance

/-- Digits in the places of `picture` marked `9`, its separators elsewhere. -/
def looksLike : List Char → List Char → Bool
  | [], [] => true
  | '9' :: picture, c :: text => c.isDigit && looksLike picture text
  | separator :: picture, c :: text =>
      separator == c && looksLike picture text
  | _, _ => false

/-- A server with a binary collation that takes the literal shapes the
pipeline writes. -/
def binary : Mariadb where
  same left right := left == right
  same_refl text := beq_self_eq_true text
  same_empty text equal := by
    have empty : "" = text := eq_of_beq equal
    subst empty
    simp
  same_numbered before before' number number' equal :=
    PathText.number_of_separated (eq_of_beq equal)
  dateOk text := looksLike "9999-99-99".toList text.toList
  timeOk text := looksLike "99:99:99".toList text.toList
  jsonOk text :=
    text.toList.head? == some '\x7b' && text.toList.getLast? == some '\x7d'

end Mariadb

end RawImport
