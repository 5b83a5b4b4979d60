import RawImport.Config

/-!
# Shared data and pure pipeline functions

The records of `pipeline.h` and the pure functions of `pipeline.cpp`.  The
digest is OpenSSL's; `Digest` keeps the one documented fact the callers use,
that a digest is 64 hexadecimal digits and so never the empty error value.
-/

namespace RawImport

inductive ImportStatus where
  | pending | converting | completed | failed | restored | legacy
  deriving DecidableEq, Repr

namespace ImportStatus

def toText : ImportStatus → String
  | .pending => "pending"
  | .converting => "converting"
  | .completed => "completed"
  | .failed => "failed"
  | .restored => "restored"
  | .legacy => "legacy"

end ImportStatus

inductive DateSource where
  | exif | mtime
  deriving DecidableEq, Repr

/-- Capture date and time, `YYYY-MM-DD` and `HH:MM:SS` when they are known. -/
structure ExifResult where
  date : String := ""
  time : String := ""
  source : DateSource := .mtime
  deriving DecidableEq, Repr

structure ImportRecord where
  id : Int := 0
  sequenceId : Int := 0
  sourcePath : Path := ""
  sourceHash : String := ""
  outputPath : Path := ""
  outputHash : String := ""
  cameraModel : String := ""
  captureDate : String := ""
  captureTime : String := ""
  folderSchema : String := ""
  conversionSettings : String := ""
  status : ImportStatus := .pending
  dateSource : DateSource := .exif
  orientation : Int := 0
  createdAt : String := ""
  completedAt : String := ""
  sequenceName : String := ""
  deriving DecidableEq, Repr

/-- What is read of a job between the request and `ReconvertDrain`. -/
structure ReconversionJob where
  id : Int := 0
  importId : Int := 0
  previousOutputHash : String := ""
  settings : ConversionSettings := {}
  reason : String := ""
  deriving DecidableEq, Repr

/-- SHA-256 in hexadecimal. -/
structure Digest where
  sha256 : Bytes → String
  length_sha256 : ∀ bytes, (sha256 bytes).length = 64

namespace Digest

theorem sha256_ne_empty (digest : Digest) (bytes : Bytes) :
    digest.sha256 bytes ≠ "" := by
  intro empty
  have length := digest.length_sha256 bytes
  rw [empty] at length
  simp at length

/-- A digest known on finitely many inputs, one hexadecimal digit repeated
for each. -/
def ofTable (table : List (Bytes × Char)) : Digest where
  sha256 bytes :=
    String.ofList (List.replicate 64 ((table.lookup bytes).getD '0'))
  length_sha256 bytes := by
    rw [String.length_ofList, List.length_replicate]

end Digest

/-- `sha256_file`: the empty string stands for a file that cannot be read;
`opened` is false when the open or the digest context fails.  Behind a
successful open no read faults here; `Hashing.sha256File` has the faults. -/
def sha256File (digest : Digest) (fs : Fs) (path : Path)
    (opened : Bool) : String :=
  match fs path, opened with
  | some file, true => digest.sha256 file.bytes
  | _, _ => ""

/-- The template loop of `build_folder_schema`. -/
def expandTemplate (y m d : List Char) : List Char → List Char
  | '%' :: 'Y' :: rest => y ++ expandTemplate y m d rest
  | '%' :: 'm' :: rest => m ++ expandTemplate y m d rest
  | '%' :: 'd' :: rest => d ++ expandTemplate y m d rest
  | '%' :: c :: rest => c :: expandTemplate y m d rest
  | c :: rest => c :: expandTemplate y m d rest
  | [] => []

/-- `build_folder_schema(tmpl, capture_date)`. -/
def buildFolderSchema (tmpl captureDate : String) : String :=
  let date := captureDate.toList
  let dated := 10 ≤ date.length
  let y := if dated then date.take 4 else []
  let m := if dated then (date.drop 5).take 2 else []
  let d := if dated then (date.drop 8).take 2 else []
  let t := if tmpl = "" then "%Y/%m" else tmpl
  String.ofList (expandTemplate y m d t.toList)

def fnv1a64 (data : Bytes) : UInt64 :=
  data.foldl
    (fun hash byte => (hash ^^^ byte.toUInt64) * 0x100000001b3)
    0xcbf29ce484222325

/-- Size, mtime in seconds, and FNV-1a of the first 4 KB. -/
structure FastFingerprint where
  size : UInt64 := 0
  mtime : UInt64 := 0
  fnv1a4k : UInt64 := 0
  deriving DecidableEq, Repr

/-- `compute_fast_fingerprint`: zero when `stat` fails, without the header
hash when the file cannot be opened or is empty.  Behind a successful open the
read does not fail. -/
def computeFastFingerprint (fs : Fs) (path : Path)
    (statted opened : Bool) : FastFingerprint :=
  match fs path, statted with
  | some file, true =>
      let fp : FastFingerprint :=
        { size := UInt64.ofNat file.bytes.length
          mtime := UInt64.ofInt file.mtimeSeconds }
      if opened ∧ file.bytes ≠ [] then
        { fp with fnv1a4k := fnv1a64 (file.bytes.take 4096) }
      else fp
  | _, _ => {}

end RawImport
