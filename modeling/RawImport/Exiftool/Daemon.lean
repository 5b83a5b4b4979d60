import RawImport.Lib.Cxx
import RawImport.Pipeline

/-!
# `ExifToolDaemon`

`send_command` and `extract_date` over the stream of the running exiftool
process.  Lines are read by `fgets` in pieces of at most 1023 bytes, and every
piece is compared with the sentinel.
-/

namespace RawImport

namespace Exiftool

open Cxx

/-- What `fgets` reads with room for so many characters, and what it leaves. -/
def fgetsWithin : Nat → Text → Text × Text
  | 0, stream => ([], stream)
  | _, [] => ([], [])
  | room + 1, c :: rest =>
      if c = '\n' then ([c], rest)
      else
        let (more, left) := fgetsWithin room rest
        (c :: more, left)

/-- The characters that fit into `char line[1024]`. -/
def lineRoom : Nat := 1023

/-- `fgets(line, sizeof(line), stdout_f_)`. -/
def fgets (stream : Text) : Option (Text × Text) :=
  if stream = [] then none else some (fgetsWithin lineRoom stream)

theorem length_fgetsWithin {room : Nat} {stream : Text}
    (some_ : 0 < room) (present : stream ≠ []) :
    (fgetsWithin room stream).2.length < stream.length := by
  have never : ∀ room stream,
      (fgetsWithin room stream).2.length ≤ stream.length := by
    intro room stream
    fun_induction fgetsWithin room stream with
    | case1 => exact Nat.le_refl _
    | case2 => exact Nat.le_refl _
    | case3 => exact Nat.le_succ _
    | case4 room c rest _ more left read ih =>
        rw [read] at ih
        exact ih.trans (Nat.le_succ _)
  cases room with
  | zero => cases some_
  | succ room =>
      cases stream with
      | nil => exact (present rfl).elim
      | cons c rest =>
          unfold fgetsWithin
          split
          · exact Nat.lt_succ_self _
          · exact Nat.lt_succ_of_le (never room rest)

def ready : Text := "{ready}".toList

/-- The piece as a `std::string` without its newline. -/
def shown (piece : Text) : Text :=
  let s := cStr piece
  if s.getLast? = some '\n' then s.dropLast else s

/-- The loop of `send_command`: the answer and what is left of the stream, or
nothing at the end of the stream. -/
def receive (result stream : Text) : Option (Text × Text) :=
  match _ : fgets stream with
  | none => none
  | some (piece, rest) =>
      let s := shown piece
      if s = ready then some (result, rest)
      else
        receive ((if result = [] then result else result ++ ['\n']) ++ s) rest
termination_by stream.length
decreasing_by
  rename_i read _
  unfold fgets at read
  split at read
  · cases read
  · rename_i present
    have room : 0 < lineRoom := by decide
    have shorter := length_fgetsWithin room present
    rw [Option.some.inj read] at shorter
    exact shorter

/-- `running_` and what is unread of the stream. -/
structure Daemon where
  running : Bool := true
  unread : Text := []
  deriving DecidableEq

/-- `send_command`, when the command is written or not and exiftool prints the
given text for it. -/
def sendCommand (daemon : Daemon) (written : Bool) (printed : Text) :
    Text × Daemon :=
  if daemon.running = false then ([], daemon)
  else if written = false then ([], { daemon with running := false })
  else
    match receive [] (daemon.unread ++ printed) with
    | none => ([], { running := false, unread := [] })
    | some (result, rest) => (result, { daemon with unread := rest })

/-- `find_first_not_of(" \t")` and the `substr` behind it. -/
def stripLeading (val : Text) : Text :=
  let stripped := val.dropWhile fun c => c == ' ' || c == '\t'
  if stripped = [] then val else stripped

/-- What stands behind `DateTimeOriginal:`. -/
def dateValue (line : Text) : Text :=
  stripLeading (line.drop 17)

/-- The checks on a line: its tag, its length and three separators. -/
def Accepts (line : Text) : Prop :=
  "DateTimeOriginal:".toList <+: line ∧ 19 ≤ (dateValue line).length ∧
    (dateValue line)[4]? = some ':' ∧ (dateValue line)[7]? = some ':' ∧
    (dateValue line)[10]? = some ' '

instance (line : Text) : Decidable (Accepts line) :=
  inferInstanceAs (Decidable (_ ∧ _))

/-- `r.date`. -/
def dateText (val : Text) : Text :=
  val.take 4 ++ '-' :: (val.drop 5).take 2 ++ '-' :: (val.drop 8).take 2

/-- `r.time`. -/
def timeText (val : Text) : Text :=
  (val.drop 11).take 8

/-- The first line of an answer that passes the checks. -/
def acceptedLine (response : Text) : Option Text :=
  (getlines response).find? fun line => decide (Accepts line)

/-- The part of `extract_date` behind `send_command`, with the result of
`exif_from_mtime`. -/
def readDate (response : Text) (mtime : ExifResult) : ExifResult :=
  match acceptedLine response with
  | some line =>
      { date := String.ofList (dateText (dateValue line))
        time := String.ofList (timeText (dateValue line))
        source := .exif }
  | none =>
      { date := mtime.date
        time := mtime.time
        source := .mtime }

/-- `extract_date`.  A path with a newline is not sent. -/
def extractDate (daemon : Daemon) (path : Text) (written : Bool)
    (printed : Text) (mtime : ExifResult) : ExifResult × Daemon :=
  if daemon.running = false then (mtime, daemon)
  else
    if '\n' ∈ path then (readDate [] mtime, daemon)
    else
      let (response, after) := sendCommand daemon written printed
      (readDate response mtime, after)

end Exiftool

end RawImport
