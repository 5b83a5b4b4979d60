import RawImport.Filesystem
import RawImport.Lib.Segments

/-!
# The thumbnail of a DNG

`extract_thumbnail` looks for the longest JPEG segment in the bytes of a DNG
and jumps past each segment it has found.  No segment that it jumps over is
longer.
-/

namespace RawImport

namespace Pipeline

open Segments

/-- `best_start` and `best_len`. -/
structure Best where
  start : Nat := 0
  len : Nat := 0
  deriving DecidableEq, Repr

/-- `if (len > best_len)`. -/
def Best.offer (best : Best) (start len : Nat) : Best :=
  if len > best.len then ⟨start, len⟩ else best

/-- The loop of `extract_thumbnail`, at an index. -/
def scan (data : Bytes) (i : Nat) (best : Best) : Best :=
  if i + 1 < data.length then
    if At data jpegMarks.opening i then
      match found : findMark jpegMarks.closing data (i + 2) with
      | some j => scan data (j + 2) (best.offer i (j + 2 - i))
      | none => scan data (i + 1) best
    else scan data (i + 1) best
  else best
termination_by data.length - i
decreasing_by
  · have behind := (findMark_eq_some.mp found).behind
    omega
  · omega
  · omega

/-- How the streams of one call are opened, and when it writes. -/
structure ThumbnailCall where
  opened : Bool := true
  created : Bool := true
  now : Int := 0
  deriving DecidableEq, Repr

/-- `extract_thumbnail(dng_path, out_path)`, with the path it returns. -/
def extractThumbnail (fs : Fs) (dngPath outPath : Path)
    (call : ThumbnailCall) : Fs × Path :=
  match fs dngPath with
  | none => (fs, "")
  | some file =>
      if call.opened then
        let best := scan file.bytes 0 {}
        if best.len < 64 then (fs, "")
        else if call.created then
          (fs.write outPath
            ⟨(file.bytes.drop best.start).take best.len, call.now⟩, outPath)
        else (fs, "")
      else (fs, "")

section Scan

variable {data : Bytes} {i : Nat} {best : Best}

/-- The longest of the segments before an index. -/
def Best.Before (best : Best) (data : Bytes) (i : Nat) : Prop :=
  LongestAmong jpegMarks data {other | other < i} best.start best.len

theorem Best.Before.offer {j : Nat} (before : best.Before data i)
    (segment : Segment jpegMarks data i j) :
    (best.offer i (j + 2 - i)).Before data (j + 2) := by
  unfold Best.offer
  split
  · rename_i longer
    exact LongestAmong.replace before segment longer
  · rename_i shorter
    exact LongestAmong.skip before segment (Nat.le_of_not_lt shorter)

theorem Best.Before.next (before : best.Before data i)
    (nothing : ∀ stop, ¬Segment jpegMarks data i stop) :
    best.Before data (i + 1) := by
  apply LongestAmong.widen before
  · intro other member
    exact Nat.lt_succ_of_lt member
  · intro other stop member segment
    have here : other < i + 1 := member
    have different : other ≠ i := fun same =>
      nothing stop (same ▸ segment)
    show other < i
    omega

theorem scan_longest (before : best.Before data i) :
    LongestAmong jpegMarks data Set.univ (scan data i best).start
      (scan data i best).len := by
  fun_induction scan data i best with
  | case1 i best bound opens j found ih =>
      exact ih (before.offer ⟨opens, findMark_eq_some.mp found⟩)
  | case2 i best bound opens missing ih =>
      apply ih
      apply before.next
      intro stop segment
      exact findMark_eq_none missing segment.closes.behind
        segment.closes.stands
  | case3 i best bound other ih =>
      apply ih
      apply before.next
      intro stop segment
      exact other segment.opens
  | case4 i best ended =>
      apply LongestAmong.widen before
      · exact Set.subset_univ _
      · intro other stop _ segment
        have bound := segment.opens.bound
        show other < i
        omega

end Scan

/-- The scan ends with the first of the longest segments, and exactly its
bytes are written when there are at least 64. -/
theorem extractThumbnail_longest (fs : Fs) (dngPath outPath : Path)
    (call : ThumbnailCall) {file : File} (present : fs dngPath = some file)
    (opened : call.opened = true) :
    ∃ start len, scan file.bytes 0 {} = ⟨start, len⟩ ∧
      LongestAmong jpegMarks file.bytes Set.univ start len ∧
      extractThumbnail fs dngPath outPath call =
        if 64 ≤ len ∧ call.created = true then
          (fs.write outPath ⟨(file.bytes.drop start).take len, call.now⟩,
            outPath)
        else (fs, "") := by
  have empty : ({} : Best).Before file.bytes 0 :=
    LongestAmong.empty.widen (Set.empty_subset _)
      fun _ _ below _ => absurd below (Nat.not_lt_zero _)
  refine ⟨_, _, rfl, scan_longest empty, ?_⟩
  simp only [extractThumbnail, present, opened, if_true]
  by_cases short : (scan file.bytes 0 {}).len < 64
  · rw [if_pos short, if_neg fun both => Nat.not_le_of_lt short both.1]
  · have long : 64 ≤ (scan file.bytes 0 {}).len := Nat.le_of_not_lt short
    cases created : call.created with
    | true => simp only [short, long, if_true, if_false, and_self]
    | false => simp [short]

def twoSegments : File where
  bytes := [0xff, 0xd8, 0xff, 0xd9, 0xff, 0xd8] ++ List.replicate 62 0 ++
    [0xff, 0xd9]
  mtime := 0

def onlySegments : Fs :=
  fun path => if path = "/output/a.dng" then some twoSegments else none

theorem extractThumbnail_longest_two :
    extractThumbnail onlySegments "/output/a.dng" "/output/a.thumb.jpg" {} =
      (onlySegments.write "/output/a.thumb.jpg"
        ⟨[0xff, 0xd8] ++ List.replicate 62 0 ++ [0xff, 0xd9], 0⟩,
        "/output/a.thumb.jpg") := by
  obtain ⟨start, len, ends, -, result⟩ :=
    extractThumbnail_longest onlySegments "/output/a.dng"
      "/output/a.thumb.jpg" {} rfl rfl
  have best : scan twoSegments.bytes 0 {} = ⟨4, 66⟩ := by decide +kernel
  rw [best] at ends
  cases ends
  rw [result]
  rfl

end Pipeline

end RawImport
