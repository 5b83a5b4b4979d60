import RawImport.Filesystem
import RawImport.Lib.Cxx
import RawImport.Lib.Segments

/-!
# The tool `dng_previewembed`

It puts a JPEG in the place of the first JPEG segment of a DNG, which for it
ends with the first closing mark.  A JPEG with such a mark inside is longer
than what the tool finds of it when it runs again.
-/

namespace RawImport

namespace Tools

open Segments

/-- `find_jpeg(d)`. -/
def findJpeg (d : Bytes) : Nat × Nat :=
  match findMark jpegMarks.opening d 0 with
  | none => (0, 0)
  | some i =>
      match findMark jpegMarks.closing d (i + 2) with
      | some j => (i, j + 2 - i)
      | none => (i, d.length - i)

/-- The bytes that `main` writes. -/
def embedded (dngData jdata : Bytes) : Bytes :=
  let (start, len) := findJpeg dngData
  if len > 0 then
    dngData.take start ++ jdata ++ dngData.drop (start + len)
  else dngData ++ jdata

/-- How the streams of one run are opened, and when it writes. -/
structure EmbedCall where
  jpegOpened : Bool := true
  dngOpened : Bool := true
  created : Bool := true
  now : Int := 0
  deriving DecidableEq, Repr

def EmbedCall.Opens (call : EmbedCall) : Prop :=
  call.jpegOpened = true ∧ call.dngOpened = true ∧ call.created = true

/-- How the program ends. -/
inductive Exit where
  | code (number : Int)
  | thrown (exception : Cxx.StdException)
  deriving DecidableEq, Repr

/-- `read_file(p)`: no bytes when it cannot be opened. -/
def readFile (fs : Fs) (p : Path) (opened : Bool) : Bytes :=
  if opened then (fs.bytesAt p).getD [] else []

/-- `argv[3]` to `argv[5]`. -/
def numbers (w h q : String) : Except Cxx.StdException (Int × Int × Int) := do
  let w ← Cxx.stoi w.toList
  let h ← Cxx.stoi h.toList
  let q ← Cxx.stoi q.toList
  return (w, h, q)

/-- `main(argc, argv)`, with the arguments behind the name. -/
def main (fs : Fs) (arguments : List String) (call : EmbedCall) :
    Fs × Exit :=
  match arguments with
  | dng :: jpeg :: w :: h :: q :: _ =>
      match numbers w h q with
      | .error exception => (fs, .thrown exception)
      | .ok _ =>
          if (fs dng).isNone then (fs, .code 1)
          else
            let jdata := readFile fs jpeg call.jpegOpened
            if jdata.length < 64 ∨ ¬At jdata jpegMarks.opening 0 then
              (fs, .code 1)
            else
              let dngData := readFile fs dng call.dngOpened
              if dngData = [] then (fs, .code 1)
              else if call.created then
                (fs.write dng ⟨embedded dngData jdata, call.now⟩, .code 0)
              else (fs, .code 1)
  | _ => (fs, .code 2)

def Closed (jdata : Bytes) : Prop :=
  First jdata jpegMarks.closing 2 (jdata.length - 2)

def Unclosed (jdata : Bytes) : Prop :=
  ∀ position, 2 ≤ position → ¬At jdata jpegMarks.closing position

/-- No first segment of the DNG ends before its last byte. -/
def NothingBehind (dngData : Bytes) : Prop :=
  ∀ start position, First dngData jpegMarks.opening 0 start →
    start + 2 ≤ position → At dngData jpegMarks.closing position →
      position + 2 = dngData.length

section Bytes

variable {front jdata back dngData : Bytes}

theorem findJpeg_of_closing {i j : Nat}
    (opening : First dngData jpegMarks.opening 0 i)
    (closing : findMark jpegMarks.closing dngData (i + 2) = some j) :
    findJpeg dngData = (i, j + 2 - i) := by
  simp only [findJpeg, findMark_eq_some.mpr opening, closing]

theorem findJpeg_of_unclosed {i : Nat}
    (opening : First dngData jpegMarks.opening 0 i)
    (closing : findMark jpegMarks.closing dngData (i + 2) = none) :
    findJpeg dngData = (i, dngData.length - i) := by
  simp only [findJpeg, findMark_eq_some.mpr opening, closing]

theorem embedded_of_findJpeg {start len : Nat}
    (found : findJpeg dngData = (start, len)) (positive : 0 < len) :
    embedded dngData jdata =
      dngData.take start ++ (jdata ++ dngData.drop (start + len)) := by
  rw [embedded, found, ← List.append_assoc]
  exact if_pos positive

theorem first_opening (opens : At jdata jpegMarks.opening 0)
    (before : ∀ position, ¬At front jpegMarks.opening position) :
    First (front ++ (jdata ++ back)) jpegMarks.opening 0 front.length := by
  have here : At (front ++ (jdata ++ back)) jpegMarks.opening
      front.length := by
    have later : At (jdata ++ back) jpegMarks.opening 0 :=
      (at_append_left opens.bound).mpr opens
    have there : At (front ++ (jdata ++ back)) jpegMarks.opening
        (front.length + 0) := at_append_right.mpr later
    exact there
  refine ⟨Nat.zero_le _, here, ?_⟩
  intro other _ stands
  by_contra earlier
  by_cases inside : other + 1 < front.length
  · exact before other ((at_append_left inside).mp stands)
  · -- the mark would begin with its own end
    have last : front.length = other + 1 := by omega
    rw [last] at here
    exact absurd (stands.next here) (by decide)

theorem embedded_eq (dngData jdata : Bytes) :
    ∃ front back, embedded dngData jdata = front ++ (jdata ++ back) ∧
      (∀ position, ¬At front jpegMarks.opening position) ∧
      (back = [] ↔ NothingBehind dngData) := by
  cases opening : findMark jpegMarks.opening dngData 0 with
  | none =>
      have never : ∀ position, ¬At dngData jpegMarks.opening position :=
        fun position => findMark_eq_none opening (Nat.zero_le position)
      refine ⟨dngData, [], ?_, never, ?_⟩
      · rw [embedded, findJpeg, opening, List.append_nil]
        rfl
      · refine iff_of_true rfl ?_
        intro start position first
        exact absurd first.stands (never start)
  | some i =>
      have first := findMark_eq_some.mp opening
      have bound := first.stands.bound
      have before : ∀ position,
          ¬At (dngData.take i) jpegMarks.opening position := by
        intro position stands
        have inside := stands.bound
        have whole : At (dngData.take i ++ dngData.drop i)
            jpegMarks.opening position := (at_append_left inside).mpr stands
        rw [List.take_append_drop] at whole
        have least := first.least position (Nat.zero_le _) whole
        rw [List.length_take] at inside
        omega
      have unique : ∀ start, First dngData jpegMarks.opening 0 start →
          start = i := fun start other => other.unique first
      cases closing : findMark jpegMarks.closing dngData (i + 2) with
      | none =>
          have found := findJpeg_of_unclosed first closing
          refine ⟨_, _, embedded_of_findJpeg found (by omega), before, ?_⟩
          refine iff_of_true ?_ ?_
          · rw [List.drop_eq_nil_iff]
            omega
          · intro start position other behind stands
            rw [unique start other] at behind
            exact absurd stands (findMark_eq_none closing behind)
      | some j =>
          have ends := findMark_eq_some.mp closing
          have inside := ends.stands.bound
          have behind := ends.behind
          have found := findJpeg_of_closing first closing
          refine ⟨_, _, embedded_of_findJpeg found (by omega), before, ?_⟩
          rw [List.drop_eq_nil_iff]
          constructor
          · intro short start position other later stands
            rw [unique start other] at later
            have least := ends.least position later stands
            have inDng := stands.bound
            omega
          · intro nothing
            have last := nothing i j first behind ends.stands
            omega

/-- A run on an output replaces as much as it finds of the JPEG. -/
theorem embedded_same_iff {len : Nat}
    (found : findJpeg (front ++ (jdata ++ back)) = (front.length, len))
    (positive : 0 < len) (bound : len ≤ jdata.length + back.length) :
    embedded (front ++ (jdata ++ back)) jdata = front ++ (jdata ++ back) ↔
      len = jdata.length := by
  rw [embedded_of_findJpeg found positive, List.take_left,
    List.append_right_inj, List.append_right_inj, List.drop_length_add_append]
  constructor
  · intro same
    have lengths := congrArg List.length same
    rw [List.length_drop, List.length_append] at lengths
    omega
  · intro whole
    rw [whole, List.drop_left]

theorem at_output {position : Nat} (bound : position + 1 < jdata.length) :
    At (front ++ (jdata ++ back)) jpegMarks.closing
        (front.length + position) ↔
      At jdata jpegMarks.closing position :=
  at_append_right.trans (at_append_left bound)

/-- The first end mark of an output is that of the JPEG, when it is inside. -/
theorem closed_iff_of_first {position : Nat}
    (ends : First (front ++ (jdata ++ back)) jpegMarks.closing
      (front.length + 2) (front.length + position)) :
    Closed jdata ↔ position + 2 = jdata.length := by
  have behind := ends.behind
  constructor
  · intro closed
    have bound := closed.stands.bound
    have late := closed.behind
    have first := ends.least (front.length + (jdata.length - 2)) (by omega)
      ((at_output bound).mpr closed.stands)
    have inJdata : position + 1 < jdata.length := by omega
    have least := closed.least position (by omega)
      ((at_output inJdata).mp ends.stands)
    omega
  · intro last
    have whole : position = jdata.length - 2 := by omega
    have bound : position + 1 < jdata.length := by omega
    unfold Closed
    rw [← whole]
    refine ⟨by omega, (at_output bound).mp ends.stands, ?_⟩
    intro other later stands
    have least := ends.least (front.length + other) (by omega)
      ((at_output stands.bound).mpr stands)
    omega

/-- A run on an output finds the JPEG up to its first end mark. -/
theorem embedded_again (opens : At jdata jpegMarks.opening 0)
    (before : ∀ position, ¬At front jpegMarks.opening position) :
    embedded (front ++ (jdata ++ back)) jdata = front ++ (jdata ++ back) ↔
      Closed jdata ∨ Unclosed jdata ∧ back = [] := by
  have opening : First (front ++ (jdata ++ back)) jpegMarks.opening 0
      front.length := first_opening opens before
  have inJpeg := opens.bound
  have total : (front ++ (jdata ++ back)).length =
      front.length + (jdata.length + back.length) := by
    rw [List.length_append, List.length_append]
  cases closing : findMark jpegMarks.closing (front ++ (jdata ++ back))
      (front.length + 2) with
  | none =>
      have found := findJpeg_of_unclosed opening closing
      have never : Unclosed jdata := by
        intro position behind stands
        exact findMark_eq_none closing (by omega)
          ((at_output stands.bound).mpr stands)
      have notClosed : ¬Closed jdata :=
        fun closed => never _ closed.behind closed.stands
      rw [embedded_same_iff found (by omega) (by omega),
        or_iff_right notClosed, and_iff_right never,
        ← List.length_eq_zero_iff]
      omega
  | some j =>
      have found := findJpeg_of_closing opening closing
      have ends := findMark_eq_some.mp closing
      have behind := ends.behind
      have inside := ends.stands.bound
      obtain ⟨position, rfl⟩ : ∃ position, j = front.length + position :=
        ⟨j - front.length, by omega⟩
      have notUnclosed : ¬(Unclosed jdata ∧ back = []) := by
        intro shape
        obtain ⟨unclosed, empty⟩ := shape
        have inJdata : position + 1 < jdata.length := by
          rw [total, empty, List.length_nil] at inside
          omega
        exact unclosed position (by omega)
          ((at_output inJdata).mp ends.stands)
      rw [embedded_same_iff found (by omega) (by omega),
        or_iff_left notUnclosed, closed_iff_of_first ends]
      omega

theorem embedded_embedded_iff (dngData : Bytes)
    (opens : At jdata jpegMarks.opening 0) :
    embedded (embedded dngData jdata) jdata = embedded dngData jdata ↔
      Closed jdata ∨ Unclosed jdata ∧ NothingBehind dngData := by
  obtain ⟨front, back, output, before, behind⟩ :=
    embedded_eq dngData jdata
  rw [output, embedded_again opens before, behind]

theorem embedded_ne_nil (dngData : Bytes)
    (opens : At jdata jpegMarks.opening 0) :
    embedded dngData jdata ≠ [] := by
  obtain ⟨front, back, output, -⟩ := embedded_eq dngData jdata
  have bound := opens.bound
  rw [output]
  intro empty
  have lengths := congrArg List.length empty
  rw [List.length_append, List.length_append, List.length_nil] at lengths
  omega

end Bytes

/-- A JPEG that `main` accepts. -/
structure Accepted (jdata : Bytes) : Prop where
  long : 64 ≤ jdata.length
  opens : At jdata jpegMarks.opening 0

theorem main_of_accepted {fs : Fs} {dng jpeg : Path} {w h q : String}
    (rest : List String) {values : Int × Int × Int} {source preview : File}
    {call : EmbedCall} (numbered : numbers w h q = .ok values)
    (present : fs dng = some source) (given : fs jpeg = some preview)
    (accepted : Accepted preview.bytes) (opened : call.Opens) :
    main fs (dng :: jpeg :: w :: h :: q :: rest) call =
      if source.bytes = [] then (fs, .code 1)
      else
        (fs.write dng ⟨embedded source.bytes preview.bytes, call.now⟩,
          .code 0) := by
  obtain ⟨long, opens⟩ := accepted
  obtain ⟨jpegOpened, dngOpened, created⟩ := opened
  have valid : ¬(preview.bytes.length < 64 ∨
      ¬At preview.bytes jpegMarks.opening 0) := by
    intro invalid
    rcases invalid with short | closed
    · omega
    · exact closed opens
  simp only [main, numbered, present, readFile, Fs.bytesAt, given,
    jpegOpened, dngOpened, created, if_true, Option.isNone_some,
    Bool.false_eq_true, if_false, Option.map_some, Option.getD_some,
    if_neg valid]

/-- A second run leaves the file as it is exactly when the first end mark of
the JPEG is its end, or the JPEG has none and nothing of the DNG is behind
it; or when both refuse an empty DNG. -/
theorem main_twice_iff {fs : Fs} {dng jpeg : Path} {w h q : String}
    {rest : List String} {values : Int × Int × Int} {source preview : File}
    {first second : EmbedCall} (different : dng ≠ jpeg)
    (numbered : numbers w h q = .ok values)
    (present : fs dng = some source) (given : fs jpeg = some preview)
    (accepted : Accepted preview.bytes)
    (firstOpened : first.Opens) (secondOpened : second.Opens) :
    let arguments := dng :: jpeg :: w :: h :: q :: rest
    let output := (main fs arguments first).1
    (main output arguments second).1.bytesAt dng = output.bytesAt dng ↔
      source.bytes = [] ∨ Closed preview.bytes ∨
        Unclosed preview.bytes ∧ NothingBehind source.bytes := by
  intro arguments output
  have firstRun := main_of_accepted rest numbered present given
    accepted firstOpened
  by_cases empty : source.bytes = []
  · rw [if_pos empty] at firstRun
    have same : output = fs := congrArg Prod.fst firstRun
    have secondRun := main_of_accepted rest numbered present given
      accepted secondOpened
    rw [if_pos empty] at secondRun
    refine iff_of_true ?_ (.inl empty)
    rw [same]
    exact congrArg (fun result => result.1.bytesAt dng) secondRun
  · rw [if_neg empty] at firstRun
    have written : output = fs.write dng
        ⟨embedded source.bytes preview.bytes, first.now⟩ :=
      congrArg Prod.fst firstRun
    have presentAgain : output dng =
        some ⟨embedded source.bytes preview.bytes, first.now⟩ := by
      rw [written, Fs.write_same]
    have givenAgain : output jpeg = some preview := by
      rw [written, Fs.write_other _ _ (Ne.symm different)]
      exact given
    have secondRun := main_of_accepted rest numbered presentAgain
      givenAgain accepted secondOpened
    rw [if_neg (embedded_ne_nil _ accepted.opens)] at secondRun
    have after : (main output arguments second).1 = output.write dng
        ⟨embedded (embedded source.bytes preview.bytes) preview.bytes,
          second.now⟩ := congrArg Prod.fst secondRun
    rw [after, Fs.bytesAt, Fs.write_same, Fs.bytesAt, presentAgain,
      Option.map_some, Option.map_some, Option.some_inj,
      embedded_embedded_iff _ accepted.opens, or_iff_right empty]

/-- A JPEG of 66 bytes, with an end mark at an index before its own. -/
def framed (inner : Bytes) : Bytes :=
  [0xff, 0xd8] ++ List.replicate 20 0 ++ inner ++ List.replicate 40 0 ++
    [0xff, 0xd9]

def dngAndJpeg (jdata : Bytes) : Fs := fun path =>
  if path = "/output/a.dng" then some ⟨[0x49, 0x49, 0x2a, 0], 0⟩
  else if path = "/tmp/a.jpg" then some ⟨jdata, 0⟩
  else none

def arguments : List String :=
  ["/output/a.dng", "/tmp/a.jpg", "1024", "768", "92"]

theorem main_twice_iff_closed :
    (main (main (dngAndJpeg (framed [0, 0])) arguments {}).1 arguments
        {}).1.bytesAt "/output/a.dng" =
      (main (dngAndJpeg (framed [0, 0])) arguments {}).1.bytesAt
        "/output/a.dng" := by
  have closed : Closed (framed [0, 0]) :=
    findMark_eq_some.mp (by decide +kernel)
  have numbered : numbers "1024" "768" "92" = .ok (1024, 768, 92) := rfl
  have accepted : Accepted (framed [0, 0]) := ⟨by decide, by decide⟩
  have present : dngAndJpeg (framed [0, 0]) "/output/a.dng" =
      some ⟨[0x49, 0x49, 0x2a, 0], 0⟩ := rfl
  have given : dngAndJpeg (framed [0, 0]) "/tmp/a.jpg" =
      some ⟨framed [0, 0], 0⟩ := rfl
  have opened : EmbedCall.Opens {} := ⟨rfl, rfl, rfl⟩
  exact (main_twice_iff (by decide) numbered present given accepted opened
    opened).mpr (.inr (.inl closed))

/-- An end mark inside, as a thumbnail in the header has. -/
theorem main_twice_inner :
    (main (main (dngAndJpeg (framed [0xff, 0xd9])) arguments {}).1 arguments
        {}).1.bytesAt "/output/a.dng" ≠
      (main (dngAndJpeg (framed [0xff, 0xd9])) arguments {}).1.bytesAt
        "/output/a.dng" := by
  decide +kernel

end Tools

end RawImport
