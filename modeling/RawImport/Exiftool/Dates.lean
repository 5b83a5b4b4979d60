import RawImport.Exiftool.Daemon
import RawImport.Lib.Directory

/-!
# Dates that become directories

`extract_date` checks three separators of a date and `build_folder_schema`
writes parts of it into the path of the output.  The date has its shape, and
the directory lies in the output directory, when the other characters of the
answer are digits and the template itself does not climb.
-/

namespace RawImport

namespace Exiftool

open Cxx
open Directory

def AllDigits (text : Text) : Prop :=
  ∀ c ∈ text, c.isDigit = true

/-- Three groups of so many decimal digits, joined by the separator. -/
def Grouped (separator : Char) (first second third : Nat) (text : Text) :
    Prop :=
  ∃ left middle right : Text,
    text = left ++ separator :: (middle ++ separator :: right) ∧
      left.length = first ∧ middle.length = second ∧ right.length = third ∧
      AllDigits left ∧ AllDigits middle ∧ AllDigits right

/-- `YYYY-MM-DD`. -/
def DateShaped (date : Text) : Prop := Grouped '-' 4 2 2 date

/-- `HH:MM:SS`. -/
def TimeShaped (time : Text) : Prop := Grouped ':' 2 2 2 time

theorem grouped_iff {separator one two : Char} {left middle right : Text} :
    Grouped separator left.length middle.length right.length
        (left ++ one :: (middle ++ two :: right)) ↔
      one = separator ∧ two = separator ∧
        AllDigits left ∧ AllDigits middle ∧ AllDigits right := by
  constructor
  · rintro ⟨l, m, r, whole, lengthL, lengthM, -, digitsL, digitsM, digitsR⟩
    obtain ⟨rfl, behindLeft⟩ := List.append_inj whole lengthL.symm
    obtain ⟨rfl, behindOne⟩ := List.cons.inj behindLeft
    obtain ⟨rfl, behindMiddle⟩ := List.append_inj behindOne lengthM.symm
    obtain ⟨rfl, rfl⟩ := List.cons.inj behindMiddle
    exact ⟨rfl, rfl, digitsL, digitsM, digitsR⟩
  · rintro ⟨rfl, rfl, digitsL, digitsM, digitsR⟩
    exact ⟨left, middle, right, rfl, rfl, rfl, rfl, digitsL, digitsM, digitsR⟩

/-- The characters of an accepted value that the code does not look at. -/
structure WellFormed (val : Text) : Prop where
  year : AllDigits (val.take 4)
  month : AllDigits ((val.drop 5).take 2)
  day : AllDigits ((val.drop 8).take 2)
  hour : AllDigits ((val.drop 11).take 2)
  minute : AllDigits ((val.drop 14).take 2)
  second : AllDigits ((val.drop 17).take 2)
  afterHour : val[13]? = some ':'
  afterMinute : val[16]? = some ':'

theorem length_group {val : Text} {start count : Nat}
    (long : start + count ≤ val.length) :
    ((val.drop start).take count).length = count := by
  rw [List.length_take, List.length_drop]
  omega

theorem groups_of_length {y m d : Text} (year : y.length = 4)
    (month : m.length = 2) (day : d.length = 2) :
    let date := y ++ '-' :: m ++ '-' :: d
    date.take 4 = y ∧ (date.drop 5).take 2 = m ∧ (date.drop 8).take 2 = d := by
  intro date
  have atYear : date = y ++ ('-' :: (m ++ '-' :: d)) := by
    simp [date]
  have atMonth : date = (y ++ ['-']) ++ (m ++ '-' :: d) := by
    simp [date]
  have atDay : date = (y ++ '-' :: m ++ ['-']) ++ d := by
    simp [date]
  refine ⟨?_, ?_, ?_⟩
  · rw [atYear, List.take_left' year]
  · rw [atMonth, List.drop_left' (by simp [year]), List.take_left' month]
  · rw [atDay, List.drop_left' (by simp [year, month]),
      List.take_of_length_le day.le]

theorem dateShaped_iff {val : Text} (long : 19 ≤ val.length) :
    DateShaped (dateText val) ↔ AllDigits (val.take 4) ∧
      AllDigits ((val.drop 5).take 2) ∧ AllDigits ((val.drop 8).take 2) := by
  have year : (val.take 4).length = 4 := by
    rw [List.length_take]
    omega
  have month := length_group (show 5 + 2 ≤ val.length by omega)
  have day := length_group (show 8 + 2 ≤ val.length by omega)
  have groups := @grouped_iff '-' '-' '-' (val.take 4) ((val.drop 5).take 2)
    ((val.drop 8).take 2)
  rw [year, month, day] at groups
  simpa [DateShaped, dateText] using groups

theorem timeText_eq {val : Text} (long : 19 ≤ val.length) :
    timeText val = (val.drop 11).take 2 ++
      val[13] :: ((val.drop 14).take 2 ++ val[16] :: (val.drop 17).take 2) := by
  apply List.ext_getElem
  · simp only [timeText, List.length_append, List.length_cons,
      List.length_take, List.length_drop]
    omega
  · intro index inner outer
    simp only [timeText, List.length_take, List.length_drop] at inner
    have small : index < 8 := by omega
    simp only [timeText, List.getElem_take, List.getElem_drop,
      List.getElem_append, List.getElem_cons, List.length_take,
      List.length_drop]
    grind

theorem timeShaped_iff {val : Text} (long : 19 ≤ val.length) :
    TimeShaped (timeText val) ↔ val[13]? = some ':' ∧ val[16]? = some ':' ∧
      AllDigits ((val.drop 11).take 2) ∧ AllDigits ((val.drop 14).take 2) ∧
      AllDigits ((val.drop 17).take 2) := by
  have hour := length_group (show 11 + 2 ≤ val.length by omega)
  have minute := length_group (show 14 + 2 ≤ val.length by omega)
  have second := length_group (show 17 + 2 ≤ val.length by omega)
  have groups := @grouped_iff ':' val[13] val[16] ((val.drop 11).take 2)
    ((val.drop 14).take 2) ((val.drop 17).take 2)
  rw [hour, minute, second] at groups
  rw [timeText_eq long, TimeShaped, groups,
    List.getElem?_eq_getElem (show 13 < val.length by omega),
    List.getElem?_eq_getElem (show 16 < val.length by omega),
    Option.some_inj, Option.some_inj]

theorem shaped_iff {val : Text} (long : 19 ≤ val.length) :
    DateShaped (dateText val) ∧ TimeShaped (timeText val) ↔
      WellFormed val := by
  rw [dateShaped_iff long, timeShaped_iff long]
  constructor
  · rintro ⟨⟨year, month, day⟩, afterHour, afterMinute, hour, minute, second⟩
    exact ⟨year, month, day, hour, minute, second, afterHour, afterMinute⟩
  · intro formed
    exact ⟨⟨formed.year, formed.month, formed.day⟩, formed.afterHour,
      formed.afterMinute, formed.hour, formed.minute, formed.second⟩

/-- What the template loop writes at one step. -/
inductive Token where
  | year | month | day
  | char (c : Char)
  deriving DecidableEq

def tokens : Text → List Token
  | '%' :: 'Y' :: rest => .year :: tokens rest
  | '%' :: 'm' :: rest => .month :: tokens rest
  | '%' :: 'd' :: rest => .day :: tokens rest
  | '%' :: c :: rest => .char c :: tokens rest
  | c :: rest => .char c :: tokens rest
  | [] => []

def Token.text (y m d : Text) : Token → Text
  | .year => y
  | .month => m
  | .day => d
  | .char c => [c]

theorem expandTemplate_eq (y m d template : Text) :
    expandTemplate y m d template =
      (tokens template).flatMap (Token.text y m d) := by
  fun_induction tokens template with
  | case1 rest ih => rw [expandTemplate, ih]; rfl
  | case2 rest ih => rw [expandTemplate, ih]; rfl
  | case3 rest ih => rw [expandTemplate, ih]; rfl
  | case4 c rest notYear notMonth notDay ih =>
      rw [expandTemplate, ih]
      · rfl
      · exact notYear
      · exact notMonth
      · exact notDay
  | case5 c rest _ _ _ _ ih =>
      rw [expandTemplate, ih]
      · rfl
      all_goals assumption
  | case6 => rfl

/-- What a component of the template does, whatever digits the date has. -/
def tokenMove (component : List Token) : Move :=
  if component = [] ∨ component = [.char '.'] then .stay
  else if component = [.char '.', .char '.'] then .up
  else .down

def TemplateConfined (template : Text) : Prop :=
  Confined 0 (((tokens template).splitOn (.char '/')).map tokenMove)

instance (template : Text) : Decidable (TemplateConfined template) :=
  inferInstanceAs (Decidable (Confined 0 _))

/-- The parts of a date. -/
structure DateParts (y m d : Text) : Prop where
  year : y ≠ [] ∧ AllDigits y
  month : m ≠ [] ∧ AllDigits m
  day : d ≠ [] ∧ AllDigits d

theorem digits_append_ne {digits rest dots : Text}
    (present : digits ≠ [] ∧ AllDigits digits) (dotted : ∀ c ∈ dots, c = '.') :
    digits ++ rest ≠ dots := by
  intro same
  obtain ⟨c, more, rfl⟩ := List.exists_cons_of_ne_nil present.1
  have digit := present.2 c List.mem_cons_self
  have member : c ∈ dots := by
    rw [← same]
    exact List.mem_cons_self
  rw [dotted c member] at digit
  exact absurd digit (by decide)

theorem flatMap_text_eq_dots {y m d : Text} (parts : DateParts y m d)
    {component : List Token} {dots : Text} (dotted : ∀ c ∈ dots, c = '.') :
    component.flatMap (Token.text y m d) = dots ↔
      component = dots.map Token.char := by
  induction component generalizing dots with
  | nil =>
      rw [List.flatMap_nil, eq_comm, @eq_comm _ [], List.map_eq_nil_iff]
  | cons token component ih =>
      rw [List.flatMap_cons]
      have notDots : ∀ other : Token, (∀ c, other ≠ .char c) →
          other :: component ≠ dots.map Token.char := by
        intro other date same
        have member : other ∈ dots.map Token.char := by
          rw [← same]
          exact List.mem_cons_self
        obtain ⟨c, -, spelled⟩ := List.mem_map.mp member
        exact date c spelled.symm
      cases token with
      | year =>
          exact iff_of_false (digits_append_ne parts.year dotted)
            (notDots .year fun _ => nofun)
      | month =>
          exact iff_of_false (digits_append_ne parts.month dotted)
            (notDots .month fun _ => nofun)
      | day =>
          exact iff_of_false (digits_append_ne parts.day dotted)
            (notDots .day fun _ => nofun)
      | char c =>
          cases dots with
          | nil => exact iff_of_false nofun nofun
          | cons dot dots =>
              have later := ih fun other member =>
                dotted other (List.mem_cons_of_mem _ member)
              rw [Token.text, List.singleton_append, List.cons_eq_cons, later,
                List.map_cons, List.cons_eq_cons, Token.char.injEq]

theorem moveOf_flatMap {y m d : Text} (parts : DateParts y m d)
    (component : List Token) :
    moveOf (component.flatMap (Token.text y m d)) = tokenMove component := by
  have none : ∀ c ∈ ([] : Text), c = '.' := nofun
  have one : ∀ c ∈ ['.'], c = '.' := fun _ member =>
    List.mem_singleton.mp member
  have two : ∀ c ∈ ['.', '.'], c = '.' := by simp
  unfold moveOf tokenMove
  simp only [flatMap_text_eq_dots parts none, flatMap_text_eq_dots parts one,
    flatMap_text_eq_dots parts two]
  rfl

theorem stays_iff_templateConfined {y m d : Text} (parts : DateParts y m d)
    (template : Text) :
    Confined 0 (((expandTemplate y m d template).splitOn '/').map moveOf) ↔
      TemplateConfined template := by
  have digitless : ∀ digits : Text, AllDigits digits → '/' ∉ digits := by
    intro digits all member
    exact absurd (all '/' member) (by decide)
  have plain : ∀ token ∈ tokens template, token ≠ .char '/' →
      '/' ∉ token.text y m d := by
    intro token _ other
    cases token with
    | year => exact digitless y parts.year.2
    | month => exact digitless m parts.month.2
    | day => exact digitless d parts.day.2
    | char c =>
        intro member
        exact other (by rw [List.mem_singleton.mp member])
  have cuts : Token.text y m d (.char '/') = ['/'] := rfl
  rw [expandTemplate_eq, Cutting.splitOn_flatMap cuts plain, List.map_map]
  have moves : moveOf ∘ List.flatMap (Token.text y m d) = tokenMove :=
    funext (moveOf_flatMap parts)
  rw [moves]
  rfl

/-- `output_dir + "/" + folder` lies in every output directory, however that
is reached; `env_or` gives no empty one. -/
def StaysInside (folder : String) : Prop :=
  ∀ (cwd : List Text) (outputDir : Path), outputDir ≠ "" →
    resolve cwd outputDir.toList <+:
      resolve cwd (outputDir ++ "/" ++ folder).toList

theorem staysInside_iff (folder : String) :
    StaysInside folder ↔
      Confined 0 ((folder.toList.splitOn '/').map moveOf) := by
  have spelled (outputDir : Path) : (outputDir ++ "/" ++ folder).toList =
      outputDir.toList ++ '/' :: folder.toList := by
    rw [String.toList_append, String.toList_append, List.append_assoc]
    rfl
  rw [← inside_iff_confined]
  constructor
  · intro inside cwd directory present
    have below := inside cwd (String.ofList directory) (by
      intro empty
      apply present
      rw [← String.toList_ofList (l := directory), empty]
      rfl)
    rwa [spelled, String.toList_ofList] at below
  · intro inside cwd outputDir present
    rw [spelled]
    apply inside
    intro empty
    exact present (String.toList_eq_nil_iff.mp empty)

/-- The directory of a date of digits depends on the template alone. -/
theorem staysInside_buildFolderSchema {val : Text} (formed : WellFormed val)
    (long : 19 ≤ val.length) (template : String) :
    StaysInside (buildFolderSchema template (String.ofList (dateText val))) ↔
      TemplateConfined template.toList := by
  have year : (val.take 4).length = 4 := by
    rw [List.length_take]
    omega
  have month := length_group (show 5 + 2 ≤ val.length by omega)
  have day := length_group (show 8 + 2 ≤ val.length by omega)
  have parts : DateParts (val.take 4) ((val.drop 5).take 2)
      ((val.drop 8).take 2) :=
    ⟨⟨List.ne_nil_of_length_pos (by omega), formed.year⟩,
      ⟨List.ne_nil_of_length_pos (by omega), formed.month⟩,
      ⟨List.ne_nil_of_length_pos (by omega), formed.day⟩⟩
  have takes : (dateText val).take 4 = val.take 4 ∧
      ((dateText val).drop 5).take 2 = (val.drop 5).take 2 ∧
      ((dateText val).drop 8).take 2 = (val.drop 8).take 2 :=
    groups_of_length year month day
  have dated : 10 ≤ (dateText val).length := by
    simp only [dateText, List.length_append, List.length_cons, year, month,
      day]
    omega
  rw [staysInside_iff]
  unfold buildFolderSchema
  simp only [String.toList_ofList, dated, if_true, takes]
  split
  · rename_i empty
    rw [stays_iff_templateConfined parts, empty]
    exact iff_of_true (by decide +kernel) (by decide +kernel)
  · exact stays_iff_templateConfined parts _

/-- What is expected of the answer of exiftool and a template without `..`:
the text of the answer shapes neither the date nor the directory. -/
def Unsteered (response : Text) (mtime : ExifResult) (template : String) :
    Prop :=
  let result := readDate response mtime
  result.source = .exif →
    DateShaped result.date.toList ∧ TimeShaped result.time.toList ∧
      (¬ "..".toList <:+: template.toList →
        StaysInside (buildFolderSchema template result.date))

/-- The answer steers nothing exactly when the value it takes is made of
digits where the code does not look, and the template does not spell a `..`
in another way. -/
theorem unsteered_iff (response : Text) (mtime : ExifResult)
    (template : String) :
    Unsteered response mtime template ↔
      ∀ line, acceptedLine response = some line →
        WellFormed (dateValue line) ∧
          (¬ "..".toList <:+: template.toList →
            TemplateConfined template.toList) := by
  unfold Unsteered readDate
  cases accepted : acceptedLine response with
  | none => exact iff_of_true nofun nofun
  | some line =>
      have accepts : Accepts line := by
        have passed := List.find?_some accepted
        exact of_decide_eq_true passed
      have long := accepts.2.1
      simp only [String.toList_ofList, Option.some_inj, forall_eq',
        forall_true_left]
      constructor
      · rintro ⟨date, time, inside⟩
        have formed := (shaped_iff long).mp ⟨date, time⟩
        refine ⟨formed, fun plain => ?_⟩
        exact (staysInside_buildFolderSchema formed long template).mp
          (inside plain)
      · rintro ⟨formed, confined⟩
        obtain ⟨date, time⟩ := (shaped_iff long).mpr formed
        refine ⟨date, time, fun plain => ?_⟩
        exact (staysInside_buildFolderSchema formed long template).mpr
          (confined plain)

/-- A `DateTimeOriginal` with three separators in their places, which climbs. -/
def climbingAnswer : Text := "DateTimeOriginal: /../:..:.. 00:00:00".toList

/-- The template has no `..` and the directory leaves `/output`. -/
theorem climbing_date_leaves :
    ¬ Unsteered climbingAnswer {} "%Y/%m" ∧
      ¬ ["output".toList] <+: resolve [] ("/output" ++ "/" ++
        buildFolderSchema "%Y/%m" (readDate climbingAnswer {}).date).toList := by
  have leaves : ¬ ["output".toList] <+: resolve [] ("/output" ++ "/" ++
      buildFolderSchema "%Y/%m" (readDate climbingAnswer {}).date).toList := by
    decide +kernel
  refine ⟨?_, leaves⟩
  intro unsteered
  obtain ⟨-, -, inside⟩ := unsteered (by decide +kernel)
  have below := inside (by decide +kernel) [] "/output" (by decide)
  have start : resolve [] "/output".toList = ["output".toList] := by
    decide +kernel
  rw [start] at below
  exact leaves below

end Exiftool

end RawImport
