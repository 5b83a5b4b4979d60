import Mathlib.Data.List.TakeWhile
import Mathlib.Data.String.Basic
import RawImport.Lib.Numeral

/-!
# Path text

Paths are compared and spliced as text.  `joinPath` is the separator rule of
`operator/`, `filename` the text behind the last separator, and `Inside` the
containment of a path in a directory.  The lemmas say when two spliced paths
can coincide.
-/

namespace PathText

/-- The directory text with a separator behind it. -/
def slashed (directory : String) : String :=
  if directory = "" ∨ directory.toList.getLast? = some '/' then directory
  else directory ++ "/"

/-- `directory / name` for a relative `name`. -/
def joinPath (directory name : String) : String :=
  slashed directory ++ name

def filename (path : String) : String :=
  String.ofList (path.toList.reverse.takeWhile (· != '/')).reverse

/-- The text from the last dot on; a leading dot starts no extension. -/
def extension (path : String) : String :=
  let name := (filename path).toList
  let tail := (name.reverse.takeWhile (· != '.')).reverse
  if name = ['.', '.'] ∨ name.length ≤ tail.length + 1 then ""
  else String.ofList ('.' :: tail)

def Inside (directory path : String) : Prop :=
  (slashed directory).toList <+: path.toList

instance (directory path : String) : Decidable (Inside directory path) :=
  inferInstanceAs (Decidable (_ <+: _))

def Bare (name : String) : Prop := '/' ∉ name.toList

instance (name : String) : Decidable (Bare name) :=
  inferInstanceAs (Decidable (_ ∉ _))

theorem takeWhile_reverse_bare {before name : List Char}
    (bare : '/' ∉ name) :
    (before ++ '/' :: name).reverse.takeWhile (· != '/') =
      name.reverse := by
  have noSlash : ∀ character ∈ name.reverse, (character != '/') = true := by
    intro character member
    have inName : character ∈ name := List.mem_reverse.mp member
    simp only [bne_iff_ne, ne_eq]
    rintro rfl
    exact bare inName
  rw [List.reverse_append, List.reverse_cons, List.append_assoc,
    List.takeWhile_append_of_pos noSlash]
  simp

theorem filename_separated (directory : String) {name : String}
    (bare : Bare name) : filename (directory ++ "/" ++ name) = name := by
  have text : (directory ++ "/" ++ name).toList =
      directory.toList ++ '/' :: name.toList := by
    simp [String.toList_append]
  unfold filename
  rw [text, takeWhile_reverse_bare bare]
  simp

theorem filename_of_bare {name : String} (bare : Bare name) :
    filename name = name := by
  have noSlash :
      ∀ character ∈ name.toList.reverse, (character != '/') = true := by
    intro character member
    simp only [bne_iff_ne, ne_eq]
    rintro rfl
    exact bare (List.mem_reverse.mp member)
  unfold filename
  rw [List.takeWhile_eq_self_iff.mpr noSlash]
  simp

theorem slashed_cases (directory : String) :
    slashed directory = "" ∨
      ∃ before, slashed directory = before ++ "/" := by
  unfold slashed
  split
  · rename_i closed
    rcases closed with empty | separator
    · exact .inl empty
    · right
      obtain ⟨before, split⟩ := List.getLast?_eq_some_iff.mp separator
      refine ⟨String.ofList before, String.toList_inj.mp ?_⟩
      simp [String.toList_append, split]
  · exact .inr ⟨directory, rfl⟩

theorem filename_joinPath (directory : String) {name : String}
    (bare : Bare name) : filename (joinPath directory name) = name := by
  unfold joinPath
  rcases slashed_cases directory with empty | ⟨before, separated⟩
  · rw [empty, String.empty_append]
    exact filename_of_bare bare
  · rw [separated]
    exact filename_separated before bare

theorem inside_separated (directory rest : String) :
    Inside directory (directory ++ "/" ++ rest) := by
  unfold Inside slashed
  split
  · exact ⟨'/' :: rest.toList, by simp [String.toList_append]⟩
  · exact ⟨rest.toList, by simp [String.toList_append]⟩

theorem bare_append {left right : String}
    (leftBare : Bare left) (rightBare : Bare right) :
    Bare (left ++ right) := by
  unfold Bare at *
  rw [String.toList_append, List.mem_append]
  exact fun member => member.elim leftBare rightBare

theorem bare_filename (path : String) : Bare (filename path) := by
  unfold Bare filename
  rw [String.toList_ofList, List.mem_reverse]
  intro member
  simpa using List.mem_takeWhile_imp member

theorem extension_append {base suffix : String} (bareBase : Bare base)
    (bareSuffix : Bare suffix) (named : base ≠ "") (suffixed : suffix ≠ "")
    (undotted : '.' ∉ suffix.toList) :
    extension (base ++ "." ++ suffix) = "." ++ suffix := by
  have bare : Bare (base ++ "." ++ suffix) :=
    bare_append (bare_append bareBase (by decide)) bareSuffix
  have text : (base ++ "." ++ suffix).toList =
      base.toList ++ '.' :: suffix.toList := by
    simp [String.toList_append]
  have noDot :
      ∀ character ∈ suffix.toList.reverse, (character != '.') = true := by
    intro character member
    simp only [bne_iff_ne, ne_eq]
    rintro rfl
    exact undotted (List.mem_reverse.mp member)
  have tail : ((base.toList ++ '.' :: suffix.toList).reverse.takeWhile
      (· != '.')).reverse = suffix.toList := by
    rw [List.reverse_append, List.reverse_cons, List.append_assoc,
      List.takeWhile_append_of_pos noDot]
    simp
  have baseLength : base.toList.length ≠ 0 := by
    simpa using named
  have suffixLength : suffix.toList.length ≠ 0 := by
    simpa using suffixed
  have split : ¬(base.toList ++ '.' :: suffix.toList = ['.', '.'] ∨
      (base.toList ++ '.' :: suffix.toList).length ≤
        suffix.toList.length + 1) := by
    rintro (dots | short)
    · have inDots : ∀ character ∈ suffix.toList, character = '.' := by
        intro character member
        have inside : character ∈ base.toList ++ '.' :: suffix.toList := by
          simp [member]
        rw [dots] at inside
        simpa using inside
      cases letters : suffix.toList with
      | nil => simp [letters] at suffixLength
      | cons first rest =>
          have dot := inDots first (by simp [letters])
          exact undotted (by simp [letters, dot])
    · rw [List.length_append, List.length_cons] at short
      omega
  unfold extension
  rw [filename_of_bare bare, text]
  simp only [tail, if_neg split]
  apply String.toList_inj.mp
  simp [String.toList_append]

theorem bare_toString (number : Int) : Bare (toString number) := by
  intro separator
  rcases Numeral.mem_toString separator with digit | sign
  · simp at digit
  · simp at sign

theorem bare_numbered {stem suffix : String} (bareStem : Bare stem)
    (bareSuffix : Bare suffix) (number : Int) :
    Bare (stem ++ toString number ++ suffix) :=
  bare_append (bare_append bareStem (bare_toString number)) bareSuffix

theorem number_of_numbered {stem suffix : String} {number number' : Int}
    (equal : stem ++ toString number ++ suffix =
      stem ++ toString number' ++ suffix) : number = number' := by
  apply Numeral.toString_injective
  apply String.toList_inj.mp
  have lists := congrArg String.toList equal
  simp only [String.toList_append, List.append_assoc] at lists
  exact List.append_cancel_right (List.append_cancel_left lists)

/-- Equal paths to numbered files carry the same number, whatever their
directories. -/
theorem number_of_separated {directory directory' : String}
    {number number' : Int}
    (equal : directory ++ "/" ++ ("IMG_" ++ toString number ++ ".dng") =
      directory' ++ "/" ++ ("IMG_" ++ toString number' ++ ".dng")) :
    number = number' := by
  have names := congrArg filename equal
  rw [filename_separated _ (bare_numbered (by decide) (by decide) _),
    filename_separated _ (bare_numbered (by decide) (by decide) _)] at names
  exact number_of_numbered names

end PathText
