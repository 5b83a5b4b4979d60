import Mathlib.Data.List.Infix
import RawImport.Plugin.Commands

/-!
# Which file is re-embedded

After an export `on_post_export` guesses from two path prefixes whether the
image is a DNG itself or a camera RAW whose DNG the API knows, and hands one
file to an embed worker.
-/

namespace RawImport

namespace Plugin

open Lua

/-- What Darktable says about an image; `film` is the path of its film. -/
structure Image where
  path : Text
  filename : Text
  film : Option Text
  deriving DecidableEq, Repr

/-- The preferences that are read here. -/
structure Preferences where
  autoReembedOnExport : Bool := false
  rawLibraryRoot : Text := []
  dngLibraryRoot : Text := []
  worker : Text := "dnglab".toList
  embedMode : Text := "adobe".toList
  deriving DecidableEq, Repr

/-- What lies outside of the plugin: the address and the token of the API,
what `curl` prints for a command, the files that can be opened for writing,
and the tools that answer. -/
structure World where
  base : Text
  token : Text
  answer : Text → Option Text
  writable : Text → Bool
  dnglab : Bool
  dngSdk : Bool
  exiftool : Bool

inductive Mode where
  | dng
  | raw
  deriving DecidableEq, Repr

inductive Worker where
  | dnglab
  | dngSdk
  | exiftool
  deriving DecidableEq, Repr

/-- `image.path .. "/" .. image.filename`. -/
def Image.file (image : Image) : Text :=
  image.path ++ '/' :: image.filename

/-- `:lower():match("%.dng$")`. -/
def isDng (filename : Text) : Bool :=
  endsWith ".dng".toList (lower filename)

/-- `:lower():match("%.jpe?g$")`. -/
def isJpeg (exportedPath : Text) : Bool :=
  endsWith ".jpg".toList (lower exportedPath) ||
    endsWith ".jpeg".toList (lower exportedPath)

/-- `film_path`. -/
def Image.filmPath (image : Image) : Text :=
  let filmPath := image.film.getD image.path
  if filmPath = [] then image.path else filmPath

/-- A root that is set and with which a path begins, whatever the case. -/
def under (root filmPath : Text) : Bool :=
  root ≠ [] && startsWith (lower root) (lower filmPath)

/-- `detect_library_mode(image)`. -/
def detectLibraryMode (preferences : Preferences) (image : Image) : Mode :=
  if under preferences.dngLibraryRoot image.filmPath then .dng
  else if under preferences.rawLibraryRoot image.filmPath then .raw
  else if isDng image.filename then .dng
  else .raw

/-- `"output_path"%s*:%s*"([^"]+)"` at the beginning of a text. -/
def matchOutputPath (text : Text) : Option Text :=
  let key := "\"output_path\"".toList
  if startsWith key text then
    match (text.drop key.length).dropWhile isSpace with
    | ':' :: rest =>
        match rest.dropWhile isSpace with
        | '"' :: rest =>
            let path := rest.takeWhile (· ≠ '"')
            if path ≠ [] ∧ rest.drop path.length ≠ [] then some path
            else none
        | _ => none
    | _ => none
  else none

/-- `out:match(...)`: the first match. -/
def outputPath : Text → Option Text
  | [] => none
  | c :: text => (matchOutputPath (c :: text)).or (outputPath text)

/-- What `resolve_dng_via_api` returns. -/
def answeredDng (world : World) (sourcePath : Text) : Option Text :=
  if world.base = [] then none
  else
    match world.answer
        (resolveDngViaApi world.base world.token sourcePath) with
    | none => none
    | some out => if out = [] then none else outputPath out

/-- `resolve_target_dng(image, mode)`, without the reason. -/
def resolveTargetDng (world : World) (image : Image) :
    Mode → Option Text
  | .dng => if world.writable image.file then some image.file else none
  | .raw =>
      match answeredDng world image.file with
      | none => none
      | some dng =>
          if dng = [] then none
          else if world.writable dng then some dng
          else none

/-- The worker that is available and preferred. -/
def chosenWorker (preferences : Preferences) (world : World) :
    Option Worker :=
  if world.dnglab then some .dnglab
  else if preferences.worker = "dng_sdk".toList ∧ world.dngSdk = true then
    some .dngSdk
  else if world.exiftool then some .exiftool
  else none

/-- The file that an embed worker gets, and in which mode. -/
structure Hand where
  worker : Worker
  dng : Text
  mode : Mode
  deriving DecidableEq, Repr

/-- `on_post_export(image, session, exported_path)` up to the embed worker. -/
def handed (preferences : Preferences) (world : World) (image : Image)
    (exportedPath : Option Text) : Option Hand :=
  if preferences.autoReembedOnExport then
    match exportedPath with
    | none => none
    | some exportedPath =>
        if exportedPath = [] then none
        else if isJpeg exportedPath then
          let mode := detectLibraryMode preferences image
          match resolveTargetDng world image mode with
          | none => none
          | some dng =>
              (chosenWorker preferences world).map fun worker =>
                { worker := worker, dng := dng, mode := mode }
        else none
  else none

def components (path : Text) : List Text :=
  (path.splitOn '/').filter fun component => component ≠ []

def Inside (root directory : Text) : Prop :=
  root ≠ [] ∧ components root <+: components directory

/-- The API was asked for the image and returned the file. -/
def FromApi (world : World) (image : Image) (hand : Hand) : Prop :=
  hand.mode = .raw ∧ answeredDng world image.file = some hand.dng

/-- The file is a DNG of its own or comes from the API. -/
def Targeted (world : World) (image : Image) (hand : Hand) : Prop :=
  hand.dng = image.file ∧ isDng image.filename = true ∨
    FromApi world image hand

/-- An export after which the file of the image itself can be handed over. -/
structure Ready (preferences : Preferences) (world : World) (image : Image)
    (exportedPath : Option Text) : Prop where
  enabled : preferences.autoReembedOnExport = true
  exported : ∃ path, exportedPath = some path ∧ isJpeg path = true
  writable : world.writable image.file = true
  available : ∃ worker, chosenWorker preferences world = some worker

section Targets

variable {preferences : Preferences} {world : World} {image : Image}
  {exportedPath : Option Text} {hand : Hand}

theorem handed_eq_some_iff :
    handed preferences world image exportedPath = some hand ↔
      preferences.autoReembedOnExport = true ∧
        (∃ path, exportedPath = some path ∧ isJpeg path = true) ∧
        chosenWorker preferences world = some hand.worker ∧
        hand.mode = detectLibraryMode preferences image ∧
        resolveTargetDng world image (detectLibraryMode preferences image) =
          some hand.dng := by
  unfold handed
  constructor
  · intro result
    obtain ⟨enabled, result⟩ := Option.ite_none_right_eq_some.mp result
    cases exportedPath with
    | none => cases result
    | some path =>
        obtain ⟨-, result⟩ := Option.ite_none_left_eq_some.mp result
        obtain ⟨exported, result⟩ := Option.ite_none_right_eq_some.mp result
        dsimp only at result
        split at result
        · cases result
        · rename_i dng resolved
          obtain ⟨worker, chosen, rfl⟩ := Option.map_eq_some_iff.mp result
          exact ⟨enabled, ⟨path, rfl, exported⟩, chosen, rfl, resolved⟩
  · intro parts
    obtain ⟨enabled, ⟨path, rfl, exported⟩, chosen, mode, resolved⟩ := parts
    have nonempty : path ≠ [] := by
      intro empty
      rw [empty] at exported
      exact absurd exported (by decide)
    simp only [enabled, if_true, if_neg nonempty, exported, resolved, chosen,
      Option.map_some]
    rw [← mode]

theorem fromApi_of_raw {dng : Text}
    (resolved : resolveTargetDng world image .raw = some dng) :
    answeredDng world image.file = some dng := by
  simp only [resolveTargetDng] at resolved
  split at resolved
  · cases resolved
  · rename_i answered found
    obtain ⟨-, resolved⟩ := Option.ite_none_left_eq_some.mp resolved
    obtain ⟨-, resolved⟩ := Option.ite_none_right_eq_some.mp resolved
    rw [found, resolved]

theorem detectLibraryMode_eq_dng_iff :
    detectLibraryMode preferences image = .dng ↔
      under preferences.dngLibraryRoot image.filmPath = true ∨
        under preferences.rawLibraryRoot image.filmPath = false ∧
          isDng image.filename = true := by
  unfold detectLibraryMode
  cases under preferences.dngLibraryRoot image.filmPath with
  | true => simp
  | false =>
      cases under preferences.rawLibraryRoot image.filmPath with
      | true => simp
      | false => cases isDng image.filename <;> simp

/-- Below the root of the DNG library an image is handed over itself. -/
theorem handed_self (ready : Ready preferences world image exportedPath)
    (begins : under preferences.dngLibraryRoot image.filmPath = true) :
    ∃ worker, handed preferences world image exportedPath =
      some ⟨worker, image.file, .dng⟩ := by
  obtain ⟨enabled, exported, writable, worker, chosen⟩ := ready
  have mode : detectLibraryMode preferences image = .dng :=
    detectLibraryMode_eq_dng_iff.mpr (.inl begins)
  refine ⟨worker, handed_eq_some_iff.mpr
    ⟨enabled, exported, chosen, mode.symm, ?_⟩⟩
  rw [mode]
  exact if_pos writable

/-- What is handed over is a DNG of its own, comes from the API, or lies below
the root of the DNG library. -/
theorem targeted_or_under
    (result : handed preferences world image exportedPath = some hand) :
    Targeted world image hand ∨
      Ready preferences world image exportedPath ∧
        under preferences.dngLibraryRoot image.filmPath = true := by
  obtain ⟨enabled, exported, chosen, mode, resolved⟩ :=
    handed_eq_some_iff.mp result
  cases detected : detectLibraryMode preferences image with
  | dng =>
      rw [detected] at resolved
      obtain ⟨writable, own⟩ := Option.ite_none_right_eq_some.mp resolved
      have same : hand.dng = image.file := (Option.some.inj own).symm
      rcases detectLibraryMode_eq_dng_iff.mp detected with begins | name
      · right
        exact ⟨⟨enabled, exported, writable, _, chosen⟩, begins⟩
      · left
        exact .inl ⟨same, name.2⟩
  | raw =>
      rw [detected] at resolved mode
      left
      exact .inr ⟨mode, fromApi_of_raw resolved⟩

theorem not_fromApi_dng {worker : Worker} {dng : Text} :
    ¬FromApi world image ⟨worker, dng, .dng⟩ := by
  intro fromApi
  cases fromApi.1

end Targets

/-- The root of a library and a sibling that begins with it. -/
def siblingRoots : Preferences where
  autoReembedOnExport := true
  rawLibraryRoot := "/photos/out_raw".toList
  dngLibraryRoot := "/photos/out".toList

/-- `dnglab` answers, and every file can be written. -/
def answering : World where
  base := "http://localhost:8080".toList
  token := []
  answer := fun _ => none
  writable := fun _ => true
  dnglab := true
  dngSdk := false
  exiftool := true

def siblingRaw : Image where
  path := "/photos/out_raw".toList
  filename := "DSC_1.NEF".toList
  film := some "/photos/out_raw".toList

end Plugin

end RawImport
