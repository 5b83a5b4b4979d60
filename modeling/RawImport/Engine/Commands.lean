import RawImport.Config
import RawImport.Lib.Cxx
import RawImport.Lib.Numeral
import RawImport.Lib.ShellCommand

/-!
# Commands of the conversion engine

The command lines that `converter.cpp` puts together, with every path between
single quotes, and hands to the shell.
-/

namespace RawImport

namespace Engine

open Cxx (cStr cStr_eq_self_iff)
open ShellWords

/-- A character in `shell_quote`. -/
def quoteChar (c : Char) : Text :=
  if c = '\'' then "'\\''".toList else [c]

/-- `shell_quote(s)`. -/
def shellQuote (s : Text) : Text :=
  "'".toList ++ s.flatMap quoteChar ++ "'".toList

/-- The compression that `Convert` passes on. -/
def comp (s : ConversionSettings) : Text :=
  if s.compression ≠ "lossless" ∧ s.compression ≠ "uncompressed" then
    "lossless".toList
  else s.compression.toList

/-- The command of `DnglabEngine::Convert`. -/
def convertCommand (bin src dst : Text) (s : ConversionSettings) : Text :=
  bin ++ " convert ".toList ++ shellQuote src ++ " ".toList ++
    shellQuote dst ++ " -c ".toList ++ comp s ++
    " --keep-mtime true -f".toList

/-- The command of `DnglabEmbedder::SetOrientation`. -/
def setOrientationCommand (exif dngPath : Text) (orientation : Int) : Text :=
  exif ++ " -Orientation=".toList ++ (toString orientation).toList ++
    " -n -overwrite_original_in_place ".toList ++ shellQuote dngPath

section Quoting

variable {text word : Text} {finished : List Text}

theorem reads_quoteChar (c : Char) :
    Reads ⟨.single, some word, finished⟩ (quoteChar c)
      ⟨.single, some (word ++ [c]), finished⟩ := by
  unfold quoteChar
  split
  · rename_i apostrophe
    subst apostrophe
    refine ⟨rfl, ?_⟩
    simp [feed, step, Reading.push, isBlank]
  · rename_i other
    exact reads_single other

theorem reads_quoted :
    Reads ⟨.single, some word, finished⟩ (text.flatMap quoteChar)
      ⟨.single, some (word ++ text), finished⟩ := by
  induction text generalizing word with
  | nil =>
      rw [List.append_nil]
      exact .nil
  | cons c text ih =>
      have rest : Reads ⟨.single, some (word ++ [c]), finished⟩
          (text.flatMap quoteChar)
          ⟨.single, some (word ++ [c] ++ text), finished⟩ := ih
      rw [List.append_assoc] at rest
      exact (reads_quoteChar c).append rest

theorem denotes_shellQuote (text : Text) :
    Denotes (shellQuote text) text := by
  intro finished
  have opening : Reads ⟨.plain, none, finished⟩ "'".toList
      ⟨.single, some [], finished⟩ := ⟨rfl, rfl⟩
  have closing : Reads ⟨.single, some text, finished⟩ "'".toList
      ⟨.plain, some text, finished⟩ := ⟨rfl, rfl⟩
  exact (opening.append reads_quoted).append closing

theorem clean_shellQuote (clean : '\x00' ∉ text) :
    '\x00' ∉ shellQuote text := by
  intro member
  simp only [shellQuote, List.mem_append, List.mem_flatMap] at member
  rcases member with (opening | ⟨c, inText, inQuoted⟩) | closing
  · exact absurd opening (by decide)
  · unfold quoteChar at inQuoted
    split at inQuoted
    · exact absurd inQuoted (by decide)
    · rw [← List.mem_singleton.mp inQuoted] at inText
      exact clean inText
  · exact absurd closing (by decide)

theorem clean_commandLine {name : Text} {arguments : List Text}
    (clean : '\x00' ∉ name)
    (cleans : ∀ argument ∈ arguments, '\x00' ∉ argument) :
    '\x00' ∉ commandLine name arguments := by
  intro member
  simp only [commandLine, List.mem_append, List.mem_flatMap] at member
  rcases member with inName | ⟨argument, listed, inArgument⟩
  · exact clean inName
  · cases inArgument with
    | tail _ inArgument => exact cleans argument listed inArgument

theorem bare_of_isDigit {c : Char} (digit : c.isDigit = true) : Bare c := by
  have other : ∀ d : Char, d.isDigit = false → c ≠ d := by
    intro d noDigit same
    rw [same, noDigit] at digit
    cases digit
  simp [Bare, Plain, isBlank, isActive, other]

theorem bareword_numeral {front : Text} (bareword : Bareword front)
    (number : Int) : Bareword (front ++ (toString number).toList) := by
  obtain ⟨nonempty, bare, leading⟩ := bareword
  refine ⟨?_, ?_, ?_⟩
  · intro empty
    exact nonempty (List.append_eq_nil_iff.mp empty).1
  · intro c member
    rcases List.mem_append.mp member with inFront | inNumber
    · exact bare c inFront
    · rcases Numeral.mem_toString inNumber with digit | sign
      · exact bare_of_isDigit digit
      · rw [sign]
        decide
  · cases front with
    | nil => exact (nonempty rfl).elim
    | cons c front => exact leading

end Quoting

theorem convertCommand_eq (bin src dst : Text) (s : ConversionSettings) :
    convertCommand bin src dst s = commandLine bin
      ["convert".toList, shellQuote src, shellQuote dst, "-c".toList, comp s,
        "--keep-mtime".toList, "true".toList, "-f".toList] := by
  simp [convertCommand, commandLine]

theorem setOrientationCommand_eq (exif dngPath : Text) (orientation : Int) :
    setOrientationCommand exif dngPath orientation = commandLine exif
      ["-Orientation=".toList ++ (toString orientation).toList, "-n".toList,
        "-overwrite_original_in_place".toList, shellQuote dngPath] := by
  simp [setOrientationCommand, commandLine]

/-- What holds of the two known settings holds of the one passed on. -/
theorem comp_of_known (good : Text → Prop) (lossless : good "lossless".toList)
    (uncompressed : good "uncompressed".toList) (s : ConversionSettings) :
    good (comp s) := by
  unfold comp
  split
  · exact lossless
  · rename_i known
    by_cases first : s.compression = "lossless"
    · rw [first]
      exact lossless
    · by_cases second : s.compression = "uncompressed"
      · rw [second]
        exact uncompressed
      · exact absurd ⟨first, second⟩ known

theorem denotes_convert (src dst : Text) (s : ConversionSettings) :
    List.Forall₂ Denotes
      ["convert".toList, shellQuote src, shellQuote dst, "-c".toList, comp s,
        "--keep-mtime".toList, "true".toList, "-f".toList]
      ["convert".toList, src, dst, "-c".toList, comp s,
        "--keep-mtime".toList, "true".toList, "-f".toList] := by
  have read : ∀ text : Text, Bareword text → Denotes text text :=
    fun _ bareword => bareword.denotes
  have compression : Bareword (comp s) :=
    comp_of_known Bareword (by decide) (by decide) s
  apply List.Forall₂.cons (read _ (by decide))
  apply List.Forall₂.cons (denotes_shellQuote src)
  apply List.Forall₂.cons (denotes_shellQuote dst)
  apply List.Forall₂.cons (read _ (by decide))
  apply List.Forall₂.cons compression.denotes
  apply List.Forall₂.cons (read _ (by decide))
  apply List.Forall₂.cons (read _ (by decide))
  exact .cons (read _ (by decide)) .nil

theorem clean_convertCommand {bin src dst : Text} (binClean : '\x00' ∉ bin)
    (srcClean : '\x00' ∉ src) (dstClean : '\x00' ∉ dst)
    (s : ConversionSettings) : '\x00' ∉ convertCommand bin src dst s := by
  have compression : '\x00' ∉ comp s :=
    comp_of_known (fun text => '\x00' ∉ text) (by decide) (by decide) s
  have quotedSrc := clean_shellQuote srcClean
  have quotedDst := clean_shellQuote dstClean
  rw [convertCommand_eq]
  apply clean_commandLine binClean
  simp [quotedSrc, quotedDst, compression]

/-- The shell runs the conversion as it is meant, for every path. -/
theorem convertCommand_words {bin src dst : Text} (named : CommandName bin)
    (binClean : '\x00' ∉ bin) (srcClean : '\x00' ∉ src)
    (dstClean : '\x00' ∉ dst) (s : ConversionSettings) :
    ∃ compression ∈ ["lossless".toList, "uncompressed".toList],
      simpleCommand (cStr (convertCommand bin src dst s)) =
        some [bin, "convert".toList, src, dst, "-c".toList, compression,
          "--keep-mtime".toList, "true".toList, "-f".toList] := by
  have known : comp s ∈ ["lossless".toList, "uncompressed".toList] :=
    comp_of_known
      (fun text => text ∈ ["lossless".toList, "uncompressed".toList])
      List.mem_cons_self (List.mem_cons_of_mem _ List.mem_cons_self) s
  refine ⟨comp s, known, ?_⟩
  rw [cStr_eq_self_iff.mpr (clean_convertCommand binClean srcClean dstClean s),
    convertCommand_eq]
  exact simpleCommand_commandLine named (denotes_convert src dst s)

theorem convertCommand_words_quote :
    ∃ compression ∈ ["lossless".toList, "uncompressed".toList],
      simpleCommand (cStr (convertCommand "dnglab".toList
        "/watch/it's $(x).nef".toList "/output/a b.dng".toList {})) =
        some ["dnglab".toList, "convert".toList,
          "/watch/it's $(x).nef".toList, "/output/a b.dng".toList,
          "-c".toList, compression, "--keep-mtime".toList, "true".toList,
          "-f".toList] :=
  convertCommand_words ⟨by decide, by decide, by decide⟩ (by decide)
    (by decide) (by decide) {}

end Engine

end RawImport
