import RawImport.Filesystem
import RawImport.Lib.Run
import RawImport.Plugin.Targets

/-!
# What a failed re-embed leaves

The plugin calls one command of `dnglab` or of the DNG SDK, or two commands of
ExifTool, and then verifies the DNG.  Only a backup that lies beside the DNG
can bring its bytes back.
-/

namespace RawImport

namespace Plugin

open Lua Transition

def file (path : Text) : Path :=
  String.ofList path

/-- `dng .. "_original"`. -/
def original (dng : Text) : Text :=
  dng ++ "_original".toList

/-- How the calls for one image went.  A command that fails changes nothing; a
tool that succeeds leaves a DNG and maybe a backup. -/
structure Calls where
  time : Int := 0
  exported : Bool := true
  rendered : Option File := none
  deleted : Option File := none
  embedded : Option (File × Option File) := none
  tmpRemoved : Bool := true
  verified : Bool := true
  readable : Bool := true
  moved : Bool := true
  originalRemoved : Bool := true
  deriving DecidableEq, Repr

def leave (fs : Fs) (path : Text) (left : Option File) : Fs :=
  match left with
  | none => fs
  | some content => fs.write (file path) content

/-- One command that writes the DNG and its backup. -/
def runTool (fs : Fs) (dng : Text) (calls : Calls) : Fs × Bool :=
  match calls.embedded with
  | none => (fs, false)
  | some (content, backup) =>
      (leave (fs.write (file dng) content) (original dng) backup, true)

/-- `embed_with_dnglab(dng, tmp)`. -/
def embedWithDnglab (fs : Fs) (dng : Text) (calls : Calls) : Fs × Bool :=
  runTool fs dng calls

/-- `embed_with_sdk(dng, tmp, options)`. -/
def embedWithSdk (fs : Fs) (dng : Text) (calls : Calls) : Fs × Bool :=
  runTool fs dng calls

/-- `embed_with_exiftool(tool, dng, tmp, is_adobe)`: the previews are deleted,
then the new one is written; with `-overwrite_original_in_place` there is no
backup. -/
def embedWithExiftool (fs : Fs) (dng : Text) (calls : Calls) : Fs × Bool :=
  let fs := leave fs dng calls.deleted
  match calls.embedded with
  | none => (fs, false)
  | some (content, _) => (fs.write (file dng) content, true)

def embedWith (worker : Worker) (fs : Fs) (dng : Text) (calls : Calls) :
    Fs × Bool :=
  match worker with
  | .dnglab => embedWithDnglab fs dng calls
  | .dngSdk => embedWithSdk fs dng calls
  | .exiftool => embedWithExiftool fs dng calls

/-- `move /Y backup dng`. -/
def moveBack (fs : Fs) (dng : Text) : Fs :=
  match fs (file (original dng)) with
  | none => fs
  | some backup =>
      (fs.remove (file (original dng))).write (file dng) backup

/-- Behind an embed that succeeded, with whether the DNG is valid. -/
def verify (fs : Fs) (dng : Text) (calls : Calls) : Fs × Bool :=
  if calls.verified then
    (if calls.originalRemoved then fs.remove (file (original dng)) else fs,
      true)
  else if (fs (file (original dng))).isSome ∧ calls.readable = true then
    (if calls.moved then moveBack fs dng else fs, false)
  else (fs, false)

/-- What both callers do with a DNG, with whether it counts as re-embedded;
`between` is what happens behind the embed worker. -/
def attempt (between : Fs → Fs) (worker : Worker) (fs : Fs) (dng : Text)
    (calls : Calls) : Fs × Bool :=
  match embedWith worker fs dng calls with
  | (fs, true) => verify (between fs) dng calls
  | (fs, false) => (between fs, false)

/-- `on_post_export(image, session, exported_path)`: what is handed over, the
files behind it, and whether the DNG counts as re-embedded. -/
def onPostExport (preferences : Preferences) (world : World) (fs : Fs)
    (image : Image) (exportedPath : Option Text) (calls : Calls) :
    Option (Hand × Fs × Bool) :=
  (handed preferences world image exportedPath).map fun hand =>
    (hand, attempt id hand.worker fs hand.dng calls)

/-- The loop of `do_embed`: `i`, `ok_c` and `fail_c`. -/
structure Loop where
  fs : Fs
  i : Nat := 0
  okC : Nat := 0
  failC : Nat := 0

/-- `tmp`. -/
def tmpPath (image : Image) (time : Int) (i : Nat) : Text :=
  image.path ++ "/.embed_tmp_".toList ++ (toString time).toList ++
    "_".toList ++ (toString i).toList ++ ".jpg".toList

def removeTmp (fs : Fs) (tmp : Text) (calls : Calls) : Fs :=
  if calls.tmpRemoved then fs.remove (file tmp) else fs

/-- One image in the loop of `do_embed`. -/
def embedImage (worker : Worker) (state : Loop) (entry : Image × Calls) :
    Option Loop :=
  let (image, calls) := entry
  let i := state.i + 1
  let dng := image.file
  let tmp := tmpPath image calls.time i
  let exported := leave state.fs tmp calls.rendered
  if calls.exported then
    match attempt (fun fs => removeTmp fs tmp calls) worker exported dng
        calls with
    | (fs, true) =>
        some { state with fs := fs, i := i, okC := state.okC + 1 }
    | (fs, false) =>
        some { state with fs := fs, i := i, failC := state.failC + 1 }
  else
    some { state with
      fs := removeTmp exported tmp calls
      i := i
      failC := state.failC + 1 }

/-- `do_embed` up to its loop: the worker and the images of the loop. -/
def doEmbed (preferences : Preferences) (world : World)
    (selection : List (Image × Calls)) :
    Option (Worker × List (Image × Calls)) :=
  if selection = [] then none
  else
    match chosenWorker preferences world with
    | none => none
    | some worker =>
        let dngs := selection.filter fun entry => isDng entry.1.filename
        if dngs = [] then none
        else if dngs.all fun entry => world.writable entry.1.file then
          some (worker, dngs)
        else none

def Calls.backup (calls : Calls) : Worker → Option File
  | .exiftool => none
  | _ => calls.embedded.bind Prod.snd

/-- What a failure leaves is what was there: ExifTool has deleted nothing
before a writing that fails, and a DNG that is not valid was not changed or
has a backup of its bytes that is moved back. -/
def Recoverable (worker : Worker) (fs : Fs) (dng : Text) (calls : Calls) :
    Prop :=
  match calls.embedded with
  | none => worker = .exiftool → ∀ content, calls.deleted = some content →
      some content.bytes = fs.bytesAt (file dng)
  | some (content, _) => calls.verified = false →
      match (calls.backup worker).or (fs (file (original dng))) with
      | some backup =>
          if calls.readable = true ∧ calls.moved = true then
            some backup.bytes = fs.bytesAt (file dng)
          else some content.bytes = fs.bytesAt (file dng)
      | none => some content.bytes = fs.bytesAt (file dng)

section Paths

variable {first second : Text}

theorem file_injective (same : file first = file second) :
    first = second := by
  have letters := congrArg String.toList same
  simpa [file] using letters

theorem original_ne (dng : Text) : file (original dng) ≠ file dng := by
  intro same
  have lengths := congrArg List.length (file_injective same)
  rw [original, List.length_append] at lengths
  have long : "_original".toList.length = 9 := rfl
  omega

theorem tmpPath_ne_file {image : Image} (time : Int) (i : Nat)
    (named : isDng image.filename = true) :
    file (tmpPath image time i) ≠ file image.file := by
  intro same
  have letters := file_injective same
  have split : tmpPath image time i = image.path ++ '/' ::
      ((".embed_tmp_".toList ++ (toString time).toList ++ "_".toList ++
        (toString i).toList) ++ ".jpg".toList) := by
    simp [tmpPath]
  rw [split, Image.file, List.append_right_inj, List.cons_inj_right]
    at letters
  have short : (lower ".jpg".toList).length = ".dng".toList.length := rfl
  rw [← letters, isDng, lower_append, endsWith_append short] at named
  exact absurd named (by decide)

theorem tmpPath_ne_original (image : Image) (time : Int) (i : Nat)
    (dng : Text) :
    file (tmpPath image time i) ≠ file (original dng) := by
  intro same
  have letters := congrArg (endsWith "l".toList) (file_injective same)
  have jpeg : ".jpg".toList = ".jp".toList ++ "g".toList := rfl
  have backup : "_original".toList = "_origina".toList ++ "l".toList := rfl
  have short : "g".toList.length = "l".toList.length := rfl
  rw [tmpPath, jpeg, ← List.append_assoc, endsWith_append short, original,
    backup, ← List.append_assoc, endsWith_append rfl] at letters
  exact absurd letters (by decide)

end Paths

/-- The two file systems agree about a DNG and its backup. -/
structure Agree (dng : Text) (before after : Fs) : Prop where
  content : after (file dng) = before (file dng)
  backup : after (file (original dng)) = before (file (original dng))

section Recovery

variable {worker : Worker} {fs before : Fs} {dng : Text} {calls : Calls}
  {between : Fs → Fs}

theorem Agree.refl (dng : Text) (fs : Fs) : Agree dng fs fs :=
  ⟨rfl, rfl⟩

theorem Agree.bytesAt {after : Fs} (agree : Agree dng before after) :
    after.bytesAt (file dng) = before.bytesAt (file dng) := by
  rw [Fs.bytesAt, agree.content, Fs.bytesAt]

theorem Agree.trans {middle after : Fs} (first : Agree dng before middle)
    (second : Agree dng middle after) : Agree dng before after :=
  ⟨second.content.trans first.content, second.backup.trans first.backup⟩

theorem embedWith_failed (failed : calls.embedded = none) :
    embedWith worker fs dng calls =
      (if worker = .exiftool then leave fs dng calls.deleted else fs,
        false) := by
  cases worker with
  | dnglab => simp [embedWith, embedWithDnglab, runTool, failed]
  | dngSdk => simp [embedWith, embedWithSdk, runTool, failed]
  | exiftool => simp [embedWith, embedWithExiftool, failed]

theorem leave_original (left : Option File) :
    leave fs (original dng) left (file (original dng)) =
      left.or (fs (file (original dng))) := by
  cases left with
  | none => rfl
  | some content => exact Fs.write_same _ _ _

theorem leave_other {path other : Text} (left : Option File)
    (different : file other ≠ file path) :
    leave fs path left (file other) = fs (file other) := by
  cases left with
  | none => rfl
  | some content => exact Fs.write_other _ _ different

theorem embedWith_done (worker : Worker) (fs : Fs) (dng : Text)
    {content : File} {backup : Option File}
    (done : calls.embedded = some (content, backup)) :
    ∃ after, embedWith worker fs dng calls = (after, true) ∧
      after (file dng) = some content ∧
      after (file (original dng)) =
        (calls.backup worker).or (fs (file (original dng))) := by
  have apart := original_ne dng
  have tool : ∀ after, after = (leave (fs.write (file dng) content)
        (original dng) backup) →
      after (file dng) = some content ∧ after (file (original dng)) =
        (calls.embedded.bind Prod.snd).or (fs (file (original dng))) := by
    intro after result
    constructor
    · rw [result, leave_other backup (Ne.symm apart), Fs.write_same]
    · rw [result, leave_original, done, Fs.write_other _ _ apart]
      rfl
  cases worker with
  | dnglab =>
      exact ⟨_, by simp [embedWith, embedWithDnglab, runTool, done],
        tool _ rfl⟩
  | dngSdk =>
      exact ⟨_, by simp [embedWith, embedWithSdk, runTool, done],
        tool _ rfl⟩
  | exiftool =>
      refine ⟨(leave fs dng calls.deleted).write (file dng) content,
        by simp only [embedWith, embedWithExiftool, done],
        Fs.write_same _ _ _, ?_⟩
      rw [Fs.write_other _ _ apart, leave_other calls.deleted apart]
      rfl

theorem verify_valid (valid : calls.verified = true) :
    (verify fs dng calls).2 = true := by
  rw [verify, if_pos valid]

theorem verify_invalid (fs : Fs) (dng : Text)
    (invalid : calls.verified = false) :
    (verify fs dng calls).2 = false ∧
      (verify fs dng calls).1.bytesAt (file dng) =
        match fs (file (original dng)) with
        | some backup =>
            if calls.readable = true ∧ calls.moved = true then
              some backup.bytes
            else fs.bytesAt (file dng)
        | none => fs.bytesAt (file dng) := by
  cases present : fs (file (original dng)) with
  | none => simp [verify, invalid, present]
  | some backup =>
      cases readable : calls.readable with
      | false => simp [verify, invalid, present, readable]
      | true =>
          cases moved : calls.moved with
          | false => simp [verify, invalid, present, readable, moved]
          | true =>
              simp [verify, invalid, present, readable, moved, moveBack,
                Fs.bytesAt]

/-- A failure leaves the bytes that were there, exactly when it is
recoverable. -/
theorem attempt_failed_iff (worker : Worker) (calls : Calls)
    (agree : Agree dng before fs)
    (harmless : ∀ fs, Agree dng fs (between fs)) :
    ((attempt between worker fs dng calls).2 = false →
        (attempt between worker fs dng calls).1.bytesAt (file dng) =
          before.bytesAt (file dng)) ↔
      Recoverable worker before dng calls := by
  have bytes := agree.bytesAt
  cases embedded : calls.embedded with
  | none =>
      have result : attempt between worker fs dng calls =
          (between (if worker = .exiftool then leave fs dng calls.deleted
            else fs), false) := by
        rw [attempt, embedWith_failed embedded]
      rw [result, (harmless _).bytesAt]
      simp only [Recoverable, embedded, forall_const]
      by_cases exiftool : worker = .exiftool
      · rw [if_pos exiftool]
        cases calls.deleted with
        | none => simp [leave, bytes]
        | some content => simp [leave, Fs.bytesAt, exiftool]
      · rw [if_neg exiftool]
        simp [bytes, exiftool]
  | some left =>
      obtain ⟨content, backup⟩ := left
      obtain ⟨after, done, written, kept⟩ :=
        embedWith_done worker fs dng embedded
      have result : attempt between worker fs dng calls =
          verify (between after) dng calls := by
        rw [attempt, done]
      have bytesAfter :
          (between after).bytesAt (file dng) = some content.bytes := by
        rw [(harmless after).bytesAt, Fs.bytesAt, written, Option.map_some]
      rw [result]
      simp only [Recoverable, embedded]
      cases verified : calls.verified with
      | true => simp [verify_valid verified]
      | false =>
          obtain ⟨failed, recovered⟩ :=
            verify_invalid (between after) dng verified
          rw [failed, recovered, (harmless after).backup, kept,
            agree.backup, bytesAfter]
          simp only [forall_const]
          cases (calls.backup worker).or (before (file (original dng))) with
          | none => rfl
          | some copy =>
              dsimp only
              split
              · rfl
              · rfl

theorem agree_removeTmp (calls : Calls) {tmp : Text}
    (other : file tmp ≠ file dng)
    (other' : file tmp ≠ file (original dng)) (fs : Fs) :
    Agree dng fs (removeTmp fs tmp calls) := by
  unfold removeTmp
  split
  · exact ⟨Fs.remove_other fs (Ne.symm other),
      Fs.remove_other fs (Ne.symm other')⟩
  · exact .refl dng fs

theorem agree_leave {tmp : Text} (left : Option File)
    (other : file tmp ≠ file dng)
    (other' : file tmp ≠ file (original dng)) (fs : Fs) :
    Agree dng fs (leave fs tmp left) :=
  ⟨leave_other left (Ne.symm other), leave_other left (Ne.symm other')⟩

end Recovery

/-- An image that the step counts as failed has the bytes it had. -/
def Unharmed (worker : Worker) (state : Loop) (entry : Image × Calls) :
    Prop :=
  ∀ next, embedImage worker state entry = some next →
    state.failC < next.failC →
      next.fs.bytesAt (file entry.1.file) =
        state.fs.bytesAt (file entry.1.file)

/-- The export of the image failed, or what fails behind it is recoverable. -/
def RecoverableImage (worker : Worker) (state : Loop)
    (entry : Image × Calls) : Prop :=
  entry.2.exported = true →
    Recoverable worker state.fs entry.1.file entry.2

theorem unharmed_iff {worker : Worker} {state : Loop}
    {entry : Image × Calls} (named : isDng entry.1.filename = true) :
    Unharmed worker state entry ↔ RecoverableImage worker state entry := by
  obtain ⟨image, calls⟩ := entry
  have other := tmpPath_ne_file calls.time (state.i + 1) named
  have other' :=
    tmpPath_ne_original image calls.time (state.i + 1) image.file
  have rendered := agree_leave calls.rendered other other' state.fs
  have harmless := agree_removeTmp calls other other'
  have removed := (rendered.trans (harmless _)).bytesAt
  have exactly := attempt_failed_iff worker calls rendered harmless
  simp only [Unharmed, RecoverableImage, embedImage]
  dsimp only at exactly removed
  generalize attempt _ worker _ image.file calls = result at exactly ⊢
  obtain ⟨after, valid⟩ := result
  cases exported : calls.exported with
  | false =>
      simp only [Bool.false_eq_true, if_false]
      refine iff_of_true ?_ ?_
      · intro next result _
        cases result
        exact removed
      · intro contradiction
        exact contradiction.elim
  | true =>
      simp only [if_true, forall_const]
      rw [← exactly]
      cases valid with
      | true =>
          refine iff_of_true ?_ ?_
          · intro next result more
            cases result
            exact absurd more (Nat.lt_irrefl _)
          · intro failed
            cases failed
      | false =>
          constructor
          · intro unharmed _
            exact unharmed _ rfl (Nat.lt_succ_self _)
          · intro unharmed next result _
            cases result
            exact unharmed rfl

/-- Every image of the loop is left as it was when it is counted as failed,
exactly when each failure is recoverable. -/
theorem along_unharmed_iff {worker : Worker} {state : Loop}
    {dngs : List (Image × Calls)}
    (named : ∀ entry ∈ dngs, isDng entry.1.filename = true) :
    Along (embedImage worker) (Unharmed worker) state dngs ↔
      Along (embedImage worker) (RecoverableImage worker) state dngs := by
  induction dngs generalizing state with
  | nil => exact Iff.rfl
  | cons entry dngs induction =>
      have here : Unharmed worker state entry ↔
          RecoverableImage worker state entry :=
        unharmed_iff (named entry List.mem_cons_self)
      have later : ∀ next,
          Along (embedImage worker) (Unharmed worker) next dngs ↔
            Along (embedImage worker) (RecoverableImage worker) next dngs :=
        fun next => induction fun other member =>
          named other (List.mem_cons_of_mem entry member)
      simp only [Along, here, later]

/-- A run of `do_embed`, image by image. -/
def DoesEmbed (preferences : Preferences) (world : World) (fs : Fs)
    (selection : List (Image × Calls))
    (good : Worker → Loop → Image × Calls → Prop) : Prop :=
  ∀ worker dngs, doEmbed preferences world selection = some (worker, dngs) →
    Along (embedImage worker) (good worker) { fs := fs } dngs

theorem doEmbed_named {preferences : Preferences} {world : World}
    {selection dngs : List (Image × Calls)} {worker : Worker}
    (result : doEmbed preferences world selection = some (worker, dngs)) :
    ∀ entry ∈ dngs, isDng entry.1.filename = true := by
  obtain ⟨-, result⟩ := Option.ite_none_left_eq_some.mp result
  split at result
  · cases result
  · obtain ⟨-, result⟩ := Option.ite_none_left_eq_some.mp result
    obtain ⟨-, result⟩ := Option.ite_none_right_eq_some.mp result
    cases result
    intro entry member
    exact (List.mem_filter.mp member).2

theorem onPostExport_eq_some_iff {preferences : Preferences}
    {world : World} {fs after : Fs} {image : Image}
    {exportedPath : Option Text} {calls : Calls} {hand : Hand}
    {reembedded : Bool} :
    onPostExport preferences world fs image exportedPath calls =
        some (hand, after, reembedded) ↔
      handed preferences world image exportedPath = some hand ∧
        attempt id hand.worker fs hand.dng calls = (after, reembedded) := by
  unfold onPostExport
  rw [Option.map_eq_some_iff]
  constructor
  · intro result
    obtain ⟨given, found, equal⟩ := result
    obtain ⟨same, attempted⟩ := Prod.mk.inj equal
    subst same
    exact ⟨found, attempted⟩
  · intro result
    obtain ⟨found, attempted⟩ := result
    exact ⟨hand, found, by rw [attempted]⟩

/-- What `do_embed` and `on_post_export` count as failed has the bytes it had,
exactly when ExifTool deletes nothing before a writing that fails, and a DNG
that is not valid was not changed or has a backup that is moved back. -/
theorem failed_unharmed_iff (preferences : Preferences) (world : World)
    (fs : Fs) :
    (∀ selection, DoesEmbed preferences world fs selection Unharmed ↔
      DoesEmbed preferences world fs selection RecoverableImage) ∧
    (∀ image exportedPath calls,
      (∀ hand after,
        onPostExport preferences world fs image exportedPath calls =
            some (hand, after, false) →
          after.bytesAt (file hand.dng) = fs.bytesAt (file hand.dng)) ↔
      ∀ hand, handed preferences world image exportedPath = some hand →
        Recoverable hand.worker fs hand.dng calls) := by
  constructor
  · intro selection
    constructor
    · intro unharmed worker dngs result
      exact (along_unharmed_iff (doEmbed_named result)).mp
        (unharmed worker dngs result)
    · intro recoverable worker dngs result
      exact (along_unharmed_iff (doEmbed_named result)).mpr
        (recoverable worker dngs result)
  · intro image exportedPath calls
    have exactly : ∀ hand : Hand,
        ((attempt id hand.worker fs hand.dng calls).2 = false →
          (attempt id hand.worker fs hand.dng calls).1.bytesAt
            (file hand.dng) = fs.bytesAt (file hand.dng)) ↔
          Recoverable hand.worker fs hand.dng calls := by
      intro hand
      exact attempt_failed_iff hand.worker calls (.refl hand.dng fs)
        (.refl hand.dng)
    constructor
    · intro unharmed hand given
      apply (exactly hand).mp
      intro failed
      apply unharmed hand
      rw [onPostExport_eq_some_iff, ← failed]
      exact ⟨given, rfl⟩
    · intro recoverable hand after result
      obtain ⟨given, attempted⟩ := onPostExport_eq_some_iff.mp result
      have kept := (exactly hand).mpr (recoverable hand given)
      rw [attempted] at kept
      exact kept rfl

/-- One DNG, for which ExifTool deletes the previews and then fails. -/
def halfEmbedded : List (Image × Calls) :=
  [(⟨"/photos/out".toList, "a.dng".toList, none⟩,
    { deleted := some ⟨[0x49, 0x49], 1⟩ })]

def onlyExiftool : World where
  base := []
  token := []
  answer := fun _ => none
  writable := fun _ => true
  dnglab := false
  dngSdk := false
  exiftool := true

theorem failed_harmed :
    ¬DoesEmbed {} onlyExiftool
      (fun _ => some ⟨[0x49, 0x49, 0x2a, 0], 0⟩) halfEmbedded Unharmed := by
  intro unharmed
  have result : doEmbed {} onlyExiftool halfEmbedded =
      some (.exiftool, halfEmbedded) := by
    decide +kernel
  obtain ⟨here, -⟩ := unharmed _ _ result _ rfl
  have kept := here _ rfl (Nat.lt_succ_self _)
  exact absurd kept (by decide +kernel)

end Plugin

end RawImport
