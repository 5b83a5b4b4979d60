import Mathlib.Data.List.Sort
import RawImport.Lib.Cxx
import RawImport.Lib.History
import RawImport.Lib.PathText
import RawImport.Lib.Trim
import RawImport.Store.Tables

/-!
# `Store::Migrate`

Successive calls over one directory of `.sql` files.  Every statement sent to
the server is a step of its own and may fail, and a call may be cut off between
two of them.  What a migration statement does to `schema_migrations` is left
open, so it is part of the step.
-/

namespace RawImport

namespace Migrations

open Cxx (isSpace)
open PathText Transition

abbrev Text := List Char

/-! ## Statements of a file -/

def trim (text : Text) : Text :=
  Trim.trim isSpace text

/-- The variables of `split_sql`. -/
structure Split where
  out : List Text := []
  cur : Text := []
  quote : Option Char := none
  escaped : Bool := false

/-- What is left of `cur` without the blanks around it is a statement. -/
def Split.endStatement (split : Split) : Split :=
  { split with
    out := if trim split.cur = [] then split.out
      else split.out ++ [trim split.cur]
    cur := [] }

/-- One round of the loop in `split_sql`. -/
def splitChar (split : Split) (c : Char) : Split :=
  if split.escaped then
    { split with cur := split.cur ++ [c], escaped := false }
  else if c = '\\' then
    { split with cur := split.cur ++ [c], escaped := true }
  else
    match split.quote with
    | some quote =>
        { split with
          cur := split.cur ++ [c]
          quote := if c = quote then none else some quote }
    | none =>
        if c = '\'' ∨ c = '"' ∨ c = '\x60' then
          { split with cur := split.cur ++ [c], quote := some c }
        else if c = ';' then split.endStatement
        else { split with cur := split.cur ++ [c] }

def splitSql (sql : Text) : List Text :=
  (sql.foldl splitChar {}).endStatement.out

/-! ## The runner -/

/-- An entry of the migrations directory. -/
structure SqlFile where
  name : String
  content : Text
  deriving DecidableEq

/-- The files of a call in their order; all paths begin with the directory. -/
def sqlFiles (directory : List SqlFile) : List SqlFile :=
  (directory.filter fun file => extension file.name = ".sql").insertionSort
    fun first second => first.name ≤ second.name

/-- `schema_migrations`, once it exists. -/
abbrev Versions := Option (List String)

/-- `SELECT 1 FROM schema_migrations WHERE version=?` has a row. -/
def isRecorded (mariadb : Mariadb) (versions : Versions) (name : String) :
    Bool :=
  match versions with
  | none => false
  | some list => list.any fun version => mariadb.same version name

/-- The recording `INSERT`: `version` is the primary key. -/
def insertVersion (mariadb : Mariadb) (versions : Versions)
    (name : String) : Versions :=
  versions.map fun list =>
    if isRecorded mariadb versions name then list else list ++ [name]

/-- Where the runner stands; `returned` carries the result of the call. -/
inductive Stage where
  | idle
  | creating
  | files (rest : List SqlFile)
  | checking (file : SqlFile) (sql : Text) (rest : List SqlFile)
  | executing (file : SqlFile) (statements : List Text)
      (rest : List SqlFile)
  | returned (result : Bool)
  deriving DecidableEq

structure State where
  versions : Versions := none
  stage : Stage := .idle
  deriving DecidableEq

/-- A step of the runner with its outcome.  A query that fails at any point
gives no rows; a migration statement leaves some table of versions behind. -/
inductive Action where
  | call (ready : Bool)
  | create (executed : Bool)
  | openFile (opened : Bool)
  | check (answered : Bool)
  | execute (executed : Bool) (versions : Versions)
  | record (executed : Bool)
  | finish
  | cutOff
  deriving DecidableEq

/-- `Migrate(migrations_dir)`, step by step. -/
def step (mariadb : Mariadb) (directory : List SqlFile) (state : State) :
    Action → Option State
  | .call ready =>
      -- without a connection or the directory nothing is sent
      match state.stage with
      | .idle => some { state with
          stage := if ready then .creating else .returned false }
      | .returned _ => some { state with
          stage := if ready then .creating else .returned false }
      | _ => none
  | .create executed =>
      if state.stage = .creating then
        some {
          versions :=
            if executed then some (state.versions.getD [])
            else state.versions
          stage := .files (sqlFiles directory) }
      else none
  | .openFile opened =>
      match state.stage with
      | .files (file :: rest) => some { state with
          stage := .checking file (if opened then file.content else []) rest }
      | _ => none
  | .check answered =>
      match state.stage with
      | .checking file sql rest => some { state with
          stage :=
            if answered = true ∧
                isRecorded mariadb state.versions file.name = true then
              .files rest
            else .executing file (splitSql sql) rest }
      | _ => none
  | .execute executed versions =>
      match state.stage with
      | .executing file (_ :: statements) rest => some {
          versions := versions
          stage :=
            if executed then .executing file statements rest
            else .returned false }
      | _ => none
  | .record executed =>
      -- whether the insert took place is not looked at
      match state.stage with
      | .executing file [] rest => some {
          versions :=
            if executed then insertVersion mariadb state.versions file.name
            else state.versions
          stage := .files rest }
      | _ => none
  | .finish =>
      if state.stage = .files [] then
        some { state with stage := .returned true }
      else none
  | .cutOff => some { state with stage := .idle }

/-! ## What a run may do -/

section Properties

variable (mariadb : Mariadb) (directory : List SqlFile)

def AllRecorded (versions : Versions) : Prop :=
  ∀ file ∈ sqlFiles directory,
    isRecorded mariadb versions file.name = true

/-- A call that has returned true leaves every file recorded, and the
statement that is executed next is of a file that is not. -/
structure Accounted (state : State) : Prop where
  returned : state.stage = .returned true →
    AllRecorded mariadb directory state.versions
  executes : ∀ file statement statements rest,
    state.stage = .executing file (statement :: statements) rest →
      isRecorded mariadb state.versions file.name = false

/-- The files that a step leaves without a record although the call goes on:
the one whose insert has failed, and the ones that a migration statement took
out of the table. -/
def lostBy (state : State) : Action → List SqlFile
  | .record executed =>
      match state.stage with
      | .executing file _ _ =>
          if executed && state.versions.isSome then [] else [file]
      | _ => []
  | .execute _ versions =>
      (sqlFiles directory).filter fun file =>
        isRecorded mariadb state.versions file.name &&
          !isRecorded mariadb versions file.name
  | _ => []

def lost : List (State × Action) → List SqlFile
  | [] => []
  | (_, .call _) :: _ => []
  | (state, action) :: past => lostBy mariadb directory state action ++ lost past

/-- What has to hold of the steps: the query about a recorded file with
statements is answered, no statement but the last one of a file records it,
and at the end of a call what was lost on the way is recorded after all. -/
def Answered (tracked : Tracked State Action) : Action → Prop
  | .check answered =>
      ∀ file sql rest, tracked.now.stage = .checking file sql rest →
        isRecorded mariadb tracked.now.versions file.name = true →
          answered = true ∨ splitSql sql = []
  | .execute executed versions =>
      ∀ file statement next statements rest,
        tracked.now.stage =
            .executing file (statement :: next :: statements) rest →
          executed = true → isRecorded mariadb versions file.name = false
  | .finish =>
      ∀ file ∈ lost mariadb directory tracked.past,
        isRecorded mariadb tracked.now.versions file.name = true
  | _ => True

end Properties

/-- The files of the running call that it has not passed. -/
def pending (directory : List SqlFile) : Stage → List SqlFile
  | .files rest => rest
  | .checking file _ rest => file :: rest
  | .executing file _ rest => file :: rest
  | _ => sqlFiles directory

/-- Every file is still to come, or recorded, or was lost. -/
structure Ledger (mariadb : Mariadb) (directory : List SqlFile)
    (tracked : Tracked State Action) : Prop where
  good : Accounted mariadb directory tracked.now
  covered : ∀ file ∈ sqlFiles directory,
    file ∈ pending directory tracked.now.stage ∨
      isRecorded mariadb tracked.now.versions file.name = true ∨
      file ∈ lost mariadb directory tracked.past
  pendingListed : ∀ file ∈ pending directory tracked.now.stage,
    file ∈ sqlFiles directory
  lostListed : ∀ file ∈ lost mariadb directory tracked.past,
    file ∈ sqlFiles directory

section Steps

variable {mariadb : Mariadb} {directory : List SqlFile}
  {tracked after : Tracked State Action}

theorem ledger_initial (versions : Versions) :
    Ledger mariadb directory (.start { versions := versions }) where
  good := {
    returned := fun returned => by cases returned
    executes := fun _ _ _ _ executing => by cases executing }
  covered file listed := .inl listed
  pendingListed file listed := listed
  lostListed file member := by cases member

theorem accounted_of_stage {state : State}
    (running : state.stage ≠ .returned true)
    (resting : ∀ file statement statements rest,
      state.stage ≠ .executing file (statement :: statements) rest) :
    Accounted mariadb directory state where
  returned returned := absurd returned running
  executes file statement statements rest executing :=
    absurd executing (resting file statement statements rest)

theorem isRecorded_insert {versions : Versions} {name other : String}
    (before : isRecorded mariadb versions other = true) :
    isRecorded mariadb (insertVersion mariadb versions name) other =
      true := by
  cases versions with
  | none => cases before
  | some list =>
      unfold insertVersion
      simp only [Option.map_some]
      split
      · exact before
      · unfold isRecorded at before ⊢
        simp only at before ⊢
        rw [List.any_append, before]
        rfl

theorem isRecorded_inserted (list : List String) (name : String) :
    isRecorded mariadb (insertVersion mariadb (some list) name) name =
      true := by
  unfold insertVersion
  simp only [Option.map_some]
  split
  · rename_i already
    exact already
  · unfold isRecorded
    simp only
    rw [List.any_append, Bool.or_eq_true]
    right
    simp [mariadb.same_refl]

theorem ledger_call {ready : Bool}
    (taken : track (step mariadb directory) tracked (.call ready) =
      some after) : Ledger mariadb directory after := by
  obtain ⟨moved, past⟩ := track_eq_some_iff.mp taken
  have stage : after.now.stage = .creating ∨
      after.now.stage = .returned false := by
    simp only [step] at moved
    split at moved
    · have next := (Option.some.inj moved).symm
      rw [next]
      cases ready with
      | true => exact .inl rfl
      | false => exact .inr rfl
    · have next := (Option.some.inj moved).symm
      rw [next]
      cases ready with
      | true => exact .inl rfl
      | false => exact .inr rfl
    · cases moved
  have all : pending directory after.now.stage = sqlFiles directory := by
    rcases stage with creating | refused
    · rw [creating]
      rfl
    · rw [refused]
      rfl
  have nothing : lost mariadb directory after.past = [] := by
    rw [past]
    rfl
  refine ⟨accounted_of_stage ?_ ?_, ?_, ?_, ?_⟩
  · intro returned
    rcases stage with creating | refused
    · rw [creating] at returned
      cases returned
    · rw [refused] at returned
      cases returned
  · intro file statement statements rest executing
    rcases stage with creating | refused
    · rw [creating] at executing
      cases executing
    · rw [refused] at executing
      cases executing
  · intro file listed
    rw [all]
    exact .inl listed
  · intro file listed
    rwa [all] at listed
  · intro file member
    rw [nothing] at member
    cases member

theorem ledger_of_quiet
    (ledger : Ledger mariadb directory tracked)
    (versions : after.now.versions = tracked.now.versions)
    (same : lost mariadb directory after.past =
      lost mariadb directory tracked.past)
    (good : Accounted mariadb directory after.now)
    (covers : ∀ file ∈ pending directory tracked.now.stage,
      file ∈ pending directory after.now.stage ∨
        isRecorded mariadb tracked.now.versions file.name = true)
    (listed : ∀ file ∈ pending directory after.now.stage,
      file ∈ sqlFiles directory) : Ledger mariadb directory after where
  good := good
  covered file member := by
    rw [versions, same]
    rcases ledger.covered file member with waits | recorded | gone
    · rcases covers file waits with still | recorded
      · exact .inl still
      · exact .inr (.inl recorded)
    · exact .inr (.inl recorded)
    · exact .inr (.inr gone)
  pendingListed := listed
  lostListed file member := by
    rw [same] at member
    exact ledger.lostListed file member

theorem ledger_create {executed : Bool}
    (ledger : Ledger mariadb directory tracked)
    (taken : track (step mariadb directory) tracked (.create executed) =
      some after) : Ledger mariadb directory after := by
  obtain ⟨moved, past⟩ := track_eq_some_iff.mp taken
  have same : lost mariadb directory after.past =
      lost mariadb directory tracked.past := by
    rw [past]
    rfl
  simp only [step] at moved
  split at moved
  · have next := (Option.some.inj moved).symm
    have stage : after.now.stage = .files (sqlFiles directory) := by
      rw [next]
    refine ⟨accounted_of_stage ?_ ?_, ?_, ?_, ?_⟩
    · rw [stage]
      exact fun returned => by cases returned
    · rw [stage]
      exact fun _ _ _ _ executing => by cases executing
    · intro file listed
      rw [stage]
      exact .inl listed
    · rw [stage]
      exact fun file listed => listed
    · rw [same]
      exact ledger.lostListed
  · cases moved

theorem ledger_openFile {opened : Bool}
    (ledger : Ledger mariadb directory tracked)
    (taken : track (step mariadb directory) tracked (.openFile opened) =
      some after) : Ledger mariadb directory after := by
  obtain ⟨moved, past⟩ := track_eq_some_iff.mp taken
  have same : lost mariadb directory after.past =
      lost mariadb directory tracked.past := by
    rw [past]
    rfl
  have listed := ledger.pendingListed
  simp only [step] at moved
  split at moved
  · rename_i file rest stage
    have next := (Option.some.inj moved).symm
    rw [stage] at listed
    apply ledger_of_quiet ledger
    · rw [next]
    · exact same
    · apply accounted_of_stage
      · rw [next]
        exact fun returned => by cases returned
      · rw [next]
        exact fun _ _ _ _ executing => by cases executing
    · rw [stage, next]
      exact fun file waits => .inl waits
    · rw [next]
      exact listed
  · cases moved

theorem ledger_check {answered : Bool}
    (ledger : Ledger mariadb directory tracked)
    (answers : Answered mariadb directory tracked (.check answered))
    (taken : track (step mariadb directory) tracked (.check answered) =
      some after) : Ledger mariadb directory after := by
  obtain ⟨moved, past⟩ := track_eq_some_iff.mp taken
  have same : lost mariadb directory after.past =
      lost mariadb directory tracked.past := by
    rw [past]
    rfl
  have listed := ledger.pendingListed
  simp only [step] at moved
  split at moved
  · rename_i file sql rest stage
    have answer := answers file sql rest stage
    rw [stage] at listed
    split at moved
    · rename_i known
      have next := (Option.some.inj moved).symm
      apply ledger_of_quiet ledger
      · rw [next]
      · exact same
      · apply accounted_of_stage
        · rw [next]
          exact fun returned => by cases returned
        · rw [next]
          exact fun _ _ _ _ executing => by cases executing
      · rw [stage, next]
        intro other waits
        rcases List.mem_cons.mp waits with rfl | later
        · exact .inr known.2
        · exact .inl later
      · rw [next]
        exact fun other waits =>
          listed other (List.mem_cons_of_mem _ waits)
    · rename_i unknown
      have next := (Option.some.inj moved).symm
      apply ledger_of_quiet ledger
      · rw [next]
      · exact same
      · constructor
        · rw [next]
          exact fun returned => by cases returned
        · rw [next]
          intro other statement statements rest' executing
          obtain ⟨rfl, nonempty, -⟩ := Stage.executing.inj executing
          rw [Bool.eq_false_iff]
          intro recorded
          rcases answer recorded with known | nothing
          · exact unknown ⟨known, recorded⟩
          · rw [nothing] at nonempty
            cases nonempty
      · rw [stage, next]
        exact fun other waits => .inl waits
      · rw [next]
        exact listed
  · cases moved

theorem ledger_execute {executed : Bool} {versions : Versions}
    (ledger : Ledger mariadb directory tracked)
    (answers : Answered mariadb directory tracked
      (.execute executed versions))
    (taken : track (step mariadb directory) tracked
      (.execute executed versions) = some after) :
    Ledger mariadb directory after := by
  obtain ⟨moved, past⟩ := track_eq_some_iff.mp taken
  have grown : lost mariadb directory after.past =
      ((sqlFiles directory).filter fun file =>
        isRecorded mariadb tracked.now.versions file.name &&
          !isRecorded mariadb versions file.name) ++
        lost mariadb directory tracked.past := by
    rw [past]
    rfl
  have lostListed : ∀ file ∈ lost mariadb directory after.past,
      file ∈ sqlFiles directory := by
    intro file member
    rw [grown] at member
    rcases List.mem_append.mp member with removed | earlier
    · exact (List.mem_filter.mp removed).1
    · exact ledger.lostListed file earlier
  have listed := ledger.pendingListed
  simp only [step] at moved
  split at moved
  · rename_i file statement statements rest stage
    have next := (Option.some.inj moved).symm
    have answer := answers file statement
    rw [stage] at listed
    have held : after.now.versions = versions := by rw [next]
    have waiting : ∀ other ∈ pending directory tracked.now.stage,
        other ∈ sqlFiles directory →
          other ∈ pending directory after.now.stage := by
      rw [stage, next]
      intro other waits known
      cases executed with
      | true => exact waits
      | false => exact known
    refine ⟨?_, ?_, ?_, lostListed⟩
    · constructor
      · rw [next]
        intro returned
        cases executed with
        | true => cases returned
        | false => cases returned
      · intro other first others rest' executing
        rw [held]
        rw [next] at executing
        cases executed with
        | false => cases executing
        | true =>
            obtain ⟨rfl, rfl, rfl⟩ := Stage.executing.inj executing
            exact answer first others rest stage rfl
    · intro other member
      rw [held, grown]
      rcases ledger.covered other member with waits | recorded | gone
      · exact .inl (waiting other waits member)
      · by_cases kept : isRecorded mariadb versions other.name = true
        · exact .inr (.inl kept)
        · right
          right
          apply List.mem_append_left
          apply List.mem_filter.mpr
          refine ⟨member, ?_⟩
          rw [recorded, Bool.eq_false_iff.mpr kept]
          rfl
      · exact .inr (.inr (List.mem_append_right _ gone))
    · rw [next]
      cases executed with
      | true => exact listed
      | false => exact fun other known => known
  · cases moved

theorem ledger_record {executed : Bool}
    (ledger : Ledger mariadb directory tracked)
    (taken : track (step mariadb directory) tracked (.record executed) =
      some after) : Ledger mariadb directory after := by
  obtain ⟨moved, past⟩ := track_eq_some_iff.mp taken
  have listed := ledger.pendingListed
  simp only [step] at moved
  split at moved
  · rename_i file rest stage
    have next := (Option.some.inj moved).symm
    rw [stage] at listed
    have grown : lost mariadb directory after.past =
        (if executed && tracked.now.versions.isSome then [] else [file]) ++
          lost mariadb directory tracked.past := by
      rw [past, lost, lostBy, stage]
      intro ready
      exact fun impossible => by cases impossible
    have kept : ∀ other : SqlFile,
        isRecorded mariadb tracked.now.versions other.name = true →
          isRecorded mariadb after.now.versions other.name = true := by
      intro other before
      rw [next]
      cases executed with
      | true => exact isRecorded_insert before
      | false => exact before
    refine ⟨accounted_of_stage ?_ ?_, ?_, ?_, ?_⟩
    · rw [next]
      exact fun returned => by cases returned
    · rw [next]
      exact fun _ _ _ _ executing => by cases executing
    · intro other member
      rw [grown]
      rcases ledger.covered other member with waits | recorded | gone
      · rw [stage] at waits
        rcases List.mem_cons.mp waits with rfl | later
        · cases done : executed && tracked.now.versions.isSome with
          | false => exact .inr (.inr List.mem_cons_self)
          | true =>
              obtain ⟨inserted, table⟩ := Bool.and_eq_true_iff.mp done
              obtain ⟨list, versions⟩ := Option.isSome_iff_exists.mp table
              right
              left
              rw [next, if_pos inserted, versions]
              exact isRecorded_inserted list other.name
        · rw [next]
          exact .inl later
      · exact .inr (.inl (kept other recorded))
      · exact .inr (.inr (List.mem_append_right _ gone))
    · rw [next]
      exact fun other waits => listed other (List.mem_cons_of_mem _ waits)
    · intro other member
      rw [grown] at member
      rcases List.mem_append.mp member with new | earlier
      · split at new
        · cases new
        · rw [List.mem_singleton.mp new]
          exact listed file List.mem_cons_self
      · exact ledger.lostListed other earlier
  · cases moved

theorem ledger_finish
    (ledger : Ledger mariadb directory tracked)
    (answers : Answered mariadb directory tracked .finish)
    (taken : track (step mariadb directory) tracked .finish = some after) :
    Ledger mariadb directory after := by
  obtain ⟨moved, past⟩ := track_eq_some_iff.mp taken
  have same : lost mariadb directory after.past =
      lost mariadb directory tracked.past := by
    rw [past]
    rfl
  simp only [step] at moved
  split at moved
  · rename_i stage
    have next := (Option.some.inj moved).symm
    have all : AllRecorded mariadb directory tracked.now.versions := by
      intro file member
      rcases ledger.covered file member with waits | recorded | gone
      · rw [stage] at waits
        cases waits
      · exact recorded
      · exact answers file gone
    refine ⟨⟨?_, ?_⟩, ?_, ?_, ?_⟩
    · rw [next]
      exact fun _ => all
    · rw [next]
      exact fun _ _ _ _ executing => by cases executing
    · rw [next]
      exact fun file member => .inl member
    · rw [next]
      exact fun file member => member
    · rw [same]
      exact ledger.lostListed
  · cases moved

theorem ledger_cutOff
    (ledger : Ledger mariadb directory tracked)
    (taken : track (step mariadb directory) tracked .cutOff = some after) :
    Ledger mariadb directory after := by
  obtain ⟨moved, past⟩ := track_eq_some_iff.mp taken
  have same : lost mariadb directory after.past =
      lost mariadb directory tracked.past := by
    rw [past]
    rfl
  have next := (Option.some.inj moved).symm
  refine ⟨accounted_of_stage ?_ ?_, ?_, ?_, ?_⟩
  · rw [next]
    exact fun returned => by cases returned
  · rw [next]
    exact fun _ _ _ _ executing => by cases executing
  · rw [next]
    exact fun file member => .inl member
  · rw [next]
    exact fun file member => member
  · rw [same]
    exact ledger.lostListed

theorem ledger_step {action : Action}
    (ledger : Ledger mariadb directory tracked)
    (answers : Answered mariadb directory tracked action)
    (taken : track (step mariadb directory) tracked action = some after) :
    Ledger mariadb directory after := by
  cases action with
  | call ready => exact ledger_call taken
  | create executed => exact ledger_create ledger taken
  | openFile opened => exact ledger_openFile ledger taken
  | check answered => exact ledger_check ledger answers taken
  | execute executed versions => exact ledger_execute ledger answers taken
  | record executed => exact ledger_record ledger taken
  | finish => exact ledger_finish ledger answers taken
  | cutOff => exact ledger_cutOff ledger taken

/-- A step after which the calls are accounted for was answered. -/
theorem answered_of_accounted {action : Action}
    (ledger : Ledger mariadb directory tracked)
    (taken : track (step mariadb directory) tracked action = some after)
    (good : Accounted mariadb directory after.now) :
    Answered mariadb directory tracked action := by
  obtain ⟨moved, past⟩ := track_eq_some_iff.mp taken
  cases action with
  | check answered =>
      intro file sql rest stage recorded
      simp only [step, stage] at moved
      by_cases known : answered = true
      · exact .inl known
      · right
        have next := (Option.some.inj moved).symm
        rw [if_neg fun both => known both.1] at next
        cases split : splitSql sql with
        | nil => rfl
        | cons statement statements =>
            have unrecorded := good.executes file statement statements rest
              (by rw [next, split])
            rw [next, recorded] at unrecorded
            cases unrecorded
  | execute executed versions =>
      intro file statement following statements rest stage done
      simp only [step, stage] at moved
      have next := (Option.some.inj moved).symm
      have unrecorded := good.executes file following statements rest
        (by rw [next, if_pos done])
      rwa [next] at unrecorded
  | finish =>
      intro file gone
      simp only [step] at moved
      split at moved
      · have next := (Option.some.inj moved).symm
        have all := good.returned (by rw [next])
        rw [next] at all
        exact all file (ledger.lostListed file gone)
      · cases moved
  | _ => exact True.intro

end Steps

/-- In every run of calls, restarts included, a call returns true only with
every file recorded and no statement of a recorded file is executed, exactly
if the queries are answered and nothing stays lost. -/
theorem migrate_accounts_iff (mariadb : Mariadb)
    (directory : List SqlFile) (versions : Versions)
    (actions : List Action) :
    Visits (track (step mariadb directory))
        (fun tracked => Accounted mariadb directory tracked.now)
        (.start { versions := versions }) actions ↔
      Along (track (step mariadb directory)) (Answered mariadb directory)
        (.start { versions := versions }) actions :=
  visits_iff_along (Ledger mariadb directory)
    (fun _ ledger => ledger.good)
    (fun _ _ _ ledger answers taken => ledger_step ledger answers taken)
    (fun _ _ _ ledger taken good =>
      answered_of_accounted ledger taken good)
    (ledger_initial versions) actions

/-! ## Two runs over one file -/

def oneFile : List SqlFile :=
  [{ name := "0001_init.sql"
     content := "CREATE TABLE imports(id BIGINT);".toList }]

def callWith (answered inserted : Bool) : List Action :=
  [.call true, .create true, .openFile true, .check answered,
    .execute true (some []), .record inserted, .finish]

/-- An insert that fails is not noticed, and a query that fails lets the
statement of a recorded file run again. -/
theorem migrate_unaccounted :
    (∃ final,
      run (step .binary oneFile) {} (callWith true false) = some final ∧
        final.stage = .returned true ∧
        isRecorded .binary final.versions "0001_init.sql" = false) ∧
      ∃ final,
        run (step .binary oneFile) {}
            (callWith true true ++ (callWith false true).take 4) =
          some final ∧
        final.stage = .executing
          { name := "0001_init.sql"
            content := "CREATE TABLE imports(id BIGINT);".toList }
          ["CREATE TABLE imports(id BIGINT)".toList] [] ∧
        isRecorded .binary final.versions "0001_init.sql" = true :=
  ⟨exists_run_of_decide (by decide +kernel),
    exists_run_of_decide (by decide +kernel)⟩

end Migrations

end RawImport
