import RawImport.Library.Reservation
import RawImport.Store.Uninterrupted

/-!
# A reserve loop that is cut short

`ReconcileLibrary` returns true in every case.  A failing `AllocateSequence`
ends the loop, and what the counter has not passed by then is handed out later.
-/

namespace RawImport

namespace Db

open Sequence

def Referenced (db : Db) (row : SequenceRow) : Prop :=
  ∃ entry ∈ db.imports, entry.sequenceId = row.id

def Stays (db : Db) (row : SequenceRow) : Prop :=
  row ∈ db.sequences ∧
    (matchesEmpty row.name = true → ¬db.Deletable matchesEmpty) ∧
    (matchesTmp row.name = true → ¬db.Deletable matchesTmp)

/-- A key below `2 ^ 63` that a later call may hand out: the counter has not
passed it, and its name is not taken by a row that stays. -/
def Free (mariadb : Mariadb) (db : Db) (key : Nat) : Prop :=
  db.nextSequence ≤ key ∧
    ∀ row, db.Stays row →
      mariadb.same row.name (sequenceName key) = false

section Stays

variable {mariadb : Mariadb} {db : Db} {row : SequenceRow}

theorem deletable_iff {matching : String → Bool} :
    db.Deletable matching ↔
      ∀ row ∈ db.sequences, matching row.name = true →
        ¬db.Referenced row := by
  constructor
  · intro deletable row member matches' referenced
    obtain ⟨entry, listed, refers⟩ := referenced
    exact deletable row member matches' entry listed refers
  · intro unreferenced row member matches' entry listed refers
    exact unreferenced row member matches' ⟨entry, listed, refers⟩

/-- A clean-up leaves what is referred to, and what it must not touch. -/
theorem mem_deleteSequences_of_undeletable {matching : String → Bool}
    {executed : Bool} (member : row ∈ db.sequences)
    (undeletable : matching row.name = true → ¬db.Deletable matching) :
    row ∈ (db.deleteSequences matching executed).sequences := by
  unfold deleteSequences
  split
  · rename_i deletes
    apply List.mem_filter.mpr
    refine ⟨member, ?_⟩
    rw [Bool.not_eq_true', Bool.eq_false_iff]
    exact fun matches' => undeletable matches' deletes.2
  · exact member

theorem referenced_undeletable {matching : String → Bool}
    (member : row ∈ db.sequences) (referenced : db.Referenced row) :
    matching row.name = true → ¬db.Deletable matching :=
  fun matches' deletable =>
    deletable_iff.mp deletable row member matches' referenced

theorem referenced_deleteSequences {matching : String → Bool}
    {executed : Bool} :
    (db.deleteSequences matching executed).Referenced row ↔
      db.Referenced row := by
  unfold Referenced
  rw [deleteSequences_imports]

theorem deletable_deleteSequences {matching other : String → Bool}
    {executed : Bool} (deletable : db.Deletable matching) :
    (db.deleteSequences other executed).Deletable matching := by
  rw [deletable_iff] at deletable ⊢
  intro row member matches'
  rw [referenced_deleteSequences]
  exact deletable row (mem_of_mem_deleteSequences member) matches'

theorem undeletable_deleteSequences {matching other : String → Bool}
    {executed : Bool} (undeletable : ¬db.Deletable matching) :
    ¬(db.deleteSequences other executed).Deletable matching := by
  rw [deletable_iff] at undeletable ⊢
  intro deletable
  apply undeletable
  intro row member matches' referenced
  have stays : row ∈ (db.deleteSequences other executed).sequences :=
    mem_deleteSequences_of_undeletable member
      (referenced_undeletable member referenced)
  exact deletable row stays matches'
    (referenced_deleteSequences.mpr referenced)

theorem Stays.deleteSequences {matching : String → Bool} {executed : Bool}
    (stays : db.Stays row)
    (undeletable : matching row.name = true → ¬db.Deletable matching) :
    (db.deleteSequences matching executed).Stays row :=
  ⟨mem_deleteSequences_of_undeletable stays.1 undeletable,
    fun matches' => undeletable_deleteSequences (stays.2.1 matches'),
    fun matches' => undeletable_deleteSequences (stays.2.2 matches')⟩

theorem Stays.cleaned (stays : db.Stays row)
    (emptyDeleted tmpDeleted : Bool) :
    (cleaned db emptyDeleted tmpDeleted).Stays row := by
  have first : (db.deleteSequences matchesEmpty emptyDeleted).Stays row :=
    stays.deleteSequences stays.2.1
  exact first.deleteSequences first.2.2

theorem not_mem_deleteSequences {matching : String → Bool}
    (matches' : matching row.name = true)
    (deletable : db.Deletable matching) :
    row ∉ (db.deleteSequences matching true).sequences := by
  intro member
  unfold deleteSequences at member
  rw [if_pos ⟨rfl, deletable⟩] at member
  have kept := (List.mem_filter.mp member).2
  rw [matches'] at kept
  cases kept

theorem stays_of_mem_cleaned
    (member : row ∈ (cleaned db true true).sequences) : db.Stays row := by
  have between := mem_of_mem_deleteSequences member
  refine ⟨mem_of_mem_deleteSequences between, ?_, ?_⟩
  · intro matches' deletable
    exact not_mem_deleteSequences matches' deletable between
  · intro matches' deletable
    exact not_mem_deleteSequences matches'
      (deletable_deleteSequences deletable) member

theorem cleaned_subset (mariadb : Mariadb) (outcome : AllocateOutcome)
    (member : row ∈ (cleaned db outcome.emptyDeleted
      outcome.tmpDeleted).sequences) :
    row ∈ (db.allocateSequence mariadb outcome).1.sequences := by
  unfold allocateSequence
  dsimp only
  split
  · exact List.mem_append_left _ member
  · exact member

theorem Stays.allocateSequence (stays : db.Stays row) (mariadb : Mariadb)
    (outcome : AllocateOutcome) :
    (db.allocateSequence mariadb outcome).1.Stays row := by
  have undeletable : ∀ matching : String → Bool,
      ¬db.Deletable matching →
        ¬(db.allocateSequence mariadb outcome).1.Deletable matching := by
    intro matching before
    rw [deletable_iff] at before ⊢
    intro deletable
    apply before
    intro other member matches' referenced
    have kept : db.Stays other :=
      ⟨member, referenced_undeletable member referenced,
        referenced_undeletable member referenced⟩
    apply deletable other (cleaned_subset mariadb outcome
      (kept.cleaned _ _).1) matches'
    obtain ⟨entry, listed, refers⟩ := referenced
    exact ⟨entry, by rwa [allocateSequence_imports], refers⟩
  exact ⟨cleaned_subset mariadb outcome (stays.cleaned _ _).1,
    fun matches' => undeletable _ (stays.2.1 matches'),
    fun matches' => undeletable _ (stays.2.2 matches')⟩

theorem Free.before {key : Nat} {outcome : AllocateOutcome}
    (free : Free mariadb (db.allocateSequence mariadb outcome).1 key) :
    Free mariadb db key :=
  ⟨(nextSequence_le_allocateSequence mariadb db outcome).trans free.1,
    fun row stays => free.2 row (stays.allocateSequence mariadb outcome)⟩

theorem free_of_allocated {outcome : AllocateOutcome}
    (positive : 0 < (db.allocateSequence mariadb outcome).2.1) :
    ∃ key : Nat, (db.allocateSequence mariadb outcome).2.1 = key ∧
      Free mariadb db key := by
  unfold Db.allocateSequence at positive ⊢
  dsimp only at positive ⊢
  split at positive
  · rename_i committed
    rw [if_pos committed]
    obtain ⟨-, bounded, unused⟩ := committed
    simp only [deleteSequences_nextSequence] at positive bounded unused ⊢
    have small := (Reconcile.toInt64_nonneg_iff bounded).mp positive.le
    refine ⟨_, toInt64_of_lt small, Nat.le_add_right _ _, ?_⟩
    intro row stays
    have different := unused row (stays.cleaned _ _).1
    unfold storedName at different
    rwa [toInt64_of_lt small, if_pos rfl] at different
  · cases positive

theorem allocated_of_free {key : Nat} (free : Free mariadb db key)
    (small : key < 2 ^ 63) :
    ∃ outcome, (db.allocateSequence mariadb outcome).2.1 = key := by
  refine ⟨{ skipped := key - db.nextSequence }, ?_⟩
  obtain ⟨unallocated, unused⟩ := free
  have sum : db.nextSequence + (key - db.nextSequence) = key := by omega
  unfold Db.allocateSequence
  simp only [deleteSequences_nextSequence, sum]
  rw [if_pos]
  · exact toInt64_of_lt small
  · refine ⟨trivial, by omega, ?_⟩
    intro row member
    unfold storedName
    rw [toInt64_of_lt small, if_pos rfl]
    exact unused row (stays_of_mem_cleaned member)

end Stays

section Calls

variable (mariadb : Mariadb) (outcomes : Nat → AllocateOutcome) (db : Db)

/-- The tables after a number of `AllocateSequence` calls. -/
def afterCalls : Nat → Db
  | 0 => db
  | calls + 1 =>
      ((afterCalls calls).allocateSequence mariadb (outcomes calls)).1

/-- The id that a call returns behind the earlier ones. -/
def returned (calls : Nat) : Int :=
  ((db.afterCalls mariadb outcomes calls).allocateSequence mariadb
    (outcomes calls)).2.1

variable {mariadb outcomes db}

theorem Free.of_afterCalls {key calls : Nat}
    (free : Free mariadb (db.afterCalls mariadb outcomes calls) key) :
    Free mariadb db key := by
  induction calls with
  | zero => exact free
  | succ calls inductionHypothesis =>
      exact inductionHypothesis free.before

/-- All later calls return ids past a number exactly if no key up to it is
free. -/
theorem returned_past_iff {number : Int} (int64 : number < 2 ^ 63) :
    (∀ (later : Nat → AllocateOutcome) (calls : Nat),
      0 < db.returned mariadb later calls →
        number < db.returned mariadb later calls) ↔
      ∀ key : Nat, 0 < key → (key : Int) ≤ number →
        ¬Free mariadb db key := by
  constructor
  · intro past key positive below free
    obtain ⟨outcome, allocated⟩ := allocated_of_free free (by omega)
    have first : db.returned mariadb (fun _ => outcome) 0 = key := allocated
    have later := past (fun _ => outcome) 0 (by rw [first]; omega)
    rw [first] at later
    omega
  · intro none later calls positive
    obtain ⟨key, allocated, free⟩ := free_of_allocated positive
    have equal : db.returned mariadb later calls = key := allocated
    rw [equal] at positive ⊢
    by_contra below
    exact none key (by omega) (by omega) free.of_afterCalls

end Calls

end Db

namespace Reconcile

section Failures

variable {context : Context} {cfg : Config} {library : Library} {db : Db}
  {outcomes : Nat → Db.AllocateOutcome}

theorem maxN_attained (list : List (Path × Entry)) (scan : Scan) :
    (list.foldl (visitFile context) scan).maxN = scan.maxN ∨
      ∃ visit ∈ list, imgNumber visit.2.name =
        some (list.foldl (visitFile context) scan).maxN := by
  induction list generalizing scan with
  | nil => exact .inl rfl
  | cons first list inductionHypothesis =>
      rw [List.foldl_cons]
      rcases inductionHypothesis (visitFile context scan first) with
        same | ⟨visit, listed, number⟩
      · rw [same, visitFile_maxN]
        cases number : imgNumber first.2.name with
        | none => exact .inl rfl
        | some n =>
            simp only [Option.elim]
            split
            · exact .inr ⟨first, List.mem_cons_self, number⟩
            · exact .inl rfl
      · exact .inr ⟨visit, List.mem_cons_of_mem _ listed, number⟩

theorem imgNumber_int64 {name : String} {n : Int}
    (number : imgNumber name = some n) : n < 2 ^ 63 := by
  unfold imgNumber at number
  split at number
  · split at number
    · have value := (Option.some.inj number).symm
      have bound : n ≤ int64Max := by
        rw [value]
        exact min_le_right _ _
      unfold int64Max at bound
      omega
    · cases number
  · cases number

theorem maxNumber_int64 (context : Context) (cfg : Config)
    (library : Library) (db : Db) :
    maxNumber context cfg library db < 2 ^ 63 := by
  unfold maxNumber
  rw [scanLibrary_eq]
  rcases maxN_attained (libraryVisits cfg library) { db := db } with
    zero | ⟨visit, -, number⟩
  · rw [zero]
    exact Int.lt_of_lt_of_le Int.zero_lt_one (by decide)
  · exact imgNumber_int64 number

/-- A positive id is past all numbers exactly if it is past the largest. -/
theorem past_numbers_iff (context : Context) (db : Db) {id : Int}
    (positive : 0 < id) :
    (∀ visit ∈ libraryVisits cfg library, ∀ n,
      imgNumber visit.2.name = some n → n < id) ↔
      maxNumber context cfg library db < id := by
  constructor
  · intro past
    unfold maxNumber
    rw [scanLibrary_eq]
    rcases maxN_attained (libraryVisits cfg library) { db := db } with
      zero | ⟨visit, listed, number⟩
    · rw [zero]
      exact positive
    · exact past visit listed _ number
  · intro past visit listed n number
    exact lt_of_le_of_lt (le_maxNumber context db listed number) past

/-- The calls of the loop before a round succeeded and did not reach the
goal. -/
def Continues (mariadb : Mariadb) (maxN : Int)
    (outcomes : Nat → Db.AllocateOutcome) (db : Db) (round : Nat) : Prop :=
  ∀ earlier < round, db.returned mariadb outcomes earlier ≠ 0 ∧
    db.returned mariadb outcomes earlier < maxN

/-- A call of the loop that fails leaves no key up to the largest number to be
handed out. -/
def Carried (mariadb : Mariadb) (maxN : Int)
    (outcomes : Nat → Db.AllocateOutcome) (db : Db) : Prop :=
  ∀ round : Nat, (round : Int) < maxN →
    Continues mariadb maxN outcomes db round →
    db.returned mariadb outcomes round = 0 →
    ∀ key : Nat, 0 < key → (key : Int) ≤ maxN →
      ¬Db.Free mariadb (db.afterCalls mariadb outcomes (round + 1)) key

/-- The loop ends without a failure, or in the one round that fails. -/
theorem reserve_ends {mariadb : Mariadb} {maxN : Int} (rounds i : Nat)
    (reserved : Reserved)
    (reached : reserved.db = db.afterCalls mariadb outcomes i)
    (continues : Continues mariadb maxN outcomes db i)
    (sound : reserved.failed = false) :
    ((reserve mariadb maxN outcomes rounds i reserved).failed = false ∧
      ∀ round < i + rounds, Continues mariadb maxN outcomes db round →
        i ≤ round → db.returned mariadb outcomes round ≠ 0) ∨
    ∃ round < i + rounds, Continues mariadb maxN outcomes db round ∧
      db.returned mariadb outcomes round = 0 ∧
      (reserve mariadb maxN outcomes rounds i reserved).db =
        db.afterCalls mariadb outcomes (round + 1) := by
  induction rounds generalizing i reserved with
  | zero =>
      left
      refine ⟨sound, ?_⟩
      intro round below _ above
      omega
  | succ rounds inductionHypothesis =>
      have called : (reserved.db.allocateSequence mariadb
          (outcomes i)).2.1 = db.returned mariadb outcomes i := by
        rw [reached]
        rfl
      have next : (reserved.db.allocateSequence mariadb (outcomes i)).1 =
          db.afterCalls mariadb outcomes (i + 1) := by
        rw [reached]
        rfl
      simp only [reserve, called, next]
      by_cases failed : db.returned mariadb outcomes i = 0
      · right
        rw [if_pos failed]
        exact ⟨i, by omega, continues, failed, rfl⟩
      · rw [if_neg failed]
        by_cases goal : maxN ≤ db.returned mariadb outcomes i
        · left
          rw [if_pos goal]
          refine ⟨rfl, ?_⟩
          intro round below goesOn above
          rcases Nat.eq_or_lt_of_le above with rfl | later
          · exact failed
          · have short := (goesOn i later).2
            omega
        · rw [if_neg goal]
          have further : Continues mariadb maxN outcomes db (i + 1) := by
            intro earlier below
            rcases Nat.lt_succ_iff_lt_or_eq.mp below with before | rfl
            · exact continues earlier before
            · exact ⟨failed, by omega⟩
          rcases inductionHypothesis (i + 1)
              { db := db.afterCalls mariadb outcomes (i + 1)
                lastId := db.returned mariadb outcomes i }
              rfl further rfl with
            ⟨ends, none⟩ | ⟨round, below, goesOn, zero, db'⟩
          · left
            refine ⟨ends, ?_⟩
            intro round below goesOn above
            rcases Nat.eq_or_lt_of_le above with rfl | later
            · exact failed
            · exact none round (by omega) goesOn later
          · right
            exact ⟨round, by omega, goesOn, zero, db'⟩

theorem continues_unique {mariadb : Mariadb} {maxN : Int}
    {first second : Nat}
    (goesOn : Continues mariadb maxN outcomes db first)
    (goesOn' : Continues mariadb maxN outcomes db second)
    (failed : db.returned mariadb outcomes first = 0)
    (failed' : db.returned mariadb outcomes second = 0) :
    first = second := by
  rcases Nat.lt_trichotomy first second with before | same | behind
  · exact absurd failed (goesOn' first before).1
  · exact same
  · exact absurd failed' (goesOn second behind).1

/-- The tables behind the scan, before the loop. -/
def scanned (context : Context) (cfg : Config) (library : Library)
    (db : Db) : Db :=
  (scanLibrary context cfg library db).db

/-- `ReconcileLibrary` returns true, and every positive id allocated later is
past all numbers found, exactly if the call of the loop that fails leaves none
of them to be handed out. -/
theorem reconcile_reserved_iff (context : Context) (cfg : Config)
    (library : Library) (outcomes : Nat → Db.AllocateOutcome) (db : Db) :
    ((reconcileLibrary context cfg library outcomes db).2 = true →
      ∀ (later : Nat → Db.AllocateOutcome) (calls : Nat),
        0 < (reconcileLibrary context cfg library outcomes
            db).1.db.returned context.mariadb later calls →
        ∀ visit ∈ libraryVisits cfg library, ∀ n,
          imgNumber visit.2.name = some n →
            n < (reconcileLibrary context cfg library outcomes
              db).1.db.returned context.mariadb later calls) ↔
      Carried context.mariadb (maxNumber context cfg library db) outcomes
        (scanned context cfg library db) := by
  have past : ((reconcileLibrary context cfg library outcomes db).2 = true →
      ∀ (later : Nat → Db.AllocateOutcome) (calls : Nat),
        0 < (reconcileLibrary context cfg library outcomes
            db).1.db.returned context.mariadb later calls →
        ∀ visit ∈ libraryVisits cfg library, ∀ n,
          imgNumber visit.2.name = some n →
            n < (reconcileLibrary context cfg library outcomes
              db).1.db.returned context.mariadb later calls) ↔
      ∀ key : Nat, 0 < key →
        (key : Int) ≤ maxNumber context cfg library db →
          ¬Db.Free context.mariadb
            (reconcileLibrary context cfg library outcomes db).1.db key := by
    rw [← Db.returned_past_iff (maxNumber_int64 context cfg library db)]
    constructor
    · intro safe later calls positive
      exact (past_numbers_iff context db positive).mp
        (safe rfl later calls positive)
    · intro safe _ later calls positive
      exact (past_numbers_iff context db positive).mpr
        (safe later calls positive)
  rw [past]
  have rounds : (((maxNumber context cfg library db).toNat : Nat) : Int) =
      maxNumber context cfg library db :=
    Int.toNat_of_nonneg (maxNumber_nonneg context cfg library db)
  have start : Continues context.mariadb (maxNumber context cfg library db)
      outcomes (scanned context cfg library db) 0 := by
    intro earlier below
    exact absurd below (Nat.not_lt_zero _)
  rcases reserve_ends
      (maxNumber context cfg library db).toNat 0
      { db := scanned context cfg library db } rfl start rfl with
    ⟨succeeded, none⟩ | ⟨round, below, goesOn, failed, ends⟩
  · constructor
    · intro _ round below goesOn failed
      exact absurd failed (none round (by omega) goesOn (Nat.zero_le _))
    · intro _ key positive reached free
      have beyond := maxNumber_lt_of_counter_le succeeded free.1 (by omega)
      omega
  · have tables : (reconcileLibrary context cfg library outcomes db).1.db =
        (scanned context cfg library db).afterCalls context.mariadb
          outcomes (round + 1) := ends
    rw [tables]
    constructor
    · intro none other below' goesOn' failed'
      rw [continues_unique goesOn' goesOn failed' failed]
      exact none
    · intro carried
      exact carried round (by omega) goesOn failed

/-- The loop's only call fails: the number of the file that is there is handed
out next. -/
theorem reserve_failed :
    (reconcileLibrary oneFile {} oneDng
        (fun _ => { committed := false }) {}).2 = true ∧
      maxNumber oneFile {} oneDng {} = 1 ∧
      (reconcileLibrary oneFile {} oneDng
        (fun _ => { committed := false }) {}).1.db.returned
          oneFile.mariadb (fun _ => {}) 0 = 1 := by
  decide +kernel

end Failures

end Reconcile

end RawImport
