import RawImport.Library.Registration
import RawImport.Worker.DngNames

/-!
# Numbers of files and the sequence counter

How the scan reads the names that the worker writes, and how far the reserve
loop raises the counter.
-/

namespace RawImport

open PathText

namespace Worker

namespace ProcessFile

variable {platform : Platform} {cfg : Config} {path : Path}
  {shared after : Shared} {stage stage' : Stage} {event : Event}

/-- A pass moves the counter up only and keeps the keys below it. -/
theorem Step.counter
    (step : Step platform cfg path shared stage event after stage') :
    shared.db.nextSequence ≤ after.db.nextSequence ∧
      (shared.db.Keyed → after.db.Keyed) := by
  cases step with
  | noSequence =>
      exact ⟨Db.nextSequence_le_allocateSequence _ _ _,
        fun keyed => keyed.allocateSequence _ _⟩
  | allocate =>
      exact ⟨Db.nextSequence_le_allocateSequence _ _ _,
        fun keyed => keyed.allocateSequence _ _⟩
  | insert =>
      exact ⟨by simp, fun keyed => keyed.of_same (by simp) (by simp)⟩
  | alert =>
      exact ⟨by simp, fun keyed => keyed.of_same (by simp) (by simp)⟩
  | _ => exact ⟨Nat.le_refl _, id⟩

end ProcessFile

end Worker

namespace Reconcile

theorem takeWhile_digits {digits : List Char} (rest : List Char)
    (all : ∀ c ∈ digits, c.isDigit = true)
    (stop : ∀ c, rest.head? = some c → c.isDigit = false) :
    (digits ++ rest).takeWhile Char.isDigit = digits ∧
      (digits ++ rest).dropWhile Char.isDigit = rest := by
  induction digits with
  | nil =>
      cases rest with
      | nil => exact ⟨rfl, rfl⟩
      | cons c rest =>
          have different := stop c rfl
          simp [different]
  | cons digit digits ih =>
      have isDigit := all digit List.mem_cons_self
      have tail := ih fun c member => all c (List.mem_cons_of_mem _ member)
      simp [isDigit, tail.1, tail.2]

theorem toList_dngName (id : Int) :
    (Db.sequenceName id ++ ".dng").toList =
      'I' :: 'M' :: 'G' :: '_' ::
        ((toString id).toList ++ ['.', 'd', 'n', 'g']) := by
  simp [Db.sequenceName, String.toList_append]

theorem imgNumber_nat (id : Nat) :
    imgNumber (Db.sequenceName id ++ ".dng") =
      some (min (id : Int) int64Max) := by
  have digits : ∀ c ∈ (toString (id : Int)).toList, c.isDigit = true :=
    fun c member => Numeral.isDigit_of_mem_nat member
  have split := takeWhile_digits ['.', 'd', 'n', 'g'] digits (by simp)
  have value :
      Nat.ofDigitChars 10 (toString (id : Int)).toList 0 = id := by
    have text : (toString (id : Int)).toList = Nat.toDigits 10 id :=
      Numeral.toList_toString_nat id
    rw [text, Nat.ofDigitChars_ten_toDigits]
  have nonempty : (toString (id : Int)).toList ≠ [] := by
    intro empty
    exact Numeral.toString_ne_empty (id : Int)
      (String.toList_inj.mp (by rw [empty]; rfl))
  have accepted : 'I'.toLower = 'i' ∧ 'M'.toLower = 'm' ∧
      'G'.toLower = 'g' ∧ (toString (id : Int)).toList ≠ [] ∧
      ['.', 'd', 'n', 'g'].map Char.toLower = ['.', 'd', 'n', 'g'] :=
    ⟨by decide, by decide, by decide, nonempty, by decide⟩
  unfold imgNumber
  rw [toList_dngName]
  simp only [split.1, split.2, if_pos accepted, value]

theorem imgNumber_negSucc (id : Nat) :
    imgNumber (Db.sequenceName (Int.negSucc id) ++ ".dng") = none := by
  unfold imgNumber
  rw [toList_dngName, Numeral.toString_negSucc, String.toList_append]
  simp

theorem filename_entryAbsolute (context : Context) (root : Path)
    (entry : Entry) :
    filename (entryAbsolute context root entry) = entry.name := by
  unfold entryAbsolute absolutePath entryPath
  split
  · exact filename_joinPath _ entry.bare
  · unfold joinPath
    rcases slashed_cases (parentPath root entry) with
      empty | ⟨before, separated⟩
    · rw [empty, String.empty_append]
      exact filename_joinPath _ entry.bare
    · rw [separated, ← String.append_assoc, ← String.append_assoc]
      exact filename_separated _ entry.bare

section Counter

variable {context : Context} {cfg : Config} {library : Library} {db : Db}
  {outcomes : Nat → Db.AllocateOutcome}

theorem scan_sequences (context : Context) (list : List (Path × Entry))
    (scan : Scan) :
    (list.foldl (visitFile context) scan).db.sequences =
        scan.db.sequences ∧
      (list.foldl (visitFile context) scan).db.nextSequence =
        scan.db.nextSequence := by
  induction list generalizing scan with
  | nil => exact ⟨rfl, rfl⟩
  | cons visit list ih =>
      obtain ⟨sequences, counter⟩ := ih (visitFile context scan visit)
      rw [List.foldl_cons, sequences, counter]
      rcases visitFile_cases context scan visit with
        ⟨-, row, after, -⟩ | ⟨-, after⟩
      · rw [after]
        exact ⟨rfl, rfl⟩
      · rw [after]
        exact ⟨rfl, rfl⟩

theorem reserve_keyed {mariadb : Mariadb} {maxN : Int} (rounds i : Nat)
    {reserved : Reserved} (keyed : reserved.db.Keyed) :
    (reserve mariadb maxN outcomes rounds i reserved).db.Keyed := by
  induction rounds generalizing i reserved with
  | zero => exact keyed
  | succ rounds ih =>
      have next := keyed.allocateSequence mariadb (outcomes i)
      simp only [reserve]
      split
      · exact next
      · split
        · exact next
        · exact ih (i + 1) next

theorem le_reserve_counter {mariadb : Mariadb} {maxN : Int}
    (rounds i : Nat) (reserved : Reserved) :
    reserved.db.nextSequence ≤
      (reserve mariadb maxN outcomes rounds i reserved).db.nextSequence := by
  induction rounds generalizing i reserved with
  | zero => exact Nat.le_refl _
  | succ rounds ih =>
      have grows := Db.nextSequence_le_allocateSequence mariadb reserved.db
        (outcomes i)
      simp only [reserve]
      split
      · exact grows
      · split
        · exact grows
        · refine Nat.le_trans grows ?_
          exact ih (i + 1)
            { db := (reserved.db.allocateSequence mariadb (outcomes i)).1
              lastId :=
                (reserved.db.allocateSequence mariadb (outcomes i)).2.1 }

theorem reconcile_keyed (keyed : db.Keyed) :
    (reconcileLibrary context cfg library outcomes db).1.db.Keyed := by
  unfold reconcileLibrary
  apply reserve_keyed
  rw [scanLibrary_eq]
  have same := scan_sequences context (libraryVisits cfg library)
    { db := db }
  exact keyed.of_same same.1 same.2

theorem le_reconcile_counter (context : Context) (cfg : Config)
    (library : Library) (outcomes : Nat → Db.AllocateOutcome) (db : Db) :
    db.nextSequence ≤
      (reconcileLibrary context cfg library outcomes
        db).1.db.nextSequence := by
  have same := scan_sequences context (libraryVisits cfg library)
    { db := db }
  unfold reconcileLibrary
  refine Nat.le_trans (Nat.le_of_eq ?_) (le_reserve_counter _ _ _)
  simp only [scanLibrary_eq, same.2]

end Counter

end Reconcile

end RawImport
