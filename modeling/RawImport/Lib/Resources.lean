import Mathlib.Data.List.Perm.Basic
import Mathlib.Logic.Function.Basic

/-!
# Numbered resources with owners

Descriptors and process ids: the kernel hands out a number that is not in use,
and a number that was given back may be handed out again.  Giving back one that
one does not own hits somebody else.
-/

namespace Resources

variable {π : Type}

/-- The owners of the numbers in use. -/
structure Table (π : Type) where
  owner : Nat → Option π
  misused : Bool := false

namespace Table

def acquire (table : Table π) (party : π) (id : Nat) : Option (Table π) :=
  if table.owner id = none then
    some { table with owner := Function.update table.owner id (some party) }
  else none

def release [DecidableEq π] (table : Table π) (party : π) (id : Nat) :
    Table π :=
  if table.owner id = some party then
    { table with owner := Function.update table.owner id none }
  else { table with misused := true }

/-- The party owns these numbers and no other, and nothing was misused. -/
structure Holds (table : Table π) (party : π) (ids : List Nat) : Prop where
  nodup : ids.Nodup
  owns : ∀ id, table.owner id = some party ↔ id ∈ ids
  proper : table.misused = false

variable {table next : Table π} {party other : π} {ids : List Nat} {id : Nat}

theorem Holds.acquire (holds : table.Holds party ids)
    (taken : table.acquire party id = some next) :
    next.Holds party (id :: ids) := by
  unfold Table.acquire at taken
  split at taken
  · rename_i free
    cases taken
    have fresh : id ∉ ids := by
      intro member
      have owned := (holds.owns id).mpr member
      rw [free] at owned
      cases owned
    refine ⟨List.nodup_cons.mpr ⟨fresh, holds.nodup⟩, ?_, holds.proper⟩
    intro other
    by_cases same : other = id
    · rw [same]
      exact iff_of_true (Function.update_self _ _ _) List.mem_cons_self
    · rw [List.mem_cons, or_iff_right same, ← holds.owns other]
      simp only [Function.update_of_ne same]
  · cases taken

theorem Holds.acquire_other (holds : table.Holds party ids)
    (different : other ≠ party) (taken : table.acquire other id = some next) :
    next.Holds party ids := by
  unfold Table.acquire at taken
  split at taken
  · rename_i free
    cases taken
    refine ⟨holds.nodup, ?_, holds.proper⟩
    intro place
    rw [← holds.owns place]
    by_cases same : place = id
    · subst same
      have changed : some other ≠ some party := fun equal =>
        different (Option.some.inj equal)
      rw [free]
      simp only [Function.update_self]
      exact iff_of_false changed nofun
    · simp only [Function.update_of_ne same]
  · cases taken

theorem Holds.release [DecidableEq π] (holds : table.Holds party ids)
    (member : id ∈ ids) :
    (table.release party id).Holds party (ids.erase id) := by
  unfold Table.release
  rw [if_pos ((holds.owns id).mpr member)]
  refine ⟨holds.nodup.erase id, ?_, holds.proper⟩
  intro place
  rw [holds.nodup.mem_erase_iff, ← holds.owns place]
  by_cases same : place = id
  · subst same
    simp only [Function.update_self]
    exact iff_of_false nofun fun both => both.1 rfl
  · simp only [Function.update_of_ne same]
    exact (and_iff_right same).symm

theorem Holds.release_head [DecidableEq π]
    (holds : table.Holds party (id :: ids)) :
    (table.release party id).Holds party ids := by
  have released := holds.release List.mem_cons_self
  rwa [List.erase_cons_head] at released

theorem Holds.release_other [DecidableEq π]
    (holds : table.Holds party ids) (different : other ≠ party)
    (owned : table.owner id = some other) :
    (table.release other id).Holds party ids := by
  unfold Table.release
  rw [if_pos owned]
  refine ⟨holds.nodup, ?_, holds.proper⟩
  intro place
  rw [← holds.owns place]
  by_cases same : place = id
  · subst same
    have changed : some other ≠ some party := fun equal =>
      different (Option.some.inj equal)
    rw [owned]
    simp only [Function.update_self]
    exact iff_of_false nofun changed
  · simp only [Function.update_of_ne same]

theorem Holds.perm (holds : table.Holds party ids) {order : List Nat}
    (same : ids.Perm order) : table.Holds party order :=
  ⟨same.nodup_iff.mp holds.nodup,
    fun id => (holds.owns id).trans same.mem_iff, holds.proper⟩

end Table

end Resources
