import Mathlib.Tactic.Linarith

/-!
# Times kept apart by a mark that expires

An event is allowed while its mark is absent, and leaves a mark with its time.
The mark is dropped when it is older than the gap.  So the times of the events
are more than the gap apart.
-/

namespace Spacing

/-- The times of the events so far, latest first, their mark, and the time
that the next one can have. -/
structure Spaced (gap horizon : Int) (mark : Option Int) (times : List Int) :
    Prop where
  apart : times.Pairwise fun later earlier => gap < later - earlier
  within : ∀ time ∈ times, time ≤ horizon
  marked : ∀ stamp, mark = some stamp → ∀ time ∈ times, time ≤ stamp
  unmarked : mark = none → ∀ time ∈ times, time + gap < horizon

namespace Spaced

variable {gap horizon next : Int} {mark : Option Int} {times : List Int}

theorem nil (gap horizon : Int) (mark : Option Int) :
    Spaced gap horizon mark [] where
  apart := List.Pairwise.nil
  within := nofun
  marked _ _ := nofun
  unmarked _ := nofun

theorem later (spaced : Spaced gap horizon mark times)
    (le : horizon ≤ next) : Spaced gap next mark times where
  apart := spaced.apart
  within time member := (spaced.within time member).trans le
  marked := spaced.marked
  unmarked absent time member :=
    (spaced.unmarked absent time member).trans_le le

theorem event (spaced : Spaced gap horizon none times) :
    Spaced gap horizon (some horizon) (horizon :: times) := by
  have bounded : ∀ time ∈ horizon :: times, time ≤ horizon := by
    intro time member
    rcases List.mem_cons.mp member with rfl | old
    · exact le_refl _
    · exact spaced.within time old
  refine ⟨List.pairwise_cons.mpr ⟨?_, spaced.apart⟩, bounded, ?_, nofun⟩
  · intro time member
    have before := spaced.unmarked rfl time member
    omega
  · intro stamp left
    cases left
    exact bounded

theorem expire {stamp : Int} (spaced : Spaced gap horizon (some stamp) times)
    (le : horizon ≤ next) (old : gap < next - stamp) :
    Spaced gap next none times where
  apart := spaced.apart
  within time member := (spaced.within time member).trans le
  marked _ := nofun
  unmarked _ time member := by
    have before := spaced.marked stamp rfl time member
    omega

end Spaced

theorem first_add_le {gap bound first : Int} {times : List Int}
    (apart : times.Pairwise fun later earlier => gap < later - earlier)
    (within : ∀ time ∈ times, time ≤ bound)
    (last : times.getLast? = some first) :
    first + gap * (times.length - 1) ≤ bound := by
  induction times generalizing bound with
  | nil => cases last
  | cons time times ih =>
      rw [List.pairwise_cons] at apart
      rw [List.forall_mem_cons] at within
      cases times with
      | nil =>
          cases last
          simpa using within.1
      | cons next times =>
          have before : ∀ other ∈ next :: times, other ≤ time - gap := by
            intro other member
            have between := apart.1 other member
            omega
          have earlier := ih apart.2 before last
          rw [List.length_cons, Int.natCast_succ]
          linarith

end Spacing
