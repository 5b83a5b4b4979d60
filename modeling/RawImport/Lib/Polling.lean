import Mathlib.Order.Nat

/-!
# Polling until an event or a deadline

Each round looks for the event, then at the clock, then sleeps.  Rounds are a
gap apart, so one of them finds the deadline passed.
-/

namespace Polling

/-- The times at which the rounds look for the event and at the clock. -/
structure Schedule (gap : Nat) where
  looks : Nat → Nat
  clocks : Nat → Nat
  order : ∀ round, looks round ≤ clocks round
  sleep : ∀ round, clocks round + gap ≤ looks (round + 1)

variable {gap : Nat} {α : Type}

/-- The event that a look at the given time finds. -/
abbrev Event (α : Type) := Option (Nat × α)

def Event.seen (event : Event α) (time : Nat) : Option α :=
  match event with
  | some (start, value) => if start ≤ time then some value else none
  | none => none

/-- What ends the loop, and in which round. -/
inductive Ended (α : Type) where
  | found (round : Nat) (value : α)
  | late (round : Nat)
  deriving DecidableEq, Repr

/-- The loop; the first argument bounds the rounds that are left. -/
def poll (schedule : Schedule gap) (event : Event α) (deadline : Nat) :
    Nat → Nat → Option (Ended α)
  | 0, _ => none
  | rounds + 1, round =>
      match event.seen (schedule.looks round) with
      | some value => some (.found round value)
      | none =>
          if deadline ≤ schedule.clocks round then some (.late round)
          else poll schedule event deadline rounds (round + 1)

variable {schedule : Schedule gap} {event : Event α} {deadline : Nat}

theorem Schedule.clocks_ge (schedule : Schedule gap) (round : Nat) :
    gap * round ≤ schedule.clocks round := by
  induction round with
  | zero => exact Nat.zero_le _
  | succ round ih =>
      have slept := schedule.sleep round
      have ordered := schedule.order (round + 1)
      rw [Nat.mul_succ]
      omega

theorem Schedule.looks_mono (schedule : Schedule gap) {first second : Nat}
    (le : first ≤ second) : schedule.looks first ≤ schedule.looks second := by
  induction second, le using Nat.le_induction with
  | base => exact Nat.le_refl _
  | succ second _ ih =>
      have slept := schedule.sleep second
      have ordered := schedule.order second
      omega

theorem Event.seen_mono {first second : Nat} {value : α} (le : first ≤ second)
    (seen : event.seen first = some value) :
    event.seen second = some value := by
  unfold Event.seen at seen ⊢
  split at seen
  · rename_i start found
    split at seen
    · rename_i early
      cases seen
      exact if_pos (early.trans le)
    · cases seen
  · cases seen

/-- The round whose look at the clock finds the deadline passed. -/
structure Last (schedule : Schedule gap) (deadline round : Nat) : Prop where
  passed : deadline ≤ schedule.clocks round
  first : ∀ earlier, earlier < round → schedule.clocks earlier < deadline

theorem exists_last (schedule : Schedule gap) (positive : 0 < gap)
    (deadline : Nat) :
    ∃ round, Last schedule deadline round ∧ gap * round < deadline + gap := by
  have some' : ∃ round, deadline ≤ schedule.clocks round := by
    refine ⟨deadline, ?_⟩
    have bound := schedule.clocks_ge deadline
    have large := Nat.le_mul_of_pos_left deadline positive
    omega
  classical
  refine ⟨Nat.find some', ⟨Nat.find_spec some', fun earlier less =>
    Nat.lt_of_not_le (Nat.find_min some' less)⟩, ?_⟩
  cases found : Nat.find some' with
  | zero => omega
  | succ round =>
      have before : schedule.clocks round < deadline := by
        apply Nat.lt_of_not_le
        exact Nat.find_min some' (found ▸ Nat.lt_succ_self round)
      have bound := schedule.clocks_ge round
      rw [Nat.mul_succ]
      omega

theorem poll_eq {last : Nat} (final : Last schedule deadline last)
    {rounds round : Nat} (le : round ≤ last) (enough : last < round + rounds)
    (unseen : ∀ earlier, earlier < round →
      event.seen (schedule.looks earlier) = none) :
    ∃ ended, poll schedule event deadline rounds round = some ended ∧
      match ended with
      | .found at_ value => at_ ≤ last ∧
          event.seen (schedule.looks at_) = some value ∧
          ∀ earlier, earlier < at_ →
            event.seen (schedule.looks earlier) = none
      | .late at_ => at_ = last ∧
          event.seen (schedule.looks last) = none := by
  induction rounds generalizing round with
  | zero => omega
  | succ rounds ih =>
      unfold poll
      cases look : event.seen (schedule.looks round) with
      | some value => exact ⟨_, rfl, le, look, unseen⟩
      | none =>
          rcases Nat.lt_or_eq_of_le le with less | same
          · have early := final.first round less
            rw [if_neg (Nat.not_le.mpr early)]
            apply ih less (by omega)
            intro earlier before
            rcases Nat.lt_succ_iff_lt_or_eq.mp before with old | now
            · exact unseen earlier old
            · rw [now]
              exact look
          · rw [if_pos (same ▸ final.passed)]
            exact ⟨_, rfl, same, same ▸ look⟩

end Polling
