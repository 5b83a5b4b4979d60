import Mathlib.Algebra.Order.BigOperators.Group.Finset
import Mathlib.Algebra.Order.Ring.Int
import Mathlib.Data.Fintype.Card
import RawImport.Lib.Measure

/-!
# Postings to a ledger

Parties decide on postings to one total and make them later, one by one.  The
balance of a party is what its position is worth less what it still has to
post.  The total is bounded by the balances.
-/

namespace Ledger

universe u v

variable {ι : Type u} {κ : Type v}

def worth (delta : κ → Int) (postings : List κ) : Int :=
  (postings.map delta).sum

@[simp] theorem worth_nil (delta : κ → Int) : worth delta [] = 0 :=
  rfl

@[simp] theorem worth_cons (delta : κ → Int) (posting : κ)
    (postings : List κ) :
    worth delta (posting :: postings) =
      delta posting + worth delta postings := by
  simp [worth]

/-- Where a party stands and what it still has to post. -/
structure Party (κ : Type v) where
  level : Int
  pending : List κ

namespace Party

def balance (delta : κ → Int) (party : Party κ) : Int :=
  party.level - worth delta party.pending

/-- The balance stays within the bound while the party posts. -/
def Fits (delta : κ → Int) (cap : Int) (party : Party κ) : Prop :=
  ∀ rest, rest <:+ party.pending → party.level - worth delta rest ≤ cap

theorem Fits.balance_le {delta : κ → Int} {cap : Int} {party : Party κ}
    (fits : party.Fits delta cap) : party.balance delta ≤ cap :=
  fits party.pending (List.suffix_refl _)

theorem Fits.post {delta : κ → Int} {cap level : Int} {posting : κ}
    {rest : List κ}
    (fits : Fits delta cap ⟨level, posting :: rest⟩) :
    Fits delta cap ⟨level, rest⟩ := by
  intro later suffix
  exact fits later (suffix.trans (List.suffix_cons posting rest))

@[simp] theorem fits_nil {delta : κ → Int} {cap level : Int} :
    Fits delta cap ⟨level, []⟩ ↔ level ≤ cap := by
  constructor
  · intro fits
    have bound := fits [] (List.suffix_refl _)
    rwa [worth_nil, Int.sub_zero] at bound
  · intro bound rest suffix
    rw [List.suffix_nil.mp suffix, worth_nil, Int.sub_zero]
    exact bound

@[simp] theorem fits_cons {delta : κ → Int} {cap level : Int} {posting : κ}
    {rest : List κ} :
    Fits delta cap ⟨level, posting :: rest⟩ ↔
      level - worth delta (posting :: rest) ≤ cap ∧
        Fits delta cap ⟨level, rest⟩ := by
  constructor
  · intro fits
    exact ⟨fits.balance_le, fits.post⟩
  · intro both later suffix
    obtain ⟨whole, fits⟩ := both
    rcases List.suffix_cons_iff.mp suffix with same | behind
    · rw [same]
      exact whole
    · exact fits later behind

def within (delta : κ → Int) (cap level : Int) : List κ → Bool
  | [] => decide (level ≤ cap)
  | posting :: rest =>
      decide (level - worth delta (posting :: rest) ≤ cap) &&
        within delta cap level rest

theorem fits_iff_within {delta : κ → Int} {cap level : Int}
    {pending : List κ} :
    Fits delta cap ⟨level, pending⟩ ↔ within delta cap level pending := by
  induction pending with
  | nil => simp [within]
  | cons posting rest ih => simp [within, ih]

end Party

/-- The total against the parties. -/
structure Books [Fintype ι] (delta : κ → Int) (cap : Int) (total : Int)
    (parties : ι → Party κ) : Prop where
  total_le : total ≤ ∑ i, (parties i).balance delta
  fits : ∀ i, (parties i).Fits delta cap

section Rules

variable [Fintype ι] {delta : κ → Int} {cap total : Int}
  {parties : ι → Party κ}

theorem Books.total_le_card (books : Books delta cap total parties) :
    total ≤ Fintype.card ι * cap := by
  have each : ∀ i ∈ (Finset.univ : Finset ι),
      (parties i).balance delta ≤ cap :=
    fun i _ => (books.fits i).balance_le
  have sum := Finset.sum_le_card_nsmul _ _ _ each
  rw [Finset.card_univ, nsmul_eq_mul] at sum
  exact books.total_le.trans sum

variable [DecidableEq ι]

/-- A party decides: its new position is worth no less than the old one and
what it decides to post. -/
theorem Books.move (books : Books delta cap total parties) {i : ι}
    {party : Party κ} (grows : (parties i).balance delta ≤
      party.balance delta) (fits : party.Fits delta cap) :
    Books delta cap total (Function.update parties i party) := by
  constructor
  · have change := Transition.sum_update (Party.balance delta) parties i party
    have before := books.total_le
    omega
  · intro other
    by_cases same : other = i
    · subst same
      rw [Function.update_self]
      exact fits
    · rw [Function.update_of_ne same]
      exact books.fits other

theorem Books.post (books : Books delta cap total parties) {i : ι}
    {posting : κ} {rest : List κ}
    (pending : (parties i).pending = posting :: rest) :
    Books delta cap (total + delta posting)
      (Function.update parties i ⟨(parties i).level, rest⟩) := by
  have standing : parties i = ⟨(parties i).level, posting :: rest⟩ := by
    rw [← pending]
  have fits := books.fits i
  rw [standing] at fits
  constructor
  · have change := Transition.sum_update (Party.balance delta) parties i
      ⟨(parties i).level, rest⟩
    have before := books.total_le
    have own : (parties i).balance delta + delta posting =
        Party.balance delta ⟨(parties i).level, rest⟩ := by
      rw [standing]
      simp only [Party.balance, worth_cons]
      omega
    omega
  · intro other
    by_cases same : other = i
    · subst same
      rw [Function.update_self]
      exact fits.post
    · rw [Function.update_of_ne same]
      exact books.fits other

end Rules

end Ledger
