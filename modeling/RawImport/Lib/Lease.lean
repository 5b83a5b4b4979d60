import Mathlib.Order.Lattice
import Mathlib.Logic.Function.Basic

/-!
# Expiring locks

A lock table keeps at most one row per item, with its owner and its expiry.
Beside it stands what the owners believe: the expiry of the lock each of them
was last granted and has not given back.  Nothing forces the two to agree;
the rules below say which grants and which releases keep them in agreement.
-/

namespace Lease

universe u v w

variable {ι : Type u} {κ : Type v} {τ : Type w}

structure Row (κ : Type v) (τ : Type w) where
  workerId : κ
  expiresAt : τ
  deriving DecidableEq, Repr

/-- The time, the table and the beliefs. -/
structure Book (ι : Type u) (κ : Type v) (τ : Type w) where
  now : τ
  row : ι → Option (Row κ τ)
  held : κ → ι → Option τ

namespace Book

def advance (book : Book ι κ τ) (later : τ) : Book ι κ τ :=
  { book with now := later }

section Beliefs

variable [LinearOrder τ]

/-- The owner was granted the item, has not released it, and its time has not
run out. -/
def Holds (book : Book ι κ τ) (owner : κ) (item : ι) : Prop :=
  ∃ expiry ∈ book.held owner item, book.now < expiry

def Foreign (book : Book ι κ τ) (owner : κ) (item : ι) : Prop :=
  ∃ row ∈ book.row item, book.now < row.expiresAt ∧ row.workerId ≠ owner

instance (book : Book ι κ τ) (owner : κ) (item : ι) :
    Decidable (book.Holds owner item) :=
  inferInstanceAs (Decidable (∃ expiry ∈ book.held owner item, _))

instance [DecidableEq κ] (book : Book ι κ τ) (owner : κ) (item : ι) :
    Decidable (book.Foreign owner item) :=
  inferInstanceAs (Decidable (∃ row ∈ book.row item, _ ∧ _))

def Exclusive (book : Book ι κ τ) : Prop :=
  ∀ item first second, book.Holds first item → book.Holds second item →
    first = second

def Recorded (book : Book ι κ τ) : Prop :=
  ∀ owner item expiry, book.held owner item = some expiry →
    book.now < expiry → book.row item = some ⟨owner, expiry⟩

def Claimed (book : Book ι κ τ) : Prop :=
  ∀ owner item expiry, book.row item = some ⟨owner, expiry⟩ →
    book.now < expiry → book.held owner item = some expiry

theorem Recorded.exclusive {book : Book ι κ τ} (recorded : book.Recorded) :
    book.Exclusive := by
  intro item first second holdsFirst holdsSecond
  obtain ⟨expiry, belief, live⟩ := holdsFirst
  obtain ⟨expiry', belief', live'⟩ := holdsSecond
  have row := recorded first item expiry belief live
  have row' := recorded second item expiry' belief' live'
  rw [row] at row'
  cases row'
  rfl

/-- Under `Recorded`, a row of someone else leaves the owner without a
hold. -/
theorem Recorded.not_holds_of_foreign {book : Book ι κ τ}
    (recorded : book.Recorded) {owner : κ} {item : ι}
    (foreign : book.Foreign owner item) : ¬book.Holds owner item := by
  intro holds
  obtain ⟨row, present, -, different⟩ := foreign
  obtain ⟨expiry, belief, live⟩ := holds
  have own := recorded owner item expiry belief live
  rw [own] at present
  cases present
  exact different rfl

theorem Claimed.holder_of_foreign {book : Book ι κ τ}
    (claimed : book.Claimed) {owner : κ} {item : ι}
    (foreign : book.Foreign owner item) :
    ∃ other, other ≠ owner ∧ book.Holds other item := by
  obtain ⟨row, present, live, different⟩ := foreign
  have belief := claimed row.workerId item row.expiresAt present live
  exact ⟨row.workerId, different, row.expiresAt, belief, live⟩

theorem Recorded.foreign_of_holder {book : Book ι κ τ}
    (recorded : book.Recorded) {owner other : κ} {item : ι}
    (different : other ≠ owner) (holds : book.Holds other item) :
    book.Foreign owner item := by
  obtain ⟨expiry, belief, live⟩ := holds
  have row := recorded other item expiry belief live
  exact ⟨⟨other, expiry⟩, row, live, different⟩

theorem Recorded.advance {book : Book ι κ τ}
    (recorded : book.Recorded) {later : τ}
    (forward : book.now ≤ later) : (book.advance later).Recorded := by
  intro other item expiry belief live
  exact recorded other item expiry belief (lt_of_le_of_lt forward live)

theorem Claimed.advance {book : Book ι κ τ}
    (claimed : book.Claimed) {later : τ}
    (forward : book.now ≤ later) : (book.advance later).Claimed := by
  intro other item expiry present live
  exact claimed other item expiry present (lt_of_le_of_lt forward live)

end Beliefs

section Operations

variable [DecidableEq ι] [DecidableEq κ]

/-- Write the owner's row, whatever stands there. -/
def grant (book : Book ι κ τ) (owner : κ) (item : ι) (expiry : τ) :
    Book ι κ τ :=
  { book with
    row := Function.update book.row item (some ⟨owner, expiry⟩)
    held := Function.update book.held owner
      (Function.update (book.held owner) item (some expiry)) }

/-- A grant that also ends the holds it overrides. -/
def takeOver (book : Book ι κ τ) (owner : κ) (item : ι) (expiry : τ) :
    Book ι κ τ :=
  { book with
    row := Function.update book.row item (some ⟨owner, expiry⟩)
    held := fun other => Function.update (book.held other) item
      (if other = owner then some expiry else none) }

def release (book : Book ι κ τ) (owner : κ) (item : ι) : Book ι κ τ :=
  { book with
    row := Function.update book.row item none
    held := Function.update book.held owner
      (Function.update (book.held owner) item none) }

section Beliefs

variable {book : Book ι κ τ} {owner other : κ} {item item' : ι}
  {expiry : τ}

@[simp] theorem grant_row_same :
    (book.grant owner item expiry).row item = some ⟨owner, expiry⟩ := by
  simp [grant]

theorem grant_row_other (different : item' ≠ item) :
    (book.grant owner item expiry).row item' = book.row item' := by
  simp [grant, different]

@[simp] theorem grant_held_same :
    (book.grant owner item expiry).held owner item = some expiry := by
  simp [grant]

theorem grant_held_other (different : other ≠ owner ∨ item' ≠ item) :
    (book.grant owner item expiry).held other item' =
      book.held other item' := by
  by_cases same : other = owner
  · subst same
    have differs : item' ≠ item := different.resolve_left (· rfl)
    simp [grant, differs]
  · simp [grant, same]

@[simp] theorem takeOver_row_same :
    (book.takeOver owner item expiry).row item = some ⟨owner, expiry⟩ := by
  simp [takeOver]

theorem takeOver_row_other (different : item' ≠ item) :
    (book.takeOver owner item expiry).row item' = book.row item' := by
  simp [takeOver, different]

theorem takeOver_held_same :
    (book.takeOver owner item expiry).held other item =
      if other = owner then some expiry else none := by
  simp [takeOver]

theorem takeOver_held_other (different : item' ≠ item) :
    (book.takeOver owner item expiry).held other item' =
      book.held other item' := by
  simp [takeOver, different]

@[simp] theorem release_row_same :
    (book.release owner item).row item = none := by
  simp [release]

theorem release_row_other (different : item' ≠ item) :
    (book.release owner item).row item' = book.row item' := by
  simp [release, different]

@[simp] theorem release_held_same :
    (book.release owner item).held owner item = none := by
  simp [release]

theorem release_held_other (different : other ≠ owner ∨ item' ≠ item) :
    (book.release owner item).held other item' =
      book.held other item' := by
  by_cases same : other = owner
  · subst same
    have differs : item' ≠ item := different.resolve_left (· rfl)
    simp [release, differs]
  · simp [release, same]

end Beliefs

section Agreement

variable [LinearOrder τ] {book : Book ι κ τ} {owner : κ} {item : ι}
  {expiry : τ}

theorem Recorded.grant (recorded : book.Recorded)
    (free : ¬book.Foreign owner item) :
    (book.grant owner item expiry).Recorded := by
  intro other item' expiry' belief live
  by_cases sameItem : item' = item
  · subst sameItem
    by_cases sameOwner : other = owner
    · subst sameOwner
      rw [grant_held_same] at belief
      cases belief
      exact grant_row_same
    · rw [grant_held_other (.inl sameOwner)] at belief
      have holds : book.Holds other item' := ⟨expiry', belief, live⟩
      exact (free (recorded.foreign_of_holder sameOwner holds)).elim
  · rw [grant_held_other (.inr sameItem)] at belief
    rw [grant_row_other sameItem]
    exact recorded other item' expiry' belief live

theorem Claimed.grant (claimed : book.Claimed) :
    (book.grant owner item expiry).Claimed := by
  intro other item' expiry' present live
  by_cases sameItem : item' = item
  · subst sameItem
    rw [grant_row_same] at present
    cases present
    exact grant_held_same
  · rw [grant_row_other sameItem] at present
    rw [grant_held_other (.inr sameItem)]
    exact claimed other item' expiry' present live

theorem Recorded.takeOver (recorded : book.Recorded) :
    (book.takeOver owner item expiry).Recorded := by
  intro other item' expiry' belief live
  by_cases sameItem : item' = item
  · subst sameItem
    rw [takeOver_held_same] at belief
    split at belief
    · rename_i same
      subst same
      cases belief
      exact takeOver_row_same
    · cases belief
  · rw [takeOver_held_other sameItem] at belief
    rw [takeOver_row_other sameItem]
    exact recorded other item' expiry' belief live

theorem Claimed.takeOver (claimed : book.Claimed) :
    (book.takeOver owner item expiry).Claimed := by
  intro other item' expiry' present live
  by_cases sameItem : item' = item
  · subst sameItem
    rw [takeOver_row_same] at present
    cases present
    rw [takeOver_held_same]
    exact if_pos rfl
  · rw [takeOver_row_other sameItem] at present
    rw [takeOver_held_other sameItem]
    exact claimed other item' expiry' present live

theorem Recorded.release (recorded : book.Recorded)
    (free : ¬book.Foreign owner item) :
    (book.release owner item).Recorded := by
  intro other item' expiry' belief live
  by_cases sameItem : item' = item
  · subst sameItem
    by_cases sameOwner : other = owner
    · subst sameOwner
      rw [release_held_same] at belief
      cases belief
    · rw [release_held_other (.inl sameOwner)] at belief
      have holds : book.Holds other item' := ⟨expiry', belief, live⟩
      exact (free (recorded.foreign_of_holder sameOwner holds)).elim
  · rw [release_held_other (.inr sameItem)] at belief
    rw [release_row_other sameItem]
    exact recorded other item' expiry' belief live

theorem Claimed.release (claimed : book.Claimed) :
    (book.release owner item).Claimed := by
  intro other item' expiry' present live
  by_cases sameItem : item' = item
  · subst sameItem
    rw [release_row_same] at present
    cases present
  · rw [release_row_other sameItem] at present
    rw [release_held_other (.inr sameItem)]
    exact claimed other item' expiry' present live

/-- A grant with time left over another owner's row makes two holders. -/
theorem Claimed.not_exclusive_of_grant (claimed : book.Claimed)
    (foreign : book.Foreign owner item) (live : book.now < expiry) :
    ¬(book.grant owner item expiry).Exclusive := by
  intro exclusive
  obtain ⟨other, different, expiry', belief, live'⟩ :=
    claimed.holder_of_foreign foreign
  have holdsOther : (book.grant owner item expiry).Holds other item :=
    ⟨expiry', (grant_held_other (.inl different)).trans belief, live'⟩
  have holdsOwner : (book.grant owner item expiry).Holds owner item :=
    ⟨expiry, grant_held_same, live⟩
  exact different (exclusive item other owner holdsOther holdsOwner)

end Agreement

end Operations

end Book

end Lease
