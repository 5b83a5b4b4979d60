import Mathlib.Data.Nat.Find
import Mathlib.Data.Set.Insert

/-!
# Segments between two marks

A mark is a pair of neighbours in a list.  A segment begins at an opening mark
and ends behind the first closing mark that follows.  Where the two marks
cannot overlap, all segments that begin inside one end with it.
-/

namespace Segments

universe u

variable {α : Type u}

/-- The marks of a segment: no mark begins with the end of another, and their
ends differ. -/
structure Marks (α : Type u) where
  opening : α × α
  closing : α × α
  begins : opening.2 ≠ closing.1
  ends : opening.2 ≠ closing.2
  follows : closing.2 ≠ opening.1

def At (data : List α) (mark : α × α) (position : Nat) : Prop :=
  data[position]? = some mark.1 ∧ data[position + 1]? = some mark.2

instance [DecidableEq α] (data : List α) (mark : α × α) (position : Nat) :
    Decidable (At data mark position) :=
  inferInstanceAs (Decidable (_ ∧ _))

/-- The first position from `start` on at which the mark stands. -/
structure First (data : List α) (mark : α × α) (start position : Nat) :
    Prop where
  behind : start ≤ position
  stands : At data mark position
  least : ∀ other, start ≤ other → At data mark other → position ≤ other

/-- A segment, with the position of its closing mark. -/
structure Segment (marks : Marks α) (data : List α) (start stop : Nat) :
    Prop where
  opens : At data marks.opening start
  closes : First data marks.closing (start + 2) stop

/-- Of the segments that begin at the given positions, the first of the
longest; its length is 0 when there is none. -/
structure LongestAmong (marks : Marks α) (data : List α) (starts : Set Nat)
    (start length : Nat) : Prop where
  none : length = 0 → start = 0
  segment : length ≠ 0 → start ∈ starts ∧
    ∃ stop, Segment marks data start stop ∧ length = stop + 2 - start
  longest : ∀ other stop, other ∈ starts → Segment marks data other stop →
    stop + 2 - other ≤ length
  leftmost : ∀ other stop, other ∈ starts → Segment marks data other stop →
    stop + 2 - other = length → start ≤ other

def jpegMarks : Marks UInt8 where
  opening := (0xff, 0xd8)
  closing := (0xff, 0xd9)
  begins := by decide
  ends := by decide
  follows := by decide

/-- Look for a mark, one position after the other. -/
def findMark [DecidableEq α] (mark : α × α) (data : List α) (start : Nat) :
    Option Nat :=
  if start + 1 < data.length then
    if At data mark start then some start
    else findMark mark data (start + 1)
  else none
termination_by data.length - start

section Rules

variable {marks : Marks α} {data : List α} {mark : α × α}
  {start stop position length : Nat} {starts wider : Set Nat}

theorem At.bound (stands : At data mark position) :
    position + 1 < data.length :=
  (List.getElem?_eq_some_iff.mp stands.2).1

theorem At.unique {other : α × α} (stands : At data mark position)
    (stands' : At data other position) : mark = other := by
  have first := stands.1.symm.trans stands'.1
  have second := stands.2.symm.trans stands'.2
  exact Prod.ext (Option.some.inj first) (Option.some.inj second)

theorem At.next {other : α × α} (stands : At data mark position)
    (follows : At data other (position + 1)) : mark.2 = other.1 :=
  Option.some.inj (stands.2.symm.trans follows.1)

theorem at_append_right {front : List α} :
    At (front ++ data) mark (front.length + position) ↔
      At data mark position := by
  unfold At
  rw [Nat.add_assoc, List.getElem?_append_right (Nat.le_add_right _ _),
    List.getElem?_append_right (Nat.le_add_right _ _),
    Nat.add_sub_cancel_left, Nat.add_sub_cancel_left]

theorem at_append_left {back : List α}
    (bound : position + 1 < data.length) :
    At (data ++ back) mark position ↔ At data mark position := by
  unfold At
  rw [List.getElem?_append_left (by omega), List.getElem?_append_left bound]

theorem First.unique {other : Nat} (first : First data mark start position)
    (second : First data mark start other) : position = other :=
  Nat.le_antisymm (first.least other second.behind second.stands)
    (second.least position first.behind first.stands)

theorem exists_first (stands : At data mark position)
    (behind : start ≤ position) : ∃ first, First data mark start first := by
  classical
  have somewhere : ∃ other, start ≤ other ∧ At data mark other :=
    ⟨position, behind, stands⟩
  obtain ⟨first, there⟩ := Nat.find_spec somewhere
  exact ⟨_, first, there, fun other later stands =>
    Nat.find_min' somewhere ⟨later, stands⟩⟩

section Search

variable [DecidableEq α]

theorem findMark_eq_some :
    findMark mark data start = some position ↔
      First data mark start position := by
  fun_induction findMark mark data start with
  | case1 start bound stands =>
      constructor
      · intro found
        cases found
        exact ⟨Nat.le_refl _, stands, fun _ behind _ => behind⟩
      · intro first
        exact congrArg some (Nat.le_antisymm first.behind
          (first.least start (Nat.le_refl _) stands))
  | case2 start bound misses ih =>
      rw [ih]
      constructor
      · intro first
        refine ⟨Nat.le_of_succ_le first.behind, first.stands, ?_⟩
        intro other behind stands
        have different : start ≠ other :=
          fun same => misses (same ▸ stands)
        exact first.least other (by omega) stands
      · intro first
        have different : start ≠ position :=
          fun same => misses (same ▸ first.stands)
        have behind := first.behind
        exact ⟨by omega, first.stands, fun other later stands =>
          first.least other (Nat.le_of_succ_le later) stands⟩
  | case3 start ended =>
      constructor
      · intro found
        cases found
      · intro first
        have bound := first.stands.bound
        have behind := first.behind
        exact absurd (by omega) ended

theorem findMark_eq_none (missing : findMark mark data start = none)
    (behind : start ≤ position) : ¬At data mark position := by
  intro stands
  obtain ⟨first, there⟩ := exists_first stands behind
  rw [findMark_eq_some.mpr there] at missing
  cases missing

end Search

theorem Segment.nested {inner other : Nat}
    (outer : Segment marks data start stop)
    (segment : Segment marks data inner other) (behind : start < inner)
    (before : inner < stop + 2) : other = stop := by
  have inside : inner + 2 ≤ stop := by
    by_contra near
    have places : inner + 1 = stop ∨ inner = stop ∨ inner = stop + 1 := by
      omega
    have closes := outer.closes.stands
    rcases places with left | same | right
    · rw [← left] at closes
      exact marks.begins (segment.opens.next closes)
    · rw [← same] at closes
      exact marks.ends (congrArg Prod.snd (segment.opens.unique closes))
    · have opens := segment.opens
      rw [right] at opens
      exact marks.follows (closes.next opens)
  apply Nat.le_antisymm
  · exact segment.closes.least stop inside outer.closes.stands
  · have behindEnd := segment.closes.behind
    exact outer.closes.least other (by omega) segment.closes.stands

theorem LongestAmong.widen
    (among : LongestAmong marks data starts start length)
    (more : starts ⊆ wider)
    (no_more : ∀ other stop, other ∈ wider → Segment marks data other stop →
      other ∈ starts) : LongestAmong marks data wider start length where
  none := among.none
  segment := fun found =>
    ⟨more (among.segment found).1, (among.segment found).2⟩
  longest := fun other stop member segment =>
    among.longest other stop (no_more other stop member segment) segment
  leftmost := fun other stop member segment =>
    among.leftmost other stop (no_more other stop member segment) segment

theorem LongestAmong.empty : LongestAmong marks data ∅ 0 0 where
  none := fun _ => rfl
  segment := fun found => absurd rfl found
  longest := fun _ _ member => member.elim
  leftmost := fun _ _ member => member.elim

theorem Segment.longest_inside {inner other : Nat}
    (outer : Segment marks data start stop)
    (segment : Segment marks data inner other) (behind : start ≤ inner)
    (before : inner < stop + 2) : other + 2 - inner ≤ stop + 2 - start := by
  have same : other = stop := by
    cases Nat.eq_or_lt_of_le behind with
    | inl first =>
        rw [← first] at segment
        exact segment.closes.unique outer.closes
    | inr inside => exact outer.nested segment inside before
  omega

/-- Behind the positions before a segment come its own and those inside. -/
theorem LongestAmong.skip {found : Nat}
    (among : LongestAmong marks data {other | other < found} start length)
    (segment : Segment marks data found stop)
    (shorter : stop + 2 - found ≤ length) :
    LongestAmong marks data {other | other < stop + 2} start length := by
  have ordered := segment.closes.behind
  constructor
  · exact among.none
  · intro some
    obtain ⟨before, rest⟩ := among.segment some
    have here : start < found := before
    refine ⟨?_, rest⟩
    show start < stop + 2
    omega
  · intro other end' member other_segment
    have before : other < stop + 2 := member
    by_cases earlier : other < found
    · exact among.longest other end' earlier other_segment
    · have inside := segment.longest_inside other_segment
        (Nat.le_of_not_lt earlier) before
      omega
  · intro other end' member other_segment equal
    by_cases earlier : other < found
    · exact among.leftmost other end' earlier other_segment equal
    · have some : length ≠ 0 := by omega
      have here : start < found := (among.segment some).1
      omega

theorem LongestAmong.replace {found : Nat}
    (among : LongestAmong marks data {other | other < found} start length)
    (segment : Segment marks data found stop)
    (longer : length < stop + 2 - found) :
    LongestAmong marks data {other | other < stop + 2} found
      (stop + 2 - found) := by
  have ordered := segment.closes.behind
  constructor
  · intro none
    omega
  · intro _
    refine ⟨?_, stop, segment, rfl⟩
    show found < stop + 2
    omega
  · intro other end' member other_segment
    have before : other < stop + 2 := member
    by_cases earlier : other < found
    · have bound := among.longest other end' earlier other_segment
      omega
    · exact segment.longest_inside other_segment
        (Nat.le_of_not_lt earlier) before
  · intro other end' member other_segment equal
    by_contra earlier
    have bound :=
      among.longest other end' (Nat.lt_of_not_le earlier) other_segment
    omega

end Rules

end Segments
