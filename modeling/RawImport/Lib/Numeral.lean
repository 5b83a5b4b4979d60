import Mathlib.Data.Nat.Notation

/-!
# Decimal numerals

What the text of a number contains, and that it determines the number.
-/

namespace Numeral

theorem toList_toString_nat (number : Nat) :
    (toString number).toList = Nat.toDigits 10 number := by
  simp [ToString.toString, Nat.repr]

theorem toString_negSucc (number : Nat) :
    toString (Int.negSucc number) = "-" ++ toString (number + 1) :=
  rfl

theorem isDigit_of_mem_nat {number : Nat} {c : Char}
    (member : c ∈ (toString number).toList) : c.isDigit = true := by
  rw [toList_toString_nat] at member
  exact Nat.isDigit_of_mem_toDigits (by decide) (by decide) member

theorem toDigits_eq_cons {number : Nat} (positive : 0 < number) :
    ∃ c rest, Nat.toDigits 10 number = c :: rest ∧ c ≠ '0' := by
  induction number using Nat.strongRecOn with
  | _ number ih =>
      by_cases small : number < 10
      · refine ⟨number.digitChar, [], Nat.toDigits_of_lt_base small, ?_⟩
        have each : ∀ digit < 10, 0 < digit →
            Nat.digitChar digit ≠ '0' := by decide
        exact each number small positive
      · have large : 10 ≤ number := Nat.le_of_not_lt small
        obtain ⟨c, rest, digits, other⟩ :=
          ih (number / 10) (by omega) (by omega)
        rw [Nat.toDigits_of_base_le (by decide) large, digits]
        exact ⟨c, rest ++ [Nat.digitChar (number % 10)], rfl, other⟩

theorem mem_toString {number : Int} {c : Char}
    (member : c ∈ (toString number).toList) :
    c.isDigit = true ∨ c = '-' := by
  cases number with
  | ofNat number => exact .inl (isDigit_of_mem_nat member)
  | negSucc number =>
      rw [toString_negSucc, String.toList_append, List.mem_append] at member
      rcases member with sign | digit
      · exact .inr (by simpa using sign)
      · exact .inl (isDigit_of_mem_nat digit)

theorem toString_ne_empty (number : Int) : toString number ≠ "" := by
  intro empty
  have letters := congrArg String.toList empty
  cases number with
  | ofNat number =>
      have digits : Nat.toDigits 10 number = [] := by
        rw [← toList_toString_nat]
        exact letters
      exact Nat.toDigits_ne_nil digits
  | negSucc number =>
      rw [toString_negSucc, String.toList_append] at letters
      simp at letters

theorem toString_nat_injective {left right : Nat}
    (equal : toString left = toString right) : left = right := by
  have digits : Nat.toDigits 10 left = Nat.toDigits 10 right := by
    rw [← toList_toString_nat, ← toList_toString_nat, equal]
  rw [← Nat.ofDigitChars_ten_toDigits (n := left), digits,
    Nat.ofDigitChars_ten_toDigits]

theorem nat_ne_negSucc (left right : Nat) :
    toString left ≠ toString (Int.negSucc right) := by
  intro equal
  have sign : '-' ∈ (toString left).toList := by
    rw [equal, toString_negSucc, String.toList_append]
    simp
  have digit := isDigit_of_mem_nat sign
  simp at digit

theorem toString_injective {left right : Int}
    (equal : toString left = toString right) : left = right := by
  cases left with
  | ofNat left =>
      cases right with
      | ofNat right =>
          exact congrArg Int.ofNat (toString_nat_injective equal)
      | negSucc right => exact (nat_ne_negSucc left right equal).elim
  | negSucc left =>
      cases right with
      | ofNat right => exact (nat_ne_negSucc right left equal.symm).elim
      | negSucc right =>
          rw [toString_negSucc, toString_negSucc] at equal
          have tails : toString (left + 1) = toString (right + 1) := by
            have lists := congrArg String.toList equal
            rw [String.toList_append, String.toList_append] at lists
            exact String.toList_inj.mp (List.append_cancel_left lists)
          have same := toString_nat_injective tails
          rw [Nat.add_right_cancel same]

end Numeral
