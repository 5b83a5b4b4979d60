import Mathlib.Algebra.Group.Int.Defs
import Mathlib.Algebra.Group.Nat.Defs
import Mathlib.Data.List.TakeWhile
import RawImport.Lib.Numeral
import RawImport.Lib.Search

/-!
# Text functions of the standard library

The members of `std::string` and the numeric conversions that report an error
by an exception.  A text is a list of characters, one for each byte.
-/

namespace Cxx

inductive StdException where
  | outOfRange
  | invalidArgument
  deriving DecidableEq, Repr

abbrev Text := List Char

@[simp] theorem ok_bind {α β : Type} (value : α)
    (next : α → Except StdException β) : (.ok value >>= next) = next value :=
  rfl

/-- Subtraction of `size_t` values. -/
def sizeSub (left right : Nat) : Nat :=
  (((left : Int) - right) % 2 ^ 64).toNat

/-- `text.substr(pos, count)`. -/
def substr (text : Text) (pos count : Nat) : Except StdException Text :=
  if pos ≤ text.length then .ok ((text.drop pos).take count)
  else .error .outOfRange

/-- `text.substr(pos)`. -/
def substrFrom (text : Text) (pos : Nat) : Except StdException Text :=
  if pos ≤ text.length then .ok (text.drop pos) else .error .outOfRange

/-- `isspace` in the C locale. -/
def isSpace (c : Char) : Bool :=
  c == ' ' || c == '\t' || c == '\n' || c == '\x0b' || c == '\x0c' ||
    c == '\r'

/-- The digits a text starts with, as a number. -/
def magnitude (text : Text) : Option Nat :=
  let digits := text.takeWhile Char.isDigit
  if digits = [] then none else some (Nat.ofDigitChars 10 digits 0)

/-- What `strtol` reads: spaces, a sign, digits; the rest is left alone. -/
def parseLong (text : Text) : Option Int :=
  match text.dropWhile isSpace with
  | '-' :: rest => (magnitude rest).map fun number => -(number : Int)
  | '+' :: rest => (magnitude rest).map Int.ofNat
  | rest => (magnitude rest).map Int.ofNat

/-- A conversion to a signed type of the given width. -/
def convert (bits : Nat) (text : Text) : Except StdException Int :=
  match parseLong text with
  | none => .error .invalidArgument
  | some value =>
      if -2 ^ (bits - 1) ≤ value ∧ value < 2 ^ (bits - 1) then .ok value
      else .error .outOfRange

def stoi (text : Text) : Except StdException Int := convert 32 text

def stol (text : Text) : Except StdException Int := convert 64 text

/-- `std::strtoll`: 0 without a number, the nearest value out of range. -/
def strtoll (text : Text) : Int :=
  match parseLong text with
  | none => 0
  | some value => max (-2 ^ 63) (min value (2 ^ 63 - 1))

/-- `std::atoi`, which cuts the `long` to an `int`. -/
def atoi (text : Text) : Int :=
  Int.bmod (strtoll text) (2 ^ 32)

/-- `c_str()` as the C library reads it. -/
def cStr (text : Text) : Text :=
  text.takeWhile (· != '\x00')

/-- The lines of `std::getline`: nothing stands behind a final newline. -/
def getlines (text : Text) : List Text :=
  let parts := text.splitOn '\n'
  if parts.getLast? = some [] then parts.dropLast else parts

variable {text : Text} {pos count : Nat}

theorem substr_ok (bound : pos ≤ text.length) :
    substr text pos count = .ok ((text.drop pos).take count) :=
  if_pos bound

theorem substrFrom_ok (bound : pos ≤ text.length) :
    substrFrom text pos = .ok (text.drop pos) :=
  if_pos bound

theorem sizeSub_of_le {left right : Nat} (le : right ≤ left)
    (small : left < 2 ^ 64) : sizeSub left right = left - right := by
  unfold sizeSub
  omega

theorem forall_of_all {property : Char → Prop} [DecidablePred property]
    (all : text.all (fun c => decide (property c)) = true) :
    ∀ c ∈ text, property c := by
  intro c member
  exact of_decide_eq_true (List.all_eq_true.mp all c member)

theorem cStr_eq_self_iff : cStr text = text ↔ '\x00' ∉ text := by
  unfold cStr
  rw [List.takeWhile_eq_self_iff]
  constructor
  · intro plain zero
    simpa using plain _ zero
  · intro absent c member
    have different : c ≠ '\x00' := fun same => absent (same ▸ member)
    simpa using different

theorem cStr_append_cons_ne {later : Text} {c : Char}
    (present : c ≠ '\x00') : cStr (text ++ c :: later) ≠ text := by
  intro same
  have plain : ∀ d ∈ text, (d != '\x00') = true := by
    intro d member
    rw [← same, cStr] at member
    have kept := List.mem_takeWhile_imp member
    exact kept
  have more : cStr (text ++ c :: later) =
      text ++ c :: later.takeWhile (· != '\x00') := by
    rw [cStr, List.takeWhile_append_of_pos plain,
      List.takeWhile_cons_of_pos (by simpa using present)]
  rw [more] at same
  have lengths := congrArg List.length same
  rw [List.length_append, List.length_cons] at lengths
  omega

theorem convert_bounds {bits : Nat} {value : Int}
    (converted : convert bits text = .ok value) :
    parseLong text = some value ∧ -2 ^ (bits - 1) ≤ value ∧
      value < 2 ^ (bits - 1) := by
  unfold convert at converted
  split at converted
  · cases converted
  · split at converted
    · rename_i parsed fits
      cases converted
      exact ⟨parsed, fits⟩
    · cases converted

theorem parseLong_of_digit {c : Char} {rest : Text}
    (digit : c.isDigit = true) :
    parseLong (c :: rest) = (magnitude (c :: rest)).map Int.ofNat := by
  have notSpace : isSpace c = false := by
    by_contra space
    have space := eq_true_of_ne_false space
    simp only [isSpace, Bool.or_eq_true, beq_iff_eq] at space
    rcases space with ((((rfl | rfl) | rfl) | rfl) | rfl) | rfl <;>
      exact absurd digit (by decide)
  unfold parseLong
  rw [List.dropWhile_cons, notSpace]
  split
  · rename_i equal
    cases equal
    exact absurd digit (by decide)
  · rename_i equal
    cases equal
    exact absurd digit (by decide)
  · rfl

theorem parseLong_nat (number : Nat) :
    parseLong (toString number).toList = some (number : Int) := by
  have digits : ∀ c ∈ Nat.toDigits 10 number, c.isDigit = true := by
    intro c member
    rw [← Numeral.toList_toString_nat] at member
    exact Numeral.isDigit_of_mem_nat member
  have value : magnitude (Nat.toDigits 10 number) = some number := by
    unfold magnitude
    rw [List.takeWhile_eq_self_iff.mpr digits, if_neg Nat.toDigits_ne_nil,
      Nat.ofDigitChars_ten_toDigits]
  rw [Numeral.toList_toString_nat]
  cases written : Nat.toDigits 10 number with
  | nil => exact (Nat.toDigits_ne_nil written).elim
  | cons c rest =>
      rw [written] at digits value
      rw [parseLong_of_digit (digits c List.mem_cons_self), value]
      rfl

theorem strtoll_nat (number : Nat) :
    strtoll (toString number).toList = min (number : Int) (2 ^ 63 - 1) := by
  unfold strtoll
  rw [parseLong_nat]
  simp only
  omega

@[simp] theorem strtoll_nil : strtoll [] = 0 := rfl

@[simp] theorem atoi_nil : atoi [] = 0 := by
  unfold atoi
  rw [strtoll_nil]
  rfl

end Cxx
