import Mathlib.Data.List.Basic

/-!
# Bytes in hexadecimal

Two lower-case digits for a byte, read back by their values.
-/

namespace Hex

def digit (value : Nat) : Char :=
  "0123456789abcdef".toList.getD value '0'

def value (c : Char) : Nat :=
  "0123456789abcdef".toList.idxOf c

def byteText (byte : UInt8) : List Char :=
  [digit (byte.toNat / 16), digit (byte.toNat % 16)]

def text (bytes : List UInt8) : List Char :=
  bytes.flatMap byteText

/-- Two digits at a time; a digit on its own at the end is dropped. -/
def read : List Char → List UInt8
  | high :: low :: rest =>
      UInt8.ofNat (value high * 16 + value low) :: read rest
  | _ => []

theorem value_digit {number : Nat} (small : number < 16) :
    value (digit number) = number := by
  have each : ∀ number < 16, value (digit number) = number := by decide
  exact each number small

@[simp] theorem text_nil : text [] = [] := rfl

theorem text_cons (byte : UInt8) (bytes : List UInt8) :
    text (byte :: bytes) = byteText byte ++ text bytes :=
  List.flatMap_cons

@[simp] theorem length_text (bytes : List UInt8) :
    (text bytes).length = 2 * bytes.length := by
  induction bytes with
  | nil => rfl
  | cons byte bytes ih =>
      rw [text_cons, List.length_append, ih, List.length_cons]
      simp only [byteText, List.length_cons, List.length_nil]
      omega

theorem read_text (bytes : List UInt8) : read (text bytes) = bytes := by
  induction bytes with
  | nil => rfl
  | cons byte bytes ih =>
      have below := byte.toNat_lt
      have high : value (digit (byte.toNat / 16)) = byte.toNat / 16 :=
        value_digit (by omega)
      have low : value (digit (byte.toNat % 16)) = byte.toNat % 16 :=
        value_digit (by omega)
      rw [text_cons]
      simp only [byteText, List.cons_append, List.nil_append, read, ih, high,
        low]
      rw [Nat.div_add_mod', UInt8.ofNat_toNat]

theorem text_injective : Function.Injective text := by
  intro bytes other equal
  rw [← read_text bytes, equal, read_text]

end Hex
