import RawImport.Lib.Fold
import RawImport.Pipeline

/-!
# The header hash of the fast fingerprint

One step of FNV-1a is injective in the running hash and in the byte: the prime
is odd, so it has an inverse modulo `2 ^ 64`.
-/

namespace RawImport

namespace Header

open Fold

/-- The inverse of the FNV prime modulo `2 ^ 64`. -/
def primeInverse : UInt64 := 0xce965057aff6957b

/-- One round of the loop in `fnv1a_64`. -/
def fnvStep (hash : UInt64) (byte : UInt8) : UInt64 :=
  (hash ^^^ byte.toUInt64) * 0x100000001b3

theorem mul_prime_injective :
    Function.Injective fun hash : UInt64 => hash * 0x100000001b3 := by
  intro hash other equal
  have inverse : (0x100000001b3 : UInt64) * primeInverse = 1 := by decide
  have undone := congrArg (fun product => product * primeInverse) equal
  simpa only [UInt64.mul_assoc, inverse, UInt64.mul_one] using undone

theorem fnvStep_injective_hash (byte : UInt8) :
    Function.Injective fun hash => fnvStep hash byte := by
  intro hash other equal
  exact (UInt64.xor_left_inj _).mp (mul_prime_injective equal)

theorem fnvStep_injective_byte (hash : UInt64) :
    Function.Injective (fnvStep hash) := by
  intro byte other equal
  have words := (UInt64.xor_right_inj hash).mp (mul_prime_injective equal)
  exact UInt8.toUInt64_inj.mp words

theorem fnv1a64_ne {data other : Bytes} (differ : DifferOnce data other) :
    fnv1a64 data ≠ fnv1a64 other :=
  foldl_ne_of_differOnce fnvStep_injective_hash fnvStep_injective_byte differ
    _

/-- A readable file that is not empty carries the hash of its header. -/
theorem computeFastFingerprint_fnv {fs : Fs} {path : Path} {file : File}
    (present : fs path = some file) (nonempty : file.bytes ≠ []) :
    (computeFastFingerprint fs path true true).fnv1a4k =
      fnv1a64 (file.bytes.take 4096) := by
  simp [computeFastFingerprint, present, nonempty]

theorem ne_nil_of_differOnce {first second : Bytes} {count : Nat}
    (differ : DifferOnce (first.take count) (second.take count)) :
    first ≠ [] ∧ second ≠ [] := by
  obtain ⟨front, a, b, back, -, left, right⟩ := differ.decompose
  constructor
  · rintro rfl
    simp at left
  · rintro rfl
    simp at right

/-- A change of one byte is always noticed, by `fnv1a_64` on texts of any
length and by the fingerprints of two files that `compute_fast_fingerprint`
can read, whatever their sizes and times are. -/
theorem header_change_noticed :
    (∀ data other : Bytes, DifferOnce data other →
      fnv1a64 data ≠ fnv1a64 other) ∧
    ∀ (fs : Fs) (path other : Path) (file otherFile : File),
      fs path = some file → fs other = some otherFile →
      DifferOnce (file.bytes.take 4096) (otherFile.bytes.take 4096) →
      computeFastFingerprint fs path true true ≠
        computeFastFingerprint fs other true true := by
  constructor
  · intro data other differ
    exact fnv1a64_ne differ
  · intro fs path other file otherFile present otherPresent differ equal
    obtain ⟨nonempty, otherNonempty⟩ := ne_nil_of_differOnce differ
    apply fnv1a64_ne differ
    rw [← computeFastFingerprint_fnv present nonempty,
      ← computeFastFingerprint_fnv otherPresent otherNonempty, equal]

def twoPhotographs : Fs := fun path =>
  if path = "/watch/DSC_0001.NEF" then some ⟨[1, 2], 0⟩
  else if path = "/watch/DSC_0002.NEF" then some ⟨[1, 3], 0⟩
  else none

theorem twoPhotographs_differOnce :
    DifferOnce (([1, 2] : Bytes).take 4096) (([1, 3] : Bytes).take 4096) := by
  refine ⟨rfl, 1, by decide, ?_⟩
  intro position differs
  match position with
  | 0 => exact (differs rfl).elim
  | 1 => rfl
  | _ + 2 => exact (differs rfl).elim

theorem twoPhotographs_noticed :
    fnv1a64 [1, 2] ≠ fnv1a64 [1, 3] ∧
      computeFastFingerprint twoPhotographs "/watch/DSC_0001.NEF" true true ≠
        computeFastFingerprint twoPhotographs "/watch/DSC_0002.NEF" true
          true :=
  ⟨header_change_noticed.1 _ _ twoPhotographs_differOnce,
    header_change_noticed.2 twoPhotographs _ _ ⟨[1, 2], 0⟩ ⟨[1, 3], 0⟩
      (by decide) (by decide) twoPhotographs_differOnce⟩

/-- Of a file that may be examined but not opened only the size and the time
are kept. -/
theorem unreadable_photographs_equal :
    ∃ (fs : Fs) (path other : Path) (file otherFile : File),
      fs path = some file ∧ fs other = some otherFile ∧
      file.bytes.length = otherFile.bytes.length ∧
      DifferOnce (file.bytes.take 4096) (otherFile.bytes.take 4096) ∧
      computeFastFingerprint fs path true false =
        computeFastFingerprint fs other true false :=
  ⟨twoPhotographs, "/watch/DSC_0001.NEF", "/watch/DSC_0002.NEF",
    ⟨[1, 2], 0⟩, ⟨[1, 3], 0⟩, by decide, by decide, rfl,
    twoPhotographs_differOnce, by decide +kernel⟩

end Header

end RawImport
