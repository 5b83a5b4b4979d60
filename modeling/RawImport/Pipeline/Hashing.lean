import RawImport.Lib.Blocks
import RawImport.Lib.Hex
import RawImport.Pipeline

/-!
# Hashes of files

`sha256_bytes` and `sha256_file` of `pipeline.cpp` over OpenSSL's incremental
interface.  `sha256_file` reads a stream in blocks of 64 KB and asks only
whether the stream is still good, so a read that fails looks like the end of
the file.
-/

namespace RawImport

namespace Hashing

open Blocks

/-- The digest contexts of OpenSSL: updates may come in any pieces, and
SHA-256 gives 32 bytes. -/
structure Evp where
  Context : Type
  init : Context
  absorber : Absorber Context UInt8
  final : Context → Bytes
  length_final : ∀ context, (final context).length = 32

namespace Evp

def digest (evp : Evp) (bytes : Bytes) : Bytes :=
  evp.final (evp.absorber.absorb evp.init bytes)

end Evp

/-- `std::setw(2)` with `std::setfill('0')`. -/
def setw2 (text : List Char) : List Char :=
  List.replicate (2 - text.length) '0' ++ text

/-- `to_hex`: every byte goes to the stream as an `int` under `std::hex`. -/
def toHex (buf : Bytes) : String :=
  String.ofList (buf.flatMap fun byte => setw2 (Nat.toDigits 16 byte.toNat))

/-- What the calls to OpenSSL and to the stream return; `updates` counts the
calls of `EVP_DigestUpdate`, `faults` the reads of blocks. -/
structure Calls where
  opened : Bool := true
  context : Bool := true
  init : Bool := true
  updates : Nat → Bool := fun _ => true
  final : Bool := true
  faults : Nat → Option Nat := fun _ => none

/-- `sha256_bytes(data)`. -/
def sha256Bytes (evp : Evp) (calls : Calls) (data : Bytes) : String :=
  if !calls.context then ""
  else if !calls.init || !calls.updates 0 || !calls.final then ""
  else toHex (evp.final (evp.absorber.absorb evp.init data))

def blockSize : Nat := 65536

theorem blockSize_pos : 0 < blockSize := by decide

/-- `sha256_file(path)` on a file with these contents. -/
def sha256File (evp : Evp) (calls : Calls) (contents : Bytes) : String :=
  if !calls.opened then ""
  else if !calls.context then ""
  else if !calls.init then ""
  else
    match drain blockSize evp.absorber blockSize_pos calls.faults
        calls.updates contents evp.init with
    | none => ""
    | some context =>
        if !calls.final then "" else toHex (evp.final context)

theorem setw2_byte (byte : UInt8) :
    setw2 (Nat.toDigits 16 byte.toNat) = Hex.byteText byte := by
  have each : ∀ number : Fin 256, setw2 (Nat.toDigits 16 number) =
      [Hex.digit (number / 16), Hex.digit (number % 16)] := by
    decide +kernel
  exact each ⟨byte.toNat, byte.toNat_lt⟩

theorem toHex_eq (buf : Bytes) : toHex buf = String.ofList (Hex.text buf) := by
  simp only [toHex, Hex.text, setw2_byte]

theorem toHex_injective : Function.Injective toHex := by
  intro buf other equal
  rw [toHex_eq, toHex_eq] at equal
  exact Hex.text_injective (String.ofList_injective equal)

theorem length_toHex (buf : Bytes) : (toHex buf).length = 2 * buf.length := by
  rw [toHex_eq, String.length_ofList, Hex.length_text]

theorem toHex_digest_ne_empty (evp : Evp) (context : evp.Context) :
    toHex (evp.final context) ≠ "" := by
  intro empty
  have length := length_toHex (evp.final context)
  rw [empty, evp.length_final] at length
  cases length

/-- What `sha256_file` hashes: the contents before the first read that
faults. -/
def read (calls : Calls) (contents : Bytes) : Bytes :=
  delivered blockSize calls.faults contents

/-- The calls that `sha256_file` makes all succeed, reads apart. -/
structure Succeed (calls : Calls) (contents : Bytes) : Prop where
  opened : calls.opened = true
  context : calls.context = true
  init : calls.init = true
  updates : Accepted blockSize calls.updates (read calls contents).length
  final : calls.final = true

theorem sha256File_of_succeed (evp : Evp) {calls : Calls} {contents : Bytes}
    (succeed : Succeed calls contents) :
    sha256File evp calls contents =
      toHex (evp.digest (read calls contents)) := by
  have drained := (drain_eq_some evp.absorber blockSize_pos calls.faults
    calls.updates contents evp.init _).mpr ⟨succeed.updates, rfl⟩
  simp only [sha256File, succeed.opened, succeed.context, succeed.init,
    succeed.final, Bool.not_true, Bool.false_eq_true, if_false, drained]
  rfl

theorem sha256File_of_not_succeed (evp : Evp) {calls : Calls}
    {contents : Bytes} (failed : ¬ Succeed calls contents) :
    sha256File evp calls contents = "" := by
  by_contra nonempty
  apply failed
  unfold sha256File at nonempty
  split at nonempty
  · exact absurd rfl nonempty
  · next opened =>
      split at nonempty
      · exact absurd rfl nonempty
      · next context =>
          split at nonempty
          · exact absurd rfl nonempty
          · next init =>
              split at nonempty
              · exact absurd rfl nonempty
              · next state drained =>
                  split at nonempty
                  · exact absurd rfl nonempty
                  · next final =>
                      simp only [Bool.not_eq_true, Bool.not_eq_false']
                        at opened context init final
                      exact ⟨opened, context, init,
                        ((drain_eq_some ..).mp drained).1, final⟩

theorem sha256File_ne_empty (evp : Evp) (calls : Calls) (contents : Bytes) :
    sha256File evp calls contents ≠ "" ↔ Succeed calls contents := by
  constructor
  · intro nonempty
    by_contra failed
    exact nonempty (sha256File_of_not_succeed evp failed)
  · intro succeed
    rw [sha256File_of_succeed evp succeed]
    exact toHex_digest_ne_empty evp _

theorem sha256Bytes_sound (evp : Evp) (data : Bytes) :
    sha256Bytes evp {} data = toHex (evp.digest data) :=
  rfl

/-- The hash of a file is that of the bytes before the first read that
faults, as `sha256_bytes` gives it, and is missing exactly when the open or a
call to OpenSSL fails.  Two files with one hash have one digest of what was
read of them. -/
theorem sha256File_streams (evp : Evp) (calls : Calls) (contents : Bytes) :
    (sha256File evp calls contents ≠ "" ↔ Succeed calls contents) ∧
    (Succeed calls contents → sha256File evp calls contents =
      sha256Bytes evp {} (read calls contents)) ∧
    read calls contents <+: contents ∧
    ((∀ block ≤ contents.length / blockSize, calls.faults block = none) →
      read calls contents = contents) ∧
    ∀ (otherCalls : Calls) (other : Bytes),
      sha256File evp calls contents ≠ "" →
      sha256File evp otherCalls other = sha256File evp calls contents →
      evp.digest (read otherCalls other) =
        evp.digest (read calls contents) := by
  refine ⟨sha256File_ne_empty evp calls contents, fun succeed => ?_,
    delivered_prefix _ _ _, delivered_of_none _ _, ?_⟩
  · rw [sha256File_of_succeed evp succeed, sha256Bytes_sound]
  · intro otherCalls other nonempty equal
    have succeed := (sha256File_ne_empty evp calls contents).mp nonempty
    have succeedOther : Succeed otherCalls other := by
      rw [← sha256File_ne_empty evp, equal]
      exact nonempty
    rw [sha256File_of_succeed evp succeed,
      sha256File_of_succeed evp succeedOther] at equal
    exact toHex_injective equal

def Evp.toDigest (evp : Evp) : Digest where
  sha256 bytes := toHex (evp.digest bytes)
  length_sha256 bytes := by
    rw [length_toHex, Evp.digest, evp.length_final]

/-- A file whose reads do not fault is hashed as the other modules take it
to be. -/
theorem sha256File_refines (evp : Evp) {calls : Calls} {fs : Fs} {path : Path}
    {file : File} (present : fs path = some file)
    (sound : ∀ block ≤ file.bytes.length / blockSize,
      calls.faults block = none)
    (succeed : Succeed calls file.bytes) :
    sha256File evp calls file.bytes =
      RawImport.sha256File evp.toDigest fs path true := by
  rw [sha256File_of_succeed evp succeed, read,
    delivered_of_none _ _ sound]
  simp only [RawImport.sha256File, present, Evp.toDigest]

end Hashing

end RawImport
