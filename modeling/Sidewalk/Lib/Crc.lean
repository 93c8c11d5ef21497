import Mathlib

/-!
# Cyclic redundancy checks

A reflected checksum of any width: the register is shifted right, and the reflected polynomial is
added to it when a one comes out. A checksum is stored complemented, so that the update by a block
starts from the checksum of what precedes it (`update_append`). When the polynomial has its constant
term, the checksum after a block determines the one before (`update_injective`).
-/

namespace Sidewalk.Lib.Crc

variable {w : Nat}

def bitStep (poly crc : BitVec w) : BitVec w :=
  if crc.getLsbD 0 then (crc >>> 1) ^^^ poly else crc >>> 1

def byteStep (poly crc : BitVec w) (byte : UInt8) : BitVec w :=
  (bitStep poly)^[8] (crc ^^^ byte.toBitVec.setWidth w)

def update (poly crc : BitVec w) (bytes : List UInt8) : BitVec w :=
  ~~~ bytes.foldl (byteStep poly) (~~~ crc)

theorem update_append (poly crc : BitVec w) (xs ys : List UInt8) :
    update poly crc (xs ++ ys) = update poly (update poly crc xs) ys := by
  simp [update]

theorem getLsbD_bitStep (poly crc : BitVec w) (i : Nat) :
    (bitStep poly crc).getLsbD i =
      (crc.getLsbD (i + 1) ^^ (crc.getLsbD 0 && poly.getLsbD i)) := by
  unfold bitStep
  split
  · next hlow => simp [hlow, Nat.add_comm]
  · next hlow => simp [hlow, Nat.add_comm]

theorem bitStep_injective {poly : BitVec w} (hpoly : poly.msb = true) :
    Function.Injective (bitStep poly) := by
  intro x y heq
  rw [BitVec.msb_eq_getLsbD_last] at hpoly
  have hw : 0 < w := by
    by_contra hzero
    obtain rfl : w = 0 := by omega
    simp at hpoly
  have hbits : ∀ i, (x.getLsbD (i + 1) ^^ (x.getLsbD 0 && poly.getLsbD i)) =
      (y.getLsbD (i + 1) ^^ (y.getLsbD 0 && poly.getLsbD i)) := by
    intro i
    rw [← getLsbD_bitStep, ← getLsbD_bitStep, heq]
  -- the bit that came out is the highest one now
  have hlow : x.getLsbD 0 = y.getLsbD 0 := by
    have hlast := hbits (w - 1)
    rw [Nat.sub_add_cancel hw] at hlast
    simpa [hpoly] using hlast
  apply BitVec.eq_of_getLsbD_eq
  intro i hi
  cases i with
  | zero => exact hlow
  | succ i =>
    have hbit := hbits i
    rw [hlow] at hbit
    simpa using hbit

theorem byteStep_injective {poly : BitVec w} (hpoly : poly.msb = true) (byte : UInt8) :
    Function.Injective fun crc => byteStep poly crc byte := by
  intro x y heq
  have hxor := (bitStep_injective hpoly).iterate 8 heq
  simpa using hxor

theorem foldl_injective {poly : BitVec w} (hpoly : poly.msb = true) (bytes : List UInt8) :
    Function.Injective fun crc => bytes.foldl (byteStep poly) crc := by
  induction bytes with
  | nil => exact Function.injective_id
  | cons byte bytes ih =>
    intro x y heq
    exact byteStep_injective hpoly byte (ih heq)

theorem update_injective {poly : BitVec w} (hpoly : poly.msb = true) (bytes : List UInt8) :
    Function.Injective fun crc => update poly crc bytes := by
  intro x y heq
  have hfold : bytes.foldl (byteStep poly) (~~~ x) = bytes.foldl (byteStep poly) (~~~ y) := by
    simpa [update] using heq
  simpa using foldl_injective hpoly bytes hfold

/-! ## CRC-32 -/

/-- The polynomial of IEEE 802.3, reflected. -/
def ieeePoly : BitVec 32 := 0xEDB88320

def crc32Update (crc : UInt32) (bytes : List UInt8) : UInt32 :=
  ⟨update ieeePoly crc.toBitVec bytes⟩

/-- The CRC-32 of the bytes. -/
def crc32 (bytes : List UInt8) : UInt32 := crc32Update 0 bytes

theorem crc32_append (xs ys : List UInt8) : crc32 (xs ++ ys) = crc32Update (crc32 xs) ys :=
  congrArg UInt32.ofBitVec (update_append ..)

theorem crc32Update_injective (bytes : List UInt8) :
    Function.Injective fun crc => crc32Update crc bytes := by
  intro x y heq
  have hbits := congrArg UInt32.toBitVec heq
  exact UInt32.toBitVec_inj.1 (update_injective (by decide) bytes hbits)

/-- The check value of the standard, for the digits from one to nine. -/
example : crc32 [0x31, 0x32, 0x33, 0x34, 0x35, 0x36, 0x37, 0x38, 0x39] = 0xCBF43926 := by
  decide +kernel

end Sidewalk.Lib.Crc
