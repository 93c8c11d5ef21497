import Mathlib

/-!
# Checksums and whitening of FSK frames

`sx126x_halo.c`, which `lr11xx_halo.c` repeats. Whitening adds the output of a shift register to the
bytes, so that whitening twice from one seed gives them back.
-/

namespace Sidewalk.Radio.Halo

/-! ## Whitening -/

/-- The register moves on by four bits. -/
def lfsrStep (lfsr : UInt16) : UInt16 :=
  (lfsr >>> 4) ||| ((((lfsr >>> 5) &&& 0x0F) ^^^ (lfsr &&& 0x0F)) <<< 5)

def reverseBits (ret : UInt8) : UInt8 :=
  ((ret &&& 0x80) >>> 7) ||| ((ret &&& 0x40) >>> 5) ||| ((ret &&& 0x20) >>> 3) |||
    ((ret &&& 0x10) >>> 1) ||| ((ret &&& 0x08) <<< 1) ||| ((ret &&& 0x04) <<< 3) |||
    ((ret &&& 0x02) <<< 5) ||| ((ret &&& 0x01) <<< 7)

/-- The register after the two steps of a byte, and what is added to the byte. -/
def whiteningByte (lfsr : UInt16) : UInt16 × UInt8 :=
  let lfsr := lfsrStep lfsr
  let low := (lfsr >>> 5) &&& 0x0F
  let lfsr := lfsrStep lfsr
  let high := (lfsr >>> 1) &&& 0xF0
  (lfsr, reverseBits (low ||| high).toUInt8)

/-- `perform_data_whitening`, which begins with the seed in the register. -/
def performDataWhitening (lfsr : UInt16) : List UInt8 → List UInt8
  | [] => []
  | byte :: bytes =>
    (byte ^^^ (whiteningByte lfsr).2) :: performDataWhitening (whiteningByte lfsr).1 bytes

theorem length_performDataWhitening (lfsr : UInt16) (bytes : List UInt8) :
    (performDataWhitening lfsr bytes).length = bytes.length := by
  induction bytes generalizing lfsr with
  | nil => rfl
  | cons byte bytes ih => rw [performDataWhitening, List.length_cons, List.length_cons, ih]

/-- The register does not depend on the bytes. -/
theorem performDataWhitening_twice (lfsr : UInt16) (bytes : List UInt8) :
    performDataWhitening lfsr (performDataWhitening lfsr bytes) = bytes := by
  induction bytes generalizing lfsr with
  | nil => rfl
  | cons byte bytes ih =>
    simp only [performDataWhitening, ih, UInt8.xor_assoc, UInt8.xor_self, UInt8.xor_zero]

/-! ## Checksums -/

def crc16Bit (crc : UInt16) : UInt16 :=
  if crc &&& 0x8000 ≠ 0 then (crc <<< 1) ^^^ 0x1021 else crc <<< 1

def crc16Byte (crc : UInt16) (byte : UInt8) : UInt16 :=
  crc16Bit^[8] (crc ^^^ (byte.toUInt16 <<< 8))

/-- `compute_crc16`. -/
def computeCrc16 (bytes : List UInt8) : UInt16 := bytes.foldl crc16Byte 0

def crc32Bit (crc : UInt32) : UInt32 :=
  if crc &&& 0x80000000 ≠ 0 then (crc <<< 1) ^^^ 0x04C11DB7 else crc <<< 1

def crc32Byte (crc : UInt32) (byte : UInt8) : UInt32 :=
  crc32Bit^[8] (crc ^^^ (byte.toUInt32 <<< 24))

/-- `compute_crc32`, which takes less than four bytes with zeros behind them. -/
def computeCrc32 (bytes : List UInt8) : UInt32 :=
  if bytes = [] then 0
  else ~~~(bytes ++ List.replicate (4 - bytes.length) 0).foldl crc32Byte 0xFFFFFFFF

/-- The check values of the two polynomials, for the digits from one to nine. -/
example : computeCrc16 [0x31, 0x32, 0x33, 0x34, 0x35, 0x36, 0x37, 0x38, 0x39] = 0x31C3 ∧
    computeCrc32 [0x31, 0x32, 0x33, 0x34, 0x35, 0x36, 0x37, 0x38, 0x39] = 0xFC891918 := by
  decide +kernel

end Sidewalk.Radio.Halo
