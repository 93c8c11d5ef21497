import Sidewalk.Demo.ParserUtils

/-!
# Parser functions as the header has them

`headerUtils` packs a TLV header with the masks and offsets of `sid_parser_utils.h`, stores
integers with their low byte first, and fails where there is no room or not enough data. It is
`Documented`.
-/

namespace Sidewalk.Demo

def errorOom : Int := -4
def errorParamOutOfRange : Int := -10

def writeBytes (s : SidParseState) (bytes : List UInt8) : SidParseState :=
  if s.retCode = errorNone then
    if s.offset + bytes.length ≤ s.buffer.length then s.put bytes
    else { s with retCode := errorOom }
  else s

def readBytes (s : SidParseState) (n : Nat) : SidParseState × Option (List UInt8) :=
  if s.retCode = errorNone then
    if s.offset + n ≤ s.buffer.length then (s.skip n, some ((s.buffer.drop s.offset).take n))
    else ({ s with retCode := errorParamOutOfRange }, none)
  else (s, none)

/-- The size takes two bits: one, two, four bytes, or a byte of its own. -/
def packTl (tl : TlInTlv) : List UInt8 :=
  let tag := tl.tag &&& 0x3F
  if tl.len = 1 then [tag]
  else if tl.len = 2 then [0x40 ||| tag]
  else if tl.len = 4 then [0x80 ||| tag]
  else [0xC0 ||| tag, tl.len]

def unpackTl (s : SidParseState) : SidParseState × Option TlInTlv :=
  let (s, first) := readBytes s 1
  let head := (first.getD []).headD 0
  let tag := head &&& 0x3F
  if first.isNone then (s, none)
  else if head >>> 6 = 0 then (s, some ⟨1, tag⟩)
  else if head >>> 6 = 1 then (s, some ⟨2, tag⟩)
  else if head >>> 6 = 2 then (s, some ⟨4, tag⟩)
  else
    let (s, second) := readBytes s 1
    (s, second.map fun bytes => ⟨bytes.headD 0, tag⟩)

/-- The low bytes of a number, the lowest first. -/
def leBytes (v : Nat) : Nat → List UInt8
  | 0 => []
  | n + 1 => UInt8.ofNat v :: leBytes (v / 256) n

def leValue : List UInt8 → Nat
  | [] => 0
  | b :: bytes => b.toNat + 256 * leValue bytes

theorem leValue_leBytes (v n : Nat) : leValue (leBytes v n) = v % 256 ^ n := by
  induction n generalizing v with
  | zero => rw [leBytes, leValue, Nat.pow_zero, Nat.mod_one]
  | succ n ih =>
    have hpow : 256 ^ (n + 1) = 256 * 256 ^ n := Nat.pow_succ'
    rw [leBytes, leValue, ih, UInt8.toNat_ofNat', hpow]
    exact Nat.mod_mul.symm

def headerUtils : ParserUtils where
  encodeTl := packTl
  encodeUint16 v := leBytes v.toNat 2
  encodeUint32 v := leBytes v.toNat 4
  setBitToField value field mask offset :=
    (value &&& ~~~(mask <<< offset)) ||| ((field &&& mask) <<< offset)
  getBitFromField value mask offset := (value >>> offset) &&& mask
  writeEntryUint8 s v := writeBytes s [v]
  writeEntryNbytes := writeBytes
  writeEntryTlvUint8 s tl v := writeBytes s (packTl tl ++ [v])
  writeEntryTlvUint16 s tl v := writeBytes s (packTl tl ++ leBytes v.toNat 2)
  writeEntryTlvUint32 s tl v := writeBytes s (packTl tl ++ leBytes v.toNat 4)
  writeEntryTlvNbytes s tl bytes := writeBytes s (packTl tl ++ bytes)
  readEntryUint8 s := (readBytes s 1).map id (Option.map (List.headD · 0))
  readEntryUint16 s := (readBytes s 2).map id (Option.map fun bytes => UInt16.ofNat (leValue bytes))
  readEntryUint32 s := (readBytes s 4).map id (Option.map fun bytes => UInt32.ofNat (leValue bytes))
  readEntryNbytes := readBytes
  readTlFromTlv := unpackTl

theorem writeBytes_eq {s : SidParseState} {bytes : List UInt8} (h : s.Room bytes.length) :
    writeBytes s bytes = s.put bytes := by
  unfold writeBytes
  rw [if_pos h.1, if_pos h.2]

theorem readBytes_eq {s : SidParseState} {bytes : List UInt8} (h : s.Holds bytes) :
    readBytes s bytes.length = (s.skip bytes.length, some bytes) := by
  obtain ⟨rest, hleft⟩ := h
  have hlen := hleft.length
  rw [List.length_append] at hlen
  have hmore : s.offset + bytes.length ≤ s.buffer.length := by omega
  unfold readBytes
  rw [if_pos hleft.retCode, if_pos hmore, hleft.drop, List.take_left]

theorem getBit_setBit (value field mask offset : UInt8)
    (hfits : (mask <<< offset) >>> offset = mask) :
    (((value &&& ~~~(mask <<< offset)) ||| ((field &&& mask) <<< offset)) >>> offset) &&& mask =
      field &&& mask := by
  apply UInt8.toBitVec_inj.mp
  have hfits := congrArg UInt8.toBitVec hfits
  simp only [UInt8.toBitVec_and, UInt8.toBitVec_or, UInt8.toBitVec_not, UInt8.toBitVec_shiftLeft,
    UInt8.toBitVec_shiftRight] at hfits ⊢
  generalize offset.toBitVec % 8 = k at hfits ⊢
  apply BitVec.eq_of_getLsbD_eq
  intro i hi
  have hbit := congrArg (BitVec.getLsbD · i) hfits
  simp only [BitVec.getLsbD_and, BitVec.getLsbD_or, BitVec.getLsbD_not, BitVec.getLsbD_ushiftRight,
    BitVec.getLsbD_shiftLeft, BitVec.shiftLeft_eq', BitVec.ushiftRight_eq'] at hbit ⊢
  cases hmask : mask.toBitVec.getLsbD i with
  | false => simp
  | true =>
    rw [hmask] at hbit
    have hin : k.toNat + i < 8 := by
      by_contra hout
      simp [hout] at hbit
    simp [hin, hmask]

theorem getBit_setBit_other (value field mask offset mask' offset' : UInt8)
    (hdisjoint : (mask <<< offset) &&& (mask' <<< offset') = 0) :
    (((value &&& ~~~(mask <<< offset)) ||| ((field &&& mask) <<< offset)) >>> offset') &&& mask' =
      (value >>> offset') &&& mask' := by
  apply UInt8.toBitVec_inj.mp
  have hdisjoint := congrArg UInt8.toBitVec hdisjoint
  simp only [UInt8.toBitVec_and, UInt8.toBitVec_or, UInt8.toBitVec_not, UInt8.toBitVec_shiftLeft,
    UInt8.toBitVec_shiftRight] at hdisjoint ⊢
  generalize offset.toBitVec % 8 = k at hdisjoint ⊢
  generalize offset'.toBitVec % 8 = k' at hdisjoint ⊢
  apply BitVec.eq_of_getLsbD_eq
  intro i hi
  have hbit := congrArg (BitVec.getLsbD · (k'.toNat + i)) hdisjoint
  simp only [BitVec.getLsbD_and, BitVec.getLsbD_or, BitVec.getLsbD_not, BitVec.getLsbD_ushiftRight,
    BitVec.getLsbD_shiftLeft, BitVec.shiftLeft_eq', BitVec.ushiftRight_eq'] at hbit ⊢
  cases hmask : mask'.toBitVec.getLsbD i with
  | false => simp
  | true =>
    by_cases hin : k'.toNat + i < 8
    · -- the bit is in the other field, so it is not in this one
      simp only [hin, Bool.and_true, decide_true, Bool.true_and] at hbit ⊢
      by_cases hle : k.toNat ≤ k'.toNat + i
      · have hout : mask.toBitVec.getLsbD (k'.toNat + i - k.toNat) = false := by
          simpa [hle, hmask] using hbit
        simp [hout]
      · simp [Nat.lt_of_not_le hle]
    · simp [hin, BitVec.getLsbD_of_ge _ _ (Nat.not_lt.mp hin)]

theorem and_tagMask {tag : UInt8} (h : tag < tagIdMax) : tag &&& 0x3F = tag := by
  apply UInt8.toNat_inj.mp
  have hlt : tag.toNat < 2 ^ 6 := UInt8.lt_iff_toNat_lt.mp h
  rw [UInt8.toNat_and]
  exact (Nat.and_two_pow_sub_one_eq_mod tag.toNat 6).trans (Nat.mod_eq_of_lt hlt)

theorem heads_unpacked : ∀ tag : Fin 64,
    (UInt8.ofNat tag >>> 6 = 0 ∧ UInt8.ofNat tag &&& 0x3F = UInt8.ofNat tag) ∧
      ((0x40 ||| UInt8.ofNat tag) >>> 6 = 1 ∧ (0x40 ||| UInt8.ofNat tag) &&& 0x3F = UInt8.ofNat tag) ∧
      ((0x80 ||| UInt8.ofNat tag) >>> 6 = 2 ∧ (0x80 ||| UInt8.ofNat tag) &&& 0x3F = UInt8.ofNat tag) ∧
      ((0xC0 ||| UInt8.ofNat tag) >>> 6 = 3 ∧
        (0xC0 ||| UInt8.ofNat tag) &&& 0x3F = UInt8.ofNat tag) := by
  decide

theorem unpackTl_eq {s : SidParseState} {tl : TlInTlv} (htag : tl.tag < tagIdMax)
    (h : s.Holds (packTl tl)) : unpackTl s = (s.skip (packTl tl).length, some tl) := by
  obtain ⟨len, tag⟩ := tl
  have hlt : tag.toNat < 64 := UInt8.lt_iff_toNat_lt.mp htag
  have hheads := heads_unpacked ⟨tag.toNat, hlt⟩
  simp only [UInt8.ofNat_toNat] at hheads
  obtain ⟨hone, htwo, hfour, hother⟩ := hheads
  simp only [packTl, and_tagMask htag] at h ⊢
  by_cases h₁ : len = 1
  · rw [if_pos h₁] at h ⊢
    have hread := readBytes_eq h
    simp only [List.length_singleton] at hread ⊢
    simp [unpackTl, hread, hone, h₁]
  by_cases h₂ : len = 2
  · rw [if_neg h₁, if_pos h₂] at h ⊢
    have hread := readBytes_eq h
    simp only [List.length_singleton] at hread ⊢
    simp [unpackTl, hread, htwo, h₂]
  by_cases h₄ : len = 4
  · rw [if_neg h₁, if_neg h₂, if_pos h₄] at h ⊢
    have hread := readBytes_eq h
    simp only [List.length_singleton] at hread ⊢
    simp [unpackTl, hread, hfour, h₄]
  · rw [if_neg h₁, if_neg h₂, if_neg h₄] at h ⊢
    obtain ⟨rest, hleft⟩ := h
    have hleft : s.Left ([0xC0 ||| tag] ++ ([len] ++ rest)) := hleft
    have hread := readBytes_eq hleft.holds
    have hread' := readBytes_eq hleft.skip.holds
    simp only [List.length_singleton] at hread hread'
    simp [unpackTl, hread, hread', hother]
    rfl

theorem headerUtils_documented : Documented headerUtils where
  encodeTl_ne_nil tl := by
    change packTl tl ≠ []
    unfold packTl
    split
    · exact List.cons_ne_nil _ _
    · split
      · exact List.cons_ne_nil _ _
      · split <;> exact List.cons_ne_nil _ _
  getBit_setBit := getBit_setBit
  getBit_setBit_other := getBit_setBit_other
  writeUint8 _ _ h := writeBytes_eq h
  writeNbytes _ _ h := writeBytes_eq h
  writeTlvUint8 _ _ _ h := writeBytes_eq h
  writeTlvUint16 _ _ _ h := writeBytes_eq h
  writeTlvUint32 _ _ _ h := writeBytes_eq h
  writeTlvNbytes _ _ _ h := writeBytes_eq h
  readUint8 s v h := by
    change (readBytes s [v].length).map id _ = _
    rw [readBytes_eq h]
    rfl
  readUint16 s v h := by
    change (readBytes s (leBytes v.toNat 2).length).map id _ = _
    rw [@readBytes_eq s (leBytes v.toNat 2) h]
    have hvalue : leValue (leBytes v.toNat 2) = v.toNat := by
      rw [leValue_leBytes]
      exact Nat.mod_eq_of_lt v.toNat_lt
    change (_, some (UInt16.ofNat (leValue (leBytes v.toNat 2)))) = _
    rw [hvalue, UInt16.ofNat_toNat]
    rfl
  readUint32 s v h := by
    change (readBytes s (leBytes v.toNat 4).length).map id _ = _
    rw [@readBytes_eq s (leBytes v.toNat 4) h]
    have hvalue : leValue (leBytes v.toNat 4) = v.toNat := by
      rw [leValue_leBytes]
      exact Nat.mod_eq_of_lt v.toNat_lt
    change (_, some (UInt32.ofNat (leValue (leBytes v.toNat 4)))) = _
    rw [hvalue, UInt32.ofNat_toNat]
    rfl
  readNbytes _ _ h := readBytes_eq h
  readTl _ _ htag h := unpackTl_eq htag h

end Sidewalk.Demo
