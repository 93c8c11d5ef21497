import Sidewalk.Tlv.Scan

/-!
# Records and writes

`record type data` is what one `tlv_write` puts into storage, and `Holds` says that it stands at
an offset. A held record is read back by every scan; a write either is rejected, or stores its
record as one block at the free slot, or (for the last three of the 16-bit sizes, which the
16-bit `data_written` never reaches) does not return.
-/

namespace Sidewalk.Tlv

open Sidewalk.Lib

variable {σ : Type}

/-! ## Encoding -/

/-- The bytes a payload of `n` bytes takes up behind its header. -/
def paddedSize (n : Nat) : Nat := n + calculatePadding n

/-- The bytes a record with a payload of `n` bytes takes up. -/
def recordSize (n : Nat) : Nat := headerSize + paddedSize n

def paddedData (data : List UInt8) : List UInt8 :=
  data ++ List.replicate (calculatePadding data.length) paddingByte

def record (type : UInt16) (data : List UInt8) : List UInt8 :=
  headerToBytes (makeHeader type data.length) ++ paddedData data

theorem calculatePadding_lt (n : Nat) : calculatePadding n < 4 := Nat.mod_lt _ (by decide)

theorem paddedSize_mod (n : Nat) : paddedSize n % 4 = 0 := by
  unfold paddedSize calculatePadding dataAlign
  omega

theorem le_paddedSize (n : Nat) : n ≤ paddedSize n := Nat.le_add_right _ _

theorem paddedSize_lt (n : Nat) : paddedSize n < n + 4 :=
  Nat.add_lt_add_left (calculatePadding_lt n) n

@[simp] theorem length_paddedData (data : List UInt8) :
    (paddedData data).length = paddedSize data.length := by
  simp only [paddedData, paddedSize, List.length_append, List.length_replicate]

@[simp] theorem length_headerToBytes (header : TlvHeader) :
    (headerToBytes header).length = headerSize := rfl

@[simp] theorem length_record (type : UInt16) (data : List UInt8) :
    (record type data).length = recordSize data.length := by
  simp only [record, recordSize, List.length_append, length_headerToBytes, length_paddedData]

/-- Headers round trip. -/
@[simp] theorem bytesToHeader_headerToBytes (header : TlvHeader) :
    bytesToHeader (headerToBytes header) = header := by
  obtain ⟨type, ⟨padding, dataSize⟩⟩ := header
  have ht := type.toNat_lt
  have hhi : (UInt8.ofNat (type.toNat / 256)).toNat = type.toNat / 256 := by
    rw [UInt8.toNat_ofNat']
    omega
  have hlo : (UInt8.ofNat (type.toNat % 256)).toNat = type.toNat % 256 := by
    rw [UInt8.toNat_ofNat']
    omega
  have htype : type.toNat / 256 * 256 + type.toNat % 256 = type.toNat := by omega
  simp only [bytesToHeader, headerToBytes, List.getD_cons_zero, List.getD_cons_succ, hhi, hlo,
    htype, UInt16.ofNat_toNat]

/-! ## Headers of short payloads -/

theorem toNat_dataSize_makeHeader (type : UInt16) (n : Nat) :
    (makeHeader type n).payloadSize.dataSize.toNat = n % 256 := UInt8.toNat_ofNat'

theorem span_makeHeader (type : UInt16) {n : Nat} (hn : n < 256) :
    (makeHeader type n).span = paddedSize n := by
  have hpad := calculatePadding_lt n
  have hp : (makeHeader type n).payloadSize.padding.toNat = calculatePadding n :=
    UInt8.toNat_ofNat_of_lt' (by unfold UInt8.size; omega)
  rw [TlvHeader.span, toNat_dataSize_makeHeader, hp, paddedSize]
  omega

theorem isFree_makeHeader (type : UInt16) {n : Nat} (hn : n < 256) :
    (makeHeader type n).IsFree ↔ type = emptyType ∨ n = 0 := by
  have hsize : (makeHeader type n).payloadSize.dataSize = 0 ↔ n = 0 := by
    rw [← UInt8.toNat_inj, toNat_dataSize_makeHeader]
    exact ⟨fun h => by simpa [Nat.mod_eq_of_lt hn] using h, fun h => by rw [h]; rfl⟩
  rw [TlvHeader.IsFree, hsize]
  rfl

/-! ## Records in memory -/

/-- The record of `data` under `type` stands at `o`. -/
def Holds (m : Mem) (o : Nat) (type : UInt16) (data : List UInt8) : Prop :=
  m.slice o (recordSize data.length) = record type data

section Holds

variable {m m' : Mem} {o : Nat} {type : UInt16} {data : List UInt8}

theorem holds_blit (m : Mem) (o : Nat) (type : UInt16) (data : List UInt8) :
    Holds (m.blit o (record type data)) o type data := by
  have h := m.slice_blit o (record type data)
  rwa [length_record] at h

theorem Holds.congr (h : Holds m o type data) (hm : m.Agree m' o (o + recordSize data.length)) :
    Holds m' o type data := by
  rw [Holds, ← hm.slice (Nat.le_refl _) (Nat.le_refl _)]
  exact h

theorem Holds.split (h : Holds m o type data) :
    m.slice o headerSize = headerToBytes (makeHeader type data.length) ∧
      m.slice (o + headerSize) (paddedSize data.length) = paddedData data := by
  unfold Holds recordSize at h
  rw [Mem.slice_add] at h
  exact List.append_inj h (by simp)

theorem Holds.headerAt (h : Holds m o type data) : headerAt m o = makeHeader type data.length := by
  rw [headerAt_eq h.split.1, bytesToHeader_headerToBytes]

theorem Holds.nextRecord (h : Holds m o type data) (hn : data.length < 256) :
    nextRecord m o = o + recordSize data.length := by
  rw [Tlv.nextRecord, h.headerAt, span_makeHeader type hn, recordSize, Nat.add_assoc]

theorem Holds.payload (h : Holds m o type data) {n : Nat} (hn : n ≤ data.length) :
    m.slice (o + headerSize) n = data.take n := by
  have hpad := le_paddedSize data.length
  rw [← Mem.take_slice m (o + headerSize) (show n ≤ paddedSize data.length by omega), h.split.2,
    paddedData, List.take_append_of_le_length hn]

/-- A held record is in use, and its header is no free-slot marker. -/
theorem Holds.not_isFree (h : Holds m o type data) (htype : type ≠ emptyType)
    (hpos : 0 < data.length) (hn : data.length < 256) : ¬(Tlv.headerAt m o).IsFree := by
  rw [h.headerAt, isFree_makeHeader type hn]
  rintro (h | h)
  · exact htype h
  · omega

theorem Holds.readResult (h : Holds m o type data) (hlen : data.length < 256) {endOffset n : Nat}
    (hin : o + recordSize data.length ≤ endOffset) (hn : n ≤ data.length) :
    readResult m endOffset n (some o) = (0, data.take n) := by
  have hpad := le_paddedSize data.length
  unfold recordSize at hin
  simp only [Tlv.readResult, h.headerAt, span_makeHeader type hlen, h.payload hn]
  rw [if_pos (by omega), if_neg (by omega)]

end Holds

/-! ## The write loop -/

theorem writeBuff_append_drop {data : List UInt8} {w : Nat} (hw : w % 4 = 0)
    (h : w < data.length) :
    (paddedData data).drop w = writeBuff data w ++ (paddedData data).drop (w + dataAlign) := by
  have hchunk : ((paddedData data).drop w).take dataAlign = writeBuff data w := by
    rw [paddedData, List.drop_append_of_le_length (Nat.le_of_lt h), List.take_append,
      List.take_replicate, List.length_drop, writeBuff]
    congr 1
    · rcases Nat.le_total (data.length - w) dataAlign with hle | hle
      · rw [Nat.min_eq_left hle, List.take_of_length_le (by simpa using hle),
          List.take_of_length_le (by simp)]
      · rw [Nat.min_eq_right hle]
    · congr 1
      unfold calculatePadding dataAlign
      omega
  rw [← hchunk, ← List.drop_drop, List.take_append_drop]

theorem length_writeBuff {data : List UInt8} {w : Nat} : (writeBuff data w).length = dataAlign := by
  simp only [writeBuff, List.length_append, List.length_take, List.length_drop,
    List.length_replicate]
  omega

section Loop

variable {write : σ → Nat → List UInt8 → Int × σ} {view : σ → Mem} {data : List UInt8}

theorem tlvWriteLoop_eq
    (hwrite : ∀ s o bs, ∃ s', write s o bs = (0, s') ∧ view s' = (view s).blit o bs)
    (hlen : data.length ≤ 65532) {offset w fuel : Nat} (hw : w % 4 = 0)
    (hend : offset + (paddedSize data.length - w) < 2 ^ 32) (hfuel : data.length < w + fuel)
    (hle : w ≤ paddedSize data.length) (hpos : 0 < fuel) (s : σ) :
    ∃ s', tlvWriteLoop write data fuel offset w s = (some 0, s') ∧
      view s' = (view s).blit offset ((paddedData data).drop w) := by
  induction fuel generalizing offset w s with
  | zero => cases hpos
  | succ fuel ih =>
    have hpad := paddedSize_lt data.length
    have hmod := paddedSize_mod data.length
    have hdata := le_paddedSize data.length
    simp only [tlvWriteLoop]
    by_cases hmore : w < data.length
    · obtain ⟨s₁, hs₁, hv₁⟩ := hwrite s offset (writeBuff data w)
      have hstep : u16 (w + dataAlign) = w + dataAlign :=
        Nat.mod_eq_of_lt (by unfold dataAlign; omega)
      have hoff : u32 (offset + dataAlign) = offset + dataAlign :=
        u32_of_lt (by unfold dataAlign; omega)
      simp only [hmore, if_true, hs₁, ne_eq, not_true_eq_false, if_false, hstep, hoff]
      obtain ⟨s₂, hs₂, hv₂⟩ := @ih (offset + dataAlign) (w + dataAlign)
        (by unfold dataAlign; omega) (by unfold dataAlign; omega) (by unfold dataAlign; omega)
        (by unfold dataAlign; omega) (by omega) s₁
      refine ⟨s₂, hs₂, ?_⟩
      rw [hv₂, hv₁, writeBuff_append_drop hw hmore, Mem.blit_append, length_writeBuff]
    · simp only [hmore, if_false]
      refine ⟨s, rfl, ?_⟩
      rw [List.drop_of_length_le (by rw [length_paddedData]; omega), Mem.blit_nil]

/-- `data_written` wraps to `0` before it reaches a size above 65532. -/
theorem tlvWriteLoop_stuck
    (hwrite : ∀ s o bs, ∃ s', write s o bs = (0, s') ∧ view s' = (view s).blit o bs)
    (hlen : 65532 < data.length) {offset w fuel : Nat} (hw : w % 4 = 0) (hle : w ≤ 65532) (s : σ) :
    (tlvWriteLoop write data fuel offset w s).1 = none := by
  induction fuel generalizing offset w s with
  | zero => rfl
  | succ fuel ih =>
    obtain ⟨s₁, hs₁, -⟩ := hwrite s offset (writeBuff data w)
    have hmore : w < data.length := by omega
    simp only [tlvWriteLoop, hmore, if_true, hs₁, ne_eq, not_true_eq_false, if_false]
    exact ih (by unfold u16 dataAlign; omega) (by unfold u16 dataAlign; omega) s₁

end Loop

/-! ## Writes -/

section Write

variable {ctx : TlvCtx σ} {view : σ → Mem}

/-- A write for which there is no room is rejected and changes nothing. -/
theorem tlvWrite_full (hs : FaultFree ctx.storageImpl view) (hw : NoWrap ctx) (s : σ)
    (type : UInt16) (data : List UInt8)
    (hsum : ctx.endOffset + recordSize data.length < 2 ^ 32)
    (hfull : ctx.endOffset <
      freeSlot (view s) ctx.endOffset ctx.firstOffset + recordSize data.length) :
    ∃ s', tlvWrite ctx s type data = (some (-enomem), s') ∧ view s' = view s := by
  obtain ⟨read, hread, -⟩ := hs.read
  obtain ⟨write, hwrite, -⟩ := hs.write
  obtain ⟨s₁, hs₁, hv₁⟩ := getNextFreeOffset_eq hs hw s
  rw [getNextFreeOffset] at hs₁
  have hslot := @freeSlot_le (view s) ctx.endOffset ctx.firstOffset
  have hrej : Rejected ctx.endOffset (freeSlot (view s) ctx.endOffset ctx.firstOffset)
      data.length := by
    unfold recordSize paddedSize at hsum hfull
    unfold Rejected
    rw [u32_of_lt (by omega)]
    omega
  simp only [tlvWrite, tlvWriteFor, hread, hwrite, hs₁, hrej, if_true]
  exact ⟨s₁, rfl, hv₁⟩

section Fits

variable (hs : FaultFree ctx.storageImpl view) (hw : NoWrap ctx) (s : σ) (type : UInt16)
  (data : List UInt8)
  (hfits : freeSlot (view s) ctx.endOffset ctx.firstOffset + recordSize data.length ≤ ctx.endOffset)

include hw hfits in
theorem not_rejected :
    ¬Rejected ctx.endOffset (freeSlot (view s) ctx.endOffset ctx.firstOffset) data.length := by
  have hlast := hw.last
  unfold recordSize paddedSize at hfits
  unfold Rejected
  rw [u32_of_lt (by omega)]
  omega

include hs hw hfits in
/-- A write for which there is room stores its record at the free slot. -/
theorem tlvWrite_fits (hlen : data.length ≤ 65532) :
    ∃ s', tlvWrite ctx s type data = (some 0, s') ∧
      view s' = (view s).blit (freeSlot (view s) ctx.endOffset ctx.firstOffset)
        (record type data) := by
  have hacc := not_rejected hw s data hfits
  have hlast := hw.last
  obtain ⟨read, hread, -⟩ := hs.read
  obtain ⟨write, hwrite, hwr⟩ := hs.write
  obtain ⟨s₁, hs₁, hv₁⟩ := getNextFreeOffset_eq hs hw s
  rw [getNextFreeOffset] at hs₁
  generalize freeSlot (view s) ctx.endOffset ctx.firstOffset = slot at *
  unfold recordSize at hfits
  obtain ⟨s₂, hs₂, hv₂⟩ := hwr s₁ slot (headerToBytes (makeHeader type data.length))
  have hslot : u32 (slot + headerSize) = slot + headerSize := u32_of_lt (by omega)
  have hpad := paddedSize_lt data.length
  obtain ⟨s₃, hs₃, hv₃⟩ := @tlvWriteLoop_eq σ write view data hwr hlen (slot + headerSize) 0
    loopFuel rfl (by omega) (by unfold loopFuel; omega) (Nat.zero_le _) (by decide) s₂
  simp only [tlvWrite, tlvWriteFor, hread, hwrite, hs₁, hacc, if_false, hs₂, ne_eq, not_true_eq_false, hslot]
  refine ⟨s₃, hs₃, ?_⟩
  rw [hv₃, hv₂, hv₁, List.drop_zero, record, Mem.blit_append, length_headerToBytes]

include hs hw hfits in
theorem tlvWrite_stuck (hlen : 65532 < data.length) : (tlvWrite ctx s type data).1 = none := by
  have hacc := not_rejected hw s data hfits
  obtain ⟨read, hread, -⟩ := hs.read
  obtain ⟨write, hwrite, hwr⟩ := hs.write
  obtain ⟨s₁, hs₁, -⟩ := getNextFreeOffset_eq hs hw s
  rw [getNextFreeOffset] at hs₁
  obtain ⟨s₂, hs₂, -⟩ := hwr s₁ (freeSlot (view s) ctx.endOffset ctx.firstOffset)
    (headerToBytes (makeHeader type data.length))
  simp only [tlvWrite, tlvWriteFor, hread, hwrite, hs₁, hacc, if_false, hs₂, ne_eq, not_true_eq_false]
  exact tlvWriteLoop_stuck hwr hlen rfl (Nat.zero_le _) s₂

end Fits

/-- What a write that returns has done. -/
theorem tlvWrite_cases (hs : FaultFree ctx.storageImpl view) (hw : NoWrap ctx) {s s' : σ}
    {type : UInt16} {data : List UInt8} {ret : Int}
    (hsum : ctx.endOffset + recordSize data.length < 2 ^ 32)
    (h : tlvWrite ctx s type data = (some ret, s')) :
    (ret = -enomem ∧ view s' = view s ∧
      ctx.endOffset < freeSlot (view s) ctx.endOffset ctx.firstOffset + recordSize data.length) ∨
    (ret = 0 ∧ data.length ≤ 65532 ∧
      freeSlot (view s) ctx.endOffset ctx.firstOffset + recordSize data.length ≤ ctx.endOffset ∧
      view s' = (view s).blit (freeSlot (view s) ctx.endOffset ctx.firstOffset)
        (record type data)) := by
  by_cases hfits : freeSlot (view s) ctx.endOffset ctx.firstOffset + recordSize data.length ≤
      ctx.endOffset
  · right
    by_cases hlen : data.length ≤ 65532
    · obtain ⟨s₁, hs₁, hv₁⟩ := tlvWrite_fits hs hw s type data hfits hlen
      rw [hs₁] at h
      cases h
      exact ⟨rfl, hlen, hfits, hv₁⟩
    · have hstuck := tlvWrite_stuck hs hw s type data hfits (by omega)
      rw [h] at hstuck
      cases hstuck
  · left
    obtain ⟨s₁, hs₁, hv₁⟩ := tlvWrite_full hs hw s type data hsum (by omega)
    rw [hs₁] at h
    cases h
    exact ⟨rfl, hv₁, by omega⟩

end Write

end Sidewalk.Tlv
