import Sidewalk.Lib.Hops
import Sidewalk.Tlv.Storage

/-!
# What the scans compute

The three scans of the store are walks over the record headers of a region that differ only in
where they stop. On storage without faults, and in a region no record of which reaches past
`2 ^ 32`, `tlvLookup`, `tlvRead` and `getNextFreeOffset` are read off the resting places of these
walks, and `tlvWrite` is one block write at the free slot. Later modules reason about the walks
only.
-/

namespace Sidewalk.Tlv

open Sidewalk.Lib

variable {σ : Type}

/-! ## Headers in memory -/

def headerAt (m : Mem) (o : Nat) : TlvHeader := bytesToHeader (m.slice o headerSize)

/-- The offset behind the record at `o`. -/
def nextRecord (m : Mem) (o : Nat) : Nat := o + headerSize + (headerAt m o).span

theorem span_le (header : TlvHeader) : header.span ≤ 510 := by
  have h₁ := header.payloadSize.dataSize.toNat_lt
  have h₂ := header.payloadSize.padding.toNat_lt
  unfold TlvHeader.span
  omega

theorem lt_nextRecord (m : Mem) (o : Nat) : o < nextRecord m o := by
  unfold nextRecord headerSize
  omega

theorem nextRecord_le (m : Mem) (o : Nat) : nextRecord m o ≤ o + 514 := by
  have := span_le (headerAt m o)
  unfold nextRecord headerSize
  omega

theorem headerAt_eq {m : Mem} {o : Nat} {bs : List UInt8} (h : m.slice o headerSize = bs) :
    headerAt m o = bytesToHeader bs := by
  rw [headerAt, h]

theorem headerAt_congr {m m' : Mem} {lo hi o : Nat} (h : m.Agree m' lo hi) (hlo : lo ≤ o)
    (hhi : o + headerSize ≤ hi) : headerAt m o = headerAt m' o := by
  rw [headerAt, headerAt, h.slice hlo hhi]

theorem nextRecord_congr {m m' : Mem} {lo hi o : Nat} (h : m.Agree m' lo hi) (hlo : lo ≤ o)
    (hhi : o + headerSize ≤ hi) : nextRecord m o = nextRecord m' o := by
  rw [nextRecord, nextRecord, headerAt_congr h hlo hhi]

/-! ## The walks -/

/-- The walk of the free-slot search. -/
def freeHops (m : Mem) (endOffset : Nat) : Hops where
  next o := if o ≤ endOffset ∧ ¬(headerAt m o).IsFree then some (nextRecord m o) else none
  bound := endOffset
  lt_next {o o'} h := by
    split at h
    · cases h; exact lt_nextRecord m o
    · cases h
  le_bound h := by
    split at h
    · next hc => exact hc.1
    · cases h

/-- The walk of a lookup. -/
def lookupHops (m : Mem) (endOffset : Nat) (type : UInt16) : Hops where
  next o :=
    if o + headerSize ≤ endOffset ∧ (headerAt m o).type ≠ type then some (nextRecord m o) else none
  bound := endOffset
  lt_next {o o'} h := by
    split at h
    · cases h; exact lt_nextRecord m o
    · cases h
  le_bound h := by
    split at h
    · next hc => exact Nat.le_trans (Nat.le_add_right _ _) hc.1
    · cases h

/-- The offset the free-slot search from `o` returns. -/
def freeSlot (m : Mem) (endOffset o : Nat) : Nat :=
  let r := (freeHops m endOffset).rest o
  if r ≤ endOffset then r else endOffset

/-- The offset of the first record of type `type` that a lookup from `o` meets. -/
def findType (m : Mem) (endOffset : Nat) (type : UInt16) (o : Nat) : Option Nat :=
  let r := (lookupHops m endOffset type).rest o
  if r + headerSize ≤ endOffset then some r else none

section Walks

variable {m : Mem} {endOffset o o' : Nat} {type : UInt16}

theorem freeHops_some (h : (freeHops m endOffset).next o = some o') :
    o ≤ endOffset ∧ ¬(headerAt m o).IsFree ∧ o' = nextRecord m o := by
  simp only [freeHops] at h
  split at h
  · next hc => cases h; exact ⟨hc.1, hc.2, rfl⟩
  · cases h

theorem freeHops_next (ho : o ≤ endOffset) (hf : ¬(headerAt m o).IsFree) :
    (freeHops m endOffset).next o = some (nextRecord m o) := by
  simp only [freeHops, ho, hf, not_false_eq_true, and_self, if_true]

theorem freeHops_none : (freeHops m endOffset).next o = none ↔
    endOffset < o ∨ (headerAt m o).IsFree := by
  simp only [freeHops]
  split
  · next hc => simp only [hc.2, or_false, reduceCtorEq, false_iff]; omega
  · next hc =>
    simp only [true_iff]
    by_cases ho : o ≤ endOffset
    · exact .inr (by_contra fun hf => hc ⟨ho, hf⟩)
    · exact .inl (by omega)

theorem lookupHops_some (h : (lookupHops m endOffset type).next o = some o') :
    o + headerSize ≤ endOffset ∧ (headerAt m o).type ≠ type ∧ o' = nextRecord m o := by
  simp only [lookupHops] at h
  split at h
  · next hc => cases h; exact ⟨hc.1, hc.2, rfl⟩
  · cases h

theorem lookupHops_next (ho : o + headerSize ≤ endOffset) (ht : (headerAt m o).type ≠ type) :
    (lookupHops m endOffset type).next o = some (nextRecord m o) := by
  simp only [lookupHops, ho, ht, ne_eq, not_false_eq_true, and_self, if_true]

theorem lookupHops_none : (lookupHops m endOffset type).next o = none ↔
    endOffset < o + headerSize ∨ (headerAt m o).type = type := by
  simp only [lookupHops]
  split
  · next hc => simp only [hc.2, or_false, reduceCtorEq, false_iff]; omega
  · next hc =>
    simp only [true_iff]
    by_cases ho : o + headerSize ≤ endOffset
    · exact .inr (by_contra fun ht => hc ⟨ho, ht⟩)
    · exact .inl (by omega)

/-! ### Where the walks come to rest -/

theorem freeSlot_le : freeSlot m endOffset o ≤ endOffset := by
  simp only [freeSlot]
  split
  · assumption
  · exact Nat.le_refl _

theorem freeSlot_hop (h : (freeHops m endOffset).next o = some o') :
    freeSlot m endOffset o = freeSlot m endOffset o' := by
  simp only [freeSlot, Hops.rest_of_some h]

theorem freeSlot_path {p : Nat} (h : (freeHops m endOffset).Path o p) :
    freeSlot m endOffset o = freeSlot m endOffset p := by
  simp only [freeSlot, h.rest_eq]

theorem freeSlot_free (ho : o ≤ endOffset) (hf : (headerAt m o).IsFree) :
    freeSlot m endOffset o = o := by
  simp only [freeSlot, Hops.rest_of_none (freeHops_none.mpr (.inr hf)), ho, if_true]

theorem freeSlot_out (ho : endOffset < o) : freeSlot m endOffset o = endOffset := by
  simp only [freeSlot, Hops.rest_of_none (freeHops_none.mpr (.inl ho))]
  rw [if_neg (by omega)]

/-- A free slot that leaves room behind it is where the search came to rest. -/
theorem rest_eq_freeSlot (h : freeSlot m endOffset o < endOffset) :
    (freeHops m endOffset).rest o = freeSlot m endOffset o := by
  simp only [freeSlot] at h ⊢
  split at h
  · next hc => rw [if_pos hc]
  · omega

theorem le_freeSlot (h : freeSlot m endOffset o < endOffset) : o ≤ freeSlot m endOffset o := by
  rw [← rest_eq_freeSlot h]
  exact Hops.le_rest _ _

theorem path_freeSlot (h : freeSlot m endOffset o < endOffset) :
    (freeHops m endOffset).Path o (freeSlot m endOffset o) := by
  rw [← rest_eq_freeSlot h]
  exact Hops.path_rest _ _

theorem findType_hop (h : (lookupHops m endOffset type).next o = some o') :
    findType m endOffset type o = findType m endOffset type o' := by
  simp only [findType, Hops.rest_of_some h]

theorem findType_path {p : Nat} (h : (lookupHops m endOffset type).Path o p) :
    findType m endOffset type o = findType m endOffset type p := by
  simp only [findType, h.rest_eq]

theorem findType_here (ho : o + headerSize ≤ endOffset) (ht : (headerAt m o).type = type) :
    findType m endOffset type o = some o := by
  simp only [findType, Hops.rest_of_none (lookupHops_none.mpr (.inr ht)), ho, if_true]

theorem findType_out (ho : endOffset < o + headerSize) : findType m endOffset type o = none := by
  simp only [findType, Hops.rest_of_none (lookupHops_none.mpr (.inl ho))]
  rw [if_neg (by omega)]

theorem findType_some {p : Nat} (h : findType m endOffset type o = some p) :
    p + headerSize ≤ endOffset ∧ (headerAt m p).type = type := by
  simp only [findType] at h
  split at h
  · next hc =>
    cases h
    refine ⟨hc, ?_⟩
    rcases lookupHops_none.mp (Hops.next_rest (lookupHops m endOffset type) o) with h | h
    · omega
    · exact h
  · cases h

theorem le_of_findType {p : Nat} (h : findType m endOffset type o = some p) : o ≤ p := by
  simp only [findType] at h
  split at h
  · cases h
    exact Hops.le_rest _ o
  · cases h

/-- A lookup that walks along records in use finds what it finds among them, or else looks on
behind them. -/
theorem findType_split {p : Nat} (h : (freeHops m endOffset).Path o p) (hp : p ≤ endOffset) :
    findType m endOffset type o =
      (findType m p type o).orElse fun _ => findType m endOffset type p := by
  induction h with
  | refl o =>
    have hnone : findType m o type o = none :=
      findType_out (Nat.lt_add_of_pos_right (by decide))
    rw [hnone]
    rfl
  | @hop o o' p hn hrest ih =>
    obtain ⟨-, -, rfl⟩ := freeHops_some hn
    have hle := hrest.le
    have hroom : o + headerSize ≤ p := by
      unfold nextRecord at hle
      omega
    by_cases ht : (headerAt m o).type = type
    · rw [findType_here (by omega) ht, findType_here hroom ht]
      rfl
    · rw [findType_hop (lookupHops_next (by omega) ht), findType_hop (lookupHops_next hroom ht),
        ih hp]

/-- A record found among records in use ends where they do. -/
theorem nextRecord_le_of_find {p q : Nat} (h : (freeHops m endOffset).Path o p)
    (hq : findType m p type o = some q) : nextRecord m q ≤ p := by
  induction h with
  | refl o =>
    rw [findType_out (Nat.lt_add_of_pos_right (by decide))] at hq
    cases hq
  | @hop o o' p hn hrest ih =>
    obtain ⟨-, -, rfl⟩ := freeHops_some hn
    have hle := hrest.le
    have hroom : o + headerSize ≤ p := by
      unfold nextRecord at hle
      omega
    by_cases ht : (headerAt m o).type = type
    · rw [findType_here hroom ht] at hq
      cases hq
      exact hle
    · rw [findType_hop (lookupHops_next hroom ht)] at hq
      exact ih hq

/-- A lookup of a type that no record before `p` has skips to `p`. -/
theorem lookup_path_of_free {p : Nat} (h : (freeHops m endOffset).Path o p) (hp : p ≤ endOffset)
    (habsent : ∀ q, findType m endOffset type o = some q → p ≤ q) :
    (lookupHops m endOffset type).Path o p := by
  induction h with
  | refl => exact .refl _
  | @hop o o' p hn hrest ih =>
    obtain ⟨-, -, rfl⟩ := freeHops_some hn
    have hle := hrest.le
    have hroom : o + headerSize ≤ endOffset := by
      unfold nextRecord at hle
      omega
    by_cases ht : (headerAt m o).type = type
    · have := habsent o (findType_here hroom ht)
      have := lt_nextRecord m o
      omega
    · have hnext := lookupHops_next hroom ht
      refine .hop hnext (ih hp fun q hq => habsent q ?_)
      rwa [findType_hop hnext]

/-- A lookup that walks along records in use stops at one of them, or looks on behind them. -/
theorem findType_along_free {p q : Nat} (h : (freeHops m endOffset).Path o p)
    (hq : findType m endOffset type o = some q) :
    ¬(headerAt m q).IsFree ∨ findType m endOffset type p = some q := by
  induction h with
  | refl => exact .inr hq
  | @hop o o' p hn _ ih =>
    obtain ⟨-, hf, rfl⟩ := freeHops_some hn
    by_cases hin : o + headerSize ≤ endOffset
    · by_cases ht : (headerAt m o).type = type
      · rw [findType_here hin ht] at hq
        cases hq
        exact .inl hf
      · rw [findType_hop (lookupHops_next hin ht)] at hq
        exact ih hq
    · rw [findType_out (by omega)] at hq
      cases hq

/-! ### Frames -/

theorem free_path_congr {m' : Mem} {p : Nat} (h : (freeHops m endOffset).Path o p)
    (hm : m.Agree m' o p) : (freeHops m' endOffset).Path o p := by
  refine h.mono fun q q' hq hn hle => ?_
  obtain ⟨hin, hf, rfl⟩ := freeHops_some hn
  have hroom : q + headerSize ≤ p := by
    unfold nextRecord at hle
    omega
  rw [headerAt_congr hm hq hroom] at hf
  rw [nextRecord_congr hm hq hroom]
  exact freeHops_next hin hf

theorem lookup_path_congr {m' : Mem} {p : Nat} (h : (lookupHops m endOffset type).Path o p)
    (hm : m.Agree m' o p) : (lookupHops m' endOffset type).Path o p := by
  refine h.mono fun q q' hq hn hle => ?_
  obtain ⟨hin, ht, rfl⟩ := lookupHops_some hn
  have hroom : q + headerSize ≤ p := by
    unfold nextRecord at hle
    omega
  rw [headerAt_congr hm hq hroom] at ht
  rw [nextRecord_congr hm hq hroom]
  exact lookupHops_next hin ht

/-- A lookup reads nothing outside the region. -/
theorem findType_congr {m' : Mem} (hm : m.Agree m' o endOffset) :
    findType m endOffset type o = findType m' endOffset type o := by
  induction o using (lookupHops m endOffset type).induct with
  | stop o hn =>
    rcases lookupHops_none.mp hn with h | h
    · rw [findType_out h, findType_out h]
    · by_cases hin : o + headerSize ≤ endOffset
      · rw [findType_here hin h,
          findType_here hin (by rw [← headerAt_congr hm (Nat.le_refl o) hin]; exact h)]
      · rw [findType_out (by omega), findType_out (by omega)]
  | hop o o' hn ih =>
    rw [findType_hop hn, ih (hm.mono (Nat.le_of_lt (Hops.lt_next _ hn)) (Nat.le_refl _))]
    obtain ⟨hin, ht, rfl⟩ := lookupHops_some hn
    rw [headerAt_congr hm (Nat.le_refl o) hin] at ht
    rw [nextRecord_congr hm (Nat.le_refl o) hin, ← findType_hop (lookupHops_next hin ht)]

/-- The same region at another place of another memory gives the same lookups. -/
theorem findType_shift {m' : Mem} {d : Nat} (hm : ∀ a, o ≤ a → a < endOffset → m' (d + a) = m a) :
    findType m' (d + endOffset) type (d + o) = (findType m endOffset type o).map (d + ·) := by
  have hhead : ∀ o, (∀ a, o ≤ a → a < endOffset → m' (d + a) = m a) → o + headerSize ≤ endOffset →
      headerAt m' (d + o) = headerAt m o := by
    intro o hm hin
    refine headerAt_eq (Mem.slice_congr fun i hi => ?_)
    rw [Nat.add_assoc]
    exact hm (o + i) (by omega) (by omega)
  induction o using (lookupHops m endOffset type).induct with
  | stop o hn =>
    rcases lookupHops_none.mp hn with h | h
    · rw [findType_out h, findType_out (by omega), Option.map_none]
    · by_cases hin : o + headerSize ≤ endOffset
      · rw [findType_here hin h,
          findType_here (by omega) (by rw [hhead o hm hin]; exact h), Option.map_some]
      · rw [findType_out (by omega), findType_out (by omega), Option.map_none]
  | hop o o' hn ih =>
    have hlt := Hops.lt_next _ hn
    obtain ⟨hin, ht, rfl⟩ := lookupHops_some hn
    have hnext : (lookupHops m' (d + endOffset) type).next (d + o) = some (d + nextRecord m o) := by
      rw [lookupHops_next (by omega) (by rw [hhead o hm hin]; exact ht), nextRecord, nextRecord,
        hhead o hm hin]
      simp only [Nat.add_assoc]
    rw [findType_hop hn, findType_hop hnext]
    exact ih fun a h₁ h₂ => hm a (by omega) h₂

end Walks

/-! ## The scans on storage without faults -/

/-- No offset a scan computes wraps: neither the first record nor a record that starts within
the region reaches past `2 ^ 32`. -/
structure NoWrap (ctx : TlvCtx σ) : Prop where
  first : ctx.startOffset + ctx.tlvStorageStartMarkerSize + 514 < 2 ^ 32
  last : ctx.endOffset + 514 < 2 ^ 32

theorem NoWrap.firstOffset_eq {ctx : TlvCtx σ} (h : NoWrap ctx) :
    ctx.firstOffset = ctx.startOffset + ctx.tlvStorageStartMarkerSize := by
  have := h.first
  exact Nat.mod_eq_of_lt (by omega)

theorem u32_of_lt {n : Nat} (h : n < 2 ^ 32) : u32 n = n := Nat.mod_eq_of_lt h

/-- The step of all three loops from a header they read inside the region. -/
theorem u32_nextRecord {m : Mem} {o endOffset : Nat} (ho : o ≤ endOffset)
    (hend : endOffset + 514 < 2 ^ 32) :
    u32 (o + headerSize + (bytesToHeader (m.slice o headerSize)).span) = nextRecord m o := by
  have hnext : o + headerSize + (bytesToHeader (m.slice o headerSize)).span ≤ o + 514 :=
    nextRecord_le m o
  exact u32_of_lt (by omega)

/-- What `tlv_lookup` answers when the first record of the type is at the given offset. -/
def lookupResult (m : Mem) : Option Nat → Int × Option TlvHeader
  | none => (-enodata, none)
  | some o => (0, some (headerAt m o))

/-- What `tlv_read` answers when the first record of the type is at the given offset. -/
def readResult (m : Mem) (endOffset dataSize : Nat) : Option Nat → Int × List UInt8
  | none => (-enodata, [])
  | some o =>
    if dataSize ≤ (headerAt m o).span then
      if endOffset < o + headerSize + dataSize then (-enodata, [])
      else (0, m.slice (o + headerSize) dataSize)
    else (-enomem, [])

section Loops

variable {read : σ → Nat → Nat → Int × List UInt8 × σ} {view : σ → Mem} {m : Mem}
  {endOffset : Nat} {type : UInt16}

theorem tlvLookupLoop_eq
    (hread : ∀ s o n, ∃ s', read s o n = (0, (view s).slice o n, s') ∧ view s' = view s)
    (hend : endOffset + 514 < 2 ^ 32) {o : Nat} (ho : o + headerSize < 2 ^ 32) {fuel : Nat}
    (hfuel : endOffset < fuel + o) {s : σ} (hs : view s = m) (hpos : 0 < fuel) :
    ∃ s', tlvLookupLoop read endOffset type fuel o s =
      (some (lookupResult m (findType m endOffset type o)), s') ∧ view s' = m := by
  induction fuel generalizing o s with
  | zero => cases hpos
  | succ fuel ih =>
    simp only [tlvLookupLoop, u32_of_lt ho]
    by_cases hin : o + headerSize ≤ endOffset
    · obtain ⟨s₁, hr, hv⟩ := hread s o headerSize
      simp only [hin, if_true, hr, hs, ne_eq, not_true_eq_false, if_false]
      by_cases ht : (bytesToHeader (m.slice o headerSize)).type = type
      · simp only [ht, if_true]
        refine ⟨s₁, ?_, hv.trans hs⟩
        rw [findType_here hin ht]
        rfl
      · simp only [ht, if_false]
        have hnext := nextRecord_le m o
        have hlt := lt_nextRecord m o
        have hsize : headerSize = 4 := rfl
        rw [u32_nextRecord (by omega) hend, findType_hop (lookupHops_next hin ht)]
        exact ih (by omega) (by omega) (hv.trans hs) (by omega)
    · simp only [hin, if_false]
      refine ⟨s, ?_, hs⟩
      rw [findType_out (by omega)]
      rfl

theorem tlvReadLoop_eq
    (hread : ∀ s o n, ∃ s', read s o n = (0, (view s).slice o n, s') ∧ view s' = view s)
    (hend : endOffset + 514 < 2 ^ 32) {dataSize o : Nat} (ho : o + headerSize < 2 ^ 32)
    {fuel : Nat} (hfuel : endOffset < fuel + o) {s : σ} (hs : view s = m) (hpos : 0 < fuel) :
    ∃ s', tlvReadLoop read endOffset type dataSize fuel o s =
      (some (readResult m endOffset dataSize (findType m endOffset type o)), s') ∧
        view s' = m := by
  induction fuel generalizing o s with
  | zero => cases hpos
  | succ fuel ih =>
    simp only [tlvReadLoop, u32_of_lt ho]
    by_cases hin : o + headerSize ≤ endOffset
    · obtain ⟨s₁, hr, hv⟩ := hread s o headerSize
      simp only [hin, if_true, hr, hs, ne_eq, not_true_eq_false, if_false]
      have hspan := span_le (bytesToHeader (m.slice o headerSize))
      by_cases ht : (bytesToHeader (m.slice o headerSize)).type = type
      · rw [findType_here hin ht]
        simp only [ht, if_true, readResult, headerAt]
        by_cases hsize : dataSize ≤ (bytesToHeader (m.slice o headerSize)).span
        · rw [u32_of_lt (by omega)]
          simp only [hsize, if_true]
          by_cases hout : endOffset < o + headerSize + dataSize
          · simp only [hout, if_true]
            exact ⟨s₁, rfl, hv.trans hs⟩
          · obtain ⟨s₂, hr₂, hv₂⟩ := hread s₁ (o + headerSize) dataSize
            simp only [hout, if_false, hr₂, hv, hs]
            exact ⟨s₂, rfl, hv₂.trans (hv.trans hs)⟩
        · simp only [hsize, if_false]
          exact ⟨s₁, rfl, hv.trans hs⟩
      · simp only [ht, if_false]
        have hnext := nextRecord_le m o
        have hlt := lt_nextRecord m o
        have hsize : headerSize = 4 := rfl
        rw [u32_nextRecord (by omega) hend, findType_hop (lookupHops_next hin ht)]
        exact ih (by omega) (by omega) (hv.trans hs) (by omega)
    · simp only [hin, if_false]
      refine ⟨s, ?_, hs⟩
      rw [findType_out (by omega)]
      rfl

theorem getNextFreeOffsetLoop_eq
    (hread : ∀ s o n, ∃ s', read s o n = (0, (view s).slice o n, s') ∧ view s' = view s)
    (hend : endOffset + 514 < 2 ^ 32) {o : Nat} {fuel : Nat} (hfuel : endOffset + 1 < fuel + o)
    {s : σ} (hs : view s = m) (hpos : 0 < fuel) :
    ∃ s', getNextFreeOffsetLoop read endOffset fuel o s =
      (some (freeSlot m endOffset o), s') ∧ view s' = m := by
  induction fuel generalizing o s with
  | zero => cases hpos
  | succ fuel ih =>
    simp only [getNextFreeOffsetLoop]
    by_cases hin : o ≤ endOffset
    · obtain ⟨s₁, hr, hv⟩ := hread s o headerSize
      simp only [hin, if_true, hr, hs, ne_eq, not_true_eq_false, if_false]
      by_cases hf : (bytesToHeader (m.slice o headerSize)).IsFree
      · simp only [hf, if_true]
        refine ⟨s₁, ?_, hv.trans hs⟩
        rw [freeSlot_free hin hf]
      · simp only [hf, if_false]
        have hnext := nextRecord_le m o
        have hlt := lt_nextRecord m o
        have hsize : u32 (o + headerSize) = o + headerSize :=
          u32_of_lt (by unfold headerSize; omega)
        rw [hsize, u32_nextRecord hin hend, freeSlot_hop (freeHops_next hin hf)]
        exact ih (by omega) (hv.trans hs) (by omega)
    · simp only [hin, if_false]
      refine ⟨s, ?_, hs⟩
      rw [freeSlot_out (by omega)]

end Loops

section Scans

variable {ctx : TlvCtx σ} {view : σ → Mem}

theorem tlvLookup_eq (hs : FaultFree ctx.storageImpl view) (hw : NoWrap ctx) (s : σ)
    (type : UInt16) :
    ∃ s', tlvLookup ctx s type =
      (some (lookupResult (view s) (findType (view s) ctx.endOffset type ctx.firstOffset)), s') ∧
        view s' = view s := by
  obtain ⟨read, himpl, hread⟩ := hs.read
  have h₁ := hw.first
  have h₂ := hw.last
  have hfirst := hw.firstOffset_eq
  simp only [tlvLookup, himpl]
  exact tlvLookupLoop_eq hread h₂ (by unfold headerSize; omega) (by unfold loopFuel; omega) rfl
    (by unfold loopFuel; omega)

theorem tlvRead_eq (hs : FaultFree ctx.storageImpl view) (hw : NoWrap ctx) (s : σ)
    (type : UInt16) (dataSize : Nat) :
    ∃ s', tlvRead ctx s type dataSize =
      (some (readResult (view s) ctx.endOffset dataSize
        (findType (view s) ctx.endOffset type ctx.firstOffset)), s') ∧ view s' = view s := by
  obtain ⟨read, himpl, hread⟩ := hs.read
  have h₁ := hw.first
  have h₂ := hw.last
  have hfirst := hw.firstOffset_eq
  simp only [tlvRead, himpl]
  exact tlvReadLoop_eq hread h₂ (by unfold headerSize; omega) (by unfold loopFuel; omega) rfl
    (by unfold loopFuel; omega)

/-- What every read preserves, `tlv_read` preserves. -/
theorem tlvRead_preserves {P : σ → Prop}
    (hread : ∀ read, ctx.storageImpl.read = some read → ∀ s o n, P s → P (read s o n).2.2)
    (type : UInt16) (n : Nat) {s : σ} (hs : P s) : P (tlvRead ctx s type n).2 := by
  unfold tlvRead
  cases himpl : ctx.storageImpl.read with
  | none => exact hs
  | some read =>
    have hread := hread read himpl
    simp only
    generalize loopFuel = fuel
    generalize ctx.firstOffset = offset
    induction fuel generalizing offset s with
    | zero => exact hs
    | succ fuel ih =>
      have hstep := hread s offset headerSize hs
      simp only [tlvReadLoop]
      split
      · split
        · exact hstep
        · split
          · split
            · split
              · exact hstep
              · exact hread _ _ _ hstep
            · exact hstep
          · exact ih hstep _
      · exact hs

theorem view_tlvRead (hs : FaultFree ctx.storageImpl view) (s : σ) (type : UInt16) (n : Nat) :
    view (tlvRead ctx s type n).2 = view s := by
  refine tlvRead_preserves (P := fun s' => view s' = view s) ?_ type n rfl
  intro read himpl s' o k hs'
  obtain ⟨read', himpl', hread⟩ := hs.read
  rw [himpl] at himpl'
  cases himpl'
  obtain ⟨s'', hs'', hv⟩ := hread s' o k
  rw [hs'']
  exact hv.trans hs'

theorem getNextFreeOffset_eq (hs : FaultFree ctx.storageImpl view) (hw : NoWrap ctx) (s : σ) :
    ∃ s', getNextFreeOffset ctx s =
      (some (freeSlot (view s) ctx.endOffset ctx.firstOffset), s') ∧ view s' = view s := by
  obtain ⟨read, himpl, hread⟩ := hs.read
  have h₂ := hw.last
  simp only [getNextFreeOffset, getNextFreeOffsetFor, himpl]
  exact getNextFreeOffsetLoop_eq hread h₂ (by unfold loopFuel; omega) rfl
    (by unfold loopFuel; omega)

end Scans

end Sidewalk.Tlv
