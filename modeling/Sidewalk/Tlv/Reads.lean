import Sidewalk.Tlv.Honest

/-!
# What the scans read

Over arbitrary bytes, `tlv_lookup` and `tlv_read` step through the same records and stay inside
the region. The free-slot search of `tlv_write` tests `offset <= end_offset` only, so it reads a
header behind the region where the records in use lead to its last bytes.
-/

namespace Sidewalk.Tlv

open Sidewalk.Lib

/-! ## Reads inside the region -/

def Flash.ReadsInside (f : Flash) (lo hi : Nat) : Prop :=
  ∀ o n, .read o n ∈ f.requests → lo ≤ o ∧ o + n ≤ hi

/-- The call returns, and has read nothing outside the region. -/
def Contained {α : Type} (ctx : TlvCtx Flash) (r : Option α × Flash) : Prop :=
  r.1.isSome = true ∧ r.2.ReadsInside ctx.startOffset ctx.endOffset

structure ScansInside (ctx : TlvCtx Flash) (m : Mem) (type : UInt16) (dataSize : Nat)
    (data : List UInt8) : Prop where
  lookup : Contained ctx (tlvLookup ctx ⟨m, []⟩ type)
  read : Contained ctx (tlvRead ctx ⟨m, []⟩ type dataSize)
  write : Contained ctx (tlvWrite ctx ⟨m, []⟩ type data)

/-- The records in use do not lead to the end of the region or to one of its last three bytes. -/
def LeavesHeader {σ : Type} (ctx : TlvCtx σ) (m : Mem) : Prop :=
  ∀ o, (freeHops m ctx.endOffset).Path ctx.firstOffset o → o ≤ ctx.endOffset →
    o + headerSize ≤ ctx.endOffset

/-- A header fits behind the records in use. -/
theorem leavesHeader_of_room {σ : Type} {ctx : TlvCtx σ} {m : Mem}
    (hroom : freeSlot m ctx.endOffset ctx.firstOffset + headerSize ≤ ctx.endOffset) :
    LeavesHeader ctx m := by
  intro o hpath _
  have hrest : (freeHops m ctx.endOffset).rest ctx.firstOffset =
      freeSlot m ctx.endOffset ctx.firstOffset :=
    rest_eq_freeSlot (by unfold headerSize at hroom; omega)
  have hle : o ≤ (freeHops m ctx.endOffset).rest ctx.firstOffset := by
    rw [hpath.rest_eq]
    exact Hops.le_rest _ _
  omega

theorem Flash.ReadsInside.read {f : Flash} {lo hi o n : Nat} (h : f.ReadsInside lo hi)
    (hlo : lo ≤ o) (hhi : o + n ≤ hi) : (f.read o n).2.2.ReadsInside lo hi := by
  intro o' n' hmem
  rcases List.mem_cons.mp hmem with heq | hmem
  · cases heq
    exact ⟨hlo, hhi⟩
  · exact h o' n' hmem

section Loops

variable {σ : Type} {read : σ → Nat → Nat → Int × List UInt8 × σ} {P : σ → Prop}
  {lo endOffset : Nat} {type : UInt16}

/-- What every read inside the region preserves, the loop of `tlv_lookup` preserves. -/
theorem tlvLookupLoop_within (hend : endOffset + 514 < 2 ^ 32)
    (hread : ∀ s o n, lo ≤ o → o + n ≤ endOffset → P s → P (read s o n).2.2) {fuel o : Nat}
    (hlo : lo ≤ o) (ho : o + headerSize < 2 ^ 32) {s : σ} (hs : P s) :
    P (tlvLookupLoop read endOffset type fuel o s).2 := by
  have hsize : headerSize = 4 := rfl
  induction fuel generalizing o s with
  | zero => exact hs
  | succ fuel ih =>
    simp only [tlvLookupLoop, u32_of_lt ho]
    by_cases hin : o + headerSize ≤ endOffset
    · have hstep := hread s o headerSize hlo hin hs
      rw [if_pos hin]
      rcases hr : read s o headerSize with ⟨ret, raw, s₁⟩
      rw [hr] at hstep
      simp only
      split
      · exact hstep
      split
      · exact hstep
      · have hspan := span_le (bytesToHeader raw)
        rw [u32_of_lt (by omega)]
        exact ih (by omega) (by omega) hstep
    · rw [if_neg hin]
      exact hs

theorem tlvReadLoop_within (hend : endOffset + 514 < 2 ^ 32)
    (hread : ∀ s o n, lo ≤ o → o + n ≤ endOffset → P s → P (read s o n).2.2) {dataSize : Nat}
    {fuel o : Nat} (hlo : lo ≤ o) (ho : o + headerSize < 2 ^ 32) {s : σ} (hs : P s) :
    P (tlvReadLoop read endOffset type dataSize fuel o s).2 := by
  have hsize : headerSize = 4 := rfl
  induction fuel generalizing o s with
  | zero => exact hs
  | succ fuel ih =>
    simp only [tlvReadLoop, u32_of_lt ho]
    by_cases hin : o + headerSize ≤ endOffset
    · have hstep := hread s o headerSize hlo hin hs
      rw [if_pos hin]
      rcases hr : read s o headerSize with ⟨ret, raw, s₁⟩
      rw [hr] at hstep
      have hspan := span_le (bytesToHeader raw)
      simp only
      split
      · exact hstep
      split
      · split
        · next hfits =>
          rw [u32_of_lt (by omega)]
          split
          · exact hstep
          · next hout => exact hread _ _ _ (by omega) (by omega) hstep
        · exact hstep
      · rw [u32_of_lt (by omega)]
        exact ih (by omega) (by omega) hstep
    · rw [if_neg hin]
      exact hs

end Loops

/-! ## The free-slot search -/

section Search

variable {m : Mem} {lo endOffset : Nat}

/-- One round of the search. -/
theorem search_round {fuel o : Nat} {f : Flash} (hin : o ≤ endOffset)
    (hend : endOffset + 514 < 2 ^ 32) :
    getNextFreeOffsetLoop Flash.read endOffset (fuel + 1) o f =
      if (headerAt f.mem o).IsFree then (some o, (f.read o headerSize).2.2)
      else getNextFreeOffsetLoop Flash.read endOffset fuel (nextRecord f.mem o)
        (f.read o headerSize).2.2 := by
  have hoff : u32 (o + headerSize) = o + headerSize := u32_of_lt (by unfold headerSize; omega)
  rw [← u32_nextRecord hin hend, ← hoff]
  simp only [getNextFreeOffsetLoop, if_pos hin]
  rfl

theorem search_inside (hend : endOffset + 514 < 2 ^ 32) {fuel o : Nat} (hlo : lo ≤ o)
    (hleaves : ∀ p, (freeHops m endOffset).Path o p → p ≤ endOffset → p + headerSize ≤ endOffset)
    {f : Flash} (hm : f.mem = m) (hf : f.ReadsInside lo endOffset) :
    (getNextFreeOffsetLoop Flash.read endOffset fuel o f).2.ReadsInside lo endOffset := by
  induction fuel generalizing o f with
  | zero => exact hf
  | succ fuel ih =>
    by_cases hin : o ≤ endOffset
    · have hstep := hf.read hlo (hleaves o (.refl o) hin)
      rw [search_round hin hend]
      by_cases hfree : (headerAt f.mem o).IsFree
      · rw [if_pos hfree]
        exact hstep
      · rw [if_neg hfree, hm]
        rw [hm] at hfree
        refine ih (Nat.le_trans hlo (Nat.le_of_lt (lt_nextRecord m o))) ?_ hm hstep
        intro p hp
        exact hleaves p (.hop (freeHops_next hin hfree) hp)
    · simp only [getNextFreeOffsetLoop, if_neg hin]
      exact hf

theorem mem_requests_search (hend : endOffset + 514 < 2 ^ 32) {fuel o : Nat} {f : Flash}
    {r : Request} (hr : r ∈ f.requests) :
    r ∈ (getNextFreeOffsetLoop Flash.read endOffset fuel o f).2.requests := by
  induction fuel generalizing o f with
  | zero => exact hr
  | succ fuel ih =>
    by_cases hin : o ≤ endOffset
    · have hstep : r ∈ (f.read o headerSize).2.2.requests := List.mem_cons_of_mem _ hr
      rw [search_round hin hend]
      by_cases hfree : (headerAt f.mem o).IsFree
      · rw [if_pos hfree]
        exact hstep
      · rw [if_neg hfree]
        exact ih hstep
    · simp only [getNextFreeOffsetLoop, if_neg hin]
      exact hr

/-- The search reads the header of every place that the records lead to. -/
theorem search_reads (hend : endOffset + 514 < 2 ^ 32) {fuel o p : Nat}
    (hp : (freeHops m endOffset).Path o p) (hin : p ≤ endOffset) (hfuel : endOffset + 1 < fuel + o)
    (hpos : 0 < fuel) {f : Flash} (hm : f.mem = m) :
    .read p headerSize ∈ (getNextFreeOffsetLoop Flash.read endOffset fuel o f).2.requests := by
  induction hp generalizing fuel f with
  | refl o =>
    obtain ⟨fuel, rfl⟩ := Nat.exists_eq_succ_of_ne_zero hpos.ne'
    have hread : .read o headerSize ∈ (f.read o headerSize).2.2.requests := List.mem_cons_self
    rw [search_round hin hend]
    by_cases hfree : (headerAt f.mem o).IsFree
    · rw [if_pos hfree]
      exact hread
    · rw [if_neg hfree]
      exact mem_requests_search hend hread
  | @hop o o' p hn hrest ih =>
    obtain ⟨ho, hfree, rfl⟩ := freeHops_some hn
    obtain ⟨fuel, rfl⟩ := Nat.exists_eq_succ_of_ne_zero hpos.ne'
    have hlt := lt_nextRecord m o
    have hle := hrest.le
    rw [search_round ho hend, hm, if_neg hfree]
    exact ih hin (by omega) (by omega) hm

end Search

/-! ## The calls -/

section Calls

variable {ctx : TlvCtx Flash} {m : Mem} {type : UInt16} {data : List UInt8}

theorem mem_requests_writeLoop {fuel o w : Nat} {f : Flash} {a n : Nat} :
    .read a n ∈ (tlvWriteLoop Flash.write data fuel o w f).2.requests ↔ .read a n ∈ f.requests := by
  induction fuel generalizing o w f with
  | zero => rfl
  | succ fuel ih =>
    simp only [tlvWriteLoop]
    split
    · simp only [Flash.write, ne_eq, not_true_eq_false, if_false]
      rw [ih]
      simp
    · rfl

/-- A write reads what its free-slot search reads. -/
theorem mem_requests_write (himpl : ctx.storageImpl = Flash.storage) {f : Flash} {a n : Nat} :
    .read a n ∈ (tlvWrite ctx f type data).2.requests ↔
      .read a n ∈
        (getNextFreeOffsetLoop Flash.read ctx.endOffset loopFuel ctx.firstOffset f).2.requests := by
  simp only [tlvWrite, tlvWriteFor, getNextFreeOffsetFor, himpl, Flash.storage]
  obtain ⟨slot, f₁⟩ := getNextFreeOffsetLoop Flash.read ctx.endOffset loopFuel ctx.firstOffset f
  cases slot with
  | none => rfl
  | some slot =>
    simp only
    split
    · rfl
    · simp only [Flash.write, ne_eq, not_true_eq_false, if_false]
      rw [mem_requests_writeLoop]
      simp

theorem contained_lookup (himpl : ctx.storageImpl = Flash.storage) (hw : NoWrap ctx) :
    Contained ctx (tlvLookup ctx ⟨m, []⟩ type) := by
  have hfirst := hw.firstOffset_eq
  have hbound := hw.first
  have hs : FaultFree ctx.storageImpl Flash.mem := himpl ▸ Flash.faultFree.toFaultFree
  obtain ⟨f, heq, -⟩ := tlvLookup_eq hs hw ⟨m, []⟩ type
  constructor
  · rw [heq]
    rfl
  · rw [tlvLookup, himpl]
    refine tlvLookupLoop_within (P := fun f : Flash => f.ReadsInside ctx.startOffset ctx.endOffset)
      hw.last (fun f o n hlo hhi hf => hf.read hlo hhi) (by omega) (by unfold headerSize; omega) ?_
    intro o n hmem
    cases hmem

theorem contained_read (himpl : ctx.storageImpl = Flash.storage) (hw : NoWrap ctx)
    {dataSize : Nat} : Contained ctx (tlvRead ctx ⟨m, []⟩ type dataSize) := by
  have hfirst := hw.firstOffset_eq
  have hbound := hw.first
  obtain ⟨x, f, heq⟩ := tlvRead_returns hw ⟨m, []⟩ type dataSize
  constructor
  · rw [heq]
    rfl
  · rw [tlvRead, himpl]
    refine tlvReadLoop_within (P := fun f : Flash => f.ReadsInside ctx.startOffset ctx.endOffset)
      hw.last (fun f o n hlo hhi hf => hf.read hlo hhi) (by omega) (by unfold headerSize; omega) ?_
    intro o n hmem
    cases hmem

/-- A write reads nothing outside the region exactly where the records leave room for a header. -/
theorem readsInside_write_iff (himpl : ctx.storageImpl = Flash.storage) (hw : NoWrap ctx) :
    (tlvWrite ctx ⟨m, []⟩ type data).2.ReadsInside ctx.startOffset ctx.endOffset ↔
      LeavesHeader ctx m := by
  have hfirst := hw.firstOffset_eq
  have hlast := hw.last
  constructor
  · intro hinside o hpath ho
    have hread := @search_reads m ctx.endOffset hlast loopFuel _ _ hpath ho
      (by unfold loopFuel; omega) (by decide) ⟨m, []⟩ rfl
    exact (hinside o headerSize ((mem_requests_write himpl).mpr hread)).2
  · intro hleaves o n hmem
    have hsearch : (getNextFreeOffsetLoop Flash.read ctx.endOffset loopFuel ctx.firstOffset
        ⟨m, []⟩).2.ReadsInside ctx.startOffset ctx.endOffset := by
      refine search_inside hlast (by omega) hleaves rfl ?_
      intro o n hnone
      cases hnone
    exact hsearch o n ((mem_requests_write himpl).mp hmem)

/-- A write returns exactly where its 16-bit counter reaches the size, or there is no room. -/
theorem returns_write_iff (himpl : ctx.storageImpl = Flash.storage) (hw : NoWrap ctx)
    {f : Flash} :
    (tlvWrite ctx f type data).1.isSome = true ↔ data.length ≤ 65532 ∨
      Rejected ctx.endOffset (freeSlot f.mem ctx.endOffset ctx.firstOffset) data.length := by
  have hs : FaultFree ctx.storageImpl Flash.mem := himpl ▸ Flash.faultFree.toFaultFree
  obtain ⟨f₁, hsearch, hmem⟩ := getNextFreeOffset_eq hs hw f
  rw [getNextFreeOffset] at hsearch
  by_cases hrej :
      Rejected ctx.endOffset (freeSlot f.mem ctx.endOffset ctx.firstOffset) data.length
  · have hfull : (tlvWrite ctx f type data).1 = some (-enomem) := by
      simp only [tlvWrite, tlvWriteFor, himpl, Flash.storage, hsearch]
      rw [if_pos hrej]
    rw [hfull]
    simp only [Option.isSome_some, hrej, or_true]
  · by_cases hlen : data.length ≤ 65532
    · obtain ⟨x, f₂, heq⟩ := tlvWrite_returns hw f type hlen
      rw [heq]
      simp only [Option.isSome_some, hlen, true_or]
    · have hstuck := @tlvWriteLoop_stuck _ Flash.write Flash.mem data (fun _ _ _ => ⟨_, rfl, rfl⟩)
        (by omega) (u32 (freeSlot f.mem ctx.endOffset ctx.firstOffset + headerSize)) 0 loopFuel rfl
        (Nat.zero_le _)
        (f₁.write (freeSlot f.mem ctx.endOffset ctx.firstOffset)
          (headerToBytes (makeHeader type data.length))).2
      have hnone : (tlvWrite ctx f type data).1 = none := by
        simp only [tlvWrite, tlvWriteFor, himpl, Flash.storage, hsearch, if_neg hrej]
        exact hstuck
      rw [hnone]
      simp only [Option.isSome_none, Bool.false_eq_true, hlen, hrej, or_self]

/-- The scans stay inside the region and end, exactly where the records in use leave room for a
header behind them and a payload that is written fits the 16-bit counter. -/
theorem scansInside_iff (himpl : ctx.storageImpl = Flash.storage)
    (hroom : ctx.startOffset + ctx.tlvStorageStartMarkerSize ≤ ctx.endOffset)
    (hend : ctx.endOffset + 514 < 2 ^ 32) (m : Mem) (type : UInt16) (dataSize : Nat)
    (data : List UInt8) :
    ScansInside ctx m type dataSize data ↔ LeavesHeader ctx m ∧ (data.length ≤ 65532 ∨
      Rejected ctx.endOffset (freeSlot m ctx.endOffset ctx.firstOffset) data.length) := by
  have hw : NoWrap ctx := ⟨by omega, hend⟩
  constructor
  · intro h
    have hreturns := (returns_write_iff himpl hw (f := ⟨m, []⟩)).mp h.write.1
    exact ⟨(readsInside_write_iff himpl hw).mp h.write.2, hreturns⟩
  · rintro ⟨hleaves, hreturns⟩
    exact ⟨contained_lookup himpl hw, contained_read himpl hw,
      (@returns_write_iff _ type data himpl hw ⟨m, []⟩).mpr hreturns,
        (readsInside_write_iff himpl hw).mpr hleaves⟩

end Calls

/-- A region of 64 bytes. -/
def smallFlashCtx : TlvCtx Flash := ⟨Flash.storage, 0, 64, 8⟩

/-- A record of four bytes and one of a byte, in an erased flash. -/
def twoRecords : Mem :=
  Mem.blit (fun _ => 0xFF) 8 [0, 1, 0, 4, 9, 9, 9, 9, 0, 2, 3, 1, 7, 0xFF, 0xFF, 0xFF]

theorem freeSlot_twoRecords : freeSlot twoRecords 64 8 = 24 := by
  have hfirst : (freeHops twoRecords 64).next 8 = some 16 := by decide
  have hsecond : (freeHops twoRecords 64).next 16 = some 24 := by decide
  rw [freeSlot_hop hfirst, freeSlot_hop hsecond, freeSlot_free (by decide) (by decide)]

theorem scansInside_twoRecords : ScansInside smallFlashCtx twoRecords 2 1 [1, 2, 3] := by
  refine (scansInside_iff rfl (by decide) (by decide) twoRecords 2 1 [1, 2, 3]).mpr
    ⟨leavesHeader_of_room ?_, .inl (by decide)⟩
  change freeSlot twoRecords 64 8 + headerSize ≤ 64
  rw [freeSlot_twoRecords]
  decide

/-- One record of four bytes that fills its region. -/
def fullRegion : Mem := fun a => [0, 1, 0, 4, 9, 9, 9, 9].getD (a - 8) 0xFF

/-- The search reads the header behind a region that is filled to its last byte. -/
theorem search_reads_behind : ¬ScansInside ⟨Flash.storage, 0, 16, 8⟩ fullRegion 2 1 [1] := by
  intro h
  have hbehind : Request.read 16 4 ∈
      (tlvWrite ⟨Flash.storage, 0, 16, 8⟩ ⟨fullRegion, []⟩ 2 [1]).2.requests := by decide
  exact absurd (h.write.2 16 4 hbehind).2 (by decide)

end Sidewalk.Tlv
