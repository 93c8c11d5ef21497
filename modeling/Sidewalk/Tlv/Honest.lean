import Sidewalk.Tlv.Store

/-!
# Writes that report success

Over a flash whose calls may all fail, in any way as long as they say so, a `tlv_write` that returns
0 has stored its record behind the ones before it (`Region.write`). A search that ends with a failing
read gives an offset beyond the flash, and the write there fails. Whatever fails, `tlv_write` and
`tlv_read` return.
-/

namespace Sidewalk.Tlv

open Sidewalk.Lib

variable {σ : Type}

/-- What a flash driver promises: a call that reports success has done what it was asked for, reads
change nothing and fail with an `errno`, and nothing is written beyond the flash. -/
structure Honest (impl : TlvStorage σ) (view : σ → Mem) (flashEnd : Nat) : Prop where
  end_le : flashEnd + 4096 ≤ 2 ^ 32
  read : ∃ read, impl.read = some read ∧ ∀ s o n, view (read s o n).2.2 = view s ∧
    ((read s o n).1 = 0 → (read s o n).2.1 = (view s).slice o n) ∧
    -4096 < (read s o n).1 ∧ (read s o n).1 ≤ 0
  write : ∃ write, impl.write = some write ∧ ∀ s o bs, (write s o bs).1 = 0 →
    o + bs.length ≤ flashEnd ∧ view (write s o bs).2 = (view s).blit o bs
  erase : ∃ erase, impl.erase = some erase ∧ ∀ s o n, (erase s o n).1 = 0 →
    view (erase s o n).2 = (view s).fill o n 0xFF

/-! ## Loops that return -/

section Returns

variable {read : σ → Nat → Nat → Int × List UInt8 × σ} {write : σ → Nat → List UInt8 → Int × σ}
  {endOffset : Nat}

/-- Any header moves a scan on, and not past `2 ^ 32`. -/
theorem u32_hop {o : Nat} (ho : o ≤ endOffset) (hend : endOffset + 514 < 2 ^ 32)
    (header : TlvHeader) :
    u32 (u32 (o + headerSize) + header.span) = o + headerSize + header.span := by
  have hspan := span_le header
  have hsize : headerSize = 4 := rfl
  have hoff : u32 (o + headerSize) = o + headerSize := u32_of_lt (by omega)
  rw [hoff, u32_of_lt (by omega)]

theorem getNextFreeOffsetLoop_returns (hend : endOffset + 514 < 2 ^ 32) {o fuel : Nat}
    (hfuel : endOffset + 1 < fuel + o) (hpos : 0 < fuel) (s : σ) :
    ∃ x s', getNextFreeOffsetLoop read endOffset fuel o s = (some x, s') := by
  induction fuel generalizing o s with
  | zero => cases hpos
  | succ fuel ih =>
    simp only [getNextFreeOffsetLoop]
    split
    · next ho =>
      split
      · exact ⟨_, _, rfl⟩
      split
      · exact ⟨_, _, rfl⟩
      · rw [u32_hop ho hend]
        have hsize : headerSize = 4 := rfl
        exact ih (by omega) (by omega) _
    · exact ⟨_, _, rfl⟩

theorem tlvReadLoop_returns (hend : endOffset + 514 < 2 ^ 32) {o fuel : Nat} (type : UInt16)
    (dataSize : Nat) (hfuel : endOffset + 1 < fuel + o) (hpos : 0 < fuel) (ho : o < 2 ^ 32 - 4)
    (s : σ) : ∃ x s', tlvReadLoop read endOffset type dataSize fuel o s = (some x, s') := by
  have hsize : headerSize = 4 := rfl
  induction fuel generalizing o s with
  | zero => cases hpos
  | succ fuel ih =>
    simp only [tlvReadLoop]
    split
    · next hin =>
      rw [u32_of_lt (by omega)] at hin
      split
      · exact ⟨_, _, rfl⟩
      split
      · split
        · split
          · exact ⟨_, _, rfl⟩
          · exact ⟨_, _, rfl⟩
        · exact ⟨_, _, rfl⟩
      · next hnext =>
        rw [u32_hop (by omega) hend]
        exact ih (by omega) (by omega)
          (Nat.lt_of_le_of_lt (Nat.add_le_add_left (span_le _) _) (by omega)) _
    · exact ⟨_, _, rfl⟩

theorem tlvWriteLoop_returns {data : List UInt8} (hlen : data.length ≤ 65532) {o w fuel : Nat}
    (hfuel : data.length < w + fuel) (hw : w % 4 = 0) (hpos : 0 < fuel) (s : σ) :
    ∃ x s', tlvWriteLoop write data fuel o w s = (some x, s') := by
  have halign : dataAlign = 4 := rfl
  induction fuel generalizing o w s with
  | zero => cases hpos
  | succ fuel ih =>
    simp only [tlvWriteLoop]
    split
    · next hmore =>
      split
      · exact ⟨_, _, rfl⟩
      · have hstep : u16 (w + dataAlign) = w + dataAlign := Nat.mod_eq_of_lt (by omega)
        rw [hstep]
        exact ih (by omega) (by omega) (by omega) _
    · exact ⟨_, _, rfl⟩

theorem tlvRead_returns {ctx : TlvCtx σ} (hw : NoWrap ctx) (s : σ) (type : UInt16) (n : Nat) :
    ∃ x s', tlvRead ctx s type n = (some x, s') := by
  have hfirst := hw.firstOffset_eq
  have h₁ := hw.first
  have h₂ := hw.last
  unfold tlvRead
  split
  · exact ⟨_, _, rfl⟩
  · exact tlvReadLoop_returns h₂ type n (by unfold loopFuel; omega) (by decide) (by omega) s

theorem tlvWrite_returns {ctx : TlvCtx σ} (hw : NoWrap ctx) (s : σ) (type : UInt16)
    {data : List UInt8} (hlen : data.length ≤ 65532) :
    ∃ x s', tlvWrite ctx s type data = (some x, s') := by
  unfold tlvWrite tlvWriteFor
  split
  · next read write hread hwrite =>
    obtain ⟨x, s₁, hsearch⟩ := @getNextFreeOffsetLoop_returns _ read _ hw.last ctx.firstOffset
      loopFuel (by have := hw.last; unfold loopFuel; omega) (by decide) s
    simp only [getNextFreeOffsetFor, hread, hsearch]
    split
    · exact ⟨_, _, rfl⟩
    split
    · exact ⟨_, _, rfl⟩
    · exact tlvWriteLoop_returns hlen (by unfold loopFuel; omega) rfl (by decide) _
  · exact ⟨_, _, rfl⟩

end Returns

/-! ## A write that reports success -/

section Write

variable {ctx : TlvCtx σ} {view : σ → Mem} {flashEnd : Nat}

/-- The free slot, or an error that stands beyond the flash. -/
theorem search_honest {read : σ → Nat → Nat → Int × List UInt8 × σ} {endOffset : Nat}
    (hread : ∀ s o n, view (read s o n).2.2 = view s ∧
      ((read s o n).1 = 0 → (read s o n).2.1 = (view s).slice o n) ∧
      -4096 < (read s o n).1 ∧ (read s o n).1 ≤ 0)
    (hend : endOffset + 514 < 2 ^ 32) {fuel o x : Nat} {s s' : σ}
    (h : getNextFreeOffsetLoop read endOffset fuel o s = (some x, s')) :
    view s' = view s ∧ (x = freeSlot (view s) endOffset o ∨ 2 ^ 32 - 4096 < x) := by
  induction fuel generalizing o s with
  | zero => cases h
  | succ fuel ih =>
    obtain ⟨hview, hdata, hlow, hhigh⟩ := hread s o headerSize
    simp only [getNextFreeOffsetLoop] at h
    split at h
    · next ho =>
      split at h
      · next hret =>
        cases h
        refine ⟨hview, .inr ?_⟩
        unfold u32OfInt
        omega
      · next hret =>
        rw [hdata (not_not.1 hret)] at h
        split at h
        · next hfree =>
          cases h
          exact ⟨hview, .inl (freeSlot_free ho hfree).symm⟩
        · next hused =>
          rw [u32_hop ho hend] at h
          have ih := ih h
          rw [hview] at ih
          refine ⟨ih.1, ?_⟩
          rw [freeSlot_hop (freeHops_next ho hused)]
          exact ih.2
    · next ho =>
      cases h
      rw [freeSlot_out (Nat.lt_of_not_le ho)]
      exact ⟨rfl, .inl rfl⟩

theorem writeLoop_honest {write : σ → Nat → List UInt8 → Int × σ}
    (hwrite : ∀ s o bs, (write s o bs).1 = 0 →
      o + bs.length ≤ flashEnd ∧ view (write s o bs).2 = (view s).blit o bs)
    {data : List UInt8} (hlen : data.length ≤ 65532) {fuel offset w : Nat} (hw : w % 4 = 0)
    (hend : offset + (paddedSize data.length - w) < 2 ^ 32) {s s' : σ}
    (h : tlvWriteLoop write data fuel offset w s = (some 0, s')) :
    view s' = (view s).blit offset ((paddedData data).drop w) := by
  induction fuel generalizing offset w s with
  | zero => cases h
  | succ fuel ih =>
    have halign : dataAlign = 4 := rfl
    have hpad := paddedSize_lt data.length
    have hmod := paddedSize_mod data.length
    have hdata := le_paddedSize data.length
    simp only [tlvWriteLoop] at h
    split at h
    · next hmore =>
      split at h
      · next hret => exact absurd (Option.some.inj (congrArg Prod.fst h)) hret
      · next hret =>
        obtain ⟨-, hview⟩ := hwrite s offset (writeBuff data w) (not_not.1 hret)
        have hstep : u16 (w + dataAlign) = w + dataAlign := Nat.mod_eq_of_lt (by omega)
        have hoff : u32 (offset + dataAlign) = offset + dataAlign := u32_of_lt (by omega)
        rw [hstep, hoff] at h
        rw [ih (by omega) (by omega) h, hview, writeBuff_append_drop hw hmore, Mem.blit_append,
          length_writeBuff]
    · cases h
      rw [List.drop_of_length_le (by rw [length_paddedData]; omega), Mem.blit_nil]

/-- The record stands at the free slot. -/
theorem tlvWrite_honest (hs : Honest ctx.storageImpl view flashEnd) (hw : NoWrap ctx) {s s' : σ}
    {type : UInt16} {data : List UInt8} (hlen : data.length < 256)
    (h : tlvWrite ctx s type data = (some 0, s')) :
    freeSlot (view s) ctx.endOffset ctx.firstOffset + recordSize data.length ≤ ctx.endOffset ∧
      view s' = (view s).blit (freeSlot (view s) ctx.endOffset ctx.firstOffset)
        (record type data) := by
  obtain ⟨read, hread, hreads⟩ := hs.read
  obtain ⟨write, hwrite, hwrites⟩ := hs.write
  have hlast := hw.last
  have hflash := hs.end_le
  have hpad := paddedSize_lt data.length
  have hslot := @freeSlot_le (view s) ctx.endOffset ctx.firstOffset
  have hsize : headerSize = 4 := rfl
  simp only [tlvWrite, tlvWriteFor, hread, hwrite, getNextFreeOffsetFor] at h
  generalize hsearch : getNextFreeOffsetLoop read ctx.endOffset loopFuel ctx.firstOffset s = search
    at h
  obtain ⟨x, s₁⟩ := search
  cases x with
  | none => cases h
  | some x =>
    obtain ⟨hview, hx⟩ := search_honest hreads hlast hsearch
    simp only at h
    split at h
    · cases h
    next haccepted =>
    split at h
    · next hret =>
      exact absurd (Option.some.inj (congrArg Prod.fst h)) hret
    next hret =>
    obtain ⟨hinside, hheader⟩ := hwrites s₁ x (headerToBytes (makeHeader type data.length))
      (not_not.1 hret)
    rcases hx with rfl | hbeyond
    · unfold Rejected at haccepted
      unfold recordSize
      rw [u32_of_lt (by unfold paddedSize at hpad; omega)] at haccepted
      have hroom : freeSlot (view s) ctx.endOffset ctx.firstOffset +
          (headerSize + paddedSize data.length) ≤ ctx.endOffset := by
        unfold paddedSize
        omega
      refine ⟨hroom, ?_⟩
      rw [u32_of_lt (by omega)] at h
      rw [writeLoop_honest hwrites (by omega) rfl (by omega) h, hheader, hview, List.drop_zero,
        record, Mem.blit_append, length_headerToBytes]
    · exact absurd hinside (by omega)

/-- The header of a region, and the records in it. -/
structure Region (ctx : TlvCtx σ) (m : Mem) (header : List UInt8) (es : List Entry) : Prop where
  header : m.slice ctx.startOffset ctx.tlvStorageStartMarkerSize = header
  stored : Stored m ctx.endOffset ctx.firstOffset es
  room : es = [] ∨ ctx.firstOffset + usedBy es ≤ ctx.endOffset

/-- The next record is stored behind the ones before it. -/
theorem Region.write {header : List UInt8} {es : List Entry} {s s' : σ}
    (h : Region ctx (view s) header es) (hs : Honest ctx.storageImpl view flashEnd)
    (hw : NoWrap ctx) (e : Entry) (hret : tlvWrite ctx s e.type e.data = (some 0, s')) :
    Region ctx (view s') header (es ++ [e]) ∧
      ctx.firstOffset + usedBy (es ++ [e]) ≤ ctx.endOffset := by
  obtain ⟨hfits, hview⟩ := tlvWrite_honest hs hw e.short hret
  have hpos := e.eight_le_size
  have hroom := (h.stored.fits_iff (Nat.le_trans (by decide) e.eight_le_size) h.room).1 hfits
  have hslot := h.stored.freeSlot (by unfold headerSize; omega)
  have hused : ctx.firstOffset + usedBy (es ++ [e]) ≤ ctx.endOffset := by
    rw [usedBy, List.map_append, List.sum_append, List.map_singleton, List.sum_singleton,
      ← usedBy]
    omega
  rw [hslot] at hview
  refine ⟨⟨?_, ?_, .inr hused⟩, hused⟩
  · rw [hview, ← h.header]
    refine Mem.slice_congr fun i hi => Mem.blit_below ?_
    rw [hw.firstOffset_eq]
    omega
  · rw [hview]
    exact h.stored.append e

end Write

/-! ## A flash without failures -/

/-- The driver also reports success, for all that is inside the flash. -/
structure Sound (impl : TlvStorage σ) (view : σ → Mem) (flashEnd : Nat) : Prop
    extends Honest impl view flashEnd where
  reads : ∀ read, impl.read = some read → ∀ s o n, (read s o n).1 = 0
  writes : ∀ write, impl.write = some write → ∀ s o bs, o + bs.length ≤ flashEnd →
    (write s o bs).1 = 0
  erases : ∀ erase, impl.erase = some erase → ∀ s o n, (erase s o n).1 = 0

section Sound

variable {ctx : TlvCtx σ} {view : σ → Mem} {flashEnd : Nat}

theorem Sound.read_eq {impl : TlvStorage σ} (hs : Sound impl view flashEnd) :
    ∃ read, impl.read = some read ∧ ∀ s o n, ∃ s', read s o n = (0, (view s).slice o n, s') ∧
      view s' = view s := by
  obtain ⟨read, hread, hreads⟩ := hs.read
  refine ⟨read, hread, fun s o n => ⟨(read s o n).2.2, ?_, (hreads s o n).1⟩⟩
  have hzero := hs.reads read hread s o n
  exact Prod.ext hzero (Prod.ext ((hreads s o n).2.1 hzero) rfl)

theorem writeLoop_sound {write : σ → Nat → List UInt8 → Int × σ}
    (hwrites : ∀ s o bs, o + bs.length ≤ flashEnd → (write s o bs).1 = 0)
    (hflash : flashEnd + 4096 ≤ 2 ^ 32) {data : List UInt8} (hlen : data.length ≤ 65532)
    {fuel offset w : Nat} (hw : w % 4 = 0) (hroom : offset + (paddedSize data.length - w) ≤ flashEnd)
    (hfuel : data.length < w + fuel) (hpos : 0 < fuel) (s : σ) :
    ∃ s', tlvWriteLoop write data fuel offset w s = (some 0, s') := by
  induction fuel generalizing offset w s with
  | zero => cases hpos
  | succ fuel ih =>
    have halign : dataAlign = 4 := rfl
    have hmod := paddedSize_mod data.length
    have hdata := le_paddedSize data.length
    simp only [tlvWriteLoop]
    split
    · next hmore =>
      have hzero := hwrites s offset (writeBuff data w) (by rw [length_writeBuff]; omega)
      have hstep : u16 (w + dataAlign) = w + dataAlign := Nat.mod_eq_of_lt (by omega)
      have hoff : u32 (offset + dataAlign) = offset + dataAlign := u32_of_lt (by omega)
      rw [if_neg (not_not.2 hzero), hstep, hoff]
      exact ih (by omega) (by omega) (by omega) (by omega) _
    · exact ⟨_, rfl⟩

/-- A record for which there is room is written. -/
theorem Region.write_sound {header : List UInt8} {es : List Entry} {s : σ}
    (h : Region ctx (view s) header es) (hs : Sound ctx.storageImpl view flashEnd)
    (hw : NoWrap ctx) (hflash : ctx.endOffset ≤ flashEnd) (e : Entry)
    (hroom : ctx.firstOffset + usedBy es + e.size ≤ ctx.endOffset) :
    ∃ s', tlvWrite ctx s e.type e.data = (some 0, s') := by
  have hlast := hw.last
  have hend := hs.end_le
  have hpos := e.eight_le_size
  have hshort := e.short
  have hsize : e.size = headerSize + paddedSize e.data.length := rfl
  have hpadded : paddedSize e.data.length = e.data.length + calculatePadding e.data.length := rfl
  have hfour : headerSize = 4 := rfl
  have hslot := h.stored.freeSlot (by omega)
  obtain ⟨read, hread, hreads⟩ := hs.read_eq
  obtain ⟨write, hwrite, -⟩ := hs.write
  have hwrites := hs.writes write hwrite
  obtain ⟨s₁, hsearch, -⟩ : ∃ s', getNextFreeOffsetLoop read ctx.endOffset loopFuel ctx.firstOffset
      s = (some (freeSlot (view s) ctx.endOffset ctx.firstOffset), s') ∧ view s' = view s :=
    getNextFreeOffsetLoop_eq hreads hlast (by unfold loopFuel; omega) rfl (by decide)
  rw [hslot] at hsearch
  have haccepted : ¬Rejected ctx.endOffset (ctx.firstOffset + usedBy es) e.data.length := by
    unfold Rejected
    rw [u32_of_lt (by omega)]
    omega
  have hheader := hwrites s₁ (ctx.firstOffset + usedBy es)
    (headerToBytes (makeHeader e.type e.data.length)) (by rw [length_headerToBytes]; omega)
  simp only [tlvWrite, tlvWriteFor, hread, hwrite, getNextFreeOffsetFor, hsearch]
  rw [if_neg haccepted, if_neg (not_not.2 hheader)]
  rw [u32_of_lt (by omega)]
  exact writeLoop_sound hwrites hend (by omega) rfl (by omega) (by unfold loopFuel; omega)
    (by decide) _

/-- A record is read back. -/
theorem Region.read_sound {header : List UInt8} {es : List Entry} {s : σ}
    (h : Region ctx (view s) header es) (hs : Sound ctx.storageImpl view flashEnd)
    (hw : NoWrap ctx) {e : Entry} (he : es.find? (·.type = e.type) = some e) :
    (tlvRead ctx s e.type e.data.length).1 = some (0, e.data) := by
  obtain ⟨read, hread, hreads⟩ := hs.read_eq
  have hfirst := hw.firstOffset_eq
  have h₁ := hw.first
  have h₂ := hw.last
  obtain ⟨s₁, hresult, -⟩ := @tlvReadLoop_eq σ read view (view s) ctx.endOffset e.type hreads h₂
    e.data.length ctx.firstOffset (by unfold headerSize; omega) loopFuel
    (by unfold loopFuel; omega) s rfl (by decide)
  have hfind := h.stored.find h.room e.type_ne
  rw [he] at hfind
  obtain ⟨p, hp, held, hin⟩ := hfind
  simp only [tlvRead, hread, hresult]
  rw [hp, held.readResult e.short hin (Nat.le_refl _), List.take_length]

end Sound

end Sidewalk.Tlv
