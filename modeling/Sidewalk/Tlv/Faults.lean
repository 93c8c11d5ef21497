import Sidewalk.Tlv.Record

/-!
# Writes under faults

`tlv_write` on a device whose reads and writes fail as they like, in a region anywhere in the
32-bit address space. `WriteSafe` is what a write must not break; `Search` says, without rounds
and without a device, how the free-slot search ends. A failing read leaves the search through the
same `uint32_t` as an offset, so that the size check takes the error for a free slot near
`2 ^ 32`; `writeSafe_iff` is the exact condition under which nothing comes of it.
-/

namespace Sidewalk.Tlv

open Sidewalk.Lib

/-! ## How the search ends -/

inductive SearchResult
  | found (offset : Nat)
  | failed (error : Int)

/-- The `uint32_t` the search returns. -/
def SearchResult.toOffset : SearchResult → Nat
  | found offset => offset
  | failed error => u32OfInt error

/-- The free-slot search from an offset ends, when its reads return `faults`. -/
inductive Search (m : Mem) (endOffset : Nat) : (Nat → Int) → Nat → SearchResult → Prop
  | past {faults : Nat → Int} {o : Nat} (ho : endOffset < o) :
      Search m endOffset faults o (.found endOffset)
  | fail {faults : Nat → Int} {o : Nat} (ho : o ≤ endOffset) (hf : faults 0 ≠ 0) :
      Search m endOffset faults o (.failed (faults 0))
  | free {faults : Nat → Int} {o : Nat} (ho : o ≤ endOffset) (hf : faults 0 = 0)
      (hfree : (headerAt m o).IsFree) : Search m endOffset faults o (.found o)
  | hop {faults : Nat → Int} {o : Nat} {r : SearchResult} (ho : o ≤ endOffset)
      (hf : faults 0 = 0) (hused : ¬(headerAt m o).IsFree)
      (rest : Search m endOffset (fun n => faults (n + 1)) (u32 (nextRecord m o)) r) :
      Search m endOffset faults o r

theorem u32_add_span (m : Mem) (o : Nat) :
    u32 (u32 (o + headerSize) + (bytesToHeader (m.slice o headerSize)).span) =
      u32 (nextRecord m o) := Nat.mod_add_mod _ _ _

section Search

variable {m : Mem} {endOffset o : Nat} {faults : Nat → Int}

theorem Search.found_le {nf : Nat} (h : Search m endOffset faults o (.found nf)) :
    nf ≤ endOffset := by
  generalize hr : SearchResult.found nf = r at h
  induction h with
  | past => cases hr; exact Nat.le_refl _
  | fail => cases hr
  | free ho => cases hr; exact ho
  | hop _ _ _ _ ih => exact ih hr

/-- A search that wraps around finds an offset before the first free one, never behind it. -/
theorem Search.found_le_freeSlot (hend : endOffset < 2 ^ 32) {nf : Nat}
    (h : Search m endOffset faults o (.found nf)) : nf ≤ freeSlot m endOffset o := by
  generalize hr : SearchResult.found nf = r at h
  induction h with
  | past ho => cases hr; rw [freeSlot_out ho]
  | fail => cases hr
  | free ho _ hfree => cases hr; rw [freeSlot_free ho hfree]
  | @hop faults o r ho _ hused rest ih =>
    rw [freeSlot_hop (freeHops_next ho hused)]
    by_cases hwrap : nextRecord m o < 2 ^ 32
    · rw [u32_of_lt hwrap] at ih
      exact ih hr
    · rw [freeSlot_out (by omega)]
      subst hr
      exact rest.found_le

/-- Where the region's first record is beyond the end, no found offset is in the region. -/
theorem Search.found_le_first (hend : endOffset < 2 ^ 32) {first nf : Nat}
    (h : Search m endOffset faults (u32 first) (.found nf)) :
    nf ≤ freeSlot m endOffset first := by
  by_cases hwrap : first < 2 ^ 32
  · rw [u32_of_lt hwrap] at h
    exact h.found_le_freeSlot hend
  · rw [freeSlot_out (by omega)]
    exact h.found_le

theorem Search.det {r r' : SearchResult} (h : Search m endOffset faults o r)
    (h' : Search m endOffset faults o r') : r = r' := by
  induction h with
  | past ho =>
    cases h' with
    | past => rfl
    | fail ho' => omega
    | free ho' => omega
    | hop ho' => omega
  | fail ho hf =>
    cases h' with
    | past ho' => omega
    | fail => rfl
    | free _ hf' => exact absurd hf' hf
    | hop _ hf' => exact absurd hf' hf
  | free ho hf hfree =>
    cases h' with
    | past ho' => omega
    | fail _ hf' => exact absurd hf hf'
    | free => rfl
    | hop _ _ hused => exact absurd hfree hused
  | hop ho hf hused _ ih =>
    cases h' with
    | past ho' => omega
    | fail _ hf' => exact absurd hf hf'
    | free _ _ hfree => exact absurd hfree hused
    | hop _ _ _ rest => exact ih rest

/-! ## The search loop on a device -/

/-- The first `n` reads are those of a search that ended so: none fails, or just the last. -/
def EndsReads (faults : Nat → Int) (n : Nat) : SearchResult → Prop
  | .found _ => ∀ i < n, faults i = 0
  | .failed e => ∃ k, n = k + 1 ∧ (∀ i < k, faults i = 0) ∧ faults k = e ∧ e ≠ 0

theorem forall_lt_succ {P : Nat → Prop} {n : Nat} (h₀ : P 0) (h : ∀ i < n, P (i + 1)) :
    ∀ i < n + 1, P i := by
  intro i hi
  cases i with
  | zero => exact h₀
  | succ i => exact h i (by omega)

theorem EndsReads.succ {n : Nat} {r : SearchResult} (hf : faults 0 = 0)
    (h : EndsReads (fun i => faults (i + 1)) n r) : EndsReads faults (n + 1) r := by
  cases r with
  | found nf => exact forall_lt_succ hf h
  | failed e =>
    obtain ⟨k, rfl, hk, he, hne⟩ := h
    exact ⟨k + 1, rfl, forall_lt_succ hf hk, he, hne⟩

theorem read_data {d : Device} (hf : d.readFaults 0 = 0) :
    (d.read o headerSize).2.1 = d.mem.slice o headerSize := by
  simp only [Device.read, hf, if_true]

/-- What a search that returns has done to the device. -/
theorem search_of_loop {fuel : Nat} {d d' : Device} {x : Nat}
    (h : getNextFreeOffsetLoop Device.read endOffset fuel o d = (some x, d')) :
    ∃ r, Search d.mem endOffset d.readFaults o r ∧ x = r.toOffset ∧
      d'.writeFaults = d.writeFaults ∧ d'.writes = d.writes ∧
      ∃ n, d'.readCount = d.readCount + n ∧ EndsReads d.readFaults n r := by
  induction fuel generalizing o d with
  | zero => cases h
  | succ fuel ih =>
    simp only [getNextFreeOffsetLoop] at h
    split at h
    · next ho =>
      split at h
      · next hf =>
        -- the read fails: its error leaves through the offset
        cases h
        refine ⟨_, .fail ho hf, rfl, rfl, by simp, 1, by simp, 0, rfl, ?_, rfl, hf⟩
        intro i hi
        omega
      · next hf =>
        have hzero : d.readFaults 0 = 0 := not_not.mp hf
        rw [read_data hzero] at h
        split at h
        · next hfree =>
          cases h
          refine ⟨_, .free ho hzero hfree, rfl, rfl, by simp, 1, by simp, ?_⟩
          exact forall_lt_succ hzero fun i hi => by omega
        · next hused =>
          rw [u32_add_span] at h
          obtain ⟨r, hr, hx, hw, hws, n, hn, hends⟩ := ih h
          refine ⟨r, .hop ho hzero hused hr, hx, hw, by simpa using hws, n + 1, ?_, hends.succ hzero⟩
          rw [hn, Device.readCount_read]
          omega
    · next ho =>
      cases h
      exact ⟨_, .past (by omega), rfl, rfl, rfl, 0, rfl, fun i hi => by omega⟩

/-- A search that has not returned has only read, and without a failure. -/
theorem silent_of_loop {fuel : Nat} {d d' : Device}
    (h : getNextFreeOffsetLoop Device.read endOffset fuel o d = (none, d')) :
    d'.writes = d.writes ∧
      ∃ n, d'.readCount = d.readCount + n ∧ ∀ i < n, d.readFaults i = 0 := by
  induction fuel generalizing o d with
  | zero =>
    cases h
    exact ⟨rfl, 0, rfl, fun i hi => by omega⟩
  | succ fuel ih =>
    simp only [getNextFreeOffsetLoop] at h
    split at h
    · split at h
      · cases h
      · next hf =>
        have hzero : d.readFaults 0 = 0 := not_not.mp hf
        split at h
        · cases h
        · obtain ⟨hws, n, hn, hfaults⟩ := ih h
          refine ⟨by simpa using hws, n + 1, ?_, forall_lt_succ hzero hfaults⟩
          rw [hn, Device.readCount_read]
          omega
    · cases h

/-- A search that ends returns within some number of rounds, and within any larger one. -/
theorem loop_of_search {r : SearchResult} (h : Search m endOffset faults o r) :
    ∃ k, ∀ fuel, k ≤ fuel → ∀ d : Device, d.mem = m → d.readFaults = faults →
      ∃ d', getNextFreeOffsetLoop Device.read endOffset fuel o d = (some r.toOffset, d') := by
  induction h with
  | past ho =>
    refine ⟨1, fun fuel hk d _ _ => ⟨d, ?_⟩⟩
    obtain ⟨fuel, rfl⟩ := Nat.exists_eq_add_of_le' hk
    simp only [getNextFreeOffsetLoop, Nat.not_le.mpr ho, if_false, SearchResult.toOffset]
  | @fail faults o ho hf =>
    refine ⟨1, fun fuel hk d _ hd => ⟨(d.read o headerSize).2.2, ?_⟩⟩
    obtain ⟨fuel, rfl⟩ := Nat.exists_eq_add_of_le' hk
    subst hd
    have hret : (d.read o headerSize).1 = d.readFaults 0 := rfl
    simp only [getNextFreeOffsetLoop, ho, if_true, hret, hf, ne_eq, not_false_eq_true,
      SearchResult.toOffset]
  | @free faults o ho hf hfree =>
    refine ⟨1, fun fuel hk d hm hd => ⟨(d.read o headerSize).2.2, ?_⟩⟩
    obtain ⟨fuel, rfl⟩ := Nat.exists_eq_add_of_le' hk
    subst hd hm
    have hret : (d.read o headerSize).1 = 0 := hf
    have hfree : (bytesToHeader (d.mem.slice o headerSize)).IsFree := hfree
    simp only [getNextFreeOffsetLoop, ho, if_true, hret, ne_eq, not_true_eq_false, if_false,
      read_data hf, hfree, SearchResult.toOffset]
  | @hop faults o r ho hf hused _ ih =>
    obtain ⟨k, ih⟩ := ih
    refine ⟨k + 1, fun fuel hk d hm hd => ?_⟩
    obtain ⟨fuel, rfl⟩ := Nat.exists_eq_add_of_le' hk
    subst hd hm
    obtain ⟨d', hd'⟩ := ih (fuel + k) (by omega) (d.read o headerSize).2.2 rfl rfl
    refine ⟨d', ?_⟩
    have hret : (d.read o headerSize).1 = 0 := hf
    have hused : ¬(bytesToHeader (d.mem.slice o headerSize)).IsFree := hused
    rw [← Nat.add_assoc]
    simp only [getNextFreeOffsetLoop, ho, if_true, hret, ne_eq, not_true_eq_false, if_false,
      read_data hf, hused, u32_add_span]
    exact hd'

end Search

/-! ## The write loop on a device -/

section Loop

variable {endOffset : Nat} {data : List UInt8}

/-- The loop keeps what was written, reads nothing, and only writes. -/
theorem writeLoop_mono {fuel o w : Nat} {d : Device} :
    (tlvWriteLoop Device.write data fuel o w d).2.readCount = d.readCount ∧
      ∀ block ∈ d.writes, block ∈ (tlvWriteLoop Device.write data fuel o w d).2.writes := by
  induction fuel generalizing o w d with
  | zero => exact ⟨rfl, fun _ h => h⟩
  | succ fuel ih =>
    simp only [tlvWriteLoop]
    split
    · split
      · exact ⟨by simp, fun block h => by simp [h]⟩
      · obtain ⟨hreads, hkept⟩ := @ih (u32 (o + dataAlign)) (u16 (w + dataAlign))
          (d.write o (writeBuff data w)).2
        refine ⟨by rw [hreads, Device.readCount_write], fun block h => hkept block ?_⟩
        rw [Device.writes_write]
        exact List.mem_cons_of_mem _ h
    · exact ⟨rfl, fun _ h => h⟩

/-- From offset `o` with `w` bytes written the loop stops before the end of the region: what is
left fits, or a write fails in time. -/
def StopsInside (endOffset size : Nat) (faults : Nat → Int) (o w : Nat) : Prop :=
  (size ≤ 65532 ∧ o + (paddedSize size - w) ≤ endOffset) ∨
    ∃ j, o + 4 * j + 4 ≤ endOffset ∧ faults j ≠ 0

theorem StopsInside.here {size o w : Nat} {faults : Nat → Int} (hw : w % 4 = 0) (hmore : w < size)
    (h : StopsInside endOffset size faults o w) : o + 4 ≤ endOffset := by
  have hmod := paddedSize_mod size
  have hle := le_paddedSize size
  rcases h with ⟨-, hfits⟩ | ⟨j, hj, -⟩
  · omega
  · omega

theorem stopsInside_succ {size o w : Nat} {faults : Nat → Int} (hw : w % 4 = 0)
    (hmore : w < size) (hf : faults 0 = 0) :
    StopsInside endOffset size (fun j => faults (j + 1)) (o + dataAlign) (u16 (w + dataAlign)) ↔
      StopsInside endOffset size faults o w := by
  have hmod := paddedSize_mod size
  have hle := le_paddedSize size
  have halign : dataAlign = 4 := rfl
  have hwritten : size ≤ 65532 → u16 (w + dataAlign) = w + 4 :=
    fun h => Nat.mod_eq_of_lt (by omega)
  constructor
  · rintro (⟨hshort, hfits⟩ | ⟨j, hj, hne⟩)
    · rw [hwritten hshort] at hfits
      exact .inl ⟨hshort, by omega⟩
    · exact .inr ⟨j + 1, by omega, hne⟩
  · rintro (⟨hshort, hfits⟩ | ⟨j, hj, hne⟩)
    · refine .inl ⟨hshort, ?_⟩
      rw [hwritten hshort]
      omega
    · cases j with
      | zero => exact absurd hf hne
      | succ j => exact .inr ⟨j, by omega, hne⟩

theorem writeLoop_inside (hend : endOffset < 2 ^ 32) {fuel o w : Nat} {d : Device}
    (hw : w % 4 = 0) (h : StopsInside endOffset data.length d.writeFaults o w) :
    ∀ block ∈ (tlvWriteLoop Device.write data fuel o w d).2.writes,
      block ∈ d.writes ∨ (o ≤ block.1 ∧ block.1 + block.2.length ≤ endOffset) := by
  induction fuel generalizing o w d with
  | zero => exact fun block hb => .inl hb
  | succ fuel ih =>
    intro block hb
    simp only [tlvWriteLoop] at hb
    split at hb
    · next hmore =>
      have hroom := h.here hw hmore
      have hnew : ∀ b ∈ (d.write o (writeBuff data w)).2.writes,
          b ∈ d.writes ∨ (o ≤ b.1 ∧ b.1 + b.2.length ≤ endOffset) := by
        intro b hb
        rw [Device.writes_write] at hb
        rcases List.mem_cons.mp hb with rfl | hb
        · exact .inr ⟨Nat.le_refl _, by rw [length_writeBuff]; exact hroom⟩
        · exact .inl hb
      split at hb
      · exact hnew block hb
      · next hf =>
        have hzero : d.writeFaults 0 = 0 := not_not.mp hf
        have hoff : u32 (o + dataAlign) = o + dataAlign := u32_of_lt (by unfold dataAlign; omega)
        rw [hoff] at hb
        have hmod : u16 (w + dataAlign) % 4 = 0 := by
          unfold u16 dataAlign
          omega
        rcases ih hmod ((stopsInside_succ hw hmore hzero).mpr h) block hb with hb | ⟨hlo, hhi⟩
        · exact hnew block hb
        · exact .inr ⟨by omega, hhi⟩
    · exact .inl hb

/-- Where nothing stops it inside the region, the loop asks for a write past the end. -/
theorem writeLoop_outside (hend : endOffset < 2 ^ 32) {fuel o w : Nat} {d : Device}
    (hfuel : endOffset < o + 4 * fuel) (hw : w % 4 = 0) (hle : w ≤ 65532) (ho : o ≤ endOffset)
    (h : ¬StopsInside endOffset data.length d.writeFaults o w) :
    ∃ block ∈ (tlvWriteLoop Device.write data fuel o w d).2.writes,
      endOffset < block.1 + block.2.length := by
  induction fuel generalizing o w d with
  | zero => omega
  | succ fuel ih =>
    have hmore : w < data.length := by
      by_contra hdone
      have hmod := paddedSize_mod data.length
      have hpad := paddedSize_lt data.length
      exact h (.inl ⟨by omega, by omega⟩)
    simp only [tlvWriteLoop, hmore, if_true]
    by_cases hroom : o + 4 ≤ endOffset
    · have hzero : d.writeFaults 0 = 0 := by_contra fun hne => h (.inr ⟨0, by omega, hne⟩)
      have hret : (d.write o (writeBuff data w)).1 = 0 := hzero
      have hoff : u32 (o + dataAlign) = o + dataAlign := u32_of_lt (by unfold dataAlign; omega)
      simp only [hret, ne_eq, not_true_eq_false, if_false, hoff]
      refine ih (by unfold dataAlign; omega) (by unfold u16 dataAlign; omega)
        (by unfold u16 dataAlign; omega) (by unfold dataAlign; omega) ?_
      exact fun hstop => h ((stopsInside_succ hw hmore hzero).mp hstop)
    · -- this very block is the one that does not fit
      have hmem : (o, writeBuff data w) ∈ (d.write o (writeBuff data w)).2.writes := by simp
      refine ⟨(o, writeBuff data w), ?_, by simp only [length_writeBuff]; unfold dataAlign; omega⟩
      split
      · exact hmem
      · exact writeLoop_mono.2 _ hmem

end Loop

/-! ## Writes that are safe -/

/-- Every block a write asks for lies between the start marker and the end of the region, at or
behind the first free offset; and once a read has failed, its error is the result and nothing is
written. -/
def WriteSafe (ctx : TlvCtx Device) (mem : Mem) (readFaults writeFaults : Nat → Int)
    (type : UInt16) (data : List UInt8) : Prop :=
  ∀ fuel,
    let out := tlvWriteFor fuel ctx ⟨⟨mem, []⟩, readFaults, writeFaults⟩ type data
    (∀ block ∈ out.2.writes,
      ctx.startOffset + ctx.tlvStorageStartMarkerSize ≤ block.1 ∧
      freeSlot mem ctx.endOffset (ctx.startOffset + ctx.tlvStorageStartMarkerSize) ≤ block.1 ∧
      block.1 + block.2.length ≤ ctx.endOffset) ∧
    ∀ i < out.2.readCount, readFaults i ≠ 0 → out.1 = some (readFaults i) ∧ out.2.writes = []

/-- When a search that ends so leads to no unsafe write. -/
def SafeOutcome (ctx : TlvCtx Device) (mem : Mem) (writeFaults : Nat → Int) (size : Nat) :
    SearchResult → Prop
  | .failed error => error = -enomem ∧ Rejected ctx.endOffset (u32OfInt error) size
  | .found offset =>
    Rejected ctx.endOffset offset size ∨
    offset = freeSlot mem ctx.endOffset (ctx.startOffset + ctx.tlvStorageStartMarkerSize) ∧
      (size ≤ 65532 ∧ offset + recordSize size ≤ ctx.endOffset ∨
        ∃ j, offset + 4 * j + 4 ≤ ctx.endOffset ∧ writeFaults j ≠ 0)

section Safe

variable {ctx : TlvCtx Device} {mem : Mem} {readFaults writeFaults : Nat → Int} {type : UInt16}
  {data : List UInt8}

/-- What a search on a fresh device that returns has done. -/
theorem search_of_fresh {fuel x : Nat} {d : Device}
    (h : getNextFreeOffsetLoop Device.read ctx.endOffset fuel ctx.firstOffset
      ⟨⟨mem, []⟩, readFaults, writeFaults⟩ = (some x, d)) :
    ∃ r, Search mem ctx.endOffset readFaults ctx.firstOffset r ∧ x = r.toOffset ∧
      d.writeFaults = writeFaults ∧ d.writes = [] ∧ EndsReads readFaults d.readCount r := by
  obtain ⟨r, hr, hx, hwf, hws, n, hn, hends⟩ := search_of_loop h
  have hcount : d.readCount = n := hn.trans (Nat.zero_add n)
  exact ⟨r, hr, hx, hwf, hws, hcount ▸ hends⟩

theorem silent_of_fresh {fuel : Nat} {d : Device}
    (h : getNextFreeOffsetLoop Device.read ctx.endOffset fuel ctx.firstOffset
      ⟨⟨mem, []⟩, readFaults, writeFaults⟩ = (none, d)) :
    d.writes = [] ∧ ∀ i < d.readCount, readFaults i = 0 := by
  obtain ⟨hws, n, hn, hfaults⟩ := silent_of_loop h
  have hcount : d.readCount = n := hn.trans (Nat.zero_add n)
  exact ⟨hws, hcount ▸ hfaults⟩

theorem tlvWriteFor_running (himpl : ctx.storageImpl = Device.storage) {fuel : Nat}
    {d d' : Device}
    (h : getNextFreeOffsetLoop Device.read ctx.endOffset fuel ctx.firstOffset d = (none, d')) :
    tlvWriteFor fuel ctx d type data = (none, d') := by
  simp only [tlvWriteFor, getNextFreeOffsetFor, himpl, Device.storage, h]

theorem tlvWriteFor_rejected (himpl : ctx.storageImpl = Device.storage) {fuel x : Nat}
    {d d' : Device}
    (h : getNextFreeOffsetLoop Device.read ctx.endOffset fuel ctx.firstOffset d = (some x, d'))
    (hrej : Rejected ctx.endOffset x data.length) :
    tlvWriteFor fuel ctx d type data = (some (-enomem), d') := by
  simp only [tlvWriteFor, getNextFreeOffsetFor, himpl, Device.storage, h, hrej, if_true]

theorem tlvWriteFor_accepted (himpl : ctx.storageImpl = Device.storage) {fuel x : Nat}
    {d d' : Device}
    (h : getNextFreeOffsetLoop Device.read ctx.endOffset fuel ctx.firstOffset d = (some x, d'))
    (hacc : ¬Rejected ctx.endOffset x data.length) :
    tlvWriteFor fuel ctx d type data =
      let d'' := (d'.write x (headerToBytes (makeHeader type data.length))).2
      if d'.writeFaults 0 ≠ 0 then (some (d'.writeFaults 0), d'')
      else tlvWriteLoop Device.write data fuel (u32 (x + headerSize)) 0 d'' := by
  have hret : (d'.write x (headerToBytes (makeHeader type data.length))).1 = d'.writeFaults 0 := rfl
  simp only [tlvWriteFor, getNextFreeOffsetFor, himpl, Device.storage, h, hacc, if_false, hret]

/-- An accepted write asks for its header first. -/
theorem header_mem_writes (himpl : ctx.storageImpl = Device.storage) {fuel x : Nat}
    {d d' : Device}
    (h : getNextFreeOffsetLoop Device.read ctx.endOffset fuel ctx.firstOffset d = (some x, d'))
    (hacc : ¬Rejected ctx.endOffset x data.length) :
    (x, headerToBytes (makeHeader type data.length)) ∈
        (tlvWriteFor fuel ctx d type data).2.writes ∧
      (tlvWriteFor fuel ctx d type data).2.readCount = d'.readCount := by
  have hmem : (x, headerToBytes (makeHeader type data.length)) ∈
      (d'.write x (headerToBytes (makeHeader type data.length))).2.writes := by simp
  rw [tlvWriteFor_accepted himpl h hacc]
  simp only
  split
  · exact ⟨hmem, Device.readCount_write ..⟩
  · exact ⟨writeLoop_mono.2 _ hmem, by rw [writeLoop_mono.1, Device.readCount_write]⟩

/-- The writes of an accepted record stop inside the region. -/
theorem stopsInside_header {size x : Nat} (hf : writeFaults 0 = 0) :
    StopsInside ctx.endOffset size (fun j => writeFaults (j + 1)) (x + headerSize) 0 ↔
      (size ≤ 65532 ∧ x + recordSize size ≤ ctx.endOffset ∨
        ∃ j, x + 4 * j + 4 ≤ ctx.endOffset ∧ writeFaults j ≠ 0) := by
  have hsize : headerSize = 4 := rfl
  unfold StopsInside recordSize
  constructor
  · rintro (⟨hshort, hfits⟩ | ⟨j, hj, hne⟩)
    · exact .inl ⟨hshort, by omega⟩
    · exact .inr ⟨j + 1, by omega, hne⟩
  · rintro (⟨hshort, hfits⟩ | ⟨j, hj, hne⟩)
    · exact .inl ⟨hshort, by omega⟩
    · cases j with
      | zero => exact absurd hf hne
      | succ j => exact .inr ⟨j, by omega, hne⟩

theorem safeOutcome_of_writeSafe (himpl : ctx.storageImpl = Device.storage)
    (hend : ctx.endOffset < 2 ^ 32)
    (h : WriteSafe ctx mem readFaults writeFaults type data) {r : SearchResult}
    (hr : Search mem ctx.endOffset readFaults ctx.firstOffset r) :
    SafeOutcome ctx mem writeFaults data.length r := by
  obtain ⟨k, hk⟩ := loop_of_search hr
  -- enough rounds for the search, and for the write loop to pass the end
  obtain ⟨d, hloop⟩ := hk (k + ctx.endOffset + 1) (by omega)
    ⟨⟨mem, []⟩, readFaults, writeFaults⟩ rfl rfl
  obtain ⟨r', hr', -, hwf, -, hends⟩ := search_of_fresh hloop
  cases hr.det hr'
  obtain ⟨hin, hfail⟩ := h (k + ctx.endOffset + 1)
  cases r with
  | failed e =>
    obtain ⟨i, hcount, -, he, hne⟩ := hends
    have hread : readFaults i ≠ 0 := by rwa [he]
    by_cases hrej : Rejected ctx.endOffset (u32OfInt e) data.length
    · rw [tlvWriteFor_rejected himpl hloop hrej] at hfail
      have hret := (hfail i (by simp only [hcount]; omega) hread).1
      rw [he] at hret
      exact ⟨(Option.some.inj hret).symm, hrej⟩
    · obtain ⟨hmem, hreads⟩ := @header_mem_writes _ type _ himpl _ _ _ _ hloop hrej
      rw [(hfail i (by rw [hreads, hcount]; omega) hread).2] at hmem
      cases hmem
  | found nf =>
    change _ = (some nf, d) at hloop
    by_cases hrej : Rejected ctx.endOffset nf data.length
    · exact .inl hrej
    · obtain ⟨hmem, -⟩ := @header_mem_writes _ type _ himpl _ _ _ _ hloop hrej
      obtain ⟨-, hfirst, hhead⟩ := hin _ hmem
      simp only [length_headerToBytes] at hfirst hhead
      refine .inr ⟨Nat.le_antisymm (hr.found_le_first hend) hfirst, ?_⟩
      by_cases hf : writeFaults 0 = 0
      · refine (stopsInside_header hf).mp (by_contra fun hstop => ?_)
        have hoff : u32 (nf + headerSize) = nf + headerSize := u32_of_lt (by omega)
        have hacc := @tlvWriteFor_accepted _ type _ himpl _ _ _ _ hloop hrej
        simp only [hwf, hf, ne_eq, not_true_eq_false, if_false, hoff] at hacc
        obtain ⟨block, hblock, hout⟩ := @writeLoop_outside _ data hend (k + ctx.endOffset + 1) _ 0
          (d.write nf (headerToBytes (makeHeader type data.length))).2 (by omega) rfl (by omega)
          hhead (by rw [Device.writeFaults_write, hwf]; exact hstop)
        rw [← hacc] at hblock
        have := (hin block hblock).2.2
        omega
      · exact .inr ⟨0, hhead, hf⟩

/-- All blocks of an accepted record lie between the offset found and the end. -/
theorem blocks_inside (himpl : ctx.storageImpl = Device.storage) (hend : ctx.endOffset < 2 ^ 32)
    {fuel x : Nat} {d d' : Device}
    (hloop : getNextFreeOffsetLoop Device.read ctx.endOffset fuel ctx.firstOffset d = (some x, d'))
    (hacc : ¬Rejected ctx.endOffset x data.length) (hws : d'.writes = [])
    (hstop : data.length ≤ 65532 ∧ x + recordSize data.length ≤ ctx.endOffset ∨
      ∃ j, x + 4 * j + 4 ≤ ctx.endOffset ∧ d'.writeFaults j ≠ 0) :
    x + headerSize ≤ ctx.endOffset ∧
      ∀ block ∈ (tlvWriteFor fuel ctx d type data).2.writes,
        x ≤ block.1 ∧ block.1 + block.2.length ≤ ctx.endOffset := by
  have hhead : x + headerSize ≤ ctx.endOffset := by
    rcases hstop with ⟨-, hfits⟩ | ⟨j, hj, -⟩
    · unfold recordSize at hfits
      omega
    · unfold headerSize
      omega
  refine ⟨hhead, fun block hb => ?_⟩
  have hoff : u32 (x + headerSize) = x + headerSize := u32_of_lt (by omega)
  have hnew : ∀ b ∈ (d'.write x (headerToBytes (makeHeader type data.length))).2.writes,
      x ≤ b.1 ∧ b.1 + b.2.length ≤ ctx.endOffset := by
    intro b hb
    rw [Device.writes_write, hws] at hb
    rcases List.mem_cons.mp hb with rfl | hb
    · exact ⟨Nat.le_refl _, hhead⟩
    · cases hb
  rw [tlvWriteFor_accepted himpl hloop hacc] at hb
  simp only [hoff] at hb
  split at hb
  · exact hnew block hb
  · next hf =>
    have hstop' := (stopsInside_header (not_not.mp hf)).mpr hstop
    rcases writeLoop_inside hend (Nat.zero_mod 4) hstop' block hb with hb | ⟨hlo, hhi⟩
    · exact hnew block hb
    · exact ⟨by omega, hhi⟩

theorem writeSafe_of_safeOutcome (himpl : ctx.storageImpl = Device.storage)
    (hend : ctx.endOffset < 2 ^ 32)
    (h : ∀ r, Search mem ctx.endOffset readFaults ctx.firstOffset r →
      SafeOutcome ctx mem writeFaults data.length r) :
    WriteSafe ctx mem readFaults writeFaults type data := by
  intro fuel
  obtain ⟨⟨x, d⟩, hloop⟩ : ∃ out, getNextFreeOffsetLoop Device.read ctx.endOffset fuel
    ctx.firstOffset ⟨⟨mem, []⟩, readFaults, writeFaults⟩ = out := ⟨_, rfl⟩
  cases x with
  | none =>
    obtain ⟨hws, hfaults⟩ := silent_of_fresh hloop
    rw [tlvWriteFor_running himpl hloop]
    refine ⟨fun block hb => ?_, fun i hi hne => absurd (hfaults i hi) hne⟩
    rw [hws] at hb
    cases hb
  | some x =>
    obtain ⟨r, hr, rfl, hwf, hws, hends⟩ := search_of_fresh hloop
    have hsafe := h r hr
    by_cases hrej : Rejected ctx.endOffset r.toOffset data.length
    · rw [tlvWriteFor_rejected himpl hloop hrej]
      refine ⟨fun block hb => ?_, fun i hi hne => ⟨?_, hws⟩⟩
      · rw [hws] at hb
        cases hb
      · cases r with
        | failed e =>
          obtain ⟨rfl, -⟩ := hsafe
          obtain ⟨k, hcount, hk, he, -⟩ := hends
          have hik : i = k := by
            by_contra hne'
            have hlt : i < d.readCount := hi
            exact hne (hk i (by omega))
          rw [hik, he]
        | found nf => exact absurd (hends i hi) hne
    · cases r with
      | failed e => exact absurd hsafe.2 hrej
      | found nf =>
        rcases hsafe with hrej' | ⟨hslot, hstop⟩
        · exact absurd hrej' hrej
        · obtain ⟨hhead, hblocks⟩ := @blocks_inside _ type _ himpl hend _ _ _ _ hloop hrej hws
            (by rw [hwf]; exact hstop)
          have hfirst := @le_freeSlot mem ctx.endOffset
            (ctx.startOffset + ctx.tlvStorageStartMarkerSize)
            (by rw [← hslot]; exact Nat.lt_of_lt_of_le (Nat.lt_add_of_pos_right (by decide)) hhead)
          refine ⟨fun block hb => ?_, fun i hi hne => ?_⟩
          · obtain ⟨hlo, hhi⟩ := hblocks block hb
            have hlo : nf ≤ block.1 := hlo
            exact ⟨by omega, by omega, hhi⟩
          · rw [(@header_mem_writes _ type _ himpl _ _ _ _ hloop hrej).2] at hi
            exact absurd (hends i hi) hne

/-- A write is safe exactly when the search does not end with a failing read (or that read says
`-ENOMEM` and so does the size check on it), and what it finds is either rejected, or is the
first free offset with the record inside the region. -/
theorem writeSafe_iff (himpl : ctx.storageImpl = Device.storage) (hend : ctx.endOffset < 2 ^ 32)
    (mem : Mem) (readFaults writeFaults : Nat → Int) (type : UInt16) (data : List UInt8) :
    WriteSafe ctx mem readFaults writeFaults type data ↔
      ∀ r, Search mem ctx.endOffset readFaults ctx.firstOffset r →
        SafeOutcome ctx mem writeFaults data.length r :=
  ⟨fun h _ hr => safeOutcome_of_writeSafe himpl hend h hr,
    writeSafe_of_safeOutcome himpl hend⟩

end Safe

/-- A region of 64 bytes on a device. -/
def smallDeviceCtx : TlvCtx Device := ⟨Device.storage, 0, 64, 8⟩

/-- A record of four bytes in an erased region. -/
def oneRecord : Mem := Mem.blit (fun _ => 0xFF) 8 [0, 1, 0, 4, 9, 9, 9, 9]

/-- What a search behind that record finds, whether its second read fails or not. -/
theorem search_oneRecord {faults : Nat → Int} {r : SearchResult}
    (h : Search oneRecord 64 faults 8 r) (hfirst : faults 0 = 0) :
    faults 1 ≠ 0 ∧ r = .failed (faults 1) ∨ faults 1 = 0 ∧ r = .found 16 := by
  cases h with
  | past ho => exact absurd ho (by decide)
  | fail _ hf => exact absurd hfirst hf
  | free _ _ hfree => exact absurd hfree (by decide)
  | hop _ _ _ rest =>
    have hnext : u32 (nextRecord oneRecord 8) = 16 := by decide
    rw [hnext] at rest
    cases rest with
    | past ho => exact absurd ho (by decide)
    | fail _ hf => exact .inl ⟨hf, rfl⟩
    | free _ hf => exact .inr ⟨hf, rfl⟩
    | hop _ _ hused => exact absurd (show (headerAt oneRecord 16).IsFree by decide) hused

/-- A second record is safe where the read behind the first one says `-ENOMEM`, and where its
second block is not written. -/
theorem writeSafe_second_record :
    WriteSafe smallDeviceCtx oneRecord (fun n => if n = 1 then -enomem else 0) (fun _ => 0) 2 [7] ∧
      WriteSafe smallDeviceCtx oneRecord (fun _ => 0) (fun n => if n = 1 then -eio else 0) 2
        [7] := by
  constructor
  · refine (@writeSafe_iff smallDeviceCtx rfl (by decide) _ _ _ _ _).mpr fun r hr => ?_
    obtain ⟨-, rfl⟩ | ⟨hnone, -⟩ := search_oneRecord hr rfl
    · exact ⟨rfl, by decide⟩
    · exact absurd hnone (by decide)
  · refine (@writeSafe_iff smallDeviceCtx rfl (by decide) _ _ _ _ _).mpr fun r hr => ?_
    obtain ⟨hsome, -⟩ | ⟨-, rfl⟩ := search_oneRecord hr rfl
    · exact absurd rfl hsome
    · have hslot : freeSlot oneRecord 64 8 = 16 := by
        have hhop : (freeHops oneRecord 64).next 8 = some 16 := by decide
        rw [freeSlot_hop hhop, freeSlot_free (by decide) (by decide)]
      exact .inr ⟨hslot.symm, .inr ⟨1, by decide, by decide⟩⟩

/-- When the first read of the search returns `-EIO`, a header is written near `2 ^ 32`. -/
theorem unsafe_write_after_failed_read :
    ¬WriteSafe smallDeviceCtx (fun _ => 0xFF) (fun n => if n = 0 then -eio else 0) (fun _ => 0) 1
      [7] := by
  intro h
  have hout := ((h 2).1 (0xFFFFFFFB, [0, 1, 3, 1]) (by decide)).2.2
  exact absurd hout (by decide)

end Sidewalk.Tlv
