import Sidewalk.Mfg.Failing
import Sidewalk.Mfg.Migration
import Sidewalk.Tlv.Reads

/-!
# RAM copies

What a write into a RAM copy that may fail comes to, by the room in the copy and the failures to
come, which accesses leave the block, and what the copy holds once it is complete.
-/

namespace Sidewalk.Mfg.Failing

open Sidewalk.Lib Sidewalk.Tlv

/-! ## Accesses -/

section Accesses

variable {ram ram' ram'' : RamCopy} {offset : Nat}

/-- Accesses inside the block have passed. -/
structure RamCopy.Follows (ram ram' : RamCopy) : Prop where
  size : ram'.size = ram.size
  overrun : ram'.overrun = ram.overrun
  faults : ∃ k, ∀ n, ram'.faults n = ram.faults (n + k)

theorem RamCopy.Follows.refl (ram : RamCopy) : ram.Follows ram := ⟨rfl, rfl, 0, fun _ => rfl⟩

theorem RamCopy.Follows.trans (h : ram.Follows ram') (h' : ram'.Follows ram'') :
    ram.Follows ram'' := by
  obtain ⟨k, hk⟩ := h.faults
  obtain ⟨k', hk'⟩ := h'.faults
  refine ⟨h'.size.trans h.size, h'.overrun.trans h.overrun, k' + k, fun n => ?_⟩
  rw [hk', hk, Nat.add_assoc]

theorem RamCopy.access_inside {n : Nat} (hin : offset + n ≤ ram.size) :
    ram.access offset n = ram := by
  unfold access
  rw [decide_eq_false (Nat.not_lt.mpr hin), Bool.or_false]

theorem RamCopy.access_outside {n : Nat} (hout : ram.size < offset + n) :
    (ram.access offset n).overrun = true := by
  unfold access
  rw [decide_eq_true hout, Bool.or_true]

theorem RamCopy.overrun_access {n : Nat} (h : ram.overrun = true) :
    (ram.access offset n).overrun = true := by
  unfold access
  rw [h, Bool.true_or]

theorem RamCopy.follows_write {data : List UInt8} (hin : offset + data.length ≤ ram.size) :
    ram.Follows (ram.write offset data).2 := by
  have hlater : offset + data.length ≤ ram.later.size := hin
  unfold write
  by_cases hfault : ram.faults 0 = 0
  · rw [if_pos hfault, access_inside hlater]
    exact ⟨rfl, rfl, 1, fun _ => rfl⟩
  · rw [if_neg hfault]
    exact ⟨rfl, rfl, 1, fun _ => rfl⟩

theorem RamCopy.mem_write {data : List UInt8} (hfault : ram.faults 0 = 0) :
    (ram.write offset data).2.mem = ram.mem.blit offset data := by
  unfold write
  rw [if_pos hfault]

theorem RamCopy.faults_write {data : List UInt8} (n : Nat) :
    (ram.write offset data).2.faults n = ram.faults (n + 1) := by
  unfold write
  split
  · rfl
  · rfl

theorem RamCopy.overrun_write {data : List UInt8} (h : ram.overrun = true) :
    (ram.write offset data).2.overrun = true := by
  have hlater : ram.later.overrun = true := h
  unfold write
  split
  · exact overrun_access hlater
  · exact h

theorem ram_search_round {size fuel : Nat} (hin : offset ≤ size) :
    getNextFreeOffsetLoop RamCopy.read size (fuel + 1) offset ram =
      if (headerAt ram.mem offset).IsFree then (some offset, ram.access offset headerSize)
      else
        getNextFreeOffsetLoop RamCopy.read size fuel
          (u32 (u32 (offset + headerSize) + (headerAt ram.mem offset).span))
          (ram.access offset headerSize) := by
  simp only [getNextFreeOffsetLoop, if_pos hin]
  rfl

theorem ram_write_round {data : List UInt8} {fuel w : Nat} (hmore : w < data.length) :
    tlvWriteLoop RamCopy.write data (fuel + 1) offset w ram =
      if ram.faults 0 = 0 then
        tlvWriteLoop RamCopy.write data fuel (u32 (offset + dataAlign)) (u16 (w + dataAlign))
          (ram.write offset (writeBuff data w)).2
      else (some (ram.faults 0), (ram.write offset (writeBuff data w)).2) := by
  have hret : (ram.write offset (writeBuff data w)).1 = ram.faults 0 := rfl
  simp only [tlvWriteLoop, if_pos hmore, hret, ite_not]

/-- What has left the block stays so. -/
theorem overrun_search {size fuel : Nat} (h : ram.overrun = true) :
    (getNextFreeOffsetLoop RamCopy.read size fuel offset ram).2.overrun = true := by
  induction fuel generalizing offset ram with
  | zero => exact h
  | succ fuel ih =>
    by_cases hin : offset ≤ size
    · have hstep : (ram.access offset headerSize).overrun = true := RamCopy.overrun_access h
      rw [ram_search_round hin]
      split
      · exact hstep
      · exact ih hstep
    · simp only [getNextFreeOffsetLoop, if_neg hin]
      exact h

theorem overrun_tlvWriteLoop {data : List UInt8} {fuel w : Nat} (h : ram.overrun = true) :
    (tlvWriteLoop RamCopy.write data fuel offset w ram).2.overrun = true := by
  induction fuel generalizing offset w ram with
  | zero => exact h
  | succ fuel ih =>
    by_cases hmore : w < data.length
    · have hstep := @RamCopy.overrun_write ram offset (writeBuff data w) h
      rw [ram_write_round hmore]
      split
      · exact ih hstep
      · exact hstep
    · simp only [tlvWriteLoop, if_neg hmore]
      exact h

end Accesses

/-! ## The free-slot search -/

/-- The search reads headers inside the block only, or leaves it. -/
theorem search_ram {size fuel offset : Nat} (hend : size + 514 < 2 ^ 32)
    (hfuel : size + 1 < fuel + offset) (hpos : 0 < fuel) {ram : RamCopy} (hsize : ram.size = size) :
    ((∀ p, (freeHops ram.mem size).Path offset p → p ≤ size → p + headerSize ≤ size) ∧
      getNextFreeOffsetLoop RamCopy.read size fuel offset ram =
        (some (freeSlot ram.mem size offset), ram)) ∨
    (¬(∀ p, (freeHops ram.mem size).Path offset p → p ≤ size → p + headerSize ≤ size) ∧
      (getNextFreeOffsetLoop RamCopy.read size fuel offset ram).2.overrun = true) := by
  induction fuel generalizing offset with
  | zero => cases hpos
  | succ fuel ih =>
    by_cases hle : offset ≤ size
    · rw [ram_search_round hle]
      by_cases hin : offset + headerSize ≤ size
      · rw [RamCopy.access_inside (hsize ▸ hin)]
        by_cases hfree : (headerAt ram.mem offset).IsFree
        · refine .inl ⟨fun p hp _ => ?_, ?_⟩
          · cases hp with
            | refl => exact hin
            | hop hn => exact absurd hfree (freeHops_some hn).2.1
          · rw [if_pos hfree, freeSlot_free hle hfree]
        · have hnext := nextRecord_le ram.mem offset
          have hlt := lt_nextRecord ram.mem offset
          have hhop := freeHops_next hle hfree
          have hoff : u32 (offset + headerSize) = offset + headerSize :=
            u32_of_lt (by unfold headerSize; omega)
          have hstep : u32 (offset + headerSize + (headerAt ram.mem offset).span) =
              nextRecord ram.mem offset := u32_nextRecord hle hend
          rw [if_neg hfree, hoff, hstep, freeSlot_hop hhop]
          have hpaths : (∀ p, (freeHops ram.mem size).Path offset p → p ≤ size →
              p + headerSize ≤ size) ↔
              ∀ p, (freeHops ram.mem size).Path (nextRecord ram.mem offset) p → p ≤ size →
                p + headerSize ≤ size := by
            constructor
            · exact fun hall p hp => hall p (.hop hhop hp)
            · intro hall p hp hp'
              cases hp with
              | refl => exact hin
              | hop hn hrest =>
                rw [hhop] at hn
                cases hn
                exact hall p hrest hp'
          rw [hpaths]
          exact ih (by omega) (by omega)
      · refine .inr ⟨fun hall => hin (hall offset (.refl _) hle), ?_⟩
        have hover : (ram.access offset headerSize).overrun = true :=
          RamCopy.access_outside (by omega)
        split
        · exact hover
        · exact overrun_search hover
    · simp only [getNextFreeOffsetLoop, hle, if_false]
      refine .inl ⟨fun p hp hp' => ?_, ?_⟩
      · have := hp.le
        omega
      · rw [freeSlot_out (Nat.not_le.mp hle)]

/-! ## Writes into the RAM copy -/

/-- How some writes in a row end: one of them fails, or all are done. -/
inductive Written (ram : RamCopy) (offset : Nat) (bytes : List UInt8) (count : Nat) :
    Option Int × RamCopy → Prop
  | failed {ret : Int} {ram' : RamCopy} : ret ≠ 0 → (∃ n < count, ram.faults n ≠ 0) →
      ram.Follows ram' → Written ram offset bytes count (some ret, ram')
  | done {ram' : RamCopy} : (∀ n < count, ram.faults n = 0) → ram.Follows ram' →
      ram'.mem = ram.mem.blit offset bytes → Written ram offset bytes count (some 0, ram')

section Writes

variable {size : Nat} {tag : UInt16} {data : List UInt8} {ram : RamCopy}

theorem Written.first {offset count : Nat} {chunk bytes : List UInt8}
    (hin : offset + chunk.length ≤ ram.size) (hfault : ram.faults 0 ≠ 0) :
    Written ram offset bytes (count + 1) (some (ram.faults 0), (ram.write offset chunk).2) :=
  .failed hfault ⟨0, Nat.succ_pos _, hfault⟩ (RamCopy.follows_write hin)

theorem Written.after {offset count : Nat} {chunk bytes : List UInt8} {r : Option Int × RamCopy}
    (hin : offset + chunk.length ≤ ram.size) (hfault : ram.faults 0 = 0)
    (h : Written (ram.write offset chunk).2 (offset + chunk.length) bytes count r) :
    Written ram offset (chunk ++ bytes) (count + 1) r := by
  have hfollows := RamCopy.follows_write hin
  cases h with
  | failed hret hfail hlater =>
    obtain ⟨n, hn, hne⟩ := hfail
    rw [RamCopy.faults_write] at hne
    exact .failed hret ⟨n + 1, Nat.succ_lt_succ hn, hne⟩ (hfollows.trans hlater)
  | done hall hlater hmem =>
    refine .done ?_ (hfollows.trans hlater) ?_
    · intro n hn
      cases n with
      | zero => exact hfault
      | succ n =>
        have hnext := hall n (Nat.lt_of_succ_lt_succ hn)
        rwa [RamCopy.faults_write] at hnext
    · rw [hmem, RamCopy.mem_write hfault, Mem.blit_append]

/-- The data of a record is written word by word inside the block. -/
theorem tlvWriteLoop_short (hlen : data.length ≤ 65532) {offset w fuel : Nat} (hw : w % 4 = 0)
    (hle : w ≤ paddedSize data.length) (hin : offset + (paddedSize data.length - w) ≤ ram.size)
    (hend : ram.size < 2 ^ 32) (hfuel : data.length < w + fuel) (hpos : 0 < fuel) :
    Written ram offset ((paddedData data).drop w) ((paddedSize data.length - w) / dataAlign)
      (tlvWriteLoop RamCopy.write data fuel offset w ram) := by
  induction fuel generalizing offset w ram with
  | zero => cases hpos
  | succ fuel ih =>
    have hpad := paddedSize_lt data.length
    have hmod := paddedSize_mod data.length
    have hdata := le_paddedSize data.length
    have halign : dataAlign = 4 := rfl
    by_cases hmore : w < data.length
    · have hcount : (paddedSize data.length - w) / dataAlign =
          (paddedSize data.length - (w + dataAlign)) / dataAlign + 1 := by
        unfold dataAlign
        omega
      have hchunk : offset + (writeBuff data w).length ≤ ram.size := by
        rw [length_writeBuff]
        omega
      rw [ram_write_round hmore, hcount, writeBuff_append_drop hw hmore]
      by_cases hfault : ram.faults 0 = 0
      · have hstep : u16 (w + dataAlign) = w + dataAlign := Nat.mod_eq_of_lt (by omega)
        have hsize := (RamCopy.follows_write hchunk).size
        have hlast := @length_writeBuff data w
        rw [if_pos hfault, hstep]
        by_cases hdone : w + dataAlign < data.length
        · have hoff : u32 (offset + dataAlign) = offset + dataAlign := u32_of_lt (by omega)
          have hnext := @ih (ram.write offset (writeBuff data w)).2 (offset + dataAlign)
            (w + dataAlign) (by omega) (by omega) (by omega) (by omega) (by omega) (by omega)
          rw [hoff]
          refine Written.after hchunk hfault ?_
          rw [hlast]
          exact hnext
        · -- The last word is written: the loop ends whatever the offset has become.
          obtain ⟨fuel, rfl⟩ := Nat.exists_eq_succ_of_ne_zero (show fuel ≠ 0 by omega)
          refine Written.after hchunk hfault ?_
          unfold tlvWriteLoop
          rw [if_neg hdone, List.drop_of_length_le (by rw [length_paddedData]; omega)]
          refine .done ?_ (.refl _) (Mem.blit_nil _ _).symm
          intro n hn
          unfold dataAlign at hn hdone
          omega
      · rw [if_neg hfault]
        exact .first hchunk hfault
    · unfold tlvWriteLoop
      rw [if_neg hmore, List.drop_of_length_le (by rw [length_paddedData]; omega)]
      refine .done ?_ (.refl _) (Mem.blit_nil _ _).symm
      intro n hn
      unfold dataAlign at hn
      omega

/-- The loop of a write of more than 65532 bytes goes on behind the block unless a write fails. -/
theorem tlvWriteLoop_long (hlen : 65532 < data.length) {offset w fuel : Nat} (hw : w % 4 = 0)
    (hle : w ≤ 65532) (hin : offset ≤ ram.size) (hend : ram.size + 4 < 2 ^ 32)
    (hfuel : (ram.size - offset) / dataAlign < fuel) :
    ((∀ n ≤ (ram.size - offset) / dataAlign, ram.faults n = 0) ∧
      (tlvWriteLoop RamCopy.write data fuel offset w ram).2.overrun = true) ∨
    ((∃ n ≤ (ram.size - offset) / dataAlign, ram.faults n ≠ 0) ∧
      ∃ ret ram', tlvWriteLoop RamCopy.write data fuel offset w ram = (some ret, ram') ∧ ret ≠ 0 ∧
        ram.Follows ram') := by
  induction fuel generalizing offset w ram with
  | zero => exact absurd hfuel (Nat.not_lt_zero _)
  | succ fuel ih =>
    have halign : dataAlign = 4 := rfl
    have hmore : w < data.length := by omega
    have hbuff := @length_writeBuff data w
    have hoff : u32 (offset + dataAlign) = offset + dataAlign := u32_of_lt (by omega)
    rw [ram_write_round hmore, hoff]
    by_cases hfault : ram.faults 0 = 0
    · rw [if_pos hfault]
      by_cases hroom : offset + dataAlign ≤ ram.size
      · have hchunk : offset + (writeBuff data w).length ≤ ram.size := by omega
        have hfollows := RamCopy.follows_write hchunk
        have hsize := hfollows.size
        have hcount : (ram.size - offset) / dataAlign =
            (ram.size - (offset + dataAlign)) / dataAlign + 1 := by
          unfold dataAlign at hroom ⊢
          omega
        have hnext := @ih (ram.write offset (writeBuff data w)).2 (offset + dataAlign)
          (u16 (w + dataAlign)) (by unfold u16; omega) (by unfold u16; omega) (by omega)
          (by omega) (by rw [hsize]; unfold dataAlign at hfuel hcount ⊢; omega)
        rw [hsize] at hnext
        simp only [RamCopy.faults_write] at hnext
        rw [hcount]
        obtain ⟨hall, hover⟩ | ⟨⟨n, hn, hne⟩, ret, ram', heq, hne', hlater⟩ := hnext
        · refine .inl ⟨?_, hover⟩
          intro n hn
          cases n with
          | zero => exact hfault
          | succ n => exact hall n (Nat.le_of_succ_le_succ hn)
        · exact .inr ⟨⟨n + 1, Nat.succ_le_succ hn, hne⟩, ret, ram', heq, hne',
            hfollows.trans hlater⟩
      · have hlast : (ram.size - offset) / dataAlign = 0 := by
          unfold dataAlign at hroom ⊢
          omega
        refine .inl ⟨?_, overrun_tlvWriteLoop ?_⟩
        · intro n hn
          rw [hlast] at hn
          rwa [Nat.le_zero.mp hn]
        · have hout : ram.later.size < offset + (writeBuff data w).length := by
            rw [hbuff]
            exact Nat.not_le.mp hroom
          unfold RamCopy.write
          rw [if_pos hfault]
          exact RamCopy.access_outside hout
    · rw [if_neg hfault]
      -- A write that fails does not access the block.
      have hfailed : ram.Follows (ram.write offset (writeBuff data w)).2 := by
        unfold RamCopy.write
        rw [if_neg hfault]
        exact ⟨rfl, rfl, 1, fun _ => rfl⟩
      exact .inr ⟨⟨0, Nat.zero_le _, hfault⟩, _, _, rfl, hfault, hfailed⟩

/-- A write of that many bytes goes on behind the block: there is room for it, its count of the
written bytes wraps before it gets there, and no write fails up to the end of the block. -/
def Overflows (ram : RamCopy) (size length : Nat) : Prop :=
  65532 < length ∧ ramSlot ram.mem size + recordSize length ≤ size ∧
    ∀ n ≤ (size - ramSlot ram.mem size) / dataAlign, ram.faults n = 0

/-- The free-slot search of a write reads headers of the block only, and its loop ends there. -/
def Stays (ram : RamCopy) (size length : Nat) : Prop :=
  LeavesHeader (Mfg.ramTlv size mfgHeaderSize) ram.mem ∧ ¬Overflows ram size length

/-- A record of that many bytes will be written: the loop ends, there is room for it, and none of
its writes fails. -/
def Fits (ram : RamCopy) (size length : Nat) : Prop :=
  length ≤ 65532 ∧ ramSlot ram.mem size + recordSize length ≤ size ∧
    ∀ n < recordSize length / dataAlign, ram.faults n = 0

/-- The copy is a block of that size which no access has left. -/
structure RamCopy.InBlock (ram : RamCopy) (size : Nat) : Prop where
  size : ram.size = size
  overrun : ram.overrun = false

theorem RamCopy.InBlock.follows {ram' : RamCopy} (h : ram.InBlock size)
    (hlater : ram.Follows ram') : ram'.InBlock size :=
  ⟨hlater.size.trans h.size, hlater.overrun.trans h.overrun⟩

/-- How `tlv_write` ends on the copy. -/
inductive Store (ram : RamCopy) (size : Nat) (tag : UInt16) (data : List UInt8) :
    Option Int × RamCopy → Prop
  | overrun {r : Option Int × RamCopy} : ¬Stays ram size data.length → r.2.overrun = true →
      Store ram size tag data r
  | refused {ret : Int} {ram' : RamCopy} : Stays ram size data.length →
      ¬Fits ram size data.length → ret ≠ 0 → ram.Follows ram' →
      Store ram size tag data (some ret, ram')
  | done {ram' : RamCopy} : Stays ram size data.length → Fits ram size data.length →
      ram.Follows ram' →
      ram'.mem = ram.mem.blit (ramSlot ram.mem size) (record tag data) →
      Store ram size tag data (some 0, ram')

/-- `tlv_write` behind its free-slot search. -/
def writeAt (size slot : Nat) (tag : UInt16) (data : List UInt8) (ram : RamCopy) :
    Option Int × RamCopy :=
  if Rejected size slot data.length then (some (-enomem), ram)
  else if ram.faults 0 = 0 then
    tlvWriteLoop RamCopy.write data loopFuel (u32 (slot + headerSize)) 0
      (ram.write slot (headerToBytes (makeHeader tag data.length))).2
  else (some (ram.faults 0), (ram.write slot (headerToBytes (makeHeader tag data.length))).2)

theorem tlvWrite_ram {slot : Option Nat} {ram' : RamCopy}
    (h : getNextFreeOffsetLoop RamCopy.read size loopFuel mfgHeaderSize ram = (slot, ram')) :
    tlvWrite (ramTlv size mfgHeaderSize) ram tag data =
      match slot with
      | none => (none, ram')
      | some slot => writeAt size slot tag data ram' := by
  have hfor : getNextFreeOffsetFor loopFuel (ramTlv size mfgHeaderSize) ram = (slot, ram') := h
  unfold tlvWrite tlvWriteFor
  rw [hfor]
  cases slot with
  | none => rfl
  | some slot =>
    have hret : (ram'.write slot (headerToBytes (makeHeader tag data.length))).1 =
      ram'.faults 0 := rfl
    simp only [ramTlv, hret, writeAt, ite_not]

theorem overrun_writeAt {slot : Nat} (h : ram.overrun = true) :
    (writeAt size slot tag data ram).2.overrun = true := by
  have hstep := @RamCopy.overrun_write ram slot (headerToBytes (makeHeader tag data.length)) h
  unfold writeAt
  split
  · exact h
  · split
    · exact overrun_tlvWriteLoop hstep
    · exact hstep

section Room

variable (hsize : size + 65544 ≤ 2 ^ 32) (hblock : ram.InBlock size)
  (hroom : ramSlot ram.mem size + recordSize data.length ≤ size)

include hsize hroom in
theorem writeAt_room : writeAt size (ramSlot ram.mem size) tag data ram =
    if ram.faults 0 = 0 then
      tlvWriteLoop RamCopy.write data loopFuel (ramSlot ram.mem size + headerSize) 0
        (ram.write (ramSlot ram.mem size) (headerToBytes (makeHeader tag data.length))).2
    else
      (some (ram.faults 0),
        (ram.write (ramSlot ram.mem size) (headerToBytes (makeHeader tag data.length))).2) := by
  have haccepted : ¬Rejected size (ramSlot ram.mem size) data.length :=
    @not_rejected Mem (Mfg.ramTlv size mfgHeaderSize) id (ramTlv_noWrap hsize) ram.mem data hroom
  have hnext : u32 (ramSlot ram.mem size + headerSize) = ramSlot ram.mem size + headerSize :=
    u32_of_lt (by unfold recordSize at hroom; omega)
  unfold writeAt
  rw [if_neg haccepted, hnext]

include hblock hroom in
theorem header_inBlock : ramSlot ram.mem size +
    (headerToBytes (makeHeader tag data.length)).length ≤ ram.size := by
  rw [length_headerToBytes, hblock.size]
  unfold recordSize at hroom
  omega

include hsize hblock hroom in
/-- A record that the write loop gets to the end of is written, or a write of it fails. -/
theorem writeAt_short (hshort : data.length ≤ 65532) :
    Written ram (ramSlot ram.mem size) (record tag data) (recordSize data.length / dataAlign)
      (writeAt size (ramSlot ram.mem size) tag data ram) := by
  have hpad := paddedSize_lt data.length
  have hrec : recordSize data.length = headerSize + paddedSize data.length := rfl
  have hcount : recordSize data.length / dataAlign = paddedSize data.length / dataAlign + 1 := by
    unfold recordSize headerSize dataAlign
    omega
  have hchunk := @header_inBlock size tag data ram hblock hroom
  have hstep := (RamCopy.follows_write hchunk).size.trans hblock.size
  rw [writeAt_room hsize hroom, hcount]
  by_cases hfault : ram.faults 0 = 0
  · rw [if_pos hfault]
    refine Written.after hchunk hfault ?_
    rw [length_headerToBytes]
    exact tlvWriteLoop_short hshort rfl (Nat.zero_le _) (by omega) (by omega)
      (by unfold loopFuel; omega) (by decide)
  · rw [if_neg hfault]
    exact .first hchunk hfault

include hsize hblock hroom in
/-- A longer one is written behind the block, or a write up to its end fails. -/
theorem writeAt_long (hlong : 65532 < data.length) :
    (Overflows ram size data.length ∧
      (writeAt size (ramSlot ram.mem size) tag data ram).2.overrun = true) ∨
    (¬Overflows ram size data.length ∧ ∃ ret ram',
      writeAt size (ramSlot ram.mem size) tag data ram = (some ret, ram') ∧ ret ≠ 0 ∧
        ram.Follows ram') := by
  have hpad := paddedSize_lt data.length
  have hdata := le_paddedSize data.length
  have hrec : recordSize data.length = headerSize + paddedSize data.length := rfl
  have hchunk := @header_inBlock size tag data ram hblock hroom
  have hfollows := RamCopy.follows_write hchunk
  have hstep := hfollows.size.trans hblock.size
  have hcount : (size - ramSlot ram.mem size) / dataAlign =
      (size - (ramSlot ram.mem size + headerSize)) / dataAlign + 1 := by
    unfold dataAlign headerSize at *
    omega
  rw [writeAt_room hsize hroom]
  by_cases hfault : ram.faults 0 = 0
  · rw [if_pos hfault]
    have hloop := @tlvWriteLoop_long data (ram.write (ramSlot ram.mem size)
      (headerToBytes (makeHeader tag data.length))).2 hlong
      (ramSlot ram.mem size + headerSize) 0 loopFuel rfl (Nat.zero_le _) (by omega) (by omega)
      (by rw [hstep]; unfold loopFuel dataAlign; omega)
    rw [hstep] at hloop
    simp only [RamCopy.faults_write] at hloop
    obtain ⟨hall, hover⟩ | ⟨⟨n, hn, hne⟩, ret, ram', heq, hne', hlater⟩ := hloop
    · refine .inl ⟨⟨hlong, hroom, ?_⟩, hover⟩
      rw [hcount]
      intro n hn
      cases n with
      | zero => exact hfault
      | succ n => exact hall n (Nat.le_of_succ_le_succ hn)
    · refine .inr ⟨fun h => hne (h.2.2 (n + 1) ?_), ret, ram', heq, hne', hfollows.trans hlater⟩
      rw [hcount]
      exact Nat.succ_le_succ hn
  · rw [if_neg hfault]
    exact .inr ⟨fun h => hfault (h.2.2 0 (Nat.zero_le _)), _, _, rfl, hfault, hfollows⟩

end Room

theorem tlvWrite_store (hsize : size + 65544 ≤ 2 ^ 32) (hlen : data.length < 65536)
    (hblock : ram.InBlock size) :
    Store ram size tag data (tlvWrite (ramTlv size mfgHeaderSize) ram tag data) := by
  have hsearch := @search_ram size loopFuel mfgHeaderSize (by omega)
    (by unfold loopFuel mfgHeaderSize; omega) (by decide) ram hblock.size
  obtain ⟨hleaves, hslot⟩ | ⟨hleaves, hover⟩ := hsearch
  · rw [tlvWrite_ram hslot]
    by_cases hroom : ramSlot ram.mem size + recordSize data.length ≤ size
    · by_cases hshort : data.length ≤ 65532
      · have hstays : Stays ram size data.length := ⟨hleaves, fun h => Nat.not_lt.mpr hshort h.1⟩
        have hwritten := @writeAt_short size tag data ram hsize hblock hroom hshort
        simp only
        generalize writeAt size (ramSlot ram.mem size) tag data ram = r at hwritten ⊢
        cases hwritten with
        | failed hne hfail hlater =>
          obtain ⟨n, hn, hfault⟩ := hfail
          exact .refused hstays (fun h => hfault (h.2.2 n hn)) hne hlater
        | done hall hlater hmem => exact .done hstays ⟨hshort, hroom, hall⟩ hlater hmem
      · have hlong := @writeAt_long size tag data ram hsize hblock hroom (Nat.not_le.mp hshort)
        obtain ⟨hover, hleft⟩ | ⟨hover, ret, ram', heq, hne, hlater⟩ := hlong
        · exact .overrun (fun hstays => hstays.2 hover) hleft
        · simp only [heq]
          exact .refused ⟨hleaves, hover⟩ (fun h => hshort h.1) hne hlater
    · have hslotLe := @freeSlot_le ram.mem size mfgHeaderSize
      have hpad := paddedSize_lt data.length
      have hrejected : Rejected size (ramSlot ram.mem size) data.length := by
        unfold recordSize paddedSize at *
        unfold Rejected
        rw [u32_of_lt (by unfold headerSize ramSlot; omega)]
        omega
      simp only [writeAt, if_pos hrejected]
      exact .refused ⟨hleaves, fun h => hroom h.2.1⟩ (fun h => hroom h.2.1) (by decide) (.refl _)
  · refine .overrun (fun hstays => hleaves hstays.1) ?_
    rcases hslot : getNextFreeOffsetLoop RamCopy.read size loopFuel mfgHeaderSize ram with
      ⟨slot, ram'⟩
    rw [hslot] at hover
    rw [tlvWrite_ram hslot]
    cases slot with
    | none => exact hover
    | some slot => exact overrun_writeAt hover

end Writes

/-! ## The complete image -/

/-- The elements that the RAM copy is to hold: those that are not imported. -/
def keptElement (build : Build) (element : Element) : Bool :=
  build.keyIdOf element.1 = none

/-- The RAM copy holds the header, a record for every kept element in order, and the flags
record. -/
structure Complete (build : Build) (size : Nat) (ram : Mem) (all : List Element) : Prop where
  header : ram.slice 0 mfgHeaderSize = mfgHeader
  records : ∃ entries : List Entry,
    entries.map Entry.call = all.filter (keptElement build) ∧
      Stored ram size mfgHeaderSize (entries ++ [flagsEntry build]) ∧
      mfgHeaderSize + usedBy (entries ++ [flagsEntry build]) ≤ size

section Complete

variable {build : Build} {size : Nat} {ram : Mem} {all : List Element}

/-- Every element that is copied has a length that a record can write down: of one byte, and not
that of a free slot. -/
def Sized (build : Build) (all : List Element) : Prop :=
  ∀ element ∈ all, build.keyIdOf element.1 = none → 0 < element.2.length ∧ element.2.length < 256

theorem Complete.sized (h : Complete build size ram all) : Sized build all := by
  intro element hmem hkey
  obtain ⟨entries, hentries, -⟩ := h.records
  have hkept : element ∈ all.filter (keptElement build) :=
    List.mem_filter.mpr ⟨hmem, decide_eq_true hkey⟩
  rw [← hentries] at hkept
  obtain ⟨e, -, rfl⟩ := List.mem_map.mp hkept
  exact ⟨e.pos, e.short⟩

theorem filterMap_copied (htags : ∀ element ∈ all, element.1 ≠ emptyType)
    (hsized : Sized build all) :
    (all.filterMap build.copied).map Entry.call = all.filter (keptElement build) := by
  induction all with
  | nil => rfl
  | cons element rest ih =>
    unfold Sized at hsized
    rw [List.forall_mem_cons] at htags hsized
    by_cases hkept : keptElement build element = true
    · have hkey : build.keyIdOf element.1 = none := of_decide_eq_true hkept
      obtain ⟨hpos, hshort⟩ := hsized.1 hkey
      have hcopied : build.copied element =
          some ⟨element.1, element.2, htags.1, hpos, hshort⟩ :=
        dif_pos ⟨hkey, htags.1, hpos, hshort⟩
      rw [List.filterMap_cons_some hcopied, List.filter_cons_of_pos hkept, List.map_cons,
        ih htags.2 hsized.2]
      rfl
    · have hcopied : build.copied element = none :=
        dif_neg fun hc => hkept (decide_eq_true hc.1)
      rw [List.filterMap_cons_none hcopied, List.filter_cons_of_neg hkept, ih htags.2 hsized.2]

/-- Elements that are imported do not show in the copy. -/
theorem copyAll_filter {platform : Platform} {ramCtx : TlvCtx Mem} {ram' : Mem}
    (h : copyAll build platform ramCtx all ram = .done ram') :
    copyAll build platform ramCtx
      (all.filter fun element => build.keyIdOf element.1 = none) ram = .done ram' := by
  induction all generalizing ram with
  | nil => exact h
  | cons element rest ih =>
    obtain ⟨tag, payload⟩ := element
    simp only [copyAll] at h
    split at h
    · cases h
    · rename_i hmax
      split at h
      · cases h
      · rename_i ram₁ hstore
        by_cases hkey : build.keyIdOf tag = none
        · rw [List.filter_cons_of_pos (by simpa using hkey)]
          simp only [copyAll, hmax, if_false, hstore]
          exact ih h
        · rw [List.filter_cons_of_neg (by simpa using hkey)]
          obtain ⟨id, hid⟩ := Option.ne_none_iff_exists'.mp hkey
          have hsame : ram₁ = ram := by
            unfold Mfg.storeElement at hstore
            simp only [hid] at hstore
            split at hstore
            · cases hstore
            · cases hstore
              rfl
          rw [← hsame]
          exact ih h

/-- A copy of elements that can be written down holds their entries. -/
theorem filling_of_copyAll {platform platform' : Platform} (hsize : size + 65544 ≤ 2 ^ 32)
    (htags : ∀ element ∈ all, element.1 ≠ emptyType) (hsized : Sized build all)
    (hcopy : copyAll build platform' (Mfg.ramTlv size mfgHeaderSize) all
      (freshCopy platform size) = .done ram) :
    Filling size ram (all.filterMap build.copied) := by
  have hmem : ∀ element ∈ all.filter fun element => build.keyIdOf element.1 = none,
      element ∈ all ∧ build.keyIdOf element.1 = none := by
    intro element hmem
    simpa using hmem
  have hfilling := (freshCopy_filling platform size).copyAll hsize
    (fun element h => htags element (hmem element h).1)
    (fun element h => (hsized element (hmem element h).1 (hmem element h).2).2)
    (copyAll_filter hcopy)
  have hentries : (all.filter fun element => build.keyIdOf element.1 = none).filterMap
      build.copied = all.filterMap build.copied := by
    rw [List.filterMap_filter]
    refine List.filterMap_congr ?_
    intro element _
    by_cases hkey : build.keyIdOf element.1 = none
    · simp [hkey]
    · have hnone : build.copied element = none := dif_neg fun hc => hkey hc.1
      simp [hkey, hnone]
  rw [List.nil_append, hentries] at hfilling
  exact hfilling

/-- A copy of elements that can be written down is complete once the flags record is there. -/
theorem complete_of_copyAll {platform platform' : Platform} (hsize : size + 65544 ≤ 2 ^ 32)
    (htags : ∀ element ∈ all, element.1 ≠ emptyType)
    (hlen : ∀ element ∈ all, element.2.length < 65536)
    (hsized : Sized build all)
    (hcopy : copyAll build platform' (Mfg.ramTlv size mfgHeaderSize) all
      (freshCopy platform size) = .done ram)
    (hfits : ramSlot ram size + recordSize mfgFlagsSize ≤ size) :
    Complete build size
      (ram.blit (ramSlot ram size) (record mfgFlagsTypeId build.migratedFlags.toBytes)) all where
  header := by
    refine header_of_blit ?_ (copyAll_header hsize hlen hcopy (freshCopy_header platform size))
    have hpos := recordSize_pos mfgFlagsSize
    omega
  records := by
    refine ⟨all.filterMap build.copied, filterMap_copied htags hsized, ?_⟩
    exact (filling_of_copyAll hsize htags hsized hcopy).append (flagsEntry build) hfits

/-- A header fits behind the entries of a copy with room for it. -/
theorem leavesHeader_of_filling {es : List Entry} (h : Filling size ram es)
    (hroom : mfgHeaderSize + usedBy es + headerSize ≤ size) :
    LeavesHeader (Mfg.ramTlv size mfgHeaderSize) ram := by
  have hslot := h.freeSlot_eq hroom
  refine leavesHeader_of_room ?_
  change ramSlot ram size + headerSize ≤ size
  omega

end Complete

end Sidewalk.Mfg.Failing
