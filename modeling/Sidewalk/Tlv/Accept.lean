import Sidewalk.Tlv.Store

/-!
# Which accepted writes are kept

`tlv_write` takes any type and any 16-bit size, but the header keeps eight bits of the size and
gives the type `0xFFFF` and the size `0` to free slots. Here the region may hold anything. An
accepted record that the header can represent is `Established`: every later write leaves it
alone. Any other accepted record is lost: a size above 255 is reported wrong at once, and a
record that reads as a free slot is overwritten by the next one (`exists_filled`). Nothing but a
lack of room makes `tlv_write` reject such a record (`noSilentAcceptance_iff`).
-/

namespace Sidewalk.Tlv

open Sidewalk.Lib

variable {σ : Type}

/-- The header of a record can say what the record holds. -/
def Representable (type : UInt16) (size : Nat) : Prop :=
  type ≠ emptyType ∧ 0 < size ∧ size < 256

/-- After any further calls that return, both scans show the record. -/
def Kept (ctx : TlvCtx σ) (s : σ) (type : UInt16) (data : List UInt8) : Prop :=
  ∀ calls rets s', (∀ call ∈ calls, call.2.length < 2 ^ 16) →
    runWrites ctx s calls = some (rets, s') →
      (∃ header, (tlvLookup ctx s' type).1 = some (0, some header) ∧
        header.payloadSize.dataSize.toNat = data.length) ∧
      (tlvRead ctx s' type data.length).1 = some (0, data)

/-- The write returns an error. -/
def IsRejected (ctx : TlvCtx σ) (s : σ) (type : UInt16) (data : List UInt8) : Prop :=
  ∃ ret s', tlvWrite ctx s type data = (some ret, s') ∧ ret ≠ 0

/-- A write of a type that is not there yet is kept if it is accepted, and a write that the header
cannot represent is rejected. -/
structure NoSilentAcceptance (ctx : TlvCtx σ) (s : σ) (type : UInt16) (data : List UInt8) :
    Prop where
  kept : (tlvLookup ctx s type).1 = some (-enodata, none) →
    ∀ s', tlvWrite ctx s type data = (some 0, s') → Kept ctx s' type data
  rejected : ¬Representable type data.length → IsRejected ctx s type data

section

variable {ctx : TlvCtx σ} {view : σ → Mem}

/-! ## Records that stay -/

/-- The record stands where every scan passes, and in use. -/
def Established (ctx : TlvCtx σ) (m : Mem) (type : UInt16) (data : List UInt8) : Prop :=
  ∃ p, (lookupHops m ctx.endOffset type).Path ctx.firstOffset p ∧
    (freeHops m ctx.endOffset).Path ctx.firstOffset p ∧
    Holds m p type data ∧ p + recordSize data.length ≤ ctx.endOffset

theorem Established.lookup {s : σ} {type : UInt16} {data : List UInt8}
    (h : Established ctx (view s) type data) (hlen : data.length < 256)
    (hs : FaultFree ctx.storageImpl view) (hw : NoWrap ctx) :
    (tlvLookup ctx s type).1 = some (0, some (makeHeader type data.length)) ∧
      (tlvRead ctx s type data.length).1 = some (0, data) := by
  obtain ⟨p, hpath, -, held, hin⟩ := h
  obtain ⟨s₁, hlook, -⟩ := tlvLookup_eq hs hw s type
  obtain ⟨s₂, hread, -⟩ := tlvRead_eq hs hw s type data.length
  have hfind : findType (view s) ctx.endOffset type ctx.firstOffset = some p := by
    rw [findType_path hpath, findType_here (by unfold recordSize at hin; omega)]
    rw [held.headerAt]
    rfl
  rw [hlook, hread, hfind]
  refine ⟨?_, ?_⟩
  · rw [lookupResult, held.headerAt]
  · rw [held.readResult hlen hin (Nat.le_refl _), List.take_length]

/-- A block written at the free slot lies behind an established record. -/
theorem Established.blit {m : Mem} {type : UInt16} {data : List UInt8}
    (h : Established ctx m type data) (hrep : Representable type data.length) {bs : List UInt8}
    (hroom : freeSlot m ctx.endOffset ctx.firstOffset < ctx.endOffset) :
    Established ctx (m.blit (freeSlot m ctx.endOffset ctx.firstOffset) bs) type data := by
  obtain ⟨p, hlook, hfree, held, hin⟩ := h
  have hnext := freeHops_next (by omega : p ≤ ctx.endOffset)
    (held.not_isFree hrep.1 hrep.2.1 hrep.2.2)
  rw [held.nextRecord hrep.2.2] at hnext
  have hslot := freeSlot_path hfree
  rw [freeSlot_hop hnext] at hslot
  have hbehind : p + recordSize data.length ≤ freeSlot m ctx.endOffset ctx.firstOffset := by
    rw [hslot] at hroom ⊢
    exact le_freeSlot hroom
  have hagree : m.Agree (m.blit (freeSlot m ctx.endOffset ctx.firstOffset) bs) ctx.firstOffset
      (p + recordSize data.length) := (m.agree_blit_below bs hbehind).symm
  have hbelow := hagree.mono (Nat.le_refl _) (Nat.le_add_right p (recordSize data.length))
  exact ⟨p, lookup_path_congr hlook hbelow, free_path_congr hfree hbelow,
    held.congr (hagree.mono hlook.le (Nat.le_refl _)), hin⟩

theorem Established.write (hs : FaultFree ctx.storageImpl view) (hw : NoWrap ctx) {s s' : σ}
    {type type' : UInt16} {data data' : List UInt8} {ret : Int}
    (h : Established ctx (view s) type data) (hrep : Representable type data.length)
    (hsum : ctx.endOffset + recordSize data'.length < 2 ^ 32)
    (hwrite : tlvWrite ctx s type' data' = (some ret, s')) :
    Established ctx (view s') type data := by
  rcases tlvWrite_cases hs hw hsum hwrite with ⟨-, hv, -⟩ | ⟨-, -, hfits, hv⟩
  · rwa [hv]
  · rw [hv]
    exact h.blit hrep (by unfold recordSize headerSize at hfits; omega)

theorem recordSize_lt {n : Nat} (hn : n < 2 ^ 16) : recordSize n < 65544 := by
  have := paddedSize_lt n
  unfold recordSize headerSize
  omega

theorem Established.run (hs : FaultFree ctx.storageImpl view) (hw : NoWrap ctx)
    (hend : ctx.endOffset + 65544 ≤ 2 ^ 32) {s s' : σ} {type : UInt16} {data : List UInt8}
    {calls : List (UInt16 × List UInt8)} {rets : List Int}
    (h : Established ctx (view s) type data) (hrep : Representable type data.length)
    (hcalls : ∀ call ∈ calls, call.2.length < 2 ^ 16)
    (hrun : runWrites ctx s calls = some (rets, s')) : Established ctx (view s') type data := by
  induction calls generalizing s rets with
  | nil =>
    cases hrun
    exact h
  | cons call calls ih =>
    obtain ⟨type', data'⟩ := call
    rw [List.forall_mem_cons] at hcalls
    have hsize := recordSize_lt hcalls.1
    simp only [runWrites] at hrun
    split at hrun
    · cases hrun
    · next ret s₁ hwrite =>
      obtain ⟨⟨rets₁, s₂⟩, hrest, heq⟩ := Option.map_eq_some_iff.mp hrun
      cases heq
      exact ih (h.write hs hw hrep (by simp only at hsize; omega) hwrite) hcalls.2 hrest

/-- The record of an accepted write of a new type stands where every scan passes. -/
theorem established_of_write {m : Mem} {type : UInt16} {data : List UInt8}
    (habsent : findType m ctx.endOffset type ctx.firstOffset = none)
    (hfits : freeSlot m ctx.endOffset ctx.firstOffset + recordSize data.length ≤ ctx.endOffset) :
    Established ctx (m.blit (freeSlot m ctx.endOffset ctx.firstOffset) (record type data)) type
      data := by
  have hroom : freeSlot m ctx.endOffset ctx.firstOffset < ctx.endOffset := by
    unfold recordSize headerSize at hfits
    omega
  have hfree := path_freeSlot hroom
  have hlook : (lookupHops m ctx.endOffset type).Path ctx.firstOffset _ :=
    lookup_path_of_free hfree (by omega) fun q hq => by rw [habsent] at hq; cases hq
  have hagree := m.agree_before_blit ctx.firstOffset (freeSlot m ctx.endOffset ctx.firstOffset)
    (record type data)
  exact ⟨_, lookup_path_congr hlook hagree, free_path_congr hfree hagree, holds_blit m _ _ _, hfits⟩

/-! ## Records that are lost -/

/-- A type other than the given one, and not the erased one. -/
def otherType (type : UInt16) : UInt16 := if type = 1 then 2 else 1

theorem otherType_ne (type : UInt16) : otherType type ≠ type ∧ otherType type ≠ emptyType := by
  unfold otherType
  split
  · next h => subst h; decide
  · next h => exact ⟨fun h' => h h'.symm, by decide⟩

/-- A lookup finds the type at records in use only. -/
def OnlyInUse (ctx : TlvCtx σ) (m : Mem) (type : UInt16) : Prop :=
  ∀ p, findType m ctx.endOffset type ctx.firstOffset = some p → ¬(headerAt m p).IsFree

/-- Less than a header fits behind the free slot: nothing but records in use is found. -/
theorem onlyInUse_of_full {m : Mem} {type : UInt16}
    (hfull : ctx.endOffset < freeSlot m ctx.endOffset ctx.firstOffset + headerSize) :
    OnlyInUse ctx m type := by
  intro p hp
  have hpath := Hops.path_rest (freeHops m ctx.endOffset) ctx.firstOffset
  rcases findType_along_free hpath hp with h | h
  · exact h
  · have hout : ctx.endOffset < (freeHops m ctx.endOffset).rest ctx.firstOffset + headerSize := by
      simp only [freeSlot] at hfull
      split at hfull <;> omega
    rw [findType_out hout] at h
    cases h

/-- An empty record of another type that leaves no room for a further header hides what was
left free. -/
theorem onlyInUse_of_last {m : Mem} {type : UInt16}
    (hfits : freeSlot m ctx.endOffset ctx.firstOffset + headerSize ≤ ctx.endOffset)
    (hlast : ctx.endOffset < freeSlot m ctx.endOffset ctx.firstOffset + 8) :
    OnlyInUse ctx (m.blit (freeSlot m ctx.endOffset ctx.firstOffset) (record (otherType type) []))
      type := by
  have hroom : freeSlot m ctx.endOffset ctx.firstOffset < ctx.endOffset := by
    unfold headerSize at hfits
    omega
  have hpath := path_freeSlot hroom
  have held := holds_blit m (freeSlot m ctx.endOffset ctx.firstOffset) (otherType type) []
  have hagree := m.agree_before_blit ctx.firstOffset (freeSlot m ctx.endOffset ctx.firstOffset)
    (record (otherType type) [])
  generalize m.blit (freeSlot m ctx.endOffset ctx.firstOffset) (record (otherType type) []) = m' at *
  intro p hp
  rcases findType_along_free (free_path_congr hpath hagree) hp with h | h
  · exact h
  · have hne : (headerAt m' (freeSlot m ctx.endOffset ctx.firstOffset)).type ≠ type := by
      rw [held.headerAt]
      exact (otherType_ne type).1
    have hnext := held.nextRecord (by decide)
    rw [findType_hop (lookupHops_next hfits hne), hnext,
      findType_out (by unfold recordSize headerSize; omega)] at h
    cases h

theorem runWrites_cons {s s₁ s₂ : σ} {type : UInt16} {data : List UInt8} {ret : Int}
    {calls : List (UInt16 × List UInt8)} {rets : List Int}
    (h : tlvWrite ctx s type data = (some ret, s₁))
    (hrest : runWrites ctx s₁ calls = some (rets, s₂)) :
    runWrites ctx s ((type, data) :: calls) = some (ret :: rets, s₂) := by
  simp only [runWrites, h, hrest, Option.map_some]

/-- Behind a representable record written at the free slot, the search goes on behind it. -/
theorem freeSlot_blit {m : Mem} {type : UInt16} {data : List UInt8}
    (hrep : Representable type data.length)
    (hroom : freeSlot m ctx.endOffset ctx.firstOffset < ctx.endOffset) :
    let m' := m.blit (freeSlot m ctx.endOffset ctx.firstOffset) (record type data)
    freeSlot m' ctx.endOffset ctx.firstOffset =
      freeSlot m' ctx.endOffset
        (freeSlot m ctx.endOffset ctx.firstOffset + recordSize data.length) := by
  intro m'
  have hpath := path_freeSlot hroom
  have hagree := m.agree_before_blit ctx.firstOffset (freeSlot m ctx.endOffset ctx.firstOffset)
    (record type data)
  have held := holds_blit m (freeSlot m ctx.endOffset ctx.firstOffset) type data
  have hnext := freeHops_next (Nat.le_of_lt hroom)
    (held.not_isFree hrep.1 hrep.2.1 hrep.2.2)
  rw [held.nextRecord hrep.2.2] at hnext
  rw [freeSlot_path (free_path_congr hpath hagree), freeSlot_hop hnext]

theorem lt_freeSlot_blit {m : Mem} {type : UInt16} {data : List UInt8}
    (hrep : Representable type data.length)
    (hroom : freeSlot m ctx.endOffset ctx.firstOffset < ctx.endOffset) :
    freeSlot m ctx.endOffset ctx.firstOffset <
      freeSlot (m.blit (freeSlot m ctx.endOffset ctx.firstOffset) (record type data))
        ctx.endOffset ctx.firstOffset := by
  have hmoved := freeSlot_blit hrep hroom
  simp only at hmoved
  rw [hmoved]
  rcases Nat.lt_or_ge (freeSlot (m.blit (freeSlot m ctx.endOffset ctx.firstOffset)
    (record type data)) ctx.endOffset
      (freeSlot m ctx.endOffset ctx.firstOffset + recordSize data.length)) ctx.endOffset with h | h
  · have hle := le_freeSlot h
    have hsize : 0 < recordSize data.length := Nat.lt_of_lt_of_le (by decide) (Nat.le_add_right _ _)
    omega
  · exact Nat.lt_of_lt_of_le hroom h

/-- Writes of another type fill the region up, over whatever reads as a free slot. -/
theorem exists_filled (hs : FaultFree ctx.storageImpl view) (hw : NoWrap ctx) (s : σ)
    (type : UInt16) :
    ∃ calls rets s', (∀ call ∈ calls, call.2.length < 2 ^ 16) ∧
      runWrites ctx s calls = some (rets, s') ∧ OnlyInUse ctx (view s') type := by
  induction hd : ctx.endOffset - freeSlot (view s) ctx.endOffset ctx.firstOffset
    using Nat.strongRecOn generalizing s with
  | _ d ih =>
    by_cases hbig : freeSlot (view s) ctx.endOffset ctx.firstOffset + 8 ≤ ctx.endOffset
    · -- one more record in use moves the free slot up
      obtain ⟨s₁, hs₁, hv₁⟩ := tlvWrite_fits hs hw s (otherType type) [0, 0, 0, 0] hbig (by simp)
      have hmoved := @lt_freeSlot_blit σ ctx (view s) (otherType type) [0, 0, 0, 0]
        ⟨(otherType_ne type).2, by simp, by simp⟩ (by omega)
      rw [← hv₁] at hmoved
      obtain ⟨calls, rets, s₂, hcalls, hrun, honly⟩ := ih _ (by omega) s₁ rfl
      refine ⟨(otherType type, [0, 0, 0, 0]) :: calls, 0 :: rets, s₂, ?_, runWrites_cons hs₁ hrun,
        honly⟩
      exact List.forall_mem_cons.mpr ⟨by simp, hcalls⟩
    · -- what is left takes at most one header
      by_cases hfits : freeSlot (view s) ctx.endOffset ctx.firstOffset + headerSize ≤ ctx.endOffset
      · obtain ⟨s₁, hs₁, hv₁⟩ := tlvWrite_fits hs hw s (otherType type) [] hfits (by simp)
        refine ⟨[(otherType type, [])], [0], s₁, by simp, runWrites_cons hs₁ rfl, ?_⟩
        rw [hv₁]
        exact onlyInUse_of_last hfits (by omega)
      · exact ⟨[], [], s, by simp, rfl, onlyInUse_of_full (by omega)⟩

theorem not_kept_of_not_representable (hs : FaultFree ctx.storageImpl view) (hw : NoWrap ctx)
    (s : σ) {type : UInt16} {data : List UInt8} (hrep : ¬Representable type data.length) :
    ¬Kept ctx s type data := by
  intro hkept
  obtain ⟨calls, rets, s', hcalls, hrun, honly⟩ := exists_filled hs hw s type
  obtain ⟨⟨header, hlook, hsize⟩, -⟩ := hkept calls rets s' hcalls hrun
  obtain ⟨s₁, hlook', -⟩ := tlvLookup_eq hs hw s' type
  rw [hlook'] at hlook
  cases hfind : findType (view s') ctx.endOffset type ctx.firstOffset with
  | none =>
    rw [hfind] at hlook
    cases hlook
  | some p =>
    rw [hfind] at hlook
    cases hlook
    have huse := honly p hfind
    have htype := (findType_some hfind).2
    refine hrep ⟨fun h => huse (.inl (htype.trans h)), ?_, ?_⟩
    · rw [← hsize]
      exact Nat.pos_of_ne_zero fun h => huse (.inr (UInt8.toNat_inj.mp h))
    · rw [← hsize]
      exact UInt8.toNat_lt _

/-- An accepted record of a new type that the header can represent is kept. -/
theorem kept_of_representable (hs : FaultFree ctx.storageImpl view) (hw : NoWrap ctx)
    (hend : ctx.endOffset + 65544 ≤ 2 ^ 32) {s s' : σ} {type : UInt16} {data : List UInt8}
    (hrep : Representable type data.length)
    (habsent : (tlvLookup ctx s type).1 = some (-enodata, none))
    (hwrite : tlvWrite ctx s type data = (some 0, s')) : Kept ctx s' type data := by
  have hsize := @recordSize_lt data.length (Nat.lt_trans hrep.2.2 (by decide))
  obtain ⟨s₀, hlook, -⟩ := tlvLookup_eq hs hw s type
  rw [hlook] at habsent
  have hnone : findType (view s) ctx.endOffset type ctx.firstOffset = none := by
    cases hfind : findType (view s) ctx.endOffset type ctx.firstOffset with
    | none => rfl
    | some p => rw [hfind] at habsent; cases habsent
  rcases tlvWrite_cases hs hw (by omega) hwrite with ⟨hret, -⟩ | ⟨-, -, hfits, hv⟩
  · cases hret
  · intro calls rets s₂ hcalls hrun
    have hestab := established_of_write hnone hfits
    rw [← hv] at hestab
    have hlast := (hestab.run hs hw hend hrep hcalls hrun).lookup hrep.2.2 hs hw
    refine ⟨⟨_, hlast.1, ?_⟩, hlast.2⟩
    rw [toNat_dataSize_makeHeader, Nat.mod_eq_of_lt hrep.2.2]

/-- A write is rejected exactly if there is no room for it: nothing else is checked. -/
theorem isRejected_iff (hs : FaultFree ctx.storageImpl view) (hw : NoWrap ctx)
    (hend : ctx.endOffset + 65544 ≤ 2 ^ 32) (s : σ) (type : UInt16) {data : List UInt8}
    (hlen : data.length < 2 ^ 16) :
    IsRejected ctx s type data ↔
      ctx.endOffset <
        freeSlot (view s) ctx.endOffset ctx.firstOffset + recordSize data.length := by
  have hsize := recordSize_lt hlen
  constructor
  · rintro ⟨ret, s', hwrite, hret⟩
    rcases tlvWrite_cases hs hw (by omega) hwrite with ⟨-, -, hfull⟩ | ⟨hzero, -⟩
    · exact hfull
    · exact absurd hzero hret
  · intro hfull
    obtain ⟨s', hwrite, -⟩ := tlvWrite_full hs hw s type data (by omega) hfull
    exact ⟨-enomem, s', hwrite, by decide⟩

/-- Exactly the writes whose header can say what they hold, and those for which there is no room,
are answered as they should be: any other one is accepted, or its write loop does not end. -/
theorem noSilentAcceptance_iff (hs : FaultFree ctx.storageImpl view) (hw : NoWrap ctx)
    (hend : ctx.endOffset + 65544 ≤ 2 ^ 32) (s : σ) (type : UInt16) {data : List UInt8}
    (hlen : data.length < 2 ^ 16) :
    NoSilentAcceptance ctx s type data ↔
      Representable type data.length ∨
      ctx.endOffset <
        freeSlot (view s) ctx.endOffset ctx.firstOffset + recordSize data.length := by
  have hrejected := isRejected_iff hs hw hend s type hlen
  constructor
  · intro h
    by_cases hrep : Representable type data.length
    · exact .inl hrep
    · exact .inr (hrejected.mp (h.rejected hrep))
  · rintro (hrep | hfull)
    · refine ⟨fun habsent s' hwrite => ?_, fun hnot => absurd hrep hnot⟩
      exact kept_of_representable hs hw hend hrep habsent hwrite
    · obtain ⟨ret, s₁, hfailed, hret⟩ := hrejected.mpr hfull
      refine ⟨fun _ s' hwrite => ?_, fun _ => ⟨ret, s₁, hfailed, hret⟩⟩
      rw [hfailed] at hwrite
      cases hwrite
      exact absurd rfl hret

theorem noSilentAcceptance_three_bytes :
    NoSilentAcceptance (ramCtx 0 64 8) (fun _ => 0xFF) 5 [1, 2, 3] :=
  (noSilentAcceptance_iff (ramCtx_faultFree 0 64 8) ⟨by decide, by decide⟩ (by decide)
    (fun _ => 0xFF) 5 (by decide)).mpr (.inl ⟨by decide, by decide, by decide⟩)

/-- The empty payload is accepted, and the next write overwrites its record. -/
theorem silent_acceptance_of_empty :
    ¬NoSilentAcceptance (ramCtx 0 64 8) (fun _ => 0xFF) 5 [] := by
  intro h
  obtain ⟨⟨header, hlook, -⟩, -⟩ := h.kept (by decide) _ rfl [(6, [1])] [0] _ (by decide) rfl
  have hgone : (tlvLookup (ramCtx 0 64 8) (tlvWrite (ramCtx 0 64 8)
      (tlvWrite (ramCtx 0 64 8) (fun _ => 0xFF) 5 []).2 6 [1]).2 5).1 =
        some (-enodata, none) := by decide
  have hclash : some (-enodata, none) = some (0, some header) := hgone.symm.trans hlook
  cases hclash

/-- Of the accepted records of new types exactly those that the header can represent are kept
through all later writes. -/
theorem accepted_kept_iff (hs : FaultFree ctx.storageImpl view) (hw : NoWrap ctx)
    (hend : ctx.endOffset + 65544 ≤ 2 ^ 32) {s s' : σ} {type : UInt16} {data : List UInt8}
    (habsent : (tlvLookup ctx s type).1 = some (-enodata, none))
    (hwrite : tlvWrite ctx s type data = (some 0, s')) :
    Kept ctx s' type data ↔ Representable type data.length := by
  constructor
  · exact fun hkept => by_contra fun hrep => not_kept_of_not_representable hs hw s' hrep hkept
  · exact fun hrep => kept_of_representable hs hw hend hrep habsent hwrite

/-- Three bytes under a type of their own are kept, and an empty payload is not. -/
theorem accepted_kept_iff_three_bytes :
    Kept (ramCtx 0 64 8) (tlvWrite (ramCtx 0 64 8) (fun _ => 0xFF) 5 [1, 2, 3]).2 5 [1, 2, 3] ∧
      ¬Kept (ramCtx 0 64 8) (tlvWrite (ramCtx 0 64 8) (fun _ => 0xFF) 5 []).2 5 [] := by
  refine ⟨?_, fun hkept => ?_⟩
  · exact (accepted_kept_iff (s := fun _ => 0xFF) (ramCtx_faultFree 0 64 8)
      ⟨by decide, by decide⟩ (by decide) (by decide) rfl).mpr ⟨by decide, by decide, by decide⟩
  · have hrep := (accepted_kept_iff (s := fun _ => 0xFF) (ramCtx_faultFree 0 64 8)
      ⟨by decide, by decide⟩ (by decide) (by decide) rfl).mp hkept
    exact absurd hrep.2.1 (by decide)

end

end Sidewalk.Tlv
