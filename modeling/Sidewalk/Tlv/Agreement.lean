import Sidewalk.Tlv.Scan

/-!
# Lookup and read

The two loops are copies of each other, and on any bytes they stop at the same record. The length
test of `tlv_read` takes the padding for payload, where `tlv.h` promises `-ENOMEM`.
-/

namespace Sidewalk.Tlv

open Sidewalk.Lib

/-- The record at `p` is the first of the type that a scan from `o` meets, behind `k` others. The
offsets are those of the loops, which may wrap. -/
inductive Meets (m : Mem) (endOffset : Nat) (type : UInt16) : Nat → Nat → Nat → Prop
  | here {o : Nat} : u32 (o + headerSize) ≤ endOffset → (headerAt m o).type = type →
      Meets m endOffset type 0 o o
  | hop {k o p : Nat} : u32 (o + headerSize) ≤ endOffset → (headerAt m o).type ≠ type →
      Meets m endOffset type k (u32 (u32 (o + headerSize) + (headerAt m o).span)) p →
      Meets m endOffset type (k + 1) o p

/-- The two calls end alike on the bytes `m`. A record is selected where its header is the last
that is read, and `tlv_read` reads only its payload behind that. -/
structure ReadAgrees (ctx : TlvCtx Flash) (m : Mem) (type : UInt16) (dataSize : Nat) : Prop where
  running : (tlvLookup ctx ⟨m, []⟩ type).1 = none → (tlvRead ctx ⟨m, []⟩ type dataSize).1 = none
  failed : ∀ e, (tlvLookup ctx ⟨m, []⟩ type).1 = some (e, none) →
    (tlvRead ctx ⟨m, []⟩ type dataSize).1 = some (e, [])
  found : ∀ header, (tlvLookup ctx ⟨m, []⟩ type).1 = some (0, some header) →
    ∃ p older payload, header = headerAt m p ∧
      (tlvLookup ctx ⟨m, []⟩ type).2.requests = .read p headerSize :: older ∧
      (tlvRead ctx ⟨m, []⟩ type dataSize).2.requests = payload ++ .read p headerSize :: older ∧
      (∀ r ∈ payload, r = .read (u32 (p + headerSize)) dataSize) ∧
      (p + headerSize + header.span ≤ ctx.endOffset →
        (tlvRead ctx ⟨m, []⟩ type dataSize).1 =
          some (if dataSize ≤ header.payloadSize.dataSize.toNat then
            (0, m.slice (p + headerSize) dataSize) else (-enomem, [])))

/-- What `tlv_read` does with the record that it stopped at. -/
def readPayload (endOffset dataSize : Nat) (f : Flash) (o : Nat) (header : TlvHeader) :
    Option (Int × List UInt8) × Flash :=
  if dataSize ≤ header.span then
    if endOffset < u32 (o + dataSize) then (some (-enodata, []), f)
    else (some (0, f.mem.slice o dataSize), (f.read o dataSize).2.2)
  else (some (-enomem, []), f)

section

variable {m : Mem} {endOffset : Nat} {type : UInt16} {dataSize : Nat}

theorem Meets.det {k k' o p p' : Nat} (h : Meets m endOffset type k o p)
    (h' : Meets m endOffset type k' o p') : p = p' := by
  induction h generalizing k' with
  | here hin htype =>
    cases h' with
    | here => rfl
    | hop _ hne _ => exact absurd htype hne
  | hop hin hne _ ih =>
    cases h' with
    | here _ htype => exact absurd htype hne
    | hop _ _ hrest => exact ih hrest

theorem lookup_round {fuel o : Nat} {f : Flash} (hin : u32 (o + headerSize) ≤ endOffset) :
    tlvLookupLoop Flash.read endOffset type (fuel + 1) o f =
      if (headerAt f.mem o).type = type then
        (some (0, some (headerAt f.mem o)), (f.read o headerSize).2.2)
      else tlvLookupLoop Flash.read endOffset type fuel
        (u32 (u32 (o + headerSize) + (headerAt f.mem o).span)) (f.read o headerSize).2.2 := by
  simp only [tlvLookupLoop, if_pos hin]
  rfl

theorem read_round {fuel o : Nat} {f : Flash} (hin : u32 (o + headerSize) ≤ endOffset) :
    tlvReadLoop Flash.read endOffset type dataSize (fuel + 1) o f =
      if (headerAt f.mem o).type = type then
        readPayload endOffset dataSize (f.read o headerSize).2.2 (u32 (o + headerSize))
          (headerAt f.mem o)
      else tlvReadLoop Flash.read endOffset type dataSize fuel
        (u32 (u32 (o + headerSize) + (headerAt f.mem o).span)) (f.read o headerSize).2.2 := by
  simp only [tlvReadLoop, if_pos hin]
  rfl

/-- How both loops end: at one record, with no record left, or not at all. -/
inductive Lockstep (m : Mem) (endOffset : Nat) (type : UInt16) (dataSize fuel o : Nat) :
    Option (Int × Option TlvHeader) × Flash → Option (Int × List UInt8) × Flash → Prop
  | found {k p older} : k < fuel → Meets m endOffset type k o p →
      Lockstep m endOffset type dataSize fuel o
        (some (0, some (headerAt m p)), ⟨m, .read p headerSize :: older⟩)
        (readPayload endOffset dataSize ⟨m, .read p headerSize :: older⟩ (u32 (p + headerSize))
          (headerAt m p))
  | failed {f f'} : (∀ k p, k < fuel → ¬Meets m endOffset type k o p) →
      Lockstep m endOffset type dataSize fuel o (some (-enodata, none), f) (some (-enodata, []), f')
  | running {f f'} : (∀ k p, k < fuel → ¬Meets m endOffset type k o p) →
      Lockstep m endOffset type dataSize fuel o (none, f) (none, f')

theorem Lockstep.hop {fuel o : Nat} (hin : u32 (o + headerSize) ≤ endOffset)
    (hne : (headerAt m o).type ≠ type) {l r}
    (h : Lockstep m endOffset type dataSize fuel
      (u32 (u32 (o + headerSize) + (headerAt m o).span)) l r) :
    Lockstep m endOffset type dataSize (fuel + 1) o l r := by
  have hnone (hrest : ∀ k p, k < fuel → ¬Meets m endOffset type k
      (u32 (u32 (o + headerSize) + (headerAt m o).span)) p) :
      ∀ k p, k < fuel + 1 → ¬Meets m endOffset type k o p := by
    rintro k p hk (⟨-, htype⟩ | ⟨-, -, hmeets⟩)
    · exact hne htype
    · exact hrest _ p (Nat.lt_of_succ_lt_succ hk) hmeets
  cases h with
  | found hk hmeets => exact .found (Nat.succ_lt_succ hk) (.hop hin hne hmeets)
  | failed hrest => exact .failed (hnone hrest)
  | running hrest => exact .running (hnone hrest)

theorem lockstep {fuel o : Nat} {f : Flash} (hm : f.mem = m) :
    Lockstep m endOffset type dataSize fuel o (tlvLookupLoop Flash.read endOffset type fuel o f)
      (tlvReadLoop Flash.read endOffset type dataSize fuel o f) := by
  induction fuel generalizing o f with
  | zero => exact .running fun k p hk => absurd hk (Nat.not_lt_zero k)
  | succ fuel ih =>
    by_cases hin : u32 (o + headerSize) ≤ endOffset
    · rw [lookup_round hin, read_round hin, hm]
      by_cases htype : (headerAt m o).type = type
      · rw [if_pos htype, if_pos htype]
        have hread : (f.read o headerSize).2.2 = ⟨m, .read o headerSize :: f.requests⟩ := by
          rw [← hm]
          rfl
        rw [hread]
        exact .found (Nat.succ_pos fuel) (.here hin htype)
      · rw [if_neg htype, if_neg htype]
        exact .hop hin htype (ih hm)
    · simp only [tlvLookupLoop, tlvReadLoop, if_neg hin]
      refine .failed ?_
      rintro k p hk (⟨hin', -⟩ | ⟨hin', -, -⟩)
      · exact hin hin'
      · exact hin hin'

theorem readPayload_inside {f : Flash} {p : Nat} {header : TlvHeader} (hend : endOffset < 2 ^ 32)
    (hinside : p + headerSize + header.span ≤ endOffset) :
    (readPayload endOffset dataSize f (u32 (p + headerSize)) header).1 =
      some (if dataSize ≤ header.span then (0, f.mem.slice (p + headerSize) dataSize)
        else (-enomem, [])) := by
  have hoff : u32 (p + headerSize) = p + headerSize := u32_of_lt (by omega)
  unfold readPayload
  rw [hoff]
  by_cases hfits : dataSize ≤ header.span
  · rw [if_pos hfits, if_pos hfits, u32_of_lt (by omega), if_neg (by omega)]
  · rw [if_neg hfits, if_neg hfits]

/-- Besides the headers, the payload may be read. -/
theorem readPayload_requests {f : Flash} {o : Nat} {header : TlvHeader} :
    ∃ payload, (readPayload endOffset dataSize f o header).2.requests = payload ++ f.requests ∧
      ∀ r ∈ payload, r = .read o dataSize := by
  unfold readPayload
  split
  · split
    · exact ⟨[], rfl, fun _ hr => absurd hr List.not_mem_nil⟩
    · exact ⟨[.read o dataSize], rfl, fun _ hr => List.mem_singleton.mp hr⟩
  · exact ⟨[], rfl, fun _ hr => absurd hr List.not_mem_nil⟩

/-- The two results for a record differ by the padding. -/
theorem payloadResult_iff {header : TlvHeader} {bs : List UInt8} :
    (if dataSize ≤ header.span then ((0 : Int), bs) else (-enomem, [])) =
        (if dataSize ≤ header.payloadSize.dataSize.toNat then (0, bs) else (-enomem, [])) ↔
      dataSize ≤ header.payloadSize.dataSize.toNat ∨ header.span < dataSize := by
  have hle : header.payloadSize.dataSize.toNat ≤ header.span := Nat.le_add_right _ _
  by_cases hfits : dataSize ≤ header.payloadSize.dataSize.toNat
  · rw [if_pos (hfits.trans hle), if_pos hfits]
    simp only [hfits, true_or]
  · rw [if_neg hfits]
    by_cases hspan : dataSize ≤ header.span
    · rw [if_pos hspan]
      constructor
      · intro h
        cases (Prod.mk.inj h).1
      · rintro (h | h)
        · exact absurd h hfits
        · omega
    · rw [if_neg hspan]
      simp only [not_le.mp hspan, or_true]

end

/-- Lookup and read agree on the bytes `m` exactly where no length is asked for that ends in the
padding of the record. -/
theorem readAgrees_iff {ctx : TlvCtx Flash} (himpl : ctx.storageImpl = Flash.storage)
    (hend : ctx.endOffset < 2 ^ 32) (m : Mem) (type : UInt16) (dataSize : Nat) :
    ReadAgrees ctx m type dataSize ↔
      ∀ k p, k < loopFuel → Meets m ctx.endOffset type k ctx.firstOffset p →
        p + headerSize + (headerAt m p).span ≤ ctx.endOffset →
        dataSize ≤ (headerAt m p).payloadSize.dataSize.toNat ∨ (headerAt m p).span < dataSize := by
  have hlookup : tlvLookup ctx ⟨m, []⟩ type =
      tlvLookupLoop Flash.read ctx.endOffset type loopFuel ctx.firstOffset ⟨m, []⟩ := by
    rw [tlvLookup, himpl]
    rfl
  have hread : tlvRead ctx ⟨m, []⟩ type dataSize =
      tlvReadLoop Flash.read ctx.endOffset type dataSize loopFuel ctx.firstOffset ⟨m, []⟩ := by
    rw [tlvRead, himpl]
    rfl
  have hlock : Lockstep m ctx.endOffset type dataSize loopFuel ctx.firstOffset
      (tlvLookup ctx ⟨m, []⟩ type) (tlvRead ctx ⟨m, []⟩ type dataSize) := by
    rw [hlookup, hread]
    exact lockstep rfl
  generalize hl : tlvLookup ctx ⟨m, []⟩ type = l at hlock
  generalize hr : tlvRead ctx ⟨m, []⟩ type dataSize = r at hlock
  cases hlock with
  | @found k p older hk hmeets =>
    constructor
    · intro hagrees k' p' hk' hmeets' hinside
      obtain rfl := hmeets.det hmeets'
      obtain ⟨q, older', payload, hheader, hlast, -, -, hresult⟩ :=
        hagrees.found (headerAt m p) (by rw [hl])
      rw [hl] at hlast
      obtain ⟨hq, -⟩ := List.cons.inj hlast
      obtain rfl : p = q := by
        cases hq
        rfl
      have hresult := hresult hinside
      rw [hr, readPayload_inside hend hinside] at hresult
      exact payloadResult_iff.mp (Option.some.inj hresult)
    · intro hpadding
      obtain ⟨payload, hrequests, hpayload⟩ := @readPayload_requests ctx.endOffset
        dataSize ⟨m, .read p headerSize :: older⟩ (u32 (p + headerSize)) (headerAt m p)
      refine ⟨fun hnone => ?_, fun e he => ?_, fun header hheader => ?_⟩
      · rw [hl] at hnone
        cases hnone
      · rw [hl] at he
        cases he
      · rw [hl] at hheader
        cases hheader
        refine ⟨p, older, payload, rfl, by rw [hl], by rw [hr, hrequests], hpayload, ?_⟩
        intro hinside
        rw [hr, readPayload_inside hend hinside]
        exact congrArg some (payloadResult_iff.mpr (hpadding k p hk hmeets hinside))
  | failed hnone =>
    constructor
    · intro _ k p hk hmeets
      exact absurd hmeets (hnone k p hk)
    · intro _
      refine ⟨fun h => ?_, fun e he => ?_, fun header hheader => ?_⟩
      · rw [hl] at h
        cases h
      · rw [hl] at he
        cases he
        rw [hr]
      · rw [hl] at hheader
        cases hheader
  | running hnone =>
    constructor
    · intro _ k p hk hmeets
      exact absurd hmeets (hnone k p hk)
    · intro _
      refine ⟨fun _ => by rw [hr], fun e he => ?_, fun header hheader => ?_⟩
      · rw [hl] at he
        cases he
      · rw [hl] at hheader
        cases hheader

/-- One record of three bytes and a padding byte. -/
def paddedRegion : Mem := fun a => [0, 1, 1, 3, 7, 8, 9, 0xFF].getD (a - 8) 0xFF

theorem readAgrees_payload : ReadAgrees ⟨Flash.storage, 0, 64, 8⟩ paddedRegion 1 3 := by
  refine (readAgrees_iff rfl (by decide) paddedRegion 1 3).mpr ?_
  rintro k p - hmeets -
  have hfirst : p = 8 := hmeets.det (.here (by decide) (by decide))
  subst hfirst
  exact .inl (by decide)

/-- Four bytes of a record of three are read, the padding with them. -/
theorem read_takes_padding : ¬ReadAgrees ⟨Flash.storage, 0, 64, 8⟩ paddedRegion 1 4 := by
  intro h
  have hlookup : tlvLookup ⟨Flash.storage, 0, 64, 8⟩ ⟨paddedRegion, []⟩ 1 =
      (some (0, some ⟨1, 1, 3⟩), ⟨paddedRegion, [.read 8 headerSize]⟩) := rfl
  obtain ⟨p, older, payload, -, hlast, -, -, hresult⟩ := h.found ⟨1, 1, 3⟩ (by rw [hlookup])
  rw [hlookup] at hlast
  obtain rfl : 8 = p := by
    cases hlast
    rfl
  have hread : (tlvRead ⟨Flash.storage, 0, 64, 8⟩ ⟨paddedRegion, []⟩ 1 4).1 =
      some (0, [7, 8, 9, 0xFF]) := by decide
  have hrefused := hread.symm.trans (hresult (by decide))
  cases hrefused

end Sidewalk.Tlv
