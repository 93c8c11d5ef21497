import Sidewalk.Cert.Lifecycle
import Sidewalk.Mfg.Migration
import Sidewalk.Mfg.RoundTrip
import Sidewalk.Tlv.Honest

/-!
# What a certification leaves on the flash

The part of `sid_on_dev_cert_verify_and_store` from the erasure on: the version, a record for each
field of the context, each one read back, and the flags. `stored_boots` says that its success is a
store that the next boot leaves alone and reads all fields from.
-/

namespace Sidewalk.Cert

open Sidewalk.Lib Sidewalk.Tlv Sidewalk.Mfg

variable {σ : Type}

/-! ## The store -/

def errorNosupport : Int := -6
def errorStorageWriteFail : Int := -31
def errorStorageEraseFail : Int := -32

/-- Stands for a call that does not return: no result is positive. -/
def stillRunning : Int := 1

def storeVersion : UInt16 := 2

section Calls

variable (build : Build) (diagnostic : Bool) (bufferSet : KeyId → Nat → Option (List UInt8))
  (heap : UInt16 → Option Mem) (tlv : TlvCtx σ)

/-- `sid_pal_mfg_store_write`. -/
def sidPalMfgStoreWrite (value : UInt16) (data : List UInt8) (s : σ) : Option Int × σ :=
  if value = storeVersion then
    if data.length ≠ 4 then (some (-einval), s)
    else
      match tlvWriteStartMarker tlv s (mfgHeaderMagic ++ data) with
      | (ret, s) => (some ret, s)
  else if diagnostic then tlvWrite tlv s value data
  else (some errorNosupport, s)

/-- `sid_pal_mfg_store_read` into a buffer, with what `sid_crypto_keys_buffer_set` puts there. -/
def sidPalMfgStoreRead (value : UInt16) (buffer : List UInt8) (s : σ) : Option (List UInt8) × σ :=
  match build.keyIdOf value with
  | some id => (some ((bufferSet id buffer.length).getD buffer), s)
  | none =>
    if value = storeVersion then (some ([0, 0, 0, reportedVersion] ++ buffer.drop 4), s)
    else
      match tlvRead tlv s value buffer.length with
      | (none, s) => (none, s)
      | (some (_, data), s) => (some (data ++ buffer.drop data.length), s)

/-- `sid_pal_mfg_store_get_length_for_value`. -/
def sidPalMfgStoreGetLengthForValue (value : UInt16) (s : σ) : Option Nat × σ :=
  match tlvLookup tlv s value with
  | (none, s) => (none, s)
  | (some (_, none), s) => (some 0, s)
  | (some (_, some header), s) => (some header.payloadSize.dataSize.toNat, s)

/-- `sid_pal_mfg_store_erase`; a call through a missing handler does not return. -/
def sidPalMfgStoreErase (s : σ) : Option Int × σ :=
  if diagnostic then
    match tlv.storageImpl.erase with
    | none => (none, s)
    | some erase =>
      match erase s tlv.startOffset (tlv.endOffset - tlv.startOffset) with
      | (ret, s) => (some ret, s)
  else (some errorNosupport, s)

/-- `write_to_mfg_store`; `heap` is what `k_heap_alloc` returns for a value. -/
def writeToMfgStore (value : UInt16) (data : List UInt8) (s : σ) : Option Bool × σ :=
  match sidPalMfgStoreWrite diagnostic tlv value data s with
  | (none, s) => (none, s)
  | (some result, s) =>
    if result ≠ 0 then (some false, s)
    else
      match heap value with
      | none => (some false, s)
      | some readBuf =>
        match sidPalMfgStoreRead build bufferSet tlv value (readBuf.slice 0 data.length) s with
        | (none, s) => (none, s)
        | (some readBuf, s) => (some (decide (readBuf.take data.length = data)), s)

/-- The calls of `write_to_mfg_store` joined by `&&`. -/
def writeAll : List (UInt16 × List UInt8) → σ → Option Bool × σ
  | [], s => (some true, s)
  | (value, data) :: fields, s =>
    match writeToMfgStore build diagnostic bufferSet heap tlv value data s with
    | (some true, s) => writeAll fields s
    | (result, s) => (result, s)

/-- The fields of the device, in the order they are written. -/
def deviceFields (ctx : Context) : List (UInt16 × List UInt8) :=
  [(4, ctx.smsn), (38, ctx.apid), (5, ctx.appKey)] ++
    (if build.psaKeyStorage then [] else [(6, (ctx.fields .ed25519).prk)]) ++
    [(7, (ctx.fields .ed25519).puk), (8, (ctx.fields .ed25519).sig)] ++
    (if build.psaKeyStorage then [] else [(9, (ctx.fields .p256r1).prk)]) ++
    [(10, (ctx.fields .p256r1).puk), (11, (ctx.fields .p256r1).sig)]

/-- The fields of an authority. -/
def caFields (ctx : Context) (i : Nat) (value : Algo → UInt16) : List (UInt16 × List UInt8) :=
  [Algo.ed25519, Algo.p256r1].flatMap fun algo =>
    let ca := (ctx.fields algo).certs i
    [(value algo, ca.pubKey), (value algo + 1, ca.signature),
      (value algo + 2, ctx.caSerial algo i)]

/-- The fields of the chain; the root has only its keys. -/
def chainFields (ctx : Context) : List (UInt16 × List UInt8) :=
  caFields ctx 0 (fun | .ed25519 => 12 | .p256r1 => 15) ++
    caFields ctx 1 (fun | .ed25519 => 18 | .p256r1 => 21) ++
    caFields ctx 2 (fun | .ed25519 => 24 | .p256r1 => 27) ++
    caFields ctx 3 (fun | .ed25519 => 30 | .p256r1 => 33) ++
    [(36, ((ctx.fields .ed25519).certs certAmzn).pubKey),
      (37, ((ctx.fields .p256r1).certs certAmzn).pubKey)]

/-- `sid_on_dev_cert_verify_and_store` from the erasure on. -/
def eraseAndStore (ctx : Context) (s : σ) : Int × σ :=
  match sidPalMfgStoreErase diagnostic tlv s with
  | (none, s) => (stillRunning, s)
  | (some result, s) =>
    if result ≠ 0 then (errorStorageEraseFail, s)
    else
      match sidPalMfgStoreWrite diagnostic tlv storeVersion [0, 0, 0, reportedVersion] s with
      | (none, s) => (stillRunning, s)
      | (some result, s) =>
        if result ≠ 0 then (errorNosupport, s)
        else
          match writeAll build diagnostic bufferSet heap tlv (deviceFields build ctx) s with
          | (none, s) => (stillRunning, s)
          | (some false, s) => (errorStorageWriteFail, s)
          | (some true, s) =>
            match writeAll build diagnostic bufferSet heap tlv (chainFields ctx) s with
            | (none, s) => (stillRunning, s)
            | (some false, s) => (errorStorageWriteFail, s)
            | (some true, s) =>
              match writeToMfgStore build diagnostic bufferSet heap tlv mfgFlagsTypeId
                build.migratedFlags.toBytes s with
              | (none, s) => (stillRunning, s)
              | (some false, s) => (errorStorageWriteFail, s)
              | (some true, s) => (errorNone, s)

end Calls

/-- All that is stored but the flags. -/
def storedFields (build : Build) (ctx : Context) : List (UInt16 × List UInt8) :=
  deviceFields build ctx ++ chainFields ctx

/-! ## Sizes of the fields -/

structure Ca.Sized (algo : Algo) (ca : Ca) : Prop where
  pubKey : ca.pubKey.length = algo.pukSize
  signature : ca.signature.length = signatureSize
  serial : ca.serial.length = caSerialMaxSize
  low : caSerialMinSize ≤ ca.serialLength
  high : ca.serialLength ≤ caSerialMaxSize

/-- The arrays of the context have their sizes, and the serials theirs. -/
structure Context.Sized (ctx : Context) : Prop where
  smsn : ctx.smsn.length = smsnSize
  apid : ctx.apid.length = apidSize
  appKey : ctx.appKey.length = 32
  prk : ∀ algo, (ctx.fields algo).prk.length = prkSize
  puk : ∀ algo, (ctx.fields algo).puk.length = algo.pukSize
  sig : ∀ algo, (ctx.fields algo).sig.length = signatureSize
  certs : ∀ algo i, i < certMaxNum → ((ctx.fields algo).certs i).Sized algo

/-- A serial that fits its array is read from there. -/
theorem caSerial_of_sized {ctx : Context} {algo : Algo} {i : Nat}
    (h : ((ctx.fields algo).certs i).Sized algo) :
    ctx.caSerial algo i =
      ((ctx.fields algo).certs i).serial.take ((ctx.fields algo).certs i).serialLength :=
  List.take_append_of_le_length (h.high.trans_eq h.serial.symm)

theorem pukSize_le (algo : Algo) : 0 < algo.pukSize ∧ algo.pukSize < 256 := by
  cases algo
  · decide
  · decide

theorem caFields_short {ctx : Context} (h : ctx.Sized) {i : Nat} (hi : i < certMaxNum)
    (value : Algo → UInt16) :
    ∀ field ∈ caFields ctx i value, 0 < field.2.length ∧ field.2.length < 256 := by
  intro field hfield
  obtain ⟨algo, -, hfield⟩ := List.mem_flatMap.1 hfield
  have hca := h.certs algo i hi
  have hmin : caSerialMinSize = 4 := rfl
  have hmax : caSerialMaxSize = 129 := rfl
  have hsig : signatureSize = 64 := rfl
  have hpuk := pukSize_le algo
  simp only [List.mem_cons, List.not_mem_nil, or_false] at hfield
  rcases hfield with rfl | rfl | rfl
  · rw [hca.pubKey]
    exact hpuk
  · rw [hca.signature, hsig]
    decide
  · have hlow := hca.low
    have hhigh := hca.high
    simp only [caSerial_of_sized hca, List.length_take, hca.serial]
    omega

theorem storedFields_short (build : Build) {ctx : Context} (h : ctx.Sized) :
    ∀ field ∈ storedFields build ctx, 0 < field.2.length ∧ field.2.length < 256 := by
  intro field hfield
  unfold storedFields deviceFields chainFields at hfield
  simp only [List.mem_append] at hfield
  rcases hfield with ((((hids | hprk) | hkeys) | hprk) | hkeys) | (((hca | hca) | hca) | hca) | hroot
  · simp only [List.mem_cons, List.not_mem_nil, or_false] at hids
    rcases hids with rfl | rfl | rfl
    · exact ⟨by rw [h.smsn]; decide, by rw [h.smsn]; decide⟩
    · exact ⟨by rw [h.apid]; decide, by rw [h.apid]; decide⟩
    · exact ⟨by rw [h.appKey]; decide, by rw [h.appKey]; decide⟩
  · split at hprk
    · cases hprk
    · cases List.mem_singleton.1 hprk
      exact ⟨by rw [h.prk]; decide, by rw [h.prk]; decide⟩
  · simp only [List.mem_cons, List.not_mem_nil, or_false] at hkeys
    rcases hkeys with rfl | rfl
    · rw [h.puk]
      exact pukSize_le .ed25519
    · exact ⟨by rw [h.sig]; decide, by rw [h.sig]; decide⟩
  · split at hprk
    · cases hprk
    · cases List.mem_singleton.1 hprk
      exact ⟨by rw [h.prk]; decide, by rw [h.prk]; decide⟩
  · simp only [List.mem_cons, List.not_mem_nil, or_false] at hkeys
    rcases hkeys with rfl | rfl
    · rw [h.puk]
      exact pukSize_le .p256r1
    · exact ⟨by rw [h.sig]; decide, by rw [h.sig]; decide⟩
  · exact caFields_short h (by decide) _ _ hca
  · exact caFields_short h (by decide) _ _ hca
  · exact caFields_short h (by decide) _ _ hca
  · exact caFields_short h (by decide) _ _ hca
  · simp only [List.mem_cons, List.not_mem_nil, or_false] at hroot
    rcases hroot with rfl | rfl
    · rw [(h.certs .ed25519 certAmzn (by decide)).pubKey]
      exact pukSize_le .ed25519
    · rw [(h.certs .p256r1 certAmzn (by decide)).pubKey]
      exact pukSize_le .p256r1

theorem values_storedFields (build : Build) (ctx : Context) :
    (storedFields build ctx).map Prod.fst =
      [4, 38, 5] ++ (if build.psaKeyStorage then [] else [6]) ++ [7, 8] ++
        (if build.psaKeyStorage then [] else [9]) ++ [10, 11] ++
        [12, 13, 14, 15, 16, 17, 18, 19, 20, 21, 22, 23, 24, 25, 26, 27, 28, 29, 30, 31, 32, 33, 34,
          35, 36, 37] := by
  unfold storedFields deviceFields
  cases build.psaKeyStorage with
  | false => rfl
  | true => rfl

/-- The values differ from each other and from the ones with a use of their own, and no key that the
PSA holds is among them. -/
theorem values_distinct (build : Build) (ctx : Context) :
    ((storedFields build ctx).map Prod.fst ++ [mfgFlagsTypeId]).Nodup ∧
      ∀ value ∈ (storedFields build ctx).map Prod.fst ++ [mfgFlagsTypeId],
        value ≠ emptyType ∧ value ≠ storeVersion ∧ build.keyIdOf value = none := by
  rw [values_storedFields]
  unfold Build.keyIdOf
  refine ⟨?_, List.all_iff_forall_prop.1 ?_⟩
  · cases build.psaKeyStorage with
    | false => decide +kernel
    | true => decide +kernel
  · cases build.psaKeyStorage with
    | false => decide +kernel
    | true => decide +kernel

theorem exists_entries {fields : List (UInt16 × List UInt8)}
    (h : ∀ field ∈ fields, field.1 ≠ emptyType ∧ 0 < field.2.length ∧ field.2.length < 256) :
    ∃ es : List Entry, es.map Entry.call = fields := by
  induction fields with
  | nil => exact ⟨[], rfl⟩
  | cons field fields ih =>
    obtain ⟨hne, hpos, hshort⟩ := h field List.mem_cons_self
    obtain ⟨es, hes⟩ := ih fun field' hfield => h field' (List.mem_cons_of_mem _ hfield)
    exact ⟨⟨field.1, field.2, hne, hpos, hshort⟩ :: es, congrArg (field :: ·) hes⟩

/-- The fields are records of a store. -/
theorem storedEntries (build : Build) {ctx : Context} (hctx : ctx.Sized) :
    ∃ es : List Entry, es.map Entry.call = storedFields build ctx :=
  exists_entries fun field hfield =>
    ⟨((values_distinct build ctx).2 field.1
        (List.mem_append_left _ (List.mem_map_of_mem hfield))).1,
      storedFields_short build hctx field hfield⟩

/-- What a partition must have room for. -/
def neededSize (build : Build) (ctx : Context) : Nat :=
  mfgHeaderSize + ((storedFields build ctx).map fun field => recordSize field.2.length).sum +
    recordSize mfgFlagsSize

theorem usedBy_append (es es' : List Entry) : usedBy (es ++ es') = usedBy es + usedBy es' := by
  unfold usedBy
  rw [List.map_append, List.sum_append]

theorem usedBy_storedFields {build : Build} {ctx : Context} {es : List Entry}
    (hes : es.map Entry.call = storedFields build ctx) :
    mfgHeaderSize + usedBy (es ++ [flagsEntry build]) = neededSize build ctx := by
  unfold neededSize
  have hused : usedBy es =
      (es.map ((fun field => recordSize field.2.length) ∘ Entry.call)).sum := rfl
  have hflags : (flagsEntry build).size = recordSize mfgFlagsSize := rfl
  rw [usedBy_append, usedBy_cons, usedBy_nil, ← hes, List.map_map, hused, hflags]
  omega

/-! ## Writes -/

section Writes

variable {build : Build} {diagnostic : Bool} {bufferSet : KeyId → Nat → Option (List UInt8)}
  {heap : UInt16 → Option Mem} {tlv : TlvCtx σ} {view : σ → Mem} {flashEnd : Nat}
  {header : List UInt8} {es : List Entry}

theorem view_mfgStoreRead (build : Build) (bufferSet : KeyId → Nat → Option (List UInt8))
    (hs : Honest tlv.storageImpl view flashEnd) (value : UInt16)
    (buffer : List UInt8) (s : σ) :
    view (sidPalMfgStoreRead build bufferSet tlv value buffer s).2 = view s := by
  obtain ⟨read, hread, hreads⟩ := hs.read
  have hview : view (tlvRead tlv s value buffer.length).2 = view s := by
    refine tlvRead_preserves (P := fun s' => view s' = view s) ?_ value _ rfl
    intro read' hread' s' o n hs'
    cases hread.symm.trans hread'
    exact (hreads s' o n).1.trans hs'
  unfold sidPalMfgStoreRead
  split
  · rfl
  split
  · rfl
  generalize tlvRead tlv s value buffer.length = result at hview ⊢
  obtain ⟨_ | ⟨ret, data⟩, s'⟩ := result
  · exact hview
  · exact hview

theorem writeToMfgStore_region (hw : NoWrap tlv) (hs : Honest tlv.storageImpl view flashEnd)
    (e : Entry) (hvalue : e.type ≠ storeVersion) {s s' : σ} (h : Region tlv (view s) header es)
    (hret : writeToMfgStore build diagnostic bufferSet heap tlv e.type e.data s =
      (some true, s')) :
    Region tlv (view s') header (es ++ [e]) ∧
      tlv.firstOffset + usedBy (es ++ [e]) ≤ tlv.endOffset := by
  unfold writeToMfgStore sidPalMfgStoreWrite at hret
  rw [if_neg hvalue] at hret
  by_cases hdiagnostic : diagnostic = true
  · rw [if_pos hdiagnostic] at hret
    generalize hwrite : tlvWrite tlv s e.type e.data = result at hret
    obtain ⟨_ | ret, s₁⟩ := result
    · cases hret
    simp only at hret
    split at hret
    · cases hret
    next hzero =>
    rw [not_not.1 hzero] at hwrite
    obtain ⟨hregion, hroom⟩ := h.write hs hw e hwrite
    cases hheap : heap e.type with
    | none =>
      rw [hheap] at hret
      cases hret
    | some readBuf =>
      have hview := view_mfgStoreRead build bufferSet hs e.type
        (readBuf.slice 0 e.data.length) s₁
      rw [hheap] at hret
      simp only at hret
      generalize sidPalMfgStoreRead build bufferSet tlv e.type (readBuf.slice 0 e.data.length) s₁ =
        result at hret hview
      obtain ⟨_ | readBuf, s₂⟩ := result
      · cases hret
      cases (Prod.mk.inj hret).2
      rw [hview]
      exact ⟨hregion, hroom⟩
  · rw [if_neg hdiagnostic] at hret
    simp only at hret
    rw [if_pos (by decide)] at hret
    cases hret

theorem writeAll_region (hw : NoWrap tlv) (hs : Honest tlv.storageImpl view flashEnd)
    {es' : List Entry} (hvalues : ∀ e ∈ es', e.type ≠ storeVersion) {s s' : σ}
    (h : Region tlv (view s) header es)
    (hret : writeAll build diagnostic bufferSet heap tlv (es'.map Entry.call) s = (some true, s')) :
    Region tlv (view s') header (es ++ es') := by
  induction es' generalizing es s with
  | nil =>
    cases hret
    rwa [List.append_nil]
  | cons e es' ih =>
    simp only [List.map_cons, Entry.call, writeAll] at hret
    generalize hwrite : writeToMfgStore build diagnostic bufferSet heap tlv e.type e.data s =
      result at hret
    obtain ⟨_ | _ | _, s₁⟩ := result
    · cases hret
    · cases hret
    · have hone := (writeToMfgStore_region hw hs e (hvalues e List.mem_cons_self) h hwrite).1
      have hall := ih (fun e' he' => hvalues e' (List.mem_cons_of_mem _ he')) hone hret
      rwa [List.append_assoc, List.singleton_append] at hall

/-- The erased region, with its header. -/
theorem region_erased {addrStart addrEnd : Nat} {impl : TlvStorage σ}
    (hs : Honest impl view flashEnd) (hend : addrEnd + 65544 ≤ 2 ^ 32) (hlt : addrStart < addrEnd)
    {s s₁ s₂ : σ}
    (herase : sidPalMfgStoreErase diagnostic (tlvFlash impl addrStart addrEnd) s = (some 0, s₁))
    (hversion : sidPalMfgStoreWrite diagnostic (tlvFlash impl addrStart addrEnd) storeVersion
      [0, 0, 0, reportedVersion] s₁ = (some 0, s₂)) :
    Region (tlvFlash impl addrStart addrEnd) (view s₂) mfgHeader [] := by
  obtain ⟨erase, herases, hfill⟩ := hs.erase
  obtain ⟨write, hwrites, hblit⟩ := hs.write
  have hfirst := (@tlvFlash_noWrap σ impl addrStart addrEnd hend hlt).firstOffset_eq
  have hview₁ : view s₁ = (view s).fill addrStart (addrEnd - addrStart) 0xFF := by
    unfold sidPalMfgStoreErase at herase
    split at herase
    · simp only [tlvFlash, herases] at herase
      have hret := hfill s addrStart (addrEnd - addrStart)
        (Option.some.inj (congrArg Prod.fst herase))
      rwa [congrArg Prod.snd herase] at hret
    · cases herase
  have hview₂ : view s₂ = (view s₁).blit addrStart mfgHeader := by
    unfold sidPalMfgStoreWrite tlvWriteStartMarker at hversion
    simp only [tlvFlash, hwrites] at hversion
    have hret := (hblit s₁ addrStart mfgHeader (Option.some.inj (congrArg Prod.fst hversion))).2
    have hsnd : (write s₁ addrStart mfgHeader).2 = s₂ := congrArg Prod.snd hversion
    rwa [hsnd] at hret
  refine ⟨?_, .nil fun a hlow hhigh => ?_, .inl rfl⟩
  · rw [hview₂]
    exact Mem.slice_blit (view s₁) addrStart mfgHeader
  · rw [hfirst] at hlow
    have hstart : addrStart + 8 ≤ a := hlow
    have hstop : a < addrEnd := hhigh
    rw [hview₂, Mem.blit_above (show addrStart + mfgHeader.length ≤ a from hstart), hview₁]
    exact Mem.fill_inside (by omega) (by omega)

end Writes

/-! ## The next boot -/

section Boot

variable {build : Build} {platform : Platform} {addrStart addrEnd : Nat} {f : Flash}
  {es : List Entry}

theorem view_settle {tlv : TlvCtx Flash} (hs : FaultFree tlv.storageImpl Flash.mem) {version : Nat}
    {f f' : Flash} (h : settle build platform version tlv f = (.ready false, f')) :
    f'.mem = f.mem := by
  have hview : (checkFlags build tlv f).2.mem = f.mem := view_checkFlags hs f
  unfold settle at h
  split at h
  · next reason f₁ hcheck =>
    cases h
    split at hcheck
    · exact absurd hcheck checkFlags_ne
    · cases hcheck
  · next needToParse f₁ hcheck =>
    split at h
    · exact absurd (parseMfg_ready h).1 Bool.false_ne_true
    · cases h
      split at hcheck
      · rwa [hcheck] at hview
      · cases hcheck
        rfl

theorem view_finish {tlv : TlvCtx Flash} (hs : FaultFree tlv.storageImpl Flash.mem) (version : Nat)
    (r : InitEnd × Flash) :
    (finish ⟨tlv, version⟩ r).2.2.mem = r.2.mem ∧ (finish ⟨tlv, version⟩ r).2.1.tlv = tlv := by
  obtain ⟨reason, f⟩ := r
  cases reason with
  | ready parsed =>
    have hread := view_tlvRead hs f sidPalMfgStoreSmsn sidSmsnSize
    have htlv : (if parsed = true then
        { (⟨tlv, version⟩ : MfgStore Flash) with sidMfgVersion := reportedVersion.toNat }
        else ⟨tlv, version⟩).tlv = tlv := by
      split
      · rfl
      · rfl
    simp only [finish, readSmsn]
    rw [htlv]
    generalize tlvRead tlv f sidPalMfgStoreSmsn sidSmsnSize = result at hread ⊢
    obtain ⟨_ | smsn, f'⟩ := result
    · exact ⟨hread, htlv⟩
    · exact ⟨hread, htlv⟩
  | _ => exact ⟨rfl, rfl⟩

theorem read_region {addrStart addrEnd : Nat} (hw : NoWrap (tlvFlash Flash.storage addrStart addrEnd))
    {header : List UInt8} (h : Region (tlvFlash Flash.storage addrStart addrEnd) f.mem header es)
    (hroom : addrStart + mfgHeaderSize + usedBy es ≤ addrEnd)
    (hdistinct : (es.map Entry.type).Nodup) {e : Entry} (he : e ∈ es) :
    (tlvLookup (tlvFlash Flash.storage addrStart addrEnd) f e.type).1 = some (0, some e.header) ∧
      (tlvRead (tlvFlash Flash.storage addrStart addrEnd) f e.type e.data.length).1 =
        some (0, e.data) := by
  have hfits : usedBy es ≤ (tlvFlash Flash.storage addrStart addrEnd).capacity := by
    unfold TlvCtx.capacity
    rw [hw.firstOffset_eq]
    change usedBy es ≤ addrEnd - (addrStart + mfgHeaderSize)
    omega
  have hrefines : Refines (tlvFlash Flash.storage addrStart addrEnd) Flash.mem f ⟨es, hfits⟩ :=
    h.stored
  have hlookup := hrefines.lookup Flash.faultFree.toFaultFree hw e.type_ne e.data.length
  have hfirst : (⟨es, hfits⟩ : Log (tlvFlash Flash.storage addrStart addrEnd).capacity).first
      Entry.type e.type = some e := find_type hdistinct he
  rw [hfirst] at hlookup
  refine ⟨hlookup.1, ?_⟩
  have hread := hlookup.2 (Nat.le_refl _)
  rwa [List.take_length] at hread

/-- The flags are the ones of the build. -/
theorem showsFlags_region (hend : addrEnd + 65544 ≤ 2 ^ 32) (hlt : addrStart < addrEnd)
    (h : Region (tlvFlash Flash.storage addrStart addrEnd) f.mem mfgHeader
      (es ++ [flagsEntry build]))
    (hroom : addrStart + mfgHeaderSize + usedBy (es ++ [flagsEntry build]) ≤ addrEnd)
    (hdistinct : ((es ++ [flagsEntry build]).map Entry.type).Nodup) :
    ShowsFlags (fun a => f.mem (addrStart + a)) (copySize addrStart addrEnd)
      build.migratedFlags := by
  have hw := @tlvFlash_noWrap Flash Flash.storage addrStart addrEnd hend hlt
  have hflags := (read_region hw h hroom hdistinct
    (List.mem_append_right es List.mem_cons_self)).2
  have htype : (flagsEntry build).type = mfgFlagsTypeId := rfl
  have hlength : (flagsEntry build).data.length = mfgFlagsSize := rfl
  rw [htype, hlength] at hflags
  refine (read_flags_iff hend hlt fun _ _ => rfl).1 ⟨_, hflags, ?_, ?_⟩
  · change (MfgFlags.ofBytes build.migratedFlags.toBytes).initialized = true
    rw [ofBytes_toBytes]
    rfl
  · change (MfgFlags.ofBytes build.migratedFlags.toBytes).keysInPsa = build.psaKeyStorage
    rw [ofBytes_toBytes]
    rfl

/-- The flags are found, and the boot is over. -/
theorem init_region (platform : Platform) (hend : addrEnd + 65544 ≤ 2 ^ 32)
    (hlt : addrStart < addrEnd) (hheader : f.mem.slice addrStart mfgHeaderSize = mfgHeader)
    (hshows : ShowsFlags (fun a => f.mem (addrStart + a)) (copySize addrStart addrEnd)
      build.migratedFlags) (store : MfgStore Flash) :
    (sidPalMfgStoreInit build platform (some Flash.storage) addrStart addrEnd store
        f).2.2.mem = f.mem ∧
      (sidPalMfgStoreInit build platform (some Flash.storage) addrStart addrEnd store f).2.1.tlv =
        tlvFlash Flash.storage addrStart addrEnd := by
  have hs : FaultFree (tlvFlash Flash.storage addrStart addrEnd).storageImpl Flash.mem :=
    Flash.faultFree.toFaultFree
  simp only [sidPalMfgStoreInit]
  split
  · exact ⟨rfl, rfl⟩
  have hmarker : tlvReadStartMarker (tlvFlash Flash.storage addrStart addrEnd) f mfgHeaderSize =
      (0, mfgHeader, (f.read addrStart mfgHeaderSize).2.2) := by
    rw [← hheader]
    rfl
  have hmagic : ¬((0 : Int) ≠ 0 ∨ mfgHeader.take 4 ≠ mfgHeaderMagic) := by decide
  have hversion : mfgVersion (mfgHeader.drop 4) = 8 := by decide
  simp only [hmarker, hmagic, if_false, hversion]
  obtain ⟨f₁, hsettle, -⟩ := @settle_settled build platform addrStart addrEnd
    (f.read addrStart mfgHeaderSize).2.2 hend hlt _ (fun _ _ => rfl) hshows
  have hmem := view_settle hs hsettle
  rw [hsettle]
  obtain ⟨hview, htlv⟩ := view_finish hs 8 (.ready false, f₁)
  rw [hview, htlv]
  exact ⟨hmem, rfl⟩

end Boot

/-! ## The run of a certification -/

section Run

variable {build : Build} {diagnostic : Bool} {bufferSet : KeyId → Nat → Option (List UInt8)}
  {heap : UInt16 → Option Mem} {impl : TlvStorage σ} {addrStart addrEnd : Nat} {view : σ → Mem}
  {flashEnd : Nat} {ctx : Context}

/-- A certification that succeeds has stored all fields, and the flags behind them. -/
theorem region_of_eraseAndStore (hs : Honest impl view flashEnd)
    (hend : addrEnd + 65544 ≤ 2 ^ 32) (hlt : addrStart < addrEnd) (hctx : ctx.Sized) {s s' : σ}
    (h : eraseAndStore build diagnostic bufferSet heap (tlvFlash impl addrStart addrEnd) ctx s =
      (errorNone, s')) :
    ∃ es : List Entry, es.map Entry.call = storedFields build ctx ∧
      Region (tlvFlash impl addrStart addrEnd) (view s') mfgHeader (es ++ [flagsEntry build]) ∧
      addrStart + mfgHeaderSize + usedBy (es ++ [flagsEntry build]) ≤ addrEnd := by
  have hw := @tlvFlash_noWrap σ impl addrStart addrEnd hend hlt
  have hvalues := (values_distinct build ctx).2
  obtain ⟨es, hes⟩ := storedEntries build hctx
  have hversion (e : Entry) (he : e ∈ es) : e.type ≠ storeVersion := by
    refine (hvalues e.type (List.mem_append_left _ ?_)).2.1
    rw [← hes, List.map_map]
    exact List.mem_map_of_mem he
  obtain ⟨es₁, es₂, rfl, hes₁, hes₂⟩ := List.map_eq_append_iff.1 hes
  unfold eraseAndStore at h
  generalize herase : sidPalMfgStoreErase diagnostic (tlvFlash impl addrStart addrEnd) s = result
    at h
  obtain ⟨_ | ret, s₁⟩ := result
  · cases h
  simp only at h
  split at h
  · cases h
  next hret =>
  rw [not_not.1 hret] at herase
  generalize hwrite : sidPalMfgStoreWrite diagnostic (tlvFlash impl addrStart addrEnd) storeVersion
    [0, 0, 0, reportedVersion] s₁ = result at h
  obtain ⟨_ | ret, s₂⟩ := result
  · cases h
  simp only at h
  split at h
  · cases h
  next hret =>
  rw [not_not.1 hret] at hwrite
  have h₂ := region_erased hs hend hlt herase hwrite
  generalize hdevice : writeAll build diagnostic bufferSet heap (tlvFlash impl addrStart addrEnd)
    (deviceFields build ctx) s₂ = result at h
  obtain ⟨_ | _ | _, s₃⟩ := result
  · cases h
  · cases h
  simp only at h
  rw [← hes₁] at hdevice
  have h₃ := writeAll_region hw hs
    (fun e he => hversion e (List.mem_append_left _ he)) h₂ hdevice
  generalize hchain : writeAll build diagnostic bufferSet heap (tlvFlash impl addrStart addrEnd)
    (chainFields ctx) s₃ = result at h
  obtain ⟨_ | _ | _, s₄⟩ := result
  · cases h
  · cases h
  simp only at h
  rw [← hes₂] at hchain
  have h₄ := writeAll_region hw hs
    (fun e he => hversion e (List.mem_append_right _ he)) h₃ hchain
  generalize hflags : writeToMfgStore build diagnostic bufferSet heap
    (tlvFlash impl addrStart addrEnd) mfgFlagsTypeId build.migratedFlags.toBytes s₄ = result at h
  obtain ⟨_ | _ | _, s₅⟩ := result
  · cases h
  · cases h
  cases (Prod.mk.inj h).2
  obtain ⟨h₅, hroom⟩ := writeToMfgStore_region hw hs (flagsEntry build)
    (show mfgFlagsTypeId ≠ storeVersion by decide) h₄ hflags
  rw [hw.firstOffset_eq] at hroom
  exact ⟨es₁ ++ es₂, hes, h₅, hroom⟩

/-! Whatever fails, the certification returns. -/

variable (build diagnostic bufferSet heap) in
theorem writeToMfgStore_returns {tlv : TlvCtx σ} (hw : NoWrap tlv) (value : UInt16)
    {data : List UInt8} (hlen : data.length < 256) (s : σ) :
    ∃ result s', writeToMfgStore build diagnostic bufferSet heap tlv value data s =
      (some result, s') := by
  have hwrite : ∃ ret s', sidPalMfgStoreWrite diagnostic tlv value data s = (some ret, s') := by
    unfold sidPalMfgStoreWrite
    split
    · split
      · exact ⟨_, _, rfl⟩
      · exact ⟨_, _, rfl⟩
    split
    · exact tlvWrite_returns hw s value (by omega)
    · exact ⟨_, _, rfl⟩
  have hread (buffer : List UInt8) (s : σ) :
      ∃ bytes s', sidPalMfgStoreRead build bufferSet tlv value buffer s = (some bytes, s') := by
    unfold sidPalMfgStoreRead
    split
    · exact ⟨_, _, rfl⟩
    split
    · exact ⟨_, _, rfl⟩
    · obtain ⟨result, s', hresult⟩ := tlvRead_returns hw s value buffer.length
      rw [hresult]
      exact ⟨_, _, rfl⟩
  obtain ⟨ret, s₁, hret⟩ := hwrite
  unfold writeToMfgStore
  simp only [hret]
  split
  · exact ⟨_, _, rfl⟩
  cases heap value with
  | none => exact ⟨_, _, rfl⟩
  | some readBuf =>
    obtain ⟨bytes, s₂, hbytes⟩ := hread (readBuf.slice 0 data.length) s₁
    simp only [hbytes]
    exact ⟨_, _, rfl⟩

variable (build diagnostic bufferSet heap) in
theorem writeAll_returns {tlv : TlvCtx σ} (hw : NoWrap tlv) (fields : List (UInt16 × List UInt8))
    (hlen : ∀ field ∈ fields, field.2.length < 256) (s : σ) :
    ∃ result s', writeAll build diagnostic bufferSet heap tlv fields s = (some result, s') := by
  induction fields generalizing s with
  | nil => exact ⟨_, _, rfl⟩
  | cons field fields ih =>
    obtain ⟨result, s₁, hresult⟩ := writeToMfgStore_returns build diagnostic bufferSet heap hw
      field.1 (hlen field List.mem_cons_self) s
    simp only [writeAll, hresult]
    cases result with
    | false => exact ⟨_, _, rfl⟩
    | true => exact ih (fun field' hfield => hlen field' (List.mem_cons_of_mem _ hfield)) s₁

theorem eraseAndStore_returns (hs : Honest impl view flashEnd) (hend : addrEnd + 65544 ≤ 2 ^ 32)
    (hlt : addrStart < addrEnd) (hctx : ctx.Sized) (s : σ) :
    (eraseAndStore build diagnostic bufferSet heap (tlvFlash impl addrStart addrEnd) ctx s).1 ≠
      stillRunning := by
  have hw := @tlvFlash_noWrap σ impl addrStart addrEnd hend hlt
  have hlen (field : UInt16 × List UInt8) (hfield : field ∈ storedFields build ctx) :
      field.2.length < 256 := (storedFields_short build hctx field hfield).2
  have herase : ∃ ret s', sidPalMfgStoreErase diagnostic (tlvFlash impl addrStart addrEnd) s =
      (some ret, s') := by
    obtain ⟨erase, herase, -⟩ := hs.erase
    unfold sidPalMfgStoreErase
    simp only [tlvFlash, herase]
    split
    · exact ⟨_, _, rfl⟩
    · exact ⟨_, _, rfl⟩
  have hversion (s : σ) : ∃ ret s', sidPalMfgStoreWrite diagnostic (tlvFlash impl addrStart addrEnd)
      storeVersion [0, 0, 0, reportedVersion] s = (some ret, s') := ⟨_, _, rfl⟩
  have hfail : errorStorageEraseFail ≠ stillRunning ∧ errorNosupport ≠ stillRunning ∧
      errorStorageWriteFail ≠ stillRunning ∧ errorNone ≠ stillRunning := by decide
  obtain ⟨ret, s₁, hret⟩ := herase
  unfold eraseAndStore
  simp only [hret]
  split
  · exact hfail.1
  obtain ⟨ret', s₂, hret'⟩ := hversion s₁
  simp only [hret']
  split
  · exact hfail.2.1
  obtain ⟨device, s₃, hdevice⟩ := writeAll_returns build diagnostic bufferSet heap hw
    (deviceFields build ctx)
    (fun field hfield => hlen field (List.mem_append_left _ hfield)) s₂
  simp only [hdevice]
  cases device with
  | false => exact hfail.2.2.1
  | true =>
    obtain ⟨chain, s₄, hchain⟩ := writeAll_returns build diagnostic bufferSet heap hw
      (chainFields ctx)
      (fun field hfield => hlen field (List.mem_append_right _ hfield)) s₃
    simp only [hchain]
    cases chain with
    | false => exact hfail.2.2.1
    | true =>
      obtain ⟨flags, s₅, hflags⟩ := writeToMfgStore_returns build diagnostic bufferSet heap hw
        mfgFlagsTypeId
        (show build.migratedFlags.toBytes.length < 256 from (flagsEntry build).short) s₄
      simp only [hflags]
      cases flags with
      | false => exact hfail.2.2.1
      | true => exact hfail.2.2.2

end Run

/-! ## Without failures -/

section Sound

variable {build : Build} {bufferSet : KeyId → Nat → Option (List UInt8)} {heap : UInt16 → Option Mem}
  {tlv : TlvCtx σ} {view : σ → Mem} {flashEnd : Nat} {header : List UInt8} {es : List Entry}

theorem writeToMfgStore_sound (build : Build) (bufferSet : KeyId → Nat → Option (List UInt8))
    (hw : NoWrap tlv) (hs : Sound tlv.storageImpl view flashEnd)
    (hflash : tlv.endOffset ≤ flashEnd) (hheap : ∀ value, (heap value).isSome = true) (e : Entry)
    (hvalue : e.type ≠ storeVersion) (hkey : build.keyIdOf e.type = none)
    (hnew : ∀ e' ∈ es, e'.type ≠ e.type) {s : σ} (h : Region tlv (view s) header es)
    (hroom : tlv.firstOffset + usedBy es + e.size ≤ tlv.endOffset) :
    ∃ s', writeToMfgStore build true bufferSet heap tlv e.type e.data s = (some true, s') := by
  obtain ⟨s₁, hwrite⟩ := h.write_sound hs hw hflash e hroom
  obtain ⟨readBuf, hreadBuf⟩ := Option.isSome_iff_exists.1 (hheap e.type)
  have hfind : (es ++ [e]).find? (·.type = e.type) = some e := by
    have hnone : es.find? (·.type = e.type) = none :=
      List.find?_eq_none.2 fun e' he' => by simpa using hnew e' he'
    rw [List.find?_append, hnone, Option.none_or, List.find?_cons_of_pos (by simp)]
  have hread := (h.write hs.toHonest hw e hwrite).1.read_sound hs hw hfind
  unfold writeToMfgStore sidPalMfgStoreWrite sidPalMfgStoreRead
  rw [if_neg hvalue, if_pos rfl, hwrite]
  simp only [hreadBuf, hkey]
  rw [if_neg hvalue, Mem.length_slice]
  generalize tlvRead tlv s₁ e.type e.data.length = result at hread ⊢
  obtain ⟨_, s₂⟩ := result
  cases hread
  refine ⟨s₂, ?_⟩
  simp

theorem writeAll_sound (build : Build) (bufferSet : KeyId → Nat → Option (List UInt8))
    (hw : NoWrap tlv) (hs : Sound tlv.storageImpl view flashEnd)
    (hflash : tlv.endOffset ≤ flashEnd) (hheap : ∀ value, (heap value).isSome = true)
    {es' : List Entry} (hvalues : ∀ e ∈ es', e.type ≠ storeVersion ∧ build.keyIdOf e.type = none)
    (hdistinct : ((es ++ es').map Entry.type).Nodup) {s : σ} (h : Region tlv (view s) header es)
    (hroom : tlv.firstOffset + usedBy (es ++ es') ≤ tlv.endOffset) :
    ∃ s', writeAll build true bufferSet heap tlv (es'.map Entry.call) s = (some true, s') := by
  induction es' generalizing es s with
  | nil => exact ⟨s, rfl⟩
  | cons e es' ih =>
    obtain ⟨hvalue, hkey⟩ := hvalues e List.mem_cons_self
    have hnew (e' : Entry) (he' : e' ∈ es) : e'.type ≠ e.type := by
      rw [List.map_append, List.nodup_append] at hdistinct
      exact hdistinct.2.2 _ (List.mem_map_of_mem he') _ (List.mem_map_of_mem List.mem_cons_self)
    have hone : tlv.firstOffset + usedBy es + e.size ≤ tlv.endOffset := by
      rw [usedBy_append, usedBy_cons] at hroom
      omega
    obtain ⟨s₁, hwrite⟩ := writeToMfgStore_sound build bufferSet hw hs hflash hheap e hvalue
      hkey hnew h hone
    have hregion := (writeToMfgStore_region hw hs.toHonest e hvalue h hwrite).1
    rw [← List.singleton_append, ← List.append_assoc] at hdistinct hroom
    simp only [List.map_cons, Entry.call, writeAll, hwrite]
    exact ih (fun e' he' => hvalues e' (List.mem_cons_of_mem _ he')) hdistinct hregion hroom

/-- A certification without failures succeeds if the fields fit. -/
theorem eraseAndStore_sound {impl : TlvStorage σ} {addrStart addrEnd : Nat}
    (hs : Sound impl view flashEnd) (hend : addrEnd + 65544 ≤ 2 ^ 32) (hlt : addrStart < addrEnd)
    (hflash : addrEnd ≤ flashEnd) (hheap : ∀ value, (heap value).isSome = true) {ctx : Context}
    (hctx : ctx.Sized) (hneeded : neededSize build ctx ≤ addrEnd - addrStart) (s : σ) :
    (eraseAndStore build true bufferSet heap (tlvFlash impl addrStart addrEnd) ctx s).1 =
      errorNone := by
  have hw := @tlvFlash_noWrap σ impl addrStart addrEnd hend hlt
  have hfirst : (tlvFlash impl addrStart addrEnd).firstOffset = addrStart + mfgHeaderSize :=
    hw.firstOffset_eq
  obtain ⟨es, hes⟩ := storedEntries build hctx
  have hroom : addrStart + mfgHeaderSize + usedBy (es ++ [flagsEntry build]) ≤ addrEnd := by
    rw [← usedBy_storedFields hes] at hneeded
    omega
  obtain ⟨hnodup, hvalues⟩ := values_distinct build ctx
  rw [← hes, List.map_map] at hnodup hvalues
  have hdistinct : ((es ++ [flagsEntry build]).map Entry.type).Nodup := by
    rw [List.map_append]
    exact hnodup
  have hvalue (e : Entry) (he : e ∈ es) : e.type ≠ storeVersion ∧ build.keyIdOf e.type = none :=
    (hvalues e.type (List.mem_append_left _ (List.mem_map_of_mem he))).2
  obtain ⟨es₁, es₂, rfl, hes₁, hes₂⟩ := List.map_eq_append_iff.1 hes
  obtain ⟨erase, herase, -⟩ := hs.erase
  obtain ⟨write, hwrite, -⟩ := hs.write
  have herased : sidPalMfgStoreErase true (tlvFlash impl addrStart addrEnd) s =
      (some 0, (erase s addrStart (addrEnd - addrStart)).2) := by
    unfold sidPalMfgStoreErase
    simp only [tlvFlash, herase, if_true]
    rw [hs.erases erase herase]
  have hversion (s : σ) : sidPalMfgStoreWrite true (tlvFlash impl addrStart addrEnd) storeVersion
      [0, 0, 0, reportedVersion] s = (some 0, (write s addrStart mfgHeader).2) := by
    have hinside : addrStart + mfgHeader.length ≤ flashEnd :=
      Nat.le_trans (Nat.le_trans (Nat.le_add_right _ _) hroom) hflash
    have hzero := hs.writes write hwrite s addrStart mfgHeader hinside
    have hmarker : tlvWriteStartMarker (tlvFlash impl addrStart addrEnd) s mfgHeader =
        write s addrStart mfgHeader := by
      unfold tlvWriteStartMarker
      simp only [tlvFlash, hwrite]
      exact if_neg (by decide)
    have hmarks : sidPalMfgStoreWrite true (tlvFlash impl addrStart addrEnd) storeVersion
        [0, 0, 0, reportedVersion] s =
          (some (tlvWriteStartMarker (tlvFlash impl addrStart addrEnd) s mfgHeader).1,
            (tlvWriteStartMarker (tlvFlash impl addrStart addrEnd) s mfgHeader).2) := rfl
    rw [hmarks, hmarker]
    exact Prod.ext (congrArg some hzero) rfl
  -- the fields before the last ones have room, and tags of their own
  have hroom₂ : addrStart + mfgHeaderSize + usedBy (es₁ ++ es₂) ≤ addrEnd := by
    rw [usedBy_append] at hroom
    omega
  have hroom₁ : addrStart + mfgHeaderSize + usedBy es₁ ≤ addrEnd := by
    rw [usedBy_append] at hroom₂
    omega
  have hdistinct₂ : ((es₁ ++ es₂).map Entry.type).Nodup := by
    rw [List.map_append] at hdistinct
    exact (List.nodup_append.1 hdistinct).1
  have hdistinct₁ : (([] ++ es₁ : List Entry).map Entry.type).Nodup := by
    rw [List.map_append] at hdistinct₂
    exact (List.nodup_append.1 hdistinct₂).1
  have h₀ := region_erased hs.toHonest hend hlt herased (hversion _)
  obtain ⟨s₁, hdevice⟩ := writeAll_sound build bufferSet hw hs hflash hheap
    (fun e he => hvalue e (List.mem_append_left _ he)) hdistinct₁ h₀
    (by rw [hfirst]; exact hroom₁)
  have h₁ := writeAll_region hw hs.toHonest
    (fun e he => (hvalue e (List.mem_append_left _ he)).1) h₀ hdevice
  obtain ⟨s₂, hchain⟩ := writeAll_sound build bufferSet hw hs hflash hheap
    (fun e he => hvalue e (List.mem_append_right _ he)) hdistinct₂ h₁
    (by rw [hfirst]; exact hroom₂)
  have h₂ := writeAll_region hw hs.toHonest
    (fun e he => (hvalue e (List.mem_append_right _ he)).1) h₁ hchain
  have hnew (e : Entry) (he : e ∈ es₁ ++ es₂) : e.type ≠ (flagsEntry build).type := by
    rw [List.map_append, List.nodup_append] at hdistinct
    exact hdistinct.2.2 _ (List.mem_map_of_mem he) _ (List.mem_map_of_mem List.mem_cons_self)
  obtain ⟨s₃, hflags⟩ := writeToMfgStore_sound build bufferSet hw hs hflash hheap (flagsEntry build)
    (show mfgFlagsTypeId ≠ storeVersion by decide)
    (hvalues mfgFlagsTypeId (List.mem_append_right _ List.mem_cons_self)).2.2 hnew h₂ (by
      rw [usedBy_append, usedBy_cons, usedBy_nil] at hroom
      rw [hfirst]
      change addrStart + mfgHeaderSize + usedBy (es₁ ++ es₂) + (flagsEntry build).size ≤ addrEnd
      omega)
  rw [hes₁] at hdevice
  rw [hes₂] at hchain
  have hzero : ¬(0 : Int) ≠ 0 := not_not.2 rfl
  unfold eraseAndStore
  simp only [herased, hversion, if_neg hzero, hdevice, hchain]
  have hflags : writeToMfgStore build true bufferSet heap (tlvFlash impl addrStart addrEnd)
      mfgFlagsTypeId build.migratedFlags.toBytes s₂ = (some true, s₃) := hflags
  rw [hflags]

end Sound

/-! ## Certified and booted -/

/-- A boot of the flash erases and writes nothing, and every field of the context is read back, and
its length. -/
def Boots (build : Build) (addrStart addrEnd : Nat) (m : Mem) (ctx : Context) : Prop :=
  ∀ f : Flash, f.mem = m → ∀ platform store bufferSet,
    let booted := sidPalMfgStoreInit build platform (some Flash.storage) addrStart addrEnd store f
    booted.2.2.changes = f.changes ∧ ∀ field ∈ storedFields build ctx,
      (∀ buffer : List UInt8, buffer.length = field.2.length →
        (sidPalMfgStoreRead build bufferSet booted.2.1.tlv field.1 buffer booted.2.2).1 =
          some field.2) ∧
      (sidPalMfgStoreGetLengthForValue booted.2.1.tlv field.1 booted.2.2).1 =
        some field.2.length

theorem boots_of_region {build : Build} {addrStart addrEnd : Nat} {m : Mem} {ctx : Context}
    (hend : addrEnd + 65544 ≤ 2 ^ 32) (hlt : addrStart < addrEnd) {es : List Entry}
    (hes : es.map Entry.call = storedFields build ctx)
    (h : Region (tlvFlash Flash.storage addrStart addrEnd) m mfgHeader (es ++ [flagsEntry build]))
    (hroom : addrStart + mfgHeaderSize + usedBy (es ++ [flagsEntry build]) ≤ addrEnd) :
    Boots build addrStart addrEnd m ctx := by
  rintro f rfl platform store bufferSet
  have hw := @tlvFlash_noWrap Flash Flash.storage addrStart addrEnd hend hlt
  obtain ⟨hnodup, hvalues⟩ := values_distinct build ctx
  rw [← hes, List.map_map] at hnodup hvalues
  have hdistinct : ((es ++ [flagsEntry build]).map Entry.type).Nodup := by
    rw [List.map_append]
    exact hnodup
  have hshows := showsFlags_region hend hlt h hroom hdistinct
  obtain ⟨hmem, htlv⟩ := init_region platform hend hlt h.header hshows store
  refine ⟨init_settled hend hlt (fun _ _ => rfl) h.header hshows, fun field hfield => ?_⟩
  rw [← hes] at hfield
  obtain ⟨e, he, rfl⟩ := List.mem_map.1 hfield
  rw [htlv]
  generalize (sidPalMfgStoreInit build platform (some Flash.storage) addrStart addrEnd store
    f).2.2 = f' at hmem ⊢
  rw [← hmem] at h
  obtain ⟨hlookup, hread⟩ := read_region hw h hroom hdistinct (List.mem_append_left _ he)
  obtain ⟨-, hversion, hkey⟩ := hvalues e.type
    (List.mem_append_left _ (List.mem_map_of_mem he))
  refine ⟨fun buffer hbuffer => ?_, ?_⟩
  · change buffer.length = e.data.length at hbuffer
    change (sidPalMfgStoreRead build bufferSet _ e.type buffer f').1 = some e.data
    unfold sidPalMfgStoreRead
    simp only [hkey]
    rw [if_neg hversion, hbuffer]
    generalize tlvRead (tlvFlash Flash.storage addrStart addrEnd) f' e.type e.data.length = result
      at hread ⊢
    obtain ⟨_, f''⟩ := result
    cases hread
    simp only
    rw [← hbuffer, List.drop_length, List.append_nil]
  · change (sidPalMfgStoreGetLengthForValue _ e.type f').1 = some e.data.length
    unfold sidPalMfgStoreGetLengthForValue
    generalize tlvLookup (tlvFlash Flash.storage addrStart addrEnd) f' e.type = result
      at hlookup ⊢
    obtain ⟨_, f''⟩ := result
    cases hlookup
    exact congrArg some e.dataSize_header

section Certified

variable {impl : TlvStorage σ} {view : σ → Mem} {flashEnd addrStart addrEnd : Nat}

/-- A certification always returns; when it reports success, the next boot finds a settled store
with all the fields; and it reports an error when they do not fit. -/
theorem stored_boots (hs : Honest impl view flashEnd) (hend : addrEnd + 65544 ≤ 2 ^ 32)
    (hlt : addrStart < addrEnd) (build : Build) (diagnostic : Bool)
    (bufferSet : KeyId → Nat → Option (List UInt8)) (heap : UInt16 → Option Mem)
    (dsa : Algo → List UInt8 → List UInt8 → List UInt8 → Bool) (ctx : Context)
    (hctx : ctx.Sized) (s : σ) :
    let result := verifyAndStore dsa
      (eraseAndStore build diagnostic bufferSet heap (tlvFlash impl addrStart addrEnd))
      (some ctx) s
    result.1 ≠ stillRunning ∧
      (result.1 = errorNone → Boots build addrStart addrEnd (view result.2) ctx) ∧
      (addrEnd - addrStart < neededSize build ctx → result.1 ≠ errorNone) := by
  intro result
  have hcases : result.1 = errorInvalidState ∨ result.1 = errorGeneric ∨
      result = eraseAndStore build diagnostic bufferSet heap (tlvFlash impl addrStart addrEnd)
        ctx s := by
    unfold result verifyAndStore
    simp only
    split
    · exact .inl rfl
    split
    · exact .inr (.inl rfl)
    · exact .inr (.inr rfl)
  have hcodes : errorInvalidState ≠ errorNone ∧ errorInvalidState ≠ stillRunning ∧
      errorGeneric ≠ errorNone ∧ errorGeneric ≠ stillRunning := by decide
  rcases hcases with hstate | hgeneric | herase
  · rw [hstate]
    exact ⟨hcodes.2.1, fun h => absurd h hcodes.1, fun _ => hcodes.1⟩
  · rw [hgeneric]
    exact ⟨hcodes.2.2.2, fun h => absurd h hcodes.2.2.1, fun _ => hcodes.2.2.1⟩
  · have hregion (hnone : result.1 = errorNone) :=
      region_of_eraseAndStore hs hend hlt hctx (herase.symm.trans (Prod.ext hnone rfl))
    refine ⟨?_, fun hnone => ?_, fun hsmall hnone => ?_⟩
    · rw [herase]
      exact eraseAndStore_returns hs hend hlt hctx s
    · obtain ⟨es, hes, h, hroom⟩ := hregion hnone
      exact boots_of_region hend hlt hes ⟨h.header, h.stored, h.room⟩ hroom
    · obtain ⟨es, hes, -, hroom⟩ := hregion hnone
      rw [← usedBy_storedFields hes] at hsmall
      omega

end Certified

/-! ## A certified device -/

/-- A flash of 64 KiB. -/
def smallFlash : TlvStorage Flash where
  read := some Flash.read
  write := some fun f o bs => if o + bs.length ≤ 65536 then f.write o bs else (-einval, f)
  erase := some Flash.erase

theorem smallFlash_sound : Sound smallFlash Flash.mem 65536 where
  end_le := by decide
  read := ⟨_, rfl, fun _ _ _ => ⟨rfl, fun _ => rfl, show -4096 < (0 : Int) by decide,
    Int.le_refl _⟩⟩
  write := by
    refine ⟨_, rfl, fun f o bs h => ?_⟩
    by_cases hinside : o + bs.length ≤ 65536
    · rw [if_pos hinside]
      exact ⟨hinside, rfl⟩
    · rw [if_neg hinside] at h
      exact absurd h (show -einval ≠ 0 by decide)
  erase := ⟨_, rfl, fun _ _ _ _ => rfl⟩
  reads := by
    rintro read ⟨⟩ f o n
    rfl
  writes := by
    rintro write ⟨⟩ f o bs hinside
    exact congrArg Prod.fst (if_pos hinside)
  erases := by
    rintro erase ⟨⟩ f o n
    rfl

/-- A context with all flags, whose serials have every length from the shortest on. -/
def certifiedCtx : Context where
  state _ := true
  smsn := List.replicate 32 1
  apid := [2, 3, 4, 5]
  appKey := List.replicate 32 6
  fields algo := ⟨List.replicate 32 7, List.replicate algo.pukSize 8, List.replicate 64 9,
    fun i => ⟨List.replicate algo.pukSize 10, List.replicate 64 11, 4 + 25 * i % 126,
      List.replicate 129 12, 0⟩⟩
  behind := 0

theorem certifiedCtx_sized : certifiedCtx.Sized where
  smsn := rfl
  apid := rfl
  appKey := rfl
  prk _ := rfl
  puk _ := List.length_replicate
  sig _ := rfl
  certs algo i _ := ⟨List.length_replicate, rfl, rfl, Nat.le_add_right _ _, by
    have hmod := Nat.mod_lt (25 * i) (by decide : 0 < 126)
    change 4 + 25 * i % 126 ≤ 129
    omega⟩

/-- The certification of that context on an erased flash whose store starts at 4096. -/
def certify (addrEnd : Nat) : Int × Flash :=
  verifyAndStore (fun _ _ _ _ => true)
    (eraseAndStore defaultBuild true (fun _ _ => none) (fun _ => some fun _ => 0)
      (tlvFlash smallFlash 4096 addrEnd)) (some certifiedCtx) ⟨fun _ => 0xFF, []⟩

/-- It succeeds with a store of 4 KiB, and the next boot finds the fields; 1 KiB is too small. -/
theorem stored_boots_certified :
    (certify 8192).1 = errorNone ∧
      Boots defaultBuild 4096 8192 (certify 8192).2.mem certifiedCtx ∧
      (certify 5120).1 ≠ errorNone := by
  have hneeded : neededSize defaultBuild certifiedCtx = 1848 := by decide +kernel
  have hfull : certifiedCtx.Full := ⟨rfl, rfl, fun _ _ => ⟨rfl, rfl⟩⟩
  have hverified : verifyChains (fun _ _ _ _ => true) certifiedCtx = true := rfl
  -- stated for every end, so that no step evaluates the run
  have hsuccess (addrEnd : Nat) (hend : addrEnd ≤ 65536) (hroom : 4096 + 1848 ≤ addrEnd) :
      (certify addrEnd).1 = errorNone := by
    unfold certify verifyAndStore
    simp only [hfull, not_true_eq_false, if_false, hverified, Bool.true_eq_false]
    exact eraseAndStore_sound smallFlash_sound (by omega) (by omega) (by omega) (fun _ => rfl)
      certifiedCtx_sized (by omega) _
  have hboots (addrEnd : Nat) (hend : addrEnd + 65544 ≤ 2 ^ 32) (hlt : 4096 < addrEnd) :
      (certify addrEnd).1 ≠ stillRunning ∧
        ((certify addrEnd).1 = errorNone →
          Boots defaultBuild 4096 addrEnd (certify addrEnd).2.mem certifiedCtx) ∧
        (addrEnd - 4096 < neededSize defaultBuild certifiedCtx →
          (certify addrEnd).1 ≠ errorNone) :=
    stored_boots smallFlash_sound.toHonest hend hlt defaultBuild true (fun _ _ => none)
      (fun _ => some fun _ => 0) (fun _ _ _ _ => true) certifiedCtx certifiedCtx_sized
      ⟨fun _ => 0xFF, []⟩
  have hlarge := hsuccess 8192 (by omega) (by omega)
  exact ⟨hlarge, (hboots 8192 (by omega) (by omega)).2.1 hlarge,
    (hboots 5120 (by omega) (by omega)).2.2 (by omega)⟩

end Sidewalk.Cert
