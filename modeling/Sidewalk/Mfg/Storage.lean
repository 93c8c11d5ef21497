import Sidewalk.Mfg.Image

/-!
# The boot decision

`sid_pal_mfg_store_init` of `sid_mfg_storage.c`: it reads the header and, where the version is
that of the TLV format, the flags, and runs a parser if the data has to be migrated. The flash
protection behind it is not modelled; the final read of the SMSN is, its text in the log is not.
`init_steps` takes a call that comes to its end apart, and `init_parsed` says what one that has
parsed the data has left behind.
-/

namespace Sidewalk.Mfg

open Sidewalk.Lib Sidewalk.Tlv

variable {σ : Type}

/-- The static variables of the module. -/
structure MfgStore (σ : Type) where
  tlv : TlvCtx σ
  sidMfgVersion : Nat

/-- `INVALID_VERSION`. -/
def invalidVersion : Nat := 0xFFFFFFFF

/-- The variables before the first call. -/
def MfgStore.initial : MfgStore σ where
  tlv :=
    { storageImpl := { write := none, erase := none, read := none }
      startOffset := 0
      endOffset := 0
      tlvStorageStartMarkerSize := 0 }
  sidMfgVersion := invalidVersion

/-- Where a call ends. -/
inductive InitEnd
  | noFlash
  | cryptoKeysFailed
  | noHeader
  | flagsUnreadable
  | noSecureStorage
  | incompatibleVersion
  | parseFailed (err : Int)
  | ready (parsed : Bool)
  | undefined
  | running
  deriving DecidableEq, Repr

/-- A check either ends the call or says whether the data has to be parsed. -/
inductive Check
  | exit (reason : InitEnd)
  | goOn (needToParse : Bool)
  deriving DecidableEq, Repr

def sidPalMfgStoreSmsn : UInt16 := 4

def sidSmsnSize : Nat := 32

/-- The version in `raw_version`. -/
def mfgVersion (rawVersion : List UInt8) : Nat :=
  (rawVersion.getD 3 0).toNat + (rawVersion.getD 2 0).toNat * 2 ^ 8 +
    (rawVersion.getD 1 0).toNat * 2 ^ 16 + (rawVersion.getD 0 0).toNat * 2 ^ 24

section

variable (build : Build) (platform : Platform)

/-- What `tlv_read` of the flags returned decides. -/
def checkReadFlags (err : Int) (data : List UInt8) : Check :=
  let flags := MfgFlags.ofBytes data
  if err ≠ 0 ∧ err ≠ -enodata then .exit .flagsUnreadable
  else if build.psaKeyStorage = false ∧ flags.keysInPsa = true then .exit .noSecureStorage
  else
    .goOn (err = -enodata ∨ flags.initialized = false ∨
      (build.psaKeyStorage = true ∧ flags.keysInPsa = false))

/-- The check of the flags for a partition with the version of the TLV format. -/
def checkFlags (tlv : TlvCtx σ) (s : σ) : Check × σ :=
  match tlvRead tlv s mfgFlagsTypeId mfgFlagsSize with
  | (none, s) => (.exit .running, s)
  | (some (err, data), s) => (checkReadFlags build err data, s)

/-- The `switch` over the version. -/
def parseMfg (sidMfgVersion : Nat) (tlv : TlvCtx σ) (s : σ) : InitEnd × σ :=
  if sidMfgVersion = 8 then
    match parseMfgRawTlv build platform tlv s with
    | (.ret err, s) => if err ≠ 0 then (.parseFailed err, s) else (.ready true, s)
    | (.undefined, s) => (.undefined, s)
    | (.running, s) => (.running, s)
  else if build.supportHexV7 = true ∧
      (1 ≤ sidMfgVersion ∧ sidMfgVersion ≤ 7 ∨ sidMfgVersion = 0x01000000) then
    match parseMfgConstOffsets build platform tlv s with
    | (.ret err, s) => if err ≠ 0 then (.parseFailed err, s) else (.ready true, s)
    | (.undefined, s) => (.undefined, s)
    | (.running, s) => (.running, s)
  else (.incompatibleVersion, s)

/-- What follows the header: the check of the flags and the parsing. -/
def settle (sidMfgVersion : Nat) (tlv : TlvCtx σ) (s : σ) : InitEnd × σ :=
  match if sidMfgVersion = reportedVersion.toNat then checkFlags build tlv s
    else (.goOn true, s) with
  | (.exit reason, s) => (reason, s)
  | (.goOn needToParse, s) =>
    if needToParse = true then parseMfg build platform sidMfgVersion tlv s else (.ready false, s)

/-- The read of the SMSN at the end. No key is read under its tag from the secure storage. -/
def readSmsn (tlv : TlvCtx σ) (s : σ) : Option (Int × List UInt8) × σ :=
  tlvRead tlv s sidPalMfgStoreSmsn sidSmsnSize

/-- What follows the parsing: a partition that is ready has its SMSN read. -/
def finish (store : MfgStore σ) : InitEnd × σ → InitEnd × MfgStore σ × σ
  | (.ready parsed, s) =>
    let store := if parsed = true then { store with sidMfgVersion := reportedVersion.toNat }
      else store
    match readSmsn store.tlv s with
    | (none, s) => (.running, store, s)
    | (some _, s) => (.ready parsed, store, s)
  | (reason, s) => (reason, store, s)

/-- `sid_pal_mfg_store_init`; without a flash device the handlers are missing. -/
def sidPalMfgStoreInit (flashDev : Option (TlvStorage σ)) (addrStart addrEnd : Nat)
    (store : MfgStore σ) (s : σ) : InitEnd × MfgStore σ × σ :=
  match flashDev with
  | none => (.noFlash, store, s)
  | some storageImpl =>
    let store := { store with tlv := tlvFlash storageImpl addrStart addrEnd }
    if build.psaKeyStorage = true ∧ platform.cryptoKeysInit ≠ 0 then (.cryptoKeysFailed, store, s)
    else
      match tlvReadStartMarker store.tlv s mfgHeaderSize with
      | (err, header, s) =>
        if err ≠ 0 ∨ header.take 4 ≠ mfgHeaderMagic then (.noHeader, store, s)
        else
          let store := { store with sidMfgVersion := mfgVersion (header.drop 4) }
          finish store (settle build platform store.sidMfgVersion store.tlv s)

end

/-! ## What a call has done -/

section Ready

variable {build : Build} {platform : Platform} {tlv : TlvCtx σ} {s s' : σ}

theorem parseMfg_ready {version : Nat} {parsed : Bool}
    (h : parseMfg build platform version tlv s = (.ready parsed, s')) :
    parsed = true ∧ ((version = 8 ∧ parseMfgRawTlv build platform tlv s = (.ret 0, s')) ∨
      (version ≠ 8 ∧ parseMfgConstOffsets build platform tlv s = (.ret 0, s'))) := by
  unfold parseMfg at h
  split at h
  · next hv =>
    split at h
    · next err s₁ hparse =>
      split at h
      · cases h
      · next herr =>
        cases h
        exact ⟨rfl, .inl ⟨hv, by rw [hparse, not_not.mp herr]⟩⟩
    · cases h
    · cases h
  · next hv =>
    split at h
    · split at h
      · next err s₁ hparse =>
        split at h
        · cases h
        · next herr =>
          cases h
          exact ⟨rfl, .inr ⟨hv, by rw [hparse, not_not.mp herr]⟩⟩
      · cases h
      · cases h
    · cases h

theorem finish_ready {reason : InitEnd} {store store' : MfgStore σ} {parsed : Bool}
    (h : finish store (reason, s) = (.ready parsed, store', s')) :
    reason = .ready parsed ∧ store'.tlv = store.tlv ∧
      ∃ smsn, readSmsn store.tlv s = (some smsn, s') := by
  cases reason with
  | ready parsed' =>
    have htlv : (if parsed' = true then { store with sidMfgVersion := reportedVersion.toNat }
        else store).tlv = store.tlv := by
      split
      · rfl
      · rfl
    simp only [finish] at h
    rw [htlv] at h
    split at h
    · cases h
    · next smsn s₁ hsmsn =>
      cases h
      exact ⟨rfl, htlv, smsn, hsmsn⟩
  | _ => cases h

theorem checkReadFlags_ne {err : Int} {data : List UInt8} {parsed : Bool} :
    checkReadFlags build err data ≠ .exit (.ready parsed) := by
  unfold checkReadFlags
  intro h
  dsimp only at h
  split at h
  · cases h
  · split at h
    · cases h
    · cases h

theorem checkFlags_ne {parsed : Bool} :
    checkFlags build tlv s ≠ (.exit (.ready parsed), s') := by
  unfold checkFlags
  intro h
  split at h
  · cases h
  · exact checkReadFlags_ne (Prod.mk.inj h).1

/-- A call that has parsed the data came to the parser through at most the read of the flags. -/
theorem settle_parsed {version : Nat} (h : settle build platform version tlv s = (.ready true, s')) :
    ∃ s₁, (s₁ = s ∨ s₁ = (checkFlags build tlv s).2) ∧
      parseMfg build platform version tlv s₁ = (.ready true, s') := by
  unfold settle at h
  split at h
  · next reason s₁ hcheck =>
    cases h
    split at hcheck
    · exact absurd hcheck checkFlags_ne
    · cases hcheck
  · next needToParse s₁ hcheck =>
    split at h
    · refine ⟨s₁, ?_, h⟩
      split at hcheck
      · exact .inr (by rw [hcheck])
      · cases hcheck
        exact .inl rfl
    · cases h

/-- The steps of a call that comes to its end. -/
theorem init_steps {storageImpl : TlvStorage σ} {addrStart addrEnd : Nat} {store store' : MfgStore σ}
    {parsed : Bool}
    (h : sidPalMfgStoreInit build platform (some storageImpl) addrStart addrEnd store s =
      (.ready parsed, store', s')) :
    store'.tlv = tlvFlash storageImpl addrStart addrEnd ∧ ∃ header s₁ s₂,
      tlvReadStartMarker (tlvFlash storageImpl addrStart addrEnd) s mfgHeaderSize =
        (0, header, s₁) ∧
      header.take 4 = mfgHeaderMagic ∧
      settle build platform (mfgVersion (header.drop 4))
        (tlvFlash storageImpl addrStart addrEnd) s₁ = (.ready parsed, s₂) ∧
      ∃ smsn, readSmsn (tlvFlash storageImpl addrStart addrEnd) s₂ = (some smsn, s') := by
  rcases hmarker : tlvReadStartMarker (tlvFlash storageImpl addrStart addrEnd) s mfgHeaderSize with
    ⟨err, header, s₁⟩
  simp only [sidPalMfgStoreInit, hmarker] at h
  split at h
  · cases h
  · split at h
    · cases h
    · next hheader =>
      rw [not_or, not_not, not_not] at hheader
      obtain ⟨rfl, hmagic⟩ := hheader
      rcases hsettle : settle build platform (mfgVersion (header.drop 4))
        (tlvFlash storageImpl addrStart addrEnd) s₁ with ⟨reason, s₂⟩
      rw [hsettle] at h
      obtain ⟨rfl, htlv, smsn, hsmsn⟩ := finish_ready h
      exact ⟨htlv, header, s₁, s₂, rfl, hmagic, hsettle, smsn, hsmsn⟩

end Ready

/-! ## Storage without faults -/

section FaultFree

variable {build : Build} {platform : Platform} {storageImpl : TlvStorage σ} {view : σ → Mem}
  {addrStart addrEnd : Nat} {store store' : MfgStore σ} {s s' : σ}

theorem tlvFlash_noWrap (hend : addrEnd + 65544 ≤ 2 ^ 32) (hlt : addrStart < addrEnd) :
    NoWrap (tlvFlash storageImpl addrStart addrEnd) where
  first := by
    change addrStart + mfgHeaderSize + 514 < 2 ^ 32
    unfold mfgHeaderSize
    omega
  last := by
    change addrEnd + 514 < 2 ^ 32
    omega

theorem readStartMarker_eq (hs : FaultFree storageImpl view) (s : σ) :
    ∃ s', tlvReadStartMarker (tlvFlash storageImpl addrStart addrEnd) s mfgHeaderSize =
      (0, (view s).slice addrStart mfgHeaderSize, s') ∧ view s' = view s := by
  obtain ⟨read, himpl, hread⟩ := hs.read
  obtain ⟨s', hs', hv⟩ := hread s addrStart mfgHeaderSize
  refine ⟨s', ?_, hv⟩
  simp only [tlvReadStartMarker, tlvFlash, himpl, ne_eq, not_true_eq_false, if_false, hs']

theorem view_checkFlags {tlv : TlvCtx σ} (hs : FaultFree tlv.storageImpl view) (s : σ) :
    view (checkFlags build tlv s).2 = view s := by
  have hview := view_tlvRead hs s mfgFlagsTypeId mfgFlagsSize
  unfold checkFlags
  generalize tlvRead tlv s mfgFlagsTypeId mfgFlagsSize = r at hview
  obtain ⟨_ | ⟨err, data⟩, s'⟩ := r
  · exact hview
  · exact hview

/-- The version of an image. -/
def imageVersion (m : Mem) (addrStart : Nat) : Nat :=
  mfgVersion ((m.slice addrStart mfgHeaderSize).drop 4)

/-- The elements that the parser for the version of an image copies. -/
def imageElements (build : Build) (m : Mem) (addrStart addrEnd : Nat) : List Element :=
  if imageVersion m addrStart = 8 then
    rawElements m addrEnd (u32 (addrStart + mfgHeaderSize))
  else constElements m addrStart build.valueToOffsetTable

/-- The size of a partition's copy in RAM. -/
abbrev copySize (addrStart addrEnd : Nat) : Nat := addrEnd - addrStart

/-- A call that has parsed the data has copied the elements of the image and then the flags
record, and the partition holds the copy. -/
theorem init_parsed (hs : FlashFaultFree storageImpl view) (hend : addrEnd + 65544 ≤ 2 ^ 32)
    (h : sidPalMfgStoreInit build platform (some storageImpl) addrStart addrEnd store s =
      (.ready true, store', s')) :
    store'.tlv = tlvFlash storageImpl addrStart addrEnd ∧ addrStart < addrEnd ∧ ∃ ram,
      copyAll build platform (ramTlv (copySize addrStart addrEnd) mfgHeaderSize)
        (imageElements build (view s) addrStart addrEnd)
        (freshCopy platform (copySize addrStart addrEnd)) = .done ram ∧
      ramSlot ram (copySize addrStart addrEnd) + recordSize mfgFlagsSize ≤
        copySize addrStart addrEnd ∧
      Holding (view s') addrStart (copySize addrStart addrEnd)
        (ram.blit (ramSlot ram (copySize addrStart addrEnd))
          (record mfgFlagsTypeId build.migratedFlags.toBytes)) := by
  obtain ⟨htlv, header, s₁, s₂, hmarker, -, hsettle, smsn, hsmsn⟩ := init_steps h
  obtain ⟨s₁', hmarker', hv₁⟩ := @readStartMarker_eq _ _ _ addrStart addrEnd hs.toFaultFree s
  rw [hmarker] at hmarker'
  cases hmarker'
  obtain ⟨s₀, hs₀, hparse⟩ := settle_parsed hsettle
  have hv₀ : view s₀ = view s := by
    rw [← hv₁]
    rcases hs₀ with rfl | rfl
    · rfl
    · exact view_checkFlags hs.toFaultFree s₁
  have hv₂ : view s' = view s₂ := by
    have hview : view (tlvRead (tlvFlash storageImpl addrStart addrEnd) s₂ sidPalMfgStoreSmsn
        sidSmsnSize).2 = view s₂ := view_tlvRead hs.toFaultFree s₂ _ _
    unfold readSmsn at hsmsn
    rw [hsmsn] at hview
    exact hview
  rw [hv₂, ← hv₀]
  obtain ⟨-, ⟨hversion, hraw⟩ | ⟨hversion, hconst⟩⟩ := parseMfg_ready hparse
  · obtain ⟨hlt, ram, hcopy, hfits, hholding⟩ := parseMfgRawTlv_ret_zero hs rfl hend hraw
    refine ⟨htlv, hlt, ram, ?_, hfits, hholding⟩
    rw [imageElements, if_pos (by rw [hv₀]; exact hversion)]
    exact hcopy
  · obtain ⟨hlt, ram, hcopy, hfits, hholding⟩ := parseMfgConstOffsets_ret_zero hs rfl hend hconst
    refine ⟨htlv, hlt, ram, ?_, hfits, hholding⟩
    rw [imageElements, if_neg (by rw [hv₀]; exact hversion)]
    exact hcopy

end FaultFree

end Sidewalk.Mfg
