import Sidewalk.Cert.Store

/-!
# Two ways to a provisioned device

`SidMfgAcsJson` of `tools/provision/sid_provision/run.py` builds a page from the certificate chains
and the keys of a device; on the device itself, the same chains are imported by
`sid_on_dev_cert_write_cert_chain`. Where the two split the chains alike they have the same fields
(`acsPage_eq`), and `provisioned_reads_iff` says when the fields of a certification come out of the
image of the tool.
-/

namespace Sidewalk.Cert

open Sidewalk.Lib Sidewalk.Tlv Sidewalk.Mfg

variable {σ : Type}

/-! ## The page of the tool -/

/-- What `SidMfgAcsJson` reads of a device, behind `b64decode` and `unhexlify`. -/
structure AcsJson where
  eD25519 : List UInt8
  p256R1 : List UInt8
  devicePrivKeyEd25519 : List UInt8
  devicePrivKeyP256R1 : List UInt8
  apid : List UInt8
  smsn : List UInt8

/-- The fields of a `SidCertMfgCertChain`. -/
structure CertMfgCert where
  devicePrk : List UInt8
  device : CertBlock
  dak : CertBlock
  product : CertBlock
  man : CertBlock
  sw : CertBlock
  root : CertBlock

/-- The constructor of `SidCertMfgCertChain`; `none` where it raises an error. -/
def certMfgCert (pubkSize : Nat) (certBuffer devicePrk : List UInt8) : Option CertMfgCert :=
  if devicePrk.length ≠ prkSize then none
  else
    match sidCertMfgCertChain pubkSize certBuffer with
    | some (device, [dak, product, man, sw, root]) =>
      some ⟨devicePrk, device, dak, product, man, sw, root⟩
    | _ => none

/-- The private key that `SidCertMfgP256R1Chain` passes on: a zero in front is cut. -/
def p256r1Prk (priv : List UInt8) : List UInt8 :=
  if priv.length = prkSize + 1 ∧ priv.head? = some 0 then priv.drop 1 else priv

/-- The object that `append` makes where there are no offsets. -/
def tlvObj (idVal : Nat) (encoded : List UInt8) : SidMfgObj := ⟨idVal, 0, 0, encoded⟩

/-- `SidMfgAcsJson`, for a TLV image in network order. -/
def sidMfgAcsJson (json : AcsJson) (appPub : List UInt8) : Option SidMfg := do
  let ed25519 ← certMfgCert (Algo.pukSize .ed25519) json.eD25519 json.devicePrivKeyEd25519
  let p256r1 ← certMfgCert (Algo.pukSize .p256r1) json.p256R1 (p256r1Prk json.devicePrivKeyP256R1)
  return {
    mfgObjs := [magicObj, versionObj,
      tlvObj 4 json.smsn, tlvObj 38 json.apid, tlvObj 5 appPub,
      tlvObj 6 ed25519.devicePrk, tlvObj 7 ed25519.device.pub, tlvObj 8 ed25519.device.sig,
      tlvObj 9 p256r1.devicePrk, tlvObj 10 p256r1.device.pub, tlvObj 11 p256r1.device.sig,
      tlvObj 12 ed25519.dak.pub, tlvObj 13 ed25519.dak.sig, tlvObj 14 ed25519.dak.serial,
      tlvObj 15 p256r1.dak.pub, tlvObj 16 p256r1.dak.sig, tlvObj 17 p256r1.dak.serial,
      tlvObj 18 ed25519.product.pub, tlvObj 19 ed25519.product.sig,
      tlvObj 20 ed25519.product.serial,
      tlvObj 21 p256r1.product.pub, tlvObj 22 p256r1.product.sig, tlvObj 23 p256r1.product.serial,
      tlvObj 24 ed25519.man.pub, tlvObj 25 ed25519.man.sig, tlvObj 26 ed25519.man.serial,
      tlvObj 27 p256r1.man.pub, tlvObj 28 p256r1.man.sig, tlvObj 29 p256r1.man.serial,
      tlvObj 30 ed25519.sw.pub, tlvObj 31 ed25519.sw.sig, tlvObj 32 ed25519.sw.serial,
      tlvObj 33 p256r1.sw.pub, tlvObj 34 p256r1.sw.sig, tlvObj 35 p256r1.sw.serial,
      tlvObj 36 ed25519.root.pub, tlvObj 37 p256r1.root.pub]
    isNetworkOrder := true }

/-! ## The chains on the device -/

/-- The device waits for the chain, and each serial has one length for the device and the tool. -/
structure SameChain (ctx : Context) (algo : Algo) (chain : Mem) (size : Nat) : Prop where
  expects : Expects ctx algo chain
  same : SameLengths algo chain (deviceLength chain)
  ends : walk algo (deviceLength chain) (firstCa algo) certMaxNum = size

/-- What the device knows of an algorithm with an imported chain. -/
structure HasChain (ctx ctx' : Context) (algo : Algo) (chain : Mem) : Prop where
  prk : (ctx'.fields algo).prk = (ctx.fields algo).prk
  puk : (ctx'.fields algo).puk = chain.slice smsnSize algo.pukSize
  sig : (ctx'.fields algo).sig = chain.slice (smsnSize + algo.pukSize) signatureSize
  certs : ∀ i < certMaxNum, ((ctx'.fields algo).certs i).Stored algo chain
    (walk algo (deviceLength chain) (firstCa algo) i)

/-- The context behind the import of both chains. -/
def importChains (ctx : Context) (chain : Algo → Mem) (size : Algo → Nat) : Context :=
  let ctx := (writeCertChain ctx .ed25519 (chain .ed25519) (size .ed25519)).2.1
  (writeCertChain ctx .p256r1 (chain .p256r1) (size .p256r1)).2.1

section Chain

variable {ctx : Context} {algo : Algo} {chain : Mem} {size : Nat}

/-- An import leaves what is not of a chain. -/
theorem writeCertChain_ids (ctx : Context) (algo : Algo) (chain : Mem) (size : Nat) :
    (writeCertChain ctx algo chain size).2.1.apid = ctx.apid ∧
      (writeCertChain ctx algo chain size).2.1.appKey = ctx.appKey := by
  unfold writeCertChain
  simp only
  split
  · exact ⟨rfl, rfl⟩
  split
  · exact ⟨rfl, rfl⟩
  split
  · exact ⟨rfl, rfl⟩
  split
  · exact ⟨rfl, rfl⟩
  generalize storeCas _ _ _ _ _ _ _ = stored
  have hids (ctx : Context) := ctx.ids_putBeyond algo stored.2.beyond
  split
  · exact ⟨(hids _).2.2.1, (hids _).2.2.2⟩
  · exact ⟨(hids _).2.2.1, (hids _).2.2.2⟩

namespace SameChain

/-- The tool's walk is the device's. -/
theorem walks (h : SameChain ctx algo chain size) :
    walk algo (toolLength chain) (firstCa algo) certMaxNum = size ∧
      certsAt algo chain (toolLength chain) (firstCa algo) certMaxNum =
        certsAt algo chain (deviceLength chain) (firstCa algo) certMaxNum := by
  have hlens := (sameLengths_iff algo chain _).mp h.same
  obtain ⟨hwalk, hcerts⟩ := walk_congr algo (firstCa algo) certMaxNum hlens
  exact ⟨hwalk.symm.trans h.ends, (hcerts chain).symm⟩

/-- The tool has no serial that is longer than its array. -/
theorem fits (h : SameChain ctx algo chain size) {i : Nat} (hi : i < certMaxNum) :
    deviceLength chain (walk algo (deviceLength chain) (firstCa algo) i) ≤ caSerialMaxSize := by
  rw [(sameLengths_iff algo chain _).mp h.same i hi]
  exact toolLength_le chain _

theorem beyond (h : SameChain ctx algo chain size) :
    (writeCertChain ctx algo chain size).2.2.beyond = none :=
  writeCertChain_beyond fun _ _ _ hi _ => h.fits hi

theorem toolSplits (h : SameChain ctx algo chain size) :
    sidCertMfgCertChain algo.pukSize (chain.slice 0 size) =
      some (certAt algo chain 0 smsnSize,
        certsAt algo chain (deviceLength chain) (firstCa algo) certMaxNum) := by
  rw [sidCertMfgCertChain_eq, if_pos h.walks.1, h.walks.2]

theorem accepted (h : SameChain ctx algo chain size) :
    (writeCertChain ctx algo chain size).1 = errorNone := by
  have hlens := (sameLengths_iff algo chain _).mp h.same
  have hsame : SameLengths algo chain (toolLength chain) := by
    rw [sameLengths_iff]
    intro i hi
    have hwalk := (walk_congr algo (firstCa algo) i fun j hj => hlens j (hj.trans hi)).1
    rw [← hwalk]
    exact hlens i hi
  rw [(writeCertChain_eq h.expects size).1]
  exact ⟨admits_of_sameLengths h.walks.1 hsame, Nat.le_of_eq h.ends⟩

theorem hasChain (h : SameChain ctx algo chain size) :
    HasChain ctx (writeCertChain ctx algo chain size).2.1 algo chain := by
  obtain ⟨hsplit, hcerts⟩ := (writeCertChain_eq h.expects size).2 h.accepted
  have himp := writeCertChain_imported ctx algo chain size
  exact ⟨himp.prk, himp.puk.trans h.expects.puk, congrArg CertBlock.sig hsplit, hcerts⟩

/-- The import of the other chain keeps a chain that is waited for. -/
theorem other (h : SameChain ctx algo chain size) (algo' : Algo) (hne : algo ≠ algo')
    (chain' : Mem) (size' : Nat) :
    SameChain (writeCertChain ctx algo' chain' size').2.1 algo chain size where
  expects := by
    have himp := writeCertChain_imported ctx algo' chain' size'
    refine ⟨?_, ?_, ?_⟩
    · rw [himp.flags (.csr algo) (by simp)]
      exact h.expects.csr
    · exact himp.smsn.trans h.expects.smsn
    · rw [himp.otherPuk algo hne]
      exact h.expects.puk
  same := h.same
  ends := h.ends

end SameChain

/-- The import of the other chain keeps the chain that is there. -/
theorem HasChain.other {ctx₀ : Context} (h : HasChain ctx₀ ctx algo chain) {algo' : Algo}
    (hne : algo ≠ algo') {chain' : Mem} {size' : Nat} (h' : SameChain ctx algo' chain' size') :
    HasChain ctx₀ (writeCertChain ctx algo' chain' size').2.1 algo chain := by
  have hsame := (writeCertChain_imported ctx algo' chain' size').others h'.beyond algo hne
  constructor
  · rw [hsame]
    exact h.prk
  · rw [hsame]
    exact h.puk
  · rw [hsame]
    exact h.sig
  · rw [hsame]
    exact h.certs

end Chain

section Both

variable {ctx : Context} {chain : Algo → Mem} {size : Algo → Nat}

theorem importChains_hasChain (h : ∀ algo, SameChain ctx algo (chain algo) (size algo))
    (algo : Algo) : HasChain ctx (importChains ctx chain size) algo (chain algo) := by
  cases algo with
  | ed25519 =>
    exact (h .ed25519).hasChain.other (by decide) ((h .p256r1).other .ed25519 (by decide) _ _)
  | p256r1 =>
    have hlast := ((h .p256r1).other .ed25519 (by decide) (chain .ed25519)
      (size .ed25519)).hasChain
    refine ⟨?_, hlast.puk, hlast.sig, hlast.certs⟩
    have hfirst := (writeCertChain_imported ctx .ed25519 (chain .ed25519)
      (size .ed25519)).otherPrk .p256r1 (by decide)
    rw [← hfirst]
    exact hlast.prk

/-- The authorities are read as they are in the chain. -/
theorem importChains_block (h : ∀ algo, SameChain ctx algo (chain algo) (size algo)) (algo : Algo)
    {i : Nat} (hi : i < certMaxNum) :
    (importChains ctx chain size).block algo i = certAt algo (chain algo)
      (walk algo (deviceLength (chain algo)) (firstCa algo) i)
      (deviceLength (chain algo) (walk algo (deviceLength (chain algo)) (firstCa algo) i)) :=
  ((importChains_hasChain h algo).certs i hi).block ((h algo).fits hi)

theorem importChains_ids (ctx : Context) (chain : Algo → Mem) (size : Algo → Nat) :
    (importChains ctx chain size).smsn = ctx.smsn ∧ (importChains ctx chain size).apid = ctx.apid ∧
      (importChains ctx chain size).appKey = ctx.appKey := by
  unfold importChains
  refine ⟨?_, ?_, ?_⟩
  · rw [(writeCertChain_imported _ _ _ _).smsn, (writeCertChain_imported _ _ _ _).smsn]
  · rw [(writeCertChain_ids _ _ _ _).1, (writeCertChain_ids _ _ _ _).1]
  · rw [(writeCertChain_ids _ _ _ _).2, (writeCertChain_ids _ _ _ _).2]

/-! ## The same fields -/

/-- The JSON tells what the device knows; the cloud may have put a zero in front of a key. -/
structure AcsJson.Describes (json : AcsJson) (ctx : Context) (chain : Algo → Mem)
    (size : Algo → Nat) : Prop where
  eD25519 : json.eD25519 = (chain .ed25519).slice 0 (size .ed25519)
  p256R1 : json.p256R1 = (chain .p256r1).slice 0 (size .p256r1)
  prkEd25519 : json.devicePrivKeyEd25519 = (ctx.fields .ed25519).prk
  prkP256R1 : json.devicePrivKeyP256R1 = (ctx.fields .p256r1).prk ∨
    json.devicePrivKeyP256R1 = 0 :: (ctx.fields .p256r1).prk
  apid : json.apid = ctx.apid
  smsn : json.smsn = ctx.smsn

theorem p256r1Prk_eq {prk priv : List UInt8} (hprk : prk.length = prkSize)
    (h : priv = prk ∨ priv = 0 :: prk) : p256r1Prk priv = prk := by
  unfold p256r1Prk
  obtain rfl | rfl := h
  · rw [if_neg (by omega)]
  · rw [if_pos ⟨congrArg (· + 1) hprk, rfl⟩]
    rfl

theorem certMfgCert_eq (h : ∀ algo, SameChain ctx algo (chain algo) (size algo)) (algo : Algo)
    (hprk : (ctx.fields algo).prk.length = prkSize) :
    certMfgCert algo.pukSize ((chain algo).slice 0 (size algo)) (ctx.fields algo).prk =
      some ⟨(ctx.fields algo).prk, certAt algo (chain algo) 0 smsnSize,
        (importChains ctx chain size).block algo 0, (importChains ctx chain size).block algo 1,
        (importChains ctx chain size).block algo 2, (importChains ctx chain size).block algo 3,
        (importChains ctx chain size).block algo 4⟩ := by
  unfold certMfgCert
  rw [if_neg (not_not.mpr hprk), (h algo).toolSplits, certsAt_eq_map,
    importChains_block h algo (i := 0) (by decide), importChains_block h algo (i := 1) (by decide),
    importChains_block h algo (i := 2) (by decide), importChains_block h algo (i := 3) (by decide),
    importChains_block h algo (i := 4) (by decide)]
  rfl

/-- The tool's page has the fields that a certification stores. -/
theorem acsPage_eq (h : ∀ algo, SameChain ctx algo (chain algo) (size algo))
    (hprk : ∀ algo, (ctx.fields algo).prk.length = prkSize) {json : AcsJson}
    (hjson : json.Describes ctx chain size) {build : Build} (hkeys : build.psaKeyStorage = false) :
    sidMfgAcsJson json ctx.appKey = some
      { mfgObjs := magicObj :: versionObj ::
          (storedFields build (importChains ctx chain size)).map fun field =>
            tlvObj field.1.toNat field.2
        isNetworkOrder := true } := by
  obtain ⟨hsmsn, hapid, happKey⟩ := importChains_ids ctx chain size
  have hed := importChains_hasChain h .ed25519
  have hp := importChains_hasChain h .p256r1
  unfold sidMfgAcsJson
  rw [hjson.eD25519, hjson.p256R1, hjson.prkEd25519, p256r1Prk_eq (hprk .p256r1) hjson.prkP256R1,
    certMfgCert_eq h .ed25519 (hprk .ed25519), certMfgCert_eq h .p256r1 (hprk .p256r1),
    hjson.smsn, hjson.apid]
  unfold storedFields deviceFields chainFields caFields
  rw [hkeys]
  simp only [List.flatMap_cons, List.flatMap_nil, hsmsn, hapid, happKey, hed.prk, hed.puk,
    hed.sig, hp.prk, hp.puk, hp.sig]
  rfl

end Both

/-! ## Through the image -/

section Image

variable {build : Build} {platform : Platform} {tlv : TlvCtx σ} {view : σ → Mem}

/-- Records that come out of the migration are no longer than its buffer. -/
theorem max_of_roundTrip (hs : FlashFaultFree tlv.storageImpl view)
    (hmarker : tlv.tlvStorageStartMarkerSize = mfgHeaderSize)
    (hend : tlv.endOffset + 65544 ≤ 2 ^ 32) {es : List Entry}
    (hfits : mfgHeaderSize + usedBy es + recordSize mfgFlagsSize ≤
      tlv.endOffset - tlv.startOffset) {s : σ}
    (h : Written (view s) tlv.endOffset (tlv.startOffset + mfgHeaderSize) es)
    (haligned : ∀ e ∈ es.dropLast, e.data.length % 4 = 0)
    (hround : RoundTrip build platform tlv s es) :
    ∀ e ∈ es, e.data.length ≤ build.maxElementSize := by
  have hrec : recordSize mfgFlagsSize = 8 := rfl
  obtain ⟨s', hparse, -⟩ := hround
  obtain ⟨-, ram, hcopy, -⟩ := parseMfgRawTlv_ret_zero hs hmarker hend hparse
  have hfirst : tlv.firstOffset = tlv.startOffset + mfgHeaderSize := by
    rw [TlvCtx.firstOffset, hmarker, u32_of_lt (by unfold mfgHeaderSize at *; omega)]
  rw [hfirst, h.rawElements_eq haligned (by omega)] at hcopy
  intro e he
  exact copyAll_max hcopy _ (List.mem_map_of_mem he)

/-- Which records come out of every partition with the tool's image. -/
theorem image_reads_iff (hs : FlashFaultFree tlv.storageImpl view)
    (hview : Function.Surjective view) (hmarker : tlv.tlvStorageStartMarkerSize = mfgHeaderSize)
    (hend : tlv.endOffset + 65544 ≤ 2 ^ 32)
    (halloc : platform.malloc (tlv.endOffset - tlv.startOffset) = true)
    (hkeys : build.psaKeyStorage = false) (hshort : build.maxElementSize < 256)
    {records : List Entry} (hdistinct : (records.map Entry.type).Nodup)
    (htags : ∀ r ∈ records, r.type.toNat < mfgFlagsTypeId.toNat)
    (hfits : mfgHeaderSize + usedBy records + recordSize mfgFlagsSize ≤
      tlv.endOffset - tlv.startOffset) :
    ∃ bin, freshImage records = .ok bin ∧
      ((∀ s, Programmed tlv (view s) bin.encoded → RoundTrip build platform tlv s records) ↔
        Aligned records ∧ ∀ r ∈ records, r.data.length ≤ build.maxElementSize) := by
  obtain ⟨bin, es, hbin, hperm, hsorted, hencoded⟩ := freshImage_eq hdistinct
  have hnodup : (es.map Entry.type).Nodup := (hperm.map _).nodup_iff.mpr hdistinct
  have hused : usedBy es = usedBy records := (hperm.map Entry.size).sum_eq
  have hrec : recordSize mfgFlagsSize = 8 := rfl
  rw [← hused] at hfits
  refine ⟨bin, hbin, ?_, ?_⟩
  · intro hround
    obtain ⟨s, hview⟩ := hview (Mem.blit (fun _ => 0xFF) tlv.startOffset bin.encoded)
    have hblank : ∀ a, tlv.startOffset + bin.encoded.length ≤ a → view s a = 0xFF := by
      intro a ha
      rw [hview, Mem.blit_above ha]
    have himage : (view s).slice tlv.startOffset bin.encoded.length = bin.encoded := by
      rw [hview, Mem.slice_blit]
    have hall := (hround s ⟨himage, fun a ha _ => hblank a ha⟩).perm hperm.symm
    rw [hencoded] at himage hblank
    have haligned := not_roundTrip_of_written hs hmarker hend hshort hkeys
      (fun e he => htags e (hperm.subset he)) hnodup (by omega)
      (written_of_programmed himage fun a ha _ => hblank a ha) hall
    refine ⟨(aligned_iff hperm hsorted).mpr haligned, fun r hr => ?_⟩
    exact max_of_roundTrip hs hmarker hend hfits
      (written_of_programmed himage fun a ha _ => hblank a ha) haligned hall r
      (hperm.symm.subset hr)
  · rintro ⟨haligned, hmax⟩ s hprogrammed
    rw [hencoded] at hprogrammed
    have hwritten := written_of_programmed hprogrammed.1 hprogrammed.2
    exact (roundTrip_of_written hs hmarker hend (by omega) halloc hkeys
      (fun e he => hmax e (hperm.subset he)) hfits hnodup hwritten
      ((aligned_iff hperm hsorted).mp haligned)).perm hperm

end Image

/-! ## The fields of a certification -/

section Fields

variable {ctx : Context} {chain : Algo → Mem} {size : Algo → Nat}

/-- A device that has generated its keys and knows its application server. -/
structure Keys (ctx : Context) : Prop where
  prk : ∀ algo, (ctx.fields algo).prk.length = prkSize
  apid : ctx.apid.length = apidSize
  appKey : ctx.appKey.length = 32

/-- What holds of the lengths of all fields is what holds of those of the serials. -/
theorem forall_storedFields_iff (h : ∀ algo, SameChain ctx algo (chain algo) (size algo))
    (hctx : Keys ctx) (build : Build) (P : Nat → Prop) (h₄ : P 4) (h₃₂ : P 32) (h₆₄ : P 64) :
    (∀ field ∈ storedFields build (importChains ctx chain size), P field.2.length) ↔
      ∀ algo, ∀ i < 4,
        P (((importChains ctx chain size).fields algo).certs i).serialLength := by
  obtain ⟨hsmsn, hapid, happKey⟩ := importChains_ids ctx chain size
  have hsmsn' : ctx.smsn.length = 32 := by
    rw [(h .ed25519).expects.smsn, Mem.length_slice]
    rfl
  have hchain := importChains_hasChain h
  have hnil := List.forall_mem_nil fun field : UInt16 × List UInt8 => P field.2.length
  have hca : ∀ i < certMaxNum, ∀ value,
      (∀ field ∈ caFields (importChains ctx chain size) i value, P field.2.length) ↔
        ∀ algo, P (((importChains ctx chain size).fields algo).certs i).serialLength := by
    intro i hi value
    have hserial (algo : Algo) : ((importChains ctx chain size).caSerial algo i).length =
        (((importChains ctx chain size).fields algo).certs i).serialLength :=
      ((hchain algo).certs i hi).length_caSerial.trans ((hchain algo).certs i hi).serialLength.symm
    unfold caFields
    simp only [List.flatMap_cons, List.flatMap_nil, List.append_nil, List.forall_mem_append,
      List.forall_mem_cons, ((hchain _).certs i hi).pubKey, ((hchain _).certs i hi).signature,
      hserial, Mem.length_slice]
    constructor
    · rintro ⟨⟨-, -, hed, -⟩, -, -, hp, -⟩ algo
      cases algo with
      | ed25519 => exact hed
      | p256r1 => exact hp
    · intro hall
      exact ⟨⟨h₃₂, h₆₄, hall .ed25519, hnil⟩, h₆₄, h₆₄, hall .p256r1, hnil⟩
  have hdevice : ∀ field ∈ deviceFields build (importChains ctx chain size), P field.2.length := by
    unfold deviceFields
    simp only [List.forall_mem_append, List.forall_mem_cons, hsmsn, hapid, happKey, hsmsn',
      hctx.apid, hctx.appKey, (hchain _).puk, (hchain _).sig, Mem.length_slice]
    refine ⟨⟨⟨⟨⟨h₃₂, h₄, h₃₂, hnil⟩, ?_⟩, h₃₂, h₆₄, hnil⟩, ?_⟩, h₆₄, h₆₄, hnil⟩
    · split
      · exact hnil
      · rw [List.forall_mem_singleton, (hchain .ed25519).prk, hctx.prk]
        exact h₃₂
    · split
      · exact hnil
      · rw [List.forall_mem_singleton, (hchain .p256r1).prk, hctx.prk]
        exact h₃₂
  have hroot : ∀ algo,
      P (((importChains ctx chain size).fields algo).certs certAmzn).pubKey.length := by
    intro algo
    rw [((hchain algo).certs certAmzn (by decide)).pubKey, Mem.length_slice]
    cases algo with
    | ed25519 => exact h₃₂
    | p256r1 => exact h₆₄
  unfold storedFields chainFields
  simp only [List.forall_mem_append, List.forall_mem_cons, hca 0 (by decide), hca 1 (by decide),
    hca 2 (by decide), hca 3 (by decide)]
  constructor
  · rintro ⟨-, ⟨⟨⟨h0, h1⟩, h2⟩, h3⟩, -⟩ algo i hi
    interval_cases i
    · exact h0 algo
    · exact h1 algo
    · exact h2 algo
    · exact h3 algo
  · intro hall
    exact ⟨hdevice, ⟨⟨⟨fun algo => hall algo 0 (by decide), fun algo => hall algo 1 (by decide)⟩,
      fun algo => hall algo 2 (by decide)⟩, fun algo => hall algo 3 (by decide)⟩,
      hroot .ed25519, hroot .p256r1, hnil⟩

/-- The application id has the greatest value, and four bytes. -/
theorem aligned_storedFields_iff (hapid : ctx.apid.length = apidSize) {build : Build}
    {es : List Entry} (hes : es.map Entry.call = storedFields build ctx) :
    Aligned es ↔ ∀ field ∈ storedFields build ctx, field.2.length % 4 = 0 := by
  have hnodup : ((storedFields build ctx).map Prod.fst).Nodup :=
    (List.nodup_append.mp (values_distinct build ctx).1).1
  have hle : ∀ value ∈ (storedFields build ctx).map Prod.fst, value.toNat ≤ 38 := by
    rw [values_storedFields]
    refine List.all_iff_forall_prop.1 ?_
    cases build.psaKeyStorage with
    | false => decide +kernel
    | true => decide +kernel
  have hlast : ((38 : UInt16), ctx.apid) ∈ storedFields build ctx := by
    simp [storedFields, deviceFields]
  rw [← hes] at hlast
  obtain ⟨last, hmem, hcall⟩ := List.mem_map.mp hlast
  have htype : last.type = 38 := congrArg Prod.fst hcall
  constructor
  · intro haligned field hfield
    by_cases hless : field.1.toNat < 38
    · rw [← hes] at hfield
      obtain ⟨e, he, rfl⟩ := List.mem_map.mp hfield
      refine haligned e he last hmem ?_
      rw [htype]
      exact hless
    · have hvalue : field.1 = 38 := by
        have hbound := hle field.1 (List.mem_map_of_mem hfield)
        apply UInt16.toNat_inj.mp
        change field.1.toNat = 38
        omega
      rw [hes] at hlast
      rw [List.inj_on_of_nodup_map hnodup hfield hlast hvalue, hapid]
      rfl
  · intro hall r hr r' _ _
    refine hall r.call ?_
    rw [← hes]
    exact List.mem_map_of_mem hr

end Fields

/-! ## Provisioned by the tool -/

/-- The device migrates what is in the partition and reads the fields behind it. -/
def ReadsFields (build : Build) (platform : Platform) (tlv : TlvCtx σ) (s : σ)
    (fields : List (UInt16 × List UInt8)) : Prop :=
  ∃ s', parseMfgRawTlv build platform tlv s = (.ret 0, s') ∧
    ∀ field ∈ fields, (tlvRead tlv s' field.1 field.2.length).1 = some (0, field.2)

theorem readsFields_iff {build : Build} {platform : Platform} {tlv : TlvCtx σ} {s : σ}
    {es : List Entry} {fields : List (UInt16 × List UInt8)} (hes : es.map Entry.call = fields) :
    ReadsFields build platform tlv s fields ↔ RoundTrip build platform tlv s es := by
  subst hes
  exact exists_congr fun s' => and_congr_right fun _ => List.forall_mem_map

/-- A device whose partition was programmed with the tool's image reads every field that the
certification of a device with the same chains and keys stores, in whatever partition, if and only
if the serials that are stored have lengths that are multiples of four and fit the parser's
buffer. -/
theorem provisioned_reads_iff {build : Build} {platform : Platform} {tlv : TlvCtx σ}
    {view : σ → Mem} (hs : FlashFaultFree tlv.storageImpl view) (hview : Function.Surjective view)
    (hmarker : tlv.tlvStorageStartMarkerSize = mfgHeaderSize)
    (hend : tlv.endOffset + 65544 ≤ 2 ^ 32)
    (halloc : platform.malloc (tlv.endOffset - tlv.startOffset) = true)
    (hkeys : build.psaKeyStorage = false) (hlow : 64 ≤ build.maxElementSize)
    (hshort : build.maxElementSize < 256) {ctx : Context} {chain : Algo → Mem} {size : Algo → Nat}
    (h : ∀ algo, SameChain ctx algo (chain algo) (size algo)) (hctx : Keys ctx) {json : AcsJson}
    (hjson : json.Describes ctx chain size)
    (hfits : neededSize build (importChains ctx chain size) ≤ tlv.endOffset - tlv.startOffset) :
    ∃ page bin, sidMfgAcsJson json ctx.appKey = some page ∧
      (SidMfgOutBin.enter tlvConfig none).write page = .ok bin ∧
      ((∀ s, Programmed tlv (view s) bin.encoded →
          ReadsFields build platform tlv s (storedFields build (importChains ctx chain size))) ↔
        ∀ algo, ∀ i < 4,
          (((importChains ctx chain size).fields algo).certs i).serialLength % 4 = 0 ∧
            (((importChains ctx chain size).fields algo).certs i).serialLength ≤
              build.maxElementSize) := by
  have hpage := acsPage_eq h hctx.prk hjson hkeys
  have happId : (importChains ctx chain size).apid.length = apidSize := by
    rw [(importChains_ids ctx chain size).2.1, hctx.apid]
  obtain ⟨hnodup, hvalues⟩ := values_distinct build (importChains ctx chain size)
  have hlengths : ∀ field ∈ storedFields build (importChains ctx chain size),
      0 < field.2.length ∧ field.2.length < 256 := by
    refine (forall_storedFields_iff h hctx build (fun n => 0 < n ∧ n < 256) (by decide) (by decide)
      (by decide)).mpr fun algo i hi => ?_
    rw [((importChains_hasChain h algo).certs i (hi.trans (by decide))).serialLength]
    have hbounds := getCaSerialLength_bounds
      (chain algo (walk algo (deviceLength (chain algo)) (firstCa algo) i))
      (chain algo (walk algo (deviceLength (chain algo)) (firstCa algo) i + 1))
    change 0 < getCaSerialLength _ _ ∧ getCaSerialLength _ _ < 256
    omega
  obtain ⟨es, hes⟩ := exists_entries fun field hfield =>
    ⟨(hvalues field.1 (List.mem_append_left _ (List.mem_map_of_mem hfield))).1,
      hlengths field hfield⟩
  have htypes : es.map Entry.type =
      (storedFields build (importChains ctx chain size)).map Prod.fst := by
    rw [← hes, List.map_map]
    rfl
  have hdistinct : (es.map Entry.type).Nodup := by
    rw [htypes]
    exact (List.nodup_append.mp hnodup).1
  have htags : ∀ e ∈ es, e.type.toNat < mfgFlagsTypeId.toNat := by
    have hall : ∀ value ∈ es.map Entry.type, value.toNat < mfgFlagsTypeId.toNat := by
      rw [htypes, values_storedFields, hkeys]
      refine List.all_iff_forall_prop.1 ?_
      decide +kernel
    exact fun e he => hall e.type (List.mem_map_of_mem he)
  have hroom : mfgHeaderSize + usedBy es + recordSize mfgFlagsSize ≤
      tlv.endOffset - tlv.startOffset := by
    have hneeded := usedBy_storedFields hes
    have hflags : (flagsEntry build).size = recordSize mfgFlagsSize := rfl
    rw [usedBy_append, usedBy_cons, usedBy_nil] at hneeded
    omega
  obtain ⟨bin, hbin, hreads⟩ := @image_reads_iff _ build platform _ _ hs hview hmarker hend halloc
    hkeys hshort es hdistinct htags hroom
  refine ⟨_, bin, hpage, ?_, ?_⟩
  · rw [← hes, List.map_map]
    exact hbin
  · have hmax : (∀ e ∈ es, e.data.length ≤ build.maxElementSize) ↔
        ∀ field ∈ storedFields build (importChains ctx chain size),
          field.2.length ≤ build.maxElementSize := by
      rw [← hes, List.forall_mem_map]
      rfl
    simp only [readsFields_iff hes]
    rw [hreads, aligned_storedFields_iff happId hes, hmax,
      forall_storedFields_iff h hctx build (· % 4 = 0) (by decide) (by decide) (by decide),
      forall_storedFields_iff h hctx build (· ≤ build.maxElementSize) (by omega) (by omega)
        (by omega)]
    simp only [forall_and]

/-- A device that waits for chains of zeros. -/
def waitingCtx : Context where
  state _ := true
  smsn := List.replicate 32 0
  apid := [0x41, 0x42, 0x43, 0x44]
  appKey := List.replicate 32 5
  fields algo := ⟨List.replicate 32 7, List.replicate algo.pukSize 0,
    List.replicate signatureSize 0, fun _ => ⟨List.replicate algo.pukSize 0,
      List.replicate signatureSize 0, 0, List.replicate caSerialMaxSize 0, 0⟩⟩
  behind := 0

def zeroChain (_ : Algo) : Mem := fun _ => 0

def zeroChainSize : Algo → Nat
  | .ed25519 => 628
  | .p256r1 => 820

def zeroJson : AcsJson where
  eD25519 := (zeroChain .ed25519).slice 0 628
  p256R1 := (zeroChain .p256r1).slice 0 820
  devicePrivKeyEd25519 := List.replicate 32 7
  devicePrivKeyP256R1 := 0 :: List.replicate 32 7
  apid := [0x41, 0x42, 0x43, 0x44]
  smsn := List.replicate 32 0

theorem sameChain_zero (algo : Algo) :
    SameChain waitingCtx algo (zeroChain algo) (zeroChainSize algo) where
  expects := by
    cases algo with
    | ed25519 => exact ⟨rfl, by decide +kernel, by decide +kernel⟩
    | p256r1 => exact ⟨rfl, by decide +kernel, by decide +kernel⟩
  same := fun _ _ => show SameLength 0 0 0 0 by decide
  ends := by
    cases algo with
    | ed25519 => decide +kernel
    | p256r1 => decide +kernel

/-- Serials of four bytes: the device reads everything. -/
theorem provisioned_reads_iff_zeroChain :
    ∃ page bin, sidMfgAcsJson zeroJson (List.replicate 32 5) = some page ∧
      (SidMfgOutBin.enter tlvConfig none).write page = .ok bin ∧
      ∀ f : Flash, Programmed (tlvFlash Flash.storage 0 8192) f.mem bin.encoded →
        ReadsFields defaultBuild calmPlatform (tlvFlash Flash.storage 0 8192) f
          (storedFields defaultBuild (importChains waitingCtx zeroChain zeroChainSize)) := by
  obtain ⟨page, bin, hpage, hbin, hreads⟩ := @provisioned_reads_iff Flash defaultBuild calmPlatform
    (tlvFlash Flash.storage 0 8192) Flash.mem Flash.faultFree flash_surjective rfl (by decide) rfl
    rfl (by decide) (by decide) waitingCtx zeroChain zeroChainSize sameChain_zero
    ⟨fun _ => rfl, rfl, rfl⟩ zeroJson ⟨rfl, rfl, rfl, .inr rfl, rfl, rfl⟩ (by decide +kernel)
  refine ⟨page, bin, hpage, hbin, hreads.mpr fun algo i hi => ?_⟩
  rw [((importChains_hasChain sameChain_zero algo).certs i (hi.trans (by decide))).serialLength]
  have hfour : getCaSerialLength 0 0 = 4 := by decide
  have hlen : ∀ p, deviceLength (zeroChain algo) p = 4 := fun _ => hfour
  rw [hlen]
  decide

end Sidewalk.Cert
