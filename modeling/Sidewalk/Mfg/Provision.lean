import Sidewalk.Mfg.Parsers
import Sidewalk.Tlv.Store

/-!
# The provisioning tool

`SidMfgObj`, `SidMfg` and `SidMfgOutBin` of `tools/provision/sid_provision/run.py`: the fields of
a manufacturing page, their order, and the binary they are written to. An exception is the error
of `Except`; integers are naturals and `bytearray`s lists. `write_fresh` says what the tool puts
into a new TLV image.
-/

namespace Sidewalk.Mfg

open Sidewalk.Lib Sidewalk.Tlv

/-! ## Fields and pages -/

structure SidMfgObj where
  idVal : Nat
  start : Nat
  stop : Nat
  encoded : List UInt8
  deriving DecidableEq, Repr

structure SidMfg where
  mfgObjs : List SidMfgObj
  isNetworkOrder : Bool

/-- `SidMfg.__iter__`: the objects by `id_val`, equal ones in their order. -/
def SidMfg.iter (mfg : SidMfg) : List SidMfgObj :=
  mfg.mfgObjs.insertionSort (·.idVal ≤ ·.idVal)

/-- What `SidMfgOutBin` uses of its configuration; the end of the version field and the page
size are in words. -/
structure MfgConfig where
  tlvEnabled : Bool
  offsetSize : Nat
  versionEnd : Nat
  mfgPageSize : Nat

/-- `int.from_bytes`. -/
def fromBytes (isNetworkOrder : Bool) (bytes : List UInt8) : Nat :=
  (if isNetworkOrder then bytes else bytes.reverse).foldl (fun n b => n * 256 + b.toNat) 0

/-- `int.to_bytes` of two bytes. -/
def toBytes2 (isNetworkOrder : Bool) (n : Nat) : Except String (List UInt8) :=
  if 2 ^ 16 ≤ n then .error "int too big to convert"
  else
    let bytes := [UInt8.ofNat (n / 256), UInt8.ofNat (n % 256)]
    .ok (if isNetworkOrder then bytes else bytes.reverse)

/-- A length rounded up to words. -/
def roundUp (wordSize len : Nat) : Nat := (len + wordSize - 1) / wordSize * wordSize

/-! ## The output -/

structure SidMfgOutBin where
  config : MfgConfig
  encoded : List UInt8

namespace SidMfgOutBin

def tlvRegionStart (bin : SidMfgOutBin) : Nat := bin.config.versionEnd * bin.config.offsetSize

def resizeEncoded (bin : SidMfgOutBin) : SidMfgOutBin :=
  let encodedSize :=
    if bin.config.tlvEnabled then bin.tlvRegionStart
    else bin.config.mfgPageSize * bin.config.offsetSize
  { bin with
    encoded := bin.encoded ++ List.replicate (encodedSize - bin.encoded.length) 0xFF }

/-- `__enter__` with what the file holds, `none` where there is no file. -/
def enter (config : MfgConfig) (file : Option (List UInt8)) : SidMfgOutBin :=
  resizeEncoded { config := config, encoded := file.getD [] }

/-- `__exit__`: what the file holds then. The file is not truncated. -/
def exit (bin : SidMfgOutBin) (file : List UInt8) : List UInt8 :=
  bin.encoded ++ file.drop bin.encoded.length

/-- The loop of `remove_value_with_tag` from `pos`. -/
def removeFrom (wordSize tag : Nat) (isNetworkOrder : Bool) :
    Nat → Nat → List UInt8 → List UInt8
  | 0, _, encoded => encoded
  | fuel + 1, pos, encoded =>
    if pos + 4 < encoded.length then
      let recordLen := roundUp wordSize
        (fromBytes isNetworkOrder ((encoded.drop (pos + 2)).take 2) + 4)
      if fromBytes isNetworkOrder ((encoded.drop pos).take 2) = tag then
        encoded.take pos ++ encoded.drop (pos + recordLen)
      else removeFrom wordSize tag isNetworkOrder fuel (pos + recordLen) encoded
    else encoded

def removeValueWithTag (bin : SidMfgOutBin) (tag : Nat) (isNetworkOrder : Bool) : SidMfgOutBin :=
  { bin with
    encoded := removeFrom bin.config.offsetSize tag isNetworkOrder bin.encoded.length
      bin.tlvRegionStart bin.encoded }

def makeTlv (bin : SidMfgOutBin) (tag : Nat) (encodedData : List UInt8) (isNetworkOrder : Bool) :
    Except String (List UInt8) := do
  let tagBytes ← toBytes2 isNetworkOrder tag
  let lenBytes ← toBytes2 isNetworkOrder encodedData.length
  let tlv := tagBytes ++ lenBytes ++ encodedData
  return tlv ++ List.replicate (roundUp bin.config.offsetSize tlv.length - tlv.length) 0xFF

/-- One round of the loop of `write`, with `encoded_len`. -/
def writeObj (isNetworkOrder : Bool) :
    SidMfgOutBin × Nat → SidMfgObj → Except String (SidMfgOutBin × Nat)
  | (bin, encodedLen), obj =>
    if bin.config.tlvEnabled = true ∧ obj.start = 0 ∧ obj.stop = 0 then do
      let bin := bin.removeValueWithTag obj.idVal isNetworkOrder
      let tlv ← bin.makeTlv obj.idVal obj.encoded isNetworkOrder
      let bin := { bin with encoded := bin.encoded ++ tlv }
      return (bin, bin.encoded.length)
    else if encodedLen < obj.stop then .error "Cannot fit Field in mfg page"
    else
      let bin := { bin with
        encoded := bin.encoded.take obj.start ++ obj.encoded ++
          bin.encoded.drop (max obj.start obj.stop) }
      if encodedLen ≠ bin.encoded.length then .error "Encoded Length Changed"
      else .ok (bin, encodedLen)

def write (bin : SidMfgOutBin) (sidMfg : SidMfg) : Except String SidMfgOutBin := do
  let (bin, _) ← sidMfg.iter.foldlM (writeObj sidMfg.isNetworkOrder) (bin, bin.encoded.length)
  return bin

end SidMfgOutBin

/-! ## A new TLV image -/

/-- The configuration of a TLV image: words of four bytes, the version in the second one. -/
def tlvConfig : MfgConfig where
  tlvEnabled := true
  offsetSize := 4
  versionEnd := 2
  mfgPageSize := 0

/-- `SID_PAL_MFG_STORE_MAGIC` at its fixed position. -/
def magicObj : SidMfgObj where
  idVal := 0
  start := 0
  stop := 4
  encoded := mfgHeaderMagic

/-- `SID_PAL_MFG_STORE_VERSION` at its fixed position. -/
def versionObj : SidMfgObj where
  idVal := 2
  start := 4
  stop := 8
  encoded := [0, 0, 0, reportedVersion]

/-- The field of a record. -/
def recordObj (e : Entry) : SidMfgObj where
  idVal := e.type.toNat
  start := 0
  stop := 0
  encoded := e.data

/-- The page the tool builds from the records. -/
def tlvPage (records : List Entry) : SidMfg where
  mfgObjs := magicObj :: versionObj :: records.map recordObj
  isNetworkOrder := true

/-- The run of the tool that writes the records to a new file. -/
def freshImage (records : List Entry) : Except String SidMfgOutBin :=
  (SidMfgOutBin.enter tlvConfig none).write (tlvPage records)

def tagBytes (e : Entry) : List UInt8 :=
  [.ofNat (e.type.toNat / 256), .ofNat (e.type.toNat % 256)]

def lenBytes (e : Entry) : List UInt8 := [0, .ofNat e.data.length]

/-- The bytes the tool writes for a record. -/
def rawRecord (e : Entry) : List UInt8 := tagBytes e ++ (lenBytes e ++ paddedData e.data)

@[simp] theorem length_rawRecord (e : Entry) : (rawRecord e).length = e.size := by
  simp only [rawRecord, List.length_append, length_paddedData]
  change 2 + (2 + paddedSize e.data.length) = 4 + paddedSize e.data.length
  omega

theorem roundUp_four (len : Nat) : roundUp 4 (4 + len) = 4 + paddedSize len := by
  unfold roundUp paddedSize calculatePadding dataAlign
  omega

theorem recordObj_injective : Function.Injective recordObj := by
  intro e e' h
  obtain ⟨type, data, h₁, h₂, h₃⟩ := e
  obtain ⟨type', data', h₁', h₂', h₃'⟩ := e'
  simp only [recordObj, SidMfgObj.mk.injEq, true_and] at h
  obtain ⟨htype, rfl⟩ := h
  obtain rfl : type = type' := UInt16.toNat_inj.mp htype
  rfl

theorem fromBytes_tag (e : Entry) : fromBytes true (tagBytes e) = e.type.toNat := by
  have ht := e.type.toNat_lt
  simp only [fromBytes, tagBytes, if_true, List.foldl_cons, List.foldl_nil, UInt8.toNat_ofNat']
  omega

theorem fromBytes_len (e : Entry) : fromBytes true (lenBytes e) = e.data.length := by
  have hshort := e.short
  simp only [fromBytes, lenBytes, if_true, List.foldl_cons, List.foldl_nil, UInt8.toNat_ofNat',
    UInt8.toNat_zero]
  omega

namespace SidMfgOutBin

/-- An image with its two fixed words and the records behind them. -/
def image (magic version : List UInt8) (es : List Entry) : SidMfgOutBin where
  config := tlvConfig
  encoded := magic ++ version ++ es.flatMap rawRecord

/-- Nothing is removed for a tag that no record has. -/
theorem removeFrom_absent {tag : Nat} {es : List Entry} (h : ∀ e ∈ es, e.type.toNat ≠ tag)
    {fuel pos : Nat} {pre : List UInt8} (hpos : pre.length = pos) :
    removeFrom 4 tag true fuel pos (pre ++ es.flatMap rawRecord) =
      pre ++ es.flatMap rawRecord := by
  induction fuel generalizing es pos pre with
  | zero => rfl
  | succ fuel ih =>
    simp only [removeFrom]
    split
    · next hmore =>
      cases es with
      | nil =>
        simp only [List.flatMap_nil, List.append_nil] at hmore
        omega
      | cons e es =>
        rw [List.forall_mem_cons] at h
        have htag : (pre ++ (e :: es).flatMap rawRecord).drop pos =
            rawRecord e ++ es.flatMap rawRecord := by
          rw [List.drop_append_of_le_length (by omega), List.drop_of_length_le (by omega),
            List.nil_append, List.flatMap_cons]
        have hlen : (pre ++ (e :: es).flatMap rawRecord).drop (pos + 2) =
            (lenBytes e ++ paddedData e.data) ++ es.flatMap rawRecord := by
          rw [← List.drop_drop, htag]
          rfl
        have hstep : roundUp tlvConfig.offsetSize
            (fromBytes true ((lenBytes e ++ paddedData e.data ++
              es.flatMap rawRecord).take 2) + 4) = e.size := by
          change roundUp 4 (fromBytes true (lenBytes e) + 4) = _
          rw [fromBytes_len, Nat.add_comm, roundUp_four]
          rfl
        have hfound : fromBytes true ((rawRecord e ++ es.flatMap rawRecord).take 2) =
            e.type.toNat := fromBytes_tag e
        rw [htag, hlen, hfound, if_neg h.1]
        change removeFrom 4 tag true fuel (pos + roundUp tlvConfig.offsetSize _) _ = _
        rw [hstep, List.flatMap_cons, ← List.append_assoc]
        exact ih h.2 (by rw [List.length_append, length_rawRecord, hpos])
    · rfl

theorem makeTlv_record (bin : SidMfgOutBin) (hconfig : bin.config = tlvConfig) (e : Entry) :
    bin.makeTlv (recordObj e).idVal (recordObj e).encoded true = .ok (rawRecord e) := by
  have ht := e.type.toNat_lt
  have hshort := e.short
  have htag : toBytes2 true e.type.toNat = .ok (tagBytes e) := if_neg (by omega)
  have hlen : toBytes2 true e.data.length = .ok (lenBytes e) := by
    have hhi : e.data.length / 256 = 0 := Nat.div_eq_of_lt hshort
    have hlo : e.data.length % 256 = e.data.length := Nat.mod_eq_of_lt hshort
    unfold toBytes2
    rw [if_neg (by omega), hhi, hlo]
    rfl
  have hpad : roundUp 4 (4 + e.data.length) - (4 + e.data.length) =
      calculatePadding e.data.length := by
    rw [roundUp_four]
    unfold paddedSize
    omega
  simp only [makeTlv, recordObj, htag, hlen, hconfig]
  change Except.ok _ = _
  congr 1
  have hsum : (tagBytes e ++ lenBytes e ++ e.data).length = 4 + e.data.length := by
    rw [List.length_append]
    rfl
  rw [hsum]
  change _ ++ List.replicate (roundUp 4 (4 + e.data.length) - (4 + e.data.length)) 0xFF = _
  rw [hpad, List.append_assoc, List.append_assoc]
  rfl

section Image

variable {magic version : List UInt8} {es : List Entry}

theorem writeObj_record (hm : magic.length = 4) (hv : version.length = 4) {e : Entry}
    (h : ∀ e' ∈ es, e'.type ≠ e.type) (len : Nat) :
    writeObj true (image magic version es, len) (recordObj e) =
      .ok (image magic version (es ++ [e]), (image magic version (es ++ [e])).encoded.length) := by
  have hremove : (image magic version es).removeValueWithTag (recordObj e).idVal true =
      image magic version es := by
    have hsame := @removeFrom_absent (recordObj e).idVal es
      (fun e' he' heq => h e' he' (UInt16.toNat_inj.mp heq))
      (image magic version es).encoded.length 8 (magic ++ version)
      (by rw [List.length_append, hm, hv])
    unfold removeValueWithTag
    exact congrArg (SidMfgOutBin.mk tlvConfig) hsame
  simp only [writeObj]
  rw [if_pos ⟨rfl, rfl, rfl⟩]
  simp only [hremove, makeTlv_record (image magic version es) rfl e]
  change Except.ok _ = Except.ok _
  simp only [image, List.flatMap_append, List.flatMap_cons, List.flatMap_nil, List.append_nil,
    List.append_assoc]

theorem writeObj_magic (hm : magic.length = 4) :
    writeObj true (image magic version es, (image magic version es).encoded.length) magicObj =
      .ok (image mfgHeaderMagic version es, (image magic version es).encoded.length) := by
  have hlen : (image magic version es).encoded.length = 4 + (version ++
      es.flatMap rawRecord).length := by
    simp only [image, List.append_assoc, List.length_append, hm]
  have henc : (image magic version es).encoded.take 0 ++ mfgHeaderMagic ++
      (image magic version es).encoded.drop (max 0 4) = (image mfgHeaderMagic version es).encoded := by
    simp only [image, List.append_assoc, List.take_zero, List.nil_append]
    rw [show max 0 4 = magic.length from hm.symm ▸ rfl, List.drop_left]
  simp only [writeObj]
  rw [if_neg (by simp [magicObj]), if_neg (by rw [hlen]; simp [magicObj])]
  change (if _ ≠ (_ : List UInt8).length then _ else _) = _
  simp only [magicObj, henc]
  rw [if_neg]
  · rfl
  · rw [not_not, hlen]
    simp only [image, List.append_assoc, List.length_append]
    rfl

theorem writeObj_version (hm : magic.length = 4) (hv : version.length = 4) :
    writeObj true (image magic version es, (image magic version es).encoded.length) versionObj =
      .ok (image magic versionObj.encoded es, (image magic version es).encoded.length) := by
  have hlen : (image magic version es).encoded.length = 8 + (es.flatMap rawRecord).length := by
    simp only [image, List.append_assoc, List.length_append, hm, hv]
    omega
  have henc : (image magic version es).encoded.take 4 ++ versionObj.encoded ++
      (image magic version es).encoded.drop (max 4 8) =
        (image magic versionObj.encoded es).encoded := by
    have htake : (image magic version es).encoded.take 4 = magic := by
      rw [← hm]
      simp only [image, List.append_assoc, List.take_left]
    have hdrop : (image magic version es).encoded.drop 8 = es.flatMap rawRecord := by
      have hfixed : (magic ++ version).length = 8 := by rw [List.length_append, hm, hv]
      rw [← hfixed]
      exact List.drop_left
    rw [htake, show max 4 8 = 8 from rfl, hdrop]
    rfl
  simp only [writeObj]
  rw [if_neg (by simp [versionObj]), if_neg (by rw [hlen]; simp [versionObj])]
  change (if _ ≠ (_ : List UInt8).length then _ else _) = _
  simp only [show versionObj.start = 4 from rfl, show versionObj.stop = 8 from rfl, henc]
  rw [if_neg]
  · rfl
  · rw [not_not, hlen]
    simp only [image, List.append_assoc, List.length_append, hm]
    exact Nat.add_assoc 4 4 _

end Image

/-- The fields that are written as TLV records. -/
def isTlv (obj : SidMfgObj) : Bool := obj.start = 0 ∧ obj.stop = 0

/-- Along any list of the page's fields the records are appended in their order, and the fixed
words are overwritten. -/
theorem foldlM_writeObj (magic version : List UInt8) (es : List Entry) {objs : List SidMfgObj}
    (hobjs : ∀ obj ∈ objs, obj = magicObj ∨ obj = versionObj ∨ ∃ e, obj = recordObj e)
    (hdistinct : (es.map recordObj ++ objs.filter isTlv).Pairwise (·.idVal ≠ ·.idVal))
    (hm : magic.length = 4) (hv : version.length = 4) :
    ∃ magic' version' es',
      objs.foldlM (writeObj true)
          (image magic version es, (image magic version es).encoded.length) =
        .ok (image magic' version' (es ++ es'),
          (image magic' version' (es ++ es')).encoded.length) ∧
      magic'.length = 4 ∧ version'.length = 4 ∧
      es'.map recordObj = objs.filter isTlv ∧
      (magic = mfgHeaderMagic ∨ magicObj ∈ objs → magic' = mfgHeaderMagic) ∧
      (version = versionObj.encoded ∨ versionObj ∈ objs → version' = versionObj.encoded) := by
  induction objs generalizing magic version es with
  | nil =>
    refine ⟨magic, version, [], by rw [List.append_nil]; rfl, hm, hv, rfl, ?_, ?_⟩
    · exact fun h => h.elim id fun h => by cases h
    · exact fun h => h.elim id fun h => by cases h
  | cons obj objs ih =>
    rw [List.forall_mem_cons] at hobjs
    obtain ⟨rfl | rfl | ⟨e, rfl⟩, hobjs⟩ := hobjs
    · have hlen : (image magic version es).encoded.length =
          (image mfgHeaderMagic version es).encoded.length := by
        simp only [image, List.length_append, hm]
        rfl
      obtain ⟨magic', version', es', hrun, hm', hv', hes', hmagic, hversion⟩ :=
        ih mfgHeaderMagic version es hobjs hdistinct rfl hv
      refine ⟨magic', version', es', ?_, hm', hv', hes', fun _ => hmagic (.inl rfl), ?_⟩
      · rw [List.foldlM_cons, writeObj_magic hm, hlen]
        exact hrun
      · rintro (h | h)
        · exact hversion (.inl h)
        · exact hversion (.inr ((List.mem_cons.mp h).resolve_left (by decide)))
    · have hlen : (image magic version es).encoded.length =
          (image magic versionObj.encoded es).encoded.length := by
        simp only [image, List.length_append, hv]
        rfl
      obtain ⟨magic', version', es', hrun, hm', hv', hes', hmagic, hversion⟩ :=
        ih magic versionObj.encoded es hobjs hdistinct hm rfl
      refine ⟨magic', version', es', ?_, hm', hv', hes', ?_, fun _ => hversion (.inl rfl)⟩
      · rw [List.foldlM_cons, writeObj_version hm hv, hlen]
        exact hrun
      · rintro (h | h)
        · exact hmagic (.inl h)
        · exact hmagic (.inr ((List.mem_cons.mp h).resolve_left (by decide)))
    · have hfilter : (recordObj e :: objs).filter isTlv = recordObj e :: objs.filter isTlv :=
        List.filter_cons_of_pos rfl
      rw [hfilter] at hdistinct
      have hnew : ∀ e' ∈ es, e'.type ≠ e.type := fun e' he' heq =>
        (List.pairwise_append.mp hdistinct).2.2 _ (List.mem_map_of_mem he') _
          List.mem_cons_self (congrArg UInt16.toNat heq)
      obtain ⟨magic', version', es', hrun, hm', hv', hes', hmagic, hversion⟩ :=
        ih magic version (es ++ [e]) hobjs (by
          rw [List.map_append, List.append_assoc]
          exact hdistinct) hm hv
      have hne : magicObj ≠ recordObj e ∧ versionObj ≠ recordObj e :=
        ⟨fun h => Nat.succ_ne_zero 3 (congrArg SidMfgObj.stop h),
          fun h => Nat.succ_ne_zero 7 (congrArg SidMfgObj.stop h)⟩
      refine ⟨magic', version', e :: es', ?_, hm', hv', ?_, ?_, ?_⟩
      · rw [List.foldlM_cons, writeObj_record hm hv hnew]
        rw [List.append_assoc] at hrun
        exact hrun
      · rw [List.map_cons, hes', hfilter]
      · rintro (h | h)
        · exact hmagic (.inl h)
        · exact hmagic (.inr ((List.mem_cons.mp h).resolve_left hne.1))
      · rintro (h | h)
        · exact hversion (.inl h)
        · exact hversion (.inr ((List.mem_cons.mp h).resolve_left hne.2))

end SidMfgOutBin

/-- The tool writes a new image without an error: the header, and then the records by their
tags. -/
theorem freshImage_eq {records : List Entry} (hdistinct : (records.map Entry.type).Nodup) :
    ∃ (bin : SidMfgOutBin) (es : List Entry), freshImage records = .ok bin ∧ es.Perm records ∧
      es.Pairwise (·.type.toNat < ·.type.toNat) ∧
      bin.encoded = mfgHeader ++ es.flatMap rawRecord := by
  have hperm := List.perm_insertionSort (·.idVal ≤ ·.idVal) (tlvPage records).mfgObjs
  have hsorted := List.pairwise_insertionSort (fun o o' : SidMfgObj => o.idVal ≤ o'.idVal)
    (tlvPage records).mfgObjs
  have htlv : (tlvPage records).mfgObjs.filter SidMfgOutBin.isTlv = records.map recordObj := by
    change (records.map recordObj).filter SidMfgOutBin.isTlv = _
    refine List.filter_eq_self.mpr fun obj hobj => ?_
    obtain ⟨e, -, rfl⟩ := List.mem_map.mp hobj
    rfl
  change (tlvPage records).iter.Perm _ at hperm
  change (tlvPage records).iter.Pairwise _ at hsorted
  have hfilter := hperm.filter SidMfgOutBin.isTlv
  rw [htlv] at hfilter
  have hids : ((tlvPage records).iter.filter SidMfgOutBin.isTlv).Pairwise (·.idVal ≠ ·.idVal) := by
    rw [hfilter.pairwise_iff fun h => h.symm, List.pairwise_map]
    refine (List.pairwise_map.mp hdistinct).imp fun h heq => h (UInt16.toNat_inj.mp heq)
  obtain ⟨magic, version, es, hrun, -, -, hes, hmagic, hversion⟩ :=
    SidMfgOutBin.foldlM_writeObj (List.replicate 4 0xFF) (List.replicate 4 0xFF) []
      (fun obj hobj => by
        rcases List.mem_cons.mp (hperm.mem_iff.mp hobj) with h | h
        · exact .inl h
        · rcases List.mem_cons.mp h with h | h
          · exact .inr (.inl h)
          · obtain ⟨e, -, rfl⟩ := List.mem_map.mp h
            exact .inr (.inr ⟨e, rfl⟩)) hids rfl rfl
  obtain rfl := hmagic (.inr (hperm.mem_iff.mpr List.mem_cons_self))
  obtain rfl := hversion (.inr (hperm.mem_iff.mpr (List.mem_cons_of_mem _ List.mem_cons_self)))
  refine ⟨SidMfgOutBin.image mfgHeaderMagic versionObj.encoded es, es, ?_, ?_, ?_, rfl⟩
  · change (do
      let (bin, _) ← (tlvPage records).iter.foldlM (SidMfgOutBin.writeObj true) _
      return bin) = _
    rw [List.nil_append] at hrun
    exact congrArg (fun r => r >>= fun p : SidMfgOutBin × Nat => pure p.1) hrun
  · rw [← hes] at hfilter
    exact (List.map_perm_map_iff recordObj_injective).mp hfilter
  · have hle := (hsorted.filter SidMfgOutBin.isTlv).and hids
    rw [← hes, List.pairwise_map] at hle
    exact hle.imp fun h => Nat.lt_of_le_of_ne h.1 h.2

end Sidewalk.Mfg
