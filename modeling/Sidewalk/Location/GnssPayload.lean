import Mathlib
import Sidewalk.Lib.Memory

/-!
# The GNSS scan group

`sid_pal_gnss_get_scan_payload` of the LR1110. The scans of a group are written behind each other,
the last scan first, until the first of them would not fit. A group has at most
`GNSS_NAVGROUP_SIZE_MAX` scans with at most `GNSS_RESULT_SIZE_MAX` bytes each, and
`GNSS_MAX_PAYLOAD_SIZE` is just what these take with their headers: every group fits.
-/

namespace Sidewalk.Location

open Sidewalk.Lib

/-! ## The code -/

def nav3TlvHeaderSize : Nat := 3
def semtechGnssNgTag : UInt8 := 0x53
def gnssMaxPayloadSize : Nat := 106

/-- The length of the array `scans`. -/
def gnssNavgroupSizeMax : Nat := 2

/-- The bytes of `results_buffer` for a NAV message. -/
def gnssResultSizeMax : Nat := 50

inductive GnssError
  | none
  | generic
  | insufficientResults
  deriving DecidableEq

/-- A scan: the array that `nav` points to, and how much of it is the NAV message. -/
structure GnssScan where
  nav : Vector UInt8 gnssResultSizeMax
  navSize : UInt8
  navSize_le : navSize.toNat ≤ gnssResultSizeMax

def GnssScan.sent (scan : GnssScan) : List UInt8 := scan.nav.toList.take scan.navSize.toNat

structure GnssScanDone where
  isValid : Bool
  nbScansValid : UInt8
  scans : Vector GnssScan gnssNavgroupSizeMax
  nbScansValid_le : nbScansValid.toNat ≤ gnssNavgroupSizeMax

/-- The valid scans in the order of the loop, from the index `nb_scans_valid - 1` down to `0`. -/
def GnssScanDone.group (done : GnssScanDone) : List GnssScan :=
  (done.scans.toList.take done.nbScansValid.toNat).reverse

/-- `struct sid_pal_gnss_payload`. -/
structure GnssPayload where
  size : Nat
  payloadData : Mem
  rawData : Mem
  rawDataSize : Nat

/-- The payload, and where `payload_data` was written with how many bytes. -/
structure Encoder where
  payload : GnssPayload
  writes : List (Nat × Nat)

/-- The bytes are put behind the others. -/
def Encoder.put (e : Encoder) (bytes : List UInt8) : Encoder where
  payload := { e.payload with
    payloadData := e.payload.payloadData.blit e.payload.size bytes
    size := e.payload.size + bytes.length }
  writes := (e.payload.size, bytes.length) :: e.writes

def updateGnssNgHeader (grpToken : UInt8) (last : Bool) : UInt8 :=
  (if last then 0x80 else 0) ||| (grpToken &&& 0x1F)

/-- The four writes of one scan. -/
def Encoder.scan (e : Encoder) (grpToken : UInt8) (scan : GnssScan) (last : Bool) : Encoder :=
  let e := e.put [semtechGnssNgTag]
  let e := e.put [scan.navSize + 1]
  let e := e.put [updateGnssNgHeader grpToken last]
  let e := e.put scan.sent
  { e with payload := { e.payload with rawDataSize := 0 } }

/-- The loop, over the scans to go. `scan_idx` is zero in the round of the last of them. -/
def encodeScans (grpToken : UInt8) : List GnssScan → Encoder → GnssError × Encoder
  | [], e => (.none, e)
  | scan :: rest, e =>
    if e.payload.size + nav3TlvHeaderSize + scan.navSize.toNat > gnssMaxPayloadSize then
      (.generic, e)
    else encodeScans grpToken rest (e.scan grpToken scan rest.isEmpty)

/-- The `memset` of the payload. -/
def GnssPayload.clear (payload : GnssPayload) : GnssPayload where
  size := 0
  payloadData := payload.payloadData.fill 0 gnssMaxPayloadSize 0
  rawData := payload.rawData.fill 0 gnssMaxPayloadSize 0
  rawDataSize := 0

def sidPalGnssGetScanPayload (grpToken : UInt8) (done : GnssScanDone) (payload : GnssPayload) :
    GnssError × Encoder :=
  if done.isValid then
    encodeScans grpToken done.group ⟨payload.clear, []⟩
  else (.insufficientResults, ⟨payload, []⟩)

/-! ## Records -/

/-- A record behind its tag and its length. -/
structure GnssRecord where
  header : UInt8
  nav : List UInt8

/-- The bytes are these records. -/
inductive Splits : List UInt8 → List GnssRecord → Prop
  | nil : Splits [] []
  | cons {length header : UInt8} {nav rest : List UInt8} {records : List GnssRecord} :
    length.toNat = nav.length + 1 → Splits rest records →
      Splits (semtechGnssNgTag :: length :: header :: (nav ++ rest)) (⟨header, nav⟩ :: records)

/-- Bytes are records in one way only. -/
theorem Splits.unique {bytes : List UInt8} {records records' : List GnssRecord}
    (h : Splits bytes records) (h' : Splits bytes records') : records' = records := by
  induction h generalizing records' with
  | nil =>
    cases h'
    rfl
  | @cons length header nav rest records hlength _ ih =>
    generalize hbytes : semtechGnssNgTag :: length :: header :: (nav ++ rest) = bytes at h'
    cases h' with
    | nil => cases hbytes
    | @cons length' header' nav' rest' records' hlength' hrest' =>
      simp only [List.cons.injEq, true_and] at hbytes
      obtain ⟨rfl, rfl, hnav⟩ := hbytes
      obtain ⟨rfl, rfl⟩ := List.append_inj hnav (by omega)
      rw [ih hrest']

/-- What the group takes. -/
def GnssScanDone.total (done : GnssScanDone) : Nat :=
  (done.group.map fun scan => scan.navSize.toNat + nav3TlvHeaderSize).sum

/-- The bytes are the group. -/
structure IsGroup (done : GnssScanDone) (bytes : List UInt8) (records : List GnssRecord) :
    Prop where
  splits : Splits bytes records
  unique : ∀ records', Splits bytes records' → records' = records
  nav : records.map GnssRecord.nav = done.group.map GnssScan.sent
  token : ∃ token < 32, ∀ record ∈ records, record.header.toNat % 32 = token
  last : ∀ before record rest, records = before ++ record :: rest →
    (record.header &&& 0x80 ≠ 0 ↔ rest = [])

/-- What the call owes. -/
structure GnssEncoded (done : GnssScanDone) (result : GnssError × Encoder) : Prop where
  none_iff : result.1 = .none ↔ done.isValid ∧ done.total ≤ gnssMaxPayloadSize
  group : result.1 = .none → ∃ records,
    IsGroup done (result.2.payload.payloadData.slice 0 result.2.payload.size) records
  inside : ∀ write ∈ result.2.writes, write.1 + write.2 ≤ gnssMaxPayloadSize
  empty : result.1 = .generic → result.2.payload.size = 0

/-! ## What the loop writes -/

section

variable {grpToken : UInt8} {scans : List GnssScan}

theorem length_sent (scan : GnssScan) : scan.sent.length = scan.navSize.toNat := by
  unfold GnssScan.sent
  rw [List.length_take, Vector.length_toList, Nat.min_eq_left scan.navSize_le]

def scanBytes (grpToken : UInt8) (scan : GnssScan) (last : Bool) : List UInt8 :=
  semtechGnssNgTag :: (scan.navSize + 1) :: updateGnssNgHeader grpToken last :: scan.sent

theorem length_scanBytes (scan : GnssScan) (last : Bool) :
    (scanBytes grpToken scan last).length = scan.navSize.toNat + nav3TlvHeaderSize := by
  unfold scanBytes nav3TlvHeaderSize
  simp only [List.length_cons, length_sent]

theorem scan_size (grpToken : UInt8) (e : Encoder) (scan : GnssScan) (last : Bool) :
    (e.scan grpToken scan last).payload.size =
      e.payload.size + (scan.navSize.toNat + nav3TlvHeaderSize) := by
  unfold Encoder.scan Encoder.put nav3TlvHeaderSize
  simp only [List.length_singleton, length_sent]
  omega

theorem scan_payloadData (e : Encoder) (scan : GnssScan) (last : Bool) :
    (e.scan grpToken scan last).payload.payloadData =
      e.payload.payloadData.blit e.payload.size (scanBytes grpToken scan last) := by
  have hbytes : scanBytes grpToken scan last =
      [semtechGnssNgTag] ++ ([scan.navSize + 1] ++
        ([updateGnssNgHeader grpToken last] ++ scan.sent)) := rfl
  rw [hbytes, Mem.blit_append, Mem.blit_append, Mem.blit_append]
  rfl

/-- A scan that fits is written inside the array. -/
theorem scan_inside {e : Encoder} {scan : GnssScan} {last : Bool}
    (hfits : e.payload.size + nav3TlvHeaderSize + scan.navSize.toNat ≤ gnssMaxPayloadSize)
    (he : ∀ write ∈ e.writes, write.1 + write.2 ≤ gnssMaxPayloadSize) :
    ∀ write ∈ (e.scan grpToken scan last).writes, write.1 + write.2 ≤ gnssMaxPayloadSize := by
  unfold nav3TlvHeaderSize at hfits
  simp only [Encoder.scan, Encoder.put, List.forall_mem_cons, List.length_singleton, length_sent]
  refine ⟨?_, ?_, ?_, ?_, he⟩ <;> omega

/-- The size of the scans to go. -/
def groupSize (scans : List GnssScan) : Nat :=
  (scans.map fun scan => scan.navSize.toNat + nav3TlvHeaderSize).sum

@[simp] theorem groupSize_nil : groupSize [] = 0 := rfl

@[simp] theorem groupSize_cons (scan : GnssScan) (rest : List GnssScan) :
    groupSize (scan :: rest) = scan.navSize.toNat + nav3TlvHeaderSize + groupSize rest :=
  List.sum_cons

/-- The bytes of the scans to go. -/
def groupBytes (grpToken : UInt8) : List GnssScan → List UInt8
  | [] => []
  | scan :: rest => scanBytes grpToken scan rest.isEmpty ++ groupBytes grpToken rest

theorem length_groupBytes (grpToken : UInt8) (scans : List GnssScan) :
    (groupBytes grpToken scans).length = groupSize scans := by
  induction scans with
  | nil => rfl
  | cons scan rest ih =>
    rw [groupBytes, groupSize_cons, List.length_append, length_scanBytes, ih]

/-- Scans that fit are all written. -/
theorem encodeScans_fits (grpToken : UInt8) {e : Encoder}
    (h : e.payload.size + groupSize scans ≤ gnssMaxPayloadSize) :
    (encodeScans grpToken scans e).1 = .none ∧
      (encodeScans grpToken scans e).2.payload.size = e.payload.size + groupSize scans ∧
      (encodeScans grpToken scans e).2.payload.payloadData =
        e.payload.payloadData.blit e.payload.size (groupBytes grpToken scans) := by
  induction scans generalizing e with
  | nil =>
    refine ⟨rfl, rfl, ?_⟩
    rw [groupBytes, Mem.blit_nil]
    rfl
  | cons scan rest ih =>
    rw [groupSize_cons] at h ⊢
    rw [encodeScans, if_neg (by omega)]
    have hsize := scan_size grpToken e scan rest.isEmpty
    obtain ⟨hnone, hend, hdata⟩ := ih (e := e.scan grpToken scan rest.isEmpty) (by omega)
    refine ⟨hnone, by omega, ?_⟩
    rw [hdata, scan_payloadData, hsize, groupBytes, Mem.blit_append, length_scanBytes]

theorem encodeScans_inside {e : Encoder}
    (he : ∀ write ∈ e.writes, write.1 + write.2 ≤ gnssMaxPayloadSize) :
    ∀ write ∈ (encodeScans grpToken scans e).2.writes,
      write.1 + write.2 ≤ gnssMaxPayloadSize := by
  induction scans generalizing e with
  | nil => exact he
  | cons scan rest ih =>
    rw [encodeScans]
    split
    · exact he
    · next hfits => exact ih (scan_inside (Nat.le_of_not_lt hfits) he)

/-! ## What the bytes are -/

/-- The records of the scans to go. -/
def groupRecords (grpToken : UInt8) : List GnssScan → List GnssRecord
  | [] => []
  | scan :: rest =>
    ⟨updateGnssNgHeader grpToken rest.isEmpty, scan.sent⟩ :: groupRecords grpToken rest

theorem isEmpty_groupRecords (scans : List GnssScan) :
    (groupRecords grpToken scans).isEmpty = scans.isEmpty := by
  cases scans with
  | nil => rfl
  | cons scan rest => rfl

/-- The length of a NAV message does not wrap. -/
theorem splits_groupBytes (grpToken : UInt8) (scans : List GnssScan) :
    Splits (groupBytes grpToken scans) (groupRecords grpToken scans) := by
  induction scans with
  | nil => exact .nil
  | cons scan rest ih =>
    refine .cons ?_ ih
    have hle := scan.navSize_le
    rw [UInt8.toNat_add, length_sent]
    exact Nat.mod_eq_of_lt (by unfold gnssResultSizeMax at hle; change _ + 1 < 256; omega)

theorem nav_groupRecords (scans : List GnssScan) :
    (groupRecords grpToken scans).map GnssRecord.nav = scans.map GnssScan.sent := by
  induction scans with
  | nil => rfl
  | cons scan rest ih => rw [groupRecords, List.map_cons, List.map_cons, ih]

theorem header_token (last : Bool) :
    (updateGnssNgHeader grpToken last).toNat % 32 = grpToken.toNat % 32 := by
  have hmask : (grpToken &&& 0x1F).toNat = grpToken.toNat % 2 ^ 5 := by
    rw [UInt8.toNat_and]
    exact Nat.and_two_pow_sub_one_eq_mod grpToken.toNat 5
  unfold updateGnssNgHeader
  rw [UInt8.toNat_or, hmask]
  change _ % 2 ^ 5 = _ % 2 ^ 5
  rw [Nat.or_mod_two_pow, Nat.mod_mod]
  cases last <;> simp

theorem header_last (last : Bool) :
    updateGnssNgHeader grpToken last &&& 0x80 ≠ 0 ↔ last = true := by
  have hmask : grpToken &&& 0x1F &&& 0x80 = 0 := by
    rw [UInt8.and_assoc]
    exact UInt8.and_zero
  unfold updateGnssNgHeader
  cases last with
  | false =>
    rw [if_neg Bool.false_ne_true, UInt8.zero_or, hmask]
    decide
  | true =>
    refine iff_of_true (fun h => ?_) rfl
    have hbit := congrArg (fun b : UInt8 => b.toNat.testBit 7) h
    have hset : Nat.testBit 128 7 = true := by decide
    simp [hset] at hbit

/-- The end bit is in the last header only. -/
theorem last_groupRecords {before rest : List GnssRecord} {record : GnssRecord}
    (h : groupRecords grpToken scans = before ++ record :: rest) :
    record.header &&& 0x80 ≠ 0 ↔ rest = [] := by
  induction scans generalizing before with
  | nil =>
    rw [groupRecords] at h
    exact absurd h (by simp)
  | cons scan scans ih =>
    cases before with
    | nil =>
      rw [groupRecords, List.nil_append, List.cons.injEq] at h
      obtain ⟨rfl, rfl⟩ := h
      rw [header_last, ← isEmpty_groupRecords, List.isEmpty_iff]
    | cons first before =>
      rw [groupRecords, List.cons_append, List.cons.injEq] at h
      exact ih h.2

theorem token_groupRecords (scans : List GnssScan) :
    ∀ record ∈ groupRecords grpToken scans, record.header.toNat % 32 = grpToken.toNat % 32 := by
  induction scans with
  | nil => exact fun record hrecord => absurd hrecord List.not_mem_nil
  | cons scan rest ih =>
    rw [groupRecords, List.forall_mem_cons]
    exact ⟨header_token _, ih⟩

end

/-! ## The call -/

section

variable {grpToken : UInt8} {done : GnssScanDone} {payload : GnssPayload}

/-- What a group takes grows with its scans. -/
theorem groupSize_le (scans : List GnssScan) :
    groupSize scans ≤ scans.length * (gnssResultSizeMax + nav3TlvHeaderSize) := by
  induction scans with
  | nil => exact Nat.zero_le _
  | cons scan rest ih =>
    have hle := scan.navSize_le
    rw [groupSize_cons, List.length_cons, Nat.add_mul, Nat.one_mul]
    omega

/-- Every group fits. -/
theorem total_le (done : GnssScanDone) : done.total ≤ gnssMaxPayloadSize := by
  have hlen : done.group.length ≤ gnssNavgroupSizeMax := by
    unfold GnssScanDone.group
    rw [List.length_reverse, List.length_take, Vector.length_toList]
    exact Nat.min_le_right _ _
  refine Nat.le_trans (groupSize_le done.group) ?_
  exact Nat.mul_le_mul_right (gnssResultSizeMax + nav3TlvHeaderSize) hlen

theorem isGroup_groupBytes : IsGroup done (groupBytes grpToken done.group)
    (groupRecords grpToken done.group) := by
  have hsplits := splits_groupBytes grpToken done.group
  refine ⟨hsplits, fun _ => hsplits.unique, nav_groupRecords _, ?_,
    fun _ _ _ => last_groupRecords⟩
  exact ⟨grpToken.toNat % 32, Nat.mod_lt _ (by decide), token_groupRecords _⟩

/-- The call answers that there are no results, or writes the whole group. -/
theorem getScanPayload_encoded (grpToken : UInt8) (done : GnssScanDone) (payload : GnssPayload) :
    GnssEncoded done (sidPalGnssGetScanPayload grpToken done payload) := by
  have hle := total_le done
  unfold sidPalGnssGetScanPayload
  by_cases hvalid : done.isValid
  · rw [if_pos hvalid]
    have hzero : payload.clear.size = 0 := rfl
    have hfits : payload.clear.size + groupSize done.group ≤ gnssMaxPayloadSize :=
      (Nat.zero_add _).trans_le hle
    obtain ⟨hnone, hsize, hdata⟩ := encodeScans_fits grpToken (e := ⟨payload.clear, []⟩) hfits
    refine ⟨iff_of_true hnone ⟨hvalid, hle⟩, fun _ => ⟨groupRecords grpToken done.group, ?_⟩,
      encodeScans_inside fun _ hwrite => absurd hwrite List.not_mem_nil,
      fun hgeneric => absurd (hnone.symm.trans hgeneric) (by decide)⟩
    rw [hsize, hdata]
    simp only [hzero, Nat.zero_add]
    rw [← length_groupBytes grpToken, Mem.slice_blit]
    exact isGroup_groupBytes
  · rw [if_neg hvalid]
    exact ⟨iff_of_false GnssError.noConfusion fun h => hvalid h.1, GnssError.noConfusion,
      fun _ hwrite => absurd hwrite List.not_mem_nil, GnssError.noConfusion⟩

end

end Sidewalk.Location
