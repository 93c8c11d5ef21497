import Sidewalk.Lib.Crc
import Sidewalk.Sbdt.Accepted
import Sidewalk.Storage.Refinement

/-!
# The checksum of a transfer

`on_sbdt_data_received`: the running checksum of a file is carried from block to block, and over a
reboot, by one record of the storage, which a block at offset zero deletes. `carried` is what the
record stands for, the bytes that came since the last such block of any file.
-/

namespace Sidewalk.Sbdt

open Sidewalk.Lib Sidewalk.Lib.Crc Sidewalk.Storage

/-! ## The code -/

def fileTransferCrcGroup : UInt16 := 0xB
def fileTransferCrcKey : UInt16 := 1

/-- A word of four bytes, the lowest first; those that are missing are zero. -/
def ofLeBytes4 (bytes : List UInt8) : UInt32 :=
  UInt32.ofNat (((bytes[0]?).getD 0).toNat + 256 * ((bytes[1]?).getD 0).toNat +
    65536 * ((bytes[2]?).getD 0).toNat + 16777216 * ((bytes[3]?).getD 0).toNat)

/-- Where a word is stored. -/
def memOfWord (v : UInt32) : Mem := Mem.blit (fun _ => 0) 0 (leBytes4 v)

/-- What is logged of the checksum. -/
inductive Report
  | fileReceived (fileId fileSize fileCrc : UInt32)
  | updatedCrc (crc : UInt32)
  deriving DecidableEq

/-- `struct sbdt_buffer_release_ctx`. -/
structure BufferRelease where
  fileId : UInt32
  data : List UInt8
  delayMs : UInt32
  deriving DecidableEq

/-- What the callback does with a block: it cancels the transfer, or drops the block of a file that
has no entry, or takes it, with the release of its buffer if there is memory for that. -/
inductive Reception
  | cancelled (fileId : UInt32)
  | dropped
  | taken (report : Report) (release : Option BufferRelease)
  deriving DecidableEq

structure Receiver (n : Nat) where
  transfers : Transfers n
  kv : Kv

variable {n : Nat}

def onSbdtDataReceived (build : Build) (crc32IeeeUpdate : UInt32 → List UInt8 → UInt32)
    (inDfu room : Bool) (fileId fileOffset : UInt32) (data : List UInt8) (s : Receiver n) :
    Reception × Receiver n :=
  if inDfu = true then (.cancelled fileId, s)
  else
    match getFileInfoById s.transfers.transferInfo fileId with
    | none => (.dropped, s)
    | some i =>
      let kv := if fileOffset = 0 then (groupDelete build s.kv fileTransferCrcGroup).2 else s.kv
      let stored := (recordGet build kv fileTransferCrcGroup fileTransferCrcKey 4).2
      let crc := crc32IeeeUpdate (stored.elim 0 ofLeBytes4) data
      let info := { s.transfers.transferInfo i with fileOffset := fileOffset, crc := crc }
      let report :=
        if info.fileSize = info.fileOffset + UInt32.ofNat data.length then
          .fileReceived info.fileId info.fileSize info.crc
        else .updatedCrc info.crc
      let release :=
        if room = true then some ⟨fileId, data, s.transfers.context.releaseBufferDelayMs⟩ else none
      (.taken report release,
        { transfers := { s.transfers with
            transferInfo := Function.update s.transfers.transferInfo i info }
          kv := (recordSet build kv fileTransferCrcGroup fileTransferCrcKey
            (memOfWord info.crc) 4).2 })

/-! ## The blocks of several files -/

/-- A request is accepted, a file is released, a block is passed to the callback, or the device
reboots. -/
inductive ReceiverEvent
  | accepted (file : File)
  | released (fileId : UInt32)
  | block (fileId : UInt32) (data : List UInt8) (room : Bool)
  | reboot

/-- The files that have been accepted and not been released. -/
def opened : List ReceiverEvent → List File
  | [] => []
  | .accepted file :: history => file :: opened history
  | .released fileId :: history => (opened history).filter (·.id ≠ fileId)
  | .block _ _ _ :: history => opened history
  | .reboot :: history => opened history

/-- The bytes that have come of the file since it was accepted first. -/
def received (fileId : UInt32) : List ReceiverEvent → List UInt8
  | [] => []
  | .accepted file :: history => if file.id = fileId then [] else received fileId history
  | .released _ :: history => received fileId history
  | .block fileId' data _ :: history =>
    if fileId' = fileId then received fileId history ++ data else received fileId history
  | .reboot :: history => received fileId history

/-- The bytes of any file since the last block at offset zero. -/
def carried : List ReceiverEvent → List UInt8
  | [] => []
  | .accepted _ :: history => carried history
  | .released _ :: history => carried history
  | .block fileId data _ :: history =>
    if received fileId history = [] then data else carried history ++ data
  | .reboot :: history => carried history

/-- Where the next block of the file starts. -/
def nextOffset (fileId : UInt32) (history : List ReceiverEvent) : UInt32 :=
  UInt32.ofNat (received fileId history).length

section

variable (asserts : Bool) (build : Build) (crc32IeeeUpdate : UInt32 → List UInt8 → UInt32)

/-- The state has the history of the run. A block is the next one of an open file; in DFU mode it
would cancel the transfer. After a reboot the open files are requested again. -/
inductive ReceiverStep :
    Receiver n × List ReceiverEvent → ReceiverEvent → Receiver n × List ReceiverEvent → Prop
  | accepted {s history file inDfu room request response final transfers} :
      request.fileId = file.id → request.fileSize = file.size →
      onSbdtTransferRequest asserts inDfu room request response s.transfers =
        some (final, transfers) →
      final.status = .accept →
      ReceiverStep (s, history) (.accepted file) (⟨transfers, s.kv⟩, .accepted file :: history)
  | released {s history file} : file ∈ opened history →
      ReceiverStep (s, history) (.released file.id)
        (⟨onReleaseScratchBuffer file.id s.transfers, s.kv⟩, .released file.id :: history)
  | block {s history file data room} : file ∈ opened history →
      received file.id history ++ data <+: file.bytes →
      ReceiverStep (s, history) (.block file.id data room)
        ((onSbdtDataReceived build crc32IeeeUpdate false room file.id (nextOffset file.id history)
            data s).2,
          .block file.id data room :: history)
  | reboot {s history files transfers} : files.Perm (opened history) →
      Accepted asserts files transfers →
      ReceiverStep (s, history) .reboot (⟨transfers, s.kv⟩, .reboot :: history)

/-- The runs start without files, over a storage that its own calls have left. -/
def receptions (n : Nat) : System (Receiver n × List ReceiverEvent) ReceiverEvent where
  init s := (bulkTransfers n asserts).init s.1.transfers ∧ (∃ value, Tracks build s.1.kv value) ∧
    s.2 = []
  step := ReceiverStep asserts build crc32IeeeUpdate

end

/-- `crc32_ieee_update` updates an IEEE conforming CRC-32. -/
def Ieee (crc32IeeeUpdate : UInt32 → List UInt8 → UInt32) : Prop :=
  ∀ crc data, crc32IeeeUpdate crc data = crc32Update crc data

/-- The block completes the file, and the checksum of the whole file is reported. -/
def Reception.ReportsFile (r : Reception) (file : File) : Prop :=
  ∃ release, r = .taken (.fileReceived file.id file.size (crc32 file.bytes)) release

/-! ## The record -/

theorem ofLeBytes4_leBytes4 (v : UInt32) : ofLeBytes4 (leBytes4 v) = v := by
  apply UInt32.toNat_inj.1
  have hv := v.toNat_lt
  simp [ofLeBytes4, leBytes4, Nat.shiftRight_eq_div_pow]
  omega

theorem slice_memOfWord (v : UInt32) : (memOfWord v).slice 0 4 = leBytes4 v :=
  Mem.slice_blit _ 0 (leBytes4 v)

theorem storage2keyId_crc (build : Build) :
    storage2keyId build fileTransferCrcGroup fileTransferCrcKey = none :=
  if_neg fun h => absurd h.2 (by decide)

/-- The checksum that the callback goes on from. -/
def runningCrc (fileOffset : UInt32) (record : Option (List UInt8)) : UInt32 :=
  if fileOffset = 0 then 0 else record.elim 0 fun bytes => ofLeBytes4 (bytes.take 4)

theorem runningCrc_leBytes4 {fileOffset : UInt32} (h : fileOffset ≠ 0) (crc : UInt32) :
    runningCrc fileOffset (some (leBytes4 crc)) = crc :=
  (if_neg h).trans (ofLeBytes4_leBytes4 crc)

section

variable {build : Build} {kv : Kv} {value : UInt16 → UInt16 → Option (List UInt8)}

/-- What a block at offset zero leaves of the storage. -/
theorem tracks_reset (h : Tracks build kv value) (fileOffset : UInt32) :
    ∃ value', Tracks build
        (if fileOffset = 0 then (groupDelete build kv fileTransferCrcGroup).2 else kv) value' ∧
      (value' fileTransferCrcGroup fileTransferCrcKey).elim 0
          (fun bytes => ofLeBytes4 (bytes.take 4)) =
        runningCrc fileOffset (value fileTransferCrcGroup fileTransferCrcKey) := by
  unfold runningCrc
  by_cases hzero : fileOffset = 0
  · rw [if_pos hzero, if_pos hzero]
    exact ⟨_, tracks_groupDelete h fileTransferCrcGroup, by simp⟩
  · rw [if_neg hzero, if_neg hzero]
    exact ⟨value, h, rfl⟩

theorem crc_stored (h : Tracks build kv value) :
    (recordGet build kv fileTransferCrcGroup fileTransferCrcKey 4).2.elim 0 ofLeBytes4 =
      (value fileTransferCrcGroup fileTransferCrcKey).elim 0
        fun bytes => ofLeBytes4 (bytes.take 4) := by
  rw [recordGet_plain h (storage2keyId_crc build)]
  cases value fileTransferCrcGroup fileTransferCrcKey with
  | none => rfl
  | some bytes => rfl

end

/-! ## One block -/

/-- An entry is written without a change of its file or its buffer. -/
theorem Transfers.Stands.rewrite {s : Transfers n} {m : UInt32 → Option FileInfo}
    (h : s.Stands m) {fileId : UInt32} {i : Fin n} (hi : s.Entry fileId i) {info : FileInfo}
    (hconsumed : info.isConsumed = true) (hid : info.fileId = fileId)
    (hscratch : info.scratch = (s.transferInfo i).scratch) :
    Transfers.Stands { s with transferInfo := Function.update s.transferInfo i info }
      (Function.update m fileId (some info)) where
  kept := h.kept
  zero j hj := by
    by_cases hij : j = i
    · subst hij
      simp [hconsumed] at hj
    · simp only [Function.update_of_ne hij] at hj ⊢
      exact h.zero j hj
  info := by
    have hreplace := h.info.replace (infoSlot_eq_some.2 ⟨hi.1, hi.2, rfl⟩) info
    rw [Function.comp_update]
    rwa [← infoSlot_eq_some.2 ⟨hconsumed, hid, rfl⟩] at hreplace
  slots := by
    have hsame : (Option.map FileInfo.scratch ∘ Function.update m fileId (some info)) =
        Option.map FileInfo.scratch ∘ m := by
      rw [Function.comp_update, Function.update_eq_self_iff, Function.comp_apply, h.entry hi,
        Option.map_some, Option.map_some, hscratch]
    rw [hsame]
    exact h.slots

/-- The files have entries, and the record of the storage is the given one. -/
structure Receiver.Ready (build : Build) (files : List File) (s : Receiver n)
    (record : Option (List UInt8)) : Prop where
  files : s.transfers.Open files
  record : ∃ value, Tracks build s.kv value ∧
    value fileTransferCrcGroup fileTransferCrcKey = record

section Block

variable {build : Build} {files : List File} {s : Receiver n} {record : Option (List UInt8)}
  {crc32IeeeUpdate : UInt32 → List UInt8 → UInt32}

/-- The callback goes on from the record, reports the checksum and makes it the record. -/
theorem dataReceived_ready (h : s.Ready build files record) {file : File} (hfile : file ∈ files)
    (room : Bool) (fileOffset : UInt32) (data : List UInt8) {crc : UInt32}
    (hcrc : crc32IeeeUpdate (runningCrc fileOffset record) data = crc) :
    (∃ release, (onSbdtDataReceived build crc32IeeeUpdate false room file.id fileOffset data s).1 =
      .taken (if file.size = fileOffset + UInt32.ofNat data.length then
        .fileReceived file.id file.size crc else .updatedCrc crc) release) ∧
    (onSbdtDataReceived build crc32IeeeUpdate false room file.id fileOffset data s).2.Ready build
      files (some (leBytes4 crc)) := by
  obtain ⟨m, hm, hopen⟩ := h.files
  obtain ⟨info, hinfo, hsize⟩ := hopen file hfile
  obtain ⟨i, hget, hentry, rfl⟩ := hm.getFileInfoById_some hinfo
  obtain ⟨value, hvalue, hrecord⟩ := h.record
  obtain ⟨value', hvalue', hrunning⟩ := tracks_reset hvalue fileOffset
  rw [hrecord] at hrunning
  unfold onSbdtDataReceived
  simp only [Bool.false_eq_true, if_false, hget, crc_stored hvalue', hrunning, hcrc, hentry.2,
    hsize]
  refine ⟨⟨_, rfl⟩, ⟨⟨_, hm.rewrite hentry hentry.1 rfl rfl, ?_⟩, ?_⟩⟩
  · intro other hother
    obtain ⟨info, hinfo, hsame⟩ := hopen other hother
    by_cases hid : other.id = file.id
    · rw [hid, Function.update_self]
      refine ⟨_, rfl, ?_⟩
      rw [hid, hm.entry hentry] at hinfo
      cases hinfo
      exact hsize.symm.trans hsame
    · rw [Function.update_of_ne hid]
      exact ⟨info, hinfo, hsame⟩
  · refine ⟨_, tracks_recordSet_plain hvalue' (storage2keyId_crc build) (memOfWord crc)
      (by decide), ?_⟩
    rw [slice_memOfWord]
    exact if_pos ⟨rfl, rfl⟩

end Block

/-! ## Runs -/

/-- Once a block has come, the record is the checksum of what is carried. -/
def Carries (record : Option (List UInt8)) (history : List ReceiverEvent) : Prop :=
  ∀ fileId, received fileId history ≠ [] → record = some (leBytes4 (crc32 (carried history)))

theorem nextOffset_eq_zero {file : File} {data : List UInt8} {history : List ReceiverEvent}
    (hpart : received file.id history ++ data <+: file.bytes) :
    nextOffset file.id history = 0 ↔ received file.id history = [] := by
  have hlength := hpart.length_le
  have hsmall := file.small
  rw [List.length_append] at hlength
  unfold nextOffset
  constructor
  · intro hzero
    have hnat := congrArg UInt32.toNat hzero
    have hlt : (received file.id history).length < UInt32.size := by
      change _ < 2 ^ 32
      omega
    rw [UInt32.toNat_ofNat_of_lt' hlt] at hnat
    exact List.length_eq_zero_iff.1 hnat
  · intro hnil
    rw [hnil]
    rfl

/-- The checksum that the block leaves. -/
theorem runningCrc_carried {crc32IeeeUpdate : UInt32 → List UInt8 → UInt32}
    (hcrc : Ieee crc32IeeeUpdate) {record : Option (List UInt8)} {history : List ReceiverEvent}
    (hcarries : Carries record history) {file : File} {data : List UInt8}
    (hpart : received file.id history ++ data <+: file.bytes) (room : Bool) :
    crc32IeeeUpdate (runningCrc (nextOffset file.id history) record) data =
      crc32 (carried (.block file.id data room :: history)) := by
  rw [hcrc, carried]
  by_cases hnil : received file.id history = []
  · rw [if_pos hnil, runningCrc, if_pos ((nextOffset_eq_zero hpart).2 hnil)]
    rfl
  · rw [if_neg hnil, hcarries file.id hnil,
      runningCrc_leBytes4 (mt (nextOffset_eq_zero hpart).1 hnil), crc32_append]

section Runs

variable {asserts : Bool} {build : Build} {crc32IeeeUpdate : UInt32 → List UInt8 → UInt32}
  {s : Receiver n} {history : List ReceiverEvent}

theorem reached_ready (hcrc : Ieee crc32IeeeUpdate)
    (h : (receptions asserts build crc32IeeeUpdate n).Reachable (s, history)) :
    ∃ record, s.Ready build (opened history) record ∧ Carries record history := by
  refine h.invariant
    (I := fun x => ∃ record, x.1.Ready build (opened x.2) record ∧ Carries record x.2) ?_ ?_
  · rintro ⟨s, history⟩ ⟨hinit, ⟨value, hvalue⟩, rfl⟩
    exact ⟨_, ⟨⟨_, init_stands hinit, fun file hfile => (nomatch hfile)⟩, value, hvalue, rfl⟩,
      fun fileId hne => absurd rfl hne⟩
  · rintro x e y ⟨record, hready, hcarries⟩ - hstep
    cases hstep with
    | @accepted _ _ file _ _ _ _ _ _ hfile hsize hrequest haccept =>
      refine ⟨record, ⟨hready.files.accept hfile hsize hrequest haccept, hready.record⟩, ?_⟩
      intro fileId hne
      by_cases hid : file.id = fileId
      · simp [received, hid] at hne
      · rw [received, if_neg hid] at hne
        exact hcarries fileId hne
    | released hfile =>
      exact ⟨record, ⟨hready.files.release hfile, hready.record⟩, hcarries⟩
    | block hfile hpart =>
      exact ⟨_, (dataReceived_ready hready hfile _ _ _
        (runningCrc_carried hcrc hcarries hpart _)).2, fun _ _ => rfl⟩
    | reboot hperm haccepted =>
      obtain ⟨m, hm, hopen⟩ := accepted_open haccepted
      refine ⟨record, ⟨⟨m, hm, fun file hfile => ?_⟩, hready.record⟩, hcarries⟩
      exact hopen file (hperm.mem_iff.2 hfile)

/-- What is reported of the last block of a file: the checksum of what is carried. -/
theorem reported_carried (hcrc : Ieee crc32IeeeUpdate)
    (h : (receptions asserts build crc32IeeeUpdate n).Reachable (s, history)) {file : File}
    (hfile : file ∈ opened history) {data : List UInt8}
    (hlast : received file.id history ++ data = file.bytes) (room : Bool) :
    ∃ release, (onSbdtDataReceived build crc32IeeeUpdate false room file.id
        (nextOffset file.id history) data s).1 =
      .taken (.fileReceived file.id file.size
        (crc32 (carried (.block file.id data room :: history)))) release := by
  obtain ⟨record, hready, hcarries⟩ := reached_ready hcrc h
  have hpart : received file.id history ++ data <+: file.bytes := by
    rw [hlast]
  have hsize : file.size = nextOffset file.id history + UInt32.ofNat data.length := by
    rw [File.size, nextOffset, ← hlast, List.length_append, UInt32.ofNat_add]
  obtain ⟨hreport, -⟩ := dataReceived_ready hready hfile room (nextOffset file.id history) data
    (runningCrc_carried hcrc hcarries hpart room)
  rwa [if_pos hsize] at hreport

/-- The event is not a block of another file, nor does the file start anew. -/
def ReceiverEvent.Leaves (fileId : UInt32) : ReceiverEvent → Prop
  | .accepted file => file.id ≠ fileId
  | .released _ => True
  | .block fileId' _ _ => fileId' = fileId
  | .reboot => True

/-- What is carried is what has come of the file, when no block of another file has come since its
first one. -/
theorem carried_of_alone {fileId : UInt32} {newer older : List ReceiverEvent}
    (holder : received fileId older = []) (hnewer : ∀ e ∈ newer, e.Leaves fileId)
    (hne : received fileId (newer ++ older) ≠ []) :
    carried (newer ++ older) = received fileId (newer ++ older) := by
  induction newer with
  | nil => exact absurd holder hne
  | cons e newer ih =>
    have ih := ih fun e he => hnewer e (List.mem_cons_of_mem _ he)
    have he := hnewer e List.mem_cons_self
    cases e with
    | accepted file =>
      rw [List.cons_append, received, if_neg he] at hne ⊢
      exact ih hne
    | released fileId' => exact ih hne
    | block fileId' data room =>
      obtain rfl : fileId' = fileId := he
      simp only [List.cons_append, carried, received, if_true]
      by_cases hnil : received fileId' (newer ++ older) = []
      · simp [hnil]
      · rw [if_neg hnil, ih hnil]
    | reboot => exact ih hne

/-- The checksum of a file is reported as it should be exactly when its last block is its first one,
or what is carried has the checksum of what has come of the file. -/
theorem reported_checksum_iff (hcrc : Ieee crc32IeeeUpdate)
    (h : (receptions asserts build crc32IeeeUpdate n).Reachable (s, history)) {file : File}
    (hfile : file ∈ opened history) {data : List UInt8}
    (hlast : received file.id history ++ data = file.bytes) (room : Bool) :
    (onSbdtDataReceived build crc32IeeeUpdate false room file.id (nextOffset file.id history)
        data s).1.ReportsFile file ↔
      received file.id history = [] ∨
        crc32 (carried history) = crc32 (received file.id history) := by
  obtain ⟨release, hreport⟩ := reported_carried hcrc h hfile hlast room
  have hsame : Reception.ReportsFile (.taken (.fileReceived file.id file.size
      (crc32 (carried (.block file.id data room :: history)))) release) file ↔
      crc32 (carried (.block file.id data room :: history)) = crc32 file.bytes := by
    constructor
    · rintro ⟨_, heq⟩
      simp only [Reception.taken.injEq, Report.fileReceived.injEq, true_and] at heq
      exact heq.1
    · intro heq
      exact ⟨release, by rw [heq]⟩
  rw [hreport, hsame, ← hlast, carried]
  by_cases hnil : received file.id history = []
  · rw [if_pos hnil, hnil]
    simp
  · rw [if_neg hnil, crc32_append, crc32_append, (crc32Update_injective data).eq_iff]
    simp [hnil]

end Runs

/-! ## Two files -/

def fileA : File := ⟨1, [0x41, 0x42], by decide⟩
def fileB : File := ⟨2, [0x43], by decide⟩

def acceptedBoth : List ReceiverEvent := [.accepted fileA, .accepted fileB]

/-- The request for the file has been answered. -/
def Receiver.ask (s : Receiver 3) (file : File) : Receiver 3 :=
  ⟨s.transfers.after true (.request false true (requestOf file) ⟨.reject, .none, none, 0⟩), s.kv⟩

/-- Both files are open. -/
def bothOpen : Receiver 3 := (Receiver.ask ⟨freshTransfers 3, emptyKv⟩ fileB).ask fileA

section

variable {s : Receiver 3} {history : List ReceiverEvent} {file : File}

theorem step_ask (h : (receptions true psaBuild crc32Update 3).Reachable (s, history))
    (haccept : (onSbdtTransferRequest true false true (requestOf file) ⟨.reject, .none, none, 0⟩
      s.transfers).map (fun answer => answer.1.status) = some .accept) :
    (receptions true psaBuild crc32Update 3).Reachable
      (s.ask file, .accepted file :: history) := by
  obtain ⟨⟨final, transfers⟩, hrequest, hstatus⟩ := Option.map_eq_some_iff.1 haccept
  have hask : s.ask file = ⟨transfers, s.kv⟩ := by
    simp [Receiver.ask, Transfers.after, Transfers.handle, hrequest]
  rw [hask]
  exact h.step trivial (.accepted rfl rfl hrequest hstatus)

end

theorem bothOpen_reached :
    (receptions true psaBuild crc32Update 3).Reachable (bothOpen, acceptedBoth) := by
  have hinit : (receptions true psaBuild crc32Update 3).Reachable
      (⟨freshTransfers 3, emptyKv⟩, []) :=
    .init ⟨⟨fun _ => rfl, rfl⟩, ⟨_, tracks_fresh emptyKv_fresh⟩, rfl⟩
  exact step_ask (step_ask hinit rfl) rfl

/-- The receiver after the next block of the file. -/
def Receiver.take (s : Receiver 3) (file : File) (history : List ReceiverEvent)
    (data : List UInt8) : Receiver 3 :=
  (onSbdtDataReceived psaBuild crc32Update false true file.id (nextOffset file.id history) data s).2

/-- The first block of the longer file has come. -/
def firstHistory : List ReceiverEvent := .block fileA.id [0x41] true :: acceptedBoth

def firstBlock : Receiver 3 := bothOpen.take fileA acceptedBoth [0x41]

theorem firstBlock_reached :
    (receptions true psaBuild crc32Update 3).Reachable (firstBlock, firstHistory) :=
  bothOpen_reached.step trivial (.block List.mem_cons_self ⟨[0x42], rfl⟩)

theorem checksum_reported_alone :
    (onSbdtDataReceived psaBuild crc32Update false true fileA.id
      (nextOffset fileA.id firstHistory) [0x42] firstBlock).1.ReportsFile fileA :=
  have halone : ∀ e ∈ [.block fileA.id [0x41] true], ReceiverEvent.Leaves fileA.id e := by
    intro e he
    rw [List.mem_singleton.1 he]
    rfl
  have hcarried : carried firstHistory = received fileA.id firstHistory :=
    @carried_of_alone fileA.id [_] acceptedBoth rfl halone nofun
  (reported_checksum_iff (fun _ _ => rfl) firstBlock_reached List.mem_cons_self rfl true).2
    (.inr (congrArg crc32 hcarried))

/-- The other file comes as a whole in between. -/
def otherHistory : List ReceiverEvent := .block fileB.id [0x43] true :: firstHistory

def otherBlock : Receiver 3 := firstBlock.take fileB firstHistory [0x43]

/-- The checksum that is reported is that of the other file's byte and the second block. -/
theorem checksum_of_interleaved :
    (receptions true psaBuild crc32Update 3).Reachable (otherBlock, otherHistory) ∧
      fileA ∈ opened otherHistory ∧ received fileA.id otherHistory ++ [0x42] = fileA.bytes ∧
      ¬ (onSbdtDataReceived psaBuild crc32Update false true fileA.id
        (nextOffset fileA.id otherHistory) [0x42] otherBlock).1.ReportsFile fileA := by
  have hreached : (receptions true psaBuild crc32Update 3).Reachable (otherBlock, otherHistory) :=
    firstBlock_reached.step trivial
      (.block (List.mem_cons_of_mem _ List.mem_cons_self) (List.prefix_refl _))
  have hopen : fileA ∈ opened otherHistory := List.mem_cons_self
  have hlast : received fileA.id otherHistory ++ [0x42] = fileA.bytes := rfl
  refine ⟨hreached, hopen, hlast, ?_⟩
  rintro ⟨release, hreport⟩
  obtain ⟨release', hreport'⟩ := reported_carried (fun _ _ => rfl) hreached hopen hlast true
  have hcrc : crc32 (carried (.block fileA.id [0x42] true :: otherHistory)) =
      crc32 fileA.bytes := by
    have hsame := hreport'.symm.trans hreport
    simp only [Reception.taken.injEq, Report.fileReceived.injEq, true_and] at hsame
    exact hsame.1
  revert hcrc
  decide +kernel

end Sidewalk.Sbdt
