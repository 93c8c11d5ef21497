import Sidewalk.Sbdt.InStep

/-!
# The files that are open

Files whose requests have been accepted one after the other: each has an entry with its size.
-/

namespace Sidewalk.Sbdt

open Sidewalk.Lib

variable {n : Nat}

/-- A file to transfer. -/
structure File where
  id : UInt32
  bytes : List UInt8
  small : bytes.length < 2 ^ 32

def File.size (file : File) : UInt32 := UInt32.ofNat file.bytes.length

/-- The requests for the files have been accepted, the last one first, with nothing in between. -/
inductive Accepted (asserts : Bool) : List File → Transfers n → Prop
  | none {s} : (bulkTransfers n asserts).init s → Accepted asserts [] s
  | request {files file s s' inDfu room request response final} : Accepted asserts files s →
      request.fileId = file.id → request.fileSize = file.size →
      onSbdtTransferRequest asserts inDfu room request response s = some (final, s') →
      final.status = .accept → Accepted asserts (file :: files) s'

/-! ## Accepted requests -/

/-- The reserved identifier is taken for an assigned one, or there is no slot. -/
theorem create_unused (size : Nat) (room : Bool) (pool : Scratch n) :
    scratchBufferCreate scratchFileIdUnused size room pool = (none, pool) := by
  obtain ⟨-, hcreate⟩ | ⟨i, htakes, hi, -⟩ := create_cases scratchFileIdUnused size room pool
  · exact hcreate
  · exact absurd (not_ne_iff.1 hi) (htakes.1 i)

theorem accepted_regular {asserts inDfu room : Bool} {request : TransferRequest}
    {response final : TransferResponse} {s s' : Transfers n}
    (h : onSbdtTransferRequest asserts inDfu room request response s = some (final, s'))
    (haccept : final.status = .accept) : request.fileId ≠ scratchFileIdUnused := by
  intro hid
  have hreject : final.status = .reject := by
    unfold onSbdtTransferRequest at h
    split at h
    · cases h
      rfl
    split at h
    · cases h
    next hnull =>
    cases hallocate : allocateNewInfoInstance request.fileId
        (releaseInfoInstance (getFileInfoById s.transferInfo request.fileId) s.transferInfo) with
    | none =>
      simp only [hallocate] at h
      cases h
      rfl
    | some claimed =>
      simp only [hallocate] at h
      have hcreate := create_unused request.minimumScratchBufferSize room s.pool
      rw [← hid] at hcreate
      obtain ⟨-, henter⟩ | ⟨-, henter⟩ := enterRequest_none asserts
        (fun hsize => not_and.1 hnull hsize) hcreate claimed.1 claimed.2
      · rw [henter] at h
        cases h
      · rw [henter] at h
        cases h
        rfl
  rw [haccept] at hreject
  cases hreject

/-! ## Entries -/

/-- The files have entries with their sizes. -/
def Transfers.Open (s : Transfers n) (files : List File) : Prop :=
  ∃ m, s.Stands m ∧ ∀ file ∈ files, ∃ info, m file.id = some info ∧ info.fileSize = file.size

/-- An accepted request was for a file without an entry, which has one now. -/
theorem Transfers.Stands.accepted {asserts inDfu room : Bool} {request : TransferRequest}
    {response final : TransferResponse} {s s' : Transfers n} {m : UInt32 → Option FileInfo}
    (h : s.Stands m)
    (hrequest : onSbdtTransferRequest asserts inDfu room request response s = some (final, s'))
    (haccept : final.status = .accept) :
    m request.fileId = none ∧ ∃ info : FileInfo, info.fileSize = request.fileSize ∧
      s'.Stands (Function.update m request.fileId (some info)) := by
  have hend := h.request_end asserts (accepted_regular hrequest haccept) inDfu room response
  rw [hrequest] at hend
  cases hend with
  | turnedAway hstatus =>
    rw [haccept] at hstatus
    cases hstatus
  | repeated _ _ _ hstatus =>
    rw [haccept] at hstatus
    cases hstatus
  | noMemory _ _ _ _ _ hstatus =>
    rw [haccept] at hstatus
    cases hstatus
  | served _ _ hnone _ _ _ _ _ _ hinfo hstands => exact ⟨hnone, _, hinfo, hstands⟩

theorem Transfers.Open.accept {asserts inDfu room : Bool} {request : TransferRequest}
    {response final : TransferResponse} {s s' : Transfers n} {files : List File} {file : File}
    (h : s.Open files) (hfile : request.fileId = file.id) (hsize : request.fileSize = file.size)
    (hrequest : onSbdtTransferRequest asserts inDfu room request response s = some (final, s'))
    (haccept : final.status = .accept) : s'.Open (file :: files) := by
  obtain ⟨m, hm, hfiles⟩ := h
  obtain ⟨hnone, info, hinfo, hstands⟩ := hm.accepted hrequest haccept
  refine ⟨_, hstands, fun other hother => ?_⟩
  rw [hfile] at hnone ⊢
  obtain rfl | hother := List.mem_cons.1 hother
  · exact ⟨_, Function.update_self .., hinfo.trans hsize⟩
  · obtain ⟨info, hentry, hsame⟩ := hfiles other hother
    refine ⟨info, ?_, hsame⟩
    rw [Function.update_of_ne, hentry]
    intro heq
    rw [heq, hnone] at hentry
    cases hentry

theorem Transfers.Open.release {s : Transfers n} {files : List File} {file : File}
    (h : s.Open files) (hfile : file ∈ files) :
    (onReleaseScratchBuffer file.id s).Open (files.filter (·.id ≠ file.id)) := by
  obtain ⟨m, hm, hfiles⟩ := h
  obtain ⟨info, hinfo, -⟩ := hfiles file hfile
  refine ⟨_, hm.release (hm.regular hinfo), fun other hother => ?_⟩
  obtain ⟨hmem, hne⟩ := List.mem_filter.1 hother
  obtain ⟨info, hentry, hsame⟩ := hfiles other hmem
  refine ⟨info, ?_, hsame⟩
  rw [Function.update_of_ne (by simpa using hne), hentry]

theorem accepted_open {asserts : Bool} {files : List File} {s : Transfers n}
    (h : Accepted asserts files s) : s.Open files := by
  induction h with
  | none hinit => exact ⟨_, init_stands hinit, nofun⟩
  | request _ hfile hsize hrequest haccept ih => exact ih.accept hfile hsize hrequest haccept

/-- The request that a file comes with, without a descriptor. -/
def requestOf (file : File) : TransferRequest := ⟨16, file.id, file.size, 64, none, 0⟩

end Sidewalk.Sbdt
