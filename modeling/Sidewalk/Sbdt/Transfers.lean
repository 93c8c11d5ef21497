import Sidewalk.Lib.Memory
import Sidewalk.Lib.Slots
import Sidewalk.Sbdt.ScratchBuffer

/-!
# The open transfers

`sbdt_shell_file_transfer.c`: a request for a transfer enters the file into `transfer_info` and asks
the pool for a buffer, and a release takes both back. Each table finds its free slots in its own
way. They are in step when they stand for one map from files to entries.
-/

namespace Sidewalk.Sbdt

open Sidewalk.Lib

/-! ## The code -/

/-- `enum sid_bulk_data_transfer_action`. -/
inductive TransferAction
  | accept
  | reject
  deriving DecidableEq

/-- `enum sid_bulk_data_transfer_reject_reason`. -/
inductive RejectReason
  | none
  | generic
  | fileTooBig
  | noSpace
  | lowBattery
  | fileVerificationFailed
  | fileAlreadyExists
  | invalidFragmentSize
  deriving DecidableEq

def fileDescriptorMaxSize : Nat := 128

/-- `struct sbdt_file_info`; `scratch` is the number of a block. -/
structure FileInfo where
  isConsumed : Bool
  blockSize : UInt32
  crc : UInt32
  fileId : UInt32
  fileSize : UInt32
  fileOffset : UInt32
  minimumScratchBufferSize : Nat
  fileDescriptorSize : UInt32
  fileDescriptor : List UInt8
  scratch : Option Nat
  deriving DecidableEq

def FileInfo.zero : FileInfo :=
  ⟨false, 0, 0, 0, 0, 0, 0, 0, List.replicate fileDescriptorMaxSize 0, none⟩

/-- `struct sid_bulk_data_transfer_request`. -/
structure TransferRequest where
  fragmentSize : UInt32
  fileId : UInt32
  fileSize : UInt32
  minimumScratchBufferSize : Nat
  fileDescriptor : Option Mem
  fileDescriptorSize : UInt32

/-- `struct sid_bulk_data_transfer_response`. -/
structure TransferResponse where
  status : TransferAction
  rejectReason : RejectReason
  scratchBuffer : Option Nat
  scratchBufferSize : Nat
  deriving DecidableEq

/-- `struct sbdt_context`, whose action and reason the shell sets. -/
structure SbdtContext where
  transferRequestAction : TransferAction
  transferRequestRejectReason : RejectReason
  releaseBufferDelayMs : UInt32
  startedTransfer : Bool
  deriving DecidableEq

structure Transfers (n : Nat) where
  transferInfo : Fin n → FileInfo
  pool : Scratch n
  context : SbdtContext

variable {n : Nat}

def getFileInfoById (transferInfo : Fin n → FileInfo) (fileId : UInt32) : Option (Fin n) :=
  (List.finRange n).find? fun i =>
    (transferInfo i).fileId = fileId ∧ (transferInfo i).isConsumed = true

/-- The entry that is claimed for a file. -/
def FileInfo.claimed (fileId : UInt32) : FileInfo :=
  { FileInfo.zero with isConsumed := true, fileId := fileId }

def allocateNewInfoInstance (fileId : UInt32) (transferInfo : Fin n → FileInfo) :
    Option (Fin n × (Fin n → FileInfo)) :=
  ((List.finRange n).find? fun i => (transferInfo i).isConsumed = false).map fun i =>
    (i, Function.update transferInfo i (.claimed fileId))

def releaseInfoInstance (info : Option (Fin n)) (transferInfo : Fin n → FileInfo) :
    Fin n → FileInfo :=
  info.elim transferInfo fun i => Function.update transferInfo i .zero

/-- The entry with the data of the request. -/
def FileInfo.fill (info : FileInfo) (request : TransferRequest) : FileInfo :=
  { info with
    fileSize := request.fileSize
    blockSize := request.fragmentSize
    minimumScratchBufferSize := request.minimumScratchBufferSize
    fileDescriptorSize := request.fileDescriptorSize
    fileDescriptor :=
      match request.fileDescriptor with
      | none => info.fileDescriptor
      | some descriptor =>
        descriptor.slice 0 request.fileDescriptorSize.toNat ++
          info.fileDescriptor.drop request.fileDescriptorSize.toNat }

/-- `on_sbdt_transfer_request` from where it has an entry. It gives `none` when an assertion stops
it, where the build has them, or the descriptor is longer than its field. -/
def enterRequest (asserts room : Bool) (request : TransferRequest) (info : Fin n)
    (claimed : Fin n → FileInfo) (s : Transfers n) : Option (TransferResponse × Transfers n) :=
  if asserts = true ∧ ¬ request.fileDescriptorSize.toNat < fileDescriptorMaxSize then none
  else if fileDescriptorMaxSize < request.fileDescriptorSize.toNat then none
  else
    let filled := Function.update claimed info ((claimed info).fill request)
    match scratchBufferCreate request.fileId request.minimumScratchBufferSize room s.pool with
    | (none, pool) =>
      some (⟨.reject, s.context.transferRequestRejectReason, none, 0⟩,
        { s with transferInfo := releaseInfoInstance (some info) filled, pool := pool })
    | (some block, pool) =>
      some (⟨s.context.transferRequestAction, s.context.transferRequestRejectReason, some block,
          request.minimumScratchBufferSize⟩,
        { transferInfo := Function.update filled info { filled info with scratch := some block }
          pool := pool
          context := { s.context with startedTransfer := true } })

/-- It gives `none` when the descriptor is null too. -/
def onSbdtTransferRequest (asserts inDfu room : Bool) (request : TransferRequest)
    (response : TransferResponse) (s : Transfers n) : Option (TransferResponse × Transfers n) :=
  if inDfu = true then
    some ({ response with status := .reject, rejectReason := .generic, scratchBufferSize := 0 }, s)
  else if request.fileDescriptorSize ≠ 0 ∧ request.fileDescriptor = none then none
  else
    let wiped := releaseInfoInstance (getFileInfoById s.transferInfo request.fileId) s.transferInfo
    match allocateNewInfoInstance request.fileId wiped with
    | none =>
      some ({ response with status := .reject, scratchBuffer := none, scratchBufferSize := 0 },
        { s with transferInfo := wiped })
    | some (info, claimed) => enterRequest asserts room request info claimed s

def onReleaseScratchBuffer (fileId : UInt32) (s : Transfers n) : Transfers n where
  transferInfo := releaseInfoInstance (getFileInfoById s.transferInfo fileId) s.transferInfo
  pool := scratchBufferRemove fileId s.pool
  context := { s.context with startedTransfer := false }

/-- What happens to the transfers: the callbacks, with the answer of the allocator and what the
response holds at first, and the configuration by the shell. -/
inductive Event
  | request (inDfu room : Bool) (request : TransferRequest) (response : TransferResponse)
  | release (fileId : UInt32)
  | configure (action : TransferAction) (reason : RejectReason)

/-- The response, if there is one, and the tables after it. -/
def Transfers.handle (asserts : Bool) (s : Transfers n) :
    Event → Option (Option TransferResponse × Transfers n)
  | .request inDfu room request response =>
    (onSbdtTransferRequest asserts inDfu room request response s).map fun answer =>
      (some answer.1, answer.2)
  | .release fileId => some (none, onReleaseScratchBuffer fileId s)
  | .configure action reason =>
    some (none, { s with
      context := { s.context with
        transferRequestAction := action
        transferRequestRejectReason := reason } })

/-- The transfers from the initialisation of the pool on. -/
def bulkTransfers (n : Nat) (asserts : Bool) : System (Transfers n) Event where
  init s := (∀ i, s.transferInfo i = .zero) ∧ scratchBufferInit (.boot n) = some s.pool
  step s e s' := ∃ response, s.handle asserts e = some (response, s')

/-! ## What is expected of the tables -/

/-- The entry is that of the file. -/
def Transfers.Entry (s : Transfers n) (fileId : UInt32) (i : Fin n) : Prop :=
  (s.transferInfo i).isConsumed = true ∧ (s.transferInfo i).fileId = fileId

instance (s : Transfers n) (fileId : UInt32) (i : Fin n) : Decidable (s.Entry fileId i) :=
  inferInstanceAs (Decidable (_ ∧ _))

/-- The pool holds the block for the file. -/
def Scratch.Holds (pool : Scratch n) (fileId : UInt32) (block : Nat) : Prop :=
  ∃ i, pool.files i = ⟨fileId, some block⟩

/-- A file has one entry, with the buffer of the pool, when the pool holds a buffer for it, and else
none. -/
structure Transfers.InStep (s : Transfers n) : Prop where
  held : ∀ fileId block, fileId ≠ scratchFileIdUnused → s.pool.Holds fileId block →
    (∃! i, s.Entry fileId i) ∧ ∀ i, s.Entry fileId i → (s.transferInfo i).scratch = some block
  unheld : ∀ fileId, fileId ≠ scratchFileIdUnused → (∀ block, ¬ s.pool.Holds fileId block) →
    ∀ i, ¬ s.Entry fileId i

/-- An accepted request has a live buffer of the size it asked for, and a rejected one has left the
tables alone. -/
structure Transfers.Answers (s : Transfers n) (request : TransferRequest)
    (response : TransferResponse) (s' : Transfers n) : Prop where
  accepted : response.status = .accept → ∃ block, response.scratchBuffer = some block ∧
    s'.pool.heap.Live block ∧
    s'.pool.heap.allocated[block]? = some request.minimumScratchBufferSize
  rejected : response.status = .reject →
    s'.transferInfo = s.transferInfo ∧ s'.pool.files = s.pool.files

/-- The event leaves the tables in step, and a request is answered well. -/
def Transfers.Meets (asserts : Bool) (s : Transfers n) (e : Event) : Prop :=
  ∀ answer s', s.handle asserts e = some (answer, s') → s'.InStep ∧
    ∀ inDfu room request response, e = .request inDfu room request response →
      ∀ final, answer = some final → s.Answers request final s'

/-- The descriptor of the request passes the assertions and fits. -/
def TransferRequest.Described (asserts : Bool) (request : TransferRequest) : Prop :=
  (request.fileDescriptorSize ≠ 0 → request.fileDescriptor ≠ none) ∧
    (asserts = true → request.fileDescriptorSize.toNat < fileDescriptorMaxSize) ∧
    request.fileDescriptorSize.toNat ≤ fileDescriptorMaxSize

/-- A request that is considered is for a file without an entry, and if there is a slot for it, then
there is memory too and the shell has not set requests to be rejected. -/
def Transfers.Orderly (asserts : Bool) (s : Transfers n) : Event → Prop
  | .request inDfu room request _ =>
    inDfu = false → request.Described asserts →
      (∀ i, ¬ s.Entry request.fileId i) ∧
        ((∃ i, (s.transferInfo i).isConsumed = false) →
          room = true ∧ s.context.transferRequestAction = .accept)
  | .release _ => True
  | .configure _ _ => True

/-- The identifier in the event is not the reserved one. -/
def Event.Regular : Event → Prop
  | .request _ _ asked _ => asked.fileId ≠ scratchFileIdUnused
  | .release fileId => fileId ≠ scratchFileIdUnused
  | .configure _ _ => True

end Sidewalk.Sbdt
