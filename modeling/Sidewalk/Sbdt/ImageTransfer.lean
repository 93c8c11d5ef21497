import Sidewalk.Sbdt.Transfers

/-!
# A firmware image by bulk data transfer

`dfu_file_transfer.c` and `nordic_dfu_img.c`: a block that `on_data_received` is given goes through
the queue of the Sidewalk thread, which writes it to the image and gives its buffer back. The
results of the libraries and of the allocator are given; a run is any order of callbacks and of
events that the thread handles. The hash of a block is only printed, and left out.
-/

namespace Sidewalk.Sbdt

open Sidewalk.Lib

/-! ## The code -/

/-- `sidewalk_transfer_t`; `data` is the number of a buffer. -/
structure Transfer where
  fileId : UInt32
  fileOffset : ℕ
  data : ℕ
  dataSize : ℕ

def sizeofTransfer : ℕ := 16

/-- What becomes of a buffer in `on_data_received`. -/
inductive Fate
  | queued
  | dfuMode
  | noMemory
  | queueFull
  deriving DecidableEq

/-- The calls to the image library and to bulk data transfer. -/
inductive LibCall
  | imgInit
  | imgWrite (offset data dataSize : ℕ)
  | imgDone (success : Bool)
  | scheduleUpdate
  | transferCancel (fileId : UInt32) (reason : RejectReason)
  | releaseBuffer (fileId : UInt32) (data dataSize : ℕ)
  | transferFinalize (fileId : UInt32)
  deriving DecidableEq

/-- An event of the Sidewalk thread, with the block of its context. -/
inductive ThreadEvent
  | fileTransfer (transfer : Transfer) (ctx : ℕ)
  | reboot
  | other

structure Device (n : ℕ) where
  /-- The scratch buffers, with the heap of all blocks. -/
  pool : Scratch n
  msgq : List ThreadEvent
  calls : List LibCall
  /-- The buffers that `on_data_received` was given. -/
  received : List (Transfer × Fate)
  rebooted : Bool

variable {n : ℕ}

namespace Device

def call (c : LibCall) (s : Device n) : Device n := { s with calls := s.calls ++ [c] }

def receive (transfer : Transfer) (fate : Fate) (s : Device n) : Device n :=
  { s with received := s.received ++ [(transfer, fate)] }

def sendEvent (event : ThreadEvent) (s : Device n) : Device n :=
  { s with msgq := s.msgq ++ [event] }

def setHeap (heap : Heap) (s : Device n) : Device n :=
  { s with pool := { s.pool with heap := heap } }

def nordicDfuImgCancel (s : Device n) : Device n := s.call (.imgDone false)

/-- `doneErr` is whether `dfu_multi_image_done` fails. -/
def nordicDfuImgFinalize (doneErr : Bool) (s : Device n) : Device n :=
  let s := s.call (.imgDone true)
  if doneErr then s else s.call .scheduleUpdate

def sidewalkEventFileTransfer (transfer : Transfer) (writeErr : Bool) (s : Device n) : Device n :=
  let s := s.call (.imgWrite transfer.fileOffset transfer.data transfer.dataSize)
  let s :=
    if writeErr then (nordicDfuImgCancel s).call (.transferCancel transfer.fileId .fileTooBig)
    else s
  s.call (.releaseBuffer transfer.fileId transfer.data transfer.dataSize)

/-- The writer of the image is initialised before anything is checked. -/
def onTransferRequest (request : TransferRequest) (response : TransferResponse)
    (initErr inDfu room : Bool) (s : Device n) : TransferResponse × Device n :=
  let s := s.call .imgInit
  if initErr then
    ({ response with status := .reject, rejectReason := .generic, scratchBufferSize := 0 }, s)
  else if inDfu then
    ({ response with status := .reject, rejectReason := .generic, scratchBufferSize := 0 }, s)
  else
    match scratchBufferCreate request.fileId request.minimumScratchBufferSize room s.pool with
    | (none, pool) => (⟨.reject, .noSpace, none, 0⟩, { s with pool := pool })
    | (some block, pool) =>
      (⟨.accept, .none, some block, request.minimumScratchBufferSize⟩, { s with pool := pool })

/-- `sent` is whether the queue takes the event. -/
def onDataReceived (transfer : Transfer) (inDfu room sent : Bool) (s : Device n) : Device n :=
  if inDfu then
    (s.call (.transferCancel transfer.fileId .generic)).receive transfer .dfuMode
  else
    match s.pool.heap.malloc room sizeofTransfer with
    | (none, heap) => (s.setHeap heap).receive transfer .noMemory
    | (some ctx, heap) =>
      let s := s.setHeap heap
      if sent then (s.sendEvent (.fileTransfer transfer ctx)).receive transfer .queued
      else
        let s := (nordicDfuImgCancel s).call (.transferCancel transfer.fileId .generic)
        (s.setHeap (s.pool.heap.free ctx)).receive transfer .queueFull

/-- Success is reported before the image is closed. -/
def onFinalizeRequest (fileId : UInt32) (doneErr sent : Bool) (s : Device n) : Device n :=
  let s := nordicDfuImgFinalize doneErr (s.call (.transferFinalize fileId))
  if sent then s.sendEvent .reboot else s

def onReleaseScratchBuffer (fileId : UInt32) (s : Device n) : Device n :=
  { s with pool := scratchBufferRemove fileId s.pool }

/-- A round of `sid_thread_entry`: the handler, and the release of the context behind it. -/
def handleEvent (event : ThreadEvent) (writeErr : Bool) (s : Device n) : Device n :=
  match event with
  | .fileTransfer transfer ctx =>
    let s := sidewalkEventFileTransfer transfer writeErr s
    s.setHeap (s.pool.heap.free ctx)
  | .reboot => { s with rebooted := true }
  | .other => s

end Device

/-! ## Runs -/

/-- The callbacks `on_cancel_request` and `on_error` are one action. -/
inductive DeviceAct
  | request (request : TransferRequest) (response : TransferResponse) (initErr inDfu room : Bool)
  | data (transfer : Transfer) (inDfu room sent : Bool)
  | finalize (fileId : UInt32) (doneErr sent : Bool)
  | cancel (fileId : UInt32)
  | releaseScratch (fileId : UInt32)
  | otherEvent
  | handle (writeErr : Bool)

inductive DeviceStep : Device n → DeviceAct → Device n → Prop
  | request {s : Device n} {request : TransferRequest} {response : TransferResponse}
      {initErr inDfu room : Bool} : s.rebooted = false →
      DeviceStep s (.request request response initErr inDfu room)
        (s.onTransferRequest request response initErr inDfu room).2
  | data {s : Device n} {transfer : Transfer} {inDfu room sent : Bool} : s.rebooted = false →
      DeviceStep s (.data transfer inDfu room sent) (s.onDataReceived transfer inDfu room sent)
  | finalize {s : Device n} {fileId : UInt32} {doneErr sent : Bool} : s.rebooted = false →
      DeviceStep s (.finalize fileId doneErr sent) (s.onFinalizeRequest fileId doneErr sent)
  | cancel {s : Device n} {fileId : UInt32} : s.rebooted = false →
      DeviceStep s (.cancel fileId) s.nordicDfuImgCancel
  | releaseScratch {s : Device n} {fileId : UInt32} : s.rebooted = false →
      DeviceStep s (.releaseScratch fileId) (s.onReleaseScratchBuffer fileId)
  | otherEvent {s : Device n} : s.rebooted = false →
      DeviceStep s .otherEvent (s.sendEvent .other)
  | handle {s : Device n} {event : ThreadEvent} {rest : List ThreadEvent} {writeErr : Bool} :
      s.rebooted = false → s.msgq = event :: rest →
      DeviceStep s (.handle writeErr) ({ s with msgq := rest }.handleEvent event writeErr)

/-- A device with an initialised pool and nothing received. -/
def imageTransfer (n : ℕ) : System (Device n) DeviceAct where
  init s := ∃ pool, scratchBufferInit (.boot n) = some pool ∧ s = ⟨pool, [], [], [], false⟩
  step := DeviceStep

/-- The runs from a state on. -/
def imageTransferFrom (s : Device n) : System (Device n) DeviceAct where
  init := (· = s)
  step := DeviceStep

/-! ## Accounts -/

namespace Transfer

def write (t : Transfer) : LibCall := .imgWrite t.fileOffset t.data t.dataSize

def release (t : Transfer) : LibCall := .releaseBuffer t.fileId t.data t.dataSize

end Transfer

namespace LibCall

def isWrite : LibCall → Bool
  | .imgWrite .. => true
  | _ => false

def isRelease : LibCall → Bool
  | .releaseBuffer .. => true
  | _ => false

/-- The image gets a block, or a buffer goes back. -/
def isBlockCall (c : LibCall) : Bool := c.isWrite || c.isRelease

/-- The file of a cancellation for the reason that `on_data_received` gives. -/
def given? : LibCall → Option UInt32
  | .transferCancel fileId .generic => some fileId
  | _ => none

end LibCall

namespace ThreadEvent

def transfer? : ThreadEvent → Option Transfer
  | .fileTransfer transfer _ => some transfer
  | _ => none

def ctx? : ThreadEvent → Option ℕ
  | .fileTransfer _ ctx => some ctx
  | _ => none

end ThreadEvent

/-- The file of a buffer that is turned away with a cancellation. -/
def turnedAway? : Transfer × Fate → Option UInt32
  | (transfer, .dfuMode) => some transfer.fileId
  | (transfer, .queueFull) => some transfer.fileId
  | _ => none

namespace Device

/-- The blocks that were queued, the first one first. -/
def queued (s : Device n) : List Transfer :=
  (s.received.filter (·.2 = .queued)).map Prod.fst

/-- The blocks that wait for the thread. -/
def pending (s : Device n) : List Transfer := s.msgq.filterMap ThreadEvent.transfer?

def contexts (s : Device n) : Multiset ℕ := s.msgq.filterMap ThreadEvent.ctx?

def writes (s : Device n) : List LibCall := s.calls.filter LibCall.isWrite

/-- The writes of blocks and the buffers given back, in their order. -/
def blockCalls (s : Device n) : List LibCall := s.calls.filter LibCall.isBlockCall

/-- Where the buffers and the memory are. -/
structure Accounted (s : Device n) : Prop where
  /-- The blocks that were queued are those that are done and those that wait; one that is done has
  been written, once and in its turn, and its buffer given back before anything else is written or
  given back. -/
  blocks : ∃ done, s.queued = done ++ s.pending ∧
    s.blockCalls = done.flatMap fun t => [t.write, t.release]
  /-- The transfer of a block that was not queued was cancelled, except for want of memory. -/
  cancels : s.calls.filterMap LibCall.given? = s.received.filterMap turnedAway?
  /-- A live block of memory is a scratch buffer or the context of an event that waits. -/
  heap : s.pool.heap.Accounts (owned s.pool.files + s.contexts)

/-- A slot that is not in use has no buffer. -/
def Spare (s : Device n) : Prop := ∀ i, ¬s.pool.Used i → (s.pool.files i).buffer = none

section Calls

variable {s : Device n}

@[simp] theorem queued_receive (t : Transfer) (fate : Fate) :
    (s.receive t fate).queued = s.queued ++ if fate = .queued then [t] else [] := by
  unfold queued receive
  cases fate with
  | queued => simp
  | dfuMode => simp
  | noMemory => simp
  | queueFull => simp

@[simp] theorem pending_sendEvent (event : ThreadEvent) :
    (s.sendEvent event).pending = s.pending ++ event.transfer?.toList := by
  unfold pending sendEvent
  cases event with
  | fileTransfer t ctx => simp [ThreadEvent.transfer?]
  | reboot => simp [ThreadEvent.transfer?]
  | other => simp [ThreadEvent.transfer?]

@[simp] theorem contexts_sendEvent (event : ThreadEvent) :
    (s.sendEvent event).contexts = s.contexts + event.ctx?.toList := by
  unfold contexts sendEvent
  rw [List.filterMap_append, ← Multiset.coe_add]
  cases event with
  | fileTransfer t ctx => rfl
  | reboot => rfl
  | other => rfl

/-- A call that neither writes nor gives a buffer back nor cancels. -/
structure Plain (c : LibCall) : Prop where
  write : c.isWrite = false
  release : c.isRelease = false
  given : c.given? = none

theorem Plain.blockCall {c : LibCall} (hc : Plain c) : c.isBlockCall = false := by
  rw [LibCall.isBlockCall, hc.write, hc.release, Bool.false_or]

/-- The blocks that are done have been written. -/
theorem writes_of_blockCalls {done : List Transfer}
    (h : s.blockCalls = done.flatMap fun t => [t.write, t.release]) :
    s.writes = done.map Transfer.write := by
  have hwrites : s.writes = s.blockCalls.filter LibCall.isWrite := by
    unfold writes blockCalls
    rw [List.filter_filter]
    refine List.filter_congr fun c _ => ?_
    rw [LibCall.isBlockCall]
    cases c.isWrite <;> rfl
  rw [hwrites, h]
  clear h hwrites
  induction done with
  | nil => rfl
  | cons t done ih =>
    rw [List.flatMap_cons, List.filter_append, ih]
    rfl

theorem Accounted.call (h : s.Accounted) {c : LibCall} (hc : Plain c) : (s.call c).Accounted where
  blocks := by
    obtain ⟨done, hqueued, hblocks⟩ := h.blocks
    refine ⟨done, hqueued, ?_⟩
    rw [← hblocks]
    simp [blockCalls, Device.call, hc.blockCall]
  cancels := by
    rw [Device.call, List.filterMap_append, h.cancels]
    simp [hc.given]
  heap := h.heap

/-- A buffer is turned away. -/
theorem Accounted.turnedAway (h : s.Accounted) (t : Transfer) {fate : Fate}
    (hfate : fate = .dfuMode ∨ fate = .queueFull) :
    ((s.call (.transferCancel t.fileId .generic)).receive t fate).Accounted where
  blocks := by
    obtain ⟨done, hqueued, hblocks⟩ := h.blocks
    refine ⟨done, ?_, ?_⟩
    · have hne : fate ≠ .queued := by
        obtain rfl | rfl := hfate
        · decide
        · decide
      rw [queued_receive, if_neg hne, List.append_nil]
      exact hqueued
    · rw [← hblocks]
      simp [blockCalls, Device.call, receive, LibCall.isBlockCall, LibCall.isWrite,
        LibCall.isRelease]
  cancels := by
    simp only [Device.call, receive, List.filterMap_append, h.cancels]
    obtain rfl | rfl := hfate
    · rfl
    · rfl
  heap := h.heap

/-- A buffer without a context is only noted. -/
theorem Accounted.noMemory (h : s.Accounted) (t : Transfer) :
    (s.receive t .noMemory).Accounted where
  blocks := by
    obtain ⟨done, hqueued, hblocks⟩ := h.blocks
    refine ⟨done, ?_, hblocks⟩
    rw [queued_receive, if_neg (by decide), List.append_nil]
    exact hqueued
  cancels := by
    simp only [receive, List.filterMap_append, h.cancels]
    simp [turnedAway?]
  heap := h.heap

/-- A block gets a context and is queued. -/
theorem Accounted.queue (h : s.Accounted) (t : Transfer) {ctx : ℕ} {heap : Heap}
    (hheap : heap.Accounts (owned s.pool.files + s.contexts + {ctx})) :
    (((s.setHeap heap).sendEvent (.fileTransfer t ctx)).receive t .queued).Accounted where
  blocks := by
    obtain ⟨done, hqueued, hblocks⟩ := h.blocks
    refine ⟨done, ?_, hblocks⟩
    rw [queued_receive, if_pos rfl]
    change s.queued ++ [t] = done ++ ((s.setHeap heap).sendEvent _).pending
    rw [pending_sendEvent, hqueued, List.append_assoc]
    rfl
  cancels := by
    simp only [receive, sendEvent, setHeap, List.filterMap_append, h.cancels]
    simp [turnedAway?]
  heap := by
    change heap.Accounts (owned s.pool.files + ((s.setHeap heap).sendEvent _).contexts)
    rw [contexts_sendEvent, ← add_assoc]
    exact hheap

/-- An event without a context is queued. -/
theorem Accounted.sendEvent (h : s.Accounted) {event : ThreadEvent}
    (htransfer : event.transfer? = none) (hctx : event.ctx? = none) :
    (s.sendEvent event).Accounted where
  blocks := by
    obtain ⟨done, hqueued, hblocks⟩ := h.blocks
    refine ⟨done, ?_, hblocks⟩
    rw [pending_sendEvent, htransfer, Option.toList_none, List.append_nil]
    exact hqueued
  cancels := h.cancels
  heap := by
    rw [contexts_sendEvent, hctx, Option.toList_none, Multiset.coe_nil, add_zero]
    exact h.heap

/-- Another pool with accounts of the heap. -/
theorem Accounted.setPool (h : s.Accounted) {pool : Scratch n}
    (hheap : pool.heap.Accounts (owned pool.files + s.contexts)) :
    Accounted { s with pool := pool } := ⟨h.blocks, h.cancels, hheap⟩

/-- The thread takes an event without a context. -/
theorem Accounted.take (h : s.Accounted) {event : ThreadEvent} {rest : List ThreadEvent}
    (hmsgq : s.msgq = event :: rest) (htransfer : event.transfer? = none)
    (hctx : event.ctx? = none) : Accounted { s with msgq := rest } where
  blocks := by
    obtain ⟨done, hqueued, hblocks⟩ := h.blocks
    refine ⟨done, ?_, hblocks⟩
    rw [pending, hmsgq, List.filterMap_cons, htransfer] at hqueued
    exact hqueued
  cancels := h.cancels
  heap := by
    have hheap := h.heap
    rw [contexts, hmsgq, List.filterMap_cons, hctx] at hheap
    exact hheap

end Calls

/-! ## One step -/

/-- What every step keeps. -/
structure Kept (s : Device n) : Prop where
  accounted : s.Accounted
  spare : s.Spare

section Steps

variable {s : Device n}

/-- The pool is asked for a scratch buffer. -/
theorem Kept.create (h : s.Kept) (fileId : UInt32) (size : ℕ) (room : Bool) :
    Kept { s with pool := (scratchBufferCreate fileId size room s.pool).2 } := by
  obtain ⟨-, heq⟩ | ⟨i, htakes, hi, heq⟩ := create_cases fileId size room s.pool
  · rw [heq]
    exact ⟨h.accounted, h.spare⟩
  · rw [heq]
    constructor
    · refine h.accounted.setPool ?_
      have howned := owned_update s.pool.files i ⟨fileId, (s.pool.heap.malloc room size).1⟩
      rw [h.spare i hi, Heap.blocks_none, add_zero] at howned
      rw [howned, add_right_comm]
      exact h.accounted.heap.malloc room size
    · intro j hj
      by_cases hij : j = i
      · -- The reserved identifier is not given to a slot that has it.
        subst hij
        simp only [Scratch.Used, Function.update_self, not_not] at hj hi
        exact absurd (hi.trans hj.symm) (htakes.1 j)
      · simp only [Scratch.Used, Function.update_of_ne hij] at hj ⊢
        exact h.spare j hj

/-- A scratch buffer is given back. -/
theorem Kept.remove (h : s.Kept) (fileId : UInt32) : (s.onReleaseScratchBuffer fileId).Kept := by
  unfold onReleaseScratchBuffer
  obtain ⟨-, heq⟩ | ⟨i, -, heq⟩ := remove_cases fileId s.pool
  · rw [heq]
    exact h
  · rw [heq]
    constructor
    · refine h.accounted.setPool ?_
      have howned := owned_update s.pool.files i ⟨scratchFileIdUnused, none⟩
      rw [Heap.blocks_none, add_zero] at howned
      have hheap := h.accounted.heap
      rw [← howned, add_right_comm] at hheap
      exact hheap.release
    · intro j hj
      by_cases hij : j = i
      · subst hij
        simp
      · simp only [Scratch.Used, Function.update_of_ne hij] at hj ⊢
        exact h.spare j hj

theorem Kept.request (h : s.Kept) (request : TransferRequest) (response : TransferResponse)
    (initErr inDfu room : Bool) :
    (s.onTransferRequest request response initErr inDfu room).2.Kept := by
  have hinit : (s.call .imgInit).Kept := ⟨h.accounted.call ⟨rfl, rfl, rfl⟩, h.spare⟩
  have hcreate := hinit.create request.fileId request.minimumScratchBufferSize room
  unfold onTransferRequest
  split
  · exact hinit
  split
  · exact hinit
  change Kept { s.call .imgInit with
    pool := (scratchBufferCreate request.fileId request.minimumScratchBufferSize room
      s.pool).2 } at hcreate
  simp only
  generalize hpool : scratchBufferCreate request.fileId request.minimumScratchBufferSize room
    (s.call .imgInit).pool = created
  change scratchBufferCreate request.fileId request.minimumScratchBufferSize room s.pool = created
    at hpool
  rw [hpool] at hcreate
  obtain ⟨_ | block, pool⟩ := created
  · exact hcreate
  · exact hcreate

theorem Kept.data (h : s.Kept) (t : Transfer) (inDfu room sent : Bool) :
    (s.onDataReceived t inDfu room sent).Kept := by
  unfold onDataReceived
  split
  · exact ⟨h.accounted.turnedAway t (.inl rfl), h.spare⟩
  cases room with
  | false => exact ⟨(h.accounted.noMemory t), h.spare⟩
  | true =>
    have hheap := h.accounted.heap.malloc true sizeofTransfer
    rw [Heap.malloc_true]
    rw [Heap.malloc_true, Heap.blocks_some] at hheap
    simp only
    split
    · exact ⟨h.accounted.queue t hheap, h.spare⟩
    · -- The context goes back, and the heap owns what it owned before.
      have hfree := @Heap.Accounts.release _ _ (some s.pool.heap.allocated.length) hheap
      have hback : (s.setHeap ((s.pool.heap.malloc true sizeofTransfer).2.free
          s.pool.heap.allocated.length)).Accounted := h.accounted.setPool hfree
      have hdone := hback.call (c := .imgDone false) ⟨rfl, rfl, rfl⟩
      exact ⟨hdone.turnedAway t (.inr rfl), h.spare⟩

theorem Kept.finalize (h : s.Kept) (fileId : UInt32) (doneErr sent : Bool) :
    (s.onFinalizeRequest fileId doneErr sent).Kept := by
  have hdone : (nordicDfuImgFinalize doneErr (s.call (.transferFinalize fileId))).Accounted := by
    have hclosed := (h.accounted.call (c := .transferFinalize fileId) ⟨rfl, rfl, rfl⟩).call
      (c := .imgDone true) ⟨rfl, rfl, rfl⟩
    unfold nordicDfuImgFinalize
    cases doneErr with
    | false => exact hclosed.call ⟨rfl, rfl, rfl⟩
    | true => exact hclosed
  have hspare : (nordicDfuImgFinalize doneErr (s.call (.transferFinalize fileId))).Spare := by
    unfold nordicDfuImgFinalize
    cases doneErr with
    | false => exact h.spare
    | true => exact h.spare
  unfold onFinalizeRequest
  cases sent with
  | false => exact ⟨hdone, hspare⟩
  | true => exact ⟨hdone.sendEvent rfl rfl, hspare⟩

/-- What handling a block calls. -/
theorem calls_sidewalkEventFileTransfer (t : Transfer) (writeErr : Bool) :
    ∃ between, (sidewalkEventFileTransfer t writeErr s).calls =
        s.calls ++ ([t.write] ++ between ++ [t.release]) ∧
      ∀ c ∈ between, Plain c := by
  unfold sidewalkEventFileTransfer
  cases writeErr with
  | false => exact ⟨[], by simp [Device.call, Transfer.write, Transfer.release], nofun⟩
  | true =>
    refine ⟨[.imgDone false, .transferCancel t.fileId .fileTooBig], ?_, ?_⟩
    · simp [Device.call, nordicDfuImgCancel, Transfer.write, Transfer.release]
    · intro c hc
      simp only [List.mem_cons, List.not_mem_nil, or_false] at hc
      obtain rfl | rfl := hc
      · exact ⟨rfl, rfl, rfl⟩
      · exact ⟨rfl, rfl, rfl⟩

theorem pool_sidewalkEventFileTransfer (t : Transfer) (writeErr : Bool) :
    sidewalkEventFileTransfer t writeErr s =
      { s with calls := (sidewalkEventFileTransfer t writeErr s).calls } := by
  unfold sidewalkEventFileTransfer
  cases writeErr with
  | false => rfl
  | true => rfl

/-- The thread handles a block. -/
theorem Accounted.handled (h : s.Accounted) {t : Transfer} {ctx : ℕ} {rest : List ThreadEvent}
    (hmsgq : s.msgq = .fileTransfer t ctx :: rest) (writeErr : Bool) :
    ({ s with msgq := rest }.handleEvent (.fileTransfer t ctx) writeErr).Accounted := by
  obtain ⟨between, hcalls, hbetween⟩ :=
    @calls_sidewalkEventFileTransfer n { s with msgq := rest } t writeErr
  have hplain : between.filter LibCall.isBlockCall = [] := by
    rw [List.filter_eq_nil_iff]
    intro c hc
    simp [(hbetween c hc).blockCall]
  have hgiven : between.filterMap LibCall.given? = [] := by
    rw [List.filterMap_eq_nil_iff]
    exact fun c hc => (hbetween c hc).given
  unfold handleEvent
  simp only
  rw [pool_sidewalkEventFileTransfer, hcalls]
  constructor
  · obtain ⟨done, hqueued, hblocks⟩ := h.blocks
    refine ⟨done ++ [t], ?_, ?_⟩
    · rw [pending, hmsgq, List.filterMap_cons] at hqueued
      exact hqueued.trans (List.append_cons done t _)
    · simp only [blockCalls, setHeap, List.filter_append, hplain, List.flatMap_append, ← hblocks]
      simp [Transfer.write, Transfer.release, LibCall.isBlockCall, LibCall.isWrite,
        LibCall.isRelease]
  · simp only [setHeap, List.filterMap_append, hgiven, h.cancels]
    simp [Transfer.write, Transfer.release, LibCall.given?]
  · have hheap := h.heap
    rw [contexts, hmsgq, List.filterMap_cons] at hheap
    change s.pool.heap.Accounts
      (owned s.pool.files + (ctx :: rest.filterMap ThreadEvent.ctx? : List ℕ)) at hheap
    rw [← Multiset.cons_coe, ← Multiset.singleton_add, add_left_comm, add_comm] at hheap
    exact @Heap.Accounts.release _ _ (some ctx) hheap

theorem Kept.handle (h : s.Kept) {event : ThreadEvent} {rest : List ThreadEvent}
    (hmsgq : s.msgq = event :: rest) (writeErr : Bool) :
    ({ s with msgq := rest }.handleEvent event writeErr).Kept := by
  cases event with
  | fileTransfer t ctx =>
    refine ⟨h.accounted.handled hmsgq writeErr, ?_⟩
    unfold handleEvent
    simp only
    rw [pool_sidewalkEventFileTransfer]
    exact h.spare
  | reboot =>
    have htaken := h.accounted.take hmsgq rfl rfl
    exact ⟨⟨htaken.blocks, htaken.cancels, htaken.heap⟩, h.spare⟩
  | other => exact ⟨h.accounted.take hmsgq rfl rfl, h.spare⟩

theorem Kept.step (h : s.Kept) {a : DeviceAct} {s' : Device n} (hstep : DeviceStep s a s') :
    s'.Kept := by
  cases hstep with
  | request _ => exact h.request _ _ _ _ _
  | data _ => exact h.data _ _ _ _
  | finalize _ => exact h.finalize _ _ _
  | cancel _ => exact ⟨h.accounted.call ⟨rfl, rfl, rfl⟩, h.spare⟩
  | releaseScratch _ => exact h.remove _
  | otherEvent _ => exact ⟨h.accounted.sendEvent rfl rfl, h.spare⟩
  | handle _ hmsgq => exact h.handle hmsgq _

end Steps

/-- Before the first callback. -/
theorem kept_init (h : (imageTransfer n).init s) : s.Kept := by
  obtain ⟨pool, hpool, rfl⟩ := h
  have hkept : pool.Kept := init_kept hpool
  refine ⟨⟨⟨[], rfl, rfl⟩, rfl, ?_⟩, fun i hi => hkept.unused hi⟩
  have hheap := hkept.accounts
  rw [← add_zero (owned pool.files)] at hheap
  exact hheap

end Device

variable {s : Device n}

theorem reached_device (h : (imageTransfer n).Reachable s) : s.Kept :=
  h.invariant (fun _ => Device.kept_init) fun _ _ _ hs _ hstep => hs.step hstep

/-- In every run the blocks that were queued are written in their order, the buffer of each is given
back right behind its write, once, and the others wait; a transfer is cancelled for each buffer
that is turned away, but for want of memory; and no context is lost or released twice. -/
theorem transfers_accounted (h : (imageTransfer n).Reachable s) : s.Accounted :=
  (reached_device h).accounted

/-! ## From the last block to the reboot -/

/-- What a step does to the queue and the calls. -/
inductive Effect (s s' : Device n) : Prop
  | adds (calls : List LibCall) (events : List ThreadEvent) :
      calls.filter LibCall.isWrite = [] → s'.calls = s.calls ++ calls →
      s'.msgq = s.msgq ++ events → s'.rebooted = s.rebooted → Effect s s'
  | handles (event : ThreadEvent) (rest : List ThreadEvent) (calls : List LibCall) :
      s.msgq = event :: rest → calls.filter LibCall.isWrite =
        event.transfer?.toList.map Transfer.write → s'.calls = s.calls ++ calls →
      s'.msgq = rest → (s'.rebooted = true ↔ event = .reboot) → Effect s s'

theorem effect_onDataReceived (s : Device n) (t : Transfer) (inDfu room sent : Bool) :
    Effect s (s.onDataReceived t inDfu room sent) := by
  unfold Device.onDataReceived
  split
  · exact .adds [.transferCancel t.fileId .generic] [] rfl rfl (List.append_nil _).symm rfl
  cases room with
  | false => exact .adds [] [] rfl (List.append_nil _).symm (List.append_nil _).symm rfl
  | true =>
    rw [Heap.malloc_true]
    simp only
    split
    · exact .adds [] [_] rfl (List.append_nil _).symm rfl rfl
    · exact .adds [.imgDone false, .transferCancel t.fileId .generic] [] rfl
        (List.append_assoc _ _ _) (List.append_nil _).symm rfl

theorem effect_onTransferRequest (s : Device n) (request : TransferRequest)
    (response : TransferResponse) (initErr inDfu room : Bool) :
    Effect s (s.onTransferRequest request response initErr inDfu room).2 := by
  unfold Device.onTransferRequest
  split
  · exact .adds [.imgInit] [] rfl rfl (List.append_nil _).symm rfl
  split
  · exact .adds [.imgInit] [] rfl rfl (List.append_nil _).symm rfl
  simp only
  split
  · exact .adds [.imgInit] [] rfl rfl (List.append_nil _).symm rfl
  · exact .adds [.imgInit] [] rfl rfl (List.append_nil _).symm rfl

theorem effect_onFinalizeRequest (s : Device n) (fileId : UInt32) (doneErr sent : Bool) :
    ∃ calls, calls.filter LibCall.isWrite = [] ∧
      (s.onFinalizeRequest fileId doneErr sent).calls =
        s.calls ++ [.transferFinalize fileId, .imgDone true] ++ calls ∧
      (s.onFinalizeRequest fileId doneErr sent).msgq =
        s.msgq ++ (if sent then [.reboot] else []) ∧
      (s.onFinalizeRequest fileId doneErr sent).rebooted = s.rebooted := by
  unfold Device.onFinalizeRequest Device.nordicDfuImgFinalize
  refine ⟨if doneErr then [] else [.scheduleUpdate], ?_, ?_, ?_, ?_⟩
  · cases doneErr with
    | false => rfl
    | true => rfl
  · cases doneErr <;> cases sent <;> simp [Device.call, Device.sendEvent]
  · cases doneErr <;> cases sent <;> simp [Device.call, Device.sendEvent]
  · cases doneErr <;> cases sent <;> rfl

theorem DeviceStep.effect {s s' : Device n} {a : DeviceAct} (hstep : DeviceStep s a s') :
    Effect s s' := by
  cases hstep with
  | request _ => exact effect_onTransferRequest s _ _ _ _ _
  | data _ => exact effect_onDataReceived s _ _ _ _
  | @finalize fileId doneErr sent _ =>
    obtain ⟨calls, hwrites, hcalls, hmsgq, hrebooted⟩ :=
      effect_onFinalizeRequest s fileId doneErr sent
    refine .adds (.transferFinalize fileId :: .imgDone true :: calls) _ hwrites ?_ hmsgq hrebooted
    rw [hcalls, List.append_assoc]
    rfl
  | cancel _ => exact .adds [.imgDone false] [] rfl rfl (List.append_nil _).symm rfl
  | releaseScratch _ =>
    exact .adds [] [] rfl (List.append_nil _).symm (List.append_nil _).symm rfl
  | otherEvent _ => exact .adds [] [.other] rfl (List.append_nil _).symm rfl rfl
  | @handle event rest writeErr hrunning hmsgq =>
    cases event with
    | fileTransfer t ctx =>
      obtain ⟨between, hcalls, hbetween⟩ :=
        @Device.calls_sidewalkEventFileTransfer n { s with msgq := rest } t writeErr
      have hwrite : between.filter LibCall.isWrite = [] := by
        rw [List.filter_eq_nil_iff]
        intro c hc
        simp [(hbetween c hc).write]
      refine .handles _ rest ([t.write] ++ between ++ [t.release]) hmsgq ?_ hcalls ?_ ?_
      · rw [List.filter_append, List.filter_append, hwrite]
        rfl
      · unfold Device.handleEvent
        simp only
        rw [Device.pool_sidewalkEventFileTransfer]
        rfl
      · unfold Device.handleEvent
        simp only
        rw [Device.pool_sidewalkEventFileTransfer]
        exact iff_of_false (by simp [Device.setHeap, hrunning]) nofun
    | reboot =>
      exact .handles _ rest [] hmsgq rfl (List.append_nil _).symm rfl (iff_of_true rfl rfl)
    | other =>
      exact .handles _ rest [] hmsgq rfl (List.append_nil _).symm rfl
        (iff_of_false (by simp [Device.handleEvent, hrunning]) nofun)

/-- A run in which a reboot is queued: what was called since the base, and the blocks in front of
the reboot. -/
inductive Rebooting (base : List LibCall) (left : List Transfer) (s : Device n) : Prop
  | waits (front behind : List ThreadEvent) (calls : List LibCall) :
      s.msgq = front ++ .reboot :: behind → .reboot ∉ front → s.calls = base ++ calls →
      calls.filter LibCall.isWrite ++ (front.filterMap ThreadEvent.transfer?).map Transfer.write =
        left.map Transfer.write → s.rebooted = false → Rebooting base left s
  | rebooted (calls : List LibCall) : s.calls = base ++ calls →
      calls.filter LibCall.isWrite = left.map Transfer.write → s.rebooted = true →
      Rebooting base left s

theorem Rebooting.step {base : List LibCall} {left : List Transfer} {s s' : Device n}
    {a : DeviceAct} (h : Rebooting base left s) (hstep : DeviceStep s a s')
    (hrunning : s.rebooted = false) : Rebooting base left s' := by
  cases h with
  | rebooted _ _ _ hrebooted =>
    rw [hrunning] at hrebooted
    cases hrebooted
  | waits front behind before hmsgq hnone hbefore hwrites _ =>
    cases hstep.effect with
    | adds calls events hno hcalls hqueue hrebooted =>
      refine .waits front (behind ++ events) (before ++ calls) ?_ hnone ?_ ?_
        (hrebooted.trans hrunning)
      · rw [hqueue, hmsgq, List.append_assoc, List.cons_append]
      · rw [hcalls, hbefore, List.append_assoc]
      · rw [List.filter_append, hno, List.append_nil, hwrites]
    | handles event rest calls hcons hwrite hcalls hrest hrebooted =>
      rw [hmsgq] at hcons
      cases front with
      | nil =>
        obtain ⟨rfl, rfl⟩ := List.cons.inj hcons
        refine .rebooted (before ++ calls) ?_ ?_ (hrebooted.mpr rfl)
        · rw [hcalls, hbefore, List.append_assoc]
        · rw [List.filter_append, hwrite]
          exact hwrites
      | cons first front =>
        obtain ⟨rfl, rfl⟩ := List.cons.inj hcons
        refine .waits front behind (before ++ calls) hrest (fun hin => hnone (.tail _ hin)) ?_ ?_ ?_
        · rw [hcalls, hbefore, List.append_assoc]
        · rw [List.filter_append, hwrite, List.append_assoc, ← hwrites, ← List.map_append]
          congr 2
          rw [List.filterMap_cons]
          cases first.transfer? with
          | none => rfl
          | some t => rfl
        · rw [Bool.eq_false_iff]
          intro hreboot
          obtain rfl := hrebooted.mp hreboot
          exact hnone List.mem_cons_self

/-- The image is closed when the transfer is finalised, and the blocks that wait then are still
written before the reboot; those that come later are not. -/
theorem reboot_writes {s s₁ s₂ : Device n} {fileId : UInt32} {doneErr : Bool}
    (h : (imageTransfer n).Reachable s) (hnone : .reboot ∉ s.msgq)
    (hstep : DeviceStep s (.finalize fileId doneErr true) s₁)
    (hrun : (imageTransferFrom s₁).Reachable s₂) (hrebooted : s₂.rebooted = true) :
    (∃ calls, s₂.calls = s.calls ++ [.transferFinalize fileId, .imgDone true] ++ calls ∧
      calls.filter LibCall.isWrite = s.pending.map Transfer.write) ∧
    s₂.writes = s.queued.map Transfer.write := by
  have hstart : Rebooting (s.calls ++ [.transferFinalize fileId, .imgDone true]) s.pending s₁ := by
    cases hstep with
    | finalize hrunning =>
      obtain ⟨calls, hwrites, hcalls, hmsgq, hsame⟩ :=
        effect_onFinalizeRequest s fileId doneErr true
      refine .waits s.msgq [] calls hmsgq hnone hcalls ?_ (hsame.trans hrunning)
      rw [hwrites]
      rfl
  have hlast : Rebooting (s.calls ++ [.transferFinalize fileId, .imgDone true]) s.pending s₂ := by
    refine hrun.invariant (fun _ heq => heq ▸ hstart) fun s a s' hs _ hstep => ?_
    refine hs.step hstep ?_
    cases hstep with
    | request hrunning => exact hrunning
    | data hrunning => exact hrunning
    | finalize hrunning => exact hrunning
    | cancel hrunning => exact hrunning
    | releaseScratch hrunning => exact hrunning
    | otherEvent hrunning => exact hrunning
    | handle hrunning _ => exact hrunning
  cases hlast with
  | waits _ _ _ _ _ _ _ hrunning =>
    rw [hrebooted] at hrunning
    cases hrunning
  | rebooted calls hcalls hwrites _ =>
    refine ⟨⟨calls, hcalls, hwrites⟩, ?_⟩
    obtain ⟨done, hqueued, hblocks⟩ := (reached_device h).accounted.blocks
    have hdone := Device.writes_of_blockCalls hblocks
    have hbase : ([.transferFinalize fileId, .imgDone true] : List LibCall).filter
      LibCall.isWrite = [] := rfl
    unfold Device.writes at hdone ⊢
    rw [hcalls, List.filter_append, List.filter_append, hdone, hbase, hwrites, hqueued,
      List.append_nil, List.map_append]

/-! ## One block -/

def emptyDevice : Device 1 := ⟨⟨fun _ => ⟨scratchFileIdUnused, none⟩, .empty⟩, [], [], [], false⟩

def oneBlock : Transfer := ⟨7, 0, 0, 64⟩

def receivedDevice : Device 1 := emptyDevice.onDataReceived oneBlock false true true

/-- The transfer is finalised while the block waits. -/
def finalizedDevice : Device 1 := receivedDevice.onFinalizeRequest 7 false true

def writtenDevice : Device 1 :=
  { finalizedDevice with msgq := [.reboot] }.handleEvent (.fileTransfer oneBlock 0) false

def rebootedDevice : Device 1 := { writtenDevice with msgq := [] }.handleEvent .reboot false

theorem receivedDevice_reached : (imageTransfer 1).Reachable receivedDevice :=
  .step (a := .data oneBlock false true true) (.init ⟨_, rfl, rfl⟩) trivial (.data rfl)

/-- The block has been written and its buffer given back. -/
theorem transfers_accounted_rebootedDevice :
    rebootedDevice.blockCalls = [oneBlock.write, oneBlock.release] ∧ rebootedDevice.Accounted := by
  have hfinalized : (imageTransfer 1).Reachable finalizedDevice :=
    .step (a := .finalize 7 false true) receivedDevice_reached trivial (.finalize rfl)
  have hwritten : (imageTransfer 1).Reachable writtenDevice :=
    .step (a := .handle false) hfinalized trivial (.handle rfl rfl)
  exact ⟨rfl, transfers_accounted (.step (a := .handle false) hwritten trivial (.handle rfl rfl))⟩

/-- The block is written behind the end of the image. -/
theorem reboot_writes_oneBlock :
    (∃ calls, rebootedDevice.calls =
        receivedDevice.calls ++ [.transferFinalize 7, .imgDone true] ++ calls ∧
      calls.filter LibCall.isWrite = [oneBlock.write]) ∧
    rebootedDevice.writes = [oneBlock.write] := by
  have hwritten : (imageTransferFrom finalizedDevice).Reachable writtenDevice :=
    .step (a := .handle false) (.init rfl) trivial (.handle rfl rfl)
  have hrebooted : (imageTransferFrom finalizedDevice).Reachable rebootedDevice :=
    .step (a := .handle false) hwritten trivial (.handle rfl rfl)
  exact reboot_writes receivedDevice_reached nofun (.finalize rfl) hrebooted rfl

end Sidewalk.Sbdt
