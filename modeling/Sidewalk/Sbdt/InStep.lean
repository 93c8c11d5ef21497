import Sidewalk.Sbdt.Transfers

/-!
# The two tables in step

`transfer_info` and the pool stand for one map from files to entries. A release and a request that
is served update the map. `RequestEnd` lists what else a request comes to: a repeated one and one
without memory leave a single table changed.
-/

namespace Sidewalk.Sbdt

open Sidewalk.Lib

variable {n : Nat}

/-! ## The tables as one map -/

/-- The file of an entry, if it has one. -/
def infoSlot (info : FileInfo) : Option (UInt32 × FileInfo) :=
  if info.isConsumed = true then some (info.fileId, info) else none

/-- The file of a slot of the pool, if it is in use. -/
def poolSlot (file : FileCtx) : Option (UInt32 × Option Nat) :=
  if file.id ≠ scratchFileIdUnused then some (file.id, file.buffer) else none

theorem infoSlot_eq_some {info b : FileInfo} {fileId : UInt32} :
    infoSlot info = some (fileId, b) ↔
      info.isConsumed = true ∧ info.fileId = fileId ∧ info = b := by
  unfold infoSlot
  split
  · next h => simp [h]
  · next h => simp [h]

theorem infoSlot_eq_none {info : FileInfo} : infoSlot info = none ↔ info.isConsumed = false := by
  unfold infoSlot
  split
  · next h => simp [h]
  · next h => simpa using h

theorem poolSlot_eq_some {file : FileCtx} {fileId : UInt32} {buffer : Option Nat} :
    poolSlot file = some (fileId, buffer) ↔
      fileId ≠ scratchFileIdUnused ∧ file = ⟨fileId, buffer⟩ := by
  obtain ⟨id, b⟩ := file
  unfold poolSlot
  constructor
  · intro h
    split at h
    · next hid =>
      cases h
      exact ⟨hid, rfl⟩
    · cases h
  · rintro ⟨hid, heq⟩
    cases heq
    exact if_pos hid

theorem poolSlot_eq_none {file : FileCtx} :
    poolSlot file = none ↔ file.id = scratchFileIdUnused := by
  unfold poolSlot
  simp

/-- Both tables stand for the map from files to entries. The pool is kept, and an entry that is not
consumed is zero. -/
structure Transfers.Stands (s : Transfers n) (m : UInt32 → Option FileInfo) : Prop where
  kept : s.pool.Kept
  zero : ∀ i, (s.transferInfo i).isConsumed = false → s.transferInfo i = .zero
  info : Represents (infoSlot ∘ s.transferInfo) m
  slots : Represents (poolSlot ∘ s.pool.files) (Option.map FileInfo.scratch ∘ m)

namespace Transfers.Stands

variable {s : Transfers n} {m : UInt32 → Option FileInfo}

theorem entry (h : s.Stands m) {fileId : UInt32} {i : Fin n} (hi : s.Entry fileId i) :
    m fileId = some (s.transferInfo i) :=
  h.info.of_slot (infoSlot_eq_some.2 ⟨hi.1, hi.2, rfl⟩)

theorem no_entry (h : s.Stands m) {fileId : UInt32} (hnone : m fileId = none) (i : Fin n) :
    ¬ s.Entry fileId i := by
  intro hi
  rw [h.entry hi] at hnone
  cases hnone

/-- A file with an entry does not have the reserved identifier. -/
theorem regular (h : s.Stands m) {fileId : UInt32} {info : FileInfo}
    (hsome : m fileId = some info) : fileId ≠ scratchFileIdUnused := by
  have hmap : (Option.map FileInfo.scratch ∘ m) fileId = some info.scratch := by
    simp [hsome]
  obtain ⟨i, hi⟩ := (h.slots.lookup fileId info.scratch).1 hmap
  exact (poolSlot_eq_some.1 hi).1

theorem exists_entry (h : s.Stands m) {fileId : UInt32} {info : FileInfo}
    (hsome : m fileId = some info) : ∃ i, s.Entry fileId i ∧ s.transferInfo i = info := by
  obtain ⟨i, hi⟩ := (h.info.lookup fileId info).1 hsome
  obtain ⟨hconsumed, hid, heq⟩ := infoSlot_eq_some.1 hi
  exact ⟨i, ⟨hconsumed, hid⟩, heq⟩

theorem entry_unique (h : s.Stands m) {fileId : UInt32} {i j : Fin n} (hi : s.Entry fileId i)
    (hj : s.Entry fileId j) : i = j :=
  h.info.unique i j fileId _ _ (infoSlot_eq_some.2 ⟨hi.1, hi.2, rfl⟩)
    (infoSlot_eq_some.2 ⟨hj.1, hj.2, rfl⟩)

/-- The pool has a slot for the file of an entry, and no other file. -/
theorem slot_iff (h : s.Stands m) {fileId : UInt32} (hid : fileId ≠ scratchFileIdUnused) :
    (∃ i, (s.pool.files i).id = fileId) ↔ (m fileId).isSome := by
  constructor
  · rintro ⟨i, rfl⟩
    have hslot := h.slots.of_slot (i := i) (poolSlot_eq_some.2 ⟨hid, rfl⟩)
    obtain ⟨info, hinfo, -⟩ := Option.map_eq_some_iff.1 hslot
    rw [hinfo]
    rfl
  · intro hsome
    obtain ⟨info, hinfo⟩ := Option.isSome_iff_exists.1 hsome
    have hmap : (Option.map FileInfo.scratch ∘ m) fileId = some info.scratch := by
      simp [hinfo]
    obtain ⟨i, hi⟩ := (h.slots.lookup fileId info.scratch).1 hmap
    exact ⟨i, by rw [(poolSlot_eq_some.1 hi).2]⟩

/-- Both tables have a free slot, or neither has. -/
theorem free_iff (h : s.Stands m) :
    (∃ i, (s.transferInfo i).isConsumed = false) ↔ ∃ i, ¬ s.pool.Used i := by
  have hinfo : (∃ i, (s.transferInfo i).isConsumed = false) ↔
      ¬ ∀ i, (infoSlot ∘ s.transferInfo) i ≠ none := by
    simp [infoSlot_eq_none]
  have hpool : (∃ i, ¬ s.pool.Used i) ↔ ¬ ∀ i, (poolSlot ∘ s.pool.files) i ≠ none := by
    simp [poolSlot_eq_none, Scratch.Used]
  rw [hinfo, hpool, not_iff_not]
  constructor
  · exact h.info.full_of_full h.slots fun k hk => by simpa using hk
  · exact h.slots.full_of_full h.info fun k hk => by simpa using hk

theorem inStep (h : s.Stands m) : s.InStep where
  held := by
    rintro fileId block hid ⟨i, hi⟩
    have hmap := h.slots.of_slot (i := i) (poolSlot_eq_some.2 ⟨hid, hi⟩)
    obtain ⟨info, hinfo, hscratch⟩ := Option.map_eq_some_iff.1 hmap
    obtain ⟨j, hj, heq⟩ := h.exists_entry hinfo
    refine ⟨⟨j, hj, fun j' hj' => h.entry_unique hj' hj⟩, fun j' hj' => ?_⟩
    rw [h.entry_unique hj' hj, heq, hscratch]
  unheld := by
    intro fileId hid hnone i hi
    have hmap : (Option.map FileInfo.scratch ∘ m) fileId = some (s.transferInfo i).scratch := by
      simp [h.entry hi]
    obtain ⟨j, hj⟩ := (h.slots.lookup fileId _).1 hmap
    have hslot := (poolSlot_eq_some.1 hj).2
    -- a slot in use has its buffer
    have hused : s.pool.Used j := by
      rw [Scratch.Used, hslot]
      exact hid
    obtain ⟨block, hblock⟩ := Option.isSome_iff_exists.1 ((h.kept.buffer_iff j).1 hused)
    rw [hslot] at hblock
    refine hnone block ⟨j, hslot.trans ?_⟩
    rw [← hblock]

theorem configure (h : s.Stands m) (context : SbdtContext) :
    Transfers.Stands { s with context := context } m :=
  ⟨h.kept, h.zero, h.info, h.slots⟩

/-! ## The scans -/

theorem getFileInfoById_none (h : s.Stands m) {fileId : UInt32} (hnone : m fileId = none) :
    getFileInfoById s.transferInfo fileId = none := by
  unfold getFileInfoById
  obtain ⟨-, hfind⟩ | ⟨i, hi, -⟩ := find_slot fun i =>
    (s.transferInfo i).fileId = fileId ∧ (s.transferInfo i).isConsumed = true
  · exact hfind
  · exact absurd ⟨hi.2, hi.1⟩ (h.no_entry hnone i)

theorem getFileInfoById_some (h : s.Stands m) {fileId : UInt32} {info : FileInfo}
    (hsome : m fileId = some info) :
    ∃ i, getFileInfoById s.transferInfo fileId = some i ∧ s.Entry fileId i ∧
      s.transferInfo i = info := by
  obtain ⟨j, hj, heq⟩ := h.exists_entry hsome
  unfold getFileInfoById
  obtain ⟨hnone, -⟩ | ⟨i, hi, hfind⟩ := find_slot fun i =>
    (s.transferInfo i).fileId = fileId ∧ (s.transferInfo i).isConsumed = true
  · exact absurd ⟨hj.2, hj.1⟩ (hnone j)
  · obtain rfl := h.entry_unique ⟨hi.2, hi.1⟩ hj
    exact ⟨i, hfind, hj, heq⟩

end Transfers.Stands

theorem allocateNewInfoInstance_cases (fileId : UInt32) (transferInfo : Fin n → FileInfo) :
    ((∀ i, (transferInfo i).isConsumed = true) ∧
      allocateNewInfoInstance fileId transferInfo = none) ∨
    ∃ i, (transferInfo i).isConsumed = false ∧
      allocateNewInfoInstance fileId transferInfo =
        some (i, Function.update transferInfo i (.claimed fileId)) := by
  unfold allocateNewInfoInstance
  obtain ⟨hnone, hfind⟩ | ⟨i, hi, hfind⟩ := find_slot fun i => (transferInfo i).isConsumed = false
  · rw [hfind]
    exact .inl ⟨fun i => by simpa using hnone i, rfl⟩
  · rw [hfind]
    exact .inr ⟨i, hi, rfl⟩

/-! ## A release -/

namespace Transfers.Stands

variable {s : Transfers n} {m : UInt32 → Option FileInfo}

/-- A consumed entry is zeroed. -/
theorem zero_update (h : s.Stands m) (i : Fin n) :
    ∀ j, (Function.update s.transferInfo i .zero j).isConsumed = false →
      Function.update s.transferInfo i .zero j = .zero := by
  intro j hj
  by_cases hij : j = i
  · rw [hij, Function.update_self]
  · rw [Function.update_of_ne hij] at hj ⊢
    exact h.zero j hj

theorem release (h : s.Stands m) {fileId : UInt32} (hid : fileId ≠ scratchFileIdUnused) :
    (onReleaseScratchBuffer fileId s).Stands (Function.update m fileId none) := by
  have hslot := h.slot_iff hid
  have hkept := remove_kept h.kept fileId
  unfold onReleaseScratchBuffer
  cases hm : m fileId with
  | none =>
    rw [h.getFileInfoById_none hm]
    obtain ⟨-, hremove⟩ | ⟨i, hi, -⟩ := remove_cases fileId s.pool
    · rw [hremove, ← hm, Function.update_eq_self]
      exact ⟨h.kept, h.zero, h.info, h.slots⟩
    · rw [hm] at hslot
      exact nomatch hslot.1 ⟨i, hi⟩
  | some info =>
    obtain ⟨i, hget, hentry, heq⟩ := h.getFileInfoById_some hm
    rw [hget]
    obtain ⟨hnone, -⟩ | ⟨j, hj, hremove⟩ := remove_cases fileId s.pool
    · obtain ⟨j, hj⟩ := hslot.2 (by rw [hm]; rfl)
      exact absurd hj (hnone j)
    · rw [hremove] at hkept ⊢
      refine ⟨hkept, h.zero_update i, ?_, ?_⟩
      · have herase := h.info.erase (infoSlot_eq_some.2 ⟨hentry.1, hentry.2, rfl⟩)
        rwa [show none = infoSlot .zero from rfl, ← Function.comp_update] at herase
      · have herase := h.slots.erase (i := j) (poolSlot_eq_some.2 ⟨hid, by rw [← hj]⟩)
        have hmap : Option.map FileInfo.scratch ∘ Function.update m fileId none =
            Function.update (Option.map FileInfo.scratch ∘ m) fileId none :=
          Function.comp_update ..
        rw [hmap]
        rwa [show none = poolSlot ⟨scratchFileIdUnused, none⟩ from rfl,
          ← Function.comp_update] at herase

end Transfers.Stands

/-! ## A request -/

/-- What a request comes to when the tables stand for the map. -/
inductive RequestEnd (asserts : Bool) (s : Transfers n) (m : UInt32 → Option FileInfo)
    (inDfu room : Bool) (request : TransferRequest) : Option (TransferResponse × Transfers n) → Prop
  | stopped : ¬ request.Described asserts → RequestEnd asserts s m inDfu room request none
  | turnedAway {response} : response.status = .reject →
      inDfu = true ∨ m request.fileId = none ∧ (∀ i, (s.transferInfo i).isConsumed = true) →
      RequestEnd asserts s m inDfu room request (some (response, s))
  /-- The entry is wiped, and the pool has no second buffer for the file. -/
  | repeated {response s'} : inDfu = false → request.Described asserts → m request.fileId ≠ none →
      response.status = .reject → s'.transferInfo ≠ s.transferInfo →
      RequestEnd asserts s m inDfu room request (some (response, s'))
  /-- The slot of the pool stays in use. -/
  | noMemory {response s'} : inDfu = false → request.Described asserts →
      m request.fileId = none → (∃ i, (s.transferInfo i).isConsumed = false) → room = false →
      response.status = .reject → s'.pool.files ≠ s.pool.files →
      RequestEnd asserts s m inDfu room request (some (response, s'))
  | served {response s' info block} : inDfu = false → request.Described asserts →
      m request.fileId = none → (∃ i, (s.transferInfo i).isConsumed = false) → room = true →
      response.status = s.context.transferRequestAction → response.scratchBuffer = some block →
      s'.pool.heap.Live block →
      s'.pool.heap.allocated[block]? = some request.minimumScratchBufferSize →
      info.fileSize = request.fileSize →
      s'.Stands (Function.update m request.fileId (some info)) →
      s'.context.transferRequestAction = s.context.transferRequestAction →
      RequestEnd asserts s m inDfu room request (some (response, s'))

section Enter

variable (asserts : Bool) {room : Bool} {request : TransferRequest} {s : Transfers n}
  {pool : Scratch n}

/-- Without a buffer the entry is given back. -/
theorem enterRequest_none
    (hnull : request.fileDescriptorSize ≠ 0 → request.fileDescriptor ≠ none)
    (hcreate : scratchBufferCreate request.fileId request.minimumScratchBufferSize room s.pool =
      (none, pool)) (info : Fin n) (claimed : Fin n → FileInfo) :
    (¬ request.Described asserts ∧ enterRequest asserts room request info claimed s = none) ∨
    (request.Described asserts ∧ enterRequest asserts room request info claimed s =
      some (⟨.reject, s.context.transferRequestRejectReason, none, 0⟩,
        { s with transferInfo := Function.update claimed info .zero, pool := pool })) := by
  unfold enterRequest
  split
  · next hassert => exact .inl ⟨fun hdescribed => hassert.2 (hdescribed.2.1 hassert.1), rfl⟩
  next hassert =>
  split
  · next hlong => exact .inl ⟨fun hdescribed => absurd hlong (not_lt.2 hdescribed.2.2), rfl⟩
  next hfits =>
  refine .inr ⟨⟨hnull, fun h => not_not.1 (not_and.1 hassert h), not_lt.1 hfits⟩, ?_⟩
  simp only [hcreate, releaseInfoInstance, Option.elim_some, Function.update_idem]

/-- With a buffer the entry keeps it. -/
theorem enterRequest_some {block : Nat}
    (hnull : request.fileDescriptorSize ≠ 0 → request.fileDescriptor ≠ none)
    (hcreate : scratchBufferCreate request.fileId request.minimumScratchBufferSize room s.pool =
      (some block, pool)) (info : Fin n) (claimed : Fin n → FileInfo) :
    (¬ request.Described asserts ∧ enterRequest asserts room request info claimed s = none) ∨
    (request.Described asserts ∧ enterRequest asserts room request info claimed s =
      some (⟨s.context.transferRequestAction, s.context.transferRequestRejectReason, some block,
          request.minimumScratchBufferSize⟩,
        { transferInfo := Function.update claimed info
            { (claimed info).fill request with scratch := some block }
          pool := pool
          context := { s.context with startedTransfer := true } })) := by
  unfold enterRequest
  split
  · next hassert => exact .inl ⟨fun hdescribed => hassert.2 (hdescribed.2.1 hassert.1), rfl⟩
  next hassert =>
  split
  · next hlong => exact .inl ⟨fun hdescribed => absurd hlong (not_lt.2 hdescribed.2.2), rfl⟩
  next hfits =>
  refine .inr ⟨⟨hnull, fun h => not_not.1 (not_and.1 hassert h), not_lt.1 hfits⟩, ?_⟩
  simp only [hcreate, Function.update_idem, Function.update_self]

end Enter

namespace Transfers.Stands

variable {s : Transfers n} {m : UInt32 → Option FileInfo} {request : TransferRequest}

/-- The pool refuses a second buffer. -/
theorem create_none (h : s.Stands m) {fileId : UInt32} (hid : fileId ≠ scratchFileIdUnused)
    (hsome : (m fileId).isSome) (size : Nat) (room : Bool) :
    scratchBufferCreate fileId size room s.pool = (none, s.pool) := by
  obtain ⟨-, hcreate⟩ | ⟨-, htakes, -⟩ := create_cases fileId size room s.pool
  · exact hcreate
  · obtain ⟨i, hi⟩ := (h.slot_iff hid).2 hsome
    exact absurd hi (htakes.1 i)

/-- A file without an entry gets a slot of the pool. -/
theorem create_some (h : s.Stands m) {fileId : UInt32} (hid : fileId ≠ scratchFileIdUnused)
    (hnone : m fileId = none) (hfree : ∃ i, (s.transferInfo i).isConsumed = false) (size : Nat)
    (room : Bool) :
    ∃ i, s.pool.Takes fileId ∧ ¬ s.pool.Used i ∧ scratchBufferCreate fileId size room s.pool =
      ((s.pool.heap.malloc room size).1,
        { files := Function.update s.pool.files i ⟨fileId, (s.pool.heap.malloc room size).1⟩,
          heap := (s.pool.heap.malloc room size).2 }) := by
  obtain ⟨hnot, -⟩ | hcreate := create_cases fileId size room s.pool
  · refine absurd ⟨fun i hi => ?_, h.free_iff.1 hfree⟩ hnot
    have := (h.slot_iff hid).1 ⟨i, hi⟩
    rw [hnone] at this
    cases this
  · exact hcreate

/-- A file without an entry gets one, and a buffer. -/
theorem serve (h : s.Stands m) {fileId : UInt32} (hid : fileId ≠ scratchFileIdUnused)
    (hnone : m fileId = none) {i : Fin n} (hi : (s.transferInfo i).isConsumed = false) {size : Nat}
    {block : Nat} {pool : Scratch n}
    (hcreate : scratchBufferCreate fileId size true s.pool = (some block, pool)) (info : FileInfo)
    (hconsumed : info.isConsumed = true) (hfile : info.fileId = fileId)
    (hscratch : info.scratch = some block) (context : SbdtContext) :
    Transfers.Stands ⟨Function.update s.transferInfo i info, pool, context⟩
        (Function.update m fileId (some info)) ∧
      pool.heap.Live block ∧ pool.heap.allocated[block]? = some size := by
  obtain ⟨j, htakes, hj, heq⟩ := h.create_some hid hnone ⟨i, hi⟩ size true
  have hkept := create_kept h.kept size hid (fun _ => rfl)
  rw [hcreate] at heq hkept
  obtain ⟨rfl, rfl⟩ : block = s.pool.heap.allocated.length ∧ pool =
      { files := Function.update s.pool.files j ⟨fileId, some s.pool.heap.allocated.length⟩,
        heap := (s.pool.heap.malloc true size).2 } := by
    simpa using heq
  refine ⟨⟨hkept, ?_, ?_, ?_⟩, h.kept.accounts.live_malloc size, by simp⟩
  · intro i' hi'
    by_cases hii : i' = i
    · subst hii
      simp [hconsumed] at hi'
    · simp only [Function.update_of_ne hii] at hi' ⊢
      exact h.zero i' hi'
  · have hinsert := h.info.insert (i := i) (infoSlot_eq_none.2 hi) hnone info
    rw [Function.comp_update]
    rwa [← infoSlot_eq_some.2 ⟨hconsumed, hfile, rfl⟩] at hinsert
  · have hunused : (s.pool.files j).id = scratchFileIdUnused := by
      simpa [Scratch.Used] using hj
    have hinsert := h.slots.insert (i := j) (k := fileId) (poolSlot_eq_none.2 hunused)
      (by simp [hnone]) (some s.pool.heap.allocated.length)
    have hmap : Option.map FileInfo.scratch ∘ Function.update m fileId (some info) =
        Function.update (Option.map FileInfo.scratch ∘ m) fileId
          (some (some s.pool.heap.allocated.length)) := by
      rw [Function.comp_update, Option.map_some, hscratch]
    rw [hmap, Function.comp_update]
    rwa [← poolSlot_eq_some.2 ⟨hid, rfl⟩] at hinsert

/-- The slot of the wiped entry, or another one, is claimed for a moment. -/
theorem enter_repeated (h : s.Stands m) (asserts : Bool)
    (hid : request.fileId ≠ scratchFileIdUnused) {i : Fin n} (hentry : s.Entry request.fileId i)
    {j : Fin n} (hj : (Function.update s.transferInfo i .zero j).isConsumed = false)
    (hnull : request.fileDescriptorSize ≠ 0 → request.fileDescriptor ≠ none) (room : Bool) :
    RequestEnd asserts s m false room request
      (enterRequest asserts room request j
        (Function.update (Function.update s.transferInfo i .zero) j (.claimed request.fileId))
        s) := by
  have hm := h.entry hentry
  obtain ⟨hnot, henter⟩ | ⟨hdescribed, henter⟩ := enterRequest_none asserts hnull
    (h.create_none hid (by rw [hm]; rfl) request.minimumScratchBufferSize room) j
    (Function.update (Function.update s.transferInfo i .zero) j (.claimed request.fileId))
  · rw [henter]
    exact .stopped hnot
  · rw [henter]
    refine .repeated rfl hdescribed (by simp [hm]) rfl fun heq => ?_
    have hi := congrFun heq i
    rw [Function.update_idem,
      Function.update_eq_self_iff.2 (h.zero_update i j hj).symm] at hi
    simp only [Function.update_self] at hi
    have hconsumed := hentry.1
    rw [← hi] at hconsumed
    cases hconsumed

/-- A file without an entry gets one, as far as the memory goes. -/
theorem enter_new (h : s.Stands m) (asserts : Bool) (hid : request.fileId ≠ scratchFileIdUnused)
    (hnone : m request.fileId = none) {i : Fin n} (hi : (s.transferInfo i).isConsumed = false)
    (hnull : request.fileDescriptorSize ≠ 0 → request.fileDescriptor ≠ none) (room : Bool) :
    RequestEnd asserts s m false room request (enterRequest asserts room request i
      (Function.update s.transferInfo i (.claimed request.fileId)) s) := by
  obtain ⟨j, htakes, hj, hcreate⟩ :=
    h.create_some hid hnone ⟨i, hi⟩ request.minimumScratchBufferSize room
  cases room with
  | false =>
    rw [Heap.malloc_false] at hcreate
    obtain ⟨hnot, henter⟩ | ⟨hdescribed, henter⟩ := enterRequest_none asserts hnull hcreate i
      (Function.update s.transferInfo i (.claimed request.fileId))
    · rw [henter]
      exact .stopped hnot
    · rw [henter]
      refine .noMemory rfl hdescribed hnone ⟨i, hi⟩ rfl rfl fun heq => ?_
      have hslot := congrFun heq j
      simp only [Function.update_self] at hslot
      exact htakes.1 j (by rw [← hslot])
  | true =>
    rw [Heap.malloc_true] at hcreate
    obtain ⟨hnot, henter⟩ | ⟨hdescribed, henter⟩ := enterRequest_some asserts hnull hcreate i
      (Function.update s.transferInfo i (.claimed request.fileId))
    · rw [henter]
      exact .stopped hnot
    · rw [henter, Function.update_idem, Function.update_self]
      obtain ⟨hstands, hlive, hsize⟩ := h.serve hid hnone hi hcreate
        { (FileInfo.claimed request.fileId).fill request with
          scratch := some s.pool.heap.allocated.length } rfl rfl rfl
        { s.context with startedTransfer := true }
      exact .served rfl hdescribed hnone ⟨i, hi⟩ rfl rfl rfl hlive hsize rfl hstands rfl

theorem request_end (h : s.Stands m) (asserts : Bool)
    (hid : request.fileId ≠ scratchFileIdUnused) (inDfu room : Bool) (response : TransferResponse) :
    RequestEnd asserts s m inDfu room request
      (onSbdtTransferRequest asserts inDfu room request response s) := by
  unfold onSbdtTransferRequest
  split
  · next hdfu => exact .turnedAway rfl (.inl hdfu)
  next hdfu =>
  rw [Bool.not_eq_true] at hdfu
  subst hdfu
  split
  · next hnull => exact .stopped fun hdescribed => hdescribed.1 hnull.1 hnull.2
  next hnull =>
  cases hm : m request.fileId with
  | some info =>
    obtain ⟨i, hget, hentry, -⟩ := h.getFileInfoById_some hm
    simp only [hget, releaseInfoInstance, Option.elim_some]
    obtain ⟨hfull, -⟩ | ⟨j, hj, hallocate⟩ := allocateNewInfoInstance_cases request.fileId
      (Function.update s.transferInfo i .zero)
    · -- the slot of the wiped entry is free
      have hi := hfull i
      rw [Function.update_self] at hi
      cases hi
    · simp only [hallocate]
      exact h.enter_repeated asserts hid hentry hj (not_and.1 hnull) room
  | none =>
    simp only [h.getFileInfoById_none hm, releaseInfoInstance, Option.elim_none]
    obtain ⟨hfull, hallocate⟩ | ⟨i, hi, hallocate⟩ :=
      allocateNewInfoInstance_cases request.fileId s.transferInfo
    · simp only [hallocate]
      exact .turnedAway rfl (.inr ⟨hm, hfull⟩)
    · simp only [hallocate]
      exact h.enter_new asserts hid hm hi (not_and.1 hnull) room

end Transfers.Stands

/-! ## Runs -/

theorem init_stands {s : Transfers n} {asserts : Bool} (h : (bulkTransfers n asserts).init s) :
    s.Stands fun _ => none := by
  obtain ⟨hzero, hinit⟩ := h
  have hinfo : infoSlot ∘ s.transferInfo = fun _ => none := by
    funext i
    simp only [Function.comp_apply, hzero]
    rfl
  have hslots : poolSlot ∘ s.pool.files = fun _ => none := by
    funext i
    rw [Function.comp_apply, poolSlot_eq_none]
    rw [scratchBufferInit] at hinit
    split at hinit
    · rw [← Option.some.inj hinit]
    · cases hinit
  refine ⟨init_kept hinit, fun i _ => hzero i, ?_, ?_⟩
  · rw [hinfo]
    exact .empty
  · rw [hslots]
    exact .empty

section Step

variable {s s' : Transfers n} {m : UInt32 → Option FileInfo} {asserts : Bool} {e : Event}

/-- One event keeps the tables together. -/
theorem step_stands (h : s.Stands m) (hregular : e.Regular) (horderly : s.Orderly asserts e)
    (hstep : (bulkTransfers n asserts).step s e s') : ∃ m', s'.Stands m' := by
  obtain ⟨answer, hhandle⟩ := hstep
  cases e with
  | request inDfu room request response =>
    have hend := h.request_end asserts hregular inDfu room response
    simp only [Transfers.handle] at hhandle
    obtain ⟨final, hfinal, heq⟩ := Option.map_eq_some_iff.1 hhandle
    rw [hfinal] at hend
    cases heq
    cases hend with
    | turnedAway => exact ⟨m, h⟩
    | repeated hdfu hdescribed hsome =>
      obtain ⟨info, hinfo⟩ := Option.ne_none_iff_exists'.1 hsome
      obtain ⟨i, hi, -⟩ := h.exists_entry hinfo
      exact absurd hi ((horderly hdfu hdescribed).1 i)
    | noMemory hdfu hdescribed hnone hfree hroom =>
      have := ((horderly hdfu hdescribed).2 hfree).1
      rw [hroom] at this
      cases this
    | served hdfu hdescribed hnone hfree hroom hstatus hbuffer hlive hsize hfile hstands =>
      exact ⟨_, hstands⟩
  | release fileId =>
    cases hhandle
    exact ⟨_, h.release hregular⟩
  | configure action reason =>
    cases hhandle
    exact ⟨m, h.configure _⟩

theorem meets_request_iff {inDfu room : Bool} {request : TransferRequest}
    {response : TransferResponse} :
    s.Meets asserts (.request inDfu room request response) ↔
      ∀ final s', onSbdtTransferRequest asserts inDfu room request response s = some (final, s') →
        s'.InStep ∧ s.Answers request final s' := by
  constructor
  · intro hmeets final s' hfinal
    obtain ⟨hstep, hanswers⟩ := hmeets (some final) s' (by simp [Transfers.handle, hfinal])
    exact ⟨hstep, hanswers _ _ _ _ rfl final rfl⟩
  · intro hmeets answer s' hhandle
    obtain ⟨⟨final, tables⟩, hfinal, heq⟩ := Option.map_eq_some_iff.1 hhandle
    cases heq
    obtain ⟨hstep, hanswers⟩ := hmeets final tables hfinal
    refine ⟨hstep, ?_⟩
    rintro _ _ _ _ ⟨⟩ _ ⟨⟩
    exact hanswers

theorem request_meets_iff (h : s.Stands m) {inDfu room : Bool} {request : TransferRequest}
    {response : TransferResponse} (hid : request.fileId ≠ scratchFileIdUnused) :
    s.Meets asserts (.request inDfu room request response) ↔
      s.Orderly asserts (.request inDfu room request response) := by
  have hend := h.request_end asserts hid inDfu room response
  rw [meets_request_iff]
  cases hresult : onSbdtTransferRequest asserts inDfu room request response s with
  | none =>
    rw [hresult] at hend
    cases hend with
    | stopped hnot =>
      refine iff_of_true (fun _ _ heq => ?_) fun _ hdescribed => absurd hdescribed hnot
      cases heq
  | some result =>
    rw [hresult] at hend
    cases hend with
    | turnedAway hstatus hreason =>
      refine iff_of_true ?_ fun hdfu hdescribed => ?_
      · rintro final s' ⟨⟩
        refine ⟨h.inStep, ⟨fun haccept => ?_, fun _ => ⟨rfl, rfl⟩⟩⟩
        rw [hstatus] at haccept
        cases haccept
      · obtain hdfu' | ⟨hnone, hfull⟩ := hreason
        · rw [hdfu] at hdfu'
          cases hdfu'
        · refine ⟨h.no_entry hnone, fun hfree => ?_⟩
          obtain ⟨i, hi⟩ := hfree
          rw [hfull i] at hi
          cases hi
    | repeated hdfu hdescribed hsome hstatus hdiffer =>
      refine iff_of_false (fun hmeets => ?_) fun horderly => ?_
      · exact hdiffer ((hmeets _ _ rfl).2.rejected hstatus).1
      · obtain ⟨info, hinfo⟩ := Option.ne_none_iff_exists'.1 hsome
        obtain ⟨i, hi, -⟩ := h.exists_entry hinfo
        exact (horderly hdfu hdescribed).1 i hi
    | noMemory hdfu hdescribed hnone hfree hroom hstatus hdiffer =>
      refine iff_of_false (fun hmeets => ?_) fun horderly => ?_
      · exact hdiffer ((hmeets _ _ rfl).2.rejected hstatus).2
      · have hroom' := ((horderly hdfu hdescribed).2 hfree).1
        rw [hroom] at hroom'
        cases hroom'
    | @served _ _ info block hdfu hdescribed hnone hfree hroom hstatus hbuffer hlive hsize hfile
        hstands =>
      cases haction : s.context.transferRequestAction with
      | accept =>
        refine iff_of_true ?_ fun _ _ => ⟨h.no_entry hnone, fun _ => ⟨hroom, haction⟩⟩
        rintro final s' ⟨⟩
        refine ⟨hstands.inStep, ⟨fun _ => ⟨block, hbuffer, hlive, hsize⟩, fun hreject => ?_⟩⟩
        rw [hstatus, haction] at hreject
        cases hreject
      | reject =>
        refine iff_of_false (fun hmeets => ?_) fun horderly => ?_
        · -- the entry is new
          obtain ⟨i, hi, -⟩ := hstands.exists_entry (Function.update_self ..)
          unfold Transfers.Entry at hi
          rw [((hmeets _ _ rfl).2.rejected (hstatus.trans haction)).1] at hi
          exact h.no_entry hnone i hi
        · have haction' := ((horderly hdfu hdescribed).2 hfree).2
          rw [haction] at haction'
          cases haction'

/-- Exactly the orderly events are as expected. -/
theorem meets_iff (h : s.Stands m) (hregular : e.Regular) :
    s.Meets asserts e ↔ s.Orderly asserts e := by
  cases e with
  | request inDfu room request response => exact request_meets_iff h hregular
  | release fileId =>
    refine iff_of_true (fun answer s' hhandle => ?_) trivial
    cases hhandle
    refine ⟨(h.release hregular).inStep, fun _ _ _ _ heq => ?_⟩
    cases heq
  | configure action reason =>
    refine iff_of_true (fun answer s' hhandle => ?_) trivial
    cases hhandle
    refine ⟨(h.configure _).inStep, fun _ _ _ _ heq => ?_⟩
    cases heq

end Step

theorem reached_stands {s : Transfers n} {asserts : Bool}
    (h : (bulkTransfers n asserts).Reached (fun s e => e.Regular ∧ s.Orderly asserts e) s) :
    ∃ m, s.Stands m := by
  refine h.invariant (I := fun s => ∃ m, s.Stands m) (fun s hinit => ⟨_, init_stands hinit⟩) ?_
  rintro s e s' ⟨m, hm⟩ ⟨hregular, horderly⟩ hstep
  exact step_stands hm hregular horderly hstep

/-- As long as every request is orderly the tables are in step, and then exactly the orderly
requests keep them so and are answered well. -/
theorem transfers_in_step {s : Transfers n} (asserts : Bool)
    (h : (bulkTransfers n asserts).Reached (fun s e => e.Regular ∧ s.Orderly asserts e) s) :
    s.InStep ∧ ∀ e : Event, e.Regular → (s.Meets asserts e ↔ s.Orderly asserts e) := by
  obtain ⟨m, hm⟩ := reached_stands h
  exact ⟨hm.inStep, fun e hregular => meets_iff hm hregular⟩

/-! ## A run of three slots -/

def acceptAll : SbdtContext := ⟨.accept, .generic, 0, false⟩

/-- Before the first request. -/
def freshTransfers (n : Nat) : Transfers n := ⟨fun _ => .zero, fresh n, acceptAll⟩

/-- A request for 64 bytes, without a descriptor. -/
def plainRequest (fileId : UInt32) : Event :=
  .request false true ⟨16, fileId, 32, 64, none, 0⟩ ⟨.reject, .none, none, 0⟩

def Transfers.after (s : Transfers n) (asserts : Bool) (e : Event) : Transfers n :=
  (s.handle asserts e).elim s Prod.snd

/-- One file is open. -/
def oneTransfer : Transfers 3 := (freshTransfers 3).after true (plainRequest 7)

theorem plainRequest_orderly {s : Transfers n} (asserts : Bool) {fileId : UInt32}
    (hnone : ∀ i, ¬ s.Entry fileId i) (haccept : s.context.transferRequestAction = .accept) :
    s.Orderly asserts (plainRequest fileId) :=
  fun _ _ => ⟨hnone, fun _ => ⟨rfl, haccept⟩⟩

theorem oneTransfer_reached :
    (bulkTransfers 3 true).Reached (fun s e => e.Regular ∧ s.Orderly true e) oneTransfer := by
  refine .step (.init (s := freshTransfers 3) ⟨fun _ => rfl, rfl⟩) (a := plainRequest 7) ⟨?_, ?_⟩
    ⟨_, rfl⟩
  · change (7 : UInt32) ≠ scratchFileIdUnused
    decide
  · exact plainRequest_orderly true (by decide) rfl

theorem transfers_in_step_one :
    oneTransfer.InStep ∧ ∀ e : Event, e.Regular →
      (oneTransfer.Meets true e ↔ oneTransfer.Orderly true e) :=
  transfers_in_step true oneTransfer_reached

/-- The second request for an open file is rejected. The pool keeps the buffer of the first one, and
the entry is gone. -/
theorem repeated_request_drifts :
    (bulkTransfers 3 true).Reached (fun _ e => e.Regular) oneTransfer ∧
      ¬ oneTransfer.Meets true (plainRequest 7) ∧
      (bulkTransfers 3 true).Reached (fun _ e => e.Regular)
        (oneTransfer.after true (plainRequest 7)) ∧
      ¬ (oneTransfer.after true (plainRequest 7)).InStep := by
  have hreached : (bulkTransfers 3 true).Reached (fun _ e => e.Regular) oneTransfer :=
    oneTransfer_reached.mono fun _ _ h => h.1
  have hstep : (bulkTransfers 3 true).step oneTransfer (plainRequest 7)
      (oneTransfer.after true (plainRequest 7)) := ⟨_, rfl⟩
  have hdrifts : ¬ (oneTransfer.after true (plainRequest 7)).InStep := by
    intro hsame
    obtain ⟨i, hi, -⟩ := (hsame.held 7 0 (by decide) ⟨0, rfl⟩).1
    revert i
    decide
  refine ⟨hreached, fun hmeets => ?_, hreached.step ?_ hstep, hdrifts⟩
  · obtain ⟨answer, hanswer⟩ := hstep
    exact hdrifts (hmeets answer _ hanswer).1
  · change (7 : UInt32) ≠ scratchFileIdUnused
    decide

end Sidewalk.Sbdt
