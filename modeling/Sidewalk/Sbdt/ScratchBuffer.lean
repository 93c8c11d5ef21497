import Mathlib
import Sidewalk.Lib.Heap
import Sidewalk.Lib.Slots
import Sidewalk.Lib.System

/-!
# The scratch buffers of bulk data transfer

`scratch_buffer.c`. A slot is in use when its identifier is not the reserved one; the buffer is a
second field, which `scratch_buffer_create` fills after it has claimed the slot.
-/

namespace Sidewalk.Sbdt

open Sidewalk.Lib

/-! ## The code -/

def scratchFileIdUnused : UInt32 := 0xFFFFFFFF

/-- `file_ctx_t`, with the number of the block that `buffer` points to. -/
structure FileCtx where
  id : UInt32
  buffer : Option Nat
  deriving DecidableEq

/-- The table `files` with `CONFIG_SBDT_MAX_PARALLEL_TRANSFERS` slots, and the heap. -/
structure Scratch (n : Nat) where
  files : Fin n → FileCtx
  heap : Heap

/-- Before `main` the table is zeroed. -/
def Scratch.boot (n : Nat) : Scratch n := ⟨fun _ => ⟨0, none⟩, .empty⟩

variable {n : Nat}

/-- The counter is a `uint8_t`: it never reaches a bound above 255, and the loop does not end. -/
def scratchBufferInit (s : Scratch n) : Option (Scratch n) :=
  if n < 256 then some { s with files := fun i => { s.files i with id := scratchFileIdUnused } }
  else none

/-- One round of the loop of `scratch_bufer_deinit`. -/
def deinitSlot (s : Scratch n) (i : Fin n) : Scratch n :=
  if (s.files i).id ≠ scratchFileIdUnused then
    { files := Function.update s.files i ⟨scratchFileIdUnused, none⟩,
      heap := s.heap.release (s.files i).buffer }
  else { s with files := Function.update s.files i { s.files i with id := scratchFileIdUnused } }

def scratchBuferDeinit (s : Scratch n) : Scratch n := (List.finRange n).foldl deinitSlot s

/-- The loop of `scratch_buffer_create`: `none` when the identifier is assigned, else `p_file`. -/
def createLoop (files : Fin n → FileCtx) (fileId : UInt32) :
    List (Fin n) → Option (Fin n) → Option (Option (Fin n))
  | [], pFile => some pFile
  | i :: rest, pFile =>
    let pFile := if pFile.isNone ∧ (files i).id = scratchFileIdUnused then some i else pFile
    if (files i).id = fileId then none else createLoop files fileId rest pFile

/-- `room` tells whether the allocation succeeds, if there is one. -/
def scratchBufferCreate (fileId : UInt32) (size : Nat) (room : Bool) (s : Scratch n) :
    Option Nat × Scratch n :=
  match createLoop s.files fileId (List.finRange n) none with
  | none => (none, s)
  | some none => (none, s)
  | some (some i) =>
    let p := s.heap.malloc room size
    (p.1, { files := Function.update s.files i ⟨fileId, p.1⟩, heap := p.2 })

def scratchBufferRemove (fileId : UInt32) (s : Scratch n) : Scratch n :=
  match (List.finRange n).find? fun i => (s.files i).id = fileId with
  | none => s
  | some i =>
    { files := Function.update s.files i ⟨scratchFileIdUnused, none⟩,
      heap := s.heap.release (s.files i).buffer }

/-- A call, with the answer of the allocator. -/
inductive Call
  | create (fileId : UInt32) (size : Nat) (room : Bool)
  | remove (fileId : UInt32)
  | deinit
  deriving DecidableEq

def Scratch.call (s : Scratch n) : Call → Scratch n
  | .create fileId size room => (scratchBufferCreate fileId size room s).2
  | .remove fileId => scratchBufferRemove fileId s
  | .deinit => scratchBuferDeinit s

/-- The module from its initialisation on. -/
def scratchBuffer (n : Nat) : System (Scratch n) Call where
  init s := scratchBufferInit (.boot n) = some s
  step s a s' := s' = s.call a

/-! ## What a sound pool is -/

def Scratch.Used (s : Scratch n) (i : Fin n) : Prop := (s.files i).id ≠ scratchFileIdUnused

instance (s : Scratch n) (i : Fin n) : Decidable (s.Used i) := inferInstanceAs (Decidable (_ ≠ _))

/-- The slots in use. -/
def Scratch.usedSlots (s : Scratch n) : List (Fin n) := (List.finRange n).filter (s.Used ·)

/-- Slots and allocations correspond to each other. -/
structure Scratch.Sound (s : Scratch n) : Prop where
  used_iff : ∀ i, s.Used i ↔ ∃ block, (s.files i).buffer = some block ∧ s.heap.Live block
  owner : ∀ i j block, (s.files i).buffer = some block → (s.files j).buffer = some block → i = j
  ids : ∀ i j, s.Used i → s.Used j → (s.files i).id = (s.files j).id → i = j
  live_eq : s.heap.live.length = s.usedSlots.length
  live_le : s.heap.live.length ≤ n
  freed : ∀ block < s.heap.allocated.length,
    s.heap.freed.count block = if s.heap.Live block then 0 else 1

/-- The request takes a slot: its identifier is not assigned and there is a slot to take. -/
def Scratch.Takes (s : Scratch n) (fileId : UInt32) : Prop :=
  (∀ i, (s.files i).id ≠ fileId) ∧ ∃ i, ¬ s.Used i

instance (s : Scratch n) (fileId : UInt32) : Decidable (s.Takes fileId) :=
  inferInstanceAs (Decidable (_ ∧ _))

/-- The allocator has room whenever a slot is taken. -/
def Scratch.Served (s : Scratch n) : Call → Prop
  | .create fileId _ room => s.Takes fileId → room = true
  | .remove _ => True
  | .deinit => True

/-- The identifier of the call is not the reserved one. -/
def Call.Regular : Call → Prop
  | .create fileId _ _ => fileId ≠ scratchFileIdUnused
  | .remove fileId => fileId ≠ scratchFileIdUnused
  | .deinit => True

/-! ## The scans -/

theorem createLoop_eq (files : Fin n → FileCtx) (fileId : UInt32) (l : List (Fin n))
    (pFile : Option (Fin n)) :
    createLoop files fileId l pFile =
      if ∃ i ∈ l, (files i).id = fileId then none
      else some (pFile.or (l.find? fun i => (files i).id = scratchFileIdUnused)) := by
  induction l generalizing pFile with
  | nil => simp [createLoop]
  | cons i rest ih =>
    have hmem : (∃ j ∈ i :: rest, (files j).id = fileId) ↔
        (files i).id = fileId ∨ ∃ j ∈ rest, (files j).id = fileId := by simp
    simp only [createLoop, ih, hmem]
    by_cases hid : (files i).id = fileId
    · rw [if_pos hid, if_pos (.inl hid)]
    · simp only [hid, false_or, if_false]
      congr 2
      cases pFile with
      | none => by_cases hunused : (files i).id = scratchFileIdUnused <;> simp [hunused]
      | some j => simp

/-- What a request comes to. -/
theorem create_cases (fileId : UInt32) (size : Nat) (room : Bool) (s : Scratch n) :
    (¬ s.Takes fileId ∧ scratchBufferCreate fileId size room s = (none, s)) ∨
    ∃ i, s.Takes fileId ∧ ¬ s.Used i ∧ scratchBufferCreate fileId size room s =
      ((s.heap.malloc room size).1,
        { files := Function.update s.files i ⟨fileId, (s.heap.malloc room size).1⟩,
          heap := (s.heap.malloc room size).2 }) := by
  unfold scratchBufferCreate
  rw [createLoop_eq]
  by_cases hid : ∃ i ∈ List.finRange n, (s.files i).id = fileId
  · rw [if_pos hid]
    obtain ⟨i, -, hi⟩ := hid
    exact .inl ⟨fun htakes => htakes.1 i hi, rfl⟩
  · rw [if_neg hid, Option.none_or]
    have hfresh : ∀ i, (s.files i).id ≠ fileId := fun i hi => hid ⟨i, List.mem_finRange i, hi⟩
    obtain ⟨hused, hfind⟩ | ⟨i, hi, hfind⟩ :=
      find_slot fun i => (s.files i).id = scratchFileIdUnused
    · rw [hfind]
      refine .inl ⟨fun htakes => ?_, rfl⟩
      obtain ⟨i, hi⟩ := htakes.2
      exact hi (hused i)
    · rw [hfind]
      exact .inr ⟨i, ⟨hfresh, i, not_not.2 hi⟩, not_not.2 hi, rfl⟩

/-- What a removal comes to. -/
theorem remove_cases (fileId : UInt32) (s : Scratch n) :
    ((∀ i, (s.files i).id ≠ fileId) ∧ scratchBufferRemove fileId s = s) ∨
    ∃ i, (s.files i).id = fileId ∧ scratchBufferRemove fileId s =
      { files := Function.update s.files i ⟨scratchFileIdUnused, none⟩,
        heap := s.heap.release (s.files i).buffer } := by
  unfold scratchBufferRemove
  obtain ⟨hnone, hfind⟩ | ⟨i, hi, hfind⟩ := find_slot fun i => (s.files i).id = fileId
  · rw [hfind]
    exact .inl ⟨hnone, rfl⟩
  · rw [hfind]
    exact .inr ⟨i, hi, rfl⟩

/-! ## The invariant -/

/-- The blocks that the slots point to. -/
def owned (files : Fin n → FileCtx) : Multiset Nat := ∑ i, Heap.blocks (files i).buffer

theorem owned_update (files : Fin n → FileCtx) (i : Fin n) (file : FileCtx) :
    owned (Function.update files i file) + Heap.blocks (files i).buffer =
      owned files + Heap.blocks file.buffer := by
  unfold owned
  rw [← Finset.add_sum_erase _ _ (Finset.mem_univ i), ← Finset.add_sum_erase Finset.univ
    (fun j => Heap.blocks (files j).buffer) (Finset.mem_univ i), Function.update_self]
  have hrest : ∑ j ∈ Finset.univ.erase i, Heap.blocks (Function.update files i file j).buffer =
      ∑ j ∈ Finset.univ.erase i, Heap.blocks (files j).buffer :=
    Finset.sum_congr rfl fun j hj => by rw [Function.update_of_ne (Finset.ne_of_mem_erase hj)]
  rw [hrest]
  abel

/-- What holds between the calls: a slot has a buffer when it is in use and only then, the
identifiers in use differ, and the slots own the blocks that are live. -/
structure Scratch.Kept (s : Scratch n) : Prop where
  buffer_iff : ∀ i, s.Used i ↔ (s.files i).buffer.isSome
  ids : ∀ i j, s.Used i → s.Used j → (s.files i).id = (s.files j).id → i = j
  accounts : s.heap.Accounts (owned s.files)

theorem Scratch.Kept.unused {s : Scratch n} (hk : s.Kept) {i : Fin n} (hi : ¬ s.Used i) :
    (s.files i).buffer = none := by
  rw [hk.buffer_iff] at hi
  simpa using hi

theorem init_kept {s : Scratch n} (h : (scratchBuffer n).init s) : s.Kept := by
  have h' : scratchBufferInit (.boot n) = some s := h
  rw [scratchBufferInit] at h'
  split at h'
  · obtain rfl := Option.some.inj h'
    refine ⟨fun i => by simp [Scratch.Used, Scratch.boot], fun i j hi => (hi rfl).elim, ?_⟩
    have howned : owned (fun _ : Fin n => (⟨scratchFileIdUnused, none⟩ : FileCtx)) = 0 := by
      simp [owned]
    change Heap.empty.Accounts _
    simp only [Scratch.boot, howned]
    exact Heap.accounts_empty
  · cases h'

/-- A slot is emptied and its buffer released. -/
theorem Scratch.Kept.clear {s : Scratch n} (hk : s.Kept) (i : Fin n) :
    Scratch.Kept
      { files := Function.update s.files i ⟨scratchFileIdUnused, none⟩,
        heap := s.heap.release (s.files i).buffer } where
  buffer_iff j := by
    by_cases hj : j = i
    · subst hj
      simp [Scratch.Used]
    · simpa [Scratch.Used, hj] using hk.buffer_iff j
  ids j k hj hk' heq := by
    have hne : ∀ m, Scratch.Used (n := n) ⟨Function.update s.files i ⟨scratchFileIdUnused, none⟩,
        s.heap.release (s.files i).buffer⟩ m → m ≠ i := by
      rintro m hm rfl
      simp [Scratch.Used] at hm
    have hji := hne j hj
    have hki := hne k hk'
    simp only [Scratch.Used, Function.update_of_ne hji, Function.update_of_ne hki] at hj hk' heq
    exact hk.ids j k hj hk' heq
  accounts := by
    have howned := owned_update s.files i ⟨scratchFileIdUnused, none⟩
    rw [Heap.blocks_none, add_zero] at howned
    exact Heap.Accounts.release (howned ▸ hk.accounts)

theorem create_kept {s : Scratch n} (hk : s.Kept) {fileId : UInt32} (size : Nat) {room : Bool}
    (hid : fileId ≠ scratchFileIdUnused) (hroom : s.Takes fileId → room = true) :
    (scratchBufferCreate fileId size room s).2.Kept := by
  obtain ⟨-, heq⟩ | ⟨i, htakes, hi, heq⟩ := create_cases fileId size room s
  · rw [heq]
    exact hk
  · rw [heq, hroom htakes]
    refine ⟨fun j => ?_, fun j k hj hk' hjk => ?_, ?_⟩
    · by_cases hj : j = i
      · subst hj
        simp [Scratch.Used, hid]
      · simpa [Scratch.Used, hj] using hk.buffer_iff j
    · -- the new identifier differs from all the others
      by_cases hj : j = i <;> by_cases hk' : k = i
      · rw [hj, hk']
      · subst hj
        simp only [Function.update_self, Function.update_of_ne hk'] at hjk
        exact absurd hjk.symm (htakes.1 k)
      · subst hk'
        simp only [Function.update_self, Function.update_of_ne hj] at hjk
        exact absurd hjk (htakes.1 j)
      · simp only [Scratch.Used, Function.update_of_ne hj, Function.update_of_ne hk'] at *
        exact hk.ids j k ‹_› ‹_› hjk
    · have howned := owned_update s.files i ⟨fileId, (s.heap.malloc true size).1⟩
      rw [hk.unused hi, Heap.blocks_none, add_zero] at howned
      change (s.heap.malloc true size).2.Accounts _
      rw [howned]
      exact hk.accounts.malloc true size

theorem remove_kept {s : Scratch n} (hk : s.Kept) (fileId : UInt32) :
    (scratchBufferRemove fileId s).Kept := by
  obtain ⟨-, heq⟩ | ⟨i, -, heq⟩ := remove_cases fileId s
  · rw [heq]
    exact hk
  · rw [heq]
    exact hk.clear i

theorem deinitSlot_kept {s : Scratch n} (hk : s.Kept) (i : Fin n) : (deinitSlot s i).Kept := by
  unfold deinitSlot
  split
  · exact hk.clear i
  · rename_i hi
    -- the slot is unused already
    have hfile : { s.files i with id := scratchFileIdUnused } = s.files i := by
      rw [← not_ne_iff.1 hi]
    rw [hfile, Function.update_eq_self]
    exact hk

/-- The loop empties the slots it has come by, and the others stay in use or not. -/
theorem deinitLoop_spec (l : List (Fin n)) {s : Scratch n} (hk : s.Kept) :
    (l.foldl deinitSlot s).Kept ∧
      (l.foldl deinitSlot s).heap.allocated = s.heap.allocated ∧
      ∀ i, (l.foldl deinitSlot s).Used i → i ∉ l ∧ s.Used i := by
  induction l generalizing s with
  | nil => exact ⟨hk, rfl, fun i hi => ⟨List.not_mem_nil, hi⟩⟩
  | cons j rest ih =>
    obtain ⟨hkept, halloc, hused⟩ := ih (deinitSlot_kept hk j)
    refine ⟨hkept, halloc.trans ?_, fun i hi => ?_⟩
    · unfold deinitSlot
      split
      · cases (s.files j).buffer <;> rfl
      · rfl
    · obtain ⟨hrest, hi'⟩ := hused i hi
      have hij : i ≠ j := by
        rintro rfl
        unfold deinitSlot at hi'
        split at hi' <;> simp [Scratch.Used] at hi'
      refine ⟨List.not_mem_cons_of_ne_of_not_mem hij hrest, ?_⟩
      unfold deinitSlot at hi'
      split at hi' <;> simpa [Scratch.Used, hij] using hi'

theorem deinit_kept {s : Scratch n} (hk : s.Kept) :
    (scratchBuferDeinit s).Kept ∧ (scratchBuferDeinit s).heap.allocated = s.heap.allocated ∧
      ∀ i, ¬ (scratchBuferDeinit s).Used i := by
  obtain ⟨hkept, halloc, hused⟩ := deinitLoop_spec (List.finRange n) hk
  exact ⟨hkept, halloc, fun i hi => (hused i hi).1 (List.mem_finRange i)⟩

/-- One call keeps the pool. -/
theorem call_kept {s : Scratch n} (hk : s.Kept) {a : Call} (hregular : a.Regular)
    (hserved : s.Served a) : (s.call a).Kept := by
  cases a with
  | create fileId size room => exact create_kept hk size hregular hserved
  | remove fileId => exact remove_kept hk fileId
  | deinit => exact (deinit_kept hk).1

theorem reached_kept {s : Scratch n}
    (h : (scratchBuffer n).Reached (fun s a => a.Regular ∧ s.Served a) s) : s.Kept :=
  h.invariant (fun _ => init_kept) fun _ _ _ hk hguard hstep =>
    hstep ▸ call_kept hk hguard.1 hguard.2

/-! ## Soundness -/

theorem mem_owned {files : Fin n → FileCtx} {block : Nat} :
    block ∈ owned files ↔ ∃ i, (files i).buffer = some block := by
  have hblocks : ∀ i, block ∈ Heap.blocks (files i).buffer ↔ (files i).buffer = some block := by
    intro i
    cases (files i).buffer with
    | none => simp
    | some b => simp [eq_comm]
  simp [owned, Multiset.mem_sum, hblocks]

theorem card_owned {s : Scratch n} (hk : s.Kept) : (owned s.files).card = s.usedSlots.length := by
  have hcard : ∀ i, (Heap.blocks (s.files i).buffer).card = if s.Used i then 1 else 0 := by
    intro i
    by_cases hi : s.Used i
    · obtain ⟨b, hb⟩ := Option.isSome_iff_exists.1 ((hk.buffer_iff i).1 hi)
      simp [hb, hi]
    · simp [hk.unused hi, hi]
  have hslots : s.usedSlots.length = ∑ i, if s.Used i then 1 else 0 := by
    rw [Scratch.usedSlots, ← List.countP_eq_length_filter, Finset.sum_boole, Nat.cast_id]
    have hfilter : Finset.univ.filter s.Used = ((List.finRange n).filter (s.Used ·)).toFinset := by
      ext i
      simp
    rw [hfilter, List.toFinset_card_of_nodup ((List.nodup_finRange n).filter _),
      List.countP_eq_length_filter]
  rw [hslots, owned, Multiset.card_sum]
  exact Finset.sum_congr rfl fun i _ => hcard i

/-- No two slots point to one block. -/
theorem owner_unique {s : Scratch n} (hk : s.Kept) {i j : Fin n} {block : Nat}
    (hi : (s.files i).buffer = some block) (hj : (s.files j).buffer = some block) : i = j := by
  by_contra hij
  -- clearing one of them leaves the block owned once more than it may be
  have howned := owned_update s.files i ⟨scratchFileIdUnused, none⟩
  rw [hi, Heap.blocks_none, add_zero, Heap.blocks_some] at howned
  have hmem : block ∈ owned (Function.update s.files i ⟨scratchFileIdUnused, none⟩) :=
    mem_owned.2 ⟨j, by rw [Function.update_of_ne (Ne.symm hij), hj]⟩
  have hnodup := hk.accounts.nodup
  rw [← howned, Multiset.nodup_add] at hnodup
  exact Multiset.disjoint_left.1 hnodup.2.2 hmem (Multiset.mem_singleton_self block)

theorem Scratch.Kept.sound {s : Scratch n} (hk : s.Kept) : s.Sound := by
  have hlive : s.heap.live.length = s.usedSlots.length := by
    rw [← card_owned hk, ← hk.accounts.live_eq, Multiset.coe_card]
  refine ⟨fun i => ?_, fun i j block => owner_unique hk, hk.ids, hlive, hlive ▸ ?_,
    fun _ => hk.accounts.freed_count⟩
  · rw [hk.buffer_iff, Option.isSome_iff_exists]
    refine exists_congr fun block => ⟨fun hi => ⟨hi, ?_⟩, And.left⟩
    exact hk.accounts.mem_iff.1 (mem_owned.2 ⟨i, hi⟩)
  · exact (List.length_filter_le _ _).trans_eq (List.length_finRange ..)

/-- A request that returns null leaves the pool as it was, exactly when it was served. -/
theorem create_null_iff {s : Scratch n} (fileId : UInt32) (size : Nat)
    (room : Bool) :
    ((scratchBufferCreate fileId size room s).1 = none →
        (scratchBufferCreate fileId size room s).2 = s) ↔
      s.Served (.create fileId size room) := by
  obtain ⟨hnot, heq⟩ | ⟨i, htakes, hi, heq⟩ := create_cases fileId size room s
  · rw [heq]
    exact ⟨fun _ htakes => absurd htakes hnot, fun _ _ => rfl⟩
  · rw [heq]
    cases room with
    | true => exact ⟨fun _ _ => rfl, fun _ hnull => nomatch hnull⟩
    | false =>
      refine ⟨fun hsame => ?_, fun hserved => nomatch hserved htakes⟩
      have hslot : Function.update s.files i ⟨fileId, none⟩ i = s.files i :=
        congrFun (congrArg Scratch.files (hsame rfl)) i
      rw [Function.update_self] at hslot
      have hused : (s.files i).id = fileId := congrArg FileCtx.id hslot.symm
      exact absurd hused (htakes.1 i)

/-- As long as every request that takes a slot is served, the pool stays sound, a request that
returns null changes nothing, and the last release is that of `scratch_bufer_deinit`. -/
theorem served_pool_sound {s : Scratch n}
    (h : (scratchBuffer n).Reached (fun s a => a.Regular ∧ s.Served a) s) :
    s.Sound ∧
      (∀ fileId size room,
        ((scratchBufferCreate fileId size room s).1 = none →
            (scratchBufferCreate fileId size room s).2 = s) ↔
          s.Served (.create fileId size room)) ∧
      (scratchBuferDeinit s).heap.allocated = s.heap.allocated ∧
      ∀ block < s.heap.allocated.length, (scratchBuferDeinit s).heap.freed.count block = 1 := by
  have hk := reached_kept h
  obtain ⟨hkept, halloc, hnone⟩ := deinit_kept hk
  refine ⟨hk.sound, create_null_iff, halloc, ?_⟩
  intro block hlt
  have howned : owned (scratchBuferDeinit s).files = 0 :=
    Finset.sum_eq_zero fun i _ => by rw [hkept.unused (hnone i), Heap.blocks_none]
  exact (howned ▸ hkept.accounts).all_freed (halloc ▸ hlt)

/-- The pool after its initialisation. -/
def fresh (n : Nat) : Scratch n := ⟨fun _ => ⟨scratchFileIdUnused, none⟩, .empty⟩

/-- Two buffers are taken, one is given back, the rest is released, and two are taken again. -/
def poolCalls : List Call :=
  [.create 7 64 true, .create 8 32 true, .remove 7, .deinit, .create 9 16 true, .create 8 48 true]

def busyPool : Scratch 3 := poolCalls.foldl Scratch.call (fresh 3)

theorem served_pool_sound_busy :
    (busyPool.heap.allocated = [64, 32, 16, 48] ∧ busyPool.heap.live = [2, 3]) ∧
    busyPool.Sound ∧
      (∀ fileId size room,
        ((scratchBufferCreate fileId size room busyPool).1 = none →
            (scratchBufferCreate fileId size room busyPool).2 = busyPool) ↔
          busyPool.Served (.create fileId size room)) ∧
      (scratchBuferDeinit busyPool).heap.allocated = busyPool.heap.allocated ∧
      ∀ block < busyPool.heap.allocated.length,
        (scratchBuferDeinit busyPool).heap.freed.count block = 1 := by
  refine ⟨by decide, served_pool_sound ?_⟩
  refine .foldl (fun _ _ => rfl) (.init rfl) fun s => ?_
  simp [poolCalls, Call.Regular, Scratch.Served, scratchFileIdUnused]

/-- The allocator has no room for file 7. Its slot stays in use without a buffer, and the next
request for the file fails although there is room. -/
theorem failed_request_keeps_slot :
    (scratchBuffer 3).Reached (fun _ a => a.Regular) ((fresh 3).call (.create 7 64 false)) ∧
      (scratchBufferCreate 7 64 false (fresh 3)).1 = none ∧
      ¬ ((fresh 3).call (.create 7 64 false)).Sound ∧
      (scratchBufferCreate 7 64 true ((fresh 3).call (.create 7 64 false))).1 = none := by
  refine ⟨.step (.init rfl) ?_ rfl, rfl, fun hsound => ?_, rfl⟩
  · change (7 : UInt32) ≠ scratchFileIdUnused
    decide
  · obtain ⟨block, hblock, -⟩ := (hsound.used_iff 0).1 (by decide)
    exact nomatch hblock

end Sidewalk.Sbdt
