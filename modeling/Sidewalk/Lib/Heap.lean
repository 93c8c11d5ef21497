import Mathlib

/-!
# Allocation and release

A heap numbers the blocks it hands out and remembers every release, so that a block released twice
shows. `Heap.Accounts` says that the blocks not yet released are those that somebody owns, each
once; taking a block, handing it on and releasing it are the three rules that keep it.
-/

namespace Sidewalk.Lib

/-- The sizes of the blocks handed out, the first block first, and the releases. -/
structure Heap where
  allocated : List Nat
  freed : List Nat

namespace Heap

def empty : Heap := ⟨[], []⟩

/-- Whether the heap has room for the block is decided elsewhere. -/
def malloc (room : Bool) (size : Nat) (h : Heap) : Option Nat × Heap :=
  if room then (some h.allocated.length, { h with allocated := h.allocated ++ [size] })
  else (none, h)

def free (block : Nat) (h : Heap) : Heap := { h with freed := block :: h.freed }

/-- Releasing the null pointer does nothing. -/
def release (block : Option Nat) (h : Heap) : Heap := block.elim h h.free

/-- The block has been handed out and not been released. -/
def Live (h : Heap) (block : Nat) : Prop := block < h.allocated.length ∧ block ∉ h.freed

instance (h : Heap) (block : Nat) : Decidable (h.Live block) :=
  inferInstanceAs (Decidable (_ ∧ _))

/-- The blocks that are live, the oldest first. -/
def live (h : Heap) : List Nat := (List.range h.allocated.length).filter (· ∉ h.freed)

theorem mem_live {h : Heap} {block : Nat} : block ∈ h.live ↔ h.Live block := by
  simp [live, Live]

theorem live_nodup (h : Heap) : h.live.Nodup := List.nodup_range.filter _

@[simp] theorem malloc_true (size : Nat) (h : Heap) :
    h.malloc true size =
      (some h.allocated.length, { h with allocated := h.allocated ++ [size] }) := rfl

@[simp] theorem malloc_false (size : Nat) (h : Heap) : h.malloc false size = (none, h) := rfl

@[simp] theorem release_none (h : Heap) : h.release none = h := rfl

@[simp] theorem release_some (block : Nat) (h : Heap) : h.release (some block) = h.free block := rfl

/-! ## Accounts -/

/-- The blocks that a pointer stands for. -/
def blocks (pointer : Option Nat) : Multiset Nat := pointer.elim 0 fun block => {block}

@[simp] theorem blocks_none : blocks none = 0 := rfl

@[simp] theorem blocks_some (block : Nat) : blocks (some block) = {block} := rfl

/-- Every block handed out has been released once, or is owned once. -/
def Accounts (h : Heap) (owned : Multiset Nat) : Prop :=
  ∀ block, h.freed.count block + owned.count block = if block < h.allocated.length then 1 else 0

variable {h : Heap} {owned : Multiset Nat}

theorem accounts_empty : empty.Accounts 0 := by
  intro block
  simp [empty]

theorem Accounts.malloc (ha : h.Accounts owned) (room : Bool) (size : Nat) :
    (h.malloc room size).2.Accounts (owned + blocks (h.malloc room size).1) := by
  cases room with
  | false => simpa using ha
  | true =>
    intro block
    have hblock := ha block
    simp only [malloc_true, blocks_some, Multiset.count_add, Multiset.count_singleton,
      List.length_append, List.length_singleton]
    split_ifs at hblock ⊢ <;> omega

theorem Accounts.release {pointer : Option Nat} (ha : h.Accounts (owned + blocks pointer)) :
    (h.release pointer).Accounts owned := by
  cases pointer with
  | none => simpa using ha
  | some p =>
    intro block
    have hblock := ha block
    change (p :: h.freed).count block + owned.count block =
      if block < h.allocated.length then 1 else 0
    rw [← hblock, blocks_some, Multiset.count_add, Multiset.count_singleton, List.count_cons]
    by_cases hp : block = p
    · simp only [hp, beq_self_eq_true, if_true]
      omega
    · have hp' : p ≠ block := fun h => hp h.symm
      simp [hp, hp']

theorem Accounts.mem_iff (ha : h.Accounts owned) {block : Nat} : block ∈ owned ↔ h.Live block := by
  have hblock := ha block
  rw [Live, ← Multiset.count_pos, ← List.count_pos_iff]
  split_ifs at hblock <;> omega

/-- A new block is live. -/
theorem Accounts.live_malloc (ha : h.Accounts owned) (size : Nat) :
    (h.malloc true size).2.Live h.allocated.length := by
  have hblock := ha h.allocated.length
  rw [if_neg (lt_irrefl _)] at hblock
  have hfreed : h.freed.count h.allocated.length = 0 := by omega
  exact ⟨by simp, List.count_eq_zero.1 hfreed⟩

/-- The releases leave one account of what is owned. -/
theorem Accounts.unique {owned' : Multiset Nat} (ha : h.Accounts owned) (ha' : h.Accounts owned') :
    owned = owned' := by
  ext block
  have hblock := ha block
  have hblock' := ha' block
  omega

theorem Accounts.nodup (ha : h.Accounts owned) : owned.Nodup := by
  rw [Multiset.nodup_iff_count_le_one]
  intro block
  have hblock := ha block
  split_ifs at hblock <;> omega

theorem Accounts.live_eq (ha : h.Accounts owned) : (h.live : Multiset Nat) = owned :=
  (Multiset.Nodup.ext (Multiset.coe_nodup.2 h.live_nodup) ha.nodup).2 fun _ => by
    rw [Multiset.mem_coe, mem_live, ha.mem_iff]

/-- A block that is no longer live has been released once. -/
theorem Accounts.freed_once (ha : h.Accounts owned) {block : Nat}
    (hlt : block < h.allocated.length) (hlive : ¬ h.Live block) : h.freed.count block = 1 := by
  have hblock := ha block
  have howned : block ∉ owned := mt ha.mem_iff.1 hlive
  rw [if_pos hlt, Multiset.count_eq_zero_of_notMem howned] at hblock
  exact hblock

/-- Live blocks have not been released, and the others once. -/
theorem Accounts.freed_count (ha : h.Accounts owned) {block : Nat}
    (hlt : block < h.allocated.length) :
    h.freed.count block = if h.Live block then 0 else 1 := by
  by_cases hlive : h.Live block
  · rw [if_pos hlive]
    exact List.count_eq_zero_of_not_mem hlive.2
  · rw [if_neg hlive]
    exact ha.freed_once hlt hlive

/-- Once nobody owns a block, every block has been released once. -/
theorem Accounts.all_freed (ha : h.Accounts 0) {block : Nat} (hlt : block < h.allocated.length) :
    h.freed.count block = 1 :=
  ha.freed_once hlt fun hlive => Multiset.notMem_zero _ (ha.mem_iff.2 hlive)

end Heap

end Sidewalk.Lib
