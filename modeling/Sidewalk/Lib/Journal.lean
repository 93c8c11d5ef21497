import Mathlib

/-!
# Append-only journals

A journal of bounded capacity takes entries in order, refuses one that does not fit and forgets
nothing. Read through a key it is a map in which the first entry under a key wins.
-/

namespace Sidewalk.Lib

/-- The entries taken so far, which fit the capacity. -/
structure Journal (α : Type*) (size : α → Nat) (capacity : Nat) where
  entries : List α
  fits : (entries.map size).sum ≤ capacity

namespace Journal

variable {α κ : Type*} {size : α → Nat} {capacity : Nat}

def empty : Journal α size capacity := ⟨[], Nat.zero_le _⟩

def used (j : Journal α size capacity) : Nat := (j.entries.map size).sum

/-- There is room for the entry. -/
def Accepts (j : Journal α size capacity) (a : α) : Prop := j.used + size a ≤ capacity

instance (j : Journal α size capacity) (a : α) : Decidable (j.Accepts a) :=
  inferInstanceAs (Decidable (_ ≤ _))

/-- The journal after the entry was offered to it. -/
def push (j : Journal α size capacity) (a : α) : Journal α size capacity :=
  if h : j.Accepts a then
    ⟨j.entries ++ [a], by simpa [Accepts, used] using h⟩
  else j

def pushAll (j : Journal α size capacity) (as : List α) : Journal α size capacity :=
  as.foldl push j

/-- The first entry under a key. -/
def first [DecidableEq κ] (j : Journal α size capacity) (key : α → κ) (k : κ) : Option α :=
  j.entries.find? (key · = k)

theorem entries_push (j : Journal α size capacity) {a : α} (h : j.Accepts a) :
    (j.push a).entries = j.entries ++ [a] := by
  simp only [push, h, dif_pos]

theorem push_of_full (j : Journal α size capacity) {a : α} (h : ¬j.Accepts a) : j.push a = j := by
  simp only [push, h, dif_neg, not_false_eq_true]

end Journal

end Sidewalk.Lib
