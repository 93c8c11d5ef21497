import Sidewalk.Lib.Memory

/-!
# Strictly increasing walks

A `Hops` is a partial successor function on addresses that only moves up and only from addresses
within a bound. The scans of a self-delimiting record stream are walks of this kind: the scan
that looks for a free slot and the scan that looks for a type differ only in where they stop.
Every walk comes to rest (`rest`), and a scan proved for the resting address holds of the whole
loop (`induct`).
-/

namespace Sidewalk.Lib

/-- A walk: `next o` is the address visited after `o`, `none` where the walk stops. -/
structure Hops where
  next : Nat → Option Nat
  bound : Nat
  lt_next : ∀ {o o'}, next o = some o' → o < o'
  le_bound : ∀ {o o'}, next o = some o' → o ≤ bound

namespace Hops

/-- The address at which the walk from `o` stops. -/
def rest (h : Hops) (o : Nat) : Nat :=
  match _hn : h.next o with
  | none => o
  | some o' => h.rest o'
termination_by h.bound + 1 - o
decreasing_by
  have := h.lt_next _hn
  have := h.le_bound _hn
  omega

/-- The addresses the walk from `o` leaves again, in order. -/
def stops (h : Hops) (o : Nat) : List Nat :=
  match _hn : h.next o with
  | none => []
  | some o' => o :: h.stops o'
termination_by h.bound + 1 - o
decreasing_by
  have := h.lt_next _hn
  have := h.le_bound _hn
  omega

/-- Induction along a walk: a property of every stop that each hop carries back holds everywhere. -/
theorem induct (h : Hops) {P : Nat → Prop} (stop : ∀ o, h.next o = none → P o)
    (hop : ∀ o o', h.next o = some o' → P o' → P o) (o : Nat) : P o := by
  induction hd : h.bound + 1 - o using Nat.strongRecOn generalizing o with
  | _ d ih =>
    cases hn : h.next o with
    | none => exact stop o hn
    | some o' =>
      have := h.lt_next hn
      have := h.le_bound hn
      exact hop o o' hn (ih _ (by omega) o' rfl)

theorem rest_of_none {h : Hops} {o : Nat} (hn : h.next o = none) : h.rest o = o := by
  rw [rest]
  split
  · rfl
  · next hs => rw [hn] at hs; cases hs

theorem rest_of_some {h : Hops} {o o' : Nat} (hn : h.next o = some o') :
    h.rest o = h.rest o' := by
  rw [rest]
  split
  · next hs => rw [hn] at hs; cases hs
  · next hs => rw [hn] at hs; cases hs; rfl

theorem stops_of_none {h : Hops} {o : Nat} (hn : h.next o = none) : h.stops o = [] := by
  rw [stops]
  split
  · rfl
  · next hs => rw [hn] at hs; cases hs

theorem stops_of_some {h : Hops} {o o' : Nat} (hn : h.next o = some o') :
    h.stops o = o :: h.stops o' := by
  rw [stops]
  split
  · next hs => rw [hn] at hs; cases hs
  · next hs => rw [hn] at hs; cases hs; rfl

theorem next_rest (h : Hops) (o : Nat) : h.next (h.rest o) = none := by
  induction o using h.induct with
  | stop o hn => rwa [rest_of_none hn]
  | hop o o' hn ih => rwa [rest_of_some hn]

theorem le_rest (h : Hops) (o : Nat) : o ≤ h.rest o := by
  induction o using h.induct with
  | stop o hn => rw [rest_of_none hn]
  | hop o o' hn ih =>
    rw [rest_of_some hn]
    exact Nat.le_trans (Nat.le_of_lt (h.lt_next hn)) ih

/-! ## Paths -/

/-- The walk from `o` visits `p`. -/
inductive Path (h : Hops) : Nat → Nat → Prop
  | refl (o : Nat) : Path h o o
  | hop {o o' p : Nat} : h.next o = some o' → Path h o' p → Path h o p

theorem path_rest (h : Hops) (o : Nat) : h.Path o (h.rest o) := by
  induction o using h.induct with
  | stop o hn => rw [rest_of_none hn]; exact .refl o
  | hop o o' hn ih => rw [rest_of_some hn]; exact .hop hn ih

theorem Path.le {h : Hops} {o p : Nat} (hp : h.Path o p) : o ≤ p := by
  induction hp with
  | refl => exact Nat.le_refl _
  | hop hn _ ih => exact Nat.le_trans (Nat.le_of_lt (h.lt_next hn)) ih

theorem Path.rest_eq {h : Hops} {o p : Nat} (hp : h.Path o p) : h.rest o = h.rest p := by
  induction hp with
  | refl => rfl
  | hop hn _ ih => rw [rest_of_some hn, ih]

/-- A walk whose hops another walk also makes is a path of that other walk. -/
theorem Path.mono {h h' : Hops} {o p : Nat} (hp : h.Path o p)
    (hagree : ∀ q q', o ≤ q → h.next q = some q' → q' ≤ p → h'.next q = some q') :
    h'.Path o p := by
  induction hp with
  | refl => exact .refl _
  | hop hn hrest ih =>
    refine .hop (hagree _ _ (Nat.le_refl _) hn hrest.le) (ih fun q q' hq hs hle => ?_)
    exact hagree q q' (Nat.le_trans (Nat.le_of_lt (h.lt_next hn)) hq) hs hle

end Hops

end Sidewalk.Lib
