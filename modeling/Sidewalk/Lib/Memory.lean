import Mathlib

/-!
# Byte-addressed memories

A memory is a total map from addresses to bytes. `slice` reads a block, `blit` overwrites one
and `fill` sets one to a single byte. `Agree` is equality on a range of addresses: it is the
frame condition of every write (`agree_blit`), and reads inside the range cannot tell the two
memories apart (`slice_congr`).
-/

namespace Sidewalk.Lib

/-- A byte-addressed memory. -/
abbrev Mem := Nat → UInt8

namespace Mem

/-- The `n` bytes from address `o`. -/
def slice (m : Mem) (o : Nat) : Nat → List UInt8
  | 0 => []
  | n + 1 => m o :: slice m (o + 1) n

/-- `m` with `bs` stored from address `o`. -/
def blit (m : Mem) (o : Nat) (bs : List UInt8) : Mem := fun a =>
  if o ≤ a then (bs[a - o]?).getD (m a) else m a

/-- `m` with the `n` bytes from address `o` set to `b`. -/
def fill (m : Mem) (o n : Nat) (b : UInt8) : Mem := fun a =>
  if o ≤ a ∧ a < o + n then b else m a

/-- The two memories hold the same bytes at the addresses `[lo, hi)`. -/
def Agree (m m' : Mem) (lo hi : Nat) : Prop := ∀ a, lo ≤ a → a < hi → m a = m' a

/-! ## Reading -/

@[simp] theorem length_slice (m : Mem) (o n : Nat) : (m.slice o n).length = n := by
  induction n generalizing o with
  | zero => rfl
  | succ n ih => simp only [slice, List.length_cons, ih]

@[simp] theorem slice_zero (m : Mem) (o : Nat) : m.slice o 0 = [] := rfl

theorem slice_succ (m : Mem) (o n : Nat) : m.slice o (n + 1) = m o :: m.slice (o + 1) n := rfl

theorem getElem?_slice (m : Mem) (o n i : Nat) :
    (m.slice o n)[i]? = if i < n then some (m (o + i)) else none := by
  induction n generalizing o i with
  | zero => simp
  | succ n ih =>
    cases i with
    | zero => simp [slice]
    | succ i =>
      simp only [slice, List.getElem?_cons_succ, ih, Nat.add_lt_add_iff_right]
      rw [Nat.add_right_comm, Nat.add_assoc]

theorem slice_congr {m m' : Mem} {o o' n : Nat} (h : ∀ i, i < n → m (o + i) = m' (o' + i)) :
    m.slice o n = m'.slice o' n := by
  apply List.ext_getElem?
  intro i
  rw [getElem?_slice, getElem?_slice]
  split
  · next hi => rw [h i hi]
  · rfl

theorem Agree.slice {m m' : Mem} {lo hi o n : Nat} (h : Agree m m' lo hi) (hlo : lo ≤ o)
    (hhi : o + n ≤ hi) : m.slice o n = m'.slice o n :=
  slice_congr fun i hi => h (o + i) (by omega) (by omega)

theorem slice_add (m : Mem) (o a b : Nat) :
    m.slice o (a + b) = m.slice o a ++ m.slice (o + a) b := by
  induction a generalizing o with
  | zero => simp
  | succ a ih =>
    rw [Nat.add_right_comm, slice_succ, slice_succ, ih, List.cons_append]
    congr 3
    omega

theorem take_slice (m : Mem) (o : Nat) {k n : Nat} (h : k ≤ n) :
    (m.slice o n).take k = m.slice o k := by
  obtain ⟨d, rfl⟩ := Nat.exists_eq_add_of_le h
  rw [slice_add, List.take_append_of_le_length (by simp), List.take_of_length_le (by simp)]

theorem drop_slice (m : Mem) (o k n : Nat) : (m.slice o n).drop k = m.slice (o + k) (n - k) := by
  apply List.ext_getElem?
  intro i
  rw [List.getElem?_drop, getElem?_slice, getElem?_slice, Nat.add_assoc]
  by_cases hi : i < n - k
  · rw [if_pos (by omega), if_pos hi]
  · rw [if_neg (by omega), if_neg hi]

theorem slice_const {m : Mem} {o n : Nat} {b : UInt8} (h : ∀ a, o ≤ a → a < o + n → m a = b) :
    m.slice o n = List.replicate n b := by
  induction n generalizing o with
  | zero => rfl
  | succ n ih =>
    rw [slice_succ, List.replicate_succ, h o (Nat.le_refl o) (by omega),
      ih fun a h₁ h₂ => h a (by omega) (by omega)]

/-- A block that reads as `xs ++ ys` reads as `xs` and then, behind it, as `ys`. -/
theorem slice_append_iff {m : Mem} {o : Nat} {xs ys : List UInt8} :
    m.slice o (xs ++ ys).length = xs ++ ys ↔
      m.slice o xs.length = xs ∧ m.slice (o + xs.length) ys.length = ys := by
  rw [List.length_append, slice_add]
  constructor
  · intro h
    exact List.append_inj h (by simp)
  · rintro ⟨hx, hy⟩
    rw [hx, hy]

/-! ## Writing -/

theorem blit_below {m : Mem} {o a : Nat} {bs : List UInt8} (h : a < o) : m.blit o bs a = m a := by
  simp only [blit, Nat.not_le.mpr h, if_false]

theorem blit_above {m : Mem} {o a : Nat} {bs : List UInt8} (h : o + bs.length ≤ a) :
    m.blit o bs a = m a := by
  unfold blit
  split
  · rw [List.getElem?_eq_none (by omega), Option.getD_none]
  · rfl

theorem blit_inside {m : Mem} {o i : Nat} {bs : List UInt8} (h : i < bs.length) :
    m.blit o bs (o + i) = bs[i] := by
  simp [blit, h]

@[simp] theorem blit_nil (m : Mem) (o : Nat) : m.blit o [] = m := by
  funext a
  simp [blit]

theorem blit_append (m : Mem) (o : Nat) (xs ys : List UInt8) :
    m.blit o (xs ++ ys) = (m.blit o xs).blit (o + xs.length) ys := by
  funext a
  by_cases ha : o + xs.length ≤ a
  · have hsub : a - o - xs.length = a - (o + xs.length) := by omega
    have hx : (m.blit o xs) a = m a := blit_above ha
    simp only [blit, ha, if_true] at hx ⊢
    rw [hx, if_pos (by omega), List.getElem?_append_right (by omega), hsub]
  · have hy : (m.blit o xs).blit (o + xs.length) ys a = m.blit o xs a := blit_below (by omega)
    rw [hy]
    by_cases ho : o ≤ a
    · simp only [blit, ho, if_true]
      rw [List.getElem?_append_left (by omega)]
    · simp only [blit, ho, if_false]

/-- A longer write hides a shorter one at the same address. -/
theorem blit_blit (m : Mem) (o : Nat) {xs ys : List UInt8} (h : xs.length ≤ ys.length) :
    (m.blit o xs).blit o ys = m.blit o ys := by
  funext a
  by_cases hlo : o ≤ a
  · obtain ⟨i, rfl⟩ := Nat.exists_eq_add_of_le hlo
    by_cases hi : i < ys.length
    · rw [blit_inside hi, blit_inside hi]
    · rw [blit_above (by omega), blit_above (by omega), blit_above (by omega)]
  · rw [blit_below (by omega), blit_below (by omega), blit_below (by omega)]

/-- A write reads back. -/
@[simp] theorem slice_blit (m : Mem) (o : Nat) (bs : List UInt8) :
    (m.blit o bs).slice o bs.length = bs := by
  apply List.ext_getElem?
  intro i
  rw [getElem?_slice]
  split
  · next hi => rw [blit_inside hi, List.getElem?_eq_getElem hi]
  · next hi => rw [List.getElem?_eq_none (by omega)]

/-- A write leaves every range before it alone. -/
theorem agree_blit_below (m : Mem) {lo hi o : Nat} (bs : List UInt8) (h : hi ≤ o) :
    Agree (m.blit o bs) m lo hi :=
  fun a _ ha => blit_below (by omega)

theorem agree_before_blit (m : Mem) (lo o : Nat) (bs : List UInt8) :
    Agree m (m.blit o bs) lo o :=
  fun _ _ ha => (blit_below ha).symm

/-- A write leaves every range behind it alone. -/
theorem agree_blit_above (m : Mem) {lo hi o : Nat} (bs : List UInt8) (h : o + bs.length ≤ lo) :
    Agree (m.blit o bs) m lo hi :=
  fun a ha _ => blit_above (by omega)

theorem fill_inside {m : Mem} {o n a : Nat} {b : UInt8} (h₁ : o ≤ a) (h₂ : a < o + n) :
    m.fill o n b a = b := by
  simp [fill, h₁, h₂]

/-! ## Agreement -/

theorem Agree.symm {m m' : Mem} {lo hi : Nat} (h : Agree m m' lo hi) : Agree m' m lo hi :=
  fun a h₁ h₂ => (h a h₁ h₂).symm

theorem Agree.mono {m m' : Mem} {lo hi lo' hi' : Nat} (h : Agree m m' lo hi) (hlo : lo ≤ lo')
    (hhi : hi' ≤ hi) : Agree m m' lo' hi' :=
  fun a h₁ h₂ => h a (by omega) (by omega)

end Mem

end Sidewalk.Lib
