import Mathlib

/-!
# Buffers with bytes that are not there

The contents of buffers of a fixed size, in which a byte is missing where it lies outside or was
never written. A touch reads, writes or copies a range; it is safe where it reads bytes that are
there and writes inside. `Ready` says how much of every buffer is there, and touches within that
are safe, whatever they leave.
-/

namespace Sidewalk.Lib

/-- A byte is `none` outside its buffer, and as long as it is not initialised. -/
abbrev Contents (ι : Type) := ι → Nat → Option UInt8

inductive Touch (ι : Type)
  | read (buffer : ι) (start length : Nat)
  | write (buffer : ι) (start : Nat) (bytes : List UInt8)
  | copy (dest : ι) (destStart : Nat) (src : ι) (srcStart length : Nat)

namespace Touch

variable {ι : Type} [DecidableEq ι] {size readable : ι → Nat} {m : Contents ι} {t : Touch ι}
  {ts : List (Touch ι)}

/-- The range takes its bytes from `f`. -/
def put (m : Contents ι) (buffer : ι) (start length : Nat) (f : Nat → Option UInt8) : Contents ι :=
  fun b i => if b = buffer ∧ start ≤ i ∧ i < start + length then f (i - start) else m b i

def apply (m : Contents ι) : Touch ι → Contents ι
  | read .. => m
  | write buffer start bytes => put m buffer start bytes.length fun i => bytes[i]?
  | copy dest destStart src srcStart length =>
    put m dest destStart length fun i => m src (srcStart + i)

/-- What is read is there, and what is written is inside. -/
def Safe (size : ι → Nat) (m : Contents ι) : Touch ι → Prop
  | read buffer start length => ∀ i < length, (m buffer (start + i)).isSome
  | write buffer start bytes => start + bytes.length ≤ size buffer
  | copy dest destStart src srcStart length =>
    (∀ i < length, (m src (srcStart + i)).isSome) ∧ destStart + length ≤ size dest

def applyAll (m : Contents ι) (ts : List (Touch ι)) : Contents ι := ts.foldl apply m

def SafeFrom (size : ι → Nat) : Contents ι → List (Touch ι) → Prop
  | _, [] => True
  | m, t :: ts => t.Safe size m ∧ SafeFrom size (t.apply m) ts

/-- The bytes from the start on are there. -/
def Ready (readable : ι → Nat) (m : Contents ι) : Prop := ∀ b i, i < readable b → (m b i).isSome

/-- The touch reads only what is readable and writes inside. -/
def Within (size readable : ι → Nat) : Touch ι → Prop
  | read buffer start length => start + length ≤ readable buffer
  | write buffer start bytes => start + bytes.length ≤ size buffer
  | copy dest destStart src srcStart length =>
    srcStart + length ≤ readable src ∧ destStart + length ≤ size dest

/-- A range that begins in what is readable adds to it. -/
def extend (readable : ι → Nat) (buffer : ι) (start length : Nat) : ι → Nat :=
  if start ≤ readable buffer then
    Function.update readable buffer (max (readable buffer) (start + length))
  else readable

/-- What is readable after a touch. -/
def grow (readable : ι → Nat) : Touch ι → ι → Nat
  | read .. => readable
  | write buffer start bytes => extend readable buffer start bytes.length
  | copy dest destStart _ _ length => extend readable dest destStart length

/-- Every touch is within what the touches before it have made readable. -/
def Checked (size : ι → Nat) : (ι → Nat) → List (Touch ι) → Prop
  | _, [] => True
  | readable, t :: ts => t.Within size readable ∧ Checked size (t.grow readable) ts

theorem safeFrom_append {ts' : List (Touch ι)} :
    SafeFrom size m (ts ++ ts') ↔ SafeFrom size m ts ∧ SafeFrom size (applyAll m ts) ts' := by
  induction ts generalizing m with
  | nil => exact (and_iff_right trivial).symm
  | cons t ts ih =>
    rw [List.cons_append, SafeFrom, SafeFrom, ih, and_assoc]
    rfl

theorem put_inside (m : Contents ι) (buffer : ι) (start : Nat) {length i : Nat}
    (f : Nat → Option UInt8) (h : i < length) :
    put m buffer start length f buffer (start + i) = f i := by
  unfold put
  rw [if_pos ⟨rfl, by omega, by omega⟩, Nat.add_sub_cancel_left]

theorem put_other {buffer b : ι} {start length i : Nat} {f : Nat → Option UInt8}
    (h : b ≠ buffer) : put m buffer start length f b i = m b i :=
  if_neg fun hin => h hin.1

theorem put_after {buffer b : ι} {start length i : Nat} {f : Nat → Option UInt8}
    (h : start + length ≤ i) : put m buffer start length f b i = m b i :=
  if_neg fun hin => by omega

theorem Ready.put {buffer : ι} {start length : Nat} {f : Nat → Option UInt8}
    (h : Ready readable m) (hf : ∀ i < length, (f i).isSome) :
    Ready (extend readable buffer start length) (put m buffer start length f) := by
  intro b i hi
  unfold extend at hi
  by_cases hin : b = buffer ∧ start ≤ i ∧ i < start + length
  · unfold Touch.put
    rw [if_pos hin]
    exact hf _ (by omega)
  · unfold Touch.put
    rw [if_neg hin]
    refine h b i ?_
    split at hi
    · by_cases hb : b = buffer
      · subst hb
        have hout : ¬(start ≤ i ∧ i < start + length) := fun h => hin ⟨rfl, h⟩
        rw [Function.update_self] at hi
        omega
      · rwa [Function.update_of_ne hb] at hi
    · exact hi

theorem Safe.ready (ht : t.Safe size m) (h : Ready readable m) :
    Ready (t.grow readable) (t.apply m) := by
  cases t with
  | read => exact h
  | write buffer start bytes =>
    refine h.put fun i hi => ?_
    rw [List.getElem?_eq_getElem hi]
    rfl
  | copy => exact h.put ht.1

omit [DecidableEq ι] in
theorem Within.safe (ht : t.Within size readable) (h : Ready readable m) : t.Safe size m := by
  cases t with
  | read => exact fun i hi => h _ _ (by unfold Within at ht; omega)
  | write => exact ht
  | copy => exact ⟨fun i hi => h _ _ (by unfold Within at ht; omega), ht.2⟩

/-- What is checked is safe. -/
theorem Checked.safeFrom (hts : Checked size readable ts) (h : Ready readable m) :
    SafeFrom size m ts := by
  induction ts generalizing m readable with
  | nil => trivial
  | cons t ts ih =>
    have hsafe := hts.1.safe h
    exact ⟨hsafe, ih hts.2 (hsafe.ready h)⟩

theorem le_extend (buffer b : ι) (start length : Nat) :
    readable b ≤ extend readable buffer start length b := by
  unfold extend
  split
  · by_cases hb : b = buffer
    · subst hb
      rw [Function.update_self]
      exact Nat.le_max_left _ _
    · rw [Function.update_of_ne hb]
  · exact Nat.le_refl _

theorem le_grow (b : ι) : readable b ≤ t.grow readable b := by
  cases t with
  | read => exact Nat.le_refl _
  | write => exact le_extend _ _ _ _
  | copy => exact le_extend _ _ _ _

omit [DecidableEq ι] in
theorem Within.mono {readable' : ι → Nat} (h : t.Within size readable)
    (hle : ∀ b, readable b ≤ readable' b) : t.Within size readable' := by
  cases t with
  | read => exact Nat.le_trans h (hle _)
  | write => exact h
  | copy => exact ⟨h.1.trans (hle _), h.2⟩

/-- Touches that need nothing of each other. -/
theorem checked_of_forall (h : ∀ t ∈ ts, t.Within size readable) : Checked size readable ts := by
  induction ts generalizing readable with
  | nil => trivial
  | cons t ts ih =>
    rw [List.forall_mem_cons] at h
    exact ⟨h.1, ih fun t' ht' => (h.2 t' ht').mono le_grow⟩

/-- Reads change nothing for the touches after them. -/
theorem Checked.reads {ts' : List (Touch ι)} (h : Checked size readable ts')
    (hts : ∀ t ∈ ts, ∃ b start length, t = .read b start length ∧ start + length ≤ readable b) :
    Checked size readable (ts ++ ts') := by
  induction ts with
  | nil => exact h
  | cons t ts ih =>
    rw [List.forall_mem_cons] at hts
    obtain ⟨⟨b, start, length, rfl, hle⟩, hts⟩ := hts
    exact ⟨hle, ih hts⟩

/-- A touch of a safe run was safe where it was made. -/
theorem SafeFrom.mem (h : SafeFrom size m ts) (ht : t ∈ ts) :
    ∃ before, t.Safe size (Touch.applyAll m before) := by
  induction ts generalizing m with
  | nil => cases ht
  | cons t' ts ih =>
    rcases List.mem_cons.mp ht with rfl | ht
    · exact ⟨[], h.1⟩
    · obtain ⟨before, hsafe⟩ := ih h.2 ht
      exact ⟨t' :: before, hsafe⟩

end Touch

end Sidewalk.Lib
