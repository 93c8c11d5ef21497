import Mathlib
import Sidewalk.Lib.Memory

/-!
# Checked arrays and strings in them

A region is an array of a fixed size, in which an access outside is an error. `Holds` says that it
begins with a text and its terminator; the string functions of C are then read off the text.
-/

namespace Sidewalk.Lib

/-- An access outside an array of that size. -/
structure OutOfBounds where
  size : Nat
  index : Int

abbrev Checked := Except OutOfBounds

@[simp] theorem checked_ok_bind {α β : Type} (a : α) (f : α → Checked β) :
    (.ok a : Checked α) >>= f = f a := rfl

@[simp] theorem checked_error_bind {α β : Type} (error : OutOfBounds) (f : α → Checked β) :
    (.error error : Checked α) >>= f = .error error := rfl

/-- An array of bytes. -/
structure Region (size : Nat) where
  bytes : Mem

namespace Region

variable {size : Nat}

def load (r : Region size) (i : Int) : Checked UInt8 :=
  if 0 ≤ i ∧ i < size then .ok (r.bytes i.toNat) else .error ⟨size, i⟩

/-- The bytes are written from the index on; the error is the first index outside. -/
def write (r : Region size) (start : Nat) (bs : List UInt8) : Checked (Region size) :=
  if start + bs.length ≤ size then .ok ⟨r.bytes.blit start bs⟩ else .error ⟨size, max start size⟩

def store (r : Region size) (i : Int) (b : UInt8) : Checked (Region size) :=
  if 0 ≤ i ∧ i < size then .ok ⟨r.bytes.blit i.toNat [b]⟩ else .error ⟨size, i⟩

/-- Without a terminator the search leaves the array. -/
def strlen (r : Region size) : Checked Nat :=
  match (List.range size).find? fun i => r.bytes i = 0 with
  | some n => .ok n
  | none => .error ⟨size, size⟩

/-- The string that the array begins with. -/
def string (r : Region size) : Checked (List UInt8) := do
  let n ← r.strlen
  pure (r.bytes.slice 0 n)

def strncpy (dest : Region size) (src : List UInt8) (n : Nat) : Checked (Region size) :=
  dest.write 0 (src.take n ++ List.replicate (n - src.length) 0)

def strncat (dest : Region size) (src : List UInt8) (n : Nat) : Checked (Region size) := do
  let start ← dest.strlen
  dest.write start (src.take n ++ [0])

/-- The array begins with the text and its terminator. -/
structure Holds (r : Region size) (text : List UInt8) : Prop where
  fits : text.length < size
  nonzero : 0 ∉ text
  begins : r.bytes.slice 0 text.length = text
  ends : r.bytes text.length = 0

variable {r : Region size} {text src : List UInt8}

theorem Holds.getElem? (h : r.Holds text) {i : Nat} (hi : i < text.length) :
    text[i]? = some (r.bytes i) := by
  have hbyte := congrArg (fun bs => bs[i]?) h.begins
  simp only [Mem.getElem?_slice, Nat.zero_add, if_pos hi] at hbyte
  exact hbyte.symm

theorem Holds.byte_ne_zero (h : r.Holds text) {i : Nat} (hi : i < text.length) :
    r.bytes i ≠ 0 := by
  have hbyte := h.getElem? hi
  intro hzero
  exact h.nonzero (hzero ▸ List.mem_of_getElem? hbyte)

theorem Holds.strlen (h : r.Holds text) : r.strlen = .ok text.length := by
  have hfind : (List.range size).find? (fun i => r.bytes i = 0) = some text.length := by
    rw [List.find?_range_eq_some]
    refine ⟨by simpa using h.ends, List.mem_range.mpr h.fits, fun i hi => ?_⟩
    simpa using h.byte_ne_zero hi
  unfold Region.strlen
  rw [hfind]

theorem Holds.string (h : r.Holds text) : r.string = .ok text := by
  unfold Region.string
  rw [h.strlen, checked_ok_bind, h.begins]
  rfl

theorem load_ok {i : Nat} (hi : i < size) : r.load i = .ok (r.bytes i) := by
  unfold load
  rw [if_pos (by omega), Int.toNat_natCast]

theorem load_negative {i : Int} (hi : i < 0) : r.load i = .error ⟨size, i⟩ := if_neg (by omega)

/-- The last byte of a text. -/
theorem Holds.load_last (h : r.Holds text) (hne : text ≠ []) :
    r.load (text.length - 1) = .ok (text.getLast hne) := by
  have hpos := List.length_pos_iff.mpr hne
  have hfits := h.fits
  have hcast : (text.length : Int) - 1 = ((text.length - 1 : Nat) : Int) := by omega
  rw [hcast, load_ok (by omega)]
  have hlast := h.getElem? (i := text.length - 1) (by omega)
  rw [← List.getLast?_eq_getElem?, List.getLast?_eq_some_getLast hne] at hlast
  rw [Option.some.inj hlast]

theorem Holds.load_first (h : r.Holds text) (hne : text ≠ []) :
    r.load 0 = .ok (text.head hne) := by
  have hpos := List.length_pos_iff.mpr hne
  have hfits := h.fits
  have hzero : r.load ((0 : Nat) : Int) = .ok (r.bytes 0) := load_ok (by omega)
  have hfirst := h.getElem? hpos
  rw [← List.head?_eq_getElem?, List.head?_eq_some_head hne] at hfirst
  rw [Option.some.inj hfirst]
  exact hzero

/-! ## Writing -/

theorem write_ok {start : Nat} {bs : List UInt8} (h : start + bs.length ≤ size) :
    r.write start bs = .ok ⟨r.bytes.blit start bs⟩ := if_pos h

theorem write_outside {start : Nat} {bs : List UInt8} (h : size < start + bs.length) :
    r.write start bs = .error ⟨size, max start size⟩ := if_neg (by omega)

/-- A text, its terminator, and anything behind them. -/
theorem holds_write (src rest : List UInt8) (hfits : (src ++ 0 :: rest).length ≤ size)
    (hnonzero : 0 ∉ src) :
    ∃ r', r.write 0 (src ++ 0 :: rest) = .ok r' ∧ r'.Holds src := by
  refine ⟨_, write_ok (by omega), ?_⟩
  have hslice := Mem.slice_blit r.bytes 0 (src ++ 0 :: rest)
  rw [Mem.slice_append_iff, Nat.zero_add, List.length_cons, Mem.slice_succ] at hslice
  rw [List.length_append, List.length_cons] at hfits
  exact ⟨by omega, hnonzero, hslice.1, (List.cons.inj hslice.2).1⟩

theorem holds_strncpy (src : List UInt8) {n : Nat} (hn : src.length < n) (hsize : n ≤ size)
    (hnonzero : 0 ∉ src) :
    ∃ r', r.strncpy src n = .ok r' ∧ r'.Holds src := by
  obtain ⟨pad, hpad⟩ : ∃ pad, n - src.length = pad + 1 := ⟨n - src.length - 1, by omega⟩
  unfold strncpy
  rw [List.take_of_length_le hn.le, hpad, List.replicate_succ]
  refine holds_write src _ ?_ hnonzero
  rw [List.length_append, List.length_cons, List.length_replicate]
  omega

theorem Holds.strncat (h : r.Holds text) (src : List UInt8) {n : Nat} (hn : src.length ≤ n)
    (hfits : text.length + src.length < size) (hnonzero : 0 ∉ src) :
    ∃ r', r.strncat src n = .ok r' ∧ r'.Holds (text ++ src) := by
  unfold Region.strncat
  rw [h.strlen, List.take_of_length_le hn]
  refine ⟨_, write_ok ?_, ?_⟩
  · rw [List.length_append, List.length_singleton]
    omega
  · have hold : (r.bytes.blit text.length (src ++ [0])).slice 0 text.length = text := by
      rw [← (Mem.agree_before_blit r.bytes 0 text.length _).slice (Nat.le_refl 0) (by omega)]
      exact h.begins
    have hnew := Mem.slice_blit r.bytes text.length (src ++ [0])
    rw [Mem.slice_append_iff] at hnew
    refine ⟨?_, ?_, ?_, ?_⟩
    · rw [List.length_append]
      exact hfits
    · rw [List.mem_append]
      exact not_or_intro h.nonzero hnonzero
    · rw [Mem.slice_append_iff, Nat.zero_add]
      exact ⟨hold, hnew.1⟩
    · rw [List.length_append]
      exact (List.cons.inj hnew.2).1

/-- The terminator is put behind the bytes that are copied. -/
theorem Holds.strncat_outside (h : r.Holds text) (src : List UInt8) {n : Nat}
    (houtside : size ≤ text.length + min n src.length) :
    ∃ error, r.strncat src n = .error error := by
  unfold Region.strncat
  rw [h.strlen]
  refine ⟨_, write_outside ?_⟩
  rw [List.length_append, List.length_take, List.length_singleton]
  omega

/-- A terminator in place of the last byte. -/
theorem Holds.cut (h : r.Holds text) (hne : text ≠ []) :
    ∃ r', r.store (text.length - 1) 0 = .ok r' ∧ r'.Holds text.dropLast := by
  have hpos := List.length_pos_iff.mpr hne
  have hfits := h.fits
  have hcast : ((text.length : Int) - 1).toNat = text.length - 1 := by omega
  refine ⟨_, if_pos (by omega), ?_⟩
  rw [hcast]
  refine ⟨?_, fun hmem => h.nonzero (List.mem_of_mem_dropLast hmem), ?_, ?_⟩
  · rw [List.length_dropLast]
    omega
  · rw [List.length_dropLast, ← (Mem.agree_before_blit r.bytes 0 (text.length - 1) [0]).slice
      (Nat.le_refl 0) (by omega), ← Mem.take_slice _ _ (Nat.sub_le text.length 1), h.begins,
      List.dropLast_eq_take]
  · rw [List.length_dropLast]
    exact Mem.blit_inside (i := 0) (by decide)

end Region

end Sidewalk.Lib
