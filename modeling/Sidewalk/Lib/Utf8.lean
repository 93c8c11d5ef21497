import Mathlib

/-!
# Well-formed UTF-8

The byte sequences of one scalar value are those of a table by the ranges of their bytes. No such
sequence begins another one, so a text has at most one first character.
-/

namespace Sidewalk.Lib.Utf8

/-- A byte in a range, both ends included. -/
def Between (b : UInt8) (low high : Nat) : Prop := low ≤ b.toNat ∧ b.toNat ≤ high

instance (b : UInt8) (low high : Nat) : Decidable (Between b low high) :=
  inferInstanceAs (Decidable (_ ∧ _))

abbrev Trail (b : UInt8) : Prop := Between b 0x80 0xBF

/-- The sequences of one scalar value, by their lengths. The first bytes 0xE0, 0xED, 0xF0 and 0xF4
narrow the second one: against longer encodings of small values, surrogates, and values beyond the
last plane. -/
inductive WellFormed : List UInt8 → Prop
  | one {a : UInt8} : a.toNat ≤ 0x7F → WellFormed [a]
  | two {a b : UInt8} : Between a 0xC2 0xDF → Trail b → WellFormed [a, b]
  | three {a b c : UInt8} : (a.toNat = 0xE0 ∧ Between b 0xA0 0xBF) ∨
      (Between a 0xE1 0xEC ∧ Trail b) ∨ (a.toNat = 0xED ∧ Between b 0x80 0x9F) ∨
      (Between a 0xEE 0xEF ∧ Trail b) → Trail c → WellFormed [a, b, c]
  | four {a b c d : UInt8} : (a.toNat = 0xF0 ∧ Between b 0x90 0xBF) ∨
      (Between a 0xF1 0xF3 ∧ Trail b) ∨ (a.toNat = 0xF4 ∧ Between b 0x80 0x8F) →
      Trail c → Trail d → WellFormed [a, b, c, d]

/-- The sequence of a character, by its number. -/
theorem utf8EncodeChar_eq (c : Char) :
    String.utf8EncodeChar c =
      if c.toNat ≤ 0x7f then [UInt8.ofNat c.toNat]
      else if c.toNat ≤ 0x7ff then
        [UInt8.ofNat (c.toNat / 64 % 0x20 + 0xc0), UInt8.ofNat (c.toNat % 0x40 + 0x80)]
      else if c.toNat ≤ 0xffff then
        [UInt8.ofNat (c.toNat / 4096 % 0x10 + 0xe0), UInt8.ofNat (c.toNat / 64 % 0x40 + 0x80),
          UInt8.ofNat (c.toNat % 0x40 + 0x80)]
      else
        [UInt8.ofNat (c.toNat / 262144 % 0x08 + 0xf0), UInt8.ofNat (c.toNat / 4096 % 0x40 + 0x80),
          UInt8.ofNat (c.toNat / 64 % 0x40 + 0x80), UInt8.ofNat (c.toNat % 0x40 + 0x80)] := rfl

theorem toNat_valid (c : Char) : c.toNat < 0xD800 ∨ (0xDFFF < c.toNat ∧ c.toNat < 0x110000) :=
  c.valid

/-- A character is encoded by a sequence of the table. -/
theorem wellFormed_utf8EncodeChar (c : Char) : WellFormed (String.utf8EncodeChar c) := by
  have hvalid := toNat_valid c
  rw [utf8EncodeChar_eq]
  split
  · apply WellFormed.one
    rw [UInt8.toNat_ofNat']
    omega
  · split
    · apply WellFormed.two <;> simp only [Trail, Between, UInt8.toNat_ofNat'] <;> omega
    · split
      · apply WellFormed.three <;> simp only [Trail, Between, UInt8.toNat_ofNat'] <;> omega
      · apply WellFormed.four <;> simp only [Trail, Between, UInt8.toNat_ofNat'] <;> omega

theorem exists_char {v : Nat} (h : v < 0xD800 ∨ (0xDFFF < v ∧ v < 0x110000)) :
    ∃ c : Char, c.toNat = v := ⟨Char.ofNat v, by rw [Char.toNat_ofNat, if_pos h]⟩

theorem ofNat_eq {n : Nat} {b : UInt8} (h : n = b.toNat) : UInt8.ofNat n = b := by
  rw [h, UInt8.ofNat_toNat]

/-- Every sequence of the table encodes a character. -/
theorem exists_utf8EncodeChar {bytes : List UInt8} (h : WellFormed bytes) :
    ∃ c : Char, String.utf8EncodeChar c = bytes := by
  cases h with
  | @one a ha =>
    obtain ⟨c, hc⟩ := @exists_char a.toNat (by omega)
    refine ⟨c, ?_⟩
    rw [utf8EncodeChar_eq, hc, if_pos ha, UInt8.ofNat_toNat]
  | @two a b ha hb =>
    simp only [Trail, Between] at *
    obtain ⟨c, hc⟩ := @exists_char ((a.toNat - 0xC0) * 64 + (b.toNat - 0x80)) (by omega)
    refine ⟨c, ?_⟩
    rw [utf8EncodeChar_eq, hc, if_neg (by omega), if_pos (by omega), ofNat_eq (b := a) (by omega),
      ofNat_eq (b := b) (by omega)]
  | @three a b c ha hc =>
    simp only [Trail, Between] at *
    obtain ⟨x, hx⟩ := exists_char
      (v := ((a.toNat - 0xE0) * 64 + (b.toNat - 0x80)) * 64 + (c.toNat - 0x80)) (by omega)
    refine ⟨x, ?_⟩
    rw [utf8EncodeChar_eq, hx, if_neg (by omega), if_neg (by omega), if_pos (by omega),
      ofNat_eq (b := a) (by omega), ofNat_eq (b := b) (by omega), ofNat_eq (b := c) (by omega)]
  | @four a b c d ha hc hd =>
    simp only [Trail, Between] at *
    obtain ⟨x, hx⟩ := exists_char (v := (((a.toNat - 0xF0) * 64 + (b.toNat - 0x80)) * 64 +
      (c.toNat - 0x80)) * 64 + (d.toNat - 0x80)) (by omega)
    refine ⟨x, ?_⟩
    rw [utf8EncodeChar_eq, hx, if_neg (by omega), if_neg (by omega), if_neg (by omega),
      ofNat_eq (b := a) (by omega), ofNat_eq (b := b) (by omega), ofNat_eq (b := c) (by omega),
      ofNat_eq (b := d) (by omega)]

/-! ## Texts -/

/-- The bytes are those of a text. -/
def IsText (bytes : List UInt8) : Prop :=
  ∃ cs : List Char, cs.flatMap String.utf8EncodeChar = bytes

theorem isText_nil : IsText [] := ⟨[], rfl⟩

/-- The length of a sequence, by its first byte. -/
def width (a : UInt8) : Nat :=
  if a.toNat ≤ 0x7F then 1 else if a.toNat ≤ 0xDF then 2 else if a.toNat ≤ 0xEF then 3 else 4

theorem WellFormed.length_eq {a : UInt8} {tail : List UInt8} (h : WellFormed (a :: tail)) :
    (a :: tail).length = width a := by
  unfold width
  cases h with
  | one ha => simp [ha]
  | two ha hb =>
    unfold Between at ha
    rw [if_neg (by omega), if_pos (by omega)]
    rfl
  | three ha hc =>
    unfold Between at ha
    rw [if_neg (by omega), if_neg (by omega), if_pos (by omega)]
    rfl
  | four ha hc hd =>
    unfold Between at ha
    rw [if_neg (by omega), if_neg (by omega), if_neg (by omega)]
    rfl

theorem WellFormed.exists_cons {bytes : List UInt8} (h : WellFormed bytes) :
    ∃ a tail, bytes = a :: tail := by
  cases h <;> exact ⟨_, _, rfl⟩

/-- Sequences of the table that begin the same bytes are the same. -/
theorem WellFormed.append_inj {first first' rest rest' : List UInt8} (h : WellFormed first)
    (h' : WellFormed first') (heq : first ++ rest = first' ++ rest') :
    first = first' ∧ rest = rest' := by
  obtain ⟨a, tail, rfl⟩ := h.exists_cons
  obtain ⟨a', tail', rfl⟩ := h'.exists_cons
  have hhead : a = a' := by
    rw [List.cons_append, List.cons_append] at heq
    exact (List.cons.inj heq).1
  subst hhead
  exact List.append_inj heq (h.length_eq.trans h'.length_eq.symm)

/-- A text is a text after its first character. -/
theorem isText_append {first rest : List UInt8} (h : WellFormed first) :
    IsText (first ++ rest) ↔ IsText rest := by
  constructor
  · rintro ⟨_ | ⟨c, cs⟩, hcs⟩
    · obtain ⟨a, tail, rfl⟩ := h.exists_cons
      cases hcs
    · rw [List.flatMap_cons] at hcs
      exact ⟨cs, ((wellFormed_utf8EncodeChar c).append_inj h hcs).2⟩
  · rintro ⟨cs, rfl⟩
    obtain ⟨c, rfl⟩ := exists_utf8EncodeChar h
    exact ⟨c :: cs, List.flatMap_cons⟩

/-- A text that is not empty has a first character. -/
theorem IsText.exists_first {bytes : List UInt8} (h : IsText bytes) (hne : bytes ≠ []) :
    ∃ first rest, WellFormed first ∧ bytes = first ++ rest := by
  obtain ⟨_ | ⟨c, cs⟩, rfl⟩ := h
  · exact absurd rfl hne
  · exact ⟨_, _, wellFormed_utf8EncodeChar c, List.flatMap_cons⟩

end Sidewalk.Lib.Utf8
