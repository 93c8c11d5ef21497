import Sidewalk.Lib.Utf8

/-!
# SSIDs in UTF-8

`lr11xx_wifi_is_well_formed_utf8_byte_sequence` goes through the bytes with an 8-bit index. It
accepts the encodings of texts, and nothing else.
-/

namespace Sidewalk.Lr11xx

open Lib.Utf8

/-! ## The code -/

/-- The tests of one turn of the loop on the bytes from the index on, of which so many are left. It
answers how far the index moves, or nothing where the function returns `false`. -/
def sequenceLength (left : Nat) (b₀ b₁ b₂ b₃ : UInt8) : Option UInt8 :=
  if b₀.toNat ≤ 0x7F then some 1
  else if left < 2 then none
  else if Between b₀ 0xC2 0xDF ∧ Trail b₁ then some 2
  else if left < 3 then none
  else if b₀.toNat = 0xE0 ∧ Between b₁ 0xA0 0xBF ∧ Trail b₂ then some 3
  else if Between b₀ 0xE1 0xEC ∧ Trail b₁ ∧ Trail b₂ then some 3
  else if b₀.toNat = 0xED ∧ Between b₁ 0x80 0x9F ∧ Trail b₂ then some 3
  else if Between b₀ 0xEE 0xEF ∧ Trail b₁ ∧ Trail b₂ then some 3
  else if left < 4 then none
  else if b₀.toNat = 0xF0 ∧ Between b₁ 0x90 0xBF ∧ Trail b₂ ∧ Trail b₃ then some 4
  else if Between b₀ 0xF1 0xF3 ∧ Trail b₁ ∧ Trail b₂ ∧ Trail b₃ then some 4
  else if b₀.toNat = 0xF4 ∧ Between b₁ 0x80 0x8F ∧ Trail b₂ ∧ Trail b₃ then some 4
  else none

/-- One turn of the loop. -/
def utf8Step (buffer : List UInt8) (length index : UInt8) : Option UInt8 :=
  sequenceLength (length.toNat - index.toNat) (buffer.getD index.toNat 0)
    (buffer.getD (index.toNat + 1) 0) (buffer.getD (index.toNat + 2) 0)
    (buffer.getD (index.toNat + 3) 0)

/-- The ways on: a sequence of the table, as long as the bytes that are left allow. -/
inductive Matches (left : Nat) (b₀ b₁ b₂ b₃ : UInt8) : UInt8 → Prop
  | one : WellFormed [b₀] → Matches left b₀ b₁ b₂ b₃ 1
  | two : 2 ≤ left → WellFormed [b₀, b₁] → Matches left b₀ b₁ b₂ b₃ 2
  | three : 3 ≤ left → WellFormed [b₀, b₁, b₂] → Matches left b₀ b₁ b₂ b₃ 3
  | four : 4 ≤ left → WellFormed [b₀, b₁, b₂, b₃] → Matches left b₀ b₁ b₂ b₃ 4

theorem matches_of_sequenceLength {left : Nat} {b₀ b₁ b₂ b₃ k : UInt8}
    (h : sequenceLength left b₀ b₁ b₂ b₃ = some k) : Matches left b₀ b₁ b₂ b₃ k := by
  unfold sequenceLength at h
  by_cases h₀ : b₀.toNat ≤ 0x7F
  · rw [if_pos h₀] at h
    cases h
    exact .one (.one h₀)
  rw [if_neg h₀] at h
  by_cases hleft₂ : left < 2
  · rw [if_pos hleft₂] at h
    cases h
  rw [if_neg hleft₂] at h
  by_cases h₂ : Between b₀ 0xC2 0xDF ∧ Trail b₁
  · rw [if_pos h₂] at h
    cases h
    exact .two (by omega) (.two h₂.1 h₂.2)
  rw [if_neg h₂] at h
  by_cases hleft₃ : left < 3
  · rw [if_pos hleft₃] at h
    cases h
  rw [if_neg hleft₃] at h
  by_cases hshort : b₀.toNat = 0xE0 ∧ Between b₁ 0xA0 0xBF ∧ Trail b₂
  · rw [if_pos hshort] at h
    cases h
    exact .three (by omega) (.three (.inl ⟨hshort.1, hshort.2.1⟩) hshort.2.2)
  rw [if_neg hshort] at h
  by_cases hlow : Between b₀ 0xE1 0xEC ∧ Trail b₁ ∧ Trail b₂
  · rw [if_pos hlow] at h
    cases h
    exact .three (by omega) (.three (.inr (.inl ⟨hlow.1, hlow.2.1⟩)) hlow.2.2)
  rw [if_neg hlow] at h
  by_cases hsurrogate : b₀.toNat = 0xED ∧ Between b₁ 0x80 0x9F ∧ Trail b₂
  · rw [if_pos hsurrogate] at h
    cases h
    exact .three (by omega)
      (.three (.inr (.inr (.inl ⟨hsurrogate.1, hsurrogate.2.1⟩))) hsurrogate.2.2)
  rw [if_neg hsurrogate] at h
  by_cases hhigh : Between b₀ 0xEE 0xEF ∧ Trail b₁ ∧ Trail b₂
  · rw [if_pos hhigh] at h
    cases h
    exact .three (by omega) (.three (.inr (.inr (.inr ⟨hhigh.1, hhigh.2.1⟩))) hhigh.2.2)
  rw [if_neg hhigh] at h
  by_cases hleft₄ : left < 4
  · rw [if_pos hleft₄] at h
    cases h
  rw [if_neg hleft₄] at h
  by_cases hfirst : b₀.toNat = 0xF0 ∧ Between b₁ 0x90 0xBF ∧ Trail b₂ ∧ Trail b₃
  · rw [if_pos hfirst] at h
    cases h
    exact .four (by omega) (.four (.inl ⟨hfirst.1, hfirst.2.1⟩) hfirst.2.2.1 hfirst.2.2.2)
  rw [if_neg hfirst] at h
  by_cases hmiddle : Between b₀ 0xF1 0xF3 ∧ Trail b₁ ∧ Trail b₂ ∧ Trail b₃
  · rw [if_pos hmiddle] at h
    cases h
    exact .four (by omega)
      (.four (.inr (.inl ⟨hmiddle.1, hmiddle.2.1⟩)) hmiddle.2.2.1 hmiddle.2.2.2)
  rw [if_neg hmiddle] at h
  by_cases hlast : b₀.toNat = 0xF4 ∧ Between b₁ 0x80 0x8F ∧ Trail b₂ ∧ Trail b₃
  · rw [if_pos hlast] at h
    cases h
    exact .four (by omega) (.four (.inr (.inr ⟨hlast.1, hlast.2.1⟩)) hlast.2.2.1 hlast.2.2.2)
  rw [if_neg hlast] at h
  cases h

/-- The first byte of a sequence keeps the tests before its own from succeeding. -/
theorem sequenceLength_of_matches {left : Nat} {b₀ b₁ b₂ b₃ k : UInt8}
    (h : Matches left b₀ b₁ b₂ b₃ k) : sequenceLength left b₀ b₁ b₂ b₃ = some k := by
  unfold sequenceLength
  cases h with
  | one h =>
    cases h with
    | one h₀ => rw [if_pos h₀]
  | two hleft h =>
    cases h with
    | two h₀ h₁ =>
      have hrange := h₀
      unfold Between at hrange
      rw [if_neg (by omega), if_neg (by omega), if_pos ⟨h₀, h₁⟩]
  | three hleft h =>
    cases h with
    | three h₀ h₂ =>
      have hno : ¬(Between b₀ 0xC2 0xDF ∧ Trail b₁) := by
        simp only [Between] at h₀ ⊢
        omega
      rw [if_neg (by simp only [Between] at h₀; omega), if_neg (by omega), if_neg hno,
        if_neg (by omega)]
      obtain ⟨ha, hb⟩ | ⟨ha, hb⟩ | ⟨ha, hb⟩ | ⟨ha, hb⟩ := h₀
      · rw [if_pos ⟨ha, hb, h₂⟩]
      · rw [if_neg (by simp only [Between] at ha ⊢; omega), if_pos ⟨ha, hb, h₂⟩]
      · rw [if_neg (by omega), if_neg (by simp only [Between]; omega), if_pos ⟨ha, hb, h₂⟩]
      · rw [if_neg (by simp only [Between] at ha ⊢; omega),
          if_neg (by simp only [Between] at ha ⊢; omega),
          if_neg (by simp only [Between] at ha ⊢; omega), if_pos ⟨ha, hb, h₂⟩]
  | four hleft h =>
    cases h with
    | four h₀ h₂ h₃ =>
      have hhigh : 0xF0 ≤ b₀.toNat := by
        simp only [Between] at h₀
        omega
      rw [if_neg (by omega), if_neg (by omega), if_neg (by simp only [Between]; omega),
        if_neg (by omega), if_neg (by omega), if_neg (by simp only [Between]; omega),
        if_neg (by omega), if_neg (by simp only [Between]; omega), if_neg (by omega)]
      obtain ⟨ha, hb⟩ | ⟨ha, hb⟩ | ⟨ha, hb⟩ := h₀
      · rw [if_pos ⟨ha, hb, h₂, h₃⟩]
      · rw [if_neg (by simp only [Between] at ha ⊢; omega), if_pos ⟨ha, hb, h₂, h₃⟩]
      · rw [if_neg (by omega), if_neg (by simp only [Between]; omega), if_pos ⟨ha, hb, h₂, h₃⟩]

/-- A turn stays inside the bytes. -/
theorem utf8Step_le {buffer : List UInt8} {length index k : UInt8} (hindex : index < length)
    (h : utf8Step buffer length index = some k) :
    0 < k.toNat ∧ index.toNat + k.toNat ≤ length.toNat := by
  have hlt : index.toNat < length.toNat := hindex
  cases matches_of_sequenceLength h with
  | one h => exact ⟨Nat.one_pos, hlt⟩
  | two hleft h => exact ⟨Nat.two_pos, by simpa using (by omega : index.toNat + 2 ≤ length.toNat)⟩
  | three hleft h =>
    exact ⟨Nat.succ_pos 2, by simpa using (by omega : index.toNat + 3 ≤ length.toNat)⟩
  | four hleft h =>
    exact ⟨Nat.succ_pos 3, by simpa using (by omega : index.toNat + 4 ≤ length.toNat)⟩

theorem toNat_index_add {length index k : UInt8} (hle : index.toNat + k.toNat ≤ length.toNat) :
    (index + k).toNat = index.toNat + k.toNat := by
  have hlength := length.toNat_lt
  rw [UInt8.toNat_add, Nat.mod_eq_of_lt (by omega)]

/-- The loop, from an index. -/
def utf8Loop (buffer : List UInt8) (length index : UInt8) : Bool :=
  if _hindex : index < length then
    match _h : utf8Step buffer length index with
    | some k => utf8Loop buffer length (index + k)
    | none => false
  else true
  termination_by length.toNat - index.toNat
  decreasing_by
    obtain ⟨hpos, hle⟩ := utf8Step_le _hindex _h
    rw [toNat_index_add hle]
    omega

/-- `lr11xx_wifi_is_well_formed_utf8_byte_sequence`. -/
def isWellFormedUtf8ByteSequence (buffer : List UInt8) (length : UInt8) : Bool :=
  utf8Loop buffer length 0

/-! ## The texts -/

section

variable {buffer : List UInt8} {length index : UInt8}

/-- The bytes that are left. -/
def leftBytes (buffer : List UInt8) (length index : UInt8) : List UInt8 :=
  (buffer.take length.toNat).drop index.toNat

theorem length_leftBytes (hlen : length.toNat ≤ buffer.length) :
    (leftBytes buffer length index).length = length.toNat - index.toNat := by
  rw [leftBytes, List.length_drop, List.length_take, min_eq_left hlen]

/-- The first of the bytes that are left, read one by one. -/
theorem take_leftBytes (hlen : length.toNat ≤ buffer.length) {n : Nat}
    (h : index.toNat + n ≤ length.toNat) :
    (leftBytes buffer length index).take n =
      (List.range n).map fun i => buffer.getD (index.toNat + i) 0 := by
  apply List.ext_getElem
  · rw [List.length_take, length_leftBytes hlen, List.length_map, List.length_range]
    omega
  · intro i hi hi'
    have hin : i < n := by simpa using hi'
    simp only [leftBytes, List.getElem_take, List.getElem_drop, List.getElem_map,
      List.getElem_range]
    rw [List.getD_eq_getElem?_getD, List.getElem?_eq_getElem (by omega), Option.getD_some]

/-- The bytes that are left after a turn. -/
theorem leftBytes_add {k : UInt8} (hle : index.toNat + k.toNat ≤ length.toNat) :
    leftBytes buffer length (index + k) = (leftBytes buffer length index).drop k.toNat := by
  rw [leftBytes, leftBytes, toNat_index_add hle, List.drop_drop]

/-- A turn goes over the first sequence of the bytes that are left. -/
theorem wellFormed_of_utf8Step (hlen : length.toNat ≤ buffer.length) (hindex : index < length)
    {k : UInt8} (h : utf8Step buffer length index = some k) :
    WellFormed ((leftBytes buffer length index).take k.toNat) := by
  rw [take_leftBytes hlen (utf8Step_le hindex h).2]
  cases matches_of_sequenceLength h with
  | one hone => exact hone
  | two _ htwo => exact htwo
  | three _ hthree => exact hthree
  | four _ hfour => exact hfour

/-- Where a sequence of the table comes first, a turn goes over it. -/
theorem utf8Step_of_wellFormed (hlen : length.toNat ≤ buffer.length) {first rest : List UInt8}
    (h : WellFormed first) (heq : leftBytes buffer length index = first ++ rest) :
    ∃ k, utf8Step buffer length index = some k := by
  have hle : first.length ≤ length.toNat - index.toNat := by
    rw [← length_leftBytes hlen, heq, List.length_append]
    exact Nat.le_add_right _ _
  have hread : index.toNat + first.length ≤ length.toNat →
      first = (List.range first.length).map fun i => buffer.getD (index.toNat + i) 0 := by
    intro hfits
    rw [← take_leftBytes hlen hfits, heq, List.take_left]
  cases h with
  | @one a ha =>
    have hlist : [a] = [buffer.getD index.toNat 0] :=
      hread (by simp only [List.length_cons, List.length_nil] at hle ⊢; omega)
    obtain rfl := (List.cons.inj hlist).1
    exact ⟨1, sequenceLength_of_matches (.one (.one ha))⟩
  | @two a b ha hb =>
    have hlist : [a, b] = [buffer.getD index.toNat 0, buffer.getD (index.toNat + 1) 0] :=
      hread (by simp only [List.length_cons, List.length_nil] at hle ⊢; omega)
    simp only [List.cons.injEq, and_true] at hlist
    obtain ⟨rfl, rfl⟩ := hlist
    exact ⟨2, sequenceLength_of_matches (.two hle (.two ha hb))⟩
  | @three a b c ha hc =>
    have hlist : [a, b, c] = [buffer.getD index.toNat 0, buffer.getD (index.toNat + 1) 0,
        buffer.getD (index.toNat + 2) 0] :=
      hread (by simp only [List.length_cons, List.length_nil] at hle ⊢; omega)
    simp only [List.cons.injEq, and_true] at hlist
    obtain ⟨rfl, rfl, rfl⟩ := hlist
    exact ⟨3, sequenceLength_of_matches (.three hle (.three ha hc))⟩
  | @four a b c d ha hc hd =>
    have hlist : [a, b, c, d] = [buffer.getD index.toNat 0, buffer.getD (index.toNat + 1) 0,
        buffer.getD (index.toNat + 2) 0, buffer.getD (index.toNat + 3) 0] :=
      hread (by simp only [List.length_cons, List.length_nil] at hle ⊢; omega)
    simp only [List.cons.injEq, and_true] at hlist
    obtain ⟨rfl, rfl, rfl, rfl⟩ := hlist
    exact ⟨4, sequenceLength_of_matches (.four hle (.four ha hc hd))⟩

/-- The loop accepts where a text is left. The induction is on the bytes that are left. -/
theorem utf8Loop_iff (hlen : length.toNat ≤ buffer.length) :
    utf8Loop buffer length index = true ↔ IsText (leftBytes buffer length index) := by
  induction hn : length.toNat - index.toNat using Nat.strong_induction_on generalizing index with
  | _ n ih =>
    rw [utf8Loop]
    by_cases hindex : index < length
    · rw [dif_pos hindex]
      cases hstep : utf8Step buffer length index with
      | some k =>
        obtain ⟨hpos, hle⟩ := utf8Step_le hindex hstep
        have hfirst := wellFormed_of_utf8Step hlen hindex hstep
        have hshorter : length.toNat - (index + k).toNat < n := by
          rw [toNat_index_add hle]
          omega
        have hnext := @ih _ hshorter (index + k) rfl
        rw [leftBytes_add hle, ← isText_append hfirst, List.take_append_drop] at hnext
        exact hnext
      | none =>
        constructor
        · intro h
          cases h
        · intro htext
          have hne : leftBytes buffer length index ≠ [] := by
            have hlt : index.toNat < length.toNat := hindex
            rw [← List.length_pos_iff, length_leftBytes hlen]
            omega
          obtain ⟨first, rest, hfirst, heq⟩ := htext.exists_first hne
          obtain ⟨k, hk⟩ := utf8Step_of_wellFormed hlen hfirst heq
          rw [hstep] at hk
          cases hk
    · rw [dif_neg hindex]
      have hnone : leftBytes buffer length index = [] := by
        have hle : length.toNat ≤ index.toNat := UInt8.not_lt.mp hindex
        rw [← List.length_eq_zero_iff, length_leftBytes hlen]
        omega
      simp [hnone, isText_nil]

/-- The function accepts the encodings of texts, whatever their length, and nothing else. -/
theorem isWellFormedUtf8ByteSequence_iff (hlen : length.toNat ≤ buffer.length) :
    isWellFormedUtf8ByteSequence buffer length = true ↔
      ∃ cs : List Char, cs.flatMap String.utf8EncodeChar = buffer.take length.toNat :=
  utf8Loop_iff hlen

theorem isWellFormedUtf8ByteSequence_euro :
    isWellFormedUtf8ByteSequence [0xE2, 0x82, 0xAC, 0xFF] 3 = true :=
  (isWellFormedUtf8ByteSequence_iff (by decide)).mpr ⟨['€'], by decide⟩

end

end Sidewalk.Lr11xx
