import Sidewalk.Mfg.Copy
import Sidewalk.Mfg.Provision

/-!
# From the tool to the device

The tool pads a record to a word, `parse_mfg_raw_tlv` steps over its raw length: behind a record
whose length is no multiple of four the parser loses the records. `roundTrip_iff` says that the
records reach the device exactly when such a record can only be the last one, which is the one
with the greatest tag. That a parser out of step never finds the next record again is counted in
zero bytes: an element shows as many as the record it passes for, and the parser has skipped one.
-/

namespace Sidewalk.Mfg

open Sidewalk.Lib Sidewalk.Tlv

variable {σ : Type}

/-! ## Raw records in memory -/

def HoldsRaw (m : Mem) (o : Nat) (e : Entry) : Prop := m.slice o e.size = rawRecord e

/-- From `o` on the memory holds the records of the tool, and is erased behind them. -/
inductive Written (m : Mem) (endOffset : Nat) : Nat → List Entry → Prop
  | nil {o : Nat} (blank : ∀ a, o ≤ a → a < endOffset → m a = 0xFF) : Written m endOffset o []
  | cons {o : Nat} {e : Entry} {es : List Entry} (held : HoldsRaw m o e)
      (rest : Written m endOffset (o + e.size) es) : Written m endOffset o (e :: es)

theorem beWord_tagBytes (e : Entry) (bs : List UInt8) : beWord (tagBytes e ++ bs) = e.type := by
  have ht := e.type.toNat_lt
  apply UInt16.toNat_inj.mp
  simp only [beWord, tagBytes, List.cons_append, List.getD_cons_zero, List.getD_cons_succ,
    UInt16.toNat_ofNat', UInt8.toNat_ofNat']
  omega

theorem beWord_lenBytes (e : Entry) (bs : List UInt8) :
    (beWord (lenBytes e ++ bs)).toNat = e.data.length := by
  have hshort := e.short
  simp only [beWord, lenBytes, List.cons_append, List.getD_cons_zero, List.getD_cons_succ,
    UInt16.toNat_ofNat', UInt8.toNat_ofNat', UInt8.toNat_zero]
  omega

section Written

variable {m : Mem} {endOffset o : Nat} {e : Entry} {es : List Entry}

/-- The four fields of a record. -/
theorem HoldsRaw.split (h : HoldsRaw m o e) :
    m.slice o 2 = tagBytes e ∧ m.slice (o + 2) 2 = lenBytes e ∧
      m.slice (o + 4) e.data.length = e.data ∧
      m.slice (o + 4 + e.data.length) (calculatePadding e.data.length) =
        List.replicate (calculatePadding e.data.length) paddingByte := by
  have h : m.slice o (tagBytes e ++ (lenBytes e ++ paddedData e.data)).length =
      tagBytes e ++ (lenBytes e ++ paddedData e.data) := by
    change m.slice o (rawRecord e).length = rawRecord e
    rw [length_rawRecord]
    exact h
  obtain ⟨htag, h⟩ := Mem.slice_append_iff.mp h
  obtain ⟨hlen, h⟩ := Mem.slice_append_iff.mp h
  obtain ⟨hdata, hpad⟩ := Mem.slice_append_iff.mp h
  rw [List.length_replicate] at hpad
  exact ⟨htag, hlen, hdata, hpad⟩

theorem HoldsRaw.tagAt (h : HoldsRaw m o e) : tagAt m o = e.type := by
  rw [Mfg.tagAt, h.split.1, ← List.append_nil (tagBytes e), beWord_tagBytes]

theorem HoldsRaw.sizeAt (h : HoldsRaw m o e) : sizeAt m o = e.data.length := by
  rw [Mfg.sizeAt, h.split.2.1, ← List.append_nil (lenBytes e), beWord_lenBytes]

theorem HoldsRaw.elementAt (h : HoldsRaw m o e) : elementAt m o = e.call := by
  rw [Mfg.elementAt, h.tagAt, h.sizeAt, h.split.2.2.1]
  rfl

theorem HoldsRaw.padding (h : HoldsRaw m o e) {a : Nat} (h₁ : o + 4 + e.data.length ≤ a)
    (h₂ : a < o + e.size) : m a = 0xFF := by
  obtain ⟨i, rfl⟩ := Nat.exists_eq_add_of_le h₁
  have hi : i < calculatePadding e.data.length := by
    unfold Entry.size recordSize paddedSize headerSize at h₂
    omega
  have hbyte := Mem.getElem?_slice m (o + 4 + e.data.length) (calculatePadding e.data.length) i
  rw [h.split.2.2.2, if_pos hi, List.getElem?_replicate, if_pos hi] at hbyte
  exact (Option.some.inj hbyte).symm

/-- The parser reads a record's element, and goes on behind its payload. -/
theorem HoldsRaw.rawElements (h : HoldsRaw m o e) (ho : o < endOffset) :
    rawElements m endOffset o = e.call :: rawElements m endOffset (o + 4 + e.data.length) := by
  rw [rawElements_hop ho (by rw [h.tagAt]; exact e.type_ne), h.elementAt, h.sizeAt]

theorem size_of_aligned (h : e.data.length % 4 = 0) : e.size = 4 + e.data.length := by
  unfold Entry.size recordSize paddedSize calculatePadding dataAlign headerSize
  omega

theorem tagAt_blank {m : Mem} {o : Nat} (h₀ : m o = 0xFF) (h₁ : m (o + 1) = 0xFF) :
    tagAt m o = tagEmpty := by
  have htag : m.slice o 2 = [0xFF, 0xFF] := by
    rw [Mem.slice_succ, Mem.slice_succ, Mem.slice_zero, h₀, h₁]
  rw [tagAt, htag]
  decide

theorem Written.blank (h : Written m endOffset o es) {a : Nat} (h₁ : o + usedBy es ≤ a)
    (h₂ : a < endOffset) : m a = 0xFF := by
  induction h with
  | nil hb => exact hb a h₁ h₂
  | cons _ _ ih =>
    rw [usedBy_cons] at h₁
    exact ih (by omega)

theorem Written.drop (h : Written m endOffset o (es ++ es')) :
    Written m endOffset (o + usedBy es) es' := by
  induction es generalizing o with
  | nil => exact h
  | cons e es ih =>
    cases h with
    | cons held rest =>
      rw [usedBy_cons, ← Nat.add_assoc]
      exact ih rest

/-- The parser stays in step with records of aligned lengths. -/
theorem Written.rawElements_append {limit : Nat} (h : Written m limit o (es ++ es'))
    (haligned : ∀ e ∈ es, e.data.length % 4 = 0) (hin : o + usedBy es ≤ endOffset) :
    rawElements m endOffset o =
      es.map Entry.call ++ rawElements m endOffset (o + usedBy es) := by
  induction es generalizing o with
  | nil => rfl
  | cons e es ih =>
    rw [List.forall_mem_cons] at haligned
    rw [usedBy_cons] at hin ⊢
    have hsize := size_of_aligned haligned.1
    cases h with
    | cons held rest =>
      rw [held.rawElements (by omega), Nat.add_assoc o, ← hsize, ih rest haligned.2 (by omega),
        ← Nat.add_assoc, List.map_cons, List.cons_append]

/-- The parser reads all records when only the last one has a length that is not aligned. -/
theorem Written.rawElements_eq (h : Written m endOffset o es)
    (haligned : ∀ e ∈ es.dropLast, e.data.length % 4 = 0)
    (hin : o + usedBy es + 2 ≤ endOffset) : rawElements m endOffset o = es.map Entry.call := by
  rcases List.eq_nil_or_concat es with rfl | ⟨init, last, rfl⟩
  · rw [usedBy_nil] at hin
    exact rawElements_stop (.inr (tagAt_blank (h.blank (Nat.le_refl _) (by omega))
      (h.blank (by rw [usedBy_nil]; omega) (by omega))))
  · rw [List.concat_eq_append] at *
    rw [List.dropLast_concat] at haligned
    rw [usedBy_append, usedBy_cons, usedBy_nil] at hin
    have hrec := last.eight_le_size
    have hlast := h.drop
    cases hlast with
    | cons held rest =>
      have hff : ∀ a, o + usedBy init + 4 + last.data.length ≤ a → a < endOffset → m a = 0xFF := by
        intro a h₁ h₂
        by_cases ha : a < o + usedBy init + last.size
        · exact held.padding h₁ ha
        · exact rest.blank (by rw [usedBy_nil]; omega) h₂
      have hpad := le_paddedSize last.data.length
      have hend : o + usedBy init + 4 + last.data.length + 2 ≤ endOffset := by
        unfold Entry.size recordSize headerSize at hin
        omega
      rw [h.rawElements_append haligned (by omega), held.rawElements (by omega),
        rawElements_stop (.inr (tagAt_blank (hff _ (Nat.le_refl _) (by omega))
          (hff _ (by omega) (by omega)))), List.map_append]
      rfl

end Written

/-! ## Counting zero bytes -/

/-- Elements with the keys of others that weigh no more weigh no more together. -/
theorem sum_le_of_keys {α κ : Type} {key : α → κ} {weight : α → Nat} {xs ys : List α}
    (hnodup : (xs.map key).Nodup)
    (h : ∀ x ∈ xs, ∃ y ∈ ys, key y = key x ∧ weight x ≤ weight y) :
    (xs.map weight).sum ≤ (ys.map weight).sum := by
  induction xs generalizing ys with
  | nil => exact Nat.zero_le _
  | cons x xs ih =>
    rw [List.forall_mem_cons] at h
    rw [List.map_cons, List.nodup_cons] at hnodup
    obtain ⟨⟨y, hy, hkey, hweight⟩, h⟩ := h
    obtain ⟨before, behind, rfl⟩ := List.append_of_mem hy
    have hrest : (xs.map weight).sum ≤ ((before ++ behind).map weight).sum := by
      refine ih hnodup.2 fun x' hx' => ?_
      obtain ⟨y', hy', hkey', hweight'⟩ := h x' hx'
      refine ⟨y', ?_, hkey', hweight'⟩
      rcases List.mem_append.mp hy' with hin | hin
      · exact List.mem_append_left _ hin
      · rcases List.mem_cons.mp hin with rfl | hin
        · -- the entry for `x` has another key
          have hmem : key x' ∈ xs.map key := List.mem_map_of_mem hx'
          rw [← hkey', hkey] at hmem
          exact absurd hmem hnodup.1
        · exact List.mem_append_right _ hin
    rw [List.map_append, List.sum_append] at hrest ⊢
    rw [List.map_cons, List.map_cons, List.sum_cons, List.sum_cons]
    omega

/-- The zero bytes of a record. -/
def zeros (e : Entry) : Nat := (rawRecord e).count 0

theorem count_padding (n : Nat) : (List.replicate n paddingByte).count 0 = 0 := by
  rw [List.count_replicate, if_neg (by decide)]

theorem zeros_eq (e : Entry) :
    zeros e = (tagBytes e).count 0 + ((lenBytes e).count 0 + e.data.count 0) := by
  rw [zeros, rawRecord, List.count_append, List.count_append, paddedData, List.count_append,
    count_padding, Nat.add_zero]

/-- An entry that is read in place of another one shows at least its zero bytes. -/
theorem zeros_le_of_read {e r : Entry} (htype : e.type = r.type) {n : Nat}
    (hdata : r.data = (paddedData e.data).take n) : zeros r ≤ zeros e := by
  have htag : tagBytes r = tagBytes e := by rw [tagBytes, tagBytes, htype]
  have hcount : ∀ e : Entry, (lenBytes e).count 0 = 1 := by
    intro e
    have hlen : (UInt8.ofNat e.data.length).toNat = e.data.length :=
      UInt8.toNat_ofNat_of_lt' e.short
    have hne : UInt8.ofNat e.data.length ≠ 0 := by
      intro h
      rw [h] at hlen
      exact absurd hlen.symm (Nat.ne_of_gt e.pos)
    rw [lenBytes, List.count_cons_self, List.count_cons_of_ne hne, List.count_nil]
  have hle : r.data.count 0 ≤ e.data.count 0 := by
    rw [hdata]
    calc ((paddedData e.data).take n).count 0 ≤ (paddedData e.data).count 0 :=
          (List.take_sublist n _).count_le 0
      _ = e.data.count 0 := by rw [paddedData, List.count_append, count_padding, Nat.add_zero]
  rw [zeros_eq, zeros_eq, htag, hcount, hcount]
  omega

section Zeros

variable {m : Mem} {endOffset o : Nat} {build : Build}

theorem beWord_slice (m : Mem) (o : Nat) :
    (beWord (m.slice o 2)).toNat = (m o).toNat * 256 + (m (o + 1)).toNat := by
  have h₀ := (m o).toNat_lt
  have h₁ := (m (o + 1)).toNat_lt
  simp only [beWord, Mem.slice, List.getD_cons_zero, List.getD_cons_succ, UInt16.toNat_ofNat']
  omega

/-- The bytes an element of less than 256 bytes is read from. -/
theorem zeros_copied {e : Entry} (h : build.copied (elementAt m o) = some e) :
    zeros e = (m.slice o (4 + sizeAt m o)).count 0 := by
  have helement := call_of_copied h
  have htype : e.type = tagAt m o := congrArg Prod.fst helement
  have hdata : e.data = m.slice (o + 4) (sizeAt m o) := congrArg Prod.snd helement
  have hlen : e.data.length = sizeAt m o := by rw [hdata, Mem.length_slice]
  have hshort := e.short
  have htag : tagBytes e = m.slice o 2 := by
    have hword := beWord_slice m o
    have h₀ := (m o).toNat_lt
    have h₁ := (m (o + 1)).toNat_lt
    have hhi : (tagAt m o).toNat / 256 = (m o).toNat := by unfold tagAt; omega
    have hlo : (tagAt m o).toNat % 256 = (m (o + 1)).toNat := by unfold tagAt; omega
    rw [tagBytes, htype, hhi, hlo, UInt8.ofNat_toNat, UInt8.ofNat_toNat]
    rfl
  have hsize : lenBytes e = m.slice (o + 2) 2 := by
    have hword := beWord_slice m (o + 2)
    have h₁ := (m (o + 2 + 1)).toNat_lt
    have hhi : m (o + 2) = 0 := UInt8.toNat_inj.mp (by
      unfold sizeAt at hlen
      rw [UInt8.toNat_zero]
      omega)
    have hlo : e.data.length = (m (o + 2 + 1)).toNat := by
      unfold sizeAt at hlen
      rw [hhi, UInt8.toNat_zero] at hword
      omega
    rw [lenBytes, hlo, UInt8.ofNat_toNat, ← hhi]
    rfl
  have hbytes : m.slice o (4 + sizeAt m o) =
      m.slice o 2 ++ (m.slice (o + 2) 2 ++ m.slice (o + 4) (sizeAt m o)) := by
    rw [show 4 + sizeAt m o = 2 + (2 + sizeAt m o) by omega, Mem.slice_add, Mem.slice_add]
  rw [zeros_eq, htag, hsize, hdata, hbytes, List.count_append, List.count_append]

/-- The parser's elements show no more zero bytes than there are in front of it. -/
theorem zeros_rawElements {limit : Nat} (hlimit : endOffset + 65544 ≤ limit) (ho : o ≤ limit) :
    (((rawElements m endOffset o).filterMap build.copied).map zeros).sum ≤
      (m.slice o (limit - o)).count 0 := by
  induction o using (rawHops m endOffset).induct with
  | stop o hn =>
    rw [rawElements, Hops.stops_of_none hn]
    exact Nat.zero_le _
  | hop o o' hn ih =>
    have hgo : o < endOffset ∧ tagAt m o ≠ tagEmpty := by
      by_contra hc
      simp only [rawHops, hc, if_false] at hn
      cases hn
    have hnext := rawHops_next hgo.1 hgo.2
    rw [hn] at hnext
    obtain rfl := Option.some.inj hnext
    have hsize := sizeAt_lt m o
    have hsplit : limit - o = 4 + sizeAt m o + (limit - (o + 4 + sizeAt m o)) := by omega
    have hcount : (m.slice o (limit - o)).count 0 = (m.slice o (4 + sizeAt m o)).count 0 +
        (m.slice (o + 4 + sizeAt m o) (limit - (o + 4 + sizeAt m o))).count 0 := by
      rw [hsplit, Mem.slice_add, List.count_append, ← Nat.add_assoc o 4]
    have hrest := ih (by omega)
    rw [rawElements_hop hgo.1 hgo.2, List.filterMap_cons]
    cases hcopied : build.copied (elementAt m o) with
    | none => simp only; omega
    | some e =>
      have hzeros := zeros_copied hcopied
      simp only [List.map_cons, List.sum_cons]
      omega

theorem Written.zeros_eq {es : List Entry} {limit : Nat} (h : Written m limit o es)
    (hin : o + usedBy es ≤ limit) :
    (m.slice o (limit - o)).count 0 = (es.map zeros).sum := by
  induction h with
  | @nil o hb =>
    rw [Mem.slice_const fun a h₁ h₂ => hb a h₁ (by omega), List.count_replicate,
      if_neg (by decide)]
    rfl
  | @cons o e es held _ ih =>
    rw [usedBy_cons] at hin
    have hsplit : limit - o = e.size + (limit - (o + e.size)) := by omega
    rw [hsplit, Mem.slice_add, List.count_append, ih (by omega), held, List.map_cons,
      List.sum_cons]
    rfl

end Zeros

/-! ## Out of step -/

section OutOfStep

variable {m : Mem} {endOffset limit o : Nat} {build : Build} {r next : Entry} {post : List Entry}

/-- In front of padding the parser stops, or it takes the last byte of the padding and three bytes
of the next record for a header, and stands one zero byte further. -/
theorem out_of_step (held : HoldsRaw m o r) (hmis : r.data.length % 4 ≠ 0)
    (h : Written m limit (o + r.size) (next :: post))
    (hshort : ∀ element ∈ rawElements m endOffset (o + 4 + r.data.length),
      element.2.length < 256) :
    (rawElements m endOffset (o + 4 + r.data.length)).filterMap build.copied = [] ∨
      o + 4 + r.data.length + 1 = o + r.size ∧
        (rawElements m endOffset (o + 4 + r.data.length)).filterMap build.copied =
          (rawElements m endOffset (o + r.size + 3)).filterMap build.copied := by
  have hsize : r.size = 4 + r.data.length + calculatePadding r.data.length := by
    unfold Entry.size recordSize paddedSize headerSize
    omega
  have hpad : 0 < calculatePadding r.data.length := by
    unfold calculatePadding dataAlign
    omega
  by_cases hstop : endOffset ≤ o + 4 + r.data.length ∨ tagAt m (o + 4 + r.data.length) = tagEmpty
  · left
    rw [rawElements_stop hstop, List.filterMap_nil]
  · right
    rw [not_or] at hstop
    have hone : o + 4 + r.data.length + 1 = o + r.size := by
      by_contra hmore
      exact hstop.2 (tagAt_blank (held.padding (Nat.le_refl _) (by omega))
        (held.padding (by omega) (by omega)))
    refine ⟨hone, ?_⟩
    have hhop := rawElements_hop (Nat.not_le.mp hstop.1) hstop.2
    have hzero : m (o + r.size + 2) = 0 := by
      cases h with
      | cons held' _ => exact (List.cons.inj held'.split.2.1).1
    have hempty : sizeAt m (o + 4 + r.data.length) = 0 := by
      have hlt := hshort (elementAt m (o + 4 + r.data.length)) (by
        rw [hhop]
        exact List.mem_cons_self)
      simp only [elementAt, Mem.length_slice] at hlt
      have hword := beWord_slice m (o + 4 + r.data.length + 2)
      rw [show o + 4 + r.data.length + 2 + 1 = o + r.size + 2 by omega, hzero,
        UInt8.toNat_zero] at hword
      unfold sizeAt at hlt ⊢
      omega
    have hnone : build.copied (elementAt m (o + 4 + r.data.length)) = none := by
      refine dif_neg fun hc => ?_
      have hpos := hc.2.2.1
      rw [elementAt, hempty] at hpos
      exact Nat.lt_irrefl 0 hpos
    rw [hhop, hempty, List.filterMap_cons, hnone,
      show o + 4 + r.data.length + 4 + 0 = o + r.size + 3 by omega]

/-- The records behind one whose length is not aligned do not all come out again. -/
theorem records_lost (hlimit : endOffset + 65544 ≤ limit) (held : HoldsRaw m o r)
    (hmis : r.data.length % 4 ≠ 0) (h : Written m limit (o + r.size) (next :: post))
    (hin : o + r.size + usedBy (next :: post) ≤ limit)
    (hnodup : ((next :: post).map Entry.type).Nodup)
    (hshort : ∀ element ∈ rawElements m endOffset (o + 4 + r.data.length),
      element.2.length < 256)
    (hfound : ∀ e ∈ next :: post, ∃ e' ∈ (rawElements m endOffset
      (o + 4 + r.data.length)).filterMap build.copied, e'.type = e.type ∧
        ∃ n, e.data = (paddedData e'.data).take n) : False := by
  rcases @out_of_step _ _ _ _ build _ _ _ held hmis h hshort with hnone | ⟨hone, hskip⟩
  · obtain ⟨e', hmem, -⟩ := hfound next List.mem_cons_self
    rw [hnone] at hmem
    cases hmem
  · have hkeys : ((next :: post).map zeros).sum ≤ (((rawElements m endOffset
        (o + 4 + r.data.length)).filterMap build.copied).map zeros).sum := by
      refine sum_le_of_keys hnodup fun e he => ?_
      obtain ⟨e', hmem, htype, n, hdata⟩ := hfound e he
      exact ⟨e', hmem, htype, zeros_le_of_read htype hdata⟩
    have hsize := next.eight_le_size
    rw [usedBy_cons] at hin
    have hahead := @zeros_rawElements m endOffset (o + r.size + 3) build limit hlimit (by omega)
    have hall := h.zeros_eq (by rw [usedBy_cons]; omega)
    have hsplit : limit - (o + r.size) = 3 + (limit - (o + r.size + 3)) := by omega
    have hzero : 0 < (m.slice (o + r.size) 3).count 0 := by
      rw [List.count_pos_iff]
      cases h with
      | cons held' _ =>
        have hbyte : m (o + r.size + 2) = 0 := (List.cons.inj held'.split.2.1).1
        rw [← hbyte]
        exact List.mem_cons_of_mem _ (List.mem_cons_of_mem _ List.mem_cons_self)
    rw [hsplit, Mem.slice_add, List.count_append] at hall
    rw [hskip] at hkeys
    omega

end OutOfStep

/-! ## The round trip -/

/-- Every record that is not the one with the greatest tag has an aligned length. -/
def Aligned (records : List Entry) : Prop :=
  ∀ r ∈ records, ∀ r' ∈ records, r.type.toNat < r'.type.toNat → r.data.length % 4 = 0

/-- The partition starts with the image and is erased behind it. -/
def Programmed (tlv : TlvCtx σ) (m : Mem) (image : List UInt8) : Prop :=
  m.slice tlv.startOffset image.length = image ∧
    ∀ a, tlv.startOffset + image.length ≤ a → a < tlv.endOffset → m a = 0xFF

/-- The parser accepts the image, and every record is read back behind it. -/
def RoundTrip (build : Build) (platform : Platform) (tlv : TlvCtx σ) (s : σ)
    (records : List Entry) : Prop :=
  ∃ s', parseMfgRawTlv build platform tlv s = (.ret 0, s') ∧
    ∀ r ∈ records, (tlvRead tlv s' r.type r.data.length).1 = some (0, r.data)

theorem aligned_iff {records es : List Entry} (hperm : es.Perm records)
    (hsorted : es.Pairwise (·.type.toNat < ·.type.toNat)) :
    Aligned records ↔ ∀ e ∈ es.dropLast, e.data.length % 4 = 0 := by
  rcases List.eq_nil_or_concat es with rfl | ⟨init, last, rfl⟩
  · obtain rfl := hperm.nil_eq
    exact ⟨fun _ e he => absurd he List.not_mem_nil, fun _ r hr => absurd hr List.not_mem_nil⟩
  · rw [List.concat_eq_append] at *
    rw [List.dropLast_concat]
    have hlast := (List.pairwise_append.mp hsorted).2.2
    constructor
    · intro h e he
      exact h e (hperm.subset (List.mem_append_left _ he)) last
        (hperm.subset (List.mem_append_right _ List.mem_cons_self))
        (hlast e he last List.mem_cons_self)
    · intro h r hr r' hr' hlt
      rcases List.mem_append.mp (hperm.symm.subset hr) with hin | hin
      · exact h r hin
      · obtain rfl := List.mem_singleton.mp hin
        rcases List.mem_append.mp (hperm.symm.subset hr') with hin' | hin'
        · have := hlast r' hin' r List.mem_cons_self
          omega
        · obtain rfl := List.mem_singleton.mp hin'
          omega

theorem written_of_slice {m : Mem} {limit o : Nat} {es : List Entry}
    (h : m.slice o (es.flatMap rawRecord).length = es.flatMap rawRecord)
    (hb : ∀ a, o + usedBy es ≤ a → a < limit → m a = 0xFF) : Written m limit o es := by
  induction es generalizing o with
  | nil => exact .nil hb
  | cons e es ih =>
    rw [List.flatMap_cons] at h
    obtain ⟨held, hrest⟩ := Mem.slice_append_iff.mp h
    rw [length_rawRecord] at held hrest
    refine .cons held (ih hrest fun a h₁ h₂ => hb a ?_ h₂)
    rw [usedBy_cons]
    omega

theorem length_flatMap_rawRecord (es : List Entry) : (es.flatMap rawRecord).length = usedBy es := by
  rw [List.length_flatMap, usedBy]
  simp only [length_rawRecord]

theorem find_type {es : List Entry} (hdistinct : (es.map Entry.type).Nodup) {r : Entry}
    (hr : r ∈ es) : es.find? (·.type = r.type) = some r := by
  cases hfound : es.find? (·.type = r.type) with
  | none =>
    have hnone := List.find?_eq_none.mp hfound r hr
    rw [decide_eq_true rfl] at hnone
    exact absurd rfl hnone
  | some e =>
    have htype : e.type = r.type := by simpa using List.find?_some hfound
    rw [List.inj_on_of_nodup_map hdistinct (List.mem_of_find?_eq_some hfound) hr htype]

section RoundTrip

variable {build : Build} {platform : Platform} {tlv : TlvCtx σ} {view : σ → Mem}
  {es : List Entry}

/-- The records of an image that are in step come out of the migration. -/
theorem roundTrip_of_written (hs : FlashFaultFree tlv.storageImpl view)
    (hmarker : tlv.tlvStorageStartMarkerSize = mfgHeaderSize)
    (hend : tlv.endOffset + 65544 ≤ 2 ^ 32) (hlt : tlv.startOffset < tlv.endOffset)
    (halloc : platform.malloc (tlv.endOffset - tlv.startOffset) = true)
    (hkeys : build.psaKeyStorage = false)
    (hmax : ∀ e ∈ es, e.data.length ≤ build.maxElementSize)
    (hfits : mfgHeaderSize + usedBy es + recordSize mfgFlagsSize ≤
      tlv.endOffset - tlv.startOffset)
    (hdistinct : (es.map Entry.type).Nodup) {s : σ}
    (h : Written (view s) tlv.endOffset (tlv.startOffset + mfgHeaderSize) es)
    (haligned : ∀ e ∈ es.dropLast, e.data.length % 4 = 0) :
    RoundTrip build platform tlv s es := by
  have hrec : recordSize mfgFlagsSize = 8 := rfl
  have hhead : mfgHeaderSize = 8 := rfl
  have hfirst : tlv.firstOffset = tlv.startOffset + mfgHeaderSize := by
    rw [TlvCtx.firstOffset, hmarker, u32_of_lt (by omega)]
  have helements := h.rawElements_eq haligned (by omega)
  have hblank : Stored (freshCopy platform (tlv.endOffset - tlv.startOffset))
      (tlv.endOffset - tlv.startOffset) mfgHeaderSize [] :=
    .nil fun a h₁ h₂ => freshCopy_blank platform h₁ h₂
  obtain ⟨ram, hcopy, hstored⟩ : ∃ ram, copyAll build platform
      (ramTlv (tlv.endOffset - tlv.startOffset) mfgHeaderSize) (es.map Entry.call)
      (freshCopy platform (tlv.endOffset - tlv.startOffset)) = .done ram ∧
        Stored ram (tlv.endOffset - tlv.startOffset) mfgHeaderSize es :=
    copyAll_stored (by omega) hkeys hmax hblank (by rw [List.nil_append]; omega)
  have hslot : ramSlot ram (tlv.endOffset - tlv.startOffset) = mfgHeaderSize + usedBy es :=
    hstored.freeSlot (by unfold headerSize; omega)
  rw [← helements, ← hfirst] at hcopy
  obtain ⟨s', hparse, hholding⟩ := parseMfgRawTlv_fits hs hmarker hend hlt halloc hcopy
    (by rw [hslot]; exact hfits)
  rw [hslot] at hholding
  refine ⟨s', hparse, fun r hr => ?_⟩
  obtain ⟨s'', hread, -⟩ := tlvRead_holding hs.toFaultFree hmarker hend hlt hholding r.type
    r.data.length
  have hfind : (es ++ [flagsEntry build]).find? (·.type = r.type) = some r := by
    rw [List.find?_append, find_type hdistinct hr, Option.some_or]
  have hroom : mfgHeaderSize + usedBy (es ++ [flagsEntry build]) ≤
      tlv.endOffset - tlv.startOffset := by
    have hflags : (flagsEntry build).size = recordSize mfgFlagsSize := rfl
    rw [usedBy_append, usedBy_cons, usedBy_nil]
    omega
  rw [hread]
  exact congrArg some (readResult_stored (hstored.append (flagsEntry build)) hroom hfind)

/-- What a migration that returns `0` shows under a tag other than that of the flags. -/
theorem copied_of_read (hs : FlashFaultFree tlv.storageImpl view)
    (hmarker : tlv.tlvStorageStartMarkerSize = mfgHeaderSize)
    (hend : tlv.endOffset + 65544 ≤ 2 ^ 32) (hmax : build.maxElementSize < 256) {s s' : σ}
    (hparse : parseMfgRawTlv build platform tlv s = (.ret 0, s')) {type : UInt16}
    (htype : type ≠ emptyType) (hflags : type ≠ mfgFlagsTypeId) {n : Nat} {data : List UInt8}
    (hread : (tlvRead tlv s' type n).1 = some (0, data)) :
    ∃ e ∈ (rawElements (view s) tlv.endOffset tlv.firstOffset).filterMap build.copied,
      e.type = type ∧ data = (paddedData e.data).take n := by
  obtain ⟨hlt, ram, hcopy, hfits, hholding⟩ := parseMfgRawTlv_ret_zero hs hmarker hend hparse
  have hfilling : Filling (tlv.endOffset - tlv.startOffset)
      (freshCopy platform (tlv.endOffset - tlv.startOffset)) [] :=
    filling_of_stored (.nil fun a h₁ h₂ => freshCopy_blank platform h₁ h₂) (.inl rfl)
  have hfilled := hfilling.copyAll (by omega) tag_rawElements
    (fun element hmem => Nat.lt_of_le_of_lt (copyAll_max hcopy element hmem) hmax) hcopy
  rw [List.nil_append] at hfilled
  obtain ⟨hstored, hroom⟩ := hfilled.append (flagsEntry build) hfits
  obtain ⟨s'', hs'', -⟩ := tlvRead_holding hs.toFaultFree hmarker hend hlt hholding type n
  rw [hs''] at hread
  obtain ⟨e, hmem, he, hdata⟩ := stored_of_readResult hstored hroom htype (Option.some.inj hread)
  refine ⟨e, ?_, he, hdata⟩
  rcases List.mem_append.mp hmem with hmem | hmem
  · exact hmem
  · obtain rfl := List.mem_singleton.mp hmem
    exact absurd he.symm hflags

/-- A split of a list at the first element that fails a property. -/
theorem exists_first {α : Type} {P : α → Prop} [DecidablePred P] {xs : List α}
    (h : ¬∀ x ∈ xs, P x) :
    ∃ before x behind, xs = before ++ x :: behind ∧ (∀ y ∈ before, P y) ∧ ¬P x := by
  induction xs with
  | nil => exact absurd (fun _ hx => absurd hx List.not_mem_nil) h
  | cons x xs ih =>
    by_cases hx : P x
    · obtain ⟨before, y, behind, rfl, hbefore, hy⟩ :=
        ih fun hall => h (List.forall_mem_cons.mpr ⟨hx, hall⟩)
      exact ⟨x :: before, y, behind, rfl, List.forall_mem_cons.mpr ⟨hx, hbefore⟩, hy⟩
    · exact ⟨[], x, xs, rfl, fun _ hy => absurd hy List.not_mem_nil, hx⟩

/-- Records out of step do not all come out of the migration. -/
theorem not_roundTrip_of_written (hs : FlashFaultFree tlv.storageImpl view)
    (hmarker : tlv.tlvStorageStartMarkerSize = mfgHeaderSize)
    (hend : tlv.endOffset + 65544 ≤ 2 ^ 32) (hmax : build.maxElementSize < 256)
    (hkeys : build.psaKeyStorage = false)
    (htags : ∀ e ∈ es, e.type.toNat < mfgFlagsTypeId.toNat)
    (hdistinct : (es.map Entry.type).Nodup)
    (hfits : mfgHeaderSize + usedBy es ≤ tlv.endOffset - tlv.startOffset) {s : σ}
    (h : Written (view s) (tlv.endOffset + 65544) (tlv.startOffset + mfgHeaderSize) es)
    (hround : RoundTrip build platform tlv s es) :
    ∀ e ∈ es.dropLast, e.data.length % 4 = 0 := by
  by_contra hmis
  obtain ⟨pre, r, behind, hsplit, hpre, hr⟩ := exists_first hmis
  obtain ⟨next, post, hnext⟩ : ∃ next post, es = pre ++ r :: next :: post := by
    rcases List.eq_nil_or_concat es with rfl | ⟨init, last, rfl⟩
    · exact absurd (congrArg List.length hsplit) (by simp)
    · rw [List.concat_eq_append] at *
      rw [List.dropLast_concat] at hsplit
      rw [hsplit]
      cases behind with
      | nil => exact ⟨last, [], by simp⟩
      | cons next post => exact ⟨next, post ++ [last], by simp⟩
  subst hnext
  have hfirst : tlv.firstOffset = tlv.startOffset + mfgHeaderSize := by
    rw [TlvCtx.firstOffset, hmarker, u32_of_lt (by unfold mfgHeaderSize at *; omega)]
  obtain ⟨s', hparse, hread⟩ := hround
  have hrec := r.eight_le_size
  rw [usedBy_append, usedBy_cons, usedBy_cons] at hfits
  have hheld := h.drop
  cases hheld with
  | cons held rest =>
    have hsize : 4 + r.data.length ≤ r.size :=
      Nat.add_le_add_left (le_paddedSize r.data.length) headerSize
    have hwalk : (rawElements (view s) tlv.endOffset tlv.firstOffset).filterMap build.copied =
        pre ++ r :: (rawElements (view s) tlv.endOffset
          (tlv.startOffset + mfgHeaderSize + usedBy pre + 4 + r.data.length)).filterMap
            build.copied := by
      rw [hfirst, h.rawElements_append hpre (by omega), held.rawElements (by omega),
        List.filterMap_append, filterMap_copied_call hkeys,
        List.filterMap_cons_some (copied_call hkeys r)]
    have hshort : ∀ element ∈ rawElements (view s) tlv.endOffset tlv.firstOffset,
        element.2.length < 256 := by
      obtain ⟨-, ram, hcopy, -⟩ := parseMfgRawTlv_ret_zero hs hmarker hend hparse
      exact fun element hmem => Nat.lt_of_le_of_lt (copyAll_max hcopy element hmem) hmax
    rw [hfirst, h.rawElements_append hpre (by omega), held.rawElements (by omega)] at hshort
    rw [List.map_append, List.nodup_append, List.map_cons, List.nodup_cons] at hdistinct
    refine @records_lost _ _ _ _ build _ _ _ (by omega) held hr rest
      (by rw [usedBy_cons]; omega) hdistinct.2.1.2
      (fun element hmem => hshort element (List.mem_append_right _ (List.mem_cons_of_mem _ hmem)))
      fun e he => ?_
    have hin : e ∈ pre ++ r :: next :: post :=
      List.mem_append_right _ (List.mem_cons_of_mem _ he)
    obtain ⟨e', hmem, htype, hdata⟩ := copied_of_read hs hmarker hend hmax hparse e.type_ne
      (fun heq => Nat.lt_irrefl _ (heq ▸ htags e hin)) (hread e hin)
    rw [hwalk] at hmem
    refine ⟨e', ?_, htype, _, hdata⟩
    rcases List.mem_append.mp hmem with hmem | hmem
    · exact absurd htype (hdistinct.2.2 _ (List.mem_map_of_mem hmem) _
        (List.mem_cons_of_mem _ (List.mem_map_of_mem he)))
    · rcases List.mem_cons.mp hmem with rfl | hmem
      · exact absurd (htype ▸ List.mem_map_of_mem he) hdistinct.2.1.1
      · exact hmem

end RoundTrip

theorem written_of_programmed {tlv : TlvCtx σ} {m : Mem} {limit : Nat} {es : List Entry}
    (h : m.slice tlv.startOffset (mfgHeader ++ es.flatMap rawRecord).length =
      mfgHeader ++ es.flatMap rawRecord)
    (hb : ∀ a, tlv.startOffset + (mfgHeader ++ es.flatMap rawRecord).length ≤ a → a < limit →
      m a = 0xFF) :
    Written m limit (tlv.startOffset + mfgHeaderSize) es := by
  refine written_of_slice (Mem.slice_append_iff.mp h).2 fun a h₁ h₂ => hb a ?_ h₂
  have hlen : mfgHeader.length = mfgHeaderSize := rfl
  rw [List.length_append, length_flatMap_rawRecord, hlen]
  omega

theorem RoundTrip.perm {build : Build} {platform : Platform} {tlv : TlvCtx σ} {s : σ}
    {records es : List Entry} (hperm : es.Perm records)
    (h : RoundTrip build platform tlv s es) : RoundTrip build platform tlv s records := by
  obtain ⟨s', hparse, hread⟩ := h
  exact ⟨s', hparse, fun r hr => hread r (hperm.symm.subset hr)⟩

/-- What the tool writes for the records reaches the device from every partition it was
programmed into exactly when only the record with the greatest tag has a length that is no
multiple of four. That no other records do is proved for builds whose parser takes no elements of
256 bytes, and for tags a store value can have. -/
theorem roundTrip_iff {build : Build} {platform : Platform} {tlv : TlvCtx σ} {view : σ → Mem}
    (hs : FlashFaultFree tlv.storageImpl view) (hview : Function.Surjective view)
    (hmarker : tlv.tlvStorageStartMarkerSize = mfgHeaderSize)
    (hend : tlv.endOffset + 65544 ≤ 2 ^ 32)
    (halloc : platform.malloc (tlv.endOffset - tlv.startOffset) = true)
    (hkeys : build.psaKeyStorage = false) {records : List Entry}
    (hdistinct : (records.map Entry.type).Nodup)
    (hmax : ∀ r ∈ records, r.data.length ≤ build.maxElementSize)
    (hfits : mfgHeaderSize + usedBy records + recordSize mfgFlagsSize ≤
      tlv.endOffset - tlv.startOffset) :
    ∃ bin, freshImage records = .ok bin ∧
      (Aligned records → ∀ s, Programmed tlv (view s) bin.encoded →
        RoundTrip build platform tlv s records) ∧
      (build.maxElementSize < 256 → (∀ r ∈ records, r.type.toNat < mfgFlagsTypeId.toNat) →
        (∀ s, Programmed tlv (view s) bin.encoded → RoundTrip build platform tlv s records) →
          Aligned records) := by
  obtain ⟨bin, es, hbin, hperm, hsorted, hencoded⟩ := freshImage_eq hdistinct
  have hnodup : (es.map Entry.type).Nodup := (hperm.map _).nodup_iff.mpr hdistinct
  have hused : usedBy es = usedBy records := (hperm.map Entry.size).sum_eq
  have hrec : recordSize mfgFlagsSize = 8 := rfl
  rw [← hused] at hfits
  refine ⟨bin, hbin, ?_, ?_⟩
  · intro haligned s hprogrammed
    rw [hencoded] at hprogrammed
    have hwritten := written_of_programmed hprogrammed.1 hprogrammed.2
    exact (roundTrip_of_written hs hmarker hend (by omega) halloc hkeys
      (fun e he => hmax e (hperm.subset he)) hfits hnodup hwritten
      ((aligned_iff hperm hsorted).mp haligned)).perm hperm
  · intro hshort htags hround
    rw [aligned_iff hperm hsorted]
    obtain ⟨s, hview⟩ := hview (Mem.blit (fun _ => 0xFF) tlv.startOffset bin.encoded)
    have hblank : ∀ a, tlv.startOffset + bin.encoded.length ≤ a → view s a = 0xFF := by
      intro a ha
      rw [hview, Mem.blit_above ha]
    have himage : (view s).slice tlv.startOffset bin.encoded.length = bin.encoded := by
      rw [hview, Mem.slice_blit]
    have hall := (hround s ⟨himage, fun a ha _ => hblank a ha⟩).perm hperm.symm
    rw [hencoded] at himage hblank
    exact not_roundTrip_of_written hs hmarker hend hshort hkeys
      (fun e he => htags e (hperm.subset he)) hnodup (by omega)
      (written_of_programmed himage fun a ha _ => hblank a ha) hall

/-! ## Two records -/

def devId (data : List UInt8) (pos : 0 < data.length) (short : data.length < 256) : Entry where
  type := 1
  data := data
  type_ne := by decide
  pos := pos
  short := short

def apid : Entry where
  type := 38
  data := [0x41, 0x42, 0x43, 0x44]
  type_ne := by decide
  pos := by decide
  short := by decide

theorem flash_surjective : Function.Surjective Flash.mem := fun m => ⟨⟨m, []⟩, rfl⟩

/-- An identifier of eight bytes and the application id arrive. -/
theorem roundTrip_iff_aligned_devId :
    ∃ bin, freshImage [devId [1, 2, 3, 4, 5, 6, 7, 8] (by decide) (by decide), apid] = .ok bin ∧
      ∀ f : Flash, Programmed (tlvFlash Flash.storage 0 64) f.mem bin.encoded →
        RoundTrip defaultBuild calmPlatform (tlvFlash Flash.storage 0 64) f
          [devId [1, 2, 3, 4, 5, 6, 7, 8] (by decide) (by decide), apid] := by
  obtain ⟨bin, hbin, hround, -⟩ := @roundTrip_iff Flash defaultBuild calmPlatform
    (tlvFlash Flash.storage 0 64) Flash.mem Flash.faultFree flash_surjective rfl (by decide) rfl rfl
    [devId [1, 2, 3, 4, 5, 6, 7, 8] (by decide) (by decide), apid] (by decide) (by decide)
    (by decide)
  refine ⟨bin, hbin, hround ?_⟩
  intro r hr r' hr' hlt
  simp only [List.mem_cons, List.not_mem_nil, or_false] at hr hr'
  rcases hr with rfl | rfl <;> rfl

/-- Behind a device identifier of five bytes the application id is lost. -/
theorem apid_lost_behind_devId :
    ∃ (bin : SidMfgOutBin) (f : Flash),
      freshImage [devId [1, 2, 3, 4, 5] (by decide) (by decide), apid] = .ok bin ∧
      Programmed (tlvFlash Flash.storage 0 64) f.mem bin.encoded ∧
      ¬RoundTrip defaultBuild calmPlatform (tlvFlash Flash.storage 0 64) f
          [devId [1, 2, 3, 4, 5] (by decide) (by decide), apid] := by
  obtain ⟨bin, es, hbin, hperm, hsorted, hencoded⟩ := @freshImage_eq
    [devId [1, 2, 3, 4, 5] (by decide) (by decide), apid] (by decide)
  obtain ⟨m, himage, hblank⟩ : ∃ m : Mem, m.slice 0 bin.encoded.length = bin.encoded ∧
      ∀ a, 0 + bin.encoded.length ≤ a → m a = 0xFF :=
    ⟨_, Mem.slice_blit (fun _ => 0xFF) 0 _, fun a ha => Mem.blit_above ha⟩
  refine ⟨bin, ⟨m, []⟩, hbin, ⟨himage, fun a ha _ => hblank a ha⟩, fun hround => ?_⟩
  have hused : usedBy es = 20 := (hperm.map Entry.size).sum_eq
  rw [hencoded] at himage hblank
  have htags : ∀ e ∈ [devId [1, 2, 3, 4, 5] (by decide) (by decide), apid],
      e.type.toNat < mfgFlagsTypeId.toNat := by decide
  have hlast := @not_roundTrip_of_written Flash defaultBuild calmPlatform
    (tlvFlash Flash.storage 0 64) Flash.mem es Flash.faultFree rfl (by decide) (by decide) rfl
    (fun e he => htags e (hperm.subset he)) ((hperm.map _).nodup_iff.mpr (by decide))
    (by rw [hused]; decide) ⟨m, []⟩
    (written_of_programmed himage fun a ha _ => hblank a ha) (hround.perm hperm.symm)
  have haligned := (aligned_iff hperm hsorted).mpr hlast
  exact absurd (haligned _ List.mem_cons_self _ (List.mem_cons_of_mem _ List.mem_cons_self)
    (by decide)) (by decide)

end Sidewalk.Mfg
