import Sidewalk.Mfg.Parsers
import Sidewalk.Tlv.Record

/-!
# What the parsers copy

On flash without faults either parser copies a list of elements that it reads off the image:
`rawElements` along the raw records of a v8 image, `constElements` at the rows of the offset
table. `copyAll` is the copying itself, and `storeCopy_eq` is what follows it: the flags record is
appended to the RAM copy, and the partition becomes the copy. The RAM copy keeps its header
throughout (`copyAll_header`).
-/

namespace Sidewalk.Mfg

open Sidewalk.Lib Sidewalk.Tlv

variable {σ : Type}

/-! ## Elements of an image -/

/-- A tag with its payload. -/
abbrev Element := UInt16 × List UInt8

def tagAt (m : Mem) (o : Nat) : UInt16 := beWord (m.slice o 2)

def sizeAt (m : Mem) (o : Nat) : Nat := (beWord (m.slice (o + 2) 2)).toNat

def elementAt (m : Mem) (o : Nat) : Element := (tagAt m o, m.slice (o + 4) (sizeAt m o))

theorem sizeAt_lt (m : Mem) (o : Nat) : sizeAt m o < 65536 := UInt16.toNat_lt _

/-- The walk of `parse_mfg_raw_tlv`: it steps over the raw length. -/
def rawHops (m : Mem) (endOffset : Nat) : Hops where
  next o := if o < endOffset ∧ tagAt m o ≠ tagEmpty then some (o + 4 + sizeAt m o) else none
  bound := endOffset
  lt_next h := by
    split at h
    · cases h; omega
    · cases h
  le_bound h := by
    split at h
    · next hc => exact Nat.le_of_lt hc.1
    · cases h

/-- The elements a v8 image shows the parser from an offset on. -/
def rawElements (m : Mem) (endOffset o : Nat) : List Element :=
  ((rawHops m endOffset).stops o).map (elementAt m)

/-- The elements a table of constant offsets shows, without the empty ones. -/
def constElements (m : Mem) (startOffset : Nat) (table : List ConstElement) : List Element :=
  (table.map fun element =>
    (element.value, m.slice (u32 (startOffset + element.offset * wordSize)) element.size)).filter
      fun element =>
        ¬(maxFlashWriteLen < element.2.length ∨
          element.2 = List.replicate element.2.length 0xFF)

theorem rawHops_none {m : Mem} {endOffset o : Nat} :
    (rawHops m endOffset).next o = none ↔ endOffset ≤ o ∨ tagAt m o = tagEmpty := by
  simp only [rawHops]
  split
  · next hc => simp only [hc.2, or_false, reduceCtorEq, false_iff]; omega
  · next hc =>
    simp only [true_iff]
    by_cases ho : endOffset ≤ o
    · exact .inl ho
    · exact .inr (by_contra fun ht => hc ⟨by omega, ht⟩)

theorem rawHops_next {m : Mem} {endOffset o : Nat} (ho : o < endOffset)
    (ht : tagAt m o ≠ tagEmpty) :
    (rawHops m endOffset).next o = some (o + 4 + sizeAt m o) := by
  simp only [rawHops, ho, ht, ne_eq, not_false_eq_true, and_self, if_true]

theorem rawElements_stop {m : Mem} {endOffset o : Nat}
    (h : endOffset ≤ o ∨ tagAt m o = tagEmpty) : rawElements m endOffset o = [] := by
  rw [rawElements, Hops.stops_of_none (rawHops_none.mpr h), List.map_nil]

theorem rawElements_hop {m : Mem} {endOffset o : Nat} (ho : o < endOffset)
    (ht : tagAt m o ≠ tagEmpty) :
    rawElements m endOffset o =
      elementAt m o :: rawElements m endOffset (o + 4 + sizeAt m o) := by
  rw [rawElements, Hops.stops_of_some (rawHops_next ho ht), List.map_cons]
  rfl

/-- A row that is skipped shows no element. -/
theorem constElements_skip {m : Mem} {startOffset : Nat} {element : ConstElement}
    (rest : List ConstElement)
    (h : maxFlashWriteLen < element.size ∨
      m.slice (u32 (startOffset + element.offset * wordSize)) element.size =
        List.replicate element.size 0xFF) :
    constElements m startOffset (element :: rest) = constElements m startOffset rest := by
  unfold constElements
  rw [List.map_cons, List.filter_cons_of_neg]
  simp only [Mem.length_slice, decide_eq_true_eq, not_not]
  exact h

theorem constElements_keep {m : Mem} {startOffset : Nat} {element : ConstElement}
    (rest : List ConstElement)
    (h : ¬(maxFlashWriteLen < element.size ∨
      m.slice (u32 (startOffset + element.offset * wordSize)) element.size =
        List.replicate element.size 0xFF)) :
    constElements m startOffset (element :: rest) =
      (element.value, m.slice (u32 (startOffset + element.offset * wordSize)) element.size) ::
        constElements m startOffset rest := by
  unfold constElements
  rw [List.map_cons, List.filter_cons_of_pos]
  simp only [Mem.length_slice, decide_eq_true_eq]
  exact h

/-! ## Copying -/

/-- The elements copied one after the other. -/
def copyAll (build : Build) (platform : Platform) (ramCtx : TlvCtx Mem) :
    List Element → Mem → CopyEnd
  | [], ram => .done ram
  | (tag, payload) :: rest, ram =>
    if build.maxElementSize < payload.length then .exit .undefined
    else
      match storeElement build platform ramCtx tag payload ram with
      | .exit outcome => .exit outcome
      | .done ram => copyAll build platform ramCtx rest ram

section

variable {build : Build} {platform : Platform} {ramCtx : TlvCtx Mem}
  {read : σ → Nat → Nat → Int × List UInt8 × σ} {view : σ → Mem} {m : Mem}

theorem rawTlvLoop_eq
    (hread : ∀ s o n, ∃ s', read s o n = (0, (view s).slice o n, s') ∧ view s' = view s)
    {endOffset : Nat} (hend : endOffset + 65544 ≤ 2 ^ 32) {fuel o : Nat}
    (hfuel : endOffset < fuel + o) (hpos : 0 < fuel) {ram : Mem} {s : σ} (hs : view s = m) :
    ∃ s', rawTlvLoop build platform endOffset read ramCtx fuel o ram s =
      (copyAll build platform ramCtx (rawElements m endOffset o) ram, s') ∧ view s' = m := by
  induction fuel generalizing o ram s with
  | zero => cases hpos
  | succ fuel ih =>
    simp only [rawTlvLoop]
    by_cases ho : o < endOffset
    · have htag : beWord (m.slice o 2) = tagAt m o := rfl
      have hsize : (beWord (m.slice (o + 2) 2)).toNat = sizeAt m o := rfl
      obtain ⟨s₁, hs₁, hv₁⟩ := hread s o 2
      have hv₁ : view s₁ = m := hv₁.trans hs
      simp only [ho, if_true, hs₁, ne_eq, not_true_eq_false, if_false, hs, htag]
      by_cases ht : tagAt m o = tagEmpty
      · rw [rawElements_stop (.inr ht)]
        simp only [ht, if_true]
        exact ⟨s₁, rfl, hv₁⟩
      · have hlt := sizeAt_lt m o
        have ho₂ : u32 (o + 2) = o + 2 := Nat.mod_eq_of_lt (by omega)
        have ho₄ : u32 (o + 2 + 2) = o + 4 := Nat.mod_eq_of_lt (by omega)
        have hnext : u32 (o + 4 + sizeAt m o) = o + 4 + sizeAt m o := Nat.mod_eq_of_lt (by omega)
        obtain ⟨s₂, hs₂, hv₂⟩ := hread s₁ (o + 2) 2
        have hv₂ : view s₂ = m := hv₂.trans hv₁
        obtain ⟨s₃, hs₃, hv₃⟩ := hread s₂ (o + 4) (sizeAt m o)
        have hv₃ : view s₃ = m := hv₃.trans hv₂
        rw [rawElements_hop ho ht]
        simp only [ht, if_false, ho₂, ho₄, hs₂, hv₁, hsize, hs₃, hv₂, not_true_eq_false, hnext,
          copyAll, elementAt, Mem.length_slice]
        by_cases hmax : build.maxElementSize < sizeAt m o
        · simp only [hmax, if_true]
          exact ⟨s₃, rfl, hv₃⟩
        · simp only [hmax, if_false]
          cases storeElement build platform ramCtx (tagAt m o) (m.slice (o + 4) (sizeAt m o))
              ram with
          | exit outcome => exact ⟨s₃, rfl, hv₃⟩
          | done ram => exact ih (by omega) (by omega) hv₃
    · rw [rawElements_stop (.inl (by omega))]
      simp only [ho, if_false]
      exact ⟨s, rfl, hs⟩

/-- Where the table loop comes to its end, it has copied the elements of the table. -/
theorem copyAll_of_constOffsetsLoop
    (hread : ∀ s o n, ∃ s', read s o n = (0, (view s).slice o n, s') ∧ view s' = view s)
    {startOffset : Nat} {table : List ConstElement} {ram ram' : Mem} {s s' : σ} (hs : view s = m)
    (h : constOffsetsLoop build platform startOffset read ramCtx table ram s = (.done ram', s')) :
    copyAll build platform ramCtx (constElements m startOffset table) ram = .done ram' ∧
      view s' = m := by
  induction table generalizing ram s with
  | nil =>
    cases h
    exact ⟨rfl, hs⟩
  | cons element rest ih =>
    obtain ⟨s₁, hs₁, hv₁⟩ := hread s (u32 (startOffset + element.offset * wordSize)) element.size
    have hv₁ : view s₁ = m := hv₁.trans hs
    simp only [constOffsetsLoop, hs₁, ne_eq, not_true_eq_false, if_false, hs] at h
    split at h
    · cases h
    · next hmax =>
      split at h
      · next hempty =>
        rw [constElements_skip rest hempty]
        exact ih hv₁ h
      · next hfull =>
        rw [constElements_keep rest hfull]
        simp only [copyAll, Mem.length_slice, hmax, if_false]
        cases hstore : storeElement build platform ramCtx element.value
            (m.slice (u32 (startOffset + element.offset * wordSize)) element.size) ram with
        | exit outcome =>
          simp only [hstore] at h
          cases h
        | done ram₁ =>
          simp only [hstore] at h
          exact ih hv₁ h

/-- A table whose elements the buffer can hold is copied as its elements are. -/
theorem constOffsetsLoop_eq
    (hread : ∀ s o n, ∃ s', read s o n = (0, (view s).slice o n, s') ∧ view s' = view s)
    {startOffset : Nat} {table : List ConstElement}
    (hmax : ∀ element ∈ table, element.size ≤ build.maxElementSize) {ram : Mem} {s : σ}
    (hs : view s = m) :
    ∃ s', constOffsetsLoop build platform startOffset read ramCtx table ram s =
      (copyAll build platform ramCtx (constElements m startOffset table) ram, s') := by
  induction table generalizing ram s with
  | nil => exact ⟨s, rfl⟩
  | cons element rest ih =>
    rw [List.forall_mem_cons] at hmax
    obtain ⟨s₁, hs₁, hv₁⟩ := hread s (u32 (startOffset + element.offset * wordSize)) element.size
    have hv₁ : view s₁ = m := hv₁.trans hs
    simp only [constOffsetsLoop, hs₁, ne_eq, not_true_eq_false, if_false, hs,
      Nat.not_lt.mpr hmax.1]
    split
    · next hempty =>
      rw [constElements_skip rest hempty]
      exact ih hmax.2 hv₁
    · next hfull =>
      rw [constElements_keep rest hfull]
      simp only [copyAll, Mem.length_slice, Nat.not_lt.mpr hmax.1, if_false]
      cases storeElement build platform ramCtx element.value
          (m.slice (u32 (startOffset + element.offset * wordSize)) element.size) ram with
      | exit outcome => exact ⟨s₁, rfl⟩
      | done ram => exact ih hmax.2 hv₁

end

/-! ## The RAM copy -/

theorem ramTlv_faultFree (size marker : Nat) :
    FaultFree (ramTlv size marker).storageImpl id where
  read := ⟨_, rfl, fun s _ _ => ⟨s, rfl, rfl⟩⟩
  write := ⟨_, rfl, fun s o bs => ⟨s.blit o bs, rfl, rfl⟩⟩

theorem ramTlv_noWrap {size : Nat} (h : size + 65544 ≤ 2 ^ 32) :
    NoWrap (ramTlv size mfgHeaderSize) where
  first := by
    change 0 + mfgHeaderSize + 514 < 2 ^ 32
    decide
  last := by
    change size + 514 < 2 ^ 32
    omega

@[simp] theorem firstOffset_ramTlv (size : Nat) : (ramTlv size mfgHeaderSize).firstOffset = 8 := rfl

/-- The free slot of the RAM copy. -/
abbrev ramSlot (ram : Mem) (size : Nat) : Nat := freeSlot ram size mfgHeaderSize

section Copy

variable {build : Build} {platform : Platform} {size : Nat}

/-- What copying one element has done. -/
theorem storeElement_cases (hsize : size + 65544 ≤ 2 ^ 32) {tag : UInt16} {payload : List UInt8}
    (hlen : payload.length < 65536) {ram ram' : Mem}
    (h : storeElement build platform (ramTlv size mfgHeaderSize) tag payload ram = .done ram') :
    ((build.keyIdOf tag).isSome ∧ ram' = ram) ∨
    (build.keyIdOf tag = none ∧ ramSlot ram size + recordSize payload.length ≤ size ∧
      ram' = ram.blit (ramSlot ram size) (record tag payload)) := by
  unfold storeElement at h
  cases hkey : build.keyIdOf tag with
  | some id =>
    simp only [hkey] at h
    split at h
    · cases h
    · cases h
      exact .inl ⟨rfl, rfl⟩
  | none =>
    simp only [hkey] at h
    split at h
    · cases h
    · next ret ram₁ hwrite =>
      split at h
      · cases h
      · next hret =>
        cases h
        have hpad := paddedSize_lt payload.length
        rcases tlvWrite_cases (ramTlv_faultFree size mfgHeaderSize) (ramTlv_noWrap hsize)
          (by change size + recordSize payload.length < 2 ^ 32; unfold recordSize headerSize; omega)
          hwrite with ⟨rfl, -⟩ | ⟨-, -, hfits, hv⟩
        · exact absurd (by decide) hret
        · exact .inr ⟨rfl, hfits, hv⟩

/-- An element that fits the RAM copy and the write loop is copied. -/
theorem storeElement_fits (hsize : size + 65544 ≤ 2 ^ 32) {tag : UInt16} {payload : List UInt8}
    (hkey : build.keyIdOf tag = none) (hlen : payload.length ≤ 65532) {ram : Mem}
    (hfits : ramSlot ram size + recordSize payload.length ≤ size) :
    storeElement build platform (ramTlv size mfgHeaderSize) tag payload ram =
      .done (ram.blit (ramSlot ram size) (record tag payload)) := by
  obtain ⟨ram', hwrite, hv⟩ := tlvWrite_fits (ramTlv_faultFree size mfgHeaderSize)
    (ramTlv_noWrap hsize) ram tag payload hfits hlen
  have hv : ram' = ram.blit (ramSlot ram size) (record tag payload) := hv
  simp only [storeElement, hkey, hwrite, hv, ne_eq, not_true_eq_false, if_false]

/-- What every copied element preserves, the copying of all of them preserves. -/
theorem copyAll_preserves {P : Mem → Prop} {ramCtx : TlvCtx Mem} {elements : List Element}
    {ram ram' : Mem}
    (step : ∀ element ∈ elements, ∀ ram ram', element.2.length ≤ build.maxElementSize →
      storeElement build platform ramCtx element.1 element.2 ram = .done ram' → P ram → P ram')
    (h : copyAll build platform ramCtx elements ram = .done ram') (hP : P ram) : P ram' := by
  induction elements generalizing ram with
  | nil =>
    cases h
    exact hP
  | cons element rest ih =>
    obtain ⟨tag, payload⟩ := element
    rw [List.forall_mem_cons] at step
    simp only [copyAll] at h
    split at h
    · cases h
    · next hmax =>
      split at h
      · cases h
      · next ram₁ hstore =>
        exact ih step.2 h (step.1 ram ram₁ (Nat.not_lt.mp hmax) hstore hP)

/-- A write that goes to the free slot leaves the header of the copy alone. -/
theorem header_of_blit {ram : Mem} {bs : List UInt8} (hroom : ramSlot ram size < size)
    (h : ram.slice 0 mfgHeaderSize = mfgHeader) :
    (ram.blit (ramSlot ram size) bs).slice 0 mfgHeaderSize = mfgHeader := by
  have hslot : mfgHeaderSize ≤ ramSlot ram size := le_freeSlot hroom
  rw [← h]
  exact (ram.agree_blit_below bs hslot).slice (Nat.le_refl 0) (by omega)

theorem recordSize_pos (n : Nat) : 0 < recordSize n :=
  Nat.lt_of_lt_of_le (by decide) (Nat.le_add_right headerSize _)

theorem copyAll_header (hsize : size + 65544 ≤ 2 ^ 32) {elements : List Element}
    (hlen : ∀ element ∈ elements, element.2.length < 65536) {ram ram' : Mem}
    (h : copyAll build platform (ramTlv size mfgHeaderSize) elements ram = .done ram')
    (hram : ram.slice 0 mfgHeaderSize = mfgHeader) :
    ram'.slice 0 mfgHeaderSize = mfgHeader := by
  refine copyAll_preserves (P := fun ram => ram.slice 0 mfgHeaderSize = mfgHeader) ?_ h hram
  intro element hmem ram ram' _ hstore hram
  rcases storeElement_cases hsize (hlen element hmem) hstore with ⟨-, rfl⟩ | ⟨-, hfits, rfl⟩
  · exact hram
  · have hpos := recordSize_pos element.2.length
    exact header_of_blit (by omega) hram

theorem length_rawElements {m : Mem} {endOffset o : Nat} :
    ∀ element ∈ rawElements m endOffset o, element.2.length < 65536 := by
  intro element hmem
  obtain ⟨p, -, rfl⟩ := List.mem_map.mp hmem
  simp only [elementAt, Mem.length_slice]
  exact sizeAt_lt m p

end Copy

/-! ## The whole migration -/

/-- The RAM copy before the first element. -/
def freshCopy (platform : Platform) (size : Nat) : Mem :=
  (platform.heap.fill 0 size 0xFF).blit 0 mfgHeader

theorem freshCopy_header (platform : Platform) (size : Nat) :
    (freshCopy platform size).slice 0 mfgHeaderSize = mfgHeader :=
  Mem.slice_blit _ 0 mfgHeader

theorem freshCopy_blank (platform : Platform) {size a : Nat} (h₁ : mfgHeaderSize ≤ a)
    (h₂ : a < size) : freshCopy platform size a = 0xFF := by
  rw [freshCopy, Mem.blit_above (by rw [Nat.zero_add]; exact h₁), Mem.fill_inside (Nat.zero_le a) (by omega)]

/-- The partition holds the RAM copy. -/
def Holding (m : Mem) (startOffset size : Nat) (ram : Mem) : Prop :=
  ∀ a, a < size → m (startOffset + a) = ram a

section Migrate

variable {build : Build} {platform : Platform} {tlv : TlvCtx σ} {view : σ → Mem}

theorem holding_blit (m : Mem) (startOffset size : Nat) (ram : Mem) :
    Holding (m.blit startOffset (ram.slice 0 size)) startOffset size ram := by
  intro a ha
  rw [Mem.blit_inside (by simpa using ha), List.getElem_eq_iff, Mem.getElem?_slice, if_pos ha,
    Nat.zero_add]

/-- What follows the loop of a parser, where the flags record fits the RAM copy. -/
theorem storeCopy_fits (build : Build) (hs : FlashFaultFree tlv.storageImpl view)
    (hmarker : tlv.tlvStorageStartMarkerSize = mfgHeaderSize)
    (hend : tlv.endOffset + 65544 ≤ 2 ^ 32) (ram : Mem) (s : σ)
    (hfits : ramSlot ram (tlv.endOffset - tlv.startOffset) + recordSize mfgFlagsSize ≤
      tlv.endOffset - tlv.startOffset) :
    ∃ s', storeCopy build tlv ram s = (.ret 0, s') ∧
      Holding (view s') tlv.startOffset (tlv.endOffset - tlv.startOffset)
        (ram.blit (ramSlot ram (tlv.endOffset - tlv.startOffset))
          (record mfgFlagsTypeId build.migratedFlags.toBytes)) := by
  obtain ⟨ram', hwrite, hv⟩ := tlvWrite_fits (ramTlv_faultFree _ mfgHeaderSize)
    (ramTlv_noWrap (by omega)) ram mfgFlagsTypeId build.migratedFlags.toBytes hfits
    (show mfgFlagsSize ≤ 65532 by decide)
  have hv : ram' = ram.blit (ramSlot ram (tlv.endOffset - tlv.startOffset))
    (record mfgFlagsTypeId build.migratedFlags.toBytes) := hv
  obtain ⟨erase, herase, her⟩ := hs.erase
  obtain ⟨write, hwr, hw⟩ := hs.write
  obtain ⟨s₁, hs₁, -⟩ := her s tlv.startOffset (tlv.endOffset - tlv.startOffset)
  obtain ⟨s₂, hs₂, hv₂⟩ := hw s₁ tlv.startOffset
    (ram'.slice 0 (tlv.endOffset - tlv.startOffset))
  refine ⟨s₂, ?_, ?_⟩
  · simp only [storeCopy, hmarker, hwrite, herase, hwr, hs₁, hs₂, ne_eq, not_true_eq_false,
      if_false]
  · rw [hv₂, ← hv]
    exact holding_blit _ _ _ _

/-- What follows the loop of a parser that returns `0`. -/
theorem storeCopy_ret_zero (hmarker : tlv.tlvStorageStartMarkerSize = mfgHeaderSize)
    (hend : tlv.endOffset + 65544 ≤ 2 ^ 32) {ram : Mem} {s s' : σ}
    (h : storeCopy build tlv ram s = (.ret 0, s')) :
    ramSlot ram (tlv.endOffset - tlv.startOffset) + recordSize mfgFlagsSize ≤
      tlv.endOffset - tlv.startOffset := by
  by_contra hfull
  obtain ⟨ram', hwrite, -⟩ := tlvWrite_full
    (ramTlv_faultFree (tlv.endOffset - tlv.startOffset) mfgHeaderSize)
    (ramTlv_noWrap (by omega)) ram mfgFlagsTypeId build.migratedFlags.toBytes
    (by
      change tlv.endOffset - tlv.startOffset + recordSize mfgFlagsSize < 2 ^ 32
      have hrec : recordSize mfgFlagsSize = 8 := rfl
      omega)
    (Nat.not_le.mp hfull)
  simp only [storeCopy, hmarker, hwrite] at h
  rw [if_pos (by decide)] at h
  cases h

theorem storeElement_ne_zero {ramCtx : TlvCtx Mem} {tag : UInt16} {payload : List UInt8}
    {ram : Mem} : storeElement build platform ramCtx tag payload ram ≠ .exit (.ret 0) := by
  unfold storeElement
  intro h
  split at h
  · split at h
    · cases h
    · cases h
  · split at h
    · cases h
    · split at h
      · cases h
      · cases h

theorem copyAll_ne_zero {ramCtx : TlvCtx Mem} {elements : List Element} {ram : Mem} :
    copyAll build platform ramCtx elements ram ≠ .exit (.ret 0) := by
  induction elements generalizing ram with
  | nil => exact fun h => by cases h
  | cons element rest ih =>
    intro h
    simp only [copyAll] at h
    split at h
    · cases h
    · split at h
      · next outcome hstore =>
        cases h
        exact storeElement_ne_zero hstore
      · exact ih h

theorem constOffsetsLoop_ne_zero {read : σ → Nat → Nat → Int × List UInt8 × σ}
    {ramCtx : TlvCtx Mem} {startOffset : Nat} {table : List ConstElement} {ram : Mem} {s s' : σ} :
    constOffsetsLoop build platform startOffset read ramCtx table ram s ≠
      (.exit (.ret 0), s') := by
  induction table generalizing ram s with
  | nil => exact fun h => by cases h
  | cons element rest ih =>
    intro h
    simp only [constOffsetsLoop] at h
    split at h
    · cases h
    · split at h
      · cases h
      · split at h
        · exact ih h
        · split at h
          · next outcome hstore =>
            cases h
            exact storeElement_ne_zero hstore
          · exact ih h

/-- Either parser returns `0` only from behind its loop. -/
theorem migrate_ret_zero {copyElements : TlvCtx Mem → Mem → σ → CopyEnd × σ}
    (hmarker : tlv.tlvStorageStartMarkerSize = mfgHeaderSize)
    (hne : ∀ ramCtx ram s s', copyElements ramCtx ram s ≠ (.exit (.ret 0), s')) {s s' : σ}
    (h : migrate build platform copyElements tlv s = (.ret 0, s')) :
    tlv.startOffset < tlv.endOffset ∧ ∃ ram s₁,
      copyElements (ramTlv (tlv.endOffset - tlv.startOffset) mfgHeaderSize)
        (freshCopy platform (tlv.endOffset - tlv.startOffset)) s = (.done ram, s₁) ∧
      storeCopy build tlv ram s₁ = (.ret 0, s') := by
  have hcopy : tlvWriteStartMarker (ramTlv (tlv.endOffset - tlv.startOffset) mfgHeaderSize)
      (platform.heap.fill 0 (tlv.endOffset - tlv.startOffset) 0xFF) mfgHeader =
      (0, freshCopy platform (tlv.endOffset - tlv.startOffset)) := rfl
  simp only [migrate, hmarker, hcopy] at h
  split at h
  · cases h
  · next hlt =>
    split at h
    · cases h
    · simp only [ne_eq, not_true_eq_false, if_false] at h
      refine ⟨Nat.not_le.mp hlt, ?_⟩
      split at h
      · next outcome s₁ hloop =>
        cases h
        exact absurd hloop (hne _ _ _ _)
      · next ram s₁ hloop => exact ⟨ram, s₁, hloop, h⟩

/-- A raw image that `parse_mfg_raw_tlv` migrates: its elements and then the flags record were
copied, and the partition holds the copy. -/
theorem parseMfgRawTlv_ret_zero (hs : FlashFaultFree tlv.storageImpl view)
    (hmarker : tlv.tlvStorageStartMarkerSize = mfgHeaderSize)
    (hend : tlv.endOffset + 65544 ≤ 2 ^ 32) {s s' : σ}
    (h : parseMfgRawTlv build platform tlv s = (.ret 0, s')) :
    tlv.startOffset < tlv.endOffset ∧ ∃ ram,
      copyAll build platform (ramTlv (tlv.endOffset - tlv.startOffset) mfgHeaderSize)
        (rawElements (view s) tlv.endOffset tlv.firstOffset)
        (freshCopy platform (tlv.endOffset - tlv.startOffset)) = .done ram ∧
      ramSlot ram (tlv.endOffset - tlv.startOffset) + recordSize mfgFlagsSize ≤
        tlv.endOffset - tlv.startOffset ∧
      Holding (view s') tlv.startOffset (tlv.endOffset - tlv.startOffset)
        (ram.blit (ramSlot ram (tlv.endOffset - tlv.startOffset))
          (record mfgFlagsTypeId build.migratedFlags.toBytes)) := by
  obtain ⟨read, himpl, hread⟩ := hs.read
  have hloop : ∀ ramCtx ram s, ∃ s',
      rawTlvLoop build platform tlv.endOffset read ramCtx loopFuel tlv.firstOffset ram s =
        (copyAll build platform ramCtx (rawElements (view s) tlv.endOffset tlv.firstOffset) ram,
          s') ∧ view s' = view s := fun ramCtx ram s =>
    rawTlvLoop_eq hread hend (by unfold loopFuel; omega) (by decide) rfl
  unfold parseMfgRawTlv at h
  simp only [himpl] at h
  obtain ⟨hlt, ram, s₁, hcopy, hstore⟩ := migrate_ret_zero hmarker
    (fun ramCtx ram s s' hzero => by
      obtain ⟨s₁, hs₁, -⟩ := hloop ramCtx ram s
      rw [hs₁] at hzero
      exact copyAll_ne_zero (Prod.mk.inj hzero).1) h
  obtain ⟨s₂, hs₂, -⟩ := hloop (ramTlv (tlv.endOffset - tlv.startOffset) mfgHeaderSize)
    (freshCopy platform (tlv.endOffset - tlv.startOffset)) s
  rw [hs₂] at hcopy
  have hfits := storeCopy_ret_zero hmarker hend hstore
  obtain ⟨s₃, hs₃, hholding⟩ := storeCopy_fits build hs hmarker hend ram s₁ hfits
  rw [hstore] at hs₃
  cases hs₃
  exact ⟨hlt, ram, (Prod.mk.inj hcopy).1, hfits, hholding⟩

/-- The same for an image with constant offsets. -/
theorem parseMfgConstOffsets_ret_zero (hs : FlashFaultFree tlv.storageImpl view)
    (hmarker : tlv.tlvStorageStartMarkerSize = mfgHeaderSize)
    (hend : tlv.endOffset + 65544 ≤ 2 ^ 32) {s s' : σ}
    (h : parseMfgConstOffsets build platform tlv s = (.ret 0, s')) :
    tlv.startOffset < tlv.endOffset ∧ ∃ ram,
      copyAll build platform (ramTlv (tlv.endOffset - tlv.startOffset) mfgHeaderSize)
        (constElements (view s) tlv.startOffset build.valueToOffsetTable)
        (freshCopy platform (tlv.endOffset - tlv.startOffset)) = .done ram ∧
      ramSlot ram (tlv.endOffset - tlv.startOffset) + recordSize mfgFlagsSize ≤
        tlv.endOffset - tlv.startOffset ∧
      Holding (view s') tlv.startOffset (tlv.endOffset - tlv.startOffset)
        (ram.blit (ramSlot ram (tlv.endOffset - tlv.startOffset))
          (record mfgFlagsTypeId build.migratedFlags.toBytes)) := by
  obtain ⟨read, himpl, hread⟩ := hs.read
  unfold parseMfgConstOffsets at h
  simp only [himpl] at h
  obtain ⟨hlt, ram, s₁, hloop, hstore⟩ := migrate_ret_zero hmarker
    (fun _ _ _ _ => constOffsetsLoop_ne_zero) h
  have hfits := storeCopy_ret_zero hmarker hend hstore
  obtain ⟨s₃, hs₃, hholding⟩ := storeCopy_fits build hs hmarker hend ram s₁ hfits
  rw [hstore] at hs₃
  cases hs₃
  exact ⟨hlt, ram, (copyAll_of_constOffsetsLoop hread rfl hloop).1, hfits, hholding⟩

/-- A raw image is migrated when its elements and then the flags record fit the copy. -/
theorem parseMfgRawTlv_fits (hs : FlashFaultFree tlv.storageImpl view)
    (hmarker : tlv.tlvStorageStartMarkerSize = mfgHeaderSize)
    (hend : tlv.endOffset + 65544 ≤ 2 ^ 32) (hlt : tlv.startOffset < tlv.endOffset)
    (halloc : platform.malloc (tlv.endOffset - tlv.startOffset) = true) {s : σ} {ram : Mem}
    (hcopy : copyAll build platform (ramTlv (tlv.endOffset - tlv.startOffset) mfgHeaderSize)
      (rawElements (view s) tlv.endOffset tlv.firstOffset)
      (freshCopy platform (tlv.endOffset - tlv.startOffset)) = .done ram)
    (hfits : ramSlot ram (tlv.endOffset - tlv.startOffset) + recordSize mfgFlagsSize ≤
      tlv.endOffset - tlv.startOffset) :
    ∃ s', parseMfgRawTlv build platform tlv s = (.ret 0, s') ∧
      Holding (view s') tlv.startOffset (tlv.endOffset - tlv.startOffset)
        (ram.blit (ramSlot ram (tlv.endOffset - tlv.startOffset))
          (record mfgFlagsTypeId build.migratedFlags.toBytes)) := by
  obtain ⟨read, himpl, hread⟩ := hs.read
  obtain ⟨s₁, hs₁, -⟩ : ∃ s', rawTlvLoop build platform tlv.endOffset read
      (ramTlv (tlv.endOffset - tlv.startOffset) mfgHeaderSize) loopFuel tlv.firstOffset
      (freshCopy platform (tlv.endOffset - tlv.startOffset)) s = (_, s') ∧ view s' = view s :=
    rawTlvLoop_eq hread hend (by unfold loopFuel; omega) (by decide) rfl
  obtain ⟨s₂, hs₂, hholding⟩ := storeCopy_fits build hs hmarker hend ram s₁ hfits
  refine ⟨s₂, ?_, hholding⟩
  have hfresh : tlvWriteStartMarker (ramTlv (tlv.endOffset - tlv.startOffset) mfgHeaderSize)
      (platform.heap.fill 0 (tlv.endOffset - tlv.startOffset) 0xFF) mfgHeader =
      (0, freshCopy platform (tlv.endOffset - tlv.startOffset)) := rfl
  have hsome : ¬tlv.endOffset ≤ tlv.startOffset := Nat.not_le.mpr hlt
  unfold parseMfgRawTlv
  simp only [himpl, migrate, hsome, if_false, halloc, Bool.true_eq_false, hmarker, hfresh, ne_eq,
    not_true_eq_false, hs₁, hcopy]
  exact hs₂

/-- An image with constant offsets is migrated when the buffer holds its elements and these and
then the flags record fit the copy. -/
theorem parseMfgConstOffsets_fits (hs : FlashFaultFree tlv.storageImpl view)
    (hmarker : tlv.tlvStorageStartMarkerSize = mfgHeaderSize)
    (hend : tlv.endOffset + 65544 ≤ 2 ^ 32) (hlt : tlv.startOffset < tlv.endOffset)
    (halloc : platform.malloc (tlv.endOffset - tlv.startOffset) = true)
    (hmax : ∀ element ∈ build.valueToOffsetTable, element.size ≤ build.maxElementSize) {s : σ}
    {ram : Mem}
    (hcopy : copyAll build platform (ramTlv (tlv.endOffset - tlv.startOffset) mfgHeaderSize)
      (constElements (view s) tlv.startOffset build.valueToOffsetTable)
      (freshCopy platform (tlv.endOffset - tlv.startOffset)) = .done ram)
    (hfits : ramSlot ram (tlv.endOffset - tlv.startOffset) + recordSize mfgFlagsSize ≤
      tlv.endOffset - tlv.startOffset) :
    ∃ s', parseMfgConstOffsets build platform tlv s = (.ret 0, s') ∧
      Holding (view s') tlv.startOffset (tlv.endOffset - tlv.startOffset)
        (ram.blit (ramSlot ram (tlv.endOffset - tlv.startOffset))
          (record mfgFlagsTypeId build.migratedFlags.toBytes)) := by
  obtain ⟨read, himpl, hread⟩ := hs.read
  obtain ⟨s₁, hs₁⟩ := @constOffsetsLoop_eq _ build platform
    (ramTlv (tlv.endOffset - tlv.startOffset) mfgHeaderSize) read view (view s) hread
    tlv.startOffset build.valueToOffsetTable hmax
    (freshCopy platform (tlv.endOffset - tlv.startOffset)) s rfl
  obtain ⟨s₂, hs₂, hholding⟩ := storeCopy_fits build hs hmarker hend ram s₁ hfits
  refine ⟨s₂, ?_, hholding⟩
  have hfresh : tlvWriteStartMarker (ramTlv (tlv.endOffset - tlv.startOffset) mfgHeaderSize)
      (platform.heap.fill 0 (tlv.endOffset - tlv.startOffset) 0xFF) mfgHeader =
      (0, freshCopy platform (tlv.endOffset - tlv.startOffset)) := rfl
  have hsome : ¬tlv.endOffset ≤ tlv.startOffset := Nat.not_le.mpr hlt
  unfold parseMfgConstOffsets
  simp only [himpl, migrate, hsome, if_false, halloc, Bool.true_eq_false, hmarker, hfresh, ne_eq,
    not_true_eq_false, hs₁, hcopy]
  exact hs₂

end Migrate

/-! ## Reading the migrated partition -/

section Read

variable {tlv : TlvCtx σ} {view : σ → Mem} {ram : Mem}

/-- Reads of a partition that holds a copy answer as reads of the copy do. -/
theorem tlvRead_holding (hs : FaultFree tlv.storageImpl view)
    (hmarker : tlv.tlvStorageStartMarkerSize = mfgHeaderSize)
    (hend : tlv.endOffset + 65544 ≤ 2 ^ 32) (hlt : tlv.startOffset < tlv.endOffset) {s : σ}
    (h : Holding (view s) tlv.startOffset (tlv.endOffset - tlv.startOffset) ram) (type : UInt16)
    (n : Nat) :
    ∃ s', tlvRead tlv s type n =
      (some (readResult ram (tlv.endOffset - tlv.startOffset) n
        (findType ram (tlv.endOffset - tlv.startOffset) type mfgHeaderSize)), s') ∧
      view s' = view s := by
  have hw : NoWrap tlv := ⟨by rw [hmarker]; unfold mfgHeaderSize; omega, by omega⟩
  obtain ⟨s', hs', hv⟩ := tlvRead_eq hs hw s type n
  refine ⟨s', ?_, hv⟩
  obtain ⟨size, hsize⟩ := Nat.exists_eq_add_of_lt hlt
  have hcopy : tlv.endOffset - tlv.startOffset = size + 1 := by omega
  have hfirst : tlv.firstOffset = tlv.startOffset + mfgHeaderSize := by
    rw [hw.firstOffset_eq, hmarker]
  rw [hcopy] at h ⊢
  have hfind : findType (view s) tlv.endOffset type tlv.firstOffset =
      (findType ram (size + 1) type mfgHeaderSize).map (tlv.startOffset + ·) := by
    rw [hfirst, hsize, Nat.add_assoc]
    exact findType_shift fun a _ ha => h a ha
  rw [hs', hfind]
  cases hf : findType ram (size + 1) type mfgHeaderSize with
  | none => rfl
  | some p =>
    have hp := (findType_some hf).1
    have hhead : headerAt (view s) (tlv.startOffset + p) = headerAt ram p :=
      headerAt_eq (Mem.slice_congr fun i hi => by rw [Nat.add_assoc]; exact h (p + i) (by omega))
    simp only [Option.map_some, readResult, hhead]
    by_cases hspan : n ≤ (headerAt ram p).span
    · simp only [hspan, if_true]
      by_cases hout : size + 1 < p + headerSize + n
      · rw [if_pos hout, if_pos (by omega)]
      · rw [if_neg hout, if_neg (by omega)]
        have hdata : (view s).slice (tlv.startOffset + p + headerSize) n =
            ram.slice (p + headerSize) n := by
          refine Mem.slice_congr fun i hi => ?_
          rw [Nat.add_assoc, Nat.add_assoc, ← Nat.add_assoc p]
          exact h _ (by omega)
        rw [hdata]
    · simp only [hspan, if_false]

end Read

end Sidewalk.Mfg
