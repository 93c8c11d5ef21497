import Sidewalk.Mfg.Image
import Sidewalk.Tlv.Store

/-!
# The RAM copy as a log

Copied one behind the other, the elements of an image are a log of entries in RAM: the copy holds
the elements that were not imported, except that an empty one stands behind the log only until the
next write hides it (`Filling`). The flags record hides the last one, and what is then read under a
tag is the first entry of the log with that tag (`readResult_stored`, `stored_of_readResult`).
-/

namespace Sidewalk.Mfg

open Sidewalk.Lib Sidewalk.Tlv

variable {σ : Type}

/-! ## Entries of a list of elements -/

/-- The entry an element becomes, if it is copied and not empty. -/
def Build.copied (build : Build) (element : Element) : Option Entry :=
  if h : build.keyIdOf element.1 = none ∧ element.1 ≠ emptyType ∧ 0 < element.2.length ∧
      element.2.length < 256 then
    some ⟨element.1, element.2, h.2.1, h.2.2.1, h.2.2.2⟩
  else none

/-- The flags record. -/
def flagsEntry (build : Build) : Entry where
  type := mfgFlagsTypeId
  data := build.migratedFlags.toBytes
  type_ne := by decide
  pos := Nat.succ_pos 3
  short := show 4 < 256 by decide

theorem keyIdOf_of_not_psa {build : Build} (hkeys : build.psaKeyStorage = false) (tag : UInt16) :
    build.keyIdOf tag = none := by
  simp only [Build.keyIdOf, hkeys, Bool.false_eq_true, if_false]

theorem copied_call {build : Build} (hkeys : build.psaKeyStorage = false) (e : Entry) :
    build.copied e.call = some e := by
  unfold Build.copied
  rw [dif_pos ⟨keyIdOf_of_not_psa hkeys _, e.type_ne, e.pos, e.short⟩]
  rfl

theorem filterMap_copied_call {build : Build} (hkeys : build.psaKeyStorage = false)
    (es : List Entry) : (es.map Entry.call).filterMap build.copied = es := by
  rw [List.filterMap_map]
  exact (List.filterMap_congr fun e _ => copied_call hkeys e).trans List.filterMap_some

theorem call_of_copied {build : Build} {element : Element} {e : Entry}
    (h : build.copied element = some e) : e.call = element := by
  unfold Build.copied at h
  split at h
  · cases h
    rfl
  · cases h

theorem usedBy_append (es es' : List Entry) : usedBy (es ++ es') = usedBy es + usedBy es' := by
  simp only [usedBy, List.map_append, List.sum_append]

/-! ## Elements of a raw image -/

theorem tag_rawElements {m : Mem} {endOffset o : Nat} :
    ∀ element ∈ rawElements m endOffset o, element.1 ≠ emptyType := by
  induction o using (rawHops m endOffset).induct with
  | stop o hn =>
    rw [rawElements, Hops.stops_of_none hn]
    exact fun _ h => absurd h List.not_mem_nil
  | hop o o' hn ih =>
    rw [rawElements, Hops.stops_of_some hn, List.map_cons, List.forall_mem_cons]
    refine ⟨fun htag => ?_, ih⟩
    rw [rawHops_none.mpr (.inr htag)] at hn
    cases hn

theorem copyAll_max {build : Build} {platform : Platform} {ramCtx : TlvCtx Mem}
    {elements : List Element} {ram ram' : Mem}
    (h : copyAll build platform ramCtx elements ram = .done ram') :
    ∀ element ∈ elements, element.2.length ≤ build.maxElementSize := by
  induction elements generalizing ram with
  | nil => exact fun _ h => absurd h List.not_mem_nil
  | cons element rest ih =>
    simp only [copyAll] at h
    split at h
    · cases h
    · next hmax =>
      split at h
      · cases h
      · exact List.forall_mem_cons.mpr ⟨Nat.not_lt.mp hmax, ih h⟩

/-! ## Filling the copy -/

/-- The copy holds the entries, with at most one empty record behind them. -/
def Filling (size : Nat) (ram : Mem) (es : List Entry) : Prop :=
  ∃ stored, Stored stored size mfgHeaderSize es ∧
    (es = [] ∨ mfgHeaderSize + usedBy es ≤ size) ∧
    (ram = stored ∨ ∃ tag, mfgHeaderSize + usedBy es + headerSize ≤ size ∧
      ram = stored.blit (mfgHeaderSize + usedBy es) (record tag []))

section Filling

variable {size : Nat} {ram : Mem} {es : List Entry}

theorem filling_of_stored (h : Stored ram size mfgHeaderSize es)
    (hroom : es = [] ∨ mfgHeaderSize + usedBy es ≤ size) : Filling size ram es :=
  ⟨ram, h, hroom, .inl rfl⟩

/-- The free slot of the copy is behind the entries, where a record without data may stand. -/
theorem Filling.freeSlot_eq (h : Filling size ram es)
    (hroom : mfgHeaderSize + usedBy es + headerSize ≤ size) :
    ramSlot ram size = mfgHeaderSize + usedBy es := by
  obtain ⟨stored, hstored, -, rfl | ⟨tag, hin, rfl⟩⟩ := h
  · exact hstored.freeSlot (by omega)
  · have hpath := free_path_congr (hstored.path (by omega))
      (stored.agree_before_blit mfgHeaderSize (mfgHeaderSize + usedBy es) (record tag []))
    rw [ramSlot, freeSlot_path hpath]
    refine freeSlot_free (by omega) ?_
    rw [(holds_blit _ _ tag []).headerAt, isFree_makeHeader tag (by decide)]
    exact .inr rfl

/-- What is written at the free slot of the copy stands behind the entries. -/
theorem Filling.slot (h : Filling size ram es) (tag : UInt16) (data : List UInt8)
    (hfits : ramSlot ram size + recordSize data.length ≤ size) :
    ∃ stored, Stored stored size mfgHeaderSize es ∧
      mfgHeaderSize + usedBy es + recordSize data.length ≤ size ∧
      ram.blit (ramSlot ram size) (record tag data) =
        stored.blit (mfgHeaderSize + usedBy es) (record tag data) := by
  have hrec : headerSize ≤ recordSize data.length := Nat.le_add_right _ _
  have hslot := h.freeSlot_eq
  obtain ⟨stored, hstored, hroom, rfl | ⟨tag', hin, rfl⟩⟩ := h
  · have hbehind := (hstored.fits_iff hrec hroom).mp hfits
    refine ⟨ram, hstored, hbehind, ?_⟩
    rw [hslot (by omega)]
  · rw [hslot hin] at hfits ⊢
    refine ⟨stored, hstored, hfits, Mem.blit_blit _ _ ?_⟩
    rw [length_record, length_record]
    exact hrec

/-- An entry that fits the free slot joins the log. -/
theorem Filling.append (h : Filling size ram es) (e : Entry)
    (hfits : ramSlot ram size + e.size ≤ size) :
    Stored (ram.blit (ramSlot ram size) e.bytes) size mfgHeaderSize (es ++ [e]) ∧
      mfgHeaderSize + usedBy (es ++ [e]) ≤ size := by
  obtain ⟨stored, hstored, hin, hram⟩ := h.slot e.type e.data hfits
  rw [usedBy_append, usedBy_cons, usedBy_nil]
  refine ⟨?_, by unfold Entry.size; omega⟩
  unfold Entry.bytes
  rw [hram]
  exact hstored.append e

variable {build : Build} {platform : Platform}

/-- Copying one element extends the log by its entry, if it has one. -/
theorem Filling.storeElement (hsize : size + 65544 ≤ 2 ^ 32) (h : Filling size ram es)
    {tag : UInt16} {payload : List UInt8} (htag : tag ≠ emptyType) (hlen : payload.length < 256)
    {ram' : Mem}
    (hstore : storeElement build platform (ramTlv size mfgHeaderSize) tag payload ram = .done ram') :
    Filling size ram' (es ++ (build.copied (tag, payload)).toList) := by
  rcases storeElement_cases hsize (by omega) hstore with ⟨hkey, rfl⟩ | ⟨hkey, hfits, rfl⟩
  · have hnone : build.copied (tag, payload) = none :=
      dif_neg fun hc => by rw [hc.1] at hkey; cases hkey
    rw [hnone, Option.toList_none, List.append_nil]
    exact h
  · by_cases hpos : 0 < payload.length
    · have hsome : build.copied (tag, payload) = some ⟨tag, payload, htag, hpos, hlen⟩ :=
        dif_pos ⟨hkey, htag, hpos, hlen⟩
      rw [hsome, Option.toList_some]
      have happend := h.append ⟨tag, payload, htag, hpos, hlen⟩ hfits
      exact filling_of_stored happend.1 (.inr happend.2)
    · have hnone : build.copied (tag, payload) = none := dif_neg fun hc => hpos hc.2.2.1
      obtain rfl : payload = [] := List.eq_nil_of_length_eq_zero (by omega)
      obtain ⟨stored, hstored, hin, hram⟩ := h.slot tag [] hfits
      rw [hnone, Option.toList_none, List.append_nil, hram]
      exact ⟨stored, hstored, .inr (by omega), .inr ⟨tag, hin, rfl⟩⟩

/-- Copying all elements extends the log by their entries. -/
theorem Filling.copyAll (hsize : size + 65544 ≤ 2 ^ 32) {elements : List Element}
    (htags : ∀ element ∈ elements, element.1 ≠ emptyType)
    (hshort : ∀ element ∈ elements, element.2.length < 256) {ram' : Mem}
    (h : Filling size ram es)
    (hcopy : copyAll build platform (ramTlv size mfgHeaderSize) elements ram = .done ram') :
    Filling size ram' (es ++ elements.filterMap build.copied) := by
  induction elements generalizing ram es with
  | nil =>
    cases hcopy
    rw [List.filterMap_nil, List.append_nil]
    exact h
  | cons element rest ih =>
    obtain ⟨tag, payload⟩ := element
    rw [List.forall_mem_cons] at htags hshort
    simp only [Mfg.copyAll] at hcopy
    split at hcopy
    · cases hcopy
    · split at hcopy
      · cases hcopy
      · next ram₁ hstore =>
        have hstep := ih htags.2 hshort.2 (h.storeElement hsize htags.1 hshort.1 hstore) hcopy
        rw [List.append_assoc] at hstep
        rw [List.filterMap_cons]
        cases hcopied : build.copied (tag, payload) with
        | none => rwa [hcopied] at hstep
        | some e => rwa [hcopied] at hstep

/-- Entries that fit behind the stored ones are copied. -/
theorem copyAll_stored (hsize : size + 65544 ≤ 2 ^ 32) (hkeys : build.psaKeyStorage = false)
    {new : List Entry} (hmax : ∀ e ∈ new, e.data.length ≤ build.maxElementSize)
    (h : Stored ram size mfgHeaderSize es)
    (hroom : mfgHeaderSize + usedBy (es ++ new) ≤ size) :
    ∃ ram', copyAll build platform (ramTlv size mfgHeaderSize) (new.map Entry.call) ram =
        .done ram' ∧ Stored ram' size mfgHeaderSize (es ++ new) := by
  induction new generalizing ram es with
  | nil =>
    rw [List.append_nil]
    exact ⟨ram, rfl, h⟩
  | cons e new ih =>
    rw [List.forall_mem_cons] at hmax
    have hrec := e.eight_le_size
    have hused : usedBy (es ++ e :: new) = usedBy es + (e.size + usedBy new) := by
      rw [usedBy_append, usedBy_cons]
    have hslot : ramSlot ram size = mfgHeaderSize + usedBy es :=
      h.freeSlot (by unfold headerSize; omega)
    have hshort := e.short
    have hstore : storeElement build platform (ramTlv size mfgHeaderSize) e.type e.data ram =
        .done (ram.blit (mfgHeaderSize + usedBy es) e.bytes) := by
      have hfits : ramSlot ram size + recordSize e.data.length ≤ size := by
        unfold Entry.size at hused
        omega
      rw [storeElement_fits hsize (keyIdOf_of_not_psa hkeys e.type) (by omega) hfits, hslot]
      rfl
    obtain ⟨ram', hcopy, hstored⟩ := ih hmax.2 (h.append e)
      (by rw [List.append_assoc]; exact hroom)
    rw [List.append_assoc] at hstored
    refine ⟨ram', ?_, hstored⟩
    simp only [List.map_cons, Entry.call, Mfg.copyAll, Nat.not_lt.mpr hmax.1, if_false, hstore]
    exact hcopy

end Filling

/-! ## Reading the copy -/

section Read

variable {size : Nat} {ram : Mem} {es : List Entry}

/-- Entries of distinct types are all read back. -/
theorem readResult_stored (h : Stored ram size mfgHeaderSize es)
    (hroom : mfgHeaderSize + usedBy es ≤ size) {e : Entry}
    (hfirst : es.find? (·.type = e.type) = some e) :
    readResult ram size e.data.length (findType ram size e.type mfgHeaderSize) = (0, e.data) := by
  have hfind := h.find (.inr hroom) e.type_ne
  rw [hfirst] at hfind
  obtain ⟨p, hp, held, hin⟩ := hfind
  rw [hp, held.readResult e.short hin (Nat.le_refl _), List.take_length]

/-- What is read under a tag is an entry's data, perhaps with its padding. -/
theorem stored_of_readResult (h : Stored ram size mfgHeaderSize es)
    (hroom : mfgHeaderSize + usedBy es ≤ size) {type : UInt16} (htype : type ≠ emptyType) {n : Nat}
    {data : List UInt8}
    (hread : readResult ram size n (findType ram size type mfgHeaderSize) = (0, data)) :
    ∃ e ∈ es, e.type = type ∧ data = (paddedData e.data).take n := by
  have hfind := h.find (.inr hroom) htype
  cases hfirst : es.find? (·.type = type) with
  | none =>
    rw [hfirst] at hfind
    rw [hfind] at hread
    cases hread
  | some e =>
    rw [hfirst] at hfind
    obtain ⟨p, hp, held, -⟩ := hfind
    refine ⟨e, List.mem_of_find?_eq_some hfirst, by simpa using List.find?_some hfirst, ?_⟩
    rw [hp, readResult, held.headerAt, span_makeHeader _ e.short] at hread
    split at hread
    · next hspan =>
      split at hread
      · cases hread
      · cases hread
        rw [← Mem.take_slice ram (p + headerSize) hspan, held.split.2]
    · cases hread

end Read

end Sidewalk.Mfg
