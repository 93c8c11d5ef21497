import Sidewalk.Mfg.RoundTrip

/-!
# Pages with constant offsets

The tool writes a page without TLV records by the words of `config_legacy.yaml`, and
`parse_mfg_const_offsets` reads it by its own table of offsets and sizes. What the migration
stores is what the tool wrote.
-/

namespace Sidewalk.Mfg

open Sidewalk.Lib Sidewalk.Tlv

/-! ## The page -/

/-- A field of `config_legacy.yaml`, with its words. -/
structure LegacyField where
  idVal : Nat
  start : Nat
  stop : Nat
  deriving DecidableEq, Repr

def legacyFields : List LegacyField :=
  [⟨0, 0, 1⟩, ⟨2, 1, 2⟩, ⟨3, 2, 8⟩, ⟨4, 8, 16⟩, ⟨38, 16, 17⟩, ⟨5, 18, 26⟩, ⟨6, 26, 34⟩,
    ⟨7, 34, 42⟩, ⟨8, 42, 58⟩, ⟨9, 58, 66⟩, ⟨10, 66, 82⟩, ⟨11, 82, 98⟩, ⟨12, 98, 106⟩,
    ⟨13, 106, 122⟩, ⟨14, 122, 123⟩, ⟨15, 123, 139⟩, ⟨16, 139, 155⟩, ⟨17, 155, 156⟩,
    ⟨18, 156, 164⟩, ⟨19, 164, 180⟩, ⟨20, 180, 181⟩, ⟨21, 181, 197⟩, ⟨22, 197, 213⟩,
    ⟨23, 213, 214⟩, ⟨24, 214, 222⟩, ⟨25, 222, 238⟩, ⟨26, 238, 239⟩, ⟨27, 239, 255⟩,
    ⟨28, 255, 271⟩, ⟨29, 271, 272⟩, ⟨30, 272, 280⟩, ⟨31, 280, 296⟩, ⟨32, 296, 297⟩,
    ⟨33, 297, 313⟩, ⟨34, 313, 329⟩, ⟨35, 329, 330⟩, ⟨36, 330, 338⟩, ⟨37, 338, 354⟩]

/-- `config_legacy.yaml`. -/
def legacyConfig : MfgConfig where
  tlvEnabled := false
  offsetSize := 4
  versionEnd := 2
  mfgPageSize := 355

/-- The bytes of a field. -/
def LegacyField.byteLen (field : LegacyField) : Nat := (field.stop - field.start) * 4

/-- `SidMfgObj.__init__` for a value of bytes in a field with words. -/
def SidMfgObj.ofBytes (field : LegacyField) (value : List UInt8) : Except String SidMfgObj :=
  let encoded := value ++ List.replicate (field.byteLen - value.length) 0
  if encoded.length ≠ field.byteLen then .error "Field value len mismatch"
  else .ok {
    idVal := field.idVal
    start := field.start * 4
    stop := field.stop * 4
    encoded := encoded }

/-- The bytes of a value in a field, which the tool pads with zeros. -/
def LegacyField.encoded (value : Nat → List UInt8) (field : LegacyField) : List UInt8 :=
  value field.idVal ++ List.replicate (field.byteLen - (value field.idVal).length) 0

/-- The run of the tool that writes a value for every field to a new file. -/
def legacyImage (value : Nat → List UInt8) : Except String SidMfgOutBin := do
  let objs ← legacyFields.mapM fun field => SidMfgObj.ofBytes field (value field.idVal)
  (SidMfgOutBin.enter legacyConfig none).write { mfgObjs := objs, isNetworkOrder := true }

/-- The object of a field. -/
def LegacyField.obj (value : Nat → List UInt8) (field : LegacyField) : SidMfgObj where
  idVal := field.idVal
  start := field.start * 4
  stop := field.stop * 4
  encoded := field.encoded value

theorem ok_bind {α β : Type} (a : α) (f : α → Except String β) : (Except.ok a >>= f) = f a := rfl

theorem mapM_ok {α β : Type} {f : α → Except String β} {g : α → β} {xs : List α}
    (h : ∀ x ∈ xs, f x = .ok (g x)) : xs.mapM f = .ok (xs.map g) := by
  induction xs with
  | nil => rfl
  | cons x xs ih =>
    rw [List.forall_mem_cons] at h
    rw [List.mapM_cons, h.1, ih h.2]
    rfl

/-! ## Writing at fixed positions -/

theorem getElem?_splice {l bytes : List UInt8} {a : Nat} (h : a + bytes.length ≤ l.length)
    (i : Nat) : (l.take a ++ bytes ++ l.drop (a + bytes.length))[i]? =
      if a ≤ i ∧ i < a + bytes.length then bytes[i - a]? else l[i]? := by
  have htake : (l.take a).length = a := by
    rw [List.length_take]
    omega
  by_cases hlow : i < a
  · rw [if_neg (by omega), List.append_assoc, List.getElem?_append_left (by omega),
      List.getElem?_take_of_lt hlow]
  · rw [List.append_assoc, List.getElem?_append_right (by omega), htake]
    by_cases hin : i < a + bytes.length
    · rw [if_pos (by omega), List.getElem?_append_left (by omega)]
    · rw [if_neg (by omega), List.getElem?_append_right (by omega), List.getElem?_drop]
      congr 1
      omega

/-- The bytes of an object stand at its place. -/
def Placed (l : List UInt8) (obj : SidMfgObj) : Prop :=
  ∀ i, i < obj.encoded.length → l[obj.start + i]? = obj.encoded[i]?

/-- Two objects do not share bytes. -/
def Apart (obj obj' : SidMfgObj) : Prop := obj.stop ≤ obj'.start ∨ obj'.stop ≤ obj.start

/-- The object has the bytes of its place, which the page contains. -/
def FitsPage (len : Nat) (obj : SidMfgObj) : Prop :=
  obj.start + obj.encoded.length = obj.stop ∧ obj.stop ≤ len

/-- Objects that are apart are all in their places behind the run. -/
theorem foldlM_fixed {order : Bool} {objs : List SidMfgObj} {bin : SidMfgOutBin}
    (hconfig : bin.config.tlvEnabled = false)
    (hfits : ∀ obj ∈ objs, FitsPage bin.encoded.length obj) (hapart : objs.Pairwise Apart) :
    ∃ bin', objs.foldlM (SidMfgOutBin.writeObj order) (bin, bin.encoded.length) =
        .ok (bin', bin.encoded.length) ∧
      bin'.encoded.length = bin.encoded.length ∧ (∀ obj ∈ objs, Placed bin'.encoded obj) ∧
      ∀ obj, (∀ obj' ∈ objs, Apart obj obj') → FitsPage bin.encoded.length obj →
        Placed bin.encoded obj → Placed bin'.encoded obj := by
  induction objs generalizing bin with
  | nil =>
    refine ⟨bin, rfl, rfl, fun _ h => absurd h List.not_mem_nil, ?_⟩
    exact fun _ _ _ h => h
  | cons obj objs ih =>
    rw [List.forall_mem_cons] at hfits
    obtain ⟨hfirst, hrest⟩ := hfits
    obtain ⟨hthis, hothers⟩ := List.pairwise_cons.mp hapart
    obtain ⟨hlen, hstop⟩ := id hfirst
    have hmax : max obj.start obj.stop = obj.start + obj.encoded.length := by omega
    have hsplice := @getElem?_splice bin.encoded obj.encoded obj.start (by omega)
    have hsame : (bin.encoded.take obj.start ++ obj.encoded ++
        bin.encoded.drop (obj.start + obj.encoded.length)).length = bin.encoded.length := by
      simp only [List.length_append, List.length_take, List.length_drop]
      omega
    have hstep : SidMfgOutBin.writeObj order (bin, bin.encoded.length) obj =
        .ok ({ bin with encoded := bin.encoded.take obj.start ++ obj.encoded ++
          bin.encoded.drop (obj.start + obj.encoded.length) }, bin.encoded.length) := by
      simp only [SidMfgOutBin.writeObj]
      rw [if_neg (by rw [hconfig]; exact fun h => Bool.false_ne_true h.1),
        if_neg (Nat.not_lt.mpr hstop), hmax]
      exact if_neg fun h => h hsame.symm
    obtain ⟨bin', hrun, hlength, hplaced, hkept⟩ := @ih { bin with
      encoded := bin.encoded.take obj.start ++ obj.encoded ++
        bin.encoded.drop (obj.start + obj.encoded.length) } hconfig
      (by rw [hsame]; exact hrest) hothers
    simp only [hsame] at hrun hlength hkept
    refine ⟨bin', ?_, hlength, ?_, ?_⟩
    · rw [List.foldlM_cons, hstep]
      exact hrun
    · rw [List.forall_mem_cons]
      refine ⟨hkept obj hthis hfirst ?_, hplaced⟩
      intro i hi
      rw [hsplice, if_pos (by omega), Nat.add_sub_cancel_left]
    · intro obj' hapart' hfits' hplaced'
      rw [List.forall_mem_cons] at hapart'
      refine hkept obj' hapart'.2 hfits' ?_
      intro i hi
      obtain ⟨hlen', -⟩ := hfits'
      have hout : ¬(obj.start ≤ obj'.start + i ∧
          obj'.start + i < obj.start + obj.encoded.length) := by
        rcases hapart'.1 with h | h
        · omega
        · omega
      rw [hsplice, if_neg hout]
      exact hplaced' i hi

theorem LegacyField.length_encoded {value : Nat → List UInt8} {field : LegacyField}
    (h : (value field.idVal).length ≤ field.byteLen) :
    (field.encoded value).length = field.byteLen := by
  unfold LegacyField.encoded
  rw [List.length_append, List.length_replicate]
  omega

/-- The fields lie behind one another on the page. -/
theorem legacyFields_spec : (∀ field ∈ legacyFields, field.start < field.stop ∧ field.stop ≤ 355) ∧
    legacyFields.Pairwise fun field field' =>
      field.stop ≤ field'.start ∨ field'.stop ≤ field.start := by
  decide

theorem write_of_foldlM {bin bin' : SidMfgOutBin} {page : SidMfg} {len : Nat}
    (h : page.iter.foldlM (SidMfgOutBin.writeObj page.isNetworkOrder) (bin, bin.encoded.length) =
      .ok (bin', len)) : bin.write page = .ok bin' := by
  unfold SidMfgOutBin.write
  rw [h]
  rfl

/-- The tool writes a page on which each field holds its value. -/
theorem legacyImage_eq {value : Nat → List UInt8}
    (hvalue : ∀ field ∈ legacyFields, (value field.idVal).length ≤ field.byteLen) :
    ∃ bin, legacyImage value = .ok bin ∧ bin.encoded.length = 1420 ∧
      ∀ field ∈ legacyFields, Placed bin.encoded (field.obj value) := by
  have hobjs : legacyFields.mapM (fun field => SidMfgObj.ofBytes field (value field.idVal)) =
      .ok (legacyFields.map (LegacyField.obj value)) := by
    refine mapM_ok fun field hfield => ?_
    have hlen : (value field.idVal ++ List.replicate
        (field.byteLen - (value field.idVal).length) 0).length = field.byteLen :=
      LegacyField.length_encoded (hvalue field hfield)
    exact if_neg fun h => h hlen
  obtain ⟨hinside, hbehind⟩ := legacyFields_spec
  generalize hpage : SidMfg.mk (legacyFields.map (LegacyField.obj value)) true = page
  have hperm : page.iter.Perm (legacyFields.map (LegacyField.obj value)) := by
    rw [← hpage]
    exact List.perm_insertionSort _ _
  have hlength : (SidMfgOutBin.enter legacyConfig none).encoded.length = 1420 :=
    List.length_replicate
  have hfits (obj : SidMfgObj) (hobj : obj ∈ legacyFields.map (LegacyField.obj value)) :
      FitsPage 1420 obj := by
    obtain ⟨field, hfield, rfl⟩ := List.mem_map.mp hobj
    obtain ⟨hlt, hle⟩ := hinside field hfield
    have hlen : (field.obj value).encoded.length = (field.stop - field.start) * 4 :=
      LegacyField.length_encoded (hvalue field hfield)
    refine ⟨?_, ?_⟩
    · rw [hlen]
      change field.start * 4 + (field.stop - field.start) * 4 = field.stop * 4
      omega
    · change field.stop * 4 ≤ 1420
      omega
  have hapart : (legacyFields.map (LegacyField.obj value)).Pairwise Apart := by
    refine List.pairwise_map.mpr (hbehind.imp ?_)
    intro field field' h
    exact h.imp (fun h => Nat.mul_le_mul_right 4 h) fun h => Nat.mul_le_mul_right 4 h
  obtain ⟨bin, hrun, hlen, hplaced, -⟩ := @foldlM_fixed page.isNetworkOrder page.iter
    (SidMfgOutBin.enter legacyConfig none) rfl
    (fun obj hobj => hlength ▸ hfits obj (hperm.mem_iff.mp hobj))
    ((hperm.pairwise_iff fun h => h.symm).mpr hapart)
  refine ⟨bin, ?_, hlen.trans hlength, ?_⟩
  · unfold legacyImage
    rw [hobjs, ok_bind, hpage]
    exact write_of_foldlM hrun
  · intro field hfield
    exact hplaced _ (hperm.mem_iff.mpr (List.mem_map_of_mem hfield))

/-! ## The migration -/

/-- What the table shows of the bytes of a field. -/
def shown (value : Nat → List UInt8) (field : LegacyField) (element : ConstElement) :
    List UInt8 := (field.encoded value).take element.size

/-- Each row of the table stands at the words of a field, within them. -/
theorem valueToOffsetTable_spec {build : Build} (hoffsets : build.legacyOffsets = false) :
    ∀ element ∈ build.valueToOffsetTable, 0 < element.size ∧ element.size ≤ maxFlashWriteLen ∧
      element.value.toNat < mfgFlagsTypeId.toNat ∧
      ∃ field ∈ legacyFields, field.idVal = element.value.toNat ∧ field.start = element.offset ∧
        element.size ≤ field.byteLen := by
  have hrows : ∀ row ∈ offsetRows, 0 < row.2.1 ∧ row.2.1 ≤ maxFlashWriteLen ∧
      row.1.toNat < mfgFlagsTypeId.toNat ∧
      ∃ field ∈ legacyFields, field.idVal = row.1.toNat ∧ field.start = row.2.2.1 ∧
        row.2.1 ≤ field.byteLen := by
    decide
  intro element helement
  obtain ⟨⟨value, size, offset, legacy⟩, hrow, rfl⟩ := List.mem_map.mp helement
  simp only [hoffsets, Bool.false_eq_true, if_false]
  exact hrows _ hrow

/-- The bytes of the copy for all elements of the table and the flags. -/
def legacyCopySize : Nat :=
  mfgHeaderSize + (offsetRows.map fun row => recordSize row.2.1).sum + recordSize mfgFlagsSize

/-- The entry that an element of the table becomes, unless it looks erased. -/
def entryOf (data : ConstElement → List UInt8) (element : ConstElement) : Option Entry :=
  if h : element.value ≠ emptyType ∧ 0 < (data element).length ∧ (data element).length < 256 ∧
      data element ≠ List.replicate (data element).length 0xFF then
    some ⟨element.value, data element, h.1, h.2.1, h.2.2.1⟩
  else none

section Entries

variable {table : List ConstElement} {data : ConstElement → List UInt8}

/-- The entry of an element of a size that the table may have. -/
theorem entryOf_spec {element : ConstElement} (hvalue : element.value ≠ emptyType)
    (hpos : 0 < (data element).length) (hshort : (data element).length < 256) :
    (data element = List.replicate (data element).length 0xFF ∧ entryOf data element = none) ∨
      (data element ≠ List.replicate (data element).length 0xFF ∧
        ∃ e, entryOf data element = some e ∧ e.type = element.value ∧ e.data = data element) := by
  by_cases hempty : data element = List.replicate (data element).length 0xFF
  · exact .inl ⟨hempty, dif_neg fun h => h.2.2.2 hempty⟩
  · exact .inr ⟨hempty, _, dif_pos ⟨hvalue, hpos, hshort, hempty⟩, rfl, rfl⟩

theorem entryOf_some {element : ConstElement} {e : Entry} (h : entryOf data element = some e) :
    e.type = element.value ∧ e.data = data element ∧
      data element ≠ List.replicate (data element).length 0xFF := by
  unfold entryOf at h
  split at h
  · next hcond =>
    cases h
    exact ⟨rfl, rfl, hcond.2.2.2⟩
  · cases h

/-- The elements that the loop copies are the calls of the entries. -/
theorem constElements_eq {m : Mem} {startOffset : Nat}
    (htable : ∀ element ∈ table, element.value ≠ emptyType ∧ 0 < element.size ∧
      element.size ≤ maxFlashWriteLen)
    (hdata : ∀ element ∈ table, m.slice (u32 (startOffset + element.offset * wordSize))
      element.size = data element) :
    constElements m startOffset table = (table.filterMap (entryOf data)).map Entry.call := by
  induction table with
  | nil => rfl
  | cons element table ih =>
    rw [List.forall_mem_cons] at htable hdata
    obtain ⟨⟨hvalue, hpos, hmax⟩, htable⟩ := htable
    have hlen : (data element).length = element.size := by
      rw [← hdata.1, Mem.length_slice]
    have hshort : (data element).length < 256 := by
      unfold maxFlashWriteLen at hmax
      omega
    have hrest := ih htable hdata.2
    unfold constElements at hrest ⊢
    rw [List.map_cons, hdata.1]
    rcases entryOf_spec hvalue (hlen ▸ hpos) hshort with ⟨hempty, hnone⟩ | ⟨hfull, e, hsome, he⟩
    · rw [List.filter_cons_of_neg, List.filterMap_cons_none hnone, hrest]
      simp only [decide_eq_true_eq, not_not]
      exact .inr hempty
    · rw [List.filter_cons_of_pos, List.filterMap_cons_some hsome, List.map_cons, hrest]
      · unfold Entry.call
        rw [he.1, he.2]
      · simp only [decide_eq_true_eq, not_or]
        exact ⟨by rw [hlen]; exact Nat.not_lt.mpr hmax, hfull⟩

/-- The entries take no more than all the elements would. -/
theorem usedBy_filterMap_le (hlen : ∀ element ∈ table, (data element).length = element.size) :
    usedBy (table.filterMap (entryOf data)) ≤
      (table.map fun element => recordSize element.size).sum := by
  induction table with
  | nil => exact Nat.le_refl 0
  | cons element table ih =>
    rw [List.forall_mem_cons] at hlen
    have hrest := ih hlen.2
    rw [List.map_cons, List.sum_cons]
    cases hentry : entryOf data element with
    | none =>
      rw [List.filterMap_cons_none hentry]
      omega
    | some e =>
      have hsize : e.size = recordSize element.size := by
        unfold Entry.size
        rw [(entryOf_some hentry).2.1, hlen.1]
      rw [List.filterMap_cons_some hentry, usedBy_cons, hsize]
      omega

/-- The entry of a tag, where the tags are distinct. -/
theorem find_entryOf (hdistinct : (table.map ConstElement.value).Nodup) {element : ConstElement}
    (helement : element ∈ table) :
    (table.filterMap (entryOf data)).find? (·.type = element.value) = entryOf data element := by
  induction table with
  | nil => cases helement
  | cons first table ih =>
    rw [List.map_cons, List.nodup_cons] at hdistinct
    have hskip (hne : first.value ≠ element.value) :
        ((first :: table).filterMap (entryOf data)).find? (·.type = element.value) =
          (table.filterMap (entryOf data)).find? (·.type = element.value) := by
      cases hentry : entryOf data first with
      | none => rw [List.filterMap_cons_none hentry]
      | some e =>
        rw [List.filterMap_cons_some hentry, List.find?_cons_of_neg]
        rw [(entryOf_some hentry).1]
        simpa using hne
    rcases List.mem_cons.mp helement with rfl | hrest
    · cases hentry : entryOf data element with
      | none =>
        rw [List.filterMap_cons_none hentry]
        refine List.find?_eq_none.mpr ?_
        intro e he
        obtain ⟨other, hother, hsome⟩ := List.mem_filterMap.mp he
        rw [(entryOf_some hsome).1]
        have hne : other.value ≠ element.value := fun h =>
          hdistinct.1 (h ▸ List.mem_map_of_mem hother)
        simpa using hne
      | some e =>
        rw [List.filterMap_cons_some hentry, List.find?_cons_of_pos]
        simpa using (entryOf_some hentry).1
    · have hne : first.value ≠ element.value := fun h =>
        hdistinct.1 (h ▸ List.mem_map_of_mem hrest)
      rw [hskip hne, ih hdistinct.2 hrest]

/-- Where the entries are stored, and one of another tag behind them, a read gives the bytes of an
element unless they look erased. -/
theorem readResult_entries {ram : Mem} {size : Nat} {last : Entry}
    (hstored : Stored ram size mfgHeaderSize (table.filterMap (entryOf data) ++ [last]))
    (hroom : mfgHeaderSize + usedBy (table.filterMap (entryOf data) ++ [last]) ≤ size)
    (hdistinct : (table.map ConstElement.value).Nodup) {element : ConstElement}
    (helement : element ∈ table) (hvalue : element.value ≠ emptyType)
    (hlast : last.type ≠ element.value) (hpos : 0 < (data element).length)
    (hshort : (data element).length < 256) :
    readResult ram size (data element).length (findType ram size element.value mfgHeaderSize) =
      if data element = List.replicate (data element).length 0xFF then (-enodata, [])
      else (0, data element) := by
  have hfind : (table.filterMap (entryOf data) ++ [last]).find? (·.type = element.value) =
      entryOf data element := by
    rw [List.find?_append, find_entryOf hdistinct helement,
      List.find?_cons_of_neg (by rw [decide_eq_true_eq]; exact hlast), List.find?_nil,
      Option.or_none]
  rcases entryOf_spec hvalue hpos hshort with ⟨hempty, hnone⟩ | ⟨hfull, e, hsome, htype, hbytes⟩
  · rw [if_pos hempty]
    have hnot := hstored.find (.inr hroom) hvalue
    rw [hfind, hnone] at hnot
    exact congrArg (readResult _ _ _) hnot
  · rw [if_neg hfull]
    rw [hsome, ← htype] at hfind
    have hresult := readResult_stored hstored hroom hfind
    rwa [hbytes, htype] at hresult

end Entries

/-! ## The entries of a page -/

/-- What an element of the table shows of a partition. -/
def pageData (m : Mem) (startOffset : Nat) (element : ConstElement) : List UInt8 :=
  m.slice (u32 (startOffset + element.offset * wordSize)) element.size

theorem length_pageData (m : Mem) (startOffset : Nat) (element : ConstElement) :
    (pageData m startOffset element).length = element.size := Mem.length_slice _ _ _

/-- The entries that a partition is migrated to, without the flags. -/
def Build.pageEntries (build : Build) (m : Mem) (startOffset : Nat) : List Entry :=
  build.valueToOffsetTable.filterMap (entryOf (pageData m startOffset))

theorem value_ne_empty {build : Build} (hoffsets : build.legacyOffsets = false)
    {element : ConstElement} (helement : element ∈ build.valueToOffsetTable) :
    element.value ≠ emptyType := by
  intro h
  have hlt := (valueToOffsetTable_spec hoffsets element helement).2.2.1
  rw [h] at hlt
  exact absurd hlt (by decide)

theorem values_nodup (build : Build) : (build.valueToOffsetTable.map ConstElement.value).Nodup := by
  unfold Build.valueToOffsetTable
  rw [List.map_map]
  change (offsetRows.map fun row => row.1).Nodup
  decide

theorem constElements_page {build : Build} (hoffsets : build.legacyOffsets = false) (m : Mem)
    (startOffset : Nat) : constElements m startOffset build.valueToOffsetTable =
      (build.pageEntries m startOffset).map Entry.call :=
  constElements_eq (fun element helement =>
    have hrow := valueToOffsetTable_spec hoffsets element helement
    ⟨value_ne_empty hoffsets helement, hrow.1, hrow.2.1⟩) fun _ _ => rfl

/-- The entries and the flags fit a copy for all elements. -/
theorem pageEntries_fit (build : Build) (m : Mem) (startOffset : Nat) :
    mfgHeaderSize + usedBy (build.pageEntries m startOffset) + recordSize mfgFlagsSize ≤
      legacyCopySize := by
  have hle : usedBy (build.pageEntries m startOffset) ≤
      (build.valueToOffsetTable.map fun element => recordSize element.size).sum :=
    usedBy_filterMap_le fun element _ => length_pageData m startOffset element
  have hsum : (build.valueToOffsetTable.map fun element => recordSize element.size).sum =
      (offsetRows.map fun row => recordSize row.2.1).sum := by
    unfold Build.valueToOffsetTable
    rw [List.map_map]
    rfl
  unfold legacyCopySize
  omega

/-- Where a page is programmed, the table shows the bytes of its fields. -/
theorem slice_shown {value : Nat → List UInt8} {field : LegacyField} {element : ConstElement}
    {m : Mem} {startOffset : Nat} {page : List UInt8}
    (hvalue : (value field.idVal).length ≤ field.byteLen)
    (hplaced : Placed page (field.obj value)) (hstart : field.start = element.offset)
    (hsize : element.size ≤ field.byteLen) (hpage : m.slice startOffset page.length = page) :
    m.slice (startOffset + element.offset * wordSize) element.size = shown value field element := by
  refine List.ext_getElem? fun i => ?_
  unfold shown
  rw [Mem.getElem?_slice]
  by_cases hi : i < element.size
  · have hlen := LegacyField.length_encoded hvalue
    have hbyte := hplaced i (by change i < (field.encoded value).length; omega)
    have hbyte : page[element.offset * wordSize + i]? = (field.encoded value)[i]? := by
      rw [← hstart]
      exact hbyte
    have hin' : i < (field.encoded value).length := by omega
    have hsome : (field.encoded value)[i]? = some (field.encoded value)[i] :=
      List.getElem?_eq_getElem hin'
    rw [if_pos hi, List.getElem?_take_of_lt hi, ← hbyte]
    rw [← hpage, Mem.getElem?_slice, Nat.add_assoc]
    by_cases hin : element.offset * wordSize + i < page.length
    · rw [if_pos hin]
    · rw [List.getElem?_eq_none (Nat.not_lt.mp hin), hsome] at hbyte
      cases hbyte
  · rw [if_neg hi, List.getElem?_eq_none]
    rw [List.length_take]
    omega

variable {σ : Type}

/-- With a copy for all elements, a migration stores the entries of the page and the flags. -/
theorem parseMfgConstOffsets_stores {build : Build} {platform : Platform} {tlv : TlvCtx σ}
    {view : σ → Mem} (hs : FlashFaultFree tlv.storageImpl view)
    (hmarker : tlv.tlvStorageStartMarkerSize = mfgHeaderSize)
    (hend : tlv.endOffset + 65544 ≤ 2 ^ 32)
    (halloc : platform.malloc (tlv.endOffset - tlv.startOffset) = true)
    (hkeys : build.psaKeyStorage = false) (hoffsets : build.legacyOffsets = false)
    (hmax : maxFlashWriteLen ≤ build.maxElementSize)
    (hroom : legacyCopySize ≤ tlv.endOffset - tlv.startOffset) (s : σ) :
    ∃ s' ram, parseMfgConstOffsets build platform tlv s = (.ret 0, s') ∧
      Holding (view s') tlv.startOffset (tlv.endOffset - tlv.startOffset) ram ∧
      Stored ram (tlv.endOffset - tlv.startOffset) mfgHeaderSize
        (build.pageEntries (view s) tlv.startOffset ++ [flagsEntry build]) := by
  have hfit := pageEntries_fit build (view s) tlv.startOffset
  have hrec : recordSize mfgFlagsSize = 8 := rfl
  have hsize : ∀ element ∈ build.valueToOffsetTable, element.size ≤ build.maxElementSize :=
    fun element helement => (valueToOffsetTable_spec hoffsets element helement).2.1.trans hmax
  have hshort : ∀ e ∈ build.pageEntries (view s) tlv.startOffset,
      e.data.length ≤ build.maxElementSize := by
    intro e he
    obtain ⟨element, helement, hsome⟩ := List.mem_filterMap.mp he
    rw [(entryOf_some hsome).2.1, length_pageData]
    exact hsize element helement
  have hblank : Stored (freshCopy platform (tlv.endOffset - tlv.startOffset))
      (tlv.endOffset - tlv.startOffset) mfgHeaderSize [] :=
    .nil fun a h₁ h₂ => freshCopy_blank platform h₁ h₂
  obtain ⟨ram, hcopy, hstored⟩ := @copyAll_stored _ _ _ build platform (by omega) hkeys _ hshort
    hblank (by rw [List.nil_append]; omega)
  rw [List.nil_append] at hstored
  have hslot : ramSlot ram (tlv.endOffset - tlv.startOffset) =
      mfgHeaderSize + usedBy (build.pageEntries (view s) tlv.startOffset) :=
    hstored.freeSlot (by unfold headerSize; omega)
  rw [← constElements_page hoffsets] at hcopy
  obtain ⟨s', hparse, hholding⟩ := parseMfgConstOffsets_fits hs hmarker hend (by omega) halloc
    hsize hcopy (by rw [hslot]; omega)
  rw [hslot] at hholding
  exact ⟨s', _, hparse, hholding, hstored.append (flagsEntry build)⟩

/-- On a programmed page the table shows the bytes of the fields. -/
theorem pageData_shown {m : Mem} {startOffset : Nat} {page : List UInt8} {value : Nat → List UInt8}
    {field : LegacyField} {element : ConstElement} (hend : startOffset + 1420 < 2 ^ 32)
    (hfield : field ∈ legacyFields) (hvalue : (value field.idVal).length ≤ field.byteLen)
    (hplaced : Placed page (field.obj value)) (hstart : field.start = element.offset)
    (hsize : element.size ≤ field.byteLen) (hpage : m.slice startOffset page.length = page) :
    pageData m startOffset element = shown value field element := by
  have hin := legacyFields_spec.1 field hfield
  have hword : u32 (startOffset + element.offset * wordSize) =
      startOffset + element.offset * wordSize := by
    unfold wordSize
    exact Nat.mod_eq_of_lt (by omega)
  rw [pageData, hword]
  exact slice_shown hvalue hplaced hstart hsize hpage

/-- The page that the tool writes for any values is migrated, and then each tag of the table gives
the first bytes of the value that was written, unless these look erased. -/
theorem legacy_roundTrip {build : Build} {platform : Platform} {tlv : TlvCtx σ} {view : σ → Mem}
    (hs : FlashFaultFree tlv.storageImpl view)
    (hmarker : tlv.tlvStorageStartMarkerSize = mfgHeaderSize)
    (hend : tlv.endOffset + 65544 ≤ 2 ^ 32)
    (halloc : platform.malloc (tlv.endOffset - tlv.startOffset) = true)
    (hkeys : build.psaKeyStorage = false) (hoffsets : build.legacyOffsets = false)
    (hmax : maxFlashWriteLen ≤ build.maxElementSize)
    (hroom : legacyCopySize ≤ tlv.endOffset - tlv.startOffset) {value : Nat → List UInt8}
    (hvalue : ∀ field ∈ legacyFields, (value field.idVal).length ≤ field.byteLen) :
    ∃ bin, legacyImage value = .ok bin ∧ ∀ s, Programmed tlv (view s) bin.encoded →
      ∃ s', parseMfgConstOffsets build platform tlv s = (.ret 0, s') ∧
        ∀ element ∈ build.valueToOffsetTable, ∃ field ∈ legacyFields,
          field.idVal = element.value.toNat ∧
          (tlvRead tlv s' element.value element.size).1 =
            some (if shown value field element = List.replicate element.size 0xFF then
                (-enodata, [])
              else (0, shown value field element)) := by
  obtain ⟨bin, hbin, -, hplaced⟩ := legacyImage_eq hvalue
  refine ⟨bin, hbin, fun s hprogrammed => ?_⟩
  obtain ⟨s', ram, hparse, hholding, hstored⟩ :=
    parseMfgConstOffsets_stores hs hmarker hend halloc hkeys hoffsets hmax hroom s
  refine ⟨s', hparse, fun element helement => ?_⟩
  obtain ⟨hpos, hsmall, hlow, field, hfield, hid, hstart, hsize⟩ :=
    valueToOffsetTable_spec hoffsets element helement
  have hcopy : 1428 ≤ legacyCopySize := by decide
  have hlen := length_pageData (view s) tlv.startOffset element
  have hshown : pageData (view s) tlv.startOffset element = shown value field element :=
    pageData_shown (by omega) hfield (hvalue field hfield) (hplaced field hfield) hstart hsize
      hprogrammed.1
  have hbehind : mfgHeaderSize + usedBy (build.pageEntries (view s) tlv.startOffset ++
      [flagsEntry build]) ≤ tlv.endOffset - tlv.startOffset := by
    have hfit := pageEntries_fit build (view s) tlv.startOffset
    have hflags : (flagsEntry build).size = recordSize mfgFlagsSize := rfl
    rw [usedBy_append, usedBy_cons, usedBy_nil]
    omega
  have hlast : (flagsEntry build).type ≠ element.value := by
    intro h
    rw [← h] at hlow
    exact absurd hlow (lt_irrefl _)
  have hresult := readResult_entries hstored hbehind (values_nodup build) helement
    (value_ne_empty hoffsets helement) hlast (by rw [hlen]; exact hpos)
    (by rw [hlen]; unfold maxFlashWriteLen at hsmall; omega)
  obtain ⟨s'', hread, -⟩ := tlvRead_holding hs.toFaultFree hmarker hend (by omega) hholding
    element.value element.size
  refine ⟨field, hfield, hid, ?_⟩
  rw [hread, ← hshown]
  rw [hlen] at hresult
  exact congrArg some hresult

/-- A page of short values. -/
theorem legacy_roundTrip_bytes :
    ∃ bin, legacyImage (fun idVal => if idVal = 38 then [1, 2] else [7]) = .ok bin ∧
      ∀ f : Flash, Programmed (tlvFlash Flash.storage 0 4096) f.mem bin.encoded →
        ∃ f', parseMfgConstOffsets defaultBuild calmPlatform (tlvFlash Flash.storage 0 4096) f =
            (.ret 0, f') ∧
          ∀ element ∈ defaultBuild.valueToOffsetTable, ∃ field ∈ legacyFields,
            field.idVal = element.value.toNat ∧
            (tlvRead (tlvFlash Flash.storage 0 4096) f' element.value element.size).1 =
              some (if shown (fun idVal => if idVal = 38 then [1, 2] else [7]) field element =
                  List.replicate element.size 0xFF then (-enodata, [])
                else (0, shown (fun idVal => if idVal = 38 then [1, 2] else [7]) field element)) :=
  @legacy_roundTrip Flash defaultBuild calmPlatform (tlvFlash Flash.storage 0 4096) Flash.mem
    Flash.faultFree rfl (by decide) rfl rfl rfl (by decide) (by decide) _ (by decide)

end Sidewalk.Mfg
