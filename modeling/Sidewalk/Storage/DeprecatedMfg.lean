import Sidewalk.Mfg.Parsers
import Sidewalk.Storage.CryptoKeys

/-!
# The deprecated manufacturing store

`sid_mfg_storage_deprecated.c`, whose reads put their result into the caller's buffer and say
nothing about failures. A read or write of the flash that fails has done some first bytes of it.
`storeWrite_frame` is what a write can do to the flash: it changes nothing below the empty tag its
search has found.
-/

namespace Sidewalk.Storage

open Sidewalk.Lib

/-! ## Flash -/

/-- A flash with what its next reads and writes do: all, or only some first bytes. -/
structure FlashDev where
  mem : Mem
  readFaults : Nat → Option Nat
  writeFaults : Nat → Option Nat

namespace FlashDev

/-- Whether the read succeeds, and the bytes it has put into the buffer. -/
def read (d : FlashDev) (offset size : Nat) : Bool × List UInt8 × FlashDev :=
  ((d.readFaults 0).isNone, d.mem.slice offset ((d.readFaults 0).elim size (min size)),
    { d with readFaults := fun n => d.readFaults (n + 1) })

def write (d : FlashDev) (offset : Nat) (data : List UInt8) : Bool × FlashDev :=
  ((d.writeFaults 0).isNone,
    { d with
      mem := d.mem.blit offset (data.take ((d.writeFaults 0).elim data.length id))
      writeFaults := fun n => d.writeFaults (n + 1) })

/-- A flash that does not fail. -/
def reliable (m : Mem) : FlashDev := ⟨m, fun _ => none, fun _ => none⟩

@[simp] theorem mem_read (d : FlashDev) (offset size : Nat) :
    (d.read offset size).2.2.mem = d.mem := rfl

theorem read_ok {d : FlashDev} {offset size : Nat} (h : (d.read offset size).1 = true) :
    (d.read offset size).2.1 = d.mem.slice offset size := by
  unfold read at h ⊢
  simp only at h ⊢
  rw [Option.isNone_iff_eq_none.1 h, Option.elim_none]

theorem write_below (d : FlashDev) (offset : Nat) {a : Nat} (data : List UInt8) (h : a < offset) :
    (d.write offset data).2.mem a = d.mem a := Mem.blit_below h

end FlashDev

/-! ## Tags -/

structure DeprecatedStore where
  addrStart : Nat
  addrEnd : Nat
  /-- The flash device is found. -/
  flashDev : Bool
  /-- `SID_PAL_MFG_STORE_NORDIC_USE_LEGACY_OFFSETS` -/
  legacyOffsets : Bool
  /-- `CONFIG_SIDEWALK_MFG_STORAGE_WRITE` -/
  writeSupport : Bool
  appValueToOffset : UInt16 → Nat

def storeVersion : UInt16 := 2
def devicePrivEd25519 : UInt16 := 6
def devicePrivP256r1 : UInt16 := 9
def devicePrivEd25519Raw : UInt16 := 100
def devicePrivP256r1Raw : UInt16 := 101
def coreValueMax : UInt16 := 4000
def tlvTagEmpty : UInt16 := 0xFFFF

def errorOutOfResources : Int := -3
def errorNosupport : Int := -6
def errorIncompatibleParams : Int := -12
def errorUninitialized : Int := -25
def eio : Int := -5

/-- `sid_pal_mfg_store_app_value_to_offset_table`: the values and sizes, with the offsets of the
current and of the legacy layout. -/
def deprecatedRows : List (UInt16 × Nat × Nat × Nat) :=
  (storeVersion, 4, 1, 0) :: (1, 5, Mfg.invalidOffset, 4) :: Mfg.offsetRows

def rowOffset (store : DeprecatedStore) (row : UInt16 × Nat × Nat × Nat) : Nat :=
  if store.legacyOffsets then row.2.2.2 else row.2.2.1

/-- `value_to_offset`; none stands for `SID_PAL_MFG_STORE_INVALID_OFFSET`. -/
def valueToOffset (store : DeprecatedStore) (value : UInt16) : Option Nat :=
  match deprecatedRows.find? (·.1 = value) with
  | some row =>
    if rowOffset store row = Mfg.invalidOffset then none
    else some (store.addrStart + rowOffset store row * 4)
  | none =>
    if coreValueMax ≤ value then
      if store.appValueToOffset value = Mfg.invalidOffset then none
      else if store.addrEnd ≤ store.addrStart + store.appValueToOffset value then none
      else some (store.addrStart + store.appValueToOffset value)
    else none

structure TlvInfo where
  length : Nat
  offset : Nat

/-- Two bytes in network order. -/
def be16 (raw : List UInt8) (i : Nat) : Nat := (raw.getD i 0).toNat * 256 + (raw.getD (i + 1) 0).toNat

def expandToMultipleWord (value : Nat) : Nat := (value + 3) / 4 * 4

/-- The loop of `sid_pal_mfg_store_search_for_tag`. -/
def searchFrom (addrEnd : Nat) (tag : UInt16) (address : Nat) (d : FlashDev) :
    Option TlvInfo × FlashDev :=
  let raw := (d.read address 4).2.1
  let next := address + (4 + expandToMultipleWord (be16 raw 2))
  if (d.read address 4).1 = false then (none, (d.read address 4).2.2)
  else if be16 raw 0 = tag.toNat then (some ⟨be16 raw 2, address⟩, (d.read address 4).2.2)
  else if be16 raw 0 = tlvTagEmpty.toNat then (none, (d.read address 4).2.2)
  else if addrEnd < next + 4 + 4 then (none, (d.read address 4).2.2)
  else searchFrom addrEnd tag next (d.read address 4).2.2
termination_by addrEnd - address

/-- Where the first tag is. -/
def firstTag (store : DeprecatedStore) : Nat :=
  store.addrStart + (if store.legacyOffsets then 0 else 1) * 4 + 4

/-- `sid_pal_mfg_store_search_for_tag`. -/
def searchForTag (store : DeprecatedStore) (tag : UInt16) (d : FlashDev) :
    Option TlvInfo × FlashDev :=
  searchFrom store.addrEnd tag (firstTag store) d

/-- `sid_pal_mfg_store_get_version`, as the four bytes on the flash. -/
def getVersion (store : DeprecatedStore) (d : FlashDev) : List UInt8 × FlashDev :=
  if store.flashDev then
    match d.read (store.addrStart + 4) 4 with
    | (_, bytes, d) => (bytes ++ List.replicate (4 - bytes.length) 0, d)
  else ([0, 0, 0, 0], d)

/-- `SID_PAL_MFG_STORE_TLV_VERSION`. -/
def tlvVersion : List UInt8 := [0, 0, 0, 8]

/-! ## Reading and writing -/

/-- The value a raw read is about. -/
def rawValue (value : UInt16) : UInt16 :=
  if value = devicePrivEd25519Raw then devicePrivEd25519
  else if value = devicePrivP256r1Raw then devicePrivP256r1
  else value

/-- `sid_pal_mfg_store_read` from the flash. -/
def readFlash (store : DeprecatedStore) (value : UInt16) (buffer : Mem) (length : Nat)
    (d : FlashDev) : Mem × FlashDev :=
  match getVersion store d with
  | (version, d) =>
    if version = tlvVersion then
      if value = storeVersion then (buffer.blit 0 version.reverse, d)
      else
        match searchForTag store value d with
        | (some info, d) =>
          if info.length < length then (buffer, d)
          else
            match d.read (info.offset + 4) length with
            | (_, bytes, d) => (buffer.blit 0 bytes, d)
        | (none, d) => (buffer.fill 0 length 0xFF, d)
    else
      match valueToOffset store value with
      | some offset =>
        if store.flashDev then
          match d.read offset length with
          | (_, bytes, d) => (buffer.blit 0 bytes, d)
        else (buffer, d)
      | none => (buffer, d)

/-- `sid_pal_mfg_store_read`. -/
def storeRead (build : Build) (store : DeprecatedStore) (value : UInt16) (buffer : Mem)
    (length : Nat) (d : FlashDev) (psa : Psa) : Mem × FlashDev :=
  if build.psaKeyStorage = true ∧ value = devicePrivEd25519 then
    (((bufferSet build .mfgEd25519Priv length psa).2).elim buffer (buffer.blit 0), d)
  else if build.psaKeyStorage = true ∧ value = devicePrivP256r1 then
    (((bufferSet build .mfgSecp256r1Priv length psa).2).elim buffer (buffer.blit 0), d)
  else readFlash store (if build.psaKeyStorage then rawValue value else value) buffer length d

/-- The loop over the chunks of `sid_pal_mfg_store_write`. The rounded-up length counts down, the
length of the value stays as it is, and `pos` is how far the source has been advanced. -/
def writeChunks : Nat → Nat → Mem → Nat → Nat → Nat → FlashDev → Int × FlashDev
  | 0, _, _, _, _, _, d => (0, d)
  | fuel + 1, address, buffer, pos, fullLength, length, d =>
    if fullLength = 0 then (0, d)
    else
      let wrLength := min fullLength Mfg.maxFlashWriteLen
      let data := buffer.slice pos (min wrLength length)
      match d.write address (data ++ List.replicate (wrLength - data.length) 0xFF) with
      | (false, d) => (eio, d)
      | (true, d) =>
        writeChunks fuel (address + wrLength) buffer (pos + wrLength) (fullLength - wrLength)
          length d

/-- The length rounded up to whole words, in 16 bits. -/
def fullLength (length : UInt16) : Nat := expandToMultipleWord length.toNat % 65536

/-- The header of a record. -/
def tlvHeader (value : UInt16) (fullLength : Nat) : List UInt8 :=
  [(value >>> 8).toUInt8, value.toUInt8, .ofNat (fullLength / 256), .ofNat fullLength]

/-- `sid_pal_mfg_store_write`. -/
def storeWrite (store : DeprecatedStore) (value : UInt16) (buffer : Mem) (length : UInt16)
    (d : FlashDev) : Int × FlashDev :=
  if store.writeSupport = false then (errorNosupport, d)
  else if length = 0 ∨ value = tlvTagEmpty then (errorInvalidArgs, d)
  else
    match getVersion store d with
    | (version, d) =>
      if version = tlvVersion ∧ value ≠ storeVersion then
        match searchForTag store value d with
        | (some _, d) => (-1, d)
        | (none, d) =>
          match searchForTag store tlvTagEmpty d with
          | (none, d) => (-1, d)
          | (some info, d) =>
            if store.addrEnd < info.offset + 4 + fullLength length then (-1, d)
            else
              match d.write info.offset (tlvHeader value (fullLength length)) with
              | (false, d) => (eio, d)
              | (true, d) =>
                writeChunks (fullLength length) (info.offset + 4) buffer 0 (fullLength length)
                  length.toNat d
      else if Mfg.maxFlashWriteLen < length.toNat then (errorOutOfResources, d)
      else if length.toNat % 4 ≠ 0 then (errorIncompatibleParams, d)
      else
        match valueToOffset store value with
        | none => (errorNotFound, d)
        | some offset =>
          if store.flashDev then
            match d.write offset (buffer.slice 0 length.toNat) with
            | (ok, d) => (if ok then 0 else eio, d)
          else (errorUninitialized, d)

/-! ## What the search finds -/

theorem mem_searchFrom (addrEnd : Nat) (tag : UInt16) (address : Nat) (d : FlashDev) :
    (searchFrom addrEnd tag address d).2.mem = d.mem := by
  induction address, d using searchFrom.induct addrEnd tag with
  | case1 address d hfail => rw [searchFrom, if_pos hfail, FlashDev.mem_read]
  | case2 address d raw hok htag =>
    rw [searchFrom, if_neg hok, if_pos htag, FlashDev.mem_read]
  | case3 address d raw hok htag hempty =>
    rw [searchFrom, if_neg hok, if_neg htag, if_pos hempty, FlashDev.mem_read]
  | case4 address d raw next hok htag hempty hend =>
    rw [searchFrom, if_neg hok, if_neg htag, if_neg hempty, if_pos hend, FlashDev.mem_read]
  | case5 address d raw next hok htag hempty hend ih =>
    rw [searchFrom, if_neg hok, if_neg htag, if_neg hempty, if_neg hend, ih, FlashDev.mem_read]

theorem dev_searchFrom_reliable (addrEnd : Nat) (tag : UInt16) (address : Nat) (m : Mem) :
    (searchFrom addrEnd tag address (.reliable m)).2 = .reliable m := by
  have hread (address : Nat) : ((FlashDev.reliable m).read address 4).2.2 = .reliable m := rfl
  generalize hd : FlashDev.reliable m = d at hread ⊢
  induction address, d using searchFrom.induct addrEnd tag with
  | case1 address d hfail => rw [searchFrom, if_pos hfail, hread]
  | case2 address d raw hok htag => rw [searchFrom, if_neg hok, if_pos htag, hread]
  | case3 address d raw hok htag hempty =>
    rw [searchFrom, if_neg hok, if_neg htag, if_pos hempty, hread]
  | case4 address d raw next hok htag hempty hend =>
    rw [searchFrom, if_neg hok, if_neg htag, if_neg hempty, if_pos hend, hread]
  | case5 address d raw next hok htag hempty hend ih =>
    rw [searchFrom, if_neg hok, if_neg htag, if_neg hempty, if_neg hend]
    rw [hread] at ih ⊢
    exact ih hd hread

/-- One round on a flash that does not fail. -/
theorem searchFrom_reliable (addrEnd : Nat) (tag : UInt16) (address : Nat) (m : Mem) :
    (searchFrom addrEnd tag address (.reliable m)).1 =
      if be16 (m.slice address 4) 0 = tag.toNat then some ⟨be16 (m.slice address 4) 2, address⟩
      else if be16 (m.slice address 4) 0 = tlvTagEmpty.toNat then none
      else if addrEnd < address + (4 + expandToMultipleWord (be16 (m.slice address 4) 2)) + 4 + 4
      then none
      else (searchFrom addrEnd tag
        (address + (4 + expandToMultipleWord (be16 (m.slice address 4) 2))) (.reliable m)).1 := by
  rw [searchFrom]
  have hread : (FlashDev.reliable m).read address 4 =
    (true, m.slice address 4, FlashDev.reliable m) := rfl
  simp only [hread, Bool.true_eq_false, if_false]
  split
  · rfl
  split
  · rfl
  split
  · rfl
  · rfl

/-- The empty tag lies behind every record that the search for another tag finds, so that what is
written from it on leaves that record alone. -/
theorem searchFrom_frame {addrEnd address : Nat} {d : FlashDev} {empty : TlvInfo}
    (hempty : (searchFrom addrEnd tlvTagEmpty address d).1 = some empty) {m : Mem}
    (hagree : ∀ a, a < empty.offset → m a = d.mem a) :
    (empty.offset = address ∧ be16 (d.mem.slice address 4) 0 = tlvTagEmpty.toNat ∨
        address + 4 ≤ empty.offset) ∧
      ∀ tag info, tag ≠ tlvTagEmpty →
        (searchFrom addrEnd tag address (.reliable d.mem)).1 = some info →
        (searchFrom addrEnd tag address (.reliable m)).1 = some info ∧
          info.offset + 4 + info.length ≤ empty.offset := by
  induction address, d using searchFrom.induct addrEnd tlvTagEmpty with
  | case1 address d hfail =>
    rw [searchFrom, if_pos hfail] at hempty
    cases hempty
  | case2 address d raw hok htag =>
    rw [searchFrom, if_neg hok, if_pos htag] at hempty
    cases hempty
    have hraw : raw = d.mem.slice address 4 := FlashDev.read_ok (Bool.eq_true_of_not_eq_false hok)
    rw [hraw] at htag
    refine ⟨.inl ⟨rfl, htag⟩, fun tag info hne hfound => ?_⟩
    have hother : ¬be16 (d.mem.slice address 4) 0 = tag.toNat := by
      rw [htag]
      exact fun heq => hne (UInt16.toNat_inj.1 heq).symm
    rw [searchFrom_reliable, if_neg hother, if_pos htag] at hfound
    cases hfound
  | case3 address d raw hok htag hempty' => exact absurd hempty' htag
  | case4 address d raw next hok htag hempty' hend =>
    rw [searchFrom, if_neg hok, if_neg htag, if_neg hempty', if_pos hend] at hempty
    cases hempty
  | case5 address d raw next hok htag hempty' hend ih =>
    rw [searchFrom, if_neg hok, if_neg htag, if_neg hempty', if_neg hend] at hempty
    have hraw : raw = d.mem.slice address 4 := FlashDev.read_ok (Bool.eq_true_of_not_eq_false hok)
    obtain ⟨hbehind, hfinds⟩ := ih hempty hagree
    have hnext : next = address + (4 + expandToMultipleWord (be16 (d.mem.slice address 4) 2)) := by
      rw [← hraw]
    have hlength : be16 (d.mem.slice address 4) 2 ≤
        expandToMultipleWord (be16 (d.mem.slice address 4) 2) := by
      unfold expandToMultipleWord
      omega
    have hle : next ≤ empty.offset := by
      rcases hbehind with ⟨heq, _⟩ | hle
      · exact Nat.le_of_eq heq.symm
      · omega
    refine ⟨.inr (by omega), fun tag info hne hfound => ?_⟩
    have hslice : m.slice address 4 = d.mem.slice address 4 :=
      Mem.slice_congr fun i hi => hagree _ (by omega)
    rw [hraw] at hempty'
    rw [searchFrom_reliable] at hfound
    rw [searchFrom_reliable, hslice]
    by_cases hhere : be16 (d.mem.slice address 4) 0 = tag.toNat
    · rw [if_pos hhere] at hfound
      rw [if_pos hhere]
      refine ⟨hfound, ?_⟩
      cases hfound
      simp only
      omega
    · rw [if_neg hhere, if_neg hempty', if_neg (by rw [← hnext]; exact hend), ← hnext] at hfound
      rw [if_neg hhere, if_neg hempty', if_neg (by rw [← hnext]; exact hend), ← hnext]
      exact hfinds tag info hne hfound

/-! ## What a write leaves alone -/

theorem mem_getVersion (store : DeprecatedStore) (d : FlashDev) :
    (getVersion store d).2.mem = d.mem := by
  unfold getVersion
  split
  · rfl
  · rfl

/-- A version read in part is never the version of the tags. -/
theorem version_of_getVersion {store : DeprecatedStore} {d : FlashDev}
    (h : (getVersion store d).1 = tlvVersion) :
    d.mem.slice (store.addrStart + 4) 4 = tlvVersion := by
  unfold getVersion at h
  split at h
  · simp only [FlashDev.read] at h
    cases hfault : d.readFaults 0 with
    | none =>
      rw [hfault] at h
      simpa only [Option.elim_none, Mem.length_slice, Nat.sub_self, List.replicate_zero,
        List.append_nil] using h
    | some n =>
      rw [hfault] at h
      simp only [Option.elim_some, Mem.length_slice] at h
      by_cases hn : 4 ≤ n
      · simpa only [Nat.min_eq_left hn, Nat.sub_self, List.replicate_zero, List.append_nil] using h
      · have hlast : _ = tlvVersion[3]? := congrArg (·[3]?) h
        rw [List.getElem?_append_right (by rw [Mem.length_slice]; omega), Mem.length_slice,
          List.getElem?_replicate, if_pos (by omega)] at hlast
        cases hlast
  · cases h

/-- The version lies below the empty tag. -/
theorem version_below {store : DeprecatedStore} {d : FlashDev} {empty : TlvInfo}
    (hversion : d.mem.slice (store.addrStart + 4) 4 = tlvVersion)
    (hempty : (searchForTag store tlvTagEmpty d).1 = some empty) :
    store.addrStart + 4 + 4 ≤ empty.offset := by
  unfold searchForTag at hempty
  obtain ⟨hbehind, -⟩ := searchFrom_frame hempty fun _ _ => rfl
  unfold firstTag at hbehind
  by_cases hlegacy : store.legacyOffsets = true
  · rw [if_pos hlegacy, Nat.zero_mul, Nat.add_zero, hversion] at hbehind
    rcases hbehind with ⟨_, hfirst⟩ | hle
    · exact absurd hfirst (by decide)
    · exact hle
  · rw [if_neg hlegacy] at hbehind
    rcases hbehind with ⟨heq, _⟩ | hle
    · omega
    · omega

theorem version_kept {store : DeprecatedStore} {d : FlashDev} {empty : TlvInfo}
    (hversion : d.mem.slice (store.addrStart + 4) 4 = tlvVersion)
    (hempty : (searchForTag store tlvTagEmpty d).1 = some empty) {m : Mem}
    (hbelow : ∀ a, a < empty.offset → m a = d.mem a) :
    m.slice (store.addrStart + 4) 4 = d.mem.slice (store.addrStart + 4) 4 := by
  have hstart := version_below hversion hempty
  exact Mem.slice_congr fun i hi => hbelow _ (by omega)

theorem writeChunks_below {fuel address pos fullLength length a : Nat} {buffer : Mem}
    {d : FlashDev} (h : a < address) :
    (writeChunks fuel address buffer pos fullLength length d).2.mem a = d.mem a := by
  induction fuel generalizing address pos fullLength d with
  | zero => rfl
  | succ fuel ih =>
    unfold writeChunks
    split
    · rfl
    simp only
    have hwrite := d.write_below address
      (buffer.slice pos (min (min fullLength Mfg.maxFlashWriteLen) length) ++
        List.replicate (min fullLength Mfg.maxFlashWriteLen -
          (buffer.slice pos (min (min fullLength Mfg.maxFlashWriteLen) length)).length) 0xFF) h
    split
    · next heq =>
      rw [heq] at hwrite
      exact hwrite
    · next heq =>
      rw [heq] at hwrite
      exact (ih (by omega)).trans hwrite

/-- A write of a value without an offset changes the flash of a store with tags only, from the
empty tag on. -/
theorem storeWrite_frame {store : DeprecatedStore} {value : UInt16}
    (hvalue : valueToOffset store value = none) (buffer : Mem) (length : UInt16) (d : FlashDev) :
    (storeWrite store value buffer length d).2.mem = d.mem ∨
      d.mem.slice (store.addrStart + 4) 4 = tlvVersion ∧
        ∃ d' empty, d'.mem = d.mem ∧ (searchForTag store tlvTagEmpty d').1 = some empty ∧
          ∀ a, a < empty.offset →
            (storeWrite store value buffer length d).2.mem a = d.mem a := by
  unfold storeWrite
  split
  · exact .inl rfl
  split
  · exact .inl rfl
  have hversion := @version_of_getVersion store d
  have hmem := mem_getVersion store d
  generalize getVersion store d = version at hversion hmem ⊢
  obtain ⟨version, d₁⟩ := version
  simp only at hversion hmem ⊢
  split
  · next htlv =>
    have hfound := mem_searchFrom store.addrEnd value (firstTag store) d₁
    unfold searchForTag
    generalize searchFrom store.addrEnd value (firstTag store) d₁ = search at hfound ⊢
    obtain ⟨info, d₂⟩ := search
    cases info with
    | some info => exact .inl (hfound.trans hmem)
    | none =>
      simp only at hfound ⊢
      have hempty := mem_searchFrom store.addrEnd tlvTagEmpty (firstTag store) d₂
      generalize hsearch : searchFrom store.addrEnd tlvTagEmpty (firstTag store) d₂ = search
        at hempty ⊢
      obtain ⟨info, d₃⟩ := search
      have hmem₃ : d₃.mem = d.mem := hempty.trans (hfound.trans hmem)
      cases info with
      | none => exact .inl hmem₃
      | some info =>
        simp only
        split
        · exact .inl hmem₃
        refine .inr ⟨hversion htlv.1, d₂, info, hfound.trans hmem, by rw [hsearch],
          fun a ha => ?_⟩
        have hheader := d₃.write_below info.offset (tlvHeader value (fullLength length)) ha
        split
        · next heq =>
          rw [heq] at hheader
          exact hheader.trans (congrFun hmem₃ a)
        · next heq =>
          rw [heq] at hheader
          exact ((writeChunks_below (by omega)).trans hheader).trans (congrFun hmem₃ a)
  split
  · exact .inl hmem
  split
  · exact .inl hmem
  rw [hvalue]
  exact .inl hmem

/-! ## The stored key -/

/-- The plaintext key the store holds for a raw value. -/
def storedKey (store : DeprecatedStore) (raw : UInt16) (m : Mem) : Option (List UInt8) :=
  if m.slice (store.addrStart + 4) 4 = tlvVersion then
    (searchForTag store (rawValue raw) (.reliable m)).1.map fun info =>
      m.slice (info.offset + 4) info.length
  else (valueToOffset store (rawValue raw)).map fun offset => m.slice offset 32

/-- The overwrite never reaches the key: the raw value has no offset, and as a tag it goes behind
the last one. -/
theorem storedKey_storeWrite {store : DeprecatedStore} {raw : UInt16}
    (hraw : raw = devicePrivEd25519Raw ∨ raw = devicePrivP256r1Raw) (buffer : Mem)
    (length : UInt16) (d : FlashDev) {key : List UInt8}
    (hkey : storedKey store raw d.mem = some key) :
    storedKey store raw (storeWrite store raw buffer length d).2.mem = some key := by
  have hvalue : valueToOffset store raw = none := by
    rcases hraw with rfl | rfl
    · rfl
    · rfl
  have htag : rawValue raw ≠ tlvTagEmpty := by
    rcases hraw with rfl | rfl
    · decide
    · decide
  rcases storeWrite_frame hvalue buffer length d with
    hsame | ⟨hversion, d', empty, hd', hempty, hbelow⟩
  · rwa [hsame]
  generalize (storeWrite store raw buffer length d).2.mem = m at hbelow ⊢
  rw [← hd'] at hbelow hversion hkey
  have hversion' := version_kept hversion hempty hbelow
  unfold searchForTag at hempty
  obtain ⟨-, hfinds⟩ := searchFrom_frame hempty hbelow
  unfold storedKey at hkey ⊢
  rw [if_pos hversion] at hkey
  rw [hversion', if_pos hversion]
  obtain ⟨info, hinfo, rfl⟩ := Option.map_eq_some_iff.1 hkey
  obtain ⟨hfound, hle⟩ := hfinds _ info htag hinfo
  refine Option.map_eq_some_iff.2 ⟨info, hfound, ?_⟩
  exact Mem.slice_congr fun i hi => hbelow _ (by omega)

end Sidewalk.Storage
