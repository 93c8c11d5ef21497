import Sidewalk.Mfg.Copy
import Sidewalk.Mfg.Storage

/-!
# Migrations across boots

A migrated partition carries the version of a raw image, and the flags record tells the two apart.
It is found by its first match, so a flags record that the image already had hides the one a
parser appends. `init_settles_iff` says for which images a boot that migrates leaves the flags of
its own build and is not followed by another migration.
-/

namespace Sidewalk.Mfg

open Sidewalk.Lib Sidewalk.Tlv

/-! ## The flags record -/

@[simp] theorem ofBytes_toBytes (flags : MfgFlags) : MfgFlags.ofBytes flags.toBytes = flags := by
  obtain ⟨keysInPsa, initialized⟩ := flags
  cases keysInPsa <;> cases initialized <;> rfl

/-- Only the first byte carries flags. -/
theorem ofBytes_take {data : List UInt8} {n : Nat} (hn : 0 < n) :
    MfgFlags.ofBytes (data.take n) = MfgFlags.ofBytes data := by
  cases data with
  | nil => rw [List.take_nil]
  | cons b bs =>
    obtain ⟨n, rfl⟩ := Nat.exists_eq_succ_of_ne_zero (Nat.ne_of_gt hn)
    rfl

theorem ofBytes_paddedData (e : Entry) :
    MfgFlags.ofBytes (paddedData e.data) = MfgFlags.ofBytes e.data := by
  have hpos := e.pos
  rw [paddedData]
  cases hdata : e.data with
  | nil =>
    rw [hdata] at hpos
    exact absurd hpos (Nat.lt_irrefl 0)
  | cons b bs => rfl

/-- What `tlv_read` of the flags returns for a store in memory. -/
def readFlags (m : Mem) (size : Nat) : Int × List UInt8 :=
  readResult m size mfgFlagsSize (findType m size mfgFlagsTypeId mfgHeaderSize)

/-- The flags of a store can be read, and are the given ones. -/
def ShowsFlags (m : Mem) (size : Nat) (flags : MfgFlags) : Prop :=
  ∃ data, readFlags m size = (0, data) ∧ MfgFlags.ofBytes data = flags

/-- A flags record the copy has before the new one is appended can be read, and has the same
flags. -/
def FlagsAgree (ram : Mem) (size : Nat) (flags : MfgFlags) : Prop :=
  ∀ q, findType ram (ramSlot ram size) mfgFlagsTypeId mfgHeaderSize = some q →
    mfgFlagsSize ≤ (headerAt ram q).span ∧
      MfgFlags.ofBytes (ram.slice (q + headerSize) mfgFlagsSize) = flags

section Flags

variable {size : Nat} {ram : Mem} {flags : MfgFlags}

/-- The copy with its flags record shows the flags unless an older record hides it. -/
theorem showsFlags_iff (hfits : ramSlot ram size + recordSize mfgFlagsSize ≤ size) :
    ShowsFlags (ram.blit (ramSlot ram size) (record mfgFlagsTypeId flags.toBytes)) size flags ↔
      FlagsAgree ram size flags := by
  have hrec : recordSize mfgFlagsSize = 8 := rfl
  have hlt : ramSlot ram size < size := by omega
  have hpath : (freeHops ram size).Path mfgHeaderSize (ramSlot ram size) := path_freeSlot hlt
  have hagree := ram.agree_before_blit mfgHeaderSize (ramSlot ram size)
    (record mfgFlagsTypeId flags.toBytes)
  have hpath' := free_path_congr hpath hagree
  have hheld := holds_blit ram (ramSlot ram size) mfgFlagsTypeId flags.toBytes
  have hlen : flags.toBytes.length = mfgFlagsSize := rfl
  have hbehind : findType (ram.blit (ramSlot ram size) (record mfgFlagsTypeId flags.toBytes)) size
      mfgFlagsTypeId (ramSlot ram size) = some (ramSlot ram size) :=
    findType_here (by unfold headerSize; omega) (by rw [hheld.headerAt]; rfl)
  rw [ShowsFlags, readFlags, findType_split hpath' (by omega), ← findType_congr hagree, hbehind]
  unfold FlagsAgree
  cases hfind : findType ram (ramSlot ram size) mfgFlagsTypeId mfgHeaderSize with
  | none =>
    constructor
    · intro _ q hq
      cases hq
    · intro _
      refine ⟨flags.toBytes, ?_, ofBytes_toBytes flags⟩
      exact hheld.readResult (by rw [hlen]; decide) (by rw [hlen]; exact hfits)
        (Nat.le_of_eq hlen.symm)
  | some q =>
    have hroom := (findType_some hfind).1
    have hnext := nextRecord_le_of_find hpath hfind
    have hlo := le_of_findType hfind
    have hhead := headerAt_congr hagree hlo hroom
    simp only [Option.orElse_some, readResult, ← hhead]
    unfold nextRecord at hnext
    constructor
    · rintro ⟨data, hread, hdata⟩ q' hq'
      cases hq'
      split at hread
      · next hspan =>
        refine ⟨hspan, ?_⟩
        rw [if_neg (by omega)] at hread
        cases hread
        rw [hagree.slice (by omega) (by omega)]
        exact hdata
      · cases hread
    · intro h
      obtain ⟨hspan, hdata⟩ := h q rfl
      refine ⟨ram.slice (q + headerSize) mfgFlagsSize, ?_, hdata⟩
      rw [if_pos hspan, if_neg (by omega), hagree.slice (by omega) (by omega)]

/-- For a copy that is a log, the first entry under the flags tag decides. -/
theorem flagsAgree_iff {build : Build} {es : List Entry} (h : Filling size ram es)
    (hfits : ramSlot ram size + recordSize mfgFlagsSize ≤ size) :
    FlagsAgree ram size build.migratedFlags ↔
      ∀ e, es.find? (·.type = mfgFlagsTypeId) = some e →
        MfgFlags.ofBytes e.data = build.migratedFlags := by
  have hnew := h.append (flagsEntry build) hfits
  rw [← showsFlags_iff hfits]
  change ShowsFlags (ram.blit (ramSlot ram size) (flagsEntry build).bytes) size _ ↔ _
  have hfind := hnew.1.find (.inr hnew.2) (show mfgFlagsTypeId ≠ emptyType by decide)
  rw [List.find?_append] at hfind
  have hread : ∀ e : Entry, (es.find? (·.type = mfgFlagsTypeId)).or
      ([flagsEntry build].find? (·.type = mfgFlagsTypeId)) = some e →
      readFlags (ram.blit (ramSlot ram size) (flagsEntry build).bytes) size =
        (0, (paddedData e.data).take mfgFlagsSize) := by
    intro e he
    rw [he] at hfind
    obtain ⟨p, hp, held, hin⟩ := hfind
    have hspan : mfgFlagsSize ≤ paddedSize e.data.length := by
      have := e.eight_le_size
      unfold Entry.size recordSize headerSize at this
      unfold mfgFlagsSize
      omega
    unfold Entry.size recordSize at hin
    rw [readFlags, hp, readResult, held.headerAt, span_makeHeader _ e.short, if_pos hspan,
      if_neg (by omega), ← Mem.take_slice _ (p + headerSize) hspan, held.split.2]
  have hshown : ∀ e : Entry, MfgFlags.ofBytes ((paddedData e.data).take mfgFlagsSize) =
      MfgFlags.ofBytes e.data := fun e => by
    rw [ofBytes_take (by decide), ofBytes_paddedData]
  cases hold : es.find? (·.type = mfgFlagsTypeId) with
  | none =>
    rw [hold, Option.none_or] at hread
    constructor
    · intro _ e he
      cases he
    · intro _
      refine ⟨_, hread (flagsEntry build) rfl, ?_⟩
      rw [hshown]
      exact ofBytes_toBytes build.migratedFlags
  | some e =>
    rw [hold, Option.some_or] at hread
    constructor
    · rintro ⟨data, hdata, hflags⟩ e' he'
      cases he'
      rw [hread e rfl] at hdata
      cases hdata
      rw [← hflags, hshown]
    · intro hflags
      exact ⟨_, hread e rfl, by rw [hshown]; exact hflags e rfl⟩

end Flags

/-! ## The next boot -/

section Boot

variable {build : Build} {platform : Platform} {addrStart addrEnd : Nat}
  {store store' : MfgStore Flash} {f f' : Flash}

theorem changes_tlvRead (f : Flash) (type : UInt16) (n : Nat) :
    (tlvRead (tlvFlash Flash.storage addrStart addrEnd) f type n).2.changes = f.changes := by
  refine tlvRead_preserves (P := fun f' : Flash => f'.changes = f.changes) ?_ type n rfl
  intro read hread f₁ o k h₁
  cases hread
  exact (Flash.changes_read f₁ o k).trans h₁

theorem changes_finish {tlv : TlvCtx Flash} (htlv : tlv = tlvFlash Flash.storage addrStart addrEnd)
    (version : Nat) (r : InitEnd × Flash) :
    (finish ⟨tlv, version⟩ r).2.2.changes = r.2.changes := by
  obtain ⟨reason, f⟩ := r
  cases reason with
  | ready parsed =>
    have hread := @changes_tlvRead addrStart addrEnd f sidPalMfgStoreSmsn sidSmsnSize
    subst htlv
    simp only [finish, apply_ite MfgStore.tlv, ite_self, readSmsn]
    generalize tlvRead (tlvFlash Flash.storage addrStart addrEnd) f sidPalMfgStoreSmsn
      sidSmsnSize = r at hread
    obtain ⟨_ | smsn, f'⟩ := r
    · exact hread
    · exact hread
  | _ => rfl

/-- On a partition with the header and with the flags of the build, the decision is to leave it
alone. -/
theorem settle_settled (hend : addrEnd + 65544 ≤ 2 ^ 32) (hlt : addrStart < addrEnd) {ram : Mem}
    (hholding : Holding f.mem addrStart (copySize addrStart addrEnd) ram)
    (hflags : ShowsFlags ram (copySize addrStart addrEnd) build.migratedFlags) :
    ∃ f₁, settle build platform 8 (tlvFlash Flash.storage addrStart addrEnd) f =
      (.ready false, f₁) ∧ f₁.changes = f.changes := by
  obtain ⟨data, hdata, hbits⟩ := hflags
  obtain ⟨f₁, hread, -⟩ := @tlvRead_holding Flash (tlvFlash Flash.storage addrStart addrEnd)
    Flash.mem ram Flash.faultFree.toFaultFree rfl hend hlt f hholding mfgFlagsTypeId mfgFlagsSize
  have hread : tlvRead (tlvFlash Flash.storage addrStart addrEnd) f mfgFlagsTypeId mfgFlagsSize =
      (some (0, data), f₁) := by
    rw [hread, ← hdata]
    rfl
  have hchanges := @changes_tlvRead addrStart addrEnd f mfgFlagsTypeId mfgFlagsSize
  rw [hread] at hchanges
  have hcheck : checkReadFlags build 0 data = .goOn false := by
    unfold checkReadFlags
    rw [hbits]
    cases hkeys : build.psaKeyStorage <;> simp [Build.migratedFlags, hkeys, enodata]
  refine ⟨f₁, ?_, hchanges⟩
  simp only [settle, show (8 : Nat) = reportedVersion.toNat from rfl, if_true, checkFlags, hread,
    hcheck, Bool.false_eq_true, if_false]

/-- A boot of a settled partition erases and writes nothing. -/
theorem init_settled (hend : addrEnd + 65544 ≤ 2 ^ 32) (hlt : addrStart < addrEnd) {ram : Mem}
    (hholding : Holding f.mem addrStart (copySize addrStart addrEnd) ram)
    (hheader : f.mem.slice addrStart mfgHeaderSize = mfgHeader)
    (hflags : ShowsFlags ram (copySize addrStart addrEnd) build.migratedFlags) :
    (sidPalMfgStoreInit build platform (some Flash.storage) addrStart addrEnd store
      f).2.2.changes = f.changes := by
  simp only [sidPalMfgStoreInit]
  split
  · rfl
  · have hmarker : tlvReadStartMarker (tlvFlash Flash.storage addrStart addrEnd) f mfgHeaderSize =
        (0, mfgHeader, (f.read addrStart mfgHeaderSize).2.2) := by
      rw [← hheader]
      rfl
    have hmagic : ¬((0 : Int) ≠ 0 ∨ mfgHeader.take 4 ≠ mfgHeaderMagic) := by decide
    have hversion : mfgVersion (mfgHeader.drop 4) = 8 := by decide
    simp only [hmarker, hmagic, if_false, hversion]
    obtain ⟨f₁, hsettle, hchanges⟩ := @settle_settled build platform addrStart addrEnd
      (f.read addrStart mfgHeaderSize).2.2 hend hlt ram hholding hflags
    rw [hsettle, changes_finish rfl, hchanges, Flash.changes_read]

/-- The data is settled for the build: its flags are read back, and no later boot erases or
writes anything. -/
def Settles (build : Build) (addrStart addrEnd : Nat) (store : MfgStore Flash) (f : Flash) : Prop :=
  (∃ data, (tlvRead store.tlv f mfgFlagsTypeId mfgFlagsSize).1 = some (0, data) ∧
    (MfgFlags.ofBytes data).initialized = true ∧
    (MfgFlags.ofBytes data).keysInPsa = build.psaKeyStorage) ∧
  ∀ platform store, (sidPalMfgStoreInit build platform (some Flash.storage) addrStart addrEnd store
    f).2.2.changes = f.changes

/-- Where the raw image already shows flags to `tlv_read`, once its elements are copied, they are
those of the build. -/
def ImageFlagsAgree (build : Build) (platform : Platform) (addrStart addrEnd : Nat) (m : Mem) :
    Prop :=
  imageVersion m addrStart = 8 → ∀ ram,
    copyAll build platform (ramTlv (copySize addrStart addrEnd) mfgHeaderSize)
      (rawElements m addrEnd (u32 (addrStart + mfgHeaderSize)))
      (freshCopy platform (copySize addrStart addrEnd)) = .done ram →
    FlagsAgree ram (copySize addrStart addrEnd) build.migratedFlags

/-- The same in the elements of the image: the first one under the flags tag that is not empty. -/
def ElementFlagsAgree (build : Build) (addrStart addrEnd : Nat) (m : Mem) : Prop :=
  imageVersion m addrStart = 8 → ∀ e,
    ((rawElements m addrEnd (u32 (addrStart + mfgHeaderSize))).filterMap build.copied).find?
      (·.type = mfgFlagsTypeId) = some e →
    MfgFlags.ofBytes e.data = build.migratedFlags

/-- What a settled copy in the partition shows to a read. -/
theorem read_flags_iff (hend : addrEnd + 65544 ≤ 2 ^ 32) (hlt : addrStart < addrEnd) {ram : Mem}
    (hholding : Holding f.mem addrStart (copySize addrStart addrEnd) ram) :
    (∃ data, (tlvRead (tlvFlash Flash.storage addrStart addrEnd) f mfgFlagsTypeId
        mfgFlagsSize).1 = some (0, data) ∧ (MfgFlags.ofBytes data).initialized = true ∧
        (MfgFlags.ofBytes data).keysInPsa = build.psaKeyStorage) ↔
      ShowsFlags ram (copySize addrStart addrEnd) build.migratedFlags := by
  obtain ⟨f₁, hread, -⟩ := @tlvRead_holding Flash (tlvFlash Flash.storage addrStart addrEnd)
    Flash.mem ram Flash.faultFree.toFaultFree rfl hend hlt f hholding mfgFlagsTypeId mfgFlagsSize
  rw [hread]
  change (∃ data, some (readFlags ram (copySize addrStart addrEnd)) = some (0, data) ∧ _) ↔ _
  unfold ShowsFlags
  constructor
  · rintro ⟨data, hdata, hinit, hkeys⟩
    refine ⟨data, Option.some.inj hdata, ?_⟩
    rcases hflags : MfgFlags.ofBytes data with ⟨keysInPsa, initialized⟩
    rw [hflags] at hinit hkeys
    simp only at hinit hkeys
    rw [hinit, hkeys]
    rfl
  · rintro ⟨data, hdata, hflags⟩
    refine ⟨data, congrArg some hdata, ?_, ?_⟩
    · rw [hflags]
      rfl
    · rw [hflags]
      rfl

theorem constElements_rows {m : Mem} : ∀ element ∈ constElements m addrStart
    build.valueToOffsetTable, element.1 ≠ emptyType ∧ element.1 ≠ mfgFlagsTypeId ∧
      0 < element.2.length ∧ element.2.length < 256 := by
  have hrows : ∀ row ∈ offsetRows, row.1 ≠ emptyType ∧ row.1 ≠ mfgFlagsTypeId ∧
      0 < row.2.1 ∧ row.2.1 < 256 := by decide
  intro element hmem
  obtain ⟨row, hrow, rfl⟩ := List.mem_map.mp (List.mem_of_mem_filter hmem)
  obtain ⟨entry, hentry, rfl⟩ := List.mem_map.mp hrow
  rw [Mem.length_slice]
  exact hrows entry hentry

theorem freshCopy_filling (platform : Platform) (size : Nat) :
    Filling size (freshCopy platform size) [] :=
  filling_of_stored (.nil fun _ h₁ h₂ => freshCopy_blank platform h₁ h₂) (.inl rfl)

/-- A copy of an older image, which has no flags, shows those that are appended. -/
theorem constElements_agree (hend : addrEnd + 65544 ≤ 2 ^ 32) {m ram : Mem}
    (hcopy : copyAll build platform (ramTlv (copySize addrStart addrEnd) mfgHeaderSize)
      (constElements m addrStart build.valueToOffsetTable)
      (freshCopy platform (copySize addrStart addrEnd)) = .done ram)
    (hfits : ramSlot ram (copySize addrStart addrEnd) + recordSize mfgFlagsSize ≤
      copySize addrStart addrEnd) :
    FlagsAgree ram (copySize addrStart addrEnd) build.migratedFlags := by
  have hfilled := (freshCopy_filling platform (copySize addrStart addrEnd)).copyAll
    (by unfold copySize; omega)
    (fun element hmem => (constElements_rows element hmem).1)
    (fun element hmem => (constElements_rows element hmem).2.2.2) hcopy
  rw [List.nil_append] at hfilled
  refine (flagsAgree_iff hfilled hfits).mpr fun e he => ?_
  obtain ⟨element, hmem, hcopied⟩ := List.mem_filterMap.mp (List.mem_of_find?_eq_some he)
  have htype : e.type = mfgFlagsTypeId := by simpa using List.find?_some he
  have hcall := call_of_copied hcopied
  rw [← hcall] at hmem
  exact absurd htype (constElements_rows _ hmem).2.1

/-- A boot that migrates settles the data for its build exactly when the raw image it found
showed no other flags. For an image without elements of 256 bytes or more, that is a condition on
its first element under the flags tag. -/
theorem init_settles_iff (hend : addrEnd + 65544 ≤ 2 ^ 32)
    (h : sidPalMfgStoreInit build platform (some Flash.storage) addrStart addrEnd store f =
      (.ready true, store', f')) :
    (Settles build addrStart addrEnd store' f' ↔
      ImageFlagsAgree build platform addrStart addrEnd f.mem) ∧
    ((∀ element ∈ rawElements f.mem addrEnd (u32 (addrStart + mfgHeaderSize)),
        element.2.length < 256) →
      (Settles build addrStart addrEnd store' f' ↔
        ElementFlagsAgree build addrStart addrEnd f.mem)) := by
  obtain ⟨htlv, hlt, ram, hcopy, hfits, hholding⟩ := init_parsed Flash.faultFree hend h
  have hrec : recordSize mfgFlagsSize = 8 := rfl
  have hsettles : Settles build addrStart addrEnd store' f' ↔
      FlagsAgree ram (copySize addrStart addrEnd) build.migratedFlags := by
    rw [← showsFlags_iff hfits, ← read_flags_iff hend hlt hholding, Settles, htlv]
    refine ⟨fun hshown => hshown.1, fun hread => ⟨hread, fun platform store => ?_⟩⟩
    have hheader : f'.mem.slice addrStart mfgHeaderSize = mfgHeader := by
      have hlen : ∀ element ∈ imageElements build f.mem addrStart addrEnd,
          element.2.length < 65536 := by
        intro element hmem
        unfold imageElements at hmem
        split at hmem
        · exact length_rawElements element hmem
        · exact Nat.lt_trans (constElements_rows element hmem).2.2.2 (by decide)
      have hroom : ramSlot ram (copySize addrStart addrEnd) < copySize addrStart addrEnd := by omega
      have hram := @header_of_blit _ _ (record mfgFlagsTypeId build.migratedFlags.toBytes) hroom
        (copyAll_header (by unfold copySize; omega) hlen hcopy
          (freshCopy_header platform (copySize addrStart addrEnd)))
      rw [← hram]
      refine Mem.slice_congr fun i hi => ?_
      rw [Nat.zero_add]
      exact hholding i (by unfold mfgHeaderSize at hi; omega)
    exact init_settled hend hlt hholding hheader ((read_flags_iff hend hlt hholding).mp hread)
  have himage : FlagsAgree ram (copySize addrStart addrEnd) build.migratedFlags ↔
      ImageFlagsAgree build platform addrStart addrEnd f.mem := by
    unfold ImageFlagsAgree
    by_cases hversion : imageVersion f.mem addrStart = 8
    · rw [imageElements, if_pos hversion] at hcopy
      constructor
      · intro hagree _ ram' hcopy'
        rw [hcopy] at hcopy'
        cases hcopy'
        exact hagree
      · intro hagree
        exact hagree hversion ram hcopy
    · rw [imageElements, if_neg hversion] at hcopy
      exact ⟨fun _ hv => absurd hv hversion, fun _ => constElements_agree hend hcopy hfits⟩
  refine ⟨hsettles.trans himage, fun hshort => hsettles.trans ?_⟩
  unfold ElementFlagsAgree
  by_cases hversion : imageVersion f.mem addrStart = 8
  · rw [imageElements, if_pos hversion] at hcopy
    have hfilled := (freshCopy_filling platform (copySize addrStart addrEnd)).copyAll
      (by unfold copySize; omega) tag_rawElements hshort hcopy
    rw [List.nil_append] at hfilled
    rw [flagsAgree_iff hfilled hfits]
    exact ⟨fun hagree _ => hagree, fun hagree => hagree hversion⟩
  · rw [imageElements, if_neg hversion] at hcopy
    exact ⟨fun _ hv => absurd hv hversion, fun _ => constElements_agree hend hcopy hfits⟩

end Boot

/-! ## A change of the key storage -/

/-- A raw image without elements in an erased flash. -/
def emptyImage : Flash where
  mem := Mem.blit (fun _ => 0xFF) 0 mfgHeader
  requests := []

/-- A boot with the flash of a 24-byte partition. -/
def boot (build : Build) (f : Flash) : InitEnd × MfgStore Flash × Flash :=
  sidPalMfgStoreInit build calmPlatform (some Flash.storage) 0 24 .initial f

/-- A raw image with one element of four bytes. -/
def oneElement : Flash where
  mem := Mem.blit (fun _ => 0xFF) 0 (mfgHeader ++ [0, 5, 0, 4, 1, 2, 3, 4])
  requests := []

theorem rawElements_one : rawElements oneElement.mem 24 8 = [(5, [1, 2, 3, 4])] := by
  have hfirst : tagAt oneElement.mem 8 ≠ tagEmpty := by decide +kernel
  have hlast : tagAt oneElement.mem 16 = tagEmpty := by decide +kernel
  have hnext : 8 + 4 + sizeAt oneElement.mem 8 = 16 := by decide +kernel
  have helement : elementAt oneElement.mem 8 = (5, [1, 2, 3, 4]) := by decide +kernel
  rw [rawElements_hop (by decide) hfirst, hnext, rawElements_stop (.inr hlast), helement]

/-- The first boot copies the element and settles the image for its build. -/
theorem init_settles_oneElement :
    Settles defaultBuild 0 24 (boot defaultBuild oneElement).2.1
      (boot defaultBuild oneElement).2.2 := by
  have hready : (boot defaultBuild oneElement).1 = .ready true := by decide +kernel
  have heta : ∀ r : InitEnd × MfgStore Flash × Flash, r.1 = .ready true →
      r = (.ready true, r.2.1, r.2.2) := by
    rintro ⟨_, _, _⟩ rfl
    rfl
  have hfirst : u32 (0 + mfgHeaderSize) = 8 := by decide
  refine ((init_settles_iff (by decide) (heta _ hready)).2 ?_).mpr ?_
  · rw [hfirst, rawElements_one]
    decide
  · intro _
    rw [hfirst, rawElements_one]
    decide

/-- A build with PSA that boots after one without it migrates again, and still reads the flags of
the first. -/
theorem old_flags_hide_new_ones :
    ∃ f, (boot defaultBuild emptyImage).1 = .ready true ∧
      f = (boot defaultBuild emptyImage).2.2 ∧
      (boot { defaultBuild with psaKeyStorage := true } f).1 = .ready true ∧
      ¬Settles { defaultBuild with psaKeyStorage := true } 0 24
        (boot { defaultBuild with psaKeyStorage := true } f).2.1
        (boot { defaultBuild with psaKeyStorage := true } f).2.2 := by
  refine ⟨_, by decide +kernel, rfl, by decide +kernel, ?_⟩
  rintro ⟨⟨data, hread, -, hkeys⟩, -⟩
  have hold : (tlvRead (boot { defaultBuild with psaKeyStorage := true }
      (boot defaultBuild emptyImage).2.2).2.1.tlv (boot { defaultBuild with psaKeyStorage := true }
      (boot defaultBuild emptyImage).2.2).2.2 mfgFlagsTypeId mfgFlagsSize).1 =
      some (0, [0x80, 0, 0, 0]) := by decide +kernel
  rw [hold] at hread
  cases hread
  exact absurd hkeys (by decide)

end Sidewalk.Mfg
