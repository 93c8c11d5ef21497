import Sidewalk.Storage.DeprecatedMfg

/-!
# What the deprecated store gives back

A value that `sid_pal_mfg_store_write` has put into a store with tags, as
`sid_pal_mfg_store_get_length_for_value` and `sid_pal_mfg_store_read` see it. The header of a record
has the length rounded up to words, and where keys are in secure storage four values are not read
from under their own tag.
-/

namespace Sidewalk.Storage

open Sidewalk.Lib

/-! ## The code -/

/-- `value_to_size`. -/
def valueToSize (store : DeprecatedStore) (value : UInt16) : Nat :=
  match deprecatedRows.find? (·.1 = value) with
  | some row => if rowOffset store row = Mfg.invalidOffset then 0 else row.2.1
  | none => 0

/-- `sid_pal_mfg_store_get_length_for_value`. -/
def getLengthForValue (store : DeprecatedStore) (value : UInt16) (d : FlashDev) : Nat :=
  match getVersion store d with
  | (version, d) =>
    if version = tlvVersion then (searchForTag store value d).1.elim 0 TlvInfo.length
    else valueToSize store value

/-- The bytes of the source that the loop of the write copies while the flash takes them. -/
def sourceReads : Nat → Nat → Nat → Nat → List Nat
  | 0, _, _, _ => []
  | fuel + 1, pos, fullLength, length =>
    if fullLength = 0 then []
    else
      let wrLength := min fullLength Mfg.maxFlashWriteLen
      List.range' pos (min wrLength length) ++
        sourceReads fuel (pos + wrLength) (fullLength - wrLength) length

/-! ## What is asked of a write -/

/-- The value reads back, nothing but the source is read, the last word is filled up with 0xFF, and
the values that were there read as before. -/
structure WrittenBack (build : Build) (store : DeprecatedStore) (value : UInt16) (buffer : Mem)
    (length : UInt16) (psa : Psa) (m m' : Mem) : Prop where
  length_eq : getLengthForValue store value (.reliable m') = length.toNat
  read_eq : ∀ out, (storeRead build store value out length.toNat (.reliable m') psa).1.slice 0
    length.toNat = buffer.slice 0 length.toNat
  source : ∀ i ∈ sourceReads (fullLength length) 0 (fullLength length) length.toNat,
    i < length.toNat
  padding : ∀ info, (searchForTag store tlvTagEmpty (.reliable m)).1 = some info → ∀ a,
    info.offset + 4 + length.toNat ≤ a →
      a < info.offset + 4 + expandToMultipleWord length.toNat → m' a = 0xFF
  earlier : ∀ other info, other ≠ tlvTagEmpty →
    (searchForTag store other (.reliable m)).1 = some info →
      getLengthForValue store other (.reliable m') = getLengthForValue store other (.reliable m) ∧
        ∀ out n, (storeRead build store other out n (.reliable m') psa).1 =
          (storeRead build store other out n (.reliable m) psa).1

/-- The record of another value is absent. -/
def Absent (store : DeprecatedStore) (value : UInt16) (m : Mem) : Prop :=
  (searchForTag store value (.reliable m)).1 = none

/-- The read of a private key gives the handle of a key of the PSA. -/
def HandleRead (build : Build) (id : KeyId) (data : List UInt8) (psa : Psa) : Prop :=
  4 ≤ data.length ∧ psa id ≠ none ∧ data = handle build id data.length

/-- The read of a raw key gives what is stored under the private key. -/
def AliasRead (store : DeprecatedStore) (owner : UInt16) (data : List UInt8) (m : Mem) : Prop :=
  match (searchForTag store owner (.reliable m)).1 with
  | some info => data.length ≤ info.length ∧ m.slice (info.offset + 4) data.length = data
  | none => data = List.replicate data.length 0xFF

/-- Reading is not redirected away from the data: a key is in secure storage only as its handle, and
a raw key only as the private key it stands for. -/
def NotRedirected (build : Build) (store : DeprecatedStore) (value : UInt16) (data : List UInt8)
    (psa : Psa) (m : Mem) : Prop :=
  build.psaKeyStorage = true →
    (value = devicePrivEd25519 →
      HandleRead build .mfgEd25519Priv data psa ∧ Absent store devicePrivEd25519Raw m) ∧
    (value = devicePrivP256r1 →
      HandleRead build .mfgSecp256r1Priv data psa ∧ Absent store devicePrivP256r1Raw m) ∧
    (value = devicePrivEd25519Raw → AliasRead store devicePrivEd25519 data m) ∧
    (value = devicePrivP256r1Raw → AliasRead store devicePrivP256r1 data m)

/-! ## What the write does -/

theorem be16_tlvHeader (value : UInt16) {fullLength : Nat} (h : fullLength < 65536) :
    be16 (tlvHeader value fullLength) 0 = value.toNat ∧
      be16 (tlvHeader value fullLength) 2 = fullLength := by
  have hvalue := value.toNat_lt
  constructor
  · simp only [be16, tlvHeader, List.getD_cons_zero, List.getD_cons_succ, UInt16.toNat_toUInt8,
      UInt16.toNat_shiftRight]
    have hshift : value.toNat >>> (UInt16.toNat 8 % 16) = value.toNat / 256 := by
      rw [Nat.shiftRight_eq_div_pow]
      rfl
    rw [hshift]
    omega
  · simp only [be16, tlvHeader, List.getD_cons_zero, List.getD_cons_succ, UInt8.toNat_ofNat']
    omega

theorem reliable_write (m : Mem) (offset : Nat) (data : List UInt8) :
    (FlashDev.reliable m).write offset data = (true, .reliable (m.blit offset data)) := by
  simp [FlashDev.write, FlashDev.reliable]

theorem reliable_version {store : DeprecatedStore} {m : Mem}
    (h : (getVersion store (.reliable m)).1 = tlvVersion) :
    store.flashDev = true ∧ m.slice (store.addrStart + 4) 4 = tlvVersion := by
  refine ⟨?_, version_of_getVersion h⟩
  by_contra hdev
  rw [getVersion, if_neg hdev] at h
  cases h

theorem reliable_getVersion {store : DeprecatedStore} (hdev : store.flashDev = true) (m : Mem) :
    getVersion store (.reliable m) = (m.slice (store.addrStart + 4) 4, .reliable m) := by
  rw [getVersion, if_pos hdev]
  simp [FlashDev.read, FlashDev.reliable]

theorem searchForTag_eq (store : DeprecatedStore) (tag : UInt16) (m : Mem) :
    searchForTag store tag (.reliable m) =
      ((searchForTag store tag (.reliable m)).1, .reliable m) :=
  Prod.ext rfl (dev_searchFrom_reliable ..)

/-- A write that succeeds on a flash that does not fail puts the header at the empty tag and the
chunks behind it. -/
theorem storeWrite_ok {store : DeprecatedStore} {value : UInt16} {buffer : Mem} {length : UInt16}
    {m : Mem} (hversion : (getVersion store (.reliable m)).1 = tlvVersion)
    (hvalue : value ≠ storeVersion)
    (hret : (storeWrite store value buffer length (.reliable m)).1 = 0) :
    length ≠ 0 ∧ value ≠ tlvTagEmpty ∧ Absent store value m ∧
      ∃ empty, (searchForTag store tlvTagEmpty (.reliable m)).1 = some empty ∧
        storeWrite store value buffer length (.reliable m) =
          writeChunks (fullLength length) (empty.offset + 4) buffer 0 (fullLength length)
            length.toNat (.reliable (m.blit empty.offset (tlvHeader value (fullLength length)))) := by
  obtain ⟨hdev, hslice⟩ := reliable_version hversion
  unfold storeWrite at hret ⊢
  have hfail : (-1 : Int) ≠ 0 := by decide
  split at hret
  · exact absurd hret (show errorNosupport ≠ 0 by decide)
  · next hsupport =>
    split at hret
    · exact absurd hret (show errorInvalidArgs ≠ 0 by decide)
    · next hargs =>
      rw [if_neg hsupport, if_neg hargs]
      obtain ⟨hlength, hempty⟩ := not_or.1 hargs
      refine ⟨hlength, hempty, ?_⟩
      simp only [reliable_getVersion hdev, hslice, hvalue, ne_eq, not_false_eq_true, and_self,
        if_true] at hret ⊢
      rw [searchForTag_eq store value] at hret ⊢
      unfold Absent
      cases hsearch : (searchForTag store value (.reliable m)).1 with
      | some info =>
        rw [hsearch] at hret
        exact absurd hret hfail
      | none =>
        rw [hsearch] at hret
        refine ⟨rfl, ?_⟩
        dsimp only at hret ⊢
        rw [searchForTag_eq store tlvTagEmpty] at hret ⊢
        cases hsearchEmpty : (searchForTag store tlvTagEmpty (.reliable m)).1 with
        | none =>
          rw [hsearchEmpty] at hret
          exact absurd hret hfail
        | some empty =>
          rw [hsearchEmpty] at hret
          refine ⟨empty, rfl, ?_⟩
          dsimp only at hret ⊢
          split at hret
          · exact absurd hret hfail
          · next hroom =>
            rw [if_neg hroom, reliable_write]

/-! ## Searching after the write -/

/-- A search that meets its tag nowhere below the empty tag gets there, whatever the flash holds
from there on. -/
theorem searchFrom_prefix {addrEnd address : Nat} {d : FlashDev} {empty : TlvInfo}
    (hempty : (searchFrom addrEnd tlvTagEmpty address d).1 = some empty) {m : Mem}
    (hagree : ∀ a, a < empty.offset → m a = d.mem a) {tag : UInt16}
    (habsent : tag = tlvTagEmpty ∨ (searchFrom addrEnd tag address (.reliable d.mem)).1 = none) :
    (searchFrom addrEnd tag address (.reliable m)).1 =
      (searchFrom addrEnd tag empty.offset (.reliable m)).1 := by
  induction address, d using searchFrom.induct addrEnd tlvTagEmpty with
  | case1 address d hfail =>
    rw [searchFrom, if_pos hfail] at hempty
    cases hempty
  | case2 address d raw hok htag =>
    rw [searchFrom, if_neg hok, if_pos htag] at hempty
    cases hempty
    rfl
  | case3 address d raw hok htag hempty' => exact absurd hempty' htag
  | case4 address d raw next hok htag hempty' hend =>
    rw [searchFrom, if_neg hok, if_neg htag, if_neg hempty', if_pos hend] at hempty
    cases hempty
  | case5 address d raw next hok htag hempty' hend ih =>
    obtain ⟨hbehind, -⟩ := searchFrom_frame hempty hagree
    rw [searchFrom, if_neg hok, if_neg htag, if_neg hempty', if_neg hend] at hempty
    have hraw : raw = d.mem.slice address 4 := FlashDev.read_ok (Bool.eq_true_of_not_eq_false hok)
    rw [hraw] at hempty'
    have hnext : next = address + (4 + expandToMultipleWord (be16 (d.mem.slice address 4) 2)) := by
      rw [← hraw]
    have hbelow : address + 4 ≤ empty.offset :=
      hbehind.resolve_left fun h => hempty' h.2
    have hslice : m.slice address 4 = d.mem.slice address 4 :=
      Mem.slice_congr fun i hi => hagree _ (by omega)
    have hother : ¬be16 (d.mem.slice address 4) 0 = tag.toNat := by
      rcases habsent with rfl | habsent
      · exact hempty'
      · intro hhere
        rw [searchFrom_reliable, if_pos hhere] at habsent
        cases habsent
    have habsent' : tag = tlvTagEmpty ∨
        (searchFrom addrEnd tag next (.reliable d.mem)).1 = none := by
      refine habsent.imp_right fun habsent => ?_
      rw [searchFrom_reliable, if_neg hother, if_neg hempty',
        if_neg (by rw [← hnext]; exact hend), ← hnext] at habsent
      exact habsent
    rw [searchFrom_reliable, hslice, if_neg hother, if_neg hempty',
      if_neg (by rw [← hnext]; exact hend), ← hnext]
    exact ih hempty hagree habsent'

/-- From the empty tag to the end of the store the flash is erased. -/
def ErasedBehind (store : DeprecatedStore) (m : Mem) : Prop :=
  ∀ empty, (searchForTag store tlvTagEmpty (.reliable m)).1 = some empty →
    ∀ a, empty.offset ≤ a → a < store.addrEnd → m a = 0xFF

/-- The flash `m'` has a record in place of the empty tag of `m`. -/
structure Recorded (store : DeprecatedStore) (value : UInt16) (length : Nat) (m m' : Mem)
    (empty : TlvInfo) : Prop where
  found : (searchForTag store tlvTagEmpty (.reliable m)).1 = some empty
  below : ∀ a, a < empty.offset → m' a = m a
  header : m'.slice empty.offset 4 = tlvHeader value length
  behind : ∀ a, empty.offset + 4 + length ≤ a → m' a = m a

section Recorded

variable {store : DeprecatedStore} {value : UInt16} {length : Nat} {m m' : Mem} {empty : TlvInfo}
  (h : Recorded store value length m m' empty)

include h

/-- The search for a tag that was not there gets to the new record. -/
theorem Recorded.search {tag : UInt16} (htag : tag = tlvTagEmpty ∨ Absent store tag m) :
    (searchForTag store tag (.reliable m')).1 =
      (searchFrom store.addrEnd tag empty.offset (.reliable m')).1 :=
  searchFrom_prefix h.found h.below htag

/-- The value is found. -/
theorem Recorded.search_value (hlength : length < 65536) (habsent : Absent store value m) :
    (searchForTag store value (.reliable m')).1 = some ⟨length, empty.offset⟩ := by
  obtain ⟨htag, hlen⟩ := be16_tlvHeader value hlength
  rw [h.search (.inr habsent), searchFrom_reliable, h.header, htag, if_pos rfl, hlen]

/-- What the search comes to behind the new record. -/
theorem Recorded.search_behind (hlength : length < 65536) (hwords : length % 4 = 0)
    (hvalue : value ≠ tlvTagEmpty) (herased : ErasedBehind store m) {tag : UInt16}
    (htag : tag = tlvTagEmpty ∨ Absent store tag m) (hne : tag ≠ value) :
    (searchForTag store tag (.reliable m')).1 =
      if store.addrEnd < empty.offset + (4 + length) + 4 + 4 then none
      else if tag = tlvTagEmpty then some ⟨0xFFFF, empty.offset + (4 + length)⟩ else none := by
  obtain ⟨hheader, hlen⟩ := be16_tlvHeader value hlength
  have hexpand : expandToMultipleWord length = length := by
    unfold expandToMultipleWord
    omega
  rw [h.search htag, searchFrom_reliable, h.header, hheader, hlen, hexpand,
    if_neg fun heq => hne (UInt16.toNat_inj.1 heq.symm),
    if_neg fun heq => hvalue (UInt16.toNat_inj.1 heq)]
  split
  · rfl
  · next hroom =>
    have hff : m'.slice (empty.offset + (4 + length)) 4 = [0xFF, 0xFF, 0xFF, 0xFF] := by
      refine Mem.slice_const fun a hlo hhi => ?_
      rw [h.behind a (by omega)]
      exact herased empty h.found a (by omega) (by omega)
    rw [searchFrom_reliable, hff]
    have h0 : be16 [0xFF, 0xFF, 0xFF, 0xFF] 0 = tlvTagEmpty.toNat := by decide
    have h2 : be16 [0xFF, 0xFF, 0xFF, 0xFF] 2 = 0xFFFF := by decide
    rw [h0, h2]
    by_cases hempty : tag = tlvTagEmpty
    · rw [if_pos (by rw [hempty]), if_pos hempty]
    · rw [if_neg fun heq => hempty (UInt16.toNat_inj.1 heq.symm), if_pos rfl, if_neg hempty]

/-- The records that were there are found as before, and their bytes are the same. -/
theorem Recorded.search_other {tag : UInt16} {info : TlvInfo} (hne : tag ≠ tlvTagEmpty)
    (hfound : (searchForTag store tag (.reliable m)).1 = some info) :
    (searchForTag store tag (.reliable m')).1 = some info ∧
      ∀ n ≤ info.length, m'.slice (info.offset + 4) n = m.slice (info.offset + 4) n := by
  obtain ⟨-, hfinds⟩ := searchFrom_frame h.found h.below
  obtain ⟨hfound', hle⟩ := hfinds tag info hne hfound
  exact ⟨hfound', fun n hn => Mem.slice_congr fun i hi => h.below _ (by omega)⟩

/-- The empty tag moves behind the record, and the rest stays erased. -/
theorem Recorded.erased (hlength : length < 65536) (hwords : length % 4 = 0)
    (hvalue : value ≠ tlvTagEmpty) (herased : ErasedBehind store m) : ErasedBehind store m' := by
  intro empty' hfound a hlo hhi
  rw [h.search_behind hlength hwords hvalue herased (.inl rfl) hvalue.symm, if_pos rfl] at hfound
  split at hfound
  · cases hfound
  · cases hfound
    rw [h.behind a (by dsimp only at hlo; omega)]
    exact herased empty h.found a (by dsimp only at hlo; omega) hhi

end Recorded

/-! ## The record that is written -/

theorem fullLength_lt (length : UInt16) : fullLength length < 65536 := Nat.mod_lt _ (by decide)

theorem fullLength_words (length : UInt16) : fullLength length % 4 = 0 := by
  unfold fullLength expandToMultipleWord
  omega

/-- The length in the header is that of the value exactly for whole words. -/
theorem fullLength_eq_iff (length : UInt16) :
    fullLength length = length.toNat ↔ length.toNat % 4 = 0 := by
  have := length.toNat_lt
  unfold fullLength expandToMultipleWord
  omega

/-- The chunks come to as many bytes as the rounded-up length; they are those of the source when
the source has so many. -/
theorem writeChunks_reliable {fuel full : Nat} (hfuel : full ≤ fuel) (address : Nat) (buffer : Mem)
    (pos length : Nat) (m : Mem) :
    ∃ bytes : List UInt8, bytes.length = full ∧
      writeChunks fuel address buffer pos full length (.reliable m) =
        (0, .reliable (m.blit address bytes)) ∧
      (full ≤ length → bytes = buffer.slice pos full) := by
  induction fuel generalizing full address pos m with
  | zero =>
    obtain rfl : full = 0 := by omega
    exact ⟨[], rfl, by rw [writeChunks, Mem.blit_nil], fun _ => rfl⟩
  | succ fuel ih =>
    by_cases hzero : full = 0
    · subst hzero
      exact ⟨[], rfl, by rw [writeChunks, if_pos rfl, Mem.blit_nil], fun _ => rfl⟩
    · rw [writeChunks, if_neg hzero]
      have hmax : 0 < Mfg.maxFlashWriteLen := by decide
      generalize hwr : min full Mfg.maxFlashWriteLen = wr
      generalize hchunk : buffer.slice pos (min wr length) ++
        List.replicate (wr - (buffer.slice pos (min wr length)).length) 0xFF = chunk
      have hlen : chunk.length = wr := by
        rw [← hchunk, List.length_append, List.length_replicate, Mem.length_slice]
        omega
      obtain ⟨bytes, hbytes, heq, hsource⟩ := ih (show full - wr ≤ fuel by omega) (address + wr)
        (pos + wr) (m.blit address chunk)
      refine ⟨chunk ++ bytes, ?_, ?_, fun hle => ?_⟩
      · rw [List.length_append, hlen, hbytes]
        omega
      · dsimp only
        rw [hchunk, reliable_write]
        dsimp only
        rw [heq, Mem.blit_append, hlen]
      · have hmin : min wr length = wr := by omega
        rw [hmin, Mem.length_slice, Nat.sub_self, List.replicate_zero, List.append_nil] at hchunk
        rw [← hchunk, hsource (by omega), ← Mem.slice_add]
        congr 1
        omega

theorem sourceReads_lt (fuel pos full length : Nat) :
    ∀ i ∈ sourceReads fuel pos full length, i < pos + full := by
  induction fuel generalizing pos full with
  | zero => exact fun i hi => nomatch hi
  | succ fuel ih =>
    intro i hi
    rw [sourceReads] at hi
    split at hi
    · exact nomatch hi
    · dsimp only at hi
      rcases List.mem_append.1 hi with hi | hi
      · have := List.mem_range'_1.1 hi
        omega
      · have := ih _ _ i hi
        omega

/-- A write that succeeds records the value, and the bytes of the source if they are whole words. -/
theorem storeWrite_recorded {store : DeprecatedStore} {value : UInt16} {buffer : Mem}
    {length : UInt16} {m : Mem} (hversion : (getVersion store (.reliable m)).1 = tlvVersion)
    (hvalue : value ≠ storeVersion)
    (hret : (storeWrite store value buffer length (.reliable m)).1 = 0) :
    ∃ empty, Recorded store value (fullLength length) m
        (storeWrite store value buffer length (.reliable m)).2.mem empty ∧
      (length.toNat % 4 = 0 →
        (storeWrite store value buffer length (.reliable m)).2.mem.slice (empty.offset + 4)
          length.toNat = buffer.slice 0 length.toNat) := by
  obtain ⟨-, -, -, empty, hfound, heq⟩ := storeWrite_ok hversion hvalue hret
  obtain ⟨bytes, hbytes, hchunks, hsource⟩ := writeChunks_reliable le_rfl (empty.offset + 4) buffer
    0 length.toNat (m.blit empty.offset (tlvHeader value (fullLength length)))
  have hmem : (storeWrite store value buffer length (.reliable m)).2.mem =
      (m.blit empty.offset (tlvHeader value (fullLength length))).blit (empty.offset + 4) bytes := by
    rw [heq, hchunks]
    rfl
  have hheader : (tlvHeader value (fullLength length)).length = 4 := rfl
  rw [hmem]
  refine ⟨empty, ⟨hfound, fun a ha => ?_, ?_, fun a ha => ?_⟩, fun hwords => ?_⟩
  · rw [Mem.blit_below (by omega), Mem.blit_below ha]
  · rw [(Mem.agree_blit_below _ bytes le_rfl).slice (Nat.zero_le _) le_rfl]
    exact Mem.slice_blit m empty.offset (tlvHeader value (fullLength length))
  · rw [Mem.blit_above (by omega), Mem.blit_above (by omega)]
  · have hfull := (fullLength_eq_iff length).2 hwords
    rw [← hfull, ← hsource hfull.le, ← hbytes, Mem.slice_blit]

/-- A write succeeds where its tag is absent and there is room at the empty tag. -/
theorem storeWrite_succeeds {store : DeprecatedStore} {value : UInt16} (buffer : Mem)
    {length : UInt16} {m : Mem} {empty : TlvInfo} (hsupport : store.writeSupport = true)
    (hversion : (getVersion store (.reliable m)).1 = tlvVersion) (hvalue : value ≠ storeVersion)
    (hvalue' : value ≠ tlvTagEmpty) (hlength : length ≠ 0) (habsent : Absent store value m)
    (hempty : (searchForTag store tlvTagEmpty (.reliable m)).1 = some empty)
    (hroom : empty.offset + 4 + fullLength length ≤ store.addrEnd) :
    (storeWrite store value buffer length (.reliable m)).1 = 0 := by
  obtain ⟨hdev, hslice⟩ := reliable_version hversion
  have hsupport' : ¬ store.writeSupport = false := by simp [hsupport]
  rw [storeWrite, if_neg hsupport', if_neg (not_or.2 ⟨hlength, hvalue'⟩)]
  simp only [reliable_getVersion hdev, hslice, hvalue, ne_eq, not_false_eq_true, and_self, if_true]
  rw [searchForTag_eq store value, habsent]
  dsimp only
  rw [searchForTag_eq store tlvTagEmpty, hempty]
  dsimp only
  rw [if_neg (not_lt.2 hroom), reliable_write]
  dsimp only
  obtain ⟨bytes, -, heq, -⟩ := writeChunks_reliable le_rfl (empty.offset + 4) buffer 0 length.toNat
    (m.blit empty.offset (tlvHeader value (fullLength length)))
  rw [heq]

/-! ## Contents of the flash -/

/-- A partition that has been erased and given the version of tags. -/
def Versioned (store : DeprecatedStore) (m : Mem) : Prop :=
  m.slice (store.addrStart + 4) 4 = tlvVersion ∧
    ∀ a, store.addrStart + 8 ≤ a → a < store.addrEnd → m a = 0xFF

/-- The contents that successful writes of values reach. -/
inductive Written (store : DeprecatedStore) : Mem → Prop
  | versioned {m : Mem} : Versioned store m → Written store m
  | write {m : Mem} (value : UInt16) (buffer : Mem) (length : UInt16) : Written store m →
      value ≠ storeVersion → (storeWrite store value buffer length (.reliable m)).1 = 0 →
      Written store (storeWrite store value buffer length (.reliable m)).2.mem

theorem getVersion_tlv {store : DeprecatedStore} {m : Mem} (hdev : store.flashDev = true)
    (h : m.slice (store.addrStart + 4) 4 = tlvVersion) :
    (getVersion store (.reliable m)).1 = tlvVersion := by
  rw [reliable_getVersion hdev]
  exact h

/-- What every content that is reached has: the version, and nothing behind the records. -/
theorem Written.kept {store : DeprecatedStore} (hdev : store.flashDev = true) {m : Mem}
    (h : Written store m) :
    m.slice (store.addrStart + 4) 4 = tlvVersion ∧ ErasedBehind store m := by
  induction h with
  | @versioned m h =>
    refine ⟨h.1, fun empty hfound a hlo hhi => h.2 a ?_ hhi⟩
    have hstart := version_below h.1 hfound
    omega
  | @write m value buffer length _ hvalue hret ih =>
    have hversion := getVersion_tlv hdev ih.1
    obtain ⟨-, hempty, -⟩ := storeWrite_ok hversion hvalue hret
    obtain ⟨empty, hrecorded, -⟩ := storeWrite_recorded hversion hvalue hret
    refine ⟨?_, hrecorded.erased (fullLength_lt length) (fullLength_words length) hempty ih.2⟩
    rw [version_kept ih.1 hrecorded.found hrecorded.below]
    exact ih.1

/-! ## Reading back -/

/-- What a read of the flash of a store with tags leaves in the destination. -/
def readTag (store : DeprecatedStore) (value : UInt16) (out : Mem) (n : Nat) (m : Mem) : Mem :=
  match (searchForTag store value (.reliable m)).1 with
  | some info => if info.length < n then out else out.blit 0 (m.slice (info.offset + 4) n)
  | none => out.fill 0 n 0xFF

theorem readFlash_tlv {store : DeprecatedStore} {m : Mem} (hdev : store.flashDev = true)
    (hversion : m.slice (store.addrStart + 4) 4 = tlvVersion) {value : UInt16}
    (hvalue : value ≠ storeVersion) (out : Mem) (n : Nat) :
    (readFlash store value out n (.reliable m)).1 = readTag store value out n m := by
  unfold readFlash readTag
  simp only [reliable_getVersion hdev, hversion, if_true, hvalue, if_false]
  rw [searchForTag_eq]
  cases (searchForTag store value (.reliable m)).1 with
  | none => rfl
  | some info =>
    dsimp only
    split
    · rfl
    · rfl

theorem readFlash_version {store : DeprecatedStore} {m m' : Mem} (hdev : store.flashDev = true)
    (hversion : m.slice (store.addrStart + 4) 4 = tlvVersion)
    (hversion' : m'.slice (store.addrStart + 4) 4 = tlvVersion) (out : Mem) (n : Nat) :
    (readFlash store storeVersion out n (.reliable m')).1 =
      (readFlash store storeVersion out n (.reliable m)).1 := by
  unfold readFlash
  simp only [reliable_getVersion hdev, hversion, hversion', if_true]

theorem getLengthForValue_tlv {store : DeprecatedStore} {m : Mem} (hdev : store.flashDev = true)
    (hversion : m.slice (store.addrStart + 4) 4 = tlvVersion) (value : UInt16) :
    getLengthForValue store value (.reliable m) =
      (searchForTag store value (.reliable m)).1.elim 0 TlvInfo.length := by
  unfold getLengthForValue
  simp only [reliable_getVersion hdev, hversion, if_true]

theorem slice_fill (out : Mem) (n : Nat) (b : UInt8) :
    (out.fill 0 n b).slice 0 n = List.replicate n b :=
  Mem.slice_const fun _ hlo hhi => Mem.fill_inside hlo hhi

/-- A destination that is left alone does not hold the data, whatever was in it. -/
theorem not_untouched {n : Nat} (hn : n ≠ 0) (data : List UInt8) :
    ¬ ∀ out : Mem, out.slice 0 n = data := by
  intro h
  have h0 := h fun _ => 0
  have h1 := h fun _ => 1
  rw [Mem.slice_const (b := 0) fun _ _ _ => rfl] at h0
  rw [Mem.slice_const (b := 1) fun _ _ _ => rfl, ← h0] at h1
  obtain ⟨n, rfl⟩ := Nat.exists_eq_succ_of_ne_zero hn
  simp [List.replicate_succ] at h1

theorem handleRead_iff {build : Build} {id : KeyId} {data : List UInt8} {psa : Psa}
    (hdata : data.length ≠ 0) :
    (∀ out : Mem, (((bufferSet build id data.length psa).2).elim out (out.blit 0)).slice 0
      data.length = data) ↔ HandleRead build id data psa := by
  unfold bufferSet HandleRead
  by_cases hsize : data.length < 4
  · simp only [hsize, if_true, Option.elim_none]
    exact iff_of_false (not_untouched hdata data) (fun h => by omega)
  · by_cases hkey : psa id = none
    · simp only [hsize, hkey, if_false, if_true, Option.elim_none]
      exact iff_of_false (not_untouched hdata data) (fun h => h.2.1 rfl)
    · simp only [hsize, hkey, if_false, Option.elim_some]
      have hlen : (handle build id data.length).length = data.length := by
        simp only [handle, leBytes4, List.length_append, List.length_cons, List.length_nil,
          List.length_replicate]
        omega
      have hread : ∀ out : Mem, (out.blit 0 (handle build id data.length)).slice 0 data.length =
          handle build id data.length := fun out => by
        have := Mem.slice_blit out 0 (handle build id data.length)
        rwa [hlen] at this
      simp only [hread]
      exact ⟨fun h => ⟨by omega, hkey, (h fun _ => 0).symm⟩, fun h _ => h.2.2.symm⟩

theorem aliasRead_iff {store : DeprecatedStore} {owner : UInt16} {data : List UInt8} {m : Mem}
    (hdata : data.length ≠ 0) :
    (∀ out : Mem, (readTag store owner out data.length m).slice 0 data.length = data) ↔
      AliasRead store owner data m := by
  unfold readTag AliasRead
  cases (searchForTag store owner (.reliable m)).1 with
  | none =>
    simp only [slice_fill]
    exact ⟨fun h => (h fun _ => 0).symm, fun h _ => h.symm⟩
  | some info =>
    dsimp only
    by_cases hlen : info.length < data.length
    · simp only [hlen, if_true]
      exact iff_of_false (not_untouched hdata data) (fun h => by omega)
    · simp only [hlen, if_false]
      have hread : ∀ out : Mem, (out.blit 0 (m.slice (info.offset + 4) data.length)).slice 0
          data.length = m.slice (info.offset + 4) data.length := fun out => by
        have := Mem.slice_blit out 0 (m.slice (info.offset + 4) data.length)
        rwa [Mem.length_slice] at this
      simp only [hread]
      exact ⟨fun h => ⟨by omega, h fun _ => 0⟩, fun h _ => h.2⟩

/-- A tag that is not the new one reads as before. -/
theorem Recorded.readTag_other {store : DeprecatedStore} {value : UInt16} {length : Nat}
    {m m' : Mem} {empty : TlvInfo} (h : Recorded store value length m m' empty)
    (hlength : length < 65536) (hwords : length % 4 = 0) (hvalue : value ≠ tlvTagEmpty)
    (herased : ErasedBehind store m) {tag : UInt16} (hempty : tag ≠ tlvTagEmpty)
    (hne : tag ≠ value) (out : Mem) (n : Nat) :
    readTag store tag out n m' = readTag store tag out n m := by
  unfold readTag
  cases hfound : (searchForTag store tag (.reliable m)).1 with
  | none =>
    rw [h.search_behind hlength hwords hvalue herased (.inr hfound) hne, if_neg hempty, ite_self]
  | some info =>
    obtain ⟨hfound', hslice⟩ := h.search_other hempty hfound
    rw [hfound']
    dsimp only
    split
    · rfl
    · rw [hslice n (by omega)]

/-- The tag a read looks for. -/
def readValue (build : Build) (value : UInt16) : UInt16 :=
  if build.psaKeyStorage then rawValue value else value

/-- A read that does not go to the PSA. -/
theorem storeRead_flash {build : Build} {store : DeprecatedStore} {value : UInt16}
    (hflash : build.psaKeyStorage = true → value ≠ devicePrivEd25519 ∧ value ≠ devicePrivP256r1)
    (out : Mem) (n : Nat) (d : FlashDev) (psa : Psa) :
    storeRead build store value out n d psa =
      readFlash store (readValue build value) out n d := by
  rw [storeRead, if_neg fun h => (hflash h.1).1 h.2, if_neg fun h => (hflash h.1).2 h.2]
  rfl

theorem readValue_ne_version {build : Build} {value : UInt16} (h : value ≠ storeVersion) :
    readValue build value ≠ storeVersion := by
  unfold readValue rawValue
  split_ifs
  · decide
  · decide
  · exact h
  · exact h

theorem readValue_ne_empty {build : Build} {value : UInt16} (h : value ≠ tlvTagEmpty) :
    readValue build value ≠ tlvTagEmpty := by
  unfold readValue rawValue
  split_ifs
  · decide
  · decide
  · exact h
  · exact h

/-- A write needs the flash device. -/
theorem storeWrite_dev {store : DeprecatedStore} {value : UInt16} {buffer : Mem} {length : UInt16}
    {m : Mem} (hret : (storeWrite store value buffer length (.reliable m)).1 = 0) :
    store.flashDev = true := by
  by_contra hdev
  have hversion : getVersion store (.reliable m) = ([0, 0, 0, 0], .reliable m) := by
    rw [getVersion, if_neg hdev]
  have htlv : ¬ ([0, 0, 0, 0] = tlvVersion ∧ value ≠ storeVersion) := fun h => nomatch h.1
  unfold storeWrite at hret
  simp only [hversion, htlv, if_false] at hret
  split_ifs at hret
  · exact (show errorNosupport ≠ 0 by decide) hret
  · exact (show errorInvalidArgs ≠ 0 by decide) hret
  · exact (show errorOutOfResources ≠ 0 by decide) hret
  · exact (show errorIncompatibleParams ≠ 0 by decide) hret
  · cases hoffset : valueToOffset store value with
    | none =>
      rw [hoffset] at hret
      exact (show errorNotFound ≠ 0 by decide) hret
    | some offset =>
      rw [hoffset] at hret
      exact (show errorUninitialized ≠ 0 by decide) hret

section Write

variable {build : Build} {store : DeprecatedStore} {value : UInt16} {buffer : Mem}
  {length : UInt16} {psa : Psa} {m m' : Mem} {empty : TlvInfo}

/-- What is known after a write that has succeeded: the record is there and so are the bytes. -/
structure Landed (store : DeprecatedStore) (value : UInt16) (buffer : Mem) (length : UInt16)
    (m m' : Mem) (empty : TlvInfo) : Prop where
  dev : store.flashDev = true
  version : m.slice (store.addrStart + 4) 4 = tlvVersion
  version' : m'.slice (store.addrStart + 4) 4 = tlvVersion
  erased : ErasedBehind store m
  recorded : Recorded store value (fullLength length) m m' empty
  absent : Absent store value m
  value_ne : value ≠ storeVersion
  value_ne_empty : value ≠ tlvTagEmpty
  length_ne : length.toNat ≠ 0
  payload : length.toNat % 4 = 0 →
    m'.slice (empty.offset + 4) length.toNat = buffer.slice 0 length.toNat

variable (h : Landed store value buffer length m m' empty)

include h

theorem Landed.search_value :
    (searchForTag store value (.reliable m')).1 = some ⟨fullLength length, empty.offset⟩ :=
  h.recorded.search_value (fullLength_lt length) h.absent

theorem Landed.readTag_other {tag : UInt16} (hempty : tag ≠ tlvTagEmpty) (hne : tag ≠ value)
    (out : Mem) (n : Nat) : readTag store tag out n m' = readTag store tag out n m :=
  h.recorded.readTag_other (fullLength_lt length) (fullLength_words length) h.value_ne_empty
    h.erased hempty hne out n

theorem Landed.length_iff :
    getLengthForValue store value (.reliable m') = length.toNat ↔ length.toNat % 4 = 0 := by
  rw [getLengthForValue_tlv h.dev h.version', h.search_value]
  exact fullLength_eq_iff length

/-- A read of the new value from under its own tag. -/
theorem Landed.readTag_value (hwords : length.toNat % 4 = 0) (out : Mem) :
    (readTag store value out length.toNat m').slice 0 length.toNat =
      buffer.slice 0 length.toNat := by
  have hread := Mem.slice_blit out 0 (m'.slice (empty.offset + 4) length.toNat)
  rw [Mem.length_slice] at hread
  rw [readTag, h.search_value]
  simp only [(fullLength_eq_iff length).2 hwords, lt_irrefl, if_false]
  rw [hread, h.payload hwords]

/-- When the value reads back. -/
theorem Landed.read_iff (hwords : length.toNat % 4 = 0) :
    (∀ out, (storeRead build store value out length.toNat (.reliable m') psa).1.slice 0
        length.toNat = buffer.slice 0 length.toNat) ↔
      (build.psaKeyStorage = true →
        (value = devicePrivEd25519 →
          HandleRead build .mfgEd25519Priv (buffer.slice 0 length.toNat) psa) ∧
        (value = devicePrivP256r1 →
          HandleRead build .mfgSecp256r1Priv (buffer.slice 0 length.toNat) psa) ∧
        (value = devicePrivEd25519Raw →
          AliasRead store devicePrivEd25519 (buffer.slice 0 length.toNat) m) ∧
        (value = devicePrivP256r1Raw →
          AliasRead store devicePrivP256r1 (buffer.slice 0 length.toNat) m)) := by
  generalize hdata : buffer.slice 0 length.toNat = data
  have hlen : data.length = length.toNat := by rw [← hdata, Mem.length_slice]
  have hdata0 : data.length ≠ 0 := by rw [hlen]; exact h.length_ne
  have hown : ∀ out, (readTag store value out length.toNat m').slice 0 length.toNat = data :=
    fun out => (h.readTag_value hwords out).trans hdata
  -- the flash is read under the tag that stands for the value
  have hflash : (build.psaKeyStorage = true →
      value ≠ devicePrivEd25519 ∧ value ≠ devicePrivP256r1) → ∀ out,
      (storeRead build store value out length.toNat (.reliable m') psa).1 =
        readTag store (readValue build value) out length.toNat m' := fun hplain out => by
    rw [storeRead_flash hplain,
      readFlash_tlv h.dev h.version' (readValue_ne_version h.value_ne)]
  cases hpsa : build.psaKeyStorage with
  | false =>
    have hvalue : readValue build value = value := by rw [readValue, hpsa]; rfl
    refine iff_of_true (fun out => ?_) (fun h => nomatch h)
    rw [hflash (fun h => absurd (hpsa.symm.trans h) Bool.false_ne_true), hvalue]
    exact hown out
  | true =>
    have hvalue : readValue build value = rawValue value := by rw [readValue, hpsa]; rfl
    by_cases hed : value = devicePrivEd25519
    · subst hed
      have hread : (∀ out, (storeRead build store devicePrivEd25519 out length.toNat
          (.reliable m') psa).1.slice 0 length.toNat = data) ↔
            HandleRead build .mfgEd25519Priv data psa := by
        rw [← handleRead_iff hdata0]
        refine forall_congr' fun out => ?_
        rw [storeRead, if_pos ⟨hpsa, rfl⟩, hlen]
      rw [hread]
      exact ⟨fun h _ => ⟨fun _ => h, fun h => absurd h (by decide), fun h => absurd h (by decide),
        fun h => absurd h (by decide)⟩, fun h => (h rfl).1 rfl⟩
    by_cases hp256 : value = devicePrivP256r1
    · subst hp256
      have hread : (∀ out, (storeRead build store devicePrivP256r1 out length.toNat
          (.reliable m') psa).1.slice 0 length.toNat = data) ↔
            HandleRead build .mfgSecp256r1Priv data psa := by
        rw [← handleRead_iff hdata0]
        refine forall_congr' fun out => ?_
        rw [storeRead, if_neg fun h => hed h.2, if_pos ⟨hpsa, rfl⟩, hlen]
      rw [hread]
      exact ⟨fun h _ => ⟨fun h => absurd h (by decide), fun _ => h, fun h => absurd h (by decide),
        fun h => absurd h (by decide)⟩, fun h => (h rfl).2.1 rfl⟩
    simp only [hflash fun _ => ⟨hed, hp256⟩, hvalue, hed, hp256, false_imp_iff, true_and,
      true_imp_iff]
    by_cases hedRaw : value = devicePrivEd25519Raw
    · have hne : devicePrivEd25519 ≠ value := fun h => hed h.symm
      have hraw : rawValue value = devicePrivEd25519 := by rw [hedRaw]; rfl
      simp only [hraw, h.readTag_other (by decide) hne, ← hlen]
      rw [aliasRead_iff hdata0]
      refine ⟨fun h => ⟨fun _ => h, fun h => ?_⟩, fun h => h.1 hedRaw⟩
      exact absurd (hedRaw.symm.trans h) (by decide)
    by_cases hp256Raw : value = devicePrivP256r1Raw
    · have hne : devicePrivP256r1 ≠ value := fun h => hp256 h.symm
      have hraw : rawValue value = devicePrivP256r1 := by rw [hp256Raw]; rfl
      simp only [hraw, h.readTag_other (by decide) hne, ← hlen]
      rw [aliasRead_iff hdata0]
      exact ⟨fun h => ⟨fun h => absurd h hedRaw, fun _ => h⟩, fun h => h.2 hp256Raw⟩
    · have hraw : rawValue value = value := by rw [rawValue, if_neg hedRaw, if_neg hp256Raw]
      simp only [hraw]
      exact iff_of_true hown ⟨fun h => absurd h hedRaw, fun h => absurd h hp256Raw⟩

/-- When the values that were there read as before: a raw key that was there must not get a private
key to stand for. -/
theorem Landed.earlier_iff :
    (∀ other info, other ≠ tlvTagEmpty → (searchForTag store other (.reliable m)).1 = some info →
      getLengthForValue store other (.reliable m') = getLengthForValue store other (.reliable m) ∧
        ∀ out n, (storeRead build store other out n (.reliable m') psa).1 =
          (storeRead build store other out n (.reliable m) psa).1) ↔
      (build.psaKeyStorage = true →
        (value = devicePrivEd25519 → Absent store devicePrivEd25519Raw m) ∧
        (value = devicePrivP256r1 → Absent store devicePrivP256r1Raw m)) := by
  -- a raw value and the value it stands for
  have hraw : ∀ raw, rawValue raw = value → raw ≠ value → raw ≠ tlvTagEmpty →
      build.psaKeyStorage = true → raw ≠ devicePrivEd25519 → raw ≠ devicePrivP256r1 →
      raw ≠ storeVersion →
      (∀ out n, (storeRead build store raw out n (.reliable m') psa).1 =
        (storeRead build store raw out n (.reliable m) psa).1) → False := by
    intro raw hstands hne hempty hpsa hed hp256 hversion hsame
    have hread : readValue build raw = value := by rw [readValue, if_pos hpsa, hstands]
    have hsame' := hsame (fun _ => 0) (fullLength length + 1)
    rw [storeRead_flash fun _ => ⟨hed, hp256⟩, storeRead_flash fun _ => ⟨hed, hp256⟩, hread,
      readFlash_tlv h.dev h.version' h.value_ne, readFlash_tlv h.dev h.version h.value_ne,
      readTag, readTag, h.search_value, h.absent] at hsame'
    simp only [Nat.lt_succ_self, if_true] at hsame'
    have hfirst := congrFun hsame' 0
    rw [Mem.fill_inside (Nat.le_refl 0) (by omega)] at hfirst
    exact absurd hfirst (by decide)
  constructor
  · intro hearlier hpsa
    constructor
    · rintro rfl
      cases hfound : (searchForTag store devicePrivEd25519Raw (.reliable m)).1 with
      | none => exact hfound
      | some info =>
        exact (hraw devicePrivEd25519Raw rfl (by decide) (by decide) hpsa (by decide) (by decide)
          (by decide) (hearlier _ info (by decide) hfound).2).elim
    · rintro rfl
      cases hfound : (searchForTag store devicePrivP256r1Raw (.reliable m)).1 with
      | none => exact hfound
      | some info =>
        exact (hraw devicePrivP256r1Raw rfl (by decide) (by decide) hpsa (by decide) (by decide)
          (by decide) (hearlier _ info (by decide) hfound).2).elim
  · intro hnot other info hempty hfound
    have hne : other ≠ value := by
      rintro rfl
      exact absurd (h.absent.symm.trans hfound) (by simp)
    obtain ⟨hfound', -⟩ := h.recorded.search_other hempty hfound
    refine ⟨?_, fun out n => ?_⟩
    · rw [getLengthForValue_tlv h.dev h.version', getLengthForValue_tlv h.dev h.version, hfound,
        hfound']
    by_cases hsecure : build.psaKeyStorage = true ∧
        (other = devicePrivEd25519 ∨ other = devicePrivP256r1)
    · -- the PSA answers
      obtain ⟨hpsa, rfl | rfl⟩ := hsecure
      · rw [storeRead, storeRead, if_pos ⟨hpsa, rfl⟩, if_pos ⟨hpsa, rfl⟩]
      · have hother : ¬ (build.psaKeyStorage = true ∧ devicePrivP256r1 = devicePrivEd25519) :=
          fun h => absurd h.2 (by decide)
        rw [storeRead, storeRead, if_neg hother, if_neg hother, if_pos ⟨hpsa, rfl⟩,
          if_pos ⟨hpsa, rfl⟩]
    have hflash : build.psaKeyStorage = true →
        other ≠ devicePrivEd25519 ∧ other ≠ devicePrivP256r1 := fun hpsa =>
      ⟨fun h => hsecure ⟨hpsa, .inl h⟩, fun h => hsecure ⟨hpsa, .inr h⟩⟩
    rw [storeRead_flash hflash, storeRead_flash hflash]
    by_cases hversion : other = storeVersion
    · have hread : readValue build other = storeVersion := by
        rw [hversion, readValue]
        split <;> rfl
      rw [hread]
      exact readFlash_version h.dev h.version h.version' out n
    have hreadNe : readValue build other ≠ value := by
      intro hread
      rw [readValue, rawValue] at hread
      split_ifs at hread with hpsa hed hp256
      · have habsent := (hnot hpsa).1 hread.symm
        rw [← hed] at habsent
        exact absurd (habsent.symm.trans hfound) (by simp)
      · have habsent := (hnot hpsa).2 hread.symm
        rw [← hp256] at habsent
        exact absurd (habsent.symm.trans hfound) (by simp)
      · exact hne hread
      · exact hne hread
    rw [readFlash_tlv h.dev h.version' (readValue_ne_version hversion),
      readFlash_tlv h.dev h.version (readValue_ne_version hversion)]
    exact h.readTag_other (readValue_ne_empty hempty) hreadNe out n

end Write

/-- After a write that has succeeded, all that is asked of it holds exactly when the length is a
multiple of the word and secure storage does not redirect the reads. -/
theorem writtenBack_iff {store : DeprecatedStore} {m : Mem} (hm : Written store m) (build : Build)
    (psa : Psa) {value : UInt16} (hvalue : value ≠ storeVersion) (buffer : Mem) (length : UInt16)
    (hret : (storeWrite store value buffer length (.reliable m)).1 = 0) :
    WrittenBack build store value buffer length psa m
        (storeWrite store value buffer length (.reliable m)).2.mem ↔
      length.toNat % 4 = 0 ∧
        NotRedirected build store value (buffer.slice 0 length.toNat) psa m := by
  have hdev := storeWrite_dev hret
  obtain ⟨hslice, herased⟩ := hm.kept hdev
  have hversion := getVersion_tlv hdev hslice
  obtain ⟨hlength, hempty, habsent, -⟩ := storeWrite_ok hversion hvalue hret
  obtain ⟨empty, hrecorded, hpayload⟩ := storeWrite_recorded hversion hvalue hret
  have hslice' := version_kept hslice hrecorded.found hrecorded.below
  have hlength' : length.toNat ≠ 0 := fun h => hlength (UInt16.toNat_inj.1 h)
  have h : Landed store value buffer length m
      (storeWrite store value buffer length (.reliable m)).2.mem empty :=
    ⟨hdev, hslice, hslice'.trans hslice, herased, hrecorded, habsent, hvalue, hempty, hlength',
      hpayload⟩
  constructor
  · intro hback
    have hwords := h.length_iff.1 hback.length_eq
    have hread := (h.read_iff hwords).1 hback.read_eq
    have hearlier := h.earlier_iff.1 hback.earlier
    refine ⟨hwords, fun hpsa => ⟨fun hv => ⟨(hread hpsa).1 hv, (hearlier hpsa).1 hv⟩,
      fun hv => ⟨(hread hpsa).2.1 hv, (hearlier hpsa).2 hv⟩, (hread hpsa).2.2⟩⟩
  · rintro ⟨hwords, hredirect⟩
    refine ⟨h.length_iff.2 hwords, (h.read_iff hwords).2 fun hpsa => ?_, fun i hi => ?_,
      fun info _ a hlo hhi => ?_, h.earlier_iff.2 fun hpsa => ?_⟩
    · obtain ⟨h1, h2, h3⟩ := hredirect hpsa
      exact ⟨fun hv => (h1 hv).1, fun hv => (h2 hv).1, h3⟩
    · have := sourceReads_lt _ _ _ _ i hi
      rwa [Nat.zero_add, (fullLength_eq_iff length).2 hwords] at this
    · -- there is no rest of a word
      unfold expandToMultipleWord at hhi
      omega
    · obtain ⟨h1, h2, -⟩ := hredirect hpsa
      exact ⟨fun hv => (h1 hv).2, fun hv => (h2 hv).2⟩

/-- Keys are not in secure storage. -/
def plainBuild : Build := ⟨false, fun _ => 0, fun _ _ => true⟩

/-- A store of 4096 bytes at the start of the flash. -/
def smallStore : DeprecatedStore := ⟨0, 4096, true, false, true, fun _ => Mfg.invalidOffset⟩

/-- The store erased, with the version of tags. -/
def freshFlash : Mem := fun a => if 4 ≤ a ∧ a < 7 then 0 else if a = 7 then 8 else 0xFF

theorem freshFlash_versioned : Versioned smallStore freshFlash := by
  refine ⟨by decide, fun a hlo _ => ?_⟩
  have hlo' : 8 ≤ a := hlo
  rw [freshFlash, if_neg (by omega), if_neg (by omega)]

/-- On the fresh store every write with room succeeds. -/
theorem freshFlash_write {value : UInt16} (hvalue : value ≠ storeVersion)
    (hvalue' : value ≠ tlvTagEmpty) (buffer : Mem) {length : UInt16} (hlength : length ≠ 0)
    (hroom : 12 + fullLength length ≤ 4096) :
    (storeWrite smallStore value buffer length (.reliable freshFlash)).1 = 0 := by
  have hfirst : freshFlash.slice 8 4 = [0xFF, 0xFF, 0xFF, 0xFF] := by decide
  have hempty : be16 [0xFF, 0xFF, 0xFF, 0xFF] 0 = tlvTagEmpty.toNat := by decide
  have hsearch : ∀ tag, (searchForTag smallStore tag (.reliable freshFlash)).1 =
      if tag = tlvTagEmpty then some ⟨0xFFFF, 8⟩ else none := by
    intro tag
    change (searchFrom 4096 tag 8 (.reliable freshFlash)).1 = _
    rw [searchFrom_reliable, hfirst, hempty]
    by_cases htag : tag = tlvTagEmpty
    · rw [if_pos (by rw [htag]), if_pos htag]
      rfl
    · rw [if_neg fun heq => htag (UInt16.toNat_inj.1 heq.symm), if_pos rfl, if_neg htag]
  have habsent : Absent smallStore value freshFlash := by rw [Absent, hsearch, if_neg hvalue']
  have hfound : (searchForTag smallStore tlvTagEmpty (.reliable freshFlash)).1 =
      some ⟨0xFFFF, 8⟩ := by rw [hsearch, if_pos rfl]
  exact storeWrite_succeeds buffer rfl (getVersion_tlv rfl freshFlash_versioned.1) hvalue hvalue'
    hlength habsent hfound hroom

theorem writtenBack_iff_word :
    WrittenBack plainBuild smallStore 15 (fun _ => 0x5A) 4 (fun _ => none) freshFlash
        (storeWrite smallStore 15 (fun _ => 0x5A) 4 (.reliable freshFlash)).2.mem ↔
      (4 : UInt16).toNat % 4 = 0 ∧
        NotRedirected plainBuild smallStore 15 (Mem.slice (fun _ => 0x5A) 0 (4 : UInt16).toNat)
          (fun _ => none) freshFlash :=
  writtenBack_iff (.versioned freshFlash_versioned) plainBuild (fun _ => none) (by decide)
    (fun _ => 0x5A) 4 (freshFlash_write (by decide) (by decide) _ (by decide) (by decide))

/-- A value of 5 bytes comes back as one of 8, and writing a value of 65 bytes reads 68. -/
theorem odd_value_grows :
    Written smallStore freshFlash ∧
      (storeWrite smallStore 15 (fun _ => 0x5A) 5 (.reliable freshFlash)).1 = 0 ∧
      getLengthForValue smallStore 15
        (.reliable (storeWrite smallStore 15 (fun _ => 0x5A) 5 (.reliable freshFlash)).2.mem) = 8 ∧
      67 ∈ sourceReads (fullLength 65) 0 (fullLength 65) 65 := by
  have hret := @freshFlash_write 15 (by decide) (by decide) (fun _ => 0x5A) 5 (by decide) (by decide)
  have hversion := @getVersion_tlv smallStore _ rfl freshFlash_versioned.1
  obtain ⟨-, -, habsent, -⟩ := storeWrite_ok hversion (by decide) hret
  obtain ⟨empty, hrecorded, -⟩ := storeWrite_recorded hversion (by decide) hret
  have hslice := version_kept freshFlash_versioned.1 hrecorded.found hrecorded.below
  refine ⟨.versioned freshFlash_versioned, hret, ?_, by decide⟩
  rw [getLengthForValue_tlv rfl (hslice.trans freshFlash_versioned.1),
    hrecorded.search_value (fullLength_lt 5) habsent]
  rfl

end Sidewalk.Storage
