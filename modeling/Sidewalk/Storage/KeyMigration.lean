import Sidewalk.Storage.DeprecatedMfg
import Sidewalk.Storage.Refinement

/-!
# Keys on their way into secure storage

The start-up moves the master keys from the settings and the private keys of the device from the
deprecated manufacturing store into the PSA. `key_migration_safe_iff` says when a step of either
neither loses the plaintext nor gives up a key of the PSA for anything but the plaintext. The
buffers are on the stack, so a step starts with any bytes in them.
-/

namespace Sidewalk.Storage

open Sidewalk.Lib

/-! ## What a step must keep -/

/-- The plaintext is still stored, or the PSA holds exactly it. -/
def Kept (before after : Option (List UInt8)) (psa' : Psa) (id : KeyId) : Prop :=
  ∀ key, before = some key → after = some key ∨ psa' id = some key

/-- A key of the PSA stays, or the plaintext takes its place. -/
def ReplacedBy (plaintext : Option (List UInt8)) (psa psa' : Psa) (id : KeyId) : Prop :=
  ∀ old, psa id = some old →
    psa' id = some old ∨ ∃ key, plaintext = some key ∧ psa' id = some key

/-- What the import puts in the place of a key it destroys is the plaintext, or that same key. -/
def SafeToImport (build : Build) (faults : PsaFaults) (plaintext : Option (List UInt8))
    (id : KeyId) (data : Mem) (size : Nat) (psa : Psa) : Prop :=
  Destroys build faults id data size psa →
    Stores build faults id data size psa ∧
      (plaintext = some (data.slice 0 size) ∨ psa id = some (data.slice 0 size))

theorem replacedBy_newImport {build : Build} {faults : PsaFaults} {id : KeyId} {data : Mem}
    {size : Nat} {psa : Psa} (plaintext : Option (List UInt8)) :
    ReplacedBy plaintext psa (newImport build faults id data size psa).2 id ↔
      SafeToImport build faults plaintext id data size psa := by
  unfold ReplacedBy SafeToImport
  by_cases hstores : Stores build faults id data size psa
  · have himport := (newImport_of_stores hstores).2.1
    rw [himport]
    refine ⟨fun h hdestroys => ⟨hstores, ?_⟩, fun h old hold => ?_⟩
    · obtain ⟨old, hold⟩ := Option.ne_none_iff_exists'.mp hdestroys.2.2.2
      rcases h old hold with hsame | ⟨key, hplain, hkey⟩
      · exact .inr (hold.trans hsame.symm)
      · exact .inl (hplain.trans hkey.symm)
    · have hdestroys : Destroys build faults id data size psa := by
        refine ⟨hstores.1, hstores.2.1, Bool.eq_false_of_not_eq_true fun hfault => ?_, ?_⟩
        · cases (hstores.2.2.2.1 hfault).symm.trans hold
        · rw [hold]
          exact Option.some_ne_none old
      rcases (h hdestroys).2 with hplain | hsame
      · exact .inr ⟨_, hplain, rfl⟩
      · exact .inl (hsame.symm.trans hold)
  · obtain ⟨-, hgone, hkept, -⟩ := newImport_of_not_stores hstores
    by_cases hdestroys : Destroys build faults id data size psa
    · rw [hgone hdestroys]
      refine iff_of_false (fun h => ?_) fun h => hstores (h hdestroys).1
      obtain ⟨old, hold⟩ := Option.ne_none_iff_exists'.mp hdestroys.2.2.2
      rcases h old hold with hnone | ⟨key, -, hnone⟩
      · cases hnone
      · cases hnone
    · rw [hkept hdestroys]
      exact iff_of_true (fun old hold => .inl hold) fun h => absurd h hdestroys

/-! ## Master keys in the settings -/

/-- How a load fails: before it reaches the value, in the read of it after some bytes, or as a
whole. -/
structure LoadFaults where
  reached : Bool
  read : Option Nat
  load : Bool

/-- `settings_utils_load_immediate_value` over settings that fail: what it returns, and the
destination. -/
def loadImmediateValueInto (s : Settings) (faults : LoadFaults) (name : Name) (dest : Mem)
    (len : Nat) : Int × Mem :=
  match if faults.reached then (s.subtree name).find? (·.1 = []) else none with
  | some entry =>
    match faults.read with
    | none => ((entry.2.take len).length, dest.blit 0 (entry.2.take len))
    | some n => (if faults.load then 0 else enoent, dest.blit 0 ((entry.2.take len).take n))
  | none => (if faults.load then 0 else enoent, dest)

structure SaveFaults where
  load : LoadFaults
  psa : PsaFaults
  delete : Bool

def storageMasterKeySize : Nat := 16

/-- `storage_key_save_secure`, with the bytes that are in its buffer. -/
def storageKeySaveSecure (build : Build) (faults : SaveFaults) (data : Mem) (group key : UInt16)
    (kv : Kv) : Kv :=
  let serial := settingsSerializeGroupKey group key
  match loadImmediateValueInto kv.settings faults.load serial data storageMasterKeySize with
  | (err, data) =>
    if err = enoent then kv
    else if err < 0 then kv
    else
      match storage2keyId build group key with
      | none => kv
      | some id =>
        match newImport build faults.psa id data storageMasterKeySize kv.psa with
        | (err, psa) =>
          if err ≠ esuccess then { kv with psa := psa }
          else if faults.delete then { kv with psa := psa }
          else ⟨kv.settings.delete serial, psa⟩

/-- The buffer that goes to the PSA, when the load does not report that it has failed. -/
def loaded (plaintext : Option (List UInt8)) (faults : LoadFaults) (data : Mem) : Option Mem :=
  match if faults.reached then plaintext else none with
  | some key =>
    match faults.read with
    | none => some (data.blit 0 (key.take storageMasterKeySize))
    | some n =>
      if faults.load then some (data.blit 0 ((key.take storageMasterKeySize).take n)) else none
  | none => if faults.load then some data else none

theorem loadImmediateValueInto_eq {s : Settings} (faults : LoadFaults) {name : Name} (data : Mem)
    (h : ∀ entry ∈ s, entry.1 ≠ name ++ ['/']) :
    (loaded (s.lookup name) faults data = none ∧
        (loadImmediateValueInto s faults name data storageMasterKeySize).1 = enoent) ∨
      (0 ≤ (loadImmediateValueInto s faults name data storageMasterKeySize).1 ∧
        loaded (s.lookup name) faults data =
          some (loadImmediateValueInto s faults name data storageMasterKeySize).2) := by
  rw [← Settings.find_subtree h]
  unfold loaded loadImmediateValueInto
  generalize (s.subtree name).find? (·.1 = []) = found
  obtain ⟨reached, read, load⟩ := faults
  cases load with
  | false =>
    cases reached with
    | false => exact .inl ⟨rfl, rfl⟩
    | true =>
      cases found with
      | none => exact .inl ⟨rfl, rfl⟩
      | some entry =>
        cases read with
        | none => exact .inr ⟨Int.natCast_nonneg _, rfl⟩
        | some n => exact .inl ⟨rfl, rfl⟩
  | true =>
    cases reached with
    | false => exact .inr ⟨Int.le_refl _, rfl⟩
    | true =>
      cases found with
      | none => exact .inr ⟨Int.le_refl _, rfl⟩
      | some entry =>
        cases read with
        | none => exact .inr ⟨Int.natCast_nonneg _, rfl⟩
        | some n => exact .inr ⟨Int.le_refl _, rfl⟩

section Save

variable {build : Build} {faults : SaveFaults} {data : Mem} {group key : UInt16} {id : KeyId}
  {kv : Kv}

theorem save_of_not_loaded
    (hnames : ∀ entry ∈ kv.settings, entry.1 ≠ settingsSerializeGroupKey group key ++ ['/'])
    (hloaded : loaded (kv.settings.lookup (settingsSerializeGroupKey group key)) faults.load data =
      none) :
    storageKeySaveSecure build faults data group key kv = kv := by
  rcases loadImmediateValueInto_eq faults.load data hnames with ⟨_, herr⟩ | ⟨_, hsome⟩
  · unfold storageKeySaveSecure
    simp only [herr, if_true]
  · cases hloaded.symm.trans hsome

/-- The plaintext is deleted after an import that the PSA has reported as successful. -/
theorem save_of_loaded (faults : SaveFaults) (hid : storage2keyId build group key = some id)
    (hnames : ∀ entry ∈ kv.settings, entry.1 ≠ settingsSerializeGroupKey group key ++ ['/'])
    {buffer : Mem} (hloaded : loaded
      (kv.settings.lookup (settingsSerializeGroupKey group key)) faults.load data = some buffer) :
    (storageKeySaveSecure build faults data group key kv).psa =
        (newImport build faults.psa id buffer storageMasterKeySize kv.psa).2 ∧
      (storageKeySaveSecure build faults data group key kv).settings =
        if (newImport build faults.psa id buffer storageMasterKeySize kv.psa).1 = esuccess ∧
          faults.delete = false
        then kv.settings.delete (settingsSerializeGroupKey group key) else kv.settings := by
  rcases loadImmediateValueInto_eq faults.load data hnames with ⟨hnone, _⟩ | ⟨hnonneg, hsome⟩
  · cases hloaded.symm.trans hnone
  cases Option.some.inj (hloaded.symm.trans hsome)
  have hfound : ¬(loadImmediateValueInto kv.settings faults.load
      (settingsSerializeGroupKey group key) data storageMasterKeySize).1 = enoent := by
    unfold enoent
    omega
  unfold storageKeySaveSecure
  simp only [hfound, if_false, if_neg (Int.not_lt.2 hnonneg), hid]
  by_cases herr : (newImport build faults.psa id
      (loadImmediateValueInto kv.settings faults.load (settingsSerializeGroupKey group key) data
        storageMasterKeySize).2 storageMasterKeySize kv.psa).1 = esuccess
  · rw [if_neg fun h => h herr]
    by_cases hdelete : faults.delete = true
    · rw [if_pos hdelete, if_neg fun h => by rw [hdelete] at h; cases h.2]
      exact ⟨rfl, rfl⟩
    · rw [if_neg hdelete, if_pos ⟨herr, Bool.eq_false_of_not_eq_true hdelete⟩]
      exact ⟨rfl, rfl⟩
  · rw [if_pos herr, if_neg fun h => herr h.1]
    exact ⟨rfl, rfl⟩

theorem kept_save_iff (faults : SaveFaults) (hid : storage2keyId build group key = some id)
    (hnames : ∀ entry ∈ kv.settings, entry.1 ≠ settingsSerializeGroupKey group key ++ ['/'])
    {buffer : Mem} (hloaded : loaded
      (kv.settings.lookup (settingsSerializeGroupKey group key)) faults.load data = some buffer) :
    Kept (kv.settings.lookup (settingsSerializeGroupKey group key))
        ((storageKeySaveSecure build faults data group key kv).settings.lookup
          (settingsSerializeGroupKey group key))
        (storageKeySaveSecure build faults data group key kv).psa id ↔
      (Stores build faults.psa id buffer storageMasterKeySize kv.psa →
        kv.settings.lookup (settingsSerializeGroupKey group key) =
            some (buffer.slice 0 storageMasterKeySize) ∨
          kv.settings.lookup (settingsSerializeGroupKey group key) = none ∨
          faults.psa.purge = true ∨ faults.delete = true) := by
  obtain ⟨hpsa, hsettings⟩ := save_of_loaded faults hid hnames hloaded
  rw [hpsa, hsettings]
  by_cases hstores : Stores build faults.psa id buffer storageMasterKeySize kv.psa
  · obtain ⟨herr, himport, _⟩ := newImport_of_stores hstores
    have hfault : efault ≠ esuccess := by decide
    unfold Kept
    rw [himport, herr]
    by_cases hpurge : faults.psa.purge = true
    · rw [if_pos hpurge, if_neg fun h => hfault h.1]
      exact iff_of_true (fun _ h => .inl h) fun _ => .inr (.inr (.inl hpurge))
    by_cases hdelete : faults.delete = true
    · rw [if_neg fun h => by rw [hdelete] at h; cases h.2]
      exact iff_of_true (fun _ h => .inl h) fun _ => .inr (.inr (.inr hdelete))
    rw [if_neg hpurge, if_pos ⟨rfl, Bool.eq_false_of_not_eq_true hdelete⟩,
      Settings.lookup_delete, if_pos rfl]
    refine ⟨fun h _ => ?_, fun h key hkey => ?_⟩
    · cases hplain : kv.settings.lookup (settingsSerializeGroupKey group key) with
      | none => exact .inr (.inl rfl)
      | some key =>
        rcases h key hplain with hnone | hsame
        · cases hnone
        · exact .inl hsame.symm
    · rcases h hstores with hsame | hnone | hpurge' | hdelete'
      · exact .inr (hsame.symm.trans hkey)
      · cases hnone.symm.trans hkey
      · exact absurd hpurge' hpurge
      · exact absurd hdelete' hdelete
  · have herr := (newImport_of_not_stores hstores).1
    rw [if_neg fun h => herr h.1]
    exact iff_of_true (fun _ h => .inl h) fun h => absurd h hstores

end Save

/-! ## Device keys in the manufacturing store -/

/-- The first half of what `sid_pal_mfg_store_init` does with keys, or the second half: the key goes
from the store into the PSA, and zeros into its place. -/
def migrateRaw (build : Build) (faults : PsaFaults) (store : DeprecatedStore) (raw : UInt16)
    (id : KeyId) (rawKey : Mem) (d : FlashDev) (psa : Psa) : Mem × FlashDev × Psa :=
  match storeRead build store raw rawKey 32 d psa with
  | (rawKey, d) =>
    if rawKey.slice 0 32 = List.replicate 32 0 then (rawKey, d, psa)
    else
      match newImport build faults id rawKey 32 psa with
      | (_, psa) => (rawKey.fill 0 32 0, (storeWrite store raw (rawKey.fill 0 32 0) 32 d).2, psa)

/-- `sid_pal_mfg_store_init`; the region of the store is given. -/
def mfgStoreInit (build : Build) (faults faults' : PsaFaults) (store : DeprecatedStore)
    (rawKey : Mem) (d : FlashDev) (psa : Psa) : FlashDev × Psa :=
  if build.psaKeyStorage then
    match migrateRaw build faults store devicePrivEd25519Raw .mfgEd25519Priv rawKey d psa with
    | (rawKey, d, psa) =>
      (migrateRaw build faults' store devicePrivP256r1Raw .mfgSecp256r1Priv rawKey d psa).2
  else (d, psa)

theorem mem_readFlash (store : DeprecatedStore) (value : UInt16) (buffer : Mem) (length : Nat)
    (d : FlashDev) : (readFlash store value buffer length d).2.mem = d.mem := by
  have hmem := mem_getVersion store d
  unfold readFlash
  generalize getVersion store d = version at hmem ⊢
  obtain ⟨version, d₁⟩ := version
  simp only at hmem ⊢
  split
  · split
    · exact hmem
    · have hfound := mem_searchFrom store.addrEnd value (firstTag store) d₁
      unfold searchForTag
      generalize searchFrom store.addrEnd value (firstTag store) d₁ = search at hfound ⊢
      obtain ⟨info, d₂⟩ := search
      cases info with
      | none => exact hfound.trans hmem
      | some info =>
        simp only
        split
        · exact hfound.trans hmem
        · exact hfound.trans hmem
  · cases valueToOffset store value with
    | none => exact hmem
    | some offset =>
      simp only
      split
      · exact hmem
      · exact hmem

theorem mem_storeRead (build : Build) (store : DeprecatedStore) (value : UInt16) (buffer : Mem)
    (length : Nat) (d : FlashDev) (psa : Psa) :
    (storeRead build store value buffer length d psa).2.mem = d.mem := by
  unfold storeRead
  split
  · rfl
  split
  · rfl
  · exact mem_readFlash ..

/-- Whatever a step imports, the store holds its key afterwards. -/
theorem kept_migrateRaw {build : Build} {faults : PsaFaults} {store : DeprecatedStore}
    {raw : UInt16} (hraw : raw = devicePrivEd25519Raw ∨ raw = devicePrivP256r1Raw) (id : KeyId)
    (rawKey : Mem) (d : FlashDev) (psa : Psa) :
    Kept (storedKey store raw d.mem)
      (storedKey store raw (migrateRaw build faults store raw id rawKey d psa).2.1.mem)
      (migrateRaw build faults store raw id rawKey d psa).2.2 id := by
  intro key hkey
  have hmem := mem_storeRead build store raw rawKey 32 d psa
  left
  unfold migrateRaw
  simp only
  split
  · rwa [hmem]
  · rw [← hmem] at hkey
    exact storedKey_storeWrite hraw _ _ _ hkey

/-- The read has left zeros in the buffer, or what may be imported. -/
def SafeToMigrate (build : Build) (faults : PsaFaults) (store : DeprecatedStore) (raw : UInt16)
    (id : KeyId) (rawKey : Mem) (d : FlashDev) (psa : Psa) : Prop :=
  (storeRead build store raw rawKey 32 d psa).1.slice 0 32 = List.replicate 32 0 ∨
    SafeToImport build faults (storedKey store raw d.mem) id
      (storeRead build store raw rawKey 32 d psa).1 32 psa

theorem replacedBy_migrateRaw_iff {build : Build} {faults : PsaFaults} {store : DeprecatedStore}
    {raw : UInt16} {id : KeyId} {rawKey : Mem} {d : FlashDev} {psa : Psa} :
    ReplacedBy (storedKey store raw d.mem) psa
        (migrateRaw build faults store raw id rawKey d psa).2.2 id ↔
      SafeToMigrate build faults store raw id rawKey d psa := by
  unfold SafeToMigrate migrateRaw
  simp only
  split
  · next hzeros => exact iff_of_true (fun _ hold => .inl hold) (.inl hzeros)
  · next hzeros =>
    refine (replacedBy_newImport _).trans ⟨.inr, fun h => ?_⟩
    exact h.resolve_left hzeros

/-- A whole key that is read without a failure is what the buffer holds. -/
theorem storeRead_reliable {build : Build} (hbuild : build.psaKeyStorage = true)
    {store : DeprecatedStore} (hflash : store.flashDev = true) {raw : UInt16}
    (hraw : raw = devicePrivEd25519Raw ∨ raw = devicePrivP256r1Raw) {m : Mem} {key : List UInt8}
    (hkey : storedKey store raw m = some key) (hlen : key.length = 32) (buffer : Mem) (psa : Psa) :
    (storeRead build store raw buffer 32 (.reliable m) psa).1.slice 0 32 = key := by
  have hblit (o : Nat) : (buffer.blit 0 (m.slice o 32)).slice 0 32 = m.slice o 32 := by
    have hslice := Mem.slice_blit buffer 0 (m.slice o 32)
    rwa [Mem.length_slice] at hslice
  have hversion : getVersion store (.reliable m) =
      (m.slice (store.addrStart + 4) 4, .reliable m) := by
    unfold getVersion
    rw [if_pos hflash]
    rfl
  have hstoreVersion : rawValue raw ≠ storeVersion := by
    rcases hraw with rfl | rfl
    · decide
    · decide
  have hread : storeRead build store raw buffer 32 (.reliable m) psa =
      readFlash store (rawValue raw) buffer 32 (.reliable m) := by
    unfold storeRead
    rcases hraw with rfl | rfl
    · rw [if_neg fun h => absurd h.2 (by decide), if_neg fun h => absurd h.2 (by decide),
        if_pos hbuild]
    · rw [if_neg fun h => absurd h.2 (by decide), if_neg fun h => absurd h.2 (by decide),
        if_pos hbuild]
  rw [hread]
  unfold storedKey at hkey
  unfold readFlash
  simp only [hversion]
  by_cases htlv : m.slice (store.addrStart + 4) 4 = tlvVersion
  · rw [if_pos htlv] at hkey
    rw [if_pos htlv, if_neg hstoreVersion]
    obtain ⟨info, hinfo, rfl⟩ := Option.map_eq_some_iff.1 hkey
    rw [Mem.length_slice] at hlen
    have hsearch : searchForTag store (rawValue raw) (.reliable m) = (some info, .reliable m) :=
      Prod.ext hinfo (dev_searchFrom_reliable ..)
    simp only [hsearch, hlen, Nat.lt_irrefl, if_false]
    exact hblit (info.offset + 4)
  · rw [if_neg htlv] at hkey
    rw [if_neg htlv]
    obtain ⟨offset, hoffset, rfl⟩ := Option.map_eq_some_iff.1 hkey
    simp only [hoffset, hflash, if_true]
    exact hblit offset

/-! ## When the steps are safe -/

/-- Where the PSA stores what the load has left in the buffer, that is the plaintext, or the
plaintext stays; and where the import destroys a key it stores the plaintext, or that key again. -/
def SafeToSave (build : Build) (faults : SaveFaults) (plaintext : Option (List UInt8)) (data : Mem)
    (id : KeyId) (psa : Psa) : Prop :=
  ∀ buffer, loaded plaintext faults.load data = some buffer →
    (Stores build faults.psa id buffer storageMasterKeySize psa →
      plaintext = some (buffer.slice 0 storageMasterKeySize) ∨
        plaintext = none ∨ faults.psa.purge = true ∨ faults.delete = true) ∧
      SafeToImport build faults.psa plaintext id buffer storageMasterKeySize psa

/-- A step over the settings, and a step over the manufacturing store, for any plaintext, any key of
the PSA, any bytes in the buffer and any failures. -/
theorem key_migration_safe_iff (build : Build) :
    (∀ (faults : SaveFaults) (data : Mem) (group key : UInt16) (id : KeyId) (kv : Kv),
      storage2keyId build group key = some id →
      (∀ entry ∈ kv.settings, entry.1 ≠ settingsSerializeGroupKey group key ++ ['/']) →
      (Kept (kv.settings.lookup (settingsSerializeGroupKey group key))
            ((storageKeySaveSecure build faults data group key kv).settings.lookup
              (settingsSerializeGroupKey group key))
            (storageKeySaveSecure build faults data group key kv).psa id ∧
          ReplacedBy (kv.settings.lookup (settingsSerializeGroupKey group key)) kv.psa
            (storageKeySaveSecure build faults data group key kv).psa id ↔
        SafeToSave build faults (kv.settings.lookup (settingsSerializeGroupKey group key)) data id
          kv.psa)) ∧
    ∀ (faults : PsaFaults) (store : DeprecatedStore) (raw : UInt16) (id : KeyId) (rawKey : Mem)
      (d : FlashDev) (psa : Psa), raw = devicePrivEd25519Raw ∨ raw = devicePrivP256r1Raw →
      (Kept (storedKey store raw d.mem)
            (storedKey store raw (migrateRaw build faults store raw id rawKey d psa).2.1.mem)
            (migrateRaw build faults store raw id rawKey d psa).2.2 id ∧
          ReplacedBy (storedKey store raw d.mem) psa
            (migrateRaw build faults store raw id rawKey d psa).2.2 id ↔
        SafeToMigrate build faults store raw id rawKey d psa) := by
  refine ⟨fun faults data group key id kv hid hnames => ?_,
    fun faults store raw id rawKey d psa hraw => ?_⟩
  · unfold SafeToSave
    cases hloaded : loaded (kv.settings.lookup (settingsSerializeGroupKey group key)) faults.load
        data with
    | none =>
      rw [save_of_not_loaded hnames hloaded]
      exact iff_of_true ⟨fun _ h => .inl h, fun _ h => .inl h⟩ nofun
    | some buffer =>
      have hkept := kept_save_iff faults hid hnames hloaded
      have hreplaced := @replacedBy_newImport build faults.psa id buffer storageMasterKeySize kv.psa
        (kv.settings.lookup (settingsSerializeGroupKey group key))
      rw [← (save_of_loaded faults hid hnames hloaded).1] at hreplaced
      rw [hkept, hreplaced]
      constructor
      · rintro hsafe _ ⟨⟩
        exact hsafe
      · exact fun h => h buffer rfl
  · refine ⟨fun h => replacedBy_migrateRaw_iff.1 h.2, fun h => ⟨?_, ?_⟩⟩
    · exact kept_migrateRaw hraw id rawKey d psa
    · exact replacedBy_migrateRaw_iff.2 h

/-! ## Keys that are moved, and keys that are lost -/

def noFaults : SaveFaults := ⟨⟨true, none, false⟩, .none, false⟩

/-- Settings with a WAN master key. -/
def plainKv (key : List UInt8) : Kv := ⟨[(settingsSerializeGroupKey 0 28, key)], fun _ => none⟩

def plainStore : DeprecatedStore := ⟨0, 4096, true, false, true, fun _ => Mfg.invalidOffset⟩

/-- A flash without tags. -/
def untagged : Mem := fun _ => 0x11

/-- A flash with the version of the tags, and none of them. -/
def tagged : Mem := fun a => if a < 4 then 0xFF else if a < 7 then 0 else if a = 7 then 8 else 0xFF

/-- The PSA with one device key. -/
def deviceKey : Psa := fun id => if id = .mfgEd25519Priv then some (List.replicate 32 0x22) else none

theorem plainKv_names (key : List UInt8) :
    ∀ entry ∈ (plainKv key).settings, entry.1 ≠ settingsSerializeGroupKey 0 28 ++ ['/'] := by
  intro entry hentry heq
  have hlength := congrArg List.length heq
  rw [List.mem_singleton.1 hentry, List.length_append] at hlength
  exact absurd hlength (by simp)

theorem lookup_plainKv (key : List UInt8) :
    (plainKv key).settings.lookup (settingsSerializeGroupKey 0 28) = some key := by
  unfold plainKv
  rw [Settings.lookup_cons, if_pos rfl]

theorem key_migration_safe_moved :
    (Kept ((plainKv (List.replicate 16 0xa5)).settings.lookup (settingsSerializeGroupKey 0 28))
          ((storageKeySaveSecure psaBuild noFaults (fun _ => 0) 0 28
            (plainKv (List.replicate 16 0xa5))).settings.lookup (settingsSerializeGroupKey 0 28))
          (storageKeySaveSecure psaBuild noFaults (fun _ => 0) 0 28
            (plainKv (List.replicate 16 0xa5))).psa .kvWanMaster ∧
        ReplacedBy
          ((plainKv (List.replicate 16 0xa5)).settings.lookup (settingsSerializeGroupKey 0 28))
          (plainKv (List.replicate 16 0xa5)).psa
          (storageKeySaveSecure psaBuild noFaults (fun _ => 0) 0 28
            (plainKv (List.replicate 16 0xa5))).psa .kvWanMaster) ∧
      Kept (storedKey plainStore devicePrivEd25519Raw untagged)
          (storedKey plainStore devicePrivEd25519Raw
            (migrateRaw psaBuild .none plainStore devicePrivEd25519Raw .mfgEd25519Priv
              (fun _ => 0) (.reliable untagged) deviceKey).2.1.mem)
          (migrateRaw psaBuild .none plainStore devicePrivEd25519Raw .mfgEd25519Priv (fun _ => 0)
            (.reliable untagged) deviceKey).2.2 .mfgEd25519Priv ∧
        ReplacedBy (storedKey plainStore devicePrivEd25519Raw untagged) deviceKey
          (migrateRaw psaBuild .none plainStore devicePrivEd25519Raw .mfgEd25519Priv (fun _ => 0)
            (.reliable untagged) deviceKey).2.2 .mfgEd25519Priv := by
  refine ⟨((key_migration_safe_iff psaBuild).1 noFaults (fun _ => 0) 0 28 .kvWanMaster
      (plainKv (List.replicate 16 0xa5)) rfl (plainKv_names _)).2 ?_,
    ((key_migration_safe_iff psaBuild).2 .none plainStore devicePrivEd25519Raw .mfgEd25519Priv
      (fun _ => 0) (.reliable untagged) deviceKey (.inl rfl)).2 ?_⟩
  · intro buffer hloaded
    rw [lookup_plainKv] at hloaded ⊢
    cases hloaded
    exact ⟨fun _ => .inl (by decide), fun hdestroys => absurd rfl hdestroys.2.2.2⟩
  · have hkey : storedKey plainStore devicePrivEd25519Raw untagged =
        some (List.replicate 32 0x11) := by
      unfold storedKey
      rw [if_neg (by decide)]
      rfl
    have hread := @storeRead_reliable psaBuild rfl plainStore rfl devicePrivEd25519Raw (.inl rfl)
      untagged _ hkey List.length_replicate (fun _ => 0) deviceKey
    refine .inr fun hdestroys => ⟨⟨by decide, hdestroys.2.1, rfl, nofun, ?_⟩, .inl ?_⟩
    · rw [hread]
      rfl
    · rw [hread]
      exact hkey

theorem storeRead_tagged :
    (storeRead psaBuild plainStore devicePrivEd25519Raw (fun _ => 0) 32 (.reliable tagged)
      deviceKey).1.slice 0 32 = List.replicate 32 0xFF := by
  have hversion : getVersion plainStore (.reliable tagged) = (tlvVersion, .reliable tagged) := rfl
  have hsearch : searchForTag plainStore devicePrivEd25519 (.reliable tagged) =
      (none, .reliable tagged) := by
    refine Prod.ext ?_ (dev_searchFrom_reliable ..)
    unfold searchForTag
    rw [searchFrom_reliable, if_neg (by decide), if_pos (by decide)]
  have hread : storeRead psaBuild plainStore devicePrivEd25519Raw (fun _ => 0) 32
      (.reliable tagged) deviceKey =
        readFlash plainStore devicePrivEd25519 (fun _ => 0) 32 (.reliable tagged) := rfl
  rw [hread]
  unfold readFlash
  simp only [hversion, hsearch, if_true]
  rw [if_neg (by decide)]
  have hfill (a : Nat) (ha : 0 ≤ a) (hlt : a < 0 + 32) :
      (Mem.fill (fun _ => 0) 0 32 0xFF) a = 0xFF := Mem.fill_inside ha hlt
  exact Mem.slice_const hfill

theorem deviceKey_lost :
    storedKey plainStore devicePrivEd25519Raw tagged = none ∧
      deviceKey .mfgEd25519Priv = some (List.replicate 32 0x22) ∧
      (migrateRaw psaBuild .none plainStore devicePrivEd25519Raw .mfgEd25519Priv (fun _ => 0)
        (.reliable tagged) deviceKey).2.2 .mfgEd25519Priv = some (List.replicate 32 0xFF) := by
  refine ⟨?_, rfl, ?_⟩
  · unfold storedKey searchForTag
    rw [if_pos (by decide), searchFrom_reliable, if_neg (by decide), if_pos (by decide)]
    rfl
  · have hread := storeRead_tagged
    unfold migrateRaw
    simp only
    rw [hread, if_neg (by decide)]
    generalize (storeRead psaBuild plainStore devicePrivEd25519Raw (fun _ => 0) 32
      (.reliable tagged) deviceKey).1 = buffer at hread ⊢
    have hhead : buffer.slice 0 4 = List.replicate 4 0xFF := by
      rw [← Mem.take_slice buffer 0 (by decide : 4 ≤ 32), hread]
      rfl
    have hstores : Stores psaBuild .none .mfgEd25519Priv buffer 32 deviceKey := by
      refine ⟨by decide, ?_, rfl, nofun, ?_⟩
      · unfold isHandle
        rw [hhead]
        rfl
      · rw [hread]
        rfl
    rw [← hread]
    exact (newImport_of_stores hstores).2.1

/-- A longer master key is cut short, and a load that fails puts whatever the buffer holds in the
place of a master key, or nothing where the PSA does not import it. With no key in the
manufacturing store, a device key of the PSA is overwritten with the bytes of erased flash. -/
theorem keys_lost :
    ((plainKv (List.replicate 20 0xa5)).settings.lookup (settingsSerializeGroupKey 0 28) =
        some (List.replicate 20 0xa5) ∧
      (storageKeySaveSecure psaBuild noFaults (fun _ => 0) 0 28
        (plainKv (List.replicate 20 0xa5))).settings.lookup (settingsSerializeGroupKey 0 28) = none ∧
      (storageKeySaveSecure psaBuild noFaults (fun _ => 0) 0 28
        (plainKv (List.replicate 20 0xa5))).psa .kvWanMaster = some (List.replicate 16 0xa5)) ∧
    (storageKeySaveSecure psaBuild { noFaults with load := ⟨false, none, true⟩ } (fun _ => 0xee) 0 28
      ⟨[], fun _ => some (List.replicate 16 0x22)⟩).psa .kvWanMaster =
        some (List.replicate 16 0xee) ∧
    (storageKeySaveSecure psaBuild ⟨⟨false, none, true⟩, { PsaFaults.none with importKey := true },
        false⟩ (fun _ => 0xee) 0 28 ⟨[], fun _ => some (List.replicate 16 0x22)⟩).psa .kvWanMaster =
      none ∧
    storedKey plainStore devicePrivEd25519Raw tagged = none ∧
      deviceKey .mfgEd25519Priv = some (List.replicate 32 0x22) ∧
      (migrateRaw psaBuild .none plainStore devicePrivEd25519Raw .mfgEd25519Priv (fun _ => 0)
        (.reliable tagged) deviceKey).2.2 .mfgEd25519Priv = some (List.replicate 32 0xFF) := by
  refine ⟨⟨lookup_plainKv _, ?_, ?_⟩, ?_, ?_, deviceKey_lost⟩
  · decide +kernel
  · decide +kernel
  · decide +kernel
  · decide +kernel

end Sidewalk.Storage
