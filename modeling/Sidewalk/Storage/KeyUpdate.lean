import Sidewalk.Storage.Kv

/-!
# Replacing a secure key

`sid_crypto_keys_new_import` for any PSA key id, with the bytes it reads of its argument. A key is
replaced by destroying it and importing the new one, and the test for a key handle comes first.
-/

namespace Sidewalk.Storage

open Sidewalk.Lib

/-! ## The code -/

/-- The key store by PSA key id. -/
abbrev KeyStore := UInt32 → Option (List UInt8)

def psaKeyIdNull : UInt32 := 0

/-- `SID_ERROR_NULL_POINTER`. -/
def errorNullPointer : Int := -9

/-- `sid_crypto_keys_attributes_set` knows the attributes of the five keys. -/
def attributesOf (build : Build) (id : UInt32) : Option KeyId :=
  KeyId.all.find? fun key => build.keyValue key = id

/-- What the PSA takes for a key with these attributes; there are none of an unknown key. -/
def Build.acceptsAt (build : Build) (id : UInt32) (data : List UInt8) : Bool :=
  (attributesOf build id).any fun key => build.accepts key data

/-- The loop of `sid_crypto_keys_buffer_get` over the bytes after the key id: whether they are all
zero, and the bytes it looks at. -/
def zeroScan (data : Mem) : Nat → Nat → Bool × List Nat
  | 0, _ => (true, [])
  | rounds + 1, i =>
    if data i ≠ 0 then (false, [i])
    else ((zeroScan data rounds (i + 1)).1, i :: (zeroScan data rounds (i + 1)).2)

/-- `sid_crypto_keys_buffer_get` reads a key id whatever the size. -/
def bufferGet (build : Build) (data : Mem) (size : Nat) : Int × List Nat :=
  if size = 0 then (einval, [])
  else if (KeyId.all.any fun id => data.slice 0 4 = leBytes4 (build.keyValue id)) = false then
    (enoent, List.range 4)
  else
    let scan := zeroScan data (size - 4) 4
    (if scan.1 then esuccess else enoent, List.range 4 ++ scan.2)

/-- What the import returns, the key store after it, and the bytes of the data it has read. -/
structure Imported where
  ret : Int
  keys : KeyStore
  reads : List Nat

/-- `sid_crypto_keys_new_import`. The PSA imports a key only under an id that is free. -/
def sidCryptoKeysNewImport (build : Build) (faults : PsaFaults) (id : UInt32) (data : Option Mem)
    (size : Nat) (keys : KeyStore) : Imported :=
  match data with
  | none => ⟨einval, keys, []⟩
  | some data =>
    if id = psaKeyIdNull ∨ size = 0 then ⟨einval, keys, []⟩
    else
      let got := bufferGet build data size
      if got.1 = esuccess then ⟨ebadr, keys, got.2⟩
      else
        let keys := if faults.destroy then keys else Function.update keys id none
        let reads := got.2 ++ List.range size
        if faults.importKey = false ∧ keys id = none ∧
            build.acceptsAt id (data.slice 0 size) = true then
          let keys := Function.update keys id (some (data.slice 0 size))
          if faults.purge then ⟨efault, keys, reads⟩ else ⟨esuccess, keys, reads⟩
        else ⟨eacces, keys, reads⟩

/-- `sid_pal_storage_kv_record_set` for a record that is a secure key. -/
def recordSetSecure (build : Build) (faults : PsaFaults) (key : KeyId) (data : Option Mem)
    (len : Nat) (keys : KeyStore) : Int × KeyStore :=
  if data.isNone then (errorNullPointer, keys)
  else if len = 0 then (errorInvalidArgs, keys)
  else
    let imported := sidCryptoKeysNewImport build faults (build.keyValue key) data len keys
    if imported.ret = ebadr then (errorNone, imported.keys)
    else if imported.ret ≠ 0 then (errorStorageWriteFail, imported.keys)
    else (errorNone, imported.keys)

/-! ## The test for a handle -/

theorem zeroScan_all (data : Mem) (rounds i : Nat) :
    (zeroScan data rounds i).1 = (data.slice i rounds).all (· = 0) := by
  induction rounds generalizing i with
  | zero => rfl
  | succ rounds ih =>
    rw [zeroScan, Mem.slice_succ, List.all_cons, ← ih]
    by_cases hi : data i = 0 <;> simp [hi]

theorem zeroScan_reads (data : Mem) (rounds i : Nat) :
    ∀ j ∈ (zeroScan data rounds i).2, i ≤ j ∧ j < i + rounds := by
  induction rounds generalizing i with
  | zero => exact fun j hj => nomatch hj
  | succ rounds ih =>
    intro j hj
    rw [zeroScan] at hj
    split at hj
    · obtain rfl := List.mem_singleton.1 hj
      omega
    · rcases List.mem_cons.1 hj with rfl | hj
      · omega
      · have := ih (i + 1) j hj
        omega

theorem bufferGet_success (build : Build) (data : Mem) {size : Nat} (hsize : size ≠ 0) :
    (bufferGet build data size).1 = esuccess ↔ isHandle build data size = true := by
  have hne : enoent ≠ esuccess := by decide
  rw [bufferGet, if_neg hsize, isHandle]
  split
  · next hid => simp only [hid, Bool.false_and, Bool.false_eq_true, iff_false]; exact hne
  · next hid =>
    rw [Bool.not_eq_false] at hid
    rw [hid, Bool.true_and, ← zeroScan_all]
    dsimp only
    cases (zeroScan data (size - 4) 4).1 with
    | true => exact iff_of_true rfl rfl
    | false => exact iff_of_false hne Bool.false_ne_true

/-- All that the test reads lies in the buffer or in the key id. -/
theorem bufferGet_reads (build : Build) (data : Mem) (size : Nat) :
    ∀ j ∈ (bufferGet build data size).2, j < 4 ∨ j < size := by
  intro j hj
  rw [bufferGet] at hj
  split at hj
  · exact nomatch hj
  · split at hj
    · exact .inl (List.mem_range.1 hj)
    · rcases List.mem_append.1 hj with hj | hj
      · exact .inl (List.mem_range.1 hj)
      · have := zeroScan_reads data (size - 4) 4 j hj
        exact .inr (by omega)

/-- The test always reads the key id. -/
theorem bufferGet_reads_id (build : Build) (data : Mem) {size : Nat} (hsize : size ≠ 0) :
    3 ∈ (bufferGet build data size).2 := by
  rw [bufferGet, if_neg hsize]
  split
  · decide
  · exact List.mem_append_left _ (by decide)

/-! ## The five keys -/

theorem attributesOf_key {build : Build} (hinj : Function.Injective build.keyValue) (key : KeyId) :
    attributesOf build (build.keyValue key) = some key := by
  unfold attributesOf
  cases hfind : KeyId.all.find? fun key' => build.keyValue key' = build.keyValue key with
  | none =>
    have hall := List.find?_eq_none.1 hfind key (by cases key <;> decide)
    exact absurd hall (by simp)
  | some key' =>
    have heq : build.keyValue key' = build.keyValue key := by simpa using List.find?_some hfind
    rw [hinj heq]

/-- On the five keys the import is the one the key/value store is modelled with. -/
theorem import_eq_newImport {build : Build} (hinj : Function.Injective build.keyValue)
    (faults : PsaFaults) {key : KeyId} (hkey : build.keyValue key ≠ psaKeyIdNull) (d : Mem)
    (size : Nat) (keys : KeyStore) :
    newImport build faults key d size (keys ∘ build.keyValue) =
      ((sidCryptoKeysNewImport build faults (build.keyValue key) (some d) size keys).ret,
        (sidCryptoKeysNewImport build faults (build.keyValue key) (some d) size keys).keys ∘
          build.keyValue) := by
  have haccepts : build.acceptsAt (build.keyValue key) (d.slice 0 size) =
      build.accepts key (d.slice 0 size) := by
    rw [Build.acceptsAt, attributesOf_key hinj, Option.any_some]
  have hupdate : ∀ (keys : KeyStore) value, Function.update keys (build.keyValue key) value ∘
      build.keyValue = Function.update (keys ∘ build.keyValue) key value :=
    fun keys value => Function.update_comp_eq_of_injective keys hinj key value
  unfold newImport sidCryptoKeysNewImport
  dsimp only
  by_cases hsize : size = 0
  · rw [if_pos hsize, if_pos (.inr hsize)]
  rw [if_neg hsize, if_neg (not_or.2 ⟨hkey, hsize⟩)]
  by_cases hhandle : isHandle build d size = true
  · rw [if_pos hhandle, if_pos ((bufferGet_success build d hsize).2 hhandle)]
  rw [if_neg hhandle, if_neg (mt (bufferGet_success build d hsize).1 hhandle), haccepts]
  cases faults.destroy with
  | true =>
    simp only [if_true, Function.comp_apply]
    split_ifs <;> simp only [hupdate]
  | false =>
    simp only [Bool.false_eq_true, if_false, Function.update_self]
    split_ifs <;> simp only [hupdate]

/-! ## What an update keeps -/

/-- The key that was stored is still stored with the same value. -/
def KeepsKey (id : UInt32) (before after : KeyStore) : Prop :=
  ∀ value, before id = some value → after id = some value

/-- A failed update keeps the old key, also through the record of a secure key, and only the data
is read. -/
structure UpdateSafe (build : Build) (faults : PsaFaults) (id : UInt32) (data : Option Mem)
    (size : Nat) (keys : KeyStore) : Prop where
  importKeeps : (sidCryptoKeysNewImport build faults id data size keys).ret ≠ esuccess →
    KeepsKey id keys (sidCryptoKeysNewImport build faults id data size keys).keys
  recordKeeps : ∀ group key keyId, storage2keyId build group key = some keyId →
    build.keyValue keyId = id →
      (recordSetSecure build faults keyId data size keys).1 ≠ errorNone →
        KeepsKey id keys (recordSetSecure build faults keyId data size keys).2
  reads : ∀ i ∈ (sidCryptoKeysNewImport build faults id data size keys).reads, i < size

/-- The new value gets in: the import succeeds, and so does the purge unless the value is the same
as before. -/
def Replaces (build : Build) (faults : PsaFaults) (id : UInt32) (value : List UInt8)
    (old : List UInt8) : Prop :=
  faults.importKey = false ∧ build.acceptsAt id value = true ∧
    (faults.purge = false ∨ value = old)

/-- For arguments that are not rejected: the data is no shorter than a key id, and a key that is
stored either is not destroyed or is replaced. -/
def KeyProtected (build : Build) (faults : PsaFaults) (id : UInt32) (data : Option Mem)
    (size : Nat) (keys : KeyStore) : Prop :=
  ∀ d, data = some d → id ≠ psaKeyIdNull → size ≠ 0 →
    4 ≤ size ∧ ∀ old, keys id = some old →
      isHandle build d size = true ∨ faults.destroy = true ∨
        Replaces build faults id (d.slice 0 size) old

/-- What an import does with arguments it does not reject. -/
theorem import_accepted (build : Build) (faults : PsaFaults) {id : UInt32} (d : Mem) {size : Nat}
    (keys : KeyStore) (hid : id ≠ psaKeyIdNull) (hsize : size ≠ 0) :
    ((sidCryptoKeysNewImport build faults id (some d) size keys).ret ≠ esuccess →
        KeepsKey id keys (sidCryptoKeysNewImport build faults id (some d) size keys).keys) ↔
      ∀ old, keys id = some old →
        isHandle build d size = true ∨ faults.destroy = true ∨
          Replaces build faults id (d.slice 0 size) old := by
  have hacces : eacces ≠ esuccess := by decide
  have hefault : efault ≠ esuccess := by decide
  have hebadr : ebadr ≠ esuccess := by decide
  unfold sidCryptoKeysNewImport
  simp only
  rw [if_neg (not_or.2 ⟨hid, hsize⟩)]
  by_cases hhandle : isHandle build d size = true
  · rw [if_pos ((bufferGet_success build d hsize).2 hhandle)]
    exact iff_of_true (fun _ value h => h) (fun _ _ => .inl hhandle)
  rw [if_neg (mt (bufferGet_success build d hsize).1 hhandle)]
  by_cases hdestroy : faults.destroy = true
  · -- the old key stays, and an import under its id fails
    refine iff_of_true (fun hret value hold => ?_) (fun _ _ => .inr (.inl hdestroy))
    simp only [hdestroy, if_true, hold, reduceCtorEq, false_and, and_false, if_false]
  · simp only [hdestroy, hhandle, Bool.false_eq_true, if_false, Function.update_self, true_and,
      false_or, Replaces]
    by_cases himport : faults.importKey = false ∧ build.acceptsAt id (d.slice 0 size) = true
    · rw [if_pos himport]
      cases hpurge : faults.purge with
      | true =>
        simp only [if_true, KeepsKey, Function.update_self, Option.some.injEq, himport.1,
          himport.2, true_and, Bool.true_eq_false, false_or]
        exact ⟨fun h => h hefault, fun h _ => h⟩
      | false =>
        refine iff_of_true (fun hret => absurd rfl hret) (fun _ _ => ?_)
        exact ⟨himport.1, himport.2, .inl rfl⟩
    · rw [if_neg himport]
      simp only [KeepsKey, Function.update_self]
      constructor
      · intro h old hold
        exact nomatch h hacces old hold
      · intro h _ old hold
        obtain ⟨h1, h2, -⟩ := h old hold
        exact absurd ⟨h1, h2⟩ himport

/-- The import reads nothing outside the data exactly when the data is as long as a key id. -/
theorem import_reads (build : Build) (faults : PsaFaults) {id : UInt32} (d : Mem) {size : Nat}
    (keys : KeyStore) (hid : id ≠ psaKeyIdNull) (hsize : size ≠ 0) :
    (∀ i ∈ (sidCryptoKeysNewImport build faults id (some d) size keys).reads, i < size) ↔
      4 ≤ size := by
  have hreads : (sidCryptoKeysNewImport build faults id (some d) size keys).reads =
      (bufferGet build d size).2 ∨
      (sidCryptoKeysNewImport build faults id (some d) size keys).reads =
        (bufferGet build d size).2 ++ List.range size := by
    unfold sidCryptoKeysNewImport
    simp only
    rw [if_neg (not_or.2 ⟨hid, hsize⟩)]
    split_ifs <;> first | exact .inl rfl | exact .inr rfl
  constructor
  · intro h
    have h3 : 3 ∈ (sidCryptoKeysNewImport build faults id (some d) size keys).reads := by
      rcases hreads with heq | heq
      · exact heq ▸ bufferGet_reads_id build d hsize
      · exact heq ▸ List.mem_append_left _ (bufferGet_reads_id build d hsize)
    exact h 3 h3
  · intro h4 i hi
    have hget : ∀ i ∈ (bufferGet build d size).2, i < size := fun i hi => by
      have := bufferGet_reads build d size i hi
      omega
    rcases hreads with heq | heq <;> rw [heq] at hi
    · exact hget i hi
    · rcases List.mem_append.1 hi with hi | hi
      · exact hget i hi
      · exact List.mem_range.1 hi

/-- A record that cannot be set has gone through a failed import, or has not been touched. -/
theorem record_keeps (build : Build) (faults : PsaFaults) (keyId : KeyId) (data : Option Mem)
    (size : Nat) (keys : KeyStore)
    (hkeeps : (sidCryptoKeysNewImport build faults (build.keyValue keyId) data size keys).ret ≠
        esuccess →
      KeepsKey (build.keyValue keyId) keys
        (sidCryptoKeysNewImport build faults (build.keyValue keyId) data size keys).keys)
    (hret : (recordSetSecure build faults keyId data size keys).1 ≠ errorNone) :
    KeepsKey (build.keyValue keyId) keys (recordSetSecure build faults keyId data size keys).2 := by
  unfold recordSetSecure at hret ⊢
  split at hret
  · next hnull =>
    rw [if_pos hnull]
    exact fun value h => h
  · next hnull =>
    rw [if_neg hnull]
    split at hret
    · next hsize =>
      rw [if_pos hsize]
      exact fun value h => h
    · next hsize =>
      rw [if_neg hsize]
      dsimp only at hret ⊢
      split at hret
      · exact absurd rfl hret
      · next hbadr =>
        rw [if_neg hbadr]
        split at hret
        · next herr =>
          rw [if_pos herr]
          exact hkeeps herr
        · exact absurd rfl hret

/-- An update is safe exactly when the data is as long as a key id and a stored key is not
destroyed without being replaced. -/
theorem updateSafe_iff (build : Build) (faults : PsaFaults) (id : UInt32) (data : Option Mem)
    (size : Nat) (keys : KeyStore) :
    UpdateSafe build faults id data size keys ↔ KeyProtected build faults id data size keys := by
  have hrecord : ((sidCryptoKeysNewImport build faults id data size keys).ret ≠ esuccess →
      KeepsKey id keys (sidCryptoKeysNewImport build faults id data size keys).keys) →
      ∀ group key keyId, storage2keyId build group key = some keyId →
        build.keyValue keyId = id →
          (recordSetSecure build faults keyId data size keys).1 ≠ errorNone →
            KeepsKey id keys (recordSetSecure build faults keyId data size keys).2 := by
    rintro hkeeps group key keyId - rfl hret
    exact record_keeps build faults keyId data size keys hkeeps hret
  have hsafe : UpdateSafe build faults id data size keys ↔
      ((sidCryptoKeysNewImport build faults id data size keys).ret ≠ esuccess →
        KeepsKey id keys (sidCryptoKeysNewImport build faults id data size keys).keys) ∧
      ∀ i ∈ (sidCryptoKeysNewImport build faults id data size keys).reads, i < size :=
    ⟨fun h => ⟨h.importKeeps, h.reads⟩, fun h => ⟨h.1, hrecord h.1, h.2⟩⟩
  rw [hsafe]
  cases data with
  | none => exact iff_of_true ⟨fun _ value h => h, fun i hi => nomatch hi⟩ (fun d hd => nomatch hd)
  | some d =>
    by_cases hreject : id = psaKeyIdNull ∨ size = 0
    · have heq : sidCryptoKeysNewImport build faults id (some d) size keys =
          ⟨einval, keys, []⟩ := by
        unfold sidCryptoKeysNewImport
        simp only
        rw [if_pos hreject]
      rw [heq]
      refine iff_of_true ⟨fun _ value h => h, fun i hi => nomatch hi⟩ ?_
      intro d' _ hid hsize
      exact absurd hreject (not_or.2 ⟨hid, hsize⟩)
    · obtain ⟨hid, hsize⟩ := not_or.1 hreject
      rw [import_accepted build faults d keys hid hsize, import_reads build faults d keys hid hsize]
      constructor
      · rintro ⟨hkeeps, h4⟩ d' hd - -
        obtain rfl := Option.some.inj hd
        exact ⟨h4, hkeeps⟩
      · intro h
        have := h d rfl hid hsize
        exact ⟨this.2, this.1⟩

/-- Key ids of a build without the key management unit; keys of 16 bytes are taken. -/
def aesBuild : Build where
  psaKeyStorage := true
  keyValue
    | .mfgEd25519Priv => 1
    | .mfgSecp256r1Priv => 2
    | .kvWanMaster => 3
    | .kvAppKey => 4
    | .kvD2d => 5
  accepts _ data := data.length = 16

/-- The application key is stored, and an update with 15 bytes is tried: the import fails, and the
key is gone. -/
theorem refused_update_loses_key :
    (recordSetSecure aesBuild .none .kvAppKey (some fun _ => 0xAA) 15
        (Function.update (fun _ => none) 4 (some (List.replicate 16 0x11)))).1 =
          errorStorageWriteFail ∧
      (recordSetSecure aesBuild .none .kvAppKey (some fun _ => 0xAA) 15
        (Function.update (fun _ => none) 4 (some (List.replicate 16 0x11)))).2 4 = none ∧
      (sidCryptoKeysNewImport aesBuild .none 4 (some fun _ => 0xAA) 1
        (fun _ => none)).reads = [0, 1, 2, 3, 0] := by
  refine ⟨?_, ?_, ?_⟩ <;> decide

end Sidewalk.Storage
