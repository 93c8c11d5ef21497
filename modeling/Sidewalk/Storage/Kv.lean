import Sidewalk.Storage.CryptoKeys

/-!
# The key/value store

`sid_storage.c` over the settings and the secure keys. Settings are a map from names to values with
iteration over a subtree, and neither they nor the PSA fail here. `lastSet` is the map the store
stands for.
-/

namespace Sidewalk.Storage

open Sidewalk.Lib

/-! ## Settings -/

abbrev Name := List Char

/-- Each name has one value. -/
abbrev Settings := List (Name × List UInt8)

namespace Settings

def lookup (s : Settings) (name : Name) : Option (List UInt8) :=
  (s.find? (·.1 = name)).map Prod.snd

/-- `settings_delete`. -/
def delete (s : Settings) (name : Name) : Settings := s.filter (·.1 ≠ name)

/-- `settings_save_one`. -/
def saveOne (s : Settings) (name : Name) (value : List UInt8) : Settings :=
  (name, value) :: s.delete name

/-- The rest of a name in the subtree. -/
def relative (subtree name : Name) : Option Name :=
  if name = subtree then some []
  else if (subtree ++ ['/']).isPrefixOf name then some (name.drop (subtree.length + 1))
  else none

/-- What `settings_load_subtree_direct` calls back with. -/
def subtree (s : Settings) (name : Name) : Settings :=
  s.filterMap fun entry => (relative name entry.1).map (·, entry.2)

end Settings

/-- `settings_utils_load_immediate_value`: what it returns, and what it has read. -/
def loadImmediateValue (s : Settings) (name : Name) (len : Nat) : Int × Option (List UInt8) :=
  match (s.subtree name).find? (·.1 = []) with
  | some entry => ((entry.2.take len).length, some (entry.2.take len))
  | none => (enoent, none)

/-- `settings_utils_get_value_size`. -/
def getValueSize (s : Settings) (name : Name) : Nat :=
  ((s.subtree name).find? (·.1 = [])).elim 0 fun entry => entry.2.length

/-! ## Names of records -/

def storageSerialSize : Nat := 32

/-- `%04x`. -/
def hex4 (v : UInt16) : Name :=
  [Nat.digitChar (v.toNat / 4096), Nat.digitChar (v.toNat / 256 % 16),
    Nat.digitChar (v.toNat / 16 % 16), Nat.digitChar (v.toNat % 16)]

/-- `snprintf` into a name of the serial size. -/
def snprintf (cs : Name) : Name := cs.take (storageSerialSize - 1)

def settingsSerializeGroup (group : UInt16) : Name :=
  snprintf ("sidewalk/storage/".toList ++ hex4 group)

def settingsSerializeGroupKey (group key : UInt16) : Name :=
  snprintf ("sidewalk/storage/".toList ++ hex4 group ++ ['/'] ++ hex4 key)

/-! ## The store -/

def kvWanMasterKey : UInt16 := 28
def kvAppMasterKey : UInt16 := 30
def kvD2dMasterKey : UInt16 := 48
def kvInternalProtocolGroupId : UInt16 := 0

def errorNone : Int := 0
def errorStorageReadFail : Int := -30
def errorStorageWriteFail : Int := -31

/-- `storage2key_id`, where keys are in secure storage. -/
def storage2keyId (build : Build) (group key : UInt16) : Option KeyId :=
  if build.psaKeyStorage = true ∧ group = kvInternalProtocolGroupId then
    if key = kvWanMasterKey then some .kvWanMaster
    else if key = kvAppMasterKey then some .kvAppKey
    else if key = kvD2dMasterKey then some .kvD2d
    else none
  else none

structure Kv where
  settings : Settings
  psa : Psa

def recordGet (build : Build) (kv : Kv) (group key : UInt16) (len : Nat) :
    Int × Option (List UInt8) :=
  match storage2keyId build group key with
  | some id =>
    match bufferSet build id len kv.psa with
    | (err, data) => (if err ≠ esuccess then errorStorageReadFail else errorNone, data)
  | none =>
    match loadImmediateValue kv.settings (settingsSerializeGroupKey group key) len with
    | (rc, data) => (if rc ≤ 0 then errorNotFound else errorNone, data)

def recordGetLen (kv : Kv) (group key : UInt16) : Int × Nat :=
  let len := getValueSize kv.settings (settingsSerializeGroupKey group key)
  (if len = 0 then errorNotFound else errorNone, len)

def recordSet (build : Build) (kv : Kv) (group key : UInt16) (data : Mem) (len : Nat) : Int × Kv :=
  if len = 0 then (errorInvalidArgs, kv)
  else
    match storage2keyId build group key with
    | some id =>
      match newImport build .none id data len kv.psa with
      | (err, psa) =>
        if err = ebadr then (errorNone, { kv with psa := psa })
        else if err ≠ esuccess then (errorStorageWriteFail, { kv with psa := psa })
        else (errorNone, { kv with psa := psa })
    | none =>
      (errorNone, { kv with
        settings := kv.settings.saveOne (settingsSerializeGroupKey group key) (data.slice 0 len) })

def recordDelete (build : Build) (kv : Kv) (group key : UInt16) : Int × Kv :=
  match storage2keyId build group key with
  | some id => (errorNone, { kv with psa := (keysDelete id kv.psa).2 })
  | none =>
    (errorNone, { kv with
      settings := kv.settings.delete (settingsSerializeGroupKey group key) })

/-- `delete_subtree_cb`. -/
def deleteSubtreeCb (subtree : Name) (s : Settings) (key : Name) : Settings :=
  s.delete (snprintf (subtree ++ ['/'] ++ key))

def groupDelete (build : Build) (kv : Kv) (group : UInt16) : Int × Kv :=
  let serial := settingsSerializeGroup group
  let settings := (kv.settings.subtree serial).foldl
    (fun s entry => deleteSubtreeCb serial s entry.1) kv.settings
  let psa := if build.psaKeyStorage = true ∧ group = kvInternalProtocolGroupId then
      (keysDelete .kvD2d (keysDelete .kvAppKey (keysDelete .kvWanMaster kv.psa).2).2).2
    else kv.psa
  (errorNone, ⟨settings, psa⟩)

/-! ## Runs -/

inductive Call
  | set (group key : UInt16) (data : Mem) (len : Nat)
  | get (group key : UInt16) (len : Nat)
  | getLen (group key : UInt16)
  | delete (group key : UInt16)
  | groupDelete (group : UInt16)

def step (build : Build) (call : Call) (kv : Kv) : Int × Kv :=
  match call with
  | .set group key data len => recordSet build kv group key data len
  | .get group key len => ((recordGet build kv group key len).1, kv)
  | .getLen group key => ((recordGetLen kv group key).1, kv)
  | .delete group key => recordDelete build kv group key
  | .groupDelete group => groupDelete build kv group

/-- The store after the calls, the latest of them first. -/
def run (build : Build) (kv : Kv) : List Call → Kv
  | [] => kv
  | call :: calls => (step build call (run build kv calls)).2

/-- What the last call that sets or deletes the record has left of it: the value of a set that
succeeded. -/
def lastSet (build : Build) (kv : Kv) (group key : UInt16) : List Call → Option (List UInt8)
  | [] => none
  | .set group' key' data len :: calls =>
    if group' = group ∧ key' = key ∧ len ≠ 0 then
      if (recordSet build (run build kv calls) group key data len).1 = errorNone then
        some (data.slice 0 len)
      else none
    else lastSet build kv group key calls
  | .delete group' key' :: calls =>
    if group' = group ∧ key' = key then none else lastSet build kv group key calls
  | .groupDelete group' :: calls =>
    if group' = group then none else lastSet build kv group key calls
  | .get _ _ _ :: calls => lastSet build kv group key calls
  | .getLen _ _ :: calls => lastSet build kv group key calls

/-- No value is a key handle. -/
def NoHandles (build : Build) (calls : List Call) : Prop :=
  ∀ group key data len, Call.set group key data len ∈ calls → isHandle build data len = false

/-- There is no record yet, nor any other setting below the store's. -/
def Fresh (kv : Kv) : Prop :=
  (∀ entry ∈ kv.settings, ¬"sidewalk/storage/".toList <+: entry.1) ∧ ∀ id, kv.psa id = none

end Sidewalk.Storage
