import Sidewalk.Lib.Memory

/-!
# Secure keys

`sid_crypto_keys.c` over a key store of the PSA. A buffer is a memory: the test for a key handle
reads four bytes of it whatever its size. Which key data the PSA takes for a key is a parameter, and
so is which of its calls fail.
-/

namespace Sidewalk.Storage

open Sidewalk.Lib

inductive KeyId
  | mfgEd25519Priv
  | mfgSecp256r1Priv
  | kvWanMaster
  | kvAppKey
  | kvD2d
  deriving DecidableEq, Repr

def KeyId.all : List KeyId := [.mfgEd25519Priv, .mfgSecp256r1Priv, .kvWanMaster, .kvAppKey, .kvD2d]

/-- What is configured, or belongs to the PSA. -/
structure Build where
  psaKeyStorage : Bool
  keyValue : KeyId → UInt32
  accepts : KeyId → List UInt8 → Bool

/-- The keys in secure storage. -/
abbrev Psa := KeyId → Option (List UInt8)

/-- The calls of the PSA that fail. -/
structure PsaFaults where
  destroy : Bool
  importKey : Bool
  purge : Bool

def PsaFaults.none : PsaFaults := ⟨false, false, false⟩

def esuccess : Int := 0
def enoent : Int := -2
def eacces : Int := -13
def efault : Int := -14
def einval : Int := -22
def ebadr : Int := -53

/-- `SID_ERROR_NOT_FOUND`. -/
def errorNotFound : Int := -8

/-- `SID_ERROR_INVALID_ARGS`. -/
def errorInvalidArgs : Int := -11

/-- The bytes of a number, the lowest first. -/
def leBytes4 (v : UInt32) : List UInt8 :=
  [v.toUInt8, (v >>> 8).toUInt8, (v >>> 16).toUInt8, (v >>> 24).toUInt8]

/-- What `sid_crypto_keys_buffer_set` stores: the key id fulfilled with zeros. -/
def handle (build : Build) (id : KeyId) (size : Nat) : List UInt8 :=
  leBytes4 (build.keyValue id) ++ List.replicate (size - 4) 0

/-- `sid_crypto_keys_buffer_get` finds a key id in the buffer. -/
def isHandle (build : Build) (data : Mem) (size : Nat) : Bool :=
  KeyId.all.any (fun id => data.slice 0 4 = leBytes4 (build.keyValue id)) &&
    (data.slice 4 (size - 4)).all (· = 0)

/-- `sid_crypto_keys_new_import`. -/
def newImport (build : Build) (faults : PsaFaults) (id : KeyId) (data : Mem) (size : Nat)
    (psa : Psa) : Int × Psa :=
  if size = 0 then (einval, psa)
  else if isHandle build data size then (ebadr, psa)
  else
    let psa := if faults.destroy then psa else Function.update psa id none
    if faults.importKey = false ∧ psa id = none ∧ build.accepts id (data.slice 0 size) = true then
      let psa := Function.update psa id (some (data.slice 0 size))
      if faults.purge then (efault, psa) else (esuccess, psa)
    else (eacces, psa)

/-- `sid_crypto_keys_buffer_set`, with the buffer where it is set. -/
def bufferSet (build : Build) (id : KeyId) (size : Nat) (psa : Psa) : Int × Option (List UInt8) :=
  if size < 4 then (einval, none)
  else if psa id = none then (eacces, none)
  else (esuccess, some (handle build id size))

/-- `sid_crypto_keys_delete`; the PSA reports a key that is not there as an invalid handle. -/
def keysDelete (id : KeyId) (psa : Psa) : Int × Psa :=
  if psa id = none then (einval, psa) else (esuccess, Function.update psa id none)

/-! ## What an import does -/

/-- The import stores the data. -/
def Stores (build : Build) (faults : PsaFaults) (id : KeyId) (data : Mem) (size : Nat) (psa : Psa) :
    Prop :=
  size ≠ 0 ∧ isHandle build data size = false ∧ faults.importKey = false ∧
    (faults.destroy = true → psa id = none) ∧ build.accepts id (data.slice 0 size) = true

/-- The import destroys a key that is there. -/
def Destroys (build : Build) (faults : PsaFaults) (id : KeyId) (data : Mem) (size : Nat)
    (psa : Psa) : Prop :=
  size ≠ 0 ∧ isHandle build data size = false ∧ faults.destroy = false ∧ psa id ≠ none

theorem newImport_of_stores {build : Build} {faults : PsaFaults} {id : KeyId} {data : Mem}
    {size : Nat} {psa : Psa} (h : Stores build faults id data size psa) :
    (newImport build faults id data size psa).1 = (if faults.purge then efault else esuccess) ∧
      (newImport build faults id data size psa).2 id = some (data.slice 0 size) ∧
      ∀ id', id' ≠ id → (newImport build faults id data size psa).2 id' = psa id' := by
  obtain ⟨hsize, hhandle, himport, hdestroy, haccepts⟩ := h
  have habsent : (if faults.destroy then psa else Function.update psa id none) id = none := by
    split
    · next hd => exact hdestroy hd
    · exact Function.update_self ..
  have hothers : ∀ id', id' ≠ id →
      (if faults.destroy then psa else Function.update psa id none) id' = psa id' := by
    intro id' hne
    split
    · rfl
    · exact Function.update_of_ne hne _ _
  unfold newImport
  simp only [hsize, if_false, hhandle, Bool.false_eq_true, himport, habsent, haccepts, true_and,
    if_true]
  split
  · exact ⟨rfl, Function.update_self .., fun id' hne =>
      (Function.update_of_ne hne _ _).trans (hothers id' hne)⟩
  · exact ⟨rfl, Function.update_self .., fun id' hne =>
      (Function.update_of_ne hne _ _).trans (hothers id' hne)⟩

/-- An import that stores nothing leaves the key, or nothing in its place. -/
theorem newImport_of_not_stores {build : Build} {faults : PsaFaults} {id : KeyId} {data : Mem}
    {size : Nat} {psa : Psa} (h : ¬Stores build faults id data size psa) :
    (newImport build faults id data size psa).1 ≠ esuccess ∧
      (Destroys build faults id data size psa →
        (newImport build faults id data size psa).2 id = none) ∧
      (¬Destroys build faults id data size psa →
        (newImport build faults id data size psa).2 id = psa id) ∧
      ∀ id', id' ≠ id → (newImport build faults id data size psa).2 id' = psa id' := by
  have hinval : einval ≠ esuccess := by decide
  have hbadr : ebadr ≠ esuccess := by decide
  have hacces : eacces ≠ esuccess := by decide
  unfold newImport
  by_cases hsize : size = 0
  · rw [if_pos hsize]
    exact ⟨hinval, fun hd => absurd hsize hd.1, fun _ => rfl, fun _ _ => rfl⟩
  rw [if_neg hsize]
  by_cases hhandle : isHandle build data size = true
  · rw [if_pos hhandle]
    exact ⟨hbadr, fun hd => absurd hd.2.1 (by rw [hhandle]; exact Bool.noConfusion), fun _ => rfl,
      fun _ _ => rfl⟩
  rw [if_neg hhandle]
  have hfails : ¬(faults.importKey = false ∧
      (if faults.destroy then psa else Function.update psa id none) id = none ∧
        build.accepts id (data.slice 0 size) = true) := by
    rintro ⟨himport, habsent, haccepts⟩
    refine h ⟨hsize, Bool.eq_false_of_not_eq_true hhandle, himport, fun hdestroy => ?_, haccepts⟩
    rwa [if_pos hdestroy] at habsent
  simp only
  rw [if_neg hfails]
  by_cases hdestroy : faults.destroy = true
  · rw [if_pos hdestroy]
    exact ⟨hacces, fun hd => absurd hd.2.2.1 (by rw [hdestroy]; exact Bool.noConfusion),
      fun _ => rfl, fun _ _ => rfl⟩
  · rw [if_neg hdestroy]
    refine ⟨hacces, fun _ => Function.update_self .., fun hkept => ?_,
      fun id' hne => Function.update_of_ne hne _ _⟩
    -- Nothing was there to destroy.
    have habsent : psa id = none := by_contra fun hne => hkept ⟨hsize,
      Bool.eq_false_of_not_eq_true hhandle, Bool.eq_false_of_not_eq_true hdestroy, hne⟩
    rw [habsent]
    exact Function.update_self ..

end Sidewalk.Storage
