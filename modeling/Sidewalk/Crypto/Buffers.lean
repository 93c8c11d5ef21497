import Sidewalk.Crypto.Calls
import Sidewalk.Lib.Buffers

/-!
# The buffers of the ECC functions

What `sid_pal_crypto_ecc_dsa`, `sid_pal_crypto_ecc_ecdh` and `sid_pal_crypto_ecc_key_gen` read and
write. A key goes through a local buffer of 65 bytes, and its size through sums and differences of
32 bits.
-/

namespace Sidewalk.Crypto.Buffers

open Lib Storage
open Lib.Program (make Runs runs_bind runs_make_bind)

/-! ## Calls -/

/-- The buffers of the parameters, and the local one. -/
inductive Buffer
  | key
  | prk
  | puk
  | input
  | signature
  | sharedSecret
  | stack
  deriving DecidableEq

/-- Accesses to the buffers, and calls of the PSA with the sizes of their buffers; attributes of
keys are left out. -/
inductive EccCall
  | load (buffer : Buffer) (start length : Nat)
  | store (buffer : Buffer) (start : Nat) (bytes : List UInt8)
  | memcpy (dest : Buffer) (destStart : Nat) (src : Buffer) (srcStart : Nat) (n : UInt32)
  | importKey (data : Buffer) (length : UInt32)
  | verifyMessage (inSize sigSize : UInt32)
  | signMessage (inSize sigSize : UInt32)
  | rawKeyAgreement (peerSize secretSize : UInt32)
  | generateKey
  | exportKey (size : UInt32)
  | exportPublicKey (size : UInt32)
  | destroyKey (key : UInt32)
  deriving DecidableEq

/-- The bytes are those that a load reads, or that the PSA writes. -/
structure EccReply where
  status : PsaStatus
  key : UInt32
  bytes : List UInt8

abbrev Ecc := Program EccCall EccReply

abbrev EccEvents := List (EccCall × EccReply)

namespace EccCall

/-- What a call does to the buffers. -/
def touches (reply : EccReply) : EccCall → List (Touch Buffer)
  | load buffer start length => [.read buffer start length]
  | store buffer start bytes => [.write buffer start bytes]
  | memcpy dest destStart src srcStart n => [.copy dest destStart src srcStart n.toNat]
  | importKey data length => [.read data 0 length.toNat]
  | verifyMessage inSize sigSize =>
    [.read .input 0 inSize.toNat, .read .signature 0 sigSize.toNat]
  | signMessage inSize _ => [.read .input 0 inSize.toNat, .write .signature 0 reply.bytes]
  | rawKeyAgreement peerSize _ =>
    [.read .stack 0 peerSize.toNat, .write .sharedSecret 0 reply.bytes]
  | exportKey _ => [.write .prk 0 reply.bytes]
  | exportPublicKey _ => [.write .stack 0 reply.bytes]
  | generateKey | destroyKey _ => []

/-- The size that a function of the PSA is given for what it writes. -/
def outSize : EccCall → Option UInt32
  | signMessage _ sigSize => some sigSize
  | rawKeyAgreement _ secretSize => some secretSize
  | exportKey size | exportPublicKey size => some size
  | _ => none

end EccCall

def touches (events : EccEvents) : List (Touch Buffer) :=
  events.flatMap fun e => e.1.touches e.2

/-- The PSA writes at most the size it is given. -/
def Bounded (events : EccEvents) : Prop :=
  ∀ e ∈ events, ∀ size ∈ e.1.outSize, e.2.bytes.length ≤ size.toNat

/-! ## Functions -/

/-- The lowest four bytes as a key id. -/
def keyIdOf (bytes : List UInt8) : UInt32 :=
  bytes.foldr (fun b id => id * 256 + b.toUInt32) 0

/-- The loop of `sid_crypto_keys_buffer_get`, with the bytes that are left. -/
def allZero (data : Buffer) : Nat → Nat → Ecc Bool
  | _, 0 => pure true
  | i, left + 1 => do
    let reply ← make (.load data i 1)
    if reply.bytes = [0] then allZero data (i + 1) left else pure false

/-- `sid_crypto_keys_buffer_get`, which reads an id whatever the size. -/
def bufferGet (build : Build) (data : Buffer) (size : UInt32) : Ecc (Option UInt32) :=
  if size = 0 then pure none
  else do
    let id ← make (.load data 0 4)
    if isSidewalkKey build (keyIdOf id.bytes) then do
      if ← allZero data 4 (size.toNat - 4) then pure (some (keyIdOf id.bytes)) else pure none
    else pure none

def prepareKey (build : Build) (data : Buffer) (keyLength : UInt32) :
    Ecc (PsaStatus × UInt32) := do
  match ← (if build.psaKeyStorage then bufferGet build data keyLength else pure none :
      Ecc (Option UInt32)) with
  | some id => pure (.success, id)
  | none => do
    let reply ← make (.importKey data keyLength)
    pure (reply.status, reply.key)

def destroyHandle (build : Build) (keyHandle : UInt32) : Ecc Unit :=
  if build.psaKeyStorage && isSidewalkKey build keyHandle then pure ()
  else do
    let _ ← make (.destroyKey keyHandle)
    pure ()

def ecMaxKeyLength : UInt32 := 65

/-- `SECPxxx_KEY_OFFSET`, behind a prefix. -/
def keyOffset (prefixed : Bool) : UInt32 := if prefixed then 1 else 0

/-- `secpxxx_key_prefix` in the local buffer. -/
def storePrefix (prefixed : Bool) : Ecc Unit :=
  if prefixed then do
    let _ ← make (.store .stack 0 [secpKeyPrefix])
    pure ()
  else pure ()

/-- The size of a key with its prefix, and at most that of the local buffer. -/
def localSize (prefixed : Bool) (keySize : UInt32) : UInt32 :=
  let keySize := keySize + keyOffset prefixed
  if ecMaxKeyLength < keySize then ecMaxKeyLength else keySize

/-- The copy of a key to the local buffer. -/
def copyKey (prefixed : Bool) (src : Buffer) (keySize : UInt32) : Ecc Unit := do
  let _ ← make (.memcpy .stack (keyOffset prefixed).toNat src 0
    (localSize prefixed keySize - keyOffset prefixed))
  pure ()

/-- Which pointers are not null, and the sizes. -/
structure DsaParams where
  algo : Nat
  mode : Nat
  key : Bool
  keySize : UInt32
  input : Bool
  inSize : UInt32
  signature : Bool
  sigSize : UInt32

/-- The public key of `SECP256R1` gets a prefix in front of it. -/
def DsaParams.prefixed (params : DsaParams) : Bool :=
  params.algo = ecdsaSecp256r1 && params.mode = modeVerify

def dsaUse (build : Build) (params : DsaParams) (keyHandle : UInt32) : Ecc SidError :=
  if params.mode = modeVerify then do
    let reply ← make (.verifyMessage params.inSize params.sigSize)
    destroyHandle build keyHandle
    pure (getError reply.status)
  else if params.mode = modeSign then do
    let reply ← make (.signMessage params.inSize params.sigSize)
    destroyHandle build keyHandle
    pure (getError reply.status)
  else pure .invalidArgs

def eccDsa (build : Build) (isInitialized : Bool) (params : DsaParams) : Ecc SidError :=
  if isInitialized = false then pure .uninitialized
  else if params.key = false ∨ params.input = false ∨ params.signature = false then
    pure .nullPointer
  else if params.inSize = 0 ∨ params.keySize = 0 then pure .invalidArgs
  else if ¬(params.algo = eddsaEd25519 ∨ params.algo = ecdsaSecp256r1) then pure .nosupport
  else do
    storePrefix params.prefixed
    copyKey params.prefixed .key params.keySize
    let (status, keyHandle) ← prepareKey build .stack (localSize params.prefixed params.keySize)
    if status = .success then dsaUse build params keyHandle else pure (getError status)

structure EcdhParams where
  algo : Nat
  prk : Bool
  prkSize : UInt32
  puk : Bool
  pukSize : UInt32
  sharedSecret : Bool
  sharedSecretSz : UInt32

def EcdhParams.prefixed (params : EcdhParams) : Bool := params.algo = ecdhSecp256r1

def ecdhUse (build : Build) (params : EcdhParams) (privKeyHandle : UInt32) : Ecc SidError := do
  copyKey params.prefixed .puk params.pukSize
  let reply ← make
    (.rawKeyAgreement (localSize params.prefixed params.pukSize) params.sharedSecretSz)
  destroyHandle build privKeyHandle
  pure (getError reply.status)

def eccEcdh (build : Build) (isInitialized : Bool) (params : EcdhParams) : Ecc SidError :=
  if isInitialized = false then pure .uninitialized
  else if params.prk = false ∨ params.puk = false ∨ params.sharedSecret = false then
    pure .nullPointer
  else if ¬(params.algo = ecdhSecp256r1 ∨ params.algo = ecdhCurve25519) then pure .nosupport
  else do
    storePrefix params.prefixed
    let (status, privKeyHandle) ← prepareKey build .prk params.prkSize
    if status = .success then ecdhUse build params privKeyHandle else pure (getError status)

structure EccKeyGenParams where
  algo : Nat
  prk : Bool
  prkSize : UInt32
  puk : Bool
  pukSize : UInt32

/-- The prefix of a public key of `SECP256R1` is skipped. -/
def EccKeyGenParams.pubKeyOffset (params : EccKeyGenParams) : Nat :=
  if params.algo = ecdsaSecp256r1 ∨ params.algo = ecdhSecp256r1 then 1 else 0

/-- The export of both keys; the public key is copied whether or not it was exported. -/
def exportKeys (params : EccKeyGenParams) : Ecc PsaStatus := do
  let exported ← make (.exportKey params.prkSize)
  if exported.status = .success then do
    let exportedPublic ← make (.exportPublicKey ecMaxKeyLength)
    let _ ← make (.memcpy .puk 0 .stack params.pubKeyOffset params.pukSize)
    pure exportedPublic.status
  else pure exported.status

def eccKeyGen (build : Build) (isInitialized : Bool) (params : EccKeyGenParams) : Ecc SidError :=
  if isInitialized = false then pure .uninitialized
  else if params.prk = false ∨ params.puk = false then pure .nullPointer
  else if params.pukSize = 0 then pure .invalidArgs
  else if ¬(params.algo = eddsaEd25519 ∨ params.algo = ecdsaSecp256r1 ∨
      params.algo = ecdhSecp256r1 ∨ params.algo = ecdhCurve25519) then pure .nosupport
  else do
    let generated ← make .generateKey
    if generated.status = .success then do
      let status ← exportKeys params
      destroyHandle build generated.key
      pure (getError status)
    else pure (getError generated.status)

/-! ## The property -/

/-- Before a function the buffers of its parameters hold bytes, and the local buffer none. -/
def initial (contents : Buffer → Mem) (size : Buffer → Nat) : Contents Buffer := fun b i =>
  if b ≠ .stack ∧ i < size b then some (contents b i) else none

def DsaParams.size (params : DsaParams) : Buffer → Nat
  | .key => params.keySize.toNat
  | .input => params.inSize.toNat
  | .signature => params.sigSize.toNat
  | .stack => ecMaxKeyLength.toNat
  | _ => 0

def EcdhParams.size (params : EcdhParams) : Buffer → Nat
  | .prk => params.prkSize.toNat
  | .puk => params.pukSize.toNat
  | .sharedSecret => params.sharedSecretSz.toNat
  | .stack => ecMaxKeyLength.toNat
  | _ => 0

def EccKeyGenParams.size (params : EccKeyGenParams) : Buffer → Nat
  | .prk => params.prkSize.toNat
  | .puk => params.pukSize.toNat
  | .stack => ecMaxKeyLength.toNat
  | _ => 0

/-- A key is copied whole or not at all. -/
def Whole (src : Buffer) (keySize : UInt32) (events : EccEvents) : Prop :=
  ∀ e ∈ events, ∀ dest destStart srcStart n, e.1 = .memcpy dest destStart src srcStart n →
    n = keySize

/-- What a signature or a verification owes its buffers. -/
structure DsaSound (params : DsaParams) (contents : Buffer → Mem) (events : EccEvents) : Prop where
  safe : Touch.SafeFrom params.size (initial contents params.size) (touches events)
  whole : Whole .key params.keySize events

structure EcdhSound (params : EcdhParams) (contents : Buffer → Mem) (events : EccEvents) :
    Prop where
  safe : Touch.SafeFrom params.size (initial contents params.size) (touches events)
  whole : Whole .puk params.pukSize events

/-- The public key is written where the function succeeds, and nothing else into it. -/
structure KeyGenSound (params : EccKeyGenParams) (contents : Buffer → Mem) (events : EccEvents)
    (r : SidError) : Prop where
  safe : Touch.SafeFrom params.size (initial contents params.size) (touches events)
  untouched : r ≠ .none → ∀ e ∈ events, ∀ destStart src srcStart n,
    e.1 ≠ .memcpy .puk destStart src srcStart n
  generated : r = .none → ∃ size reply start, (.exportPublicKey size, reply) ∈ events ∧
    reply.status = .success ∧ start + params.pukSize.toNat ≤ reply.bytes.length ∧
    ∀ i < params.pukSize.toNat,
      Touch.applyAll (initial contents params.size) (touches events) .puk i =
        reply.bytes[start + i]?

/-- The parameters pass the checks, and the key is used. -/
def DsaParams.Accepted (params : DsaParams) (isInitialized : Bool) : Prop :=
  isInitialized = true ∧ params.key = true ∧ params.input = true ∧ params.signature = true ∧
    params.inSize ≠ 0 ∧ params.keySize ≠ 0 ∧
    (params.algo = eddsaEd25519 ∨ params.algo = ecdsaSecp256r1)

def EcdhParams.Accepted (params : EcdhParams) (isInitialized : Bool) : Prop :=
  isInitialized = true ∧ params.prk = true ∧ params.puk = true ∧ params.sharedSecret = true ∧
    (params.algo = ecdhSecp256r1 ∨ params.algo = ecdhCurve25519)

/-- The key and its prefix fit the local buffer. -/
def Fits (prefixed : Bool) (keySize : UInt32) : Prop :=
  (keyOffset prefixed).toNat + keySize.toNat ≤ 65

instance (prefixed : Bool) (keySize : UInt32) : Decidable (Fits prefixed keySize) :=
  inferInstanceAs (Decidable (_ ≤ _))

/-- A buffer of this size holds a key id where one is read from it. -/
def HoldsId (build : Build) (size : Nat) : Prop := build.psaKeyStorage = true → 4 ≤ size

/-! ## Sizes -/

section

variable {prefixed : Bool} {keySize : UInt32}

theorem toNat_keyOffset : (keyOffset prefixed).toNat = if prefixed then 1 else 0 := by
  cases prefixed <;> rfl

theorem toNat_localSize : (localSize prefixed keySize).toNat =
    min 65 ((keySize.toNat + (keyOffset prefixed).toNat) % 2 ^ 32) := by
  have hmax : ecMaxKeyLength.toNat = 65 := rfl
  unfold localSize
  simp only
  split
  · next hlt =>
    rw [UInt32.lt_iff_toNat_lt, UInt32.toNat_add, hmax] at hlt
    rw [hmax]
    omega
  · next hle =>
    rw [UInt32.lt_iff_toNat_lt, UInt32.toNat_add, hmax] at hle
    rw [UInt32.toNat_add]
    omega

theorem toNat_localSize_sub : (localSize prefixed keySize - keyOffset prefixed).toNat =
    (2 ^ 32 - (keyOffset prefixed).toNat + (localSize prefixed keySize).toNat) % 2 ^ 32 :=
  UInt32.toNat_sub _ _

/-- A copy that is whole and inside is that of a key that fits. -/
theorem fits_iff : Fits prefixed keySize ↔
    (keyOffset prefixed).toNat + (localSize prefixed keySize - keyOffset prefixed).toNat ≤ 65 ∧
      localSize prefixed keySize - keyOffset prefixed = keySize := by
  have hlt := keySize.toNat_lt
  have hoffset := @toNat_keyOffset prefixed
  unfold Fits
  rw [← UInt32.toNat_inj, toNat_localSize_sub, toNat_localSize]
  generalize (keyOffset prefixed).toNat = offset at hoffset ⊢
  split at hoffset <;> omega

theorem Fits.toNat_localSize (h : Fits prefixed keySize) :
    (localSize prefixed keySize).toNat = (keyOffset prefixed).toNat + keySize.toNat := by
  rw [Buffers.toNat_localSize]
  unfold Fits at h
  omega

end

/-! ## The parts of a run -/

section

variable {build : Build} {data : Buffer} {events events' : EccEvents} {keySize : UInt32}
  {prefixed : Bool}

@[simp] theorem touches_nil : touches [] = [] := rfl

@[simp] theorem touches_cons (e : EccCall × EccReply) (events : EccEvents) :
    touches (e :: events) = e.1.touches e.2 ++ touches events := List.flatMap_cons

@[simp] theorem touches_append (events events' : EccEvents) :
    touches (events ++ events') = touches events ++ touches events' := List.flatMap_append

/-- No key is copied. -/
def Copyless (events : EccEvents) : Prop :=
  ∀ e ∈ events, ∀ dest destStart src srcStart n, e.1 ≠ .memcpy dest destStart src srcStart n

theorem copyless_append :
    Copyless (events ++ events') ↔ Copyless events ∧ Copyless events' := List.forall_mem_append

theorem copyless_cons {e : EccCall × EccReply} : Copyless (e :: events) ↔
    (∀ dest destStart src srcStart n, e.1 ≠ .memcpy dest destStart src srcStart n) ∧
      Copyless events := List.forall_mem_cons

theorem copyless_nil : Copyless [] := fun _ h => absurd h List.not_mem_nil

theorem Copyless.whole (h : Copyless events) : Whole data keySize events :=
  fun e he dest destStart srcStart n heq => absurd heq (h e he dest destStart data srcStart n)

/-- Reads of a key, of which the first may be that of an id. -/
structure Preparation (build : Build) (data : Buffer) (keySize : UInt32) (events : EccEvents)
    (result : PsaStatus × UInt32) : Prop where
  copyless : Copyless events
  reads : ∀ t ∈ touches events, ∃ start length, t = .read data start length ∧
    (start + length ≤ keySize.toNat ∨
      build.psaKeyStorage = true ∧ keySize ≠ 0 ∧ start + length ≤ 4)
  id : build.psaKeyStorage = true → keySize ≠ 0 →
    ∃ rest, touches events = .read data 0 4 :: rest
  succeeds : (∀ e ∈ events, e.2.status = .success) → result.1 = .success

/-- The loop reads the bytes behind the id, up to the size. -/
theorem runs_allZero {i left : Nat} {zero : Bool} (h : Runs (allZero data i left) events zero) :
    Copyless events ∧ ∀ t ∈ touches events, ∃ start length, t = .read data start length ∧
      start + length ≤ i + left := by
  induction left generalizing i events with
  | zero =>
    obtain ⟨rfl, rfl⟩ := h
    exact ⟨copyless_nil, fun t ht => absurd ht List.not_mem_nil⟩
  | succ left ih =>
    rw [allZero, runs_make_bind] at h
    obtain ⟨reply, rest, rfl, h⟩ := h
    have hrest : Copyless rest ∧ ∀ t ∈ touches rest, ∃ start length,
        t = .read data start length ∧ start + length ≤ i + (left + 1) := by
      by_cases hzero : reply.bytes = [0]
      · rw [if_pos hzero] at h
        obtain ⟨hcopyless, hreads⟩ := ih h
        refine ⟨hcopyless, fun t ht => ?_⟩
        obtain ⟨start, length, heq, hle⟩ := hreads t ht
        exact ⟨start, length, heq, by omega⟩
      · rw [if_neg hzero] at h
        obtain ⟨rfl, -⟩ := h
        exact ⟨copyless_nil, fun t ht => absurd ht List.not_mem_nil⟩
    refine ⟨copyless_cons.mpr ⟨nofun, hrest.1⟩, fun t ht => ?_⟩
    rcases List.mem_cons.mp ht with rfl | ht
    · exact ⟨i, 1, rfl, by omega⟩
    · exact hrest.2 t ht

/-- An id is read whatever the size, and then the rest. -/
theorem runs_bufferGet {id : Option UInt32} (h : Runs (bufferGet build data keySize) events id) :
    Copyless events ∧
    (∀ t ∈ touches events, ∃ start length, t = .read data start length ∧
      (start + length ≤ keySize.toNat ∨ keySize ≠ 0 ∧ start + length ≤ 4)) ∧
    (keySize ≠ 0 → ∃ rest, touches events = .read data 0 4 :: rest) := by
  unfold bufferGet at h
  by_cases hsize : keySize = 0
  · rw [if_pos hsize] at h
    obtain ⟨rfl, rfl⟩ := h
    exact ⟨copyless_nil, fun t ht => absurd ht List.not_mem_nil, fun hne => absurd hsize hne⟩
  · rw [if_neg hsize, runs_make_bind] at h
    obtain ⟨reply, rest, rfl, h⟩ := h
    have hrest : Copyless rest ∧ ∀ t ∈ touches rest, ∃ start length,
        t = .read data start length ∧ start + length ≤ 4 + (keySize.toNat - 4) := by
      split at h
      · rw [runs_bind] at h
        obtain ⟨scan, zero, tail, hscan, htail, rfl⟩ := h
        obtain rfl : tail = [] := by
          split at htail <;> exact htail.1
        rw [List.append_nil]
        exact runs_allZero hscan
      · obtain ⟨rfl, -⟩ := h
        exact ⟨copyless_nil, fun t ht => absurd ht List.not_mem_nil⟩
    refine ⟨copyless_cons.mpr ⟨nofun, hrest.1⟩, fun t ht => ?_, fun _ => ⟨_, rfl⟩⟩
    rcases List.mem_cons.mp ht with rfl | ht
    · exact ⟨0, 4, rfl, .inr ⟨hsize, Nat.le_refl 4⟩⟩
    · obtain ⟨start, length, heq, hle⟩ := hrest.2 t ht
      refine ⟨start, length, heq, ?_⟩
      by_cases hlong : start + length ≤ keySize.toNat
      · exact .inl hlong
      · exact .inr ⟨hsize, by omega⟩

theorem runs_prepareKey {result : PsaStatus × UInt32}
    (h : Runs (prepareKey build data keySize) events result) :
    Preparation build data keySize events result := by
  unfold prepareKey at h
  rw [runs_bind] at h
  obtain ⟨gets, id, imports, hget, himport, rfl⟩ := h
  -- What is got touches nothing where the keys are not stored.
  have hgets : Copyless gets ∧
      (∀ t ∈ touches gets, ∃ start length, t = .read data start length ∧
        (start + length ≤ keySize.toNat ∨
          build.psaKeyStorage = true ∧ keySize ≠ 0 ∧ start + length ≤ 4)) ∧
      (build.psaKeyStorage = true → keySize ≠ 0 →
        ∃ rest, touches gets = .read data 0 4 :: rest) := by
    by_cases hstorage : build.psaKeyStorage = true
    · rw [if_pos hstorage] at hget
      obtain ⟨hcopyless, hreads, hid⟩ := runs_bufferGet hget
      refine ⟨hcopyless, fun t ht => ?_, fun _ => hid⟩
      obtain ⟨start, length, heq, hle⟩ := hreads t ht
      exact ⟨start, length, heq, hle.imp_right fun hle => ⟨hstorage, hle⟩⟩
    · rw [if_neg hstorage] at hget
      obtain ⟨rfl, -⟩ := hget
      exact ⟨copyless_nil, fun t ht => absurd ht List.not_mem_nil, fun h => absurd h hstorage⟩
  have himports : Copyless imports ∧
      (∀ t ∈ touches imports, t = .read data 0 keySize.toNat) ∧
      ((∀ e ∈ imports, e.2.status = .success) → result.1 = .success) := by
    cases id with
    | some id =>
      obtain ⟨rfl, rfl⟩ := himport
      exact ⟨copyless_nil, fun t ht => absurd ht List.not_mem_nil, fun _ => rfl⟩
    | none =>
      obtain ⟨reply, rest, rfl, rfl, rfl⟩ := himport
      exact ⟨copyless_cons.mpr ⟨nofun, copyless_nil⟩, fun t ht => List.mem_singleton.mp ht,
        fun hall => hall _ List.mem_cons_self⟩
  refine ⟨copyless_append.mpr ⟨hgets.1, himports.1⟩, fun t ht => ?_, fun hstorage hsize => ?_,
    fun hall => himports.2.2 fun e he => hall e (List.mem_append_right _ he)⟩
  · rw [touches_append, List.mem_append] at ht
    rcases ht with ht | ht
    · exact hgets.2.1 t ht
    · exact ⟨0, keySize.toNat, himports.2.1 t ht, .inl (Nat.zero_add _).le⟩
  · obtain ⟨rest, hrest⟩ := hgets.2.2 hstorage hsize
    rw [touches_append, hrest]
    exact ⟨_, rfl⟩

theorem runs_destroyHandle {key : UInt32} {u : Unit} (h : Runs (destroyHandle build key) events u) :
    Copyless events ∧ touches events = [] := by
  unfold destroyHandle at h
  split at h
  · obtain ⟨rfl, -⟩ := h
    exact ⟨copyless_nil, rfl⟩
  · obtain ⟨reply, rest, rfl, rfl, -⟩ := h
    exact ⟨copyless_cons.mpr ⟨nofun, copyless_nil⟩, rfl⟩

theorem runs_storePrefix {u : Unit} (h : Runs (storePrefix prefixed) events u) :
    Copyless events ∧
      touches events = if prefixed then [.write .stack 0 [secpKeyPrefix]] else [] := by
  unfold storePrefix at h
  cases prefixed with
  | true =>
    obtain ⟨reply, rest, rfl, rfl, -⟩ := h
    exact ⟨copyless_cons.mpr ⟨nofun, copyless_nil⟩, rfl⟩
  | false =>
    obtain ⟨rfl, -⟩ := h
    exact ⟨copyless_nil, rfl⟩

theorem runs_copyKey {src : Buffer} {u : Unit} (h : Runs (copyKey prefixed src keySize) events u) :
    ∃ reply, events = [(.memcpy .stack (keyOffset prefixed).toNat src 0
      (localSize prefixed keySize - keyOffset prefixed), reply)] := by
  obtain ⟨reply, rest, rfl, rfl, -⟩ := h
  exact ⟨reply, rfl⟩

variable {size : Buffer → Nat} {contents : Buffer → Mem} {ts : List (Touch Buffer)}

theorem ready_initial :
    Touch.Ready (Function.update size .stack 0) (initial contents size) := by
  intro b i hi
  by_cases hb : b = .stack
  · rw [hb, Function.update_self] at hi
    omega
  · rw [Function.update_of_ne hb] at hi
    rw [initial, if_pos ⟨hb, hi⟩]
    rfl

theorem checked_store (hstack : size .stack = 65)
    (h : Touch.Checked size (Function.update size .stack (keyOffset prefixed).toNat) ts) :
    Touch.Checked size (Function.update size .stack 0)
      ((if prefixed then [.write .stack 0 [secpKeyPrefix]] else []) ++ ts) := by
  cases prefixed with
  | true =>
    refine ⟨?_, ?_⟩
    · change 0 + 1 ≤ size .stack
      omega
    · rw [Touch.grow, Touch.extend, if_pos (Nat.zero_le _), Function.update_self,
        Function.update_idem]
      exact h
  | false => exact h

theorem checked_copy {src : Buffer} (hfits : Fits prefixed keySize) (hstack : size .stack = 65)
    (hsrc : src ≠ .stack) (hsize : keySize.toNat ≤ size src)
    (h : Touch.Checked size
      (Function.update size .stack ((keyOffset prefixed).toNat + keySize.toNat)) ts) :
    Touch.Checked size (Function.update size .stack (keyOffset prefixed).toNat)
      (.copy .stack (keyOffset prefixed).toNat src 0
        (localSize prefixed keySize - keyOffset prefixed).toNat :: ts) := by
  rw [(fits_iff.mp hfits).2]
  refine ⟨⟨?_, ?_⟩, ?_⟩
  · rw [Function.update_of_ne hsrc, Nat.zero_add]
    exact hsize
  · rw [hstack]
    exact hfits
  · rw [Touch.grow, Touch.extend, if_pos (by rw [Function.update_self]), Function.update_self,
      Function.update_idem, Nat.max_eq_right (Nat.le_add_right _ _)]
    exact h

/-- Nothing is there behind the prefix. -/
theorem stored_behind {i : Nat} (hi : (keyOffset prefixed).toNat ≤ i) :
    Touch.applyAll (initial contents size)
      (if prefixed then [.write .stack 0 [secpKeyPrefix]] else []) .stack i = none := by
  have hinitial : initial contents size .stack i = none := if_neg fun h => h.1 rfl
  cases prefixed with
  | true => exact (Touch.put_after hi).trans hinitial
  | false => exact hinitial

theorem stored_other {b : Buffer} (hb : b ≠ .stack) (i : Nat) :
    Touch.applyAll (initial contents size)
      (if prefixed then [.write .stack 0 [secpKeyPrefix]] else []) b i =
        initial contents size b i := by
  cases prefixed with
  | true => exact Touch.put_other hb
  | false => rfl

/-- A key that is copied safely and whole fits. -/
theorem fits_of_copied {src : Buffer} {reply : EccReply} {m : Contents Buffer}
    (hstack : size .stack = 65)
    (hmem : (.memcpy .stack (keyOffset prefixed).toNat src 0
      (localSize prefixed keySize - keyOffset prefixed), reply) ∈ events)
    (hsafe : Touch.SafeFrom size m (touches events)) (hwhole : Whole src keySize events) :
    Fits prefixed keySize := by
  refine fits_iff.mpr ⟨?_, hwhole _ hmem _ _ _ _ rfl⟩
  have htouch : Touch.copy .stack (keyOffset prefixed).toNat src 0
      (localSize prefixed keySize - keyOffset prefixed).toNat ∈ touches events :=
    List.mem_flatMap.mpr ⟨_, hmem, List.mem_cons_self⟩
  obtain ⟨before, -, hinside⟩ := hsafe.mem htouch
  rw [hstack] at hinside
  exact hinside

end

/-! ## Signatures -/

section

variable {build : Build} {isInitialized : Bool} {params : DsaParams} {contents : Buffer → Mem}
  {events : EccEvents} {r : SidError}

/-- The use of a key touches the message and the signature only. -/
theorem runs_dsaUse {key : UInt32} (h : Runs (dsaUse build params key) events r)
    (hbounded : Bounded events) :
    Copyless events ∧ ∀ t ∈ touches events, (∃ length ≤ params.inSize.toNat,
        t = .read .input 0 length) ∨
      (∃ length ≤ params.sigSize.toNat, t = .read .signature 0 length) ∨
      ∃ bytes, bytes.length ≤ params.sigSize.toNat ∧ t = .write .signature 0 bytes := by
  unfold dsaUse at h
  split at h
  · rw [runs_make_bind] at h
    obtain ⟨reply, rest, rfl, h⟩ := h
    rw [runs_bind] at h
    obtain ⟨destroys, u, tail, hdestroy, ⟨rfl, rfl⟩, rfl⟩ := h
    obtain ⟨hcopyless, htouches⟩ := runs_destroyHandle hdestroy
    rw [List.append_nil]
    refine ⟨copyless_cons.mpr ⟨nofun, hcopyless⟩, fun t ht => ?_⟩
    rw [touches_cons, htouches, List.append_nil] at ht
    rcases List.mem_cons.mp ht with rfl | ht
    · exact .inl ⟨_, Nat.le_refl _, rfl⟩
    · exact .inr (.inl ⟨_, Nat.le_refl _, List.mem_singleton.mp ht⟩)
  · split at h
    · rw [runs_make_bind] at h
      obtain ⟨reply, rest, rfl, h⟩ := h
      rw [runs_bind] at h
      obtain ⟨destroys, u, tail, hdestroy, ⟨rfl, rfl⟩, rfl⟩ := h
      obtain ⟨hcopyless, htouches⟩ := runs_destroyHandle hdestroy
      have hbytes := hbounded _ List.mem_cons_self _ (Option.mem_some_self _)
      rw [List.append_nil]
      refine ⟨copyless_cons.mpr ⟨nofun, hcopyless⟩, fun t ht => ?_⟩
      rw [touches_cons, htouches, List.append_nil] at ht
      rcases List.mem_cons.mp ht with rfl | ht
      · exact .inl ⟨_, Nat.le_refl _, rfl⟩
      · exact .inr (.inr ⟨_, hbytes, List.mem_singleton.mp ht⟩)
    · obtain ⟨rfl, -⟩ := h
      exact ⟨copyless_nil, fun t ht => absurd ht List.not_mem_nil⟩

theorem runs_eccDsa_rejected (hrejected : ¬params.Accepted isInitialized)
    (h : Runs (eccDsa build isInitialized params) events r) : events = [] := by
  unfold eccDsa at h
  split at h
  · exact h.1
  · next hinit =>
    split at h
    · exact h.1
    · next hnull =>
      split at h
      · exact h.1
      · next hsizes =>
        split at h
        · exact h.1
        · next halgo =>
          refine absurd ⟨?_, ?_, ?_, ?_, ?_, ?_, not_not.mp halgo⟩ hrejected <;>
            simp_all

/-- The copy of the key, its preparation, and its use where that succeeds. -/
theorem runs_eccDsa (haccepted : params.Accepted isInitialized)
    (h : Runs (eccDsa build isInitialized params) events r) :
    ∃ stores reply prepares result uses,
      events = stores ++ (.memcpy .stack (keyOffset params.prefixed).toNat .key 0
        (localSize params.prefixed params.keySize - keyOffset params.prefixed), reply) ::
          (prepares ++ uses) ∧
      Runs (storePrefix params.prefixed) stores () ∧
      Runs (prepareKey build .stack (localSize params.prefixed params.keySize)) prepares result ∧
      (uses = [] ∨ Runs (dsaUse build params result.2) uses r) := by
  obtain ⟨hinit, hkey, hinput, hsignature, hin, hsize, halgo⟩ := haccepted
  unfold eccDsa at h
  rw [if_neg (by rw [hinit]; decide), if_neg (by simp [hkey, hinput, hsignature]),
    if_neg (not_or_intro hin hsize), if_neg (not_not_intro halgo), runs_bind] at h
  obtain ⟨stores, u, rest, hstores, h, rfl⟩ := h
  rw [runs_bind] at h
  obtain ⟨copies, u, rest, hcopies, h, rfl⟩ := h
  obtain ⟨reply, rfl⟩ := runs_copyKey hcopies
  rw [runs_bind] at h
  obtain ⟨prepares, result, uses, hprepares, h, rfl⟩ := h
  refine ⟨stores, reply, prepares, result, uses, rfl, hstores, hprepares, ?_⟩
  obtain ⟨status, keyHandle⟩ := result
  change Runs (if status = .success then _ else _) uses r at h
  split at h
  · exact .inr h
  · exact .inl h.1

theorem dsa_sound_iff (h : Runs (eccDsa build isInitialized params) events r)
    (hbounded : Bounded events) :
    DsaSound params contents events ↔ (params.Accepted isInitialized →
      Fits params.prefixed params.keySize ∧
        HoldsId build ((keyOffset params.prefixed).toNat + params.keySize.toNat)) := by
  by_cases haccepted : params.Accepted isInitialized
  · rw [imp_iff_right haccepted]
    obtain ⟨stores, reply, prepares, result, uses, rfl, hstores, hprepares, huses⟩ :=
      runs_eccDsa haccepted h
    obtain ⟨hstoresCopyless, hstoresTouches⟩ := runs_storePrefix hstores
    have hprepared := runs_prepareKey hprepares
    have hsize := haccepted.2.2.2.2.2.1
    constructor
    · intro hsound
      have hfits := fits_of_copied rfl (List.mem_append_right _ List.mem_cons_self) hsound.safe
        hsound.whole
      refine ⟨hfits, fun hstorage => ?_⟩
      have hlocal := hfits.toNat_localSize
      have hne : localSize params.prefixed params.keySize ≠ 0 := by
        intro hzero
        rw [hzero, UInt32.toNat_zero] at hlocal
        exact hsize (UInt32.toNat_inj.mp (by rw [UInt32.toNat_zero]; omega))
      obtain ⟨rest, hid⟩ := hprepared.id hstorage hne
      have hsafe := hsound.safe
      rw [touches_append, touches_cons, touches_append, hstoresTouches, hid,
        Touch.safeFrom_append] at hsafe
      have hread := hsafe.2.2.1 3 (by decide)
      by_contra hshort
      rw [(fits_iff.mp hfits).2, Touch.apply, Touch.put_after (by omega),
        stored_behind (by omega)] at hread
      cases hread
    · rintro ⟨hfits, hid⟩
      have hlocal := hfits.toNat_localSize
      have husesTouches : Copyless uses ∧ ∀ t ∈ touches uses, t.Within params.size
          (Function.update params.size .stack
            ((keyOffset params.prefixed).toNat + params.keySize.toNat)) := by
        rcases huses with rfl | huses
        · exact ⟨copyless_nil, fun t ht => absurd ht List.not_mem_nil⟩
        · obtain ⟨hcopyless, htouches⟩ := runs_dsaUse huses fun e he =>
            hbounded e (List.mem_append_right _ (List.mem_cons_of_mem _
              (List.mem_append_right _ he)))
          refine ⟨hcopyless, fun t ht => ?_⟩
          obtain ⟨length, hle, rfl⟩ | ⟨length, hle, rfl⟩ | ⟨bytes, hle, rfl⟩ := htouches t ht
          · exact (Nat.zero_add _).le.trans hle
          · exact (Nat.zero_add _).le.trans hle
          · exact (Nat.zero_add _).le.trans hle
      refine ⟨?_, ?_⟩
      · rw [touches_append, touches_cons, touches_append, hstoresTouches]
        refine Touch.Checked.safeFrom ?_ ready_initial
        refine checked_store rfl (checked_copy hfits rfl (by decide) (Nat.le_refl _) ?_)
        have hchecked := Touch.checked_of_forall husesTouches.2
        refine hchecked.reads fun t ht => ?_
        obtain ⟨start, length, rfl, hle⟩ := hprepared.reads t ht
        refine ⟨.stack, start, length, rfl, ?_⟩
        rw [Function.update_self]
        rcases hle with hle | ⟨hstorage, -, hle⟩
        · exact hle.trans hlocal.le
        · exact hle.trans (hid hstorage)
      · intro e he dest destStart srcStart n heq
        rcases List.mem_append.mp he with he | he
        · exact absurd heq (hstoresCopyless e he _ _ _ _ _)
        · rcases List.mem_cons.mp he with rfl | he
          · cases heq
            exact (fits_iff.mp hfits).2
          · exact (copyless_append.mpr ⟨hprepared.copyless, husesTouches.1⟩).whole e he _ _ _ _ heq
  · rw [runs_eccDsa_rejected haccepted h]
    exact iff_of_true ⟨trivial, fun e he => absurd he List.not_mem_nil⟩ fun h => absurd h haccepted

end

/-! ## Agreements -/

section

variable {build : Build} {isInitialized : Bool} {params : EcdhParams} {contents : Buffer → Mem}
  {events : EccEvents} {r : SidError}

theorem runs_eccEcdh_rejected (hrejected : ¬params.Accepted isInitialized)
    (h : Runs (eccEcdh build isInitialized params) events r) : events = [] := by
  unfold eccEcdh at h
  split at h
  · exact h.1
  · next hinit =>
    split at h
    · exact h.1
    · next hnull =>
      split at h
      · exact h.1
      · next halgo =>
        refine absurd ⟨?_, ?_, ?_, ?_, not_not.mp halgo⟩ hrejected <;> simp_all

/-- The preparation of the private key, and where it succeeds the copy of the public key. -/
theorem runs_eccEcdh (haccepted : params.Accepted isInitialized)
    (h : Runs (eccEcdh build isInitialized params) events r) :
    ∃ stores prepares result uses, events = stores ++ (prepares ++ uses) ∧
      Runs (storePrefix params.prefixed) stores () ∧
      Runs (prepareKey build .prk params.prkSize) prepares result ∧
      (result.1 ≠ .success ∧ uses = [] ∨
        result.1 = .success ∧ ∃ copied agreed destroys,
          uses = (.memcpy .stack (keyOffset params.prefixed).toNat .puk 0
            (localSize params.prefixed params.pukSize - keyOffset params.prefixed), copied) ::
            (.rawKeyAgreement (localSize params.prefixed params.pukSize) params.sharedSecretSz,
              agreed) :: destroys ∧
          Runs (destroyHandle build result.2) destroys ()) := by
  obtain ⟨hinit, hprk, hpuk, hsecret, halgo⟩ := haccepted
  unfold eccEcdh at h
  rw [if_neg (by rw [hinit]; decide), if_neg (by simp [hprk, hpuk, hsecret]),
    if_neg (not_not_intro halgo), runs_bind] at h
  obtain ⟨stores, u, rest, hstores, h, rfl⟩ := h
  rw [runs_bind] at h
  obtain ⟨prepares, ⟨status, keyHandle⟩, uses, hprepares, h, rfl⟩ := h
  refine ⟨stores, prepares, _, uses, rfl, hstores, hprepares, ?_⟩
  change Runs (if status = .success then _ else _) uses r at h
  split at h
  · next hsuccess =>
    unfold ecdhUse at h
    rw [runs_bind] at h
    obtain ⟨copies, u, rest, hcopies, h, rfl⟩ := h
    obtain ⟨copied, rfl⟩ := runs_copyKey hcopies
    rw [runs_make_bind] at h
    obtain ⟨agreed, rest, rfl, h⟩ := h
    rw [runs_bind] at h
    obtain ⟨destroys, u, tail, hdestroy, ⟨rfl, rfl⟩, rfl⟩ := h
    rw [List.append_nil]
    exact .inr ⟨hsuccess, copied, agreed, destroys, rfl, hdestroy⟩
  · next hfails => exact .inl ⟨hfails, h.1⟩

theorem ecdh_sound (hfits : Fits params.prefixed params.pukSize)
    (hid : params.prkSize ≠ 0 → HoldsId build params.prkSize.toNat)
    (haccepted : params.Accepted isInitialized)
    (h : Runs (eccEcdh build isInitialized params) events r) (hbounded : Bounded events) :
    EcdhSound params contents events := by
  obtain ⟨stores, prepares, result, uses, rfl, hstores, hprepares, huses⟩ :=
    runs_eccEcdh haccepted h
  obtain ⟨hstoresCopyless, hstoresTouches⟩ := runs_storePrefix hstores
  have hprepared := runs_prepareKey hprepares
  have hlocal := hfits.toNat_localSize
  have husesSound : Whole .puk params.pukSize uses ∧ Touch.Checked params.size
      (Function.update params.size .stack (keyOffset params.prefixed).toNat) (touches uses) := by
    rcases huses with ⟨-, rfl⟩ | ⟨-, copied, agreed, destroys, rfl, hdestroy⟩
    · exact ⟨copyless_nil.whole, trivial⟩
    · obtain ⟨hcopyless, htouches⟩ := runs_destroyHandle hdestroy
      have hbytes : agreed.bytes.length ≤ params.sharedSecretSz.toNat :=
        hbounded (_, agreed) (List.mem_append_right _ (List.mem_append_right _
          (List.mem_cons_of_mem _ List.mem_cons_self))) _ (Option.mem_some_self _)
      refine ⟨fun e he dest destStart srcStart n heq => ?_, ?_⟩
      · rcases List.mem_cons.mp he with rfl | he
        · cases heq
          exact (fits_iff.mp hfits).2
        · rcases List.mem_cons.mp he with rfl | he
          · cases heq
          · exact hcopyless.whole e he _ _ _ _ heq
      · rw [touches_cons, touches_cons, htouches]
        refine checked_copy hfits rfl (by decide) (Nat.le_refl _)
          (Touch.checked_of_forall fun t ht => ?_)
        rcases List.mem_cons.mp ht with rfl | ht
        · rw [Touch.Within, Function.update_self, Nat.zero_add]
          exact hlocal.le
        · rw [List.mem_singleton.mp ht]
          exact (Nat.zero_add _).le.trans hbytes
  refine ⟨?_, ?_⟩
  · rw [touches_append, touches_append, hstoresTouches]
    refine Touch.Checked.safeFrom (checked_store rfl ?_) ready_initial
    refine husesSound.2.reads fun t ht => ?_
    obtain ⟨start, length, rfl, hle⟩ := hprepared.reads t ht
    refine ⟨.prk, start, length, rfl, ?_⟩
    rw [Function.update_of_ne (by decide)]
    rcases hle with hle | ⟨hstorage, hne, hle⟩
    · exact hle
    · exact hle.trans (hid hne hstorage)
  · intro e he dest destStart srcStart n heq
    rcases List.mem_append.mp he with he | he
    · exact absurd heq (hstoresCopyless e he _ _ _ _ _)
    · rcases List.mem_append.mp he with he | he
      · exact absurd heq (hprepared.copyless e he _ _ _ _ _)
      · exact husesSound.1 e he _ _ _ _ heq

/-- Every run is sound exactly if the public key fits and the private key holds an id. -/
theorem ecdh_sound_iff :
    (∀ events r, Runs (eccEcdh build isInitialized params) events r → Bounded events →
      EcdhSound params contents events) ↔ (params.Accepted isInitialized →
        Fits params.prefixed params.pukSize ∧
          (params.prkSize ≠ 0 → HoldsId build params.prkSize.toNat)) := by
  constructor
  · intro hall haccepted
    -- A run in which everything succeeds.
    obtain ⟨events, r, hrun, hanswers⟩ := Program.exists_runs
      (fun _ => (⟨.success, 0, []⟩ : EccReply)) (eccEcdh build isInitialized params)
    have hsound := hall events r hrun fun e he size _ => by
      rw [hanswers e he]
      exact Nat.zero_le _
    obtain ⟨stores, prepares, result, uses, rfl, hstores, hprepares, huses⟩ :=
      runs_eccEcdh haccepted hrun
    have hprepared := runs_prepareKey hprepares
    have hsuccess : result.1 = .success := hprepared.succeeds fun e he => by
      rw [hanswers e (List.mem_append_right _ (List.mem_append_left _ he))]
    obtain ⟨hfails, -⟩ | ⟨-, copied, agreed, destroys, rfl, -⟩ := huses
    · exact absurd hsuccess hfails
    · refine ⟨fits_of_copied rfl (List.mem_append_right _ (List.mem_append_right _
        List.mem_cons_self)) hsound.safe hsound.whole, fun hne hstorage => ?_⟩
      obtain ⟨rest, hid⟩ := hprepared.id hstorage hne
      obtain ⟨-, hstoresTouches⟩ := runs_storePrefix hstores
      have hsafe := hsound.safe
      rw [touches_append, touches_append, hstoresTouches, hid, Touch.safeFrom_append] at hsafe
      have hread := hsafe.2.1 3 (by decide)
      by_contra hshort
      rw [stored_other (by decide), initial, if_neg (fun h => hshort h.2)] at hread
      cases hread
  · intro h events r hrun hbounded
    by_cases haccepted : params.Accepted isInitialized
    · obtain ⟨hfits, hid⟩ := h haccepted
      exact ecdh_sound hfits hid haccepted hrun hbounded
    · rw [runs_eccEcdh_rejected haccepted hrun]
      exact ⟨trivial, fun e he => absurd he List.not_mem_nil⟩

end

/-! ## Generation -/

section

variable {build : Build} {isInitialized : Bool} {params : EccKeyGenParams}
  {contents : Buffer → Mem} {events : EccEvents} {r : SidError}

/-- The export of the public key, where there is one, succeeds and gives enough bytes. -/
def Exported (params : EccKeyGenParams) (events : EccEvents) : Prop :=
  ∀ size reply, (.exportPublicKey size, reply) ∈ events →
    reply.status = .success ∧ params.pubKeyOffset + params.pukSize.toNat ≤ reply.bytes.length

/-- A function that ends before the public key is exported. -/
structure Unexported (params : EccKeyGenParams) (events : EccEvents) (r : SidError) : Prop where
  copyless : Copyless events
  fails : r ≠ .none
  writes : ∀ t ∈ touches events, ∃ bytes, bytes.length ≤ params.prkSize.toNat ∧
    t = .write .prk 0 bytes
  absent : ∀ size reply, (.exportPublicKey size, reply) ∉ events

theorem unexported_nil (hr : r ≠ .none) : Unexported params [] r :=
  ⟨copyless_nil, hr, fun _ ht => absurd ht List.not_mem_nil, fun _ _ => List.not_mem_nil⟩

/-- What touches nothing exports nothing. -/
theorem not_exported_of_touchless (h : touches events = []) (size : UInt32) (reply : EccReply) :
    (.exportPublicKey size, reply) ∉ events := fun he =>
  absurd (List.flatMap_eq_nil_iff.mp h _ he) (List.cons_ne_nil _ _)

theorem runs_eccKeyGen (h : Runs (eccKeyGen build isInitialized params) events r)
    (hbounded : Bounded events) :
    Unexported params events r ∨ params.pukSize ≠ 0 ∧ ∃ generated exported exportedPublic copied
      destroys, events = (.generateKey, generated) :: (.exportKey params.prkSize, exported) ::
        (.exportPublicKey ecMaxKeyLength, exportedPublic) ::
        (.memcpy .puk 0 .stack params.pubKeyOffset params.pukSize, copied) :: destroys ∧
      exported.bytes.length ≤ params.prkSize.toNat ∧ exportedPublic.bytes.length ≤ 65 ∧
      Copyless destroys ∧ touches destroys = [] ∧ r = getError exportedPublic.status := by
  unfold eccKeyGen at h
  split at h
  · obtain ⟨rfl, rfl⟩ := h
    exact .inl (unexported_nil nofun)
  split at h
  · obtain ⟨rfl, rfl⟩ := h
    exact .inl (unexported_nil nofun)
  split at h
  · obtain ⟨rfl, rfl⟩ := h
    exact .inl (unexported_nil nofun)
  next hsize =>
  split at h
  · obtain ⟨rfl, rfl⟩ := h
    exact .inl (unexported_nil nofun)
  rw [runs_make_bind] at h
  obtain ⟨generated, rest, rfl, h⟩ := h
  split at h
  · rw [runs_bind] at h
    obtain ⟨exports, status, rest, hexports, h, rfl⟩ := h
    rw [runs_bind] at h
    obtain ⟨destroys, u, tail, hdestroy, ⟨rfl, rfl⟩, rfl⟩ := h
    rw [List.append_nil] at hbounded ⊢
    obtain ⟨hcopyless, htouches⟩ := runs_destroyHandle hdestroy
    unfold exportKeys at hexports
    rw [runs_make_bind] at hexports
    obtain ⟨exported, rest, rfl, hexports⟩ := hexports
    have hbytes : exported.bytes.length ≤ params.prkSize.toNat :=
      hbounded (_, exported) (List.mem_cons_of_mem _ List.mem_cons_self) _
        (Option.mem_some_self _)
    split at hexports
    · rw [runs_make_bind] at hexports
      obtain ⟨exportedPublic, rest, rfl, copied, rest, rfl, rfl, rfl⟩ := hexports
      have hpublic : exportedPublic.bytes.length ≤ 65 :=
        hbounded (_, exportedPublic) (List.mem_cons_of_mem _ (List.mem_cons_of_mem _
          List.mem_cons_self)) _ (Option.mem_some_self _)
      exact .inr ⟨hsize, generated, exported, exportedPublic, copied, destroys, rfl, hbytes,
        hpublic, hcopyless, htouches, rfl⟩
    · next hfails =>
      obtain ⟨rfl, rfl⟩ := hexports
      refine .inl ⟨?_, fun hnone => hfails (getError_none hnone), fun t ht => ?_,
        fun size reply he => ?_⟩
      · exact copyless_cons.mpr ⟨nofun, copyless_cons.mpr ⟨nofun, hcopyless⟩⟩
      · have hmem : t ∈ EccCall.touches exported (.exportKey params.prkSize) ++ touches destroys :=
          ht
        rw [htouches, List.append_nil] at hmem
        exact ⟨_, hbytes, List.mem_singleton.mp hmem⟩
      · rcases List.mem_cons.mp he with heq | he
        · cases heq
        · rcases List.mem_cons.mp he with heq | he
          · cases heq
          · exact not_exported_of_touchless htouches size reply he
  · next hfails =>
    obtain ⟨rfl, rfl⟩ := h
    refine .inl ⟨copyless_cons.mpr ⟨nofun, copyless_nil⟩, fun hnone => hfails (getError_none hnone),
      fun t ht => absurd ht List.not_mem_nil, fun size reply he => ?_⟩
    cases List.mem_singleton.mp he

theorem Unexported.sound (h : Unexported params events r) :
    KeyGenSound params contents events r where
  safe := by
    refine Touch.Checked.safeFrom (Touch.checked_of_forall fun t ht => ?_) ready_initial
    obtain ⟨bytes, hle, rfl⟩ := h.writes t ht
    exact (Nat.zero_add _).le.trans hle
  untouched _ e he destStart src srcStart n := h.copyless e he _ _ _ _ _
  generated hr := absurd hr h.fails

/-- The local buffer holds what was exported, and nothing behind it. -/
theorem exported_stack {m : Contents Buffer} (exported exportedPublic : List UInt8) {i : Nat}
    (hm : m .stack i = none) :
    Touch.applyAll m [.write .prk 0 exported, .write .stack 0 exportedPublic] .stack i =
      exportedPublic[i]? := by
  change Touch.put _ Buffer.stack 0 exportedPublic.length (fun i => exportedPublic[i]?) .stack i = _
  by_cases hi : i < exportedPublic.length
  · have hput := Touch.put_inside (Touch.apply m (.write .prk 0 exported)) Buffer.stack 0
      (fun i => exportedPublic[i]?) hi
    rw [Nat.zero_add] at hput
    exact hput
  · rw [Touch.put_after (by omega), List.getElem?_eq_none (by omega)]
    exact (Touch.put_other (by decide)).trans hm

theorem keyGen_sound_iff (h : Runs (eccKeyGen build isInitialized params) events r)
    (hbounded : Bounded events) :
    KeyGenSound params contents events r ↔ Exported params events := by
  obtain hunexported | ⟨hsize, generated, exported, exportedPublic, copied, destroys, rfl, hbytes,
    hpublic, hcopyless, htouches, rfl⟩ := runs_eccKeyGen h hbounded
  · exact iff_of_true hunexported.sound
      fun size reply he => absurd he (hunexported.absent size reply)
  have hn : params.pukSize.toNat ≠ 0 := fun hzero =>
    hsize (UInt32.toNat_inj.mp (hzero.trans UInt32.toNat_zero.symm))
  have hstack (i : Nat) : Touch.applyAll (initial contents params.size)
      [.write .prk 0 exported.bytes, .write .stack 0 exportedPublic.bytes] .stack i =
        exportedPublic.bytes[i]? :=
    exported_stack exported.bytes exportedPublic.bytes (if_neg fun h => h.1 rfl)
  have htouch : touches ((.generateKey, generated) :: (.exportKey params.prkSize, exported) ::
      (.exportPublicKey ecMaxKeyLength, exportedPublic) ::
      (.memcpy .puk 0 .stack params.pubKeyOffset params.pukSize, copied) :: destroys) =
      [.write .prk 0 exported.bytes, .write .stack 0 exportedPublic.bytes] ++
        [.copy .puk 0 .stack params.pubKeyOffset params.pukSize.toNat] := by
    simp only [touches_cons, htouches]
    rfl
  constructor
  · intro hsound size reply he
    obtain ⟨rfl, rfl⟩ : size = ecMaxKeyLength ∧ reply = exportedPublic := by
      simpa [not_exported_of_touchless htouches] using he
    have hsuccess : reply.status = .success := by
      by_contra hfails
      exact hsound.untouched (fun hnone => hfails (getError_none hnone)) _
        (List.mem_cons_of_mem _ (List.mem_cons_of_mem _ (List.mem_cons_of_mem _
          List.mem_cons_self))) _ _ _ _ rfl
    have hsafe := hsound.safe
    rw [htouch, Touch.safeFrom_append] at hsafe
    have hlast := hsafe.2.1.1 (params.pukSize.toNat - 1) (by omega)
    rw [hstack] at hlast
    refine ⟨hsuccess, ?_⟩
    by_contra hshort
    rw [List.getElem?_eq_none (by omega)] at hlast
    cases hlast
  · intro hexported
    obtain ⟨hsuccess, hle⟩ := hexported ecMaxKeyLength exportedPublic
      (List.mem_cons_of_mem _ (List.mem_cons_of_mem _ List.mem_cons_self))
    refine ⟨?_, fun hfails => absurd (congrArg getError hsuccess) hfails, fun _ => ?_⟩
    · rw [htouch]
      refine ⟨(Nat.zero_add _).le.trans hbytes, (Nat.zero_add _).le.trans hpublic,
        ⟨fun i hi => ?_, (Nat.zero_add _).le⟩, trivial⟩
      have hget := hstack (params.pubKeyOffset + i)
      rw [List.getElem?_eq_getElem (by omega)] at hget
      exact Option.isSome_of_eq_some hget
    · refine ⟨ecMaxKeyLength, exportedPublic, params.pubKeyOffset,
        List.mem_cons_of_mem _ (List.mem_cons_of_mem _ List.mem_cons_self), hsuccess, hle,
        fun i hi => ?_⟩
      rw [htouch, ← hstack]
      have hput := Touch.put_inside (Touch.applyAll (initial contents params.size)
        [.write .prk 0 exported.bytes, .write .stack 0 exportedPublic.bytes]) Buffer.puk 0
        (fun i => Touch.applyAll (initial contents params.size)
          [.write .prk 0 exported.bytes, .write .stack 0 exportedPublic.bytes] .stack
            (params.pubKeyOffset + i)) hi
      rw [Nat.zero_add] at hput
      exact hput

end

/-! ## All functions -/

/-- A signature or verification is sound exactly if its key fits the local buffer and is no shorter
than an id that is read from it, an agreement in all runs exactly if that holds of its public and
its private key, and a generation exactly if the public key that is exported is long enough. -/
theorem buffers_sound_iff (build : Build) (isInitialized : Bool) (contents : Buffer → Mem) :
    (∀ params events r,
      Runs (eccDsa build isInitialized params) events r → Bounded events →
      (DsaSound params contents events ↔ (params.Accepted isInitialized →
        Fits params.prefixed params.keySize ∧
          HoldsId build ((keyOffset params.prefixed).toNat + params.keySize.toNat)))) ∧
    (∀ params,
      (∀ events r, Runs (eccEcdh build isInitialized params) events r → Bounded events →
        EcdhSound params contents events) ↔ (params.Accepted isInitialized →
          Fits params.prefixed params.pukSize ∧
            (params.prkSize ≠ 0 → HoldsId build params.prkSize.toNat))) ∧
    ∀ params events r,
      Runs (eccKeyGen build isInitialized params) events r → Bounded events →
      (KeyGenSound params contents events r ↔ Exported params events) :=
  ⟨fun _ _ _ => dsa_sound_iff, fun _ => ecdh_sound_iff, fun _ _ _ => keyGen_sound_iff⟩

/-- Without key storage. -/
def plainBuild : Build := ⟨false, fun _ => 0, fun _ _ => true⟩

/-- Every call succeeds and writes nothing. -/
def succeeds : EccReply := ⟨.success, 1, []⟩

/-- The verification of 8 bytes with a key of that size for `ED25519`. -/
def verifyParams (keySize : UInt32) : DsaParams :=
  ⟨eddsaEd25519, modeVerify, true, keySize, true, 8, true, 64⟩

def verifyEvents (keySize : UInt32) : EccEvents :=
  [(.memcpy .stack 0 .key 0 (localSize false keySize), succeeds),
    (.importKey .stack (localSize false keySize), succeeds), (.verifyMessage 8 64, succeeds),
    (.destroyKey 1, succeeds)]

theorem runs_verifyEvents :
    Runs (eccDsa plainBuild true (verifyParams 32)) (verifyEvents 32) .none ∧
      Runs (eccDsa plainBuild true (verifyParams 66)) (verifyEvents 66) .none :=
  ⟨⟨_, _, rfl, _, _, rfl, _, _, rfl, _, _, rfl, rfl, rfl⟩,
    ⟨_, _, rfl, _, _, rfl, _, _, rfl, _, _, rfl, rfl, rfl⟩⟩

/-- An agreement over `SECP256R1` with a private key of 32 bytes. -/
def agreeParams (pukSize : UInt32) : EcdhParams :=
  ⟨ecdhSecp256r1, true, 32, true, pukSize, true, 32⟩

def agreeEvents (pukSize : UInt32) : EccEvents :=
  [(.store .stack 0 [secpKeyPrefix], succeeds), (.importKey .prk 32, succeeds),
    (.memcpy .stack 1 .puk 0 (localSize true pukSize - 1), succeeds),
    (.rawKeyAgreement (localSize true pukSize) 32, succeeds), (.destroyKey 1, succeeds)]

theorem runs_agreeEvents (pukSize : UInt32) :
    Runs (eccEcdh plainBuild true (agreeParams pukSize)) (agreeEvents pukSize) .none :=
  ⟨_, _, rfl, _, _, rfl, _, _, rfl, _, _, rfl, _, _, rfl, rfl, rfl⟩

/-- The generation of a key pair for `ED25519`, whose public key has 32 bytes. -/
def generateParams : EccKeyGenParams := ⟨eddsaEd25519, true, 32, true, 32⟩

def generateEvents (status : PsaStatus) (publicKey : List UInt8) : EccEvents :=
  [(.generateKey, succeeds), (.exportKey 32, succeeds),
    (.exportPublicKey 65, ⟨status, 1, publicKey⟩), (.memcpy .puk 0 .stack 0 32, succeeds),
    (.destroyKey 1, succeeds)]

theorem runs_generateEvents (status : PsaStatus) (publicKey : List UInt8) :
    Runs (eccKeyGen plainBuild true generateParams) (generateEvents status publicKey)
      (getError status) :=
  ⟨_, _, rfl, _, _, rfl, _, _, rfl, _, _, rfl, _, _, rfl, rfl, rfl⟩

theorem bounded_verifyEvents (keySize : UInt32) : Bounded (verifyEvents keySize) := by
  simp [Bounded, verifyEvents, EccCall.outSize]

theorem bounded_agreeEvents (pukSize : UInt32) : Bounded (agreeEvents pukSize) := by
  simp [Bounded, agreeEvents, EccCall.outSize, succeeds]

theorem bounded_generateEvents {status : PsaStatus} {publicKey : List UInt8}
    (h : publicKey.length ≤ 65) : Bounded (generateEvents status publicKey) := by
  simp [Bounded, generateEvents, EccCall.outSize, succeeds, h]

/-- Keys of 32 and 64 bytes. -/
theorem buffers_sound_iff_usual :
    DsaSound (verifyParams 32) (fun _ _ => 0) (verifyEvents 32) ∧
    EcdhSound (agreeParams 64) (fun _ _ => 0) (agreeEvents 64) ∧
    KeyGenSound generateParams (fun _ _ => 0) (generateEvents .success (List.replicate 32 7))
      .none := by
  refine ⟨?_, ?_, ?_⟩
  · exact ((buffers_sound_iff plainBuild true _).1 (verifyParams 32) _ _ runs_verifyEvents.1
      (bounded_verifyEvents 32)).mpr fun _ => ⟨by decide, nofun⟩
  · exact ((buffers_sound_iff plainBuild true _).2.1 (agreeParams 64)).mpr
      (fun _ => ⟨by decide, fun _ => nofun⟩) _ _ (runs_agreeEvents 64) (bounded_agreeEvents 64)
  · refine ((buffers_sound_iff plainBuild true _).2.2 generateParams _ _
      (runs_generateEvents .success _) (bounded_generateEvents (by decide))).mpr ?_
    intro size reply he
    obtain ⟨rfl, rfl⟩ : size = 65 ∧ reply = ⟨.success, 1, List.replicate 32 7⟩ := by
      simpa [generateEvents] using he
    exact ⟨rfl, by decide⟩

/-- A key of 66 bytes is cut, a public key of 2^32 - 1 bytes is copied behind the local buffer, and
where the export of a public key fails the caller's buffer is written from bytes that are not
initialised. -/
theorem keys_cut_and_copied :
    (Runs (eccDsa plainBuild true (verifyParams 66)) (verifyEvents 66) .none ∧
      ¬DsaSound (verifyParams 66) (fun _ _ => 0) (verifyEvents 66)) ∧
    (Runs (eccEcdh plainBuild true (agreeParams 0xFFFFFFFF)) (agreeEvents 0xFFFFFFFF) .none ∧
      ¬EcdhSound (agreeParams 0xFFFFFFFF) (fun _ _ => 0) (agreeEvents 0xFFFFFFFF)) ∧
    (Runs (eccKeyGen plainBuild true generateParams) (generateEvents (.other (-132)) [])
        .generic ∧
      ¬KeyGenSound generateParams (fun _ _ => 0) (generateEvents (.other (-132)) []) .generic) := by
  refine ⟨⟨runs_verifyEvents.2, fun hsound => ?_⟩, ⟨runs_agreeEvents _, fun hsound => ?_⟩,
    ⟨runs_generateEvents _ _, fun hsound => ?_⟩⟩
  · have hfits : Fits false 66 :=
      fits_of_copied rfl List.mem_cons_self hsound.safe hsound.whole
    exact absurd hfits (by decide)
  · have hfits : Fits true 0xFFFFFFFF :=
      fits_of_copied rfl (List.mem_cons_of_mem _ (List.mem_cons_of_mem _ List.mem_cons_self))
        hsound.safe hsound.whole
    exact absurd hfits (by decide)
  · have hexported := (keyGen_sound_iff (runs_generateEvents (.other (-132)) [])
      (bounded_generateEvents (by decide))).mp hsound 65 _
      (List.mem_cons_of_mem _ (List.mem_cons_of_mem _ List.mem_cons_self))
    cases hexported.1

end Sidewalk.Crypto.Buffers
