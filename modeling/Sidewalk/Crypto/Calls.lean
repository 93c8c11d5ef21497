import Sidewalk.Crypto.Psa

/-!
# The functions of `sid_crypto.c`

Six functions around a key. A multi-step operation is aborted by hand, and a mode that a function
does not know is refused after its key was prepared.
-/

namespace Sidewalk.Crypto

open Sidewalk.Lib
open Sidewalk.Storage (Build)

/-! ## Parameters -/

def hashSha256 : Nat := 1
def hashSha512 : Nat := 2
def aesCmac128 : Nat := 1
def aesCtr128 : Nat := 2
def aeadGcm128 : Nat := 1
def aeadCcm128 : Nat := 2
def ecdhCurve25519 : Nat := 1
def ecdhSecp256r1 : Nat := 2
def eddsaEd25519 : Nat := 3
def ecdsaSecp256r1 : Nat := 4
def modeEncrypt : Nat := 1
def modeDecrypt : Nat := 2
def modeMacCalculate : Nat := 3
def modeSign : Nat := 1
def modeVerify : Nat := 2

/-- `BYTE_TO_BITS(AES_128_KEY_LENGTH)`. -/
def aesKeyBits : Nat := 128
def algoDataChunk : Nat := 32
def ecMaxKeyLength : Nat := 65
def secpKeyPrefix : UInt8 := 0x04

/-- A pointer that is `NULL` is `none`. -/
structure HmacParams where
  algo : Nat
  key : Option Mem
  keySize : Nat
  data : Option Mem
  dataSize : Nat
  digest : Option Mem
  digestSize : Nat

structure AesParams where
  algo : Nat
  mode : Nat
  key : Option Mem
  keySize : Nat
  iv : Option Mem
  ivSize : Nat
  input : Option Mem
  inSize : Nat
  out : Option Mem

structure AeadParams where
  algo : Nat
  mode : Nat
  key : Option Mem
  keySize : Nat
  iv : Option Mem
  ivSize : Nat
  aad : Option Mem
  aadSize : Nat
  input : Option Mem
  inSize : Nat
  out : Option Mem
  mac : Option Mem

structure DsaParams where
  algo : Nat
  mode : Nat
  key : Option Mem
  keySize : Nat
  input : Option Mem
  inSize : Nat
  signature : Option Mem

structure EcdhParams where
  algo : Nat
  prk : Option Mem
  prkSize : Nat
  puk : Option Mem
  sharedSecret : Option Mem

structure EccKeyGenParams where
  algo : Nat
  prk : Option Mem
  puk : Option Mem
  pukSize : Nat

/-- The lengths that the PSA gives to an initialization vector and, by the algorithm, a nonce. -/
structure PsaLengths where
  cipherIv : Nat
  aeadNonce : Nat → Nat

/-! ## Operations -/

/-- The loop over the data of an HMAC. While data are left a chunk is whole. -/
def macUpdates (sLeft : Nat) : Psa PsaStatus :=
  .call (.macUpdate (min sLeft algoDataChunk)) fun reply =>
    if _ : reply.status = .success ∧ sLeft - min sLeft algoDataChunk ≠ 0 then
      macUpdates (sLeft - min sLeft algoDataChunk)
    else .pure reply.status
termination_by sLeft
decreasing_by
  unfold algoDataChunk at *
  omega

/-- The operation is not aborted where a step of it fails. -/
def hmacUse (dataSize : Nat) (keyHandle : UInt32) : Psa (Option PsaStatus) := do
  let setup ← Program.make (.macSignSetup keyHandle)
  if setup.status = .success then
    let status ← macUpdates dataSize
    if status = .success then
      let finish ← Program.make .macSignFinish
      pure (some finish.status)
    else pure (some status)
  else pure (some setup.status)

def aesExecute : Psa PsaStatus := do
  let iv ← Program.make .cipherSetIv
  if iv.status = .success then
    let update ← Program.make .cipherUpdate
    if update.status = .success then
      let finish ← Program.make .cipherFinish
      pure finish.status
    else pure update.status
  else pure iv.status

/-- `aes_encrypt` and `aes_decrypt`, which set the operation up with one call or the other. -/
def aesCipher (setup : PsaCall) : Psa PsaStatus := do
  let reply ← Program.make setup
  let status ← (if reply.status = .success then aesExecute else pure reply.status : Psa PsaStatus)
  if status ≠ .success then
    let _ ← Program.make .cipherAbort
    pure status
  else pure status

def aesEncrypt (keyHandle : UInt32) : Psa PsaStatus := aesCipher (.cipherEncryptSetup keyHandle)

def aesDecrypt (keyHandle : UInt32) : Psa PsaStatus := aesCipher (.cipherDecryptSetup keyHandle)

def aeadExecute (params : AeadParams) : Psa PsaStatus := do
  let lengths ← Program.make .aeadSetLengths
  if lengths.status = .success then
    let status ← (if params.iv.isSome then (PsaReply.status <$> Program.make .aeadSetNonce)
      else pure lengths.status : Psa PsaStatus)
    if status = .success then
      let ad ← Program.make .aeadUpdateAd
      if ad.status = .success then
        let update ← Program.make .aeadUpdate
        if update.status = .success then
          let last ← Program.make (if params.mode = modeEncrypt then .aeadFinish else .aeadVerify)
          pure last.status
        else pure update.status
      else pure ad.status
    else pure status
  else pure lengths.status

/-- `aead_encrypt` and `aead_decrypt`; the operation is aborted in any case. -/
def aeadCrypt (setup : PsaCall) (params : AeadParams) : Psa PsaStatus := do
  let reply ← Program.make setup
  let status ← (if reply.status = .success then aeadExecute params
    else pure reply.status : Psa PsaStatus)
  let _ ← Program.make .aeadAbort
  pure status

def aeadEncrypt (keyHandle : UInt32) (params : AeadParams) : Psa PsaStatus :=
  aeadCrypt (.aeadEncryptSetup keyHandle) params

def aeadDecrypt (keyHandle : UInt32) (params : AeadParams) : Psa PsaStatus :=
  aeadCrypt (.aeadDecryptSetup keyHandle) params

/-- The switch over the mode of `sid_pal_crypto_aes_crypt`. -/
def aesUse (params : AesParams) (keyHandle : UInt32) : Psa (Option PsaStatus) :=
  if params.mode = modeEncrypt then some <$> aesEncrypt keyHandle
  else if params.mode = modeDecrypt then some <$> aesDecrypt keyHandle
  else if params.mode = modeMacCalculate then do
    let reply ← Program.make (.macCompute keyHandle)
    pure (some reply.status)
  else pure none

def aeadUse (params : AeadParams) (keyHandle : UInt32) : Psa (Option PsaStatus) :=
  if params.mode = modeEncrypt then some <$> aeadEncrypt keyHandle params
  else if params.mode = modeDecrypt then some <$> aeadDecrypt keyHandle params
  else pure none

def dsaUse (params : DsaParams) (keyHandle : UInt32) : Psa (Option PsaStatus) :=
  if params.mode = modeVerify then do
    let reply ← Program.make (.verifyMessage keyHandle)
    pure (some reply.status)
  else if params.mode = modeSign then do
    let reply ← Program.make (.signMessage keyHandle)
    pure (some reply.status)
  else pure none

def ecdhUse (keyHandle : UInt32) : Psa (Option PsaStatus) := do
  let reply ← Program.make (.rawKeyAgreement keyHandle)
  pure (some reply.status)

def keyGenUse (keyHandle : UInt32) : Psa (Option PsaStatus) := do
  let exported ← Program.make (.exportKey keyHandle)
  if exported.status = .success then
    let exportedPublic ← Program.make (.exportPublicKey keyHandle)
    pure (some exportedPublic.status)
  else pure (some exported.status)

/-! ## Functions -/

section

variable (build : Build) (lengths : PsaLengths) (isInitialized : Bool)

def cryptoHmac (params : Option HmacParams) : Psa SidError :=
  if isInitialized = false then pure .uninitialized
  else
    match params with
    | some params =>
      match params.key with
      | some key =>
        if params.data.isNone ∨ params.digest.isNone then pure .nullPointer
        else if params.keySize = 0 ∨ params.dataSize = 0 ∨ params.digestSize = 0 then
          pure .invalidArgs
        else if params.algo = hashSha256 ∨ params.algo = hashSha512 then
          withKey build (prepareKey build key params.keySize) (hmacUse params.dataSize)
        else pure .nosupport
      | none => pure .nullPointer
    | none => pure .nullPointer

def cryptoAesCrypt (params : Option AesParams) : Psa SidError :=
  if isInitialized = false then pure .uninitialized
  else
    match params with
    | some params =>
      match params.key with
      | some key =>
        if params.input.isNone ∨ params.out.isNone ∨ params.algo = aesCtr128 ∧ params.iv.isNone then
          pure .nullPointer
        else if params.inSize = 0 then pure .invalidArgs
        else if params.algo = aesCmac128 ∨ params.algo = aesCtr128 then
          if aesKeyBits ≠ params.keySize ∨
              params.algo = aesCtr128 ∧ params.ivSize ≠ lengths.cipherIv then
            pure .invalidArgs
          else withKey build (prepareKey build key (params.keySize / 8)) (aesUse params)
        else pure .nosupport
      | none => pure .nullPointer
    | none => pure .nullPointer

def cryptoAeadCrypt (params : Option AeadParams) : Psa SidError :=
  if isInitialized = false then pure .uninitialized
  else
    match params with
    | some params =>
      match params.key with
      | some key =>
        if params.input.isNone ∨ params.out.isNone ∨ params.aad.isNone ∨ params.mac.isNone then
          pure .nullPointer
        else if params.inSize = 0 ∨ params.aadSize = 0 then pure .invalidArgs
        else if params.algo = aeadGcm128 ∨ params.algo = aeadCcm128 then
          if aesKeyBits ≠ params.keySize then pure .invalidArgs
          else if params.iv.isSome ∧ params.ivSize ≠ lengths.aeadNonce params.algo then
            pure .invalidArgs
          else withKey build (prepareKey build key (params.keySize / 8)) (aeadUse params)
        else pure .nosupport
      | none => pure .nullPointer
    | none => pure .nullPointer

/-- The local key buffer, on whatever was on the stack, and its size. Sums and differences of sizes
have 32 bits. -/
def dsaKey (stack key : Mem) (params : DsaParams) : Mem × Nat :=
  if params.algo = ecdsaSecp256r1 ∧ params.mode = modeVerify then
    let keySize := min ecMaxKeyLength ((params.keySize + 1) % 2 ^ 32)
    ((stack.blit 0 [secpKeyPrefix]).blit 1 (key.slice 0 ((keySize + (2 ^ 32 - 1)) % 2 ^ 32)),
      keySize)
  else
    let keySize := min ecMaxKeyLength params.keySize
    (stack.blit 0 (key.slice 0 keySize), keySize)

def cryptoEccDsa (stack : Mem) (params : Option DsaParams) : Psa SidError :=
  if isInitialized = false then pure .uninitialized
  else
    match params with
    | some params =>
      match params.key with
      | some key =>
        if params.input.isNone ∨ params.signature.isNone then pure .nullPointer
        else if params.inSize = 0 ∨ params.keySize = 0 then pure .invalidArgs
        else if params.algo = eddsaEd25519 ∨ params.algo = ecdsaSecp256r1 then
          withKey build
            (prepareKey build (dsaKey stack key params).1 (dsaKey stack key params).2)
            (dsaUse params)
        else pure .nosupport
      | none => pure .nullPointer
    | none => pure .nullPointer

def cryptoEccEcdh (params : Option EcdhParams) : Psa SidError :=
  if isInitialized = false then pure .uninitialized
  else
    match params with
    | some params =>
      match params.prk with
      | some prk =>
        if params.puk.isNone ∨ params.sharedSecret.isNone then pure .nullPointer
        else if params.algo = ecdhSecp256r1 ∨ params.algo = ecdhCurve25519 then
          withKey build (prepareKey build prk params.prkSize) ecdhUse
        else pure .nosupport
      | none => pure .nullPointer
    | none => pure .nullPointer

def generateKey : Psa (PsaStatus × UInt32) := do
  let reply ← Program.make .generateKey
  pure (reply.status, reply.key)

def cryptoEccKeyGen (params : Option EccKeyGenParams) : Psa SidError :=
  if isInitialized = false then pure .uninitialized
  else
    match params with
    | some params =>
      if params.prk.isNone ∨ params.puk.isNone then pure .nullPointer
      else if params.pukSize = 0 then pure .invalidArgs
      else if params.algo = eddsaEd25519 ∨ params.algo = ecdsaSecp256r1 ∨
          params.algo = ecdhSecp256r1 ∨ params.algo = ecdhCurve25519 then
        withKey build generateKey keyGenUse
      else pure .nosupport
    | none => pure .nullPointer

end

/-! ## Uses of a key -/

section

variable {events : Events}

/-- The update or the end of an HMAC. -/
def PsaCall.IsMacStep : PsaCall → Prop
  | .macUpdate _ | .macSignFinish => True
  | _ => False

/-- No step of an HMAC fails. -/
def MacStepsSucceed (events : Events) : Prop :=
  ∀ event ∈ events, event.1.IsMacStep → event.2.status = .success

/-- An abort fails only where another call failed. -/
def AbortFailsLast (events : Events) : Prop :=
  ∀ event ∈ events, event.1 = .aeadAbort → event.2.status ≠ .success →
    ∃ event' ∈ events, event'.1 ≠ .aeadAbort ∧ event'.2.status ≠ .success

@[simp] theorem macStepsSucceed_cons {call : PsaCall} {reply : PsaReply} :
    MacStepsSucceed ((call, reply) :: events) ↔
      (call.IsMacStep → reply.status = .success) ∧ MacStepsSucceed events :=
  List.forall_mem_cons

@[simp] theorem activeAfter_cons {op : Operation} {active : Bool} {call : PsaCall}
    {reply : PsaReply} :
    activeAfter op active ((call, reply) :: events) =
      activeAfter op
        (if call.setsUp = some op ∧ reply.status = .success then true
        else if call.finishes = some op ∧ reply.status = .success then false
        else if call.aborts = some op then false
        else active) events := rfl

@[simp] theorem activeAfter_nil {op : Operation} {active : Bool} : activeAfter op active [] = active :=
  rfl

/-- All calls belong to one operation. -/
def Within (op : Operation) (events : Events) : Prop :=
  ∀ event ∈ events, ¬event.1.IsKeyCall ∧ (event.1.setsUp = none ∨ event.1.setsUp = some op)

theorem Within.noKeys {op : Operation} (h : Within op events) : NoKeys events :=
  fun event hevent => (h event hevent).1

/-- Other operations stay as they are. -/
theorem Within.inactive {op op' : Operation} (h : Within op events) (hne : op' ≠ op) :
    activeAfter op' false events = false := by
  induction events with
  | nil => rfl
  | cons event events ih =>
    obtain ⟨call, reply⟩ := event
    have hrest := ih fun event hevent => h event (List.mem_cons_of_mem _ hevent)
    have hsets : call.setsUp ≠ some op' := by
      obtain ⟨-, hnone | hsome⟩ := h _ List.mem_cons_self
      · rw [hnone]
        exact nofun
      · rw [hsome]
        exact fun heq => hne (Option.some.inj heq).symm
    rw [activeAfter_cons, if_neg fun hboth => hsets hboth.1]
    split
    · exact hrest
    · split
      · exact hrest
      · exact hrest

@[simp] theorem within_cons {op : Operation} {call : PsaCall} {reply : PsaReply} :
    Within op ((call, reply) :: events) ↔
      (¬call.IsKeyCall ∧ (call.setsUp = none ∨ call.setsUp = some op)) ∧ Within op events :=
  List.forall_mem_cons

@[simp] theorem within_nil {op : Operation} : Within op [] := fun _ h => absurd h List.not_mem_nil

theorem within_append {op : Operation} {events' : Events} :
    Within op (events ++ events') ↔ Within op events ∧ Within op events' := List.forall_mem_append

theorem macUpdates_runs {sLeft : Nat} {status : PsaStatus}
    (h : (macUpdates sLeft).Runs events status) :
    Within .mac events ∧ activeAfter .mac true events = true ∧
      (status = .success ↔ AllSucceed events) ∧ (MacStepsSucceed events ↔ AllSucceed events) := by
  induction sLeft using Nat.strong_induction_on generalizing events with
  | _ sLeft ih =>
    unfold macUpdates at h
    obtain ⟨reply, rest, rfl, h⟩ := h
    simp only at h
    by_cases hmore : reply.status = .success ∧ sLeft - min sLeft algoDataChunk ≠ 0
    · rw [dif_pos hmore] at h
      have hlt : sLeft - min sLeft algoDataChunk < sLeft := by
        unfold algoDataChunk at hmore ⊢
        omega
      obtain ⟨hkeys, hactive, hstatus, hsteps⟩ := ih _ hlt h
      refine ⟨within_cons.mpr ⟨⟨id, .inl rfl⟩, hkeys⟩, hactive, ?_, ?_⟩
      · rw [allSucceed_cons, hstatus]
        exact (and_iff_right hmore.1).symm
      · rw [macStepsSucceed_cons, allSucceed_cons, hsteps]
        exact and_congr_left' (imp_iff_right trivial)
    · rw [dif_neg hmore] at h
      obtain ⟨rfl, rfl⟩ := h
      refine ⟨within_cons.mpr ⟨⟨id, .inl rfl⟩, within_nil⟩, rfl, ?_, ?_⟩
      · rw [allSucceed_cons]
        exact (and_iff_left allSucceed_nil).symm
      · rw [macStepsSucceed_cons, allSucceed_cons]
        exact ⟨fun h => ⟨h.1 trivial, allSucceed_nil⟩,
          fun h => ⟨fun _ => h.1, fun _ h => absurd h List.not_mem_nil⟩⟩

/-- The operation of a use, and whether it is left active. -/
theorem inactive_iff {op : Operation} (h : Within op events) :
    (∀ op', activeAfter op' false events = false) ↔ activeAfter op false events = false := by
  refine ⟨fun hall => hall op, fun hop op' => ?_⟩
  by_cases heq : op' = op
  · rw [heq]
    exact hop
  · exact h.inactive heq

/-- An HMAC leaves its operation active exactly if one of its steps fails. -/
theorem hmacUse_runs {dataSize : Nat} {keyHandle : UInt32} {result : Option PsaStatus}
    (h : (hmacUse dataSize keyHandle).Runs events result) :
    ∃ status, result = some status ∧ Within .mac events ∧
      (status = .success → AllSucceed events) ∧
      (activeAfter .mac false events = false ↔ MacStepsSucceed events) := by
  unfold hmacUse at h
  rw [Program.runs_make_bind] at h
  obtain ⟨setup, rest, rfl, h⟩ := h
  have hsteps : MacStepsSucceed ((.macSignSetup keyHandle, setup) :: rest) ↔
      MacStepsSucceed rest := by
    rw [macStepsSucceed_cons]
    exact and_iff_right fun h => absurd h id
  have hwithin (hrest : Within .mac rest) :
      Within .mac ((.macSignSetup keyHandle, setup) :: rest) :=
    within_cons.mpr ⟨⟨id, .inr rfl⟩, hrest⟩
  rw [hsteps]
  by_cases hsetup : setup.status = .success
  · rw [if_pos hsetup, Program.runs_bind] at h
    obtain ⟨updates, status, last, hupdates, h, rfl⟩ := h
    obtain ⟨hkeys, hactive, hstatus, hupdated⟩ := macUpdates_runs hupdates
    have hrun : activeAfter .mac false ((.macSignSetup keyHandle, setup) :: (updates ++ last)) =
        activeAfter .mac true last := by
      rw [activeAfter_cons, if_pos ⟨rfl, hsetup⟩, activeAfter_append, hactive]
    have happend : MacStepsSucceed (updates ++ last) ↔
        MacStepsSucceed updates ∧ MacStepsSucceed last := List.forall_mem_append
    rw [hrun, happend, hupdated, ← hstatus]
    by_cases hsuccess : status = .success
    · rw [if_pos hsuccess, Program.runs_make_bind] at h
      obtain ⟨finish, _, rfl, rfl, rfl⟩ := h
      refine ⟨finish.status, rfl, hwithin (within_append.mpr ⟨hkeys, by simp [PsaCall.IsKeyCall,
        PsaCall.setsUp]⟩), fun hfinish => ?_, ?_⟩
      · rw [allSucceed_cons, allSucceed_append, allSucceed_cons]
        exact ⟨hsetup, hstatus.mp hsuccess, hfinish, allSucceed_nil⟩
      · have hlast : MacStepsSucceed [(.macSignFinish, finish)] ↔ finish.status = .success := by
          rw [macStepsSucceed_cons]
          exact ⟨fun h => h.1 trivial, fun h => ⟨fun _ => h, fun _ h => absurd h List.not_mem_nil⟩⟩
        rw [hlast, and_iff_right hsuccess]
        by_cases hfinish : finish.status = .success
        · simp [PsaCall.setsUp, PsaCall.finishes, hfinish]
        · simp [PsaCall.setsUp, PsaCall.aborts, hfinish]
    · rw [if_neg hsuccess] at h
      obtain ⟨rfl, rfl⟩ := h
      refine ⟨status, rfl, hwithin (within_append.mpr ⟨hkeys, within_nil⟩),
        fun h => absurd h hsuccess, ?_⟩
      exact iff_of_false (by simp) fun h => hsuccess h.1
  · rw [if_neg hsetup] at h
    obtain ⟨rfl, rfl⟩ := h
    refine ⟨setup.status, rfl, hwithin within_nil, fun h => absurd h hsetup, ?_⟩
    refine iff_of_true ?_ fun _ h => absurd h List.not_mem_nil
    simp [PsaCall.finishes, PsaCall.aborts, hsetup]

theorem aesExecute_runs {status : PsaStatus} (h : aesExecute.Runs events status) :
    Within .cipher events ∧ (status = .success → AllSucceed events) ∧
      (status = .success → activeAfter .cipher true events = false) := by
  unfold aesExecute at h
  rw [Program.runs_make_bind] at h
  obtain ⟨iv, rest, rfl, h⟩ := h
  by_cases hiv : iv.status = .success
  · rw [if_pos hiv, Program.runs_make_bind] at h
    obtain ⟨update, rest, rfl, h⟩ := h
    by_cases hupdate : update.status = .success
    · rw [if_pos hupdate, Program.runs_make_bind] at h
      obtain ⟨finish, _, rfl, rfl, rfl⟩ := h
      refine ⟨by simp [PsaCall.IsKeyCall, PsaCall.setsUp], fun hfinish => ?_, fun hfinish => ?_⟩
      · simp [hiv, hupdate, hfinish, allSucceed_nil]
      · simp [PsaCall.setsUp, PsaCall.finishes, hfinish]
    · rw [if_neg hupdate] at h
      obtain ⟨rfl, rfl⟩ := h
      exact ⟨by simp [PsaCall.IsKeyCall, PsaCall.setsUp], fun h => absurd h hupdate,
        fun h => absurd h hupdate⟩
  · rw [if_neg hiv] at h
    obtain ⟨rfl, rfl⟩ := h
    exact ⟨by simp [PsaCall.IsKeyCall, PsaCall.setsUp], fun h => absurd h hiv,
      fun h => absurd h hiv⟩

theorem setsUp_spec {setup : PsaCall} {op : Operation} (h : setup.setsUp = some op) :
    ¬setup.IsKeyCall ∧ setup ≠ .aeadAbort := by
  cases setup with
  | importKey => cases h
  | generateKey => cases h
  | destroyKey key => cases h
  | aeadAbort => cases h
  | _ => exact ⟨id, nofun⟩

theorem aesCipher_runs {setup : PsaCall} (hsetup : setup.setsUp = some .cipher) {status : PsaStatus}
    (h : (aesCipher setup).Runs events status) :
    Within .cipher events ∧ (status = .success → AllSucceed events) ∧
      activeAfter .cipher false events = false := by
  have habort (active : Bool) (reply : PsaReply) :
      activeAfter .cipher active [(.cipherAbort, reply)] = false := by
    simp [PsaCall.setsUp, PsaCall.finishes, PsaCall.aborts]
  have hkey := (setsUp_spec hsetup).1
  unfold aesCipher at h
  rw [Program.runs_make_bind] at h
  obtain ⟨reply, rest, rfl, h⟩ := h
  rw [Program.runs_bind] at h
  obtain ⟨steps, result, last, hsteps, h, rfl⟩ := h
  have hwithin (hsteps : Within .cipher steps) (hlast : Within .cipher last) :
      Within .cipher ((setup, reply) :: (steps ++ last)) :=
    within_cons.mpr ⟨⟨hkey, .inr hsetup⟩, within_append.mpr ⟨hsteps, hlast⟩⟩
  have hone (reply : PsaReply) : Within .cipher [(.cipherAbort, reply)] := by
    simp [PsaCall.IsKeyCall, PsaCall.setsUp]
  by_cases hreply : reply.status = .success
  · rw [if_pos hreply] at hsteps
    obtain ⟨hin, hok, hdone⟩ := aesExecute_runs hsteps
    rw [activeAfter_cons, if_pos ⟨hsetup, hreply⟩, activeAfter_append]
    by_cases hfails : result ≠ .success
    · rw [if_pos hfails, Program.runs_make_bind] at h
      obtain ⟨abort, _, rfl, rfl, rfl⟩ := h
      exact ⟨hwithin hin (hone abort), fun h => absurd h hfails, habort _ _⟩
    · rw [if_neg hfails] at h
      obtain ⟨rfl, rfl⟩ := h
      rw [not_not] at hfails
      refine ⟨hwithin hin within_nil, fun _ => ?_, hdone hfails⟩
      rw [List.append_nil]
      exact allSucceed_cons.mpr ⟨hreply, hok hfails⟩
  · rw [if_neg hreply] at hsteps
    obtain ⟨rfl, rfl⟩ := hsteps
    rw [if_pos hreply, Program.runs_make_bind] at h
    obtain ⟨abort, _, rfl, rfl, rfl⟩ := h
    refine ⟨hwithin within_nil (hone abort), fun h => absurd h hreply, ?_⟩
    rw [activeAfter_cons]
    exact habort _ _

theorem aeadExecute_runs {params : AeadParams} {status : PsaStatus}
    (h : (aeadExecute params).Runs events status) :
    Within .aead events ∧ (∀ event ∈ events, event.1 ≠ .aeadAbort) ∧
      (status = .success ↔ AllSucceed events) := by
  unfold aeadExecute at h
  rw [Program.runs_make_bind] at h
  obtain ⟨lengths, rest, rfl, h⟩ := h
  by_cases hlengths : lengths.status = .success
  · rw [if_pos hlengths, Program.runs_bind] at h
    obtain ⟨nonce, result, rest, hnonce, h, rfl⟩ := h
    have hnonce : Within .aead nonce ∧ (∀ event ∈ nonce, event.1 ≠ .aeadAbort) ∧
        (result = .success ↔ AllSucceed nonce) := by
      by_cases hiv : params.iv.isSome = true
      · rw [if_pos hiv, Program.runs_map] at hnonce
        obtain ⟨reply, hnonce, rfl⟩ := hnonce
        rw [Program.runs_make] at hnonce
        rw [hnonce]
        simp [PsaCall.IsKeyCall, PsaCall.setsUp, allSucceed_nil]
      · rw [if_neg hiv] at hnonce
        obtain ⟨rfl, rfl⟩ := hnonce
        simp [hlengths, allSucceed_nil]
    obtain ⟨hin, habort, hresult⟩ := hnonce
    have htail : Within .aead rest ∧ (∀ event ∈ rest, event.1 ≠ .aeadAbort) ∧
        (status = .success ↔ result = .success ∧ AllSucceed rest) := by
      by_cases hsuccess : result = .success
      · rw [if_pos hsuccess, Program.runs_make_bind] at h
        obtain ⟨ad, rest, rfl, h⟩ := h
        by_cases had : ad.status = .success
        · rw [if_pos had, Program.runs_make_bind] at h
          obtain ⟨update, rest, rfl, h⟩ := h
          by_cases hupdate : update.status = .success
          · rw [if_pos hupdate, Program.runs_make_bind] at h
            obtain ⟨last, _, rfl, rfl, rfl⟩ := h
            by_cases hmode : params.mode = modeEncrypt
            · simp [PsaCall.IsKeyCall, PsaCall.setsUp, allSucceed_nil, hsuccess, had, hupdate, hmode]
            · simp [PsaCall.IsKeyCall, PsaCall.setsUp, allSucceed_nil, hsuccess, had, hupdate, hmode]
          · rw [if_neg hupdate] at h
            obtain ⟨rfl, rfl⟩ := h
            simp [PsaCall.IsKeyCall, PsaCall.setsUp, hupdate]
        · rw [if_neg had] at h
          obtain ⟨rfl, rfl⟩ := h
          simp [PsaCall.IsKeyCall, PsaCall.setsUp, had]
      · rw [if_neg hsuccess] at h
        obtain ⟨rfl, rfl⟩ := h
        simp [hsuccess]
    obtain ⟨hin', habort', hstatus⟩ := htail
    refine ⟨within_cons.mpr ⟨⟨id, .inl rfl⟩, within_append.mpr ⟨hin, hin'⟩⟩, ?_, ?_⟩
    · rintro event hevent
      obtain rfl | hevent := List.mem_cons.mp hevent
      · exact nofun
      · obtain hevent | hevent := List.mem_append.mp hevent
        · exact habort event hevent
        · exact habort' event hevent
    · rw [hstatus, hresult, allSucceed_cons, allSucceed_append, and_iff_right hlengths]
  · rw [if_neg hlengths] at h
    obtain ⟨rfl, rfl⟩ := h
    simp [PsaCall.IsKeyCall, PsaCall.setsUp, hlengths]

theorem aeadCrypt_runs {setup : PsaCall} (hsetup : setup.setsUp = some .aead) {params : AeadParams}
    {status : PsaStatus} (h : (aeadCrypt setup params).Runs events status) :
    Within .aead events ∧ activeAfter .aead false events = false ∧
      ((status = .success → AllSucceed events) ↔ AbortFailsLast events) := by
  obtain ⟨hkey, hne⟩ := setsUp_spec hsetup
  unfold aeadCrypt at h
  rw [Program.runs_make_bind] at h
  obtain ⟨reply, rest, rfl, h⟩ := h
  rw [Program.runs_bind] at h
  obtain ⟨steps, result, last, hsteps, h, rfl⟩ := h
  rw [Program.runs_make_bind] at h
  obtain ⟨abort, _, rfl, rfl, rfl⟩ := h
  -- The steps between the setup and the abort.
  have hsteps : Within .aead steps ∧ (∀ event ∈ steps, event.1 ≠ .aeadAbort) ∧
      (status = .success ↔ AllSucceed ((setup, reply) :: steps)) := by
    by_cases hreply : reply.status = .success
    · rw [if_pos hreply] at hsteps
      obtain ⟨hin, habort, hresult⟩ := aeadExecute_runs hsteps
      exact ⟨hin, habort, by rw [hresult, allSucceed_cons, and_iff_right hreply]⟩
    · rw [if_neg hreply] at hsteps
      obtain ⟨rfl, rfl⟩ := hsteps
      exact ⟨within_nil, fun _ h => absurd h List.not_mem_nil,
        iff_of_false hreply fun h => hreply (allSucceed_cons.mp h).1⟩
  obtain ⟨hin, hnoabort, hresult⟩ := hsteps
  have hevents : (setup, reply) :: (steps ++ [(PsaCall.aeadAbort, abort)]) =
      ((setup, reply) :: steps) ++ [(.aeadAbort, abort)] := rfl
  refine ⟨within_cons.mpr ⟨⟨hkey, .inr hsetup⟩, within_append.mpr ⟨hin, ?_⟩⟩, ?_, ?_⟩
  · simp [PsaCall.IsKeyCall, PsaCall.setsUp]
  · rw [hevents, activeAfter_append]
    simp [PsaCall.setsUp, PsaCall.finishes, PsaCall.aborts]
  · rw [hevents, allSucceed_append]
    constructor
    · intro h event hevent hcall hfails
      by_cases hsuccess : status = .success
      · have hok := (h hsuccess)
        obtain hevent | hevent := List.mem_append.mp hevent
        · exact absurd (hok.1 event hevent) hfails
        · exact absurd (hok.2 event hevent) hfails
      · rw [hresult] at hsuccess
        unfold AllSucceed at hsuccess
        push Not at hsuccess
        obtain ⟨event', hevent', hfails'⟩ := hsuccess
        refine ⟨event', List.mem_append_left _ hevent', ?_, hfails'⟩
        obtain rfl | hmem := List.mem_cons.mp hevent'
        · exact hne
        · exact hnoabort event' hmem
    · intro h hsuccess
      have hbody := hresult.mp hsuccess
      refine ⟨hbody, allSucceed_cons.mpr ⟨?_, allSucceed_nil⟩⟩
      by_contra hfails
      obtain ⟨event', hevent', hcall', hfails'⟩ :=
        h _ (List.mem_append_right _ (List.mem_singleton_self _)) rfl hfails
      obtain hmem | hmem := List.mem_append.mp hevent'
      · exact hfails' (hbody event' hmem)
      · exact hcall' (congrArg Prod.fst (List.mem_singleton.mp hmem))

theorem macSteps_of_onlyKeys (h : OnlyKeys events) : MacStepsSucceed events := by
  rintro ⟨call, reply⟩ hevent hstep
  have hkey := h _ hevent
  cases call with
  | macUpdate size => exact absurd hkey id
  | macSignFinish => exact absurd hkey id
  | _ => exact absurd hstep id

theorem noAbort_of_onlyKeys (h : OnlyKeys events) : ∀ event ∈ events, event.1 ≠ .aeadAbort := by
  intro event hevent hcall
  have hkey := h _ hevent
  rw [hcall] at hkey
  exact hkey

/-- Calls around it that create and destroy keys and succeed do not matter. -/
theorem abortFailsLast_around {before used after : Events} (hbefore : OnlyKeys before)
    (hafter : OnlyKeys after) (hok₁ : AllSucceed before) (hok₂ : AllSucceed after) :
    AbortFailsLast (before ++ used ++ after) ↔ AbortFailsLast used := by
  constructor
  · intro h event hevent hcall hfails
    obtain ⟨event', hevent', hcall', hfails'⟩ :=
      h event (List.mem_append_left _ (List.mem_append_right _ hevent)) hcall hfails
    obtain hmem | hmem := List.mem_append.mp hevent'
    · obtain hmem | hmem := List.mem_append.mp hmem
      · exact absurd (hok₁ event' hmem) hfails'
      · exact ⟨event', hmem, hcall', hfails'⟩
    · exact absurd (hok₂ event' hmem) hfails'
  · intro h event hevent hcall hfails
    obtain hmem | hmem := List.mem_append.mp hevent
    · obtain hmem | hmem := List.mem_append.mp hmem
      · exact absurd hcall (noAbort_of_onlyKeys hbefore event hmem)
      · obtain ⟨event', hevent', hrest⟩ := h event hmem hcall hfails
        exact ⟨event', List.mem_append_left _ (List.mem_append_right _ hevent'), hrest⟩
    · exact absurd hcall (noAbort_of_onlyKeys hafter event hmem)

theorem aesUse_runs {params : AesParams} {keyHandle : UInt32} {result : Option PsaStatus}
    (h : (aesUse params keyHandle).Runs events result) :
    Within .cipher events ∧ activeAfter .cipher false events = false ∧
      (result = some .success → AllSucceed events) ∧
      (result = none ↔ ¬(params.mode = modeEncrypt ∨ params.mode = modeDecrypt ∨
        params.mode = modeMacCalculate)) := by
  unfold aesUse at h
  split at h
  next hmode =>
    rw [Program.runs_map] at h
    obtain ⟨status, h, rfl⟩ := h
    obtain ⟨hin, hok, hinactive⟩ := aesCipher_runs rfl h
    exact ⟨hin, hinactive, fun h => hok (Option.some.inj h),
      iff_of_false nofun (not_not_intro (.inl hmode))⟩
  next hencrypt =>
    split at h
    next hmode =>
      rw [Program.runs_map] at h
      obtain ⟨status, h, rfl⟩ := h
      obtain ⟨hin, hok, hinactive⟩ := aesCipher_runs rfl h
      exact ⟨hin, hinactive, fun h => hok (Option.some.inj h),
        iff_of_false nofun (not_not_intro (.inr (.inl hmode)))⟩
    next hdecrypt =>
      split at h
      next hmode =>
        rw [Program.runs_make_bind] at h
        obtain ⟨reply, _, rfl, rfl, rfl⟩ := h
        refine ⟨by simp [PsaCall.IsKeyCall, PsaCall.setsUp],
          by simp [PsaCall.setsUp, PsaCall.finishes, PsaCall.aborts],
          fun h => allSucceed_cons.mpr ⟨Option.some.inj h, allSucceed_nil⟩,
          iff_of_false nofun (not_not_intro (.inr (.inr hmode)))⟩
      next hmac =>
        obtain ⟨rfl, rfl⟩ := h
        refine ⟨within_nil, rfl, nofun, iff_of_true rfl ?_⟩
        rintro (hmode | hmode | hmode)
        · exact hencrypt hmode
        · exact hdecrypt hmode
        · exact hmac hmode

theorem aeadUse_runs {params : AeadParams} {keyHandle : UInt32} {result : Option PsaStatus}
    (h : (aeadUse params keyHandle).Runs events result) :
    Within .aead events ∧ activeAfter .aead false events = false ∧
      ((result = some .success → AllSucceed events) ↔ AbortFailsLast events) ∧
      (result = none ↔ ¬(params.mode = modeEncrypt ∨ params.mode = modeDecrypt)) := by
  have hsome (status : PsaStatus) : (some status = some PsaStatus.success) ↔ status = .success :=
    Option.some_inj
  unfold aeadUse at h
  split at h
  next hmode =>
    rw [Program.runs_map] at h
    obtain ⟨status, h, rfl⟩ := h
    obtain ⟨hin, hinactive, hok⟩ := aeadCrypt_runs rfl h
    rw [hsome]
    exact ⟨hin, hinactive, hok, iff_of_false nofun (not_not_intro (.inl hmode))⟩
  next hencrypt =>
    split at h
    next hmode =>
      rw [Program.runs_map] at h
      obtain ⟨status, h, rfl⟩ := h
      obtain ⟨hin, hinactive, hok⟩ := aeadCrypt_runs rfl h
      rw [hsome]
      exact ⟨hin, hinactive, hok, iff_of_false nofun (not_not_intro (.inr hmode))⟩
    next hdecrypt =>
      obtain ⟨rfl, rfl⟩ := h
      refine ⟨within_nil, rfl, iff_of_true nofun (fun _ h => absurd h List.not_mem_nil),
        iff_of_true rfl ?_⟩
      rintro (hmode | hmode)
      · exact hencrypt hmode
      · exact hdecrypt hmode

/-- No operation is set up. -/
def NoOperation (events : Events) : Prop :=
  ∀ event ∈ events, ¬event.1.IsKeyCall ∧ event.1.setsUp = none

theorem NoOperation.within (h : NoOperation events) (op : Operation) : Within op events :=
  fun event hevent => ⟨(h event hevent).1, .inl (h event hevent).2⟩

theorem NoOperation.inactive (h : NoOperation events) (op : Operation) :
    activeAfter op false events = false := by
  cases op with
  | mac => exact (h.within .aead).inactive nofun
  | cipher => exact (h.within .aead).inactive nofun
  | aead => exact (h.within .mac).inactive nofun

theorem noOperation_one {call : PsaCall} (reply : PsaReply) (hkey : ¬call.IsKeyCall)
    (hsets : call.setsUp = none) : NoOperation [(call, reply)] := by
  intro event hevent
  rw [List.mem_singleton.mp hevent]
  exact ⟨hkey, hsets⟩

theorem dsaUse_runs {params : DsaParams} {keyHandle : UInt32} {result : Option PsaStatus}
    (h : (dsaUse params keyHandle).Runs events result) :
    NoOperation events ∧ (result = some .success → AllSucceed events) ∧
      (result = none ↔ ¬(params.mode = modeSign ∨ params.mode = modeVerify)) := by
  unfold dsaUse at h
  split at h
  next hmode =>
    rw [Program.runs_make_bind] at h
    obtain ⟨reply, _, rfl, rfl, rfl⟩ := h
    exact ⟨noOperation_one reply id rfl,
      fun h => allSucceed_cons.mpr ⟨Option.some.inj h, allSucceed_nil⟩,
      iff_of_false nofun (not_not_intro (.inr hmode))⟩
  next hverify =>
    split at h
    next hmode =>
      rw [Program.runs_make_bind] at h
      obtain ⟨reply, _, rfl, rfl, rfl⟩ := h
      exact ⟨noOperation_one reply id rfl,
        fun h => allSucceed_cons.mpr ⟨Option.some.inj h, allSucceed_nil⟩,
        iff_of_false nofun (not_not_intro (.inl hmode))⟩
    next hsign =>
      obtain ⟨rfl, rfl⟩ := h
      refine ⟨fun _ h => absurd h List.not_mem_nil, nofun, iff_of_true rfl ?_⟩
      rintro (hmode | hmode)
      · exact hsign hmode
      · exact hverify hmode

theorem ecdhUse_runs {keyHandle : UInt32} {result : Option PsaStatus}
    (h : (ecdhUse keyHandle).Runs events result) :
    NoOperation events ∧ (result = some .success → AllSucceed events) ∧ result ≠ none := by
  unfold ecdhUse at h
  rw [Program.runs_make_bind] at h
  obtain ⟨reply, _, rfl, rfl, rfl⟩ := h
  exact ⟨noOperation_one reply id rfl,
    fun h => allSucceed_cons.mpr ⟨Option.some.inj h, allSucceed_nil⟩, nofun⟩

theorem keyGenUse_runs {keyHandle : UInt32} {result : Option PsaStatus}
    (h : (keyGenUse keyHandle).Runs events result) :
    NoOperation events ∧ (result = some .success → AllSucceed events) ∧ result ≠ none := by
  unfold keyGenUse at h
  rw [Program.runs_make_bind] at h
  obtain ⟨exported, rest, rfl, h⟩ := h
  by_cases hexported : exported.status = .success
  · rw [if_pos hexported, Program.runs_make_bind] at h
    obtain ⟨exportedPublic, _, rfl, rfl, rfl⟩ := h
    refine ⟨?_, fun h => ?_, nofun⟩
    · intro event hevent
      obtain rfl | hevent := List.mem_cons.mp hevent
      · exact ⟨id, rfl⟩
      · exact noOperation_one exportedPublic id rfl event hevent
    · exact allSucceed_cons.mpr
        ⟨hexported, allSucceed_cons.mpr ⟨Option.some.inj h, allSucceed_nil⟩⟩
  · rw [if_neg hexported] at h
    obtain ⟨rfl, rfl⟩ := h
    exact ⟨noOperation_one exported id rfl, fun h => absurd (Option.some.inj h) hexported, nofun⟩

end

/-! ## Calls in a row -/

inductive CryptoCall
  | hmac (params : Option HmacParams)
  | aesCrypt (params : Option AesParams)
  | aeadCrypt (params : Option AeadParams)
  | eccDsa (stack : Mem) (params : Option DsaParams)
  | eccEcdh (params : Option EcdhParams)
  | eccKeyGen (params : Option EccKeyGenParams)

def CryptoCall.program (build : Build) (lengths : PsaLengths) (isInitialized : Bool) :
    CryptoCall → Psa SidError
  | hmac params => cryptoHmac build isInitialized params
  | aesCrypt params => cryptoAesCrypt build lengths isInitialized params
  | aeadCrypt params => cryptoAeadCrypt build lengths isInitialized params
  | eccDsa stack params => cryptoEccDsa build isInitialized stack params
  | eccEcdh params => cryptoEccEcdh build isInitialized params
  | eccKeyGen params => cryptoEccKeyGen build isInitialized params

/-- The mode is one that the function knows. -/
def CryptoCall.ModeKnown : CryptoCall → Prop
  | aesCrypt (some params) =>
    params.mode = modeEncrypt ∨ params.mode = modeDecrypt ∨ params.mode = modeMacCalculate
  | aeadCrypt (some params) => params.mode = modeEncrypt ∨ params.mode = modeDecrypt
  | eccDsa _ (some params) => params.mode = modeSign ∨ params.mode = modeVerify
  | _ => True

/-- No key was created for a mode that is refused. -/
def CryptoCall.ModeKept (call : CryptoCall) (events : Events) : Prop :=
  call.ModeKnown ∨ createdKeys events = []

/-- Besides, no step of an HMAC fails, and no abort of an AEAD operation that succeeded. -/
def CryptoCall.Keeps : CryptoCall → Events → Prop
  | hmac params, events => (hmac params).ModeKept events ∧ MacStepsSucceed events
  | aeadCrypt params, events => (aeadCrypt params).ModeKept events ∧ AbortFailsLast events
  | call, events => call.ModeKept events ∧ True

section

variable {build : Build} {lengths : PsaLengths} {isInitialized : Bool} {events : Events}
  {result : SidError}

/-- What the use of a key has to keep to is what its function has to keep to. -/
theorem withKey_keeps {prepare : Psa (PsaStatus × UInt32)} {use : UInt32 → Psa (Option PsaStatus)}
    (hprepare : ∀ events result, prepare.Runs events result → Prepared build events result)
    (op : Operation) {known : Prop} {Q : Events → Prop}
    (huse : ∀ key events status, (use key).Runs events status →
      Within op events ∧ (status = none ↔ ¬known) ∧
        (activeAfter op false events = false ∧ (status = some .success → AllSucceed events) ↔
          Q events))
    (haround : ∀ before used after, OnlyKeys before → OnlyKeys after → AllSucceed before →
      AllSucceed after → (Q (before ++ used ++ after) ↔ Q used))
    (hkeys : ∀ events, OnlyKeys events → Q events)
    (hrun : (withKey build prepare use).Runs events result) (hhonest : Honest build events) :
    Clean build events result ↔ (known ∨ createdKeys events = []) ∧ Q events := by
  obtain ⟨before, used, status, after, rfl, hbefore, hafter, -, hused⟩ :=
    withKey_clean_iff hprepare (fun key events status h => (huse key events status h).1.noKeys) hrun
      hhonest
  obtain ⟨rfl, hcreated, hclean⟩ | ⟨⟨key, hused⟩, hok₁, hok₂, hclean⟩ := hused
  · refine iff_of_true hclean ⟨.inr hcreated, hkeys _ ?_⟩
    rw [List.append_nil]
    intro event hevent
    obtain hmem | hmem := List.mem_append.mp hevent
    · exact hbefore event hmem
    · exact hafter event hmem
  · obtain ⟨hin, hnone, hq⟩ := huse key used status hused
    rw [hclean, inactive_iff hin, hq, haround before used after hbefore hafter hok₁ hok₂, hnone]
    refine and_congr_left' ?_
    rw [or_iff_not_imp_left]

theorem generateKey_prepared {events : Events} {result : PsaStatus × UInt32}
    (h : generateKey.Runs events result) : Prepared build events result := by
  unfold generateKey at h
  rw [Program.runs_make_bind] at h
  obtain ⟨reply, _, rfl, rfl, rfl⟩ := h
  exact .created .generateKey reply (.inr rfl)

theorem keeps_nil (call : CryptoCall) : call.Keeps [] := by
  have hmode : call.ModeKept [] := .inr rfl
  cases call with
  | hmac params => exact ⟨hmode, fun _ h => absurd h List.not_mem_nil⟩
  | aeadCrypt params => exact ⟨hmode, fun _ h => absurd h List.not_mem_nil⟩
  | _ => exact ⟨hmode, trivial⟩

theorem clean_iff_nil {call : CryptoCall} (h : events = []) :
    Clean build events result ↔ call.Keeps events := by
  subst h
  exact iff_of_true (clean_nil build result) (keeps_nil call)

theorem hmac_clean_iff {params : Option HmacParams}
    (hrun : (cryptoHmac build isInitialized params).Runs events result)
    (hhonest : Honest build events) :
    Clean build events result ↔ (CryptoCall.hmac params).Keeps events := by
  unfold cryptoHmac at hrun
  split at hrun
  · exact clean_iff_nil hrun.1
  split at hrun
  next params =>
    split at hrun
    next key _ =>
      split at hrun
      · exact clean_iff_nil hrun.1
      split at hrun
      · exact clean_iff_nil hrun.1
      split at hrun
      · refine withKey_keeps (fun _ _ => prepareKey_prepared) .mac ?_ ?_ ?_ hrun hhonest
        · intro key events status h
          obtain ⟨status, rfl, hin, hok, hinactive⟩ := hmacUse_runs h
          refine ⟨hin, iff_of_false nofun (not_not_intro trivial), ?_⟩
          rw [hinactive]
          exact and_iff_left fun h => hok (Option.some.inj h)
        · intro before used after hbefore hafter _ _
          have happend (events events' : Events) : MacStepsSucceed (events ++ events') ↔
              MacStepsSucceed events ∧ MacStepsSucceed events' := List.forall_mem_append
          rw [happend, happend, and_iff_left (macSteps_of_onlyKeys hafter),
            and_iff_right (macSteps_of_onlyKeys hbefore)]
        · exact fun _ => macSteps_of_onlyKeys
      · exact clean_iff_nil hrun.1
    · exact clean_iff_nil hrun.1
  · exact clean_iff_nil hrun.1

theorem aesCrypt_clean_iff {params : Option AesParams}
    (hrun : (cryptoAesCrypt build lengths isInitialized params).Runs events result)
    (hhonest : Honest build events) :
    Clean build events result ↔ (CryptoCall.aesCrypt params).Keeps events := by
  unfold cryptoAesCrypt at hrun
  split at hrun
  · exact clean_iff_nil hrun.1
  split at hrun
  next params =>
    split at hrun
    next key _ =>
      split at hrun
      · exact clean_iff_nil hrun.1
      split at hrun
      · exact clean_iff_nil hrun.1
      split at hrun
      · split at hrun
        · exact clean_iff_nil hrun.1
        · refine withKey_keeps (fun _ _ => prepareKey_prepared) .cipher ?_ (fun _ _ _ _ _ _ _ => Iff.rfl)
            (fun _ _ => trivial) hrun hhonest
          intro key events status h
          obtain ⟨hin, hinactive, hok, hnone⟩ := aesUse_runs h
          exact ⟨hin, hnone, iff_of_true ⟨hinactive, hok⟩ trivial⟩
      · exact clean_iff_nil hrun.1
    · exact clean_iff_nil hrun.1
  · exact clean_iff_nil hrun.1

theorem aeadCrypt_clean_iff {params : Option AeadParams}
    (hrun : (cryptoAeadCrypt build lengths isInitialized params).Runs events result)
    (hhonest : Honest build events) :
    Clean build events result ↔ (CryptoCall.aeadCrypt params).Keeps events := by
  unfold cryptoAeadCrypt at hrun
  split at hrun
  · exact clean_iff_nil hrun.1
  split at hrun
  next params =>
    split at hrun
    next key _ =>
      split at hrun
      · exact clean_iff_nil hrun.1
      split at hrun
      · exact clean_iff_nil hrun.1
      split at hrun
      · split at hrun
        · exact clean_iff_nil hrun.1
        split at hrun
        · exact clean_iff_nil hrun.1
        · refine withKey_keeps (fun _ _ => prepareKey_prepared) .aead ?_
            (fun _ _ _ => abortFailsLast_around) ?_ hrun hhonest
          · intro key events status h
            obtain ⟨hin, hinactive, hok, hnone⟩ := aeadUse_runs h
            exact ⟨hin, hnone, by rw [and_iff_right hinactive, hok]⟩
          · intro events hkeys event hevent hcall
            exact absurd hcall (noAbort_of_onlyKeys hkeys event hevent)
      · exact clean_iff_nil hrun.1
    · exact clean_iff_nil hrun.1
  · exact clean_iff_nil hrun.1

/-- A use that sets up no operation. -/
theorem noOperation_keeps {prepare : Psa (PsaStatus × UInt32)}
    {use : UInt32 → Psa (Option PsaStatus)}
    (hprepare : ∀ events result, prepare.Runs events result → Prepared build events result)
    {known : Prop}
    (huse : ∀ key events status, (use key).Runs events status → NoOperation events ∧
      (status = some .success → AllSucceed events) ∧ (status = none ↔ ¬known))
    (hrun : (withKey build prepare use).Runs events result) (hhonest : Honest build events) :
    Clean build events result ↔ (known ∨ createdKeys events = []) ∧ True := by
  refine withKey_keeps hprepare .mac ?_ (fun _ _ _ _ _ _ _ => Iff.rfl) (fun _ _ => trivial) hrun hhonest
  intro key events status h
  obtain ⟨hin, hok, hnone⟩ := huse key events status h
  exact ⟨hin.within .mac, hnone, iff_of_true ⟨hin.inactive .mac, hok⟩ trivial⟩

theorem eccDsa_clean_iff {stack : Mem} {params : Option DsaParams}
    (hrun : (cryptoEccDsa build isInitialized stack params).Runs events result)
    (hhonest : Honest build events) :
    Clean build events result ↔ (CryptoCall.eccDsa stack params).Keeps events := by
  unfold cryptoEccDsa at hrun
  split at hrun
  · exact clean_iff_nil hrun.1
  split at hrun
  next params =>
    split at hrun
    next key _ =>
      split at hrun
      · exact clean_iff_nil hrun.1
      split at hrun
      · exact clean_iff_nil hrun.1
      split at hrun
      · exact noOperation_keeps (fun _ _ => prepareKey_prepared) (fun _ _ _ => dsaUse_runs) hrun
          hhonest
      · exact clean_iff_nil hrun.1
    · exact clean_iff_nil hrun.1
  · exact clean_iff_nil hrun.1

theorem eccEcdh_clean_iff {params : Option EcdhParams}
    (hrun : (cryptoEccEcdh build isInitialized params).Runs events result)
    (hhonest : Honest build events) :
    Clean build events result ↔ (CryptoCall.eccEcdh params).Keeps events := by
  unfold cryptoEccEcdh at hrun
  split at hrun
  · exact clean_iff_nil hrun.1
  split at hrun
  next params =>
    split at hrun
    next key _ =>
      split at hrun
      · exact clean_iff_nil hrun.1
      split at hrun
      · refine noOperation_keeps (fun _ _ => prepareKey_prepared) ?_ hrun hhonest
        intro key events status h
        obtain ⟨hin, hok, hsome⟩ := ecdhUse_runs h
        exact ⟨hin, hok, iff_of_false hsome (not_not_intro trivial)⟩
      · exact clean_iff_nil hrun.1
    · exact clean_iff_nil hrun.1
  · exact clean_iff_nil hrun.1

theorem eccKeyGen_clean_iff {params : Option EccKeyGenParams}
    (hrun : (cryptoEccKeyGen build isInitialized params).Runs events result)
    (hhonest : Honest build events) :
    Clean build events result ↔ (CryptoCall.eccKeyGen params).Keeps events := by
  unfold cryptoEccKeyGen at hrun
  split at hrun
  · exact clean_iff_nil hrun.1
  split at hrun
  next params =>
    split at hrun
    · exact clean_iff_nil hrun.1
    split at hrun
    · exact clean_iff_nil hrun.1
    split at hrun
    · refine noOperation_keeps (fun _ _ => generateKey_prepared) ?_ hrun hhonest
      intro key events status h
      obtain ⟨hin, hok, hsome⟩ := keyGenUse_runs h
      exact ⟨hin, hok, iff_of_false hsome (not_not_intro trivial)⟩
    · exact clean_iff_nil hrun.1
  · exact clean_iff_nil hrun.1

/-- One call leaves nothing behind exactly if it keeps to that. -/
theorem call_clean_iff (call : CryptoCall)
    (hrun : (call.program build lengths isInitialized).Runs events result)
    (hhonest : Honest build events) : Clean build events result ↔ call.Keeps events := by
  cases call with
  | hmac params => exact hmac_clean_iff hrun hhonest
  | aesCrypt params => exact aesCrypt_clean_iff hrun hhonest
  | aeadCrypt params => exact aeadCrypt_clean_iff hrun hhonest
  | eccDsa stack params => exact eccDsa_clean_iff hrun hhonest
  | eccEcdh params => exact eccEcdh_clean_iff hrun hhonest
  | eccKeyGen params => exact eccKeyGen_clean_iff hrun hhonest

end

/-- A call with what it called of the PSA, the replies, and what it returned. -/
structure Outcome where
  call : CryptoCall
  isInitialized : Bool
  events : Events
  result : SidError

def Outcome.Valid (build : Build) (lengths : PsaLengths) (outcome : Outcome) : Prop :=
  (outcome.call.program build lengths outcome.isInitialized).Runs outcome.events outcome.result

/-- Calls in a row leave nothing behind exactly if each keeps to that. -/
theorem crypto_clean_iff (build : Build) (lengths : PsaLengths) {run : List Outcome}
    (hrun : ∀ outcome ∈ run, outcome.Valid build lengths)
    (hhonest : ∀ outcome ∈ run, Honest build outcome.events) :
    (∀ outcome ∈ run, Clean build outcome.events outcome.result) ↔
      ∀ outcome ∈ run, outcome.call.Keeps outcome.events :=
  forall₂_congr fun outcome hmem =>
    call_clean_iff outcome.call (hrun outcome hmem) (hhonest outcome hmem)

/-- No key storage, and the Sidewalk keys are numbered from one on. -/
def plainBuild : Build where
  psaKeyStorage := false
  keyValue
    | .mfgEd25519Priv => 1
    | .mfgSecp256r1Priv => 2
    | .kvWanMaster => 3
    | .kvAppKey => 4
    | .kvD2d => 5
  accepts _ _ := true

def plainLengths : PsaLengths := ⟨16, fun algo => if algo = aeadGcm128 then 12 else 13⟩

/-- A key agreement in which every call succeeds. -/
def agreement : Outcome where
  call := .eccEcdh (some ⟨ecdhCurve25519, some fun _ => 0, 32, some fun _ => 0, some fun _ => 0⟩)
  isInitialized := true
  events := [(.importKey, ⟨.success, 0x40000000⟩), (.rawKeyAgreement 0x40000000, ⟨.success, 0⟩),
    (.destroyKey 0x40000000, ⟨.success, 0⟩)]
  result := .none

/-- An AES call in no mode. -/
def unknownMode : Outcome where
  call := .aesCrypt (some ⟨aesCmac128, 0, some fun _ => 0, 128, none, 0, some fun _ => 0, 16,
    some fun _ => 0⟩)
  isInitialized := true
  events := [(.importKey, ⟨.success, 0x40000000⟩)]
  result := .invalidArgs

theorem agreement_valid : agreement.Valid plainBuild plainLengths :=
  ⟨_, _, rfl, _, _, rfl, _, _, rfl, rfl, rfl⟩

theorem unknownMode_valid : unknownMode.Valid plainBuild plainLengths :=
  ⟨_, _, rfl, rfl, rfl⟩

theorem honest_of_success {events : Events} (hkeys : createdKeys events = [0x40000000])
    (hok : AllSucceed events) : Honest plainBuild events where
  volatile key hkey := by
    rw [hkeys] at hkey
    rw [List.mem_singleton.mp hkey]
    decide
  destroys before key reply after hevents _ _ := by
    refine hok (.destroyKey key, reply) ?_
    rw [hevents]
    exact List.mem_append_right _ List.mem_cons_self

theorem agreement_clean : Clean plainBuild agreement.events agreement.result := by
  have hok : AllSucceed agreement.events := by simp [agreement, allSucceed_nil]
  have hclean : ∀ outcome ∈ [agreement], Clean plainBuild outcome.events outcome.result := by
    refine (crypto_clean_iff plainBuild plainLengths ?_ ?_).mpr ?_
    · intro outcome hmem
      rw [List.mem_singleton.mp hmem]
      exact agreement_valid
    · intro outcome hmem
      rw [List.mem_singleton.mp hmem]
      exact honest_of_success rfl hok
    · intro outcome hmem
      rw [List.mem_singleton.mp hmem]
      exact ⟨.inl trivial, trivial⟩
  exact hclean agreement (List.mem_singleton_self _)

/-- The key of an AES call in no mode is not destroyed. -/
theorem unknownMode_leaks : ¬∀ run : List Outcome,
    (∀ outcome ∈ run, outcome.Valid plainBuild plainLengths) →
    (∀ outcome ∈ run, Honest plainBuild outcome.events) →
    ∀ outcome ∈ run, Clean plainBuild outcome.events outcome.result := by
  intro h
  have hok : AllSucceed unknownMode.events := by simp [unknownMode, allSucceed_nil]
  have hclean := h [unknownMode] ?_ ?_ unknownMode (List.mem_singleton_self _)
  · exact absurd hclean.destroyed (by decide)
  · intro outcome hmem
    rw [List.mem_singleton.mp hmem]
    exact unknownMode_valid
  · intro outcome hmem
    rw [List.mem_singleton.mp hmem]
    exact honest_of_success rfl hok

end Sidewalk.Crypto
