import Sidewalk.Lib.Program
import Sidewalk.Storage.CryptoKeys

/-!
# Calls of the PSA

What `sid_crypto.c` calls of the PSA, which keys and operations a run of calls leaves behind, and
the wrapper that its functions share: a key is prepared, used, and destroyed by hand.
-/

namespace Sidewalk.Crypto

open Sidewalk.Lib
open Sidewalk.Storage (Build KeyId isHandle leBytes4)

/-! ## Calls -/

inductive PsaStatus
  | success
  | notSupported
  | insufficientMemory
  | invalidArgument
  | bufferTooSmall
  | badState
  | notPermitted
  | dataInvalid
  | other (code : Int)
  deriving DecidableEq, Repr

inductive SidError
  | none
  | generic
  | outOfResources
  | oom
  | nosupport
  | noPermission
  | nullPointer
  | invalidArgs
  | uninitialized
  | invalidState
  deriving DecidableEq, Repr

/-- The calls, with the key that each is about. Buffers and key attributes are left out: any call
may reply anything. -/
inductive PsaCall
  | importKey
  | generateKey
  | destroyKey (key : UInt32)
  | exportKey (key : UInt32)
  | exportPublicKey (key : UInt32)
  | macCompute (key : UInt32)
  | signMessage (key : UInt32)
  | verifyMessage (key : UInt32)
  | rawKeyAgreement (key : UInt32)
  | macSignSetup (key : UInt32)
  | macUpdate (size : Nat)
  | macSignFinish
  | cipherEncryptSetup (key : UInt32)
  | cipherDecryptSetup (key : UInt32)
  | cipherSetIv
  | cipherUpdate
  | cipherFinish
  | cipherAbort
  | aeadEncryptSetup (key : UInt32)
  | aeadDecryptSetup (key : UInt32)
  | aeadSetLengths
  | aeadSetNonce
  | aeadUpdateAd
  | aeadUpdate
  | aeadFinish
  | aeadVerify
  | aeadAbort
  deriving DecidableEq, Repr

/-- The key is the one that an import or a generation gives. -/
structure PsaReply where
  status : PsaStatus
  key : UInt32

abbrev Psa := Program PsaCall PsaReply

abbrev Events := List (PsaCall × PsaReply)

/-- The operations that a function sets up. -/
inductive Operation
  | mac
  | cipher
  | aead
  deriving DecidableEq, Repr

namespace PsaCall

def setsUp : PsaCall → Option Operation
  | macSignSetup _ => some .mac
  | cipherEncryptSetup _ | cipherDecryptSetup _ => some .cipher
  | aeadEncryptSetup _ | aeadDecryptSetup _ => some .aead
  | _ => none

/-- The operation ends where the call succeeds. -/
def finishes : PsaCall → Option Operation
  | macSignFinish => some .mac
  | cipherFinish => some .cipher
  | aeadFinish | aeadVerify => some .aead
  | _ => none

/-- The operation ends. -/
def aborts : PsaCall → Option Operation
  | cipherAbort => some .cipher
  | aeadAbort => some .aead
  | _ => none

end PsaCall

/-! ## What is left behind -/

/-- The keys that were imported or generated. -/
def createdKeys (events : Events) : List UInt32 :=
  events.filterMap fun (call, reply) =>
    if (call = .importKey ∨ call = .generateKey) ∧ reply.status = .success then some reply.key
    else none

def destroyedKeys (events : Events) : List UInt32 :=
  events.filterMap fun (call, reply) =>
    match call with
    | .destroyKey key => if reply.status = .success then some key else none
    | _ => none

/-- The operation is active after the events. A call that fails leaves it to be aborted. -/
def activeAfter (op : Operation) : Bool → Events → Bool
  | active, [] => active
  | active, (call, reply) :: events =>
    activeAfter op
      (if call.setsUp = some op ∧ reply.status = .success then true
      else if call.finishes = some op ∧ reply.status = .success then false
      else if call.aborts = some op then false
      else active) events

def AllSucceed (events : Events) : Prop := ∀ event ∈ events, event.2.status = .success

def isSidewalkKey (build : Build) (key : UInt32) : Bool :=
  KeyId.all.any fun id => key = build.keyValue id

/-- A key that is created is volatile and so none of the Sidewalk keys, and a key that was created
and is not destroyed can be destroyed. -/
structure Honest (build : Build) (events : Events) : Prop where
  volatile : ∀ key ∈ createdKeys events, isSidewalkKey build key = false
  destroys : ∀ before key reply after, events = before ++ (.destroyKey key, reply) :: after →
    key ∈ createdKeys before → key ∉ destroyedKeys before → reply.status = .success

/-- Every key created is destroyed once and no other key is, no operation is left active, and an
error is returned unless every call succeeded. -/
structure Clean (build : Build) (events : Events) (result : SidError) : Prop where
  destroyed : destroyedKeys events = createdKeys events
  kept : ∀ key ∈ destroyedKeys events, isSidewalkKey build key = false
  inactive : ∀ op, activeAfter op false events = false
  succeeds : result = .none → AllSucceed events

/-! ## Functions -/

def getError : PsaStatus → SidError
  | .success => .none
  | .notSupported => .nosupport
  | .insufficientMemory => .oom
  | .invalidArgument => .invalidArgs
  | .bufferTooSmall => .outOfResources
  | .badState => .invalidState
  | .notPermitted => .noPermission
  | .dataInvalid => .nullPointer
  | .other _ => .generic

/-- `sid_crypto_keys_buffer_get`: the id that the buffer holds. -/
def bufferGet (build : Build) (data : Mem) (size : Nat) : Option UInt32 :=
  if size = 0 then none
  else if isHandle build data size then
    (KeyId.all.find? fun id => data.slice 0 4 = leBytes4 (build.keyValue id)).map build.keyValue
  else none

/-- The status and the key handle. -/
def prepareKey (build : Build) (key : Mem) (keyLength : Nat) : Psa (PsaStatus × UInt32) :=
  let id := if build.psaKeyStorage then bufferGet build key keyLength else none
  match id.filter (isSidewalkKey build) with
  | some id => pure (.success, id)
  | none => do
    let reply ← Program.make .importKey
    pure (reply.status, reply.key)

/-- The end of every function; the result of the destruction is only logged. -/
def destroyHandle (build : Build) (keyHandle : UInt32) : Psa Unit :=
  if build.psaKeyStorage && isSidewalkKey build keyHandle then pure ()
  else do
    let _ ← Program.make (.destroyKey keyHandle)
    pure ()

/-- A function around the use of its key. Where that gives no status the function has returned. -/
def withKey (build : Build) (prepare : Psa (PsaStatus × UInt32))
    (use : UInt32 → Psa (Option PsaStatus)) : Psa SidError := do
  let (status, keyHandle) ← prepare
  if status = .success then
    match ← use keyHandle with
    | some status =>
      destroyHandle build keyHandle
      pure (getError status)
    | none => pure .invalidArgs
  else pure (getError status)

/-! ## Events in a row -/

section

variable {events events' : Events}

theorem createdKeys_append :
    createdKeys (events ++ events') = createdKeys events ++ createdKeys events' :=
  List.filterMap_append

theorem destroyedKeys_append :
    destroyedKeys (events ++ events') = destroyedKeys events ++ destroyedKeys events' :=
  List.filterMap_append

theorem activeAfter_append (op : Operation) (active : Bool) :
    activeAfter op active (events ++ events') =
      activeAfter op (activeAfter op active events) events' := by
  induction events generalizing active with
  | nil => rfl
  | cons event events ih => exact ih _

theorem allSucceed_append :
    AllSucceed (events ++ events') ↔ AllSucceed events ∧ AllSucceed events' :=
  List.forall_mem_append

theorem allSucceed_nil : AllSucceed [] := fun _ h => absurd h List.not_mem_nil

@[simp] theorem allSucceed_cons {call : PsaCall} {reply : PsaReply} :
    AllSucceed ((call, reply) :: events) ↔ reply.status = .success ∧ AllSucceed events :=
  List.forall_mem_cons

/-- The call creates or destroys a key. -/
def PsaCall.IsKeyCall : PsaCall → Prop
  | .importKey | .generateKey | .destroyKey _ => True
  | _ => False

/-- No key is created or destroyed. -/
def NoKeys (events : Events) : Prop := ∀ event ∈ events, ¬event.1.IsKeyCall

def OnlyKeys (events : Events) : Prop := ∀ event ∈ events, event.1.IsKeyCall

theorem NoKeys.created (h : NoKeys events) : createdKeys events = [] := by
  refine List.filterMap_eq_nil_iff.mpr fun event hevent => ?_
  refine if_neg ?_
  rintro ⟨hcall | hcall, -⟩
  · exact h event hevent (hcall ▸ trivial)
  · exact h event hevent (hcall ▸ trivial)

theorem NoKeys.destroyed (h : NoKeys events) : destroyedKeys events = [] := by
  refine List.filterMap_eq_nil_iff.mpr fun event hevent => ?_
  obtain ⟨call, reply⟩ := event
  have hkey := h _ hevent
  cases call with
  | destroyKey key => exact absurd trivial hkey
  | _ => rfl

theorem OnlyKeys.active (h : OnlyKeys events) (op : Operation) (active : Bool) :
    activeAfter op active events = active := by
  induction events with
  | nil => rfl
  | cons event events ih =>
    obtain ⟨call, reply⟩ := event
    have hrest := ih fun event hevent => h event (List.mem_cons_of_mem _ hevent)
    have hcall := h _ List.mem_cons_self
    cases call with
    | importKey => exact hrest
    | generateKey => exact hrest
    | destroyKey key => exact hrest
    | _ => exact absurd hcall id

theorem clean_nil (build : Build) (result : SidError) : Clean build [] result where
  destroyed := rfl
  kept _ h := absurd h List.not_mem_nil
  inactive _ := rfl
  succeeds _ := allSucceed_nil

theorem getError_none {status : PsaStatus} (h : getError status = .none) : status = .success := by
  cases status with
  | success => rfl
  | _ => cases h

end

/-! ## Keys -/

section

variable {build : Build}

/-- What a preparation of a key does: it creates a key, or finds a Sidewalk key. -/
inductive Prepared (build : Build) : Events → PsaStatus × UInt32 → Prop
  | created (call : PsaCall) (reply : PsaReply) : call = .importKey ∨ call = .generateKey →
      Prepared build [(call, reply)] (reply.status, reply.key)
  | found (key : UInt32) : build.psaKeyStorage = true → isSidewalkKey build key = true →
      Prepared build [] (.success, key)

theorem prepareKey_prepared {key : Mem} {keyLength : Nat} {events : Events}
    {result : PsaStatus × UInt32} (h : (prepareKey build key keyLength).Runs events result) :
    Prepared build events result := by
  unfold prepareKey at h
  simp only at h
  split at h
  next id hid =>
    obtain ⟨rfl, rfl⟩ := h
    obtain ⟨hget, hsidewalk⟩ := Option.filter_eq_some_iff.mp hid
    by_cases hstorage : build.psaKeyStorage = true
    · exact .found id hstorage hsidewalk
    · rw [if_neg hstorage] at hget
      cases hget
  · rw [Program.runs_make_bind] at h
    obtain ⟨reply, _, rfl, rfl, rfl⟩ := h
    exact .created .importKey reply (.inl rfl)

theorem active_around {before used after : Events} (hbefore : OnlyKeys before)
    (hafter : OnlyKeys after) (op : Operation) :
    activeAfter op false (before ++ used ++ after) = activeAfter op false used := by
  rw [activeAfter_append, activeAfter_append, hbefore.active, hafter.active]

theorem onlyKeys_singleton {call : PsaCall} (reply : PsaReply) (h : call.IsKeyCall) :
    OnlyKeys [(call, reply)] := by
  intro event hevent
  rw [List.mem_singleton.mp hevent]
  exact h

theorem onlyKeys_nil : OnlyKeys [] := fun _ h => absurd h List.not_mem_nil

/-- A key that is prepared is destroyed again where it was created. -/
theorem destroyed_again {before after : Events} {used : Events} {status : PsaStatus} {key : UInt32}
    (hprepared : Prepared build before (status, key)) (hsuccess : status = .success)
    (hused : NoKeys used) (hdestroy : (destroyHandle build key).Runs after ())
    (hhonest : Honest build (before ++ used ++ after)) :
    OnlyKeys after ∧ AllSucceed after ∧
      destroyedKeys (before ++ used ++ after) = createdKeys (before ++ used ++ after) := by
  unfold destroyHandle at hdestroy
  cases hprepared with
  | found key hstorage hsidewalk =>
    rw [if_pos (by rw [hstorage, hsidewalk]; rfl)] at hdestroy
    obtain ⟨rfl, -⟩ := hdestroy
    refine ⟨onlyKeys_nil, allSucceed_nil, ?_⟩
    rw [List.nil_append, List.append_nil, hused.created, hused.destroyed]
  | created call reply hcall =>
    have hmem : reply.key ∈ createdKeys [(call, reply)] := by
      simp only [createdKeys, List.filterMap_cons, if_pos (And.intro hcall hsuccess)]
      exact List.mem_singleton_self _
    have hcreated : createdKeys [(call, reply)] = [reply.key] := by
      simp only [createdKeys, List.filterMap_cons, if_pos (And.intro hcall hsuccess),
        List.filterMap_nil]
    have hdestroyed : destroyedKeys [(call, reply)] = [] := by
      obtain rfl | rfl := hcall
      · rfl
      · rfl
    have hvolatile : isSidewalkKey build reply.key = false := by
      refine hhonest.volatile reply.key ?_
      rw [createdKeys_append, createdKeys_append]
      exact List.mem_append_left _ (List.mem_append_left _ hmem)
    rw [if_neg (by rw [hvolatile, Bool.and_false]; exact Bool.false_ne_true),
      Program.runs_make_bind] at hdestroy
    obtain ⟨reply', _, rfl, rfl, -⟩ := hdestroy
    have hsucceeds : reply'.status = .success := by
      refine hhonest.destroys ([(call, reply)] ++ used) reply.key reply' [] rfl ?_ ?_
      · rw [createdKeys_append]
        exact List.mem_append_left _ hmem
      · rw [destroyedKeys_append, hdestroyed, hused.destroyed]
        exact List.not_mem_nil
    refine ⟨onlyKeys_singleton _ trivial, allSucceed_cons.mpr ⟨hsucceeds, allSucceed_nil⟩, ?_⟩
    rw [createdKeys_append, createdKeys_append, destroyedKeys_append, destroyedKeys_append,
      hused.created, hused.destroyed, hcreated, hdestroyed]
    simp only [createdKeys, destroyedKeys, List.filterMap_cons, hsucceeds, if_true,
      List.filterMap_nil]
    rfl

theorem prepared_succeeds {events : Events} {status : PsaStatus} {key : UInt32}
    (h : Prepared build events (status, key)) (hsuccess : status = .success) :
    AllSucceed events := by
  cases h with
  | found => exact allSucceed_nil
  | created call reply => exact allSucceed_cons.mpr ⟨hsuccess, allSucceed_nil⟩

theorem prepared_onlyKeys {events : Events} {result : PsaStatus × UInt32}
    (h : Prepared build events result) : OnlyKeys events := by
  cases h with
  | found => exact onlyKeys_nil
  | created call reply hcall =>
    obtain rfl | rfl := hcall
    · exact onlyKeys_singleton _ trivial
    · exact onlyKeys_singleton _ trivial

theorem prepared_destroyed {events : Events} {result : PsaStatus × UInt32}
    (h : Prepared build events result) : destroyedKeys events = [] := by
  cases h with
  | found => rfl
  | created call reply hcall =>
    obtain rfl | rfl := hcall
    · rfl
    · rfl

theorem prepared_created {events : Events} {status : PsaStatus} {key : UInt32}
    (h : Prepared build events (status, key)) (hfails : status ≠ .success) :
    createdKeys events = [] := by
  cases h with
  | found => exact absurd rfl hfails
  | created call reply hcall =>
    simp only [createdKeys, List.filterMap_cons, hfails, and_false, if_false, List.filterMap_nil]

/-- Around the use of a key: where no key is prepared nothing is left behind, and else what is left
behind comes from the use. -/
theorem withKey_clean_iff {prepare : Psa (PsaStatus × UInt32)}
    {use : UInt32 → Psa (Option PsaStatus)}
    (hprepare : ∀ events result, prepare.Runs events result → Prepared build events result)
    (huse : ∀ key events status, (use key).Runs events status → NoKeys events)
    {events : Events} {result : SidError} (hrun : (withKey build prepare use).Runs events result)
    (hhonest : Honest build events) :
    ∃ before used status after, events = before ++ used ++ after ∧ OnlyKeys before ∧
      OnlyKeys after ∧ NoKeys used ∧
      (used = [] ∧ createdKeys events = [] ∧ Clean build events result ∨
        (∃ key, (use key).Runs used status) ∧ AllSucceed before ∧ AllSucceed after ∧
          (Clean build events result ↔
            (status = none → createdKeys events = []) ∧
            (∀ op, activeAfter op false used = false) ∧
            (status = some .success → AllSucceed used))) := by
  unfold withKey at hrun
  rw [Program.runs_bind] at hrun
  obtain ⟨before, ⟨prepared, key⟩, rest, hprep, hrest, rfl⟩ := hrun
  have hprepared := hprepare _ _ hprep
  have hbefore := prepared_onlyKeys hprepared
  simp only at hrest
  by_cases hsuccess : prepared = .success
  · rw [if_pos hsuccess, Program.runs_bind] at hrest
    obtain ⟨used, status, after, hused, hafter, rfl⟩ := hrest
    have hnokeys := huse _ _ _ hused
    rw [← List.append_assoc] at hhonest ⊢
    cases status with
    | none =>
      obtain ⟨rfl, rfl⟩ := hafter
      refine ⟨before, used, none, [], rfl, hbefore, onlyKeys_nil, hnokeys, .inr ⟨⟨key, hused⟩,
        prepared_succeeds hprepared hsuccess, allSucceed_nil, ?_⟩⟩
      have hdestroyed : destroyedKeys (before ++ used ++ []) = [] := by
        rw [destroyedKeys_append, destroyedKeys_append, prepared_destroyed hprepared,
          hnokeys.destroyed]
        rfl
      constructor
      · intro hclean
        refine ⟨fun _ => hclean.destroyed.symm.trans hdestroyed, fun op => ?_, nofun⟩
        rw [← active_around hbefore onlyKeys_nil op]
        exact hclean.inactive op
      · rintro ⟨hcreated, hinactive, -⟩
        refine ⟨hdestroyed.trans (hcreated rfl).symm, fun key hkey => ?_, fun op => ?_, nofun⟩
        · rw [hdestroyed] at hkey
          exact absurd hkey List.not_mem_nil
        · rw [active_around hbefore onlyKeys_nil op]
          exact hinactive op
    | some status =>
      rw [Program.runs_bind] at hafter
      obtain ⟨after, _, _, hdestroy, ⟨rfl, rfl⟩, rfl⟩ := hafter
      rw [List.append_nil] at hhonest ⊢
      have hok₁ := prepared_succeeds hprepared hsuccess
      obtain ⟨hafter, hok₂, hkeys⟩ :=
        destroyed_again hprepared hsuccess hnokeys hdestroy hhonest
      refine ⟨before, used, some status, after, rfl, hbefore, hafter, hnokeys,
        .inr ⟨⟨key, hused⟩, hok₁, hok₂, ?_⟩⟩
      constructor
      · intro hclean
        refine ⟨nofun, fun op => ?_, fun hstatus => ?_⟩
        · rw [← active_around hbefore hafter op]
          exact hclean.inactive op
        · cases hstatus
          exact (allSucceed_append.mp (allSucceed_append.mp (hclean.succeeds rfl)).1).2
      · rintro ⟨-, hinactive, hsucceeds⟩
        refine ⟨hkeys, fun key hkey => hhonest.volatile key (hkeys ▸ hkey), fun op => ?_,
          fun hresult => ?_⟩
        · rw [active_around hbefore hafter op]
          exact hinactive op
        · have hused := hsucceeds (congrArg some (getError_none hresult))
          exact allSucceed_append.mpr ⟨allSucceed_append.mpr ⟨hok₁, hused⟩, hok₂⟩
  · rw [if_neg hsuccess] at hrest
    obtain ⟨rfl, rfl⟩ := hrest
    have hcreated : createdKeys before = [] := prepared_created hprepared hsuccess
    have hdestroyed : destroyedKeys before = [] := prepared_destroyed hprepared
    rw [List.append_nil]
    refine ⟨before, [], none, [], (List.append_nil _).symm.trans (by simp), hbefore, onlyKeys_nil,
      fun _ h => absurd h List.not_mem_nil, .inl ⟨rfl, hcreated, ?_⟩⟩
    refine ⟨hdestroyed.trans hcreated.symm, fun key hkey => ?_, fun op => hbefore.active op false,
      fun hresult => absurd (getError_none hresult) hsuccess⟩
    rw [hdestroyed] at hkey
    exact absurd hkey List.not_mem_nil

end

end Sidewalk.Crypto
