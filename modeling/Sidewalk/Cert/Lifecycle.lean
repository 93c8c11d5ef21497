import Sidewalk.Cert.Split

/-!
# The state of the certification

The operations on the context (`step`) with the results of the primitives they call as arguments,
and their runs, the latest call first. Whatever the results, a chain flag is set only for the chain
that the latest import for its algorithm has accepted, with the serial number and the key pair that
the context has now (`chain_current`), if the imports copy no serial that is longer than its array:
what such a copy changes behind the array no flag knows of (`serial_spills`).
-/

namespace Sidewalk.Cert

open Sidewalk.Lib

/-! ## The operations -/

def serialNumSize : Nat := 17
def apidSize : Nat := 4

/-- The strings of `struct sid_on_dev_cert_info`. -/
structure DevInfo where
  devType : List UInt8
  dsn : List UInt8
  apid : List UInt8
  boardId : Option (List UInt8)

/-- What a key generation returns and leaves in the context. -/
structure KeyGen where
  ret : Int
  puk : List UInt8
  prk : List UInt8

/-- The flags of a context without any. -/
def noFlags : Flag → Bool := fun _ => false

/-- `sid_on_dev_cert_init`; the allocation of the context may fail, and the heap holds any byte
behind it. -/
def init (allocated : Bool) (behind : UInt8) (ctx : Option Context) : Int × Option Context :=
  if ctx.isNone ∧ allocated = false then (errorOom, none)
  else
    let blank n : List UInt8 := List.replicate n 0xFF
    (errorNone, some
      { state := noFlags, smsn := blank smsnSize, apid := blank apidSize, appKey := blank 32
        fields := fun algo => ⟨blank prkSize, blank algo.pukSize, blank signatureSize,
          fun _ => ⟨blank algo.pukSize, blank signatureSize, 0, blank caSerialMaxSize, 0xFF⟩⟩
        behind := behind })

/-- `sid_on_dev_cert_generate_smsn`; a missing argument is a null pointer. -/
def generateSmsn (info : Option DevInfo) (allocated : Bool)
    (hash : List UInt8 → Int × List UInt8) (ctx : Option Context) : Int × Option Context :=
  match info, ctx with
  | none, ctx => (errorNullPointer, ctx)
  | some _, none => (errorUninitialized, none)
  | some info, some ctx =>
    let ctx := { ctx with state := noFlags }
    if serialNumSize < info.dsn.length + 1 ∨ info.apid.length ≠ apidSize then
      (errorInvalidArgs, some ctx)
    else if allocated = false then (errorOom, some ctx)
    else
      match hash (info.devType ++ info.dsn ++ info.apid ++ info.boardId.getD []) with
      | (ret, digest) =>
        if ret = errorNone then
          (ret, some ({ ctx with apid := info.apid, smsn := digest }.setFlag .smsn true))
        else (ret, some ctx)

/-- `sid_on_dev_cert_generate_csr`: the size of the buffer, and the request that is returned. -/
def generateCsr (algo : Option Algo) (csrSize : Option Nat) (keyGen : KeyGen)
    (sign : List UInt8 → List UInt8 → Int × List UInt8) (ctx : Option Context) :
    Int × List UInt8 × Option Context :=
  match csrSize, ctx, algo with
  | none, ctx, _ => (errorNullPointer, [], ctx)
  | some _, none, _ => (errorUninitialized, [], none)
  | some csrSize, some ctx, algo =>
    if ctx.state .smsn = false then (errorInvalidState, [], some ctx)
    else
      match algo with
      | none => (errorIncompatibleParams, [], some ctx)
      | some algo =>
        let ctx := (ctx.setFlag (.csr algo) false).setFlag (.chain algo) false
        let ctx := ctx.setFields algo { ctx.fields algo with puk := keyGen.puk, prk := keyGen.prk }
        if keyGen.ret ≠ errorNone then (keyGen.ret, [], some ctx)
        else if csrSize < algo.pukSize + smsnSize + signatureSize then
          (errorInvalidArgs, [], some ctx)
        else
          match sign keyGen.prk (keyGen.puk ++ ctx.smsn) with
          | (ret, signature) =>
            if ret = errorNone then
              (ret, keyGen.puk ++ ctx.smsn ++ signature, some (ctx.setFlag (.csr algo) true))
            else (ret, [], some ctx)

/-- `sid_on_dev_cert_write_cert_chain` on its parameters; `none` is a null pointer. -/
def importChain (algo : Option Algo) (chain : Option (Mem × Nat)) (ctx : Option Context) :
    Int × Option Context :=
  match chain, ctx, algo with
  | none, ctx, _ => (errorNullPointer, ctx)
  | some _, none, _ => (errorUninitialized, none)
  | some _, some ctx, none => (errorIncompatibleParams, some ctx)
  | some (chain, size), some ctx, some algo =>
    ((writeCertChain ctx algo chain size).1, some (writeCertChain ctx algo chain size).2.1)

def writeAppServerKey (appKey : Option (List UInt8)) (ctx : Option Context) :
    Int × Option Context :=
  match appKey, ctx with
  | none, ctx => (errorNullPointer, ctx)
  | some _, none => (errorUninitialized, none)
  | some appKey, some ctx =>
    if ctx.state .appKey = true then (errorInvalidState, some ctx)
    else (errorNone, some ({ ctx with appKey := appKey }.setFlag .appKey true))

/-! ## Verification -/

def certAmzn : Nat := 4

def Context.Full (ctx : Context) : Prop :=
  ctx.state .smsn = true ∧ ctx.state .appKey = true ∧
    ∀ algo ∈ [Algo.ed25519, Algo.p256r1],
      ctx.state (.csr algo) = true ∧ ctx.state (.chain algo) = true

instance (ctx : Context) : Decidable ctx.Full := by
  unfold Context.Full
  infer_instance

/-- The certificates of the device and of the authorities, each with the key of the next one. -/
def verifyChains (dsa : Algo → List UInt8 → List UInt8 → List UInt8 → Bool) (ctx : Context) : Bool :=
  [Algo.ed25519, Algo.p256r1].all fun algo =>
    let fields := ctx.fields algo
    dsa algo (fields.certs 0).pubKey (fields.puk ++ ctx.smsn) fields.sig &&
      (List.range certMaxNum).all fun i =>
        let ca := fields.certs i
        dsa algo (fields.certs (if i = certAmzn then i else i + 1)).pubKey
          (ca.pubKey ++ ctx.caSerial algo i) ca.signature

/-- `sid_on_dev_cert_verify_and_store` up to the erasure of the store; what begins with it is
`eraseAndStore`. -/
def verifyAndStore {σ : Type} (dsa : Algo → List UInt8 → List UInt8 → List UInt8 → Bool)
    (eraseAndStore : Context → σ → Int × σ) (ctx : Option Context) (store : σ) : Int × σ :=
  match ctx with
  | none => (errorUninitialized, store)
  | some ctx =>
    if ¬ctx.Full then (errorInvalidState, store)
    else if verifyChains dsa ctx = false then (errorGeneric, store)
    else eraseAndStore ctx store

/-! ## Runs -/

inductive Call
  | init (allocated : Bool) (behind : UInt8)
  | deinit
  | generateSmsn (info : Option DevInfo) (allocated : Bool) (hash : List UInt8 → Int × List UInt8)
  | generateCsr (algo : Option Algo) (csrSize : Option Nat) (keyGen : KeyGen)
      (sign : List UInt8 → List UInt8 → Int × List UInt8)
  | importChain (algo : Option Algo) (chain : Option (Mem × Nat))
  | writeAppServerKey (appKey : Option (List UInt8))

def step (call : Call) (ctx : Option Context) : Int × Option Context :=
  match call with
  | .init allocated behind => init allocated behind ctx
  | .deinit => (errorNone, none)
  | .generateSmsn info allocated hash => generateSmsn info allocated hash ctx
  | .generateCsr algo csrSize keyGen sign =>
    ((generateCsr algo csrSize keyGen sign ctx).1, (generateCsr algo csrSize keyGen sign ctx).2.2)
  | .importChain algo chain => importChain algo chain ctx
  | .writeAppServerKey appKey => writeAppServerKey appKey ctx

/-- The context after the calls, the latest of them first. -/
def run : List Call → Option Context
  | [] => none
  | call :: calls => (step call (run calls)).2

/-- A chain that the call imports, where it gets so far, has no serial that is longer than its
array. -/
def Call.Fits : Call → Option Context → Prop
  | .importChain (some algo) (some (chain, size)), some ctx =>
    Expects ctx algo chain → algo.Admits size →
      SerialsFit algo chain size (firstCa algo) certMaxNum
  | _, _ => True

/-- The chains that the calls import have no such serials. -/
def ImportsFit : List Call → Prop
  | [] => True
  | call :: calls => call.Fits (run calls) ∧ ImportsFit calls

/-- The call replaces the serial number or the key pair of the algorithm, if it gets so far. -/
def Call.ChangesKeys (algo : Algo) : Call → Prop
  | .init _ _ => True
  | .deinit => True
  | .generateSmsn info _ _ => info.isSome
  | .generateCsr algo' csrSize _ _ => algo' = some algo ∧ csrSize.isSome
  | .importChain _ _ => False
  | .writeAppServerKey _ => False

/-- The call imports a chain for the algorithm, if it gets so far. -/
def Call.Imports (algo : Algo) : Call → Prop
  | .importChain algo' chain => algo' = some algo ∧ chain.isSome
  | _ => False

/-- The key pair is the one of the latest key generation. -/
def Keyed (algo : Algo) (calls : List Call) (ctx : Context) : Prop :=
  ∃ newer older csrSize keyGen sign,
    calls = newer ++ .generateCsr (some algo) (some csrSize) keyGen sign :: older ∧
      (∀ call ∈ newer, ¬call.ChangesKeys algo) ∧ keyGen.ret = errorNone ∧
      (ctx.fields algo).puk = keyGen.puk ∧ (ctx.fields algo).prk = keyGen.prk

/-- The stored chain is the latest one imported, after the latest key generation, and has the serial
number and the public key of the context. -/
def Current (algo : Algo) (calls : List Call) (ctx : Context) : Prop :=
  ∃ newer older chain size before,
    calls = newer ++ .importChain (some algo) (some (chain, size)) :: older ∧
      (∀ call ∈ newer, ¬call.ChangesKeys algo ∧ ¬call.Imports algo) ∧
      run older = some before ∧ (writeCertChain before algo chain size).1 = errorNone ∧
      Keyed algo older ctx ∧
      deviceSplit ctx algo = (certAt algo chain 0 smsnSize,
        certsAt algo chain (deviceLength chain) (firstCa algo) certMaxNum) ∧
      ctx.smsn = chain.slice 0 smsnSize ∧
      (ctx.fields algo).puk = chain.slice smsnSize algo.pukSize

/-- What is read of each serial is in its array. -/
def Context.Holds (ctx : Context) (algo : Algo) : Prop :=
  ∀ i < certMaxNum,
    ((ctx.fields algo).certs i).serialLength ≤ ((ctx.fields algo).certs i).serial.length

/-- What holds for an algorithm after the calls. -/
structure Ordered (algo : Algo) (calls : List Call) (ctx : Context) : Prop where
  smsn : ctx.state (.csr algo) = true → ctx.state .smsn = true
  csr : ctx.state (.chain algo) = true → ctx.state (.csr algo) = true
  keyed : ctx.state (.csr algo) = true → Keyed algo calls ctx
  current : ctx.state (.chain algo) = true → Current algo calls ctx
  holds : ctx.state (.chain algo) = true → ctx.Holds algo

/-! ## What a call leaves as it was -/

/-- What belongs to an algorithm is as it was. -/
structure SameFor (algo : Algo) (ctx ctx' : Context) : Prop where
  smsn : ctx'.smsn = ctx.smsn
  fields : ctx'.fields algo = ctx.fields algo
  flag : ctx'.state .smsn = ctx.state .smsn
  csr : ctx'.state (.csr algo) = ctx.state (.csr algo)
  chain : ctx'.state (.chain algo) = ctx.state (.chain algo)

theorem SameFor.refl (algo : Algo) (ctx : Context) : SameFor algo ctx ctx :=
  ⟨rfl, rfl, rfl, rfl, rfl⟩

theorem SameFor.setFlag {algo algo' : Algo} {ctx ctx' : Context} (h : SameFor algo ctx ctx')
    (hne : algo' ≠ algo) {flag : Flag} (hflag : flag = .csr algo' ∨ flag = .chain algo') (b : Bool) :
    SameFor algo ctx (ctx'.setFlag flag b) := by
  rcases hflag with rfl | rfl
  · refine ⟨h.smsn, h.fields, ?_, ?_, ?_⟩
    · simp [Context.setFlag, h.flag]
    · simp [Context.setFlag, h.csr, Ne.symm hne]
    · simp [Context.setFlag, h.chain]
  · refine ⟨h.smsn, h.fields, ?_, ?_, ?_⟩
    · simp [Context.setFlag, h.flag]
    · simp [Context.setFlag, h.csr]
    · simp [Context.setFlag, h.chain, Ne.symm hne]

theorem SameFor.setFields {algo algo' : Algo} {ctx ctx' : Context} (h : SameFor algo ctx ctx')
    (hne : algo' ≠ algo) (fields : AlgoFields) : SameFor algo ctx (ctx'.setFields algo' fields) :=
  ⟨h.smsn, (Function.update_of_ne (Ne.symm hne) _ _).trans h.fields, h.flag, h.csr, h.chain⟩

theorem Keyed.congr {algo : Algo} {calls : List Call} {ctx ctx' : Context}
    (h : Keyed algo calls ctx) (hpuk : (ctx'.fields algo).puk = (ctx.fields algo).puk)
    (hprk : (ctx'.fields algo).prk = (ctx.fields algo).prk) : Keyed algo calls ctx' := by
  unfold Keyed
  rw [hpuk, hprk]
  exact h

theorem Keyed.cons {algo : Algo} {calls : List Call} {ctx ctx' : Context} {call : Call}
    (h : Keyed algo calls ctx) (hcall : ¬call.ChangesKeys algo)
    (hpuk : (ctx'.fields algo).puk = (ctx.fields algo).puk)
    (hprk : (ctx'.fields algo).prk = (ctx.fields algo).prk) : Keyed algo (call :: calls) ctx' := by
  obtain ⟨newer, older, csrSize, keyGen, sign, rfl, hnewer, hret, hpuk', hprk'⟩ := h
  refine ⟨call :: newer, older, csrSize, keyGen, sign, rfl, fun c hc => ?_, hret, hpuk.trans hpuk',
    hprk.trans hprk'⟩
  rcases List.mem_cons.mp hc with rfl | hc
  · exact hcall
  · exact hnewer c hc

/-- Of serials that are in their arrays nothing else is read. -/
theorem Context.Holds.deviceSplit_congr {algo : Algo} {ctx ctx' : Context} (h : ctx.Holds algo)
    (hsame : SameFor algo ctx ctx') : deviceSplit ctx' algo = deviceSplit ctx algo := by
  have hserial (ctx : Context) (h : ctx.Holds algo) (i : Nat) (hi : i < certMaxNum) :
      ctx.caSerial algo i = ((ctx.fields algo).certs i).serial.take
        ((ctx.fields algo).certs i).serialLength := List.take_append_of_le_length (h i hi)
  have h' : ctx'.Holds algo := by
    unfold Context.Holds
    rw [hsame.fields]
    exact h
  unfold deviceSplit
  rw [hsame.fields, hsame.smsn]
  refine congrArg (Prod.mk _) (List.map_congr_left fun i hi => ?_)
  have hi := List.mem_range.mp hi
  unfold Context.block
  rw [hserial ctx' h' i hi, hserial ctx h i hi, hsame.fields]

theorem Current.cons {algo : Algo} {calls : List Call} {ctx ctx' : Context} {call : Call}
    (h : Current algo calls ctx) (hholds : ctx.Holds algo) (hkeys : ¬call.ChangesKeys algo)
    (himports : ¬call.Imports algo) (hsame : SameFor algo ctx ctx') :
    Current algo (call :: calls) ctx' := by
  obtain ⟨newer, older, chain, size, before, rfl, hnewer, hrun, hret, hkeyed, hsplit, hsmsn,
    hpuk⟩ := h
  refine ⟨call :: newer, older, chain, size, before, rfl, fun c hc => ?_, hrun, hret, ?_, ?_, ?_,
    ?_⟩
  · rcases List.mem_cons.mp hc with rfl | hc
    · exact ⟨hkeys, himports⟩
    · exact hnewer c hc
  · unfold Keyed
    rw [hsame.fields]
    exact hkeyed
  · exact (hholds.deviceSplit_congr hsame).trans hsplit
  · rw [hsame.smsn, hsmsn]
  · rw [hsame.fields, hpuk]

theorem Ordered.frame {algo : Algo} {calls : List Call} {ctx ctx' : Context} {call : Call}
    (h : Ordered algo calls ctx) (hkeys : ¬call.ChangesKeys algo) (himports : ¬call.Imports algo)
    (hsame : SameFor algo ctx ctx') : Ordered algo (call :: calls) ctx' where
  smsn hcsr := hsame.flag ▸ h.smsn (hsame.csr ▸ hcsr)
  csr hchain := hsame.csr ▸ h.csr (hsame.chain ▸ hchain)
  keyed hcsr := (h.keyed (hsame.csr ▸ hcsr)).cons hkeys (by rw [hsame.fields]) (by rw [hsame.fields])
  current hchain := (h.current (hsame.chain ▸ hchain)).cons (h.holds (hsame.chain ▸ hchain)) hkeys
    himports hsame
  holds hchain := by
    unfold Context.Holds
    rw [hsame.fields]
    exact h.holds (hsame.chain ▸ hchain)

theorem Ordered.of_unset {algo : Algo} {calls : List Call} {ctx : Context}
    (hcsr : ctx.state (.csr algo) = false) (hchain : ctx.state (.chain algo) = false) :
    Ordered algo calls ctx := by
  constructor
  · intro h
    rw [hcsr] at h
    cases h
  · intro h
    rw [hchain] at h
    cases h
  · intro h
    rw [hcsr] at h
    cases h
  · intro h
    rw [hchain] at h
    cases h
  · intro h
    rw [hchain] at h
    cases h

/-- What an import that puts so much behind its certificates does to the context. -/
structure Imported (ctx ctx' : Context) (algo : Algo) (ret : Int) (beyond : Option UInt8) :
    Prop where
  smsn : ctx'.smsn = ctx.smsn
  flags : ∀ flag, flag ≠ .chain algo → ctx'.state flag = ctx.state flag
  others : beyond = none → ∀ algo', algo' ≠ algo → ctx'.fields algo' = ctx.fields algo'
  otherPuk : ∀ algo', algo' ≠ algo → (ctx'.fields algo').puk = (ctx.fields algo').puk
  otherPrk : ∀ algo', algo' ≠ algo → (ctx'.fields algo').prk = (ctx.fields algo').prk
  puk : (ctx'.fields algo).puk = (ctx.fields algo).puk
  prk : (ctx'.fields algo).prk = (ctx.fields algo).prk
  chain : ctx'.state (.chain algo) = true → ret = errorNone

theorem imported_cleared {ctx : Context} {algo : Algo} {ret : Int} :
    Imported ctx (ctx.setFlag (.chain algo) false) algo ret none where
  smsn := rfl
  flags _ h := Function.update_of_ne h _ _
  others _ _ _ := rfl
  otherPuk _ _ := rfl
  otherPrk _ _ := rfl
  puk := rfl
  prk := rfl
  chain h := by simp [Context.setFlag] at h

/-- A byte behind the certificates is in no key pair. -/
theorem Context.keys_putBeyond (ctx : Context) (algo algo' : Algo) (beyond : Option UInt8) :
    ((ctx.putBeyond algo beyond).fields algo').puk = (ctx.fields algo').puk ∧
      ((ctx.putBeyond algo beyond).fields algo').prk = (ctx.fields algo').prk := by
  cases beyond with
  | none => exact ⟨rfl, rfl⟩
  | some b =>
    cases algo with
    | p256r1 => exact ⟨rfl, rfl⟩
    | ed25519 =>
      cases algo' with
      | ed25519 => simp [Context.putBeyond, Context.setFields]
      | p256r1 => simp [Context.putBeyond, Context.setFields]

theorem Imported.putBeyond {ctx ctx' : Context} {algo : Algo} {ret : Int}
    (h : Imported ctx ctx' algo ret none) (beyond : Option UInt8) :
    Imported ctx (ctx'.putBeyond algo beyond) algo ret beyond := by
  obtain ⟨hstate, hsmsn, -, -⟩ := ctx'.ids_putBeyond algo beyond
  constructor
  · exact hsmsn.trans h.smsn
  · intro flag hflag
    rw [hstate]
    exact h.flags flag hflag
  · rintro rfl algo' hne
    exact h.others rfl algo' hne
  · exact fun algo' hne => (ctx'.keys_putBeyond algo algo' beyond).1.trans (h.otherPuk algo' hne)
  · exact fun algo' hne => (ctx'.keys_putBeyond algo algo' beyond).2.trans (h.otherPrk algo' hne)
  · exact (ctx'.keys_putBeyond algo algo beyond).1.trans h.puk
  · exact (ctx'.keys_putBeyond algo algo beyond).2.trans h.prk
  · rw [hstate]
    exact h.chain

theorem Imported.setFields {ctx ctx' : Context} {algo : Algo} {ret : Int}
    {beyond : Option UInt8} (h : Imported ctx ctx' algo ret beyond) {fields : AlgoFields}
    (hpuk : fields.puk = (ctx'.fields algo).puk) (hprk : fields.prk = (ctx'.fields algo).prk) :
    Imported ctx (ctx'.setFields algo fields) algo ret beyond := by
  have hother (algo' : Algo) (hne : algo' ≠ algo) :
      (ctx'.setFields algo fields).fields algo' = ctx'.fields algo' :=
    Function.update_of_ne hne _ _
  have hself : (ctx'.setFields algo fields).fields algo = fields := Function.update_self _ _ _
  constructor
  · exact h.smsn
  · exact h.flags
  · exact fun hbeyond algo' hne => (hother algo' hne).trans (h.others hbeyond algo' hne)
  · exact fun algo' hne => (congrArg _ (hother algo' hne)).trans (h.otherPuk algo' hne)
  · exact fun algo' hne => (congrArg _ (hother algo' hne)).trans (h.otherPrk algo' hne)
  · rw [hself, hpuk, h.puk]
  · rw [hself, hprk, h.prk]
  · exact h.chain

theorem Imported.setChain {ctx ctx' : Context} {algo : Algo} {beyond : Option UInt8}
    (h : Imported ctx ctx' algo errorNone beyond) :
    Imported ctx (ctx'.setFlag (.chain algo) true) algo errorNone beyond where
  smsn := h.smsn
  flags flag hflag := (Function.update_of_ne hflag _ _).trans (h.flags flag hflag)
  others := h.others
  otherPuk := h.otherPuk
  otherPrk := h.otherPrk
  puk := h.puk
  prk := h.prk
  chain _ := rfl

theorem writeCertChain_imported (ctx : Context) (algo : Algo) (chain : Mem) (size : Nat) :
    Imported ctx (writeCertChain ctx algo chain size).2.1 algo
      (writeCertChain ctx algo chain size).1 (writeCertChain ctx algo chain size).2.2.beyond := by
  unfold writeCertChain
  simp only
  split
  · exact imported_cleared
  split
  · exact imported_cleared
  split
  · exact imported_cleared
  split
  · exact imported_cleared
  generalize storeCas _ _ _ _ _ _ _ = stored
  split
  · next hnone =>
    rw [hnone]
    refine ((imported_cleared.setFields ?_ ?_).putBeyond _).setChain
    · rfl
    · rfl
  · refine (imported_cleared.setFields ?_ ?_).putBeyond _
    · rfl
    · rfl

/-- An import of serials that fit their arrays puts nothing behind the certificates. -/
theorem writeCertChain_beyond {ctx : Context} {algo : Algo} {chain : Mem} {size : Nat}
    (h : Expects ctx algo chain → algo.Admits size →
      SerialsFit algo chain size (firstCa algo) certMaxNum) :
    (writeCertChain ctx algo chain size).2.2.beyond = none := by
  unfold writeCertChain
  simp only
  split
  · rfl
  next hcsr =>
  split
  · rfl
  next hsize =>
  split
  · rfl
  next hsmsn =>
  split
  · rfl
  next hpuk =>
  have hexpects : Expects ctx algo chain := by
    refine ⟨?_, not_not.mp hsmsn, not_not.mp hpuk⟩
    simpa [Context.setFlag] using Bool.eq_true_of_not_eq_false hcsr
  have hadmits : algo.Admits size := by
    unfold Algo.Admits
    omega
  let imp : Import := (((Import.mk (ctx.fields algo).certs [] [] none).read 0 smsnSize).read
    smsnSize algo.pukSize).read (smsnSize + algo.pukSize) signatureSize
  have hbeyond := @storeCas_beyond _ _ _ _ 0 _ imp (h hexpects hadmits)
  split
  · exact hbeyond
  · exact hbeyond

theorem expects_of_accepted {ctx : Context} {algo : Algo} {chain : Mem} {size : Nat}
    (h : (writeCertChain ctx algo chain size).1 = errorNone) : Expects ctx algo chain := by
  have hstate : errorInvalidState ≠ errorNone := by decide
  have hargs : errorInvalidArgs ≠ errorNone := by decide
  unfold writeCertChain at h
  simp only at h
  split at h
  · exact absurd h hstate
  next hcsr =>
  split at h
  · exact absurd h hargs
  split at h
  · exact absurd h hargs
  next hsmsn =>
  split at h
  · exact absurd h hargs
  next hpuk =>
  refine ⟨?_, not_not.mp hsmsn, not_not.mp hpuk⟩
  have hcsr := Bool.eq_true_of_not_eq_false hcsr
  simpa [Context.setFlag] using hcsr

/-! ## What a call keeps -/

variable {algo : Algo} {calls : List Call} {ctx ctx' : Context}

theorem Ordered.importChain (h : Ordered algo calls ctx) (hrun : run calls = some ctx)
    (algo' : Algo) (chain : Mem) (size : Nat)
    (hfits : Expects ctx algo' chain → algo'.Admits size →
      SerialsFit algo' chain size (firstCa algo') certMaxNum) :
    Ordered algo (.importChain (some algo') (some (chain, size)) :: calls)
      (writeCertChain ctx algo' chain size).2.1 := by
  have himp := writeCertChain_imported ctx algo' chain size
  have hsmsn := himp.flags .smsn (by simp)
  have hkeys : ¬(Call.importChain (some algo') (some (chain, size))).ChangesKeys algo := id
  by_cases hsame : algo' = algo
  · subst hsame
    have hcsr := himp.flags (.csr algo') (by simp)
    refine ⟨fun hset => ?_, fun hset => ?_, fun hset => ?_, fun hset => ?_, fun hset => ?_⟩
    · rw [hsmsn]
      exact h.smsn (hcsr ▸ hset)
    · rw [hcsr]
      exact (expects_of_accepted (himp.chain hset)).csr
    · exact (h.keyed (hcsr ▸ hset)).cons hkeys himp.puk himp.prk
    · have hexpects := expects_of_accepted (himp.chain hset)
      obtain ⟨haccepts, hstored⟩ := writeCertChain_eq hexpects size
      obtain ⟨hadmits, hend⟩ := haccepts.mp (himp.chain hset)
      obtain ⟨hdevice, hcerts⟩ := hstored (himp.chain hset)
      refine ⟨[], calls, chain, size, ctx, rfl, fun _ hc => absurd hc List.not_mem_nil, hrun,
        himp.chain hset, (h.keyed hexpects.csr).congr himp.puk himp.prk,
        deviceSplit_eq hdevice hcerts hend (hfits hexpects hadmits), ?_, ?_⟩
      · rw [himp.smsn, hexpects.smsn]
      · rw [himp.puk, hexpects.puk]
    · have hexpects := expects_of_accepted (himp.chain hset)
      obtain ⟨haccepts, hstored⟩ := writeCertChain_eq hexpects size
      obtain ⟨hadmits, hend⟩ := haccepts.mp (himp.chain hset)
      intro i hi
      exact ((hstored (himp.chain hset)).2 i hi).holds
        (hfits hexpects hadmits i hi ((walk_mono _ _ _ hi).trans hend))
  · refine h.frame hkeys (fun himports => hsame (Option.some.inj himports.1)) ⟨himp.smsn, ?_, hsmsn,
      ?_, ?_⟩
    · exact himp.others (writeCertChain_beyond hfits) algo (Ne.symm hsame)
    · exact himp.flags (.csr algo) (by simp)
    · exact himp.flags (.chain algo) fun heq => hsame (Flag.chain.inj heq).symm

theorem Ordered.generateCsr (h : Ordered algo calls ctx) (algo' : Option Algo) (csrSize : Nat)
    (keyGen : KeyGen) (sign : List UInt8 → List UInt8 → Int × List UInt8)
    (hctx : (Cert.generateCsr algo' (some csrSize) keyGen sign (some ctx)).2.2 = some ctx') :
    Ordered algo (.generateCsr algo' (some csrSize) keyGen sign :: calls) ctx' := by
  have hnoImport : ¬(Call.generateCsr algo' (some csrSize) keyGen sign).Imports algo := id
  by_cases hset : ctx.state .smsn = true
  swap
  · -- without a serial number there is no request, and nothing changes
    have hunset := Bool.eq_false_of_not_eq_true hset
    simp only [Cert.generateCsr, hunset, if_true] at hctx
    cases hctx
    have hcsr : ctx.state (.csr algo) = false :=
      Bool.eq_false_of_not_eq_true fun hcsr => hset (h.smsn hcsr)
    exact Ordered.of_unset hcsr (Bool.eq_false_of_not_eq_true fun hchain =>
      hset (h.smsn (h.csr hchain)))
  have hpresent : ¬ctx.state .smsn = false := by simp [hset]
  cases algo' with
  | none =>
    simp only [Cert.generateCsr, if_neg hpresent] at hctx
    cases hctx
    exact h.frame (fun hkeys => by cases hkeys.1) hnoImport (SameFor.refl algo ctx)
  | some algo' =>
    simp only [Cert.generateCsr, if_neg hpresent] at hctx
    by_cases hsame : algo' = algo
    · subst hsame
      split at hctx
      · cases hctx
        exact Ordered.of_unset (by simp [Context.setFlag, Context.setFields])
          (by simp [Context.setFlag, Context.setFields])
      next hret =>
      split at hctx
      · cases hctx
        exact Ordered.of_unset (by simp [Context.setFlag, Context.setFields])
          (by simp [Context.setFlag, Context.setFields])
      split at hctx
      · cases hctx
        refine ⟨fun _ => ?_, fun hchain => ?_, fun _ => ?_, fun hchain => ?_, fun hchain => ?_⟩
        · simp [Context.setFlag, Context.setFields, hset]
        · simp [Context.setFlag, Context.setFields] at hchain
        · refine ⟨[], calls, csrSize, keyGen, sign, rfl, fun _ hc => absurd hc List.not_mem_nil,
            not_not.mp hret, ?_, ?_⟩
          · simp [Context.setFlag, Context.setFields]
          · simp [Context.setFlag, Context.setFields]
        · simp [Context.setFlag, Context.setFields] at hchain
        · simp [Context.setFlag, Context.setFields] at hchain
      · cases hctx
        exact Ordered.of_unset (by simp [Context.setFlag, Context.setFields])
          (by simp [Context.setFlag, Context.setFields])
    · have hcleared := fun fields =>
        ((((SameFor.refl algo ctx).setFlag hsame (.inl rfl) false).setFlag
          hsame (.inr rfl) false).setFields hsame fields)
      have hframe : SameFor algo ctx ctx' := by
        split at hctx
        · cases hctx
          exact hcleared _
        split at hctx
        · cases hctx
          exact hcleared _
        split at hctx
        · cases hctx
          exact (hcleared _).setFlag hsame (.inl rfl) true
        · cases hctx
          exact hcleared _
      exact h.frame (fun hkeys => hsame (Option.some.inj hkeys.1)) hnoImport hframe

theorem Ordered.generateSmsn (h : Ordered algo calls ctx) (info : Option DevInfo) (allocated : Bool)
    (hash : List UInt8 → Int × List UInt8)
    (hctx : (Cert.generateSmsn info allocated hash (some ctx)).2 = some ctx') :
    Ordered algo (.generateSmsn info allocated hash :: calls) ctx' := by
  cases info with
  | none =>
    cases hctx
    exact h.frame (fun hkeys => by cases hkeys) id (SameFor.refl algo ctx)
  | some info =>
    simp only [Cert.generateSmsn] at hctx
    split at hctx
    · cases hctx
      exact Ordered.of_unset rfl rfl
    split at hctx
    · cases hctx
      exact Ordered.of_unset rfl rfl
    split at hctx
    · cases hctx
      exact Ordered.of_unset (by simp [Context.setFlag, noFlags])
        (by simp [Context.setFlag, noFlags])
    · cases hctx
      exact Ordered.of_unset rfl rfl

theorem Ordered.writeAppServerKey (h : Ordered algo calls ctx) (appKey : Option (List UInt8))
    (hctx : (Cert.writeAppServerKey appKey (some ctx)).2 = some ctx') :
    Ordered algo (.writeAppServerKey appKey :: calls) ctx' := by
  refine h.frame id id ?_
  cases appKey with
  | none =>
    cases hctx
    exact SameFor.refl algo ctx
  | some appKey =>
    simp only [Cert.writeAppServerKey] at hctx
    split at hctx
    · cases hctx
      exact SameFor.refl algo ctx
    · cases hctx
      refine ⟨rfl, rfl, ?_, ?_, ?_⟩
      · simp [Context.setFlag]
      · simp [Context.setFlag]
      · simp [Context.setFlag]

/-- A call that gets a context from none but `init` has it from a context. -/
theorem exists_before {call : Call} {ctx : Option Context}
    (hinit : ∀ allocated behind, call ≠ .init allocated behind)
    (h : (step call ctx).2 = some ctx') : ∃ before, ctx = some before := by
  cases ctx with
  | some before => exact ⟨before, rfl⟩
  | none =>
    cases call with
    | init allocated behind => exact absurd rfl (hinit allocated behind)
    | deinit => cases h
    | generateSmsn info _ _ => cases info <;> cases h
    | generateCsr algo' csrSize _ _ => cases csrSize <;> cases h
    | importChain algo' chain => cases chain <;> cases h
    | writeAppServerKey appKey => cases appKey <;> cases h

theorem Ordered.step {call : Call}
    (h : ∀ before, run calls = some before → Ordered algo calls before)
    (hfits : call.Fits (run calls)) (hctx : (Cert.step call (run calls)).2 = some ctx') :
    Ordered algo (call :: calls) ctx' := by
  by_cases hinit : ∃ allocated behind, call = .init allocated behind
  · obtain ⟨allocated, behind, rfl⟩ := hinit
    simp only [Cert.step, Cert.init] at hctx
    split at hctx
    · cases hctx
    · cases hctx
      exact Ordered.of_unset rfl rfl
  obtain ⟨before, hrun⟩ := exists_before
    (fun allocated behind heq => hinit ⟨allocated, behind, heq⟩) hctx
  have hbefore := h before hrun
  rw [hrun] at hctx hfits
  cases call with
  | init allocated behind => exact absurd ⟨allocated, behind, rfl⟩ hinit
  | deinit => cases hctx
  | generateSmsn info allocated hash => exact hbefore.generateSmsn info allocated hash hctx
  | generateCsr algo' csrSize keyGen sign =>
    cases csrSize with
    | none =>
      cases hctx
      exact hbefore.frame (fun hkeys => by cases hkeys.2) id (SameFor.refl algo _)
    | some csrSize => exact hbefore.generateCsr algo' csrSize keyGen sign hctx
  | importChain algo' chain =>
    cases chain with
    | none =>
      cases hctx
      exact hbefore.frame id (fun himports => by cases himports.2) (SameFor.refl algo _)
    | some chain =>
      cases algo' with
      | none =>
        cases hctx
        exact hbefore.frame id (fun himports => by cases himports.1) (SameFor.refl algo _)
      | some algo' =>
        cases hctx
        exact hbefore.importChain hrun algo' chain.1 chain.2 hfits
  | writeAppServerKey appKey => exact hbefore.writeAppServerKey appKey hctx

theorem ordered_of_run (algo : Algo) (calls : List Call) (ctx : Context)
    (h : run calls = some ctx) (hfits : ImportsFit calls) : Ordered algo calls ctx := by
  induction calls generalizing ctx with
  | nil => cases h
  | cons call calls ih => exact Ordered.step (fun before hrun => ih before hrun hfits.2) hfits.1 h

/-- The store is only touched in a context with all its flags. -/
theorem full_of_erased {σ : Type} {dsa : Algo → List UInt8 → List UInt8 → List UInt8 → Bool}
    {eraseAndStore : Context → σ → Int × σ} {store : σ}
    (h : (verifyAndStore dsa eraseAndStore (some ctx) store).2 ≠ store) : ctx.Full := by
  by_contra hfull
  simp only [verifyAndStore, if_pos hfull] at h
  exact h rfl

/-- After any calls whose imports copy no serial past its array the flags are in order, and a stored
chain is current; so the store is erased only for two chains that are. -/
theorem chain_current (calls : List Call) (ctx : Context) (h : run calls = some ctx)
    (hfits : ImportsFit calls) :
    (∀ algo, ctx.state (.chain algo) = true → ctx.state (.csr algo) = true) ∧
    (∀ algo, ctx.state (.csr algo) = true → ctx.state .smsn = true) ∧
    (∀ algo, ctx.state (.chain algo) = true → Current algo calls ctx) ∧
    ∀ (σ : Type) (dsa : Algo → List UInt8 → List UInt8 → List UInt8 → Bool)
      (eraseAndStore : Context → σ → Int × σ) (store : σ),
      (verifyAndStore dsa eraseAndStore (some ctx) store).2 ≠ store →
        ∀ algo, Current algo calls ctx := by
  have hordered := fun algo => ordered_of_run algo calls ctx h hfits
  refine ⟨fun algo => (hordered algo).csr, fun algo => (hordered algo).smsn,
    fun algo => (hordered algo).current, fun σ dsa eraseAndStore store herased algo => ?_⟩
  have hfull := full_of_erased herased
  have hmem : algo ∈ [Algo.ed25519, Algo.p256r1] := by cases algo <;> simp
  exact (hordered algo).current (hfull.2.2 algo hmem).2

/-- A device of zeros that has imported a chain. -/
def imported : List Call :=
  [.importChain (some .ed25519) (some (extendedChain, 628)),
    .generateCsr (some .ed25519) (some 128) ⟨errorNone, List.replicate 32 0, List.replicate 32 1⟩
      fun _ _ => (errorNone, List.replicate 64 0),
    .generateSmsn (some ⟨[1], [2], [0, 0, 0, 1], none⟩) true
      fun _ => (errorNone, List.replicate 32 0),
    .init true 0]

theorem chain_current_imported : ∃ ctx, run imported = some ctx ∧
    ctx.state (.chain .ed25519) = true ∧ Current .ed25519 imported ctx := by
  have hflag : ((run imported).map fun ctx => ctx.state (.chain .ed25519)) = some true := by
    decide +kernel
  have hfits : ImportsFit imported := by
    refine ⟨?_, trivial, trivial, trivial, trivial⟩
    obtain ⟨before, hbefore⟩ := Option.isSome_iff_exists.mp
      (show (run imported.tail).isSome = true by decide +kernel)
    change Call.Fits _ (run imported.tail)
    rw [hbefore]
    intro _ _ i hi _
    have hi : i < 5 := hi
    interval_cases i <;> decide +kernel
  obtain ⟨ctx, hrun, hchain⟩ := Option.map_eq_some_iff.mp hflag
  exact ⟨ctx, hrun, hchain, (chain_current imported ctx hrun hfits).2.2.1 .ed25519 hchain⟩

/-! ## A serial that leaves its array -/

/-- A chain of zeros whose first serial is of 131 bytes, the last of which is not zero. -/
def spillingChain : Mem := fun a =>
  if a = firstCa .ed25519 then 0x30
  else if a = firstCa .ed25519 + 1 then 0x7F
  else if a = firstCa .ed25519 + 130 then 1
  else 0

/-- The device of zeros imports this chain instead. -/
def spilled : List Call :=
  .importChain (some .ed25519) (some (spillingChain, 755)) :: imported.tail

/-- The chain is accepted, and the first serial that is stored ends in the next public key. -/
theorem serial_spills : ∃ ctx, run spilled = some ctx ∧
    ctx.state (.chain .ed25519) = true ∧ ¬Current .ed25519 spilled ctx := by
  have hrun : ((run spilled).map fun ctx =>
      (ctx.state (.chain .ed25519), (ctx.caSerial .ed25519 0).getLast?)) = some (true, some 0) := by
    decide +kernel
  obtain ⟨ctx, hctx, hflag⟩ := Option.map_eq_some_iff.mp hrun
  obtain ⟨hflag, hlast⟩ := Prod.mk.inj hflag
  refine ⟨ctx, hctx, hflag, ?_⟩
  rintro ⟨newer, older, chain, size, before, heq, hnewer, -, -, -, hsplit, -⟩
  cases newer with
  | cons call newer =>
    -- The import is the latest call.
    obtain ⟨rfl, -⟩ := List.cons.inj heq
    exact (hnewer _ List.mem_cons_self).2 ⟨rfl, rfl⟩
  | nil =>
    obtain ⟨hcall, -⟩ := List.cons.inj heq
    cases hcall
    have hserials := congrArg (fun split => split.2.head?.map CertBlock.serial) hsplit
    have hserial : some (ctx.caSerial .ed25519 0) = some (spillingChain.slice
        (firstCa .ed25519) (deviceLength spillingChain (firstCa .ed25519))) := hserials
    rw [Option.some.inj hserial] at hlast
    exact absurd hlast (by decide +kernel)

end Sidewalk.Cert
