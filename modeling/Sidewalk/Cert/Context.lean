import Sidewalk.Lib.Memory

/-!
# The certification context

`struct sid_on_dev_cert_context` and the import of a certificate chain into it. The bits of `state`
are flags, the fields of one algorithm are a record of their own. A chain is given by its memory and
its size: nothing keeps a read of `cert_chain` below `cert_chain_size`, so each read is noted.

Nothing keeps a serial inside its array either. The certificates stand one behind the other, each
with one byte of padding, which its `uint16_t` asks for; the five of P256R1 come behind those of
ED25519 and end the structure. A serial of 131 bytes, the longest that there is, ends in the first
byte of the next certificate.
-/

namespace Sidewalk.Cert

open Sidewalk.Lib

/-! ## Sizes -/

inductive Algo
  | ed25519
  | p256r1
  deriving DecidableEq, Repr

def smsnSize : Nat := 32
def caSerialMinSize : Nat := 4
def caSerialMaxSize : Nat := 2 + 127
def signatureSize : Nat := 64
def prkSize : Nat := 32
def certMaxNum : Nat := 5

namespace Algo

def pukSize : Algo → Nat
  | ed25519 => 32
  | p256r1 => 64

def caMinSize (algo : Algo) : Nat := caSerialMinSize + algo.pukSize + signatureSize

def caMaxSize (algo : Algo) : Nat := caSerialMaxSize + algo.pukSize + signatureSize

def deviceCertSize (algo : Algo) : Nat := smsnSize + algo.pukSize + signatureSize

def sccMinSize (algo : Algo) : Nat := 5 * algo.caMinSize + algo.deviceCertSize

def sccMaxSize (algo : Algo) : Nat := 5 * algo.caMaxSize + algo.deviceCertSize

end Algo

/-! ## Contexts -/

def errorNone : Int := 0
def errorGeneric : Int := -1
def errorOom : Int := -4
def errorInvalidArgs : Int := -11
def errorIncompatibleParams : Int := -12
def errorNullPointer : Int := -9
def errorInvalidState : Int := -40
def errorUninitialized : Int := -25

/-- The bits `ODC_STATE_FLG_*`. -/
inductive Flag
  | smsn
  | appKey
  | csr (algo : Algo)
  | chain (algo : Algo)
  deriving DecidableEq, Repr

structure Ca where
  pubKey : List UInt8
  signature : List UInt8
  serialLength : Nat
  serial : List UInt8
  /-- The byte between the array and the next certificate. -/
  padding : UInt8
  deriving DecidableEq, Repr

/-- The fields that there are for either algorithm. -/
structure AlgoFields where
  prk : List UInt8
  puk : List UInt8
  sig : List UInt8
  certs : Nat → Ca

structure Context where
  state : Flag → Bool
  smsn : List UInt8
  apid : List UInt8
  appKey : List UInt8
  fields : Algo → AlgoFields
  /-- The byte of the heap behind the structure. -/
  behind : UInt8

namespace Context

def setFlag (ctx : Context) (flag : Flag) (b : Bool) : Context :=
  { ctx with state := Function.update ctx.state flag b }

def setFields (ctx : Context) (algo : Algo) (fields : AlgoFields) : Context :=
  { ctx with fields := Function.update ctx.fields algo fields }

/-- The byte behind the padding of a certificate. -/
def byteBehind (ctx : Context) (algo : Algo) (i : Nat) : UInt8 :=
  if i + 1 < certMaxNum then ((ctx.fields algo).certs (i + 1)).pubKey.headD 0
  else
    match algo with
    | .ed25519 => ((ctx.fields .p256r1).certs 0).pubKey.headD 0
    | .p256r1 => ctx.behind

/-- What `serial_length` bytes from `serial` on are. -/
def caSerial (ctx : Context) (algo : Algo) (i : Nat) : List UInt8 :=
  let ca := (ctx.fields algo).certs i
  (ca.serial ++ [ca.padding, ctx.byteBehind algo i]).take ca.serialLength

end Context

/-! ## The import of a chain -/

/-- `sid_on_dev_cert_get_ca_serial_length`, of the two bytes it reads. -/
def getCaSerialLength (b₀ b₁ : UInt8) : Nat :=
  let head := b₀.toNat * 256 + b₁.toNat
  if head &&& 0x3000 = 0x3000 then (head &&& 0x007f) + 4 else caSerialMinSize

/-- An import with the blocks of the chain it has read (offset and length), the lengths of the
serials it has copied, and the byte it has put behind the last certificate. -/
structure Import where
  certs : Nat → Ca
  reads : List (Nat × Nat)
  copied : List Nat
  beyond : Option UInt8

namespace Import

def read (imp : Import) (o n : Nat) : Import := { imp with reads := (o, n) :: imp.reads }

def modify (imp : Import) (i : Nat) (f : Ca → Ca) : Import :=
  { imp with certs := Function.update imp.certs i (f (imp.certs i)) }

/-- A byte is put behind the padding of a certificate. -/
def spill (imp : Import) (i : Nat) (b : UInt8) : Import :=
  if i + 1 < certMaxNum then imp.modify (i + 1) fun ca => { ca with pubKey := ca.pubKey.set 0 b }
  else { imp with beyond := some b }

/-- `memcpy` of a serial, which may end behind its array. -/
def copySerial (imp : Import) (i : Nat) (chain : Mem) (p len : Nat) : Import :=
  let imp := imp.read p len
  let imp := imp.modify i fun ca => { ca with
    serial := chain.slice p (min len caSerialMaxSize) ++ ca.serial.drop len
    padding := if caSerialMaxSize < len then chain (p + caSerialMaxSize) else ca.padding }
  let imp :=
    if caSerialMaxSize + 1 < len then imp.spill i (chain (p + caSerialMaxSize + 1)) else imp
  { imp with copied := len :: imp.copied }

end Import

/-- The loop over the authorities, at number `i` and `pointer`. -/
def storeCas (algo : Algo) (chain : Mem) (size : Nat) : Nat → Nat → Nat → Import → Int × Import
  | 0, _, _, imp => (errorNone, imp)
  | n + 1, i, p, imp =>
    let imp := imp.read p 2
    let len := getCaSerialLength (chain p) (chain (p + 1))
    let imp := imp.modify i ({ · with serialLength := len })
    if len = 0 then (errorInvalidArgs, imp)
    else if size < p + len + algo.pukSize + signatureSize then (errorInvalidArgs, imp)
    else
      let imp := imp.copySerial i chain p len
      let p := p + len
      let imp := (imp.read p algo.pukSize).modify i
        ({ · with pubKey := chain.slice p algo.pukSize })
      let p := p + algo.pukSize
      let imp := (imp.read p signatureSize).modify i
        ({ · with signature := chain.slice p signatureSize })
      storeCas algo chain size n (i + 1) (p + signatureSize) imp

/-- What an import has put behind the certificates of its algorithm. -/
def Context.putBeyond (ctx : Context) (algo : Algo) : Option UInt8 → Context
  | none => ctx
  | some b =>
    match algo with
    | .ed25519 =>
      let fields := ctx.fields .p256r1
      let dak := { fields.certs 0 with pubKey := (fields.certs 0).pubKey.set 0 b }
      ctx.setFields .p256r1 { fields with certs := Function.update fields.certs 0 dak }
    | .p256r1 => { ctx with behind := b }

/-- `sid_on_dev_cert_write_cert_chain` for a known algorithm. -/
def writeCertChain (ctx : Context) (algo : Algo) (chain : Mem) (size : Nat) :
    Int × Context × Import :=
  let imp : Import := ⟨(ctx.fields algo).certs, [], [], none⟩
  let ctx := ctx.setFlag (.chain algo) false
  if ctx.state (.csr algo) = false then (errorInvalidState, ctx, imp)
  else if size < algo.sccMinSize ∨ algo.sccMaxSize < size then (errorInvalidArgs, ctx, imp)
  else
    let imp := imp.read 0 smsnSize
    if ctx.smsn ≠ chain.slice 0 smsnSize then (errorInvalidArgs, ctx, imp)
    else
      let imp := imp.read smsnSize algo.pukSize
      if (ctx.fields algo).puk ≠ chain.slice smsnSize algo.pukSize then
        (errorInvalidArgs, ctx, imp)
      else
        let p := smsnSize + algo.pukSize
        let imp := imp.read p signatureSize
        let (ret, imp) := storeCas algo chain size certMaxNum 0 (p + signatureSize) imp
        let ctx := ctx.setFields algo { ctx.fields algo with
          sig := chain.slice p signatureSize, certs := imp.certs }
        let ctx := ctx.putBeyond algo imp.beyond
        if ret = errorNone then (ret, ctx.setFlag (.chain algo) true, imp) else (ret, ctx, imp)

end Sidewalk.Cert
