import Sidewalk.Cert.Context

/-!
# Two splitters of a chain

The device (`writeCertChain`) and the provisioning tool (`sidCertMfgCertChain`) walk over the same
five authorities, each with its own length of a serial: the device looks at the first two bytes, the
tool at the third and fourth. `splitters_agree_iff` says for which chains that makes no difference.
-/

namespace Sidewalk.Cert

open Sidewalk.Lib

/-! ## The tool -/

def serialSizeWithoutExpansion : Nat := 4

/-- `int.from_bytes(data, "little")`. -/
def fromBytesLittle : List UInt8 → Nat
  | [] => 0
  | b :: data => b.toNat + 256 * fromBytesLittle data

/-- `get_serial_length`. -/
def getSerialLength (data : List UInt8) : Nat :=
  let sn := fromBytesLittle (data.take serialSizeWithoutExpansion)
  if sn &&& 0xF0000000 = 0xB0000000 then ((sn >>> 16) &&& 0x7F) + 2
  else serialSizeWithoutExpansion

/-- A serial, a public key and a signature. -/
structure CertBlock where
  serial : List UInt8
  pub : List UInt8
  sig : List UInt8
  deriving DecidableEq, Repr

/-- `split_bytes`; `none` where it raises an error. -/
def splitBytes (data : List UInt8) (length : Nat) : Option (List UInt8 × List UInt8) :=
  if data.length < length then none else some (data.take length, data.drop length)

/-- The body of the loop over `ca_list`. -/
def splitCert (pubkSize : Nat) (data : List UInt8) (serialLen : Nat) :
    Option (CertBlock × List UInt8) := do
  let (serial, data) ← splitBytes data serialLen
  let (pub, data) ← splitBytes data pubkSize
  let (sig, data) ← splitBytes data signatureSize
  return (⟨serial, pub, sig⟩, data)

def splitCas (pubkSize : Nat) : Nat → List UInt8 → Option (List CertBlock × List UInt8)
  | 0, data => some ([], data)
  | n + 1, data => do
    let (ca, data) ← splitCert pubkSize data (getSerialLength data)
    let (cas, data) ← splitCas pubkSize n data
    return (ca :: cas, data)

/-- `SidCertMfgCertChain` with `serial_expansion_supported`: the device and the authorities. -/
def sidCertMfgCertChain (pubkSize : Nat) (certBuffer : List UInt8) : Option (CertBlock × List CertBlock) := do
  let (device, data) ← splitCert pubkSize certBuffer smsnSize
  let (cas, data) ← splitCas pubkSize certMaxNum data
  if data.length ≠ 0 then none else return (device, cas)

/-! ## Walks -/

/-- Where the next authority begins. -/
def nextCa (algo : Algo) (p len : Nat) : Nat := p + len + algo.pukSize + signatureSize

/-- Where the first one begins. -/
def firstCa (algo : Algo) : Nat := smsnSize + algo.pukSize + signatureSize

/-- Where the `n`-th authority from `p` begins, by the lengths of the serials. -/
def walk (algo : Algo) (len : Nat → Nat) (p : Nat) : Nat → Nat
  | 0 => p
  | n + 1 => walk algo len (nextCa algo p (len p)) n

/-- The length the device gives a serial. -/
def deviceLength (chain : Mem) (p : Nat) : Nat := getCaSerialLength (chain p) (chain (p + 1))

/-- The length the tool gives a serial. -/
def toolLength (chain : Mem) (p : Nat) : Nat := getSerialLength (chain.slice p 4)

/-- The authority as it is in the chain. -/
def certAt (algo : Algo) (chain : Mem) (p len : Nat) : CertBlock :=
  ⟨chain.slice p len, chain.slice (p + len) algo.pukSize,
    chain.slice (p + len + algo.pukSize) signatureSize⟩

/-- So many authorities in a row. -/
def certsAt (algo : Algo) (chain : Mem) (len : Nat → Nat) : Nat → Nat → List CertBlock
  | _, 0 => []
  | p, n + 1 => certAt algo chain p (len p) :: certsAt algo chain len (nextCa algo p (len p)) n

theorem le_walk (algo : Algo) (len : Nat → Nat) (p n : Nat) : p ≤ walk algo len p n := by
  induction n generalizing p with
  | zero => exact Nat.le_refl p
  | succ n ih =>
    have hrest := ih (nextCa algo p (len p))
    unfold nextCa at hrest
    exact Nat.le_trans (by omega) hrest

theorem walk_congr (algo : Algo) {len len' : Nat → Nat} (p n : Nat)
    (h : ∀ i < n, len (walk algo len p i) = len' (walk algo len p i)) :
    walk algo len p n = walk algo len' p n ∧
      ∀ chain, certsAt algo chain len p n = certsAt algo chain len' p n := by
  induction n generalizing p with
  | zero => exact ⟨rfl, fun _ => rfl⟩
  | succ n ih =>
    have hfirst : len p = len' p := h 0 (Nat.succ_pos n)
    obtain ⟨hend, hcerts⟩ := ih (nextCa algo p (len p)) fun i hi => h (i + 1) (by omega)
    refine ⟨?_, fun chain => ?_⟩
    · rw [walk, walk, hend, hfirst]
    · rw [certsAt, certsAt, hcerts, hfirst]

/-- Serials of the same lengths in a row begin at the same places. -/
theorem lengths_of_walks (algo : Algo) {len len' : Nat → Nat} (p n : Nat)
    (h : ∀ i < n, len (walk algo len p i) = len' (walk algo len' p i)) :
    ∀ i < n, len (walk algo len p i) = len' (walk algo len p i) := by
  intro i
  induction i using Nat.strong_induction_on with
  | _ i ih =>
    intro hi
    have hwalk := (walk_congr algo p i fun j hj => ih j hj (hj.trans hi)).1
    rw [h i hi, ← hwalk]

theorem walk_succ (algo : Algo) (len : Nat → Nat) (p i : Nat) :
    walk algo len p (i + 1) = nextCa algo (walk algo len p i) (len (walk algo len p i)) := by
  induction i generalizing p with
  | zero => rfl
  | succ i ih => exact ih (nextCa algo p (len p))

theorem walk_mono (algo : Algo) (len : Nat → Nat) (p : Nat) {i n : Nat} (h : i ≤ n) :
    walk algo len p i ≤ walk algo len p n := by
  induction h with
  | refl => exact Nat.le_refl _
  | step _ ih =>
    rw [walk_succ]
    unfold nextCa
    omega

theorem certsAt_eq_map (algo : Algo) (chain : Mem) (len : Nat → Nat) (p n : Nat) :
    certsAt algo chain len p n = (List.range n).map fun i =>
      certAt algo chain (walk algo len p i) (len (walk algo len p i)) := by
  induction n generalizing p with
  | zero => rfl
  | succ n ih =>
    rw [certsAt, ih, List.range_succ_eq_map, List.map_cons, List.map_map]
    rfl

theorem walk_bounds (algo : Algo) {len : Nat → Nat} {lo hi : Nat} (p n : Nat)
    (h : ∀ i < n, lo ≤ len (walk algo len p i) ∧ len (walk algo len p i) ≤ hi) :
    p + n * (lo + algo.pukSize + signatureSize) ≤ walk algo len p n ∧
      walk algo len p n ≤ p + n * (hi + algo.pukSize + signatureSize) := by
  induction n generalizing p with
  | zero => simp [walk]
  | succ n ih =>
    have hfirst := h 0 (Nat.succ_pos n)
    have hrest := ih (nextCa algo p (len p)) fun i hi => h (i + 1) (by omega)
    change lo ≤ len p ∧ len p ≤ hi at hfirst
    rw [walk, Nat.succ_mul, Nat.succ_mul]
    unfold nextCa at hrest ⊢
    omega

/-! ## The tool as a walk -/

theorem splitCert_slice (algo : Algo) (chain : Mem) (p m len : Nat) :
    splitCert algo.pukSize (chain.slice p m) len =
      if nextCa algo 0 len ≤ m then
        some (certAt algo chain p len, chain.slice (nextCa algo p len) (m - nextCa algo 0 len))
      else none := by
  unfold splitCert splitBytes nextCa certAt
  simp only [Mem.length_slice]
  by_cases hserial : m < len
  · rw [if_pos hserial, if_neg (by omega)]
    rfl
  rw [if_neg hserial, Mem.take_slice _ _ (by omega), Mem.drop_slice]
  simp only [Option.bind_eq_bind, Option.bind_some, Mem.length_slice]
  by_cases hpub : m - len < algo.pukSize
  · rw [if_pos hpub, if_neg (by omega)]
    rfl
  rw [if_neg hpub, Mem.take_slice _ _ (by omega), Mem.drop_slice]
  simp only [Option.bind_some, Mem.length_slice]
  by_cases hsig : m - len - algo.pukSize < signatureSize
  · rw [if_pos hsig, if_neg (by omega)]
    rfl
  rw [if_neg hsig, if_pos (by omega), Mem.take_slice _ _ (by omega), Mem.drop_slice]
  have hrest : m - len - algo.pukSize - signatureSize =
      m - (0 + len + algo.pukSize + signatureSize) := by omega
  rw [hrest]
  rfl

theorem splitCas_slice (algo : Algo) (chain : Mem) (size p n : Nat) (hp : p ≤ size) :
    splitCas algo.pukSize n (chain.slice p (size - p)) =
      if walk algo (toolLength chain) p n ≤ size then
        some (certsAt algo chain (toolLength chain) p n,
          chain.slice (walk algo (toolLength chain) p n)
            (size - walk algo (toolLength chain) p n))
      else none := by
  induction n generalizing p with
  | zero =>
    rw [walk, if_pos hp]
    rfl
  | succ n ih =>
    rw [splitCas, splitCert_slice, walk, certsAt]
    have hpos : 4 ≤ algo.pukSize + signatureSize := by cases algo <;> decide
    by_cases hshort : size - p < 4
    · -- the public key does not fit, whatever the length of the serial
      have hrest := le_walk algo (toolLength chain) (nextCa algo p (toolLength chain p)) n
      have hfar : ¬nextCa algo 0 (getSerialLength (chain.slice p (size - p))) ≤ size - p := by
        unfold nextCa
        omega
      have hend : ¬walk algo (toolLength chain) (nextCa algo p (toolLength chain p)) n ≤ size := by
        unfold nextCa at hrest ⊢
        omega
      rw [if_neg hfar, if_neg hend]
      rfl
    · have hlen : getSerialLength (chain.slice p (size - p)) = toolLength chain p := by
        unfold toolLength getSerialLength serialSizeWithoutExpansion
        rw [Mem.take_slice _ _ (by omega), Mem.take_slice _ _ (Nat.le_refl 4)]
      rw [hlen]
      by_cases hfits : nextCa algo 0 (toolLength chain p) ≤ size - p
      · have hnext : nextCa algo p (toolLength chain p) ≤ size := by
          unfold nextCa at hfits ⊢
          omega
        have hsize : size - p - nextCa algo 0 (toolLength chain p) =
            size - nextCa algo p (toolLength chain p) := by
          unfold nextCa at hfits ⊢
          omega
        rw [if_pos hfits, hsize]
        simp only [Option.bind_eq_bind, Option.bind_some, ih _ hnext]
        split
        · rfl
        · rfl
      · have hrest := le_walk algo (toolLength chain) (nextCa algo p (toolLength chain p)) n
        have hend : ¬walk algo (toolLength chain) (nextCa algo p (toolLength chain p)) n ≤
            size := by
          unfold nextCa at hfits hrest ⊢
          omega
        rw [if_neg hfits, if_neg hend]
        rfl

/-- The tool accepts where its walk ends at the end. -/
theorem sidCertMfgCertChain_eq (algo : Algo) (chain : Mem) (size : Nat) :
    sidCertMfgCertChain algo.pukSize (chain.slice 0 size) =
      if walk algo (toolLength chain) (firstCa algo) certMaxNum = size then
        some (certAt algo chain 0 smsnSize,
          certsAt algo chain (toolLength chain) (firstCa algo) certMaxNum)
      else none := by
  have hfirst : nextCa algo 0 smsnSize = firstCa algo := by
    unfold nextCa firstCa
    omega
  have hle := le_walk algo (toolLength chain) (firstCa algo) certMaxNum
  unfold sidCertMfgCertChain
  rw [splitCert_slice, hfirst]
  by_cases hdevice : firstCa algo ≤ size
  · rw [if_pos hdevice]
    simp only [Option.bind_eq_bind, Option.bind_some, splitCas_slice algo chain size _ _ hdevice]
    by_cases hend : walk algo (toolLength chain) (firstCa algo) certMaxNum = size
    · rw [if_pos hend, if_pos (Nat.le_of_eq hend)]
      simp [hend]
    · rw [if_neg hend]
      split
      · have hmore : size - walk algo (toolLength chain) (firstCa algo) certMaxNum ≠ 0 := by omega
        simp only [Option.bind_some, Mem.length_slice]
        exact if_pos hmore
      · rfl
  · rw [if_neg hdevice, if_neg (by omega)]
    rfl

/-! ## The device as a walk -/

theorem getCaSerialLength_bounds (b₀ b₁ : UInt8) :
    4 ≤ getCaSerialLength b₀ b₁ ∧ getCaSerialLength b₀ b₁ ≤ 131 := by
  unfold getCaSerialLength
  simp only
  have hmask := Nat.and_le_right (n := b₀.toNat * 256 + b₁.toNat) (m := 0x007f)
  split
  · omega
  · decide

/-- The authority as it is in the context. -/
def Context.block (ctx : Context) (algo : Algo) (i : Nat) : CertBlock :=
  let ca := (ctx.fields algo).certs i
  ⟨ctx.caSerial algo i, ca.pubKey, ca.signature⟩

/-- The authority is stored, with so much of its serial as the array has room for. -/
structure Ca.Stored (algo : Algo) (chain : Mem) (p : Nat) (ca : Ca) : Prop where
  pubKey : ca.pubKey = chain.slice (p + deviceLength chain p) algo.pukSize
  signature : ca.signature =
    chain.slice (p + deviceLength chain p + algo.pukSize) signatureSize
  serialLength : ca.serialLength = deviceLength chain p
  serial : ca.serial.take (min (deviceLength chain p) caSerialMaxSize) =
    chain.slice p (min (deviceLength chain p) caSerialMaxSize)

/-- The serials that a walk over a chain copies fit their arrays. -/
def SerialsFit (algo : Algo) (chain : Mem) (size p n : Nat) : Prop :=
  ∀ i < n, walk algo (deviceLength chain) p (i + 1) ≤ size →
    deviceLength chain (walk algo (deviceLength chain) p i) ≤ caSerialMaxSize

namespace Import

variable {imp : Import} {algo : Algo} {chain : Mem} {i j p len : Nat}

theorem certs_spill (b : UInt8) (hj : j ≠ i + 1) : (imp.spill i b).certs j = imp.certs j := by
  unfold spill
  split
  · exact Function.update_of_ne hj _ _
  · rfl

/-- A serial that fits its array stays in it. -/
theorem copySerial_of_le (h : len ≤ caSerialMaxSize) :
    (imp.copySerial i chain p len).beyond = imp.beyond ∧
      ∀ j, j ≠ i → (imp.copySerial i chain p len).certs j = imp.certs j := by
  unfold copySerial
  simp only
  rw [if_neg (by omega)]
  exact ⟨rfl, fun j hj => Function.update_of_ne hj _ _⟩

theorem certs_copySerial (hj : j ≠ i) (hnext : j ≠ i + 1) :
    (imp.copySerial i chain p len).certs j = imp.certs j := by
  unfold copySerial
  simp only
  split
  · exact (certs_spill _ hnext).trans (Function.update_of_ne hj _ _)
  · exact Function.update_of_ne hj _ _

theorem certs_copySerial_self :
    ((imp.copySerial i chain p len).certs i).serialLength = (imp.certs i).serialLength ∧
      ((imp.copySerial i chain p len).certs i).serial.take (min len caSerialMaxSize) =
        chain.slice p (min len caSerialMaxSize) := by
  have hne : i ≠ i + 1 := by omega
  have htake : (chain.slice p (min len caSerialMaxSize) ++ (imp.certs i).serial.drop len).take
      (min len caSerialMaxSize) = chain.slice p (min len caSerialMaxSize) :=
    List.take_left' (Mem.length_slice _ _ _)
  unfold copySerial
  simp only
  split
  · change ((spill _ i _).certs i).serialLength = _ ∧ ((spill _ i _).certs i).serial.take _ = _
    rw [certs_spill _ hne]
    simp only [modify, read, Function.update_self, htake, and_self]
  · simp only [modify, read, Function.update_self, htake, and_self]

end Import

/-- The loop ends without an error where the walk ends inside, and then the authorities are stored. -/
theorem storeCas_spec (algo : Algo) (chain : Mem) (size n i p : Nat) (imp : Import)
    (hp : p ≤ size) :
    ((storeCas algo chain size n i p imp).1 = errorNone ↔
      walk algo (deviceLength chain) p n ≤ size) ∧
    (∀ j < i, (storeCas algo chain size n i p imp).2.certs j = imp.certs j) ∧
    ((storeCas algo chain size n i p imp).1 = errorNone →
      ∀ j < n, ((storeCas algo chain size n i p imp).2.certs (i + j)).Stored algo chain
        (walk algo (deviceLength chain) p j)) := by
  induction n generalizing i p imp with
  | zero => exact ⟨⟨fun _ => hp, fun _ => rfl⟩, fun _ _ => rfl, fun _ j hj => absurd hj (Nat.not_lt_zero j)⟩
  | succ n ih =>
    have hlen : 4 ≤ deviceLength chain p := (getCaSerialLength_bounds (chain p) (chain (p + 1))).1
    have hpos : ¬deviceLength chain p = 0 := by omega
    have hrest := le_walk algo (deviceLength chain) (nextCa algo p (deviceLength chain p)) n
    have hdevice : getCaSerialLength (chain p) (chain (p + 1)) = deviceLength chain p := rfl
    have hne : errorInvalidArgs ≠ errorNone := by decide
    rw [storeCas, walk]
    simp only
    rw [hdevice, if_neg hpos]
    by_cases hfits : nextCa algo p (deviceLength chain p) ≤ size
    · have hin : ¬size < p + deviceLength chain p + algo.pukSize + signatureSize :=
        Nat.not_lt.mpr hfits
      rw [if_neg hin]
      generalize himp : Import.modify _ i _ = imp'
      obtain ⟨hret, hkept, hstored⟩ := ih (i + 1) (nextCa algo p (deviceLength chain p)) imp' hfits
      have hothers : ∀ j < i, imp'.certs j = imp.certs j := by
        intro j hj
        rw [← himp]
        refine (Function.update_of_ne (Nat.ne_of_lt hj) _ _).trans ?_
        refine (Function.update_of_ne (Nat.ne_of_lt hj) _ _).trans ?_
        refine (Import.certs_copySerial (Nat.ne_of_lt hj) (by omega)).trans ?_
        exact Function.update_of_ne (Nat.ne_of_lt hj) _ _
      have hhere : (imp'.certs i).Stored algo chain p := by
        rw [← himp]
        obtain ⟨hlength, hserial⟩ := @Import.certs_copySerial_self
          ((imp.read p 2).modify i ({ · with serialLength := deviceLength chain p })) chain i p
          (deviceLength chain p)
        refine ⟨?_, ?_, ?_, ?_⟩
        · simp [Import.modify, Import.read]
        · simp [Import.modify, Import.read]
        · simp only [Import.modify, Import.read, Function.update_self] at hlength ⊢
          exact hlength
        · simp only [Import.modify, Import.read, Function.update_self] at hserial ⊢
          exact hserial
      refine ⟨hret, fun j hj => ?_, fun hnone => ?_⟩
      · exact (hkept j (by omega)).trans (hothers j hj)
      · intro j hj
        cases j with
        | zero => exact (hkept i (Nat.lt_succ_self i)).symm ▸ hhere
        | succ j =>
          have hlater := hstored hnone j (by omega)
          rwa [Nat.add_assoc, Nat.add_comm 1 j] at hlater
    · have hout : size < p + deviceLength chain p + algo.pukSize + signatureSize :=
        Nat.not_le.mp hfits
      have hend : ¬walk algo (deviceLength chain) (nextCa algo p (deviceLength chain p)) n ≤
          size := by omega
      rw [if_pos hout]
      refine ⟨?_, fun j hj => ?_, fun hnone => absurd hnone hne⟩
      · exact iff_of_false hne hend
      · exact Function.update_of_ne (Nat.ne_of_lt hj) _ _

/-- Serials that fit their arrays leave what is behind the certificates. -/
theorem storeCas_beyond {algo : Algo} {chain : Mem} {size n i p : Nat} {imp : Import}
    (h : SerialsFit algo chain size p n) :
    (storeCas algo chain size n i p imp).2.beyond = imp.beyond := by
  induction n generalizing i p imp with
  | zero => rfl
  | succ n ih =>
    rw [storeCas]
    simp only
    split
    · rfl
    split
    · rfl
    next hfits =>
    have hlen : deviceLength chain p ≤ caSerialMaxSize :=
      h 0 (Nat.succ_pos n) (Nat.le_of_not_lt hfits)
    refine (ih fun j hj => h (j + 1) (Nat.succ_lt_succ hj)).trans ?_
    exact (Import.copySerial_of_le hlen).1

/-- What is read of a serial that is stored is as long as it is in the chain. -/
theorem Ca.Stored.length_caSerial {ctx : Context} {algo : Algo} {chain : Mem} {p i : Nat}
    (h : ((ctx.fields algo).certs i).Stored algo chain p) :
    (ctx.caSerial algo i).length = deviceLength chain p := by
  have hlen := (getCaSerialLength_bounds (chain p) (chain (p + 1))).2
  change deviceLength chain p ≤ 131 at hlen
  have hserial := congrArg List.length h.serial
  rw [Mem.length_slice, List.length_take] at hserial
  unfold Context.caSerial
  simp only [List.length_take, List.length_append, List.length_cons, List.length_nil,
    h.serialLength]
  unfold caSerialMaxSize at hserial
  omega

/-- A serial that fits its array is in it. -/
theorem Ca.Stored.holds {algo : Algo} {chain : Mem} {p : Nat} {ca : Ca}
    (h : ca.Stored algo chain p) (hfits : deviceLength chain p ≤ caSerialMaxSize) :
    ca.serialLength ≤ ca.serial.length := by
  have hserial := congrArg List.length h.serial
  rw [Nat.min_eq_left hfits, Mem.length_slice, List.length_take] at hserial
  rw [h.serialLength]
  omega

/-- A serial that fits its array is read as it is in the chain. -/
theorem Ca.Stored.block {ctx : Context} {algo : Algo} {chain : Mem} {p i : Nat}
    (h : ((ctx.fields algo).certs i).Stored algo chain p)
    (hfits : deviceLength chain p ≤ caSerialMaxSize) :
    ctx.block algo i = certAt algo chain p (deviceLength chain p) := by
  have hserial := h.serial
  have hlen := h.holds hfits
  rw [Nat.min_eq_left hfits] at hserial
  rw [h.serialLength] at hlen
  unfold Context.block Context.caSerial certAt
  simp only
  rw [h.pubKey, h.signature, h.serialLength, List.take_append_of_le_length hlen, hserial]

/-- The context has the first fields of the chain, and is waiting for it. -/
structure Expects (ctx : Context) (algo : Algo) (chain : Mem) : Prop where
  csr : ctx.state (.csr algo) = true
  smsn : ctx.smsn = chain.slice 0 smsnSize
  puk : (ctx.fields algo).puk = chain.slice smsnSize algo.pukSize

/-- The byte behind the certificates is none of the algorithm's. -/
@[simp] theorem Context.fields_putBeyond (ctx : Context) (algo : Algo) (beyond : Option UInt8) :
    (ctx.putBeyond algo beyond).fields algo = ctx.fields algo := by
  cases beyond with
  | none => rfl
  | some b =>
    cases algo with
    | ed25519 => simp [Context.putBeyond, Context.setFields]
    | p256r1 => rfl

@[simp] theorem Context.ids_putBeyond (ctx : Context) (algo : Algo) (beyond : Option UInt8) :
    (ctx.putBeyond algo beyond).state = ctx.state ∧
      (ctx.putBeyond algo beyond).smsn = ctx.smsn ∧
      (ctx.putBeyond algo beyond).apid = ctx.apid ∧
      (ctx.putBeyond algo beyond).appKey = ctx.appKey := by
  cases beyond with
  | none => exact ⟨rfl, rfl, rfl, rfl⟩
  | some b => cases algo <;> exact ⟨rfl, rfl, rfl, rfl⟩

/-- How the device has split the chain. -/
def deviceSplit (ctx : Context) (algo : Algo) : CertBlock × List CertBlock :=
  (⟨ctx.smsn, (ctx.fields algo).puk, (ctx.fields algo).sig⟩,
    (List.range certMaxNum).map (ctx.block algo))

/-- The size of the chain is one the device looks at. -/
def Algo.Admits (algo : Algo) (size : Nat) : Prop :=
  algo.sccMinSize ≤ size ∧ size ≤ algo.sccMaxSize

/-- The device accepts where its walk ends inside a chain of an admitted size. -/
theorem writeCertChain_eq {ctx : Context} {algo : Algo} {chain : Mem} (hctx : Expects ctx algo chain)
    (size : Nat) :
    ((writeCertChain ctx algo chain size).1 = errorNone ↔
      algo.Admits size ∧ walk algo (deviceLength chain) (firstCa algo) certMaxNum ≤ size) ∧
    ((writeCertChain ctx algo chain size).1 = errorNone →
      (deviceSplit (writeCertChain ctx algo chain size).2.1 algo).1 =
        certAt algo chain 0 smsnSize ∧
      ∀ i < certMaxNum, (((writeCertChain ctx algo chain size).2.1.fields algo).certs i).Stored algo
        chain (walk algo (deviceLength chain) (firstCa algo) i)) := by
  have hcsr : ¬(ctx.setFlag (.chain algo) false).state (.csr algo) = false := by
    simp [Context.setFlag, hctx.csr]
  have hne : errorInvalidArgs ≠ errorNone := by decide
  unfold writeCertChain
  simp only
  rw [if_neg hcsr]
  by_cases hsize : size < algo.sccMinSize ∨ algo.sccMaxSize < size
  · have hout : ¬algo.Admits size := by
      unfold Algo.Admits
      omega
    rw [if_pos hsize]
    exact ⟨iff_of_false hne fun h => hout h.1, fun h => absurd h hne⟩
  have hin : algo.Admits size := by
    unfold Algo.Admits
    omega
  have hfirst : firstCa algo ≤ size := by
    refine Nat.le_trans ?_ hin.1
    unfold Algo.sccMinSize
    exact Nat.le_add_left _ _
  have hsmsn : ¬(ctx.setFlag (.chain algo) false).smsn ≠ chain.slice 0 smsnSize :=
    not_not.mpr hctx.smsn
  have hpuk : ¬((ctx.setFlag (.chain algo) false).fields algo).puk ≠
      chain.slice smsnSize algo.pukSize := not_not.mpr hctx.puk
  rw [if_neg hsize, if_neg hsmsn, if_neg hpuk]
  generalize Import.read _ (smsnSize + algo.pukSize) signatureSize = imp
  obtain ⟨hret, -, hstored⟩ := storeCas_spec algo chain size certMaxNum 0 (firstCa algo) imp hfirst
  change (_ ↔ _) ∧ _
  unfold firstCa at hret hstored ⊢
  generalize storeCas algo chain size certMaxNum 0 (smsnSize + algo.pukSize + signatureSize) imp =
    r at hret hstored
  obtain ⟨ret, imp'⟩ := r
  by_cases hnone : ret = errorNone
  · simp only [hnone, if_true]
    refine ⟨iff_of_true trivial ⟨hin, hret.mp hnone⟩, fun _ => ?_⟩
    have hcerts := hstored hnone
    simp only [Nat.zero_add] at hcerts
    refine ⟨?_, ?_⟩
    · simp [deviceSplit, certAt, Context.setFlag, Context.setFields, hctx.smsn, hctx.puk]
    · intro i hi
      have hcert := hcerts i hi
      simp only [Context.setFlag, Context.fields_putBeyond]
      simpa [Context.setFields] using hcert
  · simp only [if_neg hnone]
    exact ⟨iff_of_false hnone fun h => hnone (hret.mpr h.2), fun h => absurd h hnone⟩

/-- A chain whose serials fit their arrays is split as it stands. -/
theorem deviceSplit_eq {ctx : Context} {algo : Algo} {chain : Mem} {size : Nat}
    (hdevice : (deviceSplit ctx algo).1 = certAt algo chain 0 smsnSize)
    (hcerts : ∀ i < certMaxNum, ((ctx.fields algo).certs i).Stored algo chain
      (walk algo (deviceLength chain) (firstCa algo) i))
    (hend : walk algo (deviceLength chain) (firstCa algo) certMaxNum ≤ size)
    (hfits : SerialsFit algo chain size (firstCa algo) certMaxNum) :
    deviceSplit ctx algo = (certAt algo chain 0 smsnSize,
      certsAt algo chain (deviceLength chain) (firstCa algo) certMaxNum) := by
  refine Prod.ext hdevice ?_
  change (List.range certMaxNum).map (ctx.block algo) = certsAt _ _ _ _ _
  rw [certsAt_eq_map]
  refine List.map_congr_left fun i hi => ?_
  have hi := List.mem_range.mp hi
  exact (hcerts i hi).block (hfits i hi ((walk_mono _ _ _ hi).trans hend))

/-! ## Agreement -/

/-- Both read the same length off the four bytes: the device extends a serial by the first byte,
the tool by the fourth. -/
def SameLength (b₀ b₁ b₂ b₃ : UInt8) : Prop :=
  (if b₀.toNat &&& 0x30 = 0x30 then b₁.toNat % 128 + 4 else 4) =
    if b₃.toNat &&& 0xF0 = 0xB0 then b₂.toNat % 128 + 2 else 4

instance (b₀ b₁ b₂ b₃ : UInt8) : Decidable (SameLength b₀ b₁ b₂ b₃) :=
  inferInstanceAs (Decidable (_ = _))

/-- The bits of a number above a byte boundary. -/
theorem and_high {lo hi k mask : Nat} (h : lo < 2 ^ k) :
    (2 ^ k * hi + lo) &&& (2 ^ k * mask) = 2 ^ k * (hi &&& mask) := by
  apply Nat.eq_of_testBit_eq
  intro i
  rw [Nat.testBit_and, Nat.testBit_two_pow_mul_add _ h, Nat.testBit_two_pow_mul,
    Nat.testBit_two_pow_mul, Nat.testBit_and]
  by_cases hi' : i < k
  · simp [hi', Nat.not_le.mpr hi']
  · simp [hi', Nat.not_lt.mp hi']

theorem getCaSerialLength_eq (b₀ b₁ : UInt8) : getCaSerialLength b₀ b₁ =
    if b₀.toNat &&& 0x30 = 0x30 then b₁.toNat % 128 + 4 else 4 := by
  have hhigh := @and_high b₁.toNat b₀.toNat 8 0x30 b₁.toNat_lt
  have hlow : (b₀.toNat * 256 + b₁.toNat) &&& 0x007f = b₁.toNat % 128 := by
    rw [Nat.and_two_pow_sub_one_eq_mod _ 7]
    omega
  have hhead : b₀.toNat * 256 + b₁.toNat = 2 ^ 8 * b₀.toNat + b₁.toNat := by omega
  unfold getCaSerialLength
  simp only [hlow]
  rw [hhead]
  have hiff : (2 ^ 8 * b₀.toNat + b₁.toNat) &&& 0x3000 = 0x3000 ↔ b₀.toNat &&& 0x30 = 0x30 := by
    change _ &&& (2 ^ 8 * 0x30) = 2 ^ 8 * 0x30 ↔ _
    rw [hhigh]
    exact Nat.mul_right_inj (by decide)
  simp only [hiff]
  rfl

theorem getSerialLength_eq (b₀ b₁ b₂ b₃ : UInt8) : getSerialLength [b₀, b₁, b₂, b₃] =
    if b₃.toNat &&& 0xF0 = 0xB0 then b₂.toNat % 128 + 2 else 4 := by
  have h₀ := b₀.toNat_lt
  have h₁ := b₁.toNat_lt
  have h₂ := b₂.toNat_lt
  have hsn : fromBytesLittle ([b₀, b₁, b₂, b₃].take serialSizeWithoutExpansion) =
      2 ^ 24 * b₃.toNat + (b₀.toNat + 256 * (b₁.toNat + 256 * b₂.toNat)) := by
    change b₀.toNat + 256 * (b₁.toNat + 256 * (b₂.toNat + 256 * (b₃.toNat + 256 * 0))) = _
    omega
  have hhigh := @and_high (b₀.toNat + 256 * (b₁.toNat + 256 * b₂.toNat)) b₃.toNat 24 0xF0 (by omega)
  unfold getSerialLength
  simp only [hsn]
  have hiff : (2 ^ 24 * b₃.toNat + (b₀.toNat + 256 * (b₁.toNat + 256 * b₂.toNat))) &&& 0xF0000000 =
      0xB0000000 ↔ b₃.toNat &&& 0xF0 = 0xB0 := by
    change _ &&& (2 ^ 24 * 0xF0) = 2 ^ 24 * 0xB0 ↔ _
    rw [hhigh]
    exact Nat.mul_right_inj (by decide)
  have hlow : ((2 ^ 24 * b₃.toNat + (b₀.toNat + 256 * (b₁.toNat + 256 * b₂.toNat))) >>> 16) &&& 0x7F =
      b₂.toNat % 128 := by
    rw [Nat.and_two_pow_sub_one_eq_mod _ 7, Nat.shiftRight_eq_div_pow]
    omega
  simp only [hiff, hlow]
  rfl

theorem sameLength_iff (b₀ b₁ b₂ b₃ : UInt8) :
    getCaSerialLength b₀ b₁ = getSerialLength [b₀, b₁, b₂, b₃] ↔ SameLength b₀ b₁ b₂ b₃ := by
  rw [getCaSerialLength_eq, getSerialLength_eq]
  rfl

/-- The device and the tool treat the chain alike. -/
def SplittersAgree (ctx : Context) (algo : Algo) (chain : Mem) (size : Nat) : Prop :=
  ((writeCertChain ctx algo chain size).1 = errorNone ↔
    (sidCertMfgCertChain algo.pukSize (chain.slice 0 size)).isSome = true) ∧
  ∀ split, (writeCertChain ctx algo chain size).1 = errorNone →
    sidCertMfgCertChain algo.pukSize (chain.slice 0 size) = some split →
      deviceSplit (writeCertChain ctx algo chain size).2.1 algo = split

/-- At each authority of a walk the two lengths are the same. -/
def SameLengths (algo : Algo) (chain : Mem) (len : Nat → Nat) : Prop :=
  ∀ i < certMaxNum,
    let p := walk algo len (firstCa algo) i
    SameLength (chain p) (chain (p + 1)) (chain (p + 2)) (chain (p + 3))

/-- On a chain at whose end the tool comes out, and on one in which the device comes out, no length
differs, and the device comes out at the end too. -/
def AgreeOn (algo : Algo) (chain : Mem) (size : Nat) : Prop :=
  (walk algo (toolLength chain) (firstCa algo) certMaxNum = size →
    SameLengths algo chain (toolLength chain)) ∧
  (algo.Admits size → walk algo (deviceLength chain) (firstCa algo) certMaxNum ≤ size →
    walk algo (deviceLength chain) (firstCa algo) certMaxNum = size ∧
      SameLengths algo chain (deviceLength chain))

theorem sameLengths_iff (algo : Algo) (chain : Mem) (len : Nat → Nat) :
    SameLengths algo chain len ↔ ∀ i < certMaxNum,
      deviceLength chain (walk algo len (firstCa algo) i) =
        toolLength chain (walk algo len (firstCa algo) i) :=
  forall₂_congr fun _ _ => (sameLength_iff _ _ _ _).symm

/-- No serial of the tool is longer than the array. -/
theorem toolLength_le (chain : Mem) (p : Nat) : toolLength chain p ≤ caSerialMaxSize := by
  have htool := getSerialLength_eq (chain p) (chain (p + 1)) (chain (p + 2)) (chain (p + 3))
  change toolLength chain p = _ at htool
  rw [htool]
  unfold caSerialMaxSize
  split <;> omega

/-- The tool admits no more than the device where the lengths are the same. -/
theorem admits_of_sameLengths {algo : Algo} {chain : Mem} {size : Nat}
    (hend : walk algo (toolLength chain) (firstCa algo) certMaxNum = size)
    (hsame : SameLengths algo chain (toolLength chain)) : algo.Admits size := by
  have hbounds := @walk_bounds algo (toolLength chain) 4 129 (firstCa algo) certMaxNum
    fun i hi => by
      have hlen := (sameLengths_iff algo chain _).mp hsame i hi
      have hlow := (getCaSerialLength_bounds (chain (walk algo (toolLength chain) (firstCa algo) i))
        (chain (walk algo (toolLength chain) (firstCa algo) i + 1))).1
      exact ⟨hlen ▸ hlow, toolLength_le chain _⟩
  rw [hend] at hbounds
  unfold Algo.Admits Algo.sccMinSize Algo.sccMaxSize Algo.caMinSize Algo.caMaxSize
    Algo.deviceCertSize caSerialMinSize caSerialMaxSize
  unfold certMaxNum firstCa at hbounds
  omega

/-- The splitters agree on exactly these chains, and assign a serial the same length exactly where
`SameLength` holds of its first bytes. -/
theorem splitters_agree_iff {ctx : Context} {algo : Algo} {chain : Mem} (size : Nat)
    (hctx : Expects ctx algo chain) :
    (SplittersAgree ctx algo chain size ↔ AgreeOn algo chain size) ∧
    ∀ b₀ b₁ b₂ b₃, getCaSerialLength b₀ b₁ = getSerialLength [b₀, b₁, b₂, b₃] ↔
      SameLength b₀ b₁ b₂ b₃ := by
  refine ⟨?_, sameLength_iff⟩
  obtain ⟨haccepts, hsplit⟩ := writeCertChain_eq hctx size
  have htool := sidCertMfgCertChain_eq algo chain size
  have hisSome : (sidCertMfgCertChain algo.pukSize (chain.slice 0 size)).isSome = true ↔
      walk algo (toolLength chain) (firstCa algo) certMaxNum = size := by
    rw [htool]
    split
    · next h => exact iff_of_true rfl h
    · next h => exact iff_of_false Bool.false_ne_true h
  unfold SplittersAgree
  rw [hisSome, haccepts]
  constructor
  · rintro ⟨hboth, hsame⟩
    have hlengths : walk algo (toolLength chain) (firstCa algo) certMaxNum = size →
        walk algo (deviceLength chain) (firstCa algo) certMaxNum = size ∧
          SameLengths algo chain (deviceLength chain) ∧
          SameLengths algo chain (toolLength chain) := by
      intro hend
      rw [if_pos hend] at htool
      have hblocks : (List.range certMaxNum).map
          ((writeCertChain ctx algo chain size).2.1.block algo) =
            certsAt algo chain (toolLength chain) (firstCa algo) certMaxNum :=
        congrArg Prod.snd (hsame _ (hboth.mpr hend) htool)
      have hcerts := (hsplit (haccepts.mpr (hboth.mpr hend))).2
      have hserials : ∀ i < certMaxNum,
          deviceLength chain (walk algo (deviceLength chain) (firstCa algo) i) =
            toolLength chain (walk algo (toolLength chain) (firstCa algo) i) := by
        intro i hi
        rw [certsAt_eq_map] at hblocks
        have hblock := List.map_inj_left.mp hblocks i (List.mem_range.mpr hi)
        have hserial := congrArg (fun cert : CertBlock => cert.serial.length) hblock
        exact (hcerts i hi).length_caSerial.symm.trans (hserial.trans (Mem.length_slice _ _ _))
      have hlens := lengths_of_walks algo (firstCa algo) certMaxNum hserials
      have hwalk := fun n hn => (walk_congr algo (firstCa algo) n
        fun i hi => hlens i (Nat.lt_of_lt_of_le hi hn)).1
      refine ⟨(hwalk certMaxNum (Nat.le_refl _)).trans hend, ?_, ?_⟩
      · exact (sameLengths_iff algo chain _).mpr hlens
      · refine (sameLengths_iff algo chain _).mpr fun i hi => ?_
        rw [← hwalk i (Nat.le_of_lt hi)]
        exact hlens i hi
    exact ⟨fun hend => (hlengths hend).2.2,
      fun hin hle => ⟨(hlengths (hboth.mp ⟨hin, hle⟩)).1, (hlengths (hboth.mp ⟨hin, hle⟩)).2.1⟩⟩
  · rintro ⟨htoolSame, hdeviceSame⟩
    have hdevice : algo.Admits size →
        walk algo (deviceLength chain) (firstCa algo) certMaxNum ≤ size →
          walk algo (toolLength chain) (firstCa algo) certMaxNum = size ∧
            certsAt algo chain (deviceLength chain) (firstCa algo) certMaxNum =
              certsAt algo chain (toolLength chain) (firstCa algo) certMaxNum ∧
            SerialsFit algo chain size (firstCa algo) certMaxNum := by
      intro hin hle
      obtain ⟨hend, hsame⟩ := hdeviceSame hin hle
      have hlens := (sameLengths_iff algo chain _).mp hsame
      obtain ⟨hwalk, hcerts⟩ := walk_congr algo (firstCa algo) certMaxNum hlens
      exact ⟨hwalk ▸ hend, hcerts chain, fun i hi _ => (hlens i hi).symm ▸ toolLength_le chain _⟩
    refine ⟨⟨fun h => (hdevice h.1 h.2).1, fun hend => ?_⟩, fun split hnone hsome => ?_⟩
    · have hlens := (sameLengths_iff algo chain _).mp (htoolSame hend)
      have hwalk := (walk_congr algo (firstCa algo) certMaxNum fun i hi => (hlens i hi).symm).1
      exact ⟨admits_of_sameLengths hend (htoolSame hend), Nat.le_of_eq (hwalk ▸ hend)⟩
    · obtain ⟨hend, hcerts, hfits⟩ := hdevice hnone.1 hnone.2
      obtain ⟨hfirst, hstored⟩ := hsplit (haccepts.mpr hnone)
      rw [if_pos hend, hsome] at htool
      rw [deviceSplit_eq hfirst hstored hnone.2 hfits, hcerts]
      exact (Option.some.inj htool).symm

/-- A serial with `0xB000` in its upper half, and `0x30` in its first byte. -/
def extendedChain : Mem := fun a =>
  if a < firstCa .ed25519 then 0
  else
    let b := (a - firstCa .ed25519) % 100
    if b = 0 then 0x30 else if b = 2 then 2 else if b = 3 then 0xB0 else 0

def zeroContext : Context where
  state _ := true
  smsn := List.replicate 32 0
  apid := []
  appKey := []
  fields algo := ⟨List.replicate prkSize 0, List.replicate algo.pukSize 0,
    List.replicate signatureSize 0, fun _ => ⟨List.replicate algo.pukSize 0,
      List.replicate signatureSize 0, 0, List.replicate caSerialMaxSize 0, 0⟩⟩
  behind := 0

theorem expects_extendedChain : Expects zeroContext .ed25519 extendedChain :=
  ⟨rfl, by decide +kernel, by decide +kernel⟩

/-- A chain of serials that both take for extended ones of four bytes. -/
theorem splitters_agree_extended : SplittersAgree zeroContext .ed25519 extendedChain 628 ∧
    (writeCertChain zeroContext .ed25519 extendedChain 628).1 = errorNone := by
  refine ⟨(splitters_agree_iff _ expects_extendedChain).1.mpr ?_, by decide +kernel⟩
  refine ⟨fun _ => ?_, fun _ _ => ⟨by decide +kernel, ?_⟩⟩
  · intro i hi
    have hi : i < 5 := hi
    interval_cases i <;> decide +kernel
  · intro i hi
    have hi : i < 5 := hi
    interval_cases i <;> decide +kernel

/-- Five serials of the standard four bytes, the first of which is `0x00000130`. -/
def standardChain : Mem := fun a =>
  if a = firstCa .ed25519 then 0x30 else if a = firstCa .ed25519 + 1 then 1 else 0

/-- The tool splits the chain and the device refuses it. -/
theorem standard_serial_refused : Expects zeroContext .ed25519 standardChain ∧
    ¬SplittersAgree zeroContext .ed25519 standardChain 628 ∧
    (writeCertChain zeroContext .ed25519 standardChain 628).1 = errorInvalidArgs ∧
    (sidCertMfgCertChain (Algo.pukSize .ed25519) (standardChain.slice 0 628)).isSome = true := by
  have htool : (sidCertMfgCertChain (Algo.pukSize .ed25519)
      (standardChain.slice 0 628)).isSome = true := by decide +kernel
  have hdevice : (writeCertChain zeroContext .ed25519 standardChain 628).1 = errorInvalidArgs := by
    decide +kernel
  refine ⟨⟨rfl, by decide +kernel, by decide +kernel⟩, fun hagree => ?_, hdevice, htool⟩
  rw [SplittersAgree, hdevice, htool] at hagree
  exact absurd (hagree.1.mpr rfl) (by decide)

end Sidewalk.Cert
