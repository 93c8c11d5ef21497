import Sidewalk.Cert.Split

/-!
# Bounds of the import of a chain

The length of a serial is taken from its first two bytes before the loop looks for the end of the
chain, and it is not compared with `SID_ODC_CA_SERIAL_MAX_SIZE`: with its `+ 4` it comes to up to
131 bytes, and the array takes 129. `import_safe_iff` says for which chains neither matters.
-/

namespace Sidewalk.Cert

open Sidewalk.Lib

/-- Each read is inside the chain and each serial fits its array. -/
structure Import.Safe (imp : Import) (size : Nat) : Prop where
  inside : ∀ block ∈ imp.reads, block.1 + block.2 ≤ size
  fits : ∀ len ∈ imp.copied, len ≤ caSerialMaxSize

/-- An authority that the walk comes to: its first two bytes are there, and if all of it is, its
serial fits the array. -/
def SafeCa (algo : Algo) (chain : Mem) (size p : Nat) : Prop :=
  p + 2 ≤ size ∧
    (nextCa algo p (deviceLength chain p) ≤ size → deviceLength chain p ≤ caSerialMaxSize)

theorem Import.safe_read {imp : Import} {size o n : Nat} :
    (imp.read o n).Safe size ↔ imp.Safe size ∧ o + n ≤ size := by
  constructor
  · intro h
    exact ⟨⟨fun b hb => h.inside b (List.mem_cons_of_mem _ hb), h.fits⟩,
      h.inside _ List.mem_cons_self⟩
  · rintro ⟨h, hnew⟩
    refine ⟨fun b hb => ?_, h.fits⟩
    rcases List.mem_cons.mp hb with rfl | hb
    · exact hnew
    · exact h.inside b hb

theorem Import.safe_modify {imp : Import} {size i : Nat} {f : Ca → Ca} :
    (imp.modify i f).Safe size ↔ imp.Safe size :=
  ⟨fun h => ⟨h.inside, h.fits⟩, fun h => ⟨h.inside, h.fits⟩⟩

theorem Import.safe_spill {imp : Import} {size i : Nat} {b : UInt8} :
    (imp.spill i b).Safe size ↔ imp.Safe size := by
  unfold spill
  split
  · exact safe_modify
  · exact ⟨fun h => ⟨h.inside, h.fits⟩, fun h => ⟨h.inside, h.fits⟩⟩

theorem Import.safe_copySerial {imp : Import} {size i p len : Nat} {chain : Mem} :
    (imp.copySerial i chain p len).Safe size ↔
      imp.Safe size ∧ p + len ≤ size ∧ len ≤ caSerialMaxSize := by
  have hcopied (imp' : Import) : ({ imp' with copied := len :: imp'.copied } : Import).Safe size ↔
      imp'.Safe size ∧ len ≤ caSerialMaxSize := by
    constructor
    · intro h
      exact ⟨⟨h.inside, fun l hl => h.fits l (List.mem_cons_of_mem _ hl)⟩,
        h.fits len List.mem_cons_self⟩
    · rintro ⟨h, hfits⟩
      exact ⟨h.inside, List.forall_mem_cons.mpr ⟨hfits, h.fits⟩⟩
  refine (hcopied _).trans ?_
  rw [← and_assoc, ← safe_read]
  refine and_congr_left fun _ => ?_
  split
  · exact safe_spill.trans safe_modify
  · exact safe_modify

/-- The loop is safe exactly where each authority it comes to is. -/
theorem storeCas_safe_iff (algo : Algo) (chain : Mem) (size n i p : Nat) (imp : Import)
    (hp : p ≤ size) :
    (storeCas algo chain size n i p imp).2.Safe size ↔
      imp.Safe size ∧ ∀ j < n, walk algo (deviceLength chain) p j ≤ size →
        SafeCa algo chain size (walk algo (deviceLength chain) p j) := by
  induction n generalizing i p imp with
  | zero => exact ⟨fun h => ⟨h, fun j hj => absurd hj (Nat.not_lt_zero j)⟩, fun h => h.1⟩
  | succ n ih =>
    have hlen : 4 ≤ deviceLength chain p := (getCaSerialLength_bounds (chain p) (chain (p + 1))).1
    have hpos : ¬deviceLength chain p = 0 := by omega
    have hdevice : getCaSerialLength (chain p) (chain (p + 1)) = deviceLength chain p := rfl
    have hsplit : (∀ j < n + 1, walk algo (deviceLength chain) p j ≤ size →
        SafeCa algo chain size (walk algo (deviceLength chain) p j)) ↔
        SafeCa algo chain size p ∧ ∀ j < n,
          walk algo (deviceLength chain) (nextCa algo p (deviceLength chain p)) j ≤ size →
            SafeCa algo chain size
              (walk algo (deviceLength chain) (nextCa algo p (deviceLength chain p)) j) := by
      constructor
      · intro h
        exact ⟨h 0 (Nat.succ_pos n) hp, fun j hj => h (j + 1) (by omega)⟩
      · rintro ⟨hhere, hrest⟩ j hj
        cases j with
        | zero => exact fun _ => hhere
        | succ j => exact hrest j (by omega)
    rw [storeCas, hsplit]
    simp only
    rw [hdevice, if_neg hpos]
    by_cases hfits : nextCa algo p (deviceLength chain p) ≤ size
    · have hin : ¬size < p + deviceLength chain p + algo.pukSize + signatureSize :=
        Nat.not_lt.mpr hfits
      rw [if_neg hin]
      refine (ih (i + 1) (nextCa algo p (deviceLength chain p)) _ hfits).trans ?_
      rw [Import.safe_modify, Import.safe_read, Import.safe_modify, Import.safe_read,
        Import.safe_copySerial, Import.safe_modify, Import.safe_read]
      unfold SafeCa
      unfold nextCa at hfits ⊢
      constructor
      · rintro ⟨⟨⟨⟨⟨h, h₂⟩, _, hmax⟩, _⟩, _⟩, hrest⟩
        exact ⟨h, ⟨h₂, fun _ => hmax⟩, hrest⟩
      · rintro ⟨h, ⟨h₂, hmax⟩, hrest⟩
        exact ⟨⟨⟨⟨⟨h, h₂⟩, by omega, hmax hfits⟩, by omega⟩, by omega⟩, hrest⟩
    · have hout : size < p + deviceLength chain p + algo.pukSize + signatureSize :=
        Nat.not_le.mp hfits
      rw [if_pos hout, Import.safe_modify, Import.safe_read]
      constructor
      · rintro ⟨h, h₂⟩
        refine ⟨h, ⟨h₂, fun hnext => absurd hnext hfits⟩, fun j _ hj => ?_⟩
        have hwalk := le_walk algo (deviceLength chain) (nextCa algo p (deviceLength chain p)) j
        exact absurd (Nat.le_trans hwalk hj) hfits
      · rintro ⟨h, hhere, _⟩
        exact ⟨h, hhere.1⟩

/-- The copies of a verification end inside its hash buffer, which has room for a public key and a
serial of the maximal size. -/
def HashFits (algo : Algo) (ca : Ca) : Prop :=
  algo.pukSize + ca.serialLength ≤ algo.pukSize + caSerialMaxSize

/-- The import keeps to its buffers, and so do the verifications of what it has accepted. -/
def ImportSafe (ctx : Context) (algo : Algo) (chain : Mem) (size : Nat) : Prop :=
  (writeCertChain ctx algo chain size).2.2.Safe size ∧
    ((writeCertChain ctx algo chain size).1 = errorNone →
      ∀ i < certMaxNum, HashFits algo (((writeCertChain ctx algo chain size).2.1.fields algo).certs i))

/-- Where the walk over the authorities begins, each one it comes to is safe. -/
def SafeChain (ctx : Context) (algo : Algo) (chain : Mem) (size : Nat) : Prop :=
  algo.Admits size → ctx.smsn = chain.slice 0 smsnSize →
    (ctx.fields algo).puk = chain.slice smsnSize algo.pukSize →
      ∀ i < certMaxNum, walk algo (deviceLength chain) (firstCa algo) i ≤ size →
        SafeCa algo chain size (walk algo (deviceLength chain) (firstCa algo) i)

/-- The import is safe on exactly these chains. -/
theorem import_safe_iff (ctx : Context) (algo : Algo) (chain : Mem) (size : Nat)
    (hcsr : ctx.state (.csr algo) = true) :
    ImportSafe ctx algo chain size ↔ SafeChain ctx algo chain size := by
  have hempty : (Import.mk (ctx.fields algo).certs [] [] none).Safe size :=
    ⟨fun _ hb => absurd hb List.not_mem_nil, fun _ hl => absurd hl List.not_mem_nil⟩
  have hcsr' : ¬(ctx.setFlag (.chain algo) false).state (.csr algo) = false := by
    simp [Context.setFlag, hcsr]
  have hne : errorInvalidArgs ≠ errorNone := by decide
  unfold ImportSafe SafeChain
  by_cases hin : algo.Admits size
  swap
  · have hsize : size < algo.sccMinSize ∨ algo.sccMaxSize < size := by
      unfold Algo.Admits at hin
      omega
    have hrun : writeCertChain ctx algo chain size =
        (errorInvalidArgs, ctx.setFlag (.chain algo) false,
          ⟨(ctx.fields algo).certs, [], [], none⟩) := by
      unfold writeCertChain
      simp only
      rw [if_neg hcsr', if_pos hsize]
    rw [hrun]
    exact iff_of_true ⟨hempty, fun h => absurd h hne⟩ fun h => absurd h hin
  have hsize : ¬(size < algo.sccMinSize ∨ algo.sccMaxSize < size) := by
    unfold Algo.Admits at hin
    omega
  have hfirst : firstCa algo ≤ size := by
    refine Nat.le_trans ?_ hin.1
    unfold Algo.sccMinSize
    exact Nat.le_add_left _ _
  unfold firstCa at hfirst
  have hreadSmsn := Import.safe_read.mpr ⟨hempty, (by omega : 0 + smsnSize ≤ size)⟩
  by_cases hsmsn : ctx.smsn = chain.slice 0 smsnSize
  swap
  · have hrun : writeCertChain ctx algo chain size =
        (errorInvalidArgs, ctx.setFlag (.chain algo) false,
          (Import.mk (ctx.fields algo).certs [] [] none).read 0 smsnSize) := by
      unfold writeCertChain
      simp only
      rw [if_neg hcsr', if_neg hsize]
      exact if_pos hsmsn
    rw [hrun]
    exact iff_of_true ⟨hreadSmsn, fun h => absurd h hne⟩ fun _ h => absurd h hsmsn
  have hreadPuk := Import.safe_read.mpr
    ⟨hreadSmsn, (by omega : smsnSize + algo.pukSize ≤ size)⟩
  by_cases hpuk : (ctx.fields algo).puk = chain.slice smsnSize algo.pukSize
  swap
  · have hrun : writeCertChain ctx algo chain size =
        (errorInvalidArgs, ctx.setFlag (.chain algo) false,
          ((Import.mk (ctx.fields algo).certs [] [] none).read 0 smsnSize).read smsnSize
            algo.pukSize) := by
      unfold writeCertChain
      simp only
      rw [if_neg hcsr', if_neg hsize]
      exact (if_neg (not_not.mpr hsmsn)).trans (if_pos hpuk)
    rw [hrun]
    exact iff_of_true ⟨hreadPuk, fun h => absurd h hne⟩ fun _ _ h => absurd h hpuk
  have hreadSig := Import.safe_read.mpr
    ⟨hreadPuk, (by omega : smsnSize + algo.pukSize + signatureSize ≤ size)⟩
  have hrun : (writeCertChain ctx algo chain size).2.2 =
      (storeCas algo chain size certMaxNum 0 (firstCa algo)
        ((((Import.mk (ctx.fields algo).certs [] [] none).read 0 smsnSize).read smsnSize
          algo.pukSize).read (smsnSize + algo.pukSize) signatureSize)).2 := by
    have hsmsn' : ¬(ctx.setFlag (.chain algo) false).smsn ≠ chain.slice 0 smsnSize :=
      not_not.mpr hsmsn
    have hpuk' : ¬((ctx.setFlag (.chain algo) false).fields algo).puk ≠
        chain.slice smsnSize algo.pukSize := not_not.mpr hpuk
    unfold writeCertChain
    simp only
    rw [if_neg hcsr', if_neg hsize, if_neg hsmsn', if_neg hpuk']
    split
    · rfl
    · rfl
  obtain ⟨haccepts, hstored⟩ := writeCertChain_eq ⟨hcsr, hsmsn, hpuk⟩ size
  rw [hrun, storeCas_safe_iff algo chain size certMaxNum 0 (firstCa algo) _ hfirst]
  constructor
  · exact fun h _ _ _ => h.1.2
  · intro h
    refine ⟨⟨hreadSig, h hin hsmsn hpuk⟩, fun hnone i hi => ?_⟩
    have hend := (haccepts.mp hnone).2
    have hnext := Nat.le_trans (walk_mono algo (deviceLength chain) (firstCa algo) hi) hend
    rw [walk_succ] at hnext
    have hhere := h hin hsmsn hpuk i hi (Nat.le_trans
      (walk_mono algo (deviceLength chain) (firstCa algo) (Nat.le_of_lt hi)) hend)
    unfold HashFits
    rw [((hstored hnone).2 i hi).serialLength]
    exact Nat.add_le_add_left (hhere.2 hnext) _

theorem import_safe_extended : zeroContext.state (.csr .ed25519) = true ∧
    ImportSafe zeroContext .ed25519 extendedChain 628 := by
  refine ⟨rfl, (import_safe_iff _ _ _ _ rfl).mpr fun _ _ _ i hi _ => ?_⟩
  have hi : i < 5 := hi
  interval_cases i <;> exact ⟨by decide +kernel, fun _ => by decide +kernel⟩

/-- The header of the first serial is `0x307F`. -/
def longChain : Mem := fun a =>
  if a = firstCa .ed25519 then 0x30 else if a = firstCa .ed25519 + 1 then 0x7F else 0

/-- The chain is accepted, and 131 bytes were copied into an array of 129. -/
theorem long_serial_overflows :
    (writeCertChain zeroContext .ed25519 longChain 755).1 = errorNone ∧
      131 ∈ (writeCertChain zeroContext .ed25519 longChain 755).2.2.copied ∧
      ¬ImportSafe zeroContext .ed25519 longChain 755 := by
  have hcopied : 131 ∈ (writeCertChain zeroContext .ed25519 longChain 755).2.2.copied := by
    decide +kernel
  refine ⟨by decide +kernel, hcopied, fun h => ?_⟩
  exact absurd (h.1.fits 131 hcopied) (by decide)

end Sidewalk.Cert
