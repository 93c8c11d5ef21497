import Sidewalk.Mfg.Copy
import Sidewalk.Lib.Heap
import Sidewalk.Lib.System

/-!
# The parsers where calls fail

The two manufacturing parsers with everything that may fail in them: the allocation, the reads of
the partition, the imports of keys and the writes into the RAM copy. A write into the RAM copy
returns what a schedule says, and so does an import; the handlers of the partition return what
they like. The RAM copy is a block of the size of the partition: an access that leaves it makes
the call `undefined`. The heap shows which block it is and when it is released, and the RAM copy
is noted when the storage is asked to erase.
-/

namespace Sidewalk.Mfg.Failing

open Sidewalk.Lib Sidewalk.Tlv

/-! ## The RAM copy -/

/-- The block of the RAM copy, with what the coming writes into it return. -/
structure RamCopy where
  mem : Mem
  /-- The bytes of the block. -/
  size : Nat
  /-- Whether an access has left the block. -/
  overrun : Bool
  faults : Nat → Int

namespace RamCopy

def access (ram : RamCopy) (offset n : Nat) : RamCopy :=
  { ram with overrun := ram.overrun || decide (ram.size < offset + n) }

/-- The copy for the writes behind this one. -/
def later (ram : RamCopy) : RamCopy := { ram with faults := fun n => ram.faults (n + 1) }

/-- `tlv_storage_ram_write`, which may fail. -/
def write (ram : RamCopy) (offset : Nat) (data : List UInt8) : Int × RamCopy :=
  (ram.faults 0,
    if ram.faults 0 = 0 then
      { ram.later.access offset data.length with mem := ram.mem.blit offset data }
    else ram.later)

def read (ram : RamCopy) (offset dataSize : Nat) : Int × List UInt8 × RamCopy :=
  (0, ram.mem.slice offset dataSize, ram.access offset dataSize)

end RamCopy

/-- The store in RAM that a parser fills for a partition. -/
def ramTlv (size marker : Nat) : TlvCtx RamCopy where
  storageImpl := { write := some RamCopy.write, erase := none, read := some RamCopy.read }
  startOffset := 0
  endOffset := size
  tlvStorageStartMarkerSize := marker

/-! ## The host -/

/-- What a parser changes besides its RAM copy. -/
structure Host (σ : Type) where
  storage : σ
  heap : Heap
  /-- What the coming calls to `sid_crypto_keys_new_import` return. -/
  imports : Nat → Int
  /-- The RAM copy at the time the storage was asked to erase. -/
  erasedWith : Option Mem

section

variable {σ : Type}

namespace Host

/-- `sid_hal_free`. -/
def free (host : Host σ) (block : Nat) : Host σ := { host with heap := host.heap.free block }

def cryptoKeysNewImport (host : Host σ) : Int × Host σ :=
  (host.imports 0, { host with imports := fun n => host.imports (n + 1) })

end Host

/-! ## The loops -/

/-- How the loop over the elements ends: with the RAM copy, or as the whole call does. -/
inductive CopyEnd
  | done (ram : RamCopy)
  | exit (outcome : Outcome)

/-- An element that was read goes to PSA or into the RAM copy. -/
def storeElement (build : Build) (block : Nat) (ramCtx : TlvCtx RamCopy) (tag : UInt16)
    (payload : List UInt8) (ram : RamCopy) (host : Host σ) : CopyEnd × Host σ :=
  match build.keyIdOf tag with
  | some _ =>
    match host.cryptoKeysNewImport with
    | (err, host) =>
      if err ≠ 0 then (.exit (.ret (-eacces)), host.free block) else (.done ram, host)
  | none =>
    match tlvWrite ramCtx ram tag payload with
    | (ret, ram) =>
      if ram.overrun then (.exit .undefined, host)
      else
        match ret with
        | none => (.exit .running, host)
        | some ret =>
          if ret ≠ 0 then (.exit (.ret (-eio)), host.free block) else (.done ram, host)

/-- What a round of a loop finds in the partition: its end, a read that fails, a payload that the
buffer cannot hold, a row to skip, or an element. -/
inductive Fetched (α : Type)
  | stop
  | failed
  | undefined
  | skip (pos : α)
  | element (tag : UInt16) (payload : List UInt8) (pos : α)

/-- What a round of the loop of `parse_mfg_raw_tlv` reads at an offset. -/
def fetchRaw (build : Build) (tlv : TlvCtx σ) (offset : Nat) (s : σ) : Fetched Nat × σ :=
  if offset < tlv.endOffset then
    match tlv.storageImpl.read with
    | none => (.undefined, s)
    | some read =>
      match read s offset 2 with
      | (ret, key, s) =>
        if ret ≠ 0 then (.failed, s)
        else
          let offset := u32 (offset + 2)
          let keyDecoded := beWord key
          if keyDecoded = tagEmpty then (.stop, s)
          else
            match read s offset 2 with
            | (ret, size, s) =>
              if ret ≠ 0 then (.failed, s)
              else
                let offset := u32 (offset + 2)
                let sizeDecoded := (beWord size).toNat
                match read s offset sizeDecoded with
                | (ret, payload, s) =>
                  if ret ≠ 0 then (.failed, s)
                  else if build.maxElementSize < sizeDecoded then (.undefined, s)
                  else (.element keyDecoded payload (u32 (offset + sizeDecoded)), s)
  else (.stop, s)

/-- What a round of the loop of `parse_mfg_const_offsets` reads for the first of the rows. -/
def fetchConst (build : Build) (tlv : TlvCtx σ) (rows : List ConstElement) (s : σ) :
    Fetched (List ConstElement) × σ :=
  match rows with
  | [] => (.stop, s)
  | element :: rest =>
    match tlv.storageImpl.read with
    | none => (.undefined, s)
    | some read =>
      match read s (u32 (tlv.startOffset + element.offset * wordSize)) element.size with
      | (ret, payload, s) =>
        if ret ≠ 0 then (.failed, s)
        else if build.maxElementSize < element.size then (.undefined, s)
        else if maxFlashWriteLen < element.size ∨ payload = List.replicate element.size 0xFF then
          (.skip rest, s)
        else (.element element.value payload rest, s)

section

variable {α : Type} (build : Build) (fetch : α → σ → Fetched α × σ) (block : Nat)
  (ramCtx : TlvCtx RamCopy)

/-- A round of a loop: the state of the next one, or how the loop ends. -/
def copyRound (pos : α) (ram : RamCopy) (host : Host σ) :
    (α × RamCopy × Host σ) ⊕ (CopyEnd × Host σ) :=
  match fetch pos host.storage with
  | (.stop, s) => .inr (.done ram, { host with storage := s })
  | (.failed, s) => .inr (.exit (.ret (-eio)), Host.free { host with storage := s } block)
  | (.undefined, s) => .inr (.exit .undefined, { host with storage := s })
  | (.skip pos, s) => .inl (pos, ram, { host with storage := s })
  | (.element tag payload pos, s) =>
    match storeElement build block ramCtx tag payload ram { host with storage := s } with
    | (.exit outcome, host) => .inr (.exit outcome, host)
    | (.done ram, host) => .inl (pos, ram, host)

/-- The loop of either parser. -/
def copyLoop : Nat → α → RamCopy → Host σ → CopyEnd × Host σ
  | 0, _, _, host => (.exit .running, host)
  | fuel + 1, pos, ram, host =>
    match copyRound build fetch block ramCtx pos ram host with
    | .inl (pos, ram, host) => copyLoop fuel pos ram host
    | .inr ended => ended

end

/-! ## The parsers -/

/-- What both parsers do behind their loop: the flags record, the erase of the partition and the
write of the whole copy. -/
def storeCopy (build : Build) (block : Nat) (tlv : TlvCtx σ) (ram : RamCopy) (host : Host σ) :
    Outcome × Host σ :=
  let size := tlv.endOffset - tlv.startOffset
  match tlvWrite (ramTlv size tlv.tlvStorageStartMarkerSize) ram mfgFlagsTypeId
      build.migratedFlags.toBytes with
  | (ret, ram) =>
    if ram.overrun then (.undefined, host)
    else
      match ret with
      | none => (.running, host)
      | some ret =>
        if ret ≠ 0 then (.ret (-eio), host.free block)
        else
          match tlv.storageImpl.erase with
          | none => (.undefined, host)
          | some erase =>
            match erase host.storage tlv.startOffset size with
            | (ret, s) =>
              let host := { host with storage := s, erasedWith := some ram.mem }
              if ret ≠ 0 then (.ret (-eio), host.free block)
              else
                match tlv.storageImpl.write with
                | none => (.undefined, host)
                | some write =>
                  match write host.storage tlv.startOffset (ram.mem.slice 0 size) with
                  | (ret, s) =>
                    let host := { host with storage := s }
                    if ret ≠ 0 then (.ret (-eio), host.free block)
                    else (.ret 0, host.free block)

/-- The copy of a loop that is done is stored, or the call ends as its loop did. -/
def behindLoop (build : Build) (block : Nat) (tlv : TlvCtx σ) :
    CopyEnd × Host σ → Outcome × Host σ
  | (.exit outcome, host) => (outcome, host)
  | (.done ram, host) => storeCopy build block tlv ram host

/-- Either parser, by what its rounds read and where they begin. The platform says whether there
is memory and what is in it. -/
def migrate {α : Type} (build : Build) (platform : Platform) (ramFaults : Nat → Int)
    (fetch : α → σ → Fetched α × σ) (start : α) (tlv : TlvCtx σ) (s : σ) (heap : Heap)
    (imports : Nat → Int) : Outcome × Host σ :=
  let host : Host σ := { storage := s, heap := heap, imports := imports, erasedWith := none }
  if tlv.endOffset ≤ tlv.startOffset then (.ret (-einval), host)
  else
    let size := tlv.endOffset - tlv.startOffset
    match host.heap.malloc (platform.malloc size) size with
    | (none, heap) => (.ret (-enomem), { host with heap := heap })
    | (some block, heap) =>
      let host := { host with heap := heap }
      let ramCtx := ramTlv size tlv.tlvStorageStartMarkerSize
      match tlvWriteStartMarker ramCtx ⟨platform.heap.fill 0 size 0xFF, size, false, ramFaults⟩
          mfgHeader with
      | (ret, ram) =>
        if ram.overrun then (.undefined, host)
        else if ret ≠ 0 then (.ret (-eio), host.free block)
        else
          behindLoop build block tlv (copyLoop build fetch block ramCtx loopFuel start ram host)

/-- `parse_mfg_raw_tlv`. -/
def parseMfgRawTlv (build : Build) (platform : Platform) (ramFaults : Nat → Int)
    (tlv : TlvCtx σ) (s : σ) (heap : Heap) (imports : Nat → Int) : Outcome × Host σ :=
  migrate build platform ramFaults (fetchRaw build tlv) tlv.firstOffset tlv s heap imports

/-- `parse_mfg_const_offsets`. -/
def parseMfgConstOffsets (build : Build) (platform : Platform) (ramFaults : Nat → Int)
    (tlv : TlvCtx σ) (s : σ) (heap : Heap) (imports : Nat → Int) : Outcome × Host σ :=
  migrate build platform ramFaults (fetchConst build tlv) build.valueToOffsetTable tlv s heap
    imports

end

end Sidewalk.Mfg.Failing
