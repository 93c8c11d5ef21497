import Sidewalk.Tlv.Storage

/-!
# The manufacturing parsers

`sid_mfg_hex_v8.c` and `sid_mfg_hex_v7.c`. Either parser copies the elements of a raw image one
by one into a TLV store in RAM, appends the migration flags, erases the partition and writes the
RAM store over it. Build options and the platform services the parsers call are records:
`Build`, `Platform`. The parsers' `payload_buffer` is on the stack; a read that succeeds with
more bytes than it holds is `undefined`, as is a call through a missing handler. The RAM store has
no bounds here; in its block of the heap it is that of `Mfg.Failing`.
-/

namespace Sidewalk.Mfg

open Sidewalk.Lib Sidewalk.Tlv

/-! ## The build and the platform -/

structure Build where
  /-- `CONFIG_SIDEWALK_CRYPTO_PSA_KEY_STORAGE` -/
  psaKeyStorage : Bool
  /-- `CONFIG_SIDEWALK_MFG_PARSER_MAX_ELEMENT_SIZE` -/
  maxElementSize : Nat
  /-- `CONFIG_SIDEWALK_MFG_STORAGE_SUPPORT_HEX_v7` -/
  supportHexV7 : Bool
  /-- `SID_PAL_MFG_STORE_NORDIC_USE_LEGACY_OFFSETS` -/
  legacyOffsets : Bool

/-- The keys the parsers hand to PSA. -/
inductive KeyId
  | mfgEd25519Priv
  | mfgSecp256r1Priv
  deriving DecidableEq, Repr

structure Platform where
  /-- Whether `sid_hal_malloc` returns a block of the size. -/
  malloc : Nat → Bool
  /-- The heap seen from the allocated block, before `memset`. -/
  heap : Mem
  cryptoKeysInit : Int
  cryptoKeysNewImport : KeyId → List UInt8 → Int

/-- A build with the default element size and without PSA. -/
def defaultBuild : Build where
  psaKeyStorage := false
  maxElementSize := 64
  supportHexV7 := true
  legacyOffsets := false

/-- A platform whose services all succeed. -/
def calmPlatform : Platform where
  malloc _ := true
  heap _ := 0
  cryptoKeysInit := 0
  cryptoKeysNewImport _ _ := 0

/-- How a call ends: it returns, it has undefined behaviour, or it is still running. -/
inductive Outcome
  | ret (code : Int)
  | undefined
  | running
  deriving DecidableEq, Repr

/-- The call returns, as opposed to undefined behaviour and to a loop that does not end. -/
def Outcome.Returns : Outcome → Prop
  | .ret _ => True
  | .undefined => False
  | .running => False

/-! ## Constants -/

def tagEmpty : UInt16 := 0xFFFF
def tagDevicePrivEd25519 : UInt16 := 6
def tagDevicePrivP256r1 : UInt16 := 9

/-- `MFG_FLAGS_TYPE_ID`: one below `SID_PAL_MFG_STORE_VALUE_MAX`. -/
def mfgFlagsTypeId : UInt16 := 0x6FFD

def mfgHeaderMagic : List UInt8 := [0x53, 0x49, 0x44, 0x30]

/-- `SID_PAL_MFG_STORE_TLV_VERSION`. -/
def reportedVersion : UInt8 := 8

/-- `sizeof(struct mfg_header)`. -/
def mfgHeaderSize : Nat := 8

def mfgHeader : List UInt8 := mfgHeaderMagic ++ [0, 0, 0, reportedVersion]

/-- The context of the partition, as `sid_pal_mfg_store_init` sets it up. -/
def tlvFlash {σ : Type} (storageImpl : TlvStorage σ) (addrStart addrEnd : Nat) : TlvCtx σ where
  storageImpl := storageImpl
  startOffset := addrStart
  endOffset := addrEnd
  tlvStorageStartMarkerSize := mfgHeaderSize

/-! ## The flags -/

structure MfgFlags where
  keysInPsa : Bool
  initialized : Bool
  deriving DecidableEq, Repr

/-- `sizeof(struct mfg_flags)`. -/
def mfgFlagsSize : Nat := 4

/-- The bit fields of `struct mfg_flags` are bits 6 and 7 of its first byte. -/
def MfgFlags.toBytes (flags : MfgFlags) : List UInt8 :=
  [(if flags.initialized then 0x80 else 0) ||| (if flags.keysInPsa then 0x40 else 0), 0, 0, 0]

def MfgFlags.ofBytes (bytes : List UInt8) : MfgFlags where
  keysInPsa := (bytes.getD 0 0).toNat.testBit 6
  initialized := (bytes.getD 0 0).toNat.testBit 7

/-- The flags a parser writes. -/
def Build.migratedFlags (build : Build) : MfgFlags where
  keysInPsa := build.psaKeyStorage
  initialized := true

/-! ## Keys -/

/-- The key under which an element is imported into PSA instead of being copied. -/
def Build.keyIdOf (build : Build) (tag : UInt16) : Option KeyId :=
  if build.psaKeyStorage then
    if tag = tagDevicePrivEd25519 then some .mfgEd25519Priv
    else if tag = tagDevicePrivP256r1 then some .mfgSecp256r1Priv
    else none
  else none

/-! ## The RAM copy -/

/-- The store in RAM that a parser fills for a partition. -/
def ramTlv (size marker : Nat) : TlvCtx Mem where
  storageImpl := { write := some tlvStorageRamWrite, erase := none, read := some tlvStorageRamRead }
  startOffset := 0
  endOffset := size
  tlvStorageStartMarkerSize := marker

/-- How the loop over the elements ends: with the RAM copy, or as the whole call does. -/
inductive CopyEnd
  | done (ram : Mem)
  | exit (outcome : Outcome)

/-- An element that was read goes to PSA or into the RAM copy. -/
def storeElement (build : Build) (platform : Platform) (ramCtx : TlvCtx Mem) (tag : UInt16)
    (payload : List UInt8) (ram : Mem) : CopyEnd :=
  match build.keyIdOf tag with
  | some id =>
    if platform.cryptoKeysNewImport id payload ≠ 0 then .exit (.ret (-eacces)) else .done ram
  | none =>
    match tlvWrite ramCtx ram tag payload with
    | (none, _) => .exit .running
    | (some ret, ram) => if ret ≠ 0 then .exit (.ret (-eio)) else .done ram

section

variable {σ : Type} (build : Build) (platform : Platform)

/-- What both parsers do behind their loop: the flags record, the erase of the partition and the
write of the whole copy. -/
def storeCopy (tlv : TlvCtx σ) (ram : Mem) (s : σ) : Outcome × σ :=
  let size := tlv.endOffset - tlv.startOffset
  match tlvWrite (ramTlv size tlv.tlvStorageStartMarkerSize) ram mfgFlagsTypeId
      build.migratedFlags.toBytes with
  | (none, _) => (.running, s)
  | (some ret, ram) =>
    if ret ≠ 0 then (.ret (-eio), s)
    else
      match tlv.storageImpl.erase with
      | none => (.undefined, s)
      | some erase =>
        match erase s tlv.startOffset size with
        | (ret, s) =>
          if ret ≠ 0 then (.ret (-eio), s)
          else
            match tlv.storageImpl.write with
            | none => (.undefined, s)
            | some write =>
              match write s tlv.startOffset (ram.slice 0 size) with
              | (ret, s) => if ret ≠ 0 then (.ret (-eio), s) else (.ret 0, s)

/-- What both parsers do around their loop, with the header of the RAM copy before it. -/
def migrate (copyElements : TlvCtx Mem → Mem → σ → CopyEnd × σ) (tlv : TlvCtx σ) (s : σ) :
    Outcome × σ :=
  if tlv.endOffset ≤ tlv.startOffset then (.ret (-einval), s)
  else
    let size := tlv.endOffset - tlv.startOffset
    if platform.malloc size = false then (.ret (-enomem), s)
    else
      let ramCtx := ramTlv size tlv.tlvStorageStartMarkerSize
      match tlvWriteStartMarker ramCtx (platform.heap.fill 0 size 0xFF) mfgHeader with
      | (ret, ram) =>
        if ret ≠ 0 then (.ret (-eio), s)
        else
          match copyElements ramCtx ram s with
          | (.exit outcome, s) => (outcome, s)
          | (.done ram, s) => storeCopy build tlv ram s

/-! ## Raw v8 images -/

def beWord (bytes : List UInt8) : UInt16 :=
  .ofNat ((bytes.getD 0 0).toNat * 256 + (bytes.getD 1 0).toNat)

/-- The loop of `parse_mfg_raw_tlv`. -/
def rawTlvLoop (endOffset : Nat) (read : σ → Nat → Nat → Int × List UInt8 × σ)
    (ramCtx : TlvCtx Mem) : Nat → Nat → Mem → σ → CopyEnd × σ
  | 0, _, _, s => (.exit .running, s)
  | fuel + 1, offset, ram, s =>
    if offset < endOffset then
      match read s offset 2 with
      | (ret, key, s) =>
        if ret ≠ 0 then (.exit (.ret (-eio)), s)
        else
          let offset := u32 (offset + 2)
          let keyDecoded := beWord key
          if keyDecoded = tagEmpty then (.done ram, s)
          else
            match read s offset 2 with
            | (ret, size, s) =>
              if ret ≠ 0 then (.exit (.ret (-eio)), s)
              else
                let offset := u32 (offset + 2)
                let sizeDecoded := (beWord size).toNat
                match read s offset sizeDecoded with
                | (ret, payload, s) =>
                  if ret ≠ 0 then (.exit (.ret (-eio)), s)
                  else if build.maxElementSize < sizeDecoded then (.exit .undefined, s)
                  else
                    match storeElement build platform ramCtx keyDecoded payload ram with
                    | .exit outcome => (.exit outcome, s)
                    | .done ram =>
                      rawTlvLoop endOffset read ramCtx fuel (u32 (offset + sizeDecoded)) ram s
    else (.done ram, s)

/-- `parse_mfg_raw_tlv`. -/
def parseMfgRawTlv (tlv : TlvCtx σ) (s : σ) : Outcome × σ :=
  migrate build platform
    (fun ramCtx ram s =>
      match tlv.storageImpl.read with
      | some read =>
        rawTlvLoop build platform tlv.endOffset read ramCtx loopFuel tlv.firstOffset ram s
      | none => if tlv.firstOffset < tlv.endOffset then (.exit .undefined, s) else (.done ram, s))
    tlv s

/-! ## Images with constant offsets -/

/-- A row of `sid_pal_mfg_store_app_value_to_offset_table`; the offset is in words. -/
structure ConstElement where
  value : UInt16
  size : Nat
  offset : Nat

/-- `SID_PAL_MFG_STORE_INVALID_OFFSET`. -/
def invalidOffset : Nat := 0xFFFFFFFF

/-- The values and sizes of the table, with the offsets of the current and of the legacy
layout. -/
def offsetRows : List (UInt16 × Nat × Nat × Nat) :=
  [(3, 17, 2, 32), (4, 32, 8, invalidOffset), (5, 32, 18, 92), (6, 32, 26, 100),
    (7, 32, 34, 108), (8, 64, 42, 116), (9, 32, 58, 132), (10, 64, 66, 140), (11, 64, 82, 156),
    (12, 32, 98, invalidOffset), (13, 64, 106, invalidOffset), (14, 4, 122, invalidOffset),
    (15, 64, 123, invalidOffset), (16, 64, 139, invalidOffset), (17, 4, 155, invalidOffset),
    (18, 32, 156, 172), (19, 64, 164, 180), (20, 4, 180, 196), (21, 64, 181, 197),
    (22, 64, 197, 213), (23, 4, 213, 229), (24, 32, 214, 230), (25, 64, 222, 238),
    (26, 4, 238, 254), (27, 64, 239, 255), (28, 64, 255, 271), (29, 4, 271, 287),
    (30, 32, 272, invalidOffset), (31, 64, 280, invalidOffset), (32, 4, 296, invalidOffset),
    (33, 64, 297, invalidOffset), (34, 64, 313, invalidOffset), (35, 4, 329, invalidOffset),
    (36, 32, 330, 352), (37, 64, 338, 360), (38, 4, 16, 576)]

def Build.valueToOffsetTable (build : Build) : List ConstElement :=
  offsetRows.map fun (value, size, offset, legacy) =>
    { value := value, size := size, offset := if build.legacyOffsets then legacy else offset }

def wordSize : Nat := 4

/-- `SID_PAL_MFG_STORE_MAX_FLASH_WRITE_LEN`. -/
def maxFlashWriteLen : Nat := 64

/-- The loop of `parse_mfg_const_offsets`. -/
def constOffsetsLoop (startOffset : Nat) (read : σ → Nat → Nat → Int × List UInt8 × σ)
    (ramCtx : TlvCtx Mem) : List ConstElement → Mem → σ → CopyEnd × σ
  | [], ram, s => (.done ram, s)
  | element :: rest, ram, s =>
    match read s (u32 (startOffset + element.offset * wordSize)) element.size with
    | (ret, payload, s) =>
      if ret ≠ 0 then (.exit (.ret (-eio)), s)
      else if build.maxElementSize < element.size then (.exit .undefined, s)
      else if maxFlashWriteLen < element.size ∨ payload = List.replicate element.size 0xFF then
        constOffsetsLoop startOffset read ramCtx rest ram s
      else
        match storeElement build platform ramCtx element.value payload ram with
        | .exit outcome => (.exit outcome, s)
        | .done ram => constOffsetsLoop startOffset read ramCtx rest ram s

/-- `parse_mfg_const_offsets`. -/
def parseMfgConstOffsets (tlv : TlvCtx σ) (s : σ) : Outcome × σ :=
  migrate build platform
    (fun ramCtx ram s =>
      match tlv.storageImpl.read with
      | some read =>
        constOffsetsLoop build platform tlv.startOffset read ramCtx build.valueToOffsetTable ram s
      | none => (.exit .undefined, s))
    tlv s

end

end Sidewalk.Mfg
