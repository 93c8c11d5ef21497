import Sidewalk.Lib.Memory

/-!
# The TLV store

`utils/tlv/tlv.c`. A region holds a start marker and then records, each a four-byte header
(big-endian type, padding count, data size) with its payload behind it, padded with `0xFF` to
four bytes. The store is generic in its storage: `TlvStorage σ` is the table of handlers of
`struct tlv_storage`, with `σ` for what its `void *ctx` points to.

Offsets are the `uint32_t` of the source, kept as naturals with every sum reduced by `u32`. A
loop of the source runs here for at most `loopFuel` rounds and answers `none` when it is still
running then.
-/

namespace Sidewalk.Tlv

open Sidewalk.Lib

/-! ## Fixed-width arithmetic and error numbers -/

/-- A value stored to a `uint16_t`. -/
def u16 (n : Nat) : Nat := n % 2 ^ 16

/-- A value stored to a `uint32_t`. -/
def u32 (n : Nat) : Nat := n % 2 ^ 32

/-- An `int` returned as a `uint32_t`. -/
def u32OfInt (i : Int) : Nat := (i % 2 ^ 32).toNat

def eio : Int := 5
def enomem : Int := 12
def eacces : Int := 13
def einval : Int := 22
def enodata : Int := 61

/-- Every loop below steps a 32-bit offset. -/
def loopFuel : Nat := 2 ^ 32

/-! ## Data -/

def dataAlign : Nat := 4

/-- `CALCULATE_PADDING`. -/
def calculatePadding (val : Nat) : Nat := (dataAlign - val % dataAlign) % dataAlign

def paddingByte : UInt8 := 0xFF

/-- `UINT16_MAX` as a type: an erased header. -/
def emptyType : UInt16 := 0xFFFF

structure TlvSize where
  padding : UInt8
  dataSize : UInt8
  deriving DecidableEq, Repr

structure TlvHeader where
  type : UInt16
  payloadSize : TlvSize
  deriving DecidableEq, Repr

/-- `sizeof(tlv_header)`. -/
def headerSize : Nat := 4

/-- `struct tlv_storage`: the handlers, any of which may be `NULL`. A handler returns the C
result, for a read also the bytes it delivered, and the storage it leaves. -/
structure TlvStorage (σ : Type) where
  write : Option (σ → Nat → List UInt8 → Int × σ)
  erase : Option (σ → Nat → Nat → Int × σ)
  read : Option (σ → Nat → Nat → Int × List UInt8 × σ)

structure TlvCtx (σ : Type) where
  storageImpl : TlvStorage σ
  startOffset : Nat
  endOffset : Nat
  tlvStorageStartMarkerSize : Nat

variable {σ : Type}

/-- The offset of the first record. -/
def TlvCtx.firstOffset (ctx : TlvCtx σ) : Nat :=
  u32 (ctx.startOffset + ctx.tlvStorageStartMarkerSize)

/-! ## Headers -/

def bytesToHeader (data : List UInt8) : TlvHeader where
  type := .ofNat ((data.getD 0 0).toNat * 256 + (data.getD 1 0).toNat)
  payloadSize := { padding := data.getD 2 0, dataSize := data.getD 3 0 }

def headerToBytes (header : TlvHeader) : List UInt8 :=
  [.ofNat (header.type.toNat / 256), .ofNat (header.type.toNat % 256),
    header.payloadSize.padding, header.payloadSize.dataSize]

/-- The bytes a scan steps over behind a header. -/
def TlvHeader.span (header : TlvHeader) : Nat :=
  header.payloadSize.dataSize.toNat + header.payloadSize.padding.toNat

/-- The header `tlv_write` builds. Both sizes are stored to a `uint8_t`. -/
def makeHeader (type : UInt16) (dataSize : Nat) : TlvHeader where
  type := type
  payloadSize := { padding := .ofNat (calculatePadding dataSize), dataSize := .ofNat dataSize }

/-! ## Scans -/

/-- The loop of `tlv_lookup`. -/
def tlvLookupLoop (read : σ → Nat → Nat → Int × List UInt8 × σ) (endOffset : Nat)
    (type : UInt16) : Nat → Nat → σ → Option (Int × Option TlvHeader) × σ
  | 0, _, s => (none, s)
  | fuel + 1, offset, s =>
    if u32 (offset + headerSize) ≤ endOffset then
      match read s offset headerSize with
      | (ret, headerRaw, s) =>
        if ret ≠ 0 then (some (ret, none), s)
        else
          let header := bytesToHeader headerRaw
          let offset := u32 (offset + headerSize)
          if header.type = type then (some (0, some header), s)
          else tlvLookupLoop read endOffset type fuel (u32 (offset + header.span)) s
    else (some (-enodata, none), s)

/-- `tlv_lookup`; the header is what `lookup_data` receives, `none` where it is left alone. -/
def tlvLookup (ctx : TlvCtx σ) (s : σ) (type : UInt16) : Option (Int × Option TlvHeader) × σ :=
  match ctx.storageImpl.read with
  | none => (some (-einval, none), s)
  | some read => tlvLookupLoop read ctx.endOffset type loopFuel ctx.firstOffset s

/-- The loop of `tlv_read`. -/
def tlvReadLoop (read : σ → Nat → Nat → Int × List UInt8 × σ) (endOffset : Nat)
    (type : UInt16) (dataSize : Nat) : Nat → Nat → σ → Option (Int × List UInt8) × σ
  | 0, _, s => (none, s)
  | fuel + 1, offset, s =>
    if u32 (offset + headerSize) ≤ endOffset then
      match read s offset headerSize with
      | (ret, headerRaw, s) =>
        if ret ≠ 0 then (some (ret, []), s)
        else
          let header := bytesToHeader headerRaw
          let offset := u32 (offset + headerSize)
          if header.type = type then
            if dataSize ≤ header.span then
              if endOffset < u32 (offset + dataSize) then (some (-enodata, []), s)
              else
                match read s offset dataSize with
                | (ret, data, s) => (some (ret, data), s)
            else (some (-enomem, []), s)
          else tlvReadLoop read endOffset type dataSize fuel (u32 (offset + header.span)) s
    else (some (-enodata, []), s)

/-- `tlv_read`; the list is what `data` receives, empty where it is left alone. -/
def tlvRead (ctx : TlvCtx σ) (s : σ) (type : UInt16) (dataSize : Nat) :
    Option (Int × List UInt8) × σ :=
  match ctx.storageImpl.read with
  | none => (some (-einval, []), s)
  | some read => tlvReadLoop read ctx.endOffset type dataSize loopFuel ctx.firstOffset s

/-- An erased type or an empty payload marks a free slot. -/
def TlvHeader.IsFree (header : TlvHeader) : Prop :=
  header.type = emptyType ∨ header.payloadSize.dataSize = 0

instance (header : TlvHeader) : Decidable header.IsFree :=
  inferInstanceAs (Decidable (_ ∨ _))

/-- The loop of `get_next_free_offset`. A failing read leaves through the same `uint32_t` as an
offset does. -/
def getNextFreeOffsetLoop (read : σ → Nat → Nat → Int × List UInt8 × σ) (endOffset : Nat) :
    Nat → Nat → σ → Option Nat × σ
  | 0, _, s => (none, s)
  | fuel + 1, offset, s =>
    if offset ≤ endOffset then
      match read s offset headerSize with
      | (ret, headerRaw, s) =>
        if ret ≠ 0 then (some (u32OfInt ret), s)
        else
          let header := bytesToHeader headerRaw
          if header.IsFree then (some offset, s)
          else
            let offset := u32 (offset + headerSize)
            getNextFreeOffsetLoop read endOffset fuel (u32 (offset + header.span)) s
    else (some endOffset, s)

/-- `get_next_free_offset`, run for at most `fuel` rounds. -/
def getNextFreeOffsetFor (fuel : Nat) (ctx : TlvCtx σ) (s : σ) : Option Nat × σ :=
  match ctx.storageImpl.read with
  | none => (some ctx.endOffset, s)
  | some read => getNextFreeOffsetLoop read ctx.endOffset fuel ctx.firstOffset s

def getNextFreeOffset (ctx : TlvCtx σ) (s : σ) : Option Nat × σ :=
  getNextFreeOffsetFor loopFuel ctx s

/-! ## Writing -/

/-- The next `DATA_ALIGN` bytes to write once `dataWritten` are: data, then padding. -/
def writeBuff (data : List UInt8) (dataWritten : Nat) : List UInt8 :=
  let bytesToWrite := min (data.length - dataWritten) dataAlign
  (data.drop dataWritten).take bytesToWrite ++
    List.replicate (dataAlign - bytesToWrite) paddingByte

/-- The loop of `tlv_write`; `data_written` is a `uint16_t`. -/
def tlvWriteLoop (write : σ → Nat → List UInt8 → Int × σ) (data : List UInt8) :
    Nat → Nat → Nat → σ → Option Int × σ
  | 0, _, _, s => (none, s)
  | fuel + 1, offset, dataWritten, s =>
    if dataWritten < data.length then
      match write s offset (writeBuff data dataWritten) with
      | (ret, s) =>
        if ret ≠ 0 then (some ret, s)
        else
          tlvWriteLoop write data fuel (u32 (offset + dataAlign)) (u16 (dataWritten + dataAlign)) s
    else (some 0, s)

/-- The size check of `tlv_write` on the offset the free-slot search returned. -/
def Rejected (endOffset nextFreeOffset dataSize : Nat) : Prop :=
  endOffset < u32 (nextFreeOffset + headerSize + dataSize + calculatePadding dataSize)

instance (endOffset nextFreeOffset dataSize : Nat) :
    Decidable (Rejected endOffset nextFreeOffset dataSize) :=
  inferInstanceAs (Decidable (_ < _))

/-- `tlv_write` of the whole of `data`, whose length is the `uint16_t data_size`, with either
loop run for at most `fuel` rounds. -/
def tlvWriteFor (fuel : Nat) (ctx : TlvCtx σ) (s : σ) (type : UInt16) (data : List UInt8) :
    Option Int × σ :=
  match ctx.storageImpl.read, ctx.storageImpl.write with
  | some _, some write =>
    match getNextFreeOffsetFor fuel ctx s with
    | (none, s) => (none, s)
    | (some nextFreeOffset, s) =>
      if Rejected ctx.endOffset nextFreeOffset data.length then (some (-enomem), s)
      else
        match write s nextFreeOffset (headerToBytes (makeHeader type data.length)) with
        | (ret, s) =>
          if ret ≠ 0 then (some ret, s)
          else tlvWriteLoop write data fuel (u32 (nextFreeOffset + headerSize)) 0 s
  | _, _ => (some (-einval), s)

def tlvWrite (ctx : TlvCtx σ) (s : σ) (type : UInt16) (data : List UInt8) : Option Int × σ :=
  tlvWriteFor loopFuel ctx s type data

/-! ## The start marker -/

def tlvReadStartMarker (ctx : TlvCtx σ) (s : σ) (dataSize : Nat) : Int × List UInt8 × σ :=
  match ctx.storageImpl.read with
  | none => (-einval, [], s)
  | some read =>
    if dataSize ≠ ctx.tlvStorageStartMarkerSize then (-enomem, [], s)
    else read s ctx.startOffset dataSize

def tlvWriteStartMarker (ctx : TlvCtx σ) (s : σ) (data : List UInt8) : Int × σ :=
  match ctx.storageImpl.write with
  | none => (-einval, s)
  | some write =>
    if data.length ≠ ctx.tlvStorageStartMarkerSize then (-enomem, s)
    else write s ctx.startOffset data

end Sidewalk.Tlv
