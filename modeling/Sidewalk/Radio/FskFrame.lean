import Mathlib
import Sidewalk.Lib.Memory
import Sidewalk.Radio.Halo

/-!
# FSK frames

`sid_pal_radio_prepare_fsk_for_tx` of both radio drivers, and how the SX126x driver takes a frame
out of the buffer of the radio. A frame is a header of two bytes, then the payload and its
checksum, whitened together.
-/

namespace Sidewalk.Radio.Fsk

open Sidewalk.Lib

/-! ## Parameters -/

inductive RadioError
  | none
  | invalidParams
  | ioError
  | notSupported
  | generic
  deriving DecidableEq, Repr

/-- Checksums and whitening as the drivers call them. -/
structure FskLib where
  computeCrc32 : List UInt8 → UInt32
  computeCrc16 : List UInt8 → UInt16
  performDataWhitening : UInt16 → List UInt8 → List UInt8

/-- Whitening undoes itself. -/
structure FskLib.Involutive (lib : FskLib) : Prop where
  length : ∀ seed bytes, (lib.performDataWhitening seed bytes).length = bytes.length
  involutive : ∀ seed bytes,
    lib.performDataWhitening seed (lib.performDataWhitening seed bytes) = bytes

/-- Those of both drivers. -/
def haloLib : FskLib := ⟨Halo.computeCrc32, Halo.computeCrc16, Halo.performDataWhitening⟩

theorem haloLib_involutive : haloLib.Involutive :=
  ⟨Halo.length_performDataWhitening, Halo.performDataWhitening_twice⟩

def fcsType0 : Nat := 0
def fcsType1 : Nat := 1
def phyHeaderLength : Nat := 2
def whiteningSeed : UInt16 := 0x01FF
def maxPayloadLengthWithFcsType0 : UInt8 := 251
def maxPayloadLengthWithFcsType1 : UInt8 := 253

structure PhyHdr where
  fcsType : Nat
  isDataWhiteningEnabled : Bool
  isFecEnabled : Bool

structure PacketParams where
  preambleLength : UInt16
  preambleMinDetect : UInt8
  syncWordLength : UInt8
  addrComp : UInt8
  headerType : UInt8
  payloadLength : UInt8
  crcType : UInt8
  radioWhiteningMode : UInt8

/-- A pointer that is `NULL` is `none`. -/
structure PktCfg where
  phyHdr : Option PhyHdr
  packetParams : Option PacketParams
  syncWord : Option Mem
  payload : Option Mem

/-- The values of a driver for the packet parameters. -/
structure Driver where
  addrCmpFiltOff : UInt8
  pktFixLen : UInt8
  crcOff : UInt8
  dcFreeOff : UInt8

def sx126x : Driver := ⟨0x00, 0x00, 0x01, 0x00⟩

def lr11xx : Driver := ⟨0x00, 0x00, 0x01, 0x00⟩

/-! ## Sending -/

section

variable (lib : FskLib)

/-- The checksum of the bytes as it is stored, or none for other types. -/
def fcsBytes (fcsType : Nat) (bytes : List UInt8) : Option (List UInt8) :=
  if fcsType = fcsType0 then
    let crc := lib.computeCrc32 bytes
    some [(crc >>> 24).toUInt8, (crc >>> 16).toUInt8, (crc >>> 8).toUInt8, (crc >>> 0).toUInt8]
  else if fcsType = fcsType1 then
    let crc := (lib.computeCrc16 bytes).toUInt32
    some [(crc >>> 8).toUInt8, (crc >>> 0).toUInt8]
  else none

/-- The payload is too long for the type of its checksum. -/
def tooLong (fcsType : Nat) (payloadLength : UInt8) : Prop :=
  fcsType = fcsType0 ∧ maxPayloadLengthWithFcsType0 < payloadLength ∨
    fcsType = fcsType1 ∧ maxPayloadLengthWithFcsType1 < payloadLength

instance (fcsType : Nat) (payloadLength : UInt8) : Decidable (tooLong fcsType payloadLength) := by
  unfold tooLong
  infer_instance

/-- The transmit buffer: the checksum, the payload behind the header, the header, whitening. -/
def txBuffer (phr : PhyHdr) (payloadLength : UInt8) (fcs : List UInt8) (buffer : Mem) : Mem :=
  let psduLength := payloadLength + UInt8.ofNat fcs.length
  let buffer := buffer.blit (phyHeaderLength + payloadLength.toNat) fcs
  let buffer := buffer.blit phyHeaderLength (buffer.slice 0 payloadLength.toNat)
  let buffer := buffer.blit 0 [UInt8.ofNat phr.fcsType <<< 4 +
    (if phr.isDataWhiteningEnabled then (1 : UInt8) else 0) <<< 3]
  let buffer := buffer.blit 1 [psduLength]
  if phr.isDataWhiteningEnabled then
    buffer.blit phyHeaderLength
      (lib.performDataWhitening whiteningSeed (buffer.slice phyHeaderLength psduLength.toNat))
  else buffer

def preparedParams (driver : Driver) (pp : PacketParams) (psduLength : UInt8) : PacketParams :=
  { pp with
    syncWordLength := 3
    addrComp := driver.addrCmpFiltOff
    headerType := driver.pktFixLen
    payloadLength := UInt8.ofNat phyHeaderLength + psduLength
    crcType := driver.crcOff
    radioWhiteningMode := driver.dcFreeOff }

def prepareFskForTx (driver : Driver) (cfg : Option PktCfg) : RadioError × Option PktCfg :=
  match cfg with
  | some ⟨some phr, some pp, some syncWord, some buffer⟩ =>
    if pp.payloadLength = 0 ∨ pp.preambleLength = 0 then (.invalidParams, cfg)
    else if tooLong phr.fcsType pp.payloadLength then (.invalidParams, cfg)
    else
      match fcsBytes lib phr.fcsType (buffer.slice 0 pp.payloadLength.toNat) with
      | some fcs =>
        (.none, some
          ⟨some phr, some (preparedParams driver pp (pp.payloadLength + UInt8.ofNat fcs.length)),
            some (syncWord.blit 0 [0x55, if phr.isFecEnabled then 0x6F else 0x90, 0x4E]),
            some (txBuffer lib phr pp.payloadLength fcs buffer)⟩)
      | none => (.notSupported, cfg)
  | _ => (.invalidParams, cfg)

/-! ## The radio -/

structure RxPacketStatus where
  rssiAvg : Int8
  rssiSync : Int8
  snr : Int8

structure RxPacket where
  status : RxPacketStatus
  rcvPayload : Mem
  payloadLen : UInt8

/-- What accesses to the radio give, `none` where one fails: the address register in each round of
the wait, where the last packet begins in the buffer, bytes of the buffer, a write of the length
register, and the measured strengths. -/
structure Chip where
  rxAddrPointer : Nat → Option UInt8
  bufferStartPointer : Option UInt8
  readBuffer : UInt8 → UInt8 → Option (List UInt8)
  writeRxtxPayloadLen : UInt8 → Option Unit
  rssiSync : Option (Int8 × Int8)

def swValidMarkerHigh : UInt8 := 0xAB
def swValidMarkerLow : UInt8 := 0xBA

/-- The wait for the header: an access that fails ends it, and `none` is a wait that goes on after
so many rounds. -/
def waitForHeader (chip : Chip) : Nat → Nat → UInt8 → Option RadioError
  | 0, _, _ => none
  | fuel + 1, round, tmp =>
    if tmp.toNat < phyHeaderLength then
      match chip.rxAddrPointer round with
      | some tmp => waitForHeader chip fuel (round + 1) tmp
      | none => some .ioError
    else some .none

/-- The error, the packet, and what was written to the length register. -/
def processSyncWordDetected (chip : Chip) (fuel : Nat) (rx : RxPacket) :
    Option (RadioError × RxPacket × Option UInt8) :=
  match waitForHeader chip fuel 0 0 with
  | none => none
  | some err =>
    some <| match chip.bufferStartPointer with
    | none => (.ioError, rx, none)
    | some start =>
      if err = .none then
        match chip.readBuffer start (UInt8.ofNat phyHeaderLength) with
        | none => (.ioError, rx, none)
        | some bytes =>
          let buffer := rx.rcvPayload.blit 0 bytes
          let length := UInt8.ofNat (((buffer 1).toNat + phyHeaderLength) % 256)
          match chip.writeRxtxPayloadLen length with
          | none => (.ioError, { rx with rcvPayload := buffer }, none)
          | some () =>
            (.none, { rx with rcvPayload := buffer.blit 2 [swValidMarkerHigh, swValidMarkerLow] },
              some length)
      else (err, rx, none)

inductive RxDoneStatus
  | ok
  | invalidParameter
  | invalidLength
  | badCrc
  | timeout
  | unknownError
  | swMarkNotPresent
  deriving DecidableEq, Repr

/-- The checksum of a received frame and its length, none for other types. -/
def rxCrc (fcsType : UInt8) (buffer : Mem) (length : UInt8) : Option (UInt32 × UInt8) :=
  if fcsType.toNat = fcsType0 then
    some (lib.computeCrc32 (buffer.slice 0 (length.toNat - 4)), 4)
  else if fcsType.toNat = fcsType1 then
    some ((lib.computeCrc16 (buffer.slice 0 (length.toNat - 2))).toUInt32, 2)
  else none

/-- The bytes behind the payload are those of the checksum. -/
def crcMatches (buffer : Mem) (payloadLen crcLength : UInt8) (crc : UInt32) : Bool :=
  (List.range crcLength.toNat).all fun i =>
    buffer (payloadLen.toNat + i) =
      (crc >>> UInt32.ofNat (8 * (crcLength.toNat - i - 1))).toUInt8

/-- From the checksum on; the status is one that the caller passed. -/
def finishRxDone (chip : Chip) (lnaGain : Int8) (fcsType length : UInt8) (rx : RxPacket)
    (status : RxDoneStatus) : RadioError × RxPacket × RxDoneStatus :=
  let crc := rxCrc lib fcsType rx.rcvPayload length
  let rx := if crc.isNone then { rx with payloadLen := 0 } else rx
  let err : RadioError := if crc.isNone then .generic else .none
  let status := if crc.isNone then .unknownError else status
  if status = .unknownError then (err, rx, status)
  else
    let rx := { rx with payloadLen := length - (crc.getD (0, 0)).2 }
    let good := crcMatches rx.rcvPayload rx.payloadLen (crc.getD (0, 0)).2 (crc.getD (0, 0)).1
    let err : RadioError := if good then err else .generic
    let status := if good then status else .badCrc
    match chip.rssiSync with
    | none => (.ioError, rx, .timeout)
    | some (sync, avg) =>
      (err, { rx with status := ⟨avg - lnaGain, sync - lnaGain, 0⟩ }, status)

def processRxDone (chip : Chip) (lnaGain : Int8) (rx : RxPacket) (status : RxDoneStatus) :
    RadioError × RxPacket × RxDoneStatus :=
  let buffer := rx.rcvPayload
  if buffer 2 ≠ swValidMarkerHigh ∨ buffer 3 ≠ swValidMarkerLow then
    (.generic, rx, .swMarkNotPresent)
  else
    let buffer := buffer.blit 2 [0x00, 0x00]
    let fcsType := buffer 0 >>> 4
    let isDataWhiteningEnabled : Bool := buffer 0 &&& ((1 : UInt8) <<< 3) ≠ 0
    let length := buffer 1
    let rx := { rx with rcvPayload := buffer }
    if fcsType.toNat = fcsType0 ∧ length ≤ 4 ∨ fcsType.toNat = fcsType1 ∧ length ≤ 2 then
      (.ioError, rx, .badCrc)
    else
      match chip.bufferStartPointer with
      | none => (.ioError, rx, status)
      | some start =>
        match chip.readBuffer (start + UInt8.ofNat phyHeaderLength) length with
        | none => (.ioError, rx, .timeout)
        | some bytes =>
          let buffer := buffer.blit 0 bytes
          let buffer := if isDataWhiteningEnabled then
              buffer.blit 0 (lib.performDataWhitening whiteningSeed (buffer.slice 0 length.toNat))
            else buffer
          finishRxDone lib chip lnaGain fcsType length { rx with rcvPayload := buffer } status

end

/-! ## What is sent -/

section

variable {lib : FskLib} {fcsType : Nat} {bytes fcs : List UInt8}

/-- How long the checksum is. -/
def fcsLength (fcsType : Nat) : Nat := if fcsType = fcsType0 then 4 else 2

theorem fcsBytes_cases (h : fcsBytes lib fcsType bytes = some fcs) :
    (fcsType = fcsType0 ∨ fcsType = fcsType1) ∧ fcs.length = fcsLength fcsType := by
  unfold fcsBytes at h
  by_cases h0 : fcsType = fcsType0
  · rw [if_pos h0] at h
    cases h
    subst h0
    exact ⟨.inl rfl, rfl⟩
  by_cases h1 : fcsType = fcsType1
  · rw [if_neg h0, if_pos h1] at h
    cases h
    subst h1
    exact ⟨.inr rfl, rfl⟩
  rw [if_neg h0, if_neg h1] at h
  cases h

/-- A payload that is not too long leaves room for its checksum. -/
theorem psdu_le {payloadLength : UInt8} (htype : fcsType = fcsType0 ∨ fcsType = fcsType1)
    (hlong : ¬tooLong fcsType payloadLength) :
    payloadLength.toNat + fcsLength fcsType ≤ 255 := by
  unfold tooLong at hlong
  obtain rfl | rfl := htype
  · have hle : payloadLength ≤ maxPayloadLengthWithFcsType0 := by
      rw [← UInt8.not_lt]
      exact fun hlt => hlong (.inl ⟨rfl, hlt⟩)
    have hle : payloadLength.toNat ≤ 251 := UInt8.le_iff_toNat_le.mp hle
    change payloadLength.toNat + 4 ≤ 255
    omega
  · have hle : payloadLength ≤ maxPayloadLengthWithFcsType1 := by
      rw [← UInt8.not_lt]
      exact fun hlt => hlong (.inr ⟨rfl, hlt⟩)
    have hle : payloadLength.toNat ≤ 253 := UInt8.le_iff_toNat_le.mp hle
    change payloadLength.toNat + 2 ≤ 255
    omega

theorem toNat_psdu {payloadLength : UInt8} {n : Nat} (h : payloadLength.toNat + n ≤ 255) :
    (payloadLength + UInt8.ofNat n).toNat = payloadLength.toNat + n := by
  rw [UInt8.toNat_add, UInt8.toNat_ofNat']
  omega

/-- What a prepared packet is. -/
theorem prepareFskForTx_accepted {driver : Driver} {phr phr' : PhyHdr} {pp pp' : PacketParams}
    {syncWord syncWord' buffer buffer' : Mem}
    (h : prepareFskForTx lib driver (some ⟨some phr, some pp, some syncWord, some buffer⟩) =
      (.none, some ⟨some phr', some pp', some syncWord', some buffer'⟩)) :
    pp.payloadLength ≠ 0 ∧ ¬tooLong phr.fcsType pp.payloadLength ∧
      ∃ fcs, fcsBytes lib phr.fcsType (buffer.slice 0 pp.payloadLength.toNat) = some fcs ∧
        pp'.payloadLength = UInt8.ofNat phyHeaderLength +
          (pp.payloadLength + UInt8.ofNat fcs.length) ∧
        buffer' = txBuffer lib phr pp.payloadLength fcs buffer := by
  simp only [prepareFskForTx] at h
  split at h
  · cases h
  next hempty =>
    split at h
    · cases h
    next hlong =>
      split at h
      next fcs hfcs =>
        cases h
        exact ⟨fun hzero => hempty (.inl hzero), hlong, fcs, hfcs, rfl, rfl⟩
      · cases h

/-- The first byte of the header. -/
def typeByte (phr : PhyHdr) : UInt8 :=
  UInt8.ofNat phr.fcsType <<< 4 + (if phr.isDataWhiteningEnabled then (1 : UInt8) else 0) <<< 3

/-- The payload and its checksum, as they are sent. -/
def whitened (lib : FskLib) (phr : PhyHdr) (bytes : List UInt8) : List UInt8 :=
  if phr.isDataWhiteningEnabled then lib.performDataWhitening whiteningSeed bytes else bytes

theorem txBuffer_frame (hlib : lib.Involutive) (phr : PhyHdr) (buffer : Mem) {payloadLength : UInt8}
    (hroom : payloadLength.toNat + fcs.length ≤ 255) :
    txBuffer lib phr payloadLength fcs buffer 0 = typeByte phr ∧
      txBuffer lib phr payloadLength fcs buffer 1 = payloadLength + UInt8.ofNat fcs.length ∧
      (txBuffer lib phr payloadLength fcs buffer).slice 2 (payloadLength.toNat + fcs.length) =
        whitened lib phr (buffer.slice 0 payloadLength.toNat ++ fcs) := by
  have hpsdu := toNat_psdu hroom
  -- The buffer after each write but the one of the whitening.
  let b₁ := buffer.blit (phyHeaderLength + payloadLength.toNat) fcs
  let b₂ := b₁.blit phyHeaderLength (b₁.slice 0 payloadLength.toNat)
  let b₃ := (b₂.blit 0 [typeByte phr]).blit 1 [payloadLength + UInt8.ofNat fcs.length]
  have hkept : b₁.slice 0 payloadLength.toNat = buffer.slice 0 payloadLength.toNat :=
    (Mem.agree_blit_below buffer fcs (Nat.le_refl _)).slice (Nat.zero_le _) (by omega)
  have hmoved : b₂.slice 2 payloadLength.toNat = buffer.slice 0 payloadLength.toNat := by
    have hslice := Mem.slice_blit b₁ phyHeaderLength (b₁.slice 0 payloadLength.toNat)
    rw [Mem.length_slice] at hslice
    exact hslice.trans hkept
  have hfcs : b₂.slice (2 + payloadLength.toNat) fcs.length = fcs := by
    have hbehind : Mem.Agree b₂ b₁ (2 + payloadLength.toNat)
        (2 + payloadLength.toNat + fcs.length) := by
      refine Mem.agree_blit_above b₁ _ ?_
      rw [Mem.length_slice]
      exact Nat.le_refl _
    exact (hbehind.slice (Nat.le_refl _) (Nat.le_refl _)).trans (Mem.slice_blit buffer _ fcs)
  have hbody : b₃.slice 2 (payloadLength.toNat + fcs.length) =
      buffer.slice 0 payloadLength.toNat ++ fcs := by
    have hheader : b₃.slice 2 (payloadLength.toNat + fcs.length) =
        b₂.slice 2 (payloadLength.toNat + fcs.length) := by
      refine Mem.slice_congr fun i _ => ?_
      have habove : b₃ (2 + i) = b₂.blit 0 [typeByte phr] (2 + i) :=
        Mem.blit_above (Nat.le_add_right 2 i)
      rw [habove, Mem.blit_above (Nat.le_trans (Nat.le_add_left 1 1) (Nat.le_add_right 2 i))]
    rw [hheader, Mem.slice_add, hmoved, hfcs]
  have hfirst : b₃ 0 = typeByte phr := rfl
  have hsecond : b₃ 1 = payloadLength + UInt8.ofNat fcs.length := rfl
  have hbuffer : txBuffer lib phr payloadLength fcs buffer =
      if phr.isDataWhiteningEnabled then
        b₃.blit 2 (lib.performDataWhitening whiteningSeed
          (b₃.slice 2 (payloadLength + UInt8.ofNat fcs.length).toNat))
      else b₃ := rfl
  rw [hbuffer, hpsdu, hbody]
  unfold whitened
  split
  · have hlen : (lib.performDataWhitening whiteningSeed
        (buffer.slice 0 payloadLength.toNat ++ fcs)).length = payloadLength.toNat + fcs.length := by
      rw [hlib.length, List.length_append, Mem.length_slice]
    refine ⟨(Mem.blit_below Nat.two_pos).trans hfirst,
      (Mem.blit_below Nat.one_lt_two).trans hsecond, ?_⟩
    rw [← hlen]
    exact Mem.slice_blit _ _ _
  · exact ⟨hfirst, hsecond, hbody⟩

end

/-! ## What is received -/

/-- The buffer of the radio holds so many bytes of the frame where the packet begins, the header
has arrived at some time, and accesses succeed. -/
structure Chip.Receives (chip : Chip) (frame : Mem) (n : Nat) : Prop where
  polls : ∀ round, (chip.rxAddrPointer round).isSome = true
  header : ∃ round tmp, chip.rxAddrPointer round = some tmp ∧ phyHeaderLength ≤ tmp.toNat
  holds : ∃ start, ∃ ring : UInt8 → UInt8, chip.bufferStartPointer = some start ∧
    (∀ offset size, chip.readBuffer offset size =
      some ((List.range size.toNat).map fun i => ring (offset + UInt8.ofNat i))) ∧
    ∀ i < n, ring (start + UInt8.ofNat i) = frame i
  writes : ∀ length, chip.writeRxtxPayloadLen length = some ()
  measures : chip.rssiSync.isSome = true

/-- The length that is programmed covers the frame, and the payload is delivered. -/
def RoundTrip (lib : FskLib) (chip : Chip) (lnaGain : Int8) (rx : RxPacket) (status : RxDoneStatus)
    (payload : List UInt8) (frameLength : Nat) : Prop :=
  ∃ fuel rx₁ length, processSyncWordDetected chip fuel rx = some (.none, rx₁, some length) ∧
    frameLength ≤ length.toNat ∧
    ∃ rx₂ status', processRxDone lib chip lnaGain rx₁ status = (.none, rx₂, status') ∧
      rx₂.payloadLen.toNat = payload.length ∧
      rx₂.rcvPayload.slice 0 payload.length = payload

section

variable {lib : FskLib} {chip : Chip} {frame : Mem} {n : Nat}

theorem waitForHeader_ends (h : chip.Receives frame n) {k : Nat} :
    ∀ {round : Nat} (tmp : UInt8) {tmp' : UInt8}, chip.rxAddrPointer (round + k) = some tmp' →
      phyHeaderLength ≤ tmp'.toNat → ∃ fuel, waitForHeader chip fuel round tmp = some .none := by
  induction k with
  | zero =>
    intro round tmp tmp' hpoll henough
    by_cases hmore : tmp.toNat < phyHeaderLength
    · refine ⟨2, ?_⟩
      have hpoll : chip.rxAddrPointer round = some tmp' := hpoll
      simp only [waitForHeader, if_pos hmore, hpoll, if_neg (Nat.not_lt.mpr henough)]
    · exact ⟨1, by simp only [waitForHeader, if_neg hmore]⟩
  | succ k ih =>
    intro round tmp tmp' hpoll henough
    by_cases hmore : tmp.toNat < phyHeaderLength
    · obtain ⟨next, hnext⟩ := Option.isSome_iff_exists.mp (h.polls round)
      rw [Nat.add_comm k 1, ← Nat.add_assoc] at hpoll
      obtain ⟨fuel, hfuel⟩ := ih next hpoll henough
      exact ⟨fuel + 1, by simp only [waitForHeader, if_pos hmore, hnext, hfuel]⟩
    · exact ⟨1, by simp only [waitForHeader, if_neg hmore]⟩

/-- A read inside the frame. -/
theorem readBuffer_frame {start : UInt8} {ring : UInt8 → UInt8}
    (hring : ∀ i < n, ring (start + UInt8.ofNat i) = frame i) {o : Nat} (size : UInt8)
    (hin : o + size.toNat ≤ n) :
    ((List.range size.toNat).map fun i => ring (start + UInt8.ofNat o + UInt8.ofNat i)) =
      frame.slice o size.toNat := by
  apply List.ext_getElem?
  intro i
  rw [Mem.getElem?_slice, List.getElem?_map]
  by_cases hi : i < size.toNat
  · rw [if_pos hi, List.getElem?_range hi, Option.map_some, UInt8.add_assoc, ← UInt8.ofNat_add,
      hring _ (by omega)]
  · rw [if_neg hi, List.getElem?_eq_none (by
      rw [List.length_range]
      omega)]
    rfl

theorem processSyncWordDetected_frame (h : chip.Receives frame n) (hn : 2 ≤ n) (rx : RxPacket) :
    ∃ fuel, processSyncWordDetected chip fuel rx = some (.none,
      { rx with
        rcvPayload := (rx.rcvPayload.blit 0 [frame 0, frame 1]).blit 2
          [swValidMarkerHigh, swValidMarkerLow] },
      some (UInt8.ofNat (((frame 1).toNat + phyHeaderLength) % 256))) := by
  obtain ⟨start, ring, hstart, hread, hring⟩ := h.holds
  obtain ⟨round, tmp, hpoll, henough⟩ := h.header
  rw [← Nat.zero_add round] at hpoll
  obtain ⟨fuel, hwait⟩ := waitForHeader_ends h 0 hpoll henough
  have hheader := readBuffer_frame hring (o := 0) 2 hn
  have hbytes : chip.readBuffer start (UInt8.ofNat phyHeaderLength) = some [frame 0, frame 1] := by
    rw [hread]
    rw [show start + UInt8.ofNat 0 = start from UInt8.add_zero start] at hheader
    exact congrArg some hheader
  refine ⟨fuel, ?_⟩
  simp only [processSyncWordDetected, hwait, hstart, if_true, hbytes, h.writes]
  rfl

/-- The checksum behind the payload matches. -/
theorem rxCrc_matches {fcsType length : UInt8} {buffer : Mem} {payload fcs : List UInt8}
    (hfcs : fcsBytes lib fcsType.toNat payload = some fcs)
    (hlength : length.toNat = payload.length + fcs.length)
    (hslice : buffer.slice 0 length.toNat = payload ++ fcs) :
    ∃ crc crcLength, rxCrc lib fcsType buffer length = some (crc, crcLength) ∧
      (length - crcLength).toNat = payload.length ∧
      crcMatches buffer (length - crcLength) crcLength crc = true := by
  rw [hlength, ← List.length_append, Mem.slice_append_iff, Nat.zero_add] at hslice
  obtain ⟨hpayload, hbehind⟩ := hslice
  unfold fcsBytes at hfcs
  unfold rxCrc
  by_cases h0 : fcsType.toNat = fcsType0
  · rw [if_pos h0] at hfcs ⊢
    cases hfcs
    have hlength : length.toNat = payload.length + 4 := hlength
    have hrest : (length - 4).toNat = payload.length := by
      rw [UInt8.toNat_sub_of_le _ _ (UInt8.le_iff_toNat_le.mpr (by
        rw [hlength]
        exact Nat.le_add_left 4 _)), hlength]
      rfl
    have hsub : length.toNat - 4 = payload.length := by omega
    refine ⟨_, _, rfl, hrest, ?_⟩
    rw [hsub, hpayload]
    have hbytes := hbehind
    simp only [List.length_cons, List.length_nil, Mem.slice, List.cons.injEq] at hbytes
    unfold crcMatches
    rw [hrest]
    have hrange : List.range (4 : UInt8).toNat = [0, 1, 2, 3] := rfl
    simp only [hrange, List.all_cons, List.all_nil, Bool.and_true, Bool.and_eq_true,
      decide_eq_true_eq]
    exact ⟨hbytes.1, hbytes.2.1, hbytes.2.2.1, hbytes.2.2.2.1⟩
  by_cases h1 : fcsType.toNat = fcsType1
  · rw [if_neg h0, if_pos h1] at hfcs ⊢
    cases hfcs
    have hlength : length.toNat = payload.length + 2 := hlength
    have hrest : (length - 2).toNat = payload.length := by
      rw [UInt8.toNat_sub_of_le _ _ (UInt8.le_iff_toNat_le.mpr (by
        rw [hlength]
        exact Nat.le_add_left 2 _)), hlength]
      rfl
    have hsub : length.toNat - 2 = payload.length := by omega
    refine ⟨_, _, rfl, hrest, ?_⟩
    rw [hsub, hpayload]
    have hbytes := hbehind
    simp only [List.length_cons, List.length_nil, Mem.slice, List.cons.injEq] at hbytes
    unfold crcMatches
    rw [hrest]
    have hrange : List.range (2 : UInt8).toNat = [0, 1] := rfl
    simp only [hrange, List.all_cons, List.all_nil, Bool.and_true, Bool.and_eq_true,
      decide_eq_true_eq]
    exact ⟨hbytes.1, hbytes.2.1⟩
  rw [if_neg h0, if_neg h1] at hfcs
  cases hfcs

theorem finishRxDone_good (lnaGain : Int8) {fcsType length : UInt8} (rx : RxPacket)
    {status : RxDoneStatus} {payload fcs : List UInt8} (hmeasures : chip.rssiSync.isSome = true)
    (hstatus : status ≠ .unknownError) (hfcs : fcsBytes lib fcsType.toNat payload = some fcs)
    (hlength : length.toNat = payload.length + fcs.length)
    (hslice : rx.rcvPayload.slice 0 length.toNat = payload ++ fcs) :
    ∃ rx', finishRxDone lib chip lnaGain fcsType length rx status = (.none, rx', status) ∧
      rx'.payloadLen.toNat = payload.length ∧ rx'.rcvPayload.slice 0 payload.length = payload := by
  obtain ⟨crc, crcLength, hcrc, hrest, hmatches⟩ := rxCrc_matches hfcs hlength hslice
  obtain ⟨⟨sync, avg⟩, hrssi⟩ := Option.isSome_iff_exists.mp hmeasures
  have hpayload : rx.rcvPayload.slice 0 payload.length = payload := by
    rw [hlength, ← List.length_append, Mem.slice_append_iff] at hslice
    exact hslice.1
  refine ⟨{ rx with payloadLen := length - crcLength, status := ⟨avg - lnaGain, sync - lnaGain, 0⟩ },
    ?_, hrest, hpayload⟩
  simp only [finishRxDone, hcrc, Option.isNone_some, Bool.false_eq_true, if_false, hstatus,
    Option.getD_some, hmatches, if_true, hrssi]

theorem typeByte_fcsType {phr : PhyHdr} (htype : phr.fcsType = fcsType0 ∨ phr.fcsType = fcsType1) :
    (typeByte phr >>> 4).toNat = phr.fcsType := by
  have hbits : ∀ whitening : Bool, ∀ fcsType, fcsType = fcsType0 ∨ fcsType = fcsType1 →
      ((UInt8.ofNat fcsType <<< 4 + (if whitening then (1 : UInt8) else 0) <<< 3) >>> 4).toNat =
        fcsType := by
    rintro whitening fcsType (rfl | rfl)
    · revert whitening
      decide
    · revert whitening
      decide
  exact hbits phr.isDataWhiteningEnabled phr.fcsType htype

theorem typeByte_whitening {phr : PhyHdr}
    (htype : phr.fcsType = fcsType0 ∨ phr.fcsType = fcsType1) :
    decide (typeByte phr &&& ((1 : UInt8) <<< 3) ≠ 0) = phr.isDataWhiteningEnabled := by
  have hbits : ∀ whitening : Bool, ∀ fcsType, fcsType = fcsType0 ∨ fcsType = fcsType1 →
      decide ((UInt8.ofNat fcsType <<< 4 + (if whitening then (1 : UInt8) else 0) <<< 3) &&&
        ((1 : UInt8) <<< 3) ≠ 0) = whitening := by
    rintro whitening fcsType (rfl | rfl)
    · revert whitening
      decide
    · revert whitening
      decide
  exact hbits phr.isDataWhiteningEnabled phr.fcsType htype

/-- The whitened bytes, whitened once more where the header says so. -/
theorem unwhiten (hlib : lib.Involutive) {phr : PhyHdr} {buffer : Mem} {bytes : List UInt8} :
    (if phr.isDataWhiteningEnabled = true then
        (buffer.blit 0 (whitened lib phr bytes)).blit 0 (lib.performDataWhitening whiteningSeed
          ((buffer.blit 0 (whitened lib phr bytes)).slice 0 bytes.length))
      else buffer.blit 0 (whitened lib phr bytes)).slice 0 bytes.length = bytes := by
  unfold whitened
  cases phr.isDataWhiteningEnabled with
  | false => exact Mem.slice_blit buffer 0 bytes
  | true =>
    simp only [if_true]
    have hlen := hlib.length whiteningSeed bytes
    have hread := Mem.slice_blit buffer 0 (lib.performDataWhitening whiteningSeed bytes)
    rw [hlen] at hread
    rw [hread, hlib.involutive]
    exact Mem.slice_blit _ 0 bytes

/-- A frame in the buffer of the radio is read up to its checksum. -/
theorem processRxDone_frame (hlib : lib.Involutive) (h : chip.Receives frame n) {phr : PhyHdr}
    {payload fcs : List UInt8} (hfcs : fcsBytes lib phr.fcsType payload = some fcs)
    (hfirst : frame 0 = typeByte phr) (hsecond : (frame 1).toNat = payload.length + fcs.length)
    (hbody : frame.slice 2 (payload.length + fcs.length) = whitened lib phr (payload ++ fcs))
    (hpayload : 0 < payload.length) (hn : 2 + (payload.length + fcs.length) ≤ n) (lnaGain : Int8)
    (rx : RxPacket) (status : RxDoneStatus) :
    ∃ buffer, processRxDone lib chip lnaGain
        { rx with
          rcvPayload := (rx.rcvPayload.blit 0 [frame 0, frame 1]).blit 2
            [swValidMarkerHigh, swValidMarkerLow] } status =
        finishRxDone lib chip lnaGain (frame 0 >>> 4) (frame 1) { rx with rcvPayload := buffer }
          status ∧
      buffer.slice 0 (payload.length + fcs.length) = payload ++ fcs := by
  obtain ⟨start, ring, hstart, hread, hring⟩ := h.holds
  obtain ⟨htype, hlen⟩ := fcsBytes_cases hfcs
  have hfcsType : (frame 0 >>> 4).toNat = phr.fcsType := by
    rw [hfirst]
    exact typeByte_fcsType htype
  have hbytes : chip.readBuffer (start + UInt8.ofNat phyHeaderLength) (frame 1) =
      some (whitened lib phr (payload ++ fcs)) := by
    rw [hread, readBuffer_frame hring _ (by
      rw [hsecond]
      exact hn), hsecond]
    exact congrArg some hbody
  have hlong : ¬((frame 0 >>> 4).toNat = fcsType0 ∧ frame 1 ≤ 4 ∨
      (frame 0 >>> 4).toNat = fcsType1 ∧ frame 1 ≤ 2) := by
    rw [hfcsType, UInt8.le_iff_toNat_le, UInt8.le_iff_toNat_le, hsecond, hlen]
    rintro (⟨hzero, hle⟩ | ⟨hone, hle⟩)
    · rw [hzero] at hle
      have hle : payload.length + 4 ≤ 4 := hle
      omega
    · rw [hone] at hle
      have hle : payload.length + 2 ≤ 2 := hle
      omega
  let cleared := ((rx.rcvPayload.blit 0 [frame 0, frame 1]).blit 2
    [swValidMarkerHigh, swValidMarkerLow]).blit 2 [0x00, 0x00]
  have hmarker : ¬(((rx.rcvPayload.blit 0 [frame 0, frame 1]).blit 2
      [swValidMarkerHigh, swValidMarkerLow]) 2 ≠ swValidMarkerHigh ∨
      ((rx.rcvPayload.blit 0 [frame 0, frame 1]).blit 2
        [swValidMarkerHigh, swValidMarkerLow]) 3 ≠ swValidMarkerLow) := by
    rintro (hne | hne)
    · exact hne rfl
    · exact hne rfl
  have hrun : processRxDone lib chip lnaGain
      { rx with
        rcvPayload := (rx.rcvPayload.blit 0 [frame 0, frame 1]).blit 2
          [swValidMarkerHigh, swValidMarkerLow] } status =
      finishRxDone lib chip lnaGain (frame 0 >>> 4) (frame 1)
        { rx with
          rcvPayload :=
            if decide (frame 0 &&& ((1 : UInt8) <<< 3) ≠ 0) = true then
              (cleared.blit 0 (whitened lib phr (payload ++ fcs))).blit 0
                (lib.performDataWhitening whiteningSeed
                  ((cleared.blit 0 (whitened lib phr (payload ++ fcs))).slice 0 (frame 1).toNat))
            else cleared.blit 0 (whitened lib phr (payload ++ fcs)) } status := by
    have hone : cleared 1 = frame 1 := rfl
    have hzero : cleared 0 = frame 0 := rfl
    unfold processRxDone
    simp only [if_neg hmarker]
    change (if (cleared 0 >>> 4).toNat = fcsType0 ∧ cleared 1 ≤ 4 ∨
      (cleared 0 >>> 4).toNat = fcsType1 ∧ cleared 1 ≤ 2 then _ else _) = _
    rw [hzero, hone, if_neg hlong]
    have hsize : chip.readBuffer (start + UInt8.ofNat phyHeaderLength)
        (((rx.rcvPayload.blit 0 [frame 0, frame 1]).blit 2
          [swValidMarkerHigh, swValidMarkerLow]).blit 2 [0x00, 0x00] 1) =
        some (whitened lib phr (payload ++ fcs)) := hbytes
    simp only [hstart, hsize]
    rfl
  refine ⟨_, hrun, ?_⟩
  rw [hfirst, typeByte_whitening htype, hsecond, ← List.length_append]
  exact unwhiten hlib

/-- The length of the packet is left alone until the end of the frame. -/
theorem processSyncWordDetected_payloadLen {fuel : Nat} {rx rx' : RxPacket} {err : RadioError}
    {length : Option UInt8} (h : processSyncWordDetected chip fuel rx = some (err, rx', length)) :
    rx'.payloadLen = rx.payloadLen := by
  unfold processSyncWordDetected at h
  split at h
  · cases h
  simp only [Option.some.injEq] at h
  split at h
  · cases h
    rfl
  split at h
  · split at h
    · cases h
      rfl
    · split at h
      · cases h
        rfl
      · cases h
        rfl
  · cases h
    rfl

/-- Nor is it set where the status is the unknown error from the start. -/
theorem processRxDone_unknown {lnaGain : Int8} {rx rx' : RxPacket} {err : RadioError}
    {status : RxDoneStatus} (hrx : rx.payloadLen = 0)
    (h : processRxDone lib chip lnaGain rx .unknownError = (err, rx', status)) :
    rx'.payloadLen = 0 := by
  have hfinish (fcsType length : UInt8) (rx₁ : RxPacket) (hrx₁ : rx₁.payloadLen = 0) :
      (finishRxDone lib chip lnaGain fcsType length rx₁ .unknownError).2.1.payloadLen = 0 := by
    unfold finishRxDone
    cases rxCrc lib fcsType rx₁.rcvPayload length with
    | none => rfl
    | some crc => exact hrx₁
  unfold processRxDone at h
  simp only at h
  split at h
  · cases h
    exact hrx
  split at h
  · cases h
    exact hrx
  split at h
  · cases h
    exact hrx
  split at h
  · cases h
    exact hrx
  next bytes _ =>
    rw [← congrArg (fun r => r.2.1.payloadLen) h]
    exact hfinish _ _ _ hrx

/-- A radio that holds the whole frame. -/
def holding (frame : Mem) : Chip where
  rxAddrPointer _ := some 2
  bufferStartPointer := some 0
  readBuffer offset size :=
    some ((List.range size.toNat).map fun i => frame (offset + UInt8.ofNat i).toNat)
  writeRxtxPayloadLen _ := some ()
  rssiSync := some (0, 0)

theorem holding_receives (frame : Mem) (size : UInt8) :
    (holding frame).Receives frame size.toNat where
  polls _ := rfl
  header := ⟨0, 2, rfl, Nat.le_refl 2⟩
  holds := by
    refine ⟨0, fun address => frame address.toNat, rfl, fun _ _ => rfl, fun i hi => ?_⟩
    have hlt : i < 256 := Nat.lt_trans hi (UInt8.toNat_lt size)
    change frame (0 + UInt8.ofNat i).toNat = frame i
    rw [UInt8.zero_add, UInt8.toNat_ofNat', Nat.mod_eq_of_lt hlt]
  writes _ := rfl
  measures := rfl

end

/-- The length register has one byte. -/
theorem RoundTrip.frameLength_lt {lib : FskLib} {chip : Chip} {lnaGain : Int8} {rx : RxPacket}
    {status : RxDoneStatus} {payload : List UInt8} {frameLength : Nat}
    (h : RoundTrip lib chip lnaGain rx status payload frameLength) : frameLength < 256 := by
  obtain ⟨_, _, length, _, hcovers, _⟩ := h
  exact Nat.lt_of_le_of_lt hcovers (UInt8.toNat_lt length)

/-- A prepared packet comes back from the radio exactly if its length did not wrap, unless the
status that the caller passes is the unknown error from the start. -/
theorem fskRoundTrip_iff {lib : FskLib} (hlib : lib.Involutive) (driver : Driver) {phr phr' : PhyHdr}
    {pp pp' : PacketParams} {syncWord syncWord' buffer buffer' : Mem}
    (haccepted : prepareFskForTx lib driver
        (some ⟨some phr, some pp, some syncWord, some buffer⟩) =
      (.none, some ⟨some phr', some pp', some syncWord', some buffer'⟩))
    (lnaGain : Int8) (status : RxDoneStatus) :
    (∀ chip rx, chip.Receives buffer' pp'.payloadLength.toNat →
      RoundTrip lib chip lnaGain rx status (buffer.slice 0 pp.payloadLength.toNat)
        (phyHeaderLength + (pp.payloadLength.toNat + fcsLength phr.fcsType))) ↔
    pp.payloadLength.toNat + fcsLength phr.fcsType ≤ 253 ∧ status ≠ .unknownError := by
  obtain ⟨hnonempty, hlong, fcs, hfcs, hlength', rfl⟩ := prepareFskForTx_accepted haccepted
  obtain ⟨htype, hlen⟩ := fcsBytes_cases hfcs
  have hroom := psdu_le htype hlong
  rw [← hlen] at hroom ⊢
  have hpsdu := toNat_psdu hroom
  obtain ⟨hfirst, hsecond, hbody⟩ := txBuffer_frame hlib phr buffer hroom
  have hpayload : (buffer.slice 0 pp.payloadLength.toNat).length = pp.payloadLength.toNat :=
    Mem.length_slice _ _ _
  have hpos : 0 < (buffer.slice 0 pp.payloadLength.toNat).length := by
    rw [hpayload, Nat.pos_iff_ne_zero]
    exact fun hzero => hnonempty (UInt8.toNat_inj.mp hzero)
  have hread (hfits : pp.payloadLength.toNat + fcs.length ≤ 253) :
      pp'.payloadLength.toNat = 2 + (pp.payloadLength.toNat + fcs.length) := by
    rw [hlength', UInt8.toNat_add, hpsdu]
    change (2 + (pp.payloadLength.toNat + fcs.length)) % 256 = _
    omega
  constructor
  · intro h
    have hholding := holding_receives
      (txBuffer lib phr pp.payloadLength fcs buffer) pp'.payloadLength
    have hfits : pp.payloadLength.toNat + fcs.length ≤ 253 := by
      have hlt := (h _ ⟨⟨0, 0, 0⟩, fun _ => 0, 0⟩ hholding).frameLength_lt
      change 2 + (pp.payloadLength.toNat + fcs.length) < 256 at hlt
      omega
    refine ⟨hfits, ?_⟩
    rintro rfl
    -- The length of the packet stays the one from before.
    obtain ⟨_, rx₁, _, hsync, _, rx₂, _, hdone, hlen₂, _⟩ :=
      h _ ⟨⟨0, 0, 0⟩, fun _ => 0, 0⟩ hholding
    have hzero := processRxDone_unknown (processSyncWordDetected_payloadLen hsync) hdone
    rw [hzero] at hlen₂
    exact absurd hlen₂ (Nat.ne_of_lt hpos)
  · rintro ⟨hfits, hstatus⟩ chip rx hchip
    have hn : 2 + (pp.payloadLength.toNat + fcs.length) ≤ pp'.payloadLength.toNat :=
      Nat.le_of_eq (hread hfits).symm
    have hsecond' : (txBuffer lib phr pp.payloadLength fcs buffer 1).toNat =
        (buffer.slice 0 pp.payloadLength.toNat).length + fcs.length := by
      rw [hsecond, hpsdu, hpayload]
    have hbody' : (txBuffer lib phr pp.payloadLength fcs buffer).slice 2
        ((buffer.slice 0 pp.payloadLength.toNat).length + fcs.length) =
        whitened lib phr (buffer.slice 0 pp.payloadLength.toNat ++ fcs) := by
      rw [hpayload]
      exact hbody
    obtain ⟨fuel, hsync⟩ := processSyncWordDetected_frame hchip (by omega) rx
    obtain ⟨received, hdone, hslice⟩ := processRxDone_frame hlib hchip hfcs hfirst hsecond' hbody'
      hpos (hpayload.symm ▸ hn) lnaGain rx status
    have hfcs' : fcsBytes lib (txBuffer lib phr pp.payloadLength fcs buffer 0 >>> 4).toNat
        (buffer.slice 0 pp.payloadLength.toNat) = some fcs := by
      rw [hfirst, typeByte_fcsType htype]
      exact hfcs
    obtain ⟨rx', hfinish, hlen', hdelivered⟩ := finishRxDone_good lnaGain
      { rx with rcvPayload := received } hchip.measures hstatus hfcs' hsecond'
      (hsecond' ▸ hslice)
    refine ⟨fuel, _, _, hsync, ?_, rx', status, hdone.trans hfinish, hlen', hdelivered⟩
    rw [hsecond', hpayload, UInt8.toNat_ofNat']
    change 2 + (pp.payloadLength.toNat + fcs.length) ≤
      (pp.payloadLength.toNat + fcs.length + 2) % 256 % 256
    omega

/-- A payload with the long checksum, whitened or not. -/
def longCfg (whitening : Bool) (payloadLength : UInt8) (payload : Mem) : PktCfg :=
  ⟨some ⟨0, whitening, false⟩, some ⟨1, 0, 0, 0, 0, payloadLength, 0, 0⟩, some fun _ => 0,
    some payload⟩

def longFcs (payloadLength : UInt8) (payload : Mem) : List UInt8 :=
  let crc := haloLib.computeCrc32 (payload.slice 0 payloadLength.toNat)
  [(crc >>> 24).toUInt8, (crc >>> 16).toUInt8, (crc >>> 8).toUInt8, (crc >>> 0).toUInt8]

theorem prepareFskForTx_long (whitening : Bool) {n : UInt8} (hpos : n ≠ 0) (hlong : n ≤ 251)
    (payload : Mem) :
    prepareFskForTx haloLib sx126x (some (longCfg whitening n payload)) =
      (.none, some ⟨some ⟨0, whitening, false⟩, some ⟨1, 0, 3, 0, 0, 2 + (n + 4), 1, 0⟩,
        some (Mem.blit (fun _ => 0) 0 [0x55, 0x90, 0x4E]),
        some (txBuffer haloLib ⟨0, whitening, false⟩ n (longFcs n payload) payload)⟩) := by
  have hempty : ¬(n = 0 ∨ (1 : UInt16) = 0) := not_or.mpr ⟨hpos, by decide⟩
  have hfits : ¬tooLong 0 n := by
    unfold tooLong
    rintro (⟨-, h⟩ | ⟨h, -⟩)
    · exact absurd hlong (UInt8.not_le.mpr h)
    · cases h
  have hfcs : fcsBytes haloLib 0 (payload.slice 0 n.toNat) = some (longFcs n payload) := rfl
  unfold prepareFskForTx longCfg
  simp only [if_neg hempty, if_neg hfits, hfcs]
  rfl

/-- The bytes from `0xA0` on. -/
def countingPayload : Mem := fun i => 0xA0 + UInt8.ofNat i

/-- Six bytes, whitened together with their checksum. -/
theorem roundTrip_six :
    RoundTrip haloLib
      (holding (txBuffer haloLib ⟨0, true, false⟩ 6 (longFcs 6 countingPayload) countingPayload)) 0
      ⟨⟨0, 0, 0⟩, fun _ => 0, 0⟩ .ok [0xA0, 0xA1, 0xA2, 0xA3, 0xA4, 0xA5] 12 := by
  have haccepted := prepareFskForTx_long true (n := 6) (by decide) (by decide) countingPayload
  exact (fskRoundTrip_iff haloLib_involutive sx126x haccepted 0 .ok).mpr ⟨by decide, by decide⟩ _ _
    (holding_receives _ 12)

/-- A payload of 251 bytes is accepted, and its length is prepared as one byte. -/
theorem roundTrip_wraps : ∃ buffer',
    prepareFskForTx haloLib sx126x (some (longCfg false 251 countingPayload)) =
      (.none, some ⟨some ⟨0, false, false⟩, some ⟨1, 0, 3, 0, 0, 1, 1, 0⟩,
        some (Mem.blit (fun _ => 0) 0 [0x55, 0x90, 0x4E]), some buffer'⟩) ∧
    ¬∀ chip rx, chip.Receives buffer' 1 →
      RoundTrip haloLib chip 0 rx .ok (countingPayload.slice 0 251) 257 := by
  refine ⟨_, prepareFskForTx_long false (n := 251) (by decide) (by decide) countingPayload,
    fun h => ?_⟩
  have hlt := (h _ ⟨⟨0, 0, 0⟩, fun _ => 0, 0⟩ (holding_receives _ 1)).frameLength_lt
  exact absurd hlt (by decide)

end Sidewalk.Radio.Fsk
