import Sidewalk.Radio.FskFrame
import Sidewalk.Radio.Interface
import Sidewalk.Timer.Basic

/-!
# Packets of an interrupt

What the interrupt routines of both drivers read of a packet. A LoRa packet is read the same way
by both; an FSK packet too, once the length of the packet was written while its header was
received.
-/

namespace Sidewalk.Radio.Interrupts

open Lib Timer

/-! ## LoRa -/

/-- What accesses to the radio give, `none` where one fails: the length of a packet and where it
begins, bytes of the buffer, the measured strengths, and whether the header announces a
checksum. -/
structure LoraChip where
  rxBufferStatus : Option (UInt8 × UInt8)
  readBuffer : UInt8 → UInt8 → Option (List UInt8)
  pktStatus : Option (Int8 × Int8 × Int8)
  paramsFromHeader : Option Bool

/-- `sid_pal_radio_lora_crc_present_t`. -/
inductive CrcPresent
  | invalid
  | off
  | on
  deriving DecidableEq

structure LoraRxPacketStatus where
  rssi : Int16
  snr : Int8
  signalRssi : Int8
  isCrcPresent : CrcPresent

/-- `sid_pal_radio_rx_packet_t`, but for its data rate. -/
structure Received where
  lora : LoraRxPacketStatus
  fsk : Fsk.RxPacketStatus
  rcvTm : SidTimespec
  rcvPayload : Mem
  payloadLen : UInt8

def rxPayloadMaxSize : UInt8 := 255

def radioErrorNomem : Int := -5

def getPayload (chip : LoraChip) (maxSize : UInt8) (rx : Received) : Int × Received :=
  match chip.rxBufferStatus with
  | none => (RadioFailure.ioError.code, rx)
  | some (length, start) =>
    if maxSize < length then (radioErrorNomem, rx)
    else
      match chip.readBuffer start length with
      | none => (RadioFailure.ioError.code, rx)
      | some bytes =>
        (radioErrorNone, { rx with rcvPayload := rx.rcvPayload.blit 0 bytes, payloadLen := length })

def getLoraCrcPresentInHeader (chip : LoraChip) : Int × CrcPresent :=
  match chip.paramsFromHeader with
  | none => (radioErrorGeneric, .invalid)
  | some isCrcOn => (radioErrorNone, if isCrcOn then .on else .off)

/-- `radio_lora_process_rx_done`. -/
def loraProcessRxDone (chip : LoraChip) (lnaGain : Int8) (rx : Received) : Int × Received :=
  let (err, rx) := getPayload chip rxPayloadMaxSize rx
  if err ≠ radioErrorNone then (err, rx)
  else
    match chip.pktStatus with
    | none => (RadioFailure.ioError.code, rx)
    | some (rssi, snr, signalRssi) =>
      let rssi := rssi.toInt16 - lnaGain.toInt16
      let rssi := if snr < 0 then rssi + snr.toInt16 else rssi
      let (err, isCrcPresent) := getLoraCrcPresentInHeader chip
      (err, { rx with lora := ⟨rssi, snr, signalRssi - lnaGain, isCrcPresent⟩ })

/-- Every access that reads the packet succeeds. -/
def LoraChip.Readable (chip : LoraChip) : Prop :=
  (∃ length start, chip.rxBufferStatus = some (length, start) ∧
    (chip.readBuffer start length).isSome) ∧ chip.pktStatus.isSome ∧ chip.paramsFromHeader.isSome

section

variable {chip : LoraChip} {rx : Received}

theorem getPayload_eq_none_iff (rx : Received) :
    (getPayload chip rxPayloadMaxSize rx).1 = radioErrorNone ↔
      ∃ length start, chip.rxBufferStatus = some (length, start) ∧
        (chip.readBuffer start length).isSome := by
  unfold getPayload
  cases hstatus : chip.rxBufferStatus with
  | none => exact iff_of_false (RadioFailure.code_ne_none .ioError) fun ⟨_, _, h, _⟩ => by cases h
  | some status =>
    obtain ⟨length, start⟩ := status
    have hsize : ¬rxPayloadMaxSize < length := by
      rw [UInt8.not_lt, UInt8.le_iff_toNat_le]
      exact Nat.le_of_lt_succ length.toNat_lt
    simp only [if_neg hsize, Option.some.injEq, Prod.mk.injEq]
    cases hbytes : chip.readBuffer start length with
    | none =>
      refine iff_of_false (RadioFailure.code_ne_none .ioError) ?_
      rintro ⟨length', start', ⟨rfl, rfl⟩, h⟩
      rw [hbytes] at h
      cases h
    | some bytes => exact iff_of_true rfl ⟨length, start, ⟨rfl, rfl⟩, by rw [hbytes]; rfl⟩

theorem loraProcessRxDone_eq_none_iff (lnaGain : Int8) :
    (loraProcessRxDone chip lnaGain rx).1 = radioErrorNone ↔ chip.Readable := by
  unfold loraProcessRxDone LoraChip.Readable
  rw [← getPayload_eq_none_iff rx]
  simp only
  split
  · next herr => exact iff_of_false herr fun h => herr h.1
  · next herr =>
    rw [and_iff_right (not_not.mp herr)]
    cases hstatus : chip.pktStatus with
    | none => exact iff_of_false (RadioFailure.code_ne_none .ioError) (by simp)
    | some status =>
      unfold getLoraCrcPresentInHeader
      cases hheader : chip.paramsFromHeader with
      | none => exact iff_of_false (show radioErrorGeneric ≠ _ by decide) (by simp)
      | some on => exact iff_of_true rfl (by simp)

end

/-! ## FSK -/

/-- The part of the packet that the FSK functions use. -/
def Received.frame (rx : Received) : Fsk.RxPacket := ⟨rx.fsk, rx.rcvPayload, rx.payloadLen⟩

def Received.withFrame (rx : Received) (frame : Fsk.RxPacket) : Received :=
  { rx with fsk := frame.status, rcvPayload := frame.rcvPayload, payloadLen := frame.payloadLen }

def fskErrorCode : Fsk.RadioError → Int
  | .none => radioErrorNone
  | .notSupported => -1
  | .invalidParams => RadioFailure.invalidParams.code
  | .ioError => RadioFailure.ioError.code
  | .generic => radioErrorGeneric

/-- What accesses of the LR11xx give while a header is received: the register with the position of
the last byte in each round of the wait, and the first bytes of the buffer. -/
structure HeaderChip where
  position : Nat → Option UInt32
  readBuffer : Option (List UInt8)

namespace Lr11xx

/-- The wait for the header; an access that fails keeps the position. -/
def waitForHeader (chip : HeaderChip) : Nat → Nat → UInt32 → Option Unit
  | 0, _, _ => none
  | fuel + 1, round, position =>
    if position ≤ 4 then
      waitForHeader chip fuel (round + 1)
        ((((chip.position round).getD position) &&& 0x0FFF0000) >>> 16)
    else some ()

/-- `radio_fsk_process_sync_word_detected` of the LR11xx: the packet, and what is written to the
register of the length. No access is checked. -/
def processSyncWordDetected (chip : HeaderChip) (fuel : Nat) (rx : Received) :
    Option (Received × UInt32) :=
  (waitForHeader chip fuel 0 0).map fun _ =>
    let buffer := rx.rcvPayload.blit 0 (chip.readBuffer.getD [])
    ({ rx with rcvPayload := buffer.blit 2 [Fsk.swValidMarkerHigh, Fsk.swValidMarkerLow] },
      ((buffer 1).toUInt32 + 2) <<< 20)

end Lr11xx

/-- The wait of the SX126x ends: an access fails, or the header is there. -/
def Sx126x.HeaderArrives (chip : Fsk.Chip) : Prop :=
  ∃ round, ∀ position, chip.rxAddrPointer round = some position → 2 ≤ position.toNat

/-- The wait of the LR11xx ends: the header is there. -/
def Lr11xx.HeaderArrives (chip : HeaderChip) : Prop :=
  ∃ round position, chip.position round = some position ∧
    (4 : UInt32) < (position &&& 0x0FFF0000) >>> 16

section

variable {chip : Fsk.Chip}

theorem Sx126x.waits_of_arrives {n round : Nat} {position : UInt8}
    (h : ∀ position, chip.rxAddrPointer (round + n) = some position → 2 ≤ position.toNat) :
    ∃ fuel, (Fsk.waitForHeader chip fuel round position).isSome := by
  by_cases hposition : position.toNat < 2
  · cases hread : chip.rxAddrPointer round with
    | none =>
      refine ⟨1, ?_⟩
      rw [Fsk.waitForHeader, Fsk.phyHeaderLength, if_pos hposition, hread]
      rfl
    | some position' =>
      have hnext : ∃ fuel, (Fsk.waitForHeader chip fuel (round + 1) position').isSome := by
        cases n with
        | zero =>
          refine ⟨1, ?_⟩
          rw [Fsk.waitForHeader, Fsk.phyHeaderLength, if_neg (Nat.not_lt.mpr (h position' hread))]
          rfl
        | succ n =>
          rw [← Nat.succ_add_eq_add_succ] at h
          exact Sx126x.waits_of_arrives h
      obtain ⟨fuel, hfuel⟩ := hnext
      refine ⟨fuel + 1, ?_⟩
      rw [Fsk.waitForHeader, Fsk.phyHeaderLength, if_pos hposition, hread]
      exact hfuel
  · exact ⟨1, by rw [Fsk.waitForHeader, Fsk.phyHeaderLength, if_neg hposition]; rfl⟩

theorem Sx126x.arrives_of_waits {fuel round : Nat} {position : UInt8}
    (hposition : position.toNat < 2)
    (h : (Fsk.waitForHeader chip fuel round position).isSome) : Sx126x.HeaderArrives chip := by
  induction fuel generalizing round position with
  | zero => cases h
  | succ fuel ih =>
    rw [Fsk.waitForHeader, Fsk.phyHeaderLength, if_pos hposition] at h
    cases hread : chip.rxAddrPointer round with
    | none => exact ⟨round, fun _ hsome => by rw [hread] at hsome; cases hsome⟩
    | some position' =>
      rw [hread] at h
      by_cases hnext : position'.toNat < 2
      · exact ih hnext h
      · refine ⟨round, fun _ hsome => ?_⟩
        rw [hread] at hsome
        cases hsome
        exact Nat.not_lt.mp hnext

theorem Sx126x.header_iff :
    (∃ fuel, (Fsk.waitForHeader chip fuel 0 0).isSome) ↔ Sx126x.HeaderArrives chip := by
  constructor
  · rintro ⟨fuel, h⟩
    exact Sx126x.arrives_of_waits (by decide) h
  · rintro ⟨round, h⟩
    exact Sx126x.waits_of_arrives (n := round) (by rwa [Nat.zero_add])

theorem Sx126x.sync_isSome_iff (fuel : Nat) (rx : Fsk.RxPacket) :
    (Fsk.processSyncWordDetected chip fuel rx).isSome ↔
      (Fsk.waitForHeader chip fuel 0 0).isSome := by
  unfold Fsk.processSyncWordDetected
  cases Fsk.waitForHeader chip fuel 0 0 <;> rfl

end

section

variable {chip : HeaderChip}

/-- An access that fails does not move a position that is too small. -/
theorem Lr11xx.position_le {position : UInt32} (h : position ≤ 4) :
    (position &&& 0x0FFF0000) >>> 16 ≤ 4 := by
  rw [UInt32.le_iff_toNat_le] at h ⊢
  rw [UInt32.toNat_shiftRight, UInt32.toNat_and]
  exact ((Nat.shiftRight_le _ _).trans Nat.and_le_left).trans h

theorem Lr11xx.waits_of_arrives {n round : Nat} {position : UInt32}
    (h : ∃ position, chip.position (round + n) = some position ∧
      (4 : UInt32) < (position &&& 0x0FFF0000) >>> 16) :
    ∃ fuel, (Lr11xx.waitForHeader chip fuel round position).isSome := by
  by_cases hposition : position ≤ 4
  · have hnext : ∃ fuel, (Lr11xx.waitForHeader chip fuel (round + 1)
        ((((chip.position round).getD position) &&& 0x0FFF0000) >>> 16)).isSome := by
      cases n with
      | zero =>
        obtain ⟨position', hread, hlt⟩ := h
        refine ⟨1, ?_⟩
        rw [show chip.position round = some position' from hread, Option.getD_some,
          Lr11xx.waitForHeader, if_neg (UInt32.not_le.mpr hlt)]
        rfl
      | succ n =>
        rw [← Nat.succ_add_eq_add_succ] at h
        exact Lr11xx.waits_of_arrives h
    obtain ⟨fuel, hfuel⟩ := hnext
    refine ⟨fuel + 1, ?_⟩
    rw [Lr11xx.waitForHeader, if_pos hposition]
    exact hfuel
  · exact ⟨1, by rw [Lr11xx.waitForHeader, if_neg hposition]; rfl⟩

theorem Lr11xx.arrives_of_waits {fuel round : Nat} {position : UInt32} (hposition : position ≤ 4)
    (h : (Lr11xx.waitForHeader chip fuel round position).isSome) : Lr11xx.HeaderArrives chip := by
  induction fuel generalizing round position with
  | zero => cases h
  | succ fuel ih =>
    rw [Lr11xx.waitForHeader, if_pos hposition] at h
    by_cases hnext : (((chip.position round).getD position) &&& 0x0FFF0000) >>> 16 ≤ 4
    · exact ih hnext h
    · cases hread : chip.position round with
      | none =>
        rw [hread] at hnext
        exact absurd (Lr11xx.position_le hposition) hnext
      | some position' =>
        rw [hread] at hnext
        exact ⟨round, position', hread, UInt32.not_le.mp hnext⟩

theorem Lr11xx.header_iff :
    (∃ fuel, (Lr11xx.waitForHeader chip fuel 0 0).isSome) ↔ Lr11xx.HeaderArrives chip := by
  constructor
  · rintro ⟨fuel, h⟩
    exact Lr11xx.arrives_of_waits (by decide) h
  · rintro ⟨round, h⟩
    exact Lr11xx.waits_of_arrives (n := round) (by rwa [Nat.zero_add])

end

/-! ## Frames -/

/-- The frame that was received is too short for its checksum, or an access that reads it fails.
The status that the caller passes matters, since a checksum is only looked at if it is not
`unknownError`. -/
def FrameUnread (chip : Fsk.Chip) (status : Fsk.RxDoneStatus) (frame : Fsk.RxPacket) : Prop :=
  (frame.rcvPayload 2 = Fsk.swValidMarkerHigh ∧ frame.rcvPayload 3 = Fsk.swValidMarkerLow) ∧
    let fcsType := (frame.rcvPayload 0 >>> 4).toNat
    let length := frame.rcvPayload 1
    ((fcsType = Fsk.fcsType0 ∧ length ≤ 4 ∨ fcsType = Fsk.fcsType1 ∧ length ≤ 2) ∨
      ∀ start bytes, chip.bufferStartPointer = some start →
        chip.readBuffer (start + 2) length = some bytes →
        (fcsType = Fsk.fcsType0 ∨ fcsType = Fsk.fcsType1) ∧ status ≠ .unknownError ∧
          chip.rssiSync = none)

/-- What becomes of an FSK packet: it is good, its error is reported, or it is not. -/
inductive FrameEnd (chip : Fsk.Chip) (status : Fsk.RxDoneStatus) (frame : Fsk.RxPacket) :
    Fsk.RadioError → Fsk.RxDoneStatus → Prop
  | good {status'} : ¬FrameUnread chip status frame → FrameEnd chip status frame .none status'
  | bad {status'} : ¬FrameUnread chip status frame →
      status' = .swMarkNotPresent ∨ status' = .unknownError ∨ status' = .badCrc →
      FrameEnd chip status frame .generic status'
  | unread {status'} : FrameUnread chip status frame → FrameEnd chip status frame .ioError status'

theorem rxCrc_eq_none_iff {lib : Fsk.FskLib} {fcsType length : UInt8} {buffer : Mem} :
    Fsk.rxCrc lib fcsType buffer length = none ↔
      ¬(fcsType.toNat = Fsk.fcsType0 ∨ fcsType.toNat = Fsk.fcsType1) := by
  unfold Fsk.rxCrc
  split
  · next h => exact iff_of_false nofun fun hnot => hnot (.inl h)
  · next h =>
    split
    · next h' => exact iff_of_false nofun fun hnot => hnot (.inr h')
    · next h' => exact iff_of_true rfl (not_or.mpr ⟨h, h'⟩)

/-- The end of a frame that was read: the measured strengths are only read if a checksum was. -/
theorem finishRxDone_end (lib : Fsk.FskLib) (chip : Fsk.Chip) (lnaGain : Int8)
    (fcsType length : UInt8) (frame : Fsk.RxPacket) (status : Fsk.RxDoneStatus) :
    let checked := (fcsType.toNat = Fsk.fcsType0 ∨ fcsType.toNat = Fsk.fcsType1) ∧
      status ≠ .unknownError ∧ chip.rssiSync = none
    let r := Fsk.finishRxDone lib chip lnaGain fcsType length frame status
    checked ∧ r.1 = .ioError ∨ ¬checked ∧
      (r.1 = .none ∨ r.1 = .generic ∧ (r.2.2 = .unknownError ∨ r.2.2 = .badCrc)) := by
  have huntyped := @rxCrc_eq_none_iff lib fcsType length frame.rcvPayload
  unfold Fsk.finishRxDone
  cases hcrc : Fsk.rxCrc lib fcsType frame.rcvPayload length with
  | none => exact .inr ⟨fun h => huntyped.mp hcrc h.1, .inr ⟨rfl, .inl rfl⟩⟩
  | some crc =>
    have htyped : fcsType.toNat = Fsk.fcsType0 ∨ fcsType.toNat = Fsk.fcsType1 := by
      rw [hcrc] at huntyped
      exact not_not.mp fun h => nomatch huntyped.mpr h
    by_cases hstatus : status = .unknownError
    · subst hstatus
      exact .inr ⟨fun h => h.2.1 rfl, .inl rfl⟩
    · simp only [Option.isNone_some, Bool.false_eq_true, if_false, if_neg hstatus]
      cases hrssi : chip.rssiSync with
      | none => exact .inl ⟨⟨htyped, hstatus, rfl⟩, rfl⟩
      | some strengths =>
        refine .inr ⟨fun h => (nomatch h.2.2), ?_⟩
        simp only
        split
        · exact .inl rfl
        · exact .inr ⟨rfl, .inr rfl⟩

theorem processRxDone_end (lib : Fsk.FskLib) (chip : Fsk.Chip) (lnaGain : Int8)
    (frame : Fsk.RxPacket) (status : Fsk.RxDoneStatus) :
    FrameEnd chip status frame (Fsk.processRxDone lib chip lnaGain frame status).1
      (Fsk.processRxDone lib chip lnaGain frame status).2.2 := by
  have htype : frame.rcvPayload.blit 2 [0x00, 0x00] 0 = frame.rcvPayload 0 :=
    Mem.blit_below Nat.two_pos
  have hlength : frame.rcvPayload.blit 2 [0x00, 0x00] 1 = frame.rcvPayload 1 :=
    Mem.blit_below Nat.one_lt_two
  unfold Fsk.processRxDone
  simp only [htype, hlength]
  split
  · next hmark =>
    refine .bad (fun hunread => ?_) (.inl rfl)
    exact hmark.elim (fun h => h hunread.1.1) fun h => h hunread.1.2
  · next hmark =>
    obtain ⟨hhigh, hlow⟩ := not_or.mp hmark
    have hmarked := And.intro (not_not.mp hhigh) (not_not.mp hlow)
    split
    · next hshort => exact .unread ⟨hmarked, .inl hshort⟩
    · next hshort =>
      cases hstart : chip.bufferStartPointer with
      | none => exact .unread ⟨hmarked, .inr fun _ _ h => by rw [hstart] at h; cases h⟩
      | some start =>
        simp only
        have hoffset : start + UInt8.ofNat Fsk.phyHeaderLength = start + 2 := rfl
        rw [hoffset]
        cases hread : chip.readBuffer (start + 2) (frame.rcvPayload 1) with
        | none =>
          refine .unread ⟨hmarked, .inr fun start' bytes h hbytes => ?_⟩
          rw [hstart] at h
          cases h
          rw [hread] at hbytes
          cases hbytes
        | some bytes =>
          simp only
          obtain ⟨hchecked, herr⟩ | ⟨hchecked, hend⟩ := finishRxDone_end lib chip lnaGain
            (frame.rcvPayload 0 >>> 4) (frame.rcvPayload 1) _ status
          · rw [herr]
            exact .unread ⟨hmarked, .inr fun _ _ _ _ => hchecked⟩
          · have hread : ¬FrameUnread chip status frame := by
              rintro ⟨-, hshort' | hall⟩
              · exact hshort hshort'
              · exact hchecked (hall start bytes hstart hread)
            obtain herr | ⟨herr, hstatus⟩ := hend
            · rw [herr]
              exact .good hread
            · rw [herr]
              exact .bad hread (.inr hstatus)

end Sidewalk.Radio.Interrupts
