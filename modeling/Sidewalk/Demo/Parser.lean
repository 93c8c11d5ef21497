import Sidewalk.Lib.Memory
import Sidewalk.Demo.ParserUtils

/-!
# The demo protocol

The serializers and deserializers of `sid_demo_parser.c`. Arrays that a message points to are
memories, an enumeration is its value, and a deserializer is given the contents of its destination.
-/

namespace Sidewalk.Demo

open Sidewalk.Lib

/-! ## Values -/

def tagNumberOfButtons : UInt8 := 0x1
def tagNumberOfLeds : UInt8 := 0x2
def tagLedOnActionReq : UInt8 := 0x3
def tagLedOffActionReq : UInt8 := 0x4
def tagButtonPressActionNotify : UInt8 := 0x5
def tagTemperatureSensorDataNotify : UInt8 := 0x6
def tagCurrentGpsTimeInSeconds : UInt8 := 0x7
def tagDlLatencyInSeconds : UInt8 := 0x8
def tagLedOnResp : UInt8 := 0x9
def tagLedOffResp : UInt8 := 0xA
def tagTempSensorAvailable : UInt8 := 0xB
def tagLinkType : UInt8 := 0xC
def tagButtonPressedResp : UInt8 := 0xD

def temperatureSensorNotSupported : Nat := 0
def temperatureSensorLast : Nat := 3

def actionLedNoAction : Nat := 0
def actionLedOff : Nat := 1
def actionLedOn : Nat := 2
def actionLedLast : Nat := 3

def actionButtonPressed : Nat := 1

def actionTypeNoAction : Nat := 0
def actionTypeLed : Nat := 1
def actionTypeButton : Nat := 2

def errorInvalidArgs : Int := -11

/-- Instead of a number of devices: all of them. -/
def allDevices : UInt8 := 0xFF

/-- A byte read into an enumeration replaces its low byte. -/
def setLowByte (value : Nat) (byte : UInt8) : Nat := value / 256 * 256 + byte.toNat

/-- An array after a read into it. -/
def storeRead (arr : Mem) (read : Option (List UInt8)) : Mem := arr.blit 0 (read.getD [])

/-! ## Messages -/

structure MsgDesc where
  statusHdrInd : Bool
  opc : Nat
  cmdClass : UInt8
  cmdId : UInt8
  statusCode : UInt8

structure DemoMsg where
  payloadSize : Nat
  payload : Mem

def msgSerialize (u : ParserUtils) (s : SidParseState) (desc : MsgDesc) (msg : Option DemoMsg) :
    SidParseState :=
  let value := u.setBitToField 0 desc.statusHdrInd.toUInt8 1 7
  let value := u.setBitToField value (UInt8.ofNat desc.opc) 3 5
  let value := u.setBitToField value desc.cmdClass 3 3
  let value := u.setBitToField value desc.cmdId 7 0
  let s := u.writeEntryUint8 s value
  let s := if desc.statusHdrInd then u.writeEntryUint8 s desc.statusCode else s
  match msg with
  | some msg =>
    if msg.payloadSize ≠ 0 then u.writeEntryNbytes s (msg.payload.slice 0 msg.payloadSize) else s
  | none => s

def msgDeserialize (u : ParserUtils) (s : SidParseState) (desc : MsgDesc) (msg : DemoMsg) :
    SidParseState × MsgDesc × DemoMsg :=
  match u.readEntryUint8 s with
  | (s, read) =>
    let value := read.getD 0
    let desc := { desc with
      statusHdrInd := u.getBitFromField value 1 7 ≠ 0
      opc := setLowByte desc.opc (u.getBitFromField value 3 5)
      cmdClass := u.getBitFromField value 3 3
      cmdId := u.getBitFromField value 7 0 }
    match if desc.statusHdrInd then u.readEntryUint8 s else (s, none) with
    | (s, read) =>
      let desc := { desc with statusCode := read.getD desc.statusCode }
      if s.offset < s.buffer.length then
        match u.readEntryNbytes s (s.buffer.length - s.offset) with
        | (s', read) =>
          (s', desc, ⟨s.buffer.length - s.offset, storeRead msg.payload read⟩)
      else (s, desc, msg)

/-! ## Capabilities -/

structure CapabilityDiscovery where
  numButtons : UInt8
  numLeds : UInt8
  tempSensor : Nat
  buttonIdArr : Mem
  ledIdArr : Mem
  linkType : UInt8

def capabilityDiscoveryNotificationSerialize (u : ParserUtils) (s : SidParseState)
    (cap : CapabilityDiscovery) : SidParseState :=
  let s := if cap.numButtons ≠ 0 then
      u.writeEntryTlvNbytes s ⟨cap.numButtons, tagNumberOfButtons⟩
        (cap.buttonIdArr.slice 0 cap.numButtons.toNat)
    else s
  let s := if cap.numLeds ≠ 0 then
      u.writeEntryTlvNbytes s ⟨cap.numLeds, tagNumberOfLeds⟩
        (cap.ledIdArr.slice 0 cap.numLeds.toNat)
    else s
  let s := if temperatureSensorNotSupported < cap.tempSensor ∧
        cap.tempSensor < temperatureSensorLast then
      u.writeEntryTlvUint8 s ⟨1, tagTempSensorAvailable⟩ (UInt8.ofNat cap.tempSensor)
    else s
  u.writeEntryTlvUint8 s ⟨1, tagLinkType⟩ cap.linkType

def capabilityOnRecord (u : ParserUtils) (tl : TlInTlv) (s : SidParseState)
    (cap : CapabilityDiscovery) : SidParseState × CapabilityDiscovery :=
  if tl.tag = tagNumberOfButtons then
    match u.readEntryNbytes s tl.len.toNat with
    | (s, read) =>
      (s, { cap with numButtons := tl.len, buttonIdArr := storeRead cap.buttonIdArr read })
  else if tl.tag = tagNumberOfLeds then
    match u.readEntryNbytes s tl.len.toNat with
    | (s, read) => (s, { cap with numLeds := tl.len, ledIdArr := storeRead cap.ledIdArr read })
  else if tl.tag = tagTempSensorAvailable then
    match u.readEntryUint8 s with
    | (s, read) => (s, { cap with tempSensor := read.elim cap.tempSensor (setLowByte cap.tempSensor) })
  else if tl.tag = tagLinkType then
    match u.readEntryUint8 s with
    | (s, read) => (s, { cap with linkType := read.getD cap.linkType })
  else (s, cap)

def capabilityDiscoveryNotificationDeserialize (u : ParserUtils) (fuel : Nat) (s : SidParseState)
    (cap : CapabilityDiscovery) : Option (SidParseState × CapabilityDiscovery) :=
  tlvLoop u (capabilityOnRecord u) fuel ⟨0, 0⟩ s cap

/-! ## Lists of devices -/

/-- The list is stored under the header, or the byte for all devices under the other one. -/
def writeIds (u : ParserUtils) (s : SidParseState) (tag lenOfAll num : UInt8) (arr : Mem) :
    SidParseState :=
  if num = allDevices then u.writeEntryTlvUint8 s ⟨lenOfAll, tag⟩ num
  else u.writeEntryTlvNbytes s ⟨num, tag⟩ (arr.slice 0 num.toNat)

def readIds (u : ParserUtils) (tl : TlInTlv) (s : SidParseState) (arr : Mem) :
    SidParseState × UInt8 × Mem :=
  match u.readEntryNbytes s tl.len.toNat with
  | (s, read) =>
    let arr := storeRead arr read
    (s, if tl.len = 1 ∧ arr 0 = 0xFF then allDevices else tl.len, arr)

/-! ## Action requests -/

structure LedActionReq where
  actionReq : Nat
  numLeds : UInt8
  ledIdArr : Mem
  gpsTimeInSeconds : UInt32

def actionReqSerialize (u : ParserUtils) (s : SidParseState) (req : LedActionReq) :
    SidParseState :=
  if req.numLeds = 0 then s
  else if req.actionReq = actionLedOn ∨ req.actionReq = actionLedOff then
    let tag := if req.actionReq = actionLedOn then tagLedOnActionReq else tagLedOffActionReq
    let s := writeIds u s tag 1 req.numLeds req.ledIdArr
    u.writeEntryTlvUint32 s ⟨4, tagCurrentGpsTimeInSeconds⟩ req.gpsTimeInSeconds
  else { s with retCode := errorInvalidArgs }

def actionReqOnRecord (u : ParserUtils) (tl : TlInTlv) (s : SidParseState) (req : LedActionReq) :
    SidParseState × LedActionReq :=
  if tl.tag = tagLedOnActionReq ∨ tl.tag = tagLedOffActionReq then
    match readIds u tl s req.ledIdArr with
    | (s, num, arr) =>
      (s, { req with
        actionReq := if tl.tag = tagLedOnActionReq then actionLedOn else actionLedOff
        numLeds := num
        ledIdArr := arr })
  else if tl.tag = tagCurrentGpsTimeInSeconds then
    match u.readEntryUint32 s with
    | (s, read) => (s, { req with gpsTimeInSeconds := read.getD req.gpsTimeInSeconds })
  else (s, req)

def actionReqDeserialize (u : ParserUtils) (fuel : Nat) (s : SidParseState) (req : LedActionReq) :
    Option (SidParseState × LedActionReq) :=
  tlvLoop u (actionReqOnRecord u) fuel ⟨0, 0⟩ s req

/-! ## Action responses -/

structure LedActionResp where
  actionResp : Nat
  numLeds : UInt8
  ledIdArr : Mem

structure ButtonActionResp where
  actionResp : Nat
  numButtons : UInt8
  buttonIdArr : Mem

structure ActionResp where
  respType : Nat
  linkType : UInt8
  downLinkLatencySecs : UInt32
  gpsTimeInSeconds : UInt32
  ledActionResp : LedActionResp
  buttonActionResp : ButtonActionResp

/-- The response is refused, as the jumps to `err` do. -/
def ActionResp.refused (resp : ActionResp) : Prop :=
  resp.respType = actionTypeNoAction ∨
    resp.respType = actionTypeLed ∧ (resp.ledActionResp.actionResp = actionLedNoAction ∨
      ¬(actionLedNoAction < resp.ledActionResp.actionResp ∧
        resp.ledActionResp.actionResp < actionLedLast)) ∨
    resp.respType = actionTypeButton ∧ resp.buttonActionResp.actionResp ≠ actionButtonPressed

instance (resp : ActionResp) : Decidable resp.refused := by
  unfold ActionResp.refused
  infer_instance

/-- The header of the list of buttons keeps the length `0` of the initial one where the list is all
buttons. -/
def actionRespSerialize (u : ParserUtils) (s : SidParseState) (resp : ActionResp) :
    SidParseState :=
  if resp.refused then { s with retCode := errorInvalidArgs }
  else
    let s := if resp.respType = actionTypeLed then
        let tag := if resp.ledActionResp.actionResp = actionLedOn then tagLedOnResp
          else tagLedOffResp
        writeIds u s tag 1 resp.ledActionResp.numLeds resp.ledActionResp.ledIdArr
      else s
    let s := if resp.respType = actionTypeButton then
        writeIds u s tagButtonPressedResp 0 resp.buttonActionResp.numButtons
          resp.buttonActionResp.buttonIdArr
      else s
    let s := if resp.gpsTimeInSeconds ≠ 0 then
        u.writeEntryTlvUint32 s ⟨4, tagCurrentGpsTimeInSeconds⟩ resp.gpsTimeInSeconds
      else s
    let s := if resp.downLinkLatencySecs ≠ 0 then
        u.writeEntryTlvUint32 s ⟨4, tagDlLatencyInSeconds⟩ resp.downLinkLatencySecs
      else s
    if resp.linkType ≠ 0 then u.writeEntryTlvUint8 s ⟨1, tagLinkType⟩ resp.linkType else s

def actionRespOnRecord (u : ParserUtils) (tl : TlInTlv) (s : SidParseState) (resp : ActionResp) :
    SidParseState × ActionResp :=
  if tl.tag = tagLedOnResp ∨ tl.tag = tagLedOffResp then
    match readIds u tl s resp.ledActionResp.ledIdArr with
    | (s, num, arr) =>
      (s, { resp with
        ledActionResp := ⟨if tl.tag = tagLedOnResp then actionLedOn else actionLedOff, num, arr⟩
        respType := actionTypeLed })
  else if tl.tag = tagButtonPressedResp then
    match readIds u tl s resp.buttonActionResp.buttonIdArr with
    | (s, num, arr) =>
      (s, { resp with
        buttonActionResp := ⟨actionButtonPressed, num, arr⟩
        respType := actionTypeButton })
  else if tl.tag = tagCurrentGpsTimeInSeconds then
    match u.readEntryUint32 s with
    | (s, read) => (s, { resp with gpsTimeInSeconds := read.getD resp.gpsTimeInSeconds })
  else if tl.tag = tagDlLatencyInSeconds then
    match u.readEntryUint32 s with
    | (s, read) => (s, { resp with downLinkLatencySecs := read.getD resp.downLinkLatencySecs })
  else if tl.tag = tagLinkType then
    match u.readEntryUint8 s with
    | (s, read) => (s, { resp with linkType := read.getD resp.linkType })
  else (s, resp)

def actionRespDeserialize (u : ParserUtils) (fuel : Nat) (s : SidParseState) (resp : ActionResp) :
    Option (SidParseState × ActionResp) :=
  tlvLoop u (actionRespOnRecord u) fuel ⟨0, 0⟩ s resp

/-! ## Action notifications -/

structure ActionNotification where
  linkType : UInt8
  temperature : Int16
  gpsTimeInSeconds : UInt32
  tempSensor : Nat
  buttonActionNotify : ButtonActionResp

def actionNotificationSerialize (u : ParserUtils) (s : SidParseState)
    (notify : ActionNotification) : SidParseState :=
  let s := if notify.buttonActionNotify.actionResp = actionButtonPressed then
      writeIds u s tagButtonPressActionNotify 0 notify.buttonActionNotify.numButtons
        notify.buttonActionNotify.buttonIdArr
    else s
  let s := if temperatureSensorNotSupported < notify.tempSensor ∧
        notify.tempSensor < temperatureSensorLast then
      u.writeEntryTlvUint16 s ⟨2, tagTemperatureSensorDataNotify⟩ notify.temperature.toUInt16
    else s
  let s := u.writeEntryTlvUint32 s ⟨4, tagCurrentGpsTimeInSeconds⟩ notify.gpsTimeInSeconds
  u.writeEntryTlvUint8 s ⟨1, tagLinkType⟩ notify.linkType

def actionNotificationOnRecord (u : ParserUtils) (tl : TlInTlv) (s : SidParseState)
    (notify : ActionNotification) : SidParseState × ActionNotification :=
  if tl.tag = tagButtonPressActionNotify then
    match readIds u tl s notify.buttonActionNotify.buttonIdArr with
    | (s, num, arr) => (s, { notify with buttonActionNotify := ⟨actionButtonPressed, num, arr⟩ })
  else if tl.tag = tagTemperatureSensorDataNotify then
    match u.readEntryUint16 s with
    | (s, read) => (s, { notify with temperature := read.elim notify.temperature UInt16.toInt16 })
  else if tl.tag = tagCurrentGpsTimeInSeconds then
    match u.readEntryUint32 s with
    | (s, read) => (s, { notify with gpsTimeInSeconds := read.getD notify.gpsTimeInSeconds })
  else if tl.tag = tagLinkType then
    match u.readEntryUint8 s with
    | (s, read) => (s, { notify with linkType := read.getD notify.linkType })
  else (s, notify)

def actionNotificationDeserialize (u : ParserUtils) (fuel : Nat) (s : SidParseState)
    (notify : ActionNotification) : Option (SidParseState × ActionNotification) :=
  tlvLoop u (actionNotificationOnRecord u) fuel ⟨0, 0⟩ s notify

end Sidewalk.Demo
