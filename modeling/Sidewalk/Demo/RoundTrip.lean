import Sidewalk.Demo.HeaderUtils
import Sidewalk.Demo.Parser

/-!
# What the demo protocol carries

Each message is sent as a list of records (`records`), and its deserializer takes each record as
the change of the field it was written from. So a message comes back with the fields it is sent
with. What is not sent: a status code without its indicator, the contents of a request for no LED,
the unit of a notified temperature. A list of all buttons does not come back: its header has length
`0`, so its marker is read as the next header (`allButtons_left`).
-/

namespace Sidewalk.Demo

open Sidewalk.Lib

/-! ## Lists of devices -/

/-- No device of the list is the marker. -/
def DeviceIds (num : UInt8) (arr : Mem) : Prop :=
  num ≠ allDevices → ∀ i < num.toNat, arr i ≠ 0xFF

/-- The list comes back, where it is one. -/
def SameIds (num : UInt8) (arr arr' : Mem) : Prop :=
  num ≠ allDevices → arr'.slice 0 num.toNat = arr.slice 0 num.toNat

def idsBytes (num : UInt8) (arr : Mem) : List UInt8 :=
  if num = allDevices then [allDevices] else arr.slice 0 num.toNat

/-- The record of a list. -/
def idsItem (tag num : UInt8) (arr : Mem) : Item :=
  .block tag (if num = allDevices then 1 else num) (idsBytes num arr)

theorem slice_blit_slice (arr old : Mem) (n : Nat) :
    (old.blit 0 (arr.slice 0 n)).slice 0 n = arr.slice 0 n := by
  have hslice := Mem.slice_blit old 0 (arr.slice 0 n)
  rwa [Mem.length_slice] at hslice

theorem sameIds_blit (num : UInt8) (arr old : Mem) :
    SameIds num arr (old.blit 0 (idsBytes num arr)) := by
  intro hnum
  unfold idsBytes
  rw [if_neg hnum]
  exact slice_blit_slice arr old num.toNat

theorem length_idsBytes (num : UInt8) (arr : Mem) :
    (idsBytes num arr).length = (if num = allDevices then 1 else num : UInt8).toNat := by
  unfold idsBytes
  split
  · rfl
  · rw [Mem.length_slice]

section

variable {u : ParserUtils} (hu : Documented u)

include hu

theorem writesIds (tag : UInt8) {lenOfAll num : UInt8} (arr : Mem)
    (hlen : num = allDevices → lenOfAll = 1) :
    WritesItems u (fun s => writeIds u s tag lenOfAll num arr) [idsItem tag num arr] := by
  unfold writeIds idsItem idsBytes
  by_cases hnum : num = allDevices
  · simp only [if_pos hnum, hlen hnum]
    rw [hnum]
    exact hu.writesMarker tag allDevices
  · simp only [if_neg hnum]
    exact hu.writesBlock tag num _

theorem readNbytes_of_length {s : SidParseState} {bytes : List UInt8} {n : Nat}
    (hlen : bytes.length = n) (h : s.Holds bytes) :
    u.readEntryNbytes s n = (s.skip bytes.length, some bytes) := by
  rw [← hlen]
  exact hu.readNbytes s bytes h

theorem readIds_idsItem (tag : UInt8) {num : UInt8} {arr : Mem} (hids : DeviceIds num arr)
    {s : SidParseState} (h : s.Holds (idsBytes num arr)) (old : Mem) :
    readIds u (idsItem tag num arr).tl s old =
      (s.skip (idsBytes num arr).length, num, old.blit 0 (idsBytes num arr)) := by
  have hread := readNbytes_of_length hu (length_idsBytes num arr) h
  simp only [readIds, idsItem, Item.tl, hread, storeRead, Option.getD_some]
  by_cases hnum : num = allDevices
  · have hfirst : (old.blit 0 (idsBytes num arr)) 0 = 0xFF := by
      unfold idsBytes
      rw [if_pos hnum]
      rfl
    rw [if_pos ⟨if_pos hnum, hfirst⟩, hnum]
  · have hlist : ¬((if num = allDevices then 1 else num) = 1 ∧
        (old.blit 0 (idsBytes num arr)) 0 = 0xFF) := by
      rintro ⟨hone, hfirst⟩
      rw [if_neg hnum] at hone
      subst hone
      refine hids hnum 0 (by decide) ?_
      rw [← hfirst]
      rfl
    rw [if_neg hlist, if_neg hnum]

end

/-! ## Reading back -/

section

variable {α : Type}

/-- Whatever was stored without an error into a buffer with room, the deserializer ends on it
without one, and its destination is as it should be. -/
def ReadsBack (serialize : SidParseState → SidParseState)
    (deserialize : Nat → SidParseState → α → Option (SidParseState × α)) (needed : Nat) (dest : α)
    (carried : α → Prop) : Prop :=
  ∀ buffer : List UInt8, needed ≤ buffer.length →
    (serialize (parseStateInit buffer)).retCode = errorNone →
      ∀ fuel, (serialize (parseStateInit buffer)).written.length < fuel →
        ∃ s a, deserialize fuel (parseStateInit (serialize (parseStateInit buffer)).written) dest =
            some (s, a) ∧ s.retCode = errorNone ∧ carried a

theorem Carries.readsBack {u : ParserUtils} (hu : Documented u)
    {serialize : SidParseState → SidParseState}
    {onRecord : TlInTlv → SidParseState → α → SidParseState × α} {items : List Item} {f : α → α}
    (h : Carries u serialize onRecord items f) {dest : α} {carried : α → Prop}
    (hdest : carried (f dest)) :
    ReadsBack serialize (fun fuel s a => tlvLoop u onRecord fuel ⟨0, 0⟩ s a)
      (encodeItems u items).length dest carried := by
  intro buffer hroom _ fuel hfuel
  obtain ⟨s, hrun, hret⟩ := h.roundTrip hu hroom hfuel ⟨0, 0⟩ dest
  exact ⟨s, f dest, hrun, hret, hdest⟩

end

/-! ## Messages -/

theorem and_mask {v mask : UInt8} {k : Nat} (hmask : mask.toNat = 2 ^ k - 1)
    (h : v.toNat < 2 ^ k) : v &&& mask = v := by
  apply UInt8.toNat_inj.mp
  rw [UInt8.toNat_and, hmask, Nat.and_two_pow_sub_one_eq_mod, Nat.mod_eq_of_lt h]

def DemoMsg.bytes (msg : Option DemoMsg) : List UInt8 :=
  msg.elim [] fun msg => msg.payload.slice 0 msg.payloadSize

def MsgDesc.statusBytes (desc : MsgDesc) : List UInt8 :=
  if desc.statusHdrInd then [desc.statusCode] else []

/-- The status code comes back where it is announced. -/
def MsgRoundTrip (u : ParserUtils) : Prop :=
  ∀ (desc : MsgDesc) (msg : Option DemoMsg) (payload : Mem) (buffer : List UInt8),
    desc.opc < 4 → desc.cmdClass < 4 → desc.cmdId < 8 →
      1 + desc.statusBytes.length + (DemoMsg.bytes msg).length ≤ buffer.length →
        let s := msgSerialize u (parseStateInit buffer) desc msg
        ∃ s' desc' msg', msgDeserialize u (parseStateInit s.written) ⟨false, 0, 0, 0, 0⟩
            ⟨0, payload⟩ = (s', desc', msg') ∧
          s.retCode = errorNone ∧ s'.retCode = errorNone ∧
          desc' = { desc with statusCode := if desc.statusHdrInd then desc.statusCode else 0 } ∧
          msg'.payload.slice 0 msg'.payloadSize = DemoMsg.bytes msg

section

variable {u : ParserUtils} (hu : Documented u)

include hu

/-- The first byte of a message. -/
def MsgDesc.value (u : ParserUtils) (desc : MsgDesc) : UInt8 :=
  u.setBitToField (u.setBitToField (u.setBitToField (u.setBitToField 0 desc.statusHdrInd.toUInt8 1 7)
    (UInt8.ofNat desc.opc) 3 5) desc.cmdClass 3 3) desc.cmdId 7 0

theorem getBit_value (desc : MsgDesc) :
    u.getBitFromField (desc.value u) 1 7 = desc.statusHdrInd.toUInt8 &&& 1 ∧
      u.getBitFromField (desc.value u) 3 5 = UInt8.ofNat desc.opc &&& 3 ∧
      u.getBitFromField (desc.value u) 3 3 = desc.cmdClass &&& 3 ∧
      u.getBitFromField (desc.value u) 7 0 = desc.cmdId &&& 7 := by
  unfold MsgDesc.value
  refine ⟨?_, ?_, ?_, hu.getBit_setBit _ _ 7 0 (by decide)⟩
  · rw [hu.getBit_setBit_other _ _ 7 0 1 7 (by decide), hu.getBit_setBit_other _ _ 3 3 1 7 (by decide),
      hu.getBit_setBit_other _ _ 3 5 1 7 (by decide)]
    exact hu.getBit_setBit _ _ 1 7 (by decide)
  · rw [hu.getBit_setBit_other _ _ 7 0 3 5 (by decide), hu.getBit_setBit_other _ _ 3 3 3 5 (by decide)]
    exact hu.getBit_setBit _ _ 3 5 (by decide)
  · rw [hu.getBit_setBit_other _ _ 7 0 3 3 (by decide)]
    exact hu.getBit_setBit _ _ 3 3 (by decide)

theorem writes_msgSerialize (desc : MsgDesc) (msg : Option DemoMsg) :
    Writes (fun s => msgSerialize u s desc msg)
      (([desc.value u] ++ desc.statusBytes) ++ DemoMsg.bytes msg) := by
  have hvalue : Writes (fun s => u.writeEntryUint8 s (desc.value u)) [desc.value u] :=
    fun s h => hu.writeUint8 s _ h
  have hstatus : Writes (fun s => if desc.statusHdrInd then u.writeEntryUint8 s desc.statusCode
      else s) desc.statusBytes := by
    unfold MsgDesc.statusBytes
    by_cases hind : desc.statusHdrInd
    · simp only [if_pos hind]
      exact fun s h => hu.writeUint8 s _ h
    · simp only [if_neg hind]
      exact Writes.nil
  cases msg with
  | none => exact (hvalue.comp hstatus).comp Writes.nil
  | some msg =>
    have hpayload : Writes (fun s => if msg.payloadSize ≠ 0 then
        u.writeEntryNbytes s (msg.payload.slice 0 msg.payloadSize) else s)
          (msg.payload.slice 0 msg.payloadSize) := by
      by_cases hsize : msg.payloadSize = 0
      · simp only [hsize, ne_eq, not_true_eq_false, if_false]
        exact Writes.nil
      · simp only [ne_eq, hsize, not_false_eq_true, if_true]
        exact fun s h => hu.writeNbytes s _ h
    exact (hvalue.comp hstatus).comp hpayload

/-- The rest of the buffer is the payload. -/
theorem read_payload {s : SidParseState} {bytes : List UInt8} (hleft : s.Left bytes)
    (desc : MsgDesc) (payload : Mem) :
    ∃ s' msg', (if s.offset < s.buffer.length then
        ((u.readEntryNbytes s (s.buffer.length - s.offset)).1, desc,
          (⟨s.buffer.length - s.offset,
            storeRead payload (u.readEntryNbytes s (s.buffer.length - s.offset)).2⟩ : DemoMsg))
      else (s, desc, ⟨0, payload⟩)) = (s', desc, msg') ∧ s'.retCode = errorNone ∧
        msg'.payload.slice 0 msg'.payloadSize = bytes := by
  have hlength := hleft.length
  have hlen : bytes.length = s.buffer.length - s.offset := by omega
  have hholds : s.Holds bytes := ⟨[], (List.append_nil bytes).symm ▸ hleft⟩
  split
  · rw [readNbytes_of_length hu hlen hholds]
    refine ⟨_, _, rfl, hleft.retCode, ?_⟩
    change (payload.blit 0 bytes).slice 0 (s.buffer.length - s.offset) = bytes
    rw [← hlen, Mem.slice_blit]
  · refine ⟨s, ⟨0, payload⟩, rfl, hleft.retCode, ?_⟩
    exact (List.eq_nil_of_length_eq_zero (by omega)).symm

theorem msg_roundTrip : MsgRoundTrip u := by
  intro desc msg payload buffer hopc hclass hid hroom
  have hwrote := @Writes.written _ _ buffer (writes_msgSerialize hu desc msg) (by
    simp only [List.length_append, List.length_singleton]
    omega)
  obtain ⟨hwritten, hret⟩ := hwrote
  obtain ⟨hind, hopcode, hcmdClass, hcmdId⟩ := getBit_value hu desc
  have hopc' : (UInt8.ofNat desc.opc).toNat = desc.opc := UInt8.toNat_ofNat_of_lt' (by
    change desc.opc < 256
    omega)
  rw [and_mask (k := 2) rfl (by omega)] at hopcode
  rw [and_mask (k := 2) rfl (UInt8.lt_iff_toNat_lt.mp hclass)] at hcmdClass
  rw [and_mask (k := 3) rfl (UInt8.lt_iff_toNat_lt.mp hid)] at hcmdId
  have hind' : decide (u.getBitFromField (desc.value u) 1 7 ≠ 0) = desc.statusHdrInd := by
    rw [hind]
    cases desc.statusHdrInd <;> decide
  simp only [hwritten, hret, true_and]
  have hleft := SidParseState.left_init ([desc.value u] ++ desc.statusBytes ++ DemoMsg.bytes msg)
  generalize parseStateInit ([desc.value u] ++ desc.statusBytes ++ DemoMsg.bytes msg) = s at *
  rw [List.append_assoc] at hleft
  have hread := hu.readUint8 s (desc.value u) hleft.holds
  have hleft₁ : (s.skip 1).Left (desc.statusBytes ++ DemoMsg.bytes msg) := hleft.skip
  simp only [msgDeserialize, hread, Option.getD_some, hind', hopcode, hcmdClass, hcmdId, setLowByte,
    hopc', Nat.zero_div, Nat.zero_mul, Nat.zero_add]
  by_cases hstatus : desc.statusHdrInd
  · rw [MsgDesc.statusBytes, if_pos hstatus] at hleft₁
    have hread' := hu.readUint8 (s.skip 1) desc.statusCode hleft₁.holds
    have hleft₂ : ((s.skip 1).skip 1).Left (DemoMsg.bytes msg) := hleft₁.skip
    obtain ⟨s', msg', hrun, hend, hpayload⟩ := read_payload hu hleft₂ desc payload
    simp only [if_pos hstatus, hread', Option.getD_some]
    exact ⟨s', desc, msg', hrun, hend, rfl, hpayload⟩
  · rw [MsgDesc.statusBytes, if_neg hstatus, List.nil_append] at hleft₁
    obtain ⟨s', msg', hrun, hend, hpayload⟩ := read_payload hu hleft₁
      { desc with statusCode := 0 } payload
    simp only [if_neg hstatus, Option.getD_none]
    exact ⟨s', _, msg', hrun, hend, rfl, hpayload⟩

end

/-! ## Capabilities -/

def TempSensorSent (tempSensor : Nat) : Prop :=
  temperatureSensorNotSupported < tempSensor ∧ tempSensor < temperatureSensorLast

instance (tempSensor : Nat) : Decidable (TempSensorSent tempSensor) :=
  inferInstanceAs (Decidable (_ ∧ _))

def CapabilityDiscovery.records (cap : CapabilityDiscovery) : List Item :=
  (((if cap.numButtons ≠ 0 then
      [.block tagNumberOfButtons cap.numButtons (cap.buttonIdArr.slice 0 cap.numButtons.toNat)]
    else []) ++
    if cap.numLeds ≠ 0 then
      [.block tagNumberOfLeds cap.numLeds (cap.ledIdArr.slice 0 cap.numLeds.toNat)]
    else []) ++
    if TempSensorSent cap.tempSensor then
      [.uint8 tagTempSensorAvailable (UInt8.ofNat cap.tempSensor)] else []) ++
    [.uint8 tagLinkType cap.linkType]

def CapabilityRoundTrip (u : ParserUtils) : Prop :=
  ∀ (cap : CapabilityDiscovery) (buttonIdArr ledIdArr : Mem),
    ReadsBack (fun s => capabilityDiscoveryNotificationSerialize u s cap)
      (capabilityDiscoveryNotificationDeserialize u) (encodeItems u cap.records).length
      ⟨0, 0, 0, buttonIdArr, ledIdArr, 0⟩ fun cap' =>
        cap'.numButtons = cap.numButtons ∧ cap'.numLeds = cap.numLeds ∧
          (cap.tempSensor < temperatureSensorLast → cap'.tempSensor = cap.tempSensor) ∧
          cap'.linkType = cap.linkType ∧
          cap'.buttonIdArr.slice 0 cap.numButtons.toNat =
            cap.buttonIdArr.slice 0 cap.numButtons.toNat ∧
          cap'.ledIdArr.slice 0 cap.numLeds.toNat = cap.ledIdArr.slice 0 cap.numLeds.toNat

/-- A field that is sent where it is not zero, into a field that is zero. -/
theorem ite_ne_zero_self {β : Type} [DecidableEq β] [OfNat β 0] (v : β) :
    (if v ≠ 0 then v else 0) = v := by
  split
  · rfl
  · next h => exact (not_not.mp h).symm

theorem slice_ite_blit (num : UInt8) (arr old : Mem) :
    (if num ≠ 0 then old.blit 0 (arr.slice 0 num.toNat) else old).slice 0 num.toNat =
      arr.slice 0 num.toNat := by
  split
  · exact slice_blit_slice arr old num.toNat
  · next h =>
    rw [not_not.mp h]
    rfl

section

variable {u : ParserUtils} (hu : Documented u)

include hu

theorem capability_takes_buttons (num : UInt8) (arr : Mem) :
    Takes u (capabilityOnRecord u) (.block tagNumberOfButtons num (arr.slice 0 num.toNat))
      fun cap => { cap with
        numButtons := num, buttonIdArr := cap.buttonIdArr.blit 0 (arr.slice 0 num.toNat) } := by
  refine ⟨(by decide : tagNumberOfButtons < tagIdMax), fun s cap h => ?_⟩
  have hread := readNbytes_of_length hu (Mem.length_slice arr 0 num.toNat) h
  simp only [capabilityOnRecord, Item.tl, Item.body, if_true, hread, storeRead, Option.getD_some]

theorem capability_takes_leds (num : UInt8) (arr : Mem) :
    Takes u (capabilityOnRecord u) (.block tagNumberOfLeds num (arr.slice 0 num.toNat))
      fun cap => { cap with
        numLeds := num, ledIdArr := cap.ledIdArr.blit 0 (arr.slice 0 num.toNat) } := by
  refine ⟨(by decide : tagNumberOfLeds < tagIdMax), fun s cap h => ?_⟩
  have hread := readNbytes_of_length hu (Mem.length_slice arr 0 num.toNat) h
  have hbuttons : ¬tagNumberOfLeds = tagNumberOfButtons := by decide
  simp only [capabilityOnRecord, Item.tl, Item.body, if_neg hbuttons, if_true, hread, storeRead,
    Option.getD_some]

theorem capability_takes_tempSensor (v : UInt8) :
    Takes u (capabilityOnRecord u) (.uint8 tagTempSensorAvailable v)
      fun cap => { cap with tempSensor := setLowByte cap.tempSensor v } := by
  refine ⟨(by decide : tagTempSensorAvailable < tagIdMax), fun s cap h => ?_⟩
  have hread := hu.readUint8 s v h
  have hbuttons : ¬tagTempSensorAvailable = tagNumberOfButtons := by decide
  have hleds : ¬tagTempSensorAvailable = tagNumberOfLeds := by decide
  simp only [capabilityOnRecord, Item.tl, Item.body, if_neg hbuttons, if_neg hleds, if_true, hread,
    Option.elim_some]
  rfl

theorem capability_takes_linkType (v : UInt8) :
    Takes u (capabilityOnRecord u) (.uint8 tagLinkType v) fun cap => { cap with linkType := v } := by
  refine ⟨(by decide : tagLinkType < tagIdMax), fun s cap h => ?_⟩
  have hread := hu.readUint8 s v h
  have hbuttons : ¬tagLinkType = tagNumberOfButtons := by decide
  have hleds : ¬tagLinkType = tagNumberOfLeds := by decide
  have htemp : ¬tagLinkType = tagTempSensorAvailable := by decide
  simp only [capabilityOnRecord, Item.tl, Item.body, if_neg hbuttons, if_neg hleds, if_neg htemp,
    if_true, hread, Option.getD_some]
  rfl

theorem capability_roundTrip : CapabilityRoundTrip u := by
  intro cap buttonIdArr ledIdArr
  have hbuttons : cap.numButtons ≠ 0 → _ := fun _ =>
    Carries.mk (hu.writesBlock tagNumberOfButtons cap.numButtons
      (cap.buttonIdArr.slice 0 cap.numButtons.toNat))
      ((capability_takes_buttons hu cap.numButtons cap.buttonIdArr).reads hu)
  have hleds : cap.numLeds ≠ 0 → _ := fun _ =>
    Carries.mk (hu.writesBlock tagNumberOfLeds cap.numLeds
      (cap.ledIdArr.slice 0 cap.numLeds.toNat))
      ((capability_takes_leds hu cap.numLeds cap.ledIdArr).reads hu)
  have htemp : TempSensorSent cap.tempSensor → _ := fun _ =>
    Carries.mk (hu.writesUint8 tagTempSensorAvailable (UInt8.ofNat cap.tempSensor))
      ((capability_takes_tempSensor hu (UInt8.ofNat cap.tempSensor)).reads hu)
  have hlink := Carries.mk (hu.writesUint8 tagLinkType cap.linkType)
    ((capability_takes_linkType hu cap.linkType).reads hu)
  have hall := (((Carries.when hbuttons).comp (Carries.when hleds)).comp (Carries.when htemp)).comp
    hlink
  refine hall.readsBack hu ?_
  refine ⟨?_, ?_, ?_, rfl, ?_, ?_⟩
  · simp only [apply_ite CapabilityDiscovery.numButtons, ite_self]
    exact ite_ne_zero_self _
  · simp only [apply_ite CapabilityDiscovery.numLeds, ite_self]
    exact ite_ne_zero_self _
  · intro hlast
    simp only [apply_ite CapabilityDiscovery.tempSensor, ite_self]
    split
    · next ht =>
      change 0 / 256 * 256 + (UInt8.ofNat cap.tempSensor).toNat = cap.tempSensor
      rw [UInt8.toNat_ofNat_of_lt' (Nat.lt_trans ht.2 (by decide))]
      omega
    · next ht =>
      unfold TempSensorSent temperatureSensorNotSupported at ht
      omega
  · simp only [apply_ite CapabilityDiscovery.buttonIdArr, ite_self]
    exact slice_ite_blit cap.numButtons cap.buttonIdArr buttonIdArr
  · simp only [apply_ite CapabilityDiscovery.ledIdArr, ite_self]
    exact slice_ite_blit cap.numLeds cap.ledIdArr ledIdArr

end

/-! ## Action requests -/

def LedActionReq.tag (req : LedActionReq) : UInt8 :=
  if req.actionReq = actionLedOn then tagLedOnActionReq else tagLedOffActionReq

def LedActionReq.records (req : LedActionReq) : List Item :=
  if req.numLeds = 0 then []
  else [idsItem req.tag req.numLeds req.ledIdArr] ++
    [.uint32 tagCurrentGpsTimeInSeconds req.gpsTimeInSeconds]

/-- A request for no LED is accepted and nothing of it is sent. -/
def ActionReqRoundTrip (u : ParserUtils) : Prop :=
  ∀ (req : LedActionReq) (ledIdArr : Mem), DeviceIds req.numLeds req.ledIdArr →
    ReadsBack (fun s => actionReqSerialize u s req) (actionReqDeserialize u)
      (encodeItems u req.records).length ⟨0, 0, ledIdArr, 0⟩ fun req' =>
        if req.numLeds = 0 then req' = ⟨0, 0, ledIdArr, 0⟩
        else req'.actionReq = req.actionReq ∧ req'.numLeds = req.numLeds ∧
          req'.gpsTimeInSeconds = req.gpsTimeInSeconds ∧
          SameIds req.numLeds req.ledIdArr req'.ledIdArr

section

variable {u : ParserUtils} (hu : Documented u)

include hu

theorem actionReq_takes_ids {tag num : UInt8} {arr : Mem}
    (htag : tag = tagLedOnActionReq ∨ tag = tagLedOffActionReq) (hids : DeviceIds num arr) :
    Takes u (actionReqOnRecord u) (idsItem tag num arr) fun req => { req with
      actionReq := if tag = tagLedOnActionReq then actionLedOn else actionLedOff
      numLeds := num
      ledIdArr := req.ledIdArr.blit 0 (idsBytes num arr) } := by
  have hmax : tag < tagIdMax := by rcases htag with rfl | rfl <;> decide
  refine ⟨hmax, fun s req h => ?_⟩
  have htl : (idsItem tag num arr).tl.tag = tag := rfl
  have hread := readIds_idsItem hu tag hids h req.ledIdArr
  simp only [actionReqOnRecord, htl, if_pos htag, hread]
  rfl

theorem actionReq_takes_gps (v : UInt32) :
    Takes u (actionReqOnRecord u) (.uint32 tagCurrentGpsTimeInSeconds v)
      fun req => { req with gpsTimeInSeconds := v } := by
  refine ⟨(by decide : tagCurrentGpsTimeInSeconds < tagIdMax), fun s req h => ?_⟩
  have hread := hu.readUint32 s v h
  have hleds : ¬(tagCurrentGpsTimeInSeconds = tagLedOnActionReq ∨
      tagCurrentGpsTimeInSeconds = tagLedOffActionReq) := by decide
  simp only [actionReqOnRecord, Item.tl, Item.body, if_neg hleds, if_true, hread, Option.getD_some]

theorem actionReq_roundTrip : ActionReqRoundTrip u := by
  intro req ledIdArr hids
  by_cases hnum : req.numLeds = 0
  · have hwrites : (fun s => actionReqSerialize u s req) = fun s => s := by
      funext s
      exact if_pos hnum
    rw [hwrites, LedActionReq.records, if_pos hnum]
    exact Carries.nil.readsBack hu (if_pos hnum ▸ rfl)
  by_cases haction : req.actionReq = actionLedOn ∨ req.actionReq = actionLedOff
  · have htag : req.tag = tagLedOnActionReq ∨ req.tag = tagLedOffActionReq := by
      unfold LedActionReq.tag
      split
      · exact .inl rfl
      · exact .inr rfl
    have hwrites : (fun s => actionReqSerialize u s req) = fun s =>
        u.writeEntryTlvUint32 (writeIds u s req.tag 1 req.numLeds req.ledIdArr)
          ⟨4, tagCurrentGpsTimeInSeconds⟩ req.gpsTimeInSeconds := by
      funext s
      unfold actionReqSerialize
      rw [if_neg hnum, if_pos haction]
      rfl
    have hleds := Carries.mk (writesIds hu req.tag req.ledIdArr fun _ => rfl)
      ((actionReq_takes_ids hu htag hids).reads hu)
    have hgps := Carries.mk (hu.writesUint32 tagCurrentGpsTimeInSeconds req.gpsTimeInSeconds)
      ((actionReq_takes_gps hu req.gpsTimeInSeconds).reads hu)
    rw [hwrites, LedActionReq.records, if_neg hnum]
    refine (hleds.comp hgps).readsBack hu ?_
    rw [if_neg hnum]
    refine ⟨?_, rfl, rfl, sameIds_blit _ _ _⟩
    change (if req.tag = tagLedOnActionReq then actionLedOn else actionLedOff) = req.actionReq
    unfold LedActionReq.tag
    rcases haction with haction | haction
    · rw [haction]
      rfl
    · rw [haction]
      rfl
  · intro buffer _ hret
    simp only [actionReqSerialize, if_neg hnum, if_neg haction] at hret
    exact absurd hret (by decide : errorInvalidArgs ≠ errorNone)

end

/-! ## Action responses -/

def LedActionResp.tag (resp : LedActionResp) : UInt8 :=
  if resp.actionResp = actionLedOn then tagLedOnResp else tagLedOffResp

def ActionResp.records (resp : ActionResp) : List Item :=
  ((((if resp.respType = actionTypeLed then
      [idsItem resp.ledActionResp.tag resp.ledActionResp.numLeds resp.ledActionResp.ledIdArr]
    else []) ++
    if resp.respType = actionTypeButton then
      [idsItem tagButtonPressedResp resp.buttonActionResp.numButtons
        resp.buttonActionResp.buttonIdArr]
    else []) ++
    if resp.gpsTimeInSeconds ≠ 0 then [.uint32 tagCurrentGpsTimeInSeconds resp.gpsTimeInSeconds]
    else []) ++
    if resp.downLinkLatencySecs ≠ 0 then [.uint32 tagDlLatencyInSeconds resp.downLinkLatencySecs]
    else []) ++
    if resp.linkType ≠ 0 then [.uint8 tagLinkType resp.linkType] else []

def ActionRespRoundTrip (u : ParserUtils) : Prop :=
  ∀ (resp : ActionResp) (ledIdArr buttonIdArr : Mem),
    (resp.respType = actionTypeLed →
      DeviceIds resp.ledActionResp.numLeds resp.ledActionResp.ledIdArr) →
    (resp.respType = actionTypeButton → resp.buttonActionResp.numButtons ≠ allDevices ∧
      DeviceIds resp.buttonActionResp.numButtons resp.buttonActionResp.buttonIdArr) →
    ReadsBack (fun s => actionRespSerialize u s resp) (actionRespDeserialize u)
      (encodeItems u resp.records).length ⟨0, 0, 0, 0, ⟨0, 0, ledIdArr⟩, ⟨0, 0, buttonIdArr⟩⟩
      fun resp' =>
        resp'.gpsTimeInSeconds = resp.gpsTimeInSeconds ∧
          resp'.downLinkLatencySecs = resp.downLinkLatencySecs ∧ resp'.linkType = resp.linkType ∧
          (resp.respType = actionTypeLed → resp'.respType = resp.respType ∧
            resp'.ledActionResp.actionResp = resp.ledActionResp.actionResp ∧
            resp'.ledActionResp.numLeds = resp.ledActionResp.numLeds ∧
            SameIds resp.ledActionResp.numLeds resp.ledActionResp.ledIdArr
              resp'.ledActionResp.ledIdArr) ∧
          (resp.respType = actionTypeButton → resp'.respType = resp.respType ∧
            resp'.buttonActionResp.actionResp = resp.buttonActionResp.actionResp ∧
            resp'.buttonActionResp.numButtons = resp.buttonActionResp.numButtons ∧
            SameIds resp.buttonActionResp.numButtons resp.buttonActionResp.buttonIdArr
              resp'.buttonActionResp.buttonIdArr)

section

variable {u : ParserUtils} (hu : Documented u)

include hu

theorem actionResp_takes_leds {tag num : UInt8} {arr : Mem}
    (htag : tag = tagLedOnResp ∨ tag = tagLedOffResp) (hids : DeviceIds num arr) :
    Takes u (actionRespOnRecord u) (idsItem tag num arr) fun resp => { resp with
      ledActionResp := ⟨if tag = tagLedOnResp then actionLedOn else actionLedOff, num,
        resp.ledActionResp.ledIdArr.blit 0 (idsBytes num arr)⟩
      respType := actionTypeLed } := by
  have hmax : tag < tagIdMax := by rcases htag with rfl | rfl <;> decide
  refine ⟨hmax, fun s resp h => ?_⟩
  have htl : (idsItem tag num arr).tl.tag = tag := rfl
  have hread := readIds_idsItem hu tag hids h resp.ledActionResp.ledIdArr
  simp only [actionRespOnRecord, htl, if_pos htag, hread]
  rfl

theorem actionResp_takes_buttons {num : UInt8} {arr : Mem} (hids : DeviceIds num arr) :
    Takes u (actionRespOnRecord u) (idsItem tagButtonPressedResp num arr) fun resp => { resp with
      buttonActionResp := ⟨actionButtonPressed, num,
        resp.buttonActionResp.buttonIdArr.blit 0 (idsBytes num arr)⟩
      respType := actionTypeButton } := by
  refine ⟨(by decide : tagButtonPressedResp < tagIdMax), fun s resp h => ?_⟩
  have htl : (idsItem tagButtonPressedResp num arr).tl.tag = tagButtonPressedResp := rfl
  have hread := readIds_idsItem hu tagButtonPressedResp hids h resp.buttonActionResp.buttonIdArr
  have hleds : ¬(tagButtonPressedResp = tagLedOnResp ∨ tagButtonPressedResp = tagLedOffResp) := by
    decide
  simp only [actionRespOnRecord, htl, if_neg hleds, if_true, hread]
  rfl

theorem actionResp_takes_gps (v : UInt32) :
    Takes u (actionRespOnRecord u) (.uint32 tagCurrentGpsTimeInSeconds v)
      fun resp => { resp with gpsTimeInSeconds := v } := by
  refine ⟨(by decide : tagCurrentGpsTimeInSeconds < tagIdMax), fun s resp h => ?_⟩
  have hread := hu.readUint32 s v h
  have hleds : ¬(tagCurrentGpsTimeInSeconds = tagLedOnResp ∨
      tagCurrentGpsTimeInSeconds = tagLedOffResp) := by decide
  have hbuttons : ¬tagCurrentGpsTimeInSeconds = tagButtonPressedResp := by decide
  simp only [actionRespOnRecord, Item.tl, Item.body, if_neg hleds, if_neg hbuttons, if_true, hread,
    Option.getD_some]

theorem actionResp_takes_latency (v : UInt32) :
    Takes u (actionRespOnRecord u) (.uint32 tagDlLatencyInSeconds v)
      fun resp => { resp with downLinkLatencySecs := v } := by
  refine ⟨(by decide : tagDlLatencyInSeconds < tagIdMax), fun s resp h => ?_⟩
  have hread := hu.readUint32 s v h
  have hleds : ¬(tagDlLatencyInSeconds = tagLedOnResp ∨ tagDlLatencyInSeconds = tagLedOffResp) := by
    decide
  have hbuttons : ¬tagDlLatencyInSeconds = tagButtonPressedResp := by decide
  have hgps : ¬tagDlLatencyInSeconds = tagCurrentGpsTimeInSeconds := by decide
  simp only [actionRespOnRecord, Item.tl, Item.body, if_neg hleds, if_neg hbuttons, if_neg hgps,
    if_true, hread, Option.getD_some]

theorem actionResp_takes_linkType (v : UInt8) :
    Takes u (actionRespOnRecord u) (.uint8 tagLinkType v)
      fun resp => { resp with linkType := v } := by
  refine ⟨(by decide : tagLinkType < tagIdMax), fun s resp h => ?_⟩
  have hread := hu.readUint8 s v h
  have hleds : ¬(tagLinkType = tagLedOnResp ∨ tagLinkType = tagLedOffResp) := by decide
  have hbuttons : ¬tagLinkType = tagButtonPressedResp := by decide
  have hgps : ¬tagLinkType = tagCurrentGpsTimeInSeconds := by decide
  have hlatency : ¬tagLinkType = tagDlLatencyInSeconds := by decide
  simp only [actionRespOnRecord, Item.tl, Item.body, if_neg hleds, if_neg hbuttons, if_neg hgps,
    if_neg hlatency, if_true, hread, Option.getD_some]
  rfl

theorem actionResp_roundTrip : ActionRespRoundTrip u := by
  intro resp ledIdArr buttonIdArr hledIds hbuttonIds
  by_cases hrefused : resp.refused
  · intro buffer _ hret
    simp only [actionRespSerialize, if_pos hrefused] at hret
    exact absurd hret (by decide : errorInvalidArgs ≠ errorNone)
  have htag : resp.ledActionResp.tag = tagLedOnResp ∨ resp.ledActionResp.tag = tagLedOffResp := by
    unfold LedActionResp.tag
    split
    · exact .inl rfl
    · exact .inr rfl
  have hleds : resp.respType = actionTypeLed → _ := fun htype =>
    Carries.mk (writesIds hu resp.ledActionResp.tag resp.ledActionResp.ledIdArr fun _ => rfl)
      ((actionResp_takes_leds hu htag (hledIds htype)).reads hu)
  have hbuttons : resp.respType = actionTypeButton → _ := fun htype =>
    Carries.mk (@writesIds _ hu tagButtonPressedResp 0 _ resp.buttonActionResp.buttonIdArr
      fun hall => absurd hall (hbuttonIds htype).1)
      ((actionResp_takes_buttons hu (hbuttonIds htype).2).reads hu)
  have hgps : resp.gpsTimeInSeconds ≠ 0 → _ := fun _ =>
    Carries.mk (hu.writesUint32 tagCurrentGpsTimeInSeconds resp.gpsTimeInSeconds)
      ((actionResp_takes_gps hu resp.gpsTimeInSeconds).reads hu)
  have hlatency : resp.downLinkLatencySecs ≠ 0 → _ := fun _ =>
    Carries.mk (hu.writesUint32 tagDlLatencyInSeconds resp.downLinkLatencySecs)
      ((actionResp_takes_latency hu resp.downLinkLatencySecs).reads hu)
  have hlink : resp.linkType ≠ 0 → _ := fun _ =>
    Carries.mk (hu.writesUint8 tagLinkType resp.linkType)
      ((actionResp_takes_linkType hu resp.linkType).reads hu)
  have hall := ((((Carries.when hleds).comp (Carries.when hbuttons)).comp
    (Carries.when hgps)).comp (Carries.when hlatency)).comp (Carries.when hlink)
  have hwrites : (fun s => actionRespSerialize u s resp) = _ :=
    funext fun s => if_neg hrefused
  rw [hwrites]
  refine hall.readsBack hu ?_
  refine ⟨?_, ?_, ?_, ?_, ?_⟩
  · simp only [apply_ite ActionResp.gpsTimeInSeconds, ite_self]
    exact ite_ne_zero_self _
  · simp only [apply_ite ActionResp.downLinkLatencySecs, ite_self]
    exact ite_ne_zero_self _
  · simp only [apply_ite ActionResp.linkType, ite_self]
    exact ite_ne_zero_self _
  · intro htype
    have hbutton : ¬resp.respType = actionTypeButton := by
      rw [htype]
      decide
    simp only [if_pos htype, if_neg hbutton, apply_ite ActionResp.respType,
      apply_ite ActionResp.ledActionResp, ite_self]
    refine ⟨htype.symm, ?_, trivial, sameIds_blit _ _ _⟩
    have haction : resp.ledActionResp.actionResp = actionLedOn ∨
        resp.ledActionResp.actionResp = actionLedOff := by
      unfold ActionResp.refused actionLedNoAction actionLedLast at hrefused
      unfold actionLedOn actionLedOff
      have hsent := fun h => hrefused (.inr (.inl ⟨htype, h⟩))
      omega
    unfold LedActionResp.tag
    rcases haction with haction | haction
    · rw [haction]
      rfl
    · rw [haction]
      rfl
  · intro htype
    have haction : resp.buttonActionResp.actionResp = actionButtonPressed := by
      by_contra haction
      exact hrefused (.inr (.inr ⟨htype, haction⟩))
    simp only [if_pos htype, apply_ite ActionResp.respType,
      apply_ite ActionResp.buttonActionResp, ite_self]
    exact ⟨htype.symm, haction.symm, trivial, sameIds_blit _ _ _⟩

end

/-! ## Action notifications -/

def ActionNotification.records (notify : ActionNotification) : List Item :=
  (((if notify.buttonActionNotify.actionResp = actionButtonPressed then
      [idsItem tagButtonPressActionNotify notify.buttonActionNotify.numButtons
        notify.buttonActionNotify.buttonIdArr]
    else []) ++
    if TempSensorSent notify.tempSensor then
      [.uint16 tagTemperatureSensorDataNotify notify.temperature.toUInt16] else []) ++
    [.uint32 tagCurrentGpsTimeInSeconds notify.gpsTimeInSeconds]) ++
    [.uint8 tagLinkType notify.linkType]

/-- The temperature is sent where there is a sensor, its unit is not. -/
def NotificationRoundTrip (u : ParserUtils) : Prop :=
  ∀ (notify : ActionNotification) (buttonIdArr : Mem),
    (notify.buttonActionNotify.actionResp = actionButtonPressed →
      notify.buttonActionNotify.numButtons ≠ allDevices ∧
        DeviceIds notify.buttonActionNotify.numButtons notify.buttonActionNotify.buttonIdArr) →
    ReadsBack (fun s => actionNotificationSerialize u s notify) (actionNotificationDeserialize u)
      (encodeItems u notify.records).length ⟨0, 0, 0, 0, ⟨0, 0, buttonIdArr⟩⟩ fun notify' =>
        notify'.gpsTimeInSeconds = notify.gpsTimeInSeconds ∧ notify'.linkType = notify.linkType ∧
          (TempSensorSent notify.tempSensor → notify'.temperature = notify.temperature) ∧
          (notify.buttonActionNotify.actionResp = actionButtonPressed →
            notify'.buttonActionNotify.actionResp = actionButtonPressed ∧
              notify'.buttonActionNotify.numButtons = notify.buttonActionNotify.numButtons ∧
              SameIds notify.buttonActionNotify.numButtons notify.buttonActionNotify.buttonIdArr
                notify'.buttonActionNotify.buttonIdArr)

section

variable {u : ParserUtils} (hu : Documented u)

include hu

theorem notification_takes_buttons {num : UInt8} {arr : Mem} (hids : DeviceIds num arr) :
    Takes u (actionNotificationOnRecord u) (idsItem tagButtonPressActionNotify num arr)
      fun notify => { notify with
        buttonActionNotify := ⟨actionButtonPressed, num,
          notify.buttonActionNotify.buttonIdArr.blit 0 (idsBytes num arr)⟩ } := by
  refine ⟨(by decide : tagButtonPressActionNotify < tagIdMax), fun s notify h => ?_⟩
  have htl : (idsItem tagButtonPressActionNotify num arr).tl.tag = tagButtonPressActionNotify := rfl
  have hread := readIds_idsItem hu tagButtonPressActionNotify hids h
    notify.buttonActionNotify.buttonIdArr
  simp only [actionNotificationOnRecord, htl, if_true, hread]
  rfl

theorem notification_takes_temperature (v : Int16) :
    Takes u (actionNotificationOnRecord u) (.uint16 tagTemperatureSensorDataNotify v.toUInt16)
      fun notify => { notify with temperature := v } := by
  refine ⟨(by decide : tagTemperatureSensorDataNotify < tagIdMax), fun s notify h => ?_⟩
  have hread := hu.readUint16 s v.toUInt16 h
  have hbuttons : ¬tagTemperatureSensorDataNotify = tagButtonPressActionNotify := by decide
  simp only [actionNotificationOnRecord, Item.tl, Item.body, if_neg hbuttons, if_true, hread,
    Option.elim_some]
  rfl

theorem notification_takes_gps (v : UInt32) :
    Takes u (actionNotificationOnRecord u) (.uint32 tagCurrentGpsTimeInSeconds v)
      fun notify => { notify with gpsTimeInSeconds := v } := by
  refine ⟨(by decide : tagCurrentGpsTimeInSeconds < tagIdMax), fun s notify h => ?_⟩
  have hread := hu.readUint32 s v h
  have hbuttons : ¬tagCurrentGpsTimeInSeconds = tagButtonPressActionNotify := by decide
  have htemp : ¬tagCurrentGpsTimeInSeconds = tagTemperatureSensorDataNotify := by decide
  simp only [actionNotificationOnRecord, Item.tl, Item.body, if_neg hbuttons, if_neg htemp, if_true,
    hread, Option.getD_some]

theorem notification_takes_linkType (v : UInt8) :
    Takes u (actionNotificationOnRecord u) (.uint8 tagLinkType v)
      fun notify => { notify with linkType := v } := by
  refine ⟨(by decide : tagLinkType < tagIdMax), fun s notify h => ?_⟩
  have hread := hu.readUint8 s v h
  have hbuttons : ¬tagLinkType = tagButtonPressActionNotify := by decide
  have htemp : ¬tagLinkType = tagTemperatureSensorDataNotify := by decide
  have hgps : ¬tagLinkType = tagCurrentGpsTimeInSeconds := by decide
  simp only [actionNotificationOnRecord, Item.tl, Item.body, if_neg hbuttons, if_neg htemp,
    if_neg hgps, if_true, hread, Option.getD_some]
  rfl

theorem notification_roundTrip : NotificationRoundTrip u := by
  intro notify buttonIdArr hids
  have hbuttons : notify.buttonActionNotify.actionResp = actionButtonPressed → _ := fun haction =>
    Carries.mk (@writesIds _ hu tagButtonPressActionNotify 0 _
      notify.buttonActionNotify.buttonIdArr fun hall => absurd hall (hids haction).1)
      ((notification_takes_buttons hu (hids haction).2).reads hu)
  have htemp : TempSensorSent notify.tempSensor → _ := fun _ =>
    Carries.mk (hu.writesUint16 tagTemperatureSensorDataNotify notify.temperature.toUInt16)
      ((notification_takes_temperature hu notify.temperature).reads hu)
  have hgps := Carries.mk (hu.writesUint32 tagCurrentGpsTimeInSeconds notify.gpsTimeInSeconds)
    ((notification_takes_gps hu notify.gpsTimeInSeconds).reads hu)
  have hlink := Carries.mk (hu.writesUint8 tagLinkType notify.linkType)
    ((notification_takes_linkType hu notify.linkType).reads hu)
  have hall := (((Carries.when hbuttons).comp (Carries.when htemp)).comp hgps).comp hlink
  refine hall.readsBack hu ?_
  refine ⟨rfl, rfl, ?_, ?_⟩
  · intro hsent
    simp only [if_pos hsent]
  · intro haction
    simp only [if_pos haction, apply_ite ActionNotification.buttonActionNotify, ite_self]
    exact ⟨trivial, trivial, sameIds_blit _ _ _⟩

/-- What each message is sent with comes back. -/
theorem protocol_roundTrip : MsgRoundTrip u ∧ CapabilityRoundTrip u ∧ ActionReqRoundTrip u ∧
    ActionRespRoundTrip u ∧ NotificationRoundTrip u :=
  ⟨msg_roundTrip hu, capability_roundTrip hu, actionReq_roundTrip hu, actionResp_roundTrip hu,
    notification_roundTrip hu⟩

end

theorem protocol_roundTrip_headerUtils : Documented headerUtils ∧ MsgRoundTrip headerUtils ∧
    CapabilityRoundTrip headerUtils ∧ ActionReqRoundTrip headerUtils ∧
    ActionRespRoundTrip headerUtils ∧ NotificationRoundTrip headerUtils :=
  ⟨headerUtils_documented, protocol_roundTrip headerUtils_documented⟩

/-- A notification of 21 degrees Celsius. -/
def celsius : ActionNotification := ⟨1, 21, 1000, 1, ⟨0, 0, fun _ => 0⟩⟩

/-- The serializer accepts the unit and the deserializer leaves it as it was. -/
theorem unit_not_sent : Documented headerUtils ∧ ∃ s notify,
    actionNotificationDeserialize headerUtils 32
        (parseStateInit (actionNotificationSerialize headerUtils
          (parseStateInit (List.replicate 16 0)) celsius).written)
        ⟨0, 0, 0, 0, ⟨0, 0, fun _ => 0⟩⟩ = some (s, notify) ∧
      (actionNotificationSerialize headerUtils (parseStateInit (List.replicate 16 0))
        celsius).retCode = errorNone ∧
      s.retCode = errorNone ∧ notify.temperature = celsius.temperature ∧
      notify.tempSensor ≠ celsius.tempSensor := by
  refine ⟨headerUtils_documented, _, _, rfl, ?_, ?_, ?_, ?_⟩
  · decide +kernel
  · decide +kernel
  · decide +kernel
  · decide +kernel

/-! ## All buttons -/

section

variable {α : Type} {u : ParserUtils}

/-- The marker stands behind a header of length 0: the deserializer takes the header for an empty
list, and goes on with the marker as the next header. -/
def LeavesMarker (u : ParserUtils) (serialize : SidParseState → SidParseState)
    (onRecord : TlInTlv → SidParseState → α → SidParseState × α) (tag : UInt8) (rest : List Item)
    (f : α → α) : Prop :=
  ∀ (buffer : List UInt8) (a : α),
    (encodeItems u (.block tag 0 [allDevices] :: rest)).length ≤ buffer.length →
      (serialize (parseStateInit buffer)).written =
          u.encodeTl ⟨0, tag⟩ ++ allDevices :: encodeItems u rest ∧
        ∃ tl s, s.Left (allDevices :: encodeItems u rest) ∧ ∀ fuel,
          tlvLoop u onRecord (fuel + 1) ⟨0, 0⟩
              (parseStateInit (serialize (parseStateInit buffer)).written) a =
            tlvLoop u onRecord fuel tl s (f a)

theorem leavesMarker (hu : Documented u) {serialize : SidParseState → SidParseState}
    {onRecord : TlInTlv → SidParseState → α → SidParseState × α} {tag : UInt8} {rest : List Item}
    {f : α → α} (hwrites : WritesItems u serialize (.block tag 0 [allDevices] :: rest))
    (htakes : Takes u onRecord (.block tag 0 []) f) :
    LeavesMarker u serialize onRecord tag rest f := by
  intro buffer a hroom
  have hbytes : encodeItems u (.block tag 0 [allDevices] :: rest) =
      u.encodeTl ⟨0, tag⟩ ++ allDevices :: encodeItems u rest :=
    List.append_assoc (u.encodeTl ⟨0, tag⟩) [allDevices] (encodeItems u rest)
  have hempty : encodeItems u [.block tag 0 []] = u.encodeTl ⟨0, tag⟩ := by
    rw [encodeItems_singleton]
    exact List.append_nil _
  have hwritten := (hwrites.written hroom).1
  rw [hbytes] at hwritten
  refine ⟨hwritten, ?_⟩
  rw [hwritten]
  have hleft := SidParseState.left_init (u.encodeTl ⟨0, tag⟩ ++ allDevices :: encodeItems u rest)
  obtain ⟨tl, s, hs, hrun⟩ := htakes.reads hu ⟨0, 0⟩ _ a (allDevices :: encodeItems u rest)
    (hempty.symm ▸ hleft)
  rw [hempty] at hrun
  exact ⟨tl, s, hs, hrun⟩

/-- The records behind the list of a response. -/
def ActionResp.recordsBehind (resp : ActionResp) : List Item :=
  ((if resp.gpsTimeInSeconds ≠ 0 then [.uint32 tagCurrentGpsTimeInSeconds resp.gpsTimeInSeconds]
    else []) ++
    if resp.downLinkLatencySecs ≠ 0 then [.uint32 tagDlLatencyInSeconds resp.downLinkLatencySecs]
    else []) ++
    if resp.linkType ≠ 0 then [.uint8 tagLinkType resp.linkType] else []

/-- The records behind the list of a notification. -/
def ActionNotification.recordsBehind (notify : ActionNotification) : List Item :=
  ((if TempSensorSent notify.tempSensor then
      [.uint16 tagTemperatureSensorDataNotify notify.temperature.toUInt16] else []) ++
    [.uint32 tagCurrentGpsTimeInSeconds notify.gpsTimeInSeconds]) ++
    [.uint8 tagLinkType notify.linkType]

theorem writesIds_all (hu : Documented u) (tag : UInt8) (arr : Mem) :
    WritesItems u (fun s => writeIds u s tag 0 allDevices arr) [.block tag 0 [allDevices]] := by
  unfold WritesItems writeIds
  rw [encodeItems_singleton]
  simp only [if_true]
  exact fun s h => hu.writeTlvUint8 s ⟨0, tag⟩ allDevices h

theorem WritesItems.when {f : SidParseState → SidParseState} {items : List Item} {c : Prop}
    [Decidable c] (hf : c → WritesItems u f items) :
    WritesItems u (fun s => if c then f s else s) (if c then items else []) := by
  by_cases hc : c
  · simp only [if_pos hc]
    exact hf hc
  · simp only [if_neg hc]
    exact WritesItems.nil

/-- What a response or a notification for all buttons is worth. -/
theorem allButtons_left (hu : Documented u) :
    (∀ resp : ActionResp, resp.respType = actionTypeButton →
      resp.buttonActionResp.actionResp = actionButtonPressed →
      resp.buttonActionResp.numButtons = allDevices →
      LeavesMarker u (fun s => actionRespSerialize u s resp) (actionRespOnRecord u)
        tagButtonPressedResp resp.recordsBehind fun a => { a with
          buttonActionResp := ⟨actionButtonPressed, 0, a.buttonActionResp.buttonIdArr⟩
          respType := actionTypeButton }) ∧
    ∀ notify : ActionNotification,
      notify.buttonActionNotify.actionResp = actionButtonPressed →
      notify.buttonActionNotify.numButtons = allDevices →
      LeavesMarker u (fun s => actionNotificationSerialize u s notify)
        (actionNotificationOnRecord u) tagButtonPressActionNotify notify.recordsBehind fun a =>
          { a with
            buttonActionNotify := ⟨actionButtonPressed, 0, a.buttonActionNotify.buttonIdArr⟩ } := by
  have hread (s : SidParseState) (old : Mem) (h : s.Holds []) (tag : UInt8) :
      readIds u ⟨0, tag⟩ s old = (s.skip 0, 0, old) := by
    have hnone : u.readEntryNbytes s 0 = (s.skip 0, some []) := hu.readNbytes s [] h
    simp only [readIds, UInt8.toNat_zero, hnone, storeRead, Option.getD_some, Mem.blit_nil]
    rfl
  constructor
  · intro resp htype haction hall
    have hrefused : ¬resp.refused := by
      simp [ActionResp.refused, htype, haction, actionTypeButton, actionTypeNoAction,
        actionTypeLed]
    have hled : ¬resp.respType = actionTypeLed := by
      rw [htype]
      decide
    have hserialize : (fun s => actionRespSerialize u s resp) = fun s => _ :=
      funext fun s => if_neg hrefused
    rw [hserialize]
    simp only [if_neg hled, if_pos htype, hall]
    refine leavesMarker hu ?_ ⟨(by decide : tagButtonPressedResp < tagIdMax), fun s a h => ?_⟩
    · have hgps := WritesItems.when (c := resp.gpsTimeInSeconds ≠ 0) fun _ =>
        hu.writesUint32 tagCurrentGpsTimeInSeconds resp.gpsTimeInSeconds
      have hlatency := WritesItems.when (c := resp.downLinkLatencySecs ≠ 0) fun _ =>
        hu.writesUint32 tagDlLatencyInSeconds resp.downLinkLatencySecs
      have hlink := WritesItems.when (c := resp.linkType ≠ 0) fun _ =>
        hu.writesUint8 tagLinkType resp.linkType
      exact (writesIds_all hu tagButtonPressedResp resp.buttonActionResp.buttonIdArr).comp
        ((hgps.comp hlatency).comp hlink)
    · have hleds : ¬(tagButtonPressedResp = tagLedOnResp ∨
          tagButtonPressedResp = tagLedOffResp) := by decide
      simp only [actionRespOnRecord, Item.tl, if_neg hleds, if_true, hread _ _ h]
      rfl
  · intro notify haction hall
    unfold actionNotificationSerialize
    simp only [if_pos haction, hall]
    refine leavesMarker hu ?_ ⟨(by decide : tagButtonPressActionNotify < tagIdMax), fun s a h => ?_⟩
    · have htemp := WritesItems.when (c := TempSensorSent notify.tempSensor) fun _ =>
        hu.writesUint16 tagTemperatureSensorDataNotify notify.temperature.toUInt16
      have hgps := hu.writesUint32 tagCurrentGpsTimeInSeconds notify.gpsTimeInSeconds
      have hlink := hu.writesUint8 tagLinkType notify.linkType
      exact (writesIds_all hu tagButtonPressActionNotify
        notify.buttonActionNotify.buttonIdArr).comp ((htemp.comp hgps).comp hlink)
    · simp only [actionNotificationOnRecord, Item.tl, if_true, hread _ _ h]
      rfl

end

/-- A response to all buttons, with a time. -/
def allButtonsResp : ActionResp :=
  ⟨actionTypeButton, 0, 0, 1000, ⟨0, 0, fun _ => 0⟩, ⟨actionButtonPressed, allDevices, fun _ => 0⟩⟩

theorem allButtons_left_response : LeavesMarker headerUtils
    (fun s => actionRespSerialize headerUtils s allButtonsResp) (actionRespOnRecord headerUtils)
    tagButtonPressedResp [.uint32 tagCurrentGpsTimeInSeconds 1000] fun a => { a with
      buttonActionResp := ⟨actionButtonPressed, 0, a.buttonActionResp.buttonIdArr⟩
      respType := actionTypeButton } :=
  (allButtons_left headerUtils_documented).1 allButtonsResp rfl rfl rfl

/-- With the packing of the header the marker announces a length, and the time is lost. -/
example :
    let sent := (actionRespSerialize headerUtils (parseStateInit (List.replicate 16 0))
      allButtonsResp).written
    (actionRespDeserialize headerUtils 32 (parseStateInit sent)
      ⟨0, 0, 0, 0, ⟨0, 0, fun _ => 0⟩, ⟨0, 0, fun _ => 0⟩⟩).map
        (fun r => (r.2.buttonActionResp.numButtons, r.2.gpsTimeInSeconds)) = some (0, 0) := by
  decide +kernel

end Sidewalk.Demo
