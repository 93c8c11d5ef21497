import Sidewalk.Demo.Records

/-!
# The four deserializers on any buffer

Each deserializer as a table of fields, and the buffers on which it ends as it should.
-/

namespace Sidewalk.Demo

open Sidewalk.Lib

/-! ## Fields by tag -/

def capabilityField (tl : TlInTlv) : FieldRead CapabilityDiscovery :=
  if tl.tag = tagNumberOfButtons then
    .block fun read cap =>
      { cap with numButtons := tl.len, buttonIdArr := storeRead cap.buttonIdArr read }
  else if tl.tag = tagNumberOfLeds then
    .block fun read cap => { cap with numLeds := tl.len, ledIdArr := storeRead cap.ledIdArr read }
  else if tl.tag = tagTempSensorAvailable then
    .uint8 fun read cap =>
      { cap with tempSensor := read.elim cap.tempSensor (setLowByte cap.tempSensor) }
  else if tl.tag = tagLinkType then
    .uint8 fun read cap => { cap with linkType := read.getD cap.linkType }
  else .unknown

/-- The number that `readIds` gives. -/
def idsNumber (tl : TlInTlv) (arr : Mem) : UInt8 :=
  if tl.len = 1 ∧ arr 0 = 0xFF then allDevices else tl.len

def actionReqField (tl : TlInTlv) : FieldRead LedActionReq :=
  if tl.tag = tagLedOnActionReq ∨ tl.tag = tagLedOffActionReq then
    .block fun read req =>
      { req with
        actionReq := if tl.tag = tagLedOnActionReq then actionLedOn else actionLedOff
        numLeds := idsNumber tl (storeRead req.ledIdArr read)
        ledIdArr := storeRead req.ledIdArr read }
  else if tl.tag = tagCurrentGpsTimeInSeconds then
    .uint32 fun read req => { req with gpsTimeInSeconds := read.getD req.gpsTimeInSeconds }
  else .unknown

def actionRespField (tl : TlInTlv) : FieldRead ActionResp :=
  if tl.tag = tagLedOnResp ∨ tl.tag = tagLedOffResp then
    .block fun read resp =>
      { resp with
        ledActionResp :=
          ⟨if tl.tag = tagLedOnResp then actionLedOn else actionLedOff,
            idsNumber tl (storeRead resp.ledActionResp.ledIdArr read),
            storeRead resp.ledActionResp.ledIdArr read⟩
        respType := actionTypeLed }
  else if tl.tag = tagButtonPressedResp then
    .block fun read resp =>
      { resp with
        buttonActionResp :=
          ⟨actionButtonPressed, idsNumber tl (storeRead resp.buttonActionResp.buttonIdArr read),
            storeRead resp.buttonActionResp.buttonIdArr read⟩
        respType := actionTypeButton }
  else if tl.tag = tagCurrentGpsTimeInSeconds then
    .uint32 fun read resp => { resp with gpsTimeInSeconds := read.getD resp.gpsTimeInSeconds }
  else if tl.tag = tagDlLatencyInSeconds then
    .uint32 fun read resp =>
      { resp with downLinkLatencySecs := read.getD resp.downLinkLatencySecs }
  else if tl.tag = tagLinkType then
    .uint8 fun read resp => { resp with linkType := read.getD resp.linkType }
  else .unknown

def actionNotificationField (tl : TlInTlv) : FieldRead ActionNotification :=
  if tl.tag = tagButtonPressActionNotify then
    .block fun read notify =>
      { notify with
        buttonActionNotify :=
          ⟨actionButtonPressed,
            idsNumber tl (storeRead notify.buttonActionNotify.buttonIdArr read),
            storeRead notify.buttonActionNotify.buttonIdArr read⟩ }
  else if tl.tag = tagTemperatureSensorDataNotify then
    .uint16 fun read notify =>
      { notify with temperature := read.elim notify.temperature UInt16.toInt16 }
  else if tl.tag = tagCurrentGpsTimeInSeconds then
    .uint32 fun read notify =>
      { notify with gpsTimeInSeconds := read.getD notify.gpsTimeInSeconds }
  else if tl.tag = tagLinkType then
    .uint8 fun read notify => { notify with linkType := read.getD notify.linkType }
  else .unknown

section

variable (u : ParserUtils) (tl : TlInTlv) (s : SidParseState)

theorem capabilityOnRecord_eq (cap : CapabilityDiscovery) :
    capabilityOnRecord u tl s cap = (capabilityField tl).run u tl.len s cap := by
  unfold capabilityOnRecord capabilityField
  split
  · rfl
  split
  · rfl
  split
  · rfl
  split
  · rfl
  · rfl

theorem actionReqOnRecord_eq (req : LedActionReq) :
    actionReqOnRecord u tl s req = (actionReqField tl).run u tl.len s req := by
  unfold actionReqOnRecord actionReqField
  split
  · rfl
  split
  · rfl
  · rfl

theorem actionRespOnRecord_eq (resp : ActionResp) :
    actionRespOnRecord u tl s resp = (actionRespField tl).run u tl.len s resp := by
  unfold actionRespOnRecord actionRespField
  split
  · rfl
  split
  · rfl
  split
  · rfl
  split
  · rfl
  split
  · rfl
  · rfl

theorem actionNotificationOnRecord_eq (notify : ActionNotification) :
    actionNotificationOnRecord u tl s notify =
      (actionNotificationField tl).run u tl.len s notify := by
  unfold actionNotificationOnRecord actionNotificationField
  split
  · rfl
  split
  · rfl
  split
  · rfl
  split
  · rfl
  · rfl

end

/-- Each deserializer ends as it should on exactly the buffers that split right. -/
theorem deserializers_end_iff {u : ParserUtils} {fmt : ReadFormat} (hu : DocumentedReads u fmt)
    (bytes : List UInt8) :
    (EndsRight fmt capabilityField u (capabilityOnRecord u) bytes ↔
      SplitsRight fmt capabilityField bytes) ∧
    (EndsRight fmt actionReqField u (actionReqOnRecord u) bytes ↔
      SplitsRight fmt actionReqField bytes) ∧
    (EndsRight fmt actionRespField u (actionRespOnRecord u) bytes ↔
      SplitsRight fmt actionRespField bytes) ∧
    (EndsRight fmt actionNotificationField u (actionNotificationOnRecord u) bytes ↔
      SplitsRight fmt actionNotificationField bytes) := by
  have hempty : Mem := fun _ => 0
  refine ⟨?_, ?_, ?_, ?_⟩
  · exact endsRight_iff hu (fun tl s => capabilityOnRecord_eq u tl s) ⟨0, 0, 0, hempty, hempty, 0⟩
      bytes
  · exact endsRight_iff hu (fun tl s => actionReqOnRecord_eq u tl s) ⟨0, 0, hempty, 0⟩ bytes
  · exact endsRight_iff hu (fun tl s => actionRespOnRecord_eq u tl s)
      ⟨0, 0, 0, 0, ⟨0, 0, hempty⟩, ⟨0, 0, hempty⟩⟩ bytes
  · exact endsRight_iff hu (fun tl s => actionNotificationOnRecord_eq u tl s)
      ⟨0, 0, 0, 0, ⟨0, 0, hempty⟩⟩ bytes

/-! ## Reads as documented -/

/-- How `headerUtils` reads. -/
def headerFormat : ReadFormat where
  tlOf bytes :=
    let tag := bytes.headD 0 &&& 0x3F
    if bytes = [] then none
    else if bytes.headD 0 >>> 6 = 0 then some (⟨1, tag⟩, 1)
    else if bytes.headD 0 >>> 6 = 1 then some (⟨2, tag⟩, 1)
    else if bytes.headD 0 >>> 6 = 2 then some (⟨4, tag⟩, 1)
    else if bytes.length < 2 then none
    else some (⟨bytes.tail.headD 0, tag⟩, 2)
  uint8 bytes := bytes.headD 0
  uint16 bytes := UInt16.ofNat (leValue bytes)
  uint32 bytes := UInt32.ofNat (leValue bytes)

/-- The functions of `headerUtils`, and a header is read as a whole or not at all. -/
def strictUtils : ParserUtils :=
  { headerUtils with
    readTlFromTlv := fun s =>
      if s.retCode = errorNone then
        match headerFormat.tlOf (s.buffer.drop s.offset) with
        | some (tl, n) => (s.skip n, some tl)
        | none => ({ s with retCode := errorParamOutOfRange }, none)
      else (s, none) }

theorem readBytes_readsSize {β : Type} (n : Nat) (decode : List UInt8 → β) :
    ReadsSize (fun s => (readBytes s n).map id (Option.map decode)) n decode where
  done s hs := by
    unfold readBytes
    rw [if_neg hs]
    rfl
  enough s hs hroom := by
    unfold readBytes
    rw [if_pos hs, if_pos hroom]
    rfl
  short s hs hshort := by
    refine ⟨errorParamOutOfRange, by decide, ?_⟩
    unfold readBytes
    rw [if_pos hs, if_neg (Nat.not_le.mpr hshort)]
    rfl

theorem headerFormat_cons (b : UInt8) (bytes : List UInt8) :
    headerFormat.tlOf (b :: bytes) =
      if b >>> 6 = 0 then some (⟨1, b &&& 0x3F⟩, 1)
      else if b >>> 6 = 1 then some (⟨2, b &&& 0x3F⟩, 1)
      else if b >>> 6 = 2 then some (⟨4, b &&& 0x3F⟩, 1)
      else if bytes.length + 1 < 2 then none
      else some (⟨bytes.headD 0, b &&& 0x3F⟩, 2) := rfl

/-- A header is its first byte, or that byte and the length behind it. -/
theorem headerFormat_cases {bytes : List UInt8} {tl : TlInTlv} {n : Nat}
    (h : headerFormat.tlOf bytes = some (tl, n)) :
    n ≤ bytes.length ∧ ((∃ b, n = 1 ∧ bytes.take n = [b] ∧
        ∀ rest, headerFormat.tlOf (b :: rest) = some (tl, 1)) ∨
      ∃ b c, n = 2 ∧ bytes.take n = [b, c] ∧
        ∀ rest, headerFormat.tlOf (b :: c :: rest) = some (tl, 2)) := by
  cases bytes with
  | nil => cases h
  | cons b bytes =>
    simp only [headerFormat_cons] at h ⊢
    by_cases hone : b >>> 6 = 0
    · rw [if_pos hone] at h
      cases h
      exact ⟨Nat.succ_pos _, .inl ⟨b, rfl, rfl, fun _ => if_pos hone⟩⟩
    by_cases htwo : b >>> 6 = 1
    · rw [if_neg hone, if_pos htwo] at h
      cases h
      exact ⟨Nat.succ_pos _, .inl ⟨b, rfl, rfl, fun _ => by rw [if_neg hone, if_pos htwo]⟩⟩
    by_cases hfour : b >>> 6 = 2
    · rw [if_neg hone, if_neg htwo, if_pos hfour] at h
      cases h
      exact ⟨Nat.succ_pos _,
        .inl ⟨b, rfl, rfl, fun _ => by rw [if_neg hone, if_neg htwo, if_pos hfour]⟩⟩
    rw [if_neg hone, if_neg htwo, if_neg hfour] at h
    cases bytes with
    | nil => cases h
    | cons c bytes =>
      have hlen (rest : List UInt8) : ¬(c :: rest).length + 1 < 2 :=
        Nat.not_lt.mpr (Nat.le_add_left 2 rest.length)
      rw [if_neg (hlen bytes)] at h
      cases h
      refine ⟨Nat.le_add_left 2 bytes.length, .inr ⟨b, c, rfl, rfl, fun rest => ?_⟩⟩
      rw [if_neg hone, if_neg htwo, if_neg hfour, if_neg (hlen rest)]
      rfl

theorem strictUtils_documented : DocumentedReads strictUtils headerFormat where
  tl_bounds _ _ _ h := by
    obtain ⟨hle, ⟨_, rfl, -⟩ | ⟨_, _, rfl, -⟩⟩ := headerFormat_cases h
    · exact ⟨Nat.one_pos, hle⟩
    · exact ⟨Nat.two_pos, hle⟩
  tl_prefix _ _ _ rest h := by
    obtain ⟨-, ⟨b, rfl, htake, htl⟩ | ⟨b, c, rfl, htake, htl⟩⟩ := headerFormat_cases h
    · rw [htake]
      exact htl rest
    · rw [htake]
      exact htl rest
  tl_done s hs := if_neg hs
  tl_enough s tl n hs htl := by
    change (if s.retCode = errorNone then _ else _) = _
    rw [if_pos hs, htl]
  tl_short s hs htl := by
    refine ⟨errorParamOutOfRange, by decide, ?_⟩
    change (if s.retCode = errorNone then _ else _) = _
    rw [if_pos hs, htl]
  uint8 := readBytes_readsSize 1 _
  uint16 := readBytes_readsSize 2 _
  uint32 := readBytes_readsSize 4 _
  nbytes n := by
    have hreads := readBytes_readsSize n fun bytes => bytes
    simp only [Option.map_id_fun'] at hreads
    exact hreads

/-- A request with an unknown record of no value between two LEDs is read to its end. -/
theorem actionReq_ends : EndsRight headerFormat actionReqField strictUtils
    (actionReqOnRecord strictUtils) [0x03, 0x01, 0xE0, 0x00, 0x03, 0x02] := by
  have hled (b : UInt8) (rest : List UInt8) :
      headerFormat.tlOf (0x03 :: b :: rest) = some (⟨1, 3⟩, 1) := headerFormat_cons _ _
  have hunknown (rest : List UInt8) :
      headerFormat.tlOf (0xE0 :: 0x00 :: rest) = some (⟨0, 0x20⟩, 2) := by
    rw [headerFormat_cons, if_neg (by decide), if_neg (by decide), if_neg (by decide)]
    exact if_neg (Nat.not_lt.mpr (Nat.le_add_left 2 rest.length))
  refine (deserializers_end_iff strictUtils_documented _).2.1.mpr ⟨false,
    .next (hled 0x01 _) (by decide) (.next (hunknown _) (by decide)
      (.next (hled 0x02 []) (by decide) .done)), ?_, ?_⟩
  · rintro ⟨rest, hbehind, hne, hshort⟩
    cases hbehind with
    | here => exact absurd (hshort _ _ rfl) (by decide)
    | next htl _ hbehind =>
      cases htl
      cases hbehind with
      | here => exact absurd (hshort _ _ rfl) (by decide)
      | next htl _ hbehind =>
        cases htl
        cases hbehind with
        | here => exact absurd (hshort _ _ rfl) (by decide)
        | next htl _ hbehind =>
          cases htl
          cases hbehind with
          | here => exact absurd rfl hne
          | next htl => cases htl
  · rintro rest tl n ⟨hbehind, htl', hknown, -⟩
    cases hbehind with
    | here =>
      cases htl'
      cases hknown
    | next htl _ hbehind =>
      cases htl
      cases hbehind with
      | here =>
        cases htl'
        exact ⟨rfl, .next (hled 0x01 _) (by decide) .here⟩
      | next htl _ hbehind =>
        cases htl
        cases hbehind with
        | here =>
          cases htl'
          cases hknown
        | next htl _ hbehind =>
          cases htl
          cases hbehind with
          | here => cases htl'
          | next htl => cases htl

/-- A request with a header of two LEDs and one behind it, and no run ends. -/
theorem actionReq_truncated :
    (∀ fuel, actionReqDeserialize strictUtils fuel (parseStateInit [0x43, 0x01])
      ⟨0, 0, fun _ => 0, 0⟩ = none) ∧
    ¬EndsRight headerFormat actionReqField strictUtils (actionReqOnRecord strictUtils)
      [0x43, 0x01] := by
  have hnone (fuel : Nat) : actionReqDeserialize strictUtils fuel (parseStateInit [0x43, 0x01])
      ⟨0, 0, fun _ => 0, 0⟩ = none := by
    rw [Option.eq_none_iff_forall_ne_some]
    rintro ⟨s, req⟩ hrun
    obtain ⟨failed, hdecodes, -⟩ := decodes_of_loop strictUtils_documented
      (fun tl s => actionReqOnRecord_eq strictUtils tl s) (s := parseStateInit [0x43, 0x01]) rfl
      (Nat.zero_le _) hrun
    cases hdecodes with
    | cut htl => cases htl
    | next htl hroom =>
      cases htl
      exact absurd hroom (by decide)
  refine ⟨hnone, fun h => ?_⟩
  obtain ⟨fuel, s, req, hrun, -⟩ := h.ends ⟨0, 0, fun _ => 0, 0⟩
  exact absurd ((hnone fuel).symm.trans hrun) nofun

/-- A link type whose header says five bytes is read as the one that is there. -/
theorem capability_cut_unnoticed :
    Truncated headerFormat [0xCC, 0x05, 0x01] ∧
    Splits headerFormat capabilityField [0xCC, 0x05, 0x01] false ∧
    ¬EndsRight headerFormat capabilityField strictUtils (capabilityOnRecord strictUtils)
      [0xCC, 0x05, 0x01] := by
  have htl : headerFormat.tlOf [0xCC, 0x05, 0x01] = some (⟨5, 0x0C⟩, 2) := rfl
  have htruncated : Truncated headerFormat [0xCC, 0x05, 0x01] :=
    ⟨_, .here, List.cons_ne_nil _ _, fun tl n h => by
      cases htl.symm.trans h
      decide⟩
  refine ⟨htruncated, .next htl (by decide) .done, fun h => ?_⟩
  obtain ⟨failed, hsplits, hfailed, -⟩ := (deserializers_end_iff strictUtils_documented _).1.mp h
  cases hfailed htruncated
  cases hsplits with
  | cut h => cases h
  | next h _ hrest =>
    cases htl.symm.trans h
    cases hrest with
    | cut h => cases h
    | next h => cases h

end Sidewalk.Demo
