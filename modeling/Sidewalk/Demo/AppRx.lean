import Sidewalk.Demo.Deserialize

/-!
# Received messages

`app_rx.c`: what the receive thread accesses of its arrays while it processes a payload. The
length of a list of ids comes from the message, and the arrays are those of the caller of the
deserializer.
-/

namespace Sidewalk.Demo

open Sidewalk.Lib

/-! ## Arrays -/

def appRxPayloadMaxSize : Nat := 255
def appButtonsMax : Nat := 4
def appLedsMax : Nat := 4

/-- What a pointer of `app_rx.c` points to; `btnIds` and `ledIds` are what `app_btn_id_array_get`
and `app_led_id_array_get` return. -/
inductive AppArray
  | msgPayload
  | buttonIdArr
  | ledIdArr
  | btnIds
  | ledIds
  | null
  deriving DecidableEq, Repr

def AppArray.capacity : AppArray → Nat
  | msgPayload => appRxPayloadMaxSize
  | buttonIdArr | btnIds => appButtonsMax
  | ledIdArr | ledIds => appLedsMax
  | null => 0

structure Access where
  array : AppArray
  index : Nat
  deriving DecidableEq, Repr

def Access.Inside (access : Access) : Prop := access.index < access.array.capacity

def AllInside (accesses : List Access) : Prop := ∀ access ∈ accesses, access.Inside

def accessRange (array : AppArray) (n : Nat) : List Access :=
  (List.range n).map fun index => ⟨array, index⟩

theorem allInside_nil : AllInside [] := fun _ h => absurd h List.not_mem_nil

theorem allInside_append {accesses accesses' : List Access} :
    AllInside (accesses ++ accesses') ↔ AllInside accesses ∧ AllInside accesses' :=
  List.forall_mem_append

theorem allInside_range {array : AppArray} {n : Nat} :
    AllInside (accessRange array n) ↔ n ≤ array.capacity := by
  constructor
  · intro h
    rw [← Nat.not_lt]
    intro hlt
    have hmem : (⟨array, array.capacity⟩ : Access) ∈ accessRange array n :=
      List.mem_map.mpr ⟨array.capacity, List.mem_range.mpr hlt, rfl⟩
    exact Nat.lt_irrefl _ (h _ hmem)
  · intro hle access hmem
    obtain ⟨index, hindex, rfl⟩ := List.mem_map.mp hmem
    exact Nat.lt_of_lt_of_le (List.mem_range.mp hindex) hle

/-! ## Accesses -/

section

variable (u : ParserUtils)

/-- What `readIds` accesses: the bytes that are read, and the first one where the length is `1`. -/
def idsAccesses (array : AppArray) (tl : TlInTlv) (s : SidParseState) : List Access :=
  accessRange array ((u.readEntryNbytes s tl.len.toNat).2.getD []).length ++
    accessRange array (if tl.len = 1 then 1 else 0)

/-- The array that `sid_demo_app_action_req_deserialize` reads the list of a record into. -/
def actionReqArray (leds : AppArray) (tl : TlInTlv) : Option AppArray :=
  if tl.tag = tagLedOnActionReq ∨ tl.tag = tagLedOffActionReq then some leds else none

/-- The same for `sid_demo_app_action_resp_deserialize`. -/
def actionRespArray (leds buttons : AppArray) (tl : TlInTlv) : Option AppArray :=
  if tl.tag = tagLedOnResp ∨ tl.tag = tagLedOffResp then some leds
  else if tl.tag = tagButtonPressedResp then some buttons
  else none

def recordAccesses (arrayOf : TlInTlv → Option AppArray) (tl : TlInTlv) (s : SidParseState) :
    List Access :=
  (arrayOf tl).elim [] fun array => idsAccesses u array tl s

/-- The accesses of the first rounds of a deserializer. -/
def loopAccesses {α : Type} (arrayOf : TlInTlv → Option AppArray)
    (onRecord : TlInTlv → SidParseState → α → SidParseState × α) :
    Nat → TlInTlv → SidParseState → α → List Access
  | 0, _, _, _ => []
  | fuel + 1, tl, s, a =>
    if s.offset < s.buffer.length then
      recordAccesses u arrayOf (tlvRound u onRecord tl s a).1 (u.readTlFromTlv s).1 ++
        loopAccesses arrayOf onRecord fuel (tlvRound u onRecord tl s a).1
          (tlvRound u onRecord tl s a).2.1 (tlvRound u onRecord tl s a).2.2
    else []

/-- The list of LEDs of the response stays `NULL`; `atNull` is what is read there. -/
def initialResp (atNull : Mem) : ActionResp :=
  ⟨0, 0, 0, 0, ⟨0, 0, atNull⟩, ⟨0, 0, fun _ => 0⟩⟩

def initialReq : LedActionReq := ⟨0, 0, fun _ => 0, 0⟩

/-- What `app_rx_button_resp_process` accesses within so many rounds of the deserializer. -/
def appRxButtonRespProcess (atNull : Mem) (fuel : Nat) (payload : List UInt8) : List Access :=
  loopAccesses u (actionRespArray .null .buttonIdArr) (actionRespOnRecord u) fuel ⟨0, 0⟩
      (parseStateInit payload) (initialResp atNull) ++
    match actionRespDeserialize u fuel (parseStateInit payload) (initialResp atNull) with
    | some (state, resp) =>
      if state.retCode ≠ errorNone then []
      else if resp.respType ≠ actionTypeButton then []
      else if resp.buttonActionResp.numButtons = 0xFF then accessRange .btnIds appButtonsMax
      else accessRange .buttonIdArr resp.buttonActionResp.numButtons.toNat
    | none => []

/-- The same for `app_rx_led_req_process`. -/
def appRxLedReqProcess (fuel : Nat) (payload : List UInt8) : List Access :=
  loopAccesses u (actionReqArray .ledIdArr) (actionReqOnRecord u) fuel ⟨0, 0⟩
      (parseStateInit payload) initialReq ++
    match actionReqDeserialize u fuel (parseStateInit payload) initialReq with
    | some (state, req) =>
      if state.retCode ≠ errorNone then []
      else if req.actionReq = actionLedOn ∨ req.actionReq = actionLedOff then
        if req.numLeds = 0xFF then accessRange .ledIds appLedsMax
        else accessRange .ledIdArr req.numLeds.toNat
      else []
    | none => []

/-- What `sid_demo_app_msg_deserialize` accesses of `msg_payload`. -/
def msgAccesses (s : SidParseState) : List Access :=
  match u.readEntryUint8 s with
  | (s, read) =>
    match if u.getBitFromField (read.getD 0) 1 7 ≠ 0 then u.readEntryUint8 s else (s, none) with
    | (s, _) =>
      if s.offset < s.buffer.length then
        accessRange .msgPayload
          ((u.readEntryNbytes s (s.buffer.length - s.offset)).2.getD []).length
      else []

def msgTypeWrite : Nat := 1
def msgTypeResp : Nat := 3
def appClass : UInt8 := 0
def cmdAction : UInt8 := 1

/-- The message is an action response without an error. -/
def MsgDesc.IsActionResp (desc : MsgDesc) : Prop :=
  desc.cmdClass = appClass ∧ desc.opc = msgTypeResp ∧ desc.cmdId = cmdAction ∧
    desc.statusHdrInd = true ∧ desc.statusCode = 0

def MsgDesc.IsActionReq (desc : MsgDesc) : Prop :=
  desc.cmdClass = appClass ∧ desc.opc = msgTypeWrite ∧ desc.cmdId = cmdAction

instance (desc : MsgDesc) : Decidable desc.IsActionResp := by
  unfold MsgDesc.IsActionResp
  infer_instance

instance (desc : MsgDesc) : Decidable desc.IsActionReq := by
  unfold MsgDesc.IsActionReq
  infer_instance

/-- The body of the loop of `app_rx_task`; `msgPayload` is left from earlier messages. -/
def appRxTask (atNull msgPayload : Mem) (fuel : Nat) (rxPayload : List UInt8) : List Access :=
  msgAccesses u (parseStateInit rxPayload) ++
    match msgDeserialize u (parseStateInit rxPayload) ⟨false, 0, 0, 0, 0⟩ ⟨0, msgPayload⟩ with
    | (state, desc, msg) =>
      if state.retCode ≠ errorNone then []
      else if desc.IsActionResp then
        appRxButtonRespProcess u atNull fuel (msg.payload.slice 0 msg.payloadSize)
      else if desc.IsActionReq then
        appRxLedReqProcess u fuel (msg.payload.slice 0 msg.payloadSize)
      else []

/-- `on_sidewalk_msg_received` hands on the beginning of the data. -/
def onSidewalkMsgReceived (atNull msgPayload : Mem) (fuel : Nat) (data : List UInt8) :
    List Access :=
  appRxTask u atNull msgPayload fuel (data.take appRxPayloadMaxSize)

end

/-! ## Headers -/

section

variable {α : Type} (fmt : ReadFormat) (field : TlInTlv → FieldRead α)

/-- The loop reads the header, with the rest behind it. -/
inductive HeaderRead : List UInt8 → TlInTlv → List UInt8 → Prop
  | here {bytes tl n} : fmt.tlOf bytes = some (tl, n) → HeaderRead bytes tl (bytes.drop n)
  | next {bytes tl n tl' rest} : fmt.tlOf bytes = some (tl, n) →
      n + valueSize field tl ≤ bytes.length →
      HeaderRead (bytes.drop (n + valueSize field tl)) tl' rest → HeaderRead bytes tl' rest

/-- A list that is read whole fits the array, and there is a first byte to look at. -/
def ListFits (array : AppArray) (tl : TlInTlv) (rest : List UInt8) : Prop :=
  (tl.len.toNat ≤ rest.length → tl.len.toNat ≤ array.capacity) ∧ (tl.len = 1 → 0 < array.capacity)

def RecordsFit (arrayOf : TlInTlv → Option AppArray) (bytes : List UInt8) : Prop :=
  ∀ tl rest, HeaderRead fmt field bytes tl rest →
    ∀ array, arrayOf tl = some array → ListFits array tl rest

variable {fmt field} {u : ParserUtils} {arrayOf : TlInTlv → Option AppArray}
  {onRecord : TlInTlv → SidParseState → α → SidParseState × α}

theorem loopAccesses_succ (fuel : Nat) (tl : TlInTlv) (s : SidParseState) (a : α) :
    loopAccesses u arrayOf onRecord (fuel + 1) tl s a =
      if s.offset < s.buffer.length then
        recordAccesses u arrayOf (tlvRound u onRecord tl s a).1 (u.readTlFromTlv s).1 ++
          loopAccesses u arrayOf onRecord fuel (tlvRound u onRecord tl s a).1
            (tlvRound u onRecord tl s a).2.1 (tlvRound u onRecord tl s a).2.2
      else [] := rfl

theorem recordAccesses_inside {tl : TlInTlv} {s : SidParseState} :
    AllInside (recordAccesses u arrayOf tl s) ↔
      ∀ array, arrayOf tl = some array → AllInside (idsAccesses u array tl s) := by
  unfold recordAccesses
  cases arrayOf tl with
  | none => exact iff_of_true allInside_nil fun _ h => nomatch h
  | some array => exact ⟨fun h _ harray => Option.some.inj harray ▸ h, fun h => h array rfl⟩

theorem firstAccess_inside {array : AppArray} {tl : TlInTlv} :
    AllInside (accessRange array (if tl.len = 1 then 1 else 0)) ↔
      (tl.len = 1 → 0 < array.capacity) := by
  rw [allInside_range]
  by_cases hone : tl.len = 1
  · rw [if_pos hone]
    exact ⟨fun h _ => h, fun h => h hone⟩
  · rw [if_neg hone]
    exact iff_of_true (Nat.zero_le _) fun h => absurd h hone

section

variable (hu : DocumentedReads u fmt)

include hu

theorem idsAccesses_done {s : SidParseState} (hs : s.retCode ≠ errorNone) {array : AppArray}
    {tl : TlInTlv} : AllInside (idsAccesses u array tl s) ↔ (tl.len = 1 → 0 < array.capacity) := by
  have hread := congrArg Prod.snd ((hu.nbytes tl.len.toNat).done s hs)
  unfold idsAccesses
  rw [hread, allInside_append, firstAccess_inside]
  exact and_iff_right (allInside_range.mpr (Nat.zero_le _))

/-- The accesses of a list stay inside exactly if it fits. -/
theorem idsAccesses_inside {s : SidParseState} (hs : s.retCode = errorNone)
    (hinside : s.offset ≤ s.buffer.length) {array : AppArray} {tl : TlInTlv} :
    AllInside (idsAccesses u array tl s) ↔ ListFits array tl (s.buffer.drop s.offset) := by
  unfold idsAccesses ListFits
  rw [allInside_append, firstAccess_inside, allInside_range, List.length_drop]
  by_cases hroom : s.offset + tl.len.toNat ≤ s.buffer.length
  · have hread := congrArg Prod.snd ((hu.nbytes tl.len.toNat).enough s hs hroom)
    have hlen : ((s.buffer.drop s.offset).take tl.len.toNat).length = tl.len.toNat := by
      rw [List.length_take_of_le]
      rw [List.length_drop]
      omega
    rw [hread, Option.getD_some, hlen]
    have hle : tl.len.toNat ≤ s.buffer.length - s.offset := by omega
    rw [imp_iff_right hle]
  · rw [Nat.not_le] at hroom
    obtain ⟨code, -, hread⟩ := (hu.nbytes tl.len.toNat).short s hs hroom
    have hread := congrArg Prod.snd hread
    have hle : ¬tl.len.toNat ≤ s.buffer.length - s.offset := by omega
    rw [hread]
    exact and_congr_left' (iff_of_true (Nat.zero_le _) fun h => absurd h hle)

theorem loopAccesses_done {s : SidParseState} (hs : s.retCode ≠ errorNone)
    (hrecord : ∀ tl s a, onRecord tl s a = (field tl).run u tl.len s a) {tl : TlInTlv}
    (hfirst : ∀ array, arrayOf tl = some array → tl.len = 1 → 0 < array.capacity) (fuel : Nat)
    (a : α) : AllInside (loopAccesses u arrayOf onRecord fuel tl s a) := by
  induction fuel generalizing a with
  | zero => exact allInside_nil
  | succ fuel ih =>
    have htl : (tlvRound u onRecord tl s a).1 = tl := by
      unfold tlvRound
      rw [hu.tl_done s hs]
      rfl
    rw [loopAccesses_succ]
    split
    · rw [allInside_append, tlvRound_done hu hrecord hs, htl, hu.tl_done s hs]
      refine ⟨recordAccesses_inside.mpr fun array harray => ?_, ih _⟩
      exact (idsAccesses_done hu hs).mpr (hfirst array harray)
    · exact allInside_nil

/-- Where every list fits, all rounds stay inside. -/
theorem loopAccesses_inside (hrecord : ∀ tl s a, onRecord tl s a = (field tl).run u tl.len s a)
    {s : SidParseState} (hs : s.retCode = errorNone) (hinside : s.offset ≤ s.buffer.length)
    (hfits : RecordsFit fmt field arrayOf (s.buffer.drop s.offset)) {tl : TlInTlv}
    (hfirst : ∀ array, arrayOf tl = some array → tl.len = 1 → 0 < array.capacity) (fuel : Nat)
    (a : α) : AllInside (loopAccesses u arrayOf onRecord fuel tl s a) := by
  induction fuel generalizing s tl a with
  | zero => exact allInside_nil
  | succ fuel ih =>
    rw [loopAccesses_succ]
    split
    · rw [allInside_append]
      cases htl : fmt.tlOf (s.buffer.drop s.offset) with
      | none =>
        -- The header of the round before is used once more.
        obtain ⟨code, hcode, hround⟩ := tlvRound_none hu hrecord hs htl tl a
        obtain ⟨code', hcode', hread⟩ := hu.tl_short s hs htl
        have hsame : (tlvRound u onRecord tl s a).1 = tl := by
          unfold tlvRound
          rw [hread]
          rfl
        rw [hround, hsame, hread]
        refine ⟨recordAccesses_inside.mpr fun array harray => ?_,
          loopAccesses_done (s := { s with retCode := code }) hu hcode hrecord hfirst fuel _⟩
        exact (idsAccesses_done (s := { s with retCode := code' }) hu hcode').mpr
          (hfirst array harray)
      | some header =>
        obtain ⟨tl', n⟩ := header
        have hbounds := (hu.tl_bounds _ _ _ htl).2
        rw [List.length_drop] at hbounds
        have hin : (s.skip n).offset ≤ (s.skip n).buffer.length := by
          change s.offset + n ≤ s.buffer.length
          omega
        have hlist := hfits tl' _ (.here htl)
        rw [List.drop_drop] at hlist
        have hfirst' (array : AppArray) (harray : arrayOf tl' = some array) := (hlist array harray).2
        have hround_tl : (tlvRound u onRecord tl s a).1 = tl' := by
          unfold tlvRound
          rw [hu.tl_enough s tl' n hs htl]
          rfl
        rw [hround_tl, hu.tl_enough s tl' n hs htl]
        refine ⟨recordAccesses_inside.mpr fun array harray =>
          (idsAccesses_inside (s := s.skip n) hu hs hin).mpr (hlist array harray), ?_⟩
        by_cases hroom : n + valueSize field tl' ≤ (s.buffer.drop s.offset).length
        · rw [tlvRound_enough hu hrecord hs htl hroom]
          have hroom' := hroom
          rw [List.length_drop] at hroom'
          refine ih (s := s.skip (n + valueSize field tl')) hs ?_ ?_ hfirst' _
          · change s.offset + (n + valueSize field tl') ≤ s.buffer.length
            omega
          · intro tl'' rest hheader
            refine hfits tl'' rest (.next htl hroom ?_)
            rw [List.drop_drop]
            exact hheader
        · rw [Nat.not_le] at hroom
          obtain ⟨code, hcode, hround⟩ := tlvRound_short hu hrecord hs hinside htl hroom tl a
          rw [hround]
          exact loopAccesses_done (s := { s.skip n with retCode := code }) hu hcode hrecord hfirst'
            fuel _
    · exact allInside_nil

/-- A round comes to every header that is read. -/
theorem listFits_of_loop (hrecord : ∀ tl s a, onRecord tl s a = (field tl).run u tl.len s a)
    {bytes rest : List UInt8} {tl' : TlInTlv} (hheader : HeaderRead fmt field bytes tl' rest)
    {s : SidParseState} (hs : s.retCode = errorNone) (hinside : s.offset ≤ s.buffer.length)
    (hbytes : s.buffer.drop s.offset = bytes) {tl : TlInTlv} {a : α}
    (haccesses : ∀ fuel, AllInside (loopAccesses u arrayOf onRecord fuel tl s a)) {array : AppArray}
    (harray : arrayOf tl' = some array) : ListFits array tl' rest := by
  induction hheader generalizing s tl a with
  | @here bytes tl' n htl =>
    subst hbytes
    obtain ⟨hpos, hbounds⟩ := hu.tl_bounds _ _ _ htl
    rw [List.length_drop] at hbounds
    have hmore : s.offset < s.buffer.length := by omega
    have hin : (s.skip n).offset ≤ (s.skip n).buffer.length := by
      change s.offset + n ≤ s.buffer.length
      omega
    have hone := haccesses 1
    have hround_tl : (tlvRound u onRecord tl s a).1 = tl' := by
      unfold tlvRound
      rw [hu.tl_enough s tl' n hs htl]
      rfl
    rw [loopAccesses_succ, if_pos hmore, allInside_append, hround_tl, hu.tl_enough s tl' n hs htl]
      at hone
    have hlist := recordAccesses_inside.mp hone.1 array harray
    rw [idsAccesses_inside (s := s.skip n) hu hs hin] at hlist
    rw [List.drop_drop]
    exact hlist
  | @next bytes tl'' n tl' rest htl hroom _ ih =>
    subst hbytes
    have hpos := (hu.tl_bounds _ _ _ htl).1
    have hroom' := hroom
    rw [List.length_drop] at hroom'
    have hmore : s.offset < s.buffer.length := by omega
    have hin : (s.skip (n + valueSize field tl'')).offset ≤
        (s.skip (n + valueSize field tl'')).buffer.length := by
      change s.offset + (n + valueSize field tl'') ≤ s.buffer.length
      omega
    have htail (fuel : Nat) := haccesses (fuel + 1)
    simp only [loopAccesses_succ, if_pos hmore, allInside_append,
      tlvRound_enough hu hrecord hs htl hroom] at htail
    exact ih (s := s.skip (n + valueSize field tl'')) hs hin List.drop_drop.symm
      (fun fuel => (htail fuel).2) harray

end

/-- What every record that is read keeps holds of the destination. -/
theorem decodes_keeps {bytes : List UInt8} {failed : Bool} {a a' : α}
    (h : Decodes fmt field bytes a failed a') (hfailed : failed = false) {P : α → Prop} (ha : P a)
    (hstep : ∀ tl rest, HeaderRead fmt field bytes tl rest → valueSize field tl ≤ rest.length →
      ∀ value a, P a → P ((field tl).apply fmt (some value) a)) : P a' := by
  induction h with
  | done => exact ha
  | cut => cases hfailed
  | @next bytes tl n a failed a' htl hroom _ ih =>
    have hrest : valueSize field tl ≤ (bytes.drop n).length := by
      rw [List.length_drop]
      omega
    refine ih hfailed (hstep tl _ (.here htl) hrest _ _ ha) fun tl' rest hheader => ?_
    exact hstep tl' rest (.next htl hroom hheader)

/-- All rounds stay inside exactly if every list fits. -/
theorem loopAccesses_iff (hu : DocumentedReads u fmt)
    (hrecord : ∀ tl s a, onRecord tl s a = (field tl).run u tl.len s a)
    (hfirst : arrayOf ⟨0, 0⟩ = none) (bytes : List UInt8) (a : α) :
    (∀ fuel, AllInside (loopAccesses u arrayOf onRecord fuel ⟨0, 0⟩ (parseStateInit bytes) a)) ↔
      RecordsFit fmt field arrayOf bytes := by
  constructor
  · intro h tl rest hheader array harray
    exact listFits_of_loop hu hrecord hheader (s := parseStateInit bytes) rfl (Nat.zero_le _) rfl h
      harray
  · intro h fuel
    refine loopAccesses_inside hu hrecord (s := parseStateInit bytes) rfl (Nat.zero_le _) h ?_ fuel a
    intro array harray
    rw [hfirst] at harray
    cases harray

end

/-! ## The two kinds of messages -/

section

variable {u : ParserUtils} {fmt : ReadFormat} (hu : DocumentedReads u fmt)

/-- The number of ids is one of a list that fits, or stands for all of them. -/
def NumFits (num : UInt8) (max : Nat) : Prop := num = 0xFF ∨ num.toNat ≤ max

theorem numFits_ids {tl : TlInTlv} {max : Nat} (h : tl.len.toNat ≤ max) (arr : Mem) :
    NumFits (idsNumber tl arr) max := by
  unfold idsNumber
  split
  · exact .inl rfl
  · exact .inr h

theorem actionResp_numFits {tl : TlInTlv} {rest : List UInt8}
    (hfits : ∀ array, actionRespArray .null .buttonIdArr tl = some array → ListFits array tl rest)
    (hsize : valueSize actionRespField tl ≤ rest.length) (value : List UInt8) (resp : ActionResp)
    (h : NumFits resp.buttonActionResp.numButtons appButtonsMax) :
    NumFits ((actionRespField tl).apply fmt (some value) resp).buttonActionResp.numButtons
      appButtonsMax := by
  unfold actionRespArray at hfits
  unfold valueSize at hsize
  unfold actionRespField at hsize ⊢
  by_cases hled : tl.tag = tagLedOnResp ∨ tl.tag = tagLedOffResp
  · rw [if_pos hled]
    exact h
  by_cases hbutton : tl.tag = tagButtonPressedResp
  · rw [if_neg hled, if_pos hbutton] at hfits hsize ⊢
    exact numFits_ids ((hfits _ rfl).1 hsize) _
  rw [if_neg hled, if_neg hbutton]
  split
  · exact h
  split
  · exact h
  split
  · exact h
  · exact h

theorem actionReq_numFits {tl : TlInTlv} {rest : List UInt8}
    (hfits : ∀ array, actionReqArray .ledIdArr tl = some array → ListFits array tl rest)
    (hsize : valueSize actionReqField tl ≤ rest.length) (value : List UInt8) (req : LedActionReq)
    (h : NumFits req.numLeds appLedsMax) :
    NumFits ((actionReqField tl).apply fmt (some value) req).numLeds appLedsMax := by
  unfold actionReqArray at hfits
  unfold valueSize at hsize
  unfold actionReqField at hsize ⊢
  by_cases hled : tl.tag = tagLedOnActionReq ∨ tl.tag = tagLedOffActionReq
  · rw [if_pos hled] at hfits hsize ⊢
    exact numFits_ids ((hfits _ rfl).1 hsize) _
  rw [if_neg hled]
  split
  · exact h
  · exact h

include hu

theorem buttonResp_inside_iff (atNull : Mem) (payload : List UInt8) :
    (∀ fuel, AllInside (appRxButtonRespProcess u atNull fuel payload)) ↔
      RecordsFit fmt actionRespField (actionRespArray .null .buttonIdArr) payload := by
  have hfirst : actionRespArray .null .buttonIdArr ⟨0, 0⟩ = none := rfl
  have hloop := loopAccesses_iff hu (fun tl s => actionRespOnRecord_eq u tl s) hfirst payload
    (initialResp atNull)
  refine ⟨fun h => hloop.mp fun fuel => (allInside_append.mp (h fuel)).1, fun h fuel => ?_⟩
  refine allInside_append.mpr ⟨hloop.mpr h fuel, ?_⟩
  cases hrun : actionRespDeserialize u fuel (parseStateInit payload) (initialResp atNull) with
  | none => exact allInside_nil
  | some result =>
    obtain ⟨state, resp⟩ := result
    obtain ⟨failed, hdecodes, hfailed⟩ := decodes_of_loop hu
      (fun tl s => actionRespOnRecord_eq u tl s) (s := parseStateInit payload) rfl (Nat.zero_le _)
      hrun
    simp only
    split
    · exact allInside_nil
    split
    · exact allInside_nil
    split
    · exact allInside_range.mpr (Nat.le_refl _)
    next hret _ hall =>
      have hfalse : failed = false := by
        rw [← Bool.not_eq_true, ← hfailed]
        exact hret
      have hnum := decodes_keeps
        (P := fun resp => NumFits resp.buttonActionResp.numButtons appButtonsMax) hdecodes hfalse
        (.inr (Nat.zero_le _)) fun tl rest hheader hsize value resp hresp =>
          actionResp_numFits (h tl rest hheader) hsize value resp hresp
      exact allInside_range.mpr (hnum.resolve_left hall)

theorem ledReq_inside_iff (payload : List UInt8) :
    (∀ fuel, AllInside (appRxLedReqProcess u fuel payload)) ↔
      RecordsFit fmt actionReqField (actionReqArray .ledIdArr) payload := by
  have hfirst : actionReqArray .ledIdArr ⟨0, 0⟩ = none := rfl
  have hloop := loopAccesses_iff hu (fun tl s => actionReqOnRecord_eq u tl s) hfirst payload
    initialReq
  refine ⟨fun h => hloop.mp fun fuel => (allInside_append.mp (h fuel)).1, fun h fuel => ?_⟩
  refine allInside_append.mpr ⟨hloop.mpr h fuel, ?_⟩
  cases hrun : actionReqDeserialize u fuel (parseStateInit payload) initialReq with
  | none => exact allInside_nil
  | some result =>
    obtain ⟨state, req⟩ := result
    obtain ⟨failed, hdecodes, hfailed⟩ := decodes_of_loop hu
      (fun tl s => actionReqOnRecord_eq u tl s) (s := parseStateInit payload) rfl (Nat.zero_le _)
      hrun
    simp only
    split
    · exact allInside_nil
    split
    · split
      · exact allInside_range.mpr (Nat.le_refl _)
      next hret _ hall =>
        have hfalse : failed = false := by
          rw [← Bool.not_eq_true, ← hfailed]
          exact hret
        have hnum := decodes_keeps (P := fun req => NumFits req.numLeds appLedsMax) hdecodes hfalse
          (.inr (Nat.zero_le _)) fun tl rest hheader hsize value req hreq =>
            actionReq_numFits (h tl rest hheader) hsize value req hreq
        exact allInside_range.mpr (hnum.resolve_left hall)
    · exact allInside_nil

end

/-! ## Messages -/

/-- The message that the bytes hold. -/
def rxMessage (fmt : ReadFormat) (u : ParserUtils) (bytes : List UInt8) :
    Option (MsgDesc × List UInt8) :=
  let value := fmt.uint8 (bytes.take 1)
  let desc : MsgDesc := ⟨u.getBitFromField value 1 7 ≠ 0, (u.getBitFromField value 3 5).toNat,
    u.getBitFromField value 3 3, u.getBitFromField value 7 0, 0⟩
  if desc.statusHdrInd then
    if bytes.length < 2 then none
    else some ({ desc with statusCode := fmt.uint8 ((bytes.drop 1).take 1) }, bytes.drop 2)
  else if bytes.length < 1 then none
  else some (desc, bytes.drop 1)

/-- Every list of the message fits the array that it is read into. -/
def MessageFits (fmt : ReadFormat) (u : ParserUtils) (bytes : List UInt8) : Prop :=
  ∀ desc payload, rxMessage fmt u bytes = some (desc, payload) →
    (desc.IsActionResp →
      RecordsFit fmt actionRespField (actionRespArray .null .buttonIdArr) payload) ∧
    (desc.IsActionReq → RecordsFit fmt actionReqField (actionReqArray .ledIdArr) payload)

section

variable {u : ParserUtils} {fmt : ReadFormat} (hu : DocumentedReads u fmt)

include hu

/-- The last read of the message takes what is left. -/
theorem payload_read {s : SidParseState} (hs : s.retCode = errorNone) (desc : MsgDesc) (msgPayload : Mem) :
    ∃ s' msg, (if s.offset < s.buffer.length then
        ((u.readEntryNbytes s (s.buffer.length - s.offset)).1, desc,
          (⟨s.buffer.length - s.offset, storeRead msgPayload
            (u.readEntryNbytes s (s.buffer.length - s.offset)).2⟩ : DemoMsg))
      else (s, desc, ⟨0, msgPayload⟩)) = (s', desc, msg) ∧ s'.retCode = errorNone ∧
      msg.payload.slice 0 msg.payloadSize = s.buffer.drop s.offset := by
  by_cases hmore : s.offset < s.buffer.length
  · have hroom : s.offset + (s.buffer.length - s.offset) ≤ s.buffer.length := by omega
    have hlen : (s.buffer.drop s.offset).length = s.buffer.length - s.offset := List.length_drop
    have hread := (hu.nbytes (s.buffer.length - s.offset)).enough s hs hroom
    have hslice := Mem.slice_blit msgPayload 0 (s.buffer.drop s.offset)
    rw [hlen] at hslice
    rw [if_pos hmore, hread, ← hlen, List.take_length, hlen]
    exact ⟨_, _, rfl, hs, hslice⟩
  · rw [if_neg hmore, List.drop_of_length_le (Nat.not_lt.mp hmore)]
    exact ⟨_, _, rfl, hs, rfl⟩

omit hu in
theorem msgDeserialize_of_reads {s s₁ s₂ : SidParseState} {read₁ read₂ : Option UInt8}
    (h₁ : u.readEntryUint8 s = (s₁, read₁))
    (h₂ : (if u.getBitFromField (read₁.getD 0) 1 7 ≠ 0 then u.readEntryUint8 s₁ else (s₁, none)) =
      (s₂, read₂)) (msgPayload : Mem) :
    msgDeserialize u s ⟨false, 0, 0, 0, 0⟩ ⟨0, msgPayload⟩ =
      if s₂.offset < s₂.buffer.length then
        ((u.readEntryNbytes s₂ (s₂.buffer.length - s₂.offset)).1,
          ⟨u.getBitFromField (read₁.getD 0) 1 7 ≠ 0,
            setLowByte 0 (u.getBitFromField (read₁.getD 0) 3 5),
            u.getBitFromField (read₁.getD 0) 3 3, u.getBitFromField (read₁.getD 0) 7 0,
            read₂.getD 0⟩,
          (⟨s₂.buffer.length - s₂.offset, storeRead msgPayload
            (u.readEntryNbytes s₂ (s₂.buffer.length - s₂.offset)).2⟩ : DemoMsg))
      else (s₂, ⟨u.getBitFromField (read₁.getD 0) 1 7 ≠ 0,
        setLowByte 0 (u.getBitFromField (read₁.getD 0) 3 5),
        u.getBitFromField (read₁.getD 0) 3 3, u.getBitFromField (read₁.getD 0) 7 0,
        read₂.getD 0⟩, ⟨0, msgPayload⟩) := by
  unfold msgDeserialize
  rw [h₁]
  simp only [decide_eq_true_eq]
  rw [h₂]

/-- What is read of the bytes is the message they hold. -/
theorem msgDeserialize_message (bytes : List UInt8) (msgPayload : Mem) :
    ∃ state desc msg, msgDeserialize u (parseStateInit bytes) ⟨false, 0, 0, 0, 0⟩ ⟨0, msgPayload⟩ =
        (state, desc, msg) ∧
      (state.retCode ≠ errorNone ∧ rxMessage fmt u bytes = none ∨
        state.retCode = errorNone ∧
          rxMessage fmt u bytes = some (desc, msg.payload.slice 0 msg.payloadSize)) := by
  have hzero (b : UInt8) : setLowByte 0 b = b.toNat := Nat.zero_add _
  by_cases hempty : bytes.length < 1
  · obtain ⟨code, hcode, hread⟩ := hu.uint8.short (parseStateInit bytes) rfl hempty
    have hdone := hu.uint8.done { parseStateInit bytes with retCode := code } hcode
    have hend : ¬(parseStateInit bytes).offset < (parseStateInit bytes).buffer.length := by
      change ¬0 < bytes.length
      omega
    have hnone : rxMessage fmt u bytes = none := by
      unfold rxMessage
      simp only [if_pos hempty, if_pos (Nat.lt_succ_of_lt hempty), ite_self]
    rw [msgDeserialize_of_reads hread (by rw [hdone, ite_self]), if_neg hend]
    exact ⟨_, _, _, rfl, .inl ⟨hcode, hnone⟩⟩
  have hread := hu.uint8.enough (parseStateInit bytes) rfl (by
    change 0 + 1 ≤ bytes.length
    omega)
  by_cases hstatus : u.getBitFromField (fmt.uint8 (bytes.take 1)) 1 7 ≠ 0
  · have hflag : decide (u.getBitFromField (fmt.uint8 (bytes.take 1)) 1 7 ≠ 0) = true :=
      decide_eq_true hstatus
    by_cases hone : bytes.length < 2
    · obtain ⟨code, hcode, hread'⟩ := hu.uint8.short ((parseStateInit bytes).skip 1) rfl hone
      have hend : ¬((parseStateInit bytes).skip 1).offset <
          ((parseStateInit bytes).skip 1).buffer.length := by
        change ¬0 + 1 < bytes.length
        omega
      have hnone : rxMessage fmt u bytes = none := by
        unfold rxMessage
        simp only [if_pos hflag, if_pos hone]
      rw [msgDeserialize_of_reads hread ((if_pos hstatus).trans hread'), if_neg hend]
      exact ⟨_, _, _, rfl, .inl ⟨hcode, hnone⟩⟩
    · rw [Nat.not_lt] at hone
      have hread' := hu.uint8.enough ((parseStateInit bytes).skip 1) rfl hone
      rw [msgDeserialize_of_reads hread ((if_pos hstatus).trans hread')]
      obtain ⟨s', msg, hrun, hret, hpayload⟩ := payload_read
        (s := ((parseStateInit bytes).skip 1).skip 1) hu rfl
        ⟨u.getBitFromField (fmt.uint8 (bytes.take 1)) 1 7 ≠ 0,
          setLowByte 0 (u.getBitFromField (fmt.uint8 (bytes.take 1)) 3 5),
          u.getBitFromField (fmt.uint8 (bytes.take 1)) 3 3,
          u.getBitFromField (fmt.uint8 (bytes.take 1)) 7 0,
          fmt.uint8 ((bytes.drop 1).take 1)⟩ msgPayload
      refine ⟨s', _, msg, hrun, .inr ⟨hret, ?_⟩⟩
      rw [hpayload, hzero]
      unfold rxMessage
      simp only [if_pos hflag, if_neg (Nat.not_lt.mpr hone)]
      rfl
  · rw [msgDeserialize_of_reads hread (if_neg hstatus)]
    obtain ⟨s', msg, hrun, hret, hpayload⟩ := payload_read (s := (parseStateInit bytes).skip 1) hu
      rfl ⟨u.getBitFromField (fmt.uint8 (bytes.take 1)) 1 7 ≠ 0,
        setLowByte 0 (u.getBitFromField (fmt.uint8 (bytes.take 1)) 3 5),
        u.getBitFromField (fmt.uint8 (bytes.take 1)) 3 3,
        u.getBitFromField (fmt.uint8 (bytes.take 1)) 7 0, 0⟩ msgPayload
    refine ⟨s', _, msg, hrun, .inr ⟨hret, ?_⟩⟩
    rw [hpayload, hzero]
    unfold rxMessage
    have hflag : ¬decide (u.getBitFromField (fmt.uint8 (bytes.take 1)) 1 7 ≠ 0) = true := by
      rw [decide_eq_true_eq]
      exact hstatus
    simp only [if_neg hflag, if_neg hempty]
    rfl

theorem nbytes_length (s : SidParseState) (n : Nat) :
    ((u.readEntryNbytes s n).2.getD []).length ≤ s.buffer.length := by
  by_cases hs : s.retCode = errorNone
  · by_cases hroom : s.offset + n ≤ s.buffer.length
    · have hread := congrArg Prod.snd ((hu.nbytes n).enough s hs hroom)
      rw [hread, Option.getD_some, List.length_take, List.length_drop]
      omega
    · obtain ⟨code, -, hread⟩ := (hu.nbytes n).short s hs (Nat.not_le.mp hroom)
      rw [congrArg Prod.snd hread]
      exact Nat.zero_le _
  · rw [congrArg Prod.snd ((hu.nbytes n).done s hs)]
    exact Nat.zero_le _

theorem uint8_buffer (s : SidParseState) : (u.readEntryUint8 s).1.buffer = s.buffer := by
  by_cases hs : s.retCode = errorNone
  · by_cases hroom : s.offset + 1 ≤ s.buffer.length
    · rw [hu.uint8.enough s hs hroom]
      rfl
    · obtain ⟨code, -, hread⟩ := hu.uint8.short s hs (Nat.not_le.mp hroom)
      rw [hread]
  · rw [hu.uint8.done s hs]

theorem msgAccesses_inside {bytes : List UInt8} (hlen : bytes.length ≤ appRxPayloadMaxSize) :
    AllInside (msgAccesses u (parseStateInit bytes)) := by
  have hfirst : (u.readEntryUint8 (parseStateInit bytes)).1.buffer = bytes :=
    uint8_buffer hu (parseStateInit bytes)
  have hinside (s : SidParseState) (hs : s.buffer = bytes) :
      AllInside (if s.offset < s.buffer.length then
        accessRange .msgPayload ((u.readEntryNbytes s (s.buffer.length - s.offset)).2.getD []).length
      else []) := by
    split
    · refine allInside_range.mpr (Nat.le_trans (nbytes_length hu s _) ?_)
      rw [hs]
      exact hlen
    · exact allInside_nil
  unfold msgAccesses
  split
  next s read hread =>
    rw [hread] at hfirst
    by_cases hstatus : u.getBitFromField (read.getD 0) 1 7 ≠ 0
    · rw [if_pos hstatus]
      exact hinside _ ((uint8_buffer hu s).trans hfirst)
    · rw [if_neg hstatus]
      exact hinside _ hfirst

/-- Received data are processed inside the arrays exactly if every list fits. -/
theorem onSidewalkMsgReceived_inside_iff (atNull msgPayload : Mem) (data : List UInt8) :
    (∀ fuel, AllInside (onSidewalkMsgReceived u atNull msgPayload fuel data)) ↔
      MessageFits fmt u (data.take appRxPayloadMaxSize) := by
  have hmsg := msgAccesses_inside hu (List.length_take_le appRxPayloadMaxSize data)
  unfold onSidewalkMsgReceived appRxTask MessageFits
  obtain ⟨state, desc, msg, hread, hmessage⟩ :=
    msgDeserialize_message hu (data.take appRxPayloadMaxSize) msgPayload
  simp only [hread, allInside_append, hmsg, true_and]
  obtain ⟨hret, hmessage⟩ | ⟨hret, hmessage⟩ := hmessage
  · simp only [hmessage, if_pos hret]
    exact iff_of_true (fun _ => allInside_nil) nofun
  simp only [hmessage, if_neg (not_not_intro hret)]
  have hsome : (∀ desc' payload, some (desc, msg.payload.slice 0 msg.payloadSize) =
      some (desc', payload) → (desc'.IsActionResp →
        RecordsFit fmt actionRespField (actionRespArray .null .buttonIdArr) payload) ∧
      (desc'.IsActionReq → RecordsFit fmt actionReqField (actionReqArray .ledIdArr) payload)) ↔
      (desc.IsActionResp → RecordsFit fmt actionRespField (actionRespArray .null .buttonIdArr)
        (msg.payload.slice 0 msg.payloadSize)) ∧
      (desc.IsActionReq → RecordsFit fmt actionReqField (actionReqArray .ledIdArr)
        (msg.payload.slice 0 msg.payloadSize)) := by
    constructor
    · intro h
      exact h desc _ rfl
    · rintro h _ _ ⟨⟩
      exact h
  rw [hsome]
  by_cases hresp : desc.IsActionResp
  · have hreq : ¬desc.IsActionReq := by
      intro hreq
      exact absurd (hresp.2.1.symm.trans hreq.2.1) (by decide)
    simp only [hresp, hreq, true_implies, false_implies, and_true]
    exact buttonResp_inside_iff hu atNull _
  · by_cases hreq : desc.IsActionReq
    · simp only [hresp, hreq, true_implies, false_implies, true_and]
      exact ledReq_inside_iff hu _
    · simp only [hresp, hreq, false_implies, and_true]
      exact iff_of_true (fun _ => allInside_nil) trivial

end

/-- A request to turn one LED on stays inside the arrays. -/
theorem ledReq_fits : AllInside (onSidewalkMsgReceived strictUtils (fun _ => 0) (fun _ => 0) 3
    [0x21, 0x03, 0x01]) := by
  have hrx : rxMessage headerFormat strictUtils [0x21, 0x03, 0x01] =
      some (⟨false, 1, 0, 1, 0⟩, [0x03, 0x01]) := rfl
  refine (onSidewalkMsgReceived_inside_iff strictUtils_documented _ _ _).mpr ?_ 3
  intro desc payload hmessage
  cases hrx.symm.trans hmessage
  refine ⟨fun hresp => absurd hresp (by decide), fun _ tl rest hheader array harray => ?_⟩
  cases hheader with
  | here htl =>
    cases htl
    cases harray
    exact ⟨fun _ => by decide, fun _ => by decide⟩
  | next htl _ hrest =>
    cases htl
    cases hrest with
    | here htl => cases htl
    | next htl => cases htl

/-- A list of LEDs in a button response is read into no array. -/
theorem ledResp_in_buttonResp : ¬∀ fuel, AllInside (onSidewalkMsgReceived strictUtils (fun _ => 0)
    (fun _ => 0) fuel [0xE1, 0x00, 0x09, 0x01]) := by
  intro h
  have hmem : (⟨.null, 0⟩ : Access) ∈ onSidewalkMsgReceived strictUtils (fun _ => 0) (fun _ => 0) 1
      [0xE1, 0x00, 0x09, 0x01] := by decide +kernel
  exact Nat.lt_irrefl 0 (h 1 _ hmem)

end Sidewalk.Demo
