import Sidewalk.Lr11xx.Bootloader

/-!
# Updating the firmware of an LR11xx

`lr11xx_update_firmware` resets the chip into its bootloader, checks that it is the right one, and
then erases the flash, writes the image and reads the version of what starts from it. The chip is
modelled only as far as its flash and the status that it owes.
-/

namespace Sidewalk.Lr11xx

open Lib Lib.Attempt
open Lib.Program (make Runs)

/-! ## The code -/

/-- `lr11xx_fw_update_t`. -/
inductive FwUpdate
  | lr1110ToTrx
  | lr1110ToModem
  | lr1120ToTrx
  | lr1121ToTrx
  deriving DecidableEq

/-- What `lr11xx_update_firmware` returns when it does not return `LR11XX_FW_UPDATE_OK`. -/
inductive FwUpdateFailure
  | wrongChipType
  | error
  deriving DecidableEq

abbrev Update := Attempt HalCall HalReply FwUpdateFailure

def isChipInProductionMode (type : UInt8) : Bool := type = 0xDF

def isFwCompatibleWithChip (update : FwUpdate) (bootloaderVersion : UInt16) : Bool :=
  if (update = .lr1110ToTrx ∨ update = .lr1110ToModem) ∧ bootloaderVersion ≠ 0x6500 then false
  else if update = .lr1120ToTrx ∧ bootloaderVersion ≠ 0x2000 then false
  else if update = .lr1121ToTrx ∧ bootloaderVersion ≠ 0x2100 then false
  else true

/-- A driver call that must succeed, with what it read and the driver after it. -/
def demand (p : HalProgram Outcome) : Update (List UInt8 × DrvCtx) :=
  ExceptT.mk (do
    let out ← p
    pure (if out.ok then .ok (out.data, out.ctx) else .error .error))

/-- A call on a pin that must succeed. -/
def must (c : HalCall) : Update Unit := do
  let reply ← call c
  check reply.ok .error

def delay (us : Nat) : Update Unit := do
  let _ ← call (.delayUs us)

/-- `lr11xx_hal_reset` of a board without a power callback. -/
def systemReset : Update Unit := do
  must .powerDirection
  must .powerOutputMode
  must (.powerWrite false)
  delay 40000
  must (.powerWrite true)
  delay 40000

/-- The first half of `lr11xx_update_firmware`: the chip starts its bootloader when the busy line is
held low over the reset. -/
def resetToBootloader : Update Unit := do
  must (.busyDirection true)
  must (.busyWrite false)
  systemReset
  delay 500000
  must (.busyDirection false)
  delay 100000

def systemReadUidCommand : List UInt8 := [0x01, 0x25]

/-- The end of `lr11xx_update_firmware`, after the reboot. -/
def verify (direction : FwUpdate) (fwExpected : UInt32) (ctx : DrvCtx) : Update Unit :=
  if direction = .lr1110ToModem then throw .error
  else do
    let (rbuffer, ctx) ← demand (halRead ctx getVersionCommand 4)
    let _ ← demand (halRead ctx systemReadUidCommand 8)
    check ((versionOfBytes rbuffer).fw.toUInt32 = fwExpected) .error

/-- The part of `lr11xx_update_firmware` that is left when the chip has passed its checks. -/
def install (direction : FwUpdate) (fwExpected : UInt32) (buffer : List UInt32) (length : UInt32)
    (ctx : DrvCtx) : Update Unit := do
  let (_, ctx) ← demand (bootloaderEraseFlash ctx)
  let (_, ctx) ← demand (bootloaderWriteFlashEncryptedFull ctx 0 buffer length)
  let (_, ctx) ← demand (bootloaderReboot ctx false)
  verify direction fwExpected ctx

/-- `lr11xx_update_firmware`. -/
def updateFirmware (direction : FwUpdate) (fwExpected : UInt32) (buffer : List UInt32)
    (length : UInt32) (ctx : DrvCtx) : Update Unit := do
  resetToBootloader
  let (rbuffer, ctx) ← demand (bootloaderGetVersion ctx)
  let version := versionOfBytes rbuffer
  check (isChipInProductionMode version.type) .wrongChipType
  check (isFwCompatibleWithChip direction version.fw) .wrongChipType
  install direction fwExpected buffer length ctx

/-! ## What an update sends -/

/-- The commands that change the chip. -/
def installCommands (image : List UInt32) : List (List UInt8) :=
  [eraseFlashCommand] ++ (blockCommands 0 image ++ [rebootCommand false])

def verifyCommands (direction : FwUpdate) : List (List UInt8) :=
  if direction = .lr1110ToModem then []
  else [getVersionCommand, answerZeros 4] ++ ([systemReadUidCommand, answerZeros 8] ++ [])

/-- All that an update sends. -/
def updateScript (direction : FwUpdate) (image : List UInt32) : List (List UInt8) :=
  [getVersionCommand, answerZeros 4] ++ (installCommands image ++ verifyCommands direction)

/-- The transfers of a read, and what it got. -/
structure ReadDone (command : List UInt8) (dataLength : Nat) (ts : List Transfer)
    (data : List UInt8) : Prop where
  read : ∃ first second, ts = [(command, first), (answerZeros dataLength, second)] ∧
    data = (List.range dataLength).map fun i => second.received (i + 1)
  through : ∀ t ∈ ts, t.2.ok = true

/-- The chip that the firmware is for. -/
structure RightChip (direction : FwUpdate) (version : Version) : Prop where
  production : isChipInProductionMode version.type = true
  compatible : isFwCompatibleWithChip direction version.fw = true

section

variable {ctx : DrvCtx} {direction : FwUpdate} {fwExpected : UInt32} {image : List UInt32}
  {events : HalEvents}

/-- What the driver calls of an update leave: a settled driver, and transfers that went through. -/
structure Carried (ctx : DrvCtx) (script : List (List UInt8)) (events : HalEvents)
    (ctx' : DrvCtx) : Prop where
  sent : (transfers events).map Prod.fst = script
  settled : ctx'.Settled
  through : ∀ t ∈ transfers events, t.2.ok = true
  confirms : ctx.Settled → ∀ t ∈ transfers events, Confirms t

theorem runs_demand {p : HalProgram Outcome} {r : Except FwUpdateFailure (List UInt8 × DrvCtx)}
    (h : Runs (demand p).run events r) :
    ∃ out, Runs p events out ∧
      r = if out.ok then .ok (out.data, out.ctx) else .error .error := by
  obtain ⟨events₁, out, events₂, hrun, ⟨rfl, rfl⟩, rfl⟩ := Program.runs_bind.mp h
  rw [List.append_nil]
  exact ⟨out, hrun, rfl⟩

theorem follows_demand {p : HalProgram Outcome} {script : List (List UInt8)}
    (h : ∀ events out, Runs p events out → Carries ctx script events out) :
    Follows sentMark script (fun events r => Carried ctx script events r.2) (demand p) where
  begins := by
    intro events r hrun
    obtain ⟨out, hrun, -⟩ := runs_demand hrun
    rw [filterMap_sentMark]
    exact (h _ _ hrun).begins
  ends := by
    intro events a hrun
    obtain ⟨out, hrun, ha⟩ := runs_demand hrun
    have hcarries := h _ _ hrun
    cases hok : out.ok with
    | false =>
      rw [hok] at ha
      cases ha
    | true =>
      rw [hok] at ha
      cases ha
      rw [filterMap_sentMark]
      exact ⟨hcarries.ends hok, hcarries.ends hok, hcarries.settled hok, hcarries.through hok,
        fun hctx => hcarries.confirms hctx hok⟩

/-- A read that must succeed; its first transfer confirms what came before it. -/
theorem follows_demand_halRead {command : List UInt8} {dataLength : Nat}
    (hcode : commandCode command ≠ 0) :
    Follows sentMark [command, answerZeros dataLength]
      (fun events r => ReadDone command dataLength (transfers events) r.1 ∧ r.2.Settled ∧
        (ctx.Settled → ∀ t ∈ (transfers events).head?, Confirms t))
      (demand (halRead ctx command dataLength)) where
  begins := by
    intro events r hrun
    obtain ⟨out, hrun, -⟩ := runs_demand hrun
    rw [filterMap_sentMark]
    obtain ⟨-, hbegins⟩ | ⟨first, second, hts, -⟩ := runs_halRead hrun
    · exact hbegins
    · simp [hts]
  ends := by
    intro events a hrun
    obtain ⟨out, hread, ha⟩ := runs_demand hrun
    cases hok : out.ok with
    | false =>
      rw [hok] at ha
      cases ha
    | true =>
      rw [hok] at ha
      cases ha
      obtain ⟨hfail, -⟩ | ⟨first, second, hts, hsecond, hdata, hsends⟩ := runs_halRead hread
      · rw [hok] at hfail
        cases hfail
      · rw [filterMap_sentMark, hts]
        refine ⟨rfl, ⟨⟨first, second, rfl, hdata⟩, ?_⟩, hsends.settled hcode, ?_⟩
        · simp [hsends.through, hsecond]
        · intro hctx t ht
          cases ht
          exact hsends.confirms hctx hok

/-! ## The reset -/

/-- A call that transfers nothing over SPI. -/
theorem follows_silent {c : HalCall} (hmark : ∀ reply, transfer (c, reply) = none) :
    Follows sentMark [] (fun events _ => transfers events = []) (call c : Update HalReply) := by
  refine follows_call ?_ ?_
  · intro reply
    simp [sentMark, hmark]
  · intro reply
    simp [hmark]

theorem follows_must {c : HalCall} (hmark : ∀ reply, transfer (c, reply) = none) :
    Follows sentMark [] (fun events _ => transfers events = []) (must c) := by
  rw [← List.append_nil ([] : List (List UInt8))]
  refine Follows.then (follows_silent hmark) ?_
  intro events₁ reply h₁
  exact follows_check fun _ => by simp [h₁]

theorem follows_delay (us : Nat) :
    Follows sentMark [] (fun events _ => transfers events = []) (delay us) := by
  rw [← List.append_nil ([] : List (List UInt8))]
  refine Follows.then (follows_silent fun _ => rfl) ?_
  intro events₁ reply h₁
  exact follows_pure (by simp [h₁])

/-- Two steps that send nothing. -/
theorem Silent.then {p q : Update Unit}
    (hp : Follows sentMark [] (fun events _ => transfers events = []) p)
    (hq : Follows sentMark [] (fun events _ => transfers events = []) q) :
    Follows sentMark [] (fun events _ => transfers events = []) (p >>= fun _ => q) := by
  rw [← List.append_nil ([] : List (List UInt8))]
  refine Follows.then hp ?_
  intro events₁ _ h₁
  refine hq.mono ?_
  intro events₂ _ h₂
  simp [h₁, h₂]

/-- The reset sends nothing. -/
theorem follows_resetToBootloader :
    Follows sentMark [] (fun events _ => transfers events = []) resetToBootloader := by
  have hmust : ∀ c, (∀ reply, transfer (c, reply) = none) →
      Follows sentMark [] (fun events _ => transfers events = []) (must c) :=
    fun c hc => follows_must hc
  have hsystem : Follows sentMark [] (fun events _ => transfers events = []) systemReset := by
    refine Silent.then (hmust _ fun _ => rfl) ?_
    refine Silent.then (hmust _ fun _ => rfl) ?_
    refine Silent.then (hmust _ fun _ => rfl) ?_
    refine Silent.then (follows_delay _) ?_
    exact Silent.then (hmust _ fun _ => rfl) (follows_delay _)
  refine Silent.then (hmust _ fun _ => rfl) ?_
  refine Silent.then (hmust _ fun _ => rfl) ?_
  refine Silent.then hsystem ?_
  refine Silent.then (follows_delay _) ?_
  exact Silent.then (hmust _ fun _ => rfl) (follows_delay _)

/-! ## The installation -/

/-- How an update ends that returns `LR11XX_FW_UPDATE_OK`, from the erasure on: every command was
confirmed by the transfer after it, and the firmware that started is the one expected. -/
structure Installed (fwExpected : UInt32) (image : List UInt32) (ts : List Transfer) : Prop where
  through : ∀ t ∈ ts, t.2.ok = true
  parts : ∃ written version uid data, ts = written ++ (version ++ uid) ∧
    written.map Prod.fst = installCommands image ∧
    (∀ t ∈ written ++ version.take 1, Confirms t) ∧
    ReadDone getVersionCommand 4 version data ∧
    (versionOfBytes data).fw.toUInt32 = fwExpected

/-- The reads at the end of an update. -/
theorem follows_verify {written : List Transfer} (hctx : ctx.Settled)
    (hwritten : written.map Prod.fst = installCommands image)
    (hthrough : ∀ t ∈ written, t.2.ok = true) (hconfirms : ∀ t ∈ written, Confirms t) :
    Follows sentMark (verifyCommands direction)
      (fun events _ => direction ≠ .lr1110ToModem ∧
        Installed fwExpected image (written ++ transfers events))
      (verify direction fwExpected ctx) := by
  unfold verify verifyCommands
  by_cases hmodem : direction = .lr1110ToModem
  · rw [if_pos hmodem, if_pos hmodem]
    exact follows_throw
  · rw [if_neg hmodem, if_neg hmodem]
    refine Follows.then (follows_demand_halRead (by decide)) ?_
    rintro events₁ ⟨data, ctx₁⟩ ⟨hversion, hctx₁, hhead⟩
    refine Follows.then (follows_demand_halRead (by decide)) ?_
    rintro events₂ ⟨uid, ctx₂⟩ ⟨huid, -, -⟩
    refine follows_check fun hfw => ⟨hmodem, ?_, ?_⟩
    · intro t ht
      simp only [transfers_append, List.append_nil, List.mem_append] at ht
      obtain ht | ht | ht := ht
      · exact hthrough t ht
      · exact hversion.through t ht
      · exact huid.through t ht
    · refine ⟨written, transfers events₁, transfers events₂, data, by simp, hwritten, ?_, hversion,
        of_decide_eq_true hfw⟩
      intro t ht
      obtain ht | ht := List.mem_append.mp ht
      · exact hconfirms t ht
      · obtain ⟨first, second, hts, -⟩ := hversion.read
        rw [hts] at ht hhead
        exact hhead hctx t (by simpa [eq_comm] using ht)

/-- What is sent from the erasure on. -/
theorem follows_install {length : UInt32} (hctx : ctx.Settled)
    (hlen : image.length = length.toNat) :
    Follows sentMark (installCommands image ++ verifyCommands direction)
      (fun events _ => direction ≠ .lr1110ToModem ∧ Installed fwExpected image (transfers events))
      (install direction fwExpected image length ctx) := by
  have hsize : image.length < 2 ^ 32 := hlen ▸ length.toNat_lt
  rw [installCommands, List.append_assoc, List.append_assoc]
  refine Follows.then (follows_demand fun _ _ => carries_halWrite (by decide)) ?_
  rintro events₁ ⟨data₁, ctx₁⟩ h₁
  have hblocks : ∀ events out,
      Runs (bootloaderWriteFlashEncryptedFull ctx₁ 0 image length) events out →
        Carries ctx₁ (blockCommands 0 image) events out := by
    intro events out hrun
    simpa using carries_writeFlashLoop h₁.settled (by simpa using hlen) hsize hrun
  refine Follows.then (follows_demand hblocks) ?_
  rintro events₂ ⟨data₂, ctx₂⟩ h₂
  refine Follows.then (follows_demand fun _ _ => carries_halWrite (by simp)) ?_
  rintro events₃ ⟨data₃, ctx₃⟩ h₃
  have hall : ∀ P : Transfer → Prop, (∀ t ∈ transfers events₁, P t) →
      (∀ t ∈ transfers events₂, P t) → (∀ t ∈ transfers events₃, P t) →
      ∀ t ∈ transfers events₁ ++ (transfers events₂ ++ transfers events₃), P t := by
    intro P hP₁ hP₂ hP₃ t ht
    simp only [List.mem_append] at ht
    obtain ht | ht | ht := ht
    · exact hP₁ t ht
    · exact hP₂ t ht
    · exact hP₃ t ht
  have hcommands : (transfers events₁ ++ (transfers events₂ ++ transfers events₃)).map Prod.fst =
      installCommands image := by
    simp [h₁.sent, h₂.sent, h₃.sent, installCommands]
  refine Follows.mono (follows_verify h₃.settled hcommands (hall _ h₁.through h₂.through h₃.through)
    (hall _ (h₁.confirms hctx) (h₂.confirms h₁.settled) (h₃.confirms h₂.settled))) ?_
  intro events₄ _ h
  simpa using h

/-! ## A whole update -/

/-- What an update does, however it ends. -/
structure UpdateSound (direction : FwUpdate) (fwExpected : UInt32) (image : List UInt32)
    (ts : List Transfer) (ok : Prop) : Prop where
  /-- Nothing is sent but the script, in its order. -/
  begins : ts.map Prod.fst <+: updateScript direction image
  /-- What follows the version of the bootloader is sent to the right chip only. -/
  guarded : 2 < ts.length → ∃ data, ReadDone getVersionCommand 4 (ts.take 2) data ∧
    RightChip direction (versionOfBytes data)
  complete : ok → ts.map Prod.fst = updateScript direction image ∧
    direction ≠ .lr1110ToModem ∧ Installed fwExpected image (ts.drop 2)

theorem updateFirmware_sound {length : UInt32} (hlen : image.length = length.toNat)
    {r : Except FwUpdateFailure Unit}
    (h : Runs (updateFirmware direction fwExpected image length ctx).run events r) :
    UpdateSound direction fwExpected image (transfers events) (r = .ok ()) := by
  unfold updateFirmware at h
  rw [Attempt.runs_bind] at h
  obtain ⟨e, hstop, rfl⟩ | ⟨events₁, _, rest₁, hreset, hafter, rfl⟩ := h
  · have hnone := follows_resetToBootloader.begins hstop
    rw [filterMap_sentMark, List.prefix_nil, List.map_eq_nil_iff] at hnone
    constructor <;> simp [hnone]
  have hsilent : transfers events₁ = [] := (follows_resetToBootloader.ends hreset).2
  rw [transfers_append, hsilent, List.nil_append]
  have hcode : commandCode getVersionCommand ≠ 0 := by decide
  have hread := @follows_demand_halRead ctx getVersionCommand 4 hcode
  rw [Attempt.runs_bind] at hafter
  obtain ⟨e, hstop, rfl⟩ | ⟨events₂, ⟨data, ctx₁⟩, rest₂, hversion, hchecked, rfl⟩ := hafter
  · have hbegins := hread.begins hstop
    rw [filterMap_sentMark] at hbegins
    refine ⟨hbegins.trans (List.prefix_append _ _), fun hlong => ?_, by simp⟩
    have hle := hbegins.length_le
    rw [List.length_map] at hle
    exact absurd hlong (by simpa using hle)
  obtain ⟨hsent, hdone, hctx₁, -⟩ := hread.ends hversion
  rw [filterMap_sentMark] at hsent
  have htwo : (transfers events₂).length = 2 := by simpa using congrArg List.length hsent
  -- A chip that fails a check is sent nothing more.
  have hrefused : ∀ rest, rest = [] → ∀ e : FwUpdateFailure,
      UpdateSound direction fwExpected image (transfers (events₂ ++ rest))
        ((.error e : Except FwUpdateFailure Unit) = .ok ()) := by
    rintro rest rfl e
    rw [List.append_nil]
    exact ⟨hsent ▸ List.prefix_append _ _, by omega, by simp⟩
  rw [runs_check_bind] at hchecked
  obtain ⟨-, hnil, rfl⟩ | ⟨hproduction, hchecked⟩ := hchecked
  · exact hrefused _ hnil _
  rw [runs_check_bind] at hchecked
  obtain ⟨-, hnil, rfl⟩ | ⟨hcompatible, hinstall⟩ := hchecked
  · exact hrefused _ hnil _
  have hfollows := @follows_install _ direction fwExpected _ _ hctx₁ hlen
  rw [transfers_append]
  constructor
  · rw [List.map_append, hsent, updateScript, List.prefix_append_right_inj, ← filterMap_sentMark]
    exact hfollows.begins hinstall
  · intro _
    rw [List.take_left' htwo]
    exact ⟨data, hdone, hproduction, hcompatible⟩
  · rintro rfl
    obtain ⟨hscript, hmodem, hinstalled⟩ := hfollows.ends hinstall
    rw [List.map_append, hsent, ← filterMap_sentMark, hscript, List.drop_left' htwo]
    exact ⟨rfl, hmodem, hinstalled⟩

end

/-! ## An LR1110 whose replies are all good -/

/-- A good status, and the version of a production chip with the bootloader of an LR1110. -/
def goodReply : HalReply := ⟨true, fun i => [0x04, 0x04, 0xDF, 0x65, 0x00].getD i 0⟩

theorem statusOk_goodReply : statusOk (goodReply.received 0) = true := by decide

/-- An update with an image of one word. -/
def goodUpdate : HalEvents × Except FwUpdateFailure Unit :=
  Program.trace (fun _ => goodReply) (updateFirmware .lr1110ToTrx 0x6500 [7] 1 freshCtx).run

theorem runs_goodUpdate :
    Runs (updateFirmware .lr1110ToTrx 0x6500 [7] 1 freshCtx).run goodUpdate.1 goodUpdate.2 :=
  Program.runs_trace _ _

theorem goodUpdate_ok : goodUpdate.2 = .ok () := by
  have hloop : ∀ ctx : DrvCtx, bootloaderWriteFlashEncryptedFull ctx 0 [7] 1 = (do
      let out ← bootloaderWriteFlashEncrypted ctx 0 [7] 1
      if !out.ok then pure out else pure ⟨true, [], out.ctx⟩) := by
    intro ctx
    rw [bootloaderWriteFlashEncryptedFull, writeFlashLoop, dif_neg (by decide)]
    congr 1
    funext out
    rw [writeFlashLoop, dif_pos (by decide)]
  simp only [goodUpdate, updateFirmware, install, hloop]
  rfl

theorem updateFirmware_sound_goodUpdate :
    UpdateSound .lr1110ToTrx 0x6500 [7] (transfers goodUpdate.1) (goodUpdate.2 = .ok ()) :=
  updateFirmware_sound rfl runs_goodUpdate

end Sidewalk.Lr11xx
