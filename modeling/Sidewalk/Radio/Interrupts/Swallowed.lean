import Sidewalk.Radio.Interrupts.Chain

/-!
# Interrupts that are swallowed

For each driver, the steps and interrupts with which nothing that ends an operation is lost.
-/

namespace Sidewalk.Radio.Interrupts

/-! ## The property -/

/-- The routine returns, and nothing is swallowed. -/
def Sx126x.Processed (steps : Sx126x.Steps) (drv : Radio.Sx126x.DrvCtx) (rx : Received) : Prop :=
  ∃ fuel o, Sx126x.irqProcess steps fuel drv rx = some o ∧ o.Settled

def Lr11xx.Processed (steps : Lr11xx.Steps) (drv : Radio.Lr11xx.DrvCtx) (rx : Received) : Prop :=
  ∃ fuel o, Lr11xx.irqProcess steps fuel drv rx = some o ∧ o.Settled

/-! ## The conditions -/

namespace Sx126x

variable (steps : Steps) (drv : Radio.Sx126x.DrvCtx) (rx : Received)

/-- The modem does nothing: a sync word comes before all other interrupts, the transmission after
a carrier sense does not start, there is no carrier sense, or the interrupt is none of the
modem's. -/
def Lost : Prop :=
  match drv.modem with
  | .lora => steps.pending.syncWordValid = true ∨
      if steps.pending.cadDone then
        steps.pending.cadDetected = false ∧ NotStarted fields steps.toSteps drv
      else ¬(steps.pending.rxDone = true ∧ steps.dualLink = true)
  | .fsk => steps.pending.syncWordValid = true ∨
      if steps.pending.preambleDetected then drv.cadExitMode ≠ .csLbt
      else steps.pending.rxDone = false

/-- A packet is received that cannot be read. -/
def Unread : Prop :=
  steps.pending.syncWordValid = false ∧ steps.pending.rxDone = true ∧
    match drv.modem with
    | .lora => steps.pending.cadDone = false ∧ steps.dualLink = true ∧ ¬steps.lora.Readable
    | .fsk => steps.pending.preambleDetected = false ∧
        FrameUnread steps.fsk steps.status rx.frame

def Waits : Prop := drv.modem = .fsk ∧ steps.pending.syncWordValid = true

/-- The condition of the SX126x. -/
def Handles : Prop :=
  Covered fields steps.toSteps drv drv.radioState (Silent steps.toSteps drv.radioState)
    (Lost steps drv) (Unread steps drv rx) (Waits steps drv) (HeaderArrives steps.fsk)

end Sx126x

namespace Lr11xx

open Radio.Lr11xx (DrvCtx)

variable (steps : Steps) (drv : DrvCtx) (rx : Received)

def Lost : Prop :=
  match drv.modem with
  | .lora => if steps.pending.cadDone then
        steps.pending.cadDetected = false ∧ NotStarted fields steps.toSteps drv
      else steps.pending.rxDone = false
  | .fsk => steps.pending.syncWordValid = true ∨
      if steps.pending.preambleDetected then drv.cadExitMode ≠ .csLbt
      else steps.pending.rxDone = false

def Unread : Prop :=
  steps.pending.rxDone = true ∧
    match drv.modem with
    | .lora => steps.pending.cadDone = false ∧ ¬steps.lora.Readable
    | .fsk => steps.pending.syncWordValid = false ∧ steps.pending.preambleDetected = false ∧
        FrameUnread steps.fsk .ok rx.frame

def Waits : Prop := drv.modem = .fsk ∧ steps.pending.syncWordValid = true

/-- The state in which the chain ends, which the interrupts of a scan change where it reaches
them. -/
def endState : RadioState :=
  let reached := match drv.modem with
    | .lora => !steps.pending.cadDone && !steps.pending.rxDone
    | .fsk => !steps.pending.syncWordValid && !steps.pending.preambleDetected
  if reached then (scanDone steps drv).radioState else drv.radioState

/-- The condition for the interrupts of the chip. -/
def ChipHandles : Prop :=
  Covered fields steps.toSteps drv (endState steps drv) (Faulted steps.toSteps drv.radioState)
    (Lost steps drv) (Unread steps drv rx) (Waits steps drv) (HeaderArrives steps.header)

/-- A header that is waited for arrives. -/
def WaitEnds : Prop :=
  drv.radioState ≠ .scan → Read steps.toSteps → ModemReached steps.toSteps → Waits steps drv →
    HeaderArrives steps.header

/-- The condition of the LR11xx: a simulated timeout reports an event or starts a transmission,
and where it does not the interrupts of the chip are on their own. -/
def Handles : Prop :=
  match drv.timeoutSim with
  | .off => ChipHandles steps drv rx
  | .tx => WaitEnds steps (steps.reported .txDone { drv with timeoutSim := .off })
  | .rx =>
    let drv := rearm steps drv
    if drv.cadExitMode = .csLbt then
      if steps.simulatedStartTx.isSome then ChipHandles steps { drv with cadExitMode := .none } rx
      else WaitEnds steps { drv with cadExitMode := .none, radioState := .tx }
    else WaitEnds steps (steps.reported .rxTimeout drv)

end Lr11xx

/-! ## The SX126x -/

namespace Sx126x

variable {steps : Steps} {drv : Radio.Sx126x.DrvCtx} {rx : Received}

theorem loraEvent_end (hmodem : drv.modem = .lora) (hcrc : steps.pending.crcError = false) :
    ChainEnd fields (Lost steps drv) (Unread steps drv rx) drv.radioState
      (loraEvent steps drv rx) := by
  unfold loraEvent Lost Unread
  simp only [hmodem]
  cases hsync : steps.pending.syncWordValid with
  | true => exact .lost (.inl rfl) (fun h => nomatch h.1) rfl
  | false =>
    cases hcad : steps.pending.cadDone with
    | true => exact cadEvent_end.congr (by simp) (by simp) rfl
    | false =>
      cases hrx : steps.pending.rxDone with
      | false => exact .lost (by simp) (by simp) rfl
      | true =>
        rw [hcrc]
        cases hdual : steps.dualLink with
        | false => exact .lost (by simp) (by simp) rfl
        | true => exact loraRxDone_end.congr (by simp) (by simp) rfl

theorem fskEvent_end {fuel : Nat} {handled : Handled Radio.Sx126x.DrvCtx}
    (hmodem : drv.modem = .fsk) (h : fskEvent steps fuel drv rx = some handled) :
    ChainEnd fields (Lost steps drv) (Unread steps drv rx) drv.radioState handled := by
  unfold fskEvent at h
  unfold Lost Unread
  simp only [hmodem]
  cases hsync : steps.pending.syncWordValid with
  | true =>
    rw [hsync] at h
    obtain ⟨r, -, rfl⟩ := Option.map_eq_some_iff.mp h
    exact .lost (.inl rfl) (fun h => nomatch h.1) rfl
  | false =>
    cases hpreamble : steps.pending.preambleDetected with
    | true =>
      rw [hsync, hpreamble] at h
      cases h
      exact preambleEvent_end.congr (by simp [fields]) (by simp) rfl
    | false =>
      cases hrx : steps.pending.rxDone with
      | true =>
        rw [hsync, hpreamble, hrx] at h
        cases h
        exact (fskRxDone_end steps.status).congr (by simp) (by simp) rfl
      | false =>
        rw [hsync, hpreamble, hrx] at h
        cases h
        exact .lost (by simp) (by simp) rfl

theorem waits_iff : (∃ fuel, (byModem drv.modem (some (loraEvent steps drv rx))
    (fskEvent steps fuel drv rx)).isSome = true) ↔
      (Waits steps drv → HeaderArrives steps.fsk) := by
  unfold byModem Waits
  cases hmodem : drv.modem with
  | lora => exact iff_of_true ⟨0, rfl⟩ fun h => nomatch h.1
  | fsk =>
    rw [and_iff_right rfl, ← header_iff]
    unfold fskEvent
    cases hsync : steps.pending.syncWordValid with
    | true =>
      simp only [if_true, Option.isSome_map, sync_isSome_iff, true_implies]
    | false =>
      refine iff_of_true ⟨0, ?_⟩ nofun
      cases steps.pending.preambleDetected with
      | true => rfl
      | false => cases steps.pending.rxDone <;> rfl

theorem processed_iff : Processed steps drv rx ↔ Handles steps drv rx := by
  refine covered_iff ?_ (fun hreached fuel handled h => ?_) waits_iff
  · have hend : ChainEnd fields True False drv.radioState
        (⟨drv, rx, none, false, radioErrorNone⟩ : Handled Radio.Sx126x.DrvCtx) :=
      .lost trivial id rfl
    rw [hend.settled_iff rfl rfl]
    simp
  · cases hmodem : drv.modem with
    | lora =>
      change byModem drv.modem _ _ = _ at h
      rw [hmodem] at h
      cases h
      exact loraEvent_end hmodem hreached.2.1
    | fsk =>
      change byModem drv.modem _ _ = _ at h
      rw [hmodem] at h
      exact fskEvent_end hmodem h

end Sx126x

/-! ## The LR11xx -/

namespace Lr11xx

open Radio.Lr11xx (DrvCtx)

variable {steps : Steps} {drv : DrvCtx} {rx : Received}

theorem loraEvent_end (hmodem : drv.modem = .lora) (hcrc : steps.pending.crcError = false) :
    ChainEnd fields (Lost steps drv) (Unread steps drv rx) (endState steps drv)
      (loraEvent steps none drv rx) := by
  unfold loraEvent Lost Unread endState
  simp only [hmodem]
  cases hcad : steps.pending.cadDone with
  | true => exact cadEvent_end.congr (by simp) (by simp) rfl
  | false =>
    cases hrx : steps.pending.rxDone with
    | false => exact .lost (by simp) (by simp) rfl
    | true =>
      rw [hcrc]
      exact loraRxDone_end.congr (by simp) (by simp) rfl

theorem fskEvent_end {fuel : Nat} {handled : Handled DrvCtx} (hmodem : drv.modem = .fsk)
    (h : fskEvent steps fuel none drv rx = some handled) :
    ChainEnd fields (Lost steps drv) (Unread steps drv rx) (endState steps drv) handled := by
  unfold fskEvent at h
  unfold Lost Unread endState
  simp only [hmodem]
  cases hsync : steps.pending.syncWordValid with
  | true =>
    rw [hsync] at h
    obtain ⟨r, -, rfl⟩ := Option.map_eq_some_iff.mp h
    exact .lost (.inl rfl) (fun h => nomatch h.2.1) rfl
  | false =>
    cases hpreamble : steps.pending.preambleDetected with
    | true =>
      rw [hsync, hpreamble] at h
      cases h
      exact preambleEvent_end.congr (by simp [fields]) (by simp) rfl
    | false =>
      cases hrx : steps.pending.rxDone with
      | true =>
        rw [hsync, hpreamble, hrx] at h
        simp only [if_true, Bool.false_eq_true, if_false, Option.some.injEq,
          fskRxDone_drv] at h
        subst h
        exact ((fskRxDone_end .ok).withDrv (scanDone steps drv)).congr (by simp) (by simp) rfl
      | false =>
        rw [hsync, hpreamble, hrx] at h
        cases h
        exact .lost (by simp) (by simp) rfl

theorem waits_iff (initial : Option RadioEvent) :
    (∃ fuel, (byModem drv.modem (some (loraEvent steps initial drv rx))
      (fskEvent steps fuel initial drv rx)).isSome = true) ↔
      (Waits steps drv → HeaderArrives steps.header) := by
  unfold byModem Waits
  cases hmodem : drv.modem with
  | lora => exact iff_of_true ⟨0, rfl⟩ fun h => nomatch h.1
  | fsk =>
    rw [and_iff_right rfl, ← header_iff]
    unfold fskEvent
    cases hsync : steps.pending.syncWordValid with
    | true =>
      simp only [if_true, Option.isSome_map, processSyncWordDetected, true_implies]
    | false =>
      refine iff_of_true ⟨0, ?_⟩ nofun
      cases steps.pending.preambleDetected with
      | true => rfl
      | false => cases steps.pending.rxDone <;> rfl

theorem chipInterrupt_iff : (∃ fuel o, chipInterrupt steps fuel (.of drv rx none) = some o ∧
    o.Settled) ↔ ChipHandles steps drv rx := by
  refine covered_iff ?_ (fun hreached fuel handled h => ?_) (waits_iff none)
  · have hend : ChainEnd fields False True drv.radioState
        (⟨drv, rx, none, false, RadioFailure.hardwareError.code⟩ : Handled DrvCtx) :=
      .unread id trivial rfl (RadioFailure.code_ne_none .hardwareError)
    rw [hend.settled_iff rfl rfl]
    simp
  · cases hmodem : drv.modem with
    | lora =>
      change byModem drv.modem _ _ = _ at h
      rw [hmodem] at h
      cases h
      exact loraEvent_end hmodem hreached.2.1
    | fsk =>
      change byModem drv.modem _ _ = _ at h
      rw [hmodem] at h
      exact fskEvent_end hmodem h

/-- Where something was reported or started before, only the wait for a header matters. -/
theorem reported_iff {before : Handled DrvCtx}
    (hbefore : before.event.isSome = true ∨ before.started = true) :
    (∃ fuel o, (if before.drv.radioState = .scan then
        some ⟨before.drv, before.rx, before.event.toList, before.started, radioErrorNone⟩
      else chipInterrupt steps fuel before) = some o ∧ o.Settled) ↔ WaitEnds steps before.drv := by
  by_cases hscan : before.drv.radioState = .scan
  · simp only [if_pos hscan]
    refine iff_of_true ⟨0, _, rfl, ?_⟩ fun hnot => absurd hscan hnot
    refine hbefore.imp (fun hevent => ?_) .inl
    obtain ⟨event, hsome⟩ := Option.isSome_iff_exists.mp hevent
    simp [hsome]
  · have hiff : (∃ fuel o, chipInterrupt steps fuel before = some o ∧ o.Settled) ↔
        ∃ fuel, (chipInterrupt steps fuel before).isSome = true := by
      refine exists_congr fun fuel => ⟨?_, fun hsome => ?_⟩
      · rintro ⟨o, ho, -⟩
        rw [ho]
        rfl
      · obtain ⟨o, ho⟩ := Option.isSome_iff_exists.mp hsome
        obtain ⟨handled, -, rfl⟩ := Option.map_eq_some_iff.mp ho
        exact ⟨_, ho, settled_finish_iff.mpr (.inl hbefore)⟩
    simp only [if_neg hscan]
    rw [hiff, WaitEnds, imp_iff_right hscan]
    unfold chipInterrupt
    simp only [Option.isSome_map, handleInterrupts_isSome_iff]
    have hwaits := @waits_iff steps before.drv before.rx before.event
    constructor
    · rintro ⟨fuel, h⟩ hread hreached
      exact hwaits.mp ⟨fuel, h hread hreached⟩
    · intro h
      by_cases hreached : Read steps.toSteps ∧ ModemReached steps.toSteps
      · obtain ⟨fuel, hfuel⟩ := hwaits.mpr (h hreached.1 hreached.2)
        exact ⟨fuel, fun _ _ => hfuel⟩
      · exact ⟨0, fun hread hmodem => absurd ⟨hread, hmodem⟩ hreached⟩

theorem unreported_iff (hscan : drv.radioState ≠ .scan) :
    (∃ fuel o, (if (Handled.of drv rx none).drv.radioState = .scan then
        some ⟨drv, rx, [], false, radioErrorNone⟩
      else chipInterrupt steps fuel (.of drv rx none)) = some o ∧ o.Settled) ↔
      ChipHandles steps drv rx := by
  simp only [show (Handled.of drv rx none).drv.radioState ≠ .scan from hscan, if_false]
  exact chipInterrupt_iff

theorem radioState_rearm (steps : Steps) (drv : DrvCtx) :
    (rearm steps drv).radioState = drv.radioState := by
  unfold rearm
  split <;> rfl

theorem processed_iff (hscan : drv.radioState ≠ .scan) :
    Processed steps drv rx ↔ Handles steps drv rx := by
  unfold Handles
  cases hsim : drv.timeoutSim with
  | off =>
    have hbefore : simulatedInterrupt steps drv rx = .of drv rx none := by
      unfold simulatedInterrupt
      rw [hsim]
    simp only [Processed, irqProcess, hbefore]
    exact unreported_iff hscan
  | tx =>
    have hbefore : simulatedInterrupt steps drv rx =
        .of (steps.reported .txDone { drv with timeoutSim := .off }) rx (some .txDone) := by
      unfold simulatedInterrupt
      rw [hsim]
    simp only [Processed, irqProcess, hbefore]
    exact reported_iff (.inl rfl)
  | rx =>
    have hstate : (rearm steps drv).radioState ≠ .scan := by rwa [radioState_rearm]
    simp only
    by_cases hlbt : (rearm steps drv).cadExitMode = .csLbt
    · have hbefore : simulatedInterrupt steps drv rx =
          transmit fields steps.simulatedStartTx { rearm steps drv with cadExitMode := .none }
            rx := by
        unfold simulatedInterrupt
        simp only [hsim, if_pos hlbt]
      rw [if_pos hlbt]
      cases hstart : steps.simulatedStartTx with
      | none =>
        have htransmit : transmit fields none { rearm steps drv with cadExitMode := .none } rx =
            ⟨{ rearm steps drv with cadExitMode := .none, radioState := .tx }, rx, none, true,
              radioErrorNone⟩ := by
          simp [transmit, fields, hstate]
        simp only [Processed, irqProcess, hbefore, hstart, htransmit, Option.isSome_none,
          Bool.false_eq_true, if_false]
        exact @reported_iff steps ⟨{ rearm steps drv with cadExitMode := .none, radioState := .tx },
          rx, none, true, radioErrorNone⟩ (.inr rfl)
      | some e =>
        have htransmit : transmit fields (some e) { rearm steps drv with cadExitMode := .none } rx =
            .of { rearm steps drv with cadExitMode := .none } rx none := rfl
        simp only [Processed, irqProcess, hbefore, hstart, htransmit]
        exact unreported_iff hstate
    · have hbefore : simulatedInterrupt steps drv rx =
          .of (steps.reported .rxTimeout (rearm steps drv)) rx (some .rxTimeout) := by
        unfold simulatedInterrupt
        simp only [hsim, if_neg hlbt]
      rw [if_neg hlbt]
      simp only [Processed, irqProcess, hbefore]
      exact reported_iff (.inl rfl)

end Lr11xx

/-! ## Both drivers -/

/-- For which steps no interrupt that ends an operation is swallowed. -/
theorem no_interrupt_swallowed_iff (rx : Received) :
    (∀ (steps : Sx126x.Steps) drv,
      (ends steps.pending = true → Sx126x.Processed steps drv rx) ↔
        (ends steps.pending = true → Sx126x.Handles steps drv rx)) ∧
    (∀ (steps : Lr11xx.Steps) (drv : Radio.Lr11xx.DrvCtx), drv.radioState ≠ .scan →
      ((ends steps.pending = true → Lr11xx.Processed steps drv rx) ↔
        (ends steps.pending = true → Lr11xx.Handles steps drv rx))) := by
  constructor
  · intro steps drv
    rw [Sx126x.processed_iff]
  · intro steps drv hscan
    rw [Lr11xx.processed_iff hscan]

/-! ## Runs -/

def noInterrupt : IrqStatus :=
  ⟨false, false, false, false, false, false, false, false, false, false, false, false⟩

/-- A chip with a header of a packet, and one with a LoRa packet of two bytes. -/
def readyChip : Fsk.Chip :=
  ⟨fun _ => some 4, some 0, fun _ n => some (List.replicate n.toNat 0), fun _ => some (),
    some (0, 0)⟩

def readyLora : LoraChip := ⟨some (2, 0), fun _ _ => some [1, 2], some (-90, 5, -92), some true⟩

def plainSteps {Drv : Type} (pending : IrqStatus) : Steps Drv where
  disableIrq := none
  pending := pending
  statusRead := true
  startTx := none
  enableIrq := none
  reported _ drv := drv
  standby drv := drv
  clock := none
  lnaGain := 0
  lib := Fsk.haloLib
  fsk := readyChip
  lora := readyLora

def emptyRx : Received := ⟨⟨0, 0, 0, .invalid⟩, ⟨0, 0, 0⟩, ⟨0, 0⟩, fun _ => 0, 0⟩

def Sx126x.plainSteps (pending : IrqStatus) : Sx126x.Steps :=
  ⟨Interrupts.plainSteps pending, true, 0, .ok⟩

def Lr11xx.plainSteps (pending : IrqStatus) : Lr11xx.Steps :=
  ⟨Interrupts.plainSteps pending, none, true, ⟨fun _ => some 0x00080000, some [0, 8, 0, 0]⟩, false,
    none, none⟩

/-- A LoRa packet is received by the LR11xx. -/
theorem no_interrupt_swallowed_iff_lora :
    Lr11xx.Processed (Lr11xx.plainSteps { noInterrupt with rxDone := true })
      ⟨.rx, .lora, .none, .off, 0⟩ emptyRx := by
  refine ((no_interrupt_swallowed_iff emptyRx).2 _ ⟨.rx, .lora, .none, .off, 0⟩ (by decide)).mpr
    (fun _ => ?_) rfl
  refine ⟨nofun, nofun, fun _ h => (nomatch h.2.2.1), fun _ _ h => (nomatch h), fun _ _ h => ?_,
    fun _ _ h => (nomatch h.1)⟩
  exact absurd ⟨⟨2, 0, rfl, rfl⟩, rfl, rfl⟩ h.2.2

/-- A sync word that is read together with the end of its FSK packet. -/
def syncedPacket : IrqStatus := { noInterrupt with rxDone := true, syncWordValid := true }

/-- No step fails, the packet is lost, and no error is returned. -/
theorem interrupts_swallowed :
    (ends syncedPacket = true ∧
      ¬Sx126x.Processed (Sx126x.plainSteps syncedPacket) ⟨.rx, .fsk, .none⟩ emptyRx) ∧
    (ends syncedPacket = true ∧
      ¬Lr11xx.Processed (Lr11xx.plainSteps syncedPacket) ⟨.rx, .fsk, .none, .off, 0⟩ emptyRx) := by
  refine ⟨⟨rfl, fun h => ?_⟩, ⟨rfl, fun h => ?_⟩⟩
  · have hsilent := (Sx126x.processed_iff.mp h).modem ⟨rfl, rfl⟩ ⟨rfl, rfl, rfl, rfl⟩ (.inl rfl)
    cases hsilent.2
  · have hhandles : Lr11xx.ChipHandles _ _ _ := (Lr11xx.processed_iff (by decide)).mp h
    have hsilent := hhandles.modem ⟨rfl, rfl⟩ ⟨rfl, rfl, rfl, rfl⟩ (.inl rfl)
    cases hsilent.2

end Sidewalk.Radio.Interrupts
