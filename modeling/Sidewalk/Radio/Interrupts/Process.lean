import Sidewalk.Radio.Interrupts.Packets
import Sidewalk.Radio.Lr11xx
import Sidewalk.Radio.Sx126x

/-!
# Interrupts and their results

`sid_pal_radio_irq_process` of both drivers, with its result. All pending interrupts are cleared
at once, one of them is handled, and the interrupts are enabled again at the end.
-/

namespace Sidewalk.Radio.Interrupts

open Lib Timer

/-! ## The code -/

/-- The fields of `drv_ctx` that the routine reads, the write of `cad_exit_mode`, which is no
other field, and what a start of a transmission writes. -/
structure Fields (Drv : Type) where
  radioState : Drv → RadioState
  modem : Drv → ModemMode
  cadExitMode : Drv → CadExitMode
  leaveCad : Drv → Drv
  transmit : Drv → Drv
  radioState_leaveCad : ∀ drv, radioState (leaveCad drv) = radioState drv

/-- What the steps give: the interrupts that are pending, whether they could be read and cleared,
what other functions of the driver return, how the callback and a change to standby leave the
driver, and the accesses that read a packet. -/
structure Steps (Drv : Type) where
  disableIrq : Option RadioFailure
  pending : IrqStatus
  statusRead : Bool
  startTx : Option RadioFailure
  enableIrq : Option RadioFailure
  reported : RadioEvent → Drv → Drv
  standby : Drv → Drv
  clock : Option SidTimespec
  lnaGain : Int8
  lib : Fsk.FskLib
  fsk : Fsk.Chip
  lora : LoraChip

/-- What the body of the routine leaves: the event that is reported next, whether a transmission
was started, and the error. -/
structure Handled (Drv : Type) where
  drv : Drv
  rx : Received
  event : Option RadioEvent
  started : Bool
  err : Int

structure Outcome (Drv : Type) where
  drv : Drv
  rx : Received
  reported : List RadioEvent
  started : Bool
  err : Int

def Handled.of {Drv : Type} (drv : Drv) (rx : Received) (event : Option RadioEvent) : Handled Drv :=
  ⟨drv, rx, event, false, radioErrorNone⟩

def byModem {α : Type} (modem : ModemMode) (lora fsk : α) : α :=
  match modem with
  | .lora => lora
  | .fsk => fsk

section

variable {Drv : Type} (f : Fields Drv) (steps : Steps Drv)

/-- `sid_pal_radio_start_tx`, whose result is not looked at. -/
def transmit (result : Option RadioFailure) (drv : Drv) (rx : Received) : Handled Drv :=
  if result.isNone then ⟨f.transmit drv, rx, none, true, radioErrorNone⟩ else .of drv rx none

def timeoutEvent (drv : Drv) (rx : Received) : Handled Drv :=
  if f.radioState drv = .tx then .of drv rx (some .txTimeout)
  else if f.cadExitMode drv = .csLbt then transmit f steps.startTx (f.leaveCad drv) rx
  else .of drv rx (some .rxTimeout)

def cadEvent (drv : Drv) (rx : Received) : Handled Drv :=
  let handled : Handled Drv :=
    if steps.pending.cadDetected then .of drv rx (some .cadDone)
    else if f.cadExitMode drv = .csLbt then transmit f steps.startTx drv rx
    else .of drv rx (some .cadTimeout)
  { handled with drv := f.leaveCad handled.drv }

/-- With the event that is reported where none is set. -/
def preambleEvent (initial : Option RadioEvent) (drv : Drv) (rx : Received) : Handled Drv :=
  if f.cadExitMode drv = .csLbt then .of (steps.standby (f.leaveCad drv)) rx (some .csDone)
  else .of drv rx initial

def loraRxDone (initial : Option RadioEvent) (drv : Drv) (rx : Received) : Handled Drv :=
  let (err, rx) := loraProcessRxDone steps.lora steps.lnaGain rx
  if err = radioErrorNone then ⟨drv, { rx with fsk := ⟨0, 0, 0⟩ }, some .rxDone, false, err⟩
  else ⟨drv, rx, initial, false, err⟩

/-- With what the status of the frame holds before it is read. -/
def fskRxDone (initial : Option RadioEvent) (status : Fsk.RxDoneStatus) (drv : Drv)
    (rx : Received) : Handled Drv :=
  let rx := { rx with rcvTm := steps.clock.getD rx.rcvTm }
  let (err, frame, status) :=
    Fsk.processRxDone steps.lib steps.fsk steps.lnaGain rx.frame status
  let rx := rx.withFrame frame
  match err, status with
  -- No other status comes with a generic error, which the LR11xx asserts.
  | .none, _ => ⟨drv, { rx with lora := ⟨0, 0, 0, .invalid⟩ }, some .rxDone, false, radioErrorNone⟩
  | .generic, .swMarkNotPresent | .generic, .unknownError | .generic, .badCrc =>
    ⟨drv, rx, some .rxError, false, radioErrorGeneric⟩
  | err, _ => ⟨drv, rx, initial, false, fskErrorCode err⟩

/-- The chain of the interrupts, down to those of a modem. -/
def interruptEvent (headerEvent : RadioEvent) (lora fsk : Option (Handled Drv)) (drv : Drv)
    (rx : Received) : Option (Handled Drv) :=
  if steps.pending.txDone then some (.of drv rx (some .txDone))
  else if steps.pending.crcError then some (.of drv rx (some .rxError))
  else if steps.pending.timeout then some (timeoutEvent f steps drv rx)
  else if steps.pending.headerError then some (.of drv rx (some headerEvent))
  else byModem (f.modem drv) lora fsk

/-- The body of the `do … while (0)`, with the error for a status that cannot be read. -/
def handleInterrupts (headerEvent : RadioEvent) (statusErr : Int) (initial : Option RadioEvent)
    (lora fsk : Option (Handled Drv)) (drv : Drv) (rx : Received) : Option (Handled Drv) :=
  match steps.disableIrq with
  | some e => some ⟨drv, rx, initial, false, e.code⟩
  | none =>
    if steps.statusRead then interruptEvent f steps headerEvent lora fsk drv rx
    else some ⟨drv, rx, initial, false, statusErr⟩

/-- From the report of the event on; `before` is what was reported and started already. -/
def finish (before handled : Handled Drv) : Outcome Drv :=
  let drv := handled.event.elim handled.drv fun event => steps.reported event handled.drv
  { drv
    rx := handled.rx
    reported := before.event.toList ++ handled.event.toList
    started := before.started || handled.started
    err := if f.radioState drv = .sleep then handled.err
      else steps.enableIrq.elim radioErrorNone RadioFailure.code }

end

namespace Sx126x

open Radio.Sx126x (DrvCtx)

def fields : Fields DrvCtx where
  radioState := DrvCtx.radioState
  modem := DrvCtx.modem
  cadExitMode := DrvCtx.cadExitMode
  leaveCad drv := { drv with cadExitMode := .none }
  transmit drv := { drv with radioState := .tx }
  radioState_leaveCad _ := rfl

/-- `DUAL_LINK_SUPPORT`, the value of `sid_pal_radio_rssi`, and what the status of a frame holds
before it is set. -/
structure Steps extends Interrupts.Steps DrvCtx where
  dualLink : Bool
  rssi : Int8
  status : Fsk.RxDoneStatus

variable (steps : Steps) (fuel : Nat) (drv : DrvCtx) (rx : Received)

def loraEvent : Handled DrvCtx :=
  if steps.pending.syncWordValid then .of drv rx none
  else if steps.pending.cadDone then cadEvent fields steps.toSteps drv rx
  else if steps.pending.rxDone && !steps.pending.crcError && steps.dualLink then
    loraRxDone steps.toSteps none drv rx
  else .of drv rx none

/-- With fuel for the wait for a header. -/
def fskEvent : Option (Handled DrvCtx) :=
  if steps.pending.syncWordValid then
    (Fsk.processSyncWordDetected steps.fsk fuel rx.frame).map fun r =>
      .of drv (rx.withFrame r.2.1) none
  else if steps.pending.preambleDetected then
    let rx := if drv.cadExitMode = .csLbt then
        { rx with fsk := { rx.fsk with rssiSync := steps.rssi } }
      else rx
    some (preambleEvent fields steps.toSteps none drv rx)
  else if steps.pending.rxDone then some (fskRxDone steps.toSteps none steps.status drv rx)
  else some (.of drv rx none)

/-- `sid_pal_radio_irq_process` of the SX126x. A status that cannot be read is no error. -/
def irqProcess : Option (Outcome DrvCtx) :=
  (handleInterrupts fields steps.toSteps .headerError radioErrorNone none
    (some (loraEvent steps drv rx)) (fskEvent steps fuel drv rx) drv rx).map
    (finish fields steps.toSteps (.of drv rx none))

end Sx126x

namespace Lr11xx

open Radio.Lr11xx (DrvCtx)

/-- A start during a scan arms the timer instead. -/
def fields : Fields DrvCtx where
  radioState := DrvCtx.radioState
  modem := DrvCtx.modem
  cadExitMode := DrvCtx.cadExitMode
  leaveCad drv := { drv with cadExitMode := .none }
  transmit drv :=
    if drv.radioState = .scan then { drv with timeoutSim := .tx }
    else { drv with radioState := .tx }
  radioState_leaveCad _ := rfl

/-- What a start gives at a simulated timeout, whether a timer could be armed, the accesses while a
header is received, whether the last command that failed is one of a scan, and the hooks after the
scans. -/
structure Steps extends Interrupts.Steps DrvCtx where
  simulatedStartTx : Option RadioFailure
  armed : Bool
  header : HeaderChip
  lastCommandScan : Bool
  wifiPostHook : Option (DrvCtx → DrvCtx)
  gnssPostHook : Option (DrvCtx → DrvCtx)

variable (steps : Steps) (fuel : Nat) (initial : Option RadioEvent) (drv : DrvCtx) (rx : Received)

/-- The interrupts of the scans, and a scan command that failed. -/
def scanDone : DrvCtx :=
  let drv := if steps.pending.wifiScanDone then
      steps.wifiPostHook.getD id { drv with radioState := .busy }
    else drv
  let drv := if steps.pending.gnssScanDone then
      steps.gnssPostHook.getD id { drv with radioState := .busy }
    else drv
  if steps.pending.cmdError && steps.lastCommandScan && drv.radioState = .scan then
    { drv with radioState := .standby }
  else drv

def loraEvent : Handled DrvCtx :=
  if steps.pending.cadDone then cadEvent fields steps.toSteps drv rx
  else if steps.pending.rxDone && !steps.pending.crcError then
    loraRxDone steps.toSteps initial drv rx
  else .of (scanDone steps drv) rx initial

def fskEvent : Option (Handled DrvCtx) :=
  if steps.pending.syncWordValid then
    (processSyncWordDetected steps.header fuel rx).map fun r => .of drv r.1 initial
  else if steps.pending.preambleDetected then
    some (preambleEvent fields steps.toSteps initial drv rx)
  else if steps.pending.rxDone then
    let handled := fskRxDone steps.toSteps initial .ok drv rx
    some { handled with drv := scanDone steps handled.drv }
  else some (.of (scanDone steps drv) rx initial)

/-- A timer that was deferred is armed when a simulated timeout is processed. -/
def rearm : DrvCtx :=
  if drv.deferredTimeout ≠ 0 then
    { drv with timeoutSim := if steps.armed then .rx else .off, deferredTimeout := 0 }
  else { drv with timeoutSim := .off }

/-- The simulated timeouts; an event is reported at once. -/
def simulatedInterrupt : Handled DrvCtx :=
  match drv.timeoutSim with
  | .rx =>
    let drv := rearm steps drv
    if drv.cadExitMode = .csLbt then
      transmit fields steps.simulatedStartTx { drv with cadExitMode := .none } rx
    else .of (steps.reported .rxTimeout drv) rx (some .rxTimeout)
  | .tx => .of (steps.reported .txDone { drv with timeoutSim := .off }) rx (some .txDone)
  | .off => .of drv rx none

/-- The interrupts of the chip. The event of a simulated timeout is reported again where no other
is set. -/
def chipInterrupt (before : Handled DrvCtx) : Option (Outcome DrvCtx) :=
  (handleInterrupts fields steps.toSteps .rxTimeout RadioFailure.hardwareError.code before.event
    (some (loraEvent steps before.event before.drv before.rx))
    (fskEvent steps fuel before.event before.drv before.rx) before.drv before.rx).map
    (finish fields steps.toSteps before)

/-- `sid_pal_radio_irq_process` of the LR11xx. -/
def irqProcess : Option (Outcome DrvCtx) :=
  let before := simulatedInterrupt steps drv rx
  if before.drv.radioState = .scan then
    some ⟨before.drv, before.rx, before.event.toList, before.started, radioErrorNone⟩
  else chipInterrupt steps fuel before

end Lr11xx

end Sidewalk.Radio.Interrupts
