import Sidewalk.Radio.Interface

/-!
# The LR11xx driver

The functions of `lr11xx_radio.c` that start and stop the radio, the interrupt routine, and the two
calls around a scan. Built without `FSK_SUPPRESS_RX_TIMEOUT`, `HALO_ENABLE_DIAGNOSTICS` and
`CONFIG_RADIO_LOCK_TEST`.
-/

namespace Sidewalk.Radio.Lr11xx

open Lib Lib.Access Lib.Attempt

/-- `timeout_sim_t`. -/
inductive TimeoutSim
  | off
  | rx
  | tx
  deriving DecidableEq, Repr

/-- The fields of `drv_ctx` that the functions here read or write. -/
structure DrvCtx where
  radioState : RadioState
  modem : ModemMode
  cadExitMode : CadExitMode
  timeoutSim : TimeoutSim
  deferredTimeout : Nat
  deriving DecidableEq

inductive Pin
  | rfSwEna
  | txBypass
  | txrx
  deriving DecidableEq

/-- Which pins are connected, the mitigations, and two fields of `drv_ctx` that are only read
here. -/
structure Config where
  connected : Pin → Bool
  timeOnAir : Nat
  enableExtPa : Bool
  irqNoiseDuringSleep : Bool
  lbdClearOnWakeup : Bool

/-- What the driver does outside its memory. The commands to the chip come first. -/
inductive Command
  | clearIrqStatus
  | getAndClearIrqStatus
  | setDioIrqParams
  | wakeup
  | setStandby
  | setSleep
  | stopTimeoutOnPreamble
  | setTx
  | setRx
  | setRxDutyCycle
  | setCad
  | setCadParams
  | setPktType
  /-- `radio_lora_process_rx_done` or `radio_fsk_process_rx_done`. -/
  | processRxDone
  /-- `radio_fsk_process_sync_word_detected`. -/
  | processSyncWord
  | gpioWrite (pin : Pin) (level : Bool)
  /-- Whether the read of `int1` succeeds. -/
  | readInt1
  /-- The level of `int1` that was read. -/
  | int1Level
  | setRadioInt (enable : Bool)
  /-- Whether an error of the FSK packet is one that is reported. -/
  | rxErrorReported
  | lastCommandScan
  | timerIsArmed
  /-- `sid_pal_timer_arm`, for a start that was deferred or for the start that calls. -/
  | timerArm (timeout : Nat) (kind : TimeoutSim) (deferred : Bool)
  /-- `report_radio_event`, for a simulated event or for one of the chip. -/
  | report (event : RadioEvent) (simulated : Bool)
  deriving DecidableEq

def Command.toChip : Command → Bool
  | .clearIrqStatus | .getAndClearIrqStatus | .setDioIrqParams | .wakeup | .setStandby
  | .setSleep | .stopTimeoutOnPreamble | .setTx | .setRx | .setRxDutyCycle | .setCad
  | .setCadParams | .setPktType | .processRxDone | .processSyncWord => true
  | _ => false

abbrev Op := Attempt (Access DrvCtx Command) Bool RadioFailure

def DrvCtx.scanning (drv : DrvCtx) : Bool := drv.radioState = .scan

def setState (state : RadioState) : Op Unit := modify fun drv => { drv with radioState := state }

/-! ## Pins and interrupts -/

def writePin (config : Config) (pin : Pin) (level : Bool) : Op Unit :=
  only (config.connected pin) (perform (.gpioWrite pin level) .ioError)

/-- `radio_lr11xx_set_radio_mode`. -/
def setRadioMode (config : Config) (rfEn txEn extPa : Bool) : Op Unit := do
  require (!(!rfEn && (txEn || extPa))) .invalidParams
  writePin config .rfSwEna rfEn
  writePin config .txBypass extPa
  writePin config .txrx txEn

/-- `radio_clear_irq_status_all`. -/
def clearIrqStatusAll : Op Unit := do
  if ← test DrvCtx.scanning then pure ()
  else do
    perform .readInt1 .hardwareError
    only (← ask .int1Level) (perform .clearIrqStatus .hardwareError)

/-- `radio_set_irq_mask`. -/
def setIrqMask : Op Unit := do
  if ← test DrvCtx.scanning then pure () else perform .setDioIrqParams .ioError

/-! ## Sleep and standby -/

def sleepRadio (config : Config) : Op Unit := do
  if ← test (·.radioState = .sleep) then pure ()
  else do
    clearIrqStatusAll
    setRadioMode config false false false
    only config.irqNoiseDuringSleep (ignore (.setRadioInt false))
    if ← ask .setSleep then setState .sleep
    else do
      only config.irqNoiseDuringSleep (ignore (.setRadioInt true))
      throw .hardwareError

/-- `sid_pal_radio_sleep`. -/
def sleep (config : Config) : Op Unit := do
  if ← test DrvCtx.scanning then pure () else sleepRadio config

/-- What `sid_pal_radio_standby` does first when the radio sleeps. -/
def wakeUp (config : Config) : Op Unit := do
  perform .wakeup .hardwareError
  only config.lbdClearOnWakeup (ignore .getAndClearIrqStatus)
  only config.irqNoiseDuringSleep (ignore (.setRadioInt true))
  setState .unknown

def standbyRadio (config : Config) : Op Unit := do
  if ← test (·.radioState = .standby) then pure ()
  else do
    only (← test (·.radioState = .sleep)) (wakeUp config)
    clearIrqStatusAll
    setRadioMode config false false false
    perform .setStandby .hardwareError
    setState .standby

/-- `sid_pal_radio_standby`. -/
def standby (config : Config) : Op Unit := do
  if ← test DrvCtx.scanning then pure () else standbyRadio config

/-! ## Starts -/

/-- `start_timeout_sim`. -/
def startTimeoutSim (timeout : Nat) (kind : TimeoutSim) (deferred : Bool) : Op Unit := do
  perform (.timerArm (if timeout = 0 then 34000 else timeout) kind deferred) .ioError
  modify fun drv => { drv with timeoutSim := kind }

/-- The start of a transmission while a scan holds the radio. -/
def startTxScan (config : Config) : Op Unit := do
  if ← ask .timerIsArmed then throw .busy
  else mapError (fun _ => .busy) (startTimeoutSim config.timeOnAir .tx false)

def startTxRadio (config : Config) : Op Unit := do
  setRadioMode config true true config.enableExtPa
  clearIrqStatusAll
  perform .setTx .hardwareError
  setState .tx

/-- `sid_pal_radio_start_tx`, whose body is one critical region. -/
def startTx (config : Config) : Op Unit := do
  if ← test DrvCtx.scanning then startTxScan config else startTxRadio config

/-- The start of a reception while a scan holds the radio. -/
def startRxScan (timeout : Nat) : Op Unit := do
  if ← ask .timerIsArmed then do
    modify fun drv => { drv with deferredTimeout := timeout }
    throw .hardwareError
  else startTimeoutSim timeout .rx false

def startRxRadio (config : Config) : Op Unit := do
  perform .stopTimeoutOnPreamble .hardwareError
  setRadioMode config true false false
  clearIrqStatusAll
  perform .setRx .hardwareError
  setState .rx

/-- `sid_pal_radio_start_rx`, whose body is one critical region. -/
def startRx (config : Config) (timeout : Nat) : Op Unit := do
  if ← test DrvCtx.scanning then startRxScan timeout else startRxRadio config

def carrierSenseRadio (config : Config) (exitMode : CadExitMode) : Op Unit := do
  require (← test (·.modem = .fsk)) .invalidParams
  require exitMode.valid .invalidParams
  perform .stopTimeoutOnPreamble .hardwareError
  setRadioMode config true false false
  clearIrqStatusAll
  setIrqMask
  perform .setRx .hardwareError
  setState .rx
  modify fun drv => { drv with cadExitMode := exitMode }

/-- `sid_pal_radio_start_carrier_sense`. -/
def startCarrierSense (config : Config) (exitMode : CadExitMode) : Op Unit := do
  if ← test DrvCtx.scanning then throw .busy else carrierSenseRadio config exitMode

/-- `sid_pal_radio_start_continuous_rx`. -/
def startContinuousRx (config : Config) : Op Unit := do
  if ← test DrvCtx.scanning then throw .busy else startRxRadio config

def dutyCycleRadio (config : Config) (rxTime sleepTime : Nat) : Op Unit := do
  require (rxTime ≠ 0 && sleepTime ≠ 0) .invalidParams
  setRadioMode config true false false
  clearIrqStatusAll
  perform .setRxDutyCycle .hardwareError
  setState .rxDc

/-- `sid_pal_radio_set_rx_duty_cycle`. -/
def setRxDutyCycle (config : Config) (rxTime sleepTime : Nat) : Op Unit := do
  if ← test DrvCtx.scanning then throw .busy else dutyCycleRadio config rxTime sleepTime

def cadRadio (config : Config) : Op Unit := do
  setRadioMode config true false false
  clearIrqStatusAll
  perform .setCad .hardwareError
  setState .cad

/-- `sid_pal_radio_lora_start_cad`. -/
def loraStartCad (config : Config) : Op Unit := do
  if ← test DrvCtx.scanning then throw .busy else cadRadio config

/-! ## Settings -/

/-- `sid_pal_radio_set_lora_cad_params`. -/
def setLoraCadParams (exitMode : CadExitMode) : Op Unit := do
  if ← test DrvCtx.scanning then pure ()
  else do
    require exitMode.lora .invalidParams
    modify fun drv => { drv with cadExitMode := exitMode }
    perform .setCadParams .hardwareError

/-- `sid_pal_radio_set_modem_mode`. -/
def setModemMode (mode : ModemMode) : Op Unit := do
  if ← test DrvCtx.scanning then pure ()
  else do
    perform .setPktType .hardwareError
    modify fun drv => { drv with modem := mode }
    perform .setDioIrqParams .ioError

/-! ## Interrupts -/

def reportEvent (simulated : Bool) : Option RadioEvent → Op Unit
  | some event => ignore (.report event simulated)
  | none => pure ()

/-- What `sid_pal_radio_irq_process` does for a simulated timeout, with the `deferred_timeout` it
reads. The event stays in `radio_event`. -/
def simulatedInterrupt (config : Config) (deferredTimeout : Nat) : Op (Option RadioEvent) := do
  if ← test (·.timeoutSim = .rx) then do
    modify fun drv => { drv with timeoutSim := .off }
    only (deferredTimeout ≠ 0) do
      regardless (startTimeoutSim deferredTimeout .rx true)
      modify fun drv => { drv with deferredTimeout := 0 }
    if ← test (·.cadExitMode = .csLbt) then do
      modify fun drv => { drv with cadExitMode := .none }
      regardless (startTx config)
      pure none
    else do
      ignore (.report .rxTimeout true)
      pure (some .rxTimeout)
  else if ← test (·.timeoutSim = .tx) then do
    modify fun drv => { drv with timeoutSim := .off }
    ignore (.report .txDone true)
    pure (some .txDone)
  else pure none

/-- What is assigned to `radio_event`: nothing, or an event or `SID_PAL_RADIO_EVENT_UNKNOWN`. -/
abbrev Assigned := Option (Option RadioEvent)

def rxDoneEvent : Op Assigned := do
  if ← ask .processRxDone then pure (some (some .rxDone))
  else if ← ask .rxErrorReported then pure (some (some .rxError))
  else pure none

/-- The end of a scan: the interrupts of the scans, and a failed scan command. -/
def scanDone (irq : IrqStatus) : Op Unit := do
  only irq.wifiScanDone do
    setState .busy
    ignore .setPktType
  only irq.gnssScanDone do
    setState .busy
    ignore .setPktType
  only irq.cmdError do
    only (← ask .lastCommandScan) do
      only (← test DrvCtx.scanning) do
        setState .standby
        ignore .setPktType

def timeoutEvent (config : Config) : Op Assigned := do
  if ← test (·.radioState = .tx) then pure (some (some .txTimeout))
  else if ← test (·.cadExitMode = .csLbt) then do
    modify fun drv => { drv with cadExitMode := .none }
    regardless (startTx config)
    pure (some none)
  else pure (some (some .rxTimeout))

def cadEvent (config : Config) (irq : IrqStatus) : Op Assigned := do
  let lbt ← test (·.cadExitMode = .csLbt)
  only (lbt && !irq.cadDetected) (regardless (startTx config))
  modify fun drv => { drv with cadExitMode := .none }
  pure (some (if irq.cadDetected then some .cadDone else if lbt then none else some .cadTimeout))

def loraEvent (config : Config) (irq : IrqStatus) : Op Assigned :=
  if irq.cadDone then cadEvent config irq
  else if irq.rxDone then do
    if ← ask .processRxDone then pure (some (some .rxDone)) else pure none
  else do
    scanDone irq
    pure none

def preambleEvent (config : Config) : Op Assigned := do
  if ← test (·.cadExitMode = .csLbt) then do
    modify fun drv => { drv with cadExitMode := .none }
    regardless (standby config)
    pure (some (some .csDone))
  else pure none

def fskEvent (config : Config) (irq : IrqStatus) : Op Assigned :=
  if irq.syncWordValid then do
    ignore .processSyncWord
    pure none
  else if irq.preambleDetected then preambleEvent config
  else if irq.rxDone then do
    let event ← rxDoneEvent
    scanDone irq
    pure event
  else do
    scanDone irq
    pure none

/-- The body of `do { … } while (0)` in `sid_pal_radio_irq_process` after the interrupts were
read. -/
def interruptEvent (config : Config) (irq : IrqStatus) : Op Assigned := do
  if irq.txDone then pure (some (some .txDone))
  else if irq.crcError then pure (some (some .rxError))
  else if irq.timeout then timeoutEvent config
  else if irq.headerError then pure (some (some .rxTimeout))
  else if ← test (·.modem = .lora) then loraEvent config irq
  else fskEvent config irq

/-- The same from `do` on. -/
def readInterrupt (config : Config) (irq : IrqStatus) : Op Assigned := do
  if ← ask .setDioIrqParams then do
    if ← ask .getAndClearIrqStatus then interruptEvent config irq else pure none
  else pure none

/-- The interrupts of the chip, which shows these when they are read. A simulated event that nothing
else was assigned over is reported once more. -/
def chipInterrupt (config : Config) (simulated : Option RadioEvent) (irq : IrqStatus) :
    Op Unit := do
  match ← readInterrupt config irq with
  | some event => reportEvent false event
  | none => reportEvent true simulated
  if ← test (·.radioState = .sleep) then pure () else ignore .setDioIrqParams

/-- `sid_pal_radio_irq_process`, without its result and what it reads of a packet. -/
def irqProcess (config : Config) (deferredTimeout : Nat) (irq : IrqStatus) : Op Unit := do
  let simulated ← simulatedInterrupt config deferredTimeout
  if ← test DrvCtx.scanning then pure () else chipInterrupt config simulated irq

/-! ## Scans -/

/-- The critical region of `sid_pal_radio_hold_scan`. -/
def DrvCtx.hold (drv : DrvCtx) : Option DrvCtx :=
  if drv.radioState = .tx ∨ drv.radioState = .rx then none
  else some { drv with radioState := .scan }

/-- `sid_pal_radio_hold_scan`; a result of -1 is a failure here. -/
def holdScan : Op Unit := do
  perform .readInt1 .hardwareError
  only (← ask .int1Level) clearIrqStatusAll
  require (← region DrvCtx.hold) .busy
  ignore (.setRadioInt true)

/-- `sid_pal_radio_release_scan`. -/
def releaseScan : Op Unit := do
  if ← test DrvCtx.scanning then do
    ignore .setPktType
    ignore .setDioIrqParams
    setState .standby
  else pure ()

end Sidewalk.Radio.Lr11xx
