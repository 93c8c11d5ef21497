import Sidewalk.Radio.Interface

/-!
# The SX126x driver

The functions of `sx126x_radio.c` that start and stop the radio, the interrupt routine, and the
bus accesses of `sx126x_hal.c` under them. The vendor functions reach the chip through
`sx126x_hal_read`, `sx126x_hal_write` and `sx126x_hal_wakeup`. Built without
`HALO_ENABLE_DIAGNOSTICS`.
-/

namespace Sidewalk.Radio.Sx126x

open Lib Lib.Access Lib.Attempt

/-- The fields of `drv_ctx` that the functions here read or write. -/
structure DrvCtx where
  radioState : RadioState
  modem : ModemMode
  cadExitMode : CadExitMode
  deriving DecidableEq

inductive Pin
  | rfSwEna
  | txBypass
  deriving DecidableEq

/-- Which pins are connected, which callbacks are set, whether `tcxo.ctrl` is
`SX126X_TCXO_CTRL_NONE`, and `DUAL_LINK_SUPPORT`. -/
structure Config where
  connected : Pin → Bool
  rfSwitchCallback : Bool
  dio3Callback : Bool
  tcxoNone : Bool
  enableExtPa : Bool
  dualLink : Bool

/-- The commands of the vendor functions. -/
inductive Opcode
  | setSleep
  | setStandby
  | setTx
  | setRx
  | setRxDutyCycle
  | setCad
  | setCadParams
  | setPktType
  | stopTmrOnPbl
  | setXtalTrim
  | setDioIrqParams
  | getIrqStatus
  | clearIrqStatus
  | writeBuffer
  | readBuffer
  | getRssiInst
  | getRxBufferStatus
  | getPktStatus
  | readRegister
  | writeRegister
  deriving DecidableEq

/-- What the driver does outside its memory. -/
inductive Command
  /-- `sx126x_hal_wakeup`. -/
  | wakeup
  | waitOnBusy
  | busXfer (op : Opcode)
  /-- The arguments of `radio_sx126x_set_radio_mode`, noted when it is called. -/
  | radioMode (rfEn txEn : Bool)
  | gpioWrite (pin : Pin) (level : Bool)
  | rfSwitchCallback (rfEn txEn : Bool)
  | dio3Callback (mode : Nat)
  | setGpioCfgSleep
  /-- Whether the status word that was read is not empty. -/
  | irqPending
  /-- Whether the header that was received is marked and its length leaves room for a checksum. -/
  | headerGood
  /-- Whether the frame that was read has a checksum to compare. -/
  | checksumTaken
  /-- Whether the frame that was read is good, or its error is one that is reported. -/
  | frameGood
  | rxErrorReported
  | report (event : RadioEvent)
  deriving DecidableEq

abbrev Op := Attempt (Access DrvCtx Command) Bool RadioFailure

def setState (state : RadioState) : Op Unit := modify fun drv => { drv with radioState := state }

/-! ## Bus accesses -/

/-- `radio_sx126x_set_radio_mode`. -/
def setRadioMode (config : Config) (rfEn txEn : Bool) : Op Unit := do
  ignore (.radioMode rfEn txEn)
  require (!(!rfEn && txEn)) .invalidParams
  only (config.connected .rfSwEna) (perform (.gpioWrite .rfSwEna rfEn) .ioError)
  only (config.connected .txBypass)
    (perform (.gpioWrite .txBypass (txEn && config.enableExtPa)) .ioError)
  only config.rfSwitchCallback (perform (.rfSwitchCallback rfEn txEn) .ioError)

/-- The states in which an access wakes the chip. -/
def DrvCtx.dozing (drv : DrvCtx) : Bool := drv.radioState = .sleep || drv.radioState = .rxDc

/-- `sx126x_wait_for_device_ready`. -/
def waitForDeviceReady (config : Config) : Op Unit := do
  if ← test DrvCtx.dozing then do
    ignore .wakeup
    setRadioMode config true true
    perform .waitOnBusy .hardwareError
  else pure ()

/-- `sx126x_hal_rdwr`. -/
def halRdwr (op : Opcode) : Op Unit := do
  perform .waitOnBusy .hardwareError
  perform (.busXfer op) .ioError

/-- A vendor function, which makes one access with `sx126x_hal_read` or `sx126x_hal_write`, and
what the driver returns when it fails. -/
def chip (config : Config) (op : Opcode) (e : RadioFailure) : Op Unit :=
  mapError (fun _ => e) do
    waitForDeviceReady config
    halRdwr op

/-- `radio_clear_irq_status_all`. -/
def clearIrqStatusAll (config : Config) : Op Unit := chip config .clearIrqStatus .hardwareError

/-- `sx126x_wakeup` and the callback after it. -/
def wakeUp (config : Config) : Op Unit := do
  perform .wakeup .hardwareError
  only config.dio3Callback (perform (.dio3Callback 2) .hardwareError)

/-- `set_trim_cap_val_to_radio`. -/
def setTrimCapValToRadio (config : Config) : Op Unit :=
  only config.tcxoNone do
    only (← test fun drv => drv.radioState = .sleep || drv.radioState = .unknown) (wakeUp config)
    chip config .setStandby .hardwareError
    chip config .setXtalTrim .ioError

/-! ## Sleep and standby -/

/-- `sid_pal_radio_sleep`. -/
def sleep (config : Config) : Op Unit := do
  if ← test (·.radioState = .sleep) then pure ()
  else do
    clearIrqStatusAll config
    setRadioMode config false false
    only config.dio3Callback (perform (.dio3Callback 1) .hardwareError)
    chip config .setSleep .hardwareError
    ignore .setGpioCfgSleep
    setState .sleep

/-- What `sid_pal_radio_standby` does first when the chip may be asleep. -/
def leaveSleep (config : Config) : Op Unit := do
  wakeUp config
  only (← test (·.radioState = .sleep)) (setState .standby)

/-- `sid_pal_radio_standby`. -/
def standby (config : Config) : Op Unit := do
  if ← test (·.radioState = .standby) then pure ()
  else do
    only (← test fun drv => drv.radioState = .sleep || drv.radioState = .unknown)
      (leaveSleep config)
    clearIrqStatusAll config
    setRadioMode config false false
    only (← test (·.radioState ≠ .standby)) (chip config .setStandby .hardwareError)
    setState .standby

/-! ## Starts -/

/-- `sid_pal_radio_set_tx_payload`, with the size of a buffer that is not null. -/
def setTxPayload (config : Config) (size : Option Nat) : Op Unit := do
  require (size.any (· ≠ 0)) .invalidParams
  chip config .writeBuffer .ioError

/-- `sid_pal_radio_start_tx`. -/
def startTx (config : Config) : Op Unit := do
  setTrimCapValToRadio config
  setRadioMode config true true
  clearIrqStatusAll config
  chip config .setTx .hardwareError
  setState .tx

/-- `sid_pal_radio_start_rx` and `sid_pal_radio_start_continuous_rx`, which differ in the timeout. -/
def startRx (config : Config) : Op Unit := do
  chip config .stopTmrOnPbl .hardwareError
  setTrimCapValToRadio config
  setRadioMode config true false
  clearIrqStatusAll config
  chip config .setRx .hardwareError
  setState .rx

/-- `sid_pal_radio_start_carrier_sense`. -/
def startCarrierSense (config : Config) (exitMode : CadExitMode) : Op Unit := do
  require (← test (·.modem = .fsk)) .invalidParams
  require exitMode.valid .invalidParams
  chip config .stopTmrOnPbl .hardwareError
  setTrimCapValToRadio config
  setRadioMode config true false
  clearIrqStatusAll config
  chip config .setDioIrqParams .ioError
  chip config .setRx .hardwareError
  setState .rx
  modify fun drv => { drv with cadExitMode := exitMode }

/-- `sid_pal_radio_set_rx_duty_cycle`. -/
def setRxDutyCycle (config : Config) (rxTime sleepTime : Nat) : Op Unit := do
  require (rxTime ≠ 0 && sleepTime ≠ 0) .invalidParams
  setTrimCapValToRadio config
  setRadioMode config true false
  clearIrqStatusAll config
  chip config .setRxDutyCycle .hardwareError
  setState .rxDc

/-- `sid_pal_radio_lora_start_cad`. -/
def loraStartCad (config : Config) : Op Unit := do
  setTrimCapValToRadio config
  setRadioMode config true false
  clearIrqStatusAll config
  chip config .setCad .hardwareError
  setState .cad

/-- `sid_pal_radio_rssi`, whose value is not modelled. -/
def rssi (config : Config) : Op Unit := chip config .getRssiInst .ioError

/-! ## Settings -/

/-- `sid_pal_radio_set_lora_cad_params`. -/
def setLoraCadParams (config : Config) (exitMode : CadExitMode) : Op Unit := do
  require exitMode.lora .invalidParams
  modify fun drv => { drv with cadExitMode := exitMode }
  chip config .setCadParams .hardwareError

/-- `sid_pal_radio_set_modem_mode`. -/
def setModemMode (config : Config) (mode : ModemMode) : Op Unit := do
  chip config .setPktType .hardwareError
  modify fun drv => { drv with modem := mode }
  chip config .setDioIrqParams .hardwareError

/-! ## Interrupts -/

def reportEvent : Option RadioEvent → Op Unit
  | some event => ignore (.report event)
  | none => pure ()

/-- `radio_lora_process_rx_done`, where only success is looked at. The two registers are those of
the header. -/
def loraProcessRxDone (config : Config) : Op Unit := do
  chip config .getRxBufferStatus .ioError
  chip config .readBuffer .ioError
  chip config .getPktStatus .ioError
  chip config .readRegister .ioError
  chip config .readRegister .ioError

def timeoutEvent (config : Config) : Op (Option RadioEvent) := do
  if ← test (·.radioState = .tx) then pure (some .txTimeout)
  else if ← test (·.cadExitMode = .csLbt) then do
    modify fun drv => { drv with cadExitMode := .none }
    regardless (startTx config)
    pure none
  else pure (some .rxTimeout)

def cadEvent (config : Config) (irq : IrqStatus) : Op (Option RadioEvent) := do
  let lbt ← test (·.cadExitMode = .csLbt)
  only (lbt && !irq.cadDetected) (regardless (startTx config))
  modify fun drv => { drv with cadExitMode := .none }
  pure (if irq.cadDetected then some .cadDone else if lbt then none else some .cadTimeout)

def loraEvent (config : Config) (irq : IrqStatus) : Op (Option RadioEvent) :=
  if irq.syncWordValid then pure none
  else if irq.cadDone then cadEvent config irq
  else if irq.rxDone && config.dualLink then do
    if ← succeeds (loraProcessRxDone config) then pure (some .rxDone) else pure none
  else pure none

def preambleEvent (config : Config) : Op (Option RadioEvent) := do
  if ← test (·.cadExitMode = .csLbt) then do
    regardless (rssi config)
    modify fun drv => { drv with cadExitMode := .none }
    regardless (standby config)
    pure (some .csDone)
  else pure none

/-- `radio_fsk_process_sync_word_detected`; one read stands for those of the wait for a header. -/
def fskProcessSyncWordDetected (config : Config) : Op Unit := do
  let arrived ← succeeds (chip config .readRegister .ioError)
  chip config .getRxBufferStatus .ioError
  only arrived do
    chip config .readBuffer .ioError
    chip config .writeRegister .ioError

/-- `radio_fsk_process_rx_done`. The measured strengths are only read for a frame with a
checksum. -/
def fskProcessRxDone (config : Config) : Op Unit := do
  require (← ask .headerGood) .ioError
  chip config .getRxBufferStatus .ioError
  chip config .readBuffer .ioError
  only (← ask .checksumTaken) (chip config .getPktStatus .ioError)
  require (← ask .frameGood) .ioError

def rxDoneEvent (config : Config) : Op (Option RadioEvent) := do
  if ← succeeds (fskProcessRxDone config) then pure (some .rxDone)
  else if ← ask .rxErrorReported then pure (some .rxError)
  else pure none

def fskEvent (config : Config) (irq : IrqStatus) : Op (Option RadioEvent) :=
  if irq.syncWordValid then do
    regardless (fskProcessSyncWordDetected config)
    pure none
  else if irq.preambleDetected then preambleEvent config
  else if irq.rxDone then rxDoneEvent config
  else pure none

def interruptEvent (config : Config) (irq : IrqStatus) : Op (Option RadioEvent) := do
  if irq.txDone then pure (some .txDone)
  else if irq.crcError then pure (some .rxError)
  else if irq.timeout then timeoutEvent config
  else if irq.headerError then pure (some .headerError)
  else if ← test (·.modem = .lora) then loraEvent config irq
  else fskEvent config irq

/-- `sx126x_get_and_clear_irq_status`. -/
def getAndClearIrqStatus (config : Config) : Op Unit := do
  chip config .getIrqStatus .hardwareError
  only (← ask .irqPending) (chip config .clearIrqStatus .hardwareError)

/-- `sid_pal_radio_irq_process`, when the chip shows these interrupts; its result is not
modelled. -/
def irqProcess (config : Config) (irq : IrqStatus) : Op Unit := do
  only (← succeeds (chip config .setDioIrqParams .ioError)) do
    only (← succeeds (getAndClearIrqStatus config)) do
      reportEvent (← interruptEvent config irq)
  if ← test (·.radioState = .sleep) then pure ()
  else regardless (chip config .setDioIrqParams .ioError)

end Sidewalk.Radio.Sx126x
