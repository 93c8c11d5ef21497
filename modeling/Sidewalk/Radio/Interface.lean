import Sidewalk.Lib.Rules

/-!
# The radio interface

What `sid_pal_radio_ifc.h` gives to the drivers of the two chips. An attempt that fails names the
error code, and one that ends well is `RADIO_ERROR_NONE`.
-/

namespace Sidewalk.Radio

/-- `scan` is the state that the LR11xx driver adds. -/
inductive RadioState
  | unknown
  | standby
  | sleep
  | rx
  | tx
  | cad
  | standbyXosc
  | rxDc
  | busy
  | scan
  deriving DecidableEq, Repr

inductive ModemMode
  | lora
  | fsk
  deriving DecidableEq, Repr

/-- `sid_pal_radio_cad_param_exit_mode_t`. -/
inductive CadExitMode
  | csOnly
  | csRx
  | csLbt
  | csLbtRx
  | edOnly
  | edRx
  | edLbt
  | none
  deriving DecidableEq, Repr

/-- The error codes but `RADIO_ERROR_NONE`. -/
inductive RadioFailure
  | invalidParams
  | invalidState
  | hardwareError
  | ioError
  | busy
  deriving DecidableEq, Repr

/-- `RADIO_ERROR_*`. -/
def RadioFailure.code : RadioFailure → Int
  | .invalidParams => -2
  | .ioError => -3
  | .busy => -4
  | .hardwareError => -6
  | .invalidState => -7

def radioErrorNone : Int := 0

def radioErrorGeneric : Int := -8

theorem RadioFailure.code_ne_none (e : RadioFailure) : e.code ≠ radioErrorNone := by
  cases e <;> decide

/-- `sid_pal_radio_events_t`; `SID_PAL_RADIO_EVENT_UNKNOWN` is no event. -/
inductive RadioEvent
  | txDone
  | rxDone
  | rxError
  | rxTimeout
  | txTimeout
  | csDone
  | cadDone
  | cadTimeout
  | headerError
  deriving DecidableEq, Repr

/-- The interrupts of a status word; the last three are those of the LR11xx. -/
structure IrqStatus where
  txDone : Bool
  crcError : Bool
  timeout : Bool
  headerError : Bool
  cadDone : Bool
  cadDetected : Bool
  rxDone : Bool
  syncWordValid : Bool
  preambleDetected : Bool
  wifiScanDone : Bool
  gnssScanDone : Bool
  cmdError : Bool

/-- `sid_pal_radio_is_cad_exit_mode`, the same in both drivers. -/
def CadExitMode.valid : CadExitMode → Bool
  | .csOnly | .csRx | .csLbt | .edOnly | .edRx | .edLbt => true
  | .csLbtRx | .none => false

/-- The exit modes that `sid_pal_radio_set_lora_cad_params` takes, in both drivers. -/
def CadExitMode.lora : CadExitMode → Bool
  | .csOnly | .csRx | .csLbt => true
  | _ => false

end Sidewalk.Radio
