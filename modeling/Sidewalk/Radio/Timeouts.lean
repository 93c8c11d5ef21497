import Sidewalk.Radio.Lr11xx
import Sidewalk.Radio.Sx126x
import Sidewalk.Timer.Time

/-!
# Timeouts of the radio

The drivers take timeouts in microseconds, and the chips in ticks of 24 bits, two of which mean
something else. The SX126x driver multiplies in 32 bits and the LR11xx driver in 64; the timer that
stands for the radio during a scan is armed in nanoseconds of 32 bits.
-/

namespace Sidewalk.Radio.Timeouts

open Lib Timer
open Lib.Program (make Runs runs_bind runs_make runs_map)

/-! ## The SX126x -/

/-- `US_TO_SEMTEC_TICKS`, in the 32 bits of its argument. -/
def usToSemtecTicks (us : UInt32) : UInt32 := us * 64 / 1000

/-- The command of `sx126x_set_tx`, of which `timeout` takes three bytes. -/
def sx126xSetTx (timeout : UInt32) : List UInt8 :=
  [0x83, (timeout >>> 16).toUInt8, (timeout >>> 8).toUInt8, timeout.toUInt8]

/-- The command of `sx126x_set_rx`. -/
def sx126xSetRx (timeout : UInt32) : List UInt8 :=
  [0x82, (timeout >>> 16).toUInt8, (timeout >>> 8).toUInt8, timeout.toUInt8]

/-- The calls of the functions that start the radio. `halWrite` is the command that a vendor
function writes with `sx126x_hal_write`. -/
inductive StartCall
  | stopTmrOnPbl (enable : Bool)
  | setTrimCapValToRadio
  | setRadioMode (rfEn txEn : Bool)
  | clearIrqStatusAll
  /-- `radio_set_irq_mask` with the timeout and the preamble. -/
  | setIrqMask
  | halWrite (command : List UInt8)
  deriving DecidableEq

abbrev StartReply := Except RadioFailure Unit

abbrev Start := ExceptT RadioFailure (Program StartCall StartReply)

/-- A function of the driver, whose error is passed on. -/
def attempt (c : StartCall) : Start Unit := ExceptT.mk (make c)

/-- A vendor function, whose failure is a hardware error. -/
def vendor (c : StartCall) : Start Unit :=
  ExceptT.mk ((fun reply : StartReply => reply.mapError fun _ => .hardwareError) <$> make c)

def startTx (drv : Sx126x.DrvCtx) (timeout : UInt32) : Start Sx126x.DrvCtx := do
  attempt .setTrimCapValToRadio
  attempt (.setRadioMode true true)
  attempt .clearIrqStatusAll
  vendor (.halWrite (sx126xSetTx (usToSemtecTicks timeout)))
  pure { drv with radioState := .tx }

def startRx (drv : Sx126x.DrvCtx) (timeout : UInt32) : Start Sx126x.DrvCtx := do
  vendor (.stopTmrOnPbl (drv.modem = .fsk))
  attempt .setTrimCapValToRadio
  attempt (.setRadioMode true false)
  attempt .clearIrqStatusAll
  vendor (.halWrite (sx126xSetRx (usToSemtecTicks timeout)))
  pure { drv with radioState := .rx }

/-- `sid_pal_radio_start_carrier_sense`, with `fsk_cs_duration_us`. -/
def startCarrierSense (drv : Sx126x.DrvCtx) (fskCsDurationUs : UInt32) (exitMode : CadExitMode) :
    Start Sx126x.DrvCtx := do
  if drv.modem ≠ .fsk then throw .invalidParams
  else if exitMode.valid = false then throw .invalidParams
  else do
    vendor (.stopTmrOnPbl true)
    attempt .setTrimCapValToRadio
    attempt (.setRadioMode true false)
    attempt .clearIrqStatusAll
    attempt .setIrqMask
    vendor (.halWrite (sx126xSetRx (usToSemtecTicks fskCsDurationUs)))
    pure { drv with radioState := .rx, cadExitMode := exitMode }

inductive StartFunction
  | startTx
  | startRx
  | startCarrierSense (exitMode : CadExitMode)

def StartFunction.code (drv : Sx126x.DrvCtx) (timeout : UInt32) :
    StartFunction → Start Sx126x.DrvCtx
  | .startTx => Timeouts.startTx drv timeout
  | .startRx => Timeouts.startRx drv timeout
  | .startCarrierSense exitMode => Timeouts.startCarrierSense drv timeout exitMode

/-- The arguments that are refused before the radio is used. -/
def StartFunction.refused (drv : Sx126x.DrvCtx) : StartFunction → Bool
  | .startTx | .startRx => false
  | .startCarrierSense exitMode => drv.modem ≠ .fsk || !exitMode.valid

/-! ## The LR11xx -/

/-- `LR11XX_RX_CONTINUOUS_VAL`. -/
def lr11xxRxContinuousVal : UInt32 := 0xFFFFFF

/-- `LR11XX_US_TO_TICKS`. -/
def lr11xxUsToTicks (us : UInt32) : UInt64 := us.toUInt64 * 32768 / 1000000

def usToRtcTicks (us : UInt32) : UInt32 :=
  if us = lr11xxRxContinuousVal then lr11xxRxContinuousVal
  else if us = 0 then 0
  else (lr11xxUsToTicks us).toUInt32

/-- `start_timeout_sim`: the time that it arms the timer for, and what it returns when arming the
timer succeeds or not. -/
def startTimeoutSim (drv : Lr11xx.DrvCtx) (timeout : UInt32) (kind : Lr11xx.TimeoutSim)
    (now : SidTimespec) (armed : Bool) : SidTimespec × Except RadioFailure Lr11xx.DrvCtx :=
  let timeout := if timeout = 0 then 34000 else timeout
  let tm2 : SidTimespec := ⟨0, (timeout * 1000).toNat⟩
  (wrappingTime.add now tm2,
    if armed then .ok { drv with timeoutSim := kind } else .error .ioError)

/-! ## The property -/

/-- Ticks of 24 bits that stand for a time. -/
def Timed (ticks : Nat) : Prop := ticks < 2 ^ 24 ∧ ticks ≠ 0 ∧ ticks ≠ 0xFFFFFF

/-- The ticks of a command, which the chip takes from its last three bytes. -/
def commandTicks : List UInt8 → Option Nat
  | [_, high, mid, low] => some (high.toNat * 65536 + mid.toNat * 256 + low.toNat)
  | _ => none

/-- The ticks of the commands that were written. -/
def programmed (events : List (StartCall × StartReply)) : List Nat :=
  events.filterMap fun e =>
    match e with
    | (.halWrite command, .ok ()) => commandTicks command
    | _ => none

/-- A start fails, or programs the timeout once. -/
def StartSound (timeout : UInt32) (events : List (StartCall × StartReply))
    (r : Except RadioFailure Sx126x.DrvCtx) : Prop :=
  ∀ drv, r = .ok drv →
    programmed events = [timeout.toNat * 64 / 1000] ∧ Timed (timeout.toNat * 64 / 1000)

def RtcTicksSound (us : UInt32) : Prop :=
  (usToRtcTicks us).toNat = us.toNat * 32768 / 1000000 ∧ Timed (usToRtcTicks us).toNat

/-- The timer is armed for `timeout` from now on. -/
def AlarmSound (now alarm : SidTimespec) (timeout : UInt32) : Prop :=
  alarm.Normal ∧ alarm.ns = now.ns + timeout.toNat * 1000

/-! ## Ticks -/

/-- The chip takes the lowest 24 bits. -/
theorem commandTicks_sx126xSetTx (ticks : UInt32) :
    commandTicks (sx126xSetTx ticks) = some (ticks.toNat % 2 ^ 24) := by
  simp only [sx126xSetTx, commandTicks, UInt32.toNat_toUInt8, UInt32.toNat_shiftRight,
    UInt32.toNat_ofNat, Nat.shiftRight_eq_div_pow, Option.some.injEq, Nat.reduceMod, Nat.reducePow]
  omega

theorem commandTicks_sx126xSetRx (ticks : UInt32) :
    commandTicks (sx126xSetRx ticks) = some (ticks.toNat % 2 ^ 24) :=
  commandTicks_sx126xSetTx ticks

theorem toNat_usToSemtecTicks (us : UInt32) :
    (usToSemtecTicks us).toNat = us.toNat * 64 % 2 ^ 32 / 1000 := by
  simp [usToSemtecTicks]

theorem toNat_usToRtcTicks {us : UInt32} (hcontinuous : us ≠ lr11xxRxContinuousVal)
    (hzero : us ≠ 0) : (usToRtcTicks us).toNat = us.toNat * 32768 / 1000000 := by
  have hlt := us.toNat_lt
  rw [usToRtcTicks, if_neg hcontinuous, if_neg hzero, lr11xxUsToTicks]
  simp only [UInt64.toNat_toUInt32, UInt64.toNat_div, UInt64.toNat_mul, UInt32.toNat_toUInt64,
    UInt64.toNat_ofNat, Nat.reduceMod, Nat.reducePow]
  rw [Nat.mod_eq_of_lt (a := us.toNat * 32768) (by omega), Nat.mod_eq_of_lt (by omega)]

theorem programmed_iff {n : Nat} : (n * 64 % 2 ^ 32 / 1000 % 2 ^ 24 = n * 64 / 1000 ∧
    Timed (n * 64 / 1000)) ↔ 16 ≤ n ∧ n < 2 ^ 26 := by
  have hfits : n * 64 % 2 ^ 32 / 1000 < 2 ^ 24 := by omega
  rw [Nat.mod_eq_of_lt hfits]
  by_cases hwraps : n < 2 ^ 26
  · rw [Nat.mod_eq_of_lt (by omega)]
    unfold Timed
    omega
  · -- What is lost by the wrap is more than a tick.
    have hle : n * 64 % 2 ^ 32 + 1000 ≤ n * 64 := by omega
    have hlt : n * 64 % 2 ^ 32 / 1000 < n * 64 / 1000 :=
      calc n * 64 % 2 ^ 32 / 1000 < (n * 64 % 2 ^ 32 + 1000) / 1000 := by omega
        _ ≤ n * 64 / 1000 := Nat.div_le_div_right hle
    exact iff_of_false (fun h => hlt.ne h.1) fun h => hwraps h.2

theorem rtcTicksSound_iff {us : UInt32} (hcontinuous : us ≠ lr11xxRxContinuousVal)
    (hzero : us ≠ 0) : RtcTicksSound us ↔ 31 ≤ us.toNat ∧ us.toNat ≤ 511999969 := by
  unfold RtcTicksSound Timed
  rw [toNat_usToRtcTicks hcontinuous hzero]
  omega

/-! ## Starts -/

section

variable {α : Type} {c : StartCall} {f : Unit → Start α} {a : α} {drv : Sx126x.DrvCtx}
  {timeout : UInt32} {events : List (StartCall × StartReply)}

/-- A start that succeeds goes on after each call. -/
theorem runs_attempt_bind : Runs (attempt c >>= f).run events (.ok a) ↔
    ∃ rest, events = (c, .ok ()) :: rest ∧ Runs (f ()).run rest (.ok a) := by
  constructor
  · rintro ⟨reply, rest, rfl, h⟩
    cases reply with
    | ok => exact ⟨rest, rfl, h⟩
    | error => nomatch h.2
  · rintro ⟨rest, rfl, h⟩
    exact ⟨.ok (), rest, rfl, h⟩

theorem runs_vendor_bind : Runs (vendor c >>= f).run events (.ok a) ↔
    ∃ rest, events = (c, .ok ()) :: rest ∧ Runs (f ()).run rest (.ok a) := by
  constructor
  · rintro ⟨reply, rest, rfl, h⟩
    cases reply with
    | ok => exact ⟨rest, rfl, h⟩
    | error => nomatch h.2
  · rintro ⟨rest, rfl, h⟩
    exact ⟨.ok (), rest, rfl, h⟩

theorem runs_pure {b : α} : Runs (pure b : Start α).run events (.ok a) ↔ events = [] ∧ a = b := by
  change events = [] ∧ (.ok a : Except RadioFailure α) = .ok b ↔ _
  rw [Except.ok.injEq]

/-- A start that succeeds programs the timeout in 32 bits, and nothing else. -/
def Programs (timeout : UInt32) (p : Start Sx126x.DrvCtx) : Prop :=
  (∃ events drv, Runs p.run events (.ok drv)) ∧
    ∀ events drv, Runs p.run events (.ok drv) →
      programmed events = [timeout.toNat * 64 % 2 ^ 32 / 1000 % 2 ^ 24]

theorem programs_startTx : Programs timeout (startTx drv timeout) := by
  unfold startTx
  simp only [Programs, runs_attempt_bind, runs_vendor_bind, runs_pure]
  refine ⟨⟨_, _, _, rfl, _, rfl, _, rfl, _, rfl, rfl, rfl⟩, ?_⟩
  rintro events drv ⟨_, rfl, _, rfl, _, rfl, _, rfl, rfl, -⟩
  simp only [programmed, List.filterMap_cons, List.filterMap_nil, commandTicks_sx126xSetTx,
    toNat_usToSemtecTicks]

theorem programs_startRx : Programs timeout (startRx drv timeout) := by
  unfold startRx
  simp only [Programs, runs_attempt_bind, runs_vendor_bind, runs_pure]
  refine ⟨⟨_, _, _, rfl, _, rfl, _, rfl, _, rfl, _, rfl, rfl, rfl⟩, ?_⟩
  rintro events drv ⟨_, rfl, _, rfl, _, rfl, _, rfl, _, rfl, rfl, -⟩
  simp only [programmed, List.filterMap_cons, List.filterMap_nil, commandTicks_sx126xSetRx,
    toNat_usToSemtecTicks]

theorem programs_startCarrierSense {exitMode : CadExitMode} (hmodem : drv.modem = .fsk)
    (hvalid : exitMode.valid = true) :
    Programs timeout (startCarrierSense drv timeout exitMode) := by
  unfold startCarrierSense
  rw [if_neg (not_not_intro hmodem), if_neg (by rw [hvalid]; exact Bool.true_eq_false_eq_False)]
  simp only [Programs, runs_attempt_bind, runs_vendor_bind, runs_pure]
  refine ⟨⟨_, _, _, rfl, _, rfl, _, rfl, _, rfl, _, rfl, _, rfl, rfl, rfl⟩, ?_⟩
  rintro events drv ⟨_, rfl, _, rfl, _, rfl, _, rfl, _, rfl, _, rfl, rfl, -⟩
  simp only [programmed, List.filterMap_cons, List.filterMap_nil, commandTicks_sx126xSetRx,
    toNat_usToSemtecTicks]

theorem Programs.sound_iff {p : Start Sx126x.DrvCtx} (h : Programs timeout p) :
    (∀ events r, Runs p.run events r → StartSound timeout events r) ↔
      16 ≤ timeout.toNat ∧ timeout.toNat < 2 ^ 26 := by
  obtain ⟨⟨events, drv, hrun⟩, hprograms⟩ := h
  rw [← programmed_iff]
  constructor
  · intro hsound
    obtain ⟨hticks, htimed⟩ := hsound events _ hrun drv rfl
    rw [hprograms events drv hrun, List.cons.injEq] at hticks
    exact ⟨hticks.1, htimed⟩
  · rintro ⟨hticks, htimed⟩ events _ hrun drv rfl
    rw [hprograms events drv hrun, hticks]
    exact ⟨rfl, htimed⟩

/-- A refused start never succeeds. -/
theorem sound_of_refused {fn : StartFunction} (hrefused : fn.refused drv = true)
    {r : Except RadioFailure Sx126x.DrvCtx} (hrun : Runs (fn.code drv timeout).run events r) :
    StartSound timeout events r := by
  cases fn with
  | startTx => cases hrefused
  | startRx => cases hrefused
  | startCarrierSense exitMode =>
    have herror : r = .error .invalidParams := by
      change Runs (startCarrierSense drv timeout exitMode).run events r at hrun
      unfold startCarrierSense at hrun
      by_cases hmodem : drv.modem = .fsk
      · have hvalid : exitMode.valid = false := by
          simpa [StartFunction.refused, hmodem] using hrefused
        rw [if_neg (not_not_intro hmodem), if_pos hvalid] at hrun
        exact hrun.2
      · rw [if_pos hmodem] at hrun
        exact hrun.2
    intro drv' hok
    rw [herror] at hok
    cases hok

theorem start_iff {fn : StartFunction} :
    (∀ events r, Runs (fn.code drv timeout).run events r → StartSound timeout events r) ↔
      fn.refused drv = true ∨ (16 ≤ timeout.toNat ∧ timeout.toNat < 2 ^ 26) := by
  by_cases hrefused : fn.refused drv = true
  · exact iff_of_true (fun _ _ => sound_of_refused hrefused) (.inl hrefused)
  · rw [or_iff_right hrefused]
    refine Programs.sound_iff ?_
    cases fn with
    | startTx => exact programs_startTx
    | startRx => exact programs_startRx
    | startCarrierSense exitMode =>
      rw [StartFunction.refused] at hrefused
      simp only [Bool.or_eq_true, decide_eq_true_eq, Bool.not_eq_true', not_or, not_not,
        Bool.not_eq_false] at hrefused
      exact programs_startCarrierSense hrefused.1 hrefused.2

end

/-! ## The simulated timeout -/

theorem alarm_iff {drv : Lr11xx.DrvCtx} {timeout : UInt32} {kind : Lr11xx.TimeoutSim}
    {now : SidTimespec} {armed : Bool} (hzero : timeout ≠ 0) :
    AlarmSound now (startTimeoutSim drv timeout kind now armed).1 timeout ↔
      SidTimespec.Fits ⟨now.tvSec, now.tvNsec + timeout.toNat * 1000⟩ := by
  have halarm : (startTimeoutSim drv timeout kind now armed).1 =
      sidTimeAdd32 now ⟨0, timeout.toNat * 1000 % 2 ^ 32⟩ := by
    simp [startTimeoutSim, wrappingTime, hzero]
  rw [AlarmSound, halarm, and_iff_right (sidTimeAdd32_normal _ _)]
  by_cases hwraps : timeout.toNat * 1000 < 2 ^ 32
  · rw [Nat.mod_eq_of_lt hwraps]
    have hns : (⟨0, timeout.toNat * 1000⟩ : SidTimespec).ns = timeout.toNat * 1000 := by
      simp [SidTimespec.ns]
    have hadd := ns_sidTimeAdd32_iff (a := now) (b := ⟨0, timeout.toNat * 1000⟩)
    rw [hns] at hadd
    exact hadd
  · refine iff_of_false (fun h => ?_) fun h => ?_
    · have hle := ns_sidTimeAdd32_le now ⟨0, timeout.toNat * 1000 % 2 ^ 32⟩
      have hns : (⟨0, timeout.toNat * 1000 % 2 ^ 32⟩ : SidTimespec).ns =
          timeout.toNat * 1000 % 2 ^ 32 := by simp [SidTimespec.ns]
      omega
    · have hnsec := h.2
      unfold uint32Size at hnsec
      simp only at hnsec
      omega

/-! ## All timeouts -/

/-- The SX126x is programmed right from 16 microseconds on and below 2^26, the LR11xx from 31 on
and up to 511999969, and a simulated timeout wherever the time does not wrap. -/
theorem timeouts_sound_iff (timeout : UInt32) :
    (∀ (fn : StartFunction) drv,
      (∀ events r, Runs (fn.code drv timeout).run events r → StartSound timeout events r) ↔
        fn.refused drv = true ∨ (16 ≤ timeout.toNat ∧ timeout.toNat < 2 ^ 26)) ∧
    (timeout ≠ lr11xxRxContinuousVal → timeout ≠ 0 →
      (RtcTicksSound timeout ↔ 31 ≤ timeout.toNat ∧ timeout.toNat ≤ 511999969)) ∧
    ∀ drv kind now armed, timeout ≠ 0 →
      (AlarmSound now (startTimeoutSim drv timeout kind now armed).1 timeout ↔
        SidTimespec.Fits ⟨now.tvSec, now.tvNsec + timeout.toNat * 1000⟩) :=
  ⟨fun _ _ => start_iff, rtcTicksSound_iff, fun _ _ _ _ => alarm_iff⟩

/-- The calls of a reception that starts. -/
def startRxEvents (timeout : UInt32) : List (StartCall × StartReply) :=
  [(.stopTmrOnPbl false, .ok ()), (.setTrimCapValToRadio, .ok ()),
    (.setRadioMode true false, .ok ()), (.clearIrqStatusAll, .ok ()),
    (.halWrite (sx126xSetRx (usToSemtecTicks timeout)), .ok ())]

def loraStandby : Sx126x.DrvCtx := ⟨.standby, .lora, .none⟩

theorem runs_startRxEvents (timeout : UInt32) :
    Runs (StartFunction.startRx.code loraStandby timeout).run (startRxEvents timeout)
      (.ok { loraStandby with radioState := .rx }) :=
  ⟨_, _, rfl, _, _, rfl, _, _, rfl, _, _, rfl, _, _, rfl, rfl, rfl⟩

/-- A millisecond, and a simulated timeout that carries into the seconds. -/
theorem timeouts_sound_iff_short :
    StartSound 1000 (startRxEvents 1000) (.ok { loraStandby with radioState := .rx }) ∧
    RtcTicksSound 1000 ∧
    AlarmSound ⟨5, 999999999⟩
      (startTimeoutSim ⟨.scan, .lora, .none, .off, 0⟩ 3000 .rx ⟨5, 999999999⟩ true).1 3000 :=
  ⟨((timeouts_sound_iff 1000).1 .startRx loraStandby).mpr (.inr ⟨by decide, by decide⟩) _ _
      (runs_startRxEvents 1000),
    ((timeouts_sound_iff 1000).2.1 (by decide) (by decide)).mpr ⟨by decide, by decide⟩,
    ((timeouts_sound_iff 3000).2.2 _ .rx _ true (by decide)).mpr (by decide)⟩

/-- A reception of 15 microseconds or of 2^26 is started without a timeout, 30 microseconds are no
ticks of the LR11xx and 511999970 those of a continuous reception, and 4294968 are armed as 704
nanoseconds. -/
theorem timeouts_programmed_wrong :
    (Runs (StartFunction.startRx.code loraStandby 15).run (startRxEvents 15)
        (.ok { loraStandby with radioState := .rx }) ∧
      programmed (startRxEvents 15) = [0]) ∧
    (Runs (StartFunction.startRx.code loraStandby 67108864).run (startRxEvents 67108864)
        (.ok { loraStandby with radioState := .rx }) ∧
      programmed (startRxEvents 67108864) = [0] ∧
      ¬StartSound 67108864 (startRxEvents 67108864)
        (.ok { loraStandby with radioState := .rx })) ∧
    (usToRtcTicks 30 = 0 ∧ usToRtcTicks 511999970 = lr11xxRxContinuousVal ∧
      ¬RtcTicksSound 511999970) ∧
    (startTimeoutSim ⟨.scan, .lora, .none, .off, 0⟩ 4294968 .rx ⟨0, 0⟩ true).1 = ⟨0, 704⟩ ∧
    ¬AlarmSound ⟨0, 0⟩
      (startTimeoutSim ⟨.scan, .lora, .none, .off, 0⟩ 4294968 .rx ⟨0, 0⟩ true).1 4294968 := by
  have hprogrammed : programmed (startRxEvents 67108864) = [0] := by decide
  refine ⟨⟨runs_startRxEvents 15, by decide⟩, ⟨runs_startRxEvents _, hprogrammed, fun h => ?_⟩,
    ⟨by decide, by decide, fun h => ?_⟩, by decide, fun h => ?_⟩
  · have hticks := (h _ rfl).1
    rw [hprogrammed] at hticks
    cases hticks
  · have hrange := (rtcTicksSound_iff (by decide) (by decide)).mp h
    exact absurd hrange.2 (by decide)
  · exact absurd ((alarm_iff (by decide)).mp h) (by decide)

end Sidewalk.Radio.Timeouts
