import Sidewalk.Lib.Script
import Sidewalk.Lib.System
import Sidewalk.Radio.Interface

/-!
# The calibration of the image

`sid_pal_radio_set_frequency` and `sid_pal_radio_init` of both drivers. A driver remembers the last
frequency that it set, and has the chip calibrate its image only where the next one is in another
band. What the chip was calibrated for is the chip's own: a call that fails behind the calibration
changes it and not what is remembered, and so does an initialisation, which resets the chip and,
with a TCXO, calibrates all its blocks.
-/

namespace Sidewalk.Radio.Calibration

open Lib
open Lib.Program (Runs)
open Lib.Attempt (check call Follows follows_pure follows_throw follows_check runs_call runs_check)

/-! ## The chip -/

/-- An interval of frequencies, in steps. -/
abbrev Image := UInt8 × UInt8

/-- The calls of `sid_pal_radio_init` that leave the image as it is. -/
inductive SetupCall
  | platformInit
  | setRadioMode
  /-- The version of the firmware is read and is one that the driver takes. -/
  | getVersion
  | getAndClearIrqStatus
  /-- `sx126x_set_dio3_as_tcxo_ctrl` and `lr11xx_system_set_tcxo_mode`. -/
  | setTcxoMode
  | setRxTxFallbackMode
  | cfgLfclk
  | setIrq
  | setStandby
  | setDio2AsRfSwCtrl
  | setRegMode
  | setDioAsRfSwitch
  /-- `sid_pal_radio_standby`. -/
  | standby
  | setBufferBaseAddr
  | cfgRxBoosted
  | dio3CfgCallback
  | getMaxTxPower
  | setTxPower
  | enableIrq
  | driveDioInSleepMode
  | timerInit

inductive FreqCall
  /-- `sx126x_cal_img` and `lr11xx_system_calibrate_image`. -/
  | calibrateImage (image : Image)
  /-- The register of the band edge. -/
  | writeRegister (value : UInt32)
  | setRfFreq (freq : UInt32)
  /-- `BOARD_HAL_IO_EXPANDER_SUBG_BAND_PIN`. -/
  | gpioWrite (level : Bool)
  | reset
  /-- `sx126x_cal` and `lr11xx_system_calibrate` with all blocks, the image among them. -/
  | calibrateAll
  | setup (c : SetupCall)

/-- What succeeds is done. What fails may have been done. -/
inductive FreqReply
  | ok
  | failed (done : Bool)

def FreqReply.succeeds : FreqReply → Bool
  | .ok => true
  | .failed _ => false

def FreqReply.done : FreqReply → Bool
  | .ok => true
  | .failed done => done

/-- What is done to the image. -/
inductive Touch
  | calibrate (image : Image)
  | reset
  | all

/-- What a chip calibrates its image for by itself: at a reset, and with all blocks. -/
structure ChipKind where
  resetImage : Option Image
  fullImage : Option Image → Option Image

def Touch.apply (kind : ChipKind) (image : Option Image) : Touch → Option Image
  | calibrate image => some image
  | reset => kind.resetImage
  | all => kind.fullImage image

structure Chip where
  /-- What the image is calibrated for. -/
  image : Option Image
  freq : Option UInt32

def FreqCall.effect (kind : ChipKind) : FreqCall → Chip → Chip
  | .calibrateImage image, chip => { chip with image := some image }
  | .setRfFreq freq, chip => { chip with freq := some freq }
  | .reset, _ => ⟨kind.resetImage, none⟩
  | .calibrateAll, chip => { chip with image := kind.fullImage chip.image }
  | _, chip => chip

def Chip.tell (kind : ChipKind) (chip : Chip) (e : FreqCall × FreqReply) : Chip :=
  if e.2.done then e.1.effect kind chip else chip

/-- The chip behind some calls. -/
def Chip.after (kind : ChipKind) (chip : Chip) (events : List (FreqCall × FreqReply)) : Chip :=
  events.foldl (Chip.tell kind) chip

/-- What a call does to the image. -/
def FreqCall.touches : FreqCall → List Touch
  | .calibrateImage image => [.calibrate image]
  | .reset => [.reset]
  | .calibrateAll => [.all]
  | _ => []

/-- What was done to the image. -/
def touched (e : FreqCall × FreqReply) : Option Touch :=
  if e.2.done then e.1.touches.head? else none

theorem image_tell (kind : ChipKind) (chip : Chip) (e : FreqCall × FreqReply) :
    (chip.tell kind e).image = ((touched e).map (Touch.apply kind chip.image)).getD chip.image := by
  obtain ⟨c, reply⟩ := e
  cases hdone : reply.done <;> cases c <;>
    simp [Chip.tell, FreqCall.effect, touched, FreqCall.touches, Touch.apply, hdone]

/-- The image is what the calls that were done make of it. -/
theorem image_after (kind : ChipKind) (chip : Chip) (events : List (FreqCall × FreqReply)) :
    (chip.after kind events).image =
      (events.filterMap touched).foldl (Touch.apply kind) chip.image := by
  induction events generalizing chip with
  | nil => rfl
  | cons e events ih =>
    change ((chip.tell kind e).after kind events).image = _
    rw [ih, image_tell, List.filterMap_cons]
    cases touched e with
    | none => rfl
    | some t => rfl

/-! ## The drivers -/

/-- What a driver reads of its context. -/
structure DrvCtx where
  radioState : RadioState
  modem : ModemMode
  radioFreqHz : UInt32

/-- The options of the build. -/
structure Config where
  /-- `RADIO_SX1262_TXPWR_WORKAROUND` and `RADIO_LR11XX_TXPWR_WORKAROUND`. -/
  txPwrWorkaround : Bool
  /-- `BOARD_HAL_IO_EXPANDER_SUBG_BAND_PIN` is defined. -/
  bandPin : Bool

/-- A call that stops without a failure returns `RADIO_ERROR_NONE`. -/
abbrev Tuning := Attempt FreqCall FreqReply (Option RadioFailure)

/-- A call that must succeed. -/
def demand {ε : Type} (c : FreqCall) (err : ε) : Attempt FreqCall FreqReply ε Unit := do
  let reply ← call c
  check reply.succeeds err

/-- The same under a condition. -/
def demandIf (cond : Prop) [Decidable cond] (c : FreqCall) (err : Option RadioFailure) :
    Tuning Unit := if cond then demand c err else pure ()

/-- Calls of which each must succeed for the next one. -/
def demandAll : List FreqCall → Attempt FreqCall FreqReply Unit Unit
  | [] => pure ()
  | c :: calls => demand c () >>= fun _ => demandAll calls

/-- What `sid_pal_radio_init` reads of the configuration and of the chip. -/
structure InitConfig where
  /-- The configuration has a TCXO. -/
  tcxo : Bool
  /-- `dio3_cfg_callback` is not `NULL`. -/
  dio3CfgCallback : Bool
  /-- `rfswitch.enable`. -/
  rfSwitch : Bool
  /-- An interrupt is pending behind the reset. -/
  interruptPending : Bool

namespace Sx126x

/-- `sx126x_freq_cal_band`. -/
inductive FreqCalBand
  | band900M
  | band850M
  | band770M
  | band460M
  | band430M
  | invalid
  deriving DecidableEq

/-- `sx126x_get_freq_band`. -/
def getFreqBand (freqHz : UInt32) : FreqCalBand :=
  if freqHz > 900000000 then .band900M
  else if freqHz > 850000000 then .band850M
  else if freqHz > 770000000 then .band770M
  else if freqHz > 460000000 then .band460M
  else if freqHz > 430000000 then .band430M
  else .invalid

/-- The interval that `sx126x_cal_img` sends. -/
def calImg (freqInHz : UInt32) : Image :=
  if freqInHz > 900000000 then (0xE1, 0xE9)
  else if freqInHz > 850000000 then (0xD7, 0xDB)
  else if freqInHz > 770000000 then (0xC1, 0xC5)
  else if freqInHz > 460000000 then (0x75, 0x81)
  else (0x6B, 0x6F)

def bandEdgeLimitFreq : UInt32 := 903000000

/-- `sid_pal_radio_set_frequency` of the SX126x, up to the assignment. -/
def setFrequency (config : Config) (drv : DrvCtx) (freq : UInt32) : Tuning Unit := do
  check (drv.radioState = .standby) (some .invalidState)
  let curFreqBand := getFreqBand drv.radioFreqHz
  let freqBand := getFreqBand freq
  demandIf (curFreqBand ≠ freqBand) (.calibrateImage (calImg freq)) (some .hardwareError)
  -- the error code is not set where this write fails
  demandIf (config.txPwrWorkaround ∧ freqBand = .band900M)
    (.writeRegister (if freq ≤ bandEdgeLimitFreq then 0x1F else 0x18)) none
  demand (.setRfFreq freq) (some .hardwareError)
  demandIf (config.bandPin ∧ curFreqBand ≠ freqBand ∧ freqBand = .band900M) (.gpioWrite false)
    (some .hardwareError)
  demandIf (config.bandPin ∧ curFreqBand ≠ freqBand ∧ freqBand = .band850M) (.gpioWrite true)
    (some .hardwareError)

/-- The calls of `sid_pal_radio_init` that it looks at the results of, in their order. -/
def initCalls (config : InitConfig) : List FreqCall :=
  [.setup .platformInit, .setup .setRadioMode, .reset, .setup .setIrq, .setup .standby,
    .setup .setDio2AsRfSwCtrl, .setup .setRegMode, .setup .setBufferBaseAddr,
    .setup .cfgRxBoosted] ++
  (if config.tcxo then [.setup .setTcxoMode, .calibrateAll] else []) ++
  (if config.dio3CfgCallback then [.setup .dio3CfgCallback] else []) ++
  [.setup .getMaxTxPower, .setup .setTxPower, .setup .enableIrq]

end Sx126x

namespace Lr11xx

/-- `freq_band_t`. -/
structure FreqBand where
  start : UInt32
  stop : UInt32
  deriving DecidableEq

def bands : List FreqBand :=
  [⟨430000000, 440000000⟩, ⟨470000000, 510000000⟩, ⟨779000000, 787000000⟩,
    ⟨863000000, 879000000⟩, ⟨902000000, 928000000⟩, ⟨2400000000, 2480000000⟩]

/-- `lr11xx_get_freq_band`. -/
def getFreqBand (freq : UInt32) : Option FreqBand :=
  bands.find? fun band => freq ≥ band.start && freq ≤ band.stop

def freqStep : UInt32 := 4000000

/-- The interval that the driver sends for a band. -/
def FreqBand.image (band : FreqBand) : Image :=
  ((band.start / freqStep).toUInt8, (band.stop / freqStep).toUInt8)

def bandEdgeBandStartFreq : UInt32 := 902000000
def bandEdgeLimitFreq : UInt32 := 903000000

/-- `sid_pal_radio_set_frequency` of the LR11xx, up to the assignment. -/
def setFrequency (config : Config) (drv : DrvCtx) (freq : UInt32) : Tuning Unit := do
  check (drv.radioState ≠ .scan) none
  check (drv.radioState = .standby) (some .invalidState)
  match getFreqBand freq with
  | none => throw (some .invalidParams)
  | some freqBand => do
    demandIf (getFreqBand drv.radioFreqHz ≠ some freqBand) (.calibrateImage freqBand.image)
      (some .hardwareError)
    demandIf (config.txPwrWorkaround ∧ freqBand.start = bandEdgeBandStartFreq ∧ drv.modem = .lora)
      (.writeRegister (if freq ≤ bandEdgeLimitFreq then 0x00050000 else 0x00040000))
      (some .hardwareError)
    demand (.setRfFreq freq) (some .hardwareError)

/-- The calls of `sid_pal_radio_init` that it looks at the results of, in their order. -/
def initCalls (config : InitConfig) : List FreqCall :=
  [.setup .platformInit, .setup .setRadioMode, .reset, .setup .getVersion] ++
  (if config.interruptPending then [.setup .getAndClearIrqStatus] else []) ++
  (if config.tcxo then [.setup .setTcxoMode, .calibrateAll, .setup .setRxTxFallbackMode]
    else []) ++
  [.setup .cfgLfclk, .setup .setIrq, .setup .setStandby, .setup .setRegMode] ++
  (if config.rfSwitch then [.setup .setDioAsRfSwitch] else []) ++
  [.setup .standby, .setup .cfgRxBoosted, .setup .getMaxTxPower, .setup .setTxPower,
    .setup .getAndClearIrqStatus, .setup .enableIrq, .setup .driveDioInSleepMode,
    .setup .timerInit]

end Lr11xx

inductive Driver
  | sx126x
  | lr11xx

namespace Driver

def setFrequency : Driver → Config → DrvCtx → UInt32 → Tuning Unit
  | sx126x => Sx126x.setFrequency
  | lr11xx => Lr11xx.setFrequency

def initCalls : Driver → InitConfig → List FreqCall
  | sx126x => Sx126x.initCalls
  | lr11xx => Lr11xx.initCalls

/-- `sid_pal_radio_init`, with or without its arguments. -/
def init (d : Driver) (config : InitConfig) (args : Bool) :
    Attempt FreqCall FreqReply Unit Unit := do
  check args ()
  demandAll (d.initCalls config)

/-- What the image is calibrated for in the band of a frequency, if it is in one. -/
def image : Driver → UInt32 → Option Image
  | sx126x, freq => if Sx126x.getFreqBand freq = .invalid then none else some (Sx126x.calImg freq)
  | lr11xx, freq => (Lr11xx.getFreqBand freq).map Lr11xx.FreqBand.image

end Driver

/-! ## One call -/

variable {d : Driver} {config : Config} {drv : DrvCtx} {freq : UInt32}
  {events : List (FreqCall × FreqReply)} {result : Except (Option RadioFailure) Unit}

theorem runs_demand {ε : Type} {c : FreqCall} {err : ε} {result : Except ε Unit} :
    Runs (demand c err).run events result ↔
      ∃ reply, events = [(c, reply)] ∧ result = if reply.succeeds then .ok () else .error err := by
  rw [demand, Attempt.runs_bind]
  constructor
  · rintro (⟨e, hrun, -⟩ | ⟨events₁, reply, events₂, hrun, hcheck, rfl⟩)
    · obtain ⟨_, -, he⟩ := runs_call.mp hrun
      cases he
    · obtain ⟨reply', rfl, heq⟩ := runs_call.mp hrun
      cases heq
      obtain ⟨rfl, rfl⟩ := runs_check.mp hcheck
      exact ⟨reply, rfl, rfl⟩
  · rintro ⟨reply, rfl, rfl⟩
    exact .inr ⟨[(c, reply)], reply, [], runs_call.mpr ⟨reply, rfl, rfl⟩,
      runs_check.mpr ⟨rfl, rfl⟩, rfl⟩

theorem follows_demand {ε : Type} (c : FreqCall) (err : ε) :
    Follows touched c.touches (fun _ _ => True) (demand c err) where
  begins := by
    intro events r hrun
    obtain ⟨reply, rfl, -⟩ := runs_demand.mp hrun
    cases hdone : reply.done <;> cases c <;> simp [touched, FreqCall.touches, hdone]
  ends := by
    intro events a hrun
    obtain ⟨reply, rfl, hok⟩ := runs_demand.mp hrun
    cases reply with
    | ok => cases c <;> exact ⟨rfl, trivial⟩
    | failed done => cases hok

theorem follows_demandIf (cond : Prop) [Decidable cond] (c : FreqCall)
    (err : Option RadioFailure) :
    Follows touched (if cond then c.touches else []) (fun _ _ => True)
      (demandIf cond c err) := by
  unfold demandIf
  split
  · exact follows_demand c err
  · exact follows_pure trivial

theorem follows_setRfFreq (freq : UInt32) (err : Option RadioFailure) :
    Follows touched [] (fun _ _ => True) (demand (.setRfFreq freq) err) :=
  follows_demand (.setRfFreq freq) err

/-- A condition, and a call under it that does not calibrate. -/
theorem follows_unless (cond : Prop) [Decidable cond] {c : FreqCall} (err : Option RadioFailure)
    (hc : c.touches = []) :
    Follows touched [] (fun _ _ => True) (demandIf cond c err) := by
  have h := follows_demandIf cond c err
  rwa [hc, ite_self] at h

section

variable {ε : Type} {C : Prop} {script : List Touch} {p : Attempt FreqCall FreqReply ε Unit}
  {f : Unit → Attempt FreqCall FreqReply ε Unit}

theorem silent_then (hp : Follows touched [] (fun _ _ => True) p)
    (hf : Follows touched script (fun _ _ => C) (f ())) :
    Follows touched script (fun _ _ => C) (p >>= f) := hp.then fun _ _ _ => hf

theorem then_silent (hp : Follows touched script (fun _ _ => True) p)
    (hf : Follows touched [] (fun _ _ => C) (f ())) :
    Follows touched script (fun _ _ => C) (p >>= f) := by
  have h : Follows touched (script ++ []) (fun _ _ => C) (p >>= f) := hp.then fun _ _ _ => hf
  rwa [List.append_nil] at h

end

theorem follows_demandAll (calls : List FreqCall) :
    Follows touched (calls.flatMap FreqCall.touches) (fun _ _ => True) (demandAll calls) := by
  induction calls with
  | nil => exact follows_pure trivial
  | cons c calls ih => exact (follows_demand c ()).then fun _ _ _ => ih

/-- An initialisation resets the chip before it calibrates all blocks, which it does with a TCXO. -/
theorem follows_init (d : Driver) (config : InitConfig) (args : Bool) :
    Follows touched (.reset :: if config.tcxo then [.all] else []) (fun _ _ => True)
      (d.init config args) := by
  have hscript : (d.initCalls config).flatMap FreqCall.touches =
      .reset :: if config.tcxo then [.all] else [] := by
    obtain ⟨tcxo, callback, rfSwitch, pending⟩ := config
    cases d <;> cases tcxo <;> cases callback <;> cases rfSwitch <;> cases pending <;> rfl
  rw [← hscript]
  exact silent_then (follows_check fun _ => trivial) (follows_demandAll _)

/-- What a call should have the chip calibrate. -/
def Driver.script (d : Driver) (radioFreqHz freq : UInt32) : List Touch :=
  if d.image radioFreqHz = d.image freq then [] else ((d.image freq).map Touch.calibrate).toList

/-- Nothing is calibrated in the same band, and the band of the frequency in another. -/
theorem Driver.script_cases (d : Driver) (radioFreqHz freq : UInt32) :
    (d.script radioFreqHz freq = [] ∧ (d.image freq ≠ none → d.image radioFreqHz = d.image freq)) ∨
      ∃ image, d.script radioFreqHz freq = [.calibrate image] ∧ d.image freq = some image ∧
        d.image radioFreqHz ≠ some image := by
  unfold script
  split
  · next hsame => exact .inl ⟨rfl, fun _ => hsame⟩
  · next hother =>
    cases himage : d.image freq with
    | none => exact .inl ⟨rfl, fun h => absurd rfl h⟩
    | some image => exact .inr ⟨image, rfl, rfl, himage ▸ hother⟩

namespace Sx126x

/-- The interval by the band. -/
def FreqCalBand.image : FreqCalBand → Image
  | .band900M => (0xE1, 0xE9)
  | .band850M => (0xD7, 0xDB)
  | .band770M => (0xC1, 0xC5)
  | .band460M => (0x75, 0x81)
  | _ => (0x6B, 0x6F)

theorem calImg_eq (freq : UInt32) : calImg freq = (getFreqBand freq).image := by
  unfold calImg getFreqBand
  split_ifs <;> rfl

/-- Two bands have two intervals, but for the frequencies that are in none. -/
theorem script_eq (radioFreqHz : UInt32) (h : Driver.sx126x.image freq ≠ none) :
    Driver.sx126x.script radioFreqHz freq =
      if getFreqBand radioFreqHz ≠ getFreqBand freq then
        (FreqCall.calibrateImage (calImg freq)).touches
      else [] := by
  simp only [Driver.script, Driver.image, FreqCall.touches, calImg_eq] at h ⊢
  cases getFreqBand radioFreqHz <;> cases hband : getFreqBand freq <;> first
    | rfl
    | exact absurd (by rw [hband, if_pos rfl]) h

end Sx126x

namespace Lr11xx

theorem image_injective : ∀ band ∈ bands, ∀ band' ∈ bands, band.image = band'.image →
    band = band' := by decide

theorem script_eq (radioFreqHz : UInt32) {band : FreqBand} (h : getFreqBand freq = some band) :
    Driver.lr11xx.script radioFreqHz freq =
      if getFreqBand radioFreqHz ≠ some band then (FreqCall.calibrateImage band.image).touches
      else [] := by
  simp only [Driver.script, Driver.image, FreqCall.touches, h, Option.map_some,
    Option.toList_some]
  cases hold : getFreqBand radioFreqHz with
  | none => rfl
  | some old =>
    have hiff : some old.image = some band.image ↔ some old = some band := by
      rw [Option.some_inj, Option.some_inj]
      exact ⟨image_injective old (List.mem_of_find?_eq_some hold) band
        (List.mem_of_find?_eq_some h), congrArg FreqBand.image⟩
    simp only [Option.map_some, hiff, ne_eq, ite_not]

end Lr11xx

/-- A call has the chip calibrate where the band is another one. The frequency has a band where it
succeeds. -/
theorem follows_setFrequency (hfreq : d = .sx126x → d.image freq ≠ none) :
    Follows touched (d.script drv.radioFreqHz freq) (fun _ _ => d.image freq ≠ none)
      (d.setFrequency config drv freq) := by
  cases d with
  | sx126x =>
    have hband := hfreq rfl
    rw [Sx126x.script_eq _ hband]
    apply silent_then (follows_check fun _ => trivial)
    apply then_silent (follows_demandIf _ _ _)
    apply silent_then (follows_unless _ _ rfl)
    apply silent_then (follows_setRfFreq _ _)
    apply silent_then (follows_unless _ _ rfl)
    exact (follows_unless _ _ rfl).mono fun _ _ _ => hband
  | lr11xx =>
    apply silent_then (follows_check fun _ => trivial)
    apply silent_then (follows_check fun _ => trivial)
    split
    · exact follows_throw
    · next band hband =>
      rw [Lr11xx.script_eq _ hband]
      apply then_silent (follows_demandIf _ _ _)
      apply silent_then (follows_unless _ _ rfl)
      exact (follows_setRfFreq _ _).mono fun _ _ _ => by simp [Driver.image, hband]

/-! ## What is returned -/

/-- The last call is a failing write of the register. -/
def WriteFails (events : List (FreqCall × FreqReply)) : Prop :=
  ∃ value done, events.getLast? = some (.writeRegister value, .failed done)

/-- The runs that stop without an error code are those that a failing write ends. -/
def StopsQuietly (p : Tuning Unit) : Prop :=
  ∀ events result, Runs p.run events result → (result = .error none ↔ WriteFails events)

theorem not_writeFails_nil : ¬WriteFails [] := by
  rintro ⟨_, _, h⟩
  cases h

theorem stopsQuietly_check {b : Bool} {err : RadioFailure} :
    StopsQuietly (check b (some err)) := by
  intro events result hrun
  obtain ⟨rfl, rfl⟩ := runs_check.mp hrun
  exact iff_of_false (by cases b <;> nofun) not_writeFails_nil

/-- The write is the one call without an error code. -/
theorem stopsQuietly_demand {c : FreqCall} {err : Option RadioFailure}
    (hc : err = none ↔ ∃ value, c = .writeRegister value) : StopsQuietly (demand c err) := by
  intro events result hrun
  obtain ⟨reply, rfl, rfl⟩ := runs_demand.mp hrun
  cases reply with
  | ok =>
    refine iff_of_false nofun ?_
    rintro ⟨_, _, h⟩
    cases h
  | failed done =>
    have hresult : (if FreqReply.succeeds (.failed done) then Except.ok ()
        else Except.error err) = Except.error none ↔ err = none := by
      simp [FreqReply.succeeds]
    rw [hresult, hc]
    constructor
    · rintro ⟨value, rfl⟩
      exact ⟨value, done, rfl⟩
    · rintro ⟨value, _, h⟩
      cases h
      exact ⟨value, rfl⟩

theorem stopsQuietly_demandIf (cond : Prop) [Decidable cond] {c : FreqCall}
    {err : Option RadioFailure} (hc : err = none ↔ ∃ value, c = .writeRegister value) :
    StopsQuietly (demandIf cond c err) := by
  unfold demandIf
  split
  · exact stopsQuietly_demand hc
  · rintro events result ⟨rfl, rfl⟩
    exact iff_of_false nofun not_writeFails_nil

theorem StopsQuietly.then {p : Tuning Unit} {f : Unit → Tuning Unit} (hp : StopsQuietly p)
    (hf : StopsQuietly (f ())) : StopsQuietly (p >>= f) := by
  intro events result hrun
  obtain ⟨err, hstop, rfl⟩ | ⟨events₁, a, events₂, hfirst, hnext, rfl⟩ :=
    Attempt.runs_bind.mp hrun
  · have hiff := hp _ _ hstop
    rwa [Except.error.injEq] at hiff ⊢
  · rw [hf _ _ hnext]
    cases events₂ with
    | nil =>
      rw [List.append_nil]
      exact iff_of_false not_writeFails_nil fun h => nomatch (hp _ _ hfirst).mpr h
    | cons e events₂ =>
      have hlast : (events₁ ++ e :: events₂).getLast? = (e :: events₂).getLast? :=
        List.getLast?_append_of_ne_nil _ (List.cons_ne_nil e events₂)
      rw [WriteFails, WriteFails, hlast]

/-- The SX126x driver returns `RADIO_ERROR_NONE` and has not set the frequency where the write of
the register fails, and nowhere else. -/
theorem sx126x_silent_iff (h : Runs (Sx126x.setFrequency config drv freq).run events result) :
    result = .error none ↔ WriteFails events := by
  have hregister {value : UInt32} :
      (none : Option RadioFailure) = none ↔ ∃ v, FreqCall.writeRegister value = .writeRegister v :=
    iff_of_true rfl ⟨value, rfl⟩
  have hother {c : FreqCall} {err : RadioFailure} (hc : ∀ value, c ≠ .writeRegister value) :
      some err = none ↔ ∃ value, c = .writeRegister value :=
    iff_of_false nofun fun ⟨value, heq⟩ => hc value heq
  revert h
  apply StopsQuietly.then stopsQuietly_check
  refine StopsQuietly.then (stopsQuietly_demandIf _ (hother (by simp))) ?_
  refine StopsQuietly.then (stopsQuietly_demandIf _ hregister) ?_
  refine StopsQuietly.then (stopsQuietly_demand (hother (by simp))) ?_
  refine StopsQuietly.then (stopsQuietly_demandIf _ (hother (by simp))) ?_
  exact stopsQuietly_demandIf _ (hother (by simp))

/-- All succeeds but the write of the register. -/
def unwritten : FreqCall → FreqReply
  | .writeRegister _ => .failed false
  | _ => .ok

/-- The SX126x is tuned to 910 MHz without the write. -/
def quietCall : List (FreqCall × FreqReply) × Except (Option RadioFailure) Unit :=
  Program.trace unwritten (Sx126x.setFrequency ⟨true, false⟩ ⟨.standby, .fsk, 0⟩ 910000000).run

theorem sx126x_silent_iff_quietCall : quietCall.2 = .error none ↔ WriteFails quietCall.1 :=
  sx126x_silent_iff (Program.runs_trace _ _)

/-! ## Runs -/

/-- What the image is calibrated for is the band of the frequency. -/
def Driver.Matches (d : Driver) (image : Option Image) (freq : UInt32) : Prop :=
  image ≠ none ∧ image = d.image freq

/-- A call of `sid_pal_radio_set_frequency` with what it told to the chip, or one of
`sid_pal_radio_init` with the frequency that the driver remembered meanwhile. -/
inductive Entry
  | setFrequency (events : List (FreqCall × FreqReply))
      (result : Except (Option RadioFailure) Unit)
  | init (events : List (FreqCall × FreqReply)) (radioFreqHz : UInt32)

/-- What an initialisation leaves of the image: what the chip itself calibrates it for. -/
def leftImage (kind : ChipKind) (events : List (FreqCall × FreqReply)) : Option Image :=
  (events.filterMap touched).foldl (Touch.apply kind) none

/-- The call calibrates and succeeds, or is an initialisation behind which the chip itself has
calibrated for the band that the driver remembers. -/
inductive Entry.Settles (d : Driver) (kind : ChipKind) : Entry → Prop
  | setFrequency {events : List (FreqCall × FreqReply)} :
      events.filterMap touched ≠ [] → Settles d kind (.setFrequency events (.ok ()))
  | init {events : List (FreqCall × FreqReply)} {radioFreqHz : UInt32} :
      events.filterMap touched ≠ [] → d.Matches (leftImage kind events) radioFreqHz →
      Settles d kind (.init events radioFreqHz)

/-- The call calibrates and does not succeed, or is an initialisation behind which the chip itself
has calibrated for another band. -/
inductive Entry.Unsettles (d : Driver) (kind : ChipKind) : Entry → Prop
  | setFrequency {events : List (FreqCall × FreqReply)} {err : Option RadioFailure} :
      events.filterMap touched ≠ [] → Unsettles d kind (.setFrequency events (.error err))
  | init {events : List (FreqCall × FreqReply)} {radioFreqHz : UInt32} :
      events.filterMap touched ≠ [] → ¬d.Matches (leftImage kind events) radioFreqHz →
      Unsettles d kind (.init events radioFreqHz)

variable {kind : ChipKind}

@[simp] theorem settles_setFrequency :
    (Entry.setFrequency events result).Settles d kind ↔
      result = .ok () ∧ events.filterMap touched ≠ [] :=
  ⟨fun | .setFrequency h => ⟨rfl, h⟩, fun ⟨hok, h⟩ => hok ▸ .setFrequency h⟩

@[simp] theorem unsettles_setFrequency :
    (Entry.setFrequency events result).Unsettles d kind ↔
      result ≠ .ok () ∧ events.filterMap touched ≠ [] := by
  constructor
  · rintro ⟨h⟩
    exact ⟨nofun, h⟩
  · rintro ⟨herror, h⟩
    cases result with
    | ok _ => exact absurd rfl herror
    | error err => exact .setFrequency h

@[simp] theorem settles_init :
    (Entry.init events freq).Settles d kind ↔
      events.filterMap touched ≠ [] ∧ d.Matches (leftImage kind events) freq :=
  ⟨fun | .init htouched hmatches => ⟨htouched, hmatches⟩, fun ⟨htouched, hmatches⟩ =>
    .init htouched hmatches⟩

@[simp] theorem unsettles_init :
    (Entry.init events freq).Unsettles d kind ↔
      events.filterMap touched ≠ [] ∧ ¬d.Matches (leftImage kind events) freq :=
  ⟨fun | .init htouched hmatches => ⟨htouched, hmatches⟩, fun ⟨htouched, hmatches⟩ =>
    .init htouched hmatches⟩

/-- The driver, the chip, and the calls with the last one first. -/
structure Tuner where
  drv : DrvCtx
  chip : Chip
  history : List Entry

namespace Tuner

/-- The assignment at the end of `sid_pal_radio_set_frequency`. -/
def remembered (s : Tuner) (freq : UInt32) : Except (Option RadioFailure) Unit → DrvCtx
  | .ok () => { s.drv with radioFreqHz := freq }
  | .error _ => s.drv

def setFrequency (kind : ChipKind) (s : Tuner) (freq : UInt32)
    (events : List (FreqCall × FreqReply)) (result : Except (Option RadioFailure) Unit) : Tuner :=
  ⟨s.remembered freq result, s.chip.after kind events, .setFrequency events result :: s.history⟩

/-- `sid_pal_radio_init`: the frequency is remembered over the reset. -/
def init (kind : ChipKind) (s : Tuner) (events : List (FreqCall × FreqReply))
    (radioState : RadioState) (modem : ModemMode) : Tuner :=
  ⟨⟨radioState, modem, s.drv.radioFreqHz⟩, s.chip.after kind events,
    .init events s.drv.radioFreqHz :: s.history⟩

/-- The other calls of the driver. -/
def other (s : Tuner) (radioState : RadioState) (modem : ModemMode) : Tuner :=
  { s with drv := ⟨radioState, modem, s.drv.radioFreqHz⟩ }

/-- The image is calibrated for the band of the frequency that is remembered. -/
def Calibrated (d : Driver) (s : Tuner) : Prop := d.Matches s.chip.image s.drv.radioFreqHz

end Tuner

inductive TunerAct
  | setFrequency (freq : UInt32)
  | init
  | other

inductive TunerStep (d : Driver) (kind : ChipKind) (config : Config) :
    Tuner → TunerAct → Tuner → Prop
  | setFrequency {s : Tuner} {freq : UInt32} {events : List (FreqCall × FreqReply)}
      {result : Except (Option RadioFailure) Unit} :
      Runs (d.setFrequency config s.drv freq).run events result →
      TunerStep d kind config s (.setFrequency freq) (s.setFrequency kind freq events result)
  | init {s : Tuner} {initConfig : InitConfig} {args : Bool}
      {events : List (FreqCall × FreqReply)} {result : Except Unit Unit} {radioState : RadioState}
      {modem : ModemMode} :
      Runs (d.init initConfig args).run events result →
      TunerStep d kind config s .init (s.init kind events radioState modem)
  | other {s : Tuner} {radioState : RadioState} {modem : ModemMode} :
      TunerStep d kind config s .other (s.other radioState modem)

/-- The calls of the driver in any order, from the start of the program. -/
def tuner (d : Driver) (kind : ChipKind) (config : Config) : System Tuner TunerAct where
  init s := s.drv.radioFreqHz = 0 ∧ s.history = []
  step := TunerStep d kind config

/-- The SX126x driver is called for frequencies above 430 MHz, which are in a band. -/
def Driver.Called (d : Driver) (_ : Tuner) : TunerAct → Prop
  | .setFrequency freq => d = .sx126x → d.image freq ≠ none
  | _ => True

/-- What every run keeps. -/
def Tuner.Known (d : Driver) (kind : ChipKind) (s : Tuner) : Prop :=
  s.Calibrated d ↔ Since (Entry.Settles d kind) (Entry.Unsettles d kind) s.history

namespace Tuner.Known

variable {s : Tuner}

/-- An initialisation changes the image, and not what is remembered. -/
theorem init (h : s.Known d kind) {initConfig : InitConfig} {args : Bool}
    {result : Except Unit Unit} (hrun : Runs (d.init initConfig args).run events result)
    {radioState : RadioState} {modem : ModemMode} :
    (s.init kind events radioState modem).Known d kind := by
  have hafter : (s.init kind events radioState modem).history =
      .init events s.drv.radioFreqHz :: s.history := rfl
  have himage : (s.init kind events radioState modem).chip.image =
      (events.filterMap touched).foldl (Touch.apply kind) s.chip.image := image_after _ _ _
  rw [Known, hafter, since_cons, ← (show _ ↔ _ from h), settles_init, unsettles_init, Calibrated,
    himage, leftImage]
  obtain hnone | ⟨touches, htouches, -⟩ :=
    List.prefix_cons_iff.mp ((follows_init d initConfig args).begins hrun)
  · rw [hnone]
    simp [Calibrated, Tuner.init]
  · -- Behind a reset nothing is left of what was calibrated before.
    rw [htouches]
    simp only [List.foldl_cons, Touch.apply, Tuner.init, ne_eq, reduceCtorEq, not_false_eq_true,
      true_and]
    tauto

/-- A call that calibrates is in step where it succeeds, and out of step where it fails. -/
theorem setFrequency (h : s.Known d kind) (hfreq : d = .sx126x → d.image freq ≠ none)
    (hrun : Runs (d.setFrequency config s.drv freq).run events result) :
    (s.setFrequency kind freq events result).Known d kind := by
  have hfollows : Follows touched (d.script s.drv.radioFreqHz freq)
      (fun _ _ => d.image freq ≠ none) (d.setFrequency config s.drv freq) :=
    follows_setFrequency hfreq
  have himage : (s.setFrequency kind freq events result).chip.image =
      (events.filterMap touched).foldl (Touch.apply kind) s.chip.image := image_after _ _ _
  have hafter : (s.setFrequency kind freq events result).history =
      .setFrequency events result :: s.history := rfl
  rw [Known, hafter, since_cons, ← (show _ ↔ _ from h), settles_setFrequency,
    unsettles_setFrequency, Calibrated, himage]
  cases result with
  | ok _ =>
    obtain ⟨hscript, hband⟩ := hfollows.ends hrun
    obtain ⟨hnone, hsame⟩ | ⟨image, hsome, hfor, -⟩ := d.script_cases s.drv.radioFreqHz freq
    · -- The band is the same one.
      rw [hscript, hnone, Calibrated, Driver.Matches, Driver.Matches, hsame hband]
      simp [Tuner.setFrequency, remembered]
    · rw [hscript, hsome]
      simp [Tuner.setFrequency, remembered, hfor, Driver.Matches, Touch.apply]
  | error err =>
    have hbegins := hfollows.begins hrun
    obtain ⟨hnone, -⟩ | ⟨image, hsome, -, hother⟩ := d.script_cases s.drv.radioFreqHz freq
    · rw [hnone, List.prefix_nil] at hbegins
      rw [hbegins]
      simp [Calibrated, Tuner.setFrequency, remembered]
    · rw [hsome] at hbegins
      obtain hnot | ⟨rest, hdone, hrest⟩ := List.prefix_cons_iff.mp hbegins
      · rw [hnot]
        simp [Calibrated, Tuner.setFrequency, remembered]
      · -- What is remembered is not what was calibrated.
        rw [hdone, List.prefix_nil.mp hrest]
        simp [Tuner.setFrequency, remembered, hother.symm, Driver.Matches, Touch.apply]

end Tuner.Known

/-- In every run, the image is calibrated for the band of the frequency that the driver remembers if
and only if the last call that changed the calibration settled it. -/
theorem calibrated_iff {s : Tuner} (h : (tuner d kind config).Reached d.Called s) :
    s.Calibrated d ↔ Since (Entry.Settles d kind) (Entry.Unsettles d kind) s.history := by
  refine System.Reached.invariant (I := Tuner.Known d kind) ?_ ?_ h
  · rintro s ⟨hfreq, hhistory⟩
    have hnone : d.image 0 = none := by cases d <;> rfl
    rw [Tuner.Known, Tuner.Calibrated, Driver.Matches, hfreq, hhistory, hnone]
    exact iff_of_false (fun hcal => hcal.1 hcal.2) not_since_nil
  · rintro s act s' hknown hcalled hstep
    cases hstep with
    | setFrequency hrun => exact hknown.setFrequency hcalled hrun
    | init hrun => exact hknown.init hrun
    | other => exact hknown

/-- A chip that calibrates for 902 to 928 MHz by itself. -/
def chip900 : ChipKind := ⟨some (0xE1, 0xE9), fun _ => some (0xE1, 0xE9)⟩

/-- The SX126x with a TCXO is tuned to 868 MHz and is initialised again. Then it is tuned to
869 MHz, and does not calibrate. -/
def initialisedAgain : Tuner :=
  let start : Tuner := ⟨⟨.standby, .fsk, 0⟩, ⟨none, none⟩, []⟩
  let first := Program.trace (fun _ => .ok)
    (Sx126x.setFrequency ⟨false, false⟩ start.drv 868000000).run
  let tuned := start.setFrequency chip900 868000000 first.1 first.2
  let again := Program.trace (fun _ => .ok)
    (Driver.sx126x.init ⟨true, false, false, false⟩ true).run
  let ready := tuned.init chip900 again.1 .standby .lora
  let last := Program.trace (fun _ => .ok)
    (Sx126x.setFrequency ⟨false, false⟩ ready.drv 869000000).run
  ready.setFrequency chip900 869000000 last.1 last.2

theorem calibrated_iff_initialisedAgain :
    initialisedAgain.Calibrated .sx126x ↔
      Since (Entry.Settles .sx126x chip900) (Entry.Unsettles .sx126x chip900)
        initialisedAgain.history :=
  @calibrated_iff .sx126x ⟨false, false⟩ chip900 initialisedAgain
    (.step (a := .setFrequency 869000000)
      (.step (a := .init)
        (.step (a := .setFrequency 868000000) (.init ⟨rfl, rfl⟩) (fun _ => by decide)
          (.setFrequency (Program.runs_trace _ _)))
        trivial (.init (Program.runs_trace _ _)))
      (fun _ => by decide) (.setFrequency (Program.runs_trace _ _)))

/-! ## What an interval covers -/

/-- The frequency is in the interval, which is in steps of 4 MHz. -/
def Image.Covers (image : Image) (freq : UInt32) : Prop :=
  image.1.toNat * 4000000 ≤ freq.toNat ∧ freq.toNat ≤ image.2.toNat * 4000000

/-- The interval that `lr11xx_system_calibrate_image_in_mhz` sends. -/
def calibrateImageInMhz (freq1InMhz freq2InMhz : UInt16) : Image :=
  (UInt8.ofNat (freq1InMhz.toNat / 4), UInt8.ofNat ((freq2InMhz.toNat + 4 - 1) / 4))

/-- The driver rounds the upper bound of a band down, where its sibling rounds it up. Above 1024 MHz
the steps of both wrap. -/
structure ImageCovers (band : Lr11xx.FreqBand) (freq : UInt32) : Prop where
  driver : band.image.Covers freq ↔
    band.stop.toNat < 1024000000 ∧ freq.toNat ≤ band.stop.toNat / 4000000 * 4000000
  sibling : (calibrateImageInMhz (band.start / 1000000).toUInt16
    (band.stop / 1000000).toUInt16).Covers freq ↔ band.stop.toNat < 1024000000

theorem image_covers {band : Lr11xx.FreqBand} (h : Lr11xx.getFreqBand freq = some band) :
    ImageCovers band freq := by
  have hmem := List.mem_of_find?_eq_some h
  have hin := List.find?_some h
  simp only [ge_iff_le, Bool.and_eq_true, decide_eq_true_eq, UInt32.le_iff_toNat_le] at hin
  simp only [Lr11xx.bands, List.mem_cons, List.not_mem_nil, or_false] at hmem
  obtain rfl | rfl | rfl | rfl | rfl | rfl := hmem <;>
    (constructor <;>
      simp [Lr11xx.FreqBand.image, Lr11xx.freqStep, calibrateImageInMhz, Image.Covers] at hin ⊢ <;>
      omega)

/-- The end of a band is not covered. -/
theorem image_covers_510 : ImageCovers ⟨470000000, 510000000⟩ 510000000 := image_covers (by decide)

end Sidewalk.Radio.Calibration
