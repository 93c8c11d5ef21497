import Sidewalk.Radio.Interface
import Sidewalk.Timer.Time

/-!
# Channel assessment

`sid_pal_radio_is_channel_free` and `sid_pal_radio_get_chan_noise` of both drivers. Samples are
taken between steps that set the radio up and steps that restore it, and each driver leaves out
other steps when one fails.
-/

namespace Sidewalk.Radio

namespace Channel

open Lib Timer
open Lib.Program (make Runs runs_bind runs_make_bind)

/-! ## The code -/

/-- The steps of the functions. A change to standby that restores the radio is told apart from one
that sets it up. -/
inductive ChannelCall
  | setFrequency (freq : UInt32)
  | disableIrq
  | enableIrq
  | startContinuousRx
  | standby (restoring : Bool)
  | clockNow
  | delay (us : Nat)
  | rssi
  deriving DecidableEq

/-- The error of a function of the driver, the time of the clock, and the byte of the chip. -/
structure ChannelReply where
  err : Option RadioFailure
  time : Option SidTimespec
  rssi : Option UInt8

abbrev Assessment := Program ChannelCall ChannelReply

abbrev ChannelEvents := List (ChannelCall × ChannelReply)

/-- The functions of `sid_time_ops.h` that are called. -/
structure TimeLibrary where
  sub : SidTimespec → SidTimespec → SidTimespec
  usToTimespec : UInt32 → SidTimespec

/-- The value that `sid_pal_radio_rssi` of the SX126x gives for a byte. -/
def Sx126x.rssi (lnaGain : Int8) (raw : UInt8) : Int := -(raw.toNat : Int) / 2 - lnaGain.toInt

/-- The value that `sid_pal_radio_rssi` of the LR11xx gives for a byte, in 8 bits. -/
def Lr11xx.rssi (lnaGain : Int8) (raw : UInt8) : Int :=
  Int.bmod (-((raw.toNat / 2 : Nat) : Int) - lnaGain.toInt) 256

def int16Max : Int := 32767

/-- `sid_pal_radio_rssi`, with the value for a byte. -/
def rssiOf (value : UInt8 → Int) (reply : ChannelReply) : Int :=
  match reply.rssi with
  | some raw => value raw
  | none => int16Max

section

variable (time : TimeLibrary) (value : UInt8 → Int) (threshold : Int16)

/-- The loop of the samples, with fuel for its turns; the error and whether the channel is free. -/
def sampleLoop (tThreshold tStart : SidTimespec) : Nat → Assessment (Option (Int × Bool))
  | 0 => pure none
  | fuel + 1 => do
    let _ ← make (.delay 1)
    let rssi ← make .rssi
    let now ← make .clockNow
    match now.time with
    | none => pure (some (radioErrorGeneric, false))
    | some tCur =>
      if threshold.toInt < rssiOf value rssi then pure (some (radioErrorNone, false))
      else if sidTimeGt tThreshold (time.sub tCur tStart) then sampleLoop tThreshold tStart fuel
      else pure (some (radioErrorNone, true))

/-- What both drivers do between their steps. The error of a start is the value of a comparison. -/
def sample (delayUs : UInt32) (fuel : Nat) : Assessment (Option (Int × Bool)) := do
  let started ← make .startContinuousRx
  if started.err.isSome then pure (some (1, false))
  else do
    let tThreshold := time.usToTimespec (if delayUs < 1 then 1 else delayUs)
    let now ← make .clockNow
    match now.time with
    | none => pure (some (radioErrorGeneric, false))
    | some tStart => sampleLoop time value threshold tThreshold tStart fuel

/-- The interrupts first; where that fails the radio is left as it is. -/
def enableThenStandby (err : Int) : Assessment Int := do
  let enabled ← make .enableIrq
  match enabled.err with
  | some e => pure e.code
  | none => do
    let stood ← make (.standby true)
    pure (stood.err.elim err RadioFailure.code)

def standbyThenEnable (err : Int) : Assessment Int := do
  let stood ← make (.standby true)
  let enabled ← make .enableIrq
  pure (enabled.err.elim (stood.err.elim err RadioFailure.code) RadioFailure.code)

/-- `sid_pal_radio_is_channel_free` of the SX126x. -/
def Sx126x.isChannelFree (freq delayUs : UInt32) (fuel : Nat) :
    Assessment (Option (Int × Bool)) := do
  let frequency ← make (.setFrequency freq)
  match frequency.err with
  | some e => pure (some (e.code, false))
  | none => do
    let disabled ← make .disableIrq
    match disabled.err with
    | some e => pure (some (e.code, false))
    | none => do
      match ← sample time value threshold delayUs fuel with
      | none => pure none
      | some (err, free) => do
        let err ← enableThenStandby err
        pure (some (err, free))

/-- `sid_pal_radio_is_channel_free` of the LR11xx, with what the output holds before. The error of
its first change to standby is overwritten. -/
def Lr11xx.isChannelFree (state : RadioState) (old : Bool) (freq delayUs : UInt32) (fuel : Nat) :
    Assessment (Option (Int × Bool)) := do
  if state = .scan then pure (some (radioErrorNone, old))
  else do
    let disabled ← make .disableIrq
    match disabled.err with
    | some e => pure (some (e.code, false))
    | none => do
      let _ ← make (.standby false)
      let frequency ← make (.setFrequency freq)
      match frequency.err with
      | some e => pure (some (e.code, false))
      | none => do
        match ← sample time value threshold delayUs fuel with
        | none => pure none
        | some (err, free) => do
          let err ← standbyThenEnable err
          pure (some (err, free))

end

section

variable (value : UInt8 → Int)

def noiseSampleSize : Nat := 32

/-- The samples of the noise, added to what is there in 16 bits. -/
def noiseLoop (reading : Assessment ChannelReply) : Nat → Int → Assessment Int
  | 0, noise => pure noise
  | left + 1, noise => do
    let reply ← reading
    noiseLoop reading left (Int.bmod (noise + rssiOf value reply) 65536)

/-- What both drivers do between their steps: the error, and what is stored. -/
def sampleNoise (reading : Assessment ChannelReply) (noise : Int16) : Assessment (Int × Int) := do
  let started ← make .startContinuousRx
  match started.err with
  | some e => pure (e.code, noise.toInt)
  | none => do
    let sum ← noiseLoop value reading noiseSampleSize noise.toInt
    pure (radioErrorNone, Int.tdiv sum noiseSampleSize)

def Sx126x.reading : Assessment ChannelReply := do
  let _ ← make (.delay 30)
  make .rssi

def Lr11xx.reading : Assessment ChannelReply := do
  let reply ← make .rssi
  let _ ← make (.delay 1)
  pure reply

/-- The measurement of the noise, after two steps that differ in their order: the error, and what
is stored. -/
def getChanNoise (first second : ChannelCall) (reading : Assessment ChannelReply)
    (noise : Int16) : Assessment (Int × Int) := do
  let opened ← make first
  match opened.err with
  | some e => pure (e.code, noise.toInt)
  | none => do
    let opened ← make second
    match opened.err with
    | some e => pure (e.code, noise.toInt)
    | none => do
      let (err, stored) ← sampleNoise value reading noise
      let err ← enableThenStandby err
      pure (err, stored)

/-- `sid_pal_radio_get_chan_noise` of the SX126x. -/
def Sx126x.getChanNoise (freq : UInt32) (noise : Int16) : Assessment (Int × Int) :=
  Channel.getChanNoise value (.setFrequency freq) .disableIrq Sx126x.reading noise

/-- `sid_pal_radio_get_chan_noise` of the LR11xx. -/
def Lr11xx.getChanNoise (state : RadioState) (freq : UInt32) (noise : Int16) :
    Assessment (Int × Int) :=
  if state = .scan then pure (RadioFailure.busy.code, noise.toInt)
  else Channel.getChanNoise value .disableIrq (.setFrequency freq) Lr11xx.reading noise

end

/-! ## The property -/

/-- Whether the interrupts are enabled, and the state of the radio. -/
structure Chip where
  irq : Bool
  mode : RadioState
  deriving DecidableEq

/-- A step that fails changes nothing. -/
def Chip.after (chip : Chip) (e : ChannelCall × ChannelReply) : Chip :=
  if e.2.err.isSome then chip
  else
    match e.1 with
    | .disableIrq => { chip with irq := false }
    | .enableIrq => { chip with irq := true }
    | .startContinuousRx => { chip with mode := .rx }
    | .standby _ => { chip with mode := .standby }
    | _ => chip

def Chip.afterAll (chip : Chip) (events : ChannelEvents) : Chip := events.foldl Chip.after chip

/-- The step returned an error. -/
def Failed (c : ChannelCall) (events : ChannelEvents) : Prop :=
  ∃ reply, (c, reply) ∈ events ∧ reply.err.isSome

def ClockFailed (events : ChannelEvents) : Prop :=
  ∃ reply, (.clockNow, reply) ∈ events ∧ reply.time = none

def ReadFailed (events : ChannelEvents) : Prop :=
  ∃ reply, (.rssi, reply) ∈ events ∧ reply.rssi = none

/-- A step before or during the samples fails. -/
def StepFailed (events : ChannelEvents) : Prop :=
  (∃ freq, Failed (.setFrequency freq) events) ∨ Failed .disableIrq events ∨
    Failed (.standby false) events ∨ Failed .startContinuousRx events ∨ ClockFailed events ∨
    ReadFailed events

def RestoreFailed (events : ChannelEvents) : Prop :=
  Failed .enableIrq events ∨ Failed (.standby true) events

/-- The steps that return an error code. -/
def ChannelCall.returnsCode : ChannelCall → Bool
  | .clockNow | .delay _ | .rssi => false
  | _ => true

/-- The error is that of a step that failed. -/
def CodeOfFailure (events : ChannelEvents) (err : Int) : Prop :=
  (∃ c reply e, c.returnsCode = true ∧ (c, reply) ∈ events ∧ reply.err = some e ∧ e.code = err) ∨
    (ClockFailed events ∧ err = radioErrorGeneric)

def times (events : ChannelEvents) : List SidTimespec :=
  events.filterMap fun e => if e.1 = .clockNow then e.2.time else none

/-- The clock does not go back, and its times are normalised and fit their fields. -/
def ClockMonotone (events : ChannelEvents) : Prop :=
  (times events).Pairwise (· ≤ ·) ∧ ∀ t ∈ times events, t.Normal ∧ t.Fits

/-- Every sample was read, in a reception, and is at most the threshold, and the delay passed
between the first and the last time. -/
structure Assessed (value : UInt8 → Int) (threshold : Int16) (delayUs : UInt32) (entry : Chip)
    (events : ChannelEvents) : Prop where
  sampled : ∃ reply, (.rssi, reply) ∈ events
  below : ∀ reply, (.rssi, reply) ∈ events →
    ∃ raw, reply.rssi = some raw ∧ value raw ≤ threshold.toInt
  receiving : ∀ before reply after, events = before ++ (.rssi, reply) :: after →
    (entry.afterAll before).mode = .rx
  passed : ∃ tStart tCur, (times events).head? = some tStart ∧
    (times events).getLast? = some tCur ∧ tStart.ns + delayUs.toNat * 1000 ≤ tCur.ns

/-- What an assessment owes. -/
structure ChannelSound (value : UInt8 → Int) (threshold : Int16) (delayUs : UInt32) (entry : Chip)
    (events : ChannelEvents) (err : Int) (free : Bool) : Prop where
  assessed : free = true → Assessed value threshold delayUs entry events
  failing : StepFailed events → CodeOfFailure events err
  irq : (entry.afterAll events).irq = true ∨ Failed .enableIrq events
  standby : (entry.afterAll events).mode = .standby ∨ Failed (.standby true) events

/-- The values of the bytes that were read. -/
def readings (value : UInt8 → Int) (events : ChannelEvents) : List Int :=
  events.filterMap fun e => if e.1 = .rssi then e.2.rssi.map value else none

/-- What a measurement of the noise owes. -/
def NoiseSound (value : UInt8 → Int) (events : ChannelEvents) (err stored : Int) : Prop :=
  err = radioErrorNone → ¬ReadFailed events ∧
    (readings value events).length = noiseSampleSize ∧
    stored = Int.tdiv (readings value events).sum noiseSampleSize

/-- What the functions of `sid_time_ops.h` are documented to give. -/
structure TimeLibrary.Documented (time : TimeLibrary) : Prop where
  us : ∀ us, (time.usToTimespec us).Normal ∧ (time.usToTimespec us).ns = us.toNat * 1000
  sub : ∀ a b : SidTimespec, a.Normal → a.Fits → b.Normal → b ≤ a →
    (time.sub a b).Normal ∧ (time.sub a b).ns = a.ns - b.ns

/-! ## The conditions -/

/-- Interrupts and standby on entry. -/
def Chip.Restored (chip : Chip) : Prop := chip.irq = true ∧ chip.mode = .standby

/-- Where a sample cannot be read, either the clock fails too, or the restoring does and the
threshold is not that of every sample. -/
def ReadsCovered (threshold : Int16) (events : ChannelEvents) : Prop :=
  ReadFailed events → ClockFailed events ∨ RestoreFailed events ∧ threshold.toInt ≠ int16Max

structure Sx126x.Covered (threshold : Int16) (freq : UInt32) (entry : Chip)
    (events : ChannelEvents) : Prop where
  refused : Failed (.setFrequency freq) events ∨ Failed .disableIrq events → entry.Restored
  enabled : Failed .enableIrq events → Failed .startContinuousRx events ∧ entry.mode = .standby
  started : Failed .startContinuousRx events → RestoreFailed events
  reads : ReadsCovered threshold events

structure Lr11xx.Covered (threshold : Int16) (freq : UInt32) (entry : Chip)
    (events : ChannelEvents) : Prop where
  refused : Failed .disableIrq events → entry.Restored
  frequency : ¬Failed (.setFrequency freq) events
  stood : Failed (.standby false) events → ClockFailed events ∨ RestoreFailed events
  started : Failed .startContinuousRx events → RestoreFailed events
  reads : ReadsCovered threshold events

/-- The old value does not carry the sum over a multiple of 32. -/
def Absorbed (noise : Int16) (sum : Int) : Prop :=
  if sum ≤ -32 then -sum % 32 - 32 < noise.toInt ∧ noise.toInt ≤ -sum % 32
  else if 32 ≤ sum then -(sum % 32) ≤ noise.toInt ∧ noise.toInt < 32 - sum % 32
  else -32 - sum < noise.toInt ∧ noise.toInt < 32 - sum

end Channel

end Sidewalk.Radio
