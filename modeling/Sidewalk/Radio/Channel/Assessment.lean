import Sidewalk.Radio.Channel.Noise

/-!
# What the assessment of a channel owes

The four functions, for any replies of the radio and the clock.
-/

namespace Sidewalk.Radio.Channel

open Lib Timer
open Lib.Program (make Runs runs_bind runs_make_bind)

/-- Where each of the four functions does what it owes: the start of the reception gives 1 for any
error, a sample that cannot be read passes as one at the largest value, the interrupts stay
disabled on the way out that skips them, and the noise is added to what was there. -/
theorem channel_assessed_iff (time : TimeLibrary) (htime : time.Documented) (gain : Int8)
    (threshold : Int16) (freq delayUs : UInt32) (fuel : Nat) (entry : Chip)
    (hscan : entry.mode ≠ .scan) :
    (∀ events err free, ClockMonotone events →
      Runs (Sx126x.isChannelFree time (Sx126x.rssi gain) threshold freq delayUs fuel) events
        (some (err, free)) →
      (ChannelSound (Sx126x.rssi gain) threshold delayUs entry events err free ↔
        Sx126x.Covered threshold freq entry events)) ∧
    (∀ old events err free, ClockMonotone events →
      Runs (Lr11xx.isChannelFree time (Lr11xx.rssi gain) threshold entry.mode old freq delayUs
        fuel) events (some (err, free)) →
      (ChannelSound (Lr11xx.rssi gain) threshold delayUs entry events err free ↔
        Lr11xx.Covered threshold freq entry events)) ∧
    (∀ noise events err stored,
      Runs (Sx126x.getChanNoise (Sx126x.rssi gain) freq noise) events (err, stored) →
      (NoiseSound (Sx126x.rssi gain) events err stored ↔
        NoiseCovered (Sx126x.rssi gain) noise events)) ∧
    (∀ noise events err stored,
      Runs (Lr11xx.getChanNoise (Lr11xx.rssi gain) entry.mode freq noise) events (err, stored) →
      (NoiseSound (Lr11xx.rssi gain) events err stored ↔
        NoiseCovered (Lr11xx.rssi gain) noise events)) := by
  refine ⟨fun events err free hmonotone h => ?_, fun old events err free hmonotone h => ?_,
    fun noise events err stored h => ?_, fun noise events err stored h => ?_⟩
  · exact Sx126x.channelSound_iff htime hmonotone h
  · exact Lr11xx.channelSound_iff htime hscan hmonotone h
  · exact noiseSound_iff (Sx126x.rssi_bounds gain) rfl rfl (fun _ _ => Sx126x.reads) h
  · unfold Lr11xx.getChanNoise at h
    rw [if_neg hscan] at h
    refine noiseSound_iff (fun raw => ?_) rfl rfl (fun _ _ => Lr11xx.reads) h
    have hbounds := Lr11xx.rssi_bounds gain raw
    omega

/-! ## Runs -/

/-- The functions of the library in fields of 32 bits. -/
def wrappedTime : TimeLibrary where
  sub := sidTimeSub32
  usToTimespec us := ⟨us.toNat / 1000000, us.toNat % 1000000 * 1000⟩

theorem wrappedTime_documented : wrappedTime.Documented where
  us us := by
    have hdiv := Nat.div_add_mod us.toNat 1000000
    have hmod := Nat.mod_lt us.toNat (show 0 < 1000000 by decide)
    unfold wrappedTime SidTimespec.Normal SidTimespec.ns nsecPerSec
    simp only
    omega
  sub a b _ hfits hb hle := by
    change (sidTimeSub32 a b).Normal ∧ (sidTimeSub32 a b).ns = a.ns - b.ns
    rw [sidTimeSub32_eq hfits hb hle]
    exact ⟨sidTimeSub_normal a b, ns_sidTimeSub hb hle⟩

def well : ChannelReply := ⟨none, none, none⟩

def refused : ChannelReply := ⟨some .hardwareError, none, none⟩

def clockAt (ns : Nat) : ChannelReply := ⟨none, some ⟨0, ns⟩, none⟩

def sampled (raw : UInt8) : ChannelReply := ⟨none, none, some raw⟩

/-- A channel on which one sample of -100 dBm is taken. -/
def quietEvents : ChannelEvents :=
  [(.setFrequency 0, well), (.disableIrq, well), (.startContinuousRx, well), (.clockNow, clockAt 0),
    (.delay 1, well), (.rssi, sampled 200), (.clockNow, clockAt 1000), (.enableIrq, well),
    (.standby true, well)]

theorem runs_quietEvents :
    Runs (Sx126x.isChannelFree wrappedTime (Sx126x.rssi 0) (-80) 0 1 1) quietEvents
      (some (0, true)) :=
  ⟨_, _, rfl, _, _, rfl, _, _, rfl, _, _, rfl, _, _, rfl, _, _, rfl, _, _, rfl, _, _, rfl, _, _,
    rfl, rfl, rfl⟩

theorem channel_assessed_iff_quiet :
    ChannelSound (Sx126x.rssi 0) (-80) 1 ⟨true, .standby⟩ quietEvents 0 true := by
  have hmonotone : ClockMonotone quietEvents := by
    have htimes : times quietEvents = [⟨0, 0⟩, ⟨0, 1000⟩] := rfl
    rw [ClockMonotone, htimes]
    refine ⟨by decide, ?_⟩
    simp [SidTimespec.Normal, SidTimespec.Fits, nsecPerSec, uint32Size]
  refine ((channel_assessed_iff wrappedTime wrappedTime_documented 0 (-80) 0 1 1
    ⟨true, .standby⟩ (by decide)).1 quietEvents 0 true hmonotone runs_quietEvents).mpr ?_
  refine ⟨fun _ => ⟨rfl, rfl⟩, ?_, ?_, ?_⟩
  · simp [Failed, quietEvents, well]
  · simp [Failed, quietEvents, well]
  · simp [ReadsCovered, ReadFailed, quietEvents, sampled]

/-- Readings of 0 dBm. -/
def silentReadings : Nat → ChannelEvents
  | 0 => []
  | left + 1 => (.delay 30, well) :: (.rssi, sampled 0) :: silentReadings left

theorem runs_silentReadings (noise : Int16) (left : Nat) :
    Runs (noiseLoop (Sx126x.rssi 0) Sx126x.reading left noise.toInt) (silentReadings left)
      noise.toInt := by
  induction left with
  | zero => exact ⟨rfl, rfl⟩
  | succ left ih =>
    refine ⟨_, _, rfl, _, _, rfl, ?_⟩
    have hstep : Int.bmod (noise.toInt + rssiOf (Sx126x.rssi 0) (sampled 0)) 65536 =
        noise.toInt :=
      (congrArg (Int.bmod · 65536) (Int.add_zero _)).trans
        (Int.bmod_eq_of_le (Int16.le_toInt noise) (Int16.toInt_lt noise))
    change Runs (noiseLoop _ _ left (Int.bmod _ 65536)) _ _
    rw [hstep]
    exact ih

/-- A measurement of readings of 0 dBm. -/
def silentEvents : ChannelEvents :=
  (.setFrequency 0, well) :: (.disableIrq, well) :: (.startContinuousRx, well) ::
    (silentReadings noiseSampleSize ++ [(.enableIrq, well), (.standby true, well)])

theorem runs_silentEvents :
    Runs (Sx126x.getChanNoise (Sx126x.rssi 0) 0 64) silentEvents (0, 2) := by
  have hsample : Runs (sampleNoise (Sx126x.rssi 0) Sx126x.reading 64)
      ((.startContinuousRx, well) :: silentReadings noiseSampleSize) (0, 2) := by
    unfold sampleNoise
    refine runs_make_bind.mpr ⟨well, _, rfl, ?_⟩
    change Runs (noiseLoop _ _ _ _ >>= _) _ _
    exact runs_bind.mpr ⟨_, 64, [], runs_silentReadings 64 noiseSampleSize, ⟨rfl, rfl⟩,
      (List.append_nil _).symm⟩
  unfold Sx126x.getChanNoise getChanNoise
  refine runs_make_bind.mpr ⟨well, _, rfl, runs_make_bind.mpr ⟨well, _, rfl, ?_⟩⟩
  change Runs (sampleNoise _ _ _ >>= _) _ _
  exact runs_bind.mpr ⟨_, (0, 2), _, hsample, ⟨well, _, rfl, well, _, rfl, rfl, rfl⟩, rfl⟩

/-- A reception that does not start is reported as 1; an LR11xx whose frequency is refused keeps
its interrupts disabled; and a noise of 0 dBm is stored as 2 over an old value of 64. -/
theorem channel_wrongly_assessed :
    (Runs (Sx126x.isChannelFree wrappedTime (Sx126x.rssi 0) (-80) 0 1 1)
        [(.setFrequency 0, well), (.disableIrq, well), (.startContinuousRx, refused),
          (.enableIrq, well), (.standby true, well)] (some (1, false)) ∧
      ¬ChannelSound (Sx126x.rssi 0) (-80) 1 ⟨true, .standby⟩
        [(.setFrequency 0, well), (.disableIrq, well), (.startContinuousRx, refused),
          (.enableIrq, well), (.standby true, well)] 1 false) ∧
    (Runs (Lr11xx.isChannelFree wrappedTime (Lr11xx.rssi 0) (-80) .standby false 0 1 1)
        [(.disableIrq, well), (.standby false, well), (.setFrequency 0, refused)]
        (some (-6, false)) ∧
      ¬ChannelSound (Lr11xx.rssi 0) (-80) 1 ⟨true, .standby⟩
        [(.disableIrq, well), (.standby false, well), (.setFrequency 0, refused)] (-6) false) ∧
    (Runs (Sx126x.getChanNoise (Sx126x.rssi 0) 0 64) silentEvents (0, 2) ∧
      ¬NoiseSound (Sx126x.rssi 0) silentEvents 0 2) := by
  refine ⟨⟨⟨_, _, rfl, _, _, rfl, _, _, rfl, _, _, rfl, _, _, rfl, rfl, rfl⟩, fun hsound => ?_⟩,
    ⟨⟨_, _, rfl, _, _, rfl, _, _, rfl, rfl, rfl⟩, fun hsound => ?_⟩,
    ⟨runs_silentEvents, fun hsound => ?_⟩⟩
  · refine not_codeOfFailure (by decide) (hsound.failing ?_)
    exact .inr (.inr (.inr (.inl ⟨refused, by simp, rfl⟩)))
  · have hirq := hsound.irq
    simp [Chip.afterAll, Chip.after, failed_cons, well, refused] at hirq
  · exact absurd (hsound rfl).2.2 (by decide)

end Sidewalk.Radio.Channel
