import Sidewalk.Radio.Channel.Basic

/-!
# When a channel is found free

The samples end in four ways. The steps around them decide what is returned, and whether the radio
is restored.
-/

namespace Sidewalk.Radio.Channel

open Lib Timer
open Lib.Program (make Runs runs_bind runs_make_bind)

/-! ## Parts of a run -/

section

variable {events events' : ChannelEvents} {c : ChannelCall} {reply : ChannelReply}
  {chip : Chip} {value : UInt8 → Int}

theorem failed_append (events events' : ChannelEvents) :
    Failed c (events ++ events') ↔ Failed c events ∨ Failed c events' := by
  simp only [Failed, List.mem_append, or_and_right, exists_or]

theorem failed_cons {e : ChannelCall × ChannelReply} :
    Failed c (e :: events) ↔ (e.1 = c ∧ e.2.err.isSome) ∨ Failed c events := by
  obtain ⟨c', reply⟩ := e
  simp only [Failed, List.mem_cons, Prod.mk.injEq, or_and_right, exists_or, and_assoc,
    exists_eq_left, exists_and_left]
  rw [eq_comm]

@[simp] theorem not_failed_nil : ¬Failed c [] := fun ⟨_, h, _⟩ => absurd h List.not_mem_nil

theorem clockFailed_append (events events' : ChannelEvents) :
    ClockFailed (events ++ events') ↔ ClockFailed events ∨ ClockFailed events' := by
  simp only [ClockFailed, List.mem_append, or_and_right, exists_or]

theorem readFailed_append (events events' : ChannelEvents) :
    ReadFailed (events ++ events') ↔ ReadFailed events ∨ ReadFailed events' := by
  simp only [ReadFailed, List.mem_append, or_and_right, exists_or]

theorem times_append (events events' : ChannelEvents) :
    times (events ++ events') = times events ++ times events' :=
  List.filterMap_append

theorem afterAll_append :
    chip.afterAll (events ++ events') = (chip.afterAll events).afterAll events' :=
  List.foldl_append

/-- The steps between the set-up and the restoring. -/
def ChannelCall.Samples : ChannelCall → Prop
  | .startContinuousRx | .clockNow | .delay _ | .rssi => True
  | _ => False

/-- The steps of the loop. -/
def ChannelCall.Measures : ChannelCall → Prop
  | .clockNow | .delay _ | .rssi => True
  | _ => False

/-- The steps of the set-up and the restoring. -/
def Framing (events : ChannelEvents) : Prop :=
  ∀ e ∈ events, e.1 ≠ .clockNow ∧ e.1 ≠ .rssi ∧ e.1 ≠ .startContinuousRx

def Sampling (events : ChannelEvents) : Prop := ∀ e ∈ events, e.1.Samples

def Measuring (events : ChannelEvents) : Prop := ∀ e ∈ events, e.1.Measures

theorem Framing.clockFailed (h : Framing events) : ¬ClockFailed events :=
  fun ⟨_, he, _⟩ => (h _ he).1 rfl

theorem Framing.readFailed (h : Framing events) : ¬ReadFailed events :=
  fun ⟨_, he, _⟩ => (h _ he).2.1 rfl

theorem Framing.not_rssi (h : Framing events) : (.rssi, reply) ∉ events :=
  fun he => (h _ he).2.1 rfl

theorem Framing.not_started (h : Framing events) : ¬Failed .startContinuousRx events :=
  fun ⟨_, he, _⟩ => (h _ he).2.2 rfl

theorem Framing.times (h : Framing events) : times events = [] := by
  unfold Channel.times
  rw [List.filterMap_eq_nil_iff]
  intro e he
  rw [if_neg (h e he).1]

theorem Sampling.not_failed (h : Sampling events) (hc : ¬c.Samples) : ¬Failed c events :=
  fun ⟨_, he, _⟩ => hc (h _ he)

theorem Measuring.sampling (h : Measuring events) : Sampling events := by
  intro e he
  have hmeasures := h e he
  cases hcall : e.1 with
  | clockNow => trivial
  | delay => trivial
  | rssi => trivial
  | _ => rw [hcall] at hmeasures; exact hmeasures.elim

theorem Measuring.afterAll (h : Measuring events) : chip.afterAll events = chip := by
  induction events generalizing chip with
  | nil => rfl
  | cons e events ih =>
    rw [Measuring, List.forall_mem_cons] at h
    have hstep : chip.after e = chip := by
      obtain ⟨c, reply⟩ := e
      unfold Chip.after
      split
      · rfl
      · cases c with
        | clockNow => rfl
        | delay => rfl
        | rssi => rfl
        | _ => exact h.1.elim
    rw [Chip.afterAll, List.foldl_cons, hstep]
    exact ih h.2

theorem code_neg (e : RadioFailure) : e.code < 0 ∧ e.code ≠ radioErrorGeneric := by
  cases e <;> decide

/-- No failure has a code that is not negative. -/
theorem not_codeOfFailure {err : Int} (h : 0 ≤ err) : ¬CodeOfFailure events err := by
  rintro (⟨c, reply, e, -, -, -, rfl⟩ | ⟨-, rfl⟩)
  · have := (code_neg e).1
    omega
  · exact absurd h (by decide)

end

/-! ## The samples -/

section

variable {time : TimeLibrary} {value : UInt8 → Int} {threshold : Int16} {delayUs : UInt32}
  {tThreshold tStart : SidTimespec} {events : ChannelEvents} {err : Int} {free : Bool} {fuel : Nat}

/-- Three ways out of the loop: the clock fails, a sample is above the threshold, or the time is
over. -/
inductive LoopEnd (time : TimeLibrary) (value : UInt8 → Int) (threshold : Int16)
    (tThreshold tStart : SidTimespec) (events : ChannelEvents) : Int → Bool → Prop
  | clock : ClockFailed events → LoopEnd time value threshold tThreshold tStart events
      radioErrorGeneric false
  | busy : ¬ClockFailed events → threshold.toInt ≠ int16Max →
      LoopEnd time value threshold tThreshold tStart events radioErrorNone false
  | free {reply tCur} : ¬ClockFailed events → (.rssi, reply) ∈ events →
      (∀ reply, (.rssi, reply) ∈ events → rssiOf value reply ≤ threshold.toInt) →
      (times events).getLast? = some tCur → sidTimeGt tThreshold (time.sub tCur tStart) = false →
      LoopEnd time value threshold tThreshold tStart events radioErrorNone true

theorem rssiOf_le (hvalue : ∀ raw, value raw ≤ int16Max) (reply : ChannelReply) :
    rssiOf value reply ≤ int16Max := by
  unfold rssiOf
  split
  · exact hvalue _
  · exact Int.le_refl _

theorem int16_le_max (threshold : Int16) : threshold.toInt ≤ int16Max := by
  have := Int16.toInt_lt threshold
  unfold int16Max
  omega

/-- A turn that goes on, before the rest of the loop. -/
theorem LoopEnd.cons {delayed read clock : ChannelReply} {t : SidTimespec} {us : Nat}
    (hclock : clock.time = some t) (hbelow : rssiOf value read ≤ threshold.toInt)
    (h : LoopEnd time value threshold tThreshold tStart events err free) :
    LoopEnd time value threshold tThreshold tStart
      ((.delay us, delayed) :: (.rssi, read) :: (.clockNow, clock) :: events) err free := by
  have hturn : ¬ClockFailed [(.delay us, delayed), (.rssi, read), (.clockNow, clock)] := by
    rintro ⟨reply, hmem, hnone⟩
    obtain rfl : reply = clock := by simpa using hmem
    rw [hclock] at hnone
    cases hnone
  have hfailed : ClockFailed ((.delay us, delayed) :: (.rssi, read) :: (.clockNow, clock) ::
      events) ↔ ClockFailed events := by
    refine (clockFailed_append [_, _, _] events).trans ?_
    rw [or_iff_right hturn]
  cases h with
  | clock h => exact .clock (hfailed.mpr h)
  | busy h hmax => exact .busy (mt hfailed.mp h) hmax
  | free h hmem hall hlast hover =>
    refine .free (mt hfailed.mp h)
      (List.mem_cons_of_mem _ (List.mem_cons_of_mem _ (List.mem_cons_of_mem _ hmem))) ?_ ?_ hover
    · intro reply hreply
      obtain rfl | hreply : reply = read ∨ (.rssi, reply) ∈ events := by simpa using hreply
      · exact hbelow
      · exact hall reply hreply
    · refine (congrArg List.getLast? (times_append [_, _, _] events)).trans ?_
      rw [List.getLast?_append, hlast]
      rfl

theorem runs_sampleLoop (hvalue : ∀ raw, value raw ≤ int16Max)
    (h : Runs (sampleLoop time value threshold tThreshold tStart fuel) events
      (some (err, free))) :
    Measuring events ∧ LoopEnd time value threshold tThreshold tStart events err free := by
  induction fuel generalizing events with
  | zero => exact absurd h.2 nofun
  | succ fuel ih =>
    rw [sampleLoop, runs_make_bind] at h
    obtain ⟨delayed, rest, rfl, h⟩ := h
    rw [runs_make_bind] at h
    obtain ⟨read, rest, rfl, h⟩ := h
    rw [runs_make_bind] at h
    obtain ⟨clock, rest, rfl, h⟩ := h
    have hmeasuring (hrest : Measuring rest) :
        Measuring ((.delay 1, delayed) :: (.rssi, read) :: (.clockNow, clock) :: rest) :=
      List.forall_mem_cons.mpr ⟨trivial, List.forall_mem_cons.mpr
        ⟨trivial, List.forall_mem_cons.mpr ⟨trivial, hrest⟩⟩⟩
    have hnil : Measuring [] := fun _ h => absurd h List.not_mem_nil
    cases hclock : clock.time with
    | none =>
      rw [hclock] at h
      obtain ⟨rfl, heq⟩ := h
      cases heq
      exact ⟨hmeasuring hnil, .clock ⟨clock, by simp, hclock⟩⟩
    | some tCur =>
      simp only [hclock] at h
      have hends : ¬ClockFailed [(.delay 1, delayed), (.rssi, read), (.clockNow, clock)] := by
        rintro ⟨reply, hmem, hnone⟩
        obtain rfl : reply = clock := by simpa using hmem
        rw [hclock] at hnone
        cases hnone
      split at h
      · next habove =>
        obtain ⟨rfl, heq⟩ := h
        cases heq
        refine ⟨hmeasuring hnil, .busy hends fun hmax => ?_⟩
        have := rssiOf_le hvalue read
        omega
      · next hbelow =>
        split at h
        · obtain ⟨hrest, hend⟩ := ih h
          exact ⟨hmeasuring hrest, hend.cons hclock (Int.not_lt.mp hbelow)⟩
        · next hover =>
          obtain ⟨rfl, heq⟩ := h
          cases heq
          refine ⟨hmeasuring hnil, .free hends (List.mem_cons_of_mem _ List.mem_cons_self) ?_ ?_
            (Bool.eq_false_of_not_eq_true hover)⟩
          · intro reply hmem
            obtain rfl : reply = read := by simpa using hmem
            exact Int.not_lt.mp hbelow
          · simp [times, hclock]

/-- The ways out of the samples; the radio receives in all of them but the first. -/
inductive SampleEnd (value : UInt8 → Int) (threshold : Int16) (delayUs : UInt32)
    (events : ChannelEvents) : Int → Bool → Prop
  | notStarted : Failed .startContinuousRx events → ¬ClockFailed events → ¬ReadFailed events →
      (∀ chip : Chip, chip.afterAll events = chip) →
      SampleEnd value threshold delayUs events 1 false
  | noClock : ¬Failed .startContinuousRx events → ClockFailed events →
      (∀ chip : Chip, chip.afterAll events = { chip with mode := .rx }) →
      SampleEnd value threshold delayUs events radioErrorGeneric false
  | busy : ¬Failed .startContinuousRx events → ¬ClockFailed events →
      (∀ chip : Chip, chip.afterAll events = { chip with mode := .rx }) →
      threshold.toInt ≠ int16Max → SampleEnd value threshold delayUs events radioErrorNone false
  | free {reply} : ¬Failed .startContinuousRx events → ¬ClockFailed events →
      (∀ chip : Chip, chip.afterAll events = { chip with mode := .rx }) →
      (.rssi, reply) ∈ events →
      (∀ reply, (.rssi, reply) ∈ events → rssiOf value reply ≤ threshold.toInt) →
      (∀ before reply after, events = before ++ (.rssi, reply) :: after →
        ∀ chip : Chip, (chip.afterAll before).mode = .rx) →
      (ClockMonotone events → ∃ tStart tCur, (times events).head? = some tStart ∧
        (times events).getLast? = some tCur ∧ tStart.ns + delayUs.toNat * 1000 ≤ tCur.ns) →
      SampleEnd value threshold delayUs events radioErrorNone true

/-- The time that passes when the loop is over is at least the delay. -/
theorem passed_of_over (first : ChannelEvents) {tCur : SidTimespec} (htime : time.Documented)
    (hfirst : times first = [tStart]) (hlast : (times events).getLast? = some tCur)
    (hover : sidTimeGt (time.usToTimespec (if delayUs < 1 then 1 else delayUs))
      (time.sub tCur tStart) = false) (hmonotone : ClockMonotone (first ++ events)) :
    (times (first ++ events)).head? = some tStart ∧
      (times (first ++ events)).getLast? = some tCur ∧
      tStart.ns + delayUs.toNat * 1000 ≤ tCur.ns := by
  obtain ⟨hsorted, hfits⟩ := hmonotone
  rw [times_append, hfirst] at hsorted hfits ⊢
  have hmem : tCur ∈ times events := List.mem_of_getLast? hlast
  have hle : tStart ≤ tCur := List.rel_of_pairwise_cons hsorted hmem
  obtain ⟨hstartNormal, -⟩ := hfits tStart (List.mem_cons_self)
  obtain ⟨hcurNormal, hcurFits⟩ := hfits tCur (List.mem_append_right _ hmem)
  obtain ⟨hnormal, hsub⟩ := htime.sub tCur tStart hcurNormal hcurFits hstartNormal hle
  obtain ⟨hthresholdNormal, hus⟩ := htime.us (if delayUs < 1 then 1 else delayUs)
  have hns := ns_le_of_le hthresholdNormal
    (not_sidTimeGt_iff.mp (Bool.eq_false_iff.mp hover))
  have hstart := ns_le_of_le hstartNormal hle
  have hdelay : delayUs.toNat ≤ (if delayUs < 1 then 1 else delayUs).toNat := by
    split
    · next hlt =>
      rw [UInt32.lt_iff_toNat_lt] at hlt
      exact hlt.le
    · exact Nat.le_refl _
  refine ⟨rfl, ?_, ?_⟩
  · rw [List.getLast?_append, hlast]
    rfl
  · rw [hsub, hus] at hns
    have := Nat.mul_le_mul_right 1000 hdelay
    omega

theorem runs_sample (htime : time.Documented) (hvalue : ∀ raw, value raw ≤ int16Max)
    (h : Runs (sample time value threshold delayUs fuel) events (some (err, free))) :
    Sampling events ∧ SampleEnd value threshold delayUs events err free := by
  unfold sample at h
  rw [runs_make_bind] at h
  obtain ⟨started, rest, rfl, h⟩ := h
  have hnil : Sampling [] := fun _ h => absurd h List.not_mem_nil
  by_cases hstarted : started.err.isSome = true
  · rw [if_pos hstarted] at h
    obtain ⟨rfl, heq⟩ := h
    cases heq
    refine ⟨List.forall_mem_cons.mpr ⟨trivial, hnil⟩, .notStarted ?_ ?_ ?_ fun chip => ?_⟩
    · exact ⟨started, List.mem_cons_self, hstarted⟩
    · exact fun ⟨_, hmem, _⟩ => by simp at hmem
    · exact fun ⟨_, hmem, _⟩ => by simp at hmem
    · simp [Chip.afterAll, Chip.after, hstarted]
  · rw [if_neg hstarted, runs_make_bind] at h
    obtain ⟨clock, rest, rfl, h⟩ := h
    have hrx (events : ChannelEvents) (hmeasuring : Measuring events) (chip : Chip) :
        chip.afterAll ((.startContinuousRx, started) :: events) = { chip with mode := .rx } := by
      rw [Chip.afterAll, List.foldl_cons, Chip.after, if_neg hstarted]
      exact hmeasuring.afterAll
    have hnotFailed (events : ChannelEvents) (hmeasuring : Measuring events) :
        ¬Failed .startContinuousRx ((.startContinuousRx, started) :: events) := by
      rintro ⟨reply, hmem, herr⟩
      rcases List.mem_cons.mp hmem with heq | hmem
      · cases heq
        exact hstarted herr
      · exact (hmeasuring _ hmem).elim
    cases hclock : clock.time with
    | none =>
      rw [hclock] at h
      obtain ⟨rfl, heq⟩ := h
      cases heq
      have hmeasuring : Measuring [(.clockNow, clock)] :=
        List.forall_mem_cons.mpr ⟨trivial, fun _ h => absurd h List.not_mem_nil⟩
      exact ⟨List.forall_mem_cons.mpr ⟨trivial, hmeasuring.sampling⟩,
        .noClock (hnotFailed _ hmeasuring) ⟨clock, by simp, hclock⟩ (hrx _ hmeasuring)⟩
    | some tStart =>
      simp only [hclock] at h
      obtain ⟨hloop, hend⟩ := runs_sampleLoop hvalue h
      have hmeasuring : Measuring ((.clockNow, clock) :: rest) :=
        List.forall_mem_cons.mpr ⟨trivial, hloop⟩
      refine ⟨List.forall_mem_cons.mpr ⟨trivial, hmeasuring.sampling⟩, ?_⟩
      have hfailed : ClockFailed ((.startContinuousRx, started) :: (.clockNow, clock) :: rest) ↔
          ClockFailed rest := by
        refine (clockFailed_append [_, _] rest).trans (or_iff_right ?_)
        rintro ⟨reply, hmem, hnone⟩
        obtain rfl : reply = clock := by simpa using hmem
        rw [hclock] at hnone
        cases hnone
      cases hend with
      | clock hclockFailed =>
        exact .noClock (hnotFailed _ hmeasuring) (hfailed.mpr hclockFailed) (hrx _ hmeasuring)
      | busy hclockWell hmax =>
        exact .busy (hnotFailed _ hmeasuring) (mt hfailed.mp hclockWell) (hrx _ hmeasuring) hmax
      | free hclockWell hmem hall hlast hover =>
        refine .free (hnotFailed _ hmeasuring) (mt hfailed.mp hclockWell) (hrx _ hmeasuring)
          (List.mem_cons_of_mem _ (List.mem_cons_of_mem _ hmem)) (fun reply hreply => ?_) ?_
          fun hmonotone => ?_
        · exact hall reply (by simpa using hreply)
        · intro before reply after heq chip
          cases before with
          | nil => cases heq
          | cons e before =>
            obtain ⟨rfl, hrest⟩ := List.cons.inj heq
            have hbefore : Measuring before := fun e he =>
              hmeasuring e (hrest ▸ List.mem_append_left _ he)
            rw [hrx before hbefore]
        · exact ⟨tStart, _, passed_of_over [_, _] htime (by simp [times, hclock]) hlast
            hover hmonotone⟩

end

/-! ## The steps around the samples -/

section

variable {value : UInt8 → Int} {threshold : Int16} {delayUs : UInt32} {entry : Chip}
  {pre samples post : ChannelEvents} {err err' : Int} {free : Bool}

theorem CodeOfFailure.append_left (h : CodeOfFailure post err) :
    CodeOfFailure (pre ++ post) err := by
  rcases h with ⟨c, reply, e, hc, hmem, hreply, hcode⟩ | ⟨hclock, herr⟩
  · exact .inl ⟨c, reply, e, hc, List.mem_append_right _ hmem, hreply, hcode⟩
  · exact .inr ⟨(clockFailed_append _ _).mpr (.inr hclock), herr⟩

/-- The end of a function, which takes the error of the samples and returns its own. -/
structure Restores (post : ChannelEvents) (err err' : Int) : Prop where
  framing : Framing post
  only : ∀ c, Failed c post → c = .enableIrq ∨ c = .standby true
  failed : RestoreFailed post → CodeOfFailure post err'
  same : ¬RestoreFailed post → err' = err
  irq : ∀ chip : Chip, (chip.afterAll post).irq = true ∨ Failed .enableIrq post

/-- The samples between the steps of a driver that succeed, and the restoring. -/
structure Framed (value : UInt8 → Int) (threshold : Int16) (delayUs : UInt32)
    (pre samples post : ChannelEvents) (err err' : Int) (free : Bool) : Prop where
  framing : Framing pre
  unrestored : ¬RestoreFailed pre
  sampling : Sampling samples
  ending : SampleEnd value threshold delayUs samples err free
  restores : Restores post err err'

namespace Framed

theorem failed_start (h : Framed value threshold delayUs pre samples post err err' free) :
    Failed .startContinuousRx (pre ++ (samples ++ post)) ↔ Failed .startContinuousRx samples := by
  rw [failed_append, failed_append, or_iff_right h.framing.not_started,
    or_iff_left h.restores.framing.not_started]

theorem clockFailed (h : Framed value threshold delayUs pre samples post err err' free) :
    ClockFailed (pre ++ (samples ++ post)) ↔ ClockFailed samples := by
  rw [clockFailed_append, clockFailed_append, or_iff_right h.framing.clockFailed,
    or_iff_left h.restores.framing.clockFailed]

theorem readFailed (h : Framed value threshold delayUs pre samples post err err' free) :
    ReadFailed (pre ++ (samples ++ post)) ↔ ReadFailed samples := by
  rw [readFailed_append, readFailed_append, or_iff_right h.framing.readFailed,
    or_iff_left h.restores.framing.readFailed]

theorem failed_enable (h : Framed value threshold delayUs pre samples post err err' free) :
    Failed .enableIrq (pre ++ (samples ++ post)) ↔ Failed .enableIrq post := by
  rw [failed_append, failed_append, or_iff_right fun hf => h.unrestored (.inl hf),
    or_iff_right (h.sampling.not_failed id)]

theorem failed_standby (h : Framed value threshold delayUs pre samples post err err' free) :
    Failed (.standby true) (pre ++ (samples ++ post)) ↔ Failed (.standby true) post := by
  rw [failed_append, failed_append, or_iff_right fun hf => h.unrestored (.inr hf),
    or_iff_right (h.sampling.not_failed id)]

theorem restoreFailed (h : Framed value threshold delayUs pre samples post err err' free) :
    RestoreFailed (pre ++ (samples ++ post)) ↔ RestoreFailed post := by
  rw [RestoreFailed, h.failed_enable, h.failed_standby, RestoreFailed]

/-- A step of the set-up is one before the samples. -/
theorem failed_setUp (h : Framed value threshold delayUs pre samples post err err' free)
    {c : ChannelCall} (hc : ¬c.Samples) (henable : c ≠ .enableIrq) (hstandby : c ≠ .standby true) :
    Failed c (pre ++ (samples ++ post)) ↔ Failed c pre := by
  rw [failed_append, failed_append, or_iff_right (h.sampling.not_failed hc), or_iff_left]
  intro hf
  exact (h.restores.only c hf).elim henable hstandby

theorem stepFailed (h : Framed value threshold delayUs pre samples post err err' free) :
    StepFailed (pre ++ (samples ++ post)) ↔ StepFailed pre ∨ Failed .startContinuousRx samples ∨
      ClockFailed samples ∨ ReadFailed samples := by
  have hdisable := h.failed_setUp (c := .disableIrq) id (by decide) (by decide)
  have hstandby := h.failed_setUp (c := .standby false) id (by decide) (by decide)
  have hfrequency (freq : UInt32) :=
    h.failed_setUp (c := .setFrequency freq) id (by simp) (by simp)
  unfold StepFailed
  rw [h.failed_start, h.clockFailed, h.readFailed, hdisable, hstandby]
  simp only [hfrequency, h.framing.not_started, h.framing.clockFailed, h.framing.readFailed,
    or_false, or_assoc]

/-- The code is right exactly if restoring fails, or the clock, or nothing. -/
theorem code_iff (h : Framed value threshold delayUs pre samples post err err' free) :
    (StepFailed (pre ++ (samples ++ post)) →
        CodeOfFailure (pre ++ (samples ++ post)) err') ↔
      RestoreFailed post ∨ ClockFailed samples ∨
        ¬(StepFailed pre ∨ Failed .startContinuousRx samples ∨ ReadFailed samples) := by
  rw [h.stepFailed]
  by_cases hrestore : RestoreFailed post
  · exact iff_of_true (fun _ => (h.restores.failed hrestore).append_left.append_left)
      (.inl hrestore)
  · rw [h.restores.same hrestore, or_iff_right hrestore]
    cases h.ending with
    | notStarted hstart hclock hread =>
      exact iff_of_false (fun hcode => not_codeOfFailure (by decide) (hcode (.inr (.inl hstart))))
        fun hor => hor.elim hclock fun hnone => hnone (.inr (.inl hstart))
    | noClock hstart hclock =>
      exact iff_of_true (fun _ => .inr ⟨h.clockFailed.mpr hclock, rfl⟩) (.inl hclock)
    | busy hstart hclock =>
      rw [or_iff_right hclock, or_iff_right hclock]
      exact imp_iff_not (not_codeOfFailure (Int.le_refl 0))
    | free hstart hclock =>
      rw [or_iff_right hclock, or_iff_right hclock]
      exact imp_iff_not (not_codeOfFailure (Int.le_refl 0))

/-- Between steps that take no samples, each sample is one of those in the middle. -/
theorem split_rssi {before after : ChannelEvents} {reply : ChannelReply}
    (h : Framed value threshold delayUs pre samples post err err' free)
    (heq : pre ++ (samples ++ post) = before ++ (.rssi, reply) :: after) :
    ∃ inner rest, before = pre ++ inner ∧ samples = inner ++ (.rssi, reply) :: rest := by
  have hbefore : ∃ inner, before = pre ++ inner ∧
      samples ++ post = inner ++ (.rssi, reply) :: after := by
    rcases List.append_eq_append_iff.mp heq with ⟨inner, hb, hs⟩ | ⟨inner, hp, hs⟩
    · exact ⟨inner, hb, hs⟩
    · cases inner with
      | nil => exact ⟨[], by rw [hp, List.append_nil, List.append_nil], hs.symm⟩
      | cons e inner =>
        obtain ⟨rfl, -⟩ := List.cons.inj hs
        exact absurd (hp ▸ List.mem_append_right _ List.mem_cons_self) h.framing.not_rssi
  obtain ⟨inner, rfl, hinner⟩ := hbefore
  rcases List.append_eq_append_iff.mp hinner with ⟨later, -, hs⟩ | ⟨rest, hs, hrest⟩
  · exact absurd (hs ▸ List.mem_append_right _ List.mem_cons_self) h.restores.framing.not_rssi
  · cases rest with
    | nil => exact absurd (hrest ▸ List.mem_cons_self) h.restores.framing.not_rssi
    | cons e rest =>
      obtain ⟨rfl, -⟩ := List.cons.inj hrest
      exact ⟨inner, rest, rfl, hs⟩

theorem mem_rssi {reply : ChannelReply}
    (h : Framed value threshold delayUs pre samples post err err' free) :
    (.rssi, reply) ∈ pre ++ (samples ++ post) ↔ (.rssi, reply) ∈ samples := by
  rw [List.mem_append, List.mem_append, or_iff_right h.framing.not_rssi,
    or_iff_left h.restores.framing.not_rssi]

theorem times (h : Framed value threshold delayUs pre samples post err err' free) :
    times (pre ++ (samples ++ post)) = Channel.times samples := by
  rw [times_append, times_append, h.framing.times, h.restores.framing.times, List.nil_append,
    List.append_nil]

/-- A channel found free is assessed exactly if every sample could be read. -/
theorem assessed_iff (entry : Chip)
    (h : Framed value threshold delayUs pre samples post err err' free)
    (hmonotone : ClockMonotone (pre ++ (samples ++ post))) :
    (free = true → Assessed value threshold delayUs entry (pre ++ (samples ++ post))) ↔
      (free = true → ¬ReadFailed samples) := by
  have hsamples : ClockMonotone samples := by
    rwa [ClockMonotone, h.times] at hmonotone
  constructor
  · rintro hassessed hfree ⟨reply, hmem, hnone⟩
    obtain ⟨raw, hraw, -⟩ := (hassessed hfree).below reply (h.mem_rssi.mpr hmem)
    rw [hnone] at hraw
    cases hraw
  · intro hread hfree
    have hwell := hread hfree
    cases h.ending with
    | free hstart hclock hrx hmem hall hreceiving hpassed =>
      refine ⟨⟨_, h.mem_rssi.mpr hmem⟩, fun reply hreply => ?_,
        fun before reply after heq => ?_, ?_⟩
      · rw [h.mem_rssi] at hreply
        have hle := hall reply hreply
        cases hraw : reply.rssi with
        | none => exact absurd ⟨reply, hreply, hraw⟩ hwell
        | some raw =>
          rw [rssiOf, hraw] at hle
          exact ⟨raw, rfl, hle⟩
      · obtain ⟨inner, rest, rfl, hs⟩ := h.split_rssi heq
        rw [afterAll_append]
        exact hreceiving inner reply rest hs _
      · rw [h.times]
        exact hpassed hsamples
    | _ => cases hfree

/-- What the samples cost, whatever the steps around them. -/
theorem sampled_iff (h : Framed value threshold delayUs pre samples post err err' free) :
    ((free = true → ¬ReadFailed samples) ∧
        (RestoreFailed post ∨ ClockFailed samples ∨
          ¬(StepFailed pre ∨ Failed .startContinuousRx samples ∨ ReadFailed samples))) ↔
      (StepFailed pre → ClockFailed samples ∨ RestoreFailed post) ∧
        (Failed .startContinuousRx samples → RestoreFailed post) ∧
        (ReadFailed samples →
          ClockFailed samples ∨ RestoreFailed post ∧ threshold.toInt ≠ int16Max) := by
  cases h.ending with
  | notStarted hstart hclock hread =>
    simp only [hstart, hclock, hread, Bool.false_eq_true, false_implies, true_implies, true_and,
      and_true, false_or, or_true, not_true_eq_false, or_false]
    exact ⟨fun hrestore => ⟨fun _ => hrestore, hrestore⟩, And.right⟩
  | noClock hstart hclock =>
    simp [hstart, hclock]
  | busy hstart hclock hrx hmax =>
    simp only [hstart, hclock, ne_eq, hmax, Bool.false_eq_true]
    tauto
  | free hstart hclock hrx hmem hall =>
    have hmax : ReadFailed samples → threshold.toInt = int16Max := by
      rintro ⟨reply, hreply, hnone⟩
      have hle := hall reply hreply
      rw [rssiOf, hnone] at hle
      exact Int.le_antisymm (int16_le_max threshold) hle
    by_cases hread : ReadFailed samples
    · simp [hstart, hclock, hread, hmax hread]
    · simp [hstart, hclock, hread, or_iff_not_imp_right]

/-- The state before the restoring: the radio receives unless it could not start. -/
theorem mode (h : Framed value threshold delayUs pre samples post err err' free) (chip : Chip) :
    (chip.afterAll samples).mode = .standby ↔
      Failed .startContinuousRx samples ∧ chip.mode = .standby := by
  cases h.ending with
  | notStarted hstart _ _ hchip => rw [hchip, and_iff_right hstart]
  | noClock hstart _ hchip => simp [hchip, hstart]
  | busy hstart _ hchip => simp [hchip, hstart]
  | free hstart _ hchip => simp [hchip, hstart]

/-- What is left of the property where the set-up succeeds. -/
theorem sound_iff (h : Framed value threshold delayUs pre samples post err err' free)
    (hmonotone : ClockMonotone (pre ++ (samples ++ post))) :
    ChannelSound value threshold delayUs entry (pre ++ (samples ++ post)) err' free ↔
      (StepFailed pre → ClockFailed samples ∨ RestoreFailed post) ∧
        (Failed .startContinuousRx samples → RestoreFailed post) ∧
        ReadsCovered threshold (pre ++ (samples ++ post)) ∧
        ((((entry.afterAll pre).afterAll samples).afterAll post).mode = .standby ∨
          Failed (.standby true) post) := by
  rw [ReadsCovered, h.readFailed, h.clockFailed, h.restoreFailed, ← and_assoc, ← and_assoc,
    and_assoc (a := _ → _), ← h.sampled_iff, ← assessed_iff entry h hmonotone,
    ← h.code_iff]
  have hstandby : (entry.afterAll (pre ++ (samples ++ post))).mode = .standby ∨
      Failed (.standby true) (pre ++ (samples ++ post)) ↔
        (((entry.afterAll pre).afterAll samples).afterAll post).mode = .standby ∨
          Failed (.standby true) post := by
    rw [afterAll_append, afterAll_append, h.failed_standby]
  constructor
  · intro hsound
    exact ⟨⟨hsound.assessed, hsound.failing⟩, hstandby.mp hsound.standby⟩
  · rintro ⟨⟨hassessed, hfailing⟩, hmode⟩
    refine ⟨hassessed, hfailing, ?_, hstandby.mpr hmode⟩
    rw [afterAll_append, afterAll_append, h.failed_enable]
    exact h.restores.irq _

end Framed

/-- A function that stops at a step of its set-up leaves the radio as it was. -/
theorem refused_iff (events : ChannelEvents) (hentry : entry.afterAll events = entry)
    (hcode : CodeOfFailure events err) (hrestore : ¬RestoreFailed events) :
    ChannelSound value threshold delayUs entry events err false ↔ entry.Restored := by
  constructor
  · intro h
    have hirq := h.irq.resolve_right fun hf => hrestore (.inl hf)
    have hstandby := h.standby.resolve_right fun hf => hrestore (.inr hf)
    rw [hentry] at hirq hstandby
    exact ⟨hirq, hstandby⟩
  · rintro ⟨hirq, hstandby⟩
    exact ⟨nofun, fun _ => hcode, .inl (hentry.symm ▸ hirq), .inl (hentry.symm ▸ hstandby)⟩

theorem runs_enableThenStandby (h : Runs (enableThenStandby err) post err') :
    Restores post err err' ∧ ∀ chip : Chip,
      (chip.afterAll post).mode = .standby ∨ Failed (.standby true) post ↔
        (Failed .enableIrq post → chip.mode = .standby) := by
  unfold enableThenStandby at h
  rw [runs_make_bind] at h
  obtain ⟨enabled, rest, rfl, h⟩ := h
  cases henabled : enabled.err with
  | some e =>
    rw [henabled] at h
    obtain ⟨rfl, rfl⟩ := h
    refine ⟨⟨?_, ?_, fun _ => ?_, ?_, fun chip => ?_⟩, fun chip => ?_⟩
    · simp [Framing]
    · intro c hc
      simp only [failed_cons, not_failed_nil, or_false] at hc
      exact .inl hc.1.symm
    · exact .inl ⟨.enableIrq, enabled, e, rfl, List.mem_cons_self, henabled, rfl⟩
    · simp [RestoreFailed, failed_cons, henabled]
    · simp [failed_cons, henabled]
    · simp [failed_cons, henabled, Chip.afterAll, Chip.after]
  | none =>
    simp only [henabled] at h
    rw [runs_make_bind] at h
    obtain ⟨stood, rest, rfl, rfl, rfl⟩ := h
    cases hstood : stood.err with
    | some e =>
      refine ⟨⟨?_, ?_, fun _ => ?_, ?_, fun chip => ?_⟩, fun chip => ?_⟩
      · simp [Framing]
      · intro c hc
        simp only [failed_cons, henabled, Option.isSome_none, Bool.false_eq_true, and_false,
          not_failed_nil, or_false, false_or] at hc
        exact .inr hc.1.symm
      · exact .inl ⟨.standby true, stood, e, rfl, by simp, hstood, rfl⟩
      · simp [RestoreFailed, failed_cons, hstood]
      · simp [Chip.afterAll, Chip.after, henabled, hstood]
      · simp [failed_cons, henabled, hstood]
    | none =>
      refine ⟨⟨?_, ?_, ?_, fun _ => rfl, fun chip => ?_⟩, fun chip => ?_⟩
      · simp [Framing]
      · simp [failed_cons, henabled, hstood]
      · simp [RestoreFailed, failed_cons, henabled, hstood]
      · simp [Chip.afterAll, Chip.after, henabled, hstood]
      · simp [failed_cons, henabled, hstood, Chip.afterAll, Chip.after]

theorem runs_standbyThenEnable (h : Runs (standbyThenEnable err) post err') :
    Restores post err err' ∧ ∀ chip : Chip,
      (chip.afterAll post).mode = .standby ∨ Failed (.standby true) post := by
  unfold standbyThenEnable at h
  simp only [runs_make_bind] at h
  obtain ⟨stood, _, rfl, enabled, rest, rfl, rfl, rfl⟩ := h
  cases henabled : enabled.err with
  | some e =>
    refine ⟨⟨?_, ?_, fun _ => ?_, ?_, fun chip => ?_⟩, fun chip => ?_⟩
    · simp [Framing]
    · intro c hc
      simp only [failed_cons, not_failed_nil, or_false] at hc
      exact hc.symm.imp (·.1.symm) (·.1.symm)
    · exact .inl ⟨.enableIrq, enabled, e, rfl, by simp, henabled, rfl⟩
    · simp [RestoreFailed, failed_cons, henabled]
    · simp [failed_cons, henabled]
    · cases hstood : stood.err <;> simp [failed_cons, henabled, hstood, Chip.afterAll, Chip.after]
  | none =>
    cases hstood : stood.err with
    | some e =>
      refine ⟨⟨?_, ?_, fun _ => ?_, ?_, fun chip => ?_⟩, fun chip => ?_⟩
      · simp [Framing]
      · intro c hc
        simp only [failed_cons, henabled, Option.isSome_none, Bool.false_eq_true, and_false,
          not_failed_nil, or_false] at hc
        exact .inr hc.1.symm
      · exact .inl ⟨.standby true, stood, e, rfl, by simp, hstood, rfl⟩
      · simp [RestoreFailed, failed_cons, hstood]
      · simp [Chip.afterAll, Chip.after, henabled, hstood]
      · simp [failed_cons, henabled, hstood]
    | none =>
      refine ⟨⟨?_, ?_, ?_, fun _ => rfl, fun chip => ?_⟩, fun chip => ?_⟩
      · simp [Framing]
      · simp [failed_cons, henabled, hstood]
      · simp [RestoreFailed, failed_cons, henabled, hstood]
      · simp [Chip.afterAll, Chip.after, henabled, hstood]
      · simp [henabled, hstood, Chip.afterAll, Chip.after]

end

/-! ## The drivers -/

section

variable {time : TimeLibrary} {threshold : Int16} {freq delayUs : UInt32} {fuel : Nat}
  {entry : Chip} {events : ChannelEvents} {err : Int} {free : Bool} {gain : Int8}

theorem Sx126x.rssi_bounds (gain : Int8) (raw : UInt8) :
    -255 ≤ Sx126x.rssi gain raw ∧ Sx126x.rssi gain raw ≤ 128 := by
  have hraw := raw.toNat_lt
  have hlt := Int8.toInt_lt gain
  have hle := Int8.le_toInt gain
  unfold Sx126x.rssi
  omega

theorem Lr11xx.rssi_bounds (gain : Int8) (raw : UInt8) :
    -128 ≤ Lr11xx.rssi gain raw ∧ Lr11xx.rssi gain raw ≤ 127 := by
  unfold Lr11xx.rssi
  rw [Int.bmod_def]
  split <;> omega

theorem Sx126x.covered_of_refused (hrefused : Failed (.setFrequency freq) events ∨
    Failed .disableIrq events) (hrestore : ¬RestoreFailed events)
    (hstart : ¬Failed .startContinuousRx events) (hread : ¬ReadFailed events) :
    Sx126x.Covered threshold freq entry events ↔ entry.Restored :=
  ⟨fun h => h.refused hrefused, fun h => ⟨fun _ => h, fun hf => absurd (.inl hf) hrestore,
    fun hf => absurd hf hstart, fun hf => absurd hf hread⟩⟩

theorem Sx126x.framed_sound_iff {frequency disabled : ChannelReply} {value : UInt8 → Int}
    {pre samples post : ChannelEvents} {sampled : Int}
    (hpre : pre = [(.setFrequency freq, frequency), (.disableIrq, disabled)])
    (hfrequency : frequency.err = none) (hdisabled : disabled.err = none)
    (hframed : Framed value threshold delayUs pre samples post sampled err free)
    (hstandby : ∀ chip : Chip,
      (chip.afterAll post).mode = .standby ∨ Failed (.standby true) post ↔
        (Failed .enableIrq post → chip.mode = .standby))
    (hmonotone : ClockMonotone (pre ++ (samples ++ post))) :
    ChannelSound value threshold delayUs entry (pre ++ (samples ++ post)) err free ↔
      Sx126x.Covered threshold freq entry (pre ++ (samples ++ post)) := by
  subst hpre
  have hset (c : ChannelCall) :
      ¬Failed c [(.setFrequency freq, frequency), (.disableIrq, disabled)] := by
    simp [failed_cons, hfrequency, hdisabled]
  have hpre : ¬StepFailed [(.setFrequency freq, frequency), (.disableIrq, disabled)] := by
    simp [StepFailed, hset, ClockFailed, ReadFailed]
  have hmode : (entry.afterAll [(.setFrequency freq, frequency), (.disableIrq, disabled)]).mode =
      entry.mode := by
    simp [Chip.afterAll, Chip.after, hfrequency, hdisabled]
  have hfrequencyIff := hframed.failed_setUp (c := .setFrequency freq) id (by simp) (by simp)
  have hdisabledIff := hframed.failed_setUp (c := .disableIrq) id (by decide) (by decide)
  rw [hframed.sound_iff hmonotone, hstandby, hframed.mode, hmode]
  constructor
  · rintro ⟨-, hstarted, hreads, henabled⟩
    refine ⟨fun hf => ?_, fun hf => ?_, fun hf => ?_, hreads⟩
    · rw [hfrequencyIff, hdisabledIff] at hf
      exact absurd hf (not_or.mpr ⟨hset _, hset _⟩)
    · rw [hframed.failed_start]
      exact henabled (hframed.failed_enable.mp hf)
    · rw [hframed.restoreFailed]
      exact hstarted (hframed.failed_start.mp hf)
  · rintro ⟨-, henabled, hstarted, hreads⟩
    rw [hframed.failed_start, hframed.restoreFailed] at hstarted
    rw [hframed.failed_start, hframed.failed_enable] at henabled
    exact ⟨fun hf => absurd hf hpre, hstarted, hreads, henabled⟩

theorem Sx126x.channelSound_iff (htime : time.Documented) (hmonotone : ClockMonotone events)
    (h : Runs (Sx126x.isChannelFree time (Sx126x.rssi gain) threshold freq delayUs fuel) events
      (some (err, free))) :
    ChannelSound (Sx126x.rssi gain) threshold delayUs entry events err free ↔
      Sx126x.Covered threshold freq entry events := by
  unfold Sx126x.isChannelFree at h
  rw [runs_make_bind] at h
  obtain ⟨frequency, rest, rfl, h⟩ := h
  cases hfrequency : frequency.err with
  | some e =>
    rw [hfrequency] at h
    obtain ⟨rfl, heq⟩ := h
    cases heq
    rw [refused_iff, Sx126x.covered_of_refused]
    · exact .inl ⟨frequency, List.mem_cons_self, by rw [hfrequency]; rfl⟩
    · simp [RestoreFailed, failed_cons]
    · simp [failed_cons]
    · simp [ReadFailed]
    · simp [Chip.afterAll, Chip.after]
    · exact .inl ⟨.setFrequency freq, frequency, e, rfl, List.mem_cons_self, hfrequency, rfl⟩
    · simp [RestoreFailed, failed_cons]
  | none =>
    simp only [hfrequency] at h
    rw [runs_make_bind] at h
    obtain ⟨disabled, rest, rfl, h⟩ := h
    cases hdisabled : disabled.err with
    | some e =>
      rw [hdisabled] at h
      obtain ⟨rfl, heq⟩ := h
      cases heq
      rw [refused_iff, Sx126x.covered_of_refused]
      · exact .inr ⟨disabled, by simp, by rw [hdisabled]; rfl⟩
      · simp [RestoreFailed, failed_cons]
      · simp [failed_cons]
      · simp [ReadFailed]
      · simp [Chip.afterAll, Chip.after, hdisabled]
      · exact .inl ⟨.disableIrq, disabled, e, rfl, by simp, hdisabled, rfl⟩
      · simp [RestoreFailed, failed_cons]
    | none =>
      simp only [hdisabled] at h
      rw [runs_bind] at h
      obtain ⟨samples, result, rest, hsample, h, rfl⟩ := h
      cases result with
      | none => exact absurd h.2 nofun
      | some result =>
        obtain ⟨sampled, free⟩ := result
        rw [runs_bind] at h
        obtain ⟨post, restored, _, hpost, ⟨rfl, heq⟩, rfl⟩ := h
        cases heq
        rw [List.append_nil] at hmonotone ⊢
        have hvalue (raw : UInt8) : Sx126x.rssi gain raw ≤ int16Max :=
          (Sx126x.rssi_bounds gain raw).2.trans (by decide)
        obtain ⟨hsampling, hending⟩ := runs_sample htime hvalue hsample
        obtain ⟨hrestores, hstandby⟩ := runs_enableThenStandby hpost
        exact Sx126x.framed_sound_iff rfl hfrequency hdisabled
          ⟨by simp [Framing], by simp [RestoreFailed, failed_cons], hsampling, hending, hrestores⟩
          hstandby hmonotone

theorem Lr11xx.framed_sound_iff {frequency disabled stood : ChannelReply} {value : UInt8 → Int}
    {pre samples post : ChannelEvents} {sampled : Int}
    (hpre : pre =
      [(.disableIrq, disabled), (.standby false, stood), (.setFrequency freq, frequency)])
    (hfrequency : frequency.err = none) (hdisabled : disabled.err = none)
    (hframed : Framed value threshold delayUs pre samples post sampled err free)
    (hstandby : ∀ chip : Chip,
      (chip.afterAll post).mode = .standby ∨ Failed (.standby true) post)
    (hmonotone : ClockMonotone (pre ++ (samples ++ post))) :
    ChannelSound value threshold delayUs entry (pre ++ (samples ++ post)) err free ↔
      Lr11xx.Covered threshold freq entry (pre ++ (samples ++ post)) := by
  subst hpre
  have hpre : StepFailed [(.disableIrq, disabled), (.standby false, stood),
      (.setFrequency freq, frequency)] ↔ Failed (.standby false) [(.disableIrq, disabled),
        (.standby false, stood), (.setFrequency freq, frequency)] := by
    simp [StepFailed, failed_cons, ClockFailed, ReadFailed, hfrequency, hdisabled]
  have hfrequencyIff := hframed.failed_setUp (c := .setFrequency freq) id (by simp) (by simp)
  have hdisabledIff := hframed.failed_setUp (c := .disableIrq) id (by decide) (by decide)
  have hstoodIff := hframed.failed_setUp (c := .standby false) id (by decide) (by decide)
  rw [hframed.sound_iff hmonotone, hpre]
  constructor
  · rintro ⟨hstood, hstarted, hreads, -⟩
    refine ⟨fun hf => ?_, fun hf => ?_, fun hf => ?_, fun hf => ?_, hreads⟩
    · rw [hdisabledIff] at hf
      simp [failed_cons, hdisabled] at hf
    · rw [hfrequencyIff] at hf
      simp [failed_cons, hfrequency] at hf
    · rw [hframed.clockFailed, hframed.restoreFailed]
      exact hstood (hstoodIff.mp hf)
    · rw [hframed.restoreFailed]
      exact hstarted (hframed.failed_start.mp hf)
  · rintro ⟨-, -, hstood, hstarted, hreads⟩
    rw [hframed.failed_start, hframed.restoreFailed] at hstarted
    rw [hstoodIff, hframed.clockFailed, hframed.restoreFailed] at hstood
    exact ⟨hstood, hstarted, hreads, hstandby _⟩

theorem Lr11xx.channelSound_iff {state : RadioState} {old : Bool} (htime : time.Documented)
    (hscan : state ≠ .scan) (hmonotone : ClockMonotone events)
    (h : Runs (Lr11xx.isChannelFree time (Lr11xx.rssi gain) threshold state old freq delayUs fuel)
      events (some (err, free))) :
    ChannelSound (Lr11xx.rssi gain) threshold delayUs entry events err free ↔
      Lr11xx.Covered threshold freq entry events := by
  unfold Lr11xx.isChannelFree at h
  rw [if_neg hscan, runs_make_bind] at h
  obtain ⟨disabled, rest, rfl, h⟩ := h
  cases hdisabled : disabled.err with
  | some e =>
    rw [hdisabled] at h
    obtain ⟨rfl, heq⟩ := h
    cases heq
    rw [refused_iff]
    · constructor
      · intro hrestored
        refine ⟨fun _ => hrestored, ?_, ?_, ?_, ?_⟩
        · simp [failed_cons]
        · simp [failed_cons]
        · simp [failed_cons]
        · simp [ReadsCovered, ReadFailed]
      · intro hcovered
        exact hcovered.refused ⟨disabled, List.mem_cons_self, by rw [hdisabled]; rfl⟩
    · simp [Chip.afterAll, Chip.after, hdisabled]
    · exact .inl ⟨.disableIrq, disabled, e, rfl, List.mem_cons_self, hdisabled, rfl⟩
    · simp [RestoreFailed, failed_cons]
  | none =>
    simp only [hdisabled, runs_make_bind] at h
    obtain ⟨stood, _, rfl, frequency, rest, rfl, h⟩ := h
    cases hfrequency : frequency.err with
    | some e =>
      rw [hfrequency] at h
      obtain ⟨rfl, heq⟩ := h
      cases heq
      -- The interrupts stay disabled.
      refine iff_of_false (fun hsound => ?_) fun hcovered => hcovered.frequency ?_
      · have hirq := hsound.irq
        cases hstood : stood.err <;>
          simp [Chip.afterAll, Chip.after, failed_cons, hdisabled, hfrequency, hstood] at hirq
      · exact ⟨frequency, by simp, by rw [hfrequency]; rfl⟩
    | none =>
      simp only [hfrequency] at h
      rw [runs_bind] at h
      obtain ⟨samples, result, rest, hsample, h, rfl⟩ := h
      cases result with
      | none => exact absurd h.2 nofun
      | some result =>
        obtain ⟨sampled, free⟩ := result
        rw [runs_bind] at h
        obtain ⟨post, restored, _, hpost, ⟨rfl, heq⟩, rfl⟩ := h
        cases heq
        rw [List.append_nil] at hmonotone ⊢
        have hvalue (raw : UInt8) : Lr11xx.rssi gain raw ≤ int16Max :=
          (Lr11xx.rssi_bounds gain raw).2.trans (by decide)
        obtain ⟨hsampling, hending⟩ := runs_sample htime hvalue hsample
        obtain ⟨hrestores, hstandby⟩ := runs_standbyThenEnable hpost
        exact Lr11xx.framed_sound_iff rfl hfrequency hdisabled
          ⟨by simp [Framing], by simp [RestoreFailed, failed_cons], hsampling, hending, hrestores⟩
          hstandby hmonotone

end

end Sidewalk.Radio.Channel
