import Sidewalk.Radio.Channel.Free

/-!
# When the noise is the mean of the samples

The samples are added to what the output holds. The old value does no harm where it does not carry
the sum over a multiple of the number of samples.
-/

namespace Sidewalk.Radio.Channel

open Lib Timer
open Lib.Program (make Runs runs_bind runs_make_bind)

variable {value : UInt8 → Int} {events events' : ChannelEvents} {reply : ChannelReply}
  {c : ChannelCall} {err err' stored sum noise : Int}

/-! ## Parts of a run -/

/-- A step that returns a code failed. -/
def CodeReturned (events : ChannelEvents) : Prop :=
  ∃ c : ChannelCall, c.returnsCode = true ∧ Failed c events

/-- The condition under which the noise is what it should be. -/
def NoiseCovered (value : UInt8 → Int) (noise : Int16) (events : ChannelEvents) : Prop :=
  CodeReturned events ∨ ¬ReadFailed events ∧ Absorbed noise (readings value events).sum

theorem codeReturned_append (events events' : ChannelEvents) :
    CodeReturned (events ++ events') ↔ CodeReturned events ∨ CodeReturned events' := by
  simp only [CodeReturned, failed_append, and_or_left, exists_or]

theorem codeReturned_cons (c : ChannelCall) (reply : ChannelReply) (events : ChannelEvents) :
    CodeReturned ((c, reply) :: events) ↔
      c.returnsCode = true ∧ reply.err.isSome ∨ CodeReturned events := by
  simp only [CodeReturned, failed_cons, and_or_left, exists_or]
  refine or_congr_left ⟨?_, ?_⟩
  · rintro ⟨c', hc, rfl, herr⟩
    exact ⟨hc, herr⟩
  · rintro ⟨hc, herr⟩
    exact ⟨c, hc, rfl, herr⟩

@[simp] theorem not_codeReturned_nil : ¬CodeReturned [] := fun ⟨_, _, h⟩ => not_failed_nil h

theorem not_codeReturned (h : ∀ e ∈ events, e.1.returnsCode = false) : ¬CodeReturned events := by
  rintro ⟨c, hc, reply, hmem, -⟩
  rw [h _ hmem] at hc
  cases hc

theorem readings_append (events events' : ChannelEvents) :
    readings value (events ++ events') = readings value events ++ readings value events' :=
  List.filterMap_append

theorem readings_of_not_rssi (h : ∀ e ∈ events, e.1 ≠ .rssi) : readings value events = [] := by
  rw [readings, List.filterMap_eq_nil_iff]
  intro e he
  rw [if_neg (h e he)]

theorem ne_rssi_of_returnsCode (h : c.returnsCode = true) : c ≠ .rssi := by
  rintro rfl
  cases h

theorem not_readFailed (h : ∀ e ∈ events, e.1 ≠ .rssi) : ¬ReadFailed events :=
  fun ⟨_, hmem, _⟩ => h _ hmem rfl

/-- The end of the function returns no error exactly if nothing failed. -/
theorem Restores.eq_none_iff {post : ChannelEvents} (h : Restores post err err') :
    err' = radioErrorNone ↔ ¬CodeReturned post ∧ err = radioErrorNone := by
  have hfailed : CodeReturned post ↔ RestoreFailed post := by
    constructor
    · rintro ⟨c, -, hc⟩
      rcases h.only c hc with rfl | rfl
      · exact .inl hc
      · exact .inr hc
    · rintro (hc | hc)
      · exact ⟨.enableIrq, rfl, hc⟩
      · exact ⟨.standby true, rfl, hc⟩
  rw [hfailed]
  by_cases hrestore : RestoreFailed post
  · refine iff_of_false (fun hnone => ?_) fun hnone => hnone.1 hrestore
    exact not_codeOfFailure hnone.ge (h.failed hrestore)
  · rw [h.same hrestore, and_iff_right hrestore]

/-! ## The sum -/

/-- What one reading adds to a run. -/
structure Reads (value : UInt8 → Int) (events : ChannelEvents) (reply : ChannelReply) : Prop where
  noCode : ∀ e ∈ events, e.1.returnsCode = false
  failed : ReadFailed events ↔ reply.rssi = none
  readings : readings value events = (reply.rssi.map value).toList

theorem Sx126x.reads (h : Runs Sx126x.reading events reply) : Reads value events reply := by
  obtain ⟨delayed, _, rfl, read, _, rfl, rfl, rfl⟩ := h
  exact ⟨by simp [ChannelCall.returnsCode], by simp [ReadFailed], by
    cases hraw : reply.rssi <;> simp [Channel.readings, hraw]⟩

theorem Lr11xx.reads (h : Runs Lr11xx.reading events reply) : Reads value events reply := by
  obtain ⟨read, _, rfl, delayed, _, rfl, rfl, rfl⟩ := h
  exact ⟨by simp [ChannelCall.returnsCode], by simp [ReadFailed], by
    cases hraw : reply.rssi <;> simp [Channel.readings, hraw]⟩

/-- Where every sample could be read, the loop adds their values, in 16 bits. -/
theorem runs_noiseLoop {reading : Assessment ChannelReply} {left : Nat}
    (hreading : ∀ events reply, Runs reading events reply → Reads value events reply)
    (hnoise : Int.bmod noise 65536 = noise)
    (h : Runs (noiseLoop value reading left noise) events sum) :
    (∀ e ∈ events, e.1.returnsCode = false) ∧
      (¬ReadFailed events → (readings value events).length = left ∧
        sum = Int.bmod (noise + (readings value events).sum) 65536) := by
  induction left generalizing events noise with
  | zero =>
    obtain ⟨rfl, rfl⟩ := h
    refine ⟨fun _ h => absurd h List.not_mem_nil, fun _ => ⟨rfl, ?_⟩⟩
    rw [readings, List.filterMap_nil, List.sum_nil, Int.add_zero, hnoise]
  | succ left ih =>
    rw [noiseLoop, runs_bind] at h
    obtain ⟨first, reply, rest, hfirst, hrest, rfl⟩ := h
    have hreads := hreading first reply hfirst
    obtain ⟨hnoCode, hsum⟩ := ih (Int.bmod_bmod) hrest
    refine ⟨fun e he => ?_, fun hread => ?_⟩
    · exact (List.mem_append.mp he).elim (hreads.noCode e) (hnoCode e)
    · rw [readFailed_append, not_or, hreads.failed] at hread
      obtain ⟨raw, hraw⟩ := Option.ne_none_iff_exists'.mp hread.1
      obtain ⟨hlength, rfl⟩ := hsum hread.2
      rw [readings_append, hreads.readings, hraw, rssiOf, hraw]
      refine ⟨?_, ?_⟩
      · simp [hlength]
      · rw [Int.bmod_add_bmod]
        simp [Int.add_assoc]

/-- The sum of 32 samples is far from the ends of the 16 bits, so the quotient of what is stored
decides. -/
theorem tdiv_eq_iff {noise : Int16} (hlow : -8160 ≤ sum) (hhigh : sum ≤ 4096) :
    Int.tdiv (Int.bmod (noise.toInt + sum) 65536) noiseSampleSize =
      Int.tdiv sum noiseSampleSize ↔ Absorbed noise sum := by
  have hlt := Int16.toInt_lt noise
  have hle := Int16.le_toInt noise
  have hquotient (x : Int) :
      0 ≤ x ∧ Int.tdiv x noiseSampleSize = x / 32 ∨
        x < 0 ∧ Int.tdiv x noiseSampleSize = -(-x / 32) := by
    by_cases hx : 0 ≤ x
    · exact .inl ⟨hx, Int.tdiv_eq_ediv_of_nonneg hx⟩
    · refine .inr ⟨Int.not_le.mp hx, ?_⟩
      rw [← Int.neg_neg (Int.tdiv x noiseSampleSize), ← Int.neg_tdiv,
        Int.tdiv_eq_ediv_of_nonneg (by omega)]
      rfl
  have hmod : ∃ x, Int.bmod (noise.toInt + sum) 65536 = x ∧
      -32768 ≤ x ∧ x ≤ 32767 ∧ (x = noise.toInt + sum ∨
        x = noise.toInt + sum + 65536 ∨ x = noise.toInt + sum - 65536) := by
    refine ⟨_, rfl, ?_⟩
    rw [Int.bmod_def]
    split <;> omega
  obtain ⟨x, hx, hmod⟩ := hmod
  rw [hx]
  have hsum := hquotient sum
  have hstored := hquotient x
  unfold Absorbed
  split
  · omega
  · split <;> omega

theorem sum_bounds (hvalue : ∀ raw, -255 ≤ value raw ∧ value raw ≤ 128)
    (hlength : (readings value events).length = noiseSampleSize) :
    -8160 ≤ (readings value events).sum ∧ (readings value events).sum ≤ 4096 := by
  have hmem : ∀ r ∈ readings value events, -255 ≤ r ∧ r ≤ 128 := by
    intro r hr
    obtain ⟨e, -, he⟩ := List.mem_filterMap.mp hr
    split at he
    · obtain ⟨raw, -, rfl⟩ := Option.map_eq_some_iff.mp he
      exact hvalue raw
    · cases he
  have hlow := List.card_nsmul_le_sum (readings value events) (-255) fun r hr => (hmem r hr).1
  have hhigh := List.sum_le_card_nsmul (readings value events) 128 fun r hr => (hmem r hr).2
  rw [hlength] at hlow hhigh
  exact ⟨hlow, hhigh⟩

/-! ## The measurement -/

theorem runs_sampleNoise {reading : Assessment ChannelReply} {noise : Int16}
    (hreading : ∀ events reply, Runs reading events reply → Reads value events reply)
    (h : Runs (sampleNoise value reading noise) events (err, stored)) :
    (err = radioErrorNone ↔ ¬CodeReturned events) ∧
      (¬CodeReturned events → ¬ReadFailed events →
        (readings value events).length = noiseSampleSize ∧
        stored = Int.tdiv (Int.bmod (noise.toInt + (readings value events).sum) 65536)
          noiseSampleSize) := by
  unfold sampleNoise at h
  rw [runs_make_bind] at h
  obtain ⟨started, rest, rfl, h⟩ := h
  cases hstarted : started.err with
  | some e =>
    rw [hstarted] at h
    obtain ⟨rfl, heq⟩ := h
    cases heq
    have hcode : CodeReturned [(.startContinuousRx, started)] := by
      rw [codeReturned_cons, hstarted]
      exact .inl ⟨rfl, rfl⟩
    exact ⟨iff_of_false (code_neg e).1.ne fun hnone => hnone hcode, fun hnone => absurd hcode hnone⟩
  | none =>
    simp only [hstarted] at h
    rw [runs_bind] at h
    obtain ⟨samples, sum, _, hloop, ⟨rfl, heq⟩, rfl⟩ := h
    cases heq
    have hnoise : Int.bmod noise.toInt 65536 = noise.toInt :=
      Int.bmod_eq_of_le (Int16.le_toInt noise) (Int16.toInt_lt noise)
    obtain ⟨hnoCode, hsum⟩ := runs_noiseLoop hreading hnoise hloop
    rw [List.append_nil, codeReturned_cons, hstarted]
    refine ⟨iff_of_true rfl ?_, fun _ hread => ?_⟩
    · simp [not_codeReturned hnoCode]
    · have hsamples : ¬ReadFailed samples := fun ⟨reply, hmem, hnone⟩ =>
        hread ⟨reply, List.mem_cons_of_mem _ hmem, hnone⟩
      have hreadings : readings value ((.startContinuousRx, started) :: samples) =
          readings value samples := rfl
      obtain ⟨hlength, rfl⟩ := hsum hsamples
      rw [hreadings]
      exact ⟨hlength, rfl⟩

theorem noiseSound_iff {first second : ChannelCall} {reading : Assessment ChannelReply}
    {noise : Int16} (hvalue : ∀ raw, -255 ≤ value raw ∧ value raw ≤ 128)
    (hfirst : first.returnsCode = true) (hsecond : second.returnsCode = true)
    (hreading : ∀ events reply, Runs reading events reply → Reads value events reply)
    (h : Runs (getChanNoise value first second reading noise) events (err, stored)) :
    NoiseSound value events err stored ↔ NoiseCovered value noise events := by
  have hrefused {e : RadioFailure} {events : ChannelEvents} (hcode : CodeReturned events) :
      NoiseSound value events e.code stored ↔ NoiseCovered value noise events :=
    iff_of_true (fun hnone => absurd hnone (code_neg e).1.ne) (.inl hcode)
  unfold getChanNoise at h
  rw [runs_make_bind] at h
  obtain ⟨opened, rest, rfl, h⟩ := h
  cases hopened : opened.err with
  | some e =>
    rw [hopened] at h
    obtain ⟨rfl, heq⟩ := h
    cases heq
    refine hrefused ?_
    rw [codeReturned_cons, hopened]
    exact .inl ⟨hfirst, rfl⟩
  | none =>
    simp only [hopened] at h
    rw [runs_make_bind] at h
    obtain ⟨ready, rest, rfl, h⟩ := h
    cases hready : ready.err with
    | some e =>
      rw [hready] at h
      obtain ⟨rfl, heq⟩ := h
      cases heq
      refine hrefused ?_
      rw [codeReturned_cons, codeReturned_cons, hready]
      exact .inr (.inl ⟨hsecond, rfl⟩)
    | none =>
      simp only [hready] at h
      rw [runs_bind] at h
      obtain ⟨samples, ⟨sampled, stored⟩, rest, hsample, h, rfl⟩ := h
      rw [runs_bind] at h
      obtain ⟨post, restored, _, hpost, ⟨rfl, heq⟩, rfl⟩ := h
      cases heq
      rw [List.append_nil]
      obtain ⟨hsampled, hmean⟩ := runs_sampleNoise hreading hsample
      have hrestores := (runs_enableThenStandby hpost).1
      have hopening : ∀ e ∈ [(first, opened), (second, ready)], e.1 ≠ .rssi :=
        List.forall_mem_cons.mpr ⟨ne_rssi_of_returnsCode hfirst,
          List.forall_mem_singleton.mpr (ne_rssi_of_returnsCode hsecond)⟩
      have hclosing : ∀ e ∈ post, e.1 ≠ .rssi := fun e he => (hrestores.framing e he).2.1
      have hcode : CodeReturned ([(first, opened), (second, ready)] ++ (samples ++ post)) ↔
          CodeReturned samples ∨ CodeReturned post := by
        rw [codeReturned_append, codeReturned_append, codeReturned_cons, codeReturned_cons,
          hopened, hready]
        simp
      have hread : ReadFailed ([(first, opened), (second, ready)] ++ (samples ++ post)) ↔
          ReadFailed samples := by
        rw [readFailed_append, readFailed_append, or_iff_right (not_readFailed hopening),
          or_iff_left (not_readFailed hclosing)]
      have hreadings : readings value ([(first, opened), (second, ready)] ++ (samples ++ post)) =
          readings value samples := by
        rw [readings_append, readings_append, readings_of_not_rssi hopening,
          readings_of_not_rssi hclosing, List.nil_append, List.append_nil]
      change NoiseSound value ([(first, opened), (second, ready)] ++ (samples ++ post)) _ _ ↔
        NoiseCovered value noise ([(first, opened), (second, ready)] ++ (samples ++ post))
      rw [NoiseSound, NoiseCovered, hcode, hread, hreadings, hrestores.eq_none_iff, hsampled,
        and_comm, ← not_or]
      by_cases hfailed : CodeReturned samples ∨ CodeReturned post
      · exact iff_of_true (absurd hfailed) (.inl hfailed)
      · rw [imp_iff_right hfailed, or_iff_right hfailed]
        refine and_congr_right fun hsamples => ?_
        obtain ⟨hlength, rfl⟩ := hmean (not_or.mp hfailed).1 hsamples
        obtain ⟨hlow, hhigh⟩ := sum_bounds hvalue hlength
        rw [and_iff_right hlength, tdiv_eq_iff hlow hhigh]

end Sidewalk.Radio.Channel
