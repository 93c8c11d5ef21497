import Sidewalk.Timer.Expiry

/-!
# Drift

The alarms of a timer over many expiries, beside what it was armed with. An expiry adds the period
to the alarm that the timer has, also where coalescing has moved this alarm, so that what one
expiry adds to the delay of a low-power timer the next ones keep.
-/

namespace Sidewalk.Timer

open Lib

section

variable {ι : Type} [DecidableEq ι]

/-! ## Timelines -/

/-- The timers with what they were armed for, under any calls and expiries in any order. -/
def timeline : System (TimerCtx ι × (ι → Asked)) (Move ι) where
  init x := x.1.list = [] ∧ ∀ t, (x.1.timer t).linked = false
  step
    | (s, asked), .init t eventCallback, (s', asked') =>
      s' = (s.init t eventCallback).2 ∧ asked' = asked
    | (s, asked), .op op, (s', asked') => s' = s.apply op ∧ asked' = ask s asked op
    | (s, asked), .expire now, (s', asked') =>
      ∃ t fetched, s.listFetch now = (some t, fetched) ∧ s' = fetched.reinsert t ∧
        asked' = Function.update asked t (asked t).expired
    | (s, asked), .start sidTime, (s', asked') => s' = s.sidTimerStart sidTime ∧ asked' = asked

/-- These are the timers over the arithmetic that does not wrap. -/
theorem timeline_exact : timeline (ι := ι) = timelineWith exactTime := by
  unfold timeline timelineWith
  congr 1
  funext ⟨s, asked⟩ a ⟨s', asked'⟩
  cases a with
  | op op => simp only [TimerCtx.apply_exact]
  | expire now => simp only [TimerCtx.reinsert_exact]
  | _ => rfl

/-- A whole expiry is steps of the timeline. -/
theorem eventCallback_timeline {ω : Type} {callbacks : Callbacks ι ω} {now : SidTimespec}
    {fuel : Nat} {w w' : ω} {s s' : TimerCtx ι} {asked : ι → Asked}
    {invocations : List (Invocation ι)} (h : timeline.Reached CallersInit (s, asked))
    (hrun : s.eventCallback callbacks now fuel w = some (s', w', invocations)) :
    ∃ asked', timeline.Reached CallersInit (s', asked') := by
  have hops : ∀ (ops : List (Op ι)) (s : TimerCtx ι) (asked : ι → Asked),
      timeline.Reached CallersInit (s, asked) →
        ∃ asked', timeline.Reached CallersInit (ops.foldl TimerCtx.apply s, asked') := by
    intro ops
    induction ops with
    | nil => exact fun s asked h => ⟨asked, h⟩
    | cons op ops ih =>
      intro s asked h
      exact ih _ _ (.step (a := .op op) h trivial ⟨rfl, rfl⟩)
  induction fuel generalizing w s asked invocations with
  | zero => cases hrun
  | succ fuel ih =>
    unfold TimerCtx.eventCallback at hrun
    rcases hfetch : s.listFetch now with ⟨_ | t, fetched⟩
    · rw [hfetch] at hrun
      cases hrun
      have hsame : fetched = s := by
        unfold TimerCtx.listFetch at hfetch
        split at hfetch
        · cases hfetch
          rfl
        · split at hfetch
          · cases hfetch
            rfl
          · cases hfetch
      subst hsame
      exact ⟨asked, .step (a := .start _) h trivial ⟨rfl, rfl⟩⟩
    · have hexpire : timeline.Reached CallersInit
          (fetched.reinsert t, Function.update asked t (asked t).expired) :=
        .step (a := .expire now) h trivial ⟨t, fetched, hfetch, rfl, rfl⟩
      rw [hfetch] at hrun
      simp only at hrun
      split at hrun
      · obtain ⟨out, hrest, hout⟩ := Option.map_eq_some_iff.mp hrun
        cases hout
        obtain ⟨asked', hreached⟩ := hops _ _ _ hexpire
        exact ih hreached hrest
      · exact ih hexpire hrun

/-! ## The window of an alarm -/

/-- The time lies in the tolerance after the nominal one. -/
def Within (nominal : Nat) (tolerance alarm : SidTimespec) : Prop :=
  nominal ≤ alarm.ns ∧ alarm.ns ≤ nominal + tolerance.ns

/-- If the alarm is coalesced with that of its successor, this is in the window too. -/
def MovesWithin (alarmOf : ι → SidTimespec) (tolerance alarm : SidTimespec) (nominal : Nat)
    (l : List ι) : Prop :=
  ∀ next, successor alarmOf alarm l = some next →
    sidTimeGt (sidTimeSub next alarm) tolerance = false → Within nominal tolerance next

omit [DecidableEq ι] in
/-- The alarm of a listed timer is in the window exactly if it moves within it. -/
theorem coalesced_within {alarmOf : ι → SidTimespec} {tolerance alarm : SidTimespec}
    {nominal : Nat} {l : List ι} (h : Within nominal tolerance alarm) :
    Within nominal tolerance (coalesced exactTime alarmOf tolerance alarm l) ↔
      MovesWithin alarmOf tolerance alarm nominal l := by
  unfold MovesWithin coalesced
  rcases hsuccessor : successor alarmOf alarm l with _ | next
  · refine ⟨fun _ next hnext => ?_, fun _ => h⟩
    cases hnext
  · simp only [Option.some.injEq, forall_eq']
    by_cases hfar : sidTimeGt (exactTime.sub next alarm) tolerance = true
    · rw [if_pos hfar]
      refine ⟨fun _ hnear => ?_, fun _ => h⟩
      exact absurd (hfar.symm.trans hnear) (by decide)
    · rw [if_neg hfar]
      exact ⟨fun hnext _ => hnext, fun hmoves => hmoves (Bool.eq_false_of_not_eq_true hfar)⟩

omit [DecidableEq ι] in
/-- An alarm that stands where it should moves within the tolerance. -/
theorem movesWithin_of_nominal (alarmOf : ι → SidTimespec) (tolerance : SidTimespec)
    {alarm : SidTimespec} (l : List ι) (hnormal : alarm.Normal) :
    MovesWithin alarmOf tolerance alarm alarm.ns l :=
  (coalesced_within ⟨le_refl _, Nat.le_add_right _ _⟩).mp
    (coalesced_window alarmOf tolerance l hnormal)

/-! ## Runs -/

/-- The timer is on its schedule. -/
def OnSchedule (timer : TimerImpl) (asked : Asked) : Prop :=
  Within (asked.nominal timer.period) timer.tolerance timer.alarm

/-- A step that puts the timer into the list, by arming it or after an expiry, does not coalesce
its alarm with one beyond the tolerance of the nominal time. -/
def Undrifted (t : ι) : TimerCtx ι × (ι → Asked) → Move ι → Prop
  | (s, _), .init u _ => s.isArmed u = false
  | (s, _), .op (.arm u type (some when') _) =>
    u = t → s.isArmed t = false →
      MovesWithin s.alarm type.tolerance when' when'.ns s.list
  | (s, asked), .expire now =>
    ∀ rest, s.list = t :: rest → s.alarm t ≤ now →
      sidTimeIsInfinity (s.timer t).period = false →
        MovesWithin s.alarm (s.timer t).tolerance (sidTimeAdd (s.alarm t) (s.timer t).period)
          ((asked t).expired.nominal (s.timer t).period) rest
  | _, _ => True

/-! ## What a step does to a timer -/

section

variable {s s' : TimerCtx ι} {asked asked' : ι → Asked} {t u : ι}

/-- An accepted call to `arm` lists the timer with what `coalesced` makes of its alarm. -/
theorem arm_timer (hvalid : s.Valid) (hunarmed : s.isArmed u = false) (type : PrioClass)
    (when' : SidTimespec) (period : Option SidTimespec) :
    (s.arm u type (some when') period).2.timer u =
        { TimerCtx.armFields type when' period (s.timer u) with
          alarm := coalesced exactTime s.alarm type.tolerance when' s.list
          linked := true } ∧
      ∀ v, v ≠ u → (s.arm u type (some when') period).2.timer v = s.timer v ∧
        (v ∈ (s.arm u type (some when') period).2.list → v ∈ s.list) := by
  have hmem : u ∉ s.list := by
    intro hmem
    rw [(TimerCtx.isArmed_iff hvalid).mpr hmem] at hunarmed
    cases hunarmed
  obtain ⟨l', alarm', required', hins, halarm, heq⟩ := TimerCtx.listInsertWith_eq exactTime
    (s.modify u (TimerCtx.armFields type when' period)) u
  have hcoalesced : alarm' = coalesced exactTime s.alarm type.tolerance when' s.list := by
    have hagree : ∀ e ∈ s.list,
        (s.modify u (TimerCtx.armFields type when' period)).alarm e = s.alarm e := by
      intro e he
      unfold TimerCtx.alarm
      rw [TimerCtx.modify_timer_of_ne _ (ne_of_mem_of_not_mem he hmem)]
    rw [halarm, TimerCtx.modify_list, TimerCtx.modify_timer_self, coalesced_congr hagree]
    unfold TimerCtx.alarm
    rw [TimerCtx.modify_timer_self]
    rfl
  unfold TimerCtx.arm
  simp only [hunarmed, Bool.false_eq_true, if_false]
  rw [TimerCtx.listInsert_exact, heq]
  refine ⟨?_, ?_⟩
  · simp only [Function.update_self, TimerCtx.modify_timer_self, hcoalesced]
  · intro v hne
    refine ⟨?_, ?_⟩
    · change Function.update _ u _ v = _
      rw [Function.update_of_ne hne, TimerCtx.modify_timer_of_ne _ hne]
    · intro hv
      exact (List.mem_cons.mp (hins.perm.mem_iff.mp hv)).resolve_left hne

theorem pruned_init (hvalid : s.Valid) (hunarmed : s.isArmed u = false) (eventCallback : Bool) :
    s.Pruned (s.init u eventCallback).2 := by
  intro v hv
  unfold TimerCtx.init at hv ⊢
  split at hv
  · rename_i hcallback
    rw [if_pos hcallback]
    exact ⟨hv, rfl⟩
  · rename_i hcallback
    rw [if_neg hcallback]
    have hne : v ≠ u := by
      rintro rfl
      rw [(TimerCtx.isArmed_iff hvalid).mpr hv] at hunarmed
      cases hunarmed
    exact ⟨hv, TimerCtx.modify_timer_of_ne (fun timer => { timer with
      callback := true
      alarm := sidTimeInfinity
      period := sidTimeInfinity
      linked := false }) hne⟩

/-- How a timer comes to be listed after a step: it was, it has been armed, or it has expired. -/
inductive Listed (t : ι) : TimerCtx ι × (ι → Asked) → Move ι → TimerImpl → Asked → Prop
  | kept {s : TimerCtx ι} {asked : ι → Asked} {a : Move ι} : t ∈ s.list →
      Listed t (s, asked) a (s.timer t) (asked t)
  | armed {s : TimerCtx ι} {asked : ι → Asked} {type : PrioClass} {when' : SidTimespec}
      {period : Option SidTimespec} : s.isArmed t = false →
      Listed t (s, asked) (.op (.arm t type (some when') period))
        { TimerCtx.armFields type when' period (s.timer t) with
          alarm := coalesced exactTime s.alarm type.tolerance when' s.list
          linked := true } ⟨when', 0⟩
  | expired {s : TimerCtx ι} {asked : ι → Asked} {now : SidTimespec} {rest : List ι} :
      s.list = t :: rest → s.alarm t ≤ now →
      sidTimeIsInfinity (s.timer t).period = false →
      Listed t (s, asked) (.expire now)
        { s.timer t with alarm := s.nextAlarm exactTime t rest, linked := true }
        (asked t).expired

omit [DecidableEq ι] in
theorem Listed.of_pruned {a : Move ι} (h : s.Pruned s') (hmem : t ∈ s'.list) :
    Listed t (s, asked) a (s'.timer t) (asked t) := by
  obtain ⟨hlisted, hsame⟩ := h t hmem
  rw [hsame]
  exact .kept hlisted

theorem listed_arm (hvalid : s.Valid) {type : PrioClass} {when' period : Option SidTimespec}
    (hmem : t ∈ (s.arm u type when' period).2.list) :
    Listed t (s, asked) (.op (.arm u type when' period))
      ((s.arm u type when' period).2.timer t) (ask s asked (.arm u type when' period) t) := by
  cases when' with
  | none => exact .kept hmem
  | some when' =>
    by_cases harmed : s.isArmed u = true
    · unfold TimerCtx.arm at hmem ⊢
      unfold ask
      simp only [harmed, if_true] at hmem ⊢
      exact .kept hmem
    · have hunarmed : s.isArmed u = false := Bool.eq_false_of_not_eq_true harmed
      obtain ⟨hself, hother⟩ := arm_timer hvalid hunarmed type when' period
      unfold ask
      simp only [hunarmed, Bool.false_eq_true, if_false]
      by_cases hu : u = t
      · subst hu
        rw [hself, Function.update_self]
        exact .armed hunarmed
      · obtain ⟨hsame, hlisted⟩ := hother t (Ne.symm hu)
        rw [hsame, Function.update_of_ne (Ne.symm hu)]
        exact .kept (hlisted hmem)

/-- A step keeps the list valid, and lists a timer in one of the ways above. -/
theorem timeline_step {a : Move ι} (hvalid : s.Valid) (hcallers : CallersInit (s, asked) a)
    (hstep : timeline.step (s, asked) a (s', asked')) :
    s'.Valid ∧ (t ∈ s'.list → Listed t (s, asked) a (s'.timer t) (asked' t)) := by
  cases a with
  | init u eventCallback =>
    obtain ⟨rfl, rfl⟩ := hstep
    exact ⟨hvalid.init hcallers eventCallback,
      .of_pruned (pruned_init hvalid hcallers eventCallback)⟩
  | op op =>
    obtain ⟨rfl, rfl⟩ := hstep
    cases op with
    | arm u type when' period => exact ⟨hvalid.arm u type when' period, listed_arm hvalid⟩
    | cancel u => exact ⟨hvalid.listDelete u, .of_pruned (hvalid.pruned_listDelete u)⟩
    | deinit u => exact ⟨hvalid.deinit u, .of_pruned (hvalid.pruned_deinit u)⟩
  | expire now =>
    obtain ⟨u, fetched, hfetch, rfl, rfl⟩ := hstep
    obtain ⟨rest, hlist, hdue, -, hturned, -⟩ := hvalid.turned_fetch exactTime hfetch
    rw [TimerCtx.reinsert_exact]
    refine ⟨hturned.valid, ?_⟩
    intro hmem
    by_cases hu : u = t
    · subst hu
      rw [hturned.self hmem, Function.update_self]
      exact .expired hlist hdue (hturned.periodic hmem)
    · rw [hturned.others t hmem (Ne.symm hu), Function.update_of_ne (Ne.symm hu)]
      exact .kept (hturned.listed t hmem)
  | start sidTime =>
    obtain ⟨rfl, rfl⟩ := hstep
    exact ⟨hvalid.sidTimerStart sidTime, .of_pruned fun v hv => ⟨hv, rfl⟩⟩

end

/-! ## The schedule over a run -/

/-- The invariant: the list is valid, and the timer is on its schedule while it is listed. -/
structure Punctual (t : ι) (x : TimerCtx ι × (ι → Asked)) : Prop where
  valid : x.1.Valid
  scheduled : t ∈ x.1.list → OnSchedule (x.1.timer t) (x.2 t)

omit [DecidableEq ι] in
theorem Undrifted.callersInit {t : ι} {x : TimerCtx ι × (ι → Asked)} {a : Move ι}
    (h : Undrifted t x a) : CallersInit x a := by
  cases a with
  | init u eventCallback => exact h
  | op op => trivial
  | expire now => trivial
  | start sidTime => trivial

omit [DecidableEq ι] in
/-- However a timer comes to be listed, it is on its schedule. -/
theorem Punctual.listed {t : ι} {x : TimerCtx ι × (ι → Asked)} {a : Move ι} {timer : TimerImpl}
    {asked' : Asked} (h : Punctual t x) (hguard : Undrifted t x a)
    (hlisted : Listed t x a timer asked') : OnSchedule timer asked' := by
  cases hlisted with
  | kept hmem => exact h.scheduled hmem
  | armed hunarmed =>
    unfold OnSchedule Asked.nominal
    simp only [TimerCtx.armFields, Nat.zero_mul, Nat.add_zero]
    exact (coalesced_within ⟨le_refl _, Nat.le_add_right _ _⟩).mpr (hguard rfl hunarmed)
  | @expired s asked now rest hlist hdue hperiodic =>
    have hmem : t ∈ s.list := by
      rw [hlist]
      exact List.mem_cons_self
    change Within ((asked t).expired.nominal (s.timer t).period) (s.timer t).tolerance
      (s.nextAlarm exactTime t rest)
    refine (coalesced_within ?_).mpr (hguard rest hlist hdue hperiodic)
    -- The alarm was in its window, so a period later it is in the next.
    have hbefore : OnSchedule (s.timer t) (asked t) := h.scheduled hmem
    unfold OnSchedule Within Asked.nominal at hbefore
    have hsum : (exactTime.add (s.alarm t) (s.timer t).period).ns =
        (s.alarm t).ns + (s.timer t).period.ns := ns_sidTimeAdd _ _
    have hnominal : (asked t).expired.nominal (s.timer t).period =
        (asked t).first.ns + (asked t).expiries * (s.timer t).period.ns +
          (s.timer t).period.ns := by
      unfold Asked.nominal Asked.expired
      rw [Nat.add_mul, Nat.one_mul, Nat.add_assoc]
    have hsame : (s.alarm t).ns = (s.timer t).alarm.ns := rfl
    unfold Within
    rw [hsum, hnominal, hsame]
    omega

theorem punctual_of_reached {t : ι} {x : TimerCtx ι × (ι → Asked)}
    (h : timeline.Reached (Undrifted t) x) : Punctual t x := by
  refine h.invariant (I := fun x => Punctual t x) ?_ ?_
  · rintro ⟨s, asked⟩ ⟨hlist, hlinked⟩
    refine ⟨.of_empty hlist hlinked, ?_⟩
    intro hmem
    rw [show s.list = [] from hlist] at hmem
    cases hmem
  · rintro ⟨s, asked⟩ a ⟨s', asked'⟩ hpunctual hguard hstep
    obtain ⟨hvalid, hlisted⟩ := timeline_step hpunctual.valid hguard.callersInit hstep
    exact ⟨hvalid, fun hmem => hpunctual.listed hguard (hlisted hmem)⟩

/-! ## Precise timers -/

omit [DecidableEq ι] in
/-- No successor is within a tolerance of nothing. -/
theorem movesWithin_precise (alarmOf : ι → SidTimespec) {alarm : SidTimespec} (nominal : Nat)
    (l : List ι) (hnormal : alarm.Normal) :
    MovesWithin alarmOf PrioClass.precise.tolerance alarm nominal l := by
  intro next hnext hnear
  exfalso
  have hlt := (successor_some hnext).1
  have hdiff : sidTimeSub next alarm ≤ PrioClass.precise.tolerance := by
    refine not_sidTimeGt_iff.mp ?_
    rw [hnear]
    exact Bool.false_ne_true
  have hle := ns_le_of_le (sidTimeSub_normal next alarm) hdiff
  rw [ns_sidTimeSub hnormal hlt.le] at hle
  have hns := ns_lt_of_lt hnormal hlt
  have hzero : PrioClass.precise.tolerance.ns = 0 := rfl
  omega

/-- The timer is armed as a precise one, for times that are normalised. -/
def ArmedPrecise (t : ι) : TimerCtx ι × (ι → Asked) → Move ι → Prop
  | (s, _), .init u _ => s.isArmed u = false
  | _, .op (.arm u type (some when') _) => u = t → type = .precise ∧ when'.Normal
  | _, _ => True

omit [DecidableEq ι] in
theorem ArmedPrecise.callersInit {t : ι} {x : TimerCtx ι × (ι → Asked)} {a : Move ι}
    (h : ArmedPrecise t x a) : CallersInit x a := by
  cases a with
  | init u eventCallback => exact h
  | op op => trivial
  | expire now => trivial
  | start sidTime => trivial

omit [DecidableEq ι] in
/-- What is never coalesced never drifts. -/
theorem ArmedPrecise.undrifted {t : ι} {s : TimerCtx ι} {asked : ι → Asked} {a : Move ι}
    (h : ArmedPrecise t (s, asked) a)
    (htolerance : t ∈ s.list → (s.timer t).tolerance = PrioClass.precise.tolerance) :
    Undrifted t (s, asked) a := by
  cases a with
  | init u eventCallback => exact h
  | op op =>
    cases op with
    | arm u type when' period =>
      cases when' with
      | none => trivial
      | some when' =>
        intro hu _
        obtain ⟨rfl, hnormal⟩ := h hu
        exact movesWithin_precise s.alarm _ s.list hnormal
    | cancel u => trivial
    | deinit u => trivial
  | expire now =>
    intro rest hlist _ _
    have hmem : t ∈ s.list := by
      rw [hlist]
      exact List.mem_cons_self
    rw [htolerance hmem]
    exact movesWithin_precise s.alarm _ rest (sidTimeAdd_normal _ _)
  | start sidTime => trivial

omit [DecidableEq ι] in
theorem ArmedPrecise.listed {t : ι} {x : TimerCtx ι × (ι → Asked)} {a : Move ι}
    {timer : TimerImpl} {asked' : Asked} (h : ArmedPrecise t x a)
    (htolerance : t ∈ x.1.list → (x.1.timer t).tolerance = PrioClass.precise.tolerance)
    (hlisted : Listed t x a timer asked') : timer.tolerance = PrioClass.precise.tolerance := by
  cases hlisted with
  | kept hmem => exact htolerance hmem
  | armed _ => exact congrArg PrioClass.tolerance (h rfl).1
  | @expired s asked now rest hlist _ _ =>
    refine htolerance ?_
    change t ∈ s.list
    rw [hlist]
    exact List.mem_cons_self

/-- The schedule of a precise timer is never moved. -/
theorem precise_never_moved {t : ι} {s : TimerCtx ι} {asked : ι → Asked}
    (h : timeline.Reached (ArmedPrecise t) (s, asked)) (hmem : t ∈ s.list) :
    (s.alarm t).ns = (asked t).nominal (s.timer t).period := by
  have hinv := h.invariant (I := fun x => Punctual t x ∧
    (t ∈ x.1.list → (x.1.timer t).tolerance = PrioClass.precise.tolerance)) ?_ ?_
  · have hschedule : OnSchedule (s.timer t) (asked t) := hinv.1.scheduled hmem
    have htolerance : (s.timer t).tolerance = PrioClass.precise.tolerance := hinv.2 hmem
    have hzero : PrioClass.precise.tolerance.ns = 0 := rfl
    unfold OnSchedule Within at hschedule
    rw [htolerance, hzero, Nat.add_zero] at hschedule
    exact le_antisymm hschedule.2 hschedule.1
  · rintro ⟨s, asked⟩ ⟨hlist, hlinked⟩
    have hempty : t ∉ s.list := by
      rw [show s.list = [] from hlist]
      exact List.not_mem_nil
    exact ⟨⟨.of_empty hlist hlinked, fun hmem => absurd hmem hempty⟩,
      fun hmem => absurd hmem hempty⟩
  · rintro ⟨s, asked⟩ a ⟨s', asked'⟩ ⟨hpunctual, htolerance⟩ hguard hstep
    obtain ⟨hvalid, hlisted⟩ := timeline_step hpunctual.valid hguard.callersInit hstep
    have hundrifted := hguard.undrifted htolerance
    exact ⟨⟨hvalid, fun hmem => hpunctual.listed hundrifted (hlisted hmem)⟩,
      fun hmem => hguard.listed htolerance (hlisted hmem)⟩

/-! ## The alarm of the k-th expiry -/

/-- While coalescing moves a timer within the tolerance of its schedule only, its alarm after `k`
expiries is `k` periods after the first, and by the tolerance later at most. -/
theorem alarm_on_schedule (t : ι) (s : TimerCtx ι) (asked : ι → Asked)
    (h : timeline.Reached (Undrifted t) (s, asked)) (hmem : t ∈ s.list) :
    (asked t).first.ns + (asked t).expiries * (s.timer t).period.ns ≤ (s.alarm t).ns ∧
      (s.alarm t).ns ≤
        (asked t).first.ns + (asked t).expiries * (s.timer t).period.ns +
          (s.timer t).tolerance.ns :=
  (punctual_of_reached h).scheduled hmem

end

/-- A neighbour at 10.9 s, and a low-power timer for every 10 s. -/
def neighbours : TimerCtx Bool :=
  (blankCtx.apply (.arm true .precise (some ⟨10, 900000000⟩) none)).apply
    (.arm false .lowpower (some ⟨10, 0⟩) (some ⟨10, 0⟩))

/-- The low-power timer has expired. -/
def expiredOnce : TimerCtx Bool := (neighbours.listFetch ⟨11, 0⟩).2.reinsert false

/-- The neighbour is armed anew for 31.8 s, and the low-power timer expires again. -/
def expiredTwice : TimerCtx Bool :=
  (((expiredOnce.apply (.cancel true)).apply
    (.arm true .precise (some ⟨31, 800000000⟩) none)).listFetch ⟨21, 0⟩).2.reinsert false

def askedFor (expiries : Nat) : Bool → Asked
  | false => ⟨⟨10, 0⟩, expiries⟩
  | true => ⟨⟨10, 900000000⟩, 0⟩

theorem neighbours_reached : timeline.Reached (Undrifted false) (neighbours, askedFor 0) := by
  have hblank : timeline.Reached (Undrifted false) (blankCtx, askedFor 0) :=
    .init ⟨rfl, fun _ => rfl⟩
  have hfirst : timeline.Reached (Undrifted false)
      (blankCtx.apply (.arm true .precise (some ⟨10, 900000000⟩) none), askedFor 0) := by
    refine .step (a := .op (.arm true .precise (some ⟨10, 900000000⟩) none)) hblank ?_ ⟨rfl, ?_⟩
    · exact fun h => nomatch h
    · funext t
      cases t <;> rfl
  refine .step (a := .op (.arm false .lowpower (some ⟨10, 0⟩) (some ⟨10, 0⟩))) hfirst ?_ ⟨rfl, ?_⟩
  · exact fun _ _ => movesWithin_of_nominal _ _ _ (by decide : (0 : Nat) < nsecPerSec)
  · funext t
    cases t <;> rfl

theorem expiredOnce_reached :
    timeline.Reached (Undrifted false) (expiredOnce, askedFor 1) := by
  refine .step (a := .expire ⟨11, 0⟩) neighbours_reached ?_ ⟨false, _, rfl, rfl, ?_⟩
  · intro rest hlist _ _ next hnext
    cases hlist
    cases hnext
  · funext t
    cases t <;> rfl

theorem alarm_on_schedule_expiredOnce :
    (askedFor 1 false).first.ns + (askedFor 1 false).expiries *
        (expiredOnce.timer false).period.ns ≤ (expiredOnce.alarm false).ns ∧
      (expiredOnce.alarm false).ns ≤
        (askedFor 1 false).first.ns + (askedFor 1 false).expiries *
          (expiredOnce.timer false).period.ns + (expiredOnce.timer false).tolerance.ns :=
  alarm_on_schedule false expiredOnce (askedFor 1) expiredOnce_reached (by decide)

/-- After two expiries the low-power timer stands 1.8 s after its schedule. -/
theorem lowpower_drifts :
    ∃ (s : TimerCtx Bool) (asked : Bool → Asked),
      timeline.Reached CallersInit (s, asked) ∧ false ∈ s.list ∧
        (s.timer false).period = ⟨10, 0⟩ ∧ (s.timer false).tolerance = ⟨1, 0⟩ ∧
        asked false = ⟨⟨10, 0⟩, 2⟩ ∧
        ¬(s.alarm false).ns ≤ (asked false).first.ns +
          (asked false).expiries * (s.timer false).period.ns + (s.timer false).tolerance.ns := by
  refine ⟨expiredTwice, Function.update (Function.update (askedFor 1) true
    ⟨⟨31, 800000000⟩, 0⟩) false ⟨⟨10, 0⟩, 2⟩, ?_, by decide, by decide, by decide, rfl, by decide⟩
  have honce : timeline.Reached CallersInit (expiredOnce, askedFor 1) :=
    expiredOnce_reached.mono fun _ _ hguard => hguard.callersInit
  have hcancelled : timeline.Reached CallersInit
      (expiredOnce.apply (.cancel true), askedFor 1) :=
    .step (a := .op (.cancel true)) honce trivial ⟨rfl, rfl⟩
  have harmed : timeline.Reached CallersInit
      ((expiredOnce.apply (.cancel true)).apply
        (.arm true .precise (some ⟨31, 800000000⟩) none),
        Function.update (askedFor 1) true ⟨⟨31, 800000000⟩, 0⟩) :=
    .step (a := .op (.arm true .precise (some ⟨31, 800000000⟩) none)) hcancelled trivial
      ⟨rfl, rfl⟩
  exact .step (a := .expire ⟨21, 0⟩) harmed trivial ⟨false, _, rfl, rfl, rfl⟩

end Sidewalk.Timer
