import Sidewalk.Timer.Release

/-!
# The kernel timer

Outside the event callback the kernel timer is programmed no later than the first alarm. The end
of the event callback reads the first alarm in one region and programs the kernel timer after it,
so that an insertion between them has to be of an alarm that is not earlier.
-/

namespace Sidewalk.Timer

open Lib Function

section

variable {ι κ : Type} [DecidableEq ι] [DecidableEq κ] {time : SidTimeOps}

/-- The alarm that an insertion gives to a timer at the head of the list is the own alarm of the
timer, or that of the first listed timer if this is within the tolerance. -/
def Coalesces (time : SidTimeOps) (s : TimerCtx ι) (t : ι) : Prop :=
  ∃ first rest, s.list = first :: rest ∧ s.alarm t < s.alarm first ∧
    ¬sidTimeGt (time.sub (s.alarm first) (s.alarm t)) (s.timer t).tolerance = true

/-- While the event callback is about to program the kernel timer, a timer is inserted only with
an alarm that is not earlier than the time that was read. -/
def InTime (time : SidTimeOps) (w : World ι κ) : Act ι κ → Prop
  | .armNext k => ∀ t schedule, w.client k = .armInsert t → w.event = .start schedule →
      schedule ≤ w.ctx.alarm t ∨ Coalesces time w.ctx t
  | _ => True

/-- What holds of the programmed time. -/
structure Programmed (w : World ι κ) : Prop where
  idle : w.event = .idle → ∀ t ∈ w.ctx.list,
    ∃ at', w.ctx.programmed = some at' ∧ at' ≤ w.ctx.alarm t
  start : ∀ schedule, w.event = .start schedule → ∀ t ∈ w.ctx.list, schedule ≤ w.ctx.alarm t

/-! ## One step -/

namespace TimerCtx

variable {s : TimerCtx ι} {t : ι}

omit [DecidableEq ι] in
/-- The first alarm is not later than any other. -/
theorem Valid.listGetNextSchedule_le (h : s.Valid) {u : ι} (hu : u ∈ s.list) :
    s.listGetNextSchedule ≤ s.alarm u := by
  have hsorted := h.sorted
  unfold listGetNextSchedule
  split
  · rename_i hnil
    rw [hnil] at hu
    cases hu
  · rename_i first rest hlist
    rw [hlist] at hu hsorted
    rcases List.mem_cons.mp hu with rfl | hu
    · exact le_refl _
    · exact (List.pairwise_cons.mp hsorted).1 u hu

theorem alarm_listInsertWith_of_ne {u : ι} (hu : u ≠ t) :
    (s.listInsertWith time t).alarm u = s.alarm u := by
  obtain ⟨l', alarm', required', -, -, heq⟩ := s.listInsertWith_eq time t
  rw [heq]
  unfold TimerCtx.alarm
  exact congrArg TimerImpl.alarm (update_of_ne hu _ _)

/-- A bound of the listed alarms that the kernel timer meets still is one after an insertion,
which programs the kernel timer if the timer comes first. -/
theorem Valid.programmed_listInsertWith (h : s.Valid) (hmem : t ∉ s.list)
    (hprogrammed : ∀ u ∈ s.list, ∃ at', s.programmed = some at' ∧ at' ≤ s.alarm u) {u : ι}
    (hu : u ∈ (s.listInsertWith time t).list) :
    ∃ at', (s.listInsertWith time t).programmed = some at' ∧
      at' ≤ (s.listInsertWith time t).alarm u := by
  have hvalid := h.listInsertWith time hmem
  have hother (v : ι) (hv : v ∈ s.list) : (s.listInsertWith time t).alarm v = s.alarm v :=
    alarm_listInsertWith_of_ne (ne_of_mem_of_not_mem hv hmem)
  obtain ⟨l', alarm', required', hins, -, heq⟩ := s.listInsertWith_eq time t
  have hself : (s.listInsertWith time t).alarm t = alarm' := by
    rw [heq]
    change (update s.timer t _ t).alarm = alarm'
    rw [update_self]
  cases required' with
  | true =>
    obtain ⟨-, -, hlist⟩ := hins.started rfl
    refine ⟨alarm', by rw [heq]; rfl, ?_⟩
    have hfirst := hvalid.listGetNextSchedule_le hu
    rw [show (s.listInsertWith time t).listGetNextSchedule = (s.listInsertWith time t).alarm t by
      rw [heq, hlist]; rfl, hself] at hfirst
    exact hfirst
  | false =>
    have hkept : (s.listInsertWith time t).programmed = s.programmed := by
      rw [heq]
      rfl
    rw [hkept]
    rcases mem_listInsertWith.mp hu with rfl | hu
    · -- A listed timer is due no later, and the kernel timer no later than that one.
      obtain hfalse | ⟨e, he, hle⟩ := hins.skipped rfl
      · cases hfalse
      · obtain ⟨at', hat, hbound⟩ := hprogrammed e he
        exact ⟨at', hat, hself ▸ hbound.trans hle⟩
    · rw [hother u hu]
      exact hprogrammed u hu

/-- The alarm after the insertion is not earlier than before; if the timer coalesces with the
first listed one, it is the alarm of that one. -/
theorem le_alarm_listInsertWith (time : SidTimeOps) (s : TimerCtx ι) (t : ι) :
    s.alarm t ≤ (s.listInsertWith time t).alarm t ∧
      (Coalesces time s t → s.listGetNextSchedule = (s.listInsertWith time t).alarm t) := by
  refine ⟨?_, ?_⟩
  · obtain ⟨l', alarm', required', hins, -, heq⟩ := s.listInsertWith_eq time t
    rw [heq]
    unfold TimerCtx.alarm
    change _ ≤ (update s.timer t _ t).alarm
    rw [update_self]
    exact hins.later
  · rintro ⟨first, rest, hlist, hlt, hdiff⟩
    have hgo : insertGoWith time s.alarm t (s.timer t).tolerance (s.alarm t) true s.list =
        (t :: s.list, s.alarm first, false) := by
      rw [hlist]
      unfold insertGoWith
      rw [if_pos (sidTimeGt_iff.mpr hlt), if_pos hdiff]
    unfold listInsertWith TimerCtx.listGetNextSchedule
    rw [hgo, hlist]
    unfold TimerCtx.alarm
    simp

end TimerCtx

omit [DecidableEq ι] in
/-- A step of a context that lists no timer and keeps the listed alarms. -/
theorem Programmed.put {w : World ι κ} {k : κ} {pc : ClientPc ι} {ctx : TimerCtx ι}
    (h : Programmed w) (hlist : ∀ u ∈ ctx.list, u ∈ w.ctx.list)
    (halarm : ∀ u ∈ ctx.list, ctx.alarm u = w.ctx.alarm u)
    (hprogrammed : ctx.programmed = w.ctx.programmed) : Programmed (w.put k pc ctx) := by
  refine ⟨?_, ?_⟩
  · intro hevent t ht
    rw [World.put_ctx, hprogrammed, halarm t ht]
    exact h.idle hevent t (hlist t ht)
  · intro schedule hevent t ht
    rw [World.put_ctx, halarm t ht]
    exact h.start schedule hevent t (hlist t ht)

omit [DecidableEq κ] in
theorem Programmed.setReleased {w : World ι κ} (h : Programmed w) (t : ι) (released : Bool) :
    Programmed (w.setReleased t released) := ⟨h.idle, h.start⟩

/-- A change of a field of a timer that is not listed. -/
theorem Programmed.putField {w : World ι κ} {k : κ} {pc : ClientPc ι} {t : ι}
    {f : TimerImpl → TimerImpl} (h : Programmed w)
    (halarm : t ∉ w.ctx.list ∨ (f (w.ctx.timer t)).alarm = (w.ctx.timer t).alarm) :
    Programmed (w.put k pc (w.ctx.modify t f)) := by
  refine h.put (fun u hu => hu) ?_ rfl
  intro u hu
  unfold TimerCtx.alarm
  by_cases hut : u = t
  · subst hut
    rw [TimerCtx.modify_timer_self]
    exact halarm.resolve_left fun hmem => hmem hu
  · rw [TimerCtx.modify_timer_of_ne f hut]

theorem Programmed.putDelete {w : World ι κ} {k : κ} {pc : ClientPc ι} {t : ι}
    (h : Programmed w) (hvalid : w.ctx.Valid) :
    Programmed (w.put k pc (w.ctx.listDelete t)) := by
  refine h.put (fun u hu => (hvalid.mem_listDelete.mp hu).2) ?_ ?_
  · intro u _
    exact (w.ctx.listDelete_timer t u).2.2
  · unfold TimerCtx.listDelete
    split <;> rfl

omit [DecidableEq ι] [DecidableEq κ] in
/-- The event callback moves on inside the loop. -/
theorem Programmed.moveEvent {w : World ι κ} {event : EventPc ι} {ctx : TimerCtx ι}
    (hidle : event ≠ .idle) (hstart : ∀ schedule, event ≠ .start schedule) :
    Programmed (w.moveEvent event ctx) :=
  ⟨fun h => absurd h hidle, fun schedule h => absurd h (hstart schedule)⟩

/-- Steps whose insertions are in time keep the kernel timer no later than the first alarm. -/
theorem Programmed.step {w w' : World ι κ} {a : Act ι κ} (h : Programmed w) (hexcl : Exclusive w)
    (hguard : InTime time w a) (hstep : Step time w a w') : Programmed w' := by
  have hunlisted {k : κ} {pc : ClientPc ι} {t : ι} (hpc : w.client k = pc)
      (ht : pc.arming = some t) : t ∉ w.ctx.list := by
    refine hexcl.unlisted k t ?_
    rw [hpc]
    exact ht
  cases hstep with
  | armRefused => exact h.setReleased _ _
  | armCheck => exact (h.put (fun u hu => hu) (fun u _ => rfl) rfl).setReleased _ _
  | armAlarm hpc => exact h.putField (.inl (hunlisted hpc rfl))
  | armPeriod hpc => exact h.putField (.inl (hunlisted hpc rfl))
  | armTolerance hpc => exact h.putField (.inl (hunlisted hpc rfl))
  | @armInsert k t hpc =>
    have hmem := hunlisted hpc rfl
    refine Programmed.setReleased ⟨?_, ?_⟩ _ _
    · intro hevent u hu
      exact hexcl.valid.programmed_listInsertWith hmem (h.idle hevent) hu
    · intro schedule hevent u hu
      have hbound := h.start schedule hevent
      rcases TimerCtx.mem_listInsertWith.mp hu with rfl | hu
      · obtain ⟨hlater, hcoalesces⟩ := w.ctx.le_alarm_listInsertWith time u
        rcases hguard u schedule hpc hevent with hle | hco
        · exact hle.trans hlater
        · rw [World.put_ctx, ← hcoalesces hco]
          obtain ⟨first, rest, hlist, -, -⟩ := hco
          have hfirst := hbound first (by rw [hlist]; exact List.mem_cons_self)
          unfold TimerCtx.listGetNextSchedule
          rw [hlist]
          exact hfirst
      · rw [World.put_ctx, TimerCtx.alarm_listInsertWith_of_ne (ne_of_mem_of_not_mem hu hmem)]
        exact hbound u hu
  | cancel => exact (h.putDelete hexcl.valid).setReleased _ _
  | deinitDelete => exact h.putDelete hexcl.valid
  | deinitClear => exact (h.putField (.inr rfl)).setReleased _ _
  | eventEnter => exact .moveEvent nofun nofun
  | fetchNone => exact .moveEvent nofun nofun
  | fetchSome => exact .moveEvent nofun nofun
  | period => exact .moveEvent (by split <;> nofun) (by intro _; split <;> nofun)
  | add => exact .moveEvent nofun nofun
  | insert => exact .moveEvent nofun nofun
  | check => exact .moveEvent (by split <;> nofun) (by intro _; split <;> nofun)
  | call => exact .moveEvent nofun nofun
  | getNextSchedule =>
    refine ⟨nofun, ?_⟩
    rintro schedule hevent t ht
    cases hevent
    exact hexcl.valid.listGetNextSchedule_le ht
  | start hevent =>
    refine ⟨?_, nofun⟩
    intro _ t ht
    exact ⟨_, rfl, h.start _ hevent t ht⟩

/-- In every run whose timers are in one hand and whose insertions are in time, the kernel timer
is programmed no later than the first alarm when no event callback is in progress. -/
theorem programmed_in_time (time : SidTimeOps) (w : World ι κ)
    (h : (interleaved time).Reached (fun w a => ArmAlone w a ∧ InTime time w a) w)
    (hidle : w.event = .idle)
    (first : ι) (rest : List ι) (hlist : w.ctx.list = first :: rest) :
    ∃ at', w.ctx.programmed = some at' ∧ at' ≤ w.ctx.alarm first := by
  have hinv : Exclusive w ∧ Programmed w := by
    refine System.Reached.invariant (I := fun w => Exclusive w ∧ Programmed w) ?_ ?_ h
    · intro w hinit
      refine ⟨.of_init hinit, ⟨?_, ?_⟩⟩
      · intro _ t ht
        rw [hinit.1] at ht
        cases ht
      · intro _ hevent
        rw [hinit.2.2.1] at hevent
        cases hevent
    · rintro w a w' ⟨hexcl, hprogrammed⟩ ⟨harm, hinTime⟩ hstep
      exact ⟨hexcl.step harm hstep, hprogrammed.step hexcl hinTime hstep⟩
  refine hinv.2.idle hidle first ?_
  rw [hlist]
  exact List.mem_cons_self

end

/-! ## An alarm that is overtaken -/

/-- The timer was armed for the time of 5 s. -/
theorem programmed_in_time_oneArmed :
    ∃ time, (oneArmed ⟨10, 0⟩).ctx.programmed = some time ∧
      time ≤ (oneArmed ⟨10, 0⟩).ctx.alarm () := by
  refine programmed_in_time wrappingTime (oneArmed ⟨10, 0⟩)
    (oneArmed_reached ⟨10, 0⟩ ?_ ?_) rfl () [] rfl
  · exact ⟨oneTimer_armAlone _ _ _, trivial⟩
  · intro pc timer
    exact ⟨trivial, fun _ _ _ => nofun⟩

/-- A timer is armed while the event callback, which found the list empty, is about to program
the kernel timer. -/
theorem programmed_late :
    ¬∀ w : World Unit Unit, (interleaved wrappingTime).Reachable w → w.event = .idle →
      ∀ first rest, w.ctx.list = first :: rest →
        ∃ at', w.ctx.programmed = some at' ∧ at' ≤ w.ctx.alarm first := by
  intro h
  have henter : (interleaved wrappingTime).Reachable (single (.fetch ⟨1, 0⟩) .idle false []
      ⟨sidTimeInfinity, sidTimeInfinity, ⟨0, 0⟩, true, false⟩ none) :=
    reached_next (.init oneTimer_init) trivial (.eventEnter rfl) rfl
  have hfetch : (interleaved wrappingTime).Reachable (single .getNextSchedule .idle false []
      ⟨sidTimeInfinity, sidTimeInfinity, ⟨0, 0⟩, true, false⟩ none) :=
    reached_next henter trivial (.fetchNone rfl rfl) rfl
  have hread : (interleaved wrappingTime).Reachable (single (.start sidTimeInfinity) .idle false []
      ⟨sidTimeInfinity, sidTimeInfinity, ⟨0, 0⟩, true, false⟩ none) :=
    reached_next hfetch trivial (.getNextSchedule rfl) rfl
  have hcheck : (interleaved wrappingTime).Reachable (single (.start sidTimeInfinity)
      (.armAlarm () .precise ⟨5, 0⟩ sidTimeInfinity) false []
      ⟨sidTimeInfinity, sidTimeInfinity, ⟨0, 0⟩, true, false⟩ none) :=
    reached_next (a := .armCheck () () .precise ⟨5, 0⟩ none) hread trivial (.armCheck rfl rfl) rfl
  have halarm : (interleaved wrappingTime).Reachable (single (.start sidTimeInfinity)
      (.armPeriod () .precise sidTimeInfinity) false []
      ⟨⟨5, 0⟩, sidTimeInfinity, ⟨0, 0⟩, true, false⟩ none) :=
    reached_next hcheck trivial (.armAlarm (k := ()) rfl) rfl
  have hperiod : (interleaved wrappingTime).Reachable (single (.start sidTimeInfinity)
      (.armTolerance () .precise) false [] ⟨⟨5, 0⟩, sidTimeInfinity, ⟨0, 0⟩, true, false⟩ none) :=
    reached_next halarm trivial (.armPeriod (k := ()) rfl) rfl
  have htolerance : (interleaved wrappingTime).Reachable (single (.start sidTimeInfinity)
      (.armInsert ()) false [] ⟨⟨5, 0⟩, sidTimeInfinity, ⟨0, 0⟩, true, false⟩ none) :=
    reached_next hperiod trivial (.armTolerance (k := ()) rfl) rfl
  have hinsert : (interleaved wrappingTime).Reachable (single (.start sidTimeInfinity) .idle
      false [()] ⟨⟨5, 0⟩, sidTimeInfinity, ⟨0, 0⟩, true, true⟩ (some ⟨5, 0⟩)) :=
    reached_next htolerance trivial (.armInsert (k := ()) rfl) rfl
  have hstart : (interleaved wrappingTime).Reachable (single .idle .idle false [()]
      ⟨⟨5, 0⟩, sidTimeInfinity, ⟨0, 0⟩, true, true⟩ (some sidTimeInfinity)) :=
    reached_next hinsert trivial (.start rfl) rfl
  obtain ⟨time, htime, hle⟩ := h _ hstart rfl () [] rfl
  cases htime
  exact absurd (not_sidTimeGt_iff.mpr hle) (by decide)

end Sidewalk.Timer
