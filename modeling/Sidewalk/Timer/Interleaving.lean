import Sidewalk.Timer.Sequential

/-!
# Calls that interleave with the expiry loop

Each critical region of `sid_timer.c` and each statement between them is a step. Any number of
contexts arm, cancel and deinitialise timers while one event callback runs; the calls that a
timer's callback makes are those of one more context. The arithmetic is any: which timers are in
whose hands does not depend on it.
-/

namespace Sidewalk.Timer

open Lib Function

/-! ## Steps -/

/-- Where a context stands in a call. -/
inductive ClientPc (ι : Type)
  | idle
  /-- In `sid_pal_timer_arm`, past the check and before the assignment of the field. -/
  | armAlarm (t : ι) (type : PrioClass) (when' period : SidTimespec)
  | armPeriod (t : ι) (type : PrioClass) (period : SidTimespec)
  | armTolerance (t : ι) (type : PrioClass)
  | armInsert (t : ι)
  /-- In `sid_pal_timer_deinit`, past the deletion. -/
  | deinitCallback (t : ι)

/-- Where the event callback stands. -/
inductive EventPc (ι : Type)
  | idle
  | fetch (now : SidTimespec)
  /-- A timer was fetched; its period is about to be looked at. -/
  | period (now : SidTimespec) (t : ι)
  | add (now : SidTimespec) (t : ι)
  | insert (now : SidTimespec) (t : ι)
  /-- Its callback is about to be looked at. -/
  | check (now : SidTimespec) (t : ι)
  /-- Its callback is about to be started. -/
  | call (now : SidTimespec) (t : ι)
  | getNextSchedule
  | start (schedule : SidTimespec)

structure World (ι κ : Type) where
  ctx : TimerCtx ι
  event : EventPc ι
  client : κ → ClientPc ι
  /-- Whether a cancellation of the timer has returned and it was not armed since. -/
  released : ι → Bool

inductive Act (ι κ : Type)
  | armCheck (k : κ) (t : ι) (type : PrioClass) (when' : SidTimespec)
      (period : Option SidTimespec)
  | armNext (k : κ)
  | cancel (k : κ) (t : ι)
  | deinitDelete (k : κ) (t : ι)
  | deinitClear (k : κ)
  | eventEnter (now : SidTimespec)
  | eventNext

section

variable {ι κ : Type} [DecidableEq ι] [DecidableEq κ] {time : SidTimeOps}

/-- A context moves on, having changed the timers. -/
def World.put (w : World ι κ) (k : κ) (pc : ClientPc ι) (ctx : TimerCtx ι) : World ι κ :=
  { w with ctx := ctx, client := update w.client k pc }

/-- The event callback moves on, having changed the timers. -/
def World.moveEvent (w : World ι κ) (event : EventPc ι) (ctx : TimerCtx ι) : World ι κ :=
  { w with ctx := ctx, event := event }

def World.setReleased (w : World ι κ) (t : ι) (released : Bool) : World ι κ :=
  { w with released := update w.released t released }

section

variable (w : World ι κ)

omit [DecidableEq ι] in
@[simp] theorem World.put_ctx (k : κ) (pc : ClientPc ι) (ctx : TimerCtx ι) :
    (w.put k pc ctx).ctx = ctx := rfl

omit [DecidableEq ι] in
@[simp] theorem World.put_event (k : κ) (pc : ClientPc ι) (ctx : TimerCtx ι) :
    (w.put k pc ctx).event = w.event := rfl

omit [DecidableEq κ] in
@[simp] theorem World.setReleased_ctx (t : ι) (released : Bool) :
    (w.setReleased t released).ctx = w.ctx := rfl

omit [DecidableEq κ] in
@[simp] theorem World.setReleased_event (t : ι) (released : Bool) :
    (w.setReleased t released).event = w.event := rfl

omit [DecidableEq ι] [DecidableEq κ] in
@[simp] theorem World.moveEvent_ctx (event : EventPc ι) (ctx : TimerCtx ι) :
    (w.moveEvent event ctx).ctx = ctx := rfl

omit [DecidableEq ι] [DecidableEq κ] in
@[simp] theorem World.moveEvent_event (event : EventPc ι) (ctx : TimerCtx ι) :
    (w.moveEvent event ctx).event = event := rfl

end

inductive Step (time : SidTimeOps) : World ι κ → Act ι κ → World ι κ → Prop
  | armRefused {w k t type when' period} : w.client k = .idle → w.ctx.isArmed t = true →
      Step time w (.armCheck k t type when' period) (w.setReleased t false)
  | armCheck {w k t type when' period} : w.client k = .idle → w.ctx.isArmed t = false →
      Step time w (.armCheck k t type when' period)
        ((w.put k (.armAlarm t type when' (period.getD sidTimeInfinity)) w.ctx).setReleased t
          false)
  | armAlarm {w k t type when' period} : w.client k = .armAlarm t type when' period →
      Step time w (.armNext k) (w.put k (.armPeriod t type period)
        (w.ctx.modify t fun timer => { timer with alarm := when' }))
  | armPeriod {w k t type period} : w.client k = .armPeriod t type period →
      Step time w (.armNext k) (w.put k (.armTolerance t type)
        (w.ctx.modify t fun timer => { timer with period := period }))
  | armTolerance {w k t type} : w.client k = .armTolerance t type →
      Step time w (.armNext k) (w.put k (.armInsert t)
        (w.ctx.modify t fun timer => { timer with tolerance := type.tolerance }))
  | armInsert {w k t} : w.client k = .armInsert t →
      Step time w (.armNext k) ((w.put k .idle (w.ctx.listInsertWith time t)).setReleased t false)
  | cancel {w k t} : w.client k = .idle →
      Step time w (.cancel k t) ((w.put k .idle (w.ctx.listDelete t)).setReleased t true)
  | deinitDelete {w k t} : w.client k = .idle →
      Step time w (.deinitDelete k t) (w.put k (.deinitCallback t) (w.ctx.listDelete t))
  | deinitClear {w k t} : w.client k = .deinitCallback t →
      Step time w (.deinitClear k) ((w.put k .idle
        (w.ctx.modify t fun timer => { timer with callback := false })).setReleased t true)
  | eventEnter {w now} : w.event = .idle →
      Step time w (.eventEnter now) (w.moveEvent (.fetch now) w.ctx)
  | fetchNone {w now} : w.event = .fetch now → (w.ctx.listFetch now).1 = none →
      Step time w .eventNext (w.moveEvent .getNextSchedule (w.ctx.listFetch now).2)
  | fetchSome {w now t} : w.event = .fetch now → (w.ctx.listFetch now).1 = some t →
      Step time w .eventNext (w.moveEvent (.period now t) (w.ctx.listFetch now).2)
  | period {w now t} : w.event = .period now t →
      Step time w .eventNext (w.moveEvent
        (if sidTimeIsInfinity (w.ctx.timer t).period = true then .check now t else .add now t)
        w.ctx)
  | add {w now t} : w.event = .add now t →
      Step time w .eventNext (w.moveEvent (.insert now t)
        (w.ctx.modify t fun timer => { timer with alarm := time.add timer.alarm timer.period }))
  | insert {w now t} : w.event = .insert now t →
      Step time w .eventNext (w.moveEvent (.check now t) (w.ctx.listInsertWith time t))
  | check {w now t} : w.event = .check now t →
      Step time w .eventNext (w.moveEvent
        (if (w.ctx.timer t).callback = true then .call now t else .fetch now) w.ctx)
  | call {w now t} : w.event = .call now t → Step time w .eventNext (w.moveEvent (.fetch now) w.ctx)
  | getNextSchedule {w} : w.event = .getNextSchedule →
      Step time w .eventNext (w.moveEvent (.start w.ctx.listGetNextSchedule) w.ctx)
  | start {w schedule} : w.event = .start schedule →
      Step time w .eventNext (w.moveEvent .idle (w.ctx.sidTimerStart schedule))

/-- The contexts and the event callback, from the empty list, over an arithmetic. -/
def interleaved (time : SidTimeOps) : System (World ι κ) (Act ι κ) where
  init w := w.ctx.list = [] ∧ (∀ t, (w.ctx.timer t).linked = false) ∧ w.event = .idle ∧
    (∀ k, w.client k = .idle) ∧ ∀ t, w.released t = false
  step := Step time

/-! ## Who has a timer in hand -/

/-- The timer that a context arms, from its check to the insertion. -/
def ClientPc.arming : ClientPc ι → Option ι
  | .armAlarm t _ _ _ | .armPeriod t _ _ | .armTolerance t _ | .armInsert t => some t
  | .idle | .deinitCallback _ => none

/-- The period that a context is about to set. -/
def ClientPc.pendingPeriod : ClientPc ι → Option SidTimespec
  | .armAlarm _ _ _ period | .armPeriod _ _ period => some period
  | _ => none

/-- The event callback is about to put the timer back into the list. -/
def Reinserts (event : EventPc ι) (s : TimerCtx ι) (t : ι) : Prop :=
  match event with
  | .period _ u => u = t ∧ sidTimeIsInfinity (s.timer u).period = false
  | .add _ u | .insert _ u => u = t
  | _ => False

/-- The event callback is about to start the callback of the timer. -/
def Calls (event : EventPc ι) (s : TimerCtx ι) (t : ι) : Prop :=
  match event with
  | .period _ u | .add _ u | .insert _ u | .check _ u => u = t ∧ (s.timer u).callback = true
  | .call _ u => u = t
  | _ => False

/-- A timer passes the check of `sid_pal_timer_arm` only while nobody has it in hand: no other
context arms it, and the event callback is not about to put it back into the list. -/
def ArmAlone (w : World ι κ) : Act ι κ → Prop
  | .armCheck _ t _ _ period => w.ctx.isArmed t = false →
      (∀ j, (w.client j).arming ≠ some t) ∧ ¬Reinserts w.event w.ctx t ∧
        ∀ now, w.event = .period now t →
          sidTimeIsInfinity (period.getD sidTimeInfinity) = true
  | _ => True

/-- What holds of the timers in hand. -/
structure Exclusive (w : World ι κ) : Prop where
  valid : w.ctx.Valid
  unlisted : ∀ k t, (w.client k).arming = some t → t ∉ w.ctx.list
  alone : ∀ j k t, (w.client j).arming = some t → (w.client k).arming = some t → j = k
  reinserts : ∀ t, Reinserts w.event w.ctx t →
    t ∉ w.ctx.list ∧ ∀ k, (w.client k).arming ≠ some t
  pending : ∀ now t k period, w.event = .period now t → (w.client k).arming = some t →
    (w.client k).pendingPeriod = some period → sidTimeIsInfinity period = true

/-! ## One step -/

namespace TimerCtx

variable {s : TimerCtx ι} {t : ι}

/-- The insertion changes the alarm and the node of the timer only. -/
theorem listInsertWith_timer (s : TimerCtx ι) (time : SidTimeOps) (t u : ι) :
    ((s.listInsertWith time t).timer u).period = (s.timer u).period ∧
      ((s.listInsertWith time t).timer u).callback = (s.timer u).callback := by
  obtain ⟨l', alarm', required', -, -, heq⟩ := s.listInsertWith_eq time t
  rw [heq]
  by_cases hu : u = t
  · subst hu
    simp
  · simp [update_of_ne hu]

theorem mem_listInsertWith {u : ι} : u ∈ (s.listInsertWith time t).list ↔ u = t ∨ u ∈ s.list := by
  obtain ⟨l', alarm', required', hins, -, heq⟩ := s.listInsertWith_eq time t
  rw [heq]
  exact hins.perm.mem_iff.trans List.mem_cons

/-- The deletion changes the node of the timer only. -/
theorem listDelete_timer (s : TimerCtx ι) (t u : ι) :
    ((s.listDelete t).timer u).period = (s.timer u).period ∧
      ((s.listDelete t).timer u).callback = (s.timer u).callback ∧
      (s.listDelete t).alarm u = s.alarm u := by
  unfold listDelete TimerCtx.alarm
  split
  · by_cases hu : u = t
    · subst hu
      simp [modify]
    · simp [modify, update_of_ne hu]
  · exact ⟨rfl, rfl, rfl⟩

theorem modify_period (f : TimerImpl → TimerImpl) (hf : (f (s.timer t)).period = (s.timer t).period)
    (u : ι) : ((s.modify t f).timer u).period = (s.timer u).period := by
  by_cases hu : u = t
  · rw [hu, modify_timer_self, hf]
  · rw [modify_timer_of_ne f hu]

theorem modify_callback (f : TimerImpl → TimerImpl)
    (hf : (f (s.timer t)).callback = true → (s.timer t).callback = true) (u : ι) :
    ((s.modify t f).timer u).callback = true → (s.timer u).callback = true := by
  by_cases hu : u = t
  · rw [hu, modify_timer_self]
    exact hf
  · rw [modify_timer_of_ne f hu]
    exact id

end TimerCtx

omit [DecidableEq ι] in
/-- Only the periods matter for what the event callback puts back. -/
theorem Reinserts.mono {event : EventPc ι} {s s' : TimerCtx ι} {t : ι}
    (hperiod : ∀ now u, event = .period now u →
      sidTimeIsInfinity (s'.timer u).period = false →
        sidTimeIsInfinity (s.timer u).period = false)
    (h : Reinserts event s' t) : Reinserts event s t := by
  cases event with
  | period now u => exact ⟨h.1, hperiod now u rfl h.2⟩
  | add now u => exact h
  | insert now u => exact h
  | _ => exact h.elim

omit [DecidableEq ι] in
/-- Callbacks are only ever removed from timers. -/
theorem Calls.mono {event : EventPc ι} {s s' : TimerCtx ι} {t : ι}
    (hcallback : ∀ u, (s'.timer u).callback = true → (s.timer u).callback = true)
    (h : Calls event s' t) : Calls event s t := by
  cases event with
  | period now u => exact ⟨h.1, hcallback u h.2⟩
  | add now u => exact ⟨h.1, hcallback u h.2⟩
  | insert now u => exact ⟨h.1, hcallback u h.2⟩
  | check now u => exact ⟨h.1, hcallback u h.2⟩
  | call now u => exact h
  | _ => exact h.elim

theorem Reinserts.of_modify {event : EventPc ι} {s : TimerCtx ι} {t u : ι}
    {f : TimerImpl → TimerImpl} (h : Reinserts event (s.modify u f) t)
    (hf : (f (s.timer u)).period = (s.timer u).period) : Reinserts event s t := by
  refine h.mono ?_
  intro _ v _ hv
  rwa [TimerCtx.modify_period f hf] at hv

theorem Reinserts.of_listInsertWith {event : EventPc ι} {s : TimerCtx ι} {t u : ι}
    (h : Reinserts event (s.listInsertWith time u) t) : Reinserts event s t := by
  refine h.mono ?_
  intro _ v _ hv
  rwa [(s.listInsertWith_timer time u v).1] at hv

theorem Reinserts.of_listDelete {event : EventPc ι} {s : TimerCtx ι} {t u : ι}
    (h : Reinserts event (s.listDelete u) t) : Reinserts event s t := by
  refine h.mono ?_
  intro _ v _ hv
  rwa [(s.listDelete_timer u v).1] at hv

theorem Calls.of_modify {event : EventPc ι} {s : TimerCtx ι} {t u : ι}
    {f : TimerImpl → TimerImpl} (h : Calls event (s.modify u f) t)
    (hf : (f (s.timer u)).callback = true → (s.timer u).callback = true) : Calls event s t :=
  h.mono (TimerCtx.modify_callback f hf)

theorem Calls.of_listInsertWith {event : EventPc ι} {s : TimerCtx ι} {t u : ι}
    (h : Calls event (s.listInsertWith time u) t) : Calls event s t := by
  refine h.mono ?_
  intro v hv
  rwa [(s.listInsertWith_timer time u v).2] at hv

theorem Calls.of_listDelete {event : EventPc ι} {s : TimerCtx ι} {t u : ι}
    (h : Calls event (s.listDelete u) t) : Calls event s t := by
  refine h.mono ?_
  intro v hv
  rwa [(s.listDelete_timer u v).2.1] at hv

omit [DecidableEq ι] in
/-- A context moves on: it takes no further timer, and may put the one that it arms into the
list. -/
theorem Exclusive.put {w : World ι κ} {k : κ} {pc : ClientPc ι} {ctx : TimerCtx ι}
    (h : Exclusive w) (hvalid : ctx.Valid)
    (harming : ∀ t, pc.arming = some t → (w.client k).arming = some t)
    (hpending : ∀ period, pc.pendingPeriod = some period →
      (w.client k).pendingPeriod = some period)
    (hlist : ∀ u ∈ ctx.list, u ∈ w.ctx.list ∨ ((w.client k).arming = some u ∧ pc.arming = none))
    (hreinserts : ∀ u, Reinserts w.event ctx u → Reinserts w.event w.ctx u) :
    Exclusive (w.put k pc ctx) := by
  have hclient (j : κ) (t : ι) (hj : (update w.client k pc j).arming = some t) :
      (w.client j).arming = some t := by
    by_cases hjk : j = k
    · subst hjk
      rw [update_self] at hj
      exact harming t hj
    · rwa [update_of_ne hjk] at hj
  refine ⟨hvalid, ?_, ?_, ?_, ?_⟩
  · intro j t hj hmem
    rcases hlist t hmem with hold | ⟨hk, hnone⟩
    · exact h.unlisted j t (hclient j t hj) hold
    · have hjk := h.alone j k t (hclient j t hj) hk
      subst hjk
      change (update w.client j pc j).arming = some t at hj
      rw [update_self, hnone] at hj
      cases hj
  · intro i j t hi hj
    exact h.alone i j t (hclient i t hi) (hclient j t hj)
  · intro t ht
    obtain ⟨hunlisted, hfree⟩ := h.reinserts t (hreinserts t ht)
    refine ⟨?_, fun j hj => hfree j (hclient j t hj)⟩
    intro hmem
    rcases hlist t hmem with hold | ⟨hk, -⟩
    · exact hunlisted hold
    · exact hfree k hk
  · intro now t j period hevent hj hperiod
    refine h.pending now t j period hevent (hclient j t hj) ?_
    change (update w.client k pc j).pendingPeriod = some period at hperiod
    by_cases hjk : j = k
    · subst hjk
      rw [update_self] at hperiod
      exact hpending period hperiod
    · rwa [update_of_ne hjk] at hperiod

omit [DecidableEq ι] [DecidableEq κ] in
/-- The event callback moves on: it takes a timer that nobody has in hand, or puts one into the
list that it has. -/
theorem Exclusive.moveEvent {w : World ι κ} {event : EventPc ι} {ctx : TimerCtx ι}
    (h : Exclusive w) (hvalid : ctx.Valid)
    (hlist : ∀ u ∈ ctx.list, u ∈ w.ctx.list ∨ Reinserts w.event w.ctx u)
    (hreinserts : ∀ u, Reinserts event ctx u →
      u ∉ ctx.list ∧ ∀ k, (w.client k).arming ≠ some u)
    (hperiod : ∀ now t, event = .period now t → ∀ k, (w.client k).arming ≠ some t) :
    Exclusive (w.moveEvent event ctx) := by
  refine ⟨hvalid, ?_, h.alone, hreinserts, ?_⟩
  · intro k t hk hmem
    rcases hlist t hmem with hold | hown
    · exact h.unlisted k t hk hold
    · exact (h.reinserts t hown).2 k hk
  · intro now t k period hevent hk
    exact absurd hk (hperiod now t hevent k)

omit [DecidableEq κ] in
theorem Exclusive.setReleased {w : World ι κ} (h : Exclusive w) (t : ι) (released : Bool) :
    Exclusive (w.setReleased t released) :=
  ⟨h.valid, h.unlisted, h.alone, h.reinserts, h.pending⟩

omit [DecidableEq ι] in
/-- A context that passes the check of a timer that nobody has in hand. -/
theorem Exclusive.take {w : World ι κ} {k : κ} {t : ι} {type : PrioClass}
    {when' period : SidTimespec} (h : Exclusive w) (hidle : w.client k = .idle)
    (hunlisted : t ∉ w.ctx.list) (hfree : ∀ j, (w.client j).arming ≠ some t)
    (hreinserts : ¬Reinserts w.event w.ctx t)
    (hperiod : ∀ now, w.event = .period now t → sidTimeIsInfinity period = true) :
    Exclusive (w.put k (.armAlarm t type when' period) w.ctx) := by
  have hclient (j : κ) (u : ι) (hj : (update w.client k (.armAlarm t type when' period) j).arming =
      some u) : (j = k ∧ u = t) ∨ (w.client j).arming = some u := by
    by_cases hjk : j = k
    · subst hjk
      rw [update_self] at hj
      cases hj
      exact .inl ⟨rfl, rfl⟩
    · rw [update_of_ne hjk] at hj
      exact .inr hj
  refine ⟨h.valid, ?_, ?_, ?_, ?_⟩
  · intro j u hj
    rcases hclient j u hj with ⟨-, rfl⟩ | hold
    · exact hunlisted
    · exact h.unlisted j u hold
  · intro i j u hi hj
    rcases hclient i u hi with ⟨rfl, rfl⟩ | hi'
    · rcases hclient j u hj with ⟨rfl, -⟩ | hj
      · rfl
      · exact absurd hj (hfree j)
    · rcases hclient j u hj with ⟨-, rfl⟩ | hj
      · exact absurd hi' (hfree i)
      · exact h.alone i j u hi' hj
  · intro u hu
    obtain ⟨hout, hnone⟩ := h.reinserts u hu
    refine ⟨hout, ?_⟩
    intro j hj
    rcases hclient j u hj with ⟨-, rfl⟩ | hj
    · exact hreinserts hu
    · exact hnone j hj
  · intro now u j p hevent hj hp
    change (update w.client k _ j).pendingPeriod = some p at hp
    by_cases hjk : j = k
    · subst hjk
      rcases hclient j u hj with ⟨-, rfl⟩ | hold
      · rw [update_self] at hp
        cases hp
        exact hperiod now hevent
      · rw [hidle] at hold
        cases hold
    · rw [update_of_ne hjk] at hp
      rcases hclient j u hj with ⟨rfl, -⟩ | hold
      · exact absurd rfl hjk
      · exact h.pending now u j p hevent hold hp

/-- A change of one field of a timer that a context arms. -/
theorem Exclusive.putField {w : World ι κ} {k : κ} {t : ι} {pc : ClientPc ι}
    {f : TimerImpl → TimerImpl} (h : Exclusive w) (hk : (w.client k).arming = some t)
    (hpc : pc.arming = some t)
    (hpending : ∀ period, pc.pendingPeriod = some period →
      (w.client k).pendingPeriod = some period)
    (hlinked : (f (w.ctx.timer t)).linked = (w.ctx.timer t).linked)
    (hperiod : ∀ now, w.event = .period now t →
      sidTimeIsInfinity (f (w.ctx.timer t)).period = false →
        sidTimeIsInfinity (w.ctx.timer t).period = false) :
    Exclusive (w.put k pc (w.ctx.modify t f)) := by
  refine h.put (h.valid.modify hlinked (.inr (h.unlisted k t hk))) ?_ hpending ?_ ?_
  · intro u hu
    rw [hpc] at hu
    cases hu
    exact hk
  · intro u hu
    exact .inl hu
  · intro u
    refine Reinserts.mono ?_
    intro now v hevent hv
    by_cases hvt : v = t
    · subst hvt
      rw [TimerCtx.modify_timer_self] at hv
      exact hperiod now hevent hv
    · rwa [TimerCtx.modify_timer_of_ne f hvt] at hv

/-- Steps in which timers are taken up one at a time keep them in one hand. -/
theorem Exclusive.step {w w' : World ι κ} {a : Act ι κ} (h : Exclusive w) (hguard : ArmAlone w a)
    (hstep : Step time w a w') : Exclusive w' := by
  cases hstep with
  | armRefused => exact h.setReleased _ _
  | armCheck hidle harmed =>
    obtain ⟨hfree, hreinserts, hperiod⟩ := hguard harmed
    refine (h.take hidle ?_ hfree hreinserts hperiod).setReleased _ _
    intro hmem
    rw [(TimerCtx.isArmed_iff h.valid).mpr hmem] at harmed
    cases harmed
  | armAlarm hpc =>
    exact h.putField (by rw [hpc]; rfl) rfl (fun p hp => by rw [hpc]; exact hp) rfl
      fun _ _ hp => hp
  | @armPeriod k t type period hpc =>
    refine h.putField (by rw [hpc]; rfl) rfl (fun p hp => nomatch hp) rfl ?_
    -- The event callback has seen, or will see, a timer that is not periodic.
    intro now hevent hp
    have hinfinite := h.pending now t k period hevent (by rw [hpc]; rfl) (by rw [hpc]; rfl)
    rw [hinfinite] at hp
    cases hp
  | armTolerance hpc =>
    exact h.putField (by rw [hpc]; rfl) rfl (fun p hp => nomatch hp) rfl fun _ _ hp => hp
  | @armInsert k t hpc =>
    have hk : (w.client k).arming = some t := by
      rw [hpc]
      rfl
    refine Exclusive.setReleased (h.put (h.valid.listInsertWith time (h.unlisted k t hk))
      (by rintro u ⟨⟩) (by rintro p ⟨⟩) ?_ ?_) _ _
    · intro u hu
      rcases TimerCtx.mem_listInsertWith.mp hu with rfl | hu
      · exact .inr ⟨hk, rfl⟩
      · exact .inl hu
    · exact fun u hu => hu.of_listInsertWith
  | @cancel k t hidle =>
    refine Exclusive.setReleased (h.put (h.valid.listDelete t) (by rintro u ⟨⟩)
      (by rintro p ⟨⟩) (fun u hu => .inl (h.valid.mem_listDelete.mp hu).2)
      fun u hu => hu.of_listDelete) _ _
  | @deinitDelete k t hidle =>
    refine h.put (h.valid.listDelete t) (by rintro u ⟨⟩)
      (by rintro p ⟨⟩) (fun u hu => .inl (h.valid.mem_listDelete.mp hu).2)
      fun u hu => hu.of_listDelete
  | @deinitClear k t hpc =>
    refine Exclusive.setReleased (h.put (h.valid.modify rfl (.inl rfl))
      (by rintro u ⟨⟩) (by rintro p ⟨⟩) (fun u hu => .inl hu)
      fun u hu => hu.of_modify rfl) _ _
  | eventEnter hevent =>
    exact h.moveEvent h.valid (fun u hu => .inl hu) (fun u hu => hu.elim) fun _ _ he => nomatch he
  | @fetchNone now hevent hnone =>
    obtain ⟨hfetch, -⟩ | ⟨u, s', hfetch, -⟩ := h.valid.listFetch now
    · rw [hfetch]
      exact h.moveEvent h.valid (fun u hu => .inl hu) (fun u hu => hu.elim)
        fun _ _ he => nomatch he
    · rw [hfetch] at hnone
      cases hnone
  | @fetchSome now t hevent hsome =>
    obtain ⟨hfetch, -⟩ | ⟨u, s', hfetch, hvalid, hlist, hmem, hout, -, -, -⟩ :=
      h.valid.listFetch now
    · rw [hfetch] at hsome
      cases hsome
    · rw [hfetch] at hsome
      cases hsome
      have hfree (k : κ) : (w.client k).arming ≠ some t := fun hk => h.unlisted k t hk hmem
      rw [hfetch]
      refine h.moveEvent hvalid ?_ ?_ ?_
      · intro v hv
        rw [hlist] at hv
        exact .inl (List.mem_of_mem_erase hv)
      · rintro v ⟨rfl, -⟩
        exact ⟨hout, hfree⟩
      · intro _ v he
        cases he
        exact hfree
  | @period now t hevent =>
    refine h.moveEvent h.valid (fun u hu => .inl hu) ?_ ?_
    · intro u hu
      split at hu
      · exact hu.elim
      · rename_i hperiod
        refine h.reinserts u ?_
        rw [hevent]
        exact ⟨hu, Bool.eq_false_of_not_eq_true hperiod⟩
    · intro _ u he
      split at he <;> cases he
  | @add now t hevent =>
    have ht : Reinserts w.event w.ctx t := by
      rw [hevent]
      rfl
    refine h.moveEvent (h.valid.modify rfl (.inr (h.reinserts t ht).1)) (fun u hu => .inl hu) ?_
      fun _ _ he => nomatch he
    rintro u rfl
    exact h.reinserts t ht
  | @insert now t hevent =>
    have ht : Reinserts w.event w.ctx t := by
      rw [hevent]
      rfl
    refine h.moveEvent (h.valid.listInsertWith time (h.reinserts t ht).1) ?_ (fun u hu => hu.elim)
      fun _ _ he => nomatch he
    intro u hu
    rcases TimerCtx.mem_listInsertWith.mp hu with rfl | hu
    · exact .inr ht
    · exact .inl hu
  | @check now t hevent =>
    refine h.moveEvent h.valid (fun u hu => .inl hu) ?_ ?_
    · intro u hu
      split at hu <;> exact hu.elim
    · intro _ u he
      split at he <;> cases he
  | call hevent =>
    exact h.moveEvent h.valid (fun u hu => .inl hu) (fun u hu => hu.elim) fun _ _ he => nomatch he
  | getNextSchedule hevent =>
    exact h.moveEvent h.valid (fun u hu => .inl hu) (fun u hu => hu.elim) fun _ _ he => nomatch he
  | start hevent =>
    exact h.moveEvent (h.valid.sidTimerStart _) (fun u hu => .inl hu) (fun u hu => hu.elim)
      fun _ _ he => nomatch he

theorem Exclusive.of_init {w : World ι κ} (h : (interleaved time).init w) : Exclusive w := by
  obtain ⟨hlist, hlinked, hevent, hidle, -⟩ := h
  have hnone (k : κ) (t : ι) : (w.client k).arming ≠ some t := by
    rw [hidle k]
    exact fun hk => nomatch hk
  refine ⟨⟨?_, ?_, ?_⟩, ?_, ?_, ?_, ?_⟩
  · rw [hlist]
    exact List.nodup_nil
  · intro t
    rw [hlinked t, hlist]
    simp
  · rw [hlist]
    exact List.Pairwise.nil
  · exact fun k t hk => absurd hk (hnone k t)
  · exact fun j k t hj => absurd hj (hnone j t)
  · intro t ht
    rw [hevent] at ht
    exact ht.elim
  · exact fun _ t k _ _ hk => absurd hk (hnone k t)

end

end Sidewalk.Timer
