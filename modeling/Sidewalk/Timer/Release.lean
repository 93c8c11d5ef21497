import Sidewalk.Timer.Interleaving

/-!
# Cancelled timers

A cancellation takes effect unless the event callback has the timer in hand: a periodic timer is
out of the list between the region that fetches it and the region that puts it back, and its
callback is started after both.
-/

namespace Sidewalk.Timer

open Lib Function

section

variable {ι κ : Type} [DecidableEq ι] [DecidableEq κ] {time : SidTimeOps}

/-- A timer is cancelled only while the event callback is not about to put it back into the list
or to start its callback; `sid_pal_timer_deinit`, which removes the callback last, may meet the
timer before the event callback has looked at this. A timer is put into the list only while
nobody deinitialises it. -/
def ReleaseAlone (w : World ι κ) : Act ι κ → Prop
  | .armNext k => ∀ t, w.client k = .armInsert t → ∀ j, w.client j ≠ .deinitCallback t
  | .cancel _ t => ¬Reinserts w.event w.ctx t ∧ ¬Calls w.event w.ctx t
  | .deinitDelete _ t => ¬Reinserts w.event w.ctx t
  | .deinitClear k => ∀ t, w.client k = .deinitCallback t → ∀ now, w.event ≠ .call now t
  | _ => True

/-- The timer is not listed and the event callback will not list it. -/
def Out (w : World ι κ) (t : ι) : Prop :=
  t ∉ w.ctx.list ∧ ¬Reinserts w.event w.ctx t

/-- What holds of cancelled timers. -/
structure Quiet (w : World ι κ) : Prop where
  released : ∀ t, w.released t = true → Out w t ∧ ¬Calls w.event w.ctx t
  deinit : ∀ k t, w.client k = .deinitCallback t → Out w t

/-! ## One step -/

/-- The timer a fetch takes was listed. -/
theorem mem_of_listFetch {s : TimerCtx ι} (h : s.Valid) {now : SidTimespec} {t : ι}
    (hsome : (s.listFetch now).1 = some t) : t ∈ s.list := by
  obtain ⟨hfetch, -⟩ | ⟨u, s', hfetch, -, -, hmem, -⟩ := h.listFetch now
  · rw [hfetch] at hsome
    cases hsome
  · rw [hfetch] at hsome
    cases hsome
    exact hmem

theorem mem_listFetch {s : TimerCtx ι} (h : s.Valid) {now : SidTimespec} {t : ι}
    (hmem : t ∈ (s.listFetch now).2.list) : t ∈ s.list := by
  obtain ⟨hfetch, -⟩ | ⟨u, s', hfetch, -, hlist, -⟩ := h.listFetch now
  · rwa [hfetch] at hmem
  · rw [hfetch] at hmem
    change t ∈ s'.list at hmem
    rw [hlist] at hmem
    exact List.mem_of_mem_erase hmem

/-- Only a context that arms the timer brings it back. -/
theorem Out.step {w w' : World ι κ} {a : Act ι κ} {t : ι} (h : Out w t) (hexcl : Exclusive w)
    (hstep : Step time w a w') (harm : ∀ k, a = .armNext k → w.client k ≠ .armInsert t) :
    Out w' t := by
  obtain ⟨hmem, hre⟩ := h
  unfold Out
  cases hstep with
  | armRefused => exact ⟨hmem, hre⟩
  | armCheck => exact ⟨hmem, hre⟩
  | armAlarm hpc =>
    simp only [World.put_ctx, World.put_event]
    exact ⟨hmem, fun h => hre (h.of_modify rfl)⟩
  | @armPeriod k u type period hpc =>
    simp only [World.put_ctx, World.put_event]
    refine ⟨hmem, fun h => hre (h.mono ?_)⟩
    intro now v hevent hv
    by_cases hvu : v = u
    · subst hvu
      have hinfinite := hexcl.pending now v k period hevent (by rw [hpc]; rfl) (by rw [hpc]; rfl)
      rw [TimerCtx.modify_timer_self, hinfinite] at hv
      cases hv
    · rwa [TimerCtx.modify_timer_of_ne _ hvu] at hv
  | armTolerance hpc =>
    simp only [World.put_ctx, World.put_event]
    exact ⟨hmem, fun h => hre (h.of_modify rfl)⟩
  | @armInsert k u hpc =>
    have hne : t ≠ u := by
      rintro rfl
      exact harm k rfl hpc
    exact ⟨fun h => (TimerCtx.mem_listInsertWith.mp h).elim hne hmem,
      fun h => hre h.of_listInsertWith⟩
  | cancel =>
    exact ⟨fun h => hmem (hexcl.valid.mem_listDelete.mp h).2, fun h => hre h.of_listDelete⟩
  | deinitDelete =>
    exact ⟨fun h => hmem (hexcl.valid.mem_listDelete.mp h).2, fun h => hre h.of_listDelete⟩
  | deinitClear hpc =>
    simp only [World.put_ctx, World.put_event, World.setReleased_ctx, World.setReleased_event]
    exact ⟨hmem, fun h => hre (h.of_modify rfl)⟩
  | eventEnter => exact ⟨hmem, fun h => h.elim⟩
  | fetchNone => exact ⟨fun h => hmem (mem_listFetch hexcl.valid h), fun h => h.elim⟩
  | fetchSome hevent hsome =>
    refine ⟨fun h => hmem (mem_listFetch hexcl.valid h), ?_⟩
    rintro ⟨rfl, -⟩
    exact hmem (mem_of_listFetch hexcl.valid hsome)
  | period hevent =>
    simp only [World.moveEvent_ctx, World.moveEvent_event]
    refine ⟨hmem, fun h => hre ?_⟩
    split at h
    · exact h.elim
    · rename_i hperiod
      rw [hevent]
      exact ⟨h, Bool.eq_false_of_not_eq_true hperiod⟩
  | add hevent =>
    rw [hevent] at hre
    exact ⟨hmem, hre⟩
  | insert hevent =>
    rw [hevent] at hre
    exact ⟨fun h => (TimerCtx.mem_listInsertWith.mp h).elim (fun h => hre h.symm) hmem,
      fun h => h.elim⟩
  | check hevent =>
    simp only [World.moveEvent_ctx, World.moveEvent_event]
    refine ⟨hmem, fun h => ?_⟩
    split at h <;> exact h.elim
  | call => exact ⟨hmem, fun h => h.elim⟩
  | getNextSchedule => exact ⟨hmem, fun h => h.elim⟩
  | start => exact ⟨hmem, fun h => h.elim⟩

/-- The callback of a timer that is out of the list does not become due. -/
theorem not_calls_step {w w' : World ι κ} {a : Act ι κ} {t : ι} (hcalls : ¬Calls w.event w.ctx t)
    (hmem : t ∉ w.ctx.list) (hexcl : Exclusive w) (hstep : Step time w a w') :
    ¬Calls w'.event w'.ctx t := by
  cases hstep with
  | armRefused => exact hcalls
  | armCheck => exact hcalls
  | armAlarm =>
    rw [World.put_ctx, World.put_event]
    exact fun h => hcalls (h.of_modify id)
  | armPeriod =>
    rw [World.put_ctx, World.put_event]
    exact fun h => hcalls (h.of_modify id)
  | armTolerance =>
    rw [World.put_ctx, World.put_event]
    exact fun h => hcalls (h.of_modify id)
  | armInsert => exact fun h => hcalls h.of_listInsertWith
  | cancel => exact fun h => hcalls h.of_listDelete
  | deinitDelete => exact fun h => hcalls h.of_listDelete
  | deinitClear =>
    simp only [World.put_ctx, World.put_event, World.setReleased_ctx, World.setReleased_event]
    exact fun h => hcalls (h.of_modify (fun hcallback => nomatch hcallback))
  | eventEnter => exact fun h => h.elim
  | fetchNone => exact fun h => h.elim
  | fetchSome hevent hsome =>
    rintro ⟨rfl, -⟩
    exact hmem (mem_of_listFetch hexcl.valid hsome)
  | period hevent =>
    rw [hevent] at hcalls
    rw [World.moveEvent_ctx, World.moveEvent_event]
    intro h
    split at h <;> exact hcalls h
  | @add now u hevent =>
    rw [hevent] at hcalls
    rw [World.moveEvent_ctx, World.moveEvent_event]
    exact fun h => hcalls (@Calls.of_modify _ _ (.check now u) _ _ _ _ h id)
  | @insert now u hevent =>
    rw [hevent] at hcalls
    intro h
    have hcheck : Calls (.check now u) _ _ := h.of_listInsertWith
    exact hcalls hcheck
  | check hevent =>
    rw [hevent] at hcalls
    rw [World.moveEvent_ctx, World.moveEvent_event]
    intro h
    split at h
    · rename_i hcallback
      exact hcalls ⟨h, hcallback⟩
    · exact h.elim
  | call => exact fun h => h.elim
  | getNextSchedule => exact fun h => h.elim
  | start => exact fun h => h.elim

/-- A deletion while the event callback is not about to put the timer back. -/
theorem out_listDelete {w : World ι κ} (hexcl : Exclusive w) {t : ι} (k : κ) (pc : ClientPc ι)
    (hre : ¬Reinserts w.event w.ctx t) : Out (w.put k pc (w.ctx.listDelete t)) t := by
  exact ⟨fun h => (hexcl.valid.mem_listDelete.mp h).1 rfl, fun h => hre h.of_listDelete⟩

/-- The timers that a step does not put into the list, and that were released before it, stay
so. -/
theorem Quiet.keep {w w' : World ι κ} {a : Act ι κ} (h : Quiet w) (hexcl : Exclusive w)
    (hstep : Step time w a w') {t : ι} (hreleased : w.released t = true)
    (harm : ∀ k, a = .armNext k → w.client k ≠ .armInsert t) :
    Out w' t ∧ ¬Calls w'.event w'.ctx t := by
  obtain ⟨hout, hcalls⟩ := h.released t hreleased
  exact ⟨hout.step hexcl hstep harm, not_calls_step hcalls hout.1 hexcl hstep⟩

theorem Quiet.step_released {w w' : World ι κ} {a : Act ι κ} (h : Quiet w) (hexcl : Exclusive w)
    (hguard : ReleaseAlone w a) (hstep : Step time w a w') (t : ι) (ht : w'.released t = true) :
    Out w' t ∧ ¬Calls w'.event w'.ctx t := by
  have hkeep := h.keep hexcl hstep (t := t)
  have hupdate {u : ι} (hu : update w.released u false t = true) :
      u ≠ t ∧ w.released t = true := by
    by_cases hut : t = u
    · subst hut
      rw [update_self] at hu
      cases hu
    · rw [update_of_ne hut] at hu
      exact ⟨Ne.symm hut, hu⟩
  have hother {k : κ} {pc : ClientPc ι} (hk : w.client k = pc) (hpc : pc ≠ .armInsert t)
      (j : κ) (hj : Act.armNext k = .armNext (ι := ι) j) : w.client j ≠ .armInsert t := by
    cases hj
    rw [hk]
    exact hpc
  cases hstep with
  | armRefused => exact hkeep (hupdate ht).2 nofun
  | armCheck => exact hkeep (hupdate ht).2 nofun
  | armAlarm hpc => exact hkeep ht (hother hpc nofun)
  | armPeriod hpc => exact hkeep ht (hother hpc nofun)
  | armTolerance hpc => exact hkeep ht (hother hpc nofun)
  | armInsert hpc =>
    obtain ⟨hne, hreleased⟩ := hupdate ht
    refine hkeep hreleased (hother hpc ?_)
    intro heq
    cases heq
    exact hne rfl
  | @cancel k u hidle =>
    by_cases htu : t = u
    · subst htu
      exact ⟨out_listDelete hexcl k .idle hguard.1, fun hcalls => hguard.2 hcalls.of_listDelete⟩
    · refine hkeep ?_ nofun
      change update w.released u true t = true at ht
      rwa [update_of_ne htu] at ht
  | deinitDelete => exact hkeep ht nofun
  | @deinitClear k u hpc =>
    by_cases htu : t = u
    · subst htu
      have hdone : Step time w (.deinitClear k) _ := .deinitClear hpc
      have hout := (h.deinit k t hpc).step hexcl hdone nofun
      refine ⟨hout, ?_⟩
      have hcall := hguard t hpc
      have hcleared (v : ι) (hv : v = t) : ((w.ctx.modify t fun timer =>
          { timer with callback := false }).timer v).callback ≠ true := by
        rw [hv, TimerCtx.modify_timer_self]
        exact nofun
      change ¬Calls w.event _ t
      cases hevent : w.event with
      | call now v =>
        rintro rfl
        exact hcall now hevent
      | period now v => exact fun hcalls => hcleared v hcalls.1 hcalls.2
      | add now v => exact fun hcalls => hcleared v hcalls.1 hcalls.2
      | insert now v => exact fun hcalls => hcleared v hcalls.1 hcalls.2
      | check now v => exact fun hcalls => hcleared v hcalls.1 hcalls.2
      | _ => exact fun hcalls => hcalls.elim
    · refine hkeep ?_ nofun
      change update w.released u true t = true at ht
      rwa [update_of_ne htu] at ht
  | eventEnter => exact hkeep ht nofun
  | fetchNone => exact hkeep ht nofun
  | fetchSome => exact hkeep ht nofun
  | period => exact hkeep ht nofun
  | add => exact hkeep ht nofun
  | insert => exact hkeep ht nofun
  | check => exact hkeep ht nofun
  | call => exact hkeep ht nofun
  | getNextSchedule => exact hkeep ht nofun
  | start => exact hkeep ht nofun

theorem Quiet.step_deinit {w w' : World ι κ} {a : Act ι κ} (h : Quiet w) (hexcl : Exclusive w)
    (hguard : ReleaseAlone w a) (hstep : Step time w a w') (k : κ) (t : ι)
    (hk : w'.client k = .deinitCallback t) : Out w' t := by
  by_cases hold : w.client k = .deinitCallback t
  · refine (h.deinit k t hold).step hexcl hstep ?_
    rintro j rfl hj
    exact hguard t hj k hold
  · -- The context has just come past its deletion.
    have hother {j : κ} {pc : ClientPc ι} (hj : update w.client j pc k = .deinitCallback t)
        (hpc : pc ≠ .deinitCallback t) : False := by
      by_cases hjk : k = j
      · subst hjk
        rw [update_self] at hj
        exact hpc hj
      · rw [update_of_ne hjk] at hj
        exact hold hj
    cases hstep with
    | @deinitDelete j u hidle =>
      by_cases hut : u = t
      · subst hut
        exact out_listDelete hexcl j (.deinitCallback u) hguard
      · refine (hother hk fun heq => hut ?_).elim
        cases heq
        rfl
    | armCheck => exact (hother hk nofun).elim
    | armAlarm => exact (hother hk nofun).elim
    | armPeriod => exact (hother hk nofun).elim
    | armTolerance => exact (hother hk nofun).elim
    | armInsert => exact (hother hk nofun).elim
    | cancel => exact (hother hk nofun).elim
    | deinitClear => exact (hother hk nofun).elim
    | _ => exact absurd hk hold

theorem Quiet.of_init {w : World ι κ} (h : (interleaved time).init w) : Quiet w := by
  obtain ⟨-, -, -, hidle, hreleased⟩ := h
  refine ⟨?_, ?_⟩
  · intro t ht
    rw [hreleased t] at ht
    cases ht
  · intro k t hk
    rw [hidle k] at hk
    cases hk

/-- In every run whose calls do not meet a timer in other hands, the list holds no timer twice,
and a timer whose cancellation has returned is not listed and its callback is not started. -/
theorem released_stays_out (time : SidTimeOps) (w : World ι κ)
    (h : (interleaved time).Reached (fun w a => ArmAlone w a ∧ ReleaseAlone w a) w) :
    w.ctx.list.Nodup ∧
      ∀ t, w.released t = true → t ∉ w.ctx.list ∧ ∀ now, w.event ≠ .call now t := by
  have hinv : Exclusive w ∧ Quiet w := by
    refine System.Reached.invariant (I := fun w => Exclusive w ∧ Quiet w) ?_ ?_ h
    · exact fun w h => ⟨.of_init h, .of_init h⟩
    · rintro w a w' ⟨hexcl, hquiet⟩ ⟨harm, hrelease⟩ hstep
      exact ⟨hexcl.step harm hstep, hquiet.step_released hexcl hrelease hstep,
        hquiet.step_deinit hexcl hrelease hstep⟩
  refine ⟨hinv.1.valid.nodup, ?_⟩
  intro t ht
  obtain ⟨hout, hcalls⟩ := hinv.2.released t ht
  refine ⟨hout.1, ?_⟩
  intro now hevent
  rw [hevent] at hcalls
  exact hcalls rfl

end

/-! ## A cancellation that is lost -/

/-- A single timer and one context. -/
def single (event : EventPc Unit) (client : ClientPc Unit) (released : Bool) (list : List Unit)
    (timer : TimerImpl) (programmed : Option SidTimespec) : World Unit Unit where
  ctx := ⟨list, fun _ => timer, programmed⟩
  event := event
  client _ := client
  released _ := released

/-- A step of a run on states written out. -/
theorem reached_next {guard : World Unit Unit → Act Unit Unit → Prop} {w w₁ w' : World Unit Unit}
    {a : Act Unit Unit} (h : (interleaved wrappingTime).Reached guard w) (hguard : guard w a)
    (hstep : Step wrappingTime w a w₁) (heq : w₁ = w') :
    (interleaved wrappingTime).Reached guard w' := by
  subst heq
  exact .step h hguard hstep

/-- The timer has a callback and was not armed yet. -/
def oneTimer : World Unit Unit :=
  single .idle .idle false [] ⟨sidTimeInfinity, sidTimeInfinity, ⟨0, 0⟩, true, false⟩ none

theorem oneTimer_init : (interleaved wrappingTime).init oneTimer :=
  ⟨rfl, fun _ => rfl, rfl, fun _ => rfl, fun _ => rfl⟩

/-- The timer armed for the time of 5 s. -/
def oneArmed (period : SidTimespec) : World Unit Unit :=
  single .idle .idle false [()] ⟨⟨5, 0⟩, period, ⟨0, 0⟩, true, true⟩ (some ⟨5, 0⟩)

theorem oneArmed_reached {guard : World Unit Unit → Act Unit Unit → Prop}
    (period : SidTimespec)
    (hcheck : guard oneTimer (.armCheck () () .precise ⟨5, 0⟩ (some period)))
    (hnext : ∀ pc timer, guard (single .idle pc false [] timer none) (.armNext ())) :
    (interleaved wrappingTime).Reached guard (oneArmed period) := by
  have hstart : (interleaved wrappingTime).Reached guard
      (single .idle (.armAlarm () .precise ⟨5, 0⟩ period) false []
        ⟨sidTimeInfinity, sidTimeInfinity, ⟨0, 0⟩, true, false⟩ none) :=
    reached_next (.init oneTimer_init) hcheck (.armCheck rfl rfl) rfl
  have halarm : (interleaved wrappingTime).Reached guard
      (single .idle (.armPeriod () .precise period) false []
        ⟨⟨5, 0⟩, sidTimeInfinity, ⟨0, 0⟩, true, false⟩ none) :=
    reached_next hstart (hnext _ _) (.armAlarm rfl) rfl
  have hperiod : (interleaved wrappingTime).Reached guard
      (single .idle (.armTolerance () .precise) false []
        ⟨⟨5, 0⟩, period, ⟨0, 0⟩, true, false⟩ none) :=
    reached_next halarm (hnext _ _) (.armPeriod rfl) rfl
  have htolerance : (interleaved wrappingTime).Reached guard (single .idle (.armInsert ()) false []
      ⟨⟨5, 0⟩, period, ⟨0, 0⟩, true, false⟩ none) :=
    reached_next hperiod (hnext _ _) (.armTolerance rfl) rfl
  exact reached_next htolerance (hnext _ _) (.armInsert rfl) rfl

theorem oneTimer_armAlone (type : PrioClass) (when' : SidTimespec)
    (period : Option SidTimespec) : ArmAlone oneTimer (.armCheck () () type when' period) :=
  fun _ => ⟨fun _ => nofun, id, nofun⟩

/-- The timer is armed and cancelled. -/
theorem released_stays_out_cancelled :
    let w : World Unit Unit :=
      single .idle .idle true [] ⟨⟨5, 0⟩, ⟨10, 0⟩, ⟨0, 0⟩, true, false⟩ (some ⟨5, 0⟩)
    w.ctx.list.Nodup ∧
      ∀ t, w.released t = true → t ∉ w.ctx.list ∧ ∀ now, w.event ≠ .call now t := by
  refine released_stays_out wrappingTime _ (.step (oneArmed_reached ⟨10, 0⟩ ?_ ?_)
    (a := .cancel () ()) ⟨trivial, id, id⟩ (.cancel rfl))
  · exact ⟨oneTimer_armAlone _ _ _, trivial⟩
  · intro pc timer
    refine ⟨trivial, ?_⟩
    rintro t ht j hj
    rw [show pc = .armInsert t from ht] at hj
    cases hj

/-- A periodic timer is cancelled between the region that fetches it and the one that puts it
back. -/
theorem cancel_lost :
    ¬∀ w : World Unit Unit, (interleaved wrappingTime).Reachable w →
      w.ctx.list.Nodup ∧
        ∀ t, w.released t = true → t ∉ w.ctx.list ∧ ∀ now, w.event ≠ .call now t := by
  intro h
  have harmed : (interleaved wrappingTime).Reachable (oneArmed ⟨10, 0⟩) :=
    oneArmed_reached ⟨10, 0⟩ trivial fun _ _ => trivial
  have henter : (interleaved wrappingTime).Reachable (single (.fetch ⟨5, 0⟩) .idle false [()]
      ⟨⟨5, 0⟩, ⟨10, 0⟩, ⟨0, 0⟩, true, true⟩ (some ⟨5, 0⟩)) :=
    reached_next harmed trivial (.eventEnter rfl) rfl
  have hfetch : (interleaved wrappingTime).Reachable (single (.period ⟨5, 0⟩ ()) .idle false []
      ⟨⟨5, 0⟩, ⟨10, 0⟩, ⟨0, 0⟩, true, false⟩ (some ⟨5, 0⟩)) :=
    reached_next henter trivial (.fetchSome rfl rfl) rfl
  have hcancel : (interleaved wrappingTime).Reachable (single (.period ⟨5, 0⟩ ()) .idle true []
      ⟨⟨5, 0⟩, ⟨10, 0⟩, ⟨0, 0⟩, true, false⟩ (some ⟨5, 0⟩)) :=
    reached_next hfetch trivial (.cancel (k := ()) (t := ()) rfl) rfl
  have hperiod : (interleaved wrappingTime).Reachable (single (.add ⟨5, 0⟩ ()) .idle true []
      ⟨⟨5, 0⟩, ⟨10, 0⟩, ⟨0, 0⟩, true, false⟩ (some ⟨5, 0⟩)) :=
    reached_next hcancel trivial (.period rfl) rfl
  have hadd : (interleaved wrappingTime).Reachable (single (.insert ⟨5, 0⟩ ()) .idle true []
      ⟨⟨15, 0⟩, ⟨10, 0⟩, ⟨0, 0⟩, true, false⟩ (some ⟨5, 0⟩)) :=
    reached_next hperiod trivial (.add rfl) rfl
  have hinsert : (interleaved wrappingTime).Reachable (single (.check ⟨5, 0⟩ ()) .idle true [()]
      ⟨⟨15, 0⟩, ⟨10, 0⟩, ⟨0, 0⟩, true, true⟩ (some ⟨15, 0⟩)) :=
    reached_next hadd trivial (.insert rfl) rfl
  exact ((h _ hinsert).2 () rfl).1 List.mem_cons_self

end Sidewalk.Timer
