import Sidewalk.Timer.Sequential

/-!
# Expiry

`sid_pal_timer_event_callback` puts a periodic timer back into the list it takes it from, with the
period added to the alarm it had. Beside the timers stands what each was armed for, so that the
boundaries of its period are known also where coalescing has moved its alarm, or the sum has wrapped
in the fields of 32 bits. Where no alarm is carried across `now` the loop returns, and each periodic
timer fires once for each boundary up to `now`. `arm` takes a period that is zero, with which the
loop does not end.
-/

namespace Sidewalk.Timer

open Lib

section

variable {ι : Type} [DecidableEq ι] {ω : Type} {time : SidTimeOps} {callbacks : Callbacks ι ω}
  {now : SidTimespec}

/-! ## Timelines -/

/-- What a timer was armed for, and how often it has expired since. -/
structure Asked where
  first : SidTimespec
  expiries : Nat

namespace Asked

/-- When the timer would expire next, were it never moved. -/
def nominal (asked : Asked) (period : SidTimespec) : Nat :=
  asked.first.ns + asked.expiries * period.ns

def expired (asked : Asked) : Asked := { asked with expiries := asked.expiries + 1 }

end Asked

/-- A step at the timers: a call, or the part of an expiry before the callback is invoked. -/
inductive Move (ι : Type)
  | init (t : ι) (eventCallback : Bool)
  | op (op : Op ι)
  | expire (now : SidTimespec)
  | start (sidTime : SidTimespec)

/-- What the timers are armed for after a call. -/
def ask (s : TimerCtx ι) (asked : ι → Asked) : Op ι → ι → Asked
  | .arm t _ (some when') _ =>
    if s.isArmed t = true then asked else Function.update asked t ⟨when', 0⟩
  | _ => asked

/-- The timers with what they were armed for, under any calls and expiries in any order, over an
arithmetic. -/
def timelineWith (time : SidTimeOps) : System (TimerCtx ι × (ι → Asked)) (Move ι) where
  init x := x.1.list = [] ∧ ∀ t, (x.1.timer t).linked = false
  step
    | (s, asked), .init t eventCallback, (s', asked') =>
      s' = (s.init t eventCallback).2 ∧ asked' = asked
    | (s, asked), .op op, (s', asked') => s' = s.applyWith time op ∧ asked' = ask s asked op
    | (s, asked), .expire now, (s', asked') =>
      ∃ t fetched, s.listFetch now = (some t, fetched) ∧ s' = fetched.reinsertWith time t ∧
        asked' = Function.update asked t (asked t).expired
    | (s, asked), .start sidTime, (s', asked') => s' = s.sidTimerStart sidTime ∧ asked' = asked

/-- Only timers that are not armed are initialised. -/
def CallersInit : TimerCtx ι × (ι → Asked) → Move ι → Prop
  | (s, _), .init t _ => s.isArmed t = false
  | _, _ => True

theorem valid_of_timeline {x : TimerCtx ι × (ι → Asked)}
    (h : (timelineWith time).Reached CallersInit x) : x.1.Valid := by
  refine h.invariant (I := fun x => x.1.Valid) (fun x hx => .of_empty hx.1 hx.2) ?_
  rintro ⟨s, asked⟩ a ⟨s', asked'⟩ hvalid hguard hstep
  cases a with
  | init t eventCallback =>
    obtain ⟨rfl, -⟩ := hstep
    exact hvalid.init hguard eventCallback
  | op op =>
    obtain ⟨rfl, -⟩ := hstep
    exact hvalid.applyWith time op
  | expire now =>
    obtain ⟨t, fetched, hfetch, rfl, -⟩ := hstep
    obtain ⟨hnone, -⟩ | ⟨u, s', hsome, hvalid', -, -, hout, -⟩ := hvalid.listFetch now
    · rw [hnone] at hfetch
      cases hfetch
    · rw [hsome] at hfetch
      cases hfetch
      exact hvalid'.reinsertWith time hout
  | start sidTime =>
    obtain ⟨rfl, -⟩ := hstep
    exact hvalid.sidTimerStart sidTime

/-! ## Rounds -/

namespace TimerCtx

variable {s s' : TimerCtx ι} {t : ι} {w w' : ω}

/-- What one round of the expiry loop has done: the timer it took and the callback it invoked. -/
structure Turn (ι ω : Type) where
  taken : ι
  invocation : Option (Invocation ι)
  w : ω
  s : TimerCtx ι

/-- One round of the expiry loop; `none` where no timer is due. -/
def round (s : TimerCtx ι) (time : SidTimeOps) (callbacks : Callbacks ι ω) (now : SidTimespec)
    (w : ω) : Option (Turn ι ω) :=
  match s.listFetch now with
  | (none, _) => none
  | (some t, fetched) =>
    let s := fetched.reinsertWith time t
    if (s.timer t).callback = true then
      match callbacks t w s with
      | (ops, w) => some ⟨t, some ⟨t, fetched.alarm t, ops⟩, w, ops.foldl (applyWith time) s⟩
    else some ⟨t, none, w, s⟩

theorem eventCallbackWith_of_round_none (fuel : Nat)
    (h : s.round time callbacks now w = none) :
    s.eventCallbackWith time callbacks now (fuel + 1) w =
      some (s.sidTimerStart s.listGetNextSchedule, w, []) := by
  have hsame : (s.listFetch now).1 = none → (s.listFetch now).2 = s := by
    unfold listFetch
    split
    · exact fun _ => rfl
    · split
      · exact fun _ => rfl
      · exact fun hfetch => nomatch hfetch
  unfold eventCallbackWith
  unfold round at h
  rcases hfetch : s.listFetch now with ⟨_ | t, fetched⟩
  · rw [hfetch] at hsame
    rw [show fetched = s from hsame rfl]
  · rw [hfetch] at h
    simp only at h
    split at h
    · cases h
    · cases h

theorem eventCallbackWith_of_round {fuel : Nat} {turn : Turn ι ω}
    (h : s.round time callbacks now w = some turn) :
    s.eventCallbackWith time callbacks now (fuel + 1) w =
      (turn.s.eventCallbackWith time callbacks now fuel turn.w).map fun out =>
        (out.1, out.2.1, turn.invocation.toList ++ out.2.2) := by
  unfold round at h
  conv_lhs => unfold eventCallbackWith
  rcases hfetch : s.listFetch now with ⟨_ | t, fetched⟩
  · rw [hfetch] at h
    cases h
  · rw [hfetch] at h
    simp only at h ⊢
    split at h
    · rename_i hcallback
      cases h
      rw [if_pos hcallback]
      rfl
    · rename_i hcallback
      cases h
      rw [if_neg hcallback]
      simp

/-! ## Timers that stay -/

/-- Only listed timers are listed after it, and these are as they were. -/
def Pruned (s s' : TimerCtx ι) : Prop :=
  ∀ u ∈ s'.list, u ∈ s.list ∧ s'.timer u = s.timer u

omit [DecidableEq ι] in
theorem Pruned.refl (s : TimerCtx ι) : s.Pruned s := fun _ hu => ⟨hu, rfl⟩

omit [DecidableEq ι] in
theorem Pruned.trans {s₁ : TimerCtx ι} (h : s.Pruned s₁) (h' : s₁.Pruned s') : s.Pruned s' := by
  intro u hu
  obtain ⟨hu₁, heq₁⟩ := h' u hu
  obtain ⟨hu₀, heq₀⟩ := h u hu₁
  exact ⟨hu₀, heq₁.trans heq₀⟩

theorem Valid.pruned_listDelete (h : s.Valid) (t : ι) : s.Pruned (s.listDelete t) := by
  intro u hu
  obtain ⟨hne, hmem⟩ := h.mem_listDelete.mp hu
  refine ⟨hmem, ?_⟩
  unfold TimerCtx.listDelete
  split
  · exact modify_timer_of_ne (fun timer => { timer with linked := false }) hne
  · rfl

theorem Valid.pruned_deinit (h : s.Valid) (t : ι) : s.Pruned (s.deinit t).2 := by
  refine (h.pruned_listDelete t).trans ?_
  intro u hu
  have hne : u ≠ t := (h.mem_listDelete.mp (show u ∈ (s.listDelete t).list from hu)).1
  exact ⟨hu, modify_timer_of_ne (fun timer => { timer with callback := false }) hne⟩

end TimerCtx

/-- Whether the call arms a timer. -/
def Op.arms : Op ι → Bool
  | .arm _ _ _ _ => true
  | .cancel _ => false
  | .deinit _ => false

/-- The timer of a call. -/
def Op.timer : Op ι → ι
  | .arm t _ _ _ => t
  | .cancel t => t
  | .deinit t => t

/-- The callbacks arm no timer. -/
def NoArm (callbacks : Callbacks ι ω) : Prop :=
  ∀ t w s, ∀ op ∈ (callbacks t w s).1, op.arms = false

namespace TimerCtx

variable {s s' : TimerCtx ι} {t : ι} {w w' : ω}

theorem Valid.pruned_applyWith (h : s.Valid) {op : Op ι} (harms : op.arms = false) :
    s.Pruned (s.applyWith time op) := by
  cases op with
  | arm t type when' period => cases harms
  | cancel t => exact h.pruned_listDelete t
  | deinit t => exact h.pruned_deinit t

theorem Valid.pruned_foldl (h : s.Valid) {ops : List (Op ι)}
    (harms : ∀ op ∈ ops, op.arms = false) : s.Pruned (ops.foldl (TimerCtx.applyWith time) s) := by
  induction ops generalizing s with
  | nil => exact .refl s
  | cons op ops ih =>
    obtain ⟨hop, hops⟩ := List.forall_mem_cons.mp harms
    exact (h.pruned_applyWith hop).trans (ih (h.applyWith time op) hops)

/-- A timer that no call is for stays in the list. -/
theorem Valid.kept_applyWith (h : s.Valid) {op : Op ι} (harms : op.arms = false) {u : ι}
    (hop : op.timer ≠ u) (hmem : u ∈ s.list) : u ∈ (s.applyWith time op).list := by
  cases op with
  | arm t type when' period => cases harms
  | cancel t => exact h.mem_listDelete.mpr ⟨hop.symm, hmem⟩
  | deinit t =>
    exact show u ∈ (s.listDelete t).list from h.mem_listDelete.mpr ⟨hop.symm, hmem⟩

theorem Valid.kept_foldl (h : s.Valid) {ops : List (Op ι)}
    (harms : ∀ op ∈ ops, op.arms = false) {u : ι} (hops : ∀ op ∈ ops, op.timer ≠ u)
    (hmem : u ∈ s.list) : u ∈ (ops.foldl (TimerCtx.applyWith time) s).list := by
  induction ops generalizing s with
  | nil => exact hmem
  | cons op ops ih =>
    obtain ⟨harm, harms⟩ := List.forall_mem_cons.mp harms
    obtain ⟨hop, hops⟩ := List.forall_mem_cons.mp hops
    exact ih (h.applyWith time op) harms hops (h.kept_applyWith harm hop hmem)

/-! ## What a round does -/

/-- The alarm at which a periodic timer is put back. -/
def nextAlarm (s : TimerCtx ι) (time : SidTimeOps) (t : ι) (rest : List ι) : SidTimespec :=
  coalesced time s.alarm (s.timer t).tolerance (time.add (s.alarm t) (s.timer t).period) rest

/-- What a round that takes the timer `t` leaves of the timers. -/
structure Turned (s : TimerCtx ι) (time : SidTimeOps) (t : ι) (rest : List ι)
    (s' : TimerCtx ι) : Prop where
  valid : s'.Valid
  listed : ∀ u ∈ s'.list, u ∈ s.list
  others : ∀ u ∈ s'.list, u ≠ t → s'.timer u = s.timer u
  periodic : t ∈ s'.list → sidTimeIsInfinity (s.timer t).period = false
  self : t ∈ s'.list →
    s'.timer t = { s.timer t with alarm := s.nextAlarm time t rest, linked := true }

/-- The timer taken from the list, put back if it is periodic. -/
theorem Valid.turned_reinsert {rest : List ι} {fetched : TimerCtx ι} (h : fetched.Valid)
    (time : SidTimeOps) (hlist : s.list = t :: rest) (hrest : fetched.list = rest) (hmem : t ∉ rest)
    (htimer : fetched.timer = Function.update s.timer t { s.timer t with linked := false }) :
    s.Turned time t rest (fetched.reinsertWith time t) ∧
      ((fetched.reinsertWith time t).timer t).callback = (s.timer t).callback := by
  subst hrest
  have hself : fetched.timer t = { s.timer t with linked := false } := by
    rw [htimer, Function.update_self]
  have hother (u : ι) (hu : u ≠ t) : fetched.timer u = s.timer u := by
    rw [htimer, Function.update_of_ne hu]
  have hvalid := h.reinsertWith time hmem
  revert hvalid
  unfold TimerCtx.reinsertWith
  rw [hself]
  split
  · rename_i hinfinity
    intro hvalid
    refine ⟨⟨hvalid, ?_, ?_, fun ht => absurd ht hmem, fun ht => absurd ht hmem⟩, ?_⟩
    · intro u hu
      rw [hlist]
      exact List.mem_cons_of_mem _ hu
    · intro u _ hne
      exact hother u hne
    · rw [hself]
  · rename_i hperiodic
    intro hvalid
    obtain ⟨l', alarm', required', hins, halarm, heq⟩ := listInsertWith_eq time
      (fetched.modify t fun timer =>
        { timer with alarm := time.add timer.alarm timer.period }) t
    have hnext : alarm' = s.nextAlarm time t fetched.list := by
      rw [halarm]
      unfold nextAlarm
      have hagree : ∀ e ∈ fetched.list, (fetched.modify t fun timer =>
          { timer with alarm := time.add timer.alarm timer.period }).alarm e = s.alarm e := by
        intro e he
        have hne : e ≠ t := ne_of_mem_of_not_mem he hmem
        unfold alarm
        rw [modify_timer_of_ne _ hne, hother e hne]
      rw [modify_list, coalesced_congr hagree]
      unfold alarm
      simp only [modify_timer_self, hself]
    rw [heq] at hvalid ⊢
    have hlisted : ∀ u ∈ l', u ∈ s.list := by
      intro u hu
      rw [hlist]
      exact hins.perm.mem_iff.mp hu
    refine ⟨⟨hvalid, hlisted, ?_, fun _ => by simpa using hperiodic, ?_⟩, ?_⟩
    · intro u _ hne
      change Function.update _ t _ u = _
      rw [Function.update_of_ne hne, modify_timer_of_ne _ hne, hother u hne]
    · intro _
      change Function.update _ t _ t = _
      rw [Function.update_self, modify_timer_self, hself, hnext]
    · simp only [Function.update_self, modify_timer_self, hself]

/-- The other timers stay, and the timer itself if it is periodic. -/
theorem mem_reinsertWith {fetched : TimerCtx ι} {u : ι}
    (hu : u ∈ fetched.list ∨ u = t ∧ sidTimeIsInfinity (fetched.timer t).period = false) :
    u ∈ (fetched.reinsertWith time t).list := by
  unfold TimerCtx.reinsertWith
  split
  · rename_i hinfinity
    refine hu.resolve_right ?_
    rintro ⟨-, hperiodic⟩
    exact absurd (hinfinity.symm.trans hperiodic) (by decide)
  · obtain ⟨l', alarm', required', hins, -, heq⟩ := listInsertWith_eq time
      (fetched.modify t fun timer =>
        { timer with alarm := time.add timer.alarm timer.period }) t
    rw [heq]
    refine hins.perm.mem_iff.mpr (List.mem_cons.mpr ?_)
    exact hu.elim .inr fun hself => .inl hself.1

omit [DecidableEq ι] in
theorem Turned.prune {rest : List ι} {s₁ : TimerCtx ι} (h : s.Turned time t rest s₁)
    (hvalid : s'.Valid) (hpruned : s₁.Pruned s') : s.Turned time t rest s' where
  valid := hvalid
  listed := fun u hu => h.listed u (hpruned u hu).1
  others := fun u hu hne => (hpruned u hu).2.trans (h.others u (hpruned u hu).1 hne)
  periodic := fun ht => h.periodic (hpruned t ht).1
  self := fun ht => (hpruned t ht).2.trans (h.self (hpruned t ht).1)

/-- Fetching a timer and putting it back takes the first of the list, which is due. -/
theorem Valid.turned_fetch {fetched : TimerCtx ι} (h : s.Valid) (time : SidTimeOps)
    (hfetch : s.listFetch now = (some t, fetched)) :
    ∃ rest, s.list = t :: rest ∧ s.alarm t ≤ now ∧ fetched.alarm t = s.alarm t ∧
      s.Turned time t rest (fetched.reinsertWith time t) ∧
      ((fetched.reinsertWith time t).timer t).callback = (s.timer t).callback := by
  obtain ⟨hnone, -⟩ | ⟨u, s', hsome, hvalid, herase, -, hout, hdue, htimer, -⟩ :=
    h.listFetch now
  · rw [hnone] at hfetch
    cases hfetch
  · rw [hsome] at hfetch
    cases hfetch
    obtain ⟨rest, hlist⟩ : ∃ rest, s.list = t :: rest := by
      revert hsome
      unfold TimerCtx.listFetch
      split
      · intro hsome
        cases hsome
      · rename_i u rest hlist
        split
        · intro hsome
          cases hsome
        · intro hsome
          cases hsome
          exact ⟨rest, hlist⟩
    have hrest : fetched.list = rest := by
      rw [herase, hlist, List.erase_cons_head]
    have halarm : fetched.alarm t = s.alarm t := by
      unfold TimerCtx.alarm
      rw [htimer, Function.update_self]
    exact ⟨rest, hlist, hdue, halarm,
      hvalid.turned_reinsert time hlist hrest (hrest ▸ hout) htimer⟩

/-- What is known of a round: it takes the first of the list, which is due, and invokes its
callback. -/
structure Turns (s : TimerCtx ι) (time : SidTimeOps) (now : SidTimespec) (rest : List ι)
    (turn : Turn ι ω) : Prop where
  list : s.list = turn.taken :: rest
  due : s.alarm turn.taken ≤ now
  turned : s.Turned time turn.taken rest turn.s
  invocation : (s.timer turn.taken).callback = true →
    ∃ calls, turn.invocation = some ⟨turn.taken, s.alarm turn.taken, calls⟩
  silent : (s.timer turn.taken).callback = false → turn.invocation = none
  kept : ∀ u ∈ s.list,
    (u = turn.taken → sidTimeIsInfinity (s.timer turn.taken).period = false) →
    (∀ i ∈ turn.invocation, ∀ op ∈ i.calls, op.timer ≠ u) → u ∈ turn.s.list

theorem Valid.round {turn : Turn ι ω} (h : s.Valid) (hnoArm : NoArm callbacks)
    (hround : s.round time callbacks now w = some turn) : ∃ rest, s.Turns time now rest turn := by
  unfold TimerCtx.round at hround
  rcases hfetch : s.listFetch now with ⟨_ | t, fetched⟩
  · rw [hfetch] at hround
    cases hround
  · obtain ⟨rest, hlist, hdue, halarm, hturned, hcallback⟩ := h.turned_fetch time hfetch
    have hfetched : fetched.list = rest ∧ (fetched.timer t).period = (s.timer t).period := by
      obtain ⟨hnone, -⟩ | ⟨u, s', hsome, -, herase, -, -, -, htimer, -⟩ := h.listFetch now
      · rw [hnone] at hfetch
        cases hfetch
      · rw [hsome] at hfetch
        cases hfetch
        rw [herase, hlist, List.erase_cons_head, htimer, Function.update_self]
        exact ⟨rfl, rfl⟩
    have hmem (u : ι) (hu : u ∈ s.list)
        (hself : u = t → sidTimeIsInfinity (s.timer t).period = false) :
        u ∈ (fetched.reinsertWith time t).list := by
      refine mem_reinsertWith ?_
      rw [hfetched.1, hfetched.2]
      rw [hlist] at hu
      rcases List.mem_cons.mp hu with rfl | hu
      · exact .inr ⟨rfl, hself rfl⟩
      · exact .inl hu
    refine ⟨rest, ?_⟩
    rw [hfetch] at hround
    simp only [hcallback] at hround
    split at hround
    · rename_i hset
      cases hround
      have harms := hnoArm t w (fetched.reinsertWith time t)
      refine ⟨hlist, hdue, hturned.prune (hturned.valid.foldl_applyWith time _)
        (hturned.valid.pruned_foldl harms), fun _ => ⟨_, by rw [halarm]⟩, fun hnot => ?_,
        fun u hu hself hcalls => ?_⟩
      · exact absurd (hset.symm.trans hnot) (by decide)
      · exact hturned.valid.kept_foldl harms (hcalls _ rfl) (hmem u hu hself)
    · rename_i hset
      cases hround
      exact ⟨hlist, hdue, hturned, fun hcall => absurd hcall hset, fun _ => rfl,
        fun u hu hself _ => hmem u hu hself⟩

end TimerCtx

/-! ## The rounds of a call -/

/-- The expiry loop between two rounds, with what the timers are armed for. -/
structure Loop (ι ω : Type) where
  w : ω
  s : TimerCtx ι
  asked : ι → Asked

namespace Loop

variable {x y : Loop ι ω} {t : ι}

def turned (x : Loop ι ω) (turn : TimerCtx.Turn ι ω) : Loop ι ω :=
  ⟨turn.w, turn.s, Function.update x.asked turn.taken (x.asked turn.taken).expired⟩

/-- The loop behind one more round. -/
def next (time : SidTimeOps) (callbacks : Callbacks ι ω) (now : SidTimespec) (x : Loop ι ω) :
    Option (Loop ι ω) := (x.s.round time callbacks now x.w).map x.turned

/-- The timer is listed, periodic, and has a callback. -/
structure Beats (x : Loop ι ω) (t : ι) : Prop where
  listed : t ∈ x.s.list
  callback : (x.s.timer t).callback = true
  periodic : sidTimeIsInfinity (x.s.timer t).period = false

/-- The boundaries of the period of a timer, from the next one on. -/
def boundary (x : Loop ι ω) (t : ι) (k : Nat) : Nat :=
  (x.asked t).nominal (x.s.timer t).period + k * (x.s.timer t).period.ns

/-- A periodic timer is due exactly if its next boundary is not later than `now`. -/
def OnTime (x : Loop ι ω) (now : SidTimespec) : Prop :=
  ∀ t ∈ x.s.list, sidTimeIsInfinity (x.s.timer t).period = false →
    (x.s.alarm t ≤ now ↔ x.boundary t 0 ≤ now.ns)

/-- What the next round puts back goes forward and is not carried across `now`: where the first
timer is due and periodic, its period is not zero, and the alarm that it gets is later than `now`
exactly if its next boundary is. -/
structure Advances (x : Loop ι ω) (now : SidTimespec) : Prop where
  positive : ∀ t rest, x.s.list = t :: rest → x.s.alarm t ≤ now →
    sidTimeIsInfinity (x.s.timer t).period = false → 0 < (x.s.timer t).period.ns
  onTime : ∀ t rest, x.s.list = t :: rest → x.s.alarm t ≤ now →
    sidTimeIsInfinity (x.s.timer t).period = false →
      (x.s.nextAlarm wrappingTime t rest ≤ now ↔ x.boundary t 1 ≤ now.ns)

end Loop

/-- The rounds of a call. -/
abbrev rounds (time : SidTimeOps) (callbacks : Callbacks ι ω) (now : SidTimespec)
    (start : Loop ι ω) : System (Loop ι ω) Unit :=
  System.orbit (Loop.next time callbacks now) start

/-- The alarms for which the callback of a timer was invoked. -/
def firings (t : ι) (invocations : List (Invocation ι)) : List SidTimespec :=
  (invocations.filter fun invocation => invocation.timer = t).map Invocation.alarm

/-- A callback has cancelled the timer, or deinitialised it. -/
def Cancelled (t : ι) (invocations : List (Invocation ι)) : Prop :=
  ∃ i ∈ invocations, ∃ op ∈ i.calls, op.timer = t

/-- The call has brought every timer past `now`. A periodic timer has fired once for each of its
boundaries up to `now`, and waits for the next one, unless a callback has cancelled it; then it has
fired for no other. -/
structure Expired (x : Loop ι ω) (now : SidTimespec) (s' : TimerCtx ι)
    (invocations : List (Invocation ι)) : Prop where
  late : ∀ t ∈ s'.list, now < s'.alarm t
  unlisted : ∀ t, t ∉ x.s.list → t ∉ s'.list ∧ firings t invocations = []
  oneShot : ∀ t ∈ x.s.list, (x.s.timer t).callback = true →
    sidTimeIsInfinity (x.s.timer t).period = true → ¬Cancelled t invocations →
      (x.s.alarm t ≤ now ∧ t ∉ s'.list ∧ firings t invocations = [x.s.alarm t]) ∨
        (now < x.s.alarm t ∧ t ∈ s'.list ∧ firings t invocations = [])
  once : ∀ t, x.Beats t → ∀ k < (firings t invocations).length, x.boundary t k ≤ now.ns
  every : ∀ t, x.Beats t → ¬Cancelled t invocations →
    t ∈ s'.list ∧ ∀ k, x.boundary t k ≤ now.ns → k < (firings t invocations).length

namespace Loop

variable {x : Loop ι ω} {turn : TimerCtx.Turn ι ω} {rest : List ι} {t : ι}

theorem boundary_taken (h : x.s.Turns time now rest turn) (ht : turn.taken ∈ turn.s.list)
    (k : Nat) : (x.turned turn).boundary turn.taken k = x.boundary turn.taken (k + 1) := by
  have hself := h.turned.self ht
  unfold boundary Loop.turned Asked.nominal
  simp only [Function.update_self, hself, Asked.expired]
  ring

theorem boundary_other (h : x.s.Turns time now rest turn) (hne : t ≠ turn.taken)
    (ht : t ∈ turn.s.list) (k : Nat) : (x.turned turn).boundary t k = x.boundary t k := by
  unfold boundary Loop.turned
  simp only [Function.update_of_ne hne, h.turned.others t ht hne]

/-- A round keeps the timers on time. -/
theorem OnTime.turned (h : x.OnTime now) (hadv : x.Advances now)
    (hturns : x.s.Turns wrappingTime now rest turn) : (x.turned turn).OnTime now := by
  intro t ht hperiodic
  by_cases hne : t = turn.taken
  · subst hne
    have hself := hturns.turned.self ht
    have halarm : (x.turned turn).s.alarm turn.taken =
        x.s.nextAlarm wrappingTime turn.taken rest := congrArg TimerImpl.alarm hself
    rw [halarm, boundary_taken hturns ht]
    exact hadv.onTime turn.taken rest hturns.list hturns.due (hturns.turned.periodic ht)
  · have hother := hturns.turned.others t ht hne
    have halarm : (x.turned turn).s.alarm t = x.s.alarm t := congrArg TimerImpl.alarm hother
    rw [halarm, boundary_other hturns hne ht]
    exact h t (hturns.turned.listed t ht) (hother ▸ hperiodic)

/-- How many rounds the listed timers can still take. -/
def remaining (x : Loop ι ω) (now : SidTimespec) : Nat :=
  ∑ t ∈ x.s.list.toFinset, (1 + (now.ns + 1 - x.boundary t 0))

theorem remaining_lt (h : x.OnTime now) (hadv : x.Advances now)
    (hturns : x.s.Turns wrappingTime now rest turn) :
    (x.turned turn).remaining now < x.remaining now := by
  have hmem : turn.taken ∈ x.s.list.toFinset := by
    rw [List.mem_toFinset, hturns.list]
    exact List.mem_cons_self
  have hsubset : turn.s.list.toFinset ⊆ x.s.list.toFinset := by
    intro u hu
    exact List.mem_toFinset.mpr (hturns.turned.listed u (List.mem_toFinset.mp hu))
  have hother : ∀ u ∈ turn.s.list.toFinset, u ≠ turn.taken →
      (x.turned turn).boundary u 0 = x.boundary u 0 := by
    intro u hu hne
    exact boundary_other hturns hne (List.mem_toFinset.mp hu) 0
  unfold remaining
  by_cases hkept : turn.taken ∈ turn.s.list
  · -- The timer stays, and its next boundary is a period later.
    have hperiodic := hturns.turned.periodic hkept
    have hpositive := hadv.positive turn.taken rest hturns.list hturns.due hperiodic
    have hdue := (h turn.taken (List.mem_toFinset.mp hmem) hperiodic).mp hturns.due
    have hself : (x.turned turn).boundary turn.taken 0 =
        x.boundary turn.taken 0 + (x.s.timer turn.taken).period.ns := by
      rw [boundary_taken hturns hkept]
      unfold boundary
      ring
    have hless : 1 + (now.ns + 1 - (x.turned turn).boundary turn.taken 0) <
        1 + (now.ns + 1 - x.boundary turn.taken 0) := by
      rw [hself]
      omega
    calc ∑ u ∈ turn.s.list.toFinset, (1 + (now.ns + 1 - (x.turned turn).boundary u 0))
        < ∑ u ∈ turn.s.list.toFinset, (1 + (now.ns + 1 - x.boundary u 0)) := by
          refine Finset.sum_lt_sum ?_ ⟨turn.taken, List.mem_toFinset.mpr hkept, hless⟩
          intro u hu
          by_cases hne : u = turn.taken
          · rw [hne]
            exact hless.le
          · rw [hother u hu hne]
      _ ≤ ∑ u ∈ x.s.list.toFinset, (1 + (now.ns + 1 - x.boundary u 0)) :=
          Finset.sum_le_sum_of_subset hsubset
  · have hne : ∀ u ∈ turn.s.list.toFinset, u ≠ turn.taken := by
      rintro u hu rfl
      exact hkept (List.mem_toFinset.mp hu)
    calc ∑ u ∈ turn.s.list.toFinset, (1 + (now.ns + 1 - (x.turned turn).boundary u 0))
        = ∑ u ∈ turn.s.list.toFinset, (1 + (now.ns + 1 - x.boundary u 0)) := by
          refine Finset.sum_congr rfl ?_
          intro u hu
          rw [hother u hu (hne u hu)]
      _ < ∑ u ∈ x.s.list.toFinset, (1 + (now.ns + 1 - x.boundary u 0)) := by
          refine Finset.sum_lt_sum_of_subset hsubset hmem ?_ (by omega) ?_
          · exact fun ht => hkept (List.mem_toFinset.mp ht)
          · intro u _ _
            exact Nat.zero_le _

/-! ## The loop -/

/-- Where no timer is due the call has done its work. -/
theorem expired_of_none (hvalid : x.s.Valid) (h : x.OnTime now)
    (hround : x.s.round time callbacks now x.w = none) (programmed : SidTimespec) :
    Expired x now (x.s.sidTimerStart programmed) [] := by
  have hlate : ∀ u ∈ x.s.list, now < x.s.alarm u := by
    obtain ⟨-, hlate⟩ | ⟨t, fetched, hfetch, -⟩ := hvalid.listFetch now
    · exact hlate
    · unfold TimerCtx.round at hround
      rw [hfetch] at hround
      simp only at hround
      split at hround
      · cases hround
      · cases hround
  refine ⟨hlate, fun t ht => ⟨ht, rfl⟩, fun t ht _ _ _ => .inr ⟨hlate t ht, ht, rfl⟩,
    fun t _ k hk => absurd hk (Nat.not_lt_zero k), fun t ht _ => ⟨ht.listed, fun k hk => ?_⟩⟩
  have hdue : x.s.alarm t ≤ now := by
    refine (h t ht.listed ht.periodic).mpr (le_trans ?_ hk)
    unfold boundary
    omega
  exact absurd hdue (not_le.mpr (hlate t ht.listed))

theorem firings_other {invocations : List (Invocation ι)} (h : x.s.Turns time now rest turn)
    (hne : t ≠ turn.taken) :
    firings t (turn.invocation.toList ++ invocations) = firings t invocations := by
  unfold firings
  cases hcallback : (x.s.timer turn.taken).callback with
  | true =>
    obtain ⟨calls, hinvocation⟩ := h.invocation hcallback
    rw [hinvocation, Option.toList_some, List.singleton_append,
      List.filter_cons_of_neg (by simpa using hne.symm)]
  | false =>
    rw [h.silent hcallback]
    rfl

theorem firings_taken {invocations : List (Invocation ι)} (h : x.s.Turns time now rest turn)
    (hcallback : (x.s.timer turn.taken).callback = true) :
    firings turn.taken (turn.invocation.toList ++ invocations) =
      x.s.alarm turn.taken :: firings turn.taken invocations := by
  obtain ⟨calls, hinvocation⟩ := h.invocation hcallback
  unfold firings
  rw [hinvocation, Option.toList_some, List.singleton_append, List.filter_cons_of_pos (by simp),
    List.map_cons]

omit [DecidableEq ι] in
/-- A timer that is not cancelled in the end is not cancelled by the round. -/
theorem kept_of_not_cancelled {invocations : List (Invocation ι)}
    (h : x.s.Turns time now rest turn) (ht : t ∈ x.s.list)
    (hself : t = turn.taken → sidTimeIsInfinity (x.s.timer turn.taken).period = false)
    (hnot : ¬Cancelled t (turn.invocation.toList ++ invocations)) :
    t ∈ turn.s.list ∧ ¬Cancelled t invocations := by
  refine ⟨h.kept t ht hself fun i hi op hop htimer => hnot ⟨i, ?_, op, hop, htimer⟩, ?_⟩
  · exact List.mem_append_left _ (Option.mem_toList.mpr hi)
  · rintro ⟨i, hi, hop⟩
    exact hnot ⟨i, List.mem_append_right _ hi, hop⟩

/-- A timer that stays in the list over a round beats on. -/
theorem Beats.turned (ht : x.Beats t) (h : x.s.Turns time now rest turn)
    (hkept : t ∈ turn.s.list) : (x.turned turn).Beats t := by
  have hsame : (turn.s.timer t).callback = (x.s.timer t).callback ∧
      (turn.s.timer t).period = (x.s.timer t).period := by
    by_cases hne : t = turn.taken
    · subst hne
      rw [h.turned.self hkept]
      exact ⟨rfl, rfl⟩
    · rw [h.turned.others t hkept hne]
      exact ⟨rfl, rfl⟩
  exact ⟨hkept, hsame.1.trans ht.callback, (congrArg sidTimeIsInfinity hsame.2).trans ht.periodic⟩

/-- A round before what later rounds do. -/
theorem expired_turned {s' : TimerCtx ι} {invocations : List (Invocation ι)} (h : x.OnTime now)
    (hturns : x.s.Turns time now rest turn)
    (hlater : Expired (x.turned turn) now s' invocations) :
    Expired x now s' (turn.invocation.toList ++ invocations) where
  late := hlater.late
  unlisted := by
    intro t ht
    have hne : t ≠ turn.taken := by
      rintro rfl
      rw [hturns.list] at ht
      exact ht List.mem_cons_self
    rw [firings_other hturns hne]
    exact hlater.unlisted t fun hkept => ht (hturns.turned.listed t hkept)
  oneShot := by
    intro t ht hcallback hinfinity hnot
    by_cases hne : t = turn.taken
    · subst hne
      -- It is taken from the list for good.
      have hgone : turn.taken ∉ turn.s.list := fun hkept =>
        absurd (hinfinity.symm.trans (hturns.turned.periodic hkept)) (by decide)
      obtain ⟨hout, hnone⟩ := hlater.unlisted turn.taken hgone
      exact .inl ⟨hturns.due, hout, by rw [firings_taken hturns hcallback, hnone]⟩
    · obtain ⟨hkept, hnot⟩ := kept_of_not_cancelled hturns ht (fun heq => absurd heq hne) hnot
      have hother := hturns.turned.others t hkept hne
      have halarm : turn.s.alarm t = x.s.alarm t := congrArg TimerImpl.alarm hother
      rw [firings_other hturns hne, ← halarm]
      exact hlater.oneShot t hkept ((congrArg TimerImpl.callback hother).trans hcallback)
        ((congrArg (fun timer => sidTimeIsInfinity timer.period) hother).trans hinfinity) hnot
  once := by
    intro t ht k hk
    by_cases hkept : t ∈ turn.s.list
    · have hrest := hlater.once t (ht.turned hturns hkept)
      by_cases hne : t = turn.taken
      · subst hne
        rw [firings_taken hturns ht.callback, List.length_cons] at hk
        cases k with
        | zero => exact (h turn.taken ht.listed ht.periodic).mp hturns.due
        | succ k =>
          rw [← boundary_taken hturns hkept]
          exact hrest k (Nat.lt_of_succ_lt_succ hk)
      · rw [firings_other hturns hne] at hk
        rw [← boundary_other hturns hne hkept]
        exact hrest k hk
    · -- The round has cancelled it, and it fires no more.
      have hnone := (hlater.unlisted t hkept).2
      by_cases hne : t = turn.taken
      · subst hne
        rw [firings_taken hturns ht.callback, hnone] at hk
        rw [Nat.lt_one_iff.mp hk]
        exact (h turn.taken ht.listed ht.periodic).mp hturns.due
      · rw [firings_other hturns hne, hnone] at hk
        exact absurd hk (Nat.not_lt_zero k)
  every := by
    intro t ht hnot
    obtain ⟨hkept, hnot⟩ := kept_of_not_cancelled hturns ht.listed
      (fun heq => heq ▸ ht.periodic) hnot
    obtain ⟨hlisted, hrest⟩ := hlater.every t (ht.turned hturns hkept) hnot
    refine ⟨hlisted, fun k hk => ?_⟩
    by_cases hne : t = turn.taken
    · subst hne
      rw [firings_taken hturns ht.callback, List.length_cons]
      cases k with
      | zero => exact Nat.succ_pos _
      | succ k =>
        rw [← boundary_taken hturns hkept] at hk
        exact Nat.succ_lt_succ (hrest k hk)
    · rw [firings_other hturns hne]
      rw [← boundary_other hturns hne hkept] at hk
      exact hrest k hk

/-- Where no alarm is carried across `now`, the loop returns. -/
theorem expires (hvalid : x.s.Valid) (hnoArm : NoArm callbacks) (h : x.OnTime now)
    (hadv : ∀ y, (rounds wrappingTime callbacks now x).Reachable y → y.Advances now) :
    ∃ fuel s' w' invocations,
      x.s.eventCallbackWith wrappingTime callbacks now fuel x.w = some (s', w', invocations) ∧
        Expired x now s' invocations := by
  -- Every round makes what remains less.
  induction hremaining : x.remaining now using Nat.strong_induction_on generalizing x with
  | _ n ih =>
    rcases hround : x.s.round wrappingTime callbacks now x.w with _ | turn
    · exact ⟨1, _, _, _, TimerCtx.eventCallbackWith_of_round_none 0 hround,
        expired_of_none hvalid h hround _⟩
    · obtain ⟨rest, hturns⟩ := hvalid.round hnoArm hround
      have hnow : x.Advances now := hadv x (.init rfl)
      have hnext : x.next wrappingTime callbacks now = some (x.turned turn) := by
        rw [Loop.next, hround]
        rfl
      obtain ⟨fuel, s', w', invocations, hrun, hexpired⟩ :=
        ih ((x.turned turn).remaining now) (hremaining ▸ remaining_lt h hnow hturns)
          hturns.turned.valid (h.turned hnow hturns)
          (fun y hy => hadv y (System.orbit_later hnext hy)) rfl
      refine ⟨fuel + 1, s', w', turn.invocation.toList ++ invocations, ?_,
        expired_turned h hturns hexpired⟩
      rw [TimerCtx.eventCallbackWith_of_round hround]
      exact congrArg (Option.map _) hrun

end Loop

/-- After any calls and expiries, a call whose callbacks arm nothing returns and has brought every
timer past `now`, where the periodic timers were on time and no round carries an alarm across
`now`. -/
theorem expiry_returns (callbacks : Callbacks ι ω) (now : SidTimespec) (x : Loop ι ω)
    (h : (timelineWith wrappingTime).Reached CallersInit (x.s, x.asked))
    (hnoArm : NoArm callbacks) (honTime : x.OnTime now)
    (hadv : ∀ y, (rounds wrappingTime callbacks now x).Reachable y → y.Advances now) :
    ∃ fuel s' w' invocations,
      x.s.eventCallbackWith wrappingTime callbacks now fuel x.w = some (s', w', invocations) ∧
        Expired x now s' invocations :=
  Loop.expires (valid_of_timeline h) hnoArm honTime hadv

end

/-! ## One timer -/

/-- A timer whose storage is zeroed. -/
def blankTimer : TimerCtx Unit where
  list := []
  timer _ := ⟨⟨0, 0⟩, ⟨0, 0⟩, ⟨0, 0⟩, false, false⟩
  programmed := none

/-- Callbacks that make no call. -/
def idle {ι : Type} : Callbacks ι Unit := fun _ w _ => ([], w)

/-- A timer that is armed with a period. -/
def armedWith (when' period : SidTimespec) : TimerCtx Unit :=
  (blankTimer.init () true).2.applyWith wrappingTime (.arm () .precise (some when') (some period))

theorem armedWith_reached (when' period : SidTimespec) :
    (timelineWith wrappingTime).Reached CallersInit
      (armedWith when' period, fun _ : Unit => ⟨when', 0⟩) := by
  have hinit : (timelineWith wrappingTime).Reached CallersInit
      ((blankTimer.init () true).2, fun _ : Unit => (⟨when', 0⟩ : Asked)) :=
    .step (s := (blankTimer, fun _ => ⟨when', 0⟩)) (a := .init () true)
      (.init ⟨rfl, fun _ => rfl⟩) rfl ⟨rfl, rfl⟩
  exact .step (a := .op (.arm () .precise (some when') (some period))) hinit trivial
    ⟨rfl, funext fun _ => rfl⟩

theorem idle_noArm : NoArm (idle (ι := Unit)) := fun _ _ _ _ hop => absurd hop List.not_mem_nil

/-- A timer that is armed for 1 s and every second after it, behind so many rounds. -/
def beating (expiries : Nat) : Loop Unit Unit :=
  ⟨(), armedWith ⟨1 + expiries, 0⟩ ⟨1, 0⟩, fun _ => ⟨⟨1, 0⟩, expiries⟩⟩

theorem expiry_returns_beating :
    ∃ fuel s' w' invocations,
      (beating 0).s.eventCallbackWith wrappingTime idle ⟨2, 0⟩ fuel () =
        some (s', w', invocations) ∧ Expired (beating 0) ⟨2, 0⟩ s' invocations := by
  have hadvances {expiries : Nat}
      (honTime : (⟨2 + expiries, 0⟩ : SidTimespec) ≤ ⟨2, 0⟩ ↔
        (beating expiries).boundary () 1 ≤ SidTimespec.ns ⟨2, 0⟩)
      (hnext : (beating expiries).s.nextAlarm wrappingTime () [] = ⟨2 + expiries, 0⟩) :
      (beating expiries).Advances ⟨2, 0⟩ := by
    refine ⟨fun t rest hlist _ _ => ?_, fun t rest hlist _ _ => ?_⟩
    · exact show 0 < SidTimespec.ns ⟨1, 0⟩ by decide
    · cases hlist
      rw [hnext]
      exact honTime
  have hrounds (expiries : Nat)
      (h : (beating expiries).next wrappingTime idle ⟨2, 0⟩ = some ⟨(), armedWith
        ⟨1 + (expiries + 1), 0⟩ ⟨1, 0⟩, Function.update (fun _ => ⟨⟨1, 0⟩, expiries⟩) ()
          ⟨⟨1, 0⟩, expiries + 1⟩⟩) :
      (beating expiries).next wrappingTime idle ⟨2, 0⟩ = some (beating (expiries + 1)) := by
    have hasked : Function.update (fun _ => (⟨⟨1, 0⟩, expiries⟩ : Asked)) ()
        ⟨⟨1, 0⟩, expiries + 1⟩ = fun _ => ⟨⟨1, 0⟩, expiries + 1⟩ := funext fun _ => rfl
    rw [h, hasked, beating]
  refine expiry_returns idle ⟨2, 0⟩ (beating 0) (armedWith_reached _ _) idle_noArm ?_ ?_
  · rintro ⟨⟩ - -
    exact iff_of_true (by decide) (by decide)
  -- The alarms of the rounds are 1 s, 2 s and 3 s.
  refine System.forall_orbit_iff.mpr ⟨hadvances (iff_of_true (by decide) (by decide)) rfl, ?_⟩
  intro x₁ hx₁
  cases (hrounds 0 rfl).symm.trans hx₁
  refine System.forall_orbit_iff.mpr ⟨hadvances (iff_of_false (by decide) (by decide)) rfl, ?_⟩
  intro x₂ hx₂
  cases (hrounds 1 rfl).symm.trans hx₂
  refine System.forall_orbit_iff.mpr ⟨hadvances (iff_of_false (by decide) (by decide)) rfl, ?_⟩
  intro x₃ hx₃
  have hnone : (beating 2).next wrappingTime idle ⟨2, 0⟩ = none := rfl
  cases hnone.symm.trans hx₃

/-- A round leaves the timer with a period of zero as it was. -/
theorem zeroPeriod_round :
    (armedWith ⟨0, 0⟩ ⟨0, 0⟩).round wrappingTime idle ⟨0, 0⟩ () =
      some ⟨(), some ⟨(), ⟨0, 0⟩, []⟩, (), armedWith ⟨0, 0⟩ ⟨0, 0⟩⟩ := by
  rfl

/-- The expiry of a timer that is armed with a period of zero does not end. -/
theorem zeroPeriod_runs :
    (timelineWith wrappingTime).Reached CallersInit
        (armedWith ⟨0, 0⟩ ⟨0, 0⟩, fun _ : Unit => ⟨⟨0, 0⟩, 0⟩) ∧
      NoArm (idle (ι := Unit)) ∧
      ∀ fuel, (armedWith ⟨0, 0⟩ ⟨0, 0⟩).eventCallbackWith wrappingTime idle ⟨0, 0⟩ fuel () =
        none := by
  refine ⟨armedWith_reached _ _, idle_noArm, ?_⟩
  intro fuel
  induction fuel with
  | zero => rfl
  | succ fuel ih =>
    rw [TimerCtx.eventCallbackWith_of_round zeroPeriod_round, ih]
    rfl

/-- A low-power timer for every second, armed behind a neighbour at 1.9 s. -/
def coalescing : TimerCtx Bool :=
  let s := (blankCtx.init false true).2
  let s := s.applyWith wrappingTime (.arm true .precise (some ⟨1, 900000000⟩) none)
  s.applyWith wrappingTime (.arm false .lowpower (some ⟨1, 0⟩) (some ⟨1, 0⟩))

/-- A low-power timer for every second, coalesced with a neighbour at 1.9 s, fires for three of its
boundaries up to 4 s, which are four. -/
theorem lowpower_misses :
    ((coalescing.eventCallbackWith wrappingTime idle ⟨4, 0⟩ 6 ()).map
        fun out => firings false out.2.2) =
      some [⟨1, 900000000⟩, ⟨2, 900000000⟩, ⟨3, 900000000⟩] := by
  decide +kernel

end Sidewalk.Timer
