import Sidewalk.Timer.Insertion
import Sidewalk.Lib.System

/-!
# The timer list over whole runs

The list holds no timer twice, holds the timers whose node is set, and is ordered by alarm. The
insertion keeps this although it may move the alarm of the new timer to that of its successor.
-/

namespace Sidewalk.Timer

open Lib

section

variable {ι : Type} [DecidableEq ι]

/-! ## Valid contexts -/

namespace TimerCtx

variable {s : TimerCtx ι} {t : ι}

@[simp] theorem modify_list (f : TimerImpl → TimerImpl) : (s.modify t f).list = s.list := rfl

@[simp] theorem modify_timer_self (f : TimerImpl → TimerImpl) :
    (s.modify t f).timer t = f (s.timer t) := Function.update_self _ _ _

theorem modify_timer_of_ne (f : TimerImpl → TimerImpl) {u : ι} (hne : u ≠ t) :
    (s.modify t f).timer u = s.timer u := Function.update_of_ne hne _ _

omit [DecidableEq ι] in
@[simp] theorem sidTimerStart_list (time : SidTimespec) :
    (s.sidTimerStart time).list = s.list := rfl

omit [DecidableEq ι] in
@[simp] theorem sidTimerStart_timer (time : SidTimespec) :
    (s.sidTimerStart time).timer = s.timer := rfl

/-- What holds of the list and the nodes between two calls. -/
structure Valid (s : TimerCtx ι) : Prop where
  nodup : s.list.Nodup
  linked : ∀ t, (s.timer t).linked = true ↔ t ∈ s.list
  sorted : s.list.Pairwise fun a b => s.alarm a ≤ s.alarm b

omit [DecidableEq ι] in
/-- The empty list, and nodes that are not set. -/
theorem Valid.of_empty {s : TimerCtx ι} (hlist : s.list = [])
    (hlinked : ∀ t, (s.timer t).linked = false) : s.Valid where
  nodup := by
    rw [hlist]
    exact List.nodup_nil
  linked := by
    intro t
    rw [hlinked t, hlist]
    simp
  sorted := by
    rw [hlist]
    exact List.Pairwise.nil

omit [DecidableEq ι] in
/-- The invariant depends on the list and on the nodes and alarms only. -/
theorem Valid.congr {s' : TimerCtx ι} (h : s.Valid) (hlist : s'.list = s.list)
    (hlinked : ∀ u, (s'.timer u).linked = (s.timer u).linked)
    (halarm : ∀ u ∈ s.list, s'.alarm u = s.alarm u) : s'.Valid where
  nodup := by
    rw [hlist]
    exact h.nodup
  linked := by
    intro u
    rw [hlinked, hlist]
    exact h.linked u
  sorted := by
    rw [hlist]
    refine h.sorted.imp_of_mem ?_
    intro a b ha hb hab
    rw [halarm a ha, halarm b hb]
    exact hab

/-- A change of a timer that keeps its node, and its alarm too unless it is not listed. -/
theorem Valid.modify (h : s.Valid) {f : TimerImpl → TimerImpl}
    (hlinked : (f (s.timer t)).linked = (s.timer t).linked)
    (halarm : (f (s.timer t)).alarm = (s.timer t).alarm ∨ t ∉ s.list) : (s.modify t f).Valid := by
  refine h.congr rfl ?_ ?_
  · intro u
    by_cases hu : u = t
    · rw [hu, modify_timer_self, hlinked]
    · rw [modify_timer_of_ne f hu]
  · intro u hmem
    by_cases hu : u = t
    · subst hu
      unfold TimerCtx.alarm
      rw [modify_timer_self]
      exact halarm.resolve_right fun h => h hmem
    · unfold TimerCtx.alarm
      rw [modify_timer_of_ne f hu]

omit [DecidableEq ι] in
theorem Valid.sidTimerStart (h : s.Valid) (time : SidTimespec) : (s.sidTimerStart time).Valid :=
  h.congr rfl (fun _ => rfl) fun _ _ => rfl

/-- The timer leaves the list and its node is reset. -/
theorem Valid.unlink (h : s.Valid) {l : List ι} (hl : l = s.list.erase t) :
    TimerCtx.Valid { s.modify t fun timer => { timer with linked := false } with list := l } where
  nodup := hl ▸ h.nodup.erase t
  linked := by
    intro u
    subst hl
    rw [h.nodup.mem_erase_iff]
    by_cases hu : u = t
    · subst hu
      simp [TimerCtx.modify]
    · simp [TimerCtx.modify, h.linked u, hu]
  sorted := by
    subst hl
    refine (h.sorted.sublist List.erase_sublist).imp_of_mem ?_
    intro a b ha hb hab
    have hkeep (u : ι) (hu : u ∈ s.list.erase t) :
        TimerCtx.alarm
          { s.modify t fun timer => { timer with linked := false } with list := s.list.erase t } u
          = s.alarm u := by
      have hne : u ≠ t := (h.nodup.mem_erase_iff.mp hu).1
      simp [TimerCtx.alarm, TimerCtx.modify, Function.update_of_ne hne]
    rw [hkeep a ha, hkeep b hb]
    exact hab

theorem Valid.listDelete (h : s.Valid) (t : ι) : (s.listDelete t).Valid := by
  unfold TimerCtx.listDelete
  split
  · exact h.unlink rfl
  · exact h

/-- The listed timers of a deletion: all but the one. -/
theorem Valid.mem_listDelete (h : s.Valid) {u : ι} :
    u ∈ (s.listDelete t).list ↔ u ≠ t ∧ u ∈ s.list := by
  unfold TimerCtx.listDelete
  split
  · exact h.nodup.mem_erase_iff
  · rename_i hlinked
    refine ⟨fun hu => ⟨?_, hu⟩, fun hu => hu.2⟩
    rintro rfl
    exact hlinked ((h.linked u).mpr hu)

/-- The context after an insertion, by what its walk answers. -/
theorem listInsertWith_eq (time : SidTimeOps) (s : TimerCtx ι) (t : ι) :
    ∃ l' alarm' required', Inserted s.alarm t (s.alarm t) true s.list l' alarm' required' ∧
      alarm' = coalesced time s.alarm (s.timer t).tolerance (s.alarm t) s.list ∧
      s.listInsertWith time t =
        { list := l'
          timer := Function.update s.timer t
            { s.timer t with alarm := alarm', linked := true }
          programmed := if required' = true then some alarm' else s.programmed } := by
  have halarm := insertGoWith_alarm time s.alarm t (s.timer t).tolerance (s.alarm t) true s.list
  rcases hgo : insertGoWith time s.alarm t (s.timer t).tolerance (s.alarm t) true s.list with
    ⟨l', alarm', required'⟩
  rw [hgo] at halarm
  refine ⟨l', alarm', required', insertGoWith_spec hgo, halarm, ?_⟩
  unfold listInsertWith
  rw [hgo]
  cases required' <;> rfl

theorem Valid.listInsertWith (h : s.Valid) (time : SidTimeOps) (hmem : t ∉ s.list) :
    (s.listInsertWith time t).Valid := by
  obtain ⟨l', alarm', required', hins, -, heq⟩ := s.listInsertWith_eq time t
  have hperm := hins.perm
  rw [heq]
  refine ⟨?_, ?_, ?_⟩
  · exact hperm.nodup_iff.mpr (List.nodup_cons.mpr ⟨hmem, h.nodup⟩)
  · intro u
    change (Function.update s.timer t _ u).linked = true ↔ u ∈ l'
    rw [hperm.mem_iff, List.mem_cons]
    by_cases hu : u = t
    · subst hu
      simp
    · rw [Function.update_of_ne hu, h.linked u]
      simp [hu]
  · refine (hins.sorted hmem h.sorted).imp ?_
    have hupdate (u : ι) : (Function.update s.timer t
        { s.timer t with alarm := alarm', linked := true } u).alarm =
          Function.update s.alarm t alarm' u := by
      by_cases hu : u = t
      · subst hu
        simp
      · rw [Function.update_of_ne hu, Function.update_of_ne hu]
        rfl
    intro a b hab
    change (Function.update s.timer t _ a).alarm ≤ (Function.update s.timer t _ b).alarm
    rw [hupdate, hupdate]
    exact hab

/-- What fetching a timer says of the head of the list. -/
theorem Valid.listFetch (h : s.Valid) (now : SidTimespec) :
    (s.listFetch now = (none, s) ∧ ∀ u ∈ s.list, now < s.alarm u) ∨
      ∃ u s', s.listFetch now = (some u, s') ∧ s'.Valid ∧ s'.list = s.list.erase u ∧
        u ∈ s.list ∧ u ∉ s'.list ∧ s.alarm u ≤ now ∧
        s'.timer = Function.update s.timer u { s.timer u with linked := false } ∧
        s'.programmed = s.programmed := by
  unfold TimerCtx.listFetch
  split
  · rename_i hnil
    rw [hnil]
    exact .inl ⟨rfl, fun u hu => absurd hu List.not_mem_nil⟩
  · rename_i u rest hlist
    have hsorted := h.sorted
    have hnodup := h.nodup
    rw [hlist] at hsorted hnodup
    split
    · rename_i hgt
      refine .inl ⟨rfl, ?_⟩
      have hlt : now < s.alarm u := sidTimeGt_iff.mp hgt
      intro v hv
      rw [hlist] at hv
      rcases List.mem_cons.mp hv with rfl | hv
      · exact hlt
      · exact hlt.trans_le ((List.pairwise_cons.mp hsorted).1 v hv)
    · rename_i hgt
      have herase : rest = s.list.erase u := by
        rw [hlist, List.erase_cons_head]
      refine .inr ⟨u, _, rfl, h.unlink herase, herase, ?_, ?_, not_sidTimeGt_iff.mp hgt, rfl, rfl⟩
      · rw [hlist]
        exact List.mem_cons_self
      · exact (List.nodup_cons.mp hnodup).1

/-! ## Calls and the expiry loop -/

omit [DecidableEq ι] in
theorem isArmed_iff (h : s.Valid) : s.isArmed t = true ↔ t ∈ s.list := h.linked t

theorem Valid.init (h : s.Valid) (hunarmed : s.isArmed t = false) (eventCallback : Bool) :
    (s.init t eventCallback).2.Valid := by
  unfold TimerCtx.init
  split
  · exact h
  · refine Valid.modify h (f := fun timer => { timer with
      callback := true
      alarm := sidTimeInfinity
      period := sidTimeInfinity
      linked := false }) ?_ (.inr ?_)
    · exact hunarmed.symm
    · intro hmem
      rw [(isArmed_iff h).mpr hmem] at hunarmed
      cases hunarmed

theorem Valid.deinit (h : s.Valid) (t : ι) : (s.deinit t).2.Valid :=
  Valid.modify (f := fun timer => { timer with callback := false }) (h.listDelete t) rfl
    (.inl rfl)

theorem Valid.armWith (h : s.Valid) (time : SidTimeOps) (t : ι) (type : PrioClass)
    (when' period : Option SidTimespec) : (s.armWith time t type when' period).2.Valid := by
  unfold TimerCtx.armWith
  split
  · exact h
  · split
    · exact h
    · rename_i hunarmed
      have hmem : t ∉ s.list := fun hmem => hunarmed ((isArmed_iff h).mpr hmem)
      exact (h.modify rfl (.inr hmem)).listInsertWith time hmem

theorem Valid.arm (h : s.Valid) (t : ι) (type : PrioClass) (when' period : Option SidTimespec) :
    (s.arm t type when' period).2.Valid := by
  rw [arm_exact]
  exact h.armWith exactTime t type when' period

theorem Valid.applyWith (h : s.Valid) (time : SidTimeOps) (op : Op ι) :
    (s.applyWith time op).Valid := by
  cases op with
  | arm t type when' period => exact h.armWith time t type when' period
  | cancel t => exact h.listDelete t
  | deinit t => exact h.deinit t

theorem Valid.apply (h : s.Valid) (op : Op ι) : (s.apply op).Valid := by
  rw [apply_exact]
  exact h.applyWith exactTime op

theorem Valid.foldl_applyWith (h : s.Valid) (time : SidTimeOps) (ops : List (Op ι)) :
    (ops.foldl (TimerCtx.applyWith time) s).Valid := by
  induction ops generalizing s with
  | nil => exact h
  | cons op ops ih => exact ih (h.applyWith time op)

theorem Valid.reinsertWith (h : s.Valid) (time : SidTimeOps) (hmem : t ∉ s.list) :
    (s.reinsertWith time t).Valid := by
  unfold TimerCtx.reinsertWith
  split
  · exact h
  · exact (h.modify rfl (.inr hmem)).listInsertWith time hmem

/-- The expiry loop keeps the invariant, invokes callbacks of timers that are due, and leaves none
of these in the list. -/
theorem Valid.eventCallbackWith {ω : Type} {time : SidTimeOps} {callbacks : Callbacks ι ω}
    {now : SidTimespec} {fuel : Nat} {w w' : ω} {s' : TimerCtx ι}
    {invocations : List (Invocation ι)} (h : s.Valid)
    (hrun : s.eventCallbackWith time callbacks now fuel w = some (s', w', invocations)) :
    s'.Valid ∧ (∀ i ∈ invocations, i.alarm ≤ now) ∧ ∀ t ∈ s'.list, now < s'.alarm t := by
  induction fuel generalizing s w invocations with
  | zero => cases hrun
  | succ fuel ih =>
    unfold TimerCtx.eventCallbackWith at hrun
    obtain ⟨hfetch, hlate⟩ | ⟨u, fetched, hfetch, hvalid, -, -, hmem, hdue, htimer, -⟩ :=
      h.listFetch now
    · rw [hfetch] at hrun
      cases hrun
      exact ⟨h.sidTimerStart _, fun i hi => absurd hi List.not_mem_nil, hlate⟩
    · rw [hfetch] at hrun
      have hre := hvalid.reinsertWith time hmem
      have halarm : fetched.alarm u ≤ now := by
        unfold TimerCtx.alarm
        rw [htimer, Function.update_self]
        exact hdue
      simp only at hrun
      split at hrun
      · obtain ⟨⟨s₁, w₁, rest⟩, hrest, hout⟩ := Option.map_eq_some_iff.mp hrun
        cases hout
        obtain ⟨hvalid', hinvoked, hlate⟩ := ih (hre.foldl_applyWith time _) hrest
        refine ⟨hvalid', ?_, hlate⟩
        intro i hi
        rcases List.mem_cons.mp hi with rfl | hi
        · exact halarm
        · exact hinvoked i hi
      · exact ih hre hrun

theorem Valid.eventCallback {ω : Type} {callbacks : Callbacks ι ω} {now : SidTimespec}
    {fuel : Nat} {w w' : ω} {s' : TimerCtx ι} {invocations : List (Invocation ι)} (h : s.Valid)
    (hrun : s.eventCallback callbacks now fuel w = some (s', w', invocations)) :
    s'.Valid ∧ (∀ i ∈ invocations, i.alarm ≤ now) ∧ ∀ t ∈ s'.list, now < s'.alarm t := by
  rw [eventCallback_exact] at hrun
  exact h.eventCallbackWith hrun

end TimerCtx

/-! ## Runs -/

/-- A call of the interface, as the code outside the callbacks makes it. -/
inductive Call (ι : Type)
  | init (t : ι) (eventCallback : Bool)
  | op (op : Op ι)
  | event (now : SidTimespec)

/-- Whole calls one after the other, from the empty list and nodes that are not set. -/
def calls {ω : Type} (callbacks : Callbacks ι ω) : System (ω × TimerCtx ι) (Call ι) where
  init s := s.2.list = [] ∧ ∀ t, (s.2.timer t).linked = false
  step
    | (w, s), .init t eventCallback, (w', s') => w' = w ∧ s' = (s.init t eventCallback).2
    | (w, s), .op op, (w', s') => w' = w ∧ s' = s.apply op
    | (w, s), .event now, (w', s') =>
      ∃ fuel invocations, s.eventCallback callbacks now fuel w = some (s', w', invocations)

/-- Only timers that are not armed are initialised. -/
def InitUnarmed {ω : Type} : ω × TimerCtx ι → Call ι → Prop
  | (_, s), .init t _ => s.isArmed t = false
  | _, _ => True

theorem valid_of_reached {ω : Type} {callbacks : Callbacks ι ω} {s : ω × TimerCtx ι}
    (h : (calls callbacks).Reached InitUnarmed s) : s.2.Valid := by
  refine h.invariant (I := fun s => s.2.Valid) (fun s hs => .of_empty hs.1 hs.2) ?_
  rintro ⟨w, s⟩ a ⟨w', s'⟩ hvalid hguard hstep
  cases a with
  | init t eventCallback =>
    obtain ⟨rfl, rfl⟩ := hstep
    exact hvalid.init hguard eventCallback
  | op op =>
    obtain ⟨rfl, rfl⟩ := hstep
    exact hvalid.apply op
  | event now =>
    obtain ⟨fuel, invocations, hrun⟩ := hstep
    exact (hvalid.eventCallback hrun).1

/-- After any calls, the list holds no timer twice, its timers are those that are armed, and it is
ordered by alarm; an expiry that returns then invokes callbacks of timers that are due and leaves
only timers that are not. -/
theorem list_after_calls {ω : Type} (callbacks : Callbacks ι ω) (w : ω) (s : TimerCtx ι)
    (h : (calls callbacks).Reached InitUnarmed (w, s)) :
    s.list.Nodup ∧ (∀ t, s.isArmed t = true ↔ t ∈ s.list) ∧
      (s.list.Pairwise fun a b => s.alarm a ≤ s.alarm b) ∧
      ∀ now fuel s' w' invocations,
        s.eventCallback callbacks now fuel w = some (s', w', invocations) →
          (∀ i ∈ invocations, i.alarm ≤ now) ∧ ∀ t ∈ s'.list, now < s'.alarm t := by
  have hvalid := valid_of_reached h
  refine ⟨hvalid.nodup, fun t => TimerCtx.isArmed_iff hvalid, hvalid.sorted, ?_⟩
  intro now fuel s' w' invocations hrun
  exact (hvalid.eventCallback hrun).2

end

/-- Timers whose storage is zeroed. -/
def blankCtx : TimerCtx Bool where
  list := []
  timer _ := ⟨⟨0, 0⟩, ⟨0, 0⟩, ⟨0, 0⟩, false, false⟩
  programmed := none

/-- A timer and a periodic one, which is due first. -/
def twoArmed : TimerCtx Bool :=
  let s := (blankCtx.init false true).2
  let s := (s.init true true).2
  let s := s.apply (.arm false .precise (some ⟨5, 0⟩) none)
  s.apply (.arm true .lowpower (some ⟨3, 0⟩) (some ⟨10, 0⟩))

/-- Callbacks that cancel the first of the timers. -/
def cancelling : Callbacks Bool Unit := fun _ w _ => ([.cancel false], w)

theorem list_after_calls_twoArmed :
    twoArmed.list = [true, false] ∧ twoArmed.list.Nodup ∧
      (∀ t, twoArmed.isArmed t = true ↔ t ∈ twoArmed.list) ∧
      (twoArmed.list.Pairwise fun a b => twoArmed.alarm a ≤ twoArmed.alarm b) ∧
      ∀ now fuel s' w' invocations,
        twoArmed.eventCallback cancelling now fuel () = some (s', w', invocations) →
          (∀ i ∈ invocations, i.alarm ≤ now) ∧ ∀ t ∈ s'.list, now < s'.alarm t := by
  refine ⟨by decide, list_after_calls cancelling () twoArmed ?_⟩
  have hstep {s s' : TimerCtx Bool} (a : Call Bool)
      (h : (calls cancelling).Reached InitUnarmed ((), s)) (hguard : InitUnarmed ((), s) a)
      (ha : (calls cancelling).step ((), s) a ((), s')) :
      (calls cancelling).Reached InitUnarmed ((), s') := .step h hguard ha
  have hblank : (calls cancelling).Reached InitUnarmed ((), blankCtx) :=
    .init ⟨rfl, fun _ => rfl⟩
  have hfirst := hstep (.init false true) hblank rfl ⟨rfl, rfl⟩
  have hsecond := hstep (.init true true) hfirst rfl ⟨rfl, rfl⟩
  have harm := hstep (.op (.arm false .precise (some ⟨5, 0⟩) none)) hsecond trivial ⟨rfl, rfl⟩
  exact hstep (.op (.arm true .lowpower (some ⟨3, 0⟩) (some ⟨10, 0⟩))) harm trivial ⟨rfl, rfl⟩

end Sidewalk.Timer
