import Sidewalk.Timer.Time

/-!
# Insertion over any time arithmetic

The list calls of `sid_timer.c` over the functions of `sid_time_ops.h` that add and subtract, and
what the walk to the place of a timer makes of the list. Over numbers that do not wrap the calls
are those of `Sidewalk.Timer.Basic`.
-/

namespace Sidewalk.Timer

/-! ## The calls -/

section

variable {ι : Type} [DecidableEq ι] (time : SidTimeOps)

namespace TimerCtx

/-- `insertGo` over an arithmetic. -/
def insertGoWith (alarmOf : ι → SidTimespec) (t : ι) (tolerance alarm : SidTimespec) :
    Bool → List ι → List ι × SidTimespec × Bool
  | rescheduleRequired, [] => ([t], alarm, rescheduleRequired)
  | rescheduleRequired, element :: rest =>
    if sidTimeGt (alarmOf element) alarm = true then
      if ¬sidTimeGt (time.sub (alarmOf element) alarm) tolerance = true then
        (t :: element :: rest, alarmOf element, false)
      else (t :: element :: rest, alarm, rescheduleRequired)
    else
      match insertGoWith alarmOf t tolerance alarm false rest with
      | (list, alarm, rescheduleRequired) => (element :: list, alarm, rescheduleRequired)

def listInsertWith (s : TimerCtx ι) (t : ι) : TimerCtx ι :=
  match insertGoWith time s.alarm t (s.timer t).tolerance (s.alarm t) true s.list with
  | (list, alarm, rescheduleRequired) =>
    let s := { s.modify t fun timer => { timer with alarm := alarm, linked := true } with
      list := list }
    if rescheduleRequired = true then s.sidTimerStart alarm else s

def armWith (s : TimerCtx ι) (t : ι) (type : PrioClass) (when' period : Option SidTimespec) :
    SidError × TimerCtx ι :=
  match when' with
  | none => (.invalidArgs, s)
  | some when' =>
    if s.isArmed t = true then (.invalidArgs, s)
    else (.none, (s.modify t (armFields type when' period)).listInsertWith time t)

def applyWith (s : TimerCtx ι) : Op ι → TimerCtx ι
  | .arm t type when' period => (s.armWith time t type when' period).2
  | .cancel t => (s.cancel t).2
  | .deinit t => (s.deinit t).2

def reinsertWith (s : TimerCtx ι) (t : ι) : TimerCtx ι :=
  if sidTimeIsInfinity (s.timer t).period = true then s
  else
    (s.modify t fun timer =>
      { timer with alarm := time.add timer.alarm timer.period }).listInsertWith time t

/-- `sid_pal_timer_event_callback` over an arithmetic. -/
def eventCallbackWith {ω : Type} (callbacks : Callbacks ι ω) (now : SidTimespec) :
    Nat → ω → TimerCtx ι → Option (TimerCtx ι × ω × List (Invocation ι))
  | 0, _, _ => none
  | fuel + 1, w, s =>
    match s.listFetch now with
    | (none, s) => some (s.sidTimerStart s.listGetNextSchedule, w, [])
    | (some t, fetched) =>
      let s := fetched.reinsertWith time t
      if (s.timer t).callback = true then
        match callbacks t w s with
        | (ops, w) =>
          (eventCallbackWith callbacks now fuel w (ops.foldl (applyWith time) s)).map
            fun (s, w, invocations) => (s, w, ⟨t, fetched.alarm t, ops⟩ :: invocations)
      else eventCallbackWith callbacks now fuel w s

/-! ## Numbers that do not wrap -/

omit [DecidableEq ι] in
theorem insertGo_eq (alarmOf : ι → SidTimespec) (t : ι) (tolerance alarm : SidTimespec)
    (required : Bool) (l : List ι) :
    insertGo alarmOf t tolerance alarm required l =
      insertGoWith exactTime alarmOf t tolerance alarm required l := by
  induction l generalizing required with
  | nil => rfl
  | cons element rest ih =>
    unfold insertGo insertGoWith
    rw [ih]
    rfl

theorem listInsert_exact (s : TimerCtx ι) (t : ι) :
    s.listInsert t = s.listInsertWith exactTime t := by
  unfold listInsert listInsertWith
  rw [insertGo_eq]

theorem arm_exact (s : TimerCtx ι) (t : ι) (type : PrioClass)
    (when' period : Option SidTimespec) :
    s.arm t type when' period = s.armWith exactTime t type when' period := by
  unfold arm armWith
  cases when' with
  | none => rfl
  | some when' => simp only [listInsert_exact]

theorem apply_exact (s : TimerCtx ι) (op : Op ι) : s.apply op = s.applyWith exactTime op := by
  cases op with
  | arm t type when' period => exact congrArg Prod.snd (s.arm_exact t type when' period)
  | cancel t => rfl
  | deinit t => rfl

theorem reinsert_exact (s : TimerCtx ι) (t : ι) :
    s.reinsert t = s.reinsertWith exactTime t := by
  unfold reinsert reinsertWith
  rw [listInsert_exact]
  rfl

/-- On numbers that do not wrap the expiry loop is the one that the calls before run. -/
theorem eventCallback_exact {ω : Type} (callbacks : Callbacks ι ω) (now : SidTimespec)
    (fuel : Nat) (w : ω) (s : TimerCtx ι) :
    s.eventCallback callbacks now fuel w =
      s.eventCallbackWith exactTime callbacks now fuel w := by
  have happly : (TimerCtx.apply : TimerCtx ι → Op ι → TimerCtx ι) = applyWith exactTime :=
    funext fun s => funext fun op => s.apply_exact op
  induction fuel generalizing w s with
  | zero => rfl
  | succ fuel ih =>
    unfold TimerCtx.eventCallback eventCallbackWith
    rcases s.listFetch now with ⟨fetched | t, s'⟩
    · rfl
    · simp only [ih, happly, reinsert_exact]

end TimerCtx

/-! ## The walk of the insertion -/

/-- What the walk to the place of a timer makes of the list, of the alarm and of the flag. -/
structure Inserted (alarmOf : ι → SidTimespec) (t : ι) (alarm : SidTimespec) (required : Bool)
    (l l' : List ι) (alarm' : SidTimespec) (required' : Bool) : Prop where
  perm : l'.Perm (t :: l)
  later : alarm ≤ alarm'
  sorted : t ∉ l → (l.Pairwise fun a b => alarmOf a ≤ alarmOf b) →
    l'.Pairwise fun a b =>
      Function.update alarmOf t alarm' a ≤ Function.update alarmOf t alarm' b
  started : required' = true → required = true ∧ alarm' = alarm ∧ l' = t :: l
  skipped : required' = false → required = false ∨ ∃ e ∈ l, alarmOf e ≤ alarm'

/-- A timer put before one whose alarm is not earlier. -/
theorem sorted_cons_update {alarmOf : ι → SidTimespec} {t : ι} {alarm : SidTimespec}
    {l : List ι} (hmem : t ∉ l) (hsorted : l.Pairwise fun a b => alarmOf a ≤ alarmOf b)
    (hfirst : ∀ e ∈ l, alarm ≤ alarmOf e) :
    (t :: l).Pairwise fun a b =>
      Function.update alarmOf t alarm a ≤ Function.update alarmOf t alarm b := by
  have hother : ∀ e ∈ l, Function.update alarmOf t alarm e = alarmOf e := by
    intro e he
    exact Function.update_of_ne (ne_of_mem_of_not_mem he hmem) _ _
  refine List.pairwise_cons.mpr ⟨?_, ?_⟩
  · intro e he
    rw [Function.update_self, hother e he]
    exact hfirst e he
  · refine hsorted.imp_of_mem ?_
    intro a b ha hb hab
    rw [hother a ha, hother b hb]
    exact hab

theorem insertGoWith_spec {time : SidTimeOps} {alarmOf : ι → SidTimespec} {t : ι}
    {tolerance alarm : SidTimespec} {required : Bool} {l : List ι} {l' : List ι}
    {alarm' : SidTimespec} {required' : Bool}
    (h : TimerCtx.insertGoWith time alarmOf t tolerance alarm required l =
      (l', alarm', required')) :
    Inserted alarmOf t alarm required l l' alarm' required' := by
  induction l generalizing alarm required l' alarm' required' with
  | nil =>
    cases h
    exact
      { perm := .refl _
        later := le_refl _
        sorted := fun _ _ => List.pairwise_singleton _ _
        started := fun hrequired => ⟨hrequired, rfl, rfl⟩
        skipped := fun hrequired => .inl hrequired }
  | cons element rest ih =>
    unfold TimerCtx.insertGoWith at h
    split at h
    · rename_i hgt
      have hlt : alarm < alarmOf element := sidTimeGt_iff.mp hgt
      have hsucc (hsorted : (element :: rest).Pairwise fun a b => alarmOf a ≤ alarmOf b) :
          ∀ e ∈ element :: rest, alarmOf element ≤ alarmOf e := by
        intro e he
        rcases List.mem_cons.mp he with rfl | he
        · exact le_refl _
        · exact (List.pairwise_cons.mp hsorted).1 e he
      split at h
      · -- The alarm becomes that of the successor.
        cases h
        exact
          { perm := .refl _
            later := hlt.le
            sorted := fun hmem hsorted => sorted_cons_update hmem hsorted (hsucc hsorted)
            started := by intro hrequired; cases hrequired
            skipped := fun _ => .inr ⟨element, List.mem_cons_self, le_refl _⟩ }
      · cases h
        exact
          { perm := .refl _
            later := le_refl _
            sorted := fun hmem hsorted =>
              sorted_cons_update hmem hsorted fun e he => hlt.le.trans (hsucc hsorted e he)
            started := fun hrequired => ⟨hrequired, rfl, rfl⟩
            skipped := fun hrequired => .inl hrequired }
    · rename_i hgt
      have hle : alarmOf element ≤ alarm := not_sidTimeGt_iff.mp hgt
      rcases hgo : TimerCtx.insertGoWith time alarmOf t tolerance alarm false rest with
        ⟨list, alarm₁, required₁⟩
      rw [hgo] at h
      cases h
      have hrest := ih hgo
      exact
        { perm := (hrest.perm.cons element).trans (List.Perm.swap t element rest)
          later := hrest.later
          sorted := by
            intro hmem hsorted
            have hne : element ≠ t := fun h => hmem (h ▸ List.mem_cons_self)
            have hrestMem : t ∉ rest := fun h => hmem (List.mem_cons_of_mem _ h)
            obtain ⟨hhead, htail⟩ := List.pairwise_cons.mp hsorted
            refine List.pairwise_cons.mpr ⟨?_, hrest.sorted hrestMem htail⟩
            intro e he
            rw [Function.update_of_ne hne]
            rcases List.mem_cons.mp (hrest.perm.mem_iff.mp he) with rfl | he
            · rw [Function.update_self]
              exact hle.trans hrest.later
            · rw [Function.update_of_ne (ne_of_mem_of_not_mem he hrestMem)]
              exact hhead e he
          started := by
            intro hrequired
            have hfalse := (hrest.started hrequired).1
            cases hfalse
          skipped := fun _ => .inr ⟨element, List.mem_cons_self, hle.trans hrest.later⟩ }

/-! ## The alarm it leaves -/

/-- The alarm of the first listed timer that is later. -/
def successor (alarmOf : ι → SidTimespec) (alarm : SidTimespec) (l : List ι) :
    Option SidTimespec :=
  (l.find? fun element => sidTimeGt (alarmOf element) alarm).map alarmOf

/-- The alarm of a timer once it is listed: its own, or that of its successor where this is
within the tolerance. -/
def coalesced (alarmOf : ι → SidTimespec) (tolerance alarm : SidTimespec) (l : List ι) :
    SidTimespec :=
  match successor alarmOf alarm l with
  | none => alarm
  | some next => if sidTimeGt (time.sub next alarm) tolerance = true then alarm else next

omit [DecidableEq ι] in
theorem insertGoWith_alarm (alarmOf : ι → SidTimespec) (t : ι) (tolerance alarm : SidTimespec)
    (required : Bool) (l : List ι) :
    (TimerCtx.insertGoWith time alarmOf t tolerance alarm required l).2.1 =
      coalesced time alarmOf tolerance alarm l := by
  induction l generalizing required with
  | nil => rfl
  | cons element rest ih =>
    unfold TimerCtx.insertGoWith coalesced successor
    rw [List.find?_cons]
    by_cases hgt : sidTimeGt (alarmOf element) alarm = true
    · simp only [hgt, if_true, Option.map_some]
      by_cases hnear : sidTimeGt (time.sub (alarmOf element) alarm) tolerance = true
      · simp only [hnear, not_true, if_false, if_true]
      · simp [hnear]
    · simp only [hgt]
      exact ih false

variable {time}

omit [DecidableEq ι] in
/-- A successor is later, and one of the listed alarms. -/
theorem successor_some {alarmOf : ι → SidTimespec} {alarm next : SidTimespec} {l : List ι}
    (h : successor alarmOf alarm l = some next) :
    alarm < next ∧ ∃ e ∈ l, alarmOf e = next := by
  obtain ⟨e, hfind, rfl⟩ := Option.map_eq_some_iff.mp h
  have hgt : sidTimeGt (alarmOf e) alarm = true := by simpa using List.find?_some hfind
  exact ⟨sidTimeGt_iff.mp hgt, e, List.mem_of_find?_eq_some hfind, rfl⟩

omit [DecidableEq ι] in
theorem coalesced_congr {alarmOf alarmOf' : ι → SidTimespec} {tolerance alarm : SidTimespec}
    {l : List ι} (h : ∀ e ∈ l, alarmOf e = alarmOf' e) :
    coalesced time alarmOf tolerance alarm l = coalesced time alarmOf' tolerance alarm l := by
  have hsuccessor : successor alarmOf alarm l = successor alarmOf' alarm l := by
    unfold successor
    induction l with
    | nil => rfl
    | cons element rest ih =>
      obtain ⟨helement, hrest⟩ := List.forall_mem_cons.mp h
      rw [List.find?_cons, List.find?_cons, helement]
      split
      · rw [Option.map_some, Option.map_some, helement]
      · exact ih hrest
  unfold coalesced
  rw [hsuccessor]

omit [DecidableEq ι] in
/-- On numbers that do not wrap the alarm moves by the tolerance at most. -/
theorem coalesced_window (alarmOf : ι → SidTimespec) (tolerance : SidTimespec)
    {alarm : SidTimespec} (l : List ι) (hnormal : alarm.Normal) :
    alarm.ns ≤ (coalesced exactTime alarmOf tolerance alarm l).ns ∧
      (coalesced exactTime alarmOf tolerance alarm l).ns ≤ alarm.ns + tolerance.ns := by
  unfold coalesced
  split
  · exact ⟨le_refl _, Nat.le_add_right _ _⟩
  · rename_i next hnext
    have hle : alarm ≤ next := (successor_some hnext).1.le
    have hns := ns_le_of_le hnormal hle
    split
    · exact ⟨le_refl _, Nat.le_add_right _ _⟩
    · rename_i hnear
      refine ⟨hns, ?_⟩
      have hdiff := ns_le_of_le (sidTimeSub_normal next alarm) (not_sidTimeGt_iff.mp hnear)
      rw [ns_sidTimeSub hnormal hle] at hdiff
      omega

end

end Sidewalk.Timer
