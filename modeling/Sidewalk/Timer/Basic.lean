import Mathlib

/-!
# Timers

`sid_timer.c`: a list of timers by alarm, the calls that arm and cancel a timer, and the expiry
loop. The doubly linked list is a list of timers beside a flag of each timer, which says that the
pointers of its node are set. `sid_time_ops.h` has no implementation in this repository besides
the one of the unit tests, which is followed here, on numbers that do not wrap.
-/

namespace Sidewalk.Timer

/-! ## Times -/

structure SidTimespec where
  tvSec : Nat
  tvNsec : Nat
  deriving DecidableEq, Repr

/-- `SID_TIME_NSEC_PER_SEC`. -/
def nsecPerSec : Nat := 1000000000

/-- `SID_TIME_INFINITY`. -/
def sidTimeInfinity : SidTimespec where
  tvSec := 0xFFFFFFFF
  tvNsec := 0xFFFFFFFF

def sidTimeNormalize (time : SidTimespec) : SidTimespec where
  tvSec := time.tvSec + time.tvNsec / nsecPerSec
  tvNsec := time.tvNsec % nsecPerSec

def sidTimeAdd (time₁ time₂ : SidTimespec) : SidTimespec :=
  sidTimeNormalize ⟨time₁.tvSec + time₂.tvSec, time₁.tvNsec + time₂.tvNsec⟩

def sidTimeSub (time₁ time₂ : SidTimespec) : SidTimespec :=
  let time₂ := sidTimeNormalize time₂
  let time₁ : SidTimespec :=
    if time₁.tvNsec < time₂.tvNsec then ⟨time₁.tvSec - 1, time₁.tvNsec + nsecPerSec⟩ else time₁
  sidTimeNormalize ⟨time₁.tvSec - time₂.tvSec, time₁.tvNsec - time₂.tvNsec⟩

def sidTimeGt (time₁ time₂ : SidTimespec) : Bool :=
  time₂.tvSec < time₁.tvSec ∨ (time₁.tvSec = time₂.tvSec ∧ time₂.tvNsec < time₁.tvNsec)

def sidTimeIsInfinity (time : SidTimespec) : Bool := time = sidTimeInfinity

/-- Times by seconds, then by nanoseconds. -/
instance : LinearOrder SidTimespec :=
  LinearOrder.lift' (fun time => toLex (time.tvSec, time.tvNsec)) fun a b h => by
    obtain ⟨as, an⟩ := a
    obtain ⟨bs, bn⟩ := b
    cases toLex.injective h
    rfl

theorem sidTimeGt_iff {time₁ time₂ : SidTimespec} :
    sidTimeGt time₁ time₂ = true ↔ time₂ < time₁ := by
  change _ ↔ toLex (time₂.tvSec, time₂.tvNsec) < toLex (time₁.tvSec, time₁.tvNsec)
  rw [Prod.Lex.toLex_lt_toLex, sidTimeGt, decide_eq_true_iff, eq_comm]

theorem not_sidTimeGt_iff {time₁ time₂ : SidTimespec} :
    ¬sidTimeGt time₁ time₂ = true ↔ time₁ ≤ time₂ := by
  rw [sidTimeGt_iff, not_lt]

/-! ## Timers and the list -/

inductive PrioClass
  | precise
  | lowpower
  deriving DecidableEq, Repr

/-- `sid_pal_timer_get_tolerance`. -/
def PrioClass.tolerance : PrioClass → SidTimespec
  | .precise => ⟨0, 0⟩
  | .lowpower => ⟨1, 0⟩

structure TimerImpl where
  alarm : SidTimespec
  period : SidTimespec
  tolerance : SidTimespec
  /-- Whether `callback` is set. -/
  callback : Bool
  /-- Whether one of the pointers of `node` is set. -/
  linked : Bool
  deriving DecidableEq, Repr

/-- The list, the timers, and the time the kernel timer was last started with. -/
structure TimerCtx (ι : Type) where
  list : List ι
  timer : ι → TimerImpl
  programmed : Option SidTimespec

inductive SidError
  | none
  | invalidArgs
  deriving DecidableEq, Repr

section

variable {ι : Type} [DecidableEq ι]

namespace TimerCtx

/-- The context with one timer changed. -/
def modify (s : TimerCtx ι) (t : ι) (f : TimerImpl → TimerImpl) : TimerCtx ι :=
  { s with timer := Function.update s.timer t (f (s.timer t)) }

def alarm (s : TimerCtx ι) (t : ι) : SidTimespec := (s.timer t).alarm

def sidTimerStart (s : TimerCtx ι) (sidTime : SidTimespec) : TimerCtx ι :=
  { s with programmed := some sidTime }

def listInList (s : TimerCtx ι) (t : ι) : Bool := (s.timer t).linked

def listDelete (s : TimerCtx ι) (t : ι) : TimerCtx ι :=
  if (s.timer t).linked = true then
    { s.modify t fun timer => { timer with linked := false } with list := s.list.erase t }
  else s

/-- The walk of `sid_pal_timer_list_insert` to the place of the timer: the list with it, its
alarm, and whether the kernel timer has to be started. -/
def insertGo (alarmOf : ι → SidTimespec) (t : ι) (tolerance alarm : SidTimespec) :
    Bool → List ι → List ι × SidTimespec × Bool
  | rescheduleRequired, [] => ([t], alarm, rescheduleRequired)
  | rescheduleRequired, element :: rest =>
    if sidTimeGt (alarmOf element) alarm = true then
      if ¬sidTimeGt (sidTimeSub (alarmOf element) alarm) tolerance = true then
        (t :: element :: rest, alarmOf element, false)
      else (t :: element :: rest, alarm, rescheduleRequired)
    else
      match insertGo alarmOf t tolerance alarm false rest with
      | (list, alarm, rescheduleRequired) => (element :: list, alarm, rescheduleRequired)

def listInsert (s : TimerCtx ι) (t : ι) : TimerCtx ι :=
  match insertGo s.alarm t (s.timer t).tolerance (s.alarm t) true s.list with
  | (list, alarm, rescheduleRequired) =>
    let s := { s.modify t fun timer => { timer with alarm := alarm, linked := true } with
      list := list }
    if rescheduleRequired = true then s.sidTimerStart alarm else s

def listFetch (s : TimerCtx ι) (nonGtThan : SidTimespec) : Option ι × TimerCtx ι :=
  match s.list with
  | [] => (none, s)
  | t :: rest =>
    if sidTimeGt (s.alarm t) nonGtThan = true then (none, s)
    else (some t, { s.modify t fun timer => { timer with linked := false } with list := rest })

def listGetNextSchedule (s : TimerCtx ι) : SidTimespec :=
  match s.list with
  | [] => sidTimeInfinity
  | t :: _ => s.alarm t

/-! ## Calls -/

def init (s : TimerCtx ι) (t : ι) (eventCallback : Bool) : SidError × TimerCtx ι :=
  if eventCallback = false then (.invalidArgs, s)
  else
    (.none, s.modify t fun timer => { timer with
      callback := true
      alarm := sidTimeInfinity
      period := sidTimeInfinity
      linked := false })

def deinit (s : TimerCtx ι) (t : ι) : SidError × TimerCtx ι :=
  (.none, (s.listDelete t).modify t fun timer => { timer with callback := false })

def isArmed (s : TimerCtx ι) (t : ι) : Bool := s.listInList t

/-- What `sid_pal_timer_arm` sets in the timer. -/
def armFields (type : PrioClass) (when' : SidTimespec) (period : Option SidTimespec)
    (timer : TimerImpl) : TimerImpl :=
  { timer with
    alarm := when'
    period := period.getD sidTimeInfinity
    tolerance := type.tolerance }

def arm (s : TimerCtx ι) (t : ι) (type : PrioClass) (when' period : Option SidTimespec) :
    SidError × TimerCtx ι :=
  match when' with
  | none => (.invalidArgs, s)
  | some when' =>
    if s.isArmed t = true then (.invalidArgs, s)
    else (.none, (s.modify t (armFields type when' period)).listInsert t)

def cancel (s : TimerCtx ι) (t : ι) : SidError × TimerCtx ι := (.none, s.listDelete t)

end TimerCtx

/-! ## Expiry -/

/-- What a callback may do to the timers. -/
inductive Op (ι : Type)
  | arm (t : ι) (type : PrioClass) (when' period : Option SidTimespec)
  | cancel (t : ι)
  | deinit (t : ι)

def TimerCtx.apply (s : TimerCtx ι) : Op ι → TimerCtx ι
  | .arm t type when' period => (s.arm t type when' period).2
  | .cancel t => (s.cancel t).2
  | .deinit t => (s.deinit t).2

/-- The code of the callbacks: the calls it makes when it runs for a timer, which may depend on
the timers and on a state of its own. -/
def Callbacks (ι ω : Type) : Type := ι → ω → TimerCtx ι → List (Op ι) × ω

/-- A callback that was invoked, with the alarm it was invoked for and the calls it made. -/
structure Invocation (ι : Type) where
  timer : ι
  alarm : SidTimespec
  calls : List (Op ι)

/-- The timer taken from the list goes back into it if it is periodic. -/
def TimerCtx.reinsert (s : TimerCtx ι) (t : ι) : TimerCtx ι :=
  if sidTimeIsInfinity (s.timer t).period = true then s
  else
    (s.modify t fun timer =>
      { timer with alarm := sidTimeAdd timer.alarm timer.period }).listInsert t

/-- `sid_pal_timer_event_callback`; `none` where it is still running after so many rounds. -/
def TimerCtx.eventCallback {ω : Type} (callbacks : Callbacks ι ω) (now : SidTimespec) :
    Nat → ω → TimerCtx ι → Option (TimerCtx ι × ω × List (Invocation ι))
  | 0, _, _ => none
  | fuel + 1, w, s =>
    match s.listFetch now with
    | (none, s) => some (s.sidTimerStart s.listGetNextSchedule, w, [])
    | (some t, fetched) =>
      let s := fetched.reinsert t
      if (s.timer t).callback = true then
        match callbacks t w s with
        | (ops, w) =>
          (eventCallback callbacks now fuel w (ops.foldl TimerCtx.apply s)).map
            fun (s, w, invocations) => (s, w, ⟨t, fetched.alarm t, ops⟩ :: invocations)
      else eventCallback callbacks now fuel w s

end

end Sidewalk.Timer
