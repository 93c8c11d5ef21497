import Mathlib
import Sidewalk.Lib.System

/-!
# The timer of the modem HAL

The timer half of `smtc_modem_impl.c`: one PAL timer, a callback with its context, and two flags
for the interrupts. A timer that expires while they are disabled is left to the next
`smtc_modem_hal_enable_modem_irq`.
-/

namespace Sidewalk.Radio

open Sidewalk.Lib

variable {κ γ : Type}

/-! ## Calls -/

/-- The static variables, and which deadline the PAL timer is armed for. A null pointer is
`none`. -/
structure ModemHal (κ γ : Type) where
  halTimerIrqEnabled : Bool
  halTimerIrqPending : Bool
  halTimerRunning : Bool
  halTimerCallback : Option κ
  halTimerContext : Option γ
  halTimer : Option Nat

namespace ModemHal

def initial : ModemHal κ γ := ⟨true, false, false, none, none, none⟩

/-- What `HalTimerCallback(halTimerContext)` calls. -/
abbrev Call (κ γ : Type) := Option κ × Option γ

def disableModemIrq (h : ModemHal κ γ) : ModemHal κ γ := { h with halTimerIrqEnabled := false }

/-- The callback is not compared with null here. -/
def enableModemIrq (h : ModemHal κ γ) : ModemHal κ γ × List (Call κ γ) :=
  if h.halTimerIrqPending then
    ({ h with halTimerIrqEnabled := true, halTimerIrqPending := false },
      [(h.halTimerCallback, h.halTimerContext)])
  else ({ h with halTimerIrqEnabled := true }, [])

def halTimerHandler (h : ModemHal κ γ) : ModemHal κ γ × List (Call κ γ) :=
  let h := { h with halTimer := none, halTimerRunning := false }
  if h.halTimerIrqEnabled then
    if h.halTimerCallback.isSome then (h, [(h.halTimerCallback, h.halTimerContext)]) else (h, [])
  else ({ h with halTimerIrqPending := true }, [])

/-- `sid_pal_timer_arm` refuses a timer that is armed. -/
def startTimer (h : ModemHal κ γ) (deadline : Nat) (callback : Option κ) (context : Option γ) :
    ModemHal κ γ :=
  let h := { h with halTimerCallback := callback, halTimerContext := context }
  if h.halTimer.isNone then { h with halTimer := some deadline, halTimerRunning := true } else h

def stopTimer (h : ModemHal κ γ) : ModemHal κ γ :=
  { h with
    halTimer := none
    halTimerRunning := false
    halTimerCallback := none
    halTimerContext := none }

end ModemHal

/-! ## Runs -/

/-- What has happened; a start is known by its number. -/
inductive HalEvent (κ γ : Type)
  | started (k : Nat) (callback : Option κ) (context : Option γ)
  | stopped
  | disabled
  | enabled
  /-- The timer armed by this start expires. -/
  | expired (k : Nat)
  | called (call : ModemHal.Call κ γ)

/-- The last event is the first of the history. -/
structure HalRun (κ γ : Type) where
  hal : ModemHal κ γ
  starts : Nat
  history : List (HalEvent κ γ)

inductive HalAct (κ γ : Type)
  | start (callback : Option κ) (context : Option γ)
  | stop
  | disable
  | enable
  | expire

def HalRun.record (s : HalRun κ γ) (e : HalEvent κ γ)
    (r : ModemHal κ γ × List (ModemHal.Call κ γ)) : HalRun κ γ :=
  ⟨r.1, s.starts, r.2.map .called ++ e :: s.history⟩

inductive HalStep : HalRun κ γ → HalAct κ γ → HalRun κ γ → Prop
  | start {s} (callback context) : HalStep s (.start callback context)
      ⟨s.hal.startTimer s.starts callback context, s.starts + 1,
        .started s.starts callback context :: s.history⟩
  | stop {s} : HalStep s .stop (s.record .stopped (s.hal.stopTimer, []))
  | disable {s} : HalStep s .disable (s.record .disabled (s.hal.disableModemIrq, []))
  | enable {s} : HalStep s .enable (s.record .enabled s.hal.enableModemIrq)
  | expire {s k} : s.hal.halTimer = some k →
      HalStep s .expire (s.record (.expired k) s.hal.halTimerHandler)

def modemHal (κ γ : Type) : System (HalRun κ γ) (HalAct κ γ) where
  init s := s = ⟨.initial, 0, []⟩
  step := HalStep

/-! ## The protocol -/

/-- Whether the interrupts are enabled after the events. -/
def irqEnabled : List (HalEvent κ γ) → Bool
  | [] => true
  | .disabled :: _ => false
  | .enabled :: _ => true
  | _ :: history => irqEnabled history

/-- Neither a start nor a stop nor a call. -/
def HalEvent.Quiet : HalEvent κ γ → Prop
  | .started .. | .stopped | .called _ => False
  | _ => True

/-- Neither a start nor a stop, and the interrupts stay disabled. -/
def HalEvent.Waiting : HalEvent κ γ → Prop
  | .started .. | .stopped | .enabled => False
  | _ => True

/-- The start with this callback and context is the last one, and not stopped or answered. -/
def Current (history : List (HalEvent κ γ)) (k : Nat) (callback : Option κ)
    (context : Option γ) (since : List (HalEvent κ γ)) : Prop :=
  (∀ e ∈ since, e.Quiet) ∧ ∃ older, history = since ++ .started k callback context :: older

/-- The call is the answer to a start: after the start its timer has expired, and there was no
other call, no stop and no other start. The interrupts are enabled. -/
def Answers (call : ModemHal.Call κ γ) (before : List (HalEvent κ γ)) : Prop :=
  call.1.isSome = true ∧ irqEnabled before = true ∧
    ∃ k since, Current before k call.1 call.2 since ∧ .expired k ∈ since

/-- Every call answers a start, and an expiry while the interrupts are disabled is answered when
they are enabled, unless the timer is stopped or started before. -/
structure Protocol (history : List (HalEvent κ γ)) : Prop where
  answers : ∀ call before, .called call :: before <:+ history → Answers call before
  delivered : ∀ k since older, (∀ e ∈ since, e.Waiting) → irqEnabled older = false →
    .enabled :: (since ++ .expired k :: older) <:+ history →
      ∃ call, .called call :: .enabled :: (since ++ .expired k :: older) <:+ history

/-! ## What a step keeps -/

/-- The timer is started while it is not armed, and an expiry that is left over is the one of the
last start. -/
def Orderly (s : HalRun κ γ) : HalAct κ γ → Prop
  | .start _ _ => s.hal.halTimer = none
  | .enable => s.hal.halTimerIrqPending = true →
      s.hal.halTimerCallback.isSome = true ∧ s.hal.halTimer = none
  | _ => True

/-- How the variables go with the history. -/
structure Linked (s : HalRun κ γ) : Prop where
  enabled : s.hal.halTimerIrqEnabled = irqEnabled s.history
  pending : s.hal.halTimerIrqPending = true → s.hal.halTimerIrqEnabled = false
  armed : ∀ k, s.hal.halTimer = some k →
    ∃ since, Current s.history k s.hal.halTimerCallback s.hal.halTimerContext since
  expired : s.hal.halTimerIrqPending = true → s.hal.halTimer = none →
    s.hal.halTimerCallback.isSome = true →
      ∃ k since, Current s.history k s.hal.halTimerCallback s.hal.halTimerContext since ∧
        .expired k ∈ since
  waiting : ∀ k since older, (∀ e ∈ since, e.Waiting) → irqEnabled older = false →
    s.history = since ++ .expired k :: older → s.hal.halTimerIrqPending = true
  protocol : Protocol s.history

theorem Current.cons {history : List (HalEvent κ γ)} {k : Nat} {callback : Option κ}
    {context : Option γ} {since : List (HalEvent κ γ)} {e : HalEvent κ γ} (he : e.Quiet)
    (h : Current history k callback context since) :
    Current (e :: history) k callback context (e :: since) := by
  obtain ⟨hquiet, older, rfl⟩ := h
  exact ⟨List.forall_mem_cons.mpr ⟨he, hquiet⟩, older, rfl⟩

section

variable {history : List (HalEvent κ γ)} {e : HalEvent κ γ}

theorem protocol_nil : Protocol (κ := κ) (γ := γ) [] where
  answers _ _ hsuffix := absurd (List.suffix_nil.mp hsuffix) (List.cons_ne_nil _ _)
  delivered _ _ _ _ _ hsuffix := absurd (List.suffix_nil.mp hsuffix) (List.cons_ne_nil _ _)

theorem Protocol.cons (h : Protocol history) (hcall : ∀ call, e ≠ .called call)
    (henabled : e ≠ .enabled) : Protocol (e :: history) where
  answers call before hsuffix := by
    rcases List.suffix_cons_iff.mp hsuffix with heq | hsuffix
    · exact absurd (List.cons.inj heq).1.symm (hcall call)
    · exact h.answers call before hsuffix
  delivered k since older hwaiting holder hsuffix := by
    rcases List.suffix_cons_iff.mp hsuffix with heq | hsuffix
    · exact absurd (List.cons.inj heq).1.symm henabled
    · obtain ⟨call, hcalled⟩ := h.delivered k since older hwaiting holder hsuffix
      exact ⟨call, hcalled.trans (List.suffix_cons e history)⟩

theorem Protocol.called (h : Protocol history) {call : ModemHal.Call κ γ}
    (hanswers : Answers call history) : Protocol (.called call :: history) where
  answers call' before hsuffix := by
    rcases List.suffix_cons_iff.mp hsuffix with heq | hsuffix
    · obtain ⟨hcall, rfl⟩ := List.cons.inj heq
      cases hcall
      exact hanswers
    · exact h.answers call' before hsuffix
  delivered k since older hwaiting holder hsuffix := by
    rcases List.suffix_cons_iff.mp hsuffix with heq | hsuffix
    · cases (List.cons.inj heq).1
    · obtain ⟨call', hcalled⟩ := h.delivered k since older hwaiting holder hsuffix
      exact ⟨call', hcalled.trans (List.suffix_cons _ _)⟩

theorem Protocol.enabled (h : Protocol history)
    (hnone : ∀ k since older, (∀ e ∈ since, HalEvent.Waiting e) → irqEnabled older = false →
      history ≠ since ++ .expired k :: older) : Protocol (.enabled :: history) where
  answers call before hsuffix := by
    rcases List.suffix_cons_iff.mp hsuffix with heq | hsuffix
    · cases (List.cons.inj heq).1
    · exact h.answers call before hsuffix
  delivered k since older hwaiting holder hsuffix := by
    rcases List.suffix_cons_iff.mp hsuffix with heq | hsuffix
    · exact absurd (List.cons.inj heq).2.symm (hnone k since older hwaiting holder)
    · obtain ⟨call, hcalled⟩ := h.delivered k since older hwaiting holder hsuffix
      exact ⟨call, hcalled.trans (List.suffix_cons _ _)⟩

theorem Protocol.enabled_called (h : Protocol history) {call : ModemHal.Call κ γ}
    (hanswers : Answers call (.enabled :: history)) :
    Protocol (.called call :: .enabled :: history) where
  answers call' before hsuffix := by
    rcases List.suffix_cons_iff.mp hsuffix with heq | hsuffix
    · obtain ⟨hcall, rfl⟩ := List.cons.inj heq
      cases hcall
      exact hanswers
    rcases List.suffix_cons_iff.mp hsuffix with heq | hsuffix
    · cases (List.cons.inj heq).1
    · exact h.answers call' before hsuffix
  delivered k since older hwaiting holder hsuffix := by
    rcases List.suffix_cons_iff.mp hsuffix with heq | hsuffix
    · cases (List.cons.inj heq).1
    rcases List.suffix_cons_iff.mp hsuffix with heq | hsuffix
    · exact ⟨call, heq ▸ List.suffix_refl _⟩
    · obtain ⟨call', hcalled⟩ := h.delivered k since older hwaiting holder hsuffix
      exact ⟨call', (hcalled.trans (List.suffix_cons _ _)).trans (List.suffix_cons _ _)⟩

/-- An expiry that waits behind one more event waited before it, or is that event. -/
theorem waiting_cons {k : Nat} {since older : List (HalEvent κ γ)}
    (hwaiting : ∀ e ∈ since, HalEvent.Waiting e) (heq : e :: history = since ++ .expired k :: older) :
    e = .expired k ∧ history = older ∨
      e.Waiting ∧ ∃ since', (∀ e ∈ since', HalEvent.Waiting e) ∧
        history = since' ++ .expired k :: older := by
  cases since with
  | nil => exact .inl (List.cons.inj heq)
  | cons e' since =>
    obtain ⟨rfl, hhistory⟩ := List.cons.inj heq
    obtain ⟨he, hsince⟩ := List.forall_mem_cons.mp hwaiting
    exact .inr ⟨he, since, hsince, hhistory⟩

end

section

variable {s : HalRun κ γ}

theorem Linked.start (h : Linked s) (hidle : s.hal.halTimer = none) (callback : Option κ)
    (context : Option γ) :
    Linked ⟨s.hal.startTimer s.starts callback context, s.starts + 1,
      .started s.starts callback context :: s.history⟩ := by
  have hstart : s.hal.startTimer s.starts callback context =
      { s.hal with
        halTimerCallback := callback
        halTimerContext := context
        halTimer := some s.starts
        halTimerRunning := true } := by
    unfold ModemHal.startTimer
    simp only [hidle, Option.isNone_none, if_true]
  rw [hstart]
  constructor
  · exact h.enabled
  · exact h.pending
  · rintro k ⟨⟩
    exact ⟨[], fun _ he => absurd he List.not_mem_nil, s.history, rfl⟩
  · intro _ hnone
    cases hnone
  · intro k since older hwaiting holder heq
    rcases waiting_cons hwaiting heq with ⟨hexpired, -⟩ | ⟨hstarted, -⟩
    · cases hexpired
    · exact hstarted.elim
  · exact h.protocol.cons nofun nofun

theorem Linked.stop (h : Linked s) : Linked (s.record .stopped (s.hal.stopTimer, [])) where
  enabled := h.enabled
  pending := h.pending
  armed k hk := by cases hk
  expired _ _ hsome := by cases hsome
  waiting k since older hwaiting holder heq := by
    rcases waiting_cons hwaiting heq with ⟨hexpired, -⟩ | ⟨hstopped, -⟩
    · cases hexpired
    · exact hstopped.elim
  protocol := h.protocol.cons nofun nofun

theorem Linked.disable (h : Linked s) :
    Linked (s.record .disabled (s.hal.disableModemIrq, [])) where
  enabled := rfl
  pending _ := rfl
  armed k hk := by
    obtain ⟨since, hcurrent⟩ := h.armed k hk
    exact ⟨_, hcurrent.cons trivial⟩
  expired hpending hidle hsome := by
    obtain ⟨k, since, hcurrent, hexpired⟩ := h.expired hpending hidle hsome
    exact ⟨k, _, hcurrent.cons trivial, List.mem_cons_of_mem _ hexpired⟩
  waiting k since older hwaiting holder heq := by
    rcases waiting_cons hwaiting heq with ⟨hexpired, -⟩ | ⟨-, since', hsince, hhistory⟩
    · cases hexpired
    · exact h.waiting k since' older hsince holder hhistory
  protocol := h.protocol.cons nofun nofun

/-- The expiry that was left over is answered. -/
theorem Linked.enable (h : Linked s) (horderly : Orderly s .enable) :
    Linked (s.record .enabled s.hal.enableModemIrq) := by
  by_cases hpending : s.hal.halTimerIrqPending = true
  · obtain ⟨hsome, hidle⟩ := horderly hpending
    obtain ⟨k, since, hcurrent, hexpired⟩ := h.expired hpending hidle hsome
    have henable : s.hal.enableModemIrq =
        ({ s.hal with halTimerIrqEnabled := true, halTimerIrqPending := false },
          [(s.hal.halTimerCallback, s.hal.halTimerContext)]) := if_pos hpending
    rw [henable]
    constructor
    · rfl
    · intro hfalse
      cases hfalse
    · intro k hk
      exact absurd (hidle.symm.trans hk) (Option.some_ne_none k).symm
    · intro hfalse
      cases hfalse
    · intro k since older hwaiting holder heq
      rcases waiting_cons hwaiting heq with ⟨hcalled, -⟩ | ⟨-, since', hsince, hhistory⟩
      · cases hcalled
      rcases waiting_cons hsince hhistory with ⟨henabled, -⟩ | ⟨henabled, -⟩
      · cases henabled
      · exact henabled.elim
    · exact h.protocol.enabled_called
        ⟨hsome, rfl, k, _, hcurrent.cons trivial, List.mem_cons_of_mem _ hexpired⟩
  · have henable : s.hal.enableModemIrq = ({ s.hal with halTimerIrqEnabled := true }, []) :=
      if_neg hpending
    rw [henable]
    constructor
    · rfl
    · intro htrue
      exact absurd htrue hpending
    · intro k hk
      obtain ⟨since, hcurrent⟩ := h.armed k hk
      exact ⟨_, hcurrent.cons trivial⟩
    · intro htrue
      exact absurd htrue hpending
    · intro k since older hwaiting holder heq
      rcases waiting_cons hwaiting heq with ⟨henabled, -⟩ | ⟨henabled, -⟩
      · cases henabled
      · exact henabled.elim
    · refine h.protocol.enabled fun k since older hwaiting holder hhistory => ?_
      exact hpending (h.waiting k since older hwaiting holder hhistory)

theorem Linked.expire (h : Linked s) {k : Nat} (harmed : s.hal.halTimer = some k) :
    Linked (s.record (.expired k) s.hal.halTimerHandler) := by
  obtain ⟨since, hcurrent⟩ := h.armed k harmed
  have hnow : Current (.expired k :: s.history) k s.hal.halTimerCallback s.hal.halTimerContext
      (.expired k :: since) := hcurrent.cons trivial
  have hprotocol : Protocol (.expired k :: s.history) := h.protocol.cons nofun nofun
  by_cases henabled : s.hal.halTimerIrqEnabled = true
  · have hpending : s.hal.halTimerIrqPending ≠ true := fun hpending =>
      Bool.false_ne_true ((h.pending hpending).symm.trans henabled)
    have hon : irqEnabled s.history = true := h.enabled.symm.trans henabled
    -- no expiry has waited, and this one does not
    have hwaiting (j : Nat) (since older : List (HalEvent κ γ))
        (hsince : ∀ e ∈ since, HalEvent.Waiting e) (holder : irqEnabled older = false)
        (heq : .expired k :: s.history = since ++ .expired j :: older) :
        s.hal.halTimerIrqPending = true := by
      rcases waiting_cons hsince heq with ⟨-, rfl⟩ | ⟨-, since', hsince', hhistory⟩
      · exact absurd (holder.symm.trans hon) Bool.false_ne_true
      · exact h.waiting j since' older hsince' holder hhistory
    by_cases hsome : s.hal.halTimerCallback.isSome = true
    · have hhandler : s.hal.halTimerHandler =
          ({ s.hal with halTimer := none, halTimerRunning := false },
            [(s.hal.halTimerCallback, s.hal.halTimerContext)]) := by
        unfold ModemHal.halTimerHandler
        simp only [henabled, hsome, if_true]
      rw [hhandler]
      constructor
      · exact h.enabled
      · exact fun htrue => absurd htrue hpending
      · intro j hj
        cases hj
      · exact fun htrue => absurd htrue hpending
      · intro j since older hsince holder heq
        rcases waiting_cons hsince heq with ⟨hcalled, -⟩ | ⟨-, since', hsince', hhistory⟩
        · cases hcalled
        · exact hwaiting j since' older hsince' holder hhistory
      · exact hprotocol.called ⟨hsome, hon, k, _, hnow, List.mem_cons_self⟩
    · have hhandler : s.hal.halTimerHandler =
          ({ s.hal with halTimer := none, halTimerRunning := false }, []) := by
        unfold ModemHal.halTimerHandler
        simp only [henabled, hsome, if_true, Bool.false_eq_true, if_false]
      rw [hhandler]
      constructor
      · exact h.enabled
      · exact fun htrue => absurd htrue hpending
      · intro j hj
        cases hj
      · exact fun htrue => absurd htrue hpending
      · exact hwaiting
      · exact hprotocol
  · have hhandler : s.hal.halTimerHandler =
        ({ s.hal with
          halTimer := none
          halTimerRunning := false
          halTimerIrqPending := true }, []) := by
      unfold ModemHal.halTimerHandler
      simp only [henabled, Bool.false_eq_true, if_false]
    rw [hhandler]
    constructor
    · exact h.enabled
    · exact fun _ => Bool.eq_false_iff.mpr henabled
    · intro j hj
      cases hj
    · exact fun _ _ _ => ⟨k, _, hnow, List.mem_cons_self⟩
    · exact fun _ _ _ _ _ _ => rfl
    · exact hprotocol

theorem linked_of_reached (h : (modemHal κ γ).Reached Orderly s) : Linked s := by
  refine h.invariant (fun s hs => ?_) fun s a s' hlinked horderly hstep => ?_
  · cases hs
    constructor
    · rfl
    · intro hfalse
      cases hfalse
    · intro k hk
      cases hk
    · intro hfalse
      cases hfalse
    · intro k since older _ _ heq
      cases since <;> cases heq
    · exact protocol_nil
  · cases hstep with
    | start callback context => exact hlinked.start horderly callback context
    | stop => exact hlinked.stop
    | disable => exact hlinked.disable
    | enable => exact hlinked.enable horderly
    | expire harmed => exact hlinked.expire harmed

end

/-- In a run whose timer is started only while it is not armed, and whose interrupts are enabled
only while no expiry of a stopped or restarted timer is left over, every call is the answer to a
start, and no expiry is lost. -/
theorem modemHal_protocol {s : HalRun κ γ} (h : (modemHal κ γ).Reached Orderly s) :
    Protocol s.history := (linked_of_reached h).protocol

/-- An expiry is left over, and answered. -/
theorem modemHal_protocol_deferred : Protocol (κ := Unit) (γ := Unit)
    [.called (some (), none), .enabled, .expired 0, .disabled, .started 0 (some ()) none] := by
  have hinit : (modemHal Unit Unit).Reached Orderly ⟨.initial, 0, []⟩ := .init rfl
  have hstart := hinit.step (a := HalAct.start (some ()) none) rfl (.start _ _)
  have hdisabled := hstart.step (a := HalAct.disable) trivial .disable
  have hexpired := hdisabled.step (a := HalAct.expire) trivial (.expire rfl)
  exact modemHal_protocol (hexpired.step (a := HalAct.enable) (fun _ => ⟨rfl, rfl⟩) .enable)

/-- The timer is stopped after an expiry that was left over, and null is called. -/
theorem modemHal_calls_null :
    ∃ s, (modemHal Unit Unit).Reachable s ∧ ¬Protocol s.history ∧
      HalEvent.called (none, none) ∈ s.history := by
  have hinit : (modemHal Unit Unit).Reachable ⟨.initial, 0, []⟩ := .init rfl
  have hstart := hinit.step trivial (.start (some ()) none)
  have hexpired := (hstart.step trivial .disable).step trivial (.expire rfl)
  have hcalled := (hexpired.step trivial .stop).step trivial .enable
  refine ⟨_, hcalled, fun h => ?_, List.mem_cons_self⟩
  exact Bool.false_ne_true (h.answers (none, none) _ (List.suffix_refl _)).1

end Sidewalk.Radio
