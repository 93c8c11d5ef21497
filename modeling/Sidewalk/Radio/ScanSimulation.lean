import Mathlib
import Sidewalk.Lib.System
import Sidewalk.Radio.Lr11xx

/-!
# Simulated events during a scan

While a scan holds the radio of the LR11xx a start arms a timer, and the interrupt routine reports
the event that the radio would have raised. The marker `timeout_sim` is set when the timer is
armed, and whatever calls the routine next takes it.
-/

namespace Sidewalk.Radio.Lr11xx

open Lib

/-! ## Runs -/

/-- What has happened; the last event is the first of a history. A start is known by its number. -/
inductive SimEvent
  /-- A start was accepted during a scan: the timer is armed for it. -/
  | accepted (n : Nat) (kind : TimeoutSim)
  /-- A reception was refused, and its timeout recorded. -/
  | deferred (n : Nat)
  /-- A transmission or reception was started on the radio. -/
  | realStart
  | held
  /-- The timer that was armed for this start expires. -/
  | expired (n : Nat)
  /-- A simulated event is reported, for the start that `timeout_sim` stood for. -/
  | simulated (n : Option Nat) (event : RadioEvent)

/-- The timer, and which start it is armed for, `timeout_sim` stands for, is recorded in
`deferred_timeout`, and is served by the interrupt routine that runs. -/
structure Sim where
  armed : Option Nat
  starts : Nat
  owner : Option Nat
  deferred : Option Nat
  serving : Option Nat
  history : List SimEvent

def Sim.arm (sim : Sim) (kind : TimeoutSim) : Sim :=
  { sim with
    armed := some sim.starts
    owner := some sim.starts
    starts := sim.starts + 1
    history := .accepted sim.starts kind :: sim.history }

def Sim.armDeferred (sim : Sim) : Sim :=
  { sim with armed := sim.deferred, owner := sim.deferred, deferred := none }

def Sim.dropDeferred (sim : Sim) : Sim := { sim with deferred := none }

def Sim.record (sim : Sim) (event : SimEvent) : Sim :=
  { sim with history := event :: sim.history }

/-- Neither the timer nor a start of the radio nor a simulated event. -/
def Command.inert : Command → Bool
  | .timerIsArmed | .timerArm .. | .setTx | .setRx | .report _ true => false
  | _ => true

/-- What a command does to the timer and the history. A timer that is armed is not armed again. -/
inductive SimStep : Sim → Command → Bool → Sim → Prop
  | isArmed {sim} : SimStep sim .timerIsArmed sim.armed.isSome sim
  | arm {sim timeout kind} : sim.armed = none →
      SimStep sim (.timerArm timeout kind false) true (sim.arm kind)
  | armFailed {sim timeout kind} : SimStep sim (.timerArm timeout kind false) false sim
  | armDeferred {sim timeout kind} : sim.armed = none →
      SimStep sim (.timerArm timeout kind true) true sim.armDeferred
  | armDeferredFailed {sim timeout kind} :
      SimStep sim (.timerArm timeout kind true) false sim.dropDeferred
  | report {sim event reply} :
      SimStep sim (.report event true) reply (sim.record (.simulated sim.serving event))
  | setTx {sim} : SimStep sim .setTx true (sim.record .realStart)
  | setRx {sim} : SimStep sim .setRx true (sim.record .realStart)
  | setTxFailed {sim} : SimStep sim .setTx false sim
  | setRxFailed {sim} : SimStep sim .setRx false sim
  | other {sim c reply} : c.inert = true → SimStep sim c reply sim

structure SimRun where
  drv : DrvCtx
  sim : Sim

inductive SimAct
  | holdScan
  | releaseScan
  | startRx (timeout : Nat)
  | startTx
  | expire
  | irqProcess (irq : IrqStatus)

/-- A start that was refused during a scan because the timer was armed leaves its timeout, unless
that is 0. -/
def Sim.refused (sim : Sim) (drv : DrvCtx) (timeout : Nat) (r : Except RadioFailure Unit) : Sim :=
  match r with
  | .error .hardwareError =>
    if drv.scanning then
      if timeout = 0 then sim.dropDeferred
      else { sim with
        deferred := some sim.starts
        starts := sim.starts + 1
        history := .deferred sim.starts :: sim.history }
    else sim
  | _ => sim

def Sim.holds (sim : Sim) : Except RadioFailure Unit → Sim
  | .ok () => sim.record .held
  | .error _ => sim

/-- The interrupt routine serves the start that `timeout_sim` stands for. -/
def Sim.serve (sim : Sim) : Sim := { sim with serving := sim.owner, owner := none }

def Sim.expire (sim : Sim) (n : Nat) : Sim :=
  { sim with armed := none, history := .expired n :: sim.history }

/-- The call runs from a memory and a timer to others. -/
abbrev Runs (p : Op Unit) (drv : DrvCtx) (sim : Sim) (r : Except RadioFailure Unit)
    (t : DrvCtx × Sim) : Prop :=
  Program.Executes (Access.Exec SimStep) p.run (drv, sim) r t

inductive SimRunStep (config : Config) : SimRun → SimAct → SimRun → Prop
  | holdScan {s r t} : Runs Lr11xx.holdScan s.drv s.sim r t →
      SimRunStep config s .holdScan ⟨t.1, t.2.holds r⟩
  | releaseScan {s r t} : Runs Lr11xx.releaseScan s.drv s.sim r t →
      SimRunStep config s .releaseScan ⟨t.1, t.2⟩
  | startRx {s timeout r t} : Runs (Lr11xx.startRx config timeout) s.drv s.sim r t →
      SimRunStep config s (.startRx timeout) ⟨t.1, t.2.refused s.drv timeout r⟩
  | startTx {s r t} : Runs (Lr11xx.startTx config) s.drv s.sim r t →
      SimRunStep config s .startTx ⟨t.1, t.2⟩
  | expire {s n} : s.sim.armed = some n →
      SimRunStep config s .expire { s with sim := s.sim.expire n }
  | irqProcess {s irq r t} :
      Runs (Lr11xx.irqProcess config s.drv.deferredTimeout irq) s.drv s.sim.serve r t →
      SimRunStep config s (.irqProcess irq) ⟨t.1, t.2⟩

/-- After `sid_pal_radio_init`. -/
def simulation (config : Config) : System SimRun SimAct where
  init s := s.drv.radioState = .standby ∧ s.drv.timeoutSim = .off ∧ s.drv.deferredTimeout = 0 ∧
    s.sim = ⟨none, 0, none, none, none, []⟩
  step := SimRunStep config

/-! ## The property -/

/-- Whether the radio is in use by a start that was made on it: none was made since the last hold
if not. -/
def realInUse : List SimEvent → Bool
  | [] => false
  | .held :: _ => false
  | .realStart :: _ => true
  | _ :: history => realInUse history

/-- The start was accepted or deferred during a scan, and this is its event. -/
def Started (history : List SimEvent) (n : Nat) : RadioEvent → Prop
  | .rxTimeout => .accepted n .rx ∈ history ∨ .deferred n ∈ history
  | .txDone => .accepted n .tx ∈ history
  | _ => False

/-- The event belongs to a start, is its first one, comes after the expiry of its timer, and is not
received by an operation on the radio. -/
structure SimulatedFor (older : List SimEvent) (n : Nat) (event : RadioEvent) : Prop where
  started : Started older n event
  first : ∀ event', .simulated (some n) event' ∉ older
  expired : .expired n ∈ older
  scan : realInUse older = false

/-- Every simulated event belongs to a start as above. -/
def Faithful (history : List SimEvent) : Prop :=
  ∀ n event newer older, history = newer ++ .simulated n event :: older →
    ∃ k, n = some k ∧ SimulatedFor older k event

/-- The event of the marker that is set stays in `radio_event` only where the routine ends with it:
a scan holds the radio. A carrier sense ends with no event, but with a start on the radio. -/
def DrvCtx.ReportsOnce (drv : DrvCtx) : Prop :=
  drv.radioState = .scan ∨
    (drv.timeoutSim = .rx ∧ drv.cadExitMode = .csLbt ∧ drv.deferredTimeout = 0)

/-- The interrupt routine does not run between the arming and the expiry of the timer, and takes the
marker during a scan, or outside one where it ends a carrier sense with no deferred reception left.
No operation starts on the radio while a simulated event is still to come. -/
def SimClear (s : SimRun) : SimAct → Prop
  | .startRx _ | .startTx => s.drv.radioState ≠ .scan → s.drv.timeoutSim = .off
  | .irqProcess _ => s.drv.timeoutSim ≠ .off → s.sim.armed = none ∧ s.drv.ReportsOnce
  | _ => True

/-! ## What the marker stands for -/

theorem faithful_nil : Faithful [] := by
  intro n event newer older heq
  cases newer <;> cases heq

theorem Faithful.cons {history : List SimEvent} (h : Faithful history) {e : SimEvent}
    (he : ∀ n event, e ≠ .simulated n event) : Faithful (e :: history) := by
  intro n event newer older heq
  rcases last_or_before heq with ⟨hlast, -⟩ | ⟨newer', hbefore⟩
  · exact absurd hlast (he n event)
  · exact h n event newer' older hbefore

theorem Faithful.simulated {history : List SimEvent} (h : Faithful history) {n : Nat}
    {event : RadioEvent} (hn : SimulatedFor history n event) :
    Faithful (.simulated (some n) event :: history) := by
  intro n' event' newer older heq
  rcases last_or_before heq with ⟨hlast, rfl⟩ | ⟨newer', hbefore⟩
  · injection hlast with hn' hevent
    subst hn' hevent
    exact ⟨n, rfl, hn⟩
  · exact h n' event' newer' older hbefore

theorem Started.cons {history : List SimEvent} {n : Nat} {event : RadioEvent}
    (h : Started history n event) (e : SimEvent) : Started (e :: history) n event := by
  cases event with
  | rxTimeout => exact h.imp (List.mem_cons_of_mem e) (List.mem_cons_of_mem e)
  | txDone => exact List.mem_cons_of_mem e h
  | _ => exact h

/-- The event that a simulation of this kind ends with. -/
def TimeoutSim.event : TimeoutSim → RadioEvent
  | .tx => .txDone
  | _ => .rxTimeout

/-- No simulated event was reported for the start, which is an earlier one. -/
def Unserved (sim : Sim) (n : Nat) : Prop :=
  n < sim.starts ∧ ∀ event, .simulated (some n) event ∉ sim.history

/-- How the fields of the driver go with the timer and the history. -/
structure Tracked (drv : DrvCtx) (sim : Sim) : Prop where
  marker : sim.owner.isSome = true ↔ drv.timeoutSim ≠ .off
  recorded : sim.deferred.isSome = true ↔ drv.deferredTimeout ≠ 0
  armed : ∀ n, sim.armed = some n → sim.owner = some n
  expired : ∀ n, sim.owner = some n → sim.armed = some n ∨ .expired n ∈ sim.history
  ownerUnserved : ∀ n, sim.owner = some n → Unserved sim n
  deferredUnserved : ∀ n, sim.deferred = some n → Unserved sim n
  distinct : ∀ n, sim.owner = some n → sim.deferred ≠ some n
  served : ∀ n event, .simulated (some n) event ∈ sim.history → n < sim.starts
  started : ∀ n, sim.owner = some n → Started sim.history n drv.timeoutSim.event
  deferred : ∀ n, sim.deferred = some n → .deferred n ∈ sim.history
  pending : sim.owner.isSome = true → realInUse sim.history = false
  scan : drv.radioState = .scan → realInUse sim.history = false
  faithful : Faithful sim.history

section

variable {drv drv' : DrvCtx} {sim : Sim}

theorem Tracked.idle (h : Tracked drv sim) (hoff : drv.timeoutSim = .off) : sim.owner = none := by
  have hmarker := h.marker
  cases howner : sim.owner with
  | none => rfl
  | some n =>
    rw [howner] at hmarker
    exact absurd hoff (hmarker.mp rfl)

/-- The other fields of the driver may change, but a scan begins only with a hold. -/
theorem Tracked.memory (h : Tracked drv sim) (hsim : drv'.timeoutSim = drv.timeoutSim)
    (hdeferred : drv'.deferredTimeout = drv.deferredTimeout)
    (hstate : drv'.radioState = .scan → drv.radioState = .scan) : Tracked drv' sim := by
  obtain ⟨h1, h2, h3, h4, h5, h6, h7, h8, h9, h10, h11, h12, h13⟩ := h
  rw [← hsim] at h1 h9
  rw [← hdeferred] at h2
  exact ⟨h1, h2, h3, h4, h5, h6, h7, h8, h9, h10, h11, fun hs => h12 (hstate hs), h13⟩

theorem Unserved.record {n : Nat} (h : Unserved sim n) {e : SimEvent}
    (he : ∀ n event, e ≠ .simulated n event) : Unserved (sim.record e) n := by
  refine ⟨h.1, fun event hmem => ?_⟩
  rcases List.mem_cons.mp hmem with heq | hmem
  · exact he _ _ heq.symm
  · exact h.2 event hmem

/-- An event that is not simulated. -/
theorem Tracked.record (h : Tracked drv sim) {e : SimEvent} (he : ∀ n event, e ≠ .simulated n event)
    (hpending : sim.owner.isSome = true → realInUse (e :: sim.history) = false)
    (hscan : drv'.radioState = .scan → realInUse (e :: sim.history) = false)
    (hsim : drv'.timeoutSim = drv.timeoutSim)
    (hdeferred : drv'.deferredTimeout = drv.deferredTimeout) : Tracked drv' (sim.record e) where
  marker := by
    rw [hsim]
    exact h.marker
  recorded := by
    rw [hdeferred]
    exact h.recorded
  armed := h.armed
  expired n hn := (h.expired n hn).imp_right (List.mem_cons_of_mem e)
  ownerUnserved n hn := (h.ownerUnserved n hn).record he
  deferredUnserved n hn := (h.deferredUnserved n hn).record he
  distinct := h.distinct
  served n event hmem := by
    rcases List.mem_cons.mp hmem with heq | hmem
    · exact absurd heq.symm (he _ _)
    · exact h.served n event hmem
  started n hn := by
    rw [hsim]
    exact (h.started n hn).cons e
  deferred n hn := List.mem_cons_of_mem e (h.deferred n hn)
  pending := hpending
  scan := hscan
  faithful := h.faithful.cons he

theorem Tracked.expire (h : Tracked drv sim) {n : Nat} (hn : sim.armed = some n) :
    Tracked drv (sim.expire n) := by
  have hrecord : Tracked drv (sim.record (.expired n)) :=
    h.record (by simp) h.pending h.scan rfl rfl
  refine { hrecord with armed := ?_, expired := ?_ }
  · intro k hk
    cases hk
  · intro k hk
    have howner := h.armed n hn
    have hkn : k = n := Option.some.inj (hk.symm.trans howner)
    rw [hkn]
    exact .inr List.mem_cons_self

/-- A start that is accepted during a scan. -/
theorem Tracked.arm (h : Tracked drv sim) {kind : TimeoutSim}
    (hkind : kind ≠ .off) (hscan : realInUse sim.history = false) :
    Tracked { drv with timeoutSim := kind } (sim.arm kind) where
  marker := ⟨fun _ => hkind, fun _ => rfl⟩
  recorded := h.recorded
  armed n hn := hn
  expired n hn := .inl hn
  ownerUnserved n hn := by
    obtain rfl := Option.some.inj hn
    refine ⟨Nat.lt_succ_self _, fun event hmem => ?_⟩
    rcases List.mem_cons.mp hmem with heq | hmem
    · cases heq
    · exact absurd (h.served _ event hmem) (Nat.lt_irrefl _)
  deferredUnserved n hn := by
    obtain ⟨hlt, hnew⟩ := h.deferredUnserved n hn
    refine ⟨Nat.lt_succ_of_lt hlt, fun event hmem => ?_⟩
    rcases List.mem_cons.mp hmem with heq | hmem
    · cases heq
    · exact hnew event hmem
  distinct n hn hdeferred := by
    obtain rfl := Option.some.inj hn
    exact absurd (h.deferredUnserved _ hdeferred).1 (Nat.lt_irrefl _)
  served n event hmem := by
    rcases List.mem_cons.mp hmem with heq | hmem
    · cases heq
    · exact Nat.lt_succ_of_lt (h.served n event hmem)
  started n hn := by
    obtain rfl := Option.some.inj hn
    cases kind with
    | off => contradiction
    | rx => exact .inl List.mem_cons_self
    | tx => exact List.mem_cons_self
  deferred n hn := List.mem_cons_of_mem _ (h.deferred n hn)
  pending _ := hscan
  scan _ := hscan
  faithful := h.faithful.cons (by simp)

/-- The deferred reception begins. -/
theorem Tracked.armDeferred (h : Tracked drv sim) (hdeferred : drv.deferredTimeout ≠ 0)
    (hscan : realInUse sim.history = false) :
    Tracked { drv with timeoutSim := .rx, deferredTimeout := 0 } sim.armDeferred where
  marker := ⟨fun _ => by simp, fun _ => h.recorded.mpr hdeferred⟩
  recorded := by simp [Sim.armDeferred]
  armed n hn := hn
  expired n hn := .inl hn
  ownerUnserved n hn := h.deferredUnserved n hn
  deferredUnserved n hn := by cases hn
  distinct n _ hn := by cases hn
  served := h.served
  started n hn := .inr (h.deferred n hn)
  deferred n hn := by cases hn
  pending _ := hscan
  scan _ := hscan
  faithful := h.faithful

theorem Tracked.dropDeferred (h : Tracked drv sim) :
    Tracked { drv with deferredTimeout := 0 } sim.dropDeferred :=
  { h with
    recorded := by simp [Sim.dropDeferred]
    deferredUnserved := fun n hn => by cases hn
    distinct := fun n _ hn => by cases hn
    deferred := fun n hn => by cases hn }

/-- A reception that is refused during a scan, and recorded. -/
theorem Tracked.defer (h : Tracked drv sim) {timeout : Nat} (htimeout : timeout ≠ 0) :
    Tracked { drv with deferredTimeout := timeout }
      { sim with
        deferred := some sim.starts
        starts := sim.starts + 1
        history := .deferred sim.starts :: sim.history } where
  marker := h.marker
  recorded := ⟨fun _ => htimeout, fun _ => rfl⟩
  armed := h.armed
  expired n hn := (h.expired n hn).imp_right (List.mem_cons_of_mem _)
  ownerUnserved n hn := by
    obtain ⟨hlt, hnew⟩ := h.ownerUnserved n hn
    refine ⟨Nat.lt_succ_of_lt hlt, fun event hmem => ?_⟩
    rcases List.mem_cons.mp hmem with heq | hmem
    · cases heq
    · exact hnew event hmem
  deferredUnserved n hn := by
    obtain rfl := Option.some.inj hn
    refine ⟨Nat.lt_succ_self _, fun event hmem => ?_⟩
    rcases List.mem_cons.mp hmem with heq | hmem
    · cases heq
    · exact absurd (h.served _ event hmem) (Nat.lt_irrefl _)
  distinct n hn hdeferred := by
    obtain rfl := Option.some.inj hdeferred
    exact absurd (h.ownerUnserved _ hn).1 (Nat.lt_irrefl _)
  served n event hmem := by
    rcases List.mem_cons.mp hmem with heq | hmem
    · cases heq
    · exact Nat.lt_succ_of_lt (h.served n event hmem)
  started n hn := (h.started n hn).cons _
  deferred n hn := by
    obtain rfl := Option.some.inj hn
    exact List.mem_cons_self
  pending := h.pending
  scan := h.scan
  faithful := h.faithful.cons (by simp)

/-- The start that the interrupt routine serves: an event may be reported for it. -/
structure Serving (sim : Sim) (event : RadioEvent) (n : Nat) : Prop where
  serving : sim.serving = some n
  may : SimulatedFor sim.history n event
  early : n < sim.starts
  owner : sim.owner ≠ some n
  deferred : sim.deferred ≠ some n

theorem Tracked.serve (h : Tracked drv sim) (harmed : drv.timeoutSim ≠ .off → sim.armed = none) :
    Tracked { drv with timeoutSim := .off } sim.serve where
  marker := by simp [Sim.serve]
  recorded := h.recorded
  armed n hn := by
    by_cases hoff : drv.timeoutSim = .off
    · have howner := h.armed n hn
      rw [h.idle hoff] at howner
      cases howner
    · change sim.armed = some n at hn
      rw [harmed hoff] at hn
      cases hn
  expired n hn := by cases hn
  ownerUnserved n hn := by cases hn
  deferredUnserved := h.deferredUnserved
  distinct n hn := by cases hn
  served := h.served
  started n hn := by cases hn
  deferred := h.deferred
  pending hn := by cases hn
  scan := h.scan
  faithful := h.faithful

theorem Tracked.serving (h : Tracked drv sim) (hon : drv.timeoutSim ≠ .off)
    (harmed : sim.armed = none) : ∃ n, Serving sim.serve drv.timeoutSim.event n := by
  obtain ⟨n, hn⟩ := Option.isSome_iff_exists.mp (h.marker.mpr hon)
  have hunserved := h.ownerUnserved n hn
  refine ⟨n, hn, ⟨h.started n hn, hunserved.2, ?_, h.pending (h.marker.mpr hon)⟩, hunserved.1,
    by simp [Sim.serve], h.distinct n hn⟩
  rcases h.expired n hn with hn' | hn'
  · rw [harmed] at hn'
    cases hn'
  · exact hn'

theorem Tracked.report (h : Tracked drv sim) {event : RadioEvent} {n : Nat}
    (hn : Serving sim event n) : Tracked drv (sim.record (.simulated sim.serving event)) := by
  rw [hn.serving]
  have hother {k : Nat} (hk : Unserved sim k) (hne : k ≠ n) :
      Unserved (sim.record (.simulated (some n) event)) k := by
    refine ⟨hk.1, fun event' hmem => ?_⟩
    rcases List.mem_cons.mp hmem with heq | hmem
    · injection heq with heq
      exact hne (Option.some.inj heq)
    · exact hk.2 event' hmem
  exact {
    marker := h.marker
    recorded := h.recorded
    armed := h.armed
    expired := fun k hk => (h.expired k hk).imp_right (List.mem_cons_of_mem _)
    ownerUnserved := fun k hk => hother (h.ownerUnserved k hk) fun hkn => hn.owner (hkn ▸ hk)
    deferredUnserved := fun k hk => hother (h.deferredUnserved k hk) fun hkn =>
      hn.deferred (hkn ▸ hk)
    distinct := h.distinct
    served := fun k event' hmem => by
      rcases List.mem_cons.mp hmem with heq | hmem
      · injection heq with heq
        rw [Option.some.inj heq]
        exact hn.early
      · exact h.served k event' hmem
    started := fun k hk => (h.started k hk).cons _
    deferred := fun k hk => List.mem_cons_of_mem _ (h.deferred k hk)
    pending := h.pending
    scan := h.scan
    faithful := h.faithful.simulated hn.may }

end

/-! ## The calls -/

abbrev Leads {α : Type} (post : α → DrvCtx × Sim → Prop)
    (failed : RadioFailure → DrvCtx × Sim → Prop) (p : Op α) (t : DrvCtx × Sim) : Prop :=
  Attempt.Ensures (Access.Exec SimStep) (fun _ => True) post failed p t

abbrev Retains {α : Type} (P : DrvCtx × Sim → Prop) (p : Op α) : Prop :=
  Attempt.Keeps (Access.Exec SimStep) (fun _ => True) P p

/-- No scan holds the radio, and no simulated event is to come. -/
structure Free (t : DrvCtx × Sim) : Prop where
  tracked : Tracked t.1 t.2
  outside : t.1.radioState ≠ .scan
  off : t.1.timeoutSim = .off

/-- No scan holds the radio, and none is to come that a start by the routine would receive. -/
structure Calm (t : DrvCtx × Sim) : Prop where
  tracked : Tracked t.1 t.2
  outside : t.1.radioState ≠ .scan
  marker : t.1.timeoutSim = .off ∨ t.1.cadExitMode ≠ .csLbt

theorem Free.calm {t : DrvCtx × Sim} (h : Free t) : Calm t := ⟨h.tracked, h.outside, .inl h.off⟩

theorem SimStep.eq_of_inert {sim sim' : Sim} {c : Command} {reply : Bool}
    (h : SimStep sim c reply sim') (hc : c.inert = true) : sim' = sim := by
  cases h with
  | other => rfl
  | _ => cases hc

section

variable {α : Type} {config : Config} {P : DrvCtx × Sim → Prop}

theorem retains_test {p : DrvCtx → Bool} : Retains P (Access.test p) :=
  Access.keeps_test fun _ _ => trivial

theorem retains_perform {c : Command} {e : RadioFailure} (hc : c.inert = true) :
    Retains P (Access.perform c e) :=
  Access.keeps_perform_frame (fun _ _ => trivial) fun _ _ _ hstep => hstep.eq_of_inert hc

theorem retains_ask {c : Command} (hc : c.inert = true) : Retains P (Access.ask c) :=
  Access.keeps_ask_frame (fun _ _ => trivial) fun _ _ _ hstep => hstep.eq_of_inert hc

theorem retains_ignore {c : Command} (hc : c.inert = true) : Retains P (Access.ignore c) :=
  Access.keeps_ignore (retains_ask hc)

theorem retains_setRadioMode {rfEn txEn extPa : Bool} :
    Retains P (setRadioMode config rfEn txEn extPa) := by
  have hpin {pin : Pin} {level : Bool} : Retains P (writePin config pin level) :=
    Access.keeps_only (retains_perform rfl)
  exact Access.keeps_require.bind fun _ => hpin.bind fun _ => hpin.bind fun _ => hpin

theorem retains_clearIrqStatusAll : Retains P clearIrqStatusAll := by
  refine retains_test.bind fun _ => Attempt.keeps_pure.ite ?_
  refine (retains_perform rfl).bind fun _ => (retains_ask rfl).bind fun _ => ?_
  exact Access.keeps_only (retains_perform rfl)

theorem free_memory {m m' : DrvCtx} {sim : Sim} (h : Free (m, sim))
    (hsim : m'.timeoutSim = m.timeoutSim) (hdeferred : m'.deferredTimeout = m.deferredTimeout)
    (hstate : m'.radioState ≠ .scan) : Free (m', sim) :=
  ⟨h.tracked.memory hsim hdeferred fun hs => absurd hs hstate, hstate, hsim.trans h.off⟩

theorem calm_memory {m m' : DrvCtx} {sim : Sim} (h : Calm (m, sim))
    (hsim : m'.timeoutSim = m.timeoutSim) (hdeferred : m'.deferredTimeout = m.deferredTimeout)
    (hstate : m'.radioState ≠ .scan)
    (hexit : m'.cadExitMode = m.cadExitMode ∨ m'.cadExitMode = .none) : Calm (m', sim) := by
  refine ⟨h.tracked.memory hsim hdeferred fun hs => absurd hs hstate, hstate, ?_⟩
  rcases h.marker with hoff | hmode
  · exact .inl (hsim.trans hoff)
  · rcases hexit with hexit | hexit
    · exact .inr (hexit ▸ hmode)
    · exact .inr (by rw [hexit]; decide)

theorem free_setState {state : RadioState} (hstate : state ≠ .scan) : Retains Free (setState state) :=
  Access.keeps_modify fun _ _ h => ⟨trivial, free_memory h rfl rfl hstate⟩

theorem calm_setState {state : RadioState} (hstate : state ≠ .scan) : Retains Calm (setState state) :=
  Access.keeps_modify fun _ _ h => ⟨trivial, calm_memory h rfl rfl hstate (.inl rfl)⟩

/-- The command that starts the radio. -/
theorem free_launch {c : Command} {e : RadioFailure} (hc : c = .setTx ∨ c = .setRx) :
    Retains Free (Access.perform c e) := by
  apply Access.keeps_perform
  intro m sim reply sim' h hstep
  refine ⟨trivial, ?_⟩
  have hrecord : Free (m, sim.record .realStart) := by
    refine ⟨h.tracked.record (by simp) ?_ (fun hs => absurd hs h.outside) rfl rfl, h.outside, h.off⟩
    intro hpending
    rw [h.tracked.idle h.off] at hpending
    cases hpending
  rcases hc with rfl | rfl
  · cases hstep with
    | setTx => exact hrecord
    | setTxFailed => exact h
    | other hinert => cases hinert
  · cases hstep with
    | setRx => exact hrecord
    | setRxFailed => exact h
    | other hinert => cases hinert

theorem free_startTxRadio : Retains Free (startTxRadio config) :=
  retains_setRadioMode.bind fun _ => retains_clearIrqStatusAll.bind fun _ =>
    (free_launch (.inl rfl)).bind fun _ => free_setState (by decide)

theorem free_startRxRadio : Retains Free (startRxRadio config) :=
  (retains_perform rfl).bind fun _ => retains_setRadioMode.bind fun _ =>
    retains_clearIrqStatusAll.bind fun _ => (free_launch (.inr rfl)).bind fun _ =>
      free_setState (by decide)

theorem free_startTx : Retains Free (startTx config) := by
  intro t ht
  rw [startTx, Attempt.ensures_bind, Access.ensures_test, DrvCtx.scanning,
    decide_eq_false ht.outside]
  exact ⟨trivial, free_startTxRadio t ht⟩

theorem calm_wakeUp : Retains Calm (wakeUp config) :=
  (retains_perform rfl).bind fun _ => (Access.keeps_only (retains_ignore rfl)).bind fun _ =>
    (Access.keeps_only (retains_ignore rfl)).bind fun _ => calm_setState (by decide)

theorem calm_standby : Retains Calm (standby config) := by
  refine retains_test.bind fun _ => Attempt.keeps_pure.ite ?_
  refine retains_test.bind fun _ => Attempt.keeps_pure.ite ?_
  refine retains_test.bind fun _ => (Access.keeps_only calm_wakeUp).bind fun _ => ?_
  refine retains_clearIrqStatusAll.bind fun _ => retains_setRadioMode.bind fun _ => ?_
  exact (retains_perform rfl).bind fun _ => calm_setState (by decide)

theorem calm_clearExitMode : Retains Calm
    (Access.modify fun drv => { drv with cadExitMode := .none } : Op Unit) :=
  Access.keeps_modify fun _ _ h => ⟨trivial, calm_memory h rfl rfl h.outside (.inr rfl)⟩

theorem calm_scanDone {irq : IrqStatus} : Retains Calm (scanDone irq) := by
  have hdone {state : RadioState} (hstate : state ≠ .scan) :
      Retains Calm (do setState state; Access.ignore .setPktType) :=
    (calm_setState hstate).bind fun _ => retains_ignore rfl
  refine (Access.keeps_only (hdone (by decide))).bind fun _ => ?_
  refine (Access.keeps_only (hdone (by decide))).bind fun _ => Access.keeps_only ?_
  refine (retains_ask rfl).bind fun _ => Access.keeps_only ?_
  exact retains_test.bind fun _ => Access.keeps_only (hdone (by decide))

/-- The start that the routine makes when a carrier sense with the exit mode `CS_LBT` ends. -/
theorem calm_timeoutEvent : Retains Calm (timeoutEvent config) := by
  refine retains_test.bind fun _ => Attempt.keeps_pure.ite ?_
  rintro ⟨m, sim⟩ ht
  rw [Attempt.ensures_bind, Access.ensures_test]
  refine ⟨trivial, ?_⟩
  by_cases hmode : m.cadExitMode = .csLbt
  · rw [decide_eq_true hmode, if_pos rfl, Attempt.ensures_bind, Access.ensures_modify]
    refine ⟨trivial, ?_⟩
    have hoff : m.timeoutSim = .off := ht.marker.resolve_right fun hne => hne hmode
    have hfree : Free ({ m with cadExitMode := .none }, sim) :=
      ⟨ht.tracked.memory rfl rfl fun hs => hs, ht.outside, hoff⟩
    exact free_startTx.regardless.then hfree (fun _ _ hu => hu.calm) fun _ _ hu => hu.calm
  · rw [decide_eq_false hmode]
    exact ht

theorem calm_cadEvent {irq : IrqStatus} : Retains Calm (cadEvent config irq) := by
  rintro ⟨m, sim⟩ ht
  rw [cadEvent, Attempt.ensures_bind, Access.ensures_test]
  refine ⟨trivial, ?_⟩
  have hend {u : DrvCtx × Sim} {event : Assigned} (hu : Calm u) :
      Leads (fun _ => Calm) (fun _ => Calm)
        (do Access.modify fun drv => { drv with cadExitMode := .none }
            pure event) u :=
    (calm_clearExitMode.bind fun _ => Attempt.keeps_pure) u hu
  by_cases hmode : m.cadExitMode = .csLbt
  · have hfree : Free (m, sim) :=
      ⟨ht.tracked, ht.outside, ht.marker.resolve_right fun hne => hne hmode⟩
    exact (Access.keeps_only free_startTx.regardless).then hfree (fun _ _ hu => hend hu.calm)
      fun _ _ hu => hu.calm
  · rw [decide_eq_false hmode]
    exact hend ht

theorem calm_loraEvent {irq : IrqStatus} : Retains Calm (loraEvent config irq) := by
  refine calm_cadEvent.ite (Attempt.Keeps.ite ?_ ?_)
  · exact (retains_ask rfl).bind fun _ => Attempt.keeps_pure.ite Attempt.keeps_pure
  · exact calm_scanDone.bind fun _ => Attempt.keeps_pure

theorem calm_preambleEvent : Retains Calm (preambleEvent config) := by
  refine retains_test.bind fun _ => Attempt.Keeps.ite ?_ Attempt.keeps_pure
  exact calm_clearExitMode.bind fun _ => calm_standby.regardless.bind fun _ => Attempt.keeps_pure

theorem calm_fskEvent {irq : IrqStatus} : Retains Calm (fskEvent config irq) := by
  refine Attempt.Keeps.ite ?_ (calm_preambleEvent.ite (Attempt.Keeps.ite ?_ ?_))
  · exact (retains_ignore rfl).bind fun _ => Attempt.keeps_pure
  · have hrxDone : Retains Calm rxDoneEvent :=
      (retains_ask rfl).bind fun _ => Attempt.keeps_pure.ite
        ((retains_ask rfl).bind fun _ => Attempt.keeps_pure.ite Attempt.keeps_pure)
    exact hrxDone.bind fun _ => calm_scanDone.bind fun _ => Attempt.keeps_pure
  · exact calm_scanDone.bind fun _ => Attempt.keeps_pure

theorem calm_readInterrupt {irq : IrqStatus} : Retains Calm (readInterrupt config irq) := by
  have hevent : Retains Calm (interruptEvent config irq) := by
    refine Attempt.keeps_pure.ite (Attempt.keeps_pure.ite ?_)
    refine calm_timeoutEvent.ite (Attempt.keeps_pure.ite ?_)
    exact retains_test.bind fun _ => calm_loraEvent.ite calm_fskEvent
  refine (retains_ask rfl).bind fun _ => Attempt.Keeps.ite ?_ Attempt.keeps_pure
  exact (retains_ask rfl).bind fun _ => hevent.ite Attempt.keeps_pure

/-- Without a simulated event in `radio_event`, only events of the chip are reported. -/
theorem calm_chipInterrupt {irq : IrqStatus} : Retains Calm (chipInterrupt config none irq) := by
  have hend : Retains Calm
      (do if ← Access.test (·.radioState = .sleep) then pure ()
          else Access.ignore .setDioIrqParams) :=
    retains_test.bind fun _ => Attempt.keeps_pure.ite (retains_ignore rfl)
  refine calm_readInterrupt.bind fun assigned => ?_
  cases assigned with
  | none => exact hend
  | some event =>
    cases event with
    | none => exact hend
    | some event => exact (retains_ignore rfl).bind fun _ => hend

/-! ## A start in a scan -/

theorem leads_timerArm {timeout : Nat} {kind : TimeoutSim} {m : DrvCtx} {sim : Sim}
    {post : Unit → DrvCtx × Sim → Prop} {failed : RadioFailure → DrvCtx × Sim → Prop}
    (hpost : sim.armed = none → post () ({ m with timeoutSim := kind }, sim.arm kind))
    (hfailed : failed .ioError (m, sim)) :
    Leads post failed (startTimeoutSim timeout kind false) (m, sim) := by
  rw [Leads, startTimeoutSim, Attempt.ensures_bind, Access.ensures_perform]
  intro reply sim' hstep
  refine ⟨trivial, ?_⟩
  cases hstep with
  | arm hnone =>
    rw [if_pos rfl, Access.ensures_modify]
    exact ⟨trivial, hpost hnone⟩
  | armFailed => exact hfailed
  | other hinert => cases hinert

theorem leads_timerIsArmed {m : DrvCtx} {sim : Sim} {post : α → DrvCtx × Sim → Prop}
    {failed : RadioFailure → DrvCtx × Sim → Prop} {f : Bool → Op α}
    (h : Leads post failed (f sim.armed.isSome) (m, sim)) :
    Leads post failed (Access.ask .timerIsArmed >>= f) (m, sim) := by
  rw [Leads, Attempt.ensures_bind, Access.ensures_ask]
  intro reply sim' hstep
  refine ⟨trivial, ?_⟩
  cases hstep with
  | isArmed => exact h
  | other hinert => cases hinert

theorem tracked_startTxScan {m : DrvCtx} {sim : Sim} (h : Tracked m sim)
    (hscan : m.radioState = .scan) :
    Leads (fun _ t => Tracked t.1 t.2 ∧ t.1.cadExitMode = m.cadExitMode)
      (fun _ t => Tracked t.1 t.2 ∧ t.1.cadExitMode = m.cadExitMode) (startTxScan config)
      (m, sim) := by
  refine leads_timerIsArmed ?_
  rw [Leads, Attempt.ensures_ite]
  split_ifs
  · exact ⟨h, rfl⟩
  · rw [Attempt.ensures_mapError]
    exact leads_timerArm (fun _ => ⟨h.arm (by decide) (h.scan hscan), rfl⟩) ⟨h, rfl⟩

/-- A start of a transmission, in a scan or on a free radio. -/
theorem tracked_startTx {t : DrvCtx × Sim} (h : Tracked t.1 t.2)
    (hoff : t.1.radioState ≠ .scan → t.1.timeoutSim = .off) :
    Leads (fun _ t => Tracked t.1 t.2) (fun _ t => Tracked t.1 t.2) (startTx config) t := by
  by_cases hscan : t.1.radioState = .scan
  · rw [Leads, startTx, Attempt.ensures_bind, Access.ensures_test, DrvCtx.scanning,
      decide_eq_true hscan]
    refine ⟨trivial, ?_⟩
    exact (tracked_startTxScan h hscan).mono (fun _ h => h) (fun _ _ h => h.1) fun _ _ h => h.1
  · exact (free_startTx t ⟨h, hscan, hoff hscan⟩).mono (fun _ h => h)
      (fun _ _ h => h.tracked) fun _ _ h => h.tracked

/-- A start of a reception; a refusal that is recorded is part of it. -/
theorem tracked_startRx {timeout : Nat} {t : DrvCtx × Sim} (h : Tracked t.1 t.2)
    (hoff : t.1.radioState ≠ .scan → t.1.timeoutSim = .off) :
    Leads (fun _ u => Tracked u.1 u.2)
      (fun e u => Tracked u.1 (u.2.refused t.1 timeout (.error e))) (startRx config timeout) t := by
  by_cases hscan : t.1.radioState = .scan
  · obtain ⟨m, sim⟩ := t
    have hscanning : m.scanning = true := by rw [DrvCtx.scanning, decide_eq_true hscan]
    rw [Leads, startRx, Attempt.ensures_bind, Access.ensures_test, hscanning]
    refine ⟨trivial, leads_timerIsArmed ?_⟩
    rw [Leads, Attempt.ensures_ite]
    split_ifs
    · rw [Attempt.ensures_bind, Access.ensures_modify]
      refine ⟨trivial, ?_⟩
      simp only [Attempt.ensures_throw, Sim.refused, hscanning, if_true]
      split_ifs with htimeout
      · rw [htimeout]
        exact h.dropDeferred
      · exact h.defer htimeout
    · exact leads_timerArm (fun _ => h.arm (by decide) (h.scan hscan)) h
  · have hscanning : t.1.scanning = false := decide_eq_false hscan
    rw [Leads, startRx, Attempt.ensures_bind, Access.ensures_test, hscanning]
    refine ⟨trivial, ?_⟩
    refine (free_startRxRadio t ⟨h, hscan, hoff hscan⟩).mono (fun _ h => h)
      (fun _ _ h => h.tracked) fun e u hu => ?_
    have hsame : u.2.refused t.1 timeout (.error e) = u.2 := by
      cases e <;> simp [Sim.refused, hscanning]
    rw [hsame]
    exact hu.tracked

/-! ## The interrupt routine -/

/-- What the routine has, after the marker was taken, when it looks at the exit mode. -/
structure Taken (drv : DrvCtx) (n : Nat) (t : DrvCtx × Sim) : Prop where
  tracked : Tracked t.1 t.2
  serving : Serving t.2 .rxTimeout n
  exitMode : t.1.cadExitMode = drv.cadExitMode
  state : t.1.radioState = drv.radioState
  off : drv.deferredTimeout = 0 → t.1.timeoutSim = .off

/-- The deferred reception begins, or is lost. -/
theorem taken_deferred {drv m : DrvCtx} {sim : Sim} {n : Nat} (h : Taken drv n (m, sim))
    (hrecorded : m.deferredTimeout = drv.deferredTimeout) :
    Leads (fun _ => Taken drv n) (fun _ _ => False)
      (Access.only (drv.deferredTimeout ≠ 0) do
        Attempt.regardless (startTimeoutSim drv.deferredTimeout .rx true)
        Access.modify fun drv => { drv with deferredTimeout := 0 }) (m, sim) := by
  by_cases hzero : drv.deferredTimeout = 0
  · rw [hzero]
    exact h
  · have hserving := h.serving
    have hdrop : Taken drv n ({ m with deferredTimeout := 0 }, sim.dropDeferred) :=
      ⟨h.tracked.dropDeferred,
        ⟨hserving.serving, hserving.may, hserving.early, hserving.owner, by simp [Sim.dropDeferred]⟩,
        h.exitMode, h.state, fun h0 => absurd h0 hzero⟩
    have harm : Taken drv n
        ({ m with timeoutSim := .rx, deferredTimeout := 0 }, sim.armDeferred) :=
      ⟨h.tracked.armDeferred (hrecorded ▸ hzero) hserving.may.scan,
        ⟨hserving.serving, hserving.may, hserving.early, hserving.deferred,
          by simp [Sim.armDeferred]⟩,
        h.exitMode, h.state, fun h0 => absurd h0 hzero⟩
    rw [Leads, Access.ensures_only, if_pos (decide_eq_true hzero), Attempt.ensures_bind,
      Attempt.ensures_regardless, startTimeoutSim, Attempt.ensures_bind, Access.ensures_perform]
    intro reply sim' hstep
    refine ⟨trivial, ?_⟩
    cases hstep with
    | armDeferred hnone =>
      rw [if_pos rfl, Access.ensures_modify, Access.ensures_modify]
      exact ⟨trivial, trivial, harm⟩
    | armDeferredFailed =>
      rw [if_neg (by decide), Access.ensures_modify]
      exact ⟨trivial, hdrop⟩
    | other hinert => cases hinert

/-- After the simulated part no start by the routine would receive a simulated event, and an event
that was reported is not reported again. -/
structure Handled (event : Option RadioEvent) (t : DrvCtx × Sim) : Prop where
  tracked : Tracked t.1 t.2
  marker : t.1.timeoutSim = .off ∨ t.1.cadExitMode ≠ .csLbt
  once : event ≠ none → t.1.radioState = .scan

theorem leads_report {m : DrvCtx} {sim : Sim} {n : Nat} {event : RadioEvent}
    (h : Tracked m sim) (hn : Serving sim event n) (hscan : m.radioState = .scan)
    (hmode : m.timeoutSim = .off ∨ m.cadExitMode ≠ .csLbt) :
    Leads Handled (fun _ => Handled none)
      (do Access.ignore (.report event true)
          pure (some event)) (m, sim) := by
  rw [Leads, Attempt.ensures_bind, Access.ensures_ignore]
  intro reply sim' hstep
  refine ⟨trivial, ?_⟩
  cases hstep with
  | report => exact ⟨h.report hn, hmode, fun _ => hscan⟩
  | other hinert => cases hinert

theorem handled_rx (config : Config) {drv m : DrvCtx} {sim : Sim} {n : Nat} (h : Taken drv n (m, sim))
    (honce : drv.ReportsOnce) :
    Leads Handled (fun _ => Handled none)
      (do if ← Access.test (·.cadExitMode = .csLbt) then do
            Access.modify fun drv => { drv with cadExitMode := .none }
            Attempt.regardless (startTx config)
            pure none
          else do
            Access.ignore (.report .rxTimeout true)
            pure (some .rxTimeout)) (m, sim) := by
  rw [Leads, Attempt.ensures_bind, Access.ensures_test]
  refine ⟨trivial, ?_⟩
  by_cases hmode : m.cadExitMode = .csLbt
  · rw [decide_eq_true hmode, if_pos rfl, Attempt.ensures_bind, Access.ensures_modify]
    refine ⟨trivial, ?_⟩
    have htracked : Tracked { m with cadExitMode := .none } sim :=
      h.tracked.memory rfl rfl fun hs => hs
    rw [Attempt.ensures_bind, Attempt.ensures_regardless]
    by_cases hscan : m.radioState = .scan
    · rw [startTx, Attempt.ensures_bind, Access.ensures_test, DrvCtx.scanning, decide_eq_true hscan]
      refine ⟨trivial, (tracked_startTxScan htracked hscan).mono (fun _ h => h) ?_ ?_⟩
      · exact fun _ _ h => ⟨h.1, .inr (by rw [h.2]; simp), fun hne => absurd rfl hne⟩
      · exact fun _ _ h => ⟨h.1, .inr (by rw [h.2]; simp), fun hne => absurd rfl hne⟩
    · have hoff : m.timeoutSim = .off :=
        h.off (honce.resolve_left fun hs => hscan (h.state.trans hs)).2.2
      have hfree : Free ({ m with cadExitMode := .none }, sim) := ⟨htracked, hscan, hoff⟩
      refine (free_startTx _ hfree).mono (fun _ h => h) ?_ ?_
      · exact fun _ _ h => ⟨h.tracked, .inl h.off, fun hne => absurd rfl hne⟩
      · exact fun _ _ h => ⟨h.tracked, .inl h.off, fun hne => absurd rfl hne⟩
  · rw [decide_eq_false hmode]
    have hscan : drv.radioState = .scan :=
      honce.resolve_right fun hsense => hmode (h.exitMode.trans hsense.2.1)
    exact leads_report h.tracked h.serving (h.state.trans hscan) (.inr hmode)

theorem handled_simulatedInterrupt {drv : DrvCtx} {sim : Sim} (h : Tracked drv sim)
    (hclear : drv.timeoutSim ≠ .off → sim.armed = none ∧ drv.ReportsOnce) :
    Leads Handled (fun _ => Handled none)
      (simulatedInterrupt config drv.deferredTimeout) (drv, sim.serve) := by
  have hserve := h.serve fun hne => (hclear hne).1
  rw [Leads, simulatedInterrupt, Attempt.ensures_bind, Access.ensures_test]
  refine ⟨trivial, ?_⟩
  cases hsim : drv.timeoutSim with
  | rx =>
    have hon : drv.timeoutSim ≠ .off := by rw [hsim]; decide
    obtain ⟨n, hn⟩ := h.serving hon (hclear hon).1
    rw [hsim] at hn
    rw [decide_eq_true rfl, if_pos rfl, Attempt.ensures_bind, Access.ensures_modify]
    refine ⟨trivial, ?_⟩
    have htaken : Taken drv n ({ drv with timeoutSim := .off }, sim.serve) :=
      ⟨hserve, hn, rfl, rfl, fun _ => rfl⟩
    rw [Attempt.ensures_bind]
    refine (taken_deferred htaken rfl).mono (fun _ h => h) (fun _ u hu => ?_)
      fun _ _ hfalse => hfalse.elim
    exact handled_rx config hu (hclear hon).2
  | tx =>
    have hon : drv.timeoutSim ≠ .off := by rw [hsim]; decide
    obtain ⟨n, hn⟩ := h.serving hon (hclear hon).1
    rw [hsim] at hn
    have hscan : drv.radioState = .scan := by
      refine (hclear hon).2.resolve_right ?_
      rintro ⟨hrx, -⟩
      rw [hsim] at hrx
      cases hrx
    rw [decide_eq_false (by decide), if_neg (by decide), Attempt.ensures_bind, Access.ensures_test,
      hsim, decide_eq_true rfl, if_pos rfl, Attempt.ensures_bind, Access.ensures_modify]
    exact ⟨trivial, trivial, leads_report hserve hn hscan (.inl rfl)⟩
  | off =>
    rw [decide_eq_false (by decide), if_neg (by decide), Attempt.ensures_bind, Access.ensures_test,
      hsim, decide_eq_false (by decide), if_neg (by decide)]
    have hsame : { drv with timeoutSim := .off } = drv := by rw [← hsim]
    rw [hsame] at hserve
    exact ⟨trivial, hserve, .inl hsim, fun hne => absurd rfl hne⟩

theorem tracked_irqProcess {drv : DrvCtx} {sim : Sim} {irq : IrqStatus} (h : Tracked drv sim)
    (hclear : drv.timeoutSim ≠ .off → sim.armed = none ∧ drv.ReportsOnce) :
    Leads (fun _ t => Tracked t.1 t.2) (fun _ t => Tracked t.1 t.2)
      (irqProcess config drv.deferredTimeout irq) (drv, sim.serve) := by
  rw [Leads, irqProcess, Attempt.ensures_bind]
  refine (handled_simulatedInterrupt h hclear).mono (fun _ h => h) (fun event t ht => ?_)
    fun _ _ ht => ht.tracked
  rw [Attempt.ensures_bind, Access.ensures_test]
  refine ⟨trivial, ?_⟩
  by_cases hscan : t.1.radioState = .scan
  · rw [DrvCtx.scanning, decide_eq_true hscan]
    exact ht.tracked
  · have hnone : event = none := by
      by_contra hne
      exact hscan (ht.once hne)
    rw [DrvCtx.scanning, decide_eq_false hscan, hnone]
    exact (calm_chipInterrupt t ⟨ht.tracked, hscan, ht.marker⟩).mono (fun _ h => h)
      (fun _ _ h => h.tracked) fun _ _ h => h.tracked

/-! ## Scans -/

theorem tracked_holdScan {drv : DrvCtx} {sim : Sim} (h : Tracked drv sim) :
    Leads (fun _ t => Tracked t.1 (t.2.record .held)) (fun _ t => Tracked t.1 t.2) holdScan
      (drv, sim) := by
  let P : DrvCtx × Sim → Prop := fun t => t = (drv, sim)
  have hread : Retains P (Access.perform .readInt1 .hardwareError) := retains_perform rfl
  have hlevel : Retains P (Access.ask .int1Level) := retains_ask rfl
  have hclear {b : Bool} : Retains P (Access.only b clearIrqStatusAll) :=
    Access.keeps_only retains_clearIrqStatusAll
  have hfailed (e : RadioFailure) (t : DrvCtx × Sim) (ht : P t) : Tracked t.1 t.2 := by
    rw [ht]
    exact h
  have hstate : P (drv, sim) := rfl
  refine hread.then hstate (fun _ t ht => ?_) hfailed
  refine hlevel.then ht (fun _ t ht => ?_) hfailed
  refine hclear.then ht (fun _ t ht => ?_) hfailed
  subst ht
  rw [Attempt.ensures_bind, Access.ensures_region]
  refine ⟨fun m hm => ⟨trivial, ?_⟩, fun _ => ⟨trivial, h⟩⟩
  unfold DrvCtx.hold at hm
  split_ifs at hm
  obtain rfl := Option.some.inj hm
  rw [Attempt.ensures_bind, Access.ensures_require, if_pos rfl, Access.ensures_ignore]
  intro reply sim' hstep
  rw [hstep.eq_of_inert rfl]
  exact ⟨trivial, h.record (by simp) (fun _ => rfl) (fun _ => rfl) rfl rfl⟩

theorem tracked_releaseScan {t : DrvCtx × Sim} (h : Tracked t.1 t.2) :
    Leads (fun _ t => Tracked t.1 t.2) (fun _ t => Tracked t.1 t.2) releaseScan t := by
  have hstandby : Retains (fun t => Tracked t.1 t.2) (setState .standby) :=
    Access.keeps_modify fun _ _ h => ⟨trivial, h.memory rfl rfl (by simp)⟩
  have hkeeps : Retains (fun t => Tracked t.1 t.2) releaseScan := by
    refine retains_test.bind fun _ => Attempt.Keeps.ite ?_ Attempt.keeps_pure
    exact (retains_ignore rfl).bind fun _ => (retains_ignore rfl).bind fun _ => hstandby
  exact hkeeps t h

/-! ## Runs -/

theorem tracked_init {s : SimRun} (h : (simulation config).init s) : Tracked s.drv s.sim := by
  obtain ⟨hstate, hoff, hzero, hsim⟩ := h
  rw [hsim]
  exact {
    marker := by simp [hoff]
    recorded := by simp [hzero]
    armed := by simp
    expired := by simp
    ownerUnserved := by simp
    deferredUnserved := by simp
    distinct := by simp
    served := by simp
    started := by simp
    deferred := by simp
    pending := by simp
    scan := fun _ => rfl
    faithful := faithful_nil }

theorem Tracked.step {s s' : SimRun} {a : SimAct} (h : Tracked s.drv s.sim) (hclear : SimClear s a)
    (hstep : SimRunStep config s a s') : Tracked s'.drv s'.sim := by
  cases hstep with
  | @holdScan r t hrun =>
    have hend := (tracked_holdScan h).executes hrun
    cases r with
    | ok _ => exact hend
    | error _ => exact hend
  | @releaseScan r t hrun =>
    have hend := (tracked_releaseScan (t := (s.drv, s.sim)) h).executes hrun
    cases r with
    | ok _ => exact hend
    | error _ => exact hend
  | @startRx timeout r t hrun =>
    have hend := (tracked_startRx (t := (s.drv, s.sim)) h hclear).executes hrun
    cases r with
    | ok _ => exact hend
    | error _ => exact hend
  | @startTx r t hrun =>
    have hend := (tracked_startTx (t := (s.drv, s.sim)) h hclear).executes hrun
    cases r with
    | ok _ => exact hend
    | error _ => exact hend
  | expire hn => exact h.expire hn
  | @irqProcess irq r t hrun =>
    have hend := (tracked_irqProcess h hclear).executes hrun
    cases r with
    | ok _ => exact hend
    | error _ => exact hend

/-- Where the routine takes the marker only after the timer has expired and reports its event once,
and nothing starts on the radio before, every simulated event belongs to a start of its own, comes
after the expiry of the timer of this start, and is not received by an operation on the radio. -/
theorem simulated_events_faithful {s : SimRun}
    (h : (simulation config).Reached (fun s => SimClear s) s) : Faithful s.sim.history := by
  have htracked : Tracked s.drv s.sim :=
    h.invariant (I := fun s => Tracked s.drv s.sim) (fun _ => tracked_init)
      fun _ _ _ hi hclear hstep => hi.step hclear hstep
  exact htracked.faithful

end

/-! ## Two runs -/

/-- Nothing is connected, and there are no mitigations. -/
def unconnected : Config := ⟨fun _ => false, 0, false, false, false⟩

def noIrq : IrqStatus :=
  ⟨false, false, false, false, false, false, false, false, false, false, false, false⟩

/-- The driver after a scan was held and a reception of 500 µs started. -/
def receivingCtx : DrvCtx := ⟨.scan, .lora, .csOnly, .rx, 0⟩

theorem exec_inert (m : DrvCtx) (sim : Sim) {c : Command} (hc : c.inert = true) (reply : Bool) :
    Access.Exec SimStep (m, sim) (.command c) reply (m, sim) := .command (.other hc)

/-- A scan is held, and a reception is started during it. -/
theorem reached_receiving {guard : SimRun → SimAct → Prop} (hhold : ∀ s, guard s .holdScan)
    (hstart : ∀ s timeout, s.drv.radioState = .scan → guard s (.startRx timeout)) :
    (simulation unconnected).Reached guard
      ⟨receivingCtx, ⟨some 0, 1, some 0, none, none, [.accepted 0 .rx, .held]⟩⟩ := by
  have hinit : (simulation unconnected).init
      ⟨⟨.standby, .lora, .csOnly, .off, 0⟩, ⟨none, 0, none, none, none, []⟩⟩ := ⟨rfl, rfl, rfl, rfl⟩
  have hheld := System.Reached.step (.init hinit) (hhold _) (.holdScan (r := .ok ())
    (t := (⟨.scan, .lora, .csOnly, .off, 0⟩, ⟨none, 0, none, none, none, []⟩))
    (.call (exec_inert _ _ rfl true) <| .call (exec_inert _ _ rfl false) <|
      .call (.memory rfl) <| .call (exec_inert _ _ rfl true) .pure))
  exact .step hheld (hstart _ 500 rfl) (.startRx (r := .ok ())
    (t := (receivingCtx, ⟨some 0, 1, some 0, none, none, [.accepted 0 .rx, .held]⟩))
    (.call (.memory rfl) <| .call (.command .isArmed) <|
      .call (.command (.arm rfl)) <| .call (.memory rfl) .pure))

/-- The interrupt routine takes the marker of the reception, and reports its timeout. -/
theorem runs_simulated (sim : Sim) : Runs (irqProcess unconnected 0 noIrq) receivingCtx sim (.ok ())
    ({ receivingCtx with timeoutSim := .off }, sim.record (.simulated sim.serving .rxTimeout)) :=
  .call (.memory rfl) <| .call (.memory rfl) <| .call (.refused rfl) <|
    .call (.command (.report : SimStep _ _ true _)) <| .call (.memory rfl) .pure

theorem simulated_events_faithful_expired : Faithful
    [.simulated (some 0) .rxTimeout, .expired 0, .accepted 0 .rx, .held] := by
  have hreceiving : (simulation unconnected).Reached (fun s => SimClear s) _ :=
    reached_receiving (fun _ => trivial) fun _ _ hscan hne => absurd hscan hne
  have hexpired := System.Reached.step hreceiving (show SimClear _ .expire from trivial) (.expire rfl)
  have hreported := System.Reached.step hexpired (fun _ => ⟨rfl, .inl rfl⟩)
    (.irqProcess (runs_simulated _))
  exact simulated_events_faithful hreported

/-- A simulated timeout comes before the timer expires when a radio interrupt runs the routine. -/
theorem simulated_early : ¬∀ s, (simulation unconnected).Reachable s → Faithful s.sim.history := by
  intro h
  have hreceiving : (simulation unconnected).Reachable _ :=
    reached_receiving (fun _ => trivial) fun _ _ _ => trivial
  have hreported := System.Reached.step hreceiving trivial (.irqProcess (runs_simulated _))
  obtain ⟨n, hn, hfor⟩ := h _ hreported (some 0) .rxTimeout [] _ rfl
  have hexpired := hfor.expired
  simp [Sim.serve] at hexpired

/-- The reception, after the scan was released. -/
def releasedCtx : DrvCtx := ⟨.standby, .lora, .csOnly, .rx, 0⟩

/-- Outside a scan the routine goes on to the interrupts of the chip, and reports the timeout
again. -/
theorem runs_simulated_twice (sim : Sim) :
    Runs (irqProcess unconnected 0 noIrq) releasedCtx sim (.ok ())
      ({ releasedCtx with timeoutSim := .off },
        (sim.record (.simulated sim.serving .rxTimeout)).record
          (.simulated sim.serving .rxTimeout)) :=
  .call (.memory rfl) <| .call (.memory rfl) <| .call (.refused rfl) <|
    .call (.command (.report : SimStep _ _ true _)) <| .call (.refused rfl) <|
      .call (exec_inert _ _ rfl true) <| .call (exec_inert _ _ rfl true) <|
        .call (.memory rfl) <| .call (.command (.report : SimStep _ _ true _)) <|
          .call (.refused rfl) <| .call (exec_inert _ _ rfl true) .pure

/-- A timer that expires behind the scan leads to two events for its reception. -/
theorem simulated_twice : ∃ s, (simulation unconnected).Reachable s ∧ s.sim.history =
    [.simulated (some 0) .rxTimeout, .simulated (some 0) .rxTimeout, .expired 0, .accepted 0 .rx,
      .held] := by
  have hreceiving : (simulation unconnected).Reachable _ :=
    reached_receiving (fun _ => trivial) fun _ _ _ => trivial
  have hreleased := System.Reached.step hreceiving trivial (.releaseScan (r := .ok ())
    (t := (releasedCtx, ⟨some 0, 1, some 0, none, none, [.accepted 0 .rx, .held]⟩))
    (.call (.memory rfl) <| .call (exec_inert _ _ rfl true) <|
      .call (exec_inert _ _ rfl true) <| .call (.memory rfl) .pure))
  have hexpired := System.Reached.step hreleased trivial (.expire rfl)
  exact ⟨_, System.Reached.step hexpired trivial (.irqProcess (runs_simulated_twice _)), rfl⟩

end Sidewalk.Radio.Lr11xx
