import Mathlib
import Sidewalk.Lib.System
import Sidewalk.Radio.Lr11xx

/-!
# Scans against Sidewalk

The state byte of the LR11xx driver is the only lock between the scans and Sidewalk. Each of the
two runs in a context of its own, and a critical region or a plain step is one step of a context.
`sid_pal_radio_start_tx` and `sid_pal_radio_start_rx` are one region each.
-/

namespace Sidewalk.Radio.Lr11xx

open Lib

/-! ## Runs -/

/-- What has happened; the last event is the first of a history. -/
inductive ScanEvent
  /-- A Sidewalk operation sends a command to the chip. -/
  | sent (c : Command)
  /-- `sid_pal_radio_hold_scan` returns 0, and whether Sidewalk's radio activity is in progress. -/
  | held (active : Bool)
  /-- `sid_pal_radio_release_scan` is called. -/
  | released

/-- Whether a transmission, reception or CAD that Sidewalk started is in progress, and the
history. -/
structure Chip where
  active : Bool
  history : List ScanEvent

/-- What an accepted command does to the activity of the chip. -/
def Command.activity (c : Command) (active : Bool) : Bool :=
  match c with
  | .setTx | .setRx | .setRxDutyCycle | .setCad => true
  | .setStandby | .setSleep => false
  | _ => active

def Chip.log (chip : Chip) (c : Command) : List ScanEvent :=
  if c.toChip then .sent c :: chip.history else chip.history

/-- The chip under a Sidewalk operation: a command may fail. -/
def sidewalkChip : Semantics Chip Command Bool := fun chip c reply chip' =>
  chip' = ⟨if reply then c.activity chip.active else chip.active, chip.log c⟩

/-- The calls around a scan start and stop nothing. -/
def scanChip : Semantics Chip Command Bool := fun chip _ _ chip' => chip' = chip

/-- The operations of Sidewalk. -/
inductive SidewalkOp
  | standby
  | sleep
  | startTx
  | startRx (timeout : Nat)
  | startCarrierSense (exitMode : CadExitMode)
  | startContinuousRx
  | setRxDutyCycle (rxTime sleepTime : Nat)
  | loraStartCad

def SidewalkOp.code (config : Config) : SidewalkOp → Op Unit
  | .standby => Lr11xx.standby config
  | .sleep => Lr11xx.sleep config
  | .startTx => Lr11xx.startTx config
  | .startRx timeout => Lr11xx.startRx config timeout
  | .startCarrierSense exitMode => Lr11xx.startCarrierSense config exitMode
  | .startContinuousRx => Lr11xx.startContinuousRx config
  | .setRxDutyCycle rxTime sleepTime => Lr11xx.setRxDutyCycle config rxTime sleepTime
  | .loraStartCad => Lr11xx.loraStartCad config

/-- Whether the body of the operation is one critical region. -/
def SidewalkOp.whole : SidewalkOp → Bool
  | .startTx | .startRx _ => true
  | _ => false

inductive ScanCall
  | hold
  | release
  deriving DecidableEq

def ScanCall.code : ScanCall → Op Unit
  | .hold => holdScan
  | .release => releaseScan

/-- What is left of a call. -/
abbrev Rest := Program (Access DrvCtx Command) Bool (Except RadioFailure Unit)

/-- What is left of an operation, and whether it has tested the state. -/
structure SidewalkCall where
  tested : Bool
  rest : Rest

structure Arbiter where
  drv : DrvCtx
  chip : Chip
  sidewalk : Option SidewalkCall
  scan : Option (ScanCall × Rest)

inductive ArbiterAct
  | call (op : SidewalkOp)
  | sidewalkStep
  | sidewalkReturn
  | callScan (call : ScanCall)
  | scanStep
  | scanReturn

/-- What the history shows of a call of the scan context. -/
def ScanCall.called (call : ScanCall) (chip : Chip) : Chip :=
  if call = .release then { chip with history := .released :: chip.history } else chip

/-- What the history shows of its return. -/
def ScanCall.returned (call : ScanCall) (r : Except RadioFailure Unit) (chip : Chip) : Chip :=
  match call, r with
  | .hold, .ok () => { chip with history := .held chip.active :: chip.history }
  | _, _ => chip

inductive ArbiterStep (config : Config) : Arbiter → ArbiterAct → Arbiter → Prop
  | call {s op} : op.whole = false → s.sidewalk = none →
      ArbiterStep config s (.call op)
        { s with sidewalk := some ⟨false, (op.code config).run⟩ }
  | callWhole {s op r t} : op.whole = true → s.sidewalk = none →
      Program.Executes (Access.Exec sidewalkChip) (op.code config).run (s.drv, s.chip) r t →
      ArbiterStep config s (.call op) { s with drv := t.1, chip := t.2 }
  | sidewalkStep {s tested c next reply t} : s.sidewalk = some ⟨tested, .call c next⟩ →
      Access.Exec sidewalkChip (s.drv, s.chip) c reply t →
      ArbiterStep config s .sidewalkStep
        { s with drv := t.1, chip := t.2, sidewalk := some ⟨true, next reply⟩ }
  | sidewalkReturn {s tested r} : s.sidewalk = some ⟨tested, .pure r⟩ →
      ArbiterStep config s .sidewalkReturn { s with sidewalk := none }
  | callScan {s call} : s.scan = none →
      ArbiterStep config s (.callScan call)
        { s with chip := call.called s.chip, scan := some (call, call.code.run) }
  | scanStep {s call c next reply t} : s.scan = some (call, .call c next) →
      Access.Exec scanChip (s.drv, s.chip) c reply t →
      ArbiterStep config s .scanStep
        { s with drv := t.1, chip := t.2, scan := some (call, next reply) }
  | scanReturn {s call r} : s.scan = some (call, .pure r) →
      ArbiterStep config s .scanReturn { s with chip := call.returned r s.chip, scan := none }

/-- After `sid_pal_radio_init`. -/
def arbiter (config : Config) : System Arbiter ArbiterAct where
  init s := s.drv.radioState = .standby ∧ s.chip = ⟨false, []⟩ ∧ s.sidewalk = none ∧ s.scan = none
  step := ArbiterStep config

/-! ## The property -/

/-- Whether a hold that returned 0 is not released yet. -/
def holding : List ScanEvent → Bool
  | [] => false
  | .held _ :: _ => true
  | .released :: _ => false
  | .sent _ :: history => holding history

/-- No command was sent while a scan held the radio, and no hold returned 0 while Sidewalk's radio
activity was in progress. -/
structure Separated (history : List ScanEvent) : Prop where
  quiet : ∀ c newer older, history = newer ++ .sent c :: older → holding older = false
  free : ∀ active newer older, history = newer ++ .held active :: older → active = false

structure Arbitrated (s : Arbiter) : Prop where
  state : holding s.chip.history = true → s.drv.radioState = .scan
  separated : Separated s.chip.history

/-- A hold passes its critical region only while no operation of Sidewalk is between its test of
the state and its return, and not in the states that the region does not know. -/
def HoldsClear (s : Arbiter) : ArbiterAct → Prop
  | .scanStep => (∃ call next, s.scan = some (call, .call (.memory DrvCtx.hold) next)) →
      s.drv.radioState ≠ .rxDc ∧ s.drv.radioState ≠ .cad ∧
        ∀ p, s.sidewalk = some p → p.tested = false
  | _ => True

/-! ## Operations of Sidewalk -/

/-- A transmission, reception or CAD. -/
def RadioState.inUse : RadioState → Bool
  | .tx | .rx | .rxDc | .cad => true
  | _ => false

/-- An activity in progress shows in the state. -/
def Settled (t : DrvCtx × Chip) : Prop :=
  t.2.active = true → RadioState.inUse t.1.radioState = true

/-- No scan holds the radio, and so far none was disturbed. -/
structure Outside (t : DrvCtx × Chip) : Prop where
  state : t.1.radioState ≠ .scan
  history : holding t.2.history = false
  separated : Separated t.2.history

theorem Separated.cons {history : List ScanEvent} (h : Separated history) {e : ScanEvent}
    (hsent : ∀ c, e = .sent c → holding history = false)
    (hheld : ∀ active, e = .held active → active = false) : Separated (e :: history) := by
  constructor
  · intro c newer older heq
    rcases last_or_before heq with ⟨rfl, rfl⟩ | ⟨newer', hbefore⟩
    · exact hsent c rfl
    · exact h.quiet c newer' older hbefore
  · intro active newer older heq
    rcases last_or_before heq with ⟨rfl, -⟩ | ⟨newer', hbefore⟩
    · exact hheld active rfl
    · exact h.free active newer' older hbefore

theorem Separated.sent {history : List ScanEvent} (h : Separated history)
    (hholding : holding history = false) (c : Command) : Separated (.sent c :: history) :=
  h.cons (fun _ _ => hholding) nofun

theorem Separated.held {history : List ScanEvent} (h : Separated history) :
    Separated (.held false :: history) :=
  h.cons nofun fun _ heq => (ScanEvent.held.inj heq).symm

theorem Separated.released {history : List ScanEvent} (h : Separated history) :
    Separated (.released :: history) := h.cons nofun nofun

theorem Outside.log {m : DrvCtx} {chip : Chip} (h : Outside (m, chip)) (c : Command)
    (active : Bool) : Outside (m, ⟨active, chip.log c⟩) := by
  refine ⟨h.state, ?_, ?_⟩
  · change holding (chip.log c) = false
    unfold Chip.log
    cases c.toChip with
    | true => exact h.history
    | false => exact h.history
  · change Separated (chip.log c)
    unfold Chip.log
    cases c.toChip with
    | true => exact h.separated.sent h.history c
    | false => exact h.separated

/-- The memory and the activity are these. -/
def At (m : DrvCtx) (active : Bool) (t : DrvCtx × Chip) : Prop :=
  t.1 = m ∧ t.2.active = active ∧ Outside t

/-- The operation under Sidewalk's commands. -/
abbrev Gives {α : Type} (post : α → DrvCtx × Chip → Prop)
    (failed : RadioFailure → DrvCtx × Chip → Prop) (p : Op α) (t : DrvCtx × Chip) : Prop :=
  Attempt.Ensures (Access.Exec sidewalkChip) Outside post failed p t

/-- The attempt changes neither the memory nor the activity. -/
def Silent {α : Type} (p : Op α) : Prop :=
  ∀ m active t, At m active t → Gives (fun _ => At m active) (fun _ => At m active) p t

section

variable {α β : Type} {config : Config} {m : DrvCtx} {active : Bool} {t : DrvCtx × Chip}

theorem Silent.then {p : Op α} {f : α → Op β} {post : β → DrvCtx × Chip → Prop}
    {failed : RadioFailure → DrvCtx × Chip → Prop} (h : Silent p) (ht : At m active t)
    (hnext : ∀ a u, At m active u → Gives post failed (f a) u)
    (hfailed : ∀ e u, At m active u → failed e u) : Gives post failed (p >>= f) t :=
  Attempt.Keeps.then (h m active) ht hnext hfailed

theorem silent_pure {a : α} : Silent (pure a) := fun _ _ => Attempt.keeps_pure

theorem Silent.bind {p : Op α} {f : α → Op β} (h : Silent p) (hf : ∀ a, Silent (f a)) :
    Silent (p >>= f) :=
  fun m active => Attempt.Keeps.bind (h m active) fun a => hf a m active

theorem silent_test {p : DrvCtx → Bool} : Silent (Access.test p) :=
  fun _ _ => Access.keeps_test fun _ ht => ht.2.2

theorem silent_perform {c : Command} {e : RadioFailure} (hc : ∀ active, c.activity active = active) :
    Silent (Access.perform c e) := by
  rintro m active ⟨m', chip⟩ ⟨rfl, rfl, hout⟩
  rw [Gives, Access.ensures_perform]
  rintro reply _ rfl
  rw [hc, ite_self]
  refine ⟨hout.log c _, ?_⟩
  cases reply <;> exact ⟨rfl, rfl, hout.log c _⟩

theorem silent_ask {c : Command} (hc : ∀ active, c.activity active = active) :
    Silent (Access.ask c) := by
  rintro m active ⟨m', chip⟩ ⟨rfl, rfl, hout⟩
  rw [Gives, Access.ensures_ask]
  rintro reply _ rfl
  rw [hc, ite_self]
  exact ⟨hout.log c _, rfl, rfl, hout.log c _⟩

theorem silent_ignore {c : Command} (hc : ∀ active, c.activity active = active) :
    Silent (Access.ignore c) :=
  fun m active => Access.keeps_ignore (silent_ask hc m active)

theorem Silent.only {b : Bool} {p : Op Unit} (h : Silent p) : Silent (Access.only b p) :=
  fun m active => Access.keeps_only (h m active)

theorem silent_require {b : Bool} {e : RadioFailure} : Silent (Access.require b e) :=
  fun _ _ => Access.keeps_require

theorem Silent.ite {b : Prop} [Decidable b] {p q : Op α} (hp : Silent p) (hq : Silent q) :
    Silent (if b then p else q) :=
  fun m active => Attempt.Keeps.ite (hp m active) (hq m active)

theorem silent_writePin {pin : Pin} {level : Bool} : Silent (writePin config pin level) :=
  (silent_perform fun _ => rfl).only

theorem silent_setRadioMode {rfEn txEn extPa : Bool} :
    Silent (setRadioMode config rfEn txEn extPa) := by
  refine silent_require.bind fun _ => ?_
  refine silent_writePin.bind fun _ => ?_
  exact silent_writePin.bind fun _ => silent_writePin

theorem silent_clearIrqStatusAll : Silent clearIrqStatusAll := by
  refine silent_test.bind fun _ => silent_pure.ite ?_
  refine (silent_perform fun _ => rfl).bind fun _ => ?_
  exact (silent_ask fun _ => rfl).bind fun _ => (silent_perform fun _ => rfl).only

theorem silent_setIrqMask : Silent setIrqMask :=
  silent_test.bind fun _ => silent_pure.ite (silent_perform fun _ => rfl)

/-- An operation that keeps an activity in the state, from a state that shows it. -/
def Settles (p : Op Unit) : Prop :=
  ∀ t, Outside t → Settled t → Gives (fun _ => Settled) (fun _ => Settled) p t

theorem At.settled {u : DrvCtx × Chip} (hu : At t.1 t.2.active u) (ht : Settled t) :
    Settled u := by
  intro hactive
  rw [hu.2.1] at hactive
  rw [hu.1]
  exact ht hactive

/-- The command that starts an activity, and the state that shows it. -/
theorem gives_launch {c : Command} {e : RadioFailure} {state : RadioState} (exit : Op Unit)
    (hstate : RadioState.inUse state = true)
    (hexit : ∀ u, Outside u → Settled u → Gives (fun _ => Settled) (fun _ => Settled) exit u)
    (ht : Settled t) {u : DrvCtx × Chip} (hu : At t.1 t.2.active u) :
    Gives (fun _ => Settled) (fun _ => Settled)
      (do Access.perform c e; setState state; exit) u := by
  obtain ⟨m', chip⟩ := u
  have hscan : state ≠ .scan := by
    rintro rfl
    exact absurd hstate (by decide)
  rw [Gives, Attempt.ensures_bind, Access.ensures_perform]
  rintro reply _ rfl
  refine ⟨hu.2.2.log c _, ?_⟩
  cases reply with
  | true =>
    rw [if_pos rfl, setState, Attempt.ensures_bind, Access.ensures_modify]
    have hout : Outside ({ m' with radioState := state }, ⟨c.activity chip.active, chip.log c⟩) :=
      have h := hu.2.2.log c (c.activity chip.active)
      ⟨hscan, h.history, h.separated⟩
    exact ⟨hout, hexit _ hout fun _ => hstate⟩
  | false =>
    rw [if_neg (by decide)]
    intro hactive
    exact hu.settled ht hactive

theorem gives_pure {u : DrvCtx × Chip} (hu : Settled u) :
    Gives (fun _ => Settled) (fun _ => Settled) (pure ()) u := hu

/-- What is silent is followed by the rest, and its failure leaves what was settled. -/
theorem Silent.settles_then {p : Op α} {f : α → Op Unit} (h : Silent p) (ht : Settled t)
    {u : DrvCtx × Chip} (hu : At t.1 t.2.active u)
    (hnext : ∀ a v, At t.1 t.2.active v → Gives (fun _ => Settled) (fun _ => Settled) (f a) v) :
    Gives (fun _ => Settled) (fun _ => Settled) (p >>= f) u :=
  h.then hu hnext fun _ _ hv => hv.settled ht

/-- The start of an activity, from the switch on. -/
theorem gives_start {rfEn txEn extPa : Bool} {c : Command} {e : RadioFailure} {state : RadioState}
    (hstate : RadioState.inUse state = true) (ht : Settled t) {u : DrvCtx × Chip}
    (hu : At t.1 t.2.active u) :
    Gives (fun _ => Settled) (fun _ => Settled) (do
      setRadioMode config rfEn txEn extPa
      clearIrqStatusAll
      Access.perform c e
      setState state) u := by
  refine silent_setRadioMode.settles_then ht hu fun _ v hv => ?_
  refine silent_clearIrqStatusAll.settles_then ht hv fun _ w hw => ?_
  exact gives_launch (pure ()) hstate (fun _ _ h => gives_pure h) ht hw

theorem settles_startTxRadio : Settles (startTxRadio config) :=
  fun _ hout ht => gives_start rfl ht ⟨rfl, rfl, hout⟩

theorem settles_startRxRadio : Settles (startRxRadio config) := by
  intro t hout ht
  have hat : At t.1 t.2.active t := ⟨rfl, rfl, hout⟩
  exact (silent_perform fun _ => rfl).settles_then ht hat fun _ _ hu => gives_start rfl ht hu

theorem settles_carrierSenseRadio {exitMode : CadExitMode} :
    Settles (carrierSenseRadio config exitMode) := by
  intro t hout ht
  have hat : At t.1 t.2.active t := ⟨rfl, rfl, hout⟩
  refine silent_test.settles_then ht hat fun _ u hu => ?_
  refine silent_require.settles_then ht hu fun _ u hu => ?_
  refine silent_require.settles_then ht hu fun _ u hu => ?_
  refine (silent_perform fun _ => rfl).settles_then ht hu fun _ u hu => ?_
  refine silent_setRadioMode.settles_then ht hu fun _ u hu => ?_
  refine silent_clearIrqStatusAll.settles_then ht hu fun _ u hu => ?_
  refine silent_setIrqMask.settles_then ht hu fun _ u hu => ?_
  refine gives_launch _ rfl (fun v hv hsettled => ?_) ht hu
  rw [Gives, Access.ensures_modify]
  exact ⟨⟨hv.state, hv.history, hv.separated⟩, hsettled⟩

theorem settles_dutyCycleRadio {rxTime sleepTime : Nat} :
    Settles (dutyCycleRadio config rxTime sleepTime) := by
  intro t hout ht
  have hat : At t.1 t.2.active t := ⟨rfl, rfl, hout⟩
  exact silent_require.settles_then ht hat fun _ _ hu => gives_start rfl ht hu

theorem settles_cadRadio : Settles (cadRadio config) :=
  fun _ hout ht => gives_start rfl ht ⟨rfl, rfl, hout⟩

/-- A state other than the scans' is written while nothing is in progress. -/
theorem gives_setState {state : RadioState} (hstate : state ≠ .scan) {u : DrvCtx × Chip}
    (hu : Outside u) (hactive : u.2.active = false) :
    Gives (fun _ => At { u.1 with radioState := state } false)
      (fun _ => At { u.1 with radioState := state } false) (setState state) u := by
  rw [Gives, setState, Access.ensures_modify]
  have hout : Outside ({ u.1 with radioState := state }, u.2) := ⟨hstate, hu.history, hu.separated⟩
  exact ⟨hout, rfl, hactive, hout⟩

theorem At.idle {u : DrvCtx × Chip} (hu : At m false u) : Settled u := by
  intro hactive
  rw [hu.2.1] at hactive
  contradiction

theorem settles_sleepRadio : Settles (sleepRadio config) := by
  intro t hout ht
  have hat : At t.1 t.2.active t := ⟨rfl, rfl, hout⟩
  refine silent_test.settles_then ht hat fun sleeps u hu => ?_
  rw [Gives, Attempt.ensures_ite]
  split_ifs
  · exact hu.settled ht
  · refine silent_clearIrqStatusAll.settles_then ht hu fun _ u hu => ?_
    refine silent_setRadioMode.settles_then ht hu fun _ u hu => ?_
    refine (silent_ignore fun _ => rfl).only.settles_then ht hu fun _ u hu => ?_
    obtain ⟨m', chip⟩ := u
    rw [Gives, Attempt.ensures_bind, Access.ensures_ask]
    rintro reply _ rfl
    refine ⟨hu.2.2.log _ _, ?_⟩
    cases reply with
    | true =>
      refine (gives_setState (by decide) (hu.2.2.log _ _) rfl).mono (fun _ h => h) ?_ ?_
      · exact fun _ _ hv => hv.idle
      · exact fun _ _ hv => hv.idle
    | false =>
      have hfailed : At t.1 t.2.active (m', ⟨chip.active, chip.log .setSleep⟩) :=
        ⟨hu.1, hu.2.1, hu.2.2.log _ _⟩
      exact (silent_ignore fun _ => rfl).only.settles_then ht hfailed fun _ v hv => hv.settled ht

theorem wakeUp_idle {u : DrvCtx × Chip} (hu : At m false u) :
    Gives (fun _ => At { m with radioState := .unknown } false) (fun _ => Settled)
      (wakeUp config) u := by
  refine (silent_perform fun _ => rfl).then hu (fun _ u hu => ?_) fun _ _ hu => hu.idle
  refine (silent_ignore fun _ => rfl).only.then hu (fun _ u hu => ?_) fun _ _ hu => hu.idle
  refine (silent_ignore fun _ => rfl).only.then hu (fun _ u hu => ?_) fun _ _ hu => hu.idle
  obtain ⟨rfl, hactive, hout⟩ := hu
  exact (gives_setState (by decide) hout hactive).mono (fun _ h => h) (fun _ _ h => h)
    fun _ _ h => h.idle

/-- What `sid_pal_radio_standby` does when the chip is awake. -/
theorem gives_standby {u : DrvCtx × Chip} (hu : Outside u) (hsettled : Settled u) :
    Gives (fun _ => Settled) (fun _ => Settled)
      (do clearIrqStatusAll; setRadioMode config false false false
          Access.perform .setStandby .hardwareError; setState .standby) u := by
  have hat : At u.1 u.2.active u := ⟨rfl, rfl, hu⟩
  refine silent_clearIrqStatusAll.settles_then hsettled hat fun _ v hv => ?_
  refine silent_setRadioMode.settles_then hsettled hv fun _ v hv => ?_
  obtain ⟨m', chip⟩ := v
  rw [Gives, Attempt.ensures_bind, Access.ensures_perform]
  rintro reply _ rfl
  refine ⟨hv.2.2.log _ _, ?_⟩
  cases reply with
  | true =>
    refine (gives_setState (by decide) (hv.2.2.log _ _) rfl).mono (fun _ h => h) ?_ ?_
    · exact fun _ _ hw => hw.idle
    · exact fun _ _ hw => hw.idle
  | false =>
    intro hactive
    exact hv.settled hsettled hactive

theorem settles_standbyRadio : Settles (standbyRadio config) := by
  intro t hout ht
  rw [Gives, standbyRadio, Attempt.ensures_bind, Access.ensures_test]
  refine ⟨hout, ?_⟩
  rw [Attempt.ensures_ite]
  split_ifs
  · exact ht
  · rw [Attempt.ensures_bind, Access.ensures_test]
    refine ⟨hout, ?_⟩
    by_cases hsleep : t.1.radioState = .sleep
    · have hidle : t.2.active = false := by
        cases hactive : t.2.active with
        | false => rfl
        | true =>
          have hstate := ht hactive
          rw [hsleep] at hstate
          exact absurd hstate (by decide)
      rw [hsleep]
      rw [Attempt.ensures_bind]
      refine (wakeUp_idle ⟨rfl, hidle, hout⟩).mono (fun _ h => h) (fun _ u hu => ?_)
        fun _ _ hu => hu
      exact gives_standby hu.2.2 hu.idle
    · rw [decide_eq_false hsleep]
      exact gives_standby hout ht

/-! ## What is left of a call -/

/-- An operation of several steps tests the state first, and ends there while a scan holds the
radio. -/
theorem code_steps (config : Config) (op : SidewalkOp) (hop : op.whole = false) :
    ∃ next r, (op.code config).run =
        .call (.memory fun drv => if drv.scanning then some drv else none) next ∧
      next true = .pure r ∧ ∀ t, Outside t → Settled t →
        Program.Ensures (Access.Exec sidewalkChip) Outside (fun _ => Settled) (next false) t := by
  have hends {p : Op Unit} (hp : Settles p) : ∀ t, Outside t → Settled t →
      Program.Ensures (Access.Exec sidewalkChip) Outside (fun _ => Settled) p.run t := by
    intro t hout ht
    refine Program.Ensures.mono (fun _ h => h) ?_ (hp t hout ht)
    rintro (e | a) u hu <;> exact hu
  cases op with
  | standby => exact ⟨_, _, rfl, rfl, hends settles_standbyRadio⟩
  | sleep => exact ⟨_, _, rfl, rfl, hends settles_sleepRadio⟩
  | startTx => contradiction
  | startRx => contradiction
  | startCarrierSense => exact ⟨_, _, rfl, rfl, hends settles_carrierSenseRadio⟩
  | startContinuousRx => exact ⟨_, _, rfl, rfl, hends settles_startRxRadio⟩
  | setRxDutyCycle => exact ⟨_, _, rfl, rfl, hends settles_dutyCycleRadio⟩
  | loraStartCad => exact ⟨_, _, rfl, rfl, hends settles_cadRadio⟩

/-- The history does not change what an operation does. -/
theorem ensures_history {p : Rest} {m : DrvCtx} {active : Bool} {h h' : List ScanEvent}
    (hp : Program.Ensures (Access.Exec sidewalkChip) Outside (fun _ => Settled) p (m, ⟨active, h⟩))
    (hholding : holding h' = false) (hseparated : Separated h') :
    Program.Ensures (Access.Exec sidewalkChip) Outside (fun _ => Settled) p
      (m, ⟨active, h'⟩) := by
  induction p generalizing m active h h' with
  | pure r => exact hp
  | call c next ih =>
    intro reply t hexec
    cases hexec with
    | memory hf =>
      obtain ⟨hout, hnext⟩ := hp _ _ (.memory hf)
      exact ⟨⟨hout.state, hholding, hseparated⟩, ih _ hnext hholding hseparated⟩
    | refused hf =>
      obtain ⟨hout, hnext⟩ := hp _ _ (.refused hf)
      exact ⟨⟨hout.state, hholding, hseparated⟩, ih _ hnext hholding hseparated⟩
    | @command _ _ d' c _ hdevice =>
      obtain ⟨hout, hnext⟩ := hp _ _ (.command rfl)
      have hout' : Outside (m, ⟨active, h'⟩) := ⟨hout.state, hholding, hseparated⟩
      have hlog := hout'.log c (if reply then c.activity active else active)
      obtain rfl : d' = _ := hdevice
      exact ⟨hlog, ih _ hnext hlog.history hlog.separated⟩

theorem startTx_scanning {chip : Chip} (hm : m.radioState = .scan) {r t}
    (hrun : Program.Executes (Access.Exec sidewalkChip) (startTx config).run (m, chip) r t) :
    t.1.radioState = .scan ∧ t.2 = chip := by
  have h : Attempt.Ensures (Access.Exec sidewalkChip) (fun _ => True)
      (fun _ t => t.1.radioState = .scan ∧ t.2 = chip)
      (fun _ t => t.1.radioState = .scan ∧ t.2 = chip) (startTx config) (m, chip) := by
    simp [startTx, startTxScan, startTimeoutSim, DrvCtx.scanning, hm, sidewalkChip, Chip.log,
      Command.activity, Command.toChip]
  cases r <;> exact h.executes hrun

theorem startRx_scanning {timeout : Nat} {chip : Chip} (hm : m.radioState = .scan) {r t}
    (hrun : Program.Executes (Access.Exec sidewalkChip) (startRx config timeout).run (m, chip) r t) :
    t.1.radioState = .scan ∧ t.2 = chip := by
  have h : Attempt.Ensures (Access.Exec sidewalkChip) (fun _ => True)
      (fun _ t => t.1.radioState = .scan ∧ t.2 = chip)
      (fun _ t => t.1.radioState = .scan ∧ t.2 = chip) (startRx config timeout) (m, chip) := by
    simp [startRx, startRxScan, startTimeoutSim, DrvCtx.scanning, hm, sidewalkChip, Chip.log,
      Command.activity, Command.toChip]
  cases r <;> exact h.executes hrun

theorem eq_of_test (m m' : DrvCtx) (h : (if m.scanning then some m else none) = some m') : m' = m := by
  split_ifs at h
  exact (Option.some.inj h).symm

/-- What is left of a hold before its critical region: nothing is written. -/
def HoldBefore : Rest → Prop
  | .pure r => ∃ e, r = .error e
  | .call (.command _) next => ∀ reply, HoldBefore (next reply)
  | .call (.memory f) next =>
    ((∀ m m', f m = some m' → m' = m) ∧ ∀ reply, HoldBefore (next reply)) ∨
      (f = DrvCtx.hold ∧ next true = .call (.command (.setRadioInt true)) (fun _ => .pure (.ok ())) ∧
        ∃ e, next false = .pure (.error e))

theorem holdBefore_holdScan : HoldBefore holdScan.run := by
  intro reply
  cases reply with
  | false => exact ⟨_, rfl⟩
  | true =>
    intro level
    cases level with
    | false => exact .inr ⟨rfl, rfl, _, rfl⟩
    | true =>
      refine .inl ⟨eq_of_test, fun scanning => ?_⟩
      cases scanning with
      | true => exact .inr ⟨rfl, rfl, _, rfl⟩
      | false =>
        intro read
        cases read with
        | false => exact ⟨_, rfl⟩
        | true =>
          intro high
          cases high with
          | false => exact .inr ⟨rfl, rfl, _, rfl⟩
          | true =>
            intro cleared
            cases cleared with
            | false => exact ⟨_, rfl⟩
            | true => exact .inr ⟨rfl, rfl, _, rfl⟩

end

/-- What is left of a hold after its critical region. -/
inductive HoldAfter : Rest → Prop
  | irq : HoldAfter (.call (.command (.setRadioInt true)) fun _ => .pure (.ok ()))
  | done : HoldAfter (.pure (.ok ()))

/-- What is left of a release that has found the scan. -/
inductive ReleaseAfter : Rest → Prop
  | pktType : ReleaseAfter (.call (.command .setPktType) fun _ =>
      .call (.command .setDioIrqParams) fun _ =>
        .call (.memory fun drv => some { drv with radioState := .standby }) fun _ => .pure (.ok ()))
  | irq : ReleaseAfter (.call (.command .setDioIrqParams) fun _ =>
      .call (.memory fun drv => some { drv with radioState := .standby }) fun _ => .pure (.ok ()))
  | state : ReleaseAfter
      (.call (.memory fun drv => some { drv with radioState := .standby }) fun _ => .pure (.ok ()))

/-- Where the scan context stands. -/
inductive ScanAt : Option (ScanCall × Rest) → RadioState → Bool → Prop
  | idle {state held} : ScanAt none state held
  | before {q state held} : HoldBefore q → ScanAt (some (.hold, q)) state held
  | after {q held} : HoldAfter q → ScanAt (some (.hold, q)) .scan held
  | called {state} : ScanAt (some (.release, releaseScan.run)) state false
  | restoring {q} : ReleaseAfter q → ScanAt (some (.release, q)) .scan false
  | released {r state} : ScanAt (some (.release, .pure r)) state false

/-- Where the context of Sidewalk stands. -/
inductive SidewalkAt (config : Config) : Option SidewalkCall → DrvCtx × Chip → Prop
  | idle {t} : Settled t → SidewalkAt config none t
  | called {op : SidewalkOp} {t} : op.whole = false → Settled t →
      SidewalkAt config (some ⟨false, (op.code config).run⟩) t
  | done {r t} : Settled t → SidewalkAt config (some ⟨true, .pure r⟩) t
  | running {p t} : Outside t →
      Program.Ensures (Access.Exec sidewalkChip) Outside (fun _ => Settled) p t →
      SidewalkAt config (some ⟨true, p⟩) t

structure Exclusive (config : Config) (s : Arbiter) : Prop where
  arbitrated : Arbitrated s
  sidewalk : SidewalkAt config s.sidewalk (s.drv, s.chip)
  scan : ScanAt s.scan s.drv.radioState (holding s.chip.history)

/-! ## Runs keep them apart -/

section

variable {config : Config}

/-- While Sidewalk is past its test no scan is held, and the scan context may be anywhere but in
the calls that have taken or found the scan. -/
theorem ScanAt.outside {scan : Option (ScanCall × Rest)} {state state' : RadioState} {held : Bool}
    (h : ScanAt scan state held) (hstate : state ≠ .scan) (hheld : held = false) :
    ScanAt scan state' false := by
  cases h with
  | idle => exact .idle
  | before h => exact .before h
  | after => contradiction
  | called => exact .called
  | restoring => contradiction
  | released => exact .released

theorem SidewalkAt.settled {sidewalk : Option SidewalkCall} {t : DrvCtx × Chip}
    (h : SidewalkAt config sidewalk t) (ht : t.1.radioState = .scan) : Settled t := by
  cases h with
  | idle h => exact h
  | called _ h => exact h
  | done h => exact h
  | running hout => exact absurd ht hout.state

/-- A scan that holds the radio finds it idle. -/
theorem Settled.idle {t : DrvCtx × Chip} (h : Settled t) (ht : RadioState.inUse t.1.radioState = false) :
    t.2.active = false := by
  cases hactive : t.2.active with
  | false => rfl
  | true =>
    have hstate := h hactive
    rw [ht] at hstate
    contradiction

theorem SidewalkAt.move {sidewalk : Option SidewalkCall} {t u : DrvCtx × Chip}
    (h : SidewalkAt config sidewalk t) (ht : t.1.radioState = .scan) (hu : Settled u) :
    SidewalkAt config sidewalk u := by
  cases h with
  | idle => exact .idle hu
  | called hop => exact .called hop hu
  | done => exact .done hu
  | running hout => exact absurd ht hout.state

theorem Exclusive.outside {s : Arbiter} (h : Exclusive config s) (hstate : s.drv.radioState ≠ .scan) :
    Outside (s.drv, s.chip) := by
  refine ⟨hstate, ?_, h.arbitrated.separated⟩
  cases hheld : holding s.chip.history with
  | false => rfl
  | true => exact absurd (h.arbitrated.state hheld) hstate

theorem Outside.arbitrated {t : DrvCtx × Chip} (h : Outside t)
    {sidewalk : Option SidewalkCall} {scan : Option (ScanCall × Rest)} :
    Arbitrated ⟨t.1, t.2, sidewalk, scan⟩ := by
  refine ⟨fun hheld => ?_, h.separated⟩
  rw [h.history] at hheld
  contradiction

theorem exclusive_of_outside {t : DrvCtx × Chip} (h : Outside t) {sidewalk : Option SidewalkCall}
    {scan : Option (ScanCall × Rest)} {s : Arbiter} (hs : s.drv.radioState ≠ .scan)
    (hscan : ScanAt scan s.drv.radioState (holding s.chip.history))
    (hheld : holding s.chip.history = false) (hsidewalk : SidewalkAt config sidewalk t) :
    Exclusive config ⟨t.1, t.2, sidewalk, scan⟩ := by
  refine ⟨h.arbitrated, hsidewalk, ?_⟩
  rw [h.history]
  exact hscan.outside hs hheld

theorem Exclusive.call {s : Arbiter} (h : Exclusive config s) {op : SidewalkOp}
    (hop : op.whole = false) (hidle : s.sidewalk = none) :
    Exclusive config { s with sidewalk := some ⟨false, (op.code config).run⟩ } := by
  refine ⟨⟨h.arbitrated.state, h.arbitrated.separated⟩, ?_, h.scan⟩
  have hsidewalk := h.sidewalk
  rw [hidle] at hsidewalk
  cases hsidewalk with
  | idle hsettled => exact .called hop hsettled

theorem whole_scanning {op : SidewalkOp} (hop : op.whole = true) {m : DrvCtx} {chip : Chip}
    (hm : m.radioState = .scan) {r t}
    (hrun : Program.Executes (Access.Exec sidewalkChip) (op.code config).run (m, chip) r t) :
    t.1.radioState = .scan ∧ t.2 = chip := by
  cases op with
  | startTx => exact startTx_scanning hm hrun
  | startRx => exact startRx_scanning hm hrun
  | _ => contradiction

theorem whole_settles (config : Config) {op : SidewalkOp} (hop : op.whole = true) {t : DrvCtx × Chip}
    (hout : Outside t) (ht : Settled t) :
    Program.Ensures (Access.Exec sidewalkChip) Outside (fun _ => Settled) (op.code config).run
      t := by
  have hends {p q : Op Unit} (hp : Settles p) :
      Program.Ensures (Access.Exec sidewalkChip) Outside (fun _ => Settled)
        (do if ← Access.test DrvCtx.scanning then q else p : Op Unit).run t := by
    have h : Gives (fun _ => Settled) (fun _ => Settled)
        (do if ← Access.test DrvCtx.scanning then q else p) t := by
      rw [Gives, Attempt.ensures_bind, Access.ensures_test]
      refine ⟨hout, ?_⟩
      rw [DrvCtx.scanning, decide_eq_false hout.state]
      exact hp t hout ht
    refine Program.Ensures.mono (fun _ h => h) ?_ h
    rintro (e | a) u hu <;> exact hu
  cases op with
  | startTx => exact hends settles_startTxRadio
  | startRx => exact hends settles_startRxRadio
  | _ => contradiction

theorem Exclusive.callWhole {s : Arbiter} (h : Exclusive config s) {op : SidewalkOp}
    (hop : op.whole = true) (hidle : s.sidewalk = none) {r t}
    (hrun : Program.Executes (Access.Exec sidewalkChip) (op.code config).run (s.drv, s.chip) r t) :
    Exclusive config { s with drv := t.1, chip := t.2 } := by
  have hsidewalk := h.sidewalk
  rw [hidle] at hsidewalk
  obtain ⟨hsettled⟩ := hsidewalk
  by_cases hstate : s.drv.radioState = .scan
  · obtain ⟨hstate', hchip⟩ := whole_scanning hop hstate hrun
    rw [hchip]
    refine ⟨⟨fun _ => hstate', h.arbitrated.separated⟩, ?_, ?_⟩
    · change SidewalkAt config s.sidewalk _
      rw [hidle]
      refine .idle fun hactive => ?_
      rw [hsettled.idle (by rw [hstate]; rfl)] at hactive
      contradiction
    · change ScanAt s.scan t.1.radioState _
      rw [hstate', ← hstate]
      exact h.scan
  · have hout := h.outside hstate
    have hens := whole_settles config hop hout hsettled
    refine exclusive_of_outside (hens.invariant hout hrun) hstate h.scan hout.history ?_
    rw [hidle]
    exact .idle (hens.executes hrun)

theorem Exclusive.sidewalkStep {s : Arbiter} (h : Exclusive config s) {tested c next reply t}
    (hrest : s.sidewalk = some ⟨tested, .call c next⟩)
    (hexec : Access.Exec sidewalkChip (s.drv, s.chip) c reply t) :
    Exclusive config { s with drv := t.1, chip := t.2, sidewalk := some ⟨true, next reply⟩ } := by
  have hsidewalk := h.sidewalk
  rw [hrest] at hsidewalk
  generalize hp : Program.call c next = p at hsidewalk
  cases hsidewalk with
  | called hop hsettled =>
    obtain ⟨next', r, hcode, hnext, hends⟩ := code_steps config _ hop
    rw [hcode] at hp
    injection hp with hc hn
    subst hc hn
    cases hexec with
    | memory hf =>
      obtain rfl := eq_of_test _ _ hf
      rw [hnext]
      exact ⟨⟨h.arbitrated.state, h.arbitrated.separated⟩, .done hsettled, h.scan⟩
    | refused hf =>
      have hstate : s.drv.radioState ≠ .scan := by
        intro hscan
        simp [DrvCtx.scanning, hscan] at hf
      have hout := h.outside hstate
      exact exclusive_of_outside hout hstate h.scan hout.history (.running hout (hends _ hout hsettled))
  | done => contradiction
  | running hout hens =>
    subst hp
    obtain ⟨hout', hnext⟩ := hens _ _ hexec
    exact exclusive_of_outside hout' hout.state h.scan hout.history (.running hout' hnext)

theorem Exclusive.sidewalkReturn {s : Arbiter} (h : Exclusive config s) {tested r}
    (hrest : s.sidewalk = some ⟨tested, .pure r⟩) :
    Exclusive config { s with sidewalk := none } := by
  refine ⟨⟨h.arbitrated.state, h.arbitrated.separated⟩, ?_, h.scan⟩
  have hsidewalk := h.sidewalk
  rw [hrest] at hsidewalk
  generalize hp : (Program.pure r : Rest) = p at hsidewalk
  cases hsidewalk with
  | called hop hsettled => exact .idle hsettled
  | done hsettled => exact .idle hsettled
  | running _ hens =>
    subst hp
    exact .idle hens

theorem Settled.log {m : DrvCtx} {chip : Chip} (h : Settled (m, chip)) (history : List ScanEvent) :
    Settled (m, { chip with history }) := h

theorem SidewalkAt.log {sidewalk : Option SidewalkCall} {m : DrvCtx} {chip : Chip}
    (h : SidewalkAt config sidewalk (m, chip)) {history : List ScanEvent}
    (hheld : holding history = false) (hseparated : Separated history) :
    SidewalkAt config sidewalk (m, { chip with history }) := by
  generalize ht : (m, chip) = t at h
  cases h with
  | idle h => subst ht; exact .idle h
  | called hop h => subst ht; exact .called hop h
  | done h => subst ht; exact .done h
  | running hout hens =>
    subst ht
    exact .running ⟨hout.state, hheld, hseparated⟩ (ensures_history hens hheld hseparated)

theorem Exclusive.callScan {s : Arbiter} (h : Exclusive config s) {call : ScanCall} :
    Exclusive config { s with chip := call.called s.chip, scan := some (call, call.code.run) } := by
  cases call with
  | hold => exact ⟨⟨h.arbitrated.state, h.arbitrated.separated⟩, h.sidewalk, .before holdBefore_holdScan⟩
  | release =>
    have hseparated := h.arbitrated.separated.released
    refine ⟨⟨fun hheld => ?_, hseparated⟩, h.sidewalk.log rfl hseparated, .called⟩
    cases hheld

theorem Exclusive.scanReturn {s : Arbiter} (h : Exclusive config s) {call r}
    (hrest : s.scan = some (call, .pure r)) :
    Exclusive config { s with chip := call.returned r s.chip, scan := none } := by
  have hscan := h.scan
  rw [hrest] at hscan
  generalize hp : (Program.pure r : Rest) = p at hscan
  generalize hstate : s.drv.radioState = state at hscan
  generalize hheld : holding s.chip.history = held at hscan
  have hsame (hchip : call.returned r s.chip = s.chip) :
      Exclusive config { s with chip := call.returned r s.chip, scan := none } := by
    rw [hchip]
    exact ⟨⟨h.arbitrated.state, h.arbitrated.separated⟩, h.sidewalk, .idle⟩
  cases hscan with
  | before hbefore =>
    subst hp
    obtain ⟨e, rfl⟩ := hbefore
    exact hsame rfl
  | after hafter =>
    subst hp
    cases hafter with
    | done =>
      have hsettled := h.sidewalk.settled hstate
      have hidle : s.chip.active = false := hsettled.idle (by rw [hstate]; rfl)
      refine ⟨⟨fun _ => hstate, ?_⟩, h.sidewalk.move hstate (hsettled.log _), .idle⟩
      change Separated (.held s.chip.active :: s.chip.history)
      rw [hidle]
      exact h.arbitrated.separated.held
  | called => cases hp
  | restoring hafter =>
    subst hp
    cases hafter
  | released => exact hsame rfl

theorem Exclusive.scanStep {s : Arbiter} (h : Exclusive config s) {call c next reply t}
    (hrest : s.scan = some (call, .call c next)) (hclear : HoldsClear s .scanStep)
    (hexec : Access.Exec scanChip (s.drv, s.chip) c reply t) :
    Exclusive config { s with drv := t.1, chip := t.2, scan := some (call, next reply) } := by
  have hscan := h.scan
  rw [hrest] at hscan
  generalize hp : Program.call c next = p at hscan
  generalize hstate : s.drv.radioState = state at hscan
  generalize hheld : holding s.chip.history = held at hscan
  -- a step that writes nothing
  have hsame (hat : ScanAt (some (call, next reply)) s.drv.radioState (holding s.chip.history))
      (ht : t = (s.drv, s.chip)) :
      Exclusive config { s with drv := t.1, chip := t.2, scan := some (call, next reply) } := by
    subst ht
    exact ⟨⟨h.arbitrated.state, h.arbitrated.separated⟩, h.sidewalk, hat⟩
  -- the last step of a release
  have hrelease (hcall : call = .release) (hc : c = .memory fun drv =>
      some { drv with radioState := .standby }) (hnext : next = fun _ => .pure (.ok ()))
      (hfound : s.drv.radioState = .scan) (hfree : holding s.chip.history = false) :
      Exclusive config { s with drv := t.1, chip := t.2, scan := some (call, next reply) } := by
    subst hcall hc hnext
    have hidle : s.chip.active = false :=
      (h.sidewalk.settled hfound).idle (by rw [hfound]; rfl)
    cases hexec with
    | memory hf =>
      obtain rfl := Option.some.inj hf
      refine ⟨⟨fun hholding => ?_, h.arbitrated.separated⟩, h.sidewalk.move hfound ?_, ?_⟩
      · rw [hfree] at hholding
        contradiction
      · intro hactive
        rw [hidle] at hactive
        contradiction
      · rw [hfree]
        exact .released
    | refused hf => contradiction
  cases hscan with
  | before hbefore =>
    subst hp
    cases hexec with
    | command hdevice => exact hsame (.before (hbefore _)) (by rw [hdevice])
    | memory hf =>
      obtain ⟨hwrite, hnext⟩ | ⟨rfl, hnext, -⟩ := hbefore
      · exact hsame (.before (hnext true)) (by rw [hwrite _ _ hf])
      · obtain ⟨hdc, hcad, htested⟩ := hclear ⟨_, next, hrest⟩
        unfold DrvCtx.hold at hf
        split_ifs at hf with huse
        obtain rfl := Option.some.inj hf
        rw [hnext]
        have hidle : RadioState.inUse s.drv.radioState = false := by
          obtain ⟨htx, hrx⟩ := not_or.mp huse
          cases hs : s.drv.radioState with
          | rx => exact absurd hs hrx
          | tx => exact absurd hs htx
          | cad => exact absurd hs hcad
          | rxDc => exact absurd hs hdc
          | _ => rfl
        have hmoved {sidewalk : Option SidewalkCall} (hp : ∀ p, sidewalk = some p → p.tested = false)
            (hat : SidewalkAt config sidewalk (s.drv, s.chip)) :
            SidewalkAt config sidewalk ({ s.drv with radioState := .scan }, s.chip) := by
          have hquiet (hsettled : Settled (s.drv, s.chip)) :
              Settled ({ s.drv with radioState := .scan }, s.chip) := by
            intro hactive
            rw [hsettled.idle hidle] at hactive
            contradiction
          generalize htwo : (s.drv, s.chip) = two at hat
          cases hat with
          | idle hsettled =>
            subst htwo
            exact .idle (hquiet hsettled)
          | called hop hsettled =>
            subst htwo
            exact .called hop (hquiet hsettled)
          | done => cases hp _ rfl
          | running => cases hp _ rfl
        exact ⟨⟨fun _ => rfl, h.arbitrated.separated⟩, hmoved htested h.sidewalk, .after .irq⟩
    | refused hf =>
      obtain ⟨-, hnext⟩ | ⟨rfl, -, e, hnext⟩ := hbefore
      · exact hsame (.before (hnext false)) rfl
      · exact hsame (.before (by rw [hnext]; exact ⟨e, rfl⟩)) rfl
  | after hafter =>
    subst hp
    cases hafter with
    | irq =>
      cases hexec with
      | command hdevice => exact hsame (hstate ▸ .after .done) (by rw [hdevice])
  | called =>
    injection hp with hc hn
    subst hc hn
    cases hexec with
    | memory hf =>
      obtain rfl := eq_of_test _ _ hf
      have hfound : s.drv.radioState = .scan := by
        by_contra hne
        simp [DrvCtx.scanning, hne] at hf
      refine hsame ?_ rfl
      rw [hfound, hheld]
      exact .restoring .pktType
    | refused hf =>
      refine hsame ?_ rfl
      rw [hheld]
      exact .released
  | restoring hafter =>
    subst hp
    cases hafter with
    | pktType =>
      cases hexec with
      | command hdevice => exact hsame (hstate ▸ hheld ▸ .restoring .irq) (by rw [hdevice])
    | irq =>
      cases hexec with
      | command hdevice => exact hsame (hstate ▸ hheld ▸ .restoring .state) (by rw [hdevice])
    | state => exact hrelease rfl rfl rfl hstate hheld
  | released => cases hp

theorem exclusive_init {s : Arbiter} (h : (arbiter config).init s) : Exclusive config s := by
  obtain ⟨hstate, hchip, hsidewalk, hscan⟩ := h
  have hsettled : Settled (s.drv, s.chip) := by
    intro hactive
    rw [hchip] at hactive
    contradiction
  refine ⟨⟨fun hheld => ?_, ?_, ?_⟩, ?_, ?_⟩
  · rw [hchip] at hheld
    contradiction
  · intro c newer older heq
    rw [hchip] at heq
    cases newer <;> cases heq
  · intro active newer older heq
    rw [hchip] at heq
    cases newer <;> cases heq
  · rw [hsidewalk]
    exact .idle hsettled
  · rw [hscan]
    exact .idle

theorem Exclusive.step {s s' : Arbiter} {a : ArbiterAct} (h : Exclusive config s)
    (hclear : HoldsClear s a) (hstep : ArbiterStep config s a s') : Exclusive config s' := by
  cases hstep with
  | call hop hidle => exact h.call hop hidle
  | callWhole hop hidle hrun => exact h.callWhole hop hidle hrun
  | sidewalkStep hrest hexec => exact h.sidewalkStep hrest hexec
  | sidewalkReturn hrest => exact h.sidewalkReturn hrest
  | callScan => exact h.callScan
  | scanStep hrest hexec => exact h.scanStep hrest hclear hexec
  | scanReturn hrest => exact h.scanReturn hrest

/-- Where every hold passes its region clear of the operations of Sidewalk, a scan that holds the
radio keeps the state, receives no command of Sidewalk, and was given an idle radio. -/
theorem scans_arbitrated {s : Arbiter} (h : (arbiter config).Reached (fun s => HoldsClear s) s) :
    Arbitrated s := by
  have hexclusive : Exclusive config s :=
    h.invariant (fun _ => exclusive_init) fun _ _ _ hi hclear hstep => hi.step hclear hstep
  exact hexclusive.arbitrated

/-! ## Two runs -/

theorem reached_sidewalk {guard : Arbiter → ArbiterAct → Prop} (hguard : ∀ s, guard s .sidewalkStep)
    {s : Arbiter} {tested : Bool} {p : Rest} {r t}
    (hrun : Program.Executes (Access.Exec sidewalkChip) p (s.drv, s.chip) r t)
    (h : (arbiter config).Reached guard { s with sidewalk := some ⟨tested, p⟩ }) :
    ∃ tested, (arbiter config).Reached guard ⟨t.1, t.2, some ⟨tested, .pure r⟩, s.scan⟩ := by
  generalize hu : (s.drv, s.chip) = u at hrun
  induction hrun generalizing s tested with
  | pure =>
    subst hu
    exact ⟨tested, h⟩
  | @call c next reply u v w r hexec _ ih =>
    subst hu
    exact ih (s := { s with drv := v.1, chip := v.2 }) (.step h (hguard _) (.sidewalkStep rfl hexec))
      rfl

end

/-- Nothing is connected, and there are no mitigations. -/
def plainConfig : Config := ⟨fun _ => false, 0, false, false, false⟩

def restingCtx : DrvCtx := ⟨.standby, .lora, .csOnly, .off, 0⟩

def restingArbiter : Arbiter := ⟨restingCtx, ⟨false, []⟩, none, none⟩

theorem scan_command (m : DrvCtx) (chip : Chip) (c : Command) (reply : Bool) :
    Access.Exec scanChip (m, chip) (.command c) reply (m, chip) := .command rfl

/-- A hold of a radio that no transmission or reception uses, up to its return. -/
theorem reached_hold {guard : Arbiter → ArbiterAct → Prop} {s : Arbiter}
    (hguard : ∀ u a, u.sidewalk = s.sidewalk →
      (u.drv.radioState = s.drv.radioState ∨ u.drv.radioState = .scan) → guard u a)
    (hscan : s.scan = none) (hfree : s.drv.hold = some { s.drv with radioState := .scan })
    (h : (arbiter plainConfig).Reached guard s) :
    (arbiter plainConfig).Reached guard ⟨{ s.drv with radioState := .scan },
      { s.chip with history := .held s.chip.active :: s.chip.history }, s.sidewalk, none⟩ := by
  have hcalled := System.Reached.step h (hguard _ (.callScan .hold) rfl (.inl rfl))
    (.callScan hscan)
  have hread := System.Reached.step hcalled (hguard _ .scanStep rfl (.inl rfl))
    (.scanStep rfl (scan_command _ _ _ true))
  have hlow := System.Reached.step hread (hguard _ .scanStep rfl (.inl rfl))
    (.scanStep rfl (scan_command _ _ _ false))
  have htaken := System.Reached.step hlow (hguard _ .scanStep rfl (.inl rfl))
    (.scanStep rfl (.memory hfree))
  have hirq := System.Reached.step htaken (hguard _ .scanStep rfl (.inr rfl))
    (.scanStep rfl (scan_command _ _ _ true))
  have hreturned := System.Reached.step hirq (hguard _ .scanReturn rfl (.inr rfl))
    (.scanReturn rfl)
  exact hreturned

theorem scans_arbitrated_resting : Arbitrated
    ⟨{ restingCtx with radioState := .scan }, ⟨false, [.held false]⟩, none, none⟩ := by
  apply scans_arbitrated
  refine reached_hold (s := restingArbiter) ?_ rfl rfl (.init ⟨rfl, rfl, rfl, rfl⟩)
  intro u a hsidewalk hstate
  cases a with
  | scanStep =>
    intro _
    have hresting : restingArbiter.drv.radioState = .standby := rfl
    rw [hresting] at hstate
    refine ⟨?_, ?_, ?_⟩
    · rcases hstate with hstate | hstate <;> rw [hstate] <;> decide
    · rcases hstate with hstate | hstate <;> rw [hstate] <;> decide
    · intro p hp
      rw [hsidewalk] at hp
      cases hp
  | _ => trivial

/-- A hold returns 0 while a duty-cycled reception is in progress. -/
theorem hold_takes_dutyCycle :
    ¬∀ s, (arbiter plainConfig).Reachable s → Arbitrated s := by
  intro h
  have hcall : (arbiter plainConfig).Reachable { restingArbiter with
      sidewalk := some ⟨false, (SidewalkOp.code plainConfig (.setRxDutyCycle 1 1)).run⟩ } :=
    .step (.init ⟨rfl, rfl, rfl, rfl⟩) trivial (.call (s := restingArbiter) rfl rfl)
  have hrun : Program.Executes (Access.Exec sidewalkChip)
      (SidewalkOp.code plainConfig (.setRxDutyCycle 1 1)).run (restingCtx, ⟨false, []⟩) (.ok ())
      ({ restingCtx with radioState := .rxDc }, ⟨true, [.sent .setRxDutyCycle]⟩) :=
    .call (.refused rfl) <| .call (.refused rfl) <| .call (.command (rfl : sidewalkChip _ _ true _)) <|
      .call (.command (rfl : sidewalkChip _ _ false _)) <| .call (.command (rfl : sidewalkChip _ _ true _)) <|
      .call (.memory rfl) .pure
  obtain ⟨tested, hdone⟩ := reached_sidewalk (s := restingArbiter) (fun _ => trivial) hrun hcall
  have hreturned := System.Reached.step hdone trivial (.sidewalkReturn rfl)
  have hheld := reached_hold (fun _ _ _ _ => trivial) rfl rfl hreturned
  exact absurd ((h _ hheld).separated.free true [] _ rfl) (by decide)

end Sidewalk.Radio.Lr11xx
