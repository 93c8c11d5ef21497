import Sidewalk.Radio.Lbt.Driver
import Sidewalk.Radio.Lr11xx

/-!
# The exit mode of the LR11xx driver

What the calls of `lr11xx_radio.c` make of `cad_exit_mode`, with any results of the commands. No
scan is held in these runs, so no timeout is simulated.
-/

namespace Sidewalk.Radio.Lr11xx

open Lib

def Command.startsTx : Command → Bool
  | .setTx => true
  | _ => false

/-- Whether the command that starts a transmission was sent, with any result. -/
def txSent : Semantics Bool Command Bool := fun sent c _ sent' => sent' = (sent || c.startsTx)

/-- A call in a state of the driver, whose `deferred_timeout` an interrupt reads. -/
def callOf (config : Config) (drv : DrvCtx) : RadioCall → Op Unit
  | .setLoraCadParams exitMode => setLoraCadParams exitMode
  | .loraStartCad => loraStartCad config
  | .startCarrierSense exitMode => startCarrierSense config exitMode
  | .startRx timeout => startRx config timeout
  | .startContinuousRx => startContinuousRx config
  | .setRxDutyCycle rxTime sleepTime => setRxDutyCycle config rxTime sleepTime
  | .startTx _ => startTx config
  | .standby => standby config
  | .sleep => sleep config
  | .setModemMode mode => setModemMode mode
  | .irqProcess irq => irqProcess config drv.deferredTimeout irq

/-- No scan is held, and none was. -/
def DrvCtx.unscanned (drv : DrvCtx) : Prop := drv.radioState ≠ .scan ∧ drv.timeoutSim = .off

/-- The driver after `sid_pal_radio_init`. -/
def lbtDriver (config : Config) : LbtDriver DrvCtx where
  init drv := drv.radioState = .standby ∧ drv.timeoutSim = .off ∧ drv.cadExitMode ≠ .csLbt
  exitMode drv := drv.cadExitMode
  call drv call ok sent drv' := ∃ r, ok = r.isOk ∧
    Program.Executes (Access.Exec txSent) (callOf config drv call).run (drv, false) r
      (drv', sent)

/-- No scan, and this is known of the exit mode and the transmission. -/
def Known (Q : CadExitMode → Bool → Prop) (t : DrvCtx × Bool) : Prop :=
  t.1.unscanned ∧ Q t.1.cadExitMode t.2

abbrev Reaches {α : Type} (post : α → DrvCtx × Bool → Prop)
    (failed : RadioFailure → DrvCtx × Bool → Prop) (p : Op α) (t : DrvCtx × Bool) : Prop :=
  Attempt.Ensures (Access.Exec txSent) (fun _ => True) post failed p t

/-- The attempt keeps what is known of the exit mode and the transmission. -/
abbrev Steady {α : Type} (Q : CadExitMode → Bool → Prop) (p : Op α) : Prop :=
  Attempt.Keeps (Access.Exec txSent) (fun _ => True) (Known Q) p

section

variable {α : Type} {config : Config} {Q : CadExitMode → Bool → Prop}

theorem steady_test {p : DrvCtx → Bool} : Steady Q (Access.test p) :=
  Access.keeps_test fun _ _ => trivial

theorem txSent_other {sent sent' reply : Bool} {c : Command} (hc : c.startsTx = false)
    (h : txSent sent c reply sent') : sent' = sent := by
  rw [txSent, hc, Bool.or_false] at h
  exact h

theorem steady_perform {c : Command} {e : RadioFailure} (hc : c.startsTx = false) :
    Steady Q (Access.perform c e) :=
  Access.keeps_perform_frame (fun _ _ => trivial) fun _ _ _ => txSent_other hc

theorem steady_ask {c : Command} (hc : c.startsTx = false) : Steady Q (Access.ask c) :=
  Access.keeps_ask_frame (fun _ _ => trivial) fun _ _ _ => txSent_other hc

theorem steady_ignore {c : Command} (hc : c.startsTx = false) : Steady Q (Access.ignore c) :=
  Access.keeps_ignore (steady_ask hc)

theorem steady_setState {state : RadioState} (hstate : state ≠ .scan) :
    Steady Q (setState state) :=
  Access.keeps_modify fun _ _ h => ⟨trivial, ⟨hstate, h.1.2⟩, h.2⟩

/-- The test for a scan, which finds none. -/
theorem steady_unscanned {p q : Op α} (h : Steady Q p) :
    Steady Q (do if ← Access.test DrvCtx.scanning then q else p) := by
  intro t ht
  rw [Attempt.ensures_bind, Access.ensures_test, DrvCtx.scanning, decide_eq_false ht.1.1]
  exact ⟨trivial, h t ht⟩

theorem steady_setRadioMode {rfEn txEn extPa : Bool} :
    Steady Q (setRadioMode config rfEn txEn extPa) := by
  have hpin {pin : Pin} {level : Bool} : Steady Q (writePin config pin level) :=
    Access.keeps_only (steady_perform rfl)
  exact Access.keeps_require.bind fun _ => hpin.bind fun _ => hpin.bind fun _ => hpin

theorem steady_clearIrqStatusAll : Steady Q clearIrqStatusAll :=
  steady_unscanned ((steady_perform rfl).bind fun _ => (steady_ask rfl).bind fun _ =>
    Access.keeps_only (steady_perform rfl))

theorem steady_sleep : Steady Q (sleep config) := by
  refine steady_unscanned (steady_test.bind fun _ => Attempt.keeps_pure.ite ?_)
  refine steady_clearIrqStatusAll.bind fun _ => steady_setRadioMode.bind fun _ => ?_
  refine (Access.keeps_only (steady_ignore rfl)).bind fun _ => (steady_ask rfl).bind fun _ => ?_
  refine (steady_setState (by decide)).ite ?_
  exact (Access.keeps_only (steady_ignore rfl)).bind fun _ => Attempt.keeps_throw

theorem steady_standby : Steady Q (standby config) := by
  refine steady_unscanned (steady_test.bind fun _ => Attempt.keeps_pure.ite ?_)
  refine steady_test.bind fun _ => (Access.keeps_only ?_).bind fun _ => ?_
  · refine (steady_perform rfl).bind fun _ => (Access.keeps_only (steady_ignore rfl)).bind fun _ => ?_
    exact (Access.keeps_only (steady_ignore rfl)).bind fun _ => steady_setState (by decide)
  · refine steady_clearIrqStatusAll.bind fun _ => steady_setRadioMode.bind fun _ => ?_
    exact (steady_perform rfl).bind fun _ => steady_setState (by decide)

/-- The start of the radio with a command other than the one for a transmission. -/
theorem steady_launch {c : Command} {e : RadioFailure} {state : RadioState} {rfEn txEn extPa : Bool}
    (hc : c.startsTx = false) (hstate : state ≠ .scan) :
    Steady Q (do
      setRadioMode config rfEn txEn extPa
      clearIrqStatusAll
      Access.perform c e
      setState state) :=
  steady_setRadioMode.bind fun _ => steady_clearIrqStatusAll.bind fun _ =>
    (steady_perform hc).bind fun _ => steady_setState hstate

theorem steady_setTx {e : RadioFailure} (hQ : ∀ m sent, Q m sent → Q m true) :
    Steady Q (Access.perform .setTx e) := by
  apply Access.keeps_perform
  intro m sent reply sent' h hdevice
  have hsent : sent' = true := by
    rw [txSent] at hdevice
    exact hdevice.trans (Bool.or_true sent)
  rw [hsent]
  exact ⟨trivial, h.1, hQ _ _ h.2⟩

theorem steady_startTx (hQ : ∀ m sent, Q m sent → Q m true) : Steady Q (startTx config) :=
  steady_unscanned (steady_setRadioMode.bind fun _ => steady_clearIrqStatusAll.bind fun _ =>
    (steady_setTx hQ).bind fun _ => steady_setState (by decide))

theorem steady_startRxRadio : Steady Q (startRxRadio config) :=
  (steady_perform rfl).bind fun _ => steady_launch rfl (by decide)

theorem steady_setRxDutyCycle {rxTime sleepTime : Nat} :
    Steady Q (setRxDutyCycle config rxTime sleepTime) :=
  steady_unscanned (Access.keeps_require.bind fun _ => steady_launch rfl (by decide))

theorem steady_loraStartCad : Steady Q (loraStartCad config) :=
  steady_unscanned (steady_launch rfl (by decide))

theorem steady_setModemMode {mode : ModemMode} : Steady Q (setModemMode mode) := by
  have hmodem : Steady Q (Access.modify fun drv => { drv with modem := mode }) :=
    Access.keeps_modify fun _ _ h => ⟨trivial, h⟩
  exact steady_unscanned ((steady_perform rfl).bind fun _ => hmodem.bind fun _ => steady_perform rfl)

/-! ## Interrupts -/

theorem granted_clear {old : CadExitMode} : Steady (Granted old)
    (Access.modify fun drv => { drv with cadExitMode := .none }) :=
  Access.keeps_modify fun _ _ h => ⟨trivial, h.1, h.2.cleared⟩

/-- The start that the interrupt routine makes. -/
theorem granted_startTx {old : CadExitMode} (hold : old = .csLbt) {m : DrvCtx} {sent : Bool}
    (hm : m.unscanned) :
    Reaches (fun _ => Known (Granted old)) (fun _ _ => False)
      (Attempt.regardless (startTx config)) ({ m with cadExitMode := .none }, sent) := by
  have hstart : Steady (fun new _ => old = .csLbt ∧ new = .none) (startTx config) :=
    steady_startTx fun _ _ h => h
  rw [Reaches, Attempt.ensures_regardless]
  exact (hstart _ ⟨hm, hold, rfl⟩).mono (fun _ h => h) (fun _ _ h => ⟨h.1, .inr h.2⟩)
    fun _ _ h => ⟨h.1, .inr h.2⟩

theorem granted_timeoutEvent {old : CadExitMode} : Steady (Granted old) (timeoutEvent config) := by
  refine steady_test.bind fun _ => Attempt.keeps_pure.ite ?_
  rintro ⟨m, sent⟩ h
  rw [Attempt.ensures_bind, Access.ensures_test]
  refine ⟨trivial, ?_⟩
  by_cases hmode : m.cadExitMode = .csLbt
  · rw [decide_eq_true hmode, if_pos rfl, Attempt.ensures_bind, Access.ensures_modify]
    refine ⟨trivial, ?_⟩
    rw [Attempt.ensures_bind]
    exact (granted_startTx (hmode ▸ h.2 : Granted old .csLbt sent).wished h.1).mono (fun _ h => h)
      (fun _ _ h => h) fun _ _ hfalse => hfalse.elim
  · rw [decide_eq_false hmode]
    exact h

theorem granted_cadEvent {old : CadExitMode} {irq : IrqStatus} :
    Steady (Granted old) (cadEvent config irq) := by
  rintro ⟨m, sent⟩ h
  rw [cadEvent, Attempt.ensures_bind, Access.ensures_test]
  refine ⟨trivial, ?_⟩
  by_cases hmode : m.cadExitMode = .csLbt
  · have hold : old = .csLbt := (hmode ▸ h.2 : Granted old .csLbt sent).wished
    have hstart : Steady (fun _ _ => old = .csLbt) (startTx config) :=
      steady_startTx fun _ _ h => h
    rw [decide_eq_true hmode, Attempt.ensures_bind, Access.ensures_only]
    have hclear (event : Assigned) (t : DrvCtx × Bool) (ht : t.1.unscanned) :
        Reaches (fun _ => Known (Granted old)) (fun _ => Known (Granted old))
          (do Access.modify fun drv => { drv with cadExitMode := .none }
              pure event) t := by
      rw [Reaches, Attempt.ensures_bind, Access.ensures_modify]
      exact ⟨trivial, ht, .inr ⟨hold, rfl⟩⟩
    cases irq.cadDetected with
    | true => exact hclear _ _ h.1
    | false =>
      rw [if_pos rfl, Attempt.ensures_regardless]
      exact (hstart _ ⟨h.1, hold⟩).mono (fun _ h => h) (fun _ t ht => hclear _ t ht.1)
        fun _ t ht => hclear _ t ht.1
  · rw [decide_eq_false hmode]
    exact (granted_clear.bind fun _ => Attempt.keeps_pure) _ h

theorem steady_scanDone {irq : IrqStatus} : Steady Q (scanDone irq) := by
  have hdone {state : RadioState} (hstate : state ≠ .scan) :
      Steady Q (do setState state; Access.ignore .setPktType) :=
    (steady_setState hstate).bind fun _ => steady_ignore rfl
  refine (Access.keeps_only (hdone (by decide))).bind fun _ => ?_
  refine (Access.keeps_only (hdone (by decide))).bind fun _ => Access.keeps_only ?_
  refine (steady_ask rfl).bind fun _ => Access.keeps_only ?_
  exact steady_test.bind fun _ => Access.keeps_only (hdone (by decide))

theorem granted_loraEvent {old : CadExitMode} {irq : IrqStatus} :
    Steady (Granted old) (loraEvent config irq) := by
  refine granted_cadEvent.ite (Attempt.Keeps.ite ?_ ?_)
  · exact (steady_ask rfl).bind fun _ => Attempt.keeps_pure.ite Attempt.keeps_pure
  · exact steady_scanDone.bind fun _ => Attempt.keeps_pure

theorem granted_preambleEvent {old : CadExitMode} :
    Steady (Granted old) (preambleEvent config) := by
  refine steady_test.bind fun _ => Attempt.Keeps.ite ?_ Attempt.keeps_pure
  exact granted_clear.bind fun _ => steady_standby.regardless.bind fun _ => Attempt.keeps_pure

theorem granted_fskEvent {old : CadExitMode} {irq : IrqStatus} :
    Steady (Granted old) (fskEvent config irq) := by
  refine Attempt.Keeps.ite ?_ (granted_preambleEvent.ite (Attempt.Keeps.ite ?_ ?_))
  · exact (steady_ignore rfl).bind fun _ => Attempt.keeps_pure
  · have hrxDone : Steady (Granted old) rxDoneEvent :=
      (steady_ask rfl).bind fun _ => Attempt.keeps_pure.ite
        ((steady_ask rfl).bind fun _ => Attempt.keeps_pure.ite Attempt.keeps_pure)
    exact hrxDone.bind fun _ => steady_scanDone.bind fun _ => Attempt.keeps_pure
  · exact steady_scanDone.bind fun _ => Attempt.keeps_pure

theorem granted_readInterrupt {old : CadExitMode} {irq : IrqStatus} :
    Steady (Granted old) (readInterrupt config irq) := by
  have hevent : Steady (Granted old) (interruptEvent config irq) := by
    refine Attempt.keeps_pure.ite (Attempt.keeps_pure.ite ?_)
    refine granted_timeoutEvent.ite (Attempt.keeps_pure.ite ?_)
    exact steady_test.bind fun _ => granted_loraEvent.ite granted_fskEvent
  refine (steady_ask rfl).bind fun _ => Attempt.Keeps.ite ?_ Attempt.keeps_pure
  exact (steady_ask rfl).bind fun _ => hevent.ite Attempt.keeps_pure

theorem granted_chipInterrupt {old : CadExitMode} {simulated : Option RadioEvent}
    {irq : IrqStatus} : Steady (Granted old) (chipInterrupt config simulated irq) := by
  have hreport (b : Bool) (event : Option RadioEvent) :
      Steady (Granted old) (reportEvent b event) := by
    cases event with
    | none => exact Attempt.keeps_pure
    | some event => exact steady_ignore rfl
  refine granted_readInterrupt.bind fun assigned => ?_
  have hend : Steady (Granted old)
      (do if ← Access.test (·.radioState = .sleep) then pure ()
          else Access.ignore .setDioIrqParams) :=
    steady_test.bind fun _ => Attempt.keeps_pure.ite (steady_ignore rfl)
  cases assigned with
  | none => exact (hreport true simulated).bind fun _ => hend
  | some event => exact (hreport false event).bind fun _ => hend

/-- Nothing is simulated, as no marker is set. -/
theorem steady_simulatedInterrupt {deferredTimeout : Nat} :
    Steady Q (simulatedInterrupt config deferredTimeout) := by
  intro t ht
  rw [simulatedInterrupt, Attempt.ensures_bind, Access.ensures_test, ht.1.2]
  refine ⟨trivial, ?_⟩
  rw [decide_eq_false (by decide), if_neg (by decide), Attempt.ensures_bind, Access.ensures_test,
    ht.1.2, decide_eq_false (by decide), if_neg (by decide)]
  exact ⟨trivial, ht⟩

theorem granted_irqProcess {old : CadExitMode} {deferredTimeout : Nat} {irq : IrqStatus} :
    Steady (Granted old) (irqProcess config deferredTimeout irq) :=
  steady_simulatedInterrupt.bind fun _ => steady_unscanned granted_chipInterrupt

/-! ## The driver -/

/-- No scan before and after, and the exit mode is this. -/
def Becomes (mode : CadExitMode) (t : DrvCtx × Bool) : Prop := Known (fun new _ => new = mode) t

theorem effect_setLoraCadParams {exitMode : CadExitMode} {drv : DrvCtx} {sent : Bool} {r t}
    (hdrv : drv.unscanned)
    (hrun : Program.Executes (Access.Exec txSent) (setLoraCadParams exitMode).run
      (drv, sent) r t) :
    Becomes (if exitMode.lora then exitMode else drv.cadExitMode) t := by
  have h : Reaches (fun _ => Becomes (if exitMode.lora then exitMode else drv.cadExitMode))
      (fun _ => Becomes (if exitMode.lora then exitMode else drv.cadExitMode))
      (setLoraCadParams exitMode) (drv, sent) := by
    rw [Reaches, setLoraCadParams, Attempt.ensures_bind, Access.ensures_test, DrvCtx.scanning,
      decide_eq_false hdrv.1]
    refine ⟨trivial, ?_⟩
    rw [if_neg Bool.false_ne_true, Attempt.ensures_bind, Access.ensures_require]
    cases exitMode.lora with
    | false => exact ⟨hdrv, rfl⟩
    | true =>
      rw [if_pos rfl, Attempt.ensures_bind, Access.ensures_modify]
      have hparams : Steady (fun new _ => new = exitMode)
          (Access.perform .setCadParams .hardwareError) := steady_perform rfl
      exact ⟨trivial, hparams ({ drv with cadExitMode := exitMode }, sent) ⟨hdrv, rfl⟩⟩
  cases r <;> exact h.executes hrun

theorem effect_startCarrierSense {exitMode : CadExitMode} {drv : DrvCtx} {sent : Bool} {r t}
    (hdrv : drv.unscanned)
    (hrun : Program.Executes (Access.Exec txSent) (startCarrierSense config exitMode).run
      (drv, sent) r t) :
    Becomes (if r.isOk then exitMode else drv.cadExitMode) t := by
  have h : Reaches (fun _ => Becomes exitMode) (fun _ => Becomes drv.cadExitMode)
      (startCarrierSense config exitMode) (drv, sent) := by
    have hlast (t : DrvCtx × Bool) (ht : t.1.unscanned) :
        Reaches (fun _ => Becomes exitMode) (fun _ => Becomes drv.cadExitMode)
          (Access.modify fun drv => { drv with cadExitMode := exitMode }) t := by
      rw [Reaches, Access.ensures_modify]
      exact ⟨trivial, ht, rfl⟩
    let Q : CadExitMode → Bool → Prop := fun new _ => new = drv.cadExitMode
    have hkept {p : Op Unit} {f : Unit → Op Unit} (hp : Steady Q p) {t : DrvCtx × Bool}
        (ht : Becomes drv.cadExitMode t)
        (hf : ∀ t, Becomes drv.cadExitMode t →
          Reaches (fun _ => Becomes exitMode) (fun _ => Becomes drv.cadExitMode) (f ()) t) :
        Reaches (fun _ => Becomes exitMode) (fun _ => Becomes drv.cadExitMode) (p >>= f) t :=
      hp.then ht (fun _ t ht => hf t ht) fun _ _ ht => ht
    have hbecomes : Becomes drv.cadExitMode (drv, sent) := ⟨hdrv, rfl⟩
    rw [Reaches, startCarrierSense, Attempt.ensures_bind, Access.ensures_test, DrvCtx.scanning,
      decide_eq_false hdrv.1]
    refine ⟨trivial, ?_⟩
    rw [if_neg Bool.false_ne_true, carrierSenseRadio, Attempt.ensures_bind, Access.ensures_test]
    refine ⟨trivial, hkept Access.keeps_require hbecomes fun t ht => ?_⟩
    refine hkept Access.keeps_require ht fun t ht => hkept (steady_perform rfl) ht fun t ht => ?_
    refine hkept steady_setRadioMode ht fun t ht => ?_
    refine hkept steady_clearIrqStatusAll ht fun t ht => ?_
    have hmask : Steady Q setIrqMask := steady_unscanned (steady_perform rfl)
    have hstart : Steady Q (setState .rx) := steady_setState (by decide)
    refine hkept hmask ht fun t ht => hkept (steady_perform rfl) ht fun t ht => ?_
    exact hstart.then ht (fun _ t ht => hlast t ht.1) fun _ _ ht => ht
  cases r <;> exact h.executes hrun

theorem lbtDriver_sound : (lbtDriver config).Sound DrvCtx.unscanned where
  init drv h := ⟨⟨by rw [h.1]; decide, h.2.1⟩, h.2.2⟩
  call := by
    rintro drv call ok sent drv' hdrv ⟨r, rfl, hrun⟩
    have hsame (hsteady : Steady (fun new _ => new = drv.cadExitMode) (callOf config drv call)) :
        drv'.unscanned ∧ drv'.cadExitMode = drv.cadExitMode := by
      have h := (hsteady (drv, false) ⟨hdrv, rfl⟩).executes hrun
      cases r <;> exact h
    cases call with
    | setLoraCadParams exitMode => exact effect_setLoraCadParams hdrv hrun
    | startCarrierSense exitMode => exact effect_startCarrierSense hdrv hrun
    | irqProcess irq =>
      have hsteady : Steady (Granted drv.cadExitMode) (callOf config drv (.irqProcess irq)) :=
        granted_irqProcess
      have h := (hsteady (drv, false) ⟨hdrv, .inl ⟨rfl, .inl rfl⟩⟩).executes hrun
      have hgranted : Known (Granted drv.cadExitMode) (drv', sent) := by
        cases r <;> exact h
      exact ⟨hgranted.1, hgranted.2.effect⟩
    | loraStartCad => exact hsame steady_loraStartCad
    | startRx timeout => exact hsame (steady_unscanned steady_startRxRadio)
    | startContinuousRx => exact hsame (steady_unscanned steady_startRxRadio)
    | setRxDutyCycle rxTime sleepTime => exact hsame steady_setRxDutyCycle
    | startTx timeout => exact hsame (steady_startTx fun _ _ h => h)
    | standby => exact hsame steady_standby
    | sleep => exact hsame steady_sleep
    | setModemMode mode => exact hsame steady_setModemMode

end

end Sidewalk.Radio.Lr11xx
