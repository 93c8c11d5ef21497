import Sidewalk.Radio.Lbt.Driver
import Sidewalk.Radio.Sx126x

/-!
# The exit mode of the SX126x driver

What the calls of `sx126x_radio.c` make of `cad_exit_mode`, with any results of the bus accesses.
-/

namespace Sidewalk.Radio.Sx126x

open Lib

/-- The command that starts a transmission. -/
def Command.startsTx : Command → Bool
  | .busXfer .setTx => true
  | _ => false

/-- Whether the command that starts a transmission was sent, with any result. -/
def txSent : Semantics Bool Command Bool := fun sent c _ sent' => sent' = (sent || c.startsTx)

def callOf (config : Config) : RadioCall → Op Unit
  | .setLoraCadParams exitMode => setLoraCadParams config exitMode
  | .loraStartCad => loraStartCad config
  | .startCarrierSense exitMode => startCarrierSense config exitMode
  | .startRx _ => startRx config
  | .startContinuousRx => startRx config
  | .setRxDutyCycle rxTime sleepTime => setRxDutyCycle config rxTime sleepTime
  | .startTx _ => startTx config
  | .standby => standby config
  | .sleep => sleep config
  | .setModemMode mode => setModemMode config mode
  | .irqProcess irq => irqProcess config irq

/-- The driver after `sid_pal_radio_init`. -/
def lbtDriver (config : Config) : LbtDriver DrvCtx where
  init drv := drv.radioState = .standby ∧ drv.cadExitMode ≠ .csLbt
  exitMode drv := drv.cadExitMode
  call drv call ok sent drv' := ∃ r, ok = r.isOk ∧
    Program.Executes (Access.Exec txSent) (callOf config call).run (drv, false) r (drv', sent)

abbrev Leads {α : Type} (post : α → DrvCtx × Bool → Prop)
    (failed : RadioFailure → DrvCtx × Bool → Prop) (p : Op α) (t : DrvCtx × Bool) : Prop :=
  Attempt.Ensures (Access.Exec txSent) (fun _ => True) post failed p t

/-- The attempt keeps what is known of the exit mode and the transmission. -/
abbrev Steady {α : Type} (Q : CadExitMode → Bool → Prop) (p : Op α) : Prop :=
  Attempt.Keeps (Access.Exec txSent) (fun _ => True) (fun t => Q t.1.cadExitMode t.2) p

section

variable {α : Type} {config : Config} {Q : CadExitMode → Bool → Prop}

theorem steady_test {p : DrvCtx → Bool} : Steady Q (Access.test p) :=
  Access.keeps_test fun _ _ => trivial

theorem txSent_other {sent sent' reply : Bool} {c : Command} (hc : c.startsTx = false)
    (h : txSent sent c reply sent') : sent' = sent := by
  rw [txSent, hc, Bool.or_false] at h
  exact h

theorem steady_perform {c : Command} {e : RadioFailure} (hc : c.startsTx = false) :
    Steady Q (Access.perform c e) :=
  Access.keeps_perform_frame (fun _ _ => trivial) fun _ _ _ => txSent_other hc

theorem steady_ask {c : Command} (hc : c.startsTx = false) : Steady Q (Access.ask c) :=
  Access.keeps_ask_frame (fun _ _ => trivial) fun _ _ _ => txSent_other hc

theorem steady_ignore {c : Command} (hc : c.startsTx = false) : Steady Q (Access.ignore c) :=
  Access.keeps_ignore (steady_ask hc)

theorem steady_modify {f : DrvCtx → DrvCtx} (hf : ∀ m, (f m).cadExitMode = m.cadExitMode) :
    Steady Q (Access.modify f) := by
  apply Access.keeps_modify
  intro m sent h
  rw [hf]
  exact ⟨trivial, h⟩

theorem steady_setRadioMode {rfEn txEn : Bool} : Steady Q (setRadioMode config rfEn txEn) := by
  refine (steady_ignore rfl).bind fun _ => Access.keeps_require.bind fun _ => ?_
  refine (Access.keeps_only (steady_perform rfl)).bind fun _ => ?_
  exact (Access.keeps_only (steady_perform rfl)).bind fun _ =>
    Access.keeps_only (steady_perform rfl)

theorem steady_waitForDeviceReady : Steady Q (waitForDeviceReady config) := by
  refine steady_test.bind fun _ => Attempt.Keeps.ite ?_ Attempt.keeps_pure
  exact (steady_ignore rfl).bind fun _ => steady_setRadioMode.bind fun _ => steady_perform rfl

theorem steady_chip {op : Opcode} {e : RadioFailure} (hop : Command.startsTx (.busXfer op) = false) :
    Steady Q (chip config op e) := by
  refine Attempt.Keeps.mapError (steady_waitForDeviceReady.bind fun _ => ?_) _
  exact (steady_perform rfl).bind fun _ => steady_perform hop

/-- The command that starts a transmission. -/
theorem steady_setTx {e : RadioFailure} (hQ : ∀ m sent, Q m sent → Q m true) :
    Steady Q (chip config .setTx e) := by
  refine Attempt.Keeps.mapError (steady_waitForDeviceReady.bind fun _ => ?_) _
  refine (steady_perform rfl).bind fun _ => Access.keeps_perform ?_
  intro m sent reply sent' h hdevice
  have hsent : sent' = true := by
    rw [txSent] at hdevice
    exact hdevice.trans (Bool.or_true sent)
  rw [hsent]
  exact ⟨trivial, hQ _ _ h⟩

theorem steady_wakeUp : Steady Q (wakeUp config) :=
  (steady_perform rfl).bind fun _ => Access.keeps_only (steady_perform rfl)

theorem steady_setTrim : Steady Q (setTrimCapValToRadio config) := by
  refine Access.keeps_only (steady_test.bind fun _ => ?_)
  refine (Access.keeps_only steady_wakeUp).bind fun _ => ?_
  exact (steady_chip rfl).bind fun _ => steady_chip rfl

theorem steady_sleep : Steady Q (sleep config) := by
  refine steady_test.bind fun _ => Attempt.keeps_pure.ite ?_
  refine (steady_chip rfl).bind fun _ => steady_setRadioMode.bind fun _ => ?_
  refine (Access.keeps_only (steady_perform rfl)).bind fun _ => ?_
  refine (steady_chip rfl).bind fun _ => (steady_ignore rfl).bind fun _ => ?_
  exact steady_modify fun _ => rfl

theorem steady_standby : Steady Q (standby config) := by
  refine steady_test.bind fun _ => Attempt.keeps_pure.ite (steady_test.bind fun _ => ?_)
  refine (Access.keeps_only ?_).bind fun _ => ?_
  · exact steady_wakeUp.bind fun _ => steady_test.bind fun _ =>
      Access.keeps_only (steady_modify fun _ => rfl)
  · refine (steady_chip rfl).bind fun _ => steady_setRadioMode.bind fun _ => ?_
    refine steady_test.bind fun _ => (Access.keeps_only (steady_chip rfl)).bind fun _ => ?_
    exact steady_modify fun _ => rfl

/-- The accesses that a start makes before its own command. -/
theorem steady_prepare {rfEn txEn : Bool} {p : Op Unit} (h : Steady Q p) :
    Steady Q (do
      setTrimCapValToRadio config
      setRadioMode config rfEn txEn
      clearIrqStatusAll config
      p) :=
  steady_setTrim.bind fun _ => steady_setRadioMode.bind fun _ =>
    (steady_chip rfl).bind fun _ => h

theorem steady_launch {op : Opcode} {e : RadioFailure} {state : RadioState}
    (hop : Command.startsTx (.busXfer op) = false) :
    Steady Q (do chip config op e; setState state) :=
  (steady_chip hop).bind fun _ => steady_modify fun _ => rfl

theorem steady_startTx (hQ : ∀ m sent, Q m sent → Q m true) : Steady Q (startTx config) :=
  steady_prepare ((steady_setTx hQ).bind fun _ => steady_modify fun _ => rfl)

theorem steady_startRx : Steady Q (startRx config) :=
  (steady_chip rfl).bind fun _ => steady_prepare (steady_launch rfl)

theorem steady_setRxDutyCycle {rxTime sleepTime : Nat} :
    Steady Q (setRxDutyCycle config rxTime sleepTime) :=
  Access.keeps_require.bind fun _ => steady_prepare (steady_launch rfl)

theorem steady_loraStartCad : Steady Q (loraStartCad config) := steady_prepare (steady_launch rfl)

theorem steady_setModemMode {mode : ModemMode} : Steady Q (setModemMode config mode) := by
  have hmodem : Steady Q (Access.modify fun drv => { drv with modem := mode }) :=
    steady_modify fun _ => rfl
  exact (steady_chip rfl).bind fun _ => hmodem.bind fun _ => steady_chip rfl

/-! ## Interrupts -/

theorem granted_clear {old : CadExitMode} : Steady (Granted old)
    (Access.modify fun drv => { drv with cadExitMode := .none }) :=
  Access.keeps_modify fun _ _ h => ⟨trivial, h.cleared⟩

/-- The start that the interrupt routine makes. -/
theorem granted_startTx {old : CadExitMode} (hold : old = .csLbt) {m : DrvCtx} {sent : Bool} :
    Leads
      (fun _ t => Granted old t.1.cadExitMode t.2) (fun _ _ => False)
      (Attempt.regardless (startTx config)) ({ m with cadExitMode := .none }, sent) := by
  have hstart : Steady (fun new _ => old = .csLbt ∧ new = .none) (startTx config) :=
    steady_startTx fun _ _ h => h
  rw [Leads, Attempt.ensures_regardless]
  exact (hstart _ ⟨hold, rfl⟩).mono (fun _ h => h) (fun _ _ h => .inr h) fun _ _ h => .inr h

theorem granted_timeoutEvent {old : CadExitMode} : Steady (Granted old) (timeoutEvent config) := by
  refine steady_test.bind fun _ => Attempt.keeps_pure.ite ?_
  rintro ⟨m, sent⟩ h
  rw [Attempt.ensures_bind, Access.ensures_test]
  refine ⟨trivial, ?_⟩
  by_cases hmode : m.cadExitMode = .csLbt
  · rw [decide_eq_true hmode, if_pos rfl, Attempt.ensures_bind, Access.ensures_modify]
    refine ⟨trivial, ?_⟩
    rw [Attempt.ensures_bind]
    exact (granted_startTx (hmode ▸ h : Granted old .csLbt sent).wished).mono (fun _ h => h)
      (fun _ _ h => h) fun _ _ hfalse => hfalse.elim
  · rw [decide_eq_false hmode]
    exact h

theorem granted_cadEvent {old : CadExitMode} {irq : IrqStatus} :
    Steady (Granted old) (cadEvent config irq) := by
  rintro ⟨m, sent⟩ h
  rw [cadEvent, Attempt.ensures_bind, Access.ensures_test]
  refine ⟨trivial, ?_⟩
  by_cases hmode : m.cadExitMode = .csLbt
  · have hold : old = .csLbt := (hmode ▸ h : Granted old .csLbt sent).wished
    have hstart : Steady (fun _ _ => old = .csLbt) (startTx config) :=
      steady_startTx fun _ _ h => h
    rw [decide_eq_true hmode, Attempt.ensures_bind, Access.ensures_only]
    have hclear (event : Option RadioEvent) (t : DrvCtx × Bool) :
        Leads (fun _ t => Granted old t.1.cadExitMode t.2)
          (fun _ t => Granted old t.1.cadExitMode t.2)
          (do Access.modify fun drv => { drv with cadExitMode := .none }
              pure event) t := by
      rw [Leads, Attempt.ensures_bind, Access.ensures_modify]
      exact ⟨trivial, .inr ⟨hold, rfl⟩⟩
    cases irq.cadDetected with
    | true => exact hclear _ _
    | false =>
      rw [if_pos rfl, Attempt.ensures_regardless]
      exact (hstart _ hold).mono (fun _ h => h) (fun _ t _ => hclear _ t) fun _ t _ => hclear _ t
  · rw [decide_eq_false hmode]
    exact (granted_clear.bind fun _ => Attempt.keeps_pure) _ h

theorem steady_loraProcessRxDone : Steady Q (loraProcessRxDone config) :=
  (steady_chip rfl).bind fun _ => (steady_chip rfl).bind fun _ => (steady_chip rfl).bind fun _ =>
    (steady_chip rfl).bind fun _ => steady_chip rfl

theorem steady_fskProcessRxDone : Steady Q (fskProcessRxDone config) := by
  refine (steady_ask rfl).bind fun _ => Access.keeps_require.bind fun _ => ?_
  refine (steady_chip rfl).bind fun _ => (steady_chip rfl).bind fun _ => ?_
  refine (steady_ask rfl).bind fun _ => (Access.keeps_only (steady_chip rfl)).bind fun _ => ?_
  exact (steady_ask rfl).bind fun _ => Access.keeps_require

theorem steady_fskProcessSyncWordDetected : Steady Q (fskProcessSyncWordDetected config) := by
  refine (steady_chip rfl).succeeds.bind fun _ => (steady_chip rfl).bind fun _ => ?_
  exact Access.keeps_only ((steady_chip rfl).bind fun _ => steady_chip rfl)

theorem granted_loraEvent {old : CadExitMode} {irq : IrqStatus} :
    Steady (Granted old) (loraEvent config irq) := by
  refine Attempt.keeps_pure.ite (granted_cadEvent.ite (Attempt.Keeps.ite ?_ Attempt.keeps_pure))
  exact steady_loraProcessRxDone.succeeds.bind fun _ =>
    Attempt.keeps_pure.ite Attempt.keeps_pure

theorem granted_preambleEvent {old : CadExitMode} :
    Steady (Granted old) (preambleEvent config) := by
  refine steady_test.bind fun _ => Attempt.Keeps.ite ?_ Attempt.keeps_pure
  have hrssi : Steady (Granted old) (rssi config) := steady_chip rfl
  exact hrssi.regardless.bind fun _ => granted_clear.bind fun _ =>
    steady_standby.regardless.bind fun _ => Attempt.keeps_pure

theorem granted_fskEvent {old : CadExitMode} {irq : IrqStatus} :
    Steady (Granted old) (fskEvent config irq) := by
  refine Attempt.Keeps.ite ?_ (granted_preambleEvent.ite (Attempt.Keeps.ite ?_ Attempt.keeps_pure))
  · exact steady_fskProcessSyncWordDetected.regardless.bind fun _ => Attempt.keeps_pure
  · exact steady_fskProcessRxDone.succeeds.bind fun _ => Attempt.keeps_pure.ite
      ((steady_ask rfl).bind fun _ => Attempt.keeps_pure.ite Attempt.keeps_pure)

theorem granted_irqProcess {old : CadExitMode} {irq : IrqStatus} :
    Steady (Granted old) (irqProcess config irq) := by
  have hevent : Steady (Granted old) (interruptEvent config irq) := by
    refine Attempt.keeps_pure.ite (Attempt.keeps_pure.ite ?_)
    refine granted_timeoutEvent.ite (Attempt.keeps_pure.ite ?_)
    exact steady_test.bind fun _ => granted_loraEvent.ite granted_fskEvent
  have hreport (event : Option RadioEvent) : Steady (Granted old) (reportEvent event) := by
    cases event with
    | none => exact Attempt.keeps_pure
    | some event => exact steady_ignore rfl
  have hread : Steady (Granted old) (getAndClearIrqStatus config) :=
    (steady_chip rfl).bind fun _ => (steady_ask rfl).bind fun _ =>
      Access.keeps_only (steady_chip rfl)
  have hdio : Steady (Granted old) (chip config .setDioIrqParams .ioError) := steady_chip rfl
  refine hdio.succeeds.bind fun _ => (Access.keeps_only ?_).bind fun _ => ?_
  · exact hread.succeeds.bind fun _ => Access.keeps_only (hevent.bind hreport)
  · exact steady_test.bind fun _ => Attempt.keeps_pure.ite hdio.regardless

/-! ## The driver -/

theorem effect_setLoraCadParams {exitMode : CadExitMode} {drv : DrvCtx} {sent : Bool} {r t}
    (hrun : Program.Executes (Access.Exec txSent) (setLoraCadParams config exitMode).run
      (drv, sent) r t) :
    t.1.cadExitMode = if exitMode.lora then exitMode else drv.cadExitMode := by
  have h : Leads
      (fun _ t => t.1.cadExitMode = if exitMode.lora then exitMode else drv.cadExitMode)
      (fun _ t => t.1.cadExitMode = if exitMode.lora then exitMode else drv.cadExitMode)
      (setLoraCadParams config exitMode) (drv, sent) := by
    rw [Leads, setLoraCadParams, Attempt.ensures_bind, Access.ensures_require]
    cases exitMode.lora with
    | false => rfl
    | true =>
      rw [if_pos rfl, Attempt.ensures_bind, Access.ensures_modify]
      have hparams : Steady (fun new _ => new = exitMode)
          (chip config .setCadParams .hardwareError) := steady_chip rfl
      exact ⟨trivial, hparams ({ drv with cadExitMode := exitMode }, sent) rfl⟩
  cases r <;> exact h.executes hrun

theorem effect_startCarrierSense {exitMode : CadExitMode} {drv : DrvCtx} {sent : Bool} {r t}
    (hrun : Program.Executes (Access.Exec txSent) (startCarrierSense config exitMode).run
      (drv, sent) r t) :
    t.1.cadExitMode = if r.isOk then exitMode else drv.cadExitMode := by
  have h : Leads
      (fun _ t => t.1.cadExitMode = exitMode) (fun _ t => t.1.cadExitMode = drv.cadExitMode)
      (startCarrierSense config exitMode) (drv, sent) := by
    have hstate : (drv, sent).1.cadExitMode = drv.cadExitMode := rfl
    have hlast (t : DrvCtx × Bool) : Leads
        (fun _ t => t.1.cadExitMode = exitMode) (fun _ t => t.1.cadExitMode = drv.cadExitMode)
        (Access.modify fun drv => { drv with cadExitMode := exitMode }) t := by
      rw [Leads, Access.ensures_modify]
      exact ⟨trivial, rfl⟩
    let Q : CadExitMode → Bool → Prop := fun new _ => new = drv.cadExitMode
    have hkept {p : Op Unit} {f : Unit → Op Unit} (hp : Steady Q p)
        {t : DrvCtx × Bool} (ht : t.1.cadExitMode = drv.cadExitMode)
        (hf : ∀ t : DrvCtx × Bool, t.1.cadExitMode = drv.cadExitMode →
          Leads
            (fun _ t => t.1.cadExitMode = exitMode)
            (fun _ t => t.1.cadExitMode = drv.cadExitMode) (f ()) t) :
        Leads
          (fun _ t => t.1.cadExitMode = exitMode) (fun _ t => t.1.cadExitMode = drv.cadExitMode)
          (p >>= f) t :=
      hp.then ht (fun _ t ht => hf t ht) fun _ _ ht => ht
    rw [Leads, startCarrierSense, Attempt.ensures_bind, Access.ensures_test]
    refine ⟨trivial, hkept Access.keeps_require hstate fun t ht => ?_⟩
    refine hkept Access.keeps_require ht fun t ht => ?_
    refine hkept (steady_chip rfl) ht fun t ht => hkept steady_setTrim ht fun t ht => ?_
    refine hkept steady_setRadioMode ht fun t ht => hkept (steady_chip rfl) ht fun t ht => ?_
    refine hkept (steady_chip rfl) ht fun t ht => hkept (steady_chip rfl) ht fun t ht => ?_
    have hstart : Steady Q (setState .rx) := steady_modify fun _ => rfl
    exact hstart.then ht (fun _ t _ => hlast t) fun _ _ ht => ht
  cases r <;> exact h.executes hrun

theorem lbtDriver_sound : (lbtDriver config).Sound fun _ => True where
  init drv h := ⟨trivial, h.2⟩
  call := by
    rintro drv call ok sent drv' - ⟨r, rfl, hrun⟩
    refine ⟨trivial, ?_⟩
    have hsame (hsteady : Steady (fun new _ => new = drv.cadExitMode) (callOf config call)) :
        drv'.cadExitMode = drv.cadExitMode := by
      have h := (hsteady (drv, false) rfl).executes hrun
      cases r <;> exact h
    cases call with
    | setLoraCadParams exitMode => exact effect_setLoraCadParams hrun
    | startCarrierSense exitMode => exact effect_startCarrierSense hrun
    | irqProcess irq =>
      have hsteady : Steady (Granted drv.cadExitMode) (callOf config (.irqProcess irq)) :=
        granted_irqProcess
      have h := (hsteady (drv, false) (.inl ⟨rfl, .inl rfl⟩)).executes hrun
      have hgranted : Granted drv.cadExitMode drv'.cadExitMode sent := by
        cases r <;> exact h
      exact hgranted.effect
    | loraStartCad => exact hsame steady_loraStartCad
    | startRx timeout => exact hsame steady_startRx
    | startContinuousRx => exact hsame steady_startRx
    | setRxDutyCycle rxTime sleepTime => exact hsame steady_setRxDutyCycle
    | startTx timeout => exact hsame (steady_startTx fun _ _ h => h)
    | standby => exact hsame steady_standby
    | sleep => exact hsame steady_sleep
    | setModemMode mode => exact hsame steady_setModemMode

end

end Sidewalk.Radio.Sx126x
