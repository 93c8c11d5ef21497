import Mathlib
import Sidewalk.Lib.System
import Sidewalk.Radio.Sx126x

/-!
# The state of the SX126x driver and its hardware

An access that is made in the states SLEEP and RX_DC wakes the chip and moves the RF switch to
`(true, true)`. The driver does not move it back, so the switch stands where the state says only
where such accesses are not made.
-/

namespace Sidewalk.Radio.Sx126x

open Lib

/-! ## The hardware -/

/-- Whether the chip is asleep, and the last `(rf_en, tx_en)` given to
`radio_sx126x_set_radio_mode`. -/
structure Hardware where
  asleep : Bool
  switch : Bool × Bool

def Command.effect : Command → Hardware → Hardware
  | .wakeup, hw => { hw with asleep := false }
  | .busXfer .setSleep, hw => { hw with asleep := true }
  | .radioMode rfEn txEn, hw => { hw with switch := (rfEn, txEn) }
  | _, hw => hw

/-- The commands whose reply is read from the chip and says nothing of success. -/
def Command.asks : Command → Bool
  | .irqPending | .headerGood | .checksumTaken | .frameGood | .rxErrorReported => true
  | _ => false

/-- All accesses succeed. -/
def allSucceed : Semantics Hardware Command Bool := fun hw c reply hw' =>
  (c.asks = false → reply = true) ∧ hw' = c.effect hw

inductive HardwareCall
  | standby
  | sleep
  | startTx (timeout : Nat)
  | startRx (timeout : Nat)
  | startContinuousRx
  | setRxDutyCycle (rxTime sleepTime : Nat)
  | startCarrierSense (exitMode : CadExitMode)
  | loraStartCad
  | rssi
  | setTxPayload (size : Option Nat)
  | irqProcess (irq : IrqStatus)

def HardwareCall.op (config : Config) : HardwareCall → Op Unit
  | .standby => Sx126x.standby config
  | .sleep => Sx126x.sleep config
  | .startTx _ => Sx126x.startTx config
  | .startRx _ => Sx126x.startRx config
  | .startContinuousRx => Sx126x.startRx config
  | .setRxDutyCycle rxTime sleepTime => Sx126x.setRxDutyCycle config rxTime sleepTime
  | .startCarrierSense exitMode => Sx126x.startCarrierSense config exitMode
  | .loraStartCad => Sx126x.loraStartCad config
  | .rssi => Sx126x.rssi config
  | .setTxPayload size => Sx126x.setTxPayload config size
  | .irqProcess irq => Sx126x.irqProcess config irq

/-- The driver and the hardware after `sid_pal_radio_init`, call by call. -/
def board (config : Config) : System (DrvCtx × Hardware) HardwareCall where
  init s := s.1.radioState = .standby ∧ s.2 = ⟨false, (false, false)⟩
  step s call t := ∃ r, Program.Executes (Access.Exec allSucceed) (call.op config).run s r t

/-! ## The property -/

/-- Where the RF switch stands in a state. -/
def rfSwitch : RadioState → Option (Bool × Bool)
  | .sleep | .standby => some (false, false)
  | .tx => some (true, true)
  | .rx | .rxDc | .cad => some (true, false)
  | _ => none

/-- The hardware is as the radio state says. -/
structure Agrees (s : DrvCtx × Hardware) : Prop where
  asleep : s.1.radioState = .sleep → s.2.asleep = true
  switch : ∀ p ∈ rfSwitch s.1.radioState, s.2.switch = p

/-- `sid_pal_radio_irq_process` starts a transmission. -/
def DrvCtx.transmits (drv : DrvCtx) (irq : IrqStatus) : Bool :=
  drv.cadExitMode = .csLbt && !irq.txDone && !irq.crcError &&
    if irq.timeout then drv.radioState ≠ .tx
    else !irq.headerError && drv.modem = .lora && !irq.syncWordValid && irq.cadDone &&
      !irq.cadDetected

/-- `sid_pal_radio_irq_process` ends a carrier sense and goes to standby. -/
def DrvCtx.standsBy (drv : DrvCtx) (irq : IrqStatus) : Bool :=
  drv.cadExitMode = .csLbt && !irq.txDone && !irq.crcError && !irq.timeout &&
    !irq.headerError && drv.modem ≠ .lora && !irq.syncWordValid && irq.preambleDetected

/-- In the states SLEEP and RX_DC only those calls are made that make no access before they set
the state or the switch: no call from RX_DC but a start of a transmission, and from SLEEP also
standby and sleep. A call that is refused for its arguments may be made in any state. -/
def Undisturbed (s : DrvCtx × Hardware) : HardwareCall → Prop
  | .startTx _ => True
  | .standby | .sleep => s.1.radioState ≠ .rxDc
  | .setRxDutyCycle rxTime sleepTime => s.1.dozing = true → rxTime = 0 ∨ sleepTime = 0
  | .startCarrierSense exitMode =>
    s.1.dozing = true → s.1.modem ≠ .fsk ∨ exitMode.valid = false
  | .setTxPayload size => s.1.dozing = true → size.any (· ≠ 0) = false
  | .irqProcess irq => s.1.dozing = true → s.1.transmits irq = true ∨
      (s.1.radioState = .sleep ∧ s.1.standsBy irq = true)
  | _ => s.1.dozing = false

/-! ## Accesses -/

/-- The attempt ends well, and with this condition. -/
abbrev Ends {α : Type} (post : DrvCtx × Hardware → Prop) (p : Op α) (t : DrvCtx × Hardware) :
    Prop :=
  Attempt.Ensures (Access.Exec allSucceed) (fun _ => True) (fun _ => post) (fun _ _ => False) p t

/-- The attempt ends, well or not, with this condition. -/
abbrev Leaves {α : Type} (post : DrvCtx × Hardware → Prop) (p : Op α) (t : DrvCtx × Hardware) :
    Prop :=
  Attempt.Ensures (Access.Exec allSucceed) (fun _ => True) (fun _ => post) (fun _ => post) p t

/-- The state of the driver and of the switch. -/
def At (m : DrvCtx) (switch : Bool × Bool) (t : DrvCtx × Hardware) : Prop :=
  t.1 = m ∧ t.2.switch = switch

section

variable {α β : Type} {config : Config} {m : DrvCtx} {switch : Bool × Bool}
  {t : DrvCtx × Hardware} {mid post : DrvCtx × Hardware → Prop}

theorem Ends.bind {p : Op α} {f : α → Op β} (h : Ends mid p t)
    (hf : ∀ a u, mid u → Ends post (f a) u) : Ends post (p >>= f) t := by
  rw [Ends, Attempt.ensures_bind]
  exact h.mono (fun _ h => h) hf fun _ _ h => h

theorem Ends.leaves {p : Op α} (h : Ends post p t) : Leaves post p t :=
  h.mono (fun _ h => h) (fun _ _ h => h) fun _ _ h => h.elim

theorem Ends.mono {post' : DrvCtx × Hardware → Prop} {p : Op α} (hpost : ∀ u, post u → post' u)
    (h : Ends post p t) : Ends post' p t :=
  Attempt.Ensures.mono (fun _ h => h) (fun _ u hu => hpost u hu) (fun _ _ h => h) h

theorem ends_perform {c : Command} {e : RadioFailure} (hc : c.asks = false)
    (h : post (t.1, c.effect t.2)) : Ends post (Access.perform c e) t := by
  rw [Ends, Access.ensures_perform]
  rintro reply hw ⟨hreply, rfl⟩
  rw [hreply hc]
  exact ⟨trivial, h⟩

theorem ends_ignore {c : Command} (h : post (t.1, c.effect t.2)) :
    Ends post (Access.ignore c) t := by
  rw [Ends, Access.ensures_ignore]
  rintro reply hw ⟨-, rfl⟩
  exact ⟨trivial, h⟩

theorem ends_only {b : Bool} {p : Op Unit} (hp : b = true → Ends post p t)
    (hnot : b = false → post t) : Ends post (Access.only b p) t := by
  cases b with
  | true => exact hp rfl
  | false => exact hnot rfl

theorem ends_test {q : DrvCtx → Bool} {f : Bool → Op α} (h : Ends post (f (q t.1)) t) :
    Ends post (Access.test q >>= f) t := by
  rw [Ends, Attempt.ensures_bind, Access.ensures_test]
  exact ⟨trivial, h⟩

theorem ends_modify {f : DrvCtx → DrvCtx} (h : post (f t.1, t.2)) :
    Ends post (Access.modify f) t := by
  rw [Ends, Access.ensures_modify]
  exact ⟨trivial, h⟩

theorem at_setRadioMode {rfEn txEn : Bool} (hvalid : (!(!rfEn && txEn)) = true) (ht : t.1 = m) :
    Ends (At m (rfEn, txEn)) (setRadioMode config rfEn txEn) t := by
  have hmode : Ends (At m (rfEn, txEn)) (Access.ignore (.radioMode rfEn txEn)) t :=
    ends_ignore ⟨ht, rfl⟩
  have hpin {b : Bool} {c : Command} {e : RadioFailure} (hc : c.asks = false)
      (heffect : ∀ hw, c.effect hw = hw) {u} (hu : At m (rfEn, txEn) u) :
      Ends (At m (rfEn, txEn)) (Access.only b (Access.perform c e)) u :=
    ends_only (fun _ => ends_perform hc (by rw [heffect]; exact hu)) fun _ => hu
  refine hmode.bind fun _ u hu => ?_
  rw [hvalid]
  refine Ends.bind (show Ends (At m (rfEn, txEn)) _ u from hu) fun _ u hu => ?_
  refine (hpin rfl (fun _ => rfl) hu).bind fun _ u hu => ?_
  exact (hpin rfl (fun _ => rfl) hu).bind fun _ u hu => hpin rfl (fun _ => rfl) hu

theorem ends_halRdwr {op : Opcode} (h : post (t.1, (Command.busXfer op).effect t.2)) :
    Ends post (halRdwr op) t := by
  have hbusy : Ends (fun u => u = t) (Access.perform .waitOnBusy .hardwareError) t :=
    ends_perform rfl rfl
  refine hbusy.bind fun _ u hu => ends_perform rfl ?_
  rw [hu]
  exact h

theorem ends_mapError {p : Op α} {e : RadioFailure} (h : Ends post p t) :
    Ends post (Attempt.mapError (fun _ => e) p) t := by
  rw [Ends, Attempt.ensures_mapError]
  exact h

/-- An access in a state that does not wake the chip. -/
theorem ends_chip {op : Opcode} {e : RadioFailure} (hawake : t.1.dozing = false)
    (h : post (t.1, (Command.busXfer op).effect t.2)) : Ends post (chip config op e) t := by
  refine ends_mapError ?_
  have hready : Ends (fun u => u = t) (waitForDeviceReady config) t := by
    refine ends_test ?_
    rw [hawake]
    exact rfl
  refine hready.bind fun _ u hu => ends_halRdwr ?_
  rw [hu]
  exact h

theorem switch_busXfer {op : Opcode} {hw : Hardware} :
    ((Command.busXfer op).effect hw).switch = hw.switch := by
  cases op <;> rfl

theorem at_chip {op : Opcode} {e : RadioFailure} (hawake : m.dozing = false)
    (ht : At m switch t) : Ends (At m switch) (chip config op e) t := by
  refine ends_chip (ht.1 ▸ hawake) ⟨ht.1, ?_⟩
  rw [switch_busXfer]
  exact ht.2

/-- An access in a state that wakes the chip leaves the switch at `(true, true)`. -/
theorem at_chip_dozing {op : Opcode} {e : RadioFailure} (hdozing : m.dozing = true)
    (ht : t.1 = m) : Ends (At m (true, true)) (chip config op e) t := by
  refine ends_mapError ?_
  have hready : Ends (At m (true, true)) (waitForDeviceReady config) t := by
    refine ends_test ?_
    rw [ht, hdozing]
    have hwakeup : Ends (fun u => u.1 = m) (Access.ignore .wakeup) t := ends_ignore ht
    refine hwakeup.bind fun _ u hu => ?_
    exact (at_setRadioMode rfl hu).bind fun _ u hu => ends_perform rfl hu
  refine hready.bind fun _ u hu => ends_halRdwr ⟨hu.1, ?_⟩
  rw [switch_busXfer]
  exact hu.2

/-- An access keeps the driver, in any state. -/
theorem held_chip {op : Opcode} {e : RadioFailure} (ht : t.1 = m) :
    Ends (fun u => u.1 = m) (chip config op e) t := by
  cases hdozing : m.dozing with
  | true => exact (at_chip_dozing hdozing ht).mono fun _ hu => hu.1
  | false => exact (at_chip hdozing ⟨ht, rfl⟩).mono fun _ hu => hu.1

theorem at_chip_tx {op : Opcode} {e : RadioFailure} (ht : At m (true, true) t) :
    Ends (At m (true, true)) (chip config op e) t := by
  cases hdozing : m.dozing with
  | true => exact at_chip_dozing hdozing ht.1
  | false => exact at_chip hdozing ht

theorem ends_wakeUp (h : ∀ hw, hw.switch = t.2.switch → post (t.1, hw)) :
    Ends post (wakeUp config) t := by
  have hwakeup : Ends (fun u => u.1 = t.1 ∧ u.2.switch = t.2.switch)
      (Access.perform .wakeup .hardwareError) t := ends_perform rfl ⟨rfl, rfl⟩
  refine hwakeup.bind fun _ u hu => ?_
  have hpost : post u := by
    obtain ⟨m, hw⟩ := u
    obtain ⟨rfl, hswitch⟩ := hu
    exact h hw hswitch
  exact ends_only (fun _ => ends_perform rfl hpost) fun _ => hpost

theorem at_setTrim (hawake : m.dozing = false) (ht : At m switch t) :
    Ends (At m switch) (setTrimCapValToRadio config) t := by
  refine ends_only (fun _ => ends_test ?_) fun _ => ht
  have hwake (b : Bool) : Ends (At m switch) (Access.only b (wakeUp config)) t :=
    ends_only (fun _ => ends_wakeUp fun hw hhw => ⟨ht.1, hhw.trans ht.2⟩) fun _ => ht
  exact (hwake _).bind fun _ u hu => (at_chip hawake hu).bind fun _ u hu => at_chip hawake hu

theorem held_setTrim (ht : t.1 = m) :
    Ends (fun u => u.1 = m) (setTrimCapValToRadio config) t := by
  refine ends_only (fun _ => ends_test ?_) fun _ => ht
  have hwake (b : Bool) : Ends (fun u => u.1 = m) (Access.only b (wakeUp config)) t :=
    ends_only (fun _ => ends_wakeUp fun _ _ => ht) fun _ => ht
  exact (hwake _).bind fun _ u hu => (held_chip hu).bind fun _ u hu => held_chip hu

/-! ## Stops and starts -/

/-- A start of a transmission, from any state. -/
theorem at_startTx : Ends (At { t.1 with radioState := .tx } (true, true)) (startTx config) t := by
  refine (held_setTrim rfl).bind fun _ u hu => (at_setRadioMode rfl hu).bind fun _ u hu => ?_
  refine (at_chip_tx hu).bind fun _ u hu => (at_chip_tx hu).bind fun _ u hu => ends_modify ?_
  exact ⟨by rw [hu.1], hu.2⟩

/-- The accesses that a start makes before its own command. -/
theorem at_prepare {p : Op Unit} (hawake : m.dozing = false) (ht : t.1 = m)
    (hp : ∀ u, At m (true, false) u → Ends post p u) :
    Ends post (do
      setTrimCapValToRadio config
      setRadioMode config true false
      clearIrqStatusAll config
      p) t := by
  refine (at_setTrim hawake ⟨ht, rfl⟩).bind fun _ u hu => ?_
  refine (at_setRadioMode rfl hu.1).bind fun _ u hu => ?_
  exact (at_chip hawake hu).bind fun _ u hu => hp u hu

theorem at_launch {op : Opcode} {e : RadioFailure} {state : RadioState}
    (hawake : m.dozing = false) (ht : At m switch t) :
    Ends (At { m with radioState := state } switch) (do chip config op e; setState state) t :=
  (at_chip hawake ht).bind fun _ _ hu => ends_modify ⟨by rw [hu.1], hu.2⟩

theorem at_startRx (hawake : m.dozing = false) (ht : t.1 = m) :
    Ends (At { m with radioState := .rx } (true, false)) (startRx config) t :=
  (at_chip hawake ⟨ht, rfl⟩).bind fun _ _ hu =>
    at_prepare hawake hu.1 fun _ hu => at_launch hawake hu

theorem at_loraStartCad (hawake : m.dozing = false) (ht : t.1 = m) :
    Ends (At { m with radioState := .cad } (true, false)) (loraStartCad config) t :=
  at_prepare hawake ht fun _ hu => at_launch hawake hu

/-- The radio is asleep with the switch off. -/
theorem ends_sleep (hawake : t.1.dozing = false) :
    Ends (fun u => At { t.1 with radioState := .sleep } (false, false) u ∧ u.2.asleep = true)
      (sleep config) t := by
  have hstate : t.1.radioState ≠ .sleep := by
    intro hsleep
    rw [DrvCtx.dozing, hsleep] at hawake
    contradiction
  refine ends_test ?_
  rw [decide_eq_false hstate]
  refine (at_chip hawake ⟨rfl, rfl⟩).bind fun _ u hu => ?_
  refine (at_setRadioMode rfl hu.1).bind fun _ u hu => ?_
  have hdio (b : Bool) : Ends (At t.1 (false, false))
      (Access.only b (Access.perform (.dio3Callback 1) .hardwareError)) u :=
    ends_only (fun _ => ends_perform rfl hu) fun _ => hu
  refine (hdio _).bind fun _ u hu => ?_
  have hsleep : Ends (fun u => At t.1 (false, false) u ∧ u.2.asleep = true)
      (chip config .setSleep .hardwareError) u := by
    refine ends_chip ?_ ⟨hu, rfl⟩
    rw [hu.1]
    exact hawake
  refine hsleep.bind fun _ u hu => ?_
  have hgpio : Ends (fun u => At t.1 (false, false) u ∧ u.2.asleep = true)
      (Access.ignore .setGpioCfgSleep) u := ends_ignore hu
  refine hgpio.bind fun _ u hu => ends_modify ⟨⟨?_, hu.1.2⟩, hu.2⟩
  rw [hu.1.1]

/-- What standby does once the radio is not asleep. -/
theorem at_settle {p : Op Unit} (hawake : m.dozing = false) (ht : t.1 = m)
    (hp : ∀ u, At m (false, false) u → Ends post p u) :
    Ends post (do
      clearIrqStatusAll config
      setRadioMode config false false
      p) t := by
  refine (at_chip hawake ⟨ht, rfl⟩).bind fun _ u hu => ?_
  exact (at_setRadioMode rfl hu.1).bind fun _ u hu => hp u hu

/-- The radio goes to standby, with the switch off, from any state but RX_DC. -/
theorem at_standby (hstate : t.1.radioState ≠ .standby) (hdc : t.1.radioState ≠ .rxDc) :
    Ends (At { t.1 with radioState := .standby } (false, false)) (standby config) t := by
  refine ends_test ?_
  rw [decide_eq_false hstate]
  refine ends_test ?_
  by_cases hsleep : t.1.radioState = .sleep
  · have hleave : Ends (fun u => u.1 = { t.1 with radioState := .standby })
        (Access.only (decide (t.1.radioState = .sleep) || decide (t.1.radioState = .unknown))
          (leaveSleep config)) t := by
      refine ends_only (fun _ => ?_) fun hnot => ?_
      · have hwake : Ends (fun u => u.1 = t.1) (wakeUp config) t := ends_wakeUp fun _ _ => rfl
        refine hwake.bind fun _ u hu => ends_test ?_
        rw [hu]
        refine ends_only (fun _ => ends_modify ?_) fun hnot => ?_
        · rw [hu]
        · exact absurd hsleep (of_decide_eq_false hnot)
      · rw [decide_eq_true hsleep] at hnot
        contradiction
    refine hleave.bind fun _ u hu => at_settle rfl hu fun u hu => ends_test ?_
    rw [hu.1]
    refine Ends.bind (ends_only (fun hnot => ?_) fun _ => hu) fun _ u hu => ends_modify ?_
    · contradiction
    · exact ⟨by rw [hu.1], hu.2⟩
  · have hawake : t.1.dozing = false := by
      rw [DrvCtx.dozing, decide_eq_false hsleep, decide_eq_false hdc]
      rfl
    have hleave (b : Bool) (hb : b = true → t.1.radioState ≠ .sleep) :
        Ends (fun u => u.1 = t.1) (Access.only b (leaveSleep config)) t := by
      refine ends_only (fun htrue => ?_) fun _ => rfl
      have hwake : Ends (fun u => u.1 = t.1) (wakeUp config) t := ends_wakeUp fun _ _ => rfl
      refine hwake.bind fun _ u hu => ends_test ?_
      rw [hu, decide_eq_false (hb htrue)]
      exact hu
    refine (hleave _ fun _ => hsleep).bind fun _ u hu => ?_
    refine at_settle hawake hu fun u hu => ends_test ?_
    have hchip (b : Bool) : Ends (At t.1 (false, false))
        (Access.only b (chip config .setStandby .hardwareError)) u :=
      ends_only (fun _ => at_chip hawake hu) fun _ => hu
    refine (hchip _).bind fun _ u hu => ends_modify ⟨?_, hu.2⟩
    rw [hu.1]

/-! ## Interrupts -/

/-- The switch stands where the state says, and accesses do not move it. -/
structure Awake (s : DrvCtx × Hardware) : Prop where
  dozing : s.1.dozing = false
  switch : ∀ p ∈ rfSwitch s.1.radioState, s.2.switch = p

theorem switch_at {state : RadioState} (hstate : rfSwitch state = some switch)
    (ht : At { m with radioState := state } switch t) :
    ∀ p ∈ rfSwitch t.1.radioState, t.2.switch = p := by
  intro p hp
  rw [ht.1] at hp
  rw [ht.2]
  exact Option.some.inj (hstate.symm.trans hp)

theorem awake_at {state : RadioState} (hstate : rfSwitch state = some switch)
    (hdozing : DrvCtx.dozing { m with radioState := state } = false)
    (ht : At { m with radioState := state } switch t) : Awake t :=
  ⟨ht.1 ▸ hdozing, switch_at hstate ht⟩

theorem agrees_at {state : RadioState} (hstate : rfSwitch state = some switch)
    (hsleep : state ≠ .sleep) (ht : At { m with radioState := state } switch t) : Agrees t := by
  refine ⟨fun hasleep => ?_, switch_at hstate ht⟩
  rw [ht.1] at hasleep
  exact absurd hasleep hsleep

theorem Awake.agrees (h : Awake t) : Agrees t := by
  refine ⟨fun hsleep => ?_, h.switch⟩
  have hdozing := h.dozing
  rw [DrvCtx.dozing, hsleep] at hdozing
  contradiction

theorem Agrees.awake (h : Agrees t) (hdozing : t.1.dozing = false) : Awake t := ⟨hdozing, h.switch⟩

abbrev StaysAwake (p : Op α) : Prop :=
  Attempt.Keeps (Access.Exec allSucceed) (fun _ => True) Awake p

theorem awake_chip {op : Opcode} {e : RadioFailure} {t : DrvCtx × Hardware} (h : Awake t) :
    Ends Awake (chip config op e) t := by
  have hchip : Ends (At t.1 t.2.switch) (chip config op e) t := at_chip h.dozing ⟨rfl, rfl⟩
  refine hchip.mono fun u hu => ⟨?_, ?_⟩
  · rw [hu.1]
    exact h.dozing
  · rw [hu.1, hu.2]
    exact h.switch

theorem stays_chip {op : Opcode} {e : RadioFailure} : StaysAwake (chip config op e) :=
  fun _ h => (awake_chip h).leaves

theorem stays_ask {c : Command} (hc : ∀ hw, c.effect hw = hw) : StaysAwake (Access.ask c) :=
  Access.keeps_ask_frame (fun _ _ => trivial) fun hw _ _ h => h.2.trans (hc hw)

theorem stays_test {q : DrvCtx → Bool} : StaysAwake (Access.test q) :=
  Access.keeps_test fun _ _ => trivial

theorem stays_clear : StaysAwake (Access.modify fun drv => { drv with cadExitMode := .none }) :=
  Access.keeps_modify fun _ _ h => ⟨trivial, h.dozing, h.switch⟩

theorem awake_startTx {t : DrvCtx × Hardware} : Ends Awake (startTx config) t :=
  at_startTx.mono fun _ hu => awake_at rfl rfl hu

theorem stays_startTx : StaysAwake (startTx config) := fun _ _ => awake_startTx.leaves

theorem stays_standby : StaysAwake (standby config) := by
  intro t h
  by_cases hstate : t.1.radioState = .standby
  · have hnothing : Ends Awake (standby config) t := by
      refine ends_test ?_
      rw [decide_eq_true hstate]
      exact h
    exact hnothing.leaves
  · have hdc : t.1.radioState ≠ .rxDc := by
      intro hdc
      have hdozing := h.dozing
      rw [DrvCtx.dozing, hdc] at hdozing
      contradiction
    exact ((at_standby hstate hdc).mono fun _ hu => awake_at rfl rfl hu).leaves

theorem stays_loraProcessRxDone : StaysAwake (loraProcessRxDone config) :=
  stays_chip.bind fun _ => stays_chip.bind fun _ => stays_chip.bind fun _ =>
    stays_chip.bind fun _ => stays_chip

theorem stays_fskProcessRxDone : StaysAwake (fskProcessRxDone config) := by
  refine (stays_ask fun _ => rfl).bind fun _ => Access.keeps_require.bind fun _ => ?_
  refine stays_chip.bind fun _ => stays_chip.bind fun _ => (stays_ask fun _ => rfl).bind fun _ => ?_
  refine (Access.keeps_only stays_chip).bind fun _ => ?_
  exact (stays_ask fun _ => rfl).bind fun _ => Access.keeps_require

theorem stays_fskProcessSyncWordDetected : StaysAwake (fskProcessSyncWordDetected config) := by
  refine stays_chip.succeeds.bind fun _ => stays_chip.bind fun _ => ?_
  exact Access.keeps_only (stays_chip.bind fun _ => stays_chip)

theorem stays_interruptEvent {irq : IrqStatus} : StaysAwake (interruptEvent config irq) := by
  have htimeout : StaysAwake (timeoutEvent config) := by
    refine stays_test.bind fun _ => Attempt.keeps_pure.ite (stays_test.bind fun _ => ?_)
    refine Attempt.Keeps.ite (stays_clear.bind fun _ => ?_) Attempt.keeps_pure
    exact stays_startTx.regardless.bind fun _ => Attempt.keeps_pure
  have hcad : StaysAwake (cadEvent config irq) := by
    refine stays_test.bind fun _ => (Access.keeps_only stays_startTx.regardless).bind fun _ => ?_
    exact stays_clear.bind fun _ => Attempt.keeps_pure
  have hlora : StaysAwake (loraEvent config irq) := by
    refine Attempt.keeps_pure.ite (hcad.ite (Attempt.Keeps.ite ?_ Attempt.keeps_pure))
    exact stays_loraProcessRxDone.succeeds.bind fun _ =>
      Attempt.keeps_pure.ite Attempt.keeps_pure
  have hpreamble : StaysAwake (preambleEvent config) := by
    refine stays_test.bind fun _ => Attempt.Keeps.ite ?_ Attempt.keeps_pure
    have hrssi : StaysAwake (rssi config) := stays_chip
    exact hrssi.regardless.bind fun _ => stays_clear.bind fun _ =>
      stays_standby.regardless.bind fun _ => Attempt.keeps_pure
  have hrxDone : StaysAwake (rxDoneEvent config) := by
    refine stays_fskProcessRxDone.succeeds.bind fun _ => Attempt.keeps_pure.ite ?_
    exact (stays_ask fun _ => rfl).bind fun _ => Attempt.keeps_pure.ite Attempt.keeps_pure
  have hfsk : StaysAwake (fskEvent config irq) :=
    Attempt.Keeps.ite (stays_fskProcessSyncWordDetected.regardless.bind fun _ => Attempt.keeps_pure)
      (hpreamble.ite (hrxDone.ite Attempt.keeps_pure))
  refine Attempt.keeps_pure.ite (Attempt.keeps_pure.ite (htimeout.ite ?_))
  exact Attempt.keeps_pure.ite (stays_test.bind fun _ => hlora.ite hfsk)

/-- The interrupt routine in a state in which the accesses before the event keep a condition, and
the handling of the event leaves the radio awake. -/
theorem awake_irqProcess {irq : IrqStatus} {P : DrvCtx × Hardware → Prop}
    (hchip : ∀ {op e u}, P u → Ends P (chip config op e) u)
    (hevent : ∀ u, P u → Leaves Awake (interruptEvent config irq) u) (ht : P t) :
    Leaves Awake (irqProcess config irq) t := by
  have hsucceeds {p : Op Unit} {f : Bool → Op Unit} {u : DrvCtx × Hardware} (hp : Ends P p u)
      (hf : ∀ u, P u → Leaves Awake (f true) u) :
      Leaves Awake (Attempt.succeeds p >>= f) u := by
    rw [Leaves, Attempt.ensures_bind, Attempt.ensures_succeeds]
    exact Attempt.Ensures.mono (fun _ h => h) (fun _ u hu => hf u hu) (fun _ _ h => h.elim) hp
  have hreport (event : Option RadioEvent) : StaysAwake (reportEvent event) := by
    cases event with
    | none => exact Attempt.keeps_pure
    | some event => exact Access.keeps_ignore (stays_ask fun _ => rfl)
  have hread {u} (hu : P u) : Ends P (getAndClearIrqStatus config) u := by
    refine (hchip hu).bind fun _ u hu => ?_
    rw [Ends, Attempt.ensures_bind, Access.ensures_ask]
    rintro reply hw ⟨-, rfl⟩
    exact ⟨trivial, ends_only (fun _ => hchip hu) fun _ => hu⟩
  have hlast : StaysAwake (do
      if ← Access.test (·.radioState = .sleep) then pure ()
      else Attempt.regardless (chip config .setDioIrqParams .ioError)) :=
    stays_test.bind fun _ => Attempt.keeps_pure.ite stays_chip.regardless
  have hserve {u} (hu : P u) : Leaves Awake (do
      Access.only (← Attempt.succeeds (getAndClearIrqStatus config)) do
        reportEvent (← interruptEvent config irq)) u := by
    refine hsucceeds (hread hu) fun u hu => ?_
    rw [Leaves, Access.ensures_only, if_pos rfl, Attempt.ensures_bind]
    exact (hevent u hu).mono (fun _ h => h) (fun event u hu => hreport event u hu) fun _ _ h => h
  refine hsucceeds (hchip ht) fun u hu => ?_
  rw [Leaves, Attempt.ensures_bind, Access.ensures_only, if_pos rfl]
  exact (hserve hu).mono (fun _ h => h) (fun _ u hu => hlast u hu) fun _ _ h => h

theorem ends_regardless {p : Op Unit} (h : Ends post p t) :
    Ends post (Attempt.regardless p) t := by
  rw [Ends, Attempt.ensures_regardless]
  exact Attempt.Ensures.mono (fun _ h => h) (fun _ _ h => h) (fun _ _ h => h.elim) h

/-- The transmission that the interrupt routine starts settles the switch, in any state. -/
theorem awake_transmits {irq : IrqStatus} (h : t.1.transmits irq = true) :
    Ends Awake (interruptEvent config irq) t := by
  rw [DrvCtx.transmits, Bool.and_eq_true, Bool.and_eq_true, Bool.and_eq_true,
    decide_eq_true_eq, Bool.not_eq_true', Bool.not_eq_true'] at h
  obtain ⟨⟨⟨hmode, htx⟩, hcrc⟩, hrest⟩ := h
  rw [interruptEvent, htx, if_neg Bool.false_ne_true, hcrc, if_neg Bool.false_ne_true]
  cases htimeout : irq.timeout with
  | true =>
    rw [htimeout, if_pos rfl, decide_eq_true_eq] at hrest
    rw [if_pos rfl]
    refine ends_test ?_
    rw [decide_eq_false hrest]
    refine ends_test ?_
    rw [decide_eq_true hmode]
    have hclear : Ends (fun _ => True)
        (Access.modify fun drv => { drv with cadExitMode := .none }) t := ends_modify trivial
    exact hclear.bind fun _ u _ => (ends_regardless awake_startTx).bind fun _ u hu => hu
  | false =>
    rw [htimeout, if_neg Bool.false_ne_true] at hrest
    simp only [Bool.and_eq_true, decide_eq_true_eq, Bool.not_eq_true'] at hrest
    obtain ⟨⟨⟨⟨hheader, hmodem⟩, hsync⟩, hdone⟩, hdetected⟩ := hrest
    rw [if_neg Bool.false_ne_true, hheader, if_neg Bool.false_ne_true]
    refine ends_test ?_
    rw [decide_eq_true hmodem, if_pos rfl, loraEvent, hsync, if_neg Bool.false_ne_true, hdone,
      if_pos rfl]
    refine ends_test ?_
    rw [decide_eq_true hmode, hdetected]
    refine (ends_regardless awake_startTx).bind fun _ u hu => ?_
    have hclear : Ends Awake (Access.modify fun drv => { drv with cadExitMode := .none }) u :=
      ends_modify ⟨hu.dozing, hu.switch⟩
    exact hclear.bind fun _ u hu => hu

/-- A carrier sense that ends in SLEEP settles the switch, as standby is reached from there. -/
theorem awake_standsBy {irq : IrqStatus} (hsleep : t.1.radioState = .sleep)
    (h : t.1.standsBy irq = true) : Ends Awake (interruptEvent config irq) t := by
  simp only [DrvCtx.standsBy, Bool.and_eq_true, decide_eq_true_eq, Bool.not_eq_true'] at h
  obtain ⟨⟨⟨⟨⟨⟨⟨hmode, htx⟩, hcrc⟩, htimeout⟩, hheader⟩, hmodem⟩, hsync⟩, hpreamble⟩ := h
  rw [interruptEvent, htx, if_neg Bool.false_ne_true, hcrc, if_neg Bool.false_ne_true, htimeout,
    if_neg Bool.false_ne_true, hheader, if_neg Bool.false_ne_true]
  refine ends_test ?_
  rw [decide_eq_false hmodem, if_neg Bool.false_ne_true, fskEvent, hsync,
    if_neg Bool.false_ne_true, hpreamble, if_pos rfl]
  refine ends_test ?_
  rw [decide_eq_true hmode]
  have hrssi : Ends (fun u => u.1 = t.1) (rssi config) t := held_chip rfl
  refine (ends_regardless hrssi).bind fun _ u hu => ?_
  have hclear : Ends (fun v => v.1.radioState = .sleep)
      (Access.modify fun drv => { drv with cadExitMode := .none }) u := by
    refine ends_modify ?_
    rw [hu]
    exact hsleep
  refine hclear.bind fun _ u hu => ?_
  have hstate {state : RadioState} (hne : state ≠ .sleep) : u.1.radioState ≠ state :=
    fun heq => hne (heq.symm.trans hu)
  have hstandby : Ends Awake (standby config) u :=
    (at_standby (hstate (by decide)) (hstate (by decide))).mono fun _ hu => awake_at rfl rfl hu
  exact (ends_regardless hstandby).bind fun _ u hu => hu

/-! ## Runs -/

theorem leaves_require {b : Bool} {e : RadioFailure} {p : Op Unit} (ht : post t)
    (hp : b = true → Leaves post p t) : Leaves post (Access.require b e >>= fun _ => p) t := by
  cases b with
  | false => exact ht
  | true => exact hp rfl

theorem agrees_standby (h : Agrees t) (hstate : t.1.radioState ≠ .rxDc) :
    Ends Agrees (standby config) t := by
  by_cases hstandby : t.1.radioState = .standby
  · refine ends_test ?_
    rw [decide_eq_true hstandby]
    exact h
  · exact (at_standby hstandby hstate).mono fun _ hu => agrees_at rfl (by decide) hu

theorem agrees_sleep (h : Agrees t) (hstate : t.1.radioState ≠ .rxDc) :
    Ends Agrees (sleep config) t := by
  by_cases hsleep : t.1.radioState = .sleep
  · refine ends_test ?_
    rw [decide_eq_true hsleep]
    exact h
  · have hawake : t.1.dozing = false := by
      rw [DrvCtx.dozing, decide_eq_false hsleep, decide_eq_false hstate]
      rfl
    exact (ends_sleep hawake).mono fun _ hu => ⟨fun _ => hu.2, switch_at rfl hu.1⟩

theorem agrees_startRx (hawake : t.1.dozing = false) : Ends Agrees (startRx config) t :=
  (at_startRx hawake rfl).mono fun _ hu => agrees_at rfl (by decide) hu

theorem agrees_setRxDutyCycle {rxTime sleepTime : Nat} (h : Agrees t)
    (hcall : t.1.dozing = true → rxTime = 0 ∨ sleepTime = 0) :
    Leaves Agrees (setRxDutyCycle config rxTime sleepTime) t := by
  refine leaves_require h fun hok => ?_
  rw [Bool.and_eq_true, decide_eq_true_eq, decide_eq_true_eq] at hok
  have hawake : t.1.dozing = false := by
    refine Bool.eq_false_iff.mpr fun hdozing => ?_
    exact (hcall hdozing).elim hok.1 hok.2
  refine Ends.leaves (at_prepare hawake rfl fun u hu => ?_)
  exact (at_launch hawake hu).mono fun _ hu => agrees_at rfl (by decide) hu

theorem agrees_startCarrierSense {exitMode : CadExitMode} (h : Agrees t)
    (hcall : t.1.dozing = true → t.1.modem ≠ .fsk ∨ exitMode.valid = false) :
    Leaves Agrees (startCarrierSense config exitMode) t := by
  rw [Leaves, startCarrierSense, Attempt.ensures_bind, Access.ensures_test]
  refine ⟨trivial, leaves_require h fun hmodem => leaves_require h fun hvalid => ?_⟩
  have hawake : t.1.dozing = false := by
    refine Bool.eq_false_iff.mpr fun hdozing => ?_
    rcases hcall hdozing with hother | hinvalid
    · exact hother (of_decide_eq_true hmodem)
    · rw [hinvalid] at hvalid
      contradiction
  refine Ends.leaves ((at_chip hawake ⟨rfl, rfl⟩).bind fun _ u hu => ?_)
  refine at_prepare hawake hu.1 fun u hu => (at_chip hawake hu).bind fun _ u hu => ?_
  refine (at_chip hawake hu).bind fun _ u hu => ?_
  have hstate : Ends (At { t.1 with radioState := .rx } (true, false)) (setState .rx) u :=
    ends_modify ⟨by rw [hu.1], hu.2⟩
  refine hstate.bind fun _ u hu => ends_modify ?_
  have hagrees : Agrees u := agrees_at rfl (by decide) hu
  exact ⟨hagrees.asleep, hagrees.switch⟩

theorem agrees_setTxPayload {size : Option Nat} (h : Agrees t)
    (hcall : t.1.dozing = true → size.any (· ≠ 0) = false) :
    Leaves Agrees (setTxPayload config size) t := by
  refine leaves_require h fun hok => ?_
  have hawake : t.1.dozing = false := by
    refine Bool.eq_false_iff.mpr fun hdozing => ?_
    rw [hcall hdozing] at hok
    contradiction
  exact ((awake_chip (h.awake hawake)).mono fun _ hu => hu.agrees).leaves

theorem agrees_irqProcess {irq : IrqStatus} (h : Agrees t)
    (hcall : t.1.dozing = true → t.1.transmits irq = true ∨
      (t.1.radioState = .sleep ∧ t.1.standsBy irq = true)) :
    Leaves Agrees (irqProcess config irq) t := by
  have hleaves : Leaves Awake (irqProcess config irq) t := by
    cases hdozing : t.1.dozing with
    | false =>
      exact awake_irqProcess awake_chip (fun u hu => stays_interruptEvent u hu) (h.awake hdozing)
    | true =>
      refine awake_irqProcess (P := fun u => u.1 = t.1) held_chip (fun u hu => ?_) rfl
      rcases hcall hdozing with htransmits | ⟨hsleep, hstands⟩
      · exact (awake_transmits (hu ▸ htransmits)).leaves
      · exact (awake_standsBy (hu ▸ hsleep) (hu ▸ hstands)).leaves
  exact hleaves.mono (fun _ h => h) (fun _ _ hu => hu.agrees) fun _ _ hu => hu.agrees

/-- What a call leaves of a board that agrees. -/
theorem agrees_op {call : HardwareCall} (h : Agrees t) (hcall : Undisturbed t call) :
    Leaves Agrees (call.op config) t := by
  cases call with
  | standby => exact (agrees_standby h hcall).leaves
  | sleep => exact (agrees_sleep h hcall).leaves
  | startTx timeout => exact (awake_startTx.mono fun _ hu => hu.agrees).leaves
  | startRx timeout => exact (agrees_startRx hcall).leaves
  | startContinuousRx => exact (agrees_startRx hcall).leaves
  | setRxDutyCycle rxTime sleepTime => exact agrees_setRxDutyCycle h hcall
  | startCarrierSense exitMode => exact agrees_startCarrierSense h hcall
  | loraStartCad =>
    exact ((at_loraStartCad hcall rfl).mono fun _ hu => agrees_at rfl (by decide) hu).leaves
  | rssi => exact ((awake_chip (h.awake hcall)).mono fun _ hu => hu.agrees).leaves
  | setTxPayload size => exact agrees_setTxPayload h hcall
  | irqProcess irq => exact agrees_irqProcess h hcall

end

/-- In every run in which no access wakes the chip behind the driver, the hardware is as the radio
state says after every call. -/
theorem hardware_agrees (config : Config) {s : DrvCtx × Hardware}
    (h : (board config).Reached Undisturbed s) : Agrees s := by
  refine h.invariant ?_ ?_
  · rintro ⟨drv, hw⟩ ⟨hstate, rfl⟩
    refine ⟨fun hsleep => ?_, fun p hp => ?_⟩
    · rw [hstate] at hsleep
      contradiction
    · rw [hstate] at hp
      exact Option.some.inj hp
  · rintro s call t hagrees hcall ⟨r, hrun⟩
    have hends := (agrees_op hagrees hcall).executes hrun
    cases r <;> exact hends

/-! ## Two runs -/

/-- Every access succeeds, and what is read from the chip is true. -/
def fullReply (hw : Hardware) (c : Command) : Bool × Hardware := (true, c.effect hw)

theorem fullReply_succeeds (hw : Hardware) (c : Command) :
    allSucceed hw c (fullReply hw c).1 (fullReply hw c).2 := ⟨fun _ => rfl, rfl⟩

def bareConfig : Config := ⟨fun _ => false, false, false, false, false, false⟩

def initialBoard : DrvCtx × Hardware := (⟨.standby, .lora, .csOnly⟩, ⟨false, (false, false)⟩)

theorem initialBoard_init : (board bareConfig).init initialBoard := ⟨rfl, rfl⟩

theorem board_step (s : DrvCtx × Hardware) (call : HardwareCall) :
    (board bareConfig).step s call
      (Program.eval (Access.answer fullReply) (call.op bareConfig).run s).2 :=
  ⟨_, Program.executes_eval (Access.exec_answer fullReply_succeeds) _ s⟩

def receiving : DrvCtx × Hardware := (⟨.rx, .lora, .csOnly⟩, ⟨false, (true, false)⟩)

theorem hardware_agrees_receiving : Agrees receiving := by
  have hready : (board bareConfig).Reached Undisturbed initialBoard := .init initialBoard_init
  have hstart : (board bareConfig).step initialBoard (.startRx 0) receiving :=
    board_step initialBoard (.startRx 0)
  have hcall : Undisturbed initialBoard (.startRx 0) := rfl
  exact hardware_agrees bareConfig (.step hready hcall hstart)

/-- Standby from RX_DC leaves the switch at `(true, true)`. -/
theorem dutyCycle_keeps_switch : ¬∀ (config : Config) (s : DrvCtx × Hardware),
    (board config).Reachable s → Agrees s := by
  intro h
  let cycling : DrvCtx × Hardware := (⟨.rxDc, .lora, .csOnly⟩, ⟨false, (true, false)⟩)
  let stopped : DrvCtx × Hardware := (⟨.standby, .lora, .csOnly⟩, ⟨false, (true, true)⟩)
  have hready : (board bareConfig).Reachable initialBoard := .init initialBoard_init
  have hcycle : (board bareConfig).step initialBoard (.setRxDutyCycle 1 1) cycling :=
    board_step initialBoard (.setRxDutyCycle 1 1)
  have hstop : (board bareConfig).step cycling .standby stopped := board_step cycling .standby
  have hagrees := h bareConfig stopped (.step (.step hready trivial hcycle) trivial hstop)
  have hswitch : (true, true) = (false, false) := hagrees.switch (false, false) rfl
  contradiction

end Sidewalk.Radio.Sx126x
