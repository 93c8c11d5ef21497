import Sidewalk.Radio.Lbt.Lr11xx
import Sidewalk.Radio.Lbt.Sx126x

/-!
# Unsolicited transmissions

Neither driver transmits on its own but for a carrier sense or a CAD with the exit mode `CS_LBT`,
where its calls are ordered. The exit mode is not cleared by a stop or by another start, so in
other orders the timeout of a plain reception starts a transmission.
-/

namespace Sidewalk.Radio

open Lib

/-- The drivers of the two chips. -/
inductive Chipset
  | sx126x (config : Sx126x.Config)
  | lr11xx (config : Lr11xx.Config)

def Chipset.State : Chipset → Type
  | .sx126x _ => Sx126x.DrvCtx
  | .lr11xx _ => Lr11xx.DrvCtx

def Chipset.lbtDriver : (chipset : Chipset) → LbtDriver chipset.State
  | .sx126x config => Sx126x.lbtDriver config
  | .lr11xx config => Lr11xx.lbtDriver config

/-- In every run whose calls are ordered the interrupt routine transmits only while the radio
listens with the exit mode `CS_LBT`. -/
theorem transmissions_solicited (chipset : Chipset) {s : LbtRun chipset.State}
    (h : chipset.lbtDriver.runs.Reached (LbtOrdered chipset.lbtDriver) s) :
    Solicited s.history := by
  cases chipset with
  | sx126x config => exact Sx126x.lbtDriver_sound.solicited h
  | lr11xx config => exact Lr11xx.lbtDriver_sound.solicited h

/-! ## Two runs -/

namespace Sx126x

/-- Every access succeeds. -/
def allWell (sent : Bool) (c : Command) : Bool × Bool := (true, sent || c.startsTx)

theorem allWell_sent (sent : Bool) (c : Command) :
    txSent sent c (allWell sent c).1 (allWell sent c).2 := rfl

def plainConfig : Config := ⟨fun _ => false, false, false, false, false, false⟩

/-- The call in a state, when every access succeeds. -/
def wellCalled (drv : DrvCtx) (call : RadioCall) : Except RadioFailure Unit × DrvCtx × Bool :=
  Program.eval (Access.answer allWell) (callOf plainConfig call).run (drv, false)

theorem called_well {drv drv' : DrvCtx} {call : RadioCall} {sent : Bool}
    (h : wellCalled drv call = (.ok (), drv', sent)) :
    (lbtDriver plainConfig).call drv call true sent drv' := by
  refine ⟨.ok (), rfl, ?_⟩
  have hrun := Program.executes_eval (Access.exec_answer allWell_sent)
    (callOf plainConfig call).run (drv, false)
  rw [wellCalled] at h
  rw [h] at hrun
  exact hrun

/-- After `sid_pal_radio_init`. -/
def initialCtx : DrvCtx := ⟨.standby, .lora, .csOnly⟩

def fskCtx : DrvCtx := ⟨.standby, .fsk, .csOnly⟩

def sensingCtx : DrvCtx := ⟨.rx, .fsk, .csLbt⟩

def timeoutIrq : IrqStatus :=
  ⟨false, false, true, false, false, false, false, false, false, false, false, false⟩

end Sx126x

open Sx126x in
theorem called_setModemMode : (lbtDriver plainConfig).call initialCtx (.setModemMode .fsk) true
    false fskCtx := called_well rfl

open Sx126x in
theorem called_carrierSense : (lbtDriver plainConfig).call fskCtx (.startCarrierSense .csLbt) true
    false sensingCtx := called_well rfl

open Sx126x in
theorem called_irqProcess : (lbtDriver plainConfig).call sensingCtx (.irqProcess timeoutIrq) true
    true ⟨.tx, .fsk, .none⟩ := called_well rfl

open Sx126x in
theorem transmissions_solicited_listening : Solicited [.transmitted, .listen true] := by
  let chipset := Chipset.sx126x plainConfig
  have hinit : chipset.lbtDriver.runs.init ⟨initialCtx, .none, false, []⟩ :=
    ⟨⟨rfl, by decide⟩, rfl, rfl, rfl⟩
  have hfsk := System.Reached.step (.init hinit)
    (show LbtOrdered chipset.lbtDriver _ (.setModemMode .fsk) from trivial)
    (.call called_setModemMode)
  have hsense := System.Reached.step hfsk
    (show LbtOrdered chipset.lbtDriver _ (.startCarrierSense .csLbt) from trivial)
    (.call called_carrierSense)
  have hirq := System.Reached.step hsense
    (show LbtOrdered chipset.lbtDriver _ (.irqProcess timeoutIrq) from fun _ => rfl)
    (.call called_irqProcess)
  exact transmissions_solicited chipset hirq

open Sx126x in
/-- A carrier sense is stopped, and the timeout of a later reception transmits. -/
theorem reception_transmits : ¬∀ (chipset : Chipset) (s : LbtRun chipset.State),
    chipset.lbtDriver.runs.Reachable s → Solicited s.history := by
  intro h
  let chipset := Chipset.sx126x plainConfig
  have hinit : chipset.lbtDriver.runs.init ⟨initialCtx, .none, false, []⟩ :=
    ⟨⟨rfl, by decide⟩, rfl, rfl, rfl⟩
  have hready : chipset.lbtDriver.runs.Reachable _ := .init hinit
  have hfsk := System.Reached.step hready trivial (.call called_setModemMode)
  have hsense := System.Reached.step hfsk trivial (.call called_carrierSense)
  have hstopped : (lbtDriver plainConfig).call sensingCtx .standby true false
      ⟨.standby, .fsk, .csLbt⟩ := called_well rfl
  have hreceives : (lbtDriver plainConfig).call ⟨.standby, .fsk, .csLbt⟩ (.startRx 500) true false
      sensingCtx := called_well rfl
  have hrx := System.Reached.step (System.Reached.step hsense trivial (.call hstopped)) trivial
    (.call hreceives)
  have hirq := System.Reached.step hrx trivial (.call called_irqProcess)
  have hlistening := h chipset _ hirq [] [.started, .stopped, .listen true] rfl
  contradiction

end Sidewalk.Radio
