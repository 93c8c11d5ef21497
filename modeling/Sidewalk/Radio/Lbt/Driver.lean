import Mathlib
import Sidewalk.Lib.System
import Sidewalk.Radio.Interface

/-!
# Listen before talk

A carrier sense or a CAD with the exit mode `CS_LBT` asks the interrupt routine to transmit when
the channel is free. Both drivers keep this wish in one field, which two operations set and only
some interrupts clear.
-/

namespace Sidewalk.Radio

open Lib

/-! ## Runs of a driver -/

inductive RadioCall
  | setLoraCadParams (exitMode : CadExitMode)
  | loraStartCad
  | startCarrierSense (exitMode : CadExitMode)
  | startRx (timeout : Nat)
  | startContinuousRx
  | setRxDutyCycle (rxTime sleepTime : Nat)
  | startTx (timeout : Nat)
  | standby
  | sleep
  | setModemMode (mode : ModemMode)
  | irqProcess (irq : IrqStatus)

/-- What has happened; the last event is the first of a history. -/
inductive LbtEvent
  /-- A carrier sense or CAD was started, and whether with the exit mode `CS_LBT`. -/
  | listen (lbt : Bool)
  /-- The radio was started in another way. -/
  | started
  | stopped
  /-- The interrupt routine starts a transmission. -/
  | transmitted
  deriving DecidableEq

/-- A driver: how its calls go, whether they end with `RADIO_ERROR_NONE` and whether they send the
command that starts a transmission. -/
structure LbtDriver (σ : Type) where
  init : σ → Prop
  exitMode : σ → CadExitMode
  call : σ → RadioCall → Bool → Bool → σ → Prop

/-- A driver with the history of its calls. The exit mode of a CAD is the one that was last given
and is valid, and `pending` says that it is `CS_LBT` and that nothing listens by it yet. -/
structure LbtRun (σ : Type) where
  driver : σ
  cadExitMode : CadExitMode
  pending : Bool
  history : List LbtEvent

/-- What a call adds to the history. -/
def RadioCall.event (call : RadioCall) (cadExitMode : CadExitMode) (ok sent : Bool) :
    Option LbtEvent :=
  match call with
  | .setLoraCadParams _ | .setModemMode _ => none
  | .loraStartCad => if ok then some (.listen (cadExitMode = .csLbt)) else none
  | .startCarrierSense exitMode => if ok then some (.listen (exitMode = .csLbt)) else none
  | .startRx _ | .startContinuousRx | .setRxDutyCycle .. | .startTx _ =>
    if ok then some .started else none
  | .standby | .sleep => if ok then some .stopped else none
  | .irqProcess _ => if sent then some .transmitted else none

def RadioCall.cadExitMode (call : RadioCall) (old : CadExitMode) : CadExitMode :=
  match call with
  | .setLoraCadParams exitMode => if exitMode.lora then exitMode else old
  | _ => old

def RadioCall.pending (call : RadioCall) (old ok : Bool) : Bool :=
  match call with
  | .setLoraCadParams exitMode => if exitMode.lora then exitMode = .csLbt else old
  | .loraStartCad | .startCarrierSense _ => old && !ok
  | _ => old

inductive LbtStep {σ : Type} (driver : LbtDriver σ) : LbtRun σ → RadioCall → LbtRun σ → Prop
  | call {s c ok sent t} : driver.call s.driver c ok sent t →
      LbtStep driver s c ⟨t, c.cadExitMode s.cadExitMode, c.pending s.pending ok,
        (c.event s.cadExitMode ok sent).toList ++ s.history⟩

def LbtDriver.runs {σ : Type} (driver : LbtDriver σ) : System (LbtRun σ) RadioCall where
  init s := driver.init s.driver ∧ s.cadExitMode = .none ∧ s.pending = false ∧ s.history = []
  step := LbtStep driver

/-! ## The property -/

/-- The radio was last started to listen with the exit mode `CS_LBT`. -/
def listening : List LbtEvent → Bool
  | .listen lbt :: _ => lbt
  | _ => false

/-- The interrupt routine transmits only while the radio listens so. -/
def Solicited (history : List LbtEvent) : Prop :=
  ∀ newer older, history = newer ++ .transmitted :: older → listening older = true

/-- The radio is started otherwise or stopped only while the exit mode is not `CS_LBT`, a CAD is
started with it only where it is that of the CAD, and no interrupt is served between
`sid_pal_radio_set_lora_cad_params` with `CS_LBT` and the start that goes with it. -/
def LbtOrdered {σ : Type} (driver : LbtDriver σ) (s : LbtRun σ) : RadioCall → Prop
  | .setLoraCadParams _ | .startCarrierSense _ | .setModemMode _ => True
  | .loraStartCad => driver.exitMode s.driver = .csLbt → s.cadExitMode = .csLbt
  | .irqProcess _ => driver.exitMode s.driver = .csLbt → s.pending = false
  | _ => driver.exitMode s.driver ≠ .csLbt

/-! ## What the calls do to the exit mode -/

/-- What a call makes of the exit mode. -/
def RadioCall.Effect (call : RadioCall) (old : CadExitMode) (ok sent : Bool) (new : CadExitMode) :
    Prop :=
  match call with
  | .setLoraCadParams exitMode => new = if exitMode.lora then exitMode else old
  | .startCarrierSense exitMode => new = if ok then exitMode else old
  | .irqProcess _ => if sent then old = .csLbt ∧ new = .none else new = old ∨ new = .none
  | _ => new = old

/-- The calls have these effects while the invariant of the driver holds, which they keep. -/
structure LbtDriver.Sound {σ : Type} (driver : LbtDriver σ) (inv : σ → Prop) : Prop where
  init : ∀ s, driver.init s → inv s ∧ driver.exitMode s ≠ .csLbt
  call : ∀ s c ok sent t, inv s → driver.call s c ok sent t →
    inv t ∧ c.Effect (driver.exitMode s) ok sent (driver.exitMode t)

section

variable {σ : Type} {driver : LbtDriver σ} {inv : σ → Prop}

/-- The exit mode `CS_LBT` stands for what listens, or for a CAD to come. -/
structure Wished (driver : LbtDriver σ) (inv : σ → Prop) (s : LbtRun σ) : Prop where
  inv : inv s.driver
  wish : driver.exitMode s.driver = .csLbt → s.pending = true ∨ listening s.history = true
  solicited : Solicited s.history

theorem Solicited.cons {history : List LbtEvent} (h : Solicited history) {e : LbtEvent}
    (he : e = .transmitted → listening history = true) : Solicited (e :: history) := by
  intro newer older heq
  rcases last_or_before heq with ⟨hlast, rfl⟩ | ⟨newer', hbefore⟩
  · exact he hlast
  · exact h newer' older hbefore

theorem Solicited.event {history : List LbtEvent} (h : Solicited history) {e : Option LbtEvent}
    (he : e = some .transmitted → listening history = true) : Solicited (e.toList ++ history) := by
  cases e with
  | none => exact h
  | some e => exact h.cons fun heq => he (congrArg some heq)

/-- A start of another kind, or a stop, while the exit mode is not `CS_LBT`. -/
theorem Wished.otherwise {s : LbtRun σ} {t : σ} {c : RadioCall} {ok sent : Bool}
    (h : Wished driver inv s) (hinv : inv t) (hmode : driver.exitMode t = driver.exitMode s.driver)
    (hordered : driver.exitMode s.driver ≠ .csLbt)
    (hevent : c.event s.cadExitMode ok sent ≠ some .transmitted) :
    Wished driver inv ⟨t, c.cadExitMode s.cadExitMode, c.pending s.pending ok,
      (c.event s.cadExitMode ok sent).toList ++ s.history⟩ := by
  refine ⟨hinv, fun hlbt => ?_, h.solicited.event fun heq => absurd heq hevent⟩
  exact absurd (hmode.symm.trans hlbt) hordered

theorem Wished.step {s s' : LbtRun σ} {c : RadioCall} (hsound : driver.Sound inv)
    (h : Wished driver inv s) (hordered : LbtOrdered driver s c) (hstep : LbtStep driver s c s') :
    Wished driver inv s' := by
  cases hstep with
  | @call ok sent t hcall =>
    obtain ⟨hinv, heffect⟩ := hsound.call s.driver c ok sent t h.inv hcall
    cases c with
    | setLoraCadParams exitMode =>
      refine ⟨hinv, fun hlbt => ?_, h.solicited⟩
      have hnew : driver.exitMode t = if exitMode.lora then exitMode else driver.exitMode s.driver :=
        heffect
      cases hlora : exitMode.lora with
      | true =>
        rw [hlora, if_pos rfl, hlbt] at hnew
        subst hnew
        exact .inl rfl
      | false =>
        rw [hlora, if_neg (by decide)] at hnew
        rcases h.wish (hnew.symm.trans hlbt) with hpending | hlisten
        · exact .inl (by simp [RadioCall.pending, hlora, hpending])
        · exact .inr hlisten
    | setModemMode mode =>
      have hnew : driver.exitMode t = driver.exitMode s.driver := heffect
      exact ⟨hinv, fun hlbt => h.wish (hnew.symm.trans hlbt), h.solicited⟩
    | loraStartCad =>
      have hnew : driver.exitMode t = driver.exitMode s.driver := heffect
      cases ok with
      | true =>
        refine ⟨hinv, fun hlbt => .inr ?_, h.solicited.cons nofun⟩
        exact decide_eq_true (hordered (hnew.symm.trans hlbt))
      | false =>
        refine ⟨hinv, fun hlbt => ?_, h.solicited⟩
        have hwish := h.wish (hnew.symm.trans hlbt)
        simpa [RadioCall.pending, RadioCall.event] using hwish
    | startCarrierSense exitMode =>
      cases ok with
      | true =>
        have hnew : driver.exitMode t = exitMode := heffect
        refine ⟨hinv, fun hlbt => .inr ?_, h.solicited.cons nofun⟩
        exact decide_eq_true (hnew.symm.trans hlbt)
      | false =>
        have hnew : driver.exitMode t = driver.exitMode s.driver := heffect
        refine ⟨hinv, fun hlbt => ?_, h.solicited⟩
        have hwish := h.wish (hnew.symm.trans hlbt)
        simpa [RadioCall.pending, RadioCall.event] using hwish
    | irqProcess irq =>
      cases sent with
      | true =>
        obtain ⟨hold, hnew⟩ :
            driver.exitMode s.driver = .csLbt ∧ driver.exitMode t = .none := heffect
        refine ⟨hinv, fun hlbt => ?_, h.solicited.cons fun _ => ?_⟩
        · rw [hnew] at hlbt
          contradiction
        · refine (h.wish hold).resolve_left fun hpending => ?_
          rw [hordered hold] at hpending
          contradiction
      | false =>
        have hnew : driver.exitMode t = driver.exitMode s.driver ∨ driver.exitMode t = .none :=
          heffect
        refine ⟨hinv, fun hlbt => ?_, h.solicited⟩
        rcases hnew with hnew | hnew
        · exact h.wish (hnew.symm.trans hlbt)
        · rw [hnew] at hlbt
          contradiction
    | _ =>
      exact h.otherwise hinv heffect hordered (by cases ok <;> nofun)

/-- Where the calls are ordered, a driver whose calls have these effects transmits on its own only
while the radio listens with the exit mode `CS_LBT`. -/
theorem LbtDriver.Sound.solicited (hsound : driver.Sound inv) {s : LbtRun σ}
    (h : driver.runs.Reached (LbtOrdered driver) s) : Solicited s.history := by
  have hwished : Wished driver inv s := by
    refine h.invariant ?_ fun _ _ _ hi hordered hstep => hi.step hsound hordered hstep
    rintro s ⟨hinit, -, -, hhistory⟩
    obtain ⟨hinv, hmode⟩ := hsound.init s.driver hinit
    refine ⟨hinv, fun hlbt => absurd hlbt hmode, ?_⟩
    rw [hhistory]
    intro newer older heq
    cases newer <;> cases heq
  exact hwished.solicited

end

/-- The exit mode and whether a transmission was started, within an interrupt routine that began
with this exit mode: none was, or the wish for it is gone. -/
def Granted (old new : CadExitMode) (sent : Bool) : Prop :=
  (sent = false ∧ (new = old ∨ new = .none)) ∨ (old = .csLbt ∧ new = .none)

theorem Granted.cleared {old new : CadExitMode} {sent : Bool} (h : Granted old new sent) :
    Granted old .none sent := by
  rcases h with ⟨hsent, -⟩ | ⟨hold, -⟩
  · exact .inl ⟨hsent, .inr rfl⟩
  · exact .inr ⟨hold, rfl⟩

theorem Granted.wished {old : CadExitMode} {sent : Bool} (h : Granted old .csLbt sent) :
    old = .csLbt := by
  rcases h with ⟨-, hmode | hmode⟩ | ⟨hold, -⟩
  · exact hmode.symm
  · cases hmode
  · exact hold

theorem Granted.effect {irq : IrqStatus} {old new : CadExitMode} {ok sent : Bool}
    (h : Granted old new sent) : (RadioCall.irqProcess irq).Effect old ok sent new := by
  cases sent with
  | true =>
    rcases h with ⟨hsent, -⟩ | h
    · contradiction
    · exact h
  | false =>
    rcases h with ⟨-, h⟩ | ⟨-, h⟩
    · exact h
    · exact .inr h

end Sidewalk.Radio
