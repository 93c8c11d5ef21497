import Mathlib
import Sidewalk.Lib.System

/-!
# Buttons of the sensor monitor

Interrupts set the press bit of a button and then a flag, a timer queues an event while the flag is
set, and the transmit thread reads the bits, sends a notification and clears the flag. Every atomic
operation is a step. What is pressed while the notification is under way is remembered by the flag
alone, and the thread clears it.
-/

namespace Sidewalk.Buttons

open Sidewalk.Lib Function

/-! ## The code -/

def appButtonsMax : Nat := 4

inductive AppEvent
  | capabilitySuccess
  | timeSyncSuccess
  | timeSyncFail
  | notifyButton
  | notifySensor
  | respLedOn
  | respLedOff
  deriving DecidableEq

inductive AppState
  | appInit
  | notifyCapability
  | notifyData
  deriving DecidableEq

/-- `smf_set_state` in the three handlers. -/
def AppState.next : AppState → AppEvent → AppState
  | .appInit, .timeSyncSuccess => .notifyCapability
  | .notifyCapability, .capabilitySuccess => .notifyData
  | .notifyData, .timeSyncFail => .notifyCapability
  | state, _ => state

/-- The operation that a call of `app_btn_event_handler` does next. -/
inductive HandlerPc
  | testBit
  | setBit
  | setFlag
  deriving DecidableEq

structure HandlerCall where
  btnId : Nat
  pc : HandlerPc
  deriving DecidableEq

/-- Where the transmit thread stands; `reading` has the button whose bits come next. -/
inductive TxPc
  | waiting
  | reading (i : Nat) (buttonArr : List Nat)
  | sending (buttonArr : List Nat)
  | sent
  deriving DecidableEq

structure World where
  pressMask : Nat → Bool
  notifyMask : Nat → Bool
  pendingProcessing : Bool
  /-- The calls of the handler that have not returned. -/
  calls : List HandlerCall
  /-- The timer has seen the flag and has its event still to send. -/
  timerSends : Bool
  msgq : List AppEvent
  appState : AppState
  tx : TxPc
  /-- A notification with the button has been queued for sending since its press bit was set. -/
  notified : Nat → Bool

/-- An operation of a call of the handler; the call that returns is no longer there. -/
def World.handlerStep (w : World) (i : Nat) : Option World :=
  match w.calls[i]? with
  | none => none
  | some ⟨btnId, .testBit⟩ =>
    let pc := if w.pressMask btnId then HandlerPc.setFlag else .setBit
    some { w with calls := w.calls.set i ⟨btnId, pc⟩ }
  | some ⟨btnId, .setBit⟩ =>
    some { w with
      pressMask := update w.pressMask btnId true
      notified := if w.pressMask btnId then w.notified else update w.notified btnId false
      calls := w.calls.set i ⟨btnId, .setFlag⟩ }
  | some ⟨_, .setFlag⟩ => some { w with pendingProcessing := true, calls := w.calls.eraseIdx i }

/-- `k_msgq_get`, and what the state machine does with the event up to its first look at the
bits. -/
def World.take (w : World) : Option World :=
  match w.tx, w.msgq with
  | .waiting, event :: msgq =>
    if event = .notifyButton ∧ w.appState = .notifyData then
      some { w with msgq, tx := .reading 0 [] }
    else some { w with msgq, appState := w.appState.next event }
  | _, _ => none

/-- One turn of the loop over the buttons. -/
def World.readBit (w : World) : Option World :=
  match w.tx with
  | .reading i buttonArr =>
    let buttonArr := if w.pressMask i ∧ w.notifyMask i = false then buttonArr ++ [i] else buttonArr
    some { w with tx := if i + 1 < appButtonsMax then .reading (i + 1) buttonArr
                        else .sending buttonArr }
  | _ => none

/-- The notification is serialized and sent, or one of the two fails. -/
def World.send (w : World) (sent : Bool) : Option World :=
  match w.tx with
  | .sending buttonArr =>
    some (if sent then
      { w with tx := .sent, notified := fun b => w.notified b || decide (b ∈ buttonArr) }
    else { w with tx := .waiting })
  | _ => none

/-- `app_btn_pending_flag_clear`. -/
def World.clearFlag (w : World) : Option World :=
  match w.tx with
  | .sent => some { w with pendingProcessing := false, tx := .waiting }
  | _ => none

inductive Step
  /-- `app_btn_event_handler` is called. -/
  | press (btnId : Nat)
  | handler (i : Nat)
  /-- The timer reads the flag. -/
  | timer
  /-- The timer sends its event, if the queue has room. -/
  | timerSend (room : Bool)
  /-- Another part of the application sends an event. -/
  | post (event : AppEvent)
  | take
  | readBit
  | send (sent : Bool)
  | clearFlag
  /-- A button response clears the two bits of a button, one after the other. -/
  | respPress (btnId : Nat)
  | respNotify (btnId : Nat)
  deriving DecidableEq

def World.next (w : World) : Step → Option World
  | .press btnId =>
    some (if btnId < appButtonsMax then { w with calls := w.calls ++ [⟨btnId, .testBit⟩] } else w)
  | .handler i => w.handlerStep i
  | .timer => some { w with timerSends := w.pendingProcessing }
  | .timerSend room =>
    if w.timerSends then
      some { w with timerSends := false
                    msgq := if room then w.msgq ++ [.notifyButton] else w.msgq }
    else none
  | .post event =>
    if event ≠ .notifyButton then some { w with msgq := w.msgq ++ [event] } else none
  | .take => w.take
  | .readBit => w.readBit
  | .send sent => w.send sent
  | .clearFlag => w.clearFlag
  | .respPress btnId =>
    some (if btnId < appButtonsMax then { w with pressMask := update w.pressMask btnId false }
      else w)
  | .respNotify btnId =>
    some (if btnId < appButtonsMax then { w with notifyMask := update w.notifyMask btnId false }
      else w)

/-- Interrupts, timer, transmit thread and receive thread, in any order. -/
def buttons : System World Step where
  init w := w = ⟨fun _ => false, fun _ => false, false, [], false, [], .appInit, .waiting,
    fun _ => false⟩
  step w a w' := w.next a = some w'

/-! ## The property -/

/-- The flag or an event will bring the button into a notification. -/
def World.Included (w : World) (b : Nat) : Prop :=
  w.pendingProcessing = true ∨ .notifyButton ∈ w.msgq ∨
    ∃ i buttonArr, w.tx = .reading i buttonArr ∧ i ≤ b

/-- No press is forgotten. The handler sets the bit before the flag, and a call that is between the
two remembers the press by itself. -/
def World.Remembers (w : World) : Prop :=
  ∀ b < appButtonsMax, w.pressMask b = true → w.notified b = false →
    w.Included b ∨ ⟨b, .setFlag⟩ ∈ w.calls

/-- The flag is cleared only if every button that is pressed is in a notification since, or its
call has still to set the flag. -/
def Timely (w : World) (a : Step) : Prop :=
  match a with
  | .clearFlag => ∀ b < appButtonsMax, w.pressMask b = true → w.notified b = false →
    ⟨b, .setFlag⟩ ∈ w.calls
  | _ => True

/-! ## Steps -/

/-- The flag is set, or a call has it still to set. -/
def World.Flagged (w : World) : Prop :=
  ∀ b < appButtonsMax, w.pressMask b = true → w.notified b = false →
    w.pendingProcessing = true ∨ ⟨b, .setFlag⟩ ∈ w.calls

section

variable {w w' : World}

theorem World.Flagged.remembers (h : w.Flagged) : w.Remembers := by
  intro b hb hpress hnotified
  rcases h b hb hpress hnotified with hflag | hcall
  · exact .inl (.inl hflag)
  · exact .inr hcall

/-- What a step keeps that clears no flag, ends no call and sets no bit. -/
theorem World.Flagged.mono (h : w.Flagged)
    (hpress : ∀ b, w'.pressMask b = true → w.pressMask b = true)
    (hnotified : ∀ b, w'.notified b = false → w.notified b = false)
    (hflag : w.pendingProcessing = true → w'.pendingProcessing = true)
    (hcalls : ∀ b, ⟨b, .setFlag⟩ ∈ w.calls → ⟨b, .setFlag⟩ ∈ w'.calls) : w'.Flagged := by
  intro b hb hpress' hnotified'
  rcases h b hb (hpress b hpress') (hnotified b hnotified') with hset | hcall
  · exact .inl (hflag hset)
  · exact .inr (hcalls b hcall)

/-- A call that moves on keeps the other calls. -/
theorem mem_set_of_ne {calls : List HandlerCall} {i : Nat} {call call' other : HandlerCall}
    (hi : calls[i]? = some call) (hother : other ∈ calls) (hne : other ≠ call) :
    other ∈ calls.set i call' := by
  obtain ⟨j, hj⟩ := List.getElem?_of_mem hother
  have hij : i ≠ j := by
    rintro rfl
    exact hne (Option.some.inj (hj.symm.trans hi))
  refine List.mem_of_getElem? (i := j) ?_
  rw [List.getElem?_set_ne hij, hj]

theorem mem_set {calls : List HandlerCall} {i : Nat} {call call' : HandlerCall}
    (hi : calls[i]? = some call) : call' ∈ calls.set i call' := by
  obtain ⟨hlt, -⟩ := List.getElem?_eq_some_iff.mp hi
  exact List.mem_set hlt call'

theorem World.Flagged.handler {i : Nat} (h : w.Flagged) (hstep : w.handlerStep i = some w') :
    w'.Flagged := by
  unfold World.handlerStep at hstep
  split at hstep
  · cases hstep
  · next btnId hcall =>
    cases hstep
    refine h.mono (fun _ => id) (fun _ => id) id fun b hb => mem_set_of_ne hcall hb ?_
    simp
  · next btnId hcall =>
    cases hstep
    intro b hb hpress hnotified
    by_cases hbtn : b = btnId
    · -- The call that sets the bit goes on to the flag.
      rw [hbtn]
      exact .inr (mem_set hcall)
    · simp only [update_of_ne hbtn] at hpress
      have hold : w.notified b = false := by
        simp only at hnotified
        split at hnotified
        · exact hnotified
        · rwa [update_of_ne hbtn] at hnotified
      rcases h b hb hpress hold with hflag | hin
      · exact .inl hflag
      · exact .inr (mem_set_of_ne hcall hin (by simp))
  · cases hstep
    intro b hb hpress hnotified
    exact .inl rfl

/-- The thread keeps the flag until it clears it. -/
theorem World.Flagged.tx (h : w.Flagged) (hpress : w'.pressMask = w.pressMask)
    (hflag : w'.pendingProcessing = w.pendingProcessing) (hcalls : w'.calls = w.calls)
    (hnotified : ∀ b, w'.notified b = false → w.notified b = false) : w'.Flagged :=
  h.mono (fun b hb => by rwa [hpress] at hb) hnotified (fun hset => by rwa [hflag])
    fun b hb => by rwa [hcalls]

theorem World.Flagged.step {a : Step} (h : w.Flagged) (hguard : Timely w a)
    (hstep : w.next a = some w') : w'.Flagged := by
  cases a with
  | press btnId =>
    cases hstep
    split
    · exact h.mono (fun _ => id) (fun _ => id) id fun b hb => List.mem_append_left _ hb
    · exact h
  | handler i => exact h.handler hstep
  | timer =>
    cases hstep
    exact h.tx rfl rfl rfl fun _ => id
  | timerSend room =>
    simp only [World.next] at hstep
    split at hstep
    · cases hstep
      exact h.tx rfl rfl rfl fun _ => id
    · cases hstep
  | post event =>
    simp only [World.next] at hstep
    split at hstep
    · cases hstep
      exact h.tx rfl rfl rfl fun _ => id
    · cases hstep
  | take =>
    simp only [World.next, World.take] at hstep
    split at hstep
    · split at hstep
      · cases hstep
        exact h.tx rfl rfl rfl fun _ => id
      · cases hstep
        exact h.tx rfl rfl rfl fun _ => id
    · cases hstep
  | readBit =>
    simp only [World.next, World.readBit] at hstep
    split at hstep
    · cases hstep
      exact h.tx rfl rfl rfl fun _ => id
    · cases hstep
  | send sent =>
    simp only [World.next, World.send] at hstep
    split at hstep
    · cases hstep
      split
      · refine h.tx rfl rfl rfl fun b hb => ?_
        exact (Bool.or_eq_false_iff.mp hb).1
      · exact h.tx rfl rfl rfl fun _ => id
    · cases hstep
  | clearFlag =>
    simp only [World.next, World.clearFlag] at hstep
    split at hstep
    · cases hstep
      exact fun b hb hpress hnotified => .inr (hguard b hb hpress hnotified)
    · cases hstep
  | respPress btnId =>
    cases hstep
    split
    · refine h.mono (fun b hb => ?_) (fun _ => id) id fun _ => id
      simp only at hb
      by_cases hbtn : b = btnId
      · rw [hbtn, update_self] at hb
        cases hb
      · rwa [update_of_ne hbtn] at hb
    · exact h
  | respNotify btnId =>
    cases hstep
    split
    · exact h.tx rfl rfl rfl fun _ => id
    · exact h

end

/-- As long as the flag is cleared in time no press is forgotten: the flag is set, or the call that
sets it is next. -/
theorem presses_remembered {w : World} (h : buttons.Reached Timely w) :
    w.Flagged ∧ w.Remembers := by
  have hflagged : w.Flagged := by
    refine h.invariant ?_ fun w a w' hw hguard hstep => hw.step hguard hstep
    rintro w rfl b - hpress
    cases hpress
  exact ⟨hflagged, hflagged.remembers⟩

/-! ## Two runs -/

def initialWorld : World :=
  ⟨fun _ => false, fun _ => false, false, [], false, [], .appInit, .waiting, fun _ => false⟩

def World.run (w : World) : List Step → Option World
  | [] => some w
  | a :: steps => (w.next a).bind fun w => w.run steps

theorem reached_run {guard : World → Step → Prop} {w w' : World} (h : buttons.Reached guard w)
    {steps : List Step} (hguard : ∀ w, ∀ a ∈ steps, guard w a) (hrun : w.run steps = some w') :
    buttons.Reached guard w' := by
  induction steps generalizing w with
  | nil =>
    cases hrun
    exact h
  | cons a steps ih =>
    rw [World.run, Option.bind_eq_some_iff] at hrun
    obtain ⟨w₁, hstep, hrest⟩ := hrun
    have hnext : buttons.Reached guard w₁ := .step h (hguard w a List.mem_cons_self) hstep
    exact ih hnext (fun w a ha => hguard w a (List.mem_cons_of_mem _ ha)) hrest

/-- A button is pressed, by a call that runs to its end. -/
def pressed (btnId : Nat) : List Step := [.press btnId, .handler 0, .handler 0, .handler 0]

/-- Up to the state in which buttons are notified. -/
def started : List Step := [.post .timeSyncSuccess, .post .capabilitySuccess, .take, .take]

/-- One press that is sent. -/
def timelySteps : List Step :=
  started ++ pressed 0 ++ [.timer, .timerSend true, .take, .readBit, .readBit, .readBit, .readBit,
    .send true]

/-- The flag may be cleared behind it. -/
theorem presses_remembered_timely : ∃ w w', initialWorld.run timelySteps = some w ∧
    w.clearFlag = some w' ∧ w'.Flagged ∧ w'.Remembers := by
  obtain ⟨w, hw, hnotified, hsecond, hthird, hfourth, htx⟩ :
      ∃ w, initialWorld.run timelySteps = some w ∧ w.notified 0 = true ∧ w.pressMask 1 = false ∧
        w.pressMask 2 = false ∧ w.pressMask 3 = false ∧ w.tx = .sent :=
    ⟨_, rfl, rfl, rfl, rfl, rfl, rfl⟩
  have htimely : Timely w .clearFlag := by
    rintro b hb hpress hnot
    unfold appButtonsMax at hb
    interval_cases b
    · rw [hnotified] at hnot
      cases hnot
    · rw [hsecond] at hpress
      cases hpress
    · rw [hthird] at hpress
      cases hpress
    · rw [hfourth] at hpress
      cases hpress
  have hclear : w.clearFlag = some { w with pendingProcessing := false, tx := .waiting } := by
    rw [World.clearFlag, htx]
  have hreached : buttons.Reached Timely w := by
    refine reached_run (.init rfl) (fun w a ha => ?_) hw
    cases a with
    | clearFlag => exact absurd ha (by decide)
    | _ => trivial
  exact ⟨w, _, hw, hclear, presses_remembered (.step (a := .clearFlag) hreached htimely hclear)⟩

/-- The second button is pressed after its bit was read. -/
def lateSteps : List Step :=
  started ++ pressed 0 ++ [.timer, .timerSend true, .take, .readBit, .readBit] ++ pressed 1 ++
    [.readBit, .readBit, .send true, .clearFlag]

/-- The press of the second button is forgotten, and no call is under way. -/
theorem late_press_forgotten : ∃ w, buttons.Reachable w ∧ w.calls = [] ∧ ¬w.Remembers := by
  obtain ⟨w, hw, hpress, hnotified, hflag, hmsgq, htx, hcalls⟩ :
      ∃ w, initialWorld.run lateSteps = some w ∧ w.pressMask 1 = true ∧ w.notified 1 = false ∧
        w.pendingProcessing = false ∧ w.msgq = [] ∧ w.tx = .waiting ∧ w.calls = [] :=
    ⟨_, rfl, rfl, rfl, rfl, rfl, rfl, rfl⟩
  refine ⟨w, reached_run (.init rfl) (fun _ _ _ => trivial) hw, hcalls, fun h => ?_⟩
  rcases h 1 (by decide) hpress hnotified with (hset | hmem | ⟨i, buttonArr, hread, -⟩) | hcall
  · rw [hflag] at hset
    cases hset
  · rw [hmsgq] at hmem
    cases hmem
  · rw [htx] at hread
    cases hread
  · rw [hcalls] at hcall
    cases hcall

end Sidewalk.Buttons
