import Sidewalk.Radio.Interrupts.Process

/-!
# The chain of the interrupts

The chain ends in one of three ways: something is reported or started, nothing happens, or a
packet cannot be read. What is returned then depends on the last step alone, unless the radio is
asleep.
-/

namespace Sidewalk.Radio.Interrupts

/-! ## The property -/

/-- An interrupt is pending that ends an operation. -/
def ends (irq : IrqStatus) : Bool :=
  irq.txDone || irq.rxDone || irq.timeout || irq.crcError || irq.headerError || irq.cadDone

/-- An event was reported, a transmission was started, or an error is returned. -/
def Outcome.Settled {Drv : Type} (o : Outcome Drv) : Prop :=
  o.reported ≠ [] ∨ o.started = true ∨ o.err ≠ radioErrorNone

/-! ## The conditions -/

section

variable {Drv : Type} (f : Fields Drv) (steps : Steps Drv) (drv : Drv) (state : RadioState)

/-- Only enabling the interrupts gives an error. -/
def Silent : Prop := state ≠ .sleep ∧ steps.enableIrq.isSome = true

/-- An error is kept, or enabling the interrupts gives another. -/
def Faulted : Prop := state = .sleep ∨ steps.enableIrq.isSome = true

/-- The chain is reached. -/
def Read : Prop := steps.disableIrq = none ∧ steps.statusRead = true

/-- The chain reaches the interrupts of the modem. -/
def ModemReached : Prop :=
  steps.pending.txDone = false ∧ steps.pending.crcError = false ∧
    steps.pending.timeout = false ∧ steps.pending.headerError = false

/-- The transmission after a carrier sense does not start. -/
def NotStarted : Prop := f.cadExitMode drv = .csLbt ∧ steps.startTx.isSome = true

def TimeoutLost : Prop :=
  steps.pending.txDone = false ∧ steps.pending.crcError = false ∧
    steps.pending.timeout = true ∧ f.radioState drv ≠ .tx ∧ NotStarted f steps drv

/-- Where nothing is swallowed, by what the branch of the modem does: it loses an interrupt, it
cannot read a packet, or it waits for a header, which arrives. -/
structure Covered (status lost unread waits arrives : Prop) : Prop where
  disabled : steps.disableIrq.isSome = true → Faulted steps (f.radioState drv)
  unknown : steps.disableIrq = none → steps.statusRead = false → status
  timeout : Read steps → TimeoutLost f steps drv → Silent steps (f.radioState drv)
  modem : Read steps → ModemReached steps → lost → Silent steps state
  packet : Read steps → ModemReached steps → unread → Faulted steps state
  header : Read steps → ModemReached steps → waits → arrives

end

/-! ## The chain -/

section

variable {Drv : Type} {f : Fields Drv} {steps : Steps Drv} {drv : Drv} {rx : Received}
  {state : RadioState} {lost unread : Prop} {before handled : Handled Drv}

/-- The three ends of the chain. -/
inductive ChainEnd (f : Fields Drv) (lost unread : Prop) (state : RadioState) :
    Handled Drv → Prop
  | settled {handled : Handled Drv} : ¬lost → ¬unread →
      handled.event.isSome = true ∨ handled.started = true →
      ChainEnd f lost unread state handled
  | lost {drv : Drv} {rx : Received} : lost → ¬unread → f.radioState drv = state →
      ChainEnd f lost unread state (.of drv rx none)
  | unread {drv : Drv} {rx : Received} {err : Int} : ¬lost → unread → f.radioState drv = state →
      err ≠ radioErrorNone → ChainEnd f lost unread state ⟨drv, rx, none, false, err⟩

theorem ChainEnd.congr {lost' unread' : Prop} {state' : RadioState}
    (h : ChainEnd f lost unread state handled) (hlost : lost ↔ lost') (hunread : unread ↔ unread')
    (hstate : state = state') : ChainEnd f lost' unread' state' handled := by
  rwa [← propext hlost, ← propext hunread, ← hstate]

theorem ChainEnd.withDrv (h : ChainEnd f lost unread state handled) (drv : Drv) :
    ChainEnd f lost unread (f.radioState drv) { handled with drv } := by
  cases h with
  | settled hlost hunread hsettled => exact .settled hlost hunread hsettled
  | lost hlost hunread => exact .lost hlost hunread rfl
  | unread hlost hunread _ herr => exact .unread hlost hunread rfl herr

theorem transmit_end (result : Option RadioFailure) :
    ChainEnd f (result.isSome = true) False (f.radioState drv) (transmit f result drv rx) := by
  cases result with
  | none => exact .settled nofun id (.inr rfl)
  | some e => exact .lost rfl id rfl

theorem timeoutEvent_end :
    ChainEnd f (f.radioState drv ≠ .tx ∧ NotStarted f steps drv) False (f.radioState drv)
      (timeoutEvent f steps drv rx) := by
  unfold timeoutEvent NotStarted
  split
  · next htx => exact .settled (fun h => h.1 htx) id (.inl rfl)
  · next htx =>
    split
    · next hlbt =>
      exact (transmit_end steps.startTx).congr (by simp [htx, hlbt]) Iff.rfl
        (f.radioState_leaveCad drv)
    · next hlbt => exact .settled (fun h => hlbt h.2.1) id (.inl rfl)

theorem cadEvent_end :
    ChainEnd f (steps.pending.cadDetected = false ∧ NotStarted f steps drv) False
      (f.radioState drv) (cadEvent f steps drv rx) := by
  unfold cadEvent NotStarted
  by_cases hdetected : steps.pending.cadDetected = true
  · simp only [hdetected, if_true]
    exact .settled (fun h => nomatch h.1) id (.inl rfl)
  · simp only [hdetected]
    by_cases hlbt : f.cadExitMode drv = .csLbt
    · simp only [hlbt, if_true]
      cases hstart : steps.startTx with
      | none => exact .settled (fun h => nomatch h.2.2) id (.inr rfl)
      | some e => exact .lost ⟨trivial, trivial, rfl⟩ id (f.radioState_leaveCad drv)
    · simp only [hlbt, if_false]
      exact .settled (fun h => h.2.1) id (.inl rfl)

theorem preambleEvent_end :
    ChainEnd f (f.cadExitMode drv ≠ .csLbt) False (f.radioState drv)
      (preambleEvent f steps none drv rx) := by
  unfold preambleEvent
  split
  · next hlbt => exact .settled (fun h => h hlbt) id (.inl rfl)
  · next hlbt => exact .lost hlbt id rfl

theorem loraRxDone_end :
    ChainEnd f False (¬steps.lora.Readable) (f.radioState drv)
      (loraRxDone steps none drv rx) := by
  have hiff := @loraProcessRxDone_eq_none_iff steps.lora rx steps.lnaGain
  unfold loraRxDone
  simp only
  split
  · next herr => exact .settled id (fun h => h (hiff.mp herr)) (.inl rfl)
  · next herr => exact .unread id (fun h => herr (hiff.mpr h)) rfl herr

theorem fskRxDone_drv (initial : Option RadioEvent) (status : Fsk.RxDoneStatus) :
    (fskRxDone steps initial status drv rx).drv = drv := by
  unfold fskRxDone
  simp only
  split <;> rfl

theorem fskRxDone_end (status : Fsk.RxDoneStatus) :
    ChainEnd f False (FrameUnread steps.fsk status rx.frame) (f.radioState drv)
      (fskRxDone steps none status drv rx) := by
  have hend := processRxDone_end steps.lib steps.fsk steps.lnaGain rx.frame status
  unfold fskRxDone
  have hframe : ({ rx with rcvTm := steps.clock.getD rx.rcvTm } : Received).frame = rx.frame := rfl
  simp only [hframe]
  generalize Fsk.processRxDone steps.lib steps.fsk steps.lnaGain rx.frame status = r at hend ⊢
  obtain ⟨err, frame, status'⟩ := r
  cases hend with
  | good hread => exact .settled id hread (.inl rfl)
  | bad hread hstatus =>
    obtain rfl | rfl | rfl := hstatus
    · exact .settled id hread (.inl rfl)
    · exact .settled id hread (.inl rfl)
    · exact .settled id hread (.inl rfl)
  | unread hunread => exact .unread id hunread rfl (RadioFailure.code_ne_none .ioError)

/-- The event and the start that are reported before count too. -/
theorem settled_finish_iff : (finish f steps before handled).Settled ↔
    (before.event.isSome = true ∨ before.started = true) ∨
      (handled.event.isSome = true ∨ handled.started = true) ∨
        (finish f steps before handled).err ≠ radioErrorNone := by
  have hreported : (finish f steps before handled).reported ≠ [] ↔
      before.event.isSome = true ∨ handled.event.isSome = true := by
    unfold finish
    cases before.event <;> cases handled.event <;> simp
  have hstarted : (finish f steps before handled).started = true ↔
      before.started = true ∨ handled.started = true := Bool.or_eq_true _ _ ▸ Iff.rfl
  rw [Outcome.Settled, hreported, hstarted]
  tauto

/-- What the end of the chain means where nothing was reported before. -/
theorem ChainEnd.settled_iff (hend : ChainEnd f lost unread state handled)
    (hevent : before.event = none) (hstarted : before.started = false) :
    (finish f steps before handled).Settled ↔
      (lost → Silent steps state) ∧ (unread → Faulted steps state) := by
  have hbefore : ¬(before.event.isSome = true ∨ before.started = true) := by
    simp [hevent, hstarted]
  have henable : steps.enableIrq.elim radioErrorNone RadioFailure.code ≠ radioErrorNone ↔
      steps.enableIrq.isSome = true := by
    cases steps.enableIrq with
    | none => exact iff_of_false (fun h => h rfl) nofun
    | some e => exact iff_of_true e.code_ne_none rfl
  rw [settled_finish_iff, or_iff_right hbefore]
  cases hend with
  | settled hlost hunread hsettled =>
    exact iff_of_true (.inl hsettled) ⟨fun h => absurd h hlost, fun h => absurd h hunread⟩
  | lost hlost hunread hstate =>
    rw [or_iff_right (by simp [Handled.of]), imp_iff_right hlost]
    simp only [finish, Handled.of, Option.elim_none, hstate, Silent, hunread, false_implies,
      and_true]
    by_cases hsleep : state = .sleep
    · rw [if_pos hsleep]
      exact iff_of_false (fun h => h rfl) fun h => h.1 hsleep
    · rw [if_neg hsleep, henable, and_iff_right hsleep]
  | unread hlost hunread hstate herr =>
    rw [or_iff_right (by simp), imp_iff_right hunread]
    simp only [finish, Option.elim_none, hstate, Faulted, hlost, false_implies, true_and]
    by_cases hsleep : state = .sleep
    · rw [if_pos hsleep]
      exact iff_of_true herr (.inl hsleep)
    · rw [if_neg hsleep, henable, or_iff_right hsleep]

/-- The chain, by what the branch of the modem does. -/
theorem interruptEvent_end {headerEvent : RadioEvent} {lora fsk : Option (Handled Drv)}
    (hmodem : ModemReached steps → ∀ handled,
      byModem (f.modem drv) lora fsk = some handled →
        ChainEnd f lost unread state handled)
    (h : interruptEvent f steps headerEvent lora fsk drv rx = some handled) :
    (finish f steps (.of drv rx none) handled).Settled ↔
      (TimeoutLost f steps drv → Silent steps (f.radioState drv)) ∧
        (ModemReached steps → lost → Silent steps state) ∧
        (ModemReached steps → unread → Faulted steps state) := by
  unfold interruptEvent at h
  unfold TimeoutLost ModemReached
  cases htx : steps.pending.txDone with
  | true =>
    rw [htx] at h
    cases h
    simp [settled_finish_iff, Handled.of]
  | false =>
    cases hcrc : steps.pending.crcError with
    | true =>
      rw [htx, hcrc] at h
      cases h
      simp [settled_finish_iff, Handled.of]
    | false =>
      cases htimeout : steps.pending.timeout with
      | true =>
        rw [htx, hcrc, htimeout] at h
        cases h
        rw [timeoutEvent_end.settled_iff rfl rfl]
        simp
      | false =>
        cases hheader : steps.pending.headerError with
        | true =>
          rw [htx, hcrc, htimeout, hheader] at h
          cases h
          simp [settled_finish_iff, Handled.of]
        | false =>
          rw [htx, hcrc, htimeout, hheader] at h
          rw [(hmodem ⟨htx, hcrc, htimeout, hheader⟩ handled h).settled_iff rfl rfl]
          simp

theorem handleInterrupts_isSome_iff (headerEvent : RadioEvent) (statusErr : Int)
    (initial : Option RadioEvent) {lora fsk : Option (Handled Drv)} :
    (handleInterrupts f steps headerEvent statusErr initial lora fsk drv rx).isSome = true ↔
      (Read steps → ModemReached steps →
        (byModem (f.modem drv) lora fsk).isSome = true) := by
  unfold handleInterrupts Read
  cases hdisable : steps.disableIrq with
  | some e => exact iff_of_true rfl fun h => nomatch h.1
  | none =>
    cases hread : steps.statusRead with
    | false => exact iff_of_true rfl fun h => nomatch h.2
    | true =>
      unfold interruptEvent ModemReached
      cases steps.pending.txDone <;> cases steps.pending.crcError <;>
        cases steps.pending.timeout <;> cases steps.pending.headerError <;> simp

/-- The body, where nothing was reported before it. -/
theorem handleInterrupts_end {headerEvent : RadioEvent} {statusErr : Int}
    {lora fsk : Option (Handled Drv)} {status : Prop}
    (hstatus : (finish f steps (.of drv rx none) ⟨drv, rx, none, false, statusErr⟩).Settled ↔
      status)
    (hmodem : ModemReached steps → ∀ handled,
      byModem (f.modem drv) lora fsk = some handled →
        ChainEnd f lost unread state handled)
    (h : handleInterrupts f steps headerEvent statusErr none lora fsk drv rx = some handled) :
    (finish f steps (.of drv rx none) handled).Settled ↔
      (steps.disableIrq.isSome = true → Faulted steps (f.radioState drv)) ∧
        (steps.disableIrq = none → steps.statusRead = false → status) ∧
        (Read steps → TimeoutLost f steps drv → Silent steps (f.radioState drv)) ∧
        (Read steps → ModemReached steps → lost → Silent steps state) ∧
        (Read steps → ModemReached steps → unread → Faulted steps state) := by
  unfold handleInterrupts at h
  unfold Read
  cases hdisable : steps.disableIrq with
  | some e =>
    rw [hdisable] at h
    cases h
    have hend : ChainEnd f False True (f.radioState drv) ⟨drv, rx, none, false, e.code⟩ :=
      .unread id trivial rfl e.code_ne_none
    rw [hend.settled_iff rfl rfl]
    simp
  | none =>
    rw [hdisable] at h
    cases hread : steps.statusRead with
    | false =>
      rw [hread] at h
      cases h
      rw [hstatus]
      simp
    | true =>
      rw [hread] at h
      rw [interruptEvent_end hmodem h]
      simp

/-- With the fuel of the wait for a header. -/
theorem covered_iff {headerEvent : RadioEvent} {statusErr : Int} {lora : Option (Handled Drv)}
    {fsk : Nat → Option (Handled Drv)} {status waits arrives : Prop}
    (hstatus : (finish f steps (.of drv rx none) ⟨drv, rx, none, false, statusErr⟩).Settled ↔
      status)
    (hmodem : ModemReached steps → ∀ fuel handled,
      byModem (f.modem drv) lora (fsk fuel) = some handled →
        ChainEnd f lost unread state handled)
    (hwaits : (∃ fuel,
      (byModem (f.modem drv) lora (fsk fuel)).isSome = true) ↔
        (waits → arrives)) :
    (∃ fuel o, (handleInterrupts f steps headerEvent statusErr none lora (fsk fuel) drv rx).map
        (finish f steps (.of drv rx none)) = some o ∧ o.Settled) ↔
      Covered f steps drv state status lost unread waits arrives := by
  constructor
  · rintro ⟨fuel, o, ho, hsettled⟩
    obtain ⟨handled, hhandled, rfl⟩ := Option.map_eq_some_iff.mp ho
    obtain ⟨hdisabled, hunknown, htimeout, hlost, hunread⟩ :=
      (handleInterrupts_end hstatus (fun hreached => hmodem hreached fuel) hhandled).mp hsettled
    refine ⟨hdisabled, hunknown, htimeout, hlost, hunread, fun hread hreached => ?_⟩
    have hsome := (handleInterrupts_isSome_iff headerEvent statusErr none).mp
      (by rw [hhandled]; rfl) hread hreached
    exact hwaits.mp ⟨fuel, hsome⟩
  · intro h
    have hfuel : ∃ fuel, Read steps → ModemReached steps →
        (byModem (f.modem drv) lora (fsk fuel)).isSome = true := by
      by_cases hreached : Read steps ∧ ModemReached steps
      · obtain ⟨fuel, hfuel⟩ := hwaits.mpr (h.header hreached.1 hreached.2)
        exact ⟨fuel, fun _ _ => hfuel⟩
      · exact ⟨0, fun hread hmodem => absurd ⟨hread, hmodem⟩ hreached⟩
    obtain ⟨fuel, hfuel⟩ := hfuel
    obtain ⟨handled, hhandled⟩ := Option.isSome_iff_exists.mp
      ((handleInterrupts_isSome_iff headerEvent statusErr none).mpr hfuel)
    refine ⟨fuel, _, Option.map_eq_some_iff.mpr ⟨handled, hhandled, rfl⟩, ?_⟩
    exact (handleInterrupts_end hstatus (fun hreached => hmodem hreached fuel) hhandled).mpr
      ⟨h.disabled, h.unknown, h.timeout, h.modem, h.packet⟩

end

end Sidewalk.Radio.Interrupts
