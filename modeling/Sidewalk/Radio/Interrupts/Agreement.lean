import Sidewalk.Radio.Interrupts.Process

/-!
# The interrupt routine of the LR11xx at its two levels

`Radio.Lr11xx.irqProcess` makes the commands, which may be replied to in any way and between which
other calls may come; `irqProcess` here has the packets and the results. What the second does, the
first does too when it is not disturbed and the replies are those of the second.
-/

namespace Sidewalk.Radio.Interrupts.Lr11xx

open Lib Lib.Access Lib.Attempt Radio.Lr11xx

/-! ## Replies -/

/-- The callback and the hooks leave the driver as it is, and a standby succeeds. -/
structure Steps.Alone (steps : Steps) : Prop where
  reported : ∀ event drv, steps.reported event drv = drv
  standby : ∀ drv, steps.standby drv = { drv with radioState := .standby }
  wifiPostHook : steps.wifiPostHook = none
  gnssPostHook : steps.gnssPostHook = none

/-- The result of a start, of which a call makes at most one. -/
def Steps.startResult (steps : Steps) (drv : DrvCtx) : Option RadioFailure :=
  if drv.timeoutSim = .rx then steps.simulatedStartTx else steps.startTx

def Steps.fskResult (steps : Steps) (rx : Received) : Fsk.RadioError :=
  (Fsk.processRxDone steps.lib steps.fsk steps.lnaGain rx.frame .ok).1

def Steps.packetTaken (steps : Steps) (drv : DrvCtx) (rx : Received) : Bool :=
  byModem drv.modem
    (decide ((loraProcessRxDone steps.lora steps.lnaGain rx).1 = radioErrorNone))
    (decide (steps.fskResult rx = .none))

/-- What the chip, the timer and the pins reply. -/
def Steps.reply (steps : Steps) (drv : DrvCtx) (rx : Received) : Command → Bool
  | .setDioIrqParams => steps.disableIrq.isNone
  | .getAndClearIrqStatus => steps.statusRead
  | .setTx | .timerArm _ .tx _ => (steps.startResult drv).isNone
  | .timerArm _ _ _ => steps.armed
  | .timerIsArmed => false
  | .processRxDone => steps.packetTaken drv rx
  | .rxErrorReported => decide (steps.fskResult rx = .generic)
  | .lastCommandScan => steps.lastCommandScan
  | _ => true

def heard : Command → List RadioEvent
  | .report event _ => [event]
  | _ => []

/-- Commands are replied to by a function, and the events that are reported are kept. -/
def device (reply : Command → Bool) : Semantics (List RadioEvent) Command Bool :=
  fun events c r events' => r = reply c ∧ events' = events ++ heard c

/-- With these replies the operation ends with this result and in this state. -/
def Leads {α : Type} (reply : Command → Bool) (p : Op α) (s : DrvCtx × List RadioEvent) (a : α)
    (t : DrvCtx × List RadioEvent) : Prop :=
  Ensures (Exec (device reply)) (fun _ => True) (fun b u => b = a ∧ u = t) (fun _ _ => False) p s

section

variable {α β : Type} {reply : Command → Bool} {s t u : DrvCtx × List RadioEvent}

theorem Leads.bind {p : Op α} {f : α → Op β} {a : α} {b : β} (h : Leads reply p s a t)
    (hf : Leads reply (f a) t b u) : Leads reply (p >>= f) s b u := by
  rw [Leads, ensures_bind]
  refine h.mono (fun _ h => h) ?_ fun _ _ h => h
  rintro _ _ ⟨rfl, rfl⟩
  exact hf

theorem leads_pure {a : α} : Leads reply (pure a) s a s := ⟨rfl, rfl⟩

theorem leads_test {p : DrvCtx → Bool} : Leads reply (test p) s (p s.1) s := by
  rw [Leads, ensures_test]
  exact ⟨trivial, rfl, rfl⟩

theorem leads_modify {f : DrvCtx → DrvCtx} : Leads reply (modify f) s () (f s.1, s.2) := by
  rw [Leads, ensures_modify]
  exact ⟨trivial, rfl, rfl⟩

theorem leads_ask {c : Command} : Leads reply (ask c) s (reply c) (s.1, s.2 ++ heard c) := by
  rw [Leads, ensures_ask]
  rintro _ _ ⟨rfl, rfl⟩
  exact ⟨trivial, rfl, rfl⟩

theorem leads_ignore {c : Command} : Leads reply (ignore c) s () (s.1, s.2 ++ heard c) :=
  leads_ask.bind leads_pure

/-- A command that only asks or writes. -/
theorem leads_silent {c : Command} (h : heard c = []) : Leads reply (ask c) s (reply c) s := by
  have := @leads_ask reply s c
  rwa [h, List.append_nil] at this

theorem exists_run {α : Type} (reply : Command → Bool) (p : Op α) (s : DrvCtx × List RadioEvent) :
    ∃ r t, Program.Executes (Exec (device reply)) p.run s r t :=
  let replies (events : List RadioEvent) (c : Command) := (reply c, events ++ heard c)
  have hreplies : ∀ events c, device reply events c (replies events c).1 (replies events c).2 :=
    fun _ _ => ⟨rfl, rfl⟩
  ⟨_, _, Program.executes_eval (exec_answer hreplies) p.run s⟩

theorem leads_then {p : DrvCtx → Bool} {q : Bool → Op β} {b : β}
    (h : Leads reply (q (p s.1)) s b u) : Leads reply (test p >>= q) s b u :=
  leads_test.bind h

end

section

variable {steps : Steps} {config : Config} {drv₀ drv : DrvCtx} {rx rx' : Received}
  {events : List RadioEvent}

theorem leads_startTx : Leads (steps.reply drv₀ rx) (regardless (startTx config)) (drv, events) ()
    ((transmit fields (steps.startResult drv₀) drv rx').drv, events) := by
  rw [Leads, ensures_regardless]
  by_cases hscan : drv.radioState = .scan
  · cases hresult : steps.startResult drv₀ <;>
      simp [startTx, startTxScan, startTimeoutSim, DrvCtx.scanning, hscan, device, heard,
        Steps.reply, hresult, transmit, fields, Handled.of]
  · cases hresult : steps.startResult drv₀ <;>
      simp [startTx, startTxRadio, setRadioMode, writePin, clearIrqStatusAll, setState,
        DrvCtx.scanning, hscan, device, heard, Steps.reply, hresult, transmit, fields, Handled.of]

theorem leads_standby : Leads (steps.reply drv₀ rx) (regardless (standby config)) (drv, events) ()
    (if drv.radioState = .scan then drv else { drv with radioState := .standby }, events) := by
  rw [Leads, ensures_regardless]
  by_cases hscan : drv.radioState = .scan
  · simp [standby, DrvCtx.scanning, hscan]
  by_cases hstandby : drv.radioState = .standby
  · have hsame : { drv with radioState := .standby } = drv := by rw [← hstandby]
    simp [standby, standbyRadio, DrvCtx.scanning, hstandby, hsame]
  by_cases hsleep : drv.radioState = .sleep
  · simp [standby, standbyRadio, wakeUp, setRadioMode, writePin, clearIrqStatusAll, setState,
      DrvCtx.scanning, hsleep, device, heard, Steps.reply]
  · simp [standby, standbyRadio, setRadioMode, writePin, clearIrqStatusAll, setState,
      DrvCtx.scanning, hscan, hstandby, hsleep, device, heard, Steps.reply]

theorem leads_rearm : Leads (steps.reply drv₀ rx) (do
      only (drv.deferredTimeout ≠ 0) do
        regardless (startTimeoutSim drv.deferredTimeout .rx true)
        modify fun drv => { drv with deferredTimeout := 0 })
    ({ drv with timeoutSim := .off }, events) () (rearm steps drv, events) := by
  by_cases hdeferred : drv.deferredTimeout = 0
  · simp [Leads, rearm, hdeferred]
  · cases harmed : steps.armed <;>
      simp [Leads, rearm, hdeferred, startTimeoutSim, device, heard, Steps.reply, harmed]

theorem leads_simulatedInterrupt (h : steps.Alone) :
    let before := simulatedInterrupt steps drv rx'
    Leads (steps.reply drv rx) (Radio.Lr11xx.simulatedInterrupt config drv.deferredTimeout)
      (drv, events) before.event (before.drv, events ++ before.event.toList) := by
  intro before
  cases hsim : drv.timeoutSim with
  | off =>
    have hbefore : before = .of drv rx' none := by simp [before, simulatedInterrupt, hsim]
    rw [hbefore, Handled.of]
    refine leads_then ?_
    simp [hsim, Leads]
  | tx =>
    have hbefore : before = .of { drv with timeoutSim := .off } rx' (some .txDone) := by
      simp [before, simulatedInterrupt, hsim, h.reported]
    rw [hbefore, Handled.of]
    refine leads_then ?_
    simp [hsim, Leads, device, heard]
  | rx =>
    refine leads_then ?_
    simp only [hsim, decide_true, if_true]
    refine leads_modify.bind (leads_rearm.bind (leads_then ?_))
    by_cases hmode : (rearm steps drv).cadExitMode = .csLbt
    · have hbefore : before = transmit fields steps.simulatedStartTx
          { rearm steps drv with cadExitMode := .none } rx' := by
        simp [before, simulatedInterrupt, hsim, hmode]
      have hresult : steps.startResult drv = steps.simulatedStartTx := if_pos hsim
      have hevent : before.event = none := by
        rw [hbefore, transmit]
        split <;> rfl
      rw [hevent, hbefore, ← hresult]
      simp only [hmode, decide_true, if_true]
      rw [Option.toList_none, List.append_nil]
      exact leads_modify.bind (leads_startTx.bind leads_pure)
    · have hbefore : before = .of (rearm steps drv) rx' (some .rxTimeout) := by
        simp [before, simulatedInterrupt, hsim, hmode, h.reported]
      rw [hbefore, Handled.of]
      simp only [hmode, decide_false, Bool.false_eq_true, if_false]
      exact leads_ignore.bind leads_pure

end

/-- The commands end as the routine with results handles the interrupt. -/
def Serves (reply : Command → Bool) (p : Op Assigned) (initial : Option RadioEvent) (drv : DrvCtx)
    (events : List RadioEvent) (handled : Handled DrvCtx) : Prop :=
  ∃ assigned, assigned.getD initial = handled.event ∧
    Leads reply p (drv, events) assigned (handled.drv, events)

section

variable {steps : Steps} {config : Config} {drv₀ drv : DrvCtx} {rx rx' : Received}
  {initial : Option RadioEvent} {events : List RadioEvent} {handled : Handled DrvCtx}

theorem serves_then {p : DrvCtx → Bool} {q : Bool → Op Assigned} {reply : Command → Bool}
    (h : Serves reply (q (p drv)) initial drv events handled) :
    Serves reply (test p >>= q) initial drv events handled := by
  obtain ⟨assigned, hevent, hleads⟩ := h
  exact ⟨assigned, hevent, leads_then hleads⟩

theorem transmit_event {result : Option RadioFailure} :
    (transmit fields result drv rx).event = none := by
  unfold transmit
  split <;> rfl

theorem serves_timeoutEvent
    (hstart : drv.cadExitMode = .csLbt → steps.startResult drv₀ = steps.startTx) :
    Serves (steps.reply drv₀ rx) (Radio.Lr11xx.timeoutEvent config) initial drv events
      (timeoutEvent fields steps.toSteps drv rx') := by
  refine serves_then ?_
  by_cases htx : drv.radioState = .tx
  · have hhandled : timeoutEvent fields steps.toSteps drv rx' = .of drv rx' (some .txTimeout) :=
      if_pos htx
    rw [hhandled, htx]
    exact ⟨some (some .txTimeout), rfl, leads_pure⟩
  simp only [htx, decide_false, Bool.false_eq_true, if_false]
  refine serves_then ?_
  by_cases hmode : drv.cadExitMode = .csLbt
  · have hhandled : timeoutEvent fields steps.toSteps drv rx' =
        transmit fields steps.startTx { drv with cadExitMode := .none } rx' :=
      (if_neg htx).trans (if_pos hmode)
    rw [hhandled, ← hstart hmode]
    simp only [hmode, decide_true, if_true]
    exact ⟨some none, transmit_event.symm, leads_modify.bind (leads_startTx.bind leads_pure)⟩
  · have hhandled : timeoutEvent fields steps.toSteps drv rx' = .of drv rx' (some .rxTimeout) :=
      (if_neg htx).trans (if_neg hmode)
    rw [hhandled]
    simp only [hmode, decide_false, Bool.false_eq_true, if_false]
    exact ⟨some (some .rxTimeout), rfl, leads_pure⟩

theorem serves_cadEvent
    (hstart : drv.cadExitMode = .csLbt → steps.startResult drv₀ = steps.startTx) :
    Serves (steps.reply drv₀ rx) (Radio.Lr11xx.cadEvent config steps.pending) initial drv events
      (cadEvent fields steps.toSteps drv rx') := by
  refine serves_then ?_
  cases hdetected : steps.pending.cadDetected with
  | true =>
    refine ⟨some (some .cadDone), by simp [cadEvent, hdetected, Handled.of], ?_⟩
    simp [Leads, hdetected, cadEvent, Handled.of, fields]
  | false =>
    by_cases hmode : drv.cadExitMode = .csLbt
    · have hhandled : cadEvent fields steps.toSteps drv rx' =
          { transmit fields steps.startTx drv rx' with
            drv := fields.leaveCad (transmit fields steps.startTx drv rx').drv } := by
        simp only [cadEvent, hdetected, Bool.false_eq_true, if_false]
        rw [if_pos (show fields.cadExitMode drv = .csLbt from hmode)]
      refine ⟨some none, by rw [hhandled, Option.getD_some, transmit_event], ?_⟩
      rw [hhandled, ← hstart hmode]
      simp only [hmode, decide_true, Bool.not_false, Bool.and_self]
      exact leads_startTx.bind (leads_modify.bind leads_pure)
    · refine ⟨some (some .cadTimeout), by simp [cadEvent, hdetected, hmode, fields, Handled.of], ?_⟩
      simp [Leads, hdetected, hmode, cadEvent, Handled.of, fields]

theorem leads_scanDone (h : steps.Alone) : Leads (steps.reply drv₀ rx)
    (Radio.Lr11xx.scanDone steps.pending) (drv, events) () (scanDone steps drv, events) := by
  cases hwifi : steps.pending.wifiScanDone <;> cases hgnss : steps.pending.gnssScanDone <;>
    cases herror : steps.pending.cmdError <;> cases hlast : steps.lastCommandScan <;>
    by_cases hscan : drv.radioState = .scan <;>
    simp [Leads, Radio.Lr11xx.scanDone, scanDone, hwifi, hgnss, herror, hlast, hscan,
      h.wifiPostHook, h.gnssPostHook, setState, DrvCtx.scanning, device, heard, Steps.reply]

theorem loraRxDone_eq : (loraRxDone steps.toSteps initial drv rx).drv = drv ∧
    (loraRxDone steps.toSteps initial drv rx).event =
      if (loraProcessRxDone steps.lora steps.lnaGain rx).1 = radioErrorNone then some .rxDone
      else initial := by
  unfold loraRxDone
  obtain ⟨err, rx⟩ := loraProcessRxDone steps.lora steps.lnaGain rx
  simp only
  split <;> exact ⟨rfl, rfl⟩

/-- A generic error of a frame is one that is reported. -/
theorem fskRxDone_eq : (fskRxDone steps.toSteps initial .ok drv rx).drv = drv ∧
    (fskRxDone steps.toSteps initial .ok drv rx).event =
      if steps.fskResult rx = .none then some .rxDone
      else if steps.fskResult rx = .generic then some .rxError else initial := by
  have hend := processRxDone_end steps.lib steps.fsk steps.lnaGain rx.frame .ok
  have hframe : ({ rx with rcvTm := steps.clock.getD rx.rcvTm } : Received).frame = rx.frame := rfl
  unfold fskRxDone Steps.fskResult
  simp only [hframe]
  generalize Fsk.processRxDone steps.lib steps.fsk steps.lnaGain rx.frame .ok = r at hend ⊢
  obtain ⟨err, frame, status⟩ := r
  cases hend with
  | good hread => exact ⟨rfl, rfl⟩
  | bad hread hstatus => obtain rfl | rfl | rfl := hstatus <;> exact ⟨rfl, rfl⟩
  | unread hread => exact ⟨rfl, rfl⟩

theorem serves_loraEvent (h : steps.Alone) (hmodem : drv₀.modem = .lora)
    (hstart : drv.cadExitMode = .csLbt → steps.startResult drv₀ = steps.startTx)
    (hcrc : steps.pending.crcError = false) :
    Serves (steps.reply drv₀ rx) (Radio.Lr11xx.loraEvent config steps.pending) initial drv events
      (loraEvent steps initial drv rx) := by
  unfold Radio.Lr11xx.loraEvent loraEvent
  by_cases hcad : steps.pending.cadDone
  · rw [if_pos hcad, if_pos hcad]
    exact serves_cadEvent hstart
  rw [if_neg hcad, if_neg hcad, hcrc, Bool.not_false, Bool.and_true]
  by_cases hrx : steps.pending.rxDone
  · rw [if_pos hrx, if_pos hrx]
    obtain ⟨hdrv, hevent⟩ := @loraRxDone_eq steps drv rx initial
    have hask : Leads (steps.reply drv₀ rx) (ask .processRxDone) (drv, events)
        (steps.packetTaken drv₀ rx) (drv, events) := leads_silent rfl
    rw [Steps.packetTaken, hmodem, byModem] at hask
    by_cases hgood : (loraProcessRxDone steps.lora steps.lnaGain rx).1 = radioErrorNone
    · rw [decide_eq_true hgood] at hask
      rw [if_pos hgood] at hevent
      exact ⟨some (some .rxDone), hevent.symm, by rw [hdrv]; exact hask.bind leads_pure⟩
    · rw [decide_eq_false hgood] at hask
      rw [if_neg hgood] at hevent
      exact ⟨none, hevent.symm, by rw [hdrv]; exact hask.bind leads_pure⟩
  · rw [if_neg hrx, if_neg hrx]
    exact ⟨none, rfl, (leads_scanDone h).bind leads_pure⟩

theorem serves_preambleEvent (h : steps.Alone) (hscan : drv.radioState ≠ .scan) :
    Serves (steps.reply drv₀ rx) (Radio.Lr11xx.preambleEvent config) initial drv events
      (preambleEvent fields steps.toSteps initial drv rx') := by
  refine serves_then ?_
  by_cases hmode : drv.cadExitMode = .csLbt
  · have hhandled : preambleEvent fields steps.toSteps initial drv rx' =
        .of { drv with cadExitMode := .none, radioState := .standby } rx' (some .csDone) := by
      rw [preambleEvent, if_pos (show fields.cadExitMode drv = .csLbt from hmode), h.standby]
      rfl
    rw [hhandled]
    simp only [hmode, decide_true, if_true]
    have hstandby : Leads (steps.reply drv₀ rx) (regardless (standby config))
        ({ drv with cadExitMode := .none }, events) ()
        ({ drv with cadExitMode := .none, radioState := .standby }, events) := by
      have := @leads_standby steps config drv₀ { drv with cadExitMode := .none } rx events
      rwa [if_neg hscan] at this
    exact ⟨some (some .csDone), rfl, leads_modify.bind (hstandby.bind leads_pure)⟩
  · have hhandled : preambleEvent fields steps.toSteps initial drv rx' = .of drv rx' initial :=
      if_neg hmode
    rw [hhandled]
    simp only [hmode, decide_false, Bool.false_eq_true, if_false]
    exact ⟨none, rfl, leads_pure⟩

theorem leads_rxDoneEvent (hmodem : drv₀.modem = .fsk) :
    ∃ assigned, assigned.getD initial = (fskRxDone steps.toSteps initial .ok drv rx).event ∧
      Leads (steps.reply drv₀ rx) rxDoneEvent (drv, events) assigned (drv, events) := by
  obtain ⟨-, hevent⟩ := @fskRxDone_eq steps drv rx initial
  have htaken : Leads (steps.reply drv₀ rx) (ask .processRxDone) (drv, events)
      (steps.packetTaken drv₀ rx) (drv, events) := leads_silent rfl
  have hreported : Leads (steps.reply drv₀ rx) (ask .rxErrorReported) (drv, events)
      (decide (steps.fskResult rx = .generic)) (drv, events) := leads_silent rfl
  rw [Steps.packetTaken, hmodem, byModem] at htaken
  by_cases hgood : steps.fskResult rx = .none
  · rw [decide_eq_true hgood] at htaken
    rw [if_pos hgood] at hevent
    exact ⟨some (some .rxDone), hevent.symm, htaken.bind leads_pure⟩
  rw [decide_eq_false hgood] at htaken
  rw [if_neg hgood] at hevent
  by_cases hgeneric : steps.fskResult rx = .generic
  · rw [decide_eq_true hgeneric] at hreported
    rw [if_pos hgeneric] at hevent
    exact ⟨some (some .rxError), hevent.symm, htaken.bind (hreported.bind leads_pure)⟩
  · rw [decide_eq_false hgeneric] at hreported
    rw [if_neg hgeneric] at hevent
    exact ⟨none, hevent.symm, htaken.bind (hreported.bind leads_pure)⟩

theorem serves_fskEvent (h : steps.Alone) (hmodem : drv₀.modem = .fsk)
    (hscan : drv.radioState ≠ .scan) {fuel : Nat}
    (hhandled : fskEvent steps fuel initial drv rx = some handled) :
    Serves (steps.reply drv₀ rx) (Radio.Lr11xx.fskEvent config steps.pending) initial drv events
      handled := by
  unfold Radio.Lr11xx.fskEvent
  unfold fskEvent at hhandled
  by_cases hsync : steps.pending.syncWordValid
  · rw [if_pos hsync] at hhandled ⊢
    obtain ⟨r, -, rfl⟩ := Option.map_eq_some_iff.mp hhandled
    have hsilent : Leads (steps.reply drv₀ rx) (ignore .processSyncWord) (drv, events) ()
        (drv, events) := (leads_silent rfl).bind leads_pure
    exact ⟨none, rfl, hsilent.bind leads_pure⟩
  rw [if_neg hsync] at hhandled ⊢
  by_cases hpreamble : steps.pending.preambleDetected
  · rw [if_pos hpreamble] at hhandled ⊢
    cases hhandled
    exact serves_preambleEvent h hscan
  rw [if_neg hpreamble] at hhandled ⊢
  by_cases hrx : steps.pending.rxDone
  · rw [if_pos hrx] at hhandled ⊢
    cases hhandled
    obtain ⟨assigned, hevent, hleads⟩ := @leads_rxDoneEvent steps drv₀ drv rx initial events hmodem
    refine ⟨assigned, hevent, ?_⟩
    rw [(@fskRxDone_eq steps drv rx initial).1]
    exact hleads.bind ((leads_scanDone h).bind leads_pure)
  · rw [if_neg hrx] at hhandled ⊢
    cases hhandled
    exact ⟨none, rfl, (leads_scanDone h).bind leads_pure⟩

theorem serves_interruptEvent (h : steps.Alone) (hmodem : drv₀.modem = drv.modem)
    (hstart : drv.cadExitMode = .csLbt → steps.startResult drv₀ = steps.startTx)
    (hscan : drv.radioState ≠ .scan) {fuel : Nat}
    (hhandled : interruptEvent fields steps.toSteps .rxTimeout
      (some (loraEvent steps initial drv rx)) (fskEvent steps fuel initial drv rx) drv rx =
        some handled) :
    Serves (steps.reply drv₀ rx) (Radio.Lr11xx.interruptEvent config steps.pending) initial drv
      events handled := by
  unfold Radio.Lr11xx.interruptEvent
  unfold interruptEvent at hhandled
  by_cases htx : steps.pending.txDone
  · rw [if_pos htx] at hhandled ⊢
    cases hhandled
    exact ⟨some (some .txDone), rfl, leads_pure⟩
  rw [if_neg htx] at hhandled ⊢
  by_cases hcrc : steps.pending.crcError
  · rw [if_pos hcrc] at hhandled ⊢
    cases hhandled
    exact ⟨some (some .rxError), rfl, leads_pure⟩
  rw [if_neg hcrc] at hhandled ⊢
  by_cases htimeout : steps.pending.timeout
  · rw [if_pos htimeout] at hhandled ⊢
    cases hhandled
    exact serves_timeoutEvent hstart
  rw [if_neg htimeout] at hhandled ⊢
  by_cases hheader : steps.pending.headerError
  · rw [if_pos hheader] at hhandled ⊢
    cases hhandled
    exact ⟨some (some .rxTimeout), rfl, leads_pure⟩
  rw [if_neg hheader] at hhandled ⊢
  refine serves_then ?_
  have hmodem' : fields.modem drv = drv.modem := rfl
  rw [hmodem'] at hhandled
  cases hmode : drv.modem with
  | lora =>
    rw [hmode, byModem] at hhandled
    cases hhandled
    exact serves_loraEvent h (hmodem.trans hmode) hstart (eq_false_of_ne_true hcrc)
  | fsk =>
    rw [hmode, byModem] at hhandled
    exact serves_fskEvent h (hmodem.trans hmode) hscan hhandled

theorem serves_readInterrupt (h : steps.Alone) (hmodem : drv₀.modem = drv.modem)
    (hstart : drv.cadExitMode = .csLbt → steps.startResult drv₀ = steps.startTx)
    (hscan : drv.radioState ≠ .scan) {fuel : Nat}
    (hhandled : handleInterrupts fields steps.toSteps .rxTimeout RadioFailure.hardwareError.code
      initial (some (loraEvent steps initial drv rx)) (fskEvent steps fuel initial drv rx) drv rx =
        some handled) :
    Serves (steps.reply drv₀ rx) (readInterrupt config steps.pending) initial drv events
      handled := by
  unfold handleInterrupts at hhandled
  have hdisable : Leads (steps.reply drv₀ rx) (ask .setDioIrqParams) (drv, events)
      steps.disableIrq.isNone (drv, events) := leads_silent rfl
  have hread : Leads (steps.reply drv₀ rx) (ask .getAndClearIrqStatus) (drv, events)
      steps.statusRead (drv, events) := leads_silent rfl
  cases hdis : steps.disableIrq with
  | some e =>
    rw [hdis] at hhandled hdisable
    cases hhandled
    exact ⟨none, rfl, hdisable.bind leads_pure⟩
  | none =>
    rw [hdis] at hhandled hdisable
    cases hstatus : steps.statusRead with
    | false =>
      rw [hstatus] at hhandled hread
      cases hhandled
      exact ⟨none, rfl, hdisable.bind (hread.bind leads_pure)⟩
    | true =>
      rw [hstatus] at hhandled hread
      obtain ⟨assigned, hevent, hleads⟩ :=
        serves_interruptEvent h hmodem hstart hscan hhandled
      exact ⟨assigned, hevent, hdisable.bind (hread.bind hleads)⟩

theorem leads_reportEvent {reply : Command → Bool} {simulated : Bool} {event : Option RadioEvent} :
    Leads reply (reportEvent simulated event) (drv, events) () (drv, events ++ event.toList) := by
  cases event with
  | none =>
    rw [Option.toList_none, List.append_nil]
    exact leads_pure
  | some event => exact leads_ignore

theorem leads_chipInterrupt (h : steps.Alone) {before : Handled DrvCtx}
    (hmodem : drv₀.modem = before.drv.modem)
    (hstart : before.drv.cadExitMode = .csLbt → steps.startResult drv₀ = steps.startTx)
    (hscan : before.drv.radioState ≠ .scan) (hrx : before.rx = rx) {fuel : Nat}
    {o : Outcome DrvCtx} (ho : chipInterrupt steps fuel before = some o) :
    Leads (steps.reply drv₀ rx) (Radio.Lr11xx.chipInterrupt config before.event steps.pending)
      (before.drv, before.event.toList) () (o.drv, o.reported) := by
  subst hrx
  obtain ⟨handled, hhandled, rfl⟩ := Option.map_eq_some_iff.mp ho
  obtain ⟨assigned, hevent, hleads⟩ := serves_readInterrupt h hmodem hstart hscan hhandled
  have hdrv : (finish fields steps.toSteps before handled).drv = handled.drv := by
    unfold finish
    cases handled.event with
    | none => rfl
    | some event => exact h.reported event handled.drv
  have hlast (s : DrvCtx × List RadioEvent) : Leads (steps.reply drv₀ before.rx) (do
      if ← test (·.radioState = .sleep) then pure () else ignore .setDioIrqParams) s () s := by
    refine leads_then ?_
    by_cases hsleep : s.1.radioState = .sleep
    · rw [if_pos (decide_eq_true hsleep)]
      exact leads_pure
    · rw [if_neg (by rw [decide_eq_false hsleep]; exact Bool.false_ne_true)]
      exact (leads_silent rfl).bind leads_pure
  rw [hdrv]
  have hreported : (finish fields steps.toSteps before handled).reported =
      before.event.toList ++ (assigned.getD before.event).toList := by
    rw [hevent]
    rfl
  rw [hreported]
  refine hleads.bind ?_
  cases assigned with
  | none => exact leads_reportEvent.bind (hlast _)
  | some event => exact leads_reportEvent.bind (hlast _)

end

section

variable {steps : Steps} {drv : DrvCtx} {rx : Received}

theorem transmit_keeps {result : Option RadioFailure} :
    (transmit fields result drv rx).drv.modem = drv.modem ∧
      (transmit fields result drv rx).drv.cadExitMode = drv.cadExitMode ∧
      (transmit fields result drv rx).rx = rx := by
  cases result with
  | some e => exact ⟨rfl, rfl, rfl⟩
  | none =>
    by_cases hscan : drv.radioState = .scan <;> simp [transmit, fields, hscan]

/-- No start is left to make where a simulated timeout made one. -/
theorem simulatedInterrupt_keeps (h : steps.Alone) :
    (simulatedInterrupt steps drv rx).drv.modem = drv.modem ∧
      (simulatedInterrupt steps drv rx).rx = rx ∧
      ((simulatedInterrupt steps drv rx).drv.cadExitMode = .csLbt →
        steps.startResult drv = steps.startTx) := by
  unfold simulatedInterrupt Steps.startResult
  cases hsim : drv.timeoutSim with
  | off => exact ⟨rfl, rfl, fun _ => if_neg nofun⟩
  | tx => simp [h.reported, Handled.of]
  | rx =>
    have hmodem : (rearm steps drv).modem = drv.modem := by
      unfold rearm
      split <;> rfl
    by_cases hmode : (rearm steps drv).cadExitMode = .csLbt
    · obtain ⟨hmodem', hmode', hrx⟩ := @transmit_keeps
        { rearm steps drv with cadExitMode := .none } rx steps.simulatedStartTx
      simp only [hmode, if_true]
      refine ⟨hmodem'.trans hmodem, hrx, fun hlbt => ?_⟩
      rw [hmode'] at hlbt
      cases hlbt
    · simp only [if_neg hmode, h.reported]
      exact ⟨hmodem, rfl, fun hlbt => absurd hlbt hmode⟩

/-- Undisturbed, and with replies that are the results, the commands leave the driver as the
routine with results does and report the same events. -/
theorem irqProcess_runs (h : steps.Alone) (config : Config) {fuel : Nat} {o : Outcome DrvCtx}
    (ho : irqProcess steps fuel drv rx = some o) :
    ∃ r, Program.Executes (Exec (device (steps.reply drv rx)))
      (Radio.Lr11xx.irqProcess config drv.deferredTimeout steps.pending).run (drv, []) r
      (o.drv, o.reported) := by
  have hleads : Leads (steps.reply drv rx)
      (Radio.Lr11xx.irqProcess config drv.deferredTimeout steps.pending) (drv, []) ()
      (o.drv, o.reported) := by
    obtain ⟨hmodem, hrx, hstart⟩ := @simulatedInterrupt_keeps steps drv rx h
    refine (@leads_simulatedInterrupt steps config drv rx rx [] h).bind ?_
    rw [List.nil_append]
    refine leads_then ?_
    unfold irqProcess at ho
    by_cases hscan : (simulatedInterrupt steps drv rx).drv.radioState = .scan
    · rw [if_pos hscan] at ho
      cases ho
      simp only [DrvCtx.scanning, hscan, decide_true, if_true]
      exact leads_pure
    · rw [if_neg hscan] at ho
      simp only [DrvCtx.scanning, hscan, decide_false, Bool.false_eq_true, if_false]
      exact leads_chipInterrupt h hmodem.symm hstart hscan hrx ho
  obtain ⟨r, t, hrun⟩ := exists_run (steps.reply drv rx)
    (Radio.Lr11xx.irqProcess config drv.deferredTimeout steps.pending) (drv, [])
  have hend := hleads.executes hrun
  cases r with
  | error e => exact hend.elim
  | ok a => exact ⟨.ok a, hend.2 ▸ hrun⟩

end

end Sidewalk.Radio.Interrupts.Lr11xx
