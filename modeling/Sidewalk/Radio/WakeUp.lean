import Sidewalk.Radio.Sx126x

/-!
# Waking the SX126x

`sx126x_hal_wakeup` disables the interrupts while it pulls the chip select and polls the busy line.
It enables them again where everything went well, and nowhere else, so that a wake-up that fails
locks the interrupts under whatever made it.
-/

namespace Sidewalk.Radio.Sx126x

open Lib Lib.Access Lib.Attempt
open Lib.Program (make Runs Executes runs_bind runs_make_bind)

/-! ## The code -/

def semtechMaxWaitOnBusyCntUs : Nat := 2000

/-- The calls under a wake-up. A call of the GPIO driver replies whether it succeeded, and reading
the busy line whether it was read low. -/
inductive HalCall
  | enterCriticalRegion
  | exitCriticalRegion
  | powerInput
  | int1Connect
  | busyConnect
  | int1Enable
  | selectorOutput
  | selectorWrite (level : Bool)
  | busyRead
  | delay
  deriving DecidableEq

abbrev HalProgram := Program HalCall Bool

/-- `set_gpio_cfg_awake`, whose results are ignored. -/
def setGpioCfgAwake : HalProgram Unit := do
  let _ ← make .powerInput
  if ← make .int1Connect then do
    let _ ← make .busyConnect
    let _ ← make .int1Enable
  else do
    let _ ← make .int1Enable

/-- The loop of `sx126x_wait_on_busy`, with the turns that are left, and `cnt` at its end. -/
def waitLoop : Nat → Nat → HalProgram Nat
  | 0, cnt => pure (cnt + 1)
  | left + 1, cnt => do
    if ← make .busyRead then pure (cnt + 1)
    else do
      let _ ← make .delay
      waitLoop left (cnt + 1)

def waitOnBusy : HalProgram Bool := do
  let cnt ← waitLoop semtechMaxWaitOnBusyCntUs 0
  pure (decide (cnt < semtechMaxWaitOnBusyCntUs))

/-- `sx126x_hal_wakeup`, and whether it returns `SX126X_HAL_STATUS_OK`. `active` is the level that
selects the chip, 0 or that of the board. -/
def halWakeup (active : Bool) : HalProgram Bool := do
  let _ ← make .enterCriticalRegion
  setGpioCfgAwake
  if ← make .selectorOutput then do
    if ← make (.selectorWrite active) then do
      if ← waitOnBusy then do
        if ← make (.selectorWrite !active) then do
          let _ ← make .exitCriticalRegion
          pure true
        else pure false
      else pure false
    else pure false
  else pure false

/-! ## The property -/

abbrev HalEvents := List (HalCall × Bool)

def entries (events : HalEvents) : Nat := events.countP fun e => e.1 = .enterCriticalRegion

def exits (events : HalEvents) : Nat := events.countP fun e => e.1 = .exitCriticalRegion

/-- What the polls of the busy line replied. -/
def polls (events : HalEvents) : List Bool :=
  (events.filter fun e => e.1 = .busyRead).map Prod.snd

/-- The levels written to the chip select. -/
def levels (events : HalEvents) : List Bool :=
  events.filterMap fun e =>
    match e with
    | (.selectorWrite level, true) => some level
    | _ => none

/-- What a wake-up owes. -/
structure WakeupSound (active : Bool) (events : HalEvents) (ok : Bool) : Prop where
  balanced : exits events = entries events
  ok_iff : ok = true ↔ (∀ level reply, (.selectorWrite level, reply) ∈ events → reply = true) ∧
    true ∈ polls events
  inactive : ok = true → (levels events).getLast? = some !active

/-- The chip select works, and the busy line is read low before the last poll. -/
structure Served (events : HalEvents) : Prop where
  output : ∀ reply, (.selectorOutput, reply) ∈ events → reply = true
  write : ∀ level reply, (.selectorWrite level, reply) ∈ events → reply = true
  low : ∃ i < semtechMaxWaitOnBusyCntUs - 1, (polls events)[i]? = some true

/-! ## Counting -/

theorem entries_cons (e : HalCall × Bool) (events : HalEvents) :
    entries (e :: events) = entries events + if e.1 = .enterCriticalRegion then 1 else 0 := by
  simp [entries, List.countP_cons]

theorem exits_cons (e : HalCall × Bool) (events : HalEvents) :
    exits (e :: events) = exits events + if e.1 = .exitCriticalRegion then 1 else 0 := by
  simp [exits, List.countP_cons]

theorem polls_cons (e : HalCall × Bool) (events : HalEvents) :
    polls (e :: events) = if e.1 = .busyRead then e.2 :: polls events else polls events := by
  unfold polls
  rw [List.filter_cons]
  by_cases h : e.1 = .busyRead <;> simp [h]

@[simp] theorem entries_nil : entries [] = 0 := rfl

@[simp] theorem exits_nil : exits [] = 0 := rfl

@[simp] theorem polls_nil : polls [] = [] := rfl

@[simp] theorem levels_nil : levels [] = [] := rfl

@[simp] theorem entries_append (xs ys : HalEvents) :
    entries (xs ++ ys) = entries xs + entries ys := List.countP_append

@[simp] theorem exits_append (xs ys : HalEvents) : exits (xs ++ ys) = exits xs + exits ys :=
  List.countP_append

@[simp] theorem polls_append (xs ys : HalEvents) : polls (xs ++ ys) = polls xs ++ polls ys := by
  simp [polls]

@[simp] theorem levels_append (xs ys : HalEvents) : levels (xs ++ ys) = levels xs ++ levels ys :=
  List.filterMap_append

/-! ## A wake-up -/

section

variable {active ok : Bool} {events : HalEvents}

/-- Calls that count nowhere. -/
def Quiet (events : HalEvents) : Prop :=
  ∀ e ∈ events, e.1 = .powerInput ∨ e.1 = .int1Connect ∨ e.1 = .busyConnect ∨ e.1 = .int1Enable

theorem runs_setGpioCfgAwake {u : Unit} (h : Runs setGpioCfgAwake events u) : Quiet events := by
  unfold setGpioCfgAwake at h
  rw [runs_make_bind] at h
  obtain ⟨r₁, rest₁, rfl, h⟩ := h
  rw [runs_make_bind] at h
  obtain ⟨r₂, rest₂, rfl, h⟩ := h
  cases r₂ with
  | true =>
    rw [if_pos rfl, runs_make_bind] at h
    obtain ⟨r₃, rest₃, rfl, r₄, rest₄, rfl, rfl, -⟩ := h
    simp [Quiet]
  | false =>
    rw [if_neg Bool.false_ne_true, runs_make_bind] at h
    obtain ⟨r₃, rest₃, rfl, rfl, -⟩ := h
    simp [Quiet]

/-- Only polls, and pauses between them. -/
def Polling (events : HalEvents) : Prop := ∀ e ∈ events, e.1 = .busyRead ∨ e.1 = .delay

/-- The loop ends at the first poll that is low, or after all of them. -/
theorem runs_waitLoop {left cnt result : Nat} (h : Runs (waitLoop left cnt) events result) :
    Polling events ∧
      ((∃ k < left, polls events = List.replicate k false ++ [true] ∧ result = cnt + k + 1) ∨
        (polls events = List.replicate left false ∧ result = cnt + left + 1)) := by
  induction left generalizing cnt events with
  | zero =>
    obtain ⟨rfl, rfl⟩ := h
    exact ⟨fun e he => absurd he List.not_mem_nil, .inr ⟨rfl, rfl⟩⟩
  | succ left ih =>
    rw [waitLoop, runs_make_bind] at h
    obtain ⟨reply, rest, rfl, h⟩ := h
    cases reply with
    | true =>
      rw [if_pos rfl] at h
      obtain ⟨rfl, rfl⟩ := h
      refine ⟨fun e he => ?_, .inl ⟨0, Nat.succ_pos left, rfl, rfl⟩⟩
      rw [List.mem_singleton.mp he]
      exact .inl rfl
    | false =>
      rw [if_neg Bool.false_ne_true, runs_make_bind] at h
      obtain ⟨reply, rest, rfl, h⟩ := h
      obtain ⟨hpolling, hpolls⟩ := ih h
      refine ⟨?_, ?_⟩
      · rintro e (_ | ⟨_, _ | ⟨_, he⟩⟩)
        · exact .inl rfl
        · exact .inr rfl
        · exact hpolling e he
      · have hcons : polls ((.busyRead, false) :: (.delay, reply) :: rest) =
            false :: polls rest := rfl
        rw [hcons]
        rcases hpolls with ⟨k, hk, hlow, rfl⟩ | ⟨hnone, rfl⟩
        · refine .inl ⟨k + 1, Nat.succ_lt_succ hk, ?_, by omega⟩
          rw [hlow]
          rfl
        · refine .inr ⟨?_, by omega⟩
          rw [hnone]
          rfl

/-- The busy line was read low before the last poll, or the wait fails. -/
theorem runs_waitOnBusy (h : Runs waitOnBusy events ok) :
    Polling events ∧ (ok = true → true ∈ polls events) ∧
      (ok = true ↔ ∃ i < semtechMaxWaitOnBusyCntUs - 1, (polls events)[i]? = some true) := by
  unfold waitOnBusy at h
  rw [runs_bind] at h
  obtain ⟨events₁, cnt, events₂, hloop, ⟨rfl, rfl⟩, rfl⟩ := h
  rw [List.append_nil, decide_eq_true_iff]
  obtain ⟨hpolling, ⟨k, hk, hlow, rfl⟩ | ⟨hnone, rfl⟩⟩ := runs_waitLoop hloop
  · refine ⟨hpolling, fun _ => ?_, fun hcnt => ⟨k, by omega, ?_⟩, ?_⟩
    · rw [hlow]
      exact List.mem_append_right _ List.mem_cons_self
    · rw [hlow, List.getElem?_append_right (by rw [List.length_replicate]), List.length_replicate,
        Nat.sub_self]
      rfl
    · rintro ⟨i, hi, hget⟩
      rw [hlow] at hget
      have hlt : i < k ∨ i = k ∨ k < i := Nat.lt_trichotomy i k
      rcases hlt with hlt | rfl | hlt
      · rw [List.getElem?_append_left (by rw [List.length_replicate]; exact hlt),
          List.getElem?_replicate, if_pos hlt] at hget
        cases hget
      · omega
      · rw [List.getElem?_eq_none (by simp; omega)] at hget
        cases hget
  · refine ⟨hpolling, fun hcnt => by omega, fun hcnt => by omega, ?_⟩
    rintro ⟨i, -, hget⟩
    rw [hnone, List.getElem?_replicate] at hget
    split at hget <;> cases hget

/-- Calls of neither the critical region nor the chip select. -/
def Plain (events : HalEvents) : Prop :=
  ∀ e ∈ events, e.1 ≠ .enterCriticalRegion ∧ e.1 ≠ .exitCriticalRegion ∧
    e.1 ≠ .selectorOutput ∧ ∀ level, e.1 ≠ .selectorWrite level

theorem Quiet.plain (h : Quiet events) : Plain events := by
  intro e he
  rcases h e he with heq | heq | heq | heq <;> simp [heq]

theorem Quiet.polls (h : Quiet events) : polls events = [] := by
  unfold Sx126x.polls
  rw [List.map_eq_nil_iff, List.filter_eq_nil_iff]
  intro e he
  rcases h e he with heq | heq | heq | heq <;> simp [heq]

theorem Polling.plain (h : Polling events) : Plain events := by
  intro e he
  rcases h e he with heq | heq <;> simp [heq]

theorem Plain.entries (h : Plain events) : entries events = 0 := by
  unfold Sx126x.entries
  rw [List.countP_eq_zero]
  intro e he
  simpa using (h e he).1

theorem Plain.exits (h : Plain events) : exits events = 0 := by
  unfold Sx126x.exits
  rw [List.countP_eq_zero]
  intro e he
  simpa using (h e he).2.1

theorem Plain.levels (h : Plain events) : levels events = [] := by
  unfold Sx126x.levels
  rw [List.filterMap_eq_nil_iff]
  rintro ⟨c, reply⟩ he
  split
  · next level heq =>
    cases heq
    exact absurd rfl ((h _ he).2.2.2 level)
  · rfl

theorem Plain.not_output (h : Plain events) (reply : Bool) : (.selectorOutput, reply) ∉ events :=
  fun he => (h _ he).2.2.1 rfl

theorem Plain.not_write (h : Plain events) (level reply : Bool) :
    (.selectorWrite level, reply) ∉ events :=
  fun he => (h _ he).2.2.2 level rfl

/-- What a wake-up comes to: everything went well, or the region is not left. -/
theorem wakeup_cases (h : Runs (halWakeup active) events ok) :
    entries events = 1 ∧
      ((ok = true ∧ exits events = 1 ∧ Served events ∧ true ∈ polls events ∧
          levels events = [active, !active]) ∨
        (ok = false ∧ exits events = 0 ∧ ¬Served events)) := by
  unfold halWakeup at h
  rw [runs_make_bind] at h
  obtain ⟨entered, rest, rfl, h⟩ := h
  rw [runs_bind] at h
  obtain ⟨cfg, u, rest, hcfg, h, rfl⟩ := h
  have hquiet := runs_setGpioCfgAwake hcfg
  have hplain := hquiet.plain
  rw [runs_make_bind] at h
  obtain ⟨output, rest, rfl, h⟩ := h
  cases output with
  | false =>
    obtain ⟨rfl, rfl⟩ := h
    refine ⟨?_, .inr ⟨rfl, ?_, fun hserved => ?_⟩⟩
    · simp [entries_cons, hplain.entries]
    · simp [exits_cons, hplain.exits]
    · have := hserved.output false (by simp)
      cases this
  | true =>
    rw [if_pos rfl, runs_make_bind] at h
    obtain ⟨selected, rest, rfl, h⟩ := h
    cases selected with
    | false =>
      obtain ⟨rfl, rfl⟩ := h
      refine ⟨?_, .inr ⟨rfl, ?_, fun hserved => ?_⟩⟩
      · simp [entries_cons, hplain.entries]
      · simp [exits_cons, hplain.exits]
      · have := hserved.write active false (by simp)
        cases this
    | true =>
      rw [if_pos rfl, runs_bind] at h
      obtain ⟨waits, low, rest, hwaits, h, rfl⟩ := h
      obtain ⟨hpolling, hsome, hlow⟩ := runs_waitOnBusy hwaits
      have hwaitsPlain := hpolling.plain
      -- All polls are those of the wait.
      have hpolls (tail : HalEvents) (htail : polls tail = []) :
          polls ((.enterCriticalRegion, entered) :: (cfg ++ (.selectorOutput, true) ::
            (.selectorWrite active, true) :: (waits ++ tail))) = polls waits := by
        simp [polls_cons, hquiet.polls, htail]
      have hlevels (tail : HalEvents) :
          levels ((.enterCriticalRegion, entered) :: (cfg ++ (.selectorOutput, true) ::
            (.selectorWrite active, true) :: (waits ++ tail))) = active :: levels tail := by
        change levels ([(.enterCriticalRegion, entered)] ++ (cfg ++
          ([(.selectorOutput, true), (.selectorWrite active, true)] ++ (waits ++ tail)))) = _
        simp only [levels_append, hplain.levels, hwaitsPlain.levels]
        rfl
      cases low with
      | false =>
        obtain ⟨rfl, rfl⟩ := h
        refine ⟨?_, .inr ⟨rfl, ?_, fun hserved => ?_⟩⟩
        · simp [entries_cons, hplain.entries, hwaitsPlain.entries]
        · simp [exits_cons, hplain.exits, hwaitsPlain.exits]
        · have hget := hserved.low
          rw [hpolls [] rfl, ← hlow] at hget
          cases hget
      | true =>
        rw [if_pos rfl, runs_make_bind] at h
        obtain ⟨released, rest, rfl, h⟩ := h
        cases released with
        | false =>
          obtain ⟨rfl, rfl⟩ := h
          refine ⟨?_, .inr ⟨rfl, ?_, fun hserved => ?_⟩⟩
          · simp [entries_cons, hplain.entries, hwaitsPlain.entries]
          · simp [exits_cons, hplain.exits, hwaitsPlain.exits]
          · have := hserved.write (!active) false (by simp)
            cases this
        | true =>
          rw [if_pos rfl, runs_make_bind] at h
          obtain ⟨exited, rest, rfl, rfl, rfl⟩ := h
          refine ⟨?_, .inl ⟨rfl, ?_, ⟨fun reply hreply => ?_, fun level reply hreply => ?_, ?_⟩,
            ?_, ?_⟩⟩
          · simp [entries_cons, hplain.entries, hwaitsPlain.entries]
          · simp [exits_cons, hplain.exits, hwaitsPlain.exits]
          · simpa [hplain.not_output, hwaitsPlain.not_output] using hreply
          · have hmem : (level = active ∧ reply = true) ∨ (level = !active) ∧ reply = true := by
              simpa [hplain.not_write, hwaitsPlain.not_write] using hreply
            rcases hmem with ⟨-, heq⟩ | ⟨-, heq⟩ <;> exact heq
          · rw [hpolls _ rfl]
            exact hlow.mp rfl
          · rw [hpolls _ rfl]
            exact hsome rfl
          · exact hlevels _

/-- A wake-up is sound exactly if it is served. -/
theorem wakeup_iff (h : Runs (halWakeup active) events ok) :
    WakeupSound active events ok ↔ Served events := by
  obtain ⟨hentries, ⟨rfl, hexits, hserved, hpolls, hlevels⟩ | ⟨rfl, hexits, hserved⟩⟩ :=
    wakeup_cases h
  · refine iff_of_true ⟨hexits.trans hentries.symm, ?_, fun _ => ?_⟩ hserved
    · exact iff_of_true rfl ⟨hserved.write, hpolls⟩
    · rw [hlevels]
      rfl
  · refine iff_of_false (fun hsound => ?_) hserved
    have hbalanced := hsound.balanced
    rw [hentries, hexits] at hbalanced
    cases hbalanced

end

/-! ## The accesses that wake the chip -/

/-- What `sx126x_hal_read` and `sx126x_hal_write` check of their arguments: which pointers are not
null, and the lengths. Both return one error, whatever fails. -/
structure HalArguments where
  context : Bool
  command : Bool
  data : Bool
  commandLength : Nat
  dataLength : Nat

def halRead (config : Config) (args : HalArguments) (op : Opcode) : Op Unit := do
  require (args.context && args.command && args.data && args.commandLength ≠ 0 &&
    args.dataLength ≠ 0) .ioError
  waitForDeviceReady config
  halRdwr op

def halWrite (config : Config) (args : HalArguments) (op : Opcode) : Op Unit := do
  require (args.context && args.command && args.commandLength ≠ 0) .ioError
  waitForDeviceReady config
  halRdwr op

inductive WakingCall
  | halRead (args : HalArguments) (op : Opcode)
  | halWrite (args : HalArguments) (op : Opcode)
  | standby

def WakingCall.code (config : Config) : WakingCall → Op Unit
  | .halRead args op => Sx126x.halRead config args op
  | .halWrite args op => Sx126x.halWrite config args op
  | .standby => Sx126x.standby config

/-- The wake-ups that were made. No other command of the driver enters the critical region. -/
inductive Wakes (active : Bool) : Semantics (List HalEvents) Command Bool
  | wakeup {wakeups events ok} : Runs (halWakeup active) events ok →
      Wakes active wakeups .wakeup ok (wakeups ++ [events])
  | other {wakeups c reply} : c ≠ .wakeup → Wakes active wakeups c reply wakeups

/-- The critical region was left as often as it was entered. -/
def Unlocked (wakeups : List HalEvents) : Prop :=
  exits wakeups.flatten = entries wakeups.flatten

instance (wakeups : List HalEvents) : Decidable (Unlocked wakeups) :=
  inferInstanceAs (Decidable (_ = _))

section

variable {active : Bool} {wakeups : List HalEvents}

/-- Runs of the wake-up only. -/
def Woken (active : Bool) (wakeups : List HalEvents) : Prop :=
  ∀ events ∈ wakeups, ∃ ok, Runs (halWakeup active) events ok

theorem Woken.executes {α : Type} {p : Op α} {drv drv' : DrvCtx} {r : Except RadioFailure α}
    (hrun : Executes (Access.Exec (Wakes active)) p.run (drv, []) r (drv', wakeups)) :
    Woken active wakeups := by
  refine hrun.invariant (fun s => Woken active s.2) ?_ fun _ h => absurd h List.not_mem_nil
  rintro s c reply t (_ | _ | hdevice) hs
  · exact hs
  · exact hs
  · cases hdevice with
    | wakeup h =>
      intro events hevents
      rcases List.mem_append.mp hevents with hold | hnew
      · exact hs events hold
      · rw [List.mem_singleton.mp hnew]
        exact ⟨reply, h⟩
    | other => exact hs

theorem Woken.exits_le (h : Woken active wakeups) :
    exits wakeups.flatten ≤ entries wakeups.flatten := by
  induction wakeups with
  | nil => exact Nat.le_refl 0
  | cons events wakeups ih =>
    rw [Woken, List.forall_mem_cons] at h
    obtain ⟨⟨ok, hrun⟩, h⟩ := h
    have hrest := ih h
    rw [List.flatten_cons, exits_append, entries_append]
    obtain ⟨hentries, ⟨-, hexits, -⟩ | ⟨-, hexits, -⟩⟩ := wakeup_cases hrun <;> omega

/-- Every wake-up counts: one that is not served is not made up for by another. -/
theorem Woken.unlocked_iff (h : Woken active wakeups) :
    Unlocked wakeups ↔ ∀ events ∈ wakeups, Served events := by
  induction wakeups with
  | nil => exact iff_of_true rfl fun _ h => absurd h List.not_mem_nil
  | cons events wakeups ih =>
    rw [Woken, List.forall_mem_cons] at h
    obtain ⟨⟨ok, hrun⟩, h⟩ := h
    have hle := Woken.exits_le h
    rw [List.forall_mem_cons, ← ih h, Unlocked, Unlocked, List.flatten_cons, exits_append,
      entries_append]
    obtain ⟨hentries, ⟨-, hexits, hserved, -⟩ | ⟨-, hexits, hserved⟩⟩ := wakeup_cases hrun
    · rw [and_iff_right hserved]
      omega
    · refine iff_of_false (fun heq => by omega) fun hand => hserved hand.1

end

/-- A wake-up is sound exactly if it is served, and an access or a change to standby, however it
ends, leaves the interrupts unlocked exactly if every wake-up in it is served. -/
theorem wakeups_sound_iff (active : Bool) :
    (∀ events ok, Runs (halWakeup active) events ok →
      (WakeupSound active events ok ↔ Served events)) ∧
    ∀ config drv (call : WakingCall) r drv' wakeups,
      Executes (Access.Exec (Wakes active)) (call.code config).run (drv, []) r (drv', wakeups) →
        (Unlocked wakeups ↔ ∀ events ∈ wakeups, Served events) :=
  ⟨fun _ _ => wakeup_iff, fun _ _ _ _ _ _ hrun => (Woken.executes hrun).unlocked_iff⟩

/-- A wake-up whose busy line is low at once. -/
def quickWakeup : HalEvents :=
  [(.enterCriticalRegion, true), (.powerInput, true), (.int1Connect, true), (.busyConnect, true),
    (.int1Enable, true), (.selectorOutput, true), (.selectorWrite false, true), (.busyRead, true),
    (.selectorWrite true, true), (.exitCriticalRegion, true)]

/-- A wake-up whose chip select cannot be made an output. -/
def failedWakeup : HalEvents :=
  [(.enterCriticalRegion, true), (.powerInput, true), (.int1Connect, true), (.busyConnect, true),
    (.int1Enable, true), (.selectorOutput, false)]

theorem runs_quickWakeup : Runs (halWakeup false) quickWakeup true :=
  ⟨_, _, rfl, _, _, rfl, _, _, rfl, _, _, rfl, _, _, rfl, _, _, rfl, _, _, rfl, _, _, rfl, _, _,
    rfl, _, _, rfl, rfl, rfl⟩

theorem runs_failedWakeup : Runs (halWakeup false) failedWakeup false :=
  ⟨_, _, rfl, _, _, rfl, _, _, rfl, _, _, rfl, _, _, rfl, _, _, rfl, rfl, rfl⟩

/-- Every command succeeds but the transfer on the bus. -/
def brokenBus (wakeups : List HalEvents) : Command → Bool × List HalEvents
  | .wakeup => (true, wakeups ++ [quickWakeup])
  | .busXfer _ => (false, wakeups)
  | _ => (true, wakeups)

/-- Every command succeeds but the wake-up. -/
def brokenSelect (wakeups : List HalEvents) : Command → Bool × List HalEvents
  | .wakeup => (false, wakeups ++ [failedWakeup])
  | _ => (true, wakeups)

theorem brokenBus_wakes (wakeups : List HalEvents) (c : Command) :
    Wakes false wakeups c (brokenBus wakeups c).1 (brokenBus wakeups c).2 := by
  cases c with
  | wakeup => exact .wakeup runs_quickWakeup
  | busXfer => exact .other (by simp)
  | _ => exact .other (by simp)

theorem brokenSelect_wakes (wakeups : List HalEvents) (c : Command) :
    Wakes false wakeups c (brokenSelect wakeups c).1 (brokenSelect wakeups c).2 := by
  cases c with
  | wakeup => exact .wakeup runs_failedWakeup
  | _ => exact .other (by simp)

def unwiredConfig : Config := ⟨fun _ => false, false, false, false, false, false⟩

def sleeping : DrvCtx := ⟨.sleep, .lora, .none⟩

theorem runs_brokenRead : Executes (Access.Exec (Wakes false))
    (WakingCall.code unwiredConfig (.halRead ⟨true, true, true, 1, 1⟩ .getIrqStatus)).run
    (sleeping, []) (.error .ioError) (sleeping, [quickWakeup]) :=
  Program.executes_eval (Access.exec_answer brokenBus_wakes) _ (sleeping, [])

theorem runs_brokenStandby : Executes (Access.Exec (Wakes false))
    (WakingCall.code unwiredConfig .standby).run
    (sleeping, []) (.error .hardwareError) (sleeping, [failedWakeup]) :=
  Program.executes_eval (Access.exec_answer brokenSelect_wakes) _ (sleeping, [])

theorem served_quickWakeup : Served quickWakeup where
  output := by simp [quickWakeup]
  write := by simp [quickWakeup]
  low := ⟨0, by decide, rfl⟩

/-- A wake-up that ends well, and a read that fails on the bus after it. -/
theorem wakeups_sound_iff_quick :
    WakeupSound false quickWakeup true ∧ Unlocked [quickWakeup] :=
  ⟨((wakeups_sound_iff false).1 quickWakeup true runs_quickWakeup).mpr served_quickWakeup,
    ((wakeups_sound_iff false).2 _ _ _ _ _ _ runs_brokenRead).mpr
      (List.forall_mem_singleton.mpr served_quickWakeup)⟩

/-- Where the chip select cannot be made an output, the wake-up does not leave the critical region,
and a change to standby fails with the interrupts locked. -/
theorem failed_wakeup_locks :
    (Runs (halWakeup false) failedWakeup false ∧ ¬WakeupSound false failedWakeup false) ∧
    Executes (Access.Exec (Wakes false)) (WakingCall.code unwiredConfig .standby).run
      (sleeping, []) (.error .hardwareError) (sleeping, [failedWakeup]) ∧
    ¬Unlocked [failedWakeup] := by
  have hlocked : ¬Unlocked [failedWakeup] := by decide
  refine ⟨⟨runs_failedWakeup, fun h => hlocked ?_⟩, runs_brokenStandby, hlocked⟩
  rw [Unlocked, List.flatten_singleton]
  exact h.balanced

end Sidewalk.Radio.Sx126x
