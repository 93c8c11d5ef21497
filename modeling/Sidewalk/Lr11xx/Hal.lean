import Sidewalk.Lib.Script

/-!
# The bus of the LR11xx

`lr11xx_hal_rdwr` sends a command from the internal buffer. The first byte that comes back is the
status of the command before it, so a command that the chip refuses is an error of the next one.
-/

namespace Sidewalk.Lr11xx

open Lib Lib.Attempt
open Lib.Program (make Runs runs_make_bind)

/-! ## The code -/

def semtechMaxWaitOnBusyCntUs : Nat := 40000

def semtechBootloaderMaxWaitOnBusyCntUs : Nat := 400000

/-- `RADIO_LR11XX_SPI_BUFFER_SIZE`, the size of the internal buffer. -/
def radioLr11xxSpiBufferSize : Nat := 255

/-- `STATUS_OK_MASK`. -/
def statusOkMask : UInt8 := (0x02 : UInt8) <<< 1

/-- Of the statuses of a command only `LR11XX_SYSTEM_CMD_STATUS_OK` and
`LR11XX_SYSTEM_CMD_STATUS_DATA` have this bit. -/
def statusOk (stat1 : UInt8) : Bool := stat1 &&& statusOkMask != 0

/-- `LR11XX_SYSTEM_CMD_STATUS_CMD_ABORT`. -/
def statusAbort (stat1 : UInt8) : Bool := (stat1 &&& 0x0e : UInt8) = (0x05 : UInt8) <<< 1

/-- The calls under the driver. A transfer sends the internal buffer up to its length. -/
inductive HalCall
  | wakeup
  | waitOnBusy (maxWaitUs : Nat)
  | xfer (sent : List UInt8)
  | busyDirection (output : Bool)
  | busyWrite (high : Bool)
  | powerDirection
  | powerOutputMode
  | powerWrite (high : Bool)
  | delayUs (us : Nat)
  deriving DecidableEq

/-- Whether a call succeeded, and what a transfer received at each index. -/
structure HalReply where
  ok : Bool
  received : Nat → UInt8

abbrev HalProgram := Program HalCall HalReply

/-- The fields of `halo_drv_semtech_ctx_t` that a transfer reads or writes. -/
structure DrvCtx where
  aborted : Bool
  sleeping : Bool
  lastStat1 : UInt8
  lastStat2 : UInt8
  lastCommand : UInt16
  lastFailedCommand : UInt16

/-- A driver that has sent nothing yet. -/
def freshCtx : DrvCtx := ⟨false, false, 0, 0, 0, 0⟩

/-- How a driver call ends: its status, what it read, and the driver. -/
structure Outcome where
  ok : Bool
  data : List UInt8
  ctx : DrvCtx

/-- `( command[0] << 8 ) | command[1]`. -/
def commandCode (command : List UInt8) : UInt16 :=
  ((command.getD 0 0).toUInt16 <<< 8) ||| (command.getD 1 0).toUInt16

/-- What `lr11xx_hal_rdwr` makes of the status that it receives with a command. -/
def DrvCtx.note (ctx : DrvCtx) (command : List UInt8) (stat1 stat2 : UInt8) : Bool × DrvCtx :=
  let ctx := { ctx with lastStat1 := stat1 }
  let (ok, ctx) :=
    if !statusOk stat1 && ctx.lastCommand != 0 then
      if ctx.aborted && statusAbort stat1 then (true, { ctx with aborted := false })
      else (false, { ctx with aborted := false, lastFailedCommand := ctx.lastCommand })
    else (true, { ctx with aborted := false })
  let ctx := { ctx with lastStat2 := stat2, lastCommand := commandCode command }
  (ok, if ctx.lastCommand = 0x11b then { ctx with sleeping := true } else ctx)

/-- A failed wake-up is only logged. -/
def wakeIfSleeping (ctx : DrvCtx) : HalProgram DrvCtx :=
  if ctx.sleeping then do
    let reply ← make .wakeup
    pure (if reply.ok then { ctx with sleeping := false } else ctx)
  else pure ctx

/-- `lr11xx_hal_rdwr`. -/
def halRdwr (ctx : DrvCtx) (command data : List UInt8) (dataLength : Nat) (read : Bool) :
    HalProgram Outcome := do
  let ctx ← wakeIfSleeping ctx
  let waited ← make (.waitOnBusy
    (if command.getD 0 0 = 0x80 then semtechBootloaderMaxWaitOnBusyCntUs
      else semtechMaxWaitOnBusyCntUs))
  if !waited.ok then pure ⟨false, [], ctx⟩
  else do
    let first ← make (.xfer (if read then command else command ++ data))
    if !first.ok then pure ⟨false, [], ctx⟩
    else do
      let (ok, ctx) := ctx.note command (first.received 0) (first.received 1)
      if !read then pure ⟨ok, [], ctx⟩
      else do
        let waited ← make (.waitOnBusy semtechMaxWaitOnBusyCntUs)
        if !waited.ok then pure ⟨false, [], ctx⟩
        else do
          let second ← make (.xfer (List.replicate (dataLength + 1) 0))
          if !second.ok then pure ⟨false, [], ctx⟩
          else pure ⟨ok, (List.range dataLength).map fun i => second.received (i + 1),
            { ctx with lastStat1 := second.received 0 }⟩

/-- `lr11xx_hal_read`. -/
def halRead (ctx : DrvCtx) (command : List UInt8) (dataLength : Nat) : HalProgram Outcome :=
  if command.length = 0 ∨ dataLength = 0 then pure ⟨false, [], ctx⟩
  else halRdwr ctx command [] dataLength true

/-- `lr11xx_hal_write`. -/
def halWrite (ctx : DrvCtx) (command data : List UInt8) : HalProgram Outcome :=
  if command.length = 0 then pure ⟨false, [], ctx⟩
  else halRdwr ctx command data data.length false

/-! ## Transfers -/

abbrev HalEvents := List (HalCall × HalReply)

/-- What a transfer sent, and its reply. -/
abbrev Transfer := List UInt8 × HalReply

def transfer : HalCall × HalReply → Option Transfer
  | (.xfer sent, reply) => some (sent, reply)
  | _ => none

def transfers (events : HalEvents) : List Transfer := events.filterMap transfer

/-- The mark of a transfer: what it sent. -/
def sentMark (e : HalCall × HalReply) : Option (List UInt8) := (transfer e).map Prod.fst

theorem filterMap_sentMark (events : HalEvents) :
    events.filterMap sentMark = (transfers events).map Prod.fst := by
  rw [transfers, List.map_filterMap]
  rfl

@[simp] theorem transfers_nil : transfers [] = [] := rfl

@[simp] theorem transfers_append (xs ys : HalEvents) :
    transfers (xs ++ ys) = transfers xs ++ transfers ys := List.filterMap_append

@[simp] theorem transfers_cons (e : HalCall × HalReply) (events : HalEvents) :
    transfers (e :: events) = (transfer e).toList ++ transfers events := by
  cases h : transfer e <;> simp [transfers, h]

@[simp] theorem transfer_xfer {sent : List UInt8} {reply : HalReply} :
    transfer (.xfer sent, reply) = some (sent, reply) := rfl

@[simp] theorem transfer_waitOnBusy {us : Nat} {reply : HalReply} :
    transfer (.waitOnBusy us, reply) = none := rfl

@[simp] theorem transfer_wakeup {reply : HalReply} : transfer (.wakeup, reply) = none := rfl

@[simp] theorem transfer_delayUs {us : Nat} {reply : HalReply} :
    transfer (.delayUs us, reply) = none := rfl

/-- The transfer went through, and the chip had done the command before it. -/
def Confirms (t : Transfer) : Prop := t.2.ok = true ∧ statusOk (t.2.received 0) = true

/-- The transfer is longer than the internal buffer that it is copied to, or received in. -/
def Overruns (t : Transfer) : Prop := radioLr11xxSpiBufferSize < t.1.length

/-! ## What a driver call sends -/

section

variable {ctx : DrvCtx} {command data : List UInt8} {events : HalEvents} {out : Outcome}

/-- The driver knows a command before the next one, and none was aborted. -/
structure DrvCtx.Settled (ctx : DrvCtx) : Prop where
  known : ctx.lastCommand ≠ 0
  running : ctx.aborted = false

theorem note_settled {stat1 stat2 : UInt8} (h : commandCode command ≠ 0) :
    (ctx.note command stat1 stat2).2.Settled := by
  unfold DrvCtx.note
  constructor <;> grind

/-- A settled driver reports a command that the chip refused. -/
theorem statusOk_of_note {stat1 stat2 : UInt8} (hctx : ctx.Settled)
    (h : (ctx.note command stat1 stat2).1 = true) : statusOk stat1 = true := by
  obtain ⟨hknown, hrunning⟩ := hctx
  unfold DrvCtx.note at h
  grind

theorem runs_wakeIfSleeping {ctx' : DrvCtx} (h : Runs (wakeIfSleeping ctx) events ctx') :
    transfers events = [] ∧ ctx'.lastCommand = ctx.lastCommand ∧ ctx'.aborted = ctx.aborted := by
  unfold wakeIfSleeping at h
  split at h
  · obtain ⟨reply, _, rfl, rfl, rfl⟩ := h
    cases hreply : reply.ok <;> simp
  · obtain ⟨rfl, rfl⟩ := h
    simp

/-- The first transfer of a driver call, when there is one, and the driver after it. -/
structure Sends (ctx : DrvCtx) (command sent : List UInt8) (first : HalReply) (ok : Bool)
    (ctx' : DrvCtx) : Prop where
  through : first.ok = true
  confirms : ctx.Settled → ok = true → Confirms (sent, first)
  settled : commandCode command ≠ 0 → ctx'.Settled

theorem sends_note {ctx₁ : DrvCtx} {sent : List UInt8} {first : HalReply}
    (hknown : ctx₁.lastCommand = ctx.lastCommand) (haborted : ctx₁.aborted = ctx.aborted)
    (h : first.ok = true) :
    Sends ctx command sent first (ctx₁.note command (first.received 0) (first.received 1)).1
      (ctx₁.note command (first.received 0) (first.received 1)).2 where
  through := h
  confirms := by
    intro hctx hok
    have hctx₁ : ctx₁.Settled := ⟨hknown ▸ hctx.known, haborted ▸ hctx.running⟩
    exact ⟨h, statusOk_of_note hctx₁ hok⟩
  settled := note_settled

/-- A write sends its command and its data in one transfer, or nothing. -/
theorem runs_halWrite (h : Runs (halWrite ctx command data) events out) :
    (transfers events = [] ∧ out.ok = false) ∨
      ∃ first, transfers events = [(command ++ data, first)] ∧
        (out.ok = true → Sends ctx command (command ++ data) first out.ok out.ctx) := by
  unfold halWrite at h
  split at h
  · obtain ⟨rfl, rfl⟩ := h
    exact .inl ⟨rfl, rfl⟩
  · rw [halRdwr, Program.runs_bind] at h
    obtain ⟨events₁, ctx₁, events₂, hwake, h, rfl⟩ := h
    obtain ⟨hnone, hknown, haborted⟩ := runs_wakeIfSleeping hwake
    rw [runs_make_bind] at h
    obtain ⟨waited, rest, rfl, h⟩ := h
    cases hwaited : waited.ok with
    | false =>
      simp only [hwaited, Bool.not_false, if_true] at h
      obtain ⟨rfl, rfl⟩ := h
      exact .inl ⟨by simp [hnone], rfl⟩
    | true =>
      simp only [hwaited, Bool.not_true, Bool.false_eq_true, if_false, Bool.not_false, if_true]
        at h
      rw [runs_make_bind] at h
      obtain ⟨first, rest, rfl, h⟩ := h
      refine .inr ⟨first, ?_⟩
      cases hfirst : first.ok with
      | false =>
        simp only [hfirst, Bool.not_false, if_true] at h
        obtain ⟨rfl, rfl⟩ := h
        simp [hnone]
      | true =>
        simp only [hfirst, Bool.not_true, Bool.false_eq_true, if_false] at h
        obtain ⟨rfl, rfl⟩ := h
        exact ⟨by simp [hnone], fun _ => sends_note hknown haborted hfirst⟩

/-- The zeros that a read sends for its answer. -/
def answerZeros (dataLength : Nat) : List UInt8 := List.replicate (dataLength + 1) 0

/-- How a read ends without the answer. -/
structure Unanswered (command : List UInt8) (dataLength : Nat) (events : HalEvents)
    (out : Outcome) : Prop where
  failed : out.ok = false
  begins : (transfers events).map Prod.fst <+: [command, answerZeros dataLength]
  empty : out.data = []
  silent : command ≠ answerZeros dataLength →
    ∀ t ∈ transfers events, t.1 = answerZeros dataLength → t.2.ok = false

/-- A read sends its command, and then zeros for the answer. -/
theorem runs_halRead {dataLength : Nat} (h : Runs (halRead ctx command dataLength) events out) :
    Unanswered command dataLength events out ∨
      ∃ first second, transfers events = [(command, first), (answerZeros dataLength, second)] ∧
        second.ok = true ∧
        out.data = (List.range dataLength).map (fun i => second.received (i + 1)) ∧
        Sends ctx command command first out.ok out.ctx := by
  unfold halRead at h
  split at h
  · obtain ⟨rfl, rfl⟩ := h
    exact .inl ⟨rfl, List.nil_prefix, rfl, by simp⟩
  · rw [halRdwr, Program.runs_bind] at h
    obtain ⟨events₁, ctx₁, events₂, hwake, h, rfl⟩ := h
    obtain ⟨hnone, hknown, haborted⟩ := runs_wakeIfSleeping hwake
    rw [runs_make_bind] at h
    obtain ⟨waited, rest, rfl, h⟩ := h
    cases hwaited : waited.ok with
    | false =>
      simp only [hwaited, Bool.not_false, if_true] at h
      obtain ⟨rfl, rfl⟩ := h
      exact .inl ⟨rfl, by simp [hnone], rfl, by simp [hnone]⟩
    | true =>
      simp only [hwaited, Bool.not_true, Bool.false_eq_true, if_false, if_true] at h
      rw [runs_make_bind] at h
      obtain ⟨first, rest, rfl, h⟩ := h
      cases hfirst : first.ok with
      | false =>
        simp only [hfirst, Bool.not_false, if_true] at h
        obtain ⟨rfl, rfl⟩ := h
        exact .inl ⟨rfl, by simp [hnone], rfl, fun hne => by simp [hnone, hne]⟩
      | true =>
        simp only [hfirst, Bool.not_true, Bool.false_eq_true, if_false] at h
        rw [runs_make_bind] at h
        obtain ⟨waited₂, rest, rfl, h⟩ := h
        cases hwaited₂ : waited₂.ok with
        | false =>
          simp only [hwaited₂, Bool.not_false, if_true] at h
          obtain ⟨rfl, rfl⟩ := h
          exact .inl ⟨rfl, by simp [hnone], rfl, fun hne => by simp [hnone, hne]⟩
        | true =>
          simp only [hwaited₂, Bool.not_true, Bool.false_eq_true, if_false] at h
          rw [runs_make_bind] at h
          obtain ⟨second, rest, rfl, h⟩ := h
          cases hsecond : second.ok with
          | false =>
            simp only [hsecond, Bool.not_false, if_true] at h
            obtain ⟨rfl, rfl⟩ := h
            exact .inl ⟨rfl, by simp [hnone, answerZeros], rfl, fun hne => by
              simp [hnone, hne, hsecond]⟩
          | true =>
            simp only [hsecond, Bool.not_true, Bool.false_eq_true, if_false] at h
            obtain ⟨rfl, rfl⟩ := h
            have hsends := @sends_note ctx command _ command _ hknown haborted hfirst
            refine .inr ⟨first, second, by simp [hnone, answerZeros], hsecond, rfl, ?_⟩
            exact ⟨hfirst, hsends.confirms, fun hcode =>
              ⟨(hsends.settled hcode).known, (hsends.settled hcode).running⟩⟩

/-- A chip that answers a call by the transfer before it. -/
def answering (answer : List UInt8 → HalReply) (last : List UInt8) :
    HalCall → HalReply × List UInt8
  | .xfer sent => (answer last, sent)
  | _ => (answer last, last)

/-- On such a chip each transfer is answered by the one before it. -/
theorem isChain_answering {α : Type} (answer : List UInt8 → HalReply) (last : Transfer)
    (p : HalProgram α) :
    (last :: transfers (p.traceFrom (answering answer) last.1).1).IsChain
      fun t t' => t'.2 = answer t.1 := by
  induction p generalizing last with
  | pure a => exact List.isChain_singleton last
  | call c next ih =>
    cases c with
    | xfer sent => exact List.isChain_cons_cons.mpr ⟨rfl, ih _ (sent, answer last.1)⟩
    | _ => exact ih _ last

/-- A read whose replies are all good, of a command that does not send the chip to sleep. -/
theorem exists_runs_halRead {dataLength : Nat} {reply : HalReply} (hawake : ctx.sleeping = false)
    (hcommand : command ≠ []) (hcode : commandCode command ≠ 0x11b) (hlength : 0 < dataLength)
    (hok : reply.ok = true) (hstatus : statusOk (reply.received 0) = true) :
    ∃ events ctx', Runs (halRead ctx command dataLength) events
        ⟨true, (List.range dataLength).map (fun i => reply.received (i + 1)), ctx'⟩ ∧
      transfers events = [(command, reply), (answerZeros dataLength, reply)] ∧
      ctx'.sleeping = false := by
  have hne : ¬(command.length = 0 ∨ dataLength = 0) := by
    rw [List.length_eq_zero_iff]
    exact not_or.mpr ⟨hcommand, by omega⟩
  have hnote : (ctx.note command (reply.received 0) (reply.received 1)).1 = true := by
    simp [DrvCtx.note, hstatus]
  have hsleeping : (ctx.note command (reply.received 0) (reply.received 1)).2.sleeping = false := by
    simp [DrvCtx.note, hstatus, hcode, hawake]
  refine ⟨[(.waitOnBusy (if command.getD 0 0 = 0x80 then semtechBootloaderMaxWaitOnBusyCntUs
      else semtechMaxWaitOnBusyCntUs), reply), (.xfer command, reply),
    (.waitOnBusy semtechMaxWaitOnBusyCntUs, reply), (.xfer (answerZeros dataLength), reply)],
    { (ctx.note command (reply.received 0) (reply.received 1)).2 with
      lastStat1 := reply.received 0 }, ?_, rfl, hsleeping⟩
  rw [halRead, if_neg hne, halRdwr, wakeIfSleeping, if_neg (by simp [hawake]),
    Program.runs_pure_bind]
  refine runs_make_bind.mpr ⟨reply, _, rfl, ?_⟩
  rw [hok, Bool.not_true, if_neg Bool.false_ne_true, if_pos rfl]
  refine runs_make_bind.mpr ⟨reply, _, rfl, ?_⟩
  rw [hok, Bool.not_true, if_neg Bool.false_ne_true]
  refine runs_make_bind.mpr ⟨reply, _, rfl, ?_⟩
  rw [hok, Bool.not_true, if_neg Bool.false_ne_true]
  refine runs_make_bind.mpr ⟨reply, _, rfl, ?_⟩
  rw [hok, Bool.not_true, if_neg Bool.false_ne_true]
  exact ⟨rfl, congrArg (fun ok => (⟨ok, _, _⟩ : Outcome)) hnote.symm⟩

end

end Sidewalk.Lr11xx
