import Mathlib
import Sidewalk.Lib.Heap
import Sidewalk.Lib.System

/-!
# Contexts of the events

Callbacks and shell commands allocate a context, fill it and hand it to the Sidewalk thread through
its message queue. The thread releases a context after the handler has run; a producer whose event
is not queued still has it.
-/

namespace Sidewalk.App

open Sidewalk.Lib

/-! ## Events -/

/-- `sizeof` of the structures that are allocated, and the width of an `enum`. -/
structure Layout where
  sidewalkMsg : Nat
  sidStatus : Nat
  sidewalkOption : Nat
  sbdtCancelCtx : Nat
  enumBits : Nat

inductive EventHandler
  | sidewalkEventSendMsg
  | sidewalkEventNewStatus
  | sbdtEventCancel
  | sbdtEventPrintStats
  | sbdtEventPrintParams
  | other (handler : Nat)
  deriving DecidableEq

/-- The block that `ctx` points to, and the block that its `data` points to. -/
structure EventCtx where
  block : Nat
  data : Option Nat
  deriving DecidableEq

inductive CtxFree
  | sidHalFree
  | echo
  | hello
  | option
  deriving DecidableEq

/-- `sidewalk_ctx_event_t`. -/
structure Event where
  handler : EventHandler
  ctx : Option EventCtx
  ctxFree : Option CtxFree
  deriving DecidableEq

/-- `data` is released before the context that points to it. -/
def freeWithData (ctx : Option EventCtx) (h : Heap) : Heap :=
  match ctx with
  | none => h
  | some ctx => (h.release ctx.data).free ctx.block

def freeSidEchoEventCtx : Option EventCtx → Heap → Heap := freeWithData
def freeSidHelloEventCtx : Option EventCtx → Heap → Heap := freeWithData
def freeSidOptionEventCtx : Option EventCtx → Heap → Heap := freeWithData

def CtxFree.run : CtxFree → Option EventCtx → Heap → Heap
  | .sidHalFree, ctx, h => h.release (ctx.map EventCtx.block)
  | .echo, ctx, h => freeSidEchoEventCtx ctx h
  | .hello, ctx, h => freeSidHelloEventCtx ctx h
  | .option, ctx, h => freeSidOptionEventCtx ctx h

/-- The blocks of the context. -/
def Event.blocks (event : Event) : Multiset Nat :=
  event.ctx.elim 0 fun ctx => Heap.blocks ctx.data + {ctx.block}

/-- The event the thread has taken, and whether its handler has returned. The last part is the
events handled so far with whether the context was live, the last event first. -/
structure Thread where
  msgq : List Event
  current : Option (Event × Bool)
  heap : Heap
  handled : List (Event × Bool)

/-! ## The producers -/

def einval : Int := 22
def enomem : Int := 12
def enomsg : Int := 35

def Thread.sidHalMalloc (room : Bool) (size : Nat) (s : Thread) : Option Nat × Thread :=
  ((s.heap.malloc room size).1, { s with heap := (s.heap.malloc room size).2 })

def Thread.sidHalFree (block : Nat) (s : Thread) : Thread := { s with heap := s.heap.free block }

/-- `sent` is whether the queue takes the event. -/
def sidewalkEventSend (event : Event) (sent : Bool) (s : Thread) : Thread :=
  if sent then { s with msgq := s.msgq ++ [event] } else s

inductive SidMsgType
  | get
  | set
  | notify
  | response
  deriving DecidableEq

/-- `room` and `roomData` tell whether the first and the second allocation succeed. -/
def onSidewalkMsgReceived (L : Layout) (echoMsgs : Bool) (type : SidMsgType) (size : Nat)
    (room roomData sent : Bool) (s : Thread) : Thread :=
  if echoMsgs ∧ (type = .get ∨ type = .set) then
    match s.sidHalMalloc room L.sidewalkMsg with
    | (none, s) => s
    | (some echo, s) =>
      match s.sidHalMalloc roomData size with
      | (none, s) => s.sidHalFree echo
      | (some data, s) =>
        let ctx := some ⟨echo, some data⟩
        let s := sidewalkEventSend ⟨.sidewalkEventSendMsg, ctx, some .echo⟩ sent s
        if sent then s else { s with heap := freeSidEchoEventCtx ctx s.heap }
  else s

/-- The event is sent also without a context, and the result of sending is only reported. -/
def onSidewalkStatusChanged (L : Layout) (room sent : Bool) (s : Thread) : Thread :=
  match s.sidHalMalloc room L.sidStatus with
  | (newStatus, s) =>
    let ctx := newStatus.map fun block => ⟨block, none⟩
    sidewalkEventSend ⟨.sidewalkEventNewStatus, ctx, some .sidHalFree⟩ sent s

/-- The size of the payload "hello" with its terminator. -/
def helloSize : Nat := 6

def appBtnSendMsg (L : Layout) (room roomData sent : Bool) (s : Thread) : Thread :=
  match s.sidHalMalloc room L.sidewalkMsg with
  | (none, s) => s
  | (some hello, s) =>
    match s.sidHalMalloc roomData helloSize with
    | (none, s) => s.sidHalFree hello
    | (some data, s) =>
      let ctx := some ⟨hello, some data⟩
      let s := sidewalkEventSend ⟨.sidewalkEventSendMsg, ctx, some .hello⟩ sent s
      if sent then s else { s with heap := freeSidHelloEventCtx ctx s.heap }

/-- `hasData` is whether `data` is not null. -/
def cmdSidOption (L : Layout) (event : EventHandler) (hasData : Bool) (len : Nat)
    (room roomData sent : Bool) (s : Thread) : Int × Thread :=
  match s.sidHalMalloc room L.sidewalkOption with
  | (none, s) => (-enomem, s)
  | (some pOpt, s) =>
    match if hasData then s.sidHalMalloc roomData len else (none, s) with
    | (data, s) =>
      if hasData ∧ data = none then (-enomem, s)
      else
        let ctx := some ⟨pOpt, data⟩
        let s := sidewalkEventSend ⟨event, ctx, some .option⟩ sent s
        if sent then (0, s) else (-enomsg, { s with heap := freeSidOptionEventCtx ctx s.heap })

def cmdSidSimpleParam (event : EventHandler) (room sent : Bool) (s : Thread) : Int × Thread :=
  match s.sidHalMalloc room 4 with
  | (none, s) => (-enomem, s)
  | (some eventCtx, s) =>
    let s := sidewalkEventSend ⟨event, some ⟨eventCtx, none⟩, some .sidHalFree⟩ sent s
    if sent then (0, s) else (-enomsg, s.sidHalFree eventCtx)

/-! ## Arguments of the shell commands -/

def isSpace (c : UInt8) : Bool := c = 0x20 ∨ 0x09 ≤ c ∧ c ≤ 0x0D

/-- The value of a digit or a letter. -/
def digitVal (c : UInt8) : Option Nat :=
  if 0x30 ≤ c ∧ c ≤ 0x39 then some (c.toNat - 0x30)
  else if 0x41 ≤ c ∧ c ≤ 0x5A then some (c.toNat - 0x41 + 10)
  else if 0x61 ≤ c ∧ c ≤ 0x7A then some (c.toNat - 0x61 + 10)
  else none

/-- The digits of the base that the text starts with. -/
def leadingDigits (base : Nat) : List UInt8 → List Nat
  | [] => []
  | c :: rest =>
    match digitVal c with
    | none => []
    | some d => if d < base then d :: leadingDigits base rest else []

/-- The base, and the text after the prefix that selects it. -/
def strtolBase : List UInt8 → Nat × List UInt8
  | 0x30 :: x :: rest =>
    if (x = 0x58 ∨ x = 0x78) ∧ leadingDigits 16 rest ≠ [] then (16, rest) else (8, 0x30 :: x :: rest)
  | [0x30] => (8, [0x30])
  | s => (10, s)

/-- `strtol(s, &ref, 0)` with a 32-bit `long`: `none` when `ref` stays at the start. -/
def strtol (s : List UInt8) : Option Int :=
  let s := s.dropWhile isSpace
  let negative := s.head? = some 0x2D
  let s := if s.head? = some 0x2D ∨ s.head? = some 0x2B then s.tail else s
  let ds := leadingDigits (strtolBase s).1 (strtolBase s).2
  if ds = [] then none
  else
    let value : Int := ds.foldl (fun n d => n * (strtolBase s).1 + d) 0
    some (if negative then max (-value) (-2 ^ 31) else min value (2 ^ 31 - 1))

/-- The values of `enum sid_bulk_data_transfer_reject_reason`. -/
def validateReason (reason : Int) : Bool := reason ∈ [0x0, 0x1, 0x3, 0x4, 0x5, 0x9, 0xB, 0xE]

/-- The command allocates before it looks at its arguments. -/
def cmdSbdtCancel (L : Layout) (fileId reason : List UInt8) (room sent : Bool) (s : Thread) :
    Int × Thread :=
  match s.sidHalMalloc room L.sbdtCancelCtx with
  | (none, s) => (-enomem, s)
  | (some ctx, s) =>
    match strtol fileId with
    | none => (-einval, s)
    | some fileId =>
      if ¬ (0 ≤ fileId ∧ fileId ≤ 2 ^ 31 - 1) then (-einval, s)
      else
        match strtol reason with
        | none => (-einval, s)
        | some reason =>
          if validateReason (reason % 2 ^ L.enumBits) = false then (-einval, s)
          else
            (0, sidewalkEventSend ⟨.sbdtEventCancel, some ⟨ctx, none⟩, some .sidHalFree⟩ sent s)

/-- What `stats` and `params` do with their argument, if they have one. -/
def cmdSbdtPrint (event : EventHandler) (fileId : Option (List UInt8)) (room sent : Bool)
    (s : Thread) : Int × Thread :=
  match s.sidHalMalloc room 4 with
  | (none, s) => (-enomem, s)
  | (some ctx, s) =>
    if fileId.any fun fileId => (strtol fileId).isNone then (-einval, s.sidHalFree ctx)
    else (0, sidewalkEventSend ⟨event, some ⟨ctx, none⟩, some .sidHalFree⟩ sent s)

def cmdSbdtStats : Option (List UInt8) → Bool → Bool → Thread → Int × Thread :=
  cmdSbdtPrint .sbdtEventPrintStats

def cmdSbdtParams : Option (List UInt8) → Bool → Bool → Thread → Int × Thread :=
  cmdSbdtPrint .sbdtEventPrintParams

/-! ## The thread -/

/-- `k_msgq_get`, when the thread waits for an event and there is one. -/
def Thread.get (s : Thread) : Thread :=
  match s.current, s.msgq with
  | none, event :: rest => { s with msgq := rest, current := some (event, false) }
  | _, _ => s

/-- The handler runs; it reads its context and does not release it. -/
def Thread.runHandler (s : Thread) : Thread :=
  match s.current with
  | some (event, false) =>
    { s with current := some (event, true),
             handled := (event, decide (∀ block ∈ event.blocks, s.heap.Live block)) :: s.handled }
  | _ => s

/-- `ctx_free`, after the handler. -/
def Thread.runCtxFree (s : Thread) : Thread :=
  match s.current with
  | some (event, true) =>
    { s with current := none, heap := event.ctxFree.elim s.heap fun f => f.run event.ctx s.heap }
  | _ => s

/-- A call of a producer, with the answers of the allocator and of the queue, or a step of the
thread. Events of other producers have no context of these. -/
inductive ThreadLabel
  | msgReceived (type : SidMsgType) (size : Nat) (room roomData sent : Bool)
  | statusChanged (room sent : Bool)
  | btnSendMsg (room roomData sent : Bool)
  | option (event : EventHandler) (hasData : Bool) (len : Nat) (room roomData sent : Bool)
  | simpleParam (event : EventHandler) (room sent : Bool)
  | sbdtCancel (fileId reason : List UInt8) (room sent : Bool)
  | sbdtStats (fileId : Option (List UInt8)) (room sent : Bool)
  | sbdtParams (fileId : Option (List UInt8)) (room sent : Bool)
  | other (event : EventHandler) (sent : Bool)
  | get
  | runHandler
  | runCtxFree
  deriving DecidableEq

def Thread.next (L : Layout) (echoMsgs : Bool) (s : Thread) : ThreadLabel → Thread
  | .msgReceived type size room roomData sent =>
    onSidewalkMsgReceived L echoMsgs type size room roomData sent s
  | .statusChanged room sent => onSidewalkStatusChanged L room sent s
  | .btnSendMsg room roomData sent => appBtnSendMsg L room roomData sent s
  | .option event hasData len room roomData sent =>
    (cmdSidOption L event hasData len room roomData sent s).2
  | .simpleParam event room sent => (cmdSidSimpleParam event room sent s).2
  | .sbdtCancel fileId reason room sent => (cmdSbdtCancel L fileId reason room sent s).2
  | .sbdtStats fileId room sent => (cmdSbdtStats fileId room sent s).2
  | .sbdtParams fileId room sent => (cmdSbdtParams fileId room sent s).2
  | .other event sent => sidewalkEventSend ⟨event, none, none⟩ sent s
  | .get => s.get
  | .runHandler => s.runHandler
  | .runCtxFree => s.runCtxFree

/-- Producers and thread, in any order. -/
def contexts (L : Layout) (echoMsgs : Bool) : System Thread ThreadLabel where
  init s := s = ⟨[], none, .empty, []⟩
  step s a s' := s' = s.next L echoMsgs a

/-! ## Ownership -/

/-- The events that wait in the queue or are with the thread. -/
def Thread.events (s : Thread) : List Event := s.msgq ++ s.current.toList.map Prod.fst

/-- The blocks that come with events. -/
def Thread.owned (s : Thread) : Multiset Nat := (s.events.map Event.blocks).sum

/-- A block is live exactly while one event has it, every other block has been released once, and
no handler ran with a context that was not live. -/
structure Thread.Owns (s : Thread) : Prop where
  live_iff : ∀ block, s.heap.Live block ↔ block ∈ s.owned
  owner : s.owned.Nodup
  freed : ∀ block < s.heap.allocated.length,
    s.heap.freed.count block = if s.heap.Live block then 0 else 1
  handled : ∀ entry ∈ s.handled, entry.2 = true

/-- Arguments with which the command sends its event. -/
def CancelArgs (L : Layout) (fileId reason : List UInt8) : Prop :=
  (∃ id, strtol fileId = some id ∧ 0 ≤ id ∧ id ≤ 2 ^ 31 - 1) ∧
    ∃ r, strtol reason = some r ∧ validateReason (r % 2 ^ L.enumBits) = true

/-- The call leaves nothing behind: once it has a block, a status, a cancellation and the two
queries are taken by the queue, a cancellation has good arguments, and the data of an option gets
its block too. -/
def ThreadLabel.Tidy (L : Layout) : ThreadLabel → Prop
  | .statusChanged room sent => room = true → sent = true
  | .option _ hasData _ room roomData _ => room = true → hasData = true → roomData = true
  | .sbdtCancel fileId reason room sent => room = true → CancelArgs L fileId reason ∧ sent = true
  | .sbdtStats fileId room sent =>
    room = true → (∀ id ∈ fileId, (strtol id).isSome) → sent = true
  | .sbdtParams fileId room sent =>
    room = true → (∀ id ∈ fileId, (strtol id).isSome) → sent = true
  | _ => True

/-! ## What a caller holds -/

/-- `ctx_free` releases all blocks of the context. -/
def Event.Complete (event : Event) : Prop :=
  match event.ctxFree with
  | none => event.ctx = none
  | some .sidHalFree => ∀ ctx ∈ event.ctx, ctx.data = none
  | some _ => True

/-- Besides the blocks that come with events there are those that a caller has in hand. -/
structure Thread.Holds (s : Thread) (held : Multiset Nat) : Prop where
  accounts : s.heap.Accounts (s.owned + held)
  complete : ∀ event ∈ s.events, event.Complete
  handled : ∀ entry ∈ s.handled, entry.2 = true

variable {s : Thread} {held : Multiset Nat}

theorem freeWithData_accounts {h : Heap} {owned : Multiset Nat} (ctx : Option EventCtx)
    (ha : h.Accounts (owned + (ctx.elim 0 fun ctx => Heap.blocks ctx.data + {ctx.block}))) :
    (freeWithData ctx h).Accounts owned := by
  cases ctx with
  | none => simpa [freeWithData] using ha
  | some ctx =>
    have hdata : h.Accounts (owned + Heap.blocks (some ctx.block) + Heap.blocks ctx.data) := by
      rwa [add_assoc, add_comm (Heap.blocks _)]
    exact (hdata.release.release : ((h.release ctx.data).release (some ctx.block)).Accounts owned)

/-- Releasing the context of a complete event settles its account. -/
theorem Event.Complete.release {event : Event} (hc : event.Complete) {h : Heap}
    {owned : Multiset Nat} (ha : h.Accounts (owned + event.blocks)) :
    (event.ctxFree.elim h fun f => f.run event.ctx h).Accounts owned := by
  obtain ⟨handler, ctx, ctxFree⟩ := event
  cases ctxFree with
  | none =>
    obtain rfl : ctx = none := hc
    simpa [Event.blocks] using ha
  | some f =>
    cases f with
    | sidHalFree =>
      cases ctx with
      | none => simpa [Event.blocks, CtxFree.run] using ha
      | some ctx =>
        have hdata : ctx.data = none := hc ctx rfl
        have ha' : h.Accounts (owned + Heap.blocks (some ctx.block)) := by
          simpa [Event.blocks, hdata] using ha
        exact ha'.release
    | echo => exact freeWithData_accounts ctx ha
    | hello => exact freeWithData_accounts ctx ha
    | option => exact freeWithData_accounts ctx ha

theorem Thread.Holds.malloc (hs : s.Holds held) (room : Bool) (size : Nat) :
    (s.sidHalMalloc room size).2.Holds (held + Heap.blocks (s.sidHalMalloc room size).1) where
  accounts := by
    rw [← add_assoc]
    exact hs.accounts.malloc room size
  complete := hs.complete
  handled := hs.handled

theorem Thread.Holds.free {block : Nat} (hs : s.Holds (held + {block})) :
    (s.sidHalFree block).Holds held where
  accounts := by
    have ha := hs.accounts
    rw [← add_assoc] at ha
    exact @Heap.Accounts.release _ _ (some block) ha
  complete := hs.complete
  handled := hs.handled

theorem Thread.Holds.freeWithData (ctx : Option EventCtx)
    (hs : s.Holds (held + (ctx.elim 0 fun ctx => Heap.blocks ctx.data + {ctx.block}))) :
    Thread.Holds { s with heap := freeWithData ctx s.heap } held where
  accounts := by
    have ha := hs.accounts
    rw [← add_assoc] at ha
    exact freeWithData_accounts ctx ha
  complete := hs.complete
  handled := hs.handled

/-- The queue takes the event with its blocks. -/
theorem Thread.Holds.send {event : Event} (hs : s.Holds (held + event.blocks))
    (hc : event.Complete) : (sidewalkEventSend event true s).Holds held where
  accounts := by
    have howned : (sidewalkEventSend event true s).owned = s.owned + event.blocks := by
      simp only [sidewalkEventSend, if_true, Thread.owned, Thread.events, List.map_append,
        List.sum_append, List.map_cons, List.map_nil, List.sum_cons, List.sum_nil]
      abel
    rw [howned, add_right_comm, add_assoc]
    exact hs.accounts
  complete e he := by
    simp only [sidewalkEventSend, if_true, Thread.events, List.mem_append, List.mem_singleton] at he
    rcases he with (he | rfl) | he
    · exact hs.complete e (List.mem_append_left _ he)
    · exact hc
    · exact hs.complete e (List.mem_append_right _ he)
  handled := hs.handled

/-- The producer releases the context itself when the queue does not take the event. -/
theorem Thread.Holds.sendOrFree (handler : EventHandler) (ctx : EventCtx) {f : CtxFree}
    (hs : s.Holds (held + (Heap.blocks ctx.data + {ctx.block}))) (hf : f ≠ .sidHalFree)
    (sent : Bool) :
    Thread.Holds (if sent then sidewalkEventSend ⟨handler, some ctx, some f⟩ sent s
      else { sidewalkEventSend ⟨handler, some ctx, some f⟩ sent s with
        heap := Sidewalk.App.freeWithData (some ctx)
          (sidewalkEventSend ⟨handler, some ctx, some f⟩ sent s).heap }) held := by
  cases sent with
  | true =>
    refine Thread.Holds.send hs ?_
    cases f with
    | sidHalFree => exact absurd rfl hf
    | echo => trivial
    | hello => trivial
    | option => trivial
  | false => exact Thread.Holds.freeWithData (some ctx) hs

/-! ## What a call leaves behind -/

/-- The producer has done its part: nothing is left in its hands exactly when the call is tidy. -/
def Thread.Left (s : Thread) (tidy : Prop) : Prop := ∃ left, s.Holds left ∧ (left = 0 ↔ tidy)

theorem Thread.Holds.nothing {tidy : Prop} (hs : s.Holds 0) (ht : tidy) : s.Left tidy :=
  ⟨0, hs, iff_of_true rfl ht⟩

theorem Thread.Holds.leak {tidy : Prop} {block : Nat} (hs : s.Holds {block}) (ht : ¬ tidy) :
    s.Left tidy :=
  ⟨{block}, hs, iff_of_false (Multiset.singleton_ne_zero block) ht⟩

/-- A context and its data, allocated one after the other. -/
theorem Thread.Holds.mallocPair (hs : s.Holds 0) (size sizeData : Nat) :
    ((s.sidHalMalloc true size).2.sidHalMalloc true sizeData).2.Holds
      (0 + (Heap.blocks ((s.sidHalMalloc true size).2.sidHalMalloc true sizeData).1 +
        {s.heap.allocated.length})) := by
  have h := (hs.malloc true size).malloc true sizeData
  rwa [add_assoc, add_comm (Heap.blocks (s.sidHalMalloc true size).1)] at h

theorem Thread.Holds.mallocOne (hs : s.Holds 0) (size : Nat) :
    (s.sidHalMalloc true size).2.Holds {s.heap.allocated.length} := by
  have h := hs.malloc true size
  rwa [zero_add] at h

theorem Thread.Holds.freeOne {block : Nat} (hs : s.Holds {block}) :
    (s.sidHalFree block).Holds 0 :=
  Thread.Holds.free (by rwa [zero_add])

/-- An event with a single block. -/
theorem Thread.Holds.sendOne {block : Nat} (hs : s.Holds {block}) (handler : EventHandler) :
    (sidewalkEventSend ⟨handler, some ⟨block, none⟩, some .sidHalFree⟩ true s).Holds 0 := by
  refine Thread.Holds.send ?_ (fun ctx hctx => ?_)
  · simpa [Event.blocks] using hs
  · rw [← Option.mem_some.1 hctx]

theorem msgReceived_holds (hs : s.Holds 0) (L : Layout) (echoMsgs : Bool) (type : SidMsgType)
    (size : Nat) (room roomData sent : Bool) :
    (onSidewalkMsgReceived L echoMsgs type size room roomData sent s).Holds 0 := by
  unfold onSidewalkMsgReceived
  split
  · cases room with
    | false => exact hs
    | true =>
      cases roomData with
      | false => exact (hs.mallocOne L.sidewalkMsg).freeOne
      | true =>
        exact Thread.Holds.sendOrFree .sidewalkEventSendMsg ⟨_, some _⟩
          (hs.mallocPair L.sidewalkMsg size) (by decide) sent
  · exact hs

theorem btnSendMsg_holds (hs : s.Holds 0) (L : Layout) (room roomData sent : Bool) :
    (appBtnSendMsg L room roomData sent s).Holds 0 := by
  unfold appBtnSendMsg
  cases room with
  | false => exact hs
  | true =>
    cases roomData with
    | false => exact (hs.mallocOne L.sidewalkMsg).freeOne
    | true =>
      exact Thread.Holds.sendOrFree .sidewalkEventSendMsg ⟨_, some _⟩
        (hs.mallocPair L.sidewalkMsg helloSize) (by decide) sent

theorem statusChanged_left (hs : s.Holds 0) (L : Layout) (room sent : Bool) :
    (onSidewalkStatusChanged L room sent s).Left (room = true → sent = true) := by
  unfold onSidewalkStatusChanged
  cases room with
  | false =>
    refine Thread.Holds.nothing ?_ (fun h => nomatch h)
    cases sent with
    | false => exact hs
    | true => exact Thread.Holds.send (by simpa [Event.blocks] using hs) (fun ctx h => nomatch h)
  | true =>
    have h := hs.mallocOne L.sidStatus
    cases sent with
    | false => exact h.leak (by simp)
    | true => exact (h.sendOne _).nothing (fun _ => rfl)

theorem option_left (hs : s.Holds 0) (L : Layout) (event : EventHandler) (hasData : Bool)
    (len : Nat) (room roomData sent : Bool) :
    (cmdSidOption L event hasData len room roomData sent s).2.Left
      (room = true → hasData = true → roomData = true) := by
  unfold cmdSidOption
  cases room with
  | false => exact hs.nothing (fun h => nomatch h)
  | true =>
    have h := hs.mallocOne L.sidewalkOption
    cases hasData with
    | false =>
      have hone : (s.sidHalMalloc true L.sidewalkOption).2.Holds
          (0 + (Heap.blocks none + {s.heap.allocated.length})) := by
        simpa using h
      have hsent := Thread.Holds.sendOrFree event ⟨_, none⟩ (f := .option) hone (by decide)
        sent
      cases sent <;> exact hsent.nothing (fun _ h => nomatch h)
    | true =>
      cases roomData with
      | false => exact h.leak (by simp)
      | true =>
        have hsent := Thread.Holds.sendOrFree event ⟨_, some _⟩ (f := .option)
          (hs.mallocPair L.sidewalkOption len) (by decide) sent
        cases sent <;> exact hsent.nothing (fun _ _ => rfl)

theorem simpleParam_holds (hs : s.Holds 0) (event : EventHandler) (room sent : Bool) :
    (cmdSidSimpleParam event room sent s).2.Holds 0 := by
  unfold cmdSidSimpleParam
  cases room with
  | false => exact hs
  | true =>
    have h := hs.mallocOne 4
    cases sent with
    | false => exact h.freeOne
    | true => exact h.sendOne event

/-- With arguments that pass, the command sends what it has allocated. -/
theorem cmdSbdtCancel_good {L : Layout} {fileId reason : List UInt8}
    (hargs : CancelArgs L fileId reason) (sent : Bool) (s : Thread) :
    (cmdSbdtCancel L fileId reason true sent s).2 =
      sidewalkEventSend ⟨.sbdtEventCancel, some ⟨s.heap.allocated.length, none⟩, some .sidHalFree⟩
        sent (s.sidHalMalloc true L.sbdtCancelCtx).2 := by
  obtain ⟨⟨id, hid, hrange⟩, r, hr, hvalid⟩ := hargs
  unfold cmdSbdtCancel
  simp only [Thread.sidHalMalloc, Heap.malloc_true, hid, hr]
  rw [if_neg (not_not.2 hrange), hvalid, if_neg Bool.noConfusion]

/-- With others it returns with what it has allocated in hand. -/
theorem cmdSbdtCancel_bad {L : Layout} {fileId reason : List UInt8}
    (hargs : ¬ CancelArgs L fileId reason) (sent : Bool) (s : Thread) :
    (cmdSbdtCancel L fileId reason true sent s).2 =
      (s.sidHalMalloc true L.sbdtCancelCtx).2 := by
  unfold cmdSbdtCancel
  simp only [Thread.sidHalMalloc, Heap.malloc_true]
  split
  · rfl
  · next id hid =>
    split
    · rfl
    · next hrange =>
      split
      · rfl
      · next r hr =>
        split
        · rfl
        · next hvalid =>
          exact absurd ⟨⟨id, hid, not_not.1 hrange⟩, r, hr, by simpa using hvalid⟩ hargs

theorem sbdtCancel_left (hs : s.Holds 0) (L : Layout) (fileId reason : List UInt8)
    (room sent : Bool) :
    (cmdSbdtCancel L fileId reason room sent s).2.Left
      (room = true → CancelArgs L fileId reason ∧ sent = true) := by
  cases room with
  | false => exact hs.nothing (fun h => nomatch h)
  | true =>
    have h := hs.mallocOne L.sbdtCancelCtx
    by_cases hargs : CancelArgs L fileId reason
    · rw [cmdSbdtCancel_good hargs]
      cases sent with
      | false => exact h.leak (by simp)
      | true => exact (h.sendOne .sbdtEventCancel).nothing (fun _ => ⟨hargs, rfl⟩)
    · rw [cmdSbdtCancel_bad hargs]
      exact h.leak (fun ht => hargs (ht rfl).1)

theorem sbdtPrint_left (hs : s.Holds 0) (event : EventHandler) (fileId : Option (List UInt8))
    (room sent : Bool) :
    (cmdSbdtPrint event fileId room sent s).2.Left
      (room = true → (∀ id ∈ fileId, (strtol id).isSome) → sent = true) := by
  cases room with
  | false => exact hs.nothing (fun h => nomatch h)
  | true =>
    have h := hs.mallocOne 4
    have hbad : (fileId.any fun id => (strtol id).isNone) = true ↔
        ¬ ∀ id ∈ fileId, (strtol id).isSome := by
      cases fileId <;> simp
    unfold cmdSbdtPrint
    simp only [Thread.sidHalMalloc, Heap.malloc_true]
    split
    · next hany => exact h.freeOne.nothing (fun _ hgood => absurd hgood (hbad.1 hany))
    · next hany =>
      have hgood : ∀ id ∈ fileId, (strtol id).isSome := not_not.1 (mt hbad.2 hany)
      cases sent with
      | false => exact h.leak (fun ht => nomatch ht trivial hgood)
      | true => exact (h.sendOne event).nothing (fun _ _ => rfl)

/-! ## The thread's own steps -/

theorem owned_current {event : Event} {ran : Bool} (hcur : s.current = some (event, ran)) :
    s.owned = (s.msgq.map Event.blocks).sum + event.blocks := by
  simp [Thread.owned, Thread.events, hcur]

theorem get_holds (hs : s.Holds 0) : s.get.Holds 0 := by
  obtain ⟨msgq, current, heap, handled⟩ := s
  cases current with
  | some entry => exact hs
  | none =>
    cases msgq with
    | nil => exact hs
    | cons event rest =>
      refine ⟨?_, fun e he => hs.complete e ?_, hs.handled⟩
      · have ha := hs.accounts
        simp only [Thread.owned, Thread.events, Option.toList_none, List.map_nil, List.append_nil,
          List.map_cons, List.sum_cons] at ha
        simpa [Thread.get, Thread.owned, Thread.events, add_comm] using ha
      · simp only [Thread.get, Thread.events, Option.toList_some, List.map_cons, List.map_nil,
          List.mem_append, List.mem_singleton] at he
        simpa [Thread.events, or_comm] using he

theorem runHandler_holds (hs : s.Holds 0) : s.runHandler.Holds 0 := by
  unfold Thread.runHandler
  split
  · next event hcur =>
    refine ⟨?_, fun e he => hs.complete e ?_, fun entry hentry => ?_⟩
    · have ha := hs.accounts
      rw [owned_current hcur] at ha
      simpa [Thread.owned, Thread.events] using ha
    · simpa [Thread.events, hcur] using he
    · rcases List.mem_cons.1 hentry with rfl | hentry
      · -- the blocks of the event are owned, and what is owned is live
        refine decide_eq_true (fun block hblock => hs.accounts.mem_iff.1 ?_)
        rw [owned_current hcur, add_zero]
        exact Multiset.mem_add.2 (.inr hblock)
      · exact hs.handled entry hentry
  · exact hs

theorem runCtxFree_holds (hs : s.Holds 0) : s.runCtxFree.Holds 0 := by
  unfold Thread.runCtxFree
  split
  · next event hcur =>
    have hevent : event.Complete := hs.complete event (by simp [Thread.events, hcur])
    refine ⟨?_, fun e he => hs.complete e ?_, hs.handled⟩
    · have ha := hs.accounts
      rw [owned_current hcur, add_zero] at ha
      simpa [Thread.owned, Thread.events] using hevent.release ha
    · have he' : e ∈ s.msgq := by simpa [Thread.events] using he
      exact List.mem_append_left _ he'
  · exact hs

/-! ## Runs -/

/-- What one step leaves behind. -/
theorem next_left (hs : s.Holds 0) (L : Layout) (echoMsgs : Bool) (a : ThreadLabel) :
    (s.next L echoMsgs a).Left (a.Tidy L) := by
  cases a with
  | msgReceived type size room roomData sent =>
    exact (msgReceived_holds hs L echoMsgs type size room roomData sent).nothing trivial
  | statusChanged room sent => exact statusChanged_left hs L room sent
  | btnSendMsg room roomData sent =>
    exact (btnSendMsg_holds hs L room roomData sent).nothing trivial
  | option event hasData len room roomData sent =>
    exact option_left hs L event hasData len room roomData sent
  | simpleParam event room sent => exact (simpleParam_holds hs event room sent).nothing trivial
  | sbdtCancel fileId reason room sent => exact sbdtCancel_left hs L fileId reason room sent
  | sbdtStats fileId room sent => exact sbdtPrint_left hs _ fileId room sent
  | sbdtParams fileId room sent => exact sbdtPrint_left hs _ fileId room sent
  | other event sent =>
    refine Thread.Holds.nothing ?_ trivial
    cases sent with
    | false => exact hs
    | true => exact Thread.Holds.send (by simpa [Event.blocks] using hs) rfl
  | get => exact (get_holds hs).nothing trivial
  | runHandler => exact (runHandler_holds hs).nothing trivial
  | runCtxFree => exact (runCtxFree_holds hs).nothing trivial

theorem Thread.Holds.owns (hs : s.Holds 0) : s.Owns := by
  have ha := hs.accounts
  rw [add_zero] at ha
  exact ⟨fun block => ha.mem_iff.symm, ha.nodup, fun _ => ha.freed_count, hs.handled⟩

/-- What is left behind is live and no event has it. -/
theorem Thread.Left.owns_iff {tidy : Prop} (h : s.Left tidy) : s.Owns ↔ tidy := by
  obtain ⟨left, hs, hleft⟩ := h
  rw [← hleft]
  constructor
  · intro howns
    by_contra hne
    obtain ⟨block, hblock⟩ := Multiset.exists_mem_of_ne_zero hne
    have hlive := hs.accounts.mem_iff.1 (Multiset.mem_add.2 (.inr hblock))
    have hnodup := hs.accounts.nodup
    rw [Multiset.nodup_add] at hnodup
    exact Multiset.disjoint_left.1 hnodup.2.2 ((howns.live_iff block).1 hlive) hblock
  · rintro rfl
    exact hs.owns

theorem reached_holds {L : Layout} {echoMsgs : Bool}
    (h : (contexts L echoMsgs).Reached (fun _ a => a.Tidy L) s) : s.Holds 0 := by
  refine h.invariant (I := fun s => s.Holds 0) ?_ ?_
  · rintro s rfl
    exact ⟨Heap.accounts_empty, (fun e he => nomatch he), fun e he => nomatch he⟩
  · rintro s a s' hs htidy rfl
    obtain ⟨left, hleft, hzero⟩ := next_left hs L echoMsgs a
    rwa [hzero.2 htidy] at hleft

/-- In a run of tidy calls every block has one owner until it is released, once, and nothing is
live when the queue is drained. The next call keeps this exactly when it is tidy too. -/
theorem tidy_contexts_owned {L : Layout} {echoMsgs : Bool}
    (h : (contexts L echoMsgs).Reached (fun _ a => a.Tidy L) s) :
    s.Owns ∧ (s.msgq = [] → s.current = none → s.heap.live = []) ∧
      ∀ a, (s.next L echoMsgs a).Owns ↔ a.Tidy L := by
  have hs := reached_holds h
  refine ⟨hs.owns, fun hq hcur => ?_, fun a => (next_left hs L echoMsgs a).owns_iff⟩
  refine List.eq_nil_iff_forall_not_mem.2 fun block hblock => ?_
  have howned := (hs.owns.live_iff block).1 (Heap.mem_live.1 hblock)
  rw [Thread.owned, Thread.events, hq, hcur] at howned
  exact Multiset.notMem_zero block howned

/-- Before the first call. -/
def Thread.idle : Thread := ⟨[], none, .empty, []⟩

/-- Sizes on a 32-bit target. -/
def layout32 : Layout := ⟨44, 32, 12, 8, 8⟩

/-- A message is echoed by the thread, a press is not taken by the queue, and behind it an option
with data and a cancellation are queued. -/
def tidyCalls : List ThreadLabel :=
  [.msgReceived .get 10 true true true, .get, .btnSendMsg true true false,
    .option (.other 0) true 4 true true true, .runHandler, .runCtxFree,
    .sbdtCancel [0x35] [0x30] true true, .get]

def Thread.busy : Thread := tidyCalls.foldl (Thread.next layout32 true) .idle

theorem tidy_contexts_owned_busy :
    (Thread.busy.heap.live = [4, 5, 6] ∧ Thread.busy.handled.length = 1) ∧
    Thread.busy.Owns ∧
      (Thread.busy.msgq = [] → Thread.busy.current = none → Thread.busy.heap.live = []) ∧
      ∀ a, (Thread.busy.next layout32 true a).Owns ↔ a.Tidy layout32 := by
  refine ⟨⟨by decide, rfl⟩, tidy_contexts_owned ?_⟩
  refine .foldl (fun _ _ => rfl) (.init rfl) fun _ => ?_
  have hargs : CancelArgs layout32 [0x35] [0x30] := ⟨⟨5, by decide⟩, 0, by decide⟩
  simp [tidyCalls, ThreadLabel.Tidy, hargs]

/-- `sbdt cancel x 0`: the identifier is no number, and the context stays allocated with nobody to
release it. The queue is empty all along. -/
theorem rejected_cancel_leaks :
    (contexts layout32 true).Reachable
        (Thread.idle.next layout32 true (.sbdtCancel [0x78] [0x30] true true)) ∧
      (cmdSbdtCancel layout32 [0x78] [0x30] true true .idle).1 = -einval ∧
      (Thread.idle.next layout32 true (.sbdtCancel [0x78] [0x30] true true)).msgq = [] ∧
      (Thread.idle.next layout32 true (.sbdtCancel [0x78] [0x30] true true)).current = none ∧
      (Thread.idle.next layout32 true (.sbdtCancel [0x78] [0x30] true true)).heap.live = [0] := by
  refine ⟨.step (.init rfl) trivial rfl, ?_, ?_, ?_, ?_⟩ <;> decide

end Sidewalk.App
