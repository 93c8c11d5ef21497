import Mathlib
import Sidewalk.App.Contexts

/-!
# The shell command that sends a message

`cmd_sid_send` goes through its arguments and allocates the payload on the way, so that what comes
behind the payload decides about its release. The check for the arguments of `-a` is one short, and
two of its three values are not checked.
-/

namespace Sidewalk.App

open Sidewalk.Lib

/-! ## Messages -/

abbrev Arg := List UInt8

inductive LinkMode
  | cloud
  | mobile
  deriving DecidableEq

inductive AdditionalAttr
  | none
  | loraLowLatency
  deriving DecidableEq

structure TxAttributes where
  requestAck : Bool
  numRetries : UInt8
  additionalAttr : AdditionalAttr
  ttlInSeconds : UInt16

structure MsgDesc where
  linkType : Nat
  type : SidMsgType
  linkMode : LinkMode
  id : UInt16
  txAttr : TxAttributes

/-- `struct sid_msg`, with the bytes of the block that `data` points to. -/
structure SidMsg where
  data : Option Nat
  payload : List UInt8

/-- The block of a message that is sent. -/
structure SidewalkMsg where
  block : Nat
  msg : SidMsg
  desc : MsgDesc

def SidewalkMsg.blocks (send : SidewalkMsg) : Multiset Nat := Heap.blocks send.msg.data + {send.block}

structure CliConfig where
  sendLinkType : Nat
  rspMsgId : UInt16

/-- What the command does not decide itself: `hex2bin`, which gives no bytes where it fails, and
whether the allocator serves the request with this number. -/
structure SendEnv where
  hex2bin : Arg → List UInt8
  room : Nat → Bool
  sidewalkMsgSize : Nat

/-- The variables of the command, with the requests made of the allocator and the arguments of `-a`
so far, the last ones first. -/
structure SendState where
  heap : Heap
  requests : Nat
  msg : SidMsg
  desc : MsgDesc
  cliCfg : CliConfig
  given : List (Arg × Arg × Arg)

/-! ## The options -/

inductive ValueKey
  | type
  | mode
  | additional
  | payload
  | link
  | id
  deriving DecidableEq

/-- The options "-t", "-d", "-o", "-r", "-l" and "-i", which take one value. -/
def valueKey (arg : Arg) : Option ValueKey :=
  if arg = [0x2D, 0x74] then some .type
  else if arg = [0x2D, 0x64] then some .mode
  else if arg = [0x2D, 0x6F] then some .additional
  else if arg = [0x2D, 0x72] then some .payload
  else if arg = [0x2D, 0x6C] then some .link
  else if arg = [0x2D, 0x69] then some .id
  else none

/-- The option "-a". -/
def attributesKey : Arg := [0x2D, 0x61]

def parseType (value : Arg) : Option SidMsgType :=
  match value.head? with
  | some 0x30 => some .get
  | some 0x31 => some .set
  | some 0x32 => some .notify
  | some 0x33 => some .response
  | _ => none

def parseMode (value : Arg) : Option LinkMode :=
  match value.head? with
  | some 0x31 => some .cloud
  | some 0x32 => some .mobile
  | _ => none

def parseAdditional (value : Arg) : Option AdditionalAttr :=
  match value.head? with
  | some 0x30 => some .none
  | some 0x31 => some .loraLowLatency
  | _ => none

def atoi (s : Arg) : Int :=
  let s := s.dropWhile isSpace
  let negative := s.head? = some 0x2D
  let s := if s.head? = some 0x2D ∨ s.head? = some 0x2B then s.tail else s
  let value : Int := (leadingDigits 10 s).foldl (fun n d => n * 10 + d) 0
  if negative then max (-value) (-2 ^ 31) else min value (2 ^ 31 - 1)

def cliParseLinkMaskOpt (arg : UInt8) : Option Nat :=
  match arg.toNat with
  | 1 => some 1
  | 2 => some 2
  | 3 => some 4
  | 4 => some 5
  | 5 => some 3
  | 6 => some 6
  | 7 => some 7
  | 8 => some 0x7FFFFFFF
  | _ => none

def parseLink (value : Arg) : Option Nat := cliParseLinkMaskOpt (UInt8.ofInt (atoi value))

def parseId (value : Arg) : Option UInt16 :=
  match strtol value with
  | some dataRaw => if 0 ≤ dataRaw ∧ dataRaw ≤ 65535 then some (UInt16.ofInt dataRaw) else none
  | none => none

def SendState.malloc (env : SendEnv) (size : Nat) (s : SendState) : Option Nat × SendState :=
  let r := s.heap.malloc (env.room s.requests) size
  (r.1, { s with heap := r.2, requests := s.requests + 1 })

/-- The value is used, or the command returns. -/
def SendState.use {α : Type} (s : SendState) (value : Option α) (f : α → SendState) :
    Option Int × SendState :=
  match value with
  | some value => (none, f value)
  | none => (some (-einval), s)

/-- `-r` allocates the payload, whether or not there is one already. -/
def payloadOption (env : SendEnv) (value : Arg) (s : SendState) : Option Int × SendState :=
  let msgBuffer := env.hex2bin value
  if msgBuffer = [] then (some (-einval), s)
  else
    let r := s.malloc env msgBuffer.length
    let s := { r.2 with msg := ⟨r.1, msgBuffer⟩ }
    (if r.1 = none then some (-enomem) else none, s)

def valueOption (env : SendEnv) (key : ValueKey) (value : Arg) (s : SendState) :
    Option Int × SendState :=
  match key with
  | .type => s.use (parseType value) fun type => { s with desc := { s.desc with type } }
  | .mode => s.use (parseMode value) fun linkMode => { s with desc := { s.desc with linkMode } }
  | .additional => s.use (parseAdditional value) fun additionalAttr =>
    { s with desc := { s.desc with txAttr := { s.desc.txAttr with additionalAttr } } }
  | .payload => payloadOption env value s
  | .link => s.use (parseLink value) fun linkType => { s with desc := { s.desc with linkType } }
  | .id => s.use (parseId value) fun rspMsgId =>
    { s with cliCfg := { s.cliCfg with rspMsgId } }

/-- `-a`. Behind the first value `end` points into the second or the third, never to `ack`, and the
second check looks at `ack_val` again. -/
def attributesOption (ack retry ttl : Arg) (s : SendState) : Option Int × SendState :=
  let s := { s with given := (ack, retry, ttl) :: s.given }
  let ackVal := (strtol ack).getD 0
  if ¬(0 ≤ ackVal ∧ ackVal ≤ 1) ∨ strtol ack = none then (some (-einval), s)
  else
    let txAttr := { s.desc.txAttr with requestAck := ackVal ≠ 0 }
    let retryVal := (strtol retry).getD 0
    if ¬(0 ≤ ackVal ∧ ackVal ≤ 255) then
      (some (-einval), { s with desc := { s.desc with txAttr } })
    else
      let txAttr := { txAttr with numRetries := UInt8.ofInt retryVal }
      let ttlVal := (strtol ttl).getD 0
      if ¬(0 ≤ ttlVal ∧ ttlVal ≤ 65535) then
        (some (-einval), { s with desc := { s.desc with txAttr } })
      else
        let txAttr := { txAttr with ttlInSeconds := UInt16.ofInt ttlVal }
        (none, { s with desc := { s.desc with txAttr } })

/-- How the loop over the arguments ends. -/
inductive LoopEnd
  | finished
  | returned (code : Int)
  /-- `argv[argc]` is read. -/
  | outside
  deriving DecidableEq

/-- The loop, with the arguments from `opt` on. -/
def sendOptions (env : SendEnv) : List Arg → SendState → LoopEnd × SendState
  | [], s => (.finished, s)
  | arg :: rest, s =>
    match valueKey arg with
    | some key =>
      match rest with
      | [] => (.returned (-einval), s)
      | value :: rest =>
        match valueOption env key value s with
        | (some code, s) => (.returned code, s)
        | (none, s) => sendOptions env rest s
    | none =>
      if arg = attributesKey then
        match rest with
        | ack :: retry :: ttl :: rest =>
          match attributesOption ack retry ttl s with
          | (some code, s) => (.returned code, s)
          | (none, s) => sendOptions env rest s
        -- `opt + 3 > argc` holds with one argument less.
        | [_, _] => (.outside, s)
        | _ => (.returned (-einval), s)
      else sendOptions env rest s

/-! ## The command -/

/-- The result, none where `argv[argc]` was read, the message that the queue took, and the state. -/
structure SendResult where
  ret : Option Int
  event : Option SidewalkMsg
  state : SendState

def freeSidSendEventCtx (send : SidewalkMsg) (s : SendState) : SendState :=
  { s with heap := (s.heap.release send.msg.data).free send.block }

/-- The end of the command, with a payload. -/
def sendMsg (env : SendEnv) (sent : Bool) (s : SendState) : SendResult :=
  match s.malloc env env.sidewalkMsgSize with
  | (none, s) => ⟨some (-enomem), none, { s with heap := s.heap.release s.msg.data }⟩
  | (some block, s) =>
    let send := ⟨block, s.msg, s.desc⟩
    if sent then ⟨some 0, some send, s⟩
    else ⟨some (-enomsg), none, freeSidSendEventCtx send s⟩

/-- What comes behind the loop; `last` is the last argument. -/
def sendLast (env : SendEnv) (last : Arg) (sent : Bool) (s : SendState) : SendResult :=
  let s := if s.desc.type = .response then
    { s with desc := { s.desc with id := s.cliCfg.rspMsgId } } else s
  if s.msg.data = none then
    match s.malloc env last.length with
    | (none, s) => ⟨some (-enomem), none, s⟩
    | (some data, s) => sendMsg env sent { s with msg := ⟨some data, last⟩ }
  else sendMsg env sent s

def sendInit (cliCfg : CliConfig) (heap : Heap) : SendState where
  heap := heap
  requests := 0
  msg := ⟨none, []⟩
  desc := ⟨cliCfg.sendLinkType, .notify, .cloud, 0, ⟨false, 0, .none, 0⟩⟩
  cliCfg := cliCfg
  given := []

/-- What comes behind the count of the arguments. -/
def sendArgs (env : SendEnv) (args : List Arg) (last : Arg) (sent : Bool) (s : SendState) :
    SendResult :=
  match sendOptions env args s with
  | (.finished, s) => sendLast env last sent s
  | (.returned code, s) => ⟨some code, none, s⟩
  | (.outside, s) => ⟨none, none, s⟩

/-- `sent` is whether the queue takes the event. -/
def cmdSidSend (env : SendEnv) (argv : List Arg) (sent : Bool) (cliCfg : CliConfig) (heap : Heap) :
    SendResult :=
  let s := sendInit cliCfg heap
  if argv.length < 2 ∨ argv.length > 2 + 13 then ⟨some (-einval), none, s⟩
  else sendArgs env argv.tail (argv.getLastD []) sent s

/-! ## The property -/

/-- The argument is a number up to the bound. -/
def isNumeric (arg : Arg) (bound : Int) : Bool := (strtol arg).any fun v => 0 ≤ v ∧ v ≤ bound

/-- The three arguments of `-a` are numbers in their ranges. -/
def Numeric (given : Arg × Arg × Arg) : Prop :=
  isNumeric given.1 1 ∧ isNumeric given.2.1 255 ∧ isNumeric given.2.2 65535

instance (given : Arg × Arg × Arg) : Decidable (Numeric given) :=
  inferInstanceAs (Decidable (_ ∧ _ ∧ _))

/-- The attributes are the numbers given last, or the default. -/
def Attributed : List (Arg × Arg × Arg) → TxAttributes → Prop
  | [], attr => attr.requestAck = false ∧ attr.numRetries = 0 ∧ attr.ttlInSeconds = 0
  | (ack, retry, ttl) :: _, attr =>
    strtol ack = some (if attr.requestAck then 1 else 0) ∧
      strtol retry = some attr.numRetries.toNat ∧ strtol ttl = some attr.ttlInSeconds.toNat

def SendResult.blocks (r : SendResult) : Multiset Nat := r.event.elim 0 SidewalkMsg.blocks

/-- What the command owes; the blocks of `owned` belong to others. -/
structure SendSound (owned : Multiset Nat) (r : SendResult) : Prop where
  inside : r.ret ≠ none
  rejected : (∃ given ∈ r.state.given, ¬Numeric given) → r.ret = some (-einval)
  attributed : ∀ send, r.event = some send → Attributed r.state.given send.desc.txAttr
  accounts : r.state.heap.Accounts (owned + r.blocks)

/-! ## The condition -/

/-- The arguments, taken by the options that they belong to. -/
inductive SendOption
  | value (key : ValueKey) (arg : Arg)
  | attributes (ack retry ttl : Arg)
  /-- An option without its value, or `-a` with less than two arguments behind it. -/
  | incomplete
  /-- `-a` with two arguments behind it. -/
  | cut

def options : List Arg → List SendOption
  | [] => []
  | arg :: rest =>
    match valueKey arg with
    | some key =>
      match rest with
      | [] => [.incomplete]
      | value :: rest => .value key value :: options rest
    | none =>
      if arg = attributesKey then
        match rest with
        | ack :: retry :: ttl :: rest => .attributes ack retry ttl :: options rest
        | [_, _] => [.cut]
        | _ => [.incomplete]
      else options rest

def ValueKey.accepts (key : ValueKey) (value : Arg) : Bool :=
  match key with
  | .type => (parseType value).isSome
  | .mode => (parseMode value).isSome
  | .additional => (parseAdditional value).isSome
  | .payload => true
  | .link => (parseLink value).isSome
  | .id => (parseId value).isSome

/-- What `-a` looks at. -/
def acceptsAttributes (ack ttl : Arg) : Bool :=
  isNumeric ack 1 ∧ 0 ≤ (strtol ttl).getD 0 ∧ (strtol ttl).getD 0 ≤ 65535

/-- The options that are reached are in order: `wrong` is whether an `-a` with other arguments than
numbers in their ranges was let through, which a later error may still make good, and `held`
whether there is a payload, behind which no error and no other payload may come. -/
def InOrder (env : SendEnv) (wrong held : Prop) (requests : Nat) : List SendOption → Prop
  | [] => ¬wrong
  | .incomplete :: _ => ¬held
  | .cut :: _ => False
  | .attributes ack retry ttl :: rest =>
    if acceptsAttributes ack ttl then
      InOrder env (¬Numeric (ack, retry, ttl) ∨ wrong) held requests rest
    else ¬held
  | .value .payload value :: rest =>
    ¬held ∧ (env.hex2bin value ≠ [] →
      if env.room requests then InOrder env wrong True (requests + 1) rest else ¬wrong)
  | .value key value :: rest =>
    if key.accepts value then InOrder env wrong held requests rest else ¬held

/-! ## What the options do -/

section

variable {env : SendEnv} {owned left : Multiset Nat} {s s' : SendState}

/-- An argument of `-a` that was let through is not a number in its range. -/
def SendState.Wrong (s : SendState) : Prop := ∃ given ∈ s.given, ¬Numeric given

/-- Besides the payload these blocks are left without an owner. -/
structure SendState.Leaves (s : SendState) (owned left : Multiset Nat) : Prop where
  accounts : s.heap.Accounts (owned + (Heap.blocks s.msg.data + left))
  attributed : ¬s.Wrong → Attributed s.given s.desc.txAttr

/-- A result is sound if nothing is left and what was let through is rejected. -/
theorem sound_iff (left : Multiset Nat) {r : SendResult} {code : Int} (hret : r.ret = some code)
    (haccounts : r.state.heap.Accounts (owned + (r.blocks + left)))
    (hevent : ∀ send, r.event = some send →
      code = 0 ∧ (¬r.state.Wrong → Attributed r.state.given send.desc.txAttr)) :
    SendSound owned r ↔ left = 0 ∧ (r.state.Wrong → code = -einval) := by
  constructor
  · intro h
    refine ⟨?_, fun hwrong => Option.some.inj (hret.symm.trans (h.rejected hwrong))⟩
    have hsame := h.accounts.unique haccounts
    rw [← add_assoc] at hsame
    exact (add_eq_left.mp hsame.symm)
  · rintro ⟨rfl, hwrong⟩
    rw [add_zero] at haccounts
    refine ⟨by rw [hret]; exact Option.some_ne_none _, fun h => by rw [hret, hwrong h], ?_,
      haccounts⟩
    intro send hsend
    obtain ⟨rfl, hattributed⟩ := hevent send hsend
    exact hattributed fun h => absurd (hwrong h) (by decide)

/-- The command returns with an error. -/
theorem returned_iff (hs : s.Leaves owned left) (code : Int) :
    SendSound owned ⟨some code, none, s⟩ ↔
      left = 0 ∧ s.msg.data = none ∧ (s.Wrong → code = -einval) := by
  have haccounts : s.heap.Accounts
      (owned + ((⟨some code, none, s⟩ : SendResult).blocks + (Heap.blocks s.msg.data + left))) := by
    rw [SendResult.blocks, Option.elim_none, zero_add]
    exact hs.accounts
  rw [sound_iff _ rfl haccounts (fun _ hsend => by cases hsend), add_eq_zero]
  have hblocks : Heap.blocks s.msg.data = 0 ↔ s.msg.data = none := by
    cases s.msg.data <;> simp
  rw [hblocks]
  constructor
  · rintro ⟨⟨hdata, hleft⟩, hwrong⟩
    exact ⟨hleft, hdata, hwrong⟩
  · rintro ⟨hleft, hdata, hwrong⟩
    exact ⟨⟨hdata, hleft⟩, hwrong⟩

theorem sendMsg_iff (hs : s.Leaves owned left) (hdata : s.msg.data ≠ none) (sent : Bool) :
    SendSound owned (sendMsg env sent s) ↔ left = 0 ∧ ¬s.Wrong := by
  obtain ⟨data, hsome⟩ := Option.ne_none_iff_exists'.mp hdata
  have haccounts := hs.accounts
  rw [hsome, Heap.blocks_some, add_comm ({data} : Multiset Nat), ← add_assoc] at haccounts
  have hnot (code : Int) (hcode : code ≠ -einval) : (s.Wrong → code = -einval) ↔ ¬s.Wrong :=
    ⟨fun h hwrong => hcode (h hwrong), fun h hwrong => absurd hwrong h⟩
  unfold sendMsg SendState.malloc
  cases hroom : env.room s.requests with
  | false =>
    simp only [Heap.malloc_false]
    rw [sound_iff left rfl ?_ fun _ hsend => by cases hsend]
    · exact and_congr_right fun _ => hnot _ (by decide)
    · rw [SendResult.blocks, Option.elim_none, zero_add, hsome]
      exact @Heap.Accounts.release _ _ (some data) haccounts
  | true =>
    have hmalloc := haccounts.malloc true env.sidewalkMsgSize
    simp only [Heap.malloc_true, Heap.blocks_some] at hmalloc ⊢
    cases sent with
    | true =>
      rw [if_pos rfl]
      rw [sound_iff left rfl ?_ fun send hsend => ?_]
      · exact and_congr_right fun _ => hnot _ (by decide)
      · simp only [SendResult.blocks, Option.elim_some, SidewalkMsg.blocks, hsome,
          Heap.blocks_some]
        convert hmalloc using 1
        abel
      · obtain rfl := Option.some.inj hsend
        exact ⟨rfl, hs.attributed⟩
    | false =>
      rw [if_neg Bool.false_ne_true]
      rw [sound_iff left rfl ?_ fun _ hsend => by cases hsend]
      · exact and_congr_right fun _ => hnot _ (by decide)
      · simp only [SendResult.blocks, Option.elim_none, zero_add, freeSidSendEventCtx, hsome]
        rw [add_right_comm] at hmalloc
        exact @Heap.Accounts.release _ _ (some _)
          (@Heap.Accounts.release _ _ (some data) hmalloc)

/-- A request, whose block becomes the payload. -/
theorem leaves_payload (env : SendEnv) (hs : s.Leaves owned left) (payload : List UInt8)
    (size : Nat) :
    SendState.Leaves { (s.malloc env size).2 with msg := ⟨(s.malloc env size).1, payload⟩ } owned
      (Heap.blocks s.msg.data + left) where
  accounts := by
    have haccounts := hs.accounts.malloc (env.room s.requests) size
    rw [add_assoc, add_comm (Heap.blocks s.msg.data + left)] at haccounts
    exact haccounts
  attributed := hs.attributed

theorem sendLast_iff (hs : s.Leaves owned left) (last : Arg) (sent : Bool) :
    SendSound owned (sendLast env last sent s) ↔ left = 0 ∧ ¬s.Wrong := by
  -- The id of a response changes nothing that counts here.
  have hid : ∃ s', SendState.Leaves s' owned left ∧ s'.given = s.given ∧
      s' = if s.desc.type = .response then
        { s with desc := { s.desc with id := s.cliCfg.rspMsgId } } else s := by
    refine ⟨_, ?_, ?_, rfl⟩
    · split
      · exact ⟨hs.accounts, hs.attributed⟩
      · exact hs
    · split <;> rfl
  obtain ⟨s', hs', hgiven, heq⟩ := hid
  have hwrong : s.Wrong ↔ s'.Wrong := by
    unfold SendState.Wrong
    rw [hgiven]
  unfold sendLast
  rw [← heq, hwrong]
  simp only
  by_cases hdata : s'.msg.data = none
  · rw [if_pos hdata]
    have hpayload := leaves_payload env hs' last last.length
    rw [hdata, Heap.blocks_none, zero_add] at hpayload
    cases hroom : env.room s'.requests with
    | false =>
      have hmalloc : s'.malloc env last.length =
          (none, { s' with requests := s'.requests + 1 }) := by
        unfold SendState.malloc
        rw [hroom]
        rfl
      rw [hmalloc]
      have hleaves : SendState.Leaves { s' with requests := s'.requests + 1 } owned left :=
        ⟨hs'.accounts, hs'.attributed⟩
      simp only
      rw [returned_iff hleaves, and_iff_right hdata]
      exact and_congr_right fun _ =>
        ⟨fun h hwrong => absurd (h hwrong) (by decide), fun h hwrong => absurd hwrong h⟩
    | true =>
      have hmalloc : s'.malloc env last.length = (some s'.heap.allocated.length,
          { s' with heap := (s'.heap.malloc true last.length).2,
                    requests := s'.requests + 1 }) := by
        unfold SendState.malloc
        rw [hroom]
        rfl
      rw [hmalloc] at hpayload ⊢
      exact sendMsg_iff hpayload (Option.some_ne_none _) sent
  · rw [if_neg hdata]
    exact sendMsg_iff hs' hdata sent

/-- What an option with a value leaves alone, unless it is the payload. -/
structure Untouched (s s' : SendState) : Prop where
  heap : s'.heap = s.heap
  requests : s'.requests = s.requests
  msg : s'.msg = s.msg
  given : s'.given = s.given
  attributed : ∀ given, Attributed given s.desc.txAttr → Attributed given s'.desc.txAttr

theorem Untouched.leaves (h : Untouched s s') (hs : s.Leaves owned left) :
    s'.Leaves owned left where
  accounts := by
    rw [h.heap, h.msg]
    exact hs.accounts
  attributed hright := by
    unfold SendState.Wrong at hright
    rw [h.given] at hright ⊢
    exact h.attributed _ (hs.attributed hright)

theorem attributed_additional {given : List (Arg × Arg × Arg)} {attr : TxAttributes}
    (additionalAttr : AdditionalAttr) (h : Attributed given attr) :
    Attributed given { attr with additionalAttr } := by
  cases given <;> exact h

theorem use_cases {α : Type} (value : Option α) (f : α → SendState)
    (h : ∀ value, Untouched s (f value)) :
    (value.isSome = true ∧ ∃ s', s.use value f = (none, s') ∧ Untouched s s') ∨
      (value.isSome = false ∧ s.use value f = (some (-einval), s)) := by
  cases value with
  | none => exact .inr ⟨rfl, rfl⟩
  | some value => exact .inl ⟨rfl, f value, rfl, h value⟩

theorem valueOption_cases (env : SendEnv) (s : SendState) {key : ValueKey} (hkey : key ≠ .payload)
    (value : Arg) :
    (key.accepts value = true ∧ ∃ s', valueOption env key value s = (none, s') ∧ Untouched s s') ∨
      (key.accepts value = false ∧ valueOption env key value s = (some (-einval), s)) := by
  cases key with
  | type => exact use_cases _ _ fun _ => ⟨rfl, rfl, rfl, rfl, fun _ h => h⟩
  | mode => exact use_cases _ _ fun _ => ⟨rfl, rfl, rfl, rfl, fun _ h => h⟩
  | additional =>
    exact use_cases _ _ fun _ => ⟨rfl, rfl, rfl, rfl, fun _ => attributed_additional _⟩
  | payload => exact absurd rfl hkey
  | link => exact use_cases _ _ fun _ => ⟨rfl, rfl, rfl, rfl, fun _ h => h⟩
  | id => exact use_cases _ _ fun _ => ⟨rfl, rfl, rfl, rfl, fun _ h => h⟩

/-! ## The attributes -/

theorem isNumeric_iff {arg : Arg} {bound : Int} :
    isNumeric arg bound = true ↔ ∃ v, strtol arg = some v ∧ 0 ≤ v ∧ v ≤ bound := by
  unfold isNumeric
  cases strtol arg <;> simp

theorem accepts_of_numeric {ack retry ttl : Arg} (h : Numeric (ack, retry, ttl)) :
    acceptsAttributes ack ttl = true := by
  obtain ⟨hack, -, httl⟩ := h
  obtain ⟨v, hv, hlow, hhigh⟩ := isNumeric_iff.mp httl
  simp only [acceptsAttributes, hv, Option.getD_some, decide_eq_true_iff]
  exact ⟨hack, hlow, hhigh⟩

theorem wrong_cons {given : Arg × Arg × Arg} (hgiven : s'.given = given :: s.given) :
    s'.Wrong ↔ ¬Numeric given ∨ s.Wrong := by
  unfold SendState.Wrong
  rw [hgiven, List.exists_mem_cons_iff]

/-- What `-a` comes to: it goes on exactly if the first and the third value pass. -/
structure AttributesRead (ack retry ttl : Arg) (s : SendState) (r : Option Int × SendState) :
    Prop where
  code : r.1 = if acceptsAttributes ack ttl then none else some (-einval)
  heap : r.2.heap = s.heap
  requests : r.2.requests = s.requests
  msg : r.2.msg = s.msg
  given : r.2.given = (ack, retry, ttl) :: s.given
  attributed : Numeric (ack, retry, ttl) → Attributed r.2.given r.2.desc.txAttr

theorem attributesOption_spec (ack retry ttl : Arg) (s : SendState) :
    AttributesRead ack retry ttl s (attributesOption ack retry ttl s) := by
  have hack : isNumeric ack 1 = true ↔
      ¬(¬(0 ≤ (strtol ack).getD 0 ∧ (strtol ack).getD 0 ≤ 1) ∨ strtol ack = none) := by
    rw [isNumeric_iff]
    cases strtol ack <;> simp
  unfold attributesOption
  simp only
  by_cases hbad : ¬(0 ≤ (strtol ack).getD 0 ∧ (strtol ack).getD 0 ≤ 1) ∨ strtol ack = none
  · rw [if_pos hbad]
    have hnot : ¬acceptsAttributes ack ttl = true := by
      simp only [acceptsAttributes, decide_eq_true_iff]
      exact fun h => hack.mp h.1 hbad
    exact ⟨(if_neg hnot).symm, rfl, rfl, rfl, rfl, fun h => absurd (accepts_of_numeric h) hnot⟩
  · rw [if_neg hbad]
    have hrange := not_not.mp (not_or.mp hbad).1
    rw [if_neg (by omega)]
    by_cases httl : 0 ≤ (strtol ttl).getD 0 ∧ (strtol ttl).getD 0 ≤ 65535
    · have haccepts : acceptsAttributes ack ttl = true := by
        simp only [acceptsAttributes, decide_eq_true_iff]
        exact ⟨hack.mpr hbad, httl⟩
      rw [if_neg (not_not.mpr httl)]
      refine ⟨(if_pos haccepts).symm, rfl, rfl, rfl, rfl, ?_⟩
      rintro ⟨hackNum, hretryNum, httlNum⟩
      obtain ⟨a, ha, ha₀, ha₁⟩ := isNumeric_iff.mp hackNum
      obtain ⟨r, hr, hr₀, hr₁⟩ := isNumeric_iff.mp hretryNum
      obtain ⟨t, ht, ht₀, ht₁⟩ := isNumeric_iff.mp httlNum
      simp only at ha hr ht
      simp only [Attributed, ha, hr, ht, Option.getD_some]
      refine ⟨?_, ?_, ?_⟩
      · rcases Int.le_iff_eq_or_lt.mp ha₀ with rfl | hpos
        · rfl
        · obtain rfl : a = 1 := by omega
          rfl
      · rw [UInt8.ofInt, UInt8.toNat_ofNat']
        congr 1
        omega
      · rw [UInt16.ofInt, UInt16.toNat_ofNat']
        congr 1
        omega
    · have hnot : ¬acceptsAttributes ack ttl = true := by
        simp only [acceptsAttributes, decide_eq_true_iff]
        exact fun h => httl h.2
      rw [if_pos httl]
      exact ⟨(if_neg hnot).symm, rfl, rfl, rfl, rfl, fun h => absurd (accepts_of_numeric h) hnot⟩

theorem AttributesRead.leaves {ack retry ttl : Arg} {r : Option Int × SendState}
    (h : AttributesRead ack retry ttl s r) (hs : s.Leaves owned left) :
    r.2.Leaves owned left where
  accounts := by
    rw [h.heap, h.msg]
    exact hs.accounts
  attributed hright := by
    rw [wrong_cons h.given, not_or, not_not] at hright
    exact h.attributed hright.1

/-! ## The loop -/

theorem inOrder_value {wrong held : Prop} {requests : Nat} {key : ValueKey} {value : Arg}
    {rest : List SendOption} (hkey : key ≠ .payload) :
    InOrder env wrong held requests (.value key value :: rest) ↔
      if key.accepts value then InOrder env wrong held requests rest else ¬held := by
  cases key <;> first | exact absurd rfl hkey | exact Iff.rfl

/-- The command returns at an option with a value. -/
theorem value_returned (hs : s.Leaves owned left) {key : ValueKey} {value : Arg} {code : Int}
    (h : valueOption env key value s = (some code, s')) (rest : List SendOption) :
    SendSound owned ⟨some code, none, s'⟩ ↔
      left = 0 ∧ InOrder env s.Wrong (s.msg.data ≠ none) s.requests (.value key value :: rest) := by
  by_cases hkey : key = .payload
  · subst hkey
    change payloadOption env value s = _ at h
    rw [InOrder, not_not]
    unfold payloadOption at h
    simp only at h
    by_cases hhex : env.hex2bin value = []
    · rw [if_pos hhex] at h
      obtain ⟨rfl, rfl⟩ : -einval = code ∧ s = s' := by simpa using h
      rw [returned_iff hs]
      simp [hhex]
    · rw [if_neg hhex] at h
      have hleaves := leaves_payload env hs (env.hex2bin value)
        (env.hex2bin value).length
      cases hroom : env.room s.requests with
      | false =>
        simp only [SendState.malloc, hroom, Heap.malloc_false, if_true, Prod.mk.injEq,
          Option.some.injEq] at h hleaves
        obtain ⟨rfl, rfl⟩ := h
        have hblocks : Heap.blocks s.msg.data = 0 ↔ s.msg.data = none := by
          cases s.msg.data <;> simp
        rw [returned_iff hleaves, add_eq_zero, hblocks]
        have hcode : (s.Wrong → -enomem = -einval) ↔ ¬s.Wrong :=
          ⟨fun h hwrong => absurd (h hwrong) (by decide), fun h hwrong => absurd hwrong h⟩
        change _ ∧ _ ∧ (s.Wrong → -enomem = -einval) ↔ _
        rw [hcode]
        simp only [hhex, ne_eq, not_false_eq_true, forall_const, Bool.false_eq_true, if_false,
          true_and]
        constructor
        · rintro ⟨⟨hdata, hleft⟩, hwrong⟩
          exact ⟨hleft, hdata, hwrong⟩
        · rintro ⟨hleft, hdata, hwrong⟩
          exact ⟨⟨hdata, hleft⟩, hwrong⟩
      | true =>
        simp [SendState.malloc, hroom] at h
  · rw [inOrder_value hkey]
    rcases valueOption_cases env s hkey value with ⟨-, s'', heq, -⟩ | ⟨hbad, heq⟩
    · rw [heq] at h
      cases h
    · rw [heq] at h
      obtain ⟨rfl, rfl⟩ : -einval = code ∧ s = s' := by simpa using h
      rw [returned_iff hs, hbad]
      simp

/-- The command goes on behind an option with a value; a second payload leaves the first one. -/
theorem value_goesOn (hs : s.Leaves owned left) {key : ValueKey} {value : Arg}
    (h : valueOption env key value s = (none, s')) (rest : List SendOption) :
    ∃ left', s'.Leaves owned left' ∧
      (left' = 0 ∧ InOrder env s'.Wrong (s'.msg.data ≠ none) s'.requests rest ↔
        left = 0 ∧
          InOrder env s.Wrong (s.msg.data ≠ none) s.requests (.value key value :: rest)) := by
  by_cases hkey : key = .payload
  · subst hkey
    change payloadOption env value s = _ at h
    rw [InOrder, not_not]
    unfold payloadOption at h
    simp only at h
    by_cases hhex : env.hex2bin value = []
    · rw [if_pos hhex] at h
      cases h
    · rw [if_neg hhex] at h
      have hleaves := leaves_payload env hs (env.hex2bin value)
        (env.hex2bin value).length
      cases hroom : env.room s.requests with
      | false => simp [SendState.malloc, hroom] at h
      | true =>
        simp only [SendState.malloc, hroom, Heap.malloc_true, reduceCtorEq, if_false,
          Prod.mk.injEq, true_and] at h hleaves
        subst h
        refine ⟨_, hleaves, ?_⟩
        have hblocks : Heap.blocks s.msg.data = 0 ↔ s.msg.data = none := by
          cases s.msg.data <;> simp
        have hheld : (some s.heap.allocated.length ≠ none) = True :=
          eq_true (Option.some_ne_none _)
        rw [add_eq_zero, hblocks, hheld]
        change _ ∧ InOrder env s.Wrong True (s.requests + 1) rest ↔ _
        simp only [hhex, ne_eq, not_false_eq_true, forall_const, if_true]
        constructor
        · rintro ⟨⟨hdata, hleft⟩, horder⟩
          exact ⟨hleft, hdata, horder⟩
        · rintro ⟨hleft, hdata, horder⟩
          exact ⟨⟨hdata, hleft⟩, horder⟩
  · rw [inOrder_value hkey]
    rcases valueOption_cases env s hkey value with
      ⟨haccepts, s'', heq, hsame⟩ | ⟨-, heq⟩
    · rw [heq] at h
      obtain rfl : s'' = s' := by simpa using h
      have hwrong : s''.Wrong = s.Wrong := by
        unfold SendState.Wrong
        rw [hsame.given]
      refine ⟨left, hsame.leaves hs, ?_⟩
      rw [if_pos haccepts, hwrong, hsame.msg, hsame.requests]
    · rw [heq] at h
      cases h

theorem attributes_iff {ack retry ttl : Arg} {r : Option Int × SendState}
    (h : AttributesRead ack retry ttl s r) (rest : List SendOption) :
    InOrder env s.Wrong (s.msg.data ≠ none) s.requests (.attributes ack retry ttl :: rest) ↔
      if acceptsAttributes ack ttl then
        InOrder env r.2.Wrong (r.2.msg.data ≠ none) r.2.requests rest
      else r.2.msg.data = none := by
  have hwrong : r.2.Wrong = (¬Numeric (ack, retry, ttl) ∨ s.Wrong) := propext (wrong_cons h.given)
  rw [InOrder, hwrong, h.msg, h.requests, not_not]

theorem options_value {arg value : Arg} {key : ValueKey} (h : valueKey arg = some key)
    (rest : List Arg) : options (arg :: value :: rest) = .value key value :: options rest := by
  rw [options.eq_def]
  simp only [h]

theorem options_other {arg : Arg} (h : valueKey arg = none) (hother : arg ≠ attributesKey)
    (rest : List Arg) : options (arg :: rest) = options rest := by
  rw [options.eq_def]
  simp only [h, if_neg hother]

/-- The command is sound exactly if nothing was left before and the options to go are in order. -/
theorem sendArgs_iff (args : List Arg) (last : Arg) (sent : Bool) (hs : s.Leaves owned left) :
    SendSound owned (sendArgs env args last sent s) ↔
      left = 0 ∧ InOrder env s.Wrong (s.msg.data ≠ none) s.requests (options args) := by
  unfold sendArgs
  have hincomplete {s : SendState} {left : Multiset Nat} (hs : s.Leaves owned left) :
      SendSound owned ⟨some (-einval), none, s⟩ ↔
        left = 0 ∧ InOrder env s.Wrong (s.msg.data ≠ none) s.requests [.incomplete] := by
    rw [returned_iff hs, InOrder, not_not]
    exact and_congr_right fun _ => and_iff_left fun _ => rfl
  fun_induction sendOptions env args s generalizing left with
  | case1 s => exact sendLast_iff hs last sent
  | case2 arg s key hkey =>
    simp only [options, hkey]
    exact hincomplete hs
  | case3 arg s key hkey value rest code s' hvalue =>
    rw [options_value hkey]
    exact value_returned hs hvalue _
  | case4 arg s key hkey value rest s' hvalue ih =>
    rw [options_value hkey]
    obtain ⟨left', hs', hiff⟩ := value_goesOn hs hvalue (options rest)
    rw [← hiff]
    exact ih hs'
  | case5 s ack retry ttl rest code s' hattributes hkey =>
    simp only [options, hkey, if_true]
    have hspec := attributesOption_spec ack retry ttl s
    rw [hattributes] at hspec
    rw [attributes_iff hspec]
    have hcode := hspec.code
    by_cases haccepts : acceptsAttributes ack ttl
    · rw [if_pos haccepts] at hcode
      cases hcode
    · rw [if_neg haccepts] at hcode
      obtain rfl := Option.some.inj hcode
      rw [if_neg haccepts]
      exact (returned_iff (hspec.leaves hs) _).trans
        (and_congr_right fun _ => and_iff_left fun _ => rfl)
  | case6 s ack retry ttl rest s' hattributes hkey ih =>
    simp only [options, hkey, if_true]
    have hspec := attributesOption_spec ack retry ttl s
    rw [hattributes] at hspec
    rw [attributes_iff hspec]
    have hcode := hspec.code
    by_cases haccepts : acceptsAttributes ack ttl
    · rw [if_pos haccepts]
      exact ih (hspec.leaves hs)
    · rw [if_neg haccepts] at hcode
      cases hcode
  | case7 s ack retry hkey =>
    simp only [options, hkey, if_true]
    exact iff_of_false (fun h => h.inside rfl) fun h => h.2
  | case8 rest s hthree htwo hkey =>
    have hoptions : options (attributesKey :: rest) = [.incomplete] := by
      simp only [options, hkey, if_true]
    rw [hoptions]
    exact hincomplete hs
  | case9 arg rest s hkey hother ih =>
    rw [options_other hkey hother]
    exact ih hs

end

theorem leaves_init {owned : Multiset Nat} {heap : Heap} (cliCfg : CliConfig)
    (h : heap.Accounts owned) : (sendInit cliCfg heap).Leaves owned 0 where
  accounts := by
    rw [sendInit, Heap.blocks_none, add_zero, add_zero]
    exact h
  attributed _ := ⟨rfl, rfl, rfl⟩

/-- With a number of arguments that passes the check the command is sound exactly if its options
are in order. -/
theorem cmdSidSend_iff (env : SendEnv) (argv : List Arg) (sent : Bool) (cliCfg : CliConfig)
    (heap : Heap) (owned : Multiset Nat) (hheap : heap.Accounts owned)
    (hargc : 2 ≤ argv.length ∧ argv.length ≤ 2 + 13) :
    SendSound owned (cmdSidSend env argv sent cliCfg heap) ↔
      InOrder env False False 0 (options argv.tail) := by
  unfold cmdSidSend
  simp only
  rw [if_neg (by omega), sendArgs_iff _ _ _ (leaves_init cliCfg hheap), and_iff_right rfl]
  have hwrong : (sendInit cliCfg heap).Wrong = False := by
    refine eq_false ?_
    rintro ⟨given, hgiven, -⟩
    exact List.not_mem_nil hgiven
  have hheld : ((sendInit cliCfg heap).msg.data ≠ none) = False := eq_false fun h => h rfl
  rw [hwrong, hheld]
  rfl

/-- An environment in which nothing fails. -/
def plainEnv : SendEnv := ⟨fun _ => [0], fun _ => true, 32⟩

/-- "send -a 1 3 60 x". -/
theorem cmdSidSend_iff_numeric :
    SendSound 0 (cmdSidSend plainEnv
        [[0x73, 0x65, 0x6E, 0x64], attributesKey, [0x31], [0x33], [0x36, 0x30], [0x78]] true ⟨7, 0⟩ .empty) ↔
      InOrder plainEnv False False 0
        (options [attributesKey, [0x31], [0x33], [0x36, 0x30], [0x78]]) :=
  cmdSidSend_iff plainEnv _ true ⟨7, 0⟩ .empty 0 Heap.accounts_empty (by decide)

/-- "send -a 1 3": the third value is read from `argv[4]`. -/
theorem attributes_read_outside :
    ¬SendSound 0 (cmdSidSend plainEnv [[0x73, 0x65, 0x6E, 0x64], attributesKey, [0x31], [0x33]] true
      ⟨7, 0⟩ .empty) := by
  intro h
  exact h.inside (by decide)

end Sidewalk.App
