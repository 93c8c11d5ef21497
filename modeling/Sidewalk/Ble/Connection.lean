import Mathlib
import Sidewalk.Lib.System

/-!
# Bluetooth connections

`sid_ble_connection.c`: the connection that the Sidewalk adapter works on, the callbacks of
Bluetooth that set and clear it, and what the adapter is told of them. Bluetooth owns the connection
objects: it uses one for a new connection only when nobody has a reference to it, and it runs one
callback at a time. The adapter's calls come from any threads, also while `ble_disconnect_cb` has
told the adapter and does not have the mutex yet. The connection parameters and the RSSI and power
commands, which work on the same object, are left out.
-/

namespace Sidewalk.Ble

open Lib

abbrev Conn := ℕ

abbrev Address := List UInt8

/-- A connection that has come up. -/
structure Link where
  /-- `ble_conn_is_valid`: its information can be had, and its identity is `BT_ID_SIDEWALK`. -/
  sidewalk : Bool
  /-- It came up while `conn_callbacks` were registered. -/
  delivered : Bool
  deriving DecidableEq

/-- The calls of `sid_ble_adapter_callbacks.c`. -/
inductive Notice
  | connected (addr : Address)
  | disconnected (addr : Address)
  | mtuChanged (mtu : ℕ)

structure Connections where
  /-- `conn_data`. -/
  addr : Address
  conn : Option Conn
  /-- `conn_data_ptr` points to `conn_data`. -/
  pointed : Bool
  /-- `bt_conn_registered`. -/
  registered : Bool
  /-- The callers of `sid_ble_conn_disconnect` that are past its check. -/
  disconnecting : ℕ → Bool
  /-- The connections that have come up and whose end is not dealt with. -/
  up : Conn → Option Link
  /-- The connection that is down and with which `ble_disconnect_cb` waits for the mutex. -/
  ending : Option Conn
  /-- The references that were taken and not given back. -/
  refs : Conn → ℕ
  /-- What the adapter was told, the last first. -/
  notices : List Notice
  /-- What `bt_conn_disconnect` was called for, the last first. -/
  handles : List (Option Conn)

namespace Connections

/-- `BT_ADDR_SIZE` zeros. -/
def noAddr : Address := List.replicate 6 0

/-- `ble_connect_cb`, with the result of `ble_conn_is_valid` and the address of the peer where
`bt_conn_get_dst` has one. -/
def bleConnectCb (s : Connections) (conn : Conn) (valid : Bool) (dst : Option Address)
    (connErr : UInt8) : Connections :=
  if valid = false then s
  else if connErr ≠ 0 then s
  else
    let s := { s with addr := dst.getD noAddr }
    let s := { s with conn := some conn, refs := Function.update s.refs conn (s.refs conn + 1) }
    { s with notices := .connected s.addr :: s.notices }

/-- `ble_disconnect_cb` up to the mutex. -/
def bleDisconnectCb (s : Connections) (conn : Conn) (valid : Bool) : Connections :=
  if valid = false ∨ s.conn ≠ some conn then s
  else { s with notices := .disconnected s.addr :: s.notices, ending := some conn }

/-- `ble_disconnect_cb` from the mutex on. -/
def bleDisconnectCbLocked (s : Connections) : Connections :=
  match s.conn with
  | none => { s with ending := none }
  | some conn =>
    { s with
      conn := none
      refs := Function.update s.refs conn (s.refs conn - 1)
      ending := none }

/-- `ble_mtu_cb`. -/
def bleMtuCb (s : Connections) (conn : Conn) (txMtu rxMtu : ℕ) : Connections :=
  if s.conn = none ∨ s.conn = some conn then
    { s with notices := .mtuChanged (min txMtu rxMtu) :: s.notices }
  else s

def eexist : ℤ := 17

/-- `sid_ble_conn_init`, with the result of `bt_conn_cb_register`. -/
def connInit (s : Connections) (result : ℤ) : Connections :=
  let s := { s with pointed := true }
  if s.registered = false ∧ (result = 0 ∨ result = -eexist) then { s with registered := true }
  else s

def connDeinit (s : Connections) : Connections := { s with pointed := false }

/-- `sid_ble_conn_disconnect` up to the mutex, which goes on where there is a connection. -/
def disconnectCheck (s : Connections) (caller : ℕ) : Connections :=
  if s.conn = none then s
  else { s with disconnecting := Function.update s.disconnecting caller true }

/-- `sid_ble_conn_disconnect` from the mutex on. -/
def disconnectCall (s : Connections) (caller : ℕ) : Connections :=
  { s with
    disconnecting := Function.update s.disconnecting caller false
    handles := s.conn :: s.handles }

end Connections

namespace Connections

variable {s : Connections} {conn : Conn} {sidewalk : Bool} {link : Link} {dst : Option Address}
  {connErr : UInt8}

/-- Bluetooth has a new connection, or fails to make one. -/
def comesUp (s : Connections) (conn : Conn) (sidewalk : Bool) (dst : Option Address)
    (connErr : UInt8) : Connections :=
  let now := if s.registered then s.bleConnectCb conn sidewalk dst connErr else s
  if connErr = 0 then { now with up := Function.update s.up conn (some ⟨sidewalk, s.registered⟩) }
  else now

/-- Bluetooth loses a connection. Where the callback waits for the mutex, the object is in use. -/
def ends (s : Connections) (conn : Conn) (link : Link) : Connections :=
  let now := if s.registered then s.bleDisconnectCb conn link.sidewalk else s
  if now.ending = none then { now with up := Function.update s.up conn none } else now

/-- The callback gets the mutex, and returns. -/
def ended (s : Connections) (conn : Conn) : Connections :=
  { s.bleDisconnectCbLocked with up := Function.update s.up conn none }

theorem comesUp_failed (h : connErr ≠ 0) : s.comesUp conn sidewalk dst connErr = s := by
  have hcb : s.bleConnectCb conn sidewalk dst connErr = s := by
    simp [bleConnectCb, h]
  simp only [comesUp, hcb, ite_self, if_neg h]

theorem comesUp_unseen (h : s.registered = true → sidewalk = false) :
    s.comesUp conn sidewalk dst 0 =
      { s with up := Function.update s.up conn (some ⟨sidewalk, s.registered⟩) } := by
  unfold comesUp
  split
  · next hregistered =>
    rw [h hregistered]
    rfl
  · rfl

theorem comesUp_taken (h : s.registered = true) :
    s.comesUp conn true dst 0 =
      { s with
        addr := dst.getD noAddr
        conn := some conn
        refs := Function.update s.refs conn (s.refs conn + 1)
        notices := .connected (dst.getD noAddr) :: s.notices
        up := Function.update s.up conn (some ⟨true, true⟩) } := by
  simp [comesUp, bleConnectCb, h]

theorem ends_other (h : s.registered = true → link.sidewalk = false ∨ s.conn ≠ some conn)
    (hending : s.ending = none) :
    s.ends conn link = { s with up := Function.update s.up conn none } := by
  have hcb : (if s.registered then s.bleDisconnectCb conn link.sidewalk else s) = s := by
    split
    · next hregistered => rw [bleDisconnectCb, if_pos (h hregistered)]
    · rfl
  unfold ends
  rw [hcb, if_pos hending]

theorem ends_taken (hregistered : s.registered = true) (hsidewalk : link.sidewalk = true)
    (h : s.conn = some conn) :
    s.ends conn link =
      { s with notices := .disconnected s.addr :: s.notices, ending := some conn } := by
  have hcb : s.bleDisconnectCb conn link.sidewalk =
      { s with notices := .disconnected s.addr :: s.notices, ending := some conn } := by
    rw [bleDisconnectCb, if_neg (by simp [h, hsidewalk])]
  unfold ends
  rw [if_pos hregistered, hcb]
  rfl

theorem ended_held (h : s.conn = some conn) :
    s.ended conn =
      { s with
        conn := none
        refs := Function.update s.refs conn (s.refs conn - 1)
        up := Function.update s.up conn none
        ending := none } := by
  rw [ended, bleDisconnectCbLocked, h]

end Connections

/-! ## Runs -/

inductive ConnAct
  | connect (conn : Conn) (sidewalk : Bool) (dst : Option Address) (connErr : UInt8)
  | disconnect (conn : Conn)
  | disconnected
  | mtu (conn : Conn) (txMtu rxMtu : ℕ)
  | init (result : ℤ)
  | deinit
  | disconnectCheck (caller : ℕ)
  | disconnectCall (caller : ℕ)

/-- A run, and what went by in it. -/
structure ConnRun where
  now : Connections
  /-- A connection of Sidewalk was reported while another was up. -/
  overlapped : Prop
  /-- The module gave its connection up since the caller's last check. -/
  raced : ℕ → Prop

/-- A connection that the module was told of, and whose end is not dealt with. -/
def Connections.Told (s : Connections) (conn : Conn) : Prop := s.up conn = some ⟨true, true⟩

namespace ConnRun

def connect (s : ConnRun) (conn : Conn) (sidewalk : Bool) (dst : Option Address) (connErr : UInt8) :
    ConnRun :=
  { s with
    now := s.now.comesUp conn sidewalk dst connErr
    overlapped := s.overlapped ∨
      (s.now.registered = true ∧ sidewalk = true ∧ connErr = 0 ∧ ∃ other, s.now.Told other) }

def disconnect (s : ConnRun) (conn : Conn) (link : Link) : ConnRun :=
  { s with now := s.now.ends conn link }

def disconnected (s : ConnRun) (conn : Conn) : ConnRun :=
  { s with now := s.now.ended conn, raced := fun _ => True }

def disconnectCheck (s : ConnRun) (caller : ℕ) : ConnRun :=
  { s with
    now := s.now.disconnectCheck caller
    raced := Function.update s.raced caller False }

/-- The start of the program. -/
def start : ConnRun :=
  ⟨⟨Connections.noAddr, none, false, false, fun _ => false, fun _ => none, none, fun _ => 0, [],
    []⟩, False, fun _ => False⟩

end ConnRun

/-- The step of one action. A callback runs where it is registered, and no other one does. -/
inductive ConnStep : ConnRun → ConnAct → ConnRun → Prop
  | connect {s : ConnRun} {conn : Conn} {sidewalk : Bool} {dst : Option Address} {connErr : UInt8} :
      s.now.ending = none → s.now.up conn = none → s.now.refs conn = 0 →
      ConnStep s (.connect conn sidewalk dst connErr) (s.connect conn sidewalk dst connErr)
  | disconnect {s : ConnRun} {conn : Conn} {link : Link} :
      s.now.ending = none → s.now.up conn = some link →
      ConnStep s (.disconnect conn) (s.disconnect conn link)
  | disconnected {s : ConnRun} {conn : Conn} :
      s.now.ending = some conn → ConnStep s .disconnected (s.disconnected conn)
  | mtu {s : ConnRun} {conn : Conn} {txMtu rxMtu : ℕ} :
      s.now.ending = none → s.now.registered = true →
      ConnStep s (.mtu conn txMtu rxMtu) { s with now := s.now.bleMtuCb conn txMtu rxMtu }
  | init {s : ConnRun} {result : ℤ} :
      ConnStep s (.init result) { s with now := s.now.connInit result }
  | deinit {s : ConnRun} : ConnStep s .deinit { s with now := s.now.connDeinit }
  | disconnectCheck {s : ConnRun} {caller : ℕ} :
      s.now.disconnecting caller = false →
      ConnStep s (.disconnectCheck caller) (s.disconnectCheck caller)
  | disconnectCall {s : ConnRun} {caller : ℕ} :
      s.now.disconnecting caller = true →
      ConnStep s (.disconnectCall caller) { s with now := s.now.disconnectCall caller }

/-- The callbacks of Bluetooth and the calls of the adapter in any order, from the start of the
program. -/
def connections : System ConnRun ConnAct where
  init s := s = .start
  step := ConnStep

/-! ## Sessions -/

/-- Each connection that is reported ends before the next one, with its own address; the address is
that of the connection that has not ended. -/
inductive Sessions : List Notice → Option Address → Prop
  | nil : Sessions [] none
  | connected {history : List Notice} {addr : Address} :
      Sessions history none → Sessions (.connected addr :: history) (some addr)
  | disconnected {history : List Notice} {addr : Address} :
      Sessions history (some addr) → Sessions (.disconnected addr :: history) none
  | mtuChanged {history : List Notice} {open? : Option Address} {mtu : ℕ} :
      Sessions history open? → Sessions (.mtuChanged mtu :: history) open?

def InSessions (history : List Notice) : Prop := ∃ o, Sessions history o

theorem Sessions.unique {history : List Notice} {o o' : Option Address} (h : Sessions history o)
    (h' : Sessions history o') : o = o' := by
  induction h generalizing o' with
  | nil =>
    cases h'
    rfl
  | connected _ _ =>
    cases h'
    rfl
  | disconnected _ _ =>
    cases h'
    rfl
  | mtuChanged _ ih =>
    cases h' with
    | mtuChanged h' => exact ih h'

theorem InSessions.tail {notice : Notice} {history : List Notice}
    (h : InSessions (notice :: history)) : InSessions history := by
  obtain ⟨o, h⟩ := h
  cases h with
  | connected h => exact ⟨_, h⟩
  | disconnected h => exact ⟨_, h⟩
  | mtuChanged h => exact ⟨_, h⟩

/-- The references and the connection, and the notices where no connections overlapped. -/
structure Connections.Single (s : Connections) : Prop where
  told : ∀ conn, s.conn = some conn ↔ s.Told conn
  refs : ∀ conn, 0 < s.refs conn ↔ s.conn = some conn
  sessions : Sessions s.notices (if s.ending = none then s.conn.map fun _ => s.addr else none)

/-- What stays after an overlap: a reference that nobody can give back. -/
structure Connections.Lost (s : Connections) : Prop where
  ref : ∃ conn, 0 < s.refs conn ∧ s.conn ≠ some conn
  sessions : ¬InSessions s.notices

/-- What every run keeps. -/
structure ConnRun.Accounted (s : ConnRun) : Prop where
  held : ∀ conn, s.now.conn = some conn → s.now.refs conn = 1 ∧ s.now.Told conn
  registered : s.now.registered = false → s.now.conn = none
  single : ¬s.overlapped → s.now.Single
  lost : s.overlapped → s.now.Lost
  ending : ∀ conn, s.now.ending = some conn → s.now.conn = some conn

namespace Connections

variable {s : Connections} {conn : Conn}

theorem Single.conn_none_of_not_told (h : s.Single) (htold : ¬∃ other, s.Told other) :
    s.conn = none := by
  cases hconn : s.conn with
  | none => rfl
  | some other => exact absurd ⟨other, (h.told other).mp hconn⟩ htold

/-- A connection comes up that the callback does not take. -/
theorem Single.up (h : s.Single) (hup : s.up conn = none) {link : Link}
    (hlink : link ≠ ⟨true, true⟩) :
    Single { s with up := Function.update s.up conn (some link) } where
  told := by
    intro other
    rw [h.told other]
    unfold Told
    obtain rfl | hne := eq_or_ne other conn
    · simp [hup, hlink]
    · simp [Function.update_of_ne hne]
  refs := h.refs
  sessions := h.sessions

/-- A connection ends that the module does not hold. -/
theorem Single.down (h : s.Single) (hconn : s.conn ≠ some conn) :
    Single { s with up := Function.update s.up conn none } where
  told := by
    intro other
    rw [h.told other]
    unfold Told
    obtain rfl | hne := eq_or_ne other conn
    · have hnot : s.up other ≠ some ⟨true, true⟩ := fun ht => hconn ((h.told other).mpr ht)
      simpa using hnot
    · simp [Function.update_of_ne hne]
  refs := h.refs
  sessions := h.sessions

theorem Lost.up (h : s.Lost) {link : Option Link} :
    Lost { s with up := Function.update s.up conn link } := ⟨h.ref, h.sessions⟩

end Connections

namespace ConnRun.Accounted

variable {s : ConnRun}

/-- A connection of Sidewalk is reported. -/
theorem connected (h : s.Accounted) {conn : Conn} (addr : Address)
    (hending : s.now.ending = none) (hup : s.now.up conn = none) (hrefs : s.now.refs conn = 0)
    (hregistered : s.now.registered = true) {overlapped : Prop}
    (hoverlapped : overlapped ↔ s.overlapped ∨ ∃ other, s.now.Told other) :
    Accounted
      { s with
        now := { s.now with
          addr := addr
          conn := some conn
          refs := Function.update s.now.refs conn (s.now.refs conn + 1)
          notices := .connected addr :: s.now.notices
          up := Function.update s.now.up conn (some ⟨true, true⟩) }
        overlapped := overlapped } where
  held := by
    rintro other ⟨⟩
    simp [hrefs, Connections.Told]
  registered := by
    intro hnot
    rw [hregistered] at hnot
    cases hnot
  single := by
    intro hno
    rw [hoverlapped, not_or] at hno
    have hsingle := h.single hno.1
    have hnone := hsingle.conn_none_of_not_told hno.2
    refine ⟨?_, ?_, ?_⟩
    · intro other
      unfold Connections.Told
      obtain rfl | hne := eq_or_ne other conn
      · simp
      · have hnot : s.now.up other ≠ some ⟨true, true⟩ := fun ht => hno.2 ⟨other, ht⟩
        simpa [Function.update_of_ne hne, hne.symm] using hnot
    · intro other
      obtain rfl | hne := eq_or_ne other conn
      · simp
      · have hzero := hsingle.refs other
        rw [hnone] at hzero
        simp [Function.update_of_ne hne, hne.symm] at hzero ⊢
        exact hzero
    · have hsessions := hsingle.sessions
      rw [hnone, hending] at hsessions
      change Sessions _ (if s.now.ending = none then _ else _)
      rw [hending]
      exact .connected hsessions
  lost := by
    intro hover
    rw [hoverlapped] at hover
    by_cases hbefore : s.overlapped
    · obtain ⟨⟨other, hpos, hne⟩, hsessions⟩ := h.lost hbefore
      refine ⟨⟨other, ?_, ?_⟩, fun hin => hsessions hin.tail⟩
      · have hother : other ≠ conn := by
          rintro rfl
          omega
        simpa [Function.update_of_ne hother] using hpos
      · rintro ⟨⟩
        omega
    · -- The connection that was up loses its reference to the new one.
      obtain ⟨other, htold⟩ := hover.resolve_left hbefore
      have hsingle := h.single hbefore
      have hconn := (hsingle.told other).mpr htold
      have hother : other ≠ conn := by
        rintro rfl
        rw [Connections.Told, hup] at htold
        cases htold
      refine ⟨⟨other, ?_, ?_⟩, ?_⟩
      · change 0 < Function.update s.now.refs conn _ other
        rw [Function.update_of_ne hother, (h.held other hconn).1]
        exact Nat.one_pos
      · rintro ⟨⟩
        exact hother rfl
      · rintro ⟨o, hin⟩
        have hsessions := hsingle.sessions
        rw [hconn, hending] at hsessions
        cases hin with
        | connected hin => cases hin.unique hsessions
  ending := by
    intro other hother
    cases hending.symm.trans hother

/-- The connection of the module ends, and the adapter is told. -/
theorem ends (h : s.Accounted) {conn : Conn} (hending : s.now.ending = none)
    (hconn : s.now.conn = some conn) :
    Accounted
      { s with
        now := { s.now with
          notices := .disconnected s.now.addr :: s.now.notices
          ending := some conn } } where
  held := h.held
  registered := h.registered
  single := by
    intro hno
    have hsessions := (h.single hno).sessions
    rw [hconn, hending] at hsessions
    exact ⟨(h.single hno).told, (h.single hno).refs, .disconnected hsessions⟩
  lost := by
    intro hover
    have hlost := h.lost hover
    exact ⟨hlost.ref, fun hin => hlost.sessions hin.tail⟩
  ending := by
    rintro other ⟨⟩
    exact hconn

/-- The module gives its connection up. -/
theorem disconnected (h : s.Accounted) {conn : Conn} (hending : s.now.ending = some conn)
    {raced : ℕ → Prop} :
    Accounted
      { s with
        now := { s.now with
          conn := none
          refs := Function.update s.now.refs conn (s.now.refs conn - 1)
          up := Function.update s.now.up conn none
          ending := none }
        raced := raced } where
  held := by
    rintro other ⟨⟩
  registered := fun _ => rfl
  single := by
    intro hno
    have hsingle := h.single hno
    have hconn := h.ending conn hending
    refine ⟨?_, ?_, ?_⟩
    · intro other
      unfold Connections.Told
      obtain rfl | hne := eq_or_ne other conn
      · simp
      · have hnot : s.now.up other ≠ some ⟨true, true⟩ := by
          intro ht
          have hother := (hsingle.told other).mpr ht
          rw [hconn] at hother
          exact hne (Option.some.inj hother).symm
        simpa [Function.update_of_ne hne] using hnot
    · intro other
      obtain rfl | hne := eq_or_ne other conn
      · simp [(h.held other hconn).1]
      · have hzero := hsingle.refs other
        rw [hconn, Option.some_inj] at hzero
        have hnot : ¬0 < s.now.refs other := fun hpos => hne (hzero.mp hpos).symm
        simpa [Function.update_of_ne hne] using hnot
    · have hsessions := hsingle.sessions
      rw [hending] at hsessions
      exact hsessions
  lost := by
    intro hover
    obtain ⟨⟨other, hpos, hne⟩, hsessions⟩ := h.lost hover
    refine ⟨⟨other, ?_, nofun⟩, hsessions⟩
    have hother : other ≠ conn := by
      rintro rfl
      exact hne (h.ending other hending)
    change 0 < Function.update s.now.refs conn _ other
    rwa [Function.update_of_ne hother]
  ending := nofun

/-- Steps that leave the connection and its reports. -/
theorem frame (h : s.Accounted) {pointed registered : Bool} {disconnecting : ℕ → Bool}
    {handles : List (Option Conn)} {raced : ℕ → Prop}
    (hregistered : registered = false → s.now.registered = false) :
    Accounted
      { s with
        now := { s.now with
          pointed := pointed
          registered := registered
          disconnecting := disconnecting
          handles := handles }
        raced := raced } where
  held := h.held
  registered := fun hnot => h.registered (hregistered hnot)
  single := fun hno => ⟨(h.single hno).told, (h.single hno).refs, (h.single hno).sessions⟩
  lost := fun hover => ⟨(h.lost hover).ref, (h.lost hover).sessions⟩
  ending := h.ending

theorem mtuChanged (h : s.Accounted) {mtu : ℕ} :
    Accounted { s with now := { s.now with notices := .mtuChanged mtu :: s.now.notices } } where
  held := h.held
  registered := h.registered
  single := by
    intro hno
    have hsingle := h.single hno
    exact ⟨hsingle.told, hsingle.refs, .mtuChanged hsingle.sessions⟩
  lost := by
    intro hover
    have hlost := h.lost hover
    exact ⟨hlost.ref, fun hin => hlost.sessions hin.tail⟩
  ending := h.ending

/-- A connection comes up that the module does not take. -/
theorem unseen (h : s.Accounted) {conn : Conn} (hup : s.now.up conn = none) {link : Link}
    (hlink : link ≠ ⟨true, true⟩) {overlapped : Prop} (hsame : overlapped ↔ s.overlapped) :
    Accounted
      { s with
        now := { s.now with up := Function.update s.now.up conn (some link) }
        overlapped := overlapped } where
  held := by
    intro other hother
    obtain ⟨href, htold⟩ := h.held other hother
    refine ⟨href, ?_⟩
    have hne : other ≠ conn := by
      rintro rfl
      rw [Connections.Told, hup] at htold
      cases htold
    simpa [Connections.Told, Function.update_of_ne hne] using htold
  registered := h.registered
  single := fun hno => (h.single (hsame.not.mp hno)).up hup hlink
  lost := fun hover => (h.lost (hsame.mp hover)).up
  ending := h.ending

/-- A connection ends that the module does not hold. -/
theorem down (h : s.Accounted) {conn : Conn} (hconn : s.now.conn ≠ some conn) :
    Accounted { s with now := { s.now with up := Function.update s.now.up conn none } } where
  held := by
    intro other hother
    obtain ⟨href, htold⟩ := h.held other hother
    refine ⟨href, ?_⟩
    have hne : other ≠ conn := by
      rintro rfl
      exact hconn hother
    simpa [Connections.Told, Function.update_of_ne hne] using htold
  registered := h.registered
  single := fun hno => (h.single hno).down hconn
  lost := fun hover => (h.lost hover).up
  ending := h.ending

theorem step (h : s.Accounted) {a : ConnAct} {s' : ConnRun} (hstep : ConnStep s a s') :
    s'.Accounted := by
  cases hstep with
  | @connect conn sidewalk dst connErr hending hup hrefs =>
    unfold connect
    by_cases herr : connErr = 0
    · subst herr
      by_cases htaken : s.now.registered = true ∧ sidewalk = true
      · obtain ⟨hregistered, rfl⟩ := htaken
        rw [Connections.comesUp_taken hregistered]
        refine h.connected _ hending hup hrefs hregistered ?_
        simp [hregistered]
      · rw [Connections.comesUp_unseen (by simpa using htaken)]
        refine h.unseen hup ?_ ?_
        · intro hlink
          rw [Link.mk.injEq] at hlink
          exact htaken hlink.symm
        · constructor
          · rintro (hover | ⟨hregistered, hsidewalk, -⟩)
            · exact hover
            · exact absurd ⟨hregistered, hsidewalk⟩ htaken
          · exact .inl
    · rw [Connections.comesUp_failed herr]
      simpa [herr] using h
  | @disconnect conn link hending hup =>
    unfold disconnect
    by_cases htaken : s.now.registered = true ∧ link.sidewalk = true ∧ s.now.conn = some conn
    · obtain ⟨hregistered, hsidewalk, hconn⟩ := htaken
      rw [Connections.ends_taken hregistered hsidewalk hconn]
      exact h.ends hending hconn
    · have hother : s.now.conn ≠ some conn := by
        intro hconn
        obtain ⟨-, htold⟩ := h.held conn hconn
        rw [Connections.Told, hup, Option.some_inj] at htold
        refine htaken ⟨?_, by rw [htold], hconn⟩
        by_contra hregistered
        rw [h.registered (by simpa using hregistered)] at hconn
        cases hconn
      rw [Connections.ends_other (fun _ => .inr hother) hending]
      exact h.down hother
  | @disconnected conn hending =>
    unfold ConnRun.disconnected
    rw [Connections.ended_held (h.ending conn hending)]
    exact h.disconnected hending
  | mtu =>
    simp only [Connections.bleMtuCb]
    split
    · exact h.mtuChanged
    · exact h
  | init =>
    simp only [Connections.connInit]
    split
    · exact h.frame nofun
    · exact h.frame id
  | deinit => exact h.frame id
  | disconnectCheck =>
    simp only [disconnectCheck, Connections.disconnectCheck]
    split
    · exact h.frame id
    · exact h.frame id
  | disconnectCall => exact h.frame id

end ConnRun.Accounted

theorem accounted_start : ConnRun.start.Accounted where
  held := nofun
  registered := fun _ => rfl
  single := by
    intro _
    refine ⟨?_, ?_, .nil⟩ <;> intro conn <;> simp [ConnRun.start, Connections.Told]
  lost := False.elim
  ending := nofun

theorem accounted_reached {s : ConnRun} (h : connections.Reachable s) : s.Accounted := by
  refine h.invariant ?_ ?_
  · rintro s rfl
    exact accounted_start
  · intro s a s' hs _ hstep
    exact hs.step hstep

/-- The adapter sees sessions, one after the other, and every reference is given back in the end,
just where no connection of Sidewalk comes up while another one is. Then the module holds the
connection that is up. -/
theorem connections_sessions_iff {s : ConnRun} (h : connections.Reachable s) :
    (InSessions s.now.notices ↔ ¬s.overlapped) ∧
      ((∀ conn, 0 < s.now.refs conn → s.now.conn = some conn) ↔ ¬s.overlapped) ∧
        (¬s.overlapped → ∀ conn, s.now.conn = some conn ↔ s.now.Told conn) := by
  have hs := accounted_reached h
  refine ⟨⟨?_, ?_⟩, ⟨?_, ?_⟩, fun hno => (hs.single hno).told⟩
  · intro hin hover
    exact (hs.lost hover).sessions hin
  · intro hno
    exact ⟨_, (hs.single hno).sessions⟩
  · intro hrefs hover
    obtain ⟨conn, hpos, hne⟩ := (hs.lost hover).ref
    exact hne (hrefs conn hpos)
  · intro hno conn hpos
    exact ((hs.single hno).refs conn).mp hpos

/-- The adapter has registered, and one connection has come up. -/
def oneConnection : ConnRun :=
  { ConnRun.start with now := ConnRun.start.now.connInit 0 }.connect 1 true none 0

theorem oneConnection_reached : connections.Reachable oneConnection := by
  apply System.Reached.step (a := .connect 1 true none 0) _ trivial
  · exact .connect rfl rfl rfl
  · apply System.Reached.step (a := .init 0) (.init rfl) trivial
    exact .init

theorem connections_sessions_iff_oneConnection :
    InSessions oneConnection.now.notices ↔ ¬oneConnection.overlapped :=
  (connections_sessions_iff oneConnection_reached).1

/-! ## Disconnecting -/

/-- A caller that is past its check finds a connection, or the module gave one up in between. -/
def ConnRun.Checked (s : ConnRun) : Prop :=
  ∀ caller, s.now.disconnecting caller = true → s.now.conn = none → s.raced caller

/-- A step that takes no connection from the module. -/
theorem ConnRun.Checked.mono {s s' : ConnRun} (h : s.Checked)
    (hdisconnecting : s'.now.disconnecting = s.now.disconnecting)
    (hconn : s'.now.conn = none → s.now.conn = none) (hraced : s'.raced = s.raced) :
    s'.Checked := by
  intro caller hd hc
  rw [hraced]
  rw [hdisconnecting] at hd
  exact h caller hd (hconn hc)

namespace Connections

variable {s : Connections} {conn : Conn}

theorem comesUp_checked {sidewalk : Bool} {dst : Option Address} {connErr : UInt8} :
    (s.comesUp conn sidewalk dst connErr).disconnecting = s.disconnecting ∧
      ((s.comesUp conn sidewalk dst connErr).conn = none → s.conn = none) := by
  unfold comesUp bleConnectCb
  dsimp only
  split_ifs <;> simp

theorem ends_checked {link : Link} :
    (s.ends conn link).disconnecting = s.disconnecting ∧ (s.ends conn link).conn = s.conn := by
  unfold ends bleDisconnectCb
  dsimp only
  split_ifs <;> exact ⟨rfl, rfl⟩

end Connections

theorem ConnRun.Checked.step {s s' : ConnRun} (h : s.Checked) {a : ConnAct}
    (hstep : ConnStep s a s') : s'.Checked := by
  cases hstep with
  | connect =>
    obtain ⟨hdisconnecting, hconn⟩ := Connections.comesUp_checked
    exact h.mono hdisconnecting hconn rfl
  | disconnect =>
    obtain ⟨hdisconnecting, hconn⟩ := Connections.ends_checked
    exact h.mono hdisconnecting (fun hnone => hconn ▸ hnone) rfl
  | disconnected => exact fun _ _ _ => trivial
  | mtu =>
    simp only [Connections.bleMtuCb]
    split
    · exact h
    · exact h
  | init =>
    simp only [Connections.connInit]
    split
    · exact h
    · exact h
  | deinit => exact h
  | @disconnectCheck caller hidle =>
    intro other hdisconnecting hconn
    simp only [ConnRun.disconnectCheck, Connections.disconnectCheck] at hdisconnecting hconn ⊢
    split at hdisconnecting
    · next hnone =>
      -- Nobody was past the check that finds no connection.
      have hne : other ≠ caller := by
        rintro rfl
        rw [hidle] at hdisconnecting
        cases hdisconnecting
      rw [Function.update_of_ne hne]
      exact h other hdisconnecting hnone
    · next hsome =>
      rw [if_neg hsome] at hconn
      exact absurd hconn hsome
  | @disconnectCall caller _ =>
    intro other hdisconnecting hconn
    have hne : other ≠ caller := by
      rintro rfl
      simp [Connections.disconnectCall] at hdisconnecting
    simp only [Connections.disconnectCall, Function.update_of_ne hne] at hdisconnecting hconn
    exact h other hdisconnecting hconn

theorem checked_reached {s : ConnRun} (h : connections.Reachable s) : s.Checked := by
  refine h.invariant ?_ ?_
  · rintro s rfl
    nofun
  · intro s a s' hs _ hstep
    exact hs.step hstep

/-- `bt_conn_disconnect` is called for a connection on which the module has its reference, which is
up unless `ble_disconnect_cb` has told the adapter of its end and waits for the mutex, or without
one, when the module has given its connection up since the caller's check. -/
theorem disconnectCall_handle {s s' : ConnRun} {caller : ℕ} (h : connections.Reachable s)
    (hstep : ConnStep s (.disconnectCall caller) s') :
    (∃ conn, s'.now.handles = some conn :: s.now.handles ∧ s.now.refs conn = 1 ∧
      (s.now.Told conn ∧ s.now.ending ≠ some conn ∨ s.now.ending = some conn)) ∨
      (s'.now.handles = none :: s.now.handles ∧ s.raced caller) := by
  cases hstep with
  | disconnectCall hdisconnecting =>
    cases hconn : s.now.conn with
    | none =>
      refine .inr ⟨?_, checked_reached h caller hdisconnecting hconn⟩
      rw [Connections.disconnectCall, hconn]
    | some conn =>
      obtain ⟨href, htold⟩ := (accounted_reached h).held conn hconn
      refine .inl ⟨conn, ?_, href, ?_⟩
      · rw [Connections.disconnectCall, hconn]
      · by_cases hending : s.now.ending = some conn
        · exact .inr hending
        · exact .inl ⟨htold, hending⟩

/-- A caller is past its check, and the connection ends before its call. -/
def endedConnection : ConnRun :=
  ((oneConnection.disconnectCheck 7).disconnect 1 ⟨true, true⟩).disconnected 1

theorem disconnectCall_handle_endedConnection :
    (∃ conn, [none] = [some conn] ∧ endedConnection.now.refs conn = 1 ∧
      (endedConnection.now.Told conn ∧ endedConnection.now.ending ≠ some conn ∨
        endedConnection.now.ending = some conn)) ∨
      ([none] = [(none : Option Conn)] ∧ endedConnection.raced 7) := by
  refine disconnectCall_handle (s := endedConnection) ?_ (.disconnectCall (by decide))
  apply System.Reached.step (a := .disconnected) _ trivial
  · exact .disconnected (by decide)
  apply System.Reached.step (a := .disconnect 1) _ trivial
  · exact .disconnect (by decide) rfl
  exact .step (a := .disconnectCheck 7) oneConnection_reached trivial (.disconnectCheck rfl)

end Sidewalk.Ble
