import Mathlib
import Sidewalk.Lib.System

/-!
# Bluetooth advertising

`sid_ble_advert.c`: the advertising set, the state of the advertising, and the delayed work that
ends a session or makes it a slow one. Every call of Bluetooth gives a result from outside. A
session goes by the set that it was started with. The intervals, which only Bluetooth reads, are
left out.
-/

namespace Sidewalk.Ble

open Lib

/-! ## State -/

inductive AdvState
  | disable
  | fast
  | slow
  deriving DecidableEq, Repr

/-- `sid_ble_advert_params_t`; the timeouts are in units of 10 ms. -/
structure AdvertParams where
  fastEnabled : Bool
  slowEnabled : Bool
  fastTimeout : Nat
  slowTimeout : Nat
  deriving DecidableEq, Repr

/-- The results of the calls of Bluetooth in one operation, zero for success. -/
structure BtResults where
  stop : Int
  delete : Int
  create : Int
  setData : Int
  start : Int
  /-- The result of deleting a set that could not be started. -/
  cleanup : Int
  deriving DecidableEq, Repr

def BtResults.success : BtResults := ⟨0, 0, 0, 0, 0, 0⟩

structure Advert where
  advSet : Option Nat
  advState : AdvState
  advertParams : AdvertParams
  /-- The session whose start has scheduled `change_adv_work`, where this is pending. -/
  changeAdvWork : Option Nat
  /-- The manufacturer data of `ad`. -/
  manufData : List UInt8
  /-- The sets that Bluetooth holds. -/
  sets : List Nat
  /-- The number of sets that were created. -/
  created : Nat
  /-- The timeout that each session was started with. -/
  timeout : Nat → Nat

def einval : Int := 22

/-- `BT_COMP_ID_AMA` in little endian. -/
def compIdAma : List UInt8 := [0x71, 0x01]

/-- `AD_MANUF_DATA_LEN_MAX`. -/
def adManufDataLenMax : Nat := 22

/-! ## Operations -/

namespace Advert

/-- The set is gone if Bluetooth deletes it. -/
def btDelete (s : Advert) (id : Nat) (result : Int) : Advert :=
  if result = 0 then { s with sets := s.sets.erase id } else s

def advStartWithParam (r : BtResults) (newState : AdvState) (timeout10ms : Nat) (s : Advert) :
    Int × Advert :=
  if r.create ≠ 0 then (r.create, s)
  else
    let id := s.created
    let s := { s with advSet := some id, sets := id :: s.sets, created := s.created + 1 }
    if r.setData ≠ 0 then (r.setData, { s.btDelete id r.cleanup with advSet := none })
    else if r.start ≠ 0 then (r.start, { s.btDelete id r.cleanup with advSet := none })
    else
      let s := { s with advState := newState, timeout := Function.update s.timeout id timeout10ms }
      (0, if 0 < timeout10ms then { s with changeAdvWork := some id } else s)

/-- The handler of `change_adv_work`, which is no longer pending. -/
def advIntervalChange (r : BtResults) (s : Advert) : Advert :=
  let s := { s with changeAdvWork := none }
  match s.advSet with
  | none => s
  | some id =>
    if r.stop ≠ 0 then { s with advState := .disable }
    else if r.delete ≠ 0 then { s with advState := .disable }
    else
      let s := { s.btDelete id r.delete with advSet := none }
      if s.advState = .fast ∧ s.advertParams.slowEnabled = true then
        match s.advStartWithParam r .slow s.advertParams.slowTimeout with
        | (err, s) => if err ≠ 0 then { s with advState := .disable } else s
      else { s with advState := .disable }

/-- What `sid_ble_advert_start` does to a set from before. -/
def clearSet (r : BtResults) (s : Advert) : Advert :=
  match s.advSet with
  | none => s
  | some id =>
    { s.btDelete id r.delete with advSet := none, advState := .disable, changeAdvWork := none }

def start (r : BtResults) (s : Advert) : Int × Advert :=
  let s := s.clearSet r
  if s.advertParams.fastEnabled = true then s.advStartWithParam r .fast s.advertParams.fastTimeout
  else if s.advertParams.slowEnabled = true then
    s.advStartWithParam r .slow s.advertParams.slowTimeout
  else (0, s)

def update (r : BtResults) (data : List UInt8) (s : Advert) : Int × Advert :=
  if data = [] then (-einval, s)
  else
    let s := { s with
      manufData := compIdAma ++ data.take (adManufDataLenMax - compIdAma.length) }
    (if s.advState ≠ .disable then r.setData else 0, s)

def notifyConnection (s : Advert) : Advert := { s with changeAdvWork := none }

def paramsSet (params : AdvertParams) (s : Advert) : Advert := { s with advertParams := params }

def stop (r : BtResults) (s : Advert) : Int × Advert :=
  let s := { s with changeAdvWork := none }
  match s.advSet with
  | none => (0, { s with advState := .disable })
  | some _ => (r.stop, if r.stop = 0 then { s with advState := .disable } else s)

def deinit (r : BtResults) (s : Advert) : Int × Advert :=
  match s.advSet with
  | none => (0, s)
  | some id => if r.delete ≠ 0 then (r.delete, s) else (0, { s.btDelete id 0 with advSet := none })

end Advert

/-! ## Runs -/

inductive AdvertAct
  | start (r : BtResults)
  | stop (r : BtResults)
  | update (r : BtResults) (data : List UInt8)
  | paramsSet (params : AdvertParams)
  | notifyConnection
  | deinit (r : BtResults)
  /-- `change_adv_work` fires. -/
  | fire (r : BtResults)

/-- The calls and the firings of pending work, from no set at all. -/
def advertising : System Advert AdvertAct where
  init s := s.advSet = none ∧ s.advState = .disable ∧ s.changeAdvWork = none
  step s a s' :=
    match a with
    | .start r => s' = (s.start r).2
    | .stop r => s' = (s.stop r).2
    | .update r data => s' = (s.update r data).2
    | .paramsSet params => s' = s.paramsSet params
    | .notifyConnection => s' = s.notifyConnection
    | .deinit r => s' = (s.deinit r).2
    | .fire r => s.changeAdvWork ≠ none ∧ s' = s.advIntervalChange r

/-- A set is deleted by `sid_ble_advert_deinit` only while the state says that nothing is
advertised. -/
def DeinitDisabled (s : Advert) : AdvertAct → Prop
  | .deinit r => s.advSet ≠ none → r.delete = 0 → s.advState = .disable
  | _ => True

/-- What holds between operations. -/
structure Advert.Coherent (s : Advert) : Prop where
  held : ∀ id, s.advSet = some id → id ∈ s.sets
  enabled : s.advState ≠ .disable → s.advSet ≠ none
  scheduled : ∀ n, s.changeAdvWork = some n →
    s.advSet = some n ∧ s.timeout n ≠ 0 ∧ s.advState ≠ .disable

namespace Advert.Coherent

variable {s : Advert}

/-- Without a set there is no session. -/
theorem of_idle (hset : s.advSet = none) (hstate : s.advState = .disable)
    (hwork : s.changeAdvWork = none) : s.Coherent := by
  refine ⟨?_, fun h => absurd hstate h, ?_⟩
  · intro id hid
    rw [hset] at hid
    cases hid
  · intro n hn
    rw [hwork] at hn
    cases hn

/-- Work that is cancelled while the set stays. -/
theorem cancel (h : s.Coherent) {s' : Advert} (hset : s'.advSet = s.advSet)
    (hsets : s'.sets = s.sets) (hstate : s'.advState = s.advState ∨ s'.advState = .disable)
    (hwork : s'.changeAdvWork = none) : s'.Coherent := by
  refine ⟨?_, ?_, ?_⟩
  · intro id hid
    rw [hset] at hid
    rw [hsets]
    exact h.held id hid
  · intro henabled
    rw [hset]
    exact h.enabled (hstate.resolve_right henabled ▸ henabled)
  · intro n hn
    rw [hwork] at hn
    cases hn

/-- What a start leaves that began with no set and nothing scheduled. -/
theorem advStartWithParam (hset : s.advSet = none) (hwork : s.changeAdvWork = none)
    (r : BtResults) {newState : AdvState} (hnew : newState ≠ .disable) (timeout10ms : Nat) :
    ((s.advStartWithParam r newState timeout10ms).1 = 0 ∧
        (s.advStartWithParam r newState timeout10ms).2.Coherent) ∨
      ((s.advStartWithParam r newState timeout10ms).1 ≠ 0 ∧
        (s.advStartWithParam r newState timeout10ms).2.advSet = none ∧
        (s.advStartWithParam r newState timeout10ms).2.advState = s.advState ∧
        (s.advStartWithParam r newState timeout10ms).2.changeAdvWork = none) := by
  have hdelete (s : Advert) (id : Nat) (result : Int) :
      (s.btDelete id result).advState = s.advState ∧
        (s.btDelete id result).changeAdvWork = s.changeAdvWork := by
    unfold btDelete
    split <;> exact ⟨rfl, rfl⟩
  unfold Advert.advStartWithParam
  by_cases hcreate : r.create ≠ 0
  · rw [if_pos hcreate]
    exact .inr ⟨hcreate, hset, rfl, hwork⟩
  · rw [if_neg hcreate]
    by_cases hdata : r.setData ≠ 0
    · simp only [if_pos hdata]
      refine .inr ⟨hdata, trivial, ?_, ?_⟩
      · exact (hdelete _ _ _).1
      · exact (hdelete _ _ _).2.trans hwork
    · simp only [if_neg hdata]
      by_cases hstart : r.start ≠ 0
      · simp only [if_pos hstart]
        refine .inr ⟨hstart, trivial, ?_, ?_⟩
        · exact (hdelete _ _ _).1
        · exact (hdelete _ _ _).2.trans hwork
      · simp only [if_neg hstart]
        refine .inl ⟨trivial, ?_⟩
        by_cases hpos : 0 < timeout10ms
        · rw [if_pos hpos]
          refine ⟨?_, fun _ => nofun, ?_⟩
          · rintro id ⟨⟩
            exact List.mem_cons_self
          · rintro n ⟨⟩
            refine ⟨rfl, ?_, hnew⟩
            simp only [Function.update_self]
            exact Nat.pos_iff_ne_zero.mp hpos
        · rw [if_neg hpos]
          refine ⟨?_, fun _ => nofun, ?_⟩
          · rintro id ⟨⟩
            exact List.mem_cons_self
          · intro n hn
            change s.changeAdvWork = some n at hn
            rw [hwork] at hn
            cases hn

/-- Without a set nothing is scheduled and the state says so. -/
theorem of_advSet_none (h : s.Coherent) (hset : s.advSet = none) :
    s.advState = .disable ∧ s.changeAdvWork = none := by
  refine ⟨?_, ?_⟩
  · by_contra hne
    exact h.enabled hne hset
  · cases hwork : s.changeAdvWork with
    | none => rfl
    | some n =>
      rw [(h.scheduled n hwork).1] at hset
      cases hset

theorem clearSet (h : s.Coherent) (r : BtResults) :
    (s.clearSet r).advSet = none ∧ (s.clearSet r).advState = .disable ∧
      (s.clearSet r).changeAdvWork = none := by
  unfold Advert.clearSet
  split
  · next hset => exact ⟨hset, h.of_advSet_none hset⟩
  · exact ⟨rfl, rfl, rfl⟩

theorem start (h : s.Coherent) (r : BtResults) : (s.start r).2.Coherent := by
  obtain ⟨hset, hstate, hwork⟩ := h.clearSet r
  have hsession (newState : AdvState) (hnew : newState ≠ .disable) (timeout10ms : Nat) :
      ((s.clearSet r).advStartWithParam r newState timeout10ms).2.Coherent := by
    rcases Coherent.advStartWithParam hset hwork r hnew timeout10ms with
      ⟨-, hcoherent⟩ | ⟨-, hset', hstate', hwork'⟩
    · exact hcoherent
    · exact of_idle hset' (hstate'.trans hstate) hwork'
  unfold Advert.start
  simp only
  split
  · exact hsession .fast nofun _
  · split
    · exact hsession .slow nofun _
    · exact of_idle hset hstate hwork

theorem stop (h : s.Coherent) (r : BtResults) : (s.stop r).2.Coherent := by
  unfold Advert.stop
  simp only
  split
  · exact h.cancel rfl rfl (.inr rfl) rfl
  · split
    · exact h.cancel rfl rfl (.inr rfl) rfl
    · exact h.cancel rfl rfl (.inl rfl) rfl

theorem deinit (h : s.Coherent) (r : BtResults) (hguard : DeinitDisabled s (.deinit r)) :
    (s.deinit r).2.Coherent := by
  unfold Advert.deinit
  split
  · exact h
  · next id hset =>
    split
    · exact h
    · next hdelete =>
      have hstate := hguard (by rw [hset]; exact nofun) (not_not.mp hdelete)
      refine of_idle rfl hstate ?_
      cases hwork : s.changeAdvWork with
      | none => exact hwork
      | some n => exact absurd hstate (h.scheduled n hwork).2.2

theorem advIntervalChange (h : s.Coherent) (r : BtResults) : (s.advIntervalChange r).Coherent := by
  unfold Advert.advIntervalChange
  simp only
  split
  · exact h.cancel rfl rfl (.inl rfl) rfl
  · next id hset =>
    split
    · exact h.cancel rfl rfl (.inr rfl) rfl
    · split
      · exact h.cancel rfl rfl (.inr rfl) rfl
      · next hdelete =>
        have hidle : ({ btDelete { s with changeAdvWork := none } id r.delete with
            advSet := none } : Advert).changeAdvWork = none := by
          unfold btDelete
          split <;> rfl
        split
        · rcases Coherent.advStartWithParam rfl hidle r (nofun : AdvState.slow ≠ .disable)
            (btDelete { s with changeAdvWork := none } id r.delete).advertParams.slowTimeout with
            ⟨hzero, hcoherent⟩ | ⟨herr, hset', -, hwork'⟩
          · rw [if_neg (not_not.mpr hzero)]
            exact hcoherent
          · rw [if_pos herr]
            exact of_idle hset' rfl hwork'
        · exact of_idle rfl rfl hidle

/-- Every operation that meets the guard keeps the state coherent. -/
theorem step (h : s.Coherent) {a : AdvertAct} {s' : Advert} (hguard : DeinitDisabled s a)
    (hstep : advertising.step s a s') : s'.Coherent := by
  cases a with
  | start r =>
    cases hstep
    exact h.start r
  | stop r =>
    cases hstep
    exact h.stop r
  | update r data =>
    cases hstep
    unfold Advert.update
    split
    · exact h
    · exact ⟨h.held, h.enabled, h.scheduled⟩
  | paramsSet params =>
    cases hstep
    exact ⟨h.held, h.enabled, h.scheduled⟩
  | notifyConnection =>
    cases hstep
    exact h.cancel rfl rfl (.inl rfl) rfl
  | deinit r =>
    cases hstep
    exact h.deinit r hguard
  | fire r =>
    obtain ⟨-, rfl⟩ := hstep
    exact h.advIntervalChange r

end Advert.Coherent

/-- In every run that deletes sets only while nothing is advertised, there is a set whenever
something is advertised, and pending work is that of the session of the set, which has a
timeout. -/
theorem advertising_coherent (s : Advert) (h : advertising.Reached DeinitDisabled s) :
    (s.advState ≠ .disable → ∃ id ∈ s.sets, s.advSet = some id) ∧
      ∀ n id, s.changeAdvWork = some n → s.advSet = some id → id = n ∧ s.timeout id ≠ 0 := by
  have hinv : s.Coherent := by
    refine System.Reached.invariant (I := Advert.Coherent) ?_ ?_ h
    · rintro s ⟨hset, hstate, hwork⟩
      exact .of_idle hset hstate hwork
    · exact fun s a s' hs hguard hstep => hs.step hguard hstep
  refine ⟨?_, ?_⟩
  · intro henabled
    cases hset : s.advSet with
    | none => exact absurd hset (hinv.enabled henabled)
    | some id => exact ⟨id, hinv.held id hset, rfl⟩
  · intro n id hwork hset
    obtain ⟨hset', htimeout, -⟩ := hinv.scheduled n hwork
    rw [hset'] at hset
    cases hset
    exact ⟨rfl, htimeout⟩

/-! ## A set that is deleted under a session -/

/-- The state before the first call, with the parameters of the default configuration. -/
def freshAdvert : Advert where
  advSet := none
  advState := .disable
  advertParams := ⟨true, true, 3000, 0⟩
  changeAdvWork := none
  manufData := []
  sets := []
  created := 0
  timeout _ := 0

theorem freshAdvert_init : advertising.init freshAdvert := ⟨rfl, rfl, rfl⟩

/-- A session that was started. -/
theorem advertising_coherent_started :
    let s := (freshAdvert.start .success).2
    s.advState = .fast ∧ (s.advState ≠ .disable → ∃ id ∈ s.sets, s.advSet = some id) ∧
      ∀ n id, s.changeAdvWork = some n → s.advSet = some id → id = n ∧ s.timeout id ≠ 0 :=
  ⟨rfl, advertising_coherent _ (.step (a := .start .success) (.init freshAdvert_init) trivial rfl)⟩

/-- `sid_ble_advert_deinit` leaves the state of the session whose set it deletes. -/
theorem deinit_leaves_state :
    ¬∀ s : Advert, advertising.Reachable s →
      (s.advState ≠ .disable → ∃ id ∈ s.sets, s.advSet = some id) ∧
        ∀ n id, s.changeAdvWork = some n → s.advSet = some id → id = n ∧ s.timeout id ≠ 0 := by
  intro h
  have hstarted : advertising.Reachable (freshAdvert.start .success).2 :=
    .step (a := .start .success) (.init freshAdvert_init) trivial rfl
  have hdeinit : advertising.Reachable ((freshAdvert.start .success).2.deinit .success).2 :=
    .step (a := .deinit .success) hstarted trivial rfl
  obtain ⟨id, -, hset⟩ := (h _ hdeinit).1 nofun
  cases hset

end Sidewalk.Ble
