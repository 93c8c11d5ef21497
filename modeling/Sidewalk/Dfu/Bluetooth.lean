import Mathlib

/-!
# Entering and leaving DFU mode

`nordic_dfu_ble_start` and `nordic_dfu_ble_stop`, and the reference count of the Bluetooth stack in
`bt_app_callbacks.c` that they share with the Sidewalk adapter. The results of the calls into the
stack are given.
-/

namespace Sidewalk.Dfu

/-! ## The shared stack -/

def ealready : Int := 120

/-- `sid_ble_bt_enable` without a callback; `btEnable` is what `bt_enable` returns. -/
def sidBleBtEnable (btEnable : Int) (btEnableCount : UInt32) : Int × UInt32 :=
  if btEnableCount = 0 then (btEnable, if btEnable = 0 then btEnableCount + 1 else btEnableCount)
  else (0, btEnableCount + 1)

/-- `sid_ble_bt_disable`: an `int` that tells the number of users left, or an error. -/
def sidBleBtDisable (btDisable : Int) (btEnableCount : UInt32) : Int × UInt32 :=
  if btEnableCount ≤ 0 then (-ealready, 0)
  else if btEnableCount = 1 then (btDisable, 0)
  else ((btEnableCount - 1).toBitVec.toInt, btEnableCount - 1)

/-! ## DFU mode -/

inductive LedStatus
  | toggleAll
  | loadingWheel
  deriving DecidableEq

/-- The static variables of `nordic_dfu.c`, and what the calls change around it: the identities of
the stack, the registered callbacks and the state notifier. `adv` is the advertising set with
whether it is started. -/
structure NordicDfu where
  btEnableCount : UInt32
  ids : Nat
  connCallbacks : Bool
  mgmtCallback : Bool
  advParamsId : Nat
  adv : Option Bool
  inDfuMode : Bool
  exitTimer : Bool
  ledTimer : Bool
  ledStatus : LedStatus
  notifier : Bool
  deriving DecidableEq

/-- What the stack answers while DFU mode is entered; `idCreate k` is for identity `k`. -/
structure StartAnswers where
  btEnable : Int
  idCreate : Nat → Int
  advCreate : Int
  advSetData : Int
  advStart : Int

/-- What the stack answers while DFU mode is left. -/
structure StopAnswers where
  advStop : Int
  advDelete : Int
  btDisable : Int

def btIdDefault : Nat := 0
def btIdSmpDfu : Nat := 2

/-- The loop of `create_ble_id` that creates identities up to the one of DFU, with the number of
rounds to go; an identity is numbered by those that exist. -/
def createLoop (idCreate : Nat → Int) : Nat → Nat → Int × Nat
  | 0, ids => (btIdDefault, ids)
  | rounds + 1, ids =>
    if idCreate ids < 0 then (idCreate ids, ids) else createLoop idCreate rounds (ids + 1)

def createBleId (idCreate : Nat → Int) (ids : Nat) : Int × Nat :=
  if ids > btIdSmpDfu then (0, ids) else createLoop idCreate (btIdSmpDfu + 1 - ids) ids

/-- When no identity can be created the result is that of the Bluetooth enable. -/
def nordicDfuBleStart (r : StartAnswers) (s : NordicDfu) : Int × NordicDfu :=
  let s := { s with notifier := true }
  let enabled := sidBleBtEnable r.btEnable s.btEnableCount
  let err := enabled.1
  let s := { s with btEnableCount := enabled.2 }
  if err ≠ 0 ∧ err ≠ -ealready then (err, s)
  else
    let s := { s with connCallbacks := true, mgmtCallback := true }
    let created := createBleId r.idCreate s.ids
    let s := { s with ids := created.2 }
    if created.1 < 0 then (err, s)
    else
      let s := { s with advParamsId := btIdSmpDfu }
      if r.advCreate ≠ 0 then (r.advCreate, s)
      else
        let s := { s with adv := some false }
        if r.advSetData ≠ 0 then (r.advSetData, s)
        else if r.advStart ≠ 0 then (r.advStart, s)
        else
          (0, { s with adv := some true, inDfuMode := true, exitTimer := true,
                       ledStatus := .toggleAll, ledTimer := true })

def nordicDfuBleStop (r : StopAnswers) (s : NordicDfu) : Int × NordicDfu :=
  let s := { s with inDfuMode := false, connCallbacks := false, mgmtCallback := false }
  if r.advStop ≠ 0 then (r.advStop, s)
  else
    let s := { s with adv := s.adv.map fun _ => false }
    if r.advDelete ≠ 0 then (r.advDelete, s)
    else
      let s := { s with adv := none }
      let disabled := sidBleBtDisable r.btDisable s.btEnableCount
      let s := { s with btEnableCount := disabled.2 }
      if disabled.1 ≠ 0 then (disabled.1, s)
      else (0, { s with ledTimer := false, exitTimer := false, notifier := false })

/-! ## What is asked of them -/

/-- In DFU mode, with the advertising set started and both timers running. -/
structure NordicDfu.InMode (s : NordicDfu) : Prop where
  mode : s.inDfuMode = true
  adv : s.adv = some true
  exitTimer : s.exitTimer = true
  ledTimer : s.ledTimer = true

/-- The references and callbacks are those of the other state. -/
structure NordicDfu.SameUse (s s' : NordicDfu) : Prop where
  count : s.btEnableCount = s'.btEnableCount
  connCallbacks : s.connCallbacks = s'.connCallbacks
  mgmtCallback : s.mgmtCallback = s'.mgmtCallback

/-- The mode is entered, or nothing is taken. -/
structure StartTransactional (r : StartAnswers) (s : NordicDfu) : Prop where
  returns_iff : (nordicDfuBleStart r s).1 = 0 ↔ (nordicDfuBleStart r s).2.InMode
  otherwise : ¬ (nordicDfuBleStart r s).2.InMode → (nordicDfuBleStart r s).2.SameUse s

/-- Everything the mode took is given back; `others` is what other users hold. -/
structure NordicDfu.Left (s : NordicDfu) (others : UInt32) : Prop where
  mode : s.inDfuMode = false
  adv : s.adv = none
  exitTimer : s.exitTimer = false
  ledTimer : s.ledTimer = false
  notifier : s.notifier = false
  count : s.btEnableCount = others

/-- Other users enable and disable Bluetooth, so that they hold `others` in place of `before`. -/
def NordicDfu.usedBy (before others : UInt32) (s : NordicDfu) : NordicDfu :=
  { s with btEnableCount := s.btEnableCount - before + others }

/-- After a successful start, when all calls succeed, the mode is left. -/
def StopRestores (r : StartAnswers) (s : NordicDfu) (others : UInt32) : Prop :=
  (nordicDfuBleStart r s).1 = 0 →
    (nordicDfuBleStop ⟨0, 0, 0⟩
      ((nordicDfuBleStart r s).2.usedBy s.btEnableCount others)).1 = 0 ∧
    (nordicDfuBleStop ⟨0, 0, 0⟩
      ((nordicDfuBleStart r s).2.usedBy s.btEnableCount others)).2.Left others

/-- DFU mode has not been entered: its callbacks are not registered. -/
structure NordicDfu.Idle (s : NordicDfu) : Prop where
  mode : s.inDfuMode = false
  connCallbacks : s.connCallbacks = false
  mgmtCallback : s.mgmtCallback = false

/-! ## When they meet it -/

/-- Nobody uses Bluetooth yet and enabling it fails. -/
def EnableFails (r : StartAnswers) (s : NordicDfu) : Prop :=
  s.btEnableCount = 0 ∧ r.btEnable ≠ 0 ∧ r.btEnable ≠ -ealready

/-- The calls that follow the enable succeed. -/
structure AdvertisingStarts (r : StartAnswers) (s : NordicDfu) : Prop where
  idCreate : ∀ k, s.ids ≤ k → k ≤ btIdSmpDfu → 0 ≤ r.idCreate k
  advCreate : r.advCreate = 0
  advSetData : r.advSetData = 0
  advStart : r.advStart = 0

/-- The start takes a reference, of its own or beside others. -/
def TakesReference (r : StartAnswers) (s : NordicDfu) : Prop := s.btEnableCount = 0 → r.btEnable = 0

theorem createLoop_nonneg (idCreate : Nat → Int) (rounds ids : Nat) :
    0 ≤ (createLoop idCreate rounds ids).1 ↔ ∀ k, ids ≤ k → k < ids + rounds → 0 ≤ idCreate k := by
  induction rounds generalizing ids with
  | zero =>
    refine iff_of_true ?_ (fun k hle hlt => by omega)
    simp [createLoop, btIdDefault]
  | succ rounds ih =>
    rw [createLoop]
    split
    · next hneg =>
      refine iff_of_false (by simpa using hneg) (fun hall => ?_)
      have := hall ids le_rfl (by omega)
      omega
    · next hnonneg =>
      rw [ih]
      constructor
      · intro hall k hle hlt
        rcases Nat.eq_or_lt_of_le hle with rfl | hgt
        · omega
        · exact hall k hgt (by omega)
      · exact fun hall k hle hlt => hall k (by omega) (by omega)

theorem createBleId_nonneg (idCreate : Nat → Int) (ids : Nat) :
    0 ≤ (createBleId idCreate ids).1 ↔ ∀ k, ids ≤ k → k ≤ btIdSmpDfu → 0 ≤ idCreate k := by
  rw [createBleId]
  split
  · next hmany => exact iff_of_true le_rfl (fun k hle hle' => by omega)
  · next hfew =>
    rw [createLoop_nonneg]
    refine forall_congr' fun k => forall_congr' fun hle => ?_
    have : k < ids + (btIdSmpDfu + 1 - ids) ↔ k ≤ btIdSmpDfu := by omega
    rw [this]

/-- What the enable comes to for the start. -/
theorem sidBleBtEnable_err (r : StartAnswers) (s : NordicDfu) :
    ((sidBleBtEnable r.btEnable s.btEnableCount).1 ≠ 0 ∧
      (sidBleBtEnable r.btEnable s.btEnableCount).1 ≠ -ealready) ↔ EnableFails r s := by
  rw [sidBleBtEnable, EnableFails]
  by_cases hcount : s.btEnableCount = 0 <;> simp [hcount]

/-- The count goes up by one for a reference that is taken. -/
theorem sidBleBtEnable_count (r : StartAnswers) (s : NordicDfu) (h : TakesReference r s) :
    (sidBleBtEnable r.btEnable s.btEnableCount).2 = s.btEnableCount + 1 := by
  rw [sidBleBtEnable]
  split
  · next hcount => rw [if_pos (h hcount)]
  · rfl

theorem sidBleBtEnable_untaken (r : StartAnswers) (s : NordicDfu) (h : ¬ TakesReference r s) :
    s.btEnableCount = 0 ∧ (sidBleBtEnable r.btEnable s.btEnableCount).2 = 0 := by
  rw [TakesReference, Classical.not_imp] at h
  refine ⟨h.1, ?_⟩
  rw [sidBleBtEnable, if_pos h.1, if_neg h.2, h.1]

/-! ## The start -/

/-- The four ways in which a start ends. -/
theorem start_cases (r : StartAnswers) (s : NordicDfu) :
    (EnableFails r s ∧ (nordicDfuBleStart r s).1 ≠ 0 ∧
      (nordicDfuBleStart r s).2 = { s with notifier := true }) ∨
    (¬ EnableFails r s ∧ ¬ AdvertisingStarts r s ∧
      (nordicDfuBleStart r s).2.connCallbacks = true ∧
      (nordicDfuBleStart r s).2.inDfuMode = s.inDfuMode) ∨
    (¬ EnableFails r s ∧ AdvertisingStarts r s ∧ (nordicDfuBleStart r s).1 = 0 ∧
      (nordicDfuBleStart r s).2.InMode ∧
      (nordicDfuBleStart r s).2.btEnableCount =
        (sidBleBtEnable r.btEnable s.btEnableCount).2) := by
  have hid := createBleId_nonneg r.idCreate s.ids
  have herr := sidBleBtEnable_err r s
  rw [nordicDfuBleStart]
  dsimp only
  by_cases henable : EnableFails r s
  · rw [if_pos (herr.2 henable)]
    refine .inl ⟨henable, (herr.2 henable).1, ?_⟩
    rw [sidBleBtEnable, if_pos henable.1, if_neg henable.2.1]
  · rw [if_neg (mt herr.1 henable)]
    by_cases hcreate : (createBleId r.idCreate s.ids).1 < 0
    · rw [if_pos hcreate]
      exact .inr (.inl ⟨henable, fun h => absurd (hid.2 h.idCreate) (by omega), rfl, rfl⟩)
    · rw [if_neg hcreate]
      by_cases hadv : r.advCreate ≠ 0
      · rw [if_pos hadv]
        exact .inr (.inl ⟨henable, fun h => hadv h.advCreate, rfl, rfl⟩)
      · rw [if_neg hadv]
        by_cases hdata : r.advSetData ≠ 0
        · rw [if_pos hdata]
          exact .inr (.inl ⟨henable, fun h => hdata h.advSetData, rfl, rfl⟩)
        · rw [if_neg hdata]
          by_cases hstart : r.advStart ≠ 0
          · rw [if_pos hstart]
            exact .inr (.inl ⟨henable, fun h => hstart h.advStart, rfl, rfl⟩)
          · rw [if_neg hstart]
            refine .inr (.inr ⟨henable, ?_, rfl, ⟨rfl, rfl, rfl, rfl⟩, rfl⟩)
            exact ⟨hid.1 (not_lt.1 hcreate), not_not.1 hadv, not_not.1 hdata, not_not.1 hstart⟩

/-- From an idle state the start is transactional exactly when enabling Bluetooth is what fails, or
nothing. -/
theorem startTransactional_iff {r : StartAnswers} {s : NordicDfu} (hs : s.Idle) :
    StartTransactional r s ↔ EnableFails r s ∨ AdvertisingStarts r s := by
  obtain ⟨henable, hret, hstate⟩ | ⟨henable, hadv, hcallbacks, hmode⟩ |
    ⟨henable, hadv, hret, hin, -⟩ := start_cases r s
  · have hout : ¬ (nordicDfuBleStart r s).2.InMode := fun h => by
      have hmode := h.mode
      rw [hstate] at hmode
      exact Bool.false_ne_true (hs.mode.symm.trans hmode)
    refine iff_of_true ⟨iff_of_false hret hout, fun _ => ?_⟩ (.inl henable)
    rw [hstate]
    exact ⟨rfl, rfl, rfl⟩
  · refine iff_of_false (fun h => ?_) (not_or.2 ⟨henable, hadv⟩)
    have hout : ¬ (nordicDfuBleStart r s).2.InMode := fun h => by
      have hin := h.mode
      rw [hmode] at hin
      exact Bool.false_ne_true (hs.mode.symm.trans hin)
    -- the callbacks stay registered
    have hsame := (h.otherwise hout).connCallbacks
    rw [hcallbacks, hs.connCallbacks] at hsame
    exact Bool.false_ne_true hsame.symm
  · exact iff_of_true ⟨iff_of_true hret hin, fun h => absurd hin h⟩ (.inr hadv)

/-! ## The stop -/

/-- `sid_ble_bt_disable` returns zero only for the last user. -/
theorem sidBleBtDisable_zero (count : UInt32) :
    (sidBleBtDisable 0 count).1 = 0 ↔ count = 1 := by
  have hle : count ≤ 0 ↔ count = 0 := by
    rw [UInt32.le_iff_toNat_le, ← UInt32.toNat_inj]
    simp
  rw [sidBleBtDisable]
  split
  · next h =>
    rw [hle] at h
    exact iff_of_false (by decide) (by rw [h]; decide)
  · next h =>
    split
    · next h1 => exact iff_of_true rfl h1
    · next h1 =>
      refine iff_of_false (fun hzero => ?_) h1
      have hsub : (count - 1).toBitVec = 0#32 := BitVec.eq_of_toInt_eq (by simpa using hzero)
      have hcount : count - 1 = 0 := UInt32.toBitVec_inj.1 hsub
      exact h1 (by simpa using sub_eq_zero.1 hcount)

/-- When all calls succeed the mode is left exactly if the reference is the last. -/
theorem stop_left_iff (s : NordicDfu) (others : UInt32) :
    ((nordicDfuBleStop ⟨0, 0, 0⟩ s).1 = 0 ∧ (nordicDfuBleStop ⟨0, 0, 0⟩ s).2.Left others) ↔
      s.btEnableCount = 1 ∧ others = 0 := by
  have hdisable := sidBleBtDisable_zero s.btEnableCount
  rw [nordicDfuBleStop]
  simp only [ne_eq, not_true_eq_false, if_false]
  by_cases hcount : s.btEnableCount = 1
  · have hzero := hdisable.2 hcount
    rw [if_neg (not_not.2 hzero)]
    have hafter : (sidBleBtDisable 0 s.btEnableCount).2 = 0 := by rw [hcount]; decide
    constructor
    · rintro ⟨-, hleft⟩
      exact ⟨hcount, hleft.count.symm.trans hafter⟩
    · rintro ⟨-, rfl⟩
      exact ⟨rfl, rfl, rfl, rfl, rfl, rfl, hafter⟩
  · have hne := mt hdisable.1 hcount
    rw [if_pos hne]
    exact iff_of_false (fun h => hne h.1) (fun h => hcount h.1)

/-- A DFU session is transactional exactly when enabling Bluetooth is what fails, or every call
succeeds, the start takes a reference, and no other user is left when the mode is left. -/
theorem dfu_transactional_iff {s : NordicDfu} (hs : s.Idle) (r : StartAnswers) (others : UInt32) :
    (StartTransactional r s ∧ StopRestores r s others) ↔
      EnableFails r s ∨ (AdvertisingStarts r s ∧ TakesReference r s ∧ others = 0) := by
  rw [startTransactional_iff hs]
  obtain ⟨henable, hret, -⟩ | ⟨henable, hadv, -⟩ | ⟨henable, hadv, hret, -, hcount⟩ :=
    start_cases r s
  · exact iff_of_true ⟨.inl henable, fun h => absurd h hret⟩ (.inl henable)
  · exact iff_of_false (fun h => h.1.elim henable hadv) (fun h => h.elim henable fun h => hadv h.1)
  · have hstop : StopRestores r s others ↔ TakesReference r s ∧ others = 0 := by
      rw [StopRestores, imp_iff_right hret, stop_left_iff]
      simp only [NordicDfu.usedBy, hcount]
      by_cases htakes : TakesReference r s
      · rw [sidBleBtEnable_count r s htakes]
        refine ⟨fun h => ⟨htakes, h.2⟩, ?_⟩
        rintro ⟨-, rfl⟩
        exact ⟨by rw [add_sub_cancel_left, add_zero], rfl⟩
      · obtain ⟨hzero, hsame⟩ := sidBleBtEnable_untaken r s htakes
        rw [hsame, hzero]
        refine iff_of_false ?_ (fun h => htakes h.1)
        rintro ⟨hone, rfl⟩
        exact absurd hone (by decide)
    rw [hstop]
    exact ⟨fun h => .inr ⟨hadv, h.2⟩, fun h => ⟨.inr hadv, (h.resolve_left henable).2⟩⟩

/-- After boot, with `count` references taken and the default identity alone. -/
def booted (count : UInt32) : NordicDfu :=
  ⟨count, 1, false, false, 0, none, false, false, false, .toggleAll, false⟩

/-- Every call succeeds. -/
def allSucceed : StartAnswers := ⟨0, fun _ => 0, 0, 0, 0⟩

theorem dfu_transactional_iff_booted :
    (StartTransactional allSucceed (booted 0) ∧ StopRestores allSucceed (booted 0) 0) ↔
      EnableFails allSucceed (booted 0) ∨ (AdvertisingStarts allSucceed (booted 0) ∧
        TakesReference allSucceed (booted 0) ∧ (0 : UInt32) = 0) :=
  dfu_transactional_iff ⟨rfl, rfl, rfl⟩ allSucceed 0

/-- Sidewalk holds Bluetooth. The start succeeds; the stop returns 1, with both timers running and
the notifier still in DFU. And an identity that cannot be created makes the start return 0. -/
theorem dfu_shared_bluetooth :
    (nordicDfuBleStart allSucceed (booted 1)).1 = 0 ∧
      nordicDfuBleStop ⟨0, 0, 0⟩ (nordicDfuBleStart allSucceed (booted 1)).2 =
        (1, { booted 1 with ids := 3, advParamsId := 2, exitTimer := true, ledTimer := true,
                            notifier := true }) ∧
      (nordicDfuBleStart { allSucceed with idCreate := fun _ => -12 } (booted 1)).1 = 0 ∧
      (nordicDfuBleStart { allSucceed with idCreate := fun _ => -12 } (booted 1)).2.inDfuMode =
        false := by
  refine ⟨?_, ?_, ?_, ?_⟩ <;> decide

end Sidewalk.Dfu
