import Sidewalk.Lib.Program
import Sidewalk.Lib.Scaled
import Sidewalk.Radio.Interface

/-!
# Symbol timeouts

A delay becomes a number of symbols in `sid_pal_radio_lora_get_lora_number_of_symbols`, and the
number goes to the chip with `sid_pal_radio_set_lora_symbol_timeout`. Large numbers are coded by a
mantissa of five bits and an exponent of three. `sx126x.c` shifts the mantissa, which shortens the
timeout, and `lr11xx_radio.c` rounds it up.
-/

namespace Sidewalk.Radio.SymbTimeout

open Lib Lib.Scaled
open Lib.Program (make Runs runs_make_bind runs_make)

/-! ## Symbols -/

/-- `sid_pal_radio_lora_modulation_params_t`. -/
structure ModulationParams where
  spreadingFactor : UInt8
  bandwidth : UInt8
  codingRate : UInt8
  deriving DecidableEq

/-- The spreading factors and bandwidths that `radio_lora_symb_time` has. -/
structure ModulationParams.Valid (p : ModulationParams) : Prop where
  spreadingFactor : 5 ≤ p.spreadingFactor.toNat ∧ p.spreadingFactor.toNat ≤ 12
  bandwidth : 4 ≤ p.bandwidth.toNat ∧ p.bandwidth.toNat ≤ 6

/-- `radio_lora_symb_time`, in microseconds. -/
def radioLoraSymbTime : List (List UInt32) :=
  [[32768, 16384, 8192, 4096, 2048, 1024, 512, 256],
   [16384, 8192, 4096, 2048, 1024, 512, 256, 128],
   [8192, 4096, 2048, 1024, 512, 256, 128, 64]]

def symbTime (p : ModulationParams) : UInt32 :=
  (radioLoraSymbTime.getD (p.bandwidth.toNat - 4) []).getD (12 - p.spreadingFactor.toNat) 0

/-- `sid_pal_radio_lora_get_lora_number_of_symbols`, the same in both drivers. -/
def getLoraNumberOfSymbols (modParams : Option ModulationParams) (delayMicroSec : UInt32) :
    UInt32 :=
  match modParams with
  | none => 0
  | some p =>
    let ts := symbTime p
    let numsymbols := delayMicroSec / ts
    if ts * numsymbols < delayMicroSec then numsymbols + 1 else numsymbols

/-- A symbol is `2 ^ SF / BW` long, for bandwidths of `125 * 2 ^ (bandwidth - 4)` kHz. -/
theorem symbTime_eq {p : ModulationParams} (hp : p.Valid) :
    (symbTime p).toNat * (125 * 2 ^ (p.bandwidth.toNat - 4)) =
      2 ^ p.spreadingFactor.toNat * 1000 := by
  obtain ⟨⟨hsf, hsf'⟩, hbw, hbw'⟩ := hp
  unfold symbTime
  generalize p.spreadingFactor.toNat = sf at *
  generalize p.bandwidth.toNat = bw at *
  interval_cases bw <;> interval_cases sf <;> rfl

theorem symbTime_pos {p : ModulationParams} (hp : p.Valid) : 0 < (symbTime p).toNat := by
  have h := symbTime_eq hp
  have hpos : 0 < 2 ^ p.spreadingFactor.toNat * 1000 := by positivity
  rw [← h] at hpos
  exact Nat.pos_of_mul_pos_right hpos

/-- The number of symbols is the least one that is as long as the delay. -/
theorem toNat_getLoraNumberOfSymbols {p : ModulationParams} (hp : p.Valid) (delay : UInt32) :
    (getLoraNumberOfSymbols (some p) delay).toNat = delay.toNat ⌈/⌉ (symbTime p).toNat := by
  have hpos := symbTime_pos hp
  have hle : (symbTime p).toNat * (delay.toNat / (symbTime p).toNat) ≤ delay.toNat :=
    Nat.mul_div_le _ _
  have hmul : (symbTime p * (delay / symbTime p)).toNat =
      (symbTime p).toNat * (delay.toNat / (symbTime p).toNat) := by
    rw [UInt32.toNat_mul, UInt32.toNat_div, Nat.mod_eq_of_lt (hle.trans_lt delay.toNat_lt)]
  have hceil := (ceilDiv_le_self hpos).trans_lt delay.toNat_lt
  simp only [getLoraNumberOfSymbols, UInt32.lt_iff_toNat_lt, hmul]
  rw [ceilDiv_eq_ite hpos] at hceil ⊢
  split at hceil
  · rw [if_pos ‹_›, if_pos ‹_›, UInt32.toNat_add, UInt32.toNat_div]
    exact Nat.mod_eq_of_lt hceil
  · rw [if_neg ‹_›, if_neg ‹_›, UInt32.toNat_div]

/-! ## The code of a timeout -/

/-- What `SX126X_REG_LR_SYNCH_TIMEOUT` and the long command of the LR11xx stand for. -/
def symbols (mant exp : ℕ) : ℕ := mant * 2 ^ (2 * exp + 1)

/-- The timeouts with a mantissa of five bits and an exponent of three. -/
def Codable (v : ℕ) : Prop := ∃ mant ≤ 31, ∃ exp ≤ 7, v = symbols mant exp

theorem symbols_eq (mant exp : ℕ) : symbols mant exp = 2 * (mant * 4 ^ exp) := by
  rw [symbols, Nat.pow_succ, Nat.pow_mul]
  ring

theorem Codable.coded {v : ℕ} (h : Codable v) : ∃ w, Coded 4 31 w ∧ v = 2 * w := by
  obtain ⟨mant, hmant, exp, -, rfl⟩ := h
  exact ⟨mant * 4 ^ exp, ⟨mant, hmant, exp, rfl⟩, symbols_eq mant exp⟩

/-- The greatest code below half a number is that below the number. -/
theorem isGreatest_symbols {mant exp n : ℕ} (hmant : mant ≤ 31) (hexp : exp ≤ 7)
    (h : IsGreatest {v | Coded 4 31 v ∧ v ≤ n / 2} (mant * 4 ^ exp)) :
    IsGreatest {v | Codable v ∧ v ≤ n} (symbols mant exp) := by
  have hle := h.1.2
  refine ⟨⟨⟨mant, hmant, exp, hexp, rfl⟩, by rw [symbols_eq]; omega⟩, ?_⟩
  rintro v ⟨hv, hvn⟩
  obtain ⟨w, hw, rfl⟩ := hv.coded
  rw [symbols_eq]
  exact Nat.mul_le_mul_left 2 (h.2 ⟨hw, by omega⟩)

theorem isLeast_symbols {mant exp n : ℕ} (hmant : mant ≤ 31) (hexp : exp ≤ 7)
    (h : IsLeast {v | Coded 4 31 v ∧ (n + 1) / 2 ≤ v} (mant * 4 ^ exp)) :
    IsLeast {v | Codable v ∧ n ≤ v} (symbols mant exp) := by
  have hle := h.1.2
  refine ⟨⟨⟨mant, hmant, exp, hexp, rfl⟩, by rw [symbols_eq]; omega⟩, ?_⟩
  rintro v ⟨hv, hvn⟩
  obtain ⟨w, hw, rfl⟩ := hv.coded
  rw [symbols_eq]
  exact Nat.mul_le_mul_left 2 (h.2 ⟨hw, by omega⟩)

/-! ## The SX126x -/

/-- `sx126x_hal_write`, with the command and the data behind it. -/
structure HalWrite where
  command : List UInt8
  data : List UInt8

def sx126xWriteRegister (addr : UInt16) (buffer : List UInt8) : Program HalWrite Bool Bool :=
  make ⟨[0x0D, (addr >>> 8).toUInt8, addr.toUInt8], buffer⟩

/-- The loop of `sx126x_set_lora_symb_nb_timeout`. -/
def sx126xMantExp (mant exp : UInt8) : UInt8 × UInt8 :=
  if 31 < mant then sx126xMantExp (mant >>> 2) (exp + 1) else (mant, exp)
termination_by mant.toNat
decreasing_by
  have h : 31 < mant.toNat := by simpa [UInt8.lt_iff_toNat_lt] using ‹31 < mant›
  simp only [UInt8.toNat_shiftRight]
  change mant.toNat >>> 2 < mant.toNat
  rw [Nat.shiftRight_eq_div_pow]
  omega

/-- The value of `SX126X_REG_LR_SYNCH_TIMEOUT`. -/
def lrSynchTimeout (nbOfSymbs : UInt8) : UInt8 :=
  let (mant, exp) := sx126xMantExp (nbOfSymbs >>> 1) 0
  exp + (mant <<< 3)

/-- `sx126x_set_lora_symb_nb_timeout`. -/
def sx126xSetLoraSymbNbTimeout (nbOfSymbs : UInt8) : Program HalWrite Bool Bool := do
  let status ← make ⟨[0xA0, nbOfSymbs], []⟩
  if status && 64 ≤ nbOfSymbs then sx126xWriteRegister 0x0706 [lrSynchTimeout nbOfSymbs]
  else pure status

/-- What a write does to the timeout of the chip. -/
def timeoutAfter (timeout : ℕ) (w : HalWrite) : ℕ :=
  match w.command, w.data with
  | [0xA0, nb], _ => nb.toNat
  | [0x0D, 0x07, 0x06], [reg] => symbols (reg.toNat / 8) (reg.toNat % 8)
  | _, _ => timeout

/-- The timeout of the chip after these writes. -/
def timeoutOf (events : List (HalWrite × Bool)) : ℕ :=
  (events.map Prod.fst).foldl timeoutAfter 0

theorem takes_sx126xMantExp (mant exp : UInt8) (hexp : exp.toNat + mant.toNat < 256) :
    ∃ k, Takes (· / ·) 4 31 mant.toNat k ∧
      (sx126xMantExp mant exp).1.toNat = mant.toNat / 4 ^ k ∧
      (sx126xMantExp mant exp).2.toNat = exp.toNat + k := by
  fun_induction sx126xMantExp mant exp with
  | case1 mant exp hlt ih =>
    have hlarge : 31 < mant.toNat := by simpa [UInt8.lt_iff_toNat_lt] using hlt
    have hshift : (mant >>> 2).toNat = mant.toNat / 4 := by
      simp [UInt8.toNat_shiftRight, Nat.shiftRight_eq_div_pow]
    have hsucc : (exp + 1).toNat = exp.toNat + 1 := by
      rw [UInt8.toNat_add]
      exact Nat.mod_eq_of_lt (by simp; omega)
    obtain ⟨k, hk, hmant, hexp⟩ := ih (by omega)
    rw [hshift] at hk hmant
    refine ⟨k + 1, hk.floor_succ hlarge, ?_, by omega⟩
    rw [hmant, Nat.div_div_eq_div_mul, ← Nat.pow_succ']
  | case2 mant exp hle =>
    have hfits : mant.toNat ≤ 31 := by simpa [UInt8.lt_iff_toNat_lt] using hle
    exact ⟨0, .floor_zero hfits, by simp, rfl⟩

/-- The register gets the greatest timeout that is not above the one asked for. -/
theorem isGreatest_lrSynchTimeout (nbOfSymbs : UInt8) :
    IsGreatest {v | Codable v ∧ v ≤ nbOfSymbs.toNat}
      (symbols ((lrSynchTimeout nbOfSymbs).toNat / 8) ((lrSynchTimeout nbOfSymbs).toNat % 8)) := by
  have hhalf : (nbOfSymbs >>> 1).toNat = nbOfSymbs.toNat / 2 := by
    simp [UInt8.toNat_shiftRight, Nat.shiftRight_eq_div_pow]
  have hnb := nbOfSymbs.toNat_lt
  obtain ⟨k, hk, hmant, hexp⟩ := takes_sx126xMantExp (nbOfSymbs >>> 1) 0 (by simp [hhalf]; omega)
  have hfits := hk.fits
  rw [← hmant] at hfits
  have hk2 : k ≤ 2 := by
    by_contra hlong
    have hfirst : 31 < (nbOfSymbs >>> 1).toNat / 4 ^ 2 := hk.first 2 (by omega)
    omega
  have hregister : (lrSynchTimeout nbOfSymbs).toNat =
      8 * (sx126xMantExp (nbOfSymbs >>> 1) 0).1.toNat + k := by
    simp only [lrSynchTimeout, UInt8.toNat_add, UInt8.toNat_shiftLeft, hexp]
    change (0 + k + (_ <<< 3) % 2 ^ 8) % 2 ^ 8 = _
    rw [Nat.shiftLeft_eq]
    omega
  rw [hregister, Nat.mul_add_div (by decide), Nat.div_eq_of_lt (by omega), Nat.mul_add_mod,
    Nat.mod_eq_of_lt (by omega), Nat.add_zero]
  apply isGreatest_symbols hfits (by omega)
  rw [hmant, ← hhalf]
  exact hk.greatest (by decide) (by decide)

/-- What a run leaves in the chip: numbers below 64 as they are, and a code that is not above the
number from there on. -/
theorem timeoutOf_sx126x {nbOfSymbs : UInt8} {events : List (HalWrite × Bool)}
    (h : Runs (sx126xSetLoraSymbNbTimeout nbOfSymbs) events true) :
    (nbOfSymbs.toNat < 64 → timeoutOf events = nbOfSymbs.toNat) ∧
      (64 ≤ nbOfSymbs.toNat →
        IsGreatest {v | Codable v ∧ v ≤ nbOfSymbs.toNat} (timeoutOf events)) := by
  rw [sx126xSetLoraSymbNbTimeout, runs_make_bind] at h
  obtain ⟨status, rest, rfl, h⟩ := h
  by_cases hlarge : 64 ≤ nbOfSymbs.toNat
  · have hbranch : (status && decide (64 ≤ nbOfSymbs)) = status := by
      rw [decide_eq_true (by rwa [UInt8.le_iff_toNat_le]), Bool.and_true]
    refine ⟨fun hsmall => absurd hlarge (by omega), fun _ => ?_⟩
    rw [hbranch] at h
    cases status with
    | false =>
      rw [if_neg Bool.false_ne_true] at h
      cases h.2
    | true =>
      rw [if_pos rfl, sx126xWriteRegister, runs_make] at h
      subst h
      exact isGreatest_lrSynchTimeout nbOfSymbs
  · have hbranch : (status && decide (64 ≤ nbOfSymbs)) = false := by
      rw [decide_eq_false (by rwa [UInt8.le_iff_toNat_le]), Bool.and_false]
    refine ⟨fun _ => ?_, fun h => absurd h hlarge⟩
    rw [hbranch, if_neg Bool.false_ne_true] at h
    obtain ⟨rfl, -⟩ := h
    rfl

/-- With the number of symbols of a delay, the chip waits as long as the delay for the numbers below
64 and those that have a code, and not as long for the others. -/
theorem sx126x_covers_iff {p : ModulationParams} {delay : UInt32} {nbOfSymbs : UInt8}
    {events : List (HalWrite × Bool)} (hp : p.Valid)
    (hnb : nbOfSymbs.toNat = (getLoraNumberOfSymbols (some p) delay).toNat)
    (h : Runs (sx126xSetLoraSymbNbTimeout nbOfSymbs) events true) :
    delay.toNat ≤ (symbTime p).toNat * timeoutOf events ↔
      nbOfSymbs.toNat < 64 ∨ Codable nbOfSymbs.toNat := by
  rw [toNat_getLoraNumberOfSymbols hp] at hnb
  rw [← ceilDiv_le_iff_le_mul (symbTime_pos hp), ← hnb]
  obtain ⟨hsmall, hlarge⟩ := timeoutOf_sx126x h
  constructor
  · intro hcovers
    by_contra hnone
    rw [not_or, not_lt] at hnone
    obtain ⟨⟨hcodable, hle⟩, -⟩ := hlarge hnone.1
    exact hnone.2 (le_antisymm hcovers hle ▸ hcodable)
  · intro hcovered
    obtain hlt | hge := lt_or_ge nbOfSymbs.toNat 64
    · exact (hsmall hlt).ge
    · exact (hlarge hge).2 ⟨hcovered.resolve_left (by omega), le_rfl⟩

theorem sx126x_covers_iff_65 :
    4160 ≤ 64 * timeoutOf [(⟨[0xA0, 65], []⟩, true),
        (⟨[0x0D, 0x07, 0x06], [lrSynchTimeout 65]⟩, true)] ↔ 65 < 64 ∨ Codable 65 :=
  @sx126x_covers_iff ⟨5, 6, 1⟩ 4160 65 _ ⟨by decide, by decide⟩ (by decide)
    ⟨true, _, rfl, true, [], rfl, rfl, rfl⟩

/-! ## The LR11xx -/

/-- The loop of `lr11xx_radio_convert_nb_symb_to_mant_exp`. The mantissa becomes an `int` before it
is rounded. -/
def lr11xxMantExp (mant : UInt16) (exp : UInt8) : UInt16 × UInt8 :=
  if 31 < mant then lr11xxMantExp (UInt16.ofNat ((mant.toNat + 3) / 4)) (exp + 1) else (mant, exp)
termination_by mant.toNat
decreasing_by
  have h : 31 < mant.toNat := by simpa [UInt16.lt_iff_toNat_lt] using ‹31 < mant›
  have hlt := mant.toNat_lt
  rw [UInt16.toNat_ofNat', Nat.mod_eq_of_lt (by omega)]
  omega

/-- `lr11xx_radio_convert_nb_symb_to_mant_exp`: the mantissa, the exponent, and the number that it
returns. -/
def convertNbSymbToMantExp (nbSymbol : UInt16) : UInt8 × UInt8 × UInt16 :=
  let (mant, exp) := lr11xxMantExp (UInt16.ofNat ((nbSymbol.toNat + 1) / 2)) 0
  (mant.toUInt8, exp, UInt16.ofNat (symbols mant.toNat exp.toNat))

/-- `lr11xx_radio_set_lora_sync_timeout_with_mantissa_exponent`, up to the write: the command, where
it is not refused. -/
def syncTimeoutWithMantissaExponent (mantissa exponent : UInt8) : Option (List UInt8) :=
  if 31 < mantissa ∨ 7 < exponent then none
  else some [0x02, 0x1B, (mantissa <<< 3) ||| exponent, 0x01]

/-- `lr11xx_radio_set_lora_sync_timeout`. -/
def setLoraSyncTimeout (nbSymbol : UInt16) : Option (List UInt8) :=
  if nbSymbol ≤ 255 then some [0x02, 0x1B, nbSymbol.toUInt8]
  else
    let (mant, exp, _) := convertNbSymbToMantExp nbSymbol
    syncTimeoutWithMantissaExponent mant exp

/-- What a command asks the chip for. -/
def commandTimeout : List UInt8 → Option ℕ
  | [0x02, 0x1B, nb] => some nb.toNat
  | [0x02, 0x1B, code, 0x01] => some (symbols (code.toNat / 8) (code.toNat % 8))
  | _ => none

theorem takes_lr11xxMantExp (mant : UInt16) (exp : UInt8) (n : ℕ) (hn : mant.toNat < 2 ^ n)
    (hexp : exp.toNat + n < 256) :
    ∃ k, Takes (· ⌈/⌉ ·) 4 31 mant.toNat k ∧
      (lr11xxMantExp mant exp).1.toNat = mant.toNat ⌈/⌉ 4 ^ k ∧
      (lr11xxMantExp mant exp).2.toNat = exp.toNat + k := by
  fun_induction lr11xxMantExp mant exp generalizing n with
  | case1 mant exp hlt ih =>
    have hlarge : 31 < mant.toNat := by simpa [UInt16.lt_iff_toNat_lt] using hlt
    have hmant := mant.toNat_lt
    have hround : (UInt16.ofNat ((mant.toNat + 3) / 4)).toNat = mant.toNat ⌈/⌉ 4 := by
      rw [UInt16.toNat_ofNat']
      exact Nat.mod_eq_of_lt (by omega)
    cases n with
    | zero => omega
    | succ n =>
      have hsucc : (exp + 1).toNat = exp.toNat + 1 := by
        rw [UInt8.toNat_add]
        exact Nat.mod_eq_of_lt (by simp; omega)
      have hshorter : mant.toNat ⌈/⌉ 4 < 2 ^ n := by
        rw [Nat.ceilDiv_eq_add_pred_div]
        omega
      obtain ⟨k, hk, hquotient, hcount⟩ := ih n (by rwa [hround]) (by omega)
      rw [hround] at hk hquotient
      exact ⟨k + 1, hk.ceil_succ (by decide) hlarge, by rw [hquotient, ceilDiv_ceilDiv (by decide)],
        by omega⟩
  | case2 mant exp hle =>
    have hfits : mant.toNat ≤ 31 := by simpa [UInt16.lt_iff_toNat_lt] using hle
    exact ⟨0, .ceil_zero hfits, by simp, rfl⟩

/-- The mantissa and the exponent stand for the least timeout that is not below the number, and the
number returned for its low 16 bits. -/
theorem convertNbSymbToMantExp_spec (nbSymbol : UInt16) :
    ∃ mant exp, (convertNbSymbToMantExp nbSymbol).1.toNat = mant ∧
      (convertNbSymbToMantExp nbSymbol).2.1.toNat = exp ∧ mant ≤ 31 ∧ exp ≤ 7 ∧
      (convertNbSymbToMantExp nbSymbol).2.2.toNat = symbols mant exp % 2 ^ 16 ∧
      IsLeast {v | Codable v ∧ nbSymbol.toNat ≤ v} (symbols mant exp) := by
  have hnb := nbSymbol.toNat_lt
  have hhalf : (UInt16.ofNat ((nbSymbol.toNat + 1) / 2)).toNat = (nbSymbol.toNat + 1) / 2 := by
    rw [UInt16.toNat_ofNat']
    exact Nat.mod_eq_of_lt (by omega)
  obtain ⟨k, hk, hmant, hexp⟩ :=
    takes_lr11xxMantExp (UInt16.ofNat ((nbSymbol.toNat + 1) / 2)) 0 16 (by omega) (by decide)
  have hfits := hk.fits
  rw [← hmant] at hfits
  have hk7 : k ≤ 7 := by
    by_contra hlong
    have hfirst := hk.first 7 (by omega)
    rw [← not_le, ceilDiv_le_iff_le_mul (by decide)] at hfirst
    omega
  refine ⟨_, k, ?_, ?_, hfits, hk7, ?_, isLeast_symbols hfits hk7 ?_⟩
  · simp only [convertNbSymbToMantExp, UInt16.toNat_toUInt8]
    exact Nat.mod_eq_of_lt (by omega)
  · simp only [convertNbSymbToMantExp, hexp]
    exact Nat.zero_add k
  · simp only [convertNbSymbToMantExp, UInt16.toNat_ofNat', hexp]
    rw [show (0 : UInt8).toNat + k = k from Nat.zero_add k]
  · have hleast := hk.least (by decide)
    rw [hhalf] at hmant hleast
    rwa [hmant]

/-- The command asks for the number of symbols, or for the least timeout with a code that is not
below it, and is never refused. -/
theorem setLoraSyncTimeout_least (nbSymbol : UInt16) :
    ∃ command timeout, setLoraSyncTimeout nbSymbol = some command ∧
      commandTimeout command = some timeout ∧ (nbSymbol.toNat ≤ 255 → timeout = nbSymbol.toNat) ∧
      (255 < nbSymbol.toNat → IsLeast {v | Codable v ∧ nbSymbol.toNat ≤ v} timeout) := by
  obtain ⟨mant, exp, hmant, hexp, hmant31, hexp7, -, hleast⟩ := convertNbSymbToMantExp_spec nbSymbol
  unfold setLoraSyncTimeout
  by_cases hsmall : nbSymbol.toNat ≤ 255
  · rw [if_pos (by rwa [UInt16.le_iff_toNat_le])]
    refine ⟨_, _, rfl, rfl, fun _ => ?_, fun h => absurd hsmall (by omega)⟩
    rw [UInt16.toNat_toUInt8]
    exact Nat.mod_eq_of_lt (by omega)
  · rw [if_neg (by rwa [UInt16.le_iff_toNat_le])]
    generalize convertNbSymbToMantExp nbSymbol = converted at *
    obtain ⟨mantissa, exponent, returned⟩ := converted
    change mantissa.toNat = mant at hmant
    change exponent.toNat = exp at hexp
    have hvalid : ¬(31 < mantissa ∨ 7 < exponent) := by
      rw [UInt8.lt_iff_toNat_lt, UInt8.lt_iff_toNat_lt]
      change ¬(31 < mantissa.toNat ∨ 7 < exponent.toNat)
      omega
    have hcode : ((mantissa <<< 3) ||| exponent).toNat = 8 * mant + exp := by
      rw [UInt8.toNat_or, UInt8.toNat_shiftLeft]
      change (mantissa.toNat <<< 3 % 2 ^ 8) ||| exponent.toNat = _
      rw [hmant, hexp, Nat.shiftLeft_eq, Nat.mod_eq_of_lt (by omega), Nat.mul_comm]
      exact (Nat.two_pow_add_eq_or_of_lt (i := 3) (by omega) mant).symm
    refine ⟨_, symbols mant exp, if_neg hvalid, ?_, fun h => absurd h hsmall, fun _ => hleast⟩
    change some (symbols (_ / 8) (_ % 8)) = _
    rw [hcode, Nat.mul_add_div (by decide), Nat.div_eq_of_lt (by omega), Nat.mul_add_mod,
      Nat.mod_eq_of_lt (by omega), Nat.add_zero]

/-- The number returned is the one of the documentation up to 63488 symbols. -/
theorem convertNbSymbToMantExp_returned_iff (nbSymbol : UInt16) :
    IsLeast {v | Codable v ∧ nbSymbol.toNat ≤ v} (convertNbSymbToMantExp nbSymbol).2.2.toNat ↔
      nbSymbol.toNat ≤ 63488 := by
  obtain ⟨mant, exp, -, -, hmant31, hexp7, hreturned, hleast⟩ :=
    convertNbSymbToMantExp_spec nbSymbol
  have hnb := nbSymbol.toNat_lt
  rw [hreturned]
  constructor
  · intro h
    have hlt : symbols mant exp < 2 ^ 16 := by
      rw [← h.unique hleast]
      exact Nat.mod_lt _ (by decide)
    refine hleast.1.2.trans ?_
    rw [symbols_eq] at hlt ⊢
    interval_cases exp <;> omega
  · intro hle
    have hlt : symbols mant exp < 2 ^ 16 :=
      (hleast.2 ⟨⟨31, le_rfl, 5, by decide, rfl⟩, hle⟩).trans_lt (by decide)
    rwa [Nat.mod_eq_of_lt hlt]

end Sidewalk.Radio.SymbTimeout
