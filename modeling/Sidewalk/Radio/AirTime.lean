import Sidewalk.Radio.SymbTimeout

/-!
# Time on air

`sid_pal_radio_lora_time_on_air` of the two drivers. The vendor functions count the samples of a
packet, less one, in `int32_t`, and divide by the bandwidth in `uint32_t`; they differ in the CRC
modes that they know and in the bandwidths that the LR11xx adds.
-/

namespace Sidewalk.Radio.AirTime

open Lib Lib.Scaled SymbTimeout

/-- `sid_pal_radio_lora_packet_params_t`, but for the polarity and the payload length, which is
replaced by that of the packet. -/
structure PacketParams where
  preambleLength : UInt16
  headerType : UInt8
  crcMode : UInt8

inductive Driver
  | sx126x
  | lr11xx

/-- `crc_is_on` of the SX126x, and whether `crc` is `LR11XX_RADIO_LORA_CRC_ON`. -/
def Driver.crcIsOn : Driver → UInt8 → Bool
  | .sx126x, crcMode => crcMode != 0
  | .lr11xx, crcMode => crcMode == 1

/-- `lora_low_data_rate_optimize`. -/
def loraLowDataRateOptimize (p : ModulationParams) : Bool :=
  p.bandwidth = 4 && (p.spreadingFactor = 11 || p.spreadingFactor = 12) ||
    p.bandwidth = 5 && p.spreadingFactor = 12

/-- `sx126x_get_lora_bw_in_hz` and `lr11xx_radio_get_lora_bw_in_hz`. -/
def Driver.loraBwInHz : Driver → UInt8 → UInt32
  | _, 1 => 15625
  | _, 2 => 31250
  | _, 3 => 62500
  | _, 4 => 125000
  | _, 5 => 250000
  | _, 6 => 500000
  | _, 8 => 10417
  | _, 9 => 20833
  | _, 10 => 41667
  | .sx126x, 0 => 7812
  | .lr11xx, 13 => 203000
  | .lr11xx, 14 => 406000
  | .lr11xx, 15 => 812000
  | _, _ => 0

/-! ## The symbols of a packet -/

/-- What the vendor functions work with, as they widen it. -/
structure Frame where
  sf : ℤ
  cr : ℤ
  ldro : Bool
  pldIsFix : Bool
  crcIsOn : Bool
  pldLen : ℤ

namespace Frame

variable (f : Frame)

def fineSynch : ℤ := if f.sf ≤ 6 then 1 else 0

def longInterleaving : Bool := 4 < f.cr

def totalBytesNb : ℤ := f.pldLen + if f.crcIsOn then 2 else 0

def txBitsSymbol : ℤ := f.sf - 2 * if f.ldro then 1 else 0

def txBitsSymbolStart : ℤ := f.sf - 2 + 2 * f.fineSynch

def fecRateDenominator : ℤ := f.cr + if f.cr = 7 then 1 else 0

/-- `tx_infobits_header` with a long interleaver, where `& ~0x07` takes the multiple of eight
below. -/
def longInfobitsHeader : ℤ :=
  let header := (f.sf * 4 + f.fineSynch * 8 - 28) / 8 * 8
  if header < 8 * f.totalBytesNb ∧ 8 * f.pldLen < header then 8 * f.pldLen else header

def infobitsHeader : ℤ := f.sf * 4 + f.fineSynch * 8 - 8 - if f.pldIsFix then 0 else 20

/-- `tx_infobits_payload`. -/
def infobitsPayload (header : ℤ) : ℤ := max (8 * f.totalBytesNb - header) 0

/-- `ceil_numerator` and `ceil_denominator`. -/
def ceil : ℤ × ℤ :=
  if f.longInterleaving then
    if f.pldIsFix then
      if 8 * f.totalBytesNb * f.fecRateDenominator ≤ 7 * 4 * f.txBitsSymbolStart then
        (8 * f.totalBytesNb * f.fecRateDenominator, 4 * f.txBitsSymbolStart)
      else
        (8 * 4 * f.txBitsSymbol + 8 * f.totalBytesNb * f.fecRateDenominator -
          4 * (f.txBitsSymbolStart * 8), 4 * f.txBitsSymbol)
    else
      (f.infobitsPayload f.longInfobitsHeader * f.fecRateDenominator + 8 * 4 * f.txBitsSymbol,
        4 * f.txBitsSymbol)
  else (f.infobitsPayload f.infobitsHeader, 4 * f.txBitsSymbol)

/-- `symbols_nb_data`. -/
def symbolsNbData : ℤ :=
  let symbols := (f.ceil.1 + f.ceil.2 - 1).tdiv f.ceil.2
  if f.longInterleaving then symbols else symbols * (f.cr + 4) + 8

/-- The whole symbols of the packet, `intermed`. -/
def intermed (preamble : UInt16) : ℤ := preamble.toNat + 4 + 2 * f.fineSynch + f.symbolsNbData

end Frame

/-- The arguments of the vendor functions, from those of the driver. -/
def frameOf (d : Driver) (p : ModulationParams) (q : PacketParams) (packetLen : UInt8) : Frame where
  sf := p.spreadingFactor.toNat
  cr := p.codingRate.toNat
  ldro := loraLowDataRateOptimize p
  pldIsFix := q.headerType = 1
  crcIsOn := d.crcIsOn q.crcMode
  pldLen := packetLen.toNat

/-- The samples of a packet: four and a quarter symbols belong to the preamble. -/
def samples (d : Driver) (p : ModulationParams) (q : PacketParams) (packetLen : UInt8) : ℕ :=
  ((4 * (frameOf d p q packetLen).intermed q.preambleLength + 1) *
    2 ^ (p.spreadingFactor.toNat - 2)).toNat

/-- `sx126x_get_lora_time_on_air_numerator` and `lr11xx_radio_get_lora_time_on_air_numerator`. -/
def loraTimeOnAirNumerator (d : Driver) (p : ModulationParams) (q : PacketParams)
    (packetLen : UInt8) : UInt32 :=
  UInt32.ofNat (samples d p q packetLen) - 1

/-- `sid_pal_radio_lora_time_on_air`, in milliseconds. -/
def loraTimeOnAir (d : Driver) (p : ModulationParams) (q : PacketParams) (packetLen : UInt8) :
    UInt32 :=
  let numerator := 1000 * loraTimeOnAirNumerator d p q packetLen
  let denominator := d.loraBwInHz p.bandwidth
  (numerator + denominator - 1) / denominator

/-! ## Longer packets -/

/-- What the drivers pass on. -/
structure Frame.Valid (f : Frame) : Prop where
  sf : 5 ≤ f.sf ∧ f.sf ≤ 12
  cr : 0 ≤ f.cr ∧ f.cr ≤ 7
  pldLen : 0 ≤ f.pldLen ∧ f.pldLen ≤ 255
  ldro : f.ldro = true → 11 ≤ f.sf

theorem frameOf_valid {p : ModulationParams}
    (hsf : 5 ≤ p.spreadingFactor.toNat ∧ p.spreadingFactor.toNat ≤ 12)
    (hcr : p.codingRate.toNat ≤ 7) (d : Driver) (q : PacketParams) (packetLen : UInt8) :
    (frameOf d p q packetLen).Valid where
  sf := by
    simp only [frameOf]
    omega
  cr := by
    simp only [frameOf]
    omega
  pldLen := by
    have h := packetLen.toNat_lt
    simp only [frameOf]
    omega
  ldro := by
    intro h
    simp only [frameOf, loraLowDataRateOptimize, Bool.or_eq_true, Bool.and_eq_true,
      decide_eq_true_eq] at h ⊢
    obtain ⟨-, h | h⟩ | ⟨-, h⟩ := h <;> simp [h]

/-- The quotient that the vendor functions round up. -/
theorem quotient_le_iff {a d c : ℤ} (ha : 0 ≤ a) (hd : 0 < d) :
    (a + d - 1).tdiv d ≤ c ↔ a ≤ c * d := by
  rw [Int.tdiv_eq_ediv_of_nonneg (by omega), ← Int.lt_add_one_iff, Int.ediv_lt_iff_lt_mul hd,
    add_mul, one_mul]
  omega

theorem quotient_mono {a a' d : ℤ} (ha : 0 ≤ a) (hle : a ≤ a') (hd : 0 < d) :
    (a + d - 1).tdiv d ≤ (a' + d - 1).tdiv d := by
  rw [quotient_le_iff ha hd]
  exact hle.trans ((quotient_le_iff (ha.trans hle) hd).mp le_rfl)

namespace Frame

variable {f : Frame}

theorem Valid.fecRateDenominator (hf : f.Valid) :
    0 ≤ f.fecRateDenominator ∧ f.fecRateDenominator ≤ 8 := by
  have h := hf.cr
  unfold Frame.fecRateDenominator
  split <;> omega

/-- A symbol of the header takes no more bits than one of the payload. -/
theorem Valid.bits (hf : f.Valid) :
    5 ≤ f.txBitsSymbolStart ∧ f.txBitsSymbolStart ≤ f.txBitsSymbol ∧ f.txBitsSymbol ≤ 12 := by
  have h := hf.sf
  unfold txBitsSymbolStart txBitsSymbol fineSynch
  by_cases hldro : f.ldro = true
  · have hlong := hf.ldro hldro
    rw [if_pos hldro, if_neg (by omega)]
    omega
  · rw [if_neg hldro]
    split <;> omega

theorem Valid.totalBytesNb (hf : f.Valid) : 0 ≤ f.totalBytesNb ∧ f.totalBytesNb ≤ 257 := by
  have h := hf.pldLen
  unfold Frame.totalBytesNb
  split <;> omega

theorem infobitsPayload_nonneg (header : ℤ) : 0 ≤ f.infobitsPayload header := le_max_right _ _

theorem Valid.ceil_pos (hf : f.Valid) : 0 ≤ f.ceil.1 ∧ 0 < f.ceil.2 := by
  obtain ⟨hstart, hle, -⟩ := hf.bits
  obtain ⟨hfec, -⟩ := hf.fecRateDenominator
  obtain ⟨htotal, -⟩ := hf.totalBytesNb
  have hcoded := mul_nonneg (mul_nonneg (by decide : (0 : ℤ) ≤ 8) htotal) hfec
  unfold ceil
  split_ifs
  · exact ⟨hcoded, by dsimp only; omega⟩
  · constructor <;> dsimp only <;> omega
  · have hlong := mul_nonneg (infobitsPayload_nonneg (f := f) f.longInfobitsHeader) hfec
    constructor <;> dsimp only <;> omega
  · exact ⟨infobitsPayload_nonneg _, by dsimp only; omega⟩

/-- The same packet with another payload. -/
def withLen (f : Frame) (len : ℤ) : Frame := { f with pldLen := len }

theorem totalBytesNb_mono {len : ℤ} (hle : f.pldLen ≤ len) :
    f.totalBytesNb ≤ (f.withLen len).totalBytesNb := by
  unfold totalBytesNb withLen
  exact Int.add_le_add_right hle _

theorem infobitsPayload_mono {len : ℤ} (hle : f.pldLen ≤ len) (header : ℤ) :
    f.infobitsPayload header ≤ (f.withLen len).infobitsPayload header := by
  have h := totalBytesNb_mono hle
  unfold infobitsPayload
  omega

/-- The header of a long interleaver takes whole bytes of the payload, and of a short packet at
most the payload, which leaves the CRC behind it. -/
theorem longInfobits_mono {len : ℤ} (hle : f.pldLen ≤ len) :
    f.infobitsPayload f.longInfobitsHeader ≤
      (f.withLen len).infobitsPayload (f.withLen len).longInfobitsHeader := by
  unfold infobitsPayload longInfobitsHeader totalBytesNb withLen
  have hfine : ({ f with pldLen := len } : Frame).fineSynch = f.fineSynch := rfl
  simp only [hfine]
  generalize (f.sf * 4 + f.fineSynch * 8 - 28) / 8 = header
  split_ifs <;> omega

/-- The symbols that are coded, before the header symbols are added. -/
def quotient (f : Frame) : ℤ := (f.ceil.1 + f.ceil.2 - 1).tdiv f.ceil.2

/-- A longer payload that no longer fits the header symbols takes eight symbols or more. -/
theorem eight_le_quotient {coded start bits : ℤ} (hstart : 0 < start) (hle : start ≤ bits)
    (hlong : 7 * 4 * start < coded) :
    7 < (8 * 4 * bits + coded - 4 * (start * 8) + 4 * bits - 1).tdiv (4 * bits) := by
  rw [← not_le, quotient_le_iff (by omega) (by omega)]
  omega

theorem quotient_mono_len (hf : f.Valid) {len : ℤ} (hle : f.pldLen ≤ len) :
    f.quotient ≤ (f.withLen len).quotient := by
  obtain ⟨hstart, hstartle, -⟩ := hf.bits
  obtain ⟨hfec, -⟩ := hf.fecRateDenominator
  have hcoded : 0 ≤ 8 * f.totalBytesNb * f.fecRateDenominator :=
    mul_nonneg (mul_nonneg (by decide) hf.totalBytesNb.1) hfec
  have hcodedle : 8 * f.totalBytesNb * f.fecRateDenominator ≤
      8 * (f.withLen len).totalBytesNb * f.fecRateDenominator :=
    mul_le_mul_of_nonneg_right (mul_le_mul_of_nonneg_left (totalBytesNb_mono hle) (by decide)) hfec
  -- Only the payload differs.
  have hsame : (f.withLen len).longInterleaving = f.longInterleaving ∧
      (f.withLen len).pldIsFix = f.pldIsFix ∧
      (f.withLen len).txBitsSymbolStart = f.txBitsSymbolStart ∧
      (f.withLen len).txBitsSymbol = f.txBitsSymbol ∧
      (f.withLen len).fecRateDenominator = f.fecRateDenominator ∧
      (f.withLen len).infobitsHeader = f.infobitsHeader := ⟨rfl, rfl, rfl, rfl, rfl, rfl⟩
  obtain ⟨hli, hfix, hs, hb, hd, hh⟩ := hsame
  unfold quotient ceil
  rw [hli, hfix, hs, hb, hd, hh]
  split
  · split
    · split
      · split
        · exact quotient_mono hcoded hcodedle (by omega)
        · have hbits : 0 < 4 * f.txBitsSymbolStart := by omega
          have hshort := (quotient_le_iff (c := 7) hcoded hbits).mpr (by omega)
          exact hshort.trans (eight_le_quotient (by omega) hstartle (by omega)).le
      · rw [if_neg (by omega)]
        exact quotient_mono (by omega) (by omega) (by omega)
    · have hlong := mul_le_mul_of_nonneg_right (longInfobits_mono hle) hfec
      have hpos := mul_nonneg (infobitsPayload_nonneg (f := f) f.longInfobitsHeader) hfec
      exact quotient_mono (by dsimp only; omega) (by dsimp only; omega) (by dsimp only; omega)
  · apply quotient_mono (infobitsPayload_nonneg _) (infobitsPayload_mono hle _)
    dsimp only
    omega

/-- A longer payload takes no fewer symbols. -/
theorem symbolsNbData_mono (hf : f.Valid) {len : ℤ} (hle : f.pldLen ≤ len) :
    f.symbolsNbData ≤ (f.withLen len).symbolsNbData := by
  have hquotient := quotient_mono_len hf hle
  have hcr := hf.cr
  change (if f.longInterleaving then f.quotient else f.quotient * (f.cr + 4) + 8) ≤
    if f.longInterleaving then (f.withLen len).quotient
    else (f.withLen len).quotient * (f.cr + 4) + 8
  split
  · exact hquotient
  · exact Int.add_le_add_right (mul_le_mul_of_nonneg_right hquotient (by omega)) 8

theorem Valid.ceil_le (hf : f.Valid) :
    f.ceil.1 ≤ 16832 ∧ (f.longInterleaving = false → f.ceil.1 ≤ 2056) := by
  obtain ⟨hstart, hle, hbits⟩ := hf.bits
  obtain ⟨hfec, hfec8⟩ := hf.fecRateDenominator
  obtain ⟨htotal, htotal257⟩ := hf.totalBytesNb
  have hcoded : 8 * f.totalBytesNb * f.fecRateDenominator ≤ 8 * 257 * 8 :=
    mul_le_mul (by omega) hfec8 hfec (by decide)
  have hheader : 0 ≤ f.longInfobitsHeader ∧ 0 ≤ f.infobitsHeader := by
    have hsf := hf.sf
    have hlen := hf.pldLen
    unfold longInfobitsHeader infobitsHeader fineSynch
    dsimp only
    split_ifs <;> omega
  have hpayload : ∀ header, 0 ≤ header → f.infobitsPayload header ≤ 8 * 257 := by
    intro header hpos
    unfold infobitsPayload
    omega
  have hlong : f.infobitsPayload f.longInfobitsHeader * f.fecRateDenominator ≤ 8 * 257 * 8 :=
    mul_le_mul (hpayload _ hheader.1) hfec8 hfec (by decide)
  unfold ceil
  constructor
  · split_ifs
    · exact hcoded.trans (by decide)
    · dsimp only
      omega
    · dsimp only
      omega
    · exact (hpayload _ hheader.2).trans (by decide)
  · intro hshort
    rw [if_neg (by simp [hshort])]
    exact hpayload _ hheader.2

theorem Valid.symbolsNbData (hf : f.Valid) : 0 ≤ f.symbolsNbData ∧ f.symbolsNbData ≤ 22624 := by
  obtain ⟨hpos, hdenominator⟩ := hf.ceil_pos
  obtain ⟨hlong, hshort⟩ := hf.ceil_le
  have hcr := hf.cr
  have hquotient : 0 ≤ f.quotient ∧ f.quotient ≤ f.ceil.1 := by
    constructor
    · exact Int.tdiv_nonneg (by omega) hdenominator.le
    · rw [quotient, quotient_le_iff hpos hdenominator]
      exact le_mul_of_one_le_right hpos hdenominator
  change 0 ≤ (if f.longInterleaving then f.quotient else f.quotient * (f.cr + 4) + 8) ∧
    (if f.longInterleaving then f.quotient else f.quotient * (f.cr + 4) + 8) ≤ 22624
  cases hli : f.longInterleaving with
  | true =>
    rw [if_pos rfl]
    omega
  | false =>
    rw [if_neg Bool.false_ne_true]
    have hsmall := hshort hli
    have hcoded : f.quotient * (f.cr + 4) ≤ 2056 * 11 :=
      mul_le_mul (by omega) (by omega) (by omega) (by decide)
    have hnonneg := mul_nonneg hquotient.1 (by omega : 0 ≤ f.cr + 4)
    omega

end Frame

section
variable {d : Driver} {p : ModulationParams} {q : PacketParams} {packetLen packetLen' : UInt8}

/-- The symbols of a packet, without their last quarter, and the samples of four of them. -/
theorem samples_spec (hsf : 5 ≤ p.spreadingFactor.toNat ∧ p.spreadingFactor.toNat ≤ 12)
    (hcr : p.codingRate.toNat ≤ 7) :
    ∃ i : ℕ, samples d p q packetLen = (4 * i + 1) * 2 ^ (p.spreadingFactor.toNat - 2) ∧
      (frameOf d p q packetLen).intermed q.preambleLength = i ∧ i ≤ 88165 := by
  obtain ⟨hpos, hle⟩ := (frameOf_valid hsf hcr d q packetLen).symbolsNbData
  have hpreamble := q.preambleLength.toNat_lt
  have hfine : 0 ≤ (frameOf d p q packetLen).fineSynch ∧
      (frameOf d p q packetLen).fineSynch ≤ 1 := by
    unfold Frame.fineSynch
    split <;> omega
  unfold samples
  have hintermed : 0 ≤ (frameOf d p q packetLen).intermed q.preambleLength ∧
      (frameOf d p q packetLen).intermed q.preambleLength ≤ 88165 := by
    unfold Frame.intermed
    omega
  obtain ⟨i, hi⟩ := Int.eq_ofNat_of_zero_le hintermed.1
  rw [hi] at hintermed ⊢
  exact ⟨i, by norm_cast, rfl, by omega⟩

/-- The samples fit in an `int32_t`, and come in eights. -/
theorem samples_bounds (hsf : 5 ≤ p.spreadingFactor.toNat ∧ p.spreadingFactor.toNat ≤ 12)
    (hcr : p.codingRate.toNat ≤ 7) :
    0 < samples d p q packetLen ∧ samples d p q packetLen < 2 ^ 31 ∧
      8 ∣ samples d p q packetLen := by
  obtain ⟨i, hsamples, -, hi⟩ := @samples_spec d p q packetLen hsf hcr
  obtain ⟨e, he⟩ := Nat.exists_eq_add_of_le hsf.1
  have hpow : 2 ^ (p.spreadingFactor.toNat - 2) = 8 * 2 ^ e := by
    rw [he, show 5 + e - 2 = 3 + e by omega, Nat.pow_add]
  have hsmall : 2 ^ e ≤ 2 ^ 7 := Nat.pow_le_pow_right (by decide) (by omega)
  rw [hsamples, hpow]
  refine ⟨by positivity, ?_, Dvd.intro_left ((4 * i + 1) * 2 ^ e) (by ring)⟩
  calc (4 * i + 1) * (8 * 2 ^ e)
      ≤ (4 * 88165 + 1) * (8 * 2 ^ 7) := by gcongr
    _ < 2 ^ 31 := by norm_num

/-- A longer packet has no fewer samples. -/
theorem samples_mono (hsf : 5 ≤ p.spreadingFactor.toNat ∧ p.spreadingFactor.toNat ≤ 12)
    (hcr : p.codingRate.toNat ≤ 7) (hle : packetLen.toNat ≤ packetLen'.toNat) :
    samples d p q packetLen ≤ samples d p q packetLen' := by
  have hsymbols := Frame.symbolsNbData_mono (frameOf_valid hsf hcr d q packetLen)
    (Int.ofNat_le.mpr hle : (frameOf d p q packetLen).pldLen ≤ packetLen'.toNat)
  obtain ⟨i, hsamples, hi, -⟩ := @samples_spec d p q packetLen hsf hcr
  obtain ⟨i', hsamples', hi', -⟩ := @samples_spec d p q packetLen' hsf hcr
  have hii' : (i : ℤ) ≤ i' := by
    rw [← hi, ← hi']
    exact Int.add_le_add_left hsymbols _
  rw [hsamples, hsamples']
  gcongr
  omega

/-! ## Milliseconds -/

theorem loraBwInHz_eq (hp : p.Valid) (d : Driver) :
    (d.loraBwInHz p.bandwidth).toNat = 125000 * 2 ^ (p.bandwidth.toNat - 4) := by
  obtain ⟨hbw, hbw'⟩ := hp.bandwidth
  have hcases : p.bandwidth = 4 ∨ p.bandwidth = 5 ∨ p.bandwidth = 6 := by
    simp only [← UInt8.toNat_inj]
    change p.bandwidth.toNat = 4 ∨ p.bandwidth.toNat = 5 ∨ p.bandwidth.toNat = 6
    omega
  obtain h | h | h := hcases <;> rw [h] <;> cases d <;> rfl

/-- The division is one of 32 bits. -/
theorem toNat_loraTimeOnAir (hsf : 5 ≤ p.spreadingFactor.toNat ∧ p.spreadingFactor.toNat ≤ 12)
    (hcr : p.codingRate.toNat ≤ 7) (hbw : 0 < (d.loraBwInHz p.bandwidth).toNat) :
    (loraTimeOnAir d p q packetLen).toNat =
      (1000 * (samples d p q packetLen - 1) + (d.loraBwInHz p.bandwidth).toNat - 1) % 2 ^ 32 /
        (d.loraBwInHz p.bandwidth).toNat := by
  obtain ⟨hpos, hlt, -⟩ := @samples_bounds d p q packetLen hsf hcr
  have hnumerator :
      (loraTimeOnAirNumerator d p q packetLen).toNat = samples d p q packetLen - 1 := by
    rw [loraTimeOnAirNumerator, UInt32.toNat_sub, UInt32.toNat_ofNat']
    change (2 ^ 32 - 1 + samples d p q packetLen % 2 ^ 32) % 2 ^ 32 = _
    omega
  rw [loraTimeOnAir, UInt32.toNat_div, UInt32.toNat_sub, UInt32.toNat_add, UInt32.toNat_mul,
    hnumerator]
  change (2 ^ 32 - 1 + (1000 * (samples d p q packetLen - 1) % 2 ^ 32 + _) % 2 ^ 32) % 2 ^ 32 / _ =
    _
  congr 1
  omega

/-- Leaving out one sample changes the milliseconds where it is the first of its millisecond. -/
theorem cut_exact_iff {x k : ℕ} (hx : 0 < x) (hk : 1 < k) (hk' : 1000 * k < 2 ^ 32) :
    (1000 * (x - 1) + 1000 * k - 1) % 2 ^ 32 / (1000 * k) = (1000 * x + 1000 * k - 1) / (1000 * k) ↔
      1000 * (x - 1) + 1000 * k ≤ 2 ^ 32 ∧ x % k ≠ 1 := by
  have htime : (1000 * x + 1000 * k - 1) / (1000 * k) = (x - 1 + k - 1 + 1) / k := by
    rw [← Nat.div_div_eq_div_mul]
    congr 1
    omega
  have hcut : (1000 * (x - 1) + 1000 * k - 1) / (1000 * k) = (x - 1 + k - 1) / k := by
    rw [← Nat.div_div_eq_div_mul]
    congr 1
    omega
  have hfirst : k ∣ x - 1 + k - 1 + 1 ↔ x % k = 1 := by
    rw [show x - 1 + k - 1 + 1 = x - 1 + k by omega, Nat.dvd_add_self_right,
      ← Nat.modEq_iff_dvd' hx, Nat.ModEq, Nat.mod_eq_of_lt hk]
    exact eq_comm
  by_cases hwrap : 1000 * (x - 1) + 1000 * k ≤ 2 ^ 32
  · rw [Nat.mod_eq_of_lt (by omega), hcut, htime, Nat.succ_div]
    simp only [hfirst]
    split <;> simp_all
  · have hless : (1000 * (x - 1) + 1000 * k - 1) % 2 ^ 32 / (1000 * k) + 1 ≤
        (x - 1 + k - 1) / k := by
      rw [← hcut, ← Nat.add_div_right _ (by omega)]
      apply Nat.div_le_div_right
      have hlarge : 2 ^ 32 ≤ 1000 * (x - 1) + 1000 * k - 1 := by omega
      generalize 1000 * (x - 1) + 1000 * k - 1 = n at hlarge ⊢
      omega
    have hmono : (x - 1 + k - 1) / k ≤ (x - 1 + k - 1 + 1) / k := Nat.div_le_div_right (by omega)
    rw [htime]
    constructor
    · intro heq
      omega
    · rintro ⟨h, -⟩
      exact absurd h hwrap

/-- The result is the time on air, rounded up, where nothing overflows, and where the sample that
the numerator leaves out is not one that begins a millisecond at 125 kHz. -/
theorem loraTimeOnAir_exact_iff (hp : p.Valid) (hcr : p.codingRate.toNat ≤ 7) :
    (loraTimeOnAir d p q packetLen).toNat =
        (1000 * samples d p q packetLen) ⌈/⌉ (d.loraBwInHz p.bandwidth).toNat ↔
      1000 * (samples d p q packetLen - 1) + (d.loraBwInHz p.bandwidth).toNat ≤ 2 ^ 32 ∧
        (p.bandwidth.toNat = 4 → samples d p q packetLen % 125 ≠ 1) := by
  obtain ⟨hpos, hlt, n, hn⟩ := @samples_bounds d p q packetLen hp.spreadingFactor hcr
  obtain ⟨hbw, hbw'⟩ := hp.bandwidth
  have hHz : 0 < (d.loraBwInHz p.bandwidth).toNat := by
    rw [loraBwInHz_eq hp d]
    positivity
  rw [toNat_loraTimeOnAir hp.spreadingFactor hcr hHz, loraBwInHz_eq hp d, Nat.ceilDiv_eq_add_pred_div]
  generalize samples d p q packetLen = x at *
  generalize p.bandwidth.toNat = bw at *
  interval_cases bw
  · rw [show 125000 * 2 ^ (4 - 4) = 1000 * 125 by rfl, cut_exact_iff hpos (by decide) (by decide)]
    simp
  · rw [show 125000 * 2 ^ (5 - 4) = 1000 * 250 by rfl, cut_exact_iff hpos (by decide) (by decide)]
    omega
  · rw [show 125000 * 2 ^ (6 - 4) = 1000 * 500 by rfl, cut_exact_iff hpos (by decide) (by decide)]
    omega

theorem loraTimeOnAir_exact_iff_sf7 :
    (loraTimeOnAir .sx126x ⟨7, 6, 2⟩ ⟨16, 0, 1⟩ 255).toNat =
        (1000 * samples .sx126x ⟨7, 6, 2⟩ ⟨16, 0, 1⟩ 255) ⌈/⌉ (500000 : ℕ) ↔
      1000 * (samples .sx126x ⟨7, 6, 2⟩ ⟨16, 0, 1⟩ 255 - 1) + 500000 ≤ 2 ^ 32 ∧
        (6 = 4 → samples .sx126x ⟨7, 6, 2⟩ ⟨16, 0, 1⟩ 255 % 125 ≠ 1) :=
  @loraTimeOnAir_exact_iff .sx126x ⟨7, 6, 2⟩ ⟨16, 0, 1⟩ 255 ⟨by decide, by decide⟩ (by decide)

/-- A longer payload takes no less time, where its own time does not overflow. -/
theorem loraTimeOnAir_mono (hsf : 5 ≤ p.spreadingFactor.toNat ∧ p.spreadingFactor.toNat ≤ 12)
    (hcr : p.codingRate.toNat ≤ 7) (hbw : 0 < (d.loraBwInHz p.bandwidth).toNat)
    (hle : packetLen.toNat ≤ packetLen'.toNat)
    (hfit : 1000 * (samples d p q packetLen' - 1) + (d.loraBwInHz p.bandwidth).toNat ≤ 2 ^ 32) :
    (loraTimeOnAir d p q packetLen).toNat ≤ (loraTimeOnAir d p q packetLen').toNat := by
  have hmono := @samples_mono d p q _ _ hsf hcr hle
  rw [toNat_loraTimeOnAir hsf hcr hbw, toNat_loraTimeOnAir hsf hcr hbw]
  rw [Nat.mod_eq_of_lt (by omega), Nat.mod_eq_of_lt (by omega)]
  exact Nat.div_le_div_right (by omega)

theorem loraTimeOnAir_mono_sf11 :
    (loraTimeOnAir .lr11xx ⟨11, 6, 5⟩ ⟨16, 1, 1⟩ 20).toNat ≤
      (loraTimeOnAir .lr11xx ⟨11, 6, 5⟩ ⟨16, 1, 1⟩ 60).toNat :=
  loraTimeOnAir_mono ⟨by decide, by decide⟩ (by decide) (by decide) (by decide) (by decide)

end

end Sidewalk.Radio.AirTime
