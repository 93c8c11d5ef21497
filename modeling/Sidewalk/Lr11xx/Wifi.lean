import Sidewalk.Lr11xx.Bootloader

/-!
# The results of a Wi-Fi scan

`fetch_and_aggregate_all_results` of `lr11xx_wifi.c` reads the results of a scan in chunks, with
8-bit indices. The chip keeps the results as one table of bytes; whatever the chunks are, what is
read is that table, result by result. The country codes are read in one piece, with an 8-bit index
of bytes.
-/

namespace Sidewalk.Lr11xx

open Lib
open Lib.Program (make Runs runs_bind)

/-! ## The results -/

inductive ResultFormat
  | basicComplete
  | basicMacTypeChannel
  | extendedFull
  deriving DecidableEq

namespace ResultFormat

/-- `lr11xx_wifi_get_result_size_from_format`. -/
def size : ResultFormat → Nat
  | basicComplete => 22
  | basicMacTypeChannel => 9
  | extendedFull => 79

/-- `lr11xx_wifi_get_format_code`. -/
def code : ResultFormat → UInt8
  | basicComplete => 0x01
  | basicMacTypeChannel => 0x04
  | extendedFull => 0x01

/-- `LR11XX_WIFI_MAX_RESULT_PER_TRANSACTION`. -/
def maxPerTransaction (f : ResultFormat) : UInt8 := UInt8.ofNat (min (1020 / f.size) 32)

end ResultFormat

/-- The bytes of one result, by their index. -/
abbrev Bytes := Nat → UInt8

/-- `uint16_from_array`. -/
def uint16FromArray (array : Bytes) (index : Nat) : UInt16 :=
  (array index).toUInt16 <<< 8 + (array (index + 1)).toUInt16

/-- `uint64_from_array`. -/
def uint64FromArray (array : Bytes) (index : Nat) : UInt64 :=
  ((array index).toUInt64 <<< 56) + ((array (index + 1)).toUInt64 <<< 48) +
    ((array (index + 2)).toUInt64 <<< 40) + ((array (index + 3)).toUInt64 <<< 32) +
    ((array (index + 4)).toUInt64 <<< 24) + ((array (index + 5)).toUInt64 <<< 16) +
    ((array (index + 6)).toUInt64 <<< 8) + (array (index + 7)).toUInt64

/-- A field of some bytes; of six it is `lr11xx_wifi_read_mac_address_from_buffer`. -/
def field (array : Bytes) (index length : Nat) : List UInt8 :=
  (List.range length).map fun i => array (index + i)

structure BasicComplete where
  dataRateInfoByte : UInt8
  channelInfoByte : UInt8
  rssi : Int8
  frameTypeInfoByte : UInt8
  macAddress : List UInt8
  phiOffset : Int16
  timestampUs : UInt64
  beaconPeriodTu : UInt16
  deriving DecidableEq

structure BasicMacTypeChannel where
  dataRateInfoByte : UInt8
  channelInfoByte : UInt8
  rssi : Int8
  macAddress : List UInt8
  deriving DecidableEq

structure ExtendedFull where
  dataRateInfoByte : UInt8
  channelInfoByte : UInt8
  rssi : Int8
  rate : UInt8
  service : UInt16
  length : UInt16
  frameControl : UInt16
  macAddress1 : List UInt8
  macAddress2 : List UInt8
  macAddress3 : List UInt8
  timestampUs : UInt64
  beaconPeriodTu : UInt16
  seqControl : UInt16
  ssidBytes : List UInt8
  currentChannel : UInt8
  countryCode : List UInt8
  ioRegulation : UInt8
  isFcsOk : Bool
  isFcsChecked : Bool
  phiOffset : Int16
  deriving DecidableEq

/-- `lr11xx_wifi_result_interface_t`: what a format is read as. -/
def WifiResult : ResultFormat → Type
  | .basicComplete => BasicComplete
  | .basicMacTypeChannel => BasicMacTypeChannel
  | .extendedFull => ExtendedFull

/-- One turn of `interpret_basic_complete_result_from_buffer`. -/
def basicCompleteOfBytes (b : Bytes) : BasicComplete where
  dataRateInfoByte := b 0
  channelInfoByte := b 1
  rssi := (b 2).toInt8
  frameTypeInfoByte := b 3
  macAddress := field b 4 6
  phiOffset := (uint16FromArray b 10).toInt16
  timestampUs := uint64FromArray b 12
  beaconPeriodTu := uint16FromArray b 20

/-- One turn of `interpret_basic_mac_type_channel_result_from_buffer`. -/
def basicMacTypeChannelOfBytes (b : Bytes) : BasicMacTypeChannel where
  dataRateInfoByte := b 0
  channelInfoByte := b 1
  rssi := (b 2).toInt8
  macAddress := field b 3 6

/-- One turn of `interpret_extended_full_result_from_buffer`. -/
def extendedFullOfBytes (b : Bytes) : ExtendedFull where
  dataRateInfoByte := b 0
  channelInfoByte := b 1
  rssi := (b 2).toInt8
  rate := b 3
  service := uint16FromArray b 4
  length := uint16FromArray b 6
  frameControl := uint16FromArray b 8
  macAddress1 := field b 10 6
  macAddress2 := field b 16 6
  macAddress3 := field b 22 6
  timestampUs := uint64FromArray b 28
  beaconPeriodTu := uint16FromArray b 36
  seqControl := uint16FromArray b 38
  ssidBytes := field b 40 32
  currentChannel := b 72
  countryCode := field b 73 2
  ioRegulation := b 75
  isFcsOk := b 76 &&& 0x02 == 0x02
  isFcsChecked := b 76 &&& 0x01 == 0x01
  phiOffset := (uint16FromArray b 77).toInt16

/-- `generic_results_interpreter`, on one result. -/
def resultOfBytes : (f : ResultFormat) → Bytes → WifiResult f
  | .basicComplete => basicCompleteOfBytes
  | .basicMacTypeChannel => basicMacTypeChannelOfBytes
  | .extendedFull => extendedFullOfBytes

/-! ## The code -/

/-- The loops over the results of a buffer, which write from an index on. -/
def interpret (f : ResultFormat) (nbResults start : UInt8) (buffer : List UInt8)
    (results : List (WifiResult f)) : List (WifiResult f) :=
  (List.range nbResults.toNat).foldl
    (fun results i => results.set (start.toNat + i)
      (resultOfBytes f fun k => buffer.getD (f.size * i + k) 0))
    results

/-- The command of `lr11xx_wifi_read_results_helper`. -/
def readResultCommand (f : ResultFormat) (startIndex nElem : UInt8) : List UInt8 :=
  [0x03, 0x06, startIndex, nElem, f.code]

/-- `lr11xx_wifi_read_results_helper`. -/
def readResultsHelper (ctx : DrvCtx) (f : ResultFormat) (startIndex nElem : UInt8) :
    HalProgram Outcome :=
  halRead ctx (readResultCommand f startIndex nElem) (nElem.toNat * f.size)

theorem maxPerTransaction_pos (f : ResultFormat) : 0 < f.maxPerTransaction.toNat := by
  cases f <;> decide

/-- The loop of `fetch_and_aggregate_all_results`, and whether it ends with
`LR11XX_HAL_STATUS_OK`. -/
def fetchLoop (ctx : DrvCtx) (f : ResultFormat) (indexToRead indexWriting remaining : UInt8)
    (results : List (WifiResult f)) : HalProgram (Bool × List (WifiResult f) × DrvCtx) :=
  if _hpos : 0 < remaining then do
    let resultsToRead :=
      if f.maxPerTransaction < remaining then f.maxPerTransaction else remaining
    let out ← readResultsHelper ctx f indexToRead resultsToRead
    if !out.ok then pure (false, results, out.ctx)
    else
      fetchLoop out.ctx f (indexToRead + resultsToRead) (indexWriting + resultsToRead)
        (remaining - resultsToRead) (interpret f resultsToRead indexWriting out.data results)
  else pure (true, results, ctx)
  termination_by remaining.toNat
  decreasing_by
    have hpos : 0 < remaining.toNat := _hpos
    have hmax := maxPerTransaction_pos f
    split
    · next h =>
      have hle : f.maxPerTransaction.toNat < remaining.toNat := h
      rw [UInt8.toNat_sub_of_le _ _ (Nat.le_of_lt hle)]
      omega
    · rw [UInt8.sub_self]
      exact hpos

/-- `lr11xx_wifi_read_basic_complete_results` and its siblings. -/
def readResults (ctx : DrvCtx) (f : ResultFormat) (startResultIndex nbResults : UInt8)
    (results : List (WifiResult f)) : HalProgram (Bool × List (WifiResult f) × DrvCtx) :=
  fetchLoop ctx f startResultIndex 0 nbResults results

/-! ## The table of the chip -/

/-- The chip answers the command for some results with their bytes of the table. -/
def ServesResults (f : ResultFormat) (table : Bytes) (t t' : Transfer) : Prop :=
  ∀ start n, t.1 = readResultCommand f start n →
    ∀ k < n.toNat * f.size, t'.2.received (k + 1) = table (f.size * start.toNat + k)

/-- A result of the table. -/
def resultAt (f : ResultFormat) (table : Bytes) (j : Nat) : WifiResult f :=
  resultOfBytes f fun k => table (f.size * j + k)

section

variable {f : ResultFormat} {table : Bytes} {ctx ctx' : DrvCtx} {events : HalEvents}

/-- A result is read from its own bytes only. -/
theorem resultOfBytes_congr {g h : Bytes} (heq : ∀ k < f.size, g k = h k) :
    resultOfBytes f g = resultOfBytes f h := by
  have hfield : ∀ index length, index + length ≤ f.size → field g index length =
      field h index length := by
    intro index length hle
    apply List.map_congr_left
    intro i hi
    exact heq _ (by have := List.mem_range.mp hi; omega)
  have h16 : ∀ index, index + 2 ≤ f.size → uint16FromArray g index = uint16FromArray h index := by
    intro index hle
    rw [uint16FromArray, uint16FromArray, heq _ (by omega), heq _ (by omega)]
  have h64 : ∀ index, index + 8 ≤ f.size → uint64FromArray g index = uint64FromArray h index := by
    intro index hle
    simp only [uint64FromArray]
    rw [heq _ (by omega), heq _ (by omega), heq _ (by omega), heq _ (by omega), heq _ (by omega),
      heq _ (by omega), heq _ (by omega), heq _ (by omega)]
  cases f with
  | basicComplete =>
    simp only [ResultFormat.size] at *
    simp only [resultOfBytes, basicCompleteOfBytes]
    rw [heq 0 (by omega), heq 1 (by omega), heq 2 (by omega), heq 3 (by omega),
      hfield 4 6 (by omega), h16 10 (by omega), h64 12 (by omega), h16 20 (by omega)]
  | basicMacTypeChannel =>
    simp only [ResultFormat.size] at *
    simp only [resultOfBytes, basicMacTypeChannelOfBytes]
    rw [heq 0 (by omega), heq 1 (by omega), heq 2 (by omega), hfield 3 6 (by omega)]
  | extendedFull =>
    simp only [ResultFormat.size] at *
    simp only [resultOfBytes, extendedFullOfBytes]
    rw [heq 0 (by omega), heq 1 (by omega), heq 2 (by omega), heq 3 (by omega), h16 4 (by omega),
      h16 6 (by omega), h16 8 (by omega), hfield 10 6 (by omega), hfield 16 6 (by omega),
      hfield 22 6 (by omega), h64 28 (by omega), h16 36 (by omega), h16 38 (by omega),
      hfield 40 32 (by omega), heq 72 (by omega), hfield 73 2 (by omega), heq 75 (by omega),
      heq 76 (by omega), h16 77 (by omega)]

/-- The results that are written: those before and after them stay. The induction is on how many
are written. -/
theorem foldl_set {α : Type} (value : Nat → α) {start n : Nat} {results : List α}
    (h : start + n ≤ results.length) :
    (List.range n).foldl (fun results i => results.set (start + i) (value i)) results =
      results.take start ++ (List.range n).map value ++ results.drop (start + n) := by
  induction n with
  | zero => simp
  | succ n ih =>
    rw [List.range_succ, List.foldl_append, ih (by omega), List.foldl_cons, List.foldl_nil,
      List.map_append, List.map_singleton]
    have hlen : (results.take start ++ (List.range n).map value).length = start + n := by
      simp only [List.length_append, List.length_take, List.length_map, List.length_range]
      omega
    rw [List.set_append_right _ _ (by omega), hlen, Nat.sub_self,
      List.drop_eq_getElem_cons (by omega : start + n < results.length), List.set_cons_zero]
    simp [Nat.add_assoc]

/-- One chunk, as the chip serves it. -/
theorem interpret_served {start n : UInt8} {second : HalReply} {first : HalReply}
    {indexWriting : UInt8} {results : List (WifiResult f)}
    (hserves : ServesResults f table (readResultCommand f start n, first)
      (answerZeros (n.toNat * f.size), second))
    (hroom : indexWriting.toNat + n.toNat ≤ results.length) :
    interpret f n indexWriting
        ((List.range (n.toNat * f.size)).map fun i => second.received (i + 1)) results =
      results.take indexWriting.toNat ++
        (List.range n.toNat).map (fun i => resultAt f table (start.toNat + i)) ++
        results.drop (indexWriting.toNat + n.toNat) := by
  rw [interpret, foldl_set _ hroom]
  congr 2
  apply List.map_congr_left
  intro i hi
  have hlt : i < n.toNat := List.mem_range.mp hi
  apply resultOfBytes_congr
  intro k hk
  have hin : f.size * i + k < n.toNat * f.size := by
    have hle : f.size * (i + 1) ≤ f.size * n.toNat := Nat.mul_le_mul_left _ hlt
    rw [Nat.mul_comm n.toNat]
    rw [Nat.mul_succ] at hle
    omega
  rw [List.getD_eq_getElem?_getD, List.getElem?_map, List.getElem?_range hin, Option.map_some,
    Option.getD_some, hserves start n rfl _ hin, Nat.mul_add, Nat.add_assoc]

/-! ## The chunks together -/

/-- The number of results in the next chunk. -/
theorem toNat_resultsToRead (remaining : UInt8) :
    (if f.maxPerTransaction < remaining then f.maxPerTransaction else remaining).toNat =
      min f.maxPerTransaction.toNat remaining.toNat := by
  split
  · next h =>
    have hlt : f.maxPerTransaction.toNat < remaining.toNat := h
    rw [min_eq_left hlt.le]
  · next h =>
    have hge : ¬f.maxPerTransaction.toNat < remaining.toNat := h
    rw [min_eq_right (not_lt.mp hge)]

/-- What a successful loop leaves: the results from its index on, after those already there. The
induction is on the results that remain. -/
theorem fetchLoop_served {indexToRead indexWriting remaining : UInt8}
    {results results' : List (WifiResult f)}
    (hrun : Runs (fetchLoop ctx f indexToRead indexWriting remaining results) events
      (true, results', ctx'))
    (hserves : (transfers events).IsChain (ServesResults f table))
    (hindex : indexToRead.toNat + remaining.toNat ≤ 256)
    (hwriting : indexWriting.toNat + remaining.toNat < 256)
    (hroom : indexWriting.toNat + remaining.toNat ≤ results.length) :
    results' = results.take indexWriting.toNat ++
      (List.range remaining.toNat).map (fun i => resultAt f table (indexToRead.toNat + i)) ++
      results.drop (indexWriting.toNat + remaining.toNat) := by
  induction hn : remaining.toNat using Nat.strong_induction_on
    generalizing ctx indexToRead indexWriting remaining results events with
  | _ n ih =>
    rw [fetchLoop] at hrun
    by_cases hpos : 0 < remaining
    · rw [dif_pos hpos] at hrun
      have hrem : 0 < remaining.toNat := hpos
      have hcount := toNat_resultsToRead (f := f) remaining
      have hmax := maxPerTransaction_pos f
      generalize (if f.maxPerTransaction < remaining then f.maxPerTransaction else remaining) =
        count at hrun hcount
      dsimp only at hrun
      rw [runs_bind] at hrun
      obtain ⟨events₁, out, events₂, hread, hrest, rfl⟩ := hrun
      cases hok : out.ok with
      | false =>
        rw [hok, Bool.not_false, if_pos rfl] at hrest
        cases hrest.2
      | true =>
        rw [hok, Bool.not_true, if_neg Bool.false_ne_true] at hrest
        obtain ⟨hfail, -⟩ | ⟨first, second, hts, -, hdata, -⟩ := runs_halRead hread
        · rw [hok] at hfail
          cases hfail
        rw [transfers_append] at hserves
        have hchunk : ServesResults f table (readResultCommand f indexToRead count, first)
            (answerZeros (count.toNat * f.size), second) := by
          have hleft := hserves.left_of_append
          rw [hts] at hleft
          exact (List.isChain_cons_cons.mp hleft).1
        rw [hdata, interpret_served hchunk (by omega)] at hrest
        have hsub : (remaining - count).toNat = remaining.toNat - count.toNat :=
          UInt8.toNat_sub_of_le _ _ (show count.toNat ≤ remaining.toNat by omega)
        have hnextWriting : (indexWriting + count).toNat = indexWriting.toNat + count.toNat := by
          rw [UInt8.toNat_add, Nat.mod_eq_of_lt (by omega)]
        -- The index only wraps where nothing remains to be read.
        have hnextIndex : (indexToRead + count).toNat = indexToRead.toNat + count.toNat ∨
            (remaining - count).toNat = 0 ∧ (indexToRead + count).toNat = 0 := by
          rw [UInt8.toNat_add]
          omega
        have hmid : (results.take indexWriting.toNat ++ (List.range count.toNat).map
            (fun i => resultAt f table (indexToRead.toNat + i))).length =
              indexWriting.toNat + count.toNat := by
          simp only [List.length_append, List.length_take, List.length_map, List.length_range]
          omega
        have hrec := ih (remaining - count).toNat (by omega) hrest hserves.right_of_append
          (by omega) (by omega)
          (by rw [hnextWriting, List.length_append, hmid, List.length_drop]; omega) rfl
        obtain ⟨left, hleft⟩ := Nat.exists_eq_add_of_le
          (show count.toNat ≤ remaining.toNat by omega)
        have hlater : (List.range left).map
            (fun i => resultAt f table ((indexToRead + count).toNat + i)) =
              (List.range left).map
                (fun i => resultAt f table (indexToRead.toNat + (count.toNat + i))) := by
          apply List.map_congr_left
          intro i hi
          have hi' := List.mem_range.mp hi
          obtain hnext | ⟨hnone, -⟩ := hnextIndex
          · rw [hnext, Nat.add_assoc]
          · omega
        rw [hsub, hleft, Nat.add_sub_cancel_left] at hrec
        rw [hrec, hnextWriting, List.take_left' hmid, hlater, ← List.drop_drop,
          List.drop_left' hmid, List.drop_drop, ← hn, hleft, List.range_add, List.map_append,
          List.map_map, Nat.add_assoc]
        simp only [List.append_assoc, Function.comp_def]
    · have hzero : remaining.toNat = 0 := Nat.eq_zero_of_not_pos hpos
      rw [dif_neg hpos] at hrun
      obtain ⟨rfl, hresult⟩ := hrun
      cases hresult
      rw [← hn, hzero]
      simp

/-- Results that were read with `LR11XX_STATUS_OK` are those of the chip's table, in their order,
however they came in chunks; the rest of the caller's results stay. -/
theorem readResults_served {startResultIndex nbResults : UInt8}
    {results results' : List (WifiResult f)}
    (hrun : Runs (readResults ctx f startResultIndex nbResults results) events
      (true, results', ctx'))
    (hserves : (transfers events).IsChain (ServesResults f table))
    (hindex : startResultIndex.toNat + nbResults.toNat ≤ 256)
    (hroom : nbResults.toNat ≤ results.length) :
    results' = (List.range nbResults.toNat).map
        (fun i => resultAt f table (startResultIndex.toNat + i)) ++
      results.drop nbResults.toNat := by
  have hlt := nbResults.toNat_lt
  have hloop := fetchLoop_served hrun hserves hindex (by simpa using hlt) (by simpa using hroom)
  simpa using hloop

/-- A chip that serves its table is read to the end. -/
theorem exists_runs_fetchLoop (table : Bytes) (hawake : ctx.sleeping = false)
    (indexToRead indexWriting remaining : UInt8) (results : List (WifiResult f)) :
    ∃ events results' ctx', Runs (fetchLoop ctx f indexToRead indexWriting remaining results) events
        (true, results', ctx') ∧ (transfers events).IsChain (ServesResults f table) := by
  induction hn : remaining.toNat using Nat.strong_induction_on
    generalizing ctx indexToRead indexWriting remaining results with
  | _ n ih =>
    rw [fetchLoop]
    by_cases hpos : 0 < remaining
    · rw [dif_pos hpos]
      have hposNat : 0 < remaining.toNat := hpos
      have hmax := maxPerTransaction_pos f
      generalize hchunk :
        (if f.maxPerTransaction < remaining then f.maxPerTransaction else remaining) = chunk
      have hchunk' : 0 < chunk.toNat ∧ chunk.toNat ≤ remaining.toNat := by
        rw [← hchunk]
        split
        · next hlt => exact ⟨hmax, Nat.le_of_lt hlt⟩
        · exact ⟨hposNat, le_refl _⟩
      let reply : HalReply := ⟨true, fun k =>
        if k = 0 then 0x04 else table (f.size * indexToRead.toNat + (k - 1))⟩
      have hsize : 0 < f.size := by cases f <;> decide
      have hcode : ((0x03 : UInt8).toUInt16 <<< 8) ||| (0x06 : UInt8).toUInt16 ≠ 0x11b := by decide
      obtain ⟨events₁, ctx₁, hread, hts, hawake₁⟩ := @exists_runs_halRead ctx
        (readResultCommand f indexToRead chunk) (chunk.toNat * f.size) reply hawake
        (List.cons_ne_nil _ _) hcode
        (Nat.mul_pos hchunk'.1 hsize) rfl (show statusOk 0x04 = true by decide)
      have hleft : (remaining - chunk).toNat = remaining.toNat - chunk.toNat :=
        UInt8.toNat_sub_of_le _ _ hchunk'.2
      obtain ⟨events₂, results', ctx', hrest, hserves⟩ := ih (remaining - chunk).toNat (by omega)
        hawake₁ (indexToRead + chunk) (indexWriting + chunk) (remaining - chunk)
        (interpret f chunk indexWriting
          ((List.range (chunk.toNat * f.size)).map fun i => reply.received (i + 1)) results) rfl
      refine ⟨events₁ ++ events₂, results', ctx', ?_, ?_⟩
      · rw [runs_bind]
        refine ⟨events₁, _, events₂, hread, ?_, rfl⟩
        rwa [Bool.not_true, if_neg Bool.false_ne_true]
      · rw [transfers_append, hts, List.isChain_append]
        refine ⟨List.isChain_cons_cons.mpr ⟨?_, List.isChain_singleton _⟩, hserves, ?_⟩
        · intro start n hcommand k _
          simp only [readResultCommand, List.cons.injEq, true_and, and_true] at hcommand
          obtain ⟨rfl, rfl⟩ := hcommand
          rfl
        · -- the zeros of the answer are no command
          intro t ht t' _ start n hcommand
          cases Option.some.inj ht
          cases hcommand
    · rw [dif_neg hpos]
      exact ⟨[], results, ctx, ⟨rfl, rfl⟩, List.isChain_nil⟩

/-- A caller's result that is all zero. -/
def zeroResult : WifiResult .basicMacTypeChannel := (⟨0, 0, 0, []⟩ : BasicMacTypeChannel)

/-- Results 3 to 35 of a table that counts up, which come in two chunks, into 34 of the caller's. -/
theorem readResults_served_twoChunks :
    ∃ events ctx', Runs (readResults freshCtx .basicMacTypeChannel 3 33
        (List.replicate 34 zeroResult)) events
      (true, (List.range 33).map (fun i => resultAt .basicMacTypeChannel UInt8.ofNat (3 + i)) ++
          [zeroResult], ctx') := by
  obtain ⟨events, results', ctx', hrun, hserves⟩ := @exists_runs_fetchLoop .basicMacTypeChannel
    freshCtx UInt8.ofNat rfl 3 0 33 (List.replicate 34 zeroResult)
  have hresults := readResults_served hrun hserves (by decide) (by decide)
  subst hresults
  exact ⟨events, ctx', hrun⟩

/-- The answer of a chunk is received in the internal buffer, which nothing checks. A successful
read overruns it exactly where its first chunk has so many bytes. -/
theorem fetchLoop_overruns {indexToRead indexWriting remaining : UInt8}
    {results results' : List (WifiResult f)}
    (hrun : Runs (fetchLoop ctx f indexToRead indexWriting remaining results) events
      (true, results', ctx')) :
    (∃ t ∈ transfers events, Overruns t) ↔
      radioLr11xxSpiBufferSize ≤ min f.maxPerTransaction.toNat remaining.toNat * f.size := by
  induction hn : remaining.toNat using Nat.strong_induction_on
    generalizing ctx indexToRead indexWriting remaining results events with
  | _ n ih =>
    rw [fetchLoop] at hrun
    by_cases hpos : 0 < remaining
    · rw [dif_pos hpos] at hrun
      have hrem : 0 < remaining.toNat := hpos
      have hcount := toNat_resultsToRead (f := f) remaining
      have hmax := maxPerTransaction_pos f
      generalize (if f.maxPerTransaction < remaining then f.maxPerTransaction else remaining) =
        count at hrun hcount
      dsimp only at hrun
      rw [runs_bind] at hrun
      obtain ⟨events₁, out, events₂, hread, hrest, rfl⟩ := hrun
      cases hok : out.ok with
      | false =>
        rw [hok, Bool.not_false, if_pos rfl] at hrest
        cases hrest.2
      | true =>
        rw [hok, Bool.not_true, if_neg Bool.false_ne_true] at hrest
        obtain ⟨hfail, -⟩ | ⟨first, second, hts, -, -, -⟩ := runs_halRead hread
        · rw [hok] at hfail
          cases hfail
        have hsub : (remaining - count).toNat = remaining.toNat - count.toNat :=
          UInt8.toNat_sub_of_le _ _ (show count.toNat ≤ remaining.toNat by omega)
        have hrec := ih (remaining - count).toNat (by omega) hrest rfl
        -- No chunk is larger than the first one.
        have hlater : min f.maxPerTransaction.toNat (remaining - count).toNat * f.size ≤
            count.toNat * f.size := Nat.mul_le_mul_right _ (by omega)
        have hfirst : (∃ t ∈ transfers events₁, Overruns t) ↔
            radioLr11xxSpiBufferSize ≤ count.toNat * f.size := by
          rw [hts]
          simp only [List.mem_cons, List.not_mem_nil, or_false, exists_eq_or_imp, exists_eq_left,
            Overruns, answerZeros, List.length_replicate, readResultCommand, List.length_cons,
            List.length_nil, radioLr11xxSpiBufferSize]
          omega
        rw [transfers_append]
        simp only [List.mem_append, or_and_right, exists_or]
        rw [hfirst, hrec, ← hn, ← hcount]
        omega
    · have hzero : remaining.toNat = 0 := Nat.eq_zero_of_not_pos hpos
      rw [dif_neg hpos] at hrun
      obtain ⟨rfl, -⟩ := hrun
      rw [← hn, hzero, Nat.min_zero, Nat.zero_mul]
      simp [radioLr11xxSpiBufferSize]

/-- How many results of each format overrun the internal buffer. -/
theorem readResults_overruns {startResultIndex nbResults : UInt8}
    {results results' : List (WifiResult f)}
    (hrun : Runs (readResults ctx f startResultIndex nbResults results) events
      (true, results', ctx')) :
    (∃ t ∈ transfers events, Overruns t) ↔
      match f with
      | .basicComplete => 12 ≤ nbResults.toNat
      | .basicMacTypeChannel => 29 ≤ nbResults.toNat
      | .extendedFull => 4 ≤ nbResults.toNat := by
  rw [fetchLoop_overruns hrun]
  cases f with
  | basicComplete =>
    have hmax : ResultFormat.basicComplete.maxPerTransaction.toNat = 32 := by decide
    simp only [hmax, ResultFormat.size, radioLr11xxSpiBufferSize]
    omega
  | basicMacTypeChannel =>
    have hmax : ResultFormat.basicMacTypeChannel.maxPerTransaction.toNat = 32 := by decide
    simp only [hmax, ResultFormat.size, radioLr11xxSpiBufferSize]
    omega
  | extendedFull =>
    have hmax : ResultFormat.extendedFull.maxPerTransaction.toNat = 12 := by decide
    simp only [hmax, ResultFormat.size, radioLr11xxSpiBufferSize]
    omega

theorem readResults_overruns_twoChunks :
    ∃ events, ((∃ t ∈ transfers events, Overruns t) ↔ 29 ≤ (33 : UInt8).toNat) := by
  obtain ⟨events, results', ctx', hrun, -⟩ := @exists_runs_fetchLoop .basicMacTypeChannel
    freshCtx UInt8.ofNat rfl 3 0 33 (List.replicate 34 zeroResult)
  exact ⟨events, readResults_overruns hrun⟩

end

/-! ## Country codes -/

/-- `lr11xx_wifi_country_code_t`. -/
structure CountryCode where
  countryCode : List UInt8
  ioRegulation : UInt8
  channelInfoByte : UInt8
  macAddress : List UInt8
  deriving DecidableEq

/-- The address comes with its last byte first. -/
def countryCodeOfBytes (b : Bytes) : CountryCode where
  countryCode := [b 0, b 1]
  ioRegulation := b 2
  channelInfoByte := b 3
  macAddress := (List.range 6).map fun i => b (6 - i - 1 + 4)

def readCountryCodeCommand (startResultIndex nbCountryResults : UInt8) : List UInt8 :=
  [0x03, 0x0A, startResultIndex, nbCountryResults]

/-- `local_index`, which has eight bits. -/
def countryLocalIndex (resultIndex : Nat) : UInt8 := UInt8.ofNat resultIndex * 10

/-- The loop of `lr11xx_wifi_read_country_code_results`. -/
def interpretCountryCodes (nbCountryResults : UInt8) (rbuffer : List UInt8)
    (results : List CountryCode) : List CountryCode :=
  (List.range nbCountryResults.toNat).foldl
    (fun results i => results.set (0 + i)
      (countryCodeOfBytes fun k => rbuffer.getD ((countryLocalIndex i).toNat + k) 0))
    results

/-- `lr11xx_wifi_read_country_code_results`. -/
def readCountryCodeResults (ctx : DrvCtx) (startResultIndex nbCountryResults : UInt8)
    (countryCodeResults : List CountryCode) : HalProgram (Bool × List CountryCode × DrvCtx) := do
  let out ← halRead ctx (readCountryCodeCommand startResultIndex nbCountryResults)
    (nbCountryResults.toNat * 10)
  if !out.ok then pure (false, countryCodeResults, out.ctx)
  else pure (true, interpretCountryCodes nbCountryResults out.data countryCodeResults, out.ctx)

section

variable {ctx ctx' : DrvCtx} {events : HalEvents} {table : Bytes}
  {startResultIndex nbCountryResults : UInt8} {results results' : List CountryCode}

/-- The chip answers the command for some country codes with their bytes of the table. -/
def ServesCountryCodes (table : Bytes) (t t' : Transfer) : Prop :=
  ∀ start n, t.1 = readCountryCodeCommand start n →
    ∀ k < n.toNat * 10, t'.2.received (k + 1) = table (10 * start.toNat + k)

/-- The country code at some bytes of the table. -/
def countryCodeAt (table : Bytes) (start : Nat) : CountryCode :=
  countryCodeOfBytes fun k => table (start + k)

theorem countryCodeOfBytes_congr {g h : Bytes} (heq : ∀ k < 10, g k = h k) :
    countryCodeOfBytes g = countryCodeOfBytes h := by
  simp only [countryCodeOfBytes, List.range_succ_eq_map, List.range_zero, List.map_cons,
    List.map_nil]
  rw [heq 0 (by omega), heq 1 (by omega), heq 2 (by omega), heq 3 (by omega)]
  simp only [CountryCode.mk.injEq, List.cons.injEq, true_and, and_true]
  refine ⟨?_, ?_, ?_, ?_, ?_, ?_⟩ <;> apply heq <;> omega

theorem toNat_countryLocalIndex (i : Nat) : (countryLocalIndex i).toNat = 10 * i % 256 := by
  rw [countryLocalIndex, UInt8.toNat_mul, UInt8.toNat_ofNat']
  simp only [show (10 : UInt8).toNat = 10 from rfl]
  omega

/-- What is read for a country code: the bytes at ten times its index, modulo 256. -/
theorem readCountryCodeResults_served (hnb : nbCountryResults.toNat ≤ 32)
    (hrun : Runs (readCountryCodeResults ctx startResultIndex nbCountryResults results) events
      (true, results', ctx'))
    (hserves : (transfers events).IsChain (ServesCountryCodes table))
    (hroom : nbCountryResults.toNat ≤ results.length) {i : Nat} (hi : i < nbCountryResults.toNat) :
    results'[i]? = some (countryCodeAt table (10 * startResultIndex.toNat + 10 * i % 256)) := by
  rw [readCountryCodeResults, runs_bind] at hrun
  obtain ⟨events₁, out, events₂, hread, hrest, rfl⟩ := hrun
  cases hok : out.ok with
  | false =>
    rw [hok, Bool.not_false, if_pos rfl] at hrest
    cases hrest.2
  | true =>
    rw [hok, Bool.not_true, if_neg Bool.false_ne_true] at hrest
    obtain ⟨rfl, hresult⟩ := hrest
    obtain ⟨hfail, -⟩ | ⟨first, second, hts, -, hdata, -⟩ := runs_halRead hread
    · rw [hok] at hfail
      cases hfail
    rw [List.append_nil, hts] at hserves
    have hserves := (List.isChain_cons_cons.mp hserves).1
    rw [interpretCountryCodes, foldl_set _ (by omega)] at hresult
    cases hresult
    rw [List.take_zero, List.nil_append, List.getElem?_append_left (by simpa using hi),
      List.getElem?_map, List.getElem?_range hi, Option.map_some, Option.some_inj]
    apply countryCodeOfBytes_congr
    intro k hk
    -- The eight bits keep the index inside what was read.
    have hin : 10 * i % 256 + k < nbCountryResults.toNat * 10 := by omega
    rw [toNat_countryLocalIndex, hdata, List.getD_eq_getElem?_getD, List.getElem?_map,
      List.getElem?_range hin, Option.map_some, Option.getD_some, hserves _ _ rfl _ hin,
      Nat.add_assoc]

/-- The country codes that are read are those of the chip's table. -/
def CountryCodesRight (startResultIndex nbCountryResults : UInt8) : Prop :=
  ∀ (table : Bytes) (ctx ctx' : DrvCtx) (events : HalEvents) (results results' : List CountryCode),
    Runs (readCountryCodeResults ctx startResultIndex nbCountryResults results) events
      (true, results', ctx') →
    (transfers events).IsChain (ServesCountryCodes table) →
    nbCountryResults.toNat ≤ results.length →
    ∀ i < nbCountryResults.toNat,
      results'[i]? = some (countryCodeAt table (10 * startResultIndex.toNat + 10 * i))

/-- A table whose 27th country code begins with a one, and has zeros elsewhere. -/
def wrappedTable (startResultIndex : UInt8) : Bytes :=
  fun a => if a = 10 * startResultIndex.toNat + 260 then 1 else 0

/-- A run on that table. -/
theorem exists_wrapped_run (hpos : 0 < nbCountryResults.toNat) :
    ∃ events results' ctx',
      Runs (readCountryCodeResults freshCtx startResultIndex nbCountryResults
        (List.replicate 32 ⟨[], 0, 0, []⟩)) events (true, results', ctx') ∧
      (transfers events).IsChain (ServesCountryCodes (wrappedTable startResultIndex)) := by
  let reply : HalReply := ⟨true, fun k =>
    if k = 0 then 0x04 else wrappedTable startResultIndex (10 * startResultIndex.toNat + (k - 1))⟩
  have hstatus : statusOk (reply.received 0) = true := by
    change statusOk 0x04 = true
    decide
  have hcode : ((0x03 : UInt8).toUInt16 <<< 8) ||| (0x0A : UInt8).toUInt16 ≠ 0x11b := by decide
  obtain ⟨events, ctx', hread, hts, -⟩ := @exists_runs_halRead freshCtx
    (readCountryCodeCommand startResultIndex nbCountryResults) (nbCountryResults.toNat * 10) reply
    rfl (List.cons_ne_nil _ _) hcode (by omega) rfl hstatus
  refine ⟨events, interpretCountryCodes nbCountryResults
    ((List.range (nbCountryResults.toNat * 10)).map fun i => reply.received (i + 1))
    (List.replicate 32 ⟨[], 0, 0, []⟩), ctx', ?_, ?_⟩
  · rw [readCountryCodeResults, runs_bind]
    exact ⟨events, _, [], hread, ⟨rfl, rfl⟩, (List.append_nil events).symm⟩
  · rw [hts]
    refine List.isChain_cons_cons.mpr ⟨?_, List.isChain_singleton _⟩
    intro start n hcommand k _
    simp only [readCountryCodeCommand, List.cons.injEq, true_and, and_true] at hcommand
    obtain ⟨rfl, rfl⟩ := hcommand
    rfl

/-- Up to 26 country codes are read right, and more are not. -/
theorem countryCodesRight_iff (hnb : nbCountryResults.toNat ≤ 32) :
    CountryCodesRight startResultIndex nbCountryResults ↔ nbCountryResults.toNat ≤ 26 := by
  constructor
  · intro h
    by_contra hmany
    have hpos : 0 < nbCountryResults.toNat := by omega
    obtain ⟨events, results', ctx', hrun, hserves⟩ := @exists_wrapped_run startResultIndex _ hpos
    have hroom : nbCountryResults.toNat ≤
        (List.replicate 32 (⟨[], 0, 0, []⟩ : CountryCode)).length := by simpa using hnb
    have hright := h _ _ _ _ _ _ hrun hserves hroom 26 (by omega)
    have hlast : 26 < nbCountryResults.toNat := by omega
    rw [readCountryCodeResults_served hnb hrun hserves hroom hlast, Option.some_inj] at hright
    have hcode := congrArg (fun c => c.countryCode.head?) hright
    simp [countryCodeAt, countryCodeOfBytes, wrappedTable] at hcode
  · intro hfew table ctx ctx' events results results' hrun hserves hroom i hi
    rw [readCountryCodeResults_served hnb hrun hserves hroom hi, Nat.mod_eq_of_lt (by omega)]

theorem countryCodesRight_27 : CountryCodesRight 0 27 ↔ 27 ≤ 26 :=
  countryCodesRight_iff (by decide)

end

end Sidewalk.Lr11xx
