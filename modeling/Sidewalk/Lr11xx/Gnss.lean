import Sidewalk.Lib.Chunks
import Sidewalk.Lib.Memory
import Sidewalk.Lr11xx.Wifi

/-!
# Satellites and almanacs

`lr11xx_gnss.c`, and what it uses of `lr11xx_regmem.c`. The memory of the chip has the low byte of
a word first, and the bus has the high one. The almanac is read in words as a whole, and in bytes
for the date of one satellite; an update of it is written in pieces. Lists of satellites go through
a buffer on the stack.
-/

namespace Sidewalk.Lr11xx

open Lib
open Lib.Program (make Runs runs_bind)

/-! ## The memory of the chip -/

/-- Four bytes as a word, the highest first. -/
def beUint32 (b₀ b₁ b₂ b₃ : UInt8) : UInt32 :=
  (b₀.toUInt32 <<< 24) + (b₁.toUInt32 <<< 16) + (b₂.toUInt32 <<< 8) + b₃.toUInt32

/-- A word as four bytes, the lowest first. -/
def leBytes (word : UInt32) : List UInt8 :=
  [word.toUInt8, (word >>> 8).toUInt8, (word >>> 16).toUInt8, (word >>> 24).toUInt8]

def regmemMaxWriteReadWords : UInt8 := 64

/-- `LR11XX_REGMEM_READ_REGMEM32_OC`, with an address and a length. -/
def readRegmem32Command (address : UInt32) (length : UInt8) : List UInt8 :=
  [0x01, 0x06] ++ beBytes address ++ [length]

/-- `LR11XX_REGMEM_READ_MEM8_OC`, with an address and a length. -/
def readMem8Command (address : UInt32) (length : UInt8) : List UInt8 :=
  [0x01, 0x08] ++ beBytes address ++ [length]

/-- `lr11xx_regmem_fill_out_buffer_from_raw_buffer`. -/
def wordsOfBytes (length : UInt8) (raw : List UInt8) : List UInt32 :=
  (List.range length.toNat).map fun i =>
    beUint32 (raw.getD (i * 4) 0) (raw.getD (i * 4 + 1) 0) (raw.getD (i * 4 + 2) 0)
      (raw.getD (i * 4 + 3) 0)

/-- `lr11xx_regmem_read_regmem32`, with the words where it succeeds. -/
def readRegmem32 (ctx : DrvCtx) (address : UInt32) (length : UInt8) :
    HalProgram (Bool × List UInt32 × DrvCtx) :=
  if regmemMaxWriteReadWords < length then pure (false, [], ctx)
  else do
    let out ← halRead ctx (readRegmem32Command address length) (length.toNat * 4)
    if !out.ok then pure (false, [], out.ctx)
    else pure (true, wordsOfBytes length out.data, out.ctx)

/-- `lr11xx_regmem_read_mem8`. -/
def readMem8 (ctx : DrvCtx) (address : UInt32) (length : UInt8) : HalProgram Outcome :=
  halRead ctx (readMem8Command address length) length.toNat

/-! ## Almanacs -/

/-- `LR11XX_GNSS_ALMANAC_READ_OC`. -/
def almanacReadCommand : List UInt8 := [0x04, 0x0F]

/-- Where the almanac is. -/
structure AlmanacPlace where
  address : UInt32
  size : UInt16

/-- `lr11xx_gnss_get_almanac_address_size`, with the place where it succeeds. -/
def getAlmanacAddressSize (ctx : DrvCtx) : HalProgram (Bool × AlmanacPlace × DrvCtx) := do
  let out ← halRead ctx almanacReadCommand 6
  if !out.ok then pure (false, ⟨0, 0⟩, out.ctx)
  else pure (true, ⟨beUint32 (out.data.getD 0 0) (out.data.getD 1 0) (out.data.getD 2 0)
    (out.data.getD 3 0), ((out.data.getD 4 0).toUInt16 <<< 8) ||| (out.data.getD 5 0).toUInt16⟩,
    out.ctx)

/-- `LR11XX_GNSS_READ_ALMANAC_TEMPBUFFER_SIZE_BYTE`, a number of words. -/
def readAlmanacTempbufferSize : UInt8 := 47

/-- `LR11XX_GNSS_FULL_ALMANAC_READ_BUFFER_SIZE`. -/
def fullAlmanacReadBufferSize : Nat := 128 * 22 + 4

/-- The loop of `lr11xx_gnss_read_almanac`, with the rounds to go. -/
def readAlmanacLoop (ctx : DrvCtx) (address : UInt32) (index : Nat) (bytestream : Mem) :
    Nat → HalProgram (Bool × Mem × DrvCtx)
  | 0 => pure (true, bytestream, ctx)
  | left + 1 => do
    let out ← readRegmem32 ctx address readAlmanacTempbufferSize
    if !out.1 then pure (false, bytestream, out.2.2)
    else
      readAlmanacLoop out.2.2 (address + 47 * 4) (index + 1)
        (bytestream.blit (index * 47 * 4) (out.2.1.flatMap leBytes)) left

/-- `lr11xx_gnss_read_almanac`. -/
def readAlmanac (ctx : DrvCtx) (bytestream : Mem) : HalProgram (Bool × Mem × DrvCtx) := do
  let place ← getAlmanacAddressSize ctx
  if !place.1 then pure (false, bytestream, place.2.2)
  else readAlmanacLoop place.2.2 place.2.1.address 0 bytestream 15

/-- `lr11xx_gnss_get_almanac_age_for_satellite`, with the date where it succeeds. -/
def getAlmanacAgeForSatellite (ctx : DrvCtx) (svId : UInt8) :
    HalProgram (Bool × UInt16 × DrvCtx) := do
  let place ← getAlmanacAddressSize ctx
  if !place.1 then pure (false, 0, place.2.2)
  else do
    let out ← readMem8 place.2.2 (place.2.1.address + UInt32.ofNat (svId.toNat * 22 + 1)) 2
    if !out.ok then pure (false, 0, out.ctx)
    else pure (true, ((out.data.getD 1 0).toUInt16 <<< 8) + (out.data.getD 0 0).toUInt16, out.ctx)

/-- `LR11XX_GNSS_ALMANAC_UPDATE_OC`. -/
def almanacUpdateCommand : List UInt8 := [0x04, 0x0E]

/-- `LR11XX_GNSS_ALMANAC_UPDATE_MAX_NB_OF_BLOCKS`. -/
def almanacUpdateMaxNbOfBlocks : UInt16 := (512 - 2) / 20

/-- `lr11xx_gnss_get_min_from_operand_and_max_nb_of_blocks`. -/
def getMinFromOperandAndMaxNbOfBlocks (operand : UInt16) : UInt16 :=
  if operand > almanacUpdateMaxNbOfBlocks then almanacUpdateMaxNbOfBlocks else operand

theorem toNat_getMinOfBlocks (operand : UInt16) :
    (getMinFromOperandAndMaxNbOfBlocks operand).toNat = min operand.toNat 25 := by
  have hmax : almanacUpdateMaxNbOfBlocks.toNat = 25 := rfl
  unfold getMinFromOperandAndMaxNbOfBlocks
  split
  · next h =>
    have : almanacUpdateMaxNbOfBlocks.toNat < operand.toNat := h
    omega
  · next h =>
    have : ¬almanacUpdateMaxNbOfBlocks.toNat < operand.toNat := h
    omega

/-- The loop of `lr11xx_gnss_almanac_update`. -/
def almanacUpdateLoop (ctx : DrvCtx) (blocks : List UInt8) (nbOfBlocks : UInt8)
    (remaining : UInt16) : HalProgram Outcome :=
  if _ : 0 < remaining then do
    let out ← halWrite ctx almanacUpdateCommand
      ((blocks.drop ((nbOfBlocks.toNat - remaining.toNat) * 20)).take
        ((getMinFromOperandAndMaxNbOfBlocks remaining).toNat * 20))
    if !out.ok then pure out
    else
      almanacUpdateLoop out.ctx blocks nbOfBlocks
        (remaining - getMinFromOperandAndMaxNbOfBlocks remaining)
  else pure ⟨true, [], ctx⟩
  termination_by remaining.toNat
  decreasing_by
    have hpos : 0 < remaining.toNat := ‹0 < remaining›
    have hmin := toNat_getMinOfBlocks remaining
    have hle : (getMinFromOperandAndMaxNbOfBlocks remaining).toNat ≤ remaining.toNat := by omega
    rw [UInt16.toNat_sub_of_le _ _ hle]
    omega

/-- `lr11xx_gnss_almanac_update`. -/
def almanacUpdate (ctx : DrvCtx) (blocks : List UInt8) (nbOfBlocks : UInt8) : HalProgram Outcome :=
  almanacUpdateLoop ctx blocks nbOfBlocks nbOfBlocks.toUInt16

/-! ## Reads of the memory -/

/-- The chip answers the reads of its memory, and says where the almanac is. -/
structure ServesMemory (memory : UInt32 → UInt8) (almanac : UInt32) (t t' : Transfer) : Prop where
  regmem32 : ∀ address length, t.1 = readRegmem32Command address length → ∀ i < length.toNat,
    ∀ k < 4, t'.2.received (i * 4 + k + 1) = memory (address + UInt32.ofNat (i * 4 + (3 - k)))
  mem8 : ∀ address length, t.1 = readMem8Command address length → ∀ i < length.toNat,
    t'.2.received (i + 1) = memory (address + UInt32.ofNat i)
  place : t.1 = almanacReadCommand → ∀ k < 4, t'.2.received (k + 1) = (beBytes almanac).getD k 0

section

variable {memory : UInt32 → UInt8} {almanac address : UInt32} {length : UInt8}
  {ctx ctx' : DrvCtx} {events : HalEvents}

/-- The bytes of a word come out in the other order. -/
theorem leBytes_beUint32 (b₀ b₁ b₂ b₃ : UInt8) :
    leBytes (beUint32 b₀ b₁ b₂ b₃) = [b₃, b₂, b₁, b₀] := by
  have h₀ := b₀.toNat_lt
  have h₁ := b₁.toNat_lt
  have h₂ := b₂.toNat_lt
  have h₃ := b₃.toNat_lt
  have hword : (beUint32 b₀ b₁ b₂ b₃).toNat =
      b₀.toNat * 2 ^ 24 + b₁.toNat * 2 ^ 16 + b₂.toNat * 2 ^ 8 + b₃.toNat := by
    simp only [beUint32, UInt32.toNat_add, UInt32.toNat_shiftLeft, UInt8.toNat_toUInt32,
      Nat.shiftLeft_eq, UInt32.reduceToNat, Nat.reduceMod, Nat.reducePow]
    omega
  simp only [leBytes, List.cons.injEq, and_true]
  refine ⟨?_, ?_, ?_, ?_⟩ <;> apply UInt8.toNat_inj.mp <;>
    simp only [UInt32.toNat_toUInt8, UInt32.toNat_shiftRight, hword, Nat.shiftRight_eq_div_pow,
      UInt32.reduceToNat, Nat.reduceMod, Nat.reducePow] <;> omega

theorem beUint32_beBytes (word : UInt32) :
    beUint32 ((beBytes word).getD 0 0) ((beBytes word).getD 1 0) ((beBytes word).getD 2 0)
      ((beBytes word).getD 3 0) = word := by
  have hlt := word.toNat_lt
  apply UInt32.toNat_inj.mp
  simp only [beBytes, List.getD_cons_zero, List.getD_cons_succ, beUint32, UInt32.toNat_add,
    UInt32.toNat_shiftLeft, UInt8.toNat_toUInt32, UInt32.toNat_toUInt8, UInt32.toNat_shiftRight,
    Nat.shiftLeft_eq, Nat.shiftRight_eq_div_pow, UInt32.reduceToNat, Nat.reduceMod, Nat.reducePow]
  omega

/-- Bytes by their address, from those of the words. -/
theorem map_range_words (f : Nat → UInt8) (n : Nat) :
    (List.range (n * 4)).map f =
      (List.range n).flatMap fun i => [f (i * 4), f (i * 4 + 1), f (i * 4 + 2), f (i * 4 + 3)] := by
  induction n with
  | zero => rfl
  | succ n ih =>
    rw [Nat.succ_mul, List.range_add, List.map_append, ih, @List.range_succ n, List.flatMap_append,
      List.flatMap_singleton, List.map_map]
    rfl

/-- The words that are read are, low byte first, the memory from the address on. -/
theorem runs_readRegmem32 {words : List UInt32}
    (h : Runs (readRegmem32 ctx address length) events (true, words, ctx'))
    (hserves : (transfers events).IsChain (ServesMemory memory almanac)) :
    words.flatMap leBytes =
      (List.range (length.toNat * 4)).map fun i => memory (address + UInt32.ofNat i) := by
  unfold readRegmem32 at h
  split at h
  · cases h.2
  · rw [runs_bind] at h
    obtain ⟨events₁, out, events₂, hread, h, rfl⟩ := h
    cases hok : out.ok with
    | false =>
      rw [hok, Bool.not_false, if_pos rfl] at h
      cases h.2
    | true =>
      rw [hok, Bool.not_true, if_neg Bool.false_ne_true] at h
      obtain ⟨rfl, hwords⟩ := h
      obtain ⟨hfail, -⟩ | ⟨first, second, hts, -, hdata, -⟩ := runs_halRead hread
      · rw [hok] at hfail
        cases hfail
      rw [List.append_nil, hts] at hserves
      have hbytes := (List.isChain_cons_cons.mp hserves).1.regmem32 address length rfl
      cases hwords
      rw [map_range_words fun i => memory (address + UInt32.ofNat i), hdata, wordsOfBytes,
        List.flatMap_map]
      apply List.flatMap_congr
      intro i hi
      have hlt : i < length.toNat := List.mem_range.mp hi
      have hget : ∀ k < 4, ((List.range (length.toNat * 4)).map
          fun j => second.received (j + 1)).getD (i * 4 + k) 0 =
            memory (address + UInt32.ofNat (i * 4 + (3 - k))) := by
        intro k hk
        have hin : i * 4 + k < length.toNat * 4 := by omega
        rw [List.getD_eq_getElem?_getD, List.getElem?_map, List.getElem?_range hin,
          Option.map_some, Option.getD_some, hbytes i hlt k hk]
      have h₀ := hget 0 (by omega)
      rw [Nat.add_zero] at h₀
      rw [leBytes_beUint32, h₀, hget 1 (by omega), hget 2 (by omega), hget 3 (by omega)]
      rfl

/-- The place that the chip gives. -/
theorem runs_getAlmanacAddressSize {place : AlmanacPlace}
    (h : Runs (getAlmanacAddressSize ctx) events (true, place, ctx'))
    (hserves : (transfers events).IsChain (ServesMemory memory almanac)) :
    place.address = almanac := by
  rw [getAlmanacAddressSize, runs_bind] at h
  obtain ⟨events₁, out, events₂, hread, h, rfl⟩ := h
  cases hok : out.ok with
  | false =>
    rw [hok, Bool.not_false, if_pos rfl] at h
    cases h.2
  | true =>
    rw [hok, Bool.not_true, if_neg Bool.false_ne_true] at h
    obtain ⟨rfl, hplace⟩ := h
    obtain ⟨hfail, -⟩ | ⟨first, second, hts, -, hdata, -⟩ := runs_halRead hread
    · rw [hok] at hfail
      cases hfail
    rw [List.append_nil, hts] at hserves
    have hbytes := (List.isChain_cons_cons.mp hserves).1.place rfl
    cases hplace
    have hget : ∀ k < 4, out.data.getD k 0 = (beBytes almanac).getD k 0 := by
      intro k hk
      have hin : k < 6 := by omega
      rw [hdata, List.getD_eq_getElem?_getD, List.getElem?_map, List.getElem?_range hin,
        Option.map_some, Option.getD_some, hbytes k hk]
    rw [hget 0 (by omega), hget 1 (by omega), hget 2 (by omega), hget 3 (by omega),
      beUint32_beBytes]

/-- The bytes of the memory from an address on. -/
def memoryBytes (memory : UInt32 → UInt8) (address : UInt32) (n : Nat) : List UInt8 :=
  (List.range n).map fun i => memory (address + UInt32.ofNat i)

@[simp] theorem length_memoryBytes (n : Nat) : (memoryBytes memory address n).length = n := by
  rw [memoryBytes, List.length_map, List.length_range]

theorem memoryBytes_add (m n : Nat) :
    memoryBytes memory address (m + n) =
      memoryBytes memory address m ++ memoryBytes memory (address + UInt32.ofNat m) n := by
  rw [memoryBytes, List.range_add, List.map_append, List.map_map, memoryBytes, memoryBytes]
  congr 1
  apply List.map_congr_left
  intro i _
  rw [Function.comp_apply, UInt32.ofNat_add, UInt32.add_assoc]

/-- The rounds that are left read the rest of the almanac. -/
theorem runs_readAlmanacLoop {index left : Nat} {bytestream bytestream' : Mem}
    (h : Runs (readAlmanacLoop ctx address index bytestream left) events
      (true, bytestream', ctx'))
    (hserves : (transfers events).IsChain (ServesMemory memory almanac)) :
    bytestream' = bytestream.blit (index * 47 * 4) (memoryBytes memory address (left * 188)) := by
  induction left generalizing ctx address index bytestream events with
  | zero =>
    obtain ⟨rfl, hresult⟩ := h
    cases hresult
    rw [Nat.zero_mul]
    exact (Mem.blit_nil _ _).symm
  | succ left ih =>
    rw [readAlmanacLoop, runs_bind] at h
    obtain ⟨events₁, ⟨ok, words, ctx₁⟩, events₂, hread, h, rfl⟩ := h
    rw [transfers_append] at hserves
    cases ok with
    | false =>
      rw [Bool.not_false, if_pos rfl] at h
      cases h.2
    | true =>
      rw [Bool.not_true, if_neg Bool.false_ne_true] at h
      have hwords : words.flatMap leBytes = memoryBytes memory address 188 :=
        runs_readRegmem32 hread hserves.left_of_append
      have hnext : (index + 1) * 47 * 4 = index * 47 * 4 + 188 := by ring
      rw [ih h hserves.right_of_append, hwords, hnext, Nat.succ_mul, Nat.add_comm (left * 188),
        memoryBytes_add, Mem.blit_append, length_memoryBytes]
      rfl

/-- An almanac that is read is the memory of the chip from its place on, whichever way the bytes of
a word travel. -/
theorem readAlmanac_memory {bytestream bytestream' : Mem}
    (h : Runs (readAlmanac ctx bytestream) events (true, bytestream', ctx'))
    (hserves : (transfers events).IsChain (ServesMemory memory almanac)) :
    bytestream' =
      bytestream.blit 0 (memoryBytes memory almanac fullAlmanacReadBufferSize) := by
  rw [readAlmanac, runs_bind] at h
  obtain ⟨events₁, ⟨ok, place, ctx₁⟩, events₂, hplace, h, rfl⟩ := h
  rw [transfers_append] at hserves
  cases ok with
  | false =>
    rw [Bool.not_false, if_pos rfl] at h
    cases h.2
  | true =>
    rw [Bool.not_true, if_neg Bool.false_ne_true] at h
    have hloop := runs_readAlmanacLoop h hserves.right_of_append
    rw [runs_getAlmanacAddressSize hplace hserves.left_of_append] at hloop
    exact hloop

/-- The date in a satellite's part of the almanac. -/
def almanacDate (bytestream : Mem) (svId : UInt8) : UInt16 :=
  ((bytestream (svId.toNat * 22 + 2)).toUInt16 <<< 8) +
    (bytestream (svId.toNat * 22 + 1)).toUInt16

/-- The date that is read for a satellite. -/
theorem getAlmanacAge_memory {svId : UInt8} {age : UInt16}
    (h : Runs (getAlmanacAgeForSatellite ctx svId) events (true, age, ctx'))
    (hserves : (transfers events).IsChain (ServesMemory memory almanac)) :
    age = almanacDate (fun a => memory (almanac + UInt32.ofNat a)) svId := by
  rw [getAlmanacAgeForSatellite, runs_bind] at h
  obtain ⟨events₁, ⟨ok, place, ctx₁⟩, events₂, hplace, h, rfl⟩ := h
  rw [transfers_append] at hserves
  cases ok with
  | false =>
    rw [Bool.not_false, if_pos rfl] at h
    cases h.2
  | true =>
    rw [Bool.not_true, if_neg Bool.false_ne_true, runs_bind] at h
    obtain ⟨events₃, out, events₄, hread, h, rfl⟩ := h
    cases hok : out.ok with
    | false =>
      rw [hok, Bool.not_false, if_pos rfl] at h
      cases h.2
    | true =>
      rw [hok, Bool.not_true, if_neg Bool.false_ne_true] at h
      obtain ⟨rfl, hage⟩ := h
      obtain ⟨hfail, -⟩ | ⟨first, second, hts, -, hdata, -⟩ := runs_halRead hread
      · rw [hok] at hfail
        cases hfail
      have haddress := runs_getAlmanacAddressSize hplace hserves.left_of_append
      have hright := hserves.right_of_append
      rw [List.append_nil, hts] at hright
      have hbytes := (List.isChain_cons_cons.mp hright).1.mem8 _ _ rfl
      cases hage
      rw [hdata]
      change ((second.received 2).toUInt16 <<< 8) + (second.received 1).toUInt16 = _
      rw [hbytes 1 (by decide), hbytes 0 (by decide), haddress, almanacDate, UInt32.add_assoc,
        UInt32.add_assoc, ← UInt32.ofNat_add, ← UInt32.ofNat_add]

/-- The date of a satellite is the one in the almanac that is read as a whole. -/
theorem almanacAge_agrees {svId : UInt8} {age : UInt16} {ctx₁ ctx₁' : DrvCtx}
    {events₁ : HalEvents} {bytestream bytestream' : Mem} (hsv : svId.toNat < 128)
    (h : Runs (readAlmanac ctx bytestream) events (true, bytestream', ctx'))
    (h₁ : Runs (getAlmanacAgeForSatellite ctx₁ svId) events₁ (true, age, ctx₁'))
    (hserves : (transfers events).IsChain (ServesMemory memory almanac))
    (hserves₁ : (transfers events₁).IsChain (ServesMemory memory almanac)) :
    age = almanacDate bytestream' svId := by
  have hbyte : ∀ a < fullAlmanacReadBufferSize,
      bytestream' a = memory (almanac + UInt32.ofNat a) := by
    intro a ha
    have hin : a < (memoryBytes memory almanac fullAlmanacReadBufferSize).length := by
      rwa [length_memoryBytes]
    have hget := Mem.blit_inside (m := bytestream) (o := 0) hin
    rw [Nat.zero_add] at hget
    rw [readAlmanac_memory h hserves, hget]
    simp only [memoryBytes, List.getElem_map, List.getElem_range]
  rw [getAlmanacAge_memory h₁ hserves₁, almanacDate, almanacDate, hbyte _ (by
    unfold fullAlmanacReadBufferSize; omega), hbyte _ (by unfold fullAlmanacReadBufferSize; omega)]

/-! ## An almanac that counts up -/

/-- The answer of a chip with this memory to the command before. -/
def memoryReply (memory : UInt32 → UInt8) (almanac : UInt32) (command : List UInt8) : HalReply where
  ok := true
  received := fun j =>
    match j with
    | 0 => 0x04
    | j + 1 =>
      match command with
      | [0x01, 0x06, b₀, b₁, b₂, b₃, _] =>
        memory (beUint32 b₀ b₁ b₂ b₃ + UInt32.ofNat (j / 4 * 4 + (3 - j % 4)))
      | [0x01, 0x08, b₀, b₁, b₂, b₃, _] => memory (beUint32 b₀ b₁ b₂ b₃ + UInt32.ofNat j)
      | _ => (beBytes almanac).getD j 0

theorem servesMemory_memoryReply {memory : UInt32 → UInt8} {almanac : UInt32} {t t' : Transfer}
    (h : t'.2 = memoryReply memory almanac t.1) : ServesMemory memory almanac t t' where
  regmem32 := by
    intro address length hcommand i _ k hk
    have hword : (i * 4 + k) / 4 * 4 + (3 - (i * 4 + k) % 4) = i * 4 + (3 - k) := by omega
    rw [h, hcommand, ← hword]
    exact congrArg (fun start => memory (start + _)) (beUint32_beBytes address)
  mem8 := by
    intro address length hcommand i _
    rw [h, hcommand]
    exact congrArg (fun start => memory (start + _)) (beUint32_beBytes address)
  place := by
    intro hcommand k _
    rw [h, hcommand]
    rfl

/-- A chip whose memory counts up, with the almanac behind 4096 bytes. -/
def countingReply : List UInt8 → HalReply := memoryReply UInt32.toUInt8 0x1000

/-- A run with it. -/
def countingRun {α : Type} (p : HalProgram α) : HalEvents × α :=
  p.traceFrom (answering countingReply) []

theorem countingRun_serves {α : Type} (p : HalProgram α) :
    (transfers (countingRun p).1).IsChain (ServesMemory UInt32.toUInt8 0x1000) :=
  (isChain_answering countingReply ([], countingReply []) p).tail.imp
    fun _ _ => servesMemory_memoryReply

def countingAlmanac : HalEvents × Bool × Mem × DrvCtx :=
  countingRun (readAlmanac freshCtx fun _ => 1)

def countingAge : HalEvents × Bool × UInt16 × DrvCtx :=
  countingRun (getAlmanacAgeForSatellite freshCtx 5)

theorem countingAlmanac_runs : Runs (readAlmanac freshCtx fun _ => 1) countingAlmanac.1
    (true, countingAlmanac.2.2) := by
  have hok : countingAlmanac.2 = (true, countingAlmanac.2.2) := by rfl
  rw [← hok]
  exact Program.runs_traceFrom _ _ _

theorem readAlmanac_memory_counting : countingAlmanac.2.2.1 =
    Mem.blit (fun _ => 1) 0 (memoryBytes UInt32.toUInt8 0x1000 fullAlmanacReadBufferSize) :=
  readAlmanac_memory countingAlmanac_runs (countingRun_serves _)

theorem almanacAge_agrees_counting :
    countingAge.2.2.1 = almanacDate countingAlmanac.2.2.1 5 := by
  have hok : countingAge.2 = (true, countingAge.2.2) := by rfl
  have hage : Runs (getAlmanacAgeForSatellite freshCtx 5) countingAge.1
      (true, countingAge.2.2) := by
    rw [← hok]
    exact Program.runs_traceFrom _ _ _
  exact almanacAge_agrees (by decide) countingAlmanac_runs hage (countingRun_serves _)
    (countingRun_serves _)

/-! ## Updates -/

/-- All that an update sends. -/
def almanacUpdateScript (blocks : List UInt8) : List (List UInt8) :=
  (chunks 500 blocks).map fun piece => almanacUpdateCommand ++ piece

/-- What an update does, however it ends. -/
structure AlmanacUpdated (blocks : List UInt8) (nbOfBlocks : UInt8) (ts : List Transfer)
    (ok : Prop) : Prop where
  begins : ts.map Prod.fst <+: almanacUpdateScript (blocks.take (nbOfBlocks.toNat * 20))
  ends : ok → ts.map Prod.fst = almanacUpdateScript (blocks.take (nbOfBlocks.toNat * 20))
  overruns : ts ≠ [] → ((∃ t ∈ ts, Overruns t) ↔ 13 ≤ nbOfBlocks.toNat)

theorem almanacUpdateScript_cons {blocks : List UInt8} (h : blocks ≠ []) :
    almanacUpdateScript blocks =
      [almanacUpdateCommand ++ blocks.take 500] ++ almanacUpdateScript (blocks.drop 500) := by
  rw [almanacUpdateScript, chunks_cons (by decide) h, List.map_cons, List.singleton_append]
  rfl

/-- The loop sends the pieces from where it stands. The induction is on the blocks that remain. -/
theorem almanacUpdateLoop_sends {blocks : List UInt8} {nbOfBlocks : UInt8} {remaining : UInt16}
    {out : Outcome} (hlen : nbOfBlocks.toNat * 20 ≤ blocks.length)
    (hle : remaining.toNat ≤ nbOfBlocks.toNat)
    (h : Runs (almanacUpdateLoop ctx blocks nbOfBlocks remaining) events out) :
    let left := (blocks.take (nbOfBlocks.toNat * 20)).drop
      ((nbOfBlocks.toNat - remaining.toNat) * 20)
    (transfers events).map Prod.fst <+: almanacUpdateScript left ∧
      (out.ok = true → (transfers events).map Prod.fst = almanacUpdateScript left) := by
  induction hn : remaining.toNat using Nat.strong_induction_on
    generalizing ctx remaining events with
  | _ n ih =>
    subst hn
    intro left
    have hleft : left.length = remaining.toNat * 20 := by
      simp only [left, List.length_drop, List.length_take]
      omega
    rw [almanacUpdateLoop] at h
    split at h
    · next hpos =>
      have hrem : 0 < remaining.toNat := hpos
      have hmin := toNat_getMinOfBlocks remaining
      generalize getMinFromOperandAndMaxNbOfBlocks remaining = count at h hmin
      have hne : left ≠ [] := by
        rw [← List.length_pos_iff, hleft]
        omega
      have hpiece : (blocks.drop ((nbOfBlocks.toNat - remaining.toNat) * 20)).take
          (count.toNat * 20) = left.take 500 := by
        simp only [left, List.drop_take, List.take_take]
        rw [List.take_eq_take_iff, List.length_drop]
        omega
      have hnext : (remaining - count).toNat = remaining.toNat - count.toNat :=
        UInt16.toNat_sub_of_le _ _ (show count.toNat ≤ remaining.toNat by omega)
      have hrest : (blocks.take (nbOfBlocks.toNat * 20)).drop
          ((nbOfBlocks.toNat - (remaining - count).toNat) * 20) = left.drop 500 := by
        simp only [left, List.drop_drop]
        by_cases hlast : remaining.toNat ≤ 25
        · rw [List.drop_of_length_le, List.drop_of_length_le] <;>
            (rw [List.length_take]; omega)
        · congr 1
          omega
      rw [runs_bind] at h
      obtain ⟨events₁, out₁, events₂, hwrite, h, rfl⟩ := h
      rw [hpiece] at hwrite
      rw [almanacUpdateScript_cons hne, transfers_append, List.map_append]
      have hsent := runs_halWrite hwrite
      cases hok : out₁.ok with
      | false =>
        rw [hok, Bool.not_false, if_pos rfl] at h
        obtain ⟨rfl, rfl⟩ := h
        refine ⟨?_, fun hfail => by rw [hok] at hfail; cases hfail⟩
        obtain ⟨hnone, -⟩ | ⟨first, hone, -⟩ := hsent
        · simp [hnone]
        · simp [hone]
      | true =>
        rw [hok, Bool.not_true, if_neg Bool.false_ne_true] at h
        obtain ⟨-, hfail⟩ | ⟨first, hone, -⟩ := hsent
        · rw [hok] at hfail
          cases hfail
        have hrec := ih (remaining - count).toNat (by omega) (by omega) h rfl
        rw [hrest] at hrec
        rw [hone]
        exact ⟨(List.prefix_append_right_inj _).mpr hrec.1, fun hok' => by
          rw [hrec.2 hok', List.map_singleton]⟩
    · next hnot =>
      have hzero : remaining.toNat = 0 := Nat.eq_zero_of_not_pos hnot
      obtain ⟨rfl, rfl⟩ := h
      have hdone : left = [] := List.length_eq_zero_iff.mp (by rw [hleft, hzero, Nat.zero_mul])
      rw [hdone, almanacUpdateScript, chunks_nil]
      exact ⟨List.prefix_refl _, fun _ => rfl⟩

/-- An update sends the almanac piece by piece, until one fails. A piece overruns the internal
buffer from 13 blocks on. -/
theorem almanacUpdate_sends {blocks : List UInt8} {nbOfBlocks : UInt8} {out : Outcome}
    (hlen : nbOfBlocks.toNat * 20 ≤ blocks.length)
    (h : Runs (almanacUpdate ctx blocks nbOfBlocks) events out) :
    AlmanacUpdated blocks nbOfBlocks (transfers events) (out.ok = true) := by
  have hnb : nbOfBlocks.toUInt16.toNat = nbOfBlocks.toNat := UInt8.toNat_toUInt16 _
  obtain ⟨hbegins, hends⟩ := almanacUpdateLoop_sends hlen hnb.le h
  rw [hnb, Nat.sub_self, Nat.zero_mul, List.drop_zero] at hbegins hends
  refine ⟨hbegins, hends, fun hne => ⟨?_, fun hlong => ?_⟩⟩
  · rintro ⟨t, ht, hover⟩
    have hsent := hbegins.subset (List.mem_map_of_mem ht)
    obtain ⟨piece, hpiece, heq⟩ := List.mem_map.mp hsent
    have hlong : 254 ≤ piece.length := by
      have hlength := congrArg List.length heq
      simp only [almanacUpdateCommand, List.length_append, List.length_cons,
        List.length_nil] at hlength
      simp only [Overruns, radioLr11xxSpiBufferSize] at hover
      omega
    have hblocks := ((exists_long_chunk (by decide) (by decide)).mp ⟨piece, hpiece, hlong⟩).2
    rw [List.length_take] at hblocks
    omega
  · have hpos : blocks.take (nbOfBlocks.toNat * 20) ≠ [] := by
      rw [← List.length_pos_iff, List.length_take]
      omega
    rw [almanacUpdateScript_cons hpos, List.singleton_append] at hbegins
    cases hts : transfers events with
    | nil => exact absurd hts hne
    | cons t rest =>
      rw [hts, List.map_cons, List.cons_prefix_cons] at hbegins
      refine ⟨t, List.mem_cons_self, ?_⟩
      rw [Overruns, hbegins.1]
      simp only [radioLr11xxSpiBufferSize, almanacUpdateCommand, List.length_append,
        List.length_take, List.length_cons, List.length_nil]
      omega

/-- Thirteen blocks whose bytes count up. -/
def countingBlocks : List UInt8 := (List.range 260).map UInt8.ofNat

def countingUpdate : HalEvents × Outcome :=
  countingRun (almanacUpdate freshCtx countingBlocks 13)

theorem almanacUpdate_sends_thirteen :
    AlmanacUpdated countingBlocks 13 (transfers countingUpdate.1) (countingUpdate.2.ok = true) := by
  have hlen : countingBlocks.length = 260 := by
    rw [countingBlocks, List.length_map, List.length_range]
  exact almanacUpdate_sends (by rw [hlen]; decide) (Program.runs_traceFrom _ _ _)

/-! ## Satellites -/

/-- The two lists of satellites that the chip gives. -/
inductive SatelliteList
  | detected
  | visible
  deriving DecidableEq

/-- `lr11xx_gnss_detected_satellite_t`. -/
structure DetectedSatellite where
  satelliteId : UInt8
  cnr : Int8
  doppler : Int16

/-- `lr11xx_gnss_visible_satellite_t`. -/
structure VisibleSatellite where
  satelliteId : UInt8
  doppler : Int16
  dopplerError : Int16

def Satellite : SatelliteList → Type
  | .detected => DetectedSatellite
  | .visible => VisibleSatellite

namespace SatelliteList

/-- `LR11XX_GNSS_GET_SATELLITES_OC` and `LR11XX_GNSS_GET_SV_VISIBLE_DOPPLER_OC`. -/
def command : SatelliteList → List UInt8
  | detected => [0x04, 0x18]
  | visible => [0x04, 0x20]

/-- The bytes of a satellite. -/
def single : SatelliteList → Nat
  | detected => 4
  | visible => 5

/-- The size of `result_buffer`. -/
def bufferSize : SatelliteList → Nat
  | detected => 32 * 4
  | visible => 12 * 5

/-- How many satellites are fetched; only one of the functions limits them. -/
def fetched (nbSatellites : UInt8) : SatelliteList → UInt8
  | detected => if nbSatellites < 32 then nbSatellites else 32
  | visible => nbSatellites

end SatelliteList

/-- One turn of the loop over the satellites. -/
def satelliteOfBytes : (k : SatelliteList) → Bytes → Satellite k
  | .detected, b => ⟨b 0, (b 1 + 31).toInt8, (uint16FromArray b 2).toInt16⟩
  | .visible, b => ⟨b 0, (uint16FromArray b 1).toInt16, (uint16FromArray b 3).toInt16⟩

/-- What both functions do. It is `none` where the answer is received behind the end of
`result_buffer`. -/
def getSatellites (ctx : DrvCtx) (k : SatelliteList) (nbSatellites : UInt8)
    (satellites : List (Satellite k)) :
    HalProgram (Option (Bool × List (Satellite k) × DrvCtx)) := do
  let out ← halRead ctx k.command ((k.fetched nbSatellites).toNat * k.single)
  if k.bufferSize < out.data.length then pure none
  else if !out.ok then pure (some (false, satellites, out.ctx))
  else
    pure (some (true, (List.range (k.fetched nbSatellites).toNat).foldl
      (fun satellites i => satellites.set (0 + i)
        (satelliteOfBytes k fun j => out.data.getD (k.single * i + j) 0)) satellites, out.ctx))

/-- `lr11xx_gnss_get_detected_satellites`. -/
def getDetectedSatellites (ctx : DrvCtx) (nbDetectedSatellites : UInt8)
    (satellites : List DetectedSatellite) :
    HalProgram (Option (Bool × List DetectedSatellite × DrvCtx)) :=
  getSatellites ctx .detected nbDetectedSatellites satellites

/-- `lr11xx_gnss_get_visible_satellites`. -/
def getVisibleSatellites (ctx : DrvCtx) (nbVisibleSatellites : UInt8)
    (satellites : List VisibleSatellite) :
    HalProgram (Option (Bool × List VisibleSatellite × DrvCtx)) :=
  getSatellites ctx .visible nbVisibleSatellites satellites

/-- The chip answers the command with the satellites of its table. -/
def ServesSatellites (k : SatelliteList) (table : Bytes) (t t' : Transfer) : Prop :=
  t.1 = k.command → ∀ j, t'.2.received (j + 1) = table j

/-- A satellite of the table. -/
def satelliteAt (k : SatelliteList) (table : Bytes) (i : Nat) : Satellite k :=
  satelliteOfBytes k fun j => table (k.single * i + j)

/-- The answer to a read of so many bytes was received. -/
def Answered (n : Nat) (events : HalEvents) : Prop :=
  ∃ t ∈ transfers events, t.1 = answerZeros n ∧ t.2.ok = true

/-- What a read of satellites owes: it stays inside of its buffer unless more than twelve visible
satellites are received, and the satellites are those of the chip. -/
structure SatellitesRead (k : SatelliteList) (nbSatellites : UInt8)
    (satellites : List (Satellite k)) (events : HalEvents)
    (result : Option (Bool × List (Satellite k) × DrvCtx)) : Prop where
  outside : result = none ↔
    k = .visible ∧ 12 < nbSatellites.toNat ∧ Answered (nbSatellites.toNat * 5) events
  served : ∀ table satellites' ctx',
    result = some (true, satellites', ctx') →
    (transfers events).IsChain (ServesSatellites k table) →
    (k.fetched nbSatellites).toNat ≤ satellites.length →
    satellites' = (List.range (k.fetched nbSatellites).toNat).map (satelliteAt k table) ++
      satellites.drop (k.fetched nbSatellites).toNat

theorem satelliteOfBytes_congr {k : SatelliteList} {g h : Bytes}
    (heq : ∀ j < k.single, g j = h j) : satelliteOfBytes k g = satelliteOfBytes k h := by
  cases k with
  | detected =>
    simp only [satelliteOfBytes, uint16FromArray]
    rw [heq 0 (by decide), heq 1 (by decide), heq 2 (by decide), heq (2 + 1) (by decide)]
  | visible =>
    simp only [satelliteOfBytes, uint16FromArray]
    rw [heq 0 (by decide), heq 1 (by decide), heq (1 + 1) (by decide), heq 3 (by decide),
      heq (3 + 1) (by decide)]

/-- What is received does not fit where more than twelve visible satellites are fetched. -/
theorem bufferSize_lt_iff (k : SatelliteList) (nbSatellites : UInt8) :
    k.bufferSize < (k.fetched nbSatellites).toNat * k.single ↔
      k = .visible ∧ 12 < nbSatellites.toNat := by
  cases k with
  | detected =>
    have hle : (SatelliteList.detected.fetched nbSatellites).toNat ≤ 32 := by
      change (if nbSatellites < 32 then nbSatellites else 32).toNat ≤ 32
      split
      · next h => exact (show nbSatellites.toNat < 32 from h).le
      · exact Nat.le_refl 32
    simp only [SatelliteList.bufferSize, SatelliteList.single, reduceCtorEq, false_and, iff_false]
    omega
  | visible =>
    simp only [SatelliteList.bufferSize, SatelliteList.single, SatelliteList.fetched, true_and]
    omega

theorem getSatellites_read {k : SatelliteList} {nbSatellites : UInt8}
    {satellites : List (Satellite k)} {result : Option (Bool × List (Satellite k) × DrvCtx)}
    (h : Runs (getSatellites ctx k nbSatellites satellites) events result) :
    SatellitesRead k nbSatellites satellites events result := by
  have hsize := bufferSize_lt_iff k nbSatellites
  rw [getSatellites, runs_bind] at h
  obtain ⟨events₁, out, events₂, hread, h, rfl⟩ := h
  have hcommand : k.command ≠ answerZeros ((k.fetched nbSatellites).toNat * k.single) := by
    cases k <;> simp [SatelliteList.command, answerZeros, List.replicate_succ]
  obtain hnot | ⟨first, second, hts, hsecond, hdata, -⟩ := runs_halRead hread
  · -- Nothing was received.
    rw [hnot.empty, List.length_nil, if_neg (Nat.not_lt_zero _), hnot.failed, Bool.not_false,
      if_pos rfl] at h
    obtain ⟨rfl, rfl⟩ := h
    rw [List.append_nil]
    constructor
    · refine iff_of_false (by simp) ?_
      rintro ⟨rfl, -, t, ht, hzeros, hok⟩
      rw [hnot.silent hcommand t ht hzeros] at hok
      cases hok
    · intro _ _ _ hresult
      cases hresult
  · have hlen : out.data.length = (k.fetched nbSatellites).toNat * k.single := by
      rw [hdata, List.length_map, List.length_range]
    rw [hlen] at h
    by_cases hlong : k.bufferSize < (k.fetched nbSatellites).toNat * k.single
    · rw [if_pos hlong] at h
      obtain ⟨rfl, rfl⟩ := h
      obtain ⟨rfl, hmany⟩ := hsize.mp hlong
      rw [List.append_nil]
      refine ⟨iff_of_true rfl ⟨rfl, hmany, (_, second), ?_, rfl, hsecond⟩, fun _ _ _ hresult => ?_⟩
      · rw [hts]
        exact .tail _ List.mem_cons_self
      · cases hresult
    · rw [if_neg hlong] at h
      have hinside : ¬(k = .visible ∧ 12 < nbSatellites.toNat) := mt hsize.mpr hlong
      cases hok : out.ok with
      | false =>
        rw [hok, Bool.not_false, if_pos rfl] at h
        obtain ⟨rfl, rfl⟩ := h
        refine ⟨iff_of_false (by simp) fun hout => hinside ⟨hout.1, hout.2.1⟩, ?_⟩
        intro _ _ _ hresult
        cases hresult
      | true =>
        rw [hok, Bool.not_true, if_neg Bool.false_ne_true] at h
        obtain ⟨rfl, rfl⟩ := h
        refine ⟨iff_of_false (by simp) fun hout => hinside ⟨hout.1, hout.2.1⟩, ?_⟩
        intro table satellites' ctx' hresult hserves hroom
        cases hresult
        rw [List.append_nil, hts] at hserves
        have hbytes := (List.isChain_cons_cons.mp hserves).1 rfl
        rw [foldl_set _ (by omega), List.take_zero, List.nil_append, Nat.zero_add]
        congr 1
        apply List.map_congr_left
        intro i hi
        have hlt : i < (k.fetched nbSatellites).toNat := List.mem_range.mp hi
        apply satelliteOfBytes_congr
        intro j hj
        have hin : k.single * i + j < (k.fetched nbSatellites).toNat * k.single := by
          have hle : k.single * (i + 1) ≤ k.single * (k.fetched nbSatellites).toNat :=
            Nat.mul_le_mul_left _ hlt
          rw [Nat.mul_succ] at hle
          rw [Nat.mul_comm (k.fetched nbSatellites).toNat]
          omega
        rw [hdata, List.getD_eq_getElem?_getD, List.getElem?_map, List.getElem?_range hin,
          Option.map_some, Option.getD_some, hbytes]

/-- Thirteen visible satellites are received behind the end of the buffer. -/
theorem getSatellites_read_thirteen :
    SatellitesRead .visible 13 [] (countingRun (getVisibleSatellites freshCtx 13 [])).1 none :=
  getSatellites_read
    (Program.runs_traceFrom (answering countingReply) [] (getVisibleSatellites freshCtx 13 []))

end

end Sidewalk.Lr11xx
