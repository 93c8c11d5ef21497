import Sidewalk.Lr11xx.Hal

/-!
# The bootloader of the LR11xx

`lr11xx_bootloader.c`: the commands of the bootloader, and the loop that writes an image in blocks
of 64 words.
-/

namespace Sidewalk.Lr11xx

open Lib
open Lib.Program (make Runs runs_bind)

/-! ## The code -/

/-- A word as four bytes, the highest first. -/
def beBytes (word : UInt32) : List UInt8 :=
  [(word >>> 24).toUInt8, (word >>> 16).toUInt8, (word >>> 8).toUInt8, word.toUInt8]

/-- Two bytes as a number, the highest first. -/
def beUint16 (high low : UInt8) : UInt16 := (high.toUInt16 <<< 8) + low.toUInt16

/-- `LR11XX_BL_GET_VERSION_OC`, which is `LR11XX_SYSTEM_GET_VERSION_OC` too. -/
def getVersionCommand : List UInt8 := [0x01, 0x01]

/-- `LR11XX_BL_ERASE_FLASH_OC`. -/
def eraseFlashCommand : List UInt8 := [0x80, 0x00]

/-- `LR11XX_BL_WRITE_FLASH_ENCRYPTED_OC`, and the offset. -/
def writeFlashCommand (offsetInByte : UInt32) : List UInt8 := [0x80, 0x03] ++ beBytes offsetInByte

/-- `LR11XX_BL_REBOOT_OC`. -/
def rebootCommand (stayInBootloader : Bool) : List UInt8 :=
  [0x80, 0x05, if stayInBootloader then 0x03 else 0x00]

/-- `lr11xx_bootloader_version_t`, and `lr11xx_system_version_t` alike. -/
structure Version where
  hw : UInt8
  type : UInt8
  fw : UInt16

def versionOfBytes (rbuffer : List UInt8) : Version :=
  ⟨rbuffer.getD 0 0, rbuffer.getD 1 0, beUint16 (rbuffer.getD 2 0) (rbuffer.getD 3 0)⟩

/-- `lr11xx_bootloader_get_version`, which decodes what was read where it went well. -/
def bootloaderGetVersion (ctx : DrvCtx) : HalProgram Outcome := halRead ctx getVersionCommand 4

/-- `lr11xx_bootloader_erase_flash`. -/
def bootloaderEraseFlash (ctx : DrvCtx) : HalProgram Outcome := halWrite ctx eraseFlashCommand []

/-- `lr11xx_bootloader_write_flash_encrypted`. -/
def bootloaderWriteFlashEncrypted (ctx : DrvCtx) (offsetInByte : UInt32) (data : List UInt32)
    (lengthInWord : UInt8) : HalProgram Outcome :=
  halWrite ctx (writeFlashCommand offsetInByte) ((data.take lengthInWord.toNat).flatMap beBytes)

/-- `lr11xx_bootloader_get_min_from_operand_and_max_block_size`. -/
def getMinFromOperandAndMaxBlockSize (operand : UInt32) : UInt8 :=
  if operand > 64 then 64 else operand.toUInt8

/-- The loop of `lr11xx_bootloader_write_flash_encrypted_full`. -/
def writeFlashLoop (ctx : DrvCtx) (buffer : List UInt32)
    (remainingLength localOffset loop : UInt32) : HalProgram Outcome :=
  if h : remainingLength = 0 then pure ⟨true, [], ctx⟩
  else do
    let out ← bootloaderWriteFlashEncrypted ctx localOffset (buffer.drop (loop * 64).toNat)
      (getMinFromOperandAndMaxBlockSize remainingLength)
    if !out.ok then pure out
    else
      writeFlashLoop out.ctx buffer (if remainingLength < 64 then 0 else remainingLength - 64)
        (localOffset + 256) (loop + 1)
  termination_by remainingLength.toNat
  decreasing_by
    have hpos : 0 < remainingLength.toNat := by
      rw [Nat.pos_iff_ne_zero]
      intro h0
      exact h (UInt32.toNat_inj.mp h0)
    split
    · exact hpos
    · next hlarge =>
      have hle : (64 : UInt32) ≤ remainingLength := UInt32.not_lt.mp hlarge
      rw [UInt32.toNat_sub_of_le _ _ hle]
      exact Nat.sub_lt hpos (by decide)

/-- `lr11xx_bootloader_write_flash_encrypted_full`. -/
def bootloaderWriteFlashEncryptedFull (ctx : DrvCtx) (offsetInByte : UInt32) (buffer : List UInt32)
    (lengthInWord : UInt32) : HalProgram Outcome :=
  writeFlashLoop ctx buffer lengthInWord offsetInByte 0

/-- `lr11xx_bootloader_reboot`. -/
def bootloaderReboot (ctx : DrvCtx) (stayInBootloader : Bool) : HalProgram Outcome :=
  halWrite ctx (rebootCommand stayInBootloader) []

/-! ## What a driver call sends -/

/-- The transfers of a driver call begin the script. They are all of it where the call succeeds,
and then confirm what came before them. -/
structure Carries (ctx : DrvCtx) (script : List (List UInt8)) (events : HalEvents) (out : Outcome) :
    Prop where
  begins : (transfers events).map Prod.fst <+: script
  ends : out.ok = true → (transfers events).map Prod.fst = script
  settled : out.ok = true → out.ctx.Settled
  through : out.ok = true → ∀ t ∈ transfers events, t.2.ok = true
  confirms : ctx.Settled → out.ok = true → ∀ t ∈ transfers events, Confirms t

section

variable {ctx : DrvCtx} {events : HalEvents} {out : Outcome}

theorem Carries.fail {script rest : List (List UInt8)} (h : Carries ctx script events out)
    (hfail : out.ok = false) : Carries ctx (script ++ rest) events out where
  begins := h.begins.trans (List.prefix_append script rest)
  ends := by simp [hfail]
  settled := by simp [hfail]
  through := by simp [hfail]
  confirms := by simp [hfail]

theorem Carries.append {script rest : List (List UInt8)} {events' : HalEvents} {out' : Outcome}
    (h : Carries ctx script events out) (hok : out.ok = true)
    (h' : Carries out.ctx rest events' out') :
    Carries ctx (script ++ rest) (events ++ events') out' where
  begins := by
    rw [transfers_append, List.map_append, h.ends hok]
    exact (List.prefix_append_right_inj script).mpr h'.begins
  ends := by
    intro hok'
    rw [transfers_append, List.map_append, h.ends hok, h'.ends hok']
  settled := h'.settled
  through := by
    intro hok' t ht
    rw [transfers_append, List.mem_append] at ht
    obtain ht | ht := ht
    · exact h.through hok t ht
    · exact h'.through hok' t ht
  confirms := by
    intro hctx hok' t ht
    rw [transfers_append, List.mem_append] at ht
    obtain ht | ht := ht
    · exact h.confirms hctx hok t ht
    · exact h'.confirms (h.settled hok) hok' t ht

theorem carries_halWrite {command data : List UInt8} (hcode : commandCode command ≠ 0)
    (h : Runs (halWrite ctx command data) events out) :
    Carries ctx [command ++ data] events out := by
  obtain ⟨hnone, hok⟩ | ⟨first, hone, hsends⟩ := runs_halWrite h
  · constructor <;> simp [hnone, hok]
  · refine ⟨by simp [hone], fun _ => by simp [hone], fun hok => (hsends hok).settled hcode, ?_, ?_⟩
    · intro hok t ht
      rw [hone, List.mem_singleton] at ht
      subst t
      exact (hsends hok).through
    · intro hctx hok t ht
      rw [hone, List.mem_singleton] at ht
      subst t
      exact (hsends hok).confirms hctx hok

@[simp] theorem commandCode_writeFlashCommand (offset : UInt32) :
    commandCode (writeFlashCommand offset) = 0x8003 := by
  simp only [writeFlashCommand, commandCode, List.cons_append, List.getD_cons_zero,
    List.getD_cons_succ]
  decide

@[simp] theorem commandCode_rebootCommand (stay : Bool) :
    commandCode (rebootCommand stay) = 0x8005 := by
  cases stay <;> decide

/-! ## The blocks of an image -/

/-- The words of one block. -/
def blockWords (image : List UInt32) (k : Nat) : List UInt32 :=
  (image.drop (64 * k)).take 64

def blockCount (image : List UInt32) : Nat := (image.length + 63) / 64

/-- The write of one block. -/
def blockCommand (offset : UInt32) (image : List UInt32) (k : Nat) : List UInt8 :=
  writeFlashCommand (offset + 256 * UInt32.ofNat k) ++ (blockWords image k).flatMap beBytes

/-- The writes of all the blocks, one after the other. -/
def blockCommands (offset : UInt32) (image : List UInt32) : List (List UInt8) :=
  (List.range (blockCount image)).map (blockCommand offset image)

theorem blockCommands_nil (offset : UInt32) : blockCommands offset [] = [] := rfl

theorem blockCount_drop {image : List UInt32} (h : image ≠ []) :
    blockCount image = blockCount (image.drop 64) + 1 := by
  have hpos : 0 < image.length := List.length_pos_iff.mpr h
  simp only [blockCount, List.length_drop]
  omega

theorem blockCommand_drop (offset : UInt32) (image : List UInt32) (k : Nat) :
    blockCommand (offset + 256) (image.drop 64) k = blockCommand offset image (k + 1) := by
  have hoffset : offset + 256 + 256 * UInt32.ofNat k = offset + 256 * UInt32.ofNat (k + 1) := by
    rw [UInt32.ofNat_add, show UInt32.ofNat 1 = 1 from rfl]
    grind
  have hwords : blockWords (image.drop 64) k = blockWords image (k + 1) := by
    simp only [blockWords, List.drop_drop]
    rw [show 64 + 64 * k = 64 * (k + 1) by ring]
  rw [blockCommand, blockCommand, hoffset, hwords]

/-- The first block comes before those of the rest of the image. -/
theorem blockCommands_cons {offset : UInt32} {image : List UInt32} (h : image ≠ []) :
    blockCommands offset image =
      [writeFlashCommand offset ++ (image.take 64).flatMap beBytes] ++
        blockCommands (offset + 256) (image.drop 64) := by
  have hfirst : blockCommand offset image 0 =
      writeFlashCommand offset ++ (image.take 64).flatMap beBytes := by
    simp [blockCommand, blockWords]
  rw [blockCommands, blockCount_drop h, List.range_succ_eq_map, List.map_cons, hfirst,
    List.map_map, blockCommands, List.singleton_append]
  congr 1
  apply List.map_congr_left
  intro k _
  exact (blockCommand_drop offset image k).symm

/-! ## The loop -/

theorem toNat_getMin (operand : UInt32) :
    (getMinFromOperandAndMaxBlockSize operand).toNat = min operand.toNat 64 := by
  unfold getMinFromOperandAndMaxBlockSize
  split
  · next h =>
    have : 64 < operand.toNat := h
    rw [min_eq_right (by omega)]
    rfl
  · next h =>
    have : ¬64 < operand.toNat := h
    rw [min_eq_left (by omega), UInt32.toNat_toUInt8]
    omega

/-- The loop writes the blocks from where it stands. The induction is on the words that remain. -/
theorem carries_writeFlashLoop {buffer : List UInt32} {remaining localOffset loop : UInt32}
    (hctx : ctx.Settled) (hlen : buffer.length = 64 * loop.toNat + remaining.toNat)
    (hsize : buffer.length < 2 ^ 32)
    (h : Runs (writeFlashLoop ctx buffer remaining localOffset loop) events out) :
    Carries ctx (blockCommands localOffset (buffer.drop (64 * loop.toNat))) events out := by
  induction hn : remaining.toNat using Nat.strong_induction_on
    generalizing ctx remaining localOffset loop events with
  | _ n ih =>
    rw [writeFlashLoop] at h
    split at h
    · next hzero =>
      subst hzero
      obtain ⟨rfl, rfl⟩ := h
      have hdone : buffer.drop (64 * loop.toNat) = [] := by
        rw [List.drop_eq_nil_iff, hlen]
        simp
      rw [hdone, blockCommands_nil]
      constructor <;> simp [hctx]
    · next hpos =>
      have hrem : 0 < remaining.toNat := by
        rw [Nat.pos_iff_ne_zero]
        intro h0
        exact hpos (UInt32.toNat_inj.mp h0)
      have hloop : (loop * 64).toNat = 64 * loop.toNat := by
        rw [UInt32.toNat_mul, show (64 : UInt32).toNat = 64 from rfl]
        omega
      have hne : buffer.drop (64 * loop.toNat) ≠ [] := by
        rw [ne_eq, List.drop_eq_nil_iff, hlen]
        omega
      have htake : (buffer.drop (64 * loop.toNat)).take (min remaining.toNat 64) =
          (buffer.drop (64 * loop.toNat)).take 64 := by
        rw [List.take_eq_take_iff, List.length_drop]
        omega
      rw [runs_bind] at h
      obtain ⟨events₁, out₁, events₂, hwrite, h, rfl⟩ := h
      rw [bootloaderWriteFlashEncrypted, toNat_getMin, hloop, htake] at hwrite
      have hfirst := carries_halWrite (by simp) hwrite
      rw [blockCommands_cons hne]
      cases hok : out₁.ok with
      | false =>
        rw [hok, Bool.not_false, if_pos rfl] at h
        obtain ⟨rfl, rfl⟩ := h
        rw [List.append_nil]
        exact hfirst.fail hok
      | true =>
        rw [hok, Bool.not_true, if_neg Bool.false_ne_true] at h
        refine hfirst.append hok ?_
        rw [List.drop_drop]
        by_cases hlast : remaining < 64
        · -- The last block is not full, and nothing is left after it.
          have hlt : remaining.toNat < 64 := hlast
          rw [if_pos hlast] at h
          rw [writeFlashLoop, dif_pos rfl] at h
          obtain ⟨rfl, rfl⟩ := h
          have hdone : buffer.drop (64 * loop.toNat + 64) = [] := by
            rw [List.drop_eq_nil_iff, hlen]
            omega
          rw [hdone, blockCommands_nil]
          have hsettled := hfirst.settled hok
          constructor <;> simp [hsettled]
        · have hle : (64 : UInt32) ≤ remaining := UInt32.not_lt.mp hlast
          have hge : 64 ≤ remaining.toNat := hle
          have hrest : (remaining - 64).toNat = remaining.toNat - 64 :=
            UInt32.toNat_sub_of_le _ _ hle
          have hnext : (loop + 1).toNat = loop.toNat + 1 := by
            rw [UInt32.toNat_add, show (1 : UInt32).toNat = 1 from rfl]
            omega
          rw [if_neg hlast] at h
          have hdrop : 64 * loop.toNat + 64 = 64 * (loop + 1).toNat := by
            rw [hnext]
            ring
          rw [hdrop]
          exact ih (remaining - 64).toNat (by omega) (hfirst.settled hok)
            (by rw [hrest, hnext]; omega) h rfl

end

end Sidewalk.Lr11xx
