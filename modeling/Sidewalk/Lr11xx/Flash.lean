import Sidewalk.Lr11xx.FirmwareUpdate

/-!
# The flash of the chip after an update

The chip is its flash and the status that it owes: a command is done or refused, and the status
byte of the next transfer says which. Against any such chip, an update that returns
`LR11XX_FW_UPDATE_OK` leaves the image in the flash and nothing else. The transfers of an update
are also measured against the internal buffer they are sent from.
-/

namespace Sidewalk.Lr11xx

open Lib
open Lib.Program (Runs)

/-! ## The chip -/

/-- A flash that is empty where it was erased, and whether the last command was done, where the
next status has to say it. -/
structure Chip where
  flash : Nat → Option UInt8
  status : Option Bool

def offsetOfBytes (sent : List UInt8) : Nat :=
  (((sent.getD 2 0).toNat * 256 + (sent.getD 3 0).toNat) * 256 + (sent.getD 4 0).toNat) * 256 +
    (sent.getD 5 0).toNat

def program (flash : Nat → Option UInt8) (offset : Nat) (data : List UInt8) (a : Nat) :
    Option UInt8 :=
  if offset ≤ a ∧ a < offset + data.length then data[a - offset]? else flash a

/-- What a command does to the flash. -/
def execute (flash : Nat → Option UInt8) (sent : List UInt8) : Nat → Option UInt8 :=
  if sent.take 2 = eraseFlashCommand then fun _ => none
  else if sent.take 2 = [0x80, 0x03] then program flash (offsetOfBytes sent) (sent.drop 6)
  else flash

/-- The status of the reply is the one that the chip owes. -/
def Chip.Owes (c : Chip) (reply : HalReply) : Prop :=
  ∀ b, c.status = some b → statusOk (reply.received 0) = b

/-- What the chip may do on a transfer. Nothing is known of one that did not go through. -/
inductive ChipStep : Chip → Transfer → Chip → Prop
  | done {c t} : t.2.ok = true → c.Owes t.2 → ChipStep c t ⟨execute c.flash t.1, some true⟩
  | refused {c t} : t.2.ok = true → c.Owes t.2 → ChipStep c t ⟨c.flash, some false⟩
  | silent {c t} : t.2.ok = true → c.Owes t.2 → execute c.flash t.1 = c.flash →
      ChipStep c t ⟨c.flash, none⟩
  | lost {c t c'} : t.2.ok = false → ChipStep c t c'

inductive ChipRun : Chip → List Transfer → Chip → Prop
  | nil {c} : ChipRun c [] c
  | cons {c t c' ts c''} : ChipStep c t c' → ChipRun c' ts c'' → ChipRun c (t :: ts) c''

theorem ChipRun.split {xs ys : List Transfer} {c c'' : Chip} (h : ChipRun c (xs ++ ys) c'') :
    ∃ c', ChipRun c xs c' ∧ ChipRun c' ys c'' := by
  induction xs generalizing c with
  | nil => exact ⟨c, .nil, h⟩
  | cons t xs ih =>
    obtain ⟨⟩ | ⟨hstep, hrest⟩ := h
    obtain ⟨c', hxs, hys⟩ := ih hrest
    exact ⟨c', .cons hstep hxs, hys⟩

/-- A command whose next transfer confirms it was done. -/
theorem ChipStep.flash {c c' c'' : Chip} {t next : Transfer} (h : ChipStep c t c')
    (hok : t.2.ok = true) (hnext : ChipStep c' next c'') (hconfirms : Confirms next) :
    c'.flash = execute c.flash t.1 := by
  cases h with
  | done _ _ => rfl
  | silent _ _ hsame => exact hsame.symm
  | lost hlost =>
    rw [hok] at hlost
    cases hlost
  | refused _ _ =>
    have howes : Chip.Owes ⟨c.flash, some false⟩ next.2 := by
      cases hnext with
      | done _ howes => exact howes
      | refused _ howes => exact howes
      | silent _ howes _ => exact howes
      | lost hlost =>
        rw [hconfirms.1] at hlost
        cases hlost
    have hfalse := howes false rfl
    rw [hconfirms.2] at hfalse
    cases hfalse

/-- Commands that are all confirmed have all been done. The induction is on the commands, and the
last transfer only confirms. -/
theorem ChipRun.flash {ts : List Transfer} {last : Transfer} {c c' : Chip}
    (h : ChipRun c (ts ++ [last]) c') (hok : ∀ t ∈ ts, t.2.ok = true)
    (hconfirms : ∀ t ∈ (ts ++ [last]).tail, Confirms t) :
    ∃ c₁, c₁.flash = (ts.map Prod.fst).foldl execute c.flash ∧ ChipStep c₁ last c' := by
  induction ts generalizing c with
  | nil =>
    obtain ⟨⟩ | ⟨hstep, hrest⟩ := h
    obtain ⟨⟩ := hrest
    exact ⟨c, rfl, hstep⟩
  | cons t ts ih =>
    obtain ⟨⟩ | ⟨hstep, hrest⟩ := h
    rename_i c₂
    have hnext : ∃ next c₃, ChipStep c₂ next c₃ ∧ Confirms next := by
      cases ts with
      | nil =>
        obtain ⟨⟩ | ⟨hlast, -⟩ := hrest
        exact ⟨_, _, hlast, hconfirms last (by simp)⟩
      | cons t' ts =>
        obtain ⟨⟩ | ⟨ht', -⟩ := hrest
        exact ⟨_, _, ht', hconfirms t' (by simp)⟩
    obtain ⟨next, c₃, hnext, hnextConfirms⟩ := hnext
    have hflash := hstep.flash (hok t List.mem_cons_self) hnext hnextConfirms
    obtain ⟨c₁, hc₁, hlast⟩ := ih hrest (fun x hx => hok x (List.mem_cons_of_mem _ hx))
      (fun x hx => hconfirms x (by
        rw [List.cons_append, List.tail_cons]
        exact List.mem_of_mem_tail hx))
    exact ⟨c₁, by rw [hc₁, hflash]; rfl, hlast⟩

/-- A chip may do every command of a run whose statuses are all good. -/
theorem exists_chipRun {ts : List Transfer} (h : ∀ t ∈ ts, Confirms t) {c : Chip}
    (hc : ∀ b, c.status = some b → b = true) : ∃ c', ChipRun c ts c' := by
  induction ts generalizing c with
  | nil => exact ⟨c, .nil⟩
  | cons t ts ih =>
    obtain ⟨hok, hstatus⟩ := h t List.mem_cons_self
    have howes : c.Owes t.2 := fun b hb => hstatus.trans (hc b hb).symm
    obtain ⟨c', hrest⟩ := ih (c := ⟨execute c.flash t.1, some true⟩)
      (fun x hx => h x (List.mem_cons_of_mem _ hx)) (fun b hb => (Option.some.inj hb).symm)
    exact ⟨c', .cons (.done hok howes) hrest⟩

/-- Commands that do not concern the flash leave it, done or not. -/
theorem ChipRun.flash_eq {ts : List Transfer} {c c' : Chip} (h : ChipRun c ts c')
    (hok : ∀ t ∈ ts, t.2.ok = true) (hother : ∀ t ∈ ts, ∀ flash, execute flash t.1 = flash) :
    c'.flash = c.flash := by
  induction h with
  | nil => rfl
  | cons hstep hrest ih =>
    rename_i c t c₁ ts c₂
    have hc₁ : c₁.flash = c.flash := by
      cases hstep with
      | done _ _ => exact hother t List.mem_cons_self c.flash
      | refused _ _ => rfl
      | silent _ _ _ => rfl
      | lost hlost =>
        rw [hok t List.mem_cons_self] at hlost
        cases hlost
    rw [← hc₁]
    exact ih (fun x hx => hok x (List.mem_cons_of_mem _ hx))
      fun x hx => hother x (List.mem_cons_of_mem _ hx)

/-! ## The image -/

section

variable {image : List UInt32}

@[simp] theorem length_beBytes (word : UInt32) : (beBytes word).length = 4 := rfl

@[simp] theorem length_flatMap_beBytes (words : List UInt32) :
    (words.flatMap beBytes).length = 4 * words.length := by
  induction words with
  | nil => rfl
  | cons word words ih =>
    rw [List.flatMap_cons, List.length_append, length_beBytes, ih, List.length_cons]
    ring

@[simp] theorem length_writeFlashCommand (offset : UInt32) :
    (writeFlashCommand offset).length = 6 := rfl

/-- The four bytes of the offset are the offset. -/
theorem offsetOfBytes_writeFlashCommand (offset : UInt32) (data : List UInt8) :
    offsetOfBytes (writeFlashCommand offset ++ data) = offset.toNat := by
  have hlt := offset.toNat_lt
  simp only [offsetOfBytes, writeFlashCommand, beBytes, List.cons_append, List.nil_append,
    List.getD_cons_succ, List.getD_cons_zero, UInt32.toNat_toUInt8, UInt32.toNat_shiftRight]
  simp only [show (24 : UInt32).toNat = 24 from rfl, show (16 : UInt32).toNat = 16 from rfl,
    show (8 : UInt32).toNat = 8 from rfl, Nat.shiftRight_eq_div_pow, Nat.reduceMod, Nat.reducePow]
  omega

theorem execute_writeFlash (flash : Nat → Option UInt8) (offset : UInt32) (data : List UInt8) :
    execute flash (writeFlashCommand offset ++ data) = program flash offset.toNat data := by
  have htake : (writeFlashCommand offset ++ data).take 2 = [0x80, 0x03] := rfl
  have hdrop : (writeFlashCommand offset ++ data).drop 6 = data := rfl
  rw [execute, htake, if_neg (by decide), if_pos rfl, offsetOfBytes_writeFlashCommand, hdrop]

theorem toNat_blockOffset {k : Nat} (h : k < 2 ^ 24) :
    ((0 : UInt32) + 256 * UInt32.ofNat k).toNat = 256 * k := by
  rw [UInt32.toNat_add, UInt32.toNat_mul, UInt32.toNat_ofNat']
  simp only [show (0 : UInt32).toNat = 0 from rfl, show (256 : UInt32).toNat = 256 from rfl]
  omega

/-- The first blocks of an image make the beginning of the image. The induction is on how many. -/
theorem foldl_blockCommands (hfit : image.length ≤ 2 ^ 30) {n : Nat} (hn : n ≤ blockCount image)
    (a : Nat) :
    ((List.range n).map (blockCommand 0 image)).foldl execute (fun _ => none) a =
      ((image.take (64 * n)).flatMap beBytes)[a]? := by
  induction n with
  | zero => simp
  | succ n ih =>
    have hfull : 64 * n < image.length := by
      unfold blockCount at hn
      omega
    have hwords : image.take (64 * (n + 1)) = image.take (64 * n) ++ blockWords image n := by
      rw [blockWords, Nat.mul_succ, List.take_add]
    have hlen : ((image.take (64 * n)).flatMap beBytes).length = 256 * n := by
      rw [length_flatMap_beBytes, List.length_take, min_eq_left hfull.le]
      ring
    rw [List.range_succ, List.map_append, List.foldl_append, List.map_singleton, List.foldl_cons,
      List.foldl_nil, blockCommand, execute_writeFlash, toNat_blockOffset (by omega), program,
      hwords, List.flatMap_append, List.getElem?_append, hlen, ih (by omega)]
    by_cases hbelow : a < 256 * n
    · rw [if_neg (by omega), if_pos hbelow]
    · rw [if_neg hbelow]
      split
      · rfl
      · next hout =>
        rw [List.getElem?_eq_none (by omega : _ ≤ a), List.getElem?_eq_none (by omega)]

/-- The commands of an update up to the reboot leave the image. -/
theorem foldl_install (hfit : image.length ≤ 2 ^ 30) (flash : Nat → Option UInt8) (a : Nat) :
    ([eraseFlashCommand] ++ blockCommands 0 image).foldl execute flash a =
      (image.flatMap beBytes)[a]? := by
  have herase : execute flash eraseFlashCommand = fun _ => none := if_pos rfl
  rw [List.foldl_append, List.foldl_cons, List.foldl_nil, herase, blockCommands,
    foldl_blockCommands hfit le_rfl, List.take_of_length_le]
  unfold blockCount
  omega

end

/-! ## The flash after an update -/

section

variable {ctx : DrvCtx} {direction : FwUpdate} {fwExpected : UInt32} {image : List UInt32}
  {length : UInt32} {events : HalEvents} {chip chip' : Chip}

theorem execute_other {sent : List UInt8} (h : sent ∈ [rebootCommand false, getVersionCommand,
    answerZeros 4, systemReadUidCommand, answerZeros 8]) (flash : Nat → Option UInt8) :
    execute flash sent = flash := by
  simp only [List.mem_cons, List.not_mem_nil, or_false] at h
  obtain rfl | rfl | rfl | rfl | rfl := h <;> rfl

/-- An update that returns `LR11XX_FW_UPDATE_OK` has left the image in the flash, and nothing
else. -/
theorem updateFirmware_flash (hlen : image.length = length.toNat) (hfit : image.length ≤ 2 ^ 30)
    (h : Runs (updateFirmware direction fwExpected image length ctx).run events (.ok ()))
    (hchip : ChipRun chip (transfers events) chip') (a : Nat) :
    chip'.flash a = (image.flatMap beBytes)[a]? := by
  obtain ⟨hscript, hmodem, hinstalled⟩ := (updateFirmware_sound hlen h).complete rfl
  obtain ⟨written, version, uid, data, hparts, hwritten, hconfirms, -, -⟩ := hinstalled.parts
  have hthrough := hinstalled.through
  rw [← List.take_append_drop 2 (transfers events)] at hchip
  obtain ⟨chip₁, -, hinstall⟩ := hchip.split
  -- The reboot confirms the last block, and the reads after it leave the flash.
  rw [installCommands, ← List.append_assoc] at hwritten
  obtain ⟨commands, reboots, rfl, hcommands, hreboots⟩ := List.map_eq_append_iff.mp hwritten
  obtain ⟨reboot, rfl, hreboot⟩ := List.map_eq_singleton_iff.mp hreboots
  rw [hparts] at hinstall hthrough
  obtain ⟨chip₂, hdone, hreads⟩ := hinstall.split
  have hok : ∀ t ∈ commands ++ [reboot], t.2.ok = true :=
    fun t ht => hthrough t (List.mem_append_left _ ht)
  obtain ⟨chip₃, hflash, hlast⟩ := hdone.flash (fun t ht => hok t (List.mem_append_left _ ht))
    fun t ht => hconfirms t (List.mem_append_left _ (List.mem_of_mem_tail ht))
  have hothers : ∀ t ∈ version ++ uid, ∀ flash, execute flash t.1 = flash := by
    have hsent : (version ++ uid).map Prod.fst = verifyCommands direction := by
      have hdrop := congrArg (List.drop 2) hscript
      rw [← List.map_drop, hparts, updateScript, List.map_append, hwritten] at hdrop
      exact List.append_cancel_left (hdrop.trans (by simp [installCommands]))
    intro t ht flash
    have hmem : t.1 ∈ verifyCommands direction := hsent ▸ List.mem_map_of_mem ht
    rw [verifyCommands, if_neg hmodem] at hmem
    exact execute_other (List.mem_cons_of_mem _ (by simpa using hmem)) flash
  have hreboot₂ : chip₂.flash = chip₃.flash :=
    ChipRun.flash_eq (.cons hlast .nil)
      (fun t ht => hok t (List.mem_append_right _ ht))
      (fun t ht flash => by
        rw [List.mem_singleton.mp ht, hreboot]
        exact execute_other List.mem_cons_self flash)
  rw [hreads.flash_eq (fun t ht => hthrough t (List.mem_append_right _ ht)) hothers, hreboot₂,
    hflash, hcommands, foldl_install hfit]

theorem updateFirmware_flash_goodUpdate :
    ∃ chip' : Chip, ∀ a, chip'.flash a = ([7].flatMap beBytes)[a]? := by
  have hconfirms : ∀ t ∈ transfers goodUpdate.1, Confirms t := by
    intro t ht
    obtain ⟨e, he, hte⟩ := List.mem_filterMap.mp ht
    have hreply : e.2 = goodReply := Program.answered_trace _ _ e he
    obtain ⟨c, reply⟩ := e
    cases c <;> cases hte
    subst hreply
    exact ⟨rfl, statusOk_goodReply⟩
  let erased : Chip := ⟨fun _ => some 0, none⟩
  have hsilent : ∀ b, erased.status = some b → b = true := fun _ hb => by cases hb
  obtain ⟨chip', hchip⟩ := exists_chipRun hconfirms hsilent
  have hlen : [(7 : UInt32)].length = (1 : UInt32).toNat := rfl
  exact ⟨chip', updateFirmware_flash hlen (by decide) (goodUpdate_ok ▸ runs_goodUpdate) hchip⟩

/-! ## The internal buffer -/

theorem length_blockCommand (image : List UInt32) (k : Nat) :
    (blockCommand 0 image k).length = 6 + 4 * min 64 (image.length - 64 * k) := by
  simp [blockCommand, blockWords, Nat.mul_comm 4]

/-- Whatever is sent that is longer than the buffer is a block of 63 or 64 words. -/
theorem length_of_mem_updateScript {sent : List UInt8} (h : sent ∈ updateScript direction image) :
    sent.length ≤ 9 ∨ ∃ k, sent.length = 6 + 4 * min 64 (image.length - 64 * k) := by
  simp only [updateScript, installCommands, verifyCommands, List.mem_append, List.mem_cons,
    List.not_mem_nil, or_false, blockCommands, List.mem_map, List.mem_range] at h
  obtain (rfl | rfl) | (rfl | ⟨k, -, rfl⟩ | rfl) | h := h
  · exact .inl (by decide)
  · exact .inl (by decide)
  · exact .inl (by decide)
  · exact .inr ⟨k, length_blockCommand image k⟩
  · exact .inl (by decide)
  · split at h
    · cases h
    · simp only [List.mem_append, List.mem_cons, List.not_mem_nil, or_false] at h
      obtain (rfl | rfl) | rfl | rfl := h <;> exact .inl (by decide)

/-- A write of 64 words is seven bytes longer than the internal buffer, which nothing checks. Once
an update has sent its first block, it has overrun the buffer if and only if the image has 63
words. -/
theorem updateFirmware_overruns (hlen : image.length = length.toNat)
    {r : Except FwUpdateFailure Unit}
    (h : Runs (updateFirmware direction fwExpected image length ctx).run events r) :
    (∀ t ∈ transfers events, t.1.length ≤ radioLr11xxSpiBufferSize + 7) ∧
      ((∃ t ∈ transfers events, Overruns t) ↔
        63 ≤ image.length ∧ 3 < (transfers events).length) := by
  have hbegins := (updateFirmware_sound hlen h).begins
  have hmem : ∀ t ∈ transfers events, t.1 ∈ updateScript direction image :=
    fun t ht => hbegins.subset (List.mem_map_of_mem ht)
  unfold Overruns radioLr11xxSpiBufferSize
  refine ⟨?_, ?_, ?_⟩
  · intro t ht
    obtain hshort | ⟨k, hblock⟩ := length_of_mem_updateScript (hmem t ht) <;> omega
  · rintro ⟨t, ht, hlong⟩
    obtain hshort | ⟨k, hblock⟩ := length_of_mem_updateScript (hmem t ht)
    · omega
    refine ⟨by omega, ?_⟩
    -- The three transfers before the first block are short.
    by_contra hfew
    have hfirst : (transfers events).map Prod.fst <+:
        [getVersionCommand, answerZeros 4, eraseFlashCommand] := by
      refine List.prefix_of_prefix_length_le hbegins ?_ (by simpa using hfew)
      exact ⟨blockCommands 0 image ++ [rebootCommand false] ++ verifyCommands direction,
        by simp [updateScript, installCommands]⟩
    have ht' := hfirst.subset (List.mem_map_of_mem ht)
    simp only [List.mem_cons, List.not_mem_nil, or_false] at ht'
    obtain hsent | hsent | hsent := ht' <;> rw [hsent] at hlong <;> exact absurd hlong (by decide)
  · rintro ⟨hlarge, hmany⟩
    have hne : image ≠ [] := by
      rintro rfl
      exact absurd hlarge (by decide)
    obtain ⟨rest, hrest⟩ := hbegins
    have hthird : (transfers events)[3].1 = blockCommand 0 image 0 := by
      have hget : ((transfers events).map Prod.fst ++ rest)[3]? =
          some (blockCommand 0 image 0) := by
        rw [hrest]
        simp [updateScript, installCommands, blockCommands, blockCount_drop hne,
          List.range_succ_eq_map]
      rw [List.getElem?_append_left (by simpa using hmany), List.getElem?_map,
        List.getElem?_eq_getElem hmany, Option.map_some, Option.some_inj] at hget
      exact hget
    refine ⟨(transfers events)[3], List.getElem_mem hmany, ?_⟩
    rw [hthird, length_blockCommand]
    omega

theorem updateFirmware_overruns_goodUpdate :
    (∀ t ∈ transfers goodUpdate.1, t.1.length ≤ radioLr11xxSpiBufferSize + 7) ∧
      ((∃ t ∈ transfers goodUpdate.1, Overruns t) ↔
        63 ≤ [(7 : UInt32)].length ∧ 3 < (transfers goodUpdate.1).length) :=
  updateFirmware_overruns rfl runs_goodUpdate

end

end Sidewalk.Lr11xx
