import Sidewalk.Mfg.Intact

/-!
# Bounds of the raw parser

`parse_mfg_raw_tlv` compares an offset with the end of the partition before it reads a tag, and
nothing else: a tag, a size or a payload may lie across the end, and the payload is read into a
buffer of `CONFIG_SIDEWALK_MFG_PARSER_MAX_ELEMENT_SIZE` bytes whatever its length. `safe_iff` says
for which partitions every read stays inside and the call returns.
-/

namespace Sidewalk.Mfg.Failing

open Sidewalk.Lib Sidewalk.Tlv

/-- Every read so far lies in the partition, and no payload is longer than the buffer. -/
def ReadsInside (build : Build) (startOffset endOffset : Nat) (f : Flash) : Prop :=
  ∀ o n, .read o n ∈ f.requests →
    startOffset ≤ o ∧ o + n ≤ endOffset ∧ (n = 2 ∨ n ≤ build.maxElementSize)

/-- The call returns, and every read it issues stays in the partition and in its buffer. -/
structure Safe (build : Build) (startOffset endOffset : Nat) (result : Outcome × Host Flash) :
    Prop where
  returns : result.1.Returns
  inside : ReadsInside build startOffset endOffset result.2.storage

/-- The round that comes next is in bounds: the tag lies in the partition; for an element, so do
its size and its payload, the buffer holds it, and copying it stays inside the RAM copy; and where
the loop ends, so does the search for the slot of the flags record. -/
structure InBounds (build : Build) (m : Mem) (size endOffset : Nat) (x : LoopState Nat Flash) :
    Prop where
  tag : x.1 < endOffset → x.1 + 2 ≤ endOffset
  element : x.1 < endOffset → tagAt m x.1 ≠ tagEmpty →
    x.1 + 4 + sizeAt m x.1 ≤ endOffset ∧ sizeAt m x.1 ≤ build.maxElementSize ∧
      (build.keyIdOf (tagAt m x.1) = none → Stays x.2.1 size (sizeAt m x.1))
  last : endOffset ≤ x.1 ∨ tagAt m x.1 = tagEmpty →
    LeavesHeader (Mfg.ramTlv size mfgHeaderSize) x.2.1.mem

section Rounds

variable {build : Build} {m : Mem} {size startOffset endOffset : Nat}

/-- What a round reads of a flash. -/
theorem fetchRaw_flash (hend : endOffset + 65544 ≤ 2 ^ 32) (o : Nat) (f : Flash) :
    fetchRaw build (tlvFlash Flash.storage startOffset endOffset) o f =
      if o < endOffset then
        if tagAt f.mem o = tagEmpty then (.stop, ⟨f.mem, .read o 2 :: f.requests⟩)
        else
          (if build.maxElementSize < sizeAt f.mem o then .undefined
            else .element (tagAt f.mem o) (f.mem.slice (o + 4) (sizeAt f.mem o))
              (o + 4 + sizeAt f.mem o),
            ⟨f.mem, .read (o + 4) (sizeAt f.mem o) :: .read (o + 2) 2 :: .read o 2 ::
              f.requests⟩)
      else (.stop, f) := by
  unfold fetchRaw
  by_cases ho : o < endOffset
  · have hin : o < (tlvFlash Flash.storage startOffset endOffset).endOffset := ho
    have hlt := sizeAt_lt f.mem o
    have h₂ : u32 (o + 2) = o + 2 := u32_of_lt (by omega)
    have h₄ : u32 (o + 2 + 2) = o + 4 := u32_of_lt (by omega)
    have hnext : u32 (o + 4 + sizeAt f.mem o) = o + 4 + sizeAt f.mem o := u32_of_lt (by omega)
    have hread : (tlvFlash Flash.storage startOffset endOffset).storageImpl.read =
      some Flash.read := rfl
    have htag : beWord (f.mem.slice o 2) = tagAt f.mem o := rfl
    have hsize : (beWord (f.mem.slice (o + 2) 2)).toNat = sizeAt f.mem o := rfl
    rw [if_pos hin, if_pos ho, hread]
    simp only [Flash.read, ne_eq, not_true_eq_false, if_false, htag, h₂, h₄, hsize, hnext]
    split
    · rfl
    · split
      · rfl
      · rfl
  · have hout : ¬o < (tlvFlash Flash.storage startOffset endOffset).endOffset := ho
    rw [if_neg hout, if_neg ho]

theorem readsInside_cons {o n : Nat} {requests : List Request} :
    ReadsInside build startOffset endOffset ⟨m, .read o n :: requests⟩ ↔
      (startOffset ≤ o ∧ o + n ≤ endOffset ∧ (n = 2 ∨ n ≤ build.maxElementSize)) ∧
        ReadsInside build startOffset endOffset ⟨m, requests⟩ := by
  constructor
  · intro h
    exact ⟨h o n List.mem_cons_self, fun o' n' hmem => h o' n' (List.mem_cons_of_mem _ hmem)⟩
  · rintro ⟨hnew, h⟩ o' n' hmem
    rcases List.mem_cons.mp hmem with heq | hmem
    · cases heq
      exact hnew
    · exact h o' n' hmem

/-- What a round reads lies in the partition, and in the buffer. -/
def FetchInside (build : Build) (m : Mem) (endOffset o : Nat) : Prop :=
  o < endOffset → o + 2 ≤ endOffset ∧ (tagAt m o ≠ tagEmpty →
    o + 4 + sizeAt m o ≤ endOffset ∧ (sizeAt m o = 2 ∨ sizeAt m o ≤ build.maxElementSize))

theorem readsInside_fetch (hend : endOffset + 65544 ≤ 2 ^ 32) {o : Nat} (ho : startOffset ≤ o)
    {f : Flash} (hf : f.mem = m) :
    ReadsInside build startOffset endOffset
        (fetchRaw build (tlvFlash Flash.storage startOffset endOffset) o f).2 ↔
      ReadsInside build startOffset endOffset f ∧ FetchInside build m endOffset o := by
  obtain ⟨mem, requests⟩ := f
  obtain rfl : mem = m := hf
  unfold FetchInside
  rw [fetchRaw_flash hend]
  by_cases hin : o < endOffset
  · rw [if_pos hin]
    by_cases hempty : tagAt mem o = tagEmpty
    · rw [if_pos hempty, readsInside_cons]
      constructor
      · rintro ⟨⟨-, htag, -⟩, h⟩
        exact ⟨h, fun _ => ⟨htag, fun hne => absurd hempty hne⟩⟩
      · rintro ⟨h, hbounds⟩
        exact ⟨⟨ho, (hbounds hin).1, .inl rfl⟩, h⟩
    · rw [if_neg hempty, readsInside_cons, readsInside_cons, readsInside_cons]
      constructor
      · rintro ⟨⟨-, hpayload, hmax⟩, -, ⟨-, htag, -⟩, h⟩
        exact ⟨h, fun _ => ⟨htag, fun _ => ⟨hpayload, hmax⟩⟩⟩
      · rintro ⟨h, hbounds⟩
        obtain ⟨htag, hpayload⟩ := hbounds hin
        obtain ⟨hlast, hmax⟩ := hpayload hempty
        exact ⟨⟨by omega, hlast, hmax⟩, ⟨by omega, by omega, .inl rfl⟩, ⟨ho, htag, .inl rfl⟩, h⟩
  · rw [if_neg hin]
    exact ⟨fun h => ⟨h, fun hlt => absurd hlt hin⟩, fun h => h.1⟩

/-- The offset of the next round. -/
theorem le_nextRound (hend : endOffset + 65544 ≤ 2 ^ 32) {block : Nat} {ramCtx : TlvCtx RamCopy}
    {x y : LoopState Nat Flash}
    (h : nextRound build (fetchRaw build (tlvFlash Flash.storage startOffset endOffset)) block
      ramCtx x = some y) : x.1 ≤ y.1 := by
  have hpos := nextRound_pos h
  rw [fetchRaw_flash hend] at hpos
  split at hpos
  · split at hpos
    · cases hpos
    · simp only at hpos
      split at hpos
      · cases hpos
      · have heq : x.1 + 4 + sizeAt x.2.2.storage.mem x.1 = y.1 := Option.some.inj hpos
        omega
  · cases hpos

/-- What holds of the first offset, and of the offset behind an element at which it holds, holds of
every offset that the loop comes to. -/
theorem offset_invariant {P : Nat → Prop} (hsize : size + 65544 ≤ 2 ^ 32)
    (hend : endOffset + 65544 ≤ 2 ^ 32) {block : Nat} {start x : LoopState Nat Flash}
    (hblock : start.2.1.InBlock size) (hview : start.2.2.storage.mem = m) (hstart : P start.1)
    (hstep : ∀ o, P o → o < endOffset → tagAt m o ≠ tagEmpty → P (o + 4 + sizeAt m o))
    (hx : (loopRounds build (fetchRaw build (tlvFlash Flash.storage startOffset endOffset)) block
      (ramTlv size mfgHeaderSize) start).Reachable x) : P x.1 := by
  have hwalks := @fetchRaw_walks Flash build (tlvFlash Flash.storage startOffset endOffset)
    Flash.mem m flash_readable hend
  induction hx with
  | init h =>
    cases h
    exact hstart
  | @step x y _ hreach _ hround ih =>
    have hviewX := (reachable_elements hsize hwalks hblock hview length_rawElements hreach).2.1
    have hpos := nextRound_pos hround
    rw [fetchRaw_flash hend, hviewX] at hpos
    split at hpos
    · next ho =>
      split at hpos
      · cases hpos
      · next ht =>
        simp only at hpos
        split at hpos
        · cases hpos
        · have heq : x.1 + 4 + sizeAt m x.1 = y.1 := Option.some.inj hpos
          rw [← heq]
          exact hstep x.1 ih ho ht
    · cases hpos

/-- A round changes the flash by what it fetches. -/
theorem storage_copyRound {σ α : Type} {fetch : α → σ → Fetched α × σ} {block : Nat}
    {ramCtx : TlvCtx RamCopy} {x : LoopState α σ} :
    (∃ y, copyRound build fetch block ramCtx x.1 x.2.1 x.2.2 = .inl y ∧
      y.2.2.storage = (fetch x.1 x.2.2.storage).2) ∨
    ∃ ended, copyRound build fetch block ramCtx x.1 x.2.1 x.2.2 = .inr ended ∧
      ended.2.storage = (fetch x.1 x.2.2.storage).2 := by
  unfold copyRound
  rcases fetch x.1 x.2.2.storage with ⟨fetched, s⟩
  cases fetched with
  | stop => exact .inr ⟨_, rfl, rfl⟩
  | failed => exact .inr ⟨_, rfl, rfl⟩
  | undefined => exact .inr ⟨_, rfl, rfl⟩
  | skip next => exact .inl ⟨_, rfl, rfl⟩
  | element tag payload next =>
    have hstorage : (storeElement build block ramCtx tag payload x.2.1
        { x.2.2 with storage := s }).2.storage = s := by
      unfold storeElement
      split
      · simp only
        split
        · rfl
        · rfl
      · simp only
        split
        · rfl
        · split
          · rfl
          · split
            · rfl
            · rfl
    simp only
    rcases hstore : storeElement build block ramCtx tag payload x.2.1
      { x.2.2 with storage := s } with ⟨ram | outcome, host⟩
    · rw [hstore] at hstorage
      exact .inl ⟨_, rfl, hstorage⟩
    · rw [hstore] at hstorage
      exact .inr ⟨_, rfl, hstorage⟩

/-- The reads of a loop stay inside exactly if those of all its rounds do. -/
theorem readsInside_copyLoop (hsize : size + 65544 ≤ 2 ^ 32)
    (hend : endOffset + 65544 ≤ 2 ^ 32) {block fuel : Nat} {x : LoopState Nat Flash}
    (hfuel : endOffset - x.1 < fuel) (hblock : x.2.1.InBlock size) (hpos : startOffset ≤ x.1)
    (hview : x.2.2.storage.mem = m) :
    ReadsInside build startOffset endOffset
        (copyLoop build (fetchRaw build (tlvFlash Flash.storage startOffset endOffset)) block
          (ramTlv size mfgHeaderSize) fuel x.1 x.2.1 x.2.2).2.storage ↔
      ReadsInside build startOffset endOffset x.2.2.storage ∧
        ∀ y, (loopRounds build (fetchRaw build (tlvFlash Flash.storage startOffset endOffset))
          block (ramTlv size mfgHeaderSize) x).Reachable y → FetchInside build m endOffset y.1 := by
  induction fuel generalizing x with
  | zero => exact absurd hfuel (Nat.not_lt_zero _)
  | succ fuel ih =>
    have hwalks := @fetchRaw_walks Flash build (tlvFlash Flash.storage startOffset endOffset)
      Flash.mem m flash_readable hend
    have hround := @round_spec Flash Nat build _ Flash.mem m _ _ block size hsize hwalks x hblock
      hview length_rawElements
    have hhere := @readsInside_fetch build m startOffset endOffset hend x.1 hpos x.2.2.storage hview
    rw [System.forall_orbit_iff]
    unfold copyLoop
    obtain ⟨y, hy, hstorage⟩ | ⟨ended, hended, hstorage⟩ := @storage_copyRound build Flash Nat
      (fetchRaw build (tlvFlash Flash.storage startOffset endOffset)) block
      (ramTlv size mfgHeaderSize) x
    · have hnext : nextRound build
          (fetchRaw build (tlvFlash Flash.storage startOffset endOffset)) block
          (ramTlv size mfgHeaderSize) x = some y := congrArg Sum.getLeft? hy
      have hle := le_nextRound hend hnext
      rw [hy] at hround ⊢
      simp only [hnext, Option.some.injEq, forall_eq']
      cases hround with
      | next front hends hrank hlater hstop hfits hviewY =>
        change endOffset - y.1 < endOffset - x.1 at hrank
        rw [ih (by omega) (hblock.follows hlater) (by omega) hviewY, hstorage, hhere, and_assoc]
    · have hlast : nextRound build
          (fetchRaw build (tlvFlash Flash.storage startOffset endOffset)) block
          (ramTlv size mfgHeaderSize) x = none := congrArg Sum.getLeft? hended
      rw [hended]
      simp only [hlast, hstorage, hhere, reduceCtorEq, false_implies, implies_true, and_true]

/-- What follows the loop reads nothing of the flash. -/
theorem readsInside_storeCopy {block : Nat} {ram : RamCopy} {host : Host Flash} :
    ReadsInside build startOffset endOffset
        (storeCopy build block (tlvFlash Flash.storage startOffset endOffset) ram
          host).2.storage ↔ ReadsInside build startOffset endOffset host.storage := by
  have hwritten (f : Flash) (o : Nat) (bs : List UInt8) :
      ReadsInside build startOffset endOffset (f.write o bs).2 ↔
        ReadsInside build startOffset endOffset f := by
    unfold ReadsInside Flash.write
    simp only [List.mem_cons, reduceCtorEq, false_or]
  have herased (f : Flash) (o n : Nat) :
      ReadsInside build startOffset endOffset (f.erase o n).2 ↔
        ReadsInside build startOffset endOffset f := by
    unfold ReadsInside Flash.erase
    simp only [List.mem_cons, reduceCtorEq, false_or]
  unfold storeCopy
  simp only
  split
  · rfl
  · split
    · rfl
    · split
      · rfl
      · have hstorage : (tlvFlash Flash.storage startOffset endOffset).storageImpl =
          Flash.storage := rfl
        rw [hstorage]
        exact (hwritten _ _ _).trans (herased _ _ _)

theorem readsInside_behindLoop {block : Nat} {result : CopyEnd × Host Flash} :
    ReadsInside build startOffset endOffset (behindLoop build block
        (tlvFlash Flash.storage startOffset endOffset) result).2.storage ↔
      ReadsInside build startOffset endOffset result.2.storage := by
  obtain ⟨_ | _, host⟩ := result
  · exact readsInside_storeCopy
  · exact Iff.rfl

end Rounds

/-! ## The whole call -/

section Call

variable {build : Build} {platform : Platform} {m : Mem} {size startOffset endOffset : Nat}

/-- A call that comes to its loop returns exactly if every round ends, and the search for the slot
of the flags record stays inside the block. -/
theorem returns_loop {σ α : Type} {fetch : α → σ → Fetched α × σ} {tlv : TlvCtx σ}
    {view : σ → Mem} {elements : α → List Element} {rank : α → Nat} {block : Nat}
    {x : LoopState α σ} (hs : Readable tlv.storageImpl view)
    (hend : tlv.endOffset + 65544 ≤ 2 ^ 32)
    (hmarker : tlv.tlvStorageStartMarkerSize = mfgHeaderSize)
    (hw : Walks build fetch view m elements rank) (hrank : rank x.1 < loopFuel)
    (hblock : x.2.1.InBlock (tlv.endOffset - tlv.startOffset)) (hview : view x.2.2.storage = m)
    (hlen : ∀ element ∈ elements x.1, element.2.length < 65536) :
    (behindLoop build block tlv
        (copyLoop build fetch block (ramTlv (tlv.endOffset - tlv.startOffset) mfgHeaderSize)
          loopFuel x.1 x.2.1 x.2.2)).1.Returns ↔
      ∀ y, (loopRounds build fetch block
          (ramTlv (tlv.endOffset - tlv.startOffset) mfgHeaderSize) x).Reachable y →
        Ends build fetch (tlv.endOffset - tlv.startOffset) y ∧
          ((fetch y.1 y.2.2.storage).1 = .stop → LeavesHeader
            (Mfg.ramTlv (tlv.endOffset - tlv.startOffset) mfgHeaderSize) y.2.1.mem) := by
  have hloop := @copyLoop_spec σ α build fetch view m elements rank block
    (tlv.endOffset - tlv.startOffset) (by omega) hw loopFuel x hrank hblock hview hlen
  generalize copyLoop build fetch block (ramTlv (tlv.endOffset - tlv.startOffset) mfgHeaderSize)
    loopFuel x.1 x.2.1 x.2.2 = copied at hloop
  obtain ⟨ended, host⟩ := copied
  cases ended with
  | exit outcome =>
    have hstops := (hloop.stops fun _ => False).mp fun ram h => by cases h
    exact hloop.returns.trans ⟨fun hends y hy => ⟨hends y hy, fun h => (hstops y hy h).elim⟩,
      fun h y hy => (h y hy).1⟩
  | done ram =>
    obtain ⟨-, hlater, -⟩ := hloop.done ram rfl
    have hends := hloop.returns.mp trivial
    have hstops := hloop.stops fun ram =>
      LeavesHeader (Mfg.ramTlv (tlv.endOffset - tlv.startOffset) mfgHeaderSize) ram.mem
    have hreturns : (storeCopy build block tlv ram host).1.Returns ↔
        LeavesHeader (Mfg.ramTlv (tlv.endOffset - tlv.startOffset) mfgHeaderSize) ram.mem := by
      obtain ⟨hleaves, hstore⟩ | ⟨hleaves, code, host', hstore, -⟩ :=
        @storeCopy_spec σ build tlv view block hs hmarker hend ram (hblock.follows hlater) host
      · rw [hstore]
        exact iff_of_false id hleaves
      · rw [hstore]
        exact iff_of_true trivial hleaves
    refine hreturns.trans ?_
    constructor
    · intro hleaves y hy
      exact ⟨hends y hy, hstops.mp (fun ram' h => by cases h; exact hleaves) y hy⟩
    · exact fun h => hstops.mpr (fun y hy => (h y hy).2) ram rfl

/-- A round is in bounds if it ends, reads inside the partition, and stays inside the block. -/
theorem inBounds_iff (hend : endOffset + 65544 ≤ 2 ^ 32) {x : LoopState Nat Flash}
    (hview : x.2.2.storage.mem = m) :
    InBounds build m size endOffset x ↔
      (Ends build (fetchRaw build (tlvFlash Flash.storage startOffset endOffset)) size x ∧
        ((fetchRaw build (tlvFlash Flash.storage startOffset endOffset) x.1
          x.2.2.storage).1 = .stop → LeavesHeader (Mfg.ramTlv size mfgHeaderSize) x.2.1.mem)) ∧
      FetchInside build m endOffset x.1 := by
  unfold Ends FetchInside
  rw [fetchRaw_flash hend, hview]
  by_cases ho : x.1 < endOffset
  · rw [if_pos ho]
    by_cases hempty : tagAt m x.1 = tagEmpty
    · rw [if_pos hempty]
      constructor
      · intro h
        exact ⟨⟨⟨nofun, nofun⟩, fun _ => h.last (.inr hempty)⟩,
          fun _ => ⟨h.tag ho, fun hne => absurd hempty hne⟩⟩
      · rintro ⟨⟨-, hlast⟩, hinside⟩
        exact ⟨fun _ => (hinside ho).1, fun _ hne => absurd hempty hne, fun _ => hlast rfl⟩
    · rw [if_neg hempty]
      by_cases hmax : build.maxElementSize < sizeAt m x.1
      · simp only [if_pos hmax]
        refine iff_of_false (fun h => ?_) fun h => h.1.1.1 rfl
        exact absurd (h.element ho hempty).2.1 (Nat.not_le.mpr hmax)
      · have hfits := Nat.not_lt.mp hmax
        simp only [if_neg hmax, Fetched.element.injEq]
        constructor
        · intro h
          obtain ⟨hpayload, -, hstays⟩ := h.element ho hempty
          refine ⟨⟨⟨nofun, ?_⟩, nofun⟩,
            fun _ => ⟨h.tag ho, fun _ => ⟨hpayload, .inr hfits⟩⟩⟩
          rintro tag payload next ⟨rfl, rfl, rfl⟩ hkey
          rw [Mem.length_slice]
          exact hstays hkey
        · rintro ⟨⟨⟨-, hstays⟩, -⟩, hinside⟩
          obtain ⟨htag, hpayload⟩ := hinside ho
          refine ⟨fun _ => htag, fun _ _ => ⟨(hpayload hempty).1, hfits, fun hkey => ?_⟩, ?_⟩
          · have hcopied := hstays _ _ _ ⟨rfl, rfl, rfl⟩ hkey
            rwa [Mem.length_slice] at hcopied
          · exact fun h => absurd h (not_or.mpr ⟨Nat.not_le.mpr ho, hempty⟩)
  · rw [if_neg ho]
    constructor
    · intro h
      exact ⟨⟨⟨nofun, nofun⟩, fun _ => h.last (.inl (Nat.not_lt.mp ho))⟩,
        fun hlt => absurd hlt ho⟩
    · rintro ⟨⟨-, hlast⟩, -⟩
      exact ⟨fun hlt => absurd hlt ho, fun hlt => absurd hlt ho, fun _ => hlast rfl⟩

/-- The parser is safe on exactly those partitions that hold its header and in which every round
that its loop comes to is in bounds, or where it has no RAM copy. -/
theorem safe_iff (build : Build) (platform : Platform) (hend : endOffset + 65544 ≤ 2 ^ 32) (m : Mem)
    (heap : Heap) (imports : Nat → Int) :
    Safe build startOffset endOffset
        (parseMfgRawTlv build platform (fun _ => 0) (tlvFlash Flash.storage startOffset endOffset)
          ⟨m, []⟩ heap imports) ↔
      (startOffset < endOffset → platform.malloc (endOffset - startOffset) = true →
        mfgHeaderSize ≤ endOffset - startOffset ∧
          ∀ x, (loopRounds build
              (fetchRaw build (tlvFlash Flash.storage startOffset endOffset)) heap.allocated.length
              (ramTlv (endOffset - startOffset) mfgHeaderSize)
              (firstRound platform (fun _ => 0) (endOffset - startOffset)
                (startOffset + mfgHeaderSize) ⟨m, []⟩ heap imports)).Reachable x →
            InBounds build m (endOffset - startOffset) endOffset x) := by
  have hnone : ReadsInside build startOffset endOffset ⟨m, []⟩ :=
    fun _ _ hmem => absurd hmem List.not_mem_nil
  by_cases hcopy : HasCopy platform (fun _ => 0) (tlvFlash Flash.storage startOffset endOffset)
  · have hlt : startOffset < endOffset := hcopy.partition
    have halloc : platform.malloc (endOffset - startOffset) = true := hcopy.memory
    have hfirst : (tlvFlash Flash.storage startOffset endOffset).firstOffset =
        startOffset + mfgHeaderSize := by
      refine u32_of_lt ?_
      change startOffset + 8 < 2 ^ 32
      omega
    simp only [hlt, halloc, true_implies]
    unfold parseMfgRawTlv
    rw [hfirst]
    by_cases hfits : mfgHeaderSize ≤ endOffset - startOffset
    · rw [migrate_loop hcopy hfits]
      have hwalks := @fetchRaw_walks Flash build (tlvFlash Flash.storage startOffset endOffset)
        Flash.mem m flash_readable hend
      have hsize : endOffset - startOffset + 65544 ≤ 2 ^ 32 := by omega
      have hblock : (firstRound platform (fun _ => 0) (endOffset - startOffset)
          (startOffset + mfgHeaderSize) (Flash.mk m []) heap imports).2.1.InBlock
          (endOffset - startOffset) := ⟨rfl, rfl⟩
      have hreturns := @returns_loop build m Flash Nat _
        (tlvFlash Flash.storage startOffset endOffset) Flash.mem _ _ heap.allocated.length
        (firstRound platform (fun _ => 0) (endOffset - startOffset) (startOffset + mfgHeaderSize)
          ⟨m, []⟩ heap imports) flash_readable hend rfl hwalks
        (by change endOffset - (startOffset + mfgHeaderSize) < loopFuel; unfold loopFuel; omega)
        hblock rfl length_rawElements
      have hinside := @readsInside_copyLoop build m (endOffset - startOffset) startOffset endOffset
        hsize hend heap.allocated.length loopFuel
        (firstRound platform (fun _ => 0) (endOffset - startOffset) (startOffset + mfgHeaderSize)
          ⟨m, []⟩ heap imports)
        (by change endOffset - (startOffset + mfgHeaderSize) < loopFuel; unfold loopFuel; omega)
        hblock (Nat.le_add_right _ _) rfl
      have hview := fun x hx => (@reachable_elements Flash Nat build _ Flash.mem m _ _
        heap.allocated.length (endOffset - startOffset)
        (firstRound platform (fun _ => 0) (endOffset - startOffset) (startOffset + mfgHeaderSize)
          ⟨m, []⟩ heap imports) x hsize hwalks hblock rfl length_rawElements hx).2.1
      refine Iff.trans ?_ (and_iff_right hfits).symm
      constructor
      · rintro ⟨hreturned, hread⟩ x hx
        refine (inBounds_iff hend (hview x hx)).mpr ⟨hreturns.mp hreturned x hx, ?_⟩
        exact (hinside.mp (readsInside_behindLoop.mp hread)).2 x hx
      · intro hbounds
        have hround := fun x hx => (@inBounds_iff build m (endOffset - startOffset) startOffset
          endOffset hend x (hview x hx)).mp (hbounds x hx)
        refine ⟨hreturns.mpr fun x hx => (hround x hx).1, readsInside_behindLoop.mpr ?_⟩
        exact hinside.mpr ⟨hnone, fun x hx => (hround x hx).2⟩
    · rw [migrate_overrun hcopy (Nat.not_le.mp hfits)]
      exact iff_of_false (fun h => h.returns) fun h => hfits h.1
  · obtain ⟨code, heap', hmigrate, -⟩ := @migrate_early Flash Nat build platform (fun _ => 0)
      (fetchRaw build (tlvFlash Flash.storage startOffset endOffset))
      (tlvFlash Flash.storage startOffset endOffset).firstOffset
      (tlvFlash Flash.storage startOffset endOffset) ⟨m, []⟩ heap imports hcopy
    unfold parseMfgRawTlv
    rw [hmigrate]
    exact iff_of_true ⟨trivial, hnone⟩ fun hlt halloc => absurd ⟨hlt, halloc, rfl, rfl⟩ hcopy

end Call

/-- The rounds over the two elements of a partition of 64 bytes stay inside it. -/
theorem inside_two {block : Nat} {start x : LoopState Nat Flash} (hblock : start.2.1.InBlock 64)
    (hview : start.2.2.storage.mem = twoElements.mem) (hstart : start.1 = 8)
    (hx : (loopRounds defaultBuild (fetchRaw defaultBuild (tlvFlash Flash.storage 0 64)) block
      (ramTlv 64 mfgHeaderSize) start).Reachable x) :
    x.2.2.storage.mem = twoElements.mem ∧ FetchInside defaultBuild twoElements.mem 64 x.1 := by
  have hwalks := @fetchRaw_walks Flash defaultBuild (tlvFlash Flash.storage 0 64) Flash.mem
    twoElements.mem flash_readable (by decide)
  have hoffset : x.1 = 8 ∨ x.1 = 16 ∨ x.1 = 23 := by
    refine offset_invariant (P := fun o => o = 8 ∨ o = 16 ∨ o = 23) (by decide) (by decide) hblock
      hview (.inl hstart) ?_ hx
    rintro o (rfl | rfl | rfl) - htag
    · exact .inr (.inl (by decide +kernel))
    · exact .inr (.inr (by decide +kernel))
    · exact absurd (by decide +kernel) htag
  have hinside : ∀ o, o = 8 ∨ o = 16 ∨ o = 23 →
      FetchInside defaultBuild twoElements.mem 64 o := by
    rintro o (rfl | rfl | rfl) -
    · exact ⟨by decide, fun _ => ⟨by decide +kernel, .inr (by decide +kernel)⟩⟩
    · exact ⟨by decide, fun _ => ⟨by decide +kernel, .inr (by decide +kernel)⟩⟩
    · exact ⟨by decide, fun htag => absurd (by decide +kernel) htag⟩
  exact ⟨(reachable_elements (by decide) hwalks hblock hview length_rawElements hx).2.1,
    hinside x.1 hoffset⟩

/-- The two elements are parsed safely. -/
theorem safe_iff_two : Safe defaultBuild 0 64 (parseMfgRawTlv defaultBuild calmPlatform (fun _ => 0)
    (tlvFlash Flash.storage 0 64) twoElements Heap.empty fun _ => 0) := by
  refine (safe_iff defaultBuild calmPlatform (by decide) twoElements.mem Heap.empty
    fun _ => 0).mpr fun hlt halloc => ⟨by decide, fun x hx => ?_⟩
  have hharmless := ((two_harmless fun _ => 0) ⟨hlt, halloc, rfl, rfl⟩).2 x hx
  obtain ⟨hview, hinside⟩ := @inside_two _ (firstRound calmPlatform (fun _ => 0) 64 8 twoElements
    Heap.empty fun _ => 0) x ⟨rfl, rfl⟩ rfl rfl hx
  exact (@inBounds_iff defaultBuild twoElements.mem 64 0 64 (by decide) x hview).mpr
    ⟨⟨hharmless.ends, hharmless.scanned⟩, hinside⟩

/-- A partition of 24 bytes with one element, of which 16 bytes are announced and 12 are there. -/
def truncatedElement : Mem :=
  Mem.blit (fun _ => 0xFF) 0 (mfgHeader ++ [0, 1, 0, 16])

/-- The payload of a truncated element is read across the end of the partition. -/
theorem truncated_element_read_outside : ¬Safe defaultBuild 0 24
    (parseMfgRawTlv defaultBuild calmPlatform (fun _ => 0) (tlvFlash Flash.storage 0 24)
      ⟨truncatedElement, []⟩ Heap.empty fun _ => 0) := by
  intro h
  have hread : Request.read 12 16 ∈ (parseMfgRawTlv defaultBuild calmPlatform (fun _ => 0)
      (tlvFlash Flash.storage 0 24) ⟨truncatedElement, []⟩ Heap.empty
      fun _ => 0).2.storage.requests := by decide +kernel
  exact absurd (h.inside 12 16 hread).2.1 (by decide)

end Sidewalk.Mfg.Failing
