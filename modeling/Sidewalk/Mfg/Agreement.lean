import Sidewalk.Mfg.Intact

/-!
# The parsers in their block

Where no call fails, a parser with its RAM copy in a block of the size of the partition does what
the parser with an unbounded copy does, unless it leaves the block (`parseMfgRawTlv_agrees`,
`parseMfgConstOffsets_agrees`). With it, images that the buffer and the partition hold are
migrated inside the block (`rawTlv_migrated`, `constOffsets_migrated`).
-/

namespace Sidewalk.Mfg.Failing

open Sidewalk.Lib Sidewalk.Tlv

/-! ## One element -/

/-- No write into the RAM copy will fail. -/
def RamCopy.Sound (ram : RamCopy) : Prop := ∀ n, ram.faults n = 0

theorem RamCopy.Sound.follows {ram ram' : RamCopy} (h : ram.Sound) (hlater : ram.Follows ram') :
    ram'.Sound := by
  obtain ⟨k, hk⟩ := hlater.faults
  intro n
  rw [hk, h (n + k)]

section Sound

variable {σ α : Type} {build : Build} {platform : Platform} {block size : Nat} {tlv : TlvCtx σ}
  {view : σ → Mem} {m : Mem} {elements : α → List Element} {rank : α → Nat}

/-- A loop has left the block of its copy, or has ended as one with an unbounded copy does. -/
def Agrees (size : Nat) (result : CopyEnd × Host σ) (clean : Mfg.CopyEnd × σ) : Prop :=
  result.1 = .exit .undefined ∨ result.2.storage = clean.2 ∧
    match result.1, clean.1 with
    | .done ram, .done mem => ram.mem = mem ∧ ram.Sound ∧ ram.InBlock size
    | .exit outcome, .exit outcome' => outcome = outcome'
    | _, _ => False

theorem storeElement_sound
    (hcalm : ∀ id payload, platform.cryptoKeysNewImport id payload = 0)
    (hsize : size + 65544 ≤ 2 ^ 32) {ram : RamCopy} (hsound : ram.Sound)
    (hblock : ram.InBlock size) {host : Host σ} (himports : ∀ n, host.imports n = 0)
    {tag : UInt16} {payload : List UInt8} (hlen : payload.length < 65536) :
    Agrees size (storeElement build block (ramTlv size mfgHeaderSize) tag payload ram host)
        (Mfg.storeElement build platform (Mfg.ramTlv size mfgHeaderSize) tag payload ram.mem,
          host.storage) ∧
      ∀ n, (storeElement build block (ramTlv size mfgHeaderSize) tag payload ram host).2.imports
        n = 0 := by
  cases hkey : build.keyIdOf tag with
  | some id =>
    have himport : host.cryptoKeysNewImport.1 = 0 := himports 0
    simp only [storeElement, Mfg.storeElement, hkey, himport, hcalm id payload, ne_eq,
      not_true_eq_false, if_false]
    exact ⟨.inr ⟨rfl, rfl, hsound, hblock⟩, fun n => himports (n + 1)⟩
  | none =>
    have hstore := @tlvWrite_store size tag payload ram hsize hlen hblock
    unfold storeElement
    rw [hkey]
    simp only
    generalize tlvWrite (ramTlv size mfgHeaderSize) ram tag payload = r at hstore ⊢
    cases hstore with
    | overrun hstays hover =>
      rw [if_pos hover]
      exact ⟨.inl rfl, himports⟩
    | @refused ret ram' hstays hfits hret hlater =>
      -- Nothing fails, so there is no room.
      have hfull : size < ramSlot ram.mem size + recordSize payload.length := by
        by_contra hroom
        have hin := Nat.not_lt.mp hroom
        by_cases hshort : payload.length ≤ 65532
        · exact hfits ⟨hshort, hin, fun n _ => hsound n⟩
        · exact hstays.2 ⟨Nat.not_le.mp hshort, hin, fun n _ => hsound n⟩
      have hpad := paddedSize_lt payload.length
      obtain ⟨mem, hclean, -⟩ := tlvWrite_full (ramTlv_faultFree size mfgHeaderSize)
        (ramTlv_noWrap hsize) ram.mem tag payload
        (by change size + recordSize payload.length < 2 ^ 32; unfold recordSize headerSize; omega)
        hfull
      have hrefused : Mfg.storeElement build platform (Mfg.ramTlv size mfgHeaderSize) tag payload
          ram.mem = .exit (.ret (-eio)) := by
        simp only [Mfg.storeElement, hkey, hclean]
        rw [if_pos (by decide)]
      simp only [hlater.overrun, hblock.overrun, Bool.false_eq_true, if_false, if_pos hret,
        hrefused]
      exact ⟨.inr ⟨rfl, rfl⟩, himports⟩
    | @done ram' hstays hfits hlater hmem =>
      have hstored := @storeElement_fits build platform size hsize tag payload hkey hfits.1
        ram.mem hfits.2.1
      simp only [hlater.overrun, hblock.overrun, Bool.false_eq_true, if_false, ne_eq,
        not_true_eq_false, hstored]
      exact ⟨.inr ⟨rfl, hmem, hsound.follows hlater, hblock.follows hlater⟩, himports⟩

/-- One element more, and the rest of a loop that agrees. -/
theorem Agrees.element
    (hcalm : ∀ id payload, platform.cryptoKeysNewImport id payload = 0)
    (hsize : size + 65544 ≤ 2 ^ 32) (host : Host σ) {ram : RamCopy} (hsound : ram.Sound)
    (hblock : ram.InBlock size) (himports : ∀ n, host.imports n = 0) {tag : UInt16}
    {payload : List UInt8} (hlen : payload.length < 65536)
    {later : RamCopy → Host σ → CopyEnd × Host σ} {cleanLater : Mem → Mfg.CopyEnd × σ}
    (hlater : ∀ ram' host', RamCopy.Sound ram' → ram'.InBlock size → (∀ n, host'.imports n = 0) →
      host'.storage = host.storage → Agrees size (later ram' host') (cleanLater ram'.mem)) :
    Agrees size
      (match storeElement build block (ramTlv size mfgHeaderSize) tag payload ram host with
        | (.exit outcome, host) => (.exit outcome, host)
        | (.done ram, host) => later ram host)
      (match Mfg.storeElement build platform (Mfg.ramTlv size mfgHeaderSize) tag payload
          ram.mem with
        | .exit outcome => (.exit outcome, host.storage)
        | .done mem => cleanLater mem) := by
  obtain ⟨hagrees, himports'⟩ := @storeElement_sound σ build platform block size hcalm hsize ram
    hsound hblock host himports tag payload hlen
  generalize storeElement build block (ramTlv size mfgHeaderSize) tag payload ram host = result
    at *
  generalize Mfg.storeElement build platform (Mfg.ramTlv size mfgHeaderSize) tag payload ram.mem =
    clean at *
  obtain ⟨ended, host'⟩ := result
  obtain hundefined | ⟨hstorage, hends⟩ := hagrees
  · obtain rfl : ended = .exit .undefined := hundefined
    exact .inl rfl
  · cases ended with
    | done ram' =>
      cases clean with
      | done mem =>
        obtain ⟨rfl, hsound', hblock'⟩ := hends
        exact hlater ram' host' hsound' hblock' himports' hstorage
      | exit outcome => exact hends.elim
    | exit outcome =>
      cases clean with
      | done mem => exact hends.elim
      | exit outcome' =>
        cases hends
        exact .inr ⟨hstorage, rfl⟩

/-! ## The loops -/

/-- What a loop without failures makes of what a round has read. -/
def cleanRound (build : Build) (platform : Platform) (ramCtx : TlvCtx Mem)
    (later : α → Mem → σ → Mfg.CopyEnd × σ) (ram : Mem) : Fetched α × σ → Mfg.CopyEnd × σ
  | (.stop, s) => (.done ram, s)
  | (.failed, s) => (.exit (.ret (-eio)), s)
  | (.undefined, s) => (.exit .undefined, s)
  | (.skip pos, s) => later pos ram s
  | (.element tag payload pos, s) =>
    match Mfg.storeElement build platform ramCtx tag payload ram with
    | .exit outcome => (.exit outcome, s)
    | .done ram => later pos ram s

section Loops

variable (hcalm : ∀ id payload, platform.cryptoKeysNewImport id payload = 0)
  (hsize : size + 65544 ≤ 2 ^ 32)

include hcalm hsize in
/-- A loop whose next rounds agree agrees with this one too. -/
theorem copyLoop_agrees {fetch : α → σ → Fetched α × σ} {fuel : Nat}
    (hw : Walks build fetch view m elements rank) {pos : α} {ram : RamCopy} (hsound : ram.Sound)
    (hblock : ram.InBlock size) {host : Host σ} (himports : ∀ n, host.imports n = 0)
    (hview : view host.storage = m) (hlen : ∀ element ∈ elements pos, element.2.length < 65536)
    {later : α → Mem → σ → Mfg.CopyEnd × σ}
    (hlater : ∀ pos' ram' host', (fetch pos host.storage).1.nextPos = some pos' →
      RamCopy.Sound ram' → ram'.InBlock size → (∀ n, host'.imports n = 0) →
      view host'.storage = m → (∀ element ∈ elements pos', element.2.length < 65536) →
        Agrees size (copyLoop build fetch block (ramTlv size mfgHeaderSize) fuel pos' ram' host')
          (later pos' ram'.mem host'.storage)) :
    Agrees size (copyLoop build fetch block (ramTlv size mfgHeaderSize) (fuel + 1) pos ram host)
      (cleanRound build platform (Mfg.ramTlv size mfgHeaderSize) later ram.mem
        (fetch pos host.storage)) := by
  have hkept := hw.kept pos host.storage hview
  have hshows := hw.shows pos host.storage hview
  unfold copyLoop copyRound
  rcases hfetch : fetch pos host.storage with ⟨fetched, s⟩
  rw [hfetch] at hlater hkept hshows
  simp only at hkept hshows
  cases fetched with
  | stop => exact .inr ⟨rfl, rfl, hsound, hblock⟩
  | failed => exact .inr ⟨rfl, rfl⟩
  | undefined => exact .inl rfl
  | skip next =>
    refine hlater next ram { host with storage := s } rfl hsound hblock himports hkept ?_
    rw [← hshows.1]
    exact hlen
  | element tag payload next =>
    obtain ⟨hfirst, -, -⟩ := hshows
    rw [hfirst, List.forall_mem_cons] at hlen
    have hstore := @Agrees.element σ build platform block size hcalm hsize
      { host with storage := s } ram hsound hblock himports tag payload hlen.1
      (fun ram host => copyLoop build fetch block (ramTlv size mfgHeaderSize) fuel next ram host)
      (fun mem => later next mem s) fun ram' host' hsound' hblock' himports' hstorage => by
        have hnext := hlater next ram' host' rfl hsound' hblock' himports'
          ((congrArg view hstorage).trans hkept) hlen.2
        rw [hstorage] at hnext
        exact hnext
    simp only
    generalize storeElement build block (ramTlv size mfgHeaderSize) tag payload ram
      { host with storage := s } = stored at hstore ⊢
    rcases stored with ⟨_ | _, _⟩
    · exact hstore
    · exact hstore

theorem rawTlvLoop_round {read : σ → Nat → Nat → Int × List UInt8 × σ}
    (hread : tlv.storageImpl.read = some read) (ramCtx : TlvCtx Mem) (fuel offset : Nat)
    (ram : Mem) (s : σ) :
    rawTlvLoop build platform tlv.endOffset read ramCtx (fuel + 1) offset ram s =
      cleanRound build platform ramCtx
        (rawTlvLoop build platform tlv.endOffset read ramCtx fuel) ram
        (fetchRaw build tlv offset s) := by
  unfold rawTlvLoop fetchRaw
  rw [hread]
  by_cases ho : offset < tlv.endOffset
  · simp only [ho, if_true]
    rcases read s offset 2 with ⟨ret, key, s₁⟩
    simp only
    by_cases hret : ret = 0
    · rw [if_neg (not_not.mpr hret), if_neg (not_not.mpr hret)]
      by_cases hempty : beWord key = tagEmpty
      · rw [if_pos hempty, if_pos hempty]
        rfl
      · rw [if_neg hempty, if_neg hempty]
        rcases read s₁ (u32 (offset + 2)) 2 with ⟨ret₂, size, s₂⟩
        simp only
        by_cases hret₂ : ret₂ = 0
        · rw [if_neg (not_not.mpr hret₂), if_neg (not_not.mpr hret₂)]
          rcases read s₂ (u32 (u32 (offset + 2) + 2)) (beWord size).toNat with ⟨ret₃, payload, s₃⟩
          simp only
          by_cases hret₃ : ret₃ = 0
          · rw [if_neg (not_not.mpr hret₃), if_neg (not_not.mpr hret₃)]
            by_cases hmax : build.maxElementSize < (beWord size).toNat
            · rw [if_pos hmax, if_pos hmax]
              rfl
            · rw [if_neg hmax, if_neg hmax]
              rfl
          · rw [if_pos hret₃, if_pos hret₃]
            rfl
        · rw [if_pos hret₂, if_pos hret₂]
          rfl
    · rw [if_pos hret, if_pos hret]
      rfl
  · simp only [ho, if_false]
    rfl

theorem constOffsetsLoop_round {read : σ → Nat → Nat → Int × List UInt8 × σ}
    (hread : tlv.storageImpl.read = some read) (ramCtx : TlvCtx Mem) (element : ConstElement)
    (rest : List ConstElement) (ram : Mem) (s : σ) :
    constOffsetsLoop build platform tlv.startOffset read ramCtx (element :: rest) ram s =
      cleanRound build platform ramCtx
        (constOffsetsLoop build platform tlv.startOffset read ramCtx) ram
        (fetchConst build tlv (element :: rest) s) := by
  unfold fetchConst
  conv_lhs => unfold constOffsetsLoop
  rw [hread]
  rcases hrow : read s (u32 (tlv.startOffset + element.offset * wordSize)) element.size with
    ⟨ret, payload, s₁⟩
  simp only [hrow]
  by_cases hret : ret = 0
  · rw [if_neg (not_not.mpr hret), if_neg (not_not.mpr hret)]
    by_cases hmax : build.maxElementSize < element.size
    · rw [if_pos hmax, if_pos hmax]
      rfl
    · rw [if_neg hmax, if_neg hmax]
      by_cases hempty : maxFlashWriteLen < element.size ∨
          payload = List.replicate element.size 0xFF
      · rw [if_pos hempty, if_pos hempty]
        rfl
      · rw [if_neg hempty, if_neg hempty]
        rfl
  · rw [if_pos hret, if_pos hret]
    rfl

include hcalm hsize in
theorem rawTlvLoop_agrees (hs : Readable tlv.storageImpl view)
    (hend : tlv.endOffset + 65544 ≤ 2 ^ 32) {read : σ → Nat → Nat → Int × List UInt8 × σ}
    (hread : tlv.storageImpl.read = some read) (fuel offset : Nat) {ram : RamCopy}
    (hsound : ram.Sound) (hblock : ram.InBlock size) {host : Host σ}
    (himports : ∀ n, host.imports n = 0) (hview : view host.storage = m) :
    Agrees size
      (copyLoop build (fetchRaw build tlv) block (ramTlv size mfgHeaderSize) fuel offset ram host)
      (rawTlvLoop build platform tlv.endOffset read (Mfg.ramTlv size mfgHeaderSize) fuel offset
        ram.mem host.storage) := by
  induction fuel generalizing offset ram host with
  | zero => exact .inr ⟨rfl, rfl⟩
  | succ fuel ih =>
    rw [rawTlvLoop_round hread]
    refine copyLoop_agrees hcalm hsize (fetchRaw_walks hs hend) hsound hblock himports hview
      length_rawElements ?_
    intro offset' ram' host' _ hsound' hblock' himports' hview' _
    exact ih offset' hsound' hblock' himports' hview'

include hcalm hsize in
theorem constOffsetsLoop_agrees (hs : Readable tlv.storageImpl view)
    {read : σ → Nat → Nat → Int × List UInt8 × σ} (hread : tlv.storageImpl.read = some read)
    {fuel : Nat} (rows : List ConstElement) (hfuel : rows.length < fuel) {ram : RamCopy}
    (hsound : ram.Sound) (hblock : ram.InBlock size) {host : Host σ}
    (himports : ∀ n, host.imports n = 0) (hview : view host.storage = m)
    (hlen : ∀ element ∈ constElements m tlv.startOffset rows, element.2.length < 65536) :
    Agrees size
      (copyLoop build (fetchConst build tlv) block (ramTlv size mfgHeaderSize) fuel rows ram host)
      (constOffsetsLoop build platform tlv.startOffset read (Mfg.ramTlv size mfgHeaderSize) rows
        ram.mem host.storage) := by
  induction rows generalizing fuel ram host with
  | nil =>
    obtain ⟨fuel, rfl⟩ := Nat.exists_eq_succ_of_ne_zero (Nat.ne_of_gt hfuel)
    exact .inr ⟨rfl, rfl, hsound, hblock⟩
  | cons element rest ih =>
    obtain ⟨fuel, rfl⟩ := Nat.exists_eq_succ_of_ne_zero
      (Nat.ne_of_gt (Nat.lt_of_le_of_lt (Nat.zero_le _) hfuel))
    rw [constOffsetsLoop_round hread]
    refine copyLoop_agrees hcalm hsize (fetchConst_walks hs) hsound hblock himports hview hlen ?_
    intro rows' ram' host' hrows hsound' hblock' himports' hview' hlen'
    obtain rfl := fetchConst_next hrows
    exact ih (Nat.lt_of_succ_lt_succ hfuel) hsound' hblock' himports' hview' hlen'

end Loops

/-! ## The whole call -/

/-- What follows the loop leaves the block, or does what it does with an unbounded copy. -/
theorem storeCopy_sound (hmarker : tlv.tlvStorageStartMarkerSize = mfgHeaderSize)
    (hend : tlv.endOffset + 65544 ≤ 2 ^ 32) {ram : RamCopy} (hsound : ram.Sound)
    (hblock : ram.InBlock (tlv.endOffset - tlv.startOffset)) (host : Host σ) :
    (storeCopy build block tlv ram host).1 = .undefined ∨
      ((storeCopy build block tlv ram host).1, (storeCopy build block tlv ram host).2.storage) =
        Mfg.storeCopy build tlv ram.mem host.storage := by
  have hlen : build.migratedFlags.toBytes.length = mfgFlagsSize := rfl
  have hsize : tlv.endOffset - tlv.startOffset + 65544 ≤ 2 ^ 32 := by omega
  have hstore := @tlvWrite_store (tlv.endOffset - tlv.startOffset) mfgFlagsTypeId
    build.migratedFlags.toBytes ram hsize (by rw [hlen]; decide) hblock
  unfold storeCopy Mfg.storeCopy
  rw [hmarker]
  simp only
  generalize tlvWrite (ramTlv (tlv.endOffset - tlv.startOffset) mfgHeaderSize) ram mfgFlagsTypeId
    build.migratedFlags.toBytes = r at hstore ⊢
  cases hstore with
  | overrun hstays hover =>
    rw [if_pos hover]
    exact .inl rfl
  | @refused ret ram' hstays hfits hret hlater =>
    refine .inr ?_
    have hfull : tlv.endOffset - tlv.startOffset <
        ramSlot ram.mem (tlv.endOffset - tlv.startOffset) +
          recordSize build.migratedFlags.toBytes.length := by
      by_contra hroom
      exact hfits ⟨by rw [hlen]; decide, Nat.not_lt.mp hroom, fun n _ => hsound n⟩
    obtain ⟨mem, hclean, -⟩ := tlvWrite_full (ramTlv_faultFree _ mfgHeaderSize)
      (ramTlv_noWrap hsize) ram.mem mfgFlagsTypeId build.migratedFlags.toBytes
      (by
        change tlv.endOffset - tlv.startOffset + recordSize mfgFlagsSize < 2 ^ 32
        have hrec : recordSize mfgFlagsSize = 8 := rfl
        omega)
      hfull
    simp only [hlater.overrun, hblock.overrun, Bool.false_eq_true, if_false, if_pos hret, hclean]
    rw [if_pos (by decide)]
    rfl
  | @done ram' hstays hfits hlater hmem =>
    refine .inr ?_
    obtain ⟨mem, hclean, hblit⟩ := tlvWrite_fits (ramTlv_faultFree _ mfgHeaderSize)
      (ramTlv_noWrap hsize) ram.mem mfgFlagsTypeId build.migratedFlags.toBytes hfits.2.1
      (by rw [hlen]; decide)
    obtain rfl : ram'.mem = mem := hmem.trans hblit.symm
    simp only [hlater.overrun, hblock.overrun, Bool.false_eq_true, if_false, ne_eq,
      not_true_eq_false, hclean]
    cases tlv.storageImpl.erase with
    | none => rfl
    | some erase =>
      rcases herased : erase host.storage tlv.startOffset (tlv.endOffset - tlv.startOffset) with
        ⟨ret₁, s₁⟩
      simp only [herased]
      by_cases hret₁ : ret₁ = 0
      · rw [if_neg (not_not.mpr hret₁), if_neg (not_not.mpr hret₁)]
        cases tlv.storageImpl.write with
        | none => rfl
        | some write =>
          rcases hwritten : write s₁ tlv.startOffset
            (ram'.mem.slice 0 (tlv.endOffset - tlv.startOffset)) with ⟨ret₂, s₂⟩
          simp only [hwritten]
          by_cases hret₂ : ret₂ = 0
          · rw [if_neg (not_not.mpr hret₂), if_neg (not_not.mpr hret₂)]
            rfl
          · rw [if_pos hret₂, if_pos hret₂]
            rfl
      · rw [if_pos hret₁, if_pos hret₁]
        rfl

theorem migrate_agrees (hmarker : tlv.tlvStorageStartMarkerSize = mfgHeaderSize)
    (hend : tlv.endOffset + 65544 ≤ 2 ^ 32) {fetch : α → σ → Fetched α × σ} {start : α} {s : σ}
    {heap : Heap} {copyElements : TlvCtx Mem → Mem → σ → Mfg.CopyEnd × σ}
    (hloop : ∀ block host ram, RamCopy.Sound ram →
      ram.InBlock (tlv.endOffset - tlv.startOffset) → (∀ n, host.imports n = 0) →
      host.storage = s →
      Agrees (tlv.endOffset - tlv.startOffset)
        (copyLoop build fetch block (ramTlv (tlv.endOffset - tlv.startOffset) mfgHeaderSize)
          loopFuel start ram host)
        (copyElements (Mfg.ramTlv (tlv.endOffset - tlv.startOffset) mfgHeaderSize) ram.mem s)) :
    (migrate build platform (fun _ => 0) fetch start tlv s heap fun _ => 0).1 = .undefined ∨
      ((migrate build platform (fun _ => 0) fetch start tlv s heap fun _ => 0).1,
        (migrate build platform (fun _ => 0) fetch start tlv s heap fun _ => 0).2.storage) =
        Mfg.migrate build platform copyElements tlv s := by
  by_cases hcopy : HasCopy platform (fun _ => 0) tlv
  · by_cases hfits : mfgHeaderSize ≤ tlv.endOffset - tlv.startOffset
    · rw [migrate_loop hcopy hfits]
      have hwrite : tlvWriteStartMarker
          (Mfg.ramTlv (tlv.endOffset - tlv.startOffset) mfgHeaderSize)
          (platform.heap.fill 0 (tlv.endOffset - tlv.startOffset) 0xFF) mfgHeader =
          (0, freshCopy platform (tlv.endOffset - tlv.startOffset)) := rfl
      unfold Mfg.migrate
      rw [if_neg (Nat.not_le.mpr hcopy.partition)]
      simp only [hcopy.memory, Bool.true_eq_false, if_false, hmarker, hwrite, ne_eq,
        not_true_eq_false]
      have hrounds := hloop heap.allocated.length
        (firstRound platform (fun _ => 0) (tlv.endOffset - tlv.startOffset) start s heap
          fun _ => 0).2.2
        (firstRound platform (fun _ => 0) (tlv.endOffset - tlv.startOffset) start s heap
          fun _ => 0).2.1 (fun _ => rfl) ⟨rfl, rfl⟩ (fun _ => rfl) rfl
      change Agrees _ _ (copyElements _ (freshCopy platform (tlv.endOffset - tlv.startOffset)) s)
        at hrounds
      generalize copyLoop build fetch heap.allocated.length _ loopFuel start _ _ = result
        at hrounds ⊢
      generalize copyElements (Mfg.ramTlv (tlv.endOffset - tlv.startOffset) mfgHeaderSize)
        (freshCopy platform (tlv.endOffset - tlv.startOffset)) s = clean at hrounds ⊢
      obtain ⟨ended, host'⟩ := result
      obtain ⟨ended', s'⟩ := clean
      obtain hundefined | ⟨hstorage, hends⟩ := hrounds
      · obtain rfl : ended = .exit .undefined := hundefined
        exact .inl rfl
      · obtain rfl : host'.storage = s' := hstorage
        cases ended with
        | done ram =>
          cases ended' with
          | done mem =>
            obtain ⟨rfl, hsound, hblock⟩ := hends
            exact storeCopy_sound hmarker hend hsound hblock host'
          | exit outcome => exact hends.elim
        | exit outcome =>
          cases ended' with
          | done mem => exact hends.elim
          | exit outcome' =>
            cases hends
            exact .inr rfl
    · rw [migrate_overrun hcopy (Nat.not_le.mp hfits)]
      exact .inl rfl
  · refine .inr ?_
    unfold migrate Mfg.migrate
    by_cases hle : tlv.endOffset ≤ tlv.startOffset
    · rw [if_pos hle, if_pos hle]
    · rw [if_neg hle, if_neg hle]
      cases halloc : platform.malloc (tlv.endOffset - tlv.startOffset) with
      | false => simp only [halloc, Heap.malloc_false, if_true]
      | true => exact absurd ⟨Nat.not_le.mp hle, halloc, hmarker, rfl⟩ hcopy

section Calls

variable (hcalm : ∀ id payload, platform.cryptoKeysNewImport id payload = 0)
  (hs : Readable tlv.storageImpl view)
  (hmarker : tlv.tlvStorageStartMarkerSize = mfgHeaderSize)
  (hend : tlv.endOffset + 65544 ≤ 2 ^ 32) (s : σ) (heap : Heap)

include hcalm hs hmarker hend in
/-- Where no call fails, `parse_mfg_raw_tlv` leaves its block, or does what the parser with an
unbounded copy does. -/
theorem parseMfgRawTlv_agrees :
    (parseMfgRawTlv build platform (fun _ => 0) tlv s heap fun _ => 0).1 = .undefined ∨
      ((parseMfgRawTlv build platform (fun _ => 0) tlv s heap fun _ => 0).1,
        (parseMfgRawTlv build platform (fun _ => 0) tlv s heap fun _ => 0).2.storage) =
        Mfg.parseMfgRawTlv build platform tlv s := by
  obtain ⟨read, hread, -⟩ := hs.read
  refine migrate_agrees hmarker hend ?_
  rintro block host ram hsound hblock himports rfl
  rw [hread]
  exact rawTlvLoop_agrees hcalm (by omega) hs hend hread loopFuel tlv.firstOffset hsound hblock
    himports rfl

include hcalm hs hmarker hend in
/-- The same for `parse_mfg_const_offsets`. -/
theorem parseMfgConstOffsets_agrees :
    (parseMfgConstOffsets build platform (fun _ => 0) tlv s heap fun _ => 0).1 = .undefined ∨
      ((parseMfgConstOffsets build platform (fun _ => 0) tlv s heap fun _ => 0).1,
        (parseMfgConstOffsets build platform (fun _ => 0) tlv s heap fun _ => 0).2.storage) =
        Mfg.parseMfgConstOffsets build platform tlv s := by
  obtain ⟨read, hread, -⟩ := hs.read
  refine migrate_agrees hmarker hend ?_
  rintro block host ram hsound hblock himports rfl
  rw [hread]
  refine constOffsetsLoop_agrees hcalm (by omega) hs hread build.valueToOffsetTable ?_ hsound
    hblock himports rfl fun element hmem => ?_
  · change (offsetRows.map _).length < loopFuel
    rw [List.length_map]
    decide
  · exact Nat.lt_trans (constElements_rows element hmem).2.2.2 (by decide)

end Calls

end Sound

/-! ## Images with room -/

section Migrated

variable {σ : Type} {build : Build} {platform : Platform} {size : Nat} {tlv : TlvCtx σ}
  {view : σ → Mem}

theorem readable_of_faultFree (hs : FlashFaultFree tlv.storageImpl view) :
    Readable tlv.storageImpl view := by
  obtain ⟨read, himpl, hread⟩ := hs.read
  obtain ⟨write, hwrite, -⟩ := hs.write
  obtain ⟨erase, herase, -⟩ := hs.erase
  refine ⟨⟨read, himpl, fun s o n => ?_⟩, ⟨write, hwrite⟩, ⟨erase, herase⟩⟩
  obtain ⟨s', heq, hview⟩ := hread s o n
  rw [heq]
  exact ⟨hview, fun _ => rfl⟩

/-- Elements for which the copy has room are copied. -/
theorem copyAll_of_room (hcalm : ∀ id payload, platform.cryptoKeysNewImport id payload = 0)
    (hsize : size + 65544 ≤ 2 ^ 32) {all : List Element} {ram : Mem} {es : List Entry}
    (h : Filling size ram es) (htags : ∀ element ∈ all, element.1 ≠ emptyType)
    (hsized : Sized build all) (hmax : ∀ element ∈ all, element.2.length ≤ build.maxElementSize)
    (hroom : mfgHeaderSize + usedBy (es ++ all.filterMap build.copied) + headerSize ≤ size) :
    ∃ ram', copyAll build platform (Mfg.ramTlv size mfgHeaderSize) all ram = .done ram' := by
  induction all generalizing ram es with
  | nil => exact ⟨ram, rfl⟩
  | cons element rest ih =>
    obtain ⟨tag, payload⟩ := element
    unfold Sized at hsized
    rw [List.forall_mem_cons] at htags hsized hmax
    cases hkey : build.keyIdOf tag with
    | some id =>
      have himported : Mfg.storeElement build platform (Mfg.ramTlv size mfgHeaderSize) tag payload
          ram = .done ram := by
        simp only [Mfg.storeElement, hkey, hcalm, ne_eq, not_true_eq_false, if_false]
      have hnone : build.copied (tag, payload) = none :=
        dif_neg fun hc => by rw [hc.1] at hkey; cases hkey
      rw [List.filterMap_cons_none hnone] at hroom
      simp only [copyAll, Nat.not_lt.mpr hmax.1, if_false, himported]
      exact ih h htags.2 hsized.2 hmax.2 hroom
    | none =>
      obtain ⟨hpos, hshort⟩ := hsized.1 hkey
      have hcopied : build.copied (tag, payload) = some ⟨tag, payload, htags.1, hpos, hshort⟩ :=
        dif_pos ⟨hkey, htags.1, hpos, hshort⟩
      rw [List.filterMap_cons_some hcopied, List.append_cons] at hroom
      have hused : usedBy (es ++ [⟨tag, payload, htags.1, hpos, hshort⟩]) =
          usedBy es + recordSize payload.length := by
        rw [usedBy_append, usedBy_cons, usedBy_nil]
        rfl
      have hbefore := hroom
      rw [usedBy_append, hused] at hbefore
      have hfits : Mfg.ramSlot ram size + recordSize payload.length ≤ size := by
        rw [h.freeSlot_eq (by omega)]
        omega
      have hstore := @storeElement_fits build platform size hsize tag payload hkey
        (Nat.le_trans (Nat.le_of_lt hshort) (by decide)) ram hfits
      have hfilling := (h.append ⟨tag, payload, htags.1, hpos, hshort⟩ hfits)
      simp only [copyAll, Nat.not_lt.mpr hmax.1, if_false, hstore]
      exact ih (filling_of_stored hfilling.1 (.inr hfilling.2)) htags.2 hsized.2 hmax.2 hroom

/-- The copy of such elements leaves room for the flags record. -/
theorem copy_of_room (hcalm : ∀ id payload, platform.cryptoKeysNewImport id payload = 0)
    (hsize : size + 65544 ≤ 2 ^ 32) {all : List Element}
    (htags : ∀ element ∈ all, element.1 ≠ emptyType) (hsized : Sized build all)
    (hmax : ∀ element ∈ all, element.2.length ≤ build.maxElementSize)
    (hroom : HasRoom build size all) : ∃ ram,
      copyAll build platform (Mfg.ramTlv size mfgHeaderSize) all (freshCopy platform size) =
        .done ram ∧ Mfg.ramSlot ram size + recordSize mfgFlagsSize ≤ size := by
  have hrec : recordSize mfgFlagsSize = 8 := rfl
  have hhead : headerSize = 4 := rfl
  unfold HasRoom at hroom
  obtain ⟨ram, hcopy⟩ := copyAll_of_room hcalm hsize (freshCopy_filling platform size) htags hsized
    hmax (by rw [List.nil_append]; omega)
  refine ⟨ram, hcopy, ?_⟩
  rw [(filling_of_copyAll hsize htags hsized hcopy).freeSlot_eq (by omega)]
  exact hroom

/-- The partition holds the complete image, and every block is released once. -/
def Migrated (build : Build) (tlv : TlvCtx σ) (view : σ → Mem) (all : List Element) (heap : Heap)
    (result : Outcome × Host σ) : Prop :=
  result.1 = .ret 0 ∧
    (∃ ram, Complete build (tlv.endOffset - tlv.startOffset) ram all ∧
      Holding (view result.2.storage) tlv.startOffset (tlv.endOffset - tlv.startOffset) ram) ∧
    ∀ owned, heap.Accounts owned → result.2.heap.Accounts owned

/-- A call that leaves its partition intact has migrated what the one without a block has. -/
theorem migrated_of_agrees {all : List Element} {s s' : σ} {heap : Heap} {ram : Mem}
    {result : Outcome × Host σ} {plain : Outcome × σ}
    (hintact : LeavesIntact build tlv view all s heap result)
    (hagrees : result.1 = .undefined ∨ (result.1, result.2.storage) = plain)
    (hplain : plain = (.ret 0, s'))
    (hcomplete : Complete build (tlv.endOffset - tlv.startOffset) ram all)
    (hholding : Holding (view s') tlv.startOffset (tlv.endOffset - tlv.startOffset) ram) :
    Migrated build tlv view all heap result := by
  obtain hundefined | heq := hagrees
  · have hreturns := hintact.returns
    rw [hundefined] at hreturns
    exact hreturns.elim
  · rw [hplain] at heq
    obtain ⟨hret, hstorage⟩ := Prod.mk.inj heq
    refine ⟨hret, ⟨ram, hcomplete, ?_⟩, hintact.released⟩
    rw [hstorage]
    exact hholding

section Images

variable (hcalm : ∀ id payload, platform.cryptoKeysNewImport id payload = 0)
  (hs : FlashFaultFree tlv.storageImpl view)
  (hmarker : tlv.tlvStorageStartMarkerSize = mfgHeaderSize)
  (hend : tlv.endOffset + 65544 ≤ 2 ^ 32) (hlt : tlv.startOffset < tlv.endOffset)
  (halloc : platform.malloc (tlv.endOffset - tlv.startOffset) = true) (s : σ) (heap : Heap)

include hcalm hs hmarker hend hlt halloc in
/-- A raw image is migrated inside its block where the buffer holds its elements, those that are
copied have 1 to 255 bytes, the partition has room for the copy, and no call fails. -/
theorem rawTlv_migrated
    (hmax : ∀ element ∈ rawElements (view s) tlv.endOffset tlv.firstOffset,
      element.2.length ≤ build.maxElementSize)
    (hsized : Sized build (rawElements (view s) tlv.endOffset tlv.firstOffset))
    (hroom : HasRoom build (tlv.endOffset - tlv.startOffset)
      (rawElements (view s) tlv.endOffset tlv.firstOffset)) :
    Migrated build tlv view (rawElements (view s) tlv.endOffset tlv.firstOffset) heap
      (parseMfgRawTlv build platform (fun _ => 0) tlv s heap fun _ => 0) := by
  have hread := readable_of_faultFree hs
  have hsize : tlv.endOffset - tlv.startOffset + 65544 ≤ 2 ^ 32 := by omega
  have hintact := (@migrate_intact_iff σ Nat build platform (fun _ => 0) (fetchRaw build tlv)
    tlv.firstOffset tlv view s heap (fun _ => 0) _ _ hread hend (fetchRaw_walks hread hend)
    (by unfold loopFuel; omega) tag_rawElements length_rawElements).mpr
    (rawTlv_harmless hread hend hmax hsized hroom)
  obtain ⟨ram, hcopy, hfits⟩ := copy_of_room hcalm hsize tag_rawElements hsized hmax hroom
  obtain ⟨s', hplain, hholding⟩ := parseMfgRawTlv_fits hs hmarker hend hlt halloc hcopy hfits
  exact migrated_of_agrees hintact (parseMfgRawTlv_agrees hcalm hread hmarker hend s heap) hplain
    (complete_of_copyAll hsize tag_rawElements length_rawElements hsized hcopy hfits) hholding

include hcalm hs hmarker hend hlt halloc in
/-- An older image is migrated inside its block where the buffer holds the 64 bytes of its longest
elements, the partition has room for the copy, and no call fails. -/
theorem constOffsets_migrated (hmax : 64 ≤ build.maxElementSize)
    (hroom : HasRoom build (tlv.endOffset - tlv.startOffset)
      (constElements (view s) tlv.startOffset build.valueToOffsetTable)) :
    Migrated build tlv view (constElements (view s) tlv.startOffset build.valueToOffsetTable) heap
      (parseMfgConstOffsets build platform (fun _ => 0) tlv s heap fun _ => 0) := by
  have hread := readable_of_faultFree hs
  have hsize : tlv.endOffset - tlv.startOffset + 65544 ≤ 2 ^ 32 := by omega
  have hrow := @constElements_rows build tlv.startOffset (view s)
  have htags := fun element hmem => (hrow element hmem).1
  have hlen := fun element hmem =>
    Nat.lt_trans (hrow element hmem).2.2.2 (show 256 < 65536 by decide)
  have hsized : Sized build (constElements (view s) tlv.startOffset build.valueToOffsetTable) :=
    fun element hmem _ => (hrow element hmem).2.2
  have htable : ∀ row ∈ build.valueToOffsetTable, row.size ≤ build.maxElementSize := by
    have hrows : ∀ entry ∈ offsetRows, entry.2.1 ≤ 64 := by decide
    intro row hmem
    obtain ⟨entry, hentry, rfl⟩ := List.mem_map.mp hmem
    exact Nat.le_trans (hrows entry hentry) hmax
  have hshort : ∀ element ∈ constElements (view s) tlv.startOffset build.valueToOffsetTable,
      element.2.length ≤ build.maxElementSize := by
    intro element hmem
    obtain ⟨row, hrow, rfl⟩ := List.mem_map.mp (List.mem_of_mem_filter hmem)
    rw [Mem.length_slice]
    exact htable row hrow
  have hintact := (@migrate_intact_iff σ _ build platform (fun _ => 0) (fetchConst build tlv)
    build.valueToOffsetTable tlv view s heap (fun _ => 0) _ _ hread hend (fetchConst_walks hread)
    (by
      change (offsetRows.map _).length < loopFuel
      rw [List.length_map]
      decide) htags hlen).mpr (constOffsets_harmless hmax hread hend hroom)
  obtain ⟨ram, hcopy, hfits⟩ := copy_of_room hcalm hsize htags hsized hshort hroom
  obtain ⟨s', hplain, hholding⟩ :=
    parseMfgConstOffsets_fits hs hmarker hend hlt halloc htable hcopy hfits
  exact migrated_of_agrees hintact (parseMfgConstOffsets_agrees hcalm hread hmarker hend s heap)
    hplain (complete_of_copyAll hsize htags hlen hsized hcopy hfits) hholding

include hcalm hs hmarker hend hlt halloc in
/-- Either image is migrated inside the block. -/
theorem images_migrated :
    ((∀ element ∈ rawElements (view s) tlv.endOffset tlv.firstOffset,
        element.2.length ≤ build.maxElementSize) →
      Sized build (rawElements (view s) tlv.endOffset tlv.firstOffset) →
      HasRoom build (tlv.endOffset - tlv.startOffset)
        (rawElements (view s) tlv.endOffset tlv.firstOffset) →
      Migrated build tlv view (rawElements (view s) tlv.endOffset tlv.firstOffset) heap
        (parseMfgRawTlv build platform (fun _ => 0) tlv s heap fun _ => 0)) ∧
    (64 ≤ build.maxElementSize →
      HasRoom build (tlv.endOffset - tlv.startOffset)
        (constElements (view s) tlv.startOffset build.valueToOffsetTable) →
      Migrated build tlv view (constElements (view s) tlv.startOffset build.valueToOffsetTable) heap
        (parseMfgConstOffsets build platform (fun _ => 0) tlv s heap fun _ => 0)) :=
  ⟨rawTlv_migrated hcalm hs hmarker hend hlt halloc s heap,
    constOffsets_migrated hcalm hs hmarker hend hlt halloc s heap⟩

end Images

end Migrated

/-- Two elements are migrated, and so are the same bytes as an older image. -/
theorem images_migrated_two :
    Migrated defaultBuild (tlvFlash Flash.storage 0 64) Flash.mem
        (rawElements twoElements.mem 64 8) Heap.empty
        (parseMfgRawTlv defaultBuild calmPlatform (fun _ => 0) (tlvFlash Flash.storage 0 64)
          twoElements Heap.empty fun _ => 0) ∧
      Migrated defaultBuild (tlvFlash Flash.storage 0 64) Flash.mem
        (constElements twoElements.mem 0 defaultBuild.valueToOffsetTable) Heap.empty
        (parseMfgConstOffsets defaultBuild calmPlatform (fun _ => 0) (tlvFlash Flash.storage 0 64)
          twoElements Heap.empty fun _ => 0) := by
  obtain ⟨hraw, hconst⟩ := @images_migrated Flash defaultBuild calmPlatform
    (tlvFlash Flash.storage 0 64) Flash.mem (fun _ _ => rfl) Flash.faultFree rfl (by decide)
    (by decide) rfl twoElements Heap.empty
  refine ⟨hraw max_two sized_two room_two, hconst (by decide) ?_⟩
  unfold HasRoom
  decide +kernel

end Sidewalk.Mfg.Failing
