import Sidewalk.Mfg.FaultyCopy

/-!
# Migrations that fail

Whatever fails on the way, a parser that has not asked the storage to erase has changed nothing in
the partition, and one that has asked holds the whole image in RAM; the RAM copy is released once.
What breaks this is an element that a parser comes to and that its buffer cannot hold, one whose
length the RAM copy cannot write down, and a partition that the copy fills to its last bytes, as a
search for a free slot then leaves the block (`migrations_intact_iff`). Elements of 1 to 255 bytes
that fit the buffer, and the partition with the flags record behind them, are always migrated
without harm (`harmless_of_room`).
-/

namespace Sidewalk.Mfg.Failing

open Sidewalk.Lib Sidewalk.Tlv

variable {σ α : Type}

/-! ## What the rounds read -/

/-- Reads leave the content alone and deliver it where they succeed. What else the handlers do is
left open. -/
structure Readable (impl : TlvStorage σ) (view : σ → Mem) : Prop where
  read : ∃ read, impl.read = some read ∧ ∀ s o n, view (read s o n).2.2 = view s ∧
    ((read s o n).1 = 0 → (read s o n).2.1 = (view s).slice o n)
  write : ∃ write, impl.write = some write
  erase : ∃ erase, impl.erase = some erase

/-- What a round finds at a position is the first of the elements from there on. -/
def Fetched.Shows (elements : α → List Element) (rank : α → Nat) (maxElementSize : Nat) (pos : α) :
    Fetched α → Prop
  | .stop => elements pos = []
  | .failed => True
  | .undefined => True
  | .skip next => elements pos = elements next ∧ rank next < rank pos
  | .element tag payload next =>
    elements pos = (tag, payload) :: elements next ∧ rank next < rank pos ∧
      payload.length ≤ maxElementSize

/-- The rounds of a loop go along the elements of the partition. -/
structure Walks (build : Build) (fetch : α → σ → Fetched α × σ) (view : σ → Mem) (m : Mem)
    (elements : α → List Element) (rank : α → Nat) : Prop where
  kept : ∀ pos s, view s = m → view (fetch pos s).2 = m
  shows : ∀ pos s, view s = m →
    (fetch pos s).1.Shows elements rank build.maxElementSize pos

section Walks

variable {build : Build} {tlv : TlvCtx σ} {view : σ → Mem} {m : Mem}

theorem fetchRaw_walks (hs : Readable tlv.storageImpl view)
    (hend : tlv.endOffset + 65544 ≤ 2 ^ 32) :
    Walks build (fetchRaw build tlv) view m (rawElements m tlv.endOffset)
      (fun o => tlv.endOffset - o) := by
  obtain ⟨read, hread, hspec⟩ := hs.read
  have hround : ∀ o s, view s = m → view (fetchRaw build tlv o s).2 = m ∧
      (fetchRaw build tlv o s).1.Shows (rawElements m tlv.endOffset)
        (fun o => tlv.endOffset - o) build.maxElementSize o := by
    intro o s hview
    unfold fetchRaw
    by_cases ho : o < tlv.endOffset
    · simp only [ho, if_true, hread]
      rcases hkey : read s o 2 with ⟨ret, key, s₁⟩
      obtain ⟨hv₁, hkeyData⟩ := hspec s o 2
      rw [hkey] at hv₁ hkeyData
      simp only at hv₁ hkeyData ⊢
      rw [hview] at hv₁ hkeyData
      by_cases hret : ret = 0
      · have htag : beWord key = tagAt m o := by
          rw [hkeyData hret]
          rfl
        rw [if_neg (not_not.mpr hret), htag]
        by_cases hempty : tagAt m o = tagEmpty
        · rw [if_pos hempty]
          exact ⟨hv₁, rawElements_stop (.inr hempty)⟩
        · rw [if_neg hempty]
          have ho₂ : u32 (o + 2) = o + 2 := u32_of_lt (by omega)
          have ho₄ : u32 (o + 2 + 2) = o + 4 := u32_of_lt (by omega)
          rw [ho₂, ho₄]
          rcases hsize : read s₁ (o + 2) 2 with ⟨ret₂, size, s₂⟩
          obtain ⟨hv₂, hsizeData⟩ := hspec s₁ (o + 2) 2
          rw [hsize] at hv₂ hsizeData
          simp only at hv₂ hsizeData ⊢
          rw [hv₁] at hv₂ hsizeData
          by_cases hret₂ : ret₂ = 0
          · have hsizeAt : (beWord size).toNat = sizeAt m o := by
              rw [hsizeData hret₂]
              rfl
            rw [if_neg (not_not.mpr hret₂), hsizeAt]
            rcases hpayload : read s₂ (o + 4) (sizeAt m o) with ⟨ret₃, payload, s₃⟩
            obtain ⟨hv₃, hpayloadData⟩ := hspec s₂ (o + 4) (sizeAt m o)
            rw [hpayload] at hv₃ hpayloadData
            simp only at hv₃ hpayloadData ⊢
            rw [hv₂] at hv₃ hpayloadData
            by_cases hret₃ : ret₃ = 0
            · rw [if_neg (not_not.mpr hret₃)]
              by_cases hmax : build.maxElementSize < sizeAt m o
              · rw [if_pos hmax]
                exact ⟨hv₃, trivial⟩
              · rw [if_neg hmax]
                have hlt := sizeAt_lt m o
                have hnext : u32 (o + 4 + sizeAt m o) = o + 4 + sizeAt m o :=
                  u32_of_lt (by omega)
                rw [hnext]
                refine ⟨hv₃, ?_, ?_, ?_⟩
                · rw [rawElements_hop ho hempty, hpayloadData hret₃]
                  rfl
                · change tlv.endOffset - (o + 4 + sizeAt m o) < tlv.endOffset - o
                  omega
                · rw [hpayloadData hret₃, Mem.length_slice]
                  exact Nat.not_lt.mp hmax
            · rw [if_pos hret₃]
              exact ⟨hv₃, trivial⟩
          · rw [if_pos hret₂]
            exact ⟨hv₂, trivial⟩
      · rw [if_pos hret]
        exact ⟨hv₁, trivial⟩
    · simp only [ho, if_false]
      exact ⟨hview, rawElements_stop (.inl (Nat.not_lt.mp ho))⟩
  exact ⟨fun o s hview => (hround o s hview).1, fun o s hview => (hround o s hview).2⟩

theorem fetchConst_walks (hs : Readable tlv.storageImpl view) :
    Walks build (fetchConst build tlv) view m (constElements m tlv.startOffset) List.length := by
  obtain ⟨read, hread, hspec⟩ := hs.read
  have hround : ∀ rows s, view s = m → view (fetchConst build tlv rows s).2 = m ∧
      (fetchConst build tlv rows s).1.Shows (constElements m tlv.startOffset) List.length
        build.maxElementSize rows := by
    intro rows s hview
    cases rows with
    | nil => exact ⟨hview, rfl⟩
    | cons element rest =>
      unfold fetchConst
      simp only [hread]
      rcases hrow : read s (u32 (tlv.startOffset + element.offset * wordSize)) element.size with
        ⟨ret, payload, s₁⟩
      obtain ⟨hv₁, hdata⟩ :=
        hspec s (u32 (tlv.startOffset + element.offset * wordSize)) element.size
      rw [hrow] at hv₁ hdata
      simp only at hv₁ hdata ⊢
      rw [hview] at hv₁ hdata
      by_cases hret : ret = 0
      · rw [if_neg (not_not.mpr hret)]
        by_cases hmax : build.maxElementSize < element.size
        · rw [if_pos hmax]
          exact ⟨hv₁, trivial⟩
        · rw [if_neg hmax, hdata hret]
          by_cases hempty : maxFlashWriteLen < element.size ∨
              m.slice (u32 (tlv.startOffset + element.offset * wordSize)) element.size =
                List.replicate element.size 0xFF
          · rw [if_pos hempty]
            exact ⟨hv₁, constElements_skip rest hempty, Nat.lt_succ_self _⟩
          · rw [if_neg hempty]
            refine ⟨hv₁, constElements_keep rest hempty, Nat.lt_succ_self _, ?_⟩
            rw [Mem.length_slice]
            exact Nat.not_lt.mp hmax
      · rw [if_pos hret]
        exact ⟨hv₁, trivial⟩
  exact ⟨fun rows s hview => (hround rows s hview).1, fun rows s hview => (hround rows s hview).2⟩

end Walks

/-! ## Rounds -/

section Rounds

variable {build : Build} {fetch : α → σ → Fetched α × σ} {view : σ → Mem} {m : Mem}
  {elements : α → List Element} {rank : α → Nat} {block size : Nat}

/-- Storing an element ends in one of three ways. -/
theorem storeElement_spec (hsize : size + 65544 ≤ 2 ^ 32) {tag : UInt16} {payload : List UInt8}
    (hlen : payload.length < 65536) {ram : RamCopy} (hblock : ram.InBlock size) (host : Host σ) :
    ((build.keyIdOf tag = none → Stays ram size payload.length) ∧ ∃ ram' imports',
      storeElement build block (ramTlv size mfgHeaderSize) tag payload ram host =
        (.done ram', { host with imports := imports' }) ∧ ram.Follows ram' ∧
      Mfg.storeElement build calmPlatform (Mfg.ramTlv size mfgHeaderSize) tag payload ram.mem =
        .done ram'.mem) ∨
    ((build.keyIdOf tag = none → Stays ram size payload.length) ∧ ∃ code imports',
      storeElement build block (ramTlv size mfgHeaderSize) tag payload ram host =
        (.exit (.ret code), Host.free { host with imports := imports' } block)) ∨
    ((build.keyIdOf tag = none ∧ ¬Stays ram size payload.length) ∧
      storeElement build block (ramTlv size mfgHeaderSize) tag payload ram host =
        (.exit .undefined, host)) := by
  cases hkey : build.keyIdOf tag with
  | some id =>
    have hkept : some id = none → Stays ram size payload.length := fun h => by cases h
    unfold storeElement Mfg.storeElement
    rw [hkey]
    rcases himport : host.cryptoKeysNewImport with ⟨err, host'⟩
    obtain rfl : { host with imports := fun n => host.imports (n + 1) } = host' :=
      congrArg Prod.snd himport
    simp only
    by_cases herr : err = 0
    · rw [if_neg (not_not.mpr herr)]
      exact .inl ⟨hkept, ram, _, rfl, .refl ram, if_neg (not_not.mpr rfl)⟩
    · rw [if_pos herr]
      exact .inr (.inl ⟨hkept, _, _, rfl⟩)
  | none =>
    have hstore := @tlvWrite_store size tag payload ram hsize hlen hblock
    unfold storeElement
    rw [hkey]
    simp only
    generalize tlvWrite (ramTlv size mfgHeaderSize) ram tag payload = r at hstore ⊢
    cases hstore with
    | overrun hstays hover =>
      refine .inr (.inr ⟨⟨trivial, hstays⟩, ?_⟩)
      rw [if_pos hover]
    | @refused ret ram' hstays hfits hret hlater =>
      refine .inr (.inl ⟨fun _ => hstays, -eio, host.imports, ?_⟩)
      simp only [hlater.overrun, hblock.overrun, Bool.false_eq_true, if_false, if_pos hret]
    | @done ram' hstays hfits hlater hmem =>
      refine .inl ⟨fun _ => hstays, ram', host.imports, ?_, hlater, ?_⟩
      · simp only [hlater.overrun, hblock.overrun, Bool.false_eq_true, if_false, ne_eq,
          not_true_eq_false]
      · rw [hmem]
        exact storeElement_fits hsize hkey hfits.1 hfits.2.1

/-- The state at the head of a loop. -/
abbrev LoopState (α σ : Type) : Type := α × RamCopy × Host σ

/-- The state of the next round, if there is one. -/
def nextRound (build : Build) (fetch : α → σ → Fetched α × σ) (block : Nat)
    (ramCtx : TlvCtx RamCopy) (x : LoopState α σ) : Option (LoopState α σ) :=
  (copyRound build fetch block ramCtx x.1 x.2.1 x.2.2).getLeft?

/-- The rounds of a loop from one on. -/
abbrev loopRounds (build : Build) (fetch : α → σ → Fetched α × σ) (block : Nat)
    (ramCtx : TlvCtx RamCopy) (x : LoopState α σ) : System (LoopState α σ) Unit :=
  System.orbit (nextRound build fetch block ramCtx) x

/-- The round does not leave what the language defines: a payload that it reads fits the buffer,
and writing it into the RAM copy stays inside the block. -/
def Ends (build : Build) (fetch : α → σ → Fetched α × σ) (size : Nat) (x : LoopState α σ) : Prop :=
  (fetch x.1 x.2.2.storage).1 ≠ .undefined ∧
    ∀ tag payload next, (fetch x.1 x.2.2.storage).1 = .element tag payload next →
      build.keyIdOf tag = none → Stays x.2.1 size payload.length

/-- The round that comes next is harmless: it ends, and where it ends the loop, the search for the
slot of the flags record stays inside the block, and every copied element has a length that a
record can write down, unless the flags record is not written. -/
structure Harmless (build : Build) (fetch : α → σ → Fetched α × σ) (size : Nat)
    (all : List Element) (x : LoopState α σ) : Prop where
  ends : Ends build fetch size x
  scanned : (fetch x.1 x.2.2.storage).1 = .stop →
    LeavesHeader (Mfg.ramTlv size mfgHeaderSize) x.2.1.mem
  sized : (fetch x.1 x.2.2.storage).1 = .stop → Fits x.2.1 size mfgFlagsSize → Sized build all

/-- How a round ends: another one follows, or the loop is done, has failed, or is undefined. -/
inductive Round (build : Build) (fetch : α → σ → Fetched α × σ) (view : σ → Mem) (m : Mem)
    (elements : α → List Element) (rank : α → Nat) (block size : Nat)
    (x : LoopState α σ) : LoopState α σ ⊕ (CopyEnd × Host σ) → Prop
  | next {y : LoopState α σ} (front : List Element) :
      Ends build fetch size x → rank y.1 < rank x.1 → x.2.1.Follows y.2.1 →
      (fetch x.1 x.2.2.storage).1 ≠ .stop →
      (∀ element ∈ front, element.2.length ≤ build.maxElementSize) →
      view y.2.2.storage = m → y.2.2.heap = x.2.2.heap → y.2.2.erasedWith = x.2.2.erasedWith →
      elements x.1 = front ++ elements y.1 →
      (∀ rest,
        copyAll build calmPlatform (Mfg.ramTlv size mfgHeaderSize) (front ++ rest) x.2.1.mem =
          copyAll build calmPlatform (Mfg.ramTlv size mfgHeaderSize) rest y.2.1.mem) →
      Round build fetch view m elements rank block size x (.inl y)
  | done {host : Host σ} : Ends build fetch size x →
      (fetch x.1 x.2.2.storage).1 = .stop → view host.storage = m →
      host.heap = x.2.2.heap → host.erasedWith = x.2.2.erasedWith → elements x.1 = [] →
      Round build fetch view m elements rank block size x (.inr (.done x.2.1, host))
  | failed {code : Int} {host : Host σ} : Ends build fetch size x →
      (fetch x.1 x.2.2.storage).1 ≠ .stop →
      view host.storage = m → host.heap = x.2.2.heap.free block →
      host.erasedWith = x.2.2.erasedWith →
      Round build fetch view m elements rank block size x
        (.inr (.exit (.ret code), host))
  | undefined {host : Host σ} : ¬Ends build fetch size x →
      (fetch x.1 x.2.2.storage).1 ≠ .stop →
      Round build fetch view m elements rank block size x (.inr (.exit .undefined, host))

theorem round_spec (hsize : size + 65544 ≤ 2 ^ 32)
    (hw : Walks build fetch view m elements rank) (x : LoopState α σ)
    (hblock : x.2.1.InBlock size) (hview : view x.2.2.storage = m)
    (hlen : ∀ element ∈ elements x.1, element.2.length < 65536) :
    Round build fetch view m elements rank block size x
      (copyRound build fetch block (ramTlv size mfgHeaderSize) x.1 x.2.1 x.2.2) := by
  obtain ⟨pos, ram, host⟩ := x
  have hkept := hw.kept pos host.storage hview
  have hshows := hw.shows pos host.storage hview
  unfold copyRound
  rcases hfetch : fetch pos host.storage with ⟨fetched, s⟩
  rw [hfetch] at hkept hshows
  simp only at hkept hshows
  cases fetched with
  | stop =>
    have hends : Ends build fetch size (pos, ram, host) := ⟨by simp [hfetch], by simp [hfetch]⟩
    exact .done hends (by simp [hfetch]) hkept rfl rfl hshows
  | failed =>
    have hends : Ends build fetch size (pos, ram, host) := ⟨by simp [hfetch], by simp [hfetch]⟩
    exact .failed hends (by simp [hfetch]) hkept rfl rfl
  | undefined =>
    refine .undefined (fun hends => hends.1 ?_) (by simp [hfetch])
    rw [hfetch]
  | skip next =>
    have hends : Ends build fetch size (pos, ram, host) := ⟨by simp [hfetch], by simp [hfetch]⟩
    refine .next [] hends hshows.2 (.refl ram) (by simp [hfetch]) ?_ hkept rfl rfl hshows.1
      fun _ => rfl
    exact fun _ h => absurd h List.not_mem_nil
  | element tag payload next =>
    obtain ⟨hfirst, hrank, hmax⟩ := hshows
    have hpayload : payload.length < 65536 :=
      hlen (tag, payload) (hfirst ▸ List.mem_cons_self)
    have hstop : (fetch pos host.storage).1 ≠ .stop := by simp [hfetch]
    have hends (hstays : build.keyIdOf tag = none → Stays ram size payload.length) :
        Ends build fetch size (pos, ram, host) := by
      refine ⟨by simp [hfetch], ?_⟩
      intro tag' payload' next' h hkey
      rw [hfetch] at h
      cases h
      exact hstays hkey
    simp only
    obtain ⟨hstays, ram', imports', hstore, hlater, hclean⟩ | ⟨hstays, code, imports', hstore⟩ |
      ⟨hstays, hstore⟩ := @storeElement_spec σ build block size hsize tag payload hpayload ram
        hblock { host with storage := s }
    · rw [hstore]
      refine .next [(tag, payload)] (hends hstays) hrank hlater hstop
        (List.forall_mem_singleton.mpr hmax) hkept rfl rfl hfirst ?_
      intro rest
      simp only [List.singleton_append, copyAll, Nat.not_lt.mpr hmax, if_false, hclean]
    · rw [hstore]
      exact .failed (hends hstays) hstop hkept rfl rfl
    · rw [hstore]
      refine .undefined (fun h => hstays.2 (h.2 tag payload next ?_ hstays.1)) hstop
      rw [hfetch]

/-! ## Loops -/

/-- The loop comes to its end, as opposed to undefined behaviour and to a loop that does not. -/
def CopyEnd.Returns : CopyEnd → Prop
  | .done _ => True
  | .exit outcome => outcome.Returns

/-- What a loop leaves, from the state at its head. -/
structure Looped (build : Build) (fetch : α → σ → Fetched α × σ) (view : σ → Mem) (m : Mem)
    (elements : α → List Element) (block size : Nat) (x : LoopState α σ)
    (result : CopyEnd × Host σ) : Prop where
  returns : result.1.Returns ↔
    ∀ y, (loopRounds build fetch block (ramTlv size mfgHeaderSize) x).Reachable y →
      Ends build fetch size y
  stops : ∀ Q : RamCopy → Prop, (∀ ram, result.1 = .done ram → Q ram) ↔
    ∀ y, (loopRounds build fetch block (ramTlv size mfgHeaderSize) x).Reachable y →
      (fetch y.1 y.2.2.storage).1 = .stop → Q y.2.1
  failed : ∀ code, result.1 = .exit (.ret code) → view result.2.storage = m ∧
    result.2.heap = x.2.2.heap.free block ∧ result.2.erasedWith = x.2.2.erasedWith
  done : ∀ ram, result.1 = .done ram → view result.2.storage = m ∧ x.2.1.Follows ram ∧
    result.2.heap = x.2.2.heap ∧ result.2.erasedWith = x.2.2.erasedWith ∧
    copyAll build calmPlatform (Mfg.ramTlv size mfgHeaderSize) (elements x.1) x.2.1.mem =
      .done ram.mem

/-- A loop that ends with its first round. -/
theorem orbit_last {x : LoopState α σ} {ramCtx : TlvCtx RamCopy}
    (hlast : nextRound build fetch block ramCtx x = none) (P : LoopState α σ → Prop) :
    (∀ y, (loopRounds build fetch block ramCtx x).Reachable y → P y) ↔ P x := by
  rw [System.forall_orbit_iff, hlast]
  exact ⟨fun h => h.1, fun h => ⟨h, fun y hy => by cases hy⟩⟩

/-- A round that ends its loop. -/
theorem Round.last {x : LoopState α σ} {ended : CopyEnd × Host σ}
    (hround : Round build fetch view m elements rank block size x (.inr ended))
    (hlast : nextRound build fetch block (ramTlv size mfgHeaderSize) x = none) :
    Looped build fetch view m elements block size x ended := by
  have horbit := orbit_last hlast
  cases hround with
  | @done host hends hstop hview hheap herased hnil =>
    refine ⟨?_, ?_, ?_, ?_⟩
    · rw [horbit]
      exact ⟨fun _ => hends, fun _ => trivial⟩
    · intro Q
      rw [horbit]
      refine ⟨fun h _ => h _ rfl, ?_⟩
      intro h ram hram
      cases hram
      exact h hstop
    · intro code hcode
      cases hcode
    · intro ram hram
      cases hram
      rw [hnil]
      exact ⟨hview, .refl _, hheap, herased, rfl⟩
  | @failed code host hends hstop hview hheap herased =>
    refine ⟨?_, ?_, ?_, ?_⟩
    · rw [horbit]
      exact ⟨fun _ => hends, fun _ => trivial⟩
    · intro Q
      rw [horbit]
      exact ⟨fun _ hx => absurd hx hstop, fun _ ram hram => by cases hram⟩
    · intro code hcode
      exact ⟨hview, hheap, herased⟩
    · intro ram hram
      cases hram
  | @undefined host hends hstop =>
    refine ⟨?_, ?_, ?_, ?_⟩
    · rw [horbit]
      exact ⟨fun h => h.elim, fun h => absurd h hends⟩
    · intro Q
      rw [horbit]
      exact ⟨fun _ hx => absurd hx hstop, fun _ ram hram => by cases hram⟩
    · intro code hcode
      cases hcode
    · intro ram hram
      cases hram

/-- A round before a loop. -/
theorem Round.before {x y : LoopState α σ} {result : CopyEnd × Host σ}
    (hround : Round build fetch view m elements rank block size x (.inl y))
    (hnext : nextRound build fetch block (ramTlv size mfgHeaderSize) x = some y)
    (h : Looped build fetch view m elements block size y result) :
    Looped build fetch view m elements block size x result := by
  obtain ⟨hreturns, hstops, hfailed, hdone⟩ := h
  have horbit (P : LoopState α σ → Prop) :
      (∀ z, (loopRounds build fetch block (ramTlv size mfgHeaderSize) x).Reachable z → P z) ↔
        P x ∧ ∀ z, (loopRounds build fetch block (ramTlv size mfgHeaderSize) y).Reachable z →
          P z := by
    rw [System.forall_orbit_iff, hnext]
    simp only [Option.some.injEq, forall_eq']
  cases hround with
  | next front hends hrank hlater hstop hfits hview hheap herased hfront hcopy =>
    refine ⟨?_, ?_, ?_, ?_⟩
    · rw [horbit]
      exact hreturns.trans ⟨fun h => ⟨hends, h⟩, fun h => h.2⟩
    · intro Q
      rw [horbit]
      exact (hstops Q).trans ⟨fun h => ⟨fun hx => absurd hx hstop, h⟩, fun h => h.2⟩
    · intro code hcode
      rw [← hheap, ← herased]
      exact hfailed code hcode
    · intro ram hram
      obtain ⟨hviewEnd, hafter, hrest⟩ := hdone ram hram
      rw [← hheap, ← herased, hfront, hcopy]
      exact ⟨hviewEnd, hlater.trans hafter, hrest⟩

/-- What is left of the elements behind a round was there before it. -/
theorem Round.elements_subset {x y : LoopState α σ}
    (hround : Round build fetch view m elements rank block size x (.inl y)) :
    ∀ element ∈ elements y.1, element ∈ elements x.1 := by
  cases hround with
  | next front _ _ _ _ _ _ _ _ hfront _ =>
    intro element hmem
    rw [hfront]
    exact List.mem_append_right front hmem

theorem copyLoop_spec (hsize : size + 65544 ≤ 2 ^ 32)
    (hw : Walks build fetch view m elements rank) {fuel : Nat} (x : LoopState α σ)
    (hfuel : rank x.1 < fuel) (hblock : x.2.1.InBlock size) (hview : view x.2.2.storage = m)
    (hlen : ∀ element ∈ elements x.1, element.2.length < 65536) :
    Looped build fetch view m elements block size x
      (copyLoop build fetch block (ramTlv size mfgHeaderSize) fuel x.1 x.2.1 x.2.2) := by
  induction fuel generalizing x with
  | zero => exact absurd hfuel (Nat.not_lt_zero _)
  | succ fuel ih =>
    have hround := @round_spec σ α build fetch view m elements rank block size hsize hw x hblock
      hview hlen
    unfold copyLoop
    have hnext : nextRound build fetch block (ramTlv size mfgHeaderSize) x =
        (copyRound build fetch block (ramTlv size mfgHeaderSize) x.1 x.2.1 x.2.2).getLeft? := rfl
    generalize copyRound build fetch block (ramTlv size mfgHeaderSize) x.1 x.2.1 x.2.2 = r
      at hround hnext ⊢
    rcases r with y | ended
    · have hlenY := fun element hmem => hlen element (hround.elements_subset element hmem)
      have hviewY : view y.2.2.storage = m := by
        cases hround
        assumption
      have hrankY : rank y.1 < rank x.1 := by
        cases hround
        assumption
      have hblockY : y.2.1.InBlock size := by
        cases hround
        exact hblock.follows (by assumption)
      exact hround.before hnext (ih y (by omega) hblockY hviewY hlenY)
    · exact hround.last hnext

end Rounds

/-! ## Behind the loop -/

section StoreCopy

variable {build : Build} {tlv : TlvCtx σ} {view : σ → Mem} {block : Nat}

/-- What follows the loop leaves the block, or it returns and releases the RAM copy, and asks for
the erase only with the flags record in it. -/
theorem storeCopy_spec (hs : Readable tlv.storageImpl view)
    (hmarker : tlv.tlvStorageStartMarkerSize = mfgHeaderSize)
    (hend : tlv.endOffset + 65544 ≤ 2 ^ 32) {ram : RamCopy}
    (hblock : ram.InBlock (tlv.endOffset - tlv.startOffset)) (host : Host σ) :
    (¬LeavesHeader (Mfg.ramTlv (tlv.endOffset - tlv.startOffset) mfgHeaderSize) ram.mem ∧
      storeCopy build block tlv ram host = (.undefined, host)) ∨
    (LeavesHeader (Mfg.ramTlv (tlv.endOffset - tlv.startOffset) mfgHeaderSize) ram.mem ∧
      ∃ code host', storeCopy build block tlv ram host = (.ret code, host') ∧
        host'.heap = host.heap.free block ∧
        ((¬Fits ram (tlv.endOffset - tlv.startOffset) mfgFlagsSize ∧
          host'.erasedWith = host.erasedWith ∧ host'.storage = host.storage) ∨
        (Fits ram (tlv.endOffset - tlv.startOffset) mfgFlagsSize ∧
          host'.erasedWith = some (ram.mem.blit
            (ramSlot ram.mem (tlv.endOffset - tlv.startOffset))
            (record mfgFlagsTypeId build.migratedFlags.toBytes))))) := by
  obtain ⟨erase, herase⟩ := hs.erase
  obtain ⟨write, hwriteImpl⟩ := hs.write
  have hlen : build.migratedFlags.toBytes.length = mfgFlagsSize := rfl
  have hstore := @tlvWrite_store (tlv.endOffset - tlv.startOffset) mfgFlagsTypeId
    build.migratedFlags.toBytes ram (by omega) (by rw [hlen]; decide) hblock
  unfold storeCopy
  rw [hmarker, herase, hwriteImpl]
  simp only
  generalize tlvWrite (ramTlv (tlv.endOffset - tlv.startOffset) mfgHeaderSize) ram mfgFlagsTypeId
    build.migratedFlags.toBytes = r at hstore ⊢
  cases hstore with
  | overrun hstays hover =>
    refine .inl ⟨fun hleaves => hstays ⟨hleaves, fun h => ?_⟩, if_pos hover⟩
    exact absurd h.1 (by rw [hlen]; decide)
  | @refused ret ram' hstays hfits hret hlater =>
    refine .inr ⟨hstays.1, -eio, host.free block, ?_, rfl, .inl ⟨hfits, rfl, rfl⟩⟩
    simp only [hlater.overrun, hblock.overrun, Bool.false_eq_true, if_false, if_pos hret]
  | @done ram' hstays hfits hlater hmem =>
    refine .inr ⟨hstays.1, ?_⟩
    simp only [hlater.overrun, hblock.overrun, Bool.false_eq_true, if_false, ne_eq,
      not_true_eq_false]
    rw [← hmem]
    rcases herased : erase host.storage tlv.startOffset (tlv.endOffset - tlv.startOffset) with
      ⟨ret, s₁⟩
    simp only
    by_cases hret : ret = 0
    · rw [if_neg (not_not.mpr hret)]
      rcases hwritten : write s₁ tlv.startOffset
        (ram'.mem.slice 0 (tlv.endOffset - tlv.startOffset)) with ⟨ret₂, s₂⟩
      simp only
      by_cases hret₂ : ret₂ = 0
      · rw [if_neg (not_not.mpr hret₂)]
        exact ⟨_, _, rfl, rfl, .inr ⟨hfits, rfl⟩⟩
      · rw [if_pos hret₂]
        exact ⟨_, _, rfl, rfl, .inr ⟨hfits, rfl⟩⟩
    · rw [if_pos hret]
      exact ⟨_, _, rfl, rfl, .inr ⟨hfits, rfl⟩⟩

end StoreCopy

/-! ## The whole call -/

/-- A migration returns; where it has not asked for the erase the partition is as it was, and
where it has the RAM copy held the complete image; and every block is released once, or is still
owned by who owned it before. -/
structure LeavesIntact (build : Build) (tlv : TlvCtx σ) (view : σ → Mem) (all : List Element)
    (s : σ) (heap : Heap) (result : Outcome × Host σ) : Prop where
  returns : result.1.Returns
  untouched : result.2.erasedWith = none → view result.2.storage = view s
  complete : ∀ ram, result.2.erasedWith = some ram →
    Complete build (tlv.endOffset - tlv.startOffset) ram all
  released : ∀ owned, heap.Accounts owned → result.2.heap.Accounts owned

/-- The state at the first round, once there is a RAM copy with its header. -/
def firstRound (platform : Platform) (ramFaults : Nat → Int) (size : Nat) (start : α) (s : σ)
    (heap : Heap) (imports : Nat → Int) : LoopState α σ :=
  (start, ⟨freshCopy platform size, size, false, fun n => ramFaults (n + 1)⟩,
    { storage := s, heap := (heap.malloc true size).2, imports := imports, erasedWith := none })

/-- The call gets to write the header of its RAM copy. -/
structure HasCopy (platform : Platform) (ramFaults : Nat → Int) (tlv : TlvCtx σ) : Prop where
  partition : tlv.startOffset < tlv.endOffset
  memory : platform.malloc (tlv.endOffset - tlv.startOffset) = true
  marker : tlv.tlvStorageStartMarkerSize = mfgHeaderSize
  header : ramFaults 0 = 0

/-- The header fits the RAM copy if it is written, and every round that the loop comes to is
harmless. -/
def HarmlessRun (build : Build) (platform : Platform) (ramFaults : Nat → Int)
    (fetch : α → σ → Fetched α × σ) (start : α) (tlv : TlvCtx σ) (all : List Element) (s : σ)
    (heap : Heap) (imports : Nat → Int) : Prop :=
  HasCopy platform ramFaults tlv →
    mfgHeaderSize ≤ tlv.endOffset - tlv.startOffset ∧
      ∀ x, (loopRounds build fetch heap.allocated.length
          (ramTlv (tlv.endOffset - tlv.startOffset) mfgHeaderSize)
          (firstRound platform ramFaults (tlv.endOffset - tlv.startOffset) start s heap
            imports)).Reachable x →
        Harmless build fetch (tlv.endOffset - tlv.startOffset) all x

section Migrate

variable {build : Build} {platform : Platform} {ramFaults : Nat → Int}
  {fetch : α → σ → Fetched α × σ} {start : α} {tlv : TlvCtx σ} {view : σ → Mem} {s : σ}
  {heap : Heap} {imports : Nat → Int} {elements : α → List Element} {rank : α → Nat}

/-- The block of the RAM copy is handed out and released. -/
theorem accounts_free {owned : Multiset Nat} (h : heap.Accounts owned) (size : Nat) :
    ((heap.malloc true size).2.free heap.allocated.length).Accounts owned := by
  have hmalloc := h.malloc true size
  rw [Heap.malloc_true] at hmalloc ⊢
  exact hmalloc.release

/-- A call that ends before the loop. -/
theorem leavesIntact_early {all : List Element} {code : Int} {heap' : Heap}
    (hheap : ∀ owned, heap.Accounts owned → heap'.Accounts owned) :
    LeavesIntact build tlv view all s heap
      (.ret code, { storage := s, heap := heap', imports := imports, erasedWith := none }) where
  returns := trivial
  untouched := fun _ => rfl
  complete := fun _ h => by cases h
  released := hheap

/-- A loop that is done leaves the partition intact exactly if the search for the slot of the flags
record stays inside the block, and the records can write down what was copied, unless the flags
record is not written. -/
theorem leavesIntact_storeCopy (hs : Readable tlv.storageImpl view)
    (hend : tlv.endOffset + 65544 ≤ 2 ^ 32)
    (hmarker : tlv.tlvStorageStartMarkerSize = mfgHeaderSize) {block : Nat}
    {all : List Element} (htags : ∀ element ∈ all, element.1 ≠ emptyType)
    (hlen : ∀ element ∈ all, element.2.length < 65536) {ram : RamCopy} {host : Host σ}
    (hblock : ram.InBlock (tlv.endOffset - tlv.startOffset))
    (hview : view host.storage = view s) (herased : host.erasedWith = none)
    (hheap : ∀ owned, heap.Accounts owned → (host.heap.free block).Accounts owned)
    (hcopy : copyAll build calmPlatform
      (Mfg.ramTlv (tlv.endOffset - tlv.startOffset) mfgHeaderSize) all
      (freshCopy platform (tlv.endOffset - tlv.startOffset)) = .done ram.mem) :
    LeavesIntact build tlv view all s heap (storeCopy build block tlv ram host) ↔
      (LeavesHeader (Mfg.ramTlv (tlv.endOffset - tlv.startOffset) mfgHeaderSize) ram.mem ∧
        (Fits ram (tlv.endOffset - tlv.startOffset) mfgFlagsSize → Sized build all)) := by
  obtain ⟨hleaves, hstore⟩ | ⟨hleaves, code, host', hstore, hfreed, hcases⟩ :=
    @storeCopy_spec σ build tlv view block hs hmarker hend ram hblock host
  · rw [hstore]
    exact iff_of_false (fun hintact => hintact.returns) fun h => hleaves h.1
  rw [hstore]
  simp only [hleaves, true_and]
  have hreleased : ∀ owned, heap.Accounts owned → host'.heap.Accounts owned := by
    rw [hfreed]
    exact hheap
  obtain ⟨hflags, herased', hstorage⟩ | ⟨hflags, herased'⟩ := hcases
  · -- The flags record is not written, so nothing is erased.
    refine iff_of_true ⟨trivial, fun _ => hstorage ▸ hview, ?_, hreleased⟩ fun h => absurd h hflags
    intro ram' hram'
    rw [herased', herased] at hram'
    cases hram'
  · -- The storage is asked to erase.
    constructor
    · exact fun hintact _ => (hintact.complete _ herased').sized
    · intro hsized
      refine ⟨trivial, ?_, ?_, hreleased⟩
      · intro hnone
        rw [herased'] at hnone
        cases hnone
      · intro ram' hram'
        rw [herased'] at hram'
        cases hram'
        exact complete_of_copyAll (by omega) htags hlen (hsized hflags) hcopy hflags.2.1

/-- A call that comes to its loop, by the state at its head. -/
theorem leavesIntact_loop (hs : Readable tlv.storageImpl view)
    (hend : tlv.endOffset + 65544 ≤ 2 ^ 32)
    (hmarker : tlv.tlvStorageStartMarkerSize = mfgHeaderSize)
    (hw : Walks build fetch view (view s) elements rank) {block : Nat} {x : LoopState α σ}
    (hrank : rank x.1 < loopFuel) (htags : ∀ element ∈ elements x.1, element.1 ≠ emptyType)
    (hlen : ∀ element ∈ elements x.1, element.2.length < 65536)
    (hblock : x.2.1.InBlock (tlv.endOffset - tlv.startOffset))
    (hview : view x.2.2.storage = view s) (herased : x.2.2.erasedWith = none)
    (hram : x.2.1.mem = freshCopy platform (tlv.endOffset - tlv.startOffset))
    (hheap : ∀ owned, heap.Accounts owned → (x.2.2.heap.free block).Accounts owned)
    {result : Outcome × Host σ}
    (hresult : result = behindLoop build block tlv
      (copyLoop build fetch block (ramTlv (tlv.endOffset - tlv.startOffset) mfgHeaderSize)
        loopFuel x.1 x.2.1 x.2.2)) :
    LeavesIntact build tlv view (elements x.1) s heap result ↔
      ∀ y, (loopRounds build fetch block
          (ramTlv (tlv.endOffset - tlv.startOffset) mfgHeaderSize) x).Reachable y →
        Harmless build fetch (tlv.endOffset - tlv.startOffset) (elements x.1) y := by
  have hloop := @copyLoop_spec σ α build fetch view (view s) elements rank block
    (tlv.endOffset - tlv.startOffset) (by omega) hw loopFuel x hrank hblock hview hlen
  generalize copyLoop build fetch block (ramTlv (tlv.endOffset - tlv.startOffset) mfgHeaderSize)
    loopFuel x.1 x.2.1 x.2.2 = copied at hloop hresult
  obtain ⟨ended, host⟩ := copied
  cases ended with
  | exit outcome =>
    subst hresult
    simp only [behindLoop]
    have hnever (hnot : ¬outcome.Returns) : LeavesIntact build tlv view (elements x.1) s heap
        (outcome, host) ↔ ∀ y, (loopRounds build fetch block
          (ramTlv (tlv.endOffset - tlv.startOffset) mfgHeaderSize) x).Reachable y →
            Harmless build fetch (tlv.endOffset - tlv.startOffset) (elements x.1) y := by
      refine iff_of_false (fun h => hnot h.returns) fun h => hnot ?_
      exact hloop.returns.mpr fun y hy => (h y hy).ends
    cases outcome with
    | ret code =>
      obtain ⟨hkept, hfreed, hnotErased⟩ := hloop.failed code rfl
      have hends := hloop.returns.mp trivial
      have hstops := (hloop.stops fun _ => False).mp fun ram h => by cases h
      refine iff_of_true ⟨trivial, fun _ => hkept, ?_, ?_⟩ ?_
      · intro ram hram
        rw [hnotErased, herased] at hram
        cases hram
      · rw [hfreed]
        exact hheap
      · intro y hy
        exact ⟨hends y hy, fun hstop => (hstops y hy hstop).elim,
          fun hstop => (hstops y hy hstop).elim⟩
    | undefined => exact hnever id
    | running => exact hnever id
  | done ram =>
    subst hresult
    simp only [behindLoop]
    obtain ⟨hkept, hlater, hsame, hnotErased, hcopy⟩ := hloop.done ram rfl
    have hends := hloop.returns.mp trivial
    rw [hram] at hcopy
    refine (leavesIntact_storeCopy hs hend hmarker htags hlen (hblock.follows hlater) hkept
      (hnotErased.trans herased) (hsame ▸ hheap) hcopy).trans ?_
    have hstops := hloop.stops fun ram =>
      LeavesHeader (Mfg.ramTlv (tlv.endOffset - tlv.startOffset) mfgHeaderSize) ram.mem ∧
        (Fits ram (tlv.endOffset - tlv.startOffset) mfgFlagsSize → Sized build (elements x.1))
    constructor
    · intro hlast y hy
      have hstop := hstops.mp (fun ram' h => by cases h; exact hlast) y hy
      exact ⟨hends y hy, fun h => (hstop h).1, fun h => (hstop h).2⟩
    · intro hharmless
      exact hstops.mpr (fun y hy h => ⟨(hharmless y hy).scanned h, (hharmless y hy).sized h⟩) ram
        rfl

/-- A call that does not get to the header of its RAM copy returns. -/
theorem migrate_early (h : ¬HasCopy platform ramFaults tlv) : ∃ code heap',
    migrate build platform ramFaults fetch start tlv s heap imports =
      (.ret code, { storage := s, heap := heap', imports := imports, erasedWith := none }) ∧
    ∀ owned, heap.Accounts owned → heap'.Accounts owned := by
  unfold migrate
  by_cases hlt : tlv.startOffset < tlv.endOffset
  · rw [if_neg (Nat.not_le.mpr hlt)]
    cases halloc : platform.malloc (tlv.endOffset - tlv.startOffset) with
    | false =>
      simp only [halloc, Heap.malloc_false]
      exact ⟨_, heap, rfl, fun _ h => h⟩
    | true =>
      simp only [halloc, Heap.malloc_true]
      refine ⟨-eio, _, ?_, fun _ h => accounts_free h (tlv.endOffset - tlv.startOffset)⟩
      by_cases hmarker : tlv.tlvStorageStartMarkerSize = mfgHeaderSize
      · have hfault : ramFaults 0 ≠ 0 := fun hzero => h ⟨hlt, halloc, hmarker, hzero⟩
        have hwrite : tlvWriteStartMarker
            (ramTlv (tlv.endOffset - tlv.startOffset) mfgHeaderSize)
            ⟨platform.heap.fill 0 (tlv.endOffset - tlv.startOffset) 0xFF,
              tlv.endOffset - tlv.startOffset, false, ramFaults⟩
            mfgHeader = (ramFaults 0, ⟨platform.heap.fill 0 (tlv.endOffset - tlv.startOffset)
              0xFF, tlv.endOffset - tlv.startOffset, false, fun n => ramFaults (n + 1)⟩) := by
          change RamCopy.write _ _ _ = _
          unfold RamCopy.write
          simp only [hfault, if_false]
          rfl
        simp only [hmarker, hwrite, Bool.false_eq_true, if_false, ne_eq, hfault,
          not_false_eq_true, if_true]
        rfl
      · have hwrite (ram : RamCopy) : tlvWriteStartMarker
            (ramTlv (tlv.endOffset - tlv.startOffset) tlv.tlvStorageStartMarkerSize) ram
            mfgHeader = (-enomem, ram) := by
          unfold tlvWriteStartMarker
          exact if_pos fun h => hmarker h.symm
        simp only [hwrite, Bool.false_eq_true, if_false]
        rw [if_pos (by decide)]
        rfl
  · rw [if_pos (Nat.not_lt.mp hlt)]
    exact ⟨_, heap, rfl, fun _ h => h⟩

/-- The header of the RAM copy is written. -/
theorem header_written (h : HasCopy platform ramFaults tlv) :
    tlvWriteStartMarker (ramTlv (tlv.endOffset - tlv.startOffset) mfgHeaderSize)
      ⟨platform.heap.fill 0 (tlv.endOffset - tlv.startOffset) 0xFF,
        tlv.endOffset - tlv.startOffset, false, ramFaults⟩ mfgHeader =
      (0, ⟨freshCopy platform (tlv.endOffset - tlv.startOffset), tlv.endOffset - tlv.startOffset,
        decide (tlv.endOffset - tlv.startOffset < mfgHeaderSize), fun n => ramFaults (n + 1)⟩) := by
  change RamCopy.write _ _ _ = _
  unfold RamCopy.write
  simp only [h.header, if_true]
  rfl

theorem migrate_overrun (h : HasCopy platform ramFaults tlv)
    (hsmall : tlv.endOffset - tlv.startOffset < mfgHeaderSize) :
    migrate build platform ramFaults fetch start tlv s heap imports =
      (.undefined, (firstRound platform ramFaults (tlv.endOffset - tlv.startOffset) start s heap
        imports).2.2) := by
  unfold migrate
  rw [if_neg (Nat.not_le.mpr h.partition)]
  simp only [h.memory, Heap.malloc_true, h.marker, header_written h]
  rw [if_pos (decide_eq_true hsmall)]
  rfl

theorem migrate_loop (h : HasCopy platform ramFaults tlv)
    (hfits : mfgHeaderSize ≤ tlv.endOffset - tlv.startOffset) :
    migrate build platform ramFaults fetch start tlv s heap imports =
      behindLoop build heap.allocated.length tlv
        (copyLoop build fetch heap.allocated.length
          (ramTlv (tlv.endOffset - tlv.startOffset) mfgHeaderSize) loopFuel start
          (firstRound platform ramFaults (tlv.endOffset - tlv.startOffset) start s heap
            imports).2.1
          (firstRound platform ramFaults (tlv.endOffset - tlv.startOffset) start s heap
            imports).2.2) := by
  unfold migrate
  rw [if_neg (Nat.not_le.mpr h.partition)]
  simp only [h.memory, Heap.malloc_true, h.marker, header_written h,
    decide_eq_false (Nat.not_lt.mpr hfits), Bool.false_eq_true, if_false, ne_eq, not_true_eq_false]
  rfl

/-- A migration leaves the partition intact exactly if its rounds are harmless. -/
theorem migrate_intact_iff (hs : Readable tlv.storageImpl view)
    (hend : tlv.endOffset + 65544 ≤ 2 ^ 32)
    (hw : Walks build fetch view (view s) elements rank) (hrank : rank start < loopFuel)
    (htags : ∀ element ∈ elements start, element.1 ≠ emptyType)
    (hlen : ∀ element ∈ elements start, element.2.length < 65536) :
    LeavesIntact build tlv view (elements start) s heap
        (migrate build platform ramFaults fetch start tlv s heap imports) ↔
      HarmlessRun build platform ramFaults fetch start tlv (elements start) s heap imports := by
  by_cases hcopy : HasCopy platform ramFaults tlv
  · have hmarker := hcopy.marker
    by_cases hfits : mfgHeaderSize ≤ tlv.endOffset - tlv.startOffset
    · have hloop := @leavesIntact_loop σ α build platform fetch tlv view s heap elements rank hs
        hend hmarker hw heap.allocated.length (firstRound platform ramFaults
          (tlv.endOffset - tlv.startOffset) start s heap imports) hrank htags hlen ⟨rfl, rfl⟩
        rfl rfl rfl (fun _ h => accounts_free h _) _ (migrate_loop hcopy hfits)
      exact hloop.trans ⟨fun h _ => ⟨hfits, h⟩, fun h => (h hcopy).2⟩
    · rw [migrate_overrun hcopy (Nat.not_le.mp hfits)]
      exact iff_of_false (fun hintact => hintact.returns) fun h => hfits (h hcopy).1
  · obtain ⟨code, heap', hmigrate, hheap⟩ :=
      @migrate_early σ α build platform ramFaults fetch start tlv s heap imports hcopy
    rw [hmigrate]
    exact iff_of_true (leavesIntact_early hheap) fun h => absurd h hcopy

end Migrate

/-- Either parser returns, keeps the partition unless it holds the complete image when it asks for
the erase, and releases its RAM copy once, exactly if every element it comes to is harmless. -/
theorem migrations_intact_iff (build : Build) (platform : Platform) (ramFaults : Nat → Int)
    (tlv : TlvCtx σ) (view : σ → Mem) (hs : Readable tlv.storageImpl view)
    (hend : tlv.endOffset + 65544 ≤ 2 ^ 32) (s : σ) (heap : Heap) (imports : Nat → Int) :
    (LeavesIntact build tlv view (rawElements (view s) tlv.endOffset tlv.firstOffset) s heap
        (parseMfgRawTlv build platform ramFaults tlv s heap imports) ↔
      HarmlessRun build platform ramFaults (fetchRaw build tlv) tlv.firstOffset tlv
        (rawElements (view s) tlv.endOffset tlv.firstOffset) s heap imports) ∧
    (LeavesIntact build tlv view
        (constElements (view s) tlv.startOffset build.valueToOffsetTable) s heap
        (parseMfgConstOffsets build platform ramFaults tlv s heap imports) ↔
      HarmlessRun build platform ramFaults (fetchConst build tlv) build.valueToOffsetTable tlv
        (constElements (view s) tlv.startOffset build.valueToOffsetTable) s heap imports) := by
  refine ⟨?_, ?_⟩
  · refine migrate_intact_iff hs hend (fetchRaw_walks hs hend) ?_ tag_rawElements
      length_rawElements
    unfold loopFuel
    omega
  · refine migrate_intact_iff hs hend (fetchConst_walks hs) ?_
      (fun element hmem => (constElements_rows element hmem).1) ?_
    · change (offsetRows.map _).length < loopFuel
      rw [List.length_map]
      decide
    · intro element hmem
      have hshort := (constElements_rows element hmem).2.2.2
      omega

/-! ## Images with room -/

section Room

variable {build : Build} {fetch : α → σ → Fetched α × σ} {view : σ → Mem} {m : Mem}
  {elements : α → List Element} {rank : α → Nat} {block size : Nat} {start x : LoopState α σ}

/-- The elements of a loop are those that its rounds have copied and those that are left. -/
theorem reachable_elements (hsize : size + 65544 ≤ 2 ^ 32)
    (hw : Walks build fetch view m elements rank) (hblock : start.2.1.InBlock size)
    (hview : view start.2.2.storage = m)
    (hlen : ∀ element ∈ elements start.1, element.2.length < 65536)
    (hx : (loopRounds build fetch block (ramTlv size mfgHeaderSize) start).Reachable x) :
    x.2.1.InBlock size ∧ view x.2.2.storage = m ∧ ∃ front,
      elements start.1 = front ++ elements x.1 ∧ ∀ rest,
        copyAll build calmPlatform (Mfg.ramTlv size mfgHeaderSize) (front ++ rest) start.2.1.mem =
          copyAll build calmPlatform (Mfg.ramTlv size mfgHeaderSize) rest x.2.1.mem := by
  induction hx with
  | init h =>
    cases h
    exact ⟨hblock, hview, [], rfl, fun _ => rfl⟩
  | @step x y _ _ _ hstep ih =>
    obtain ⟨hblockX, hviewX, front, hfront, hcopyX⟩ := ih
    have hlenX : ∀ element ∈ elements x.1, element.2.length < 65536 := by
      intro element hmem
      refine hlen element ?_
      rw [hfront]
      exact List.mem_append_right front hmem
    have hround := @round_spec σ α build fetch view m elements rank block size hsize hw x hblockX
      hviewX hlenX
    have hnext : (copyRound build fetch block (ramTlv size mfgHeaderSize) x.1 x.2.1
        x.2.2).getLeft? = some y := hstep
    generalize copyRound build fetch block (ramTlv size mfgHeaderSize) x.1 x.2.1 x.2.2 = r
      at hround hnext
    rcases r with z | ended
    · obtain rfl : z = y := Option.some.inj hnext
      cases hround with
      | next later hends hrank hafter hstop hfits hviewY hheap herased hlater hcopy =>
        refine ⟨hblockX.follows hafter, hviewY, front ++ later, ?_, fun rest => ?_⟩
        · rw [hfront, hlater, List.append_assoc]
        · rw [List.append_assoc, hcopyX, hcopy]
    · cases hnext

/-- The records of all elements fit the copy, with the flags record behind them. -/
def HasRoom (build : Build) (size : Nat) (all : List Element) : Prop :=
  mfgHeaderSize + usedBy (all.filterMap build.copied) + recordSize mfgFlagsSize ≤ size

/-- Where a copy has room for all elements, each with a length that a record can write down, a
round is harmless as soon as the buffer holds what it reads. -/
theorem harmless_of_room {platform : Platform} (hsize : size + 65544 ≤ 2 ^ 32)
    (hw : Walks build fetch view m elements rank) (hblock : start.2.1.InBlock size)
    (hfresh : start.2.1.mem = freshCopy platform size) (hview : view start.2.2.storage = m)
    (htags : ∀ element ∈ elements start.1, element.1 ≠ emptyType)
    (hlen : ∀ element ∈ elements start.1, element.2.length < 65536)
    (hsized : Sized build (elements start.1)) (hroom : HasRoom build size (elements start.1))
    (hx : (loopRounds build fetch block (ramTlv size mfgHeaderSize) start).Reachable x)
    (hdefined : (fetch x.1 x.2.2.storage).1 ≠ .undefined) :
    Harmless build fetch size (elements start.1) x := by
  obtain ⟨-, hviewX, front, hfront, hcopy⟩ := reachable_elements hsize hw hblock hview hlen hx
  have hmem : ∀ element ∈ front, element ∈ elements start.1 := by
    intro element hmem
    rw [hfront]
    exact List.mem_append_left _ hmem
  -- The copy holds the records of the elements in front.
  have hcopied := hcopy []
  rw [List.append_nil, hfresh] at hcopied
  have hfilling := filling_of_copyAll hsize (fun element h => htags element (hmem element h))
    (fun element h => hsized element (hmem element h)) hcopied
  have hleaves : LeavesHeader (Mfg.ramTlv size mfgHeaderSize) x.2.1.mem := by
    refine leavesHeader_of_filling hfilling ?_
    have hrec : recordSize mfgFlagsSize = 8 := rfl
    unfold HasRoom at hroom
    rw [hfront, List.filterMap_append, usedBy_append, hrec] at hroom
    unfold headerSize
    omega
  refine ⟨⟨hdefined, ?_⟩, fun _ => hleaves, fun _ _ => hsized⟩
  intro tag payload next hfetch hkey
  have hshows := hw.shows x.1 x.2.2.storage hviewX
  rw [hfetch] at hshows
  have hlast : (tag, payload) ∈ elements start.1 := by
    rw [hfront, hshows.1]
    exact List.mem_append_right front List.mem_cons_self
  have hshort : payload.length < 256 := (hsized _ hlast hkey).2
  exact ⟨hleaves, fun hover => by have hlong := hover.1; omega⟩

/-- A copy with room for the elements has room for its header. -/
theorem HasRoom.header {all : List Element} (h : HasRoom build size all) :
    mfgHeaderSize ≤ size := by
  unfold HasRoom at h
  omega

end Room

/-! ### Either image -/

section Images

variable {build : Build} {platform : Platform} {ramFaults : Nat → Int} {tlv : TlvCtx σ}
  {view : σ → Mem} {s : σ} {heap : Heap} {imports : Nat → Int}

/-- What a round of `parse_mfg_raw_tlv` reads is defined where the buffer holds the elements. -/
theorem fetchRaw_defined (hs : Readable tlv.storageImpl view)
    (hend : tlv.endOffset + 65544 ≤ 2 ^ 32) {m : Mem} {o : Nat} (hview : view s = m)
    (hmax : ∀ element ∈ rawElements m tlv.endOffset o, element.2.length ≤ build.maxElementSize) :
    (fetchRaw build tlv o s).1 ≠ .undefined := by
  obtain ⟨read, hread, hspec⟩ := hs.read
  unfold fetchRaw
  by_cases ho : o < tlv.endOffset
  · simp only [ho, if_true, hread]
    rcases hkey : read s o 2 with ⟨ret, key, s₁⟩
    obtain ⟨hv₁, hkeyData⟩ := hspec s o 2
    rw [hkey, hview] at hv₁ hkeyData
    simp only at hv₁ hkeyData ⊢
    by_cases hret : ret = 0
    · have htag : beWord key = tagAt m o := by
        rw [hkeyData hret]
        rfl
      rw [if_neg (not_not.mpr hret), htag]
      by_cases hempty : tagAt m o = tagEmpty
      · rw [if_pos hempty]
        exact fun h => by cases h
      · have ho₂ : u32 (o + 2) = o + 2 := u32_of_lt (by omega)
        rw [if_neg hempty, ho₂]
        rcases hsize : read s₁ (o + 2) 2 with ⟨ret₂, size, s₂⟩
        obtain ⟨-, hsizeData⟩ := hspec s₁ (o + 2) 2
        rw [hsize, hv₁] at hsizeData
        simp only at hsizeData ⊢
        by_cases hret₂ : ret₂ = 0
        · have hsizeAt : (beWord size).toNat = sizeAt m o := by
            rw [hsizeData hret₂]
            rfl
          have hfits : ¬build.maxElementSize < sizeAt m o := by
            rw [rawElements_hop ho hempty, List.forall_mem_cons] at hmax
            have hhere := hmax.1
            rw [elementAt, Mem.length_slice] at hhere
            exact Nat.not_lt.mpr hhere
          rw [if_neg (not_not.mpr hret₂), hsizeAt, if_neg hfits]
          split
          · exact fun h => by cases h
          · exact fun h => by cases h
        · rw [if_pos hret₂]
          exact fun h => by cases h
    · rw [if_pos hret]
      exact fun h => by cases h
  · rw [if_neg ho]
    exact fun h => by cases h

/-- A raw image never harms its migration, whatever fails, where the buffer holds its elements,
those that are copied have 1 to 255 bytes, and the partition has room for the copy. -/
theorem rawTlv_harmless (hs : Readable tlv.storageImpl view)
    (hend : tlv.endOffset + 65544 ≤ 2 ^ 32)
    (hmax : ∀ element ∈ rawElements (view s) tlv.endOffset tlv.firstOffset,
      element.2.length ≤ build.maxElementSize)
    (hsized : Sized build (rawElements (view s) tlv.endOffset tlv.firstOffset))
    (hroom : HasRoom build (tlv.endOffset - tlv.startOffset)
      (rawElements (view s) tlv.endOffset tlv.firstOffset)) :
    HarmlessRun build platform ramFaults (fetchRaw build tlv) tlv.firstOffset tlv
      (rawElements (view s) tlv.endOffset tlv.firstOffset) s heap imports := by
  refine fun _ => ⟨hroom.header, fun x hx => ?_⟩
  have hwalks := @fetchRaw_walks σ build tlv view (view s) hs hend
  have hlen := @length_rawElements (view s) tlv.endOffset tlv.firstOffset
  have hsize : tlv.endOffset - tlv.startOffset + 65544 ≤ 2 ^ 32 := by omega
  have hfirst : (firstRound platform ramFaults (tlv.endOffset - tlv.startOffset) tlv.firstOffset s
      heap imports).2.1.InBlock (tlv.endOffset - tlv.startOffset) := ⟨rfl, rfl⟩
  obtain ⟨-, hview, front, hfront, -⟩ := reachable_elements hsize hwalks hfirst rfl hlen hx
  refine harmless_of_room hsize hwalks hfirst rfl rfl tag_rawElements hlen hsized hroom hx ?_
  refine fetchRaw_defined hs hend hview fun element hmem => hmax element ?_
  have hsplit : rawElements (view s) tlv.endOffset tlv.firstOffset =
      front ++ rawElements (view s) tlv.endOffset x.1 := hfront
  rw [hsplit]
  exact List.mem_append_right front hmem

/-- Where the next round goes on. -/
def Fetched.nextPos : Fetched α → Option α
  | .skip pos => some pos
  | .element _ _ pos => some pos
  | _ => none

/-- A round over the rows takes the first of them. -/
theorem fetchConst_next {row : ConstElement} {rest next : List ConstElement}
    (h : (fetchConst build tlv (row :: rest) s).1.nextPos = some next) : next = rest := by
  unfold fetchConst at h
  cases hread : tlv.storageImpl.read with
  | none =>
    simp only [hread] at h
    cases h
  | some read =>
    simp only [hread] at h
    split at h
    · cases h
    · split at h
      · cases h
      · split at h
        · exact (Option.some.inj h).symm
        · exact (Option.some.inj h).symm

/-- The next round begins where this one has read to. -/
theorem nextRound_pos {build : Build} {fetch : α → σ → Fetched α × σ} {block : Nat}
    {ramCtx : TlvCtx RamCopy} {x y : LoopState α σ}
    (h : nextRound build fetch block ramCtx x = some y) :
    (fetch x.1 x.2.2.storage).1.nextPos = some y.1 := by
  unfold nextRound copyRound at h
  generalize fetch x.1 x.2.2.storage = found at h ⊢
  obtain ⟨fetched, s⟩ := found
  cases fetched with
  | stop => cases h
  | failed => cases h
  | undefined => cases h
  | skip next =>
    cases h
    rfl
  | element tag payload next =>
    simp only at h
    generalize storeElement build block ramCtx tag payload x.2.1 { x.2.2 with storage := s } =
      stored at h
    rcases stored with ⟨ram | outcome, host⟩
    · cases h
      rfl
    · cases h

/-- An older image never harms its migration, whatever fails, where the buffer holds the 64 bytes
that an element of its layout has at most, and the partition has room for the copy. -/
theorem constOffsets_harmless (hmax : 64 ≤ build.maxElementSize)
    (hs : Readable tlv.storageImpl view) (hend : tlv.endOffset + 65544 ≤ 2 ^ 32)
    (hroom : HasRoom build (tlv.endOffset - tlv.startOffset)
      (constElements (view s) tlv.startOffset build.valueToOffsetTable)) :
    HarmlessRun build platform ramFaults (fetchConst build tlv) build.valueToOffsetTable tlv
      (constElements (view s) tlv.startOffset build.valueToOffsetTable) s heap imports := by
  refine fun _ => ⟨hroom.header, fun x hx => ?_⟩
  have hrow := @constElements_rows build tlv.startOffset (view s)
  have hfirst : (firstRound platform ramFaults (tlv.endOffset - tlv.startOffset)
      build.valueToOffsetTable s heap imports).2.1.InBlock (tlv.endOffset - tlv.startOffset) :=
    ⟨rfl, rfl⟩
  refine harmless_of_room (by omega) (fetchConst_walks hs) hfirst rfl rfl
    (fun element hmem => (hrow element hmem).1)
    (fun element hmem => Nat.lt_trans (hrow element hmem).2.2.2 (by decide))
    (fun element hmem _ => (hrow element hmem).2.2) hroom hx ?_
  -- The rows that are left are rows of the table.
  have hrows : ∀ row ∈ x.1, row.size ≤ 64 := by
    induction hx with
    | init h =>
      cases h
      have htable : ∀ row ∈ offsetRows, row.2.1 ≤ 64 := by decide
      intro row hrow
      obtain ⟨entry, hentry, rfl⟩ := List.mem_map.mp hrow
      exact htable entry hentry
    | @step x y _ _ _ hstep ih =>
      have hpos := nextRound_pos hstep
      cases hrows : x.1 with
      | nil =>
        rw [hrows] at hpos
        cases hpos
      | cons row rest =>
        rw [hrows] at hpos ih
        rw [fetchConst_next hpos]
        exact (List.forall_mem_cons.mp ih).2
  obtain ⟨read, hread, -⟩ := hs.read
  cases hpos : x.1 with
  | nil => exact fun h => by cases h
  | cons row rest =>
    rw [hpos] at hrows
    have hrow : ¬build.maxElementSize < row.size := by
      have hle := hrows row List.mem_cons_self
      omega
    unfold fetchConst
    simp only [hread, hrow, if_false]
    split
    · exact fun h => by cases h
    · split
      · exact fun h => by cases h
      · exact fun h => by cases h

end Images

/-! ## The partition in flash -/

theorem flash_readable : Readable Flash.storage Flash.mem where
  read := ⟨_, rfl, fun _ _ _ => ⟨rfl, fun _ => rfl⟩⟩
  write := ⟨_, rfl⟩
  erase := ⟨_, rfl⟩

/-- A partition with the elements 1 and 2. -/
def twoElements : Flash :=
  ⟨Mem.blit (fun _ => 0xFF) 0 (mfgHeader ++ [0, 1, 0, 4, 1, 2, 3, 4, 0, 2, 0, 3, 5, 6, 7]), []⟩

theorem rawElements_two :
    rawElements twoElements.mem 64 8 = [(1, [1, 2, 3, 4]), (2, [5, 6, 7])] := by
  have hfirst : tagAt twoElements.mem 8 ≠ tagEmpty := by decide +kernel
  have hsecond : tagAt twoElements.mem 16 ≠ tagEmpty := by decide +kernel
  have hlast : tagAt twoElements.mem 23 = tagEmpty := by decide +kernel
  have hnext : 8 + 4 + sizeAt twoElements.mem 8 = 16 := by decide +kernel
  have hstop : 16 + 4 + sizeAt twoElements.mem 16 = 23 := by decide +kernel
  have helements : [elementAt twoElements.mem 8, elementAt twoElements.mem 16] =
      [(1, [1, 2, 3, 4]), (2, [5, 6, 7])] := by decide +kernel
  rw [rawElements_hop (by decide) hfirst, hnext, rawElements_hop (by decide) hsecond, hstop,
    rawElements_stop (.inr hlast), helements]

theorem max_two : ∀ element ∈ rawElements twoElements.mem 64 8, element.2.length ≤ 64 := by
  rw [rawElements_two]
  decide

theorem sized_two : Sized defaultBuild (rawElements twoElements.mem 64 8) := by
  rw [rawElements_two]
  unfold Sized
  decide

theorem room_two : HasRoom defaultBuild 64 (rawElements twoElements.mem 64 8) := by
  rw [rawElements_two]
  unfold HasRoom
  decide

theorem two_harmless (ramFaults : Nat → Int) : HarmlessRun defaultBuild calmPlatform ramFaults
    (fetchRaw defaultBuild (tlvFlash Flash.storage 0 64)) 8 (tlvFlash Flash.storage 0 64)
    (rawElements twoElements.mem 64 8) twoElements Heap.empty fun _ => 0 :=
  rawTlv_harmless flash_readable (by decide) max_two sized_two room_two

/-- The partition is left intact by the migration of its two elements, by one in which the write of
the second fails, and by the migration of its bytes as an older image. -/
theorem migrations_intact_two :
    (LeavesIntact defaultBuild (tlvFlash Flash.storage 0 64) Flash.mem
        (rawElements twoElements.mem 64 8) twoElements Heap.empty
        (parseMfgRawTlv defaultBuild calmPlatform (fun _ => 0) (tlvFlash Flash.storage 0 64)
          twoElements Heap.empty fun _ => 0) ∧
      LeavesIntact defaultBuild (tlvFlash Flash.storage 0 64) Flash.mem
        (constElements twoElements.mem 0 defaultBuild.valueToOffsetTable) twoElements Heap.empty
        (parseMfgConstOffsets defaultBuild calmPlatform (fun _ => 0) (tlvFlash Flash.storage 0 64)
          twoElements Heap.empty fun _ => 0)) ∧
    LeavesIntact defaultBuild (tlvFlash Flash.storage 0 64) Flash.mem
      (rawElements twoElements.mem 64 8) twoElements Heap.empty
      (parseMfgRawTlv defaultBuild calmPlatform (fun n => if n = 3 then 5 else 0)
        (tlvFlash Flash.storage 0 64) twoElements Heap.empty fun _ => 0) := by
  have h (ramFaults : Nat → Int) := migrations_intact_iff defaultBuild calmPlatform ramFaults
    (tlvFlash Flash.storage 0 64) Flash.mem flash_readable (by decide) twoElements Heap.empty
    fun _ => 0
  refine ⟨⟨(h _).1.mpr (two_harmless _), (h _).2.mpr ?_⟩, (h _).1.mpr (two_harmless _)⟩
  refine constOffsets_harmless (by decide) flash_readable (by decide) ?_
  unfold HasRoom
  decide +kernel

/-- A partition with an element that announces 65 bytes. -/
def longElement : Flash := ⟨Mem.blit (fun _ => 0xFF) 0 (mfgHeader ++ [0, 1, 0, 65]), []⟩

/-- The migration of an element that is longer than the buffer does not return. -/
theorem long_element_overruns_buffer : ¬LeavesIntact defaultBuild (tlvFlash Flash.storage 0 128)
    Flash.mem (rawElements longElement.mem 128 8) longElement Heap.empty
    (parseMfgRawTlv defaultBuild calmPlatform (fun _ => 0) (tlvFlash Flash.storage 0 128)
      longElement Heap.empty fun _ => 0) := by
  intro h
  have hundefined : (parseMfgRawTlv defaultBuild calmPlatform (fun _ => 0)
      (tlvFlash Flash.storage 0 128) longElement Heap.empty fun _ => 0).1 = .undefined := by
    decide +kernel
  have hreturns := h.returns
  rw [hundefined] at hreturns
  exact hreturns

end Sidewalk.Mfg.Failing
