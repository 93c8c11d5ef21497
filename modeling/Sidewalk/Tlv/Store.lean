import Sidewalk.Lib.Journal
import Sidewalk.Tlv.Record

/-!
# The store refines a journal

What the store is for: an append-only map in which the first write of a type wins. `Entry` is a
write the format can represent, `Log` the journal of the entries accepted so far, and `Stored`
the relation between a log and the bytes of the region: the records one behind the other, then
erased flash. One write keeps the relation (`tlvWrite_stored`), so every run does
(`runWrites_stored`), and in a related region both scans answer from the log (`Stored.lookup`).
-/

namespace Sidewalk.Tlv

open Sidewalk.Lib

variable {σ : Type}

/-! ## Entries -/

/-- A write whose header says what it holds and is no free-slot marker. -/
structure Entry where
  type : UInt16
  data : List UInt8
  type_ne : type ≠ emptyType
  pos : 0 < data.length
  short : data.length < 256

namespace Entry

def bytes (e : Entry) : List UInt8 := record e.type e.data

def size (e : Entry) : Nat := recordSize e.data.length

def header (e : Entry) : TlvHeader := makeHeader e.type e.data.length

@[simp] theorem length_bytes (e : Entry) : e.bytes.length = e.size := length_record e.type e.data

theorem eight_le_size (e : Entry) : 8 ≤ e.size := by
  have hpos := e.pos
  have hpad := le_paddedSize e.data.length
  have hmod := paddedSize_mod e.data.length
  unfold size recordSize headerSize
  omega

theorem size_le (e : Entry) : e.size ≤ 262 := by
  have hshort := e.short
  have hpad := paddedSize_lt e.data.length
  unfold size recordSize headerSize
  omega

theorem dataSize_header (e : Entry) : e.header.payloadSize.dataSize.toNat = e.data.length := by
  rw [header, toNat_dataSize_makeHeader, Nat.mod_eq_of_lt e.short]

end Entry

/-- The entries accepted into a region of `capacity` bytes. -/
abbrev Log (capacity : Nat) := Journal Entry Entry.size capacity

/-! ## Regions that store a log -/

/-- From `o` on the region holds the records of the entries, and is erased behind them. -/
inductive Stored (m : Mem) (endOffset : Nat) : Nat → List Entry → Prop
  | nil {o : Nat} (blank : ∀ a, o ≤ a → a < endOffset → m a = 0xFF) : Stored m endOffset o []
  | cons {o : Nat} {e : Entry} {es : List Entry} (held : Holds m o e.type e.data)
      (rest : Stored m endOffset (o + e.size) es) : Stored m endOffset o (e :: es)

def usedBy (es : List Entry) : Nat := (es.map Entry.size).sum

@[simp] theorem usedBy_nil : usedBy [] = 0 := rfl

@[simp] theorem usedBy_cons (e : Entry) (es : List Entry) :
    usedBy (e :: es) = e.size + usedBy es := List.sum_cons

section Region

variable {m : Mem} {endOffset o : Nat} {es : List Entry}

/-- Every header that fits behind the records is an erased one. -/
theorem headerAt_blank (hb : ∀ a, o ≤ a → a < endOffset → m a = 0xFF)
    (ho : o + headerSize ≤ endOffset) :
    headerAt m o = bytesToHeader (List.replicate headerSize 0xFF) :=
  headerAt_eq (Mem.slice_const fun a h₁ h₂ => hb a h₁ (by omega))

/-- A lookup that starts in erased flash walks through it to the end. -/
theorem findType_blank {type : UInt16} (htype : type ≠ emptyType)
    (hb : ∀ a, o ≤ a → a < endOffset → m a = 0xFF) : findType m endOffset type o = none := by
  induction o using (lookupHops m endOffset type).induct with
  | stop o hn =>
    rcases lookupHops_none.mp hn with h | h
    · exact findType_out h
    · by_cases hin : o + headerSize ≤ endOffset
      · rw [headerAt_blank hb hin] at h
        exact absurd h.symm htype
      · exact findType_out (by omega)
  | hop o o' hn ih =>
    rw [findType_hop hn]
    exact ih fun a h₁ h₂ => hb a (Nat.le_trans (Nat.le_of_lt (Hops.lt_next _ hn)) h₁) h₂

/-- The free-slot search passes every stored record. -/
theorem Stored.path (h : Stored m endOffset o es) (hroom : o + usedBy es ≤ endOffset) :
    (freeHops m endOffset).Path o (o + usedBy es) := by
  induction h with
  | nil => exact .refl _
  | @cons o e es held _ ih =>
    rw [usedBy_cons] at hroom ⊢
    have hnext := freeHops_next (by omega : o ≤ endOffset)
      (held.not_isFree e.type_ne e.pos e.short)
    rw [held.nextRecord e.short] at hnext
    refine .hop hnext ?_
    rw [← Nat.add_assoc]
    exact ih (by unfold Entry.size at hroom ⊢; omega)

theorem Stored.blank (h : Stored m endOffset o es) :
    ∀ a, o + usedBy es ≤ a → a < endOffset → m a = 0xFF := by
  induction h with
  | nil hb => exact hb
  | cons _ _ ih =>
    intro a h₁ h₂
    rw [usedBy_cons] at h₁
    exact ih a (by omega) h₂

/-- The free slot stands right behind the stored records. -/
theorem Stored.freeSlot (h : Stored m endOffset o es)
    (hroom : o + usedBy es + headerSize ≤ endOffset) :
    freeSlot m endOffset o = o + usedBy es := by
  rw [freeSlot_path (h.path (by omega))]
  refine freeSlot_free (by omega) ?_
  rw [headerAt_blank h.blank hroom]
  exact .inl rfl

/-- The free-slot search and the log agree on whether a record fits. -/
theorem Stored.fits_iff (h : Stored m endOffset o es) {n : Nat} (hn : headerSize ≤ n)
    (hused : es = [] ∨ o + usedBy es ≤ endOffset) :
    Tlv.freeSlot m endOffset o + n ≤ endOffset ↔ o + usedBy es + n ≤ endOffset := by
  have hsize : headerSize = 4 := rfl
  constructor
  · intro hfits
    have hlt : Tlv.freeSlot m endOffset o < endOffset := by omega
    have hle := le_freeSlot hlt
    have hroom : o + usedBy es ≤ endOffset := by
      rcases hused with rfl | hused
      · rw [usedBy_nil]; omega
      · exact hused
    rw [freeSlot_path (h.path hroom)] at hlt hfits
    have := le_freeSlot hlt
    omega
  · intro hfits
    rw [h.freeSlot (by omega)]
    exact hfits

/-- Writing a record behind the stored ones stores it too. -/
theorem Stored.append (h : Stored m endOffset o es) (e : Entry) :
    Stored (m.blit (o + usedBy es) e.bytes) endOffset o (es ++ [e]) := by
  induction h with
  | @nil o hb =>
    rw [usedBy_nil, Nat.add_zero, List.nil_append]
    refine .cons (holds_blit m o e.type e.data) (.nil fun a h₁ h₂ => ?_)
    rw [Mem.blit_above (by rwa [e.length_bytes])]
    exact hb a (by omega) h₂
  | @cons o e' es held _ ih =>
    rw [usedBy_cons, ← Nat.add_assoc, List.cons_append]
    refine .cons (held.congr ?_) ih
    exact (m.agree_blit_below _ (by unfold Entry.size; omega)).symm

/-- In a region that stores the entries, a lookup finds the first one of its type. -/
theorem Stored.find (h : Stored m endOffset o es) (hroom : es = [] ∨ o + usedBy es ≤ endOffset)
    {type : UInt16} (htype : type ≠ emptyType) :
    match es.find? (·.type = type) with
    | none => findType m endOffset type o = none
    | some e => ∃ p, findType m endOffset type o = some p ∧ Holds m p e.type e.data ∧
        p + e.size ≤ endOffset := by
  induction h with
  | nil hb => exact findType_blank htype hb
  | @cons o e es held _ ih =>
    have hroom : o + (e.size + usedBy es) ≤ endOffset := by simpa using hroom
    have hsize : headerSize ≤ e.size := Nat.le_trans (by decide) e.eight_le_size
    by_cases ht : e.type = type
    · simp only [ht, decide_true, List.find?_cons_of_pos]
      refine ⟨o, findType_here (by omega) ?_, ht ▸ held, by omega⟩
      rw [held.headerAt]
      exact ht
    · have hnext : (lookupHops m endOffset type).next o = some (o + e.size) := by
        rw [lookupHops_next (by omega) (by rw [held.headerAt]; exact ht),
          held.nextRecord e.short, Entry.size]
      rw [List.find?_cons_of_neg (by simpa using ht), findType_hop hnext]
      exact ih (.inr (by omega))

end Region

/-! ## Runs of writes -/

/-- The calls one after the other: what they returned and the storage behind them, `none` where
one does not return. -/
def runWrites (ctx : TlvCtx σ) : σ → List (UInt16 × List UInt8) → Option (List Int × σ)
  | s, [] => some ([], s)
  | s, (type, data) :: calls =>
    match tlvWrite ctx s type data with
    | (none, _) => none
    | (some ret, s) => (runWrites ctx s calls).map fun (rets, s) => (ret :: rets, s)

def Entry.call (e : Entry) : UInt16 × List UInt8 := (e.type, e.data)

section Refinement

variable {ctx : TlvCtx σ} {view : σ → Mem}

/-- The bytes a region has for records. -/
def TlvCtx.capacity (ctx : TlvCtx σ) : Nat := ctx.endOffset - ctx.firstOffset

/-- The storage holds the log. -/
def Refines (ctx : TlvCtx σ) (view : σ → Mem) (s : σ) (log : Log ctx.capacity) : Prop :=
  Stored (view s) ctx.endOffset ctx.firstOffset log.entries

/-- A log is empty, or it and its region are: the entries end inside the region. -/
theorem Log.room (log : Log ctx.capacity) :
    log.entries = [] ∨ ctx.firstOffset + usedBy log.entries ≤ ctx.endOffset := by
  have hfits := log.fits
  cases hes : log.entries with
  | nil => exact .inl rfl
  | cons e es =>
    right
    have hpos := e.eight_le_size
    rw [← hes]
    change usedBy log.entries ≤ ctx.endOffset - ctx.firstOffset at hfits
    rw [hes, usedBy_cons] at hfits ⊢
    omega

theorem Log.accepts_iff (log : Log ctx.capacity) (e : Entry) :
    log.Accepts e ↔ ctx.firstOffset + usedBy log.entries + e.size ≤ ctx.endOffset := by
  have hpos := e.eight_le_size
  have hdef : log.Accepts e ↔ usedBy log.entries + e.size ≤ ctx.endOffset - ctx.firstOffset :=
    Iff.rfl
  rw [hdef]
  omega

/-- The answer the journal gives to a write. -/
def Log.answer {capacity : Nat} (log : Log capacity) (e : Entry) : Int :=
  if log.Accepts e then 0 else -enomem

/-- One write keeps the storage and the log in step. -/
theorem tlvWrite_stored (hs : FaultFree ctx.storageImpl view) (hw : NoWrap ctx) {s : σ}
    {log : Log ctx.capacity} (h : Refines ctx view s log) (e : Entry) :
    ∃ s', tlvWrite ctx s e.type e.data = (some (log.answer e), s') ∧
      Refines ctx view s' (log.push e) ∧ (¬log.Accepts e → view s' = view s) := by
  have hlast := hw.last
  have hsize := e.size_le
  have hfits := h.fits_iff (Nat.le_trans (by decide) e.eight_le_size) log.room
  by_cases hacc : log.Accepts e
  · have hin := (log.accepts_iff e).mp hacc
    have hslot := h.freeSlot (by have := e.eight_le_size; unfold headerSize; omega)
    obtain ⟨s', hs', hv'⟩ := tlvWrite_fits hs hw s e.type e.data (hfits.mpr hin)
      (by have := e.short; omega)
    refine ⟨s', ?_, ?_, fun hn => absurd hacc hn⟩
    · rw [hs', Log.answer, if_pos hacc]
    · rw [Refines, hv', hslot, Journal.entries_push log hacc]
      exact h.append e
  · have hout : ¬_ := fun hin => hacc ((log.accepts_iff e).mpr (hfits.mp hin))
    obtain ⟨s', hs', hv'⟩ := tlvWrite_full hs hw s e.type e.data
      (by unfold Entry.size at hsize; omega) (by unfold Entry.size at hout; omega)
    refine ⟨s', ?_, ?_, fun _ => hv'⟩
    · rw [hs', Log.answer, if_neg hacc]
    · rw [Refines, hv', Journal.push_of_full log hacc]
      exact h

/-- What the journal answers to the calls. -/
def Log.answers {capacity : Nat} (log : Log capacity) : List Entry → List Int
  | [] => []
  | e :: es => log.answer e :: Log.answers (log.push e) es

/-- Every run of writes keeps the storage and the log in step. -/
theorem runWrites_stored (hs : FaultFree ctx.storageImpl view) (hw : NoWrap ctx) {s : σ}
    {log : Log ctx.capacity} (h : Refines ctx view s log) (es : List Entry) :
    ∃ s', runWrites ctx s (es.map Entry.call) = some (log.answers es, s') ∧
      Refines ctx view s' (log.pushAll es) := by
  induction es generalizing s log with
  | nil => exact ⟨s, rfl, h⟩
  | cons e es ih =>
    obtain ⟨s₁, hs₁, h₁, -⟩ := tlvWrite_stored hs hw h e
    obtain ⟨s₂, hs₂, h₂⟩ := ih h₁
    refine ⟨s₂, ?_, h₂⟩
    simp only [List.map_cons, Entry.call, runWrites, hs₁] at hs₂ ⊢
    rw [hs₂]
    rfl

/-- Both scans answer from the log. -/
theorem Refines.lookup (hs : FaultFree ctx.storageImpl view) (hw : NoWrap ctx) {s : σ}
    {log : Log ctx.capacity} (h : Refines ctx view s log) {type : UInt16}
    (htype : type ≠ emptyType) (n : Nat) :
    match log.first Entry.type type with
    | none => (tlvLookup ctx s type).1 = some (-enodata, none) ∧
        (tlvRead ctx s type n).1 = some (-enodata, [])
    | some e => (tlvLookup ctx s type).1 = some (0, some e.header) ∧
        (n ≤ e.data.length → (tlvRead ctx s type n).1 = some (0, e.data.take n)) := by
  obtain ⟨s₁, hlook, -⟩ := tlvLookup_eq hs hw s type
  obtain ⟨s₂, hread, -⟩ := tlvRead_eq hs hw s type n
  have hfind := Stored.find h log.room htype
  rw [hlook, hread]
  unfold Journal.first
  cases hfirst : log.entries.find? (·.type = type) with
  | none =>
    rw [hfirst] at hfind
    rw [hfind]
    exact ⟨rfl, rfl⟩
  | some e =>
    rw [hfirst] at hfind
    obtain ⟨p, hp, held, hin⟩ := hfind
    rw [hp]
    refine ⟨?_, fun hn => ?_⟩
    · rw [lookupResult, held.headerAt]
      rfl
    · rw [held.readResult e.short hin hn]

/-- The entries a run of writes on an erased region gets accepted. -/
def acceptedBy (ctx : TlvCtx σ) (calls : List Entry) : Log ctx.capacity :=
  Journal.empty.pushAll calls

/-- The store is a first-write-wins append-only map. On an erased region every run of writes
returns what the journal answers; behind it the next write is accepted exactly when its record
still fits, a rejected one changes nothing, and both scans show the first accepted entry of a
type. -/
theorem store_refines_journal (hs : FaultFree ctx.storageImpl view) (hw : NoWrap ctx) (s : σ)
    (hblank : ∀ a, ctx.firstOffset ≤ a → a < ctx.endOffset → view s a = 0xFF)
    (calls : List Entry) :
    ∃ s', runWrites ctx s (calls.map Entry.call) =
        some (Log.answers (acceptedBy ctx []) calls, s') ∧
      (∀ e : Entry,
        let behind := ctx.firstOffset + usedBy (acceptedBy ctx calls).entries + e.size
        ∃ s'', tlvWrite ctx s' e.type e.data =
            (some (if behind ≤ ctx.endOffset then 0 else -enomem), s'') ∧
          (ctx.endOffset < behind → view s'' = view s')) ∧
      ∀ type, type ≠ emptyType → ∀ n,
        match (acceptedBy ctx calls).first Entry.type type with
        | none => (tlvLookup ctx s' type).1 = some (-enodata, none) ∧
            (tlvRead ctx s' type n).1 = some (-enodata, [])
        | some e => (tlvLookup ctx s' type).1 = some (0, some e.header) ∧
            e.header.payloadSize.dataSize.toNat = e.data.length ∧
            (n ≤ e.data.length → (tlvRead ctx s' type n).1 = some (0, e.data.take n)) := by
  have hinit : Refines ctx view s (acceptedBy ctx []) := .nil hblank
  obtain ⟨s', hrun, (href : Refines ctx view s' (acceptedBy ctx calls))⟩ :=
    runWrites_stored hs hw hinit calls
  refine ⟨s', hrun, fun e => ?_, fun type htype n => ?_⟩
  · obtain ⟨s'', hwrite, -, hsame⟩ := tlvWrite_stored hs hw href e
    have hacc := Log.accepts_iff (acceptedBy ctx calls) e
    refine ⟨s'', ?_, fun hout => hsame fun h => ?_⟩
    · rw [hwrite]
      exact congrArg (fun ret => (some ret, s'')) (if_congr hacc rfl rfl)
    · have := hacc.mp h
      omega
  · have hlook := href.lookup hs hw htype n
    cases hfirst : (acceptedBy ctx calls).first Entry.type type with
    | none =>
      rw [hfirst] at hlook
      exact hlook
    | some e =>
      rw [hfirst] at hlook
      exact ⟨hlook.1, e.dataSize_header, hlook.2⟩

/-- A 24-byte region in RAM takes the first two of three writes and shows the first of the two. -/
theorem store_refines_journal_ram :
    ∃ s', runWrites (ramCtx 0 24 8) (fun _ => 0xFF) [(1, [7, 8]), (1, [9]), (2, [5])] =
        some ([0, 0, -12], s') ∧
      (tlvRead (ramCtx 0 24 8) s' 1 2).1 = some (0, [7, 8]) := by
  obtain ⟨s', hrun, -, hread⟩ := store_refines_journal (ramCtx_faultFree 0 24 8)
    ⟨by decide, by decide⟩ (fun _ => 0xFF) (fun _ _ _ => rfl)
    [⟨1, [7, 8], by decide, by decide, by decide⟩, ⟨1, [9], by decide, by decide, by decide⟩,
      ⟨2, [5], by decide, by decide, by decide⟩]
  refine ⟨s', hrun, ?_⟩
  exact (hread 1 (by decide) 2).2.2 (by decide)

end Refinement

end Sidewalk.Tlv
