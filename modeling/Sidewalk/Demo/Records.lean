import Mathlib.Logic.Relation
import Sidewalk.Demo.HeaderUtils
import Sidewalk.Demo.Parser

/-!
# Where the deserializers end

What the reads do where too little data are left, and the loop of a deserializer as a relation on
the bytes alone (`Decodes`). The loop does not look at `ret_code`, so it ends exactly on the
buffers that split into records as it reads them (`Splits`).
-/

namespace Sidewalk.Demo

open Sidewalk.Lib

/-! ## Reads -/

/-- How bytes are read: the header they begin with and its length, and integers. -/
structure ReadFormat where
  tlOf : List UInt8 → Option (TlInTlv × Nat)
  uint8 : List UInt8 → UInt8
  uint16 : List UInt8 → UInt16
  uint32 : List UInt8 → UInt32

/-- Reads so many bytes. With too little data left `ret_code` is set and the offset stays, and
once it is set nothing is done. -/
structure ReadsSize {β : Type} (read : SidParseState → SidParseState × Option β) (n : Nat)
    (decode : List UInt8 → β) : Prop where
  done : ∀ s, s.retCode ≠ errorNone → read s = (s, none)
  enough : ∀ s, s.retCode = errorNone → s.offset + n ≤ s.buffer.length →
    read s = (s.skip n, some (decode ((s.buffer.drop s.offset).take n)))
  short : ∀ s, s.retCode = errorNone → s.buffer.length < s.offset + n →
    ∃ code, code ≠ errorNone ∧ read s = ({ s with retCode := code }, none)

structure DocumentedReads (u : ParserUtils) (fmt : ReadFormat) : Prop where
  tl_bounds : ∀ bytes tl n, fmt.tlOf bytes = some (tl, n) → 0 < n ∧ n ≤ bytes.length
  tl_prefix : ∀ bytes tl n rest, fmt.tlOf bytes = some (tl, n) →
    fmt.tlOf (bytes.take n ++ rest) = some (tl, n)
  tl_done : ∀ s, s.retCode ≠ errorNone → u.readTlFromTlv s = (s, none)
  tl_enough : ∀ s tl n, s.retCode = errorNone → fmt.tlOf (s.buffer.drop s.offset) = some (tl, n) →
    u.readTlFromTlv s = (s.skip n, some tl)
  tl_short : ∀ s, s.retCode = errorNone → fmt.tlOf (s.buffer.drop s.offset) = none →
    ∃ code, code ≠ errorNone ∧ u.readTlFromTlv s = ({ s with retCode := code }, none)
  uint8 : ReadsSize u.readEntryUint8 1 fmt.uint8
  uint16 : ReadsSize u.readEntryUint16 2 fmt.uint16
  uint32 : ReadsSize u.readEntryUint32 4 fmt.uint32
  nbytes : ∀ n, ReadsSize (fun s => u.readEntryNbytes s n) n fun bytes => bytes

/-! ## Fields -/

section

variable {α : Type}

/-- What a deserializer does with the value of a record. -/
inductive FieldRead (α : Type)
  | block (store : Option (List UInt8) → α → α)
  | uint8 (store : Option UInt8 → α → α)
  | uint16 (store : Option UInt16 → α → α)
  | uint32 (store : Option UInt32 → α → α)
  | unknown

namespace FieldRead

/-- How many bytes are read. -/
def size (len : UInt8) : FieldRead α → Nat
  | block _ => len.toNat
  | uint8 _ => 1
  | uint16 _ => 2
  | uint32 _ => 4
  | unknown => 0

def known : FieldRead α → Bool
  | unknown => false
  | _ => true

def run (u : ParserUtils) (len : UInt8) (s : SidParseState) (a : α) :
    FieldRead α → SidParseState × α
  | block store =>
    ((u.readEntryNbytes s len.toNat).1, store (u.readEntryNbytes s len.toNat).2 a)
  | uint8 store => ((u.readEntryUint8 s).1, store (u.readEntryUint8 s).2 a)
  | uint16 store => ((u.readEntryUint16 s).1, store (u.readEntryUint16 s).2 a)
  | uint32 store => ((u.readEntryUint32 s).1, store (u.readEntryUint32 s).2 a)
  | unknown => (s, a)

/-- What becomes of the destination, where the bytes of the value are there or not. -/
def apply (fmt : ReadFormat) (value : Option (List UInt8)) (a : α) : FieldRead α → α
  | block store => store value a
  | uint8 store => store (value.map fmt.uint8) a
  | uint16 store => store (value.map fmt.uint16) a
  | uint32 store => store (value.map fmt.uint32) a
  | unknown => a

variable {u : ParserUtils} {fmt : ReadFormat} {s : SidParseState}

theorem run_done (hu : DocumentedReads u fmt) (hs : s.retCode ≠ errorNone) (f : FieldRead α)
    (len : UInt8) (a : α) : (f.run u len s a).1 = s := by
  cases f with
  | block store => exact congrArg Prod.fst ((hu.nbytes len.toNat).done s hs)
  | uint8 store => exact congrArg Prod.fst (hu.uint8.done s hs)
  | uint16 store => exact congrArg Prod.fst (hu.uint16.done s hs)
  | uint32 store => exact congrArg Prod.fst (hu.uint32.done s hs)
  | unknown => rfl

theorem run_enough (hu : DocumentedReads u fmt) (hs : s.retCode = errorNone) (f : FieldRead α)
    (len : UInt8) (hroom : s.offset + f.size len ≤ s.buffer.length) (a : α) :
    f.run u len s a = (s.skip (f.size len),
      f.apply fmt (some ((s.buffer.drop s.offset).take (f.size len))) a) := by
  cases f with
  | block store =>
    have hread := (hu.nbytes len.toNat).enough s hs hroom
    simp only [run, hread, size, apply]
  | uint8 store => simp only [run, hu.uint8.enough s hs hroom, size, apply, Option.map_some]
  | uint16 store => simp only [run, hu.uint16.enough s hs hroom, size, apply, Option.map_some]
  | uint32 store => simp only [run, hu.uint32.enough s hs hroom, size, apply, Option.map_some]
  | unknown => rfl

theorem run_short (hu : DocumentedReads u fmt) (hs : s.retCode = errorNone)
    (hinside : s.offset ≤ s.buffer.length) (f : FieldRead α) (len : UInt8)
    (hshort : s.buffer.length < s.offset + f.size len) (a : α) :
    ∃ code, code ≠ errorNone ∧
      f.run u len s a = ({ s with retCode := code }, f.apply fmt none a) := by
  cases f with
  | block store =>
    obtain ⟨code, hcode, hread⟩ := (hu.nbytes len.toNat).short s hs hshort
    exact ⟨code, hcode, by simp only [run, hread, apply]⟩
  | uint8 store =>
    obtain ⟨code, hcode, hread⟩ := hu.uint8.short s hs hshort
    exact ⟨code, hcode, by simp only [run, hread, apply, Option.map_none]⟩
  | uint16 store =>
    obtain ⟨code, hcode, hread⟩ := hu.uint16.short s hs hshort
    exact ⟨code, hcode, by simp only [run, hread, apply, Option.map_none]⟩
  | uint32 store =>
    obtain ⟨code, hcode, hread⟩ := hu.uint32.short s hs hshort
    exact ⟨code, hcode, by simp only [run, hread, apply, Option.map_none]⟩
  | unknown => exact absurd hshort (Nat.not_lt.mpr hinside)

end FieldRead

/-! ## Records -/

variable (fmt : ReadFormat) (field : TlInTlv → FieldRead α)

/-- How long the value is that the loop reads behind a header. -/
def valueSize (tl : TlInTlv) : Nat := (field tl).size tl.len

/-- The loop reads the bytes to their end, or fails right behind a header. -/
inductive Splits : List UInt8 → Bool → Prop
  | done : Splits [] false
  | cut {bytes tl} : fmt.tlOf bytes = some (tl, bytes.length) → 0 < valueSize field tl →
      Splits bytes true
  | next {bytes tl n failed} : fmt.tlOf bytes = some (tl, n) →
      n + valueSize field tl ≤ bytes.length →
      Splits (bytes.drop (n + valueSize field tl)) failed → Splits bytes failed

/-- The same with the destination before and after. -/
inductive Decodes : List UInt8 → α → Bool → α → Prop
  | done {a} : Decodes [] a false a
  | cut {bytes tl a} : fmt.tlOf bytes = some (tl, bytes.length) → 0 < valueSize field tl →
      Decodes bytes a true ((field tl).apply fmt none a)
  | next {bytes tl n a failed a'} : fmt.tlOf bytes = some (tl, n) →
      n + valueSize field tl ≤ bytes.length →
      Decodes (bytes.drop (n + valueSize field tl))
        ((field tl).apply fmt (some ((bytes.drop n).take (valueSize field tl))) a) failed a' →
      Decodes bytes a failed a'

/-- The rest stands behind whole records, each as long as its header says. -/
inductive Behind : List UInt8 → List UInt8 → Prop
  | here {bytes} : Behind bytes bytes
  | next {bytes tl n rest} : fmt.tlOf bytes = some (tl, n) → n + tl.len.toNat ≤ bytes.length →
      Behind (bytes.drop (n + tl.len.toNat)) rest → Behind bytes rest

/-- The bytes end in the middle of a record. -/
def Truncated (bytes : List UInt8) : Prop :=
  ∃ rest, Behind fmt bytes rest ∧ rest ≠ [] ∧
    ∀ tl n, fmt.tlOf rest = some (tl, n) → rest.length < n + tl.len.toNat

/-- A whole record of an unknown tag, and the bytes from it on. -/
structure UnknownAt (bytes rest : List UInt8) (tl : TlInTlv) (n : Nat) : Prop where
  behind : Behind fmt bytes rest
  header : fmt.tlOf rest = some (tl, n)
  unknown : (field tl).known = false
  whole : n + tl.len.toNat ≤ rest.length

/-- The rest stands behind headers and values as the loop reads them. -/
inductive ReadTo : List UInt8 → List UInt8 → Prop
  | here {bytes} : ReadTo bytes bytes
  | next {bytes tl n rest} : fmt.tlOf bytes = some (tl, n) →
      n + valueSize field tl ≤ bytes.length →
      ReadTo (bytes.drop (n + valueSize field tl)) rest → ReadTo bytes rest

/-! ## Loops -/

variable (u : ParserUtils) (onRecord : TlInTlv → SidParseState → α → SidParseState × α)

/-- One round of the loop. -/
def tlvRound (tl : TlInTlv) (s : SidParseState) (a : α) : TlInTlv × SidParseState × α :=
  let tl := (u.readTlFromTlv s).2.getD tl
  (tl, onRecord tl (u.readTlFromTlv s).1 a)

/-- The destination after a run that ends. -/
def Ends (bytes : List UInt8) (a a' : α) : Prop :=
  ∃ fuel s, tlvLoop u onRecord fuel ⟨0, 0⟩ (parseStateInit bytes) a = some (s, a')

/-- One round with data left. -/
def Round (c c' : TlInTlv × SidParseState × α) : Prop :=
  c.2.1.offset < c.2.1.buffer.length ∧ c' = tlvRound u onRecord c.1 c.2.1 c.2.2

/-- The run ends, with an error where the buffer ends in the middle of a record. It comes to every
whole record with an unknown tag and takes it in one round, which leaves the destination as it is,
and the other records are decoded as if it were absent. -/
structure EndsRight (bytes : List UInt8) : Prop where
  ends : ∀ a, ∃ fuel s a', tlvLoop u onRecord fuel ⟨0, 0⟩ (parseStateInit bytes) a = some (s, a') ∧
    (Truncated fmt bytes → s.retCode ≠ errorNone)
  skips : ∀ rest tl n, UnknownAt fmt field bytes rest tl n → ∀ a, ∃ tl₀ b,
    Relation.ReflTransGen (Round u onRecord) (⟨0, 0⟩, parseStateInit bytes, a)
      (tl₀, ⟨errorNone, bytes, bytes.length - rest.length⟩, b) ∧
    tlvRound u onRecord tl₀ ⟨errorNone, bytes, bytes.length - rest.length⟩ b =
      (tl, ⟨errorNone, bytes, bytes.length - rest.length + (n + tl.len.toNat)⟩, b)
  absent : ∀ rest tl n, UnknownAt fmt field bytes rest tl n → ∀ a a',
    Ends u onRecord bytes a a' ↔ Ends u onRecord
      (bytes.take (bytes.length - rest.length) ++ rest.drop (n + tl.len.toNat)) a a'

/-- The bytes split as the loop reads them, with a value missing at the end where they end in the
middle of a record, and the loop comes to every whole record with an unknown tag, which has no
value. -/
def SplitsRight (bytes : List UInt8) : Prop :=
  ∃ failed, Splits fmt field bytes failed ∧ (Truncated fmt bytes → failed = true) ∧
    ∀ rest tl n, UnknownAt fmt field bytes rest tl n → tl.len = 0 ∧ ReadTo fmt field bytes rest

variable {fmt field u onRecord}

theorem tlvLoop_succ (fuel : Nat) (tl : TlInTlv) (s : SidParseState) (a : α) :
    tlvLoop u onRecord (fuel + 1) tl s a =
      if s.offset < s.buffer.length then
        tlvLoop u onRecord fuel (tlvRound u onRecord tl s a).1 (tlvRound u onRecord tl s a).2.1
          (tlvRound u onRecord tl s a).2.2
      else some (s, a) := rfl

theorem tlvLoop_end {s : SidParseState} (hend : ¬s.offset < s.buffer.length) {fuel : Nat}
    {tl : TlInTlv} {a : α} : tlvLoop u onRecord (fuel + 1) tl s a = some (s, a) := by
  rw [tlvLoop_succ, if_neg hend]

section

variable (hu : DocumentedReads u fmt)
  (hrecord : ∀ tl s a, onRecord tl s a = (field tl).run u tl.len s a)

include hu hrecord

theorem tlvRound_done {s : SidParseState} (hs : s.retCode ≠ errorNone) (tl : TlInTlv) (a : α) :
    (tlvRound u onRecord tl s a).2.1 = s := by
  unfold tlvRound
  rw [hu.tl_done s hs]
  simp only [hrecord]
  exact FieldRead.run_done hu hs _ _ a

/-- After a failure with data left the loop does not end. -/
theorem tlvLoop_stuck {s : SidParseState} (hs : s.retCode ≠ errorNone)
    (hmore : s.offset < s.buffer.length) (fuel : Nat) (tl : TlInTlv) (a : α) :
    tlvLoop u onRecord fuel tl s a = none := by
  induction fuel generalizing tl a with
  | zero => rfl
  | succ fuel ih =>
    rw [tlvLoop_succ, if_pos hmore, tlvRound_done hu hrecord hs]
    exact ih _ _

variable {s : SidParseState} (hs : s.retCode = errorNone) (hinside : s.offset ≤ s.buffer.length)

include hs

theorem tlvRound_enough {tl : TlInTlv} {n : Nat}
    (htl : fmt.tlOf (s.buffer.drop s.offset) = some (tl, n))
    (hroom : n + valueSize field tl ≤ (s.buffer.drop s.offset).length) (tl₀ : TlInTlv) (a : α) :
    tlvRound u onRecord tl₀ s a = (tl, s.skip (n + valueSize field tl),
      (field tl).apply fmt
        (some (((s.buffer.drop s.offset).drop n).take (valueSize field tl))) a) := by
  have hpos := (hu.tl_bounds _ _ _ htl).1
  rw [List.length_drop] at hroom
  have hvalue : (s.skip n).offset + (field tl).size tl.len ≤ (s.skip n).buffer.length := by
    change s.offset + n + valueSize field tl ≤ s.buffer.length
    omega
  unfold tlvRound
  simp only [hu.tl_enough s tl n hs htl, Option.getD_some, hrecord]
  rw [FieldRead.run_enough (s := s.skip n) hu hs (field tl) tl.len hvalue a]
  simp only [SidParseState.skip, valueSize, List.drop_drop, Nat.add_assoc]

theorem tlvRound_none (htl : fmt.tlOf (s.buffer.drop s.offset) = none) (tl : TlInTlv) (a : α) :
    ∃ code, code ≠ errorNone ∧
      (tlvRound u onRecord tl s a).2.1 = { s with retCode := code } := by
  obtain ⟨code, hcode, hread⟩ := hu.tl_short s hs htl
  refine ⟨code, hcode, ?_⟩
  unfold tlvRound
  simp only [hread, hrecord]
  exact FieldRead.run_done hu hcode _ _ a

include hinside

theorem tlvRound_short {tl : TlInTlv} {n : Nat}
    (htl : fmt.tlOf (s.buffer.drop s.offset) = some (tl, n))
    (hshort : (s.buffer.drop s.offset).length < n + valueSize field tl) (tl₀ : TlInTlv) (a : α) :
    ∃ code, code ≠ errorNone ∧ tlvRound u onRecord tl₀ s a =
      (tl, { s.skip n with retCode := code }, (field tl).apply fmt none a) := by
  have hbounds := (hu.tl_bounds _ _ _ htl).2
  rw [List.length_drop] at hshort hbounds
  have hin : (s.skip n).offset ≤ (s.skip n).buffer.length := by
    change s.offset + n ≤ s.buffer.length
    omega
  have hvalue : (s.skip n).buffer.length < (s.skip n).offset + (field tl).size tl.len := by
    change s.buffer.length < s.offset + n + valueSize field tl
    omega
  obtain ⟨code, hcode, hrun⟩ :=
    FieldRead.run_short (s := s.skip n) hu hs hin (field tl) tl.len hvalue a
  refine ⟨code, hcode, ?_⟩
  unfold tlvRound
  simp only [hu.tl_enough s tl n hs htl, Option.getD_some, hrecord]
  rw [hrun]

/-- What a run that ends has read, and whether it failed. -/
theorem decodes_of_loop {fuel : Nat} {tl : TlInTlv} {a a' : α} {s' : SidParseState}
    (hrun : tlvLoop u onRecord fuel tl s a = some (s', a')) :
    ∃ failed, Decodes fmt field (s.buffer.drop s.offset) a failed a' ∧
      (s'.retCode ≠ errorNone ↔ failed = true) := by
  induction fuel generalizing s tl a with
  | zero => cases hrun
  | succ fuel ih =>
    rw [tlvLoop_succ] at hrun
    by_cases hmore : s.offset < s.buffer.length
    · rw [if_pos hmore] at hrun
      cases htl : fmt.tlOf (s.buffer.drop s.offset) with
      | none =>
        obtain ⟨code, hcode, hround⟩ := tlvRound_none hu hrecord hs htl tl a
        rw [hround, tlvLoop_stuck (s := { s with retCode := code }) hu hrecord hcode hmore] at hrun
        cases hrun
      | some header =>
        obtain ⟨tl', n⟩ := header
        obtain ⟨hpos, hbounds⟩ := hu.tl_bounds _ _ _ htl
        by_cases hroom : n + valueSize field tl' ≤ (s.buffer.drop s.offset).length
        · rw [tlvRound_enough hu hrecord hs htl hroom] at hrun
          have hroom' := hroom
          rw [List.length_drop] at hroom'
          have hin : (s.skip (n + valueSize field tl')).offset ≤
              (s.skip (n + valueSize field tl')).buffer.length := by
            change s.offset + (n + valueSize field tl') ≤ s.buffer.length
            omega
          obtain ⟨failed, hdecodes, hfailed⟩ := ih (s := s.skip (n + valueSize field tl')) hs hin hrun
          refine ⟨failed, .next htl hroom ?_, hfailed⟩
          rw [List.drop_drop]
          exact hdecodes
        · rw [Nat.not_le] at hroom
          obtain ⟨code, hcode, hround⟩ := tlvRound_short hu hrecord hs hinside htl hroom tl a
          rw [hround] at hrun
          by_cases hend : s.offset + n < s.buffer.length
          · rw [tlvLoop_stuck (s := { s.skip n with retCode := code }) hu hrecord hcode hend] at hrun
            cases hrun
          · cases fuel with
            | zero => cases hrun
            | succ fuel =>
              rw [tlvLoop_end (s := { s.skip n with retCode := code }) hend] at hrun
              cases hrun
              rw [List.length_drop] at hbounds hroom
              have hlen : n = (s.buffer.drop s.offset).length := by
                rw [List.length_drop]
                omega
              have hsize : 0 < valueSize field tl' := by omega
              exact ⟨true, .cut (hlen ▸ htl) hsize, iff_of_true hcode rfl⟩
    · rw [if_neg hmore] at hrun
      cases hrun
      have hnil : s'.buffer.drop s'.offset = [] := List.drop_eq_nil_iff.mpr (Nat.not_lt.mp hmore)
      rw [hnil]
      exact ⟨false, .done, iff_of_false (fun hne => hne hs) Bool.false_ne_true⟩

theorem loop_of_decodes {bytes : List UInt8} {failed : Bool} {a a' : α}
    (h : Decodes fmt field bytes a failed a') (hbytes : s.buffer.drop s.offset = bytes)
    (tl : TlInTlv) :
    ∃ fuel s', tlvLoop u onRecord fuel tl s a = some (s', a') ∧
      (s'.retCode ≠ errorNone ↔ failed = true) := by
  induction h generalizing s tl with
  | done =>
    have hend : ¬s.offset < s.buffer.length := Nat.not_lt.mpr (List.drop_eq_nil_iff.mp hbytes)
    exact ⟨1, s, tlvLoop_end hend, iff_of_false (fun hne => hne hs) Bool.false_ne_true⟩
  | @cut bytes tl' a htl hsize =>
    subst hbytes
    have hlen : (s.buffer.drop s.offset).length = s.buffer.length - s.offset := List.length_drop
    have hmore : s.offset < s.buffer.length := by
      have hpos := (hu.tl_bounds _ _ _ htl).1
      omega
    obtain ⟨code, hcode, hround⟩ := tlvRound_short hu hrecord hs hinside htl
      (Nat.lt_add_of_pos_right hsize) tl a
    have hend : ¬s.offset + (s.buffer.drop s.offset).length < s.buffer.length := by omega
    refine ⟨2, { s.skip (s.buffer.drop s.offset).length with retCode := code }, ?_,
      iff_of_true hcode rfl⟩
    rw [tlvLoop_succ, if_pos hmore, hround]
    exact tlvLoop_end hend
  | @next bytes tl' n a failed a' htl hroom _ ih =>
    subst hbytes
    have hlen : (s.buffer.drop s.offset).length = s.buffer.length - s.offset := List.length_drop
    have hpos := (hu.tl_bounds _ _ _ htl).1
    have hmore : s.offset < s.buffer.length := by omega
    have hin : (s.skip (n + valueSize field tl')).offset ≤
        (s.skip (n + valueSize field tl')).buffer.length := by
      change s.offset + (n + valueSize field tl') ≤ s.buffer.length
      omega
    obtain ⟨fuel, s', hrun, hfailed⟩ := ih (s := s.skip (n + valueSize field tl')) hs hin
      List.drop_drop.symm tl'
    refine ⟨fuel + 1, s', ?_, hfailed⟩
    rw [tlvLoop_succ, if_pos hmore, tlvRound_enough hu hrecord hs htl hroom]
    exact hrun

/-- The loop comes to what it reads up to. -/
theorem rounds_of_readTo {bytes rest : List UInt8} (h : ReadTo fmt field bytes rest)
    (hbytes : s.buffer.drop s.offset = bytes) (tl : TlInTlv) (a : α) :
    ∃ tl₀ b, Relation.ReflTransGen (Round u onRecord) (tl, s, a)
      (tl₀, ⟨errorNone, s.buffer, s.buffer.length - rest.length⟩, b) := by
  induction h generalizing s tl a with
  | @here bytes =>
    subst hbytes
    have hoffset : s.buffer.length - (s.buffer.drop s.offset).length = s.offset := by
      rw [List.length_drop]
      omega
    refine ⟨tl, a, ?_⟩
    rw [hoffset, ← hs]
  | @next bytes tl' n rest htl hroom _ ih =>
    subst hbytes
    have hlen : (s.buffer.drop s.offset).length = s.buffer.length - s.offset := List.length_drop
    have hpos := (hu.tl_bounds _ _ _ htl).1
    have hmore : s.offset < s.buffer.length := by omega
    have hin : (s.skip (n + valueSize field tl')).offset ≤
        (s.skip (n + valueSize field tl')).buffer.length := by
      change s.offset + (n + valueSize field tl') ≤ s.buffer.length
      omega
    obtain ⟨tl₀, b, hrounds⟩ := ih (s := s.skip (n + valueSize field tl')) hs hin
      List.drop_drop.symm tl' ((field tl').apply fmt
        (some (((s.buffer.drop s.offset).drop n).take (valueSize field tl'))) a)
    refine ⟨tl₀, b, .head ⟨hmore, ?_⟩ hrounds⟩
    exact (tlvRound_enough hu hrecord hs htl hroom tl a).symm

omit hs hinside in
/-- What the loop comes to without an error it has read up to. -/
theorem readTo_of_rounds {c c' : TlInTlv × SidParseState × α}
    (h : Relation.ReflTransGen (Round u onRecord) c c') (hs' : c'.2.1.retCode = errorNone) :
    c.2.1.retCode = errorNone ∧ ReadTo fmt field (c.2.1.buffer.drop c.2.1.offset)
      (c'.2.1.buffer.drop c'.2.1.offset) := by
  induction h using Relation.ReflTransGen.head_induction_on with
  | refl => exact ⟨hs', .here⟩
  | @head c d hround _ ih =>
    obtain ⟨tl, s, a⟩ := c
    obtain ⟨hmore, rfl⟩ := hround
    obtain ⟨hd, hread⟩ := ih
    have hs : s.retCode = errorNone := by
      by_contra hne
      rw [tlvRound_done hu hrecord hne] at hd
      exact hne hd
    refine ⟨hs, ?_⟩
    cases htl : fmt.tlOf (s.buffer.drop s.offset) with
    | none =>
      obtain ⟨code, hcode, hround⟩ := tlvRound_none hu hrecord hs htl tl a
      rw [hround] at hd
      exact absurd hd hcode
    | some header =>
      obtain ⟨tl', n⟩ := header
      by_cases hroom : n + valueSize field tl' ≤ (s.buffer.drop s.offset).length
      · rw [tlvRound_enough hu hrecord hs htl hroom] at hread
        refine .next htl hroom ?_
        rw [List.drop_drop]
        exact hread
      · obtain ⟨code, hcode, hround⟩ := tlvRound_short hu hrecord hs (Nat.le_of_lt hmore) htl
          (Nat.not_le.mp hroom) tl a
        rw [hround] at hd
        exact absurd hd hcode

end

/-! ## Splitting -/

theorem splits_of_decodes {bytes : List UInt8} {a a' : α} {failed : Bool}
    (h : Decodes fmt field bytes a failed a') : Splits fmt field bytes failed := by
  induction h with
  | done => exact .done
  | cut htl hsize => exact .cut htl hsize
  | next htl hroom _ ih => exact .next htl hroom ih

theorem decodes_of_splits {bytes : List UInt8} {failed : Bool} (h : Splits fmt field bytes failed)
    (a : α) : ∃ a', Decodes fmt field bytes a failed a' := by
  induction h generalizing a with
  | done => exact ⟨a, .done⟩
  | cut htl hsize => exact ⟨_, .cut htl hsize⟩
  | next htl hroom _ ih =>
    obtain ⟨a', hdecodes⟩ := ih _
    exact ⟨a', .next htl hroom hdecodes⟩

theorem valueSize_unknown {tl : TlInTlv} (h : (field tl).known = false) :
    valueSize field tl = 0 := by
  unfold valueSize
  cases hfield : field tl with
  | unknown => rfl
  | _ =>
    rw [hfield] at h
    cases h

theorem apply_unknown {tl : TlInTlv} (h : (field tl).known = false) (value : Option (List UInt8))
    (a : α) : (field tl).apply fmt value a = a := by
  cases hfield : field tl with
  | unknown => rfl
  | _ =>
    rw [hfield] at h
    cases h

theorem Behind.suffix {bytes rest : List UInt8} (h : Behind fmt bytes rest) : rest <:+ bytes := by
  induction h with
  | here => exact List.suffix_refl _
  | next _ _ _ ih => exact ih.trans (List.drop_suffix _ _)

theorem ReadTo.suffix {bytes rest : List UInt8} (h : ReadTo fmt field bytes rest) :
    rest <:+ bytes := by
  induction h with
  | here => exact List.suffix_refl _
  | next _ _ _ ih => exact ih.trans (List.drop_suffix _ _)

section

variable (hu : DocumentedReads u fmt)

include hu

/-- The first record is read as the loop reads it. -/
theorem decodes_iff_tail {bytes : List UInt8} {tl : TlInTlv} {n : Nat}
    (htl : fmt.tlOf bytes = some (tl, n)) (hroom : n + valueSize field tl ≤ bytes.length)
    (a : α) (failed : Bool) (a' : α) :
    Decodes fmt field bytes a failed a' ↔
      Decodes fmt field (bytes.drop (n + valueSize field tl))
        ((field tl).apply fmt (some ((bytes.drop n).take (valueSize field tl))) a) failed a' := by
  refine ⟨fun h => ?_, .next htl hroom⟩
  have hpos := (hu.tl_bounds _ _ _ htl).1
  cases h with
  | done => exact absurd hroom (by simp only [List.length_nil]; omega)
  | cut htl' hsize =>
    cases htl.symm.trans htl'
    omega
  | next htl' _ hrest =>
    cases htl.symm.trans htl'
    exact hrest

/-- A record that the loop comes to and that has no value leaves no trace. -/
theorem decodes_without {bytes rest : List UInt8} (h : ReadTo fmt field bytes rest) {tl : TlInTlv}
    {n : Nat} (htl : fmt.tlOf rest = some (tl, n)) (hknown : (field tl).known = false) (a : α)
    (failed : Bool) (a' : α) :
    Decodes fmt field bytes a failed a' ↔ Decodes fmt field
      (bytes.take (bytes.length - rest.length) ++ rest.drop n) a failed a' := by
  induction h generalizing a with
  | here =>
    have hroom := (hu.tl_bounds _ _ _ htl).2
    rw [decodes_iff_tail hu htl (by rwa [valueSize_unknown hknown]), apply_unknown hknown,
      valueSize_unknown hknown, Nat.add_zero, Nat.sub_self, List.take_zero, List.nil_append]
  | @next bytes tl' n' rest htl' hroom hread ih =>
    have hlen := hread.suffix.length_le
    rw [List.length_drop] at hlen
    let k := n' + valueSize field tl'
    have hfirst : (bytes.take k).length = k := List.length_take_of_le hroom
    -- what stays in front begins with the same record
    have hsplit : bytes.take (bytes.length - rest.length) ++ rest.drop n = bytes.take k ++
        ((bytes.drop k).take ((bytes.drop k).length - rest.length) ++ rest.drop n) := by
      rw [← List.append_assoc, List.length_drop, ← List.take_add,
        show k + (bytes.length - k - rest.length) = bytes.length - rest.length by omega]
    have hheader : fmt.tlOf (bytes.take (bytes.length - rest.length) ++ rest.drop n) =
        some (tl', n') := by
      have hrecord : bytes.take k = bytes.take n' ++ (bytes.drop n').take (valueSize field tl') :=
        List.take_add
      rw [hsplit, hrecord, List.append_assoc]
      exact hu.tl_prefix _ _ _ _ htl'
    have hroom' : k ≤ (bytes.take (bytes.length - rest.length) ++ rest.drop n).length := by
      rw [hsplit, List.length_append, hfirst]
      exact Nat.le_add_right _ _
    have hvalue : ((bytes.take (bytes.length - rest.length) ++ rest.drop n).drop n').take
        (valueSize field tl') = (bytes.drop n').take (valueSize field tl') := by
      rw [hsplit, List.drop_append_of_le_length (by omega), List.take_append_of_le_length (by
        rw [List.length_drop]
        omega), List.drop_take, Nat.add_sub_cancel_left, List.take_take, Nat.min_self]
    rw [decodes_iff_tail hu htl' hroom, decodes_iff_tail hu hheader hroom', hvalue, ih htl, hsplit,
      List.drop_left' hfirst]

end

theorem ends_iff (hu : DocumentedReads u fmt)
    (hrecord : ∀ tl s a, onRecord tl s a = (field tl).run u tl.len s a) (bytes : List UInt8)
    (a a' : α) : Ends u onRecord bytes a a' ↔ ∃ failed, Decodes fmt field bytes a failed a' := by
  constructor
  · rintro ⟨fuel, s, hrun⟩
    obtain ⟨failed, hdecodes, -⟩ := decodes_of_loop hu hrecord (s := parseStateInit bytes) rfl
      (Nat.zero_le _) hrun
    exact ⟨failed, hdecodes⟩
  · rintro ⟨failed, hdecodes⟩
    obtain ⟨fuel, s, hrun, -⟩ := loop_of_decodes hu hrecord (s := parseStateInit bytes) rfl
      (Nat.zero_le _) hdecodes rfl ⟨0, 0⟩
    exact ⟨fuel, s, hrun⟩

/-- A deserializer ends as it should on exactly the buffers that split right. -/
theorem endsRight_iff (hu : DocumentedReads u fmt)
    (hrecord : ∀ tl s a, onRecord tl s a = (field tl).run u tl.len s a) (a₀ : α)
    (bytes : List UInt8) :
    EndsRight fmt field u onRecord bytes ↔ SplitsRight fmt field bytes := by
  have hat {rest : List UInt8} (hsuffix : rest <:+ bytes) :
      bytes.drop (bytes.length - rest.length) = rest :=
    (List.suffix_iff_eq_drop.mp hsuffix).symm
  -- a round at an unknown tag takes the header alone
  have hround {rest : List UInt8} {tl : TlInTlv} {n : Nat}
      (hunknown : UnknownAt fmt field bytes rest tl n) (tl₀ : TlInTlv) (b : α) :
      tlvRound u onRecord tl₀ ⟨errorNone, bytes, bytes.length - rest.length⟩ b =
        (tl, ⟨errorNone, bytes, bytes.length - rest.length + n⟩, b) := by
    have hheader := hunknown.header
    have hroom := (hu.tl_bounds _ _ _ hheader).2
    rw [← hat hunknown.behind.suffix] at hheader hroom
    rw [tlvRound_enough (s := ⟨errorNone, bytes, bytes.length - rest.length⟩) hu hrecord rfl
      hheader (by rwa [valueSize_unknown hunknown.unknown]), valueSize_unknown hunknown.unknown,
      apply_unknown hunknown.unknown]
    rfl
  constructor
  · intro h
    obtain ⟨fuel, s, a', hrun, htruncated⟩ := h.ends a₀
    obtain ⟨failed, hdecodes, hfailed⟩ := decodes_of_loop hu hrecord (s := parseStateInit bytes)
      rfl (Nat.zero_le _) hrun
    refine ⟨failed, splits_of_decodes hdecodes, fun ht => hfailed.mp (htruncated ht),
      fun rest tl n hunknown => ?_⟩
    obtain ⟨tl₀, b, hrounds, hskip⟩ := h.skips rest tl n hunknown a₀
    constructor
    · rw [hround hunknown] at hskip
      have hoffset := congrArg (fun r => r.2.1.offset) hskip
      exact UInt8.toNat_inj.mp (show tl.len.toNat = 0 by simpa using hoffset)
    · have hread := (readTo_of_rounds hu hrecord hrounds rfl).2
      rwa [hat hunknown.behind.suffix] at hread
  · rintro ⟨failed, hsplits, htruncated, hplain⟩
    constructor
    · intro a
      obtain ⟨a', hdecodes⟩ := decodes_of_splits hsplits a
      obtain ⟨fuel, s, hrun, hfailed⟩ := loop_of_decodes hu hrecord (s := parseStateInit bytes) rfl
        (Nat.zero_le _) hdecodes rfl ⟨0, 0⟩
      exact ⟨fuel, s, a', hrun, fun ht => hfailed.mpr (htruncated ht)⟩
    · intro rest tl n hunknown a
      obtain ⟨hzero, hread⟩ := hplain rest tl n hunknown
      obtain ⟨tl₀, b, hrounds⟩ := rounds_of_readTo (s := parseStateInit bytes) hu hrecord rfl
        (Nat.zero_le _) hread rfl ⟨0, 0⟩ a
      refine ⟨tl₀, b, hrounds, ?_⟩
      rw [hround hunknown, hzero]
      rfl
    · intro rest tl n hunknown a a'
      obtain ⟨hzero, hread⟩ := hplain rest tl n hunknown
      rw [ends_iff hu hrecord, ends_iff hu hrecord, hzero]
      exact exists_congr fun failed =>
        decodes_without hu hread hunknown.header hunknown.unknown a failed a'

end

end Sidewalk.Demo
