import Mathlib

/-!
# Parser states

`struct sid_parse_state` and what `sid_parser_utils.h` documents of the functions on it, which
are a parameter here: `ParserUtils` and the laws `Documented`. A run of writes is one write of all
the bytes, and a loop over TLV records takes them one by one.
-/

namespace Sidewalk.Demo

/-! ## States -/

structure TlInTlv where
  len : UInt8
  tag : UInt8
  deriving DecidableEq, Repr

/-- The buffer is as long as `buffer_len`. -/
structure SidParseState where
  retCode : Int
  buffer : List UInt8
  offset : Nat
  deriving DecidableEq, Repr

def errorNone : Int := 0

/-- `SID_PARSE_STATE_INIT`. -/
def parseStateInit (buffer : List UInt8) : SidParseState := ⟨errorNone, buffer, 0⟩

namespace SidParseState

/-- There is room for so many bytes. -/
def Room (s : SidParseState) (n : Nat) : Prop :=
  s.retCode = errorNone ∧ s.offset + n ≤ s.buffer.length

/-- The bytes are stored. -/
def put (s : SidParseState) (bytes : List UInt8) : SidParseState :=
  { s with
    buffer := s.buffer.take s.offset ++ bytes ++ s.buffer.drop (s.offset + bytes.length)
    offset := s.offset + bytes.length }

/-- The bytes are what is left to read. -/
structure Left (s : SidParseState) (bytes : List UInt8) : Prop where
  retCode : s.retCode = errorNone
  inside : s.offset ≤ s.buffer.length
  drop : s.buffer.drop s.offset = bytes

/-- The bytes are next in the buffer. -/
def Holds (s : SidParseState) (bytes : List UInt8) : Prop := ∃ rest, s.Left (bytes ++ rest)

/-- So many bytes are read. -/
def skip (s : SidParseState) (n : Nat) : SidParseState := { s with offset := s.offset + n }

/-- What was stored so far. -/
def written (s : SidParseState) : List UInt8 := s.buffer.take s.offset

end SidParseState

/-! ## The functions on states -/

/-- A read gives nothing where it leaves its destination as it was. -/
structure ParserUtils where
  encodeTl : TlInTlv → List UInt8
  encodeUint16 : UInt16 → List UInt8
  encodeUint32 : UInt32 → List UInt8
  setBitToField : UInt8 → UInt8 → UInt8 → UInt8 → UInt8
  getBitFromField : UInt8 → UInt8 → UInt8 → UInt8
  writeEntryUint8 : SidParseState → UInt8 → SidParseState
  writeEntryNbytes : SidParseState → List UInt8 → SidParseState
  writeEntryTlvUint8 : SidParseState → TlInTlv → UInt8 → SidParseState
  writeEntryTlvUint16 : SidParseState → TlInTlv → UInt16 → SidParseState
  writeEntryTlvUint32 : SidParseState → TlInTlv → UInt32 → SidParseState
  writeEntryTlvNbytes : SidParseState → TlInTlv → List UInt8 → SidParseState
  readEntryUint8 : SidParseState → SidParseState × Option UInt8
  readEntryUint16 : SidParseState → SidParseState × Option UInt16
  readEntryUint32 : SidParseState → SidParseState × Option UInt32
  readEntryNbytes : SidParseState → Nat → SidParseState × Option (List UInt8)
  readTlFromTlv : SidParseState → SidParseState × Option TlInTlv

/-- `SID_DEMO_TAG_ID_MAX`: a tag takes six bits of a TLV header. -/
def tagIdMax : UInt8 := 0x40

/-- Writes store the encoding of their value where there is room, and reads are their inverse; bit
fields that do not overlap do not affect each other. -/
structure Documented (u : ParserUtils) : Prop where
  encodeTl_ne_nil : ∀ tl, u.encodeTl tl ≠ []
  getBit_setBit : ∀ value field mask offset, (mask <<< offset) >>> offset = mask →
    u.getBitFromField (u.setBitToField value field mask offset) mask offset = field &&& mask
  getBit_setBit_other : ∀ value field mask offset mask' offset',
    (mask <<< offset) &&& (mask' <<< offset') = 0 →
      u.getBitFromField (u.setBitToField value field mask offset) mask' offset' =
        u.getBitFromField value mask' offset'
  writeUint8 : ∀ s v, s.Room 1 → u.writeEntryUint8 s v = s.put [v]
  writeNbytes : ∀ s bytes, s.Room bytes.length → u.writeEntryNbytes s bytes = s.put bytes
  writeTlvUint8 : ∀ s tl v, s.Room (u.encodeTl tl ++ [v]).length →
    u.writeEntryTlvUint8 s tl v = s.put (u.encodeTl tl ++ [v])
  writeTlvUint16 : ∀ s tl v, s.Room (u.encodeTl tl ++ u.encodeUint16 v).length →
    u.writeEntryTlvUint16 s tl v = s.put (u.encodeTl tl ++ u.encodeUint16 v)
  writeTlvUint32 : ∀ s tl v, s.Room (u.encodeTl tl ++ u.encodeUint32 v).length →
    u.writeEntryTlvUint32 s tl v = s.put (u.encodeTl tl ++ u.encodeUint32 v)
  writeTlvNbytes : ∀ s tl bytes, s.Room (u.encodeTl tl ++ bytes).length →
    u.writeEntryTlvNbytes s tl bytes = s.put (u.encodeTl tl ++ bytes)
  readUint8 : ∀ s v, s.Holds [v] → u.readEntryUint8 s = (s.skip 1, some v)
  readUint16 : ∀ s v, s.Holds (u.encodeUint16 v) →
    u.readEntryUint16 s = (s.skip (u.encodeUint16 v).length, some v)
  readUint32 : ∀ s v, s.Holds (u.encodeUint32 v) →
    u.readEntryUint32 s = (s.skip (u.encodeUint32 v).length, some v)
  readNbytes : ∀ s bytes, s.Holds bytes →
    u.readEntryNbytes s bytes.length = (s.skip bytes.length, some bytes)
  readTl : ∀ s tl, tl.tag < tagIdMax → s.Holds (u.encodeTl tl) →
    u.readTlFromTlv s = (s.skip (u.encodeTl tl).length, some tl)

/-! ## Writes in a row -/

namespace SidParseState

variable {s : SidParseState}

theorem Room.mono {m n : Nat} (h : s.Room n) (hle : m ≤ n) : s.Room m :=
  ⟨h.1, Nat.le_trans (Nat.add_le_add_left hle _) h.2⟩

theorem length_put {bytes : List UInt8} (h : s.Room bytes.length) :
    (s.put bytes).buffer.length = s.buffer.length := by
  have hroom := h.2
  simp only [put, List.length_append, List.length_take, List.length_drop]
  omega

theorem Room.put {bytes : List UInt8} {n : Nat} (h : s.Room (bytes.length + n)) :
    (s.put bytes).Room n := by
  refine ⟨h.1, ?_⟩
  rw [length_put (h.mono (Nat.le_add_right _ _))]
  have hroom := h.2
  change s.offset + bytes.length + n ≤ _
  omega

theorem put_nil (h : s.Room 0) : s.put [] = s := by
  cases s
  simp [SidParseState.put]

/-- Two writes in a row are one. -/
theorem put_put {bytes bytes' : List UInt8} (h : s.Room (bytes ++ bytes').length) :
    (s.put bytes).put bytes' = s.put (bytes ++ bytes') := by
  have hroom := h.2
  rw [List.length_append] at hroom
  have htake : (s.buffer.take s.offset).length = s.offset := by
    rw [List.length_take]
    omega
  have hbefore : (s.buffer.take s.offset ++ bytes).length = s.offset + bytes.length := by
    rw [List.length_append, htake]
  unfold put
  simp only [SidParseState.mk.injEq, true_and]
  refine ⟨?_, ?_⟩
  · have hdrop : (s.buffer.take s.offset ++ bytes ++
        s.buffer.drop (s.offset + bytes.length)).drop (s.offset + bytes.length + bytes'.length) =
          s.buffer.drop (s.offset + (bytes ++ bytes').length) := by
      rw [← hbefore, List.drop_length_add_append, List.drop_drop, hbefore, List.length_append,
        Nat.add_assoc]
    rw [hdrop, List.take_left' hbefore]
    simp only [List.append_assoc]
  · rw [List.length_append, Nat.add_assoc]

theorem left_init (bytes : List UInt8) : (parseStateInit bytes).Left bytes :=
  ⟨rfl, Nat.zero_le _, rfl⟩

theorem Left.length {bytes : List UInt8} (h : s.Left bytes) :
    s.offset + bytes.length = s.buffer.length := by
  have hlen := congrArg List.length h.drop
  rw [List.length_drop] at hlen
  have hinside := h.inside
  omega

theorem Left.holds {bytes rest : List UInt8} (h : s.Left (bytes ++ rest)) : s.Holds bytes :=
  ⟨rest, h⟩

theorem Left.skip {bytes rest : List UInt8} (h : s.Left (bytes ++ rest)) :
    (s.skip bytes.length).Left rest := by
  have hlen := h.length
  rw [List.length_append] at hlen
  refine ⟨h.retCode, ?_, ?_⟩
  · change s.offset + bytes.length ≤ s.buffer.length
    omega
  · change s.buffer.drop (s.offset + bytes.length) = rest
    rw [← List.drop_drop, h.drop, List.drop_left]

theorem written_put {bytes : List UInt8} (h : s.Room bytes.length) :
    (s.put bytes).written = s.written ++ bytes := by
  have hroom := h.2
  have hbefore : (s.buffer.take s.offset ++ bytes).length = s.offset + bytes.length := by
    rw [List.length_append, List.length_take]
    omega
  exact List.take_left' hbefore

end SidParseState

/-- The function stores the bytes, wherever there is room for them. -/
def Writes (f : SidParseState → SidParseState) (bytes : List UInt8) : Prop :=
  ∀ s, s.Room bytes.length → f s = s.put bytes

theorem Writes.comp {f g : SidParseState → SidParseState} {bytes bytes' : List UInt8}
    (hf : Writes f bytes) (hg : Writes g bytes') : Writes (fun s => g (f s)) (bytes ++ bytes') := by
  intro s hroom
  have hlen : (bytes ++ bytes').length = bytes.length + bytes'.length := List.length_append
  have hfirst : s.Room bytes.length := hroom.mono (by omega)
  have hsecond : (s.put bytes).Room bytes'.length := SidParseState.Room.put (hlen ▸ hroom)
  simp only
  rw [hf s hfirst, hg _ hsecond, SidParseState.put_put hroom]

theorem Writes.nil : Writes (fun s => s) [] := fun _ h => (SidParseState.put_nil h).symm

/-- What was stored into an empty buffer that had room. -/
theorem Writes.written {f : SidParseState → SidParseState} {bytes buffer : List UInt8}
    (hf : Writes f bytes) (hroom : bytes.length ≤ buffer.length) :
    (f (parseStateInit buffer)).written = bytes ∧
      (f (parseStateInit buffer)).retCode = errorNone := by
  have hinit : (parseStateInit buffer).Room bytes.length := by
    refine ⟨rfl, ?_⟩
    change 0 + bytes.length ≤ buffer.length
    omega
  rw [hf _ hinit]
  exact ⟨SidParseState.written_put hinit, rfl⟩

/-! ## Records -/

/-- A TLV record by its value. -/
inductive Item
  | block (tag len : UInt8) (bytes : List UInt8)
  | uint8 (tag v : UInt8)
  | uint16 (tag : UInt8) (v : UInt16)
  | uint32 (tag : UInt8) (v : UInt32)

def Item.tl : Item → TlInTlv
  | .block tag len _ => ⟨len, tag⟩
  | .uint8 tag _ => ⟨1, tag⟩
  | .uint16 tag _ => ⟨2, tag⟩
  | .uint32 tag _ => ⟨4, tag⟩

def Item.body (u : ParserUtils) : Item → List UInt8
  | .block _ _ bytes => bytes
  | .uint8 _ v => [v]
  | .uint16 _ v => u.encodeUint16 v
  | .uint32 _ v => u.encodeUint32 v

def Item.encode (u : ParserUtils) (item : Item) : List UInt8 := u.encodeTl item.tl ++ item.body u

def encodeItems (u : ParserUtils) (items : List Item) : List UInt8 := items.flatMap (Item.encode u)

theorem encodeItems_append (u : ParserUtils) (items items' : List Item) :
    encodeItems u (items ++ items') = encodeItems u items ++ encodeItems u items' :=
  List.flatMap_append

/-- The function stores the records. -/
def WritesItems (u : ParserUtils) (f : SidParseState → SidParseState) (items : List Item) : Prop :=
  Writes f (encodeItems u items)

theorem WritesItems.comp {u : ParserUtils} {f g : SidParseState → SidParseState}
    {items items' : List Item} (hf : WritesItems u f items) (hg : WritesItems u g items') :
    WritesItems u (fun s => g (f s)) (items ++ items') := by
  unfold WritesItems
  rw [encodeItems_append]
  exact Writes.comp hf hg

theorem WritesItems.nil {u : ParserUtils} : WritesItems u (fun s => s) [] := Writes.nil

theorem encodeItems_singleton (u : ParserUtils) (item : Item) :
    encodeItems u [item] = item.encode u := List.append_nil _

section

variable {u : ParserUtils} (hu : Documented u)

include hu

theorem Documented.writesUint8 (tag v : UInt8) :
    WritesItems u (fun s => u.writeEntryTlvUint8 s ⟨1, tag⟩ v) [.uint8 tag v] := by
  unfold WritesItems
  rw [encodeItems_singleton]
  exact fun s h => hu.writeTlvUint8 s ⟨1, tag⟩ v h

theorem Documented.writesUint16 (tag : UInt8) (v : UInt16) :
    WritesItems u (fun s => u.writeEntryTlvUint16 s ⟨2, tag⟩ v) [.uint16 tag v] := by
  unfold WritesItems
  rw [encodeItems_singleton]
  exact fun s h => hu.writeTlvUint16 s ⟨2, tag⟩ v h

theorem Documented.writesUint32 (tag : UInt8) (v : UInt32) :
    WritesItems u (fun s => u.writeEntryTlvUint32 s ⟨4, tag⟩ v) [.uint32 tag v] := by
  unfold WritesItems
  rw [encodeItems_singleton]
  exact fun s h => hu.writeTlvUint32 s ⟨4, tag⟩ v h

theorem Documented.writesBlock (tag len : UInt8) (bytes : List UInt8) :
    WritesItems u (fun s => u.writeEntryTlvNbytes s ⟨len, tag⟩ bytes) [.block tag len bytes] := by
  unfold WritesItems
  rw [encodeItems_singleton]
  exact fun s h => hu.writeTlvNbytes s ⟨len, tag⟩ bytes h

/-- The marker of all devices is a block of one byte. -/
theorem Documented.writesMarker (tag v : UInt8) :
    WritesItems u (fun s => u.writeEntryTlvUint8 s ⟨1, tag⟩ v) [.block tag 1 [v]] := by
  unfold WritesItems
  rw [encodeItems_singleton]
  exact fun s h => hu.writeTlvUint8 s ⟨1, tag⟩ v h

end

/-! ## Loops over records -/

section

variable {α : Type}

/-- The loop of a deserializer: a header is read, and what follows goes by its tag; `none` where
it is still running after so many rounds. -/
def tlvLoop (u : ParserUtils) (onRecord : TlInTlv → SidParseState → α → SidParseState × α) :
    Nat → TlInTlv → SidParseState → α → Option (SidParseState × α)
  | 0, _, _, _ => none
  | fuel + 1, tl, s, a =>
    if s.offset < s.buffer.length then
      match u.readTlFromTlv s with
      | (s, read) =>
        let tl := read.getD tl
        match onRecord tl s a with
        | (s, a) => tlvLoop u onRecord fuel tl s a
    else some (s, a)

variable {u : ParserUtils} {onRecord : TlInTlv → SidParseState → α → SidParseState × α}

/-- What the loop does with a record. -/
def Takes (u : ParserUtils) (onRecord : TlInTlv → SidParseState → α → SidParseState × α)
    (item : Item) (f : α → α) : Prop :=
  item.tl.tag < tagIdMax ∧ ∀ s a, s.Holds (item.body u) →
    onRecord item.tl s a = (s.skip (item.body u).length, f a)

/-- What the loop does with records in a row, a round each. -/
def Reads (u : ParserUtils) (onRecord : TlInTlv → SidParseState → α → SidParseState × α)
    (items : List Item) (f : α → α) : Prop :=
  ∀ tl s a rest, s.Left (encodeItems u items ++ rest) →
    ∃ tl' s', s'.Left rest ∧
      ∀ fuel, tlvLoop u onRecord (fuel + items.length) tl s a = tlvLoop u onRecord fuel tl' s' (f a)

theorem Reads.nil : Reads u onRecord [] fun a => a :=
  fun tl s _ _ hleft => ⟨tl, s, hleft, fun _ => rfl⟩

theorem Reads.append {items items' : List Item} {f g : α → α} (hf : Reads u onRecord items f)
    (hg : Reads u onRecord items' g) :
    Reads u onRecord (items ++ items') fun a => g (f a) := by
  intro tl s a rest hleft
  rw [encodeItems_append, List.append_assoc] at hleft
  obtain ⟨tl₁, s₁, hleft₁, hrun₁⟩ := hf tl s a _ hleft
  obtain ⟨tl₂, s₂, hleft₂, hrun₂⟩ := hg tl₁ s₁ (f a) rest hleft₁
  refine ⟨tl₂, s₂, hleft₂, fun fuel => ?_⟩
  have hlen : fuel + (items ++ items').length = fuel + items'.length + items.length := by
    rw [List.length_append]
    omega
  rw [hlen, hrun₁, hrun₂]

theorem Takes.reads (hu : Documented u) {item : Item} {f : α → α} (h : Takes u onRecord item f) :
    Reads u onRecord [item] f := by
  intro tl s a rest hleft
  rw [encodeItems_singleton, Item.encode, List.append_assoc] at hleft
  have hmore : s.offset < s.buffer.length := by
    have hlen := hleft.length
    have hpos := List.length_pos_of_ne_nil (hu.encodeTl_ne_nil item.tl)
    rw [List.length_append] at hlen
    omega
  have hheader := hu.readTl s item.tl h.1 hleft.holds
  have htaken := h.2 (s.skip (u.encodeTl item.tl).length) a hleft.skip.holds
  refine ⟨item.tl, _, hleft.skip.skip, fun fuel => ?_⟩
  change tlvLoop u onRecord (fuel + 1) tl s a = _
  rw [tlvLoop, if_pos hmore, hheader]
  simp only [Option.getD_some, htaken]

/-! ## Round trips -/

/-- What the serializer stores as these records, the deserializer takes as the change. -/
structure Carries (u : ParserUtils) (serialize : SidParseState → SidParseState)
    (onRecord : TlInTlv → SidParseState → α → SidParseState × α) (items : List Item)
    (f : α → α) : Prop where
  writes : WritesItems u serialize items
  reads : Reads u onRecord items f

variable {serialize serialize' : SidParseState → SidParseState} {items items' : List Item}
  {f g : α → α}

theorem Carries.nil : Carries u (fun s => s) onRecord [] fun a => a := ⟨WritesItems.nil, Reads.nil⟩

theorem Carries.comp (hf : Carries u serialize onRecord items f)
    (hg : Carries u serialize' onRecord items' g) :
    Carries u (fun s => serialize' (serialize s)) onRecord (items ++ items') fun a => g (f a) :=
  ⟨hf.writes.comp hg.writes, hf.reads.append hg.reads⟩

theorem Carries.ite {c : Prop} [Decidable c] (hf : c → Carries u serialize onRecord items f)
    (hg : ¬c → Carries u serialize' onRecord items' g) :
    Carries u (fun s => if c then serialize s else serialize' s) onRecord
      (if c then items else items') fun a => if c then f a else g a := by
  by_cases hc : c
  · simp only [if_pos hc]
    exact hf hc
  · simp only [if_neg hc]
    exact hg hc

/-- The branch that stores nothing. -/
theorem Carries.when {c : Prop} [Decidable c] (hf : c → Carries u serialize onRecord items f) :
    Carries u (fun s => if c then serialize s else s) onRecord
      (if c then items else []) fun a => if c then f a else a :=
  Carries.ite hf fun _ => Carries.nil

theorem length_le_encodeItems (hu : Documented u) (items : List Item) :
    items.length ≤ (encodeItems u items).length := by
  induction items with
  | nil => exact Nat.zero_le _
  | cons item items ih =>
    have hpos : 0 < (u.encodeTl item.tl).length :=
      List.length_pos_of_ne_nil (hu.encodeTl_ne_nil item.tl)
    change items.length + 1 ≤ (item.encode u ++ encodeItems u items).length
    rw [List.length_append, Item.encode, List.length_append]
    omega

/-- The deserializer ends on what was stored, each record taken. -/
theorem Carries.roundTrip (hu : Documented u) (h : Carries u serialize onRecord items f)
    {buffer : List UInt8} (hroom : (encodeItems u items).length ≤ buffer.length) {fuel : Nat}
    (hfuel : (serialize (parseStateInit buffer)).written.length < fuel) (tl : TlInTlv) (a : α) :
    ∃ s, tlvLoop u onRecord fuel tl
        (parseStateInit (serialize (parseStateInit buffer)).written) a = some (s, f a) ∧
      s.retCode = errorNone := by
  have hwritten := (h.writes.written hroom).1
  rw [hwritten] at hfuel ⊢
  obtain ⟨tl', s, hleft, hrun⟩ := h.reads tl (parseStateInit (encodeItems u items)) a []
    ((List.append_nil (encodeItems u items)).symm ▸ SidParseState.left_init _)
  have hlen := length_le_encodeItems hu items
  obtain ⟨more, rfl⟩ : ∃ more, fuel = more + 1 + items.length :=
    ⟨fuel - 1 - items.length, by omega⟩
  have hend : ¬s.offset < s.buffer.length := Nat.not_lt.mpr (List.drop_eq_nil_iff.mp hleft.drop)
  refine ⟨s, ?_, hleft.retCode⟩
  rw [hrun, tlvLoop, if_neg hend]

end

end Sidewalk.Demo
