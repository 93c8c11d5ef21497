import Sidewalk.Mfg.Provision

/-!
# Writing to an image that exists

`SidMfgOutBin` reads a v8 image, replaces the records whose tags it is given, and writes the bytes
back over the file. The walk to a record stops before an empty one at the end, and the file keeps
its length where the new bytes are fewer.
-/

namespace Sidewalk.Mfg

open Sidewalk.Tlv

/-! ## Records -/

/-- A TLV value as the tool writes it: the tag and the length take two bytes each. -/
structure Record where
  tag : UInt16
  value : List UInt8
  short : value.length < 2 ^ 16

/-- The two bytes of a number below `2 ^ 16`. -/
def bytes2 (isNetworkOrder : Bool) (n : Nat) : List UInt8 :=
  if isNetworkOrder then [.ofNat (n / 256), .ofNat (n % 256)]
  else [.ofNat (n % 256), .ofNat (n / 256)]

namespace Record

/-- The bytes that a record takes in an image. -/
def size (r : Record) : Nat := roundUp 4 (4 + r.value.length)

def obj (r : Record) : SidMfgObj where
  idVal := r.tag.toNat
  start := 0
  stop := 0
  encoded := r.value

/-- The header and the value, without the padding. -/
def raw (isNetworkOrder : Bool) (r : Record) : List UInt8 :=
  bytes2 isNetworkOrder r.tag.toNat ++ bytes2 isNetworkOrder r.value.length ++ r.value

def encode (isNetworkOrder : Bool) (r : Record) : List UInt8 :=
  r.raw isNetworkOrder ++ List.replicate (r.size - (4 + r.value.length)) 0xFF

end Record

/-- The bytes are the records one after the other, each with some padding behind its value. -/
inductive ScansTo (isNetworkOrder : Bool) : List UInt8 → List Record → Prop
  | nil : ScansTo isNetworkOrder [] []
  | cons {r : Record} {pad rest : List UInt8} {records : List Record} :
      pad.length = r.size - (4 + r.value.length) → ScansTo isNetworkOrder rest records →
      ScansTo isNetworkOrder (r.raw isNetworkOrder ++ pad ++ rest) (r :: records)

/-- The records of an image after others were written to it. -/
def upserted (olds news : List Record) : List Record :=
  olds.filter (·.tag ∉ news.map Record.tag) ++ news

/-- The file of a v8 image. -/
def imageFile (isNetworkOrder : Bool) (header : List UInt8) (records : List Record) :
    List UInt8 :=
  header ++ records.flatMap (Record.encode isNetworkOrder)

/-- The values given to the tool. -/
def page (isNetworkOrder : Bool) (news : List Record) : SidMfg where
  mfgObjs := news.map Record.obj
  isNetworkOrder := isNetworkOrder

/-- The bytes of the file after a run of the tool on it. -/
def fileAfter (isNetworkOrder : Bool) (file : List UInt8) (news : List Record) :
    Except String (List UInt8) := do
  let bin ← (SidMfgOutBin.enter tlvConfig (some file)).write (page isNetworkOrder news)
  return bin.exit file

section

variable {isNetworkOrder : Bool}

@[simp] theorem length_bytes2 (n : Nat) : (bytes2 isNetworkOrder n).length = 2 := by
  unfold bytes2
  split <;> rfl

theorem toBytes2_eq {n : Nat} (hn : n < 2 ^ 16) :
    toBytes2 isNetworkOrder n = .ok (bytes2 isNetworkOrder n) := by
  unfold toBytes2 bytes2
  rw [if_neg (by omega)]
  cases isNetworkOrder <;> rfl

theorem fromBytes_bytes2 {n : Nat} (hn : n < 2 ^ 16) :
    fromBytes isNetworkOrder (bytes2 isNetworkOrder n) = n := by
  have hhi : n / 256 % 256 = n / 256 := Nat.mod_eq_of_lt (by omega)
  have hlo : n % 256 % 256 = n % 256 := Nat.mod_mod n 256
  have hsplit : n / 256 * 256 + n % 256 = n := Nat.div_add_mod' n 256
  cases isNetworkOrder <;>
    simp [fromBytes, bytes2, UInt8.toNat_ofNat', hhi, hsplit]

namespace Record

variable (r : Record)

theorem tag_lt : r.tag.toNat < 2 ^ 16 := r.tag.toNat_lt

/-- A record takes its header and its value, in words, and only an empty one takes no more than
its header. -/
theorem size_spec : 4 + r.value.length ≤ r.size ∧ r.size % 4 = 0 ∧ (r.size = 4 ↔ r.value = []) := by
  have hempty : r.value = [] ↔ r.value.length = 0 := List.length_eq_zero_iff.symm
  rw [hempty]
  unfold size roundUp
  omega

theorem length_raw : (r.raw isNetworkOrder).length = 4 + r.value.length := by
  simp only [raw, List.length_append, length_bytes2]

@[simp] theorem length_encode : (r.encode isNetworkOrder).length = r.size := by
  have hsize := r.size_spec.1
  simp only [encode, List.length_append, length_raw, List.length_replicate]
  omega

end Record

/-- The size of records in an image. -/
def totalSize (records : List Record) : Nat := (records.map Record.size).sum

@[simp] theorem totalSize_cons (r : Record) (records : List Record) :
    totalSize (r :: records) = r.size + totalSize records := by
  simp [totalSize]

@[simp] theorem totalSize_append (rs rs' : List Record) :
    totalSize (rs ++ rs') = totalSize rs + totalSize rs' := by
  simp [totalSize]

theorem totalSize_perm {rs rs' : List Record} (h : rs.Perm rs') : totalSize rs = totalSize rs' :=
  (h.map _).sum_eq

theorem length_flatMap_encode (records : List Record) :
    (records.flatMap (Record.encode isNetworkOrder)).length = totalSize records := by
  induction records with
  | nil => rfl
  | cons r records ih =>
    rw [List.flatMap_cons, List.length_append, ih, Record.length_encode, totalSize_cons]

/-- The length of the bytes is that of the records they hold. -/
theorem ScansTo.length_eq {bytes : List UInt8} {records : List Record}
    (h : ScansTo isNetworkOrder bytes records) : bytes.length = totalSize records := by
  induction h with
  | nil => rfl
  | @cons r pad rest records hpad _ ih =>
    have hsize := r.size_spec.1
    rw [List.length_append, List.length_append, Record.length_raw, hpad, ih, totalSize_cons]
    omega

theorem scansTo_flatMap_encode (records : List Record) :
    ScansTo isNetworkOrder (records.flatMap (Record.encode isNetworkOrder)) records := by
  induction records with
  | nil => exact .nil
  | cons r records ih =>
    rw [List.flatMap_cons]
    exact .cons List.length_replicate ih

/-! ## Removal -/

/-- What `remove_value_with_tag` does to the records: it does not look at an empty one at the
end. -/
def removeRecord (tag : UInt16) : List Record → List Record
  | [] => []
  | r :: rs =>
    if r.value = [] ∧ rs = [] then [r]
    else if r.tag = tag then rs
    else r :: removeRecord tag rs

/-- The record of the tag is empty and the last one. -/
def Hidden (tag : UInt16) (records : List Record) : Prop :=
  ∃ init last, records = init ++ [last] ∧ last.value = [] ∧ last.tag = tag

theorem removeFrom_records {tag : UInt16} {records : List Record} {fuel pos : Nat}
    {pre : List UInt8} (hpos : pre.length = pos) (hfuel : records.length ≤ fuel) :
    SidMfgOutBin.removeFrom 4 tag.toNat isNetworkOrder fuel pos
        (pre ++ records.flatMap (Record.encode isNetworkOrder)) =
      pre ++ (removeRecord tag records).flatMap (Record.encode isNetworkOrder) := by
  induction fuel generalizing records pos pre with
  | zero =>
    obtain rfl := List.length_eq_zero_iff.mp (Nat.le_zero.mp hfuel)
    rfl
  | succ fuel ih =>
    simp only [SidMfgOutBin.removeFrom]
    cases records with
    | nil =>
      rw [if_neg]
      · rfl
      · simp only [List.flatMap_nil, List.append_nil]
        omega
    | cons r rs =>
      obtain ⟨hvalue, hwords, hempty⟩ := r.size_spec
      have hdrop (n : Nat) : (pre ++ (r :: rs).flatMap (Record.encode isNetworkOrder)).drop
          (pos + n) = (r.encode isNetworkOrder ++
            rs.flatMap (Record.encode isNetworkOrder)).drop n := by
        rw [← hpos, ← List.drop_drop, List.drop_left, List.flatMap_cons]
      have htag : ((pre ++ (r :: rs).flatMap (Record.encode isNetworkOrder)).drop pos).take 2 =
          bytes2 isNetworkOrder r.tag.toNat := by
        rw [show pos = pos + 0 from rfl, hdrop 0]
        simp only [List.drop_zero, Record.encode, Record.raw, List.append_assoc]
        exact List.take_left' (length_bytes2 _)
      have hlen : ((pre ++ (r :: rs).flatMap (Record.encode isNetworkOrder)).drop (pos + 2)).take 2
          = bytes2 isNetworkOrder r.value.length := by
        rw [hdrop 2]
        simp only [Record.encode, Record.raw, List.append_assoc]
        rw [List.drop_left' (length_bytes2 _)]
        exact List.take_left' (length_bytes2 _)
      have hstep : roundUp 4 (r.value.length + 4) = r.size := by
        rw [Nat.add_comm]
        rfl
      have htotal : (pre ++ (r :: rs).flatMap (Record.encode isNetworkOrder)).length =
          pos + (r.size + totalSize rs) := by
        rw [List.length_append, hpos, length_flatMap_encode, totalSize_cons]
      rw [htotal, htag, hlen, fromBytes_bytes2 r.tag_lt, fromBytes_bytes2 r.short, hstep]
      have hlast : pos + 4 < pos + (r.size + totalSize rs) ↔ ¬(r.value = [] ∧ rs = []) := by
        have hrest : rs = [] ↔ totalSize rs = 0 := by
          refine ⟨fun h => h ▸ rfl, ?_⟩
          intro h
          cases rs with
          | nil => rfl
          | cons r' rs =>
            have := r'.size_spec.1
            rw [totalSize_cons] at h
            omega
        rw [hrest, ← hempty]
        omega
      unfold removeRecord
      by_cases hstop : r.value = [] ∧ rs = []
      · obtain ⟨-, rfl⟩ := id hstop
        rw [if_neg (fun h => hlast.mp h hstop), if_pos hstop]
      · rw [if_pos (hlast.mpr hstop), if_neg hstop]
        by_cases heq : r.tag = tag
        · subst heq
          rw [if_pos rfl, if_pos rfl, hdrop r.size, ← hpos, List.take_left,
            List.drop_left' r.length_encode]
        · rw [if_neg (fun h => heq (UInt16.toNat_inj.mp h)), if_neg heq, List.flatMap_cons,
            List.flatMap_cons, ← List.append_assoc, ← List.append_assoc]
          refine ih ?_ (Nat.le_of_succ_le_succ hfuel)
          rw [List.length_append, Record.length_encode, hpos]

/-- A tag that at most one record has. -/
def AtMostOnce (tag : UInt16) (records : List Record) : Prop :=
  records.Pairwise fun r r' => r.tag = tag → r'.tag ≠ tag

theorem filter_eq_self_of_ne {tag : UInt16} {records : List Record}
    (h : ∀ r ∈ records, r.tag ≠ tag) : records.filter (·.tag ≠ tag) = records :=
  List.filter_eq_self.mpr fun r hr => decide_eq_true (h r hr)

theorem removeRecord_of_not_hidden {tag : UInt16} {records : List Record}
    (honce : AtMostOnce tag records) (hhidden : ¬Hidden tag records) :
    removeRecord tag records = records.filter (·.tag ≠ tag) := by
  induction records with
  | nil => rfl
  | cons r rs ih =>
    obtain ⟨hhead, htail⟩ := List.pairwise_cons.mp honce
    have hrest : ¬Hidden tag rs := by
      rintro ⟨init, last, rfl, hlast⟩
      exact hhidden ⟨r :: init, last, rfl, hlast⟩
    unfold removeRecord
    split
    · next hstop =>
      obtain ⟨hvalue, rfl⟩ := hstop
      have hne : r.tag ≠ tag := fun h => hhidden ⟨[], r, rfl, hvalue, h⟩
      rw [filter_eq_self_of_ne (by simpa using hne)]
    · split
      · next heq =>
        rw [List.filter_cons_of_neg (by simpa using heq), filter_eq_self_of_ne]
        exact fun r' hr' => hhead r' hr' heq
      · next hne =>
        rw [List.filter_cons_of_pos (by simpa using hne), ih htail hrest]

theorem removeRecord_of_hidden {tag : UInt16} {records : List Record}
    (honce : AtMostOnce tag records) (hhidden : Hidden tag records) :
    removeRecord tag records = records := by
  obtain ⟨init, last, rfl, hvalue, htag⟩ := hhidden
  induction init with
  | nil => exact if_pos ⟨hvalue, rfl⟩
  | cons r init ih =>
    obtain ⟨hhead, htail⟩ := List.pairwise_cons.mp honce
    have hne : r.tag ≠ tag := by
      intro h
      exact hhead last (List.mem_append_right _ List.mem_cons_self) h htag
    rw [List.cons_append, removeRecord, if_neg (by simp), if_neg hne, ih htail]

/-! ## Writing -/

/-- One value of a run of the tool. -/
def writeRecord (records : List Record) (r : Record) : List Record :=
  removeRecord r.tag records ++ [r]

theorem makeTlv_obj (bin : SidMfgOutBin) (hconfig : bin.config = tlvConfig) (r : Record) :
    bin.makeTlv r.obj.idVal r.obj.encoded isNetworkOrder = .ok (r.encode isNetworkOrder) := by
  have hlen : (bytes2 isNetworkOrder r.tag.toNat ++ bytes2 isNetworkOrder r.value.length ++
      r.value).length = 4 + r.value.length := r.length_raw
  simp only [SidMfgOutBin.makeTlv, Record.obj, toBytes2_eq r.tag_lt, toBytes2_eq r.short, hconfig]
  change Except.ok _ = _
  rw [hlen]
  rfl

theorem writeObj_obj {header : List UInt8} (hheader : header.length = 8)
    (records : List Record) (len : Nat) (r : Record) :
    SidMfgOutBin.writeObj isNetworkOrder
        (⟨tlvConfig, imageFile isNetworkOrder header records⟩, len) r.obj =
      .ok (⟨tlvConfig, imageFile isNetworkOrder header (writeRecord records r)⟩,
        (imageFile isNetworkOrder header (writeRecord records r)).length) := by
  have hfuel : records.length ≤ (imageFile isNetworkOrder header records).length := by
    have hcount : records.length ≤ totalSize records := by
      induction records with
      | nil => exact Nat.le_refl 0
      | cons r records ih =>
        have hsize := r.size_spec.1
        rw [List.length_cons, totalSize_cons]
        omega
    unfold imageFile
    rw [List.length_append, length_flatMap_encode]
    omega
  have hremove : (SidMfgOutBin.mk tlvConfig
      (imageFile isNetworkOrder header records)).removeValueWithTag r.obj.idVal isNetworkOrder =
        ⟨tlvConfig, imageFile isNetworkOrder header (removeRecord r.tag records)⟩ :=
    congrArg (SidMfgOutBin.mk tlvConfig) (removeFrom_records hheader hfuel)
  have hencoded : imageFile isNetworkOrder header (removeRecord r.tag records) ++
      r.encode isNetworkOrder = imageFile isNetworkOrder header (writeRecord records r) := by
    simp only [imageFile, writeRecord, List.flatMap_append, List.flatMap_cons, List.flatMap_nil,
      List.append_nil, List.append_assoc]
  simp only [SidMfgOutBin.writeObj]
  rw [if_pos ⟨rfl, rfl, rfl⟩]
  have htlv := @makeTlv_obj isNetworkOrder (SidMfgOutBin.mk tlvConfig
    (imageFile isNetworkOrder header (removeRecord r.tag records))) rfl r
  simp only [hremove, htlv]
  change Except.ok _ = _
  simp only [hencoded]

theorem foldlM_writeObj_obj {header : List UInt8} (hheader : header.length = 8)
    (news records : List Record) :
    (news.map Record.obj).foldlM (SidMfgOutBin.writeObj isNetworkOrder)
        (⟨tlvConfig, imageFile isNetworkOrder header records⟩,
          (imageFile isNetworkOrder header records).length) =
      .ok (⟨tlvConfig, imageFile isNetworkOrder header (news.foldl writeRecord records)⟩,
        (imageFile isNetworkOrder header (news.foldl writeRecord records)).length) := by
  induction news generalizing records with
  | nil => rfl
  | cons r news ih =>
    rw [List.map_cons, List.foldlM_cons, writeObj_obj hheader]
    exact ih (writeRecord records r)

/-- The values in the order of their tags. -/
def sortedByTag (news : List Record) : List Record :=
  news.insertionSort (·.tag.toNat ≤ ·.tag.toNat)

theorem iter_page (news : List Record) :
    (page isNetworkOrder news).iter = (sortedByTag news).map Record.obj :=
  (List.map_insertionSort (r := fun r r' : Record => r.tag.toNat ≤ r'.tag.toNat)
    (s := fun o o' : SidMfgObj => o.idVal ≤ o'.idVal) Record.obj news
    fun _ _ _ _ => Iff.rfl).symm

/-- What the file holds after a run of the tool. -/
theorem fileAfter_eq {header : List UInt8} (hheader : header.length = 8)
    (olds news : List Record) :
    fileAfter isNetworkOrder (imageFile isNetworkOrder header olds) news =
      .ok (imageFile isNetworkOrder header ((sortedByTag news).foldl writeRecord olds) ++
        (imageFile isNetworkOrder header olds).drop
          (8 + totalSize ((sortedByTag news).foldl writeRecord olds))) := by
  have hsize : tlvConfig.versionEnd * tlvConfig.offsetSize -
      (imageFile isNetworkOrder header olds).length = 0 := by
    unfold imageFile
    rw [List.length_append, hheader]
    exact Nat.sub_eq_zero_of_le (Nat.le_add_right 8 _)
  have henter : SidMfgOutBin.enter tlvConfig (some (imageFile isNetworkOrder header olds)) =
      ⟨tlvConfig, imageFile isNetworkOrder header olds⟩ := by
    change SidMfgOutBin.mk tlvConfig (_ ++ List.replicate (tlvConfig.versionEnd *
      tlvConfig.offsetSize - _) 0xFF) = _
    rw [show ((some (imageFile isNetworkOrder header olds)).getD []).length =
      (imageFile isNetworkOrder header olds).length from rfl, hsize]
    exact congrArg (SidMfgOutBin.mk tlvConfig) (List.append_nil _)
  have hlength : (imageFile isNetworkOrder header
      ((sortedByTag news).foldl writeRecord olds)).length =
        8 + totalSize ((sortedByTag news).foldl writeRecord olds) := by
    unfold imageFile
    rw [List.length_append, hheader, length_flatMap_encode]
  have hwrite : (SidMfgOutBin.mk tlvConfig (imageFile isNetworkOrder header olds)).write
      (page isNetworkOrder news) = .ok ⟨tlvConfig, imageFile isNetworkOrder header
        ((sortedByTag news).foldl writeRecord olds)⟩ := by
    unfold SidMfgOutBin.write
    rw [iter_page]
    exact congrArg (fun r => r >>= fun p : SidMfgOutBin × Nat => pure p.1)
      (foldlM_writeObj_obj hheader (sortedByTag news) olds)
  unfold fileAfter
  rw [henter, hwrite]
  change Except.ok (_ ++ (imageFile isNetworkOrder header olds).drop
    (imageFile isNetworkOrder header ((sortedByTag news).foldl writeRecord olds)).length) = _
  rw [hlength]

theorem sortedByTag_spec {news : List Record} (hnews : (news.map Record.tag).Nodup) :
    (sortedByTag news).Perm news ∧ (sortedByTag news).Pairwise (·.tag.toNat < ·.tag.toNat) := by
  have hperm : (sortedByTag news).Perm news := List.perm_insertionSort _ news
  refine ⟨hperm, ?_⟩
  have hsorted := List.pairwise_insertionSort (fun r r' : Record => r.tag.toNat ≤ r'.tag.toNat) news
  have hdistinct : (sortedByTag news).Pairwise fun r r' => r.tag ≠ r'.tag :=
    List.pairwise_map.mp ((hperm.map Record.tag).nodup_iff.mpr hnews)
  refine (hsorted.and hdistinct).imp ?_
  intro r r' h
  exact Nat.lt_of_le_of_ne h.1 fun heq => h.2 (UInt16.toNat_inj.mp heq)

/-! ## What the records become -/

theorem atMostOnce_append {tag : UInt16} {records : List Record} {r : Record}
    (h : AtMostOnce tag records) (hne : r.tag ≠ tag) : AtMostOnce tag (records ++ [r]) := by
  refine List.pairwise_append.mpr ⟨h, List.pairwise_singleton _ _, ?_⟩
  intro a _ b hb _
  rw [List.mem_singleton.mp hb]
  exact hne

theorem not_hidden_append {tag : UInt16} {records : List Record} {r : Record}
    (hne : r.tag ≠ tag) : ¬Hidden tag (records ++ [r]) := by
  rintro ⟨init, last, heq, -, hlast⟩
  obtain ⟨-, hlasts⟩ := List.append_inj' heq rfl
  cases hlasts
  exact hne hlast

/-- Once the record of the first value is not hidden, each value replaces its record: a value that
was written keeps the records before it from being the last. -/
theorem foldl_writeRecord {news records : List Record} (hnews : (news.map Record.tag).Nodup)
    (honce : ∀ r ∈ news, AtMostOnce r.tag records)
    (hhidden : ∀ r ∈ news.head?, ¬Hidden r.tag records) :
    news.foldl writeRecord records = upserted records news := by
  induction news generalizing records with
  | nil =>
    unfold upserted
    simp
  | cons r news ih =>
    obtain ⟨hfresh, hnews⟩ := List.nodup_cons.mp hnews
    rw [List.forall_mem_cons] at honce
    have hne (r' : Record) (hr' : r' ∈ news) : r.tag ≠ r'.tag := by
      intro h
      exact hfresh (h ▸ List.mem_map_of_mem hr')
    have hstep : writeRecord records r = records.filter (·.tag ≠ r.tag) ++ [r] := by
      unfold writeRecord
      rw [removeRecord_of_not_hidden honce.1 (hhidden r rfl)]
    rw [List.foldl_cons, hstep, ih hnews]
    · unfold upserted
      rw [List.filter_append, List.filter_filter]
      have hself : [r].filter (·.tag ∉ news.map Record.tag) = [r] :=
        List.filter_cons_of_pos (decide_eq_true hfresh)
      rw [hself, List.append_assoc]
      congr 1
      refine List.filter_congr fun r' _ => ?_
      simp only [List.map_cons, List.mem_cons, not_or, ne_eq, Bool.decide_and, Bool.and_comm]
    · intro r' hr'
      exact atMostOnce_append ((honce.2 r' hr').sublist List.filter_sublist) (hne r' hr')
    · intro r' hr'
      exact not_hidden_append (hne r' (List.mem_of_mem_head? hr'))

theorem atMostOnce_of_nodup {records : List Record} (h : (records.map Record.tag).Nodup)
    (tag : UInt16) : AtMostOnce tag records := by
  refine (List.pairwise_map.mp h).imp ?_
  intro r r' hne hr hr'
  exact hne (hr.trans hr'.symm)

/-! ## When the file is right -/

/-- The new records take at least the bytes of the old ones that they replace. -/
def NotShorter (olds news : List Record) : Prop :=
  totalSize (olds.filter (·.tag ∈ news.map Record.tag)) ≤ totalSize news

/-- The last old record is empty and the first one that the tool replaces. -/
def HidesFirst (olds news : List Record) : Prop :=
  ∃ r ∈ news, (∀ r' ∈ news, r.tag.toNat ≤ r'.tag.toNat) ∧ Hidden r.tag olds

/-- The records that stay and those that are replaced are all there are. -/
theorem totalSize_filter (olds news : List Record) :
    totalSize (olds.filter (·.tag ∉ news.map Record.tag)) +
      totalSize (olds.filter (·.tag ∈ news.map Record.tag)) = totalSize olds := by
  induction olds with
  | nil => rfl
  | cons r olds ih =>
    by_cases hr : r.tag ∈ news.map Record.tag
    · rw [List.filter_cons_of_neg (by simpa using hr), List.filter_cons_of_pos (by simpa using hr),
        totalSize_cons, totalSize_cons]
      omega
    · rw [List.filter_cons_of_pos (by simpa using hr), List.filter_cons_of_neg (by simpa using hr),
        totalSize_cons, totalSize_cons]
      omega

theorem upserted_perm {olds news news' : List Record} (h : news.Perm news') :
    (upserted olds news).Perm (upserted olds news') := by
  have hfilter : olds.filter (·.tag ∉ news.map Record.tag) =
      olds.filter (·.tag ∉ news'.map Record.tag) := by
    refine List.filter_congr fun r _ => ?_
    exact decide_eq_decide.mpr (not_congr (h.map Record.tag).mem_iff)
  unfold upserted
  rw [hfilter]
  exact h.append_left _

/-- Without a hidden record the tool makes the records what they should be, with one it leaves the
hidden one too. -/
theorem foldl_sorted {olds news : List Record} (holds : (olds.map Record.tag).Nodup)
    (hnews : (news.map Record.tag).Nodup) :
    (¬HidesFirst olds news →
      ((sortedByTag news).foldl writeRecord olds).Perm (upserted olds news)) ∧
    (HidesFirst olds news →
      totalSize ((sortedByTag news).foldl writeRecord olds) =
        totalSize (upserted olds news) + 4) := by
  obtain ⟨hperm, hsorted⟩ := sortedByTag_spec hnews
  have hnodup : ((sortedByTag news).map Record.tag).Nodup := (hperm.map _).nodup_iff.mpr hnews
  have hupserted := @upserted_perm olds _ _ hperm
  generalize sortedByTag news = sorted at *
  cases sorted with
  | nil =>
    obtain rfl := hperm.symm.eq_nil
    refine ⟨fun _ => List.Perm.of_eq ?_, fun h => absurd h.choose_spec.1 List.not_mem_nil⟩
    unfold upserted
    simp
  | cons first rest =>
    obtain ⟨hleast, hsorted⟩ := List.pairwise_cons.mp hsorted
    obtain ⟨hfresh, hrest⟩ := List.nodup_cons.mp hnodup
    have hfirst : first ∈ news := hperm.mem_iff.mp List.mem_cons_self
    have hmin (r : Record) (hr : r ∈ news) : first.tag.toNat ≤ r.tag.toNat := by
      rcases List.mem_cons.mp (hperm.mem_iff.mpr hr) with rfl | hr
      · exact Nat.le_refl _
      · exact (hleast r hr).le
    have hhides : HidesFirst olds news ↔ Hidden first.tag olds := by
      refine ⟨?_, fun h => ⟨first, hfirst, hmin, h⟩⟩
      rintro ⟨r, hr, hle, hhidden⟩
      have heq : first.tag = r.tag :=
        UInt16.toNat_inj.mp (Nat.le_antisymm (hmin r hr) (hle first hfirst))
      exact heq ▸ hhidden
    have honce := atMostOnce_of_nodup holds
    rw [hhides]
    refine ⟨fun hhidden => ?_, fun hhidden => ?_⟩
    · refine List.Perm.trans (List.Perm.of_eq ?_) hupserted
      refine foldl_writeRecord hnodup (fun r _ => honce r.tag) ?_
      intro r hr
      cases hr
      exact hhidden
    · have hne (r : Record) (hr : r ∈ rest) : first.tag ≠ r.tag := by
        intro h
        exact hfresh (h ▸ List.mem_map_of_mem hr)
      have hfold : (first :: rest).foldl writeRecord olds = upserted (olds ++ [first]) rest := by
        rw [List.foldl_cons, writeRecord, removeRecord_of_hidden (honce _) hhidden]
        refine foldl_writeRecord hrest (fun r hr => atMostOnce_append (honce _) (hne r hr)) ?_
        exact fun r hr => not_hidden_append (hne r (List.mem_of_mem_head? hr))
      rw [hfold, ← totalSize_perm hupserted]
      obtain ⟨init, last, rfl, hvalue, htag⟩ := hhidden
      have hsize : last.size = 4 := last.size_spec.2.2.mpr hvalue
      have hinit : init.filter (·.tag ∉ rest.map Record.tag) =
          init.filter (·.tag ∉ (first :: rest).map Record.tag) := by
        refine List.filter_congr fun r hr => decide_eq_decide.mpr ?_
        have hdiff : r.tag ≠ first.tag := by
          intro h
          exact (List.pairwise_append.mp (honce first.tag)).2.2 r hr last List.mem_cons_self h htag
        rw [List.map_cons, List.mem_cons, not_or]
        exact ⟨fun h => ⟨hdiff, h⟩, fun h => h.2⟩
      have hkept (r : Record) (hr : r.tag = first.tag) :
          [r].filter (·.tag ∉ rest.map Record.tag) = [r] :=
        List.filter_cons_of_pos (decide_eq_true (hr ▸ hfresh))
      have hgone : [last].filter (·.tag ∉ (first :: rest).map Record.tag) = [] :=
        List.filter_cons_of_neg (by simp [htag])
      unfold upserted
      simp only [List.filter_append, hinit, hkept last htag, hkept first rfl, hgone,
        totalSize_append, totalSize_cons, hsize]
      change _ + (4 + 0) + (_ + 0) + _ = _ + 0 + _ + 4
      omega

/-- The file holds the records after the run if the run ends well. -/
def Upserts (isNetworkOrder : Bool) (header : List UInt8) (olds news : List Record) : Prop :=
  ∃ rest records,
    fileAfter isNetworkOrder (imageFile isNetworkOrder header olds) news = .ok (header ++ rest) ∧
      ScansTo isNetworkOrder rest records ∧ records.Perm (upserted olds news)

/-- The length of a file that holds the records. -/
theorem Upserts.length_eq {header : List UInt8} {olds news : List Record} {file : List UInt8}
    (h : Upserts isNetworkOrder header olds news)
    (hfile : fileAfter isNetworkOrder (imageFile isNetworkOrder header olds) news = .ok file) :
    file.length = header.length + totalSize (upserted olds news) := by
  obtain ⟨rest, records, hrun, hscan, hperm⟩ := h
  rw [hfile] at hrun
  cases hrun
  rw [List.length_append, hscan.length_eq, totalSize_perm hperm]

/-- For every image and every values, the file of an image holds after the run what it should
exactly if the new records are not shorter than those they replace and the record of the least tag
is not an empty one at the end. -/
theorem upserts_iff (isNetworkOrder : Bool) (header : List UInt8) (hheader : header.length = 8)
    (olds news : List Record) (holds : (olds.map Record.tag).Nodup)
    (hnews : (news.map Record.tag).Nodup) :
    Upserts isNetworkOrder header olds news ↔ NotShorter olds news ∧ ¬HidesFirst olds news := by
  obtain ⟨hright, hwrong⟩ := foldl_sorted holds hnews
  have hfile := @fileAfter_eq isNetworkOrder header hheader olds news
  have hsplit := totalSize_filter olds news
  have hupserted : totalSize (upserted olds news) =
      totalSize (olds.filter (·.tag ∉ news.map Record.tag)) + totalSize news :=
    totalSize_append _ _
  have himage (records : List Record) : (imageFile isNetworkOrder header records).length =
      8 + totalSize records := by
    unfold imageFile
    rw [List.length_append, hheader, length_flatMap_encode]
  refine ⟨fun h => ?_, fun ⟨hlong, hhides⟩ => ?_⟩
  · have hlength := h.length_eq hfile
    rw [List.length_append, List.length_drop, himage, himage, hheader] at hlength
    refine ⟨?_, fun hhides => ?_⟩
    · unfold NotShorter
      omega
    · have hextra := hwrong hhides
      omega
  · have hperm := hright hhides
    have htotal := totalSize_perm hperm
    unfold NotShorter at hlong
    refine ⟨_, (sortedByTag news).foldl writeRecord olds, ?_, scansTo_flatMap_encode _, hperm⟩
    rw [hfile, List.drop_of_length_le, List.append_nil]
    · rfl
    · rw [himage]
      omega

end

/-! ## Values that go wrong -/

/-- A record of the given bytes. -/
def smallRecord (tag : UInt16) (b : UInt8) : Record := ⟨tag, [b], by simp⟩

/-- One value that is longer than the old one, one that is new, and two that stay. -/
theorem upserts_iff_several :
    Upserts true (List.replicate 8 0)
      [smallRecord 9 1, ⟨5, [1, 2, 3, 4, 5], by simp⟩, smallRecord 7 2]
      [smallRecord 3 4, ⟨5, [6, 7, 8, 9, 10, 11], by simp⟩] := by
  refine (upserts_iff true (List.replicate 8 0) rfl _ _ (by decide) (by decide)).mpr
    ⟨by unfold NotShorter; decide, ?_⟩
  rintro ⟨r, -, -, init, last, hend, hempty, -⟩
  have hlast := congrArg (fun records => records.getLast?.map Record.value) hend
  simp [hempty, smallRecord] at hlast

/-- A value that is shorter than the old one: the file keeps the end of the old record. -/
theorem shorter_value_leaves_rest :
    ¬∀ (isNetworkOrder : Bool) (header : List UInt8) (olds news : List Record),
      header.length = 8 → (olds.map Record.tag).Nodup → (news.map Record.tag).Nodup →
        Upserts isNetworkOrder header olds news := by
  intro h
  have hupserts := h true (List.replicate 8 0) [⟨5, [1, 2, 3, 4, 5], by simp⟩] [smallRecord 5 1]
    rfl (by decide) (by decide)
  have hfile := @fileAfter_eq true (List.replicate 8 0) rfl [⟨5, [1, 2, 3, 4, 5], by simp⟩]
    [smallRecord 5 1]
  have hlength := hupserts.length_eq hfile
  revert hlength
  decide

end Sidewalk.Mfg
