import Sidewalk.Storage.Kv

/-!
# The store against a map

`Tracks` is the invariant of the runs: each record has the value of the last call that set it, in
the PSA for a secure key and in the settings for any other. `kv_refines_iff` says for which records
`record_get` and `record_get_len` then answer as the map does.
-/

namespace Sidewalk.Storage

open Sidewalk.Lib

/-! ## Settings as a map -/

namespace Settings

theorem lookup_cons (entry : Name × List UInt8) (s : Settings) (name : Name) :
    lookup (entry :: s) name = if entry.1 = name then some entry.2 else s.lookup name := by
  unfold lookup
  by_cases h : entry.1 = name
  · rw [List.find?_cons_of_pos (by simp [h]), if_pos h, Option.map_some]
  · rw [List.find?_cons_of_neg (by simp [h]), if_neg h]

theorem delete_cons (entry : Name × List UInt8) (s : Settings) (name : Name) :
    delete (entry :: s) name = if entry.1 = name then s.delete name else entry :: s.delete name := by
  unfold delete
  by_cases h : entry.1 = name
  · rw [List.filter_cons_of_neg (by simp [h]), if_pos h]
  · rw [List.filter_cons_of_pos (by simp [h]), if_neg h]

theorem lookup_delete (s : Settings) (name other : Name) :
    (s.delete name).lookup other = if other = name then none else s.lookup other := by
  induction s with
  | nil => exact (ite_self _).symm
  | cons entry s ih =>
    rw [delete_cons, lookup_cons]
    by_cases hname : entry.1 = name
    · rw [if_pos hname, ih]
      by_cases hother : other = name
      · rw [if_pos hother, if_pos hother]
      · rw [if_neg hother, if_neg hother, if_neg fun h => hother (h.symm.trans hname)]
    · rw [if_neg hname, lookup_cons, ih]
      by_cases hentry : entry.1 = other
      · rw [if_pos hentry, if_pos hentry, if_neg fun h => hname (hentry.trans h)]
      · rw [if_neg hentry, if_neg hentry]

theorem lookup_saveOne (s : Settings) (name other : Name) (value : List UInt8) :
    (s.saveOne name value).lookup other = if name = other then some value else s.lookup other := by
  unfold saveOne
  rw [lookup_cons, lookup_delete]
  by_cases h : name = other
  · rw [if_pos h, if_pos h]
  · rw [if_neg h, if_neg h, if_neg fun h' => h h'.symm]

theorem mem_of_lookup {s : Settings} {name : Name} {value : List UInt8}
    (h : s.lookup name = some value) : (name, value) ∈ s := by
  obtain ⟨entry, hfind, rfl⟩ := Option.map_eq_some_iff.1 h
  have hname : entry.1 = name := by simpa using List.find?_some hfind
  have hmem := List.mem_of_find?_eq_some hfind
  rwa [← hname]

theorem lookup_eq_none {s : Settings} {name : Name} (h : ∀ entry ∈ s, entry.1 ≠ name) :
    s.lookup name = none := by
  cases hlookup : s.lookup name with
  | none => rfl
  | some value => exact absurd rfl (h _ (mem_of_lookup hlookup))

/-- Deleting one setting after another. -/
theorem lookup_foldl_delete {α : Type} (f : α → Name) (xs : List α) (s : Settings) (name : Name) :
    (xs.foldl (fun s x => s.delete (f x)) s).lookup name =
      if ∃ x ∈ xs, f x = name then none else s.lookup name := by
  induction xs generalizing s with
  | nil => simp
  | cons x xs ih =>
    rw [List.foldl_cons, ih, lookup_delete]
    by_cases htail : ∃ x ∈ xs, f x = name
    · have hcons : ∃ y ∈ x :: xs, f y = name := by
        obtain ⟨y, hy, rfl⟩ := htail
        exact ⟨y, List.mem_cons_of_mem _ hy, rfl⟩
      rw [if_pos htail, if_pos hcons]
    · rw [if_neg htail]
      by_cases hhead : name = f x
      · rw [if_pos hhead, if_pos ⟨x, List.mem_cons_self, hhead.symm⟩]
      · rw [if_neg hhead, if_neg]
        rintro ⟨y, hy, rfl⟩
        rcases List.mem_cons.1 hy with rfl | hy
        · exact hhead rfl
        · exact htail ⟨y, hy, rfl⟩

theorem mem_foldl_delete {α : Type} {f : α → Name} {xs : List α} {s : Settings}
    {entry : Name × List UInt8} (h : entry ∈ xs.foldl (fun s x => s.delete (f x)) s) :
    entry ∈ s := by
  induction xs generalizing s with
  | nil => exact h
  | cons x xs ih => exact List.mem_of_mem_filter (ih h)

theorem relative_eq_nil {name other : Name} (hslash : other ≠ name ++ ['/']) :
    relative name other = some [] ↔ other = name := by
  unfold relative
  by_cases heq : other = name
  · rw [if_pos heq]
    exact ⟨fun _ => heq, fun _ => rfl⟩
  · rw [if_neg heq]
    refine ⟨fun h => ?_, fun h => absurd h heq⟩
    split at h
    · next hprefix =>
      obtain ⟨rest, rfl⟩ := List.isPrefixOf_iff_prefix.1 hprefix
      rw [Option.some_inj, List.drop_append_of_le_length (by simp)] at h
      have hrest : rest = [] := (List.append_eq_nil_iff.1 h).2
      rw [hrest, List.append_nil] at hslash
      exact absurd rfl hslash
    · exact absurd h (by simp)

/-- What the callback gets for the name itself. -/
theorem find_subtree {s : Settings} {name : Name} (h : ∀ entry ∈ s, entry.1 ≠ name ++ ['/']) :
    ((s.subtree name).find? (·.1 = [])).map Prod.snd = s.lookup name := by
  unfold subtree
  induction s with
  | nil => rfl
  | cons entry s ih =>
    have htail := ih fun entry hentry => h entry (List.mem_cons_of_mem _ hentry)
    have hnil := relative_eq_nil (h entry List.mem_cons_self)
    rw [lookup_cons, List.filterMap_cons]
    cases hrelative : relative name entry.1 with
    | none =>
      rw [if_neg fun heq => by rw [hnil.2 heq] at hrelative; cases hrelative]
      exact htail
    | some rest =>
      rw [hrelative, Option.some_inj] at hnil
      simp only [Option.map_some]
      by_cases hrest : rest = []
      · rw [List.find?_cons_of_pos (by simp [hrest]), if_pos (hnil.1 hrest), Option.map_some]
      · rw [List.find?_cons_of_neg (by simp [hrest]), if_neg fun heq => hrest (hnil.2 heq)]
        exact htail

end Settings

/-! ## Names of records -/

theorem digitChar_injective :
    ∀ a < 16, ∀ b < 16, Nat.digitChar a = Nat.digitChar b → a = b := by
  decide

theorem hex4_injective {v w : UInt16} (h : hex4 v = hex4 w) : v = w := by
  unfold hex4 at h
  simp only [List.cons.injEq, and_true] at h
  obtain ⟨h3, h2, h1, h0⟩ := h
  have hv := v.toNat_lt
  have hw := w.toNat_lt
  have e3 := digitChar_injective _ (by omega) _ (by omega) h3
  have e2 := digitChar_injective _ (by omega) _ (by omega) h2
  have e1 := digitChar_injective _ (by omega) _ (by omega) h1
  have e0 := digitChar_injective _ (by omega) _ (by omega) h0
  exact UInt16.toNat_inj.1 (by omega)

theorem settingsSerializeGroup_eq (group : UInt16) :
    settingsSerializeGroup group = "sidewalk/storage/".toList ++ hex4 group := rfl

theorem settingsSerializeGroupKey_eq (group key : UInt16) :
    settingsSerializeGroupKey group key =
      settingsSerializeGroup group ++ (['/'] ++ hex4 key) := rfl

theorem length_settingsSerializeGroup (group : UInt16) :
    (settingsSerializeGroup group).length = 21 := rfl

theorem settingsSerializeGroup_injective {group group' : UInt16}
    (h : settingsSerializeGroup group = settingsSerializeGroup group') : group = group' := by
  rw [settingsSerializeGroup_eq, settingsSerializeGroup_eq] at h
  exact hex4_injective (List.append_cancel_left h)

theorem settingsSerializeGroupKey_injective {group key group' key' : UInt16}
    (h : settingsSerializeGroupKey group key = settingsSerializeGroupKey group' key') :
    group = group' ∧ key = key' := by
  rw [settingsSerializeGroupKey_eq, settingsSerializeGroupKey_eq] at h
  obtain ⟨hgroup, hkey⟩ := List.append_inj h rfl
  exact ⟨settingsSerializeGroup_injective hgroup, hex4_injective (List.append_cancel_left hkey)⟩

/-- Deleting the subtree of a group reaches no record of another one, even by a name cut short. -/
theorem group_of_snprintf {group group' key' : UInt16} {rest : Name}
    (h : snprintf (settingsSerializeGroup group ++ ['/'] ++ rest) =
      settingsSerializeGroupKey group' key') : group = group' := by
  have htake := congrArg (List.take 21) h
  unfold snprintf storageSerialSize at htake
  rw [List.take_take, settingsSerializeGroupKey_eq, List.append_assoc] at htake
  rw [List.take_append_of_le_length (by rw [length_settingsSerializeGroup]; omega)] at htake
  rw [List.take_append_of_le_length (by rw [length_settingsSerializeGroup])] at htake
  exact settingsSerializeGroup_injective htake

theorem storage2keyId_group {build : Build} {group key : UInt16} {id : KeyId}
    (h : storage2keyId build group key = some id) :
    build.psaKeyStorage = true ∧ group = kvInternalProtocolGroupId ∧
      (id = .kvWanMaster ∨ id = .kvAppKey ∨ id = .kvD2d) := by
  unfold storage2keyId at h
  split at h
  · next hsecure =>
    refine ⟨hsecure.1, hsecure.2, ?_⟩
    split at h
    · exact .inl (Option.some.inj h).symm
    split at h
    · exact .inr (.inl (Option.some.inj h).symm)
    split at h
    · exact .inr (.inr (Option.some.inj h).symm)
    · cases h
  · cases h

/-- Two records never share a secure key. -/
theorem storage2keyId_injective {build : Build} {group key group' key' : UInt16} {id : KeyId}
    (h : storage2keyId build group key = some id)
    (h' : storage2keyId build group' key' = some id) : group = group' ∧ key = key' := by
  refine ⟨(storage2keyId_group h).2.1.trans (storage2keyId_group h').2.1.symm, ?_⟩
  have hkey : ∀ {group key : UInt16}, storage2keyId build group key = some id →
      key = if id = .kvWanMaster then kvWanMasterKey
        else if id = .kvAppKey then kvAppMasterKey else kvD2dMasterKey := by
    intro group key h
    unfold storage2keyId at h
    split at h
    · split at h
      · next hkey => cases h; exact hkey
      split at h
      · next hkey => cases h; exact hkey
      split at h
      · next hkey => cases h; exact hkey
      · cases h
    · cases h
  exact (hkey h).trans (hkey h').symm

/-! ## One call -/

theorem newImport_faultless {build : Build} {id : KeyId} {data : Mem} {len : Nat} {psa : Psa}
    (hlen : len ≠ 0) (hhandle : isHandle build data len = false) :
    newImport build .none id data len psa =
      if build.accepts id (data.slice 0 len) then
        (esuccess, Function.update psa id (some (data.slice 0 len)))
      else (eacces, Function.update psa id none) := by
  unfold newImport
  rw [if_neg hlen, hhandle, if_neg Bool.false_ne_true]
  have hdestroy : ¬PsaFaults.none.destroy = true := Bool.false_ne_true
  have hpurge : ¬PsaFaults.none.purge = true := Bool.false_ne_true
  have himport : PsaFaults.none.importKey = false := rfl
  simp only
  rw [if_neg hdestroy, if_neg hpurge, Function.update_self, Function.update_idem]
  simp only [himport, true_and]

theorem keysDelete_psa (id : KeyId) (psa : Psa) :
    (keysDelete id psa).2 = Function.update psa id none := by
  unfold keysDelete
  split
  · next h => rw [← h, Function.update_eq_self]
  · rfl

theorem recordSet_secure {build : Build} {kv : Kv} {group key : UInt16} {data : Mem} {len : Nat}
    {id : KeyId} (hid : storage2keyId build group key = some id) (hlen : len ≠ 0)
    (hhandle : isHandle build data len = false) :
    recordSet build kv group key data len =
      if build.accepts id (data.slice 0 len) then
        (errorNone, { kv with psa := Function.update kv.psa id (some (data.slice 0 len)) })
      else (errorStorageWriteFail, { kv with psa := Function.update kv.psa id none }) := by
  unfold recordSet
  rw [if_neg hlen, hid]
  simp only [newImport_faultless hlen hhandle]
  split
  · rfl
  · rfl

theorem recordSet_plain {build : Build} {kv : Kv} {group key : UInt16} {data : Mem} {len : Nat}
    (hid : storage2keyId build group key = none) (hlen : len ≠ 0) :
    recordSet build kv group key data len =
      (errorNone, { kv with
        settings := kv.settings.saveOne (settingsSerializeGroupKey group key)
          (data.slice 0 len) }) := by
  unfold recordSet
  rw [if_neg hlen, hid]

theorem recordDelete_secure {build : Build} {kv : Kv} {group key : UInt16} {id : KeyId}
    (hid : storage2keyId build group key = some id) :
    (recordDelete build kv group key).2 = { kv with psa := Function.update kv.psa id none } := by
  unfold recordDelete
  rw [hid]
  simp only [keysDelete_psa]

theorem recordDelete_plain {build : Build} {kv : Kv} {group key : UInt16}
    (hid : storage2keyId build group key = none) :
    (recordDelete build kv group key).2 =
      { kv with settings := kv.settings.delete (settingsSerializeGroupKey group key) } := by
  unfold recordDelete
  rw [hid]

/-- A group deletion takes the records of its group out of the settings, and no other one. -/
theorem lookup_groupDelete (build : Build) (kv : Kv) (group group' key' : UInt16) :
    (groupDelete build kv group).2.settings.lookup (settingsSerializeGroupKey group' key') =
      if group = group' then none
      else kv.settings.lookup (settingsSerializeGroupKey group' key') := by
  unfold groupDelete deleteSubtreeCb
  simp only
  rw [Settings.lookup_foldl_delete]
  by_cases hgroup : group = group'
  · subst hgroup
    rw [if_pos rfl]
    split
    · rfl
    · next hnone =>
      refine Settings.lookup_eq_none fun entry hentry hname => hnone ?_
      have hprefix : (settingsSerializeGroup group ++ ['/']).isPrefixOf entry.1 = true := by
        rw [hname, List.isPrefixOf_iff_prefix, settingsSerializeGroupKey_eq, ← List.append_assoc]
        exact List.prefix_append ..
      have hne : entry.1 ≠ settingsSerializeGroup group := by
        intro heq
        have := congrArg List.length (hname.symm.trans heq)
        rw [length_settingsSerializeGroup, settingsSerializeGroupKey_eq] at this
        simp only [List.length_append, length_settingsSerializeGroup, List.length_cons] at this
        omega
      refine ⟨(hex4 key', entry.2), List.mem_filterMap.2 ⟨entry, hentry, ?_⟩, rfl⟩
      unfold Settings.relative
      rw [if_neg hne, if_pos hprefix, hname]
      rfl
  · rw [if_neg hgroup, if_neg]
    rintro ⟨entry, _, hname⟩
    exact hgroup (group_of_snprintf hname)

theorem psa_groupDelete {build : Build} {kv : Kv} {group group' key' : UInt16} {id : KeyId}
    (hid : storage2keyId build group' key' = some id) :
    (groupDelete build kv group).2.psa id = if group = group' then none else kv.psa id := by
  obtain ⟨hsecure, hgroup', hwhich⟩ := storage2keyId_group hid
  unfold groupDelete
  simp only [keysDelete_psa]
  by_cases hgroup : group = group'
  · rw [if_pos ⟨hsecure, hgroup.trans hgroup'⟩, if_pos hgroup]
    rcases hwhich with rfl | rfl | rfl
    · rfl
    · rfl
    · rfl
  · rw [if_neg fun h => hgroup (h.2.trans hgroup'.symm), if_neg hgroup]

/-! ## The invariant of the runs -/

/-- Each record has its value in one of the two stores, and in that one only. -/
structure Tracks (build : Build) (kv : Kv) (value : UInt16 → UInt16 → Option (List UInt8)) :
    Prop where
  names : ∀ entry ∈ kv.settings, "sidewalk/storage/".toList <+: entry.1 → entry.1.length = 26
  secure : ∀ {group key id}, storage2keyId build group key = some id → kv.psa id = value group key
  shadow : ∀ {group key id}, storage2keyId build group key = some id →
    kv.settings.lookup (settingsSerializeGroupKey group key) = none
  plain : ∀ {group key}, storage2keyId build group key = none →
    kv.settings.lookup (settingsSerializeGroupKey group key) = value group key
  nonempty : ∀ group key, value group key ≠ some []

theorem tracks_fresh {build : Build} {kv : Kv} (h : Fresh kv) :
    Tracks build kv fun _ _ => none := by
  have hlookup : ∀ group key,
      kv.settings.lookup (settingsSerializeGroupKey group key) = none := by
    refine fun group key => Settings.lookup_eq_none fun entry hentry hname => h.1 entry hentry ?_
    rw [hname, settingsSerializeGroupKey_eq, settingsSerializeGroup_eq, List.append_assoc]
    exact List.prefix_append ..
  refine ⟨fun entry hentry hprefix => absurd hprefix (h.1 entry hentry), fun _ => h.2 _,
    fun _ => hlookup _ _, fun _ => hlookup _ _, fun _ _ => nofun⟩

section Step

variable {build : Build} {kv : Kv} {value : UInt16 → UInt16 → Option (List UInt8)}

/-- The value of one record changes to `new`. -/
def setValue (value : UInt16 → UInt16 → Option (List UInt8)) (group key : UInt16)
    (new : Option (List UInt8)) : UInt16 → UInt16 → Option (List UInt8) :=
  fun group' key' => if group = group' ∧ key = key' then new else value group' key'

theorem tracks_secure (h : Tracks build kv value) {group key : UInt16} {id : KeyId}
    (hid : storage2keyId build group key = some id) {new : Option (List UInt8)}
    (hnew : new ≠ some []) :
    Tracks build { kv with psa := Function.update kv.psa id new }
      (setValue value group key new) := by
  unfold setValue
  refine ⟨h.names, fun {group' key' id'} hid' => ?_, h.shadow, fun {group' key'} hid' => ?_,
    fun group' key' => ?_⟩
  · by_cases hsame : group = group' ∧ key = key'
    · obtain ⟨rfl, rfl⟩ := hsame
      rw [if_pos ⟨rfl, rfl⟩]
      cases hid.symm.trans hid'
      exact Function.update_self ..
    · rw [if_neg hsame]
      have hne : id' ≠ id := by
        rintro rfl
        exact hsame (storage2keyId_injective hid hid')
      exact (Function.update_of_ne hne ..).trans (h.secure hid')
  · rw [if_neg]
    · exact h.plain hid'
    · rintro ⟨rfl, rfl⟩
      cases hid.symm.trans hid'
  · split
    · exact hnew
    · exact h.nonempty group' key'

theorem tracks_plain (h : Tracks build kv value) {group key : UInt16}
    (hid : storage2keyId build group key = none) {new : Option (List UInt8)}
    (hnew : new ≠ some []) {settings : Settings}
    (hnames : ∀ entry ∈ settings, entry ∈ kv.settings ∨
      entry.1 = settingsSerializeGroupKey group key)
    (hlookup : ∀ name, settings.lookup name =
      if settingsSerializeGroupKey group key = name then new else kv.settings.lookup name) :
    Tracks build { kv with settings := settings } (setValue value group key new) := by
  unfold setValue
  have hother : ∀ {group' key'}, ¬(group = group' ∧ key = key') →
      settings.lookup (settingsSerializeGroupKey group' key') =
        kv.settings.lookup (settingsSerializeGroupKey group' key') := by
    intro group' key' hne
    rw [hlookup, if_neg fun heq => hne (settingsSerializeGroupKey_injective heq)]
  refine ⟨fun entry hentry hprefix => ?_, fun {group' key' id'} hid' => ?_,
    fun {group' key' id'} hid' => ?_, fun {group' key'} hid' => ?_, fun group' key' => ?_⟩
  · rcases hnames entry hentry with hold | hname
    · exact h.names entry hold hprefix
    · rw [hname]
      rfl
  · rw [if_neg]
    · exact h.secure hid'
    · rintro ⟨rfl, rfl⟩
      cases hid.symm.trans hid'
  · refine (hother ?_).trans (h.shadow hid')
    rintro ⟨rfl, rfl⟩
    cases hid.symm.trans hid'
  · by_cases hsame : group = group' ∧ key = key'
    · obtain ⟨rfl, rfl⟩ := hsame
      rw [if_pos ⟨rfl, rfl⟩]
      exact (hlookup _).trans (if_pos rfl)
    · rw [if_neg hsame]
      exact (hother hsame).trans (h.plain hid')
  · split
    · exact hnew
    · exact h.nonempty group' key'

theorem slice_nonempty (data : Mem) {len : Nat} (hlen : len ≠ 0) :
    some (data.slice 0 len) ≠ some [] := by
  intro heq
  have := congrArg List.length (Option.some.inj heq)
  rw [Mem.length_slice] at this
  exact hlen this

/-- A record outside the secure storage takes any data. -/
theorem tracks_recordSet_plain (h : Tracks build kv value) {group key : UInt16}
    (hid : storage2keyId build group key = none) (data : Mem) {len : Nat} (hlen : len ≠ 0) :
    Tracks build (recordSet build kv group key data len).2
      (setValue value group key (some (data.slice 0 len))) := by
  rw [recordSet_plain hid hlen]
  refine tracks_plain h hid (slice_nonempty data hlen) (fun entry hentry => ?_) fun name =>
    Settings.lookup_saveOne ..
  rcases List.mem_cons.1 hentry with rfl | hold
  · exact .inr rfl
  · exact .inl (List.mem_of_mem_filter hold)

theorem tracks_recordSet (h : Tracks build kv value) (group key : UInt16) {data : Mem} {len : Nat}
    (hlen : len ≠ 0) (hhandle : isHandle build data len = false) :
    Tracks build (recordSet build kv group key data len).2
      (setValue value group key
        (if (recordSet build kv group key data len).1 = errorNone then some (data.slice 0 len)
          else none)) := by
  have hnone : (none : Option (List UInt8)) ≠ some [] := nofun
  cases hid : storage2keyId build group key with
  | some id =>
    rw [recordSet_secure hid hlen hhandle]
    split
    · rw [if_pos rfl]
      exact tracks_secure h hid (slice_nonempty data hlen)
    · rw [if_neg (show errorStorageWriteFail ≠ errorNone by decide)]
      exact tracks_secure h hid hnone
  | none =>
    have hdone : (recordSet build kv group key data len).1 = errorNone := by
      rw [recordSet_plain hid hlen]
    rw [if_pos hdone]
    exact tracks_recordSet_plain h hid data hlen

theorem tracks_recordDelete (h : Tracks build kv value) (group key : UInt16) :
    Tracks build (recordDelete build kv group key).2 (setValue value group key none) := by
  have hnone : (none : Option (List UInt8)) ≠ some [] := nofun
  cases hid : storage2keyId build group key with
  | some id =>
    rw [recordDelete_secure hid]
    exact tracks_secure h hid hnone
  | none =>
    rw [recordDelete_plain hid]
    refine tracks_plain h hid hnone (fun entry hentry => .inl (List.mem_of_mem_filter hentry))
      fun name => ?_
    rw [Settings.lookup_delete]
    by_cases hname : name = settingsSerializeGroupKey group key
    · rw [if_pos hname, if_pos hname.symm]
    · rw [if_neg hname, if_neg fun heq => hname heq.symm]

theorem tracks_groupDelete (h : Tracks build kv value) (group : UInt16) :
    Tracks build (groupDelete build kv group).2
      fun group' key' => if group = group' then none else value group' key' := by
  refine ⟨fun entry hentry => h.names entry (Settings.mem_foldl_delete hentry),
    fun {group' key' id'} hid' => ?_, fun {group' key' id'} hid' => ?_,
    fun {group' key'} hid' => ?_, fun group' key' => ?_⟩
  · rw [psa_groupDelete hid', h.secure hid']
  · rw [lookup_groupDelete, h.shadow hid']
    exact ite_self _
  · rw [lookup_groupDelete, h.plain hid']
  · split
    · exact nofun
    · exact h.nonempty group' key'

end Step

/-- The store stands for the map of the last sets. -/
theorem tracks_run {build : Build} {init : Kv} (hfresh : Fresh init) {calls : List Call}
    (hhandles : NoHandles build calls) :
    Tracks build (run build init calls)
      fun group key => lastSet build init group key calls := by
  induction calls with
  | nil => exact tracks_fresh hfresh
  | cons call calls ih =>
    have ih := ih fun group key data len hmem =>
      hhandles group key data len (List.mem_cons_of_mem _ hmem)
    cases call with
    | set group key data len =>
      by_cases hlen : len = 0
      · unfold run step recordSet lastSet
        simp only [hlen, ne_eq, not_true_eq_false, and_false, if_false, if_true]
        exact ih
      · have hstep := tracks_recordSet ih group key hlen
          (hhandles group key data len List.mem_cons_self)
        unfold setValue at hstep
        unfold run step lastSet
        convert hstep using 3 with group' key'
        simp only [ne_eq, hlen, not_false_eq_true, and_true]
        by_cases hsame : group = group' ∧ key = key'
        · obtain ⟨rfl, rfl⟩ := hsame
          rfl
        · rw [if_neg hsame, if_neg hsame]
    | get group key len => exact ih
    | getLen group key => exact ih
    | delete group key => exact tracks_recordDelete ih group key
    | groupDelete group => exact tracks_groupDelete ih group

/-! ## Answers -/

/-- `record_get` answers as a map with that value does; the buffer of a secure key gets the handle
and not the key. -/
def GetAgrees (build : Build) (kv : Kv) (group key : UInt16) (len : Nat)
    (value : Option (List UInt8)) : Prop :=
  ((recordGet build kv group key len).1 = errorNone ↔ value.isSome = true) ∧
    ∀ bytes, value = some bytes → (recordGet build kv group key len).2 =
      some ((storage2keyId build group key).elim (bytes.take len) fun id => handle build id len)

/-- `record_get_len` answers as a map with that value does. -/
def GetLenAgrees (kv : Kv) (group key : UInt16) (value : Option (List UInt8)) : Prop :=
  ((recordGetLen kv group key).1 = errorNone ↔ value.isSome = true) ∧
    ∀ bytes, value = some bytes → (recordGetLen kv group key).2 = bytes.length

theorem loadImmediateValue_eq {s : Settings} {name : Name} (len : Nat)
    (h : ∀ entry ∈ s, entry.1 ≠ name ++ ['/']) :
    loadImmediateValue s name len =
      (s.lookup name).elim (enoent, none)
        fun bytes => (((bytes.take len).length : Int), some (bytes.take len)) := by
  have hfind := Settings.find_subtree h
  unfold loadImmediateValue
  split
  · next entry hentry =>
    rw [hentry] at hfind
    rw [← hfind]
    rfl
  · next hentry =>
    rw [hentry] at hfind
    rw [← hfind]
    rfl

theorem getValueSize_eq {s : Settings} {name : Name} (h : ∀ entry ∈ s, entry.1 ≠ name ++ ['/']) :
    getValueSize s name = (s.lookup name).elim 0 List.length := by
  have hfind := Settings.find_subtree h
  unfold getValueSize
  rw [← hfind]
  cases (s.subtree name).find? (·.1 = []) with
  | none => rfl
  | some entry => rfl

section Answers

variable {build : Build} {kv : Kv} {value : UInt16 → UInt16 → Option (List UInt8)}

theorem Tracks.no_slash (h : Tracks build kv value) (group key : UInt16) :
    ∀ entry ∈ kv.settings, entry.1 ≠ settingsSerializeGroupKey group key ++ ['/'] := by
  intro entry hentry hname
  have hprefix : "sidewalk/storage/".toList <+: entry.1 := by
    rw [hname, settingsSerializeGroupKey_eq, settingsSerializeGroup_eq, List.append_assoc,
      List.append_assoc]
    exact List.prefix_append ..
  have hlength := h.names entry hentry hprefix
  rw [hname] at hlength
  have : (settingsSerializeGroupKey group key ++ ['/']).length = 27 := rfl
  omega

/-- What a record outside the secure storage reads as. -/
theorem recordGet_plain (h : Tracks build kv value) {group key : UInt16}
    (hid : storage2keyId build group key = none) (len : Nat) :
    (recordGet build kv group key len).2 = (value group key).map (List.take len) := by
  have hload := loadImmediateValue_eq len (h.no_slash group key)
  rw [h.plain hid] at hload
  unfold recordGet
  simp only [hid, hload]
  cases value group key with
  | none => rfl
  | some bytes => rfl

theorem getAgrees_secure (h : Tracks build kv value) {group key : UInt16} {id : KeyId} (len : Nat)
    (hid : storage2keyId build group key = some id) :
    GetAgrees build kv group key len (value group key) ↔ value group key = none ∨ 4 ≤ len := by
  have hpsa := h.secure hid
  have hfail : errorStorageReadFail ≠ errorNone := by decide
  unfold GetAgrees recordGet bufferSet
  simp only [hid, hpsa]
  cases hvalue : value group key with
  | none =>
    refine iff_of_true ⟨iff_of_false ?_ (by simp), nofun⟩ (.inl rfl)
    split
    · exact hfail
    · exact hfail
  | some bytes =>
    by_cases hlen : len < 4
    · rw [if_pos hlen]
      refine iff_of_false (fun hagrees => hfail ?_) (by simp; omega)
      exact hagrees.1.2 rfl
    · rw [if_neg hlen]
      exact iff_of_true ⟨iff_of_true rfl rfl, fun _ _ => rfl⟩ (.inr (Nat.le_of_not_lt hlen))

theorem getAgrees_plain (h : Tracks build kv value) {group key : UInt16} (len : Nat)
    (hid : storage2keyId build group key = none) :
    GetAgrees build kv group key len (value group key) ↔ value group key = none ∨ len ≠ 0 := by
  have hload := loadImmediateValue_eq len (h.no_slash group key)
  rw [h.plain hid] at hload
  have hnotFound : errorNotFound ≠ errorNone := by decide
  have hnonempty := h.nonempty group key
  unfold GetAgrees recordGet
  simp only [hid, hload]
  cases hvalue : value group key with
  | none => exact iff_of_true ⟨iff_of_false hnotFound (by simp), nofun⟩ (.inl rfl)
  | some bytes =>
    rw [hvalue] at hnonempty
    have hbytes : 0 < bytes.length := by
      refine List.length_pos_iff.2 fun hnil => hnonempty ?_
      rw [hnil]
    simp only [Option.elim_some, List.length_take]
    by_cases hlen : len = 0
    · refine iff_of_false (fun hagrees => hnotFound ?_) (by simp [hlen])
      have := hagrees.1.2 rfl
      rwa [if_pos (by omega)] at this
    · refine iff_of_true ⟨iff_of_true (if_neg (by omega)) rfl, ?_⟩ (.inr hlen)
      rintro _ ⟨⟩
      rfl

/-- The length of a secure key is looked for in the settings, where it never is. -/
theorem getLenAgrees_iff (h : Tracks build kv value) (group key : UInt16) :
    GetLenAgrees kv group key (value group key) ↔
      value group key = none ∨ storage2keyId build group key = none := by
  have hsize := getValueSize_eq (h.no_slash group key)
  have hnonempty := h.nonempty group key
  have hnotFound : errorNotFound ≠ errorNone := by decide
  unfold GetLenAgrees recordGetLen
  simp only [hsize]
  cases hid : storage2keyId build group key with
  | some id =>
    rw [h.shadow hid]
    cases hvalue : value group key with
    | none => exact iff_of_true ⟨iff_of_false hnotFound (by simp), nofun⟩ (.inl rfl)
    | some bytes => exact iff_of_false (fun hagrees => hnotFound (hagrees.1.2 rfl)) (by simp)
  | none =>
    rw [h.plain hid]
    cases hvalue : value group key with
    | none => exact iff_of_true ⟨iff_of_false hnotFound (by simp), nofun⟩ (.inl rfl)
    | some bytes =>
      rw [hvalue] at hnonempty
      have hbytes : ¬bytes.length = 0 := by
        intro hzero
        rw [List.eq_nil_of_length_eq_zero hzero] at hnonempty
        exact hnonempty rfl
      refine iff_of_true ⟨iff_of_true (if_neg hbytes) rfl, ?_⟩ (.inr rfl)
      rintro _ ⟨⟩
      rfl

end Answers

/-- After any calls the store answers as the map of the last sets does, for a record that is not
set, and for a record in the settings that is read into some buffer. A secure key that is set is
read as its handle, but has no length. -/
theorem kv_refines_iff (build : Build) (init : Kv) (calls : List Call) (hfresh : Fresh init)
    (hhandles : NoHandles build calls) (group key : UInt16) (len : Nat) :
    (GetAgrees build (run build init calls) group key len
          (lastSet build init group key calls) ∧
        GetLenAgrees (run build init calls) group key (lastSet build init group key calls) ↔
      lastSet build init group key calls = none ∨
        storage2keyId build group key = none ∧ len ≠ 0) ∧
    (GetAgrees build (run build init calls) group key len
        (lastSet build init group key calls) ↔
      lastSet build init group key calls = none ∨
        if storage2keyId build group key = none then len ≠ 0 else 4 ≤ len) := by
  have h := tracks_run hfresh hhandles
  have hlen := getLenAgrees_iff h group key
  cases hid : storage2keyId build group key with
  | some id =>
    have hget := getAgrees_secure h len hid
    rw [hid] at hlen
    rw [hget, hlen, if_neg nofun]
    refine ⟨⟨fun hboth => ?_, fun hor => ?_⟩, Iff.rfl⟩
    · rcases hboth.2 with hnone | hsome
      · exact .inl hnone
      · cases hsome
    · rcases hor with hnone | hplain
      · exact ⟨.inl hnone, .inl hnone⟩
      · cases hplain.1
  | none =>
    have hget := getAgrees_plain h len hid
    rw [hid] at hlen
    rw [hget, hlen, if_pos rfl]
    refine ⟨⟨fun hboth => ?_, fun hor => ?_⟩, Iff.rfl⟩
    · rcases hboth.1 with hnone | hlen
      · exact .inl hnone
      · exact .inr ⟨rfl, hlen⟩
    · rcases hor with hnone | hplain
      · exact ⟨.inl hnone, .inl hnone⟩
      · exact ⟨.inr hplain.2, .inr rfl⟩

/-! ## A master key -/

/-- The ids of the keys where they are not in the slots of a KMU. -/
def userKeys : KeyId → UInt32
  | .mfgEd25519Priv => 1
  | .mfgSecp256r1Priv => 2
  | .kvWanMaster => 3
  | .kvAppKey => 4
  | .kvD2d => 5

def keySize : KeyId → Nat
  | .mfgEd25519Priv | .mfgSecp256r1Priv => 32
  | .kvWanMaster | .kvAppKey | .kvD2d => 16

/-- Keys of the right size are in secure storage. -/
def psaBuild : Build := ⟨true, userKeys, fun id bytes => bytes.length = keySize id⟩

def emptyKv : Kv := ⟨[], fun _ => none⟩

theorem emptyKv_fresh : Fresh emptyKv := ⟨fun _ hmem => (nomatch hmem), fun _ => rfl⟩

/-- A WAN master key and a record of another group. -/
def setCalls : List Call := [.set 1 2 (fun _ => 0xa5) 8, .set 0 28 (fun _ => 0xa5) 16]

theorem setCalls_noHandles : NoHandles psaBuild setCalls := by
  intro group key data len hmem
  rcases List.mem_cons.1 hmem with heq | hmem
  · cases heq
    decide
  · cases List.mem_singleton.1 hmem
    decide

theorem kv_refines_setCalls :
    (GetAgrees psaBuild (run psaBuild emptyKv setCalls) 1 2 8
          (lastSet psaBuild emptyKv 1 2 setCalls) ∧
        GetLenAgrees (run psaBuild emptyKv setCalls) 1 2 (lastSet psaBuild emptyKv 1 2 setCalls)) ∧
      GetAgrees psaBuild (run psaBuild emptyKv setCalls) 0 28 16
        (lastSet psaBuild emptyKv 0 28 setCalls) :=
  ⟨(kv_refines_iff psaBuild emptyKv setCalls emptyKv_fresh setCalls_noHandles 1 2 8).1.2
      (.inr ⟨by decide, by decide⟩),
    (kv_refines_iff psaBuild emptyKv setCalls emptyKv_fresh setCalls_noHandles 0 28 16).2.2
      (.inr (by decide))⟩

/-- The master key is stored, and read as its handle, but asked for its length the store does not
find it. -/
theorem masterKey_without_length :
    Fresh emptyKv ∧ NoHandles psaBuild setCalls ∧
      lastSet psaBuild emptyKv 0 28 setCalls = some (List.replicate 16 0xa5) ∧
      recordGet psaBuild (run psaBuild emptyKv setCalls) 0 28 16 =
        (errorNone, some (handle psaBuild .kvWanMaster 16)) ∧
      recordGetLen (run psaBuild emptyKv setCalls) 0 28 = (errorNotFound, 0) := by
  refine ⟨emptyKv_fresh, setCalls_noHandles, by decide, ?_, by decide⟩
  unfold recordGet
  rfl

end Sidewalk.Storage
