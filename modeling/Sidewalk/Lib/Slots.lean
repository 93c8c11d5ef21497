import Mathlib

/-!
# Tables of slots

A scan of a table of a fixed number of slots finds one with a property, or none has it. A table
whose slots are free or hold a value under a key stands for a partial map when it holds the map's
pairs and no key twice. Filling a free slot, replacing a value and freeing a slot are the updates of
the map, and two tables of one size with the same keys are full together.
-/

namespace Sidewalk.Lib

variable {n : Nat} {κ β γ : Type*}

/-- A scan over the slots. -/
theorem find_slot (p : Fin n → Prop) [DecidablePred p] :
    ((∀ i, ¬ p i) ∧ (List.finRange n).find? (fun i => decide (p i)) = none) ∨
    ∃ i, p i ∧ (List.finRange n).find? (fun i => decide (p i)) = some i := by
  cases hfind : (List.finRange n).find? fun i => decide (p i) with
  | none =>
    refine .inl ⟨fun i => ?_, rfl⟩
    simpa using List.find?_eq_none.1 hfind i (List.mem_finRange i)
  | some i => exact .inr ⟨i, by simpa using List.find?_some hfind, rfl⟩

/-- The slots hold the pairs of the map, each key once. -/
structure Represents (table : Fin n → Option (κ × β)) (m : κ → Option β) : Prop where
  lookup : ∀ k b, m k = some b ↔ ∃ i, table i = some (k, b)
  unique : ∀ i j k b b', table i = some (k, b) → table j = some (k, b') → i = j

namespace Represents

variable {table : Fin n → Option (κ × β)} {m : κ → Option β}

theorem empty : Represents (fun _ : Fin n => (none : Option (κ × β))) fun _ => none where
  lookup k b := by simp
  unique i j k b b' hi := nomatch hi

theorem of_slot (h : Represents table m) {i : Fin n} {k : κ} {b : β}
    (hi : table i = some (k, b)) : m k = some b :=
  (h.lookup k b).2 ⟨i, hi⟩

/-- A key that the map does not have stands in no slot. -/
theorem ne_of_none (h : Represents table m) {k : κ} (hk : m k = none) {i : Fin n} {b : β} :
    table i ≠ some (k, b) := by
  intro hi
  rw [h.of_slot hi] at hk
  cases hk

variable [DecidableEq κ]

/-- A free slot is filled under a key that is not in the table. -/
theorem insert (h : Represents table m) {i : Fin n} {k : κ} (hi : table i = none)
    (hk : m k = none) (b : β) :
    Represents (Function.update table i (some (k, b))) (Function.update m k (some b)) where
  lookup k' b' := by
    by_cases hkey : k' = k
    · subst hkey
      rw [Function.update_self]
      constructor
      · intro heq
        obtain rfl := Option.some.inj heq
        exact ⟨i, Function.update_self ..⟩
      · rintro ⟨j, hj⟩
        by_cases hij : j = i
        · subst hij
          rw [Function.update_self] at hj
          cases hj
          rfl
        · rw [Function.update_of_ne hij] at hj
          exact absurd hj (h.ne_of_none hk)
    · rw [Function.update_of_ne hkey, h.lookup]
      constructor
      · rintro ⟨j, hj⟩
        have hij : j ≠ i := by
          rintro rfl
          rw [hi] at hj
          cases hj
        exact ⟨j, by rw [Function.update_of_ne hij, hj]⟩
      · rintro ⟨j, hj⟩
        by_cases hij : j = i
        · subst hij
          rw [Function.update_self] at hj
          cases hj
          exact absurd rfl hkey
        · rw [Function.update_of_ne hij] at hj
          exact ⟨j, hj⟩
  unique j j' k' b₁ b₂ hj hj' := by
    by_cases hij : j = i <;> by_cases hij' : j' = i
    · rw [hij, hij']
    · subst hij
      rw [Function.update_self] at hj
      rw [Function.update_of_ne hij'] at hj'
      cases hj
      exact absurd hj' (h.ne_of_none hk)
    · subst hij'
      rw [Function.update_of_ne hij] at hj
      rw [Function.update_self] at hj'
      cases hj'
      exact absurd hj (h.ne_of_none hk)
    · rw [Function.update_of_ne hij] at hj
      rw [Function.update_of_ne hij'] at hj'
      exact h.unique j j' k' b₁ b₂ hj hj'

/-- The slot of a key is freed. -/
theorem erase (h : Represents table m) {i : Fin n} {k : κ} {b : β} (hi : table i = some (k, b)) :
    Represents (Function.update table i none) (Function.update m k none) where
  lookup k' b' := by
    have hother : ∀ j, Function.update table i none j = some (k', b') ↔
        j ≠ i ∧ table j = some (k', b') := by
      intro j
      by_cases hij : j = i
      · simp [hij]
      · simp [hij]
    simp only [hother]
    by_cases hkey : k' = k
    · subst hkey
      rw [Function.update_self]
      refine iff_of_false nofun ?_
      rintro ⟨j, hij, hj⟩
      exact hij (h.unique j i k' b' b hj hi)
    · rw [Function.update_of_ne hkey, h.lookup]
      refine exists_congr fun j => ⟨fun hj => ⟨?_, hj⟩, And.right⟩
      rintro rfl
      rw [hi] at hj
      cases hj
      exact hkey rfl
  unique j j' k' b₁ b₂ hj hj' := by
    have hne : ∀ {j b}, Function.update table i none j = some (k', b) →
        table j = some (k', b) := by
      intro j b hj
      by_cases hij : j = i
      · rw [hij, Function.update_self] at hj
        cases hj
      · rwa [Function.update_of_ne hij] at hj
    exact h.unique j j' k' b₁ b₂ (hne hj) (hne hj')

/-- The value in a slot is replaced. -/
theorem replace (h : Represents table m) {i : Fin n} {k : κ} {b : β} (hi : table i = some (k, b))
    (b' : β) :
    Represents (Function.update table i (some (k, b'))) (Function.update m k (some b')) := by
  have hinsert := (h.erase hi).insert (i := i) (k := k) (Function.update_self ..)
    (Function.update_self ..) b'
  rwa [Function.update_idem, Function.update_idem] at hinsert

omit [DecidableEq κ]

/-- A table without a free slot holds as many keys as any other of its size can. -/
theorem full_of_full {other : Fin n → Option (κ × γ)} {m' : κ → Option γ} (h : Represents table m)
    (h' : Represents other m') (hkeys : ∀ k, (m k).isSome → (m' k).isSome)
    (hfull : ∀ i, table i ≠ none) : ∀ j, other j ≠ none := by
  -- every slot of the one has its key in a slot of the other
  have hslot : ∀ i, ∃ j, ∃ k b c, table i = some (k, b) ∧ other j = some (k, c) := by
    intro i
    obtain ⟨⟨k, b⟩, hi⟩ := Option.ne_none_iff_exists'.1 (hfull i)
    obtain ⟨c, hc⟩ := Option.isSome_iff_exists.1 (hkeys k (by rw [h.of_slot hi]; rfl))
    obtain ⟨j, hj⟩ := (h'.lookup k c).1 hc
    exact ⟨j, k, b, c, hi, hj⟩
  choose slot key value value' htable hother using hslot
  have hinjective : Function.Injective slot := by
    intro i i' heq
    have hsame := hother i'
    rw [← heq, hother i] at hsame
    have hkey : key i = key i' := congrArg Prod.fst (Option.some.inj hsame)
    exact h.unique i i' (key i) (value i) (value i') (htable i) (hkey ▸ htable i')
  intro j
  obtain ⟨i, rfl⟩ := Finite.injective_iff_surjective.1 hinjective j
  rw [hother i]
  nofun

end Represents

end Sidewalk.Lib
