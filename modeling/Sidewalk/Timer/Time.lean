import Sidewalk.Timer.Basic

/-!
# Time arithmetic

The functions of `sid_time_ops.h` that add and subtract. The fields of a `struct sid_timespec` are
of 32 bits, on which a sum wraps (`wrappingTime`); where nothing wraps it is that of the
nanoseconds (`exactTime`).
-/

namespace Sidewalk.Timer

/-! ## Arithmetic -/

/-- The functions of `sid_time_ops.h` that compute. -/
structure SidTimeOps where
  add : SidTimespec → SidTimespec → SidTimespec
  sub : SidTimespec → SidTimespec → SidTimespec

/-- The arithmetic of numbers that do not wrap. -/
def exactTime : SidTimeOps where
  add := sidTimeAdd
  sub := sidTimeSub

/-- How many values a `uint32_t` has. -/
def uint32Size : Nat := 4294967296

def sidTimeNormalize32 (time : SidTimespec) : SidTimespec where
  tvSec := (time.tvSec + time.tvNsec / nsecPerSec) % uint32Size
  tvNsec := time.tvNsec % nsecPerSec

def sidTimeAdd32 (time₁ time₂ : SidTimespec) : SidTimespec :=
  sidTimeNormalize32 ⟨(time₁.tvSec + time₂.tvSec) % uint32Size,
    (time₁.tvNsec + time₂.tvNsec) % uint32Size⟩

def sidTimeSub32 (time₁ time₂ : SidTimespec) : SidTimespec :=
  let time₂ := sidTimeNormalize32 time₂
  let time₁ : SidTimespec :=
    if time₁.tvNsec < time₂.tvNsec then
      ⟨(time₁.tvSec + uint32Size - 1) % uint32Size, (time₁.tvNsec + nsecPerSec) % uint32Size⟩
    else time₁
  sidTimeNormalize32 ⟨(time₁.tvSec + uint32Size - time₂.tvSec) % uint32Size,
    (time₁.tvNsec + uint32Size - time₂.tvNsec) % uint32Size⟩

/-- The arithmetic of fields of 32 bits. -/
def wrappingTime : SidTimeOps where
  add := sidTimeAdd32
  sub := sidTimeSub32

/-! ## Nanoseconds -/

namespace SidTimespec

def ns (time : SidTimespec) : Nat := time.tvSec * nsecPerSec + time.tvNsec

/-- The nanoseconds are less than a second. -/
def Normal (time : SidTimespec) : Prop := time.tvNsec < nsecPerSec

/-- The time has fields of 32 bits also once it is normalised. -/
def Fits (time : SidTimespec) : Prop :=
  time.tvSec + time.tvNsec / nsecPerSec < uint32Size ∧ time.tvNsec < uint32Size

instance (time : SidTimespec) : Decidable time.Fits := by
  unfold Fits
  infer_instance

end SidTimespec

theorem sidTimespec_le_iff {a b : SidTimespec} :
    a ≤ b ↔ a.tvSec < b.tvSec ∨ a.tvSec = b.tvSec ∧ a.tvNsec ≤ b.tvNsec :=
  Prod.Lex.toLex_le_toLex

/-- The order of the fields is that of the nanoseconds from a time that is normalised on. -/
theorem ns_le_of_le {a b : SidTimespec} (ha : a.Normal) (h : a ≤ b) : a.ns ≤ b.ns := by
  unfold SidTimespec.Normal at ha
  unfold SidTimespec.ns
  rcases sidTimespec_le_iff.mp h with hlt | ⟨heq, hle⟩
  · have hmul : (a.tvSec + 1) * nsecPerSec ≤ b.tvSec * nsecPerSec := Nat.mul_le_mul_right _ hlt
    rw [Nat.add_mul, Nat.one_mul] at hmul
    omega
  · rw [heq]
    omega

theorem ns_lt_of_lt {a b : SidTimespec} (ha : a.Normal) (h : a < b) : a.ns < b.ns := by
  refine lt_of_le_of_ne (ns_le_of_le ha h.le) ?_
  intro heq
  unfold SidTimespec.Normal at ha
  unfold SidTimespec.ns at heq
  rcases sidTimespec_le_iff.mp h.le with hsec | ⟨hsec, -⟩
  · have hmul := Nat.mul_le_mul_right nsecPerSec hsec
    rw [Nat.succ_mul] at hmul
    omega
  · rw [hsec] at heq
    obtain ⟨sec, nsec⟩ := a
    obtain ⟨sec', nsec'⟩ := b
    refine h.ne ?_
    simp only at hsec heq
    rw [hsec, Nat.add_left_cancel heq]

theorem sidTimeNormalize_normal (time : SidTimespec) : (sidTimeNormalize time).Normal :=
  Nat.mod_lt _ (by decide)

theorem sidTimeAdd_normal (a b : SidTimespec) : (sidTimeAdd a b).Normal :=
  sidTimeNormalize_normal _

theorem sidTimeSub_normal (a b : SidTimespec) : (sidTimeSub a b).Normal :=
  sidTimeNormalize_normal _

theorem ns_sidTimeNormalize (time : SidTimespec) : (sidTimeNormalize time).ns = time.ns := by
  have hdiv := Nat.div_add_mod time.tvNsec nsecPerSec
  unfold sidTimeNormalize SidTimespec.ns
  simp only
  rw [Nat.add_mul, Nat.mul_comm (time.tvNsec / nsecPerSec)]
  omega

theorem ns_sidTimeAdd (a b : SidTimespec) : (sidTimeAdd a b).ns = a.ns + b.ns := by
  unfold sidTimeAdd
  rw [ns_sidTimeNormalize]
  unfold SidTimespec.ns
  simp only
  rw [Nat.add_mul]
  omega

theorem sidTimeNormalize_of_normal {time : SidTimespec} (h : time.Normal) :
    sidTimeNormalize time = time := by
  unfold sidTimeNormalize
  rw [Nat.div_eq_of_lt h, Nat.mod_eq_of_lt h]
  rfl

theorem ns_sidTimeSub {a b : SidTimespec} (hb : b.Normal) (h : b ≤ a) :
    (sidTimeSub a b).ns = a.ns - b.ns := by
  unfold sidTimeSub
  rw [sidTimeNormalize_of_normal hb, ns_sidTimeNormalize]
  unfold SidTimespec.ns
  rcases sidTimespec_le_iff.mp h with hlt | ⟨heq, hle⟩
  · obtain ⟨d, hd⟩ := Nat.exists_eq_add_of_lt hlt
    have hmul : a.tvSec * nsecPerSec = b.tvSec * nsecPerSec + d * nsecPerSec + nsecPerSec := by
      rw [hd]
      ring
    unfold SidTimespec.Normal at hb
    split
    · have hsub : a.tvSec - 1 - b.tvSec = d := by omega
      simp only [hsub]
      omega
    · have hsub : a.tvSec - b.tvSec = d + 1 := by omega
      simp only [hsub, Nat.add_mul]
      omega
  · rw [if_neg (by omega)]
    simp only [heq, Nat.sub_self, Nat.zero_mul]
    omega

/-- A sum that fits does not wrap. -/
theorem sidTimeAdd32_eq {a b : SidTimespec}
    (h : SidTimespec.Fits ⟨a.tvSec + b.tvSec, a.tvNsec + b.tvNsec⟩) :
    sidTimeAdd32 a b = sidTimeAdd a b := by
  obtain ⟨hsec, hnsec⟩ := h
  simp only at hsec hnsec
  have hsum : a.tvSec + b.tvSec < uint32Size := (Nat.le_add_right _ _).trans_lt hsec
  unfold sidTimeAdd32 sidTimeAdd sidTimeNormalize32 sidTimeNormalize
  simp only
  rw [Nat.mod_eq_of_lt hnsec, Nat.mod_eq_of_lt hsum, Nat.mod_eq_of_lt hsec]

example : sidTimeAdd32 ⟨0xFFFFFFFF, 0⟩ ⟨1, 0⟩ = ⟨0, 0⟩ := by decide

theorem sidTimeAdd32_normal (a b : SidTimespec) : (sidTimeAdd32 a b).Normal :=
  Nat.mod_lt _ (by decide)

/-- A sum that wraps falls short of the nanoseconds. -/
theorem ns_sidTimeAdd32_le (a b : SidTimespec) : (sidTimeAdd32 a b).ns ≤ a.ns + b.ns := by
  unfold sidTimeAdd32 sidTimeNormalize32 SidTimespec.ns uint32Size nsecPerSec
  simp only
  omega

/-- The sum is that of the nanoseconds exactly if it fits. -/
theorem ns_sidTimeAdd32_iff {a b : SidTimespec} : (sidTimeAdd32 a b).ns = a.ns + b.ns ↔
    SidTimespec.Fits ⟨a.tvSec + b.tvSec, a.tvNsec + b.tvNsec⟩ := by
  constructor
  · intro h
    unfold sidTimeAdd32 sidTimeNormalize32 SidTimespec.ns uint32Size nsecPerSec at h
    unfold SidTimespec.Fits uint32Size nsecPerSec
    simp only at h ⊢
    omega
  · intro h
    rw [sidTimeAdd32_eq h, ns_sidTimeAdd]

/-- A difference taken modulo the size of a field. -/
theorem wrapped_sub {a b : Nat} (h : b ≤ a) (hlt : a - b < uint32Size) :
    (a + uint32Size - b) % uint32Size = a - b := by
  rw [show a + uint32Size - b = a - b + uint32Size by omega, Nat.add_mod_right,
    Nat.mod_eq_of_lt hlt]

/-- A difference of times that fit does not wrap. -/
theorem sidTimeSub32_eq {a b : SidTimespec} (ha : a.Fits) (hb : b.Normal) (h : b ≤ a) :
    sidTimeSub32 a b = sidTimeSub a b := by
  obtain ⟨hsec, hnsec⟩ := ha
  have hle := sidTimespec_le_iff.mp h
  have hasec : a.tvSec < uint32Size := (Nat.le_add_right _ _).trans_lt hsec
  have hbsec : b.tvSec < uint32Size := by omega
  have hbnormal : sidTimeNormalize32 b = b := by
    unfold sidTimeNormalize32
    rw [Nat.div_eq_of_lt hb, Nat.mod_eq_of_lt hb, Nat.add_zero, Nat.mod_eq_of_lt hbsec]
  unfold sidTimeSub32 sidTimeSub
  rw [hbnormal, sidTimeNormalize_of_normal hb]
  unfold SidTimespec.Normal at hb
  have hsize : nsecPerSec + nsecPerSec < uint32Size := by decide
  by_cases hborrow : a.tvNsec < b.tvNsec
  · have hlt : b.tvSec < a.tvSec := by omega
    have hsec₁ : (a.tvSec + uint32Size - 1) % uint32Size = a.tvSec - 1 :=
      wrapped_sub (by omega) (by omega)
    have hnsec₁ : (a.tvNsec + nsecPerSec) % uint32Size = a.tvNsec + nsecPerSec :=
      Nat.mod_eq_of_lt (by omega)
    have hdiv : (a.tvNsec + nsecPerSec - b.tvNsec) / nsecPerSec = 0 :=
      Nat.div_eq_of_lt (by omega)
    simp only [hborrow, if_true, hsec₁, hnsec₁]
    rw [wrapped_sub (by omega) (by omega), wrapped_sub (by omega) (by omega)]
    unfold sidTimeNormalize32 sidTimeNormalize
    simp only [hdiv, Nat.add_zero]
    rw [Nat.mod_eq_of_lt (by omega)]
  · have hdiv : (a.tvNsec - b.tvNsec) / nsecPerSec ≤ a.tvNsec / nsecPerSec :=
      Nat.div_le_div_right (Nat.sub_le _ _)
    have hfits : a.tvSec - b.tvSec + (a.tvNsec - b.tvNsec) / nsecPerSec < uint32Size := by
      refine lt_of_le_of_lt ?_ hsec
      exact Nat.add_le_add (Nat.sub_le _ _) hdiv
    simp only [hborrow, if_false]
    rw [wrapped_sub (by omega) (by omega), wrapped_sub (by omega) (by omega)]
    unfold sidTimeNormalize32 sidTimeNormalize
    rw [Nat.mod_eq_of_lt hfits]

end Sidewalk.Timer
