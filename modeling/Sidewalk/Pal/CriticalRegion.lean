import Mathlib
import Sidewalk.Lib.System

/-!
# Critical regions

`sid_critical_region.c` on one core: a counter of entries and the saved interrupt state are
shared by all threads and interrupt handlers, and the counter is raised before the interrupts are
locked.
-/

namespace Sidewalk.Pal

open Lib Function

/-! ## Steps -/

/-- Where a context stands in the calls. -/
inductive Pc
  | run
  /-- Past `atomic_add`, with the value before it. -/
  | added (prevVal : Nat)
  /-- Past `irq_lock`. -/
  | ready
  /-- Past `atomic_sub`, with the value before it. -/
  | subbed (prevVal : Nat)
  deriving DecidableEq, Repr

/-- A thread or an interrupt handler: the entries that have returned and whose exits were not
called yet. -/
structure Context where
  pc : Pc
  depth : Nat
  deriving DecidableEq, Repr

/-- In no critical region and in none of the calls. -/
def Context.outside : Context := ⟨.run, 0⟩

@[ext]
structure Core (κ : Type) where
  count : Nat
  key : Bool
  /-- Whether the interrupts are locked. -/
  locked : Bool
  /-- Whether code outside the critical regions has locked them. -/
  before : Bool
  cur : κ
  context : κ → Context

inductive RegionAct (κ : Type)
  | enterAdd
  | enterLock
  | enterReturn
  | exitSub
  | exitUnlock
  | exitReturn
  /-- Code outside the critical regions locks or unlocks the interrupts. -/
  | setIrq (locked : Bool)
  | switch (k : κ)

section

variable {κ : Type} [DecidableEq κ]

def Core.setContext (s : Core κ) (c : Context) : Core κ :=
  { s with context := update s.context s.cur c }

/-- The context that runs makes a step, or another context is switched to. An assertion that
fails ends the run of its context. -/
inductive RegionStep (reEntryMax : Nat) : Core κ → RegionAct κ → Core κ → Prop
  | enterAdd {s d} : s.context s.cur = ⟨.run, d⟩ →
      RegionStep reEntryMax s .enterAdd
        { s.setContext ⟨.added s.count, d⟩ with count := s.count + 1 }
  | enterLock {s d} : s.context s.cur = ⟨.added 0, d⟩ →
      RegionStep reEntryMax s .enterLock
        { s.setContext ⟨.ready, d⟩ with key := s.locked, locked := true }
  | enterFirst {s d} : s.context s.cur = ⟨.ready, d⟩ →
      RegionStep reEntryMax s .enterReturn (s.setContext ⟨.run, d + 1⟩)
  | enterNested {s d prevVal} : s.context s.cur = ⟨.added prevVal, d⟩ → prevVal ≠ 0 →
      prevVal ≤ reEntryMax → RegionStep reEntryMax s .enterReturn (s.setContext ⟨.run, d + 1⟩)
  | exitSub {s d} : s.context s.cur = ⟨.run, d + 1⟩ →
      RegionStep reEntryMax s .exitSub
        { s.setContext ⟨.subbed s.count, d⟩ with count := s.count - 1 }
  | exitUnlock {s d} : s.context s.cur = ⟨.subbed 1, d⟩ →
      RegionStep reEntryMax s .exitUnlock { s.setContext ⟨.run, d⟩ with locked := s.key }
  | exitNested {s d prevVal} : s.context s.cur = ⟨.subbed prevVal, d⟩ → 1 < prevVal →
      RegionStep reEntryMax s .exitReturn (s.setContext ⟨.run, d⟩)
  | setIrq {s locked} : s.context s.cur = .outside →
      RegionStep reEntryMax s (.setIrq locked) { s with locked := locked, before := locked }
  | switch {s k} : s.locked = false → RegionStep reEntryMax s (.switch k) { s with cur := k }

/-- No context is in a critical region at first, and the interrupts are in some state. -/
def regions (reEntryMax : Nat) : System (Core κ) (RegionAct κ) where
  init s := s.count = 0 ∧ s.locked = s.before ∧ ∀ k, s.context k = .outside
  step := RegionStep reEntryMax

/-! ## What a step keeps -/

/-- A context enters only while no other one has raised the counter from zero and not locked the
interrupts yet. -/
def EnterAlone (s : Core κ) : RegionAct κ → Prop
  | .enterAdd => ∀ k, k ≠ s.cur → (s.context k).pc ≠ .added 0
  | _ => True

/-- How the counter goes with the context that has locked the interrupts. -/
def Counted (c : Context) (count : Nat) : Prop :=
  match c.pc with
  | .run => 0 < c.depth ∧ count = c.depth
  | .ready => c.depth = 0 ∧ count = 1
  | .added prevVal => 0 < prevVal ∧ prevVal = c.depth ∧ count = c.depth + 1
  | .subbed prevVal => prevVal = c.depth + 1 ∧ count = c.depth

/-- All contexts but one are outside. -/
def OthersOutside (s : Core κ) (k : κ) : Prop := ∀ j, j ≠ k → s.context j = .outside

/-- At most one context is in a critical region or a call: none, one that has not locked the
interrupts yet, or the one that runs. -/
inductive Consistent (s : Core κ) : Prop
  | free : (∀ k, s.context k = .outside) → s.count = 0 → s.locked = s.before → Consistent s
  | window (k : κ) : s.context k = ⟨.added 0, 0⟩ → OthersOutside s k → s.count = 1 →
      s.locked = s.before → Consistent s
  | held : OthersOutside s s.cur → s.locked = true → s.key = s.before →
      Counted (s.context s.cur) s.count → Consistent s

@[simp] theorem setContext_self (s : Core κ) (c : Context) :
    (s.setContext c).context s.cur = c := update_self _ _ _

theorem othersOutside_setContext {s : Core κ} (h : OthersOutside s s.cur) (c : Context) :
    OthersOutside (s.setContext c) s.cur := by
  intro j hj
  change update s.context s.cur c j = .outside
  rw [update_of_ne hj]
  exact h j hj

/-- The context that runs is the one that has locked the interrupts if it is in a region or a
call, unless it has not locked them yet. -/
theorem Consistent.cur_held {s : Core κ} (h : Consistent s)
    (hout : s.context s.cur ≠ .outside) (hwindow : s.context s.cur ≠ ⟨.added 0, 0⟩) :
    OthersOutside s s.cur ∧ s.locked = true ∧ s.key = s.before ∧
      Counted (s.context s.cur) s.count := by
  cases h with
  | free hall => exact absurd (hall s.cur) hout
  | window k hk hothers =>
    by_cases hcur : s.cur = k
    · subst hcur
      exact absurd hk hwindow
    · exact absurd (hothers s.cur hcur) hout
  | held hothers hlocked hkey hcounted => exact ⟨hothers, hlocked, hkey, hcounted⟩

/-- The context that runs goes on inside the region it has locked. -/
theorem Consistent.of_setContext {s : Core κ} (hothers : OthersOutside s s.cur)
    (hlocked : s.locked = true) (hkey : s.key = s.before) {c : Context} {count : Nat}
    (hcounted : Counted c count) : Consistent { s.setContext c with count := count } := by
  refine .held (othersOutside_setContext hothers c) hlocked hkey ?_
  change Counted (update s.context s.cur c s.cur) count
  rw [update_self]
  exact hcounted

theorem Consistent.enterAdd {s : Core κ} (h : Consistent s) {d : Nat}
    (hrun : s.context s.cur = ⟨.run, d⟩) (hguard : EnterAlone s .enterAdd) :
    Consistent { s.setContext ⟨.added s.count, d⟩ with count := s.count + 1 } := by
  by_cases hd : d = 0
  · -- The first entry: nobody else may be on the way in.
    subst hd
    cases h with
    | free hall hcount hlocked =>
      refine .window s.cur ?_ ?_ ?_ hlocked
      · rw [hcount]
        exact setContext_self s _
      · exact othersOutside_setContext (fun j _ => hall j) _
      · exact congrArg (· + 1) hcount
    | window k hk hothers =>
      by_cases hcur : k = s.cur
      · rw [hcur, hrun] at hk
        cases hk
      · refine absurd ?_ (hguard k hcur)
        rw [hk]
    | held _ _ _ hcounted =>
      rw [hrun] at hcounted
      exact absurd hcounted.1 (lt_irrefl 0)
  · obtain ⟨hothers, hlocked, hkey, hcounted⟩ := h.cur_held
      (by rw [hrun]; exact fun h => hd (congrArg Context.depth h)) (by rw [hrun]; exact nofun)
    rw [hrun] at hcounted
    obtain ⟨hpos, hcount⟩ := hcounted
    exact .of_setContext hothers hlocked hkey
      ⟨hcount ▸ hpos, hcount, congrArg (· + 1) hcount⟩

/-- Steps that enter alone keep at most one context on the way in or inside. -/
theorem Consistent.step {reEntryMax : Nat} {s s' : Core κ} {a : RegionAct κ} (h : Consistent s)
    (hguard : EnterAlone s a) (hstep : RegionStep reEntryMax s a s') : Consistent s' := by
  cases hstep with
  | enterAdd hrun => exact h.enterAdd hrun hguard
  | @enterLock d hadded =>
    cases h with
    | free hall =>
      rw [hall s.cur] at hadded
      cases hadded
    | window k hk hothers hcount hlocked =>
      have hcur : s.cur = k := by
        by_contra hne
        rw [hothers s.cur hne] at hadded
        cases hadded
      subst hcur
      rw [hadded] at hk
      cases hk
      refine .held (othersOutside_setContext hothers _) rfl hlocked ?_
      change Counted (update s.context s.cur ⟨.ready, 0⟩ s.cur) s.count
      rw [update_self]
      exact ⟨rfl, hcount⟩
    | held _ _ _ hcounted =>
      rw [hadded] at hcounted
      exact absurd hcounted.1 (lt_irrefl 0)
  | enterFirst hready =>
    obtain ⟨hothers, hlocked, hkey, hcounted⟩ := h.cur_held
      (by rw [hready]; exact nofun) (by rw [hready]; exact nofun)
    rw [hready] at hcounted
    obtain ⟨hdepth, hcount⟩ := hcounted
    exact .of_setContext hothers hlocked hkey
      ⟨Nat.succ_pos _, hcount.trans (congrArg (· + 1) hdepth.symm)⟩
  | enterNested hadded hprev =>
    obtain ⟨hothers, hlocked, hkey, hcounted⟩ := h.cur_held
      (by rw [hadded]; exact nofun)
      (by rw [hadded]; rintro ⟨⟩; exact hprev rfl)
    rw [hadded] at hcounted
    exact .of_setContext hothers hlocked hkey ⟨Nat.succ_pos _, hcounted.2.2⟩
  | @exitSub d hrun =>
    obtain ⟨hothers, hlocked, hkey, hcounted⟩ := h.cur_held
      (by rw [hrun]; exact nofun) (by rw [hrun]; exact nofun)
    rw [hrun] at hcounted
    have hcount : s.count = d + 1 := hcounted.2
    exact .of_setContext hothers hlocked hkey ⟨hcount, by rw [hcount]; rfl⟩
  | @exitUnlock d hsubbed =>
    obtain ⟨hothers, hlocked, hkey, hcounted⟩ := h.cur_held
      (by rw [hsubbed]; exact nofun) (by rw [hsubbed]; exact nofun)
    rw [hsubbed] at hcounted
    obtain ⟨hprev, hcount⟩ := hcounted
    have hd : d = 0 := (Nat.succ.inj hprev).symm
    subst hd
    refine .free ?_ hcount hkey
    intro k
    change update s.context s.cur _ k = _
    by_cases hk : k = s.cur
    · subst hk
      exact update_self _ _ _
    · rw [update_of_ne hk]
      exact hothers k hk
  | @exitNested d prevVal hsubbed hprev =>
    obtain ⟨hothers, hlocked, hkey, hcounted⟩ := h.cur_held
      (by rw [hsubbed]; exact nofun) (by rw [hsubbed]; exact nofun)
    rw [hsubbed] at hcounted
    obtain ⟨hdepth, hcount⟩ := hcounted
    have hpos : 0 < d := by
      change prevVal = d + 1 at hdepth
      omega
    exact .of_setContext hothers hlocked hkey ⟨hpos, hcount⟩
  | setIrq hout =>
    cases h with
    | free hall hcount => exact .free hall hcount rfl
    | window k hk hothers hcount => exact .window k hk hothers hcount rfl
    | held _ _ _ hcounted =>
      rw [hout] at hcounted
      exact absurd hcounted.1 (lt_irrefl 0)
  | switch hunlocked =>
    cases h with
    | free hall hcount hlocked => exact .free hall hcount hlocked
    | window k hk hothers hcount hlocked => exact .window k hk hothers hcount hlocked
    | held _ hlocked =>
      rw [hlocked] at hunlocked
      cases hunlocked

/-! ## Runs -/

/-- The context is in a critical region: an entry has returned and its exit was not called. -/
def Core.Inside (s : Core κ) (k : κ) : Prop := 0 < (s.context k).depth

omit [DecidableEq κ] in
/-- Only the context that runs is inside, with the interrupts locked. -/
theorem Consistent.inside {s : Core κ} (h : Consistent s) {k : κ} (hk : s.Inside k) :
    k = s.cur ∧ s.locked = true := by
  unfold Core.Inside at hk
  cases h with
  | free hall =>
    rw [hall k] at hk
    exact absurd hk (lt_irrefl 0)
  | window j hj hothers =>
    by_cases hjk : k = j
    · rw [hjk, hj] at hk
      exact absurd hk (lt_irrefl 0)
    · rw [hothers k hjk] at hk
      exact absurd hk (lt_irrefl 0)
  | held hothers hlocked =>
    refine ⟨?_, hlocked⟩
    by_contra hne
    rw [hothers k hne] at hk
    exact absurd hk (lt_irrefl 0)

omit [DecidableEq κ] in
theorem Consistent.restored {s : Core κ} (h : Consistent s)
    (hout : ∀ k, s.context k = .outside) : s.locked = s.before := by
  cases h with
  | free _ _ hlocked => exact hlocked
  | window _ _ _ _ hlocked => exact hlocked
  | held _ _ _ hcounted =>
    rw [hout s.cur] at hcounted
    exact absurd hcounted.1 (lt_irrefl 0)

/-- In every run whose entries are alone, no two contexts are inside critical regions, the
interrupts are locked while one is, and they are back in the state that code outside has given
them when all are outside. -/
theorem mutual_exclusion (reEntryMax : Nat) (s : Core κ)
    (h : (regions reEntryMax).Reached EnterAlone s) :
    (∀ j k, s.Inside j → s.Inside k → j = k) ∧ (∀ k, s.Inside k → s.locked = true) ∧
      ((∀ k, s.context k = .outside) → s.locked = s.before) := by
  have hinv : Consistent s := by
    refine System.Reached.invariant (I := Consistent) ?_ ?_ h
    · rintro s ⟨hcount, hlocked, hall⟩
      exact .free hall hcount hlocked
    · exact fun s a s' hs hguard hstep => hs.step hguard hstep
  refine ⟨?_, fun k hk => (hinv.inside hk).2, hinv.restored⟩
  intro j k hj hk
  exact (hinv.inside hj).1.trans (hinv.inside hk).1.symm

end

/-! ## An entry that is preempted -/

/-- A thread and an interrupt handler. -/
def twoContexts (count : Nat) (locked : Bool) (cur : Bool) (thread handler : Context) :
    Core Bool where
  count := count
  key := false
  locked := locked
  before := false
  cur := cur
  context k := if k = true then handler else thread

theorem twoContexts_init :
    (regions 8).init (twoContexts 0 false false .outside .outside) :=
  ⟨rfl, rfl, fun k => by cases k <;> rfl⟩

/-- A step of a run on states written out. -/
theorem reached_twoContexts {guard : Core Bool → RegionAct Bool → Prop} {s s₁ s' : Core Bool}
    {a : RegionAct Bool} (h : (regions 8).Reached guard s) (hguard : guard s a)
    (hstep : RegionStep 8 s a s₁) (heq : (s₁.count, s₁.key, s₁.locked, s₁.before, s₁.cur) =
      (s'.count, s'.key, s'.locked, s'.before, s'.cur)) (hthread : s₁.context false = s'.context false)
    (hhandler : s₁.context true = s'.context true) : (regions 8).Reached guard s' := by
  obtain ⟨hcount, hkey, hlocked, hbefore, hcur⟩ := by simpa only [Prod.mk.injEq] using heq
  have hs : s₁ = s' := by
    refine Core.ext hcount hkey hlocked hbefore hcur (funext fun k => ?_)
    cases k
    · exact hthread
    · exact hhandler
  exact hs ▸ .step h hguard hstep

/-- One entry that is not preempted. -/
theorem mutual_exclusion_thread :
    let s := twoContexts 1 true false ⟨.run, 1⟩ .outside
    s.Inside false ∧ (∀ j k, s.Inside j → s.Inside k → j = k) ∧
      (∀ k, s.Inside k → s.locked = true) ∧
      ((∀ k, s.context k = .outside) → s.locked = s.before) := by
  refine ⟨Nat.one_pos, mutual_exclusion 8 _ ?_⟩
  have hadd : (regions 8).Reached EnterAlone
      (twoContexts 1 false false ⟨.added 0, 0⟩ .outside) := by
    refine reached_twoContexts (.init twoContexts_init) ?_ (.enterAdd rfl) rfl rfl rfl
    intro k _
    cases k <;> exact nofun
  have hlock : (regions 8).Reached EnterAlone
      (twoContexts 1 true false ⟨.ready, 0⟩ .outside) :=
    reached_twoContexts (a := .enterLock) hadd trivial (.enterLock rfl) rfl rfl rfl
  exact reached_twoContexts (a := .enterReturn) hlock trivial (.enterFirst rfl) rfl rfl rfl

/-- The thread is preempted between `atomic_add` and `irq_lock`, by a handler that enters. -/
theorem entry_unprotected :
    ¬∀ s : Core Bool, (regions 8).Reachable s →
      (∀ j k, s.Inside j → s.Inside k → j = k) ∧ (∀ k, s.Inside k → s.locked = true) ∧
        ((∀ k, s.context k = .outside) → s.locked = s.before) := by
  intro h
  have hadd : (regions 8).Reachable (twoContexts 1 false false ⟨.added 0, 0⟩ .outside) :=
    reached_twoContexts (.init twoContexts_init) trivial (.enterAdd rfl) rfl rfl rfl
  have hswitch : (regions 8).Reachable (twoContexts 1 false true ⟨.added 0, 0⟩ .outside) :=
    reached_twoContexts hadd trivial (.switch rfl) rfl rfl rfl
  have hnested : (regions 8).Reachable
      (twoContexts 2 false true ⟨.added 0, 0⟩ ⟨.added 1, 0⟩) :=
    reached_twoContexts hswitch trivial (.enterAdd rfl) rfl rfl rfl
  have hinside : (regions 8).Reachable (twoContexts 2 false true ⟨.added 0, 0⟩ ⟨.run, 1⟩) :=
    reached_twoContexts hnested trivial (.enterNested rfl nofun (by decide)) rfl rfl rfl
  have hlocked := (h _ hinside).2.1 true Nat.one_pos
  cases hlocked

end Sidewalk.Pal
