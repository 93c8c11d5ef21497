import Mathlib

/-!
# Transition systems

A labelled transition system, and the states that runs reach whose every step meets a guard.
`Reached.invariant` turns what one step preserves into what every run preserves. A history that a
run carries has its last event first.
-/

namespace Sidewalk.Lib

/-- Where a run may start, and what it may do under a label. -/
structure System (State Label : Type*) where
  init : State → Prop
  step : State → Label → State → Prop

namespace System

variable {State Label : Type*} {T : System State Label} {guard guard' : State → Label → Prop}

/-- The state is reached by steps that all meet the guard. -/
inductive Reached (T : System State Label) (guard : State → Label → Prop) : State → Prop
  | init {s : State} : T.init s → Reached T guard s
  | step {s s' : State} {a : Label} : Reached T guard s → guard s a → T.step s a s' →
      Reached T guard s'

/-- The state is reached by some run. -/
abbrev Reachable (T : System State Label) : State → Prop := Reached T fun _ _ => True

/-- A property of the initial states that every step keeps holds in every state reached. -/
theorem Reached.invariant {I : State → Prop} (hinit : ∀ s, T.init s → I s)
    (hstep : ∀ s a s', I s → guard s a → T.step s a s' → I s') {s : State}
    (h : T.Reached guard s) : I s := by
  induction h with
  | init h => exact hinit _ h
  | step _ hguard h ih => exact hstep _ _ _ ih hguard h

theorem Reached.mono (hmono : ∀ s a, guard s a → guard' s a) {s : State}
    (h : T.Reached guard s) : T.Reached guard' s := by
  induction h with
  | init h => exact .init h
  | step _ hguard h ih => exact .step ih (hmono _ _ hguard) h

/-- Where the steps are those of a function, a list of labels is a run. -/
theorem Reached.foldl {next : State → Label → State} (hstep : ∀ s a, T.step s a (next s a))
    {s : State} (h : T.Reached guard s) {labels : List Label}
    (hguard : ∀ s, ∀ a ∈ labels, guard s a) : T.Reached guard (labels.foldl next s) := by
  induction labels generalizing s with
  | nil => exact h
  | cons a labels ih =>
    refine ih (.step h (hguard s a List.mem_cons_self) (hstep s a)) ?_
    exact fun s b hb => hguard s b (List.mem_cons_of_mem a hb)

/-! ## Runs of a function -/

/-- The runs of a function from one state on, which end where it answers `none`. -/
def orbit (next : State → Option State) (start : State) : System State Unit where
  init s := s = start
  step s _ s' := next s = some s'

variable {next : State → Option State} {start : State}

theorem orbit_later {s : State} (h : next start = some s) {x : State}
    (hx : (orbit next s).Reachable x) : (orbit next start).Reachable x := by
  induction hx with
  | init heq =>
    cases heq
    exact .step (a := ()) (.init rfl) trivial h
  | step _ _ hstep ih => exact .step (a := ()) ih trivial hstep

/-- What holds along a run holds at its start and along the rest of it. -/
theorem forall_orbit_iff {P : State → Prop} :
    (∀ x, (orbit next start).Reachable x → P x) ↔
      P start ∧ ∀ s, next start = some s → ∀ x, (orbit next s).Reachable x → P x := by
  constructor
  · intro h
    exact ⟨h start (.init rfl), fun s hs x hx => h x (orbit_later hs hx)⟩
  · rintro ⟨hstart, hlater⟩ x hx
    -- A state of the run is its start, or is reached from the next one.
    have hcases : x = start ∨ ∃ s, next start = some s ∧ (orbit next s).Reachable x := by
      induction hx with
      | init heq => exact .inl heq
      | step _ _ hstep ih =>
        obtain rfl | ⟨s, hs, hreached⟩ := ih
        · exact .inr ⟨_, hstep, .init rfl⟩
        · exact .inr ⟨s, hs, .step (a := ()) hreached trivial hstep⟩
    obtain rfl | ⟨s, hs, hreached⟩ := hcases
    · exact hstart
    · exact hlater s hs x hreached

end System

/-! ## Histories -/

/-- An event of a longer history is the last one, or an event of the history before. -/
theorem last_or_before {Event : Type*} {e x : Event} {history newer older : List Event}
    (heq : e :: history = newer ++ x :: older) :
    (e = x ∧ history = older) ∨ ∃ newer', history = newer' ++ x :: older := by
  cases newer with
  | nil => exact .inl (List.cons.inj heq)
  | cons e' newer => exact .inr ⟨newer, (List.cons.inj heq).2⟩

/-- Some event is good, and none behind it is bad. -/
def Since {Event : Type*} (good bad : Event → Prop) (history : List Event) : Prop :=
  ∃ newer e older, history = newer ++ e :: older ∧ good e ∧ ∀ x ∈ newer, ¬bad x

theorem not_since_nil {Event : Type*} {good bad : Event → Prop} : ¬Since good bad [] := by
  rintro ⟨newer, e, older, heq, -⟩
  cases newer <;> cases heq

/-- The last event is good, or it is not bad and the rest of the history is as it should. -/
theorem since_cons {Event : Type*} {good bad : Event → Prop} {e : Event} {history : List Event} :
    Since good bad (e :: history) ↔ good e ∨ ¬bad e ∧ Since good bad history := by
  constructor
  · rintro ⟨newer, x, older, heq, hgood, hbad⟩
    cases newer with
    | nil =>
      cases heq
      exact .inl hgood
    | cons e' newer =>
      cases heq
      obtain ⟨he, hrest⟩ := List.forall_mem_cons.mp hbad
      exact .inr ⟨he, newer, x, older, rfl, hgood, hrest⟩
  · rintro (hgood | ⟨he, newer, x, older, rfl, hgood, hbad⟩)
    · exact ⟨[], e, history, rfl, hgood, fun _ h => absurd h List.not_mem_nil⟩
    · exact ⟨e :: newer, x, older, rfl, hgood, List.forall_mem_cons.mpr ⟨he, hbad⟩⟩

end Sidewalk.Lib
