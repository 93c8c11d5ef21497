import Mathlib
import Sidewalk.Lib.Rules

/-!
# Programs that follow a script

Some calls of an attempt are marked. It follows a script when the marks of each run begin the
script, and are all of it where the run has a result. A script may be cut where the attempt is.
-/

namespace Sidewalk.Lib

variable {Call Reply Mark ε ε' α β : Type}

namespace Program

/-- The run of a program whose calls are answered by a function of the call. -/
def trace (answer : Call → Reply) : Program Call Reply α → List (Call × Reply) × α
  | .pure a => ([], a)
  | .call c next => ((c, answer c) :: (trace answer (next (answer c))).1,
      (trace answer (next (answer c))).2)

theorem runs_trace (answer : Call → Reply) (p : Program Call Reply α) :
    Runs p (trace answer p).1 (trace answer p).2 := by
  induction p with
  | pure a => exact ⟨rfl, rfl⟩
  | call c next ih => exact ⟨answer c, _, rfl, ih (answer c)⟩

theorem answered_trace (answer : Call → Reply) (p : Program Call Reply α) :
    ∀ e ∈ (trace answer p).1, e.2 = answer e.1 := by
  induction p with
  | pure a => exact fun _ h => absurd h List.not_mem_nil
  | call c next ih => exact List.forall_mem_cons.mpr ⟨rfl, ih (answer c)⟩

/-- The run of a program on a device that answers a call by its state. -/
def traceFrom {State : Type} (device : State → Call → Reply × State) :
    State → Program Call Reply α → List (Call × Reply) × α
  | _, .pure a => ([], a)
  | s, .call c next =>
    ((c, (device s c).1) :: (traceFrom device (device s c).2 (next (device s c).1)).1,
      (traceFrom device (device s c).2 (next (device s c).1)).2)

theorem runs_traceFrom {State : Type} (device : State → Call → Reply × State) (s : State)
    (p : Program Call Reply α) : Runs p (traceFrom device s p).1 (traceFrom device s p).2 := by
  induction p generalizing s with
  | pure a => exact ⟨rfl, rfl⟩
  | call c next ih => exact ⟨(device s c).1, _, rfl, ih _ _⟩

theorem runs_pure_bind {a : α} {f : α → Program Call Reply β} {events : List (Call × Reply)}
    {result : β} : Runs (Pure.pure a >>= f) events result ↔ Runs (f a) events result := Iff.rfl

@[simp] theorem trace_pure (answer : Call → Reply) (a : α) :
    trace answer (Pure.pure a : Program Call Reply α) = ([], a) := rfl

@[simp] theorem trace_make_bind (answer : Call → Reply) (c : Call)
    (f : Reply → Program Call Reply β) :
    trace answer (make c >>= f) =
      ((c, answer c) :: (trace answer (f (answer c))).1, (trace answer (f (answer c))).2) := rfl

@[simp] theorem trace_bind (answer : Call → Reply) (p : Program Call Reply α)
    (f : α → Program Call Reply β) :
    trace answer (p >>= f) = ((trace answer p).1 ++ (trace answer (f (trace answer p).2)).1,
      (trace answer (f (trace answer p).2)).2) := by
  change trace answer (bind p f) = _
  induction p with
  | pure a => rfl
  | call c next ih =>
    rw [bind, trace, ih]
    rfl

end Program

namespace Attempt

open Program (Runs)

/-- Stops with the error unless the condition holds. -/
def check (b : Bool) (e : ε) : Attempt Call Reply ε Unit := if b then pure () else throw e

/-- One call, which never stops the attempt. -/
def call (c : Call) : Attempt Call Reply ε Reply := ExceptT.lift (.make c)

protected theorem runs_pure {a : α} {events : List (Call × Reply)} {r : Except ε α} :
    Runs (pure a : Attempt Call Reply ε α).run events r ↔ events = [] ∧ r = .ok a := Iff.rfl

theorem runs_throw {e : ε} {events : List (Call × Reply)} {r : Except ε α} :
    Runs (throw e : Attempt Call Reply ε α).run events r ↔ events = [] ∧ r = .error e := Iff.rfl

/-- A sequence stops in its first half, or goes on from its result. -/
protected theorem runs_bind {p : Attempt Call Reply ε α} {f : α → Attempt Call Reply ε β}
    {events : List (Call × Reply)} {r : Except ε β} :
    Runs (p >>= f).run events r ↔
      (∃ e, Runs p.run events (.error e) ∧ r = .error e) ∨
        ∃ events₁ a events₂, Runs p.run events₁ (.ok a) ∧ Runs (f a).run events₂ r ∧
          events = events₁ ++ events₂ := by
  change Runs (p.run >>= _) events r ↔ _
  rw [Program.runs_bind]
  constructor
  · rintro ⟨events₁, (e | a), events₂, h₁, h₂, rfl⟩
    · obtain ⟨rfl, rfl⟩ := h₂
      rw [List.append_nil]
      exact .inl ⟨e, h₁, rfl⟩
    · exact .inr ⟨events₁, a, events₂, h₁, h₂, rfl⟩
  · rintro (⟨e, h, rfl⟩ | ⟨events₁, a, events₂, h₁, h₂, rfl⟩)
    · exact ⟨events, .error e, [], h, ⟨rfl, rfl⟩, (List.append_nil events).symm⟩
    · exact ⟨events₁, .ok a, events₂, h₁, h₂, rfl⟩

theorem runs_call {c : Call} {events : List (Call × Reply)} {r : Except ε Reply} :
    Runs (call c : Attempt Call Reply ε Reply).run events r ↔
      ∃ reply, events = [(c, reply)] ∧ r = .ok reply := by
  constructor
  · rintro ⟨reply, rest, rfl, rfl, rfl⟩
    exact ⟨reply, rfl, rfl⟩
  · rintro ⟨reply, rfl, rfl⟩
    exact ⟨reply, [], rfl, rfl, rfl⟩

theorem runs_check {b : Bool} {e : ε} {events : List (Call × Reply)} {r : Except ε Unit} :
    Runs (check b e : Attempt Call Reply ε Unit).run events r ↔
      events = [] ∧ r = if b then .ok () else .error e := by
  cases b with
  | true => exact Attempt.runs_pure
  | false => exact runs_throw

/-- A sequence whose first half is a check. -/
theorem runs_check_bind {b : Bool} {e : ε} {f : Unit → Attempt Call Reply ε β}
    {events : List (Call × Reply)} {r : Except ε β} :
    Runs (check b e >>= f).run events r ↔
      (b = false ∧ events = [] ∧ r = .error e) ∨ (b = true ∧ Runs (f ()).run events r) := by
  cases b with
  | true =>
    rw [Attempt.runs_bind]
    constructor
    · rintro (⟨e', h, -⟩ | ⟨_, _, events₂, ⟨rfl, -⟩, h, rfl⟩)
      · cases h.2
      · exact .inr ⟨rfl, h⟩
    · rintro (⟨h, -⟩ | ⟨-, h⟩)
      · cases h
      · exact .inr ⟨[], (), events, ⟨rfl, rfl⟩, h, rfl⟩
  | false =>
    rw [Attempt.runs_bind]
    constructor
    · rintro (⟨e', ⟨rfl, he⟩, rfl⟩ | ⟨_, _, _, h, -, -⟩)
      · cases he
        exact .inl ⟨rfl, rfl, rfl⟩
      · cases h.2
    · rintro (⟨-, rfl, rfl⟩ | ⟨h, -⟩)
      · exact .inl ⟨e, ⟨rfl, rfl⟩, rfl⟩
      · cases h

/-- The marks of every run begin the script; a run with a result has all of them, and meets the
postcondition. -/
structure Follows (mark : Call × Reply → Option Mark) (script : List Mark)
    (post : List (Call × Reply) → α → Prop) (p : Attempt Call Reply ε α) : Prop where
  begins : ∀ {events r}, Runs p.run events r → events.filterMap mark <+: script
  ends : ∀ {events a}, Runs p.run events (.ok a) → events.filterMap mark = script ∧ post events a

variable {mark : Call × Reply → Option Mark} {script script₁ script₂ : List Mark}
  {post post' : List (Call × Reply) → α → Prop}

theorem follows_pure {a : α} (h : post [] a) :
    Follows mark [] post (pure a : Attempt Call Reply ε α) where
  begins := by
    rintro events r ⟨rfl, rfl⟩
    exact List.prefix_refl []
  ends := by
    rintro events b ⟨rfl, hb⟩
    cases hb
    exact ⟨rfl, h⟩

theorem follows_throw {e : ε} : Follows mark script post (throw e : Attempt Call Reply ε α) where
  begins := by
    rintro events r ⟨rfl, rfl⟩
    exact List.nil_prefix
  ends := by
    rintro events b ⟨-, hb⟩
    cases hb

theorem follows_check {b : Bool} {e : ε} {post : List (Call × Reply) → Unit → Prop}
    (h : b = true → post [] ()) :
    Follows mark [] post (check b e : Attempt Call Reply ε Unit) := by
  cases b with
  | true => exact follows_pure (h rfl)
  | false => exact follows_throw

/-- A call that is not marked follows the empty script. -/
theorem follows_call {c : Call} {post : List (Call × Reply) → Reply → Prop}
    (hmark : ∀ reply, mark (c, reply) = none) (h : ∀ reply, post [(c, reply)] reply) :
    Follows mark [] post (call c : Attempt Call Reply ε Reply) where
  begins := by
    intro events r hrun
    obtain ⟨reply, rfl, rfl⟩ := runs_call.mp hrun
    simp [hmark]
  ends := by
    intro events a hrun
    obtain ⟨reply, rfl, ha⟩ := runs_call.mp hrun
    cases ha
    exact ⟨by simp [hmark], h a⟩

theorem Follows.mono {p : Attempt Call Reply ε α} (h : Follows mark script post p)
    (hpost : ∀ events a, post events a → post' events a) : Follows mark script post' p where
  begins := h.begins
  ends := by
    intro events a hrun
    obtain ⟨hscript, ha⟩ := h.ends hrun
    exact ⟨hscript, hpost events a ha⟩

theorem Follows.bind {p : Attempt Call Reply ε α} {f : α → Attempt Call Reply ε β}
    {post₂ : List (Call × Reply) → α → List (Call × Reply) → β → Prop}
    {post₃ : List (Call × Reply) → β → Prop} (hp : Follows mark script₁ post p)
    (hf : ∀ events₁ a, post events₁ a → Follows mark script₂ (post₂ events₁ a) (f a))
    (hpost : ∀ events₁ a events₂ b, post events₁ a → post₂ events₁ a events₂ b →
      post₃ (events₁ ++ events₂) b) :
    Follows mark (script₁ ++ script₂) post₃ (p >>= f) where
  begins := by
    intro events r hrun
    obtain ⟨e, hrun, -⟩ | ⟨events₁, a, events₂, hrun₁, hrun₂, rfl⟩ := Attempt.runs_bind.mp hrun
    · exact (hp.begins hrun).trans (List.prefix_append script₁ script₂)
    · obtain ⟨hscript, ha⟩ := hp.ends hrun₁
      rw [List.filterMap_append, hscript]
      exact (List.prefix_append_right_inj script₁).mpr ((hf events₁ a ha).begins hrun₂)
  ends := by
    intro events b hrun
    obtain ⟨e, -, he⟩ | ⟨events₁, a, events₂, hrun₁, hrun₂, rfl⟩ := Attempt.runs_bind.mp hrun
    · cases he
    · obtain ⟨hscript₁, ha⟩ := hp.ends hrun₁
      obtain ⟨hscript₂, hb⟩ := (hf events₁ a ha).ends hrun₂
      exact ⟨by rw [List.filterMap_append, hscript₁, hscript₂], hpost _ _ _ _ ha hb⟩

/-- The same with a first half that says nothing of its calls. -/
theorem Follows.then {p : Attempt Call Reply ε α} {f : α → Attempt Call Reply ε β}
    {post₃ : List (Call × Reply) → β → Prop} (hp : Follows mark script₁ post p)
    (hf : ∀ events₁ a, post events₁ a →
      Follows mark script₂ (fun events₂ b => post₃ (events₁ ++ events₂) b) (f a)) :
    Follows mark (script₁ ++ script₂) post₃ (p >>= f) := by
  refine hp.bind hf ?_
  intro _ _ _ _ _ h
  exact h

end Attempt

end Sidewalk.Lib
