import Mathlib

/-!
# Programs over calls with any replies

A program makes calls and goes on by what they reply. `Runs` gives the calls of a run with their
replies and its result; nothing is assumed of the replies.
-/

namespace Sidewalk.Lib

inductive Program (Call Reply : Type) (α : Type) : Type
  | pure (a : α)
  | call (c : Call) (next : Reply → Program Call Reply α)

namespace Program

variable {Call Reply α β : Type}

def bind (p : Program Call Reply α) (f : α → Program Call Reply β) : Program Call Reply β :=
  match p with
  | pure a => f a
  | call c next => call c fun reply => bind (next reply) f

instance : Monad (Program Call Reply) where
  pure := pure
  bind := bind

/-- One call. -/
def make (c : Call) : Program Call Reply Reply := call c pure

/-- The program makes these calls, gets these replies, and returns the result. -/
def Runs : Program Call Reply α → List (Call × Reply) → α → Prop
  | pure a, events, result => events = [] ∧ result = a
  | call c next, events, result =>
    ∃ reply rest, events = (c, reply) :: rest ∧ Runs (next reply) rest result

@[simp] theorem runs_pure {a result : α} {events : List (Call × Reply)} :
    Runs (Pure.pure a : Program Call Reply α) events result ↔ events = [] ∧ result = a :=
  Iff.rfl

theorem runs_bind {p : Program Call Reply α} {f : α → Program Call Reply β}
    {events : List (Call × Reply)} {result : β} :
    Runs (p >>= f) events result ↔
      ∃ events₁ a events₂, Runs p events₁ a ∧ Runs (f a) events₂ result ∧
        events = events₁ ++ events₂ := by
  change Runs (bind p f) events result ↔ _
  induction p generalizing events with
  | pure a =>
    constructor
    · intro h
      exact ⟨[], a, events, ⟨rfl, rfl⟩, h, rfl⟩
    · rintro ⟨_, _, events₂, ⟨rfl, rfl⟩, h, rfl⟩
      exact h
  | call c next ih =>
    constructor
    · rintro ⟨reply, rest, rfl, h⟩
      obtain ⟨events₁, a, events₂, h₁, h₂, rfl⟩ := (ih reply).mp h
      exact ⟨(c, reply) :: events₁, a, events₂, ⟨reply, events₁, rfl, h₁⟩, h₂, rfl⟩
    · rintro ⟨_, a, events₂, ⟨reply, events₁, rfl, h₁⟩, h₂, rfl⟩
      exact ⟨reply, events₁ ++ events₂, rfl, (ih reply).mpr ⟨events₁, a, events₂, h₁, h₂, rfl⟩⟩

theorem runs_make_bind {c : Call} {f : Reply → Program Call Reply β}
    {events : List (Call × Reply)} {result : β} :
    Runs (make c >>= f) events result ↔
      ∃ reply rest, events = (c, reply) :: rest ∧ Runs (f reply) rest result :=
  Iff.rfl

theorem runs_map {p : Program Call Reply α} {f : α → β} {events : List (Call × Reply)} {result : β} :
    Runs (f <$> p) events result ↔ ∃ a, Runs p events a ∧ result = f a := by
  change Runs (p >>= fun a => Pure.pure (f a)) events result ↔ _
  rw [runs_bind]
  constructor
  · rintro ⟨events₁, a, _, h, ⟨rfl, rfl⟩, rfl⟩
    rw [List.append_nil]
    exact ⟨a, h, rfl⟩
  · rintro ⟨a, h, rfl⟩
    exact ⟨events, a, [], h, ⟨rfl, rfl⟩, (List.append_nil events).symm⟩

/-- Calls that are answered by a function give a run. -/
theorem exists_runs (answer : Call → Reply) (p : Program Call Reply α) :
    ∃ events a, Runs p events a ∧ ∀ e ∈ events, e.2 = answer e.1 := by
  induction p with
  | pure a => exact ⟨[], a, ⟨rfl, rfl⟩, fun _ h => absurd h List.not_mem_nil⟩
  | call c next ih =>
    obtain ⟨events, a, hrun, hanswers⟩ := ih (answer c)
    exact ⟨(c, answer c) :: events, a, ⟨_, _, rfl, hrun⟩, List.forall_mem_cons.mpr ⟨rfl, hanswers⟩⟩

theorem runs_make {c : Call} {events : List (Call × Reply)} {reply : Reply} :
    Runs (make c) events reply ↔ events = [(c, reply)] := by
  constructor
  · rintro ⟨_, _, rfl, rfl, rfl⟩
    rfl
  · rintro rfl
    exact ⟨reply, [], rfl, rfl, rfl⟩

end Program

end Sidewalk.Lib
