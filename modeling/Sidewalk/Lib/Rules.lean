import Mathlib
import Sidewalk.Lib.Program

/-!
# Rules for programs over a state

A semantics says what each call may reply in a state and which state it leaves. `Executes` runs a
program to its end. `Ensures` says what holds after every call and what holds at the end, and has
one rule for each way to build a program. An attempt is a program that may stop with an error, and
an access is a call that works on the memory of a driver or is a command to a device.
-/

namespace Sidewalk.Lib

/-- What a call may reply in a state, and the state that it leaves. -/
abbrev Semantics (σ Call Reply : Type) := σ → Call → Reply → σ → Prop

namespace Program

variable {Call Reply α β σ : Type} {exec : Semantics σ Call Reply} {inv : σ → Prop}

inductive Executes (exec : Semantics σ Call Reply) : Program Call Reply α → σ → α → σ → Prop
  | pure {a s} : Executes exec (.pure a) s a s
  | call {c next reply s t u a} : exec s c reply t → Executes exec (next reply) t a u →
      Executes exec (.call c next) s a u

/-- A condition that every call keeps holds at the end of a run. -/
theorem Executes.invariant (P : σ → Prop) {p : Program Call Reply α} {s t : σ} {a : α}
    (hrun : Executes exec p s a t) (hkeep : ∀ s c reply t, exec s c reply t → P s → P t)
    (hs : P s) : P t := by
  induction hrun with
  | pure => exact hs
  | call hexec _ ih => exact ih (hkeep _ _ _ _ hexec hs)

/-- The run of a program whose calls are answered by a function. -/
def eval (answer : σ → Call → Reply × σ) : Program Call Reply α → σ → α × σ
  | .pure a, s => (a, s)
  | .call c next, s => eval answer (next (answer s c).1) (answer s c).2

theorem executes_eval {answer : σ → Call → Reply × σ}
    (h : ∀ s c, exec s c (answer s c).1 (answer s c).2) (p : Program Call Reply α) (s : σ) :
    Executes exec p s (eval answer p s).1 (eval answer p s).2 := by
  induction p generalizing s with
  | pure a => exact .pure
  | call c next ih => exact .call (h s c) (ih _ _)

/-- `inv` holds after every call, and `post` at the end of every run. -/
def Ensures (exec : Semantics σ Call Reply) (inv : σ → Prop) (post : α → σ → Prop) :
    Program Call Reply α → σ → Prop
  | .pure a, s => post a s
  | .call c next, s => ∀ reply t, exec s c reply t → inv t ∧ Ensures exec inv post (next reply) t

@[simp] theorem ensures_pure {post : α → σ → Prop} {a : α} {s : σ} :
    Ensures exec inv post (Pure.pure a) s ↔ post a s := Iff.rfl

@[simp] theorem ensures_bind {post : β → σ → Prop} {p : Program Call Reply α}
    {f : α → Program Call Reply β} {s : σ} :
    Ensures exec inv post (p >>= f) s ↔
      Ensures exec inv (fun a t => Ensures exec inv post (f a) t) p s := by
  change Ensures exec inv post (bind p f) s ↔ _
  induction p generalizing s with
  | pure a => rfl
  | call c next ih =>
    constructor
    · intro h reply t hexec
      exact ⟨(h reply t hexec).1, (ih reply).mp (h reply t hexec).2⟩
    · intro h reply t hexec
      exact ⟨(h reply t hexec).1, (ih reply).mpr (h reply t hexec).2⟩

theorem Ensures.mono {inv' : σ → Prop} {post post' : α → σ → Prop} {p : Program Call Reply α}
    {s : σ} (hinv : ∀ t, inv t → inv' t) (hpost : ∀ a t, post a t → post' a t)
    (h : Ensures exec inv post p s) : Ensures exec inv' post' p s := by
  induction p generalizing s with
  | pure a => exact hpost a s h
  | call c next ih =>
    intro reply t hexec
    obtain ⟨ht, hnext⟩ := h reply t hexec
    exact ⟨hinv t ht, ih reply hnext⟩

theorem Ensures.executes {post : α → σ → Prop} {p : Program Call Reply α} {s t : σ} {a : α}
    (h : Ensures exec inv post p s) (hrun : Executes exec p s a t) : post a t := by
  induction hrun with
  | pure => exact h
  | call hexec _ ih => exact ih (h _ _ hexec).2

theorem Ensures.invariant {post : α → σ → Prop} {p : Program Call Reply α} {s t : σ} {a : α}
    (h : Ensures exec inv post p s) (hs : inv s) (hrun : Executes exec p s a t) : inv t := by
  induction hrun with
  | pure => exact hs
  | call hexec _ ih =>
    obtain ⟨ht, hnext⟩ := h _ _ hexec
    exact ih hnext ht

end Program

/-! ## Programs that may stop with an error -/

abbrev Attempt (Call Reply ε : Type) := ExceptT ε (Program Call Reply)

namespace Attempt

variable {Call Reply ε α β σ : Type} {exec : Semantics σ Call Reply} {inv : σ → Prop}

/-- The condition of an ending: one for a result, another for an error. -/
def outcome (post : α → σ → Prop) (failed : ε → σ → Prop) : Except ε α → σ → Prop
  | .ok a => post a
  | .error e => failed e

def Ensures (exec : Semantics σ Call Reply) (inv : σ → Prop) (post : α → σ → Prop)
    (failed : ε → σ → Prop) (p : Attempt Call Reply ε α) (s : σ) : Prop :=
  Program.Ensures exec inv (outcome post failed) p.run s

variable {failed : ε → σ → Prop}

@[simp] theorem ensures_pure {post : α → σ → Prop} {a : α} {s : σ} :
    Ensures exec inv post failed (pure a) s ↔ post a s := Iff.rfl

@[simp] theorem ensures_throw {post : α → σ → Prop} {e : ε} {s : σ} :
    Ensures exec inv post failed (throw e) s ↔ failed e s := Iff.rfl

@[simp] theorem ensures_bind {post : β → σ → Prop} {p : Attempt Call Reply ε α}
    {f : α → Attempt Call Reply ε β} {s : σ} :
    Ensures exec inv post failed (p >>= f) s ↔
      Ensures exec inv (fun a t => Ensures exec inv post failed (f a) t) failed p s := by
  change Program.Ensures exec inv _ (p.run >>= _) s ↔ Program.Ensures exec inv _ p.run s
  rw [Program.ensures_bind]
  constructor
  · refine Program.Ensures.mono (fun _ h => h) ?_
    rintro (e | a) t h <;> exact h
  · refine Program.Ensures.mono (fun _ h => h) ?_
    rintro (e | a) t h <;> exact h

@[simp] theorem ensures_ite {post : α → σ → Prop} {c : Prop} [Decidable c]
    {p q : Attempt Call Reply ε α} {s : σ} :
    Ensures exec inv post failed (if c then p else q) s ↔
      if c then Ensures exec inv post failed p s else Ensures exec inv post failed q s := by
  by_cases h : c
  · rw [if_pos h, if_pos h]
  · rw [if_neg h, if_neg h]

/-- The same attempt with its errors renamed. -/
def mapError (f : ε → ε) (p : Attempt Call Reply ε α) : Attempt Call Reply ε α :=
  ExceptT.mk (do
    let r ← p.run
    pure (r.mapError f))

/-- The attempt is made and its result is ignored. -/
def regardless (p : Attempt Call Reply ε α) : Attempt Call Reply ε Unit :=
  ExceptT.mk (do
    let _ ← p.run
    pure (.ok ()))

/-- Whether the attempt ends well. -/
def succeeds (p : Attempt Call Reply ε α) : Attempt Call Reply ε Bool :=
  ExceptT.mk (do
    let r ← p.run
    pure (.ok r.isOk))

@[simp] theorem ensures_mapError {post : α → σ → Prop} {f : ε → ε} {p : Attempt Call Reply ε α}
    {s : σ} : Ensures exec inv post failed (mapError f p) s ↔
      Ensures exec inv post (fun e => failed (f e)) p s := by
  change Program.Ensures exec inv _ (p.run >>= _) s ↔ Program.Ensures exec inv _ p.run s
  rw [Program.ensures_bind]
  constructor
  · refine Program.Ensures.mono (fun _ h => h) ?_
    rintro (e | a) t h <;> exact h
  · refine Program.Ensures.mono (fun _ h => h) ?_
    rintro (e | a) t h <;> exact h

@[simp] theorem ensures_regardless {post : Unit → σ → Prop} {p : Attempt Call Reply ε α} {s : σ} :
    Ensures exec inv post failed (regardless p) s ↔
      Ensures exec inv (fun _ => post ()) (fun _ => post ()) p s := by
  change Program.Ensures exec inv _ (p.run >>= _) s ↔ Program.Ensures exec inv _ p.run s
  rw [Program.ensures_bind]
  constructor
  · refine Program.Ensures.mono (fun _ h => h) ?_
    rintro (e | a) t h <;> exact h
  · refine Program.Ensures.mono (fun _ h => h) ?_
    rintro (e | a) t h <;> exact h

@[simp] theorem ensures_succeeds {post : Bool → σ → Prop} {p : Attempt Call Reply ε α} {s : σ} :
    Ensures exec inv post failed (succeeds p) s ↔
      Ensures exec inv (fun _ => post true) (fun _ => post false) p s := by
  change Program.Ensures exec inv _ (p.run >>= _) s ↔ Program.Ensures exec inv _ p.run s
  rw [Program.ensures_bind]
  constructor
  · refine Program.Ensures.mono (fun _ h => h) ?_
    rintro (e | a) t h <;> exact h
  · refine Program.Ensures.mono (fun _ h => h) ?_
    rintro (e | a) t h <;> exact h

theorem Ensures.mono {inv' : σ → Prop} {post post' : α → σ → Prop} {failed' : ε → σ → Prop}
    {p : Attempt Call Reply ε α} {s : σ} (hinv : ∀ t, inv t → inv' t)
    (hpost : ∀ a t, post a t → post' a t) (hfailed : ∀ e t, failed e t → failed' e t)
    (h : Ensures exec inv post failed p s) : Ensures exec inv' post' failed' p s := by
  refine Program.Ensures.mono hinv ?_ h
  rintro (e | a) t ht
  · exact hfailed e t ht
  · exact hpost a t ht

theorem Ensures.executes {post : α → σ → Prop} {p : Attempt Call Reply ε α} {s t : σ}
    {r : Except ε α} (h : Ensures exec inv post failed p s)
    (hrun : Program.Executes exec p.run s r t) : outcome post failed r t :=
  Program.Ensures.executes h hrun

/-- An attempt that keeps a condition, however it ends. -/
def Keeps (exec : Semantics σ Call Reply) (inv P : σ → Prop) (p : Attempt Call Reply ε α) : Prop :=
  ∀ s, P s → Ensures exec inv (fun _ => P) (fun _ => P) p s

variable {P : σ → Prop}

theorem keeps_pure {a : α} : Keeps exec inv P (pure a : Attempt Call Reply ε α) := fun _ h => h

theorem keeps_throw {e : ε} : Keeps exec inv P (throw e : Attempt Call Reply ε α) := fun _ h => h

theorem Keeps.bind {p : Attempt Call Reply ε α} {f : α → Attempt Call Reply ε β}
    (h : Keeps exec inv P p) (hf : ∀ a, Keeps exec inv P (f a)) : Keeps exec inv P (p >>= f) := by
  intro s hs
  rw [ensures_bind]
  exact (h s hs).mono (fun _ h => h) (fun a t ht => hf a t ht) fun _ _ h => h

theorem Keeps.ite {c : Prop} [Decidable c] {p q : Attempt Call Reply ε α}
    (hp : Keeps exec inv P p) (hq : Keeps exec inv P q) :
    Keeps exec inv P (if c then p else q) := by
  by_cases h : c
  · rw [if_pos h]
    exact hp
  · rw [if_neg h]
    exact hq

theorem Keeps.regardless {p : Attempt Call Reply ε α} (h : Keeps exec inv P p) :
    Keeps exec inv P (regardless p) := by
  intro s hs
  rw [ensures_regardless]
  exact h s hs

theorem Keeps.succeeds {p : Attempt Call Reply ε α} (h : Keeps exec inv P p) :
    Keeps exec inv P (succeeds p) := by
  intro s hs
  rw [ensures_succeeds]
  exact h s hs

theorem Keeps.mapError {p : Attempt Call Reply ε α} (h : Keeps exec inv P p) (f : ε → ε) :
    Keeps exec inv P (mapError f p) := by
  intro s hs
  rw [ensures_mapError]
  exact h s hs

/-- What comes first keeps the condition, and the rest goes on from it. -/
theorem Keeps.then {p : Attempt Call Reply ε α} {f : α → Attempt Call Reply ε β}
    {post : β → σ → Prop} {s : σ} (h : Keeps exec inv P p) (hs : P s)
    (hnext : ∀ a t, P t → Ensures exec inv post failed (f a) t)
    (hfailed : ∀ e t, P t → failed e t) : Ensures exec inv post failed (p >>= f) s := by
  rw [ensures_bind]
  exact (h s hs).mono (fun _ h => h) hnext hfailed

end Attempt

/-! ## A driver and its device -/

/-- A step on the memory of a driver, which may be refused, or a command to its device. -/
inductive Access (σ Cmd : Type)
  | memory (f : σ → Option σ)
  | command (c : Cmd)

namespace Access

variable {σ δ Cmd ε : Type} {device : Semantics δ Cmd Bool}

/-- A refused step on the memory replies `false`, and a command as the device does. -/
inductive Exec (device : Semantics δ Cmd Bool) : Semantics (σ × δ) (Access σ Cmd) Bool
  | memory {m m' d f} : f m = some m' → Exec device (m, d) (.memory f) true (m', d)
  | refused {m d f} : f m = none → Exec device (m, d) (.memory f) false (m, d)
  | command {m d d' c reply} : device d c reply d' →
      Exec device (m, d) (.command c) reply (m, d')

/-- The steps of a driver whose device answers by a function. -/
def answer (reply : δ → Cmd → Bool × δ) : σ × δ → Access σ Cmd → Bool × σ × δ
  | (m, d), .memory f =>
    match f m with
    | some m' => (true, m', d)
    | none => (false, m, d)
  | (m, d), .command c => ((reply d c).1, m, (reply d c).2)

theorem exec_answer {reply : δ → Cmd → Bool × δ}
    (h : ∀ d c, device d c (reply d c).1 (reply d c).2) (s : σ × δ) (c : Access σ Cmd) :
    Exec device s c (answer reply s c).1 (answer reply s c).2 := by
  obtain ⟨m, d⟩ := s
  cases c with
  | memory f =>
    cases hf : f m with
    | some m' =>
      rw [answer, hf]
      exact .memory hf
    | none =>
      rw [answer, hf]
      exact .refused hf
  | command c => exact .command (h d c)

/-- One step on the memory, and whether it was taken. -/
def region (f : σ → Option σ) : Attempt (Access σ Cmd) Bool ε Bool :=
  ExceptT.lift (.make (.memory f))

/-- Whether the memory meets the condition. -/
def test (p : σ → Bool) : Attempt (Access σ Cmd) Bool ε Bool :=
  region fun m => if p m then some m else none

def modify (f : σ → σ) : Attempt (Access σ Cmd) Bool ε Unit := do
  let _ ← region fun m => some (f m)

/-- A command that must succeed. -/
def perform (c : Cmd) (e : ε) : Attempt (Access σ Cmd) Bool ε Unit :=
  ExceptT.mk (.call (.command c) fun reply => .pure (if reply then .ok () else .error e))

/-- A command and its reply. -/
def ask (c : Cmd) : Attempt (Access σ Cmd) Bool ε Bool := ExceptT.lift (.make (.command c))

/-- A command whose reply is ignored. -/
def ignore (c : Cmd) : Attempt (Access σ Cmd) Bool ε Unit := do let _ ← ask c

/-- Stops with the error unless the condition holds. -/
def require (b : Bool) (e : ε) : Attempt (Access σ Cmd) Bool ε Unit :=
  if b then pure () else throw e

/-- What is done only under a condition. -/
def only (b : Bool) (p : Attempt (Access σ Cmd) Bool ε Unit) :
    Attempt (Access σ Cmd) Bool ε Unit :=
  if b then p else pure ()

variable {inv : σ × δ → Prop} {failed : ε → σ × δ → Prop}

open Attempt

@[simp] theorem ensures_region {post : Bool → σ × δ → Prop} {f : σ → Option σ} {s : σ × δ} :
    Ensures (Exec device) inv post failed (region f) s ↔
      (∀ m, f s.1 = some m → inv (m, s.2) ∧ post true (m, s.2)) ∧
        (f s.1 = none → inv s ∧ post false s) := by
  obtain ⟨m, d⟩ := s
  constructor
  · intro h
    constructor
    · intro m' hf
      exact h true (m', d) (.memory hf)
    · intro hf
      exact h false (m, d) (.refused hf)
  · rintro ⟨htaken, hrefused⟩ reply t hexec
    cases hexec with
    | memory hf => exact htaken _ hf
    | refused hf => exact hrefused hf

@[simp] theorem ensures_test {post : Bool → σ × δ → Prop} {p : σ → Bool} {s : σ × δ} :
    Ensures (Exec device) inv post failed (test p) s ↔ inv s ∧ post (p s.1) s := by
  rw [test, ensures_region]
  cases p s.1 <;> simp

@[simp] theorem ensures_modify {post : Unit → σ × δ → Prop} {f : σ → σ} {s : σ × δ} :
    Ensures (Exec device) inv post failed (modify f) s ↔ inv (f s.1, s.2) ∧ post () (f s.1, s.2) := by
  simp [modify]

@[simp] theorem ensures_perform {post : Unit → σ × δ → Prop} {c : Cmd} {e : ε} {s : σ × δ} :
    Ensures (Exec device) inv post failed (perform c e) s ↔
      ∀ reply d, device s.2 c reply d →
        inv (s.1, d) ∧ if reply then post () (s.1, d) else failed e (s.1, d) := by
  obtain ⟨m, d⟩ := s
  constructor
  · intro h reply d' hdevice
    obtain ⟨hinv, hpost⟩ := h reply (m, d') (.command hdevice)
    cases reply <;> exact ⟨hinv, hpost⟩
  · rintro h reply t hexec
    cases hexec with
    | command hdevice =>
      obtain ⟨hinv, hpost⟩ := h reply _ hdevice
      cases reply <;> exact ⟨hinv, hpost⟩

@[simp] theorem ensures_ask {post : Bool → σ × δ → Prop} {c : Cmd} {s : σ × δ} :
    Ensures (Exec device) inv post failed (ask c) s ↔
      ∀ reply d, device s.2 c reply d → inv (s.1, d) ∧ post reply (s.1, d) := by
  obtain ⟨m, d⟩ := s
  constructor
  · intro h reply d' hdevice
    exact h reply (m, d') (.command hdevice)
  · rintro h reply t hexec
    cases hexec with
    | command hdevice => exact h reply _ hdevice

@[simp] theorem ensures_ignore {post : Unit → σ × δ → Prop} {c : Cmd} {s : σ × δ} :
    Ensures (Exec device) inv post failed (ignore c) s ↔
      ∀ reply d, device s.2 c reply d → inv (s.1, d) ∧ post () (s.1, d) := by
  simp only [ignore, ensures_bind, ensures_ask, ensures_pure]

@[simp] theorem ensures_require {post : Unit → σ × δ → Prop} {b : Bool} {e : ε} {s : σ × δ} :
    Ensures (Exec device) inv post failed (require b e) s ↔ if b then post () s else failed e s := by
  cases b <;> rfl

@[simp] theorem ensures_only {post : Unit → σ × δ → Prop} {b : Bool}
    {p : Attempt (Access σ Cmd) Bool ε Unit} {s : σ × δ} :
    Ensures (Exec device) inv post failed (only b p) s ↔
      if b then Ensures (Exec device) inv post failed p s else post () s := by
  cases b <;> rfl

variable {P : σ × δ → Prop}

theorem keeps_test {p : σ → Bool} (hinv : ∀ s, P s → inv s) :
    Keeps (Exec device) inv P (test p : Attempt (Access σ Cmd) Bool ε Bool) := by
  intro s hs
  rw [ensures_test]
  exact ⟨hinv s hs, hs⟩

theorem keeps_modify {f : σ → σ} (h : ∀ m d, P (m, d) → inv (f m, d) ∧ P (f m, d)) :
    Keeps (Exec device) inv P (modify f : Attempt (Access σ Cmd) Bool ε Unit) := by
  intro s hs
  rw [ensures_modify]
  exact h s.1 s.2 hs

theorem keeps_ask {c : Cmd}
    (h : ∀ m d reply d', P (m, d) → device d c reply d' → inv (m, d') ∧ P (m, d')) :
    Keeps (Exec device) inv P (ask c : Attempt (Access σ Cmd) Bool ε Bool) := by
  intro s hs
  rw [ensures_ask]
  intro reply d hdevice
  exact h s.1 s.2 reply d hs hdevice

theorem keeps_perform {c : Cmd} {e : ε}
    (h : ∀ m d reply d', P (m, d) → device d c reply d' → inv (m, d') ∧ P (m, d')) :
    Keeps (Exec device) inv P (perform c e) := by
  intro s hs
  rw [ensures_perform]
  intro reply d hdevice
  obtain ⟨hinv, hP⟩ := h s.1 s.2 reply d hs hdevice
  cases reply <;> exact ⟨hinv, hP⟩

/-- A command that leaves the device as it is keeps any condition. -/
theorem keeps_perform_frame {c : Cmd} {e : ε} (hinv : ∀ s, P s → inv s)
    (hframe : ∀ d reply d', device d c reply d' → d' = d) :
    Keeps (Exec device) inv P (perform c e) := by
  apply keeps_perform
  intro m d reply d' hP hdevice
  rw [hframe d reply d' hdevice]
  exact ⟨hinv _ hP, hP⟩

theorem keeps_ask_frame {c : Cmd} (hinv : ∀ s, P s → inv s)
    (hframe : ∀ d reply d', device d c reply d' → d' = d) :
    Keeps (Exec device) inv P (ask c : Attempt (Access σ Cmd) Bool ε Bool) := by
  apply keeps_ask
  intro m d reply d' hP hdevice
  rw [hframe d reply d' hdevice]
  exact ⟨hinv _ hP, hP⟩

theorem keeps_ignore {c : Cmd}
    (h : Keeps (Exec device) inv P (ask c : Attempt (Access σ Cmd) Bool ε Bool)) :
    Keeps (Exec device) inv P (ignore c : Attempt (Access σ Cmd) Bool ε Unit) :=
  h.bind fun _ => keeps_pure

theorem keeps_require {b : Bool} {e : ε} :
    Keeps (Exec device) inv P (require b e : Attempt (Access σ Cmd) Bool ε Unit) := by
  cases b with
  | true => exact keeps_pure
  | false => exact keeps_throw

theorem keeps_only {b : Bool} {p : Attempt (Access σ Cmd) Bool ε Unit}
    (h : Keeps (Exec device) inv P p) : Keeps (Exec device) inv P (only b p) := by
  cases b with
  | true => exact h
  | false => exact keeps_pure

end Access

end Sidewalk.Lib
