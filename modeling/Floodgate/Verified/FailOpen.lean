import Mathlib.Logic.Basic

/-!
# Fail-open computations under injected faults

A service that must never hold up its caller wraps its work in a catch-all:
whatever is raised inside, the caller gets a fixed answer.  This module has
the three ingredients of reasoning about such a service, over any error type,
state type and set of program points.

* A computation is `Raising ε σ α`: it may raise, and state changes made
  before the raise are kept (`exec`).
* `mayRaise plan pt` marks a program point: it raises when the fault plan says
  so, and does nothing otherwise.
* `failOpen` is the catch-all.

The relation `Weakens x y` says that every normal answer of `x` is the answer
of `y`, state included.  Injecting faults only ever weakens a computation
(`mayRaise_weakens`), and `Weakens` is closed under sequencing
(`Weakens.bind`), so a safety property of normal answers is proved once, for
the computation without faults, and holds at every fault plan.
-/

namespace Floodgate.Verified.FailOpen

variable {ε σ α β ι : Type}

/-- A stateful computation that may raise an `ε`; the state survives. -/
abbrev Raising (ε σ α : Type) := ExceptT ε (StateM σ) α

/-- Run a computation from a state: its answer or error, and the state left. -/
def exec (x : Raising ε σ α) (s : σ) : Except ε α × σ :=
  (ExceptT.run x).run s

/-- Lift a state-free computation. -/
def attempt (x : Except ε α) : Raising ε σ α := ExceptT.mk (pure x)

@[simp] theorem exec_pure (a : α) (s : σ) :
    exec (pure a : Raising ε σ α) s = (.ok a, s) := rfl

@[simp] theorem exec_throw (e : ε) (s : σ) :
    exec (throw e : Raising ε σ α) s = (.error e, s) := rfl

@[simp] theorem exec_attempt (x : Except ε α) (s : σ) :
    exec (attempt x : Raising ε σ α) s = (x, s) := rfl

/-- Sequencing, case by case on the first answer. -/
theorem exec_bind (x : Raising ε σ α) (f : α → Raising ε σ β) (s : σ) :
    exec (x >>= f) s =
      match exec x s with
      | (.ok a, s') => exec (f a) s'
      | (.error e, s') => (.error e, s') := by
  simp only [exec, ExceptT.run_bind, StateT.run_bind]
  rcases h : (ExceptT.run x).run s with ⟨r, s'⟩
  cases r with
  | ok a => rfl
  | error e => rfl

/-- Sequencing after a normal answer. -/
theorem exec_bind_ok {x : Raising ε σ α} {f : α → Raising ε σ β} {s s' : σ}
    {a : α} (h : exec x s = (.ok a, s')) :
    exec (x >>= f) s = exec (f a) s' := by
  rw [exec_bind, h]

/-- A normal answer of a sequence goes through a normal answer of its head. -/
theorem exec_bind_eq_ok {x : Raising ε σ α} {f : α → Raising ε σ β} {s s' : σ}
    {b : β} (h : exec (x >>= f) s = (.ok b, s')) :
    ∃ a t, exec x s = (.ok a, t) ∧ exec (f a) t = (.ok b, s') := by
  rw [exec_bind] at h
  rcases hx : exec x s with ⟨r, t⟩
  rw [hx] at h
  cases r with
  | ok a => exact ⟨a, t, rfl, h⟩
  | error e => simp at h

/-! ## Fault points -/

/-- A program point: raise what the plan says, or go on. -/
def mayRaise (plan : ι → Option ε) (pt : ι) : Raising ε σ Unit :=
  match plan pt with
  | some e => throw e
  | none => pure ()

/-- The plan that never raises. -/
def noFault : ι → Option ε := fun _ => none

@[simp] theorem exec_mayRaise_noFault (pt : ι) (s : σ) :
    exec (mayRaise noFault pt : Raising ε σ Unit) s = (.ok (), s) := rfl

/-- Every normal answer of `x`, with its state, is the answer of `y`. -/
def Weakens (x y : Raising ε σ α) : Prop :=
  ∀ s a s', exec x s = (.ok a, s') → exec y s = (.ok a, s')

theorem Weakens.refl (x : Raising ε σ α) : Weakens x x := fun _ _ _ h => h

/-- Sequencing keeps the order. -/
theorem Weakens.bind {x y : Raising ε σ α} {f g : α → Raising ε σ β}
    (hxy : Weakens x y) (hfg : ∀ a, Weakens (f a) (g a)) :
    Weakens (x >>= f) (y >>= g) := by
  intro s b s' h
  obtain ⟨a, t, hx, hf⟩ := exec_bind_eq_ok h
  rw [exec_bind_ok (hxy s a t hx)]
  exact hfg a t b s' hf

/-- A fault point weakens the same point under the plan that never raises. -/
theorem mayRaise_weakens (plan : ι → Option ε) (pt : ι) :
    Weakens (mayRaise plan pt : Raising ε σ Unit) (mayRaise noFault pt) := by
  intro s a s' h
  cases hp : plan pt with
  | none => simpa [mayRaise, hp, noFault] using h
  | some e => simp [mayRaise, hp] at h

/-- A fault point in front of a computation weakens the computation behind
the same point without faults. -/
theorem Weakens.after_point (plan : ι → Option ε) (pt : ι)
    {x y : Raising ε σ β} (h : Weakens x y) :
    Weakens (mayRaise plan pt >>= fun _ => x)
      (mayRaise noFault pt >>= fun _ => y) :=
  (mayRaise_weakens plan pt).bind fun _ => h

/-! ## The catch-all -/

/-- Answer what `x` answers; when it raises, run the handler on the state the
raise left behind. -/
def failOpen (x : Raising ε σ α) (handler : ε → σ → α × σ) (s : σ) : α × σ :=
  match exec x s with
  | (.ok a, s') => (a, s')
  | (.error e, s') => handler e s'

theorem failOpen_ok {x : Raising ε σ α} {handler : ε → σ → α × σ} {s s' : σ}
    {a : α} (h : exec x s = (.ok a, s')) : failOpen x handler s = (a, s') := by
  rw [failOpen, h]

theorem failOpen_error {x : Raising ε σ α} {handler : ε → σ → α × σ} {s s' : σ}
    {e : ε} (h : exec x s = (.error e, s')) :
    failOpen x handler s = handler e s' := by
  rw [failOpen, h]

/-- The answer of a weakened computation behind a catch-all is the answer of
the computation itself, or comes from the handler. -/
theorem failOpen_of_weakens {x y : Raising ε σ α} (hxy : Weakens x y)
    (handler : ε → σ → α × σ) (s : σ) :
    (∃ a s', exec y s = (.ok a, s') ∧ failOpen x handler s = (a, s')) ∨
      (∃ e s', exec x s = (.error e, s') ∧
        failOpen x handler s = handler e s') := by
  rcases hx : exec x s with ⟨r, s'⟩
  cases r with
  | ok a => exact Or.inl ⟨a, s', hxy s a s' hx, failOpen_ok hx⟩
  | error e => exact Or.inr ⟨e, s', rfl, failOpen_error hx⟩

end Floodgate.Verified.FailOpen
