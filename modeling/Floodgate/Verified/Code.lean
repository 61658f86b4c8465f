import Mathlib.Logic.Function.Basic

/-!
# Code on a shared state

Code makes primitive accesses to a shared state, one after the other.  What it comes to
when nobody else accesses the state is its run; threads that run code may be switched
between any two accesses.

## Main results

* `Code.run_bind`: what code does when nobody interferes.
-/

namespace Floodgate.Verified

/-- Code that makes primitive accesses to a shared state: an access updates the state
and goes on by what the state was. -/
inductive Code (σ α : Type) where
  | done (a : α)
  | access (update : σ → σ) (next : σ → Code σ α)

namespace Code

variable {σ α β γ κ : Type}

def bind : Code σ α → (α → Code σ β) → Code σ β
  | done a, f => f a
  | access update next, f => access update fun s => (next s).bind f

instance : Monad (Code σ) where
  pure := done
  bind := bind

/-- Read something of the state. -/
def read (f : σ → α) : Code σ α := access id fun s => done (f s)

/-- Change the state. -/
def write (f : σ → σ) : Code σ Unit := access f fun _ => done ()

/-- The result of code that nobody interferes with, and the state it leaves. -/
def run : Code σ α → σ → α × σ
  | done a, s => (a, s)
  | access update next, s => (next s).run (update s)

theorem bind_done (x : Code σ α) : x.bind done = x := by
  induction x with
  | done a => rfl
  | access update next ih =>
      rw [bind]
      exact congrArg (access update) (funext ih)

theorem bind_bind (x : Code σ α) (f : α → Code σ β) (g : β → Code σ γ) :
    (x.bind f).bind g = x.bind fun a => (f a).bind g := by
  induction x with
  | done a => rfl
  | access update next ih =>
      rw [bind, bind, bind]
      exact congrArg (access update) (funext ih)

instance : LawfulMonad (Code σ) :=
  LawfulMonad.mk' _ bind_done (fun _ _ => rfl) bind_bind

@[simp] theorem run_pure (a : α) (s : σ) : (pure a : Code σ α).run s = (a, s) := rfl

@[simp] theorem run_read (f : σ → α) (s : σ) : (read f).run s = (f s, s) := rfl

@[simp] theorem run_write (f : σ → σ) (s : σ) : (write f).run s = ((), f s) := rfl

@[simp] theorem run_bind (x : Code σ α) (f : α → Code σ β) (s : σ) :
    (x >>= f).run s = (f (x.run s).1).run (x.run s).2 := by
  induction x generalizing s with
  | done a => rfl
  | access update next ih => exact ih s (update s)

@[simp] theorem run_map (f : α → β) (x : Code σ α) (s : σ) :
    (f <$> x).run s = (f (x.run s).1, (x.run s).2) := by
  rw [map_eq_pure_bind, run_bind, run_pure]

/-- Reads in a row see one state. -/
@[simp] theorem run_mapM_read (f : κ → σ → α) (ks : List κ) (s : σ) :
    (ks.mapM fun k => read (f k)).run s = (ks.map fun k => f k s, s) := by
  induction ks with
  | nil => rfl
  | cons k ks ih => simp [ih]

/-- Writes in a row. -/
@[simp] theorem run_forM_write (f : κ → σ → σ) (ks : List κ) (s : σ) :
    (forM ks fun k => write (f k)).run s = ((), ks.foldl (fun s k => f k s) s) := by
  induction ks generalizing s with
  | nil => rfl
  | cons k ks ih => simp [ih]

/-- The code changes nothing, when nobody interferes. -/
def ReadOnly (x : Code σ α) : Prop := ∀ s, (x.run s).2 = s

theorem readOnly_pure (a : α) : (pure a : Code σ α).ReadOnly := fun _ => rfl

theorem ReadOnly.bind {x : Code σ α} {f : α → Code σ β} (hx : x.ReadOnly)
    (hf : ∀ a, (f a).ReadOnly) : (x >>= f).ReadOnly := fun s => by
  rw [run_bind, hf, hx]

end Code

end Floodgate.Verified
