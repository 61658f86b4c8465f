import Mathlib.Data.List.Basic

/-!
# Chains of filters

A filter looks at a message and at its own state, and delivers a message, the
same or another, or denies it.  Messages travel through a chain of filters; a
denied message goes no further.  The state is threaded through, so that filters
may count and log, and nothing is assumed about it.

The question about such a chain is when more filters stop making a difference.
A filter *fixes* a message when it delivers it unchanged from every state.

## Main results

* `Fixes.chain_replicate`: any number of passes over a fixed message.
* `chain_replicate_of_settles`: a filter the output of which it fixes does after
  any number of passes what it does after one.
-/

namespace Floodgate.Verified.Passes

variable {α σ : Type}

/-- What a filter does: `none` is a denial. -/
abbrev Filter (α σ : Type) := α → σ → Option α × σ

/-- A message on its way through a chain of filters. -/
def chain : List (Filter α σ) → Filter α σ
  | [], a, s => (some a, s)
  | f :: fs, a, s =>
      match f a s with
      | (some b, s') => chain fs b s'
      | (none, s') => (none, s')

/-- The filter delivers the message unchanged. -/
def Fixes (f : Filter α σ) (a : α) : Prop := ∀ s, (f a s).1 = some a

theorem chain_cons_of_some {f : Filter α σ} {fs : List (Filter α σ)} {a b : α} {s : σ}
    (h : (f a s).1 = some b) : chain (f :: fs) a s = chain fs b (f a s).2 := by
  rcases hf : f a s with ⟨_ | c, s'⟩
  · rw [hf] at h
    cases h
  · rw [hf] at h
    obtain rfl : c = b := Option.some.inj h
    simp [chain, hf]

theorem chain_cons_of_none {f : Filter α σ} {fs : List (Filter α σ)} {a : α} {s : σ}
    (h : (f a s).1 = none) : (chain (f :: fs) a s).1 = none := by
  rcases hf : f a s with ⟨_ | c, s'⟩
  · simp [chain, hf]
  · rw [hf] at h
    cases h

/-- Filters that fix a message deliver it. -/
theorem chain_of_fixes {fs : List (Filter α σ)} {a : α} (h : ∀ f ∈ fs, Fixes f a) (s : σ) :
    (chain fs a s).1 = some a := by
  induction fs generalizing s with
  | nil => rfl
  | cons f fs ih =>
      rw [chain_cons_of_some (h f List.mem_cons_self s)]
      exact ih (fun g hg => h g (List.mem_cons_of_mem f hg)) _

/-- Passes of one filter over a message that it fixes. -/
theorem Fixes.chain_replicate {f : Filter α σ} {a : α} (h : Fixes f a) (n : Nat) (s : σ) :
    (chain (List.replicate n f) a s).1 = some a :=
  chain_of_fixes (fun _ hg => List.eq_of_mem_replicate hg ▸ h) s

/-- When a filter fixes whatever it delivers for a message, every pass after the first
delivers what the first one did. -/
theorem chain_replicate_of_settles {f : Filter α σ} {a : α} {s : σ}
    (h : ∀ b, (f a s).1 = some b → Fixes f b) (n : Nat) :
    (chain (List.replicate (n + 1) f) a s).1 = (f a s).1 := by
  rw [List.replicate_succ]
  cases hf : (f a s).1 with
  | none => exact chain_cons_of_none hf
  | some b =>
      rw [chain_cons_of_some hf]
      exact (h b hf).chain_replicate n _

end Floodgate.Verified.Passes
