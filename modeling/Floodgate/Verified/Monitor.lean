import Mathlib.Logic.Function.Basic
import Floodgate.Verified.AtomicObject
import Floodgate.Verified.Code

/-!
# Monitors

A monitor is an object whose methods run under one lock.  A method's code is a
sequence of primitive accesses to the shared state, and the scheduler may switch
threads between any two of them.  A thread calls a method, waits for the lock, takes
it, makes its accesses, releases it and returns.

The atomic object has the same methods, each of them in one step.  Every interleaving
of the monitor's accesses looks like a run of the atomic object: the calls and returns
are the same, with the same results, in the same order.  The step of the atomic object
is where the lock is taken, between the call and the return, so that an outsider who
sees calls and returns cannot tell the two apart.

## Main results

* `Monitor.exclusive`: only the thread that has the lock is in a critical section.
* `Monitor.simulation`: the monitor refines the atomic object.
* `Monitor.exists_release`: whoever has the lock can release it by its own steps.
-/

namespace Floodgate.Verified.Monitor

open Transition
open AtomicObject (Observation object)

/-! ## Threads -/

/-- Where a thread is: outside, before the lock, in the critical section with some
code left, or past it with a result. -/
inductive Phase (σ ι ρ : Type) where
  | idle
  | waiting (method : ι)
  | inside (method : ι) (code : Code σ ρ)
  | returning (method : ι) (result : ρ)

/-- The shared state, the thread that has the lock, and where the threads are. -/
structure State (σ τ ι ρ : Type) where
  shared : σ
  lock : Option τ
  phase : τ → Phase σ ι ρ

/-- What a thread does in one step. -/
inductive Label (τ ι ρ : Type) where
  | call (thread : τ) (method : ι)
  | acquire (thread : τ)
  | access (thread : τ)
  | release (thread : τ)
  | ret (thread : τ) (method : ι) (result : ρ)

/-- An outsider sees calls and returns. -/
def Label.observe {τ ι ρ : Type} : Label τ ι ρ → Option (Observation τ ι ρ)
  | .call t m => some (.call t m)
  | .ret t m r => some (.ret t m r)
  | .acquire _ | .access _ | .release _ => none

section Threads

variable {σ τ ι ρ : Type} [DecidableEq τ]

/-- Put a thread somewhere else. -/
def State.move (s : State σ τ ι ρ) (t : τ) (p : Phase σ ι ρ) : State σ τ ι ρ :=
  { s with phase := Function.update s.phase t p }

/-- A step of the monitor whose methods have the given bodies.  The lock is taken only
when it is free, and given back when no code is left. -/
inductive Step (body : ι → Code σ ρ) : State σ τ ι ρ → Label τ ι ρ → State σ τ ι ρ → Prop
  | call {s : State σ τ ι ρ} {t : τ} (m : ι) (hphase : s.phase t = .idle) :
      Step body s (.call t m) (s.move t (.waiting m))
  | acquire {s : State σ τ ι ρ} {t : τ} {m : ι} (hphase : s.phase t = .waiting m)
      (hfree : s.lock = none) :
      Step body s (.acquire t) { s.move t (.inside m (body m)) with lock := some t }
  | access {s : State σ τ ι ρ} {t : τ} {m : ι} {update : σ → σ} {next : σ → Code σ ρ}
      (hphase : s.phase t = .inside m (.access update next)) :
      Step body s (.access t)
        { s.move t (.inside m (next s.shared)) with shared := update s.shared }
  | release {s : State σ τ ι ρ} {t : τ} {m : ι} {r : ρ}
      (hphase : s.phase t = .inside m (.done r)) :
      Step body s (.release t) { s.move t (.returning m r) with lock := none }
  | ret {s : State σ τ ι ρ} {t : τ} {m : ι} {r : ρ} (hphase : s.phase t = .returning m r) :
      Step body s (.ret t m r) (s.move t .idle)

/-- The monitor: all threads start outside, with the lock free. -/
def monitor (body : ι → Code σ ρ) (s₀ : σ) : System (State σ τ ι ρ) (Label τ ι ρ) where
  initial s := s = ⟨s₀, none, fun _ => .idle⟩
  step := Step body

/-! ## Mutual exclusion -/

/-- A thread is in its critical section. -/
def State.Inside (s : State σ τ ι ρ) (t : τ) : Prop := ∃ m code, s.phase t = .inside m code

omit [DecidableEq τ] in
theorem State.inside_congr {s s' : State σ τ ι ρ} {t : τ} (h : s'.phase t = s.phase t) :
    s'.Inside t ↔ s.Inside t := by
  rw [State.Inside, State.Inside, h]

/-- The threads in their critical sections are the one that has the lock. -/
def Exclusive (s : State σ τ ι ρ) : Prop := ∀ t, s.Inside t ↔ s.lock = some t

theorem State.inside_move_of_ne {s : State σ τ ι ρ} {t t' : τ} {p : Phase σ ι ρ}
    (h : t' ≠ t) : (s.move t p).Inside t' ↔ s.Inside t' :=
  State.inside_congr (Function.update_of_ne h _ _)

theorem State.inside_move_self_iff {s : State σ τ ι ρ} {t : τ} {p : Phase σ ι ρ} :
    (s.move t p).Inside t ↔ ∃ m code, p = .inside m code := by
  rw [State.Inside, State.move]
  simp

/-- A thread that moves between two places outside keeps the exclusion. -/
theorem Exclusive.move {s : State σ τ ι ρ} (h : Exclusive s) {t : τ} {p : Phase σ ι ρ}
    (hp : (s.move t p).Inside t ↔ s.Inside t) : Exclusive (s.move t p) := by
  intro t'
  by_cases ht : t' = t
  · rw [ht, hp]
    exact h t
  · rw [State.inside_move_of_ne ht]
    exact h t'

theorem exclusive_step {body : ι → Code σ ρ} {s s' : State σ τ ι ρ} {l : Label τ ι ρ}
    (hstep : Step body s l s') (h : Exclusive s) : Exclusive s' := by
  cases hstep with
  | call m hphase =>
      apply h.move
      rw [State.inside_move_self_iff, State.Inside, hphase]
      simp
  | @acquire t m hphase hfree =>
      intro t'
      by_cases ht : t' = t
      · subst ht
        exact iff_of_true ⟨m, body m, Function.update_self ..⟩ rfl
      · have hout : ¬s.Inside t' := by
          rw [h t', hfree]
          simp
        refine iff_of_false (fun hin => hout ((State.inside_move_of_ne ht).mp hin)) ?_
        exact fun heq => ht (Option.some.inj heq).symm
  | @access t m update next hphase =>
      refine @Exclusive.move _ _ _ _ _ s h t (.inside m (next s.shared)) ?_
      rw [State.inside_move_self_iff, State.Inside, hphase]
      simp
  | @release t m r hphase =>
      have hlock : s.lock = some t := (h t).mp ⟨m, .done r, hphase⟩
      intro t'
      refine iff_of_false ?_ (by simp)
      by_cases ht : t' = t
      · subst ht
        rintro ⟨m', code, hcode⟩
        simp [State.move] at hcode
      · intro hin
        have hlock' := (h t').mp ((State.inside_move_of_ne ht).mp hin)
        exact ht (Option.some.inj (hlock'.symm.trans hlock))
  | ret hphase =>
      apply h.move
      rw [State.inside_move_self_iff, State.Inside, hphase]
      simp

omit [DecidableEq τ] in
theorem exclusive_initial (s₀ : σ) :
    Exclusive (⟨s₀, none, fun _ => .idle⟩ : State σ τ ι ρ) := by
  intro t
  refine iff_of_false ?_ (by simp)
  rintro ⟨m, code, hcode⟩
  cases hcode

theorem exclusive_reachable {body : ι → Code σ ρ} {s₀ : σ} {s : State σ τ ι ρ}
    (h : (monitor body s₀).Reachable s) : Exclusive s := by
  refine System.invariant_of_step ?_ (fun _ _ _ => exclusive_step) h
  rintro _ rfl
  exact exclusive_initial s₀

/-- Two threads are never in their critical sections at once. -/
theorem exclusive {body : ι → Code σ ρ} {s₀ : σ} {s : State σ τ ι ρ}
    (h : (monitor body s₀).Reachable s) {t t' : τ} (ht : s.Inside t) (ht' : s.Inside t') :
    t = t' := by
  have hex := exclusive_reachable h
  exact Option.some.inj (((hex t).mp ht).symm.trans ((hex t').mp ht'))

/-- Code that is left runs to its end without another thread's help, and then the lock
is free. -/
theorem exists_release {body : ι → Code σ ρ} {s₀ : σ} {s : State σ τ ι ρ} {t : τ} {m : ι}
    {code : Code σ ρ} (hphase : s.phase t = .inside m code) :
    ∃ ls s', (monitor body s₀).Run s ls s' ∧ (∀ l ∈ ls, l = .access t ∨ l = .release t) ∧
      s'.lock = none ∧ s'.shared = (code.run s.shared).2 ∧
        s'.phase t = .returning m (code.run s.shared).1 := by
  induction code generalizing s with
  | done r =>
      refine ⟨[.release t], _, .single (.release hphase), ?_, rfl, rfl, Function.update_self ..⟩
      intro l hl
      exact Or.inr (List.mem_singleton.mp hl)
  | access update next ih =>
      obtain ⟨ls, s', hrun, hlabels, hlock, hshared, hdone⟩ := @ih s.shared
        { s.move t (.inside m (next s.shared)) with shared := update s.shared }
        (Function.update_self ..)
      refine ⟨.access t :: ls, s', .cons (.access hphase) hrun, ?_, hlock, hshared, hdone⟩
      intro l hl
      rcases List.mem_cons.mp hl with rfl | hl
      · exact Or.inl rfl
      · exact hlabels l hl

/-! ## The refinement -/

/-- Where a thread of the monitor is in the atomic object: in its critical section it
has already performed what its code will come to. -/
def Phase.atomic (shared : σ) : Phase σ ι ρ → AtomicObject.Phase ι ρ
  | .idle => .idle
  | .waiting m => .waiting m
  | .inside m code => .returning m (code.run shared).1
  | .returning m r => .returning m r

/-- The shared state once the critical section is over. -/
def State.settled (s : State σ τ ι ρ) : σ :=
  match s.lock.map s.phase with
  | some (.inside _ code) => (code.run s.shared).2
  | _ => s.shared

/-- The state of the atomic object that a state of the monitor stands for. -/
def State.atomic (s : State σ τ ι ρ) : AtomicObject.State σ τ ι ρ :=
  ⟨s.settled, Phase.atomic s.shared ∘ s.phase⟩

omit [DecidableEq τ] in
theorem State.settled_of_free {s : State σ τ ι ρ} (h : s.lock = none) :
    s.settled = s.shared := by
  rw [State.settled, h]
  rfl

omit [DecidableEq τ] in
theorem State.settled_of_inside {s : State σ τ ι ρ} {t : τ} {m : ι} {code : Code σ ρ}
    (hlock : s.lock = some t) (hphase : s.phase t = .inside m code) :
    s.settled = (code.run s.shared).2 := by
  rw [State.settled, hlock, Option.map_some, hphase]

/-- A thread outside moves without a change of what the shared state comes to. -/
theorem State.atomic_move {s : State σ τ ι ρ} {t : τ} {p : Phase σ ι ρ}
    (h : s.lock ≠ some t) :
    (s.move t p).atomic =
      ⟨s.atomic.shared, Function.update s.atomic.phase t (p.atomic s.shared)⟩ := by
  have hsettled : (s.move t p).settled = s.settled := by
    cases hlock : s.lock with
    | none =>
        rw [State.settled_of_free hlock, State.settled_of_free (by exact hlock)]
        rfl
    | some t' =>
        have hne : t' ≠ t := fun heq => h (hlock.trans (congrArg some heq))
        have hphase : (s.move t p).phase t' = s.phase t' := Function.update_of_ne hne _ _
        have hlock' : (s.move t p).lock = some t' := hlock
        rw [State.settled, State.settled, hlock, hlock', Option.map_some, Option.map_some,
          hphase]
        rfl
  have hphases : Phase.atomic s.shared ∘ (s.move t p).phase =
      Function.update (Phase.atomic s.shared ∘ s.phase) t (p.atomic s.shared) :=
    Function.comp_update _ _ _ _
  show AtomicObject.State.mk _ _ = _
  rw [hsettled]
  exact congrArg _ hphases

/-- Where a thread outside is does not depend on the shared state. -/
theorem Phase.atomic_of_outside {p : Phase σ ι ρ} (h : ∀ m code, p ≠ .inside m code)
    (shared shared' : σ) : p.atomic shared = p.atomic shared' := by
  cases p with
  | inside m code => exact absurd rfl (h m code)
  | idle | waiting m | returning m r => rfl

/-- Taking the lock is the step of the atomic object. -/
theorem State.atomic_acquire {body : ι → Code σ ρ} {s : State σ τ ι ρ} {t : τ} {m : ι}
    (hfree : s.lock = none) :
    ({ s.move t (.inside m (body m)) with lock := some t } : State σ τ ι ρ).atomic =
      ⟨((body m).run s.atomic.shared).2,
        Function.update s.atomic.phase t (.returning m ((body m).run s.atomic.shared).1)⟩ := by
  have hshared : s.atomic.shared = s.shared := State.settled_of_free hfree
  have hsettled : ({ s.move t (.inside m (body m)) with lock := some t } :
      State σ τ ι ρ).settled = ((body m).run s.shared).2 :=
    State.settled_of_inside rfl (Function.update_self ..)
  have hphases : Phase.atomic s.shared ∘ (s.move t (.inside m (body m))).phase =
      Function.update (Phase.atomic s.shared ∘ s.phase) t
        (.returning m ((body m).run s.shared).1) :=
    Function.comp_update _ _ _ _
  show AtomicObject.State.mk _ _ = _
  rw [hshared, hsettled]
  exact congrArg _ hphases

/-- An access does not change what the critical section comes to. -/
theorem State.atomic_access {s : State σ τ ι ρ} (h : Exclusive s) {t : τ} {m : ι}
    {update : σ → σ} {next : σ → Code σ ρ}
    (hphase : s.phase t = .inside m (.access update next)) :
    ({ s.move t (.inside m (next s.shared)) with shared := update s.shared } :
      State σ τ ι ρ).atomic = s.atomic := by
  have hlock : s.lock = some t := (h t).mp ⟨m, _, hphase⟩
  have hsettled : ({ s.move t (.inside m (next s.shared)) with shared := update s.shared } :
      State σ τ ι ρ).settled = s.settled := by
    rw [State.settled_of_inside hlock hphase]
    exact State.settled_of_inside hlock (Function.update_self ..)
  have hphases : Phase.atomic (update s.shared) ∘
      (s.move t (.inside m (next s.shared))).phase = Phase.atomic s.shared ∘ s.phase := by
    funext t'
    by_cases ht : t' = t
    · subst ht
      simp [State.move, hphase, Phase.atomic, Code.run]
    · have hout : ∀ m' code, s.phase t' ≠ .inside m' code := by
        intro m' code hin
        exact ht (Option.some.inj (((h t').mp ⟨m', code, hin⟩).symm.trans hlock))
      simp only [Function.comp_apply, State.move, Function.update_of_ne ht]
      exact Phase.atomic_of_outside hout _ _
  show AtomicObject.State.mk _ _ = AtomicObject.State.mk _ _
  rw [hsettled]
  exact congrArg _ hphases

/-- Giving the lock back changes nothing. -/
theorem State.atomic_release {s : State σ τ ι ρ} (h : Exclusive s) {t : τ} {m : ι} {r : ρ}
    (hphase : s.phase t = .inside m (.done r)) :
    ({ s.move t (.returning m r) with lock := none } : State σ τ ι ρ).atomic = s.atomic := by
  have hlock : s.lock = some t := (h t).mp ⟨m, _, hphase⟩
  have hsettled : ({ s.move t (.returning m r) with lock := none } :
      State σ τ ι ρ).settled = s.settled := by
    rw [State.settled_of_inside hlock hphase, State.settled_of_free rfl]
    rfl
  have hphases : Phase.atomic s.shared ∘ (s.move t (.returning m r)).phase =
      Phase.atomic s.shared ∘ s.phase := by
    funext t'
    by_cases ht : t' = t
    · subst ht
      simp [State.move, hphase, Phase.atomic, Code.run]
    · simp [State.move, Function.update_of_ne ht]
  show AtomicObject.State.mk _ _ = AtomicObject.State.mk _ _
  rw [hsettled]
  exact congrArg _ hphases

omit [DecidableEq τ] in
/-- A thread outside its critical section does not have the lock. -/
theorem Exclusive.lock_ne {s : State σ τ ι ρ} (h : Exclusive s) {t : τ} {p : Phase σ ι ρ}
    (hphase : s.phase t = p) (hp : ∀ m code, p ≠ .inside m code) : s.lock ≠ some t := by
  intro hlock
  obtain ⟨m, code, hin⟩ := (h t).mpr hlock
  exact hp m code (hphase.symm.trans hin)

/-- The monitor refines the atomic object whose methods do what the bodies come to. -/
theorem simulation {body : ι → Code σ ρ} {spec : ι → σ → ρ × σ} (s₀ : σ)
    (hspec : ∀ m s, (body m).run s = spec m s) :
    Simulation (@monitor σ τ ι ρ _ body s₀) (object spec s₀) Label.observe
      AtomicObject.Label.observe
      fun s a => Exclusive s ∧ a = s.atomic where
  initial := by
    rintro _ rfl
    exact ⟨_, rfl, exclusive_initial s₀, rfl⟩
  step := by
    rintro s l s' _ hstep ⟨hex, rfl⟩
    have hex' := exclusive_step hstep hex
    cases hstep with
    | @call t m hphase =>
        have hout : s.lock ≠ some t := hex.lock_ne hphase (by simp)
        refine ⟨[.call t m], (s.move t (.waiting m)).atomic, ?_, ⟨hex', rfl⟩, rfl⟩
        rw [State.atomic_move hout]
        exact .single (.call m (by simp [State.atomic, hphase, Phase.atomic]))
    | @acquire t m hphase hfree =>
        refine ⟨[.perform t m (spec m s.atomic.shared).1], _, ?_, ⟨hex', rfl⟩, rfl⟩
        rw [State.atomic_acquire hfree, hspec]
        exact .single (.perform (by simp [State.atomic, hphase, Phase.atomic]))
    | access hphase =>
        exact ⟨[], _, .nil _, ⟨hex', (State.atomic_access hex hphase).symm⟩, rfl⟩
    | release hphase =>
        exact ⟨[], _, .nil _, ⟨hex', (State.atomic_release hex hphase).symm⟩, rfl⟩
    | @ret t m r hphase =>
        have hout : s.lock ≠ some t := hex.lock_ne hphase (by simp)
        refine ⟨[.ret t m r], (s.move t .idle).atomic, ?_, ⟨hex', rfl⟩, rfl⟩
        rw [State.atomic_move hout]
        exact .single (.ret (by simp [State.atomic, hphase, Phase.atomic]))

end Threads

end Floodgate.Verified.Monitor
