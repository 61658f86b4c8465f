import Mathlib.Logic.Function.Basic
import Mathlib.Order.Basic
import Mathlib.Data.List.Perm.Basic
import Floodgate.Verified.Transition

/-!
# Atomic objects

An atomic object is shared by threads, and each of its methods happens at one moment
between its call and its return.  What the object does is a function from the state to
a result and the next state.

An outsider sees the calls and the returns.  Every result that is returned was
performed once, by the thread that returns it; and when a method reads something that
only grows, a read that was called after another had returned reads at least as much.

## Main results

* `legal_of_run`: the methods that were performed, one after the other, lead to the
  state.
* `returned_append_pending`: what a thread returned or is about to return is what it
  performed.
* `Readout.monotone`: reads in real-time order are monotone.
-/

namespace Floodgate.Verified.AtomicObject

open Transition

/-- A call or a return. -/
inductive Observation (τ ι ρ : Type) where
  | call (thread : τ) (method : ι)
  | ret (thread : τ) (method : ι) (result : ρ)

/-- Where a thread is: outside, past its call, or before its return. -/
inductive Phase (ι ρ : Type) where
  | idle
  | waiting (method : ι)
  | returning (method : ι) (result : ρ)

structure State (σ τ ι ρ : Type) where
  shared : σ
  phase : τ → Phase ι ρ

/-- What a thread does in one step. -/
inductive Label (τ ι ρ : Type) where
  | call (thread : τ) (method : ι)
  | perform (thread : τ) (method : ι) (result : ρ)
  | ret (thread : τ) (method : ι) (result : ρ)

variable {σ τ ι ρ α : Type}

/-- An outsider sees calls and returns. -/
def Label.observe : Label τ ι ρ → Option (Observation τ ι ρ)
  | .call t m => some (.call t m)
  | .ret t m r => some (.ret t m r)
  | .perform _ _ _ => none

/-- The methods that some steps performed. -/
def performed (ls : List (Label τ ι ρ)) : List (τ × ι × ρ) :=
  ls.filterMap fun l => match l with
    | .perform t m r => some (t, m, r)
    | .call _ _ | .ret _ _ _ => none

/-- The results that were returned. -/
def returned (os : List (Observation τ ι ρ)) : List (τ × ι × ρ) :=
  os.filterMap fun o => match o with
    | .ret t m r => some (t, m, r)
    | .call _ _ => none

theorem performed_append (ls ls' : List (Label τ ι ρ)) :
    performed (ls ++ ls') = performed ls ++ performed ls' := List.filterMap_append

theorem returned_append (os os' : List (Observation τ ι ρ)) :
    returned (os ++ os') = returned os ++ returned os' := List.filterMap_append

/-- Methods performed one after the other, with their results. -/
inductive Legal (spec : ι → σ → ρ × σ) : σ → List (τ × ι × ρ) → σ → Prop
  | nil (s : σ) : Legal spec s [] s
  | cons {s s' : σ} (t : τ) (m : ι) {calls : List (τ × ι × ρ)}
      (h : Legal spec (spec m s).2 calls s') : Legal spec s ((t, m, (spec m s).1) :: calls) s'

/-- A result is what its method gives in some state. -/
theorem Legal.exists_state {spec : ι → σ → ρ × σ} {s s' : σ} {calls : List (τ × ι × ρ)}
    (h : Legal spec s calls s') {t : τ} {m : ι} {r : ρ} (hmem : (t, m, r) ∈ calls) :
    ∃ u, r = (spec m u).1 := by
  induction h with
  | nil s => exact absurd hmem List.not_mem_nil
  | @cons s s' t' m' calls _ ih =>
      rcases List.mem_cons.mp hmem with heq | hmem
      · cases heq
        exact ⟨s, rfl⟩
      · exact ih hmem

variable [DecidableEq τ]

/-- A step of the object. -/
inductive Step (spec : ι → σ → ρ × σ) : State σ τ ι ρ → Label τ ι ρ → State σ τ ι ρ → Prop
  | call {s : State σ τ ι ρ} {t : τ} (m : ι) (hphase : s.phase t = .idle) :
      Step spec s (.call t m) ⟨s.shared, Function.update s.phase t (.waiting m)⟩
  | perform {s : State σ τ ι ρ} {t : τ} {m : ι} (hphase : s.phase t = .waiting m) :
      Step spec s (.perform t m (spec m s.shared).1)
        ⟨(spec m s.shared).2,
          Function.update s.phase t (.returning m (spec m s.shared).1)⟩
  | ret {s : State σ τ ι ρ} {t : τ} {m : ι} {r : ρ} (hphase : s.phase t = .returning m r) :
      Step spec s (.ret t m r) ⟨s.shared, Function.update s.phase t .idle⟩

/-- The object: all threads start outside. -/
def object (spec : ι → σ → ρ × σ) (s₀ : σ) : System (State σ τ ι ρ) (Label τ ι ρ) where
  initial s := s = ⟨s₀, fun _ => .idle⟩
  step := Step spec

variable {spec : ι → σ → ρ × σ} {s₀ : σ} {s s' : State σ τ ι ρ} {ls : List (Label τ ι ρ)}

/-- What was performed leads from the first state to the last. -/
theorem legal_of_run (h : (object spec s₀).Run s ls s') :
    Legal spec s.shared (performed ls) s'.shared := by
  induction h with
  | nil s => exact .nil _
  | cons hstep _ ih =>
      cases hstep with
      | call m hphase => exact ih
      | perform hphase => exact .cons _ _ ih
      | ret hphase => exact ih

/-! ## What is returned was performed -/

/-- The result that a thread is about to return. -/
def Phase.pending : Phase ι ρ → List (ι × ρ)
  | .returning m r => [(m, r)]
  | .idle | .waiting _ => []

/-- The methods of one thread. -/
def ofThread (t : τ) (calls : List (τ × ι × ρ)) : List (ι × ρ) :=
  calls.filterMap fun call => if call.1 = t then some call.2 else none

theorem ofThread_append (t : τ) (calls calls' : List (τ × ι × ρ)) :
    ofThread t (calls ++ calls') = ofThread t calls ++ ofThread t calls' :=
  List.filterMap_append

/-- One step moves a result from performed to pending, or from pending to returned. -/
theorem returned_append_pending_step {l : Label τ ι ρ} (h : Step spec s l s') (t : τ) :
    ofThread t (returned l.observe.toList) ++ (s'.phase t).pending =
      (s.phase t).pending ++ ofThread t (performed [l]) := by
  cases h with
  | @call t' m hphase =>
      by_cases ht : t = t'
      · subst ht
        simp [Label.observe, returned, performed, ofThread, hphase, Phase.pending]
      · simp [Label.observe, returned, performed, ofThread, Function.update_of_ne ht]
  | @perform t' m hphase =>
      by_cases ht : t = t'
      · subst ht
        simp [Label.observe, returned, performed, ofThread, hphase, Phase.pending]
      · simp [Label.observe, returned, performed, ofThread, Function.update_of_ne ht,
          Ne.symm ht]
  | @ret t' m r hphase =>
      by_cases ht : t = t'
      · subst ht
        simp [Label.observe, returned, performed, ofThread, hphase, Phase.pending]
      · simp [Label.observe, returned, performed, ofThread, Function.update_of_ne ht,
          Ne.symm ht]

/-- What a thread returned, and what it is about to return, is what it performed. -/
theorem returned_append_pending (h : (object spec s₀).Run s ls s') (t : τ) :
    ofThread t (returned (trace Label.observe ls)) ++ (s'.phase t).pending =
      (s.phase t).pending ++ ofThread t (performed ls) := by
  induction h with
  | nil s => simp [trace, returned, performed, ofThread]
  | @cons s u s' l ls hstep _ ih =>
      have hhead := returned_append_pending_step hstep t
      rw [trace_cons, returned_append, ofThread_append, List.append_assoc, ih,
        ← List.append_assoc, hhead, List.append_assoc, ← ofThread_append, ← performed_append]
      rfl

omit [DecidableEq τ] in
theorem count_ofThread [DecidableEq τ] [DecidableEq ι] [DecidableEq ρ] (t : τ) (m : ι) (r : ρ)
    (calls : List (τ × ι × ρ)) :
    (ofThread t calls).count (m, r) = calls.count (t, m, r) := by
  induction calls with
  | nil => rfl
  | cons call calls ih =>
      obtain ⟨t', m', r'⟩ := call
      by_cases ht : t' = t
      · subst ht
        simp only [ofThread, List.filterMap_cons, if_true, List.count_cons] at ih ⊢
        rw [ih]
        congr 1
        simp
      · have hne : ((t', m', r') == (t, m, r)) = false := by simp [ht]
        simp only [ofThread, List.filterMap_cons, if_neg ht, List.count_cons, hne] at ih ⊢
        exact ih

theorem mem_ofThread_iff {t : τ} {m : ι} {r : ρ} {calls : List (τ × ι × ρ)} :
    (m, r) ∈ ofThread t calls ↔ (t, m, r) ∈ calls := by
  constructor
  · intro h
    obtain ⟨⟨t', m', r'⟩, hmem, hcall⟩ := List.mem_filterMap.mp h
    split at hcall
    · next ht =>
      cases hcall
      subst ht
      exact hmem
    · cases hcall
  · exact fun h => List.mem_filterMap.mpr ⟨_, h, if_pos rfl⟩

/-- What is returned in a run from the start was performed in it. -/
theorem mem_performed_of_returned (hs : (object spec s₀).initial s)
    (h : (object spec s₀).Run s ls s') {call : τ × ι × ρ}
    (hmem : call ∈ returned (trace Label.observe ls)) : call ∈ performed ls := by
  obtain ⟨t, m, r⟩ := call
  have hthread := returned_append_pending h t
  cases hs
  rw [Phase.pending, List.nil_append] at hthread
  rw [← mem_ofThread_iff, ← hthread]
  exact List.mem_append_left _ (mem_ofThread_iff.mpr hmem)

/-- Nothing is about to be returned. -/
def State.Quiet (s : State σ τ ι ρ) : Prop := ∀ t, (s.phase t).pending = []

/-- Between two moments at which nothing is about to be returned, what was returned is
what was performed. -/
theorem returned_perm_performed (h : (object spec s₀).Run s ls s') (hs : s.Quiet)
    (hs' : s'.Quiet) : (returned (trace Label.observe ls)).Perm (performed ls) := by
  classical
  rw [List.perm_iff_count]
  rintro ⟨t, m, r⟩
  have hthread := returned_append_pending h t
  rw [hs t, hs' t, List.append_nil, List.nil_append] at hthread
  rw [← count_ofThread, ← count_ofThread, hthread]

/-- A result that is about to be returned already was, or has just been performed. -/
theorem returning_of_step {l : Label τ ι ρ} (h : Step spec s l s') {t : τ} {m : ι} {r : ρ}
    (hphase : s'.phase t = .returning m r) :
    s.phase t = .returning m r ∨
      r = (spec m s.shared).1 ∧ s'.shared = (spec m s.shared).2 := by
  cases h with
  | @call t' m' h =>
      by_cases ht : t = t'
      · subst ht
        simp at hphase
      · exact Or.inl (by simpa [Function.update_of_ne ht] using hphase)
  | @perform t' m' h =>
      by_cases ht : t = t'
      · subst ht
        simp only [Function.update_self, Phase.returning.injEq] at hphase
        obtain ⟨rfl, rfl⟩ := hphase
        exact Or.inr ⟨rfl, rfl⟩
      · exact Or.inl (by simpa [Function.update_of_ne ht] using hphase)
  | @ret t' m' r' h =>
      by_cases ht : t = t'
      · subst ht
        simp at hphase
      · exact Or.inl (by simpa [Function.update_of_ne ht] using hphase)

/-- A return that is seen is of a result that was about to be returned. -/
theorem returning_of_observe {l : Label τ ι ρ} (h : Step spec s l s') {t : τ} {m : ι} {r : ρ}
    (hl : l.observe = some (.ret t m r)) :
    s.phase t = .returning m r ∧ s'.shared = s.shared := by
  cases h with
  | call _ hphase => cases hl
  | perform hphase => cases hl
  | ret hphase =>
      cases hl
      exact ⟨hphase, rfl⟩

/-- After a call that is seen, the thread has nothing to return. -/
theorem pending_of_observe {l : Label τ ι ρ} (h : Step spec s l s') {t : τ} {m : ι}
    (hl : l.observe = some (.call t m)) :
    (s'.phase t).pending = [] ∧ s'.shared = s.shared := by
  cases h with
  | perform hphase => cases hl
  | ret hphase => cases hl
  | call _ hphase =>
      cases hl
      exact ⟨by simp [Phase.pending], rfl⟩

/-! ## Reads of something that grows -/

/-- Some results show a value that only grows. -/
structure Readout [Preorder α] (spec : ι → σ → ρ × σ) (value : σ → α)
    (shown : ι → ρ → Option α) : Prop where
  grows : ∀ m s, value s ≤ value (spec m s).2
  shows : ∀ m s v, shown m (spec m s).1 = some v → v = value s

namespace Readout

variable [Preorder α] {value : σ → α} {shown : ι → ρ → Option α}

theorem value_le_step (h : Readout spec value shown) {l : Label τ ι ρ}
    (hstep : Step spec s l s') : value s.shared ≤ value s'.shared := by
  cases hstep with
  | call m hphase => exact le_refl _
  | perform hphase => exact h.grows _ _
  | ret hphase => exact le_refl _

theorem value_le (h : Readout spec value shown) (hrun : (object spec s₀).Run s ls s') :
    value s.shared ≤ value s'.shared := by
  induction hrun with
  | nil s => exact le_refl _
  | cons hstep _ ih => exact le_trans (h.value_le_step hstep) ih

/-- What is about to be returned is not more than the value. -/
theorem pending_le (h : Readout spec value shown) (hreach : (object spec s₀).Reachable s)
    {t : τ} {m : ι} {r : ρ} {v : α} (hphase : s.phase t = .returning m r)
    (hshown : shown m r = some v) : v ≤ value s.shared := by
  have hinv : ∀ t m r v, s.phase t = .returning m r → shown m r = some v →
      v ≤ value s.shared := by
    refine System.invariant_of_step (I := fun s => ∀ t m r v, s.phase t = .returning m r →
      shown m r = some v → v ≤ value s.shared) ?_ ?_ hreach
    · rintro _ rfl t m r v hphase
      cases hphase
    · intro s l s' hstep ih t m r v hphase hshown
      rcases returning_of_step hstep hphase with hphase | ⟨rfl, hshared⟩
      · exact le_trans (ih t m r v hphase hshown) (h.value_le_step hstep)
      · rw [h.shows m s.shared v hshown, hshared]
        exact h.grows m s.shared
  exact hinv t m r v hphase hshown

/-- What a thread returns that was waiting is not less than the value was then. -/
theorem le_pending (h : Readout spec value shown) (hrun : (object spec s₀).Run s ls s')
    {t : τ} (hs : (s.phase t).pending = []) {m : ι} {r : ρ} {v : α}
    (hphase : s'.phase t = .returning m r) (hshown : shown m r = some v) :
    value s.shared ≤ v := by
  have hkeep := hrun.preserves (I := fun u => value s.shared ≤ value u.shared ∧
    ∀ m r v, u.phase t = .returning m r → shown m r = some v → value s.shared ≤ v) ?_ ?_
  · exact hkeep.2 m r v hphase hshown
  · rintro u l u' hstep ⟨hle, ih⟩
    refine ⟨le_trans hle (h.value_le_step hstep), fun m r v hphase hshown => ?_⟩
    rcases returning_of_step hstep hphase with hphase | ⟨rfl, -⟩
    · exact ih m r v hphase hshown
    · rw [h.shows m u.shared v hshown]
      exact hle
  · refine ⟨le_refl _, fun m r v hphase _ => ?_⟩
    rw [hphase] at hs
    cases hs

/-- A read that was called after another had returned shows at least as much. -/
theorem monotone (h : Readout spec value shown) (hs : (object spec s₀).initial s)
    (hrun : (object spec s₀).Run s ls s') {os₁ os₂ os₃ os₄ : List (Observation τ ι ρ)}
    {t t' : τ} {m m' m'' : ι} {r r' : ρ} {v v' : α}
    (htrace : trace Label.observe ls =
      os₁ ++ .ret t m r :: (os₂ ++ .call t' m'' :: (os₃ ++ .ret t' m' r' :: os₄)))
    (hshown : shown m r = some v) (hshown' : shown m' r' = some v') : v ≤ v' := by
  obtain ⟨ls₁, l, _, s₁, s₂, hrun₁, hret, hrun₂, hl, -, htrace₂⟩ := hrun.split_trace htrace
  obtain ⟨_, l', _, s₃, s₄, hrun₃, hcall, hrun₄, hl', -, htrace₄⟩ := hrun₂.split_trace htrace₂
  obtain ⟨ls₅, l'', _, s₅, s₆, hrun₅, hret', -, hl'', -, -⟩ := hrun₄.split_trace htrace₄
  obtain ⟨hphase, hshared⟩ := returning_of_observe hret hl
  obtain ⟨hpending, -⟩ := pending_of_observe hcall hl'
  obtain ⟨hphase', -⟩ := returning_of_observe hret' hl''
  calc
    v ≤ value s₁.shared := h.pending_le ⟨s, ls₁, hs, hrun₁⟩ hphase hshown
    _ = value s₂.shared := congrArg value hshared.symm
    _ ≤ value s₃.shared := h.value_le hrun₃
    _ ≤ value s₄.shared := h.value_le_step hcall
    _ ≤ v' := h.le_pending hrun₅ hpending hphase' hshown'

end Readout

end Floodgate.Verified.AtomicObject
