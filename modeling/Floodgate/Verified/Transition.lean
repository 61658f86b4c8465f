import Mathlib.Data.List.Basic

/-!
# Transition systems

A system is a set of initial states and a step relation with labels.  A run is a
list of labels between two states, so that an interleaving of any number of parties
is a run whose labels say who moved.

What an outsider sees of a run is its *trace*: the observations of its labels, in
order, where a label may be silent.  A simulation relates the states of one system
to the states of another so that every step is answered by a run with the same
trace; then every trace of the one is a trace of the other.

## Main results

* `System.invariant_of_step`: a property of the initial states that every step keeps
  holds in every reachable state.
* `Simulation.run`: a simulation answers whole runs.
-/

namespace Floodgate.Verified.Transition

/-- A system of labelled steps. -/
structure System (S L : Type) where
  initial : S → Prop
  step : S → L → S → Prop

variable {S S' L L' O : Type}

namespace System

/-- The labels of some steps in a row. -/
inductive Run (T : System S L) : S → List L → S → Prop
  | nil (s : S) : Run T s [] s
  | cons {s t u : S} {l : L} {ls : List L} (hstep : T.step s l t) (hrun : Run T t ls u) :
      Run T s (l :: ls) u

/-- A state that some run from an initial state ends in. -/
def Reachable (T : System S L) (s : S) : Prop := ∃ s₀ ls, T.initial s₀ ∧ T.Run s₀ ls s

variable {T : System S L} {s t u : S} {ls ls' : List L}

theorem Run.single {l : L} (h : T.step s l t) : T.Run s [l] t := .cons h (.nil t)

theorem Run.append (h : T.Run s ls t) (h' : T.Run t ls' u) : T.Run s (ls ++ ls') u := by
  induction h with
  | nil => exact h'
  | cons hstep _ ih => exact .cons hstep (ih h')

/-- A run of two parts goes through the state in between. -/
theorem Run.split (h : T.Run s (ls ++ ls') u) : ∃ t, T.Run s ls t ∧ T.Run t ls' u := by
  induction ls generalizing s with
  | nil => exact ⟨s, .nil s, h⟩
  | cons l ls ih =>
      obtain _ | ⟨hstep, hrun⟩ := h
      obtain ⟨t, hfirst, hrest⟩ := ih hrun
      exact ⟨t, .cons hstep hfirst, hrest⟩

theorem run_cons_iff {l : L} : T.Run s (l :: ls) u ↔ ∃ t, T.step s l t ∧ T.Run t ls u := by
  constructor
  · intro h
    obtain _ | ⟨hstep, hrun⟩ := h
    exact ⟨_, hstep, hrun⟩
  · rintro ⟨t, hstep, hrun⟩
    exact .cons hstep hrun

/-- What every step keeps, a run keeps. -/
theorem Run.preserves {I : S → Prop} (hkeep : ∀ s l t, T.step s l t → I s → I t)
    (h : T.Run s ls t) (hs : I s) : I t := by
  induction h with
  | nil => exact hs
  | cons hstep _ ih => exact ih (hkeep _ _ _ hstep hs)

/-- An invariant: it holds initially and every step keeps it. -/
theorem invariant_of_step {I : S → Prop} (hinit : ∀ s, T.initial s → I s)
    (hkeep : ∀ s l t, T.step s l t → I s → I t) (h : T.Reachable s) : I s := by
  obtain ⟨s₀, ls, hs₀, hrun⟩ := h
  exact hrun.preserves hkeep (hinit s₀ hs₀)

theorem reachable_of_initial (h : T.initial s) : T.Reachable s := ⟨s, [], h, .nil s⟩

theorem Reachable.run (h : T.Reachable s) (hrun : T.Run s ls t) : T.Reachable t := by
  obtain ⟨s₀, ls₀, hs₀, hrun₀⟩ := h
  exact ⟨s₀, ls₀ ++ ls, hs₀, hrun₀.append hrun⟩

theorem Reachable.step {l : L} (h : T.Reachable s) (hstep : T.step s l t) : T.Reachable t :=
  h.run (.single hstep)

end System

/-- What an outsider sees of some labels. -/
def trace (observe : L → Option O) (ls : List L) : List O := ls.filterMap observe

theorem trace_append (observe : L → Option O) (ls ls' : List L) :
    trace observe (ls ++ ls') = trace observe ls ++ trace observe ls' :=
  List.filterMap_append

theorem trace_cons (observe : L → Option O) (l : L) (ls : List L) :
    trace observe (l :: ls) = (observe l).toList ++ trace observe ls := by
  cases h : observe l <;> simp [trace, h]

/-- A run passes through the step that an observation was made of. -/
theorem System.Run.split_trace {T : System S L} {observe : L → Option O} {s u : S}
    {ls : List L} (h : T.Run s ls u) {o : O} {os os' : List O}
    (htrace : trace observe ls = os ++ o :: os') :
    ∃ ls₁ l ls₂ s₁ s₂, T.Run s ls₁ s₁ ∧ T.step s₁ l s₂ ∧ T.Run s₂ ls₂ u ∧
      observe l = some o ∧ trace observe ls₁ = os ∧ trace observe ls₂ = os' := by
  obtain ⟨ls₀, ls₀', rfl, htrace₀, hrest⟩ := List.filterMap_eq_append_iff.mp htrace
  obtain ⟨silent, l, ls₂, rfl, hsilent, hl, htrace₂⟩ := List.filterMap_eq_cons_iff.mp hrest
  rw [← List.append_assoc] at h
  obtain ⟨s₁, hfirst, hlater⟩ := h.split
  obtain ⟨s₂, hstep, hlast⟩ := System.run_cons_iff.mp hlater
  refine ⟨ls₀ ++ silent, l, ls₂, s₁, s₂, hfirst, hstep, hlast, hl, ?_, htrace₂⟩
  have hnone : trace observe silent = [] := List.filterMap_eq_nil_iff.mpr hsilent
  rw [trace_append, hnone, List.append_nil]
  exact htrace₀

/-- A relation between the states of two systems under which every step of the first
is answered by a run of the second that looks the same. -/
structure Simulation (T : System S L) (T' : System S' L') (observe : L → Option O)
    (observe' : L' → Option O) (R : S → S' → Prop) : Prop where
  initial : ∀ s, T.initial s → ∃ s', T'.initial s' ∧ R s s'
  step : ∀ s l t s', T.step s l t → R s s' →
    ∃ ls' t', T'.Run s' ls' t' ∧ R t t' ∧ trace observe' ls' = (observe l).toList

namespace Simulation

variable {T : System S L} {T' : System S' L'} {observe : L → Option O}
  {observe' : L' → Option O} {R : S → S' → Prop}

/-- A simulation answers a run by a run with the same trace. -/
theorem run (h : Simulation T T' observe observe' R) {s t : S} {ls : List L}
    (hrun : T.Run s ls t) {s' : S'} (hrel : R s s') :
    ∃ ls' t', T'.Run s' ls' t' ∧ R t t' ∧ trace observe' ls' = trace observe ls := by
  induction hrun generalizing s' with
  | nil => exact ⟨[], s', .nil s', hrel, rfl⟩
  | @cons s t u l ls hstep _ ih =>
      obtain ⟨ls₁, t', hrun₁, hrel₁, htrace₁⟩ := h.step _ _ _ _ hstep hrel
      obtain ⟨ls₂, u', hrun₂, hrel₂, htrace₂⟩ := ih hrel₁
      refine ⟨ls₁ ++ ls₂, u', hrun₁.append hrun₂, hrel₂, ?_⟩
      rw [trace_append, trace_cons, htrace₁, htrace₂]

/-- Every trace of the first system is a trace of the second, in related states. -/
theorem traces (h : Simulation T T' observe observe' R) {s₀ t : S} {ls : List L}
    (hs₀ : T.initial s₀) (hrun : T.Run s₀ ls t) :
    ∃ s₀' ls' t', T'.initial s₀' ∧ T'.Run s₀' ls' t' ∧ R t t' ∧
      trace observe' ls' = trace observe ls := by
  obtain ⟨s₀', hs₀', hrel⟩ := h.initial s₀ hs₀
  obtain ⟨ls', t', hrun', hrel', htrace⟩ := h.run hrun hrel
  exact ⟨s₀', ls', t', hs₀', hrun', hrel', htrace⟩

end Simulation

end Floodgate.Verified.Transition
