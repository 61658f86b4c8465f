import Mathlib.Data.List.Perm.Subperm
import Mathlib.Data.List.Flatten
import Mathlib.Algebra.Order.BigOperators.Group.List
import Mathlib.Algebra.Order.Ring.Nat
import Floodgate.Verified.Transition

/-!
# Workers on shared state

Requests come in at any time.  What a request takes is a plan: some operations on the
shared state, one after the other.  The operations of different requests interleave in
any order, and the shared state may change by itself in between.  A request is answered
when its plan is done.

Every job keeps the operations it has performed beside those that are left, so that the
books of the pool can be stated for every state: the operations that were performed are
those of the answered requests and the finished parts of the others.

## Main results

* `onPlan_of_reachable`: a job is somewhere on its plan.
* `started_perm`: no request is lost and none is answered twice.
* `performed_perm`: the operations that were performed, by request.
* `countP_performed_le`: what holds of every part of a plan holds of every run.
* `step_start`, `step_perform`, `step_answer`: any schedule is a run.
-/

namespace Floodgate.Verified.Workers

open Floodgate.Verified.Transition

variable {S Q Op E : Type}

/-- A request in flight. -/
structure Job (Q Op : Type) where
  request : Q
  performed : List Op
  left : List Op

/-- The shared state, and the requests in flight. -/
structure State (S Q Op : Type) where
  shared : S
  jobs : List (Job Q Op)

/-- What happens in one step. -/
inductive Label (Q Op E : Type) where
  | start (request : Q)
  | perform (op : Op)
  | answer (request : Q)
  | event (e : E)

/-- How the pool works: the plan of a request, what an operation does to the shared
state, and how that changes by itself. -/
structure Pool (S Q Op E : Type) where
  initial : S
  plan : Q → List Op
  apply : Op → S → S
  event : S → E → S → Prop

/-- The steps of a pool. -/
inductive Step (P : Pool S Q Op E) : State S Q Op → Label Q Op E → State S Q Op → Prop
  | start {s : State S Q Op} (q : Q) :
      Step P s (.start q) { s with jobs := s.jobs ++ [⟨q, [], P.plan q⟩] }
  | perform {s : State S Q Op} {before after : List (Job Q Op)} {q : Q} {op : Op}
      {performed left : List Op} (h : s.jobs = before ++ ⟨q, performed, op :: left⟩ :: after) :
      Step P s (.perform op)
        ⟨P.apply op s.shared, before ++ ⟨q, performed ++ [op], left⟩ :: after⟩
  | answer {s : State S Q Op} {before after : List (Job Q Op)} {q : Q} {performed : List Op}
      (h : s.jobs = before ++ ⟨q, performed, []⟩ :: after) :
      Step P s (.answer q) { s with jobs := before ++ after }
  | event {s : State S Q Op} {e : E} {t : S} (h : P.event s.shared e t) :
      Step P s (.event e) { s with shared := t }

/-- The pool as a system: no requests at first. -/
def Pool.system (P : Pool S Q Op E) : System (State S Q Op) (Label Q Op E) where
  initial s := s = ⟨P.initial, []⟩
  step := Step P

/-! ## What a run did -/

/-- The requests that came in. -/
def started (ls : List (Label Q Op E)) : List Q :=
  ls.filterMap fun
    | .start q => some q
    | _ => none

/-- The operations that were performed. -/
def performed (ls : List (Label Q Op E)) : List Op :=
  ls.filterMap fun
    | .perform op => some op
    | _ => none

/-- The requests that were answered. -/
def answered (ls : List (Label Q Op E)) : List Q :=
  ls.filterMap fun
    | .answer q => some q
    | _ => none

/-! ## The books of a pool -/

/-- A job is somewhere on its plan. -/
def State.OnPlan (P : Pool S Q Op E) (s : State S Q Op) : Prop :=
  ∀ job ∈ s.jobs, job.performed ++ job.left = P.plan job.request

variable {P : Pool S Q Op E} {s t : State S Q Op}

theorem Step.onPlan {l : Label Q Op E} (h : Step P s l t) (hs : s.OnPlan P) : t.OnPlan P := by
  cases h with
  | start q =>
      intro job hjob
      rcases List.mem_append.mp hjob with hjob | hjob
      · exact hs job hjob
      · rw [List.mem_singleton.mp hjob]
        rfl
  | @perform before after q op performed left h =>
      rw [State.OnPlan, h, List.forall_mem_append, List.forall_mem_cons] at hs
      obtain ⟨hbefore, hjob, hafter⟩ := hs
      refine List.forall_mem_append.mpr ⟨hbefore, List.forall_mem_cons.mpr ⟨?_, hafter⟩⟩
      rw [List.append_assoc]
      exact hjob
  | @answer before after q performed h =>
      rw [State.OnPlan, h, List.forall_mem_append, List.forall_mem_cons] at hs
      exact List.forall_mem_append.mpr ⟨hs.1, hs.2.2⟩
  | event h => exact hs

theorem onPlan_of_reachable (h : P.system.Reachable s) : s.OnPlan P := by
  refine System.invariant_of_step ?_ (fun _ _ _ hstep hs => Step.onPlan hstep hs) h
  rintro _ rfl job hjob
  exact absurd hjob List.not_mem_nil

/-- No request is lost and none is answered twice: those that came in are those that
were answered, and those in flight. -/
theorem started_perm {ls : List (Label Q Op E)} (h : P.system.Run s ls t) :
    (s.jobs.map Job.request ++ started ls).Perm (answered ls ++ t.jobs.map Job.request) := by
  induction h with
  | nil s => simp [started, answered]
  | @cons s t u l ls hstep _ ih =>
      cases hstep with
      | start q =>
          have hstarted : started (Label.start q :: ls : List (Label Q Op E)) =
              q :: started ls := rfl
          have hanswered : answered (Label.start q :: ls : List (Label Q Op E)) =
              answered ls := rfl
          rw [hstarted, hanswered]
          simpa using ih
      | @perform before after q op performed left h =>
          rw [h]
          simpa [started, answered] using ih
      | @answer before after q performed h =>
          have hstarted : started (Label.answer q :: ls : List (Label Q Op E)) =
              started ls := rfl
          have hanswered : answered (Label.answer q :: ls : List (Label Q Op E)) =
              q :: answered ls := rfl
          rw [hstarted, hanswered, h, List.cons_append]
          refine List.Perm.trans ?_ (ih.cons q)
          simp only [List.map_append, List.map_cons, List.append_assoc, List.cons_append]
          exact List.perm_middle
      | event h => exact ih

/-- The operations that were performed are those of the answered requests, and those
that the requests in flight have behind them. -/
theorem performed_perm {ls : List (Label Q Op E)} (hs : s.OnPlan P)
    (h : P.system.Run s ls t) :
    (s.jobs.flatMap Job.performed ++ performed ls).Perm
      ((answered ls).flatMap P.plan ++ t.jobs.flatMap Job.performed) := by
  induction h with
  | nil s => simp [performed, answered]
  | @cons s t u l ls hstep _ ih =>
      have ht := ih (hstep.onPlan hs)
      cases hstep with
      | start q =>
          simpa [performed, answered] using ht
      | @perform before after q op done left h =>
          have hperformed : performed (Label.perform op :: ls : List (Label Q Op E)) =
              op :: performed ls := rfl
          have hanswered : answered (Label.perform op :: ls : List (Label Q Op E)) =
              answered ls := rfl
          rw [hperformed, hanswered, h]
          refine List.Perm.trans ?_ ht
          simp only [List.flatMap_append, List.flatMap_cons, List.append_assoc]
          refine List.Perm.append_left _ (List.Perm.append_left _ ?_)
          rw [List.singleton_append]
          exact List.perm_middle
      | @answer before after q done h =>
          have hperformed : performed (Label.answer q :: ls : List (Label Q Op E)) =
              performed ls := rfl
          have hanswered : answered (Label.answer q :: ls : List (Label Q Op E)) =
              q :: answered ls := rfl
          have hplan : done = P.plan q := by
            have hjob := hs ⟨q, done, []⟩ (h ▸ List.mem_append_right _ List.mem_cons_self)
            exact (List.append_nil done).symm.trans hjob
          rw [hperformed, hanswered, h, List.flatMap_cons (x := q), ← hplan]
          rw [List.append_assoc]
          refine List.Perm.trans ?_ (ht.append_left done)
          simp only [List.flatMap_append, List.flatMap_cons, List.append_assoc]
          rw [← List.append_assoc, ← List.append_assoc done]
          exact List.perm_append_comm.append_right _
      | event h => exact ht

/-- What holds of every part of a plan holds of every run: where no plan gets ahead in
one kind of operation before it has performed another, the run does not either. -/
theorem countP_performed_le {f g : Op → Bool}
    (hplan : ∀ q part, part <+: P.plan q → part.countP f ≤ part.countP g)
    {ls : List (Label Q Op E)} (h : P.system.Run ⟨P.initial, []⟩ ls t) :
    (performed ls).countP f ≤ (performed ls).countP g := by
  have hinitial : State.OnPlan P ⟨P.initial, []⟩ := fun _ h => absurd h List.not_mem_nil
  have hperm : (performed ls).Perm
      ((answered ls).flatMap P.plan ++ t.jobs.flatMap Job.performed) :=
    performed_perm hinitial h
  have honPlan : t.OnPlan P := onPlan_of_reachable ⟨_, ls, rfl, h⟩
  have hanswered : ((answered ls).flatMap P.plan).countP f ≤
      ((answered ls).flatMap P.plan).countP g := by
    rw [List.countP_flatMap, List.countP_flatMap]
    exact List.sum_le_sum fun q _ => hplan q _ (List.prefix_refl _)
  have hjobs : (t.jobs.flatMap Job.performed).countP f ≤
      (t.jobs.flatMap Job.performed).countP g := by
    rw [List.countP_flatMap, List.countP_flatMap]
    refine List.sum_le_sum fun job hjob => hplan job.request _ ?_
    rw [← honPlan job hjob]
    exact List.prefix_append _ _
  rw [hperm.countP_eq, hperm.countP_eq, List.countP_append, List.countP_append]
  exact Nat.add_le_add hanswered hjobs

/-- Once no request is in flight, the operations that were performed are those of the
requests that came in. -/
theorem countP_performed_of_idle {ls : List (Label Q Op E)}
    (h : P.system.Run ⟨P.initial, []⟩ ls t) (hidle : t.jobs = []) (f : Op → Bool) :
    (performed ls).countP f = ((started ls).map fun q => (P.plan q).countP f).sum := by
  have hinitial : State.OnPlan P ⟨P.initial, []⟩ := fun _ h => absurd h List.not_mem_nil
  have hperformed := performed_perm hinitial h
  have hstarted := started_perm h
  rw [hidle] at hperformed hstarted
  simp only [List.flatMap_nil, List.map_nil, List.append_nil, List.nil_append]
    at hperformed hstarted
  rw [hperformed.countP_eq, List.countP_flatMap]
  exact ((hstarted.symm.map _).sum_eq)

/-- At any time the operations that were performed are at least those of the answered
requests, and at most those of the requests that came in. -/
theorem countP_performed_bounds {ls : List (Label Q Op E)}
    (h : P.system.Run ⟨P.initial, []⟩ ls t) (f : Op → Bool) :
    ((answered ls).map fun q => (P.plan q).countP f).sum ≤ (performed ls).countP f ∧
      (performed ls).countP f ≤ ((started ls).map fun q => (P.plan q).countP f).sum := by
  have hinitial : State.OnPlan P ⟨P.initial, []⟩ := fun _ h => absurd h List.not_mem_nil
  have honPlan : t.OnPlan P := onPlan_of_reachable ⟨_, ls, rfl, h⟩
  have hperformed : (performed ls).Perm
      ((answered ls).flatMap P.plan ++ t.jobs.flatMap Job.performed) :=
    performed_perm hinitial h
  have hstarted : (started ls).Perm (answered ls ++ t.jobs.map Job.request) := started_perm h
  have hjobs : (t.jobs.map fun job => job.performed.countP f).sum ≤
      (t.jobs.map fun job => (P.plan job.request).countP f).sum := by
    refine List.sum_le_sum fun job hjob => ?_
    rw [← honPlan job hjob, List.countP_append]
    exact Nat.le_add_right _ _
  rw [hperformed.countP_eq, List.countP_append, List.countP_flatMap, List.countP_flatMap,
    (hstarted.map _).sum_eq, List.map_append, List.sum_append, List.map_map]
  exact ⟨Nat.le_add_right _ _, Nat.add_le_add_left hjobs _⟩

/-! ## Schedules -/

section Schedules

variable (P : Pool S Q Op E) (shared : S) (before after : List (Job Q Op))

/-- A request can come in at any time. -/
theorem step_start {q : Q} {ops : List Op} (hplan : P.plan q = ops) :
    P.system.step ⟨shared, before⟩ (.start q) ⟨shared, before ++ [⟨q, [], ops⟩]⟩ :=
  hplan ▸ .start q

/-- Any job with something left can be the next one to go on. -/
theorem step_perform (q : Q) (done : List Op) (op : Op) (left : List Op) :
    P.system.step ⟨shared, before ++ ⟨q, done, op :: left⟩ :: after⟩ (.perform op)
      ⟨P.apply op shared, before ++ ⟨q, done ++ [op], left⟩ :: after⟩ :=
  .perform rfl

/-- Any job with nothing left can be answered. -/
theorem step_answer (q : Q) (done : List Op) :
    P.system.step ⟨shared, before ++ ⟨q, done, []⟩ :: after⟩ (.answer q)
      ⟨shared, before ++ after⟩ :=
  .answer rfl

end Schedules

end Floodgate.Verified.Workers
