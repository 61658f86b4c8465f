import Floodgate.Verified.Code
import Floodgate.Verified.Transition

/-!
# Code under interference

Threads run code on a shared state without a lock, so that between any two accesses of a
thread the others may have changed the state.  A thread is judged by itself: it relies on
the changes of the others being allowed, it guarantees that its own are, and then it
comes to a result that satisfies a postcondition.  Threads that are judged so keep to it
together, however many there are and however they are scheduled.

Cells that are filled once are the shared states of most use here: two threads may both
find a cell empty, but they fill it with the same value.

## Main results

* `Holds.bind`: code in sequence.
* `holds_of_run`, `answer_of_run`: threads together.
* `exists_run_job`, `exists_run_request`: a thread that is let alone.
-/

namespace Floodgate.Verified.Interference

open Transition

variable {σ α β ε Q M : Type}

/-- The changes of a shared state that are allowed, any number of them in a row. -/
structure Rely (σ : Type) where
  rel : σ → σ → Prop
  refl : ∀ s, rel s s
  trans : ∀ {s t u}, rel s t → rel t u → rel s u

/-! ## One thread -/

/-- From the state on, with allowed changes by others in between, the code makes allowed
changes only and comes to a result with the postcondition, in every later state. -/
def Holds (R : Rely σ) (post : α → σ → Prop) : Code σ α → σ → Prop
  | .done a, s => ∀ s', R.rel s s' → post a s'
  | .access update next, s =>
      ∀ s', R.rel s s' → R.rel s' (update s') ∧ Holds R post (next s') (update s')

section Rules

variable {R : Rely σ} {post post' : α → σ → Prop} {code : Code σ α} {s s' : σ}

theorem Holds.later (h : Holds R post code s) (hs : R.rel s s') : Holds R post code s' := by
  cases code with
  | done a => exact fun t ht => h t (R.trans hs ht)
  | access update next => exact fun t ht => h t (R.trans hs ht)

theorem Holds.mono (himp : ∀ a s, post a s → post' a s) (h : Holds R post code s) :
    Holds R post' code s := by
  induction code generalizing s with
  | done a => exact fun t ht => himp a t (h t ht)
  | access update next ih => exact fun t ht => ⟨(h t ht).1, ih t (h t ht).2⟩

/-- Code in sequence. -/
theorem Holds.bind {mid : β → σ → Prop} {code : Code σ β} {next : β → Code σ α}
    (h : Holds R mid code s) (hnext : ∀ b s', mid b s' → Holds R post (next b) s') :
    Holds R post (code >>= next) s := by
  induction code generalizing s with
  | done b => exact hnext b s (h s (R.refl s))
  | access update rest ih => exact fun t ht => ⟨(h t ht).1, ih t (h t ht).2⟩

theorem holds_read {f : σ → β} {next : β → Code σ α}
    (h : ∀ s', R.rel s s' → Holds R post (next (f s')) s') :
    Holds R post (Code.read f >>= next) s := fun t ht => ⟨R.refl t, h t ht⟩

/-- Code that is let alone comes to a result with the postcondition. -/
theorem Holds.run (h : Holds R post code s) :
    R.rel s (code.run s).2 ∧ post (code.run s).1 (code.run s).2 := by
  induction code generalizing s with
  | done a => exact ⟨R.refl s, h s (R.refl s)⟩
  | access update next ih =>
      obtain ⟨hchange, hnext⟩ := h s (R.refl s)
      obtain ⟨hrest, hpost⟩ := ih s hnext
      exact ⟨R.trans hchange hrest, hpost⟩

end Rules

/-! ## Threads -/

/-- A request, and the code that is left of it. -/
structure Job (Q σ α : Type) where
  request : Q
  code : Code σ α

structure State (Q σ α : Type) where
  shared : σ
  jobs : List (Job Q σ α)

inductive Label (Q α : Type) where
  | start (request : Q)
  | access
  | answer (request : Q) (a : α)

/-- A step of some threads: a request comes in, a thread makes an access, or a thread
that has no code left answers. -/
inductive Step (prog : Q → Code σ α) : State Q σ α → Label Q α → State Q σ α → Prop
  | start {s : State Q σ α} (q : Q) :
      Step prog s (.start q) { s with jobs := s.jobs ++ [⟨q, prog q⟩] }
  | access {s : State Q σ α} {before after : List (Job Q σ α)} {q : Q} {update : σ → σ}
      {next : σ → Code σ α} (h : s.jobs = before ++ ⟨q, .access update next⟩ :: after) :
      Step prog s .access ⟨update s.shared, before ++ ⟨q, next s.shared⟩ :: after⟩
  | answer {s : State Q σ α} {before after : List (Job Q σ α)} {q : Q} {a : α}
      (h : s.jobs = before ++ ⟨q, .done a⟩ :: after) :
      Step prog s (.answer q a) { s with jobs := before ++ after }

/-- Any thread with an access ahead can be the next one to go on. -/
theorem Step.access_at {prog : Q → Code σ α} {shared : σ} (before after : List (Job Q σ α))
    {q : Q} {code : Code σ α} {update : σ → σ} {next : σ → Code σ α}
    (h : code = .access update next) :
    Step prog ⟨shared, before ++ ⟨q, code⟩ :: after⟩ .access
      ⟨update shared, before ++ ⟨q, next shared⟩ :: after⟩ := by
  subst h
  exact .access rfl

/-- The threads that run the code of requests. -/
def threads (prog : Q → Code σ α) (s₀ : σ) : System (State Q σ α) (Label Q α) where
  initial s := s = ⟨s₀, []⟩
  step := Step prog

section Threads

variable {prog : Q → Code σ α} {s₀ : σ} {R : Rely σ} {post : Q → α → σ → Prop}
  {s t : State Q σ α} {l : Label Q α} {ls : List (Label Q α)}

/-- Every thread holds to its postcondition. -/
def AllHold (R : Rely σ) (post : Q → α → σ → Prop) (s : State Q σ α) : Prop :=
  ∀ job ∈ s.jobs, Holds R (post job.request) job.code s.shared

/-- A step is allowed and keeps the threads to their postconditions. -/
theorem Step.allHold
    (hprog : ∀ q s', R.rel s.shared s' → Holds R (post q) (prog q) s')
    (h : Step prog s l t) (hs : AllHold R post s) :
    R.rel s.shared t.shared ∧ AllHold R post t ∧
      ∀ q a, l = .answer q a → post q a t.shared := by
  cases h with
  | start q =>
      refine ⟨R.refl _, ?_, fun q a h => by cases h⟩
      intro job hjob
      rcases List.mem_append.mp hjob with hjob | hjob
      · exact hs job hjob
      · rw [List.mem_singleton.mp hjob]
        exact hprog q _ (R.refl _)
  | @access before after q update next h =>
      rw [AllHold, h, List.forall_mem_append, List.forall_mem_cons] at hs
      obtain ⟨hbefore, hjob, hafter⟩ := hs
      obtain ⟨hchange, hnext⟩ := hjob _ (R.refl _)
      refine ⟨hchange, ?_, fun q a h => by cases h⟩
      refine List.forall_mem_append.mpr ⟨fun job hmem => (hbefore job hmem).later hchange,
        List.forall_mem_cons.mpr ⟨hnext, fun job hmem => (hafter job hmem).later hchange⟩⟩
  | @answer before after q a h =>
      rw [AllHold, h, List.forall_mem_append, List.forall_mem_cons] at hs
      obtain ⟨hbefore, hjob, hafter⟩ := hs
      refine ⟨R.refl _, List.forall_mem_append.mpr ⟨hbefore, hafter⟩, ?_⟩
      rintro _ _ ⟨⟩
      exact hjob _ (R.refl _)

/-- A run is allowed and keeps the threads to their postconditions. -/
theorem holds_of_run (h : (threads prog s₀).Run s ls t)
    (hprog : ∀ q s', R.rel s.shared s' → Holds R (post q) (prog q) s')
    (hs : AllHold R post s) : R.rel s.shared t.shared ∧ AllHold R post t := by
  induction h with
  | nil s => exact ⟨R.refl _, hs⟩
  | cons hstep _ ih =>
      obtain ⟨hchange, hall, -⟩ := hstep.allHold hprog hs
      obtain ⟨hrest, hall⟩ := ih (fun q s' hs' => hprog q s' (R.trans hchange hs')) hall
      exact ⟨R.trans hchange hrest, hall⟩

/-- Every answer has the postcondition of its request. -/
theorem answer_of_run (h : (threads prog s₀).Run s ls t)
    (hprog : ∀ q s', R.rel s.shared s' → Holds R (post q) (prog q) s')
    (hs : AllHold R post s) {q : Q} {a : α} (hmem : .answer q a ∈ ls) :
    ∃ s', R.rel s' t.shared ∧ post q a s' := by
  obtain ⟨before, after, rfl⟩ := List.append_of_mem hmem
  obtain ⟨u, hbefore, hrest⟩ := h.split
  obtain ⟨v, hstep, hafter⟩ := System.run_cons_iff.mp hrest
  obtain ⟨hfirst, hall⟩ := holds_of_run hbefore hprog hs
  have hlater := fun q s' hs' => hprog q s' (R.trans hfirst hs')
  obtain ⟨hchange, hall, hanswer⟩ := hstep.allHold hlater hall
  exact ⟨v.shared, (holds_of_run hafter
    (fun q s' hs' => hlater q s' (R.trans hchange hs')) hall).1, hanswer q a rfl⟩

/-- A thread runs a request that came in. -/
theorem start_mem_of_run (h : (threads prog s₀).Run s ls t) {job : Job Q σ α}
    (hjob : job ∈ t.jobs) :
    (∃ job' ∈ s.jobs, job'.request = job.request) ∨ .start job.request ∈ ls := by
  induction h with
  | nil s => exact Or.inl ⟨job, hjob, rfl⟩
  | cons hstep _ ih =>
      rcases ih hjob with ⟨job', hjob', hrequest⟩ | hstart
      · cases hstep with
        | start q =>
            rcases List.mem_append.mp hjob' with hjob' | hjob'
            · exact Or.inl ⟨job', hjob', hrequest⟩
            · rw [← hrequest, List.mem_singleton.mp hjob']
              exact Or.inr List.mem_cons_self
        | @access before after q update next h =>
            refine Or.inl ?_
            rw [h]
            rcases List.mem_append.mp hjob' with hjob' | hjob'
            · exact ⟨job', List.mem_append_left _ hjob', hrequest⟩
            · rcases List.mem_cons.mp hjob' with rfl | hjob'
              · exact ⟨_, List.mem_append_right _ List.mem_cons_self, hrequest⟩
              · exact ⟨job', List.mem_append_right _ (List.mem_cons_of_mem _ hjob'), hrequest⟩
        | @answer before after q a h =>
            refine Or.inl ⟨job', ?_, hrequest⟩
            rw [h]
            rcases List.mem_append.mp hjob' with hjob' | hjob'
            · exact List.mem_append_left _ hjob'
            · exact List.mem_append_right _ (List.mem_cons_of_mem _ hjob')
      · exact Or.inr (List.mem_cons_of_mem _ hstart)

/-- A thread that is let alone answers. -/
theorem exists_run_job (prog : Q → Code σ α) (s₀ : σ) {s : State Q σ α}
    {before after : List (Job Q σ α)} {q : Q} {code : Code σ α}
    (h : s.jobs = before ++ ⟨q, code⟩ :: after) :
    ∃ n, (threads prog s₀).Run s
      (List.replicate n .access ++ [.answer q (code.run s.shared).1])
      ⟨(code.run s.shared).2, before ++ after⟩ := by
  induction code generalizing s with
  | done a => exact ⟨0, .single (.answer h)⟩
  | access update next ih =>
      obtain ⟨n, hrun⟩ :=
        @ih s.shared ⟨update s.shared, before ++ ⟨q, next s.shared⟩ :: after⟩ rfl
      exact ⟨n + 1, .cons (.access h) hrun⟩

/-- A request that comes in is answered, when its thread is let alone. -/
theorem exists_run_request (prog : Q → Code σ α) (s₀ : σ) (s : State Q σ α) (q : Q) :
    ∃ n, (threads prog s₀).Run s
      (.start q :: (List.replicate n .access ++ [.answer q ((prog q).run s.shared).1]))
      ⟨((prog q).run s.shared).2, s.jobs⟩ := by
  obtain ⟨n, hrun⟩ := exists_run_job prog s₀ (s := ⟨s.shared, s.jobs ++ [⟨q, prog q⟩]⟩) rfl
  rw [List.append_nil] at hrun
  exact ⟨n, .cons (.start q) hrun⟩

end Threads

/-! ## Cells that are filled once -/

/-- The cell stays as it is, or it was empty and gets its value. -/
def Filled (value cell cell' : Option M) : Prop := cell' = cell ∨ cell = none ∧ cell' = value

theorem Filled.refl (value cell : Option M) : Filled value cell cell := Or.inl rfl

theorem Filled.trans {value cell cell' cell'' : Option M} (h : Filled value cell cell')
    (h' : Filled value cell' cell'') : Filled value cell cell'' := by
  rcases h with rfl | ⟨rfl, rfl⟩
  · exact h'
  · rcases h' with rfl | ⟨rfl, rfl⟩
    · exact Or.inr ⟨rfl, rfl⟩
    · exact Or.inl rfl

/-- What was found in a cell stays there. -/
theorem Filled.isSome {value cell cell' : Option M} (h : Filled value cell cell')
    (hcell : cell.isSome = true) : cell' = cell := by
  rcases h with h | ⟨rfl, -⟩
  · exact h
  · cases hcell

/-- A cell that was empty once is empty or has its value. -/
theorem Filled.of_none {value cell : Option M} (h : Filled value none cell) :
    cell = none ∨ cell = value := by
  rcases h with rfl | ⟨-, rfl⟩
  · exact Or.inl rfl
  · exact Or.inr rfl

/-- Filling a cell is allowed, also when another was faster. -/
theorem Filled.fill {value cell : Option M} (h : Filled value none cell) :
    Filled value cell value := by
  rcases h.of_none with rfl | rfl
  · exact Or.inr ⟨rfl, rfl⟩
  · exact Or.inl rfl

end Floodgate.Verified.Interference
