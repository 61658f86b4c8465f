import Floodgate.Verified.Ledger
import Floodgate.Ports.Stats

/-!
# The counters under concurrency

Worker threads increment the counters, the health handler takes snapshots, and
the reporter drains the rolling view.  Every method of `AntifloodStats` runs under
its lock and is one event here; an interleaving of any number of threads is a list
of events, and the state is a function of the list.

The reporter goes on, outside the lock, from the window that `reset` returned to
the line it logs for it, so that this is an event of its own.  A window in between
is pending.

## Main results

* `account_run`: the counters refine an account in two views.
* `Books.step`: what the reporter has logged, or is about to log.
* `stats_conserved`: the conservation of counts, for every interleaving.
-/

namespace Floodgate.Ports

open Floodgate.Verified.Ledger

/-! ## The threads -/

/-- Where the reporter is: in `stop_event.wait`, past a `reset`, or out of its loop. -/
inductive Reporter where
  | waiting
  | holding (snap : StatsDict)
  | exited

/-- The shared counters, the reporter, and everything that was returned and logged. -/
structure StatsSystem where
  stats : AntifloodStats
  reporter : Reporter
  snapshots : List StatsDict
  windows : List StatsDict
  logged : List StatsDict

/-- What a thread does in one step. -/
inductive Event where
  /-- `stats.inc(counter)` in a worker thread. -/
  | inc (thread : Nat) (counter : Counter)
  /-- `stats.snapshot()` in the health handler. -/
  | snapshot
  /-- `stop_event.wait` returns in the reporter, which leaves its loop or calls
  `stats.reset()`. -/
  | wake (stopped : Bool)
  /-- The reporter goes from `stats.reset()` to its next wait. -/
  | report

/-- The stats records that `_stats_reporter` logs for a window. -/
def statsRecords (statsLog : Bool) (snap : StatsDict) : List StatsDict :=
  if !statsLog then [] else if snap.total > 0 then [snap] else []

namespace StatsSystem

def initial : StatsSystem := ⟨.initial, .waiting, [], [], []⟩

def step (statsLog : Bool) (sys : StatsSystem) : Event → StatsSystem
  | .inc _ counter => { sys with stats := sys.stats.inc counter }
  | .snapshot => { sys with snapshots := sys.snapshots ++ [sys.stats.snapshot] }
  | .wake stopped =>
      match sys.reporter with
      | .waiting =>
          if stopped then { sys with reporter := .exited }
          else
            let (snap, stats) := sys.stats.reset
            { sys with
              stats := stats
              reporter := .holding snap
              windows := sys.windows ++ [snap] }
      | .holding _ | .exited => sys
  | .report =>
      match sys.reporter with
      | .holding snap =>
          { sys with
            reporter := .waiting
            logged := sys.logged ++ statsRecords statsLog snap }
      | .waiting | .exited => sys

/-- The state after an interleaving. -/
def run (statsLog : Bool) (sys : StatsSystem) (events : List Event) : StatsSystem :=
  events.foldl (step statsLog) sys

/-- The records that the reporter is about to log. -/
def pending (statsLog : Bool) (sys : StatsSystem) : List StatsDict :=
  match sys.reporter with
  | .holding snap => statsRecords statsLog snap
  | .waiting | .exited => []

end StatsSystem

/-- The event is an increment of the counter. -/
def Event.isInc (k : Counter) : Event → Bool
  | .inc _ counter => decide (k = counter)
  | .snapshot | .wake _ | .report => false

/-- The number of increments of a counter. -/
def incCount (k : Counter) (events : List Event) : Nat := events.countP (Event.isInc k)

/-! ## The counters as an account -/

/-- The counters, with the dicts they returned, as an account. -/
def StatsSystem.account (sys : StatsSystem) : Account Counter Nat where
  window := sys.stats.rolling
  lifetime := sys.stats.lifetime
  drained := sys.windows.map StatsDict.counts
  reads := sys.snapshots.map StatsDict.counts

/-- What an event does to the account. -/
def StatsSystem.ops (sys : StatsSystem) : Event → List (Op Counter Nat)
  | .inc _ counter => [.add counter 1]
  | .snapshot => [.read]
  | .wake stopped =>
      match sys.reporter with
      | .waiting => if stopped then [] else [.drain]
      | .holding _ | .exited => []
  | .report => []

theorem StatsSystem.account_step (statsLog : Bool) (sys : StatsSystem) (e : Event) :
    (sys.step statsLog e).account = sys.account.run (sys.ops e) := by
  cases e with
  | inc thread counter =>
      have hrolling : (sys.stats.inc counter).rolling = credit sys.stats.rolling counter 1 :=
        funext fun k => sys.stats.rolling_inc counter k
      have hlifetime :
          (sys.stats.inc counter).lifetime = credit sys.stats.lifetime counter 1 :=
        funext fun k => sys.stats.lifetime_inc counter k
      simp only [step, account, ops, Account.run, List.foldl_cons, List.foldl_nil,
        Account.step, hrolling, hlifetime]
  | snapshot => simp [step, account, ops, Account.run, Account.step, AntifloodStats.snapshot]
  | wake stopped =>
      cases hreporter : sys.reporter with
      | waiting =>
          cases stopped with
          | true => simp [step, account, ops, Account.run, hreporter]
          | false =>
              simp [step, account, ops, Account.run, Account.step, hreporter,
                AntifloodStats.reset]
      | holding snap => simp [step, account, ops, Account.run, hreporter]
      | exited => simp [step, account, ops, Account.run, hreporter]
  | report =>
      cases hreporter : sys.reporter <;>
        simp [step, account, ops, Account.run, hreporter]

theorem StatsSystem.added_ops (sys : StatsSystem) (e : Event) (k : Counter) :
    added (sys.ops e) k = if e.isInc k then 1 else 0 := by
  cases e with
  | inc thread counter => simp [ops, added, Op.adds, Event.isInc]
  | snapshot => rfl
  | wake stopped =>
      cases hreporter : sys.reporter <;> cases stopped <;>
        simp [ops, hreporter, added, Op.adds, Event.isInc]
  | report => rfl

/-- Whatever the interleaving, the counters are an account after some operations,
which add as many as there were increments. -/
theorem account_run (statsLog : Bool) (sys : StatsSystem) (events : List Event) :
    ∃ ops, (sys.run statsLog events).account = sys.account.run ops ∧
      ∀ k, added ops k = incCount k events := by
  induction events generalizing sys with
  | nil => exact ⟨[], rfl, fun _ => rfl⟩
  | cons e events ih =>
      obtain ⟨ops, hrun, hadded⟩ := ih (sys.step statsLog e)
      refine ⟨sys.ops e ++ ops, ?_, fun k => ?_⟩
      · rw [Account.run_append, ← StatsSystem.account_step statsLog]
        exact hrun
      · rw [added_append, sys.added_ops, hadded, incCount, incCount, List.countP_cons,
          add_comm]

/-! ## What the reporter logs -/

/-- The dicts add up, and the reporter has logged, or is about to log, the records of
the windows it took. -/
structure Books (statsLog : Bool) (sys : StatsSystem) : Prop where
  totals : ∀ d ∈ sys.snapshots ++ sys.windows, d.total = counterTotal d.counts
  records : sys.logged ++ sys.pending statsLog =
    sys.windows.flatMap (statsRecords statsLog)

theorem books_initial (statsLog : Bool) : Books statsLog .initial :=
  ⟨fun _ h => absurd h List.not_mem_nil, rfl⟩

/-- Every event keeps the reporter's books. -/
theorem Books.step {statsLog : Bool} {sys : StatsSystem} (h : Books statsLog sys)
    (e : Event) : Books statsLog (sys.step statsLog e) := by
  cases e with
  | inc thread counter => exact ⟨h.totals, h.records⟩
  | snapshot =>
      refine ⟨fun d hd => ?_, h.records⟩
      simp only [StatsSystem.step, List.append_assoc, List.mem_append,
        List.mem_singleton] at hd
      rcases hd with hd | rfl | hd
      · exact h.totals d (List.mem_append_left _ hd)
      · rfl
      · exact h.totals d (List.mem_append_right _ hd)
  | wake stopped =>
      cases hreporter : sys.reporter with
      | waiting =>
          have hrecords := h.records
          simp only [StatsSystem.pending, hreporter, List.append_nil] at hrecords
          cases stopped with
          | true =>
              simp only [StatsSystem.step, hreporter, if_true]
              exact ⟨h.totals, by simpa [StatsSystem.pending] using hrecords⟩
          | false =>
              simp only [StatsSystem.step, hreporter, Bool.false_eq_true, if_false]
              refine ⟨fun d hd => ?_, ?_⟩
              · simp only [← List.append_assoc, List.mem_append (t := [_]),
                  List.mem_singleton] at hd
                rcases hd with hd | rfl
                · exact h.totals d hd
                · rfl
              · simp [StatsSystem.pending, hrecords]
      | holding snap => simpa only [StatsSystem.step, hreporter] using h
      | exited => simpa only [StatsSystem.step, hreporter] using h
  | report =>
      cases hreporter : sys.reporter with
      | holding snap =>
          have hrecords := h.records
          simp only [StatsSystem.pending, hreporter] at hrecords
          simp only [StatsSystem.step, hreporter]
          exact ⟨h.totals, by simpa [StatsSystem.pending] using hrecords⟩
      | waiting => simpa only [StatsSystem.step, hreporter] using h
      | exited => simpa only [StatsSystem.step, hreporter] using h

theorem books_run {statsLog : Bool} {sys : StatsSystem} (h : Books statsLog sys)
    (events : List Event) : Books statsLog (sys.run statsLog events) := by
  induction events generalizing sys with
  | nil => exact h
  | cons e events ih => exact ih (h.step e)

/-- The sum of a counter over some dicts. -/
def countSum (dicts : List StatsDict) (k : Counter) : Nat :=
  (dicts.map fun d => d.counts k).sum

/-- A window that is not logged counts nothing. -/
theorem counts_eq_zero_of_records_eq_nil {d : StatsDict}
    (htotal : d.total = counterTotal d.counts) (h : statsRecords true d = []) (k : Counter) :
    d.counts k = 0 := by
  have hzero : d.total = 0 := by
    by_contra hne
    simp [statsRecords, Nat.pos_of_ne_zero hne] at h
  exact (counterTotal_eq_zero_iff d.counts).mp (htotal ▸ hzero) k

/-- With `stats_log`, the records of some windows count what the windows count. -/
theorem countSum_records {windows : List StatsDict}
    (h : ∀ d ∈ windows, d.total = counterTotal d.counts) (k : Counter) :
    countSum (windows.flatMap (statsRecords true)) k = countSum windows k := by
  induction windows with
  | nil => rfl
  | cons d windows ih =>
      have hrest := ih fun d' hd' => h d' (List.mem_cons_of_mem d hd')
      have hhead : countSum (statsRecords true d) k = d.counts k := by
        by_cases hpos : d.total > 0
        · simp [countSum, statsRecords, hpos]
        · have hnil : statsRecords true d = [] := by simp [statsRecords, hpos]
          rw [hnil, counts_eq_zero_of_records_eq_nil (h d List.mem_cons_self) hnil k]
          rfl
      rw [List.flatMap_cons, countSum, List.map_append, List.sum_append, ← countSum,
        ← countSum, hhead, hrest, countSum, countSum, List.map_cons, List.sum_cons]

/-! ## Conservation -/

/-- The counters and the dicts they returned, after the given events. -/
structure Conserved (statsLog : Bool) (events : List Event) (sys : StatsSystem) :
    Prop where
  increments : ∀ k, sys.stats.lifetime k = incCount k events
  windows : ∀ k, sys.stats.lifetime k = sys.stats.rolling k + countSum sys.windows k
  totals : ∀ d ∈ sys.snapshots ++ sys.windows, d.total = counterTotal d.counts
  monotone : sys.snapshots.Pairwise fun d d' => ∀ k, d.counts k ≤ d'.counts k
  logged : statsLog = true → ∀ k,
    countSum (sys.logged ++ sys.pending statsLog) k + sys.stats.rolling k =
      sys.stats.lifetime k
  /-- The windows that are not logged carry nothing. -/
  unlogged : statsLog = true → ∀ d ∈ sys.windows,
    d ∈ sys.logged ++ sys.pending statsLog ∨ ∀ k, d.counts k = 0

theorem conserved_run (statsLog : Bool) (events : List Event) :
    Conserved statsLog events (StatsSystem.initial.run statsLog events) := by
  obtain ⟨ops, hrun, hadded⟩ := account_run statsLog .initial events
  have hbalanced : (StatsSystem.initial.run statsLog events).account.Balanced
      (added ops) := hrun ▸ balanced_run ops
  have hbooks := books_run (books_initial statsLog) events
  generalize StatsSystem.initial.run statsLog events = sys at hbalanced hbooks
  have hwindows : ∀ k, sys.stats.lifetime k = sys.stats.rolling k + countSum sys.windows k := by
    intro k
    have hsplit := hbalanced.window_add k
    simpa only [StatsSystem.account, List.map_map, Function.comp_def, countSum] using hsplit
  have htotals : ∀ d ∈ sys.windows, d.total = counterTotal d.counts :=
    fun d hd => hbooks.totals d (List.mem_append_right _ hd)
  have hincrements : ∀ k, sys.stats.lifetime k = incCount k events := by
    intro k
    have hlifetime : sys.stats.lifetime k = added ops k := hbalanced.lifetime_eq k
    rw [hlifetime, hadded]
  have hmonotone : sys.snapshots.Pairwise fun d d' => ∀ k, d.counts k ≤ d'.counts k :=
    List.pairwise_map.mp hbalanced.reads_monotone
  have hlogged : statsLog = true → ∀ k,
      countSum (sys.logged ++ sys.pending statsLog) k + sys.stats.rolling k =
        sys.stats.lifetime k := by
    intro hlog k
    subst hlog
    rw [hbooks.records, countSum_records htotals, hwindows]
    omega
  have hunlogged : statsLog = true → ∀ d ∈ sys.windows,
      d ∈ sys.logged ++ sys.pending statsLog ∨ ∀ k, d.counts k = 0 := by
    intro hlog d hd
    subst hlog
    rw [hbooks.records]
    by_cases hpos : d.total > 0
    · have hrecord : d ∈ statsRecords true d := by simp [statsRecords, hpos]
      exact Or.inl (List.mem_flatMap.mpr ⟨d, hd, hrecord⟩)
    · have hnil : statsRecords true d = [] := by simp [statsRecords, hpos]
      exact Or.inr (counts_eq_zero_of_records_eq_nil (htotals d hd) hnil)
  exact ⟨hincrements, hwindows, hbooks.totals, hmonotone, hlogged, hunlogged⟩

/-- A window that was logged counts nothing that the lifetime counters do not. -/
theorem logged_le_lifetime (statsLog : Bool) (events : List Event) {d : StatsDict}
    (hd : d ∈ (StatsSystem.initial.run statsLog events).logged) :
    (∀ k, d.counts k ≤ (StatsSystem.initial.run statsLog events).stats.lifetime k) ∧
      d.total ≤ counterTotal (StatsSystem.initial.run statsLog events).stats.lifetime := by
  have hconserved := conserved_run statsLog events
  have hbooks := books_run (books_initial statsLog) events
  generalize StatsSystem.initial.run statsLog events = sys at hd hconserved hbooks ⊢
  have hwindow : d ∈ sys.windows := by
    have hrecord : d ∈ sys.windows.flatMap (statsRecords statsLog) :=
      hbooks.records ▸ List.mem_append_left _ hd
    obtain ⟨window, hwindow, hd⟩ := List.mem_flatMap.mp hrecord
    unfold statsRecords at hd
    split at hd
    · exact absurd hd List.not_mem_nil
    · split at hd
      · exact List.mem_singleton.mp hd ▸ hwindow
      · exact absurd hd List.not_mem_nil
  have hcounts : ∀ k, d.counts k ≤ sys.stats.lifetime k := by
    intro k
    have hsum : d.counts k ≤ countSum sys.windows k :=
      List.single_le_sum (fun _ _ => Nat.zero_le _) _ (List.mem_map_of_mem hwindow)
    rw [hconserved.windows k]
    exact hsum.trans (Nat.le_add_left _ _)
  rw [hconserved.totals d (List.mem_append_right _ hwindow)]
  exact ⟨hcounts, counterTotal_mono hcounts⟩

/-- A call of one of the methods. -/
inductive StatsCall where
  | inc (thread : Nat) (counter : Counter)
  | snapshot
  | reset

/-- The events of a call: the reporter logs its window before anything else happens. -/
def StatsCall.events : StatsCall → List Event
  | .inc thread counter => [.inc thread counter]
  | .snapshot => [.snapshot]
  | .reset => [.wake false, .report]

/-- Between two calls the reporter has nothing left to log. -/
theorem waiting_of_calls (statsLog : Bool) {sys : StatsSystem} (h : sys.reporter = .waiting)
    (calls : List StatsCall) :
    (sys.run statsLog (calls.flatMap StatsCall.events)).reporter = .waiting := by
  induction calls generalizing sys with
  | nil => exact h
  | cons call calls ih =>
      rw [List.flatMap_cons, StatsSystem.run, List.foldl_append]
      refine ih ?_
      cases call with
      | inc thread counter => exact h
      | snapshot => exact h
      | reset => simp [StatsCall.events, StatsSystem.step, h]

/-- For every interleaving, the lifetime counters are the increments so far, which are
what `reset` returned with what is still in the window; the dicts add up and the
snapshots are monotone.  With `stats_log`, the records and the window make up the
lifetime counters after every call, and with the pending record at every event. -/
theorem stats_conserved (statsLog : Bool) :
    (∀ events, Conserved statsLog events (StatsSystem.initial.run statsLog events)) ∧
    ∀ calls : List StatsCall,
      let sys := StatsSystem.initial.run statsLog (calls.flatMap StatsCall.events)
      statsLog = true → ∀ k,
        countSum sys.logged k + sys.stats.rolling k = sys.stats.lifetime k := by
  refine ⟨conserved_run statsLog, ?_⟩
  intro calls sys hlog k
  have hlogged := (conserved_run statsLog (calls.flatMap StatsCall.events)).logged hlog k
  have hwaiting := waiting_of_calls statsLog (rfl : StatsSystem.initial.reporter = .waiting) calls
  rw [StatsSystem.pending, hwaiting, List.append_nil] at hlogged
  exact hlogged

end Floodgate.Ports
