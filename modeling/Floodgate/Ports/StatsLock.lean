import Floodgate.Verified.Monitor
import Floodgate.Verified.OrderedDict
import Floodgate.Ports.Conservation

/-!
# The counters under their lock

The methods of `AntifloodStats` take several accesses each: `inc` reads and writes two
attributes, `snapshot` reads every counter twice, and `reset` reads every counter of
the window before it clears them one by one.  Worker threads, the health handler and
the reporter call them at any time, and the interpreter may switch threads between any
two accesses.  The lock makes each of them one event of the system of counters.

## Main results

* `run_statsBody`: what the bodies do when nobody interferes.
* `run_of_legal`: methods in a row are events of the system of counters.
* `stats_linearizable`: every interleaving of accesses looks like one of whole methods.
* `stats_no_lost_update`: what the threads were given, against the counters.
-/

namespace Floodgate.Ports

open Floodgate.Verified
open Floodgate.Verified.Transition
open Floodgate.Verified.Monitor (monitor)
open Floodgate.Verified.AtomicObject (Observation Readout Legal object performed returned)

/-! ## The bodies -/

/-- The methods of `AntifloodStats` that threads call. -/
inductive StatsMethod where
  | inc (counter : Counter)
  | snapshot
  | reset
  deriving DecidableEq

namespace AntifloodStats

/-- `setattr(self, counter, n)`. -/
def setRolling (stats : AntifloodStats) (counter : Counter) (n : Nat) : AntifloodStats :=
  { stats with rolling := Function.update stats.rolling counter n }

/-- `self._lifetime[counter] = n`. -/
def setLifetime (stats : AntifloodStats) (counter : Counter) (n : Nat) : AntifloodStats :=
  { stats with lifetime := Function.update stats.lifetime counter n }

end AntifloodStats

/-- The body of `inc`. -/
def incBody (counter : Counter) : Code AntifloodStats (Option StatsDict) := do
  let n ← Code.read fun stats => stats.rolling counter
  Code.write fun stats => stats.setRolling counter (n + 1)
  let n ← Code.read fun stats => stats.lifetime counter
  Code.write fun stats => stats.setLifetime counter (n + 1)
  return none

/-- Read the counters of a view one by one, in order. -/
def readCounters (view : AntifloodStats → Counter → Nat) :
    Code AntifloodStats (List (Counter × Nat)) :=
  counterNames.mapM fun k => Code.read fun stats => (k, view stats k)

/-- The counts in a dict. -/
def countsOf (snap : List (Counter × Nat)) (k : Counter) : Nat := (Assoc.get? snap k).getD 0

/-- The body of `snapshot`, which reads the lifetime counters once for the dict and once
for its total. -/
def snapshotBody : Code AntifloodStats (Option StatsDict) := do
  let snap ← readCounters AntifloodStats.lifetime
  let values ← readCounters AntifloodStats.lifetime
  return some ⟨countsOf snap, (values.map Prod.snd).sum⟩

/-- The body of `reset`. -/
def resetBody : Code AntifloodStats (Option StatsDict) := do
  let snap ← readCounters AntifloodStats.rolling
  forM counterNames fun k => Code.write fun stats => stats.setRolling k 0
  return some ⟨countsOf snap, (snap.map Prod.snd).sum⟩

def statsBody : StatsMethod → Code AntifloodStats (Option StatsDict)
  | .inc counter => incBody counter
  | .snapshot => snapshotBody
  | .reset => resetBody

/-- What the methods do as a whole; `inc` returns nothing. -/
def statsSpec : StatsMethod → AntifloodStats → Option StatsDict × AntifloodStats
  | .inc counter, stats => (none, stats.inc counter)
  | .snapshot, stats => (some stats.snapshot, stats)
  | .reset, stats => (some stats.reset.1, stats.reset.2)

/-! ## What the bodies do -/

theorem run_readCounters (view : AntifloodStats → Counter → Nat) (stats : AntifloodStats) :
    (readCounters view).run stats = (counterNames.map fun k => (k, view stats k), stats) :=
  Code.run_mapM_read _ _ _

theorem countsOf_map (f : Counter → Nat) : countsOf (counterNames.map fun k => (k, f k)) = f := by
  funext k
  cases k <;> rfl

theorem sum_map_snd (f : Counter → Nat) :
    ((counterNames.map fun k => (k, f k)).map Prod.snd).sum = counterTotal f := rfl

/-- Clearing the counters one by one clears the window. -/
theorem foldl_setRolling (stats : AntifloodStats) :
    counterNames.foldl (fun stats k => stats.setRolling k 0) stats =
      { stats with rolling := fun _ => 0 } := by
  have hrolling : (counterNames.foldl (fun stats k => stats.setRolling k 0) stats).rolling =
      fun _ => 0 := by
    funext k
    cases k <;> rfl
  show AntifloodStats.mk _ _ = _
  exact congrArg (AntifloodStats.mk · stats.lifetime) hrolling

/-- A body that nobody interferes with does what the method does. -/
theorem run_statsBody (m : StatsMethod) (stats : AntifloodStats) :
    (statsBody m).run stats = statsSpec m stats := by
  cases m with
  | inc counter => rfl
  | snapshot =>
      simp only [statsBody, snapshotBody, Code.run_bind, run_readCounters, Code.run_pure,
        countsOf_map, sum_map_snd]
      rfl
  | reset =>
      simp only [statsBody, resetBody, Code.run_bind, run_readCounters, Code.run_pure,
        Code.run_forM_write, countsOf_map, sum_map_snd, foldl_setRolling]
      rfl

/-! ## Methods in a row -/

/-- A method that a thread performed, as a call of the system of counters. -/
def statsCall (call : Nat × StatsMethod × Option StatsDict) : StatsCall :=
  match call.2.1 with
  | .inc counter => .inc call.1 counter
  | .snapshot => .snapshot
  | .reset => .reset

/-- The dicts that some calls of a method returned. -/
def dictsOf (m : StatsMethod) (calls : List (Nat × StatsMethod × Option StatsDict)) :
    List StatsDict :=
  calls.filterMap fun call => if call.2.1 = m then call.2.2 else none

/-- The number of increments of a counter among some calls. -/
def incCalls (k : Counter) (calls : List (Nat × StatsMethod × Option StatsDict)) : Nat :=
  calls.countP fun call => decide (call.2.1 = .inc k)

theorem incCount_statsCall (k : Counter)
    (calls : List (Nat × StatsMethod × Option StatsDict)) :
    incCount k ((calls.map statsCall).flatMap StatsCall.events) = incCalls k calls := by
  induction calls with
  | nil => rfl
  | cons call calls ih =>
      obtain ⟨t, m, r⟩ := call
      simp only [incCount, incCalls] at ih
      rw [incCount, incCalls, List.map_cons, List.flatMap_cons, List.countP_append,
        List.countP_cons, ih, add_comm]
      cases m with
      | inc counter =>
          simp [statsCall, StatsCall.events, Event.isInc, eq_comm]
      | snapshot => simp [statsCall, StatsCall.events, Event.isInc]
      | reset => simp [statsCall, StatsCall.events, Event.isInc]

/-- Methods in a row are events of the system of counters: the counters come to the
same, and the dicts are the ones that were returned. -/
theorem run_of_legal (statsLog : Bool) {stats stats' : AntifloodStats}
    {calls : List (Nat × StatsMethod × Option StatsDict)}
    (h : Legal statsSpec stats calls stats') {sys : StatsSystem} (hstats : sys.stats = stats)
    (hwaiting : sys.reporter = .waiting) :
    let sys' := sys.run statsLog ((calls.map statsCall).flatMap StatsCall.events)
    sys'.stats = stats' ∧ sys'.snapshots = sys.snapshots ++ dictsOf .snapshot calls ∧
      sys'.windows = sys.windows ++ dictsOf .reset calls := by
  induction h generalizing sys with
  | nil stats => exact ⟨hstats, (List.append_nil _).symm, (List.append_nil _).symm⟩
  | @cons stats stats' t m calls _ ih =>
      subst hstats
      rw [List.map_cons, List.flatMap_cons, StatsSystem.run, List.foldl_append,
        ← StatsSystem.run, ← StatsSystem.run]
      cases m with
      | inc counter => exact ih rfl hwaiting
      | snapshot =>
          obtain ⟨hlast, hsnapshots, hwindows⟩ := @ih
            (sys.run statsLog (StatsCall.events .snapshot)) rfl hwaiting
          refine ⟨hlast, hsnapshots.trans ?_, hwindows⟩
          simp [StatsSystem.run, StatsCall.events, StatsSystem.step, dictsOf, statsSpec]
      | reset =>
          have hrun : sys.run statsLog (StatsCall.events .reset) =
              { sys with
                stats := sys.stats.reset.2
                reporter := .waiting
                windows := sys.windows ++ [sys.stats.reset.1]
                logged := sys.logged ++ statsRecords statsLog sys.stats.reset.1 } := by
            simp [StatsSystem.run, StatsCall.events, StatsSystem.step, hwaiting]
          obtain ⟨hlast, hsnapshots, hwindows⟩ := @ih
            (sys.run statsLog (StatsCall.events .reset)) (by rw [hrun]; rfl) (by rw [hrun])
          refine ⟨hlast, hsnapshots.trans ?_, hwindows.trans ?_⟩
          · rw [hrun]
            rfl
          · rw [hrun]
            simp [dictsOf, statsSpec]

/-! ## Interleaved accesses -/

/-- The counters, their lock and the threads. -/
abbrev StatsThreads := Monitor.State AntifloodStats Nat StatsMethod (Option StatsDict)

/-- All threads outside, the counters at zero. -/
def StatsThreads.initial : StatsThreads := ⟨.initial, none, fun _ => .idle⟩

/-- The methods, access by access. -/
abbrev statsThreads : System StatsThreads (Monitor.Label Nat StatsMethod (Option StatsDict)) :=
  monitor statsBody .initial

/-- The methods, each of them in one step. -/
abbrev statsObject : System (AtomicObject.State AntifloodStats Nat StatsMethod (Option StatsDict))
    (AtomicObject.Label Nat StatsMethod (Option StatsDict)) :=
  object statsSpec .initial

/-- What an outsider sees of the threads: calls and returns. -/
def statsTrace (ls : List (Monitor.Label Nat StatsMethod (Option StatsDict))) :
    List (Observation Nat StatsMethod (Option StatsDict)) :=
  trace Monitor.Label.observe ls

theorem readout_lifetime : Readout statsSpec (fun stats => stats.lifetime)
    (fun m r => if m = .snapshot then r.map StatsDict.counts else none) where
  grows m stats := by
    intro k
    cases m with
    | inc counter =>
        show stats.lifetime k ≤ (stats.inc counter).lifetime k
        rw [AntifloodStats.lifetime_inc]
        exact Nat.le_add_right _ _
    | snapshot => exact le_refl _
    | reset => exact le_refl _
  shows m stats v h := by
    cases m with
    | snapshot => exact (Option.some.inj h).symm
    | inc counter | reset => cases h

/-- A dict that a method gives adds up. -/
theorem total_of_statsSpec {m : StatsMethod} {stats : AntifloodStats} {d : StatsDict}
    (h : (statsSpec m stats).1 = some d) : d.total = counterTotal d.counts := by
  cases m with
  | inc counter => cases h
  | snapshot =>
      cases h
      rfl
  | reset =>
      cases h
      rfl

/-- Every run of the threads is matched by a run of the atomic counters. -/
theorem exists_object_run {ls : List (Monitor.Label Nat StatsMethod (Option StatsDict))}
    {s : StatsThreads} (h : statsThreads.Run StatsThreads.initial ls s) :
    ∃ ls', statsObject.Run ⟨.initial, fun _ => .idle⟩ ls' s.atomic ∧
      trace AtomicObject.Label.observe ls' = statsTrace ls := by
  obtain ⟨_, ls', _, hinitial, hrun, ⟨-, rfl⟩, htrace⟩ :=
    (Monitor.simulation .initial run_statsBody).traces rfl h
  cases hinitial
  exact ⟨ls', hrun, htrace⟩

/-- No thread is in a method, but threads may wait for the lock. -/
def StatsThreads.Quiet (s : StatsThreads) : Prop :=
  ∀ t, s.phase t = .idle ∨ ∃ m, s.phase t = .waiting m

theorem StatsThreads.Quiet.atomic {s : StatsThreads} (h : s.Quiet) : s.atomic.Quiet := by
  intro t
  rcases h t with hphase | ⟨m, hphase⟩
  · simp [Monitor.State.atomic, hphase, Monitor.Phase.atomic, AtomicObject.Phase.pending]
  · simp [Monitor.State.atomic, hphase, Monitor.Phase.atomic, AtomicObject.Phase.pending]

theorem StatsThreads.Quiet.settled {s : StatsThreads} (h : s.Quiet)
    (hex : Monitor.Exclusive s) : s.settled = s.shared := by
  refine Monitor.State.settled_of_free ?_
  cases hlock : s.lock with
  | none => rfl
  | some t =>
      obtain ⟨m, code, hin⟩ := (hex t).mpr hlock
      rcases h t with hphase | ⟨m', hphase⟩
      · cases hphase.symm.trans hin
      · cases hphase.symm.trans hin

/-- Every interleaving of accesses looks like one of whole methods: there is a run of the
atomic counters with the same calls and returns, in the same order, that comes to the
same counters.  No two threads are in their critical sections at once, and the one that
is can always finish by itself and give the lock back. -/
theorem stats_linearizable {ls : List (Monitor.Label Nat StatsMethod (Option StatsDict))}
    {s : StatsThreads} (h : statsThreads.Run StatsThreads.initial ls s) :
    (∃ ls' a, statsObject.Run ⟨.initial, fun _ => .idle⟩ ls' a ∧
      trace AtomicObject.Label.observe ls' = statsTrace ls ∧
      (s.lock = none → a.shared = s.shared)) ∧
    (∀ t t', s.Inside t → s.Inside t' → t = t') ∧
    ∀ t, s.Inside t → ∃ ls' s', statsThreads.Run s ls' s' ∧
      (∀ l ∈ ls', l = .access t ∨ l = .release t) ∧ s'.lock = none := by
  have hreach : statsThreads.Reachable s := ⟨StatsThreads.initial, ls, rfl, h⟩
  refine ⟨?_, fun t t' ht ht' => Monitor.exclusive hreach ht ht', ?_⟩
  · obtain ⟨ls', hrun, htrace⟩ := exists_object_run h
    exact ⟨ls', s.atomic, hrun, htrace, Monitor.State.settled_of_free⟩
  · rintro t ⟨m, code, hphase⟩
    obtain ⟨ls', s', hrun, hlabels, hlock, -, -⟩ := Monitor.exists_release hphase
    exact ⟨ls', s', hrun, hlabels, hlock⟩

/-- Two threads count a packet at once: the second one waits for the lock until the first
one has returned. -/
def demoLabels : List (Monitor.Label Nat StatsMethod (Option StatsDict)) :=
  [ .call 0 (.inc .zerohop), .call 1 (.inc .zerohop), .acquire 0, .access 0, .access 0
  , .access 0, .access 0, .release 0, .ret 0 (.inc .zerohop) none ]

theorem run_demoLabels : ∃ s, statsThreads.Run StatsThreads.initial demoLabels s ∧ s.Quiet := by
  refine ⟨_, .cons (.call _ rfl) (.cons (.call _ rfl) (.cons (.acquire rfl rfl)
    (.cons (.access rfl) (.cons (.access rfl) (.cons (.access rfl) (.cons (.access rfl)
      (.cons (.release rfl) (.single (.ret rfl))))))))), ?_⟩
  intro t
  match t with
  | 0 => exact Or.inl rfl
  | 1 => exact Or.inr ⟨.inc .zerohop, rfl⟩
  | t + 2 => exact Or.inl rfl

/-- The run of `demoLabels` looks like one of whole methods. -/
theorem stats_linearizable_demoLabels :
    ∃ ls' a, statsObject.Run ⟨.initial, fun _ => .idle⟩ ls' a ∧
      trace AtomicObject.Label.observe ls' = statsTrace demoLabels := by
  obtain ⟨s, hrun, -⟩ := run_demoLabels
  obtain ⟨⟨ls', a, hrun', htrace, -⟩, -⟩ := stats_linearizable hrun
  exact ⟨ls', a, hrun', htrace⟩

/-- What the threads were given, against the counters: whenever no thread is in a method,
the lifetime counters are the increments that have returned, and the windows that `reset`
returned make them up with what is left in the rolling counters.  Every dict adds up,
and a snapshot that was asked for after another had been returned counts at least as
much. -/
theorem stats_no_lost_update {ls : List (Monitor.Label Nat StatsMethod (Option StatsDict))}
    {s : StatsThreads} (h : statsThreads.Run StatsThreads.initial ls s) :
    (s.Quiet → ∀ k, s.shared.lifetime k = incCalls k (returned (statsTrace ls)) ∧
      s.shared.lifetime k =
        s.shared.rolling k + countSum (dictsOf .reset (returned (statsTrace ls))) k) ∧
    (∀ t m d, (t, m, some d) ∈ returned (statsTrace ls) → d.total = counterTotal d.counts) ∧
    ∀ os₁ os₂ os₃ os₄ t t' d d',
      statsTrace ls = os₁ ++ .ret t .snapshot (some d) ::
        (os₂ ++ .call t' .snapshot :: (os₃ ++ .ret t' .snapshot (some d') :: os₄)) →
      ∀ k, d.counts k ≤ d'.counts k := by
  obtain ⟨ls', hrun, htrace⟩ := exists_object_run h
  have hlegal := AtomicObject.legal_of_run hrun
  rw [← htrace]
  refine ⟨fun hquiet k => ?_, fun t m d hmem => ?_, ?_⟩
  · have hex := Monitor.exclusive_reachable ⟨StatsThreads.initial, ls, rfl, h⟩
    have hperm := AtomicObject.returned_perm_performed hrun (fun _ => rfl) hquiet.atomic
    have hsettled : s.atomic.shared = s.shared := hquiet.settled hex
    obtain ⟨hlast, -, hwindows⟩ := @run_of_legal true _ _ _ hlegal .initial rfl rfl
    have hconserved := conserved_run true
      (((performed ls').map statsCall).flatMap StatsCall.events)
    have hincrements := hconserved.increments k
    have hwindow := hconserved.windows k
    rw [hlast, hsettled] at hincrements hwindow
    rw [hwindows] at hwindow
    have hcount : incCalls k (returned (trace AtomicObject.Label.observe ls')) =
        incCalls k (performed ls') := hperm.countP_eq _
    have hsum : countSum (dictsOf .reset (returned (trace AtomicObject.Label.observe ls'))) k =
        countSum (dictsOf .reset (performed ls')) k :=
      ((hperm.filterMap _).map _).sum_eq
    rw [hcount, hsum, ← incCount_statsCall]
    exact ⟨hincrements, hwindow⟩
  · have hperformed := AtomicObject.mem_performed_of_returned rfl hrun hmem
    obtain ⟨stats, hresult⟩ := hlegal.exists_state hperformed
    exact total_of_statsSpec hresult.symm
  · intro os₁ os₂ os₃ os₄ t t' d d' hsplit k
    exact readout_lifetime.monotone rfl hrun hsplit rfl rfl k

/-- The increment that has returned is counted. -/
theorem stats_no_lost_update_demoLabels :
    ∃ s, statsThreads.Run StatsThreads.initial demoLabels s ∧
      s.shared.lifetime .zerohop = 1 := by
  obtain ⟨s, hrun, hquiet⟩ := run_demoLabels
  exact ⟨s, hrun, ((stats_no_lost_update hrun).1 hquiet .zerohop).1⟩

end Floodgate.Ports
