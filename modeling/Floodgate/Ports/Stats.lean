import Mathlib

/-!
# Packet counters

`AntifloodStats` keeps two views of six counters: the rolling one is drained
once per reporting interval, the lifetime one only grows.  Each method runs
under the lock, so each is one function on the state.

## Main results

* `AntifloodStats.rolling_inc`, `AntifloodStats.lifetime_inc`: an increment adds
  one to its own counter in both views and leaves the other counters alone.
* `counterTotal_add`, `counterTotal_single`: totals are additive.
-/

namespace Floodgate.Ports

/-- `_COUNTER_NAMES`. -/
inductive Counter where
  | zerohop | passthru | noop | dropped | skipped | errors
  deriving DecidableEq, Repr

/-- `_COUNTER_NAMES`, in order. -/
def counterNames : List Counter :=
  [.zerohop, .passthru, .noop, .dropped, .skipped, .errors]

/-- The sum over the six counters. -/
def counterTotal (counts : Counter → Nat) : Nat := (counterNames.map counts).sum

/-- `AntifloodStats`. -/
structure AntifloodStats where
  rolling : Counter → Nat
  lifetime : Counter → Nat

/-- A dict that `snapshot` or `reset` returns: the counters and `"total"`. -/
structure StatsDict where
  counts : Counter → Nat
  total : Nat

namespace AntifloodStats

/-- The stats a process starts with. -/
def initial : AntifloodStats := ⟨fun _ => 0, fun _ => 0⟩

/-- `inc`. -/
def inc (stats : AntifloodStats) (counter : Counter) : AntifloodStats where
  rolling := Function.update stats.rolling counter (stats.rolling counter + 1)
  lifetime := Function.update stats.lifetime counter (stats.lifetime counter + 1)

/-- `snapshot`. -/
def snapshot (stats : AntifloodStats) : StatsDict :=
  ⟨stats.lifetime, counterTotal stats.lifetime⟩

/-- `reset`: the window's counts, and the stats with the window cleared. -/
def reset (stats : AntifloodStats) : StatsDict × AntifloodStats :=
  (⟨stats.rolling, counterTotal stats.rolling⟩, { stats with rolling := fun _ => 0 })

@[simp] theorem rolling_inc (stats : AntifloodStats) (counter k : Counter) :
    (stats.inc counter).rolling k = stats.rolling k + if k = counter then 1 else 0 := by
  by_cases h : k = counter
  · subst h
    simp [inc]
  · simp [inc, h]

@[simp] theorem lifetime_inc (stats : AntifloodStats) (counter k : Counter) :
    (stats.inc counter).lifetime k = stats.lifetime k + if k = counter then 1 else 0 := by
  by_cases h : k = counter
  · subst h
    simp [inc]
  · simp [inc, h]

end AntifloodStats

theorem counterTotal_congr {f g : Counter → Nat} (h : ∀ k, f k = g k) :
    counterTotal f = counterTotal g :=
  congrArg counterTotal (funext h)

theorem counterTotal_add (f g : Counter → Nat) :
    counterTotal (fun k => f k + g k) = counterTotal f + counterTotal g := by
  simp only [counterTotal, counterNames, List.map_cons, List.map_nil, List.sum_cons,
    List.sum_nil]
  omega

theorem counterTotal_mono {f g : Counter → Nat} (h : ∀ k, f k ≤ g k) :
    counterTotal f ≤ counterTotal g :=
  List.sum_le_sum fun k _ => h k

/-- A total of zero is a total of zeros. -/
theorem counterTotal_eq_zero_iff (f : Counter → Nat) :
    counterTotal f = 0 ↔ ∀ k, f k = 0 := by
  constructor
  · intro h k
    simp only [counterTotal, counterNames, List.map_cons, List.map_nil, List.sum_cons,
      List.sum_nil] at h
    cases k <;> omega
  · intro h
    simp [counterTotal, counterNames, h]

theorem le_counterTotal (f : Counter → Nat) (k : Counter) : f k ≤ counterTotal f := by
  refine List.single_le_sum (fun _ _ => Nat.zero_le _) _ (List.mem_map_of_mem ?_)
  cases k <;> decide

theorem counterTotal_single (counter : Counter) :
    counterTotal (fun k => if k = counter then 1 else 0) = 1 := by
  cases counter <;> rfl

end Floodgate.Ports
