import Mathlib.Algebra.BigOperators.Group.List.Basic
import Mathlib.Algebra.Order.Monoid.Canonical.Defs
import Mathlib.Data.List.Induction

/-!
# Accounts in two views

An account adds amounts under keys and keeps two views of them: the *window*,
which is drained from time to time, and the *lifetime* view, which only grows.
Each operation is one step, whoever performs it, so that an interleaving of the
operations of any number of threads is a list of operations, and a statement for
every list is one for every interleaving.

The account keeps the history of what its operations returned, so that the two
views can be stated against everything that was ever handed out.

## Main results

* `balanced_run`: after any operations, the lifetime view is what was added, which is
  what the drains returned with what is left in the window; the reads are monotone.
-/

namespace Floodgate.Verified.Ledger

/-- An operation on an account. -/
inductive Op (κ M : Type) where
  | add (key : κ) (amount : M)
  | drain
  | read

/-- An account, with the windows that its drains returned and the lifetime views that
its reads returned, oldest first. -/
structure Account (κ M : Type) where
  window : κ → M
  lifetime : κ → M
  drained : List (κ → M)
  reads : List (κ → M)

/-- The account before any operation. -/
def Account.empty {κ M : Type} [Zero M] : Account κ M := ⟨fun _ => 0, fun _ => 0, [], []⟩

/-- The two views of an account, against everything that was added, drained and
read. -/
structure Account.Balanced {κ M : Type} [AddCommMonoid M] [LE M] (a : Account κ M)
    (total : κ → M) : Prop where
  lifetime_eq : ∀ k, a.lifetime k = total k
  window_add : ∀ k, a.lifetime k = a.window k + (a.drained.map fun w => w k).sum
  read_le : ∀ r ∈ a.reads, ∀ k, r k ≤ a.lifetime k
  reads_monotone : a.reads.Pairwise fun r r' => ∀ k, r k ≤ r' k

theorem balanced_empty {κ M : Type} [AddCommMonoid M] [LE M] :
    (Account.empty : Account κ M).Balanced fun _ => 0 where
  lifetime_eq _ := rfl
  window_add _ := by simp [Account.empty]
  read_le _ h := absurd h List.not_mem_nil
  reads_monotone := List.Pairwise.nil

variable {κ M : Type} [DecidableEq κ] [AddCommMonoid M]

/-- Add an amount under one key. -/
def credit (view : κ → M) (key : κ) (amount : M) : κ → M := fun k =>
  view k + if k = key then amount else 0

namespace Account

def step (a : Account κ M) : Op κ M → Account κ M
  | .add key amount =>
      { a with
        window := credit a.window key amount
        lifetime := credit a.lifetime key amount }
  | .drain => { a with window := fun _ => 0, drained := a.drained ++ [a.window] }
  | .read => { a with reads := a.reads ++ [a.lifetime] }

/-- The account after a list of operations. -/
def run (a : Account κ M) (ops : List (Op κ M)) : Account κ M := ops.foldl step a

theorem run_append (a : Account κ M) (ops ops' : List (Op κ M)) :
    a.run (ops ++ ops') = (a.run ops).run ops' := List.foldl_append

end Account

/-- What one operation adds under a key. -/
def Op.adds (k : κ) : Op κ M → M
  | .add key amount => if k = key then amount else 0
  | .drain | .read => 0

/-- What a list of operations adds under a key. -/
def added (ops : List (Op κ M)) (k : κ) : M := (ops.map (Op.adds k)).sum

theorem added_append (ops ops' : List (Op κ M)) (k : κ) :
    added (ops ++ ops') k = added ops k + added ops' k := by
  simp [added]

section Order

variable [PartialOrder M] [CanonicallyOrderedAdd M]

/-- Every operation keeps an account balanced. -/
theorem Account.Balanced.step {a : Account κ M} {total : κ → M} (h : a.Balanced total)
    (op : Op κ M) : (a.step op).Balanced fun k => total k + op.adds k := by
  cases op with
  | add key amount =>
      have hlifetime : ∀ k, credit a.lifetime key amount k =
          total k + Op.adds k (.add key amount) := by
        intro k
        rw [credit, h.lifetime_eq]
        rfl
      have hwindow : ∀ k, credit a.lifetime key amount k =
          credit a.window key amount k + (a.drained.map fun w => w k).sum := by
        intro k
        rw [credit, credit, h.window_add]
        exact add_right_comm _ _ _
      have hread : ∀ r ∈ a.reads, ∀ k, r k ≤ credit a.lifetime key amount k := by
        intro r hr k
        exact (h.read_le r hr k).trans le_self_add
      exact ⟨hlifetime, hwindow, hread, h.reads_monotone⟩
  | drain =>
      have hlifetime : ∀ k, a.lifetime k = total k + Op.adds k (.drain : Op κ M) := by
        intro k
        rw [h.lifetime_eq, Op.adds, add_zero]
      have hwindow : ∀ k, a.lifetime k =
          0 + ((a.drained ++ [a.window]).map fun w => w k).sum := by
        intro k
        rw [h.window_add, List.map_append, List.sum_append, List.map_singleton,
          List.sum_singleton, zero_add, add_comm]
      exact ⟨hlifetime, hwindow, h.read_le, h.reads_monotone⟩
  | read =>
      have hlifetime : ∀ k, a.lifetime k = total k + Op.adds k (.read : Op κ M) := by
        intro k
        rw [h.lifetime_eq, Op.adds, add_zero]
      have hread : ∀ r ∈ a.reads ++ [a.lifetime], ∀ k, r k ≤ a.lifetime k := by
        intro r hr k
        rcases List.mem_append.mp hr with hr | hr
        · exact h.read_le r hr k
        · rw [List.mem_singleton.mp hr]
      have hmonotone : (a.reads ++ [a.lifetime]).Pairwise fun r r' => ∀ k, r k ≤ r' k := by
        rw [List.pairwise_append]
        refine ⟨h.reads_monotone, List.pairwise_singleton _ _, ?_⟩
        intro r hr r' hr' k
        rw [List.mem_singleton.mp hr']
        exact h.read_le r hr k
      exact ⟨hlifetime, h.window_add, hread, hmonotone⟩

/-- After any operations, an account is balanced. -/
theorem balanced_run (ops : List (Op κ M)) :
    (Account.empty.run ops).Balanced (added ops) := by
  induction ops using List.reverseRecOn with
  | nil => exact balanced_empty
  | append_singleton ops op ih =>
      rw [Account.run_append]
      have hstep := ih.step op
      have htotal : (fun k => added ops k + op.adds k) = added (ops ++ [op]) := by
        funext k
        simp [added]
      rwa [htotal] at hstep

end Order

end Floodgate.Verified.Ledger
