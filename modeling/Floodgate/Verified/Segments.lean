import Mathlib.Data.List.Basic

/-!
# Texts as segments between separators

A text over any alphabet is a nonempty list of segments that are free of a
separator, in exactly one way: splitting at the separator and joining with it
are inverse to each other.  A parser that indexes the segments from either end
can therefore be read as a grammar.

## Main results

* `not_mem_of_mem_splitOn`: no segment has the separator in it.
* `splitOn_eq_iff`: the segments of a text are the only separator-free ones
  that join to it.
-/

namespace Floodgate.Verified.Segments

variable {α : Type} [DecidableEq α]

/-- No segment of a split text has the separator in it. -/
theorem not_mem_of_mem_splitOn {sep : α} {text segment : List α}
    (h : segment ∈ text.splitOn sep) : sep ∉ segment := by
  induction text generalizing segment with
  | nil =>
      have hnil : segment = [] := by simpa using h
      simp [hnil]
  | cons c text ih =>
      rw [List.splitOn_cons_eq_if_modifyHead] at h
      split at h
      · rcases List.mem_cons.mp h with rfl | h
        · exact List.not_mem_nil
        · exact ih h
      · next hc =>
        -- the character joins the first segment of the rest
        cases hsplit : text.splitOn sep with
        | nil => exact absurd hsplit (List.splitOn_ne_nil _ _)
        | cons first rest =>
            rw [hsplit, List.modifyHead_cons] at h
            rcases List.mem_cons.mp h with rfl | h
            · have hfirst : sep ∉ first := ih (hsplit ▸ List.mem_cons_self)
              rw [List.mem_cons, not_or]
              exact ⟨fun e => hc (beq_iff_eq.mpr e.symm), hfirst⟩
            · exact ih (hsplit ▸ List.mem_cons_of_mem first h)

/-- The segments of a text are the only separator-free ones that join to it. -/
theorem splitOn_eq_iff {sep : α} {text : List α} {segments : List (List α)} :
    text.splitOn sep = segments ↔
      segments ≠ [] ∧ (∀ segment ∈ segments, sep ∉ segment) ∧
        [sep].intercalate segments = text := by
  constructor
  · rintro rfl
    exact ⟨List.splitOn_ne_nil _ _, fun _ => not_mem_of_mem_splitOn,
      List.intercalate_splitOn sep⟩
  · rintro ⟨hne, hfree, rfl⟩
    exact List.splitOn_intercalate sep hfree hne

/-- What is behind a fixed front. -/
theorem dropPrefix?_append (front rest : List α) :
    (front ++ rest).dropPrefix? front = some rest :=
  List.dropPrefix?_eq_some_iff.mpr ⟨front, rfl, beq_self_eq_true front⟩

/-- What is in front of a fixed end. -/
theorem dropSuffix?_append (rest back : List α) :
    (rest ++ back).dropSuffix? back = some rest :=
  List.dropSuffix?_eq_some_iff.mpr ⟨back, rfl, beq_self_eq_true back⟩

end Floodgate.Verified.Segments
