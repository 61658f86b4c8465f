import Mathlib.Data.List.Forall2

/-!
# Topic filters

A topic is a list of levels.  A filter is a list of segments: a level that stands for
itself, a wildcard for one level, or, in the last place only, a wildcard for all levels
that are left, none included.

Levels are of any type.

## Main results

* `accepts_iff`: what a filter accepts, by its segments.
* `exists_front_of_length_ne`: a filter that accepts topics of two lengths ends in the
  wildcard for the rest.
* `accepts_open_iff`: such a filter looks at the front of a topic.
-/

namespace Floodgate.Verified.TopicFilter

variable {α : Type} [DecidableEq α]

/-- A segment of a filter. -/
inductive Segment (α : Type) where
  | level (a : α)
  | one
  | rest
  deriving DecidableEq

/-- The filter accepts the topic.  A wildcard for the rest that is not last accepts
nothing. -/
def accepts : List (Segment α) → List α → Bool
  | [], [] => true
  | [.rest], _ => true
  | .one :: filter, _ :: topic => accepts filter topic
  | .level a :: filter, b :: topic => decide (a = b) && accepts filter topic
  | _, _ => false

/-- The segment stands for the level. -/
inductive StandsFor : Segment α → α → Prop
  | level (a : α) : StandsFor (.level a) a
  | one (a : α) : StandsFor .one a

omit [DecidableEq α] in
theorem standsFor_level {a b : α} : StandsFor (.level a) b ↔ a = b := by
  constructor
  · rintro ⟨⟩
    rfl
  · rintro rfl
    exact .level a

omit [DecidableEq α] in
theorem not_standsFor_rest {a : α} : ¬StandsFor .rest a := by
  rintro ⟨⟩

/-- What a filter accepts: segment by segment, up to a wildcard for the rest. -/
theorem accepts_iff {filter : List (Segment α)} {topic : List α} :
    accepts filter topic = true ↔ List.Forall₂ StandsFor filter topic ∨
      ∃ front head tail, filter = front ++ [.rest] ∧ topic = head ++ tail ∧
        List.Forall₂ StandsFor front head := by
  constructor
  · intro h
    fun_induction accepts filter topic with
    | case1 => exact Or.inl .nil
    | case2 topic => exact Or.inr ⟨[], [], topic, rfl, rfl, .nil⟩
    | case3 filter a topic ih =>
        rcases ih h with hall | ⟨front, head, tail, rfl, rfl, hfront⟩
        · exact Or.inl (.cons (.one a) hall)
        · exact Or.inr ⟨.one :: front, a :: head, tail, rfl, rfl, .cons (.one a) hfront⟩
    | case4 a filter b topic ih =>
        rw [Bool.and_eq_true, decide_eq_true_eq] at h
        obtain ⟨rfl, h⟩ := h
        rcases ih h with hall | ⟨front, head, tail, rfl, rfl, hfront⟩
        · exact Or.inl (.cons (.level a) hall)
        · exact Or.inr ⟨.level a :: front, a :: head, tail, rfl, rfl, .cons (.level a) hfront⟩
    | case5 => cases h
  · rintro (hall | ⟨front, head, tail, rfl, rfl, hfront⟩)
    · induction hall with
      | nil => rfl
      | cons hsegment _ ih =>
          cases hsegment with
          | level a => simpa [accepts] using ih
          | one a => exact ih
    · induction hfront with
      | nil => cases tail <;> rfl
      | cons hsegment _ ih =>
          cases hsegment with
          | level a => simpa [accepts] using ih
          | one a => exact ih

/-- A filter that accepts topics of two lengths ends in the wildcard for the rest. -/
theorem exists_front_of_length_ne {filter : List (Segment α)} {topic topic' : List α}
    (h : accepts filter topic = true) (h' : accepts filter topic' = true)
    (hne : topic.length ≠ topic'.length) :
    ∃ front, filter = front ++ [.rest] := by
  rcases accepts_iff.mp h with hall | ⟨front, -, -, hfront, -⟩
  · rcases accepts_iff.mp h' with hall' | ⟨front, -, -, hfront, -⟩
    · exact absurd (hall.length_eq.symm.trans hall'.length_eq) hne
    · exact ⟨front, hfront⟩
  · exact ⟨front, hfront⟩

omit [DecidableEq α] in
theorem not_forall₂_rest (front : List (Segment α)) (topic : List α) :
    ¬List.Forall₂ StandsFor (front ++ [.rest]) topic := by
  intro h
  induction front generalizing topic with
  | nil =>
      cases h with
      | cons hsegment _ => exact not_standsFor_rest hsegment
  | cons segment front ih =>
      cases h with
      | cons _ h => exact ih _ h

/-- A filter that ends in the wildcard for the rest looks at the front of a topic. -/
theorem accepts_open_iff {front : List (Segment α)} {topic : List α} :
    accepts (front ++ [.rest]) topic = true ↔
      List.Forall₂ StandsFor front (topic.take front.length) := by
  rw [accepts_iff]
  constructor
  · rintro (hall | ⟨front', head, tail, hfront, rfl, hstands⟩)
    · exact absurd hall (not_forall₂_rest front topic)
    · obtain rfl := List.append_cancel_right hfront
      rwa [hstands.length_eq, List.take_left]
  · intro hstands
    exact Or.inr ⟨front, topic.take front.length, topic.drop front.length, rfl,
      (List.take_append_drop _ topic).symm, hstands⟩

end Floodgate.Verified.TopicFilter
