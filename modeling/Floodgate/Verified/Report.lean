import Mathlib.Data.List.Basic

/-!
# Validation that reports every problem at once

A validator runs one check for each key of a record.  A check of a good value
leaves the list of entries alone; a check of a bad value appends entries about
its key, or raises, when the value cannot even be shown.  `Reported done
errors` is the invariant of the whole run: the entries are about exactly the
bad keys among those checked so far, and all of those could be shown.

Keys, entries, errors and the relation between an entry and the key it is
about are arbitrary; the relation only has to be functional, so that an entry
about one key is never taken for an entry about another.

## Main results

* `Reported.nil`: nothing checked, nothing reported.
* `Checks.bind`: one check moves its key into the checked ones, or raises.
-/

namespace Floodgate.Verified.Report

variable {κ ω ε β : Type}

/-- The vocabulary of a validator. -/
structure Vocabulary (κ ω ε : Type) where
  /-- The entry is about the key. -/
  About : κ → ω → Prop
  /-- The key's value is bad. -/
  Bad : κ → Prop
  /-- The value can be shown in an entry. -/
  Showable : κ → Prop
  /-- The errors that a check of an unshowable value raises. -/
  Raised : ε → Prop
  about_functional : ∀ {k k' e}, About k e → About k' e → k = k'

variable (V : Vocabulary κ ω ε)

/-- What one check of `key` makes of the entries collected before it.  A check
may also carry state on: `entries` reads the entries off its result, and
`Keeps` is what it guarantees of the rest of the result. -/
structure Checks {ρ : Type} (entries : ρ → List ω) (Keeps : ρ → Prop)
    (key : κ) (errors : List ω) (r : Except ε ρ) : Prop where
  good : ¬ V.Bad key → ∃ a, r = .ok a ∧ Keeps a ∧ entries a = errors
  bad : V.Bad key → V.Showable key →
    ∃ a es, r = .ok a ∧ Keeps a ∧ entries a = errors ++ es ∧
      es ≠ [] ∧ ∀ e ∈ es, V.About key e
  stuck : V.Bad key → ¬ V.Showable key → ∃ exc, V.Raised exc ∧ r = .error exc

/-- The entries collected after the keys of `done` were checked. -/
structure Reported (done : List κ) (errors : List ω) : Prop where
  entries : ∀ key, (∃ e ∈ errors, V.About key e) ↔ key ∈ done ∧ V.Bad key
  shown : ∀ key ∈ done, V.Bad key → V.Showable key

theorem Reported.nil : Reported V [] [] where
  entries := by simp
  shown := by simp

variable {V}

/-- A good key adds nothing. -/
theorem Reported.cons_good {done : List κ} {errors : List ω} {key : κ}
    (h : Reported V done errors) (hgood : ¬ V.Bad key) :
    Reported V (key :: done) errors where
  entries := by
    intro k
    rw [h.entries k, List.mem_cons]
    constructor
    · rintro ⟨hk, hb⟩
      exact ⟨Or.inr hk, hb⟩
    · rintro ⟨rfl | hk, hb⟩
      · exact absurd hb hgood
      · exact ⟨hk, hb⟩
  shown := by
    intro k hk hb
    rcases List.mem_cons.mp hk with rfl | hk
    · exact absurd hb hgood
    · exact h.shown k hk hb

/-- A bad key adds entries about itself and about no other key. -/
theorem Reported.cons_bad {done : List κ} {errors es : List ω} {key : κ}
    (h : Reported V done errors) (hbad : V.Bad key) (hshow : V.Showable key)
    (hne : es ≠ []) (habout : ∀ e ∈ es, V.About key e) :
    Reported V (key :: done) (errors ++ es) where
  entries := by
    intro k
    constructor
    · rintro ⟨e, he, hk⟩
      rcases List.mem_append.mp he with he | he
      · obtain ⟨hdone, hb⟩ := (h.entries k).mp ⟨e, he, hk⟩
        exact ⟨List.mem_cons_of_mem _ hdone, hb⟩
      · have hkey : k = key := V.about_functional hk (habout e he)
        exact ⟨hkey ▸ List.mem_cons_self .., hkey ▸ hbad⟩
    · rintro ⟨hk, hb⟩
      rcases List.mem_cons.mp hk with rfl | hk
      · obtain ⟨e, he⟩ := List.exists_mem_of_ne_nil es hne
        exact ⟨e, List.mem_append_right _ he, habout e he⟩
      · obtain ⟨e, he, hke⟩ := (h.entries k).mpr ⟨hk, hb⟩
        exact ⟨e, List.mem_append_left _ he, hke⟩
  shown := by
    intro k hk hb
    rcases List.mem_cons.mp hk with rfl | hk
    · exact hshow
    · exact h.shown k hk hb

/-- One check in front of the rest of a validator.  Whatever is to be shown of
the whole run is shown of the rest, from the entries the check leaves, and of
a raise, when the checked value is bad and cannot be shown. -/
theorem Checks.bind {ρ : Type} {entries : ρ → List ω} {Keeps : ρ → Prop}
    {key : κ} {done : List κ} {errors : List ω} {r : Except ε ρ}
    {rest : ρ → Except ε β} {F : Except ε β → Prop}
    (hr : Checks V entries Keeps key errors r) (h : Reported V done errors)
    (hstuck : V.Bad key → ¬ V.Showable key → ∀ exc, V.Raised exc → F (.error exc))
    (hrest : ∀ a, Keeps a → Reported V (key :: done) (entries a) → F (rest a)) :
    F (r >>= rest) := by
  by_cases hbad : V.Bad key
  · by_cases hshow : V.Showable key
    · obtain ⟨a, es, rfl, hkeep, hes, hne, habout⟩ := hr.bad hbad hshow
      refine hrest a hkeep ?_
      rw [hes]
      exact h.cons_bad hbad hshow hne habout
    · obtain ⟨exc, hexc, rfl⟩ := hr.stuck hbad hshow
      exact hstuck hbad hshow exc hexc
  · obtain ⟨a, rfl, hkeep, ha⟩ := hr.good hbad
    refine hrest a hkeep ?_
    rw [ha]
    exact h.cons_good hbad

end Floodgate.Verified.Report
