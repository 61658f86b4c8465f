import Mathlib.Data.List.Basic

/-!
# Lines of quoted fields

A line is a list of tokens joined by a separator.  A token may hold the
separator inside a quoted part, where an escape character takes the next
character with it.  The reader is an automaton over three modes; a text is
`Solid` between two modes when the automaton runs from the one to the other
without ever meeting a separator in bare mode, so without ending a token.

Characters and the four special ones are arbitrary.

## Main results

* `Solid.append`: solid texts compose.
* `tokens_joinTokens`: splitting a joined line of solid tokens gives the tokens.
* `splitAtFirst_append`: a key that does not hold the mark is read back whole.
-/

namespace Floodgate.Verified.QuotedFields

variable {α : Type} [DecidableEq α]

/-- The special characters of a line. -/
structure Syntax (α : Type) where
  separator : α
  quote : α
  escape : α
  quote_ne_separator : quote ≠ separator

/-- Where the reader is: outside quotes, inside, or behind an escape. -/
inductive Mode where
  | bare | quoted | escaped
  deriving DecidableEq, Repr

/-- One character of the reader. -/
def Mode.next (syn : Syntax α) : Mode → α → Mode
  | .bare, c => if c = syn.quote then .quoted else .bare
  | .quoted, c =>
      if c = syn.quote then .bare else if c = syn.escape then .escaped else .quoted
  | .escaped, _ => .quoted

/-- The tokens of a line read from a mode; the first one may be continued. -/
def tokensFrom (syn : Syntax α) : Mode → List α → List (List α)
  | _, [] => [[]]
  | m, c :: cs =>
      if m = .bare ∧ c = syn.separator then [] :: tokensFrom syn .bare cs
      else match tokensFrom syn (m.next syn c) cs with
        | [] => [[c]]
        | token :: rest => (c :: token) :: rest

/-- The tokens of a line: split at the separators outside quotes. -/
def tokens (syn : Syntax α) (line : List α) : List (List α) :=
  tokensFrom syn .bare line

/-- The line of a list of tokens. -/
def joinTokens (syn : Syntax α) : List (List α) → List α
  | [] => []
  | [token] => token
  | token :: rest => token ++ syn.separator :: joinTokens syn rest

/-- The text takes the reader from one mode to another inside one token. -/
def Solid (syn : Syntax α) : Mode → List α → Mode → Prop
  | m, [], m' => m = m'
  | m, c :: cs, m' =>
      ¬ (m = .bare ∧ c = syn.separator) ∧ Solid syn (m.next syn c) cs m'

variable {syn : Syntax α}

@[simp] theorem solid_nil {m m' : Mode} : Solid syn m [] m' ↔ m = m' := Iff.rfl

/-- Solid texts compose. -/
theorem Solid.append {m m' m'' : Mode} {s t : List α} (hs : Solid syn m s m')
    (ht : Solid syn m' t m'') : Solid syn m (s ++ t) m'' := by
  induction s generalizing m with
  | nil =>
      cases hs
      exact ht
  | cons c cs ih => exact ⟨hs.1, ih hs.2⟩

/-- A text of plain characters stays in bare mode. -/
theorem solid_bare {s : List α} (hsep : syn.separator ∉ s) (hquote : syn.quote ∉ s) :
    Solid syn .bare s .bare := by
  induction s with
  | nil => rfl
  | cons c cs ih =>
      simp only [List.mem_cons, not_or] at hsep hquote
      refine ⟨fun h => hsep.1 h.2.symm, ?_⟩
      rw [Mode.next, if_neg fun h => hquote.1 h.symm]
      exact ih hsep.2 hquote.2

/-- A text without quotes and escapes stays inside quotes. -/
theorem solid_quoted {s : List α} (hquote : syn.quote ∉ s) (hescape : syn.escape ∉ s) :
    Solid syn .quoted s .quoted := by
  induction s with
  | nil => rfl
  | cons c cs ih =>
      simp only [List.mem_cons, not_or] at hquote hescape
      refine ⟨fun h => Mode.noConfusion h.1, ?_⟩
      rw [Mode.next, if_neg fun h => hquote.1 h.symm, if_neg fun h => hescape.1 h.symm]
      exact ih hquote.2 hescape.2

/-- An escape sequence: the escape, any character, and a plain tail. -/
theorem solid_escape {c : α} {s : List α} (hne : syn.escape ≠ syn.quote)
    (hquote : syn.quote ∉ s) (hescape : syn.escape ∉ s) :
    Solid syn .quoted (syn.escape :: c :: s) .quoted := by
  refine ⟨fun h => Mode.noConfusion h.1, ?_⟩
  rw [Mode.next, if_neg hne, if_pos rfl]
  exact ⟨fun h => Mode.noConfusion h.1, solid_quoted hquote hescape⟩

/-- A quoted text: quotes around pieces that stay inside them. -/
theorem solid_flatMap {β : Type} {f : β → List α} {xs : List β}
    (h : ∀ x ∈ xs, Solid syn .quoted (f x) .quoted) :
    Solid syn .quoted (xs.flatMap f) .quoted := by
  induction xs with
  | nil => rfl
  | cons x xs ih =>
      rw [List.flatMap_cons]
      exact (h x (List.mem_cons_self ..)).append
        (ih fun y hy => h y (List.mem_cons_of_mem _ hy))

theorem Solid.enclose {s : List α} (h : Solid syn .quoted s .quoted) :
    Solid syn .bare (syn.quote :: s ++ [syn.quote]) .bare := by
  have hopen : Solid syn .bare [syn.quote] .quoted :=
    ⟨fun h => syn.quote_ne_separator h.2, by simp [Mode.next]⟩
  have hclose : Solid syn .quoted [syn.quote] .bare :=
    ⟨fun h => Mode.noConfusion h.1, by simp [Mode.next]⟩
  exact (hopen.append h).append hclose

/-- A solid text that ends a line is the rest of its token. -/
theorem tokensFrom_solid {m m' : Mode} {s : List α} (h : Solid syn m s m') :
    tokensFrom syn m s = [s] := by
  induction s generalizing m with
  | nil => rfl
  | cons c cs ih => rw [tokensFrom, if_neg h.1, ih h.2]

/-- A solid text in front of a separator is the rest of its token. -/
theorem tokensFrom_append {m : Mode} {s : List α} (h : Solid syn m s .bare)
    (line : List α) :
    tokensFrom syn m (s ++ syn.separator :: line) = s :: tokensFrom syn .bare line := by
  induction s generalizing m with
  | nil =>
      cases h
      simp [tokensFrom]
  | cons c cs ih => rw [List.cons_append, tokensFrom, if_neg h.1, ih h.2]

/-- Splitting a joined line of solid tokens gives the tokens. -/
theorem tokens_joinTokens {ts : List (List α)} (hne : ts ≠ [])
    (h : ∀ t ∈ ts, Solid syn .bare t .bare) : tokens syn (joinTokens syn ts) = ts := by
  induction ts with
  | nil => exact absurd rfl hne
  | cons t ts ih =>
      have ht := h t (List.mem_cons_self ..)
      cases ts with
      | nil => exact tokensFrom_solid ht
      | cons t' ts =>
          have hrest := ih (List.cons_ne_nil _ _) fun s hs => h s (List.mem_cons_of_mem _ hs)
          rw [joinTokens, tokens, tokensFrom_append ht]
          · rw [← tokens, hrest]
          · exact fun h => List.cons_ne_nil _ _ h

omit [DecidableEq α] in
/-- A character of a joined line is a separator or belongs to a token. -/
theorem mem_joinTokens {ts : List (List α)} {c : α} (h : c ∈ joinTokens syn ts) :
    c = syn.separator ∨ ∃ t ∈ ts, c ∈ t := by
  induction ts with
  | nil => exact absurd h List.not_mem_nil
  | cons t ts ih =>
      cases ts with
      | nil => exact Or.inr ⟨t, List.mem_cons_self .., h⟩
      | cons t' ts =>
          rw [joinTokens, List.mem_append, List.mem_cons] at h
          · rcases h with h | h | h
            · exact Or.inr ⟨t, List.mem_cons_self .., h⟩
            · exact Or.inl h
            · exact (ih h).imp_right fun ⟨s, hs, hc⟩ => ⟨s, List.mem_cons_of_mem _ hs, hc⟩
          · exact List.cons_ne_nil _ _

/-- The text before the first mark, and the text behind it. -/
def splitAtFirst (mark : α) : List α → List α × List α
  | [] => ([], [])
  | c :: cs =>
      if c = mark then ([], cs)
      else ((c :: (splitAtFirst mark cs).1), (splitAtFirst mark cs).2)

theorem splitAtFirst_append {mark : α} {key : List α} (h : mark ∉ key)
    (value : List α) : splitAtFirst mark (key ++ mark :: value) = (key, value) := by
  induction key with
  | nil => simp [splitAtFirst]
  | cons c cs ih =>
      simp only [List.mem_cons, not_or] at h
      have hc : c ≠ mark := fun e => h.1 e.symm
      simp [splitAtFirst, hc, ih h.2]

end Floodgate.Verified.QuotedFields
