import Mathlib.Data.List.Basic

/-!
# Enclosed sequences

Behind an opening bracket a text continues with items between separators and
ends with a closing bracket; blanks are allowed around every item.  The scanner
is parameterised by a scanner of one item, and the grammar by the texts of one
item, so that nested sequences are built by applying both again.

An item must not start with a blank or with the closing bracket, and its
scanner may rely on what follows: a blank, a separator or the closing bracket.
Under these conditions the scanner accepts exactly the grammar, and leaves the
rest of the text alone.

## Main results

* `scanEnclosed_complete`: a derived text is scanned to its items.
* `scanEnclosed_sound`: what is scanned was derived.
* `Enclosed.mono`, `Enclosed.exists_text`, `Enclosed.forall_mem`: what a
  derivation says of the items and of the characters.
* `errorsIn_scanEnclosed`: what holds of every error of the scanner of an item holds
  of every error of the scanner.
* `enclosed_print`: items printed with the separator and a blank are derived.
-/

namespace Floodgate.Verified

/-! ## Computations that may fail -/

section Fallible

variable {α β ε : Type}

theorem bind_eq_ok_iff {x : Except ε α} {f : α → Except ε β} {b : β} :
    x >>= f = .ok b ↔ ∃ a, x = .ok a ∧ f a = .ok b := by
  cases x with
  | error e => simp [bind, Except.bind]
  | ok a => simp [bind, Except.bind]

theorem map_eq_ok_iff {x : Except ε α} {f : α → β} {b : β} :
    x.map f = .ok b ↔ ∃ a, x = .ok a ∧ f a = b := by
  cases x with
  | error e => simp [Except.map]
  | ok a => simp [Except.map]

/-- Whatever is raised has the property. -/
def ErrorsIn (P : ε → Prop) (x : Except ε α) : Prop := ∀ e, x = .error e → P e

variable {P : ε → Prop}

theorem errorsIn_ok (a : α) : ErrorsIn P (.ok a) := fun _ h => by cases h

theorem errorsIn_error {e : ε} (he : P e) : ErrorsIn P (.error e : Except ε α) :=
  fun _ h => Except.error.inj h ▸ he

theorem ErrorsIn.bind {x : Except ε α} {f : α → Except ε β} (hx : ErrorsIn P x)
    (hf : ∀ a, ErrorsIn P (f a)) : ErrorsIn P (x >>= f) := by
  cases x with
  | error e => exact errorsIn_error (hx e rfl)
  | ok a => exact hf a

theorem ErrorsIn.map {x : Except ε α} (hx : ErrorsIn P x) (f : α → β) :
    ErrorsIn P (x.map f) := by
  cases x with
  | error e => exact errorsIn_error (hx e rfl)
  | ok a => exact errorsIn_ok (f a)

end Fallible

/-! ## Sequences -/

/-- The punctuation of a sequence. -/
structure Brackets (α : Type) where
  space : α → Bool
  separator : α
  close : α
  space_separator : space separator = false
  space_close : space close = false
  close_ne_separator : close ≠ separator

namespace Brackets

variable {α β ε : Type} [DecidableEq α] (B : Brackets α)

/-- The text behind its leading blanks. -/
def skip (s : List α) : List α := s.dropWhile B.space

/-- Items up to the closing bracket. -/
def scanItems (fail : ε) (item : List α → Except ε (β × List α)) :
    Nat → List α → Except ε (List β × List α)
  | 0, _ => .error fail
  | fuel + 1, s => do
      let (b, s) ← item s
      match B.skip s with
      | [] => .error fail
      | c :: s =>
          if c = B.separator then do
            let (bs, s) ← scanItems fail item fuel (B.skip s)
            return (b :: bs, s)
          else if c = B.close then return ([b], s)
          else .error fail

/-- The items behind an opening bracket, and the text behind the closing one. -/
def scanEnclosed (fail : ε) (item : List α → Except ε (β × List α)) (s : List α) :
    Except ε (List β × List α) :=
  match B.skip s with
  | [] => .error fail
  | c :: s =>
      if c = B.close then .ok ([], s)
      else B.scanItems fail item (s.length + 1) (c :: s)

/-! ## The grammar -/

/-- Blanks only. -/
def Blank (w : List α) : Prop := ∀ c ∈ w, B.space c = true

/-- Items, and the closing bracket behind them. -/
inductive Items (R : β → List α → Prop) : List β → List α → Prop
  | last {b : β} {text w : List α} (hb : R b text) (hw : B.Blank w) :
      Items R [b] (text ++ (w ++ [B.close]))
  | cons {b : β} {bs : List β} {text w w' rest : List α} (hb : R b text)
      (hw : B.Blank w) (hw' : B.Blank w') (hbs : Items R bs rest) :
      Items R (b :: bs) (text ++ (w ++ B.separator :: (w' ++ rest)))

/-- What stands behind the opening bracket of a sequence. -/
inductive Enclosed (R : β → List α → Prop) : List β → List α → Prop
  | empty {w : List α} (hw : B.Blank w) : Enclosed R [] (w ++ [B.close])
  | items {bs : List β} {w text : List α} (hw : B.Blank w) (h : B.Items R bs text) :
      Enclosed R bs (w ++ text)

/-- What may follow an item. -/
def Follows (rest : List α) : Prop :=
  ∃ c tail, rest = c :: tail ∧ (B.space c = true ∨ c = B.separator ∨ c = B.close)

/-- The text of an item can be told from a blank and from the end. -/
def Starts (text : List α) : Prop :=
  ∃ c tail, text = c :: tail ∧ B.space c = false ∧ c ≠ B.close

/-- A scanner raises what its items raise, or its own error. -/
theorem errorsIn_scanItems {P : ε → Prop} {fail : ε} (hfail : P fail)
    {item : List α → Except ε (β × List α)} (hitem : ∀ s, ErrorsIn P (item s)) (fuel : Nat)
    (s : List α) : ErrorsIn P (B.scanItems fail item fuel s) := by
  induction fuel generalizing s with
  | zero => exact errorsIn_error hfail
  | succ fuel ih =>
      refine (hitem s).bind fun r => ?_
      dsimp only
      split
      · exact errorsIn_error hfail
      · split
        · exact (ih _).bind fun _ => errorsIn_ok _
        · split
          · exact errorsIn_ok _
          · exact errorsIn_error hfail

theorem errorsIn_scanEnclosed {P : ε → Prop} {fail : ε} (hfail : P fail)
    {item : List α → Except ε (β × List α)} (hitem : ∀ s, ErrorsIn P (item s)) (s : List α) :
    ErrorsIn P (B.scanEnclosed fail item s) := by
  unfold scanEnclosed
  split
  · exact errorsIn_error hfail
  · split
    · exact errorsIn_ok _
    · exact errorsIn_scanItems B hfail hitem _ _

variable {B}

omit [DecidableEq α] in
theorem skip_append {w : List α} (hw : B.Blank w) (s : List α) : B.skip (w ++ s) = B.skip s := by
  induction w with
  | nil => rfl
  | cons c w ih =>
      rw [skip, List.cons_append, List.dropWhile_cons_of_pos (hw c List.mem_cons_self)]
      exact ih fun c hc => hw c (List.mem_cons_of_mem _ hc)

omit [DecidableEq α] in
theorem skip_cons {c : α} (hc : B.space c = false) (s : List α) : B.skip (c :: s) = c :: s :=
  List.dropWhile_cons_of_neg (by simp [hc])

omit [DecidableEq α] in
theorem Starts.skip {text : List α} (h : B.Starts text) (rest : List α) :
    B.skip (text ++ rest) = text ++ rest := by
  obtain ⟨c, tail, rfl, hc, -⟩ := h
  exact skip_cons hc _

omit [DecidableEq α] in
/-- A text is its leading blanks and what is behind them. -/
theorem exists_blank_append_skip (B : Brackets α) (s : List α) :
    ∃ w, B.Blank w ∧ s = w ++ B.skip s :=
  ⟨s.takeWhile B.space, fun c hc => List.all_eq_true.mp List.all_takeWhile c hc,
    (List.takeWhile_append_dropWhile).symm⟩

omit [DecidableEq α] in
theorem follows_append {w : List α} (hw : B.Blank w) {c : α}
    (hc : c = B.separator ∨ c = B.close) (rest : List α) : B.Follows (w ++ c :: rest) := by
  cases w with
  | nil => exact ⟨c, rest, rfl, Or.inr hc⟩
  | cons d w => exact ⟨d, w ++ c :: rest, rfl, Or.inl (hw d List.mem_cons_self)⟩

omit [DecidableEq α] in
theorem Items.starts {R : β → List α → Prop} (hstart : ∀ b text, R b text → B.Starts text)
    {bs : List β} {text : List α} (h : B.Items R bs text) : B.Starts text := by
  have happend : ∀ {t : List α} (t' : List α), B.Starts t → B.Starts (t ++ t') := by
    rintro t t' ⟨c, tail, rfl, hc⟩
    exact ⟨c, tail ++ t', rfl, hc⟩
  cases h with
  | last hb _ => exact happend _ (hstart _ _ hb)
  | cons hb _ _ _ => exact happend _ (hstart _ _ hb)

omit [DecidableEq α] in
theorem Items.length_le {R : β → List α → Prop} (hstart : ∀ b text, R b text → B.Starts text)
    {bs : List β} {text : List α} (h : B.Items R bs text) : bs.length ≤ text.length := by
  have hpos : ∀ {b : β} {t : List α}, R b t → 1 ≤ t.length := by
    intro b t hb
    obtain ⟨c, tail, rfl, -⟩ := hstart b t hb
    exact Nat.le_add_left _ _
  induction h with
  | last hb _ =>
      have := hpos hb
      simp only [List.length_singleton, List.length_append]
      omega
  | cons hb _ _ _ ih =>
      have := hpos hb
      simp only [List.length_cons, List.length_append]
      omega

/-! ## The scanner accepts the grammar -/

section Scan

variable {R : β → List α → Prop} {fail : ε} {item : List α → Except ε (β × List α)}

theorem scanItems_complete
    (hitem : ∀ b text rest, R b text → B.Follows rest → item (text ++ rest) = .ok (b, rest))
    (hstart : ∀ b text, R b text → B.Starts text) {bs : List β} {text : List α}
    (h : B.Items R bs text) (rest : List α) {fuel : Nat} (hfuel : bs.length ≤ fuel) :
    B.scanItems fail item fuel (text ++ rest) = .ok (bs, rest) := by
  induction h generalizing fuel with
  | @last b text w hb hw =>
      obtain ⟨fuel, rfl⟩ : ∃ n, fuel = n + 1 := ⟨fuel - 1, by simp at hfuel; omega⟩
      have htext : text ++ (w ++ [B.close]) ++ rest = text ++ (w ++ B.close :: rest) := by simp
      rw [htext, scanItems, hitem b text _ hb (follows_append hw (Or.inr rfl) rest)]
      simp only [bind, Except.bind, skip_append hw, skip_cons B.space_close,
        if_neg B.close_ne_separator, if_true]
      rfl
  | @cons b bs text w w' items hb hw hw' hbs ih =>
      obtain ⟨fuel, rfl⟩ : ∃ n, fuel = n + 1 := ⟨fuel - 1, by simp at hfuel; omega⟩
      have htext : text ++ (w ++ B.separator :: (w' ++ items)) ++ rest =
          text ++ (w ++ B.separator :: (w' ++ (items ++ rest))) := by simp
      have hlen : bs.length ≤ fuel := by simpa using hfuel
      rw [htext, scanItems, hitem b text _ hb (follows_append hw (Or.inl rfl) _)]
      simp only [bind, Except.bind, skip_append hw, skip_cons B.space_separator, if_true,
        skip_append hw', (hbs.starts hstart).skip rest, ih hlen]
      rfl

/-- A derived sequence is scanned to its items, up to the closing bracket. -/
theorem scanEnclosed_complete
    (hitem : ∀ b text rest, R b text → B.Follows rest → item (text ++ rest) = .ok (b, rest))
    (hstart : ∀ b text, R b text → B.Starts text) {bs : List β} {text : List α}
    (h : B.Enclosed R bs text) (rest : List α) :
    B.scanEnclosed fail item (text ++ rest) = .ok (bs, rest) := by
  cases h with
  | @empty w hw =>
      rw [scanEnclosed, List.append_assoc, skip_append hw, List.singleton_append,
        skip_cons B.space_close]
      exact if_pos rfl
  | @items _ w text hw h =>
      have hskip : B.skip (w ++ text ++ rest) = text ++ rest := by
        rw [List.append_assoc, skip_append hw, (h.starts hstart).skip]
      have hlen := h.length_le hstart
      obtain ⟨c, tail, rfl, -, hc⟩ := h.starts hstart
      rw [scanEnclosed, hskip, List.cons_append]
      dsimp only
      rw [if_neg hc, ← List.cons_append]
      refine scanItems_complete hitem hstart h rest ?_
      simp only [List.length_cons, List.length_append] at hlen ⊢
      omega

theorem scanItems_sound
    (hitem : ∀ s b rest, item s = .ok (b, rest) → ∃ text, s = text ++ rest ∧ R b text)
    {fuel : Nat} {s rest : List α} {bs : List β}
    (h : B.scanItems fail item fuel s = .ok (bs, rest)) :
    ∃ text, s = text ++ rest ∧ B.Items R bs text := by
  induction fuel generalizing s bs with
  | zero => cases h
  | succ fuel ih =>
      rw [scanItems, bind_eq_ok_iff] at h
      obtain ⟨⟨b, s'⟩, hb, h⟩ := h
      obtain ⟨text, rfl, hR⟩ := hitem s b s' hb
      obtain ⟨w, hw, hs'⟩ := exists_blank_append_skip B s'
      dsimp only at h
      cases hskip : B.skip s' with
      | nil =>
          rw [hskip] at h
          cases h
      | cons c s'' =>
          rw [hskip] at h hs'
          dsimp only at h
          split at h
          · next hc =>
            obtain ⟨w', hw', hs''⟩ := exists_blank_append_skip B s''
            obtain ⟨⟨bs', rest'⟩, hbs, hok⟩ := bind_eq_ok_iff.mp h
            cases hok
            obtain ⟨items, hitems, hbs⟩ := ih hbs
            refine ⟨_, ?_, .cons hR hw hw' hbs⟩
            rw [hs', hs'', hitems, hc]
            simp
          · split at h
            · next hc =>
              cases h
              refine ⟨_, ?_, .last hR hw⟩
              rw [hs', hc]
              simp
            · cases h

/-- What is scanned behind an opening bracket was derived. -/
theorem scanEnclosed_sound
    (hitem : ∀ s b rest, item s = .ok (b, rest) → ∃ text, s = text ++ rest ∧ R b text)
    {s rest : List α} {bs : List β} (h : B.scanEnclosed fail item s = .ok (bs, rest)) :
    ∃ text, s = text ++ rest ∧ B.Enclosed R bs text := by
  obtain ⟨w, hw, hs⟩ := exists_blank_append_skip B s
  rw [scanEnclosed] at h
  cases hskip : B.skip s with
  | nil =>
      rw [hskip] at h
      cases h
  | cons c s' =>
      rw [hskip] at h hs
      dsimp only at h
      split at h
      · next hc =>
        cases h
        exact ⟨w ++ [B.close], by rw [hs, hc]; simp, .empty hw⟩
      · obtain ⟨text, htext, hitems⟩ := scanItems_sound hitem h
        exact ⟨w ++ text, by rw [hs, htext, List.append_assoc], .items hw hitems⟩

end Scan

/-! ## What a derivation says -/

section Derived

variable {R R' : β → List α → Prop} {bs : List β} {text : List α}

omit [DecidableEq α] in
theorem Items.mono (hR : ∀ b t, R b t → R' b t) (h : B.Items R bs text) :
    B.Items R' bs text := by
  induction h with
  | last hb hw => exact .last (hR _ _ hb) hw
  | cons hb hw hw' _ ih => exact .cons (hR _ _ hb) hw hw' ih

omit [DecidableEq α] in
/-- More texts for the items are more texts for the sequence. -/
theorem Enclosed.mono (hR : ∀ b t, R b t → R' b t) (h : B.Enclosed R bs text) :
    B.Enclosed R' bs text := by
  cases h with
  | empty hw => exact .empty hw
  | items hw h => exact .items hw (h.mono hR)

omit [DecidableEq α] in
theorem Items.exists_text (h : B.Items R bs text) : ∀ b ∈ bs, ∃ t, R b t := by
  induction h with
  | last hb _ =>
      intro b hmem
      rw [List.mem_singleton.mp hmem]
      exact ⟨_, hb⟩
  | cons hb _ _ _ ih =>
      intro b hmem
      rcases List.mem_cons.mp hmem with rfl | hmem
      · exact ⟨_, hb⟩
      · exact ih b hmem

omit [DecidableEq α] in
/-- Every item has a text. -/
theorem Enclosed.exists_text (h : B.Enclosed R bs text) : ∀ b ∈ bs, ∃ t, R b t := by
  cases h with
  | empty _ => exact fun b hmem => absurd hmem List.not_mem_nil
  | items _ h => exact h.exists_text

variable {P : α → Prop}

omit [DecidableEq α] in
theorem Items.forall_mem (hspace : ∀ c, B.space c = true → P c) (hsep : P B.separator)
    (hclose : P B.close) (hR : ∀ b t, R b t → ∀ c ∈ t, P c) (h : B.Items R bs text) :
    ∀ c ∈ text, P c := by
  induction h with
  | last hb hw =>
      intro c hc
      simp only [List.mem_append, List.mem_singleton] at hc
      rcases hc with hc | hc | rfl
      · exact hR _ _ hb c hc
      · exact hspace c (hw c hc)
      · exact hclose
  | cons hb hw hw' _ ih =>
      intro c hc
      simp only [List.mem_append, List.mem_cons] at hc
      rcases hc with hc | hc | rfl | hc | hc
      · exact hR _ _ hb c hc
      · exact hspace c (hw c hc)
      · exact hsep
      · exact hspace c (hw' c hc)
      · exact ih c hc

omit [DecidableEq α] in
/-- What holds of blanks, of the punctuation and of every item's text holds of
the whole. -/
theorem Enclosed.forall_mem (hspace : ∀ c, B.space c = true → P c) (hsep : P B.separator)
    (hclose : P B.close) (hR : ∀ b t, R b t → ∀ c ∈ t, P c) (h : B.Enclosed R bs text) :
    ∀ c ∈ text, P c := by
  intro c hc
  cases h with
  | empty hw =>
      rcases List.mem_append.mp hc with hc | hc
      · exact hspace c (hw c hc)
      · rw [List.mem_singleton.mp hc]
        exact hclose
  | items hw h =>
      rcases List.mem_append.mp hc with hc | hc
      · exact hspace c (hw c hc)
      · exact h.forall_mem hspace hsep hclose hR c hc

end Derived

/-! ## Printing -/

omit [DecidableEq α] in
/-- Items printed with a separator and a blank between them are derived. -/
theorem enclosed_print {R : β → List α → Prop} {print : β → List α} {w : List α}
    (hw : B.Blank w) (bs : List β) (h : ∀ b ∈ bs, R b (print b)) :
    B.Enclosed R bs ((B.separator :: w).intercalate (bs.map print) ++ [B.close]) := by
  have hnil : B.Blank [] := fun c hc => absurd hc List.not_mem_nil
  cases bs with
  | nil => exact .empty hnil
  | cons b bs =>
      suffices hitems : B.Items R (b :: bs)
          ((B.separator :: w).intercalate ((b :: bs).map print) ++ [B.close]) from
        Enclosed.items (w := []) hnil hitems
      induction bs generalizing b with
      | nil => simpa using Items.last (h b List.mem_cons_self) hnil
      | cons b' bs ih =>
          have hrest := ih b' fun c hc => h c (List.mem_cons_of_mem _ hc)
          have hcons := Items.cons (h b List.mem_cons_self) hnil hw hrest
          simpa [List.intercalate_cons_cons] using hcons

end Brackets

end Floodgate.Verified
