import Floodgate.Ports.JsonCodec

/-!
# The JSON round trip

What is decoded stays within the limits of the decoder: containers are nested no
deeper than they are followed, and integers are short enough to be printed.  A
value within the limits is printed as a text of the grammar, in ASCII, and is
decoded again to itself, provided that no string has a surrogate and no float is
a NaN.

## Main results

* `JsonCodec.fits_of_loads`: what is decoded is within the limits.
* `JsonCodec.spellsText_print`: what is printed is a text of the grammar.
* `JsonCodec.loads_dumps`: decoding an encoded document gives it back.
* `JsonCodec.strict_spell_iff`: the encoder stays within the standard exactly on
  values without infinities and NaNs.
-/

namespace Floodgate.Ports

open Floodgate.Verified

/-- At most `depth` levels of containers, and no integer too long to print. -/
def Json.Fits : Nat → Json → Prop
  | _, .int n => PyVal.hugeInt n = false
  | 0, .list _ | 0, .dict _ => False
  | depth + 1, .list xs => ∀ x ∈ xs, Fits depth x
  | depth + 1, .dict ms => ∀ kv ∈ ms, Fits depth kv.2
  | _, _ => True

/-! ## What is decoded fits -/

theorem natAbs_signed (neg : Bool) (n : Nat) : (signed neg n).natAbs = n := by
  unfold signed
  split <;> simp

theorem hugeInt_intValue {lit : NumberLit} (h : lit.int.digits.length ≤ 4300) :
    PyVal.hugeInt lit.intValue = false := by
  refine hugeInt_eq_false (Nat.le_refl 4300) ?_
  rw [NumberLit.intValue, natAbs_signed]
  exact digitsValue_lt h

/-- What fits is rendered by a `repr` that follows it as deep. -/
theorem Json.reprFault_of_fits {v : Json} {depth depth' : Nat} (h : v.Fits depth)
    (hle : depth ≤ depth') : v.reprFault depth' = none := by
  induction depth generalizing v depth' with
  | zero =>
      cases v with
      | int n => simpa [Json.Fits, Json.reprFault] using h
      | list xs | dict ms => cases h
      | null | bool b | float x | str s => rfl
  | succ depth ih =>
      obtain ⟨k, rfl⟩ := Nat.exists_eq_add_of_le' (Nat.le_trans (Nat.le_add_left 1 depth) hle)
      have hk : depth ≤ k := Nat.le_of_succ_le_succ hle
      cases v with
      | int n => simpa [Json.Fits, Json.reprFault] using h
      | null | bool b | float x | str s => rfl
      | list xs =>
          rw [Json.reprFault]
          change ∀ x ∈ xs, Json.Fits depth x at h
          induction xs with
          | nil => rfl
          | cons x xs ihxs =>
              obtain ⟨hx, hxs⟩ := List.forall_mem_cons.mp h
              rw [Json.reprFaultItem, ih hx hk, ihxs hxs]
              rfl
      | dict ms =>
          rw [Json.reprFault]
          change ∀ kv ∈ ms, Json.Fits depth kv.2 at h
          induction ms with
          | nil => rfl
          | cons kv ms ihms =>
              obtain ⟨hv, hms⟩ := List.forall_mem_cons.mp h
              rw [Json.reprFaultMember, ih hv hk, ihms hms]
              rfl

theorem fits_of_scalar {depth : Nat} {t : JsonTree} {text : PyStr} (h : SpellsScalar t text)
    {d : JsonDoc} (hd : build t = .ok d) : d.val.Fits depth := by
  cases build_eq_ok_iff.mp hd with
  | word w => cases w <;> simp [JsonWord.value, Json.Fits]
  | float _ => simp [Json.Fits]
  | int _ hlen => simpa [Json.Fits] using hugeInt_intValue hlen
  | str units => simp [Json.Fits]
  | arr _ | obj _ => cases h

theorem fits_of_spells {depth : Nat} {t : JsonTree} {text : PyStr} (h : Spells depth t text)
    {d : JsonDoc} (hd : build t = .ok d) : d.val.Fits depth := by
  induction depth generalizing t text d with
  | zero => exact fits_of_scalar h hd
  | succ depth ih =>
      cases h with
      | scalar h => exact fits_of_scalar h hd
      | arr h =>
          cases build_eq_ok_iff.mp hd with
          | arr hds =>
            intro x hx
            obtain ⟨d', hd', rfl⟩ := List.mem_map.mp hx
            obtain ⟨t', ht', hbuild⟩ := exists_of_forall₂_right hds hd'
            obtain ⟨text', htext'⟩ := h.exists_text t' ht'
            exact ih htext' hbuild
      | obj h =>
          cases build_eq_ok_iff.mp hd with
          | obj hkvs =>
            intro kv hkv
            have hkv' := (Assoc.mem_update hkv).resolve_left List.not_mem_nil
            obtain ⟨kv', hmem, rfl⟩ := List.mem_map.mp hkv'
            obtain ⟨m, hm, hbuild⟩ := exists_of_forall₂_right hkvs hmem
            obtain ⟨text', htext'⟩ := h.exists_text m hm
            cases htext' with
            | mk key hw hw' ht => exact ih ht hbuild.2

/-! ## What is printed -/

theorem asciiText_unit {u : StrUnit} {c : PyChar} (hu : u ∈ escapeJsonChar c) :
    AsciiText u.text := by
  have hcode : ∀ n, AsciiText (escapeCode n).text := by
    have hhex : ∀ n, 0 < (hexDigitOf n).char.val ∧ (hexDigitOf n).char.val < 0x80 := by
      intro n
      have h : ∀ d : Fin 16, 0 < (hexDigit d.val).val ∧ (hexDigit d.val).val < 0x80 := by
        decide
      exact h ⟨n % 16, Nat.mod_lt n (by decide)⟩
    intro n
    exact .cons (by decide) (.cons (by decide) (.cons (hhex _) (.cons (hhex _)
      (.cons (hhex _) (.cons (hhex _) asciiText_nil)))))
  unfold escapeJsonChar at hu
  split at hu
  · next e _ =>
    rw [List.mem_singleton.mp hu]
    refine .cons (by decide) (.cons ?_ asciiText_nil)
    cases e <;> decide
  · split at hu
    · next hc =>
      rw [List.mem_singleton.mp hu]
      have hplain := (isPlain_iff.mp hc.1).1
      exact .cons ⟨by omega, by omega⟩ asciiText_nil
    · split at hu
      · rw [List.mem_singleton.mp hu]
        exact hcode _
      · simp only [List.mem_cons, List.not_mem_nil, or_false] at hu
        rcases hu with rfl | rfl
        · exact hcode _
        · exact hcode _

theorem asciiText_quoted (s : PyStr) : AsciiText (quoted (escapeJsonString s)) := by
  have hunits : AsciiText (unitsText (escapeJsonString s)) := by
    intro c hc
    obtain ⟨u, hu, hc⟩ := List.mem_flatMap.mp hc
    obtain ⟨c', -, hu⟩ := List.mem_flatMap.mp hu
    exact asciiText_unit hu c hc
  exact .cons (by decide) (hunits.append (.cons (by decide) asciiText_nil))

namespace JsonCodec

variable (C : JsonCodec)

/-- A value without parts is printed as a text of the grammar, in ASCII. -/
theorem spell_cases (v : Json) :
    (SpellsScalar (C.spell v) (C.spell v).print ∧ AsciiText (C.spell v).print) ∨
      (∃ xs, v = .list xs) ∨ ∃ ms, v = .dict ms := by
  have hword : ∀ w, SpellsScalar (.word w) (JsonTree.word w).print ∧
      AsciiText (JsonTree.word w).print := by
    intro w
    rw [JsonTree.print]
    exact ⟨.word w, asciiText_word w⟩
  have hnumber : ∀ lit, SpellsScalar (.number lit) (JsonTree.number lit).print ∧
      AsciiText (JsonTree.number lit).print := by
    intro lit
    rw [JsonTree.print]
    exact ⟨.number lit, asciiText_number lit⟩
  cases v with
  | null => exact Or.inl (hword _)
  | bool b => exact Or.inl (hword _)
  | int n => exact Or.inl (hnumber _)
  | float x =>
      refine Or.inl ?_
      rw [spell, spellFloat]
      split
      · exact hnumber _
      · split
        · exact hword _
        · split
          · exact hword _
          · exact hword _
  | str s =>
      rw [spell, JsonTree.print]
      exact Or.inl ⟨.str _, asciiText_quoted s⟩
  | list xs => exact Or.inr (Or.inl ⟨xs, rfl⟩)
  | dict ms => exact Or.inr (Or.inr ⟨ms, rfl⟩)

theorem print_list (xs : List Json) : (C.spell (.list xs)).print =
    ch '[' :: ((py ", ").intercalate ((xs.map C.spell).map JsonTree.print) ++ [ch ']']) := by
  rw [spell, spellList_eq, JsonTree.print, printItems_eq]

theorem print_dict (ms : List (PyStr × Json)) : (C.spell (.dict ms)).print =
    openBrace ::
      ((py ", ").intercalate ((ms.map C.spellMember).map printMember) ++ [closeBrace]) := by
  rw [spell, spellMembers_eq, JsonTree.print, printMembers_eq]

theorem isSpace_blank : IsSpace [ch ' '] := by
  intro c hc
  rw [List.mem_singleton.mp hc]
  rfl

theorem spellsMember_print {R : JsonTree → PyStr → Prop} {t : JsonTree} (key : List StrUnit)
    (h : R t t.print) : SpellsMember R (key, t) (printMember (key, t)) := by
  have htext : printMember (key, t) = ch '"' :: (unitsText key ++
      ch '"' :: ([] ++ ch ':' :: ([ch ' '] ++ t.print))) := by
    simp [printMember, quoted, py]
  rw [htext]
  exact .mk key (fun _ hc => absurd hc List.not_mem_nil) isSpace_blank h

theorem spells_arr {depth : Nat} {items : List JsonTree}
    (h : ∀ t ∈ items, Spells depth t t.print) :
    Spells (depth + 1) (.arr items) (JsonTree.arr items).print := by
  rw [JsonTree.print, printItems_eq]
  exact .arr (arrayBrackets.enclosed_print isSpace_blank _ h)

theorem spells_obj {depth : Nat} {members : List (List StrUnit × JsonTree)}
    (h : ∀ m ∈ members, Spells depth m.2 m.2.print) :
    Spells (depth + 1) (.obj members) (JsonTree.obj members).print := by
  rw [JsonTree.print, printMembers_eq]
  exact .obj (objectBrackets.enclosed_print isSpace_blank _ fun m hm =>
    spellsMember_print m.1 (h m hm))

/-- What is printed is a text of the grammar. -/
theorem spells_print {depth : Nat} {v : Json} (h : v.Fits depth) :
    Spells depth (C.spell v) (C.spell v).print := by
  induction depth generalizing v with
  | zero =>
      rcases C.spell_cases v with ⟨hscalar, -⟩ | ⟨xs, rfl⟩ | ⟨ms, rfl⟩
      · exact hscalar
      · exact h.elim
      · exact h.elim
  | succ depth ih =>
      rcases C.spell_cases v with ⟨hscalar, -⟩ | ⟨xs, rfl⟩ | ⟨ms, rfl⟩
      · exact .scalar hscalar
      · rw [spell, spellList_eq]
        refine spells_arr fun t ht => ?_
        obtain ⟨x, hx, rfl⟩ := List.mem_map.mp ht
        exact ih (h x hx)
      · rw [spell, spellMembers_eq]
        refine spells_obj fun m hm => ?_
        obtain ⟨kv, hkv, rfl⟩ := List.mem_map.mp hm
        exact ih (h kv hkv)

/-- What is printed is ASCII. -/
theorem asciiText_print {depth : Nat} {v : Json} (h : v.Fits depth) :
    AsciiText (C.spell v).print := by
  have hspace : ∀ c, isJsonSpace c = true → 0 < c.val ∧ c.val < 0x80 :=
    fun _ hc => isJsonSpace_ascii hc
  induction depth generalizing v with
  | zero =>
      rcases C.spell_cases v with ⟨-, hascii⟩ | ⟨xs, rfl⟩ | ⟨ms, rfl⟩
      · exact hascii
      · exact h.elim
      · exact h.elim
  | succ depth ih =>
      rcases C.spell_cases v with ⟨-, hascii⟩ | ⟨xs, rfl⟩ | ⟨ms, rfl⟩
      · exact hascii
      · rw [print_list]
        refine .cons (by decide) ((arrayBrackets.enclosed_print
          (R := fun _ text => AsciiText text) isSpace_blank _ ?_).forall_mem hspace (by decide)
          (by decide) fun _ _ ht => ht)
        intro t ht
        obtain ⟨x, hx, rfl⟩ := List.mem_map.mp ht
        exact ih (h x hx)
      · rw [print_dict]
        refine .cons (by decide) ((objectBrackets.enclosed_print
          (R := fun _ text => AsciiText text) isSpace_blank _ ?_).forall_mem hspace (by decide)
          (by decide) fun _ _ ht => ht)
        intro m hm
        obtain ⟨kv, hkv, rfl⟩ := List.mem_map.mp hm
        have hcolon : AsciiText (py ": ") :=
          .cons (by decide) (.cons (by decide) asciiText_nil)
        exact (asciiText_quoted kv.1).append (hcolon.append (ih (h kv hkv)))

theorem spellsText_print {v : Json} (h : v.Fits C.maxDepth) :
    SpellsText C.maxDepth (C.spell v) (C.spell v).print := (C.spells_print h).document

/-! ## Decoding what is encoded -/

/-- Values that are built one by one are built together. -/
theorem exists_forall₂ {α β γ : Type} {f : α → β} {R : β → γ → Prop} {g : γ → α}
    {as : List α} (h : ∀ a ∈ as, ∃ c, R (f a) c ∧ g c = a) :
    ∃ cs, List.Forall₂ R (as.map f) cs ∧ cs.map g = as := by
  induction as with
  | nil => exact ⟨[], .nil, rfl⟩
  | cons a as ih =>
      obtain ⟨c, hc, hg⟩ := h a List.mem_cons_self
      obtain ⟨cs, hcs, hgs⟩ := ih fun a ha => h a (List.mem_cons_of_mem _ ha)
      exact ⟨c :: cs, .cons hc hcs, by rw [List.map_cons, hg, hgs]⟩

/-- A double that is neither finite nor a NaN is one of two. -/
theorem infinity_cases {x : PyFloat} (hinf : ¬x.isFinite = true) (hnan : x.isNaN = false) :
    x = if x.msb then 0xFFF0000000000000#64 else 0x7FF0000000000000#64 := by
  have hexponent : x.extractLsb' 52 11 = 0x7FF#11 := by simpa [PyFloat.isFinite] using hinf
  have hmantissa : x.extractLsb' 0 52 = 0#52 := by simpa [PyFloat.isNaN, hexponent] using hnan
  have hhigh : x.toNat / 2 ^ 52 % 2 ^ 11 = 0x7FF := by
    have h := congrArg BitVec.toNat hexponent
    rwa [BitVec.extractLsb'_toNat, Nat.shiftRight_eq_div_pow] at h
  have hlow : x.toNat % 2 ^ 52 = 0 := by
    have h := congrArg BitVec.toNat hmantissa
    rwa [BitVec.extractLsb'_toNat, Nat.shiftRight_zero] at h
  have hlt := x.isLt
  have hmsb := BitVec.msb_eq_decide x
  apply BitVec.eq_of_toNat_eq
  split
  · next hsign =>
    rw [hsign, eq_comm, decide_eq_true_eq] at hmsb
    rw [BitVec.toNat_ofNat]
    omega
  · next hsign =>
    rw [Bool.eq_false_of_not_eq_true hsign, eq_comm, decide_eq_false_iff_not] at hmsb
    rw [BitVec.toNat_ofNat]
    omega

theorem build_spellFloat {x : PyFloat} (hnan : x.isNaN = false) :
    ∃ d, build (C.spellFloat x) = .ok d ∧ d.val = .float x := by
  unfold spellFloat
  split
  · next hfinite =>
    refine ⟨_, build_eq_ok_iff.mpr (.float (C.isFloat_floatLit x hfinite)), ?_⟩
    rw [C.double_floatLit x hfinite]
  · next hinf =>
    have hbits := infinity_cases hinf hnan
    rw [hnan, if_neg Bool.false_ne_true]
    split
    · next hsign =>
      rw [if_pos hsign] at hbits
      exact ⟨_, rfl, congrArg Json.float hbits.symm⟩
    · next hsign =>
      rw [if_neg hsign] at hbits
      exact ⟨_, rfl, congrArg Json.float hbits.symm⟩

theorem build_number_intLit {n : Int} (h : PyVal.hugeInt n = false) :
    build (.number (intLit n)) = .ok ⟨.int n, rfl⟩ := by
  have hlength : (intLit n).int.digits.length ≤ 4300 :=
    length_decimalDigits_le (by decide) (Nat.not_le.mp (of_decide_eq_false h))
  have hbuilds : Builds (.number (intLit n)) ⟨.int (intLit n).intValue, rfl⟩ := .int rfl hlength
  simpa only [intValue_intLit] using build_eq_ok_iff.mpr hbuilds

theorem build_scalar {depth : Nat} {v : Json} (hclean : v.clean = true)
    (hfits : v.Fits depth) : (∃ d, build (C.spell v) = .ok d ∧ d.val = v) ∨
      (∃ xs, v = .list xs) ∨ ∃ ms, v = .dict ms := by
  cases v with
  | null => exact Or.inl ⟨_, rfl, rfl⟩
  | bool b => cases b <;> exact Or.inl ⟨_, rfl, rfl⟩
  | int n => exact Or.inl ⟨_, build_number_intLit (by simpa [Json.Fits] using hfits), rfl⟩
  | float x => exact Or.inl (C.build_spellFloat (by simpa [Json.clean] using hclean))
  | str s =>
      have hs : s.any PyChar.isSurrogate = false := by
        rw [Json.clean] at hclean
        simpa only [Bool.not_eq_true'] using hclean
      refine Or.inl ⟨_, build_eq_ok_iff.mpr (.str _), ?_⟩
      rw [unitsValue_escapeJsonString hs]
  | list xs => exact Or.inr (Or.inl ⟨xs, rfl⟩)
  | dict ms => exact Or.inr (Or.inr ⟨ms, rfl⟩)

/-- The encoded form of a value within the limits is built to the value. -/
theorem build_spell {depth : Nat} {v : Json} (hwf : v.wf = true) (hclean : v.clean = true)
    (hfits : v.Fits depth) : ∃ d, build (C.spell v) = .ok d ∧ d.val = v := by
  induction depth generalizing v with
  | zero =>
      rcases C.build_scalar hclean hfits with hscalar | ⟨xs, rfl⟩ | ⟨ms, rfl⟩
      · exact hscalar
      · exact hfits.elim
      · exact hfits.elim
  | succ depth ih =>
      rcases C.build_scalar hclean hfits with hscalar | ⟨xs, rfl⟩ | ⟨ms, rfl⟩
      · exact hscalar
      · rw [Json.wf, Json.wfList_iff] at hwf
        rw [Json.clean, Json.cleanList_iff] at hclean
        obtain ⟨ds, hds, hval⟩ := exists_forall₂ (R := fun t d => build t = .ok d)
          fun x hx => ih (hwf x hx) (hclean x hx) (hfits x hx)
        refine ⟨_, build_eq_ok_iff.mpr (.arr ?_), congrArg Json.list hval⟩
        rw [spellList_eq]
        exact hds
      · rw [Json.wf, Bool.and_eq_true, decide_eq_true_eq, Json.wfMembers_iff] at hwf
        rw [Json.clean, Json.cleanMembers_iff] at hclean
        have hmember : ∀ kv ∈ ms, ∃ kd, BuildsMember (C.spellMember kv) kd ∧
            (kd.1, kd.2.val) = kv := by
          intro kv hkv
          obtain ⟨hkey, hvalue⟩ := hclean kv hkv
          obtain ⟨d, hd, hval⟩ := ih (hwf.2 kv hkv) hvalue (hfits kv hkv)
          exact ⟨(kv.1, d), ⟨(unitsValue_escapeJsonString hkey).symm, hd⟩, by rw [hval]⟩
        obtain ⟨kvs, hkvs, hval⟩ := exists_forall₂ hmember
        refine ⟨.dict kvs, build_eq_ok_iff.mpr ?_, ?_⟩
        · rw [spell, spellMembers_eq]
          exact .obj hkvs
        · exact (congrArg (fun e => Json.dict (Assoc.update [] e)) hval).trans
            (congrArg Json.dict (Assoc.update_nil_of_nodup hwf.1))

/-- What is decoded is within the limits. -/
theorem fits_of_loads {b : Bytes} {d : JsonDoc} (h : C.loads b = .ok d) :
    d.val.Fits C.maxDepth := by
  obtain ⟨s, t, -, hspells, hbuild⟩ := loads_eq_ok_iff.mp h
  cases hspells with
  | mk hw hw' htext => exact fits_of_spells htext hbuild

/-- The bytes of an ASCII document are its text. -/
theorem decodePayload_asciiBytes {depth : Nat} {t : JsonTree} {s : PyStr}
    (htext : SpellsText depth t s) (hascii : ∀ c ∈ s, c.val < 0x80) :
    decodePayload (asciiBytes s) = .ok s := by
  have hdecode : decodeUtf8 (asciiBytes s) = some s := decodeUtf8_asciiBytes hascii
  have hpos : ∀ c ∈ s, c.val ≠ 0 := fun c hc => (Nat.pos_iff_ne_zero.mp (htext.pos c hc))
  obtain ⟨c, tail, hcons, hc⟩ := htext.head_ascii
  rw [hcons] at hdecode hpos ⊢
  exact decodePayload_of_utf8 hdecode hc hpos

/-- Decoding an encoded document gives it back. -/
theorem loads_dumps {d : JsonDoc} (hclean : d.val.clean = true) (h : d.val.Fits C.maxDepth) :
    C.loads (C.dumps d) = .ok d := by
  obtain ⟨d', hd', hval⟩ := C.build_spell d.wf hclean h
  rw [JsonDoc.ext hval] at hd'
  exact loads_eq_ok_iff.mpr ⟨_, _,
    decodePayload_asciiBytes (C.spellsText_print h) fun c hc => (C.asciiText_print h c hc).2,
    C.spellsText_print h, hd'⟩

/-! ## The words of the standard -/

/-- A word that is not of the standard is printed for a float that is not finite. -/
theorem nonFinite_of_hasWord {w : JsonWord} (hw : w.strict = false) {t : JsonTree}
    (h : t.HasWord w) {v : Json} (ht : C.spell v = t) : v.NonFinite := by
  have hfloat : ∀ x, (∀ lit, C.spellFloat x ≠ .number lit) → x.isFinite = false := by
    intro x hx
    by_contra hfinite
    exact hx _ (if_pos (Bool.eq_true_of_not_eq_false hfinite))
  induction h generalizing v with
  | word =>
      cases v with
      | float x => exact .float (hfloat x fun lit hlit => by cases hlit.symm.trans ht)
      | bool b =>
          cases ht
          cases b <;> cases hw
      | null =>
          cases ht
          cases hw
      | int _ | str _ | list _ | dict _ => cases ht
  | @arr items t hmem _ ih =>
      cases v with
      | list xs =>
          rw [spell, spellList_eq] at ht
          cases ht
          obtain ⟨x, hx, hxt⟩ := List.mem_map.mp hmem
          exact .list hx (ih hxt)
      | float x => exact .float (hfloat x fun lit hlit => by cases hlit.symm.trans ht)
      | null | bool _ | int _ | str _ | dict _ => cases ht
  | @obj members m hmem _ ih =>
      cases v with
      | dict ms =>
          rw [spell, spellMembers_eq] at ht
          cases ht
          obtain ⟨kv, hkv, rfl⟩ := List.mem_map.mp hmem
          exact .dict hkv (ih rfl)
      | float x => exact .float (hfloat x fun lit hlit => by cases hlit.symm.trans ht)
      | null | bool _ | int _ | str _ | list _ => cases ht

/-- A float that is not finite is printed as a word that is not of the standard. -/
theorem exists_hasWord_of_nonFinite {v : Json} (h : v.NonFinite) :
    ∃ w, w.strict = false ∧ (C.spell v).HasWord w := by
  induction h with
  | @float x hx =>
      rw [spell, spellFloat, if_neg (by simp [hx])]
      split
      · exact ⟨.nan, rfl, .word⟩
      · split
        · exact ⟨.negInfinity, rfl, .word⟩
        · exact ⟨.infinity, rfl, .word⟩
  | @list xs x hmem _ ih =>
      obtain ⟨w, hw, hword⟩ := ih
      rw [spell, spellList_eq]
      exact ⟨w, hw, .arr (List.mem_map_of_mem hmem) hword⟩
  | @dict ms kv hmem _ ih =>
      obtain ⟨w, hw, hword⟩ := ih
      rw [spell, spellMembers_eq]
      exact ⟨w, hw, .obj (List.mem_map_of_mem (f := C.spellMember) hmem) hword⟩

/-- The encoder stays within the standard exactly on values without infinities
and NaNs. -/
theorem strict_spell_iff (v : Json) : (C.spell v).Strict ↔ ¬v.NonFinite := by
  constructor
  · intro hstrict h
    obtain ⟨w, hw, hword⟩ := C.exists_hasWord_of_nonFinite h
    exact absurd ((hstrict w hword).symm.trans hw) (by decide)
  · intro h w hword
    by_contra hw
    exact h (C.nonFinite_of_hasWord (Bool.eq_false_of_not_eq_true hw) hword rfl)

end JsonCodec

/-! ## A codec -/

/-- An integer with an exponent. -/
def scaledLit (neg : Bool) (n : Nat) (e : Exponent) : NumberLit := ⟨neg, decimal n, [], some e⟩

theorem significand_scaledLit (neg : Bool) (n : Nat) (e : Exponent) :
    (scaledLit neg n e).significand = n := by
  rw [NumberLit.significand, scaledLit, List.append_nil]
  exact digitsValue_decimalDigits n

/-- The exact decimal expansion of a double, in units of `10 ^ -1074`. -/
def exactFloatLit (x : PyFloat) : NumberLit :=
  scaledLit x.msb (Binary64.units (x.toNat % 2 ^ 63) * 5 ^ 1074)
    ⟨false, some true, [digitOf 1, digitOf 0, digitOf 7, digitOf 4], by decide⟩

theorem lt_infinity_of_isFinite {x : PyFloat} (h : x.isFinite = true) :
    x.toNat % 2 ^ 63 < Binary64.infinity := by
  have hexponent : x.toNat / 2 ^ 52 % 2 ^ 11 ≠ 0x7FF := by
    intro heq
    have hbits : x.extractLsb' 52 11 = 0x7FF#11 := by
      apply BitVec.eq_of_toNat_eq
      rw [BitVec.extractLsb'_toNat, Nat.shiftRight_eq_div_pow, heq]
      rfl
    simp [PyFloat.isFinite, hbits] at h
  have hlt := x.isLt
  unfold Binary64.infinity
  omega

theorem ofMagnitude_msb (x : PyFloat) : PyFloat.ofMagnitude x.msb (x.toNat % 2 ^ 63) = x := by
  have hlt := x.isLt
  have hmsb := BitVec.msb_eq_decide x
  apply BitVec.eq_of_toNat_eq
  rw [PyFloat.ofMagnitude, BitVec.toNat_ofNat]
  split
  · next hsign =>
    rw [hsign, eq_comm, decide_eq_true_eq] at hmsb
    omega
  · next hsign =>
    rw [Bool.eq_false_of_not_eq_true hsign, eq_comm, decide_eq_false_iff_not] at hmsb
    omega

theorem double_exactFloatLit {x : PyFloat} (h : x.isFinite = true) :
    (exactFloatLit x).double = x := by
  have hnearest : Binary64.nearest (exactFloatLit x).numerator (exactFloatLit x).denominator =
      x.toNat % 2 ^ 63 := by
    have hscale : (exactFloatLit x).scale = -1074 := rfl
    have hten : ∀ n u, u * 5 ^ n * 10 ^ 0 * 2 ^ n = u * 10 ^ n := by
      intro n u
      have hbase : 10 = 5 * 2 := rfl
      rw [pow_zero, mul_one, mul_assoc, ← mul_pow, hbase]
    refine Binary64.nearest_of_exact (exactFloatLit x).denominator_pos
      (lt_infinity_of_isFinite h) ?_
    have hpos : (-1074 : Int).toNat = 0 := rfl
    have hneg : (- -1074 : Int).toNat = 1074 := rfl
    rw [NumberLit.numerator, NumberLit.denominator, hscale, hpos, hneg, exactFloatLit,
      significand_scaledLit, hten]
  rw [NumberLit.double, hnearest]
  exact ofMagnitude_msb x

/-- A codec that prints floats in full. -/
def JsonCodec.exact (maxDepth : Nat) : JsonCodec where
  floatLit := exactFloatLit
  isFloat_floatLit _ _ := rfl
  double_floatLit _ h := double_exactFloatLit h
  maxDepth := maxDepth
  reprDepth := maxDepth
  maxDepth_le_reprDepth := le_refl maxDepth

end Floodgate.Ports
