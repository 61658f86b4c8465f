import Mathlib.Data.List.Induction
import Mathlib.Data.List.Nodup

/-!
# Insertion-ordered dictionaries

A dictionary is an association list whose keys are distinct, in the order in
which they were first written.  Writing a present key replaces its value in
place; writing an absent key appends.  This is the dictionary of scripting
languages, where the order is observable: a document that is decoded, edited
at one key and encoded again keeps every other member where it was.

The raw operations act on plain association lists (namespace `Assoc`), so that
they can also be used inside a recursive value type, where a bundled
dictionary cannot occur.  `OrderedDict` bundles the list with the proof that
its keys are distinct.

## Main results

* `Assoc.get?_set_self`, `Assoc.get?_set_ne`: a write is a functional update
  of one key.
* `Assoc.keys_set_of_mem`, `Assoc.keys_set_of_not_mem`: the frame of a write
  on the key order.
* `Assoc.set_append_cons`, `Assoc.set_of_not_mem`: where a write happens.
* `Assoc.get?_update`, `Assoc.keys_update_of_mem`: a merge over defaults.
* `Assoc.mem_update_nil_iff`: of entries with one key, the last is left.
* `OrderedDict.set`, `OrderedDict.update`: the bundled operations keep the
  keys distinct.
-/

namespace Floodgate.Verified

namespace Assoc

variable {κ ν : Type} [DecidableEq κ]

/-- The keys, in insertion order. -/
def keys (d : List (κ × ν)) : List κ := d.map Prod.fst

/-- The value at a key, or `none` when the key is absent. -/
def get? : List (κ × ν) → κ → Option ν
  | [], _ => none
  | (k', v) :: d, k => if k' = k then some v else get? d k

/-- Write one key: in place when it is present, appended last otherwise. -/
def set : List (κ × ν) → κ → ν → List (κ × ν)
  | [], k, v => [(k, v)]
  | (k', v') :: d, k, v =>
      if k' = k then (k', v) :: d else (k', v') :: set d k v

/-- Write every entry of `e`, in order, over `d`. -/
def update (d e : List (κ × ν)) : List (κ × ν) :=
  e.foldl (fun acc kv => set acc kv.1 kv.2) d

omit [DecidableEq κ] in
@[simp] theorem keys_nil : keys ([] : List (κ × ν)) = [] := rfl

omit [DecidableEq κ] in
@[simp] theorem keys_cons (k : κ) (v : ν) (d : List (κ × ν)) :
    keys ((k, v) :: d) = k :: keys d := rfl

@[simp] theorem get?_nil (k : κ) : get? ([] : List (κ × ν)) k = none := rfl

@[simp] theorem get?_cons (k' : κ) (v : ν) (d : List (κ × ν)) (k : κ) :
    get? ((k', v) :: d) k = if k' = k then some v else get? d k := rfl

theorem get?_eq_none_iff {d : List (κ × ν)} {k : κ} : get? d k = none ↔ k ∉ keys d := by
  induction d with
  | nil => simp
  | cons kv d ih =>
      obtain ⟨k', v⟩ := kv
      by_cases hk : k' = k
      · simp [hk]
      · have hne : k ≠ k' := fun e => hk e.symm
        simp [hk, hne, ih]

/-- What is found is an entry. -/
theorem mem_of_get?_eq_some {d : List (κ × ν)} {k : κ} {v : ν} (h : get? d k = some v) :
    (k, v) ∈ d := by
  induction d with
  | nil => cases h
  | cons kv d ih =>
      obtain ⟨k', v'⟩ := kv
      rw [get?_cons] at h
      split at h
      · next heq =>
        obtain rfl := Option.some.inj h
        exact heq ▸ List.mem_cons_self
      · exact List.mem_cons_of_mem _ (ih h)

/-- With distinct keys, every entry is found under its key. -/
theorem get?_of_mem {d : List (κ × ν)} (h : (keys d).Nodup) {kv : κ × ν} (hkv : kv ∈ d) :
    get? d kv.1 = some kv.2 := by
  induction d with
  | nil => exact absurd hkv List.not_mem_nil
  | cons kv' d ih =>
      obtain ⟨k', v'⟩ := kv'
      rw [keys_cons, List.nodup_cons] at h
      rcases List.mem_cons.mp hkv with rfl | hmem
      · exact if_pos rfl
      · have hne : k' ≠ kv.1 := fun e => h.1 (e ▸ List.mem_map_of_mem hmem)
        rw [get?_cons, if_neg hne, ih h.2 hmem]

/-- Reading back the written key gives the written value. -/
@[simp] theorem get?_set_self (d : List (κ × ν)) (k : κ) (v : ν) :
    get? (set d k v) k = some v := by
  induction d with
  | nil => simp [set]
  | cons kv d ih =>
      obtain ⟨k', v'⟩ := kv
      by_cases h : k' = k
      · simp [set, h]
      · simp [set, h, ih]

/-- Every other key reads as before the write. -/
theorem get?_set_ne (d : List (κ × ν)) {k k' : κ} (v : ν) (h : k ≠ k') :
    get? (set d k v) k' = get? d k' := by
  induction d with
  | nil => simp [set, h]
  | cons kv d ih =>
      obtain ⟨k'', v'⟩ := kv
      by_cases hk : k'' = k
      · subst hk
        simp [set, h]
      · simp [set, hk, ih]

/-- A write, observed at any key. -/
theorem get?_set (d : List (κ × ν)) (k k' : κ) (v : ν) :
    get? (set d k v) k' = if k = k' then some v else get? d k' := by
  by_cases h : k = k'
  · subst h
    simp
  · rw [if_neg h, get?_set_ne d v h]

/-- Overwriting a present key leaves the order of the keys alone. -/
theorem keys_set_of_mem {d : List (κ × ν)} {k : κ} (v : ν) (h : k ∈ keys d) :
    keys (set d k v) = keys d := by
  induction d with
  | nil => simp at h
  | cons kv d ih =>
      obtain ⟨k', v'⟩ := kv
      by_cases hk : k' = k
      · simp [set, hk]
      · have hmem : k ∈ keys d := by
          have hne : k ≠ k' := fun e => hk e.symm
          simpa [hne] using h
        simp [set, hk, ih hmem]

/-- Writing an absent key appends it. -/
theorem keys_set_of_not_mem {d : List (κ × ν)} {k : κ} (v : ν)
    (h : k ∉ keys d) : keys (set d k v) = keys d ++ [k] := by
  induction d with
  | nil => simp [set]
  | cons kv d ih =>
      obtain ⟨k', v'⟩ := kv
      simp only [keys_cons, List.mem_cons, not_or] at h
      have hk : k' ≠ k := fun e => h.1 e.symm
      simp [set, hk, ih h.2]

/-- A write keeps distinct keys distinct. -/
theorem nodup_keys_set {d : List (κ × ν)} (k : κ) (v : ν)
    (h : (keys d).Nodup) : (keys (set d k v)).Nodup := by
  by_cases hk : k ∈ keys d
  · rwa [keys_set_of_mem v hk]
  · rw [keys_set_of_not_mem v hk]
    exact List.nodup_append.mpr
      ⟨h, List.nodup_singleton k, by
        intro a ha b hb
        rw [List.mem_singleton] at hb
        subst hb
        exact fun e => hk (e ▸ ha)⟩

/-- An entry after a write is the written one or was there before. -/
theorem mem_set {d : List (κ × ν)} {k : κ} {v : ν} {kv : κ × ν}
    (h : kv ∈ set d k v) : kv = (k, v) ∨ kv ∈ d := by
  induction d with
  | nil => simpa [set] using h
  | cons hd d ih =>
      obtain ⟨k', v'⟩ := hd
      by_cases hk : k' = k
      · subst hk
        simp only [set, if_true, List.mem_cons] at h
        rcases h with rfl | h
        · exact Or.inl rfl
        · exact Or.inr (List.mem_cons_of_mem _ h)
      · simp only [set, if_neg hk, List.mem_cons] at h
        rcases h with rfl | h
        · exact Or.inr (List.mem_cons_self ..)
        · rcases ih h with e | hd
          · exact Or.inl e
          · exact Or.inr (List.mem_cons_of_mem _ hd)

/-- Writing an absent key appends the entry. -/
theorem set_of_not_mem {d : List (κ × ν)} {k : κ} (v : ν) (h : k ∉ keys d) :
    set d k v = d ++ [(k, v)] := by
  induction d with
  | nil => rfl
  | cons kv d ih =>
      obtain ⟨k', v'⟩ := kv
      simp only [keys_cons, List.mem_cons, not_or] at h
      have hk : k' ≠ k := fun e => h.1 e.symm
      rw [set, if_neg hk, ih h.2, List.cons_append]

/-- Writing a present key replaces its value where it stands. -/
theorem set_append_cons {pre : List (κ × ν)} {k : κ} (h : k ∉ keys pre) (v' v : ν)
    (post : List (κ × ν)) : set (pre ++ (k, v') :: post) k v = pre ++ (k, v) :: post := by
  induction pre with
  | nil => exact if_pos rfl
  | cons kv pre ih =>
      obtain ⟨k', v''⟩ := kv
      simp only [keys_cons, List.mem_cons, not_or] at h
      have hk : k' ≠ k := fun e => h.1 e.symm
      rw [List.cons_append, set, if_neg hk, ih h.2, List.cons_append]

omit [DecidableEq κ] in
/-- A present key has a first entry. -/
theorem exists_split_of_mem_keys {d : List (κ × ν)} {k : κ} (h : k ∈ keys d) :
    ∃ pre v post, d = pre ++ (k, v) :: post ∧ k ∉ keys pre := by
  induction d with
  | nil => exact absurd h List.not_mem_nil
  | cons kv d ih =>
      obtain ⟨k', v'⟩ := kv
      by_cases hk : k = k'
      · exact ⟨[], v', d, by rw [hk, List.nil_append], List.not_mem_nil⟩
      · have hmem : k ∈ keys d := by simpa [hk] using h
        obtain ⟨pre, v, post, rfl, hpre⟩ := ih hmem
        refine ⟨(k', v') :: pre, v, post, rfl, ?_⟩
        rw [keys_cons, List.mem_cons, not_or]
        exact ⟨hk, hpre⟩

/-- The entries after a write. -/
theorem mem_set_iff {d : List (κ × ν)} {k : κ} {v : ν} {kv : κ × ν} (h : (keys d).Nodup) :
    kv ∈ set d k v ↔ kv = (k, v) ∨ (kv.1 ≠ k ∧ kv ∈ d) := by
  by_cases hk : k ∈ keys d
  · obtain ⟨pre, v', post, rfl, hpre⟩ := exists_split_of_mem_keys hk
    have hpost : k ∉ keys post := by
      simp only [keys, List.map_append, List.map_cons] at h ⊢
      exact (List.nodup_cons.mp (List.nodup_append.mp h).2.1).1
    have hne : ∀ kv ∈ pre ++ post, kv.1 ≠ k := by
      rintro kv hmem rfl
      rcases List.mem_append.mp hmem with hmem | hmem
      · exact hpre (List.mem_map_of_mem hmem)
      · exact hpost (List.mem_map_of_mem hmem)
    rw [set_append_cons hpre]
    simp only [List.mem_append, List.mem_cons] at hne ⊢
    constructor
    · rintro (hmem | rfl | hmem)
      · exact Or.inr ⟨hne kv (Or.inl hmem), Or.inl hmem⟩
      · exact Or.inl rfl
      · exact Or.inr ⟨hne kv (Or.inr hmem), Or.inr (Or.inr hmem)⟩
    · rintro (rfl | ⟨hkv, hmem | rfl | hmem⟩)
      · exact Or.inr (Or.inl rfl)
      · exact Or.inl hmem
      · exact absurd rfl hkv
      · exact Or.inr (Or.inr hmem)
  · have hne : kv ∈ d → kv.1 ≠ k := by
      rintro hmem rfl
      exact hk (List.mem_map_of_mem hmem)
    rw [set_of_not_mem v hk, List.mem_append, List.mem_singleton]
    constructor
    · rintro (hmem | rfl)
      · exact Or.inr ⟨hne hmem, hmem⟩
      · exact Or.inl rfl
    · rintro (rfl | ⟨-, hmem⟩)
      · exact Or.inr rfl
      · exact Or.inl hmem

/-- A merge keeps distinct keys distinct. -/
theorem nodup_keys_update {d : List (κ × ν)} (e : List (κ × ν))
    (h : (keys d).Nodup) : (keys (update d e)).Nodup := by
  induction e generalizing d with
  | nil => exact h
  | cons kv e ih => exact ih (nodup_keys_set kv.1 kv.2 h)

/-- A merge loses no key. -/
theorem isSome_get?_update {d : List (κ × ν)} (e : List (κ × ν)) {k : κ}
    (h : (get? d k).isSome) : (get? (update d e) k).isSome := by
  induction e generalizing d with
  | nil => exact h
  | cons kv e ih =>
      refine ih (d := set d kv.1 kv.2) ?_
      rw [get?_set]
      split
      · rfl
      · exact h

/-- A merge that writes present keys only leaves the order of the keys alone. -/
theorem keys_update_of_mem {d e : List (κ × ν)} (h : ∀ k ∈ keys e, k ∈ keys d) :
    keys (update d e) = keys d := by
  induction e generalizing d with
  | nil => rfl
  | cons kv e ih =>
      have hkeys := keys_set_of_mem kv.2 (h kv.1 (List.mem_cons_self ..))
      have hrest : ∀ k ∈ keys e, k ∈ keys (set d kv.1 kv.2) := by
        rw [hkeys]
        exact fun k hk => h k (List.mem_cons_of_mem _ hk)
      exact (ih hrest).trans hkeys

/-- A merge, observed at any key: what was merged in, else what was there. -/
theorem get?_update (d e : List (κ × ν)) (k : κ) :
    get? (update d e) k = (get? (update [] e) k).or (get? d k) := by
  induction e generalizing d with
  | nil => rfl
  | cons kv e ih =>
      have hfirst : ∀ d' : List (κ × ν),
          update d' (kv :: e) = update (set d' kv.1 kv.2) e := fun _ => rfl
      rw [hfirst, hfirst, ih, ih (set [] kv.1 kv.2), get?_set, get?_set]
      cases get? (update [] e) k with
      | some v => rfl
      | none => by_cases hk : kv.1 = k <;> simp [hk]

theorem update_append_singleton (d e : List (κ × ν)) (kv : κ × ν) :
    update d (e ++ [kv]) = set (update d e) kv.1 kv.2 := by
  rw [update, List.foldl_append]
  rfl

/-- An entry after a merge was merged in or was there before. -/
theorem mem_update {d e : List (κ × ν)} {kv : κ × ν} (h : kv ∈ update d e) :
    kv ∈ d ∨ kv ∈ e := by
  induction e generalizing d with
  | nil => exact Or.inl h
  | cons kv' e ih =>
      rcases ih (d := set d kv'.1 kv'.2) h with hset | he
      · rcases mem_set hset with rfl | hd
        · exact Or.inr List.mem_cons_self
        · exact Or.inl hd
      · exact Or.inr (List.mem_cons_of_mem _ he)

/-- Entries written into an empty dictionary: the last one of each key is left. -/
theorem mem_update_nil_iff {e : List (κ × ν)} {kv : κ × ν} :
    kv ∈ update [] e ↔ ∃ before after, e = before ++ kv :: after ∧ kv.1 ∉ keys after := by
  induction e using List.reverseRec with
  | nil => simp [update]
  | append_singleton e last ih =>
      rw [update_append_singleton, mem_set_iff (nodup_keys_update (d := []) e List.nodup_nil), ih]
      constructor
      · rintro (rfl | ⟨hne, before, after, rfl, hafter⟩)
        · exact ⟨e, [], rfl, List.not_mem_nil⟩
        · refine ⟨before, after ++ [last], by simp, ?_⟩
          simpa [keys, hne] using hafter
      · rintro ⟨before, after, he, hafter⟩
        rcases List.eq_nil_or_concat after with rfl | ⟨after, last', rfl⟩
        · obtain ⟨rfl, hlast⟩ := List.append_inj' he rfl
          exact Or.inl (List.cons.inj hlast).1.symm
        · have hsplit : e ++ [last] = (before ++ kv :: after) ++ [last'] := by simp [he]
          obtain ⟨rfl, hlast⟩ := List.append_inj' hsplit rfl
          obtain rfl := (List.cons.inj hlast).1
          simp only [keys, List.concat_eq_append, List.map_append, List.mem_append,
            List.map_cons, List.map_nil, List.mem_singleton, not_or] at hafter
          exact Or.inr ⟨hafter.2, before, after, rfl, hafter.1⟩

/-- Entries with distinct keys are written as they stand. -/
theorem update_nil_of_nodup {e : List (κ × ν)} (h : (keys e).Nodup) : update [] e = e := by
  induction e using List.reverseRec with
  | nil => rfl
  | append_singleton e last ih =>
      rw [keys, List.map_append, List.nodup_append] at h
      have hlast : last.1 ∉ keys e := fun hmem =>
        h.2.2 last.1 hmem last.1 (List.mem_singleton_self _) rfl
      rw [update_append_singleton, ih h.1, set_of_not_mem last.2 hlast]

end Assoc

/-- An insertion-ordered dictionary: entries with distinct keys. -/
structure OrderedDict (κ ν : Type) where
  entries : List (κ × ν)
  nodup : (Assoc.keys entries).Nodup

namespace OrderedDict

variable {κ ν : Type} [DecidableEq κ]

def empty : OrderedDict κ ν := ⟨[], List.nodup_nil⟩

def get? (d : OrderedDict κ ν) (k : κ) : Option ν := Assoc.get? d.entries k

def set (d : OrderedDict κ ν) (k : κ) (v : ν) : OrderedDict κ ν :=
  ⟨Assoc.set d.entries k v, Assoc.nodup_keys_set k v d.nodup⟩

/-- Write the entries of an association list, in order, over `d`. -/
def update (d : OrderedDict κ ν) (e : List (κ × ν)) : OrderedDict κ ν :=
  ⟨Assoc.update d.entries e, Assoc.nodup_keys_update e d.nodup⟩

@[simp] theorem get?_set_self (d : OrderedDict κ ν) (k : κ) (v : ν) :
    (d.set k v).get? k = some v := Assoc.get?_set_self d.entries k v

theorem get?_set_ne (d : OrderedDict κ ν) {k k' : κ} (v : ν) (h : k ≠ k') :
    (d.set k v).get? k' = d.get? k' := Assoc.get?_set_ne d.entries v h

theorem get?_set (d : OrderedDict κ ν) (k k' : κ) (v : ν) :
    (d.set k v).get? k' = if k = k' then some v else d.get? k' :=
  Assoc.get?_set d.entries k k' v

theorem get?_update (d : OrderedDict κ ν) (e : List (κ × ν)) (k : κ) :
    (d.update e).get? k = ((empty.update e).get? k).or (d.get? k) :=
  Assoc.get?_update d.entries e k

theorem isSome_get?_update (d : OrderedDict κ ν) (e : List (κ × ν)) {k : κ}
    (h : (d.get? k).isSome) : ((d.update e).get? k).isSome :=
  Assoc.isSome_get?_update e h

end OrderedDict

end Floodgate.Verified
