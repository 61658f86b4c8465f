import Floodgate.Verified.Report
import Floodgate.Ports.ConfigSchema

/-!
# Which value problems one load reports

`_validate_values` runs as a reporting validator in the sense of
`Verified.Report`: every check reads one key of the overlay, and later checks
are not disturbed by the keys that earlier ones normalise or derive.  The one
exception is the channel block, where a refused `zerohop_channels` ends the
block before `drop_channels` is looked at.

## Main results

* `validateValues_reports`: the entries of a whole run are about exactly the
  bad keys it looked at, or a bad value could not be rendered and the run
  raised.
* `loadConfig_reports_every_bad_key_iff`: when the `ConfigError` has an entry
  for every bad key and for no good one.
-/

namespace Floodgate.Ports

open Floodgate.Verified
open Floodgate.Verified.Report

/-- The key's value, after the overlay, is in its documented domain. -/
def ValidKey (host : ConfigHost) (user : List (PyStr × PyVal))
    (key : ConfigKey) : Prop :=
  InDomain host key ((overlay user).value key)

/-- What the entry about the key renders is printable. -/
def ShowableKey (host : ConfigHost) (user : List (PyStr × PyVal))
    (key : ConfigKey) : Prop :=
  host.reprFault (shownValue host key ((overlay user).value key)) = none

instance (host : ConfigHost) (user : List (PyStr × PyVal)) (key : ConfigKey) :
    Decidable (ShowableKey host user key) :=
  decidable_of_iff _ Option.isNone_iff_eq_none

/-- The configuration still has the overlay's values outside `written`. -/
def Untouched (user : List (PyStr × PyVal)) (written : List PyStr)
    (config : Config) : Prop :=
  ∀ k, k ∉ written → config.get? k = (overlay user).get? k

theorem Untouched.overlay (user : List (PyStr × PyVal)) :
    Untouched user [] (overlay user) := fun _ _ => rfl

theorem Untouched.set {user : List (PyStr × PyVal)} {written : List PyStr}
    {config : Config} (h : Untouched user written config) (k : PyStr) (v : PyVal) :
    Untouched user (k :: written) (config.set k v) := by
  intro k' hk'
  simp only [List.mem_cons, not_or] at hk'
  rw [OrderedDict.get?_set_ne config v (fun e => hk'.1 e.symm), h k' hk'.2]

theorem Untouched.cons {user : List (PyStr × PyVal)} {written : List PyStr}
    {config : Config} (h : Untouched user written config) (k : PyStr) :
    Untouched user (k :: written) config :=
  fun k' hk' => h k' fun hmem => hk' (List.mem_cons_of_mem _ hmem)

theorem Untouched.getItem {user : List (PyStr × PyVal)} {written : List PyStr}
    {config : Config} (h : Untouched user written config) (key : ConfigKey)
    (hkey : key.name ∉ written) :
    config.getItem key.name = .ok ((Ports.overlay user).value key) := by
  rw [← overlay_getItem user key, Config.getItem, Config.getItem, h _ hkey]

section Checks

variable (host : ConfigHost) (user : List (PyStr × PyVal))

/-- The validator's vocabulary, for one host and one user mapping. -/
def vocabulary : Vocabulary ConfigKey PyStr ConfigFailure where
  About := EntryFor
  Bad key := ¬ ValidKey host user key
  Showable := ShowableKey host user
  Raised failure := ∃ e, failure = .uncaught e
  about_functional := EntryFor.functional

variable {host user}

/-- A check that passes valid values and otherwise appends one entry with the
rendered value meets the reporting specification. -/
theorem checks_of_report {ρ : Type} {entries : ρ → List PyStr}
    {Keeps : ρ → Prop} {key : ConfigKey} {errors : List PyStr}
    {r : Except ConfigFailure ρ}
    (good : ValidKey host user key → ∃ a, r = .ok a ∧ Keeps a ∧ entries a = errors)
    (bad : ¬ ValidKey host user key → ∃ (mk : PyStr → ρ) (text : PyStr → PyStr),
      r = mk <$> host.repr (shownValue host key ((overlay user).value key)) ∧
        ∀ shown, Keeps (mk shown) ∧ entries (mk shown) = errors ++ [text shown] ∧
          EntryFor key (text shown)) :
    Checks (vocabulary host user) entries Keeps key errors r where
  good h := good (not_not.mp h)
  bad h hshow := by
    obtain ⟨mk, text, hr, hmk⟩ := bad h
    rw [host.repr_of_printable hshow] at hr
    obtain ⟨hkeep, hentries, habout⟩ := hmk (host.reprText
      (shownValue host key ((overlay user).value key)))
    exact ⟨_, [text _], hr, hkeep, hentries, List.cons_ne_nil _ _,
      fun e he => (List.mem_singleton.mp he) ▸ habout⟩
  stuck h hshow := by
    obtain ⟨mk, text, hr, -⟩ := bad h
    obtain ⟨e, he⟩ := Option.ne_none_iff_exists'.mp hshow
    rw [host.repr_of_unprintable he] at hr
    exact ⟨_, ⟨e, rfl⟩, hr⟩

/-- An entry that starts with the key between backticks and a space. -/
private theorem entryFor_text (key : ConfigKey) (head tail : PyStr)
    (h : py " " <+: head) : EntryFor key (ticked key.name ++ head ++ tail) := by
  rw [List.append_assoc]
  exact EntryFor.of_ticked key (List.prefix_append_of_prefix h)

theorem ok_bind {ε α β : Type} (a : α) (f : α → Except ε β) :
    (Except.ok a >>= f) = f a := rfl

/-- `checkBool` passes a boolean. -/
theorem checkBool_of_bool {config : Config} {key : PyStr} {b : Bool} (errors : List PyStr)
    (hget : config.getItem key = .ok (.bool b)) :
    checkBool host config errors key = .ok errors := by
  rw [checkBool, hget]
  rfl

/-- `checkBool`, at any key whose domain is the booleans. -/
theorem checkBool_checks {config : Config} (key : ConfigKey) (errors : List PyStr)
    (hget : config.getItem key.name = .ok ((overlay user).value key))
    (hdom : ∀ v, InDomain host key v ↔ ∃ b, v = .bool b)
    (hshown : ∀ v, shownValue host key v = v) :
    Checks (vocabulary host user) id (fun _ => True) key errors
      (checkBool host config errors key.name) := by
  apply checks_of_report
  · intro hvalid
    obtain ⟨b, hb⟩ := (hdom _).mp hvalid
    exact ⟨errors, checkBool_of_bool errors (hget.trans (congrArg _ hb)), trivial, rfl⟩
  · intro hbad
    refine ⟨_, _, ?_, fun shown => ⟨trivial, rfl,
      entryFor_text key (py " must be true or false (unquoted); got ") shown
        (by decide)⟩⟩
    simp only [checkBool, hget, orRaise, ok_bind]
    split
    · next b hb => exact absurd ((hdom _).mpr ⟨b, hb⟩) hbad
    · rw [hshown]
      exact bind_pure_comp _ _

theorem intInRange_iff (low : Int) (high : Option Int) (v : PyVal) :
    intInRange low high v = true ↔
      ∃ n, v = .int n ∧ low ≤ n ∧ ∀ h, high = some h → n ≤ h := by
  cases v with
  | int n => cases high <;> simp [intInRange]
  | _ => simp [intInRange]

theorem inDomain_port_iff (v : PyVal) :
    intInRange 1 (some 65535) v = true ↔ ∃ n, v = .int n ∧ 1 ≤ n ∧ n ≤ 65535 := by
  simp [intInRange_iff]

theorem inDomain_count_iff (v : PyVal) :
    intInRange 1 none v = true ↔ ∃ n, v = .int n ∧ 1 ≤ n := by
  simp [intInRange_iff]

/-- `checkInt` passes an integer in range. -/
theorem checkInt_of_inRange {config : Config} {key : PyStr} {v : PyVal}
    (errors : List PyStr) {low : Int} {high : Option Int}
    (hget : config.getItem key = .ok v) (hv : intInRange low high v = true) :
    checkInt host config key errors low high = .ok errors := by
  simp only [checkInt, hget, orRaise, ok_bind, if_pos hv]
  rfl

/-- `checkInt`, at any key whose domain is a range of integers. -/
theorem checkInt_checks {config : Config} (key : ConfigKey) (errors : List PyStr)
    (low : Int) (high : Option Int)
    (hget : config.getItem key.name = .ok ((overlay user).value key))
    (hdom : ∀ v, InDomain host key v ↔ intInRange low high v = true)
    (hshown : ∀ v, shownValue host key v = v) :
    Checks (vocabulary host user) id (fun _ => True) key errors
      (checkInt host config key.name errors low high) := by
  have habout : ∀ shown, EntryFor key (ticked key.name ++
      py " must be an integer " ++ intBound low high ++ py "; got " ++ shown) := by
    intro shown
    rw [List.append_assoc, List.append_assoc]
    exact entryFor_text key (py " must be an integer ") _ (by decide)
  apply checks_of_report
  · intro hvalid
    exact ⟨errors, checkInt_of_inRange errors hget ((hdom _).mp hvalid), trivial, rfl⟩
  · intro hbad
    refine ⟨_, _, ?_, fun shown => ⟨trivial, rfl, habout shown⟩⟩
    simp only [checkInt, hget, orRaise, ok_bind]
    rw [if_neg fun h => hbad ((hdom _).mpr h), hshown]
    exact bind_pure_comp _ _

theorem asStr_filter_eq_some {v : PyVal} {p : PyStr → Bool} {s : PyStr} :
    v.asStr.filter p = some s ↔ v = .str s ∧ p s = true := by
  rw [Option.filter_eq_some_iff, PyVal.asStr_eq_some]

/-- `checkTopicFilter` passes a non-empty string. -/
theorem checkTopicFilter_of_str {config : Config} {s : PyStr} (errors : List PyStr)
    (hget : config.getItem (py "topic_filter") = .ok (.str s)) (hs : s ≠ []) :
    checkTopicFilter host config errors = .ok errors := by
  have hf : (PyVal.str s).asStr.filter (!·.isEmpty) = some s :=
    asStr_filter_eq_some.mpr ⟨rfl, by simpa using hs⟩
  simp only [checkTopicFilter, hget, orRaise, ok_bind, hf]
  rfl

/-- `checkTopicFilter` meets the reporting specification. -/
theorem checkTopicFilter_checks {config : Config} (errors : List PyStr)
    (hget : config.getItem (py "topic_filter") =
      .ok ((overlay user).value .topicFilter)) :
    Checks (vocabulary host user) id (fun _ => True) .topicFilter errors
      (checkTopicFilter host config errors) := by
  apply checks_of_report
  · rintro ⟨s, hs, hne⟩
    exact ⟨errors, checkTopicFilter_of_str errors (hget.trans (congrArg _ hs)) hne,
      trivial, rfl⟩
  · intro hbad
    refine ⟨_, _, ?_, fun shown => ⟨trivial, rfl,
      entryFor_text .topicFilter (py " must be a non-empty string; got ") shown
        (by decide)⟩⟩
    simp only [checkTopicFilter, hget, orRaise, ok_bind]
    split
    · next s hs =>
      obtain ⟨hv, hne⟩ := asStr_filter_eq_some.mp hs
      exact absurd ⟨s, hv, by simpa using hne⟩ hbad
    · exact bind_pure_comp _ _

/-- `checkLogLevel` writes a known level in upper case. -/
theorem checkLogLevel_of_known {config : Config} {s : PyStr} (errors : List PyStr)
    (hget : config.getItem (py "log_level") = .ok (.str s))
    (hs : host.unicode.upper s ∈ logLevels) :
    checkLogLevel host config errors =
      .ok (config.set (py "log_level") (.str (host.unicode.upper s)), errors) := by
  have hf : (PyVal.str s).asStr.filter
      (fun s => logLevels.contains (host.unicode.upper s)) = some s :=
    asStr_filter_eq_some.mpr ⟨rfl, by simpa using hs⟩
  simp only [checkLogLevel, hget, orRaise, ok_bind, hf]
  rfl

/-- `checkLogLevel` meets the reporting specification and writes only
`log_level`. -/
theorem checkLogLevel_checks {config : Config} {written : List PyStr}
    (errors : List PyStr) (hun : Untouched user written config)
    (hget : config.getItem (py "log_level") = .ok ((overlay user).value .logLevel)) :
    Checks (vocabulary host user) Prod.snd
      (fun r => Untouched user (py "log_level" :: written) r.1) .logLevel errors
      (checkLogLevel host config errors) := by
  have habout : ∀ shown,
      EntryFor .logLevel (oneOfEntry (ticked (py "log_level")) logLevels shown) := by
    intro shown
    rw [oneOfEntry, List.append_assoc, List.append_assoc]
    exact entryFor_text .logLevel (py " must be one of ") _ (by decide)
  apply checks_of_report
  · rintro ⟨s, hs, hmem⟩
    exact ⟨_, checkLogLevel_of_known errors (hget.trans (congrArg _ hs)) hmem,
      hun.set _ _, rfl⟩
  · intro hbad
    refine ⟨fun shown => (config,
      errors ++ [oneOfEntry (ticked (py "log_level")) logLevels shown]), _, ?_,
      fun shown => ⟨hun.cons _, rfl, habout shown⟩⟩
    simp only [checkLogLevel, hget, orRaise, ok_bind]
    split
    · next s hs =>
      obtain ⟨hv, hmem⟩ := asStr_filter_eq_some.mp hs
      exact absurd ⟨s, hv, by simpa using hmem⟩ hbad
    · exact bind_pure_comp _ _

/-- `checkFormatValue` writes a known format in lower case. -/
theorem checkFormatValue_of_known (config : Config) {s : PyStr} (errors : List PyStr)
    (label : PyStr) (hs : host.unicode.lower s ∈ logFormats) :
    checkFormatValue host config errors (.str s) label =
      .ok (config.set (py "log_format") (.str (host.unicode.lower s)), errors) := by
  have hf : (PyVal.str s).asStr.filter
      (fun s => logFormats.contains (host.unicode.lower s)) = some s :=
    asStr_filter_eq_some.mpr ⟨rfl, by simpa using hs⟩
  simp only [checkFormatValue, hf]
  rfl

/-- `checkFormatValue` meets the reporting specification at `log_format`,
whichever value and label it was given. -/
private theorem checkFormatValue_checks {config : Config} {written : List PyStr}
    (errors : List PyStr) (hun : Untouched user written config) (fmt : PyVal)
    (label : PyStr)
    (hdom : ValidKey host user .logFormat ↔
      ∃ s, fmt = .str s ∧ host.unicode.lower s ∈ logFormats)
    (hshown : shownValue host .logFormat ((overlay user).value .logFormat) = fmt)
    (habout : ∀ shown, EntryFor .logFormat (oneOfEntry label logFormats shown)) :
    Checks (vocabulary host user) Prod.snd
      (fun r => Untouched user (py "log_format" :: written) r.1) .logFormat errors
      (checkFormatValue host config errors fmt label) := by
  apply checks_of_report
  · intro hvalid
    obtain ⟨s, rfl, hmem⟩ := hdom.mp hvalid
    exact ⟨_, checkFormatValue_of_known config errors label hmem, hun.set _ _, rfl⟩
  · intro hbad
    refine ⟨fun shown => (config, errors ++ [oneOfEntry label logFormats shown]), _,
      ?_, fun shown => ⟨hun.cons _, rfl, habout shown⟩⟩
    unfold checkFormatValue
    split
    · next s hs =>
      obtain ⟨hv, hmem⟩ := asStr_filter_eq_some.mp hs
      exact absurd (hdom.mpr ⟨s, hv, by simpa using hmem⟩) hbad
    · rw [hshown]
      exact bind_pure_comp _ _

/-- `checkLogFormat` meets the reporting specification, whether the value comes
from the environment or from the overlay, and writes only `log_format`. -/
theorem checkLogFormat_checks {config : Config} {written : List PyStr}
    (errors : List PyStr) (hun : Untouched user written config)
    (hget : config.getItem (py "log_format") = .ok ((overlay user).value .logFormat)) :
    Checks (vocabulary host user) Prod.snd
      (fun r => Untouched user (py "log_format" :: written) r.1) .logFormat errors
      (checkLogFormat host config errors) := by
  cases henv : envLogFormat host with
  | some env =>
      simp only [checkLogFormat, henv]
      refine checkFormatValue_checks errors hun _ _ (by simp [ValidKey, InDomain, henv])
        (by simp [shownValue, henv]) fun shown => Or.inr ⟨rfl, ?_⟩
      rw [oneOfEntry, List.append_assoc, List.append_assoc, List.append_assoc]
      exact (List.prefix_append_right_inj (py "FLOODGATE_LOG_FORMAT")).mpr
        (List.prefix_append_of_prefix (show py " " <+: py " must be one of " by decide))
  | none =>
      simp only [checkLogFormat, henv, hget, orRaise, ok_bind]
      refine checkFormatValue_checks errors hun _ _ (by simp [ValidKey, InDomain, henv])
        (by simp [shownValue, henv]) fun shown => ?_
      rw [oneOfEntry, List.append_assoc, List.append_assoc]
      exact entryFor_text .logFormat (py " must be one of ") _ (by decide)

/-! ### The list validators -/

/-- `None` or a list of strings: what the list validators accept. -/
def IsStringList (v : PyVal) : Prop :=
  v = .none ∨ ∃ names : List PyStr, v = .list (names.map .str)

/-- The set that an accepted value is turned into. -/
def nameSet : PyVal → List PyStr
  | .list xs => (xs.filterMap PyVal.asStr).dedup
  | _ => []

theorem filter_not_isStr_eq_nil_iff (xs : List PyVal) :
    xs.filter (!·.isStr) = [] ↔ ∃ names : List PyStr, xs = names.map .str := by
  constructor
  · intro h
    induction xs with
    | nil => exact ⟨[], rfl⟩
    | cons x xs ih =>
        rw [List.filter_eq_nil_iff] at h
        have hx : x.isStr = true := by simpa using h x (List.mem_cons_self ..)
        obtain ⟨s, rfl⟩ := PyVal.isStr_iff.mp hx
        obtain ⟨names, rfl⟩ := ih (List.filter_eq_nil_iff.mpr fun y hy =>
          h y (List.mem_cons_of_mem _ hy))
        exact ⟨s :: names, rfl⟩
  · rintro ⟨names, rfl⟩
    rw [List.filter_eq_nil_iff]
    intro v hv
    obtain ⟨s, _, rfl⟩ := List.mem_map.mp hv
    simp [PyVal.isStr, PyVal.asStr]

theorem mem_nameSet_map {name : PyStr} {names : List PyStr} :
    name ∈ nameSet (.list (names.map .str)) ↔ name ∈ names := by
  simp [nameSet, PyVal.asStr]

/-- A list of strings says which strings it lists. -/
theorem strList_injective {names names' : List PyStr}
    (h : PyVal.list (names.map .str) = .list (names'.map .str)) : names = names' := by
  have hinj : Function.Injective PyVal.str := fun _ _ e => PyVal.str.inj e
  exact List.map_injective_iff.mpr hinj (PyVal.list.inj h)

theorem validateStringList_of_accepted (host : ConfigHost) {v : PyVal} (key : PyStr)
    (h : IsStringList v) : validateStringList host v key = .ok (nameSet v) := by
  rcases h with rfl | ⟨names, rfl⟩
  · rfl
  · have hnil := (filter_not_isStr_eq_nil_iff (names.map .str)).mpr ⟨names, rfl⟩
    simp [validateStringList, hnil, nameSet]

/-- A refused value that can be rendered gives a `ConfigError` about the key. -/
theorem validateStringList_of_refused (host : ConfigHost) {v : PyVal} (key : PyStr)
    (h : ¬ IsStringList v) (hshow : host.reprFault (shownList v) = none) :
    ∃ text, validateStringList host v key = .error (.config (.badValue text)) ∧
      (ticked key ++ py " ") <+: text := by
  cases v with
  | none => exact absurd (Or.inl rfl) h
  | list xs =>
      have hne : (xs.filter (!·.isStr)).isEmpty = false := by
        rw [List.isEmpty_eq_false_iff]
        exact fun hnil => h (Or.inr
          ((filter_not_isStr_eq_nil_iff xs).mp hnil |>.imp fun _ e => congrArg _ e))
      have hprint : host.reprFault (.list (xs.filter (!·.isStr))) = none :=
        (host.reprFault_filter_not_isStr xs).trans hshow
      refine ⟨ticked key ++ py " entries must be strings; got non-string entries: " ++
        host.reprText (.list (xs.filter (!·.isStr))), ?_, ?_⟩
      · simp only [validateStringList, hne, Bool.false_eq_true, if_false,
          host.repr_of_printable hprint, ok_bind]
      · exact List.prefix_append_of_prefix
          ((List.prefix_append_right_inj _).mpr (by decide))
  | _ =>
      exact ⟨_, rfl, List.prefix_append_of_prefix
        ((List.prefix_append_right_inj _).mpr (by decide))⟩

/-- A refused value that cannot be rendered raises out of the validator. -/
theorem validateStringList_of_unprintable (host : ConfigHost) {v : PyVal} (key : PyStr)
    (hshow : host.reprFault (shownList v) ≠ none) :
    ∃ e, validateStringList host v key = .error (.uncaught e) := by
  cases v with
  | list xs =>
      obtain ⟨e, he⟩ := Option.ne_none_iff_exists'.mp hshow
      have hprint : host.reprFault (.list (xs.filter (!·.isStr))) = some e :=
        (host.reprFault_filter_not_isStr xs).trans he
      have hne : (xs.filter (!·.isStr)).isEmpty = false := by
        rw [List.isEmpty_eq_false_iff]
        intro hnil
        rw [hnil] at hprint
        cases hprint
      refine ⟨e, ?_⟩
      simp only [validateStringList, hne, Bool.false_eq_true, if_false,
        host.repr_of_unprintable hprint]
      rfl
  | _ => exact absurd rfl hshow

/-- `resolveDropChannels` on a valid value: `none` for all channels. -/
def dropScope (zerohopSet : List PyStr) : PyVal → Option (List PyStr)
  | .none => none
  | .str _ => some zerohopSet
  | .list xs => if xs.isEmpty then none else some (nameSet (.list xs))
  | _ => none

theorem resolveDropChannels_of_valid {v : PyVal} (zs : List PyStr)
    (h : InDomain host .dropChannels v) :
    resolveDropChannels host v zs = .ok (dropScope zs v) := by
  rcases h with rfl | rfl | ⟨names, rfl⟩
  · rfl
  · simp [resolveDropChannels, dropScope]
  · cases names with
    | nil => rfl
    | cons n names =>
        have h := validateStringList_of_accepted host
          (v := .list ((n :: names).map .str)) (py "drop_channels")
          (Or.inr ⟨n :: names, rfl⟩)
        simp only [resolveDropChannels, h]
        rfl

theorem resolveDropChannels_of_refused (host : ConfigHost) {v : PyVal} (zs : List PyStr)
    (h : ¬ InDomain host .dropChannels v) (hshow : host.reprFault (shownList v) = none) :
    ∃ text, resolveDropChannels host v zs = .error (.config (.badValue text)) ∧
      (ticked (py "drop_channels") ++ py " ") <+: text := by
  have hexpected : ∀ tail, (ticked (py "drop_channels") ++ py " ") <+:
      (ticked (py "drop_channels") ++ py " must be a list, null, or the literal string 'zerohop_channels'; got ") ++ tail := by
    intro tail
    exact List.prefix_append_of_prefix
      ((List.prefix_append_right_inj _).mpr (by decide))
  cases v with
  | none => exact absurd (Or.inl rfl) h
  | str s =>
      have hs : s ≠ inheritZerohopChannels := by
        rintro rfl
        exact h (Or.inr (Or.inl rfl))
      refine ⟨_, ?_, hexpected (host.reprText (.str s))⟩
      simp only [resolveDropChannels, if_neg hs,
        host.repr_of_printable (host.reprFault_str s), ok_bind]
  | list xs =>
      have hne : xs.isEmpty = false := by
        rw [List.isEmpty_eq_false_iff]
        rintro rfl
        exact h (Or.inr (Or.inr ⟨[], rfl⟩))
      have hlist : ¬ IsStringList (.list xs) := by
        rintro (h' | h')
        · cases h'
        · exact h (Or.inr (Or.inr h'))
      obtain ⟨text, htext, habout⟩ :=
        validateStringList_of_refused host (py "drop_channels") hlist hshow
      refine ⟨text, ?_, habout⟩
      simp only [resolveDropChannels, hne, Bool.false_eq_true, if_false, htext]
      rfl
  | _ => exact ⟨_, rfl, hexpected _⟩

theorem resolveDropChannels_of_unprintable (host : ConfigHost) {v : PyVal} (zs : List PyStr)
    (hshow : host.reprFault (shownList v) ≠ none) :
    ∃ e, resolveDropChannels host v zs = .error (.uncaught e) := by
  cases v with
  | list xs =>
      have hne : xs.isEmpty = false := by
        rw [List.isEmpty_eq_false_iff]
        rintro rfl
        exact absurd rfl hshow
      obtain ⟨e, he⟩ := validateStringList_of_unprintable host
        (py "drop_channels") hshow
      refine ⟨e, ?_⟩
      simp only [resolveDropChannels, hne, Bool.false_eq_true, if_false, he]
      rfl
  | _ => exact absurd rfl hshow

/-! ### The `try` blocks -/

/-- A refused key in a `try` block: the `ConfigError` becomes the entry, and an
exception of another class ends the validation. -/
private theorem checks_of_refusal {α : Type} {Keeps : Config × List PyStr → Prop}
    {config : Config} {errors : List PyStr} {key : ConfigKey}
    {x : Except ConfigFailure α} {r : Except ConfigFailure (Config × List PyStr)}
    (hkeep : ∀ errors, Keeps (config, errors)) (hbad : ¬ ValidKey host user key)
    (hrefuse : ShowableKey host user key →
      ∃ text, x = .error (.config (.badValue text)) ∧
        (ticked key.name ++ py " ") <+: text)
    (hraise : ¬ ShowableKey host user key → ∃ e, x = .error (.uncaught e))
    (hr : ∀ failure, x = .error failure →
      r = appendConfigError config errors failure) :
    Checks (vocabulary host user) Prod.snd Keeps key errors r where
  good h := absurd hbad h
  bad _ hshow := by
    obtain ⟨text, hx, habout⟩ := hrefuse hshow
    exact ⟨(config, errors ++ [text]), [text], hr _ hx, hkeep _, rfl,
      List.cons_ne_nil _ _, fun e he => (List.mem_singleton.mp he) ▸ Or.inl habout⟩
  stuck _ hshow := by
    obtain ⟨e, hx⟩ := hraise hshow
    exact ⟨_, ⟨e, rfl⟩, hr _ hx⟩

private theorem unprintable_of_not_showable {key : ConfigKey}
    (hkey : shownValue host key ((overlay user).value key) =
      shownList ((overlay user).value key)) (h : ¬ ShowableKey host user key) :
    host.reprFault (shownList ((overlay user).value key)) ≠ none := by
  rwa [ShowableKey, hkey] at h

variable (host user)

/-- The lookup sets that accepted channel keys leave in the configuration. -/
def ChannelSets (config : Config) : Prop :=
  ValidKey host user .zerohopChannels → ValidKey host user .dropChannels →
    config.get? (py "_zerohop_channels_set") =
        some (.strSet (nameSet ((overlay user).value .zerohopChannels))) ∧
      config.get? (py "_drop_channels_set") =
        some (scopeVal (dropScope (nameSet ((overlay user).value .zerohopChannels))
          ((overlay user).value .dropChannels)))

/-- The lookup set that an accepted `drop_portnums` leaves. -/
def PortnumSet (config : Config) : Prop :=
  ValidKey host user .dropPortnums →
    config.get? (py "_drop_portnums_set") =
      some (.strSet (nameSet ((overlay user).value .dropPortnums)))

variable {host user}

theorem ChannelSets.of_get?_eq {config config' : Config}
    (h : ChannelSets host user config)
    (hz : config'.get? (py "_zerohop_channels_set") =
      config.get? (py "_zerohop_channels_set"))
    (hd : config'.get? (py "_drop_channels_set") =
      config.get? (py "_drop_channels_set")) :
    ChannelSets host user config' := by
  intro hzerohop hdrop
  rw [hz, hd]
  exact h hzerohop hdrop

/-- With a refused `zerohop_channels`, the channel block reports that key and
never looks at `drop_channels`. -/
theorem checkChannels_checks_zerohop {config : Config} {written : List PyStr}
    (errors : List PyStr) (hun : Untouched user written config)
    (hget : config.getItem (py "zerohop_channels") =
      .ok ((overlay user).value .zerohopChannels))
    (hbad : ¬ ValidKey host user .zerohopChannels) :
    Checks (vocabulary host user) Prod.snd
      (fun r => Untouched user
          (py "_drop_channels_set" :: py "_zerohop_channels_set" :: written) r.1 ∧
        ChannelSets host user r.1)
      .zerohopChannels errors (checkChannels host config errors) := by
  refine checks_of_refusal
    (fun _ => ⟨(hun.cons _).cons _, fun hzerohop => absurd hzerohop hbad⟩) hbad
    (x := validateStringList host ((overlay user).value .zerohopChannels)
      (py "zerohop_channels"))
    (fun hshow => validateStringList_of_refused host _ hbad hshow)
    (fun h => validateStringList_of_unprintable host _ (unprintable_of_not_showable rfl h))
    fun failure hx => ?_
  simp only [checkChannels, hget, orRaise, ok_bind, hx]

/-- With both channel keys accepted, the channel block derives their sets. -/
theorem checkChannels_of_valid {config : Config} (errors : List PyStr)
    (hget : config.getItem (py "zerohop_channels") =
      .ok ((overlay user).value .zerohopChannels))
    (hgetDrop : config.getItem (py "drop_channels") =
      .ok ((overlay user).value .dropChannels))
    (hzerohop : ValidKey host user .zerohopChannels)
    (hdrop : ValidKey host user .dropChannels) :
    checkChannels host config errors =
      .ok ((config.set (py "_zerohop_channels_set")
        (.strSet (nameSet ((overlay user).value .zerohopChannels)))).set
          (py "_drop_channels_set")
          (scopeVal (dropScope (nameSet ((overlay user).value .zerohopChannels))
            ((overlay user).value .dropChannels))), errors) := by
  have hgetDrop' : Config.getItem (config.set (py "_zerohop_channels_set")
      (.strSet (nameSet ((overlay user).value .zerohopChannels)))) (py "drop_channels") =
        .ok ((overlay user).value .dropChannels) := by
    rw [← hgetDrop, Config.getItem, Config.getItem,
      OrderedDict.get?_set_ne _ _ (by simp)]
  simp only [checkChannels, hget, orRaise, ok_bind, hgetDrop',
    validateStringList_of_accepted host (py "zerohop_channels") hzerohop,
    resolveDropChannels_of_valid _ hdrop]
  rfl

/-- With an accepted `zerohop_channels`, the channel block reports
`drop_channels`. -/
theorem checkChannels_checks_drop {config : Config} {written : List PyStr}
    (errors : List PyStr) (hun : Untouched user written config)
    (hget : config.getItem (py "zerohop_channels") =
      .ok ((overlay user).value .zerohopChannels))
    (hgetDrop : config.getItem (py "drop_channels") =
      .ok ((overlay user).value .dropChannels))
    (hgood : ValidKey host user .zerohopChannels) :
    Checks (vocabulary host user) Prod.snd
      (fun r => Untouched user
          (py "_drop_channels_set" :: py "_zerohop_channels_set" :: written) r.1 ∧
        ChannelSets host user r.1)
      .dropChannels errors (checkChannels host config errors) := by
  have hzs := validateStringList_of_accepted host
    (py "zerohop_channels") hgood
  have hdrop : Config.getItem (config.set (py "_zerohop_channels_set")
      (.strSet (nameSet ((overlay user).value .zerohopChannels)))) (py "drop_channels") =
        .ok ((overlay user).value .dropChannels) := by
    rw [← hgetDrop, Config.getItem, Config.getItem,
      OrderedDict.get?_set_ne _ _ (by simp)]
  have hun' := hun.set (py "_zerohop_channels_set")
    (.strSet (nameSet ((overlay user).value .zerohopChannels)))
  by_cases hvalid : ValidKey host user .dropChannels
  · refine ⟨fun _ => ⟨_, checkChannels_of_valid errors hget hgetDrop hgood hvalid,
        ⟨hun'.set _ _, fun _ _ => ⟨?_, OrderedDict.get?_set_self _ _ _⟩⟩, rfl⟩,
      fun h => absurd hvalid h, fun h => absurd hvalid h⟩
    rw [OrderedDict.get?_set_ne _ _ (by simp), OrderedDict.get?_set_self]
  · refine checks_of_refusal
      (fun _ => ⟨hun'.cons _, fun _ h => absurd h hvalid⟩) hvalid
      (x := resolveDropChannels host ((overlay user).value .dropChannels)
        (nameSet ((overlay user).value .zerohopChannels)))
      (fun hshow => resolveDropChannels_of_refused host _ hvalid hshow)
      (fun h => resolveDropChannels_of_unprintable host _ (unprintable_of_not_showable rfl h))
      fun failure hx => ?_
    simp only [checkChannels, hget, orRaise, ok_bind, hzs, hdrop, hx]
    rfl

/-- No entry is added when every name is known. -/
theorem checkPortnumNames_of_known {names : List PyStr} (errors : List PyStr)
    (h : ∀ name ∈ names, KnownPortnum host name) :
    checkPortnumNames host names errors = errors := by
  unfold checkPortnumNames
  split
  · rfl
  · next known hknown =>
    have hnil : names.filter (!known.contains ·) = [] := by
      rw [List.filter_eq_nil_iff]
      intro name hname
      simpa using h name hname known hknown
    rw [hnil]
    simp [sortedNames]

/-- An unknown name adds entries, all of them about `drop_portnums`. -/
theorem checkPortnumNames_of_unknown {names : List PyStr} (errors : List PyStr)
    (h : ¬ ∀ name ∈ names, KnownPortnum host name) :
    ∃ es, checkPortnumNames host names errors = errors ++ es ∧ es ≠ [] ∧
      ∀ e ∈ es, EntryFor .dropPortnums e := by
  simp only [KnownPortnum, not_forall] at h
  obtain ⟨name, hname, known, hknown, hout⟩ := h
  simp only [checkPortnumNames, hknown]
  refine ⟨_, rfl, ?_, ?_⟩
  · intro hnil
    have hsorted : sortedNames (names.filter (!known.contains ·)) = [] :=
      List.map_eq_nil_iff.mp hnil
    have hmem : name ∈ sortedNames (names.filter (!known.contains ·)) :=
      List.mem_mergeSort.mpr (List.mem_filter.mpr ⟨hname, by simpa using hout⟩)
    rw [hsorted] at hmem
    exact absurd hmem (List.not_mem_nil)
  · intro e he
    obtain ⟨n, _, rfl⟩ := List.mem_map.mp he
    rw [List.append_assoc, List.append_assoc]
    exact entryFor_text .dropPortnums (py " entry ") _ (by decide)

/-- A list of strings is a good `drop_portnums` when its names are known. -/
theorem validKey_dropPortnums_iff (hlist : IsStringList ((overlay user).value .dropPortnums)) :
    ValidKey host user .dropPortnums ↔
      ∀ name ∈ nameSet ((overlay user).value .dropPortnums), KnownPortnum host name := by
  rcases hlist with hnone | ⟨names, hnames⟩
  · simp [ValidKey, InDomain, hnone, nameSet]
  · simp only [ValidKey, InDomain, hnames, mem_nameSet_map]
    constructor
    · rintro (h | ⟨names', h, hall⟩)
      · cases h
      · rwa [strList_injective h]
    · exact fun hall => Or.inr ⟨names, rfl, hall⟩

/-- The entries about a list of strings render no value of it with `repr`. -/
theorem showableKey_dropPortnums
    (hlist : IsStringList ((overlay user).value .dropPortnums)) :
    ShowableKey host user .dropPortnums := by
  rcases hlist with hnone | ⟨names, hnames⟩
  · rw [ShowableKey, shownValue, hnone]
    rfl
  · rw [ShowableKey, shownValue, hnames, shownList, ← host.reprFault_filter_not_isStr,
      (filter_not_isStr_eq_nil_iff _).mpr ⟨names, rfl⟩]
    rfl

/-- The portnum block derives the set of a list of strings, and checks its names. -/
theorem checkPortnums_of_list {config : Config} (errors : List PyStr)
    (hget : config.getItem (py "drop_portnums") =
      .ok ((overlay user).value .dropPortnums))
    (hlist : IsStringList ((overlay user).value .dropPortnums)) :
    checkPortnums host config errors =
      .ok (config.set (py "_drop_portnums_set")
        (.strSet (nameSet ((overlay user).value .dropPortnums))),
        checkPortnumNames host (nameSet ((overlay user).value .dropPortnums)) errors) := by
  simp only [checkPortnums, hget, orRaise, ok_bind,
    validateStringList_of_accepted host (py "drop_portnums") hlist]
  rfl

/-- The portnum block meets the reporting specification. -/
theorem checkPortnums_checks {config : Config} {written : List PyStr}
    (errors : List PyStr) (hun : Untouched user written config)
    (hsets : ChannelSets host user config)
    (hget : config.getItem (py "drop_portnums") =
      .ok ((overlay user).value .dropPortnums)) :
    Checks (vocabulary host user) Prod.snd
      (fun r => Untouched user (py "_drop_portnums_set" :: written) r.1 ∧
        ChannelSets host user r.1 ∧ PortnumSet host user r.1)
      .dropPortnums errors (checkPortnums host config errors) := by
  by_cases hlist : IsStringList ((overlay user).value .dropPortnums)
  · have hrun : checkPortnums host config errors = _ :=
      checkPortnums_of_list errors hget hlist
    have hknown : ValidKey host user .dropPortnums ↔
        ∀ name ∈ nameSet ((overlay user).value .dropPortnums), KnownPortnum host name :=
      validKey_dropPortnums_iff hlist
    have hshow : ShowableKey host user .dropPortnums := showableKey_dropPortnums hlist
    have hsets' : ChannelSets host user (config.set (py "_drop_portnums_set")
        (.strSet (nameSet ((overlay user).value .dropPortnums)))) :=
      hsets.of_get?_eq (OrderedDict.get?_set_ne config _ (by simp))
        (OrderedDict.get?_set_ne config _ (by simp))
    have hset : PortnumSet host user (config.set (py "_drop_portnums_set")
        (.strSet (nameSet ((overlay user).value .dropPortnums)))) :=
      fun _ => OrderedDict.get?_set_self config _ _
    refine ⟨fun h => ⟨_, hrun, ⟨hun.set _ _, hsets', hset⟩, ?_⟩, fun h _ => ?_,
      fun _ h => absurd hshow h⟩
    · exact checkPortnumNames_of_known errors (hknown.mp (not_not.mp h))
    · obtain ⟨es, hes, hne, habout⟩ :=
        checkPortnumNames_of_unknown errors (fun hall => h (hknown.mpr hall))
      exact ⟨_, es, hrun, ⟨hun.set _ _, hsets', hset⟩, hes, hne, habout⟩
  · have hbad : ¬ ValidKey host user .dropPortnums := by
      rintro (h | ⟨names, h, -⟩)
      · exact hlist (Or.inl h)
      · exact hlist (Or.inr ⟨names, h⟩)
    refine checks_of_refusal
      (fun _ => ⟨hun.cons _, hsets, fun h => absurd h hbad⟩) hbad
      (x := validateStringList host ((overlay user).value .dropPortnums)
        (py "drop_portnums"))
      (fun hshow => validateStringList_of_refused host _ hlist hshow)
      (fun h => validateStringList_of_unprintable host _ (unprintable_of_not_showable rfl h))
      fun failure hx => ?_
    simp only [checkPortnums, hget, orRaise, ok_bind, hx]

/-! ### A whole run -/

variable (host user)

/-- The keys that a run looks at: all, but `drop_channels` only when
`zerohop_channels` was accepted. -/
def LooksAt (key : ConfigKey) : Prop :=
  key = .dropChannels → ValidKey host user .zerohopChannels

/-- Every bad value that the run looks at can be rendered. -/
def AllShowable : Prop :=
  ∀ key, LooksAt host user key → ¬ ValidKey host user key → ShowableKey host user key

/-- The keys that a run may write. -/
abbrev writtenKeys : List PyStr :=
  [py "_drop_portnums_set", py "_drop_channels_set", py "_zerohop_channels_set",
    py "log_format", py "log_level"]

/-- What a run leaves in the configuration: the overlay's values, but for the
normalised spellings, and the lookup sets. -/
structure Resolved (config : Config) : Prop where
  untouched : Untouched user writtenKeys config
  channels : ChannelSets host user config
  portnums : PortnumSet host user config

/-- What a run of the validator answers: the entries are about the bad keys it
looks at, or a bad value could not be rendered and the exception escapes. -/
structure RunReports (r : Except ConfigFailure (Config × List PyStr)) : Prop where
  reported : AllShowable host user → ∃ config errors, r = .ok (config, errors) ∧
    Resolved host user config ∧
    ∀ key, (∃ e ∈ errors, EntryFor key e) ↔
      LooksAt host user key ∧ ¬ ValidKey host user key
  escaped : ¬ AllShowable host user → ∃ e, r = .error (.uncaught e)

variable {host user}

/-- The end of a run: the checked keys are the ones it looks at. -/
private theorem RunReports.of_reported {done : List ConfigKey} {config : Config}
    {errors : List PyStr} (hconfig : Resolved host user config)
    (h : Reported (vocabulary host user) done errors)
    (hdone : ∀ key, key ∈ done ↔ LooksAt host user key) :
    RunReports host user (.ok (config, errors)) where
  reported _ := ⟨config, errors, rfl, hconfig, fun key => by
    rw [← hdone key]
    exact h.entries key⟩
  escaped hnot := absurd (fun key hlook => h.shown key ((hdone key).mpr hlook)) hnot

/-- A raise ends the run when the key was one to look at. -/
private theorem RunReports.of_stuck {key : ConfigKey} (hlook : LooksAt host user key)
    (hbad : ¬ ValidKey host user key) (hshow : ¬ ShowableKey host user key)
    (exc : ConfigFailure) (hexc : (vocabulary host user).Raised exc) :
    RunReports host user (.error exc) where
  reported hall := absurd (hall key hlook hbad) hshow
  escaped _ := hexc.imp fun _ he => congrArg _ he

private theorem looksAt_of_ne {key : ConfigKey} (h : key ≠ .dropChannels) :
    LooksAt host user key := fun e => absurd e h

/-- The check of a key that every run looks at, in front of the rest of a run. -/
private theorem RunReports.of_checks {ρ : Type} {entries : ρ → List PyStr} {Keeps : ρ → Prop}
    {key : ConfigKey} {done : List ConfigKey} {errors : List PyStr}
    {r : Except ConfigFailure ρ} {rest : ρ → Except ConfigFailure (Config × List PyStr)}
    (hr : Checks (vocabulary host user) entries Keeps key errors r)
    (hkey : key ≠ .dropChannels) (h : Reported (vocabulary host user) done errors)
    (hrest : ∀ a, Keeps a → Reported (vocabulary host user) (key :: done) (entries a) →
      RunReports host user (rest a)) :
    RunReports host user (r >>= rest) :=
  hr.bind h (RunReports.of_stuck (looksAt_of_ne hkey)) hrest

/-- The last block of a run, behind the checks of the other keys. -/
private theorem RunReports.of_checkPortnums {config : Config} {errors : List PyStr}
    {done : List ConfigKey}
    (hun : Untouched user
      [py "_drop_channels_set", py "_zerohop_channels_set", py "log_format", py "log_level"]
      config)
    (hsets : ChannelSets host user config)
    (h : Reported (vocabulary host user) done errors)
    (hdone : ∀ key, key ∈ .dropPortnums :: done ↔ LooksAt host user key) :
    RunReports host user (checkPortnums host config errors) := by
  have hget := hun.getItem .dropPortnums (by simp [ConfigKey.name])
  rw [← bind_pure (checkPortnums host config errors)]
  refine RunReports.of_checks (checkPortnums_checks errors hun hsets hget) (by decide) h ?_
  rintro ⟨config, errors⟩ ⟨hun, hsets, hset⟩ h
  exact RunReports.of_reported ⟨hun, hsets, hset⟩ h hdone

/-- A key that is not looked at stands behind a refused one. -/
theorem validKey_of_looksAt
    (h : ∀ key, LooksAt host user key → ValidKey host user key) (key : ConfigKey) :
    ValidKey host user key :=
  h key fun _ => h .zerohopChannels (looksAt_of_ne (by decide))

/-- `_validate_values` reports the bad keys it looks at. -/
theorem validateValues_reports (host : ConfigHost) (user : List (PyStr × PyVal)) :
    RunReports host user (validateValues host (overlay user) []) := by
  have h0 := Untouched.overlay user
  simp only [validateValues, List.foldlM_cons, List.foldlM_nil, bind_assoc, pure_bind]
  refine RunReports.of_checks (checkBool_checks .zerohopEnabled [] (h0.getItem _ (by simp))
    (fun _ => Iff.rfl) (fun _ => rfl)) (by decide) (Reported.nil _) fun errors _ h => ?_
  refine RunReports.of_checks (checkBool_checks .dropEnabled errors (h0.getItem _ (by simp))
    (fun _ => Iff.rfl) (fun _ => rfl)) (by decide) h fun errors _ h => ?_
  refine RunReports.of_checks (checkBool_checks .statsLog errors (h0.getItem _ (by simp))
    (fun _ => Iff.rfl) (fun _ => rfl)) (by decide) h fun errors _ h => ?_
  refine RunReports.of_checks
    (checkInt_checks .grpcPort errors 1 (some 65535) (h0.getItem _ (by simp))
      (fun v => (inDomain_port_iff v).symm) (fun _ => rfl)) (by decide) h fun errors _ h => ?_
  refine RunReports.of_checks
    (checkInt_checks .healthPort errors 1 (some 65535) (h0.getItem _ (by simp))
      (fun v => (inDomain_port_iff v).symm) (fun _ => rfl)) (by decide) h fun errors _ h => ?_
  refine RunReports.of_checks
    (checkInt_checks .grpcMaxWorkers errors 1 none (h0.getItem _ (by simp))
      (fun v => (inDomain_count_iff v).symm) (fun _ => rfl)) (by decide) h fun errors _ h => ?_
  refine RunReports.of_checks
    (checkInt_checks .statsIntervalS errors 1 none (h0.getItem _ (by simp))
      (fun v => (inDomain_count_iff v).symm) (fun _ => rfl)) (by decide) h fun errors _ h => ?_
  refine RunReports.of_checks (checkLogLevel_checks errors h0 (h0.getItem .logLevel (by simp)))
    (by decide) h ?_
  rintro ⟨config, errors⟩ hun h
  refine RunReports.of_checks
    (checkLogFormat_checks errors hun (hun.getItem .logFormat (by simp [ConfigKey.name])))
    (by decide) h ?_
  rintro ⟨config, errors⟩ hun h
  refine RunReports.of_checks
    (checkTopicFilter_checks errors (hun.getItem .topicFilter (by simp [ConfigKey.name])))
    (by decide) h fun errors _ h => ?_
  have hzc := hun.getItem .zerohopChannels (by simp [ConfigKey.name])
  have hdc := hun.getItem .dropChannels (by simp [ConfigKey.name])
  -- `drop_channels` is looked at only behind an accepted `zerohop_channels`
  by_cases hzerohop : ValidKey host user .zerohopChannels
  · refine (checkChannels_checks_drop errors hun hzc hdc hzerohop).bind
      (h.cons_good (not_not.mpr hzerohop)) (RunReports.of_stuck fun _ => hzerohop) ?_
    rintro ⟨config, errors⟩ ⟨hun, hsets⟩ h
    refine RunReports.of_checkPortnums hun hsets h fun key => ?_
    cases key <;> simp [LooksAt, hzerohop]
  · refine RunReports.of_checks (checkChannels_checks_zerohop errors hun hzc hzerohop)
      (by decide) h ?_
    rintro ⟨config, errors⟩ ⟨hun, hsets⟩ h
    refine RunReports.of_checkPortnums hun hsets h fun key => ?_
    cases key <;> simp [LooksAt, hzerohop]

end Checks

/-- A load that comes to its end with problems raises them. -/
theorem concludeLoad_of_errors (host : ConfigHost) (source : PyStr) (config : Config)
    {errors : List PyStr} (h : errors ≠ []) :
    concludeLoad host source config errors =
      .error (.config (.invalidValues source errors)) := by
  rw [concludeLoad, if_neg (by simpa using h)]

/-- A load that comes to its end without problems returns the configuration, or
lets an exception of another class through. -/
theorem concludeLoad_nil (host : ConfigHost) (source : PyStr) (config : Config) :
    concludeLoad host source config [] = .ok config ∨
      ∃ e, concludeLoad host source config [] = .error (.uncaught e) := by
  simp only [concludeLoad, List.isEmpty_nil, if_true]
  cases hget : config.getItem (py "log_level") with
  | error e => exact Or.inr ⟨e, rfl⟩
  | ok level =>
      cases hset : setLevel host level with
      | error e => exact Or.inr ⟨e, by rw [orRaise, ok_bind, hset]; rfl⟩
      | ok u => exact Or.inl (by rw [orRaise, ok_bind, hset]; rfl)

/-- A load that returns has accepted every key, and returns the resolved
configuration. -/
theorem loadConfig_accepted {host : ConfigHost} {configPath : Option PyStr}
    {user : List (PyStr × PyVal)} {source : PyStr} {config : Config}
    (hread : readUserConfig host configPath = .ok (user, source))
    (hload : loadConfig host configPath = .ok config) :
    (∀ key, ValidKey host user key) ∧ Resolved host user config := by
  have hrun := validateValues_reports host user
  rw [loadConfig, hread] at hload
  by_cases hall : AllShowable host user
  · obtain ⟨config', errors, hok, hresolved, hentries⟩ := hrun.reported hall
    simp only [ok_bind, hok] at hload
    cases errors with
    | cons e errors =>
        rw [concludeLoad_of_errors host source config' (List.cons_ne_nil e errors)] at hload
        cases hload
    | nil =>
        have heq : config' = config := by
          rcases concludeLoad_nil host source config' with h | ⟨e, h⟩
          · exact Except.ok.inj (h.symm.trans hload)
          · rw [h] at hload
            cases hload
        have hvalid : ∀ key, LooksAt host user key → ValidKey host user key := by
          intro key hlook
          by_contra hbad
          obtain ⟨e, he, -⟩ := (hentries key).mpr ⟨hlook, hbad⟩
          exact List.not_mem_nil he
        exact ⟨validKey_of_looksAt hvalid, heq ▸ hresolved⟩
  · obtain ⟨e, he⟩ := hrun.escaped hall
    simp only [ok_bind, he] at hload
    cases hload

/-- The `ConfigError` of a load has an entry for every bad key and for no good
one, exactly when not both channel keys are bad and every bad value can be
rendered. -/
theorem loadConfig_reports_every_bad_key_iff {host : ConfigHost}
    {configPath : Option PyStr} {user : List (PyStr × PyVal)} {source : PyStr}
    (hread : readUserConfig host configPath = .ok (user, source))
    (hbad : ∃ key, ¬ ValidKey host user key) :
    (∃ errors, loadConfig host configPath =
        .error (.config (.invalidValues source errors)) ∧
      ∀ key, (∃ e ∈ errors, EntryFor key e) ↔ ¬ ValidKey host user key) ↔
    (ValidKey host user .zerohopChannels ∨ ValidKey host user .dropChannels) ∧
      ∀ key, ¬ ValidKey host user key → ShowableKey host user key := by
  have hload : loadConfig host configPath =
      validateValues host (overlay user) [] >>= fun r =>
        concludeLoad host source r.1 r.2 := by
    rw [loadConfig, hread]
    rfl
  have hrun := validateValues_reports host user
  constructor
  · rintro ⟨errors, herr, hiff⟩
    have hall : AllShowable host user := by
      by_contra hnot
      obtain ⟨exc, hexc⟩ := hrun.escaped hnot
      rw [hload, hexc] at herr
      cases herr
    obtain ⟨config, errors', hok, -, hentries⟩ := hrun.reported hall
    have heq : errors' = errors := by
      rw [hload, hok, ok_bind] at herr
      by_cases hnil : errors' = []
      · subst hnil
        rcases concludeLoad_nil host source config with h | ⟨e, h⟩ <;> rw [h] at herr <;>
          cases herr
      · rw [concludeLoad_of_errors host source config hnil] at herr
        cases herr
        rfl
    subst heq
    have hlook : ∀ key, ¬ ValidKey host user key → LooksAt host user key :=
      fun key hkey => ((hentries key).mp ((hiff key).mpr hkey)).1
    refine ⟨?_, fun key hkey => hall key (hlook key hkey) hkey⟩
    by_cases hdrop : ValidKey host user .dropChannels
    · exact Or.inr hdrop
    · exact Or.inl (hlook .dropChannels hdrop rfl)
  · rintro ⟨hone, hshow⟩
    obtain ⟨config, errors, hok, -, hentries⟩ :=
      hrun.reported fun key _ hkey => hshow key hkey
    have hiff : ∀ key, (∃ e ∈ errors, EntryFor key e) ↔ ¬ ValidKey host user key := by
      intro key
      rw [hentries key, and_iff_right_iff_imp]
      rintro hkey rfl
      exact hone.resolve_right hkey
    have hne : errors ≠ [] := by
      obtain ⟨key, hkey⟩ := hbad
      obtain ⟨e, he, -⟩ := (hiff key).mpr hkey
      exact List.ne_nil_of_mem he
    refine ⟨errors, ?_, hiff⟩
    rw [hload, hok, ok_bind]
    exact concludeLoad_of_errors host source config hne

/-- A drop scope, a port, a level and a filter that are bad, all at once: each of them is
reported, and nothing else is. -/
theorem loadConfig_reports_bad_keys :
    let user := [(py "zerohop_channels", PyVal.list [.str (py "LongFast")]),
      (py "drop_channels", .int 5), (py "grpc_port", .int 0),
      (py "log_level", .str (py "LOUD")), (py "topic_filter", .list [])]
    let host := ConfigHost.ofMapping user
    (∀ key ∈ [ConfigKey.dropChannels, .grpcPort, .logLevel, .topicFilter],
        ¬ ValidKey host user key) ∧
      ∃ errors, loadConfig host (some (py "config.yaml")) =
          .error (.config (.invalidValues (py "config.yaml") errors)) ∧
        ∀ key, (∃ e ∈ errors, EntryFor key e) ↔ ¬ ValidKey host user key := by
  intro user host
  have hbad : ∀ key ∈ [ConfigKey.dropChannels, .grpcPort, .logLevel, .topicFilter],
      ¬ ValidKey host user key := by
    simp only [List.forall_mem_cons]
    refine ⟨?_, ?_, ?_, ?_, by simp⟩
    · rintro (h | h | ⟨names, h⟩) <;> cases h
    · rintro ⟨n, h, hpos, -⟩
      cases h
      exact absurd hpos (by decide)
    · rintro ⟨s, h, hlevel⟩
      cases h
      exact absurd hlevel (by decide)
    · rintro ⟨s, h, -⟩
      cases h
  refine ⟨hbad, (loadConfig_reports_every_bad_key_iff
    (readUserConfig_ofMapping (by decide) (by decide)) ⟨.grpcPort, hbad _ (by decide)⟩).mpr
    ⟨Or.inl (Or.inr ⟨[py "LongFast"], ?_⟩), fun key _ => ?_⟩⟩
  · rfl
  · cases key <;> decide +kernel

/-- The source and the entries of a `ConfigError` about values. -/
def valueErrors : Except ConfigFailure Config → Option (PyStr × List PyStr)
  | .error (.config (.invalidValues source errors)) => some (source, errors)
  | _ => none

theorem valueErrors_eq_some {r : Except ConfigFailure Config} {source : PyStr}
    {errors : List PyStr} (h : valueErrors r = some (source, errors)) :
    r = .error (.config (.invalidValues source errors)) := by
  unfold valueErrors at h
  split at h
  · cases h
    rfl
  · cases h

/-- Two bad channel keys: the `ConfigError` has no entry for `drop_channels`. -/
theorem loadConfig_misses_drop_channels :
    let user := [(py "zerohop_channels", PyVal.int 5), (py "drop_channels", PyVal.int 6)]
    let host := ConfigHost.ofMapping user
    readUserConfig host (some (py "config.yaml")) = .ok (user, py "config.yaml") ∧
      ¬ ValidKey host user .dropChannels ∧
      ∃ errors, loadConfig host (some (py "config.yaml")) =
          .error (.config (.invalidValues (py "config.yaml") errors)) ∧
        ¬ ∃ e ∈ errors, EntryFor .dropChannels e := by
  refine ⟨readUserConfig_ofMapping (by decide) (by decide), ?_,
    [py "`zerohop_channels` must be a list of strings; got int"],
    valueErrors_eq_some (by decide +kernel), ?_⟩
  · rintro (h | h | ⟨names, h⟩) <;> cases h
  · rintro ⟨e, he, habout⟩
    rw [List.mem_singleton] at he
    have hzerohop : EntryFor .zerohopChannels e :=
      he ▸ Or.inl (by decide)
    exact absurd (EntryFor.functional habout hzerohop) (by decide)

end Floodgate.Ports
