import Floodgate.Ports.Policy

/-!
# Which configuration files are accepted

A file is accepted exactly when its YAML value is null or a mapping with the
documented keys, and the values of the overlay lie in their domains.  What an
accepted file is turned into has the keys of `DEFAULT_CONFIG` and the three
lookup sets, and differs from the overlay in the spelling of `log_level` and
`log_format` only.

The server start reads that result without further checks: it joins the raw
lists into log lines.  `_log_startup_policy` is modelled on every
configuration, and shown not to raise on an accepted one.

## Main results

* `readUserConfig_eq_ok_iff`: the files whose keys are accepted.
* `validateValues_of_valid`: what valid values are turned into.
* `loadConfig_accepts_iff`: the files that are accepted, and their result.
-/

namespace Floodgate.Ports

open Floodgate.Verified

/-! ## The startup lines -/

/-- The levels of the startup lines. -/
inductive LogLevel where
  | info | warning
  deriving DecidableEq, Repr

/-- A call of the logger: the message with its placeholders, and the arguments. -/
structure LogLine where
  level : LogLevel
  msg : PyStr
  args : List PyVal

/-- The conversion letters of the placeholders in a message. -/
def conversions : PyStr → List PyChar
  | c :: d :: cs => if c = ch '%' then d :: conversions cs else conversions (d :: cs)
  | _ => []

/-- `%d` takes an integer, `%s` any value. -/
def Converts (conversion : PyChar) (arg : PyVal) : Prop :=
  conversion = ch 's' ∨ (conversion = ch 'd' ∧ ∃ n, arg = .int n)

/-- The arguments fit the placeholders. -/
def LogLine.Renders (line : LogLine) : Prop :=
  List.Forall₂ Converts (conversions line.msg) line.args

/-- The items that `str.join` accepts, from the one at index `i`. -/
def joinItems : Nat → List PyVal → Except PyErr (List PyStr)
  | _, [] => .ok []
  | i, v :: vs =>
      match v.asStr with
      | some s => (s :: ·) <$> joinItems (i + 1) vs
      | none => .error ⟨.typeError, py "sequence item " ++ intText i ++
          py ": expected str instance, " ++ v.typeName ++ py " found"⟩

/-- `", ".join(value)`. -/
def joinValue (value : PyVal) : Except PyErr PyStr :=
  PyStr.join (py ", ") <$> match value with
    | .list xs | .tuple xs | .set xs => joinItems 0 xs
    | .dict es => joinItems 0 (es.map Prod.fst)
    | .str s => .ok (s.map fun c => [c])
    | .bytes b => joinItems 0 (b.map fun x => .int x.toNat)
    | _ => .error ⟨.typeError, py "can only join an iterable"⟩

/-- `config.get(key, []) or []`. -/
def Config.getOrEmpty (config : Config) (key : PyStr) : PyVal :=
  let value := (config.get? key).getD (.list [])
  if value.truthy then value else .list []

/-- The zero-hop line of `_log_startup_policy`. -/
def zerohopLine (config : Config) : Except PyErr LogLine :=
  if config.getTruthy (py "zerohop_enabled") true then
    let channels := config.getOrEmpty (py "zerohop_channels")
    if channels.truthy then do
      let names ← joinValue channels
      return ⟨.info, py "Zerohop ENABLED — zero-hopping packets on: %s", [.str names]⟩
    else return ⟨.info,
      py "Zerohop ENABLED — `zerohop_channels` is empty, no channels will be zero-hopped", []⟩
  else return ⟨.info, py "Zerohop DISABLED — packets will not be zero-hopped", []⟩

/-- The drop line of `_log_startup_policy`. -/
def dropLine (config : Config) : Except PyErr LogLine :=
  if config.getTruthy (py "drop_enabled") false then
    let portnums := config.getOrEmpty (py "drop_portnums")
    if !portnums.truthy then return ⟨.warning,
      py "Drop ENABLED but `drop_portnums` is empty — drop is a no-op", []⟩
    else do
      let scope ← formatDropChannelScope config
      let names ← joinValue portnums
      return ⟨.info, py "Drop ENABLED — dropping portnums [%s] on %s",
        [.str names, .str scope]⟩
  else return ⟨.info, py "Drop DISABLED", []⟩

/-- `_log_startup_policy`: the lines it logs. -/
def logStartupPolicy (config : Config) : Except PyErr (List LogLine) := do
  let interval := (config.get? (py "stats_interval_s")).getD (.int 60)
  let topicFilter := (config.get? (py "topic_filter")).getD (.str (py "msh/#"))
  let zerohop ← zerohopLine config
  let drop ← dropLine config
  return [ ⟨.info, py "Topic filter: %s", [topicFilter]⟩, zerohop, drop
    , ⟨.info, py "Stats will be logged every %d seconds", [interval]⟩
    , ⟨.info, py "Per-message outcomes ([ZEROHOP]/[PASSTHRU]/[NOOP]/[DROPPED]) logged at INFO. Run with -v for verbose DEBUG.", []⟩ ]

theorem joinItems_map_str (i : Nat) (names : List PyStr) :
    joinItems i (names.map .str) = .ok names := by
  induction names generalizing i with
  | nil => rfl
  | cons name names ih =>
      rw [List.map_cons, joinItems]
      simp only [PyVal.asStr, ih]
      rfl

/-- A list of strings is joined, once it is not empty. -/
theorem joinValue_of_stringList {v : PyVal} (h : IsStringList v) (hv : v.truthy = true) :
    ∃ text, joinValue v = .ok text := by
  rcases h with rfl | ⟨names, rfl⟩
  · cases hv
  · exact ⟨PyStr.join (py ", ") names, by simp only [joinValue, joinItems_map_str]; rfl⟩

theorem Config.getOrEmpty_of_stringList {config : Config} {key : PyStr} {v : PyVal}
    (hget : config.get? key = some v) (h : IsStringList v) :
    IsStringList (config.getOrEmpty key) := by
  rw [getOrEmpty, hget]
  by_cases hv : v.truthy = true
  · simpa [hv] using h
  · rw [Option.getD_some, if_neg hv]
    exact Or.inr ⟨[], rfl⟩

/-- A line with string arguments in the places of `%s`. -/
private theorem renders_strings {level : LogLevel} {msg : PyStr} (texts : List PyStr)
    (h : conversions msg = texts.map fun _ => ch 's') :
    LogLine.Renders ⟨level, msg, texts.map .str⟩ := by
  rw [LogLine.Renders, h, List.forall₂_map_left_iff, List.forall₂_map_right_iff,
    List.forall₂_same]
  exact fun _ _ => Or.inl rfl

/-- The zero-hop line is logged when the raw channels are a list of strings. -/
theorem zerohopLine_renders {config : Config} {v : PyVal}
    (hget : config.get? (py "zerohop_channels") = some v) (h : IsStringList v) :
    ∃ line, zerohopLine config = .ok line ∧ line.Renders := by
  unfold zerohopLine
  split
  · dsimp only
    split
    · next hv =>
      obtain ⟨text, htext⟩ :=
        joinValue_of_stringList (Config.getOrEmpty_of_stringList hget h) hv
      rw [htext]
      exact ⟨_, rfl, renders_strings [text] rfl⟩
    · exact ⟨_, rfl, renders_strings [] rfl⟩
  · exact ⟨_, rfl, renders_strings [] rfl⟩

/-- The drop line is logged when the raw portnums are a list of strings and the
scope has a text. -/
theorem dropLine_renders {config : Config} {v : PyVal} {scope : PyStr}
    (hget : config.get? (py "drop_portnums") = some v) (h : IsStringList v)
    (hscope : formatDropChannelScope config = .ok scope) :
    ∃ line, dropLine config = .ok line ∧ line.Renders := by
  unfold dropLine
  split
  · dsimp only
    split
    · exact ⟨_, rfl, renders_strings [] rfl⟩
    · next hv =>
      obtain ⟨text, htext⟩ := joinValue_of_stringList
        (Config.getOrEmpty_of_stringList hget h) (by simpa using hv)
      rw [hscope, htext]
      exact ⟨_, rfl, renders_strings [text, scope] rfl⟩
  · exact ⟨_, rfl, renders_strings [] rfl⟩

/-! ## Reading the user's mapping -/

/-- The file that a load is told to read, if any. -/
def namedFile (host : ConfigHost) (configPath : Option PyStr) : Option PyStr :=
  (configPath.or (host.environ (py "FLOODGATE_CONFIG"))).filter (!·.isEmpty)

/-- The load reads a file, and the YAML in it has the value `v`. -/
def ReadsFile (host : ConfigHost) (configPath : Option PyStr) (v : PyVal) : Prop :=
  ∃ p, namedFile host configPath = some p ∧ host.isFile p = true ∧
    host.safeLoad p = .ok v

/-- The key is one of `DEFAULT_CONFIG`, and not a removed one. -/
def KnownKey (key : PyStr) : Prop :=
  key ∈ Assoc.keys defaultEntries ∧ key ∉ Assoc.keys removedKeys

/-- The YAML value is null or a mapping with known string keys, and `user` are
its entries. -/
inductive UserMapping : PyVal → List (PyStr × PyVal) → Prop
  | null : UserMapping .none []
  | mapping {entries : List (PyVal × PyVal)}
      (strings : ∀ kv ∈ entries, kv.1.isStr = true)
      (known : ∀ key ∈ Assoc.keys (stringEntries entries), KnownKey key) :
      UserMapping (.dict entries) (stringEntries entries)

theorem UserMapping.known {v : PyVal} {user : List (PyStr × PyVal)}
    (h : UserMapping v user) : ∀ key ∈ Assoc.keys user, key ∈ Assoc.keys defaultEntries := by
  cases h with
  | null => simp
  | mapping _ known => exact fun key hkey => (known key hkey).1

private theorem sortedNames_isEmpty (names : List PyStr) :
    (sortedNames names).isEmpty = names.isEmpty := by
  rw [Bool.eq_iff_iff, List.isEmpty_iff_length_eq_zero, List.isEmpty_iff_length_eq_zero,
    sortedNames, List.length_mergeSort]

/-- `_reject_bad_keys` returns exactly on known keys. -/
theorem rejectBadKeys_eq_ok_iff (keys : List PyStr) (source : PyStr) :
    rejectBadKeys keys source = .ok () ↔ ∀ key ∈ keys, KnownKey key := by
  constructor
  · intro h key hkey
    simp only [rejectBadKeys] at h
    split at h
    · next hempty =>
      rw [Bool.and_eq_true, sortedNames_isEmpty, sortedNames_isEmpty, List.isEmpty_iff,
        List.isEmpty_iff, List.filter_eq_nil_iff, List.filter_eq_nil_iff] at hempty
      have hremoved := hempty.1 key (List.mem_dedup.mpr hkey)
      have hunknown := hempty.2 key (List.mem_dedup.mpr hkey)
      have hnot : key ∉ Assoc.keys removedKeys := by simpa using hremoved
      exact ⟨by simpa [hnot] using hunknown, hnot⟩
    · cases h
  · exact fun h => rejectBadKeys_of_known source fun key hkey => (h key hkey).1

theorem all_isStr_iff (entries : List (PyVal × PyVal)) :
    ((entries.map Prod.fst).filter (!·.isStr)).isEmpty = true ↔
      ∀ kv ∈ entries, kv.1.isStr = true := by
  simp [List.isEmpty_iff, List.filter_eq_nil_iff]

/-- Without a named file, the load runs on the defaults. -/
theorem readUserConfig_of_unnamed {host : ConfigHost} {configPath : Option PyStr}
    (hnamed : namedFile host configPath = none) :
    readUserConfig host configPath = .ok ([], py "built-in defaults") := by
  simp only [namedFile] at hnamed
  simp only [readUserConfig, hnamed]

/-- A named file that is not there is refused. -/
theorem readUserConfig_of_not_isFile {host : ConfigHost} {configPath : Option PyStr}
    {p : PyStr} (hnamed : namedFile host configPath = some p) (hfile : host.isFile p = false) :
    readUserConfig host configPath = .error (.config (.fileNotFound (host.pathText p))) := by
  simp only [namedFile] at hnamed
  simp only [readUserConfig, hnamed, hfile, Bool.not_false, if_true]

/-- A mapping that was read comes from the value of the named file. -/
theorem readsFile_of_ok {host : ConfigHost} {configPath : Option PyStr} {p : PyStr}
    {r : List (PyStr × PyVal) × PyStr} (hnamed : namedFile host configPath = some p)
    (hread : readUserConfig host configPath = .ok r) :
    ∃ v, host.isFile p = true ∧ host.safeLoad p = .ok v := by
  cases hfile : host.isFile p with
  | false =>
      rw [readUserConfig_of_not_isFile hnamed hfile] at hread
      cases hread
  | true =>
      cases hload : host.safeLoad p with
      | ok v => exact ⟨v, rfl, rfl⟩
      | error exc =>
          simp only [namedFile] at hnamed
          simp only [readUserConfig, hnamed, hfile, hload, Bool.not_true,
            Bool.false_eq_true, if_false] at hread
          cases hkind : exc.kind <;> simp [hkind] at hread

/-- A mapping with string keys is passed on when its keys are known. -/
theorem readUserConfig_of_strings {host : ConfigHost} {configPath : Option PyStr}
    {entries : List (PyVal × PyVal)} {p : PyStr} (hnamed : namedFile host configPath = some p)
    (hfile : host.isFile p = true) (hload : host.safeLoad p = .ok (.dict entries))
    (hstrings : ∀ kv ∈ entries, kv.1.isStr = true) :
    readUserConfig host configPath = (do
      rejectBadKeys (Assoc.keys (stringEntries entries)) (host.pathText p)
      return (stringEntries entries, host.pathText p)) := by
  simp only [namedFile] at hnamed
  simp only [readUserConfig, hnamed, hfile, hload, Bool.not_true, Bool.false_eq_true,
    if_false, (all_isStr_iff entries).mpr hstrings, if_true]

/-- A mapping with another key is refused, with its keys that are not strings. -/
theorem readUserConfig_of_not_strings {host : ConfigHost} {configPath : Option PyStr}
    {entries : List (PyVal × PyVal)} {p : PyStr} (hnamed : namedFile host configPath = some p)
    (hfile : host.isFile p = true) (hload : host.safeLoad p = .ok (.dict entries))
    (hstrings : ¬∀ kv ∈ entries, kv.1.isStr = true) :
    readUserConfig host configPath = (do
      let shown ← ((entries.map Prod.fst).filter (!·.isStr)).mapM host.repr
      .error (.config (.nonStringKeys (host.pathText p) (PyStr.join (py ", ") shown)))) := by
  have hne : ((entries.map Prod.fst).filter (!·.isStr)).isEmpty = false := by
    rw [← Bool.not_eq_true, all_isStr_iff]
    exact hstrings
  simp only [namedFile] at hnamed
  simp only [readUserConfig, hnamed, hfile, hload, Bool.not_true, Bool.false_eq_true,
    if_false, hne]

theorem readUserConfig_dict_eq_ok_iff {host : ConfigHost} {configPath : Option PyStr}
    {entries : List (PyVal × PyVal)} {p : PyStr} (hnamed : namedFile host configPath = some p)
    (hfile : host.isFile p = true) (hload : host.safeLoad p = .ok (.dict entries))
    (user : List (PyStr × PyVal)) :
    (∃ source, readUserConfig host configPath = .ok (user, source)) ↔
      UserMapping (.dict entries) user := by
  by_cases hstrings : ∀ kv ∈ entries, kv.1.isStr = true
  · rw [readUserConfig_of_strings hnamed hfile hload hstrings]
    constructor
    · rintro ⟨source, h⟩
      cases hreject : rejectBadKeys (Assoc.keys (stringEntries entries))
          (host.pathText p) with
      | error e =>
          rw [hreject] at h
          cases h
      | ok u =>
          rw [hreject] at h
          cases h
          exact .mapping hstrings ((rejectBadKeys_eq_ok_iff _ _).mp hreject)
    · rintro ⟨⟩
      next known =>
      rw [(rejectBadKeys_eq_ok_iff _ _).mpr known]
      exact ⟨_, rfl⟩
  · rw [readUserConfig_of_not_strings hnamed hfile hload hstrings]
    constructor
    · rintro ⟨source, h⟩
      cases hshown : ((entries.map Prod.fst).filter (!·.isStr)).mapM host.repr with
      | error e =>
          rw [hshown] at h
          cases h
      | ok shown =>
          rw [hshown] at h
          cases h
    · rintro ⟨⟩
      next strings _ => exact absurd strings hstrings

/-- The keys of a file that is read are accepted exactly when its value is null
or a mapping with known string keys. -/
theorem readUserConfig_eq_ok_iff {host : ConfigHost} {configPath : Option PyStr}
    {v : PyVal} (hfile : ReadsFile host configPath v) (user : List (PyStr × PyVal)) :
    (∃ source, readUserConfig host configPath = .ok (user, source)) ↔
      UserMapping v user := by
  obtain ⟨p, hnamed, hisFile, hload⟩ := hfile
  cases v with
  | dict entries => exact readUserConfig_dict_eq_ok_iff hnamed hisFile hload user
  | none =>
      simp only [namedFile] at hnamed
      simp only [readUserConfig, hnamed, hisFile, hload, Bool.not_true, Bool.false_eq_true,
        if_false]
      constructor
      · rintro ⟨source, h⟩
        cases h
        exact .null
      · rintro ⟨⟩
        exact ⟨_, rfl⟩
  | _ =>
      simp only [namedFile] at hnamed
      simp only [readUserConfig, hnamed, hisFile, hload, Bool.not_true, Bool.false_eq_true,
        if_false]
      constructor
      · rintro ⟨source, h⟩
        cases h
      · rintro ⟨⟩

/-! ## What valid values are turned into -/

/-- The log format that a load settles on: the environment's, else the overlay's. -/
def effectiveFormat (host : ConfigHost) (user : List (PyStr × PyVal)) : PyVal :=
  match envLogFormat host with
  | some env => .str env
  | none => (overlay user).value .logFormat

/-- The text of a string value. -/
def textOf (v : PyVal) : PyStr := v.asStr.getD []

/-- The overlay with its two spellings normalised and the three sets derived. -/
def resolve (host : ConfigHost) (user : List (PyStr × PyVal)) : Config :=
  let config := overlay user
  let zerohopSet := nameSet (config.value .zerohopChannels)
  let level := host.unicode.upper (textOf (config.value .logLevel))
  let fmt := host.unicode.lower (textOf (effectiveFormat host user))
  ((((config.set (py "log_level") (.str level)).set (py "log_format") (.str fmt)).set
      (py "_zerohop_channels_set") (.strSet zerohopSet)).set
      (py "_drop_channels_set")
        (scopeVal (dropScope zerohopSet (config.value .dropChannels)))).set
      (py "_drop_portnums_set") (.strSet (nameSet (config.value .dropPortnums)))

section Valid

variable {host : ConfigHost} {user : List (PyStr × PyVal)}

/-- A valid log format is a string, and its lower case is a known name. -/
theorem logFormat_of_valid (h : ValidKey host user .logFormat) :
    ∃ s, effectiveFormat host user = .str s ∧ host.unicode.lower s ∈ logFormats := by
  simp only [ValidKey, InDomain] at h
  cases henv : envLogFormat host with
  | some env =>
      rw [henv] at h
      exact ⟨env, by rw [effectiveFormat, henv], h⟩
  | none =>
      rw [henv] at h
      obtain ⟨s, hs, hmem⟩ := h
      exact ⟨s, by rw [effectiveFormat, henv]; exact hs, hmem⟩

theorem checkLogFormat_of_valid {config : Config} (errors : List PyStr)
    (hget : config.getItem (py "log_format") = .ok ((overlay user).value .logFormat))
    (h : ValidKey host user .logFormat) :
    checkLogFormat host config errors =
      .ok (config.set (py "log_format")
        (.str (host.unicode.lower (textOf (effectiveFormat host user)))), errors) := by
  obtain ⟨s, hs, hmem⟩ := logFormat_of_valid h
  have htext : textOf (effectiveFormat host user) = s := by rw [hs]; rfl
  rw [htext]
  cases henv : envLogFormat host with
  | some env =>
      obtain rfl : env = s := by simpa [effectiveFormat, henv] using hs
      simp only [checkLogFormat, henv]
      exact checkFormatValue_of_known config errors _ hmem
  | none =>
      have hv : (overlay user).value .logFormat = .str s := by
        simpa [effectiveFormat, henv] using hs
      simp only [checkLogFormat, henv, hget, hv, orRaise, ok_bind]
      exact checkFormatValue_of_known config errors _ hmem

theorem checkPortnums_of_valid {config : Config} (errors : List PyStr)
    (hget : config.getItem (py "drop_portnums") =
      .ok ((overlay user).value .dropPortnums))
    (h : ValidKey host user .dropPortnums) :
    checkPortnums host config errors =
      .ok (config.set (py "_drop_portnums_set")
        (.strSet (nameSet ((overlay user).value .dropPortnums))), errors) := by
  have hlist : IsStringList ((overlay user).value .dropPortnums) := by
    rcases h with h | ⟨names, h, -⟩
    · exact Or.inl h
    · exact Or.inr ⟨names, h⟩
  rw [checkPortnums_of_list errors hget hlist,
    checkPortnumNames_of_known errors ((validKey_dropPortnums_iff hlist).mp h)]

/-- On valid values the validator finds nothing to report. -/
theorem validateValues_of_valid (h : ∀ key, ValidKey host user key) :
    validateValues host (overlay user) [] = .ok (resolve host user, []) := by
  have h0 := Untouched.overlay user
  have hbool : ∀ key : ConfigKey, (∃ b, (overlay user).value key = .bool b) →
      checkBool host (overlay user) [] key.name = .ok [] := by
    rintro key ⟨b, hb⟩
    exact checkBool_of_bool [] ((overlay_getItem user key).trans (congrArg _ hb))
  have hport : ∀ key : ConfigKey,
      (∃ n, (overlay user).value key = .int n ∧ 1 ≤ n ∧ n ≤ 65535) →
      checkInt host (overlay user) key.name [] 1 (some 65535) = .ok [] := fun key hkey =>
    checkInt_of_inRange [] (overlay_getItem user key) ((inDomain_port_iff _).mpr hkey)
  have hcount : ∀ key : ConfigKey, (∃ n, (overlay user).value key = .int n ∧ 1 ≤ n) →
      checkInt host (overlay user) key.name [] 1 none = .ok [] := fun key hkey =>
    checkInt_of_inRange [] (overlay_getItem user key) ((inDomain_count_iff _).mpr hkey)
  obtain ⟨level, hlevel, hmem⟩ := h .logLevel
  obtain ⟨topic, htopic, hne⟩ := h .topicFilter
  have hl := h0.set (py "log_level") (.str (host.unicode.upper level))
  have hf := hl.set (py "log_format")
    (.str (host.unicode.lower (textOf (effectiveFormat host user))))
  have hz := hf.set (py "_zerohop_channels_set")
    (.strSet (nameSet ((overlay user).value .zerohopChannels)))
  have hd := hz.set (py "_drop_channels_set")
    (scopeVal (dropScope (nameSet ((overlay user).value .zerohopChannels))
      ((overlay user).value .dropChannels)))
  have htext : textOf ((overlay user).value .logLevel) = level := by rw [hlevel]; rfl
  simp only [validateValues, List.foldlM_cons, List.foldlM_nil, bind_assoc, pure_bind]
  rw [show checkBool host (overlay user) [] (py "zerohop_enabled") = .ok [] from
      hbool .zerohopEnabled (h .zerohopEnabled), ok_bind,
    show checkBool host (overlay user) [] (py "drop_enabled") = .ok [] from
      hbool .dropEnabled (h .dropEnabled), ok_bind,
    show checkBool host (overlay user) [] (py "stats_log") = .ok [] from
      hbool .statsLog (h .statsLog), ok_bind,
    show checkInt host (overlay user) (py "grpc_port") [] 1 (some 65535) = .ok [] from
      hport .grpcPort (h .grpcPort), ok_bind,
    show checkInt host (overlay user) (py "health_port") [] 1 (some 65535) = .ok [] from
      hport .healthPort (h .healthPort), ok_bind,
    show checkInt host (overlay user) (py "grpc_max_workers") [] 1 none = .ok [] from
      hcount .grpcMaxWorkers (h .grpcMaxWorkers), ok_bind,
    show checkInt host (overlay user) (py "stats_interval_s") [] 1 none = .ok [] from
      hcount .statsIntervalS (h .statsIntervalS), ok_bind,
    checkLogLevel_of_known [] ((overlay_getItem user .logLevel).trans (congrArg _ hlevel))
      hmem, ok_bind,
    checkLogFormat_of_valid [] (hl.getItem .logFormat (by simp [ConfigKey.name]))
      (h .logFormat), ok_bind,
    checkTopicFilter_of_str [] ((hf.getItem .topicFilter (by simp [ConfigKey.name])).trans
      (congrArg _ htopic)) hne, ok_bind,
    checkChannels_of_valid [] (hf.getItem .zerohopChannels (by simp [ConfigKey.name]))
      (hf.getItem .dropChannels (by simp [ConfigKey.name])) (h .zerohopChannels)
      (h .dropChannels), ok_bind,
    checkPortnums_of_valid [] (hd.getItem .dropPortnums (by simp [ConfigKey.name]))
      (h .dropPortnums), resolve, htext]

/-- Every name that the validator leaves in `log_level` is one of a level. -/
theorem setLevel_of_logLevel (host : ConfigHost) {s : PyStr} (h : s ∈ logLevels) :
    setLevel host (.str s) = .ok () := by
  have hsub : ∀ s ∈ logLevels, s ∈ levelNames := by decide
  rw [setLevel, if_pos (hsub s h)]

theorem get?_resolve_logLevel :
    (resolve host user).get? (py "log_level") =
      some (.str (host.unicode.upper (textOf ((overlay user).value .logLevel)))) := by
  simp [resolve, OrderedDict.get?_set]

theorem get?_resolve_logFormat :
    (resolve host user).get? (py "log_format") =
      some (.str (host.unicode.lower (textOf (effectiveFormat host user)))) := by
  simp [resolve, OrderedDict.get?_set]

/-- Valid values are accepted. -/
theorem loadConfig_of_valid {configPath : Option PyStr} {source : PyStr}
    (hread : readUserConfig host configPath = .ok (user, source))
    (h : ∀ key, ValidKey host user key) :
    loadConfig host configPath = .ok (resolve host user) := by
  obtain ⟨level, hlevel, hmem⟩ := h .logLevel
  have hget : (resolve host user).getItem (py "log_level") =
      .ok (.str (host.unicode.upper level)) := by
    rw [Config.getItem, get?_resolve_logLevel, hlevel]
    rfl
  rw [loadConfig, hread, ok_bind]
  simp only [validateValues_of_valid h, ok_bind, concludeLoad, List.isEmpty_nil, if_true,
    hget, orRaise, setLevel_of_logLevel host hmem]
  rfl

end Valid

/-! ## The result of an accepted file -/

/-- The keys of the derived sets, in the order they are written. -/
def derivedKeys : List PyStr :=
  [py "_zerohop_channels_set", py "_drop_channels_set", py "_drop_portnums_set"]

/-- What is in a configuration that was accepted for the user's entries. -/
structure Accepted (host : ConfigHost) (user : List (PyStr × PyVal)) (config : Config) :
    Prop where
  keys : Assoc.keys config.entries = Assoc.keys defaultEntries ++ derivedKeys
  /-- The user's value if there is one, and the default otherwise. -/
  value : ∀ key : ConfigKey, key ≠ .logLevel → key ≠ .logFormat →
    config.get? key.name = ((OrderedDict.empty.update user).get? key.name).or
      (defaultConfig.get? key.name)
  logLevel : ∃ s, (overlay user).value .logLevel = .str s ∧
    config.get? (py "log_level") = some (.str (host.unicode.upper s)) ∧
    host.unicode.upper s ∈ logLevels
  logFormat : ∃ s, effectiveFormat host user = .str s ∧
    config.get? (py "log_format") = some (.str (host.unicode.lower s)) ∧
    host.unicode.lower s ∈ logFormats
  /-- The derived sets are those of the values. -/
  policy : config.HasPolicy (Policy.ofValues (overlay user))
  /-- The raw values can be logged at the start. -/
  startup : ∃ lines, logStartupPolicy config = .ok lines ∧ ∀ line ∈ lines, line.Renders

/-- The start logs its lines on what a valid overlay is turned into. -/
theorem logStartupPolicy_of_valid {host : ConfigHost} {user : List (PyStr × PyVal)}
    {config : Config} (h : ∀ key, ValidKey host user key)
    (hun : Untouched user writtenKeys config)
    (hpolicy : config.HasPolicy (Policy.ofValues (overlay user))) :
    ∃ lines, logStartupPolicy config = .ok lines ∧ ∀ line ∈ lines, line.Renders := by
  have hget : ∀ key : ConfigKey, key.name ∉ writtenKeys →
      config.get? key.name = some ((overlay user).value key) := fun key hkey =>
    (hun key.name hkey).trans (get?_overlay user key)
  have hportnums : IsStringList ((overlay user).value .dropPortnums) := by
    rcases h .dropPortnums with h | ⟨names, h, -⟩
    · exact Or.inl h
    · exact Or.inr ⟨names, h⟩
  obtain ⟨zerohop, hzerohop, hzrenders⟩ := zerohopLine_renders
    (hget .zerohopChannels (by simp [ConfigKey.name])) (h .zerohopChannels)
  obtain ⟨drop, hdrop, hdrenders⟩ := dropLine_renders
    (hget .dropPortnums (by simp [ConfigKey.name])) hportnums
    hpolicy.formatDropChannelScope
  obtain ⟨interval, hinterval, -⟩ := h .statsIntervalS
  obtain ⟨topic, htopic, -⟩ := h .topicFilter
  have hi : config.get? (py "stats_interval_s") = some (.int interval) :=
    (hget .statsIntervalS (by simp [ConfigKey.name])).trans (congrArg _ hinterval)
  have ht : config.get? (py "topic_filter") = some (.str topic) :=
    (hget .topicFilter (by simp [ConfigKey.name])).trans (congrArg _ htopic)
  refine ⟨_, by rw [logStartupPolicy, hzerohop, hdrop, hi, ht]; rfl, fun line hline => ?_⟩
  simp only [List.mem_cons, List.not_mem_nil, or_false] at hline
  rcases hline with rfl | rfl | rfl | rfl | rfl
  · exact renders_strings [topic] rfl
  · exact hzrenders
  · exact hdrenders
  · exact .cons (Or.inr ⟨rfl, interval, rfl⟩) .nil
  · exact renders_strings [] rfl

/-- The keys of the result: those of `DEFAULT_CONFIG`, then the derived ones. -/
theorem keys_resolve (host : ConfigHost) {user : List (PyStr × PyVal)}
    (h : ∀ key ∈ Assoc.keys user, key ∈ Assoc.keys defaultEntries) :
    Assoc.keys (resolve host user).entries = Assoc.keys defaultEntries ++ derivedKeys := by
  have hover : Assoc.keys (overlay user).entries = Assoc.keys defaultEntries :=
    Assoc.keys_update_of_mem h
  have hset : ∀ {config : Config} {key : PyStr} (v : PyVal),
      Assoc.keys config.entries = Assoc.keys defaultEntries →
      key ∈ Assoc.keys defaultEntries →
      Assoc.keys (config.set key v).entries = Assoc.keys defaultEntries :=
    fun v hkeys hmem => (Assoc.keys_set_of_mem v (hkeys ▸ hmem)).trans hkeys
  have hderive : ∀ {config : Config} {key : PyStr} (v : PyVal) {keys : List PyStr},
      Assoc.keys config.entries = keys → key ∉ keys →
      Assoc.keys (config.set key v).entries = keys ++ [key] :=
    fun v _ hkeys hmem => (Assoc.keys_set_of_not_mem v (hkeys ▸ hmem)).trans (by rw [hkeys])
  unfold resolve
  refine (hderive _ (hderive _ (hderive _ (hset _ (hset _ hover ?_) ?_) ?_) ?_) ?_).trans
    (by simp [derivedKeys])
  all_goals decide

/-- What valid values are turned into is what an accepted file promises. -/
theorem accepted_resolve {host : ConfigHost} {user : List (PyStr × PyVal)} {config : Config}
    (hknown : ∀ key ∈ Assoc.keys user, key ∈ Assoc.keys defaultEntries)
    (h : ∀ key, ValidKey host user key) (hresolved : Resolved host user config)
    (hconfig : config = resolve host user) : Accepted host user config := by
  have hpolicy := hresolved.hasPolicy h
  refine ⟨hconfig ▸ keys_resolve host hknown, fun key hlevel hformat => ?_, ?_, ?_, hpolicy,
    logStartupPolicy_of_valid h hresolved.untouched hpolicy⟩
  · have hkey : key.name ∉ writtenKeys := by
      cases key <;> first | exact absurd rfl hlevel | exact absurd rfl hformat | decide
    rw [hresolved.untouched _ hkey, overlay, OrderedDict.get?_update]
  · obtain ⟨s, hs, hmem⟩ := h .logLevel
    refine ⟨s, hs, ?_, hmem⟩
    rw [hconfig, get?_resolve_logLevel, hs]
    rfl
  · obtain ⟨s, hs, hmem⟩ := logFormat_of_valid (h .logFormat)
    refine ⟨s, hs, ?_, hmem⟩
    rw [hconfig, get?_resolve_logFormat, hs]
    rfl

/-- A file is accepted exactly when its value is null or a mapping with known
string keys and every value over the defaults is in its domain, and then the
result has the documented keys and values, and the server start can log it. -/
theorem loadConfig_accepts_iff {host : ConfigHost} {configPath : Option PyStr} {v : PyVal}
    (hfile : ReadsFile host configPath v) :
    ((∃ config, loadConfig host configPath = .ok config) ↔
      ∃ user, UserMapping v user ∧ ∀ key, ValidKey host user key) ∧
    ∀ config, loadConfig host configPath = .ok config →
      ∃ user, UserMapping v user ∧ Accepted host user config := by
  have haccepted : ∀ config, loadConfig host configPath = .ok config →
      ∃ user source, readUserConfig host configPath = .ok (user, source) ∧
        UserMapping v user ∧ ∀ key, ValidKey host user key := by
    intro config hload
    cases hread : readUserConfig host configPath with
    | error e =>
        rw [loadConfig, hread] at hload
        cases hload
    | ok r =>
        obtain ⟨user, source⟩ := r
        exact ⟨user, source, rfl,
          (readUserConfig_eq_ok_iff hfile user).mp ⟨source, hread⟩,
          (loadConfig_accepted hread hload).1⟩
  refine ⟨⟨?_, ?_⟩, fun config hload => ?_⟩
  · rintro ⟨config, hload⟩
    obtain ⟨user, _, -, hmapping, hvalid⟩ := haccepted config hload
    exact ⟨user, hmapping, hvalid⟩
  · rintro ⟨user, hmapping, hvalid⟩
    obtain ⟨source, hread⟩ := (readUserConfig_eq_ok_iff hfile user).mpr hmapping
    exact ⟨_, loadConfig_of_valid hread hvalid⟩
  · obtain ⟨user, source, hread, hmapping, hvalid⟩ := haccepted config hload
    have hconfig : config = resolve host user :=
      Except.ok.inj (hload.symm.trans (loadConfig_of_valid hread hvalid))
    exact ⟨user, hmapping, accepted_resolve hmapping.known hvalid
      (loadConfig_accepted hread hload).2 hconfig⟩

/-- A file with a level in lower case and both ports at a bound is
accepted. -/
theorem loadConfig_accepts_debug :
    let user := [(py "log_level", PyVal.str (py "debug")), (py "grpc_port", .int 1),
      (py "health_port", .int 65535), (py "zerohop_channels", .none)]
    let host := ConfigHost.ofMapping user
    ∃ config, loadConfig host (some (py "config.yaml")) = .ok config ∧
      ∃ user', UserMapping (.dict (user.map fun kv => (.str kv.1, kv.2))) user' ∧
        Accepted host user' config := by
  intro user host
  obtain ⟨config, hload⟩ : ∃ config, loadConfig host (some (py "config.yaml")) = .ok config :=
    exists_ok_of_isOk (by decide +kernel)
  exact ⟨config, hload,
    (loadConfig_accepts_iff ⟨py "config.yaml", by decide, rfl, rfl⟩).2 config hload⟩

end Floodgate.Ports
