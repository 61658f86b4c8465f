import Floodgate.Verified.OrderedDict
import Floodgate.Ports.PyValue

/-!
# Loading and validating the configuration

`load_config` lays the user's YAML mapping over the defaults, checks every
value, and adds three lookup sets that the policy functions read.  Value
problems are accumulated as text entries and raised together.

What lies outside the source is the `ConfigHost`: the environment, the file
system with the YAML reader, the Unicode database, the generated PortNum names
and `difflib`.  A failure of the load is a `ConfigError`, kept here with the
data its text is made of, or an exception of another class that no handler of
`load_config` catches.

The plain log lines of the loader are left out.
-/

namespace Floodgate.Ports

open Floodgate.Verified

/-- A configuration dictionary. -/
abbrev Config := OrderedDict PyStr PyVal

/-- `config[key]`. -/
def Config.getItem (config : Config) (key : PyStr) : Except PyErr PyVal :=
  match config.get? key with
  | some v => .ok v
  | none => .error ⟨.keyError, key⟩

/-! ## Schema -/

/-- `INHERIT_ZEROHOP_CHANNELS`. -/
def inheritZerohopChannels : PyStr := py "zerohop_channels"

/-- `_REMOVED_KEYS`. -/
def removedKeys : List (PyStr × PyStr) :=
  [ (py "channel_policy",
      py "Replaced by `zerohop_enabled` (bool) and `zerohop_channels` (list).")
  , (py "channel_blacklist", py "Renamed to `zerohop_channels`.")
  , (py "channel_whitelist",
      py "Removed (whitelist mode is gone — use `zerohop_enabled: false` or an empty `zerohop_channels` list).") ]

/-- The entries of `DEFAULT_CONFIG`. -/
def defaultEntries : List (PyStr × PyVal) :=
  [ (py "zerohop_enabled", .bool true)
  , (py "zerohop_channels", .list
      [ .str (py "LongTurbo"), .str (py "LongFast"), .str (py "LongModerate")
      , .str (py "MediumFast"), .str (py "MediumSlow"), .str (py "ShortFast")
      , .str (py "ShortSlow"), .str (py "ShortTurbo") ])
  , (py "drop_enabled", .bool false)
  , (py "drop_channels", .str inheritZerohopChannels)
  , (py "drop_portnums", .list [])
  , (py "grpc_port", .int 9000)
  , (py "grpc_max_workers", .int 16)
  , (py "health_port", .int 8080)
  , (py "topic_filter", .str (py "msh/#"))
  , (py "stats_interval_s", .int 60)
  , (py "log_level", .str (py "INFO"))
  , (py "log_format", .str (py "text"))
  , (py "stats_log", .bool true) ]

/-- `DEFAULT_CONFIG`. -/
def defaultConfig : Config :=
  ⟨defaultEntries, by simp [defaultEntries, Assoc.keys, py_inj]⟩

/-- `config.update(user_config)` over a copy of the defaults. -/
def overlay (user : List (PyStr × PyVal)) : Config := defaultConfig.update user

/-- `_LOG_LEVELS`. -/
def logLevels : List PyStr :=
  [py "DEBUG", py "INFO", py "WARNING", py "ERROR", py "CRITICAL"]

/-- `_LOG_FORMATS`. -/
def logFormats : List PyStr := [py "text", py "json"]

/-! ## Failures -/

/-- A `ConfigError`, by the place that raises it. -/
inductive ConfigError where
  | fileNotFound (path : PyStr)
  | invalidYaml (path exc : PyStr)
  | unreadable (path exc : PyStr)
  | notMapping (path typeName : PyStr)
  | nonStringKeys (path shown : PyStr)
  | badKeys (source : PyStr) (removed unknown : List PyStr)
  | badValue (text : PyStr)
  | invalidValues (source : PyStr) (errors : List PyStr)

/-- Ways for `load_config` not to return: a `ConfigError`, or an exception of
another class. -/
inductive ConfigFailure where
  | config (e : ConfigError)
  | uncaught (e : PyErr)

/-- Let an exception of another class through. -/
def orRaise {α : Type} : Except PyErr α → Except ConfigFailure α
  | .ok a => .ok a
  | .error e => .error (.uncaught e)

/-- `sorted(names)`: by code points. -/
def sortedNames (names : List PyStr) : List PyStr :=
  names.mergeSort fun a b => decide (a ≤ b)

/-- `str(exc)` of a `ConfigError`. -/
def ConfigError.text : ConfigError → PyStr
  | .fileNotFound path => py "Config file " ++ path ++ py " not found"
  | .invalidYaml path exc =>
      py "Config file " ++ path ++ py " is not valid YAML:\n" ++ exc
  | .unreadable path exc =>
      py "Config file " ++ path ++ py " could not be read: " ++ exc
  | .notMapping path typeName =>
      py "Config file " ++ path ++
        py " must be a mapping of keys to values; got " ++ typeName
  | .nonStringKeys path shown =>
      py "Config file " ++ path ++ py ": keys must be strings; got " ++ shown
  | .badKeys source removed unknown =>
      PyStr.join (py "\n")
        ((if removed.isEmpty then [] else
            [py "Removed config key(s) found in " ++ source ++ py ":\n" ++
              PyStr.join (py "\n") (removed.map fun k =>
                py "  - " ++ k ++ py ": " ++
                  (Assoc.get? removedKeys k).getD []) ++
              py "\nUpdate your config — see README.md `Configuration` for the new schema."]) ++
          (if unknown.isEmpty then [] else
            [py "Config file " ++ source ++ py " contains unknown key(s): " ++
              PyStr.join (py ", ") unknown ++ py "\nKnown keys: " ++
              PyStr.join (py ", ") (sortedNames (Assoc.keys defaultEntries))]))
  | .badValue text => text
  | .invalidValues source errors =>
      py "Invalid config value(s) in " ++ source ++ py ":\n" ++
        PyStr.join (py "\n") (errors.map (py "  - " ++ ·))

/-! ## The host -/

/-- What `load_config` uses of its surroundings. -/
structure ConfigHost where
  /-- `os.environ.get`. -/
  environ : PyStr → Option PyStr
  /-- `str(Path(p))`. -/
  pathText : PyStr → PyStr
  /-- `Path(p).is_file()`. -/
  isFile : PyStr → Bool
  /-- `with open(path) as f: yaml.safe_load(f)`. -/
  safeLoad : PyStr → Except PyErr PyVal
  /-- The text of `repr`, on the values it does not raise on. -/
  reprText : PyVal → PyStr
  /-- How many levels of nesting below a flat container `repr` follows, before it
  meets the recursion limit. -/
  reprDepth : Nat
  unicode : UnicodeDb
  /-- `portnums_pb2.PortNum.keys()`; `none` when the stubs do not import. -/
  portnums : Option (List PyStr)
  /-- `difflib.get_close_matches(name, known, n=1)`. -/
  closeMatches : PyStr → List PyStr → List PyStr

/-- `repr` of the plain scalars; other values show their type only. -/
def plainRepr : PyVal → PyStr
  | .none => py "None"
  | .bool true => py "True"
  | .bool false => py "False"
  | .int n => intText n
  | .str s => py "'" ++ s ++ py "'"
  | v => py "<" ++ v.typeName ++ py ">"

/-- A host with an empty environment where every path names a file that holds
the mapping `user`. -/
def ConfigHost.ofMapping (user : List (PyStr × PyVal)) : ConfigHost where
  environ _ := none
  pathText p := p
  isFile _ := true
  safeLoad _ := .ok (.dict (user.map fun kv => (.str kv.1, kv.2)))
  reprText := plainRepr
  reprDepth := 900
  unicode := .ascii
  portnums := some
    [py "UNKNOWN_APP", py "TEXT_MESSAGE_APP", py "POSITION_APP",
      py "RANGE_TEST_APP", py "TELEMETRY_APP"]
  closeMatches _ _ := []

/-- What `repr(value)` raises, if anything. -/
def ConfigHost.reprFault (host : ConfigHost) (v : PyVal) : Option PyErr :=
  v.reprFault (host.reprDepth + 1)

/-- `repr(value)`. -/
def ConfigHost.repr (host : ConfigHost) (v : PyVal) : Except ConfigFailure PyStr :=
  match host.reprFault v with
  | some e => .error (.uncaught e)
  | none => .ok (host.reprText v)

theorem ConfigHost.repr_of_printable (host : ConfigHost) {v : PyVal}
    (h : host.reprFault v = none) : host.repr v = .ok (host.reprText v) := by
  rw [ConfigHost.repr, h]

theorem ConfigHost.repr_of_unprintable (host : ConfigHost) {v : PyVal} {e : PyErr}
    (h : host.reprFault v = some e) : host.repr v = .error (.uncaught e) := by
  rw [ConfigHost.repr, h]

@[simp] theorem ConfigHost.reprFault_str (host : ConfigHost) (s : PyStr) :
    host.reprFault (.str s) = none := PyVal.reprFault_of_isStr rfl _

/-- The entries that are not strings decide what rendering a list raises. -/
theorem ConfigHost.reprFault_filter_not_isStr (host : ConfigHost) (xs : List PyVal) :
    host.reprFault (.list (xs.filter (!·.isStr))) = host.reprFault (.list xs) := by
  simp only [ConfigHost.reprFault, PyVal.reprFault]
  exact PyVal.reprFaultAny_filter_not_isStr xs host.reprDepth

/-! ## Value checks -/

/-- A key in an error entry: between backticks. -/
def ticked (key : PyStr) : PyStr := py "`" ++ key ++ py "`"

/-- The loop body of `_validate_values` over the boolean keys. -/
def checkBool (host : ConfigHost) (config : Config) (errors : List PyStr)
    (key : PyStr) : Except ConfigFailure (List PyStr) := do
  match ← orRaise (config.getItem key) with
  | .bool _ => return errors
  | value =>
      let shown ← host.repr value
      return errors ++
        [ticked key ++ py " must be true or false (unquoted); got " ++ shown]

/-- The test of `_check_int`. -/
def intInRange (low : Int) (high : Option Int) : PyVal → Bool
  | .int n => decide (low ≤ n) && (high.all fun h => decide (n ≤ h))
  | _ => false

/-- The `bound` text of `_check_int`. -/
def intBound (low : Int) : Option Int → PyStr
  | none => py ">= " ++ intText low
  | some high => py "between " ++ intText low ++ py " and " ++ intText high

/-- `_check_int`. -/
def checkInt (host : ConfigHost) (config : Config) (key : PyStr)
    (errors : List PyStr) (low : Int) (high : Option Int) :
    Except ConfigFailure (List PyStr) := do
  let value ← orRaise (config.getItem key)
  if intInRange low high value then return errors
  else
    let shown ← host.repr value
    return errors ++
      [ticked key ++ py " must be an integer " ++ intBound low high ++
        py "; got " ++ shown]

/-- The entry about a value outside a list of names. -/
def oneOfEntry (label : PyStr) (names : List PyStr) (shown : PyStr) : PyStr :=
  label ++ py " must be one of " ++ PyStr.join (py ", ") names ++ py "; got " ++
    shown

/-- The `log_level` block of `_validate_values`. -/
def checkLogLevel (host : ConfigHost) (config : Config) (errors : List PyStr) :
    Except ConfigFailure (Config × List PyStr) := do
  let level ← orRaise (config.getItem (py "log_level"))
  match level.asStr.filter fun s => logLevels.contains (host.unicode.upper s) with
  | some s =>
      return (config.set (py "log_level") (.str (host.unicode.upper s)), errors)
  | none =>
      let shown ← host.repr level
      return (config,
        errors ++ [oneOfEntry (ticked (py "log_level")) logLevels shown])

/-- `os.environ.get("FLOODGATE_LOG_FORMAT") or None`. -/
def envLogFormat (host : ConfigHost) : Option PyStr :=
  (host.environ (py "FLOODGATE_LOG_FORMAT")).filter (!·.isEmpty)

/-- The test of the `log_format` block, on the value and label it settled on. -/
def checkFormatValue (host : ConfigHost) (config : Config) (errors : List PyStr)
    (fmt : PyVal) (label : PyStr) : Except ConfigFailure (Config × List PyStr) :=
  match fmt.asStr.filter fun s => logFormats.contains (host.unicode.lower s) with
  | some s =>
      return (config.set (py "log_format") (.str (host.unicode.lower s)), errors)
  | none => do
      let shown ← host.repr fmt
      return (config, errors ++ [oneOfEntry label logFormats shown])

/-- The `log_format` block of `_validate_values`. -/
def checkLogFormat (host : ConfigHost) (config : Config) (errors : List PyStr) :
    Except ConfigFailure (Config × List PyStr) :=
  match envLogFormat host with
  | some env =>
      checkFormatValue host config errors (.str env) (py "FLOODGATE_LOG_FORMAT")
  | none => do
      let fmt ← orRaise (config.getItem (py "log_format"))
      checkFormatValue host config errors fmt (ticked (py "log_format"))

/-- The `topic_filter` block of `_validate_values`. -/
def checkTopicFilter (host : ConfigHost) (config : Config)
    (errors : List PyStr) : Except ConfigFailure (List PyStr) := do
  let topicFilter ← orRaise (config.getItem (py "topic_filter"))
  match topicFilter.asStr.filter (!·.isEmpty) with
  | some _ => return errors
  | none =>
      let shown ← host.repr topicFilter
      return errors ++
        [ticked (py "topic_filter") ++
          py " must be a non-empty string; got " ++ shown]

/-- `_validate_string_list`: the set of strings, each once. -/
def validateStringList (host : ConfigHost) (value : PyVal) (key : PyStr) :
    Except ConfigFailure (List PyStr) :=
  match value with
  | .none => .ok []
  | .list xs =>
      let bad := xs.filter (!·.isStr)
      if bad.isEmpty then .ok (xs.filterMap PyVal.asStr).dedup
      else do
        let shown ← host.repr (.list bad)
        .error (.config (.badValue (ticked key ++
          py " entries must be strings; got non-string entries: " ++ shown)))
  | v => .error (.config (.badValue (ticked key ++
      py " must be a list of strings; got " ++ v.typeName)))

/-- `_resolve_drop_channels`: `none` is Python's `None`, all channels. -/
def resolveDropChannels (host : ConfigHost) (value : PyVal)
    (zerohopSet : List PyStr) : Except ConfigFailure (Option (List PyStr)) :=
  let expected := ticked (py "drop_channels") ++
    py " must be a list, null, or the literal string 'zerohop_channels'; got "
  match value with
  | .none => .ok none
  | .str s =>
      if s = inheritZerohopChannels then .ok (some zerohopSet)
      else do
        let shown ← host.repr value
        .error (.config (.badValue (expected ++ shown)))
  | .list xs =>
      if xs.isEmpty then .ok none
      else (validateStringList host value (py "drop_channels")).map some
  | v => .error (.config (.badValue (expected ++ v.typeName)))

/-- The value of `config["_drop_channels_set"]`. -/
def scopeVal : Option (List PyStr) → PyVal
  | none => .none
  | some names => .strSet names

/-- `_check_portnum_names`. -/
def checkPortnumNames (host : ConfigHost) (names : List PyStr)
    (errors : List PyStr) : List PyStr :=
  match host.portnums with
  | none => errors
  | some known =>
      errors ++ (sortedNames (names.filter (!known.contains ·))).map fun name =>
        let suggestion := match host.closeMatches (host.unicode.upper name) known with
          | [] => []
          | hint :: _ =>
              py " (did you mean " ++ host.reprText (.str hint) ++ py "?)"
        ticked (py "drop_portnums") ++ py " entry " ++ host.reprText (.str name) ++
          py " is not a Meshtastic portnum" ++ suggestion

/-- `except ConfigError as exc: errors.append(str(exc))`. -/
def appendConfigError (config : Config) (errors : List PyStr) :
    ConfigFailure → Except ConfigFailure (Config × List PyStr)
  | .config e => .ok (config, errors ++ [e.text])
  | .uncaught e => .error (.uncaught e)

/-- The channel `try` block of `_validate_values`.  Both keys are checked in
one block, so the second is not looked at when the first is refused. -/
def checkChannels (host : ConfigHost) (config : Config) (errors : List PyStr) :
    Except ConfigFailure (Config × List PyStr) := do
  let zerohopChannels ← orRaise (config.getItem (py "zerohop_channels"))
  match validateStringList host zerohopChannels (py "zerohop_channels") with
  | .error failure => appendConfigError config errors failure
  | .ok zerohopSet =>
      let config : Config :=
        config.set (py "_zerohop_channels_set") (.strSet zerohopSet)
      let dropChannels ← orRaise (config.getItem (py "drop_channels"))
      match resolveDropChannels host dropChannels zerohopSet with
      | .error failure => appendConfigError config errors failure
      | .ok scope =>
          return (config.set (py "_drop_channels_set") (scopeVal scope), errors)

/-- The portnum `try` block of `_validate_values`. -/
def checkPortnums (host : ConfigHost) (config : Config) (errors : List PyStr) :
    Except ConfigFailure (Config × List PyStr) := do
  let dropPortnums ← orRaise (config.getItem (py "drop_portnums"))
  match validateStringList host dropPortnums (py "drop_portnums") with
  | .error failure => appendConfigError config errors failure
  | .ok names =>
      return (config.set (py "_drop_portnums_set") (.strSet names),
        checkPortnumNames host names errors)

/-- `_validate_values`: the normalised configuration and the error entries. -/
def validateValues (host : ConfigHost) (config : Config) (errors : List PyStr) :
    Except ConfigFailure (Config × List PyStr) := do
  let errors ←
    [py "zerohop_enabled", py "drop_enabled", py "stats_log"].foldlM
      (checkBool host config) errors
  let errors ← checkInt host config (py "grpc_port") errors 1 (some 65535)
  let errors ← checkInt host config (py "health_port") errors 1 (some 65535)
  let errors ← checkInt host config (py "grpc_max_workers") errors 1 none
  let errors ← checkInt host config (py "stats_interval_s") errors 1 none
  let (config, errors) ← checkLogLevel host config errors
  let (config, errors) ← checkLogFormat host config errors
  let errors ← checkTopicFilter host config errors
  let (config, errors) ← checkChannels host config errors
  checkPortnums host config errors

/-! ## Loading -/

/-- The names that `logging` knows levels by. -/
def levelNames : List PyStr :=
  [ py "CRITICAL", py "FATAL", py "ERROR", py "WARN", py "WARNING", py "INFO"
  , py "DEBUG", py "NOTSET" ]

/-- `logging.getLogger("floodgate").setLevel(level)`. -/
def setLevel (host : ConfigHost) : PyVal → Except PyErr Unit
  | .int _ | .bool _ => .ok ()
  | .str s =>
      if s ∈ levelNames then .ok ()
      else .error ⟨.valueError, py "Unknown level: " ++ host.reprText (.str s)⟩
  | v => .error ⟨.typeError,
      py "Level not an integer or a valid string: " ++ host.reprText v⟩

/-- `_reject_bad_keys`. -/
def rejectBadKeys (userKeys : List PyStr) (source : PyStr) :
    Except ConfigFailure Unit :=
  let isRemoved := (Assoc.keys removedKeys).contains
  let isKnown := (Assoc.keys defaultEntries).contains
  let removed := sortedNames (userKeys.dedup.filter isRemoved)
  let unknown := sortedNames
    (userKeys.dedup.filter fun k => !isKnown k && !isRemoved k)
  if removed.isEmpty && unknown.isEmpty then .ok ()
  else .error (.config (.badKeys source removed unknown))

/-- The entries of a mapping whose keys are all strings. -/
def stringEntries (entries : List (PyVal × PyVal)) : List (PyStr × PyVal) :=
  entries.filterMap fun kv => kv.1.asStr.map fun k => (k, kv.2)

/-- The part of `load_config` that finds and reads the user's mapping: the
mapping and the source that error messages name. -/
def readUserConfig (host : ConfigHost) (configPath : Option PyStr) :
    Except ConfigFailure (List (PyStr × PyVal) × PyStr) :=
  match (configPath.or (host.environ (py "FLOODGATE_CONFIG"))).filter (!·.isEmpty) with
  | none => .ok ([], py "built-in defaults")
  | some p =>
      let path := host.pathText p
      if !host.isFile p then .error (.config (.fileNotFound path))
      else match host.safeLoad p with
        | .error exc =>
            match exc.kind with
            | .yamlError => .error (.config (.invalidYaml path exc.text))
            | .osError => .error (.config (.unreadable path exc.text))
            | _ => .error (.uncaught exc)
        | .ok .none => .ok ([], path)
        | .ok (.dict entries) =>
            let badKeys := (entries.map Prod.fst).filter (!·.isStr)
            if badKeys.isEmpty then do
              let user := stringEntries entries
              rejectBadKeys (Assoc.keys user) path
              return (user, path)
            else do
              let shown ← badKeys.mapM host.repr
              .error (.config (.nonStringKeys path (PyStr.join (py ", ") shown)))
        | .ok v => .error (.config (.notMapping path v.typeName))

/-- The end of `load_config`: raise the collected problems, or set the level of
the package's logger and return. -/
def concludeLoad (host : ConfigHost) (source : PyStr) (config : Config)
    (errors : List PyStr) : Except ConfigFailure Config :=
  if errors.isEmpty then do
    let level ← orRaise (config.getItem (py "log_level"))
    orRaise (setLevel host level)
    return config
  else .error (.config (.invalidValues source errors))

/-- `load_config`. -/
def loadConfig (host : ConfigHost) (configPath : Option PyStr) :
    Except ConfigFailure Config := do
  let (user, source) ← readUserConfig host configPath
  let (config, errors) ← validateValues host (overlay user) []
  concludeLoad host source config errors

end Floodgate.Ports
