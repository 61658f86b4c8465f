import Floodgate.Ports.Acceptance
import Floodgate.Ports.Meshtastic

/-!
# What a configuration problem does to the start

`main` catches `ConfigError` and exits with status 2; an exception of any other
class leaves `load_config` as a traceback.  A computation that raises nothing
but `ConfigError` is called handled here, and the stages of the load are shown
to be handled one by one.

Three things are not handled: what `open` and `yaml.safe_load` raise beside
`OSError` and `YAMLError`, such as the `UnicodeDecodeError` of a file that is
not text; a key that `repr` cannot render; and a refused value that `repr`
cannot render.

## Main results

* `handled_bind_iff`: two stages in a row.
* `handled_readUserConfig_iff`, `handled_validated_iff`: the stages of a load.
* `startsOrReports_iff`: when a start serves or reports the problem.
* `exists_logHandler_of_serves`: a start that serves has installed a log handler.
-/

namespace Floodgate.Ports

open Floodgate.Verified

/-! ## The entry point -/

/-- What comes of a start. -/
inductive MainOutcome where
  /-- The configuration that `serve` is called with. -/
  | serves (config : Config)
  /-- `sys.exit(status)`, behind the logged lines. -/
  | exits (status : Nat) (logged : List PyStr)
  | traceback (e : PyErr)

/-- `main`, from the load to the call of `serve`; the logging setup is
`Config.logHandler`. -/
def main (host : ConfigHost) (configPath : Option PyStr) (verbose : Bool) : MainOutcome :=
  match loadConfig host configPath with
  | .error (.config exc) => .exits 2 [py "Configuration error: " ++ exc.text]
  | .error (.uncaught e) => .traceback e
  | .ok config =>
      .serves (if verbose then config.set (py "log_level") (.str (py "DEBUG")) else config)

/-- The load returns a configuration, or raises a `ConfigError` that `main`
reports in one line before it exits with status 2. -/
def StartsOrReports (host : ConfigHost) (configPath : Option PyStr) : Prop :=
  (∃ config, loadConfig host configPath = .ok config) ∨
    ∃ exc, loadConfig host configPath = .error (.config exc) ∧
      ∀ verbose, main host configPath verbose =
        .exits 2 [py "Configuration error: " ++ exc.text]

/-! ## Handled computations -/

/-- Nothing but a `ConfigError` is raised. -/
def Handled {α : Type} (r : Except ConfigFailure α) : Prop :=
  ∀ e, r ≠ .error (.uncaught e)

theorem handled_ok {α : Type} (a : α) : Handled (.ok a : Except ConfigFailure α) := by
  intro e h
  cases h

theorem handled_config {α : Type} (exc : ConfigError) :
    Handled (.error (.config exc) : Except ConfigFailure α) := by
  intro e h
  cases h

theorem not_handled_uncaught {α : Type} (e : PyErr) :
    ¬ Handled (.error (.uncaught e) : Except ConfigFailure α) := fun h => h e rfl

/-- Two stages in a row are handled when the first is, and the second is on
what the first returns. -/
theorem handled_bind_iff {α β : Type} (r : Except ConfigFailure α)
    (f : α → Except ConfigFailure β) :
    Handled (r >>= f) ↔ Handled r ∧ ∀ a, r = .ok a → Handled (f a) := by
  cases r with
  | ok a =>
      constructor
      · intro h
        exact ⟨handled_ok a, fun b hb => Except.ok.inj hb ▸ h⟩
      · exact fun h => h.2 a rfl
  | error failure =>
      constructor
      · intro h
        refine ⟨fun e he => h e ?_, fun a ha => by cases ha⟩
        rw [he]
        rfl
      · rintro ⟨h, -⟩ e he
        exact h e (by cases he; rfl)

theorem startsOrReports_iff_handled (host : ConfigHost) (configPath : Option PyStr) :
    StartsOrReports host configPath ↔ Handled (loadConfig host configPath) := by
  constructor
  · rintro (⟨config, h⟩ | ⟨exc, h, -⟩)
    · exact h ▸ handled_ok config
    · exact h ▸ handled_config exc
  · intro h
    cases hload : loadConfig host configPath with
    | ok config => exact Or.inl ⟨config, hload⟩
    | error failure =>
        cases failure with
        | config exc =>
            exact Or.inr ⟨exc, hload, fun verbose => by rw [main, hload]⟩
        | uncaught e => exact absurd hload (h e)

theorem handled_repr_iff (host : ConfigHost) (v : PyVal) :
    Handled (host.repr v) ↔ host.reprFault v = none := by
  cases h : host.reprFault v with
  | none => simpa [host.repr_of_printable h] using handled_ok _
  | some e => simpa [host.repr_of_unprintable h] using not_handled_uncaught e

/-- Rendering some values is handled when each of them can be rendered. -/
theorem handled_mapM_repr_iff (host : ConfigHost) (vs : List PyVal) :
    Handled (vs.mapM host.repr) ↔ ∀ v ∈ vs, host.reprFault v = none := by
  induction vs with
  | nil => exact iff_of_true (handled_ok []) (by simp)
  | cons v vs ih =>
      have hrest : ∀ shown, Handled (vs.mapM host.repr >>= fun rest =>
          (pure (shown :: rest) : Except ConfigFailure (List PyStr))) ↔
          ∀ v ∈ vs, host.reprFault v = none := by
        intro shown
        rw [handled_bind_iff, ih, and_iff_left_iff_imp]
        exact fun _ rest _ => handled_ok (shown :: rest)
      rw [List.mapM_cons, handled_bind_iff, handled_repr_iff, List.forall_mem_cons]
      refine and_congr_right fun hv => ?_
      rw [host.repr_of_printable hv]
      exact ⟨fun h => (hrest _).mp (h _ rfl), fun h shown _ => (hrest shown).mpr h⟩

/-! ## The stages of a load -/

/-- Reading the file raises only what `load_config` turns into a `ConfigError`,
and the keys of a mapping can be rendered. -/
structure Readable (host : ConfigHost) (p : PyStr) : Prop where
  raised : ∀ exc, host.safeLoad p = .error exc →
    exc.kind = .yamlError ∨ exc.kind = .osError
  keys : ∀ entries, host.safeLoad p = .ok (.dict entries) →
    ∀ kv ∈ entries, host.reprFault kv.1 = none

/-- A known or unknown key is refused with a `ConfigError`. -/
theorem handled_rejectBadKeys (keys : List PyStr) (source : PyStr) :
    Handled (rejectBadKeys keys source) := by
  simp only [rejectBadKeys]
  split
  · exact handled_ok ()
  · exact handled_config _

/-- The keys of a mapping are reported, or passed on, unless one of those to
report cannot be rendered. -/
theorem handled_mapping_iff (host : ConfigHost) (entries : List (PyVal × PyVal)) :
    Handled (((entries.map Prod.fst).filter (!·.isStr)).mapM host.repr) ↔
      ∀ kv ∈ entries, host.reprFault kv.1 = none := by
  rw [handled_mapM_repr_iff]
  constructor
  · intro h kv hkv
    by_cases hstr : kv.1.isStr = true
    · exact PyVal.reprFault_of_isStr hstr _
    · exact h kv.1 (List.mem_filter.mpr ⟨List.mem_map_of_mem hkv, by simpa using hstr⟩)
  · intro h v hv
    obtain ⟨kv, hkv, rfl⟩ := List.mem_map.mp (List.mem_filter.mp hv).1
    exact h kv hkv

theorem readable_iff_of_error {host : ConfigHost} {p : PyStr} {exc : PyErr}
    (hload : host.safeLoad p = .error exc) :
    Readable host p ↔ exc.kind = .yamlError ∨ exc.kind = .osError := by
  refine ⟨fun h => h.raised exc hload, fun h => ⟨?_, ?_⟩⟩
  · intro exc' h'
    rw [hload] at h'
    cases h'
    exact h
  · intro entries h'
    rw [hload] at h'
    cases h'

theorem readable_iff_of_ok {host : ConfigHost} {p : PyStr} {v : PyVal}
    (hload : host.safeLoad p = .ok v) :
    Readable host p ↔
      ∀ entries, v = .dict entries → ∀ kv ∈ entries, host.reprFault kv.1 = none := by
  refine ⟨fun h entries he => h.keys entries (he ▸ hload), fun h => ⟨?_, ?_⟩⟩
  · intro exc h'
    rw [hload] at h'
    cases h'
  · intro entries h'
    rw [hload] at h'
    exact h entries (Except.ok.inj h')

theorem handled_readUserConfig_dict_iff {host : ConfigHost} {configPath : Option PyStr}
    {entries : List (PyVal × PyVal)} {p : PyStr} (hnamed : namedFile host configPath = some p)
    (hfile : host.isFile p = true) (hload : host.safeLoad p = .ok (.dict entries)) :
    Handled (readUserConfig host configPath) ↔
      ∀ kv ∈ entries, host.reprFault kv.1 = none := by
  by_cases hstrings : ∀ kv ∈ entries, kv.1.isStr = true
  · rw [readUserConfig_of_strings hnamed hfile hload hstrings]
    refine iff_of_true ?_ fun kv hkv => PyVal.reprFault_of_isStr (hstrings kv hkv) _
    rw [handled_bind_iff]
    exact ⟨handled_rejectBadKeys _ _, fun _ _ => handled_ok _⟩
  · rw [readUserConfig_of_not_strings hnamed hfile hload hstrings, handled_bind_iff,
      handled_mapping_iff, and_iff_left_iff_imp]
    exact fun _ shown _ => handled_config _

/-- What a file's content does to the first stage, once it is a file. -/
theorem handled_readUserConfig_file_iff {host : ConfigHost} {configPath : Option PyStr}
    {p : PyStr} (hnamed : namedFile host configPath = some p) (hfile : host.isFile p = true) :
    Handled (readUserConfig host configPath) ↔ Readable host p := by
  have hread := hnamed
  simp only [namedFile] at hread
  cases hload : host.safeLoad p with
  | error exc =>
      rw [readable_iff_of_error hload]
      simp only [readUserConfig, hread, hfile, hload, Bool.not_true, Bool.false_eq_true,
        if_false]
      cases exc.kind with
      | yamlError => exact iff_of_true (handled_config _) (Or.inl rfl)
      | osError => exact iff_of_true (handled_config _) (Or.inr rfl)
      | _ => exact iff_of_false (not_handled_uncaught exc) (by simp)
  | ok v =>
      rw [readable_iff_of_ok hload]
      cases v with
      | dict entries =>
          rw [handled_readUserConfig_dict_iff hnamed hfile hload]
          simp
      | none =>
          simp only [readUserConfig, hread, hfile, hload, Bool.not_true, Bool.false_eq_true,
            if_false]
          exact iff_of_true (handled_ok _) (by simp)
      | _ =>
          simp only [readUserConfig, hread, hfile, hload, Bool.not_true, Bool.false_eq_true,
            if_false]
          exact iff_of_true (handled_config _) (by simp)

/-- The first stage of a load is handled when the named file is readable. -/
theorem handled_readUserConfig_iff (host : ConfigHost) (configPath : Option PyStr) :
    Handled (readUserConfig host configPath) ↔
      ∀ p, namedFile host configPath = some p → host.isFile p = true → Readable host p := by
  cases hnamed : namedFile host configPath with
  | none =>
      rw [readUserConfig_of_unnamed hnamed]
      exact iff_of_true (handled_ok _) (by simp)
  | some p =>
      cases hfile : host.isFile p with
      | true =>
          rw [handled_readUserConfig_file_iff hnamed hfile]
          exact ⟨by rintro h _ ⟨rfl⟩ _; exact h, fun h => h p rfl hfile⟩
      | false =>
          rw [readUserConfig_of_not_isFile hnamed hfile]
          refine iff_of_true (handled_config _) ?_
          rintro _ ⟨rfl⟩ h
          rw [hfile] at h
          cases h

/-- The rest of a load is handled when every refused value that it looks at can
be rendered. -/
theorem handled_validated_iff (host : ConfigHost) {configPath : Option PyStr}
    {user : List (PyStr × PyVal)} {source : PyStr}
    (hread : readUserConfig host configPath = .ok (user, source)) :
    Handled (loadConfig host configPath) ↔ AllShowable host user := by
  have hrun := validateValues_reports host user
  constructor
  · intro h
    by_contra hnot
    obtain ⟨e, he⟩ := hrun.escaped hnot
    refine h e ?_
    rw [loadConfig, hread]
    simp only [ok_bind, he]
    rfl
  · intro hall
    obtain ⟨config, errors, hok, -, hentries⟩ := hrun.reported hall
    by_cases hvalid : ∀ key, ValidKey host user key
    · rw [loadConfig_of_valid hread hvalid]
      exact handled_ok _
    · have hne : errors ≠ [] := by
        rintro rfl
        refine hvalid (validKey_of_looksAt fun key hlook => ?_)
        by_contra hbad
        obtain ⟨e, he, -⟩ := (hentries key).mpr ⟨hlook, hbad⟩
        exact List.not_mem_nil he
      rw [loadConfig, hread]
      simp only [ok_bind, hok, concludeLoad_of_errors host source config hne]
      exact handled_config _

/-- A load is handled when both of its stages are. -/
theorem handled_loadConfig_iff (host : ConfigHost) (configPath : Option PyStr) :
    Handled (loadConfig host configPath) ↔
      Handled (readUserConfig host configPath) ∧
        ∀ user source, readUserConfig host configPath = .ok (user, source) →
          AllShowable host user := by
  cases hread : readUserConfig host configPath with
  | ok r =>
      obtain ⟨user, source⟩ := r
      rw [handled_validated_iff host hread]
      constructor
      · intro h
        refine ⟨handled_ok _, ?_⟩
        rintro _ _ ⟨⟩
        exact h
      · exact fun h => h.2 user source rfl
  | error failure =>
      have hload : loadConfig host configPath = .error failure := by
        rw [loadConfig, hread]
        rfl
      rw [hload]
      constructor
      · intro h
        refine ⟨fun e he => h e (by cases he; rfl), ?_⟩
        rintro _ _ ⟨⟩
      · rintro ⟨h, -⟩ e he
        exact h e (by cases he; rfl)

/-! ## The whole start -/

/-- The defaults are in their domains, but for the two names that the Unicode
database is asked about. -/
theorem validKey_default (host : ConfigHost) {key : ConfigKey} (hlevel : key ≠ .logLevel)
    (hformat : key ≠ .logFormat) : ValidKey host [] key := by
  cases key with
  | logLevel => exact absurd rfl hlevel
  | logFormat => exact absurd rfl hformat
  | zerohopEnabled | statsLog => exact ⟨true, rfl⟩
  | dropEnabled => exact ⟨false, rfl⟩
  | grpcPort => exact ⟨9000, rfl, by decide, by decide⟩
  | healthPort => exact ⟨8080, rfl, by decide, by decide⟩
  | grpcMaxWorkers => exact ⟨16, rfl, by decide⟩
  | statsIntervalS => exact ⟨60, rfl, by decide⟩
  | topicFilter => exact ⟨py "msh/#", rfl, by decide⟩
  | zerohopChannels =>
      exact Or.inr ⟨[py "LongTurbo", py "LongFast", py "LongModerate", py "MediumFast",
        py "MediumSlow", py "ShortFast", py "ShortSlow", py "ShortTurbo"], rfl⟩
  | dropChannels => exact Or.inr (Or.inl rfl)
  | dropPortnums => exact Or.inr ⟨[], rfl, by simp⟩

/-- What a load without user entries can refuse is a string. -/
theorem allShowable_default (host : ConfigHost) : AllShowable host [] := by
  intro key _ hbad
  by_cases hlevel : key = .logLevel
  · subst hlevel
    exact host.reprFault_str (py "INFO")
  · by_cases hformat : key = .logFormat
    · subst hformat
      unfold ShowableKey shownValue
      cases envLogFormat host with
      | some env => exact host.reprFault_str env
      | none => exact host.reprFault_str (py "text")
    · exact absurd (validKey_default host hlevel hformat) hbad

/-- The inputs on which every problem is a `ConfigError`: a named file that
is one is readable, and the refused values in it can be rendered. -/
def Manageable (host : ConfigHost) (configPath : Option PyStr) : Prop :=
  ∀ p, namedFile host configPath = some p → host.isFile p = true →
    Readable host p ∧ ∀ v user, host.safeLoad p = .ok v → UserMapping v user →
      AllShowable host user

/-- The start serves, or reports a `ConfigError` in one line and exits with
status 2, exactly on manageable inputs. -/
theorem startsOrReports_iff (host : ConfigHost) (configPath : Option PyStr) :
    StartsOrReports host configPath ↔ Manageable host configPath := by
  rw [startsOrReports_iff_handled, handled_loadConfig_iff, handled_readUserConfig_iff]
  constructor
  · rintro ⟨hreadable, hall⟩ p hnamed hfile
    refine ⟨hreadable p hnamed hfile, fun v user hv hmapping => ?_⟩
    obtain ⟨source, hread⟩ :=
      (readUserConfig_eq_ok_iff ⟨p, hnamed, hfile, hv⟩ user).mpr hmapping
    exact hall user source hread
  · intro h
    refine ⟨fun p hnamed hfile => (h p hnamed hfile).1, fun user source hread => ?_⟩
    cases hnamed : namedFile host configPath with
    | none =>
        rw [readUserConfig_of_unnamed hnamed] at hread
        cases hread
        exact allShowable_default host
    | some p =>
        obtain ⟨v, hfile, hv⟩ := readsFile_of_ok hnamed hread
        exact (h p hnamed hfile).2 v user hv
          ((readUserConfig_eq_ok_iff ⟨p, hnamed, hfile, hv⟩ user).mp ⟨source, hread⟩)

/-- `main` serves with the loaded configuration, up to the log level. -/
theorem exists_loadConfig_of_serves {host : ConfigHost} {configPath : Option PyStr}
    {verbose : Bool} {config : Config} (h : main host configPath verbose = .serves config) :
    ∃ loaded, loadConfig host configPath = .ok loaded ∧
      ∀ k, py "log_level" ≠ k → config.get? k = loaded.get? k := by
  unfold main at h
  split at h
  · cases h
  · cases h
  · next loaded hload =>
    refine ⟨loaded, hload, fun k hk => ?_⟩
    cases h
    split
    · exact OrderedDict.get?_set_ne _ _ hk
    · rfl

/-! ## The logging setup -/

/-- `configure_logging(getattr(logging, config["log_level"]), config["log_format"])`, for a
level and a format that are strings. -/
def Config.logHandler (config : Config) (formatters : Formatters) : Option LogHandler := do
  let name ← (config.get? (py "log_level")).bind PyVal.asStr
  let level ← RecordLevel.named name
  let logFormat ← (config.get? (py "log_format")).bind PyVal.asStr
  return configureLogging formatters level logFormat

/-- What is loaded is what valid values are turned into. -/
theorem exists_resolve_of_load {host : ConfigHost} {configPath : Option PyStr}
    {config : Config} (hload : loadConfig host configPath = .ok config) :
    ∃ user, (∀ key, ValidKey host user key) ∧ config = resolve host user := by
  cases hread : readUserConfig host configPath with
  | error e =>
      rw [loadConfig, hread] at hload
      cases hload
  | ok r =>
      obtain ⟨user, source⟩ := r
      have hvalid := (loadConfig_accepted hread hload).1
      exact ⟨user, hvalid, Except.ok.inj (hload.symm.trans (loadConfig_of_valid hread hvalid))⟩

/-- A configuration that is served has a level and a format. -/
theorem exists_logHandler_of_serves {host : ConfigHost} {configPath : Option PyStr}
    {verbose : Bool} {config : Config} (h : main host configPath verbose = .serves config)
    (formatters : Formatters) : ∃ handler, config.logHandler formatters = some handler := by
  have hnamed : ∀ name ∈ logLevels, (RecordLevel.named name).isSome = true := by decide
  have hhandler : ∀ {config : Config} {name logFormat : PyStr}, name ∈ logLevels →
      config.get? (py "log_level") = some (.str name) →
      config.get? (py "log_format") = some (.str logFormat) →
      ∃ handler, config.logHandler formatters = some handler := by
    intro config name logFormat hname hlevel hformat
    obtain ⟨level, hlevel'⟩ := Option.isSome_iff_exists.mp (hnamed name hname)
    exact ⟨configureLogging formatters level logFormat, by
      simp [Config.logHandler, hlevel, hformat, PyVal.asStr, hlevel']⟩
  unfold main at h
  split at h
  · cases h
  · cases h
  · next loaded hload =>
    obtain ⟨user, hvalid, rfl⟩ := exists_resolve_of_load hload
    obtain ⟨name, hname, hmem⟩ := hvalid .logLevel
    obtain ⟨logFormat, hformat, -⟩ := logFormat_of_valid (hvalid .logFormat)
    have hget := @get?_resolve_logLevel host user
    have hget' := @get?_resolve_logFormat host user
    rw [hname] at hget
    rw [hformat] at hget'
    cases h
    split
    · exact hhandler (by decide) (OrderedDict.get?_set_self _ _ _)
        ((OrderedDict.get?_set_ne _ _ (by decide)).trans hget')
    · exact hhandler hmem hget hget'

/-- The runtime of a floodgate that serves the configuration: its handler is the one that
`main` installed. -/
def Runtime.serving (rt : Runtime) (formatters : Formatters) (config : Config) : Runtime :=
  rt.withLog ((config.logHandler formatters).getD rt.log)

theorem serving_of_logHandler {rt : Runtime} {formatters : Formatters} {config : Config}
    {handler : LogHandler} (h : config.logHandler formatters = some handler) :
    rt.serving formatters config = rt.withLog handler := by
  rw [Runtime.serving, h, Option.getD_some]

/-- Formatters that follow a value as deep as the interpreter lets them. -/
def demoFormatters : Formatters := ⟨986, .text 986⟩

/-- A file that is not UTF-8 text ends the start in a traceback. -/
theorem main_traceback_of_undecodable :
    let exc : PyErr := ⟨.unicodeDecodeError,
      py "'utf-8' codec can't decode byte 0xff in position 0: invalid start byte"⟩
    let host := { ConfigHost.ofMapping [] with safeLoad := fun _ => .error exc }
    main host (some (py "config.yaml")) false = .traceback exc ∧
      ¬ StartsOrReports host (some (py "config.yaml")) := by
  intro exc host
  have hload : loadConfig host (some (py "config.yaml")) = .error (.uncaught exc) := rfl
  refine ⟨by rw [main, hload], ?_⟩
  rw [startsOrReports_iff_handled, hload]
  exact not_handled_uncaught exc

end Floodgate.Ports
