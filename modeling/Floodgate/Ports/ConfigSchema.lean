import Floodgate.Ports.Config

/-!
# The documented schema

Each configuration key has a domain of its own, stated here as the README
states it and without reference to the order or the grouping of the checks.
An error entry is *about* a key when it starts with the key between backticks;
`log_format` may also be reported under the name of the environment variable
that overrides it.

## Main results

* `EntryFor.functional`: no entry is about two keys.
* `overlay_getItem`: every key of the schema is present once the user's
  mapping lies over the defaults.
-/

namespace Floodgate.Ports

open Floodgate.Verified

/-- The keys of `DEFAULT_CONFIG`. -/
inductive ConfigKey where
  | zerohopEnabled | zerohopChannels
  | dropEnabled | dropChannels | dropPortnums
  | grpcPort | grpcMaxWorkers | healthPort | topicFilter
  | statsIntervalS | logLevel | logFormat | statsLog
  deriving DecidableEq, Repr

def ConfigKey.name : ConfigKey → PyStr
  | .zerohopEnabled => py "zerohop_enabled"
  | .zerohopChannels => py "zerohop_channels"
  | .dropEnabled => py "drop_enabled"
  | .dropChannels => py "drop_channels"
  | .dropPortnums => py "drop_portnums"
  | .grpcPort => py "grpc_port"
  | .grpcMaxWorkers => py "grpc_max_workers"
  | .healthPort => py "health_port"
  | .topicFilter => py "topic_filter"
  | .statsIntervalS => py "stats_interval_s"
  | .logLevel => py "log_level"
  | .logFormat => py "log_format"
  | .statsLog => py "stats_log"

/-- The value of a key in a configuration that has it. -/
def Config.value (config : Config) (key : ConfigKey) : PyVal :=
  (config.get? key.name).getD .none

/-- The name is one of the generated PortNum names.  Without the generated
stubs there are no names to compare with. -/
def KnownPortnum (host : ConfigHost) (name : PyStr) : Prop :=
  ∀ known, host.portnums = some known → name ∈ known

/-- The documented domain of each key. -/
def InDomain (host : ConfigHost) : ConfigKey → PyVal → Prop
  | .zerohopEnabled, v | .dropEnabled, v | .statsLog, v => ∃ b, v = .bool b
  | .grpcPort, v | .healthPort, v => ∃ n, v = .int n ∧ 1 ≤ n ∧ n ≤ 65535
  | .grpcMaxWorkers, v | .statsIntervalS, v => ∃ n, v = .int n ∧ 1 ≤ n
  | .logLevel, v => ∃ s, v = .str s ∧ host.unicode.upper s ∈ logLevels
  | .logFormat, v =>
      match envLogFormat host with
      | some env => host.unicode.lower env ∈ logFormats
      | none => ∃ s, v = .str s ∧ host.unicode.lower s ∈ logFormats
  | .topicFilter, v => ∃ s, v = .str s ∧ s ≠ []
  | .zerohopChannels, v =>
      v = .none ∨ ∃ names : List PyStr, v = .list (names.map .str)
  | .dropChannels, v =>
      v = .none ∨ v = .str inheritZerohopChannels ∨
        ∃ names : List PyStr, v = .list (names.map .str)
  | .dropPortnums, v =>
      v = .none ∨ ∃ names : List PyStr, v = .list (names.map .str) ∧
        ∀ name ∈ names, KnownPortnum host name

/-- What a refused channel or portnum value is rendered from: a list by its
entries, anything else by the name of its type. -/
def shownList : PyVal → PyVal
  | .list xs => .list xs
  | _ => .none

/-- The value that the entry about a key renders with `repr`. -/
def shownValue (host : ConfigHost) : ConfigKey → PyVal → PyVal
  | .logFormat, v =>
      match envLogFormat host with
      | some env => .str env
      | none => v
  | .zerohopChannels, v | .dropChannels, v | .dropPortnums, v => shownList v
  | _, v => v

/-- The error entry is about the key. -/
def EntryFor (key : ConfigKey) (entry : PyStr) : Prop :=
  (ticked key.name ++ py " ") <+: entry ∨
    (key = .logFormat ∧ py "FLOODGATE_LOG_FORMAT " <+: entry)

/-- A key between backticks and a space ends the same way in no other key. -/
private theorem ticked_text {k k' : ConfigKey}
    (h : (ticked k.name ++ py " ") <+: (ticked k'.name ++ py " ")) : k = k' := by
  revert h
  cases k <;> cases k' <;> first | (intro _; rfl) | decide

private theorem ticked_not_env (k : ConfigKey) (e : PyStr)
    (h : (ticked k.name ++ py " ") <+: e) : ¬ py "FLOODGATE_LOG_FORMAT " <+: e := by
  intro henv
  obtain ⟨t, rfl⟩ := h
  obtain ⟨u, hu⟩ := henv
  have htick : (ticked k.name ++ py " " ++ t).head? = some (PyChar.ofChar '`') := rfl
  have henv : (py "FLOODGATE_LOG_FORMAT " ++ u).head? = some (PyChar.ofChar 'F') := rfl
  rw [hu, htick] at henv
  exact absurd henv (by decide)

/-- No entry is about two keys. -/
theorem EntryFor.functional {k k' : ConfigKey} {e : PyStr}
    (h : EntryFor k e) (h' : EntryFor k' e) : k = k' := by
  rcases h with h | ⟨rfl, henv⟩
  · rcases h' with h' | ⟨rfl, henv'⟩
    · rcases List.prefix_or_prefix_of_prefix h h' with hp | hp
      · exact ticked_text hp
      · exact (ticked_text hp).symm
    · exact absurd henv' (ticked_not_env k e h)
  · rcases h' with h' | ⟨rfl, _⟩
    · exact absurd henv (ticked_not_env k' e h')
    · rfl

/-- Text that starts with the key between backticks is about the key. -/
theorem EntryFor.of_ticked (key : ConfigKey) {rest : PyStr}
    (h : py " " <+: rest) : EntryFor key (ticked key.name ++ rest) :=
  Or.inl (List.prefix_append_right_inj _ |>.mpr h)

/-! ## The user's mapping over the defaults -/

theorem isSome_default (key : ConfigKey) :
    (defaultConfig.get? key.name).isSome := by
  cases key <;> rfl

/-- Every key of the schema is present. -/
theorem get?_overlay (user : List (PyStr × PyVal)) (key : ConfigKey) :
    (overlay user).get? key.name = some ((overlay user).value key) := by
  have h := OrderedDict.isSome_get?_update defaultConfig user (isSome_default key)
  obtain ⟨v, hv⟩ := Option.isSome_iff_exists.mp h
  simp only [Config.value, overlay, hv, Option.getD_some]

/-- `config[key]` finds every key of the schema. -/
theorem overlay_getItem (user : List (PyStr × PyVal)) (key : ConfigKey) :
    (overlay user).getItem key.name = .ok ((overlay user).value key) := by
  rw [Config.getItem, get?_overlay]

theorem keys_not_removed {k : PyStr} (h : k ∈ Assoc.keys defaultEntries) :
    k ∉ Assoc.keys removedKeys := by
  revert k
  decide

/-- A mapping of known keys is not refused for its keys. -/
theorem rejectBadKeys_of_known {keys : List PyStr} (source : PyStr)
    (h : ∀ k ∈ keys, k ∈ Assoc.keys defaultEntries) :
    rejectBadKeys keys source = .ok () := by
  have hremoved : keys.dedup.filter (Assoc.keys removedKeys).contains = [] := by
    rw [List.filter_eq_nil_iff]
    intro k hk
    simpa using keys_not_removed (h k (List.mem_dedup.mp hk))
  have hunknown : keys.dedup.filter (fun k => !(Assoc.keys defaultEntries).contains k &&
      !(Assoc.keys removedKeys).contains k) = [] := by
    rw [List.filter_eq_nil_iff]
    intro k hk
    simp [h k (List.mem_dedup.mp hk)]
  rw [rejectBadKeys, hremoved, hunknown]
  simp [sortedNames]

theorem stringEntries_map (user : List (PyStr × PyVal)) :
    stringEntries (user.map fun kv => (.str kv.1, kv.2)) = user := by
  simp [stringEntries, List.filterMap_map, PyVal.asStr]

/-- Reading a file that holds a mapping of known keys gives that mapping. -/
theorem readUserConfig_ofMapping {user : List (PyStr × PyVal)} {path : PyStr}
    (hpath : path ≠ []) (h : ∀ k ∈ Assoc.keys user, k ∈ Assoc.keys defaultEntries) :
    readUserConfig (ConfigHost.ofMapping user) (some path) = .ok (user, path) := by
  have hkeys : ((user.map fun kv => (PyVal.str kv.1, kv.2)).map Prod.fst).filter
      (!·.isStr) = [] := by
    rw [List.filter_eq_nil_iff]
    intro v hv
    obtain ⟨_, hkv, rfl⟩ := List.mem_map.mp hv
    obtain ⟨kv, -, rfl⟩ := List.mem_map.mp hkv
    exact Bool.not_eq_true _ |>.mpr rfl
  have hfile : (Option.or (some path)
      ((ConfigHost.ofMapping user).environ (py "FLOODGATE_CONFIG"))).filter
        (!·.isEmpty) = some path := by
    simp [hpath]
  simp only [readUserConfig, hfile]
  simp only [ConfigHost.ofMapping, Bool.not_true, Bool.false_eq_true, if_false, hkeys,
    List.isEmpty_nil, if_true, stringEntries_map, rejectBadKeys_of_known path h]
  rfl

end Floodgate.Ports
