import Floodgate.Ports.ConfigReport

/-!
# Policy evaluation

`should_zerohop` and `should_drop` read the lookup sets that the load derived,
not the user's lists.  In between stands `Policy`, what a configuration says
about channels and portnums: `Config.HasPolicy` connects it to the dictionary
the functions read, and `Policy.ofValues` to the values the user wrote.

## Main results

* `Config.HasPolicy.shouldZerohop`, `Config.HasPolicy.shouldDrop`: on a
  configuration that has a policy, the functions decide it and never raise.
* `Resolved.hasPolicy`: what a load returns has the policy of the user's values over the
  defaults.
* `loadConfig_policyMeans`: the decisions, stated on those values.
-/

namespace Floodgate.Ports

open Floodgate.Verified

/-- `bool(config.get(key, default))`. -/
def Config.getTruthy (config : Config) (key : PyStr) (default : Bool) : Bool :=
  match config.get? key with
  | some v => v.truthy
  | none => default

/-- `should_zerohop`. -/
def shouldZerohop (config : Config) (channelName : PyStr) : Except PyErr Bool := do
  if !config.getTruthy (py "zerohop_enabled") true then return false
  let channels ← config.getItem (py "_zerohop_channels_set")
  channels.contains channelName

/-- The last step of `should_drop`: `None` is no scoping. -/
def channelInScope (dropChannels : PyVal) (channelName : PyStr) : Except PyErr Bool :=
  match dropChannels with
  | .none => .ok true
  | channels => channels.contains channelName

/-- `should_drop`. -/
def shouldDrop (config : Config) (channelName : PyStr) (portnum : Option PyStr) :
    Except PyErr Bool := do
  if !config.getTruthy (py "drop_enabled") false then return false
  match portnum with
  | none => return false
  | some portnum =>
      let portnums ← config.getItem (py "_drop_portnums_set")
      if !(← portnums.contains portnum) then return false
      let dropChannels ← config.getItem (py "_drop_channels_set")
      channelInScope dropChannels channelName

/-- The elements of `sorted(value)` that `", ".join` accepts. -/
def sortedStrings : PyVal → Except PyErr (List PyStr)
  | .list xs | .tuple xs | .set xs =>
      if xs.all PyVal.isStr then .ok (sortedNames (xs.filterMap PyVal.asStr))
      else .error ⟨.typeError, py "expected str instance"⟩
  | .dict es =>
      if (es.map Prod.fst).all PyVal.isStr then
        .ok (sortedNames ((es.map Prod.fst).filterMap PyVal.asStr))
      else .error ⟨.typeError, py "expected str instance"⟩
  | .str s => .ok (sortedNames (s.map fun c => [c]))
  | .bytes [] => .ok []
  | v => .error ⟨.typeError, v.typeName⟩

/-- `_format_drop_channel_scope`. -/
def formatDropChannelScope (config : Config) : Except PyErr PyStr :=
  match (config.get? (py "_drop_channels_set")).getD .none with
  | .none => .ok (py "all channels")
  | dropSet => do
      let names ← sortedStrings dropSet
      return py "channels [" ++ PyStr.join (py ", ") names ++ py "]"

/-! ## The policy a configuration has -/

/-- What a configuration says about channels and portnums. -/
structure Policy where
  zerohopEnabled : Bool
  zerohopChannels : List PyStr
  dropEnabled : Bool
  dropPortnums : List PyStr
  /-- The channels that dropping is restricted to; `none` for all channels. -/
  dropScope : Option (List PyStr)

namespace Policy

/-- Packets on the channel are zero-hopped. -/
def zerohops (p : Policy) (channel : PyStr) : Bool :=
  p.zerohopEnabled && decide (channel ∈ p.zerohopChannels)

/-- The channel is in the drop scope. -/
def inScope (p : Policy) (channel : PyStr) : Bool :=
  p.dropScope.all fun names => decide (channel ∈ names)

/-- Packets of the portnum on the channel are denied; a packet without a
recognised portnum never is. -/
def drops (p : Policy) (channel : PyStr) (portnum : Option PyStr) : Bool :=
  p.dropEnabled && (portnum.any fun pn => decide (pn ∈ p.dropPortnums)) &&
    p.inScope channel

/-- The policy of a dictionary of values, before the lookup sets are derived. -/
def ofValues (cfg : Config) : Policy where
  zerohopEnabled := (cfg.value .zerohopEnabled).truthy
  zerohopChannels := nameSet (cfg.value .zerohopChannels)
  dropEnabled := (cfg.value .dropEnabled).truthy
  dropPortnums := nameSet (cfg.value .dropPortnums)
  dropScope :=
    Ports.dropScope (nameSet (cfg.value .zerohopChannels)) (cfg.value .dropChannels)

end Policy

theorem channelInScope_scopeVal (scope : Option (List PyStr))
    (channel : PyStr) : channelInScope (scopeVal scope) channel =
      .ok (scope.all fun names => decide (channel ∈ names)) := by
  cases scope with
  | none => rfl
  | some names => exact PyVal.contains_strSet names channel

/-- The entries that the policy functions read are those of the policy. -/
structure Config.HasPolicy (config : Config) (p : Policy) : Prop where
  zerohopEnabled : config.get? (py "zerohop_enabled") = some (.bool p.zerohopEnabled)
  dropEnabled : config.get? (py "drop_enabled") = some (.bool p.dropEnabled)
  zerohopChannels :
    config.get? (py "_zerohop_channels_set") = some (.strSet p.zerohopChannels)
  dropPortnums : config.get? (py "_drop_portnums_set") = some (.strSet p.dropPortnums)
  dropScope : config.get? (py "_drop_channels_set") = some (scopeVal p.dropScope)

namespace Config.HasPolicy

variable {config : Config} {p : Policy}

/-- The log level is no part of the policy. -/
theorem of_get?_eq {loaded : Config} (h : loaded.HasPolicy p)
    (hsame : ∀ k, py "log_level" ≠ k → config.get? k = loaded.get? k) : config.HasPolicy p where
  zerohopEnabled := (hsame _ (by decide)).trans h.zerohopEnabled
  dropEnabled := (hsame _ (by decide)).trans h.dropEnabled
  zerohopChannels := (hsame _ (by decide)).trans h.zerohopChannels
  dropPortnums := (hsame _ (by decide)).trans h.dropPortnums
  dropScope := (hsame _ (by decide)).trans h.dropScope

theorem getTruthy_dropEnabled (h : config.HasPolicy p) (default : Bool) :
    config.getTruthy (py "drop_enabled") default = p.dropEnabled := by
  rw [getTruthy, h.dropEnabled]
  rfl

/-- `should_zerohop` decides the policy. -/
theorem shouldZerohop (h : config.HasPolicy p) (channel : PyStr) :
    shouldZerohop config channel = .ok (p.zerohops channel) := by
  unfold Ports.shouldZerohop
  rw [getTruthy, h.zerohopEnabled, Config.getItem, h.zerohopChannels]
  cases he : p.zerohopEnabled with
  | false => simp [PyVal.truthy, Policy.zerohops, he, pure, Except.pure]
  | true =>
      simp only [PyVal.truthy, Bool.not_true, Bool.false_eq_true, if_false,
        Policy.zerohops, he, Bool.true_and]
      exact PyVal.contains_strSet p.zerohopChannels channel

/-- `should_drop` decides the policy. -/
theorem shouldDrop (h : config.HasPolicy p) (channel : PyStr)
    (portnum : Option PyStr) :
    shouldDrop config channel portnum = .ok (p.drops channel portnum) := by
  unfold Ports.shouldDrop
  rw [h.getTruthy_dropEnabled]
  cases he : p.dropEnabled with
  | false => simp [Policy.drops, he, pure, Except.pure]
  | true =>
      cases portnum with
      | none => simp [Policy.drops, pure, Except.pure]
      | some pn =>
          by_cases hpn : pn ∈ p.dropPortnums <;>
            simp [Config.getItem, h.dropPortnums, h.dropScope, hpn, he, bind,
              Except.bind, pure, Except.pure, PyVal.contains_strSet,
              channelInScope_scopeVal, Policy.drops, Policy.inScope]

end Config.HasPolicy

/-- A resolved configuration has the policy of the user's values. -/
theorem Resolved.hasPolicy {host : ConfigHost} {user : List (PyStr × PyVal)}
    {config : Config} (h : Resolved host user config)
    (hvalid : ∀ key, ValidKey host user key) :
    config.HasPolicy (Policy.ofValues (overlay user)) := by
  have hbool : ∀ key : ConfigKey, key.name ∉ writtenKeys →
      (∃ b, (overlay user).value key = .bool b) →
      config.get? key.name = some (.bool ((overlay user).value key).truthy) := by
    rintro key hkey ⟨b, hb⟩
    rw [h.untouched _ hkey, get?_overlay, hb]
    rfl
  obtain ⟨hz, hd⟩ := h.channels (hvalid .zerohopChannels) (hvalid .dropChannels)
  exact ⟨hbool .zerohopEnabled (by simp [ConfigKey.name]) (hvalid .zerohopEnabled),
    hbool .dropEnabled (by simp [ConfigKey.name]) (hvalid .dropEnabled), hz,
    h.portnums (hvalid .dropPortnums), hd⟩

/-! ## The policy in the user's words -/

/-- `s` is an element of a list value; `None` has no elements. -/
def Listed (v : PyVal) (s : PyStr) : Prop := ∃ xs, v = .list xs ∧ .str s ∈ xs

/-- `None` or the empty list. -/
def IsEmptyList (v : PyVal) : Prop := v = .none ∨ v = .list []

/-- The drop scope that `drop_channels` describes contains the channel. -/
def ScopeListed (cfg : Config) (channel : PyStr) : Prop :=
  IsEmptyList (cfg.value .dropChannels) ∨
    (cfg.value .dropChannels = .str inheritZerohopChannels ∧
      Listed (cfg.value .zerohopChannels) channel) ∨
    Listed (cfg.value .dropChannels) channel

/-- The functions on `config` decide what the values of `cfg` say. -/
structure PolicyMeans (cfg config : Config) : Prop where
  zerohop : ∀ channel, ∃ b, shouldZerohop config channel = .ok b ∧
    (b = true ↔ cfg.value .zerohopEnabled = .bool true ∧
      Listed (cfg.value .zerohopChannels) channel)
  drop : ∀ channel portnum, ∃ b, shouldDrop config channel portnum = .ok b ∧
    (b = true ↔ cfg.value .dropEnabled = .bool true ∧
      (∃ pn, portnum = some pn ∧ Listed (cfg.value .dropPortnums) pn) ∧
      ScopeListed cfg channel)
  /-- An inherited scope is never wider than the zero-hop list. -/
  inherited : cfg.value .dropChannels = .str inheritZerohopChannels →
    ∀ channel portnum, shouldDrop config channel portnum = .ok true →
      Listed (cfg.value .zerohopChannels) channel
  inheritedEmpty : cfg.value .dropChannels = .str inheritZerohopChannels →
    IsEmptyList (cfg.value .zerohopChannels) →
    ∀ channel portnum, shouldDrop config channel portnum = .ok false
  explicitEmpty : cfg.value .dropChannels = .list [] →
    cfg.value .dropEnabled = .bool true →
    ∀ channel pn, Listed (cfg.value .dropPortnums) pn →
      shouldDrop config channel (some pn) = .ok true
  scopeText : ∃ text, formatDropChannelScope config = .ok text ∧
    (text = py "all channels" ↔ IsEmptyList (cfg.value .dropChannels))

theorem mem_nameSet_iff {v : PyVal} {s : PyStr} : s ∈ nameSet v ↔ Listed v s := by
  cases v with
  | list xs =>
      simp only [nameSet, List.mem_dedup, List.mem_filterMap, PyVal.asStr_eq_some,
        Listed, PyVal.list.injEq]
      constructor
      · rintro ⟨v, hv, rfl⟩
        exact ⟨xs, rfl, hv⟩
      · rintro ⟨xs, rfl, hv⟩
        exact ⟨_, hv, rfl⟩
  | _ => simp [nameSet, Listed]

theorem truthy_iff_of_bool {v : PyVal} (h : ∃ b, v = .bool b) :
    v.truthy = true ↔ v = .bool true := by
  obtain ⟨b, rfl⟩ := h
  cases b <;> simp [PyVal.truthy]

/-- The resolved drop scope is unrestricted exactly for `None` and the empty
list. -/
theorem dropScope_eq_none_iff {host : ConfigHost} (zs : List PyStr) {v : PyVal}
    (h : InDomain host .dropChannels v) : dropScope zs v = none ↔ IsEmptyList v := by
  rcases h with rfl | rfl | ⟨names, rfl⟩
  · simp [dropScope, IsEmptyList]
  · simp [dropScope, IsEmptyList]
  · cases names <;> simp [dropScope, IsEmptyList]

theorem not_listed_of_isEmptyList {v : PyVal} (h : IsEmptyList v) (s : PyStr) :
    ¬ Listed v s := by
  rcases h with rfl | rfl <;> simp [Listed]

/-- The resolved drop scope contains the channels that the values list. -/
theorem inScope_ofValues_iff {host : ConfigHost} {cfg : Config} {channel : PyStr}
    (h : InDomain host .dropChannels (cfg.value .dropChannels)) :
    (Policy.ofValues cfg).inScope channel = true ↔ ScopeListed cfg channel := by
  have hscope : (Policy.ofValues cfg).inScope channel = true ↔
      ∀ names, dropScope (nameSet (cfg.value .zerohopChannels))
        (cfg.value .dropChannels) = some names → channel ∈ names := by
    simp [Policy.inScope, Policy.ofValues, Option.all_eq_true]
  rw [hscope]
  by_cases hempty : IsEmptyList (cfg.value .dropChannels)
  · rw [(dropScope_eq_none_iff _ h).mpr hempty]
    simp [ScopeListed, hempty]
  · rcases h with h | h | ⟨names, h⟩
    · exact absurd (Or.inl h) hempty
    · simp [h, dropScope, ScopeListed, mem_nameSet_iff, IsEmptyList, Listed]
    · have hne : names ≠ [] := by
        rintro rfl
        exact hempty (Or.inr h)
      have hsome : dropScope (nameSet (cfg.value .zerohopChannels))
          (cfg.value .dropChannels) = some (nameSet (.list (names.map .str))) := by
        simp [h, dropScope, hne]
      rw [hsome, ScopeListed, ← mem_nameSet_iff (v := cfg.value .dropChannels)]
      simp [h, IsEmptyList, hne]

/-- `_format_drop_channel_scope` renders the policy's scope. -/
theorem Config.HasPolicy.formatDropChannelScope {config : Config} {p : Policy}
    (h : config.HasPolicy p) :
    formatDropChannelScope config = .ok (match p.dropScope with
      | none => py "all channels"
      | some names =>
          py "channels [" ++ PyStr.join (py ", ") (sortedNames names) ++ py "]") := by
  rw [Ports.formatDropChannelScope, h.dropScope]
  cases p.dropScope with
  | none => rfl
  | some names =>
      have hall : (names.map PyVal.str).all PyVal.isStr = true := by
        simp [PyVal.isStr, PyVal.asStr]
      have hstr : (names.map PyVal.str).filterMap PyVal.asStr = names := by
        rw [List.filterMap_map]
        exact List.filterMap_some
      simp [scopeVal, PyVal.strSet, sortedStrings, hall, hstr]

/-- A resolved policy zero-hops the channels that the values list. -/
theorem zerohops_ofValues_iff {cfg : Config} {channel : PyStr}
    (h : ∃ b, cfg.value .zerohopEnabled = .bool b) :
    (Policy.ofValues cfg).zerohops channel = true ↔
      cfg.value .zerohopEnabled = .bool true ∧
        Listed (cfg.value .zerohopChannels) channel := by
  rw [Policy.zerohops, Bool.and_eq_true, decide_eq_true_iff]
  exact and_congr (truthy_iff_of_bool h) mem_nameSet_iff

/-- A resolved policy denies the portnums that the values list, in the scope
that they describe. -/
theorem drops_ofValues_iff {host : ConfigHost} {cfg : Config} {channel : PyStr}
    {portnum : Option PyStr} (h : ∃ b, cfg.value .dropEnabled = .bool b)
    (hscope : InDomain host .dropChannels (cfg.value .dropChannels)) :
    (Policy.ofValues cfg).drops channel portnum = true ↔
      cfg.value .dropEnabled = .bool true ∧
        (∃ pn, portnum = some pn ∧ Listed (cfg.value .dropPortnums) pn) ∧
        ScopeListed cfg channel := by
  have hpn : portnum.any (fun pn => decide (pn ∈ (Policy.ofValues cfg).dropPortnums)) =
      true ↔ ∃ pn, portnum = some pn ∧ Listed (cfg.value .dropPortnums) pn := by
    rw [Option.any_eq_true]
    exact exists_congr fun pn =>
      and_congr_right' (decide_eq_true_iff.trans mem_nameSet_iff)
  rw [Policy.drops, Bool.and_eq_true, Bool.and_eq_true, hpn,
    inScope_ofValues_iff hscope, and_assoc]
  exact and_congr_left' (truthy_iff_of_bool h)

theorem channelsText_ne (names : PyStr) :
    py "channels [" ++ names ++ py "]" ≠ py "all channels" := by
  intro h
  have hhead : (py "channels [" ++ names ++ py "]").head? = some (PyChar.ofChar 'c') := rfl
  rw [h] at hhead
  exact absurd hhead (by decide)

/-- The resolved policy means what the user's values over the defaults say. -/
theorem loadConfig_policyMeans {host : ConfigHost} {configPath : Option PyStr}
    {user : List (PyStr × PyVal)} {source : PyStr} {config : Config}
    (hread : readUserConfig host configPath = .ok (user, source))
    (hload : loadConfig host configPath = .ok config) :
    PolicyMeans (overlay user) config := by
  obtain ⟨hvalid, hresolved⟩ := loadConfig_accepted hread hload
  have hp := hresolved.hasPolicy hvalid
  have hdrop : ∀ channel portnum,
      (Policy.ofValues (overlay user)).drops channel portnum = true ↔
        (overlay user).value .dropEnabled = .bool true ∧
          (∃ pn, portnum = some pn ∧ Listed ((overlay user).value .dropPortnums) pn) ∧
          ScopeListed (overlay user) channel :=
    fun _ _ => drops_ofValues_iff (hvalid .dropEnabled) (hvalid .dropChannels)
  have hinherited : (overlay user).value .dropChannels = .str inheritZerohopChannels →
      ∀ channel portnum, shouldDrop config channel portnum = .ok true →
        Listed ((overlay user).value .zerohopChannels) channel := by
    intro hsentinel channel portnum h
    rw [hp.shouldDrop, Except.ok.injEq, hdrop] at h
    rcases h.2.2 with hempty | ⟨-, hlisted⟩ | ⟨xs, hxs, -⟩
    · rcases hempty with he | he <;> simp [hsentinel] at he
    · exact hlisted
    · simp [hsentinel] at hxs
  refine ⟨fun channel => ⟨_, hp.shouldZerohop channel,
      zerohops_ofValues_iff (hvalid .zerohopEnabled)⟩,
    fun channel portnum => ⟨_, hp.shouldDrop channel portnum, hdrop channel portnum⟩,
    hinherited, ?_, ?_, ⟨_, hp.formatDropChannelScope, ?_⟩⟩
  · intro hsentinel hempty channel portnum
    rw [hp.shouldDrop, Except.ok.injEq, ← Bool.not_eq_true]
    intro h
    exact not_listed_of_isEmptyList hempty channel
      (hinherited hsentinel channel portnum (by rw [hp.shouldDrop, h]))
  · intro hempty henabled channel pn hpn
    rw [hp.shouldDrop, Except.ok.injEq, hdrop]
    exact ⟨henabled, ⟨pn, rfl, hpn⟩, Or.inl (Or.inr hempty)⟩
  · rw [← dropScope_eq_none_iff (nameSet ((overlay user).value .zerohopChannels))
      (hvalid .dropChannels)]
    change _ ↔ (Policy.ofValues (overlay user)).dropScope = none
    cases (Policy.ofValues (overlay user)).dropScope with
    | none => simp
    | some names => exact iff_of_false (channelsText_ne _) (by simp)

theorem exists_ok_of_isOk {ε α : Type} {r : Except ε α} (h : r.isOk = true) :
    ∃ a, r = .ok a := by
  cases r with
  | ok a => exact ⟨a, rfl⟩
  | error e => cases h

/-- Loading a mapping of known keys that is accepted gives its policy. -/
theorem exists_loaded (user : List (PyStr × PyVal)) {p : PyStr} (hpath : p ≠ [])
    (hknown : ∀ k ∈ Assoc.keys user, k ∈ Assoc.keys defaultEntries)
    (hok : (loadConfig (ConfigHost.ofMapping user) (some p)).isOk = true) :
    ∃ config, loadConfig (ConfigHost.ofMapping user) (some p) = .ok config ∧
      config.HasPolicy (Policy.ofValues (overlay user)) := by
  obtain ⟨config, hload⟩ := exists_ok_of_isOk hok
  obtain ⟨hvalid, hresolved⟩ :=
    loadConfig_accepted (readUserConfig_ofMapping hpath hknown) hload
  exact ⟨config, hload, hresolved.hasPolicy hvalid⟩

/-- A mapping that turns dropping on over an unrestricted scope is accepted,
and means it. -/
theorem loadConfig_policyMeans_unrestricted :
    let user := [(py "drop_enabled", PyVal.bool true),
      (py "drop_channels", PyVal.list []),
      (py "drop_portnums", PyVal.list [.str (py "RANGE_TEST_APP")])]
    ∃ config, loadConfig (ConfigHost.ofMapping user) (some (py "config.yaml")) =
        .ok config ∧ PolicyMeans (overlay user) config := by
  intro user
  obtain ⟨config, hload⟩ : ∃ config,
      loadConfig (ConfigHost.ofMapping user) (some (py "config.yaml")) = .ok config :=
    exists_ok_of_isOk (by decide +kernel)
  exact ⟨config, hload, loadConfig_policyMeans
    (readUserConfig_ofMapping (by decide) (by decide)) hload⟩

end Floodgate.Ports
