import Floodgate.Verified.Segments
import Floodgate.Ports.DropFilter
import Floodgate.Ports.LogText
import Floodgate.Ports.Startup

/-!
# What the startup lines tell

`_log_startup_policy` writes the policy for an operator to read.  It takes the raw lists
of the configuration, while the policy functions take the sets that were derived from
them, so that the two could part.

The reader below takes the texts of the lines apart again: the topic filter, the channels
that are zero-hopped, the portnums that are dropped and where, and the interval of the
stats.  The names of a list are written with a comma and a blank between them and without
quotes, so that a name with a comma in it reads as two.

## Main results

* `readNames_join`: names without a comma are read back.
* `startup_tells_policy`: what is read decides what the policy functions decide.
-/

namespace Floodgate.Ports

open Floodgate.Verified
open Floodgate.Verified.QuotedFields
open Floodgate.Verified.Segments (dropPrefix?_append dropSuffix?_append)

/-! ## The texts of the lines -/

section Text

variable (host : ConfigHost)

/-- What a conversion makes of an argument, if it does not raise; `%d` takes an integer. -/
def conversionText (conversion : PyChar) (value : PyVal) : Option PyStr :=
  if (value.reprFault host.reprDepth).isSome then none
  else if conversion = ch 's' then some (value.asStr.getD (host.reprText value))
  else if conversion = ch 'd' then
    match value with
    | .int n => some (intText n)
    | _ => none
  else none

/-- `msg % args`. -/
def fillText : PyStr → List PyVal → Option PyStr
  | [], [] => some []
  | [], _ :: _ => none
  | c :: cs, args =>
      if c = ch '%' then
        match cs, args with
        | conversion :: cs, value :: args => do
            return (← conversionText host conversion value) ++ (← fillText cs args)
        | _, _ => none
      else (c :: ·) <$> fillText cs args

/-- `LogRecord.getMessage`. -/
def LogLine.text (line : LogLine) : Option PyStr :=
  if line.args.isEmpty then some line.msg else fillText host line.msg line.args

variable {host}

theorem fillText_cons {c : PyChar} (h : c ≠ ch '%') (cs : PyStr) (args : List PyVal) :
    fillText host (c :: cs) args = (c :: ·) <$> fillText host cs args := by
  cases cs <;> cases args <;> simp [fillText, h]

theorem fillText_plain {msg : PyStr} (h : ch '%' ∉ msg) : fillText host msg [] = some msg := by
  induction msg with
  | nil => rfl
  | cons c cs ih =>
      rw [List.mem_cons, not_or] at h
      rw [fillText_cons (Ne.symm h.1), ih h.2]
      rfl

/-- The text up to the first placeholder, and what stands there. -/
theorem fillText_append {front : PyStr} (h : ch '%' ∉ front) {conversion : PyChar}
    {value : PyVal} {shown : PyStr} (hshown : conversionText host conversion value = some shown)
    (back : PyStr) (args : List PyVal) :
    fillText host (front ++ ch '%' :: conversion :: back) (value :: args) =
      (front ++ shown ++ ·) <$> fillText host back args := by
  induction front with
  | nil =>
      cases hback : fillText host back args <;> simp [fillText, hshown, hback]
  | cons c front ih =>
      rw [List.mem_cons, not_or] at h
      rw [List.cons_append, fillText_cons (Ne.symm h.1), ih h.2, Functor.map_map]
      rfl

theorem conversionText_str (s : PyStr) : conversionText host (ch 's') (.str s) = some s := by
  have hfault : (PyVal.str s).reprFault host.reprDepth = none := PyVal.reprFault_of_isStr rfl _
  unfold conversionText
  rw [hfault]
  rfl

theorem conversionText_int {n : Int} (h : PyVal.hugeInt n = false) :
    conversionText host (ch 'd') (.int n) = some (intText n) := by
  have hfault : (PyVal.int n).reprFault host.reprDepth = none := by
    simp only [PyVal.reprFault, h, Bool.false_eq_true, if_false]
  rw [conversionText, hfault, if_neg (by decide), if_neg (by decide), if_pos rfl]

/-- A line with one placeholder. -/
theorem text_of_one (host : ConfigHost) (level : LogLevel) (front back : PyStr)
    {conversion : PyChar} {value : PyVal} {shown : PyStr} (hfront : ch '%' ∉ front)
    (hback : ch '%' ∉ back) (hshown : conversionText host conversion value = some shown) :
    LogLine.text host ⟨level, front ++ ch '%' :: conversion :: back, [value]⟩ =
      some (front ++ shown ++ back) := by
  rw [LogLine.text]
  exact (fillText_append hfront hshown back []).trans (by rw [fillText_plain hback]; rfl)

end Text

/-! ## Reading the lines -/

/-- The names of a text that was joined. -/
def readNames (text : PyStr) : List PyStr :=
  if text = [] then []
  else
    match text.splitOn (ch ',') with
    | [] => []
    -- a name after the first has a blank in front of it
    | name :: names => name :: names.map List.tail

/-- The channels that the zero-hop line tells. -/
def readZerohop (text : PyStr) : Option (List PyStr) :=
  match text.dropPrefix? (py "Zerohop ENABLED — zero-hopping packets on: ") with
  | some names => some (readNames names)
  | none =>
      if text =
          py "Zerohop ENABLED — `zerohop_channels` is empty, no channels will be zero-hopped" ∨
          text = py "Zerohop DISABLED — packets will not be zero-hopped" then some []
      else none

/-- The channels of a drop scope; `none` for all of them. -/
def readScope (text : PyStr) : Option (Option (List PyStr)) :=
  if text = py "all channels" then some none
  else do
    let names ← (← text.dropPrefix? (py "channels [")).dropSuffix? (py "]")
    return some (readNames names)

/-- The portnums that the drop line tells, and the scope. -/
def readDrop (text : PyStr) : Option (List PyStr × Option (List PyStr)) :=
  match text.dropPrefix? (py "Drop ENABLED — dropping portnums [") with
  | some rest => do
      let (names, rest) := splitAtFirst (ch ']') rest
      return (readNames names, ← readScope (← rest.dropPrefix? (py " on ")))
  | none =>
      if text = py "Drop ENABLED but `drop_portnums` is empty — drop is a no-op" ∨
          text = py "Drop DISABLED" then some ([], none)
      else none

/-- The number of seconds that the stats line tells. -/
def readInterval (text : PyStr) : Option Nat := do
  let rest ← text.dropPrefix? (py "Stats will be logged every ")
  return readNumber (← rest.dropSuffix? (py " seconds"))

/-- What the startup lines tell. -/
structure StartupReport where
  topicFilter : PyStr
  zerohopChannels : List PyStr
  dropPortnums : List PyStr
  dropScope : Option (List PyStr)
  statsInterval : Nat

/-- The texts of the startup lines. -/
def readStartup : List PyStr → Option StartupReport
  | [topic, zerohop, drop, stats, _] => do
      let (portnums, scope) ← readDrop drop
      return ⟨← topic.dropPrefix? (py "Topic filter: "), ← readZerohop zerohop, portnums, scope,
        ← readInterval stats⟩
  | _ => none

/-- The policy that is told. -/
def StartupReport.policy (report : StartupReport) : Policy where
  zerohopEnabled := true
  zerohopChannels := report.zerohopChannels
  dropEnabled := true
  dropPortnums := report.dropPortnums
  dropScope := report.dropScope

/-! ## Names -/

/-- The name is told apart from others in a list. -/
def PlainName (name : PyStr) : Prop := name ≠ [] ∧ ch ',' ∉ name

instance (name : PyStr) : Decidable (PlainName name) := inferInstanceAs (Decidable (_ ∧ _))

/-- The blank behind a comma belongs to the name that follows it. -/
theorem join_eq_intercalate_comma (name : PyStr) (names : List PyStr) :
    PyStr.join (py ", ") (name :: names) =
      [ch ','].intercalate (name :: names.map (ch ' ' :: ·)) := by
  have hhead : ∀ (name : PyStr) (rest : List PyStr),
      [ch ','].intercalate ((ch ' ' :: name) :: rest) =
        ch ' ' :: [ch ','].intercalate (name :: rest) := by
    rintro name (_ | ⟨name', rest⟩) <;> simp [List.intercalate_cons_cons]
  rw [PyStr.join_eq_intercalate]
  induction names generalizing name with
  | nil => simp
  | cons name' names ih =>
      have hcomma : py ", " = [ch ',', ch ' '] := rfl
      rw [List.map_cons, List.intercalate_cons_cons, List.intercalate_cons_cons, ih, hhead,
        hcomma]
      simp

/-- Names without a comma are read back. -/
theorem readNames_join {names : List PyStr} (h : ∀ name ∈ names, PlainName name) :
    readNames (PyStr.join (py ", ") names) = names := by
  cases names with
  | nil => rfl
  | cons name names =>
      obtain ⟨⟨hne, hcomma⟩, hnames⟩ := List.forall_mem_cons.mp h
      have hsplit : (PyStr.join (py ", ") (name :: names)).splitOn (ch ',') =
          name :: names.map (ch ' ' :: ·) := by
        refine Segments.splitOn_eq_iff.mpr
          ⟨List.cons_ne_nil _ _, ?_, (join_eq_intercalate_comma name names).symm⟩
        refine List.forall_mem_cons.mpr ⟨hcomma, fun segment hsegment => ?_⟩
        obtain ⟨name', hname', rfl⟩ := List.mem_map.mp hsegment
        rw [List.mem_cons, not_or]
        exact ⟨by decide, (hnames name' hname').2⟩
      have htext : PyStr.join (py ", ") (name :: names) ≠ [] := by
        intro hnil
        rw [hnil, List.splitOn_nil] at hsplit
        exact hne (List.cons.inj hsplit).1.symm
      simp [readNames, htext, hsplit, List.map_map, Function.comp_def]

/-- Two lists with one text. -/
example : PyStr.join (py ", ") [py "a, b"] = PyStr.join (py ", ") [py "a", py "b"] := by decide

theorem Config.exists_getOrEmpty {config : Config} {key : PyStr} {v : PyVal}
    (hget : config.get? key = some v) (h : IsStringList v) :
    ∃ names : List PyStr, config.getOrEmpty key = .list (names.map .str) ∧
      ∀ name, name ∈ names ↔ Listed v name := by
  rcases h with rfl | ⟨names, rfl⟩
  · refine ⟨[], ?_, by simp [Listed]⟩
    simp [getOrEmpty, hget, PyVal.truthy]
  · refine ⟨names, ?_, by simp [Listed]⟩
    cases names <;> simp [getOrEmpty, hget, PyVal.truthy]

/-! ## What the lines tell -/

/-- The zero-hopped channels of a report are those of a policy. -/
theorem StartupReport.zerohops_policy {report : StartupReport} {p : Policy}
    (h : ∀ name, name ∈ report.zerohopChannels ↔
      p.zerohopEnabled = true ∧ name ∈ p.zerohopChannels) (channel : PyStr) :
    report.policy.zerohops channel = p.zerohops channel := by
  rw [Bool.eq_iff_iff]
  simp only [policy, Policy.zerohops, Bool.true_and, Bool.and_eq_true, decide_eq_true_iff, h]

/-- The drop filter of a report is that of a policy.  The scope is told only when there
is something to drop. -/
theorem StartupReport.drops_policy {report : StartupReport} {p : Policy}
    (h : ∀ name, name ∈ report.dropPortnums ↔ p.dropEnabled = true ∧ name ∈ p.dropPortnums)
    (hscope : report.dropPortnums ≠ [] → ∀ channel,
      report.policy.inScope channel = p.inScope channel)
    (channel : PyStr) (portnum : Option PyStr) :
    report.policy.drops channel portnum = p.drops channel portnum := by
  cases portnum with
  | none => simp [Policy.drops]
  | some pn =>
      rw [Bool.eq_iff_iff]
      simp only [Policy.drops, Option.any_some, Bool.and_eq_true, decide_eq_true_iff, ← h]
      refine Iff.trans (and_congr_left' (and_iff_right rfl)) (and_congr_right fun hmem => ?_)
      rw [hscope (List.ne_nil_of_mem hmem)]

section Lines

variable {config : Config} {p : Policy} {v : PyVal}

/-- The zero-hop line tells the channels that packets are zero-hopped on. -/
theorem exists_zerohopLine (host : ConfigHost) (hp : config.HasPolicy p)
    (hget : config.get? (py "zerohop_channels") = some v) (h : IsStringList v)
    (hset : ∀ name, name ∈ p.zerohopChannels ↔ Listed v name)
    (hplain : ∀ name, Listed v name → PlainName name) :
    ∃ line text names, zerohopLine config = .ok line ∧ line.text host = some text ∧
      readZerohop text = some names ∧
      ∀ name, name ∈ names ↔ p.zerohopEnabled = true ∧ name ∈ p.zerohopChannels := by
  obtain ⟨names, hnames, hlisted⟩ := Config.exists_getOrEmpty hget h
  simp only [hset]
  have henabled : config.getTruthy (py "zerohop_enabled") true = p.zerohopEnabled := by
    rw [Config.getTruthy, hp.zerohopEnabled]
    rfl
  simp only [zerohopLine, henabled, hnames, joinValue, joinItems_map_str]
  cases p.zerohopEnabled with
  | false => exact ⟨_, _, [], rfl, rfl, by decide, by simp⟩
  | true =>
      cases names with
      | nil => exact ⟨_, _, [], rfl, rfl, by decide, by simpa using hlisted⟩
      | cons name names =>
          have htext := text_of_one host .info
            (py "Zerohop ENABLED — zero-hopping packets on: ") [] (by decide) (by decide)
            (conversionText_str (PyStr.join (py ", ") (name :: names)))
          rw [List.append_nil] at htext
          refine ⟨_, _, name :: names, rfl, htext, ?_, by simpa using hlisted⟩
          rw [readZerohop, dropPrefix?_append]
          exact congrArg some (readNames_join fun n hn => hplain n ((hlisted n).mp hn))

theorem readScope_some {names : List PyStr} (hplain : ∀ name ∈ names, PlainName name) :
    readScope (py "channels [" ++ PyStr.join (py ", ") names ++ py "]") = some (some names) := by
  have hopen : py "channels [" ++ PyStr.join (py ", ") names ++ py "]" =
      py "channels [" ++ (PyStr.join (py ", ") names ++ py "]") := List.append_assoc _ _ _
  rw [readScope, if_neg (channelsText_ne _), hopen, dropPrefix?_append]
  simp only [bind, Option.bind, dropSuffix?_append, readNames_join hplain]
  rfl

/-- The text of the drop line, and what is read from it. -/
theorem readDrop_text (host : ConfigHost) {portnums : List PyStr} {scopeText : PyStr}
    {scope : Option (List PyStr)}
    (hplain : ∀ name ∈ portnums, PlainName name ∧ ch ']' ∉ name)
    (hscope : readScope scopeText = some scope) :
    ∃ text, LogLine.text host ⟨.info, py "Drop ENABLED — dropping portnums [%s] on %s",
        [.str (PyStr.join (py ", ") portnums), .str scopeText]⟩ = some text ∧
      readDrop text = some (portnums, scope) := by
  have hbracket : ch ']' ∉ PyStr.join (py ", ") portnums := by
    intro hmem
    rcases PyStr.mem_join hmem with hsep | ⟨name, hname, hc⟩
    · exact absurd hsep (by decide)
    · exact (hplain name hname).2 hc
  have hscopeText : fillText host (py "] on %s") [.str scopeText] =
      some (py "] on " ++ scopeText) := by
    have hmsg : py "] on %s" = py "] on " ++ ch '%' :: ch 's' :: [] := rfl
    rw [hmsg, fillText_append (by decide) (conversionText_str scopeText)]
    simp [fillText]
  have hmsg : py "Drop ENABLED — dropping portnums [%s] on %s" =
      py "Drop ENABLED — dropping portnums [" ++ ch '%' :: ch 's' :: py "] on %s" := rfl
  refine ⟨py "Drop ENABLED — dropping portnums [" ++ PyStr.join (py ", ") portnums ++
    (py "] on " ++ scopeText), ?_, ?_⟩
  · rw [LogLine.text, hmsg, fillText_append (by decide) (conversionText_str _), hscopeText]
    rfl
  · have hsplit : splitAtFirst (ch ']')
        (PyStr.join (py ", ") portnums ++ ch ']' :: (py " on " ++ scopeText)) =
        (PyStr.join (py ", ") portnums, py " on " ++ scopeText) :=
      splitAtFirst_append hbracket _
    have hclose : py "] on " ++ scopeText = ch ']' :: (py " on " ++ scopeText) := rfl
    rw [readDrop, List.append_assoc, dropPrefix?_append, hclose]
    simp only [hsplit, dropPrefix?_append, hscope, Option.bind_eq_bind, Option.bind_some,
      readNames_join fun name hname => (hplain name hname).1]
    rfl

/-- The scope that the policy has is written, and read back. -/
theorem exists_scopeText (hp : config.HasPolicy p)
    (hplain : ∀ names, p.dropScope = some names → ∀ name ∈ names, PlainName name) :
    ∃ text scope, formatDropChannelScope config = .ok text ∧ readScope text = some scope ∧
      ∀ channel, scope.all (fun names => decide (channel ∈ names)) = p.inScope channel := by
  have hformat := hp.formatDropChannelScope
  cases hscope : p.dropScope with
  | none =>
      rw [hscope] at hformat
      exact ⟨_, none, hformat, if_pos rfl, fun channel => by simp [Policy.inScope, hscope]⟩
  | some names =>
      rw [hscope] at hformat
      refine ⟨_, some (sortedNames names), hformat, readScope_some fun name hname => ?_,
        fun channel => by simp [Policy.inScope, hscope, sortedNames]⟩
      exact hplain names hscope name (List.mem_mergeSort.mp hname)

/-- The drop line tells the portnums that are dropped, and where they are. -/
theorem exists_dropLine (host : ConfigHost) (hp : config.HasPolicy p)
    (hget : config.get? (py "drop_portnums") = some v) (h : IsStringList v)
    (hset : ∀ name, name ∈ p.dropPortnums ↔ Listed v name)
    (hplain : ∀ name, Listed v name → PlainName name ∧ ch ']' ∉ name)
    (hscope : ∀ names, p.dropScope = some names → ∀ name ∈ names, PlainName name) :
    ∃ line text portnums scope, dropLine config = .ok line ∧ line.text host = some text ∧
      readDrop text = some (portnums, scope) ∧
      (∀ name, name ∈ portnums ↔ p.dropEnabled = true ∧ name ∈ p.dropPortnums) ∧
      (portnums ≠ [] → ∀ channel,
        scope.all (fun names => decide (channel ∈ names)) = p.inScope channel) := by
  obtain ⟨names, hnames, hlisted⟩ := Config.exists_getOrEmpty hget h
  simp only [hset]
  simp only [dropLine, hp.getTruthy_dropEnabled, hnames]
  cases p.dropEnabled with
  | false => exact ⟨_, _, [], none, rfl, rfl, by decide, by simp, fun h => absurd rfl h⟩
  | true =>
      cases names with
      | nil =>
          exact ⟨_, _, [], none, rfl, rfl, by decide, by simpa using hlisted,
            fun h => absurd rfl h⟩
      | cons name names =>
          have hportnums : ∀ n ∈ name :: names, PlainName n ∧ ch ']' ∉ n :=
            fun n hn => hplain n ((hlisted n).mp hn)
          have hjoin : joinValue (.list ((name :: names).map .str)) =
              .ok (PyStr.join (py ", ") (name :: names)) := by
            simp only [joinValue, joinItems_map_str]
            rfl
          obtain ⟨scopeText, scope, hformat, hread, hin⟩ := exists_scopeText hp hscope
          obtain ⟨text, htext, hdrop⟩ := readDrop_text host hportnums hread
          refine ⟨_, text, name :: names, scope, ?_, htext, hdrop, by simpa using hlisted,
            fun _ => hin⟩
          simp only [hformat, hjoin]
          rfl

/-- The texts of a start, from those of the zero-hop line and the drop line. -/
theorem exists_startupTexts (host : ConfigHost) {filter ztext dtext : PyStr} {interval : Nat}
    {zline dline : LogLine} (hzline : zerohopLine config = .ok zline)
    (hdline : dropLine config = .ok dline) (hztext : zline.text host = some ztext)
    (hdtext : dline.text host = some dtext)
    (htopic : config.get? (py "topic_filter") = some (.str filter))
    (hinterval : config.get? (py "stats_interval_s") = some (.int interval))
    (hdigits : PyVal.hugeInt interval = false) :
    ∃ lines last, logStartupPolicy config = .ok lines ∧
      lines.mapM (LogLine.text host) = some [py "Topic filter: " ++ filter, ztext, dtext,
        py "Stats will be logged every " ++ intText interval ++ py " seconds", last] := by
  have htext : LogLine.text host ⟨.info, py "Topic filter: %s", [.str filter]⟩ =
      some (py "Topic filter: " ++ filter) := by
    have hone := text_of_one host .info (py "Topic filter: ") [] (by decide) (by decide)
      (conversionText_str filter)
    rwa [List.append_nil] at hone
  have hstats : LogLine.text host
      ⟨.info, py "Stats will be logged every %d seconds", [.int interval]⟩ =
      some (py "Stats will be logged every " ++ intText interval ++ py " seconds") :=
    text_of_one host .info (py "Stats will be logged every ") (py " seconds") (by decide)
      (by decide) (conversionText_int hdigits)
  obtain ⟨last, hargs, hlines⟩ : ∃ last : LogLine, last.args = [] ∧ logStartupPolicy config =
      .ok [⟨.info, py "Topic filter: %s", [.str filter]⟩, zline, dline,
        ⟨.info, py "Stats will be logged every %d seconds", [.int interval]⟩, last] := by
    rw [logStartupPolicy, hzline, hdline, htopic, hinterval]
    refine ⟨_, ?_, rfl⟩
    rfl
  have hlast : last.text host = some last.msg := by
    rw [LogLine.text, hargs]
    rfl
  refine ⟨_, last.msg, hlines, ?_⟩
  simp only [List.mapM_cons, htext, hztext, hdtext, hstats, hlast]
  rfl

theorem readInterval_text (n : Nat) :
    readInterval (py "Stats will be logged every " ++ intText n ++ py " seconds") = some n := by
  rw [readInterval, List.append_assoc, dropPrefix?_append]
  simp only [Option.bind_eq_bind, Option.bind_some, dropSuffix?_append, readNumber_intText]
  rfl

end Lines

/-- The names in the lists of a user are told apart. -/
structure PlainlyNamed (cfg : Config) : Prop where
  channels : ∀ name, Listed (cfg.value .zerohopChannels) name ∨
    Listed (cfg.value .dropChannels) name → PlainName name
  portnums : ∀ name, Listed (cfg.value .dropPortnums) name → PlainName name ∧ ch ']' ∉ name

/-- A scope has the names of one of the lists. -/
theorem listed_of_dropScope {host : ConfigHost} {cfg : Config} {names : List PyStr}
    {name : PyStr} (hvalid : InDomain host .dropChannels (cfg.value .dropChannels))
    (hnames : (Policy.ofValues cfg).dropScope = some names) (hname : name ∈ names) :
    Listed (cfg.value .zerohopChannels) name ∨ Listed (cfg.value .dropChannels) name := by
  have hin : ScopeListed cfg name := by
    rw [← inScope_ofValues_iff hvalid, Policy.inScope, hnames]
    simpa using hname
  rcases hin with hempty | ⟨-, hlisted⟩ | hlisted
  · rw [← dropScope_eq_none_iff (nameSet (cfg.value .zerohopChannels)) hvalid] at hempty
    cases hempty.symm.trans hnames
  · exact Or.inl hlisted
  · exact Or.inr hlisted

/-- What the lines of a start tell is what floodgate does with its configuration: the
topic filter is the one that EMQX is given, the interval is the one that is waited for, and
the channels and portnums that are told are those that the policy functions decide by.  An
interval that is too long to print would leave its line out. -/
theorem startup_tells_policy {host : ConfigHost} {configPath : Option PyStr} {verbose : Bool}
    {user : List (PyStr × PyVal)} {source : PyStr} {config : Config}
    (hread : readUserConfig host configPath = .ok (user, source))
    (hserves : main host configPath verbose = .serves config)
    (hplain : PlainlyNamed (overlay user))
    (hdigits : ∀ n, (overlay user).value .statsIntervalS = .int n → PyVal.hugeInt n = false) :
    ∃ lines texts report, logStartupPolicy config = .ok lines ∧
      lines.mapM (LogLine.text host) = some texts ∧ readStartup texts = some report ∧
      (∀ hooks, onProviderLoaded config = some hooks →
        hooks = [⟨py "message.publish", [report.topicFilter]⟩]) ∧
      config.get? (py "stats_interval_s") = some (.int report.statsInterval) ∧
      (∀ channel, shouldZerohop config channel = .ok (report.policy.zerohops channel)) ∧
      ∀ channel portnum,
        shouldDrop config channel portnum = .ok (report.policy.drops channel portnum) := by
  obtain ⟨loaded, hload, hsame⟩ := exists_loadConfig_of_serves hserves
  obtain ⟨hvalid, hresolved⟩ := loadConfig_accepted hread hload
  have hp := (hresolved.hasPolicy hvalid).of_get?_eq hsame
  have hget : ∀ key : ConfigKey, key.name ∉ writtenKeys →
      config.get? key.name = some ((overlay user).value key) := by
    intro key hkey
    have hlevel : py "log_level" ≠ key.name := fun h => hkey (h ▸ by decide)
    rw [hsame _ hlevel, hresolved.untouched _ hkey, get?_overlay]
  have hportnums : IsStringList ((overlay user).value .dropPortnums) := by
    rcases hvalid .dropPortnums with h | ⟨names, h, -⟩
    · exact Or.inl h
    · exact Or.inr ⟨names, h⟩
  obtain ⟨zline, ztext, channels, hzline, hztext, hzread, hchannels⟩ :=
    exists_zerohopLine host hp (hget .zerohopChannels (by simp [ConfigKey.name]))
      (hvalid .zerohopChannels) (fun _ => mem_nameSet_iff)
      fun name hname => hplain.channels name (Or.inl hname)
  obtain ⟨dline, dtext, portnums, scope, hdline, hdtext, hdread, hdropped, hscope⟩ :=
    exists_dropLine host hp (hget .dropPortnums (by simp [ConfigKey.name])) hportnums
      (fun _ => mem_nameSet_iff) hplain.portnums fun names hnames name hname =>
        hplain.channels name (listed_of_dropScope (hvalid .dropChannels) hnames hname)
  obtain ⟨filter, hfilter, -⟩ := hvalid .topicFilter
  have htopic : config.get? (py "topic_filter") = some (.str filter) :=
    (hget .topicFilter (by simp [ConfigKey.name])).trans (congrArg _ hfilter)
  obtain ⟨n, hn, hpos⟩ := hvalid .statsIntervalS
  obtain ⟨interval, rfl⟩ := Int.eq_ofNat_of_zero_le (by omega : 0 ≤ n)
  have hinterval : config.get? (py "stats_interval_s") = some (.int interval) :=
    (hget .statsIntervalS (by simp [ConfigKey.name])).trans (congrArg _ hn)
  obtain ⟨lines, last, hlines, htexts⟩ :=
    exists_startupTexts host hzline hdline hztext hdtext htopic hinterval (hdigits _ hn)
  refine ⟨lines, _, ⟨filter, channels, portnums, scope, interval⟩, hlines, htexts, ?_, ?_,
    hinterval, fun channel => ?_, fun channel portnum => ?_⟩
  · simp only [readStartup, hdread, hzread, dropPrefix?_append, readInterval_text,
      Option.bind_eq_bind, Option.bind_some]
    rfl
  · intro hooks hhooks
    simp only [onProviderLoaded, htopic, Option.getD_some] at hhooks
    split at hhooks
    · cases hhooks
    · exact (Option.some.inj hhooks).symm
  · rw [hp.shouldZerohop, StartupReport.zerohops_policy hchannels]
  · rw [hp.shouldDrop, StartupReport.drops_policy hdropped hscope]

theorem plainlyNamed_dropTexts : PlainlyNamed (overlay dropTexts) := by
  have hchannels : ∀ name ∈ nameSet ((overlay dropTexts).value .zerohopChannels) ++
      nameSet ((overlay dropTexts).value .dropChannels), PlainName name := by decide
  have hportnums : ∀ name ∈ nameSet ((overlay dropTexts).value .dropPortnums),
      PlainName name ∧ ch ']' ∉ name := by decide
  refine ⟨fun name h => hchannels name ?_, fun name h => hportnums name (mem_nameSet_iff.mpr h)⟩
  rw [List.mem_append]
  exact h.imp mem_nameSet_iff.mpr mem_nameSet_iff.mpr

/-- The start with a mapping that drops texts. -/
theorem startup_tells_policy_dropTexts :
    ∃ config lines texts report, logStartupPolicy config = .ok lines ∧
      lines.mapM (LogLine.text (ConfigHost.ofMapping dropTexts)) = some texts ∧
      readStartup texts = some report ∧
      shouldDrop config (py "LongFast") (some (py "TEXT_MESSAGE_APP")) =
        .ok (report.policy.drops (py "LongFast") (some (py "TEXT_MESSAGE_APP"))) := by
  obtain ⟨config, hload, -⟩ := demoMessage_setup (.int 7) rfl "7"
  have hserves : main (ConfigHost.ofMapping dropTexts) (some (py "config.yaml")) false =
      .serves config := by
    rw [main, hload]
    rfl
  obtain ⟨lines, texts, report, hlines, htexts, hreport, -, -, -, hdrop⟩ :=
    startup_tells_policy (readUserConfig_ofMapping (by decide) (by decide)) hserves
      plainlyNamed_dropTexts fun n hn => by
        obtain rfl : 60 = n := PyVal.int.inj hn
        exact hugeInt_eq_false (k := 2) (by decide) (by decide)
  exact ⟨config, lines, texts, report, hlines, htexts, hreport, hdrop _ _⟩

end Floodgate.Ports
