import Floodgate.Verified.Workers
import Floodgate.Ports.Accounting
import Floodgate.Ports.Conservation
import Floodgate.Ports.Health
import Floodgate.Ports.PlainRecords

/-!
# The running service

Worker threads process messages, the reporter drains the counters and logs what it
drained, and the health server answers requests, all at the same time.  A worker touches
what it shares with the others only when it counts an outcome and when it logs a record;
these accesses of different threads come in any order, and so do the events of the other
threads.  The clock stands for all that is not the program's.

The log handler gives up a record with a value that it cannot print, and raises on one that
is nested too deep; the catch-all then counts and logs an error on top of the outcome.

## Main results

* `run_eq_accesses`: a call alone does what its accesses do.
* `service_log_balances`: the text of the log against the counters.
* `service_health`: the answers of the health endpoint against the messages.
-/

namespace Floodgate.Ports

open Floodgate.Verified
open Floodgate.Verified.Transition
open Floodgate.Verified.Workers (Pool Label started performed answered)

/-! ## What a worker does -/

/-- An access of a worker to what the threads share. -/
inductive Access where
  /-- `stats.inc(counter)`. -/
  | count (counter : Counter)
  /-- `logger.info(...)` or `logger.warning(...)` with a message record. -/
  | log (record : MessageRecord Json)

/-- An access, when nobody else is there. -/
def Access.perform (w : World) : Access → World
  | .count counter => w.count counter
  | .log record => w.emit record

/-- The accesses of a call, in order.  A record that is not formatted, or that the log
handler raises on, is an error on top of the outcome. -/
def Call.accesses (rt : Runtime) (call : Call) : List Access :=
  match judge rt call.topic call.payload call.config with
  | .error _ => [.count .errors]
  | .ok v =>
      match v.record with
      | .error _ => [.count v.site.counter, .count .errors]
      | .ok none => [.count v.site.counter]
      | .ok (some record) => [.count v.site.counter, .log record]

/-- A call alone does what its accesses do. -/
theorem run_eq_accesses (rt : Runtime) (call : Call) (w : World) :
    (call.run rt w).2 = (call.accesses rt).foldl Access.perform w := by
  unfold Call.run Call.accesses
  split
  · next e hj => rw [processMessage_of_raised hj]; rfl
  · next v hj =>
    split
    · next e hrecord => rw [processMessage_of_unrendered hj hrecord]; rfl
    · next hrecord => rw [processMessage_of_rendered hj hrecord]; rfl
    · next record hrecord => rw [processMessage_of_rendered hj hrecord]; rfl

/-- The counter that stands for the lines of an outcome. -/
def Outcome.counter : Outcome → Counter
  | .zerohop => .zerohop
  | .passthru => .passthru
  | .noop => .noop
  | .dropped => .dropped
  | .warn => .errors

/-- The record of a verdict stands for what the verdict counts. -/
theorem counter_of_judged {rt : Runtime} {topic : PyStr} {payload : Bytes} {config : Config}
    {v : Verdict} (hj : Judged rt topic payload config v) {record : MessageRecord Json}
    (hrecord : v.record = .ok (some record)) : v.site.counter = record.outcome.counter := by
  cases hj with
  | skipped => cases hrecord
  | dropped =>
      obtain ⟨record', hrecord', hsome⟩ := map_eq_ok_iff.mp hrecord
      cases hsome
      rw [(droppedRecord_ok (handled_eq_ok_iff.mp hrecord').1).1]
      rfl
  | warn =>
      cases hrecord
      rfl
  | passthru =>
      obtain ⟨record', hrecord', hsome⟩ := map_eq_ok_iff.mp hrecord
      cases hsome
      rw [(packetRecord_ok (handled_eq_ok_iff.mp hrecord').1).1]
      rfl
  | noop =>
      obtain ⟨record', hrecord', hsome⟩ := map_eq_ok_iff.mp hrecord
      cases hsome
      rw [(packetRecord_ok (handled_eq_ok_iff.mp hrecord').1).1]
      rfl
  | zerohop =>
      obtain ⟨record', hrecord', hsome⟩ := map_eq_ok_iff.mp hrecord
      cases hsome
      rw [(packetRecord_ok (handled_eq_ok_iff.mp hrecord').1).1]
      rfl

/-- Only the verdict on a topic that is skipped has no record. -/
theorem skipped_of_judged {rt : Runtime} {topic : PyStr} {payload : Bytes} {config : Config}
    {v : Verdict} (hj : Judged rt topic payload config v) (hrecord : v.record = .ok none) :
    v.site = .skipped := by
  cases hj with
  | skipped => rfl
  | warn => cases hrecord
  | dropped | passthru | noop | zerohop =>
      obtain ⟨record, -, hsome⟩ := map_eq_ok_iff.mp hrecord
      cases hsome

/-- The access counts what an outcome stands for. -/
def Access.counts (k : Counter) : Access → Bool
  | .count counter => decide (counter = k)
  | .log _ => false

/-- The access logs a record of an outcome that has a line. -/
def Access.logs (h : LogHandler) (outcome : Outcome) : Access → Bool
  | .count _ => false
  | .log record => decide (record.outcome = outcome ∧ record.fault h.fault = none)

/-- How often a call counts what an outcome stands for without a line of the log: when
something was raised, or the record has a value that is not rendered. -/
def Call.unlogged (rt : Runtime) (outcome : Outcome) (call : Call) : Nat :=
  match judge rt call.topic call.payload call.config with
  | .error _ => if outcome = .warn then 1 else 0
  | .ok v =>
      match v.record with
      | .error _ =>
          (if v.site.counter = outcome.counter then 1 else 0) + if outcome = .warn then 1 else 0
      | .ok none => 0
      | .ok (some record) =>
          if record.outcome = outcome ∧ record.fault rt.log.fault ≠ none then 1 else 0

theorem Outcome.counter_injective : Function.Injective Outcome.counter := by
  intro o o' h
  cases o <;> cases o' <;> first | rfl | cases h

theorem errors_eq_counter_iff (outcome : Outcome) :
    Counter.errors = outcome.counter ↔ outcome = .warn := by
  cases outcome <;> decide

/-- The accesses of a call, and what it counts without a line, in each of the ways that a
call can end. -/
inductive CallEnds (h : LogHandler) : List Access → (Outcome → Nat) → Prop
  | raised : CallEnds h [.count .errors] fun outcome => if outcome = .warn then 1 else 0
  | unrendered (counter : Counter) : CallEnds h [.count counter, .count .errors] fun outcome =>
      (if counter = outcome.counter then 1 else 0) + if outcome = .warn then 1 else 0
  | skipped : CallEnds h [.count .skipped] fun _ => 0
  | logged (record : MessageRecord Json) :
      CallEnds h [.count record.outcome.counter, .log record] fun outcome =>
        if record.outcome = outcome ∧ record.fault h.fault ≠ none then 1 else 0

theorem callEnds (rt : Runtime) (call : Call) :
    CallEnds rt.log (call.accesses rt) fun outcome => call.unlogged rt outcome := by
  unfold Call.accesses Call.unlogged
  cases hj : judge rt call.topic call.payload call.config with
  | error e => exact .raised
  | ok v =>
      dsimp only
      cases hrecord : v.record with
      | error e => exact .unrendered v.site.counter
      | ok record =>
          cases record with
          | none =>
              dsimp only
              rw [skipped_of_judged (judged_of_judge hj) hrecord]
              exact .skipped
          | some record =>
              dsimp only
              rw [counter_of_judged (judged_of_judge hj) hrecord]
              exact .logged record

/-- What a call counts of an outcome has a line, but for what was raised. -/
theorem countP_accesses (rt : Runtime) (call : Call) (outcome : Outcome) :
    (call.accesses rt).countP (Access.counts outcome.counter) =
      (call.accesses rt).countP (Access.logs rt.log outcome) + call.unlogged rt outcome := by
  have hends := callEnds rt call
  generalize call.accesses rt = accesses at hends ⊢
  have hunlogged : ∀ f : Outcome → Nat, CallEnds rt.log accesses f →
      accesses.countP (Access.counts outcome.counter) =
        accesses.countP (Access.logs rt.log outcome) + f outcome := by
    intro f h
    cases h with
    | raised => simp [Access.counts, Access.logs, errors_eq_counter_iff, List.countP_cons]
    | unrendered counter =>
        simp [Access.counts, Access.logs, errors_eq_counter_iff, List.countP_cons, add_comm]
    | skipped =>
        have hne : Counter.skipped ≠ outcome.counter := by cases outcome <;> decide
        simp [Access.counts, Access.logs, hne]
    | logged record =>
        by_cases hfault : record.fault rt.log.fault = none <;>
          simp [Access.counts, Access.logs, List.countP_cons, hfault,
            Outcome.counter_injective.eq_iff]
  exact hunlogged _ hends

/-- At no point has a call a line of an outcome that it has not counted. -/
theorem countP_logs_le (rt : Runtime) (call : Call) (outcome : Outcome) {part : List Access}
    (h : part <+: call.accesses rt) :
    part.countP (Access.logs rt.log outcome) ≤ part.countP (Access.counts outcome.counter) := by
  have hends := callEnds rt call
  generalize call.accesses rt = accesses at hends h
  generalize (fun outcome => call.unlogged rt outcome) = f at hends
  cases hends with
  | raised | unrendered | skipped =>
      have hnone : part.countP (Access.logs rt.log outcome) = 0 := by
        refine List.countP_eq_zero.mpr fun a ha => ?_
        have hmem := h.subset ha
        simp only [List.mem_cons, List.not_mem_nil, or_false] at hmem
        rcases hmem with rfl | rfl <;> exact Bool.false_ne_true
      rw [hnone]
      exact Nat.zero_le _
  | logged record =>
      rcases List.prefix_cons_iff.mp h with rfl | ⟨rest, rfl, hrest⟩
      · exact le_refl _
      · rcases List.prefix_cons_iff.mp hrest with rfl | ⟨last, rfl, hlast⟩
        · simp [Access.counts, Access.logs, List.countP_cons]
        · obtain rfl := List.prefix_nil.mp hlast
          by_cases hfault : record.fault rt.log.fault = none <;>
            simp [Access.counts, Access.logs, List.countP_cons, hfault,
              Outcome.counter_injective.eq_iff]

/-! ## The threads together -/

/-- What the threads share: the counters and the reporter, the clock, and the records
that were handed to the log. -/
structure Shared where
  sys : StatsSystem
  now : AscTime
  records : List (LogRecord)

/-- `threading.TIMEOUT_MAX`: on a longer interval, `stop_event.wait` raises instead of
waiting. -/
def timeoutMax : Nat := 9223372036

/-- What happens besides the workers. -/
inductive ServiceEvent where
  | tick (now : AscTime)
  /-- `stop_event.wait` returns in the reporter. -/
  | wake (stopped : Bool)
  /-- The reporter goes from `stats.reset()` to its next wait. -/
  | report
  /-- The health server answers a request. -/
  | get (path : PyStr) (resp : Except PyErr HttpResponse)
  /-- A record of any other logger call, with its traceback. -/
  | note (level : RecordLevel) (logger : LoggerName) (text : PlainText) (trace : List TraceLine)

section Service

variable (rt : Runtime) (C : JsonCodec) (statsLog : Bool) (interval : Nat)

/-- An access of a worker, among the other threads. -/
def Access.apply : Access → Shared → Shared
  | .count counter, s => { s with sys := s.sys.step statsLog (.inc 0 counter) }
  | .log record, s =>
      { s with
        records := s.records ++ [⟨s.now, record.outcome.level, .zerohop, .message record, []⟩] }

/-- The records of the reporter's next report. -/
def Shared.reported (s : Shared) : List (LogRecord) :=
  (s.sys.pending statsLog).map fun snap => ⟨s.now, .info, .exhookServer, .stats interval snap, []⟩

/-- What an event does to what the threads share. -/
inductive ServiceStep (s : Shared) : ServiceEvent → Shared → Prop
  | tick (now : AscTime) : ServiceStep s (.tick now) { s with now := now }
  | wake (stopped : Bool) (hwait : stopped = false → interval ≤ timeoutMax) :
      ServiceStep s (.wake stopped) { s with sys := s.sys.step statsLog (.wake stopped) }
  | report :
      ServiceStep s .report
        { s with
          sys := s.sys.step statsLog .report
          records := s.records ++ s.reported statsLog interval }
  | health :
      ServiceStep s (.get (py "/health") (doGet C (py "/health") s.sys.stats))
        { s with sys := s.sys.step statsLog .snapshot }
  | get {path : PyStr} (hpath : path ≠ py "/health") :
      ServiceStep s (.get path (doGet C path s.sys.stats)) s
  | note (level : RecordLevel) (logger : LoggerName) (text : PlainText)
      (trace : List TraceLine) :
      ServiceStep s (.note level logger text trace)
        { s with records := s.records ++ [⟨s.now, level, logger, .other text, trace⟩] }

/-- The service: its workers take the accesses of their calls. -/
def service (now : AscTime) : Pool Shared Call Access ServiceEvent where
  initial := ⟨.initial, now, []⟩
  plan := Call.accesses rt
  apply := Access.apply statsLog
  event := ServiceStep C statsLog interval

end Service

/-! ## The counters of a run -/

/-- A step of the service, as events of the system of counters. -/
def counterEvents : Label Call Access ServiceEvent → List Event
  | .perform (.count counter) => [.inc 0 counter]
  | .event (.wake stopped) => [.wake stopped]
  | .event .report => [.report]
  | .event (.get path _) => if path = py "/health" then [.snapshot] else []
  | .start _ | .answer _ | .perform (.log _) | .event (.tick _) | .event (.note ..) => []

section Runs

variable {rt : Runtime} {C : JsonCodec} {statsLog : Bool} {interval : Nat} {now : AscTime}
  {s t : Workers.State Shared Call Access} {l : Label Call Access ServiceEvent}
  {ls : List (Label Call Access ServiceEvent)}

theorem sys_of_step (h : (service rt C statsLog interval now).system.step s l t) :
    t.shared.sys = s.shared.sys.run statsLog (counterEvents l) := by
  cases h with
  | start q => rfl
  | @perform _ _ _ op _ _ _ => cases op <;> rfl
  | answer => rfl
  | event h =>
      cases h with
      | health => rfl
      | get hpath => rw [counterEvents, if_neg hpath]; rfl
      | tick | wake | report | note => rfl

/-- The counters are those of the events of the run. -/
theorem sys_of_run (h : (service rt C statsLog interval now).system.Run s ls t) :
    t.shared.sys = s.shared.sys.run statsLog (ls.flatMap counterEvents) := by
  induction h with
  | nil => rfl
  | cons hstep _ ih =>
      rw [ih, sys_of_step hstep, List.flatMap_cons, StatsSystem.run, StatsSystem.run,
        StatsSystem.run, List.foldl_append]

theorem incCount_counterEvents (k : Counter) (ls : List (Label Call Access ServiceEvent)) :
    incCount k (ls.flatMap counterEvents) = (performed ls).countP (Access.counts k) := by
  induction ls with
  | nil => rfl
  | cons l ls ih =>
      have hcons : (performed (l :: ls)).countP (Access.counts k) =
          (performed [l]).countP (Access.counts k) + (performed ls).countP (Access.counts k) := by
        rw [← List.countP_append, performed, performed, performed, ← List.filterMap_append]
        rfl
      rw [List.flatMap_cons, incCount, List.countP_append, ← incCount, ← incCount, ih, hcons]
      congr 1
      cases l with
      | perform op =>
          cases op with
          | count counter =>
              simp [counterEvents, incCount, performed, Event.isInc, Access.counts, eq_comm,
                List.countP_cons]
          | log record => rfl
      | start q | answer q => rfl
      | event e =>
          cases e with
          | get path resp =>
              simp only [counterEvents]
              split <;> rfl
          | tick | wake | report | note => rfl

/-- An access counts one counter at most. -/
theorem counterTotal_counts_le (ops : List Access) :
    counterTotal (fun k => ops.countP (Access.counts k)) ≤ ops.length := by
  induction ops with
  | nil => exact le_refl _
  | cons op ops ih =>
      simp only [List.countP_cons]
      rw [counterTotal_add, List.length_cons]
      refine Nat.add_le_add ih ?_
      cases op with
      | count counter =>
          simp only [Access.counts, decide_eq_true_eq, @eq_comm _ counter]
          exact (counterTotal_single counter).le
      | log record => simp [Access.counts, counterTotal, counterNames]

/-- The lifetime counters of a run are its increments. -/
theorem lifetime_of_run
    (h : (service rt C statsLog interval now).system.Run ⟨⟨.initial, now, []⟩, []⟩ ls t)
    (k : Counter) :
    t.shared.sys.stats.lifetime k = (performed ls).countP (Access.counts k) := by
  rw [sys_of_run h, (conserved_run statsLog _).increments k, incCount_counterEvents]

theorem counterTotal_lifetime_le
    (h : (service rt C statsLog interval now).system.Run ⟨⟨.initial, now, []⟩, []⟩ ls t) :
    counterTotal t.shared.sys.stats.lifetime ≤ ls.length := by
  rw [counterTotal_congr (lifetime_of_run h)]
  exact (counterTotal_counts_le _).trans (List.length_filterMap_le _ _)

/-! ## The records of a run -/

/-- The record is a message record of an outcome, and has a line. -/
def LogRecord.isMessage (h : LogHandler) (outcome : Outcome) (record : LogRecord) : Bool :=
  match record.body with
  | .message record => decide (record.outcome = outcome ∧ record.fault h.fault = none)
  | .stats .. | .other _ => false

/-- The message of a message record. -/
def LogRecord.message? (record : LogRecord) : Option (MessageRecord Json) :=
  match record.body with
  | .message record => some record
  | .stats .. | .other _ => none

/-- The message record that an access logs. -/
def Access.record? : Access → Option (MessageRecord Json)
  | .count _ => none
  | .log record => some record

/-- The window of a stats record. -/
def LogRecord.window? (record : LogRecord) : Option StatsDict :=
  match record.body with
  | .stats _ snap => some snap
  | .message _ | .other _ => none

/-- The record has the level of its kind: no message record is below INFO, and a stats
record is at INFO, for an interval that the reporter can wait. -/
def LogRecord.Proper (interval : Nat) (record : LogRecord) : Prop :=
  match record.body with
  | .message _ => RecordLevel.info.number ≤ record.level.number
  | .stats interval' _ =>
      record.level = .info ∧ interval' = interval ∧ interval ≤ timeoutMax
  | .other _ => True

/-- The reporter's records are in the log, every record is a proper one, and the reporter
holds a window only after a wait. -/
structure LogBooks (interval : Nat) (s : Shared) : Prop where
  windows : s.records.filterMap LogRecord.window? = s.sys.logged
  proper : ∀ record ∈ s.records, record.Proper interval
  holding : ∀ snap, s.sys.reporter = .holding snap → interval ≤ timeoutMax

/-- A record that says nothing about windows keeps the books. -/
theorem LogBooks.concat {s : Shared} (h : LogBooks interval s) {record : LogRecord}
    (hwindow : record.window? = none) (hproper : record.Proper interval) :
    LogBooks interval { s with records := s.records ++ [record] } where
  windows := by
    show (s.records ++ [record]).filterMap LogRecord.window? = s.sys.logged
    rw [List.filterMap_append, h.windows, List.filterMap_cons, hwindow, List.filterMap_nil,
      List.append_nil]
  proper := List.forall_mem_append.mpr ⟨h.proper, List.forall_mem_singleton.mpr hproper⟩
  holding := h.holding

/-- What does not log keeps the books. -/
theorem LogBooks.of_logged {s s' : Shared} (h : LogBooks interval s)
    (hrecords : s'.records = s.records) (hlogged : s'.sys.logged = s.sys.logged)
    (hholding : ∀ snap, s'.sys.reporter = .holding snap → interval ≤ timeoutMax) :
    LogBooks interval s' where
  windows := by rw [hrecords, hlogged, h.windows]
  proper := hrecords ▸ h.proper
  holding := hholding

theorem logged_report (statsLog : Bool) (sys : StatsSystem) :
    (sys.step statsLog .report).logged = sys.logged ++ sys.pending statsLog := by
  cases hreporter : sys.reporter <;>
    simp [StatsSystem.step, StatsSystem.pending, hreporter]

theorem logged_wake (statsLog : Bool) (sys : StatsSystem) (stopped : Bool) :
    (sys.step statsLog (.wake stopped)).logged = sys.logged := by
  cases hreporter : sys.reporter <;> cases stopped <;> simp [StatsSystem.step, hreporter]

/-- The reporter takes a window when its wait returns, and gives it up when it reports. -/
theorem holding_of_step {statsLog : Bool} {sys : StatsSystem} {e : Event} {snap : StatsDict}
    (h : (sys.step statsLog e).reporter = .holding snap) :
    (∃ snap', sys.reporter = .holding snap') ∨ e = .wake false := by
  cases hreporter : sys.reporter with
  | holding snap' => exact Or.inl ⟨snap', rfl⟩
  | waiting | exited =>
      cases e with
      | wake stopped => cases stopped <;> simp_all [StatsSystem.step]
      | inc | snapshot | report => simp_all [StatsSystem.step]

theorem LogBooks.step (hs : LogBooks interval s.shared)
    (h : (service rt C statsLog interval now).system.step s l t) :
    LogBooks interval t.shared := by
  have hholding : ∀ e, (e = .wake false → interval ≤ timeoutMax) → ∀ snap,
      (s.shared.sys.step statsLog e).reporter = .holding snap → interval ≤ timeoutMax := by
    intro e he snap h
    rcases holding_of_step h with ⟨snap', h⟩ | h
    · exact hs.holding snap' h
    · exact he h
  cases h with
  | start q => exact hs
  | answer => exact hs
  | @perform _ _ _ op _ _ _ =>
      cases op with
      | count counter => exact hs.of_logged rfl rfl (hholding _ nofun)
      | log record =>
          refine hs.concat rfl ?_
          show RecordLevel.info.number ≤ record.outcome.level.number
          cases record.outcome <;> decide
  | event h =>
      cases h with
      | tick => exact hs.of_logged rfl rfl hs.holding
      | health => exact hs.of_logged rfl rfl (hholding _ nofun)
      | get => exact hs
      | wake stopped hwait =>
          refine hs.of_logged rfl (logged_wake statsLog _ stopped) (hholding _ fun he => ?_)
          exact hwait (Event.wake.inj he)
      | note level logger text trace => exact hs.concat rfl trivial
      | report =>
          refine ⟨?_, List.forall_mem_append.mpr ⟨hs.proper, fun record hrecord => ?_⟩,
            hholding _ nofun⟩
          · show (s.shared.records ++ s.shared.reported statsLog interval).filterMap _ = _
            rw [List.filterMap_append, hs.windows, logged_report, Shared.reported,
              List.filterMap_map]
            exact congrArg _ List.filterMap_some
          · obtain ⟨snap, hsnap, rfl⟩ := List.mem_map.mp hrecord
            refine ⟨rfl, rfl, ?_⟩
            cases hreporter : s.shared.sys.reporter with
            | holding snap' => exact hs.holding snap' hreporter
            | waiting | exited => simp [StatsSystem.pending, hreporter] at hsnap

theorem logBooks_of_run
    (h : (service rt C statsLog interval now).system.Run ⟨⟨.initial, now, []⟩, []⟩ ls t) :
    LogBooks interval t.shared :=
  System.Run.preserves (I := fun s => LogBooks interval s.shared)
    (fun _ _ _ hstep hs => LogBooks.step hs hstep) h
    ⟨rfl, fun _ h => absurd h List.not_mem_nil, nofun⟩

/-- The message records are those that the workers logged, in order. -/
theorem messages_of_run
    (h : (service rt C statsLog interval now).system.Run s ls t) :
    t.shared.records.filterMap LogRecord.message? =
      s.shared.records.filterMap LogRecord.message? ++
        (performed ls).filterMap Access.record? := by
  induction h with
  | nil => exact (List.append_nil _).symm
  | @cons s t u l ls hstep _ ih =>
      rw [ih]
      cases hstep with
      | start q => rfl
      | answer => rfl
      | @perform _ _ _ op _ _ _ =>
          have hperformed : performed (Label.perform op :: ls) = op :: performed ls := rfl
          rw [hperformed, List.filterMap_cons]
          cases op with
          | count counter => rfl
          | log record =>
              show (s.shared.records ++ [_]).filterMap _ ++ _ = _
              rw [List.filterMap_append, List.append_assoc]
              rfl
      | event h =>
          cases h with
          | tick | wake | health | get => rfl
          | note level logger text trace =>
              show (s.shared.records ++ [_]).filterMap _ ++ _ = _
              rw [List.filterMap_append, List.append_assoc]
              rfl
          | report =>
              have hreported : (s.shared.reported statsLog interval).filterMap
                  LogRecord.message? = [] := by
                refine List.filterMap_eq_nil_iff.mpr fun record hrecord => ?_
                obtain ⟨snap, -, rfl⟩ := List.mem_map.mp hrecord
                rfl
              show (s.shared.records ++ _).filterMap _ ++ _ = _
              rw [List.filterMap_append, hreported, List.append_nil]
              rfl

/-- The lines of an outcome are those that the workers logged. -/
theorem countP_isMessage_of_run (handler : LogHandler) (outcome : Outcome)
    (h : (service rt C statsLog interval now).system.Run ⟨⟨.initial, now, []⟩, []⟩ ls t) :
    t.shared.records.countP (LogRecord.isMessage handler outcome) =
      (performed ls).countP (Access.logs handler outcome) := by
  have hmessages : t.shared.records.filterMap LogRecord.message? =
      (performed ls).filterMap Access.record? := messages_of_run h
  have hcount := congrArg (List.countP fun m : MessageRecord Json =>
    decide (m.outcome = outcome ∧ m.fault handler.fault = none)) hmessages
  rw [List.countP_filterMap, List.countP_filterMap] at hcount
  refine (List.countP_congr fun record _ => ?_).trans
    (hcount.trans (List.countP_congr fun op _ => ?_))
  · obtain ⟨created, level, logger, body, trace⟩ := record
    cases body <;> simp [LogRecord.isMessage, LogRecord.message?]
  · cases op <;> simp [Access.logs, Access.record?]

end Runs

/-! ## The log as a text -/

/-- The lines with a tag. -/
def taggedLines (tag : PyStr) (lines : List TextLine) : Nat :=
  lines.countP fun line =>
    match line.content with
    | .fields tag' _ => decide (tag' = tag)
    | .text _ => false

/-- What a stats line says about a key; other lines say nothing. -/
def TextLine.stat (key : PyStr) (line : TextLine) : Nat :=
  match line.content with
  | .fields tag fields =>
      if tag = py "[STATS]" then readNumber ((Assoc.get? fields key).getD []) else 0
  | .text _ => 0

/-- The sum of a key over the stats lines. -/
def statsSum (key : PyStr) (lines : List TextLine) : Nat := (lines.map (TextLine.stat key)).sum

theorem Outcome.tag_injective : Function.Injective Outcome.tag := by
  intro o o' h
  cases o <;> cases o' <;> first | rfl | exact absurd h (by decide)

theorem Outcome.tag_ne_stats (outcome : Outcome) : outcome.tag ≠ py "[STATS]" := by
  cases outcome <;> decide

theorem get?_statsFields (interval : Nat) (snap : StatsDict) (k : Counter) :
    Assoc.get? ((statsFields interval snap).map fun field => (field.1, intText field.2)) k.name =
      some (intText (snap.counts k)) := by
  cases k <;> rfl

section Text

variable {h : LogHandler} (str : Json → PyStr)

/-- At INFO or below, the lines of an outcome are its message records that have one. -/
theorem taggedLines_shown (hinfo : h.Enabled .info) {records : List LogRecord}
    (hproper : ∀ record ∈ records, record.Proper interval) (outcome : Outcome) :
    taggedLines outcome.tag ((records.filter fun record => h.Prints record).map
        (LogRecord.shown str)) =
      records.countP (LogRecord.isMessage h outcome) := by
  rw [taggedLines, List.countP_map, List.countP_filter]
  refine List.countP_congr fun record hrecord => ?_
  have hrecord := hproper record hrecord
  obtain ⟨created, level, logger, body, trace⟩ := record
  cases body with
  | message record =>
      have henabled : h.Enabled level := le_trans hinfo hrecord
      simp [LogRecord.shown, LogBody.shown, LogRecord.isMessage, LogHandler.Prints, henabled,
        LogBody.fault, Outcome.tag_injective.eq_iff]
  | stats interval snap =>
      simp [LogRecord.shown, LogBody.shown, LogRecord.isMessage, outcome.tag_ne_stats.symm]
  | other text => simp [LogRecord.shown, LogBody.shown, LogRecord.isMessage]

/-- Counts that are not too long have a line. -/
theorem fault_stats {interval : Nat} {snap : StatsDict} (hinterval : interval < 10 ^ 4300)
    (hcounts : ∀ k, snap.counts k < 10 ^ 4300) (htotal : snap.total < 10 ^ 4300) :
    (LogBody.stats interval snap).fault h.fault = none := by
  rw [LogBody.fault, List.findSome?_eq_none_iff]
  intro field hfield
  have hlt : field.2 < 10 ^ 4300 := by
    rw [statsFields, List.mem_append, List.mem_cons, List.mem_map, List.mem_singleton] at hfield
    rcases hfield with (rfl | ⟨k, -, rfl⟩) | rfl
    · exact hinterval
    · exact hcounts k
    · exact htotal
  rw [h.fault_of_scalar _ rfl, Json.reprFault,
    hugeInt_eq_false (n := field.2) (le_refl 4300) hlt]
  rfl

/-- At INFO or below, the stats lines say what the windows say, if each has one. -/
theorem statsSum_shown {records : List LogRecord}
    (hprints : ∀ record ∈ records, record.window?.isSome = true → h.Prints record)
    (k : Counter) :
    statsSum k.name ((records.filter fun record => h.Prints record).map (LogRecord.shown str)) =
      countSum (records.filterMap LogRecord.window?) k := by
  induction records with
  | nil => rfl
  | cons record records ih =>
      obtain ⟨hrecord, hrest⟩ := List.forall_mem_cons.mp hprints
      have ih := ih hrest
      obtain ⟨created, level, logger, body, trace⟩ := record
      rw [statsSum, countSum] at ih ⊢
      rw [List.filter_cons, List.filterMap_cons]
      cases body with
      | stats interval snap =>
          have hstat : TextLine.stat k.name (LogRecord.shown str
              ⟨created, level, logger, .stats interval snap, trace⟩) = snap.counts k := by
            rw [TextLine.stat, LogRecord.shown, LogBody.shown]
            dsimp only
            rw [if_pos rfl, get?_statsFields, Option.getD_some, readNumber_intText]
          rw [if_pos (decide_eq_true (hrecord rfl)), List.map_cons, List.map_cons, List.sum_cons,
            hstat, ih, LogRecord.window?, List.map_cons, List.sum_cons]
      | message record =>
          have hstat : TextLine.stat k.name (LogRecord.shown str
              ⟨created, level, logger, .message record, trace⟩) = 0 :=
            if_neg record.outcome.tag_ne_stats
          split
          · rw [List.map_cons, List.map_cons, List.sum_cons, hstat, ih, zero_add]
            rfl
          · exact ih
      | other text =>
          split
          · rw [List.map_cons, List.map_cons, List.sum_cons, ih]
            exact zero_add _
          · exact ih

end Text

/-! ## The log against the counters -/

section Balance

variable {rt : Runtime} {C : JsonCodec} {statsLog : Bool} {interval : Nat} {now : AscTime}
  {t : Workers.State Shared Call Access} {ls : List (Label Call Access ServiceEvent)}

/-- In a run that takes less steps than a printable number counts, every stats record has a
line. -/
theorem prints_window_of_run {handler : LogHandler} (hinfo : handler.Enabled .info)
    (h : (service rt C statsLog interval now).system.Run ⟨⟨.initial, now, []⟩, []⟩ ls t)
    (hlength : ls.length < 10 ^ 4300) :
    ∀ record ∈ t.shared.records, record.window?.isSome = true → handler.Prints record := by
  have hbooks := logBooks_of_run h
  have hsys : t.shared.sys = StatsSystem.initial.run statsLog (ls.flatMap counterEvents) :=
    sys_of_run h
  have htotal := (counterTotal_lifetime_le h).trans_lt hlength
  rintro ⟨created, level, logger, body, trace⟩ hrecord hwindow
  cases body with
  | message | other => cases hwindow
  | stats interval' snap =>
      obtain ⟨rfl, rfl, hinterval⟩ := hbooks.proper _ hrecord
      have hlogged : snap ∈ t.shared.sys.logged :=
        hbooks.windows ▸ List.mem_filterMap.mpr ⟨_, hrecord, rfl⟩
      rw [hsys] at hlogged htotal
      obtain ⟨hcounts, hsum⟩ := logged_le_lifetime statsLog _ hlogged
      have hmax : ∀ k, 10 ≤ k → timeoutMax < 10 ^ k := fun k hk =>
        (by decide : timeoutMax < 10 ^ 10).trans_le (Nat.pow_le_pow_right (by decide) hk)
      refine ⟨hinfo, fault_stats (hinterval.trans_lt (hmax 4300 (by decide))) (fun k => ?_)
        (hsum.trans_lt htotal)⟩
      exact ((hcounts k).trans (le_counterTotal _ k)).trans_lt htotal

/-- A clock reading. -/
def demoTime : AscTime := ⟨py "2026-01-01 00:00:00", by decide, by decide, by decide⟩

/-- The demo packet on a zero-hopped channel. -/
def demoCall (config : Config) : Call :=
  ⟨py "msh/US/2/json/LongFast/!12345678", demoText "3" "7", config⟩

/-- A call on the demo packet counts a zero-hop and logs a record with a line. -/
theorem exists_demoCall :
    ∃ config record, loadConfig (ConfigHost.ofMapping []) (some (py "config.yaml")) =
        .ok config ∧
      (demoCall config).accesses (demoJson (.int 7) rfl "7") = [.count .zerohop, .log record] ∧
      (demoCall config).unlogged (demoJson (.int 7) rfl "7") .zerohop = 0 := by
  obtain ⟨config, hload, hzerohop, hdrop, hloads, hints, hhop⟩ :=
    demoJson_setup (.int 7) rfl "7"
  have htopic : parseMeshtasticTopic (py "msh/US/2/json/LongFast/!12345678") =
      some (py "LongFast", .json) := by decide
  have hj := judge_of_zerohop htopic (hdrop _).dropMatches hzerohop.shouldZerohop
    (viewPacket_json hloads hints)
  have hthree : (viewJson (demoJson (.int 7) rfl "7") (demoObject (.int 7) rfl)).hop = 3 := hhop
  rw [hthree, if_neg (by decide)] at hj
  obtain ⟨record, hrecord, hscalars⟩ : ∃ record, packetRecord .zerohop
      (py "msh/US/2/json/LongFast/!12345678") (py "LongFast") .json
      (jsonMeta (demoObject (.int 7) rfl)) (.int 3) = .ok record ∧
      ∀ key v, record.value key = some v → v.isContainer = false := by
    refine ⟨_, rfl, fun key v hv => ?_⟩
    cases key <;> cases hv <;> rfl
  obtain ⟨houtcome, hfault⟩ := packetRecord_ok hrecord
  have hhandled := handled_eq_ok_iff.mpr
    ⟨hrecord, LogHandler.handle_of_scalars (h := (demoJson (.int 7) rfl "7").log) hscalars⟩
  have hprints : record.fault (demoJson (.int 7) rfl "7").log.fault = none := by
    have hdigits : PyVal.hugeInt 3 = false := hugeInt_eq_false (k := 1) (by decide) (by decide)
    have hlogged : (jsonMeta (demoObject (.int 7) rfl)).logged (.int 3) =
        [.null, .int 3, .null, .null] := rfl
    rw [hfault, hlogged]
    simp [demoJson, Runtime.ofJson, LogHandler.text, LogFormatter.text, Json.reprFault, hdigits]
  refine ⟨config, record, hload, ?_, ?_⟩
  · rw [demoCall, Call.accesses, hj]
    dsimp only [zerohopVerdict]
    rw [Option.elim_some, viewJson, hhandled]
    rfl
  · rw [demoCall, Call.unlogged, hj]
    dsimp only [zerohopVerdict]
    rw [Option.elim_some, viewJson, hhandled]
    exact if_neg fun h => h.2 hprints

end Balance

/-! ## The health endpoint against the messages -/

section HealthAnswers

variable {rt : Runtime} {C : JsonCodec} {statsLog : Bool} {interval : Nat} {now : AscTime}
  {t : Workers.State Shared Call Access} {ls : List (Label Call Access ServiceEvent)}

/-- How often some calls count a counter. -/
def callCounts (rt : Runtime) (k : Counter) (calls : List Call) : Nat :=
  (calls.map fun call => (call.accesses rt).countP (Access.counts k)).sum

/-- The endpoint answers from the counters as they are, at any time. -/
theorem get_of_run {before after : List (Label Call Access ServiceEvent)} {path : PyStr}
    {resp : Except PyErr HttpResponse}
    (h : (service rt C statsLog interval now).system.Run ⟨⟨.initial, now, []⟩, []⟩
      (before ++ .event (.get path resp) :: after) t) :
    ∃ s, (service rt C statsLog interval now).system.Run ⟨⟨.initial, now, []⟩, []⟩ before s ∧
      resp = doGet C path s.shared.sys.stats := by
  obtain ⟨s, hbefore, hrest⟩ := h.split
  obtain ⟨u, hstep, -⟩ := System.run_cons_iff.mp hrest
  refine ⟨s, hbefore, ?_⟩
  cases hstep with
  | event h =>
    cases h with
    | health => rfl
    | get => rfl

/-- Every answer of the endpoint, in every run.  To `/health` it reports, for every
counter, the increments before it: all that the messages answered by then count, and
nothing of a message that had not come in, so that a later answer never reports less.
Every other path is answered with 404.  Only a count that is too long to print, of more
than 4300 digits, keeps the endpoint from answering. -/
theorem service_health (hdepth : 2 ≤ C.maxDepth)
    {before after : List (Label Call Access ServiceEvent)} {path : PyStr}
    {resp : Except PyErr HttpResponse}
    (h : (service rt C statsLog interval now).system.Run ⟨⟨.initial, now, []⟩, []⟩
      (before ++ .event (.get path resp) :: after) t) :
    (path ≠ py "/health" → resp = .ok ⟨404, [], []⟩) ∧
    (path = py "/health" → before.length < 10 ^ 4300 → ∃ r, resp = .ok r) ∧
    ∀ r, path = py "/health" → resp = .ok r → ∃ snap, r.Reports C snap ∧
      ∀ k, snap.counts k = (performed before).countP (Access.counts k) ∧
        callCounts rt k (answered before) ≤ snap.counts k ∧
        snap.counts k ≤ callCounts rt k (started before) ∧
        ∀ earlier later resp' r', before = earlier ++ .event (.get path resp') :: later →
          resp' = .ok r' → ∃ snap', r'.Reports C snap' ∧ snap'.counts k ≤ snap.counts k := by
  obtain ⟨s, hbefore, hresp⟩ := get_of_run h
  refine ⟨?_, ?_, ?_⟩
  · rintro hpath
    rw [hresp, doGet_of_ne C hpath]
  · rintro - hlength
    rw [hresp]
    exact exists_doGet C path ((counterTotal_lifetime_le hbefore).trans_lt hlength)
  · rintro r rfl hok
    have hreports := reports_of_doGet hdepth (hresp.symm.trans hok)
    refine ⟨s.shared.sys.stats.snapshot, hreports, fun k => ⟨lifetime_of_run hbefore k, ?_⟩⟩
    have hcount : s.shared.sys.stats.snapshot.counts k =
        (performed before).countP (Access.counts k) := lifetime_of_run hbefore k
    obtain ⟨hanswered, hstarted⟩ := Workers.countP_performed_bounds hbefore (Access.counts k)
    rw [hcount]
    refine ⟨hanswered, hstarted, ?_⟩
    rintro earlier later resp' r' rfl hok'
    obtain ⟨s', hearlier, hresp'⟩ := get_of_run hbefore
    refine ⟨_, reports_of_doGet hdepth (hresp'.symm.trans hok'), ?_⟩
    have hcount' : s'.shared.sys.stats.snapshot.counts k =
        (performed earlier).countP (Access.counts k) := lifetime_of_run hearlier k
    rw [hcount', performed, performed, List.filterMap_append, List.countP_append]
    exact Nat.le_add_right _ _

/-- Two packets at the same time, one request when the first is counted, and one when both
are answered. -/
theorem service_health_demo :
    ∃ config before t r r' snap snap', loadConfig (ConfigHost.ofMapping [])
        (some (py "config.yaml")) = .ok config ∧
      (service (demoJson (.int 7) rfl "7") (.exact 2) true 60 demoTime).system.Run
        ⟨⟨.initial, demoTime, []⟩, []⟩ (before ++ [.event (.get (py "/health") (.ok r'))]) t ∧
      .event (.get (py "/health") (.ok r)) ∈ before ∧
      answered before = [demoCall config, demoCall config] ∧
      r.Reports (.exact 2) snap ∧ snap.counts .zerohop = 1 ∧
      r'.Reports (.exact 2) snap' ∧ snap'.counts .zerohop = 2 ∧
      ∀ k, snap.counts k ≤ snap'.counts k := by
  obtain ⟨config, record, hload, haccesses, -⟩ := exists_demoCall
  let P := service (demoJson (.int 7) rfl "7") (.exact 2) true 60 demoTime
  let q := demoCall config
  let c : Access := .count .zerohop
  let l : Access := .log record
  let health (stats : AntifloodStats) : Label Call Access ServiceEvent :=
    .event (.get (py "/health") (doGet (.exact 2) (py "/health") stats))
  let once := AntifloodStats.initial.inc .zerohop
  have hlength : ∀ k, 1 ≤ k → 9 < 10 ^ k := fun k hk =>
    (by decide : 9 < 10 ^ 1).trans_le (Nat.pow_le_pow_right (by decide) hk)
  have hfirst : P.system.Run ⟨⟨.initial, demoTime, []⟩, []⟩
      ([.start q, .start q, .perform c] ++ health once :: []) _ :=
    .cons (Workers.step_start P _ [] haccesses)
      (.cons (Workers.step_start P _ [_] haccesses)
      (.cons (Workers.step_perform P _ [] [_] q [] c [l])
      (.single (.event .health))))
  obtain ⟨-, hanswers, hreports⟩ := service_health (le_refl 2) hfirst
  obtain ⟨r, hr⟩ := hanswers rfl ((by decide : 3 < 9).trans (hlength 4300 (by decide)))
  obtain ⟨snap, hsnap, hcounts⟩ := hreports r rfl hr
  let before := [.start q, .start q, .perform c, health once, .perform c, .perform l, .answer q,
    .perform l, .answer q]
  obtain ⟨t, hsecond⟩ : ∃ t, P.system.Run ⟨⟨.initial, demoTime, []⟩, []⟩
      (before ++ health (once.inc .zerohop) :: []) t :=
    ⟨_, .cons (Workers.step_start P _ [] haccesses)
      (.cons (Workers.step_start P _ [_] haccesses)
      (.cons (Workers.step_perform P _ [] [_] q [] c [l])
      (.cons (.event .health)
      (.cons (Workers.step_perform P _ [_] [] q [] c [l])
      (.cons (Workers.step_perform P _ [] [_] q [c] l [])
      (.cons (Workers.step_answer P _ [] [_] q [c, l])
      (.cons (Workers.step_perform P _ [] [] q [c] l [])
      (.cons (Workers.step_answer P _ [] [] q [c, l])
      (.single (.event .health))))))))))⟩
  obtain ⟨-, hanswers', hreports'⟩ := service_health (le_refl 2) hsecond
  obtain ⟨r', hr'⟩ := hanswers' rfl (hlength 4300 (by decide))
  obtain ⟨snap', hsnap', hcounts'⟩ := hreports' r' rfl hr'
  have hmono : ∀ k, snap.counts k ≤ snap'.counts k := by
    have hsublist : [c].Sublist [c, c, l, l] := .cons_cons c (List.nil_sublist _)
    intro k
    rw [(hcounts k).1, (hcounts' k).1]
    exact hsublist.countP_le
  have hmem : health once ∈ before := by simp [before]
  simp only [health, hr, hr'] at hsecond hmem
  exact ⟨config, before, t, r, r', snap, snap', hload, hsecond, hmem, rfl, hsnap,
    (hcounts .zerohop).1, hsnap', (hcounts' .zerohop).1, hmono⟩

end HealthAnswers

end Floodgate.Ports
