import Floodgate.Ports.Json
import Floodgate.Ports.LogSetup

/-!
# What a log call raises

`configure_logging` installs one `StreamHandler` at the root logger and sets its level.
A record below the level is not rendered.  The others are rendered by the formatter,
which can raise on a value that a publisher chose: an integer that is too long to print,
or a container that is nested too deep.  The handler swallows what is raised there, and
writes no line, but for a `RecursionError`, which it raises again out of the logger call.

What is rendered of a record are the fields that it has, in display order, so that the
first field that cannot be rendered decides.  The formatter of the text format follows
`str`; that of the JSON format is not part of the repository, and any formatter does here
that renders scalars as `str` does.

## Main results

* `LogHandler.handle_isOk_iff`: when a logger call returns.
* `LogHandler.handle_of_scalars`: a record of scalars is handled.
-/

namespace Floodgate.Ports

/-- The levels of `logging`. -/
inductive RecordLevel where
  | debug | info | warning | error | critical
  deriving DecidableEq, Repr

def RecordLevel.name : RecordLevel → PyStr
  | .debug => py "DEBUG"
  | .info => py "INFO"
  | .warning => py "WARNING"
  | .error => py "ERROR"
  | .critical => py "CRITICAL"

/-- `getattr(logging, name)`, for the name of a level. -/
def RecordLevel.named (name : PyStr) : Option RecordLevel :=
  [debug, info, warning, error, critical].find? (·.name = name)

/-- `logging.DEBUG` and its like. -/
def RecordLevel.number : RecordLevel → Nat
  | .debug => 10
  | .info => 20
  | .warning => 30
  | .error => 40
  | .critical => 50

/-- The level that a message record is logged at. -/
def Outcome.level : Outcome → RecordLevel
  | .warn => .warning
  | .zerohop | .passthru | .noop | .dropped => .info

/-- What rendering the fields of a record raises first. -/
def MessageRecord.fault {ν : Type} (fault : ν → Option PyErr) (record : MessageRecord ν) :
    Option PyErr :=
  messageFields.findSome? fun key => (record.value key).bind fault

/-- What a formatter raises on the value of a field. -/
structure LogFormatter where
  fault : Json → Option PyErr
  /-- A scalar is rendered as `str` does it. -/
  fault_of_scalar : ∀ v, v.isContainer = false → fault v = v.reprFault 0
  /-- The texts of a `RecursionError` are the interpreter's. -/
  asciiPrintable_recursionError : ∀ v e, fault v = some e → e.kind = .recursionError →
    AsciiPrintable e.text

/-- A `StructuredTextFormatter`, the `str` of which follows `depth` levels of nesting. -/
def LogFormatter.text (depth : Nat) : LogFormatter where
  fault v := v.reprFault depth
  fault_of_scalar _ hv := Json.reprFault_of_scalar hv depth 0
  asciiPrintable_recursionError v e he hkind := by
    rcases Json.reprFault_cases v he with rfl | rfl
    · cases hkind
    · decide

/-- The formatters that there are: how deep the text format follows a value, and the
formatter of the JSON format, which is not part of the repository. -/
structure Formatters where
  textDepth : Nat
  json : LogFormatter

/-- `build_formatter`. -/
def buildFormatter (formatters : Formatters) (logFormat : PyStr) : LogFormatter :=
  if logFormat = py "json" then formatters.json else .text formatters.textDepth

/-- The handler at the root logger, by its formatter, and the logger's level. -/
structure LogHandler extends LogFormatter where
  level : RecordLevel

/-- `configure_logging`. -/
def configureLogging (formatters : Formatters) (level : RecordLevel) (logFormat : PyStr) :
    LogHandler := ⟨buildFormatter formatters logFormat, level⟩

namespace LogHandler

/-- Records of the level are rendered. -/
def Enabled (h : LogHandler) (level : RecordLevel) : Prop := h.level.number ≤ level.number

instance (h : LogHandler) (level : RecordLevel) : Decidable (h.Enabled level) :=
  inferInstanceAs (Decidable (_ ≤ _))

/-- `logger.info(...)` or `logger.warning(...)` with a message record. -/
def handle (h : LogHandler) (record : MessageRecord Json) : Except PyErr Unit :=
  if h.Enabled record.outcome.level then
    match record.fault h.fault with
    -- `StreamHandler.emit`: `except RecursionError: raise`
    | some e => if e.kind = .recursionError then .error e else .ok ()
    | none => .ok ()
  else .ok ()

/-- A record, once the logger call with it has returned. -/
def handled (h : LogHandler) (record : Except PyErr (MessageRecord Json)) :
    Except PyErr (MessageRecord Json) := do
  let record ← record
  h.handle record
  return record

/-- Some values are rendered at INFO, and the first of them that cannot be rendered is
nested too deep. -/
def Overflows (h : LogHandler) (values : List Json) : Prop :=
  h.Enabled .info ∧ ∃ e, values.findSome? h.fault = some e ∧ e.kind = .recursionError

/-- The handler of the text format. -/
def text (level : RecordLevel) (depth : Nat) : LogHandler := ⟨.text depth, level⟩

variable {h : LogHandler}

/-- Rendering a scalar does not run into the recursion limit. -/
theorem kind_ne_of_scalar {v : Json} (hv : v.isContainer = false) {e : PyErr}
    (he : h.fault v = some e) : e.kind ≠ .recursionError := by
  rw [h.fault_of_scalar v hv] at he
  cases v with
  | int n =>
      rw [Json.reprFault, Option.ite_none_right_eq_some] at he
      obtain rfl := Option.some.inj he.2
      decide
  | list xs | dict ms => cases hv
  | null | bool b | float x | str s => cases he

@[simp] theorem fault_null (h : LogHandler) : h.fault .null = none := h.fault_of_scalar _ rfl

@[simp] theorem fault_str (h : LogHandler) (s : PyStr) : h.fault (.str s) = none :=
  h.fault_of_scalar _ rfl

/-- What a logger call does with a record that is rendered from some values. -/
theorem handle_isOk_iff {record : MessageRecord Json} {values : List Json}
    (hlevel : record.outcome.level = .info)
    (hvalues : record.fault h.fault = values.findSome? h.fault) :
    (h.handle record).isOk = true ↔ ¬h.Overflows values := by
  rw [handle, Overflows, hlevel, hvalues]
  split
  · next henabled =>
    cases hfault : values.findSome? h.fault with
    | none => simp [Except.isOk, Except.toBool]
    | some e =>
        by_cases hkind : e.kind = .recursionError
        · simp [hkind, henabled, Except.isOk, Except.toBool]
        · simp [hkind, Except.isOk, Except.toBool]
  · next henabled => simp [henabled, Except.isOk, Except.toBool]

/-- A record of scalars is handled. -/
theorem handle_of_scalars {record : MessageRecord Json}
    (hscalars : ∀ key v, record.value key = some v → v.isContainer = false) :
    h.handle record = .ok () := by
  unfold handle
  split
  · cases hfault : record.fault h.fault with
    | none => rfl
    | some e =>
        obtain ⟨key, -, he⟩ := List.exists_of_findSome?_eq_some hfault
        obtain ⟨v, hv, he⟩ := Option.bind_eq_some_iff.mp he
        exact if_neg (kind_ne_of_scalar (hscalars key v hv) he)
  · rfl

/-- What a logger call raises has a printable text. -/
theorem asciiPrintable_of_handle {record : MessageRecord Json} {e : PyErr}
    (he : h.handle record = .error e) : AsciiPrintable e.text := by
  unfold handle at he
  split at he
  · split at he
    · next e' hfault =>
      split at he
      · next hkind =>
        obtain ⟨key, -, hkey⟩ := List.exists_of_findSome?_eq_some hfault
        obtain ⟨v, -, hv⟩ := Option.bind_eq_some_iff.mp hkey
        exact Except.error.inj he ▸ h.asciiPrintable_recursionError v e' hv hkind
      · cases he
    · cases he
  · cases he

theorem not_overflows_of_scalars {values : List Json}
    (hscalars : ∀ v ∈ values, v.isContainer = false) : ¬h.Overflows values := by
  rintro ⟨-, e, he, hkind⟩
  obtain ⟨v, hv, he⟩ := List.exists_of_findSome?_eq_some he
  exact kind_ne_of_scalar (hscalars v hv) he hkind

/-- What overflows, overflows with any values behind it. -/
theorem Overflows.append {values : List Json} (hover : h.Overflows values)
    (values' : List Json) : h.Overflows (values ++ values') := by
  obtain ⟨henabled, e, he, hkind⟩ := hover
  exact ⟨henabled, e, by rw [List.findSome?_append, he, Option.some_or], hkind⟩

/-- Behind a scalar, values overflow if the scalar can be rendered. -/
theorem overflows_cons_iff {v : Json} (hv : v.isContainer = false) {values : List Json} :
    h.Overflows (v :: values) ↔ h.fault v = none ∧ h.Overflows values := by
  unfold Overflows
  rw [List.findSome?_cons]
  cases hfault : h.fault v with
  | none => simp
  | some e =>
      refine iff_of_false ?_ fun hnone => by cases hnone.1
      rintro ⟨-, e', he, hkind⟩
      exact kind_ne_of_scalar hv (hfault.trans he) hkind

/-- A scalar that can be rendered makes no difference. -/
theorem overflows_cons_cons_iff {v w : Json} (hw : h.fault w = none) {values : List Json} :
    h.Overflows (v :: w :: values) ↔ h.Overflows (v :: values) := by
  simp only [Overflows, List.findSome?_cons, hw]

/-- A scalar can only keep the values behind it from being rendered. -/
theorem Overflows.of_scalar {v w : Json} {values : List Json} (hw : w.isContainer = false)
    (hover : h.Overflows (v :: w :: values)) : h.Overflows (v :: values) := by
  cases hv : h.fault v with
  | some e =>
      obtain ⟨henabled, e', he, hkind⟩ := hover
      rw [List.findSome?_cons, hv] at he
      exact ⟨henabled, e', by rw [List.findSome?_cons, hv, he], hkind⟩
  | none =>
      have hrest : ∀ values, h.Overflows (v :: values) ↔ h.Overflows values := fun values => by
        simp only [Overflows, List.findSome?_cons, hv]
      rw [hrest] at hover ⊢
      exact ((overflows_cons_iff hw).mp hover).2

end LogHandler

end Floodgate.Ports
