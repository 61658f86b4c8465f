import Floodgate.Verified.Segments
import Floodgate.Ports.LogHandler
import Floodgate.Ports.Stats

/-!
# The text log

`configure_logging` installs one handler, which writes a line for every record at or
above the level: the time, the level, the name of the logger, and what
`StructuredTextFormatter.format` makes of the record.  Records with `event="message"`
and `event="stats"` become a tag and fields; every other record is its own text.  A
traceback follows its record on lines of its own.  A record with a value that `str`
raises on has no line; `handleError` prints a report in its place.

The reader below undoes the stream.  It splits the stream at the line breaks, keeps the
lines that start with a time, and splits such a line at its fixed columns, and the rest
of it into a tag and fields when it starts with a bracket.

## Main results

* `readNumber_intText`: a number is read back from its digits.
* `readRecord_renderLine`: a line reads back as its record.
* `readStream_stream`: a stream reads back as the records that have a line.
-/

namespace Floodgate.Ports

open Floodgate.Verified
open Floodgate.Verified.QuotedFields

/-! ## Records -/

/-- The line starts with a digit, as the time of a record does. -/
def startsRecord : PyStr → Bool
  | [] => false
  | c :: _ => decide ((ch '0').val ≤ c.val ∧ c.val ≤ (ch '9').val)

/-- `record.asctime`, in the format `%Y-%m-%d %H:%M:%S`. -/
structure AscTime where
  text : PyStr
  length_text : text.length = 19
  oneLine : ch '\n' ∉ text
  digit : startsRecord text = true

/-- A line of a traceback or of a report of `handleError`: a heading, an indented frame,
the exception, or what the record was called with. -/
structure TraceLine where
  text : PyStr
  plain : startsRecord text = false ∧ ch '\n' ∉ text

/-- The name of a logger: a dotted path of modules. -/
structure LoggerName where
  text : PyStr
  plain : ch ']' ∉ text ∧ ch '\n' ∉ text

/-- `zerohop.logger`. -/
def LoggerName.zerohop : LoggerName := ⟨py "floodgate.zerohop", by decide⟩

/-- `exhook_server.logger`. -/
def LoggerName.exhookServer : LoggerName := ⟨py "floodgate.exhook_server", by decide⟩

/-- The text of a record without `event`.  None starts with a bracket. -/
structure PlainText where
  text : PyStr
  plain : text.head? ≠ some (ch '[') ∧ ch '\n' ∉ text

/-- A record by its `event`. -/
inductive LogBody where
  | message (record : MessageRecord Json)
  | stats (interval : Nat) (snap : StatsDict)
  | other (text : PlainText)

/-- A `LogRecord`. -/
structure LogRecord where
  created : AscTime
  level : RecordLevel
  logger : LoggerName
  body : LogBody
  trace : List TraceLine

/-! ## The formatter -/

def Counter.name : Counter → PyStr
  | .zerohop => py "zerohop"
  | .passthru => py "passthru"
  | .noop => py "noop"
  | .dropped => py "dropped"
  | .skipped => py "skipped"
  | .errors => py "errors"

/-- `_STATS_FIELDS`, with the values that `_stats_reporter` sets. -/
def statsFields (interval : Nat) (snap : StatsDict) : List (PyStr × Nat) :=
  (py "interval_s", interval) :: (counterNames.map fun k => (k.name, snap.counts k)) ++
    [(py "total", snap.total)]

/-- `StructuredTextFormatter._format_stats`. -/
def formatStats (interval : Nat) (snap : StatsDict) : PyStr :=
  PyStr.join (py " ") (py "[STATS]" :: (statsFields interval snap).map fun field =>
    field.1 ++ py "=" ++ intText field.2)

section Formatter

variable (db : UnicodeDb) (str : Json → PyStr)

/-- `StructuredTextFormatter.format`, up to the message. -/
def formatBody : LogBody → PyStr
  | .message record => formatMessage db str record
  | .stats interval snap => formatStats interval snap
  | .other text => text.text

/-- `%(levelname)-8s`. -/
def padLevel (level : RecordLevel) : PyStr :=
  level.name ++ List.replicate (8 - level.name.length) (ch ' ')

/-- `%(asctime)s %(levelname)-8s [%(name)s] %(message)s`. -/
def renderLine (record : LogRecord) : PyStr :=
  record.created.text ++ (ch ' ' :: (padLevel record.level ++
    (py " [" ++ (record.logger.text ++ ch ']' :: (ch ' ' :: formatBody db str record.body)))))

/-- `logging.Formatter.format`: the line, and the traceback below it. -/
def renderRecord (record : LogRecord) : PyStr :=
  renderLine db str record ++ record.trace.flatMap fun line => ch '\n' :: line.text

/-- What `StructuredTextFormatter.format` raises, if anything. -/
def LogBody.fault (fault : Json → Option PyErr) : LogBody → Option PyErr
  | .message record => record.fault fault
  | .stats interval snap =>
      (statsFields interval snap).findSome? fun field => fault (.int field.2)
  | .other _ => none

variable (h : LogHandler) (report : LogRecord → List TraceLine)

/-- The record is let through and has a line. -/
def LogHandler.Prints (h : LogHandler) (record : LogRecord) : Prop :=
  h.Enabled record.level ∧ record.body.fault h.fault = none

instance (record : LogRecord) : Decidable (h.Prints record) :=
  inferInstanceAs (Decidable (_ ∧ _))

/-- What the handler writes for a record, in the text format. -/
def LogHandler.written (record : LogRecord) : PyStr :=
  if h.Enabled record.level then
    match record.body.fault h.fault with
    | none => renderRecord db str record ++ [ch '\n']
    -- `handleError`: the report goes to the same stream
    | some _ => (report record).flatMap fun line => line.text ++ [ch '\n']
  else []

/-- What the handler writes for some records, in the text format. -/
def LogHandler.stream (records : List LogRecord) : PyStr :=
  records.flatMap (h.written db str report)

end Formatter

/-! ## The reader -/

/-- What a line says: a tag with fields, or a text. -/
inductive LineContent where
  | fields (tag : PyStr) (fields : List (PyStr × PyStr))
  | text (s : PyStr)
  deriving DecidableEq

/-- A line, taken apart. -/
structure TextLine where
  created : PyStr
  level : PyStr
  logger : PyStr
  content : LineContent
  deriving DecidableEq

/-- Read what stands behind the name of the logger. -/
def readContent (s : PyStr) : Option LineContent :=
  if s.head? = some (ch '[') then (readLine s).map fun line => .fields line.1 line.2
  else some (.text s)

/-- Read the line of a record by its columns. -/
def readRecord (line : PyStr) : Option TextLine :=
  let rest := splitAtFirst (ch ']') (line.drop 30)
  (readContent rest.2.tail).map fun content =>
    ⟨line.take 19, ((line.drop 20).take 8).takeWhile (· ≠ ch ' '), rest.1, content⟩

/-- Read a stream: what follows the last line break is not a line yet. -/
def readStream (text : PyStr) : Option (List TextLine) :=
  (((text.splitOn (ch '\n')).dropLast).filter startsRecord).mapM readRecord

/-- The value of some digits. -/
def readNumber (s : PyStr) : Nat := s.foldl (fun n c => n * 10 + (c.val - (ch '0').val)) 0

/-! ## Numbers -/

theorem intText_natCast (n : Nat) : intText n = (Nat.toDigits 10 n).map PyChar.ofChar := by
  show ((toString n).toList).map PyChar.ofChar = _
  rw [Nat.toString_eq_ofList_toDigits, String.toList_ofList]

/-- A number is written in digits. -/
theorem digit_of_mem_intText {n : Nat} {c : PyChar} (h : c ∈ intText n) :
    (ch '0').val ≤ c.val ∧ c.val ≤ (ch '9').val := by
  rw [intText_natCast] at h
  obtain ⟨d, hd, rfl⟩ := List.mem_map.mp h
  exact Char.isDigit_iff_toNat.mp (Nat.isDigit_of_mem_toDigits (by decide) (by decide) hd)

theorem intText_ne_nil (n : Nat) : intText n ≠ [] := by
  rw [intText_natCast]
  exact fun h => Nat.toDigits_ne_nil (List.map_eq_nil_iff.mp h)

/-- A number is read back from its digits. -/
theorem readNumber_intText (n : Nat) : readNumber (intText n) = n := by
  have hfold : ∀ (cs : List Char) (m : Nat),
      (cs.map PyChar.ofChar).foldl (fun n c => n * 10 + (c.val - (ch '0').val)) m =
        Nat.ofDigitChars 10 cs m := by
    intro cs
    induction cs with
    | nil => exact fun m => Nat.ofDigitChars_nil.symm
    | cons c cs ih =>
        intro m
        rw [List.map_cons, List.foldl_cons, ih, Nat.ofDigitChars_cons, mul_comm]
        rfl
  rw [readNumber, intText_natCast, hfold, Nat.ofDigitChars_ten_toDigits]

/-! ## Stats lines -/

/-- The rendered field of a stats line. -/
def statsToken (field : PyStr × Nat) : PyStr := field.1 ++ py "=" ++ intText field.2

theorem statsKey_plain {interval : Nat} {snap : StatsDict} {field : PyStr × Nat}
    (h : field ∈ statsFields interval snap) :
    ch ' ' ∉ field.1 ∧ ch '"' ∉ field.1 ∧ ch '=' ∉ field.1 ∧ ch '\n' ∉ field.1 := by
  have hkey : field.1 ∈ (statsFields interval snap).map Prod.fst := List.mem_map.mpr ⟨_, h, rfl⟩
  have hall : ∀ key ∈ (statsFields 0 ⟨fun _ => 0, 0⟩).map Prod.fst,
      ch ' ' ∉ key ∧ ch '"' ∉ key ∧ ch '=' ∉ key ∧ ch '\n' ∉ key := by decide
  -- the keys do not depend on the values
  exact hall _ hkey

theorem not_mem_intText {n : Nat} {c : PyChar} (h : c.val < (ch '0').val ∨ (ch '9').val < c.val) :
    c ∉ intText n := by
  intro hc
  have hdigit := digit_of_mem_intText hc
  omega

theorem solid_statsToken {interval : Nat} {snap : StatsDict} {field : PyStr × Nat}
    (h : field ∈ statsFields interval snap) :
    Solid lineSyntax .bare (statsToken field) .bare := by
  obtain ⟨hspace, hquote, -, -⟩ := statsKey_plain h
  have hmark : Solid lineSyntax .bare (py "=") .bare := solid_bare (by decide) (by decide)
  exact ((solid_bare hspace hquote).append hmark).append
    (solid_bare (not_mem_intText (by decide)) (not_mem_intText (by decide)))

theorem readField_statsToken {interval : Nat} {snap : StatsDict} {field : PyStr × Nat}
    (h : field ∈ statsFields interval snap) :
    readField (statsToken field) = some (field.1, intText field.2) := by
  have hsplit : splitAtFirst (ch '=') (statsToken field) = (field.1, intText field.2) := by
    rw [statsToken, List.append_assoc]
    exact splitAtFirst_append (statsKey_plain h).2.2.1 _
  have hvalue : undoEscape (intText field.2) = some (intText field.2) := by
    cases htext : intText field.2 with
    | nil => exact absurd htext (intText_ne_nil _)
    | cons c cs =>
        have hc : c ≠ ch '"' := by
          rintro rfl
          exact not_mem_intText (n := field.2) (c := ch '"') (by decide)
            (htext ▸ List.mem_cons_self)
        rw [undoEscape, if_neg hc]
  rw [readField, hsplit, hvalue]
  rfl

/-- A stats line reads back as the interval, the counters and the total. -/
theorem readLine_formatStats (interval : Nat) (snap : StatsDict) :
    readLine (formatStats interval snap) =
      some (py "[STATS]", (statsFields interval snap).map fun field =>
        (field.1, intText field.2)) := by
  have hjoin : formatStats interval snap =
      joinTokens lineSyntax (py "[STATS]" :: (statsFields interval snap).map statsToken) :=
    join_eq_joinTokens _
  have hsolid : ∀ t ∈ py "[STATS]" :: (statsFields interval snap).map statsToken,
      Solid lineSyntax .bare t .bare := by
    intro t ht
    rcases List.mem_cons.mp ht with rfl | ht
    · exact solid_bare (by decide) (by decide)
    · obtain ⟨field, hfield, rfl⟩ := List.mem_map.mp ht
      exact solid_statsToken hfield
  have hread : ∀ fields : List (PyStr × Nat), (∀ f ∈ fields, f ∈ statsFields interval snap) →
      (fields.map statsToken).mapM readField =
        some (fields.map fun field => (field.1, intText field.2)) := by
    intro fields hfields
    induction fields with
    | nil => rfl
    | cons field fields ih =>
        rw [List.map_cons, List.mapM_cons,
          readField_statsToken (hfields field List.mem_cons_self),
          ih fun f hf => hfields f (List.mem_cons_of_mem _ hf)]
        rfl
  rw [hjoin, readLine, tokens_joinTokens (List.cons_ne_nil _ _) hsolid]
  simp only [hread _ fun _ h => h]
  rfl

theorem newline_not_mem_formatStats (interval : Nat) (snap : StatsDict) :
    ch '\n' ∉ formatStats interval snap := by
  have hjoin : formatStats interval snap =
      joinTokens lineSyntax (py "[STATS]" :: (statsFields interval snap).map statsToken) :=
    join_eq_joinTokens _
  rw [hjoin]
  intro h
  rcases mem_joinTokens h with h | ⟨t, ht, hmem⟩
  · exact absurd h (by decide)
  · rcases List.mem_cons.mp ht with rfl | ht
    · exact absurd hmem (by decide)
    · obtain ⟨field, hfield, rfl⟩ := List.mem_map.mp ht
      rw [statsToken, List.mem_append, List.mem_append] at hmem
      rcases hmem with (hmem | hmem) | hmem
      · exact (statsKey_plain hfield).2.2.2 hmem
      · exact absurd hmem (by decide)
      · exact not_mem_intText (by decide) hmem

/-! ## Lines -/

/-- What a reader is to see of a record. -/
def LogBody.shown (str : Json → PyStr) : LogBody → LineContent
  | .message record => .fields record.outcome.tag (record.shown str)
  | .stats interval snap =>
      .fields (py "[STATS]") ((statsFields interval snap).map fun field =>
        (field.1, intText field.2))
  | .other text => .text text.text

def LogRecord.shown (str : Json → PyStr) (record : LogRecord) : TextLine :=
  ⟨record.created.text, record.level.name, record.logger.text, record.body.shown str⟩

section Lines

variable (db : UnicodeDb) (str : Json → PyStr)

theorem length_padLevel (level : RecordLevel) : (padLevel level).length = 8 := by
  cases level <;> decide

theorem takeWhile_padLevel (level : RecordLevel) :
    (padLevel level).takeWhile (· ≠ ch ' ') = level.name := by
  cases level <;> decide

theorem newline_not_mem_padLevel (level : RecordLevel) : ch '\n' ∉ padLevel level := by
  cases level <;> decide

theorem newline_not_isprintable : db.isprintable (ch '\n') = false := by
  rw [db.isprintable_ascii _ (by decide)]
  decide

/-- A message line starts with the bracket of its tag. -/
theorem head_formatMessage (record : MessageRecord Json) :
    (formatMessage db str record).head? = some (ch '[') := by
  rw [formatMessage_eq]
  generalize (record.fields str).map (fun field => fieldToken db field.1 field.2) = fields
  cases fields with
  | nil => cases record.outcome <;> rfl
  | cons field fields => cases record.outcome <;> rfl

theorem readContent_formatBody (body : LogBody) :
    readContent (formatBody db str body) = some (body.shown str) := by
  cases body with
  | message record =>
      rw [formatBody, readContent, if_pos (head_formatMessage db str record),
        readLine_formatMessage]
      rfl
  | stats interval snap =>
      have hhead : (formatStats interval snap).head? = some (ch '[') := rfl
      rw [formatBody, readContent, if_pos hhead, readLine_formatStats]
      rfl
  | other text =>
      rw [formatBody, readContent, if_neg text.plain.1]
      rfl

theorem newline_not_mem_formatBody (body : LogBody) : ch '\n' ∉ formatBody db str body := by
  cases body with
  | message record =>
      intro h
      have hprintable := isprintable_of_mem_formatMessage db str record _ h
      rw [newline_not_isprintable] at hprintable
      cases hprintable
  | stats interval snap => exact newline_not_mem_formatStats interval snap
  | other text => exact text.plain.2

/-- A line reads back as its record. -/
theorem readRecord_renderLine (record : LogRecord) :
    readRecord (renderLine db str record) = some (record.shown str) := by
  obtain ⟨created, level, logger, body, trace⟩ := record
  have htime := created.length_text
  have hlevel := length_padLevel level
  have hdrop : ∀ rest : PyStr, (created.text ++ (ch ' ' :: (padLevel level ++ rest))).drop 20 =
      padLevel level ++ rest := by
    intro rest
    rw [List.drop_append, List.drop_eq_nil_of_le (by omega), htime]
    rfl
  have hrest : ∀ rest : PyStr,
      (created.text ++ (ch ' ' :: (padLevel level ++ (py " [" ++ rest)))).drop 30 = rest := by
    intro rest
    rw [← List.drop_drop (i := 10) (j := 20), hdrop, List.drop_append,
      List.drop_eq_nil_of_le (by omega), hlevel]
    rfl
  have hsplit := splitAtFirst_append logger.plain.1 (ch ' ' :: formatBody db str body)
  simp only [readRecord, renderLine, hrest, hsplit, List.tail_cons, readContent_formatBody,
    Option.map_some, hdrop]
  rw [List.take_append_of_le_length (by omega), List.take_of_length_le (by omega),
    List.take_append_of_le_length (by omega), List.take_of_length_le (by omega),
    takeWhile_padLevel]
  rfl

theorem newline_not_mem_renderLine (record : LogRecord) :
    ch '\n' ∉ renderLine db str record := by
  have hbody := newline_not_mem_formatBody db str record.body
  have hlevel := newline_not_mem_padLevel record.level
  simp only [renderLine, List.mem_append, List.mem_cons, not_or]
  exact ⟨record.created.oneLine, by decide, hlevel, by decide, record.logger.plain.2, by decide,
    by decide, hbody⟩

theorem startsRecord_renderLine (record : LogRecord) :
    startsRecord (renderLine db str record) = true := by
  have hdigit := record.created.digit
  unfold renderLine
  cases htext : record.created.text with
  | nil =>
      rw [htext] at hdigit
      cases hdigit
  | cons c cs =>
      rw [htext] at hdigit
      exact hdigit

/-- The lines that a record is written on. -/
def LogRecord.lines (record : LogRecord) : List PyStr :=
  renderLine db str record :: record.trace.map TraceLine.text

theorem renderRecord_newline (record : LogRecord) :
    renderRecord db str record ++ [ch '\n'] =
      (record.lines db str).flatMap fun line => line ++ [ch '\n'] := by
  have htrace : ∀ lines : List TraceLine,
      (lines.flatMap fun line => ch '\n' :: line.text) ++ [ch '\n'] =
        ch '\n' :: (lines.map TraceLine.text).flatMap fun line => line ++ [ch '\n'] := by
    intro lines
    induction lines with
    | nil => rfl
    | cons line lines ih =>
        rw [List.flatMap_cons, List.append_assoc, ih, List.map_cons, List.flatMap_cons]
        simp
  rw [renderRecord, List.append_assoc, htrace, LogRecord.lines, List.flatMap_cons]
  simp

/-- A traceback is told apart from the records. -/
theorem filter_startsRecord_trace (trace : List TraceLine) :
    (trace.map TraceLine.text).filter startsRecord = [] := by
  refine List.filter_eq_nil_iff.mpr fun line hline => ?_
  obtain ⟨line, -, rfl⟩ := List.mem_map.mp hline
  simp [line.plain.1]

theorem filter_startsRecord_lines (record : LogRecord) :
    (record.lines db str).filter startsRecord = [renderLine db str record] := by
  rw [LogRecord.lines, List.filter_cons_of_pos (startsRecord_renderLine db str record),
    filter_startsRecord_trace]

theorem splitOn_flatMap_lines (lines : List PyStr) (h : ∀ line ∈ lines, ch '\n' ∉ line) :
    (lines.flatMap fun line => line ++ [ch '\n']).splitOn (ch '\n') = lines ++ [[]] := by
  rw [Segments.splitOn_eq_iff]
  refine ⟨by simp, ?_, ?_⟩
  · intro segment hsegment
    rcases List.mem_append.mp hsegment with hline | hlast
    · exact h segment hline
    · rw [List.mem_singleton.mp hlast]
      exact List.not_mem_nil
  · clear h
    induction lines with
    | nil => rfl
    | cons line lines ih =>
        rw [List.flatMap_cons, ← ih]
        cases lines <;> simp [List.intercalate_cons_cons]

theorem mapM_readRecord (records : List LogRecord) :
    (records.map (renderLine db str)).mapM readRecord =
      some (records.map (LogRecord.shown str)) := by
  induction records with
  | nil => rfl
  | cons record records ih =>
      rw [List.map_cons, List.mapM_cons, readRecord_renderLine, ih]
      rfl

variable (h : LogHandler) (report : LogRecord → List TraceLine)

/-- The lines that the handler writes for a record. -/
def LogHandler.lines (record : LogRecord) : List PyStr :=
  if h.Enabled record.level then
    match record.body.fault h.fault with
    | none => record.lines db str
    | some _ => (report record).map TraceLine.text
  else []

theorem written_eq_lines (record : LogRecord) :
    h.written db str report record =
      (h.lines db str report record).flatMap fun line => line ++ [ch '\n'] := by
  unfold LogHandler.written LogHandler.lines
  split
  · split
    · exact renderRecord_newline db str record
    · rw [List.flatMap_map]
  · rfl

theorem newline_not_mem_lines (record : LogRecord) :
    ∀ line ∈ h.lines db str report record, ch '\n' ∉ line := by
  have hplain : ∀ trace : List TraceLine, ∀ line ∈ trace.map TraceLine.text, ch '\n' ∉ line := by
    intro trace line hline
    obtain ⟨line, -, rfl⟩ := List.mem_map.mp hline
    exact line.plain.2
  unfold LogHandler.lines
  split
  · split
    · exact List.forall_mem_cons.mpr ⟨newline_not_mem_renderLine db str record, hplain _⟩
    · exact hplain _
  · exact fun _ h => absurd h List.not_mem_nil

/-- A report is told apart from the records, as a traceback is. -/
theorem filter_startsRecord_written (record : LogRecord) :
    (h.lines db str report record).filter startsRecord =
      if h.Prints record then [renderLine db str record] else [] := by
  unfold LogHandler.lines
  split
  · next henabled =>
    split
    · next hfault =>
      have hprints : h.Prints record := ⟨henabled, hfault⟩
      rw [if_pos hprints, filter_startsRecord_lines]
    · next e hfault =>
      have hprints : ¬h.Prints record := fun hprints => by cases hfault.symm.trans hprints.2
      rw [if_neg hprints, filter_startsRecord_trace]
  · next henabled =>
    have hprints : ¬h.Prints record := fun hprints => henabled hprints.1
    rw [if_neg hprints, List.filter_nil]

/-- A stream reads back as the records that have a line. -/
theorem readStream_stream (records : List LogRecord) :
    readStream (h.stream db str report records) =
      some ((records.filter fun record => h.Prints record).map (LogRecord.shown str)) := by
  have hlines : h.stream db str report records =
      (records.flatMap (h.lines db str report)).flatMap fun line => line ++ [ch '\n'] := by
    rw [LogHandler.stream, List.flatMap_assoc]
    exact List.flatMap_congr fun record _ => written_eq_lines db str h report record
  have hfree : ∀ line ∈ records.flatMap (h.lines db str report), ch '\n' ∉ line := by
    intro line hline
    obtain ⟨record, -, hline⟩ := List.mem_flatMap.mp hline
    exact newline_not_mem_lines db str h report record line hline
  have hfilter : (records.flatMap (h.lines db str report)).filter startsRecord =
      (records.filter fun record => h.Prints record).map (renderLine db str) := by
    rw [List.filter_flatMap]
    simp only [filter_startsRecord_written]
    clear hlines hfree
    induction records with
    | nil => rfl
    | cons record records ih => by_cases hprints : h.Prints record <;> simp [hprints, ih]
  rw [readStream, hlines, splitOn_flatMap_lines _ hfree, List.dropLast_concat, hfilter,
    mapM_readRecord]

end Lines

end Floodgate.Ports
