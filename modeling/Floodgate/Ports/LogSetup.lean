import Mathlib.Tactic.Ring
import Floodgate.Verified.QuotedFields
import Floodgate.Ports.PyStr

/-!
# Text log lines

`StructuredTextFormatter` renders a message record as a tag and `key=value`
tokens.  Topics and channel names are chosen by the publisher, so `_escape`
quotes every value that could end a token, a field or a line.  The reader below
undoes the rendering: it splits at the spaces outside quotes, splits each token
at its first `=`, and undoes the escapes.

Field values have any type; `str` renders them.

## Main results

* `undoEscape_escapeText`: reading back what `_escape` wrote.
* `isprintable_of_mem_escapeText`: `_escape` writes printable characters only.
* `formatMessage_unforgeable`: a message line is printable and decodes to
  exactly the fields of its record.
-/

namespace Floodgate.Ports

open Floodgate.Verified.QuotedFields

/-! ## Records -/

/-- `_MESSAGE_FIELDS`. -/
inductive MessageField where
  | topic | channel | encoding | portnum | id | fromNode | toNode
  | hopLimit | hopStart | relay | viaMqtt | bytes
  deriving DecidableEq, Repr

def MessageField.name : MessageField → PyStr
  | .topic => py "topic"
  | .channel => py "channel"
  | .encoding => py "encoding"
  | .portnum => py "portnum"
  | .id => py "id"
  | .fromNode => py "from"
  | .toNode => py "to"
  | .hopLimit => py "hop_limit"
  | .hopStart => py "hop_start"
  | .relay => py "relay"
  | .viaMqtt => py "via_mqtt"
  | .bytes => py "bytes"

/-- `_MESSAGE_FIELDS`, in display order. -/
def messageFields : List MessageField :=
  [.topic, .channel, .encoding, .portnum, .id, .fromNode, .toNode, .hopLimit,
    .hopStart, .relay, .viaMqtt, .bytes]

/-- The outcomes of a message record. -/
inductive Outcome where
  | zerohop | passthru | noop | dropped | warn
  deriving DecidableEq, Repr

/-- `_OUTCOME_TAGS`. -/
def Outcome.tag : Outcome → PyStr
  | .zerohop => py "[ZEROHOP]"
  | .passthru => py "[PASSTHRU]"
  | .noop => py "[NOOP]"
  | .dropped => py "[DROPPED]"
  | .warn => py "[WARN]"

/-- A log record with `event="message"`.  A field that is `None` or not set has
no value. -/
structure MessageRecord (ν : Type) where
  outcome : Outcome
  value : MessageField → Option ν

/-! ## Escaping -/

/-- `_NEEDS_QUOTING`. -/
def needsQuoting : List PyChar := [ch ' ', ch '"', ch '\\', ch '=']

/-- `repr(c)[1:-1]` of a character that is not printable. -/
def reprBody (c : PyChar) : PyStr :=
  if c = ch '\t' then [ch '\\', ch 't']
  else if c = ch '\n' then [ch '\\', ch 'n']
  else if c = ch '\r' then [ch '\\', ch 'r']
  else if c.val < 0x100 then ch '\\' :: ch 'x' :: hexFixed 2 c.val
  else if c.val < 0x10000 then ch '\\' :: ch 'u' :: hexFixed 4 c.val
  else ch '\\' :: ch 'U' :: hexFixed 8 c.val

/-- The loop body of `_escape`. -/
def escapeChar (db : UnicodeDb) (c : PyChar) : PyStr :=
  if c = ch '"' ∨ c = ch '\\' then [ch '\\', c]
  else if db.isprintable c then [c]
  else reprBody c

/-- `_escape` of a value whose text is `text`. -/
def escapeText (db : UnicodeDb) (text : PyStr) : PyStr :=
  if !text.isEmpty && text.all db.isprintable && !text.any needsQuoting.contains then
    text
  else ch '"' :: text.flatMap (escapeChar db) ++ [ch '"']

/-- `StructuredTextFormatter._format_message`. -/
def formatMessage {ν : Type} (db : UnicodeDb) (str : ν → PyStr)
    (record : MessageRecord ν) : PyStr :=
  PyStr.join (py " ") (record.outcome.tag :: messageFields.filterMap fun key =>
    (record.value key).map fun val => key.name ++ py "=" ++ escapeText db (str val))

/-! ## The reader -/

/-- Spaces separate, double quotes enclose, backslashes escape. -/
def lineSyntax : Syntax PyChar where
  separator := ch ' '
  quote := ch '"'
  escape := ch '\\'
  quote_ne_separator := by decide

def digitValue (c : PyChar) : Option Nat :=
  if (ch '0').val ≤ c.val ∧ c.val ≤ (ch '9').val then some (c.val - (ch '0').val)
  else if (ch 'a').val ≤ c.val ∧ c.val ≤ (ch 'f').val then some (c.val - (ch 'a').val + 10)
  else none

/-- Where the reader of a quoted value is: at a character, behind a backslash,
or before some more digits of a code point. -/
inductive EscapeMode where
  | text | escape
  | hex (left value : Nat)

/-- Undo the escapes up to the closing quote, which ends the value. -/
def undoFrom : EscapeMode → PyStr → Option PyStr
  | _, [] => none
  | .text, c :: cs =>
      if c = ch '"' then (if cs.isEmpty then some [] else none)
      else if c = ch '\\' then undoFrom .escape cs
      else (undoFrom .text cs).map (c :: ·)
  | .escape, c :: cs =>
      if c = ch '"' ∨ c = ch '\\' then (undoFrom .text cs).map (c :: ·)
      else if c = ch 't' then (undoFrom .text cs).map (ch '\t' :: ·)
      else if c = ch 'n' then (undoFrom .text cs).map (ch '\n' :: ·)
      else if c = ch 'r' then (undoFrom .text cs).map (ch '\r' :: ·)
      else if c = ch 'x' then undoFrom (.hex 2 0) cs
      else if c = ch 'u' then undoFrom (.hex 4 0) cs
      else if c = ch 'U' then undoFrom (.hex 8 0) cs
      else none
  | .hex left value, c :: cs =>
      match digitValue c with
      | none => none
      | some d =>
          if 1 < left then undoFrom (.hex (left - 1) (value * 16 + d)) cs
          else if h : value * 16 + d < 0x110000 then
            (undoFrom .text cs).map (⟨value * 16 + d, h⟩ :: ·)
          else none

/-- Undo `_escape`. -/
def undoEscape (raw : PyStr) : Option PyStr :=
  match raw with
  | [] => some []
  | c :: cs => if c = ch '"' then undoFrom .text cs else some (c :: cs)

/-- The key and the value of a token. -/
def readField (token : PyStr) : Option (PyStr × PyStr) :=
  (undoEscape (splitAtFirst (ch '=') token).2).map
    fun value => ((splitAtFirst (ch '=') token).1, value)

/-- The tag and the fields of a line. -/
def readLine (line : PyStr) : Option (PyStr × List (PyStr × PyStr)) :=
  match tokens lineSyntax line with
  | [] => none
  | tag :: fields => (fields.mapM readField).map fun fields => (tag, fields)

/-! ## Escapes are undone -/

theorem digitValue_hexDigit {d : Nat} (h : d < 16) : digitValue (hexDigit d) = some d := by
  have hall : ∀ d : Fin 16, digitValue (hexDigit d) = some d.val := by decide
  exact hall ⟨d, h⟩

/-- Digits are read back most significant first, on top of what was read. -/
theorem undoFrom_hexFixed {width n value : Nat} {c : PyChar} (rest : PyStr)
    (hc : c.val = value * 16 ^ (width + 1) + n % 16 ^ (width + 1)) :
    undoFrom (.hex (width + 1) value) (hexFixed (width + 1) n ++ rest) =
      (undoFrom .text rest).map (c :: ·) := by
  induction width generalizing value with
  | zero =>
      have hd : n / 16 ^ 0 % 16 < 16 := Nat.mod_lt _ (by decide)
      have hval : value * 16 + n / 16 ^ 0 % 16 = c.val := by simpa using hc.symm
      simp only [hexFixed, List.cons_append, List.nil_append, undoFrom,
        digitValue_hexDigit hd, hval, c.isLt, dif_pos]
      simp
  | succ width ih =>
      have hd : n / 16 ^ (width + 1) % 16 < 16 := Nat.mod_lt _ (by decide)
      have hval : c.val = (value * 16 + n / 16 ^ (width + 1) % 16) * 16 ^ (width + 1) +
          n % 16 ^ (width + 1) := by
        rw [hc, Nat.mod_pow_succ, pow_succ 16 (width + 1)]
        ring
      rw [hexFixed, List.cons_append, undoFrom, digitValue_hexDigit hd]
      simp only [Nat.lt_add_left_iff_pos, Nat.zero_lt_succ, if_true, Nat.add_sub_cancel]
      exact ih hval

/-- An escape for a character that is not printable is undone. -/
theorem undoFrom_reprBody (c : PyChar) (rest : PyStr) :
    undoFrom .text (reprBody c ++ rest) = (undoFrom .text rest).map (c :: ·) := by
  have hstep : ∀ {m : PyChar} {width : Nat},
      undoFrom .text (ch '\\' :: m :: (hexFixed (width + 1) c.val ++ rest)) =
        undoFrom (.hex (width + 1) 0) (hexFixed (width + 1) c.val ++ rest) →
      c.val < 16 ^ (width + 1) →
      undoFrom .text (ch '\\' :: m :: (hexFixed (width + 1) c.val ++ rest)) =
        (undoFrom .text rest).map (c :: ·) := by
    intro m width hread hlt
    rw [hread]
    exact undoFrom_hexFixed rest (by rw [Nat.mod_eq_of_lt hlt]; omega)
  unfold reprBody
  split
  · next h =>
    subst h
    rfl
  split
  · next h =>
    subst h
    rfl
  split
  · next h =>
    subst h
    rfl
  split
  · exact hstep rfl (by omega)
  split
  · exact hstep rfl (by omega)
  · exact hstep rfl (by omega)

/-- One escaped character is undone. -/
theorem undoFrom_escapeChar (db : UnicodeDb) (c : PyChar) (rest : PyStr) :
    undoFrom .text (escapeChar db c ++ rest) = (undoFrom .text rest).map (c :: ·) := by
  unfold escapeChar
  split
  · next h =>
    simp only [List.cons_append, List.nil_append, undoFrom, h, if_true]
    rfl
  · next h =>
    split
    · simp only [List.cons_append, List.nil_append, undoFrom]
      rw [not_or] at h
      rw [if_neg h.1, if_neg h.2]
    · exact undoFrom_reprBody c rest

/-- A quoted text is undone up to its closing quote. -/
theorem undoFrom_flatMap (db : UnicodeDb) (text : PyStr) :
    undoFrom .text (text.flatMap (escapeChar db) ++ [ch '"']) = some text := by
  induction text with
  | nil => rfl
  | cons c text ih =>
      rw [List.flatMap_cons, List.append_assoc, undoFrom_escapeChar, ih]
      rfl

theorem quote_not_mem_of_plain {text : PyStr}
    (h : text.any needsQuoting.contains = false) :
    ∀ c ∈ needsQuoting, c ∉ text := by
  intro c hc hmem
  rw [List.any_eq_false] at h
  exact h c hmem (by simpa using hc)

/-- Reading back what `_escape` wrote. -/
theorem undoEscape_escapeText (db : UnicodeDb) (text : PyStr) :
    undoEscape (escapeText db text) = some text := by
  unfold escapeText
  split
  · next h =>
    simp only [Bool.and_eq_true, Bool.not_eq_true'] at h
    cases text with
    | nil => rfl
    | cons c cs =>
        have hc : c ≠ ch '"' := by
          rintro rfl
          exact quote_not_mem_of_plain h.2 (ch '"') (by decide) (List.mem_cons_self ..)
        rw [undoEscape, if_neg hc]
  · rw [List.cons_append, undoEscape, if_pos rfl]
    exact undoFrom_flatMap db text

/-- `_escape` keeps different texts apart. -/
theorem escapeText_injective (db : UnicodeDb) : Function.Injective (escapeText db) := by
  intro s t h
  have hs := undoEscape_escapeText db s
  rw [h, undoEscape_escapeText] at hs
  exact (Option.some.inj hs).symm

/-! ## Printable output -/

/-- The text is printable whatever the database says beyond ASCII. -/
def AsciiPrintable (s : PyStr) : Prop := ∀ c ∈ s, 0x20 ≤ c.val ∧ c.val < 0x7F

instance (s : PyStr) : Decidable (AsciiPrintable s) :=
  List.decidableBAll (fun c : PyChar => 0x20 ≤ c.val ∧ c.val < 0x7F) s

theorem AsciiPrintable.isprintable {s : PyStr} (h : AsciiPrintable s) (db : UnicodeDb) :
    ∀ c ∈ s, db.isprintable c = true := by
  intro c hc
  obtain ⟨hlow, hhigh⟩ := h c hc
  rw [db.isprintable_ascii c (by omega), decide_eq_true_iff]
  exact ⟨hlow, hhigh⟩

theorem AsciiPrintable.cons {c : PyChar} {s : PyStr}
    (hc : 0x20 ≤ c.val ∧ c.val < 0x7F) (h : AsciiPrintable s) : AsciiPrintable (c :: s) :=
  List.forall_mem_cons.mpr ⟨hc, h⟩

theorem asciiPrintable_hexFixed (width n : Nat) : AsciiPrintable (hexFixed width n) := by
  induction width with
  | zero => exact fun _ h => absurd h List.not_mem_nil
  | succ width ih =>
      have hall : ∀ d : Fin 16, 0x20 ≤ (hexDigit d).val ∧ (hexDigit d).val < 0x7F := by
        decide
      exact ih.cons (hall ⟨n / 16 ^ width % 16, Nat.mod_lt _ (by decide)⟩)

theorem asciiPrintable_reprBody (c : PyChar) : AsciiPrintable (reprBody c) := by
  unfold reprBody
  split
  · decide
  split
  · decide
  split
  · decide
  split
  · exact ((asciiPrintable_hexFixed 2 _).cons (by decide)).cons (by decide)
  split
  · exact ((asciiPrintable_hexFixed 4 _).cons (by decide)).cons (by decide)
  · exact ((asciiPrintable_hexFixed 8 _).cons (by decide)).cons (by decide)

theorem isprintable_of_mem_escapeChar (db : UnicodeDb) (c : PyChar) :
    ∀ d ∈ escapeChar db c, db.isprintable d = true := by
  unfold escapeChar
  split
  · next h =>
    have hascii : AsciiPrintable [ch '\\', c] := by
      rcases h with rfl | rfl <;> decide
    exact hascii.isprintable db
  · split
    · next h =>
      intro d hd
      rwa [List.mem_singleton.mp hd]
    · exact (asciiPrintable_reprBody c).isprintable db

/-- `_escape` writes printable characters only. -/
theorem isprintable_of_mem_escapeText (db : UnicodeDb) (text : PyStr) :
    ∀ c ∈ escapeText db text, db.isprintable c = true := by
  have hquote : ∀ c ∈ [ch '"'], db.isprintable c = true :=
    AsciiPrintable.isprintable (by decide) db
  unfold escapeText
  split
  · next h =>
    simp only [Bool.and_eq_true] at h
    exact List.all_eq_true.mp h.1.2
  · intro c hc
    rw [List.cons_append, List.mem_cons, List.mem_append, List.mem_flatMap] at hc
    rcases hc with rfl | ⟨d, _, hd⟩ | hc
    · exact hquote _ (List.mem_cons_self ..)
    · exact isprintable_of_mem_escapeChar db d c hd
    · exact hquote c hc

/-! ## Tokens are solid -/

theorem solid_hexFixed_tail (width n : Nat) :
    ch '"' ∉ hexFixed width n ∧ ch '\\' ∉ hexFixed width n := by
  induction width with
  | zero => exact ⟨List.not_mem_nil, List.not_mem_nil⟩
  | succ width ih =>
      have hall : ∀ d : Fin 16, ch '"' ≠ hexDigit d ∧ ch '\\' ≠ hexDigit d := by decide
      have hd := hall ⟨n / 16 ^ width % 16, Nat.mod_lt _ (by decide)⟩
      simp only [hexFixed, List.mem_cons, not_or]
      exact ⟨⟨hd.1, ih.1⟩, hd.2, ih.2⟩

/-- An escaped character stays inside the quotes. -/
theorem solid_escapeChar (db : UnicodeDb) (c : PyChar) :
    Solid lineSyntax .quoted (escapeChar db c) .quoted := by
  have hne : lineSyntax.escape ≠ lineSyntax.quote := by decide
  have hcode : ∀ (m : PyChar) (width : Nat),
      Solid lineSyntax .quoted (ch '\\' :: m :: hexFixed width c.val) .quoted :=
    fun m width => solid_escape (c := m) hne (solid_hexFixed_tail width c.val).1
      (solid_hexFixed_tail width c.val).2
  unfold escapeChar
  split
  · exact solid_escape hne List.not_mem_nil List.not_mem_nil
  · next h =>
    rw [not_or] at h
    split
    · refine solid_quoted ?_ ?_ <;> rw [List.mem_singleton]
      · exact fun e => h.1 e.symm
      · exact fun e => h.2 e.symm
    · unfold reprBody
      split
      · exact solid_escape hne List.not_mem_nil List.not_mem_nil
      split
      · exact solid_escape hne List.not_mem_nil List.not_mem_nil
      split
      · exact solid_escape hne List.not_mem_nil List.not_mem_nil
      split
      · exact hcode _ 2
      split
      · exact hcode _ 4
      · exact hcode _ 8

/-- A rendered value neither ends its token nor leaves a quote open. -/
theorem solid_escapeText (db : UnicodeDb) (text : PyStr) :
    Solid lineSyntax .bare (escapeText db text) .bare := by
  unfold escapeText
  split
  · next h =>
    simp only [Bool.and_eq_true, Bool.not_eq_true'] at h
    exact solid_bare (quote_not_mem_of_plain h.2 (ch ' ') (by decide))
      (quote_not_mem_of_plain h.2 (ch '"') (by decide))
  · exact Solid.enclose (solid_flatMap fun c _ => solid_escapeChar db c)

/-! ## Lines -/

/-- A rendered field. -/
def fieldToken (db : UnicodeDb) (key : MessageField) (text : PyStr) : PyStr :=
  key.name ++ py "=" ++ escapeText db text

theorem MessageField.name_plain (key : MessageField) :
    ch ' ' ∉ key.name ∧ ch '"' ∉ key.name ∧ ch '=' ∉ key.name ∧ AsciiPrintable key.name := by
  cases key <;> decide

theorem Outcome.tag_plain (outcome : Outcome) :
    ch ' ' ∉ outcome.tag ∧ ch '"' ∉ outcome.tag ∧ AsciiPrintable outcome.tag := by
  cases outcome <;> decide

theorem solid_fieldToken (db : UnicodeDb) (key : MessageField) (text : PyStr) :
    Solid lineSyntax .bare (fieldToken db key text) .bare := by
  obtain ⟨hspace, hquote, -, -⟩ := key.name_plain
  have hmark : Solid lineSyntax .bare (py "=") .bare :=
    solid_bare (by decide) (by decide)
  exact ((solid_bare hspace hquote).append hmark).append (solid_escapeText db text)

/-- A rendered field reads back as its key and the text of its value. -/
theorem readField_fieldToken (db : UnicodeDb) (key : MessageField) (text : PyStr) :
    readField (fieldToken db key text) = some (key.name, text) := by
  have hsplit : splitAtFirst (ch '=') (fieldToken db key text) =
      (key.name, escapeText db text) := by
    rw [fieldToken, List.append_assoc]
    exact splitAtFirst_append key.name_plain.2.2.1 _
  rw [readField, hsplit, undoEscape_escapeText]
  rfl

theorem mapM_readField (db : UnicodeDb) (fields : List (MessageField × PyStr)) :
    (fields.map fun field => fieldToken db field.1 field.2).mapM readField =
      some (fields.map fun field => (field.1.name, field.2)) := by
  induction fields with
  | nil => rfl
  | cons field fields ih =>
      rw [List.map_cons, List.mapM_cons, readField_fieldToken, ih]
      rfl

theorem isprintable_of_mem_fieldToken (db : UnicodeDb) (key : MessageField)
    (text : PyStr) : ∀ c ∈ fieldToken db key text, db.isprintable c = true := by
  intro c hc
  rw [fieldToken, List.mem_append, List.mem_append] at hc
  rcases hc with (hc | hc) | hc
  · exact key.name_plain.2.2.2.isprintable db c hc
  · exact AsciiPrintable.isprintable (s := py "=") (by decide) db c hc
  · exact isprintable_of_mem_escapeText db text c hc

/-- The fields that a record has, each with the text of its value, in display
order. -/
def MessageRecord.fields {ν : Type} (str : ν → PyStr) (record : MessageRecord ν) :
    List (MessageField × PyStr) :=
  messageFields.filterMap fun key => (record.value key).map fun val => (key, str val)

/-- The `(field name, str(value))` pairs of a record. -/
def MessageRecord.shown {ν : Type} (str : ν → PyStr) (record : MessageRecord ν) :
    List (PyStr × PyStr) :=
  (record.fields str).map fun field => (field.1.name, field.2)

theorem join_eq_joinTokens (parts : List PyStr) :
    PyStr.join (py " ") parts = joinTokens lineSyntax parts := by
  induction parts with
  | nil => rfl
  | cons part parts ih =>
      cases parts with
      | nil => rfl
      | cons part' parts =>
          rw [PyStr.join, joinTokens, ih, List.append_assoc]
          · rfl
          · exact List.cons_ne_nil _ _
          · exact List.cons_ne_nil _ _

section Lines

variable {ν : Type} (db : UnicodeDb) (str : ν → PyStr) (record : MessageRecord ν)

/-- A message line is the tag and the rendered fields, joined. -/
theorem formatMessage_eq :
    formatMessage db str record = joinTokens lineSyntax (record.outcome.tag ::
      (record.fields str).map fun field => fieldToken db field.1 field.2) := by
  rw [formatMessage, join_eq_joinTokens, MessageRecord.fields, List.map_filterMap]
  simp only [Option.map_map]
  rfl

/-- A message line reads back as the tag and the fields. -/
theorem readLine_formatMessage :
    readLine (formatMessage db str record) =
      some (record.outcome.tag, record.shown str) := by
  have hsolid : ∀ t ∈ record.outcome.tag :: (record.fields str).map
      (fun field => fieldToken db field.1 field.2), Solid lineSyntax .bare t .bare := by
    intro t ht
    rcases List.mem_cons.mp ht with rfl | ht
    · exact solid_bare record.outcome.tag_plain.1 record.outcome.tag_plain.2.1
    · obtain ⟨field, _, rfl⟩ := List.mem_map.mp ht
      exact solid_fieldToken db field.1 field.2
  rw [readLine, formatMessage_eq, tokens_joinTokens (List.cons_ne_nil _ _) hsolid]
  simp only [mapM_readField]
  rfl

/-- A message line is printable. -/
theorem isprintable_of_mem_formatMessage :
    ∀ c ∈ formatMessage db str record, db.isprintable c = true := by
  intro c hc
  rw [formatMessage_eq] at hc
  rcases mem_joinTokens hc with rfl | ⟨t, ht, hct⟩
  · exact AsciiPrintable.isprintable (s := py " ") (by decide) db _ (List.mem_cons_self ..)
  · rcases List.mem_cons.mp ht with rfl | ht
    · exact record.outcome.tag_plain.2.2.isprintable db c hct
    · obtain ⟨field, _, rfl⟩ := List.mem_map.mp ht
      exact isprintable_of_mem_fieldToken db field.1 field.2 c hct

/-- A message line cannot be forged: it is printable and decodes to the tag and
the fields of its record, `_escape` keeps texts apart, and so records with one
tag and different field texts have different lines. -/
theorem formatMessage_unforgeable :
    (∀ c ∈ formatMessage db str record, db.isprintable c = true) ∧
      readLine (formatMessage db str record) =
        some (record.outcome.tag, record.shown str) ∧
      Function.Injective (escapeText db) ∧
      ∀ record' : MessageRecord ν, record'.outcome = record.outcome →
        record'.shown str ≠ record.shown str →
          formatMessage db str record' ≠ formatMessage db str record := by
  refine ⟨isprintable_of_mem_formatMessage db str record,
    readLine_formatMessage db str record, escapeText_injective db, ?_⟩
  intro record' _ hne heq
  have hread := readLine_formatMessage db str record'
  rw [heq, readLine_formatMessage, Option.some.injEq, Prod.mk.injEq] at hread
  exact hne hread.2.symm

end Lines

end Floodgate.Ports
