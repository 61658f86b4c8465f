import Floodgate.Ports.Accounting
import Floodgate.Ports.JsonRoundTrip
import Floodgate.Ports.LogText

/-!
# Records without fields

The warnings of `zerohop_json` and `zerohop_protobuf`, and the error that the catch-all of
`process_message` logs, are texts with what a publisher sent in them: the topic, and the
values of bad hop fields.  Both are written with `repr`, so that they cannot break the
line, and the topic can be read back.  What the decoder and the log handler raise has
an ASCII text.

## Main results

* `readLiteral_reprStr`: the `repr` of a string is read back, with any text behind it.
* `printable_reprJson`: the `repr` of a value of `json.loads` is printable.
* `printableErrors_of_codec`: what the decoder raises is printable.
* `plain_texts_of_call`: what a call logs without fields stays on its line.
-/

namespace Floodgate.Ports

open Floodgate.Verified
open Floodgate.Verified.Segments (dropPrefix?_append)

/-! ## Printable texts -/

/-- Every character of the text is printable. -/
def Printable (db : UnicodeDb) (text : PyStr) : Prop := ∀ c ∈ text, db.isprintable c = true

section Printable

variable {db : UnicodeDb} {s t : PyStr}

theorem Printable.append (hs : Printable db s) (ht : Printable db t) : Printable db (s ++ t) :=
  List.forall_mem_append.mpr ⟨hs, ht⟩

theorem Printable.join {sep : PyStr} {parts : List PyStr} (hsep : Printable db sep)
    (hparts : ∀ part ∈ parts, Printable db part) : Printable db (PyStr.join sep parts) := by
  intro c hc
  rcases PyStr.mem_join hc with h | ⟨part, hpart, h⟩
  · exact hsep c h
  · exact hparts part hpart c h

theorem AsciiPrintable.printable (h : AsciiPrintable s) (db : UnicodeDb) : Printable db s :=
  h.isprintable db

theorem asciiPrintable_intText (n : Int) : AsciiPrintable (intText n) := by
  have hnat : ∀ n : Nat, AsciiPrintable (intText n) := by
    intro n c hc
    have hzero : (ch '0').val = 0x30 := rfl
    have hnine : (ch '9').val = 0x39 := rfl
    have hdigit := digit_of_mem_intText hc
    omega
  cases n with
  | ofNat n => exact hnat n
  | negSucc n =>
      have hstring : toString (Int.negSucc n) = "-" ++ toString (n + 1) := rfl
      have htext : intText (Int.negSucc n) = ch '-' :: intText (n + 1 : Nat) := by
        rw [intText, hstring, py, String.toList_append, List.map_append]
        rfl
      rw [htext]
      exact (hnat (n + 1)).cons (by decide)

end Printable

/-! ## `repr` -/

section Repr

variable (db : UnicodeDb)

/-- The quotes of `repr`: double ones around a text with single ones only. -/
def reprQuote (s : PyStr) : PyChar :=
  if s.contains (ch '\'') && !s.contains (ch '"') then ch '"' else ch '\''

/-- `repr`, for one character. -/
def reprChar (quote c : PyChar) : PyStr :=
  if c = quote ∨ c = ch '\\' then [ch '\\', c]
  else if db.isprintable c then [c]
  else reprBody c

/-- `repr` of a string. -/
def reprStr (s : PyStr) : PyStr :=
  reprQuote s :: (s.flatMap (reprChar db (reprQuote s)) ++ [reprQuote s])

variable (C : JsonCodec)

/-- `repr` of a float. -/
def reprFloat (x : PyFloat) : PyStr :=
  if x.isFinite then (C.floatLit x).text
  else if x.isNaN then py "nan"
  else if x.msb then py "-inf"
  else py "inf"

mutual
/-- `repr` of a value of `json.loads`. -/
def reprJson : Json → PyStr
  | .null => py "None"
  | .bool b => if b then py "True" else py "False"
  | .int n => intText n
  | .float x => reprFloat C x
  | .str s => reprStr db s
  | .list xs => ch '[' :: (PyStr.join (py ", ") (reprItems xs) ++ [ch ']'])
  | .dict ms => openBrace :: (PyStr.join (py ", ") (reprMembers ms) ++ [closeBrace])

def reprItems : List Json → List PyStr
  | [] => []
  | x :: xs => reprJson x :: reprItems xs

def reprMembers : List (PyStr × Json) → List PyStr
  | [] => []
  | (k, v) :: ms => (reprStr db k ++ (py ": " ++ reprJson v)) :: reprMembers ms
end

/-- `str` of a value of `json.loads`. -/
def strJson : Json → PyStr
  | .str s => s
  | v => reprJson db C v

example : reprStr .ascii (py "it's\n") = py "\"it's\\n\"" := by decide

variable {db C}

theorem isQuote_reprQuote (s : PyStr) : reprQuote s = ch '"' ∨ reprQuote s = ch '\'' := by
  unfold reprQuote
  split
  · exact Or.inl rfl
  · exact Or.inr rfl

theorem printable_reprChar {quote : PyChar} (hquote : quote = ch '"' ∨ quote = ch '\'')
    (c : PyChar) : Printable db (reprChar db quote c) := by
  unfold reprChar
  split
  · next h =>
    have hascii : AsciiPrintable [ch '\\', c] := by
      rcases hquote with rfl | rfl <;> rcases h with rfl | rfl <;> decide
    exact hascii.printable db
  · split
    · next hc => exact fun d hd => by rwa [List.mem_singleton.mp hd]
    · exact (asciiPrintable_reprBody c).printable db

theorem printable_reprStr (s : PyStr) : Printable db (reprStr db s) := by
  have hquote : Printable db [reprQuote s] := by
    have hascii : AsciiPrintable [reprQuote s] := by
      rcases isQuote_reprQuote s with h | h <;> rw [h] <;> decide
    exact hascii.printable db
  have hbody : Printable db (s.flatMap (reprChar db (reprQuote s))) := by
    intro c hc
    obtain ⟨d, -, hc⟩ := List.mem_flatMap.mp hc
    exact printable_reprChar (isQuote_reprQuote s) d c hc
  exact hquote.append (hbody.append hquote)

theorem asciiPrintable_append {s t : PyStr} (hs : AsciiPrintable s) (ht : AsciiPrintable t) :
    AsciiPrintable (s ++ t) :=
  List.forall_mem_append.mpr ⟨hs, ht⟩

theorem asciiPrintable_digitsText (ds : List Digit) : AsciiPrintable (digitsText ds) := by
  have hall : ∀ d : Digit, AsciiPrintable [digitChar d] := by decide
  intro c hc
  obtain ⟨d, -, rfl⟩ := List.mem_map.mp hc
  exact hall d _ (List.mem_singleton_self _)

/-- A number is written in printable characters. -/
theorem asciiPrintable_numberText (lit : NumberLit) : AsciiPrintable lit.text := by
  have hfrac : AsciiPrintable (fracText lit.frac) := by
    unfold fracText
    split
    · decide
    · exact (asciiPrintable_digitsText _).cons (by decide)
  have hexp : AsciiPrintable (expText lit.exp) := by
    cases lit.exp with
    | none => decide
    | some e =>
        have hsign : AsciiPrintable (signText e.sign) := by
          rcases e.sign with _ | _ | _ <;> decide
        have hletter : 0x20 ≤ (ch (if e.upper then 'E' else 'e')).val ∧
            (ch (if e.upper then 'E' else 'e')).val < 0x7F := by
          cases e.upper <;> decide
        exact (asciiPrintable_append hsign (asciiPrintable_digitsText _)).cons hletter
  have hunsigned : AsciiPrintable lit.unsignedText :=
    asciiPrintable_append (asciiPrintable_digitsText _) (asciiPrintable_append hfrac hexp)
  unfold NumberLit.text
  split
  · exact hunsigned.cons (by decide)
  · exact hunsigned

theorem printable_reprFloat (x : PyFloat) : Printable db (reprFloat C x) := by
  unfold reprFloat
  split
  · exact (asciiPrintable_numberText _).printable db
  · split
    · exact AsciiPrintable.printable (by decide) db
    · split <;> exact AsciiPrintable.printable (by decide) db

theorem printable_bracketed {o c : PyChar} {parts : List PyStr} (ho : AsciiPrintable [o])
    (hc : AsciiPrintable [c]) (hparts : ∀ part ∈ parts, Printable db part) :
    Printable db (o :: (PyStr.join (py ", ") parts ++ [c])) := by
  have hsep : AsciiPrintable (py ", ") := by decide
  exact (ho.printable db).append
    ((Printable.join (hsep.printable db) hparts).append (hc.printable db))

mutual
/-- The `repr` of a decoded value is printable, at any depth. -/
theorem printable_reprJson : (v : Json) → Printable db (reprJson db C v)
  | .null => by
      have hword : AsciiPrintable (py "None") := by decide
      exact hword.printable db
  | .bool b => by
      have hwords : AsciiPrintable (py "True") ∧ AsciiPrintable (py "False") := by decide
      cases b
      · exact hwords.2.printable db
      · exact hwords.1.printable db
  | .int n => (asciiPrintable_intText n).printable db
  | .float x => printable_reprFloat x
  | .str s => printable_reprStr s
  | .list xs => printable_bracketed (by decide) (by decide) (printable_reprItems xs)
  | .dict ms => printable_bracketed (by decide) (by decide) (printable_reprMembers ms)

theorem printable_reprItems : (xs : List Json) → ∀ part ∈ reprItems db C xs, Printable db part
  | [] => fun _ h => absurd h List.not_mem_nil
  | x :: xs => List.forall_mem_cons.mpr ⟨printable_reprJson x, printable_reprItems xs⟩

theorem printable_reprMembers :
    (ms : List (PyStr × Json)) → ∀ part ∈ reprMembers db C ms, Printable db part
  | [] => fun _ h => absurd h List.not_mem_nil
  | (k, v) :: ms => List.forall_mem_cons.mpr
      ⟨(printable_reprStr k).append
        ((AsciiPrintable.printable (by decide) db).append (printable_reprJson v)),
        printable_reprMembers ms⟩
end

end Repr

/-! ## Reading a literal -/

/-- The body of a literal up to its closing quote, and what is behind it.  After a
backslash, a character stands for itself. -/
def splitLiteral (quote : PyChar) : Bool → PyStr → Option (PyStr × PyStr)
  | _, [] => none
  | true, c :: cs => (splitLiteral quote false cs).map fun r => (c :: r.1, r.2)
  | false, c :: cs =>
      if c = quote then some ([], cs)
      else (splitLiteral quote (decide (c = ch '\\')) cs).map fun r => (c :: r.1, r.2)

/-- Single quotes for double ones, and the other way. -/
def swapQuote (c : PyChar) : PyChar :=
  if c = ch '"' then ch '\'' else if c = ch '\'' then ch '"' else c

/-- The text that the body of a literal stands for. -/
def readBody (quote : PyChar) (body : PyStr) : Option PyStr :=
  if quote = ch '"' then undoFrom .text (body ++ [ch '"'])
  else (undoFrom .text (body.map swapQuote ++ [ch '"'])).map fun s => s.map swapQuote

/-- A literal, and the text behind it. -/
def readLiteral : PyStr → Option (PyStr × PyStr)
  | [] => none
  | quote :: cs => do
      let (body, rest) ← splitLiteral quote false cs
      return (← readBody quote body, rest)

section Literal

variable {db : UnicodeDb} {quote : PyChar}

theorem splitLiteral_plain {body : PyStr} (h : ∀ c ∈ body, c ≠ quote ∧ c ≠ ch '\\')
    (rest : PyStr) :
    splitLiteral quote false (body ++ rest) =
      (splitLiteral quote false rest).map fun r => (body ++ r.1, r.2) := by
  induction body with
  | nil => simp
  | cons c body ih =>
      obtain ⟨⟨hquote, hslash⟩, hbody⟩ := List.forall_mem_cons.mp h
      rw [List.cons_append, splitLiteral, if_neg hquote, decide_eq_false hslash, ih hbody,
        Option.map_map]
      rfl

/-- A backslash and a character, and plain characters behind them. -/
theorem splitLiteral_escape (hquote : ch '\\' ≠ quote) (c : PyChar) {body : PyStr}
    (h : ∀ c ∈ body, c ≠ quote ∧ c ≠ ch '\\') (rest : PyStr) :
    splitLiteral quote false (ch '\\' :: c :: body ++ rest) =
      (splitLiteral quote false rest).map fun r => (ch '\\' :: c :: body ++ r.1, r.2) := by
  rw [List.cons_append, List.cons_append, splitLiteral, if_neg hquote, decide_eq_true rfl,
    splitLiteral, splitLiteral_plain h, Option.map_map, Option.map_map]
  rfl

theorem plain_hexFixed (hquote : quote = ch '"' ∨ quote = ch '\'') (width n : Nat) :
    ∀ c ∈ hexFixed width n, c ≠ quote ∧ c ≠ ch '\\' := by
  have hall : ∀ d : Fin 16, hexDigit d ≠ ch '"' ∧ hexDigit d ≠ ch '\'' ∧
      hexDigit d ≠ ch '\\' := by decide
  induction width with
  | zero => exact fun _ h => absurd h List.not_mem_nil
  | succ width ih =>
      refine List.forall_mem_cons.mpr ⟨?_, ih⟩
      obtain ⟨hdouble, hsingle, hslash⟩ := hall ⟨n / 16 ^ width % 16, Nat.mod_lt _ (by decide)⟩
      rcases hquote with rfl | rfl
      · exact ⟨hdouble, hslash⟩
      · exact ⟨hsingle, hslash⟩

/-- What stands for one character does not close a literal. -/
theorem splitLiteral_reprChar (hquote : quote = ch '"' ∨ quote = ch '\'') (c : PyChar)
    (rest : PyStr) :
    splitLiteral quote false (reprChar db quote c ++ rest) =
      (splitLiteral quote false rest).map fun r => (reprChar db quote c ++ r.1, r.2) := by
  have hslash : ch '\\' ≠ quote := by
    rcases hquote with rfl | rfl <;> decide
  have hnil : ∀ c ∈ ([] : PyStr), c ≠ quote ∧ c ≠ ch '\\' := fun _ h => absurd h List.not_mem_nil
  unfold reprChar
  split
  · exact splitLiteral_escape hslash c hnil rest
  · next h =>
    rw [not_or] at h
    split
    · exact splitLiteral_plain (List.forall_mem_singleton.mpr h) rest
    · unfold reprBody
      split
      · exact splitLiteral_escape hslash _ hnil rest
      split
      · exact splitLiteral_escape hslash _ hnil rest
      split
      · exact splitLiteral_escape hslash _ hnil rest
      split
      · exact splitLiteral_escape hslash _ (plain_hexFixed hquote 2 c.val) rest
      split
      · exact splitLiteral_escape hslash _ (plain_hexFixed hquote 4 c.val) rest
      · exact splitLiteral_escape hslash _ (plain_hexFixed hquote 8 c.val) rest

theorem splitLiteral_flatMap (hquote : quote = ch '"' ∨ quote = ch '\'') (s rest : PyStr) :
    splitLiteral quote false (s.flatMap (reprChar db quote) ++ quote :: rest) =
      some (s.flatMap (reprChar db quote), rest) := by
  induction s with
  | nil => simp [splitLiteral]
  | cons c s ih =>
      rw [List.flatMap_cons, List.append_assoc, splitLiteral_reprChar hquote, ih]
      rfl

theorem swapQuote_swapQuote (c : PyChar) : swapQuote (swapQuote c) = c := by
  unfold swapQuote
  by_cases hdouble : c = ch '"'
  · subst hdouble
    decide
  · by_cases hsingle : c = ch '\''
    · subst hsingle
      decide
    · simp [hdouble, hsingle]

theorem swapQuote_of_ne {c : PyChar} (h : c ≠ ch '"' ∧ c ≠ ch '\'') : swapQuote c = c := by
  rw [swapQuote, if_neg h.1, if_neg h.2]

theorem map_swapQuote_reprBody (c : PyChar) : (reprBody c).map swapQuote = reprBody c := by
  have hhex : ∀ width n, (hexFixed width n).map swapQuote = hexFixed width n := by
    intro width n
    refine (List.map_congr_left fun d hd => ?_).trans (List.map_id _)
    exact swapQuote_of_ne ⟨(plain_hexFixed (Or.inl rfl) width n d hd).1,
      (plain_hexFixed (Or.inr rfl) width n d hd).1⟩
  unfold reprBody
  split
  · decide
  split
  · decide
  split
  · decide
  split
  · rw [List.map_cons, List.map_cons, hhex]
    rfl
  split
  · rw [List.map_cons, List.map_cons, hhex]
    rfl
  · rw [List.map_cons, List.map_cons, hhex]
    rfl

/-- With the quotes swapped, single quotes are escaped as double ones are. -/
theorem map_swapQuote_reprChar (c : PyChar) :
    (reprChar db (ch '\'') c).map swapQuote = escapeChar db (swapQuote c) := by
  have hprintable : db.isprintable (ch '"') = true ∧ db.isprintable (ch '\'') = true :=
    ⟨db.isprintable_ascii _ (by decide), db.isprintable_ascii _ (by decide)⟩
  by_cases hdouble : c = ch '"'
  · subst hdouble
    simp only [reprChar, escapeChar, swapQuote, hprintable, if_true]
    decide
  · by_cases hsingle : c = ch '\''
    · subst hsingle
      rw [reprChar, if_pos (Or.inl rfl), escapeChar, if_pos (by decide)]
      decide
    · have hc : swapQuote c = c := swapQuote_of_ne ⟨hdouble, hsingle⟩
      rw [hc, reprChar, escapeChar]
      by_cases hslash : c = ch '\\'
      · rw [if_pos (Or.inr hslash), if_pos (Or.inr hslash), hslash]
        decide
      · rw [if_neg (not_or.mpr ⟨hsingle, hslash⟩), if_neg (not_or.mpr ⟨hdouble, hslash⟩)]
        split
        · rw [List.map_singleton, hc]
        · exact map_swapQuote_reprBody c

/-- The body of a literal stands for its text. -/
theorem readBody_flatMap (hquote : quote = ch '"' ∨ quote = ch '\'') (s : PyStr) :
    readBody quote (s.flatMap (reprChar db quote)) = some s := by
  rcases hquote with rfl | rfl
  · rw [readBody, if_pos rfl]
    exact undoFrom_flatMap db s
  · have hbody : (s.flatMap (reprChar db (ch '\''))).map swapQuote =
        (s.map swapQuote).flatMap (escapeChar db) := by
      rw [List.map_flatMap, List.flatMap_map]
      exact List.flatMap_congr fun c _ => map_swapQuote_reprChar c
    rw [readBody, if_neg (by decide), hbody, undoFrom_flatMap, Option.map_some, List.map_map]
    exact congrArg some ((List.map_congr_left fun c _ => swapQuote_swapQuote c).trans
      (List.map_id s))

/-- The `repr` of a string is read back, with any text behind it. -/
theorem readLiteral_reprStr (s rest : PyStr) :
    readLiteral (reprStr db s ++ rest) = some (s, rest) := by
  have hquote := isQuote_reprQuote s
  have hsplit : splitLiteral (reprQuote s) false
      (s.flatMap (reprChar db (reprQuote s)) ++ reprQuote s :: rest) =
      some (s.flatMap (reprChar db (reprQuote s)), rest) := splitLiteral_flatMap hquote s rest
  rw [reprStr, List.cons_append, List.append_assoc, List.singleton_append, readLiteral]
  simp only [hsplit, readBody_flatMap hquote, Option.bind_eq_bind, Option.bind_some]
  rfl

end Literal

/-! ## What a call logs -/

/-- `type(exc).__name__`. -/
def ErrKind.className : ErrKind → PyStr
  | .importError => py "ImportError"
  | .keyError => py "KeyError"
  | .indexError => py "IndexError"
  | .typeError => py "TypeError"
  | .valueError => py "ValueError"
  | .unicodeDecodeError => py "UnicodeDecodeError"
  | .osError => py "OSError"
  | .yamlError => py "YAMLError"
  | .jsonDecodeError => py "JSONDecodeError"
  | .protoDecodeError => py "DecodeError"
  | .runtimeError => py "RuntimeError"
  | .recursionError => py "RecursionError"

/-- `type(data).__name__`. -/
def Json.typeName : Json → PyStr
  | .null => py "NoneType"
  | .bool _ => py "bool"
  | .int _ => py "int"
  | .float _ => py "float"
  | .str _ => py "str"
  | .list _ => py "list"
  | .dict _ => py "dict"

/-- `"%s(%s)"` of the class and the text of an exception. -/
def PyErr.shown (e : PyErr) : PyStr := e.kind.className ++ (py "(" ++ (e.text ++ py ")"))

section Texts

variable (rt : Runtime) (C : JsonCodec)

/-- The warning of a payload that does not parse. -/
def parseFailure (format : PyStr) (payload : Bytes) (e : PyErr) : RecordLevel × PyStr :=
  (.warning, py "Failed to parse " ++ (format ++ (py " payload (" ++ (intText payload.length ++
    (py " bytes): " ++ e.shown)))))

/-- The records of `zerohop_json`. -/
def zerohopJsonTexts (payload : Bytes) : List (RecordLevel × PyStr) :=
  match rt.json.loads payload with
  | .error e => [parseFailure (py "JSON") payload e]
  | .ok doc =>
      match doc.asDict with
      | none => [(.warning, py "JSON payload is a " ++ (doc.val.typeName ++
          (py ", not an object (" ++ (intText payload.length ++ py " bytes)"))))]
      | some data =>
          if !(badHopFields data).isEmpty then
            match badHopFault rt data with
            | some _ => []
            | none =>
                [(.warning, py "JSON hop field(s) not integers: " ++
                  PyStr.join (py ", ") ((badHopFields data).map fun k =>
                    k ++ (py "=" ++ reprJson rt.unicode C (data.get k))))]
          else
            [(.debug, py "zerohop_json: parsed " ++ (intText payload.length ++
              (py " bytes, keys=" ++ reprJson rt.unicode C
                (.list ((Assoc.keys data.members).map .str)))))]

/-- The records of `zerohop_protobuf`, once the modules are loaded. -/
def zerohopProtobufTexts (payload : Bytes) : List (RecordLevel × PyStr) :=
  match rt.protos with
  | none => []
  | some protos =>
      match protos.parseEnvelope payload with
      | .error e => [parseFailure (py "protobuf") payload e]
      | .ok envelope =>
          (.debug, py "zerohop_protobuf: parsed " ++ (intText payload.length ++
            (py " bytes, has_packet=" ++
              if envelope.packet.isSome then py "True" else py "False"))) ::
          match envelope.packet with
          | none => [(.debug, py "ServiceEnvelope has no packet field")]
          | some pkt =>
              (.debug, py "zerohop_protobuf: old_hop=" ++ intText pkt.hopLimit.toNat) ::
              if pkt.hopLimit.toNat = 0 then []
              else [(.debug, py "zerohop_protobuf: serialized " ++
                (intText (protos.serializeEnvelope
                  { envelope with packet := some pkt.zeroHop }).length ++ py " bytes"))]

/-- The record of the handler of `process_message`. -/
def unhandledText (topic : PyStr) (e : PyErr) : RecordLevel × PyStr :=
  (.error, py "Unhandled exception processing topic=" ++ (reprStr rt.unicode topic ++
    (py ": " ++ e.shown)))

namespace Call

/-- The records of the zero-hop functions, when the call gets to them. -/
def zerohopTexts (call : Call) : List (RecordLevel × PyStr) :=
  match parseMeshtasticTopic call.topic with
  | none => []
  | some (channel, encoding) =>
      match dropMatches rt call.payload call.config channel encoding,
        shouldZerohop call.config channel with
      | .ok false, .ok true =>
          match encoding with
          | .json => zerohopJsonTexts rt C call.payload
          | .e => zerohopProtobufTexts rt call.payload
      | _, _ => []

/-- What is raised in a call, if anything. -/
def raised (call : Call) : Option PyErr :=
  match judge rt call.topic call.payload call.config with
  | .error e => some e
  | .ok v =>
      match v.record with
      | .error e => some e
      | .ok _ => none

/-- The records without fields of a call. -/
def plainTexts (call : Call) : List (RecordLevel × PyStr) :=
  call.zerohopTexts rt C ++ ((call.raised rt).map (unhandledText rt call.topic)).toList

end Call

/-- The topic that the record of the handler tells. -/
def readTopic (text : PyStr) : Option PyStr :=
  (text.dropPrefix? (py "Unhandled exception processing topic=")).bind fun rest =>
    (readLiteral rest).map Prod.fst

theorem readTopic_unhandledText (topic : PyStr) (e : PyErr) :
    readTopic (unhandledText rt topic e).2 = some topic := by
  simp only [readTopic, unhandledText, dropPrefix?_append, Option.bind_some,
    readLiteral_reprStr, Option.map_some]

/-- The text stays on its line, and the line is not taken for one with a tag. -/
structure StaysOnLine (db : UnicodeDb) (text : PyStr) : Prop where
  printable : Printable db text
  untagged : text.head? ≠ some (ch '[')

/-- The exceptions of the libraries have texts that are printable. -/
structure PrintableErrors (rt : Runtime) (payload : Bytes) : Prop where
  json : ∀ e, rt.json.loads payload = .error e → Printable rt.unicode e.text
  protobuf : ∀ protos e, rt.protos = some protos → protos.parseEnvelope payload = .error e →
    Printable rt.unicode e.text

variable {rt C} {db : UnicodeDb}

theorem StaysOnLine.plainText {text : PyStr} (h : StaysOnLine db text) :
    ∃ p : PlainText, p.text = text := by
  refine ⟨⟨text, h.untagged, fun hmem => ?_⟩, rfl⟩
  have hprintable := h.printable _ hmem
  rw [newline_not_isprintable] at hprintable
  cases hprintable

theorem staysOnLine_append {front rest : PyStr}
    (hfront : AsciiPrintable front ∧ front ≠ [] ∧ front.head? ≠ some (ch '['))
    (hrest : Printable db rest) : StaysOnLine db (front ++ rest) where
  printable := (hfront.1.printable db).append hrest
  untagged := by
    obtain ⟨-, hne, hhead⟩ := hfront
    rwa [List.head?_append_of_ne_nil front hne]

theorem printable_shown {e : PyErr} (h : Printable db e.text) : Printable db e.shown := by
  have hclass : AsciiPrintable e.kind.className := by
    cases e.kind <;> decide
  have hopen : AsciiPrintable (py "(") := by decide
  have hclose : AsciiPrintable (py ")") := by decide
  exact (hclass.printable db).append
    ((hopen.printable db).append (h.append (hclose.printable db)))

theorem staysOnLine_parseFailure {format : PyStr} (hformat : AsciiPrintable format)
    (payload : Bytes) {e : PyErr} (h : Printable db e.text) :
    StaysOnLine db (parseFailure format payload e).2 := by
  have hpayload : AsciiPrintable (py " payload (") := by decide
  have hbytes : AsciiPrintable (py " bytes): ") := by decide
  refine staysOnLine_append (by decide) ((hformat.printable db).append
    ((hpayload.printable db).append (((asciiPrintable_intText _).printable db).append
      ((hbytes.printable db).append (printable_shown h)))))

theorem staysOnLine_zerohopJsonTexts {payload : Bytes} (h : PrintableErrors rt payload) :
    ∀ r ∈ zerohopJsonTexts rt C payload, StaysOnLine rt.unicode r.2 := by
  have hbytes : AsciiPrintable (py " bytes)") := by decide
  have hobject : AsciiPrintable (py ", not an object (") := by decide
  have hkeys : AsciiPrintable (py " bytes, keys=") := by decide
  have hcomma : AsciiPrintable (py ", ") := by decide
  have hequals : AsciiPrintable (py "=") := by decide
  have hlength := fun n => (asciiPrintable_intText n).printable rt.unicode
  unfold zerohopJsonTexts
  split
  · next e hloads =>
    exact List.forall_mem_singleton.mpr
      (staysOnLine_parseFailure (by decide) payload (h.json e hloads))
  · next doc hloads =>
    split
    · have htype : AsciiPrintable doc.val.typeName := by
        cases doc.val <;> (rw [Json.typeName]; decide)
      exact List.forall_mem_singleton.mpr (staysOnLine_append (by decide)
        ((htype.printable _).append ((hobject.printable _).append
          ((hlength _).append (hbytes.printable _)))))
    · next data =>
      split
      · split
        · exact fun _ hr => absurd hr List.not_mem_nil
        · refine List.forall_mem_singleton.mpr (staysOnLine_append (by decide)
            (Printable.join (hcomma.printable _) fun part hpart => ?_))
          obtain ⟨k, hk, rfl⟩ := List.mem_map.mp hpart
          have hfield : AsciiPrintable k := by
            have hall : ∀ k ∈ hopFields, AsciiPrintable k := by decide
            exact hall k (List.mem_of_mem_filter hk)
          exact (hfield.printable _).append
            ((hequals.printable _).append (printable_reprJson _))
      · exact List.forall_mem_singleton.mpr (staysOnLine_append (by decide)
          ((hlength _).append ((hkeys.printable _).append (printable_reprJson _))))

theorem staysOnLine_zerohopProtobufTexts {payload : Bytes} (h : PrintableErrors rt payload) :
    ∀ r ∈ zerohopProtobufTexts rt payload, StaysOnLine rt.unicode r.2 := by
  have hlength := fun n => (asciiPrintable_intText n).printable rt.unicode
  have hpacket : AsciiPrintable (py " bytes, has_packet=") := by decide
  have hwords : AsciiPrintable (py "True") ∧ AsciiPrintable (py "False") := by decide
  have hbytes : AsciiPrintable (py " bytes") := by decide
  unfold zerohopProtobufTexts
  split
  · exact fun _ hr => absurd hr List.not_mem_nil
  · next protos hprotos =>
    split
    · next e hparse =>
      exact List.forall_mem_singleton.mpr
        (staysOnLine_parseFailure (by decide) payload (h.protobuf protos e hprotos hparse))
    · next envelope hparse =>
      refine List.forall_mem_cons.mpr ⟨?_, ?_⟩
      · refine staysOnLine_append (by decide) ((hlength _).append ((hpacket.printable _).append ?_))
        split
        · exact hwords.1.printable _
        · exact hwords.2.printable _
      · split
        · have htext : AsciiPrintable (py "ServiceEnvelope has no packet field") := by decide
          exact List.forall_mem_singleton.mpr ⟨htext.printable _, by decide⟩
        · next pkt hpkt =>
          refine List.forall_mem_cons.mpr ⟨staysOnLine_append (by decide) (hlength _), ?_⟩
          split
          · exact fun _ hr => absurd hr List.not_mem_nil
          · exact List.forall_mem_singleton.mpr (staysOnLine_append (by decide)
              ((hlength _).append (hbytes.printable _)))

/-! ### What is raised -/

/-- The text of the exception is printable, in any version of Unicode. -/
def PyErr.Plain (e : PyErr) : Prop := AsciiPrintable e.text

instance (e : PyErr) : Decidable e.Plain := inferInstanceAs (Decidable (AsciiPrintable _))

theorem errorsIn_fmtNode (v : Json) : ErrorsIn PyErr.Plain (fmtNode v) := by
  intro e h
  cases v <;> cases h <;> decide

theorem errorsIn_fmtRelay (v : Json) : ErrorsIn PyErr.Plain (fmtRelay v) := by
  unfold fmtRelay
  split
  · exact errorsIn_ok _
  · split
    · exact errorsIn_ok _
    · exact errorsIn_ok _
    · exact errorsIn_error (by decide)

theorem errorsIn_droppedRecord (topic channel : PyStr) (encoding : Encoding)
    (portnum : Option PyStr) (m : Meta) :
    ErrorsIn PyErr.Plain (droppedRecord topic channel encoding portnum m) :=
  (errorsIn_fmtNode _).bind fun _ => (errorsIn_fmtNode _).bind fun _ => errorsIn_ok _

theorem errorsIn_packetRecord (outcome : Outcome) (topic channel : PyStr) (encoding : Encoding)
    (m : Meta) (hopLimit : Json) :
    ErrorsIn PyErr.Plain (packetRecord outcome topic channel encoding m hopLimit) :=
  (errorsIn_fmtNode _).bind fun _ => (errorsIn_fmtNode _).bind fun _ =>
    (errorsIn_fmtRelay _).bind fun _ => errorsIn_ok _

/-- Besides what formatting a record raises, the handler raises what it does not
swallow. -/
theorem errorsIn_handled (h : LogHandler) {r : Except PyErr (MessageRecord Json)}
    (hr : ErrorsIn PyErr.Plain r) : ErrorsIn PyErr.Plain (h.handled r) :=
  hr.bind fun record =>
    ErrorsIn.bind (fun _ he => LogHandler.asciiPrintable_of_handle he) fun _ => errorsIn_ok record

/-- What a record raises has a fixed text. -/
theorem errorsIn_of_judged {topic : PyStr} {payload : Bytes} {config : Config}
    {v : Verdict} (hj : Judged rt topic payload config v) : ErrorsIn PyErr.Plain v.record := by
  cases hj with
  | skipped => exact errorsIn_ok _
  | warn => exact errorsIn_ok _
  | dropped => exact (errorsIn_handled _ (errorsIn_droppedRecord _ _ _ _ _)).map some
  | passthru | noop | zerohop =>
      exact (errorsIn_handled _ (errorsIn_packetRecord _ _ _ _ _ _)).map some

/-- What is raised out of the zero-hop functions is the import of the modules, and the
`repr` of a bad hop field. -/
theorem errorsIn_runZerohop (payload : Bytes) (encoding : Encoding) :
    ErrorsIn PyErr.Plain (runZerohop rt payload encoding) := by
  intro e h
  cases encoding with
  | json =>
      rcases zerohopJson_cases rt payload with hok | ⟨-, data, e', -, hfault, herror⟩
      · cases hok.symm.trans h
      · obtain rfl := Except.error.inj (herror.symm.trans h)
        obtain ⟨key, -, hkey⟩ := List.exists_of_findSome?_eq_some hfault
        rcases Json.reprFault_cases _ hkey with rfl | rfl
        · decide +kernel
        · decide +kernel
  | e =>
      cases hprotos : rt.protos with
      | some protos => cases (zerohopProtobuf_eq hprotos payload).symm.trans h
      | none =>
          simp only [runZerohop, zerohopProtobuf, Runtime.loadProtos, hprotos] at h
          cases h
          decide +kernel

theorem errorsIn_judge {p : Policy} {config : Config} (hp : config.HasPolicy p)
    (topic : PyStr) (payload : Bytes) : ErrorsIn PyErr.Plain (judge rt topic payload config) := by
  unfold judge
  split
  · exact errorsIn_ok _
  · next channel encoding _ =>
    simp only [judgePacket, hp.dropMatches, hp.shouldZerohop]
    cases p.drops channel (extractPortnum rt encoding payload) with
    | true => exact errorsIn_ok _
    | false =>
        cases p.zerohops channel with
        | false => exact errorsIn_ok _
        | true => exact (errorsIn_runZerohop payload encoding).bind fun _ => errorsIn_ok _

/-- What a call under a policy raises has a fixed text. -/
theorem plain_of_raised {p : Policy} {call : Call} (hp : call.config.HasPolicy p)
    {e : PyErr} (h : call.raised rt = some e) : e.Plain := by
  unfold Call.raised at h
  split at h
  · next e' hj =>
    cases h
    exact errorsIn_judge hp _ _ _ hj
  · next v hj =>
    split at h
    · next e' hrecord =>
      cases h
      exact errorsIn_of_judged (judged_of_judge hj) _ hrecord
    · cases h

/-! ### What the decoder raises -/

theorem errorsIn_scanString (s : PyStr) : ErrorsIn PyErr.Plain (scanString s) := by
  have hunterminated : (jsonError "Unterminated string starting at").Plain := by decide
  have hunicode : (jsonError "Invalid \\uXXXX escape").Plain := by decide
  fun_induction scanString s with
  | case1 => exact errorsIn_error hunterminated
  | case2 => exact errorsIn_ok _
  | case3 => exact errorsIn_error hunterminated
  | case4 _ _ _ _ _ _ _ _ ih => exact ih.map _
  | case5 => exact errorsIn_error hunicode
  | case6 => exact errorsIn_error hunicode
  | case7 _ _ _ _ _ _ ih => exact ih.map _
  | case8 => exact errorsIn_error (by decide)
  | case9 _ _ _ _ _ ih => exact ih.map _
  | case10 => exact errorsIn_error (by decide)

theorem errorsIn_scanScalar (s : PyStr) : ErrorsIn PyErr.Plain (scanScalar s) := by
  have hvalue : (jsonError "Expecting value").Plain := by decide
  unfold scanScalar
  split
  · exact errorsIn_error hvalue
  · split
    · exact (errorsIn_scanString _).map _
    · split
      · exact errorsIn_ok _
      · split
        · exact errorsIn_ok _
        · exact errorsIn_error hvalue

theorem errorsIn_scanMember {value : PyStr → Except PyErr (JsonTree × PyStr)}
    (hvalue : ∀ s, ErrorsIn PyErr.Plain (value s)) (s : PyStr) :
    ErrorsIn PyErr.Plain (scanMember value s) := by
  have hname : (jsonError "Expecting property name enclosed in double quotes").Plain := by decide
  have hcolon : ∀ s, ErrorsIn PyErr.Plain (scanColon value s) := by
    have hdelimiter : (jsonError "Expecting ':' delimiter").Plain := by decide
    intro s
    unfold scanColon
    split
    · exact errorsIn_error hdelimiter
    · split
      · exact hvalue _
      · exact errorsIn_error hdelimiter
  unfold scanMember
  split
  · exact errorsIn_error hname
  · split
    · exact (errorsIn_scanString _).bind fun _ => (hcolon _).bind fun _ => errorsIn_ok _
    · exact errorsIn_error hname

theorem errorsIn_scanOnce (depth : Nat) (s : PyStr) : ErrorsIn PyErr.Plain (scanOnce depth s) := by
  have hdelimiter : (jsonError "Expecting ',' delimiter").Plain := by decide
  induction depth generalizing s with
  | zero =>
      cases s with
      | nil => exact errorsIn_error (by decide)
      | cons c s =>
          rw [scanOnce]
          split
          · exact errorsIn_error (by decide +kernel)
          · exact errorsIn_scanScalar _
  | succ depth ih =>
      cases s with
      | nil => exact errorsIn_error (by decide)
      | cons c s =>
          rw [scanOnce]
          split
          · exact (Brackets.errorsIn_scanEnclosed _ hdelimiter ih s).map _
          · split
            · exact (Brackets.errorsIn_scanEnclosed _ hdelimiter (errorsIn_scanMember ih) s).map _
            · exact errorsIn_scanScalar _

mutual
theorem errorsIn_build : (t : JsonTree) → ErrorsIn PyErr.Plain (build t)
  | .word w => errorsIn_ok _
  | .number lit => by
      rw [build, NumberLit.value]
      split
      · exact errorsIn_ok _
      · split
        · exact errorsIn_error (by decide +kernel)
        · exact errorsIn_ok _
  | .str units => errorsIn_ok _
  | .arr items => (errorsIn_buildList items).map _
  | .obj members => (errorsIn_buildMembers members).map _

theorem errorsIn_buildList : (ts : List JsonTree) → ErrorsIn PyErr.Plain (buildList ts)
  | [] => errorsIn_ok _
  | t :: ts => (errorsIn_build t).bind fun _ => (errorsIn_buildList ts).bind fun _ =>
      errorsIn_ok _

theorem errorsIn_buildMembers :
    (ms : List (List StrUnit × JsonTree)) → ErrorsIn PyErr.Plain (buildMembers ms)
  | [] => errorsIn_ok _
  | (_, t) :: ms => (errorsIn_build t).bind fun _ => (errorsIn_buildMembers ms).bind fun _ =>
      errorsIn_ok _
end

/-- The decoder raises printable texts. -/
theorem errorsIn_loads (C : JsonCodec) (payload : Bytes) :
    ErrorsIn PyErr.Plain (C.loads payload) := by
  have hdecode : ErrorsIn PyErr.Plain (decodePayload payload) := by
    unfold decodePayload
    split
    · exact errorsIn_ok _
    · exact errorsIn_error (by decide)
  have hread : ∀ s, ErrorsIn PyErr.Plain (readText C.maxDepth s) := by
    intro s
    refine (errorsIn_scanOnce _ _).bind fun r => ?_
    dsimp only
    split
    · exact errorsIn_ok _
    · exact errorsIn_error (by decide)
  exact hdecode.bind fun s => (hread s).bind fun t => errorsIn_build t

/-- With the decoder of a codec, only the texts of the protobuf runtime are from outside. -/
theorem printableErrors_of_codec (hjson : rt.json = C.runtime) {payload : Bytes}
    (h : ∀ protos e, rt.protos = some protos → protos.parseEnvelope payload = .error e →
      Printable rt.unicode e.text) : PrintableErrors rt payload where
  json e he := by
    rw [hjson] at he
    exact AsciiPrintable.printable (errorsIn_loads C payload e he) _
  protobuf := h

theorem staysOnLine_zerohopTexts {call : Call} (herrors : PrintableErrors rt call.payload) :
    ∀ r ∈ call.zerohopTexts rt C, StaysOnLine rt.unicode r.2 := by
  unfold Call.zerohopTexts
  split
  · exact fun _ hr => absurd hr List.not_mem_nil
  · split
    · split
      · exact staysOnLine_zerohopJsonTexts herrors
      · exact staysOnLine_zerohopProtobufTexts herrors
    · exact fun _ hr => absurd hr List.not_mem_nil

/-- The zero-hop functions log no errors. -/
theorem level_of_zerohopTexts {call : Call} :
    ∀ r ∈ call.zerohopTexts rt C, r.1 ≠ .error := by
  unfold Call.zerohopTexts
  split
  · simp
  · split
    · split
      · unfold zerohopJsonTexts
        repeat' split
        all_goals simp [parseFailure]
      · unfold zerohopProtobufTexts
        repeat' split
        all_goals simp [parseFailure]
    · simp

/-- What a call logs without fields, whatever the topic and the payload: every text stays
on its line, and the handler tells the topic. -/
theorem plain_texts_of_call {p : Policy} {call : Call} (hp : call.config.HasPolicy p)
    (herrors : PrintableErrors rt call.payload) :
    ∀ r ∈ call.plainTexts rt C, StaysOnLine rt.unicode r.2 ∧
      (∃ text : PlainText, text.text = r.2) ∧
      (r.1 = .error → readTopic r.2 = some call.topic) := by
  have hstays : ∀ r ∈ call.plainTexts rt C, StaysOnLine rt.unicode r.2 := by
    refine List.forall_mem_append.mpr ⟨staysOnLine_zerohopTexts herrors, fun r hr => ?_⟩
    obtain ⟨e, hraised, rfl⟩ := Option.map_eq_some_iff.mp (Option.mem_toList.mp hr)
    have hcolon : AsciiPrintable (py ": ") := by decide
    exact staysOnLine_append (by decide) ((printable_reprStr _).append
      ((hcolon.printable _).append
        (printable_shown ((plain_of_raised hp hraised).printable _))))
  refine fun r hr => ⟨hstays r hr, (hstays r hr).plainText, fun hlevel => ?_⟩
  rcases List.mem_append.mp hr with hr | hr
  · exact absurd hlevel (level_of_zerohopTexts r hr)
  · obtain ⟨e, -, rfl⟩ := Option.map_eq_some_iff.mp (Option.mem_toList.mp hr)
    exact readTopic_unhandledText rt call.topic e

/-- The record of the handler on a JSON packet, the sender of which is the float `1.5`. -/
theorem plain_texts_of_call_demo :
    ∃ config, loadConfig (ConfigHost.ofMapping []) (some (py "config.yaml")) = .ok config ∧
      let C := JsonCodec.exact 2
      let packet := demoObject (.float 0x3FF8000000000000#64) rfl
      let rt : Runtime :=
        { demoJson (.float 0x3FF8000000000000#64) rfl "1.5" with json := C.runtime }
      let call : Call := ⟨py "msh/US/2/json/LongFast/!12345678", C.dumps packet.toDoc, config⟩
      ∃ text, (.error, text) ∈ call.plainTexts rt C ∧ StaysOnLine rt.unicode text ∧
        readTopic text = some call.topic := by
  obtain ⟨config, hload, hp⟩ := exists_loaded [] (p := py "config.yaml") (by decide)
    (by decide) (by decide +kernel)
  have hdisabled : (Policy.ofValues (overlay [])).dropEnabled = false := by decide +kernel
  obtain ⟨_, -, -, -, -, hints, hhop⟩ := demoJson_setup (.float 0x3FF8000000000000#64) rfl "1.5"
  refine ⟨config, hload, ?_⟩
  intro C packet rt call
  have htopic : parseMeshtasticTopic (py "msh/US/2/json/LongFast/!12345678") =
      some (py "LongFast", .json) := by decide
  have hthree : PyVal.hugeInt 3 = false := hugeInt_eq_false (k := 1) (by decide) (by decide)
  have hloads : rt.json.loads call.payload = .ok packet.toDoc :=
    C.loads_dumps (by decide) (by
      simp [C, packet, demoObject, JsonObject.toDoc, JsonCodec.exact, Json.Fits, hthree])
  have hdrop : dropMatches rt call.payload config (py "LongFast") .json = .ok false := by
    rw [hp.dropMatches, Policy.drops, hdisabled]
    rfl
  have hlisted := @Config.HasPolicy.zerohopListed _ _ (py "LongFast") hp (by decide +kernel)
  have hzerohop := hlisted.shouldZerohop
  have hj := judge_of_zerohop htopic hdrop hzerohop (viewPacket_json hloads hints)
  rw [if_neg (by rw [viewJson, hhop]; decide)] at hj
  obtain ⟨e, he⟩ : ∃ e, call.raised rt = some e := by
    rw [Call.raised, hj]
    exact ⟨_, rfl⟩
  have hmem : unhandledText rt call.topic e ∈ call.plainTexts rt C :=
    List.mem_append_right _ (by rw [he]; exact List.mem_singleton_self _)
  obtain ⟨hstays, -, htold⟩ := plain_texts_of_call hp
    (printableErrors_of_codec (C := C) rfl fun protos e h => by cases h) _ hmem
  exact ⟨_, hmem, hstays, htold rfl⟩

end Texts

end Floodgate.Ports
