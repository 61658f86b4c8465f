import Floodgate.Ports.PyStr

/-!
# The encoding of a JSON payload

`json.loads` takes bytes: it guesses their encoding from the first of them
(`detect_encoding`), and decodes them with the error handler `surrogatepass`,
so that an encoded surrogate is let through.

## Main results

* `decodeUtf8_asciiBytes`: ASCII text is its own encoding.
* `decodePayload_of_utf8`: text without NUL that starts in ASCII is guessed to
  be UTF-8.
* `decodePayload_utf32Bytes`: any text at all that starts in ASCII can be sent.
-/

namespace Floodgate.Ports

/-- What `detect_encoding` answers. -/
inductive TextEncoding where
  | utf8 | utf8Sig | utf16 | utf16be | utf16le | utf32 | utf32be | utf32le
  deriving DecidableEq, Repr

def bomUtf8 : Bytes := [0xEF, 0xBB, 0xBF]
def bomUtf16be : Bytes := [0xFE, 0xFF]
def bomUtf16le : Bytes := [0xFF, 0xFE]
def bomUtf32be : Bytes := [0x00, 0x00, 0xFE, 0xFF]
def bomUtf32le : Bytes := [0xFF, 0xFE, 0x00, 0x00]

/-- `detect_encoding`. -/
def detectEncoding (b : Bytes) : TextEncoding :=
  if bomUtf32be.isPrefixOf b || bomUtf32le.isPrefixOf b then .utf32
  else if bomUtf16be.isPrefixOf b || bomUtf16le.isPrefixOf b then .utf16
  else if bomUtf8.isPrefixOf b then .utf8Sig
  else match b with
    | b0 :: b1 :: b2 :: b3 :: _ =>
        if b0 = 0 then (if b1 ≠ 0 then .utf16be else .utf32be)
        else if b1 = 0 then (if b2 ≠ 0 ∨ b3 ≠ 0 then .utf16le else .utf32le)
        else .utf8
    | [b0, b1] =>
        if b0 = 0 then .utf16be else if b1 = 0 then .utf16le else .utf8
    | _ => .utf8

/-! ## Decoders -/

/-- A code point in front of decoded text. -/
def consCode (n : Nat) (rest : Option PyStr) : Option PyStr :=
  if h : n < 0x110000 then rest.map fun s => ⟨n, h⟩ :: s else none

/-- UTF-8, in the middle of a character: how many continuation bytes are left,
the bits so far, and the least code point that takes this many bytes. -/
def decodeUtf8From : Nat → Nat → Nat → Bytes → Option PyStr
  | 0, _, _, [] => some []
  | _ + 1, _, _, [] => none
  | 0, _, _, b :: s =>
      if b.toNat < 0x80 then consCode b.toNat (decodeUtf8From 0 0 0 s)
      else if b.toNat < 0xC0 then none
      else if b.toNat < 0xE0 then decodeUtf8From 1 (b.toNat - 0xC0) 0x80 s
      else if b.toNat < 0xF0 then decodeUtf8From 2 (b.toNat - 0xE0) 0x800 s
      else if b.toNat < 0xF8 then decodeUtf8From 3 (b.toNat - 0xF0) 0x10000 s
      else none
  | left + 1, n, least, b :: s =>
      if 0x80 ≤ b.toNat ∧ b.toNat < 0xC0 then
        if left ≠ 0 then decodeUtf8From left (n * 64 + (b.toNat - 0x80)) least s
        else if least ≤ n * 64 + (b.toNat - 0x80) then
          consCode (n * 64 + (b.toNat - 0x80)) (decodeUtf8From 0 0 0 s)
        else none
      else none

def decodeUtf8 (b : Bytes) : Option PyStr := decodeUtf8From 0 0 0 b

/-- The 16-bit units of some bytes. -/
def units16 (bigEndian : Bool) : Bytes → Option (List Nat)
  | [] => some []
  | [_] => none
  | b0 :: b1 :: s =>
      (units16 bigEndian s).map fun us =>
        (if bigEndian then b0.toNat * 256 + b1.toNat else b1.toNat * 256 + b0.toNat) :: us

/-- The code point of a surrogate pair. -/
def joinSurrogates (high low : Nat) : Nat :=
  0x10000 + (high - 0xD800) * 0x400 + (low - 0xDC00)

def isHighSurrogate (n : Nat) : Bool := decide (0xD800 ≤ n ∧ n < 0xDC00)

def isLowSurrogate (n : Nat) : Bool := decide (0xDC00 ≤ n ∧ n < 0xE000)

/-- UTF-16: pairs of surrogates are joined, and lone ones are let through. -/
def joinUnits16 : List Nat → Option PyStr
  | [] => some []
  | [n] => consCode n (some [])
  | n :: m :: us =>
      if isHighSurrogate n ∧ isLowSurrogate m then
        consCode (joinSurrogates n m) (joinUnits16 us)
      else consCode n (joinUnits16 (m :: us))

def decodeUtf16 (bigEndian : Bool) (b : Bytes) : Option PyStr :=
  units16 bigEndian b >>= joinUnits16

def decodeUtf32 (bigEndian : Bool) : Bytes → Option PyStr
  | [] => some []
  | b0 :: b1 :: b2 :: b3 :: s =>
      let n := if bigEndian then
          ((b0.toNat * 256 + b1.toNat) * 256 + b2.toNat) * 256 + b3.toNat
        else ((b3.toNat * 256 + b2.toNat) * 256 + b1.toNat) * 256 + b0.toNat
      consCode n (decodeUtf32 bigEndian s)
  | _ => none

/-- `b.decode(encoding, "surrogatepass")`. -/
def decodeBytes (b : Bytes) : TextEncoding → Option PyStr
  | .utf8 => decodeUtf8 b
  | .utf8Sig => decodeUtf8 (b.drop 3)
  | .utf16be => decodeUtf16 true b
  | .utf16le => decodeUtf16 false b
  | .utf16 => decodeUtf16 (bomUtf16be.isPrefixOf b) (b.drop 2)
  | .utf32be => decodeUtf32 true b
  | .utf32le => decodeUtf32 false b
  | .utf32 => decodeUtf32 (bomUtf32be.isPrefixOf b) (b.drop 4)

/-- The text of a payload. -/
def decodePayload (b : Bytes) : Except PyErr PyStr :=
  match decodeBytes b (detectEncoding b) with
  | some s => .ok s
  | none => .error ⟨.unicodeDecodeError, py "invalid data"⟩

/-- `s.encode()` of an ASCII text. -/
def asciiBytes (s : PyStr) : Bytes := s.map fun c => UInt8.ofNat c.val

/-! ## UTF-8 -/

/-- ASCII text is its own encoding. -/
theorem decodeUtf8_asciiBytes {s : PyStr} (h : ∀ c ∈ s, c.val < 0x80) :
    decodeUtf8 (asciiBytes s) = some s := by
  induction s with
  | nil => rfl
  | cons c s ih =>
      have hc := h c List.mem_cons_self
      have hbyte : (UInt8.ofNat c.val).toNat = c.val := by
        rw [UInt8.toNat_ofNat']
        exact Nat.mod_eq_of_lt (by omega)
      have hrest : decodeUtf8From 0 0 0 (asciiBytes s) = some s :=
        ih fun c hc => h c (List.mem_cons_of_mem _ hc)
      rw [asciiBytes, List.map_cons, decodeUtf8, decodeUtf8From, hbyte, if_pos hc,
        ← asciiBytes, hrest, consCode, dif_pos c.isLt]
      rfl

theorem consCode_eq_some {n : Nat} {rest : Option PyStr} {s : PyStr}
    (h : consCode n rest = some s) : ∃ c tail, s = c :: tail ∧ c.val = n ∧ rest = some tail := by
  unfold consCode at h
  split at h
  · next hn =>
    obtain ⟨tail, htail, hs⟩ := Option.map_eq_some_iff.mp h
    exact ⟨⟨n, hn⟩, tail, hs.symm, rfl, htail⟩
  · cases h

/-- A zero byte is a character of its own. -/
theorem zero_mem_of_decodeUtf8From {left n least : Nat} {b : Bytes} {s : PyStr}
    (h : decodeUtf8From left n least b = some s) (hzero : 0 ∈ b) : ∃ c ∈ s, c.val = 0 := by
  fun_induction decodeUtf8From left n least b generalizing s with
  | case1 => exact absurd hzero List.not_mem_nil
  | case3 _ _ b rest hb ih =>
      obtain ⟨c, tail, rfl, hc, htail⟩ := consCode_eq_some h
      rcases List.mem_cons.mp hzero with rfl | hmem
      · exact ⟨c, List.mem_cons_self, hc⟩
      · obtain ⟨c', hc', hval⟩ := ih htail hmem
        exact ⟨c', List.mem_cons_of_mem _ hc', hval⟩
  | case5 _ _ b rest hb _ _ ih | case6 _ _ b rest hb _ _ _ ih | case7 _ _ b rest hb _ _ _ _ ih =>
      rcases List.mem_cons.mp hzero with rfl | hmem
      · exact absurd (by decide) hb
      · exact ih h hmem
  | case9 left n least b rest hb _ ih =>
      rcases List.mem_cons.mp hzero with rfl | hmem
      · exact absurd hb.1 (by decide)
      · exact ih h hmem
  | case10 left n least b rest hb _ _ ih =>
      obtain ⟨c, tail, rfl, hc, htail⟩ := consCode_eq_some h
      rcases List.mem_cons.mp hzero with rfl | hmem
      · exact absurd hb.1 (by decide)
      · obtain ⟨c', hc', hval⟩ := ih htail hmem
        exact ⟨c', List.mem_cons_of_mem _ hc', hval⟩
  | case2 | case4 | case8 | case11 | case12 => cases h

/-- A character of several bytes is one that needs them. -/
theorem least_le_of_decodeUtf8From {left n least : Nat} {b : Bytes} {s : PyStr}
    (h : decodeUtf8From (left + 1) n least b = some s) :
    ∃ c tail, s = c :: tail ∧ least ≤ c.val := by
  induction b generalizing left n with
  | nil => cases h
  | cons b rest ih =>
      rw [decodeUtf8From] at h
      split at h
      · split at h
        · next hleft =>
          obtain ⟨left, rfl⟩ := Nat.exists_eq_succ_of_ne_zero hleft
          exact ih h
        · split at h
          · next hleast =>
            obtain ⟨c, tail, rfl, hc, -⟩ := consCode_eq_some h
            exact ⟨c, tail, rfl, hc.symm ▸ hleast⟩
          · cases h
      · cases h

/-- Text that starts in ASCII starts with its first byte. -/
theorem head_lt_of_decodeUtf8 {b0 : UInt8} {rest : Bytes} {c : PyChar} {tail : PyStr}
    (h : decodeUtf8 (b0 :: rest) = some (c :: tail)) (hc : c.val < 0x80) : b0.toNat < 0x80 := by
  by_contra hb
  have hmulti : ∀ {left n least : Nat}, 0x80 ≤ least →
      decodeUtf8From (left + 1) n least rest ≠ some (c :: tail) := by
    intro left n least hleast hsome
    obtain ⟨c', tail', hcons, hle⟩ := least_le_of_decodeUtf8From hsome
    cases hcons
    omega
  rw [decodeUtf8, decodeUtf8From, if_neg hb] at h
  split at h
  · cases h
  · split at h
    · exact hmulti (by decide) h
    · split at h
      · exact hmulti (by decide) h
      · split at h
        · exact hmulti (by decide) h
        · cases h

/-- Bytes without a zero that start in ASCII are guessed to be UTF-8. -/
theorem detectEncoding_eq_utf8 {b0 : UInt8} {rest : Bytes} (hb : b0.toNat < 0x80)
    (hzero : 0 ∉ b0 :: rest) : detectEncoding (b0 :: rest) = .utf8 := by
  have hb0 : b0 ≠ 0 := fun h => hzero (h ▸ List.mem_cons_self)
  have hbom : ∀ (x : UInt8) (xs : Bytes), x = 0 ∨ 0x80 ≤ x.toNat →
      List.isPrefixOf (x :: xs) (b0 :: rest) = false := by
    intro x xs hx
    have hne : x ≠ b0 := by
      rintro rfl
      exact hx.elim hb0 (Nat.not_le.mpr hb)
    simp [List.isPrefixOf, hne]
  have h32be : bomUtf32be.isPrefixOf (b0 :: rest) = false := hbom _ _ (by decide)
  have h32le : bomUtf32le.isPrefixOf (b0 :: rest) = false := hbom _ _ (by decide)
  have h16be : bomUtf16be.isPrefixOf (b0 :: rest) = false := hbom _ _ (by decide)
  have h16le : bomUtf16le.isPrefixOf (b0 :: rest) = false := hbom _ _ (by decide)
  have h8 : bomUtf8.isPrefixOf (b0 :: rest) = false := hbom _ _ (by decide)
  have hsecond : ∀ b1 rest', rest = b1 :: rest' → b1 ≠ 0 := by
    rintro b1 rest' rfl rfl
    exact hzero (List.mem_cons_of_mem _ List.mem_cons_self)
  rw [detectEncoding.eq_def, h32be, h32le, h16be, h16le, h8]
  simp only [Bool.or_self, Bool.false_eq_true, if_false]
  rcases rest with _ | ⟨b1, _ | ⟨b2, _ | ⟨b3, rest⟩⟩⟩
  · rfl
  · simp only [if_neg hb0, if_neg (hsecond b1 _ rfl)]
  · rfl
  · simp only [if_neg hb0, if_neg (hsecond b1 _ rfl)]

/-- Text without NUL that starts in ASCII is decoded as UTF-8. -/
theorem decodePayload_of_utf8 {b : Bytes} {c : PyChar} {tail : PyStr}
    (h : decodeUtf8 b = some (c :: tail)) (hc : c.val < 0x80)
    (hnul : ∀ c' ∈ c :: tail, c'.val ≠ 0) : decodePayload b = .ok (c :: tail) := by
  have hzero : 0 ∉ b := by
    intro hmem
    obtain ⟨c', hc', hval⟩ := zero_mem_of_decodeUtf8From h hmem
    exact hnul c' hc' hval
  cases b with
  | nil => cases h
  | cons b0 rest =>
      rw [decodePayload, detectEncoding_eq_utf8 (head_lt_of_decodeUtf8 h hc) hzero]
      simp only [decodeBytes, h]

/-! ## UTF-32 -/

/-- A text in UTF-32, which has room for surrogates. -/
def utf32Bytes (s : PyStr) : Bytes :=
  s.flatMap fun c =>
    [0, UInt8.ofNat (c.val / 0x10000), UInt8.ofNat (c.val / 0x100), UInt8.ofNat c.val]

theorem decodeUtf32_utf32Bytes (s : PyStr) : decodeUtf32 true (utf32Bytes s) = some s := by
  induction s with
  | nil => rfl
  | cons c s ih =>
      have hlt := c.isLt
      have hcode : (((0 : UInt8).toNat * 256 + (UInt8.ofNat (c.val / 0x10000)).toNat) * 256 +
          (UInt8.ofNat (c.val / 0x100)).toNat) * 256 + (UInt8.ofNat c.val).toNat = c.val := by
        simp only [UInt8.toNat_ofNat', UInt8.toNat_zero]
        omega
      rw [utf32Bytes, List.flatMap_cons, ← utf32Bytes]
      simp only [List.cons_append, List.nil_append, decodeUtf32, if_true, hcode, ih]
      rw [consCode, dif_pos hlt]
      rfl

/-- Any text that starts in ASCII can be sent, surrogates included. -/
theorem decodePayload_utf32Bytes {c : PyChar} (hc : c.val < 0x80) (s : PyStr) :
    decodePayload (utf32Bytes (c :: s)) = .ok (c :: s) := by
  have hhigh : c.val / 0x10000 = 0 := by omega
  have hmiddle : c.val / 0x100 = 0 := by omega
  have hbytes : utf32Bytes (c :: s) = 0 :: 0 :: 0 :: UInt8.ofNat c.val :: utf32Bytes s := by
    rw [utf32Bytes, List.flatMap_cons, hhigh, hmiddle]
    rfl
  have hdetect : detectEncoding (utf32Bytes (c :: s)) = .utf32be := by
    rw [hbytes]
    rfl
  rw [decodePayload, hdetect]
  simp only [decodeBytes, decodeUtf32_utf32Bytes]

end Floodgate.Ports
