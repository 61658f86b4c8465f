import Floodgate.Verified.Segments
import Floodgate.Ports.Topic

/-!
# The grammar of packet topics

A packet topic is written `msh/{levels}/{encoding}/{channel}/!{node}`, with one
or more levels of any content.  `PacketTopic` is such a topic by its parts; its
segments are free of slashes, so that it cannot be taken apart in another way,
whatever the levels look like.

## Main results

* `PacketTopic.text_injective`: a topic has one decomposition.
* `indexMeshtasticTopic_eq`: the length guard covers every index of the parser.
* `parseMeshtasticTopic_grammar`: the parser accepts exactly the packet topics,
  and reads the channel and the encoding they were built from.
-/

namespace Floodgate.Ports

open Floodgate.Verified.Segments

/-- No slash in the segment. -/
def SlashFree (s : PyStr) : Prop := ch '/' ∉ s

instance (s : PyStr) : Decidable (SlashFree s) := inferInstanceAs (Decidable (_ ∉ _))

/-- The parts of a packet topic. -/
structure PacketTopic where
  levels : List PyStr
  encoding : Encoding
  channel : PyStr
  nodeId : PyStr
  levels_ne_nil : levels ≠ []
  levels_slashFree : ∀ level ∈ levels, SlashFree level
  channel_slashFree : SlashFree channel
  nodeId_slashFree : SlashFree nodeId
  nodeId_bang : py "!" <+: nodeId

namespace PacketTopic

def segments (t : PacketTopic) : List PyStr :=
  py "msh" :: (t.levels ++ [t.encoding.text, t.channel, t.nodeId])

/-- The topic as it is published. -/
def text (t : PacketTopic) : PyStr := PyStr.join (py "/") t.segments

theorem segments_slashFree (t : PacketTopic) : ∀ s ∈ t.segments, SlashFree s := by
  intro s hs
  simp only [segments, List.mem_cons, List.mem_append, List.not_mem_nil, or_false] at hs
  rcases hs with rfl | hs | rfl | rfl | rfl
  · decide
  · exact t.levels_slashFree s hs
  · cases t.encoding <;> decide
  · exact t.channel_slashFree
  · exact t.nodeId_slashFree

theorem splitOn_text (t : PacketTopic) : t.text.splitOn (ch '/') = t.segments :=
  splitOn_eq_iff.mpr ⟨List.cons_ne_nil _ _, t.segments_slashFree,
    (PyStr.join_eq_intercalate _ _).symm⟩

end PacketTopic

theorem Encoding.ofText_eq_some {s : PyStr} {enc : Encoding} :
    Encoding.ofText s = some enc ↔ s = enc.text := by
  constructor
  · intro h
    unfold Encoding.ofText at h
    split at h
    · next hs => cases h; exact hs
    · split at h
      · next hs => cases h; exact hs
      · cases h
  · rintro rfl
    cases enc <;> decide

theorem Encoding.text_injective : Function.Injective Encoding.text := by
  intro enc enc' h
  exact Option.some.inj
    ((Encoding.ofText_eq_some.mpr h).symm.trans (Encoding.ofText_eq_some.mpr rfl)).symm

/-- A topic has one decomposition. -/
theorem PacketTopic.text_injective : Function.Injective PacketTopic.text := by
  intro t t' h
  have hsegments : t.segments = t'.segments := by
    rw [← t.splitOn_text, h, t'.splitOn_text]
  obtain ⟨levels, encoding, channel, nodeId, _, _, _, _, _⟩ := t
  obtain ⟨levels', encoding', channel', nodeId', _, _, _, _, _⟩ := t'
  -- both lists end in three segments
  obtain ⟨rfl, hlast⟩ := List.append_inj' (List.cons.inj hsegments).2 rfl
  simp only [List.cons.injEq, and_true] at hlast
  obtain ⟨hencoding, rfl, rfl⟩ := hlast
  obtain rfl := Encoding.text_injective hencoding
  rfl

/-! ## The parser -/

/-- What the parser asks of the segments of a topic. -/
theorem parseMeshtasticTopic_eq_some {topic channel : PyStr} {encoding : Encoding} :
    parseMeshtasticTopic topic = some (channel, encoding) ↔
      ∃ levels nodeId, topic.splitOn (ch '/') =
          levels ++ [encoding.text, channel, nodeId] ∧
        2 ≤ levels.length ∧ levels.head? = some (py "msh") ∧ py "!" <+: nodeId := by
  unfold parseMeshtasticTopic
  dsimp only
  generalize topic.splitOn (PyChar.ofChar '/') = parts
  constructor
  · intro h
    split at h
    · cases h
    · next hguard =>
      split at h
      · next nodeId channel' encoding' levels hreverse =>
        split at h
        · cases h
        · next hbang =>
          obtain ⟨enc, henc, hpair⟩ := Option.map_eq_some_iff.mp h
          obtain ⟨rfl, rfl⟩ := Prod.mk.inj hpair
          obtain rfl := Encoding.ofText_eq_some.mp henc
          have hparts : parts = levels.reverse ++ [enc.text, channel', nodeId] := by
            rw [← List.reverse_reverse parts, hreverse]
            simp
          subst hparts
          simp only [List.length_append, List.length_reverse, List.length_cons,
            List.length_nil, Bool.or_eq_true, decide_eq_true_eq, bne_iff_ne, ne_eq,
            not_or, not_not] at hguard
          have hlength : 2 ≤ levels.reverse.length := by
            rw [List.length_reverse]
            omega
          have hne : levels.reverse ≠ [] := List.ne_nil_of_length_pos (by omega)
          refine ⟨levels.reverse, nodeId, rfl, hlength, ?_, ?_⟩
          · rw [← hguard.2, List.head?_append_of_ne_nil _ hne]
          · simpa [List.isPrefixOf_iff_prefix] using hbang
      · cases h
  · rintro ⟨levels, nodeId, rfl, hlength, hhead, hbang⟩
    have hne : levels ≠ [] := List.ne_nil_of_length_pos (by omega)
    have hencoding : Encoding.ofText encoding.text = some encoding :=
      Encoding.ofText_eq_some.mpr rfl
    have hprefix : (py "!").isPrefixOf nodeId = true :=
      List.isPrefixOf_iff_prefix.mpr hbang
    have hhead' : (levels ++ [encoding.text, channel, nodeId]).head? = some (py "msh") := by
      rw [List.head?_append_of_ne_nil _ hne, hhead]
    have hshort : ¬ levels.length + 3 < 5 := by omega
    simp [hhead', hencoding, hprefix, hshort]

/-- The parser accepts exactly the packet topics, and reads the channel and the
encoding they were built from. -/
theorem parseMeshtasticTopic_iff {topic channel : PyStr} {encoding : Encoding} :
    parseMeshtasticTopic topic = some (channel, encoding) ↔
      ∃ t : PacketTopic, t.text = topic ∧ t.channel = channel ∧ t.encoding = encoding := by
  rw [parseMeshtasticTopic_eq_some]
  constructor
  · rintro ⟨levels, nodeId, hsplit, hlength, hhead, hbang⟩
    obtain ⟨-, hfree, hjoin⟩ := splitOn_eq_iff.mp hsplit
    cases levels with
    | nil => simp at hhead
    | cons first levels =>
        obtain rfl : first = py "msh" := by simpa using hhead
        have hlevels : levels ≠ [] := by
          rintro rfl
          simp at hlength
        refine ⟨⟨levels, encoding, channel, nodeId, hlevels, fun level hlevel => ?_, ?_, ?_,
          hbang⟩, ?_, rfl, rfl⟩
        · exact hfree level (by simp [hlevel])
        · exact hfree channel (by simp)
        · exact hfree nodeId (by simp)
        · rw [PacketTopic.text, PyStr.join_eq_intercalate]
          exact hjoin
  · rintro ⟨t, rfl, rfl, rfl⟩
    have hlength := List.length_pos_of_ne_nil t.levels_ne_nil
    refine ⟨py "msh" :: t.levels, t.nodeId, t.splitOn_text, ?_, rfl, t.nodeId_bang⟩
    rw [List.length_cons]
    omega

/-! ## Indexing never raises -/

/-- `parts[-k]`. -/
def fromRight (parts : List PyStr) (k : Nat) : Except PyErr PyStr :=
  match parts.reverse[k - 1]? with
  | some part => .ok part
  | none => .error ⟨.indexError, py "list index out of range"⟩

/-- `parse_meshtastic_topic` with list indexing that raises, as Python's does. -/
def indexMeshtasticTopic (topic : PyStr) : Except PyErr (Option (PyStr × Encoding)) := do
  let parts := topic.splitOn (ch '/')
  if parts.length < 5 || parts.head? != some (py "msh") then return none
  if !(py "!").isPrefixOf (← fromRight parts 1) then return none
  match Encoding.ofText (← fromRight parts 3) with
  | none => return none
  | some encoding => return some (← fromRight parts 2, encoding)

/-- The length guard covers every index, so that the parser never raises. -/
theorem indexMeshtasticTopic_eq (topic : PyStr) :
    indexMeshtasticTopic topic = .ok (parseMeshtasticTopic topic) := by
  unfold indexMeshtasticTopic parseMeshtasticTopic
  dsimp only
  generalize topic.splitOn (ch '/') = parts
  by_cases hguard : (decide (parts.length < 5) || parts.head? != some (py "msh")) = true
  · simp only [hguard, if_true]
    rfl
  · rw [if_neg hguard, if_neg hguard]
    have hlength : 5 ≤ parts.reverse.length := by
      simp only [Bool.or_eq_true, decide_eq_true_eq, not_or, Nat.not_lt] at hguard
      rw [List.length_reverse]
      exact hguard.1
    cases hreverse : parts.reverse with
    | nil => simp [hreverse] at hlength
    | cons nodeId rest =>
        cases rest with
        | nil => simp [hreverse] at hlength
        | cons channel rest =>
            cases rest with
            | nil => simp [hreverse] at hlength
            | cons encoding rest =>
                have hnode : fromRight parts 1 = .ok nodeId := by
                  rw [fromRight, hreverse]
                  rfl
                have hchannel : fromRight parts 2 = .ok channel := by
                  rw [fromRight, hreverse]
                  rfl
                have hencoding : fromRight parts 3 = .ok encoding := by
                  rw [fromRight, hreverse]
                  rfl
                simp only [hnode, hchannel, hencoding, bind, Except.bind]
                split
                · rfl
                · cases Encoding.ofText encoding <;> rfl

/-- The topic parser is the grammar of packet topics: it reads the channel and
the encoding of a packet topic and refuses every other string; a topic has one
decomposition, so nothing else can be read from it; and no index is out of
range. -/
theorem parseMeshtasticTopic_grammar :
    (∀ topic channel encoding, parseMeshtasticTopic topic = some (channel, encoding) ↔
      ∃ t : PacketTopic, t.text = topic ∧ t.channel = channel ∧ t.encoding = encoding) ∧
    (∀ topic, parseMeshtasticTopic topic = none ↔ ∀ t : PacketTopic, t.text ≠ topic) ∧
    (∀ t : PacketTopic, parseMeshtasticTopic t.text = some (t.channel, t.encoding)) ∧
    Function.Injective PacketTopic.text ∧
    ∀ topic, indexMeshtasticTopic topic = .ok (parseMeshtasticTopic topic) := by
  refine ⟨fun _ _ _ => parseMeshtasticTopic_iff, fun topic => ?_,
    fun t => parseMeshtasticTopic_iff.mpr ⟨t, rfl, rfl, rfl⟩,
    PacketTopic.text_injective, indexMeshtasticTopic_eq⟩
  constructor
  · rintro h t rfl
    rw [parseMeshtasticTopic_iff.mpr ⟨t, rfl, rfl, rfl⟩] at h
    cases h
  · intro h
    cases hparse : parseMeshtasticTopic topic with
    | none => rfl
    | some p =>
        obtain ⟨channel, encoding⟩ := p
        obtain ⟨t, ht, -⟩ := parseMeshtasticTopic_iff.mp hparse
        exact absurd ht (h t)

end Floodgate.Ports
