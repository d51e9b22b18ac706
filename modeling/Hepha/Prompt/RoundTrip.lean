import Hepha.Lib.Replace
import Hepha.Prompt.Json
import Hepha.Prompt.Values
import Mathlib.Data.List.GetD

/-!
# The round trip of a prompt

An expanded packet is the prompt it was made from, unless a turn of the loop
has replaced an occurrence of its value that begins or ends inside a reference
of an earlier turn.  Such a turn breaks the reference.

What the body stands for is its expansion with the dictionary so far.  A turn
that breaks no reference leaves the expansion as it is; a turn that does makes
it shorter, and no later turn makes it longer, since a reference is shorter
than its value.  So the prompt comes back if and only if no turn breaks one.

* `replace_spec`: one turn;
* `replaceAll_spec`: the loop, by induction on the values;
* `expandPromptContext_compactPromptContext`: the prompt.
-/

namespace Hepha.Prompt

open Tokens

/-! ## Turns of the loop -/

/-- A turn of the loop that replaces its value, with the variables before it. -/
structure Turn where
  before : Substitution
  value : JsString

/-- The turns of the loop that replace their values. -/
def Substitution.turns (marker : Marker) (s : Substitution) : List JsString → List Turn
  | [] => []
  | value :: rest =>
      if 256 ≤ s.dictionary.length then []
      else if s.worthwhile marker value then
        { before := s, value } :: (s.replace marker value).turns marker rest
      else s.turns marker rest

/-- An occurrence of the value that the turn replaces begins or ends inside a
reference that is in the body before. -/
def Turn.BreaksReference (marker : Marker) (turn : Turn) : Prop :=
  (references marker).Crosses turn.value (cut turn.value turn.before.body)

/-- The turns in which the values of a prompt are replaced. -/
def turnsOf (sha256 : JsString → HexDigest) (prompt : JsString) : List Turn :=
  Substitution.turns (markerOf (sha256 prompt)) { dictionary := [], body := prompt }
    (repeatedValues prompt)

/-! ## What a body stands for -/

/-- The entry that an index refers to. -/
def entry (dictionary : List JsString) (index : Index) : JsString :=
  dictionary.getD index.value []

namespace Substitution

variable (marker : Marker)

/-- The body with its references expanded. -/
def restored (s : Substitution) : JsString :=
  Tokens.expand (entry s.dictionary) ((references marker).scan s.body)

/-- The references of the body are those of the dictionary, and shorter than its entries. -/
structure Sound (s : Substitution) : Prop where
  index : ∀ index : Index, index.text marker <:+: s.body →
    ∃ n < s.dictionary.length, index = indexOf n
  shorter : ∀ n < s.dictionary.length,
    (marker.reference n).length < (s.dictionary.getD n []).length

variable {marker} {s : Substitution} {value : JsString}

theorem Sound.length_text_lt (h : s.Sound marker) {index : Index}
    (hindex : index.text marker <:+: s.body) :
    (index.text marker).length < (entry s.dictionary index).length := by
  obtain ⟨n, hn, rfl⟩ := h.index index hindex
  rw [entry, value_indexOf, text_indexOf]
  exact h.shorter n hn

theorem length_reference_lt (h : s.worthwhile marker value = true) :
    (marker.reference s.dictionary.length).length < value.length := by
  by_contra hle
  simp only [worthwhile, decide_eq_true_eq, Nat.sub_eq_zero_of_le (not_lt.mp hle),
    Nat.zero_mul] at h
  exact absurd h (Nat.not_lt_zero _)

theorem intercalate_cut_body (hvalue : value ≠ []) :
    value.intercalate (cut value s.body) = s.body :=
  intercalate_cut hvalue

/-- The entries of the dictionary are those of the longer one. -/
theorem restored_append (value : JsString) (h : s.Sound marker) :
    s.restored marker =
      Tokens.expand (entry (s.dictionary ++ [value])) ((references marker).scan s.body) := by
  refine expand_congr fun index hindex => ?_
  obtain ⟨n, hn, rfl⟩ := h.index index (inr_mem_scan_iff.1 hindex)
  rw [entry, entry, value_indexOf, List.getD_append _ _ _ _ hn]

theorem Sound.replace (h : s.Sound marker) (hvalue : value ≠ [])
    (hworth : s.worthwhile marker value = true) : (s.replace marker value).Sound marker where
  index := by
    intro index hindex
    have hlength : (s.replace marker value).dictionary.length = s.dictionary.length + 1 := by
      simp [Substitution.replace]
    rw [hlength]
    have hcases : index = indexOf s.dictionary.length ∨
        index.text marker <:+: value.intercalate (cut value s.body) :=
      infix_intercalate_text (T := references marker) hindex
    rcases hcases with rfl | hbefore
    · exact ⟨_, Nat.lt_succ_self _, rfl⟩
    · rw [intercalate_cut hvalue] at hbefore
      obtain ⟨n, hn, rfl⟩ := h.index index hbefore
      exact ⟨n, Nat.lt_succ_of_lt hn, rfl⟩
  shorter := by
    intro n hn
    simp only [Substitution.replace, List.length_append, List.length_singleton] at hn ⊢
    rcases Nat.lt_succ_iff_lt_or_eq.mp hn with hn | rfl
    · rw [List.getD_append _ _ _ _ hn]
      exact h.shorter n hn
    · rw [List.getD_append_right _ _ _ _ le_rfl, Nat.sub_self]
      exact length_reference_lt hworth

/-- **One turn.**  The expansion stays what it is if no reference is broken,
and gets shorter if one is. -/
theorem replace_spec (h : s.Sound marker) (hvalue : value ≠ [])
    (hword : ∀ index : Index, ¬index.text marker <:+: value) :
    (Turn.BreaksReference marker ⟨s, value⟩ →
      ((s.replace marker value).restored marker).length < (s.restored marker).length) ∧
    (¬Turn.BreaksReference marker ⟨s, value⟩ →
      (s.replace marker value).restored marker = s.restored marker) := by
  have hentry : entry (s.dictionary ++ [value]) (indexOf s.dictionary.length) = value := by
    rw [entry, value_indexOf, List.getD_append_right _ _ _ _ le_rfl, Nat.sub_self]
    rfl
  have hbody := intercalate_cut_body (s := s) hvalue
  have hgain : ∀ index : Index, index.text marker <:+: value.intercalate (cut value s.body) →
      (index.text marker).length < (entry (s.dictionary ++ [value]) index).length := by
    intro index hindex
    rw [hbody] at hindex
    have hlt := h.length_text_lt hindex
    obtain ⟨n, hn, rfl⟩ := h.index index hindex
    rw [entry, value_indexOf] at hlt ⊢
    rwa [List.getD_append _ _ _ _ hn]
  rw [restored_append value h, restored]
  constructor
  · intro hbreaks
    have hlt := (length_expand_replace (T := references marker) hword hentry hgain).2 hbreaks
    rwa [hbody] at hlt
  · intro hwhole
    have heq := expand_replace (T := references marker) hword hentry hwhole
    rwa [hbody] at heq

/-- The values are not empty, and no reference occurs in one. -/
def Plain (marker : Marker) (values : List JsString) : Prop :=
  ∀ value ∈ values, value ≠ [] ∧ ∀ index : Index, ¬index.text marker <:+: value

/-- **The loop.** -/
theorem replaceAll_spec {values : List JsString} (h : s.Sound marker)
    (hvalues : Plain marker values) :
    (s.replaceAll marker values).Sound marker ∧
      ((s.replaceAll marker values).restored marker).length ≤ (s.restored marker).length ∧
      ((s.replaceAll marker values).restored marker = s.restored marker ↔
        ∀ turn ∈ s.turns marker values, ¬turn.BreaksReference marker) := by
  induction values generalizing s with
  | nil => exact ⟨h, le_rfl, by simp [replaceAll, turns]⟩
  | cons value rest ih =>
      obtain ⟨⟨hvalue, hword⟩, hrest⟩ := List.forall_mem_cons.mp hvalues
      rw [replaceAll, turns]
      split
      · exact ⟨h, le_rfl, by simp⟩
      · split
        · rename_i hworth
          obtain ⟨hsound, hle, hiff⟩ := ih (h.replace hvalue hworth) hrest
          obtain ⟨hbroken, hwhole⟩ := replace_spec h hvalue hword
          by_cases hbreaks : Turn.BreaksReference marker ⟨s, value⟩
          · have hlt := hbroken hbreaks
            refine ⟨hsound, hle.trans hlt.le, iff_of_false (fun heq => ?_) fun hall => ?_⟩
            · rw [heq] at hle
              omega
            · exact hall _ List.mem_cons_self hbreaks
          · rw [← hwhole hbreaks]
            refine ⟨hsound, hle, hiff.trans ?_⟩
            rw [List.forall_mem_cons, and_iff_right hbreaks]
        · exact ih h hrest

/-- The expansion of the packet, in which every reference has its entry. -/
theorem expand_eq_restored (h : s.Sound marker) :
    Packet.expand ⟨marker, s.dictionary, s.body⟩ = some (s.restored marker) := by
  have hcells : ∀ cells : List (CodeUnit ⊕ Index),
      (∀ index, .inr index ∈ cells → index.value < s.dictionary.length) →
        (cells.mapM (Sum.elim (fun u => some [u]) fun index => s.dictionary[index.value]?)).map
          List.flatten = some (Tokens.expand (entry s.dictionary) cells) := by
    intro cells hcells
    induction cells with
    | nil => rfl
    | cons cell rest ih =>
        have hrest := ih fun index hindex => hcells index (List.mem_cons_of_mem _ hindex)
        obtain ⟨texts, htexts, hflatten⟩ := Option.map_eq_some_iff.mp hrest
        cases cell with
        | inl u => simp [htexts, hflatten, Tokens.expand]
        | inr index =>
            have hlt := hcells index List.mem_cons_self
            simp [htexts, hflatten, Tokens.expand, entry, List.getElem?_eq_getElem hlt]
  have hmap := hcells ((references marker).scan s.body) fun index hindex => by
    obtain ⟨n, hn, rfl⟩ := h.index index (inr_mem_scan_iff.1 hindex)
    rwa [value_indexOf]
  rw [Option.map_eq_bind] at hmap
  exact hmap

end Substitution

/-! ## The prompt -/

section Prompt

variable (sha256 : JsString → HexDigest) (parseJson : JsString → Option JsValue)

omit sha256 in
variable {parseJson} in
/-- An encoded packet is expanded. -/
theorem expandPromptContext_encoded
    (hparse : ∀ packet : Packet, parseJson packet.json = some packet.toValue) (packet : Packet) :
    expandPromptContext parseJson packet.encoded = packet.expand := by
  rw [expandPromptContext, Packet.encoded, if_pos (List.prefix_append _ _), List.drop_left]
  simp [hparse, readPacket_toValue]

omit parseJson in
variable {sha256} in
/-- The packet of a prompt that does not hold the marker. -/
theorem expand_packetOf {prompt : JsString}
    (habsent : ¬(markerOf (sha256 prompt)).text <:+: prompt) :
    (packetOf sha256 prompt).expand = some prompt ↔
      ∀ turn ∈ turnsOf sha256 prompt, ¬turn.BreaksReference (markerOf (sha256 prompt)) := by
  have hmarker : ∀ (marker : Marker) (index : Index), marker.text <:+: index.text marker :=
    fun marker index => ⟨[], index.digits ++ js "END", by simp [Index.text]⟩
  have hnone : ∀ {value : JsString}, value <:+: prompt → ∀ index : Index,
      ¬index.text (markerOf (sha256 prompt)) <:+: value :=
    fun hvalue index h => habsent ((hmarker _ index).trans (h.trans hvalue))
  have hsound : Substitution.Sound (markerOf (sha256 prompt)) ⟨[], prompt⟩ :=
    ⟨fun index h => absurd h (hnone List.infix_rfl index), fun n hn =>
      absurd hn (Nat.not_lt_zero n)⟩
  have hstart : Substitution.restored (markerOf (sha256 prompt)) ⟨[], prompt⟩ = prompt := by
    rw [Substitution.restored, scan_eq_map_inl (T := references _) (hnone List.infix_rfl),
      expand_map_inl]
  have hplain : Substitution.Plain (markerOf (sha256 prompt)) (repeatedValues prompt) := by
    intro value hvalue
    obtain ⟨hlength, hoccurs⟩ := repeatedValues_spec hvalue
    refine ⟨?_, hnone hoccurs⟩
    rintro rfl
    simp at hlength
  obtain ⟨hfinal, -, hiff⟩ := Substitution.replaceAll_spec hsound hplain
  rw [hstart] at hiff
  rw [packetOf, Substitution.expand_eq_restored hfinal, Option.some_inj]
  exact hiff

/-- **When a prompt comes back.**  For a reader of JSON texts that reads the
text of a packet, a prompt that does not itself begin as an encoded one is
restored if and only if it is sent as it is, or no turn of the loop breaks a
reference. -/
theorem expandPromptContext_compactPromptContext
    (hparse : ∀ packet : Packet, parseJson packet.json = some packet.toValue)
    (prompt : JsString) (hprompt : ¬codecHeader <+: prompt) :
    expandPromptContext parseJson (compactPromptContext sha256 prompt) = some prompt ↔
      (isCompacted sha256 prompt = true →
        ∀ turn ∈ turnsOf sha256 prompt, ¬turn.BreaksReference (markerOf (sha256 prompt))) := by
  unfold compactPromptContext
  by_cases hcompacted : isCompacted sha256 prompt = true
  · rw [if_pos hcompacted, forall_prop_of_true hcompacted,
      expandPromptContext_encoded hparse]
    have habsent : ¬(markerOf (sha256 prompt)).text <:+: prompt := by
      simp only [isCompacted, Bool.and_eq_true, Bool.not_eq_true', decide_eq_false_iff_not]
        at hcompacted
      exact hcompacted.1.1.2
    exact expand_packetOf habsent
  · rw [if_neg hcompacted, expandPromptContext, if_neg hprompt]
    exact iff_of_true rfl fun h => absurd h hcompacted

end Prompt

/-! ## A value that meets a reference -/

/-- The digest of sixty-four zeros. -/
def zeroDigest : HexDigest :=
  ⟨List.replicate 64 0x30, by decide⟩

/-- A short prompt is sent as it is. -/
theorem expandPromptContext_short :
    expandPromptContext readPacketText
      (compactPromptContext (fun _ => zeroDigest) (js "short prompt")) =
        some (js "short prompt") := by
  have hshort : isCompacted (fun _ => zeroDigest) (js "short prompt") = false := by
    simp [isCompacted, show (js "short prompt").length = 12 by decide]
  refine (expandPromptContext_compactPromptContext (fun _ => zeroDigest) readPacketText
    readPacketText_json (js "short prompt") (by decide)).mpr fun h => ?_
  rw [hshort] at h
  cases h

/-- A line of eight thousand units: `axxx…`. -/
def longLine : JsString :=
  0x61 :: List.replicate 7999 0x78

/-- `yyy…`. -/
def tailUnits : JsString :=
  List.replicate 79 0x79

/-- A line that begins with the last unit of a reference: `Dyyy…`. -/
def shortLine : JsString :=
  0x44 :: tailUnits

def lineFeed : JsString :=
  [0x0A]

/-- Both lines more than once, and at the end the first line with the second one
after its first unit. -/
def meetingPrompt : JsString :=
  longLine ++ (lineFeed ++ (longLine ++ (lineFeed ++ (longLine ++ (lineFeed ++ (shortLine ++
    (lineFeed ++ (shortLine ++ (lineFeed ++ (longLine ++ tailUnits))))))))))

/-- The marker of the prompt. -/
def zeroMarker : Marker :=
  markerOf zeroDigest

/-- `HEPHA_REF_000000000000_0END`, but for its last unit. -/
def brokenReference : JsString :=
  zeroMarker.text ++ js "0EN"

def meetingValues : List JsString :=
  [longLine, shortLine]

section Meeting

theorem mem_longLine {u : CodeUnit} (h : u ∈ longLine) : u = 0x61 ∨ u = 0x78 := by
  rcases List.mem_cons.mp h with h | h
  · exact .inl h
  · exact .inr (List.eq_of_mem_replicate h)

theorem mem_shortLine {u : CodeUnit} (h : u ∈ shortLine) : u = 0x44 ∨ u = 0x79 := by
  rcases List.mem_cons.mp h with h | h
  · exact .inl h
  · exact .inr (List.eq_of_mem_replicate h)

theorem mem_tailUnits {u : CodeUnit} (h : u ∈ tailUnits) : u = 0x79 :=
  List.eq_of_mem_replicate h

/-- The units of the prompt. -/
theorem mem_meetingPrompt {u : CodeUnit} (h : u ∈ meetingPrompt) :
    u = 0x61 ∨ u = 0x78 ∨ u = 0x44 ∨ u = 0x79 ∨ u = 0x0A := by
  simp only [meetingPrompt, List.mem_append, lineFeed, List.mem_singleton] at h
  grind [mem_longLine, mem_shortLine, mem_tailUnits]

theorem length_longLine : longLine.length = 8000 := by
  rw [longLine, List.length_cons, List.length_replicate]

theorem length_shortLine : shortLine.length = 80 := by
  rw [shortLine, tailUnits, List.length_cons, List.length_replicate]

theorem length_tailUnits : tailUnits.length = 79 :=
  List.length_replicate

theorem longLine_ne_shortLine : longLine ≠ shortLine := by
  intro h
  exact absurd (List.cons.inj h).1 (by decide)

theorem splitLines_meetingPrompt : splitLines meetingPrompt =
    [longLine, longLine, longLine, shortLine, shortLine, longLine ++ tailUnits] := by
  have hlong : ∀ u ∈ longLine, u ≠ 0x0A ∧ u ≠ 0x5C := by
    intro u hu
    rcases mem_longLine hu with rfl | rfl <;> decide
  have hshort : ∀ u ∈ shortLine, u ≠ 0x0A ∧ u ≠ 0x5C := by
    intro u hu
    rcases mem_shortLine hu with rfl | rfl <;> decide
  have hlast : ∀ u ∈ longLine ++ tailUnits, u ≠ 0x0A ∧ u ≠ 0x5C := by
    intro u hu
    rcases List.mem_append.mp hu with hu | hu
    · exact hlong u hu
    · rw [mem_tailUnits hu]
      decide
  simp only [meetingPrompt, lineFeed, List.singleton_append, splitLines_line hlong,
    splitLines_line hshort, splitLines_last hlast]

/-- The repeated values of such a prompt. Its last line occurs once. -/
theorem repeatedValues_pieces {prompt long short tail : JsString} (hlong : long.length = 8000)
    (hshort : short.length = 80) (htail : tail.length = 79) (hne : long ≠ short)
    (hlines : splitLines prompt = [long, long, long, short, short, long ++ tail])
    (hquoted : quotedMatches prompt = []) : repeatedValues prompt = [long, short] := by
  have hempty : JsMap.get ([] : List (JsString × ℕ)) long = none := rfl
  have hagain : ∀ n : ℕ, JsMap.get [(long, n)] long = some n := fun n =>
    JsMap.get_of_mem (by simp) (by simp)
  have habsent : JsMap.get [(long, 3)] short = none :=
    JsMap.get_eq_none_iff.2 (by simp [hne.symm])
  have honce : JsMap.get [(long, 3), (short, 1)] short = some 1 :=
    JsMap.get_of_mem (by simp [hne]) (by simp)
  have hcounts : countCandidates (splitLines prompt ++ quotedMatches prompt) =
      [(long, 3), (short, 2)] := by
    rw [hlines, hquoted]
    simp [countCandidates, JsMap.set, hempty, hagain, habsent, honce, hlong, hshort, htail, hne,
      hne.symm]
  unfold repeatedValues
  rw [hcounts]
  simp [savedUnits, hlong, hshort]

theorem repeatedValues_meetingPrompt : repeatedValues meetingPrompt = meetingValues := by
  have hquoted : quotedMatches meetingPrompt = [] := by
    refine quotedMatchesFrom_eq_nil fun h => ?_
    have hunit := mem_meetingPrompt h
    revert hunit
    decide
  exact repeatedValues_pieces length_longLine length_shortLine length_tailUnits
    longLine_ne_shortLine splitLines_meetingPrompt hquoted

/-- The body after the first turn. -/
def meetingBody : JsString :=
  zeroMarker.reference 0 ++ (lineFeed ++ (zeroMarker.reference 0 ++ (lineFeed ++
    (zeroMarker.reference 0 ++ (lineFeed ++ (shortLine ++ (lineFeed ++ (shortLine ++ (lineFeed ++
      (zeroMarker.reference 0 ++ tailUnits))))))))))

theorem reference_zero : zeroMarker.reference 0 = brokenReference ++ [0x44] := by
  decide

theorem cut_longLine : cut longLine meetingPrompt =
    [[], lineFeed, lineFeed, lineFeed ++ (shortLine ++ (lineFeed ++ (shortLine ++ lineFeed))),
      tailUnits] := by
  have hfeed : (0x61 : CodeUnit) ∉ lineFeed := by decide
  have hshort : (0x61 : CodeUnit) ∉ shortLine := fun h => absurd (mem_shortLine h) (by decide)
  have htail : (0x61 : CodeUnit) ∉ tailUnits := fun h => absurd (mem_tailUnits h) (by decide)
  have hmiddle : (0x61 : CodeUnit) ∉
      lineFeed ++ (shortLine ++ (lineFeed ++ (shortLine ++ lineFeed))) := by
    simp only [List.mem_append, not_or]
    exact ⟨hfeed, hshort, hfeed, hshort, hfeed⟩
  have hsplit : meetingPrompt = [] ++ (longLine ++ (lineFeed ++ (longLine ++ (lineFeed ++
      (longLine ++ ((lineFeed ++ (shortLine ++ (lineFeed ++ (shortLine ++ lineFeed)))) ++
        (longLine ++ tailUnits))))))) := by
    simp only [meetingPrompt, List.append_assoc, List.nil_append]
  rw [hsplit]
  unfold longLine
  rw [cut_append_sep List.not_mem_nil, cut_append_sep hfeed, cut_append_sep hfeed,
    cut_append_sep hmiddle, cut_eq_singleton htail]

/-- The occurrences of the second line: the two lines, and one that begins with
the last unit of a reference. -/
theorem cut_shortLine : cut shortLine meetingBody =
    [zeroMarker.reference 0 ++ (lineFeed ++ (zeroMarker.reference 0 ++ (lineFeed ++
      (zeroMarker.reference 0 ++ lineFeed)))), lineFeed, lineFeed ++ brokenReference, []] := by
  have hfeed : (0x44 : CodeUnit) ∉ lineFeed := by decide
  have hbroken : (0x44 : CodeUnit) ∉ brokenReference := by decide
  have hfeedBroken : (0x44 : CodeUnit) ∉ lineFeed ++ brokenReference := by decide
  have htail : ∀ s : JsString, ¬tailUnits <+: lineFeed ++ s := by
    intro s h
    have hcons : tailUnits = 0x79 :: List.replicate 78 0x79 := List.replicate_succ
    rw [hcons, lineFeed, List.singleton_append, List.cons_prefix_cons] at h
    exact absurd h.1 (by decide)
  have hsplit : meetingBody = brokenReference ++ 0x44 :: (lineFeed ++ (brokenReference ++
      0x44 :: (lineFeed ++ (brokenReference ++ 0x44 :: (lineFeed ++ (shortLine ++ (lineFeed ++
        (shortLine ++ ((lineFeed ++ brokenReference) ++ (shortLine ++ [])))))))))) := by
    simp only [meetingBody, reference_zero, shortLine, List.append_assoc, List.nil_append,
      List.append_nil, List.cons_append]
  rw [hsplit]
  unfold shortLine
  rw [cut_append_cons hbroken (htail _), ← List.append_assoc lineFeed brokenReference,
    cut_append_cons hfeedBroken (htail _), ← List.append_assoc lineFeed brokenReference,
    cut_append_cons hfeedBroken (htail _), cut_append_sep hfeed, cut_append_sep hfeed,
    cut_append_sep hfeedBroken, cut_nil (List.cons_ne_nil _ _)]
  simp only [List.modifyHead_cons, reference_zero, List.append_assoc, List.singleton_append]

/-- The variables of the loop before the second turn. -/
def meetingSubstitution : Substitution where
  dictionary := [longLine]
  body := meetingBody

/-- The body after the second turn. -/
def meetingRest : JsString :=
  (zeroMarker.reference 1).intercalate [zeroMarker.reference 0 ++ (lineFeed ++
    (zeroMarker.reference 0 ++ (lineFeed ++ (zeroMarker.reference 0 ++ lineFeed)))), lineFeed,
      lineFeed ++ brokenReference, []]

theorem replace_longLine : Substitution.replace zeroMarker ⟨[], meetingPrompt⟩ longLine =
    meetingSubstitution := by
  rw [Substitution.replace, cut_longLine, meetingSubstitution, meetingBody]
  simp [List.intercalate_cons_cons]

theorem worthwhile_longLine :
    Substitution.worthwhile zeroMarker ⟨[], meetingPrompt⟩ longLine = true := by
  have hreference : (zeroMarker.reference 0).length = 27 := by decide
  simp [Substitution.worthwhile, cut_longLine, length_longLine, hreference]

theorem worthwhile_shortLine :
    Substitution.worthwhile zeroMarker meetingSubstitution shortLine = true := by
  have hreference : (zeroMarker.reference 1).length = 27 := by decide
  simp [Substitution.worthwhile, meetingSubstitution, cut_shortLine, length_shortLine, hreference]

theorem turnsOf_meetingPrompt : turnsOf (fun _ => zeroDigest) meetingPrompt =
    [⟨⟨[], meetingPrompt⟩, longLine⟩, ⟨meetingSubstitution, shortLine⟩] := by
  have hlength : meetingSubstitution.dictionary.length = 1 := rfl
  rw [turnsOf, repeatedValues_meetingPrompt, meetingValues]
  simp [Substitution.turns, show markerOf zeroDigest = zeroMarker from rfl, worthwhile_longLine,
    replace_longLine, worthwhile_shortLine, hlength]

theorem packetOf_meetingPrompt : packetOf (fun _ => zeroDigest) meetingPrompt =
    ⟨zeroMarker, [longLine, shortLine], meetingRest⟩ := by
  have hreplace : Substitution.replace zeroMarker meetingSubstitution shortLine =
      ⟨[longLine, shortLine], meetingRest⟩ := by
    simp [Substitution.replace, meetingSubstitution, cut_shortLine, meetingRest]
  have hlength : meetingSubstitution.dictionary.length = 1 := rfl
  rw [packetOf, repeatedValues_meetingPrompt, meetingValues]
  simp [Substitution.replaceAll, show markerOf zeroDigest = zeroMarker from rfl,
    worthwhile_longLine, replace_longLine, worthwhile_shortLine, hreplace, hlength]

/-- The second turn replaces the last unit of the last reference. -/
theorem breaksReference_shortLine :
    Turn.BreaksReference zeroMarker ⟨meetingSubstitution, shortLine⟩ := by
  unfold Turn.BreaksReference
  simp only [show meetingSubstitution.body = meetingBody from rfl, cut_shortLine]
  refine ⟨3, Nat.succ_pos 2, Nat.lt_succ_self 3, .inl ⟨zeroMarker.reference 0 ++ (lineFeed ++
    (zeroMarker.reference 0 ++ (lineFeed ++ (zeroMarker.reference 0 ++ lineFeed)))) ++ shortLine ++
      (lineFeed ++ shortLine ++ lineFeed), brokenReference, [0x44], tailUnits, indexOf 0, ?_, ?_,
      by simp [brokenReference, js_ne_nil], List.cons_ne_nil _ _,
      (text_indexOf zeroMarker 0).trans reference_zero⟩⟩
  · simp [List.intercalate_cons_cons]
  · simp [shortLine]

/-- The length of such a prompt, from those of its pieces. -/
theorem length_pieces {long short tail : JsString} (hlong : long.length = 8000)
    (hshort : short.length = 80) (htail : tail.length = 79) :
    (long ++ (lineFeed ++ (long ++ (lineFeed ++ (long ++ (lineFeed ++ (short ++ (lineFeed ++
      (short ++ (lineFeed ++ (long ++ tail))))))))))).length = 32244 := by
  simp [lineFeed, hlong, hshort, htail]

theorem length_meetingPrompt : meetingPrompt.length = 32244 :=
  length_pieces length_longLine length_shortLine length_tailUnits

theorem length_append_of {a b : JsString} {m n : ℕ} (ha : a.length = m) (hb : b.length = n) :
    (a ++ b).length = m + n := by
  rw [List.length_append, ha, hb]

theorem length_codecHeader : codecHeader.length = 408 := by
  unfold codecHeader codecInstruction
  refine (length_append_of (length_append_of (length_append_of (length_append_of (length_append_of
    (length_append_of (length_js _) (length_js _)) (length_js _)) (length_js _)) (length_js _))
      (length_js _)) List.length_singleton).trans ?_
  decide

/-- The units of an encoded packet around its three values. -/
theorem length_encoded (packet : Packet) : packet.encoded.length = 482 +
    (quote packet.marker.text).length +
      ([0x2C].intercalate (packet.dictionary.map quote)).length + (quote packet.body).length := by
  have hbegin : (js "\x7b\"encoding\":\"hepha-lossless-context/v1\",\"marker\":").length = 49 := by
    rw [length_js]
    rfl
  have hdictionary : (js ",\"dictionary\":[").length = 15 := by decide
  have hbody : (js "],\"body\":").length = 9 := by decide
  have hend : (js "\x7d").length = 1 := by decide
  simp only [Packet.encoded, Packet.json, List.length_append, length_codecHeader, hbegin,
    hdictionary, hbody, hend]
  omega

/-- The encoded packet of such a prompt: the two values make up most of it. -/
theorem length_encoded_lt {packet : Packet} {long short : JsString}
    (hdictionary : packet.dictionary = [long, short]) (hlong : (quote long).length = 8002)
    (hshort : (quote short).length = 82) (hmarker : packet.marker.text.length = 23)
    (hbody : packet.body.length < 300) : packet.encoded.length < 20000 := by
  have hmarkerQuote := length_quote_le packet.marker.text
  have hbodyQuote := length_quote_le packet.body
  rw [length_encoded, hdictionary]
  simp only [List.map_cons, List.map_nil, List.intercalate_cons_cons, List.intercalate_singleton,
    List.length_append, List.length_singleton, hlong, hshort]
  omega

theorem length_quote_of_plain {text : JsString} (hplain : quoteUnits text = text) :
    (quote text).length = text.length + 2 := by
  have hmark : (js "\"").length = 1 := by decide
  rw [quote, hplain, List.length_append, List.length_append, hmark]
  omega

theorem length_encoded_meetingPrompt :
    (packetOf (fun _ => zeroDigest) meetingPrompt).encoded.length < 20000 := by
  have hlong : (quote longLine).length = 8002 := by
    refine (length_quote_of_plain (quoteUnits_eq_self fun u hu => ?_)).trans
      (congrArg (· + 2) length_longLine)
    rcases mem_longLine hu with rfl | rfl <;> decide
  have hshort : (quote shortLine).length = 82 := by
    refine (length_quote_of_plain (quoteUnits_eq_self fun u hu => ?_)).trans
      (congrArg (· + 2) length_shortLine)
    rcases mem_shortLine hu with rfl | rfl <;> decide
  have hreference : (zeroMarker.reference 0).length = 27 ∧ (zeroMarker.reference 1).length = 27 ∧
      brokenReference.length = 26 ∧ zeroMarker.text.length = 23 := by
    decide
  have hrest : meetingRest.length < 300 := by
    simp [meetingRest, List.intercalate_cons_cons, hreference, lineFeed]
  rw [packetOf_meetingPrompt]
  exact length_encoded_lt rfl hlong hshort hreference.2.2.2 hrest

theorem isCompacted_meetingPrompt : isCompacted (fun _ => zeroDigest) meetingPrompt = true := by
  have hsize := length_encoded_meetingPrompt
  have hmarker : ¬zeroMarker.text <:+: meetingPrompt := by
    intro h
    have hunit : (0x48 : CodeUnit) ∈ zeroMarker.text := by decide
    exact absurd (mem_meetingPrompt (h.subset hunit)) (by decide)
  unfold isCompacted
  rw [packetOf_meetingPrompt] at hsize ⊢
  simp only [length_meetingPrompt, Bool.and_eq_true, decide_eq_true_eq, Bool.not_eq_true',
    decide_eq_false_iff_not, List.isEmpty_cons]
  exact ⟨⟨⟨⟨by decide, by decide⟩, hmarker⟩, trivial⟩, by omega⟩

/-- A prompt that does not come back: a value that is replaced in it begins with
the last unit of the reference before it. -/
theorem prompt_not_restored :
    ¬ ∀ (sha256 : JsString → HexDigest) (parseJson : JsString → Option JsValue),
      (∀ packet : Packet, parseJson packet.json = some packet.toValue) →
        ∀ prompt : JsString, ¬codecHeader <+: prompt →
          expandPromptContext parseJson (compactPromptContext sha256 prompt) = some prompt := by
  intro h
  have hheader : ¬codecHeader <+: meetingPrompt := by
    intro hstarts
    have hunit : (0x48 : CodeUnit) ∈ codecHeader := by decide
    exact absurd (mem_meetingPrompt (hstarts.subset hunit)) (by decide)
  have hrestored := h (fun _ => zeroDigest) readPacketText readPacketText_json meetingPrompt hheader
  rw [compactPromptContext, if_pos isCompacted_meetingPrompt,
    expandPromptContext_encoded readPacketText_json] at hrestored
  have habsent : ¬(markerOf zeroDigest).text <:+: meetingPrompt := by
    intro hoccurs
    have hunit : (0x48 : CodeUnit) ∈ (markerOf zeroDigest).text := by decide
    exact absurd (mem_meetingPrompt (hoccurs.subset hunit)) (by decide)
  have hwhole := (expand_packetOf habsent).mp hrestored
  rw [turnsOf_meetingPrompt] at hwhole
  exact hwhole _ (by simp) breaksReference_shortLine

end Meeting

end Hepha.Prompt
