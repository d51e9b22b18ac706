import Hepha.Js.Collections
import Hepha.Js.Decimal
import Hepha.Js.Json
import Hepha.Lib.Cut
import Mathlib.Data.List.Sort

/-!
# The prompt codec

A long prompt is sent with its repetitions taken out: a packet with a body in
which a repeated value is replaced by a reference, and a dictionary of the
values.  The values are replaced one after the other, each in the body that
the ones before it have left; the references are expanded in one pass.

The digest of a prompt is a parameter, and so is the reader of JSON texts.  The
text of a packet is that of `JSON.stringify`.  A product of the source with a
fraction is compared in tenths.
-/

namespace Hepha.Prompt

open JsValue Pattern

/-! ## Markers and references -/

/-- `[a-f0-9]`. -/
def isHexUnit (u : CodeUnit) : Bool :=
  isDigit u || (0x61 ≤ u && u ≤ 0x66)

/-- A text of the form `HEPHA_REF_[a-f0-9]{12}_`. -/
structure Marker where
  hex : JsString
  length_eq : hex.length = 12
  isHex : hex.all isHexUnit = true

namespace Marker

def text (marker : Marker) : JsString :=
  js "HEPHA_REF_" ++ marker.hex ++ js "_"

/-- `${marker}${index}END`. -/
def reference (marker : Marker) (index : ℕ) : JsString :=
  marker.text ++ decimalText index ++ js "END"

end Marker

/-- The marker with the first twelve digits of a digest. -/
def markerOf (digest : HexDigest) : Marker where
  hex := digest.1.take 12
  length_eq := by
    have h := digest.2
    simp only [JsString.isHexDigest, Bool.and_eq_true, beq_iff_eq] at h
    simp [h.1]
  isHex := by
    have h := digest.2
    simp only [JsString.isHexDigest, Bool.and_eq_true, List.all_eq_true] at h
    rw [List.all_eq_true]
    intro u hu
    have hunit := h.2 u (List.mem_of_mem_take hu)
    simp only [isHexUnit, isDigit]
    simpa [or_comm] using hunit

/-! ## Candidates -/

/-- `prompt.split(/\n|\\n/)`: a line ends at a line feed or at a written one. -/
def splitLines : JsString → List JsString
  | [] => [[]]
  | [u] => if u = 0x0A then [[], []] else [[u]]
  | u :: v :: rest =>
      if u = 0x0A then [] :: splitLines (v :: rest)
      else if u = 0x5C ∧ v = 0x6E then [] :: splitLines rest
      else (splitLines (v :: rest)).modifyHead (u :: ·)

/-- The line terminators, which `.` does not match. -/
def isLineTerminator (u : CodeUnit) : Bool :=
  u == 0x0A || u == 0x0D || u == 0x2028 || u == 0x2029

/-- The rest of a quoted string up to its closing quote, after some of its items. -/
def quotedRest : ℕ → JsString → Option JsString
  | _, [] => none
  | count, [u] => if u = 0x22 ∧ 80 ≤ count ∧ count ≤ 4000 then some [u] else none
  | count, u :: v :: rest =>
      if u = 0x22 then if 80 ≤ count ∧ count ≤ 4000 then some [u] else none
      else if u = 0x5C then
        if isLineTerminator v then none
        else (quotedRest (count + 1) rest).map fun text => u :: v :: text
      else (quotedRest (count + 1) (v :: rest)).map (u :: ·)

/-- The matches of the expression after some units that belong to the last match. -/
def quotedMatchesFrom : ℕ → JsString → List JsString
  | _, [] => []
  | skip + 1, _ :: rest => quotedMatchesFrom skip rest
  | 0, u :: rest =>
      if u = 0x22 then
        match quotedRest 0 rest with
        | some text => (u :: text) :: quotedMatchesFrom text.length rest
        | none => quotedMatchesFrom 0 rest
      else quotedMatchesFrom 0 rest

/-- `prompt.match(/"(?:[^"\\]|\\.){80,4000}"/g) ?? []`. -/
def quotedMatches (prompt : JsString) : List JsString :=
  quotedMatchesFrom 0 prompt

/-- The values of the right length, each with the number of times it was found. -/
def countCandidates (values : List JsString) : List (JsString × ℕ) :=
  values.foldl (fun candidates value =>
    if 80 ≤ value.length ∧ value.length ≤ 8000 then
      JsMap.set candidates value ((JsMap.get candidates value).getD 0 + 1)
    else candidates) []

/-- The units that a candidate saves. -/
def savedUnits (candidate : JsString × ℕ) : ℕ :=
  candidate.1.length * (candidate.2 - 1)

/-- The repeated values of a prompt, those that save most first. -/
def repeatedValues (prompt : JsString) : List JsString :=
  let candidates := countCandidates (splitLines prompt ++ quotedMatches prompt)
  (((candidates.filter fun c => 1 < c.2).insertionSort
    fun a b => savedUnits b ≤ savedUnits a).take 1024).map Prod.fst

/-! ## Packets -/

/-- The variables of the loop over the values. -/
structure Substitution where
  dictionary : List JsString
  body : JsString

namespace Substitution

variable (marker : Marker) (s : Substitution) (value : JsString)

/-- A value is replaced if that saves more than the entry of the dictionary costs. -/
def worthwhile : Bool :=
  let occurrences := (cut value s.body).length - 1
  value.length + 64 <
    (value.length - (marker.reference s.dictionary.length).length) * occurrences

/-- The value replaced by the next reference. -/
def replace : Substitution where
  dictionary := s.dictionary ++ [value]
  body := (marker.reference s.dictionary.length).intercalate (cut value s.body)

/-- The loop over the values. -/
def replaceAll (s : Substitution) : List JsString → Substitution
  | [] => s
  | value :: rest =>
      if 256 ≤ s.dictionary.length then s
      else if s.worthwhile marker value then (s.replace marker value).replaceAll rest
      else s.replaceAll rest

end Substitution

structure Packet where
  marker : Marker
  dictionary : List JsString
  body : JsString

def codecInstruction : JsString :=
  js "Lossless HEPHA context transport. Reconstruct the original text by " ++
    js "replacing each marker + decimal index + END in body with " ++
    js "dictionary[index], in one pass. Dictionary entries are literal, not " ++
    js "recursive references. Follow the reconstructed prompt exactly, retaining " ++
    js "ordering, qualifications and quoted/untrusted-data boundaries. This " ++
    js "encoding does not summarise evidence, grant authority or establish a pass."

/-- What an encoded prompt begins with. -/
def codecHeader : JsString :=
  codecInstruction ++ [0x0A]

namespace Packet

variable (packet : Packet)

def toValue : JsValue :=
  record [("encoding", text "hepha-lossless-context/v1"), ("marker", str packet.marker.text),
    ("dictionary", arr (packet.dictionary.map str)), ("body", str packet.body)]

/-- `JSON.stringify` of a packet. -/
def json : JsString :=
  js "\x7b\"encoding\":\"hepha-lossless-context/v1\",\"marker\":" ++ quote packet.marker.text ++
    js ",\"dictionary\":[" ++ [0x2C].intercalate (packet.dictionary.map quote) ++
    js "],\"body\":" ++ quote packet.body ++ js "\x7d"

def encoded : JsString :=
  codecHeader ++ packet.json

end Packet

/-! ## Compaction -/

section Compact

variable (sha256 : JsString → HexDigest) (prompt : JsString)

/-- The packet of the prompt before its size is compared. -/
def packetOf : Packet :=
  let marker := markerOf (sha256 prompt)
  let s := Substitution.replaceAll marker { dictionary := [], body := prompt }
    (repeatedValues prompt)
  { marker, dictionary := s.dictionary, body := s.body }

/-- The prompt is sent as a packet: its length is in the limits, it does not
hold the marker, and the packet is smaller by a tenth. -/
def isCompacted : Bool :=
  let packet := packetOf sha256 prompt
  24000 ≤ prompt.length && prompt.length ≤ 2000000 && !decide (packet.marker.text <:+: prompt) &&
    !packet.dictionary.isEmpty && 10 * packet.encoded.length < 9 * prompt.length

def compactPromptContext : JsString :=
  if isCompacted sha256 prompt then (packetOf sha256 prompt).encoded else prompt

end Compact

end Hepha.Prompt
