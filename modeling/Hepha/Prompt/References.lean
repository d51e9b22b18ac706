import Hepha.Lib.Scan
import Hepha.Prompt.Codec

/-!
# References

A reference is the marker, an index in decimal digits and `END`.  Only its
first unit is an `H` that an `E` follows, so that no reference begins inside
another: references are tokens, whatever the digest in the marker is.

The expansion of a packet scans its body for references from the left, once.
-/

namespace Hepha.Prompt

open JsValue Pattern

/-! ## Indices -/

/-- What `(\d+)` matches. -/
structure Index where
  digits : JsString
  ne_nil : digits ≠ []
  isDigits : ∀ u ∈ digits, isDigit u = true

namespace Index

def value (index : Index) : ℕ :=
  decimal index.digits

/-- `${marker}${index}END`, for any digits. -/
def text (marker : Marker) (index : Index) : JsString :=
  marker.text ++ index.digits ++ js "END"

end Index

/-- The index of an entry of the dictionary. -/
def indexOf (n : ℕ) : Index where
  digits := decimalText n
  ne_nil := decimalText_ne_nil n
  isDigits := fun _ => isDigit_of_mem_decimalText

@[simp] theorem value_indexOf (n : ℕ) : (indexOf n).value = n :=
  decimal_decimalText n

theorem text_indexOf (marker : Marker) (n : ℕ) :
    (indexOf n).text marker = marker.reference n :=
  rfl

/-! ## References as tokens -/

section Read

variable (marker : Marker)

/-- The reference in front of a text, and what follows it. -/
def readReference (s : JsString) : Option (Index × JsString) :=
  let tail := s.drop marker.text.length
  let digits := tail.takeWhile isDigit
  let rest := tail.dropWhile isDigit
  if h : marker.text <+: s ∧ digits ≠ [] ∧ js "END" <+: rest then
    some (⟨digits, h.2.1, fun _ hu => List.mem_takeWhile_imp hu⟩, rest.drop 3)
  else none

theorem readReference_eq_some {s rest : JsString} {index : Index} :
    readReference marker s = some (index, rest) ↔ s = index.text marker ++ rest := by
  constructor
  · intro h
    unfold readReference at h
    dsimp only at h
    split at h
    · rename_i hread
      obtain ⟨⟨tail, rfl⟩, hne, ⟨after, hafter⟩⟩ := hread
      cases h
      simp only [Index.text, List.drop_left] at hafter ⊢
      rw [← hafter, show (js "END" ++ after).drop 3 = after from rfl, List.append_assoc,
        List.append_assoc, hafter, List.takeWhile_append_dropWhile]
    · cases h
  · rintro rfl
    have hend : js "END" = 0x45 :: js "ND" := by decide
    have htail : (index.text marker ++ rest).drop marker.text.length =
        index.digits ++ (js "END" ++ rest) := by
      rw [Index.text, List.append_assoc, List.append_assoc, List.drop_left]
    have htake : (index.digits ++ (js "END" ++ rest)).takeWhile isDigit = index.digits := by
      rw [List.takeWhile_append_of_pos index.isDigits, hend]
      simp [isDigit]
    have hdrop : (index.digits ++ (js "END" ++ rest)).dropWhile isDigit = js "END" ++ rest := by
      rw [List.dropWhile_append_of_pos index.isDigits, hend]
      simp [isDigit]
    unfold readReference
    simp only [htail, htake, hdrop]
    rw [dif_pos ⟨⟨index.digits ++ (js "END" ++ rest), by simp [Index.text]⟩, index.ne_nil,
      List.prefix_append _ _⟩]
    rfl

end Read

/-- The unit `H`. -/
def unitH : CodeUnit := 0x48

/-- The unit `E`. -/
def unitE : CodeUnit := 0x45

/-- No end of the text begins as a marker does. -/
def Quiet (s : JsString) : Prop :=
  ∀ p, p <:+ s → p ≠ [unitH] ∧ ¬[unitH, unitE] <+: p

theorem quiet_nil : Quiet [] := by
  intro p hp
  rw [List.suffix_nil] at hp
  subst hp
  exact ⟨by simp, by simp⟩

theorem Quiet.cons {u : CodeUnit} {s : JsString} (h : Quiet s) (hu : u ≠ unitH) :
    Quiet (u :: s) := by
  intro p hp
  rcases List.suffix_cons_iff.mp hp with rfl | hp
  · exact ⟨fun heq => hu (List.cons.inj heq).1, fun hstarts =>
      hu (List.cons_prefix_cons.mp hstarts).1.symm⟩
  · exact h p hp

theorem Quiet.cons_cons {u v : CodeUnit} {s : JsString} (h : Quiet (v :: s)) (hv : v ≠ unitE) :
    Quiet (u :: v :: s) := by
  intro p hp
  rcases List.suffix_cons_iff.mp hp with rfl | hp
  · refine ⟨by simp, fun hstarts => ?_⟩
    have htail := (List.cons_prefix_cons.mp hstarts).2
    exact hv (List.cons_prefix_cons.mp htail).1.symm
  · exact h p hp

theorem Quiet.append {a s : JsString} (h : Quiet s) (ha : ∀ u ∈ a, u ≠ unitH) :
    Quiet (a ++ s) := by
  induction a with
  | nil => exact h
  | cons u rest ih =>
      rw [List.forall_mem_cons] at ha
      exact (ih ha.2).cons ha.1

theorem isHexUnit_ne {u : CodeUnit} (h : isHexUnit u = true) : u ≠ unitH := by
  rintro rfl
  exact absurd h (by decide)

theorem isDigit_ne {u : CodeUnit} (h : isDigit u = true) : u ≠ unitH := by
  rintro rfl
  exact absurd h (by decide)

theorem ne_unitH_of_notMem {a : JsString} (h : unitH ∉ a) : ∀ u ∈ a, u ≠ unitH := by
  rintro u hu rfl
  exact h hu

/-- A reference begins with `H` and `E`, and nothing after its first unit does. -/
theorem text_eq_cons (marker : Marker) (index : Index) :
    ∃ s, index.text marker = unitH :: unitE :: s ∧ Quiet (unitE :: s) := by
  refine ⟨js "PHA_REF_" ++ (marker.hex ++ (js "_" ++ (index.digits ++ js "END"))), ?_, ?_⟩
  · have hmarker : js "HEPHA_REF_" = unitH :: unitE :: js "PHA_REF_" := by decide
    rw [Index.text, Marker.text, hmarker]
    simp
  · have hhex : ∀ u ∈ marker.hex, u ≠ unitH := fun u hu =>
      isHexUnit_ne (List.all_eq_true.mp marker.isHex u hu)
    have hdigits : ∀ u ∈ index.digits, u ≠ unitH := fun u hu => isDigit_ne (index.isDigits u hu)
    have hrest : Quiet (js "A_REF_" ++ (marker.hex ++ (js "_" ++ (index.digits ++ js "END")))) := by
      have hend : Quiet (js "END") := by
        rw [← List.append_nil (js "END")]
        exact quiet_nil.append (ne_unitH_of_notMem (by decide))
      have hnumber : Quiet (js "_" ++ (index.digits ++ js "END")) :=
        (hend.append hdigits).append (ne_unitH_of_notMem (by decide))
      exact (hnumber.append hhex).append (ne_unitH_of_notMem (by decide))
    have hmarker : js "PHA_REF_" = 0x50 :: unitH :: js "A_REF_" := by decide
    rw [hmarker]
    exact (((show Quiet (0x41 :: _) from hrest).cons_cons (by decide)).cons (by decide)).cons
      (by decide)

/-- The references with a marker, as tokens. -/
def references (marker : Marker) : Tokens CodeUnit Index where
  text := Index.text marker
  read := readReference marker
  read_eq_some := readReference_eq_some marker
  text_ne_nil := by
    intro index
    obtain ⟨s, hs, -⟩ := text_eq_cons marker index
    simp [hs]
  inner := by
    intro index other x p y z hx hp htext heq
    obtain ⟨s, hs, hquiet⟩ := text_eq_cons marker index
    obtain ⟨t, ht, -⟩ := text_eq_cons marker other
    rw [ht, List.cons_append, List.cons_append] at heq
    -- The part of the reference is an end of it, without its first unit.
    obtain ⟨u, x, rfl⟩ := List.exists_cons_of_ne_nil hx
    rw [hs, List.cons_append] at htext
    obtain ⟨hsingle, hpair⟩ := hquiet p ⟨x, (List.cons.inj htext).2.symm⟩
    cases p with
    | nil => exact hp rfl
    | cons v p =>
        obtain ⟨rfl, hrest⟩ := List.cons.inj heq
        cases p with
        | nil => exact hsingle rfl
        | cons w p =>
            obtain ⟨rfl, -⟩ := List.cons.inj hrest
            exact hpair ⟨p, rfl⟩

/-! ## Expansion -/

/-- `/^HEPHA_REF_[a-f0-9]{12}_$/.test(text)`, with the marker it tells. -/
def readMarker (s : JsString) : Option Marker :=
  let hex := (s.drop 10).take 12
  if h : hex.length = 12 ∧ hex.all isHexUnit = true ∧
      js "HEPHA_REF_" ++ hex ++ js "_" = s then some ⟨hex, h.1, h.2.1⟩
  else none

theorem readMarker_text (marker : Marker) : readMarker marker.text = some marker := by
  have hhex : (marker.text.drop 10).take 12 = marker.hex := by
    have hmarker : marker.text.drop 10 = marker.hex ++ js "_" := by
      rw [Marker.text, List.append_assoc]
      rfl
    rw [hmarker, ← marker.length_eq, List.take_left]
  unfold readMarker
  simp only [hhex]
  rw [dif_pos ⟨marker.length_eq, marker.isHex, rfl⟩]

/-- The checks on what `JSON.parse` returns; `none` is a thrown error. -/
def readPacket (value : JsValue) : Option Packet := do
  let encoding ← (value.get (js "encoding")).isString
  guard (encoding = js "hepha-lossless-context/v1")
  let marker ← (value.get (js "marker")).isString.bind readMarker
  let dictionary ← (value.get (js "dictionary")).isArrayOf isString
  let body ← (value.get (js "body")).isString
  return { marker, dictionary, body }

theorem mapM_isString (texts : List JsString) :
    texts.mapM (isString ∘ str) = some texts := by
  induction texts with
  | nil => rfl
  | cons text rest ih => simp [ih, isString]

theorem readPacket_toValue (packet : Packet) : readPacket packet.toValue = some packet := by
  have hget : ∀ key : String, packet.toValue.get (js key) = _ := fun key => get_record _ key
  simp [readPacket, hget, readMarker_text, isString, isArrayOf, isArray, mapM_isString, text,
    List.lookup_cons]

/-- The body with every reference replaced by its entry of the dictionary, in
one pass; a reference without an entry is a thrown error. -/
def Packet.expand (packet : Packet) : Option JsString := do
  let texts ← ((references packet.marker).scan packet.body).mapM
    (Sum.elim (fun u => some [u]) fun index => packet.dictionary[index.value]?)
  return texts.flatten

def expandPromptContext (parseJson : JsString → Option JsValue) (prompt : JsString) :
    Option JsString :=
  if codecHeader <+: prompt then do
    let value ← parseJson (prompt.drop codecHeader.length)
    let packet ← readPacket value
    packet.expand
  else some prompt

end Hepha.Prompt
