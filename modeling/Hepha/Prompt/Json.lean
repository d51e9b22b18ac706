import Hepha.Prompt.References

/-!
# The text of a packet

A reader of the JSON texts that packets have, which reads every packet back.
It stands for `JSON.parse` on these texts.
-/

namespace Hepha.Prompt

open JsValue

/-- A string and what follows it. -/
def readString (s : JsString) : Option (JsString × JsString) :=
  match s with
  | [] => none
  | u :: rest => if u = 0x22 then readQuoted rest else none

/-- What follows a text. -/
def readText (expected s : JsString) : Option JsString :=
  if expected <+: s then some (s.drop expected.length) else none

/-- The strings of an array after its opening bracket, and what follows its
closing bracket; at most as many as the given number. -/
def readStrings : ℕ → JsString → Option (List JsString × JsString)
  | 0, _ => none
  | n + 1, s => do
      let (first, rest) ← readString s
      match readText (js ",") rest with
      | some rest =>
          let (others, rest) ← readStrings n rest
          return (first :: others, rest)
      | none =>
          let rest ← readText (js "]") rest
          return ([first], rest)

def readArray (s : JsString) : Option (List JsString × JsString) :=
  match readText (js "]") s with
  | some rest => some ([], rest)
  | none => readStrings s.length s

def readPacketText (s : JsString) : Option JsValue := do
  let rest ← readText (js "\x7b\"encoding\":\"hepha-lossless-context/v1\",\"marker\":") s
  let (marker, rest) ← readString rest
  let rest ← readText (js ",\"dictionary\":[") rest
  let (dictionary, rest) ← readArray rest
  let rest ← readText (js ",\"body\":") rest
  let (body, rest) ← readString rest
  guard (rest = js "\x7d")
  return record [("encoding", text "hepha-lossless-context/v1"), ("marker", str marker),
    ("dictionary", arr (dictionary.map str)), ("body", str body)]

theorem readText_append (expected rest : JsString) :
    readText expected (expected ++ rest) = some rest := by
  rw [readText, if_pos (List.prefix_append _ _), List.drop_left]

theorem readString_quote (text rest : JsString) :
    readString (quote text ++ rest) = some (text, rest) := by
  rw [quote_append]
  exact readQuoted_quoteUnits text rest

theorem readStrings_intercalate {texts : List JsString} (htexts : texts ≠ []) {n : ℕ}
    (hn : texts.length ≤ n) (rest : JsString) :
    readStrings n ([0x2C].intercalate (texts.map quote) ++ (js "]" ++ rest)) =
      some (texts, rest) := by
  have hcomma : js "," = [0x2C] := by decide
  induction texts generalizing n with
  | nil => exact absurd rfl htexts
  | cons first others ih =>
      obtain ⟨n, rfl⟩ : ∃ k, n = k + 1 := Nat.exists_eq_succ_of_ne_zero (by
        rintro rfl
        simp at hn)
      rw [List.length_cons, Nat.succ_le_succ_iff] at hn
      cases others with
      | nil =>
          have hbracket : readText (js ",") (js "]" ++ rest) = none := by
            rw [readText, if_neg]
            intro h
            have hcons : js "]" = [0x5D] := by decide
            rw [hcomma, hcons, List.cons_append, List.cons_prefix_cons] at h
            exact absurd h.1 (by decide)
          simp [readStrings, readString_quote, hbracket, readText_append]
      | cons next others =>
          have htail := ih (List.cons_ne_nil _ _) hn
          simp only [List.map_cons, List.intercalate_cons_cons, List.append_assoc] at htail ⊢
          rw [readStrings, readString_quote, ← hcomma]
          simp only [Option.bind_eq_bind, Option.bind_some, readText_append]
          rw [← hcomma] at htail
          rw [htail]
          rfl

theorem length_le_intercalate (texts : List JsString) :
    texts.length ≤ ([0x2C].intercalate (texts.map quote) : JsString).length := by
  induction texts with
  | nil => exact Nat.zero_le _
  | cons first others ih =>
      have hfirst : 1 ≤ (quote first).length := by
        rw [← List.append_nil (quote first), quote_append]
        simp
      cases others with
      | nil => simpa using hfirst
      | cons next others =>
          simp only [List.map_cons, List.intercalate_cons_cons, List.length_append,
            List.length_cons] at ih ⊢
          omega

theorem readArray_intercalate (texts : List JsString) (rest : JsString) :
    readArray ([0x2C].intercalate (texts.map quote) ++ (js "]" ++ rest)) = some (texts, rest) := by
  cases texts with
  | nil =>
      rw [List.map_nil, List.intercalate_nil, List.nil_append, readArray, readText_append]
  | cons first others =>
      have hquote : ∃ s, [0x2C].intercalate ((first :: others).map quote) = 0x22 :: s := by
        have hfirst := (List.append_nil (quote first)).symm.trans (quote_append first [])
        cases others with
        | nil => exact ⟨_, (List.intercalate_singleton).trans hfirst⟩
        | cons next others =>
            rw [List.map_cons, List.map_cons, List.intercalate_cons_cons, hfirst]
            exact ⟨_, rfl⟩
      obtain ⟨s, hs⟩ := hquote
      have hnone : readText (js "]") ([0x2C].intercalate ((first :: others).map quote) ++
          (js "]" ++ rest)) = none := by
        rw [readText, if_neg]
        intro h
        have hcons : js "]" = [0x5D] := by decide
        rw [hs, hcons, List.cons_append, List.cons_prefix_cons] at h
        exact absurd h.1 (by decide)
      rw [readArray, hnone]
      refine readStrings_intercalate (List.cons_ne_nil _ _) ?_ rest
      have hlength := length_le_intercalate (first :: others)
      rw [List.length_append]
      omega

/-- **Every packet is read back.** -/
theorem readPacketText_json (packet : Packet) :
    readPacketText packet.json = some packet.toValue := by
  have hbracket : js "],\"body\":" = js "]" ++ js ",\"body\":" := by decide
  unfold readPacketText Packet.json
  rw [hbracket]
  simp only [List.append_assoc, readText_append, readString_quote, readArray_intercalate,
    Option.bind_eq_bind, Option.bind_some]
  rfl

end Hepha.Prompt
