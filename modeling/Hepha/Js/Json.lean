import Hepha.Js.Pattern
import Hepha.Js.Value
import Mathlib.Data.List.Sort

/-!
# JSON texts

The canonical text of a value: no white space, and the keys of an object in the
order of their code units.  A value that JSON cannot express has none.

What the code takes from its platform is a parameter: the reader of JSON texts,
the text of a finite number and the SHA-256 digest of a text, in hexadecimal
form.
-/

namespace Hepha

structure Platform where
  /-- `JSON.parse`; nothing where it throws. -/
  parseJson : JsString → Option JsValue
  /-- `JSON.stringify` of a finite number. -/
  numberText : JsNumber → JsString
  /-- `createHash("sha256").update(text, "utf8").digest("hex")`. -/
  sha256 : JsString → JsString

/-! ## `JSON.stringify` of a string -/

def hexDigit (n : ℕ) : CodeUnit :=
  if n < 10 then 0x30 + UInt16.ofNat n else 0x57 + UInt16.ofNat n

/-- `\u` and the unit in four hexadecimal digits. -/
def escapeUnit (u : CodeUnit) : JsString :=
  js "\\u" ++ [hexDigit (u.toNat / 4096), hexDigit (u.toNat / 256 % 16),
    hexDigit (u.toNat / 16 % 16), hexDigit (u.toNat % 16)]

/-- A unit outside a surrogate pair. -/
def quoteUnit (u : CodeUnit) : JsString :=
  if u = 0x22 then js "\\\""
  else if u = 0x5C then js "\\\\"
  else if u = 0x08 then js "\\b"
  else if u = 0x0C then js "\\f"
  else if u = 0x0A then js "\\n"
  else if u = 0x0D then js "\\r"
  else if u = 0x09 then js "\\t"
  else if u < 0x20 || isSurrogate u then escapeUnit u
  else [u]

def quoteUnits : JsString → JsString
  | [] => []
  | [u] => quoteUnit u
  | u :: v :: rest =>
      if isHighSurrogate u && isLowSurrogate v then u :: v :: quoteUnits rest
      else quoteUnit u ++ quoteUnits (v :: rest)

def quote (text : JsString) : JsString :=
  js "\"" ++ quoteUnits text ++ js "\""

/-! ## Reading a string -/

/-- The value of a hexadecimal digit. -/
def hexValue (u : CodeUnit) : Option ℕ :=
  if 0x30 ≤ u ∧ u ≤ 0x39 then some (u.toNat - 0x30)
  else if 0x61 ≤ u ∧ u ≤ 0x66 then some (u.toNat - 0x57)
  else if 0x41 ≤ u ∧ u ≤ 0x46 then some (u.toNat - 0x37)
  else none

/-- The unit that four hexadecimal digits stand for. -/
def hexUnit (a b c d : CodeUnit) : Option CodeUnit := do
  let a ← hexValue a
  let b ← hexValue b
  let c ← hexValue c
  let d ← hexValue d
  return UInt16.ofNat (4096 * a + 256 * b + 16 * c + d)

/-- The unit that a backslash and one unit stand for. -/
def unescape (u : CodeUnit) : Option CodeUnit :=
  if u = 0x22 then some 0x22
  else if u = 0x5C then some 0x5C
  else if u = 0x2F then some 0x2F
  else if u = 0x62 then some 0x08
  else if u = 0x66 then some 0x0C
  else if u = 0x6E then some 0x0A
  else if u = 0x72 then some 0x0D
  else if u = 0x74 then some 0x09
  else none

/-- A string of a JSON text after its opening quote, and what follows its closing quote. -/
def readQuoted : JsString → Option (JsString × JsString)
  | [] => none
  | u :: rest =>
      if u = 0x22 then some ([], rest)
      else if u = 0x5C then
        match rest with
        | [] | [_] => none
        | v :: w :: rest =>
            if v = 0x75 then
              match rest with
              | x :: y :: z :: rest =>
                  (hexUnit w x y z).bind fun unit =>
                    (readQuoted rest).map fun read => (unit :: read.1, read.2)
              | _ => none
            else
              (unescape v).bind fun unit =>
                (readQuoted (w :: rest)).map fun read => (unit :: read.1, read.2)
      else if u < 0x20 then none
      else (readQuoted rest).map fun read => (u :: read.1, read.2)

theorem hexValue_hexDigit : ∀ n < 16, hexValue (hexDigit n) = some n := by
  decide

theorem hexUnit_digits (u : CodeUnit) :
    hexUnit (hexDigit (u.toNat / 4096)) (hexDigit (u.toNat / 256 % 16))
      (hexDigit (u.toNat / 16 % 16)) (hexDigit (u.toNat % 16)) = some u := by
  have hlt : u.toNat < 65536 := u.toNat_lt
  have hfirst := hexValue_hexDigit (u.toNat / 4096) (by omega)
  have hsecond := hexValue_hexDigit (u.toNat / 256 % 16) (Nat.mod_lt _ (by decide))
  have hthird := hexValue_hexDigit (u.toNat / 16 % 16) (Nat.mod_lt _ (by decide))
  have hfourth := hexValue_hexDigit (u.toNat % 16) (Nat.mod_lt _ (by decide))
  have hsum : 4096 * (u.toNat / 4096) + 256 * (u.toNat / 256 % 16) + 16 * (u.toNat / 16 % 16) +
      u.toNat % 16 = u.toNat := by
    omega
  simp only [hexUnit, hfirst, hsecond, hthird, hfourth, Option.bind_eq_bind, Option.bind_some,
    hsum, UInt16.ofNat_toNat]
  rfl

/-- The equation of the reader at a unit: the written forms below are its branches. -/
theorem readQuoted_unit (u : CodeUnit) (rest : JsString) :
    readQuoted (u :: rest) =
      if u = 0x22 then some ([], rest)
      else if u = 0x5C then
        match rest with
        | [] | [_] => none
        | v :: w :: rest =>
            if v = 0x75 then
              match rest with
              | x :: y :: z :: rest =>
                  (hexUnit w x y z).bind fun unit =>
                    (readQuoted rest).map fun read => (unit :: read.1, read.2)
              | _ => none
            else
              (unescape v).bind fun unit =>
                (readQuoted (w :: rest)).map fun read => (unit :: read.1, read.2)
      else if u < 0x20 then none
      else (readQuoted rest).map fun read => (u :: read.1, read.2) := by
  rw [readQuoted.eq_def]
  rfl

theorem readQuoted_end (rest : JsString) : readQuoted (0x22 :: rest) = some ([], rest) := by
  rw [readQuoted_unit]
  simp only [if_true]

/-- A unit that is written as it is. -/
theorem readQuoted_cons {u : CodeUnit} {rest : JsString} (hquote : u ≠ 0x22) (hescape : u ≠ 0x5C)
    (hcontrol : ¬u < 0x20) :
    readQuoted (u :: rest) = (readQuoted rest).map fun read => (u :: read.1, read.2) := by
  rw [readQuoted_unit]
  simp only [if_neg hquote, if_neg hescape, if_neg hcontrol]

/-- A unit that is written as a backslash and another unit. -/
theorem readQuoted_escape {u v : CodeUnit} {rest : JsString} (h : unescape v = some u)
    (hunit : v ≠ 0x75) :
    readQuoted (0x5C :: v :: rest) = (readQuoted rest).map fun read => (u :: read.1, read.2) := by
  have hquote : (0x5C : CodeUnit) ≠ 0x22 := by decide
  cases rest with
  | nil =>
      rw [readQuoted_unit]
      simp only [if_neg hquote, if_true]
      rfl
  | cons w rest =>
      rw [readQuoted_unit]
      simp only [if_neg hquote, if_true, if_neg hunit, h, Option.bind_some]

/-- A unit that is written as its four hexadecimal digits. -/
theorem readQuoted_hex {u a b c d : CodeUnit} {rest : JsString} (h : hexUnit a b c d = some u) :
    readQuoted (0x5C :: 0x75 :: a :: b :: c :: d :: rest) =
      (readQuoted rest).map fun read => (u :: read.1, read.2) := by
  have hquote : (0x5C : CodeUnit) ≠ 0x22 := by decide
  rw [readQuoted_unit]
  simp only [if_neg hquote, if_true, h, Option.bind_some]

theorem readQuoted_quoteUnit (u : CodeUnit) (rest : JsString) :
    readQuoted (quoteUnit u ++ rest) =
      (readQuoted rest).map fun read => (u :: read.1, read.2) := by
  unfold quoteUnit
  split_ifs with h1 h2 h3 h4 h5 h6 h7 h8
  · exact h1 ▸ readQuoted_escape (by decide) (by decide)
  · exact h2 ▸ readQuoted_escape (by decide) (by decide)
  · exact h3 ▸ readQuoted_escape (by decide) (by decide)
  · exact h4 ▸ readQuoted_escape (by decide) (by decide)
  · exact h5 ▸ readQuoted_escape (by decide) (by decide)
  · exact h6 ▸ readQuoted_escape (by decide) (by decide)
  · exact h7 ▸ readQuoted_escape (by decide) (by decide)
  · exact readQuoted_hex (hexUnit_digits u)
  · rw [Bool.or_eq_true, not_or, decide_eq_true_eq] at h8
    exact readQuoted_cons h1 h2 h8.1

/-- A unit of a surrogate pair is written as it is. -/
theorem readQuoted_surrogate {u : CodeUnit} {rest : JsString} (h : 0xD800 ≤ u) :
    readQuoted (u :: rest) = (readQuoted rest).map fun read => (u :: read.1, read.2) := by
  rw [UInt16.le_iff_toNat_le] at h
  refine readQuoted_cons ?_ ?_ ?_
  · rintro rfl
    exact absurd h (by decide)
  · rintro rfl
    exact absurd h (by decide)
  · rw [UInt16.lt_iff_toNat_lt]
    have h20 : (0x20 : CodeUnit).toNat = 32 := rfl
    have hD800 : (0xD800 : CodeUnit).toNat = 55296 := rfl
    omega

/-- **A string that was written is read back.** -/
theorem readQuoted_quoteUnits (text rest : JsString) :
    readQuoted (quoteUnits text ++ 0x22 :: rest) = some (text, rest) := by
  induction text using quoteUnits.induct with
  | case1 => exact readQuoted_end rest
  | case2 u =>
      rw [quoteUnits, readQuoted_quoteUnit, readQuoted_end]
      rfl
  | case3 u v tail hpair ih =>
      rw [quoteUnits, if_pos hpair, List.cons_append, List.cons_append]
      simp only [isHighSurrogate, isLowSurrogate, Bool.and_eq_true, decide_eq_true_eq] at hpair
      have hlow : (0xD800 : CodeUnit) ≤ 0xDC00 := by decide
      have hv : 0xD800 ≤ v := UInt16.le_trans hlow hpair.2.1
      rw [readQuoted_surrogate hpair.1.1, readQuoted_surrogate hv, ih]
      rfl
  | case4 u v tail hpair ih =>
      rw [quoteUnits, if_neg hpair, List.append_assoc, readQuoted_quoteUnit, ih]
      rfl

theorem quote_append (text rest : JsString) :
    quote text ++ rest = 0x22 :: (quoteUnits text ++ 0x22 :: rest) := by
  have hmark : js "\"" = [0x22] := by decide
  simp [quote, hmark]

/-- A quoted text determines itself and where it ends. -/
theorem quote_append_injective {s t rest rest' : JsString}
    (h : quote s ++ rest = quote t ++ rest') : s = t ∧ rest = rest' := by
  rw [quote_append, quote_append, List.cons.injEq] at h
  have hread := readQuoted_quoteUnits s rest
  rw [h.2, readQuoted_quoteUnits, Option.some.injEq, Prod.mk.injEq] at hread
  exact ⟨hread.1.symm, hread.2.symm⟩

theorem length_quoteUnit_le (u : CodeUnit) : (quoteUnit u).length ≤ 6 := by
  unfold quoteUnit
  split_ifs
  all_goals first | decide | exact Nat.le_of_eq rfl | simp

theorem length_quote_le (text : JsString) : (quote text).length ≤ 6 * text.length + 2 := by
  have hunits : (quoteUnits text).length ≤ 6 * text.length := by
    induction text using quoteUnits.induct with
    | case1 => exact Nat.le_refl 0
    | case2 u => exact length_quoteUnit_le u
    | case3 u v tail hpair ih =>
        rw [quoteUnits, if_pos hpair]
        simp only [List.length_cons]
        omega
    | case4 u v tail hpair ih =>
        have hunit := length_quoteUnit_le u
        rw [quoteUnits, if_neg hpair, List.length_append, List.length_cons]
        omega
  rw [← List.append_nil (quote text), quote_append]
  simp only [List.length_cons, List.length_append, List.length_nil]
  omega

/-- The text of a string of plain units. -/
theorem quoteUnits_eq_self {text : JsString}
    (h : ∀ u ∈ text, quoteUnit u = [u] ∧ isHighSurrogate u = false) : quoteUnits text = text := by
  induction text using quoteUnits.induct with
  | case1 => rfl
  | case2 u => exact (h u (by simp)).1
  | case3 u v tail hpair ih =>
      rw [(h u (by simp)).2, Bool.false_and] at hpair
      cases hpair
  | case4 u v tail hpair ih =>
      rw [quoteUnits, if_neg hpair, (h u (by simp)).1, ih fun w hw => h w (by simp [hw])]
      rfl

/-! ## The canonical text of a value -/

section Canonical

variable (platform : Platform)

/-- `Number.isFinite`. -/
def JsNumber.isFinite : JsNumber → Bool
  | .int _ | .fraction _ _ => true
  | .infinite _ | .nan => false

/-- The members of an object in the order of their keys. -/
def sortedMembers (members : List (JsString × JsString)) : List JsString :=
  (members.insertionSort fun a b => a.1 ≤ b.1).map fun member =>
    quote member.1 ++ js ":" ++ member.2

mutual

/-- `canonicalizeJson`, where `rejectInput()` is no text. -/
def canonicalizeJson : JsValue → Option JsString
  | .undefined => none
  | .null => some (js "null")
  | .bool value => some (js (if value then "true" else "false"))
  | .num value => if value.isFinite then some (platform.numberText value) else none
  | .str value => some (quote value)
  | .arr items =>
      (canonicalizeItems items).map fun texts =>
        js "[" ++ [0x2C].intercalate texts ++ js "]"
  | .obj properties =>
      (canonicalizeProperties properties).map fun members =>
        js "\x7b" ++ [0x2C].intercalate (sortedMembers members) ++ js "\x7d"

def canonicalizeItems : List JsValue → Option (List JsString)
  | [] => some []
  | item :: rest => do
      let text ← canonicalizeJson item
      let texts ← canonicalizeItems rest
      return text :: texts

def canonicalizeProperties : List (JsString × JsValue) → Option (List (JsString × JsString))
  | [] => some []
  | (key, value) :: rest => do
      let text ← canonicalizeJson value
      let members ← canonicalizeProperties rest
      return (key, text) :: members

end

/-- Two values with the same canonical text. -/
def sameJson (left right : JsValue) : Bool :=
  match canonicalizeJson platform left, canonicalizeJson platform right with
  | some leftText, some rightText => leftText == rightText
  | _, _ => false

end Canonical

example : canonicalizeJson ⟨fun _ => none, fun _ => js "1", id⟩
    (JsValue.record [("b", .num (.int 1)), ("a", .arr [.null, .text "x\"y"])]) =
      some (js "\x7b\"a\":[null,\"x\\\"y\"],\"b\":1\x7d") := by decide +kernel

end Hepha
