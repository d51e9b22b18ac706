import Mathlib.Algebra.GroupWithZero.Nat
import Mathlib.Data.List.Basic

/-!
# JavaScript strings

A JavaScript string is a sequence of UTF-16 code units; nothing forces the
units to pair up into characters, so a string may hold a lone surrogate or the
unit `0`.  The modelled code compares, joins and measures strings unit by
unit, and the lengths in its limits are counts of units.

`js` turns a literal of the source, which is ASCII throughout, into its code
units, so that a definition can quote the source's words.
-/

namespace Hepha

/-- A UTF-16 code unit. -/
abbrev CodeUnit := UInt16

/-- A JavaScript string, as its code units. -/
abbrev JsString := List CodeUnit

/-- Named, so that every membership test of the model rests on one constant. -/
instance : LawfulBEq JsString := inferInstance

/-- The code units of an ASCII literal, which are its UTF-8 bytes. -/
def js (literal : String) : JsString :=
  literal.toByteArray.data.toList.map UInt8.toUInt16

theorem js_injective : Function.Injective js := by
  intro s t h
  have hunit : Function.Injective UInt8.toUInt16 := by
    intro a b hab
    exact UInt8.toNat_inj.mp (by simpa using congrArg UInt16.toNat hab)
  apply String.toByteArray_inj.mp
  apply ByteArray.ext
  apply Array.toList_inj.mp
  exact hunit.list_map h

theorem js_append (s t : String) : js (s ++ t) = js s ++ js t := by
  simp [js]

/-- The units of a literal, from its characters: evaluated, the bytes of a literal take
steps that grow with the square of its length. -/
theorem js_ofList (chars : List Char) :
    js (String.ofList chars) = (chars.flatMap String.utf8EncodeChar).map UInt8.toUInt16 := by
  simp [js, List.utf8Encode]

theorem length_js (chars : List Char) :
    (js (String.ofList chars)).length = (chars.map Char.utf8Size).sum := by
  simp [js_ofList, List.length_flatMap]

theorem js_ne_nil {s : String} (h : s ≠ "") : js s ≠ [] :=
  fun heq => h (js_injective heq)

namespace JsString

/-- The text where it is there and not empty: what `if (text)` tests. -/
def truthy (text : Option JsString) : Option JsString :=
  text.filter fun t => !t.isEmpty

theorem truthy_eq_none_iff {text : Option JsString} :
    truthy text = none ↔ text = none ∨ text = some [] := by
  cases text <;> simp [truthy, Option.filter]

theorem truthy_some {text : JsString} (h : text ≠ []) : truthy (some text) = some text := by
  simp [truthy, Option.filter, h]

/-- `text.replace(pattern, replacement)` for a pattern of one unit: the first
occurrence is replaced, and a replacement without `$` is inserted as it is. -/
def replaceFirst (pattern : CodeUnit) (replacement : JsString) : JsString → JsString
  | [] => []
  | u :: rest =>
      if u = pattern then replacement ++ rest
      else u :: replaceFirst pattern replacement rest

/-- `/^[a-f0-9]{64}$/`: the hexadecimal form of a SHA-256 digest. -/
def isHexDigest (text : JsString) : Bool :=
  text.length == 64 && text.all fun u => (0x61 ≤ u && u ≤ 0x66) || (0x30 ≤ u && u ≤ 0x39)

end JsString

/-- A SHA-256 digest in hexadecimal. -/
abbrev HexDigest := { digest : JsString // digest.isHexDigest = true }

end Hepha
