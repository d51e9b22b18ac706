import Hepha.Js.Json

/-!
# Values as conditions and as texts

What JavaScript makes of a value where a condition or a text is expected.
-/

namespace Hepha.JsValue

/-- `!value`. -/
def isFalsy : JsValue → Bool
  | .undefined | .null => true
  | .bool value => !value
  | .num value => value == .int 0 || value == .nan
  | .str value => value.isEmpty
  | .arr _ | .obj _ => false

variable (platform : Platform)

mutual

/-- `String(value)`. -/
def toText : JsValue → JsString
  | .undefined => js "undefined"
  | .null => js "null"
  | .bool value => js (if value then "true" else "false")
  | .num (.infinite positive) => js (if positive then "Infinity" else "-Infinity")
  | .num .nan => js "NaN"
  | .num value => platform.numberText value
  | .str value => value
  | .arr items => [0x2C].intercalate (itemTexts items)
  | .obj _ => js "[object Object]"

/-- What `join` makes of the items: nothing of `null` and `undefined`. -/
def itemTexts : List JsValue → List JsString
  | [] => []
  | .undefined :: rest | .null :: rest => [] :: itemTexts rest
  | item :: rest => toText item :: itemTexts rest

end

end Hepha.JsValue
