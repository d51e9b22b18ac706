import Hepha.Js.Json

/-!
# `JSON.stringify`

The text of a value without white space.  A property whose value JSON cannot express is
left out, and such an item of an array is `null`.  Properties stand in the order in which
the object has them.
-/

namespace Hepha

variable (platform : Platform)

mutual

/-- `JSON.stringify(value)`, which is `undefined` for `undefined`. -/
def stringify : JsValue → Option JsString
  | .undefined => none
  | .null => some (js "null")
  | .bool value => some (js (if value then "true" else "false"))
  | .num value => some (if value.isFinite then platform.numberText value else js "null")
  | .str value => some (quote value)
  | .arr items => some (js "[" ++ [0x2C].intercalate (stringifyItems items) ++ js "]")
  | .obj properties =>
      some (js "\x7b" ++ [0x2C].intercalate (stringifyProperties properties) ++ js "\x7d")

def stringifyItems : List JsValue → List JsString
  | [] => []
  | item :: rest => (stringify item).getD (js "null") :: stringifyItems rest

def stringifyProperties : List (JsString × JsValue) → List JsString
  | [] => []
  | (key, value) :: rest =>
      match stringify value with
      | none => stringifyProperties rest
      | some text => (quote key ++ js ":" ++ text) :: stringifyProperties rest

end

/-- `JSON.stringify(value).length`, for a value that is not `undefined`. -/
def jsonLength (value : JsValue) : ℕ :=
  ((stringify platform value).getD []).length

example : stringify ⟨fun _ => none, fun _ => js "1", id⟩
    (JsValue.record [("a", .arr [.undefined, .text "\n"]), ("b", .undefined)]) =
      some (js "\x7b\"a\":[null,\"\\n\"]\x7d") := by decide +kernel

end Hepha
