import Hepha.Js.Text
import Mathlib.Data.Int.Notation
import Mathlib.Data.List.Basic
import Mathlib.Data.Nat.Notation

/-!
# JavaScript values and their guards

The values a guard of the source can receive: plain data, with the own
enumerable properties of an object in order.  Getters, prototypes other than
the plain one and holes in arrays are outside the model.

A guard such as `value is T` narrows an unknown value to a type.  It is
modelled as a function to `Option T`: `none` where the source returns `false`,
and otherwise the value read at its narrowed type.  The shared guards are
here, under the names the source repeats in each of its modules.
-/

namespace Hepha

/-- A JavaScript number.  A fraction is the integer below it and what it
exceeds it by, in units of the smallest positive number. -/
inductive JsNumber where
  | int (value : ℤ)
  | fraction (floor : ℤ) (part : ℕ)
  | infinite (positive : Bool)
  | nan
  deriving DecidableEq, Repr

/-- `value > bound`. -/
def JsNumber.exceeds (bound : ℤ) : JsNumber → Bool
  | int value => bound < value
  | fraction floor _ => bound ≤ floor
  | infinite positive => positive
  | nan => false

namespace JsNumber

/-- `left < right`. -/
def lt : JsNumber → JsNumber → Bool
  | nan, _ | _, nan | infinite true, _ | _, infinite false => false
  | infinite false, _ | _, infinite true => true
  | int left, int right => left < right
  | int left, fraction floor _ => left ≤ floor
  | fraction floor _, int right => floor < right
  | fraction floor part, fraction floor' part' =>
      floor < floor' || floor == floor' && part < part'

/-- `left <= right`. -/
def le (left right : JsNumber) : Bool :=
  left != nan && right != nan && !lt right left

end JsNumber

inductive JsValue where
  | undefined
  | null
  | bool (value : Bool)
  | num (value : JsNumber)
  | str (value : JsString)
  | arr (items : List JsValue)
  | obj (properties : List (JsString × JsValue))

namespace JsValue

/-- `Object.keys(value)`, for a record. -/
def keys : JsValue → List JsString
  | obj properties => properties.map Prod.fst
  | _ => []

/-- `value[key]`, for a record: `undefined` where there is no such property. -/
def get (value : JsValue) (key : JsString) : JsValue :=
  match value with
  | obj properties => ((properties.lookup key).getD undefined)
  | _ => undefined

/-- `typeof value === "object" && value !== null && !Array.isArray(value)`. -/
def isRecord : JsValue → Bool
  | obj _ => true
  | _ => false

/-- `Object.keys(value).every((key) => allowed.includes(key))`. -/
def hasOnlyKeys (value : JsValue) (allowed : List String) : Bool :=
  value.keys.all fun key => (allowed.map js).contains key

/-- A record whose keys are exactly the given ones. -/
def exactKeys (value : JsValue) (keys : List String) : Bool :=
  value.isRecord && value.keys.length == keys.length && value.hasOnlyKeys keys

/-- `key in value`, for a record. -/
def hasKey (value : JsValue) (key : String) : Bool :=
  value.keys.contains (js key)

/-- A record with all of the required keys and no others but the optional ones. -/
def hasShape (value : JsValue) (required : List String) (optional : List String) : Bool :=
  value.isRecord && value.hasOnlyKeys (required ++ optional) && required.all value.hasKey

/-- `typeof value === "string"`. -/
def isString : JsValue → Option JsString
  | str value => some value
  | _ => none

/-- `typeof value === "string" && value.length > 0`. -/
def isNonEmptyString (value : JsValue) : Option JsString :=
  value.isString.filter fun text => 0 < text.length

/-- `typeof value === "boolean"`. -/
def isBoolean : JsValue → Option Bool
  | bool value => some value
  | _ => none

/-- `Number.isInteger(value) && value >= 0`. -/
def isNatural : JsValue → Option ℕ
  | num (.int value) => if 0 ≤ value then some value.toNat else none
  | _ => none

/-- The largest safe integer. -/
def maxSafeInteger : ℕ := 9007199254740991

/-- `Number.isSafeInteger(value) && value >= 0`. -/
def isSafeNatural (value : JsValue) : Option ℕ :=
  value.isNatural.filter (· ≤ maxSafeInteger)

/-- `Number.isInteger(value)`. -/
def isInteger : JsValue → Option ℤ
  | num (.int value) => some value
  | _ => none

/-- `value === null`, or what the guard accepts. -/
def isNullable {α : Type*} (guard : JsValue → Option α) : JsValue → Option (Option α)
  | null => some none
  | value => (guard value).map some

/-- `value === undefined`, or what the guard accepts. -/
def isOptional {α : Type*} (guard : JsValue → Option α) : JsValue → Option (Option α)
  | undefined => some none
  | value => (guard value).map some

/-- An optional member at the type its guard narrows it to. -/
def optionalMember {α : Type*} (value : JsValue) (field : String) (guard : JsValue → Option α) :
    Option (Option α) :=
  isOptional guard (value.get (js field))

/-- A member that is either there and accepted, or not there. -/
def memberIfPresent {α : Type*} (value : JsValue) (field : String) (guard : JsValue → Option α) :
    Option (Option α) :=
  if value.hasKey field then (guard (value.get (js field))).map some else some none

/-- `Array.isArray(value)`. -/
def isArray : JsValue → Option (List JsValue)
  | arr items => some items
  | _ => none

/-- `Array.isArray(value) && value.every(item)`, the items read at the type
the item guard narrows them to. -/
def isArrayOf {α : Type*} (item : JsValue → Option α) (value : JsValue) : Option (List α) :=
  value.isArray.bind fun items => items.mapM item

/-- Membership of a string in a table of words, read as the table's constant. -/
def isOneOf {α : Type*} (table : List (String × α)) (value : JsValue) : Option α :=
  value.isString.bind fun text => (table.map fun entry => (js entry.1, entry.2)).lookup text

/-- `left === right`.  Two objects of the modelled code are never one object. -/
def identical : JsValue → JsValue → Bool
  | undefined, undefined | null, null => true
  | bool left, bool right => left == right
  | num left, num right => left == right && left != .nan
  | str left, str right => left == right
  | _, _ => false

/-- `value ?? other`. -/
def orElse : JsValue → JsValue → JsValue
  | undefined, other | null, other => other
  | value, _ => value

/-- An object literal. -/
def record (properties : List (String × JsValue)) : JsValue :=
  obj (properties.map fun property => (js property.1, property.2))

/-- A string literal. -/
def text (s : String) : JsValue :=
  str (js s)

/-! ### Guards on the fields of a record -/

/-- `typeof value[field] === "string" && p(value[field])`. -/
def hasText (value : JsValue) (field : String) (p : JsString → Bool) : Bool :=
  (value.get (js field)).isString.any p

/-- `value[field] === undefined || p(value[field])`, with `p` as before. -/
def hasOptionalText (value : JsValue) (field : String) (p : JsString → Bool) : Bool :=
  (isOptional isString (value.get (js field))).any (·.all p)

/-- `!(field in value) || p(value[field])`. -/
def hasIfPresent (value : JsValue) (field : String) (p : JsValue → Bool) : Bool :=
  !value.hasKey field || p (value.get (js field))

/-- `Array.isArray(value[field])`, with `p` of the items. -/
def hasArray (value : JsValue) (field : String) (p : List JsValue → Bool) : Bool :=
  (value.get (js field)).isArray.any p

/-- The texts that the items have in a field. -/
def textsOf (items : List JsValue) (field : String) : List JsString :=
  items.filterMap fun item => (item.get (js field)).isString

/-- `value[field]` is one of the given words. -/
def hasWord (value : JsValue) (field : String) (words : List String) : Bool :=
  value.hasText field fun text => (words.map js).contains text

/-- `Number.isInteger(value[field]) && value[field] >= minimum`. -/
def hasNatural (value : JsValue) (field : String) (minimum : ℕ) : Bool :=
  (value.get (js field)).isNatural.any (minimum ≤ ·)

/-! ### Reading what was written -/

theorem isOptional_all {α : Type*} {guard : JsValue → Option α} {valid : α → Bool}
    {value : JsValue} (hguard : ∀ a, guard value = some a → valid a = true) {field : Option α}
    (h : isOptional guard value = some field) : field.all valid = true := by
  unfold isOptional at h
  split at h
  · obtain rfl := Option.some.inj h
    rfl
  · obtain ⟨a, ha, rfl⟩ := Option.map_eq_some_iff.mp h
    simpa using hguard a ha

theorem lookup_map_js {α : Type*} (entries : List (String × α)) (key : String) :
    (entries.map fun entry => (js entry.1, entry.2)).lookup (js key) = entries.lookup key := by
  induction entries with
  | nil => rfl
  | cons entry rest ih =>
      rw [List.map_cons, List.lookup_cons, List.lookup_cons, ih]
      by_cases h : key = entry.1
      · subst h
        simp
      · have hjs : js key ≠ js entry.1 := fun heq => h (js_injective heq)
        rw [beq_false_of_ne h, beq_false_of_ne hjs]

theorem get_record (properties : List (String × JsValue)) (key : String) :
    (record properties).get (js key) = (properties.lookup key).getD undefined := by
  rw [record, get, lookup_map_js]

theorem hasOnlyKeys_record (properties : List (String × JsValue)) (allowed : List String) :
    (record properties).hasOnlyKeys allowed =
      properties.all fun property => allowed.contains property.1 := by
  simp only [record, hasOnlyKeys, keys, List.map_map, List.all_map]
  congr 1
  funext property
  rw [Bool.eq_iff_iff]
  simp [js_injective.eq_iff]

theorem isOneOf_text {α : Type*} (table : List (String × α)) (s : String) :
    (text s).isOneOf table = table.lookup s :=
  lookup_map_js table s

end JsValue

end Hepha
