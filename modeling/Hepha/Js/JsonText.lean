import Hepha.Js.Json

/-!
# The grammar of JSON texts

`IsJson part text` says that a text is derived from one of the parts of the grammar.  All
parts are one inductive predicate, so that facts about every JSON text are proved by one
induction with a case for each rule.
-/

namespace Hepha

open Pattern

/-- White space between the tokens. -/
def isJsonSpace (u : CodeUnit) : Bool :=
  u == 0x20 || u == 0x09 || u == 0x0A || u == 0x0D

def JsonSpace (text : JsString) : Prop :=
  ∀ u ∈ text, isJsonSpace u = true

/-- The units of a string between its quotation marks. -/
inductive StringUnits : JsString → Prop
  | nil : StringUnits []
  | unit {u : CodeUnit} {rest : JsString} (hquote : u ≠ 0x22) (hescape : u ≠ 0x5C)
      (hcontrol : ¬u < 0x20) (hrest : StringUnits rest) : StringUnits (u :: rest)
  | escape {u v : CodeUnit} {rest : JsString} (h : unescape v = some u)
      (hrest : StringUnits rest) : StringUnits (0x5C :: v :: rest)
  | hex {u a b c d : CodeUnit} {rest : JsString} (h : hexUnit a b c d = some u)
      (hrest : StringUnits rest) : StringUnits (0x5C :: 0x75 :: a :: b :: c :: d :: rest)

/-- A string with its quotation marks. -/
def JsonString (text : JsString) : Prop :=
  ∃ units, StringUnits units ∧ text = 0x22 :: (units ++ [0x22])

/-- One digit or more. -/
def Digits (text : JsString) : Prop :=
  text ≠ [] ∧ ∀ u ∈ text, isDigit u = true

/-- A sign, an integer without leading zeros, a fraction and an exponent. -/
def JsonNumber (text : JsString) : Prop :=
  ∃ sign integer fraction exponent : JsString, text = sign ++ integer ++ fraction ++ exponent ∧
    sign ∈ [[], js "-"] ∧
    (integer = js "0" ∨ Digits integer ∧ integer.head? ≠ some 0x30) ∧
    (fraction = [] ∨ ∃ digits, Digits digits ∧ fraction = 0x2E :: digits) ∧
    (exponent = [] ∨ ∃ e sign digits, e ∈ [js "e", js "E"] ∧ sign ∈ [[], js "+", js "-"] ∧
      Digits digits ∧ exponent = e ++ sign ++ digits)

/-- The parts of the grammar. -/
inductive JsonPart where
  /-- An object or an array. -/
  | container
  | value
  /-- A value between white space. -/
  | element
  | elements
  | member
  | members
  deriving DecidableEq, Repr

inductive IsJson : JsonPart → JsString → Prop
  | emptyArray {space} (h : JsonSpace space) : IsJson .container (0x5B :: (space ++ [0x5D]))
  | array {body} (h : IsJson .elements body) : IsJson .container (0x5B :: (body ++ [0x5D]))
  | emptyObject {space} (h : JsonSpace space) : IsJson .container (0x7B :: (space ++ [0x7D]))
  | object {body} (h : IsJson .members body) : IsJson .container (0x7B :: (body ++ [0x7D]))
  | word {text} (h : text ∈ [js "null", js "true", js "false"]) : IsJson .value text
  | number {text} (h : JsonNumber text) : IsJson .value text
  | string {text} (h : JsonString text) : IsJson .value text
  | nested {text} (h : IsJson .container text) : IsJson .value text
  | element {before text after} (hbefore : JsonSpace before) (h : IsJson .value text)
      (hafter : JsonSpace after) : IsJson .element (before ++ (text ++ after))
  | lastElement {text} (h : IsJson .element text) : IsJson .elements text
  | elements {text rest} (h : IsJson .element text) (hrest : IsJson .elements rest) :
      IsJson .elements (text ++ 0x2C :: rest)
  | member {before key after text} (hbefore : JsonSpace before) (hkey : JsonString key)
      (hafter : JsonSpace after) (h : IsJson .element text) :
      IsJson .member (before ++ (key ++ (after ++ 0x3A :: text)))
  | lastMember {text} (h : IsJson .member text) : IsJson .members text
  | members {text rest} (h : IsJson .member text) (hrest : IsJson .members rest) :
      IsJson .members (text ++ 0x2C :: rest)

end Hepha
