import Hepha.Js.Decimal
import Hepha.Js.Json

/-!
# Decoding the payload of a model's output

An output that is a JSON text is its own payload.  Otherwise the output is searched for
objects and arrays: from an opening delimiter on, the scanner keeps the open delimiters
on a stack and passes over strings, until the stack is empty again; then the piece is
parsed.  One piece is the payload; none, or more than one, is an error.

Between the pieces the scanner passes over inline code, unless its content looks like a
payload.  Blocks between three backticks or more are scanned like other text.
-/

namespace Hepha.Payload

open JsString Pattern

/-- `JSON.parse`, with the message of the error it throws. -/
abbrev Parser := JsString → Except JsString JsValue

def backtick : CodeUnit := 0x60

def isOpening (c : CodeUnit) : Bool :=
  c == 0x7B || c == 0x5B

def isClosing (c : CodeUnit) : Bool :=
  c == 0x7D || c == 0x5D

/-- The opening delimiter that a closing one ends. -/
def openingOf (c : CodeUnit) : CodeUnit :=
  if c = 0x7D then 0x7B else 0x5B

/-- The closing delimiter that is expected after an opening one, if there is one. -/
def closingOf (opening : Option CodeUnit) : JsString :=
  if opening = some 0x7B then js "\x7d" else js "]"

/-! ## Errors -/

/-- `fail`: the message of the error. -/
def fail (source : JsString) (code : String) (position : ℕ) (detail : JsString) : JsString :=
  let before := source.take position
  let line := before.count 0x0A + 1
  let lineStart := (before.reverse.dropWhile (· != 0x0A)).length
  let column := position + 1 - lineStart
  js code ++ js " at line " ++ decimalText line ++ js ", column " ++ decimalText column ++
    js ": " ++ detail

/-- `Number(message.match(/position (\d+)/)?.[1] ?? 0)`. -/
def positionIn (message : JsString) : ℕ :=
  (message.tails.findSome? fun s =>
    (lit "position " s).head?.bind fun rest =>
      let digits := rest.takeWhile isDigit
      if digits.isEmpty then none else some (decimal digits)).getD 0

/-- `guidance`. -/
def guidance (message : JsString) : JsString :=
  if test (litIgnoreCase "property name") message then
    js "Object keys must be double-quoted; check for an unquoted key or trailing comma."
  else if test (litIgnoreCase "expected ','") message then
    js "Check the missing comma or container terminator."
  else
    js ("Correct invalid JSON syntax at this location; nested fragments cannot substitute for " ++
      "the complete payload.")

/-! ## Inline code -/

/-- The number of backticks from an index on. -/
def runAt (source : JsString) (index : ℕ) : ℕ :=
  ((source.drop index).takeWhile (· == backtick)).length

/-- The loop of `inlineCodeEnd` over the content. -/
def inlineCodeFrom (source : JsString) (start width cursor : ℕ) : ℕ :=
  if cursor < source.length ∧ source[cursor]? ≠ some 0x0A then
    if source[cursor]? ≠ some backtick then inlineCodeFrom source start width (cursor + 1)
    else
      let stop := cursor + 1 + runAt source (cursor + 1)
      if stop - cursor = width then
        let content := trim ((source.take cursor).drop (start + width))
        if (js "\x7b").isPrefixOf content || (js "[").isPrefixOf content then start else stop - 1
      else inlineCodeFrom source start width stop
  else start
termination_by source.length - cursor

/-- `inlineCodeEnd`. -/
def inlineCodeEnd (source : JsString) (start : ℕ) : ℕ :=
  let width := 1 + runAt source (start + 1)
  if 3 ≤ width || (start ≠ 0 && source[start - 1]? == some backtick) then start
  else inlineCodeFrom source start width (start + width)

/-! ## The scanner -/

structure Scanner where
  /-- The open delimiters, the last one first. -/
  stack : List CodeUnit
  /-- Where the piece begins; nothing between the pieces, where the code has -1. -/
  start : Option ℕ
  quoted : Bool
  escaped : Bool
  candidates : List JsValue

def Scanner.initial : Scanner :=
  ⟨[], none, false, false, []⟩

/-- The end of a piece is reached: it is parsed and becomes a candidate. -/
def endPiece (parse : Parser) (source : JsString) (start i : ℕ) (s : Scanner) :
    Except JsString Scanner :=
  match parse ((source.take (i + 1)).drop start) with
  | .error message =>
      .error (fail source "JSON_SYNTAX" (start + positionIn message) (guidance message))
  | .ok value =>
      let candidates := s.candidates ++ [value]
      if 1 < candidates.length then
        .error (fail source "JSON_AMBIGUOUS" start (js ("Competing JSON payloads; return " ++
          "exactly one intended plan, not alternatives. Do not guess between different plans.")))
      else .ok { s with candidates := candidates, start := none }

/-- A closing delimiter in a piece. -/
def closeDelimiter (parse : Parser) (source : JsString) (start i : ℕ) (c : CodeUnit)
    (s : Scanner) : Except JsString Scanner :=
  let opening := s.stack.head?
  let s := { s with stack := s.stack.tail }
  if opening ≠ some (openingOf c) then
    .error (fail source "JSON_DELIMITER" i (js "Mismatched delimiter; expected " ++
      closingOf opening ++ js ", not " ++ [c] ++
      js ". Correct the container without changing its fields."))
  else if s.stack.isEmpty then endPiece parse source start i s
  else .ok s

/-- A unit in a piece. -/
def scanInside (parse : Parser) (source : JsString) (start i : ℕ) (c : CodeUnit) (s : Scanner) :
    Except JsString Scanner :=
  if s.quoted then
    if s.escaped then .ok { s with escaped := false }
    else if c = 0x5C then .ok { s with escaped := true }
    else if c = 0x22 then .ok { s with quoted := false }
    else .ok s
  else if c = 0x22 then .ok { s with quoted := true }
  else if isOpening c then .ok { s with stack := c :: s.stack }
  else if isClosing c then closeDelimiter parse source start i c s
  else .ok s

/-- One turn of the loop, and how many units after this one it passes over. -/
def scanUnit (parse : Parser) (source : JsString) (i : ℕ) (c : CodeUnit) (s : Scanner) :
    Except JsString (ℕ × Scanner) :=
  match s.start with
  | some start => (scanInside parse source start i c s).map (0, ·)
  | none =>
      let inlineEnd := if c = backtick then inlineCodeEnd source i else i
      if i < inlineEnd then .ok (inlineEnd - i, s)
      else if isClosing c then
        .error (fail source "JSON_DELIMITER" i (js "Unexpected closing " ++ [c] ++
          js "; remove the extra delimiter from the complete payload."))
      else if !isOpening c then .ok (0, s)
      else (scanInside parse source i i c { s with start := some i }).map (0, ·)

/-- The loop from an index on. -/
def scan (parse : Parser) (source : JsString) (i : ℕ) (s : Scanner) : Except JsString Scanner :=
  if h : i < source.length then
    match scanUnit parse source i source[i] s with
    | .error message => .error message
    | .ok (passed, s) => scan parse source (i + 1 + passed) s
  else .ok s
termination_by source.length - i

/-- `modelJsonPayload`. -/
def modelJsonPayload (parse : Parser) (output : JsString) : Except JsString JsValue :=
  match parse output with
  | .ok value => .ok value
  | .error _ =>
      match scan parse output 0 .initial with
      | .error message => .error message
      | .ok s =>
          if s.start.isSome then
            .error (fail output "JSON_INCOMPLETE" output.length (js "Incomplete JSON; expected " ++
              (if s.quoted then js "a closing double quote" else closingOf s.stack.head?) ++
              js ". Restore the full response; do not discard unfinished fields."))
          else
            match s.candidates with
            | [value] => .ok value
            | _ =>
                .error (fail output "JSON_MISSING" 0 (js ("No JSON object or array found. " ++
                  "Return the completed template using inspected configuration.")))

end Hepha.Payload
