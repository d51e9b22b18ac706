import Hepha.Js.Pattern
import Mathlib.Logic.Relation

/-!
# Literal shell commands

Two commands that a receipt and a plan write differently are the same command when
they have the same literal tokens, words and operators.  Nothing is expanded: a
text with syntax that a shell would expand has no tokens.

A line continuation, a backslash before the end of a line, is not there for the
shell, which reads the text without it (`removeContinuations`).  The loop of
`literalCommandTokens` does not remove the continuations first: it skips them
between tokens and in words.
-/

namespace Hepha.Verification

open Pattern

/-! ## Words -/

/-- The quote that is open. -/
inductive Quote
  | bare
  | single
  | double
deriving DecidableEq

/-- The quote that is open after a unit that is not escaped. -/
def Quote.after (quote : Quote) (c : CodeUnit) : Quote :=
  match quote with
  | .bare => if c = 0x27 then .single else if c = 0x22 then .double else .bare
  | .single => if c = 0x27 then .bare else .single
  | .double => if c = 0x22 then .bare else .double

/-- `/[\r\n\0]/`. -/
def isLineEnd (c : CodeUnit) : Bool :=
  c == 0x0D || c == 0x0A || c == 0

/-- The loop of `literalWordAt`, with what is left of the text after the word. -/
def literalWordFrom : Quote → Bool → JsString → JsString → Option (JsString × JsString)
  | quote, present, value, [] => if quote ≠ .bare ∨ present = false then none else some (value, [])
  | quote, present, value, c :: rest =>
      if isLineEnd c then none
      else if quote = .single then
        if c = 0x27 then literalWordFrom .bare present value rest
        else literalWordFrom .single present (value ++ [c]) rest
      else if c = 0x5C && quote = .double && !rest.head?.any (anyOf "\n\"$`\\") then
        literalWordFrom .double present (value ++ [c]) rest
      else if c = 0x5C then
        match rest with
        | [] => none
        | next :: tail =>
            if next = 0x0A then literalWordFrom quote present value tail
            else if quote = .double then literalWordFrom .double present (value ++ [next]) tail
            else if isLineEnd next then none
            else literalWordFrom .bare true (value ++ [next]) tail
      else if quote = .double then
        if c = 0x22 then literalWordFrom .bare present value rest
        else if c = 0x24 || c = 0x60 then none
        else literalWordFrom .double present (value ++ [c]) rest
      else if c = 0x27 || c = 0x22 then literalWordFrom (quote.after c) true value rest
      else if anyOf "\t ;&|<>()" c then
        if present then some (value, c :: rest) else none
      else if anyOf "$`*?[]\x7b\x7d~#" c then none
      else literalWordFrom .bare true (value ++ [c]) rest

/-- `literalWordAt`, at the start of a text. -/
def literalWordAt (source : JsString) : Option (JsString × JsString) :=
  literalWordFrom .bare false [] source

/-! ## Tokens -/

inductive TokenKind
  | word
  | operator
deriving DecidableEq

/-- `LiteralShellToken`. -/
@[ext] structure LiteralShellToken where
  kind : TokenKind
  value : JsString
  assignment : Option Bool
deriving DecidableEq

/-- The redirections, in the order of the pattern. -/
def redirections : List JsString :=
  [js ">>", js ">|", js ">&", js "<&", js ">", js "<"]

/-- The other operators, in the order of the pattern. -/
def controlOperators : List JsString :=
  [js "&&", js "||", js "&>>", js "&>", js "|&", js ";;&", js ";;", js ";&", js "((", js "))",
    js ";", js "|", js "&", js "(", js ")"]

/-- `(?:>>|>\||>&|<&|>|<(?!<))`. -/
def redirectionAt (source : JsString) : Option JsString :=
  redirections.find? fun operator =>
    operator.isPrefixOf source && !(operator == js "<" && (js "<<").isPrefixOf source)

/-- The operator at the start of a text.  Its digits take all that there are: no
redirection begins with a digit. -/
def operatorAt (source : JsString) : Option JsString :=
  match redirectionAt (source.dropWhile isDigit) with
  | some operator => some (source.takeWhile isDigit ++ operator)
  | none => controlOperators.find? fun operator => operator.isPrefixOf source

/-- `/^(?:\d*[<>]|&>)/`. -/
def isRedirect (operator : JsString) : Bool :=
  (operator.dropWhile isDigit).head?.any (anyOf "<>") || (js "&>").isPrefixOf operator

/-- The words of the grammar. -/
def reservedWords : List JsString :=
  [js "if", js "then", js "else", js "elif", js "fi", js "do", js "done", js "case", js "esac",
    js "while", js "until", js "for", js "in", js "function", js "select", js "time", js "coproc",
    js "!"]

/-- `/^[A-Za-z_][A-Za-z_\d]*\+?=/`. -/
def isAssignment (text : JsString) : Bool :=
  let isName := fun u => isUpper u || isLower u || u == 0x5F
  !(concat [unit isName, many fun u => isName u || isDigit u, optional (lit "+"), lit "="]
    text).isEmpty

/-- The loop of `literalCommandTokens`: its flags, and what is left of the text. -/
structure Cursor where
  commandStart : Bool
  redirectTarget : Bool
  rest : JsString

/-- `source.slice(i, word.end)`. -/
def wordSlice (rest after : JsString) : JsString :=
  rest.take (rest.length - after.length)

/-- The loop after an operator. -/
def Cursor.afterOperator (s : Cursor) (value : JsString) : Cursor where
  commandStart := if isRedirect value then s.commandStart else value != js ")"
  redirectTarget := isRedirect value
  rest := s.rest.drop value.length

/-- `assignment`, of a word with this text. -/
def Cursor.assigns (s : Cursor) (text : JsString) : Bool :=
  s.commandStart && !s.redirectTarget && isAssignment text

/-- The loop after a word. -/
def Cursor.afterWord (s : Cursor) (assignment : Bool) (after : JsString) : Cursor where
  commandStart := if !s.redirectTarget && !assignment then false else s.commandStart
  redirectTarget := false
  rest := after

/-- The operators that have no tokens. -/
def unsupportedOperators : List JsString :=
  [js "((", js "))", js ";;", js ";&", js ";;&"]

/-- A pass of the loop that pushes a token: `none` if it returns `null`. -/
def Cursor.token (s : Cursor) : Option (LiteralShellToken × Cursor) :=
  match operatorAt s.rest with
  | some value =>
      if value ∈ unsupportedOperators then none
      else some (⟨.operator, value, none⟩, s.afterOperator value)
  | none =>
      (literalWordAt s.rest).bind fun (value, after) =>
        if value ∈ reservedWords then none
        else
          let assignment := s.assigns (wordSlice s.rest after)
          some (⟨.word, value, some assignment⟩, s.afterWord assignment after)

/-- What the loop skips: a blank, or a continuation. -/
def skipLength : JsString → ℕ
  | [] => 0
  | c :: rest =>
      if c == 0x09 || c == 0x20 then 1 else if c == 0x5C && rest.head? == some 0x0A then 2 else 0

/-- A pass of the loop, with the tokens it pushes. -/
def Cursor.next (s : Cursor) : Option (List LiteralShellToken × Cursor) :=
  if skipLength s.rest ≠ 0 then some ([], { s with rest := s.rest.drop (skipLength s.rest) })
  else s.token.map fun (token, t) => ([token], t)

/-- The loop of `literalCommandTokens`, in no more than so many passes. -/
def tokensFrom : ℕ → Cursor → Option (List LiteralShellToken)
  | 0, s => if s.rest = [] then some [] else none
  | passes + 1, s =>
      if s.rest = [] then some []
      else s.next.bind fun (pushed, t) => (tokensFrom passes t).map (pushed ++ ·)

/-- `literalCommandTokens`. -/
def literalCommandTokens (source : JsString) : Option (List LiteralShellToken) :=
  (tokensFrom source.length ⟨true, false, source⟩).filter fun tokens => 0 < tokens.length

/-- `sameLiteralTokens`. -/
def sameLiteralTokens (left right : List LiteralShellToken) : Bool :=
  left.length == right.length && (left.zip right).all fun (t, u) =>
    t.kind == u.kind && t.value == u.value && t.assignment == u.assignment

/-- `literalCommandsMatch`. -/
def literalCommandsMatch (left right : JsString) : Bool :=
  if left = right then true
  else
    match literalCommandTokens left, literalCommandTokens right with
    | some a, some b => sameLiteralTokens a b
    | _, _ => false

/-! ## Continuations -/

/-- The text that a shell reads: without each backslash before the end of a line that is
not escaped and not in single quotes. -/
def removeContinuations : Quote → JsString → JsString
  | _, [] => []
  | quote, c :: rest =>
      if c = 0x5C ∧ quote ≠ .single then
        match rest with
        | [] => [c]
        | next :: tail =>
            if next = 0x0A then removeContinuations quote tail
            else c :: next :: removeContinuations quote tail
      else c :: removeContinuations (quote.after c) rest

example : literalCommandTokens (js "A=1 a\\\nb 2>'c d'") =
    some [⟨.word, js "A=1", some true⟩, ⟨.word, js "ab", some false⟩, ⟨.operator, js "2>", none⟩,
      ⟨.word, js "c d", some false⟩] := by decide

end Hepha.Verification
