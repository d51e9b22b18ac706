import Hepha.Js.Coercion
import Hepha.Js.JsonText
import Hepha.Workflow.Spec

/-!
# Two layouts of one workflow

A workflow may stand in the legacy layout, in the layout under `.hepha`, or in both.
Where it stands in both, the code compares the two documents and goes on with the legacy
one if they agree.  The comparison has a list of fields of its own, by the text that
`JSON.stringify` gives for them; normalization reads more fields than those.

## Strategy

* **The compared fields.**  Equal texts of JSON are equal as far as normalization reads
  them: a text of a string determines the string, and a text of an array of strings
  determines the strings.
* **The other fields.**  `uncompared` is what normalization reads of a node beside the
  compared fields.  The kind of a node and its agent's action follow from the compared
  fields and from whether there is a loop.
* Two nodes whose compared fields have the same texts are therefore normalized to one node
  exactly when `uncompared` does not tell them apart, and the specifications follow node by
  node.
-/

namespace Hepha.Workflow

open JsValue

/-! ## The choice of a layout -/

structure WorkflowCandidate where
  root : JsString
  path : JsString
  deriving DecidableEq, Repr

/-- `KNOWN_WORKFLOW_ROOTS`. -/
def legacyRoot : JsString := js ".workflows"

def targetRoot : JsString := js ".hepha/workflows"

/-- `workflowFileByCommand`. -/
def FeatureWorkflowCommand.file (command : FeatureWorkflowCommand) : JsString :=
  command.name ++ js ".workflow.yaml"

def resolveWorkflowCandidatePaths (host : WorkflowHost) (workspaceRoot : JsString)
    (command : FeatureWorkflowCommand) : List WorkflowCandidate :=
  [legacyRoot, targetRoot].map fun root =>
    { root, path := host.resolvePath [workspaceRoot, root, command.file] }

def topFieldsToCompare : List String := ["name", "description", "command"]

def nodeFieldsToCompare : List String :=
  ["id", "kind", "dependsOn", "depends_on", "status", "summary", "action", "agent_action",
    "prompt", "skill"]

/-- One field of the two documents: both are missing, or `left === right`. -/
def topFieldMatches (left right : JsValue) (field : String) : Bool :=
  (left.get (js field)).identical (right.get (js field))

variable (platform : Platform)

/-- One field of two nodes: `JSON.stringify(left) === JSON.stringify(right)`. -/
def nodeFieldMatches (left right : JsValue) (field : String) : Bool :=
  stringify platform (left.get (js field)) == stringify platform (right.get (js field))

/-- The loop of `resolveWorkflowSpecsMatch` over the nodes. -/
def nodesMatch : List JsValue → List JsValue → Except WorkflowError Bool
  | left :: leftRest, right :: rightRest =>
      if isNullish left || isNullish right then .error .typeError
      else if nodeFieldsToCompare.all (nodeFieldMatches platform left right) then
        nodesMatch leftRest rightRest
      else .ok false
  | _, _ => .ok true

/-- `Array.isArray(document.nodes) ? document.nodes : []`. -/
def rawNodes (document : JsValue) : List JsValue :=
  (document.get (js "nodes")).isArray.getD []

def resolveWorkflowSpecsMatch (left right : JsValue) : Except WorkflowError Bool :=
  if !topFieldsToCompare.all (topFieldMatches left right) then .ok false
  else if (left.get (js "command")).isFalsy && (right.get (js "command")).isFalsy &&
      !topFieldMatches left right "name" then .ok false
  else if (rawNodes left).length != (rawNodes right).length then .ok false
  else nodesMatch platform (rawNodes left) (rawNodes right)

def resolveWorkflowSourcePath (existsFile : JsString → Bool)
    (candidates : List WorkflowCandidate) (command : FeatureWorkflowCommand)
    (normalizeFn : JsString → Except WorkflowError JsValue) : Except WorkflowError JsString :=
  match candidates.filter fun candidate => existsFile candidate.path with
  | [] => .error (.workflowMissing (js "Missing workflow definition for " ++ command.name ++
      js ": checked " ++ (js ", ").intercalate (candidates.map (·.path))) command.name
      (candidates.map (·.path)))
  | [candidate] => .ok candidate.path
  | existing =>
      match existing.find? (·.root == legacyRoot), existing.find? (·.root == targetRoot) with
      | some legacy, some target => do
          let left ← normalizeFn legacy.path
          let right ← normalizeFn target.path
          let equivalent ← resolveWorkflowSpecsMatch platform left right
          if equivalent then .ok legacy.path
          else .error (.workflowConflict (js "Conflicting workflow definition for " ++
            command.name ++ js ": definitions at \"" ++ legacy.path ++ js "\" and \"" ++
            target.path ++ js "\" diverge. " ++ js "Resolution: keep one consistent definition " ++
            js "or migrate without divergence.") command.name legacy.path target.path)
      | _, _ => .error .typeError

/-- The text of a file as a portable YAML document. -/
def readWorkflowDocument (host : WorkflowHost) (path : JsString) :
    Except WorkflowError JsValue := do
  let source ← host.readFile path
  let parsed ← host.parseYaml source
  match host.portabilityError source with
  | some code => fail [code, js ": Managed workflow assets must be model-neutral."]
  | none => return parsed

/-- The function that `loadHephaFeatureWorkflowSpec` passes on. -/
def normalizeDocument (host : WorkflowHost) (path : JsString) : Except WorkflowError JsValue := do
  let raw ← readWorkflowDocument host path
  return if raw.isRecord then raw else .obj []

def loadHephaFeatureWorkflowSpec (host : WorkflowHost) (workspaceRoot : JsString)
    (command : FeatureWorkflowCommand) : Except WorkflowError HephaFeatureWorkflowSpec := do
  let path ← resolveWorkflowSourcePath platform host.existsFile
    (resolveWorkflowCandidatePaths host workspaceRoot command) command (normalizeDocument host)
  let parsed ← readWorkflowDocument host path
  normalizeHephaFeatureWorkflowSpec host parsed path command

/-! ## What is not compared -/

/-- What a loop says, as normalization reads it. -/
structure LoopReading where
  untilCondition : Option JsString
  freshContext : Option Bool
  transitions : Option (List (List (Option JsString)))
  workflow : Option JsString
  deriving DecidableEq, Repr

def readTransition (transition : JsValue) : List (Option JsString) :=
  ["from", "summary", "to", "when"].map (readOptionalString transition)

def readLoop (loop : JsValue) : Option LoopReading :=
  if isNullish loop then none
  else some
    { untilCondition := readOptionalString loop "until"
      freshContext := (readOptionalBoolean loop "fresh_context").or
        (readOptionalBoolean loop "freshContext")
      transitions := (loop.get (js "transitions")).isArray.map (·.map readTransition)
      workflow := readOptionalString loop "workflow" }

/-- What is read of a node in the fields that the comparison leaves out. -/
def uncompared (node : JsValue) : List (Option JsString) × Option LoopReading :=
  (["agent", "command", "context"].map (readOptionalString node) ++
    [readEither node "output_schema" "outputSchema", readEither node "tool_profile" "toolProfile"],
    readLoop (node.get (js "loop")))

/-! ## Texts of JSON -/

section Texts

variable {platform : Platform} (hnumber : ∀ n : JsNumber, n.isFinite = true →
  JsonNumber (platform.numberText n))

/-- A number begins with a sign or a digit. -/
theorem head_of_jsonNumber {text : JsString} (h : JsonNumber text) :
    ∃ u rest, text = u :: rest ∧ (u = 0x2D ∨ Pattern.isDigit u = true) := by
  obtain ⟨sign, integer, fraction, exponent, rfl, hsign, hinteger, -⟩ := h
  have hlead : ∃ u rest, integer = u :: rest ∧ Pattern.isDigit u = true := by
    rcases hinteger with rfl | ⟨⟨hne, hdigits⟩, -⟩
    · exact ⟨0x30, [], by decide, by decide⟩
    · cases integer with
      | nil => exact absurd rfl hne
      | cons u rest => exact ⟨u, rest, rfl, hdigits u List.mem_cons_self⟩
  obtain ⟨u, rest, rfl, hu⟩ := hlead
  rcases List.mem_pair.mp hsign with rfl | rfl
  · exact ⟨u, rest ++ fraction ++ exponent, rfl, .inr hu⟩
  · exact ⟨0x2D, u :: (rest ++ fraction ++ exponent), rfl, .inl rfl⟩

/-- The text of an array of strings. -/
theorem stringifyItems_strings (texts : List JsString) :
    stringifyItems platform (texts.map .str) = texts.map quote := by
  induction texts with
  | nil => rfl
  | cons text rest ih => rw [List.map_cons, stringifyItems, ih]; rfl

theorem stringify_arr (items : List JsValue) : stringify platform (.arr items) =
    some (0x5B :: ([0x2C].intercalate (stringifyItems platform items) ++ [0x5D])) := by
  rw [stringify, show js "[" = [0x5B] by decide, show js "]" = [0x5D] by decide]
  rfl

/-- The texts between the brackets determine the strings of an array. -/
theorem strings_injective {texts texts' : List JsString}
    (h : [0x2C].intercalate (texts.map quote) ++ [0x5D] =
      [0x2C].intercalate (texts'.map quote) ++ [0x5D]) : texts = texts' := by
  have hcut (text : JsString) (rest : List JsString) :
      [0x2C].intercalate ((text :: rest).map quote) ++ [0x5D] = quote text ++
        (if rest = [] then [0x5D]
          else 0x2C :: ([0x2C].intercalate (rest.map quote) ++ [0x5D])) := by
    cases rest with
    | nil => simp [List.intercalate]
    | cons next rest => simp [List.intercalate]
  have hempty (text : JsString) (rest : List JsString) :
      [0x2C].intercalate ((text :: rest).map quote) ++ [0x5D] ≠ [0x5D] := by
    rw [hcut, quote_append]
    intro heq
    exact absurd (List.cons.inj heq).1 (by decide)
  induction texts generalizing texts' with
  | nil =>
      cases texts' with
      | nil => rfl
      | cons text' rest' => exact absurd h.symm (hempty text' rest')
  | cons text rest ih =>
      cases texts' with
      | nil => exact absurd h (hempty text rest)
      | cons text' rest' =>
          rw [hcut, hcut] at h
          obtain ⟨rfl, hend⟩ := quote_append_injective h
          -- The unit after the first string tells whether another one follows.
          split_ifs at hend with hnil hnil' hnil'
          · rw [hnil, hnil']
          · exact absurd (List.cons.inj hend).1 (by decide)
          · exact absurd (List.cons.inj hend).1 (by decide)
          · rw [ih (List.cons.inj hend).2]

/-- Items that are all texts come from strings. -/
theorem strings_of_mapM {values : List JsValue} {items : List JsString}
    (h : values.mapM nonBlank = some items) :
    ∃ texts : List JsString, values = texts.map .str := by
  induction values generalizing items with
  | nil => exact ⟨[], rfl⟩
  | cons value rest ih =>
      obtain ⟨item, others, hitem, hothers, rfl⟩ := mapM_cons_eq_some.1 h
      obtain ⟨texts, rfl⟩ := ih hothers
      cases value with
      | str text => exact ⟨text :: texts, rfl⟩
      | _ => cases hitem

/-- A list of dependencies that is read is missing or is an array of strings. -/
theorem readStringList_cases {value : JsValue} {path id : JsString} {items : List JsString}
    (h : readStringList value path id = .ok items) :
    isNullish value = true ∧ items = [] ∨
      ∃ texts : List JsString, value = .arr (texts.map .str) ∧
        (texts.map JsValue.str).mapM nonBlank = some items := by
  unfold readStringList at h
  split at h
  · rename_i hnullish
    exact .inl ⟨hnullish, (Except.ok.inj h).symm⟩
  · refine .inr ?_
    cases value with
    | arr values =>
        simp only [isArrayOf, isArray, Option.bind_some] at h
        split at h
        · rename_i read hread
          obtain rfl := Except.ok.inj h
          obtain ⟨texts, rfl⟩ := strings_of_mapM hread
          exact ⟨texts, rfl, hread⟩
        · cases h
    | _ => cases h

/-- A value without an array has no text that an array has. -/
theorem ne_arr_of_isNullish {value : JsValue} (h : isNullish value = true)
    (items : List JsValue) : stringify platform value ≠ stringify platform (.arr items) := by
  rw [stringify_arr]
  cases value with
  | undefined => simp [stringify]
  | null => simp [stringify, show js "null" = [0x6E, 0x75, 0x6C, 0x6C] by decide]
  | _ => cases h

/-- Equal texts of JSON are of equal lists of dependencies. -/
theorem readStringList_eq {left right : JsValue} {path path' id id' : JsString}
    {items items' : List JsString} (h : stringify platform left = stringify platform right)
    (hleft : readStringList left path id = .ok items)
    (hright : readStringList right path' id' = .ok items') :
    isNullish left = isNullish right ∧ items = items' := by
  obtain ⟨hnull, rfl⟩ | ⟨texts, rfl, hread⟩ := readStringList_cases hleft
  · obtain ⟨hnull', rfl⟩ | ⟨texts', rfl, hread'⟩ := readStringList_cases hright
    · exact ⟨hnull.trans hnull'.symm, rfl⟩
    · exact absurd h (ne_arr_of_isNullish hnull _)
  · obtain ⟨hnull', rfl⟩ | ⟨texts', rfl, hread'⟩ := readStringList_cases hright
    · exact absurd h.symm (ne_arr_of_isNullish hnull' _)
    · rw [stringify_arr, stringify_arr, stringifyItems_strings, stringifyItems_strings,
        Option.some.injEq, List.cons.injEq] at h
      obtain rfl := strings_injective h.2
      exact ⟨rfl, Option.some.inj (hread.symm.trans hread')⟩

/-- The same of a list that stands in one of two fields. -/
theorem readStringList_orElse_eq {left left' right right' : JsValue} {path path' id id' : JsString}
    {items items' : List JsString} (h : stringify platform left = stringify platform right)
    (h' : stringify platform left' = stringify platform right')
    (hleft : readStringList (left.orElse left') path id = .ok items)
    (hright : readStringList (right.orElse right') path' id' = .ok items') : items = items' := by
  have hor (a b : JsValue) : a.orElse b = if isNullish a then b else a := by
    cases a <;> rfl
  rw [hor] at hleft hright
  split_ifs at hleft hright with hnull hnull' hnull'
  · exact (readStringList_eq h' hleft hright).2
  · obtain ⟨hnull'', -⟩ | ⟨texts, rfl, -⟩ := readStringList_cases hright
    · exact absurd hnull'' hnull'
    · exact absurd h (ne_arr_of_isNullish hnull _)
  · obtain ⟨hnull'', -⟩ | ⟨texts, rfl, -⟩ := readStringList_cases hleft
    · exact absurd hnull'' hnull
    · exact absurd h.symm (ne_arr_of_isNullish hnull' _)
  · exact (readStringList_eq h hleft hright).2

include hnumber

/-- What the first unit of a text says about the value. -/
theorem lead_of_stringify {value : JsValue} {u : CodeUnit} {text : JsString}
    (h : stringify platform value = some (u :: text)) :
    (∃ s, value = .str s) ∨ (∃ items, value = .arr items) ∨ u ≠ 0x22 ∧ u ≠ 0x5B := by
  have hlead (word : String) (lead : CodeUnit) (rest : JsString) (hword : js word = lead :: rest)
      (heq : js word = u :: text) (hne : lead ≠ 0x22 ∧ lead ≠ 0x5B) : u ≠ 0x22 ∧ u ≠ 0x5B := by
    obtain rfl := (List.cons.inj (hword.symm.trans heq)).1
    exact hne
  have hnull := hlead "null" 0x6E [0x75, 0x6C, 0x6C] (by decide)
  cases value with
  | undefined => cases h
  | null => exact .inr (.inr (hnull (Option.some.inj h) (by decide)))
  | bool b =>
      rw [stringify, Option.some.injEq] at h
      cases b with
      | true =>
          exact .inr (.inr (hlead "true" 0x74 [0x72, 0x75, 0x65] (by decide) h (by decide)))
      | false =>
          exact .inr (.inr (hlead "false" 0x66 [0x61, 0x6C, 0x73, 0x65] (by decide) h (by decide)))
  | num n =>
      rw [stringify, Option.some.injEq] at h
      split at h
      · rename_i hfinite
        obtain ⟨v, rest, hv, hdigit⟩ := head_of_jsonNumber (hnumber n hfinite)
        obtain rfl := (List.cons.inj (hv.symm.trans h)).1
        refine .inr (.inr ⟨?_, ?_⟩) <;>
        · rintro rfl
          exact absurd hdigit (by decide)
      · exact .inr (.inr (hnull h (by decide)))
  | str s => exact .inl ⟨s, rfl⟩
  | arr items => exact .inr (.inl ⟨items, rfl⟩)
  | obj properties =>
      rw [stringify, Option.some.injEq, show js "\x7b" = [0x7B] by decide] at h
      obtain rfl := (List.cons.inj h).1
      exact .inr (.inr (by decide))

/-- Equal texts of JSON are of equal strings. -/
theorem isString_eq {left right : JsValue}
    (h : stringify platform left = stringify platform right) : left.isString = right.isString := by
  have hstr (value : JsValue) (s : JsString) (heq : stringify platform value = some (quote s)) :
      value = .str s := by
    have hlead : stringify platform value = some (0x22 :: (quoteUnits s ++ [0x22])) := by
      rw [heq, ← List.append_nil (quote s), quote_append]
    obtain ⟨t, rfl⟩ | ⟨items, rfl⟩ | hne := lead_of_stringify hnumber hlead
    · have hquote : quote t ++ [] = quote s ++ [] := by simpa [stringify] using heq
      rw [(quote_append_injective hquote).1]
    · rw [stringify_arr, ← List.append_nil (quote s), quote_append] at heq
      exact absurd (List.cons.inj (Option.some.inj heq)).1 (by decide)
    · exact absurd rfl hne.1
  cases left with
  | str s => rw [hstr right s h.symm]
  | _ =>
      cases right with
      | str t => cases hstr _ t h
      | _ => rfl

end Texts

/-! ## What normalization reads -/

theorem ok_of_bind {α β : Type} {x : Except WorkflowError α} {f : α → Except WorkflowError β}
    {b : β} (h : x >>= f = .ok b) : ∃ a, x = .ok a ∧ f a = .ok b := by
  cases x with
  | error e => cases h
  | ok a => exact ⟨a, rfl, h⟩

theorem readRequiredString_ok {value : JsValue} {field : String} {path text : JsString}
    (h : readRequiredString value field path = .ok text) :
    readOptionalString value field = some text := by
  unfold readRequiredString at h
  split at h
  · rename_i result hresult
    rw [hresult, Except.ok.inj h]
  · cases h

def HephaWorkflowTransitionSpec.reading (transition : HephaWorkflowTransitionSpec) :
    List (Option JsString) :=
  [some transition.source, transition.summary, some transition.target, some transition.condition]

def HephaWorkflowLoopSpec.reading (loop : HephaWorkflowLoopSpec) : LoopReading :=
  { untilCondition := some loop.untilCondition, freshContext := loop.freshContext
    transitions := loop.transitions.map (·.map (·.reading)), workflow := loop.workflow }

theorem transition_reading_injective :
    Function.Injective HephaWorkflowTransitionSpec.reading := by
  intro left right h
  cases left
  cases right
  simp only [HephaWorkflowTransitionSpec.reading, List.cons.injEq, Option.some.injEq,
    and_true] at h
  obtain ⟨rfl, rfl, rfl, rfl⟩ := h
  rfl

theorem loop_reading_injective : Function.Injective HephaWorkflowLoopSpec.reading := by
  intro left right h
  cases left
  cases right
  simp only [HephaWorkflowLoopSpec.reading, LoopReading.mk.injEq, Option.some.injEq] at h
  obtain ⟨rfl, rfl, htransitions, rfl⟩ := h
  rw [Option.map_injective transition_reading_injective.list_map htransitions]

theorem normalizeTransition_reading {path nodeId : JsString} {number : ℕ} {value : JsValue}
    {transition : HephaWorkflowTransitionSpec}
    (h : normalizeTransition path nodeId number value = .ok transition) :
    readTransition value = transition.reading := by
  unfold normalizeTransition at h
  split at h
  · cases h
  · obtain ⟨source, hsource, h⟩ := ok_of_bind h
    obtain ⟨target, htarget, h⟩ := ok_of_bind h
    obtain ⟨condition, hcondition, h⟩ := ok_of_bind h
    obtain rfl := Except.ok.inj h
    simp only [readTransition, HephaWorkflowTransitionSpec.reading, List.map_cons, List.map_nil,
      readRequiredString_ok hsource, readRequiredString_ok htarget,
      readRequiredString_ok hcondition]

theorem transitionsFrom_reading {path nodeId : JsString} {number : ℕ} {values : List JsValue}
    {transitions : List HephaWorkflowTransitionSpec}
    (h : transitionsFrom path nodeId number values = .ok transitions) :
    values.map readTransition = transitions.map (·.reading) := by
  induction values generalizing number transitions with
  | nil => rw [← Except.ok.inj h]; rfl
  | cons value rest ih =>
      obtain ⟨first, hfirst, h⟩ := ok_of_bind h
      obtain ⟨others, hothers, h⟩ := ok_of_bind h
      obtain rfl := Except.ok.inj h
      rw [List.map_cons, List.map_cons, normalizeTransition_reading hfirst, ih hothers]

theorem normalizeWorkflowTransitions_reading {value : JsValue} {path nodeId : JsString}
    {transitions : Option (List HephaWorkflowTransitionSpec)}
    (h : normalizeWorkflowTransitions value path nodeId = .ok transitions) :
    value.isArray.map (·.map readTransition) = transitions.map (·.map (·.reading)) := by
  unfold normalizeWorkflowTransitions at h
  split at h
  · rename_i hnullish
    rw [← Except.ok.inj h]
    cases value <;> first | rfl | cases hnullish
  · split at h
    · rename_i items hitems
      obtain ⟨read, hread, h⟩ := ok_of_bind h
      obtain rfl := Except.ok.inj h
      rw [hitems, Option.map_some, Option.map_some, transitionsFrom_reading hread]
    · cases h

theorem normalizeWorkflowLoop_reading {value : JsValue} {path nodeId : JsString}
    {loop : Option HephaWorkflowLoopSpec}
    (h : normalizeWorkflowLoop value path nodeId = .ok loop) :
    readLoop value = loop.map (·.reading) := by
  unfold normalizeWorkflowLoop at h
  unfold readLoop
  split at h
  · rename_i hnullish
    rw [if_pos hnullish, ← Except.ok.inj h]
    rfl
  · rename_i hnullish
    split at h
    · cases h
    · obtain ⟨condition, hcondition, h⟩ := ok_of_bind h
      obtain ⟨transitions, htransitions, h⟩ := ok_of_bind h
      obtain rfl := Except.ok.inj h
      simp only [if_neg hnullish, HephaWorkflowLoopSpec.reading, Option.map_some,
        readRequiredString_ok hcondition, normalizeWorkflowTransitions_reading htransitions]

theorem NodeRole.ext {left right : NodeRole} (hkind : left.kind = right.kind)
    (haction : left.agentAction = right.agentAction) : left = right := by
  cases left <;> cases right <;> simp_all [NodeRole.kind, NodeRole.agentAction]

theorem withoutAction_ok {node : JsValue} {role role' : NodeRole}
    (h : withoutAction node role = .ok role') : role' = role := by
  unfold withoutAction at h
  split at h
  · cases h
  · exact (Except.ok.inj h).symm

/-- The role of a node is its kind and, for a prompt, the action that it names. -/
theorem parseWorkflowAgentAction_ok {node : JsValue} {kind : HephaWorkflowNodeKind}
    {role : NodeRole} (h : parseWorkflowAgentAction node kind = .ok role) :
    role.kind = kind ∧ role.agentAction =
      if kind = .prompt then (node.get (js "agent_action")).isString else none := by
  unfold parseWorkflowAgentAction at h
  split at h
  · cases h
  · cases kind with
    | action => rw [withoutAction_ok h]; exact ⟨rfl, rfl⟩
    | loop => rw [withoutAction_ok h]; exact ⟨rfl, rfl⟩
    | gate => rw [withoutAction_ok h]; exact ⟨rfl, rfl⟩
    | prompt =>
        obtain ⟨action, haction, h⟩ := ok_of_bind h
        obtain rfl := Except.ok.inj h
        refine ⟨rfl, ?_⟩
        unfold parsePromptAction at haction
        split at haction
        · cases haction
        · split at haction
          · cases haction
          · rename_i named hnamed
            split at haction
            · obtain rfl := Except.ok.inj haction
              rw [if_pos rfl, (Option.filter_eq_some_iff.mp hnamed).1]
              rfl
            · cases haction

/-- The kind depends on the explicit kind and on which hints there are. -/
theorem readWorkflowNodeKind_eq {left right : JsValue} {path path' id id' : JsString}
    {action prompt : Option JsString} {loop : Option HephaWorkflowLoopSpec}
    {kind kind' : HephaWorkflowNodeKind}
    (hexplicit : readOptionalString left "kind" = readOptionalString right "kind")
    (hleft : readWorkflowNodeKind left path id action loop prompt = .ok kind)
    (hright : readWorkflowNodeKind right path' id' action loop prompt = .ok kind') :
    kind = kind' := by
  unfold readWorkflowNodeKind at hleft hright
  rw [← hexplicit] at hright
  cases hkind : readOptionalString left "kind" with
  | none =>
      rw [hkind] at hleft hright
      exact Except.ok.inj (hleft.symm.trans hright)
  | some explicitKind =>
      simp only [hkind] at hleft hright
      split_ifs at hleft hright
      all_goals first
        | exact Except.ok.inj (hleft.symm.trans hright)
        | cases hleft

/-- What a node has from the fields that are not compared. -/
def HephaFeatureWorkflowNode.uncompared (node : HephaFeatureWorkflowNode) :
    List (Option JsString) × Option LoopReading :=
  ([node.agent, node.command, node.context, node.outputSchema, node.toolProfile],
    node.loop.map (·.reading))

/-- What a node has from the document that it was read from. -/
structure NodeOf (host : WorkflowHost) (path : JsString) (value : JsValue)
    (node : HephaFeatureWorkflowNode) : Prop where
  id : readOptionalString value "id" = some node.id
  prompt : readOptionalString value "prompt" = node.prompt
  action : readOptionalString value "action" = node.action
  skill : readOptionalString value "skill" = node.skill
  summary : readOptionalString value "summary" = node.summary
  status : (readOptionalString value "status").getD (titleizeNodeId host.casing node.id) =
    node.status
  dependsOn : readStringList ((value.get (js "depends_on")).orElse (value.get (js "dependsOn")))
    path node.id = .ok node.dependsOn
  kind : readWorkflowNodeKind value path node.id node.action node.loop node.prompt =
    .ok node.role.kind
  agentAction : node.role.agentAction =
    if node.role.kind = .prompt then (value.get (js "agent_action")).isString else none
  uncompared : Workflow.uncompared value = node.uncompared

theorem normalizeHephaWorkflowNode_ok {host : WorkflowHost} {path : JsString} {number : ℕ}
    {value : JsValue} {node : HephaFeatureWorkflowNode}
    (h : normalizeHephaWorkflowNode host path number value = .ok node) :
    NodeOf host path value node := by
  unfold normalizeHephaWorkflowNode at h
  split at h
  · cases h
  · obtain ⟨id, hid, h⟩ := ok_of_bind h
    obtain ⟨loop, hloop, h⟩ := ok_of_bind h
    obtain ⟨kind, hkind, h⟩ := ok_of_bind h
    obtain ⟨role, hrole, h⟩ := ok_of_bind h
    obtain ⟨rfl, haction⟩ := parseWorkflowAgentAction_ok hrole
    split at h
    · cases h
    · obtain ⟨dependsOn, hdependsOn, h⟩ := ok_of_bind h
      obtain rfl := Except.ok.inj h
      exact ⟨readRequiredString_ok hid, rfl, rfl, rfl, rfl, rfl, hdependsOn, hkind, haction,
        congrArg (Prod.mk _) (normalizeWorkflowLoop_reading hloop)⟩

/-! ## Equivalent documents -/

section Equivalent

variable {platform : Platform} {host : WorkflowHost} {path path' : JsString}

/-- **Two nodes that the comparison accepts are normalized to one node if and only if the
other fields read the same.** -/
theorem node_eq_iff (hnumber : ∀ n : JsNumber, n.isFinite = true →
      JsonNumber (platform.numberText n)) {left right : JsValue}
    {node node' : HephaFeatureWorkflowNode}
    (hmatch : nodeFieldsToCompare.all (nodeFieldMatches platform left right) = true)
    (hleft : NodeOf host path left node) (hright : NodeOf host path' right node') :
    node = node' ↔ uncompared left = uncompared right := by
  have htext (field : String) (hfield : field ∈ nodeFieldsToCompare) :
      stringify platform (left.get (js field)) = stringify platform (right.get (js field)) :=
    beq_iff_eq.mp (List.all_eq_true.mp hmatch field hfield)
  have hread (field : String) (hfield : field ∈ nodeFieldsToCompare) :
      readOptionalString left field = readOptionalString right field := by
    rw [readOptionalString, readOptionalString, nonBlank, nonBlank,
      isString_eq hnumber (htext field hfield)]
  constructor
  · rintro rfl
    rw [hleft.uncompared, hright.uncompared]
  · intro hother
    rw [hleft.uncompared, hright.uncompared] at hother
    simp only [HephaFeatureWorkflowNode.uncompared, Prod.mk.injEq, List.cons.injEq,
      and_true] at hother
    obtain ⟨⟨hagent, hcommand, hcontext, houtput, htool⟩, hloop⟩ := hother
    replace hloop := Option.map_injective loop_reading_injective hloop
    have hid : node.id = node'.id := Option.some.inj
      (hleft.id.symm.trans ((hread "id" (by decide)).trans hright.id))
    have hprompt : node.prompt = node'.prompt :=
      hleft.prompt.symm.trans ((hread "prompt" (by decide)).trans hright.prompt)
    have haction : node.action = node'.action :=
      hleft.action.symm.trans ((hread "action" (by decide)).trans hright.action)
    have hskill : node.skill = node'.skill :=
      hleft.skill.symm.trans ((hread "skill" (by decide)).trans hright.skill)
    have hsummary : node.summary = node'.summary :=
      hleft.summary.symm.trans ((hread "summary" (by decide)).trans hright.summary)
    have hstatus : node.status = node'.status := by
      rw [← hleft.status, ← hright.status, hread "status" (by decide), hid]
    have hdependsOn : node.dependsOn = node'.dependsOn :=
      readStringList_orElse_eq (htext "depends_on" (by decide)) (htext "dependsOn" (by decide))
        hleft.dependsOn hright.dependsOn
    have hkind : node.role.kind = node'.role.kind := by
      have hright := hright.kind
      rw [← haction, ← hloop, ← hprompt] at hright
      exact readWorkflowNodeKind_eq (hread "kind" (by decide)) hleft.kind hright
    have hrole : node.role = node'.role := by
      refine NodeRole.ext hkind ?_
      rw [hleft.agentAction, hright.agentAction, hkind,
        isString_eq hnumber (htext "agent_action" (by decide))]
    cases node
    cases node'
    subst_vars
    rfl

theorem nodesMatch_cons {left right : JsValue} {leftRest rightRest : List JsValue}
    (h : nodesMatch platform (left :: leftRest) (right :: rightRest) = .ok true) :
    nodeFieldsToCompare.all (nodeFieldMatches platform left right) = true ∧
      nodesMatch platform leftRest rightRest = .ok true := by
  rw [nodesMatch] at h
  split_ifs at h with hnullish hfields
  · exact ⟨hfields, h⟩
  · cases h

theorem nodes_eq_iff (hnumber : ∀ n : JsNumber, n.isFinite = true →
      JsonNumber (platform.numberText n)) {left right : List JsValue}
    {nodes nodes' : List HephaFeatureWorkflowNode} {number : ℕ}
    (hlength : left.length = right.length) (hmatch : nodesMatch platform left right = .ok true)
    (hleft : nodesFrom host path number left = .ok nodes)
    (hright : nodesFrom host path' number right = .ok nodes') :
    nodes = nodes' ↔ left.map uncompared = right.map uncompared := by
  induction left generalizing right number nodes nodes' with
  | nil =>
      obtain rfl := List.length_eq_zero_iff.mp hlength.symm
      rw [← Except.ok.inj hleft, ← Except.ok.inj hright]
      exact iff_of_true rfl rfl
  | cons node rest ih =>
      cases right with
      | nil => cases hlength
      | cons node' rest' =>
          obtain ⟨hfields, hmatch⟩ := nodesMatch_cons hmatch
          obtain ⟨first, hfirst, hleft⟩ := ok_of_bind hleft
          obtain ⟨others, hothers, hleft⟩ := ok_of_bind hleft
          obtain ⟨first', hfirst', hright⟩ := ok_of_bind hright
          obtain ⟨others', hothers', hright⟩ := ok_of_bind hright
          obtain rfl := Except.ok.inj hleft
          obtain rfl := Except.ok.inj hright
          rw [List.map_cons, List.map_cons, List.cons.injEq, List.cons.injEq,
            node_eq_iff hnumber hfields (normalizeHephaWorkflowNode_ok hfirst)
              (normalizeHephaWorkflowNode_ok hfirst'),
            ih (Nat.succ.inj hlength) hmatch hothers hothers']

theorem readOptionalString_of_identical {left right : JsValue} {field : String}
    (h : topFieldMatches left right field = true) :
    readOptionalString left field = readOptionalString right field := by
  unfold topFieldMatches at h
  unfold readOptionalString
  cases hl : left.get (js field) <;> cases hr : right.get (js field) <;>
    simp_all [identical, nonBlank, isString]

/-- What a specification has from its document. -/
theorem normalizeHephaFeatureWorkflowSpec_ok {value : JsValue} {command : FeatureWorkflowCommand}
    {spec : HephaFeatureWorkflowSpec}
    (h : normalizeHephaFeatureWorkflowSpec host value path command = .ok spec) :
    value.isRecord = true ∧ spec.command = command ∧ spec.path = path ∧
      readOptionalString value "name" = some spec.name ∧
      readOptionalString value "description" = spec.description ∧
      nodesFrom host path 1 (rawNodes value) = .ok spec.nodes := by
  unfold normalizeHephaFeatureWorkflowSpec at h
  split at h
  · cases h
  · rename_i hrecord
    obtain ⟨name, hname, h⟩ := ok_of_bind h
    dsimp only at h
    split at h
    · cases h
    · split at h
      · cases h
      · obtain ⟨nodes, hnodes, h⟩ := ok_of_bind h
        obtain ⟨-, -, h⟩ := ok_of_bind h
        obtain ⟨-, -, h⟩ := ok_of_bind h
        obtain ⟨-, -, h⟩ := ok_of_bind h
        obtain rfl := Except.ok.inj h
        exact ⟨by simpa using hrecord, rfl, rfl, readRequiredString_ok hname, rfl, hnodes⟩

/-- A comparison that ends well compared the fields of the documents and of their nodes. -/
theorem resolveWorkflowSpecsMatch_true {left right : JsValue}
    (h : resolveWorkflowSpecsMatch platform left right = .ok true) :
    (∀ field ∈ topFieldsToCompare, topFieldMatches left right field = true) ∧
      (rawNodes left).length = (rawNodes right).length ∧
      nodesMatch platform (rawNodes left) (rawNodes right) = .ok true := by
  unfold resolveWorkflowSpecsMatch at h
  split_ifs at h with htop hname hlength
  · cases h
  · cases h
  · cases h
  · refine ⟨List.all_eq_true.mp (by simpa using htop), by simpa using hlength, h⟩

/-- Two candidates that both exist are accepted only if their documents match. -/
theorem match_of_resolve {existsFile : JsString → Bool} {legacyPath targetPath chosen : JsString}
    {command : FeatureWorkflowCommand} {normalizeFn : JsString → Except WorkflowError JsValue}
    {left right : JsValue} (hlegacy : existsFile legacyPath = true)
    (htarget : existsFile targetPath = true) (hleft : normalizeFn legacyPath = .ok left)
    (hright : normalizeFn targetPath = .ok right)
    (h : resolveWorkflowSourcePath platform existsFile
      [⟨legacyRoot, legacyPath⟩, ⟨targetRoot, targetPath⟩] command normalizeFn = .ok chosen) :
    chosen = legacyPath ∧ resolveWorkflowSpecsMatch platform left right = .ok true := by
  have hroots : (legacyRoot == targetRoot) = false := by decide
  simp only [resolveWorkflowSourcePath, List.filter_cons, hlegacy, htarget, if_true,
    List.filter_nil, List.find?_cons, beq_self_eq_true, hroots, hleft, hright] at h
  obtain ⟨left', hleft', h⟩ := ok_of_bind h
  obtain ⟨right', hright', h⟩ := ok_of_bind h
  obtain ⟨equivalent, hmatch, h⟩ := ok_of_bind h
  obtain rfl := Except.ok.inj hleft'
  obtain rfl := Except.ok.inj hright'
  cases equivalent with
  | true => exact ⟨(Except.ok.inj h).symm, hmatch⟩
  | false => cases h

end Equivalent

/-- **Two layouts that are accepted as equivalent are one workflow if and only if their nodes
read the same in the fields that are not compared**: the agent, the command, the context, the
output schema, the tool profile and the loop. -/
theorem layouts_agree_iff {platform : Platform}
    (hnumber : ∀ n : JsNumber, n.isFinite = true → JsonNumber (platform.numberText n))
    {host : WorkflowHost} {workspaceRoot chosen : JsString} {command : FeatureWorkflowCommand}
    {legacy target : WorkflowCandidate} {left right : JsValue}
    {spec spec' : HephaFeatureWorkflowSpec}
    (hcandidates : resolveWorkflowCandidatePaths host workspaceRoot command = [legacy, target])
    (hlegacy : host.existsFile legacy.path = true) (htarget : host.existsFile target.path = true)
    (hleft : readWorkflowDocument host legacy.path = .ok left)
    (hright : readWorkflowDocument host target.path = .ok right)
    (haccept : resolveWorkflowSourcePath platform host.existsFile
      (resolveWorkflowCandidatePaths host workspaceRoot command) command
      (normalizeDocument host) = .ok chosen)
    (hspec : normalizeHephaFeatureWorkflowSpec host left legacy.path command = .ok spec)
    (hspec' : normalizeHephaFeatureWorkflowSpec host right target.path command = .ok spec') :
    spec = { spec' with path := spec.path } ↔
      (rawNodes left).map uncompared = (rawNodes right).map uncompared := by
  obtain ⟨hrecord, hcommand, -, hname, hdescription, hnodes⟩ :=
    normalizeHephaFeatureWorkflowSpec_ok hspec
  obtain ⟨hrecord', hcommand', -, hname', hdescription', hnodes'⟩ :=
    normalizeHephaFeatureWorkflowSpec_ok hspec'
  have hroots : legacy.root = legacyRoot ∧ target.root = targetRoot := by
    simp only [resolveWorkflowCandidatePaths, List.map_cons, List.cons.injEq] at hcandidates
    exact ⟨hcandidates.1 ▸ rfl, hcandidates.2.1 ▸ rfl⟩
  have hdocument {path : JsString} {value : JsValue}
      (hread : readWorkflowDocument host path = .ok value) (hrecord : value.isRecord = true) :
      normalizeDocument host path = .ok value := by
    rw [normalizeDocument, hread]
    show Except.ok (if value.isRecord then value else .obj []) = .ok value
    rw [if_pos hrecord]
  have hmatch : resolveWorkflowSpecsMatch platform left right = .ok true := by
    obtain ⟨root, path⟩ := legacy
    obtain ⟨root', path'⟩ := target
    obtain ⟨rfl, rfl⟩ := hroots
    rw [hcandidates] at haccept
    exact (match_of_resolve hlegacy htarget (hdocument hleft hrecord)
      (hdocument hright hrecord') haccept).2
  obtain ⟨htop, hlength, hmatch⟩ := resolveWorkflowSpecsMatch_true hmatch
  have hsame : spec.name = spec'.name := Option.some.inj (hname.symm.trans
    ((readOptionalString_of_identical (htop "name" (by decide))).trans hname'))
  have hsame' : spec.description = spec'.description := hdescription.symm.trans
    ((readOptionalString_of_identical (htop "description" (by decide))).trans hdescription')
  rw [← nodes_eq_iff hnumber hlength hmatch hnodes hnodes']
  constructor
  · intro heq
    rw [heq]
  · intro heq
    cases spec
    cases spec'
    simp_all

/-! ## Two documents that only the tool profile tells apart -/

/-- One node that runs an action with a tool profile. -/
def profiledDocument (toolProfile : String) : JsValue :=
  .record [("name", .text "refine-feature"), ("nodes", .arr [.record
    [("id", .text "refine"), ("action", .text "refine"), ("tool_profile", .text toolProfile)]])]

/-- The path of the workflow in a layout. -/
def profiledPath (root : JsString) : JsString :=
  (js "/").intercalate [js "/work", root, js "refine-feature.workflow.yaml"]

/-- A disk on which the legacy layout allows reading only, and the other layout what it is
given. -/
def profiledHost (toolProfile : String) : WorkflowHost where
  casing := .ascii
  resolvePath := (js "/").intercalate
  existsFile _ := true
  readFile := .ok
  parseYaml source := .ok (profiledDocument
    (if source = profiledPath legacyRoot then "read-only" else toolProfile))
  portabilityError _ := none
  assetError _ _ _ _ := none

/-- A platform on which every number is written as `0`. -/
def zeroPlatform : Platform where
  parseJson _ := none
  numberText _ := js "0"
  sha256 := id

theorem zeroPlatform_jsonNumber (n : JsNumber) (_ : n.isFinite = true) :
    JsonNumber (zeroPlatform.numberText n) :=
  ⟨[], js "0", [], [], by simp [zeroPlatform], by decide, .inl rfl, .inl rfl, .inl rfl⟩

/-- The specification of the document in a layout. -/
def profiledSpec (root : JsString) (toolProfile : String) : HephaFeatureWorkflowSpec :=
  { command := .refineFeature, description := none, name := js "refine-feature"
    nodes := [{
      action := some (js "refine"), agent := none, command := none, context := none, dependsOn := []
      id := js "refine", loop := none, outputSchema := none, prompt := none, skill := none
      status := js "Refine", summary := none, toolProfile := some (js toolProfile)
      role := .action }]
    path := profiledPath root }

/-- The layouts give the node different tools and are accepted as equivalent. -/
theorem toolProfile_not_compared :
    resolveWorkflowSourcePath zeroPlatform (profiledHost "write").existsFile
        (resolveWorkflowCandidatePaths (profiledHost "write") (js "/work") .refineFeature)
        .refineFeature (normalizeDocument (profiledHost "write")) =
      .ok (profiledPath legacyRoot) ∧
    normalizeHephaFeatureWorkflowSpec (profiledHost "write") (profiledDocument "read-only")
        (profiledPath legacyRoot) .refineFeature = .ok (profiledSpec legacyRoot "read-only") ∧
    normalizeHephaFeatureWorkflowSpec (profiledHost "write") (profiledDocument "write")
        (profiledPath targetRoot) .refineFeature = .ok (profiledSpec targetRoot "write") ∧
    profiledSpec legacyRoot "read-only" ≠
      { profiledSpec targetRoot "write" with
        path := (profiledSpec legacyRoot "read-only").path } := by
  decide

theorem readWorkflowDocument_profiled (path : JsString) :
    readWorkflowDocument (profiledHost "read-only") path =
      .ok (profiledDocument "read-only") := by
  show Except.ok (profiledDocument (if path = profiledPath legacyRoot then "read-only"
    else "read-only")) = .ok (profiledDocument "read-only")
  rw [ite_self]

theorem layouts_agree_profiled :
    profiledSpec legacyRoot "read-only" =
      { profiledSpec targetRoot "read-only" with
        path := (profiledSpec legacyRoot "read-only").path } :=
  (layouts_agree_iff zeroPlatform_jsonNumber
    (show resolveWorkflowCandidatePaths (profiledHost "read-only") (js "/work") .refineFeature =
      [⟨legacyRoot, profiledPath legacyRoot⟩, ⟨targetRoot, profiledPath targetRoot⟩] by
        decide)
    rfl rfl (readWorkflowDocument_profiled _) (readWorkflowDocument_profiled _)
    (show _ = Except.ok (profiledPath legacyRoot) by decide)
    (by decide) (by decide)).mpr rfl

end Hepha.Workflow
