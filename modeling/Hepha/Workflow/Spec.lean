import Hepha.Js.Decimal
import Hepha.Js.Lines
import Hepha.Js.Stringify
import Hepha.Routing.Contracts

/-!
# Workflow specifications

A workflow is a YAML document with a name and a list of nodes.  Normalizing it
reads every field of every node once, trims the texts, fills in the defaults and
refuses what does not fit: an unknown kind, an agent action in the wrong place, a
dependency that does not stand earlier in the file.

What the code takes from elsewhere is a parameter: the paths and the files, the
reader of YAML texts, the portability check, and what is wrong with a file that a
prompt node refers to.
-/

namespace Hepha.Workflow

/-- `FeatureWorkflowCommand`. -/
inductive FeatureWorkflowCommand where
  | completeFeature
  | continueImplementing
  | deepDiveEpic
  | deepDiveFeature
  | designFeature
  | refineFeature
  | startImplementing
  deriving DecidableEq, Repr

def FeatureWorkflowCommand.name : FeatureWorkflowCommand → JsString
  | completeFeature => js "complete-feature"
  | continueImplementing => js "continue-implementing"
  | deepDiveEpic => js "deep-dive-epic"
  | deepDiveFeature => js "deep-dive-feature"
  | designFeature => js "design-feature"
  | refineFeature => js "refine-feature"
  | startImplementing => js "start-implementing"

/-- `WorkflowAgentActionErrorCode`, less the codes of the YAML reader. -/
inductive AgentActionErrorCode where
  | missing
  | invalidLocation
  | unknown
  deriving DecidableEq, Repr

/-- What is thrown. -/
inductive WorkflowError where
  | error (message : JsString)
  | workflowMissing (message command : JsString) (triedPaths : List JsString)
  | workflowConflict (message command legacyPath targetPath : JsString)
  | agentAction (code : AgentActionErrorCode)
  /-- A property of `null` or `undefined` is read. -/
  | typeError
  deriving DecidableEq, Repr

structure WorkflowHost where
  casing : Casing
  /-- `resolve` of `node:path`. -/
  resolvePath : List JsString → JsString
  /-- `existsSync`. -/
  existsFile : JsString → Bool
  /-- `readFileSync(path, "utf8")`. -/
  readFile : JsString → Except WorkflowError JsString
  /-- `parseWorkflowYamlDocument`. -/
  parseYaml : JsString → Except WorkflowError JsValue
  /-- `validatePortableAssetSource(source, ...).diagnostics[0]?.code`. -/
  portabilityError : JsString → Option JsString
  /-- What is wrong with a reference of a prompt node, by the paths of the workflow, the id
  of the node, the field and the reference: `resolveHephaAssetPath`, `existsSync`,
  `checkIncompatibleReference` and `validateAssetContent`, in this order. -/
  assetError : JsString → JsString → String → JsString → Option JsString

/-- `throw new Error(message)`. -/
def fail {α : Type} (parts : List JsString) : Except WorkflowError α :=
  .error (.error parts.flatten)

/-! ## Reading fields -/

/-- A text that is not blank, trimmed. -/
def nonBlank (value : JsValue) : Option JsString :=
  (value.isString.map JsString.trim).filter fun text => !text.isEmpty

def readOptionalString (value : JsValue) (field : String) : Option JsString :=
  nonBlank (value.get (js field))

def readRequiredString (value : JsValue) (field : String) (path : JsString) :
    Except WorkflowError JsString :=
  match readOptionalString value field with
  | some result => .ok result
  | none =>
      fail [js "Workflow ", path, js " must define a non-empty ", js field, js " string."]

def readOptionalBoolean (value : JsValue) (field : String) : Option Bool :=
  (value.get (js field)).isBoolean

/-- `value === undefined || value === null`. -/
def isNullish : JsValue → Bool
  | .undefined | .null => true
  | _ => false

def readStringList (value : JsValue) (path nodeId : JsString) :
    Except WorkflowError (List JsString) :=
  if isNullish value then .ok []
  else match value.isArrayOf nonBlank with
  | some items => .ok items
  | none =>
      fail [js "Workflow ", path, js " node ", nodeId, js " depends_on must be a string array."]

/-- The words between `-` and `_`, each with a capital letter. -/
def titleizeNodeId (casing : Casing) (id : JsString) : JsString :=
  [0x20].intercalate (((id.splitOnP fun u => u == 0x2D || u == 0x5F).filter
    fun part => !part.isEmpty).map fun part => casing.toUpperCase (part.take 1) ++ part.drop 1)

/-! ## Loops -/

structure HephaWorkflowTransitionSpec where
  source : JsString
  summary : Option JsString
  target : JsString
  condition : JsString
  deriving DecidableEq, Repr

structure HephaWorkflowLoopSpec where
  freshContext : Option Bool
  transitions : Option (List HephaWorkflowTransitionSpec)
  untilCondition : JsString
  workflow : Option JsString
  deriving DecidableEq, Repr

def normalizeTransition (path nodeId : JsString) (number : ℕ) (transition : JsValue) :
    Except WorkflowError HephaWorkflowTransitionSpec := do
  let place := nodeId ++ js " loop transition " ++ decimalText number
  if !transition.isRecord then
    fail [js "Workflow ", path, js " node ", place, js " must be an object."]
  let source ← readRequiredString transition "from" (path ++ js " node " ++ place)
  let target ← readRequiredString transition "to" (path ++ js " node " ++ place)
  let condition ← readRequiredString transition "when" (path ++ js " node " ++ place)
  return { source, summary := readOptionalString transition "summary", target, condition }

/-- The transitions from one number on. -/
def transitionsFrom (path nodeId : JsString) :
    ℕ → List JsValue → Except WorkflowError (List HephaWorkflowTransitionSpec)
  | _, [] => .ok []
  | number, transition :: rest => do
      let first ← normalizeTransition path nodeId number transition
      let others ← transitionsFrom path nodeId (number + 1) rest
      return first :: others

def normalizeWorkflowTransitions (value : JsValue) (path nodeId : JsString) :
    Except WorkflowError (Option (List HephaWorkflowTransitionSpec)) :=
  if isNullish value then .ok none
  else match value.isArray with
  | some items => do
      let transitions ← transitionsFrom path nodeId 1 items
      return some transitions
  | none =>
      fail [js "Workflow ", path, js " node ", nodeId, js " loop transitions must be an array."]

def normalizeWorkflowLoop (value : JsValue) (path nodeId : JsString) :
    Except WorkflowError (Option HephaWorkflowLoopSpec) :=
  if isNullish value then .ok none
  else if !value.isRecord then
    fail [js "Workflow ", path, js " node ", nodeId, js " loop must be an object."]
  else do
    let untilCondition ← readRequiredString value "until" (path ++ js " node " ++ nodeId)
    let transitions ← normalizeWorkflowTransitions (value.get (js "transitions")) path nodeId
    return some
      { freshContext := (readOptionalBoolean value "fresh_context").or
          (readOptionalBoolean value "freshContext")
        transitions, untilCondition, workflow := readOptionalString value "workflow" }

/-! ## The kind of a node and the action of its agent -/

inductive HephaWorkflowNodeKind where
  | action
  | prompt
  | loop
  | gate
  deriving DecidableEq, Repr

def readWorkflowNodeKind (value : JsValue) (path id : JsString) (action : Option JsString)
    (loop : Option HephaWorkflowLoopSpec) (prompt : Option JsString) :
    Except WorkflowError HephaWorkflowNodeKind :=
  match readOptionalString value "kind" with
  | some explicitKind =>
      if explicitKind = js "action" then .ok .action
      else if explicitKind = js "prompt" then .ok .prompt
      else if explicitKind = js "loop" then .ok .loop
      else if explicitKind = js "gate" then .ok .gate
      else fail [js "Workflow ", path, js " node ", id, js ": unknown kind `", explicitKind,
        js "`. Allowed values: action, prompt, loop, gate."]
  | none =>
      if loop.isSome then .ok .loop
      else if prompt.isSome then .ok .prompt
      else if action.isSome then .ok .action
      else .ok .action

mutual

def containsActionIdentity : JsValue → Bool
  | .arr items => itemsContainActionIdentity items
  | .obj properties =>
      (properties.map Prod.fst).contains (js "agent_action") ||
        (properties.map Prod.fst).contains (js "agentAction") ||
        propertiesContainActionIdentity properties
  | _ => false

def itemsContainActionIdentity : List JsValue → Bool
  | [] => false
  | item :: rest => containsActionIdentity item || itemsContainActionIdentity rest

def propertiesContainActionIdentity : List (JsString × JsValue) → Bool
  | [] => false
  | property :: rest => containsActionIdentity property.2 || propertiesContainActionIdentity rest

end

def hasNestedActionIdentity : JsValue → Bool
  | .obj properties => properties.any fun property =>
      property.1 != js "agent_action" && containsActionIdentity property.2
  | _ => false

/-- The actions of `AgentRegistry`. -/
def registeredActions : List String :=
  ["submit-epic", "refine-epic", "submit-feature", "deep-dive", "design-feature",
    "refine-feature", "ui-requirement-evaluation", "start-feature", "continue-implementing",
    "phase-worker", "resolve-review-findings", "workflow-recovery", "code-review",
    "complete-feature", "phase-lessons-capture", "feature-lessons-writer",
    "post-complete-lessons-curator"]

/-- `actionId`. -/
def isActionId (value : JsString) : Bool :=
  value.length ≤ 128 && value.trim == value && Routing.isActionWord value

/-- What a node is: its kind and, where it launches an agent, the action of the agent. -/
inductive NodeRole where
  | action
  | prompt (agentAction : JsString)
  | loop
  | gate
  deriving DecidableEq, Repr

def NodeRole.kind : NodeRole → HephaWorkflowNodeKind
  | action => .action
  | prompt _ => .prompt
  | loop => .loop
  | gate => .gate

/-- `node.agentAction`. -/
def NodeRole.agentAction : NodeRole → Option JsString
  | prompt agentAction => some agentAction
  | _ => none

/-- `parseWorkflowAgentAction` after the test of nested identities, for a prompt. -/
def parsePromptAction (node : JsValue) : Except WorkflowError JsString :=
  if !node.hasKey "agent_action" then .error (.agentAction .missing)
  else match (node.get (js "agent_action")).isString.filter isActionId with
  | none => .error (.agentAction .invalidLocation)
  | some action =>
      if (registeredActions.map js).contains action then .ok action
      else .error (.agentAction .unknown)

/-- A node of a kind that launches no agent. -/
def withoutAction (node : JsValue) (role : NodeRole) : Except WorkflowError NodeRole :=
  if node.hasKey "agent_action" then .error (.agentAction .invalidLocation) else .ok role

def parseWorkflowAgentAction (node : JsValue) (kind : HephaWorkflowNodeKind) :
    Except WorkflowError NodeRole :=
  if node.hasKey "agentAction" || hasNestedActionIdentity node then
    .error (.agentAction .invalidLocation)
  else match kind with
  | .action => withoutAction node .action
  | .loop => withoutAction node .loop
  | .gate => withoutAction node .gate
  | .prompt => do
      let agentAction ← parsePromptAction node
      return .prompt agentAction

/-! ## Nodes -/

structure HephaFeatureWorkflowNode where
  action : Option JsString
  agent : Option JsString
  command : Option JsString
  context : Option JsString
  dependsOn : List JsString
  id : JsString
  loop : Option HephaWorkflowLoopSpec
  outputSchema : Option JsString
  prompt : Option JsString
  skill : Option JsString
  status : JsString
  summary : Option JsString
  toolProfile : Option JsString
  role : NodeRole
  deriving DecidableEq, Repr

/-- `readOptionalString(value, field) ?? readOptionalString(value, other)`. -/
def readEither (value : JsValue) (field other : String) : Option JsString :=
  (readOptionalString value field).or (readOptionalString value other)

def normalizeHephaWorkflowNode (host : WorkflowHost) (path : JsString) (number : ℕ)
    (value : JsValue) : Except WorkflowError HephaFeatureWorkflowNode := do
  if !value.isRecord then
    fail [js "Workflow ", path, js " node ", decimalText number, js " must be an object."]
  let id ← readRequiredString value "id" path
  let prompt := readOptionalString value "prompt"
  let action := readOptionalString value "action"
  let loop ← normalizeWorkflowLoop (value.get (js "loop")) path id
  let kind ← readWorkflowNodeKind value path id action loop prompt
  let role ← parseWorkflowAgentAction value kind
  if kind == .action && action.isNone then
    fail [js "Workflow ", path, js " node ", id,
      js " is kind action but does not define a non-empty action string."]
  let dependsOn ← readStringList
    ((value.get (js "depends_on")).orElse (value.get (js "dependsOn"))) path id
  return {
    action, agent := readOptionalString value "agent"
    command := readOptionalString value "command"
    context := readOptionalString value "context", dependsOn, id, loop
    outputSchema := readEither value "output_schema" "outputSchema", prompt
    skill := readOptionalString value "skill"
    status := (readOptionalString value "status").getD (titleizeNodeId host.casing id)
    summary := readOptionalString value "summary"
    toolProfile := readEither value "tool_profile" "toolProfile", role }

/-- The nodes from one number on. -/
def nodesFrom (host : WorkflowHost) (path : JsString) :
    ℕ → List JsValue → Except WorkflowError (List HephaFeatureWorkflowNode)
  | _, [] => .ok []
  | number, node :: rest => do
      let first ← normalizeHephaWorkflowNode host path number node
      let others ← nodesFrom host path (number + 1) rest
      return first :: others

/-! ## Specifications -/

/-- The loop of `assertUniqueNodeIds`, with the ids seen so far. -/
def assertUniqueNodeIds (path : JsString) :
    List JsString → List HephaFeatureWorkflowNode → Except WorkflowError Unit
  | _, [] => .ok ()
  | seen, node :: rest =>
      if seen.contains node.id then
        fail [js "Workflow ", path, js " declares duplicate node id ", node.id, js "."]
      else assertUniqueNodeIds path (node.id :: seen) rest

/-- The inner loop of `assertWorkflowDependencies`. -/
def assertNodeDependencies (path id : JsString) (ids completed : List JsString) :
    List JsString → Except WorkflowError Unit
  | [] => .ok ()
  | dependency :: rest =>
      if !ids.contains dependency then
        fail [js "Workflow ", path, js " node ", id, js " depends on unknown node ", dependency,
          js "."]
      else if !completed.contains dependency then
        fail [js "Workflow ", path, js " node ", id, js " depends on ", dependency, js ", but ",
          dependency, js " is not earlier in the file."]
      else assertNodeDependencies path id ids completed rest

/-- The loop of `assertWorkflowDependencies`, with the ids of the nodes passed so far. -/
def assertWorkflowDependencies (path : JsString) (ids : List JsString) :
    List JsString → List HephaFeatureWorkflowNode → Except WorkflowError Unit
  | _, [] => .ok ()
  | completed, node :: rest => do
      assertNodeDependencies path node.id ids completed node.dependsOn
      assertWorkflowDependencies path ids (node.id :: completed) rest

/-- One reference of a prompt node. -/
def assertReference (host : WorkflowHost) (path id : JsString) (article field : String)
    (value : Option JsString) : Except WorkflowError Unit :=
  match value with
  | none => fail [js "Workflow ", path, js " prompt node ", id, js " must define ", js article,
      js " ", js field, js " path under .hepha."]
  | some reference =>
      match host.assetError path id field reference with
      | some message => .error (.error message)
      | none => .ok ()

def assertWorkflowPromptAssetReferences (host : WorkflowHost) (path : JsString) :
    List HephaFeatureWorkflowNode → Except WorkflowError Unit
  | [] => .ok ()
  | node :: rest => do
      if node.role.kind == .prompt then
        assertReference host path node.id "a" "command" node.command
        assertReference host path node.id "an" "agent" node.agent
        assertReference host path node.id "a" "context" node.context
        assertReference host path node.id "an" "output_schema" node.outputSchema
      assertWorkflowPromptAssetReferences host path rest

structure HephaFeatureWorkflowSpec where
  command : FeatureWorkflowCommand
  description : Option JsString
  name : JsString
  nodes : List HephaFeatureWorkflowNode
  path : JsString
  deriving DecidableEq, Repr

def normalizeHephaFeatureWorkflowSpec (host : WorkflowHost) (value : JsValue) (path : JsString)
    (expectedCommand : FeatureWorkflowCommand) : Except WorkflowError HephaFeatureWorkflowSpec := do
  if !value.isRecord then
    fail [js "Workflow ", path, js " must contain a YAML object."]
  let name ← readRequiredString value "name" path
  let command := (readOptionalString value "command").getD name
  if command != expectedCommand.name then
    fail [js "Workflow ", path, js " declares command ", command, js ", expected ",
      expectedCommand.name, js "."]
  let rawNodes := (value.get (js "nodes")).isArray.getD []
  if rawNodes.isEmpty then
    fail [js "Workflow ", path, js " must define a non-empty nodes array."]
  let nodes ← nodesFrom host path 1 rawNodes
  assertUniqueNodeIds path [] nodes
  assertWorkflowDependencies path (nodes.map (·.id)) [] nodes
  assertWorkflowPromptAssetReferences host path nodes
  return { command := expectedCommand, description := readOptionalString value "description",
           name, nodes, path }

end Hepha.Workflow
