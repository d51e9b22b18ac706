import Hepha.Js.Parse

/-!
# The tree of a JSON text

A JSON text is derived together with its objects and arrays.  An object keeps its members
as they stand in the text, with their keys decoded, also where a key occurs twice.
-/

namespace Hepha

/-- The nesting of a document.  A leaf is a word, a number or a string. -/
inductive JsonTree where
  | leaf
  | arr (items : List JsonTree)
  | obj (members : List (JsString × JsonTree))

/-- What a part of the grammar holds. -/
inductive JsonNode where
  | container (tree : JsonTree)
  | value (tree : JsonTree)
  | element (tree : JsonTree)
  | elements (items : List JsonTree)
  | member (key : JsString) (tree : JsonTree)
  | members (members : List (JsString × JsonTree))

/-- The key that a string stands for, its escapes decoded. -/
def IsKey (units key : JsString) : Prop :=
  StringUnits units ∧ readQuoted (units ++ [0x22]) = some (key, [])

/-- The grammar of `IsJson`, with what is derived. -/
inductive HasTree : JsonNode → JsString → Prop
  | emptyArray {space} (h : JsonSpace space) :
      HasTree (.container (.arr [])) (0x5B :: (space ++ [0x5D]))
  | array {items body} (h : HasTree (.elements items) body) :
      HasTree (.container (.arr items)) (0x5B :: (body ++ [0x5D]))
  | emptyObject {space} (h : JsonSpace space) :
      HasTree (.container (.obj [])) (0x7B :: (space ++ [0x7D]))
  | object {members body} (h : HasTree (.members members) body) :
      HasTree (.container (.obj members)) (0x7B :: (body ++ [0x7D]))
  | word {text} (h : text ∈ [js "null", js "true", js "false"]) : HasTree (.value .leaf) text
  | number {text} (h : JsonNumber text) : HasTree (.value .leaf) text
  | string {text} (h : JsonString text) : HasTree (.value .leaf) text
  | nested {tree text} (h : HasTree (.container tree) text) : HasTree (.value tree) text
  | element {tree before text after} (hbefore : JsonSpace before) (h : HasTree (.value tree) text)
      (hafter : JsonSpace after) : HasTree (.element tree) (before ++ (text ++ after))
  | lastElement {tree text} (h : HasTree (.element tree) text) : HasTree (.elements [tree]) text
  | elements {tree items text rest} (h : HasTree (.element tree) text)
      (hrest : HasTree (.elements items) rest) :
      HasTree (.elements (tree :: items)) (text ++ 0x2C :: rest)
  | member {key tree before units after text} (hbefore : JsonSpace before) (hkey : IsKey units key)
      (hafter : JsonSpace after) (h : HasTree (.element tree) text) :
      HasTree (.member key tree) (before ++ (0x22 :: (units ++ 0x22 :: (after ++ 0x3A :: text))))
  | lastMember {key tree text} (h : HasTree (.member key tree) text) :
      HasTree (.members [(key, tree)]) text
  | members {key tree members text rest} (h : HasTree (.member key tree) text)
      (hrest : HasTree (.members members) rest) :
      HasTree (.members ((key, tree) :: members)) (text ++ 0x2C :: rest)

/-! ## Every text has a tree -/

theorem isKey_of_units {units : JsString} (h : StringUnits units) : ∃ key, IsKey units key := by
  suffices hread : ∃ key, readQuoted (units ++ [0x22]) = some (key, []) by
    obtain ⟨key, hkey⟩ := hread
    exact ⟨key, h, hkey⟩
  induction h with
  | nil => exact ⟨[], readQuoted_end []⟩
  | unit hquote hescape hcontrol _ ih =>
      obtain ⟨key, hkey⟩ := ih
      exact ⟨_, by rw [List.cons_append, readQuoted_cons hquote hescape hcontrol, hkey]; rfl⟩
  | @escape u v rest hv _ ih =>
      obtain ⟨key, hkey⟩ := ih
      have hunit : v ≠ 0x75 := by
        rintro rfl
        have hnone : unescape 0x75 = none := by decide
        rw [hnone] at hv
        cases hv
      exact ⟨_, by
        rw [List.cons_append, List.cons_append, readQuoted_escape hv hunit, hkey]
        rfl⟩
  | @hex u a b c d rest hhex _ ih =>
      obtain ⟨key, hkey⟩ := ih
      refine ⟨u :: key, ?_⟩
      simp only [List.cons_append]
      rw [readQuoted_hex hhex, hkey, Option.map_some]

/-- A part of the grammar with some tree. -/
def HasSomeTree : JsonPart → JsString → Prop
  | .container, text => ∃ tree, HasTree (.container tree) text
  | .value, text => ∃ tree, HasTree (.value tree) text
  | .element, text => ∃ tree, HasTree (.element tree) text
  | .elements, text => ∃ items, HasTree (.elements items) text
  | .member, text => ∃ key tree, HasTree (.member key tree) text
  | .members, text => ∃ members, HasTree (.members members) text

/-- **Every part of the grammar has a tree.** -/
theorem hasSomeTree {part : JsonPart} {text : JsString} (h : IsJson part text) :
    HasSomeTree part text := by
  induction h with
  | emptyArray h => exact ⟨_, .emptyArray h⟩
  | array _ ih =>
      obtain ⟨items, hitems⟩ := ih
      exact ⟨_, .array hitems⟩
  | emptyObject h => exact ⟨_, .emptyObject h⟩
  | object _ ih =>
      obtain ⟨members, hmembers⟩ := ih
      exact ⟨_, .object hmembers⟩
  | word h => exact ⟨_, .word h⟩
  | number h => exact ⟨_, .number h⟩
  | string h => exact ⟨_, .string h⟩
  | nested _ ih =>
      obtain ⟨tree, htree⟩ := ih
      exact ⟨_, .nested htree⟩
  | element hbefore _ hafter ih =>
      obtain ⟨tree, htree⟩ := ih
      exact ⟨_, .element hbefore htree hafter⟩
  | lastElement _ ih =>
      obtain ⟨tree, htree⟩ := ih
      exact ⟨_, .lastElement htree⟩
  | elements _ _ ih ihrest =>
      obtain ⟨tree, htree⟩ := ih
      obtain ⟨items, hitems⟩ := ihrest
      exact ⟨_, .elements htree hitems⟩
  | member hbefore hkey hafter _ ih =>
      obtain ⟨tree, htree⟩ := ih
      obtain ⟨units, hunits, rfl⟩ := hkey
      obtain ⟨key, hkey⟩ := isKey_of_units hunits
      refine ⟨key, tree, ?_⟩
      simpa using HasTree.member hbefore hkey hafter htree
  | lastMember _ ih =>
      obtain ⟨key, tree, htree⟩ := ih
      exact ⟨_, .lastMember htree⟩
  | members _ _ ih ihrest =>
      obtain ⟨key, tree, htree⟩ := ih
      obtain ⟨members, hmembers⟩ := ihrest
      exact ⟨_, .members htree hmembers⟩

end Hepha
