import Hepha.Js.JsonTree
import Hepha.Js.MatchAll
import Mathlib.Data.List.Duplicate

/-!
# Duplicate keys of an exchange

`JSON.parse` keeps the last member of a key.  Before an exchange is read, its text is
scanned for strings and brackets, and a key that an object has twice is refused.  The
audit metadata of the exchange decide nothing; a key may occur twice there.

## Strategy

The scan is compared with a search through the tree of the document (`firstRepeat`).  By
induction over the derivation of the text, the scan of a part with some frames open goes
on behind it with the same frames, unless the search finds a key (`walked_of_hasTree`).
What the search finds is a matter of the tree alone (`firstRepeat_some`,
`firstRepeat_none`).
-/

namespace Hepha.Exchange

open Pattern JsString

/-! ## The scan -/

/-- `(?:\\.|[^"\\])*"`, and what follows. -/
def quotedUnits : JsString → Option (JsString × JsString)
  | [] => none
  | u :: rest =>
      if u = 0x22 then some ([u], rest)
      else if u = 0x5C then
        match rest with
        | [] => none
        | v :: rest =>
            if isDot v then (quotedUnits rest).map fun (units, rest) => (u :: v :: units, rest)
            else none
      else (quotedUnits rest).map fun (units, rest) => (u :: units, rest)

/-- A token at the beginning of a text, and what follows it. -/
def tokenAt : JsString → Option (JsString × JsString)
  | [] => none
  | u :: rest =>
      if u = 0x22 then (quotedUnits rest).map fun (units, rest) => (u :: units, rest)
      else if anyOf "\x7b\x7d[]" u then some ([u], rest)
      else none

/-- The tokens behind the units that belong to the last one. -/
def tokensFrom : ℕ → JsString → List (JsString × JsString)
  | _, [] => []
  | passed + 1, _ :: rest => tokensFrom passed rest
  | 0, u :: rest =>
      match tokenAt (u :: rest) with
      | none => tokensFrom 0 rest
      | some (text, after) => (text, after) :: tokensFrom (text.length - 1) rest

/-- `raw.matchAll(...)`, each token with what follows it. -/
def tokens (raw : JsString) : List (JsString × JsString) :=
  tokensFrom 0 raw

/-- An object or an array that is open. -/
structure Frame where
  kind : CodeUnit
  keys : List JsString
  audit : Bool
  pendingKey : Option JsString

/-- `/^\s*:/`. -/
def startsWithColon (after : JsString) : Bool :=
  (after.dropWhile isWhiteSpace).head? == some 0x3A

/-- `JSON.parse` of a string. -/
def parseKey (text : JsString) : Option JsString :=
  match readQuoted text.tail with
  | some (key, []) => some key
  | _ => none

/-- `parent?.audit === true || (frames.length === 1 && parent?.pendingKey === "audit")`. -/
def opensAudit (frames : List Frame) : Bool :=
  (frames.head?.map Frame.audit).getD false ||
    (frames.length == 1 && frames.head?.bind Frame.pendingKey == some (js "audit"))

/-- The loop over the tokens, with the innermost frame in front.  Nothing where
`JSON.parse` throws. -/
def walk : List Frame → List (JsString × JsString) → Option (Option JsString)
  | _, [] => some none
  | frames, (text, after) :: rest =>
      if text = js "\x7b" ∨ text = js "[" then
        walk (⟨text.headD 0, [], opensAudit frames, none⟩ :: frames) rest
      else if text = js "\x7d" ∨ text = js "]" then walk frames.tail rest
      else
        match frames with
        | [] => walk [] rest
        | parent :: outer =>
            if parent.kind = 0x7B ∧ startsWithColon after then
              (parseKey text).bind fun key =>
                if !parent.audit && parent.keys.contains key then some (some key)
                else walk ({ parent with
                  keys := parent.keys.insert key, pendingKey := some key } :: outer) rest
            else walk (parent :: outer) rest

/-- `duplicateDecisionKey`. -/
def duplicateDecisionKey (raw : JsString) : Option (Option JsString) :=
  walk [] (tokens raw)

/-! ## What it looks for -/

/-- Where a value stands: it is the document, it decides, or it is inside the audit
metadata of the document. -/
inductive Scope where
  | document
  | decision
  | audit
  deriving DecidableEq

def Scope.item : Scope → Scope
  | document => decision
  | scope => scope

def Scope.member : Scope → JsString → Scope
  | document, key => if key = js "audit" then audit else decision
  | scope, _ => scope

/-- An object outside the audit metadata has the key twice. -/
inductive Repeated : Scope → JsString → JsonTree → Prop
  | here {scope key members} (hscope : scope ≠ .audit)
      (h : List.Duplicate key (members.map Prod.fst)) :
      Repeated scope key (.obj members)
  | item {scope key items tree} (htree : tree ∈ items) (h : Repeated scope.item key tree) :
      Repeated scope key (.arr items)
  | member {scope key members member} (hmember : member ∈ members)
      (h : Repeated (scope.member member.1) key member.2) : Repeated scope key (.obj members)

mutual

/-- The first key that is found. -/
def firstRepeat : Scope → JsonTree → Option JsString
  | _, .leaf => none
  | scope, .arr items => firstInItems scope.item items
  | scope, .obj members => firstInMembers scope [] members

def firstInItems : Scope → List JsonTree → Option JsString
  | _, [] => none
  | scope, tree :: rest => (firstRepeat scope tree).or (firstInItems scope rest)

def firstInMembers : Scope → List JsString → List (JsString × JsonTree) → Option JsString
  | _, _, [] => none
  | scope, seen, (key, tree) :: rest =>
      if scope ≠ .audit ∧ key ∈ seen then some key
      else (firstRepeat (scope.member key) tree).or (firstInMembers scope (seen.insert key) rest)

end

/-! ## The tokens of a JSON text -/

theorem tokensFrom_append (text after : JsString) :
    tokensFrom text.length (text ++ after) = tokensFrom 0 after := by
  induction text with
  | nil => rfl
  | cons u rest ih =>
      rw [List.length_cons, List.cons_append, tokensFrom]
      exact ih

theorem tokens_of_tokenAt {u : CodeUnit} {text after : JsString}
    (h : tokenAt (u :: (text ++ after)) = some (u :: text, after)) :
    tokens (u :: (text ++ after)) = (u :: text, after) :: tokens after := by
  rw [tokens, tokensFrom, h]
  simp only [List.length_cons, Nat.add_sub_cancel, tokensFrom_append]
  rfl

/-- Units that begin no token. -/
def IsBare (u : CodeUnit) : Prop :=
  u ≠ 0x22 ∧ anyOf "\x7b\x7d[]" u = false

theorem tokens_bare {text : JsString} (h : ∀ u ∈ text, IsBare u) (after : JsString) :
    tokens (text ++ after) = tokens after := by
  induction text with
  | nil => rfl
  | cons u rest ih =>
      obtain ⟨⟨hquote, hbracket⟩, hrest⟩ := List.forall_mem_cons.mp h
      have hnone : tokenAt (u :: (rest ++ after)) = none := by
        rw [tokenAt, if_neg hquote, if_neg (by rw [hbracket]; exact Bool.false_ne_true)]
      rw [List.cons_append, tokens, tokensFrom, hnone]
      exact ih hrest

/-- A class of units that begin no token. -/
theorem isBare_of_class {p : CodeUnit → Bool} {u : CodeUnit} (hu : p u = true)
    (h : (js "\"\x7b\x7d[]").all (fun v => !p v) = true) : IsBare u := by
  have hne (v : CodeUnit) (hv : v ∈ js "\"\x7b\x7d[]") : u ≠ v := by
    rintro rfl
    have hnot := List.all_eq_true.mp h u hv
    rw [hu] at hnot
    cases hnot
  have hlist : js "\"\x7b\x7d[]" = 0x22 :: js "\x7b\x7d[]" := by decide
  rw [hlist] at hne
  refine ⟨hne _ List.mem_cons_self, Bool.eq_false_iff.mpr fun hbracket => ?_⟩
  exact hne u (List.mem_cons_of_mem _ (List.contains_iff_mem.mp hbracket)) rfl

theorem tokens_space {space : JsString} (h : JsonSpace space) (after : JsString) :
    tokens (space ++ after) = tokens after :=
  tokens_bare (fun u hu => isBare_of_class (h u hu) (by decide)) after

theorem tokens_comma (after : JsString) : tokens (0x2C :: after) = tokens after :=
  @tokens_bare [0x2C] (List.forall_mem_singleton.mpr ⟨by decide, by decide⟩) after

theorem tokens_colon (after : JsString) : tokens (0x3A :: after) = tokens after :=
  @tokens_bare [0x3A] (List.forall_mem_singleton.mpr ⟨by decide, by decide⟩) after

theorem tokens_bracket {u : CodeUnit} (h : anyOf "\x7b\x7d[]" u = true) (after : JsString) :
    tokens (u :: after) = ([u], after) :: tokens after := by
  refine @tokens_of_tokenAt u [] after ?_
  have hquote : u ≠ 0x22 := by
    rintro rfl
    exact absurd h (by decide)
  rw [List.nil_append, tokenAt, if_neg hquote, if_pos h]

theorem quotedUnits_cons {u : CodeUnit} {rest : JsString} (hquote : u ≠ 0x22)
    (hescape : u ≠ 0x5C) :
    quotedUnits (u :: rest) = (quotedUnits rest).map fun (units, rest) => (u :: units, rest) := by
  rw [quotedUnits.eq_def]
  simp only [if_neg hquote, if_neg hescape]

theorem quotedUnits_escape {v : CodeUnit} {rest : JsString} (hdot : isDot v = true) :
    quotedUnits (0x5C :: v :: rest) =
      (quotedUnits rest).map fun (units, rest) => (0x5C :: v :: units, rest) := by
  have hquote : (0x5C : CodeUnit) ≠ 0x22 := by decide
  rw [quotedUnits.eq_def]
  simp only [if_neg hquote, if_true, hdot]

/-- What may stand behind a backslash is no line terminator. -/
theorem isDot_of_unescape {u v : CodeUnit} (h : unescape v = some u) : isDot v = true := by
  by_contra hdot
  rw [isDot, Bool.not_eq_true, Bool.not_eq_false'] at hdot
  have hmem : v ∈ [(0x0A : CodeUnit), 0x0D, 0x2028, 0x2029] := by
    simpa [isLineTerminator, or_assoc] using hdot
  have hnone : ∀ w ∈ [(0x0A : CodeUnit), 0x0D, 0x2028, 0x2029], (unescape w).isNone = true :=
    List.all_eq_true.mp (by decide)
  rw [Option.isNone_iff_eq_none.mp (hnone v hmem)] at h
  cases h

theorem hexValue_ne {u : CodeUnit} {n : ℕ} (h : hexValue u = some n) : u ≠ 0x22 ∧ u ≠ 0x5C := by
  constructor
  · rintro rfl
    have hnone : hexValue 0x22 = none := by decide
    rw [hnone] at h
    cases h
  · rintro rfl
    have hnone : hexValue 0x5C = none := by decide
    rw [hnone] at h
    cases h

theorem quotedUnits_units {units : JsString} (h : StringUnits units) (after : JsString) :
    quotedUnits (units ++ 0x22 :: after) = some (units ++ [0x22], after) := by
  induction h with
  | nil =>
      rw [List.nil_append, quotedUnits.eq_def]
      rfl
  | unit hquote hescape _ _ ih =>
      rw [List.cons_append, quotedUnits_cons hquote hescape, ih]
      rfl
  | escape hv _ ih =>
      rw [List.cons_append, List.cons_append, quotedUnits_escape (isDot_of_unescape hv), ih]
      rfl
  | hex hhex _ ih =>
      simp only [hexUnit, Option.bind_eq_bind, Option.bind_eq_some_iff] at hhex
      obtain ⟨_, ha, _, hb, _, hc, _, hd, -⟩ := hhex
      simp only [List.cons_append]
      rw [quotedUnits_escape (by decide), quotedUnits_cons (hexValue_ne ha).1 (hexValue_ne ha).2,
        quotedUnits_cons (hexValue_ne hb).1 (hexValue_ne hb).2,
        quotedUnits_cons (hexValue_ne hc).1 (hexValue_ne hc).2,
        quotedUnits_cons (hexValue_ne hd).1 (hexValue_ne hd).2, ih]
      rfl

theorem tokens_string {units : JsString} (h : StringUnits units) (after : JsString) :
    tokens (0x22 :: (units ++ 0x22 :: after)) =
      (0x22 :: (units ++ [0x22]), after) :: tokens after := by
  have hform : units ++ 0x22 :: after = (units ++ [0x22]) ++ after := by
    rw [List.append_assoc, List.singleton_append]
  have htoken : tokenAt (0x22 :: ((units ++ [0x22]) ++ after)) =
      some (0x22 :: (units ++ [0x22]), after) := by
    rw [← hform, tokenAt, if_pos rfl, quotedUnits_units h]
    rfl
  rw [hform, tokens_of_tokenAt htoken]

/-! ## The scan of a part -/

/-- Where a value stands with these frames open. -/
def scopeOf : List Frame → Scope
  | [] => .document
  | [frame] => if frame.audit || frame.pendingKey == some (js "audit") then .audit else .decision
  | frame :: _ :: _ => if frame.audit then .audit else .decision

theorem opensAudit_eq (frames : List Frame) :
    opensAudit frames = decide (scopeOf frames = .audit) := by
  match frames with
  | [] => rfl
  | [frame] =>
      simp only [opensAudit, scopeOf]
      split_ifs with h
      · simpa using h
      · simpa using h
  | frame :: other :: rest =>
      simp only [opensAudit, scopeOf]
      split_ifs with h <;> simp [h]

/-- The scope of the items of an array that was opened. -/
theorem scopeOf_array (outer : List Frame) :
    scopeOf (⟨0x5B, [], opensAudit outer, none⟩ :: outer) = (scopeOf outer).item := by
  rw [opensAudit_eq]
  match outer with
  | [] => rfl
  | frame :: rest =>
      have hdocument : scopeOf (frame :: rest) ≠ .document := by
        cases rest <;> simp only [scopeOf] <;> split_ifs <;> simp
      cases hscope : scopeOf (frame :: rest) with
      | document => exact absurd hscope hdocument
      | decision => rfl
      | audit => rfl

/-- The scope of a value behind its key. -/
theorem scopeOf_member {frame : Frame} {outer : List Frame} {key : JsString}
    (haudit : frame.audit = decide (scopeOf outer = .audit))
    (hkey : frame.pendingKey = some key) :
    scopeOf (frame :: outer) = (scopeOf outer).member key := by
  match outer with
  | [] =>
      have hfalse : frame.audit = false := haudit
      rw [scopeOf, scopeOf, hfalse, hkey]
      simp [Scope.member]
  | other :: rest =>
      have hdocument : scopeOf (other :: rest) ≠ .document := by
        cases rest <;> simp only [scopeOf] <;> split_ifs <;> simp
      rw [scopeOf, haudit]
      cases hscope : scopeOf (other :: rest) with
      | document => exact absurd hscope hdocument
      | decision => rfl
      | audit => rfl

/-- The frame behind some members. -/
def visited (frame : Frame) (members : List (JsString × JsonTree)) : Frame :=
  members.foldl (fun frame member =>
    { frame with keys := frame.keys.insert member.1, pendingKey := some member.1 }) frame

theorem visited_fields (frame : Frame) (members : List (JsString × JsonTree)) :
    (visited frame members).kind = frame.kind ∧ (visited frame members).audit = frame.audit := by
  induction members generalizing frame with
  | nil => exact ⟨rfl, rfl⟩
  | cons member members ih => exact ih _

/-- The scan goes on behind a part, or it has found a key. -/
def resume (frames : List Frame) (after : JsString) : Option JsString → Option (Option JsString)
  | some key => some (some key)
  | none => walk frames (tokens after)

theorem resume_or {frames : List Frame} {after : JsString} {first second : Option JsString} :
    resume frames after (first.or second) =
      match first with
      | some key => some (some key)
      | none => resume frames after second := by
  cases first <;> rfl

theorem firstInMembers_cons (scope : Scope) (seen : List JsString) (key : JsString)
    (tree : JsonTree) (rest : List (JsString × JsonTree)) :
    firstInMembers scope seen ((key, tree) :: rest) =
      (firstInMembers scope seen [(key, tree)]).or
        (firstInMembers scope (seen.insert key) rest) := by
  rw [firstInMembers, firstInMembers]
  split_ifs with hseen
  · rfl
  · rw [firstInMembers, Option.or_none]

/-- What the scan of a part does. -/
def Walked : JsonNode → JsString → Prop
  | .container tree, text | .value tree, text | .element tree, text =>
      ∀ frames after, startsWithColon after = false →
        walk frames (tokens (text ++ after)) =
          resume frames after (firstRepeat (scopeOf frames) tree)
  | .elements items, text =>
      ∀ frames after, startsWithColon after = false →
        walk frames (tokens (text ++ after)) =
          resume frames after (firstInItems (scopeOf frames) items)
  | .member key tree, text =>
      ∀ frame outer after, frame.kind = 0x7B → frame.audit = decide (scopeOf outer = .audit) →
        startsWithColon after = false →
          walk (frame :: outer) (tokens (text ++ after)) =
            resume (visited frame [(key, tree)] :: outer) after
              (firstInMembers (scopeOf outer) frame.keys [(key, tree)])
  | .members members, text =>
      ∀ frame outer after, frame.kind = 0x7B → frame.audit = decide (scopeOf outer = .audit) →
        startsWithColon after = false →
          walk (frame :: outer) (tokens (text ++ after)) =
            resume (visited frame members :: outer) after
              (firstInMembers (scopeOf outer) frame.keys members)

theorem startsWithColon_cons {u : CodeUnit} (hspace : isWhiteSpace u = false) (hcolon : u ≠ 0x3A)
    (rest : JsString) : startsWithColon (u :: rest) = false := by
  rw [startsWithColon, List.dropWhile_cons_of_neg (by rw [hspace]; exact Bool.false_ne_true)]
  simpa using hcolon

theorem startsWithColon_space {space : JsString} (h : JsonSpace space) (after : JsString) :
    startsWithColon (space ++ after) = startsWithColon after := by
  have hspace : ∀ u ∈ space, isWhiteSpace u = true := by
    intro u hu
    have hu := h u hu
    simp only [isJsonSpace, Bool.or_eq_true, beq_iff_eq, or_assoc] at hu
    rcases hu with rfl | rfl | rfl | rfl <;> decide
  rw [startsWithColon, List.dropWhile_append_of_pos hspace]
  rfl

theorem walk_bracket (frames : List Frame) (u : CodeUnit) (after : JsString)
    (rest : List (JsString × JsString)) (hu : anyOf "\x7b\x7d[]" u = true) :
    walk frames (([u], after) :: rest) =
      if u = 0x7B ∨ u = 0x5B then walk (⟨u, [], opensAudit frames, none⟩ :: frames) rest
      else walk frames.tail rest := by
  have hbrace : js "\x7b" = [0x7B] := by decide
  have hbracket : js "[" = [0x5B] := by decide
  have hbrace' : js "\x7d" = [0x7D] := by decide
  have hbracket' : js "]" = [0x5D] := by decide
  have hcases : u = 0x7B ∨ u = 0x7D ∨ u = 0x5B ∨ u = 0x5D := by
    have hlist : js "\x7b\x7d[]" = [0x7B, 0x7D, 0x5B, 0x5D] := by decide
    simpa [anyOf, hlist] using hu
  rw [walk.eq_def]
  simp only [hbrace, hbracket, hbrace', hbracket', List.cons.injEq, and_true, List.headD_cons]
  split_ifs with hopen hclose
  · rfl
  · rfl
  · exact absurd hcases (by tauto)

/-- An opening bracket pushes a frame. -/
theorem walk_open {u : CodeUnit} (hu : u = 0x7B ∨ u = 0x5B) (frames : List Frame)
    (after : JsString) :
    walk frames (tokens (u :: after)) =
      walk (⟨u, [], opensAudit frames, none⟩ :: frames) (tokens after) := by
  have hbracket : anyOf "\x7b\x7d[]" u = true := by
    rcases hu with rfl | rfl <;> decide
  rw [tokens_bracket hbracket, walk_bracket _ _ _ _ hbracket, if_pos hu]

/-- A closing bracket removes it. -/
theorem walk_close {u : CodeUnit} (hu : u = 0x7D ∨ u = 0x5D) (frames : List Frame)
    (after : JsString) :
    walk frames (tokens (u :: after)) = walk frames.tail (tokens after) := by
  have hbracket : anyOf "\x7b\x7d[]" u = true := by
    rcases hu with rfl | rfl <;> decide
  have hopen : ¬(u = 0x7B ∨ u = 0x5B) := by
    rcases hu with rfl | rfl <;> decide
  rw [tokens_bracket hbracket, walk_bracket _ _ _ _ hbracket, if_neg hopen]

theorem quoted_ne_bracket (units : JsString) :
    ¬((0x22 :: units = js "\x7b" ∨ 0x22 :: units = js "[")) ∧
      ¬((0x22 :: units = js "\x7d" ∨ 0x22 :: units = js "]")) := by
  have hbrace : js "\x7b" = [0x7B] := by decide
  have hbracket : js "[" = [0x5B] := by decide
  have hbrace' : js "\x7d" = [0x7D] := by decide
  have hbracket' : js "]" = [0x5D] := by decide
  rw [hbrace, hbracket, hbrace', hbracket']
  simp

/-- A string that is no key is passed over. -/
theorem walk_string {units : JsString} (h : StringUnits units) (frames : List Frame)
    {after : JsString} (hcolon : startsWithColon after = false) :
    walk frames (tokens (0x22 :: (units ++ 0x22 :: after))) = walk frames (tokens after) := by
  obtain ⟨hopen, hclose⟩ := quoted_ne_bracket (units ++ [0x22])
  rw [tokens_string h, walk.eq_def]
  simp only [if_neg hopen, if_neg hclose]
  cases frames with
  | nil => rfl
  | cons parent outer => simp only [hcolon, Bool.false_eq_true, and_false, if_false]

/-- A key is found again, or it is noted. -/
theorem walk_key {units key : JsString} (h : IsKey units key) {frame : Frame}
    (outer : List Frame) {after : JsString} (hkind : frame.kind = 0x7B)
    (hcolon : startsWithColon after = true) :
    walk (frame :: outer) (tokens (0x22 :: (units ++ 0x22 :: after))) =
      if !frame.audit && frame.keys.contains key then some (some key)
      else walk ({ frame with keys := frame.keys.insert key, pendingKey := some key } :: outer)
        (tokens after) := by
  obtain ⟨hopen, hclose⟩ := quoted_ne_bracket (units ++ [0x22])
  have hparse : parseKey (0x22 :: (units ++ [0x22])) = some key := by
    rw [parseKey, List.tail_cons, h.2]
  rw [tokens_string h.1, walk, if_neg hopen, if_neg hclose]
  simp only [hkind, hcolon, and_self, if_true, hparse, Option.bind_some]

/-- **The scan of a part** goes on behind it, or stops with the key that the search finds. -/
theorem walked_of_hasTree {node : JsonNode} {text : JsString} (h : HasTree node text) :
    Walked node text := by
  have hcloseBrace (after : JsString) : startsWithColon (0x7D :: after) = false :=
    startsWithColon_cons (by decide) (by decide) _
  have hcloseBracket (after : JsString) : startsWithColon (0x5D :: after) = false :=
    startsWithColon_cons (by decide) (by decide) _
  have hcomma (after : JsString) : startsWithColon (0x2C :: after) = false :=
    startsWithColon_cons (by decide) (by decide) _
  induction h with
  | emptyArray h =>
      intro frames after _
      rw [List.cons_append, List.append_assoc, List.singleton_append, walk_open (.inr rfl),
        tokens_space h, walk_close (.inr rfl)]
      rfl
  | array _ ih =>
      intro frames after _
      rw [List.cons_append, List.append_assoc, List.singleton_append, walk_open (.inr rfl),
        ih _ _ (hcloseBracket after), scopeOf_array, firstRepeat]
      cases firstInItems (scopeOf frames).item _ with
      | some key => rfl
      | none => exact walk_close (.inr rfl) _ _
  | emptyObject h =>
      intro frames after _
      rw [List.cons_append, List.append_assoc, List.singleton_append, walk_open (.inl rfl),
        tokens_space h, walk_close (.inl rfl)]
      rfl
  | object _ ih =>
      intro frames after _
      rw [List.cons_append, List.append_assoc, List.singleton_append, walk_open (.inl rfl),
        ih _ _ _ rfl (opensAudit_eq frames) (hcloseBrace after), firstRepeat]
      cases firstInMembers (scopeOf frames) [] _ with
      | some key => rfl
      | none => exact walk_close (.inl rfl) _ _
  | word h =>
      intro frames after _
      rw [tokens_bare fun u hu => ?_]
      · rfl
      · simp only [List.mem_cons, List.not_mem_nil, or_false] at h
        rcases h with rfl | rfl | rfl
        · exact isBare_of_class (p := (js "null").contains) (List.contains_iff_mem.mpr hu)
            (by decide)
        · exact isBare_of_class (p := (js "true").contains) (List.contains_iff_mem.mpr hu)
            (by decide)
        · exact isBare_of_class (p := (js "false").contains) (List.contains_iff_mem.mpr hu)
            (by decide)
  | number h =>
      intro frames after _
      rw [tokens_bare fun u hu => isBare_of_class (isNumberUnit_of_mem h hu) (by decide)]
      rfl
  | string h =>
      intro frames after hcolon
      obtain ⟨units, hunits, rfl⟩ := h
      rw [List.cons_append, List.append_assoc, List.singleton_append,
        walk_string hunits frames hcolon]
      rfl
  | nested _ ih => exact ih
  | @element tree before text space hbefore _ hspace ih =>
      intro frames after hcolon
      rw [List.append_assoc, List.append_assoc, tokens_space hbefore,
        ih _ _ (by rwa [startsWithColon_space hspace])]
      cases firstRepeat (scopeOf frames) tree with
      | some key => rfl
      | none => rw [resume, tokens_space hspace, resume]
  | lastElement _ ih =>
      intro frames after hcolon
      rw [ih _ _ hcolon, firstInItems, firstInItems, Option.or_none]
  | @elements tree items text rest _ _ ih ihrest =>
      intro frames after hcolon
      rw [List.append_assoc, List.cons_append, ih _ _ (hcomma _), firstInItems, resume_or]
      cases firstRepeat (scopeOf frames) tree with
      | some key => rfl
      | none => rw [resume, tokens_comma, ihrest _ _ hcolon]
  | @member key tree before units space text hbefore hkey hspace _ ih =>
      intro frame outer after hkind haudit hcolon
      -- the key is read with the colon that comes after it
      have hform : before ++ (0x22 :: (units ++ 0x22 :: (space ++ 0x3A :: text))) ++ after =
          before ++ (0x22 :: (units ++ 0x22 :: (space ++ 0x3A :: (text ++ after)))) := by
        simp
      have hfound : startsWithColon (space ++ 0x3A :: (text ++ after)) = true := by
        rw [startsWithColon_space hspace]
        rfl
      have hseen : (!frame.audit && frame.keys.contains key) =
          decide (scopeOf outer ≠ .audit ∧ key ∈ frame.keys) := by
        rw [haudit]
        simp
      rw [hform, tokens_space hbefore, walk_key hkey outer hkind hfound, hseen, firstInMembers]
      by_cases hrepeat : scopeOf outer ≠ .audit ∧ key ∈ frame.keys
      · rw [if_pos (decide_eq_true hrepeat), if_pos hrepeat]
        rfl
      · have hscope : scopeOf ({ frame with
            keys := frame.keys.insert key, pendingKey := some key } :: outer) =
              (scopeOf outer).member key :=
          scopeOf_member haudit rfl
        rw [if_neg (by simpa using hrepeat), if_neg hrepeat, tokens_space hspace, tokens_colon,
          ih _ _ hcolon, hscope, firstInMembers, Option.or_none]
        rfl
  | lastMember _ ih => exact ih
  | @members key tree members text rest _ _ ih ihrest =>
      intro frame outer after hkind haudit hcolon
      -- the next member is read in the same object, with one more key seen
      have hfields := visited_fields frame [(key, tree)]
      rw [List.append_assoc, List.cons_append, ih _ _ _ hkind haudit (hcomma _),
        firstInMembers_cons _ _ key tree members, resume_or]
      cases firstInMembers (scopeOf outer) frame.keys [(key, tree)] with
      | some key => rfl
      | none =>
          rw [resume, tokens_comma, ihrest _ _ _ (hfields.1.trans hkind)
            (hfields.2.trans haudit) hcolon]
          rfl

/-! ## What the search finds -/

/-- A key is there again, for an object in which some keys were seen. -/
def RepeatedIn (scope : Scope) (seen : List JsString) (key : JsString)
    (members : List (JsString × JsonTree)) : Prop :=
  (scope ≠ .audit ∧ (key ∈ seen ∧ key ∈ members.map Prod.fst ∨
    List.Duplicate key (members.map Prod.fst))) ∨
  ∃ member ∈ members, Repeated (scope.member member.1) key member.2

theorem repeatedIn_cons {scope : Scope} {seen : List JsString} {key key' : JsString}
    {tree : JsonTree} {rest : List (JsString × JsonTree)} :
    RepeatedIn scope seen key ((key', tree) :: rest) ↔
      (scope ≠ .audit ∧ key' ∈ seen ∧ key = key') ∨ Repeated (scope.member key') key tree ∨
        RepeatedIn scope (seen.insert key') key rest := by
  simp only [RepeatedIn, List.map_cons, List.mem_cons, List.duplicate_cons_iff, List.mem_insert_iff,
    exists_eq_or_imp]
  constructor
  · rintro (⟨hscope, ⟨hseen, rfl | hmem⟩ | ⟨rfl, hmem⟩ | hdup⟩ | h)
    · exact .inl ⟨hscope, hseen, rfl⟩
    · exact .inr (.inr (.inl ⟨hscope, .inl ⟨.inr hseen, hmem⟩⟩))
    · exact .inr (.inr (.inl ⟨hscope, .inl ⟨.inl rfl, hmem⟩⟩))
    · exact .inr (.inr (.inl ⟨hscope, .inr hdup⟩))
    · tauto
  · rintro (⟨hscope, hseen, rfl⟩ | h | ⟨hscope, ⟨rfl | hseen, hmem⟩ | hdup⟩ | h)
    · exact .inl ⟨hscope, .inl ⟨hseen, .inl rfl⟩⟩
    · tauto
    · exact .inl ⟨hscope, .inr (.inl ⟨rfl, hmem⟩)⟩
    · exact .inl ⟨hscope, .inl ⟨hseen, .inr hmem⟩⟩
    · exact .inl ⟨hscope, .inr (.inr hdup)⟩
    · tauto

theorem repeated_obj_iff {scope : Scope} {key : JsString} {members : List (JsString × JsonTree)} :
    Repeated scope key (.obj members) ↔ RepeatedIn scope [] key members := by
  constructor
  · rintro (⟨hscope, h⟩ | _ | ⟨hmember, h⟩)
    · exact .inl ⟨hscope, .inr h⟩
    · exact .inr ⟨_, hmember, h⟩
  · rintro (⟨hscope, ⟨hseen, -⟩ | h⟩ | ⟨member, hmember, h⟩)
    · cases hseen
    · exact .here hscope h
    · exact .member hmember h

mutual

/-- What is found is a key that an object has twice. -/
theorem firstRepeat_some : ∀ (scope : Scope) (tree : JsonTree) {key : JsString},
    firstRepeat scope tree = some key → Repeated scope key tree
  | _, .leaf, _, h => nomatch h
  | scope, .arr items, _, h => by
      obtain ⟨tree, htree, hrepeated⟩ := firstInItems_some scope.item items h
      exact .item htree hrepeated
  | scope, .obj members, _, h =>
      repeated_obj_iff.2 (firstInMembers_some scope [] members h)

theorem firstInItems_some : ∀ (scope : Scope) (items : List JsonTree) {key : JsString},
    firstInItems scope items = some key → ∃ tree ∈ items, Repeated scope key tree
  | _, [], _, h => nomatch h
  | scope, tree :: rest, key, h => by
      rw [firstInItems, Option.or_eq_some_iff] at h
      rcases h with h | ⟨-, h⟩
      · exact ⟨tree, List.mem_cons_self, firstRepeat_some scope tree h⟩
      · obtain ⟨other, hother, hrepeated⟩ := firstInItems_some scope rest h
        exact ⟨other, List.mem_cons_of_mem _ hother, hrepeated⟩

theorem firstInMembers_some : ∀ (scope : Scope) (seen : List JsString)
    (members : List (JsString × JsonTree)) {key : JsString},
    firstInMembers scope seen members = some key → RepeatedIn scope seen key members
  | _, _, [], _, h => nomatch h
  | scope, seen, (key', tree) :: rest, key, h => by
      rw [firstInMembers] at h
      rw [repeatedIn_cons]
      split_ifs at h with hseen
      · exact .inl ⟨hseen.1, hseen.2, (Option.some.inj h).symm⟩
      · rcases Option.or_eq_some_iff.mp h with h | ⟨-, h⟩
        · exact .inr (.inl (firstRepeat_some (scope.member key') tree h))
        · exact .inr (.inr (firstInMembers_some scope (seen.insert key') rest h))

end

mutual

/-- Where nothing is found, no object has a key twice. -/
theorem firstRepeat_none : ∀ (scope : Scope) (tree : JsonTree) (key : JsString),
    firstRepeat scope tree = none → ¬Repeated scope key tree
  | _, .leaf, _, _ => fun h => nomatch h
  | scope, .arr items, key, hnone => fun h => by
      cases h with
      | item htree h => exact firstInItems_none scope.item items key hnone _ htree h
  | scope, .obj members, key, hnone => fun h =>
      firstInMembers_none scope [] members key hnone (repeated_obj_iff.1 h)

theorem firstInItems_none : ∀ (scope : Scope) (items : List JsonTree) (key : JsString),
    firstInItems scope items = none → ∀ tree ∈ items, ¬Repeated scope key tree
  | _, [], _, _ => fun _ h => nomatch h
  | scope, tree :: rest, key, hnone => by
      rw [firstInItems, Option.or_eq_none_iff] at hnone
      exact List.forall_mem_cons.mpr ⟨firstRepeat_none scope tree key hnone.1,
        firstInItems_none scope rest key hnone.2⟩

theorem firstInMembers_none : ∀ (scope : Scope) (seen : List JsString)
    (members : List (JsString × JsonTree)) (key : JsString),
    firstInMembers scope seen members = none → ¬RepeatedIn scope seen key members
  | scope, seen, [], key, _ => by
      simp [RepeatedIn]
  | scope, seen, (key', tree) :: rest, key, hnone => by
      rw [firstInMembers] at hnone
      split_ifs at hnone with hseen
      rw [Option.or_eq_none_iff] at hnone
      rw [repeatedIn_cons]
      rintro (⟨hscope, hmem, -⟩ | h | h)
      · exact hseen ⟨hscope, hmem⟩
      · exact firstRepeat_none (scope.member key') tree key hnone.1 h
      · exact firstInMembers_none scope (seen.insert key') rest key hnone.2 h

end

/-- **A JSON text is scanned for the keys that its tree has twice.**  Every JSON text has a
tree; for each, nothing is reported if and only if no object outside the audit metadata
has a key twice, and what is reported is such a key. -/
theorem duplicateDecisionKey_spec (raw : JsString) (h : IsJson .element raw) :
    (∃ tree, HasTree (.element tree) raw) ∧
    ∀ tree, HasTree (.element tree) raw →
      (duplicateDecisionKey raw = some none ↔ ∀ key, ¬Repeated .document key tree) ∧
      ((∃ key, Repeated .document key tree) →
        ∃ key, duplicateDecisionKey raw = some (some key) ∧ Repeated .document key tree) := by
  refine ⟨hasSomeTree h, fun tree htree => ?_⟩
  -- the whole text is a part with nothing behind it
  have hscan : duplicateDecisionKey raw = resume [] [] (firstRepeat .document tree) := by
    have hwalk := walked_of_hasTree htree [] [] rfl
    rwa [List.append_nil] at hwalk
  cases hfirst : firstRepeat .document tree with
  | some key =>
      have hrepeated := firstRepeat_some .document tree hfirst
      have hsome : duplicateDecisionKey raw = some (some key) := by
        rw [hscan, hfirst, resume]
      refine ⟨⟨fun hnone => ?_, fun hnot => absurd hrepeated (hnot key)⟩,
        fun _ => ⟨key, hsome, hrepeated⟩⟩
      rw [hsome] at hnone
      cases hnone
  | none =>
      have hnot := fun key => firstRepeat_none .document tree key hfirst
      have hnone : duplicateDecisionKey raw = some none := by
        rw [hscan, hfirst]
        rfl
      exact ⟨⟨fun _ => hnot, fun _ => hnone⟩, fun ⟨key, hkey⟩ => absurd hkey (hnot key)⟩

/-- `\x7b"a":[],"\u0061":[]\x7d`: one key, written in two ways. -/
def escapedKeyText : JsString :=
  js "\x7b\"a\":[],\"\\u0061\":[]\x7d"

theorem isJson_escapedKeyText : IsJson .element escapedKeyText := by
  have hspace : JsonSpace [] := nofun
  have hempty : IsJson .element (js "[]") :=
    .element hspace (.nested (.emptyArray hspace)) hspace
  have hplain : JsonString (js "\"a\"") :=
    ⟨[0x61], .unit (by decide) (by decide) (by decide) .nil, by decide⟩
  have hescaped : JsonString (js "\"\\u0061\"") :=
    ⟨[0x5C, 0x75, 0x30, 0x30, 0x36, 0x31], .hex (u := 0x61) (by decide) .nil, by decide⟩
  have hfirst := IsJson.member hspace hplain hspace hempty
  have hsecond := IsJson.member hspace hescaped hspace hempty
  have hobject := IsJson.object (.members hfirst (.lastMember hsecond))
  have htext : escapedKeyText = [] ++ ((0x7B :: (([] ++ (js "\"a\"" ++ ([] ++ 0x3A :: js "[]"))) ++
      0x2C :: ([] ++ (js "\"\\u0061\"" ++ ([] ++ 0x3A :: js "[]"))) ++ [0x7D])) ++ []) := by
    decide
  rw [htext]
  exact .element hspace (.nested hobject) hspace

theorem duplicateDecisionKey_spec_escaped :
    ∃ tree, HasTree (.element tree) escapedKeyText ∧ ¬∀ key, ¬Repeated .document key tree := by
  have hspec := duplicateDecisionKey_spec escapedKeyText isJson_escapedKeyText
  obtain ⟨tree, htree⟩ := hspec.1
  refine ⟨tree, htree, fun hnot => ?_⟩
  have hnone := (hspec.2 tree htree).1.mpr hnot
  exact absurd hnone (by decide)

end Hepha.Exchange
