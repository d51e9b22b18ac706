import Hepha.Js.Decimal
import Hepha.Js.Parse

/-!
# The canonical text is that of one value

The review contracts, the store and the runtime guards each have an encoder of JSON values:
no white space, and the keys of an object sorted.  Content hashes and the detection of
replays rest on it, so a text must belong to one value only, up to the order in which an
object has its members.

## Strategy

The text is read back by `JSON.parse` (`exists_reads`), so that values with one text are
both the same as what is read from it.  In the other direction the text is that of the
sorted members, which do not depend on their order (`sortedMembers_eq`).
-/

namespace Hepha

/-! ## JSON values -/

/-- Values that JSON can express, with different keys in each object. -/
inductive IsJsonValue : JsValue → Prop
  | null : IsJsonValue .null
  | bool (value : Bool) : IsJsonValue (.bool value)
  | num {value : JsNumber} (h : value.isFinite = true) : IsJsonValue (.num value)
  | str (text : JsString) : IsJsonValue (.str text)
  | arr {items : List JsValue} (h : ∀ item ∈ items, IsJsonValue item) : IsJsonValue (.arr items)
  | obj {properties : List (JsString × JsValue)} (hkeys : (properties.map Prod.fst).Nodup)
      (h : ∀ property ∈ properties, IsJsonValue property.2) : IsJsonValue (.obj properties)

/-- Equal up to the order of the members of objects.  A number is its value, which `0` and
`-0` have in common. -/
inductive SameUpToOrder : JsValue → JsValue → Prop
  | null : SameUpToOrder .null .null
  | bool (value : Bool) : SameUpToOrder (.bool value) (.bool value)
  | num (value : JsNumber) : SameUpToOrder (.num value) (.num value)
  | str (text : JsString) : SameUpToOrder (.str text) (.str text)
  | arr {items items' : List JsValue} (hlength : items.length = items'.length)
      (h : ∀ (i : ℕ) (item item' : JsValue), items[i]? = some item → items'[i]? = some item' →
        SameUpToOrder item item') : SameUpToOrder (.arr items) (.arr items')
  | obj {properties properties' : List (JsString × JsValue)}
      (hkeys : (properties.map Prod.fst).Perm (properties'.map Prod.fst))
      (h : ∀ key value value', (key, value) ∈ properties → (key, value') ∈ properties' →
        SameUpToOrder value value') : SameUpToOrder (.obj properties) (.obj properties')

theorem SameUpToOrder.symm {v w : JsValue} (h : SameUpToOrder v w) : SameUpToOrder w v := by
  induction h with
  | null => exact .null
  | bool value => exact .bool value
  | num value => exact .num value
  | str text => exact .str text
  | arr hlength _ ih =>
      exact .arr hlength.symm fun i item item' hitem hitem' => ih i item' item hitem' hitem
  | obj hkeys _ ih =>
      exact .obj hkeys.symm fun key value value' hvalue hvalue' =>
          ih key value' value hvalue' hvalue

theorem SameUpToOrder.trans {u v w : JsValue} (huv : SameUpToOrder u v)
    (hvw : SameUpToOrder v w) : SameUpToOrder u w := by
  induction huv generalizing w with
  | null => exact hvw
  | bool value => exact hvw
  | num value => exact hvw
  | str text => exact hvw
  | arr hlength h ih =>
      cases hvw with
      | arr hlength' h' =>
          refine .arr (hlength.trans hlength') fun i item item' hitem hitem' => ?_
          have hi := (List.getElem?_eq_some_iff.mp hitem).1
          have hmiddle := List.getElem?_eq_getElem (hlength ▸ hi)
          exact ih i item _ hitem hmiddle (h' i _ item' hmiddle hitem')
  | obj hkeys h ih =>
      cases hvw with
      | obj hkeys' h' =>
          refine .obj (hkeys.trans hkeys') fun key value value' hvalue hvalue' => ?_
          -- the middle object has a member with this key too
          have hkey := hkeys.mem_iff.mp (List.mem_map_of_mem (f := Prod.fst) hvalue)
          obtain ⟨⟨key', middle⟩, hmiddle, rfl⟩ := List.mem_map.mp hkey
          exact ih key' value middle hvalue hmiddle (h' key' middle value' hmiddle hvalue')

/-! ## The encoders -/

section Encoders

/-- The members by their keys. -/
def byKey {β : Type} (members : List (JsString × β)) : List (JsString × β) :=
  members.insertionSort fun a b => a.1 ≤ b.1

/-- The texts of the members by their keys, where each value has one. -/
def memberTexts (members : List (JsString × Except JsString JsString)) :
    Except JsString (List JsString) :=
  (byKey members).mapM fun member => member.2.map fun text => memberText (member.1, text)

variable (platform : Platform)

mutual

/-- The canonical text, where a value that is not JSON is rejected.  An object is encoded
in the order of its keys, so that the first one rejected decides the error. -/
def canonicalText (reject : JsValue → JsString) : JsValue → Except JsString JsString
  | .undefined => .error (reject .undefined)
  | .null => .ok (js "null")
  | .bool value => .ok (js (if value then "true" else "false"))
  | .num value =>
      if value.isFinite then .ok (platform.numberText value) else .error (reject (.num value))
  | .str value => .ok (quote value)
  | .arr items =>
      ((canonicalItems reject items).mapM id).map fun texts =>
        js "[" ++ [0x2C].intercalate texts ++ js "]"
  | .obj properties =>
      (memberTexts (canonicalMembers reject properties)).map fun texts =>
        js "\x7b" ++ [0x2C].intercalate texts ++ js "\x7d"

def canonicalItems (reject : JsValue → JsString) : List JsValue → List (Except JsString JsString)
  | [] => []
  | item :: rest => canonicalText reject item :: canonicalItems reject rest

def canonicalMembers (reject : JsValue → JsString) :
    List (JsString × JsValue) → List (JsString × Except JsString JsString)
  | [] => []
  | (key, value) :: rest => (key, canonicalText reject value) :: canonicalMembers reject rest

end

/-- `canonicalizeReviewArtifact`. -/
def canonicalizeReviewArtifact : JsValue → Except JsString JsString :=
  canonicalText platform fun value =>
    match value with
    | .num _ => js "Non-finite number in review artifact"
    | _ => js "Non-JSON-safe value in review artifact: undefined"

/-- `canonicalizeRuntimeJson`. -/
def canonicalizeRuntimeJson : JsValue → Except JsString JsString :=
  canonicalText platform fun _ =>
    js "Value cannot be represented by canonical runtime JSON."

end Encoders

/-- What `JSON.stringify` writes for a finite number is a token that is read back. -/
structure NumbersReadBack (platform : Platform) (numberValue : JsString → Option JsNumber) :
    Prop where
  value : ∀ number : JsNumber, number.isFinite = true →
    numberValue (platform.numberText number) = some number
  units : ∀ number : JsNumber, number.isFinite = true →
    platform.numberText number ≠ [] ∧
      ∀ u ∈ platform.numberText number, isNumberUnit u = true

/-! ## The text of a JSON value -/

section Text

variable {platform : Platform}

/-- The text that the encoders give to a JSON value. -/
def jsonText (platform : Platform) (value : JsValue) : JsString :=
  (canonicalizeJson platform value).getD []

theorem canonicalizeItems_eq {items : List JsValue}
    (h : ∀ item ∈ items, canonicalizeJson platform item = some (jsonText platform item)) :
    canonicalizeItems platform items = some (items.map (jsonText platform)) := by
  induction items with
  | nil => rfl
  | cons item rest ih =>
      rw [canonicalizeItems, h item List.mem_cons_self,
        ih fun other hother => h other (List.mem_cons_of_mem _ hother)]
      rfl

theorem canonicalizeProperties_eq {properties : List (JsString × JsValue)}
    (h : ∀ property ∈ properties,
      canonicalizeJson platform property.2 = some (jsonText platform property.2)) :
    canonicalizeProperties platform properties =
      some (properties.map fun property => (property.1, jsonText platform property.2)) := by
  induction properties with
  | nil => rfl
  | cons property rest ih =>
      obtain ⟨key, value⟩ := property
      rw [canonicalizeProperties, h (key, value) List.mem_cons_self,
        ih fun other hother => h other (List.mem_cons_of_mem _ hother)]
      rfl

/-- A JSON value has a text. -/
theorem canonicalizeJson_eq {value : JsValue} (h : IsJsonValue value) :
    canonicalizeJson platform value = some (jsonText platform value) := by
  suffices hsome : (canonicalizeJson platform value).isSome = true by
    rw [jsonText, Option.getD_eq_iff.mpr (.inl (Option.some_get hsome).symm), Option.some_get]
  induction h with
  | null => rfl
  | bool value => rfl
  | num h =>
      rw [canonicalizeJson, if_pos h]
      rfl
  | str text => rfl
  | arr h ih =>
      rw [canonicalizeJson, canonicalizeItems_eq]
      · rfl
      · intro item hitem
        obtain ⟨text, htext⟩ := Option.isSome_iff_exists.mp (ih item hitem)
        rw [jsonText, htext, Option.getD_some]
  | obj hkeys h ih =>
      rw [canonicalizeJson, canonicalizeProperties_eq]
      · rfl
      · intro property hproperty
        obtain ⟨text, htext⟩ := Option.isSome_iff_exists.mp (ih property hproperty)
        rw [jsonText, htext, Option.getD_some]

theorem jsonText_arr {items : List JsValue} (h : ∀ item ∈ items, IsJsonValue item) :
    jsonText platform (.arr items) =
      js "[" ++ [0x2C].intercalate (items.map (jsonText platform)) ++ js "]" := by
  rw [jsonText, canonicalizeJson,
    canonicalizeItems_eq fun item hitem => canonicalizeJson_eq (h item hitem)]
  rfl

theorem jsonText_obj {properties : List (JsString × JsValue)}
    (h : ∀ property ∈ properties, IsJsonValue property.2) :
    jsonText platform (.obj properties) = js "\x7b" ++ [0x2C].intercalate (sortedMembers
      (properties.map fun property => (property.1, jsonText platform property.2))) ++
        js "\x7d" := by
  rw [jsonText, canonicalizeJson, canonicalizeProperties_eq fun property hproperty =>
    canonicalizeJson_eq (h property hproperty)]
  rfl

theorem memberText_eq (member : JsString × JsString) :
    memberText member = quote member.1 ++ js ":" ++ member.2 := by
  rw [memberText, show js ":" = [0x3A] by decide, List.append_assoc, List.singleton_append]

theorem byKey_map {β γ : Type} (f : β → γ) (members : List (JsString × β)) :
    byKey (members.map fun member => (member.1, f member.2)) =
      (byKey members).map fun member => (member.1, f member.2) :=
  (List.map_insertionSort (fun a b : JsString × β => a.1 ≤ b.1)
    (fun a b : JsString × γ => a.1 ≤ b.1) (fun member => (member.1, f member.2)) members
    fun _ _ _ _ => Iff.rfl).symm

theorem sortedMembers_map (properties : List (JsString × JsValue)) :
    sortedMembers (properties.map fun property => (property.1, jsonText platform property.2)) =
      (byKey properties).map fun property =>
        memberText (property.1, jsonText platform property.2) := by
  have hsorted := byKey_map (jsonText platform) properties
  rw [byKey] at hsorted
  rw [sortedMembers, hsorted, List.map_map]
  exact List.map_congr_left fun property _ => (memberText_eq _).symm

/-- **The encoders agree** on JSON values, whatever they reject other values with. -/
theorem canonicalText_eq {reject : JsValue → JsString} {value : JsValue}
    (h : IsJsonValue value) :
    canonicalText platform reject value = .ok (jsonText platform value) := by
  induction h with
  | null => rfl
  | bool value => rfl
  | num h =>
      rw [canonicalText, if_pos h, jsonText, canonicalizeJson, if_pos h]
      rfl
  | str text => rfl
  | arr h ih =>
      rename_i items
      have hitems : canonicalItems platform reject items =
          items.map fun item => .ok (jsonText platform item) := by
        clear h
        induction items with
        | nil => rfl
        | cons item rest ihrest =>
            rw [canonicalItems, ih item List.mem_cons_self,
              ihrest fun other hother => ih other (List.mem_cons_of_mem _ hother)]
            rfl
      have htexts : (items.map fun item => (.ok (jsonText platform item) :
          Except JsString JsString)).mapM id = .ok (items.map (jsonText platform)) := by
        rw [List.mapM_map]
        exact mapM_ok fun _ _ => rfl
      rw [canonicalText, hitems, htexts, jsonText_arr h]
      rfl
  | obj hkeys h ih =>
      rename_i properties
      have hmembers : canonicalMembers platform reject properties =
          properties.map fun property => (property.1, .ok (jsonText platform property.2)) := by
        clear h hkeys
        induction properties with
        | nil => rfl
        | cons property rest ihrest =>
            obtain ⟨key, value⟩ := property
            rw [canonicalMembers, ih (key, value) List.mem_cons_self,
              ihrest fun other hother => ih other (List.mem_cons_of_mem _ hother)]
            rfl
      have htexts : memberTexts (properties.map fun property =>
          (property.1, .ok (jsonText platform property.2))) =
            .ok ((byKey properties).map fun property =>
              memberText (property.1, jsonText platform property.2)) := by
        rw [memberTexts, byKey_map fun value => Except.ok (jsonText platform value), List.mapM_map]
        exact mapM_ok fun _ _ => rfl
      rw [canonicalText, hmembers, htexts, jsonText_obj h, sortedMembers_map]
      rfl

/-- The members by their keys do not depend on the order in which they are given. -/
theorem byKey_eq_of_perm {members members' : List (JsString × JsString)}
    (hperm : members.Perm members') (hkeys : (members.map Prod.fst).Nodup) :
    byKey members = byKey members' := by
  -- members with different keys are in one order only
  have hsorted (list : List (JsString × JsString)) :
      (byKey list).Pairwise fun a b => a.1 ≤ b.1 :=
    haveI : Std.Total fun a b : JsString × JsString => a.1 ≤ b.1 :=
      ⟨fun a b => List.le_total a.1 b.1⟩
    haveI : IsTrans (JsString × JsString) fun a b => a.1 ≤ b.1 :=
      ⟨fun _ _ _ hab hbc => List.le_trans hab hbc⟩
    List.pairwise_insertionSort _ _
  refine List.Perm.eq_of_pairwise (fun a b ha hb hab hba => ?_) (hsorted _) (hsorted _) ?_
  · have ha' := (List.mem_insertionSort _).mp ha
    have hb' := hperm.mem_iff.mpr ((List.mem_insertionSort _).mp hb)
    exact List.inj_on_of_nodup_map hkeys ha' hb' (List.le_antisymm hab hba)
  · exact (List.perm_insertionSort _ _).trans
      (hperm.trans (List.perm_insertionSort _ _).symm)

/-- Members with the same keys and the same texts of their values. -/
theorem mem_map_of_keys {f : JsValue → JsString}
    {properties properties' : List (JsString × JsValue)}
    (hkeys : ∀ key ∈ properties.map Prod.fst, key ∈ properties'.map Prod.fst)
    (h : ∀ key value value', (key, value) ∈ properties → (key, value') ∈ properties' →
      f value = f value') {member : JsString × JsString}
    (hmember : member ∈ properties.map fun property => (property.1, f property.2)) :
    member ∈ properties'.map fun property => (property.1, f property.2) := by
  obtain ⟨⟨key, value⟩, hvalue, rfl⟩ := List.mem_map.mp hmember
  obtain ⟨⟨key', value'⟩, hvalue', rfl⟩ :=
    List.mem_map.mp (hkeys key (List.mem_map_of_mem (f := Prod.fst) hvalue))
  exact List.mem_map.mpr ⟨_, hvalue', by rw [h key' value value' hvalue hvalue']⟩

/-- Values that are equal up to the order of members have one text. -/
theorem jsonText_eq_of_same {v w : JsValue} (h : SameUpToOrder v w) (hv : IsJsonValue v)
    (hw : IsJsonValue w) : jsonText platform v = jsonText platform w := by
  induction h with
  | null => rfl
  | bool value => rfl
  | num value => rfl
  | str text => rfl
  | arr hlength h ih =>
      rename_i items items'
      cases hv with
      | arr hitems =>
          cases hw with
          | arr hitems' =>
              have hmap : items.map (jsonText platform) = items'.map (jsonText platform) := by
                refine List.ext_getElem? fun i => ?_
                rw [List.getElem?_map, List.getElem?_map]
                cases hitem : items[i]? with
                | none =>
                    rw [List.getElem?_eq_none_iff, hlength] at hitem
                    rw [List.getElem?_eq_none hitem]
                | some item =>
                    have hi := (List.getElem?_eq_some_iff.mp hitem).1
                    have hitem' := List.getElem?_eq_getElem (hlength ▸ hi)
                    rw [hitem', Option.map_some, Option.map_some,
                      ih i item _ hitem hitem' (hitems item (List.mem_of_getElem? hitem))
                        (hitems' _ (List.mem_of_getElem? hitem'))]
              rw [jsonText_arr hitems, jsonText_arr hitems', hmap]
  | obj hkeys h ih =>
      rename_i properties properties'
      cases hv with
      | obj hnodup hvalues =>
          cases hw with
          | obj hnodup' hvalues' =>
              have hmap (members : List (JsString × JsValue)) :
                  (members.map fun member => (member.1, jsonText platform member.2)).map Prod.fst =
                    members.map Prod.fst := List.map_map
              have hperm : (properties.map fun property =>
                  (property.1, jsonText platform property.2)).Perm
                    (properties'.map fun property =>
                      (property.1, jsonText platform property.2)) := by
                refine (List.perm_ext_iff_of_nodup ?_ ?_).mpr fun member => ?_
                · exact List.Nodup.of_map Prod.fst (by rwa [hmap])
                · exact List.Nodup.of_map Prod.fst (by rwa [hmap])
                · have heq : ∀ key value value', (key, value) ∈ properties →
                      (key, value') ∈ properties' →
                        jsonText platform value = jsonText platform value' :=
                    fun key value value' hvalue hvalue' =>
                      ih key value value' hvalue hvalue' (hvalues _ hvalue) (hvalues' _ hvalue')
                  exact ⟨mem_map_of_keys (fun _ => hkeys.mem_iff.mp) heq,
                    mem_map_of_keys (fun _ => hkeys.mem_iff.mpr) fun key value value' hvalue
                      hvalue' => (heq key value' value hvalue' hvalue).symm⟩
              rw [jsonText_obj hvalues, jsonText_obj hvalues', sortedMembers, sortedMembers]
              have hsorted := byKey_eq_of_perm hperm (by rwa [hmap])
              rw [byKey, byKey] at hsorted
              rw [hsorted]

end Text

/-! ## Reading the text -/

section Reading

variable {platform : Platform} {numberValue : JsString → Option JsNumber}

/-- **The text of a value is read** as a value that is equal up to the order of members. -/
theorem exists_reads (hnumbers : NumbersReadBack platform numberValue) {value : JsValue}
    (h : IsJsonValue value) :
    ∃ read, SameUpToOrder value read ∧ Reads numberValue (jsonText platform value) read := by
  induction h with
  | null => exact ⟨.null, .null, reads_null⟩
  | bool value => exact ⟨.bool value, .bool value, reads_bool value⟩
  | num h =>
      rename_i number
      refine ⟨.num number, .num number, ?_⟩
      have htext : jsonText platform (.num number) = platform.numberText number := by
        rw [jsonText, canonicalizeJson, if_pos h, Option.getD_some]
      rw [htext]
      exact reads_num (hnumbers.units number h).1 (hnumbers.units number h).2
        (hnumbers.value number h)
  | str text => exact ⟨.str text, .str text, reads_str text⟩
  | arr h ih =>
      rename_i items
      choose! read hsame hread using ih
      refine ⟨.arr (items.map read), .arr (List.length_map _).symm ?_, ?_⟩
      · intro i item item' hitem hitem'
        rw [List.getElem?_map, hitem, Option.map_some, Option.some.injEq] at hitem'
        exact hitem' ▸ hsame item (List.mem_of_getElem? hitem)
      · have harr := @reads_arr _ (items.map fun item => (jsonText platform item, read item))
          (List.forall_mem_map.mpr hread)
        rw [List.map_map, List.map_map] at harr
        rw [jsonText_arr h]
        exact harr
  | obj hkeys h ih =>
      rename_i properties
      have : Nonempty JsValue := ⟨.undefined⟩
      choose! read hsame hread using ih
      have hsorted : (byKey properties).Perm properties := List.perm_insertionSort _ _
      refine ⟨.obj ((byKey properties).map fun property => (property.1, read property)), .obj ?_ ?_,
        ?_⟩
      · rw [List.map_map]
        exact (hsorted.map Prod.fst).symm
      · intro key value value' hvalue hvalue'
        obtain ⟨⟨key', other⟩, hother, heq⟩ := List.mem_map.mp hvalue'
        cases heq
        have := List.inj_on_of_nodup_map hkeys hvalue (hsorted.mem_iff.mp hother) rfl
        cases this
        exact hsame _ hvalue
      · have hobj := @reads_obj _ ((byKey properties).map fun property =>
            (property.1, jsonText platform property.2, read property))
          (by
            rw [List.map_map]
            exact ((hsorted.map Prod.fst).nodup_iff).mpr hkeys)
          (List.forall_mem_map.mpr fun property hproperty =>
            hread property (hsorted.mem_iff.mp hproperty))
        rw [List.map_map, List.map_map] at hobj
        rw [jsonText_obj h, sortedMembers_map]
        exact hobj

end Reading

/-! ## An example -/

def integerText (value : ℤ) : JsString :=
  if value < 0 then 0x2D :: decimalText value.natAbs else decimalText value.natAbs

def integerValue : JsString → ℤ
  | [] => 0
  | u :: digits => if u = 0x2D then -decimal digits else decimal (u :: digits)

theorem integerValue_integerText (value : ℤ) : integerValue (integerText value) = value := by
  rw [integerText]
  split_ifs with hneg
  · rw [integerValue, if_pos rfl, decimal_decimalText]
    omega
  · obtain ⟨u, digits, heq⟩ := List.exists_cons_of_ne_nil (decimalText_ne_nil value.natAbs)
    have hdigit := isDigit_of_mem_decimalText (heq ▸ List.mem_cons_self : u ∈ decimalText _)
    have hminus : u ≠ 0x2D := by
      rintro rfl
      exact absurd hdigit (by decide)
    rw [heq, integerValue, if_neg hminus, ← heq, decimal_decimalText]
    omega

theorem integerText_units {value : ℤ} {u : CodeUnit} (hu : u ∈ integerText value) :
    isNumberUnit u = true ∧ u ≠ 0x65 := by
  have hdigit {v : CodeUnit} (hv : v ∈ decimalText value.natAbs) :
      isNumberUnit v = true ∧ v ≠ 0x65 := by
    have h := isDigit_of_mem_decimalText hv
    refine ⟨by simp [isNumberUnit, h], ?_⟩
    rintro rfl
    exact absurd h (by decide)
  rw [integerText] at hu
  split_ifs at hu
  · rcases List.mem_cons.mp hu with rfl | hu
    · decide
    · exact hdigit hu
  · exact hdigit hu

/-- The decimal text of an integer; a fraction is written with its part behind an `e`. -/
def exampleNumberText : JsNumber → JsString
  | .int value => integerText value
  | .fraction floor part => integerText floor ++ 0x65 :: decimalText part
  | _ => []

def exampleNumberValue (text : JsString) : Option JsNumber :=
  match text.dropWhile (· ≠ 0x65) with
  | [] => some (.int (integerValue text))
  | _ :: part => some (.fraction (integerValue (text.takeWhile (· ≠ 0x65))) (decimal part))

def examplePlatform : Platform :=
  ⟨fun _ => none, exampleNumberText, id⟩

theorem examplePlatform_readBack : NumbersReadBack examplePlatform exampleNumberValue where
  value := by
    have hunits (value : ℤ) : ∀ u ∈ integerText value, decide (u ≠ 0x65) = true :=
      fun u hu => decide_eq_true (integerText_units hu).2
    intro number hfinite
    change exampleNumberValue (exampleNumberText number) = some number
    cases number with
    | int value =>
        have hdrop : (integerText value).dropWhile (· ≠ 0x65) = [] :=
          List.dropWhile_eq_nil_iff.mpr (hunits value)
        rw [exampleNumberText, exampleNumberValue, hdrop, integerValue_integerText]
    | fraction floor part =>
        have hdrop : (integerText floor ++ 0x65 :: decimalText part).dropWhile (· ≠ 0x65) =
            0x65 :: decimalText part := by
          rw [List.dropWhile_append_of_pos (hunits floor)]
          rfl
        have htake : (integerText floor ++ 0x65 :: decimalText part).takeWhile (· ≠ 0x65) =
            integerText floor := by
          rw [List.takeWhile_append_of_pos (hunits floor)]
          exact List.append_nil _
        rw [exampleNumberText, exampleNumberValue, hdrop, htake, integerValue_integerText]
        exact congrArg (fun n => some (JsNumber.fraction floor n)) (decimal_decimalText part)
    | infinite positive => cases hfinite
    | nan => cases hfinite
  units := by
    have hne (value : ℤ) : integerText value ≠ [] := by
      rw [integerText]
      split_ifs
      · exact List.cons_ne_nil _ _
      · exact decimalText_ne_nil _
    intro number hfinite
    change exampleNumberText number ≠ [] ∧ ∀ u ∈ exampleNumberText number, isNumberUnit u = true
    cases number with
    | int value => exact ⟨hne value, fun u hu => (integerText_units hu).1⟩
    | fraction floor part =>
        refine ⟨List.append_ne_nil_of_left_ne_nil (hne floor) _, fun u hu => ?_⟩
        rcases List.mem_append.mp hu with hu | hu
        · exact (integerText_units hu).1
        · rcases List.mem_cons.mp hu with rfl | hu
          · decide
          · simp [isNumberUnit, isDigit_of_mem_decimalText hu]
    | infinite positive => cases hfinite
    | nan => cases hfinite

end Hepha
