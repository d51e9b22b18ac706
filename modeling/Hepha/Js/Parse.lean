import Hepha.Js.Collections
import Hepha.Js.JsonText

/-!
# `JSON.parse`

A JSON text is read from the left, with fuel for the nesting and the items; twice the
length of the text is enough.  What a number stands for is a parameter.  Where a key
occurs twice in an object, the last value stays, at the place of the first.
-/

namespace Hepha

open Pattern

def skipSpace (s : JsString) : JsString :=
  s.dropWhile isJsonSpace

/-- The units that the text of a number can hold. -/
def isNumberUnit (u : CodeUnit) : Bool :=
  isDigit u || u == 0x2D || u == 0x2B || u == 0x2E || u == 0x65 || u == 0x45

/-- A number of the grammar is a number token. -/
theorem isNumberUnit_of_mem {text : JsString} (h : JsonNumber text) {u : CodeUnit} (hu : u ∈ text) :
    isNumberUnit u = true := by
  obtain ⟨sign, integer, fraction, exponent, rfl, hsign, hinteger, hfraction, hexponent⟩ := h
  have hdigits {digits : JsString} (hdigits : Digits digits) (hu : u ∈ digits) :
      isNumberUnit u = true := by
    simp [isNumberUnit, hdigits.2 u hu]
  have hgiven {given : JsString} (hgiven : given.all isNumberUnit = true) (hu : u ∈ given) :
      isNumberUnit u = true :=
    List.all_eq_true.mp hgiven u hu
  have hsigns {sign : JsString} (hsign : sign ∈ [[], js "+", js "-"]) (hu : u ∈ sign) :
      isNumberUnit u = true := by
    simp only [List.mem_cons, List.not_mem_nil, or_false] at hsign
    rcases hsign with rfl | rfl | rfl
    · cases hu
    · exact hgiven (by decide) hu
    · exact hgiven (by decide) hu
  rw [List.mem_append, List.mem_append, List.mem_append] at hu
  rcases hu with ((hu | hu) | hu) | hu
  · refine hsigns ?_ hu
    simp only [List.mem_cons, List.not_mem_nil, or_false] at hsign ⊢
    tauto
  · rcases hinteger with rfl | ⟨hinteger, -⟩
    · exact hgiven (by decide) hu
    · exact hdigits hinteger hu
  · rcases hfraction with rfl | ⟨digits, hdigits', rfl⟩
    · cases hu
    · rcases List.mem_cons.mp hu with rfl | hu
      · decide
      · exact hdigits hdigits' hu
  · rcases hexponent with rfl | ⟨e, sign, digits, he, hsign, hdigits', rfl⟩
    · cases hu
    · rw [List.mem_append, List.mem_append] at hu
      rcases hu with (hu | hu) | hu
      · simp only [List.mem_cons, List.not_mem_nil, or_false] at he
        rcases he with rfl | rfl
        · exact hgiven (by decide) hu
        · exact hgiven (by decide) hu
      · exact hsigns hsign hu
      · exact hdigits hdigits' hu

def readWord (s : JsString) : Option (JsValue × JsString) :=
  if (js "null").isPrefixOf s then some (.null, s.drop 4)
  else if (js "true").isPrefixOf s then some (.bool true, s.drop 4)
  else if (js "false").isPrefixOf s then some (.bool false, s.drop 5)
  else none

/-- A key with its colon. -/
def readKey (s : JsString) : Option (JsString × JsString) :=
  match skipSpace s with
  | [] => none
  | u :: rest =>
      if u = 0x22 then
        (readQuoted rest).bind fun (key, rest) =>
          if (skipSpace rest).head? = some 0x3A then some (key, (skipSpace rest).tail) else none
      else none

/-- The properties of an object with these members. -/
def ownProperties (members : List (JsString × JsValue)) : List (JsString × JsValue) :=
  members.foldl (fun entries member => JsMap.set entries member.1 member.2) []

section Reading

variable (numberValue : JsString → Option JsNumber)

mutual

def readValue : ℕ → JsString → Option (JsValue × JsString)
  | 0, _ | _, [] => none
  | fuel + 1, u :: rest =>
      if u = 0x22 then (readQuoted rest).map fun (text, rest) => (.str text, rest)
      else if u = 0x5B then
        if (skipSpace rest).head? = some 0x5D then some (.arr [], (skipSpace rest).tail)
        else (readElements fuel rest).map fun (items, rest) => (.arr items, rest)
      else if u = 0x7B then
        if (skipSpace rest).head? = some 0x7D then some (.obj [], (skipSpace rest).tail)
        else (readMembers fuel rest).map fun (members, rest) => (.obj (ownProperties members), rest)
      else if isNumberUnit u then
        (numberValue ((u :: rest).takeWhile isNumberUnit)).map fun value =>
          (.num value, (u :: rest).dropWhile isNumberUnit)
      else readWord (u :: rest)

def readElements : ℕ → JsString → Option (List JsValue × JsString)
  | 0, _ => none
  | fuel + 1, s =>
      (readValue fuel (skipSpace s)).bind fun (value, rest) =>
        match skipSpace rest with
        | [] => none
        | u :: rest =>
            if u = 0x5D then some ([value], rest)
            else if u = 0x2C then
              (readElements fuel rest).map fun (values, rest) => (value :: values, rest)
            else none

def readMembers : ℕ → JsString → Option (List (JsString × JsValue) × JsString)
  | 0, _ => none
  | fuel + 1, s =>
      (readKey s).bind fun (key, rest) =>
        (readValue fuel (skipSpace rest)).bind fun (value, rest) =>
          match skipSpace rest with
          | [] => none
          | u :: rest =>
              if u = 0x7D then some ([(key, value)], rest)
              else if u = 0x2C then
                (readMembers fuel rest).map fun (members, rest) => ((key, value) :: members, rest)
              else none

end

/-- `JSON.parse`. -/
def parseJson (text : JsString) : Option JsValue :=
  (readValue numberValue (2 * text.length) (skipSpace text)).bind fun (value, rest) =>
    if (skipSpace rest).isEmpty then some value else none

/-! ## Reading what was written -/

/-- What follows a value begins with no unit that a number could hold. -/
def Stops (rest : JsString) : Prop :=
  ∀ u ∈ rest.head?, isNumberUnit u = false

/-- The text is read as the value, whatever follows it. -/
structure Reads (text : JsString) (value : JsValue) : Prop where
  begins : ∃ u tail, text = u :: tail ∧ isJsonSpace u = false ∧ u ≠ 0x5D
  read : ∀ {fuel rest}, 2 * text.length ≤ fuel → Stops rest →
    readValue numberValue fuel (text ++ rest) = some (value, rest)

variable {numberValue}

theorem skipSpace_cons {u : CodeUnit} {rest : JsString} (h : isJsonSpace u = false) :
    skipSpace (u :: rest) = u :: rest := by
  rw [skipSpace, List.dropWhile_cons_of_neg]
  rw [h]
  exact Bool.false_ne_true

theorem Reads.skipSpace {text rest : JsString} {value : JsValue}
    (h : Reads numberValue text value) : skipSpace (text ++ rest) = text ++ rest := by
  obtain ⟨u, tail, rfl, hspace, -⟩ := h.begins
  exact skipSpace_cons hspace

theorem stops_cons {u : CodeUnit} {rest : JsString} (h : isNumberUnit u = false) :
    Stops (u :: rest) := by
  intro v hv
  rw [List.head?_cons, Option.mem_some_iff] at hv
  exact hv ▸ h

/-- A text with a positive length needs fuel. -/
theorem Reads.of_cons {u : CodeUnit} {tail : JsString} {value : JsValue}
    (hspace : isJsonSpace u = false) (hbracket : u ≠ 0x5D)
    (h : ∀ {fuel rest}, 2 * tail.length ≤ fuel → Stops rest →
      readValue numberValue (fuel + 1) (u :: (tail ++ rest)) = some (value, rest)) :
    Reads numberValue (u :: tail) value where
  begins := ⟨u, tail, rfl, hspace, hbracket⟩
  read := by
    intro fuel rest hfuel hstops
    rw [List.length_cons] at hfuel
    cases fuel with
    | zero => omega
    | succ fuel => exact h (by omega) hstops

theorem reads_str (text : JsString) : Reads numberValue (quote text) (.str text) := by
  have hquote : quote text = 0x22 :: (quoteUnits text ++ [0x22]) := by
    rw [← List.append_nil (quote text), quote_append]
  rw [hquote]
  refine .of_cons (by decide) (by decide) fun {fuel rest} _ _ => ?_
  rw [readValue, if_pos rfl, List.append_assoc, List.singleton_append, readQuoted_quoteUnits]
  rfl

theorem reads_null : Reads numberValue (js "null") .null := by
  rw [show js "null" = [0x6E, 0x75, 0x6C, 0x6C] by decide]
  exact .of_cons (by decide) (by decide) fun _ _ => rfl

theorem reads_bool (value : Bool) :
    Reads numberValue (js (if value then "true" else "false")) (.bool value) := by
  cases value with
  | false =>
      rw [show js (if false then "true" else "false") = [0x66, 0x61, 0x6C, 0x73, 0x65] by decide]
      exact .of_cons (by decide) (by decide) fun _ _ => rfl
  | true =>
      rw [show js (if true then "true" else "false") = [0x74, 0x72, 0x75, 0x65] by decide]
      exact .of_cons (by decide) (by decide) fun _ _ => rfl

/-- The text of a number: its units, and what it stands for. -/
theorem reads_num {text : JsString} {value : JsNumber} (htext : text ≠ [])
    (hunits : ∀ u ∈ text, isNumberUnit u = true) (hvalue : numberValue text = some value) :
    Reads numberValue text (.num value) := by
  obtain ⟨u, tail, rfl⟩ := List.exists_cons_of_ne_nil htext
  have hu := hunits u List.mem_cons_self
  have hne : ∀ {v : CodeUnit}, isNumberUnit v = false → u ≠ v := by
    intro v hv heq
    rw [← heq, hu] at hv
    cases hv
  have hspace : isJsonSpace u = false := by
    have h20 := hne (v := 0x20) (by decide)
    have h09 := hne (v := 0x09) (by decide)
    have h0A := hne (v := 0x0A) (by decide)
    have h0D := hne (v := 0x0D) (by decide)
    simp [isJsonSpace, h20, h09, h0A, h0D]
  refine .of_cons hspace (hne (by decide)) fun {fuel rest} _ hstops => ?_
  have htake : (u :: (tail ++ rest)).takeWhile isNumberUnit = u :: tail := by
    rw [← List.cons_append, List.takeWhile_append_of_pos hunits]
    cases rest with
    | nil => simp
    | cons v rest => simp [hstops v rfl]
  have hdrop : (u :: (tail ++ rest)).dropWhile isNumberUnit = rest := by
    rw [← List.cons_append, List.dropWhile_append_of_pos hunits]
    cases rest with
    | nil => rfl
    | cons v rest => simp [hstops v rfl]
  rw [readValue, if_neg (hne (by decide)), if_neg (hne (by decide)), if_neg (hne (by decide)),
    if_pos hu, htake, hdrop, hvalue]
  rfl

/-- Joined texts: the first one, and the others with their commas. -/
theorem intercalate_comma (text : JsString) (texts : List JsString) :
    [0x2C].intercalate (text :: texts) = text ++ texts.flatMap (0x2C :: ·) := by
  induction texts generalizing text with
  | nil => rw [List.intercalate_singleton, List.flatMap_nil, List.append_nil]
  | cons next texts ih =>
      rw [List.intercalate_cons_cons, ih, List.flatMap_cons, List.append_assoc,
        List.singleton_append, List.cons_append]

theorem readElements_joined {item : JsString × JsValue} {items : List (JsString × JsValue)}
    (hitem : Reads numberValue item.1 item.2)
    (h : ∀ other ∈ items, Reads numberValue other.1 other.2) {fuel : ℕ} {rest : JsString}
    (hfuel : 2 * (item.1.length + (items.flatMap fun other => 0x2C :: other.1).length) < fuel) :
    readElements numberValue fuel
        (item.1 ++ ((items.flatMap fun other => 0x2C :: other.1) ++ 0x5D :: rest)) =
      some (item.2 :: items.map Prod.snd, rest) := by
  induction items generalizing item fuel with
  | nil =>
      obtain ⟨fuel, rfl⟩ :=
          Nat.exists_eq_add_one_of_ne_zero (Nat.ne_of_gt (Nat.zero_lt_of_lt hfuel))
      rw [List.flatMap_nil, List.nil_append, readElements, hitem.skipSpace,
        hitem.read (by omega) (stops_cons (by decide))]
      rfl
  | cons next items ih =>
      obtain ⟨fuel, rfl⟩ :=
          Nat.exists_eq_add_one_of_ne_zero (Nat.ne_of_gt (Nat.zero_lt_of_lt hfuel))
      rw [List.flatMap_cons, List.cons_append, List.length_cons, List.length_append] at hfuel
      have hless : 2 * (next.1.length +
          (items.flatMap fun other => 0x2C :: other.1).length) < fuel := by
        omega
      have hrest := ih (h next List.mem_cons_self)
        (fun other hother => h other (List.mem_cons_of_mem _ hother)) hless
      rw [List.flatMap_cons, List.cons_append, List.cons_append, List.append_assoc, readElements,
        hitem.skipSpace, hitem.read (by omega) (stops_cons (by decide)), Option.bind_some]
      simp only [skipSpace_cons (u := 0x2C) (by decide), hrest]
      rfl

/-- The text of a member. -/
def memberText (member : JsString × JsString) : JsString :=
  quote member.1 ++ 0x3A :: member.2

theorem readKey_memberText (member : JsString × JsString) (rest : JsString) :
    readKey (memberText member ++ rest) = some (member.1, member.2 ++ rest) := by
  rw [memberText, List.append_assoc, List.cons_append, quote_append, readKey,
    skipSpace_cons (by decide)]
  simp only [readQuoted_quoteUnits, Option.bind_some]
  rfl

theorem length_memberText (key text : JsString) :
    text.length < (memberText (key, text)).length := by
  simp only [memberText, List.length_append, List.length_cons]
  omega

theorem readMembers_joined {member : JsString × JsString × JsValue}
    {members : List (JsString × JsString × JsValue)}
    (hmember : Reads numberValue member.2.1 member.2.2)
    (h : ∀ other ∈ members, Reads numberValue other.2.1 other.2.2) {fuel : ℕ} {rest : JsString}
    (hfuel : 2 * ((memberText (member.1, member.2.1)).length +
      (members.flatMap fun other => 0x2C :: memberText (other.1, other.2.1)).length) < fuel) :
    readMembers numberValue fuel (memberText (member.1, member.2.1) ++
        ((members.flatMap fun other => 0x2C :: memberText (other.1, other.2.1)) ++ 0x7D :: rest)) =
      some ((member :: members).map fun other => (other.1, other.2.2), rest) := by
  have hlength := length_memberText member.1 member.2.1
  induction members generalizing member fuel with
  | nil =>
      obtain ⟨fuel, rfl⟩ :=
          Nat.exists_eq_add_one_of_ne_zero (Nat.ne_of_gt (Nat.zero_lt_of_lt hfuel))
      rw [List.flatMap_nil, List.nil_append, readMembers, readKey_memberText, Option.bind_some]
      simp only [hmember.skipSpace]
      rw [hmember.read (by omega) (stops_cons (by decide))]
      rfl
  | cons next members ih =>
      obtain ⟨fuel, rfl⟩ :=
          Nat.exists_eq_add_one_of_ne_zero (Nat.ne_of_gt (Nat.zero_lt_of_lt hfuel))
      rw [List.flatMap_cons, List.cons_append, List.length_cons, List.length_append] at hfuel
      have hless : 2 * ((memberText (next.1, next.2.1)).length +
          (members.flatMap fun other => 0x2C :: memberText (other.1, other.2.1)).length) <
            fuel := by
        omega
      have hrest := ih (h next List.mem_cons_self)
        (fun other hother => h other (List.mem_cons_of_mem _ hother)) hless
        (length_memberText _ _)
      rw [List.flatMap_cons, List.cons_append, List.cons_append, List.append_assoc, readMembers,
        readKey_memberText, Option.bind_some]
      simp only [hmember.skipSpace]
      rw [hmember.read (by omega) (stops_cons (by decide)), Option.bind_some]
      simp only [skipSpace_cons (u := 0x2C) (by decide), hrest]
      rfl

/-- **The text of an array** is read as the array. -/
theorem reads_arr {items : List (JsString × JsValue)}
    (h : ∀ item ∈ items, Reads numberValue item.1 item.2) :
    Reads numberValue (js "[" ++ [0x2C].intercalate (items.map Prod.fst) ++ js "]")
      (.arr (items.map Prod.snd)) := by
  rw [show js "[" = [0x5B] by decide, show js "]" = [0x5D] by decide, List.singleton_append,
    List.cons_append]
  refine .of_cons (by decide) (by decide) fun {fuel rest} hfuel _ => ?_
  rw [List.append_assoc, List.singleton_append, readValue, if_neg (by decide), if_pos rfl]
  cases items with
  | nil => rfl
  | cons item items =>
      have hitem := h item List.mem_cons_self
      obtain ⟨u, tail, htext, hspace, hbracket⟩ := hitem.begins
      have hjoined : [0x2C].intercalate ((item :: items).map Prod.fst) =
          item.1 ++ items.flatMap fun other => 0x2C :: other.1 := by
        rw [List.map_cons, intercalate_comma, List.flatMap_map]
      rw [hjoined, List.length_append, List.length_append, List.length_singleton] at hfuel
      have hlength : 2 * (item.1.length +
          (items.flatMap fun other => 0x2C :: other.1).length) < fuel := by
        omega
      rw [hjoined, List.append_assoc, hitem.skipSpace, if_neg, readElements_joined hitem
        (fun other hother => h other (List.mem_cons_of_mem _ hother)) hlength]
      · rfl
      · rw [htext, List.cons_append, List.head?_cons, Option.some.injEq]
        exact hbracket

/-- **The text of an object** with different keys is read as the object. -/
theorem reads_obj {members : List (JsString × JsString × JsValue)}
    (hkeys : (members.map Prod.fst).Nodup)
    (h : ∀ member ∈ members, Reads numberValue member.2.1 member.2.2) :
    Reads numberValue (js "\x7b" ++ [0x2C].intercalate
        (members.map fun member => memberText (member.1, member.2.1)) ++ js "\x7d")
      (.obj (members.map fun member => (member.1, member.2.2))) := by
  rw [show js "\x7b" = [0x7B] by decide, show js "\x7d" = [0x7D] by decide,
    List.singleton_append, List.cons_append]
  refine .of_cons (by decide) (by decide) fun {fuel rest} hfuel _ => ?_
  rw [List.append_assoc, List.singleton_append, readValue, if_neg (by decide),
    if_neg (by decide), if_pos rfl]
  have hown : ownProperties (members.map fun member => (member.1, member.2.2)) =
      members.map fun member => (member.1, member.2.2) := by
    rw [ownProperties, JsMap.foldl_set (by rwa [List.map_map]) [] (by simp), List.nil_append,
      List.map_id']
  cases members with
  | nil => rfl
  | cons member members =>
      have hjoined : [0x2C].intercalate ((member :: members).map fun member =>
          memberText (member.1, member.2.1)) = memberText (member.1, member.2.1) ++
            members.flatMap fun other => 0x2C :: memberText (other.1, other.2.1) := by
        rw [List.map_cons, intercalate_comma, List.flatMap_map]
      rw [hjoined, List.length_append, List.length_append, List.length_singleton] at hfuel
      rw [hjoined, List.append_assoc]
      have hlength : 2 * ((memberText (member.1, member.2.1)).length +
          (members.flatMap fun other => 0x2C :: memberText (other.1, other.2.1)).length) <
            fuel := by
        omega
      rw [if_neg, readMembers_joined (h member List.mem_cons_self)
        (fun other hother => h other (List.mem_cons_of_mem _ hother)) hlength, Option.map_some]
      · exact congrArg (fun properties => some (JsValue.obj properties, rest)) hown
      · rw [memberText, List.append_assoc, quote_append, skipSpace_cons (by decide)]
        exact fun heq => absurd heq (by simp)

/-- **A text that is read as a value** is parsed to it. -/
theorem parseJson_of_reads {text : JsString} {value : JsValue}
    (h : Reads numberValue text value) : parseJson numberValue text = some value := by
  have hspace : skipSpace (text ++ []) = text ++ [] := h.skipSpace
  have hread : readValue numberValue (2 * text.length) (text ++ []) = some (value, []) :=
    h.read (Nat.le_refl _) nofun
  rw [List.append_nil] at hspace hread
  rw [parseJson, hspace, hread]
  rfl

end Reading

end Hepha
