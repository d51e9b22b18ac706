import Hepha.Js.JsonText
import Hepha.Payload.Decode

/-!
# The payload is found exactly

An output is text with objects and arrays in it.  The scanner keeps two things apart
that the grammar of JSON keeps apart: delimiters, which nest, and the units of strings,
which do not count.  So a piece ends where the grammar ends it:

* `follow` is the scanner inside a piece, as long as the piece does not end;
* `passes_isJson`: after any part of the grammar it is in the state it was in before, by
  induction over the derivation;
* `scan_container`: a container is a piece, and `scan_prose`: text is passed over.

`modelJsonPayload_spec` puts these together, piece by piece.
-/

namespace Hepha.Payload

open Pattern

/-! ## The property -/

/-- Text without delimiters, in which backticks stand in runs of three or more. -/
structure IsProse (text : JsString) : Prop where
  plain : ∀ u ∈ text, isOpening u = false ∧ isClosing u = false
  runs : ∀ before run after, text = before ++ (run ++ after) → run ≠ [] →
    (∀ u ∈ run, u = backtick) → before.getLast? ≠ some backtick →
      after.head? ≠ some backtick → 3 ≤ run.length

/-- A text and, alternately, payloads and texts. -/
def assemble (first : JsString) (pieces : List (JsString × JsString)) : JsString :=
  first ++ pieces.flatMap fun piece => piece.1 ++ piece.2

/-! ## Inside a piece -/

/-- The scanner inside a piece; nothing where the piece ends or is in error. -/
def follow (s : Scanner) (c : CodeUnit) : Option Scanner :=
  if s.quoted then
    if s.escaped then some { s with escaped := false }
    else if c = 0x5C then some { s with escaped := true }
    else if c = 0x22 then some { s with quoted := false }
    else some s
  else if c = 0x22 then some { s with quoted := true }
  else if isOpening c then some { s with stack := c :: s.stack }
  else if isClosing c then
    match s.stack with
    | opening :: next :: rest =>
        if opening = openingOf c then some { s with stack := next :: rest } else none
    | _ => none
  else some s

section Inside

variable {parse : Parser} {source : JsString} {start i : ℕ} {c : CodeUnit} {s t : Scanner}

theorem scanInside_of_follow (h : follow s c = some t) :
    scanInside parse source start i c s = .ok t := by
  unfold follow at h
  unfold scanInside
  split_ifs at h ⊢ with hquoted hescaped hbackslash hend hquote hopening hclosing
  · exact congrArg Except.ok (Option.some.inj h)
  · exact congrArg Except.ok (Option.some.inj h)
  · exact congrArg Except.ok (Option.some.inj h)
  · exact congrArg Except.ok (Option.some.inj h)
  · exact congrArg Except.ok (Option.some.inj h)
  · exact congrArg Except.ok (Option.some.inj h)
  · -- a closing delimiter ends an inner container
    unfold closeDelimiter
    split at h
    · rename_i opening next rest hstack
      split_ifs at h with hmatch
      obtain rfl := Option.some.inj h
      simp [hstack, hmatch]
    · cases h
  · exact congrArg Except.ok (Option.some.inj h)

theorem start_of_follow (h : follow s c = some t) : t.start = s.start := by
  unfold follow at h
  grind

end Inside

/-- The scanner comes through a text unchanged. -/
def Passes (text : JsString) : Prop :=
  ∀ s : Scanner, s.quoted = false → s.escaped = false → s.stack ≠ [] →
    text.foldlM follow s = some s

theorem passes_nil : Passes [] :=
  fun _ _ _ _ => rfl

theorem Passes.append {text rest : JsString} (h : Passes text) (hrest : Passes rest) :
    Passes (text ++ rest) := by
  intro s hquoted hescaped hstack
  rw [List.foldlM_append, h s hquoted hescaped hstack]
  exact hrest s hquoted hescaped hstack

/-- A unit that is neither a quotation mark nor a delimiter. -/
def IsPlain (u : CodeUnit) : Prop :=
  u ≠ 0x22 ∧ isOpening u = false ∧ isClosing u = false

theorem passes_of_plain {text : JsString} (h : ∀ u ∈ text, IsPlain u) : Passes text := by
  induction text with
  | nil => exact passes_nil
  | cons u rest ih =>
      intro s hquoted hescaped hstack
      obtain ⟨⟨hquote, hopening, hclosing⟩, hrest⟩ := List.forall_mem_cons.mp h
      have hstep : follow s u = some s := by
        simp [follow, hquoted, hquote, hopening, hclosing]
      rw [List.foldlM_cons, hstep]
      exact ih hrest s hquoted hescaped hstack

/-- A class of units without quotation marks and delimiters. -/
theorem isPlain_of_class {p : CodeUnit → Bool} {u : CodeUnit} (hu : p u = true)
    (h : (js "\"[]\x7b\x7d").all (fun v => !p v) = true) : IsPlain u := by
  have hlist : js "\"[]\x7b\x7d" = [0x22, 0x5B, 0x5D, 0x7B, 0x7D] := by decide
  have hne (v : CodeUnit) (hv : v ∈ js "\"[]\x7b\x7d") : u ≠ v := by
    rintro rfl
    have hnot := List.all_eq_true.mp h u hv
    rw [hu] at hnot
    cases hnot
  rw [hlist] at hne
  refine ⟨hne _ (by decide), ?_, ?_⟩
  · simp [isOpening, hne 0x7B (by decide), hne 0x5B (by decide)]
  · simp [isClosing, hne 0x7D (by decide), hne 0x5D (by decide)]

theorem passes_of_class {p : CodeUnit → Bool} {text : JsString} (hp : ∀ u ∈ text, p u = true)
    (h : (js "\"[]\x7b\x7d").all (fun v => !p v) = true) : Passes text :=
  passes_of_plain fun u hu => isPlain_of_class (hp u hu) h

theorem passes_space {text : JsString} (h : JsonSpace text) : Passes text :=
  passes_of_class h (by decide)

theorem passes_digits {text : JsString} (h : Digits text) : Passes text :=
  passes_of_class h.2 (by decide)

/-- A given text of plain units. -/
theorem passes_js {literal : String}
    (h : (js "\"[]\x7b\x7d").all (fun v => !(js literal).contains v) = true) :
    Passes (js literal) :=
  passes_of_class (p := (js literal).contains) (fun _ hu => List.contains_iff_mem.mpr hu) h

theorem passes_number {text : JsString} (h : JsonNumber text) : Passes text := by
  obtain ⟨sign, integer, fraction, exponent, rfl, hsign, hinteger, hfraction, hexponent⟩ := h
  have hminus : Passes (js "-") := passes_js (by decide)
  refine (((?_ : Passes sign).append (?_ : Passes integer)).append
    (?_ : Passes fraction)).append (?_ : Passes exponent)
  · simp only [List.mem_cons, List.not_mem_nil, or_false] at hsign
    rcases hsign with rfl | rfl
    · exact passes_nil
    · exact hminus
  · rcases hinteger with rfl | ⟨hdigits, -⟩
    · exact passes_js (by decide)
    · exact passes_digits hdigits
  · rcases hfraction with rfl | ⟨digits, hdigits, rfl⟩
    · exact passes_nil
    · exact (@passes_js "." (by decide)).append (passes_digits hdigits)
  · rcases hexponent with rfl | ⟨e, sign, digits, he, hsign, hdigits, rfl⟩
    · exact passes_nil
    · refine ((?_ : Passes e).append (?_ : Passes sign)).append (passes_digits hdigits)
      · simp only [List.mem_cons, List.not_mem_nil, or_false] at he
        rcases he with rfl | rfl <;> exact passes_js (by decide)
      · simp only [List.mem_cons, List.not_mem_nil, or_false] at hsign
        rcases hsign with rfl | rfl | rfl
        · exact passes_nil
        · exact passes_js (by decide)
        · exact hminus

/-- The units of a string leave the scanner in the string. -/
theorem follow_units {units : JsString} (h : StringUnits units) {s : Scanner}
    (hquoted : s.quoted = true) (hescaped : s.escaped = false) :
    units.foldlM follow s = some s := by
  -- behind a backslash one unit is passed over, whatever it is
  have hescape (v : CodeUnit) (rest : JsString) :
      (0x5C :: v :: rest).foldlM follow s = rest.foldlM follow s := by
    have hfirst : follow s 0x5C = some { s with escaped := true } := by
      simp [follow, hquoted, hescaped]
    have hsecond : follow { s with escaped := true } v = some s := by
      cases s
      simp_all [follow]
    rw [List.foldlM_cons, hfirst, Option.bind_eq_bind, Option.bind_some, List.foldlM_cons, hsecond,
      Option.bind_eq_bind, Option.bind_some]
  have hunit {u : CodeUnit} {rest : JsString} (hquote : u ≠ 0x22) (hslash : u ≠ 0x5C) :
      (u :: rest).foldlM follow s = rest.foldlM follow s := by
    have hstep : follow s u = some s := by
      simp [follow, hquoted, hescaped, hquote, hslash]
    rw [List.foldlM_cons, hstep, Option.bind_eq_bind, Option.bind_some]
  have hdigit {u : CodeUnit} (hu : (hexValue u).isSome) : u ≠ 0x22 ∧ u ≠ 0x5C := by
    constructor <;> rintro rfl <;> exact absurd hu (by decide)
  induction h with
  | nil => rfl
  | unit hquote hslash _ _ ih => rw [hunit hquote hslash, ih]
  | escape _ _ ih => rw [hescape, ih]
  | @hex u a b c d rest hhex _ ih =>
      simp only [hexUnit, Option.bind_eq_bind, Option.bind_eq_some_iff] at hhex
      obtain ⟨_, ha, _, hb, _, hc, _, hd, -⟩ := hhex
      have hisSome {v : CodeUnit} {n : ℕ} (hv : hexValue v = some n) : (hexValue v).isSome := by
        rw [hv]
        rfl
      obtain ⟨ha, ha'⟩ := hdigit (hisSome ha)
      obtain ⟨hb, hb'⟩ := hdigit (hisSome hb)
      obtain ⟨hc, hc'⟩ := hdigit (hisSome hc)
      obtain ⟨hd, hd'⟩ := hdigit (hisSome hd)
      rw [hescape, hunit ha ha', hunit hb hb', hunit hc hc', hunit hd hd', ih]

theorem passes_string {text : JsString} (h : JsonString text) : Passes text := by
  obtain ⟨units, hunits, rfl⟩ := h
  intro s hquoted hescaped _
  have hopen : follow s 0x22 = some { s with quoted := true } := by
    simp [follow, hquoted]
  have hclose : follow { s with quoted := true } 0x22 = some s := by
    cases s
    simp_all [follow]
  have hunits' := follow_units hunits (s := { s with quoted := true }) rfl hescaped
  rw [List.foldlM_cons, hopen, Option.bind_eq_bind, Option.bind_some, List.foldlM_append, hunits',
    Option.bind_eq_bind, Option.bind_some, List.foldlM_cons, hclose]
  rfl

/-- A container in a piece. -/
theorem Passes.container {body : JsString} (h : Passes body) {opening closing : CodeUnit}
    (hopening : isOpening opening = true) (hquote : opening ≠ 0x22 ∧ closing ≠ 0x22)
    (hclosing : isOpening closing = false ∧ isClosing closing = true)
    (hmatch : openingOf closing = opening) : Passes (opening :: (body ++ [closing])) := by
  intro s hquoted hescaped hstack
  have hopen : follow s opening = some { s with stack := opening :: s.stack } := by
    simp [follow, hquoted, hquote.1, hopening]
  have hbody := h { s with stack := opening :: s.stack } hquoted hescaped (List.cons_ne_nil _ _)
  have hclose : follow { s with stack := opening :: s.stack } closing = some s := by
    obtain ⟨next, rest, hrest⟩ := List.exists_cons_of_ne_nil hstack
    cases s
    simp_all [follow]
  rw [List.foldlM_cons, hopen, Option.bind_eq_bind, Option.bind_some, List.foldlM_append, hbody,
    Option.bind_eq_bind, Option.bind_some, List.foldlM_cons, hclose]
  rfl

theorem Passes.array {body : JsString} (h : Passes body) : Passes (0x5B :: (body ++ [0x5D])) :=
  h.container rfl ⟨by decide, by decide⟩ ⟨rfl, rfl⟩ rfl

theorem Passes.object {body : JsString} (h : Passes body) : Passes (0x7B :: (body ++ [0x7D])) :=
  h.container rfl ⟨by decide, by decide⟩ ⟨rfl, rfl⟩ rfl

/-- **The scanner comes through every part of the grammar unchanged.** -/
theorem passes_isJson {part : JsonPart} {text : JsString} (h : IsJson part text) :
    Passes text := by
  have hcomma : Passes [0x2C] := @passes_js "," (by decide)
  have hcolon : Passes [0x3A] := @passes_js ":" (by decide)
  induction h with
  | emptyArray h => exact (passes_space h).array
  | array _ ih => exact ih.array
  | emptyObject h => exact (passes_space h).object
  | object _ ih => exact ih.object
  | @word text h =>
      simp only [List.mem_cons, List.not_mem_nil, or_false] at h
      rcases h with rfl | rfl | rfl <;> exact passes_js (by decide)
  | number h => exact passes_number h
  | string h => exact passes_string h
  | nested _ ih => exact ih
  | element hbefore _ hafter ih =>
      exact (passes_space hbefore).append (ih.append (passes_space hafter))
  | lastElement _ ih => exact ih
  | elements _ _ ih hrest => exact ih.append (hcomma.append hrest)
  | member hbefore hkey hafter _ ih =>
      exact (passes_space hbefore).append
        ((passes_string hkey).append ((passes_space hafter).append (hcolon.append ih)))
  | lastMember _ ih => exact ih
  | members _ _ ih hrest => exact ih.append (hcomma.append hrest)

/-! ## Pieces and texts of an output -/

section Scan

variable {parse : Parser}

/-- The loop at one unit of the source. -/
theorem scan_unit {source before rest : JsString} {c : CodeUnit} {i : ℕ}
    (hsource : source = before ++ c :: rest) (hi : before.length = i) (s : Scanner) :
    scan parse source i s =
      match scanUnit parse source i c s with
      | .error message => .error message
      | .ok (passed, s) => scan parse source (i + 1 + passed) s := by
  subst hsource
  subst hi
  have hlt : before.length < (before ++ c :: rest).length := by simp
  have hget : (before ++ c :: rest)[before.length] = c := by simp
  cases hunit : scanUnit parse (before ++ c :: rest) before.length c s with
  | error message => rw [scan, dif_pos hlt, hget, hunit]
  | ok next => rw [scan, dif_pos hlt, hget, hunit]

theorem scan_end (source : JsString) (s : Scanner) :
    scan parse source source.length s = .ok s := by
  rw [scan, dif_neg (Nat.lt_irrefl _)]

/-- The loop goes through a part of a piece. -/
theorem scan_follow {before text after : JsString} {s t : Scanner} (hstart : s.start.isSome)
    (h : text.foldlM follow s = some t) :
    scan parse (before ++ (text ++ after)) before.length s =
      scan parse (before ++ (text ++ after)) (before.length + text.length) t := by
  induction text generalizing before s with
  | nil =>
      obtain rfl := Option.some.inj h
      rfl
  | cons c rest ih =>
      rw [List.foldlM_cons, Option.bind_eq_bind, Option.bind_eq_some_iff] at h
      obtain ⟨next, hnext, hrest⟩ := h
      obtain ⟨start, hs⟩ := Option.isSome_iff_exists.mp hstart
      have hunit : scanUnit parse (before ++ (c :: rest ++ after)) before.length c s =
          .ok (0, next) := by
        rw [scanUnit, hs]
        simp only [scanInside_of_follow hnext]
        rfl
      have htail := @ih (before ++ [c]) next (by rw [start_of_follow hnext, hs]; rfl) hrest
      have hassoc : (before ++ [c]) ++ (rest ++ after) = before ++ (c :: rest ++ after) := by simp
      rw [hassoc, List.length_append, List.length_singleton] at htail
      have hform : before ++ (c :: rest ++ after) = before ++ c :: (rest ++ after) := rfl
      rw [scan_unit hform rfl, hunit]
      simp only [Nat.add_zero, htail, List.length_cons]
      congr 1
      omega

/-- Between the pieces, when the given candidates have been found. -/
def idle (candidates : List JsValue) : Scanner :=
  ⟨[], none, false, false, candidates⟩

/-- A backtick in a run of three or more is no inline code. -/
theorem inlineCodeEnd_eq {before text rest after : JsString}
    (htext : IsProse (text ++ backtick :: rest)) (hafter : after.head? ≠ some backtick) :
    inlineCodeEnd (before ++ (text ++ backtick :: rest ++ after)) (before.length + text.length) =
      before.length + text.length := by
  generalize hsource : before ++ (text ++ backtick :: rest ++ after) = source
  have hform : source = (before ++ text) ++ backtick :: (rest ++ after) := by
    rw [← hsource]
    simp
  have hlength : before.length + text.length = (before ++ text).length := List.length_append.symm
  unfold inlineCodeEnd
  refine if_pos ?_
  rw [Bool.or_eq_true, decide_eq_true_eq, Bool.and_eq_true, hlength]
  by_cases hlast : text.getLast? = some backtick
  · -- the run began before
    obtain ⟨front, hfront⟩ := List.getLast?_eq_some_iff.mp hlast
    refine .inr ⟨by simp [hfront], ?_⟩
    rw [hform, hfront]
    simp
  · -- the run begins here and ends in the text
    have hdrop : source.drop ((before ++ text).length + 1) = rest ++ after := by
      rw [hform, ← List.drop_drop, List.drop_left]
      rfl
    have hrun : (rest ++ after).takeWhile (· == backtick) = rest.takeWhile (· == backtick) := by
      cases after with
      | nil => rw [List.append_nil]
      | cons c after =>
          have hc : (c == backtick) = false := by
            rw [beq_eq_false_iff_ne]
            exact fun h => hafter (congrArg some h)
          have hnil : (c :: after).takeWhile (· == backtick) = [] := by
            rw [List.takeWhile_cons, hc]
            rfl
          rw [List.takeWhile_append, hnil, List.append_nil]
          split
          · rename_i hall
            exact ((List.takeWhile_prefix _).eq_of_length hall).symm
          · rfl
    have hwidth := htext.runs text (backtick :: rest.takeWhile (· == backtick))
      (rest.dropWhile (· == backtick))
      (by rw [List.cons_append, List.takeWhile_append_dropWhile]) (List.cons_ne_nil _ _)
      (by
        intro u hu
        rcases List.mem_cons.mp hu with rfl | hu
        · rfl
        · simpa using List.mem_takeWhile_imp hu)
      hlast
      (by
        intro hhead
        cases hnext : rest.dropWhile (· == backtick) with
        | nil =>
            rw [hnext] at hhead
            cases hhead
        | cons c more =>
            have hne : rest.dropWhile (· == backtick) ≠ [] := by
              rw [hnext]
              exact List.cons_ne_nil _ _
            have hfirst := List.head_dropWhile_not (· == backtick) hne
            rw [hnext] at hhead
            obtain rfl := Option.some.inj hhead
            simp [hnext] at hfirst)
    left
    rw [runAt, hdrop, hrun]
    rw [List.length_cons] at hwidth
    omega

/-- **Text is passed over.** -/
theorem scan_prose {before text after : JsString} {candidates : List JsValue}
    (htext : IsProse text) (hafter : after.head? ≠ some backtick) :
    scan parse (before ++ (text ++ after)) before.length (idle candidates) =
      scan parse (before ++ (text ++ after)) (before.length + text.length) (idle candidates) := by
  have hrest (passed rest : JsString) (hsplit : text = passed ++ rest) :
      scan parse (before ++ (text ++ after)) (before.length + passed.length) (idle candidates) =
        scan parse (before ++ (text ++ after)) (before.length + text.length)
          (idle candidates) := by
    induction rest generalizing passed with
    | nil => rw [hsplit, List.append_nil]
    | cons c rest ih =>
        have hnext := ih (passed ++ [c]) (by rw [hsplit, List.append_assoc, List.singleton_append])
        rw [List.length_append, List.length_singleton, ← Nat.add_assoc] at hnext
        rw [← hnext]
        obtain ⟨hopening, hclosing⟩ := htext.plain c (by rw [hsplit]; simp)
        have hinline : ¬before.length + passed.length <
            if c = backtick then inlineCodeEnd (before ++ (text ++ after))
              (before.length + passed.length) else before.length + passed.length := by
          split_ifs with hc
          · subst hc
            subst hsplit
            rw [inlineCodeEnd_eq htext hafter]
            exact Nat.lt_irrefl _
          · exact Nat.lt_irrefl _
        have hunit : scanUnit parse (before ++ (text ++ after)) (before.length + passed.length) c
            (idle candidates) = .ok (0, idle candidates) := by
          rw [scanUnit]
          simp [idle, hinline, hopening, hclosing]
        have hform : before ++ (text ++ after) = (before ++ passed) ++ c :: (rest ++ after) := by
          rw [hsplit]
          simp
        rw [scan_unit hform List.length_append, hunit]
  exact hrest [] text rfl

/-- A container is a delimiter, a body through which the scanner comes, and the other
delimiter. -/
theorem exists_body {text : JsString} (h : IsJson .container text) :
    ∃ opening body closing, text = opening :: (body ++ [closing]) ∧ Passes body ∧
      isOpening opening = true ∧ (isClosing closing = true ∧ isOpening closing = false) ∧
        opening = openingOf closing := by
  cases h with
  | emptyArray hspace => exact ⟨_, _, _, rfl, passes_space hspace, rfl, ⟨rfl, rfl⟩, rfl⟩
  | array hbody => exact ⟨_, _, _, rfl, passes_isJson hbody, rfl, ⟨rfl, rfl⟩, rfl⟩
  | emptyObject hspace => exact ⟨_, _, _, rfl, passes_space hspace, rfl, ⟨rfl, rfl⟩, rfl⟩
  | object hbody => exact ⟨_, _, _, rfl, passes_isJson hbody, rfl, ⟨rfl, rfl⟩, rfl⟩

/-- **A container is one piece**: at its end, and not before, the piece is parsed. -/
theorem scan_container {before text after : JsString} {candidates : List JsValue}
    (htext : IsJson .container text) :
    ∃ i, ((before ++ (text ++ after)).take (i + 1)).drop before.length = text ∧
      scan parse (before ++ (text ++ after)) before.length (idle candidates) =
        match endPiece parse (before ++ (text ++ after)) before.length i
          { idle candidates with start := some before.length } with
        | .error message => .error message
        | .ok s => scan parse (before ++ (text ++ after)) (before.length + text.length) s := by
  obtain ⟨opening, body, closing, rfl, hbody, hopening, ⟨hclosing, hclosing'⟩, rfl⟩ :=
    exists_body htext
  have hmark : openingOf closing ≠ 0x22 ∧ closing ≠ 0x22 := by
    constructor <;> intro h <;> simp [h, isOpening, isClosing] at hopening hclosing
  have hnotClosing : isClosing (openingOf closing) = false ∧ openingOf closing ≠ backtick := by
    unfold openingOf
    split <;> decide
  generalize htext : openingOf closing :: (body ++ [closing]) = text
  generalize hsource : before ++ (text ++ after) = source
  have hfirst : source = before ++ openingOf closing :: (body ++ closing :: after) := by
    rw [← hsource, ← htext]
    simp
  have hinside : source = (before ++ [openingOf closing]) ++ (body ++ closing :: after) := by
    rw [hfirst]
    simp
  have hlast : source = (before ++ openingOf closing :: body) ++ closing :: after := by
    rw [hfirst]
    simp
  have hlength : before.length + (body.length + 1) + 1 = before.length + text.length := by
    rw [← htext]
    simp [Nat.add_assoc]
  have hpiece : (source.take (before.length + (body.length + 1) + 1)).drop before.length =
      text := by
    rw [← hsource, hlength, ← List.append_assoc, List.take_left' (by simp), List.drop_left]
  refine ⟨before.length + (body.length + 1), hpiece, ?_⟩
  -- after the opening delimiter, and so after the body
  let opened : Scanner :=
    { idle candidates with start := some before.length, stack := [openingOf closing] }
  have hopen : scanUnit parse source before.length (openingOf closing) (idle candidates) =
      .ok (0, opened) := by
    rw [scanUnit]
    simp [idle, hnotClosing, hopening, scanInside, hmark, opened, Except.map]
  have hbody' : scan parse source (before.length + 1) opened =
      scan parse source (before.length + 1 + body.length) opened := by
    have hfollow := hbody opened rfl rfl (List.cons_ne_nil _ _)
    have hscan := @scan_follow parse (before ++ [openingOf closing]) body (closing :: after) _ _
      rfl hfollow
    rwa [← hinside, List.length_append, List.length_singleton] at hscan
  have hclose : scanUnit parse source (before.length + 1 + body.length) closing opened =
      (endPiece parse source before.length (before.length + (body.length + 1))
        { idle candidates with start := some before.length }).map (0, ·) := by
    have hindex : before.length + 1 + body.length = before.length + (body.length + 1) := by omega
    rw [scanUnit, hindex]
    simp [opened, idle, scanInside, hmark, hclosing, hclosing', closeDelimiter]
  rw [scan_unit hfirst rfl, hopen]
  show scan parse source (before.length + 1) opened = _
  rw [hbody', scan_unit hlast (by simp; omega), hclose]
  cases endPiece parse source before.length (before.length + (body.length + 1))
      { idle candidates with start := some before.length } with
  | error message => rfl
  | ok s =>
      show scan parse source (before.length + 1 + body.length + 1) s = _
      rw [← hlength]
      congr 1
      omega

end Scan

/-! ## The result -/

/-- What follows a text begins with no backtick. -/
theorem head?_pieces {pieces : List (JsString × JsString)}
    (h : ∀ piece ∈ pieces, IsJson .container piece.1 ∧ IsProse piece.2) :
    (pieces.flatMap fun piece => piece.1 ++ piece.2).head? ≠ some backtick := by
  cases pieces with
  | nil => simp
  | cons piece rest =>
      obtain ⟨opening, body, closing, hpiece, -, hopening, -, -⟩ :=
        exists_body (h piece List.mem_cons_self).1
      rw [List.flatMap_cons, hpiece]
      intro hhead
      obtain rfl := Option.some.inj hhead
      cases hopening

section Result

variable {parse : Parser} {first : JsString} {pieces : List (JsString × JsString)}

/-- The first container becomes the only candidate. -/
theorem scan_first {before payload after : JsString} {value : JsValue}
    (hpayload : IsJson .container payload) (hvalue : parse payload = .ok value) :
    scan parse (before ++ (payload ++ after)) before.length (idle []) =
      scan parse (before ++ (payload ++ after)) (before.length + payload.length)
        (idle [value]) := by
  obtain ⟨i, hpiece, hscan⟩ := @scan_container parse before payload after [] hpayload
  rw [hscan, endPiece, hpiece, hvalue]
  rfl

/-- After one candidate another container is an error. -/
theorem scan_second {before payload after : JsString} {value other : JsValue}
    (hpayload : IsJson .container payload) (hvalue : parse payload = .ok value) :
    ∃ message, scan parse (before ++ (payload ++ after)) before.length (idle [other]) =
      .error message := by
  obtain ⟨i, hpiece, hscan⟩ := @scan_container parse before payload after [other] hpayload
  rw [hscan, endPiece, hpiece, hvalue]
  exact ⟨_, rfl⟩

theorem modelJsonPayload_of_error {output message : JsString}
    (houtput : parse output = .error message) {error : JsString}
    (h : scan parse output 0 .initial = .error error) :
    modelJsonPayload parse output = .error error := by
  rw [modelJsonPayload, houtput]
  simp only [h]

theorem modelJsonPayload_of_idle {output message : JsString}
    (houtput : parse output = .error message) {candidates : List JsValue}
    (h : scan parse output 0 .initial = .ok (idle candidates)) :
    (∀ value, candidates = [value] → modelJsonPayload parse output = .ok value) ∧
      (candidates = [] → ∃ error, modelJsonPayload parse output = .error error) := by
  rw [modelJsonPayload, houtput]
  simp only [h]
  constructor
  · rintro value rfl
    rfl
  · rintro rfl
    exact ⟨_, rfl⟩

/-- **The payload of an output that is no JSON text** is the value of its one container;
without containers, and with more than one, the output is rejected. -/
theorem modelJsonPayload_spec
    (hparse : ∀ text, IsJson .container text → ∃ value, parse text = .ok value)
    (hfirst : IsProse first)
    (hpieces : ∀ piece ∈ pieces, IsJson .container piece.1 ∧ IsProse piece.2)
    (houtput : ∃ message, parse (assemble first pieces) = .error message) :
    (∀ payload last, pieces = [(payload, last)] → ∃ value, parse payload = .ok value ∧
      modelJsonPayload parse (assemble first pieces) = .ok value) ∧
    (pieces.length ≠ 1 → ∃ error,
      modelJsonPayload parse (assemble first pieces) = .error error) := by
  obtain ⟨message, houtput⟩ := houtput
  -- up to the first container
  have hstart : scan parse (assemble first pieces) 0 .initial =
      scan parse (assemble first pieces) first.length (idle []) := by
    have h := @scan_prose parse [] first _ [] hfirst (head?_pieces hpieces)
    rwa [List.nil_append, List.length_nil, Nat.zero_add] at h
  cases pieces with
  | nil =>
      have hassemble : assemble first [] = first := List.append_nil _
      rw [hassemble] at hstart houtput ⊢
      rw [scan_end] at hstart
      refine ⟨fun _ _ h => absurd h (by simp), fun _ => ?_⟩
      exact (modelJsonPayload_of_idle houtput hstart).2 rfl
  | cons piece rest =>
      obtain ⟨payload, last⟩ := piece
      obtain ⟨⟨hpayload, hlast⟩, hrest⟩ := List.forall_mem_cons.mp hpieces
      obtain ⟨value, hvalue⟩ := hparse payload hpayload
      generalize hoff : (rest.flatMap fun piece => piece.1 ++ piece.2) = tail
      have hassemble : assemble first ((payload, last) :: rest) =
          first ++ (payload ++ (last ++ tail)) := by
        rw [assemble, List.flatMap_cons, hoff, List.append_assoc]
      have hassemble' : first ++ (payload ++ (last ++ tail)) =
          (first ++ payload) ++ (last ++ tail) := by simp
      have hassemble'' : first ++ (payload ++ (last ++ tail)) =
          (first ++ payload ++ last) ++ tail := by simp
      rw [hassemble] at hstart houtput ⊢
      -- to the end of the text after it
      have hnext : scan parse (first ++ (payload ++ (last ++ tail))) 0 .initial =
          scan parse (first ++ (payload ++ (last ++ tail))) (first ++ payload ++ last).length
            (idle [value]) := by
        have hlength : (first ++ payload ++ last).length =
            (first ++ payload).length + last.length := List.length_append
        rw [hstart, scan_first hpayload hvalue, ← List.length_append, hassemble', hlength]
        exact scan_prose hlast (hoff ▸ head?_pieces hrest)
      cases rest with
      | nil =>
          obtain rfl : [] = tail := hoff
          rw [hassemble'', List.append_nil] at hnext houtput ⊢
          rw [scan_end] at hnext
          refine ⟨fun _ _ h => ?_, fun h => absurd rfl h⟩
          cases h
          exact ⟨value, hvalue, (modelJsonPayload_of_idle houtput hnext).1 value rfl⟩
      | cons second rest =>
          obtain ⟨hsecond, -⟩ := hrest second List.mem_cons_self
          obtain ⟨other, hother⟩ := hparse _ hsecond
          refine ⟨fun _ _ h => absurd h (by simp), fun _ => ?_⟩
          rw [List.flatMap_cons, List.append_assoc] at hoff
          rw [hassemble'', ← hoff] at hnext houtput ⊢
          obtain ⟨error, herror⟩ := @scan_second _ _ _ _ _ value hsecond hother
          exact ⟨error, modelJsonPayload_of_error houtput (hnext.trans herror)⟩

end Result

/-! ### A brace in a string -/

theorem isProse_of_all {text : JsString}
    (h : text.all (fun u => u != backtick && !isOpening u && !isClosing u) = true) :
    IsProse text := by
  simp only [List.all_eq_true, Bool.and_eq_true, Bool.not_eq_true', bne_iff_ne] at h
  refine ⟨fun u hu => ⟨(h u hu).1.2, (h u hu).2⟩, fun before run after hsplit hrun hall _ _ => ?_⟩
  obtain ⟨u, rest, rfl⟩ := List.exists_cons_of_ne_nil hrun
  exact absurd (hall u List.mem_cons_self) (h u (by rw [hsplit]; simp)).1.1

/-- An array of one string, which is a closing brace. -/
def braceArray : JsString :=
  js "[\"\x7d\"]"

/-- `JSON.parse` on this array and on texts that begin like the output below. -/
def braceParser : Parser := fun text =>
  if text.head?.any isOpening then .ok (.arr [.text "\x7d"])
  else .error (js "Unexpected token 'P', \"Plan: [\"\x7d\"].\" is not valid JSON")

theorem isJson_braceArray : IsJson .container braceArray :=
  .array (.lastElement (@IsJson.element [] _ [] nofun
    (.string ⟨[0x7D], .unit (by decide) (by decide) (by decide) .nil, rfl⟩) nofun))

theorem braceParser_container (text : JsString) (h : IsJson .container text) :
    ∃ value, braceParser text = .ok value := by
  obtain ⟨opening, body, closing, rfl, -, hopening, -⟩ := exists_body h
  exact ⟨_, if_pos hopening⟩

/-- The payload of a line with this array is the array. -/
theorem modelJsonPayload_braceArray :
    ∃ value, braceParser braceArray = .ok value ∧
      modelJsonPayload braceParser (assemble (js "Plan: ") [(braceArray, js ".")]) = .ok value := by
  have hfirst : IsProse (js "Plan: ") := isProse_of_all (by decide)
  have hlast : IsProse (js ".") := isProse_of_all (by decide)
  have hpieces : ∀ piece ∈ [(braceArray, js ".")],
      IsJson .container piece.1 ∧ IsProse piece.2 :=
    List.forall_mem_singleton.mpr ⟨isJson_braceArray, hlast⟩
  exact (modelJsonPayload_spec braceParser_container hfirst hpieces ⟨_, rfl⟩).1 _ _ rfl

end Hepha.Payload
