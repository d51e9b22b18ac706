import Hepha.Coverage.Groups
import Hepha.Lib.Splice

/-!
# Exact edits of a document

A deep dive sends back the edits of its target: texts of the document, each with what
replaces it.  A text must occur exactly once, and no two may overlap, so that the edits say
by themselves where they belong.

## Strategy

Every edit either has one range or the exchange is refused, whatever the other edits are
(`mapM_locate_eq`, `mapM_locate_error`).  The ranges in order are the same for every order
of the edits, and splicing them from the right replaces them in the source
(`applyEdits_perm`, `applyEdits_ok`).
-/

namespace Hepha.Exchange

open Coverage JsString

/-- An edit as the schema admits it: the text it replaces shows something. -/
structure DeepDiveEdit where
  before : JsString
  after : JsString
  visible : before.any fun u => !isWhiteSpace u

def editsInvalid : JsString :=
  js "MCP_DEEP_DIVE_EDITS_INVALID: expected the complete versioned edit exchange."

def editTargetInvalid : JsString :=
  js ("MCP_DEEP_DIVE_EDIT_TARGET_INVALID: each before text must match exactly once in the " ++
    "current target.")

def editsOverlap : JsString :=
  js "MCP_DEEP_DIVE_EDITS_OVERLAP"

def wholeDocumentEdit : JsString :=
  js ("MCP_DEEP_DIVE_WHOLE_DOCUMENT_EDIT: use scoped edits that preserve untouched " ++
    "content.")

def documentEmpty : JsString :=
  js "MCP_DEEP_DIVE_DOCUMENT_EMPTY"

/-- The range of an edit in the source. -/
def locate (source : JsString) (edit : DeepDiveEdit) : Except JsString (Splice CodeUnit) :=
  match indexOf source edit.before 0 with
  | none => .error editTargetInvalid
  | some start =>
      if (indexOf source edit.before (start + 1)).isSome then .error editTargetInvalid
      else .ok ⟨start, start + edit.before.length, edit.after⟩

/-- What no edit touches, from `previousEnd` on. -/
def untouchedFrom (source : JsString) : ℕ → List (Splice CodeUnit) → Except JsString JsString
  | previousEnd, [] => .ok (source.drop previousEnd)
  | previousEnd, edit :: edits =>
      if edit.start < previousEnd then .error editsOverlap
      else (untouchedFrom source edit.stop edits).map
        ((source.drop previousEnd).take (edit.start - previousEnd) ++ ·)

/-- The ranges applied to the source. -/
def applyRanges (source : JsString) (edits : List (Splice CodeUnit)) :
    Except JsString JsString := do
  let untouched ← untouchedFrom source 0 edits
  if !edits.isEmpty && untouched.trim.isEmpty then .error wholeDocumentEdit
  else
    let updated : JsString := spliceBack source edits
    if updated.trim.isEmpty then .error documentEmpty else .ok updated

/-- The edits of a decoded exchange applied to the source. -/
def applyEdits (source : JsString) (payload : List DeepDiveEdit) : Except JsString JsString := do
  let edits ← payload.mapM (locate source)
  applyRanges source (inOrder edits)

/-- `applyDeepDiveEdits`, over what the protocol decodes. -/
def applyDeepDiveEdits (decode : JsString → Option (List DeepDiveEdit)) (raw source : JsString) :
    Except JsString JsString :=
  match decode raw with
  | none => .error editsInvalid
  | some payload => applyEdits source payload

/-! ## What it says -/

/-- The edits are those of the source, and the result is the source with them made. -/
structure EditsApplied (source : JsString) (edits : List DeepDiveEdit) (result : JsString) :
    Prop where
  once : ∀ edit ∈ edits, (occurrences source edit.before).length = 1
  apart : edits.Pairwise fun edit other =>
    ∀ start ∈ occurrences source edit.before, ∀ start' ∈ occurrences source other.before,
      start + edit.before.length ≤ start' ∨ start' + other.before.length ≤ start
  replaced : ∃ ordered : List DeepDiveEdit, ordered.Perm edits ∧
    Replaced (ordered.map fun edit => (edit.before, edit.after)) source result

/-! ## Finding the ranges -/

variable {source : JsString} {edits : List DeepDiveEdit}

/-- The range of an edit whose text occurs once. -/
def rangeOf (source : JsString) (edit : DeepDiveEdit) : Splice CodeUnit :=
  let start := (occurrences source edit.before).headD 0
  ⟨start, start + edit.before.length, edit.after⟩

/-- The text of the edit occurs once. -/
def Once (source : JsString) (edit : DeepDiveEdit) : Prop :=
  (occurrences source edit.before).length = 1

theorem locate_ok {edit : DeepDiveEdit} (h : Once source edit) :
    locate source edit = .ok (rangeOf source edit) := by
  obtain ⟨start, hstart⟩ := List.length_eq_one_iff.mp h
  simp [locate, rangeOf, indexOf, hstart]

theorem locate_error {edit : DeepDiveEdit} (h : ¬Once source edit) :
    locate source edit = .error editTargetInvalid := by
  have hsorted := occurrences_pairwise source edit.before
  rcases hall : occurrences source edit.before with _ | ⟨start, _ | ⟨next, rest⟩⟩
  · simp [locate, indexOf, hall]
  · exact absurd (by rw [Once, hall]; rfl) h
  · rw [hall] at hsorted
    have hnext : start < next := List.rel_of_pairwise_cons hsorted List.mem_cons_self
    simp [locate, indexOf, hall, hnext.not_ge]

theorem mapM_locate_ok (h : ∀ edit ∈ edits, Once source edit) :
    edits.mapM (locate source) = .ok (edits.map (rangeOf source)) :=
  mapM_ok fun edit hedit => locate_ok (h edit hedit)

theorem mapM_locate_error (h : ¬∀ edit ∈ edits, Once source edit) :
    edits.mapM (locate source) = .error editTargetInvalid := by
  induction edits with
  | nil => exact absurd (fun _ hedit => nomatch hedit) h
  | cons edit rest ih =>
      rw [List.mapM_cons]
      by_cases hedit : Once source edit
      · have hrest : ¬∀ other ∈ rest, Once source other := fun hall =>
          h (List.forall_mem_cons.mpr ⟨hedit, hall⟩)
        rw [locate_ok hedit, ih hrest]
        rfl
      · rw [locate_error hedit]
        rfl

/-- A range holds the text of its edit, which is not empty. -/
theorem rangeOf_proper (edit : DeepDiveEdit) :
    (rangeOf source edit).start < (rangeOf source edit).stop := by
  have hlength : edit.before ≠ [] := by
    intro hnil
    have hvisible := edit.visible
    rw [hnil] at hvisible
    exact Bool.false_ne_true hvisible
  have hpos := List.length_pos_of_ne_nil hlength
  simp only [rangeOf]
  omega

theorem mem_of_once {edit : DeepDiveEdit} (h : Once source edit) :
    occurrences source edit.before = [(rangeOf source edit).start] := by
  obtain ⟨start, hstart⟩ := List.length_eq_one_iff.mp h
  simp [rangeOf, hstart]

theorem prefix_of_once {edit : DeepDiveEdit} (h : Once source edit) :
    edit.before <+: source.drop (rangeOf source edit).start := by
  have hmem : (rangeOf source edit).start ∈ occurrences source edit.before := by
    rw [mem_of_once h]
    exact List.mem_singleton_self _
  exact (mem_occurrences.1 hmem).2

theorem old_rangeOf {edit : DeepDiveEdit} (h : Once source edit) :
    (rangeOf source edit).old source = edit.before := by
  obtain ⟨rest, hrest⟩ := prefix_of_once h
  have hlength : (rangeOf source edit).stop - (rangeOf source edit).start =
      edit.before.length := by
    simp [rangeOf]
  rw [Splice.old, hlength, ← hrest, List.take_left]

theorem stop_rangeOf_le {edit : DeepDiveEdit} (h : Once source edit) :
    (rangeOf source edit).stop ≤ source.length := by
  have hlength := (prefix_of_once h).length_le
  have hproper : (rangeOf source edit).start < (rangeOf source edit).stop := rangeOf_proper edit
  have hstop : (rangeOf source edit).stop =
      (rangeOf source edit).start + edit.before.length := rfl
  rw [List.length_drop] at hlength
  omega

/-! ## Applying them -/

theorem untouchedFrom_eq (ranges : List (Splice CodeUnit)) {place : ℕ}
    (hproper : ∀ range ∈ ranges, range.start < range.stop) :
    (Apart place ranges ∧ ∃ text, untouchedFrom source place ranges = .ok text) ∨
      (¬Apart place ranges ∧ untouchedFrom source place ranges = .error editsOverlap) := by
  induction ranges generalizing place with
  | nil => exact .inl ⟨trivial, _, rfl⟩
  | cons range rest ih =>
      have hrange := hproper range List.mem_cons_self
      have hrest := @ih range.stop fun other hother =>
        hproper other (List.mem_cons_of_mem _ hother)
      rw [untouchedFrom, Apart]
      by_cases hlt : range.start < place
      · exact .inr ⟨fun h => absurd h.1 (not_le.mpr hlt), if_pos hlt⟩
      · rw [if_neg hlt]
        rcases hrest with ⟨hapart, text, htext⟩ | ⟨hapart, herror⟩
        · exact .inl ⟨⟨not_lt.mp hlt, hrange.le, hapart⟩, _, by rw [htext]; rfl⟩
        · exact .inr ⟨fun h => hapart h.2.2, by rw [herror]; rfl⟩

theorem applyRanges_overlap {ranges : List (Splice CodeUnit)}
    (hproper : ∀ range ∈ ranges, range.start < range.stop) (h : ¬ranges.Pairwise Beside) :
    applyRanges source (inOrder ranges) = .error editsOverlap := by
  have hsorted : ∀ range ∈ inOrder ranges, range.start < range.stop :=
    fun range hrange => hproper range ((inOrder_perm ranges).mem_iff.mp hrange)
  rcases @untouchedFrom_eq source (inOrder ranges) 0 hsorted with
    ⟨hapart, -⟩ | ⟨-, herror⟩
  · exact absurd ((apart_inOrder_iff hproper).mp hapart) h
  · rw [applyRanges, herror]
    rfl

theorem applyRanges_ok {ranges : List (Splice CodeUnit)} {result : JsString}
    (h : applyRanges source ranges = .ok result) : result = spliceBack source ranges := by
  rw [applyRanges] at h
  cases huntouched : untouchedFrom source 0 ranges with
  | error error =>
      rw [huntouched] at h
      cases h
  | ok untouched =>
      rw [huntouched] at h
      simp only [bind, Except.bind] at h
      split at h
      · cases h
      · split at h
        · cases h
        · exact (Except.ok.inj h).symm

/-- The ranges of the edits hold something. -/
theorem ranges_proper : ∀ range ∈ edits.map (rangeOf source), range.start < range.stop := by
  intro range hrange
  obtain ⟨edit, -, rfl⟩ := List.mem_map.mp hrange
  exact rangeOf_proper edit

/-- **The order of the edits** does not matter. -/
theorem applyEdits_perm {edits' : List DeepDiveEdit} (hperm : edits.Perm edits') :
    applyEdits source edits = applyEdits source edits' := by
  have hiff : (∀ edit ∈ edits, Once source edit) ↔ ∀ edit ∈ edits', Once source edit :=
    ⟨fun h edit hedit => h edit (hperm.mem_iff.mpr hedit),
      fun h edit hedit => h edit (hperm.mem_iff.mp hedit)⟩
  rw [applyEdits, applyEdits]
  by_cases honce : ∀ edit ∈ edits, Once source edit
  · rw [mapM_locate_ok honce, mapM_locate_ok (hiff.mp honce)]
    change applyRanges source (inOrder (edits.map (rangeOf source))) =
      applyRanges source (inOrder (edits'.map (rangeOf source)))
    have hranges := hperm.map (rangeOf source)
    by_cases hbeside : (edits.map (rangeOf source)).Pairwise Beside
    · rw [inOrder_eq_of_perm hranges ranges_proper hbeside]
    · have hbeside' : ¬(edits'.map (rangeOf source)).Pairwise Beside :=
        fun h => hbeside ((hranges.pairwise_iff beside_comm).mpr h)
      rw [applyRanges_overlap ranges_proper hbeside, applyRanges_overlap ranges_proper hbeside']
  · rw [mapM_locate_error honce, mapM_locate_error fun h => honce (hiff.mpr h)]

/-- The edits in the order of their ranges. -/
theorem exists_ordered (edits : List DeepDiveEdit) :
    ∃ ordered : List DeepDiveEdit, ordered.Perm edits ∧
      inOrder (edits.map (rangeOf source)) = ordered.map (rangeOf source) := by
  refine ⟨edits.insertionSort fun a b => (rangeOf source a).start ≤ (rangeOf source b).start,
    List.perm_insertionSort _ _, ?_⟩
  exact (List.map_insertionSort _ _ (rangeOf source) edits fun _ _ _ _ => Iff.rfl).symm

theorem applyEdits_ok {result : JsString} (h : applyEdits source edits = .ok result) :
    EditsApplied source edits result := by
  rw [applyEdits] at h
  by_cases honce : ∀ edit ∈ edits, Once source edit
  swap
  · rw [mapM_locate_error honce] at h
    cases h
  rw [mapM_locate_ok honce] at h
  change applyRanges source (inOrder (edits.map (rangeOf source))) = .ok result at h
  by_cases hbeside : (edits.map (rangeOf source)).Pairwise Beside
  swap
  · rw [applyRanges_overlap ranges_proper hbeside] at h
    cases h
  refine ⟨honce, ?_, ?_⟩
  · refine (List.pairwise_map.mp hbeside).imp_of_mem fun {edit other} hedit hother hapart => ?_
    rw [mem_of_once (honce edit hedit), mem_of_once (honce other hother)]
    simpa [Beside, rangeOf] using hapart
  · obtain ⟨ordered, hperm, heq⟩ := @exists_ordered source edits
    have hordered : ∀ edit ∈ ordered, Once source edit :=
      fun edit hedit => honce edit (hperm.mem_iff.mp hedit)
    have hapart := (apart_inOrder_iff ranges_proper).mpr hbeside
    rw [heq] at hapart h
    have hresult : result = spliceFrom source 0 (ordered.map (rangeOf source)) := by
      rw [applyRanges_ok h, spliceBack_eq hapart (Nat.zero_le _)]
      · rfl
      · intro range hrange
        obtain ⟨edit, hedit, rfl⟩ := List.mem_map.mp hrange
        exact stop_rangeOf_le (hordered edit hedit)
    have hreplaced := @replaced_spliceFrom _ source _ _ hapart
    rw [← hresult, List.drop_zero, List.map_map] at hreplaced
    have htexts : ordered.map ((fun range => (range.old source, range.text)) ∘ rangeOf source) =
        ordered.map fun edit => (edit.before, edit.after) :=
      List.map_congr_left fun edit hedit => by
        rw [Function.comp_apply, old_rangeOf (hordered edit hedit)]
        rfl
    rw [htexts] at hreplaced
    exact ⟨ordered, hperm, hreplaced⟩

/-- **An accepted exchange** edits texts that occur once and do not overlap; the result is
the source with each replaced, whatever the order of the edits. -/
theorem applyDeepDiveEdits_spec (decode : JsString → Option (List DeepDiveEdit))
    (raw source : JsString) (edits : List DeepDiveEdit) (hraw : decode raw = some edits) :
    (∀ result, applyDeepDiveEdits decode raw source = .ok result →
      EditsApplied source edits result) ∧
    ∀ raw' edits', decode raw' = some edits' → edits.Perm edits' →
      applyDeepDiveEdits decode raw' source = applyDeepDiveEdits decode raw source := by
  have happly : applyDeepDiveEdits decode raw source = applyEdits source edits := by
    rw [applyDeepDiveEdits, hraw]
  refine ⟨fun result h => applyEdits_ok (happly ▸ h), fun raw' edits' hraw' hperm => ?_⟩
  have happly' : applyDeepDiveEdits decode raw' source = applyEdits source edits' := by
    rw [applyDeepDiveEdits, hraw']
  rw [happly, happly', applyEdits_perm hperm]

def exampleDecode (raw : JsString) : Option (List DeepDiveEdit) :=
  if raw = js "second first" then
    some [⟨js "cd", js "ab", by decide⟩, ⟨js "ab", js "cd", by decide⟩]
  else some [⟨js "ab", js "cd", by decide⟩, ⟨js "cd", js "ab", by decide⟩]

/-- Two texts that stand side by side trade places, in either order of the edits. -/
theorem applyDeepDiveEdits_spec_two :
    EditsApplied (js "ab cd!")
        [⟨js "ab", js "cd", by decide⟩, ⟨js "cd", js "ab", by decide⟩] (js "cd ab!") ∧
      applyDeepDiveEdits exampleDecode (js "second first") (js "ab cd!") =
        applyDeepDiveEdits exampleDecode (js "first second") (js "ab cd!") := by
  have hspec := applyDeepDiveEdits_spec exampleDecode (js "first second") (js "ab cd!")
    [⟨js "ab", js "cd", by decide⟩, ⟨js "cd", js "ab", by decide⟩] rfl
  exact ⟨hspec.1 _ (by decide),
    hspec.2 (js "second first") _ rfl (List.Perm.swap _ _ _)⟩

end Hepha.Exchange
