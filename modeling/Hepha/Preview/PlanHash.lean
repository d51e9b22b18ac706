import Hepha.Js.Decimal
import Hepha.Js.Unicode
import Hepha.Lib.Layout
import Mathlib.Data.Set.Function

/-!
# The plan hash of a preview

A preview lists the features that are planned for an EPIC.  Its plan hash
says later whether the preview that is confirmed is still the one that was
shown.  The hash is taken of all fields one after the other, and nothing
stands between them.

`sha256` is a parameter.  Two texts are only told apart where their digests,
which are cut to sixteen digits, differ; that they do for the texts at hand
is the hypothesis `NoCollision`.

## Strategy

Without collisions, equal plan hashes say that the fields of the two previews
make up the same texts (`calculatePlanHash_eq_iff`).  The texts say no more:
they do not tell where one field ends, and a lone surrogate stands in them as
U+FFFD.  Both is in the `layout` of a preview, and text and layout together
give the preview back (`same_of_layout`).
-/

namespace Hepha.Preview

inductive PreviewWarningType where
  | epicOrderGap
  | missingDependency
  | duplicateFeat
  | tbdRow
  | unresolvedSequence
  deriving DecidableEq, Repr

def PreviewWarningType.word : PreviewWarningType → String
  | .epicOrderGap => "epic-order-gap"
  | .missingDependency => "missing-dependency"
  | .duplicateFeat => "duplicate-feat"
  | .tbdRow => "tbd-row"
  | .unresolvedSequence => "unresolved-sequence"

/-- The fields of a candidate that the hash reads.  The source order is the index
of a row, or counts rows and candidates. -/
structure PreviewFeatCandidate where
  plannedFeatureId : JsString
  title : JsString
  summary : JsString
  dependencyIds : List JsString
  priority : Option JsString
  sourceOrder : ℕ
  fromExplicitLink : Bool
  deriving DecidableEq

structure PreviewWarning where
  type : PreviewWarningType
  message : JsString
  affectedFeatureIds : List JsString
  deriving DecidableEq

/-- The part of a preview plan that its hash is taken of. -/
structure BatchPreviewPlan where
  explicitCandidates : List PreviewFeatCandidate
  discoveredCandidates : List PreviewFeatCandidate
  warnings : List PreviewWarning
  deriving DecidableEq

/-! ## The hash -/

/-- `ids.join(",")`. -/
def joinIds (ids : List JsString) : JsString :=
  [0x2C].intercalate ids

/-- What `hash.update` is given for a candidate, call by call. -/
def PreviewFeatCandidate.updates (candidate : PreviewFeatCandidate) : List JsString :=
  [candidate.plannedFeatureId, candidate.title, candidate.summary.take 200,
    joinIds candidate.dependencyIds, candidate.priority.getD [],
    decimalText candidate.sourceOrder, js (toString candidate.fromExplicitLink)]

def PreviewWarning.updates (warning : PreviewWarning) : List JsString :=
  [js warning.type.word, warning.message, joinIds warning.affectedFeatureIds]

/-- What is hashed after some updates: each text is encoded for itself. -/
def hashedText (updates : List JsString) : JsString :=
  updates.flatMap JsString.toWellFormed

section Hash

variable (sha256 : JsString → HexDigest)

/-- `hash.digest("hex").slice(0, 16)`. -/
def shortDigest (text : JsString) : JsString :=
  (sha256 text).val.take 16

def calculateCandidateHash (candidates : List PreviewFeatCandidate) : JsString :=
  shortDigest sha256 (hashedText (candidates.flatMap PreviewFeatCandidate.updates))

/-- The text of which the plan hash is the digest. -/
def planText (epicDocumentHash : JsString) (preview : BatchPreviewPlan) : JsString :=
  hashedText ([epicDocumentHash, calculateCandidateHash sha256 preview.explicitCandidates,
    calculateCandidateHash sha256 preview.discoveredCandidates] ++
      preview.warnings.flatMap PreviewWarning.updates)

def calculatePlanHash (epicDocumentHash : JsString) (preview : BatchPreviewPlan) : JsString :=
  shortDigest sha256 (planText sha256 epicDocumentHash preview)

end Hash

/-! ## What the hash is to tell apart -/

/-- A candidate with its summary cut to 200 units. -/
def PreviewFeatCandidate.essence (candidate : PreviewFeatCandidate) : PreviewFeatCandidate :=
  { candidate with summary := candidate.summary.take 200 }

/-- Both previews have the same candidates, but for the ends of long summaries, and the
same warnings. -/
def Same (p q : BatchPreviewPlan) : Prop :=
  p.explicitCandidates.map PreviewFeatCandidate.essence =
      q.explicitCandidates.map PreviewFeatCandidate.essence ∧
    p.discoveredCandidates.map PreviewFeatCandidate.essence =
      q.discoveredCandidates.map PreviewFeatCandidate.essence ∧
    p.warnings = q.warnings

/-- The texts that two previews have the digests taken of. -/
def hashedTexts (sha256 : JsString → HexDigest) (epicDocumentHash : JsString)
    (p q : BatchPreviewPlan) :
    List JsString :=
  [p, q].flatMap fun preview =>
    [hashedText (preview.explicitCandidates.flatMap PreviewFeatCandidate.updates),
      hashedText (preview.discoveredCandidates.flatMap PreviewFeatCandidate.updates),
      planText sha256 epicDocumentHash preview]

/-- No two texts of which digests are taken have the same first sixteen digits. -/
def NoCollision (sha256 : JsString → HexDigest) (epicDocumentHash : JsString)
    (p q : BatchPreviewPlan) :
    Prop :=
  ∀ s ∈ hashedTexts sha256 epicDocumentHash p q, ∀ t ∈ hashedTexts sha256 epicDocumentHash p q,
    shortDigest sha256 s = shortDigest sha256 t → s = t

/-! ## Texts and layouts -/

/-- The texts that the fields of a preview make up: those of the candidates of either
kind and those of the warnings. -/
def BatchPreviewPlan.texts (preview : BatchPreviewPlan) : JsString × JsString × JsString :=
  (hashedText (preview.explicitCandidates.flatMap PreviewFeatCandidate.updates),
    hashedText (preview.discoveredCandidates.flatMap PreviewFeatCandidate.updates),
    hashedText (preview.warnings.flatMap PreviewWarning.updates))

/-- For each unit of a text whether it is a lone surrogate, and then which. -/
def loneSurrogates (text : JsString) : List (Option CodeUnit) :=
  List.zipWith (fun u v => if u = v then none else some u) text text.toWellFormed

/-- Where the fields of a candidate end, and the lone surrogates in them. -/
def PreviewFeatCandidate.layout (candidate : PreviewFeatCandidate) :
    List (List (Option CodeUnit)) × List ℕ × Bool :=
  (candidate.updates.map loneSurrogates, candidate.dependencyIds.map List.length,
    candidate.priority.isSome)

def PreviewWarning.layout (warning : PreviewWarning) :
    List (List (Option CodeUnit)) × List ℕ :=
  (warning.updates.map loneSurrogates, warning.affectedFeatureIds.map List.length)

/-- How the texts of a preview are divided into candidates, warnings and fields. -/
def BatchPreviewPlan.layout (preview : BatchPreviewPlan) :
    List (List (List (Option CodeUnit)) × List ℕ × Bool) ×
      List (List (List (Option CodeUnit)) × List ℕ × Bool) ×
      List (List (List (Option CodeUnit)) × List ℕ) :=
  (preview.explicitCandidates.map PreviewFeatCandidate.layout,
    preview.discoveredCandidates.map PreviewFeatCandidate.layout,
    preview.warnings.map PreviewWarning.layout)

theorem length_loneSurrogates (text : JsString) : (loneSurrogates text).length = text.length := by
  rw [loneSurrogates, List.length_zipWith, JsString.length_toWellFormed, Nat.min_self]

theorem eq_of_zipWith_eq {s t kept : JsString} (hs : s.length = kept.length)
    (ht : t.length = kept.length)
    (h : List.zipWith (fun u v => if u = v then none else some u) s kept =
      List.zipWith (fun u v => if u = v then none else some u) t kept) : s = t := by
  induction kept generalizing s t with
  | nil => rw [List.length_eq_zero_iff.mp hs, List.length_eq_zero_iff.mp ht]
  | cons v kept ih =>
      obtain ⟨u, s, rfl⟩ := List.exists_cons_of_length_eq_add_one hs
      obtain ⟨w, t, rfl⟩ := List.exists_cons_of_length_eq_add_one ht
      obtain ⟨hhead, htail⟩ := List.cons.inj h
      have hunit : u = w := by
        by_cases hu : u = v <;> by_cases hw : w = v <;> simp_all
      rw [hunit, ih (Nat.succ.inj hs) (Nat.succ.inj ht) htail]

/-- What UTF-8 keeps of a text, together with its lone surrogates, is the text. -/
theorem eq_of_loneSurrogates {s t : JsString} (h : loneSurrogates s = loneSurrogates t)
    (hkept : s.toWellFormed = t.toWellFormed) : s = t := by
  unfold loneSurrogates at h
  rw [← hkept] at h
  refine eq_of_zipWith_eq (JsString.length_toWellFormed s).symm ?_ h
  rw [hkept, JsString.length_toWellFormed]

/-- Updates with the same ends and the same lone surrogates are read back. -/
theorem updates_eq {updates others : List JsString}
    (hlayout : updates.map loneSurrogates = others.map loneSurrogates)
    (htext : hashedText updates = hashedText others) : updates = others := by
  refine Layout.eq_of_flatMap_eq (fun s t hst => ?_) (fun s t => eq_of_loneSurrogates) hlayout htext
  rw [JsString.length_toWellFormed, JsString.length_toWellFormed, ← length_loneSurrogates,
    hst, length_loneSurrogates]

theorem length_hashedText {updates others : List JsString}
    (h : updates.map loneSurrogates = others.map loneSurrogates) :
    (hashedText updates).length = (hashedText others).length := by
  have hlength : ∀ texts : List JsString, (hashedText texts).length =
      ((texts.map loneSurrogates).map List.length).sum := by
    intro texts
    simp [hashedText, List.length_flatMap, Function.comp_def, length_loneSurrogates]
  rw [hlength, hlength, h]

theorem hashedText_flatMap {ρ : Type*} (records : List ρ) (updates : ρ → List JsString) :
    hashedText (records.flatMap updates) =
      records.flatMap fun record => hashedText (updates record) := by
  simp only [hashedText, List.flatMap_assoc]

/-! ## Reading a preview back -/

theorem toString_bool_injective : Function.Injective fun b : Bool => js (toString b) :=
  js_injective.comp fun a b h => by revert h; cases a <;> cases b <;> decide

theorem PreviewFeatCandidate.essence_eq {c d : PreviewFeatCandidate} (hlayout : c.layout = d.layout)
    (htext : hashedText c.updates = hashedText d.updates) : c.essence = d.essence := by
  obtain ⟨hupdates, hrest⟩ := Prod.mk.inj hlayout
  obtain ⟨hids, hpriority⟩ := Prod.mk.inj hrest
  have heq := updates_eq hupdates htext
  simp only [updates, List.cons.injEq, and_true] at heq
  obtain ⟨hid, htitle, hsummary, hjoined, hpriorityText, horder, hlink⟩ := heq
  have hdependencies := Layout.eq_of_intercalate_eq hids hjoined
  have hlink := toString_bool_injective hlink
  have horder := decimalText_injective horder
  obtain ⟨id, title, summary, ids, priority, order, link⟩ := c
  obtain ⟨id', title', summary', ids', priority', order', link'⟩ := d
  simp only at hid htitle hsummary hpriority hpriorityText hdependencies hlink horder
  have hpriority : priority = priority' := by
    cases priority <;> cases priority' <;> simp_all
  simp only [essence, hid, htitle, hsummary, hpriority, hdependencies, hlink, horder]

theorem PreviewWarning.eq_of_layout {w v : PreviewWarning} (hlayout : w.layout = v.layout)
    (htext : hashedText w.updates = hashedText v.updates) : w = v := by
  obtain ⟨hupdates, hids⟩ := Prod.mk.inj hlayout
  have heq := updates_eq hupdates htext
  simp only [updates, List.cons.injEq, and_true] at heq
  obtain ⟨htype, hmessage, hjoined⟩ := heq
  have hids := Layout.eq_of_intercalate_eq hids hjoined
  have htype : w.type = v.type := by
    have hword := js_injective htype
    cases hw : w.type <;> cases hv : v.type <;> rw [hw, hv] at hword <;> revert hword <;> decide
  obtain ⟨type, message, ids⟩ := w
  obtain ⟨type', message', ids'⟩ := v
  simp only at htype hmessage hids
  rw [htype, hmessage, hids]

/-- Two previews of one layout whose fields make up the same texts are the same. -/
theorem same_of_layout {p q : BatchPreviewPlan} (hlayout : p.layout = q.layout)
    (htexts : p.texts = q.texts) : Same p q := by
  obtain ⟨hexplicit, hrest⟩ := Prod.mk.inj hlayout
  obtain ⟨hdiscovered, hwarnings⟩ := Prod.mk.inj hrest
  simp only [BatchPreviewPlan.texts, hashedText_flatMap, Prod.mk.injEq] at htexts
  have hcandidate : ∀ c d : PreviewFeatCandidate, c.layout = d.layout →
      (hashedText c.updates).length = (hashedText d.updates).length :=
    fun c d h => length_hashedText (Prod.mk.inj h).1
  refine ⟨Layout.map_eq_of_flatMap_eq hcandidate (fun _ _ => PreviewFeatCandidate.essence_eq)
    hexplicit htexts.1, Layout.map_eq_of_flatMap_eq hcandidate
      (fun _ _ => PreviewFeatCandidate.essence_eq) hdiscovered htexts.2.1, ?_⟩
  exact Layout.eq_of_flatMap_eq
    (fun w v (hwv : PreviewWarning.layout w = PreviewWarning.layout v) =>
      length_hashedText (Prod.mk.inj hwv).1)
    (fun _ _ => PreviewWarning.eq_of_layout) hwarnings htexts.2.2

/-! ## The result -/

section Result

variable {sha256 : JsString → HexDigest} {epicDocumentHash : JsString} {p q : BatchPreviewPlan}

theorem shortDigest_eq_of_toWellFormed {s t : JsString}
    (h : (shortDigest sha256 s).toWellFormed = (shortDigest sha256 t).toWellFormed) :
    shortDigest sha256 s = shortDigest sha256 t := by
  have hself : ∀ text, (shortDigest sha256 text).toWellFormed = shortDigest sha256 text := by
    intro text
    refine JsString.toWellFormed_eq_self fun u hu => ?_
    have hhex := (sha256 text).property
    simp only [JsString.isHexDigest, Bool.and_eq_true, List.all_eq_true] at hhex
    have hdigit := hhex.2 u (List.mem_of_mem_take hu)
    refine isSurrogate_of_lt ?_
    simp only [Bool.or_eq_true, Bool.and_eq_true, decide_eq_true_eq, UInt16.le_iff_toNat_le]
      at hdigit
    rcases hdigit with ⟨-, h⟩ | ⟨-, h⟩ <;> exact lt_of_le_of_lt h (by decide)
  rwa [hself, hself] at h

theorem length_shortDigest (text : JsString) : (shortDigest sha256 text).length = 16 := by
  have hhex := (sha256 text).property
  simp only [JsString.isHexDigest, Bool.and_eq_true, beq_iff_eq] at hhex
  rw [shortDigest, List.length_take, hhex.1]
  rfl

theorem planText_eq (preview : BatchPreviewPlan) :
    planText sha256 epicDocumentHash preview = epicDocumentHash.toWellFormed ++
      ((calculateCandidateHash sha256 preview.explicitCandidates).toWellFormed ++
        ((calculateCandidateHash sha256 preview.discoveredCandidates).toWellFormed ++
          preview.texts.2.2)) := by
  simp [planText, hashedText, BatchPreviewPlan.texts]

/-- The hash tells apart what it is taken of. -/
theorem calculatePlanHash_eq_iff (hsha : NoCollision sha256 epicDocumentHash p q) :
    calculatePlanHash sha256 epicDocumentHash p = calculatePlanHash sha256 epicDocumentHash q ↔
      p.texts = q.texts := by
  unfold NoCollision hashedTexts at hsha
  simp only [List.flatMap_cons, List.flatMap_nil, List.append_nil, List.cons_append,
    List.nil_append, List.forall_mem_cons, List.not_mem_nil, false_implies, implies_true,
    and_true] at hsha
  obtain ⟨hexplicit, hdiscovered, hplan, -⟩ := hsha
  constructor
  · intro h
    have htext := hplan.2.2.2.2.2 h
    rw [planText_eq, planText_eq] at htext
    have hlength : ∀ candidates, (calculateCandidateHash sha256 candidates).toWellFormed.length =
        16 := fun candidates => by
      rw [JsString.length_toWellFormed, calculateCandidateHash, length_shortDigest]
    obtain ⟨hfirst, hrest⟩ := List.append_inj (List.append_cancel_left htext)
      ((hlength _).trans (hlength _).symm)
    obtain ⟨hsecond, hwarnings⟩ := List.append_inj hrest ((hlength _).trans (hlength _).symm)
    exact Prod.ext (hexplicit.2.2.2.1 (shortDigest_eq_of_toWellFormed hfirst))
      (Prod.ext (hdiscovered.2.2.2.2.1 (shortDigest_eq_of_toWellFormed hsecond)) hwarnings)
  · intro h
    obtain ⟨hfirst, hrest⟩ := Prod.mk.inj h
    obtain ⟨hsecond, hwarnings⟩ := Prod.mk.inj hrest
    rw [calculatePlanHash, calculatePlanHash, planText_eq, planText_eq, calculateCandidateHash,
      calculateCandidateHash, calculateCandidateHash, calculateCandidateHash, hfirst, hsecond]
    simp only [BatchPreviewPlan.texts, hwarnings]

/-- The layout and the texts read no more of a preview than is to be told apart. -/
theorem layout_of_same (h : Same p q) : p.layout = q.layout := by
  obtain ⟨hexplicit, hdiscovered, hwarnings⟩ := h
  have hlayout : ∀ candidates : List PreviewFeatCandidate,
      candidates.map PreviewFeatCandidate.layout =
        (candidates.map PreviewFeatCandidate.essence).map PreviewFeatCandidate.layout := by
    intro candidates
    rw [List.map_map]
    refine List.map_congr_left fun c _ => ?_
    simp [PreviewFeatCandidate.layout, PreviewFeatCandidate.updates, PreviewFeatCandidate.essence,
      List.take_take]
  simp only [BatchPreviewPlan.layout]
  rw [hlayout p.explicitCandidates, hlayout p.discoveredCandidates, hexplicit, hdiscovered,
    ← hlayout, ← hlayout, hwarnings]

/-- **What a plan hash tells apart.** Equal plan hashes mean the same preview if and only if the
two previews do not divide one and the same text into fields in two ways. -/
theorem calculatePlanHash_iff (sha256 : JsString → HexDigest) (epicDocumentHash : JsString)
    (p q : BatchPreviewPlan) (hsha : NoCollision sha256 epicDocumentHash p q) :
    (calculatePlanHash sha256 epicDocumentHash p = calculatePlanHash sha256 epicDocumentHash q →
      Same p q) ↔ (p.texts = q.texts → p.layout = q.layout) := by
  rw [calculatePlanHash_eq_iff hsha]
  exact ⟨fun h htexts => layout_of_same (h htexts),
    fun h htexts => same_of_layout (h htexts) htexts⟩

end Result

/-! ## One text, divided in two ways -/

/-- The texts are told apart by their lengths. -/
def lengthSha256 (text : JsString) : HexDigest :=
  ⟨List.replicate 64 (0x30 + UInt16.ofNat (text.length % 9)), by
    have hdigit : ∀ d < 9, ((0x61 ≤ 0x30 + UInt16.ofNat d && 0x30 + UInt16.ofNat d ≤ 0x66) ||
        (0x30 ≤ 0x30 + UInt16.ofNat d && 0x30 + UInt16.ofNat d ≤ 0x39)) = true := by
      decide
    rw [JsString.isHexDigest, List.length_replicate]
    simp only [beq_self_eq_true, Bool.true_and, List.all_replicate]
    exact hdigit _ (Nat.mod_lt _ (by decide))⟩

/-- A preview of one planned feature. -/
def onePlanned (title summary : String) : BatchPreviewPlan where
  explicitCandidates := []
  discoveredCandidates := [
    { plannedFeatureId := js "FEAT-001"
      title := js title
      summary := js summary
      dependencyIds := []
      priority := none
      sourceOrder := 1
      fromExplicitLink := false }]
  warnings := []

theorem noCollision_onePlanned :
    NoCollision lengthSha256 (js "e") (onePlanned "Log in" "") (onePlanned "Log" " in") := by
  unfold NoCollision
  decide

theorem calculatePlanHash_onePlanned :
    (calculatePlanHash lengthSha256 (js "e") (onePlanned "Log in" "") =
        calculatePlanHash lengthSha256 (js "e") (onePlanned "Log" " in") →
      Same (onePlanned "Log in" "") (onePlanned "Log" " in")) ↔
    ((onePlanned "Log in" "").texts = (onePlanned "Log" " in").texts →
      (onePlanned "Log in" "").layout = (onePlanned "Log" " in").layout) :=
  calculatePlanHash_iff lengthSha256 (js "e") _ _ noCollision_onePlanned

/-- **Two previews with one plan hash.** The title of one is the title and the summary of the
other. -/
theorem onePlanned_not_told_apart :
    ¬∀ (sha256 : JsString → HexDigest) (epicDocumentHash : JsString) (p q : BatchPreviewPlan),
      NoCollision sha256 epicDocumentHash p q →
        calculatePlanHash sha256 epicDocumentHash p = calculatePlanHash sha256 epicDocumentHash q →
          Same p q := by
  intro h
  have htexts : (onePlanned "Log in" "").texts = (onePlanned "Log" " in").texts := by
    decide
  have hsame := h lengthSha256 (js "e") _ _ noCollision_onePlanned
    ((calculatePlanHash_eq_iff noCollision_onePlanned).mpr htexts)
  unfold Same at hsame
  exact absurd hsame (by decide)

end Hepha.Preview
