import Hepha.Coverage.Compaction
import Hepha.Js.Collections
import Mathlib.Data.List.TakeWhile

/-!
# Compact forms are lossless

An identity is its common beginning, its middle and its common end, since the common end
is looked for behind the common beginning (`middle_spec`).  So a factored list expands to
the list whatever the sizes are, by induction on the number of identities; and what the
sizes choose between are forms of the same model.
-/

namespace Hepha.Coverage

/-! ## Identities -/

/-- As many indexes as the loop counts have the property. -/
theorem of_lt_length_takeWhile {p : ℕ → Bool} {n i : ℕ}
    (h : i < ((List.range n).takeWhile p).length) : p i = true ∧ i < n := by
  have hget : ((List.range n).takeWhile p)[i] = i := by
    rw [(List.takeWhile_prefix p).getElem h, List.getElem_range]
  have hmem := List.getElem_mem h
  rw [hget] at hmem
  exact ⟨List.mem_takeWhile_imp hmem, List.mem_range.mp ((List.takeWhile_prefix p).subset hmem)⟩

section Factor

variable {identities : List JsString} {first value : JsString}

theorem getElem?_of_lt_commonStart {i : ℕ} (hvalue : value ∈ identities)
    (h : i < commonStart identities first) : value[i]? = first[i]? ∧ i < first.length := by
  obtain ⟨hall, hlt⟩ := of_lt_length_takeWhile h
  exact ⟨eq_of_beq (List.all_eq_true.mp hall value hvalue), hlt⟩

theorem getElem?_of_lt_commonEnd {start i : ℕ} (hvalue : value ∈ identities)
    (h : i < commonEnd identities first start) :
    value[value.length - 1 - i]? = first[first.length - 1 - i]? ∧ i < value.length - start ∧
      i < first.length - start := by
  obtain ⟨hall, hlt⟩ := of_lt_length_takeWhile h
  have hboth := List.all_eq_true.mp hall value hvalue
  rw [Bool.and_eq_true, decide_eq_true_eq] at hboth
  exact ⟨eq_of_beq hboth.2, hboth.1, hlt⟩

/-- The common beginning of an identity. -/
theorem take_commonStart (hvalue : value ∈ identities) :
    value.take (commonStart identities first) = first.take (commonStart identities first) ∧
      commonStart identities first ≤ value.length := by
  constructor
  · refine List.ext_getElem? fun i => ?_
    by_cases h : i < commonStart identities first
    · rw [List.getElem?_take_of_lt h, List.getElem?_take_of_lt h,
        (getElem?_of_lt_commonStart hvalue h).1]
    · rw [List.getElem?_take_eq_none (Nat.le_of_not_lt h),
        List.getElem?_take_eq_none (Nat.le_of_not_lt h)]
  · by_contra h
    obtain ⟨hget, hlt⟩ := getElem?_of_lt_commonStart hvalue (Nat.lt_of_not_le h)
    rw [List.getElem?_eq_none (Nat.le_refl _), List.getElem?_eq_getElem hlt] at hget
    cases hget

/-- The common end of an identity, which does not overlap its common beginning. -/
theorem drop_commonEnd (hvalue : value ∈ identities) :
    let start := commonStart identities first
    let stop := commonEnd identities first start
    value.drop (value.length - stop) = first.drop (first.length - stop) ∧
      start + stop ≤ value.length := by
  intro start stop
  have hstart : start ≤ value.length := (take_commonStart hvalue).2
  have hspec {i : ℕ} (h : i < stop) := getElem?_of_lt_commonEnd hvalue h
  have hle : start + stop ≤ value.length ∧ stop ≤ first.length := by
    rcases Nat.eq_zero_or_pos stop with hzero | hpos
    · omega
    · obtain ⟨-, hlt, hlt'⟩ := hspec (i := stop - 1) (by omega)
      omega
  refine ⟨List.ext_getElem? fun j => ?_, hle.1⟩
  rw [List.getElem?_drop, List.getElem?_drop]
  by_cases hj : j < stop
  · -- the unit at `j` of the end is the one at `stop - 1 - j` from the back
    have hback := (hspec (i := stop - 1 - j) (by omega)).1
    have hindex : value.length - 1 - (stop - 1 - j) = value.length - stop + j := by omega
    have hindex' : first.length - 1 - (stop - 1 - j) = first.length - stop + j := by omega
    rwa [hindex, hindex'] at hback
  · rw [List.getElem?_eq_none (by omega), List.getElem?_eq_none (by omega)]

/-- **An identity is its common beginning, its middle and its common end.** -/
theorem middle_spec (hvalue : value ∈ identities) :
    let start := commonStart identities first
    let stop := commonEnd identities first start
    first.take start ++ middle start stop value ++ first.drop (first.length - stop) = value := by
  intro start stop
  have hfront : value.take start = first.take start := (take_commonStart hvalue).1
  have hend : value.drop (value.length - stop) = first.drop (first.length - stop) :=
    (drop_commonEnd hvalue).1
  have hle : start + stop ≤ value.length := (drop_commonEnd hvalue).2
  have htake : value.take start = (value.take (value.length - stop)).take start := by
    rw [List.take_take, Nat.min_eq_left (Nat.le_sub_of_add_le hle)]
  rw [← hend, ← hfront, htake, middle, List.take_append_drop, List.take_append_drop]

end Factor

theorem expandIdentities_append (front rest : List IdentityFragment) :
    expandIdentities (front ++ rest) = expandIdentities front ++ expandIdentities rest := by
  induction front with
  | nil => rfl
  | cons fragment front ih =>
      rw [List.cons_append, expandIdentities, expandIdentities, ih, List.append_assoc]

theorem expandIdentities_literals (texts : List JsString) :
    expandIdentities (texts.map .literal) = texts := by
  induction texts with
  | nil => rfl
  | cons text rest ih =>
      rw [List.map_cons, expandIdentities, expandFragment, ih]
      rfl

/-- Groups that expand to what they were made of. -/
theorem expandIdentities_flatMap {groups : List (List JsString)}
    {compact : {group // group ∈ groups} → List IdentityFragment}
    (h : ∀ group, expandIdentities (compact group) = group.1) :
    expandIdentities (groups.attach.flatMap compact) = groups.flatten := by
  have hall (items : List {group // group ∈ groups}) :
      expandIdentities (items.flatMap compact) = (items.map Subtype.val).flatten := by
    induction items with
    | nil => rfl
    | cons item rest ih =>
        rw [List.flatMap_cons, expandIdentities_append, h, ih, List.map_cons, List.flatten_cons]
  rw [hall, List.attach_map_subtype_val]

/-- A factor whose items expand to the middles expands to the identities. -/
theorem expandIdentities_factor {identities : List JsString} {first : JsString}
    {items : List IdentityFragment} (h : expandIdentities items =
      identities.map (middle (commonStart identities first)
        (commonEnd identities first (commonStart identities first)))) :
    expandIdentities [.factor (first.take (commonStart identities first)) (first.drop
      (first.length - commonEnd identities first (commonStart identities first))) items] =
      identities := by
  rw [expandIdentities, expandIdentities, expandFragment, h, List.append_nil, List.map_map]
  exact (List.map_congr_left fun value hvalue => middle_spec hvalue).trans (List.map_id _)

section Compact

variable (platform : Platform)

/-- **Compact identities expand to the identities**, in order and with repetitions. -/
theorem expandIdentities_compactIdentities (identities : List JsString) :
    expandIdentities (compactIdentities platform identities) = identities := by
  induction hlength : identities.length using Nat.strong_induction_on generalizing identities with
  | _ n ih =>
      match identities with
      | [] | [_] => rw [compactIdentities]; exact expandIdentities_literals _
      | first :: second :: rest =>
          rw [compactIdentities]
          generalize hmiddles : (first :: second :: rest).map (middle _ _) = middles
          have hlength' : middles.length = n := by
            rw [← hmiddles, List.length_map, hlength]
          obtain ⟨items, heq, hitems⟩ : ∃ items, items =
              (if _h : 1 < (groupMiddles middles).length then
                (groupMiddles middles).attach.flatMap fun group =>
                  compactIdentities platform group.1
              else middles.map .literal) ∧ expandIdentities items = middles := by
            refine ⟨_, rfl, ?_⟩
            split
            · rename_i hseveral
              refine (expandIdentities_flatMap fun group => ?_).trans (groupMiddles_spec middles).1
              have hlt := length_lt_of_mem_groupMiddles hseveral group.2
              exact ih _ (hlength' ▸ hlt) _ rfl
            · exact expandIdentities_literals _
          rw [← heq]
          split
          · exact expandIdentities_factor (hitems.trans hmiddles.symm)
          · exact expandIdentities_literals _

/-! ## Reports -/

theorem decodeReport_plain (catalog : List JsString) (entry : AutomatedEvidence) :
    decodeReport catalog (plainReport entry) = some entry :=
  rfl

theorem decodeReport_factored (catalog : List JsString) (entry : AutomatedEvidence) :
    decodeReport catalog (factoredReport platform entry) = some entry := by
  unfold factoredReport
  split
  · rfl
  · rfl
  · rename_i identities _ hidentities
    simp only
    split
    · rfl
    · rw [decodeReport]
      simp only [if_true, expandIdentities_compactIdentities]
      rw [← hidentities]

theorem mapM_decodeReport_factored (catalog : List JsString) (entries : List AutomatedEvidence) :
    (entries.map (factoredReport platform)).mapM (decodeReport catalog) = some entries := by
  induction entries with
  | nil => rfl
  | cons entry rest ih =>
      exact mapM_cons_eq_some.2
        ⟨entry, rest, decodeReport_factored platform catalog entry, ih, rfl⟩

/-- **Shared reports are decoded** by every catalog that begins with theirs. -/
theorem shareReports_spec (catalog : List JsString) (entries : List AutomatedEvidence) :
    catalog <+: (shareReports catalog entries).1 ∧
      (catalog.Nodup → (shareReports catalog entries).1.Nodup) ∧
        ∀ later, (shareReports catalog entries).1 <+: later →
          (shareReports catalog entries).2.mapM (decodeReport later) = some entries := by
  induction entries generalizing catalog with
  | nil => exact ⟨List.prefix_refl _, id, fun _ _ => rfl⟩
  | cons entry rest ih =>
      rw [shareReports]
      split
      · obtain ⟨hgrown, hnodup, hdecode⟩ := ih catalog
        refine ⟨hgrown, hnodup, fun later hlater => mapM_cons_eq_some.2 ?_⟩
        exact ⟨entry, rest, decodeReport_plain later entry, hdecode later hlater, rfl⟩
      · obtain ⟨hgrown, hnodup, hdecode⟩ := ih catalog
        refine ⟨hgrown, hnodup, fun later hlater => mapM_cons_eq_some.2 ?_⟩
        exact ⟨entry, rest, decodeReport_plain later entry, hdecode later hlater, rfl⟩
      · rename_i identities _ hidentities
        obtain ⟨hgrown, hnodup, hdecode⟩ := ih (internAll catalog identities).1
        refine ⟨prefix_internAll.trans hgrown, fun h => hnodup (nodup_internAll h),
          fun later hlater => mapM_cons_eq_some.2 ?_⟩
        refine ⟨entry, rest, ?_, hdecode later hlater, rfl⟩
        have hselect := select_of_prefix select_internAll (hgrown.trans hlater)
        rw [decodeReport]
        simp only [hselect, Option.bind_some, if_true]
        rw [← hidentities]

/-- **A report is carried over** to a catalog with the same items. -/
theorem decodeReport_remap {catalog sortedCatalog : List JsString} {report : ReportView}
    {entry : AutomatedEvidence} (hperm : sortedCatalog.Perm catalog)
    (h : decodeReport catalog report = some entry) :
    decodeReport sortedCatalog (remapReport catalog sortedCatalog report) = some entry := by
  obtain ⟨metadata, identities⟩ := report
  cases identities with
  | plain identities => exact h
  | fragments count fragments => exact h
  | references count references =>
      obtain ⟨identities, hselect, hcount⟩ := Option.bind_eq_some_iff.mp h
      have hremap (i : ℕ) (identity : JsString) (hi : catalog[i]? = some identity) :
          sortedCatalog[sortedCatalog.idxOf (catalog[i]?.getD [])]? = some identity := by
        have hmem := hperm.mem_iff.mpr (List.mem_of_getElem? hi)
        rw [hi, Option.getD_some]
        exact List.getElem?_idxOf hmem
      exact Option.bind_eq_some_iff.mpr ⟨identities, select_map hselect hremap, hcount⟩

theorem mapM_decodeReport_remap {catalog sortedCatalog : List JsString}
    {reports : List ReportView} {entries : List AutomatedEvidence}
    (hperm : sortedCatalog.Perm catalog)
    (h : reports.mapM (decodeReport catalog) = some entries) :
    (reports.map (remapReport catalog sortedCatalog)).mapM (decodeReport sortedCatalog) =
      some entries := by
  induction reports generalizing entries with
  | nil => exact h
  | cons report rest ih =>
      obtain ⟨entry, others, hentry, hothers, rfl⟩ := mapM_cons_eq_some.1 h
      exact mapM_cons_eq_some.2
        ⟨entry, others, decodeReport_remap hperm hentry, ih hothers, rfl⟩

/-! ## Diagnostics -/

theorem splitDiagnostic_append (value : JsString) :
    (splitDiagnostic value).1 ++ (splitDiagnostic value).2 = value := by
  have hsep : js ": " ≠ [] := by decide
  have hcut := @intercalate_cut _ _ _ value hsep
  unfold splitDiagnostic
  split
  · rename_i origin next rest heq
    have hgrown : origin ++ js ": " <+: value := by
      rw [← hcut, heq, List.intercalate_cons_cons]
      exact List.prefix_append _ _
    have hlength : (origin ++ js ": ").length = origin.length + 2 := List.length_append
    rw [← hlength]
    exact List.prefix_append_drop hgrown |>.symm
  · rfl

theorem zipWith_map_append {values : List JsString} {f g : JsString → JsString}
    (h : ∀ value, f value ++ g value = value) :
    (values.map f).zipWith (· ++ ·) (values.map g) = values := by
  induction values with
  | nil => rfl
  | cons value rest ih => rw [List.map_cons, List.map_cons, List.zipWith_cons_cons, ih, h]

theorem length_internAll (catalog texts : List JsString) :
    (internAll catalog texts).2.length = texts.length :=
  (length_select select_internAll).symm

/-- **The diagnostics of a context are kept.** -/
theorem decodeRecovery_compactDiagnostics (context : RecoveryContext) :
    decodeRecovery (compactDiagnostics platform context) = some context := by
  unfold compactDiagnostics
  simp only
  split
  · rfl
  · rfl
  · rename_i values _ hvalues
    split
    · rfl
    · obtain ⟨items, hitems, hread⟩ := Option.bind_eq_some_iff.mp hvalues
      have hdiagnostics : context.executionDiagnostics = .arr (values.map .str) := by
        have hstr (item : JsValue) (value : JsString) (hitem : item.isString = some value) :
            JsValue.str value = id item := by
          cases item <;> cases hitem
          rfl
        have hmap := map_of_mapM hread hstr
        rw [List.map_id] at hmap
        rw [hmap]
        generalize context.executionDiagnostics = diagnostics at hitems
        cases diagnostics <;> cases hitems
        rfl
      -- the two catalogs of the diagnostics have a reference for each of them
      generalize horigins : values.map (fun value => (splitDiagnostic value).1) = origins
      generalize hreasons : values.map (fun value => (splitDiagnostic value).2) = reasons
      have hlength : (internAll [] origins).2.length = (internAll [] reasons).2.length := by
        rw [length_internAll, length_internAll, ← horigins, ← hreasons, List.length_map,
          List.length_map]
      have hdecode : DiagnosticCatalog.decode
          ⟨compactIdentities platform (internAll [] origins).1,
            compactIdentities platform (internAll [] reasons).1,
            (internAll [] origins).2.zip (internAll [] reasons).2⟩ = some values := by
        rw [DiagnosticCatalog.decode]
        simp only [expandIdentities_compactIdentities, List.map_fst_zip (Nat.le_of_eq hlength),
          List.map_snd_zip (Nat.le_of_eq hlength.symm), select_internAll]
        rw [← horigins, ← hreasons]
        exact congrArg some (zipWith_map_append splitDiagnostic_append)
      rw [decodeRecovery]
      simp only [hdecode, Option.map_some]
      rw [← hdiagnostics]

/-! ## The result -/

theorem decodeContext_eq {view : CoverageView} {model : DeliveryModel}
    (hproperties : view.properties = model.properties)
    (hreports : view.automatedEvidence.mapM (decodeReport (expandIdentities
      (view.executionIdentityCatalog.getD []))) = some model.automatedEvidence)
    (hcontext : view.recoveryContext = model.recoveryContext.map (compactDiagnostics platform)) :
    decodeContext view = some model := by
  have hrecovery : (view.recoveryContext.mapM decodeRecovery : Option (Option RecoveryContext)) =
      some model.recoveryContext := by
    rw [hcontext]
    cases model.recoveryContext with
    | none => rfl
    | some context =>
        show (decodeRecovery (compactDiagnostics platform context)).map some = _
        rw [decodeRecovery_compactDiagnostics]
        rfl
  rw [decodeContext]
  simp only [hreports, hrecovery, hproperties, Option.bind_eq_bind, Option.bind_some]
  rfl

theorem decodeContext_shorter {view other : CoverageView} {model : DeliveryModel}
    (hview : decodeContext view = some model) (hother : decodeContext other = some model) :
    decodeContext (shorter platform view other) = some model := by
  unfold shorter
  split
  · exact hview
  · exact hother

/-- **A compact context stands for the model** it was made from. -/
theorem decodeContext_compactCoverageContext (model : DeliveryModel) :
    decodeContext (compactCoverageContext platform model) = some model := by
  obtain ⟨-, hnodup, hdecode⟩ := shareReports_spec [] model.automatedEvidence
  have hshared := hdecode _ (List.prefix_refl _)
  have hperm := List.perm_insertionSort (· ≤ ·) (shareReports [] model.automatedEvidence).1
  refine decodeContext_shorter platform (decodeContext_shorter platform ?_ ?_) ?_
  · refine decodeContext_eq platform rfl ?_ rfl
    rw [Option.getD_some, expandIdentities_compactIdentities]
    exact mapM_decodeReport_remap hperm hshared
  · refine decodeContext_eq platform rfl ?_ rfl
    rw [Option.getD_some, expandIdentities_compactIdentities]
    exact hshared
  · exact decodeContext_eq platform rfl (mapM_decodeReport_factored platform _ _) rfl

/-- **Compact source documents stand for the source.** -/
theorem decodeSource_compactSourceDocuments (source : JsString) :
    decodeSource (compactSourceDocuments platform source) = some source := by
  unfold compactSourceDocuments
  simp only
  split
  · rw [decodeSource, select_internAll, Option.map_some, intercalate_cut (List.cons_ne_nil _ _)]
  · rfl

/-- **Compact forms are lossless**: identities with their order and repetitions, a model
with the identities of each report and the diagnostics, and a source. -/
theorem compaction_lossless :
    (∀ identities : List JsString,
      expandIdentities (compactIdentities platform identities) = identities) ∧
    (∀ model, decodeContext (compactCoverageContext platform model) = some model) ∧
    ∀ source, decodeSource (compactSourceDocuments platform source) = some source :=
  ⟨expandIdentities_compactIdentities platform, decodeContext_compactCoverageContext platform,
    decodeSource_compactSourceDocuments platform⟩

end Compact

end Hepha.Coverage
