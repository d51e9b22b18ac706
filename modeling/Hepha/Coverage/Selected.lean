import Hepha.Coverage.Extraction

/-!
# What the selection keeps

The pages of a model hold all its identities, and the models that are made
from the answers keep what was cited, no more and no less.

## Strategy

`fillPages` keeps three things of the page that is being filled: it is within
the limit, its size is the one that is counted, and what the pages hold
together with what is still to come is the whole list (`fillPages_spec`).

A page leaves in the two maps what they had before and what its answer cites
(`cites_visitPage`, `selects_visitPage`); by induction over the pages the
maps hold what some answer cited.
-/

namespace Hepha.Coverage

/-! ## Pages -/

section Pages

variable {pageLimit : ℕ} {measure : JsString → ℕ}

/-- The size of some identities on a page. -/
def pageSize (measure : JsString → ℕ) (identities : List IndexedIdentity) : ℕ :=
  (identities.map (itemSize measure)).sum

/-- A page that may be given to the worker. -/
def PageWithin (pageLimit : ℕ) (measure : JsString → ℕ) (page : ExecutionPage) : Prop :=
  page.identities ≠ [] ∧ pageSize measure page.identities ≤ pageLimit

theorem pageSize_append_singleton (identities : List IndexedIdentity) (item : IndexedIdentity) :
    pageSize measure (identities ++ [item]) =
      pageSize measure identities + itemSize measure item := by
  simp [pageSize]

theorem fillPages_spec {evidenceId : JsString} {identities items : List IndexedIdentity}
    {size : ℕ} {pages : List ExecutionPage} (hsize : pageSize measure identities = size)
    (hlimit : size ≤ pageLimit)
    (h : fillPages pageLimit measure evidenceId identities size items = .ok pages) :
    (∀ page ∈ pages, page.evidenceId = evidenceId ∧ PageWithin pageLimit measure page) ∧
      pages.flatMap ExecutionPage.identities = identities ++ items := by
  induction items generalizing identities size pages with
  | nil =>
      obtain rfl := Except.ok.inj h
      cases identities with
      | nil => simp
      | cons first rest =>
          subst hsize
          simp [PageWithin, hlimit]
  | cons item rest ih =>
      rw [fillPages] at h
      split at h
      · cases h
      · rename_i hitem
        split at h
        · rename_i hfull
          simp only [Bool.and_eq_true, Bool.not_eq_true', List.isEmpty_eq_false_iff] at hfull
          cases hrest : fillPages pageLimit measure evidenceId [item] (itemSize measure item)
              rest with
          | error message =>
              rw [hrest] at h
              cases h
          | ok others =>
              rw [hrest] at h
              obtain rfl := Except.ok.inj h
              have hone : pageSize measure [item] = itemSize measure item := by simp [pageSize]
              obtain ⟨hpages, hwhole⟩ := ih hone (Nat.le_of_not_lt hitem) hrest
              refine ⟨?_, ?_⟩
              · intro page hpage
                rcases List.mem_cons.mp hpage with rfl | hpage
                · exact ⟨rfl, hfull.2, hsize ▸ hlimit⟩
                · exact hpages page hpage
              · rw [List.flatMap_cons, hwhole]
                rfl
        · rename_i hroom
          -- the page is empty, or the identity still fits
          have hfits : size + itemSize measure item ≤ pageLimit := by
            by_cases hempty : identities = []
            · subst hempty
              have hzero : size = 0 := hsize.symm
              omega
            · have hle : ¬size + itemSize measure item > pageLimit := fun hgt =>
                hroom (by simp [hgt, hempty])
              omega
          have hnext := ih (by rw [pageSize_append_singleton, hsize]) hfits h
          rw [List.append_assoc] at hnext
          exact hnext

theorem pagesOfReports_spec {evidences : List EvidenceEntry} {pages : List ExecutionPage}
    (hids : (evidences.map EvidenceEntry.id).Nodup)
    (h : pagesOfReports pageLimit measure evidences = .ok pages) :
    (∀ page ∈ pages, page.evidenceId ∈ evidences.map EvidenceEntry.id ∧
        PageWithin pageLimit measure page) ∧
      ∀ entry ∈ evidences, (pages.filter fun page => page.evidenceId = entry.id).flatMap
        ExecutionPage.identities = entry.items := by
  induction evidences generalizing pages with
  | nil =>
      obtain rfl := Except.ok.inj h
      simp
  | cons evidence rest ih =>
      rw [pagesOfReports] at h
      cases hfirst : fillPages pageLimit measure evidence.id [] 0 evidence.items with
      | error message =>
          rw [hfirst] at h
          cases h
      | ok own =>
          cases hrest : pagesOfReports pageLimit measure rest with
          | error message =>
              rw [hfirst, hrest] at h
              cases h
          | ok others =>
              rw [hfirst, hrest] at h
              obtain rfl := Except.ok.inj h
              obtain ⟨hown, hitems⟩ := fillPages_spec rfl (Nat.zero_le _) hfirst
              rw [List.map_cons, List.nodup_cons] at hids
              obtain ⟨hothers, hwhole⟩ := ih hids.2 hrest
              refine ⟨?_, ?_⟩
              · intro page hpage
                rcases List.mem_append.mp hpage with hpage | hpage
                · exact ⟨List.mem_map.mpr ⟨evidence, List.mem_cons_self, (hown page hpage).1.symm⟩,
                    (hown page hpage).2⟩
                · exact ⟨List.mem_cons_of_mem _ (hothers page hpage).1, (hothers page hpage).2⟩
              · intro entry hentry
                rw [List.filter_append, List.flatMap_append]
                rcases List.mem_cons.mp hentry with rfl | hentry
                · have hall : own.filter (fun page => page.evidenceId = entry.id) = own :=
                    List.filter_eq_self.mpr fun page hpage => by simp [(hown page hpage).1]
                  have hnone : others.filter (fun page => page.evidenceId = entry.id) = [] :=
                    List.filter_eq_nil_iff.mpr fun page hpage heq =>
                      hids.1 (of_decide_eq_true heq ▸ (hothers page hpage).1)
                  rw [hall, hnone, hitems]
                  simp
                · have hne : evidence.id ≠ entry.id := fun heq =>
                    hids.1 (heq ▸ List.mem_map_of_mem hentry)
                  have hnone : own.filter (fun page => page.evidenceId = entry.id) = [] :=
                    List.filter_eq_nil_iff.mpr fun page hpage heq =>
                      hne ((hown page hpage).1.symm.trans (of_decide_eq_true heq))
                  rw [hnone, hwhole entry hentry]
                  rfl

/-- What the pages of a model hold. -/
structure PagesSound (pageLimit : ℕ) (measure : JsString → ℕ) (model : AssessmentModel)
    (pages : List ExecutionPage) : Prop where
  within : ∀ page ∈ pages, page.evidenceId ∈ model.automatedEvidence.map EvidenceEntry.id ∧
    page.identities ≠ [] ∧ pageSize measure page.identities ≤ pageLimit
  whole : ∀ entry ∈ model.automatedEvidence,
    (pages.filter fun page => page.evidenceId = entry.id).flatMap ExecutionPage.identities =
      entry.items

theorem executionAssessmentPages_sound {model : AssessmentModel} {pages : List ExecutionPage}
    (hids : (model.automatedEvidence.map EvidenceEntry.id).Nodup)
    (h : executionAssessmentPages pageLimit measure model = .ok pages) :
    PagesSound pageLimit measure model pages := by
  rw [executionAssessmentPages] at h
  cases hpages : pagesOfReports pageLimit measure model.automatedEvidence with
  | error message =>
      rw [hpages] at h
      cases h
  | ok all =>
      rw [hpages] at h
      have heq : all = pages := by
        change (if _ then _ else _) = _ at h
        split at h
        · cases h
        · exact Except.ok.inj h
      subst heq
      obtain ⟨hwithin, hwhole⟩ := pagesOfReports_spec hids hpages
      exact ⟨hwithin, hwhole⟩

end Pages

/-! ## Answers -/

section Answers

variable {platform : Platform} {model : AssessmentModel} {responses : ℕ → JsString}

theorem mem_addIndexes {set indexes : List ℕ} {i : ℕ} :
    i ∈ addIndexes set indexes ↔ i ∈ set ∨ i ∈ indexes := by
  unfold addIndexes
  induction indexes generalizing set with
  | nil => simp
  | cons index rest ih =>
      rw [List.foldl_cons, ih]
      by_cases hmem : index ∈ set
      · rw [if_pos hmem, List.mem_cons]
        constructor
        · rintro (h | h)
          · exact .inl h
          · exact .inr (.inr h)
        · rintro (h | rfl | h)
          · exact .inl h
          · exact .inl hmem
          · exact .inr h
      · rw [if_neg hmem, List.mem_append, List.mem_singleton, List.mem_cons, or_assoc]

theorem contains_getD_addIndexes {set : Option (List ℕ)} {indexes : List ℕ} {i : ℕ} :
    (addIndexes (set.getD []) indexes).contains i = true ↔
      set.any (fun set => set.contains i) = true ∨ i ∈ indexes := by
  rw [List.contains_iff_mem, mem_addIndexes]
  cases set <;> simp

/-- An entry of an answer cites an index of a report for a criterion. -/
def PageMatch.Cites (found : PageMatch) (sourceId : JsString) (index : ℕ) : Prop :=
  found.sourceId = sourceId ∧ index ∈ found.identityIndexes

theorem selects_visitMatch {evidenceId id : JsString} {state : Selections} {found : PageMatch}
    {i : ℕ} : (visitMatch evidenceId state found).selects id i = true ↔
      state.selects id i = true ∨ id = evidenceId ∧ i ∈ found.identityIndexes := by
  simp only [visitMatch, Selections.selects, JsMap.get_set]
  by_cases hid : id = evidenceId
  · subst hid
    rw [if_pos rfl, Option.any_some, contains_getD_addIndexes]
    simp
  · simp [hid]

theorem cites_visitMatch {evidenceId id sourceId : JsString} {state : Selections}
    {found : PageMatch} {i : ℕ} :
    (visitMatch evidenceId state found).cites sourceId id i = true ↔
      state.cites sourceId id i = true ∨ id = evidenceId ∧ found.Cites sourceId i := by
  simp only [visitMatch, Selections.cites, JsMap.get_set, PageMatch.Cites]
  by_cases hsource : sourceId = found.sourceId
  · subst hsource
    rw [if_pos rfl, Option.any_some, JsMap.get_set]
    by_cases hid : id = evidenceId
    · subst hid
      rw [if_pos rfl, Option.any_some, contains_getD_addIndexes]
      cases JsMap.get state.byCriterion found.sourceId <;> simp [JsMap.get]
    · rw [if_neg hid]
      cases JsMap.get state.byCriterion found.sourceId <;> simp [hid, JsMap.get]
  · simp [hsource, Ne.symm hsource]

theorem foldl_visitMatch {evidenceId : JsString} {accepted : List PageMatch} {state : Selections} :
    (∀ id i, (accepted.foldl (visitMatch evidenceId) state).selects id i = true ↔
      state.selects id i = true ∨ id = evidenceId ∧
        ∃ found ∈ accepted, i ∈ found.identityIndexes) ∧
      ∀ sourceId id i, (accepted.foldl (visitMatch evidenceId) state).cites sourceId id i = true ↔
        state.cites sourceId id i = true ∨ id = evidenceId ∧
          ∃ found ∈ accepted, found.Cites sourceId i := by
  induction accepted generalizing state with
  | nil => simp
  | cons found rest ih =>
      obtain ⟨hselects, hcites⟩ := @ih (visitMatch evidenceId state found)
      constructor
      · intro id i
        rw [List.foldl_cons, hselects, selects_visitMatch, or_assoc, ← and_or_left]
        simp only [List.exists_mem_cons_iff]
      · intro sourceId id i
        rw [List.foldl_cons, hcites, cites_visitMatch, or_assoc, ← and_or_left]
        simp only [List.exists_mem_cons_iff]

theorem selects_visitPage {pageNumber : ℕ} {page : ExecutionPage} {accepted : List PageMatch}
    {state : Selections} {id : JsString} {i : ℕ} :
    (visitPage pageNumber page accepted state).selects id i = true ↔
      state.selects id i = true ∨ id = page.evidenceId ∧
        ∃ found ∈ accepted, i ∈ found.identityIndexes := by
  refine (foldl_visitMatch.1 id i).trans (or_congr_left ?_)
  -- the set of the report is there before its first index is
  simp only [Selections.selects, JsMap.get_set]
  by_cases hid : id = page.evidenceId
  · subst hid
    cases JsMap.get state.selections page.evidenceId <;> simp
  · simp [hid]

theorem cites_visitPage {pageNumber : ℕ} {page : ExecutionPage} {accepted : List PageMatch}
    {state : Selections} {sourceId id : JsString} {i : ℕ} :
    (visitPage pageNumber page accepted state).cites sourceId id i = true ↔
      state.cites sourceId id i = true ∨ id = page.evidenceId ∧
        ∃ found ∈ accepted, found.Cites sourceId i :=
  foldl_visitMatch.2 sourceId id i

theorem readMatch_requested {requested : List JsString} {page : ExecutionPage} {raw : JsValue}
    {found : PageMatch} (h : readMatch requested page raw = some found) :
    found.sourceId ∈ requested := by
  simp only [readMatch, Option.bind_eq_bind, Option.bind_eq_some_iff] at h
  obtain ⟨sourceId, hsource, _, _, indexes, _, h⟩ := h
  split at h
  · cases h
  · obtain rfl := Option.some.inj h
    exact List.contains_iff_mem.mp (Option.filter_eq_some_iff.mp hsource).2

theorem validateResponse_requested {requested : List JsString} {pageNumber pageCount : ℕ}
    {page : ExecutionPage} {response : JsString} {accepted : List PageMatch}
    (h : validateResponse platform requested pageNumber pageCount page response = .ok accepted)
    {found : PageMatch} (hfound : found ∈ accepted) : found.sourceId ∈ requested := by
  unfold validateResponse at h
  split at h
  · cases h
  · split at h
    · cases h
    · split at h
      · cases h
      · split at h
        · cases h
        · rename_i hmatches
          obtain rfl := Except.ok.inj h
          obtain ⟨raw, _, hraw⟩ := exists_item_of_mapM hmatches hfound
          exact readMatch_requested hraw

/-! ## The loop over the pages -/

/-- Some page's accepted answer cites an index of a report for a criterion.  The pages are
numbered from `first`. -/
def CitedFrom (platform : Platform) (responses : ℕ → JsString) (model : AssessmentModel)
    (pageCount first : ℕ) (pages : List ExecutionPage) (sourceId evidenceId : JsString)
    (index : ℕ) : Prop :=
  ∃ n page accepted, pages[n]? = some page ∧
    validateResponse platform model.requested (first + n) pageCount page
      (responses (first + n)) = .ok accepted ∧
    evidenceId = page.evidenceId ∧ ∃ found ∈ accepted, found.Cites sourceId index

theorem citedFrom_nil {pageCount first : ℕ} {sourceId evidenceId : JsString} {index : ℕ} :
    ¬CitedFrom platform responses model pageCount first [] sourceId evidenceId index := by
  rintro ⟨n, page, accepted, hpage, -⟩
  simp at hpage

theorem citedFrom_cons {pageCount first : ℕ} {page : ExecutionPage} {rest : List ExecutionPage}
    {accepted : List PageMatch} {sourceId evidenceId : JsString} {index : ℕ}
    (haccepted : validateResponse platform model.requested first pageCount page
      (responses first) = .ok accepted) :
    CitedFrom platform responses model pageCount first (page :: rest) sourceId evidenceId index ↔
      (evidenceId = page.evidenceId ∧ ∃ found ∈ accepted, found.Cites sourceId index) ∨
        CitedFrom platform responses model pageCount (first + 1) rest sourceId evidenceId
          index := by
  constructor
  · rintro ⟨n, other, answer, hpage, hanswer, hcites⟩
    cases n with
    | zero =>
        obtain rfl := Option.some.inj hpage
        rw [Nat.add_zero, haccepted] at hanswer
        obtain rfl := Except.ok.inj hanswer
        exact .inl hcites
    | succ n =>
        refine .inr ⟨n, other, answer, hpage, ?_, hcites⟩
        rwa [Nat.add_right_comm, Nat.add_assoc]
  · rintro (hcites | ⟨n, other, answer, hpage, hanswer, hcites⟩)
    · exact ⟨0, page, accepted, rfl, haccepted, hcites⟩
    · refine ⟨n + 1, other, answer, hpage, ?_, hcites⟩
      rwa [Nat.add_right_comm, Nat.add_assoc] at hanswer

/-- What the loop over the pages leaves in the two maps. -/
theorem visitPages_spec {measure : JsString → ℕ} {promptLimit pageCount first : ℕ}
    {pages : List ExecutionPage} {state final : Selections}
    (h : visitPages platform measure promptLimit responses model pageCount first pages state =
      .ok final) :
    (∀ n page, pages[n]? = some page → ∃ accepted, validateResponse platform model.requested
      (first + n) pageCount page (responses (first + n)) = .ok accepted) ∧
    (∀ sourceId id i, final.cites sourceId id i = true ↔ state.cites sourceId id i = true ∨
      CitedFrom platform responses model pageCount first pages sourceId id i) ∧
    ∀ id i, final.selects id i = true ↔ state.selects id i = true ∨
      ∃ sourceId ∈ model.requested,
        CitedFrom platform responses model pageCount first pages sourceId id i := by
  induction pages generalizing first state with
  | nil =>
      obtain rfl := Except.ok.inj h
      simp [citedFrom_nil]
  | cons page rest ih =>
      rw [visitPages] at h
      split at h
      · cases h
      · split at h
        · cases h
        · rename_i accepted haccepted
          obtain ⟨hanswers, hcites, hselects⟩ := ih h
          refine ⟨?_, ?_, ?_⟩
          · intro n other hother
            cases n with
            | zero =>
                obtain rfl := Option.some.inj hother
                exact ⟨accepted, haccepted⟩
            | succ n =>
                obtain ⟨answer, hanswer⟩ := hanswers n other hother
                exact ⟨answer, by rwa [Nat.add_right_comm, Nat.add_assoc] at hanswer⟩
          · intro sourceId id i
            rw [hcites, cites_visitPage, citedFrom_cons haccepted, or_assoc]
          · intro id i
            simp only [hselects, selects_visitPage, citedFrom_cons haccepted, or_assoc]
            refine or_congr_right ?_
            constructor
            · rintro (⟨hid, found, hfound, hindex⟩ | ⟨sourceId, hsource, hcited⟩)
              · exact ⟨found.sourceId, validateResponse_requested haccepted hfound,
                  .inl ⟨hid, found, hfound, rfl, hindex⟩⟩
              · exact ⟨sourceId, hsource, .inr hcited⟩
            · rintro ⟨sourceId, hsource, ⟨hid, found, hfound, -, hindex⟩ | hcited⟩
              · exact .inl ⟨hid, found, hfound, hindex⟩
              · exact .inr ⟨sourceId, hsource, hcited⟩

/-! ## The result -/

/-- Some page's accepted answer cites an index of a report for a criterion. -/
def Cited (platform : Platform) (responses : ℕ → JsString) (model : AssessmentModel)
    (pages : List ExecutionPage) (sourceId evidenceId : JsString) (index : ℕ) : Prop :=
  CitedFrom platform responses model pages.length 0 pages sourceId evidenceId index

open scoped Classical in
/-- An entry with the identities at some indexes, in their order, and all else as it is. -/
noncomputable def EvidenceEntry.keep (entry : EvidenceEntry) (kept : ℕ → Prop) : EvidenceEntry :=
  entry.filterIdentities fun index => decide (kept index)

/-- What a selection from the answers to some pages keeps. -/
structure SelectionSound (platform : Platform) (responses : ℕ → JsString)
    (model : AssessmentModel) (pages : List ExecutionPage) (result : SelectedEvidence) : Prop where
  accepted : ∀ n page, pages[n]? = some page → ∃ accepted, validateResponse platform
    model.requested n pages.length page (responses n) = .ok accepted
  criteria : result.criterionModels.map AssessmentModel.automatedEvidence =
    model.requested.map fun sourceId => model.automatedEvidence.map fun entry =>
      entry.keep (Cited platform responses model pages sourceId entry.id)
  narrowed : result.model.automatedEvidence = model.automatedEvidence.map fun entry =>
    entry.keep fun index => ∃ sourceId ∈ model.requested,
      Cited platform responses model pages sourceId entry.id index

open scoped Classical in
theorem filterIdentities_eq_keep {entry : EvidenceEntry} {keep : ℕ → Bool} {kept : ℕ → Prop}
    (h : ∀ i, keep i = true ↔ kept i) : entry.filterIdentities keep = entry.keep kept := by
  have heq : keep = fun i => decide (kept i) := by
    funext i
    exact Bool.eq_iff_iff.mpr ((h i).trans decide_eq_true_iff.symm)
  rw [EvidenceEntry.keep, heq]

theorem selectExecutedCoverageEvidence_sound {measure : JsString → ℕ} {promptLimit : ℕ}
    {result : SelectedEvidence} (h : selectExecutedCoverageEvidence platform measure promptLimit
      responses model = .ok result) :
    ∃ pages, executionAssessmentPages (extractionPageLimit platform measure promptLimit model)
      measure model = .ok pages ∧ SelectionSound platform responses model pages result := by
  rw [selectExecutedCoverageEvidence] at h
  cases hpages : executionAssessmentPages
      (extractionPageLimit platform measure promptLimit model) measure model with
  | error message =>
      rw [hpages] at h
      cases h
  | ok pages =>
      cases hstate : visitPages platform measure promptLimit responses model pages.length 0 pages
          ⟨[], [], []⟩ with
      | error message =>
          rw [hpages] at h
          change (visitPages platform measure promptLimit responses model pages.length 0 pages
            ⟨[], [], []⟩).bind _ = _ at h
          rw [hstate] at h
          cases h
      | ok state =>
          rw [hpages] at h
          change (visitPages platform measure promptLimit responses model pages.length 0 pages
            ⟨[], [], []⟩).bind _ = _ at h
          rw [hstate] at h
          obtain rfl := Except.ok.inj h
          obtain ⟨hanswers, hcites, hselects⟩ := visitPages_spec hstate
          refine ⟨pages, rfl, ?_, ?_, ?_⟩
          · intro n page hpage
            have hanswer := hanswers n page hpage
            rwa [Nat.zero_add] at hanswer
          · simp only [List.map_map]
            refine List.map_congr_left fun sourceId _ => List.map_congr_left fun entry _ => ?_
            refine filterIdentities_eq_keep fun i => ?_
            rw [List.any_cons, List.any_nil, Bool.or_false, hcites]
            exact or_iff_right (by simp [Selections.cites, JsMap.get])
          · refine List.map_congr_left fun entry _ => filterIdentities_eq_keep fun i => ?_
            rw [hselects]
            exact or_iff_right (by simp [Selections.selects, JsMap.get])

end Answers

/-- **Evidence is paged and selected without loss.** The pages of a model are not empty, are
within the limit and hold the identities of each entry in order; and where a selection succeeds,
it keeps of each entry what some accepted answer cited: for one criterion in the model of that
criterion, and for all requested criteria in the narrowed model. -/
theorem selectExecutedCoverageEvidence_lossless (model : AssessmentModel)
    (hids : (model.automatedEvidence.map EvidenceEntry.id).Nodup) :
    (∀ (pageLimit : ℕ) (measure : JsString → ℕ) (pages : List ExecutionPage),
      executionAssessmentPages pageLimit measure model = .ok pages →
        PagesSound pageLimit measure model pages) ∧
    ∀ (platform : Platform) (measure : JsString → ℕ) (promptLimit : ℕ) (responses : ℕ → JsString)
      (result : SelectedEvidence),
      selectExecutedCoverageEvidence platform measure promptLimit responses model = .ok result →
        ∃ pages, executionAssessmentPages (extractionPageLimit platform measure promptLimit model)
          measure model = .ok pages ∧ SelectionSound platform responses model pages result :=
  ⟨fun _ _ _ h => executionAssessmentPages_sound hids h,
    fun _ _ _ _ _ h => selectExecutedCoverageEvidence_sound h⟩

/-- A model of one criterion and one report with two tests. -/
def twoTests : AssessmentModel where
  manifestEntries := [⟨js "AC-1", []⟩]
  coverageMap := none
  automatedEvidence := [⟨js "E", some [js "a", js "b"], []⟩]
  executionAssessment := none
  properties := []

/-- A worker that cites the second test. -/
def secondTestPlatform : Platform where
  parseJson _ := some (.record [("inspectedCount", .num (.int 2)), ("matches", .arr [.record [
    ("sourceId", .text "AC-1"), ("evidenceId", .text "E"),
    ("identityIndexes", .arr [.num (.int 1)])]])])
  numberText _ := []
  sha256 := id

/-- With little room each test stands on a page of its own, and the cited test is kept. -/
theorem selectExecutedCoverageEvidence_twoTests :
    (∀ (pageLimit : ℕ) (measure : JsString → ℕ) (pages : List ExecutionPage),
      executionAssessmentPages pageLimit measure twoTests = .ok pages →
        PagesSound pageLimit measure twoTests pages) ∧
    (∀ (platform : Platform) (measure : JsString → ℕ) (promptLimit : ℕ) (responses : ℕ → JsString)
      (result : SelectedEvidence),
      selectExecutedCoverageEvidence platform measure promptLimit responses twoTests = .ok result →
        ∃ pages, executionAssessmentPages
          (extractionPageLimit platform measure promptLimit twoTests) measure twoTests =
            .ok pages ∧ SelectionSound platform responses twoTests pages result) ∧
    (executionAssessmentPages 3 (fun _ => 1) twoTests).toOption =
      some [⟨js "E", [⟨0, js "a"⟩]⟩, ⟨js "E", [⟨1, js "b"⟩]⟩] ∧
    ((selectExecutedCoverageEvidence secondTestPlatform (fun _ => 1) 3000 (fun _ => [])
      twoTests).map fun result => result.model.automatedEvidence.map
        EvidenceEntry.executionIdentities).toOption = some [some [js "b"]] := by
  have h := selectExecutedCoverageEvidence_lossless twoTests (by decide)
  exact ⟨h.1, h.2, by decide, by decide⟩

end Hepha.Coverage
