import Hepha.Review.Effect

/-!
# The coverage of a receipt

A receipt is stored with one row for each remediation item of its response and
for each test of the findings that the response answers.  Texts and rows are
compared by keys that join their parts with the unit `0`.  None of the ids in
an input holds this unit, so a key determines them; an id in a stored text may
hold what it likes, because it has to agree with one of the input.

* `rows_perm`: the subjects of the rows are those of the text;
* `mem_itemReceipts`, `mem_testReceipts`: the text covers the response.
-/

namespace Hepha.Review

open JsValue

/-! ## Keys -/

theorem splitOn_joined {left right : JsString} (h : (0 : CodeUnit) ∉ left) :
    (joined left right).splitOn 0 = left :: right.splitOn 0 :=
  List.splitOn_append_cons_self_of_not_mem h right

theorem intercalate_singleton (part : JsString) : ([0] : JsString).intercalate [part] = part := by
  simp [List.intercalate]

/-- A joined text determines its parts when one pair of them does not hold the unit `0`. -/
theorem joined_inj {a b c d : JsString} (ha : (0 : CodeUnit) ∉ a) (hb : (0 : CodeUnit) ∉ b)
    (h : joined c d = joined a b) : c = a ∧ d = b := by
  have hsplit : c.splitOn 0 ++ d.splitOn 0 = [a] ++ [b] := by
    have := congrArg (List.splitOn 0) h
    rwa [splitOn_joined ha, List.splitOn_eq_singleton hb, joined,
      List.splitOn_append_cons_self] at this
  have hlength : (c.splitOn 0).length = [a].length := by
    have htotal := congrArg List.length hsplit
    have hc := List.length_pos_of_ne_nil (List.splitOn_ne_nil 0 c)
    have hd := List.length_pos_of_ne_nil (List.splitOn_ne_nil 0 d)
    simp only [List.length_append, List.length_singleton] at htotal ⊢
    omega
  obtain ⟨hleft, hright⟩ := List.append_inj hsplit hlength
  constructor
  · calc c = ([0] : JsString).intercalate (c.splitOn 0) := (List.intercalate_splitOn 0).symm
      _ = a := by rw [hleft, intercalate_singleton]
  · calc d = ([0] : JsString).intercalate (d.splitOn 0) := (List.intercalate_splitOn 0).symm
      _ = b := by rw [hright, intercalate_singleton]

theorem exactKeys_iff {actual expected : List JsString} :
    exactKeys actual expected = true ↔ actual.Nodup ∧ expected.Nodup ∧ actual.Perm expected := by
  simp only [exactKeys, Bool.and_eq_true, decide_eq_true_eq, hasUniqueValues_iff, List.all_eq_true,
    List.contains_iff_mem]
  constructor
  · rintro ⟨⟨⟨hlength, hactual⟩, hexpected⟩, hsub⟩
    exact ⟨hactual, hexpected,
      (List.subperm_of_subset hactual hsub).perm_of_length_le hlength.ge⟩
  · rintro ⟨hactual, hexpected, hperm⟩
    exact ⟨⟨⟨hperm.length_eq, hactual⟩, hexpected⟩, fun key hkey => hperm.subset hkey⟩

/-! ## Identifiers without the unit `0` -/

theorem not_mem_of_safe {id : JsString} (h : isSafeIdentifier id = true) :
    (0 : CodeUnit) ∉ id := by
  intro hmem
  simp only [isSafeIdentifier, isSafeText, scanSafeContent, scanSafeStringValue, Bool.and_eq_true,
    List.all_eq_true] at h
  exact absurd (h.2.2.1.1 0 hmem) (by decide)

theorem not_mem_of_kebab {id : JsString} (h : isKebabIdentifier id = true) :
    (0 : CodeUnit) ∉ id := by
  intro hmem
  simp only [isKebabIdentifier, isKebabText, JsString.isKebabCase, Bool.and_eq_true,
    List.all_eq_true] at h
  exact absurd (h.2.1.1.2 0 hmem) (by decide)

theorem not_mem_subjectWord (kind : SubjectKind) : (0 : CodeUnit) ∉ js kind.word := by
  cases kind <;> decide

/-! ## The subjects of rows and texts -/

/-- What a row or a receipt of a text is about. -/
abbrev Subject := SubjectKind × JsString × JsString

def rowSubject (row : ReviewVerificationReceiptInput) : Subject :=
  (row.subjectKind, row.findingId, row.subjectId)

def SubjectReceipt.subject (kind : SubjectKind) (receipt : SubjectReceipt) : Subject :=
  (kind, receipt.findingId, receipt.subjectId)

/-- The parts of a key that name the subject. -/
def subjectParts (subject : Subject) : List JsString :=
  [js subject.1.word, subject.2.1, subject.2.2]

theorem subjectParts_injective : Function.Injective subjectParts := by
  rintro ⟨kind, findingId, subjectId⟩ ⟨kind', findingId', subjectId'⟩ h
  simp only [subjectParts, List.cons.injEq, and_true] at h
  obtain ⟨hkind, rfl, rfl⟩ := h
  cases kind <;> cases kind' <;> first | rfl | exact absurd hkind (by decide)

/-- The ids of a subject do not hold the unit `0`. -/
def PlainSubject (subject : Subject) : Prop :=
  (0 : CodeUnit) ∉ subject.2.1 ∧ (0 : CodeUnit) ∉ subject.2.2

theorem take_splitOn_key (subject : Subject) (h : PlainSubject subject) (rest : JsString) :
    ((joined (js subject.1.word) (joined subject.2.1 (joined subject.2.2 rest))).splitOn 0).take 3 =
      subjectParts subject := by
  rw [splitOn_joined (not_mem_subjectWord _), splitOn_joined h.1, splitOn_joined h.2]
  rfl

theorem firstTwoParts_key {receipt : SubjectReceipt} (hfinding : (0 : CodeUnit) ∉ receipt.findingId)
    (hsubject : (0 : CodeUnit) ∉ receipt.subjectId) :
    firstTwoParts receipt.key = joined receipt.findingId receipt.subjectId := by
  have hsplit : (receipt.key.splitOn 0).take 2 = [receipt.findingId, receipt.subjectId] := by
    rw [SubjectReceipt.key, splitOn_joined hfinding, splitOn_joined hsubject]
    rfl
  rw [firstTwoParts, hsplit]
  simp [joined, List.intercalate]

section Rows

variable {rows : List ReviewVerificationReceiptInput}
  {itemReceipts testReceipts : List SubjectReceipt}

/-- The subjects of the receipts of a text. -/
def textSubjects (itemReceipts testReceipts : List SubjectReceipt) : List Subject :=
  itemReceipts.map (SubjectReceipt.subject .remediationItem) ++
    testReceipts.map (SubjectReceipt.subject .test)

/-- **The rows of a receipt are about the subjects of its text.** -/
theorem rows_perm
    (hkeys : exactKeys (rows.map receiptRowKey)
      ((itemReceipts.map fun receipt =>
        joined (js (SubjectKind.word .remediationItem)) receipt.key) ++
      testReceipts.map fun receipt => joined (js (SubjectKind.word .test)) receipt.key) = true)
    (hrows : ∀ row ∈ rows, PlainSubject (rowSubject row))
    (hreceipts : ∀ subject ∈ textSubjects itemReceipts testReceipts, PlainSubject subject) :
    (rows.map rowSubject).Perm (textSubjects itemReceipts testReceipts) := by
  obtain ⟨-, -, hperm⟩ := exactKeys_iff.1 hkeys
  have hparts := hperm.map fun key : JsString => (key.splitOn 0).take 3
  refine (List.map_perm_map_iff subjectParts_injective).mp ?_
  have hleft : (rows.map receiptRowKey).map (fun key : JsString => (key.splitOn 0).take 3) =
      (rows.map rowSubject).map subjectParts := by
    rw [List.map_map, List.map_map]
    refine List.map_congr_left fun row hrow => ?_
    exact take_splitOn_key (rowSubject row) (hrows row hrow) _
  rw [hleft] at hparts
  refine hparts.trans ?_
  rw [textSubjects, List.map_append, List.map_append, List.map_map, List.map_map, List.map_map,
    List.map_map]
  refine List.Perm.of_eq (congrArg₂ (· ++ ·) ?_ ?_)
  · refine List.map_congr_left fun receipt hreceipt => ?_
    exact take_splitOn_key (receipt.subject .remediationItem)
      (hreceipts _ (List.mem_append_left _ (List.mem_map_of_mem hreceipt))) _
  · refine List.map_congr_left fun receipt hreceipt => ?_
    exact take_splitOn_key (receipt.subject .test)
      (hreceipts _ (List.mem_append_right _ (List.mem_map_of_mem hreceipt))) _

/-! ## What the text covers -/

variable {basis : List (JsString × JsValue)} {responses : List FindingResponse}

/-- The first two parts of the keys of receipts are their ids. -/
theorem map_firstTwoParts {kind : SubjectKind} {receipts : List SubjectReceipt}
    (hreceipts : ∀ receipt ∈ receipts, PlainSubject (receipt.subject kind)) :
    (receipts.map fun receipt => firstTwoParts receipt.key) =
      (receipts.map (SubjectReceipt.subject kind)).map fun subject =>
        joined subject.2.1 subject.2.2 := by
  rw [List.map_map]
  refine List.map_congr_left fun receipt hreceipt => ?_
  exact firstTwoParts_key (hreceipts receipt hreceipt).1 (hreceipts receipt hreceipt).2

/-- A key that the receipts of a kind have to have is the key of one of their subjects. -/
theorem mem_subjects {kind : SubjectKind} {receipts : List SubjectReceipt}
    {expected : List JsString} {findingId subjectId : JsString}
    (hreceipts : ∀ receipt ∈ receipts, PlainSubject (receipt.subject kind))
    (hkeys : exactKeys (receipts.map fun receipt => firstTwoParts receipt.key) expected = true)
    (hmem : joined findingId subjectId ∈ expected) :
    (kind, findingId, subjectId) ∈ receipts.map (SubjectReceipt.subject kind) := by
  obtain ⟨-, -, hperm⟩ := exactKeys_iff.1 hkeys
  rw [map_firstTwoParts hreceipts] at hperm
  obtain ⟨subject, hsubject, hjoined⟩ := List.mem_map.mp (hperm.symm.subset hmem)
  obtain ⟨receipt, hreceipt, rfl⟩ := List.mem_map.mp hsubject
  obtain ⟨hfinding, hid⟩ := hreceipts receipt hreceipt
  obtain ⟨rfl, rfl⟩ := joined_inj hfinding hid hjoined.symm
  exact hsubject

/-- No subject of a kind has two receipts. -/
theorem nodup_subjects {kind : SubjectKind} {receipts : List SubjectReceipt}
    {expected : List JsString}
    (hreceipts : ∀ receipt ∈ receipts, PlainSubject (receipt.subject kind))
    (hkeys : exactKeys (receipts.map fun receipt => firstTwoParts receipt.key) expected = true) :
    (receipts.map (SubjectReceipt.subject kind)).Nodup := by
  obtain ⟨hnodup, -, -⟩ := exactKeys_iff.1 hkeys
  rw [map_firstTwoParts hreceipts] at hnodup
  exact hnodup.of_map _

theorem nodup_textSubjects (hitems : (itemReceipts.map (SubjectReceipt.subject
    .remediationItem)).Nodup) (htests : (testReceipts.map (SubjectReceipt.subject .test)).Nodup) :
    (textSubjects itemReceipts testReceipts).Nodup := by
  refine List.nodup_append.mpr ⟨hitems, htests, ?_⟩
  intro item hitem test htest heq
  obtain ⟨_, -, rfl⟩ := List.mem_map.mp hitem
  obtain ⟨_, -, rfl⟩ := List.mem_map.mp htest
  cases congrArg Prod.fst heq

/-- The remediation items of a response. -/
theorem mem_respondedItems {response : FindingResponse} (hresponse : response ∈ responses)
    {item : JsString × RemediationDecision} (hitem : item ∈ response.items) :
    joined response.findingId item.1 ∈ respondedItems responses := by
  rw [respondedItems, List.mem_dedup]
  exact List.mem_flatMap.mpr ⟨response, hresponse, List.mem_map_of_mem hitem⟩

/-- The tests of a finding that is responded to. -/
theorem mem_requiredTests {response : FindingResponse} (hresponse : response ∈ responses)
    {finding : JsValue} (hfinding : JsMap.get basis response.findingId = some finding)
    {required : List JsString} (hrequired : requiredTests basis responses = some required) :
    ∃ tests, obligationIds .test finding = some tests ∧
      ∀ testId ∈ tests, joined response.findingId testId ∈ required := by
  simp only [requiredTests, Option.bind_eq_bind, Option.bind_eq_some_iff] at hrequired
  obtain ⟨lists, hlists, hflatten⟩ := hrequired
  obtain rfl := Option.some.inj hflatten
  have hid : response.findingId ∈ respondedFindings responses := by
    rw [respondedFindings, List.mem_dedup]
    exact List.mem_map_of_mem hresponse
  obtain ⟨keys, hkeys, hmap⟩ := exists_value_of_mapM hlists hid
  rw [testsOf, hfinding, Option.map_eq_some_iff] at hmap
  obtain ⟨tests, htests, rfl⟩ := hmap
  exact ⟨tests, htests, fun testId htest =>
    List.mem_flatten.mpr ⟨_, hkeys, List.mem_map_of_mem htest⟩⟩

/-- A subject of the text has one row. -/
theorem count_rowSubject
    (hperm : (rows.map rowSubject).Perm (textSubjects itemReceipts testReceipts))
    (hnodup : (textSubjects itemReceipts testReceipts).Nodup) {subject : Subject}
    (hmem : subject ∈ textSubjects itemReceipts testReceipts) :
    rows.countP (fun row => rowSubject row == subject) = 1 := by
  calc rows.countP (fun row => rowSubject row == subject)
      = (rows.map rowSubject).count subject := by
        rw [List.count, List.countP_map]
        rfl
    _ = (textSubjects itemReceipts testReceipts).count subject := hperm.count_eq subject
    _ = 1 := List.count_eq_one_of_mem hnodup hmem

end Rows

/-! ## What a validated receipt gives -/

section Validated

variable {platform : Platform} {catalog : Catalog} {input : ReviewIngestInput}
  {rawInput artifact : JsValue}

theorem decodeVerificationReceipt_plain {value : JsValue} {row : ReviewVerificationReceiptInput}
    (h : decodeVerificationReceipt value = some row) : PlainSubject (rowSubject row) := by
  unfold decodeVerificationReceipt at h
  obtain ⟨_, -, h⟩ := Option.bind_eq_some_iff.mp h
  obtain ⟨eventId, -, h⟩ := Option.bind_eq_some_iff.mp h
  obtain ⟨cycleId, -, h⟩ := Option.bind_eq_some_iff.mp h
  obtain ⟨runId, -, h⟩ := Option.bind_eq_some_iff.mp h
  obtain ⟨findingId, hfinding, h⟩ := Option.bind_eq_some_iff.mp h
  obtain ⟨subjectId, hsubject, h⟩ := Option.bind_eq_some_iff.mp h
  obtain ⟨receiptHash, -, h⟩ := Option.bind_eq_some_iff.mp h
  obtain ⟨kind, -, h⟩ := Option.bind_eq_some_iff.mp h
  obtain ⟨outcome, -, h⟩ := Option.bind_eq_some_iff.mp h
  obtain ⟨createdAt, -, h⟩ := Option.bind_eq_some_iff.mp h
  obtain ⟨evidence, -, h⟩ := Option.bind_eq_some_iff.mp h
  cases h
  exact ⟨not_mem_of_safe (safeIdentifier_some hfinding),
    not_mem_of_safe (safeIdentifier_some hsubject)⟩

theorem decodeEvents_mem {α : Type} {event : JsValue → Option α} {id : α → JsString}
    {value : JsValue} {events : List α} (h : decodeEvents event id value = some events) {a : α}
    (ha : a ∈ events) : ∃ item, event item = some a := by
  obtain ⟨hread, -⟩ := Option.filter_eq_some_iff.mp h
  simp only [isArrayOf, Option.bind_eq_some_iff] at hread
  obtain ⟨items, -, hitems⟩ := hread
  obtain ⟨item, -, hitem⟩ := exists_item_of_mapM hitems ha
  exact ⟨item, hitem⟩

theorem optionalMember_getD {α : Type} {value : JsValue} {field : String}
    {guard : JsValue → Option (List α)} {items : Option (List α)} {a : α}
    (h : optionalMember value field guard = some items) (ha : a ∈ items.getD []) :
    ∃ list, guard (value.get (js field)) = some list ∧ a ∈ list := by
  unfold optionalMember isOptional at h
  split at h
  · obtain rfl := Option.some.inj h
    cases ha
  · obtain ⟨list, hlist, rfl⟩ := Option.map_eq_some_iff.mp h
    exact ⟨list, hlist, ha⟩

theorem decodeArtifact_some {row : StoredReviewArtifact}
    (h : decodeArtifact platform catalog rawInput = some (row, artifact)) :
    platform.parseJson row.canonicalJson = some artifact ∧
      isCurrentV1Artifact platform catalog row.artifactKind rawInput artifact = true := by
  unfold decodeArtifact at h
  obtain ⟨contentHash, -, h⟩ := Option.bind_eq_some_iff.mp h
  obtain ⟨artifactId, -, h⟩ := Option.bind_eq_some_iff.mp h
  obtain ⟨kind, -, h⟩ := Option.bind_eq_some_iff.mp h
  obtain ⟨_, -, h⟩ := Option.bind_eq_some_iff.mp h
  obtain ⟨canonicalJson, -, h⟩ := Option.bind_eq_some_iff.mp h
  obtain ⟨parsed, hparse, h⟩ := Option.bind_eq_some_iff.mp h
  obtain ⟨_, hartifact, h⟩ := Option.bind_eq_some_iff.mp h
  obtain ⟨_, -, h⟩ := Option.bind_eq_some_iff.mp h
  obtain ⟨scope, -, h⟩ := Option.bind_eq_some_iff.mp h
  obtain ⟨root, -, h⟩ := Option.bind_eq_some_iff.mp h
  obtain ⟨path, -, h⟩ := Option.bind_eq_some_iff.mp h
  obtain ⟨_, -, h⟩ := Option.bind_eq_some_iff.mp h
  obtain ⟨_, -, h⟩ := Option.bind_eq_some_iff.mp h
  obtain ⟨ingestedAt, -, h⟩ := Option.bind_eq_some_iff.mp h
  cases h
  simp only [parseCanonicalJson, Option.bind_eq_bind, Option.bind_eq_some_iff] at hparse
  obtain ⟨value, hvalue, _, -, _, -, hsome⟩ := hparse
  obtain rfl := Option.some.inj hsome
  exact ⟨hvalue, (Option.guard_eq_some' _).mp hartifact⟩

/-- What the history of the tables needs of a validated input. -/
theorem validateReviewIngestInput_some
    (h : validateReviewIngestInput platform catalog rawInput = some input) :
    (∃ artifact, platform.parseJson input.canonicalJson = some artifact ∧
      isCurrentV1Artifact platform catalog input.artifactKind rawInput artifact = true) ∧
    (input.artifactKind = .reviewManifest → input.manifestHash = input.contentHash) ∧
    ∀ row ∈ input.verificationReceipts.getD [], PlainSubject (rowSubject row) := by
  simp only [validateReviewIngestInput, Option.bind_eq_bind, Option.bind_eq_some_iff] at h
  obtain ⟨_, -, ⟨row, artifact⟩, hrow, lineage, -, run, -, manifestHash, hmanifest, cycle, -, gate,
    -, items, -, receipts, hreceipts, heq⟩ := h
  cases heq
  obtain ⟨hparsed, hartifact⟩ := decodeArtifact_some hrow
  refine ⟨⟨artifact, hparsed, hartifact⟩, fun hkind => ?_, fun row hrow => ?_⟩
  · rw [decodeManifestHash, if_pos hkind] at hmanifest
    exact (Option.some.inj hmanifest).symm
  · obtain ⟨list, hlist, hmem⟩ := optionalMember_getD hreceipts hrow
    obtain ⟨item, hitem⟩ := decodeEvents_mem hlist hmem
    exact decodeVerificationReceipt_plain hitem

/-- The receipts of a validated text have ids without the unit `0`. -/
theorem readSubjectReceipts_plain {kind : SubjectKind} {payload : JsValue}
    {receipts : List SubjectReceipt} (h : readSubjectReceipts kind payload = some receipts)
    (hvalid : isVerificationReceipt payload = true) :
    ∀ receipt ∈ receipts, PlainSubject (receipt.subject kind) := by
  intro receipt hreceipt
  simp only [readSubjectReceipts, isArrayOf, Option.bind_eq_some_iff] at h
  obtain ⟨items, hitems, hread⟩ := h
  obtain ⟨item, hitem, hreceiptOf⟩ := exists_item_of_mapM hread hreceipt
  have hshape : isReceipt kind item = true := by
    simp only [isVerificationReceipt, hasArray, Bool.and_eq_true] at hvalid
    cases kind with
    | remediationItem =>
        have hall := hvalid.1.2
        rw [hitems] at hall
        exact List.all_eq_true.mp hall item hitem
    | test =>
        have hall := hvalid.2
        rw [hitems] at hall
        exact List.all_eq_true.mp hall item hitem
  simp only [readSubjectReceipt, Option.bind_eq_bind, Option.bind_eq_some_iff] at hreceiptOf
  obtain ⟨findingId, hfinding, subjectId, hsubject, outcome, -, evidence, -, heq⟩ := hreceiptOf
  cases heq
  simp only [isReceipt, hasText, Bool.and_eq_true, hfinding, hsubject, Option.any_some] at hshape
  exact ⟨not_mem_of_kebab hshape.1.1.1.2, not_mem_of_kebab hshape.1.1.2⟩

end Validated

/-! ## Covered responses -/

/-- **The rows of a receipt have each item of a response and each test of a finding
that the response answers exactly once.** -/
structure Covers (rows : List ReviewVerificationReceiptInput) (responses : List FindingResponse)
    (basis : List (JsString × JsValue)) : Prop where
  items : ∀ answer ∈ responses, ∀ item ∈ answer.items,
    rows.countP (fun row => rowSubject row == (.remediationItem, answer.findingId, item.1)) = 1
  tests : ∀ answer ∈ responses, ∀ finding, JsMap.get basis answer.findingId = some finding →
    ∃ tests, obligationIds .test finding = some tests ∧ ∀ testId ∈ tests,
      rows.countP (fun row => rowSubject row == (.test, answer.findingId, testId)) = 1

theorem covers_of_isReceiptBound {db : Database} {input : ReviewIngestInput}
    {reviewRunId : JsString} {basis : List (JsString × JsValue)}
    {payload responsePayload : JsValue} {responses : List FindingResponse}
    (hresponses : readFindingResponses responsePayload = some responses)
    (hvalid : isVerificationReceipt payload = true)
    (hrows : ∀ row ∈ input.verificationReceipts.getD [], PlainSubject (rowSubject row))
    (h : isReceiptBound db input reviewRunId basis payload responsePayload = true) :
    Covers (input.verificationReceipts.getD []) responses basis := by
  simp only [isReceiptBound, hresponses, Option.any_some, Option.any_eq_true, Bool.and_eq_true] at h
  obtain ⟨itemReceipts, hitems, testReceipts, htests, ⟨⟨hcovers, -⟩, hkeys⟩, -⟩ := h
  simp only [coversResponse, Bool.and_eq_true, Option.any_eq_true] at hcovers
  obtain ⟨⟨-, hitemKeys⟩, required, hrequired, htestKeys⟩ := hcovers
  have hplainItems := readSubjectReceipts_plain hitems hvalid
  have hplainTests := readSubjectReceipts_plain htests hvalid
  have hplain : ∀ subject ∈ textSubjects itemReceipts testReceipts, PlainSubject subject := by
    intro subject hsubject
    rcases List.mem_append.mp hsubject with hmem | hmem
    · obtain ⟨receipt, hreceipt, rfl⟩ := List.mem_map.mp hmem
      exact hplainItems receipt hreceipt
    · obtain ⟨receipt, hreceipt, rfl⟩ := List.mem_map.mp hmem
      exact hplainTests receipt hreceipt
  have hperm := rows_perm hkeys hrows hplain
  have hnodup := nodup_textSubjects (nodup_subjects hplainItems hitemKeys)
    (nodup_subjects hplainTests htestKeys)
  refine ⟨fun answer hanswer item hitem => ?_, fun answer hanswer finding hfinding => ?_⟩
  · have hmem := mem_subjects hplainItems hitemKeys (mem_respondedItems hanswer hitem)
    exact count_rowSubject hperm hnodup (List.mem_append_left _ hmem)
  · obtain ⟨tests, hobligations, hall⟩ := mem_requiredTests hanswer hfinding hrequired
    refine ⟨tests, hobligations, fun testId htest => ?_⟩
    have hmem := mem_subjects hplainTests htestKeys (hall testId htest)
    exact count_rowSubject hperm hnodup (List.mem_append_right _ hmem)

end Hepha.Review
