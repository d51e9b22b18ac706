import Hepha.Verification.Cargo
import Hepha.Verification.Counted

/-!
# What a report shows

A report shows an execution if its tests are counted, have names of their own, belong to one
record each, and if no record in it, however deep, has an outcome other than a pass.

## Strategy

For each format there is the list of all records in a document, down to a depth of nesting,
and what the reader takes is compared with it.

* **Names.**  The readers of TRX and Playwright check that their names are distinct.  The
  other two address a repeated label by its place, which collides with a label that looks
  like an address (`nodup_localIdentities_iff`).
* **Outcomes.**  A TRX result within another result is passed over, and so is a line of
  Cargo with another outcome than `ok`.  All other records are looked at.
-/

namespace Hepha.Verification

open JsString Pattern

/-! ## The records of a report -/

/-- The record of a TRX result. -/
def trxRecord (attributes : Attributes) : TestRecord :=
  { label := (attributeOf attributes "testName").getD []
    passed := attributeOf attributes "outcome" == some (js "Passed") }

def resultName : JsString := js "UnitTestResult"

def resultPath : List JsString := ["TestRun", "Results", "UnitTestResult"].map js

/-- The results of a TRX document, at any depth. -/
def trxRecords (events : List XmlEvent) : List TestRecord :=
  events.filterMap fun event =>
    match event with
    | .opentag _ localName attributes =>
        if localName = resultName then some (trxRecord attributes) else none
    | _ => none

/-- The results that stand elsewhere than directly under the results of the run. -/
def innerRecords : List JsString → List XmlEvent → List TestRecord
  | _, [] => []
  | path, .opentag _ localName attributes :: rest =>
      if localName = resultName ∧ path ++ [localName] ≠ resultPath then
        trxRecord attributes :: innerRecords (path ++ [localName]) rest
      else innerRecords (path ++ [localName]) rest
  | path, .closetag :: rest => innerRecords path.dropLast rest
  | path, _ :: rest => innerRecords path rest

/-- `Array.isArray(value[field]) ? value[field] : []`. -/
def itemsOf (value : JsValue) (field : String) : List JsValue :=
  (member value field).isArray.getD []

def textOf (value : JsValue) (field : String) : JsString :=
  (member value field).isString.getD []

def playwrightRecord (titles : List JsString) (spec rawTest : JsValue) : TestRecord :=
  let test := object rawTest
  { label := playwrightName titles (textOf spec "file") (textOf spec "title")
      ((member test "projectId").isString.getD (textOf test "projectName"))
      ((isPosition (member spec "line")).getD 0) ((isPosition (member spec "column")).getD 0)
    passed := (member test "expectedStatus").identical (.text "passed") &&
      (member test "status").identical (.text "expected") &&
      (itemsOf test "results").all fun result =>
        (member (object result) "status").identical (.text "passed") }

/-- The tests of a suite down to a depth of nesting. -/
def suiteRecords : ℕ → List JsString → JsValue → List TestRecord
  | 0, _, _ => []
  | depth + 1, parents, raw =>
      let titles := parents ++ [textOf (object raw) "title"]
      ((itemsOf (object raw) "specs").flatMap fun rawSpec =>
        (itemsOf (object rawSpec) "tests").map (playwrightRecord titles (object rawSpec))) ++
        (itemsOf (object raw) "suites").flatMap (suiteRecords depth titles)

/-- The record of an assertion. -/
def assertionRecord (platform : Platform) (suite rawAssertion : JsValue) : TestRecord :=
  { label := assertionLabel platform suite (textOf (object rawAssertion) "fullName")
    passed := (member (object rawAssertion) "status").identical (.text "passed") }

def vitestRecords (platform : Platform) (report : JsValue) : List TestRecord :=
  (itemsOf report "testResults").flatMap fun raw =>
    (itemsOf (object raw) "assertionResults").map (assertionRecord platform (object raw))

/-- A report as its format gives it. -/
inductive Report where
  | trx (events : List XmlEvent)
  | playwright (report : JsValue)
  | vitest (report : JsValue)
  | cargo (content : JsString)

/-- The report in a text; nothing where the text is no JSON but begins as one. -/
def reportOf (host : ReportHost) (content : JsString) : Option Report :=
  if content.trimStart.head? = some 0x3C then some (.trx (host.xmlEvents content))
  else if content.trimStart.head? = some 0x7B then
    (host.platform.parseJson content).map fun value =>
      if (member (object value) "suites").isArray.isSome ||
          !(member (object value) "stats").identical .undefined then .playwright (object value)
      else .vitest (object value)
  else some (.cargo content)

/-- The test records of a report down to a depth of nesting. -/
def Report.records (platform : Platform) (depth : ℕ) : Report → List TestRecord
  | trx events => trxRecords events
  | playwright report => (itemsOf report "suites").flatMap (suiteRecords depth [])
  | vitest report => vitestRecords platform report
  | cargo content => cargoRecords content

/-- **A report shows the execution of tests**: as many as are counted, each under a name of
its own that belongs to one executed record, and with no record that did not pass. -/
structure ShowsExecution (platform : Platform) (report : Report) (parsed : ParsedReport) :
    Prop where
  positive : 0 < parsed.count
  counted : parsed.count = parsed.identities.length
  distinct : parsed.identities.Nodup
  owned : ∃ depth executed, executed.Sublist (report.records platform depth) ∧
    List.Forall₂ (fun identity record => record.passed = true ∧ record.label <:+: identity)
      parsed.identities executed
  passed : ∀ depth, ∀ record ∈ report.records platform depth, record.passed = true

/-- No address of a repeated label is a label that stands alone. -/
def Distinguishable (labels : List JsString) : Prop :=
  ∀ index label, labels[index]? = some label → labels.count label ≠ 1 →
    ∀ other, labels.count other = 1 → other ≠ addressed label (localSuffix index)

/-- When a report that is accepted shows an execution. -/
def Report.Unambiguous (platform : Platform) : Report → Prop
  | trx events => ∀ record ∈ innerRecords [] events, record.passed = true
  | playwright _ => True
  | vitest report => Distinguishable ((vitestRecords platform report).map (·.label))
  | cargo content => (∀ record ∈ cargoRecords content, record.passed = true) ∧
      Distinguishable ((cargoRecords content).map (·.label))

/-! ## Names by place -/

theorem localSuffix_injective {label label' : JsString} {i j : ℕ}
    (h : addressed label (localSuffix i) = addressed label' (localSuffix j)) : i = j := by
  have hform (l : JsString) (n : ℕ) : addressed l (localSuffix n) =
      l ++ js " [report-local execution" ++ 0x20 :: decimalText (n + 1) ++ js "]" := by
    have hwords : js " [" ++ js "report-local execution " =
      js " [report-local execution" ++ [0x20] := by decide
    rw [addressed, localSuffix, List.append_assoc l, ← List.append_assoc (js " ["), hwords]
    simp only [List.append_assoc, List.cons_append, List.nil_append]
  have hnumber (l : JsString) (n : ℕ) : (l ++ js " [report-local execution" ++
      0x20 :: decimalText (n + 1)).reverse.takeWhile isDigit = (decimalText (n + 1)).reverse := by
    rw [List.reverse_append, List.reverse_cons, List.append_assoc, List.takeWhile_append_of_pos
      fun u hu => isDigit_of_mem_decimalText (List.mem_reverse.mp hu)]
    exact List.append_nil _
  rw [hform, hform] at h
  have htext := congrArg (fun s : JsString => s.reverse.takeWhile isDigit)
    (List.append_cancel_right h)
  simp only [hnumber] at htext
  exact Nat.succ.inj (decimalText_injective (List.reverse_injective htext))

theorem getElem?_localIdentities (labels : List JsString) (i : ℕ) :
    (localIdentities labels)[i]? =
      labels[i]?.map fun label => displayIdentity labels label (localSuffix i) := by
  rw [localIdentities, List.getElem?_map, List.getElem?_zipIdx, Option.map_map]
  simp [Function.comp_def]

theorem length_localIdentities (labels : List JsString) :
    (localIdentities labels).length = labels.length := by
  rw [localIdentities, List.length_map, List.length_zipIdx]

theorem nodup_iff_getElem?_inj {l : List JsString} :
    l.Nodup ↔ ∀ (i j : ℕ) (a : JsString), l[i]? = some a → l[j]? = some a → i = j := by
  rw [List.nodup_iff_getElem?_ne_getElem?]
  constructor
  · intro h i j a hi hj
    rcases Nat.lt_trichotomy i j with hij | hij | hij
    · exact absurd (hi.trans hj.symm) (h i j hij (List.getElem?_eq_some_iff.mp hj).1)
    · exact hij
    · exact absurd (hj.trans hi.symm) (h j i hij (List.getElem?_eq_some_iff.mp hi).1)
  · intro h i j hij hj heq
    have hget := List.getElem?_eq_getElem hj
    exact Nat.ne_of_lt hij (h i j _ (heq.trans hget) hget)

/-- A label that stands alone stands in one place. -/
theorem index_eq_of_count {labels : List JsString} {label : JsString}
    (hcount : labels.count label = 1) {i j : ℕ} (hi : labels[i]? = some label)
    (hj : labels[j]? = some label) : i = j := by
  by_contra hne
  have hrepeated (a b : ℕ) (hab : a < b) (ha : labels[a]? = some label)
      (hb : labels[b]? = some label) : 2 ≤ labels.count label := by
    obtain ⟨ha, hlabel⟩ := List.getElem?_eq_some_iff.mp ha
    obtain ⟨hb, hlabel'⟩ := List.getElem?_eq_some_iff.mp hb
    have hsub : [label, label].Sublist labels := List.duplicate_iff_sublist.mp
      (List.duplicate_iff_exists_distinct_get.mpr
        ⟨⟨a, ha⟩, ⟨b, hb⟩, hab, hlabel.symm, hlabel'.symm⟩)
    exact List.replicate_sublist_iff.mp hsub
  rcases Nat.lt_or_gt_of_ne hne with hij | hij
  · have := hrepeated i j hij hi hj
    omega
  · have := hrepeated j i hij hj hi
    omega

/-- **Names by place are distinct if and only if no address is a label that stands alone.** -/
theorem nodup_localIdentities_iff (labels : List JsString) :
    (localIdentities labels).Nodup ↔ Distinguishable labels := by
  rw [nodup_iff_getElem?_inj]
  have hname {i : ℕ} {label : JsString} (h : labels[i]? = some label) :
      (localIdentities labels)[i]? = some (displayIdentity labels label (localSuffix i)) := by
    rw [getElem?_localIdentities, h, Option.map_some]
  constructor
  · intro h index label hlabel hcount other hother heq
    obtain ⟨i, hi⟩ := List.mem_iff_getElem?.mp
      (List.count_pos_iff.mp (hother ▸ Nat.one_pos : 0 < labels.count other))
    have haddress := hname hlabel
    have halone := hname hi
    rw [displayIdentity, if_neg hcount, ← heq] at haddress
    rw [displayIdentity, if_pos hother] at halone
    obtain rfl := h _ _ _ haddress halone
    obtain rfl := Option.some.inj (hlabel.symm.trans hi)
    exact hcount hother
  · intro h i j name hi hj
    rw [getElem?_localIdentities, Option.map_eq_some_iff] at hi hj
    obtain ⟨label, hlabel, hi⟩ := hi
    obtain ⟨label', hlabel', hj⟩ := hj
    rw [displayIdentity] at hi hj
    split_ifs at hi hj with hcount hcount' hcount'
    · obtain rfl := hi.trans hj.symm
      exact index_eq_of_count hcount hlabel hlabel'
    · exact absurd (hi.trans hj.symm) (h j label' hlabel' hcount' label hcount)
    · exact absurd (hj.trans hi.symm) (h i label hlabel hcount label' hcount')
    · exact localSuffix_injective (hi.trans hj.symm)

theorem infix_displayIdentity (labels : List JsString) (label suffix : JsString) :
    label <:+: displayIdentity labels label suffix := by
  rw [displayIdentity]
  split
  · exact List.infix_refl _
  · rw [addressed, List.append_assoc, List.append_assoc]
    exact (List.prefix_append _ _).isInfix

/-- Records under names by place. -/
theorem owned_localIdentities {records : List TestRecord}
    (hpassed : ∀ record ∈ records, record.passed = true) :
    List.Forall₂ (fun identity record => record.passed = true ∧ record.label <:+: identity)
      (localIdentities (records.map (·.label))) records := by
  rw [List.forall₂_iff_get]
  refine ⟨by rw [length_localIdentities, List.length_map], fun i hi hi' => ?_⟩
  refine ⟨hpassed _ (List.get_mem _ _), ?_⟩
  have hget := getElem?_localIdentities (records.map (·.label)) i
  rw [List.getElem?_eq_getElem hi, List.getElem?_map, List.getElem?_eq_getElem hi',
    Option.map_some, Option.map_some] at hget
  rw [List.get_eq_getElem, List.get_eq_getElem, Option.some.inj hget]
  exact infix_displayIdentity _ _ _

/-! ## Loops that push -/

section Loops

variable {α : Type} {f : α → Except JsString (List JsString)} {g : α → List TestRecord}
  {items : List α} {pushed : List JsString}

theorem collect_labels (hitem : ∀ item own, f item = .ok own → (g item).map (·.label) = own)
    (h : collect f items = .ok pushed) : (items.flatMap g).map (·.label) = pushed := by
  induction items generalizing pushed with
  | nil => exact Except.ok.inj h
  | cons item rest ih =>
      obtain ⟨first, hfirst, h⟩ := bind_ok h
      obtain ⟨others, hothers, h⟩ := bind_ok h
      rw [List.flatMap_cons, List.map_append, hitem item first hfirst, ih hothers]
      exact Except.ok.inj h

theorem collect_passed (hitem : ∀ item own, f item = .ok own →
      ∀ record ∈ g item, record.passed = true)
    (h : collect f items = .ok pushed) : ∀ record ∈ items.flatMap g, record.passed = true := by
  induction items generalizing pushed with
  | nil => exact fun _ hmem => nomatch hmem
  | cons item rest ih =>
      obtain ⟨first, hfirst, h⟩ := bind_ok h
      obtain ⟨others, hothers, h⟩ := bind_ok h
      intro record hrecord
      rw [List.flatMap_cons, List.mem_append] at hrecord
      exact hrecord.elim (hitem item first hfirst record) (ih hothers record)

end Loops

theorem nonempty_eq_some {value : JsValue} {text : JsString} (h : nonempty value = some text) :
    value.isString = some text :=
  (Option.filter_eq_some_iff.mp h).1

theorem complete_ok {identities : List JsString} {total : JsValue} {parsed : ParsedReport}
    (h : complete identities total = .ok parsed) :
    parsed.identities = identities ∧ parsed.count = identities.length ∧ 0 < identities.length ∧
      identities.Nodup := by
  obtain ⟨_, hrequire, h⟩ := bind_ok h
  obtain rfl := Except.ok.inj h
  have hcondition := require_ok hrequire
  simp only [Bool.and_eq_true, Bool.not_eq_true', hasUniqueValues_iff] at hcondition
  refine ⟨rfl, rfl, List.length_pos_iff.mpr ?_, hcondition.2⟩
  rintro rfl
  exact absurd hcondition.1.1 (by decide)

/-! ## Playwright -/

section Playwright

variable {host : ReportHost} {titles : List JsString}

theorem textOf_of_nonempty {value : JsValue} {field : String} {text : JsString}
    (h : nonempty (member value field) = some text) : textOf value field = text := by
  rw [textOf, nonempty_eq_some h, Option.getD_some]

theorem playwrightSpec_ok {spec : JsValue} {read : PlaywrightSpec}
    (h : playwrightSpec spec = some read) : textOf spec "title" = read.title ∧
      textOf spec "file" = read.file ∧ itemsOf spec "tests" = read.tests := by
  unfold playwrightSpec at h
  split at h
  · rename_i title file tests htitle hfile htests
    split at h
    · obtain rfl := Option.some.inj h
      exact ⟨textOf_of_nonempty htitle, textOf_of_nonempty hfile, by
        rw [itemsOf, htests, Option.getD_some]⟩
    · cases h
  · cases h

theorem isPassingResult_status {result : JsValue} (h : isPassingResult host result = true) :
    (member result "status").identical (.text "passed") = true := by
  simp only [isPassingResult, Bool.and_eq_true] at h
  exact h.1.1.1.1.1

theorem playwrightTest_ok {spec rawTest : JsValue} {read : PlaywrightSpec} {own : List JsString}
    (hspec : playwrightSpec spec = some read)
    (h : playwrightTest host titles spec read rawTest = .ok own) :
    own = [(playwrightRecord titles spec rawTest).label] ∧
      (playwrightRecord titles spec rawTest).passed = true := by
  obtain ⟨htitle, hfile, -⟩ := playwrightSpec_ok hspec
  unfold playwrightTest at h
  obtain ⟨_, houtcome, h⟩ := bind_ok h
  obtain ⟨_, hresult, h⟩ := bind_ok h
  have houtcome := require_ok houtcome
  have hresult := require_ok hresult
  simp only [Bool.and_eq_true] at houtcome
  constructor
  · split at h
    · rename_i projectName line column hproject hline hcolumn
      have hname : textOf (object rawTest) "projectName" = projectName := by
        rw [textOf, hproject, Option.getD_some]
      rw [← Except.ok.inj h, playwrightRecord]
      simp only [htitle, hfile, hline, hcolumn, hname, Option.getD_some]
    · cases h
  · simp only [playwrightRecord, Bool.and_eq_true]
    refine ⟨houtcome.1, List.all_eq_true.mpr fun result hmem => ?_⟩
    exact isPassingResult_status (List.all_eq_true.mp hresult result hmem)

theorem playwrightSpecTests_ok {rawSpec : JsValue} {own : List JsString}
    (h : playwrightSpecTests host titles rawSpec = .ok own) :
    ((itemsOf (object rawSpec) "tests").map (playwrightRecord titles (object rawSpec))).map
        (·.label) = own ∧
      ∀ record ∈ (itemsOf (object rawSpec) "tests").map (playwrightRecord titles (object rawSpec)),
        record.passed = true := by
  unfold playwrightSpecTests at h
  split at h
  · rename_i read hread
    have hform : read.tests.map (playwrightRecord titles (object rawSpec)) =
        read.tests.flatMap fun test => [playwrightRecord titles (object rawSpec) test] :=
      List.map_eq_flatMap
    rw [(playwrightSpec_ok hread).2.2, hform]
    constructor
    · refine collect_labels (fun test own hown => ?_) h
      exact (playwrightTest_ok hread hown).1.symm
    · refine collect_passed (fun test own hown record hrecord => ?_) h
      rw [List.mem_singleton.mp hrecord]
      exact (playwrightTest_ok hread hown).2
  · cases h

/-- **The tests of a suite all passed, at any depth, and are all pushed.** -/
theorem suite_ok {left : ℕ} {parents : List JsString} {raw : JsValue} {pushed : List JsString}
    (h : suite host left parents raw = .ok pushed) :
    (suiteRecords left parents raw).map (·.label) = pushed ∧
      ∀ depth, ∀ record ∈ suiteRecords depth parents raw, record.passed = true := by
  induction left generalizing parents raw pushed with
  | zero => cases h
  | succ left ih =>
      rw [suite] at h
      split at h
      · rename_i title specs htitle hspecs
        obtain ⟨own, hown, h⟩ := bind_ok h
        have htitles : textOf (object raw) "title" = title := textOf_of_nonempty htitle
        have hitems : itemsOf (object raw) "specs" = specs := by
          rw [itemsOf, hspecs, Option.getD_some]
        have hnested : ∃ nested, collect (suite host left (parents ++ [title]))
            (itemsOf (object raw) "suites") = .ok nested ∧ pushed = own ++ nested := by
          split at h
          · rename_i hsuites
            rw [itemsOf, hsuites]
            exact ⟨[], rfl, by rw [List.append_nil]; exact (Except.ok.inj h).symm⟩
          · rename_i children hsuites
            obtain ⟨nested, hnested, h⟩ := bind_ok h
            rw [itemsOf, hsuites]
            exact ⟨nested, hnested, (Except.ok.inj h).symm⟩
          · cases h
        obtain ⟨nested, hnested, rfl⟩ := hnested
        constructor
        · rw [suiteRecords, List.map_append, htitles, hitems,
            collect_labels (fun _ _ hspec => (playwrightSpecTests_ok hspec).1) hown,
            collect_labels (fun _ _ hsuite => (ih hsuite).1) hnested]
        · intro depth record hrecord
          cases depth with
          | zero => cases hrecord
          | succ depth =>
              rw [suiteRecords, htitles, hitems, List.mem_append] at hrecord
              refine hrecord.elim ?_ ?_
              · exact collect_passed (fun _ _ hspec => (playwrightSpecTests_ok hspec).2) hown record
              · exact collect_passed (fun _ _ hsuite => (ih hsuite).2 depth) hnested record
      · cases h

theorem playwright_shows {report : JsValue} {parsed : ParsedReport}
    (h : parsePlaywrightReport host report = .ok parsed) :
    ShowsExecution host.platform (.playwright report) parsed := by
  unfold parsePlaywrightReport at h
  dsimp only at h
  split at h
  · rename_i errors suites herrors hsuites
    obtain ⟨_, -, h⟩ := bind_ok h
    obtain ⟨pushed, hpushed, h⟩ := bind_ok h
    obtain ⟨hidentities, hcount, hpositive, hnodup⟩ := complete_ok h
    have hitems : itemsOf report "suites" = suites := by rw [itemsOf, hsuites, Option.getD_some]
    have hlabels := collect_labels (fun _ _ hsuite => (suite_ok hsuite).1) hpushed
    have hpassed (depth : ℕ) := collect_passed (fun _ _ hsuite => (suite_ok hsuite).2 depth) hpushed
    refine ⟨hcount ▸ hpositive, by rw [hcount, hidentities], hidentities ▸ hnodup, ?_, ?_⟩
    · refine ⟨128, _, List.Sublist.refl _, ?_⟩
      rw [Report.records, hitems, hidentities, ← hlabels, List.forall₂_map_left_iff,
        List.forall₂_same]
      exact fun record hrecord => ⟨hpassed 128 record hrecord, List.infix_refl _⟩
    · intro depth record hrecord
      rw [Report.records, hitems] at hrecord
      exact hpassed depth record hrecord
  · cases h

end Playwright

/-! ## Records under names by place -/

/-- Records that all passed, under names by place, show an execution exactly when no address
is another label. -/
theorem local_shows_iff {platform : Platform} {report : Report} {parsed : ParsedReport}
    {records : List TestRecord} (hrecords : ∀ depth, report.records platform depth = records)
    (hpassed : ∀ record ∈ records, record.passed = true) (hpositive : 0 < parsed.count)
    (hcount : parsed.count = records.length)
    (hidentities : parsed.identities = localIdentities (records.map (·.label))) :
    ShowsExecution platform report parsed ↔ Distinguishable (records.map (·.label)) := by
  rw [← nodup_localIdentities_iff, ← hidentities]
  refine ⟨fun h => h.distinct, fun h => ⟨hpositive, ?_, h, ?_, ?_⟩⟩
  · rw [hcount, hidentities, length_localIdentities, List.length_map]
  · refine ⟨0, records, by rw [hrecords], ?_⟩
    rw [hidentities]
    exact owned_localIdentities hpassed
  · intro depth record hrecord
    rw [hrecords] at hrecord
    exact hpassed record hrecord

section Vitest

variable {platform : Platform}

theorem assertion_ok {suite rawAssertion : JsValue} {own : List JsString}
    (h : assertion platform suite rawAssertion = .ok own) :
    own = [assertionLabel platform suite (textOf (object rawAssertion) "fullName")] ∧
      (member (object rawAssertion) "status").identical (.text "passed") = true := by
  unfold assertion at h
  split at h
  · rename_i fullName hname
    split at h
    · rename_i hstatus
      rw [textOf_of_nonempty hname]
      exact ⟨(Except.ok.inj h).symm, hstatus⟩
    · cases h
  · cases h

theorem suiteAssertions_ok {raw : JsValue} {own : List JsString}
    (h : suiteAssertions platform raw = .ok own) :
    ((itemsOf (object raw) "assertionResults").map (assertionRecord platform (object raw))).map
        (·.label) = own ∧
      ∀ record ∈ (itemsOf (object raw) "assertionResults").map
        (assertionRecord platform (object raw)), record.passed = true := by
  unfold suiteAssertions at h
  split at h
  · rename_i assertions hassertions
    split at h
    · have hform : assertions.map (assertionRecord platform (object raw)) =
          assertions.flatMap fun item => [assertionRecord platform (object raw) item] :=
        List.map_eq_flatMap
      rw [itemsOf, hassertions, Option.getD_some, hform]
      constructor
      · exact collect_labels (fun _ _ hown => (assertion_ok hown).1.symm) h
      · refine collect_passed (fun item own hown record hrecord => ?_) h
        rw [List.mem_singleton.mp hrecord]
        exact (assertion_ok hown).2
    · cases h
  · cases h

theorem vitest_shows_iff {host : ReportHost} {report : JsValue} {parsed : ParsedReport}
    (h : parseVitestReport host report = .ok parsed) :
    ShowsExecution host.platform (.vitest report) parsed ↔
      Distinguishable ((vitestRecords host.platform report).map (·.label)) := by
  unfold parseVitestReport at h
  dsimp only at h
  split at h
  · rename_i numTotalTests testResults htotal htestResults
    obtain ⟨_, -, h⟩ := bind_ok h
    obtain ⟨assertions, hassertions, h⟩ := bind_ok h
    obtain ⟨_, hlength, h⟩ := bind_ok h
    obtain rfl := Except.ok.inj h
    have hlength : assertions.length = numTotalTests := beq_iff_eq.mp (require_ok hlength)
    have hpositive : 0 < numTotalTests := of_decide_eq_true (Option.filter_eq_some_iff.mp htotal).2
    have hrecords : vitestRecords host.platform report = testResults.flatMap fun raw =>
        (itemsOf (object raw) "assertionResults").map
          (assertionRecord host.platform (object raw)) := by
      rw [vitestRecords, itemsOf, htestResults, Option.getD_some]
    have hlabels := collect_labels (fun _ _ hsuite => (suiteAssertions_ok hsuite).1) hassertions
    have hpassed := collect_passed (fun _ _ hsuite => (suiteAssertions_ok hsuite).2) hassertions
    rw [← hrecords] at hlabels hpassed
    refine local_shows_iff (fun _ => rfl) hpassed (hlength ▸ hpositive) ?_ (by rw [hlabels])
    rw [← hlabels, List.length_map]
  · cases h

end Vitest

theorem cargo_shows_iff {platform : Platform} {content : JsString} {parsed : ParsedReport}
    (h : parseCargoOutput content = .ok parsed) :
    ShowsExecution platform (.cargo content) parsed ↔
      (∀ record ∈ cargoRecords content, record.passed = true) ∧
        Distinguishable ((cargoRecords content).map (·.label)) := by
  by_cases hpassed : ∀ record ∈ cargoRecords content, record.passed = true
  · rw [and_iff_right hpassed]
    unfold parseCargoOutput at h
    dsimp only at h
    obtain ⟨_, hrequire, h⟩ := bind_ok h
    obtain rfl := Except.ok.inj h
    have hcondition := require_ok hrequire
    simp only [Bool.and_eq_true, bne_iff_ne, beq_iff_eq] at hcondition
    have hnames : (matchLines testLinePattern true 0 0 content).map
        (fun found => testLineName found.2) = (cargoRecords content).map (·.label) := by
      refine (names_eq content).trans ((passingNames_eq content).trans ?_)
      rw [List.filter_eq_self.mpr hpassed]
    refine local_shows_iff (fun _ => rfl) hpassed (Nat.pos_of_ne_zero hcondition.1.1.2) ?_
      (by rw [hnames])
    rw [← hcondition.2, hnames, List.length_map]
  · exact iff_of_false (fun hshows => hpassed (hshows.passed 0)) fun hboth => hpassed hboth.1

/-! ## TRX -/

section Trx

variable {state next : TrxState} {attributes : Attributes}

theorem openAt_ok (h : openAt state attributes = .ok next) :
    next.path = state.path ∧ next.results = state.results ++
      if state.path = resultPath then [attributes] else [] := by
  unfold openAt at h
  by_cases hresult : state.path = ["TestRun", "Results", "UnitTestResult"].map js
  · rw [if_pos hresult] at h
    rw [← Except.ok.inj h, if_pos (show state.path = resultPath from hresult)]
    exact ⟨rfl, rfl⟩
  · rw [if_neg hresult] at h
    rw [if_neg (show state.path ≠ resultPath from hresult), List.append_nil]
    -- All the other elements leave the path and the results alone.
    have hkeep : next.path = state.path ∧ next.results = state.results := by
      split_ifs at h
      · unfold openUnitTest at h
        split at h
        · rw [← Except.ok.inj h]; exact ⟨rfl, rfl⟩
        · cases h
      · unfold openExecution at h
        split at h
        · split at h
          · rw [← Except.ok.inj h]; exact ⟨rfl, rfl⟩
          · cases h
        · cases h
      · unfold openTestMethod at h
        split at h
        · split at h
          · rw [← Except.ok.inj h]; exact ⟨rfl, rfl⟩
          · cases h
        · cases h
      · unfold openSummary at h
        split at h
        · split at h
          · rw [← Except.ok.inj h]; exact ⟨rfl, rfl⟩
          · cases h
        · cases h
      · obtain ⟨_, -, h⟩ := bind_ok h
        rw [← Except.ok.inj h]
        exact ⟨rfl, rfl⟩
      · rw [← Except.ok.inj h]; exact ⟨rfl, rfl⟩
    exact hkeep

theorem trxStep_open {uri localName : JsString}
    (h : trxStep state (.opentag uri localName attributes) = .ok next) :
    next.path = state.path ++ [localName] ∧ next.results = state.results ++
      if state.path ++ [localName] = resultPath then [attributes] else [] := by
  unfold trxStep at h
  obtain ⟨_, -, h⟩ := bind_ok h
  obtain ⟨_, -, h⟩ := bind_ok h
  obtain ⟨_, -, h⟩ := bind_ok h
  obtain ⟨opened, hopened, h⟩ := bind_ok h
  obtain ⟨_, -, h⟩ := bind_ok h
  obtain rfl := Except.ok.inj h
  exact openAt_ok hopened

/-- **A run reads the results directly under the results of the run**, and all the others
are passed over. -/
theorem trxRun_ok {events : List XmlEvent} {final : TrxState}
    (h : trxRun state events = .ok final) :
    ∃ own, final.results = state.results ++ own ∧
      (own.map trxRecord).Sublist (trxRecords events) ∧
      ∀ record, record ∈ trxRecords events ↔
        record ∈ own.map trxRecord ∨ record ∈ innerRecords state.path events := by
  induction events generalizing state with
  | nil =>
      obtain rfl := Except.ok.inj h
      exact ⟨[], (List.append_nil _).symm, List.Sublist.refl _, by simp [trxRecords, innerRecords]⟩
  | cons event rest ih =>
      obtain ⟨next, hnext, h⟩ := bind_ok h
      obtain ⟨own, hown, hsub, hall⟩ := ih h
      cases event with
      | doctype => cases hnext
      | error => cases hnext
      | closetag =>
          obtain rfl := Except.ok.inj hnext
          exact ⟨own, hown, hsub, hall⟩
      | opentag uri localName attributes =>
          obtain ⟨hpath, hresults⟩ := trxStep_open hnext
          rw [hpath] at hall
          rw [hresults] at hown
          by_cases hplace : state.path ++ [localName] = resultPath
          · have hname : localName = resultName := by
              have hlast := congrArg List.getLast? hplace
              rw [List.getLast?_concat] at hlast
              exact Option.some.inj hlast
            have hrecords : trxRecords (.opentag uri localName attributes :: rest) =
                trxRecord attributes :: trxRecords rest := by
              simp [trxRecords, hname]
            rw [if_pos hplace] at hown
            refine ⟨attributes :: own, by rw [hown]; simp, ?_, fun record => ?_⟩
            · rw [hrecords, List.map_cons]
              exact hsub.cons_cons _
            · rw [hrecords, List.mem_cons, hall, List.map_cons, List.mem_cons, or_assoc,
                innerRecords, if_neg fun hinner => hinner.2 hplace]
          · rw [if_neg hplace, List.append_nil] at hown
            by_cases hname : localName = resultName
            · have hrecords : trxRecords (.opentag uri localName attributes :: rest) =
                  trxRecord attributes :: trxRecords rest := by
                simp [trxRecords, hname]
              refine ⟨own, hown, ?_, fun record => ?_⟩
              · rw [hrecords]
                exact hsub.cons _
              · rw [hrecords, List.mem_cons, hall, innerRecords, if_pos ⟨hname, hplace⟩,
                  List.mem_cons, or_left_comm]
            · have hrecords : trxRecords (.opentag uri localName attributes :: rest) =
                  trxRecords rest := by
                simp [trxRecords, hname]
              refine ⟨own, hown, by rw [hrecords]; exact hsub, fun record => ?_⟩
              rw [hrecords, hall, innerRecords, if_neg fun hinner => hname hinner.1]

/-- What the label of a result ends in. -/
theorem trxResult_ok {definitions : List (JsString × TrxDefinition)} {executions : List JsString}
    {result : Attributes} {record : JsString × JsString}
    (h : trxResult definitions executions result = some record) :
    (trxRecord result).passed = true ∧ (trxRecord result).label <:+: record.1 := by
  unfold trxResult at h
  simp only [Option.bind_eq_bind, Option.bind_eq_some_iff] at h
  obtain ⟨test, -, testName, hname, executionId, -, className, -, method, -, h⟩ := h
  split at h
  · rename_i hcondition
    obtain rfl := Option.some.inj h
    refine ⟨beq_iff_eq.mpr hcondition.1, ?_⟩
    rw [trxRecord, (Option.filter_eq_some_iff.mp hname).1, Option.getD_some]
    exact (List.suffix_append _ _).isInfix
  · cases h

theorem trxResults_ok {definitions : List (JsString × TrxDefinition)} {executions : List JsString}
    {results : List Attributes} {records : List (JsString × JsString)}
    (h : trxResults definitions executions results = .ok records) :
    List.Forall₂ (fun record result => (trxRecord result).passed = true ∧
      (trxRecord result).label <:+: record.1) records results := by
  induction results generalizing executions records with
  | nil =>
      obtain rfl := Except.ok.inj h
      exact .nil
  | cons result rest ih =>
      rw [trxResults] at h
      split at h
      · rename_i record hrecord
        obtain ⟨others, hothers, h⟩ := bind_ok h
        obtain rfl := Except.ok.inj h
        exact .cons (trxResult_ok hrecord) (ih hothers)
      · cases h

theorem trx_shows_iff {host : ReportHost} {content : JsString} {parsed : ParsedReport}
    (h : parseTrxReport host content = .ok parsed) :
    ShowsExecution host.platform (.trx (host.xmlEvents content)) parsed ↔
      ∀ record ∈ innerRecords [] (host.xmlEvents content), record.passed = true := by
  unfold parseTrxReport at h
  obtain ⟨final, hfinal, h⟩ := bind_ok h
  split at h
  · obtain ⟨_, -, h⟩ := bind_ok h
    obtain ⟨_, -, h⟩ := bind_ok h
    obtain ⟨records, hrecords, h⟩ := bind_ok h
    obtain ⟨_, -, h⟩ := bind_ok h
    obtain ⟨hidentities, hcount, hpositive, hnodup⟩ := complete_ok h
    obtain ⟨own, hown, hsub, hall⟩ := trxRun_ok hfinal
    replace hrecords := trxResults_ok hrecords
    obtain rfl : own = final.results := by rw [hown]; rfl
    constructor
    · intro hshows record hrecord
      exact hshows.passed 0 record ((hall record).mpr (.inr hrecord))
    · intro hinner
      refine ⟨hcount ▸ hpositive, by rw [hcount, hidentities], hidentities ▸ hnodup, ?_, ?_⟩
      · refine ⟨0, _, hsub, ?_⟩
        rw [hidentities, nativeIdentities, List.forall₂_map_left_iff, List.forall₂_map_right_iff]
        exact hrecords.imp fun _ _ hrecord =>
          ⟨hrecord.1, hrecord.2.trans (infix_displayIdentity _ _ _)⟩
      · intro depth record hrecord
        rcases (hall record).mp hrecord with hrecord | hrecord
        · obtain ⟨result, hresult, rfl⟩ := List.mem_map.mp hrecord
          obtain ⟨_, _, hpassed⟩ := exists_of_forall₂ (hrecords.flip) hresult
          exact hpassed.1
        · exact hinner record hrecord
  · cases h

end Trx

/-- A host without parsers, which Cargo's output does not need. -/
def plainHost : ReportHost where
  platform := { parseJson := fun _ => none, numberText := fun _ => js "0", sha256 := id }
  isDate _ := false
  xmlEvents _ := []

/-- A run of Cargo with one test. -/
def oneTest : JsString :=
  js "test a ... ok\n\ntest result: ok. 1 passed; 0 failed; 0 ignored;"

theorem unambiguous_oneTest : (Report.cargo oneTest).Unambiguous plainHost.platform := by
  have hrecords : cargoRecords oneTest = [⟨js "a", true⟩] := by decide
  rw [Report.Unambiguous, hrecords]
  refine ⟨fun record hrecord => by rw [List.mem_singleton.mp hrecord], ?_⟩
  intro index label hlabel hcount
  obtain rfl := List.mem_singleton.mp (List.mem_of_getElem? hlabel)
  exact absurd (by simp) hcount

/-- Two tests of one name, and a third one that is called like the address of the first. -/
def collidingTests : JsString :=
  js ("test a ... ok\ntest a ... ok\ntest a [report-local execution 1] ... ok\n" ++
    "test result: ok. 3 passed; 0 failed; 0 ignored;")

end Hepha.Verification
