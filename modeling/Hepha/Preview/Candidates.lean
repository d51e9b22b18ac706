import Hepha.Js.Decimal
import Hepha.Js.Lines
import Hepha.Js.Value
import Hepha.Preview.PlanHash
import Mathlib.Data.Finset.Card
import Mathlib.Data.List.Dedup

/-!
# The candidates of a preview

A preview takes the features that are to be created from the table of the EPIC and
from the features that a model has discovered in it.  A row that names a feature keeps
its id; a row without one, and every discovered feature, gets the next free id.

## Strategy

The next free id is counted from the ids of the work items and of the feature folders,
so it is new to both, and no two of the ids that are counted are the same
(`allocated_eq`).  The ids that the table itself names are not counted: one of them is
given away a second time if its number is among the next ones (`identities_distinct_iff`).
-/

namespace Hepha.Preview

open JsString Pattern

/-! ## The feature table -/

/-- `EpicFeatureRow`. -/
structure EpicFeatureRow where
  rawText : JsString
  featureId : Option JsString
  title : JsString
  dependencyText : JsString
  status : JsString
  priority : Option JsString
  rowIndex : ℕ
  isTbd : Bool
  deriving DecidableEq

/-- `\w`. -/
def isWordUnit (u : CodeUnit) : Bool := isAlphanumeric u || u == 0x5F

/-- `\b` behind a word. -/
def endOfWord : Pattern := fun s => if s.head?.all (fun u => !isWordUnit u) then [s] else []

/-- `text.replace(/\*\*/g, "")`. -/
def dropDoubleStars : JsString → JsString
  | [] => []
  | [u] => [u]
  | u :: v :: rest =>
      if u = 0x2A ∧ v = 0x2A then dropDoubleStars rest else u :: dropDoubleStars (v :: rest)

/-- `/^#{2,}\s+Features?\s+Breakdown\b/i.test(line.trim())`. -/
def isBreakdownHeading (line : JsString) : Bool :=
  !(concat [atLeast 2 (· == 0x23), atLeast 1 isWhiteSpace, litIgnoreCase "feature",
    optional (litIgnoreCase "s"), atLeast 1 isWhiteSpace, litIgnoreCase "breakdown",
    endOfWord] line.trim).isEmpty

/-- `/\|\s*(Feature\s+ID|Layer\s*\/\s*Feature)\s*\|/i.test(line)`. -/
def isTableHeader (line : JsString) : Bool :=
  test (concat [lit "|", many isWhiteSpace,
    oneOf [concat [litIgnoreCase "feature", atLeast 1 isWhiteSpace, litIgnoreCase "id"],
      concat [litIgnoreCase "layer", many isWhiteSpace, lit "/", many isWhiteSpace,
        litIgnoreCase "feature"]],
    many isWhiteSpace, lit "|"]) line

/-- `/^\|[\s\-:]+\|/.test(line.trim())`. -/
def isSeparatorRow (line : JsString) : Bool :=
  !(concat [lit "|", atLeast 1 fun u => isWhiteSpace u || anyOf "-:" u, lit "|"] line.trim).isEmpty

/-- `parseTableCells`. -/
def parseTableCells (line : JsString) : List JsString :=
  (line.splitOn 0x7C).tail.dropLast.map fun cell => trim (dropDoubleStars (cell.filter (· != 0x60)))

/-- `\bFEAT-\d+\b` at the start of a text, behind a given unit: what follows the match. -/
def matchFeatId (before : Option CodeUnit) (s : JsString) : Option JsString :=
  if before.any isWordUnit then none
  else (concat [litIgnoreCase "feat-", atLeast 1 isDigit, endOfWord] s).head?

/-- The matches of `/\b(FEAT-\d+)\b/gi`, each with what stands before and behind it.  No
match begins within another one. -/
def findFeatIds : JsString → JsString → List (JsString × JsString × JsString)
  | _, [] => []
  | before, u :: s =>
      (match matchFeatId before.getLast? (u :: s) with
        | some rest => [(before, (u :: s).take ((u :: s).length - rest.length), rest)]
        | none => []) ++ findFeatIds (before ++ [u]) s

/-- `extractFeatId`. -/
def extractFeatId (cell : JsString) : Option JsString :=
  ((findFeatIds [] cell).head?).map fun (_, id, _) => id.map upperCase

/-- `.replace(/[-:]\s*$/, "").trim()`. -/
def dropSeparator (text : JsString) : JsString :=
  match text.trimEnd.getLast? with
  | some u => trim (if anyOf "-:" u then text.trimEnd.dropLast else text)
  | none => trim text

/-- `extractFeatureRowTitle`. -/
def extractFeatureRowTitle (titleCell firstCell : JsString) : JsString :=
  if titleCell.isEmpty then
    match (findFeatIds [] firstCell).head? with
    | some (before, _, behind) => dropSeparator (before ++ behind)
    | none => firstCell
  else titleCell

/-- `extractPriority`. -/
def extractPriority (cells : List JsString) : Option JsString :=
  (((cells.drop 3).map fun cell => trim (dropDoubleStars cell)).find? (testWhole (oneOf
    [concat [litIgnoreCase "p", unit (anyOf "12345")], litIgnoreCase "high",
      litIgnoreCase "medium", litIgnoreCase "low", litIgnoreCase "urgent", litIgnoreCase "normal",
      litIgnoreCase "critical"]))).map fun priority => priority.map upperCase

/-- The row of a line with two cells or more. -/
def readRow (line : JsString) (rowIndex : ℕ) : Option EpicFeatureRow :=
  match parseTableCells line with
  | first :: second :: others =>
      let cells := first :: second :: others
      let cell (index : ℕ) := trim (dropDoubleStars (cells[index]?.getD []))
      some {
        rawText := line
        featureId := extractFeatId first.trim
        title := extractFeatureRowTitle second.trim first.trim
        dependencyText := cell 3
        status := cell 2
        priority := extractPriority cells
        rowIndex
        isTbd := testWhole (oneOf [litIgnoreCase "tbd", litIgnoreCase "todo",
          litIgnoreCase "pending", litIgnoreCase "unnamed"]) first.trim }
  | _ => none

/-- Where the loop over the lines stands. -/
structure TableState where
  inCodeFence : Bool
  inFeatureTable : Bool
  reachedFeatureBreakdown : Bool
  headerRowIndex : Option ℕ
  rows : List EpicFeatureRow

/-- One turn of the loop over the lines. -/
def readTableLine (hasFeatureBreakdownHeading : Bool) (s : TableState) (entry : JsString × ℕ) :
    TableState :=
  let (line, i) := entry
  if (js "```").isPrefixOf line.trim then { s with inCodeFence := !s.inCodeFence }
  else if s.inCodeFence then s
  else if hasFeatureBreakdownHeading && isBreakdownHeading line then
    { s with reachedFeatureBreakdown := true }
  else if !s.inFeatureTable && s.headerRowIndex.isNone && s.reachedFeatureBreakdown &&
      isTableHeader line then
    { s with inFeatureTable := true, headerRowIndex := some i }
  else if !s.inFeatureTable || isSeparatorRow line then s
  else if !line.contains 0x7C || line.all isWhiteSpace then { s with inFeatureTable := false }
  else { s with rows := s.rows ++ (readRow line i).toList }

/-- The rows of `parseEpicFeatureTable`. -/
def parseEpicFeatureTable (markdown : JsString) : List EpicFeatureRow :=
  let lines := splitLines markdown
  let hasFeatureBreakdownHeading := lines.any isBreakdownHeading
  (lines.zipIdx.foldl (readTableLine hasFeatureBreakdownHeading)
    ⟨false, false, !hasFeatureBreakdownHeading, none, []⟩).rows

/-! ## The next free id -/

/-- A natural number as JavaScript keeps it: the nearest number of 53 digits, the even one
of two. -/
def toNumber (n : ℕ) : ℕ :=
  if n ≤ 2 ^ 53 then n
  else
    let place := 2 ^ (n.log2 - 52)
    let digits := n / place
    if 2 * (n % place) < place ∨ 2 * (n % place) = place ∧ digits % 2 = 0 then digits * place
    else (digits + 1) * place

/-- The number of `/^FEAT-(\d+)$/i`. -/
def featureNumber (id : JsString) : Option ℕ :=
  ((litIgnoreCase "feat-" id).head?.filter fun digits =>
    !digits.isEmpty && digits.all isDigit).map fun digits => toNumber (decimal digits)

/-- The number of `/\bFEAT-(\d+)\b/i` in the name of a folder. -/
def folderNumber (entry : JsString) : Option ℕ :=
  (extractFeatId entry).bind featureNumber

/-- What the ids are counted from: the work items and the names in the state folders. -/
structure KnownFeatures where
  existingFeatureIds : List JsString
  folderEntries : List JsString

/-- `maxId` of `calculatePreviewFeatureId`. -/
def KnownFeatures.maxId (known : KnownFeatures) : ℕ :=
  (known.existingFeatureIds.filterMap featureNumber ++
    known.folderEntries.filterMap folderNumber).foldr max 0

variable (hugeText : ℕ → JsString)

/-- `String(n)`, for a natural number; from 10²¹ on it has an exponent. -/
def numberText (n : ℕ) : JsString :=
  if n < 10 ^ 21 then decimalText n else hugeText n

/-- `FEAT-${String(n).padStart(3, "0")}`. -/
def featureIdText (n : ℕ) : JsString :=
  js "FEAT-" ++ (List.replicate (3 - (numberText hugeText n).length) 0x30 ++ numberText hugeText n)

/-- `calculatePreviewFeatureId`. -/
def calculatePreviewFeatureId (known : KnownFeatures) (offset : ℕ) : JsString :=
  featureIdText hugeText (toNumber (toNumber (known.maxId + 1) + offset))

/-! ## The candidates -/

/-- `PlannedFeature`, less its acceptance criteria. -/
structure PlannedFeature where
  title : JsString
  description : JsString
  dependencyIds : List JsString
  priority : Option JsString

/-- The loop that gives the next id to each item with a new title. -/
def allocate {α : Type} (nextId : ℕ → JsString) (key : α → Option JsString) :
    ℕ → List JsString → List α → List (JsString × α)
  | _, _, [] => []
  | offset, keys, item :: rest =>
      match key item with
      | none => allocate nextId key offset keys rest
      | some title =>
          if title ∈ keys then allocate nextId key offset keys rest
          else (nextId offset, item) :: allocate nextId key (offset + 1) (title :: keys) rest

/-- `parseDependencyIds`. -/
def parseDependencyIds (dependencyText : JsString) : List JsString :=
  if dependencyText.trim.isEmpty then []
  else (findFeatIds [] dependencyText).map fun (_, id, _) => id.map upperCase

/-- The explicit and the discovered candidates of `extractPreviewCandidates`. -/
structure CandidateExtraction where
  explicitCandidates : List PreviewFeatCandidate
  discoveredCandidates : List PreviewFeatCandidate

section Extraction

variable (casing : Casing)

/-- `parsePreviewDependencies`. -/
def parsePreviewDependencies (dependencyText : JsString)
    (plannedTbdIdsByTitle : List (JsString × JsString)) : List JsString :=
  plannedTbdIdsByTitle.foldl (fun ids (title, plannedId) =>
    if (casing.toLowerCase dependencyText).tails.any title.isPrefixOf && !ids.contains plannedId
    then ids ++ [plannedId] else ids) (parseDependencyIds dependencyText)

/-- The key of a titled row without an id. -/
def tbdKey (row : EpicFeatureRow) : Option JsString :=
  if row.isTbd && !row.title.trim.isEmpty then some (casing.toLowerCase row.title) else none

def featureKey (feature : PlannedFeature) : Option JsString :=
  some (casing.toLowerCase feature.title)

def explicitCandidate (epicId : JsString) (known : KnownFeatures) (row : EpicFeatureRow) :
    Option PreviewFeatCandidate :=
  match row.featureId with
  | some plannedId =>
      if known.existingFeatureIds.contains plannedId then none
      else some {
        plannedFeatureId := plannedId
        title := row.title
        summary := js "Created from " ++ epicId ++ js " because the EPIC references " ++
          plannedId ++ js "."
        dependencyIds := parseDependencyIds row.dependencyText
        priority := row.priority
        sourceOrder := row.rowIndex
        fromExplicitLink := true }
  | none => none

/-- The candidate of a row without an id. -/
def tbdCandidate (epicId : JsString) (plannedTbdIdsByTitle : List (JsString × JsString))
    (planned : JsString × EpicFeatureRow) : PreviewFeatCandidate where
  plannedFeatureId := planned.1
  title := planned.2.title
  summary := js "Created from the titled TBD row in " ++ epicId ++ js "'s Features Breakdown."
  dependencyIds := parsePreviewDependencies casing planned.2.dependencyText plannedTbdIdsByTitle
  priority := planned.2.priority
  sourceOrder := planned.2.rowIndex
  fromExplicitLink := false

/-- The candidate of a discovered feature, behind so many rows and other candidates. -/
def featureCandidate (others : ℕ) (planned : JsString × PlannedFeature) : PreviewFeatCandidate where
  plannedFeatureId := planned.1
  title := planned.2.title
  summary := planned.2.description
  dependencyIds := planned.2.dependencyIds
  priority := planned.2.priority
  sourceOrder := others + 1
  fromExplicitLink := false

/-- `extractPreviewCandidates`, less the updates of the EPIC and the warnings. -/
def extractPreviewCandidates (epicId epicMarkdown : JsString) (known : KnownFeatures)
    (discoveredFeatures : List PlannedFeature) : CandidateExtraction :=
  let rows := parseEpicFeatureTable epicMarkdown
  let nextId := calculatePreviewFeatureId hugeText known
  let plannedTbdRows := allocate nextId (tbdKey casing) 0 [] rows
  let plannedTbdIdsByTitle :=
    plannedTbdRows.map fun (plannedId, row) => (casing.toLowerCase row.title, plannedId)
  -- Every titled row without an id has left its key, also one that came twice.
  let plannedFeatures := allocate nextId (featureKey casing) plannedTbdRows.length
    (rows.filterMap (tbdKey casing)) discoveredFeatures
  { explicitCandidates := rows.filterMap (explicitCandidate epicId known)
    discoveredCandidates := plannedTbdRows.map (tbdCandidate casing epicId plannedTbdIdsByTitle) ++
      plannedFeatures.zipIdx.map fun (planned, index) =>
        featureCandidate (rows.length + (plannedTbdRows.length + index)) planned }

end Extraction

/-! ## What the ids promise -/

/-- **The ids that are given away are new**: to each other, to the features that exist, and
to the features that the table names. -/
structure IdentitiesDistinct (known : KnownFeatures) (extraction : CandidateExtraction) : Prop where
  nodup : (extraction.discoveredCandidates.map PreviewFeatCandidate.plannedFeatureId).Nodup
  fresh : ∀ candidate ∈ extraction.discoveredCandidates,
    candidate.plannedFeatureId ∉ known.existingFeatureIds
  unlisted : ∀ candidate ∈ extraction.discoveredCandidates,
    ∀ listed ∈ extraction.explicitCandidates,
      candidate.plannedFeatureId ≠ listed.plannedFeatureId

/-- The titles that get an id. -/
def newTitles (casing : Casing) (rows : List EpicFeatureRow) (features : List PlannedFeature) :
    Finset JsString :=
  (rows.filterMap (tbdKey casing)).toFinset ∪ (features.filterMap (featureKey casing)).toFinset

/-- No row names a feature that does not exist with one of the next numbers. -/
def NumbersFree (known : KnownFeatures) (rows : List EpicFeatureRow) (count : ℕ) : Prop :=
  ∀ row ∈ rows, ∀ id, row.featureId = some id → id ∉ known.existingFeatureIds →
    ∀ n, known.maxId < n → n ≤ known.maxId + count → id ≠ featureIdText hugeText n

/-! ## Numbers -/

theorem toNumber_of_safe {n : ℕ} (h : n ≤ JsValue.maxSafeInteger) : toNumber n = n :=
  if_pos (Nat.le_trans h (by decide : JsValue.maxSafeInteger ≤ 2 ^ 53))

theorem decimal_zeros (k : ℕ) (digits : JsString) :
    decimal (List.replicate k 0x30 ++ digits) = decimal digits := by
  have hzero : ((0x30 : CodeUnit).toNat - 0x30) = 0 := rfl
  have hzeros : Nat.ofDigits 10 (List.replicate k 0) = 0 := by
    induction k with
    | zero => rfl
    | succ k ih => rw [List.replicate_succ, Nat.ofDigits_cons, ih]
  rw [decimal, List.reverse_append, List.map_append, List.reverse_replicate, List.map_replicate,
    hzero, Nat.ofDigits_append, hzeros, Nat.mul_zero, Nat.add_zero, decimal]

variable {hugeText}

/-- The number of an id that is given away is read from it. -/
theorem featureNumber_featureIdText {n : ℕ} (h : n ≤ JsValue.maxSafeInteger) :
    featureNumber (featureIdText hugeText n) = some n := by
  have htext : numberText hugeText n = decimalText n :=
    if_pos (Nat.lt_of_le_of_lt h (by decide : JsValue.maxSafeInteger < 10 ^ 21))
  have hdigits : (List.replicate (3 - (decimalText n).length) 0x30 ++ decimalText n).all isDigit =
      true := by
    rw [List.all_append, Bool.and_eq_true, List.all_eq_true, List.all_eq_true]
    refine ⟨fun u hu => ?_, fun u => isDigit_of_mem_decimalText⟩
    rw [List.eq_of_mem_replicate hu]
    decide
  have hne : (List.replicate (3 - (decimalText n).length) 0x30 ++ decimalText n).isEmpty =
      false := by
    simp [decimalText_ne_nil]
  have hhead : (litIgnoreCase "feat-" (featureIdText hugeText n)).head? =
      some (List.replicate (3 - (decimalText n).length) 0x30 ++ decimalText n) := by
    rw [featureIdText, htext]
    exact head?_litIgnoreCase.2 ⟨js "FEAT-", rfl, by decide⟩
  rw [featureNumber, hhead, Option.filter_some, if_pos (by rw [hne, hdigits]; rfl),
    Option.map_some, decimal_zeros, decimal_decimalText, toNumber_of_safe h]

theorem le_maxId {known : KnownFeatures} {id : JsString} {n : ℕ}
    (hid : id ∈ known.existingFeatureIds) (hn : featureNumber id = some n) : n ≤ known.maxId := by
  have hmem : n ∈ known.existingFeatureIds.filterMap featureNumber ++
      known.folderEntries.filterMap folderNumber :=
    List.mem_append_left _ (List.mem_filterMap.mpr ⟨id, hid, hn⟩)
  unfold KnownFeatures.maxId
  generalize known.existingFeatureIds.filterMap featureNumber ++
    known.folderEntries.filterMap folderNumber = numbers at hmem
  induction numbers with
  | nil => cases hmem
  | cons m rest ih =>
      rw [List.foldr_cons]
      rcases List.mem_cons.mp hmem with rfl | hrest
      · exact Nat.le_max_left _ _
      · exact Nat.le_trans (ih hrest) (Nat.le_max_right _ _)

/-! ## The allocation -/

section Allocate

variable {α : Type} {nextId : ℕ → JsString} {key : α → Option JsString}

/-- The ids are the next ones, in their order. -/
theorem allocate_ids (offset : ℕ) (keys : List JsString) (items : List α) :
    (allocate nextId key offset keys items).map Prod.fst =
      (List.range' offset (allocate nextId key offset keys items).length).map nextId := by
  induction items generalizing offset keys with
  | nil => rfl
  | cons item rest ih =>
      rw [allocate]
      cases key item with
      | none => exact ih offset keys
      | some title =>
          dsimp only
          split
          · exact ih offset keys
          · rw [List.map_cons, List.length_cons, List.range'_succ, List.map_cons, ih]

/-- Each new title gets one id. -/
theorem length_allocate (offset : ℕ) (keys : List JsString) (items : List α) :
    (allocate nextId key offset keys items).length =
      ((items.filterMap key).toFinset \ keys.toFinset).card := by
  induction items generalizing offset keys with
  | nil => simp [allocate]
  | cons item rest ih =>
      rw [allocate]
      cases hkey : key item with
      | none =>
          rw [List.filterMap_cons_none hkey]
          exact ih offset keys
      | some title =>
          rw [List.filterMap_cons_some hkey, List.toFinset_cons]
          dsimp only
          split
          · rename_i hmem
            rw [ih, Finset.insert_sdiff_of_mem _ (List.mem_toFinset.mpr hmem)]
          · rename_i hmem
            have hsplit : insert title (rest.filterMap key).toFinset \ keys.toFinset =
                insert title ((rest.filterMap key).toFinset \ (title :: keys).toFinset) := by
              ext k
              simp only [Finset.mem_sdiff, Finset.mem_insert, List.mem_toFinset, List.mem_cons]
              constructor
              · rintro ⟨rfl | hk, hnot⟩
                · exact .inl rfl
                · by_cases heq : k = title
                  · exact .inl heq
                  · exact .inr ⟨hk, not_or.mpr ⟨heq, hnot⟩⟩
              · rintro (rfl | ⟨hk, hnot⟩)
                · exact ⟨.inl rfl, hmem⟩
                · exact ⟨.inr hk, (not_or.mp hnot).2⟩
            rw [hsplit, Finset.card_insert_of_notMem (by simp), List.length_cons, ih]

end Allocate

/-! ## The ids of a preview -/

section Result

variable {casing : Casing} {epicId epicMarkdown : JsString} {known : KnownFeatures}
  {features : List PlannedFeature}

/-- **The ids that are given away are the next ones**, one for each new title. -/
theorem allocated_eq (hsafe : known.maxId +
      (newTitles casing (parseEpicFeatureTable epicMarkdown) features).card ≤
        JsValue.maxSafeInteger) :
    (extractPreviewCandidates hugeText casing epicId epicMarkdown known
        features).discoveredCandidates.map PreviewFeatCandidate.plannedFeatureId =
      (List.range (newTitles casing (parseEpicFeatureTable epicMarkdown) features).card).map
        fun k => featureIdText hugeText (known.maxId + 1 + k) := by
  unfold extractPreviewCandidates newTitles at *
  dsimp only
  generalize parseEpicFeatureTable epicMarkdown = rows at *
  have hplanned := @allocate_ids _ (calculatePreviewFeatureId hugeText known) (tbdKey casing) 0 []
    rows
  have hfirst := @length_allocate _ (calculatePreviewFeatureId hugeText known) (tbdKey casing) 0 []
    rows
  generalize allocate (calculatePreviewFeatureId hugeText known) (tbdKey casing) 0 [] rows =
    planned at hplanned hfirst ⊢
  have hfound := @allocate_ids _ (calculatePreviewFeatureId hugeText known) (featureKey casing)
    planned.length (rows.filterMap (tbdKey casing)) features
  have hsecond := @length_allocate _ (calculatePreviewFeatureId hugeText known) (featureKey casing)
    planned.length (rows.filterMap (tbdKey casing)) features
  generalize allocate (calculatePreviewFeatureId hugeText known) (featureKey casing)
    planned.length (rows.filterMap (tbdKey casing)) features = found at hfound hsecond ⊢
  have hcount : planned.length + found.length = ((rows.filterMap (tbdKey casing)).toFinset ∪
      (features.filterMap (featureKey casing)).toFinset).card := by
    rw [hfirst, hsecond, List.toFinset_nil, Finset.sdiff_empty, Nat.add_comm,
      Finset.card_sdiff_add_card, Finset.union_comm]
  rw [← hcount] at hsafe ⊢
  have hids : (found.zipIdx.map fun (entry : (JsString × PlannedFeature) × ℕ) =>
      (featureCandidate (rows.length + (planned.length + entry.2)) entry.1).plannedFeatureId) =
        found.map Prod.fst := by
    conv_rhs => rw [← List.zipIdx_map_fst 0 found, List.map_map]
    rfl
  have htbd (titles : List (JsString × JsString)) : (planned.map fun entry =>
      (tbdCandidate casing epicId titles entry).plannedFeatureId) = planned.map Prod.fst := rfl
  rw [List.map_append, List.map_map, List.map_map]
  refine (congrArg₂ (· ++ ·) (htbd _) hids).trans ?_
  rw [hplanned, hfound, ← List.map_append, List.range_eq_range']
  rw [show List.range' planned.length found.length =
      List.range' (0 + planned.length) found.length by
    rw [Nat.zero_add], List.range'_append_1]
  refine List.map_congr_left fun k hk => ?_
  have hlt : k < planned.length + found.length := by
    have := (List.mem_range'_1.mp hk).2
    omega
  rw [calculatePreviewFeatureId, toNumber_of_safe (n := known.maxId + 1) (by omega),
    toNumber_of_safe (by omega)]

/-- **The ids of a preview are distinct if and only if no row of its table names a new feature
with one of the next numbers**, as long as the numbers are safe integers. -/
theorem identities_distinct_iff (hsafe : known.maxId +
      (newTitles casing (parseEpicFeatureTable epicMarkdown) features).card ≤
        JsValue.maxSafeInteger) :
    IdentitiesDistinct known
        (extractPreviewCandidates hugeText casing epicId epicMarkdown known features) ↔
      NumbersFree hugeText known (parseEpicFeatureTable epicMarkdown)
        (newTitles casing (parseEpicFeatureTable epicMarkdown) features).card := by
  have hids := @allocated_eq hugeText casing epicId epicMarkdown known features hsafe
  have hexplicit : (extractPreviewCandidates hugeText casing epicId epicMarkdown known
      features).explicitCandidates =
        (parseEpicFeatureTable epicMarkdown).filterMap (explicitCandidate epicId known) := rfl
  generalize extractPreviewCandidates hugeText casing epicId epicMarkdown known features =
    extraction at hids hexplicit ⊢
  generalize (newTitles casing (parseEpicFeatureTable epicMarkdown) features).card = count
    at hsafe hids ⊢
  generalize parseEpicFeatureTable epicMarkdown = rows at hexplicit ⊢
  have hnumber {k : ℕ} (hk : k < count) :
      featureNumber (featureIdText hugeText (known.maxId + 1 + k)) = some (known.maxId + 1 + k) :=
    featureNumber_featureIdText (by omega)
  have hcandidate {candidate} (h : candidate ∈ extraction.discoveredCandidates) :
      ∃ k < count, candidate.plannedFeatureId = featureIdText hugeText (known.maxId + 1 + k) := by
    have hmem := List.mem_map_of_mem (f := PreviewFeatCandidate.plannedFeatureId) h
    rw [hids] at hmem
    obtain ⟨k, hk, heq⟩ := List.mem_map.mp hmem
    exact ⟨k, List.mem_range.mp hk, heq.symm⟩
  constructor
  · intro hdistinct row hrow id hid hnew n hlow hhigh heq
    obtain ⟨k, rfl⟩ : ∃ k, n = known.maxId + 1 + k := ⟨n - known.maxId - 1, by omega⟩
    have hmem : id ∈ extraction.discoveredCandidates.map PreviewFeatCandidate.plannedFeatureId := by
      rw [hids, heq]
      exact List.mem_map.mpr ⟨k, List.mem_range.mpr (by omega), rfl⟩
    obtain ⟨candidate, hcand, rfl⟩ := List.mem_map.mp hmem
    obtain ⟨listed, hlisted⟩ : ∃ listed, explicitCandidate epicId known row = some listed ∧
        listed.plannedFeatureId = candidate.plannedFeatureId := by
      unfold explicitCandidate
      rw [hid]
      dsimp only
      rw [if_neg (by simpa using hnew)]
      exact ⟨_, rfl, rfl⟩
    refine hdistinct.unlisted candidate hcand listed ?_ hlisted.2.symm
    rw [hexplicit]
    exact List.mem_filterMap.mpr ⟨row, hrow, hlisted.1⟩
  · intro hfree
    refine ⟨?_, fun candidate hcand hexists => ?_, fun candidate hcand listed hlisted heq => ?_⟩
    · rw [hids]
      refine List.Nodup.map_on (fun i hi j hj heq => ?_) List.nodup_range
      have hi := hnumber (List.mem_range.mp hi)
      rw [heq, hnumber (List.mem_range.mp hj)] at hi
      have := Option.some.inj hi
      omega
    · obtain ⟨k, hk, hid⟩ := hcandidate hcand
      rw [hid] at hexists
      have := le_maxId hexists (hnumber hk)
      omega
    · obtain ⟨k, hk, hid⟩ := hcandidate hcand
      rw [hexplicit] at hlisted
      obtain ⟨row, hrow, hrow'⟩ := List.mem_filterMap.mp hlisted
      unfold explicitCandidate at hrow'
      split at hrow'
      · rename_i plannedId hplanned
        split at hrow'
        · cases hrow'
        · rename_i hnew
          obtain rfl := Option.some.inj hrow'
          refine hfree row hrow plannedId hplanned (by simpa using hnew) (known.maxId + 1 + k)
            (by omega) (by omega) ?_
          rw [← hid]
          exact heq.symm
      · cases hrow'

end Result

/-- A table with a row that has no id. -/
def openTable : JsString :=
  js "| Feature ID | Title | Status |\n" ++ js "|---|---|---|\n" ++ js "| TBD | Beta | NEW |"

theorem openTable_distinct : IdentitiesDistinct ⟨[js "FEAT-001"], []⟩
    (extractPreviewCandidates (fun _ => []) Casing.ascii (js "EPIC-1") openTable
      ⟨[js "FEAT-001"], []⟩ []) := by
  refine (identities_distinct_iff (by decide)).mpr fun row hrow id hid => ?_
  have hnone : (parseEpicFeatureTable openTable).all (fun row => row.featureId.isNone) = true := by
    decide
  have := List.all_eq_true.mp hnone row hrow
  rw [hid] at this
  cases this

/-- A table that names a new feature above a row that has no id. -/
def listedTable : JsString :=
  js "| Feature ID | Title | Status |\n" ++ js "|---|---|---|\n" ++
    js "| FEAT-001 | Alpha | NEW |\n" ++ js "| TBD | Beta | NEW |"

/-- Both features of the table get the id `FEAT-001`. -/
theorem listedTable_not_distinct : ¬IdentitiesDistinct ⟨[], []⟩
    (extractPreviewCandidates (fun _ => []) Casing.ascii (js "EPIC-1") listedTable ⟨[], []⟩ []) := by
  intro h
  have hsame : ∃ candidate ∈ (extractPreviewCandidates (fun _ => []) Casing.ascii (js "EPIC-1")
      listedTable ⟨[], []⟩ []).discoveredCandidates, ∃ listed ∈ (extractPreviewCandidates
        (fun _ => []) Casing.ascii (js "EPIC-1") listedTable ⟨[], []⟩ []).explicitCandidates,
      candidate.plannedFeatureId = listed.plannedFeatureId := by
    decide
  obtain ⟨candidate, hcand, listed, hlisted, heq⟩ := hsame
  exact h.unlisted candidate hcand listed hlisted heq

end Hepha.Preview
