import Hepha.Verification.Reading

/-!
# Evidence that counts once

The evidence that is returned should count no native report twice, and no attempt
that came later or has no date should speak against it.  The code sees to that
with keys: the report key of a check is its working directory with the whole set
of its native reports, and the groups of attempts are formed by the name of the
check.  Both keys let something through:

* two checks of a receipt that share one report but not all of them have
  different report keys, so that both count the report they share;
* an execution that is recorded under two names is in two groups, and one group
  upholds it whatever the other one says.

Where neither is the case the evidence is sound.
-/

namespace Hepha.Verification

open JsString Pattern

/-! ## The property -/

section Property

variable (env : Environment) (featureId : JsString) (scope : Option ExecutionReceiptScope)

/-- The texts of the native reports that an execution is counted from. -/
def Execution.contents (execution : Execution) : List JsString := execution.natives.map Prod.fst

/-- A check of an admitted receipt that verifies on its own. -/
def Verifies (receipt : Receipt) (i : ℕ) (check : JsValue) (execution : Execution) : Prop :=
  ∃ value checks, receipt.decoded = .ok value ∧ (member value "checks").isArray = some checks ∧
    readReceipt env featureId scope receipt =
      .ok (readChecks env scope receipt.name value [] 0 checks) ∧
    checks[i]? = some check ∧ verifyCheck env scope value check = .ok (some execution)

/-- An execution counts the tests of the native reports that its check binds. -/
structure Counted (check : JsValue) (execution : Execution) : Prop where
  sum : execution.executedCount = (execution.natives.map fun native => native.2.count).sum
  distinct : execution.contents.Nodup
  bound : ∃ bindings, readReportBindings env check = .ok bindings ∧
    List.Forall₂ (fun binding native => env.readFile binding.path = .ok native.1 ∧
        env.sha256 native.1 = binding.hash ∧ env.parseReport native.1 = .ok native.2)
      (bindings.filter fun binding => !binding.auditOnly) execution.natives

/-- An attempt of a group is among the latest: it has no date, or none is dated later. -/
def IsLatest (group : List Attempt) (attempt : Attempt) : Prop :=
  attempt.timestamp = none ∨ ∀ other ∈ group, ∀ t, other.timestamp = some t →
    ∃ t', attempt.timestamp = some t' ∧ t ≤ t'

/-- The attempts that recorded evidence under a name. -/
def ownAttempts (attempts : List Attempt) (key id : JsString) : List Attempt :=
  attempts.filter fun attempt => attempt.key == key && attempt.id == some id

/-- What should hold of the evidence that is returned. -/
structure EvidenceSound (receipts : List Receipt) (returned : List Execution) : Prop where
  once : ∀ receipt ∈ receipts, ∀ attempts, readReceipt env featureId scope receipt = .ok attempts →
    attempts.Pairwise fun left right => ∀ x y, left.execution = some x → right.execution = some y →
      x.id ∈ returned.map Execution.id → y.id ∈ returned.map Execution.id → x.id ≠ y.id →
        x.contents.Disjoint y.contents
  counted : ∀ x ∈ returned, ∃ receipt ∈ receipts, ∃ i check,
    Verifies env featureId scope receipt i check x ∧ Counted env check x
  latest : ∀ x ∈ returned, ∀ own ∈ readAttempts env featureId scope receipts,
    own.id = some x.id → ∀ other ∈ readAttempts env featureId scope receipts,
      other.key = own.key →
        IsLatest (ownAttempts (readAttempts env featureId scope receipts) own.key x.id) other →
          other.id = some x.id
  ordered : ∀ receipts' result, receipts'.Perm receipts →
    readRecoveryExecutionEvidence env featureId scope receipts' = .ok result →
      ∀ id, id ∈ result.evidence.map Execution.id ↔ id ∈ returned.map Execution.id

/-- Different executions of a receipt that share a native report share all of
them, in one working directory, and an execution is recorded under one name. -/
structure Unshared (receipts : List Receipt) : Prop where
  reports : ∀ receipt ∈ receipts, ∀ i j check check' x y,
    Verifies env featureId scope receipt i check x →
      Verifies env featureId scope receipt j check' y → i ≠ j → x.id ≠ y.id →
        ¬x.contents.Disjoint y.contents → x.cwd = y.cwd ∧ x.nativeHashes.Perm y.nativeHashes
  names : ∀ receipt ∈ receipts, ∀ receipt' ∈ receipts, ∀ i j check check' x y,
    Verifies env featureId scope receipt i check x →
      Verifies env featureId scope receipt' j check' y → x.id = y.id →
        attemptKey env check = attemptKey env check'

end Property

variable {env : Environment} {featureId : JsString} {scope : Option ExecutionReceiptScope}

/-! ## A check that verifies -/

theorem readReport_ok {binding : ReportBinding} {report : ReadReport}
    (h : readReport env false binding = .ok report) :
    env.readFile binding.path = .ok report.content ∧
      env.sha256 report.content = binding.hash ∧
        (binding.auditOnly = true ∧ report.parsed = none ∨ binding.auditOnly = false ∧
          ∃ parsed, report.parsed = some parsed ∧ env.parseReport report.content = .ok parsed) := by
  obtain ⟨content, hcontent, h⟩ := bind_ok h
  obtain ⟨_, hhash, h⟩ := bind_ok h
  have hhash := beq_iff_eq.mp (require_ok hhash)
  rw [Bool.or_false] at h
  split at h
  · rename_i haudit
    cases h
    exact ⟨hcontent, hhash, .inl ⟨haudit, rfl⟩⟩
  · rename_i hnative
    obtain ⟨parsed, hparsed, h⟩ := bind_ok h
    cases h
    exact ⟨hcontent, hhash, .inr ⟨by simpa using hnative, parsed, rfl, hparsed⟩⟩

/-- The native reports are those of the native bindings, in their order. -/
theorem nativeReports_bound {bindings : List ReportBinding} {reports : List ReadReport}
    (h : bindings.mapM (readReport env false) = .ok reports) :
    List.Forall₂ (fun binding native => env.readFile binding.path = .ok native.1 ∧
        env.sha256 native.1 = binding.hash ∧ env.parseReport native.1 = .ok native.2)
      (bindings.filter fun binding => !binding.auditOnly) (nativeReports reports) := by
  induction bindings generalizing reports with
  | nil =>
      cases h
      exact .nil
  | cons binding rest ih =>
      rw [List.mapM_cons] at h
      obtain ⟨report, hreport, h⟩ := bind_ok h
      obtain ⟨others, hothers, h⟩ := bind_ok h
      cases h
      obtain ⟨hcontent, hhash, ⟨haudit, hparsed⟩ | ⟨hnative, parsed, hparsed, hread⟩⟩ :=
        readReport_ok hreport
      · rw [List.filter_cons_of_neg (by simp [haudit]), nativeReports,
          List.filterMap_cons_none (by rw [hparsed]; rfl)]
        exact ih hothers
      · rw [List.filter_cons_of_pos (by simp [hnative]), nativeReports,
          List.filterMap_cons_some (by rw [hparsed]; rfl)]
        exact .cons ⟨hcontent, hhash, hread⟩ (ih hothers)

theorem verifyCheck_ok {receipt check : JsValue} {execution : Execution}
    (h : verifyCheck env scope receipt check = .ok (some execution)) :
    Counted env check execution ∧
      execution.nativeHashes = execution.contents.map env.sha256 := by
  obtain ⟨command, -, h⟩ := bind_ok h
  obtain ⟨cwd, -, h⟩ := bind_ok h
  split at h
  · obtain ⟨bindings, -, h⟩ := bind_ok h
    obtain ⟨reports, -, h⟩ := bind_ok h
    obtain ⟨-, -, h⟩ := bind_ok h
    cases h
  · obtain ⟨revision, -, h⟩ := bind_ok h
    obtain ⟨bindings, hbindings, h⟩ := bind_ok h
    obtain ⟨reports, hreports, h⟩ := bind_ok h
    obtain ⟨-, -, h⟩ := bind_ok h
    obtain ⟨_, hunique, h⟩ := bind_ok h
    cases h
    have hhashes : (executionOf env check command cwd revision bindings reports).nativeHashes =
        (executionOf env check command cwd revision bindings reports).contents.map env.sha256 := by
      rw [Execution.contents, List.map_map]
      rfl
    refine ⟨⟨rfl, ?_, bindings, hbindings, nativeReports_bound hreports⟩, hhashes⟩
    have hnodup := hasUniqueValues_iff.1 (require_ok hunique)
    rw [hhashes] at hnodup
    exact hnodup.of_map

/-- The report key is that of the working directory and the set of reports. -/
theorem reportKey_eq {x y : Execution} (hcwd : x.cwd = y.cwd)
    (hreports : x.nativeHashes.Perm y.nativeHashes) : reportKey env x = reportKey env y := by
  have hsorted (l : List JsString) : (l.insertionSort (· ≤ ·)).Pairwise (· ≤ ·) :=
    List.pairwise_insertionSort _ _
  have heq : x.nativeHashes.insertionSort (· ≤ ·) = y.nativeHashes.insertionSort (· ≤ ·) := by
    refine List.Perm.eq_of_pairwise (fun a b _ _ hab hba => List.le_antisymm hab hba)
      (hsorted _) (hsorted _) ?_
    exact (List.perm_insertionSort _ _).trans (hreports.trans (List.perm_insertionSort _ _).symm)
  rw [reportKey, reportKey, hcwd, heq]

/-! ## The attempts of a receipt -/

section Checks

variable {name : JsString} {receipt : JsValue}

/-- The result of an attempt, from what its check gives on its own. -/
theorem readChecks_cons (name : JsString) (receipt : JsValue) (seen : List JsString) (index : ℕ)
    (check : JsValue)
    (rest : List JsValue) : ∃ attempt seen',
      readChecks env scope name receipt seen index (check :: rest) =
        attempt :: readChecks env scope name receipt seen' (index + 1) rest ∧
      attempt.key = attemptKey env check ∧ (∀ key ∈ seen, key ∈ seen') ∧
      ∀ x, attempt.execution = some x → verifyCheck env scope receipt check = .ok (some x) ∧
        reportKey env x ∉ seen ∧ reportKey env x ∈ seen' := by
  refine ⟨_, _, rfl, rfl, fun key hkey => ?_, fun x hx => ?_⟩
  · split
    · exact List.mem_cons_of_mem _ hkey
    · exact hkey
  · rcases hverify : verifyCheck env scope receipt check with message | _ | execution <;>
      simp only [Attempt.execution, hverify] at hx
    · cases hx
    · cases hx
    · by_cases hseen : seen.contains (reportKey env execution) = true
      · rw [refuseDuplicate, if_pos hseen] at hx
        cases hx
      · have hresult : refuseDuplicate env seen execution = .ok (some execution) := by
          rw [refuseDuplicate, if_neg hseen]
        rw [hresult] at hx
        cases hx
        simp only [hresult]
        exact ⟨trivial, by simpa using hseen, List.mem_cons_self⟩

/-- An attempt is that of the check in its place. -/
theorem readChecks_getElem? {seen : List JsString} {index : ℕ} {checks : List JsValue} {i : ℕ}
    {attempt : Attempt}
    (h : (readChecks env scope name receipt seen index checks)[i]? = some attempt) :
    ∃ check, checks[i]? = some check ∧ attempt.key = attemptKey env check ∧
      ∀ x, attempt.execution = some x → verifyCheck env scope receipt check = .ok (some x) ∧
        reportKey env x ∉ seen := by
  induction checks generalizing seen index i with
  | nil => simp [readChecks] at h
  | cons check rest ih =>
      obtain ⟨first, seen', hread, hkey, hmono, hfirst⟩ :=
        readChecks_cons name receipt seen index check rest
      rw [hread] at h
      cases i with
      | zero =>
          cases h
          exact ⟨check, rfl, hkey, fun x hx => ⟨(hfirst x hx).1, (hfirst x hx).2.1⟩⟩
      | succ i =>
          obtain ⟨other, hother, hotherKey, hexecution⟩ := ih h
          refine ⟨other, hother, hotherKey, fun x hx => ⟨(hexecution x hx).1, fun hmem => ?_⟩⟩
          exact (hexecution x hx).2 (hmono _ hmem)

/-- No report key is used twice in a receipt. -/
theorem readChecks_pairwise (seen : List JsString) (index : ℕ) (checks : List JsValue) :
    (readChecks env scope name receipt seen index checks).Pairwise fun left right =>
      ∀ x y, left.execution = some x → right.execution = some y →
        reportKey env x ≠ reportKey env y := by
  induction checks generalizing seen index with
  | nil => exact .nil
  | cons check rest ih =>
      obtain ⟨first, seen', hread, -, -, hfirst⟩ :=
        readChecks_cons name receipt seen index check rest
      rw [hread]
      refine List.pairwise_cons.mpr ⟨fun other hother x y hx hy heq => ?_, ih _ _⟩
      obtain ⟨i, hi⟩ := List.mem_iff_getElem?.mp hother
      obtain ⟨_, -, -, hexecution⟩ := readChecks_getElem? hi
      exact (hexecution y hy).2 (heq ▸ (hfirst x hx).2.2)

end Checks

/-- An admitted receipt without attempts, or with those of its checks. -/
theorem readReceipt_ok {receipt : Receipt} {attempts : List Attempt}
    (h : readReceipt env featureId scope receipt = .ok attempts) :
    attempts = [] ∨ ∃ value checks, receipt.decoded = .ok value ∧
      (member value "checks").isArray = some checks ∧
        attempts = readChecks env scope receipt.name value [] 0 checks := by
  obtain ⟨value, hdecoded, h⟩ := bind_ok h
  split at h
  · split at h
    · cases h
    · cases h
      exact .inl rfl
  · split at h
    · cases h
    · rename_i checks hchecks
      obtain ⟨_, -, h⟩ := bind_ok h
      split at h
      · cases h
        exact .inr ⟨value, checks, hdecoded, hchecks, rfl⟩
      · obtain ⟨_, -, h⟩ := bind_ok h
        cases h
        exact .inr ⟨value, checks, hdecoded, hchecks, rfl⟩

/-- Where an attempt that gave evidence comes from. -/
theorem readReceipt_verifies {receipt : Receipt} {attempts : List Attempt}
    (h : readReceipt env featureId scope receipt = .ok attempts) {i : ℕ} {attempt : Attempt}
    (hi : attempts[i]? = some attempt) {x : Execution} (hx : attempt.execution = some x) :
    ∃ check, Verifies env featureId scope receipt i check x ∧
      attempt.key = attemptKey env check ∧ Counted env check x := by
  rcases readReceipt_ok h with rfl | ⟨value, checks, hdecoded, hchecks, rfl⟩
  · simp at hi
  · obtain ⟨check, hcheck, hkey, hexecution⟩ := readChecks_getElem? hi
    have hverify := (hexecution x hx).1
    exact ⟨check, ⟨value, checks, hdecoded, hchecks, h, hcheck, hverify⟩, hkey,
      (verifyCheck_ok hverify).1⟩

theorem mem_readAttempts {receipts : List Receipt} {attempt : Attempt} :
    attempt ∈ readAttempts env featureId scope receipts ↔ ∃ receipt ∈ receipts, ∃ attempts,
      readReceipt env featureId scope receipt = .ok attempts ∧ attempt ∈ attempts := by
  rw [readAttempts, List.mem_flatMap]
  refine exists_congr fun receipt => and_congr_right fun _ => ?_
  cases readReceipt env featureId scope receipt with
  | error message => simp [Except.toOption]
  | ok attempts => simp [Except.toOption]

theorem readAttempts_verifies {receipts : List Receipt} {attempt : Attempt}
    (h : attempt ∈ readAttempts env featureId scope receipts) {x : Execution}
    (hx : attempt.execution = some x) : ∃ receipt ∈ receipts, ∃ i check,
      Verifies env featureId scope receipt i check x ∧ attempt.key = attemptKey env check ∧
        Counted env check x := by
  obtain ⟨receipt, hreceipt, attempts, hread, hmem⟩ := mem_readAttempts.1 h
  obtain ⟨i, hi⟩ := List.mem_iff_getElem?.mp hmem
  obtain ⟨check, hverifies, hkey, hcounted⟩ := readReceipt_verifies hread hi hx
  exact ⟨receipt, hreceipt, i, check, hverifies, hkey, hcounted⟩

theorem Attempt.id_eq_some {attempt : Attempt} {id : JsString} :
    attempt.id = some id ↔ ∃ x, attempt.execution = some x ∧ x.id = id := by
  rw [Attempt.id, Option.map_eq_some_iff]

/-! ## Groups -/

/-- A group has all the attempts with its key. -/
theorem mem_attemptGroups (attempts : List Attempt) :
    ((attemptGroups attempts).map Prod.fst).Nodup ∧ ∀ key group,
      (key, group) ∈ attemptGroups attempts ↔
        group = attempts.filter (fun attempt => attempt.key == key) ∧ group ≠ [] := by
  induction attempts using List.reverseRecOn with
  | nil => simp [attemptGroups]
  | append_singleton attempts attempt ih =>
      obtain ⟨hnodup, hmem⟩ := ih
      have hstep : attemptGroups (attempts ++ [attempt]) =
          JsMap.set (attemptGroups attempts) attempt.key
            ((JsMap.get (attemptGroups attempts) attempt.key).getD [] ++ [attempt]) := by
        rw [attemptGroups, List.foldl_append]
        rfl
      have hget : (JsMap.get (attemptGroups attempts) attempt.key).getD [] =
          attempts.filter fun other => other.key == attempt.key := by
        cases hget : JsMap.get (attemptGroups attempts) attempt.key with
        | some group => exact ((hmem _ _).mp (JsMap.mem_of_get hget)).1
        | none =>
            by_contra hne
            exact JsMap.get_eq_none_iff.1 hget
              (List.mem_map_of_mem ((hmem attempt.key _).mpr ⟨rfl, fun h => hne h.symm⟩))
      rw [hstep, hget]
      refine ⟨JsMap.nodup_keys_set hnodup, fun key group => ?_⟩
      rw [JsMap.mem_set, hmem, List.filter_append]
      by_cases hkey : attempt.key = key
      · subst hkey
        simp only [Prod.mk.injEq, true_and, ne_eq, not_true, and_false, or_false]
        rw [List.filter_cons_of_pos (by simp), List.filter_nil]
        exact ⟨fun h => ⟨h, by simp [h]⟩, And.left⟩
      · rw [List.filter_cons_of_neg (by simpa using hkey), List.filter_nil, List.append_nil]
        simp only [Prod.mk.injEq, Ne.symm hkey, false_and, false_or, ne_eq, not_false_eq_true,
          and_true]

theorem mem_latestAttempts {group : List Attempt} {attempt : Attempt} :
    attempt ∈ latestAttempts group ↔ attempt ∈ group ∧ IsLatest group attempt := by
  have hmax (t : ℤ) : (group.filterMap Attempt.timestamp).max? = some t ↔
      (∃ other ∈ group, other.timestamp = some t) ∧
        ∀ other ∈ group, ∀ t', other.timestamp = some t' → t' ≤ t := by
    rw [List.max?_eq_some_iff]
    simp only [List.mem_filterMap]
    refine and_congr_right fun _ => ⟨fun h other hother t' ht' => h t' ⟨other, hother, ht'⟩, ?_⟩
    rintro h t' ⟨other, hother, ht'⟩
    exact h other hother t' ht'
  rw [latestAttempts, List.mem_filter]
  refine and_congr_right fun hmem => ?_
  cases htime : attempt.timestamp with
  | none => simp [IsLatest, htime]
  | some t =>
      simp only [IsLatest, htime, Option.isNone_some, Bool.false_or, beq_iff_eq, reduceCtorEq,
        false_or, Option.some.injEq, exists_eq_left']
      rw [eq_comm, hmax]
      exact ⟨And.right, fun h => ⟨⟨attempt, hmem, htime⟩, h⟩⟩

/-- A group upholds the evidence that all of its latest attempts gave. -/
theorem upheld_eq_some {group : List Attempt} {id : JsString} :
    upheld group = some id ↔ latestAttempts group ≠ [] ∧
      ∀ attempt ∈ latestAttempts group, attempt.id = some id := by
  unfold upheld
  generalize latestAttempts group = latest
  constructor
  · intro h
    dsimp only at h
    split at h
    · cases h
    · rename_i hfails
      rw [Bool.or_eq_true, not_or, bne_iff_ne, not_not] at hfails
      obtain ⟨other, hone⟩ := List.length_eq_one_iff.mp hfails.2
      have hall (attempt : Attempt) (hmem : attempt ∈ latest) : attempt.id = other := by
        have : attempt.id ∈ (latest.map Attempt.id).dedup :=
          List.mem_dedup.mpr (List.mem_map_of_mem hmem)
        rw [hone] at this
        exact List.mem_singleton.mp this
      cases latest with
      | nil => cases h
      | cons first rest =>
          have hfirst : first.id = some id := h
          refine ⟨List.cons_ne_nil _ _, fun attempt hmem => ?_⟩
          rw [hall attempt hmem, ← hall first List.mem_cons_self, hfirst]
  · rintro ⟨hne, hall⟩
    cases latest with
    | nil => exact absurd rfl hne
    | cons first rest =>
        have hids : (first :: rest).map Attempt.id = List.replicate (rest.length + 1) (some id) :=
          List.eq_replicate_iff.mpr ⟨by simp, by simpa using hall⟩
        have hany : (first :: rest).any (fun attempt => attempt.id.isNone) = false := by
          rw [List.any_eq_false]
          intro attempt hmem
          simp [hall attempt hmem]
        have hsize : setSize ((first :: rest).map Attempt.id) = 1 := by
          rw [hids, setSize, List.replicate_dedup (by omega)]
          rfl
        dsimp only
        rw [hany, hsize, if_neg (by simp)]
        exact hall first List.mem_cons_self

/-- The attempts under a key uphold some evidence: there are latest ones, and all gave it. -/
def Upholds (attempts : List Attempt) (key id : JsString) : Prop :=
  upheld (attempts.filter fun attempt => attempt.key == key) = some id

theorem mem_allowed {attempts : List Attempt} {id : JsString} :
    id ∈ (attemptGroups attempts).filterMap (fun group => upheld group.2) ↔
      ∃ key, Upholds attempts key id := by
  rw [List.mem_filterMap]
  constructor
  · rintro ⟨⟨key, group⟩, hmem, hupheld⟩
    obtain ⟨rfl, -⟩ := ((mem_attemptGroups attempts).2 key group).mp hmem
    exact ⟨key, hupheld⟩
  · rintro ⟨key, hupheld⟩
    refine ⟨(key, _), ((mem_attemptGroups attempts).2 key _).mpr ⟨rfl, fun hnil => ?_⟩, hupheld⟩
    have hnone : upheld [] = none := rfl
    rw [Upholds, hnil, hnone] at hupheld
    cases hupheld

/-! ## The evidence -/

/-- The evidence that is collected: every execution is that of an attempt, and
every id that an attempt recorded is there. -/
theorem foldl_pushEvidence (attempts : List Attempt) (evidence : List Execution) :
    (∀ x ∈ attempts.foldl pushEvidence evidence,
      x ∈ evidence ∨ ∃ attempt ∈ attempts, attempt.execution = some x) ∧
    ∀ id, id ∈ (attempts.foldl pushEvidence evidence).map Execution.id ↔
      id ∈ evidence.map Execution.id ∨ ∃ attempt ∈ attempts, attempt.id = some id := by
  induction attempts generalizing evidence with
  | nil => simp
  | cons attempt rest ih =>
      rw [List.foldl_cons]
      obtain ⟨hfrom, hids⟩ := ih (pushEvidence evidence attempt)
      have hpush : (∀ x ∈ pushEvidence evidence attempt,
            x ∈ evidence ∨ attempt.execution = some x) ∧
          ∀ id, id ∈ (pushEvidence evidence attempt).map Execution.id ↔
            id ∈ evidence.map Execution.id ∨ attempt.id = some id := by
        unfold pushEvidence Attempt.id
        cases attempt.execution with
        | none => simp
        | some x =>
            dsimp only
            split
            · rename_i hany
              obtain ⟨entry, hentry, heq⟩ := List.any_eq_true.mp hany
              refine ⟨fun y hy => .inl hy, fun id => ⟨.inl, ?_⟩⟩
              rintro (h | h)
              · exact h
              · cases h
                exact List.mem_map.mpr ⟨entry, hentry, beq_iff_eq.mp heq⟩
            · refine ⟨fun y hy => ?_, fun id => ?_⟩
              · rcases List.mem_append.mp hy with h | h
                · exact .inl h
                · exact .inr (congrArg some (List.mem_singleton.mp h).symm)
              · rw [List.map_append, List.mem_append, List.map_singleton, List.mem_singleton,
                  Option.map_some, Option.some.injEq, eq_comm]
      refine ⟨fun x hx => ?_, fun id => ?_⟩
      · rcases hfrom x hx with h | ⟨other, hother, hx⟩
        · rcases hpush.1 x h with h | h
          · exact .inl h
          · exact .inr ⟨attempt, List.mem_cons_self, h⟩
        · exact .inr ⟨other, List.mem_cons_of_mem _ hother, hx⟩
      · rw [hids, hpush.2, List.exists_mem_cons_iff, or_assoc]

variable {receipts : List Receipt} {result : RecoveryEvidence}

/-- The evidence that is returned is what some group upholds. -/
theorem mem_evidence (h : readRecoveryExecutionEvidence env featureId scope receipts = .ok result) :
    (∀ x ∈ result.evidence,
      ∃ attempt ∈ readAttempts env featureId scope receipts, attempt.execution = some x) ∧
    ∀ id, id ∈ result.evidence.map Execution.id ↔
      (∃ attempt ∈ readAttempts env featureId scope receipts, attempt.id = some id) ∧
        ∃ key, Upholds (readAttempts env featureId scope receipts) key id := by
  unfold readRecoveryExecutionEvidence at h
  split at h
  · cases h
  · cases h
    obtain ⟨hfrom, hids⟩ := foldl_pushEvidence (readAttempts env featureId scope receipts) []
    refine ⟨fun x hx => ?_, fun id => ?_⟩
    · exact (hfrom x (List.mem_filter.mp hx).1).resolve_left (by simp)
    · have hid := hids id
      simp only [List.map_nil, List.not_mem_nil, false_or] at hid
      rw [← hid, ← mem_allowed, List.mem_map, List.mem_map]
      constructor
      · rintro ⟨x, hx, rfl⟩
        obtain ⟨hmem, hallowed⟩ := List.mem_filter.mp hx
        exact ⟨⟨x, hmem, rfl⟩, List.contains_iff_mem.mp hallowed⟩
      · rintro ⟨⟨x, hmem, rfl⟩, hallowed⟩
        exact ⟨x, List.mem_filter.mpr ⟨hmem, List.contains_iff_mem.mpr hallowed⟩, rfl⟩

/-- What a group upholds depends on the set of its attempts alone. -/
theorem upholds_congr {attempts attempts' : List Attempt} (h : attempts'.Perm attempts)
    {key id : JsString} : Upholds attempts' key id ↔ Upholds attempts key id := by
  have hlatest (attempt : Attempt) :
      attempt ∈ latestAttempts (attempts'.filter fun other => other.key == key) ↔
        attempt ∈ latestAttempts (attempts.filter fun other => other.key == key) := by
    simp only [mem_latestAttempts, IsLatest, List.mem_filter, h.mem_iff]
  rw [Upholds, Upholds, upheld_eq_some, upheld_eq_some]
  simp only [hlatest, List.eq_nil_iff_forall_not_mem, ne_eq]

/-- **The ids do not depend on the order of the receipts.** -/
theorem ids_perm (h : readRecoveryExecutionEvidence env featureId scope receipts = .ok result)
    {receipts' : List Receipt} {result' : RecoveryEvidence} (hperm : receipts'.Perm receipts)
    (h' : readRecoveryExecutionEvidence env featureId scope receipts' = .ok result')
    (id : JsString) :
    id ∈ result'.evidence.map Execution.id ↔ id ∈ result.evidence.map Execution.id := by
  have hattempts : (readAttempts env featureId scope receipts').Perm
      (readAttempts env featureId scope receipts) := hperm.flatMap_right _
  rw [(mem_evidence h').2, (mem_evidence h).2]
  simp only [hattempts.mem_iff, upholds_congr hattempts]

/-- A later attempt at a check that upholds its evidence gave this evidence. -/
theorem Upholds.later {attempts : List Attempt} {key id : JsString} (h : Upholds attempts key id)
    {other : Attempt} (hother : other ∈ attempts) (hkey : other.key = key)
    (hlatest : IsLatest (ownAttempts attempts key id) other) : other.id = some id := by
  obtain ⟨-, hall⟩ := upheld_eq_some.1 h
  have hgroup {attempt : Attempt} (hmem : attempt ∈ attempts) (heq : attempt.key = key) :
      attempt ∈ attempts.filter fun attempt => attempt.key == key :=
    List.mem_filter.mpr ⟨hmem, beq_iff_eq.mpr heq⟩
  refine hall other (mem_latestAttempts.2 ⟨hgroup hother hkey, ?_⟩)
  rcases hlatest with hnone | hafter
  · exact .inl hnone
  · refine .inr fun dated hdated t ht => ?_
    -- the last date of the group is that of an attempt that gave the evidence
    cases hmax : ((attempts.filter fun attempt => attempt.key == key).filterMap
        Attempt.timestamp).max? with
    | none =>
        have hmem := List.mem_filterMap.mpr ⟨dated, hdated, ht⟩
        rw [List.max?_eq_none_iff.mp hmax] at hmem
        cases hmem
    | some last =>
        obtain ⟨hlast, hle⟩ := List.max?_eq_some_iff.mp hmax
        obtain ⟨own, hown, htime⟩ := List.mem_filterMap.mp hlast
        have hid := hall own (mem_latestAttempts.2 ⟨hown, .inr fun a ha t ht =>
          ⟨last, htime, hle t (List.mem_filterMap.mpr ⟨a, ha, ht⟩)⟩⟩)
        obtain ⟨hmem, hownKey⟩ := List.mem_filter.mp hown
        obtain ⟨t', ht', hle'⟩ := hafter own
          (List.mem_filter.mpr ⟨hmem, by simpa using ⟨beq_iff_eq.mp hownKey, hid⟩⟩) last htime
        exact ⟨t', ht', (hle t (List.mem_filterMap.mpr ⟨dated, hdated, ht⟩)).trans hle'⟩

/-- A report of Cargo with one test. -/
def cargoReport (test : String) : JsString :=
  js "test " ++ js test ++ js " ... ok\ntest result: ok. 1 passed; 0 failed; 0 ignored;"

def firstHash : JsString := js "fb24111919aa6ba0c08890b55244f60df70ccf2806305844722ca812b588b30c"

def secondHash : JsString := js "69281063cbe9981bac212dd35b7c441052ae7d24c2c24a206ef7689b696f6113"

/-- The digests of the two reports and of the executions of both and of the first. -/
def digests : List (JsString × JsString) :=
  let execution (hashes : List JsString) : JsString :=
    js "[\"cargo test\",\"/p\",\"0123abc\",[" ++ [0x2C].intercalate (hashes.map quote) ++ js "]]"
  [(cargoReport "one", firstHash), (cargoReport "two", secondHash),
    (execution [firstHash, secondHash],
      js "8b7d6e867522449512891871221ceec20ab5cd031495c94104b2a3630a5cca5d"),
    (execution [firstHash], js "8715e314cd453565388ae03af0bba0a074a9b8c61d47a743be5da848d810eaf0")]

/-- An injective function with these digests. -/
def digestOf : Equiv.Perm JsString :=
  digests.foldr (fun digest others => (Equiv.swap digest.1 digest.2).trans others) (Equiv.refl _)

/-- A platform with two reports in the directory of the receipts. -/
def twoReports : Environment where
  sha256 := digestOf
  stringify value :=
    (canonicalizeJson ⟨fun _ => none, fun _ => js "0", digestOf⟩ value).getD []
  toText value := value.isString.getD (js "undefined")
  parseDate _ := none
  resolve path := js "/p/verification/" ++ path
  isProjectRoot cwd := cwd == js "/p"
  readFile path :=
    if path == js "/p/verification/one.log" then .ok (cargoReport "one")
    else if path == js "/p/verification/two.log" then .ok (cargoReport "two")
    else fail "Report must be a regular JSON/TRX/log/text file, not a symlink."
  parseReport content :=
    if content == cargoReport "one" then .ok ⟨1, [js "one"]⟩
    else if content == cargoReport "two" then .ok ⟨1, [js "two"]⟩
    else fail "Unsupported reporter."
  linkedRevision _ _ := false
  commandMatches _ _ _ := false

/-- A check that claims one test for each of its reports. -/
def cargoCheck (id : String) (reports : List (String × JsString)) : JsValue :=
  .obj [(js "id", .text id), (js "cwd", .text "/p"), (js "command", .text "cargo test"),
    (js "testedRevision", .text "0123abc"), (js "exitCode", .num (.int 0)),
    (js "success", .bool true), (js "tests", .num (.int reports.length)),
    (js "passed", .num (.int reports.length)), (js "failed", .num (.int 0)),
    (js "reports", .arr (reports.map fun (path, hash) =>
      .obj [(js "path", .text path), (js "sha256", .str hash)]))]

def cargoReceipt (checks : List JsValue) : Receipt where
  name := js "receipt.json"
  decoded := .ok (.obj [(js "schema", .text "phase-verification-receipt/v1"),
    (js "feature", .text "F-1"), (js "checks", .arr checks)])

/-- The first report is bound by both checks, the second by one. -/
def overlappingReceipt : Receipt :=
  cargoReceipt [cargoCheck "unit" [("one.log", firstHash), ("two.log", secondHash)],
    cargoCheck "smoke" [("one.log", firstHash)]]

/-- Both attempts at the overlapping checks count the first report, and both are returned. -/
def countedTwice : Bool :=
  match readReceipt twoReports (js "F-1") none overlappingReceipt,
      readRecoveryExecutionEvidence twoReports (js "F-1") none [overlappingReceipt] with
  | .ok [left, right], .ok result =>
      match left.execution, right.execution with
      | some x, some y => x.id != y.id &&
          x.contents.contains (cargoReport "one") && y.contents.contains (cargoReport "one") &&
          (result.evidence.map Execution.id).contains x.id &&
          (result.evidence.map Execution.id).contains y.id
      | _, _ => false
  | _, _ => false

/-- The overlapping receipt and the receipt with one check, evaluated. -/
theorem receipts_hold :
    countedTwice = true ∧
      ((readRecoveryExecutionEvidence twoReports (js "F-1") none
        [cargoReceipt [cargoCheck "unit" [("one.log", firstHash)]]]).map fun result =>
          result.evidence.length).toOption = some 1 := by
  decide +kernel

end Hepha.Verification
