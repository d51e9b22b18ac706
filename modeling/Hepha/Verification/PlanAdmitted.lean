import Hepha.Verification.PlanOrder

/-!
# What an admitted plan promises

A plan that is returned holds the checks that were decoded, in an order of their
prerequisites, and its phases and checks cover each other.

## Strategy

The loops note an issue for everything that is wrong, so that a plan without issues went
through all of their turns (`admitChecks_admitted`, `foldl_admitPhase`).  The sizes of the
sets that the code compares at the end say that nothing was left out (`setSize_eq_iff`).
The order is that of `orderChecks_ok`.
-/

namespace Hepha

open JsString

/-! ## Values with a property -/

namespace JsValue

/-- A value with a property is a record. -/
theorem exists_obj_of_get {value : JsValue} {key : JsString} (h : value.get key ≠ .undefined) :
    ∃ properties, value = .obj properties := by
  cases value with
  | obj properties => exact ⟨properties, rfl⟩
  | _ => exact absurd rfl h

theorem lookup_set (properties : List (JsString × JsValue)) (key k : JsString)
    (member : JsValue) : (JsMap.set properties key member).lookup k =
      if k = key then some member else properties.lookup k := by
  have hreplace := JsMap.lookup_map_replace properties key k member
  rw [lawful_beq_subsingleton (instBEqOfDecidableEq : BEq JsString) List.instBEq] at hreplace
  rw [JsMap.set]
  split_ifs with hmem hk hk
  · rw [hreplace, if_pos hk]
    obtain ⟨old, hold⟩ : ∃ old, properties.lookup key = some old := by
      refine Option.ne_none_iff_exists'.mp fun hnone => ?_
      obtain ⟨entry, hentry, rfl⟩ := List.mem_map.mp hmem
      exact absurd (beq_self_eq_true entry.1)
        (by simpa using List.lookup_eq_none_iff.mp hnone entry hentry)
    rw [hold, Option.map_some]
  · rw [hreplace, if_neg hk]
  · have hnone : properties.lookup k = none :=
      List.lookup_eq_none_iff.mpr fun entry hentry => by
        have : k ≠ entry.1 := fun heq => hmem (hk ▸ heq ▸ List.mem_map_of_mem hentry)
        simpa using this
    rw [List.lookup_append, hnone, hk]
    simp
  · rw [List.lookup_append]
    simp [List.lookup_cons, beq_false_of_ne hk]

theorem get_assign {value : JsValue} (hvalue : ∃ properties, value = .obj properties) (key : String)
    (member : JsValue) (k : JsString) :
    (value.assign key member).get k = if k = js key then member else value.get k := by
  obtain ⟨properties, rfl⟩ := hvalue
  simp only [assign, get, lookup_set]
  split_ifs <;> rfl

theorem assign_obj {value : JsValue} (hvalue : ∃ properties, value = .obj properties) (key : String)
    (member : JsValue) : ∃ properties, value.assign key member = .obj properties := by
  obtain ⟨properties, rfl⟩ := hvalue
  exact ⟨_, rfl⟩

end JsValue

namespace Verification

open Relation (TransGen)

variable {env : PlanEnvironment}

/-! ## What the plan promises -/

/-- A decoded check with its kind and its actual working directory. -/
def Normalized (env : PlanEnvironment) (decoded check : JsValue) : Prop :=
  ∃ cwd actual, decoded.get (js "cwd") = .str cwd ∧ env.realpath cwd = .ok actual ∧
    check = (withKind decoded).assign "cwd" (.str actual)

/-- The working directory and the trimmed command of a check. -/
def runOf (check : JsValue) : JsString × JsString :=
  ((check.get (js "cwd")).isString.getD [], ((check.get (js "command")).isString.getD []).trim)

/-- The ids that a phase refers to. -/
def checkIdsOf (phase : JsValue) : List JsString :=
  match phase.get (js "checkIds") with
  | .arr items => items.filterMap JsValue.isString
  | _ => []

/-- What holds of the checks in their order and the phases of a plan. -/
structure PlanSound (env : PlanEnvironment) (phaseNumbers : List JsNumber)
    (decoded ordered phases : List JsValue) : Prop where
  /-- The checks are the decoded ones. -/
  perm : ∃ checks, List.Forall₂ (Normalized env) decoded checks ∧ ordered.Perm checks
  named : ∀ check ∈ ordered, checkId check = some (idOf check)
  distinct : (ordered.map idOf).Nodup
  executions : (ordered.map runOf).Nodup
  prerequisites : ∀ before check after, ordered = before ++ check :: after →
    ∀ id ∈ dependsOn check, id ∈ before.map idOf
  /-- The phases are the required ones, each once. -/
  required : ∀ phase ∈ phases, ∃ number ∈ phaseNumbers, phase.get (js "phaseNumber") = .num number
  once : ∀ number ∈ phaseNumbers,
    ∃ before phase after, phases = before ++ phase :: after ∧
      phase.get (js "phaseNumber") = .num number ∧
      ∀ other ∈ before ++ after, other.get (js "phaseNumber") ≠ .num number
  /-- A phase refers to checks of the plan, or it says why there are none. -/
  references : ∀ phase ∈ phases,
    phase.get (js "checkIds") = .arr ((checkIdsOf phase).map .str) ∧
      (∀ id ∈ checkIdsOf phase, id ∈ ordered.map idOf) ∧
      (checkIdsOf phase = [] → (planText (phase.get (js "noAutomationReason")) 4000).isSome = true)
  used : ∀ check ∈ ordered, ∃ phase ∈ phases, idOf check ∈ checkIdsOf phase

/-! ## A check that is identified -/

theorem planText_some {value : JsValue} {max : ℕ} {text : JsString}
    (h : planText value max = some text) : value = .str text ∧ text ≠ [] := by
  obtain ⟨hstring, htext⟩ := Option.filter_eq_some_iff.mp h
  refine ⟨?_, ?_⟩
  · cases value with
    | str value => rw [Option.some.inj hstring]
    | _ => cases hstring
  · rintro rfl
    have htrim : JsString.trim [] = [] := rfl
    simp [htrim] at htext

/-- The text of an execution. -/
def runText (run : JsString × JsString) : JsString :=
  js "[" ++ quote run.1 ++ js "," ++ quote run.2 ++ js "]"

theorem get_withKind {check : JsValue} (hcheck : ∃ properties, check = .obj properties)
    {key : JsString} (hkey : key ≠ js "kind") : (withKind check).get key = check.get key := by
  rw [withKind]
  split
  · rw [JsValue.get_assign hcheck, if_neg hkey]
  · rw [JsValue.get_assign hcheck, if_neg hkey]
  · rfl

theorem withKind_obj {check : JsValue} (hcheck : ∃ properties, check = .obj properties) :
    ∃ properties, withKind check = .obj properties := by
  rw [withKind]
  split
  · exact JsValue.assign_obj hcheck _ _
  · exact JsValue.assign_obj hcheck _ _
  · exact hcheck

/-- Apart from its kind and its working directory a check stays as it was decoded. -/
theorem Normalized.get {decoded check : JsValue} (h : Normalized env decoded check)
    {key : JsString} (hkind : key ≠ js "kind") (hcwd : key ≠ js "cwd") :
    check.get key = decoded.get key := by
  obtain ⟨cwd, actual, hget, -, rfl⟩ := h
  have hcwd' : decoded.get (js "cwd") ≠ .undefined := by
    rw [hget]
    nofun
  have hobj := JsValue.exists_obj_of_get hcwd'
  rw [JsValue.get_assign (withKind_obj hobj), if_neg hcwd, get_withKind hobj hkind]

theorem Normalized.checkId {decoded check : JsValue} (h : Normalized env decoded check) :
    checkId check = checkId decoded := by
  rw [Verification.checkId, Verification.checkId, h.get (by decide) (by decide)]

/-- What is known of a check that was identified. -/
structure Identifies (env : PlanEnvironment) (declaredIds ids : List JsString)
    (executions : List (JsString × JsString)) (decoded : JsValue) (found : IdentifiedCheck) :
    Prop where
  normalized : Normalized env decoded found.check
  named : checkId found.check = some found.id
  nonempty : found.id ≠ []
  depends : ∀ id ∈ dependsOn found.check, id ∈ declaredIds
  execution : found.execution = runText (runOf found.check)
  fresh : found.id ∉ ids
  freshRun : truthy (JsMap.get executions found.execution) = none

theorem mem_of_dependsOnOthers {declaredIds : List JsString} {id : JsString} {check : JsValue}
    (h : dependsOnOthers declaredIds id (check.get (js "dependsOn")) = true) :
    ∀ other ∈ dependsOn check, other ∈ declaredIds := by
  intro other hother
  rw [dependsOn] at hother
  unfold dependsOnOthers at h
  split at h
  · rename_i hundefined
    rw [hundefined] at hother
    cases hother
  · obtain ⟨ids, hids, hall⟩ := (Option.any_eq_true _ _).mp h
    rw [hids, Option.getD_some] at hother
    have hmem := List.all_eq_true.mp hall other hother
    rw [Bool.and_eq_true] at hmem
    exact List.contains_iff_mem.mp hmem.2

theorem identifyCheck_ok {declaredIds ids : List JsString}
    {executions : List (JsString × JsString)} {decoded : JsValue} {found : IdentifiedCheck}
    (h : identifyCheck env declaredIds ids executions decoded = .ok found) :
    Identifies env declaredIds ids executions decoded found := by
  unfold identifyCheck at h
  split at h
  · rename_i id cwd command reason configurationFiles hid hcwd hcommand _ _
    obtain ⟨_, _, h⟩ := bind_ok h
    obtain ⟨_, hdepends, h⟩ := bind_ok h
    obtain ⟨_, _, h⟩ := bind_ok h
    obtain ⟨_, _, h⟩ := bind_ok h
    obtain ⟨_, _, h⟩ := bind_ok h
    obtain ⟨_, _, h⟩ := bind_ok h
    obtain ⟨actual, hactual, h⟩ := bind_ok h
    obtain ⟨repositories, _, h⟩ := bind_ok h
    obtain ⟨_, hfresh, h⟩ := bind_ok h
    split at h
    · cases h
    · rename_i hrun
      obtain rfl := Except.ok.inj h
      have hget := (planText_some hcwd).1
      -- only the kind and the working directory of the check have changed
      have hnormalized : Normalized env decoded
          ((withKind decoded).assign "cwd" (.str actual)) := ⟨cwd, actual, hget, hactual, rfl⟩
      have hcwd' : decoded.get (js "cwd") ≠ .undefined := by
        rw [hget]
        nofun
      have hobj := JsValue.exists_obj_of_get hcwd'
      refine ⟨hnormalized, hnormalized.checkId.trans hid, (planText_some hid).2, ?_, ?_, ?_, hrun⟩
      · rw [dependsOn, hnormalized.get (by decide) (by decide)]
        exact mem_of_dependsOnOthers (require_ok hdepends)
      · have hkept : ((withKind decoded).assign "cwd" (.str actual)).get (js "command") =
            decoded.get (js "command") := hnormalized.get (by decide) (by decide)
        rw [runOf, hkept, (planText_some hcommand).1, JsValue.get_assign (withKind_obj hobj),
            if_pos rfl]
        rfl
      · have hfresh := require_ok hfresh
        simpa using hfresh
  · cases h

/-! ## The loop over the checks -/

/-- What the loop has gathered from the checks before. -/
structure Gathered (env : PlanEnvironment) (declaredIds : List JsString)
    (decoded : List JsValue) (s : Admission) : Prop where
  checks : List.Forall₂ (Normalized env) decoded s.checks
  named : ∀ check ∈ s.checks, checkId check = some (idOf check)
  ids : s.ids = s.checks.map idOf
  distinct : s.ids.Nodup
  executions : s.executions.map Prod.fst = s.checks.map fun check => runText (runOf check)
  runs : (s.checks.map runOf).Nodup
  nonempty : ∀ entry ∈ s.executions, entry.2 ≠ []
  depends : ∀ check ∈ s.checks, ∀ id ∈ dependsOn check, id ∈ declaredIds

/-- A turn without an issue has identified its check. -/
theorem admitCheck_cases {declaredIds : List JsString} {index : ℕ} {check : JsValue}
    {s : Admission} (h : (admitCheck env declaredIds index check s).issues = []) :
    s.issues = [] ∧ ∃ found, identifyCheck env declaredIds s.ids s.executions check = .ok found ∧
      admitCheck env declaredIds index check s =
        ⟨s.checks ++ [found.check], s.ids ++ [found.id],
          JsMap.set s.executions found.execution found.id, []⟩ := by
  unfold admitCheck at h ⊢
  cases hidentify : identifyCheck env declaredIds s.ids s.executions check with
  | error message =>
      simp only [hidentify] at h
      exact absurd h (List.append_ne_nil_of_right_ne_nil _ (List.cons_ne_nil _ _))
  | ok found =>
      simp only [hidentify] at h ⊢
      cases hfollow : followSuite env found with
      | error message =>
          simp only [hfollow] at h
          exact absurd h (List.append_ne_nil_of_right_ne_nil _ (List.cons_ne_nil _ _))
      | ok _ =>
          simp only [hfollow] at h ⊢
          exact ⟨h, found, rfl, by rw [h]⟩

/-- **One turn** keeps what is gathered. -/
theorem Gathered.admitCheck {declaredIds : List JsString} {decoded : List JsValue}
    {s : Admission} {index : ℕ} {check : JsValue} (hs : Gathered env declaredIds decoded s)
    (h : (admitCheck env declaredIds index check s).issues = []) :
    Gathered env declaredIds (decoded ++ [check]) (admitCheck env declaredIds index check s) := by
  obtain ⟨-, found, hfound, heq⟩ := admitCheck_cases h
  have hidentifies := identifyCheck_ok hfound
  have hid : idOf found.check = found.id := by
    rw [idOf, hidentifies.named, Option.getD_some]
  -- an execution that is there has an id that is not empty, and is refused
  have hnew : found.execution ∉ s.executions.map Prod.fst := by
    intro hmem
    cases hget : JsMap.get s.executions found.execution with
    | none => exact JsMap.get_eq_none_iff.1 hget hmem
    | some prior =>
        have hprior := hs.nonempty _ (JsMap.mem_of_get hget)
        have hfree := hidentifies.freshRun
        rw [hget, truthy_some hprior] at hfree
        cases hfree
  -- a new key is appended
  have hset : JsMap.set s.executions found.execution found.id =
      s.executions ++ [(found.execution, found.id)] := if_neg hnew
  rw [heq, hset]
  refine ⟨?_, ?_, ?_, ?_, ?_, ?_, ?_, ?_⟩
  · exact List.rel_append hs.checks (.cons hidentifies.normalized .nil)
  · intro other hother
    rcases List.mem_append.mp hother with hother | hother
    · exact hs.named other hother
    · rw [List.mem_singleton.mp hother, hid]
      exact hidentifies.named
  · rw [List.map_append, hs.ids, List.map_singleton, hid]
  · refine List.nodup_append.mpr ⟨hs.distinct, List.nodup_singleton _, ?_⟩
    rintro id hmem _ hother rfl
    exact hidentifies.fresh (List.mem_singleton.mp hother ▸ hmem)
  · rw [List.map_append, List.map_append, hs.executions, List.map_singleton, List.map_singleton,
      hidentifies.execution]
  · rw [List.map_append, List.map_singleton]
    refine List.nodup_append.mpr ⟨hs.runs, List.nodup_singleton _, ?_⟩
    rintro run hmem _ hother rfl
    rw [List.mem_singleton] at hother
    refine hnew ?_
    rw [hs.executions, hidentifies.execution, ← hother]
    obtain ⟨other, hother, hrun⟩ := List.mem_map.mp hmem
    exact List.mem_map.mpr ⟨other, hother, congrArg runText hrun⟩
  · intro entry hentry
    rcases List.mem_append.mp hentry with hentry | hentry
    · exact hs.nonempty entry hentry
    · rw [List.mem_singleton.mp hentry]
      exact hidentifies.nonempty
  · intro other hother
    rcases List.mem_append.mp hother with hother | hother
    · exact hs.depends other hother
    · rw [List.mem_singleton.mp hother]
      exact hidentifies.depends

theorem issues_of_admitChecks {declaredIds : List JsString} {index : ℕ} {checks : List JsValue}
    {s : Admission} (h : (admitChecks env declaredIds index checks s).issues = []) :
    s.issues = [] := by
  induction checks generalizing index s with
  | nil => exact h
  | cons check rest ih => exact (admitCheck_cases (ih h)).1

/-- **The loop without an issue** has gathered all checks. -/
theorem Gathered.admitChecks {declaredIds : List JsString} {decoded : List JsValue}
    {s : Admission} {index : ℕ} {checks : List JsValue} (hs : Gathered env declaredIds decoded s)
    (h : (admitChecks env declaredIds index checks s).issues = []) :
    Gathered env declaredIds (decoded ++ checks) (admitChecks env declaredIds index checks s) := by
  induction checks generalizing index decoded s with
  | nil => rwa [List.append_nil]
  | cons check rest ih =>
      -- issues are never taken back, so this turn had none
      have hturn := hs.admitCheck (issues_of_admitChecks h)
      have hrest := ih hturn h
      rwa [List.append_assoc, List.singleton_append] at hrest

/-- The declared ids are those of the checks as they are admitted. -/
theorem declaredIds_eq {decoded checks : List JsValue}
    (h : List.Forall₂ (Normalized env) decoded checks)
    (hnamed : ∀ check ∈ checks, checkId check = some (idOf check)) :
    decoded.filterMap checkId = checks.map idOf := by
  induction h with
  | nil => rfl
  | cons hfirst _ ih =>
      obtain ⟨hname, hnames⟩ := List.forall_mem_cons.mp hnamed
      rw [List.filterMap_cons_some (hfirst.checkId ▸ hname), ih hnames, List.map_cons]

/-! ## The loop over the phases -/

/-- The number of a phase. -/
def numberOf (phase : JsValue) : JsNumber :=
  match phase.get (js "phaseNumber") with
  | .num number => number
  | _ => .nan

/-- A phase that was read. -/
structure PhaseRead (phaseNumbers : List JsNumber) (declaredIds : List JsString)
    (phase : JsValue) : Prop where
  number : phase.get (js "phaseNumber") = .num (numberOf phase)
  required : numberOf phase ∈ phaseNumbers
  checkIds : phase.get (js "checkIds") = .arr ((checkIdsOf phase).map .str)
  declared : ∀ id ∈ checkIdsOf phase, id ∈ declaredIds
  reason : checkIdsOf phase = [] →
    (planText (phase.get (js "noAutomationReason")) 4000).isSome = true

theorem eq_map_str {items : List JsValue} {texts : List JsString}
    (h : items.mapM JsValue.isString = some texts) : items = texts.map .str := by
  induction items generalizing texts with
  | nil =>
      obtain rfl : [] = texts := Option.some.inj h
      rfl
  | cons item rest ih =>
      obtain ⟨text, others, htext, hothers, rfl⟩ := mapM_cons_eq_some.1 h
      rw [List.map_cons, ih hothers]
      cases item with
      | str value => rw [Option.some.inj htext]
      | _ => cases htext

theorem readPhase_some {phaseNumbers : List JsNumber} {declaredIds : List JsString}
    {seen : List JsNumber} {phase : JsValue} {number : JsNumber} {checkIds : List JsString}
    (h : readPhase phaseNumbers declaredIds seen phase = some (number, checkIds)) :
    PhaseRead phaseNumbers declaredIds phase ∧ number = numberOf phase ∧
      checkIds = checkIdsOf phase ∧ number ∉ seen := by
  unfold readPhase at h
  split at h
  · rename_i value items hnumber hitems
    simp only [Option.bind_eq_bind, Option.bind_eq_some_iff] at h
    obtain ⟨texts, htexts, _, hguard, hresult⟩ := h
    obtain ⟨rfl, rfl⟩ := Prod.mk.inj (Option.some.inj hresult)
    obtain rfl := eq_map_str htexts
    -- all conditions of the source are in one guard
    have hguard : (phaseNumbers.contains value && !seen.contains value && hasUniqueValues texts &&
        texts.all declaredIds.contains && (!texts.isEmpty ||
          (planText (phase.get (js "noAutomationReason")) 4000).isSome)) = true := by
      by_contra hnot
      rw [guard, if_neg hnot] at hguard
      cases hguard
    simp only [Bool.and_eq_true] at hguard
    obtain ⟨⟨⟨⟨hrequired, hseen⟩, -⟩, hdeclared⟩, hreason⟩ := hguard
    have hnumberOf : numberOf phase = value := by
      rw [numberOf, hnumber]
    have hids : checkIdsOf phase = texts := by
      rw [checkIdsOf, hitems]
      simp [List.filterMap_map, Function.comp_def, JsValue.isString]
    refine ⟨⟨by rw [hnumberOf, hnumber], ?_, by rw [hids, hitems], ?_, ?_⟩, hnumberOf.symm,
      hids.symm, by simpa using hseen⟩
    · rw [hnumberOf]
      exact List.contains_iff_mem.mp hrequired
    · rw [hids]
      exact fun id hid => List.contains_iff_mem.mp (List.all_eq_true.mp hdeclared id hid)
    · rw [hids]
      rintro rfl
      simpa using hreason
  · cases h

/-- What the loop has gathered from the phases before. -/
structure Scoped (phaseNumbers : List JsNumber) (declaredIds : List JsString)
    (phases : List JsValue) (s : PhaseScope) : Prop where
  read : ∀ phase ∈ phases, PhaseRead phaseNumbers declaredIds phase
  distinct : (phases.map numberOf).Nodup
  seen : s.seen = (phases.map numberOf).reverse
  selected : s.selected = phases.flatMap checkIdsOf

theorem admitPhase_cases {phaseNumbers : List JsNumber} {declaredIds : List JsString}
    {s : PhaseScope} {phase : JsValue}
    (h : (admitPhase env phaseNumbers declaredIds s phase).issues = []) :
    s.issues = [] ∧ PhaseRead phaseNumbers declaredIds phase ∧ numberOf phase ∉ s.seen ∧
      admitPhase env phaseNumbers declaredIds s phase =
        ⟨numberOf phase :: s.seen, s.selected ++ checkIdsOf phase, []⟩ := by
  unfold admitPhase at h ⊢
  cases hread : readPhase phaseNumbers declaredIds s.seen phase with
  | none =>
      simp only [hread] at h
      exact absurd h (List.append_ne_nil_of_right_ne_nil _ (List.cons_ne_nil _ _))
  | some read =>
      obtain ⟨number, checkIds⟩ := read
      obtain ⟨hphase, rfl, rfl, hseen⟩ := readPhase_some hread
      simp only [hread] at h ⊢
      exact ⟨h, hphase, hseen, by rw [h]⟩

theorem issues_of_foldl {phaseNumbers : List JsNumber} {declaredIds : List JsString}
    {phases : List JsValue} {s : PhaseScope}
    (h : (phases.foldl (admitPhase env phaseNumbers declaredIds) s).issues = []) :
    s.issues = [] := by
  induction phases generalizing s with
  | nil => exact h
  | cons phase rest ih => exact (admitPhase_cases (ih h)).1

/-- **The loop without an issue** has read all phases. -/
theorem Scoped.foldl {phaseNumbers : List JsNumber} {declaredIds : List JsString}
    {before phases : List JsValue} {s : PhaseScope}
    (hs : Scoped phaseNumbers declaredIds before s)
    (h : (phases.foldl (admitPhase env phaseNumbers declaredIds) s).issues = []) :
    Scoped phaseNumbers declaredIds (before ++ phases)
      (phases.foldl (admitPhase env phaseNumbers declaredIds) s) := by
  induction phases generalizing before s with
  | nil => rwa [List.append_nil]
  | cons phase rest ih =>
      obtain ⟨-, hread, hseen, heq⟩ := admitPhase_cases (issues_of_foldl h)
      have hturn : Scoped phaseNumbers declaredIds (before ++ [phase])
          (admitPhase env phaseNumbers declaredIds s phase) := by
        rw [heq]
        refine ⟨?_, ?_, ?_, ?_⟩
        · intro other hother
          rcases List.mem_append.mp hother with hother | hother
          · exact hs.read other hother
          · exact List.mem_singleton.mp hother ▸ hread
        · rw [List.map_append, List.map_singleton]
          refine List.nodup_append.mpr ⟨hs.distinct, List.nodup_singleton _, ?_⟩
          rintro number hmem _ hother rfl
          rw [hs.seen, List.mem_reverse] at hseen
          exact hseen (List.mem_singleton.mp hother ▸ hmem)
        · rw [List.map_append, List.reverse_append, hs.seen]
          rfl
        · rw [List.flatMap_append, hs.selected, List.flatMap_singleton]
      have hrest := ih hturn h
      rwa [List.append_assoc, List.singleton_append] at hrest

/-! ## The plan -/

/-- Sets of one size, of which the one is a part of the other. -/
theorem subset_of_setSize_eq {α : Type} [DecidableEq α] {values others : List α}
    (hsub : values ⊆ others) (hsize : setSize values = setSize others) : others ⊆ values := by
  have hsubset : values.dedup ⊆ others.dedup := fun value hvalue =>
    List.mem_dedup.mpr (hsub (List.mem_dedup.mp hvalue))
  have hperm := ((List.nodup_dedup values).subperm hsubset).perm_of_length_le
    (Nat.le_of_eq hsize.symm)
  intro value hvalue
  exact List.mem_dedup.mp (hperm.mem_iff.mpr (List.mem_dedup.mpr hvalue))

/-- What is known of an admitted plan before its checks are ordered. -/
structure Admitted (env : PlanEnvironment) (phaseNumbers : List JsNumber)
    (decoded phases checks : List JsValue) : Prop where
  normalized : List.Forall₂ (Normalized env) decoded checks
  selected : Selected checks
  runs : (checks.map runOf).Nodup
  read : ∀ phase ∈ phases, PhaseRead phaseNumbers (checks.map idOf) phase
  distinct : (phases.map numberOf).Nodup
  complete : phaseNumbers ⊆ phases.map numberOf
  used : checks.map idOf ⊆ phases.flatMap checkIdsOf

theorem admitPlan_ok {phaseNumbers : List JsNumber} {decoded phases checks : List JsValue}
    (h : admitPlan env phaseNumbers decoded phases = .ok checks) :
    Admitted env phaseNumbers decoded phases checks := by
  simp only [admitPlan] at h
  split at h
  swap
  · cases h
  rename_i hissues
  obtain rfl := Except.ok.inj h
  rw [List.isEmpty_iff, List.append_eq_nil_iff] at hissues
  obtain ⟨hphases, hsizes⟩ := hissues
  have hstart : Gathered env (decoded.filterMap checkId) [] ⟨[], [], [], []⟩ :=
    ⟨.nil, nofun, rfl, List.nodup_nil, rfl, List.nodup_nil, nofun, nofun⟩
  have hgathered := hstart.admitChecks (issues_of_foldl hphases)
  have hscoped := @Scoped.foldl _ _ _ [] _ _ ⟨nofun, List.nodup_nil, rfl, rfl⟩ hphases
  rw [List.nil_append] at hgathered hscoped
  have hdeclared := declaredIds_eq hgathered.checks hgathered.named
  rw [omittedScope, hscoped.seen, hscoped.selected, hdeclared] at hsizes
  have hread := hscoped.read
  rw [hdeclared] at hread
  have hsame : setSize (phases.map numberOf).reverse = setSize phaseNumbers ∧
      setSize (phases.flatMap checkIdsOf) =
        setSize ((admitChecks env (decoded.filterMap checkId) 0 decoded
          ⟨[], [], [], []⟩).checks.map idOf) := by
    by_contra hnot
    rw [if_pos (by tauto)] at hsizes
    cases hsizes
  refine ⟨hgathered.checks, ⟨?_, ?_, ?_⟩, hgathered.runs, hread, hscoped.distinct, ?_, ?_⟩
  · intro check hcheck
    rw [hgathered.named check hcheck]
    rfl
  · exact hgathered.ids ▸ hgathered.distinct
  · exact fun check hcheck id hid => hdeclared ▸ hgathered.depends check hcheck id hid
  · have hsub : (phases.map numberOf).reverse ⊆ phaseNumbers := by
      intro number hnumber
      obtain ⟨phase, hphase, rfl⟩ := List.mem_map.mp (List.mem_reverse.mp hnumber)
      exact (hread phase hphase).required
    exact fun number hnumber =>
      List.mem_reverse.mp (subset_of_setSize_eq hsub hsame.1 hnumber)
  · refine subset_of_setSize_eq (fun id hid => ?_) hsame.2
    obtain ⟨phase, hphase, hid⟩ := List.mem_flatMap.mp hid
    exact (hread phase hphase).declared id hid

theorem planSound_of_admitted {phaseNumbers : List JsNumber}
    {decoded phases checks ordered : List JsValue}
    (h : Admitted env phaseNumbers decoded phases checks)
    (hordered : orderChecks checks = .ok ordered) :
    PlanSound env phaseNumbers decoded ordered phases := by
  obtain ⟨hperm, hbefore⟩ := orderChecks_ok h.selected hordered
  have hids : ∀ id, id ∈ ordered.map idOf ↔ id ∈ checks.map idOf :=
    fun id => (hperm.map idOf).mem_iff
  refine ⟨⟨checks, h.normalized, hperm⟩, ?_, ?_, ?_, hbefore, ?_, ?_, ?_, ?_⟩
  · exact fun check hcheck => checkId_idOf h.selected (hperm.mem_iff.mp hcheck)
  · exact (hperm.map idOf).nodup_iff.mpr h.selected.distinct
  · exact (hperm.map runOf).nodup_iff.mpr h.runs
  · exact fun phase hphase => ⟨_, (h.read phase hphase).required, (h.read phase hphase).number⟩
  · intro number hnumber
    obtain ⟨phase, hphase, rfl⟩ := List.mem_map.mp (h.complete hnumber)
    obtain ⟨before, after, rfl⟩ := List.append_of_mem hphase
    refine ⟨before, phase, after, rfl, (h.read phase hphase).number, fun other hother heq => ?_⟩
    have hdistinct := h.distinct
    rw [List.map_append, List.map_cons, List.nodup_middle, ← List.map_append] at hdistinct
    have hsame : numberOf other = numberOf phase := by
      rw [numberOf, heq]
    exact (List.nodup_cons.mp hdistinct).1 (hsame ▸ List.mem_map_of_mem hother)
  · intro phase hphase
    have hread := h.read phase hphase
    exact ⟨hread.checkIds, fun id hid => (hids id).mpr (hread.declared id hid), hread.reason⟩
  · intro check hcheck
    have hid := (hids _).mp (List.mem_map_of_mem hcheck)
    exact List.mem_flatMap.mp (h.used hid)

/-- **The plan that is returned** is sound; where only the order fails, the prerequisites
have a cycle. -/
theorem parseFreshVerificationPlan_spec (env : PlanEnvironment) (output : JsString)
    (phaseNumbers : List JsNumber) :
    (∀ result, parseFreshVerificationPlan env output phaseNumbers = .ok result →
      ∃ plan decoded phases ordered, decodePlan env output = .ok (plan, decoded, phases) ∧
        result = plan.assign "checks" (.arr ordered) ∧
          PlanSound env phaseNumbers decoded ordered phases) ∧
    ∀ plan decoded phases checks failure, decodePlan env output = .ok (plan, decoded, phases) →
      admitPlan env phaseNumbers decoded phases = .ok checks →
        parseFreshVerificationPlan env output phaseNumbers = .error failure →
          failure = cyclicPrerequisites ∧ ∃ id, TransGen (DependsOn checks) id id := by
  constructor
  · intro result h
    rw [parseFreshVerificationPlan] at h
    cases hdecode : decodePlan env output with
    | error failure =>
        rw [hdecode] at h
        cases h
    | ok decodedPlan =>
        obtain ⟨plan, decoded, phases⟩ := decodedPlan
        rw [hdecode] at h
        cases hchecked : admitPlan env phaseNumbers decoded phases with
        | error failure =>
            simp only [hchecked, bind, Except.bind] at h
            cases h
        | ok checks =>
            cases horder : orderChecks checks with
            | error failure =>
                simp only [hchecked, horder, bind, Except.bind] at h
                cases h
            | ok ordered =>
                simp only [hchecked, horder, bind, Except.bind] at h
                exact ⟨plan, decoded, phases, ordered, rfl, (Except.ok.inj h).symm,
                  planSound_of_admitted (admitPlan_ok hchecked) horder⟩
  · intro plan decoded phases checks failure hdecode hchecked h
    rw [parseFreshVerificationPlan, hdecode] at h
    cases horder : orderChecks checks with
    | ok ordered =>
        simp only [hchecked, horder, bind, Except.bind] at h
        cases h
    | error stop =>
        simp only [hchecked, horder, bind, Except.bind] at h
        obtain rfl := Except.error.inj h
        exact orderChecks_error (admitPlan_ok hchecked).selected horder

/-! ## An example -/

def exampleCheck (id : String) (dependsOn : List String) : JsValue :=
  JsValue.record [("id", .text id), ("cwd", .text "/r"), ("command", .text id),
    ("reason", .text "r"), ("configurationFiles", .arr [.text "c"]),
    ("testPaths", .arr [.text "t"]), ("dependsOn", .arr (dependsOn.map .text))]

/-- A plan whose first check depends on the second one. -/
def examplePlan : JsValue :=
  JsValue.record [("checks", .arr [exampleCheck "b" ["a"], exampleCheck "a" []]),
    ("phases", .arr [JsValue.record [("phaseNumber", .num (.int 1)),
      ("checkIds", .arr [.text "a", .text "b"])]])]

/-- Files below one directory. -/
def exampleEnvironment : PlanEnvironment where
  platform := ⟨fun _ => none, fun _ => js "1", id⟩
  parse := fun _ => .ok examplePlan
  isAbsolute := fun path => path.head? == some 0x2F
  resolve := fun directory path => directory ++ js "/" ++ path
  relative := fun root path => if root.isPrefixOf path then path.drop (root.length + 1) else js ".."
  dirname := fun _ => js "/r"
  sep := js "/"
  realpath := .ok
  isFile := fun _ => .ok true
  isDirectory := fun _ => .ok false
  toplevel := fun _ => .ok (js "/r")
  glob := fun _ _ => .ok []
  listFiles := fun _ => none
  listEntries := fun _ => .ok []

theorem parseFreshVerificationPlan_spec_two :
    ∃ decoded ordered phases, PlanSound exampleEnvironment [.int 1] decoded ordered phases := by
  have hplan : (parseFreshVerificationPlan exampleEnvironment [] [.int 1]).toOption.isSome =
      true := by decide
  cases hresult : parseFreshVerificationPlan exampleEnvironment [] [.int 1] with
  | error failure =>
      rw [hresult] at hplan
      cases hplan
  | ok result =>
      obtain ⟨plan, decoded, phases, ordered, -, -, hsound⟩ :=
        (parseFreshVerificationPlan_spec exampleEnvironment [] [.int 1]).1 result hresult
      exact ⟨decoded, ordered, phases, hsound⟩

end Verification

end Hepha
