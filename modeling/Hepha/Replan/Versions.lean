import Hepha.Lib.History
import Hepha.Replan.Effect
import Mathlib.Data.List.Induction

/-!
# The versions of an aggregate

The transitions of an aggregate are its history: a chained one in every state
that commits can reach, since a commit appends a transition only if it expects
the version and the state in which the aggregate is.  The version counts the
transitions, so that it only grows; a second transition that expects the same
version comes too late.

* `Chained.append_records`: one accepted commit;
* `run_chained`: every run, by induction on its commits;
* `run_versions`: what this says of the records.
-/

namespace Hepha.Replan

open Database History Review

/-- The versions and states of a transition. -/
def transitionLabels : Labels ReplanTransition ReplanGovernanceState where
  expected := (·.expectedVersion)
  resulting := (·.resultingVersion)
  source := (·.fromState)
  target := (·.toState)

/-- The transitions of an aggregate in the order in which they were written. -/
def Database.history (db : Database) (key : AggregateKey) : List ReplanTransition :=
  db.transitions.filter fun t => t.toAggregateKey = key

/-- The history of every aggregate is chained. -/
def VersionsChained (db : Database) : Prop :=
  ∀ key, Chained transitionLabels .normalRemediation (db.history key)

/-! ## Reads of a chained history -/

section Reads

variable {db : Database} {key : AggregateKey}

theorem VersionsChained.transitionsOf (h : VersionsChained db) :
    db.transitionsOf key = db.history key :=
  (h key).insertionSort_eq

theorem VersionsChained.currentEventVersion (h : VersionsChained db) :
    db.currentEventVersion key = (db.history key).length := by
  rw [Database.currentEventVersion, h.transitionsOf]
  exact (h key).foldl_max

theorem VersionsChained.currentState (h : VersionsChained db) :
    db.currentState key = current transitionLabels .normalRemediation (db.history key) := by
  rw [Database.currentState, h.transitionsOf]
  rfl

theorem history_append {r : OperationRecords} :
    (db.append r).history key =
      db.history key ++ r.transition.toList.filter fun t => t.toAggregateKey = key :=
  List.filter_append ..

/-- The versions of an aggregate only grow. -/
theorem length_history_append {r : OperationRecords} :
    (db.history key).length ≤ ((db.append r).history key).length := by
  rw [history_append, List.length_append]
  exact Nat.le_add_right _ _

end Reads

/-! ## One commit -/

/-- **An accepted commit keeps every history chained.** -/
theorem VersionsChained.append {db : Database} {key : AggregateKey} {r : OperationRecords}
    (h : VersionsChained db) (hchecked : Appended db key r) : VersionsChained (db.append r) := by
  intro other
  rw [history_append]
  cases htransition : r.transition with
  | none => simpa using h other
  | some t =>
      obtain ⟨hkey, hvalid, hversion, hstate⟩ := hchecked.transition t htransition
      by_cases hother : t.toAggregateKey = other
      · obtain rfl := hkey.symm.trans hother
        rw [h.currentEventVersion] at hversion
        rw [h.currentState] at hstate
        simp only [Option.toList_some, hkey, decide_true, List.filter_cons_of_pos,
          List.filter_nil]
        exact (h key).append hversion.symm hvalid.versions hstate.symm
      · simpa [hother] using h other

/-- A decision is made at the version of the transition that is written with it. -/
theorem Appended.decision_version {db : Database} {key : AggregateKey} {r : OperationRecords}
    (h : Appended db key r) {d : ReplanDecision} (hd : d ∈ r.decision) :
    ∃ t ∈ r.transition, t.toAggregateKey = d.toAggregateKey ∧
      t.resultingVersion = d.resultingVersion := by
  obtain ⟨hkey, hvalid, hversion, hsome⟩ := h.decision d hd
  obtain ⟨t, ht⟩ := Option.isSome_iff_exists.mp hsome
  obtain ⟨htkey, htvalid, htversion, -⟩ := h.transition t ht
  refine ⟨t, ht, htkey.trans hkey.symm, ?_⟩
  rw [htvalid.versions, hvalid.versions, ← htversion, ← hversion]

theorem Appended.scopeExpansionDecision_version {db : Database} {key : AggregateKey}
    {r : OperationRecords} (h : Appended db key r) {d : ScopeExpansionDecision}
    (hd : d ∈ r.scopeExpansionDecision) :
    ∃ t ∈ r.transition, t.toAggregateKey = d.toAggregateKey ∧
      t.resultingVersion = d.resultingVersion := by
  obtain ⟨hkey, hvalid, hversion, hsome⟩ := h.scopeExpansionDecision d hd
  obtain ⟨t, ht⟩ := Option.isSome_iff_exists.mp hsome
  obtain ⟨htkey, htvalid, htversion, -⟩ := h.transition t ht
  refine ⟨t, ht, htkey.trans hkey.symm, ?_⟩
  rw [htvalid.versions, hvalid.versions, ← htversion, ← hversion]

/-! ## Runs -/

/-- After the others the commit is accepted, and writes the records of its operation. -/
structure Accepted (calls : List Commit) (call : Commit) (operation : CoherentOperation)
    (r : OperationRecords) : Prop where
  coherent : coherentOperation call.rawInput = some operation
  decode : operation.decode = some r
  commit : ∃ aggregate, commit call (run calls) = (.ok aggregate, (run calls).append r)

theorem run_append_singleton (calls : List Commit) (call : Commit) :
    run (calls ++ [call]) = (commit call (run calls)).2 := by
  simp [run]

section Accepted

variable {calls : List Commit} {call : Commit} {operation : CoherentOperation}
  {r : OperationRecords}

theorem Accepted.run_eq (h : Accepted calls call operation r) :
    run (calls ++ [call]) = (run calls).append r := by
  obtain ⟨aggregate, hcommit⟩ := h.commit
  rw [run_append_singleton, hcommit]

/-- What has been checked of the records of an accepted commit. -/
theorem Accepted.checked (h : Accepted calls call operation r) :
    Appended (run calls) operation.key r ∧ Linked (run calls) r := by
  obtain ⟨aggregate, hcommit⟩ := h.commit
  obtain ⟨other, q, hother, hq, hchecked, hlinked, -, -⟩ := commit_ok hcommit
  obtain rfl := Option.some.inj (hother.symm.trans h.coherent)
  obtain rfl := Option.some.inj (hq.symm.trans h.decode)
  exact ⟨hchecked, hlinked⟩

theorem Accepted.appended (h : Accepted calls call operation r) :
    Appended (run calls) operation.key r :=
  h.checked.1

theorem Accepted.linked (h : Accepted calls call operation r) : Linked (run calls) r :=
  h.checked.2

end Accepted

/-- A commit of a run is accepted with its records or leaves the tables alone. -/
theorem run_step (calls : List Commit) (call : Commit) :
    (∃ operation r, Accepted calls call operation r) ∨ run (calls ++ [call]) = run calls := by
  rcases hcommit : commit call (run calls) with ⟨result, after⟩
  cases result with
  | ok aggregate =>
      left
      obtain ⟨operation, r, hoperation, hdecode, -, -, rfl, -⟩ := commit_ok hcommit
      exact ⟨operation, r, hoperation, hdecode, aggregate, hcommit⟩
  | error e =>
      right
      have hsame := commit_error (congrArg Prod.fst hcommit)
      rwa [run_append_singleton]

/-- A property of the empty tables that every accepted commit keeps holds after every run. -/
theorem run_induction {P : Database → Prop} (hempty : P .empty)
    (happend : ∀ db key r, Appended db key r → Linked db r → P db → P (db.append r))
    (calls : List Commit) : P (run calls) := by
  induction calls using List.reverseRecOn with
  | nil => exact hempty
  | append_singleton calls call ih =>
      rcases run_step calls call with ⟨operation, r, haccepted⟩ | hafter
      · rw [haccepted.run_eq]
        exact happend _ _ r haccepted.appended haccepted.linked ih
      · rwa [hafter]

/-- **In every reachable state every history is chained.** -/
theorem run_chained (calls : List Commit) : VersionsChained (run calls) :=
  run_induction (fun _ => Chained.nil) (fun _ _ _ hchecked _ h => h.append hchecked) calls

/-- The versions of an aggregate never shrink along a run. -/
theorem run_length_mono (key : AggregateKey) (calls later : List Commit) :
    ((run calls).history key).length ≤ ((run (calls ++ later)).history key).length := by
  induction later using List.reverseRecOn with
  | nil => rw [List.append_nil]
  | append_singleton later call ih =>
      rw [← List.append_assoc]
      rcases run_step (calls ++ later) call with ⟨_, r, haccepted⟩ | hafter
      · rw [haccepted.run_eq]
        exact ih.trans length_history_append
      · rwa [hafter]

/-- The rows of a table are those that the accepted commits of the run have written. -/
theorem mem_run_iff {ρ : Type} (table : Database → List ρ) (record : OperationRecords → Option ρ)
    (hempty : table .empty = [])
    (happend : ∀ db r, table (Database.append db r) = table db ++ (record r).toList)
    (calls : List Commit) {row : ρ} :
    row ∈ table (run calls) ↔ ∃ earlier call operation r, earlier ++ [call] <+: calls ∧
      Accepted earlier call operation r ∧ record r = some row := by
  induction calls using List.reverseRecOn with
  | nil =>
      rw [show run [] = .empty from rfl, hempty]
      simp
  | append_singleton calls call ih =>
      have hlast : ∀ {earlier : List Commit} {c : Commit}, earlier ++ [c] <+: calls ++ [call] ↔
          (earlier = calls ∧ c = call) ∨ earlier ++ [c] <+: calls := by
        intro earlier c
        rw [List.prefix_concat_iff, ← List.concat_eq_append, ← List.concat_eq_append,
          List.concat_inj]
      simp only [hlast]
      constructor
      · intro hrow
        rcases run_step calls call with ⟨operation, r, haccepted⟩ | hafter
        · rw [haccepted.run_eq, happend, List.mem_append, Option.mem_toList] at hrow
          rcases hrow with hrow | hrow
          · obtain ⟨earlier, c, o, q, hearlier, h⟩ := ih.mp hrow
            exact ⟨earlier, c, o, q, .inr hearlier, h⟩
          · exact ⟨calls, call, operation, r, .inl ⟨rfl, rfl⟩, haccepted, hrow⟩
        · rw [hafter] at hrow
          obtain ⟨earlier, c, o, q, hearlier, h⟩ := ih.mp hrow
          exact ⟨earlier, c, o, q, .inr hearlier, h⟩
      · rintro ⟨earlier, c, o, q, ⟨rfl, rfl⟩ | hearlier, haccepted, hrow⟩
        · rw [haccepted.run_eq, happend]
          exact List.mem_append_right _ (Option.mem_toList.mpr hrow)
        · have hbefore := ih.mpr ⟨earlier, c, o, q, hearlier, haccepted, hrow⟩
          rcases run_step calls call with ⟨_, r, hnext⟩ | hafter
          · rw [hnext.run_eq, happend]
            exact List.mem_append_left _ hbefore
          · rwa [hafter]

/-- An accepted transition expects the number of transitions before it. -/
theorem Accepted.expectedVersion {calls : List Commit} {call : Commit}
    {operation : CoherentOperation} {r : OperationRecords}
    (h : Accepted calls call operation r) {t : ReplanTransition} (ht : t ∈ r.transition) :
    t.expectedVersion = ((run calls).history t.toAggregateKey).length := by
  obtain ⟨hkey, -, hversion, -⟩ := h.appended.transition t ht
  rw [← hversion, (run_chained calls).currentEventVersion, hkey]

/-- Of two accepted transitions of an aggregate the later one expects a greater version. -/
theorem Accepted.expectedVersion_lt {calls later : List Commit} {first second : Commit}
    {operation other : CoherentOperation} {r q : OperationRecords}
    (hfirst : Accepted calls first operation r)
    (hsecond : Accepted (calls ++ first :: later) second other q) {t u : ReplanTransition}
    (ht : t ∈ r.transition) (hu : u ∈ q.transition) (hkey : u.toAggregateKey = t.toAggregateKey) :
    t.expectedVersion < u.expectedVersion := by
  have hgrows := run_length_mono t.toAggregateKey (calls ++ [first]) later
  rw [hfirst.run_eq, history_append, ht] at hgrows
  rw [hfirst.expectedVersion ht, hsecond.expectedVersion hu, hkey]
  exact Nat.lt_of_succ_le (by simpa using hgrows)

/-- **The versions of every reachable state.**  The transitions of an aggregate
are numbered from one, and each starts from the state the one before it leads
to.  No two accepted commits expect the same version of it.  A decision is
written together with the transition that has its version.  A commit that is
not accepted changes no table. -/
theorem run_versions (calls : List Commit) :
    (∀ key, ((run calls).transitionsOf key).map (·.resultingVersion) =
        List.range' 1 ((run calls).transitionsOf key).length ∧
      ((run calls).transitionsOf key).map (·.fromState) ++ [(run calls).currentState key] =
        .normalRemediation :: ((run calls).transitionsOf key).map (·.toState)) ∧
    (∀ first later second operation other r q, Accepted calls first operation r →
      Accepted (calls ++ first :: later) second other q →
        ∀ t ∈ r.transition, ∀ u ∈ q.transition, t.toAggregateKey = u.toAggregateKey →
          t.expectedVersion ≠ u.expectedVersion) ∧
    (∀ d ∈ (run calls).scopeExpansionDecisions, ∃ earlier call operation r,
      earlier ++ [call] <+: calls ∧ Accepted earlier call operation r ∧
        r.scopeExpansionDecision = some d ∧ ∃ t, r.transition = some t ∧
          t ∈ (run calls).transitionsOf d.toAggregateKey ∧
            t.resultingVersion = d.resultingVersion) ∧
    (∀ d ∈ (run calls).decisions, ∃ earlier call operation r,
      earlier ++ [call] <+: calls ∧ Accepted earlier call operation r ∧
        r.decision = some d ∧ ∃ t, r.transition = some t ∧
          t ∈ (run calls).transitionsOf d.toAggregateKey ∧
            t.resultingVersion = d.resultingVersion) ∧
    (∀ call e, (commit call (run calls)).1 = .error e →
      (commit call (run calls)).2 = run calls) := by
  have hchained := run_chained calls
  have htransition : ∀ {earlier call operation r t key}, earlier ++ [call] <+: calls →
      Accepted earlier call operation r → r.transition = some t → t.toAggregateKey = key →
        t ∈ (run calls).transitionsOf key := by
    intro earlier call operation r t key hearlier haccepted ht hkey
    rw [hchained.transitionsOf]
    exact List.mem_filter.mpr ⟨(mem_run_iff (·.transitions) (·.transition) rfl (fun _ _ => rfl)
      calls).mpr ⟨earlier, call, operation, r, hearlier, haccepted, ht⟩, decide_eq_true hkey⟩
  refine ⟨fun key => ⟨?_, ?_⟩, ?_, ?_, ?_, fun call e => commit_error⟩
  · rw [hchained.transitionsOf]
    exact (hchained key).resulting
  · rw [hchained.transitionsOf, hchained.currentState]
    exact (hchained key).states.symm
  · intro first later second operation other r q hfirst hsecond t ht u hu hkey
    exact (hfirst.expectedVersion_lt hsecond ht hu hkey.symm).ne
  · intro d hd
    obtain ⟨earlier, call, operation, r, hearlier, haccepted, hrecord⟩ :=
      (mem_run_iff (·.scopeExpansionDecisions) (·.scopeExpansionDecision) rfl (fun _ _ => rfl)
        calls).mp hd
    obtain ⟨t, ht, hkey, hversion⟩ := haccepted.appended.scopeExpansionDecision_version hrecord
    exact ⟨earlier, call, operation, r, hearlier, haccepted, hrecord, t, ht,
      htransition hearlier haccepted ht hkey, hversion⟩
  · intro d hd
    obtain ⟨earlier, call, operation, r, hearlier, haccepted, hrecord⟩ :=
      (mem_run_iff (·.decisions) (·.decision) rfl (fun _ _ => rfl) calls).mp hd
    obtain ⟨t, ht, hkey, hversion⟩ := haccepted.appended.decision_version hrecord
    exact ⟨earlier, call, operation, r, hearlier, haccepted, hrecord, t, ht,
      htransition hearlier haccepted ht hkey, hversion⟩

end Hepha.Replan
