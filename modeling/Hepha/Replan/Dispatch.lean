import Hepha.Replan.Versions

/-!
# Approval and dispatch

A plan is dispatched with the approval of somebody else than its author, once,
and is assessed only after that.  No row of the tables says so: a commit looks
up the rows that its records refer to.  The tables are only appended to, so
that what was found stays there.

* `Governed`: what the tables of every reachable state have in common;
* `Governed.append`: one accepted commit;
* `run_governed`: every run, with the rows that were there at each commit.
-/

namespace Hepha.Replan

open Database

/-- The request that a decision is on, made by somebody else. -/
def Requested (db : Database) (d : ReplanDecision) : Prop :=
  ∃ q ∈ db.requests, q.requestId = d.requestId ∧ q.toAggregateKey = d.toAggregateKey ∧
    q.planHash = d.planHash ∧ q.planVersion = d.planVersion ∧ q.proposalAuthorActor ≠ d.actorId

/-- The decision that a dispatch attempt has as its approval. -/
def Approved (db : Database) (d : ReplanDispatchAttempt) : Prop :=
  ∃ approval ∈ db.decisions, approval.decisionId = d.approvalDecisionId ∧
    approval.requestId = d.requestId ∧ approval.toAggregateKey = d.toAggregateKey

/-- What the tables of every reachable state have in common. -/
structure Governed (db : Database) : Prop where
  requestIds : (db.requests.map (·.requestId)).Nodup
  decisionIds : (db.decisions.map (·.decisionId)).Nodup
  requested : ∀ d ∈ db.decisions, Requested db d
  decidedOnce : db.decisions.Pairwise fun d e =>
    ¬(d.requestId = e.requestId ∧ d.planVersion = e.planVersion)
  approved : ∀ d ∈ db.dispatchAttempts, Approved db d
  dispatchedOnce : db.dispatchAttempts.Pairwise fun d e =>
    ¬(d.requestId = e.requestId ∧ d.planVersion = e.planVersion ∧ d.outcome = e.outcome)

theorem governed_empty : Governed .empty := by
  constructor <;> simp [Database.empty]

section Append

variable {db : Database} {key : AggregateKey} {r : OperationRecords}

theorem Requested.append {d : ReplanDecision} (h : Requested db d) : Requested (db.append r) d := by
  obtain ⟨q, hmem, hq⟩ := h
  exact ⟨q, List.mem_append_left _ hmem, hq⟩

theorem Approved.append {d : ReplanDispatchAttempt} (h : Approved db d) :
    Approved (db.append r) d := by
  obtain ⟨approval, hmem, happroval⟩ := h
  exact ⟨approval, List.mem_append_left _ hmem, happroval⟩

theorem DispatchLinked.approved {d : ReplanDispatchAttempt} (h : DispatchLinked db d) :
    Approved db d := by
  obtain ⟨approval, hmem, hid, hrequest, hkey, -⟩ := h.approval
  exact ⟨approval, hmem, hid, hrequest, hkey⟩

/-- The attempts to dispatch one request belong to one aggregate: that of the request. -/
theorem Governed.attempt_key (h : Governed db) {d e : ReplanDispatchAttempt}
    (hd : Approved db d) (he : Approved db e) (hrequest : d.requestId = e.requestId) :
    d.toAggregateKey = e.toAggregateKey := by
  have hkey : ∀ {d : ReplanDispatchAttempt}, Approved db d →
      ∃ q ∈ db.requests, q.requestId = d.requestId ∧ q.toAggregateKey = d.toAggregateKey := by
    intro d hd
    obtain ⟨approval, hmem, -, hid, hsame⟩ := hd
    obtain ⟨q, hq, hqid, hqkey, -⟩ := h.requested approval hmem
    exact ⟨q, hq, hqid.trans hid, hqkey.trans hsame⟩
  obtain ⟨q, hq, hqid, hqkey⟩ := hkey hd
  obtain ⟨p, hp, hpid, hpkey⟩ := hkey he
  have hsame : q = p :=
    List.inj_on_of_nodup_map h.requestIds hq hp ((hqid.trans hrequest).trans hpid.symm)
  rw [← hqkey, ← hpkey, hsame]

/-- One more row at the end of a table. -/
theorem pairwise_append_toList {ρ : Type} {R : ρ → ρ → Prop} {rows : List ρ} {row : Option ρ}
    (hrows : rows.Pairwise R) (hrow : ∀ x ∈ row, ∀ y ∈ rows, R y x) :
    (rows ++ row.toList).Pairwise R := by
  refine List.pairwise_append.mpr ⟨hrows, ?_, fun y hy x hx => ?_⟩
  · cases row <;> simp
  · exact hrow x (Option.mem_toList.mp hx) y hy

/-- **An accepted commit keeps the tables governed.** -/
theorem Governed.append (h : Governed db) (hlinked : Linked db r) : Governed (db.append r) where
  requestIds := by
    rw [List.Nodup, List.pairwise_map]
    exact pairwise_append_toList (List.pairwise_map.mp h.requestIds) hlinked.request
  decisionIds := by
    rw [List.Nodup, List.pairwise_map]
    exact pairwise_append_toList (List.pairwise_map.mp h.decisionIds) fun d hd =>
      (hlinked.decision d hd).fresh
  requested := by
    intro d hd
    rcases List.mem_append.mp hd with hd | hd
    · exact (h.requested d hd).append
    · exact Requested.append (hlinked.decision d (Option.mem_toList.mp hd)).request
  decidedOnce := pairwise_append_toList h.decidedOnce fun d hd => (hlinked.decision d hd).once
  approved := by
    intro d hd
    rcases List.mem_append.mp hd with hd | hd
    · exact (h.approved d hd).append
    · exact (hlinked.dispatch d (Option.mem_toList.mp hd)).approved.append
  dispatchedOnce := by
    refine pairwise_append_toList h.dispatchedOnce fun d hd other hother hsame => ?_
    obtain ⟨hrequest, hplan, houtcome⟩ := hsame
    -- The database compares the aggregates as well: the request decides which it is.
    have hkey := h.attempt_key (h.approved other hother) (hlinked.dispatch d hd).approved hrequest
    exact (hlinked.dispatch d hd).once other hother ⟨hkey, hrequest, hplan, houtcome⟩

end Append

theorem run_governed (calls : List Commit) : Governed (run calls) :=
  run_induction governed_empty (fun _ _ _ _ hlinked h => h.append hlinked) calls

/-! ## Runs -/

/-- The row is in the run, written by a commit that was accepted after the earlier ones. -/
def WrittenAfter {ρ : Type} (record : OperationRecords → Option ρ) (row : ρ)
    (earlier calls : List Commit) : Prop :=
  ∃ call operation r, earlier ++ [call] <+: calls ∧ Accepted earlier call operation r ∧
    record r = some row

/-- **Approval, separation of duties and single use over whole runs.**  The rows
that a dispatch attempt and an assessment refer to were there before the commit
that wrote it. -/
theorem run_dispatch (calls : List Commit) :
    (∀ d ∈ (run calls).dispatchAttempts, d.outcome = .started →
      ∃ earlier, WrittenAfter (·.dispatch) d earlier calls ∧
        ∃ approval ∈ (run earlier).decisions, approval.decisionId = d.approvalDecisionId ∧
          approval.outcome = .approve ∧ approval.scope = d.scope ∧
          approval.aggregateId = d.aggregateId ∧ approval.requestId = d.requestId ∧
          approval.planHash = d.planHash ∧ approval.planVersion = d.planVersion ∧
          ∃ request ∈ (run earlier).requests, request.requestId = d.requestId ∧
            approval.actorId ≠ request.proposalAuthorActor) ∧
    ((run calls).requests.map (·.requestId)).Nodup ∧
    ((run calls).decisions.map (·.decisionId)).Nodup ∧
    ((run calls).decisions.Pairwise fun d e =>
      ¬(d.requestId = e.requestId ∧ d.planVersion = e.planVersion)) ∧
    ((run calls).dispatchAttempts.Pairwise fun d e =>
      ¬(d.requestId = e.requestId ∧ d.planVersion = e.planVersion ∧ d.outcome = e.outcome)) ∧
    (∀ d ∈ (run calls).dispatchAttempts, d.outcome = .startFailed →
      ∃ earlier, WrittenAfter (·.dispatch) d earlier calls ∧
        ∃ start ∈ (run earlier).dispatchAttempts, start.outcome = .started ∧
          start.requestId = d.requestId ∧ start.planVersion = d.planVersion ∧
          start.dispatchId = d.dispatchId ∧ start.approvalDecisionId = d.approvalDecisionId ∧
          start.workflowRunId = d.workflowRunId) ∧
    (∀ a ∈ (run calls).reviewAssessments,
      ∃ earlier, WrittenAfter (·.assessment) a earlier calls ∧
        ∃ start ∈ (run earlier).dispatchAttempts, start.outcome = .started ∧
          start.dispatchId = a.dispatchId ∧ start.aggregateId = a.aggregateId ∧
          start.planHash = a.planHash ∧ start.planVersion = a.planVersion) := by
  have hgoverned := run_governed calls
  refine ⟨?_, hgoverned.requestIds, hgoverned.decisionIds, hgoverned.decidedOnce,
    hgoverned.dispatchedOnce, ?_, ?_⟩
  · intro d hd hstarted
    obtain ⟨earlier, call, operation, r, hearlier, haccepted, hrecord⟩ :=
      (mem_run_iff (·.dispatchAttempts) (·.dispatch) rfl (fun _ _ => rfl) calls).mp hd
    obtain ⟨approval, hmem, hid, hrequest, hkey, hhash, hplan, houtcome, -⟩ :=
      (haccepted.linked.dispatch d hrecord).approval
    obtain ⟨q, hq, hqid, -, -, -, hactor⟩ := (run_governed earlier).requested approval hmem
    exact ⟨earlier, ⟨call, operation, r, hearlier, haccepted, hrecord⟩, approval, hmem, hid,
      houtcome, congrArg AggregateKey.scope hkey, congrArg AggregateKey.aggregateId hkey, hrequest,
      hhash, hplan, q, hq, hqid.trans hrequest, hactor.symm⟩
  · intro d hd hfailed
    obtain ⟨earlier, call, operation, r, hearlier, haccepted, hrecord⟩ :=
      (mem_run_iff (·.dispatchAttempts) (·.dispatch) rfl (fun _ _ => rfl) calls).mp hd
    obtain ⟨start, hmem, houtcome, hdispatch, -, hrequest, -, hplan, hid, -, hrun⟩ :=
      (haccepted.linked.dispatch d hrecord).started hfailed
    exact ⟨earlier, ⟨call, operation, r, hearlier, haccepted, hrecord⟩, start, hmem, houtcome,
      hrequest, hplan, hdispatch, hid, hrun⟩
  · intro a ha
    obtain ⟨earlier, call, operation, r, hearlier, haccepted, hrecord⟩ :=
      (mem_run_iff (·.reviewAssessments) (·.assessment) rfl (fun _ _ => rfl) calls).mp ha
    obtain ⟨start, hmem, hid, haggregate, hhash, hplan, houtcome⟩ :=
      haccepted.linked.assessment a hrecord
    exact ⟨earlier, ⟨call, operation, r, hearlier, haccepted, hrecord⟩, start, hmem, houtcome, hid,
      haggregate, hhash, hplan⟩

end Hepha.Replan
