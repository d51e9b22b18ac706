import Hepha.Debt.Chain
import Hepha.Lib.Acyclic
import Mathlib.Logic.Function.Basic

/-!
# Clients that triage

Any number of clients read a record and a target, ask the policy about what they
have read, and commit what it accepts.  Reads and commits of different clients
interleave in any order.

The store checks the version of the record again, so a triage always starts from
the record as it is, and the events of every record follow the state machine of
the policy.  It does not look at the target again.  The target may have been
closed since it was read, and its pointers may lead back to the record by now.
`Permitted` excludes that, and with it the pointers make no cycle in any run
(`run_orderly`); without it the next commit closes one
(`Store.Orderly.leads_acyclic_iff`).
-/

namespace Hepha.Debt

open Relation (ReflTransGen)

/-! ## Runs -/

/-- What a client has read. -/
structure Client where
  source : Option Aggregate
  target : Option Aggregate

structure World (ι : Type*) where
  store : Store
  clients : ι → Client

inductive Step (ι : Type*)
  | readSource (client : ι) (projectId recordId : JsString)
  | readTarget (client : ι) (projectId recordId : JsString)
  | triage (client : ι) (actorId : JsString) (action : TriageAction)
      (verifyReadBack : Aggregate → Bool)
  /-- Another operation of the store. -/
  | commit (op : Operation) (verifyReadBack : Aggregate → Bool)

section Runs

variable (sha256 : JsString → HexDigest)

/-- The record `a` points at the record `b`. -/
def Store.Leads (s : Store) (a b : JsString) : Prop :=
  ∃ projectId record, s.getAggregate sha256 projectId a = some record ∧ record.PointsAt b

variable {ι : Type*}

def World.initial (ι : Type*) : World ι :=
  ⟨Store.empty, fun _ => ⟨none, none⟩⟩

/-- A step is one of the clients': only they triage, and with the target that
they have read. -/
def Step.Legal (w : World ι) : Step ι → Prop
  | .triage client _ action _ =>
      ∀ target, action.detail.target = some target → (w.clients client).target = some target
  | .commit op _ => ∀ c, op ≠ .applyTriage c
  | _ => True

variable [DecidableEq ι]

def World.perform (w : World ι) : Step ι → World ι
  | .readSource client projectId recordId =>
      { w with
        clients := Function.update w.clients client
          { w.clients client with source := w.store.getAggregate sha256 projectId recordId } }
  | .readTarget client projectId recordId =>
      { w with
        clients := Function.update w.clients client
          { w.clients client with target := w.store.getAggregate sha256 projectId recordId } }
  | .triage client actorId action verifyReadBack =>
      match (w.clients client).source with
      | none => w
      | some source =>
          { w with
            store := (recordArchitectureDebtTriage sha256 w.store source actorId action
              verifyReadBack).2 }
  | .commit op verifyReadBack =>
      { w with store := (w.store.commitOperation sha256 verifyReadBack op).2 }

/-- The states that runs reach whose steps all meet a condition. -/
inductive Run (condition : World ι → Step ι → Prop) : World ι → Prop
  | initial : Run condition (World.initial ι)
  | step {w : World ι} (action : Step ι) : Run condition w → action.Legal w →
      condition w action → Run condition (w.perform sha256 action)

/-- **When a commit closes no cycle.**  A merge or supersession that the policy
accepts, of a record that is still at the version that was read, has a target
whose pointers do not lead back to the record in the store as it is. -/
def Permitted (w : World ι) : Step ι → Prop
  | .triage client actorId action verifyReadBack =>
      ∀ source target accepted current, (w.clients client).source = some source →
        action.detail.target = some target →
        evaluateArchitectureDebtTriage source actorId action = .ok accepted →
        verifyReadBack accepted.nextAggregate = true →
        w.store.getAggregate sha256 source.projectId source.recordId = some current →
        current.eventVersion = source.eventVersion →
        ¬ ReflTransGen (w.store.Leads sha256) target.recordId source.recordId
  | _ => True

end Runs

/-! ## What should hold of the register -/

/-- Events without a gap in their versions, each of which the policy allows in
the state before it. -/
inductive PolicyChain : List EventRow → DebtState → Prop
  | created {row : EventRow} :
      row.eventKind = .createPending → row.eventVersion = 0 → row.state = .pendingTriage →
      PolicyChain [row] .pendingTriage
  | linked {rows : List EventRow} {state : DebtState} {row : EventRow} :
      PolicyChain rows state → row.eventKind = .linkObservation →
      row.eventVersion = rows.length → row.state = state → PolicyChain (rows ++ [row]) state
  | triaged {rows : List EventRow} {state : DebtState} {row : EventRow} {event : TriageEvent}
      {next : Aggregate} :
      PolicyChain rows state → row.eventKind = .triage → row.eventVersion = rows.length →
      row.payload = some (event, next) →
      transitionAllowed state event.detail.operation = true →
      row.state = nextState event.detail.operation state → PolicyChain (rows ++ [row]) row.state

namespace Store

variable (sha256 : JsString → HexDigest)

/-- The register is in order. -/
structure Orderly (s : Store) : Prop where
  readable : ∀ root ∈ s.debts, ∃ a, s.getAggregate sha256 root.projectId root.recordId = some a
  /-- No record is reached from itself. -/
  acyclic : Acyclic (s.Leads sha256)
  /-- A pointer leads to a record of the same project. -/
  project : ∀ projectId id a, s.getAggregate sha256 projectId id = some a →
    ∀ target, a.PointsAt target →
      ∃ b, s.getAggregate sha256 a.projectId target = some b ∧ b.projectId = a.projectId
  chain : ∀ projectId id a, s.getAggregate sha256 projectId id = some a →
    PolicyChain (s.eventRows id) a.state ∧ a.eventVersion + 1 = (s.eventRows id).length

/-- An open record points at no other. -/
def Unpointed (s : Store) : Prop :=
  ∀ projectId id a, s.getAggregate sha256 projectId id = some a → a.state.isOpen = true →
    ∀ target, ¬ a.PointsAt target

/-- The invariant of the register. -/
structure Inv (s : Store) : Prop where
  rooted : Rooted sha256 s
  orderly : Orderly sha256 s
  unpointed : Unpointed sha256 s

end Store

/-! ## A commit -/

namespace Store

variable {sha256 : JsString → HexDigest} {s t : Store} {op : Operation} {result : CommitResult}

/-- A record of the new store is the appended one, or is read as before. -/
theorem Appended.reading {row : EventRow} {after : Aggregate} (h : Appended sha256 s t row after)
    (ht : Legible sha256 t) {projectId id : JsString} {a : Aggregate}
    (ha : t.getAggregate sha256 projectId id = some a) :
    (id ≠ row.recordId ∧ s.getAggregate sha256 projectId id = some a) ∨
      (id = row.recordId ∧ a = after) := by
  by_cases hid : id = row.recordId
  · subst hid
    obtain ⟨projectId', hread⟩ := h.read
    exact .inr ⟨rfl, ht.unique ha hread⟩
  · rw [(h.frame id hid).getAggregate] at ha
    exact .inl ⟨hid, ha⟩

/-- A record whose pointer was there before still points into its project. -/
theorem Orderly.project_kept (h : Orderly sha256 s) (hr : Rooted sha256 s)
    (hchange : Change sha256 s op t) {projectId id target : JsString} {a : Aggregate}
    (ha : s.getAggregate sha256 projectId id = some a) (hpoints : a.PointsAt target) :
    ∃ b, t.getAggregate sha256 a.projectId target = some b ∧ b.projectId = a.projectId := by
  obtain ⟨b, hb, hproject⟩ := h.project projectId id a ha target hpoints
  obtain ⟨b', hb', hproject', -⟩ := hchange.advance hr hb
  rw [hproject] at hb' hproject'
  exact ⟨b', hb', hproject'⟩

/-- Where no row of a record was touched, nothing changes. -/
theorem Inv.same (h : Inv sha256 s) (hrooted : Rooted sha256 t) (hsame : ∀ id, SameRows s t id) :
    Inv sha256 t := by
  have hread : ∀ projectId id, t.getAggregate sha256 projectId id =
      s.getAggregate sha256 projectId id := fun projectId id => (hsame id).getAggregate projectId
  refine ⟨hrooted, ⟨hrooted.legible.read, ?_, ?_, ?_⟩, ?_⟩
  · refine h.orderly.acyclic.mono ?_
    rintro x y ⟨projectId, record, hx, hpoints⟩
    exact ⟨projectId, record, (hread projectId x).symm.trans hx, hpoints⟩
  · intro projectId id a ha target hpoints
    rw [hread] at ha
    obtain ⟨b, hb, hproject⟩ := h.orderly.project projectId id a ha target hpoints
    exact ⟨b, (hread _ _).trans hb, hproject⟩
  · intro projectId id a ha
    rw [hread] at ha
    rw [(hsame id).eventRows]
    exact h.orderly.chain projectId id a ha
  · intro projectId id a ha
    rw [hread] at ha
    exact h.unpointed projectId id a ha

/-- **Creations, links and decisions keep the register in order.** -/
theorem Inv.commit (h : Inv sha256 s) (heffect : Effect sha256 s op result t)
    (hop : ∀ c, op ≠ .applyTriage c) : Inv sha256 t := by
  have hrooted : Rooted sha256 t := heffect.rooted h.rooted
  have hchange := commit_change h.rooted heffect
  have hcopy := hchange
  cases hchange with
  | same hsame => exact h.same hrooted hsame
  | @created _ _ row after happended hnone hempty hrow hstate hpointers =>
      refine ⟨hrooted, ⟨hrooted.legible.read, ?_, ?_, ?_⟩, ?_⟩
      · refine h.orderly.acyclic.mono ?_
        rintro x y ⟨projectId, record, hx, hpoints⟩
        rcases happended.reading hrooted.legible hx with ⟨-, hx⟩ | ⟨-, rfl⟩
        · exact ⟨projectId, record, hx, hpoints⟩
        · exact absurd hpoints (hpointers y)
      · intro projectId id a ha target hpoints
        rcases happended.reading hrooted.legible ha with ⟨-, ha⟩ | ⟨-, rfl⟩
        · exact h.orderly.project_kept h.rooted hcopy ha hpoints
        · exact absurd hpoints (hpointers target)
      · intro projectId id a ha
        rcases happended.reading hrooted.legible ha with ⟨hid, ha'⟩ | ⟨rfl, rfl⟩
        · rw [(happended.frame id hid).eventRows]
          exact h.orderly.chain projectId id a ha'
        · refine ⟨?_, (getAggregate_spec ha).2.2.2.1⟩
          rw [happended.events, hempty, hstate]
          exact .created hrow.1 hrow.2.1 hrow.2.2
      · intro projectId id a ha hopen target hpoints
        rcases happended.reading hrooted.legible ha with ⟨-, ha⟩ | ⟨-, rfl⟩
        · exact h.unpointed projectId id a ha hopen target hpoints
        · exact hpointers target hpoints
  | @linked _ _ row existing after happended hexisting hrow hafter =>
      obtain ⟨projectId', hexisting⟩ := hexisting
      obtain ⟨hversion, hproject, hstate, hpointers⟩ := hafter
      refine ⟨hrooted, ⟨hrooted.legible.read, ?_, ?_, ?_⟩, ?_⟩
      · refine h.orderly.acyclic.mono ?_
        rintro x y ⟨projectId, record, hx, hpoints⟩
        rcases happended.reading hrooted.legible hx with ⟨-, hx⟩ | ⟨rfl, rfl⟩
        · exact ⟨projectId, record, hx, hpoints⟩
        · exact ⟨projectId', existing, hexisting, (hpointers y).mp hpoints⟩
      · intro projectId id a ha target hpoints
        rcases happended.reading hrooted.legible ha with ⟨-, ha⟩ | ⟨rfl, rfl⟩
        · exact h.orderly.project_kept h.rooted hcopy ha hpoints
        · rw [hproject]
          exact h.orderly.project_kept h.rooted hcopy hexisting ((hpointers target).mp hpoints)
      · intro projectId id a ha
        rcases happended.reading hrooted.legible ha with ⟨hid, ha'⟩ | ⟨rfl, rfl⟩
        · rw [(happended.frame id hid).eventRows]
          exact h.orderly.chain projectId id a ha'
        · obtain ⟨hchain, hlength⟩ := h.orderly.chain projectId' _ existing hexisting
          refine ⟨?_, (getAggregate_spec ha).2.2.2.1⟩
          rw [happended.events, hstate]
          exact .linked hchain hrow.1 (hrow.2.1.trans hlength) hrow.2.2
      · intro projectId id a ha hopen target hpoints
        rcases happended.reading hrooted.legible ha with ⟨-, ha⟩ | ⟨-, rfl⟩
        · exact h.unpointed projectId id a ha hopen target hpoints
        · rw [hstate] at hopen
          exact h.unpointed projectId' _ existing hexisting hopen target
            ((hpointers target).mp hpoints)
  | triaged _ _ _ _ _ => exact absurd rfl (hop _)

/-! ## A triage -/

/-- What the policy made of a snapshot is what is committed. -/
theorem Inv.triage_source (h : Inv sha256 s) {source : Aggregate}
    (hsource : Snapshot sha256 s source)
    {existing : Aggregate}
    (hexisting : s.getAggregate sha256 source.projectId source.recordId = some existing)
    (hversion : existing.eventVersion = source.eventVersion) : existing = source := by
  obtain ⟨current, hcurrent, -, hcases⟩ := hsource
  have heq : existing = current := h.rooted.legible.unique hexisting hcurrent
  rcases hcases with rfl | hlater
  · exact heq
  · rw [heq] at hversion
    omega

/-- The pointers after a triage: those before it, and the one to its target. -/
theorem leads_triaged {source : Aggregate} {action : TriageAction} {accepted : TriageAccepted}
    {row : EventRow} (haccepts : Accepts source action accepted)
    (happended : Appended sha256 s t row accepted.nextAggregate) (ht : Legible sha256 t)
    (hrow : row.recordId = source.recordId)
    (hsource : s.getAggregate sha256 source.projectId source.recordId = some source)
    {x y : JsString} (h : t.Leads sha256 x y) :
    s.Leads sha256 x y ∨ ∃ target, action.detail.target = some target ∧ x = source.recordId ∧
      y = target.recordId := by
  obtain ⟨projectId, record, hx, hpoints⟩ := h
  rcases happended.reading ht hx with ⟨-, hx⟩ | ⟨rfl, rfl⟩
  · exact .inl ⟨projectId, record, hx, hpoints⟩
  · rcases haccepts.pointers y hpoints with hold | ⟨target, htarget, rfl, -⟩
    · rw [hrow]
      exact .inl ⟨source.projectId, source, hsource, hold⟩
    · exact .inr ⟨target, htarget, hrow, rfl⟩

/-- **A triage keeps the register in order**, if its target does not lead back
to the record. -/
theorem Inv.triage (h : Inv sha256 s) {source : Aggregate} {action : TriageAction}
    {accepted : TriageAccepted} (haccepts : Accepts source action accepted)
    (hsource : Snapshot sha256 s source)
    (htargets : ∀ target, action.detail.target = some target → Snapshot sha256 s target)
    (hback : ∀ target current, action.detail.target = some target →
      s.getAggregate sha256 source.projectId source.recordId = some current →
      current.eventVersion = source.eventVersion →
      ¬ ReflTransGen (s.Leads sha256) target.recordId source.recordId)
    (heffect : Effect sha256 s accepted.operation result t) : Inv sha256 t := by
  have hrooted : Rooted sha256 t := heffect.rooted h.rooted
  have hchange := commit_change h.rooted heffect
  have hcopy := hchange
  rw [TriageAccepted.operation, haccepts.projectId, haccepts.recordId,
    haccepts.expectedVersion] at hchange
  cases hchange with
  | same hsame => exact h.same hrooted hsame
  | @triaged _ _ row existing happended hexisting hversion hafter hrow =>
      obtain ⟨hrecord, hkind, hrowVersion, hrowState, hpayload⟩ := hrow
      have heq : existing = source := h.triage_source hsource hexisting hversion
      subst heq
      have hopen : existing.state.isOpen = true := isOpen_of_transitionAllowed haccepts.allowed
      refine ⟨hrooted, ⟨hrooted.legible.read, ?_, ?_, ?_⟩, ?_⟩
      · cases htarget : action.detail.target with
        | none =>
            refine h.orderly.acyclic.mono fun x y hxy => ?_
            rcases leads_triaged haccepts happended hrooted.legible hrecord hexisting hxy with
              hold | ⟨target, htarget', -⟩
            · exact hold
            · rw [htarget] at htarget'
              cases htarget'
        | some target =>
            have hadded : Acyclic fun x y => s.Leads sha256 x y ∨
                x = existing.recordId ∧ y = target.recordId :=
              (h.orderly.acyclic.add_iff fun _ _ => Iff.rfl).mpr
                (hback target existing htarget hexisting rfl)
            refine hadded.mono fun x y hxy => ?_
            rcases leads_triaged haccepts happended hrooted.legible hrecord hexisting hxy with
              hold | ⟨target', htarget', hx, hy⟩
            · exact .inl hold
            · rw [htarget] at htarget'
              cases htarget'
              exact .inr ⟨hx, hy⟩
      · intro projectId id a ha target hpoints
        rcases happended.reading hrooted.legible ha with ⟨-, ha⟩ | ⟨-, rfl⟩
        · exact h.orderly.project_kept h.rooted hcopy ha hpoints
        · rcases haccepts.pointers target hpoints with hold | ⟨b, hb, rfl, hproject, -⟩
          · rw [hafter.1]
            exact h.orderly.project_kept h.rooted hcopy hexisting hold
          · obtain ⟨current, hcurrent, hproject', -⟩ := htargets b hb
            obtain ⟨b', hb', hproject'', -⟩ := hcopy.advance h.rooted hcurrent
            rw [hproject', hproject] at hb' hproject''
            rw [hafter.1]
            exact ⟨b', hb', hproject''⟩
      · intro projectId id a ha
        rcases happended.reading hrooted.legible ha with ⟨hid, ha'⟩ | ⟨rfl, rfl⟩
        · rw [(happended.frame id hid).eventRows]
          exact h.orderly.chain projectId id a ha'
        · obtain ⟨hchain, hlength⟩ := h.orderly.chain _ _ existing hexisting
          refine ⟨?_, (getAggregate_spec ha).2.2.2.1⟩
          rw [happended.events, hrecord, ← hrowState]
          exact .triaged hchain hkind (hrowVersion.trans hlength) hpayload haccepts.allowed
            (hrowState.trans haccepts.state)
      · intro projectId id a ha hopen' target hpoints
        rcases happended.reading hrooted.legible ha with ⟨-, ha⟩ | ⟨-, rfl⟩
        · exact h.unpointed projectId id a ha hopen' target hpoints
        · exact h.unpointed _ _ existing hexisting hopen target
            (haccepts.closed hopen' target hpoints)

/-- **A triage with a target makes a cycle exactly if the target leads back to
the record.** -/
theorem Inv.leads_acyclic_iff (h : Inv sha256 s) {source target a : Aggregate}
    {action : TriageAction} {accepted : TriageAccepted} (haccepts : Accepts source action accepted)
    (htarget : action.detail.target = some target) (hsource : Snapshot sha256 s source)
    (heffect : Effect sha256 s accepted.operation (.committed a) t) :
    Acyclic (t.Leads sha256) ↔ ¬ ReflTransGen (s.Leads sha256) target.recordId source.recordId := by
  have hrooted : Rooted sha256 t := heffect.rooted h.rooted
  rw [TriageAccepted.operation, haccepts.projectId, haccepts.recordId,
    haccepts.expectedVersion] at heffect
  obtain ⟨row, existing, happended, hexisting, hversion, -, hrow, -⟩ := heffect.triaged_appended
  have heq : existing = source := h.triage_source hsource hexisting hversion
  subst heq
  refine h.orderly.acyclic.add_iff fun x y => ⟨?_, ?_⟩
  · intro hxy
    rcases leads_triaged haccepts happended hrooted.legible hrow hexisting hxy with
      hold | ⟨target', htarget', hx, hy⟩
    · exact .inl hold
    · rw [htarget] at htarget'
      cases htarget'
      exact .inr ⟨hx, hy⟩
  · rintro (⟨projectId, record, hx, hpoints⟩ | ⟨rfl, rfl⟩)
    · -- an open record has no pointer that the triage could have replaced
      have hne : x ≠ row.recordId := by
        rintro rfl
        rw [hrow] at hx
        have heq : record = existing := h.rooted.legible.unique hx hexisting
        subst heq
        exact h.unpointed _ _ record hexisting (isOpen_of_transitionAllowed haccepts.allowed) y
          hpoints
      refine ⟨projectId, record, ?_, hpoints⟩
      rw [(happended.frame x hne).getAggregate]
      exact hx
    · have hread : t.getAggregate sha256 accepted.nextAggregate.projectId row.recordId =
          some accepted.nextAggregate := happended.getAggregate
      rw [hrow] at hread
      exact ⟨_, accepted.nextAggregate, hread, haccepts.points target htarget⟩

/-- A triage that changed the store was accepted by the callback. -/
theorem verified_of_commit {c : TriageCommit} {verifyReadBack : Aggregate → Bool}
    (h : (s.commitOperation sha256 verifyReadBack (.applyTriage c)).2 ≠ s) :
    verifyReadBack c.nextAggregate = true := by
  unfold commitOperation at h
  cases hrun : s.runOperation sha256 verifyReadBack (.applyTriage c) with
  | error code =>
      rw [hrun] at h
      exact absurd rfl h
  | ok done =>
      simp only [runOperation] at hrun
      split at hrun
      · cases hrun
      · split at hrun
        · cases hrun
        · rename_i existing hexisting
          split at hrun
          · cases hrun
          · split at hrun
            · rename_i hnext
              obtain ⟨a, happended, hread, -, hverify⟩ := readBack_ok hrun
              obtain ⟨-, rfl⟩ := getAggregate_triaged hexisting hnext.2.2.2 happended hread
              exact hverify
            · cases hrun

end Store

/-! ## A run -/

section Runs

variable {sha256 : JsString → HexDigest} {ι : Type*} {w : World ι}

/-- The invariant of a run. -/
structure World.Inv (sha256 : JsString → HexDigest) (w : World ι) : Prop where
  store : w.store.Inv sha256
  source : ∀ client a, (w.clients client).source = some a → w.store.Snapshot sha256 a
  target : ∀ client a, (w.clients client).target = some a → w.store.Snapshot sha256 a

theorem Store.Inv.empty : Store.empty.Inv sha256 := by
  have hnone : ∀ projectId id a, Store.empty.getAggregate sha256 projectId id ≠ some a := by
    intro projectId id a hread
    obtain ⟨root, hroot, -⟩ := Store.getAggregate_root hread
    exact absurd hroot List.not_mem_nil
  refine ⟨⟨⟨List.nodup_nil, fun _ h => absurd h List.not_mem_nil⟩,
    fun _ h => absurd h List.not_mem_nil⟩, ⟨fun _ h => absurd h List.not_mem_nil, ?_,
    fun projectId id a h => absurd h (hnone projectId id a),
    fun projectId id a h => absurd h (hnone projectId id a)⟩,
    fun projectId id a h => absurd h (hnone projectId id a)⟩
  refine acyclic_of_rank (fun _ => 0) ?_
  rintro x y ⟨projectId, record, hx, -⟩
  exact absurd hx (hnone projectId x record)

/-- What is kept when only the store moves on. -/
theorem World.Inv.advance (h : World.Inv sha256 w) {op : Operation} {result : Store.CommitResult}
    {t : Store} (heffect : w.store.Effect sha256 op result t) (ht : t.Inv sha256) :
    World.Inv sha256 { w with store := t } := by
  have hchange := Store.commit_change h.store.rooted heffect
  exact ⟨ht, fun client a ha => (h.source client a ha).advance h.store.rooted hchange,
    fun client a ha => (h.target client a ha).advance h.store.rooted hchange⟩

variable [DecidableEq ι]

theorem World.Inv.perform (h : World.Inv sha256 w) {action : Step ι} (hlegal : action.Legal w)
    (hpermitted : Permitted sha256 w action) : World.Inv sha256 (w.perform sha256 action) := by
  cases action with
  | readSource client projectId recordId =>
      refine ⟨h.store, ?_, ?_⟩
      · intro other a ha
        simp only [World.perform, Function.update_apply] at ha
        split at ha
        · exact Store.snapshot_getAggregate ha
        · exact h.source other a ha
      · intro other a ha
        simp only [World.perform, Function.update_apply] at ha
        split at ha
        · exact h.target client a ha
        · exact h.target other a ha
  | readTarget client projectId recordId =>
      refine ⟨h.store, ?_, ?_⟩
      · intro other a ha
        simp only [World.perform, Function.update_apply] at ha
        split at ha
        · exact h.source client a ha
        · exact h.source other a ha
      · intro other a ha
        simp only [World.perform, Function.update_apply] at ha
        split at ha
        · exact Store.snapshot_getAggregate ha
        · exact h.target other a ha
  | commit op verifyReadBack =>
      have heffect : w.store.Effect sha256 op
          (w.store.commitOperation sha256 verifyReadBack op).1
          (w.store.commitOperation sha256 verifyReadBack op).2 := Store.commit_effect op
      exact h.advance heffect (h.store.commit heffect hlegal)
  | triage client actorId action verifyReadBack =>
      simp only [World.perform]
      cases hsource : (w.clients client).source with
      | none => exact h
      | some source =>
          dsimp only
          cases hpolicy : evaluateArchitectureDebtTriage source actorId action with
          | error code =>
              have hsame : (recordArchitectureDebtTriage sha256 w.store source actorId action
                  verifyReadBack).2 = w.store := by
                unfold recordArchitectureDebtTriage
                rw [hpolicy]
              rw [hsame]
              exact h
          | ok accepted =>
              have haccepts := evaluateArchitectureDebtTriage_ok hpolicy
              have heffect : w.store.Effect sha256 accepted.operation
                  (w.store.commitOperation sha256 verifyReadBack accepted.operation).1
                  (w.store.commitOperation sha256 verifyReadBack accepted.operation).2 :=
                Store.commit_effect accepted.operation
              rw [recordArchitectureDebtTriage_store verifyReadBack hpolicy]
              by_cases hmoved :
                  (w.store.commitOperation sha256 verifyReadBack accepted.operation).2 = w.store
              · rw [hmoved]
                exact h
              · have hverified : verifyReadBack accepted.nextAggregate = true :=
                  Store.verified_of_commit hmoved
                refine h.advance heffect (h.store.triage haccepts (h.source client source hsource)
                  ?_ ?_ heffect)
                · intro target htarget
                  exact h.target client target (hlegal target htarget)
                · intro target current htarget hcurrent hversion
                  exact hpermitted source target accepted current hsource htarget hpolicy hverified
                    hcurrent hversion

theorem run_inv (h : Run sha256 (Permitted sha256) w) : World.Inv sha256 w := by
  induction h with
  | initial =>
      refine ⟨Store.Inv.empty, ?_, ?_⟩
      · intro client a ha
        cases ha
      · intro client a ha
        cases ha
  | step action _ hlegal hpermitted ih => exact ih.perform hlegal hpermitted

/-- **In every run whose steps are permitted, the register stays in order.** -/
theorem run_orderly (h : Run sha256 (Permitted sha256) w) : w.store.Orderly sha256 :=
  (run_inv h).store.orderly

end Runs

/-! ## Two merges -/

/-- Two records have been created. -/
def sampleWorld : World Bool :=
  ((World.initial Bool).perform sampleSha256
    (.commit (.createPending (sampleCreate (js "core"))) fun _ => true)).perform sampleSha256
    (.commit (.createPending (sampleCreate (js "edge"))) fun _ => true)

/-- A client reads two records. -/
def World.readBoth (w : World Bool) (client : Bool) (source target : JsString) : World Bool :=
  (w.perform sampleSha256 (.readSource client (js "p") (sampleId source))).perform sampleSha256
    (.readTarget client (js "p") (sampleId target))

/-- The merge of one sample record into the other. -/
def sampleMerge (source target : JsString) : TriageAction :=
  ⟨js "p", sampleId source, 0, js "why", js "2026-01-02T00:00:00.000Z",
    .merge (sampleRecord target)⟩

def World.merge (w : World Bool) (client : Bool) (source target : JsString) : World Bool :=
  w.perform sampleSha256 (.triage client (js "s") (sampleMerge source target) fun _ => true)

theorem sampleWorld_run (condition : World Bool → Step Bool → Prop)
    (h : ∀ w op verifyReadBack, condition w (.commit op verifyReadBack)) :
    Run sampleSha256 condition sampleWorld :=
  .step _ (.step _ .initial (fun _ => Operation.noConfusion) (h _ _ _))
    (fun _ => Operation.noConfusion) (h _ _ _)

theorem Run.readBoth {condition : World Bool → Step Bool → Prop} {w : World Bool}
    (h : Run sampleSha256 condition w) (client : Bool) (source target : JsString)
    (hsource : condition w (.readSource client (js "p") (sampleId source)))
    (htarget : ∀ w, condition w (.readTarget client (js "p") (sampleId target))) :
    Run sampleSha256 condition (w.readBoth client source target) :=
  .step _ (.step _ h trivial hsource) trivial (htarget _)

/-- Both clients have merged. -/
def sampleMerged : World Bool :=
  (((sampleWorld.readBoth true (js "core") (js "edge")).readBoth false (js "edge")
    (js "core")).merge true (js "core") (js "edge")).merge false (js "edge") (js "core")

/-- The two records, and what is left of them after both merges, evaluated. -/
theorem sampleWorld_holds :
    sampleId (js "edge") ≠ sampleId (js "core") ∧
      (sampleWorld.store.getAggregate sampleSha256 (js "p") (sampleId (js "core")) =
          some (sampleRecord (js "core")) ∧
        sampleWorld.store.getAggregate sampleSha256 (js "p") (sampleId (js "edge")) =
          some (sampleRecord (js "edge"))) ∧
      sampleMerged.store.getAggregate sampleSha256 (js "p") (sampleId (js "core")) =
          some { sampleRecord (js "core") with
            eventVersion := 1
            state := .merged
            duplicateOfRecordId := some (sampleId (js "edge")) } ∧
        sampleMerged.store.getAggregate sampleSha256 (js "p") (sampleId (js "edge")) =
          some { sampleRecord (js "edge") with
            eventVersion := 1
            state := .merged
            duplicateOfRecordId := some (sampleId (js "core")) } := by
  decide +kernel

theorem World.readBoth_store (w : World Bool) (client : Bool) (source target : JsString) :
    (w.readBoth client source target).store = w.store :=
  rfl

theorem World.readBoth_self (w : World Bool) (client : Bool) (source target : JsString) :
    (w.readBoth client source target).clients client =
      ⟨w.store.getAggregate sampleSha256 (js "p") (sampleId source),
        w.store.getAggregate sampleSha256 (js "p") (sampleId target)⟩ := by
  simp only [World.readBoth, World.perform, Function.update_self]

theorem World.readBoth_of_ne (w : World Bool) {client other : Bool} (h : other ≠ client)
    (source target : JsString) :
    (w.readBoth client source target).clients other = w.clients other := by
  simp only [World.readBoth, World.perform, Function.update_of_ne h]

theorem World.merge_clients (w : World Bool) (client : Bool) (source target : JsString) :
    (w.merge client source target).clients = w.clients := by
  simp only [World.merge, World.perform]
  split
  · rfl
  · rfl

/-- One client merges a record into another one. -/
theorem run_orderly_merged :
    ((sampleWorld.readBoth true (js "core") (js "edge")).merge true (js "core")
      (js "edge")).store.Orderly sampleSha256 := by
  have hread : Run sampleSha256 (Permitted sampleSha256)
      (sampleWorld.readBoth true (js "core") (js "edge")) :=
    (sampleWorld_run _ fun _ _ _ => trivial).readBoth true _ _ trivial fun _ => trivial
  obtain ⟨hne, ⟨hcore, hedge⟩, -⟩ := sampleWorld_holds
  refine run_orderly (.step _ hread ?_ ?_)
  · intro target htarget
    cases htarget
    rw [World.readBoth_self]
    exact hedge
  · intro source target accepted current hsource htarget _ _ _ _ hback
    cases htarget
    have hid : source.recordId = sampleId (js "core") := by
      rw [World.readBoth_self, hcore] at hsource
      cases hsource
      rfl
    rw [hid] at hback
    -- the target points at no record
    rcases Relation.ReflTransGen.cases_head hback with heq | ⟨next, ⟨projectId, record, hrecord,
      hpoints⟩, -⟩
    · exact hne heq
    · rw [World.readBoth_store] at hrecord
      have hedge' : sampleWorld.store.getAggregate sampleSha256 (js "p")
          (sampleRecord (js "edge")).recordId = some (sampleRecord (js "edge")) := hedge
      have hinv := (run_inv hread).store
      rw [World.readBoth_store] at hinv
      have heq := hinv.rooted.legible.unique hrecord hedge'
      subst heq
      rcases hpoints with hpoints | hpoints <;> cases hpoints

/-- Two clients read two records, and each merges its own into the other. -/
theorem merged_not_orderly :
    let w := ((sampleWorld.readBoth true (js "core") (js "edge")).readBoth false (js "edge")
      (js "core")).merge true (js "core") (js "edge")
    Run sampleSha256 (fun _ _ => True) (w.merge false (js "edge") (js "core")) ∧
      ¬ (w.merge false (js "edge") (js "core")).store.Orderly sampleSha256 := by
  obtain ⟨-, ⟨hcore, hedge⟩, hthere, hback⟩ := sampleWorld_holds
  constructor
  · refine .step _ (.step _ (((sampleWorld_run _ fun _ _ _ => trivial).readBoth true _ _ trivial
      fun _ => trivial).readBoth false _ _ trivial fun _ => trivial) ?_ trivial) ?_ trivial
    · intro target htarget
      cases htarget
      rw [World.readBoth_of_ne _ (by decide), World.readBoth_self]
      exact hedge
    · intro target htarget
      cases htarget
      rw [World.merge_clients, World.readBoth_self, World.readBoth_store]
      exact hcore
  · intro h
    exact h.acyclic _ (.tail (.single ⟨js "p", _, hthere, .inl rfl⟩) ⟨js "p", _, hback, .inl rfl⟩)

end Hepha.Debt
