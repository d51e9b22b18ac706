import Hepha.Debt.Store

/-!
# What an operation does to the register

`commit_effect` says once what a committed operation can have done, and the
rest of the development reads it off there.  A record is read from the rows
with its identifier only (`SameRows`), and an operation appends rows of one
record only.  So an operation changes the reading of its own record, and of no
other.
-/

namespace Hepha.Debt

open JsString (toWellFormed)

variable {sha256 : JsString → HexDigest} {s t : Store} {verifyReadBack : Aggregate → Bool}

/-! ## Reading -/

namespace Store

/-- The two stores have the same rows of a record. -/
structure SameRows (s t : Store) (id : JsString) : Prop where
  debts : (t.debts.filter fun row => row.recordId = id) =
    s.debts.filter fun row => row.recordId = id
  locations : (t.locations.filter fun row => row.recordId = id) =
    s.locations.filter fun row => row.recordId = id
  observations : (t.observations.filter fun row => row.recordId = id) =
    s.observations.filter fun row => row.recordId = id
  events : (t.events.filter fun row => row.recordId = id) =
    s.events.filter fun row => row.recordId = id

theorem SameRows.refl (id : JsString) : SameRows s s id := ⟨rfl, rfl, rfl, rfl⟩

theorem SameRows.trans {u : Store} {id : JsString} (h : SameRows s t id) (h' : SameRows t u id) :
    SameRows s u id :=
  ⟨h'.debts.trans h.debts, h'.locations.trans h.locations, h'.observations.trans h.observations,
    h'.events.trans h.events⟩

theorem debtRow_eq (projectId recordId : JsString) : s.debtRow projectId recordId =
    (s.debts.filter fun row => row.recordId = recordId).find? fun row =>
      row.projectId = toWellFormed projectId := by
  rw [debtRow, List.find?_filter]
  congr 1
  funext row
  simp [and_comm]

theorem debtRow_some {projectId recordId : JsString} {root : DebtRow}
    (h : s.debtRow projectId recordId = some root) :
    root ∈ s.debts ∧ root.projectId = toWellFormed projectId ∧ root.recordId = recordId := by
  have hkey := List.find?_some h
  simp only [decide_eq_true_eq] at hkey
  exact ⟨List.mem_of_find?_eq_some h, hkey⟩

/-- What `getArchitectureDebtAggregate` found on its way to a record. -/
structure Reading (sha256 : JsString → HexDigest) (s : Store) (projectId recordId : JsString)
    (root : DebtRow) (locations : List Location) (observations : List ArtifactReference) :
    Prop where
  input : identifier projectId = true ∧ isRecordId recordId = true
  found : s.debtRow projectId recordId = some root
  valid : root.valid = true
  readLocations : s.readLocations recordId = some locations
  readObservations : s.readObservations recordId = some observations
  members : root.trigger.valid = true ∧ root.discovery.valid = true ∧ root.rule.valid = true
  first : observations.head? = some root.discovery.observation
  identified : recordId = createArchitectureDebtRecordId sha256 root.projectId root.rule
    root.architecturalBoundary locations

theorem getAggregate_eq_some {projectId recordId : JsString} {a : Aggregate} :
    s.getAggregate sha256 projectId recordId = some a ↔
      ∃ root locations observations,
        Reading sha256 s projectId recordId root locations observations ∧
        reconstruct (base root locations observations) (s.eventRows recordId) = some a := by
  have hguard : ∀ {p : Prop} [Decidable p] {u : Unit}, (guard p : Option Unit) = some u ↔ p := by
    intro p _ u
    by_cases hp : p <;> simp [guard, hp]
  simp only [getAggregate, Option.bind_eq_bind, Option.bind_eq_some_iff, hguard,
    Bool.and_eq_true]
  constructor
  · rintro ⟨-, hinput, root, hroot, -, hvalid, locations, hlocations, observations, hobservations,
      -, hmembers, -, hfirst, -, hidentified, ha⟩
    obtain ⟨-, -, hrecord⟩ := debtRow_some hroot
    rw [hrecord] at hlocations hobservations hidentified ha
    exact ⟨root, locations, observations, ⟨hinput, hroot, hvalid, hlocations, hobservations,
      ⟨hmembers.1.1, hmembers.1.2, hmembers.2⟩, hfirst, hidentified⟩, ha⟩
  · rintro ⟨root, locations, observations, h, ha⟩
    obtain ⟨-, -, hrecord⟩ := debtRow_some h.found
    refine ⟨⟨⟩, h.input, root, h.found, ⟨⟩, h.valid, locations, ?_, observations, ?_, ⟨⟩,
      ⟨⟨h.members.1, h.members.2.1⟩, h.members.2.2⟩, ⟨⟩, h.first, ⟨⟩, ?_, ?_⟩
    · rw [hrecord]
      exact h.readLocations
    · rw [hrecord]
      exact h.readObservations
    · rw [hrecord]
      exact h.identified
    · rw [hrecord]
      exact ha

/-- **A record is read from its own rows.** -/
theorem SameRows.getAggregate {id : JsString} (h : SameRows s t id) (projectId : JsString) :
    t.getAggregate sha256 projectId id = s.getAggregate sha256 projectId id := by
  have hroot : t.debtRow projectId id = s.debtRow projectId id := by
    rw [debtRow_eq, debtRow_eq, h.debts]
  have hlocations : t.readLocations id = s.readLocations id := by
    have hrows : t.locationRows id = s.locationRows id := by
      rw [locationRows, h.locations, locationRows]
    rw [readLocations, hrows, readLocations]
  have hobservations : t.readObservations id = s.readObservations id := by
    have hrows : t.observationRows id = s.observationRows id := by
      rw [observationRows, h.observations, observationRows]
    rw [readObservations, hrows, readObservations]
  have hevents : t.eventRows id = s.eventRows id := by
    rw [eventRows, h.events, eventRows]
  ext a
  rw [getAggregate_eq_some, getAggregate_eq_some, hevents]
  refine exists_congr fun root => exists_congr fun locations => exists_congr fun observations =>
    and_congr_left fun _ => ⟨?_, ?_⟩
  · intro r
    exact ⟨r.input, hroot ▸ r.found, r.valid, hlocations ▸ r.readLocations,
      hobservations ▸ r.readObservations, r.members, r.first, r.identified⟩
  · intro r
    exact ⟨r.input, hroot ▸ r.found, r.valid, hlocations ▸ r.readLocations,
      hobservations ▸ r.readObservations, r.members, r.first, r.identified⟩

end Store

/-! ## Replaying the events -/

section Replay

variable {base : Aggregate} {events : List EventRow} {a : Aggregate}

theorem reconstruct_eq_some : reconstruct base events = some a ↔
    events ≠ [] ∧ ∃ linkCount, replay (replayEvent base) (base, 0) events = some (a, linkCount) ∧
      linkCount + 1 = base.observationReferences.length ∧ a.eventVersion + 1 = events.length ∧
      a.valid = true := by
  unfold reconstruct
  by_cases hempty : events = []
  · simp [hempty]
  · rw [if_neg hempty]
    cases hreplay : replay (replayEvent base) (base, 0) events with
    | none => simp
    | some done =>
        obtain ⟨current, linkCount⟩ := done
        dsimp only
        constructor
        · intro h
          split at h
          · rename_i hchecks
            cases h
            exact ⟨hempty, linkCount, rfl, hchecks⟩
          · cases h
        · rintro ⟨-, n, hn, hchecks⟩
          cases hn
          rw [if_pos hchecks]

/-- What a turn of the loop checks, and what it makes of the record. -/
theorem replayEvent_eq_some {acc next : Aggregate × ℕ} {row : EventRow} {index : ℕ}
    (h : replayEvent base acc (row, index) = some next) :
    row.recordId = base.recordId ∧ row.eventVersion = index ∧
      ((index = 0 ∧ row.eventKind = .createPending ∧ row.state = .pendingTriage ∧ next = acc) ∨
       (index ≠ 0 ∧ row.eventKind = .linkObservation ∧ row.payload = none ∧
          row.state = acc.1.state ∧ next = ({ acc.1 with eventVersion := index }, acc.2 + 1)) ∨
       (index ≠ 0 ∧ row.eventKind = .triage ∧ ∃ event after, row.payload = some (event, after) ∧
          after.valid = true ∧ after.recordId = base.recordId ∧
          after.projectId = base.projectId ∧ after.eventVersion = index ∧
          after.state = row.state ∧
          after.observationReferences.length = base.observationReferences.length ∧
          next = ({ after with observationReferences := base.observationReferences }, acc.2))) := by
  obtain ⟨current, linkCount⟩ := acc
  simp only [replayEvent] at h
  split at h
  · rename_i hrow
    refine ⟨hrow.1, hrow.2.1, ?_⟩
    split at h
    · rename_i hzero
      split at h
      · rename_i hcreate
        exact .inl ⟨hzero, hcreate.1, hcreate.2.1, (Option.some.inj h).symm⟩
      · cases h
    · rename_i hzero
      split at h
      · rename_i hkind hpayload
        split at h
        · rename_i hstate
          exact .inr (.inl ⟨hzero, hkind, hpayload, hstate, (Option.some.inj h).symm⟩)
        · cases h
      · rename_i event after hkind hpayload
        split at h
        · rename_i hafter
          exact .inr (.inr ⟨hzero, hkind, event, after, hpayload, hafter.1, hafter.2.1,
            hafter.2.2.1, hafter.2.2.2.1, hafter.2.2.2.2.1, hafter.2.2.2.2.2,
            (Option.some.inj h).symm⟩)
        · cases h
      · cases h
  · cases h

/-- What a replayed record has of the record it started from and of its
events. -/
structure Follows (base : Aggregate) (events : List EventRow) (a : Aggregate) : Prop where
  recordId : a.recordId = base.recordId
  projectId : a.projectId = base.projectId
  observations : a.observationReferences = base.observationReferences
  state : a.state = ((events.getLast?).map EventRow.state).getD base.state
  versions : events.map EventRow.eventVersion = List.range events.length
  triages : ∀ row ∈ events, row.eventKind = .triage → ∃ payload, row.payload = some payload ∧
    payload.2.observationReferences.length = base.observationReferences.length

theorem replay_follows {linkCount : ℕ} (hbase : base.state = .pendingTriage)
    (h : replay (replayEvent base) (base, 0) events = some (a, linkCount)) :
    Follows base events a := by
  refine replay_induction (P := fun events acc => Follows base events acc.1) ?_ ?_ h
  · exact ⟨rfl, rfl, rfl, rfl, rfl, by simp⟩
  · intro events row acc next hacc hstep
    obtain ⟨-, hversion, hcases⟩ := replayEvent_eq_some hstep
    have hversions : (events ++ [row]).map EventRow.eventVersion =
        List.range (events ++ [row]).length := by
      rw [List.map_append, hacc.versions, List.map_singleton, hversion, List.length_append,
        List.length_singleton, List.range_succ]
    have hlast : (((events ++ [row]).getLast?).map EventRow.state).getD base.state =
        row.state := by
      simp
    have htriages (hrow : row.eventKind = .triage → ∃ payload, row.payload = some payload ∧
        payload.2.observationReferences.length = base.observationReferences.length) :
        ∀ r ∈ events ++ [row], r.eventKind = .triage → ∃ payload, r.payload = some payload ∧
          payload.2.observationReferences.length = base.observationReferences.length := by
      intro r hr
      rcases List.mem_append.mp hr with hr | hr
      · exact hacc.triages r hr
      · rw [List.mem_singleton] at hr
        exact hr ▸ hrow
    rcases hcases with ⟨hzero, hkind, hstate, rfl⟩ | ⟨-, hkind, -, hstate, rfl⟩ |
      ⟨-, hkind, event, after, hpayload, -, hrecord, hproject, -, hstate, hlength, rfl⟩
    · refine ⟨hacc.recordId, hacc.projectId, hacc.observations, ?_, hversions,
        htriages fun h => by rw [hkind] at h; cases h⟩
      have hnil : events = [] := List.length_eq_zero_iff.mp hzero
      rw [hlast, hstate, hacc.state, hnil]
      exact hbase
    · exact ⟨hacc.recordId, hacc.projectId, hacc.observations, by rw [hlast, hstate], hversions,
        htriages fun h => by rw [hkind] at h; cases h⟩
    · exact ⟨hrecord, hproject, rfl, by rw [hlast, hstate], hversions,
        htriages fun _ => ⟨_, hpayload, hlength⟩⟩

theorem reconstruct_follows (hbase : base.state = .pendingTriage)
    (h : reconstruct base events = some a) : Follows base events a := by
  obtain ⟨-, linkCount, hreplay, -⟩ := reconstruct_eq_some.1 h
  exact replay_follows hbase hreplay

end Replay

namespace Store

/-- What is true of every record that can be read. -/
theorem getAggregate_spec {projectId recordId : JsString} {a : Aggregate}
    (h : s.getAggregate sha256 projectId recordId = some a) :
    a.recordId = recordId ∧ a.projectId = toWellFormed projectId ∧ a.valid = true ∧
      a.eventVersion + 1 = (s.eventRows recordId).length ∧
      s.getAggregate sha256 a.projectId recordId = some a := by
  obtain ⟨root, locations, observations, hreading, hreconstruct⟩ := getAggregate_eq_some.1 h
  have hfollows := reconstruct_follows rfl hreconstruct
  obtain ⟨-, linkCount, -, -, hlength, hvalid⟩ := reconstruct_eq_some.1 hreconstruct
  obtain ⟨-, hproject, hrecord⟩ := debtRow_some hreading.found
  have hprojectId : a.projectId = root.projectId := hfollows.projectId
  refine ⟨hfollows.recordId.trans hrecord, hprojectId.trans hproject, hvalid, hlength, ?_⟩
  refine getAggregate_eq_some.2 ⟨root, locations, observations, ⟨⟨?_, hreading.input.2⟩, ?_,
    hreading.valid, hreading.readLocations, hreading.readObservations, hreading.members,
    hreading.first, hreading.identified⟩, hreconstruct⟩
  · have hroot := hreading.valid
    simp only [DebtRow.valid, Bool.and_eq_true] at hroot
    rw [hprojectId]
    exact hroot.1.1.1.1.1.1.2
  · have hfound := hreading.found
    rw [debtRow_eq] at hfound ⊢
    rw [hprojectId, hproject, JsString.toWellFormed_toWellFormed]
    exact hfound

end Store

/-! ## Appending -/

namespace Store

variable {other : JsString}

/-- A row of another record does not show among the rows of a record. -/
theorem filter_append_of_ne {ρ : Type*} {key : ρ → JsString} {rows : List ρ} {row : ρ}
    (h : key row ≠ other) : ((rows ++ [row]).filter fun r => key r = other) =
      rows.filter fun r => key r = other := by
  simp [List.filter_append, h]

theorem filter_append_self {ρ : Type*} (key : ρ → JsString) {rows : List ρ} (row : ρ) :
    ((rows ++ [row]).filter fun r => key r = key row) =
      (rows.filter fun r => key r = key row) ++ [row] := by
  simp [List.filter_append]

theorem insertLocations_frame {recordId : JsString} {locations : List Location}
    {rows next : List LocationRow} (h : insertLocations recordId locations rows = some next)
    (hne : other ≠ recordId) : (next.filter fun row => row.recordId = other) =
      rows.filter fun row => row.recordId = other := by
  induction locations generalizing rows with
  | nil =>
      cases h
      rfl
  | cons l rest ih =>
      simp only [insertLocations] at h
      split at h
      · rw [ih h]
        exact filter_append_of_ne hne.symm
      · cases h

/-- An observation row that was inserted, and the table it was inserted into. -/
theorem insertObservation_eq_some {recordId linkedAt : JsString} {observation : ArtifactReference} :
    s.insertObservation recordId observation linkedAt = some t ↔
      (∀ r ∈ s.observations, r.recordId = recordId → r.contentHash ≠ observation.contentHash ∧
        ¬(r.artifactId = toWellFormed observation.artifactId ∧
          r.relativePath = toWellFormed observation.relativePath)) ∧
      t = { s with
        observations := s.observations ++ [⟨recordId, observation.contentHash,
          toWellFormed observation.artifactId, toWellFormed observation.relativePath,
          linkedAt⟩] } := by
  simp only [insertObservation]
  constructor
  · intro h
    split at h
    · rename_i hall
      refine ⟨?_, (Option.some.inj h).symm⟩
      intro r hr hrecord
      have := List.all_eq_true.mp hall r hr
      rw [not_and_or]
      simpa [hrecord] using this
    · cases h
  · rintro ⟨hall, rfl⟩
    rw [if_pos]
    rw [List.all_eq_true]
    intro r hr
    by_cases hrecord : r.recordId = recordId
    · have hr := hall r hr hrecord
      rw [not_and_or] at hr
      simpa [hrecord] using hr
    · simp [hrecord]

theorem insertEvent_eq_some {row : EventRow} :
    s.insertEvent row = some t ↔
      (∀ r ∈ s.events, r.recordId = row.recordId → r.eventVersion ≠ row.eventVersion) ∧
      t = { s with events := s.events ++ [row] } := by
  simp only [insertEvent]
  constructor
  · intro h
    split at h
    · rename_i hall
      refine ⟨?_, (Option.some.inj h).symm⟩
      intro r hr hrecord
      have := List.all_eq_true.mp hall r hr
      simpa [hrecord] using this
    · cases h
  · rintro ⟨hall, rfl⟩
    rw [if_pos]
    rw [List.all_eq_true]
    intro r hr
    by_cases hrecord : r.recordId = row.recordId
    · simpa [hrecord] using hall r hr hrecord
    · simp [hrecord]

theorem insertEvent_frame {row : EventRow} (h : s.insertEvent row = some t)
    (hne : other ≠ row.recordId) : SameRows s t other := by
  obtain ⟨-, rfl⟩ := insertEvent_eq_some.1 h
  exact ⟨rfl, rfl, rfl, filter_append_of_ne hne.symm⟩

theorem insertObservation_frame {recordId linkedAt : JsString} {observation : ArtifactReference}
    (h : s.insertObservation recordId observation linkedAt = some t) (hne : other ≠ recordId) :
    SameRows s t other := by
  obtain ⟨-, rfl⟩ := insertObservation_eq_some.1 h
  exact ⟨rfl, rfl, filter_append_of_ne hne.symm, rfl⟩

theorem insertLink_frame {op : LinkOperation} {existing : Aggregate}
    (h : s.insertLink op existing = some t) (hne : other ≠ op.recordId) : SameRows s t other := by
  obtain ⟨u, hobservation, hevent⟩ := Option.bind_eq_some_iff.mp h
  exact (insertObservation_frame hobservation hne).trans (insertEvent_frame hevent hne)

theorem insertTriage_frame {op : TriageCommit} {existing : Aggregate}
    (h : s.insertTriage op existing = some t) (hne : other ≠ existing.recordId) :
    SameRows s t other :=
  insertEvent_frame h hne

theorem insertCreate_frame {op : CreateOperation} (h : s.insertCreate op = some t)
    (hne : other ≠ op.recordId) : SameRows s t other := by
  simp only [insertCreate, Option.bind_eq_bind, Option.bind_eq_some_iff] at h
  obtain ⟨-, -, locations, hlocations, u, hobservation, hevent⟩ := h
  refine SameRows.trans ?_ ((insertObservation_frame hobservation hne).trans
    (insertEvent_frame hevent hne))
  exact ⟨filter_append_of_ne hne.symm, insertLocations_frame hlocations hne, rfl, rfl⟩

/-- What recording a decision checks and inserts. -/
structure Decided (sha256 : JsString → HexDigest) (s : Store) (op : DecisionCommit) (t : Store) :
    Prop where
  named : op.decision.projectId = op.projectId ∧ op.decision.featureId = op.featureId ∧
    op.decision.touchPlanHash = op.touchPlanHash
  current : ∃ existing, s.getAggregate sha256 op.projectId op.decision.recordId = some existing ∧
    op.decision.recordVersion = existing.eventVersion
  debts : t.debts = s.debts
  locations : t.locations = s.locations
  observations : t.observations = s.observations
  events : t.events = s.events
  plan : s.insertTouchPlan op = some { s with touchPlans := t.touchPlans }
  decisions : t.decisions = s.decisions ++
    [⟨toWellFormed op.decision.decisionId, op.decision.recordId, op.decision⟩]

theorem insertTouchPlan_eq_some {op : DecisionCommit} (h : s.insertTouchPlan op = some t) :
    t = { s with touchPlans := t.touchPlans } := by
  unfold insertTouchPlan at h
  split at h
  · split at h
    · cases h
      rfl
    · cases h
  · cases h
    rfl

theorem commitDecision_ok {op : DecisionCommit} (h : s.commitDecision sha256 op = .ok t) :
    Decided sha256 s op t := by
  unfold commitDecision at h
  split at h
  · rename_i hnamed
    split at h
    · cases h
    · rename_i existing hexisting
      split at h
      · rename_i hversion
        split at h
        · cases h
        · rename_i planned hplan
          split at h
          · cases h
          · rename_i next hnext
            cases h
            have hplanned := insertTouchPlan_eq_some hplan
            unfold insertDecision at hnext
            split at hnext
            · cases hnext
              rw [hplanned] at hplan
              exact ⟨hnamed, ⟨existing, hexisting, hversion⟩, by rw [hplanned], by rw [hplanned],
                by rw [hplanned], by rw [hplanned], hplan, by rw [hplanned]⟩
            · cases hnext
      · cases h
  · cases h

/-- A recorded decision touches no row of a record. -/
theorem Decided.sameRows {op : DecisionCommit} (h : Decided sha256 s op t) (id : JsString) :
    SameRows s t id :=
  ⟨by rw [h.debts], by rw [h.locations], by rw [h.observations], by rw [h.events]⟩

/-! ## The effect of a commit -/

/-- What `commitArchitectureDebtOperation` can have done. -/
inductive Effect (sha256 : JsString → HexDigest) (s : Store) :
    Operation → CommitResult → Store → Prop
  | refused {op : Operation} (code : RefusalCode) : Effect sha256 s op (.refusal code) s
  | decided {op : DecisionCommit} {t : Store} :
      op.valid = true → Decided sha256 s op t →
      Effect sha256 s (.recordTouchDecision op) .decisionCommitted t
  /-- A link that is there already. -/
  | relinked {op : LinkOperation} {existing : Aggregate} :
      s.getAggregate sha256 op.projectId op.recordId = some existing →
      (∃ r ∈ existing.observationReferences, r.contentHash = op.observation.contentHash) →
      Effect sha256 s (.linkObservation op) (.committed existing) s
  | created {op : CreateOperation} {t : Store} {a : Aggregate} :
      op.valid sha256 = true → s.getAggregate sha256 op.projectId op.recordId = none →
      s.insertCreate op = some t → t.getAggregate sha256 op.projectId op.recordId = some a →
      Effect sha256 s (.createPending op) (.committed a) t
  | linked {op : LinkOperation} {existing : Aggregate} {t : Store} {a : Aggregate} :
      op.valid = true → s.getAggregate sha256 op.projectId op.recordId = some existing →
      existing.eventVersion = op.expectedVersion →
      (∀ r ∈ existing.observationReferences, r.contentHash ≠ op.observation.contentHash) →
      s.insertLink op existing = some t →
      t.getAggregate sha256 op.projectId op.recordId = some a →
      Effect sha256 s (.linkObservation op) (.committed a) t
  | triaged {op : TriageCommit} {existing : Aggregate} {t : Store} {a : Aggregate} :
      op.valid = true → s.getAggregate sha256 op.projectId op.recordId = some existing →
      existing.eventVersion = op.expectedVersion →
      op.nextAggregate.projectId = existing.projectId ∧
        op.nextAggregate.recordId = existing.recordId ∧
        op.nextAggregate.eventVersion = existing.eventVersion + 1 ∧
        op.nextAggregate.observationReferences = existing.observationReferences →
      s.insertTriage op existing = some t →
      t.getAggregate sha256 op.projectId op.recordId = some a →
      Effect sha256 s (.applyTriage op) (.committed a) t

theorem readBack_ok {projectId recordId : JsString} {appended : Option Store}
    {done : CommitResult × Store}
    (h : readBack sha256 verifyReadBack projectId recordId appended = .ok done) :
    ∃ a, appended = some done.2 ∧ done.2.getAggregate sha256 projectId recordId = some a ∧
      done.1 = .committed a ∧ verifyReadBack a = true := by
  unfold readBack at h
  cases happended : appended with
  | none => simp [happended] at h
  | some next =>
      simp only [happended] at h
      cases hread : next.getAggregate sha256 projectId recordId with
      | none => simp [hread] at h
      | some a =>
          simp only [hread] at h
          split at h
          · rename_i hverify
            cases h
            exact ⟨a, rfl, hread, rfl, hverify⟩
          · cases h

/-- **Every commit has one of these effects.** -/
theorem commit_effect (op : Operation) :
    Effect sha256 s op (s.commitOperation sha256 verifyReadBack op).1
      (s.commitOperation sha256 verifyReadBack op).2 := by
  unfold commitOperation
  cases hrun : s.runOperation sha256 verifyReadBack op with
  | error code => exact .refused code
  | ok done =>
      cases op with
      | createPending op =>
          simp only [runOperation] at hrun
          split at hrun
          · cases hrun
          · rename_i hvalid
            split at hrun
            · cases hrun
            · rename_i hnone
              obtain ⟨a, happended, hread, hdone, -⟩ := readBack_ok hrun
              obtain ⟨result, t⟩ := done
              dsimp only at hdone
              subst hdone
              exact .created (eq_true_of_ne_false hvalid) hnone happended hread
      | linkObservation op =>
          simp only [runOperation] at hrun
          split at hrun
          · cases hrun
          · rename_i hvalid
            split at hrun
            · cases hrun
            · rename_i existing hexisting
              split at hrun
              · cases hrun
              · rename_i hversion
                split at hrun
                · rename_i hlinked
                  cases hrun
                  obtain ⟨r, hr, hhash⟩ := List.any_eq_true.mp hlinked
                  exact .relinked hexisting ⟨r, hr, of_decide_eq_true hhash⟩
                · rename_i hlinked
                  obtain ⟨a, happended, hread, hdone, -⟩ := readBack_ok hrun
                  obtain ⟨result, t⟩ := done
                  dsimp only at hdone
                  subst hdone
                  refine .linked (eq_true_of_ne_false hvalid) hexisting (not_not.mp hversion) ?_
                    happended hread
                  intro r hr hhash
                  exact hlinked (List.any_eq_true.mpr ⟨r, hr, decide_eq_true hhash⟩)
      | applyTriage op =>
          simp only [runOperation] at hrun
          split at hrun
          · cases hrun
          · rename_i hvalid
            split at hrun
            · cases hrun
            · rename_i existing hexisting
              split at hrun
              · cases hrun
              · rename_i hversion
                split at hrun
                · rename_i hnext
                  obtain ⟨a, happended, hread, hdone, -⟩ := readBack_ok hrun
                  obtain ⟨result, t⟩ := done
                  dsimp only at hdone
                  subst hdone
                  exact .triaged (eq_true_of_ne_false hvalid) hexisting (not_not.mp hversion)
                    hnext happended hread
                · cases hrun
      | recordTouchDecision op =>
          simp only [runOperation] at hrun
          split at hrun
          · cases hrun
          · rename_i hvalid
            cases hdecision : s.commitDecision sha256 op with
            | error code =>
                rw [hdecision] at hrun
                cases hrun
            | ok t =>
                rw [hdecision] at hrun
                cases hrun
                exact .decided (eq_true_of_ne_false hvalid) (commitDecision_ok hdecision)

end Store

end Hepha.Debt
