import Hepha.Debt.Link

/-!
# The history of a record

A commit appends at most one event to one record, and reads the record back.
`commit_change` says what the record is afterwards: a link changes neither its
state nor its pointers, and a triage leaves the record that the operation came
with.
-/

namespace Hepha.Debt

variable {sha256 : JsString → HexDigest} {s t : Store}

/-! ## Rows and records -/

namespace Store

theorem SameRows.eventRows {id : JsString} (h : SameRows s t id) :
    t.eventRows id = s.eventRows id := by
  rw [Store.eventRows, h.events, Store.eventRows]

/-- The store is legible and every event belongs to a record. -/
structure Rooted (sha256 : JsString → HexDigest) (s : Store) : Prop where
  legible : Legible sha256 s
  events : ∀ row ∈ s.events, ∃ root ∈ s.debts, root.recordId = row.recordId

/-- A record identifier names one record, whatever the project. -/
theorem Legible.unique (h : Legible sha256 s) {projectId projectId' id : JsString}
    {a a' : Aggregate} (ha : s.getAggregate sha256 projectId id = some a)
    (ha' : s.getAggregate sha256 projectId' id = some a') : a = a' := by
  obtain ⟨root, locations, observations, hreading, hreconstruct⟩ := getAggregate_eq_some.1 ha
  obtain ⟨root', locations', observations', hreading', hreconstruct'⟩ :=
    getAggregate_eq_some.1 ha'
  obtain ⟨hroot, -, hrecord⟩ := debtRow_some hreading.found
  obtain ⟨hroot', -, hrecord'⟩ := debtRow_some hreading'.found
  have heq : root = root' :=
    List.inj_on_of_nodup_map h.nodup hroot hroot' (hrecord.trans hrecord'.symm)
  subst heq
  have hlocations := hreading.readLocations
  rw [hreading'.readLocations] at hlocations
  cases hlocations
  have hobservations := hreading.readObservations
  rw [hreading'.readObservations] at hobservations
  cases hobservations
  exact Option.some.inj (hreconstruct.symm.trans hreconstruct')

theorem getAggregate_root {projectId id : JsString} {a : Aggregate}
    (h : s.getAggregate sha256 projectId id = some a) : ∃ root ∈ s.debts, root.recordId = id := by
  obtain ⟨root, _, _, hreading, _⟩ := getAggregate_eq_some.1 h
  obtain ⟨hroot, -, hrecord⟩ := debtRow_some hreading.found
  exact ⟨root, hroot, hrecord⟩

theorem insertCreate_events {op : CreateOperation} (h : s.insertCreate op = some t) :
    t.events = s.events ++
      [⟨op.recordId, 0, .createPending, .pendingTriage, op.createdAt, none⟩] := by
  simp only [insertCreate, Option.bind_eq_bind, Option.bind_eq_some_iff] at h
  obtain ⟨_, _, locations, _, u, hobservation, hevent⟩ := h
  obtain ⟨-, rfl⟩ := insertObservation_eq_some.1 hobservation
  obtain ⟨-, rfl⟩ := insertEvent_eq_some.1 hevent
  rfl

/-! ## Reading back -/

variable {a existing : Aggregate}

/-- A new record waits for triage and points at no other. -/
theorem getAggregate_created {op : CreateOperation} (h : Rooted sha256 s)
    (hinsert : s.insertCreate op = some t)
    (hread : t.getAggregate sha256 op.projectId op.recordId = some a) :
    s.eventRows op.recordId = [] ∧
      t.eventRows op.recordId =
        [⟨op.recordId, 0, .createPending, .pendingTriage, op.createdAt, none⟩] ∧
      a.eventVersion = 0 ∧ a.state = .pendingTriage ∧ ∀ id, ¬ a.PointsAt id := by
  obtain ⟨hnew, -⟩ := insertCreate_debts hinsert
  have hnone : s.eventRows op.recordId = [] := by
    rw [List.eq_nil_iff_forall_not_mem]
    intro row hrow
    obtain ⟨hrow, hrecord⟩ := mem_eventRows.1 hrow
    obtain ⟨root, hroot, hroot'⟩ := h.events row hrow
    exact hnew root hroot (hroot'.trans hrecord)
  have hrows : t.eventRows op.recordId =
      [⟨op.recordId, 0, .createPending, .pendingTriage, op.createdAt, none⟩] := by
    have happend := eventRows_append _ (insertCreate_events hinsert) (by
      intro r hr
      have hempty : r ∈ s.eventRows op.recordId := hr
      rw [hnone] at hempty
      cases hempty)
    refine happend.trans ?_
    rw [hnone]
    rfl
  obtain ⟨root, locations, observations, -, hreconstruct⟩ := getAggregate_eq_some.1 hread
  rw [hrows] at hreconstruct
  obtain ⟨-, linkCount, hreplay, -⟩ := reconstruct_eq_some.1 hreconstruct
  obtain ⟨acc, hacc, hstep⟩ := replay_concat.1 (show replay _ _ ([] ++ [_]) = _ from hreplay)
  rw [replay_nil, Option.some.injEq] at hacc
  subst hacc
  obtain ⟨-, -, hcases⟩ := replayEvent_eq_some hstep
  rcases hcases with ⟨-, -, -, heq⟩ | ⟨hzero, -⟩ | ⟨hzero, -⟩
  · have hbase : a = base root locations observations := congrArg Prod.fst heq
    rw [hbase]
    exact ⟨hnone, hrows, rfl, rfl, fun id hid => by rcases hid with hid | hid <;> cases hid⟩
  · exact absurd rfl hzero
  · exact absurd rfl hzero

/-- A link changes neither the state of a record nor its pointers. -/
theorem getAggregate_linked {op : LinkOperation}
    (hexisting : s.getAggregate sha256 op.projectId op.recordId = some existing)
    (hinsert : s.insertLink op existing = some t)
    (hread : t.getAggregate sha256 op.projectId op.recordId = some a) :
    t.eventRows op.recordId = s.eventRows op.recordId ++ [op.eventRow existing] ∧
      a.eventVersion = existing.eventVersion + 1 ∧ a.projectId = existing.projectId ∧
      a.state = existing.state ∧ ∀ id, a.PointsAt id ↔ existing.PointsAt id := by
  have huntriaged := untriaged_of_link hexisting hinsert hread
  obtain ⟨-, hproject, -, hversion, -⟩ := getAggregate_spec hexisting
  obtain ⟨-, hproject', -, hversion', -⟩ := getAggregate_spec hread
  obtain ⟨root, locations, observations, -, hreconstruct⟩ := getAggregate_eq_some.1 hexisting
  obtain ⟨root', locations', observations', -, hreconstruct'⟩ := getAggregate_eq_some.1 hread
  obtain ⟨-, -, ht⟩ := insertLink_eq_some.1 hinsert
  have hrows : t.eventRows op.recordId =
      s.eventRows op.recordId ++ [op.eventRow existing] :=
    eventRows_append (op.eventRow existing) (by rw [ht]) fun row hrow =>
      Nat.le_succ_of_le (eventVersion_le hexisting hrow)
  have hnext : a.eventVersion = existing.eventVersion + 1 := by
    rw [hrows, List.length_append, List.length_singleton] at hversion'
    omega
  rw [hrows] at hreconstruct'
  obtain ⟨-, linkCount, hreplay, -⟩ := reconstruct_eq_some.1 hreconstruct
  obtain ⟨-, linkCount', hreplay', -⟩ := reconstruct_eq_some.1 hreconstruct'
  obtain ⟨⟨current, count⟩, hcurrent, hstep⟩ := replay_concat.1 hreplay'
  have hkinds : ∀ row ∈ s.eventRows op.recordId, row.eventKind ≠ .triage := by
    intro row hrow
    obtain ⟨hrow, hrecord⟩ := mem_eventRows.1 hrow
    exact huntriaged row hrow hrecord
  obtain ⟨hold, -, -⟩ := replay_untriaged (base root locations observations) hreplay rfl rfl rfl
    rfl hkinds
  obtain ⟨hnew, -, -⟩ := replay_untriaged (base root' locations' observations') hcurrent rfl rfl
    rfl rfl hkinds
  obtain ⟨-, -, hcases⟩ := replayEvent_eq_some hstep
  rcases hcases with ⟨-, hkind, -⟩ | ⟨-, -, -, -, heq⟩ | ⟨-, hkind, -⟩
  · cases hkind
  · have ha : a = current.atVersion (s.eventRows op.recordId).length := congrArg Prod.fst heq
    refine ⟨hrows, hnext, hproject'.trans hproject.symm, ?_, ?_⟩
    · rw [ha, hold, hnew]
      rfl
    · intro id
      rw [ha, hold, hnew]
      exact Iff.rfl
  · cases hkind

/-- A triage leaves the record it came with. -/
theorem getAggregate_triaged {op : TriageCommit}
    (hexisting : s.getAggregate sha256 op.projectId op.recordId = some existing)
    (hnext : op.nextAggregate.observationReferences = existing.observationReferences)
    (hinsert : s.insertTriage op existing = some t)
    (hread : t.getAggregate sha256 op.projectId op.recordId = some a) :
    t.eventRows op.recordId = s.eventRows op.recordId ++ [⟨op.recordId, existing.eventVersion + 1,
        .triage, op.nextAggregate.state, eventOccurredAt op.event,
        some (op.event, op.nextAggregate)⟩] ∧ a = op.nextAggregate := by
  obtain ⟨hrecord, -, -, -, -⟩ := getAggregate_spec hexisting
  obtain ⟨-, ht⟩ := insertEvent_eq_some.1 hinsert
  rw [hrecord] at ht
  have hrows : t.eventRows op.recordId = s.eventRows op.recordId ++ [⟨op.recordId,
      existing.eventVersion + 1, .triage, op.nextAggregate.state, eventOccurredAt op.event,
      some (op.event, op.nextAggregate)⟩] := by
    refine eventRows_append (⟨op.recordId, existing.eventVersion + 1, .triage,
      op.nextAggregate.state, eventOccurredAt op.event, some (op.event, op.nextAggregate)⟩)
      (by rw [ht]) ?_
    intro row hrow
    exact Nat.le_succ_of_le (eventVersion_le hexisting hrow)
  refine ⟨hrows, ?_⟩
  obtain ⟨root, locations, observations, hreading, hreconstruct⟩ :=
    getAggregate_eq_some.1 hexisting
  obtain ⟨root', locations', observations', hreading', hreconstruct'⟩ :=
    getAggregate_eq_some.1 hread
  have hobservations : observations' = observations := by
    have hsame : t.readObservations op.recordId = s.readObservations op.recordId := by
      rw [ht]
      rfl
    have hread' := hreading'.readObservations
    rw [hsame, hreading.readObservations] at hread'
    exact (Option.some.inj hread').symm
  have hexistingObservations : existing.observationReferences = observations :=
    (reconstruct_follows rfl hreconstruct).observations
  rw [hrows] at hreconstruct'
  obtain ⟨-, linkCount', hreplay', -⟩ := reconstruct_eq_some.1 hreconstruct'
  obtain ⟨acc, -, hstep⟩ := replay_concat.1 hreplay'
  obtain ⟨-, -, hcases⟩ := replayEvent_eq_some hstep
  rcases hcases with ⟨-, hkind, -⟩ | ⟨-, hkind, -⟩ | ⟨-, -, event, after, hpayload, -, -, -, -, -,
    -, heq⟩
  · cases hkind
  · cases hkind
  · cases hpayload
    have ha : a = { op.nextAggregate with observationReferences := observations' } :=
      congrArg Prod.fst heq
    rw [ha, hobservations, ← hexistingObservations, ← hnext]

/-! ## What a commit changes -/

/-- One event was appended to one record, which is read as a new one now. -/
structure Appended (sha256 : JsString → HexDigest) (s t : Store) (row : EventRow)
    (after : Aggregate) : Prop where
  frame : ∀ other, other ≠ row.recordId → SameRows s t other
  events : t.eventRows row.recordId = s.eventRows row.recordId ++ [row]
  read : ∃ projectId, t.getAggregate sha256 projectId row.recordId = some after

/-- What an operation can have changed in the readings of the records. -/
inductive Change (sha256 : JsString → HexDigest) (s : Store) : Operation → Store → Prop
  | same {op : Operation} {t : Store} : (∀ id, SameRows s t id) → Change sha256 s op t
  | created {op : CreateOperation} {t : Store} {row : EventRow} {after : Aggregate} :
      Appended sha256 s t row after →
      (∀ projectId, s.getAggregate sha256 projectId row.recordId = none) →
      s.eventRows row.recordId = [] →
      row.eventKind = .createPending ∧ row.eventVersion = 0 ∧ row.state = .pendingTriage →
      after.state = .pendingTriage → (∀ id, ¬ after.PointsAt id) →
      Change sha256 s (.createPending op) t
  | linked {op : LinkOperation} {t : Store} {row : EventRow} {existing after : Aggregate} :
      Appended sha256 s t row after →
      (∃ projectId, s.getAggregate sha256 projectId row.recordId = some existing) →
      row.eventKind = .linkObservation ∧ row.eventVersion = existing.eventVersion + 1 ∧
        row.state = existing.state →
      after.eventVersion = existing.eventVersion + 1 ∧ after.projectId = existing.projectId ∧
        after.state = existing.state ∧ (∀ id, after.PointsAt id ↔ existing.PointsAt id) →
      Change sha256 s (.linkObservation op) t
  | triaged {op : TriageCommit} {t : Store} {row : EventRow} {existing : Aggregate} :
      Appended sha256 s t row op.nextAggregate →
      s.getAggregate sha256 op.projectId op.recordId = some existing →
      existing.eventVersion = op.expectedVersion →
      op.nextAggregate.projectId = existing.projectId ∧
        op.nextAggregate.eventVersion = existing.eventVersion + 1 →
      row.recordId = op.recordId ∧ row.eventKind = .triage ∧
        row.eventVersion = existing.eventVersion + 1 ∧ row.state = op.nextAggregate.state ∧
        row.payload = some (op.event, op.nextAggregate) →
      Change sha256 s (.applyTriage op) t

/-- A triage that was committed is read back as it came. -/
theorem Effect.triaged_appended {op : TriageCommit} {a : Aggregate}
    (h : Effect sha256 s (.applyTriage op) (.committed a) t) :
    ∃ row existing, Appended sha256 s t row op.nextAggregate ∧
      s.getAggregate sha256 op.projectId op.recordId = some existing ∧
      existing.eventVersion = op.expectedVersion ∧
      (op.nextAggregate.projectId = existing.projectId ∧
        op.nextAggregate.eventVersion = existing.eventVersion + 1) ∧
      row.recordId = op.recordId ∧ row.eventKind = .triage ∧
        row.eventVersion = existing.eventVersion + 1 ∧ row.state = op.nextAggregate.state ∧
        row.payload = some (op.event, op.nextAggregate) := by
  cases h with
  | @triaged _ existing _ _ _ hexisting hversion hnext hinsert hread =>
      obtain ⟨hrecord, -⟩ := getAggregate_spec hexisting
      obtain ⟨hrows, rfl⟩ := getAggregate_triaged hexisting hnext.2.2.2 hinsert hread
      refine ⟨⟨op.recordId, existing.eventVersion + 1, .triage, op.nextAggregate.state,
        eventOccurredAt op.event, some (op.event, op.nextAggregate)⟩, existing,
        ⟨fun other hne => insertTriage_frame hinsert ?_, hrows, ⟨_, hread⟩⟩, hexisting, hversion,
        ⟨hnext.1, hnext.2.2.1⟩, rfl, rfl, rfl, rfl, rfl⟩
      rwa [hrecord]

/-- **Every commit has one of these changes.** -/
theorem commit_change (h : Rooted sha256 s) {op : Operation} {result : CommitResult}
    (heffect : Effect sha256 s op result t) : Change sha256 s op t := by
  cases heffect with
  | refused code => exact .same fun id => SameRows.refl id
  | decided _ hdecision => exact .same hdecision.sameRows
  | relinked _ _ => exact .same fun id => SameRows.refl id
  | @created op _ a _ hnone hinsert hread =>
      obtain ⟨hempty, hrows, -, hstate, hpointers⟩ := getAggregate_created h hinsert hread
      obtain ⟨hnew, -⟩ := insertCreate_debts hinsert
      have happended : Appended sha256 s t
          ⟨op.recordId, 0, .createPending, .pendingTriage, op.createdAt, none⟩ a := by
        refine ⟨fun other hne => insertCreate_frame hinsert hne, ?_, ⟨_, hread⟩⟩
        rw [hrows, hempty]
        rfl
      refine .created happended ?_ hempty ⟨rfl, rfl, rfl⟩ hstate hpointers
      intro projectId
      cases hread' : s.getAggregate sha256 projectId op.recordId with
      | none => rfl
      | some a =>
          obtain ⟨root, hroot, hrecord⟩ := getAggregate_root hread'
          exact absurd hrecord (hnew root hroot)
  | @linked op existing _ a _ hexisting _ _ hinsert hread =>
      obtain ⟨hrows, hafter⟩ := getAggregate_linked hexisting hinsert hread
      have happended : Appended sha256 s t (op.eventRow existing) a :=
        ⟨fun other hne => insertLink_frame hinsert hne, hrows, ⟨_, hread⟩⟩
      exact .linked happended ⟨_, hexisting⟩ ⟨rfl, rfl, rfl⟩ hafter
  | triaged hvalid hexisting hversion hnext hinsert hread =>
      obtain ⟨row, existing, happended, hfound, hcurrent, hafter, hrow⟩ :=
        Effect.triaged_appended (.triaged hvalid hexisting hversion hnext hinsert hread)
      exact .triaged happended hfound hcurrent hafter hrow

theorem Effect.rooted (h : Rooted sha256 s) {op : Operation} {result : CommitResult}
    (heffect : Effect sha256 s op result t) : Rooted sha256 t := by
  refine ⟨h.legible.effect heffect, ?_⟩
  have happend : ∀ {row : EventRow}, t.debts = s.debts → t.events = s.events ++ [row] →
      (∃ root ∈ s.debts, root.recordId = row.recordId) →
      ∀ r ∈ t.events, ∃ root ∈ t.debts, root.recordId = r.recordId := by
    intro row hdebts hevents hroot r hr
    rw [hevents] at hr
    rw [hdebts]
    rcases List.mem_append.mp hr with hr | hr
    · exact h.events r hr
    · rw [List.mem_singleton.mp hr]
      exact hroot
  cases heffect with
  | refused code => exact h.events
  | decided _ hdecision =>
      rw [hdecision.events, hdecision.debts]
      exact h.events
  | relinked _ _ => exact h.events
  | created _ _ hinsert _ =>
      obtain ⟨-, root, hdebts, hrecord, -⟩ := insertCreate_debts hinsert
      intro r hr
      rw [insertCreate_events hinsert] at hr
      rw [hdebts]
      rcases List.mem_append.mp hr with hr | hr
      · obtain ⟨found, hfound, hid⟩ := h.events r hr
        exact ⟨found, List.mem_append_left _ hfound, hid⟩
      · rw [List.mem_singleton.mp hr]
        exact ⟨root, by simp, hrecord⟩
  | linked _ hexisting _ _ hinsert _ =>
      obtain ⟨-, -, ht⟩ := insertLink_eq_some.1 hinsert
      have hroot := getAggregate_root hexisting
      exact happend (insertLink_debts hinsert) (by rw [ht]) hroot
  | triaged _ hexisting _ _ hinsert _ =>
      obtain ⟨-, ht⟩ := insertEvent_eq_some.1 hinsert
      refine happend (insertTriage_debts hinsert) (by rw [ht]) ?_
      rw [(getAggregate_spec hexisting).1]
      exact getAggregate_root hexisting

theorem Rooted.empty : Rooted sha256 Store.empty :=
  ⟨⟨List.nodup_nil, fun _ h => absurd h List.not_mem_nil⟩, fun _ h => absurd h List.not_mem_nil⟩

/-! ## Later stores -/

variable {op : Operation}

/-- A record as it was read once. -/
def Snapshot (sha256 : JsString → HexDigest) (s : Store) (a : Aggregate) : Prop :=
  ∃ current, s.getAggregate sha256 a.projectId a.recordId = some current ∧
    current.projectId = a.projectId ∧ (current = a ∨ a.eventVersion < current.eventVersion)

theorem snapshot_getAggregate {projectId id : JsString} {a : Aggregate}
    (h : s.getAggregate sha256 projectId id = some a) : s.Snapshot sha256 a := by
  obtain ⟨hrecord, -, -, -, hagain⟩ := getAggregate_spec h
  exact ⟨a, by rw [hrecord]; exact hagain, rfl, .inl rfl⟩

/-- The appended record is read under its project. -/
theorem Appended.getAggregate {row : EventRow} {after : Aggregate}
    (h : Appended sha256 s t row after) :
    t.getAggregate sha256 after.projectId row.recordId = some after := by
  obtain ⟨projectId, hread⟩ := h.read
  exact (getAggregate_spec hread).2.2.2.2

/-- A record stays in its project, and a changed one has a later version. -/
theorem Change.advance (h : Rooted sha256 s) (hchange : Change sha256 s op t)
    {projectId id : JsString} {a : Aggregate}
    (ha : s.getAggregate sha256 projectId id = some a) :
    ∃ b, t.getAggregate sha256 a.projectId id = some b ∧ b.projectId = a.projectId ∧
      (b = a ∨ a.eventVersion < b.eventVersion) := by
  have hagain : s.getAggregate sha256 a.projectId id = some a := (getAggregate_spec ha).2.2.2.2
  have hframe : SameRows s t id → ∃ b, t.getAggregate sha256 a.projectId id = some b ∧
      b.projectId = a.projectId ∧ (b = a ∨ a.eventVersion < b.eventVersion) := by
    intro hsame
    exact ⟨a, by rw [hsame.getAggregate]; exact hagain, rfl, .inl rfl⟩
  cases hchange with
  | same hsame => exact hframe (hsame id)
  | created happended hnone _ _ _ _ =>
      refine hframe (happended.frame id ?_)
      rintro rfl
      rw [hnone] at ha
      cases ha
  | @linked _ _ row existing after happended hexisting _ hafter =>
      by_cases hid : id = row.recordId
      · subst hid
        obtain ⟨projectId', hexisting⟩ := hexisting
        have heq : existing = a := h.legible.unique hexisting ha
        subst heq
        refine ⟨after, ?_, hafter.2.1, .inr (by omega)⟩
        rw [← hafter.2.1]
        exact happended.getAggregate
      · exact hframe (happended.frame id hid)
  | @triaged c _ row existing happended hexisting _ hafter hrow =>
      by_cases hid : id = row.recordId
      · subst hid
        rw [← hrow.1] at hexisting
        have heq : existing = a := h.legible.unique hexisting ha
        subst heq
        refine ⟨c.nextAggregate, ?_, hafter.1, .inr (by omega)⟩
        rw [← hafter.1]
        exact happended.getAggregate
      · exact hframe (happended.frame id hid)

theorem Snapshot.advance (h : Rooted sha256 s) (hchange : Change sha256 s op t) {a : Aggregate}
    (ha : Snapshot sha256 s a) : Snapshot sha256 t a := by
  obtain ⟨current, hcurrent, hproject, hversion⟩ := ha
  obtain ⟨next, hnext, hproject', hversion'⟩ := hchange.advance h hcurrent
  rw [hproject] at hnext hproject'
  refine ⟨next, hnext, hproject', ?_⟩
  rcases hversion' with rfl | hlater
  · exact hversion
  · rcases hversion with rfl | hlater'
    · exact .inr hlater
    · exact .inr (by omega)

end Store

end Hepha.Debt
