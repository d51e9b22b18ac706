import Hepha.Debt.Effect
import Hepha.Debt.Policy

/-!
# Linking an observation

A record stays readable whatever is committed, since an operation is committed
only after its record was read back.  That is also what stops some links: the
replay compares the payload of every earlier triage with the observations that
are linked now, so no observation can be linked any more once a record has been
triaged.  `link_committed_iff` says exactly which links are committed, and
appended.
-/

namespace Hepha.Debt

open JsString (toWellFormed)

variable {sha256 : JsString → HexDigest} {s t : Store}

/-! ## Reachable stores -/

/-- The stores that sequences of operations lead to. -/
inductive Reachable (sha256 : JsString → HexDigest) : Store → Prop
  | empty : Reachable sha256 Store.empty
  | commit {s : Store} (verifyReadBack : Aggregate → Bool) (op : Operation) :
      Reachable sha256 s → Reachable sha256 (s.commitOperation sha256 verifyReadBack op).2

namespace Store

theorem insertLink_debts {op : LinkOperation} {existing : Aggregate}
    (h : s.insertLink op existing = some t) : t.debts = s.debts := by
  obtain ⟨u, hobservation, hevent⟩ := Option.bind_eq_some_iff.mp h
  obtain ⟨-, rfl⟩ := insertObservation_eq_some.1 hobservation
  obtain ⟨-, rfl⟩ := insertEvent_eq_some.1 hevent
  rfl

theorem insertTriage_debts {op : TriageCommit} {existing : Aggregate}
    (h : s.insertTriage op existing = some t) : t.debts = s.debts := by
  obtain ⟨-, rfl⟩ := insertEvent_eq_some.1 h
  rfl

theorem insertCreate_debts {op : CreateOperation} (h : s.insertCreate op = some t) :
    (∀ row ∈ s.debts, row.recordId ≠ op.recordId) ∧
      ∃ root, t.debts = s.debts ++ [root] ∧ root.recordId = op.recordId ∧
        root.projectId = toWellFormed op.projectId := by
  simp only [insertCreate, Option.bind_eq_bind, Option.bind_eq_some_iff] at h
  obtain ⟨_, hguard, locations, _, u, hobservation, hevent⟩ := h
  obtain ⟨-, rfl⟩ := insertObservation_eq_some.1 hobservation
  obtain ⟨-, rfl⟩ := insertEvent_eq_some.1 hevent
  refine ⟨?_, _, rfl, rfl, rfl⟩
  simpa [guard] using hguard

/-- The identifiers are different and every record can be read back. -/
structure Legible (sha256 : JsString → HexDigest) (s : Store) : Prop where
  nodup : (s.debts.map DebtRow.recordId).Nodup
  read : ∀ root ∈ s.debts, ∃ a, s.getAggregate sha256 root.projectId root.recordId = some a

/-- Rows appended to a record that is then read back. -/
theorem Legible.append (h : Legible sha256 s) {projectId recordId : JsString}
    {a existing : Aggregate}
    (hdebts : t.debts = s.debts)
    (hexisting : s.getAggregate sha256 projectId recordId = some existing)
    (hread : t.getAggregate sha256 projectId recordId = some a)
    (hframe : ∀ other, other ≠ recordId → SameRows s t other) : Legible sha256 t := by
  refine ⟨by rw [hdebts]; exact h.nodup, ?_⟩
  intro root hroot
  rw [hdebts] at hroot
  by_cases hid : root.recordId = recordId
  · obtain ⟨found, _, _, hreading, _⟩ := getAggregate_eq_some.1 hexisting
    obtain ⟨hfound, hproject, hrecord⟩ := debtRow_some hreading.found
    have heq : root = found :=
      List.inj_on_of_nodup_map h.nodup hroot hfound (hid.trans hrecord.symm)
    obtain ⟨-, haproject, -, -, hagain⟩ := getAggregate_spec hread
    rw [haproject, ← hproject, ← heq] at hagain
    exact ⟨a, hid ▸ hagain⟩
  · rw [(hframe _ hid).getAggregate]
    exact h.read root hroot

theorem Legible.create (h : Legible sha256 s) {op : CreateOperation} {a : Aggregate}
    (hinsert : s.insertCreate op = some t)
    (hread : t.getAggregate sha256 op.projectId op.recordId = some a) : Legible sha256 t := by
  obtain ⟨hnew, root, hdebts, hrecord, hproject⟩ := insertCreate_debts hinsert
  refine ⟨?_, ?_⟩
  · rw [hdebts, List.map_append, List.map_singleton]
    refine List.nodup_append.mpr ⟨h.nodup, List.nodup_singleton _, ?_⟩
    intro x hx y hy
    obtain ⟨row, hrow, rfl⟩ := List.mem_map.mp hx
    rw [List.mem_singleton] at hy
    rw [hy, hrecord]
    exact hnew row hrow
  · intro row hrow
    rw [hdebts] at hrow
    rcases List.mem_append.mp hrow with hold | hlast
    · rw [(insertCreate_frame hinsert (hnew row hold)).getAggregate]
      exact h.read row hold
    · rw [List.mem_singleton] at hlast
      obtain ⟨-, haproject, -, -, hagain⟩ := getAggregate_spec hread
      rw [haproject, ← hproject, ← hrecord, ← hlast] at hagain
      exact ⟨a, hagain⟩

theorem Legible.effect (h : Legible sha256 s) {op : Operation} {result : CommitResult}
    (heffect : Effect sha256 s op result t) : Legible sha256 t := by
  cases heffect with
  | refused code => exact h
  | decided _ hdecision =>
      refine ⟨by rw [hdecision.debts]; exact h.nodup, ?_⟩
      intro root hroot
      rw [(hdecision.sameRows root.recordId).getAggregate]
      exact h.read root (hdecision.debts ▸ hroot)
  | relinked _ _ => exact h
  | created _ _ hinsert hread => exact h.create hinsert hread
  | linked _ hexisting _ _ hinsert hread =>
      exact h.append (insertLink_debts hinsert) hexisting hread fun _ hne =>
        insertLink_frame hinsert hne
  | triaged _ hexisting _ _ hinsert hread =>
      refine h.append (insertTriage_debts hinsert) hexisting hread fun _ hne =>
        insertTriage_frame hinsert ?_
      rwa [(getAggregate_spec hexisting).1]

/-- **Every record of a reachable store can be read back.** -/
theorem Reachable.legible (h : Reachable sha256 s) : Legible sha256 s := by
  induction h with
  | empty => exact ⟨List.nodup_nil, fun _ h => by cases h⟩
  | commit verifyReadBack op _ ih => exact ih.effect (commit_effect op)

end Store

/-! ## Links -/

/-- The rows that a link inserts. -/
def LinkOperation.observationRow (op : LinkOperation) : ObservationRow :=
  ⟨op.recordId, op.observation.contentHash, toWellFormed op.observation.artifactId,
    toWellFormed op.observation.relativePath, op.linkedAt⟩

def LinkOperation.eventRow (op : LinkOperation) (existing : Aggregate) : EventRow :=
  ⟨op.recordId, existing.eventVersion + 1, .linkObservation, existing.state, op.linkedAt, none⟩

/-- **When a link is committed and appended.** -/
structure Linkable (s : Store) (op : LinkOperation) : Prop where
  /-- No triage of the record has been committed. -/
  untriaged : ∀ row ∈ s.events, row.recordId = op.recordId → row.eventKind ≠ .triage
  /-- The store can keep the texts of the observation. -/
  wellFormed : toWellFormed op.observation.artifactId = op.observation.artifactId ∧
    toWellFormed op.observation.relativePath = op.observation.relativePath
  /-- The artifact is not linked under another hash. -/
  newArtifact : ∀ row ∈ s.observations, row.recordId = op.recordId →
    ¬(row.artifactId = op.observation.artifactId ∧
      row.relativePath = op.observation.relativePath)
  /-- Read by `linked_at` and `content_hash`, as texts, the link comes last. -/
  last : ∀ row ∈ s.observations, row.recordId = op.recordId → row.key ≤ op.observationRow.key

/-- The record with one more observation. -/
def Aggregate.link (a : Aggregate) (observation : ArtifactReference) : Aggregate :=
  { a with
    eventVersion := a.eventVersion + 1
    observationReferences := a.observationReferences ++ [observation] }

/-- The record at a version. -/
def Aggregate.atVersion (a : Aggregate) (version : ℕ) : Aggregate :=
  { a with eventVersion := version }

theorem Aggregate.atVersion_self {a : Aggregate} {version : ℕ} (h : a.eventVersion = version) :
    a.atVersion version = a := by
  subst h
  rfl

theorem replayEvent_link {base current : Aggregate} {row : EventRow} {index count : ℕ}
    (hindex : index ≠ 0)
    (hrow : row.recordId = base.recordId ∧ row.eventVersion = index ∧ utc row.occurredAt = true)
    (hkind : row.eventKind = .linkObservation) (hpayload : row.payload = none)
    (hstate : row.state = current.state) :
    replayEvent base (current, count) (row, index) = some (current.atVersion index, count + 1) := by
  simp only [replayEvent]
  rw [if_pos hrow, if_neg hindex]
  simp only [hkind, hpayload]
  rw [if_pos hstate]
  rfl

/-- A turn of the loop over an event that is no triage depends on the record
only through its identifier and its state. -/
theorem replayEvent_untriaged {base other current next : Aggregate} {row : EventRow}
    {index count count' : ℕ} (hrecord : other.recordId = base.recordId)
    (hstate : other.state = current.state) (hrow : row.eventKind ≠ .triage)
    (h : replayEvent base (current, count) (row, index) = some (next, count')) :
    next.state = current.state ∧
      replayEvent other (other.atVersion (index - 1), count) (row, index) =
        some (other.atVersion index, count') ∧
      (index = 0 ∧ next = current ∧ count' = count ∨
        index ≠ 0 ∧ next = current.atVersion index ∧ count' = count + 1) := by
  obtain ⟨hid, hindex, hcases⟩ := replayEvent_eq_some h
  simp only [replayEvent] at h ⊢
  rw [hrecord]
  split at h
  · rename_i hchecks
    rw [if_pos hchecks]
    rcases hcases with ⟨rfl, hkind, hpending, heq⟩ | ⟨hzero, hkind, hpayload, hcurrent, heq⟩ |
      ⟨-, hkind, -⟩
    · cases heq
      rw [if_pos rfl] at h ⊢
      split at h
      · rename_i hcreate
        rw [if_pos hcreate]
        exact ⟨rfl, rfl, .inl ⟨rfl, rfl, rfl⟩⟩
      · cases h
    · cases heq
      have hkept : row.state = (other.atVersion (index - 1)).state := hcurrent.trans hstate.symm
      refine ⟨rfl, ?_, .inr ⟨hzero, rfl, rfl⟩⟩
      rw [if_neg hzero]
      simp only [hkind, hpayload]
      rw [if_pos hkept]
      rfl
    · exact absurd hkind hrow
  · cases h

/-- Without a triage a replay only counts, whatever is linked. -/
theorem replay_untriaged {base : Aggregate} (other : Aggregate) {events : List EventRow}
    {a : Aggregate} {n : ℕ}
    (h : replay (replayEvent base) (base, 0) events = some (a, n))
    (hstate : other.state = base.state) (hrecord : other.recordId = base.recordId)
    (hversion : base.eventVersion = 0) (hother : other.eventVersion = 0)
    (huntriaged : ∀ row ∈ events, row.eventKind ≠ .triage) :
    a = base.atVersion (events.length - 1) ∧ n = events.length - 1 ∧
      replay (replayEvent other) (other, 0) events =
        some (other.atVersion (events.length - 1), n) := by
  induction events using List.reverseRecOn generalizing a n with
  | nil =>
      cases h
      rw [List.length_nil, Aggregate.atVersion_self hversion, Aggregate.atVersion_self hother]
      exact ⟨rfl, rfl, rfl⟩
  | append_singleton events row ih =>
      obtain ⟨⟨current, count⟩, hreplay, hstep⟩ := replay_concat.1 h
      obtain ⟨rfl, rfl, hreplay'⟩ := ih hreplay fun r hr =>
        huntriaged r (List.mem_append_left _ hr)
      have hcurrent : other.state = (base.atVersion (events.length - 1)).state := hstate
      obtain ⟨-, hstep', hcases⟩ := replayEvent_untriaged hrecord hcurrent
        (huntriaged row (by simp)) hstep
      have hlength : (events ++ [row]).length - 1 = events.length := by simp
      rw [hlength]
      refine ⟨?_, ?_, replay_concat.2 ⟨_, hreplay', hstep'⟩⟩
      · rcases hcases with ⟨hzero, rfl, -⟩ | ⟨-, rfl, -⟩
        · rw [hzero]
        · rfl
      · rcases hcases with ⟨hzero, -, rfl⟩ | ⟨hzero, -, rfl⟩ <;> omega

/-! ## The rows of a link -/

namespace Store

variable {op : LinkOperation} {existing a : Aggregate} {root : DebtRow} {locations : List Location}
  {observations : List ArtifactReference}

theorem mem_observationRows {recordId : JsString} {row : ObservationRow} :
    row ∈ s.observationRows recordId ↔ row ∈ s.observations ∧ row.recordId = recordId := by
  simp [observationRows]

theorem mem_eventRows {recordId : JsString} {row : EventRow} :
    row ∈ s.eventRows recordId ↔ row ∈ s.events ∧ row.recordId = recordId := by
  simp [eventRows]

/-- A list of observations that was read consists of the rows, in order. -/
theorem readObservations_eq_some {recordId : JsString} :
    s.readObservations recordId = some observations ↔
      observations = (s.observationRows recordId).map ObservationRow.reference ∧
      (∀ row ∈ s.observationRows recordId, utc row.linkedAt = true) ∧
      (∀ r ∈ observations, r.valid .debtObservation = true) ∧ 0 < observations.length ∧
      (observations.map fun r => r.contentHash ++ 0 :: (r.artifactId ++ 0 ::
        r.relativePath)).Nodup := by
  simp only [readObservations]
  constructor
  · intro h
    split at h
    · rename_i hchecks
      cases h
      simp only [Bool.and_eq_true, List.all_eq_true, decide_eq_true_eq,
        hasUniqueValues_iff] at hchecks
      exact ⟨rfl, hchecks.1.1.1, hchecks.1.1.2, hchecks.1.2, hchecks.2⟩
    · cases h
  · rintro ⟨rfl, hutc, hvalid, hlength, hnodup⟩
    rw [if_pos]
    simp only [Bool.and_eq_true, List.all_eq_true, decide_eq_true_eq, hasUniqueValues_iff]
    exact ⟨⟨⟨hutc, hvalid⟩, hlength⟩, hnodup⟩

/-- A link inserts an observation and an event. -/
theorem insertLink_eq_some :
    s.insertLink op existing = some t ↔
      (∀ r ∈ s.observations, r.recordId = op.recordId →
        r.contentHash ≠ op.observation.contentHash ∧
        ¬(r.artifactId = toWellFormed op.observation.artifactId ∧
          r.relativePath = toWellFormed op.observation.relativePath)) ∧
      (∀ r ∈ s.events, r.recordId = op.recordId → r.eventVersion ≠ existing.eventVersion + 1) ∧
      t = { s with
        observations := s.observations ++ [op.observationRow]
        events := s.events ++ [op.eventRow existing] } := by
  simp only [insertLink, Option.bind_eq_bind, Option.bind_eq_some_iff, insertObservation_eq_some,
    insertEvent_eq_some]
  constructor
  · rintro ⟨u, ⟨hnew, rfl⟩, hversion, rfl⟩
    exact ⟨hnew, hversion, rfl⟩
  · rintro ⟨hnew, hversion, rfl⟩
    exact ⟨_, ⟨hnew, rfl⟩, hversion, rfl⟩

/-- The versions of a record that can be read have no gap. -/
theorem eventVersion_le {projectId recordId : JsString}
    (h : s.getAggregate sha256 projectId recordId = some existing) {row : EventRow}
    (hrow : row ∈ s.eventRows recordId) :
    row.eventVersion ≤ existing.eventVersion := by
  obtain ⟨root, locations, observations, -, hreconstruct⟩ := getAggregate_eq_some.1 h
  have hfollows := reconstruct_follows rfl hreconstruct
  obtain ⟨-, -, -, hlength, -⟩ := getAggregate_spec h
  have hmem : row.eventVersion ∈ (s.eventRows recordId).map EventRow.eventVersion :=
    List.mem_map_of_mem hrow
  rw [hfollows.versions, List.mem_range] at hmem
  omega

/-- An event of the latest version comes last. -/
theorem eventRows_append (row : EventRow) (ht : t.events = s.events ++ [row])
    (hlast : ∀ r ∈ s.eventRows row.recordId, r.eventVersion ≤ row.eventVersion) :
    t.eventRows row.recordId = s.eventRows row.recordId ++ [row] := by
  have hfilter : (t.events.filter fun r => r.recordId = row.recordId) =
      (s.events.filter fun r => r.recordId = row.recordId) ++ [row] := by
    rw [ht]
    exact filter_append_self EventRow.recordId row
  rw [eventRows, hfilter, insertionSort_concat, eventRows]
  intro r hr
  exact hlast r (mem_eventRows.2 ⟨(List.mem_filter.mp hr).1,
    of_decide_eq_true (List.mem_filter.mp hr).2⟩)

end Store

/-! ## Committing a link -/

namespace Store

variable {op : LinkOperation} {existing a : Aggregate} {root : DebtRow} {locations : List Location}
  {observations : List ArtifactReference}

/-- The rows of the observations, when the new one comes last. -/
theorem observationRows_link (ht : t.observations = s.observations ++ [op.observationRow])
    (hlast : ∀ row ∈ s.observations, row.recordId = op.recordId → row.key ≤ op.observationRow.key) :
    t.observationRows op.recordId = s.observationRows op.recordId ++ [op.observationRow] := by
  have hfilter : (t.observations.filter fun row => row.recordId = op.recordId) =
      (s.observations.filter fun row => row.recordId = op.recordId) ++ [op.observationRow] := by
    rw [ht]
    exact filter_append_self ObservationRow.recordId op.observationRow
  rw [observationRows, hfilter, insertionSort_concat, observationRows]
  intro row hrow
  exact hlast row (List.mem_filter.mp hrow).1 (of_decide_eq_true (List.mem_filter.mp hrow).2)

/-- An observation whose row is the last one comes after all others. -/
theorem last_of_observationRows {rows : List ObservationRow}
    (ht : t.observations = s.observations ++ [op.observationRow])
    (h : t.observationRows op.recordId = rows ++ [op.observationRow]) :
    ∀ row ∈ s.observations, row.recordId = op.recordId → row.key ≤ op.observationRow.key := by
  intro row hrow hrecord
  have hmem : row ∈ t.observationRows op.recordId :=
    mem_observationRows.2 ⟨by rw [ht]; exact List.mem_append_left _ hrow, hrecord⟩
  have htotal : Std.Total fun r r' : ObservationRow => r.key ≤ r'.key :=
    ⟨fun r r' => Std.Total.total r.key r'.key⟩
  have htrans : IsTrans ObservationRow fun r r' => r.key ≤ r'.key :=
    ⟨fun r r' r'' h h' => le_trans h h'⟩
  have hsorted : (t.observationRows op.recordId).Pairwise fun r r' => r.key ≤ r'.key :=
    List.pairwise_insertionSort _ _
  rw [h] at hmem hsorted
  rcases List.mem_append.mp hmem with hold | hnew
  · exact (List.pairwise_append.mp hsorted).2.2 row hold _ List.mem_cons_self
  · rw [List.mem_singleton.mp hnew]

/-- The observations with a new hash are still different. -/
theorem nodup_references {observation : ArtifactReference}
    (hvalid : ∀ r ∈ observations, r.valid .debtObservation = true)
    (hobservation : observation.valid .debtObservation = true)
    (hnew : ∀ r ∈ observations, r.contentHash ≠ observation.contentHash)
    (hnodup : (observations.map fun r => r.contentHash ++ 0 :: (r.artifactId ++ 0 ::
      r.relativePath)).Nodup) :
    ((observations ++ [observation]).map fun r => r.contentHash ++ 0 :: (r.artifactId ++ 0 ::
      r.relativePath)).Nodup := by
  have hlength : ∀ r : ArtifactReference, r.valid .debtObservation = true →
      r.contentHash.length = 64 := by
    intro r hr
    simp only [ArtifactReference.valid, Bool.and_eq_true, hash] at hr
    simp only [JsString.isHexDigest, Bool.and_eq_true, beq_iff_eq] at hr
    exact hr.1.2.1
  rw [List.map_append, List.map_singleton]
  refine List.nodup_append.mpr ⟨hnodup, List.nodup_singleton _, ?_⟩
  intro x hx y hy heq
  obtain ⟨r, hr, rfl⟩ := List.mem_map.mp hx
  rw [List.mem_singleton.mp hy] at heq
  exact hnew r hr (List.append_inj heq ((hlength r (hvalid r hr)).trans
    (hlength observation hobservation).symm)).1

theorem valid_link (ha : a.valid = true) {observation : ArtifactReference}
    (hobservation : observation.valid .debtObservation = true)
    (hlength : a.observationReferences.length < 128) : (a.link observation).valid = true := by
  simp only [Aggregate.valid, Bool.and_eq_true] at ha ⊢
  obtain ⟨⟨⟨⟨⟨hrest, -⟩, -⟩, hall⟩, hduplicate⟩, hsuperseded⟩ := ha
  refine ⟨⟨⟨⟨⟨hrest, ?_⟩, ?_⟩, ?_⟩, hduplicate⟩, hsuperseded⟩
  · simp [Aggregate.link]
  · simp only [Aggregate.link, List.length_append, List.length_singleton, decide_eq_true_eq]
    omega
  · simp only [Aggregate.link, List.all_append, Bool.and_eq_true, List.all_cons, List.all_nil]
    exact ⟨hall, hobservation, trivial⟩

/-- A linkable observation is read back after the others. -/
theorem getAggregate_link (hop : op.valid = true)
    (hexisting : s.getAggregate sha256 op.projectId op.recordId = some existing)
    (hnew : ∀ r ∈ existing.observationReferences, r.contentHash ≠ op.observation.contentHash)
    (hcount : existing.observationReferences.length < 128) (h : Linkable s op)
    (hinsert : s.insertLink op existing = some t) :
    t.getAggregate sha256 op.projectId op.recordId = some (existing.link op.observation) := by
  obtain ⟨root, locations, observations, hreading, hreconstruct⟩ :=
    getAggregate_eq_some.1 hexisting
  have hfollows := reconstruct_follows rfl hreconstruct
  have hobservations : existing.observationReferences = observations := hfollows.observations
  obtain ⟨-, hcommits, ht⟩ := insertLink_eq_some.1 hinsert
  have htobs : t.observations = s.observations ++ [op.observationRow] := by rw [ht]
  have htevents : t.events = s.events ++ [op.eventRow existing] := by rw [ht]
  have hreference : op.observationRow.reference = op.observation := by
    have hkind : op.observation.artifactKind = .debtObservation := by
      simp only [LinkOperation.valid, ArtifactReference.valid, Bool.and_eq_true,
        beq_iff_eq] at hop
      exact hop.1.2.1.1.1
    simp only [LinkOperation.observationRow, ObservationRow.reference, h.wellFormed.1,
      h.wellFormed.2, ← hkind]
  have hvalid : op.observation.valid .debtObservation = true ∧ utc op.linkedAt = true := by
    simp only [LinkOperation.valid, Bool.and_eq_true] at hop
    exact ⟨hop.1.2, hop.2⟩
  obtain ⟨hrefs, hutc, hall, hpos, hnodup⟩ := readObservations_eq_some.1 hreading.readObservations
  -- the rows of the new store
  have hrows := observationRows_link htobs h.last
  have hread : t.readObservations op.recordId = some (observations ++ [op.observation]) := by
    refine readObservations_eq_some.2 ⟨?_, ?_, ?_, by simp, ?_⟩
    · rw [hrows, List.map_append, List.map_singleton, hreference, ← hrefs]
    · intro row hrow
      rw [hrows] at hrow
      rcases List.mem_append.mp hrow with hrow | hrow
      · exact hutc row hrow
      · rw [List.mem_singleton.mp hrow]
        exact hvalid.2
    · intro r hr
      rcases List.mem_append.mp hr with hr | hr
      · exact hall r hr
      · rw [List.mem_singleton.mp hr]
        exact hvalid.1
    · exact nodup_references hall hvalid.1 (hobservations ▸ hnew) hnodup
  have hlocations : t.readLocations op.recordId = some locations := by
    have : t.locationRows op.recordId = s.locationRows op.recordId := by
      rw [locationRows, locationRows, ht]
    rw [readLocations, this]
    exact hreading.readLocations
  have hfound : t.debtRow op.projectId op.recordId = some root := by
    rw [debtRow, ht]
    exact hreading.found
  refine getAggregate_eq_some.2 ⟨root, locations, observations ++ [op.observation],
    ⟨hreading.input, hfound, hreading.valid, hlocations, hread, hreading.members, ?_,
      hreading.identified⟩, ?_⟩
  · rw [List.head?_append_of_ne_nil _ (List.length_pos_iff.mp hpos)]
    exact hreading.first
  · -- the replay
    have huntriaged : ∀ row ∈ s.eventRows op.recordId, row.eventKind ≠ .triage := by
      intro row hrow
      obtain ⟨hrow, hrecord⟩ := mem_eventRows.1 hrow
      exact h.untriaged row hrow hrecord
    obtain ⟨hnil, linkCount, hreplay, hlinks, hlength, haggregate⟩ :=
      reconstruct_eq_some.1 hreconstruct
    obtain ⟨heq, hcount', hreplay'⟩ := replay_untriaged
      (base root locations (observations ++ [op.observation])) hreplay rfl rfl rfl rfl
      huntriaged
    have hne : (s.eventRows op.recordId).length ≠ 0 := by
      rw [Ne, List.length_eq_zero_iff]
      exact hnil
    have hstate : existing.state = .pendingTriage := by
      rw [heq]
      rfl
    have hversion : existing.eventVersion + 1 = (s.eventRows op.recordId).length := hlength
    have hrecord : root.recordId = op.recordId := (debtRow_some hreading.found).2.2
    have hevents : t.eventRows op.recordId =
        s.eventRows op.recordId ++ [op.eventRow existing] :=
      eventRows_append _ htevents fun row hrow => Nat.le_succ_of_le (eventVersion_le hexisting hrow)
    rw [hevents]
    refine reconstruct_eq_some.2 ⟨by simp, linkCount + 1, ?_, ?_, ?_, ?_⟩
    · refine replay_concat.2 ⟨_, hreplay', ?_⟩
      rw [replayEvent_link hne ⟨hrecord.symm, hversion, hvalid.2⟩ rfl rfl hstate, ← hversion, heq]
      rfl
    · have : linkCount + 1 = observations.length := hlinks
      simpa [base] using this
    · rw [List.length_append, List.length_singleton, ← hversion]
      rfl
    · exact valid_link haggregate hvalid.1 hcount

end Store

namespace Store

variable {op : LinkOperation} {existing a : Aggregate}

/-- A record that was read back after a link has not been triaged: each triage
would have had the payload of two different numbers of observations. -/
theorem untriaged_of_link
    (hexisting : s.getAggregate sha256 op.projectId op.recordId = some existing)
    (hinsert : s.insertLink op existing = some t)
    (hread : t.getAggregate sha256 op.projectId op.recordId = some a) :
    ∀ row ∈ s.events, row.recordId = op.recordId → row.eventKind ≠ .triage := by
  obtain ⟨root, locations, observations, hreading, hreconstruct⟩ :=
    getAggregate_eq_some.1 hexisting
  obtain ⟨root', locations', observations', hreading', hreconstruct'⟩ :=
    getAggregate_eq_some.1 hread
  obtain ⟨-, -, ht⟩ := insertLink_eq_some.1 hinsert
  have hone : (t.observationRows op.recordId).length =
      (s.observationRows op.recordId).length + 1 := by
    have hfilter : (t.observations.filter fun row => row.recordId = op.recordId) =
        (s.observations.filter fun row => row.recordId = op.recordId) ++ [op.observationRow] := by
      rw [ht]
      exact filter_append_self ObservationRow.recordId op.observationRow
    rw [observationRows, List.length_insertionSort, hfilter, List.length_append,
      List.length_singleton, observationRows, List.length_insertionSort]
  have hmore : observations'.length = observations.length + 1 := by
    rw [(readObservations_eq_some.1 hreading'.readObservations).1, List.length_map, hone,
      (readObservations_eq_some.1 hreading.readObservations).1, List.length_map]
  intro event hevent hrecord hkind
  obtain ⟨payload, hpayload, hlength⟩ := (reconstruct_follows rfl hreconstruct).triages event
    (mem_eventRows.2 ⟨hevent, hrecord⟩) hkind
  obtain ⟨payload', hpayload', hlength'⟩ := (reconstruct_follows rfl hreconstruct').triages event
    (mem_eventRows.2 ⟨by rw [ht]; exact List.mem_append_left _ hevent, hrecord⟩) hkind
  rw [hpayload] at hpayload'
  cases hpayload'
  have hsame : observations'.length = observations.length := hlength'.symm.trans hlength
  omega

/-- A link that was read back after the others was linkable. -/
theorem linkable_of_getAggregate
    (hexisting : s.getAggregate sha256 op.projectId op.recordId = some existing)
    (hnew : ∀ r ∈ existing.observationReferences, r.contentHash ≠ op.observation.contentHash)
    (hinsert : s.insertLink op existing = some t)
    (hread : t.getAggregate sha256 op.projectId op.recordId =
      some (existing.link op.observation)) : Linkable s op := by
  obtain ⟨root, locations, observations, hreading, hreconstruct⟩ :=
    getAggregate_eq_some.1 hexisting
  obtain ⟨root', locations', observations', hreading', hreconstruct'⟩ :=
    getAggregate_eq_some.1 hread
  have hold : existing.observationReferences = observations :=
    (reconstruct_follows rfl hreconstruct).observations
  have hlinked : existing.observationReferences ++ [op.observation] = observations' :=
    (reconstruct_follows rfl hreconstruct').observations
  obtain ⟨hobservation, hversion, ht⟩ := insertLink_eq_some.1 hinsert
  have htobs : t.observations = s.observations ++ [op.observationRow] := by rw [ht]
  -- the row that reads as the new observation is the new row
  obtain ⟨hrefs', -⟩ := readObservations_eq_some.1 hreading'.readObservations
  obtain ⟨rows, last, hrows, -, hlast⟩ :=
    List.map_eq_append_iff.mp (hrefs'.symm.trans hlinked.symm)
  obtain ⟨row, rfl, hreference⟩ := List.map_eq_singleton_iff.mp hlast
  have hrow : row = op.observationRow := by
    have hmem : row ∈ t.observationRows op.recordId := by
      rw [hrows]
      simp
    obtain ⟨hmem, hrecord⟩ := mem_observationRows.1 hmem
    rw [htobs] at hmem
    rcases List.mem_append.mp hmem with hmem | hmem
    · obtain ⟨hrefs, -⟩ := readObservations_eq_some.1 hreading.readObservations
      have hknown : row.reference ∈ existing.observationReferences := by
        rw [hold, hrefs]
        exact List.mem_map_of_mem (mem_observationRows.2 ⟨hmem, hrecord⟩)
      exact absurd (congrArg ArtifactReference.contentHash hreference) (hnew _ hknown)
    · exact List.mem_singleton.mp hmem
  subst hrow
  have hwell : toWellFormed op.observation.artifactId = op.observation.artifactId ∧
      toWellFormed op.observation.relativePath = op.observation.relativePath :=
    ⟨congrArg ArtifactReference.artifactId hreference,
      congrArg ArtifactReference.relativePath hreference⟩
  refine ⟨untriaged_of_link hexisting hinsert hread, hwell, ?_,
    last_of_observationRows htobs hrows⟩
  intro r hr hrecord
  rw [← hwell.1, ← hwell.2]
  exact (hobservation r hr hrecord).2

end Store

/-- **Every record of a reachable store can be read back, and a valid link of a
new observation to the current version is committed, and appended, exactly if it
is linkable.** -/
theorem link_committed_iff (h : Reachable sha256 s) :
    (∀ root ∈ s.debts, ∃ a, s.getAggregate sha256 root.projectId root.recordId = some a) ∧
    ∀ (op : LinkOperation) (existing : Aggregate), op.valid = true →
      s.getAggregate sha256 op.projectId op.recordId = some existing →
      existing.eventVersion = op.expectedVersion →
      (∀ r ∈ existing.observationReferences, r.contentHash ≠ op.observation.contentHash) →
      existing.observationReferences.length < 128 →
      ((∃ t, s.commitOperation sha256 (fun _ => true) (.linkObservation op) =
          (.committed (existing.link op.observation), t) ∧
        t.getAggregate sha256 op.projectId op.recordId = some (existing.link op.observation)) ↔
      Linkable s op) := by
  refine ⟨(Store.Reachable.legible h).read, ?_⟩
  intro op existing hop hexisting hversion hnew hcount
  constructor
  · rintro ⟨t, hcommit, hread⟩
    have heffect : Store.Effect sha256 s (.linkObservation op)
        (s.commitOperation sha256 (fun _ => true) (.linkObservation op)).1
        (s.commitOperation sha256 (fun _ => true) (.linkObservation op)).2 :=
      Store.commit_effect _
    rw [hcommit] at heffect
    dsimp only at heffect
    generalize Store.CommitResult.committed (existing.link op.observation) = result at heffect
    cases heffect with
    | refused code =>
        rw [hread] at hexisting
        have hlonger := congrArg List.length
          (congrArg Aggregate.observationReferences (Option.some.inj hexisting))
        simp [Aggregate.link] at hlonger
    | relinked hfound hlinked =>
        rw [hexisting] at hfound
        cases hfound
        obtain ⟨r, hr, hhash⟩ := hlinked
        exact absurd hhash (hnew r hr)
    | linked _ hfound _ _ hinsert _ =>
        rw [hexisting] at hfound
        cases hfound
        exact Store.linkable_of_getAggregate hexisting hnew hinsert hread
  · intro hlinkable
    obtain ⟨t, hinsert⟩ : ∃ t, s.insertLink op existing = some t := by
      refine ⟨_, Store.insertLink_eq_some.2 ⟨?_, ?_, rfl⟩⟩
      · obtain ⟨root, locations, observations, hreading, hreconstruct⟩ :=
          Store.getAggregate_eq_some.1 hexisting
        have hold : existing.observationReferences = observations :=
          (reconstruct_follows rfl hreconstruct).observations
        obtain ⟨hrefs, -⟩ := Store.readObservations_eq_some.1 hreading.readObservations
        intro r hr hrecord
        refine ⟨hnew r.reference ?_, ?_⟩
        · rw [hold, hrefs]
          exact List.mem_map_of_mem (Store.mem_observationRows.2 ⟨hr, hrecord⟩)
        · rw [hlinkable.wellFormed.1, hlinkable.wellFormed.2]
          exact hlinkable.newArtifact r hr hrecord
      · intro r hr hrecord
        exact Nat.ne_of_lt (Nat.lt_succ_of_le (Store.eventVersion_le hexisting
          (Store.mem_eventRows.2 ⟨hr, hrecord⟩)))
    have hread := Store.getAggregate_link hop hexisting hnew hcount hlinkable hinsert
    refine ⟨t, ?_, hread⟩
    have hlinked : existing.observationReferences.any (fun r =>
        r.contentHash = op.observation.contentHash) = false := by
      rw [List.any_eq_false]
      intro r hr
      simpa using hnew r hr
    simp [Store.commitOperation, Store.runOperation, hop, hexisting, hversion, hlinked,
      Store.readBack, hinsert, hread]

/-! ## A link after a triage -/

def sampleRule : Rule :=
  ⟨js "r", js "1", List.replicate 64 0x61, List.replicate 64 0x62, js "c", js "r.md"⟩

def sampleLocations : List Location := [⟨js "l", js "a.ts", none, none, []⟩]

def sampleObservation (u : CodeUnit) : ArtifactReference :=
  ⟨.debtObservation, [u], List.replicate 64 u, [u]⟩

def sampleTrigger : Trigger := ⟨js "t", js "n", [js "a.ts"], [], []⟩

/-- The SHA-256 digests of the two identifier texts of the samples. -/
def sampleSha256 (input : JsString) : HexDigest :=
  if input = recordIdInput (js "p") sampleRule (js "core") sampleLocations then
    ⟨js "70e36abced2d92dc1c94af28f324016ec8aac31a539a257f6d5d97ce741f06ad", by decide +kernel⟩
  else ⟨js "a32ddc586fddb97ae8283f4d6df104b130e7144d712814b92ac1ff5b5e4aa146", by decide +kernel⟩

def sampleId (architecturalBoundary : JsString) : JsString :=
  createArchitectureDebtRecordId sampleSha256 (js "p") sampleRule architecturalBoundary
    sampleLocations

def sampleCreate (architecturalBoundary : JsString) : CreateOperation where
  recordId := sampleId architecturalBoundary
  projectId := js "p"
  ownerId := js "o"
  rationale := js "why"
  risk := js "low"
  architecturalBoundary := architecturalBoundary
  futureTouchTrigger := sampleTrigger
  discovery := ⟨js "F", 1, js "g", js "f",
    ⟨.reviewManifest, js "m", List.replicate 64 0x63, js "m"⟩, sampleObservation 0x64⟩
  rule := sampleRule
  locations := sampleLocations
  createdAt := js "2026-01-01T00:00:00.000Z"

/-- A created record. -/
def sampleRecord (architecturalBoundary : JsString) : Aggregate where
  recordId := sampleId architecturalBoundary
  projectId := js "p"
  eventVersion := 0
  state := .pendingTriage
  ownerId := js "o"
  rationale := js "why"
  risk := js "low"
  architecturalBoundary := architecturalBoundary
  priority := .p2
  prioritySource := .autoPendingDefault
  futureTouchTrigger := sampleTrigger
  discovery := (sampleCreate architecturalBoundary).discovery
  rule := sampleRule
  locations := sampleLocations
  observationReferences := [sampleObservation 0x64]
  duplicateOfRecordId := none
  supersededByRecordId := none

def sampleCreated : Store :=
  (Store.empty.commitOperation sampleSha256 (fun _ => true)
    (.createPending (sampleCreate (js "core")))).2

/-- A valid link, a day later. -/
def sampleLink (expectedVersion : ℕ) : LinkOperation :=
  ⟨expectedVersion, js "p", sampleId (js "core"), sampleObservation 0x65,
    js "2026-01-03T00:00:00.000Z"⟩

theorem link_committed_sample :
    ∃ t, sampleCreated.commitOperation sampleSha256 (fun _ => true)
        (.linkObservation (sampleLink 0)) =
        (.committed ((sampleRecord (js "core")).link (sampleObservation 0x65)), t) ∧
      t.getAggregate sampleSha256 (js "p") (sampleId (js "core")) =
        some ((sampleRecord (js "core")).link (sampleObservation 0x65)) :=
  ((link_committed_iff (.commit (fun _ => true) _ .empty)).2 (sampleLink 0)
    (sampleRecord (js "core")) (by decide +kernel) (by decide +kernel) (by decide +kernel)
    (by decide) (by decide)).mpr
    ⟨by decide +kernel, by decide +kernel, by decide +kernel, by decide +kernel⟩

/-- A confirmation of the record. -/
def sampleConfirm : TriageAction :=
  ⟨js "p", sampleId (js "core"), 0, js "why", js "2026-01-02T00:00:00.000Z",
    .confirm (js "o") (js "why") (js "low") (js "core") .p1 sampleTrigger⟩

/-- The store after the confirmation, which the policy accepts. -/
def sampleConfirmed : Store :=
  (recordArchitectureDebtTriage sampleSha256 sampleCreated (sampleRecord (js "core")) (js "s")
    sampleConfirm fun _ => true).2

def sampleConfirmedRecord : Aggregate :=
  { sampleRecord (js "core") with
    eventVersion := 1
    state := .confirmed
    priority := .p1
    prioritySource := .stewardConfirmed }

/-- After a confirmation a valid and later link of a new observation fails. -/
theorem confirmed_not_linked :
    (∃ accepted, evaluateArchitectureDebtTriage (sampleRecord (js "core")) (js "s") sampleConfirm =
        .ok accepted ∧
      sampleConfirmed = (sampleCreated.commitOperation sampleSha256 (fun _ => true)
        accepted.operation).2) ∧
    Reachable sampleSha256 sampleCreated ∧ Reachable sampleSha256 sampleConfirmed ∧
    sampleConfirmed.getAggregate sampleSha256 (js "p") (sampleId (js "core")) =
      some sampleConfirmedRecord ∧
    (sampleLink 1).valid = true ∧
      sampleConfirmedRecord.eventVersion = (sampleLink 1).expectedVersion ∧
    (∀ row ∈ sampleConfirmed.events, ∀ earlier ∈ Date.parseUtc row.occurredAt,
      ∀ later ∈ Date.parseUtc (sampleLink 1).linkedAt, earlier < later) ∧
    (∀ r ∈ sampleConfirmedRecord.observationReferences,
      r.contentHash ≠ (sampleLink 1).observation.contentHash) ∧
    sampleConfirmedRecord.observationReferences.length < 128 ∧
    (sampleConfirmed.commitOperation sampleSha256 (fun _ => true)
      (.linkObservation (sampleLink 1))).1 = .refusal .persistenceFailed := by
  have hpolicy : evaluateArchitectureDebtTriage (sampleRecord (js "core")) (js "s") sampleConfirm =
      .ok ⟨⟨.confirm (js "o") (js "why") (js "low") (js "core") .p1 sampleTrigger, js "p",
        sampleId (js "core"), js "s", js "why", 0, 1, js "2026-01-02T00:00:00.000Z"⟩,
        sampleConfirmedRecord⟩ := by
    decide +kernel
  have hstore : sampleConfirmed = _ :=
    recordArchitectureDebtTriage_store (s := sampleCreated) (fun _ => true) hpolicy
  have hcreated : Reachable sampleSha256 sampleCreated := .commit _ _ .empty
  refine ⟨⟨_, hpolicy, hstore⟩, hcreated, ?_, ?_⟩
  · rw [hstore]
    exact .commit _ _ hcreated
  · decide +kernel

end Hepha.Debt
