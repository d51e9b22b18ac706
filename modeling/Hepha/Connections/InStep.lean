import Hepha.Connections.Lifecycle
import Mathlib.Logic.Function.Basic

/-!
# The two stores in step

A run interleaves the calls of the connection service: a step begins a call,
resumes the oldest call in flight, or registers a dependency.  When no call is
in flight, the vault should hold the secret of every stored connection, at the
version of its record, and give it out exactly while the record is active.

`Coherent` is kept by every call but two: `rotateSecret` puts a secret into use
again whatever the state of the connection, and `createSecret` decides from the
record, which calls in flight may be about to change.  `Permitted` says when
these two are harmless; with it the invariant `Inv` holds along every run, and
`run_inStep` reads the agreement of the stores off it.
-/

namespace Hepha.Connections

/-! ## Runs -/

section Runs

variable (cipher : Option Cipher) (classifyEndpoint : JsString → EndpointValidation)

inductive Action
  | begin (draw : Draw) (call : Call)
  | resume (now : JsString)
  /-- Another feature registers a dependency on a connection. -/
  | registerDependency (record : DependencyRecord)

def System.perform (s : System) : Action → System
  | .begin draw call => s.begin cipher classifyEndpoint draw call
  | .resume now => s.resume now
  | .registerDependency record =>
      match s.store.insertDependency record with
      | .error _ => s
      | .ok store => { s with store := store }

/-- The identifiers that `randomUUID` draws are all different. -/
def Action.Fresh (s : System) : Action → Prop
  | .begin _ (.createConnection id _) => id ∉ s.drawn
  | _ => True

/-- The states that runs reach whose actions all meet a condition. -/
inductive Run (condition : System → Action → Prop) : System → Prop
  | initial : Run condition System.initial
  | step {s : System} (a : Action) : Run condition s → a.Fresh s → condition s a →
      Run condition (s.perform cipher classifyEndpoint a)

/-- **When a call keeps the two stores in step.**  `rotateSecret` does where the
secret, after the calls in flight, is not a revoked one.  `createSecret` does

* for a connection read as revoked, where after the calls in flight it is still
  stored and revoked, or deleted and not revoked before;
* for another connection, where the vault has its secret (and refuses), or it
  is not a revoked one. -/
def Permitted (s : System) : Action → Prop
  | .begin _ (.rotateSecret input) =>
      ∀ target, s.checkRotateSecret cipher input = .ok target →
        (s.settled input.connectionId).revoked = false
  | .begin _ (.createSecret input) =>
      ∀ existing value, s.checkCreateSecret cipher input = .ok (existing, value) →
        if existing.restoringRevokedSecret.isSome then
          (s.settled input.connectionId).record.isSome = (s.settled input.connectionId).revoked
        else Vault.row s.vault (vaultRefId input.connectionId) = none →
          (s.settled input.connectionId).revoked = false
  | _ => True

/-- The two stores agree about every connection. -/
structure InStep (s : System) : Prop where
  /-- The vault holds the secret of a stored connection, at its version, and
  gives it out if and only if the connection is active. -/
  stored : ∀ id c, s.store.getConnection id = some c → c.kind ≠ .piSession →
    ∀ ref, c.secretRef = some ref →
      (∃ row, Vault.row s.vault ref = some row ∧ c.secretVersion = some row.version) ∧
      ((∃ value, Vault.readSecret cipher s.vault ref = .ok (some value)) ↔
        c.lifecycleState = .active)
  /-- Between a revocation and a later creation the secret is not given out. -/
  revoked : ∀ id, revokedSince id s.outcomes = true →
    Vault.readSecret cipher s.vault (vaultRefId id) = .ok none

end Runs

/-! ## What holds along a run -/

section Invariant

variable (cipher : Option Cipher) (kindOf : ConnectionId → ConnectionKind)

/-- The secret of a connection of a kind. -/
def secretRefOf (id : ConnectionId) : Option JsString :=
  if kindOf id = .piSession then none else some (vaultRefId id)

/-- The record of a connection has its kind and its secret. -/
def Slot.Fits (id : ConnectionId) (slot : Slot) : Prop :=
  ∀ r, slot.record = some r → r.kind = kindOf id ∧ r.secretRef = secretRefOf kindOf id

/-- What a call in flight writes fits its connection. -/
def Pending.WellFormed (p : Pending) : Prop :=
  p.Matched ∧
    match p.continuation with
    | .insertConnection record =>
        record.kind = kindOf p.connectionId ∧ record.secretRef = secretRefOf kindOf p.connectionId
    | .storeSecret _ _ => kindOf p.connectionId ≠ .piSession
    | .storeRotation _ => kindOf p.connectionId ≠ .piSession
    | _ => True

/-- The invariant of a run: the kind of a connection is fixed when its
identifier is drawn. -/
structure Inv (s : System) : Prop where
  coherent : ∀ id, Coherent (Vault.row s.vault (vaultRefId id)) (s.settled id)
  readable : Vault.Readable cipher s.vault
  fits : ∀ id, (s.slot id).Fits kindOf id
  settledFits : ∀ id, (s.settled id).Fits kindOf id
  pending : ∀ p ∈ s.inFlight, p.WellFormed kindOf ∧ kindOf p.connectionId ≠ .piSession
  /-- Without a key nothing is awaited, kept or revoked. -/
  keyless : cipher = none →
    s.inFlight = [] ∧ s.vault = [] ∧ ∀ id, (s.slot id).revoked = false
  fresh : ∀ id, id ∉ s.drawn → s.slot id = ⟨none, false⟩ ∧
    Vault.row s.vault (vaultRefId id) = none ∧ ∀ p ∈ s.inFlight, p.connectionId ≠ id

end Invariant

theorem vaultRefId_injective : Function.Injective vaultRefId :=
  fun _ _ h => List.append_cancel_left h

section Slots

variable {kindOf : ConnectionId → ConnectionKind} {s : System} {id : ConnectionId} {slot : Slot}
  {p : Pending} {now : JsString}

theorem Pending.effect_of_ne (h : p.connectionId ≠ id) : p.effect id slot = slot :=
  if_neg h

theorem Slot.Fits.effect (h : slot.Fits kindOf id) (hp : p.WellFormed kindOf) :
    (p.effect id slot).Fits kindOf id := by
  by_cases hid : p.connectionId = id
  · subst hid
    obtain ⟨operation, connectionId, continuation⟩ := p
    obtain ⟨hmatched, hwell⟩ := hp
    have href (hkind : kindOf connectionId ≠ .piSession) :
        some (vaultRefId connectionId) = secretRefOf kindOf connectionId := by
      rw [secretRefOf, if_neg hkind]
    dsimp only at h hwell
    rw [Pending.effect, if_pos rfl]
    cases continuation with
    | insertConnection record =>
        dsimp only [Continuation.effect]
        split
        · exact h
        · intro r hr
          cases hr
          exact hwell
    | storeSecret restoringRevokedSecret reference =>
        dsimp only [Continuation.effect]
        have hrefId : reference.refId = vaultRefId connectionId := hmatched.2
        cases hrecord : slot.record with
        | none => exact h
        | some r =>
            have hkind := (h r hrecord).1
            dsimp only
            split
            · split
              · intro r' hr'
                cases hr'
                exact ⟨hkind, by rw [hrefId]; exact href hwell⟩
              · exact h
            · intro r' hr'
              cases hr'
              exact ⟨hkind, by rw [hrefId]; exact href hwell⟩
    | storeRotation reference =>
        have hrefId : reference.refId = vaultRefId connectionId := hmatched.2
        intro r' hr'
        obtain ⟨r, hr, rfl⟩ := Option.map_eq_some_iff.mp hr'
        exact ⟨(h r hr).1, by rw [hrefId]; exact href hwell⟩
    | storeRevocation =>
        dsimp only [Continuation.effect]
        cases hrecord : slot.record with
        | none => exact h
        | some r =>
            intro r' hr'
            cases hr'
            exact h r hrecord
    | deleteRecords =>
        intro r hr
        cases hr
    | rejected message => exact h
  · rw [Pending.effect_of_ne hid]
    exact h

/-- A slot whose connection has no call in flight is settled. -/
theorem settled_of_idle (h : ∀ p ∈ s.inFlight, p.connectionId ≠ id) : s.settled id = s.slot id := by
  unfold System.settled
  generalize s.slot id = slot
  generalize s.inFlight = inFlight at h
  induction inFlight with
  | nil => rfl
  | cons p rest ih =>
      rw [List.foldl_cons, Pending.effect_of_ne (h p List.mem_cons_self)]
      exact ih fun q hq => h q (List.mem_cons_of_mem _ hq)

theorem settled_await {vault : List SecretRow} :
    ({ s with vault := vault }.await p.operation p.connectionId p.continuation).settled id =
      p.effect id (s.settled id) := by
  simp only [System.settled, System.await, List.foldl_append, List.foldl_cons, List.foldl_nil]
  rfl

/-- Resuming a call does not change what the calls in flight lead to. -/
theorem settled_resume {rest : List Pending} (hflight : s.inFlight = p :: rest)
    (hmatched : p.Matched) : ({ s with inFlight := rest }.finish now p).settled id =
      s.settled id := by
  simp only [System.settled, System.slot_finish hmatched, hflight, List.foldl_cons]
  rfl

end Slots

namespace Inv

variable {cipher : Option Cipher} {classifyEndpoint : JsString → EndpointValidation}
  {kindOf : ConnectionId → ConnectionKind} {s : System} {id : ConnectionId} {now : JsString}
  {p : Pending}

theorem initial : Inv cipher kindOf System.initial where
  coherent _ := Coherent.of_none rfl fun h => absurd h Bool.false_ne_true
  readable _ _ _ _ h := by cases h
  fits _ _ h := by cases h
  settledFits _ _ h := by cases h
  pending _ h := by cases h
  keyless _ := ⟨rfl, rfl, fun _ => rfl⟩
  fresh _ _ := ⟨rfl, rfl, fun _ h => by cases h⟩

/-- A state with the slots, the vault and the calls in flight of another. -/
theorem congr {t : System} (h : Inv cipher kindOf s) (hslot : ∀ id, t.slot id = s.slot id)
    (hvault : t.vault = s.vault) (hflight : t.inFlight = s.inFlight) (hdrawn : t.drawn = s.drawn) :
    Inv cipher kindOf t := by
  have hsettled : ∀ id, t.settled id = s.settled id := by
    intro id
    rw [System.settled, hslot, hflight, System.settled]
  refine ⟨?_, ?_, ?_, ?_, ?_, ?_, ?_⟩
  · intro id
    rw [hvault, hsettled]
    exact h.coherent id
  · rw [hvault]
    exact h.readable
  · intro id
    rw [hslot]
    exact h.fits id
  · intro id
    rw [hsettled]
    exact h.settledFits id
  · rw [hflight]
    exact h.pending
  · intro hcipher
    obtain ⟨hidle, hempty, hnone⟩ := h.keyless hcipher
    rw [hflight, hvault]
    exact ⟨hidle, hempty, fun id => by rw [hslot]; exact hnone id⟩
  · rw [hdrawn, hvault, hflight]
    intro id hid
    rw [hslot]
    exact h.fresh id hid

/-- A stored connection has been drawn. -/
theorem mem_drawn (h : Inv cipher kindOf s) {c : ConnectionRecord}
    (hc : s.store.getConnection id = some c) : id ∈ s.drawn := by
  by_contra hid
  have hslot := (h.fresh id hid).1
  rw [System.slot, hc] at hslot
  cases hslot

theorem record_fits (h : Inv cipher kindOf s) {c : ConnectionRecord}
    (hc : s.store.getConnection id = some c) :
    c.kind = kindOf id ∧ c.secretRef = secretRefOf kindOf id :=
  h.fits id c.secretState (by rw [System.slot, hc]; rfl)

/-- A call that fails, or that changes no secret, keeps the invariant. -/
theorem answer (h : Inv cipher kindOf s) {operation : Operation} {result : Result}
    (hresult : ∀ i, revokedSince i (⟨operation, id, result⟩ :: s.outcomes) =
      revokedSince i s.outcomes) : Inv cipher kindOf (s.answer operation id result) :=
  h.congr (fun i => by simp only [System.slot, System.answer, hresult]) rfl rfl rfl

/-- An identifier is drawn for a connection of a kind. -/
theorem drawn (h : Inv cipher kindOf s) (hid : id ∉ s.drawn) (kind : ConnectionKind) :
    Inv cipher (Function.update kindOf id kind) { s with drawn := id :: s.drawn } := by
  obtain ⟨hslot, hrow, hidle⟩ := h.fresh id hid
  have hsettled := settled_of_idle hidle
  have hfits : ∀ {other : ConnectionId} {slot : Slot}, slot.Fits kindOf other →
      (other = id → slot.record = none) → slot.Fits (Function.update kindOf id kind) other := by
    intro other slot hslot hnone r hr
    have hne : other ≠ id := by
      intro heq
      rw [hnone heq] at hr
      cases hr
    have := hslot r hr
    simpa [secretRefOf, Function.update_of_ne hne] using this
  refine ⟨h.coherent, h.readable, ?_, ?_, ?_, h.keyless, ?_⟩
  · intro other
    refine hfits (h.fits other) ?_
    rintro rfl
    exact congrArg Slot.record hslot
  · intro other
    refine hfits (h.settledFits other) ?_
    rintro rfl
    exact congrArg Slot.record (hsettled.trans hslot)
  · intro p hp
    have hne := hidle p hp
    obtain ⟨⟨hmatched, hwell⟩, hkind⟩ := h.pending p hp
    refine ⟨⟨hmatched, ?_⟩, by rwa [Function.update_of_ne hne]⟩
    simpa only [secretRefOf, Function.update_of_ne hne] using hwell
  · intro other hother
    exact h.fresh other fun hmem => hother (List.mem_cons_of_mem _ hmem)

/-- **A call reaches its await.** -/
theorem await (h : Inv cipher kindOf s) {vault : List SecretRow} {found : Option SecretRow}
    (hid : p.connectionId ∈ s.drawn) (hcipher : cipher.isSome)
    (hwrites : Vault.Writes s.vault vault (vaultRefId p.connectionId) found)
    (hfound : ∀ c, cipher = some c → ∀ entry, found = some entry →
      (c.decrypt entry.sealed).isSome)
    (hwell : p.WellFormed kindOf) (hkind : kindOf p.connectionId ≠ .piSession)
    (hcoherent : Coherent found (p.continuation.effect (s.settled p.connectionId))) :
    Inv cipher kindOf
      ({ s with vault := vault }.await p.operation p.connectionId p.continuation) := by
  have hslot : ∀ i, ({ s with vault := vault }.await p.operation p.connectionId
      p.continuation).slot i = s.slot i := fun _ => rfl
  refine ⟨?_, h.readable.write hwrites hfound, h.fits, ?_, ?_, ?_, ?_⟩
  · intro i
    rw [settled_await]
    by_cases hi : p.connectionId = i
    · subst hi
      rw [Pending.effect, if_pos rfl]
      change Coherent (Vault.row vault _) _
      rw [hwrites.row_eq]
      exact hcoherent
    · rw [Pending.effect_of_ne hi]
      change Coherent (Vault.row vault _) _
      rw [hwrites.row_ne fun heq => hi (vaultRefId_injective heq).symm]
      exact h.coherent i
  · intro i
    rw [settled_await]
    exact (h.settledFits i).effect hwell
  · intro q hq
    rcases List.mem_append.mp hq with hq | hq
    · exact h.pending q hq
    · rw [List.mem_singleton] at hq
      subst hq
      exact ⟨hwell, hkind⟩
  · intro hnone
    rw [hnone] at hcipher
    cases hcipher
  · intro i hi
    have hne : i ≠ p.connectionId := fun heq => hi (heq ▸ hid)
    obtain ⟨hfresh, hrow, hidle⟩ := h.fresh i hi
    refine ⟨hfresh, ?_, ?_⟩
    · change Vault.row vault _ = none
      rw [hwrites.row_ne fun heq => hne (vaultRefId_injective heq)]
      exact hrow
    · intro q hq
      rcases List.mem_append.mp hq with hq | hq
      · exact hidle q hq
      · rw [List.mem_singleton] at hq
        subst hq
        exact Ne.symm hne

/-- A call whose vault operation is refused only reports it. -/
theorem await_rejected (h : Inv cipher kindOf s) {operation : Operation} {message : JsString}
    (hid : id ∈ s.drawn) (hcipher : cipher.isSome) (hkind : kindOf id ≠ .piSession) :
    Inv cipher kindOf (s.await operation id (.rejected message)) := by
  have hwrites : Vault.Writes s.vault s.vault (vaultRefId id)
      (Vault.row s.vault (vaultRefId id)) := by
    intro other
    split
    · rename_i heq
      rw [heq]
    · rfl
  exact h.await (p := ⟨operation, id, .rejected message⟩) hid hcipher hwrites
    (fun c hc entry hentry => h.readable c hc _ entry hentry) ⟨trivial, trivial⟩ hkind
    (h.coherent id)

/-- **The oldest call in flight resumes.** -/
theorem resume (h : Inv cipher kindOf s) : Inv cipher kindOf (s.resume now) := by
  unfold System.resume
  cases hflight : s.inFlight with
  | nil => exact h
  | cons p rest =>
      have hp := h.pending p (hflight ▸ List.mem_cons_self)
      have hslot : ∀ i, ({ s with inFlight := rest }.finish now p).slot i =
          p.effect i (s.slot i) := fun i => System.slot_finish hp.1.1
      have hsettled : ∀ i, ({ s with inFlight := rest }.finish now p).settled i = s.settled i :=
        fun i => settled_resume hflight hp.1.1
      refine ⟨?_, h.readable, ?_, ?_, ?_, ?_, ?_⟩
      · intro i
        rw [hsettled]
        exact h.coherent i
      · intro i
        rw [hslot]
        exact (h.fits i).effect hp.1
      · intro i
        rw [hsettled]
        exact h.settledFits i
      · intro q hq
        exact h.pending q (hflight ▸ List.mem_cons_of_mem _ hq)
      · intro hcipher
        have := (h.keyless hcipher).1
        rw [hflight] at this
        cases this
      · intro i hi
        obtain ⟨hfresh, hrow, hidle⟩ := h.fresh i hi
        refine ⟨?_, hrow, fun q hq => hidle q (hflight ▸ List.mem_cons_of_mem _ hq)⟩
        rw [hslot, Pending.effect_of_ne (hidle p (hflight ▸ List.mem_cons_self))]
        exact hfresh

/-- A call that awaits nothing finishes, its connection having no call in
flight. -/
theorem finish (h : Inv cipher kindOf s) (hid : p.connectionId ∈ s.drawn)
    (hidle : ∀ q ∈ s.inFlight, q.connectionId ≠ p.connectionId) (hwell : p.WellFormed kindOf)
    (hcoherent : Coherent (Vault.row s.vault (vaultRefId p.connectionId))
      (p.continuation.effect (s.slot p.connectionId)))
    (hrevoked : (p.continuation.effect (s.slot p.connectionId)).revoked =
      (s.slot p.connectionId).revoked) : Inv cipher kindOf (s.finish now p) := by
  have hslot : ∀ i, (s.finish now p).slot i = p.effect i (s.slot i) :=
    fun i => System.slot_finish hwell.1
  have hsettled : ∀ i, (s.finish now p).settled i = p.effect i (s.settled i) := by
    intro i
    by_cases hi : p.connectionId = i
    · subst hi
      have hnext : ∀ q ∈ (s.finish now p).inFlight, q.connectionId ≠ p.connectionId := hidle
      rw [settled_of_idle hnext, hslot, settled_of_idle hidle]
    · rw [Pending.effect_of_ne hi, System.settled, hslot, Pending.effect_of_ne hi]
      rfl
  refine ⟨?_, h.readable, ?_, ?_, h.pending, ?_, ?_⟩
  · intro i
    rw [hsettled]
    by_cases hi : p.connectionId = i
    · subst hi
      rw [Pending.effect, if_pos rfl, settled_of_idle hidle]
      exact hcoherent
    · rw [Pending.effect_of_ne hi]
      exact h.coherent i
  · intro i
    rw [hslot]
    exact (h.fits i).effect hwell
  · intro i
    rw [hsettled]
    exact (h.settledFits i).effect hwell
  · intro hcipher
    obtain ⟨hflight, hempty, hnone⟩ := h.keyless hcipher
    refine ⟨hflight, hempty, fun i => ?_⟩
    rw [hslot]
    by_cases hi : p.connectionId = i
    · subst hi
      rw [Pending.effect, if_pos rfl, hrevoked]
      exact hnone _
    · rw [Pending.effect_of_ne hi]
      exact hnone i
  · intro i hi
    have hne : p.connectionId ≠ i := fun heq => hi (heq ▸ hid)
    rw [hslot, Pending.effect_of_ne hne]
    exact h.fresh i hi

end Inv

/-! ## What the checks find -/

section Checks

variable {cipher : Option Cipher} {s : System} {id : ConnectionId} {input : SecretOperationInput}

theorem truthy_some_eq {text : Option JsString} {value : JsString}
    (h : JsString.truthy text = some value) : text = some value :=
  (Option.filter_eq_some_iff.mp h).1

theorem checkRotateSecret_ok {target : JsString × JsString}
    (h : s.checkRotateSecret cipher input = .ok target) :
    ∃ c, s.store.getConnection input.connectionId = some c ∧ c.kind ≠ .piSession ∧
      c.secretRef = some target.1 ∧ cipher.isSome := by
  unfold System.checkRotateSecret at h
  cases hc : s.store.getConnection input.connectionId with
  | none => simp [hc] at h
  | some c =>
      simp only [hc] at h
      by_cases hkind : c.kind = .piSession
      · simp [hkind] at h
      · rw [if_neg hkind] at h
        cases href : JsString.truthy c.secretRef with
        | none => simp [href] at h
        | some ref =>
            cases cipher with
            | none => simp [href, Vault.isAvailable] at h
            | some cipher =>
                cases hvalue : JsString.truthy input.secretValue with
                | none => simp [href, hvalue, Vault.isAvailable] at h
                | some value =>
                    simp only [href, hvalue, Vault.isAvailable, Option.isSome_some,
                      Bool.true_eq_false, if_false, Except.ok.injEq] at h
                    subst h
                    exact ⟨c, rfl, hkind, truthy_some_eq href, rfl⟩

theorem checkRevokeSecret_ok {ref : JsString} (h : s.checkRevokeSecret cipher id = .ok ref) :
    ∃ c, s.store.getConnection id = some c ∧ c.kind ≠ .piSession ∧
      c.secretRef = some ref ∧ cipher.isSome := by
  unfold System.checkRevokeSecret at h
  cases hc : s.store.getConnection id with
  | none => simp [hc] at h
  | some c =>
      simp only [hc] at h
      by_cases hkind : c.kind = .piSession
      · simp [hkind] at h
      · rw [if_neg hkind] at h
        cases href : JsString.truthy c.secretRef with
        | none => simp [href] at h
        | some found =>
            cases cipher with
            | none => simp [href, Vault.isAvailable] at h
            | some cipher =>
                simp only [href, Vault.isAvailable, Option.isSome_some, Bool.true_eq_false,
                  if_false, Except.ok.injEq] at h
                subst h
                exact ⟨c, rfl, hkind, truthy_some_eq href, rfl⟩

theorem checkCreateSecret_ok {c : ConnectionRecord} {value : JsString}
    (h : s.checkCreateSecret cipher input = .ok (c, value)) :
    s.store.getConnection input.connectionId = some c ∧ c.kind ≠ .piSession ∧ cipher.isSome := by
  unfold System.checkCreateSecret at h
  cases hc : s.store.getConnection input.connectionId with
  | none => simp [hc] at h
  | some existing =>
      simp only [hc] at h
      by_cases hkind : existing.kind = .piSession
      · simp [hkind] at h
      · rw [if_neg hkind] at h
        cases cipher with
        | none => simp [Vault.isAvailable] at h
        | some cipher =>
            cases hvalue : JsString.truthy input.secretValue with
            | none => simp [hvalue, Vault.isAvailable] at h
            | some value' =>
                simp only [hvalue, Vault.isAvailable, Option.isSome_some, Bool.true_eq_false,
                  if_false, Except.ok.injEq, Prod.mk.injEq] at h
                obtain ⟨rfl, rfl⟩ := h
                exact ⟨rfl, hkind, rfl⟩

theorem checkDeleteConnection_ok {c : ConnectionRecord}
    {resolution : Option (List DeletionBlocker)}
    (h : s.checkDeleteConnection id resolution = .ok c) : s.store.getConnection id = some c := by
  unfold System.checkDeleteConnection at h
  cases hc : s.store.getConnection id with
  | none => simp [hc] at h
  | some existing =>
      simp only [hc] at h
      split at h
      · exact congrArg some (Except.ok.inj h)
      · cases h
      · split at h
        · exact congrArg some (Except.ok.inj h)
        · cases h

end Checks

namespace Inv

variable {cipher : Option Cipher} {classifyEndpoint : JsString → EndpointValidation}
  {kindOf : ConnectionId → ConnectionKind} {s : System} {id : ConnectionId} {draw : Draw}

theorem rotateSecret (h : Inv cipher kindOf s) {input : SecretOperationInput}
    (hpermitted : Permitted cipher s (.begin draw (.rotateSecret input))) :
    Inv cipher kindOf (s.rotateSecret cipher draw input) := by
  unfold System.rotateSecret
  cases hcheck : s.checkRotateSecret cipher input with
  | error failure => exact h.answer fun _ => revokedSince_failure
  | ok target =>
      obtain ⟨c, hc, hpi, href, hcipher⟩ := checkRotateSecret_ok hcheck
      obtain ⟨hkind, hrefOf⟩ := h.record_fits hc
      rw [hkind] at hpi
      rw [secretRefOf, if_neg hpi, href, Option.some_inj] at hrefOf
      obtain ⟨ref, value⟩ := target
      dsimp only at hrefOf ⊢
      subst hrefOf
      cases hvault : Vault.rotateSecret cipher s.vault (vaultRefId input.connectionId) value draw.iv
          draw.now with
      | error message => exact h.await_rejected (h.mem_drawn hc) hcipher hpi
      | ok stored =>
          obtain ⟨reference, vault⟩ := stored
          obtain ⟨-, entry, hstored⟩ := Vault.rotateSecret_ok hvault
          have hfits : ∀ r, (s.settled input.connectionId).record = some r →
              r.kind ≠ .piSession := fun r hr => by rwa [(h.settledFits _ r hr).1]
          refine h.await (p := ⟨.rotateSecret, input.connectionId, .storeRotation reference⟩)
            (h.mem_drawn hc) hcipher hstored.writes ?_ ⟨⟨rfl, hstored.refId⟩, hpi⟩ hpi ?_
          · rintro c' hc' e he
            cases he
            exact hstored.readable c' hc'
          · exact ((h.coherent _).rotate_iff hfits hstored.active hstored.version).mpr
              (hpermitted _ hcheck)

theorem createSecret (h : Inv cipher kindOf s) {input : SecretOperationInput}
    (hpermitted : Permitted cipher s (.begin draw (.createSecret input))) :
    Inv cipher kindOf (s.createSecret cipher draw input) := by
  unfold System.createSecret
  cases hcheck : s.checkCreateSecret cipher input with
  | error failure => exact h.answer fun _ => revokedSince_failure
  | ok target =>
      obtain ⟨c, value⟩ := target
      obtain ⟨hc, hpi, hcipher⟩ := checkCreateSecret_ok hcheck
      obtain ⟨hkind, hrefOf⟩ := h.record_fits hc
      rw [hkind] at hpi
      rw [secretRefOf, if_neg hpi] at hrefOf
      have hcondition := hpermitted c value hcheck
      have hfits : ∀ r, (s.settled input.connectionId).record = some r →
          r.kind ≠ .piSession := fun r hr => by rwa [(h.settledFits _ r hr).1]
      dsimp only
      cases hrestoring : c.restoringRevokedSecret with
      | some ref =>
          have href : ref = vaultRefId input.connectionId := by
            unfold ConnectionRecord.restoringRevokedSecret at hrestoring
            split at hrestoring
            · rw [hrefOf, Option.some_inj] at hrestoring
              exact hrestoring.symm
            · cases hrestoring
          subst href
          dsimp only
          cases hvault : Vault.rotateSecret cipher s.vault (vaultRefId input.connectionId) value
              draw.iv draw.now with
          | error message => exact h.await_rejected (h.mem_drawn hc) hcipher hpi
          | ok stored =>
              obtain ⟨reference, vault⟩ := stored
              obtain ⟨hnext, entry, hstored⟩ := Vault.rotateSecret_ok hvault
              refine h.await (p := ⟨.createSecret, input.connectionId, .storeSecret true reference⟩)
                (h.mem_drawn hc) hcipher hstored.writes ?_ ⟨⟨rfl, hstored.refId⟩, hpi⟩ hpi ?_
              · rintro c' hc' e he
                cases he
                exact hstored.readable c' hc'
              · rw [hrestoring, Option.isSome_some, if_pos rfl] at hcondition
                exact ((h.coherent _).restore_iff hfits hstored.active hstored.version hnext).mpr
                  hcondition
      | none =>
          dsimp only
          cases hvault : Vault.createSecret cipher s.vault (vaultRefId input.connectionId) value
              draw.iv draw.now with
          | error message => exact h.await_rejected (h.mem_drawn hc) hcipher hpi
          | ok stored =>
              obtain ⟨reference, vault⟩ := stored
              obtain ⟨hnone, entry, hstored⟩ := Vault.createSecret_ok hvault
              have hcoherent := h.coherent input.connectionId
              rw [hnone] at hcoherent
              refine h.await
                (p := ⟨.createSecret, input.connectionId, .storeSecret false reference⟩)
                (h.mem_drawn hc) hcipher hstored.writes ?_ ⟨⟨rfl, hstored.refId⟩, hpi⟩ hpi ?_
              · rintro c' hc' e he
                cases he
                exact hstored.readable c' hc'
              · rw [hrestoring, Option.isSome_none, if_neg Bool.false_ne_true] at hcondition
                exact (hcoherent.create_iff hfits hstored.active).mpr (hcondition hnone)

theorem revokeSecret (h : Inv cipher kindOf s) :
    Inv cipher kindOf (s.revokeSecret cipher draw id) := by
  unfold System.revokeSecret
  cases hcheck : s.checkRevokeSecret cipher id with
  | error failure => exact h.answer fun _ => revokedSince_failure
  | ok ref =>
      obtain ⟨c, hc, hpi, href, hcipher⟩ := checkRevokeSecret_ok hcheck
      obtain ⟨hkind, hrefOf⟩ := h.record_fits hc
      rw [hkind] at hpi
      rw [secretRefOf, if_neg hpi, href, Option.some_inj] at hrefOf
      subst hrefOf
      dsimp only
      cases hvault : Vault.revokeSecret cipher s.vault (vaultRefId id) draw.now with
      | error message => exact h.await_rejected (h.mem_drawn hc) hcipher hpi
      | ok vault =>
          obtain ⟨-, hwrites⟩ := Vault.revokeSecret_ok hvault
          refine h.await (p := ⟨.revokeSecret, id, .storeRevocation⟩) (h.mem_drawn hc) hcipher
            hwrites ?_ ⟨rfl, trivial⟩ hpi ((h.coherent id).revoke fun e => ⟨rfl, rfl⟩)
          intro c' hc' e he
          obtain ⟨before, hbefore, rfl⟩ := Option.map_eq_some_iff.mp he
          exact h.readable c' hc' _ before hbefore

theorem deleteConnection (h : Inv cipher kindOf s)
    {resolution : Option (List DeletionBlocker)} :
    Inv cipher kindOf (s.deleteConnection cipher draw id resolution) := by
  unfold System.deleteConnection
  cases hcheck : s.checkDeleteConnection id resolution with
  | error failure => exact h.answer fun _ => revokedSince_failure
  | ok c =>
      have hc := checkDeleteConnection_ok hcheck
      obtain ⟨hkind, hrefOf⟩ := h.record_fits hc
      dsimp only
      have hfinish (hidle : ∀ q ∈ s.inFlight, q.connectionId ≠ id) : Inv cipher kindOf
          (s.finish draw.now ⟨.deleteConnection, id, .deleteRecords⟩) := by
        refine h.finish (p := ⟨.deleteConnection, id, .deleteRecords⟩) (h.mem_drawn hc) hidle
          ⟨rfl, trivial⟩ ?_ rfl
        refine Coherent.of_none rfl fun hrevoked => (h.coherent id).silent ?_
        rw [settled_of_idle hidle]
        exact hrevoked
      by_cases hpi : kindOf id = .piSession
      · -- a Pi connection has no secret, and no call of it is in flight
        rw [secretRefOf, if_pos hpi] at hrefOf
        rw [hrefOf]
        exact hfinish fun q hq heq => (h.pending q hq).2 (heq ▸ hpi)
      · rw [secretRefOf, if_neg hpi] at hrefOf
        have htruthy : JsString.truthy c.secretRef = some (vaultRefId id) := by
          rw [hrefOf]
          exact JsString.truthy_some (List.append_ne_nil_of_left_ne_nil (js_ne_nil (by decide)) id)
        rw [htruthy]
        dsimp only
        cases hvault : Vault.deleteSecret cipher s.vault (vaultRefId id) with
        | error message =>
            refine hfinish fun q hq => ?_
            cases cipher with
            | none =>
                rw [(h.keyless rfl).1] at hq
                cases hq
            | some cipher => cases hvault
        | ok vault =>
            obtain ⟨hcipher, hwrites⟩ := Vault.deleteSecret_ok hvault
            exact h.await (p := ⟨.deleteConnection, id, .deleteRecords⟩) (h.mem_drawn hc) hcipher
              hwrites (fun _ _ _ he => by cases he) ⟨rfl, trivial⟩ hpi Coherent.delete

end Inv

namespace Inv

variable {cipher : Option Cipher} {classifyEndpoint : JsString → EndpointValidation}
  {kindOf : ConnectionId → ConnectionKind} {s : System} {id : ConnectionId} {draw : Draw}

theorem updateConnection (h : Inv cipher kindOf s) {input : UpdateProviderConnectionInput} :
    Inv cipher kindOf (s.updateConnection classifyEndpoint draw id input) := by
  have hupdated (f : ConnectionRecord → ConnectionRecord) (result : Result)
      (hf : ∀ c, (f c).connectionId = c.connectionId ∧ (f c).secretState = c.secretState) :
      Inv cipher kindOf ({ s with store := s.store.updateConnection id f }.answer
        .updateConnection id result) := by
    refine h.congr (fun i => ?_) rfl rfl rfl
    have hget : (s.store.updateConnection id f).getConnection i =
        if i = id then (s.store.getConnection i).map f else s.store.getConnection i :=
      ConnectionStore.getConnection_updateConnection (fun c => (hf c).1) i
    simp only [System.slot, System.answer, hget]
    congr 1
    · split
      · rw [Option.map_map]
        exact Option.map_congr fun c _ => (hf c).2
      · rfl
    · simp [revokedSince, Outcome.revokes]
  unfold System.updateConnection
  cases hc : s.store.getConnection id with
  | none => exact h.answer fun _ => revokedSince_failure
  | some existing =>
      dsimp only
      split
      · split
        · exact h.answer fun _ => revokedSince_failure
        · exact hupdated _ _ fun c => ⟨rfl, rfl⟩
      · exact hupdated _ _ fun c => ⟨rfl, rfl⟩
      · refine h.answer fun i => ?_
        simp [revokedSince, Outcome.revokes]

theorem registerDependency (h : Inv cipher kindOf s) {store : ConnectionStore}
    {record : DependencyRecord} (hstore : s.store.insertDependency record = .ok store) :
    Inv cipher kindOf { s with store := store } :=
  h.congr (fun i => by
    simp only [System.slot, ConnectionStore.getConnection_insertDependency hstore]) rfl rfl rfl

theorem createConnection (h : Inv cipher kindOf s) {input : CreateProviderConnectionInput}
    (hid : id ∉ s.drawn) : ∃ kinds, Inv cipher kinds
      (s.createConnection cipher classifyEndpoint draw id input) := by
  refine ⟨Function.update kindOf id input.kind, ?_⟩
  obtain ⟨hslot, hrow, hidle⟩ := h.fresh id hid
  have hdrawn := h.drawn hid input.kind
  have hmem : id ∈ id :: s.drawn := List.mem_cons_self
  have hkind : Function.update kindOf id input.kind id = input.kind := Function.update_self ..
  unfold System.createConnection
  dsimp only
  split
  · exact hdrawn.answer fun _ => revokedSince_failure
  · split
    · rename_i hpi
      refine hdrawn.finish hmem hidle ⟨⟨rfl, rfl⟩, hkind.symm, ?_⟩ ?_ ?_
      · rw [secretRefOf, hkind, if_pos hpi]
      · change Coherent (Vault.row s.vault (vaultRefId id)) (Continuation.effect (s.slot id) _)
        rw [hslot, hrow]
        refine ⟨fun r hr hne => ?_, fun hrevoked => absurd hrevoked Bool.false_ne_true⟩
        cases hr
        exact absurd hpi hne
      · change (Continuation.effect (s.slot id) _).revoked = (s.slot id).revoked
        rw [hslot]
        rfl
    · rename_i hpi
      split
      · exact hdrawn.answer fun _ => revokedSince_failure
      · split
        · exact hdrawn.answer fun _ => revokedSince_failure
        · rename_i value hvalue havailable
          have hcipher : cipher.isSome := eq_true_of_ne_false havailable
          have hpi' : Function.update kindOf id input.kind id ≠ .piSession := by rwa [hkind]
          cases hvault : Vault.createSecret cipher s.vault (vaultRefId id) value draw.iv
              draw.now with
          | error message => exact hdrawn.await_rejected hmem hcipher hpi'
          | ok stored =>
              obtain ⟨reference, vault⟩ := stored
              obtain ⟨-, entry, hstored⟩ := Vault.createSecret_ok hvault
              dsimp only
              refine hdrawn.await (p := ⟨.createConnection, id, .insertConnection _⟩) hmem hcipher
                hstored.writes ?_ ⟨⟨rfl, rfl⟩, hkind.symm, ?_⟩ hpi' ?_
              · rintro c' hc' e he
                cases he
                exact hstored.readable c' hc'
              · rw [secretRefOf, if_neg hpi', hstored.refId]
              · change Coherent (some entry) (Continuation.effect (s.settled id) _)
                rw [settled_of_idle hidle, hslot]
                refine ⟨fun r hr _ => ?_, fun hrevoked => absurd hrevoked Bool.false_ne_true⟩
                cases hr
                refine ⟨⟨entry, rfl, ?_, ?_⟩, ?_, ?_⟩
                · simp [ConnectionRecord.secretState, hstored.version]
                · simp [ConnectionRecord.secretState, hstored.active]
                · simp [ConnectionRecord.secretState]
                · simp [ConnectionRecord.secretState, Continuation.effect]

/-- **Every permitted step keeps the invariant.** -/
theorem perform (h : Inv cipher kindOf s) {a : Action} (hfresh : a.Fresh s)
    (hpermitted : Permitted cipher s a) :
    ∃ kinds, Inv cipher kinds (s.perform cipher classifyEndpoint a) := by
  cases a with
  | begin draw call =>
      cases call with
      | createConnection id input => exact h.createConnection hfresh
      | updateConnection connectionId input => exact ⟨kindOf, h.updateConnection⟩
      | createSecret input => exact ⟨kindOf, h.createSecret hpermitted⟩
      | rotateSecret input => exact ⟨kindOf, h.rotateSecret hpermitted⟩
      | revokeSecret connectionId => exact ⟨kindOf, h.revokeSecret⟩
      | deleteConnection connectionId resolution => exact ⟨kindOf, h.deleteConnection⟩
  | resume now => exact ⟨kindOf, h.resume⟩
  | registerDependency record =>
      refine ⟨kindOf, ?_⟩
      unfold System.perform
      dsimp only
      split
      · exact h
      · rename_i store hstore
        exact h.registerDependency hstore

/-- When no call is in flight the stores agree. -/
theorem inStep (h : Inv cipher kindOf s) (hflight : s.inFlight = []) : InStep cipher s := by
  have hsettled : ∀ i, s.settled i = s.slot i := fun i =>
    settled_of_idle (by simp [hflight])
  refine ⟨?_, ?_⟩
  · intro id c hc hpi ref href
    obtain ⟨hkind, hrefOf⟩ := h.record_fits hc
    rw [hkind] at hpi
    rw [secretRefOf, if_neg hpi, href, Option.some_inj] at hrefOf
    subst hrefOf
    have hrecord : (s.settled id).record = some c.secretState := by
      rw [hsettled, System.slot, hc]
      rfl
    have hagrees := (h.coherent id).agrees _ hrecord (by rw [← hkind] at hpi; exact hpi)
    obtain ⟨entry, hrow, hversion, hactive⟩ := hagrees.row
    have hcipher : cipher.isSome := by
      cases hcipher : cipher with
      | none =>
          rw [(h.keyless hcipher).2.1] at hrow
          cases hrow
      | some c => rfl
    refine ⟨⟨entry, hrow, hversion⟩, ?_⟩
    rw [(Vault.readSecret_eq hcipher h.readable).2]
    constructor
    · rintro ⟨e, he, hstatus⟩
      rw [hrow, Option.some_inj] at he
      subst he
      exact hactive.mp hstatus
    · intro hstate
      exact ⟨entry, hrow, hactive.mpr hstate⟩
  · intro id hrevoked
    have hcipher : cipher.isSome := by
      cases hcipher : cipher with
      | none =>
          have hslot := (h.keyless hcipher).2.2 id
          rw [System.slot, hrevoked] at hslot
          cases hslot
      | some c => rfl
    refine (Vault.readSecret_eq hcipher h.readable).1.mpr ((h.coherent id).silent ?_)
    rw [hsettled]
    exact hrevoked

end Inv

theorem Run.inv {cipher : Option Cipher} {classifyEndpoint : JsString → EndpointValidation}
    {s : System} (h : Run cipher classifyEndpoint (Permitted cipher) s) :
    ∃ kindOf, Inv cipher kindOf s := by
  induction h with
  | initial => exact ⟨fun _ => .piSession, Inv.initial⟩
  | step a hrun hfresh hpermitted ih =>
      obtain ⟨kindOf, hinv⟩ := ih
      exact hinv.perform hfresh hpermitted

/-- **The two stores stay in step.**  In every run whose calls are all
permitted, whenever no call is in flight, the vault holds the secret of every
stored connection at the version of its record, gives it out if and only if the
connection is active, and gives out no secret between its revocation and a later
creation. -/
theorem run_inStep (cipher : Option Cipher) (classifyEndpoint : JsString → EndpointValidation)
    (s : System) (hrun : Run cipher classifyEndpoint (Permitted cipher) s)
    (hflight : s.inFlight = []) : InStep cipher s := by
  obtain ⟨kindOf, hinv⟩ := hrun.inv
  exact hinv.inStep hflight

/-! ## A rotation after a revocation -/

section Rotation

/-- A cipher that leaves the text as it is. -/
def plainCipher : Cipher where
  encrypt iv plaintext := ⟨plaintext, iv, []⟩
  decrypt s := some s.ciphertext
  decrypt_encrypt _ _ := rfl

def anyEndpoint (_ : JsString) : EndpointValidation :=
  ⟨true, false, none, []⟩

def tick : Draw :=
  ⟨js "t", js "iv"⟩

def connectionInput : CreateProviderConnectionInput where
  kind := .known
  label := js "OpenAI"
  provider := .known .openai
  endpointUrl := js "https://api.openai.com/v1"
  secretValue := some (js "first")

def rotationInput : SecretOperationInput :=
  ⟨js "c", some (js "second")⟩

/-- A connection is created. -/
def created : System :=
  (System.initial.perform (some plainCipher) anyEndpoint
    (.begin tick (.createConnection (js "c") connectionInput))).perform (some plainCipher)
      anyEndpoint (.resume (js "t"))

theorem run_created {P : System → Action → Prop}
    (hcreate : P System.initial
      (.begin tick (.createConnection (js "c") connectionInput)))
    (hresume : ∀ s, P s (.resume (js "t"))) :
    Run (some plainCipher) anyEndpoint P created :=
  .step _ (.step _ .initial List.not_mem_nil hcreate) trivial (hresume _)

/-- A rotation of an active secret keeps the stores in step. -/
theorem run_inStep_rotated : InStep (some plainCipher)
    ((created.perform (some plainCipher) anyEndpoint
      (.begin tick (.rotateSecret rotationInput))).perform (some plainCipher) anyEndpoint
        (.resume (js "t"))) :=
  run_inStep (some plainCipher) anyEndpoint _
    (.step _ (.step _ (run_created trivial fun _ => trivial) trivial fun _ _ => rfl) trivial
      trivial) rfl

/-- A secret that is rotated after its revocation is given out again, although
the connection stays revoked. -/
theorem rotated_not_inStep :
    ¬ ∀ (cipher : Option Cipher) (classifyEndpoint : JsString → EndpointValidation) (s : System),
      Run cipher classifyEndpoint (fun _ _ => True) s → s.inFlight = [] → InStep cipher s := by
  intro h
  have hrun := run_created (P := fun _ _ => True) trivial fun _ => trivial
  have hrevoked := Run.step (.resume (js "t"))
    (Run.step (.begin tick (.revokeSecret (js "c"))) hrun trivial trivial) trivial trivial
  have hrotated := Run.step (.resume (js "t"))
    (Run.step (.begin tick (.rotateSecret rotationInput)) hrevoked trivial trivial) trivial trivial
  have hnull := (h _ _ _ hrotated rfl).revoked (js "c") rfl
  cases hnull

end Rotation

end Hepha.Connections
