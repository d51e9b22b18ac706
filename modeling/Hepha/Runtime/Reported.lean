import Hepha.Runtime.Executed

/-!
# What an execution reports

An execution does not return while the store has its invocation as running, but for two
reasons: the store refused a write or a read, or the step was refused before it had an
attempt of its own.  In every other case the receipt that is returned is the row of the
store, settled as the last attempt of the chain has ended, and so is the attempt.

## Strategy

A program is followed by what it gives when it is run on a consistent store where some
lasting fact holds (`Gives`).  Three requests give a fact: a settled attempt has ended,
a settled invocation is settled, and what is read is the store's.  All ways of an
attempt come to `finishAttempt`, so its lemma is used by all others.
-/

namespace Hepha.Runtime

open Interaction Interaction.Program

variable {planHash : JsValue → JsString} {α β : Type} {D E : Database → Prop} {w : World}

/-! ## Programs on a consistent store -/

/-- Beside other writers, a program that is run where `D` holds ends where `post` does. -/
def Gives (planHash : JsValue → JsString) (D : Database → Prop) (p : Handoff α)
    (post : α → Database → Prop) : Prop :=
  Triple (surroundings planHash) (fun _ => True) (fun w => Consistent w.db ∧ D w.db) p
    fun a w => Consistent w.db ∧ post a w.db

theorem lasting_true : Lasting fun _ => True :=
  fun _ _ _ _ _ => trivial

theorem World.Answers.effect_db {after : World} {r : Request} {b : r.Answer}
    (h : w.Answers planHash r b after) : Effect w.db after.db := by
  cases r with
  | execute =>
      obtain rfl := h
      exact .unchanged
  | _ => exact (World.Answers.effect (by trivial) h).1

theorem Lasting.upheld (hD : Lasting D) :
    Upheld (surroundings planHash) (fun _ => True) fun w => Consistent w.db ∧ D w.db where
  moves _ _ hs hmove := ⟨hs.1.effect hmove.effect.1, hD _ _ hs.1 hmove.effect.1 hs.2⟩
  safe _ _ := trivial

theorem Lasting.answer (hD : Lasting D) {after : World} {r : Request} {b : r.Answer}
    (hw : Consistent w.db ∧ D w.db) (h : w.Answers planHash r b after) :
    Consistent after.db ∧ D after.db :=
  ⟨hw.1.effect h.effect_db, hD _ _ hw.1 h.effect_db hw.2⟩

namespace Gives

variable {p : Handoff α} {post post' : α → Database → Prop}

theorem done (hD : Lasting D) {a : α} (h : ∀ db, D db → post a db) :
    Gives planHash D (.done a) post := by
  intro w hw t ht
  have hmoved := hD.upheld.moved hw ht
  exact ⟨trivial, hmoved.1, h _ hmoved.2⟩

/-- A request after which a fact holds that depends on its answer. -/
theorem tell {r : Request} {next : r.Answer → Handoff α} (hD : Lasting D)
    (F : r.Answer → Database → Prop)
    (hF : ∀ (t u : World) b, Consistent t.db → Consistent u.db → t.Answers planHash r b u →
      F b u.db)
    (hnext : ∀ b, Gives planHash (fun db => D db ∧ F b db) (next b) post) :
    Gives planHash D (.ask r next) post := by
  refine fun w hw => .ask hD.upheld hw fun t b u ht hu => ?_
  have hafter := hD.answer ht hu
  exact hnext b u ⟨hafter.1, hafter.2, hF t u b ht.1 hafter.1 hu⟩

theorem ask {r : Request} {next : r.Answer → Handoff α} (hD : Lasting D)
    (hnext : ∀ b, Gives planHash D (next b) post) : Gives planHash D (.ask r next) post :=
  fun _ hw => .ask hD.upheld hw fun _ b u ht hu => hnext b u (hD.answer ht hu)

theorem bind {mid : α → Database → Prop} {f : α → Handoff β} {post : β → Database → Prop}
    (hp : Gives planHash D p mid) (hf : ∀ a, Gives planHash (mid a) (f a) post) :
    Gives planHash D (p.bind f) post :=
  Triple.bind hp hf

theorem pre (hp : Gives planHash D p post) (h : ∀ db, E db → D db) : Gives planHash E p post :=
  fun w hw => hp w ⟨hw.1, h _ hw.2⟩

/-- A fact that does not depend on the store. -/
theorem of_fact {F : Prop} (hF : ∀ db, D db → F) (hp : F → Gives planHash D p post) :
    Gives planHash D p post :=
  fun w hw => hp (hF _ hw.2) w hw

theorem mono (hp : Gives planHash D p post) (h : ∀ a db, post a db → post' a db) :
    Gives planHash D p post' :=
  fun w hw => (hp w hw).mono fun a _ ht => ⟨ht.1, h a _ ht.2⟩

/-- What a program yields whatever is answered. -/
theorem yields {quiet : Request → Prop} {R : α → Prop} (hp : Yields quiet R p) :
    Gives planHash (fun _ => True) p fun a _ => R a := by
  intro w hw
  refine (hp.ensures lasting_true.upheld (fun _ _ _ _ _ hs hanswer => ?_) hw).mono ?_
  · exact lasting_true.answer hs hanswer
  · exact fun a t ht => ⟨ht.2.1, ht.1⟩

theorem ite {c : Prop} [Decidable c] {q : Handoff α} (hp : c → Gives planHash D p post)
    (hq : ¬c → Gives planHash D q post) : Gives planHash D (if c then p else q) post := by
  by_cases hc : c
  · rw [if_pos hc]
    exact hp hc
  · rw [if_neg hc]
    exact hq hc

end Gives

/-! ## What is stored -/

variable {key : JsString}

/-- The row of an attempt that has ended. -/
structure EndedAs (key : JsString) (a : RuntimeAttempt) (db : Database) : Prop where
  terminal : isTerminalAttempt a = true
  row : a.stored ∈ db.attempts
  invocation : a.invocationId.toWellFormed = key

/-- The row of an invocation that is settled, with what its last attempt has come to. -/
structure SettledAs (key : JsString) (r : RuntimeInvocationReceipt) (db : Database) : Prop where
  settled : r.status ≠ .running
  row : r ∈ db.chains
  invocation : r.invocationId = key
  last : ∃ a, (db.attemptsOf r.invocationId).getLast? = some a ∧
    chainMatchesFinalAttempt r a = true

theorem lasting_endedAs {a : RuntimeAttempt} : Lasting (EndedAs key a) := by
  rintro db after hconsistent heffect ⟨hterminal, hrow, hinvocation⟩
  obtain ⟨b, hb, rfl | hstep⟩ := hconsistent.attempts_effect heffect a.stored hrow
  · exact ⟨hterminal, hb, hinvocation⟩
  · have hopen : isTerminalAttempt a = false := hstep.move.not_terminal
    rw [hopen] at hterminal
    exact absurd hterminal Bool.false_ne_true

theorem lasting_settledAs {r : RuntimeInvocationReceipt} : Lasting (SettledAs key r) := by
  rintro db after hconsistent heffect ⟨hsettled, hrow, hinvocation, hlast⟩
  obtain ⟨hafter, hattempts, -⟩ := hconsistent.settled_effect heffect hrow hsettled
  exact ⟨hsettled, hafter, hinvocation, hattempts ▸ hlast⟩

theorem chainMatchesFinalAttempt_of_settled {r : RuntimeInvocationReceipt}
    {attempts : List RuntimeAttempt} {events : List RuntimeRouteChangeEvent}
    (hsettled : r.status ≠ .running) (h : OpenOrSettled r attempts events) :
    ∃ a, attempts.getLast? = some a ∧ chainMatchesFinalAttempt r a = true := by
  have hcoherent := (h.resolve_left hsettled).2.2
  unfold settledCoherent at hcoherent
  cases hlast : attempts.getLast? with
  | none => simp [hlast] at hcoherent
  | some a =>
      cases hsettledAt : r.settledAt with
      | none => simp [hlast, hsettledAt] at hcoherent
      | some settledAt =>
          simp only [hlast, hsettledAt, Bool.and_eq_true] at hcoherent
          exact ⟨a, rfl, hcoherent.1.1.1.2⟩

theorem Consistent.settledAs {db : Database} (h : Consistent db) {r : RuntimeInvocationReceipt}
    (hrow : r ∈ db.chains) (hsettled : r.status ≠ .running)
    (hinvocation : r.invocationId.toWellFormed = key) : SettledAs key r db := by
  have hkey : r.invocationId.toWellFormed = r.invocationId :=
    congrArg RuntimeInvocationReceipt.invocationId (h.chainStored r hrow).1
  refine ⟨hsettled, hrow, hkey.symm.trans hinvocation, ?_⟩
  have hshape := h.shape r hrow
  generalize db.attemptsOf r.invocationId = attempts at hshape ⊢
  generalize db.eventsOf r.invocationId = events at hshape
  cases hshape with
  | pending running => exact absurd running hsettled
  | single _ _ _ _ _ _ status => exact chainMatchesFinalAttempt_of_settled hsettled status
  | double _ _ _ _ _ _ _ _ _ _ _ status =>
      exact chainMatchesFinalAttempt_of_settled hsettled status

/-! ### What is read -/

/-- A receipt that was read: it is the row, unless that was running and has been settled. -/
structure CurrentAs (key : JsString) (r : RuntimeInvocationReceipt) (db : Database) : Prop where
  invocation : r.invocationId.toWellFormed = key
  settled : r.status ≠ .running → SettledAs key r db

/-- An attempt that was read. -/
structure FoundAs (key : JsString) (a : RuntimeAttempt) (db : Database) : Prop where
  invocation : a.invocationId.toWellFormed = key
  ended : isTerminalAttempt a = true → EndedAs key a db

/-- What is read of an invocation. -/
def ReadAs (key : JsString) :
    RuntimePersistenceResult (Option RuntimeInvocationEvidence) → Database → Prop
  | .ok (some evidence), db =>
      CurrentAs key evidence.receipt db ∧ ∀ a ∈ evidence.attempts, FoundAs key a db
  | _, _ => True

theorem lasting_currentAs {r : RuntimeInvocationReceipt} : Lasting (CurrentAs key r) :=
  fun _ _ hconsistent heffect h =>
    ⟨h.invocation, fun hr => lasting_settledAs _ _ hconsistent heffect (h.settled hr)⟩

theorem lasting_foundAs {a : RuntimeAttempt} : Lasting (FoundAs key a) :=
  fun _ _ hconsistent heffect h =>
    ⟨h.invocation, fun ha => lasting_endedAs _ _ hconsistent heffect (h.ended ha)⟩

theorem lasting_readAs {result : RuntimePersistenceResult (Option RuntimeInvocationEvidence)} :
    Lasting (ReadAs key result) := by
  intro db after hconsistent heffect h
  rcases result with _ | _ | evidence
  · trivial
  · trivial
  · exact ⟨lasting_currentAs _ _ hconsistent heffect h.1,
      fun a ha => lasting_foundAs _ _ hconsistent heffect (h.2 a ha)⟩

theorem readAs_getInvocation {db : Database} (hconsistent : Consistent db) (id : JsString) :
    ReadAs id.toWellFormed (getInvocation db (.str id)) db := by
  rcases hread : getInvocation db (.str id) with _ | _ | evidence
  · trivial
  · trivial
  · obtain ⟨hattempts, hreceipt, -⟩ := getInvocation_some hread
    have hinvocation : evidence.receipt.invocationId.toWellFormed = id.toWellFormed := by
      rw [hreceipt.key, JsString.toWellFormed_toWellFormed]
    refine ⟨⟨hinvocation, fun hsettled => hconsistent.settledAs hreceipt.mem hsettled hinvocation⟩,
      fun a ha => ?_⟩
    rw [hattempts, attemptRows_eq, List.mem_insertionSort, mem_attemptsOf] at ha
    have hkey : a.invocationId.toWellFormed = id.toWellFormed := by
      rw [ha.2, JsString.toWellFormed_toWellFormed]
    refine ⟨hkey, fun hterminal => ⟨hterminal, ?_, hkey⟩⟩
    rw [(hconsistent.attemptStored a ha.1).1]
    exact ha.1

/-! ### Requests that give a fact -/

namespace Gives

variable {post : α → Database → Prop}

theorem getInvocation {id : JsString}
    {next : RuntimePersistenceResult (Option RuntimeInvocationEvidence) → Handoff α}
    (hD : Lasting D)
    (hnext : ∀ evidence,
      Gives planHash (fun db => D db ∧ ReadAs id.toWellFormed evidence db) (next evidence) post) :
    Gives planHash D (.ask (.getInvocation id) next) post := by
  refine .tell hD (ReadAs id.toWellFormed) (fun _ u _ _ hu hanswer => ?_) hnext
  obtain ⟨rfl, rfl⟩ := hanswer
  exact readAs_getInvocation hu id

theorem settleAttempt {a : RuntimeAttempt} {next : Bool → Handoff α} (hD : Lasting D)
    (ha : a.invocationId.toWellFormed = key) (hrefused : Gives planHash D (next false) post)
    (haccepted : Gives planHash (fun db => D db ∧ EndedAs key a db) (next true) post) :
    Gives planHash D (.ask (.settleAttempt a) next) post := by
  refine .tell hD (fun accepted db => accepted = true → EndedAs key a db)
    (fun t u accepted ht _ hanswer => ?_) fun accepted => ?_
  · obtain ⟨raw, hraw, rfl, haccepted⟩ := hanswer
    rintro rfl
    obtain ⟨hterminal, hrow⟩ := settleAttempt_ok ht hraw haccepted.symm
    exact ⟨hterminal, hrow, ha⟩
  · cases accepted with
    | false => exact hrefused.pre fun _ h => h.1
    | true => exact haccepted.pre fun _ h => ⟨h.1, h.2 rfl⟩

theorem settleInvocation (key : JsString) {r : RuntimeInvocationReceipt} {next : Bool → Handoff α}
    (hD : Lasting D) (hrefused : Gives planHash D (next false) post)
    (haccepted : Gives planHash
      (fun db => D db ∧ (r.invocationId.toWellFormed = key → SettledAs key r db)) (next true)
      post) :
    Gives planHash D (.ask (.settleInvocation r) next) post := by
  refine .tell hD
    (fun accepted db => accepted = true → r.invocationId.toWellFormed = key → SettledAs key r db)
    (fun _ u accepted _ hu hanswer => ?_) fun accepted => ?_
  · obtain ⟨raw, hraw, rfl, haccepted⟩ := hanswer
    rintro rfl hkey
    obtain ⟨hsettled, hrow⟩ := settleInvocation_ok hraw haccepted.symm
    exact hu.settledAs hrow hsettled hkey
  · cases accepted with
    | false => exact hrefused.pre fun _ h => h.1
    | true => exact haccepted.pre fun _ h => ⟨h.1, h.2 rfl⟩

end Gives

/-! ## The end of an attempt -/

/-- The codes of a step that was refused before it had an attempt. -/
def ExecutorErrorCode.IsRefusal (code : ExecutorErrorCode) : Prop :=
  code = .invalidPlan ∨ code = .invalidContext ∨ code = .invalidStep ∨ code = .persistenceFailed

/-- What an attempt reports is what the store holds, if that did not fail; the primary one
may leave its invocation running. -/
def Reported (key : JsString) (leavesOpen : Prop) : AttemptResult → Database → Prop
  | .ok a r _, db => a.status = .completed ∧ r.status = .completed ∧ EndedAs key a db ∧
      SettledAs key r db
  | .rejected code (some a) (some r), db => r.invocationId.toWellFormed = key ∧
      (code ≠ .persistenceFailed →
        EndedAs key a db ∧ (SettledAs key r db ∨ leavesOpen ∧ r.status = .running))
  | .rejected code none (some _), _ => code = .persistenceFailed
  | .rejected code none none, _ => code.IsRefusal
  | .rejected _ (some _) none, _ => False

theorem Lasting.or {p : Prop} (hD : Lasting D) : Lasting fun db => D db ∨ p :=
  fun db after hconsistent heffect h => h.imp_left (hD db after hconsistent heffect)

theorem lasting_reported {leavesOpen : Prop} {result : AttemptResult} :
    Lasting (Reported key leavesOpen result) := by
  intro db after hconsistent heffect h
  rcases result with ⟨a, r, output⟩ | ⟨code, _ | a, _ | r⟩
  · exact ⟨h.1, h.2.1, lasting_endedAs _ _ hconsistent heffect h.2.2.1,
      lasting_settledAs _ _ hconsistent heffect h.2.2.2⟩
  · exact h
  · exact h
  · exact h
  · exact ⟨h.1, fun hcode =>
      (lasting_endedAs.and lasting_settledAs.or) _ _ hconsistent heffect (h.2 hcode)⟩

theorem Reported.mono {p q : Prop} (hpq : p → q) {result : AttemptResult} {db : Database}
    (h : Reported key p result db) : Reported key q result db := by
  rcases result with ⟨a, r, output⟩ | ⟨code, _ | a, _ | r⟩
  · exact h
  · exact h
  · exact h
  · exact h
  · exact ⟨h.1, fun hcode => (h.2 hcode).imp_right (Or.imp_right (And.imp_left hpq))⟩

/-- The primary step of a plan with two steps. -/
def LeavesOpen (input : ExecutorInput) (plan : HandoffPlan) : Prop :=
  input.stepIndex = 0 ∧ plan.steps.length = 2

section Attempt

variable {input : ExecutorInput} {plan : HandoffPlan} {step : HandoffPlanStep}
  {receipt : RuntimeInvocationReceipt} {a : RuntimeAttempt}
  {event : Option RuntimeRouteChangeEvent} {code : ExecutorErrorCode}
  {failureCode : RuntimeSafeFailureCode} {output : JsString} {opened : Initialization}
  {auth : Authentication}

theorem currentReceipt_gives (hD : Lasting D) (id : JsString) :
    Gives planHash D (currentReceipt id) fun result db =>
      D db ∧ ∀ r, result = some r → CurrentAs id.toWellFormed r db := by
  refine .getInvocation hD fun evidence => ?_
  rcases evidence with _ | _ | evidence
  · exact .done (hD.and lasting_readAs) fun db h => ⟨h.1, fun _ hr => absurd hr (by simp)⟩
  · exact .done (hD.and lasting_readAs) fun db h => ⟨h.1, fun _ hr => absurd hr (by simp)⟩
  · refine .done (hD.and lasting_readAs) fun db h => ⟨h.1, ?_⟩
    rintro _ ⟨⟩
    exact h.2.1

theorem closeInvocation_gives :
    Gives planHash (fun db => EndedAs key a db ∧ CurrentAs key receipt db)
      (closeInvocation input plan receipt a code output)
      (Reported key (LeavesOpen input plan)) := by
  have hD : Lasting fun db => EndedAs key a db ∧ CurrentAs key receipt db :=
    lasting_endedAs.and lasting_currentAs
  unfold closeInvocation
  refine .ite (fun hopen => ?_) fun _ => .ask hD fun settledAt => ?_
  · refine .done hD fun db h => ⟨h.2.invocation, fun _ => ⟨h.1, ?_⟩⟩
    by_cases hrunning : receipt.status = .running
    · exact .inr ⟨⟨hopen.1, hopen.2.1⟩, hrunning⟩
    · exact .inl (h.2.settled hrunning)
  · refine .settleInvocation key hD ?_ ?_
    · exact .done hD fun db h => ⟨h.2.invocation, fun hcode => absurd rfl hcode⟩
    · refine .ite (fun hcompleted => ?_) fun _ => ?_
      · refine .done (hD.and lasting_settledAs.imp) fun db h => ⟨hcompleted, ?_, h.1.1, ?_⟩
        · simp [settleReceipt, hcompleted]
        · exact h.2 h.1.2.invocation
      · refine .done (hD.and lasting_settledAs.imp) fun db h => ⟨h.1.2.invocation, fun _ => ?_⟩
        exact ⟨h.1.1, .inl (h.2 h.1.2.invocation)⟩

theorem finishAttempt_gives (ha : a.invocationId.toWellFormed = input.invocationId.toWellFormed)
    (hreceipt : receipt.invocationId.toWellFormed = input.invocationId.toWellFormed) :
    Gives planHash (fun _ => True) (finishAttempt input plan receipt a event code output)
      (Reported input.invocationId.toWellFormed (LeavesOpen input plan)) := by
  have hrefused : ∀ {D : Database → Prop} {r : RuntimeInvocationReceipt}, Lasting D →
      (∀ db, D db → r.invocationId.toWellFormed = input.invocationId.toWellFormed) →
      Gives planHash D (.done (.rejected .persistenceFailed (some a) (some r)))
        (Reported input.invocationId.toWellFormed (LeavesOpen input plan)) :=
    fun hD hr => .done hD fun db h => ⟨hr db h, fun hcode => absurd rfl hcode⟩
  unfold finishAttempt
  refine .ite (fun _ => hrefused lasting_true fun _ _ => hreceipt) fun _ => ?_
  refine .settleAttempt lasting_true ha (hrefused lasting_true fun _ _ => hreceipt) ?_
  have hended : Lasting fun db => True ∧ EndedAs input.invocationId.toWellFormed a db :=
    lasting_true.and lasting_endedAs
  simp only [done_bind]
  refine .bind (currentReceipt_gives hended input.invocationId) fun persisted => ?_
  cases persisted with
  | none => exact (hrefused hended fun _ _ => hreceipt).pre fun _ h => h.1
  | some persisted =>
      have hD : Lasting fun db => EndedAs input.invocationId.toWellFormed a db ∧
          CurrentAs input.invocationId.toWellFormed persisted db :=
        lasting_endedAs.and lasting_currentAs
      refine Gives.pre ?_ fun db h => (⟨h.1.2, h.2 _ rfl⟩ :
        EndedAs input.invocationId.toWellFormed a db ∧
          CurrentAs input.invocationId.toWellFormed persisted db)
      cases event with
      | none => exact closeInvocation_gives
      | some event =>
          refine .ask hD fun appended => ?_
          cases appended with
          | false => exact hrefused hD fun _ h => h.2.invocation
          | true =>
              simp only [done_bind]
              refine .bind (currentReceipt_gives hD input.invocationId) fun updated => ?_
              cases updated with
              | none => exact (hrefused hD fun _ h => h.2.invocation).pre fun _ h => h.1
              | some updated => exact Gives.pre closeInvocation_gives fun _ h => ⟨h.1.1, h.2 _ rfl⟩

/-! ## Preparation -/

/-- A preparation that has failed has something to report. -/
def PreparedAs (key : JsString) (leavesOpen : Prop) (F : β → Prop) :
    Except AttemptResult β → Database → Prop
  | .error result, db => Reported key leavesOpen result db
  | .ok x, _ => F x

theorem lasting_preparedAs {leavesOpen : Prop} {F : β → Prop} {outcome : Except AttemptResult β} :
    Lasting (PreparedAs key leavesOpen F outcome) := by
  cases outcome with
  | error result => exact lasting_reported
  | ok x => exact fun _ _ _ _ h => h

/-- What was opened is of the invocation. -/
def Initialization.IsOf (id : JsString) (opened : Initialization) : Prop :=
  opened.receipt.invocationId = id ∧ opened.preparing.invocationId = id

theorem Gives.failed {p : Handoff AttemptResult} {leavesOpen : Prop} {F : β → Prop}
    (hp : Gives planHash D p (Reported key leavesOpen)) :
    Gives planHash D (p.bind fun result => .done (.error result))
      (PreparedAs (β := β) key leavesOpen F) :=
  hp.bind fun _ => .done lasting_reported fun _ h => h

theorem settleStartedPreparation_gives
    (ha : a.invocationId.toWellFormed = input.invocationId.toWellFormed)
    (hreceipt : receipt.invocationId.toWellFormed = input.invocationId.toWellFormed) :
    Gives planHash (fun _ => True)
      (settleStartedPreparation input plan receipt a event failureCode code)
      (Reported input.invocationId.toWellFormed (LeavesOpen input plan)) :=
  .ask lasting_true fun _ => finishAttempt_gives ha hreceipt

theorem failPreparation_gives (hopened : opened.IsOf input.invocationId) :
    Gives planHash (fun _ => True) (failPreparation input plan opened failureCode code)
      (Reported input.invocationId.toWellFormed (LeavesOpen input plan)) := by
  refine .ask lasting_true fun started => ?_
  cases started with
  | false => exact .done lasting_true fun _ _ => rfl
  | true => exact settleStartedPreparation_gives (by rw [hopened.2]) (by rw [hopened.1])

section

variable (ha : a.invocationId = input.invocationId) (hopened : opened.IsOf input.invocationId)
include ha hopened

theorem settleOpened_gives :
    Gives planHash (fun _ => True)
      (settleStartedPreparation input plan opened.receipt a event failureCode code)
      (Reported input.invocationId.toWellFormed (LeavesOpen input plan)) :=
  settleStartedPreparation_gives (by rw [ha]) (by rw [hopened.1])

theorem abandonPreparation_gives :
    Gives planHash (fun _ => True)
      (abandonPreparation input plan opened.receipt a event failureCode code)
      (Reported input.invocationId.toWellFormed (LeavesOpen input plan)) := by
  refine .ask lasting_true fun cleaned => ?_
  cases cleaned with
  | true => exact settleOpened_gives ha hopened
  | false => exact settleOpened_gives ha hopened

theorem spawnAttempt_gives :
    Gives planHash (fun _ => True) (spawnAttempt input plan step opened a auth)
      (PreparedAs input.invocationId.toWellFormed (LeavesOpen input plan)
        fun running => running.invocationId = input.invocationId) := by
  refine .bind (.yields (yields_secretFor auth)) fun secret => ?_
  cases secret with
  | none => exact (abandonPreparation_gives ha hopened).failed
  | some secret =>
      refine .ask lasting_true fun environment => ?_
      cases environment with
      | false => exact (abandonPreparation_gives ha hopened).failed
      | true =>
          refine .ask lasting_true fun spawnedAt => .ask lasting_true fun marked => ?_
          cases marked with
          | true => exact .done lasting_true fun _ _ => ha
          | false =>
              refine .ask lasting_true fun cleaned => ?_
              cases cleaned with
              | false => exact (settleOpened_gives ha hopened).failed
              | true =>
                  refine .done lasting_true fun _ _ => ⟨?_, fun hcode => absurd rfl hcode⟩
                  rw [hopened.1]

theorem prepareStarted_gives {connection : Connections.ConnectionRecord} {providerId : JsString} :
    Gives planHash (fun _ => True)
      (prepareStarted input plan step opened connection providerId a auth)
      (PreparedAs input.invocationId.toWellFormed (LeavesOpen input plan)
        fun running => running.invocationId = input.invocationId) := by
  refine .ask lasting_true fun hook => ?_
  cases hook with
  | stopped => exact (settleOpened_gives ha hopened).failed
  | thrown => exact (settleOpened_gives ha hopened).failed
  | proceed =>
      refine .ask lasting_true fun context => ?_
      rcases context with _ | _ | _
      · exact spawnAttempt_gives ha hopened
      · exact (settleOpened_gives ha hopened).failed
      · exact (settleOpened_gives ha hopened).failed

end

theorem prepareProcess_gives (hopened : opened.IsOf input.invocationId) :
    Gives planHash (fun _ => True) (prepareProcess input plan step opened)
      (PreparedAs input.invocationId.toWellFormed (LeavesOpen input plan)
        fun spawned => spawned.1.invocationId = input.invocationId) := by
  refine .ask lasting_true fun connection => ?_
  cases connection with
  | none => exact (failPreparation_gives hopened).failed
  | some connection =>
      by_cases husable : isUsableConnection connection step.route.connectionId = false
      · simp only [done_bind, husable, if_true]
        exact (failPreparation_gives hopened).failed
      · simp only [done_bind, husable]
        refine .ask lasting_true fun providerId => ?_
        cases hprovider : providerId.filter (isText 256) with
        | none =>
            simp only [done_bind, hprovider]
            exact (failPreparation_gives hopened).failed
        | some providerId =>
            simp only [done_bind, hprovider]
            cases hauth : authenticationFor connection with
            | none => exact (failPreparation_gives hopened).failed
            | some auth =>
                refine .ask lasting_true fun started => ?_
                cases started with
                | false => exact .done lasting_true fun _ _ => rfl
                | true =>
                    simp only [done_bind, bind_eq, pure_eq]
                    refine .bind (prepareStarted_gives (by exact hopened.2) hopened)
                      fun outcome => ?_
                    cases outcome with
                    | error result => exact .done lasting_preparedAs fun _ h => h
                    | ok running => exact .done lasting_preparedAs fun _ h => h

/-! ## One attempt -/

theorem readCurrentAttempt_gives (id attemptId : JsString) :
    Gives planHash (fun _ => True) (readCurrentAttempt id attemptId) fun found _ =>
      ∀ a, found = some a → a.invocationId.toWellFormed = id.toWellFormed := by
  refine .getInvocation lasting_true fun evidence => ?_
  rcases evidence with _ | _ | evidence
  · exact .done (lasting_true.and lasting_readAs) fun _ _ _ hfound => absurd hfound (by simp)
  · exact .done (lasting_true.and lasting_readAs) fun _ _ _ hfound => absurd hfound (by simp)
  · refine .done (lasting_true.and lasting_readAs) fun _ h a hfound => ?_
    exact (h.2.2 a (List.mem_of_find?_eq_some hfound)).invocation

theorem settleProcess_gives (ha : a.invocationId = input.invocationId)
    (hopened : opened.IsOf input.invocationId) (answer : ProcessAnswer) :
    Gives planHash (fun _ => True) (settleProcess input plan opened a answer)
      (Reported input.invocationId.toWellFormed (LeavesOpen input plan)) := by
  refine .ask lasting_true fun cleaned => .ask lasting_true fun terminalAt => ?_
  simp only [done_bind]
  refine .bind (readCurrentAttempt_gives _ _) fun found => .of_fact (fun _ h => h) fun hfound => ?_
  refine (finishAttempt_gives ?_ (by rw [hopened.1])).pre fun _ _ => trivial
  cases found with
  | none => exact congrArg JsString.toWellFormed ha
  | some latest => exact hfound latest rfl

theorem readInput_error (h : readInput input = .error code) : code.IsRefusal := by
  unfold readInput at h
  cases hplan : isHandoffPlan input.plan with
  | none =>
      simp only [hplan, Except.error.injEq] at h
      exact .inl h.symm
  | some found =>
      simp only [hplan] at h
      split_ifs at h with hcontext hselection hroot
      · exact .inr (.inl (Except.error.inj h).symm)
      · exact .inr (.inr (.inl (Except.error.inj h).symm))
      · exact .inr (.inl (Except.error.inj h).symm)
      · cases hstep : found.steps[input.stepIndex]? with
        | none =>
            simp only [hstep, Except.error.injEq] at h
            exact .inr (.inr (.inl h.symm))
        | some step => simp [hstep] at h

/-- What comes of opening an attempt. -/
def OpenedAs (id : JsString) : Except ExecutorErrorCode Initialization → Prop
  | .error code => code.IsRefusal
  | .ok opened => opened.IsOf id

theorem yields_initializeAttempt {attemptId : JsString} {openedAt : ℤ} :
    Yields (fun _ => True) (OpenedAs input.invocationId)
      (initializeAttempt planHash input plan step attemptId openedAt) := by
  unfold initializeAttempt
  refine .ite (fun _ => ?_) fun _ => ?_
  · unfold openPrimary
    cases hreceipt : createRunningReceipt planHash input plan step.route attemptId openedAt with
    | none => exact .inl rfl
    | some receipt =>
        refine ⟨trivial, fun accepted => ?_⟩
        cases accepted with
        | false => exact .inr (.inr (.inr rfl))
        | true =>
            unfold createRunningReceipt at hreceipt
            dsimp only at hreceipt
            split_ifs at hreceipt
            obtain rfl := Option.some.inj hreceipt
            exact ⟨rfl, rfl⟩
  · refine ⟨trivial, fun evidence => ?_⟩
    rcases evidence with _ | _ | evidence
    · exact .inr (.inr (.inr rfl))
    · exact .inr (.inr (.inl rfl))
    · cases hlegal : legalSecondAttemptState evidence input with
      | none =>
          simp only [done_bind, hlegal]
          exact .inr (.inr (.inl rfl))
      | some legal =>
          simp only [done_bind, hlegal]
          refine ⟨trivial, fun eventId => ⟨?_, rfl⟩⟩
          unfold legalSecondAttemptState at hlegal
          split at hlegal
          · split_ifs at hlegal with hstate
            exact hstate.1
          · simp at hlegal

theorem executeAttempt_gives :
    Gives planHash (fun _ => True) (executeAttempt planHash input)
      (Reported input.invocationId.toWellFormed
        (∃ plan, isHandoffPlan input.plan = some plan ∧ LeavesOpen input plan)) := by
  unfold executeAttempt
  cases hread : readInput input with
  | error code => exact .done lasting_true fun _ _ => readInput_error hread
  | ok found =>
      obtain ⟨plan, step⟩ := found
      have hplan := (readInput_ok hread).1
      refine .ask lasting_true fun openedAt => .ask lasting_true fun attemptId => ?_
      simp only [done_bind, bind_eq, pure_eq]
      refine .bind (.yields yields_initializeAttempt) fun initialized =>
        .of_fact (fun _ h => h) fun hinitialized =>
          Gives.pre (D := fun _ => True) ?_ fun _ _ => trivial
      cases initialized with
      | error code => exact .done lasting_true fun _ _ => hinitialized
      | ok opened =>
          refine Gives.mono ?_ fun _ _ => Reported.mono fun h => ⟨plan, hplan, h⟩
          refine .bind (prepareProcess_gives hinitialized) fun prepared => ?_
          rcases prepared with result | ⟨running, providerId⟩
          · exact .done lasting_preparedAs fun _ h => h
          · refine .of_fact (fun _ h => h) fun hrunning => Gives.pre ?_ fun _ _ => trivial
            exact .ask lasting_true fun answer => settleProcess_gives hrunning hinitialized answer

end Attempt

/-! ## A whole execution -/

/-- What an execution reports, if the store did not fail: the store has its invocation
settled, or the attempt was refused before it was opened. -/
def Settles (key : JsString) : ExecutionResult → Database → Prop
  | .ok _ result, db => result.isOk = true ∧ Reported key False result db
  | .failed code _ none, _ => code ≠ .persistenceFailed →
      code = .invalidPlan ∨ code = .invalidContext
  | .failed code _ (some result), db => code ≠ .persistenceFailed →
      result.isOk = false ∧ Reported key False result db

section Execution

variable {input : CoordinatorInput} {plan : HandoffPlan} {rejected : ExecutorErrorCode}
  {code : CoordinatorErrorCode}

theorem settles_persistenceFailed {kind : Option RuntimeAttemptKind}
    {result : Option AttemptResult} {db : Database} :
    Settles key (.failed .persistenceFailed kind result) db := by
  cases result with
  | none => exact fun hcode => absurd rfl hcode
  | some result => exact fun hcode => absurd rfl hcode

theorem settleTerminal_gives {a : RuntimeAttempt} {receipt : RuntimeInvocationReceipt} :
    Gives planHash (fun _ => True) (settleTerminal rejected a receipt code)
      (Settles receipt.invocationId.toWellFormed) := by
  refine .getInvocation lasting_true fun evidence => ?_
  have hread : Lasting fun db => True ∧ ReadAs receipt.invocationId.toWellFormed evidence db :=
    lasting_true.and lasting_readAs
  rcases evidence with _ | _ | current
  · exact .done hread fun _ _ => settles_persistenceFailed
  · exact .done hread fun _ _ => settles_persistenceFailed
  cases hfind : current.attempts.find? (·.attemptId == a.attemptId) with
  | none =>
      simp only [done_bind, hfind]
      exact .done hread fun _ _ => settles_persistenceFailed
  | some found =>
      have hmem := List.mem_of_find?_eq_some hfind
      simp only [done_bind, hfind]
      refine .ite (fun _ => .done hread fun _ _ => settles_persistenceFailed) fun hterminal => ?_
      have hended : isTerminalAttempt found = true := by simpa using hterminal
      refine .ite (fun hsettled => ?_) fun _ => .ask hread fun settledAt => ?_
      · refine .done hread fun _ h _ => ⟨rfl, h.2.1.invocation, fun _ => ?_⟩
        exact ⟨(h.2.2 found hmem).ended hended, .inl (h.2.1.settled hsettled)⟩
      · refine .ite (fun _ => .done hread fun _ _ => settles_persistenceFailed) fun _ => ?_
        refine .settleInvocation receipt.invocationId.toWellFormed hread ?_ ?_
        · exact .done hread fun _ _ => settles_persistenceFailed
        · refine .done (hread.and lasting_settledAs.imp) fun _ h _ =>
            ⟨rfl, h.1.2.1.invocation, fun _ => ?_⟩
          exact ⟨(h.1.2.2 found hmem).ended hended, .inl (h.2 h.1.2.1.invocation)⟩

theorem terminal_gives {attempt : Option RuntimeAttempt}
    {receipt : Option RuntimeInvocationReceipt} {leavesOpen : Prop} :
    Gives planHash (Reported key leavesOpen (.rejected rejected attempt receipt))
      (terminal rejected attempt receipt code) (Settles key) := by
  unfold terminal
  rcases attempt with _ | a
  · exact .done lasting_reported fun _ _ => settles_persistenceFailed
  rcases receipt with _ | r
  · exact .done lasting_reported fun _ _ => settles_persistenceFailed
  refine .ite (fun _ => ?_) fun _ => .done lasting_reported fun _ _ => settles_persistenceFailed
  refine .of_fact (fun _ h => h.1) fun hkey => ?_
  subst hkey
  exact Gives.pre settleTerminal_gives fun _ _ => trivial

theorem executeSecond_gives {kind : RuntimeAttemptKind} {recoveryContext : Option RecoveryContext} :
    Gives planHash (fun _ => True) (executeSecond planHash input kind recoveryContext)
      (Settles input.invocationId.toWellFormed) := by
  refine .bind executeAttempt_gives fun second => ?_
  have hclosed : ∀ db, Reported input.invocationId.toWellFormed
      (∃ plan, isHandoffPlan input.plan = some plan ∧
        LeavesOpen (input.step 1 kind recoveryContext) plan) second db →
      Reported input.invocationId.toWellFormed False second db :=
    fun _ h => h.mono fun ⟨_, _, hopen⟩ => absurd hopen.1 Nat.one_ne_zero
  refine .ite (fun hok => ?_) fun hnotOk => ?_
  · exact .done lasting_reported fun db h => ⟨hok, hclosed db h⟩
  · exact .done lasting_reported fun db h _ => ⟨by simpa using hnotOk, hclosed db h⟩

theorem continueFrom_gives {a : RuntimeAttempt} {r : RuntimeInvocationReceipt}
    {snapshot : Option WorkStateSnapshot} {leavesOpen : Prop} :
    Gives planHash
      (Reported input.invocationId.toWellFormed leavesOpen (.rejected rejected (some a) (some r)))
      (continueFrom planHash input rejected a r snapshot)
      (Settles input.invocationId.toWellFormed) := by
  unfold continueFrom
  cases snapshot.filter isWorkStateSnapshot with
  | none => exact terminal_gives
  | some s =>
      refine .ite (fun _ => terminal_gives) fun _ => ?_
      cases s.workState with
      | started => exact terminal_gives
      | none => exact Gives.pre executeSecond_gives fun _ _ => trivial
      | checkpointed =>
          cases toRecoveryContext s with
          | none => exact terminal_gives
          | some recoveryContext => exact Gives.pre executeSecond_gives fun _ _ => trivial

variable {attempt : Option RuntimeAttempt} {receipt : Option RuntimeInvocationReceipt}
  {leavesOpen : Prop}

theorem afterFailure_gives (hopen : leavesOpen → plan.steps.length = 2) :
    Gives planHash
      (Reported input.invocationId.toWellFormed leavesOpen (.rejected rejected attempt receipt))
      (afterFailure planHash input plan rejected attempt receipt)
      (Settles input.invocationId.toWellFormed) := by
  unfold afterFailure
  rcases attempt with _ | a
  · refine .done lasting_reported fun _ h _ => ⟨rfl, ?_⟩
    cases receipt <;> exact h
  rcases receipt with _ | r
  · exact .done lasting_reported fun _ h => absurd h id
  refine .ite (fun hone => ?_) fun _ => .ask lasting_reported fun snapshot => ?_
  · refine .done lasting_reported fun _ h _ => ⟨rfl, h.mono fun hleaves => ?_⟩
    exact absurd (hone.symm.trans (hopen hleaves)) (by decide)
  · cases snapshot with
    | none => exact terminal_gives
    | some snapshot => exact continueFrom_gives

theorem afterRejection_gives (hopen : leavesOpen → plan.steps.length = 2) :
    Gives planHash
      (Reported input.invocationId.toWellFormed leavesOpen (.rejected rejected attempt receipt))
      (afterRejection planHash input plan rejected attempt receipt)
      (Settles input.invocationId.toWellFormed) := by
  unfold afterRejection
  refine .ite (fun _ => terminal_gives) fun _ => .ite (fun _ => terminal_gives) fun _ => ?_
  refine .ite (fun _ => ?_) fun _ => afterFailure_gives hopen
  refine .ite (fun _ => terminal_gives) fun hrunning => ?_
  refine .done lasting_reported fun _ h _ => ⟨rfl, ?_⟩
  rcases attempt with _ | a
  · cases receipt <;> exact h
  rcases receipt with _ | r
  · exact h
  · refine ⟨h.1, fun hcode => (h.2 hcode).imp_right fun hsettled => ?_⟩
    exact .inl (hsettled.resolve_right fun hleft => hrunning (by simp [hleft.2]))

theorem execute_gives :
    Gives planHash (fun _ => True) (execute planHash input)
      (Settles input.invocationId.toWellFormed) := by
  unfold execute
  cases hplan : isHandoffPlan input.plan with
  | none => exact .done lasting_true fun _ _ _ => .inl rfl
  | some plan =>
      refine .ite (fun _ => .done lasting_true fun _ _ _ => .inr rfl) fun _ => ?_
      refine .bind executeAttempt_gives fun result => ?_
      cases result with
      | ok a r output => exact .done lasting_reported fun _ h => ⟨rfl, h⟩
      | rejected rejected attempt receipt =>
          refine afterRejection_gives ?_
          rintro ⟨found, hfound, hleaves⟩
          obtain rfl : plan = found := Option.some.inj (hplan.symm.trans hfound)
          exact hleaves.2

end Execution

/-- **Whatever is answered and whoever else writes, an execution that returns has reported
what the store holds**: without a failure of the store, its invocation is settled as its
last attempt has ended, or its attempt was refused before it was opened. -/
theorem execute_settles (planHash : JsValue → JsString) (input : CoordinatorInput)
    (calls : List Call) {w : World} {result : ExecutionResult}
    (h : Reaches (surroundings planHash) (⟨run planHash calls, []⟩, execute planHash input)
      (w, .done result)) :
    Settles input.invocationId.toWellFormed result w.db := by
  have hgives : Gives planHash (fun _ => True) (execute planHash input)
      (Settles input.invocationId.toWellFormed) := execute_gives
  have hensures := hgives ⟨run planHash calls, []⟩ ⟨run_consistent planHash calls, trivial⟩
  exact ((Ensures.of_reaches hensures h).2 result rfl).2

/-- The end of an execution whose worker has failed. -/
def sampleReport : Option AttemptResult :=
  match (sampleAfter 19).2 with
  | .done (.failed .routeSequenceExhausted none result) => result
  | _ => none

theorem sampleReport_done {result : AttemptResult} (h : sampleReport = some result) :
    (sampleAfter 19).2 = .done (.failed .routeSequenceExhausted none (some result)) := by
  unfold sampleReport at h
  split at h
  · rename_i hdone
    rw [hdone, h]
  · simp at h

theorem execute_settles_sample : ∃ result, sampleReport = some result ∧
    Settles (js "invocation-root").toWellFormed
      (.failed .routeSequenceExhausted none (some result)) (sampleAfter 19).1.db := by
  obtain ⟨result, hresult⟩ : ∃ result, sampleReport = some result :=
    Option.isSome_iff_exists.mp (by decide +kernel)
  refine ⟨result, hresult, execute_settles samplePlanHash sampleInput [] ?_⟩
  rw [← sampleReport_done hresult]
  exact reaches_play answers_sampleAnswer 19 _

end Hepha.Runtime
