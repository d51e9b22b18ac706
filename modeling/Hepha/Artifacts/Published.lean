import Hepha.Artifacts.Publisher
import Mathlib.Logic.Relation

/-!
# Published artifacts are never torn or replaced

Any number of calls for one project run at the same time.  A call may start at
any moment, its accesses interleave with those of the others in any order, each
may fail, and a call whose next access never comes has been stopped.  The names
of staging files are distinct.

## Strategy

* `Sound` says for each stage what the call has of the file system: a staging
  file with a single link while it writes, a staging file with the checked text
  when it links, the artifact in place when it is about to return.
* `Effect` lists what one access can change.  It touches no path but the call's
  own staging name, apart from making a directory or linking an artifact where
  there was nothing (`Effect.keeps`, `Effect.new_file`), so that it leaves the
  other calls sound.
* A link needs a free name, so two calls that have linked one artifact are one
  call.

An artifact's path can also become a directory: the feature root of another call
may lead through it (`artifact_path_directory`).
-/

namespace Hepha.Artifacts

open Relation (ReflTransGen)
open FileSystem

/-! ## What a call has of the file system -/

variable {fs fs' : Files} {call other : Call}

def Staged (fs : Files) (call : Call) : Prop :=
  ∃ inode, fs.entry call.staging = some (.file inode)

/-- The artifact is at its path, with the text of the call. -/
def InPlace (fs : Files) (call : Call) : Prop :=
  ∃ inode, fs.entry call.final = some (.file inode) ∧
    fs.content inode = call.input.canonicalJson

def Outcome.Sound (fs : Files) (call : Call) : Outcome → Prop
  | returned _ => InPlace fs call
  | threw _ => True

/-- What a call has while it verifies the file at its artifact's path. -/
def Purpose.Sound (fs : Files) (call : Call) : Purpose → Prop
  | reuse => ¬Staged fs call
  | raced => Staged fs call
  | published => Staged fs call ∧ ∃ inode, fs.entry call.final = some (.file inode)

/-- What a call has at a stage. -/
def Sound (fs : Files) (call : Call) : Stage → Prop
  | .resolveRoot | .makeDirectory .. | .statDirectory .. | .resolveDirectory | .openStaging =>
      ¬Staged fs call
  | .statFinal purpose | .readFinal purpose => purpose.Sound fs call
  | .writeStaging descriptor | .syncStaging descriptor | .closeStaging descriptor =>
      fs.OnlyAt descriptor call.staging
  | .linkFinal =>
      ∃ inode, fs.entry call.staging = some (.file inode) ∧
        fs.content inode = call.input.canonicalJson
  | .readStaging | .closeAgain => Staged fs call
  | .removeStaging outcome => Staged fs call ∧ outcome.Sound fs call
  | .done outcome unlinkFailed =>
      (unlinkFailed = false → ¬Staged fs call) ∧ outcome.Sound fs call

/-- What one access of a call can change. -/
inductive Effect (fs : Files) (call : Call) : Files → Prop
  | none : Effect fs call fs
  | mkdir {path : List JsString} (hfree : fs.entry path = Option.none) :
      Effect fs call (fs.setEntry path (some .directory))
  | create (hfree : fs.entry call.staging = Option.none) :
      Effect fs call { fs.setEntry call.staging (some (.file fs.fresh)) with
        content := Function.update fs.content fs.fresh default, fresh := fs.fresh + 1 }
  | write {inode : ℕ} {text : JsString} (howner : fs.OnlyAt inode call.staging) :
      Effect fs call (fs.write inode text)
  | publish {inode : ℕ} (hstaged : fs.entry call.staging = some (.file inode))
      (htext : fs.content inode = call.input.canonicalJson)
      (hfree : fs.entry call.final = Option.none) :
      Effect fs call (fs.setEntry call.final (some (.file inode)))
  | remove : Effect fs call (fs.setEntry call.staging Option.none)

namespace Effect

/-- **A path other than the staging name keeps its node and its contents.** -/
theorem keeps (h : Effect fs call fs') (hbounded : fs.Bounded) {path : List JsString}
    (hne : path ≠ call.staging) : fs.Keeps fs' path := by
  cases h with
  | none => exact Keeps.refl fs path
  | mkdir hfree => exact keeps_setEntry (Or.inl hfree)
  | create hfree => exact keeps_openExclusive hbounded hfree
  | write howner => exact keeps_write howner hne
  | publish hstaged htext hfree => exact keeps_setEntry (Or.inl hfree)
  | remove => exact keeps_setEntry (Or.inr hne)

/-- **A file that was not there is the new staging file or the artifact.** -/
theorem new_file (h : Effect fs call fs') {path : List JsString} {inode : ℕ}
    (hentry : fs'.entry path = some (.file inode)) :
    fs.entry path = some (.file inode) ∨
      (path = call.staging ∧ inode = fs.fresh ∧ fs'.fresh = fs.fresh + 1) ∨
      path = call.final ∧ fs.entry call.staging = some (.file inode) ∧
        fs'.content inode = call.input.canonicalJson := by
  have hset : ∀ {at_ : List JsString} {node : Option FileNode}, path ≠ at_ →
      (fs.setEntry at_ node).entry path = some (.file inode) →
      fs.entry path = some (.file inode) := by
    intro at_ node hne hentry
    rwa [entry_setEntry_of_ne hne] at hentry
  cases h with
  | none => exact Or.inl hentry
  | @mkdir at_ hfree =>
      by_cases heq : path = at_
      · subst heq
        rw [entry_setEntry_self] at hentry
        cases hentry
      · exact Or.inl (hset heq hentry)
  | create hfree =>
      by_cases heq : path = call.staging
      · subst heq
        change (fs.setEntry call.staging _).entry call.staging = _ at hentry
        rw [entry_setEntry_self] at hentry
        cases hentry
        exact Or.inr (Or.inl ⟨rfl, rfl, rfl⟩)
      · exact Or.inl (hset heq hentry)
  | write howner => exact Or.inl hentry
  | @publish n hstaged htext hfree =>
      by_cases heq : path = call.final
      · subst heq
        rw [entry_setEntry_self] at hentry
        cases hentry
        exact Or.inr (Or.inr ⟨rfl, hstaged, htext⟩)
      · exact Or.inl (hset heq hentry)
  | remove =>
      by_cases heq : path = call.staging
      · subst heq
        rw [entry_setEntry_self] at hentry
        cases hentry
      · exact Or.inl (hset heq hentry)

theorem bounded (h : Effect fs call fs') (hbounded : fs.Bounded) : fs'.Bounded := by
  intro path inode hentry
  have hfresh : fs.fresh ≤ fs'.fresh := by
    cases h with
    | create hfree => exact Nat.le_succ _
    | _ => exact Nat.le_refl _
  rcases h.new_file hentry with hold | ⟨rfl, rfl, hsucc⟩ | ⟨-, hstaged, -⟩
  · exact Nat.lt_of_lt_of_le (hbounded path inode hold) hfresh
  · omega
  · exact Nat.lt_of_lt_of_le (hbounded _ inode hstaged) hfresh

end Effect

/-! ## The other calls -/

/-- The two calls share no name but that of the artifact. -/
structure Apart (call other : Call) : Prop where
  staging : other.staging ≠ call.staging
  final : other.final ≠ call.staging
  published : call.final ≠ other.staging

theorem InPlace.of_effect (h : InPlace fs other) (heffect : Effect fs call fs')
    (hbounded : fs.Bounded) (hapart : Apart call other) : InPlace fs' other := by
  obtain ⟨inode, hfile⟩ := h
  exact ⟨inode, (heffect.keeps hbounded hapart.final).file hfile⟩

theorem staged_of_effect (heffect : Effect fs call fs') (hbounded : fs.Bounded)
    (hapart : Apart call other) : Staged fs' other ↔ Staged fs other := by
  constructor
  · rintro ⟨inode, hentry⟩
    rcases heffect.new_file hentry with hold | ⟨hpath, -⟩ | ⟨hpath, -⟩
    · exact ⟨inode, hold⟩
    · exact absurd hpath hapart.staging
    · exact absurd hpath.symm hapart.published
  · rintro ⟨inode, hentry⟩
    exact ⟨inode, (heffect.keeps hbounded hapart.staging _ hentry).1⟩

theorem onlyAt_of_effect (heffect : Effect fs call fs') (hbounded : fs.Bounded)
    (hapart : Apart call other) {inode : ℕ} (h : fs.OnlyAt inode other.staging) :
    fs'.OnlyAt inode other.staging := by
  refine ⟨(heffect.keeps hbounded hapart.staging _ h.1).1, fun path hentry => ?_⟩
  rcases heffect.new_file hentry with hold | ⟨-, rfl, -⟩ | ⟨-, hstaged, -⟩
  · exact h.2 path hold
  · exact absurd (hbounded _ _ h.1) (Nat.lt_irrefl _)
  · -- the artifact that was linked has the other call's inode
    exact absurd (h.2 _ hstaged).symm hapart.staging

/-- **An access leaves the other calls sound.** -/
theorem Sound.of_effect {stage : Stage} (h : Sound fs other stage) (heffect : Effect fs call fs')
    (hbounded : fs.Bounded) (hapart : Apart call other) : Sound fs' other stage := by
  have houtcome : ∀ {outcome : Outcome}, outcome.Sound fs other → outcome.Sound fs' other := by
    intro outcome houtcome
    cases outcome with
    | returned created => exact InPlace.of_effect houtcome heffect hbounded hapart
    | threw error => exact trivial
  have hstaged := staged_of_effect heffect hbounded hapart
  have hpurpose : ∀ {purpose : Purpose}, purpose.Sound fs other → purpose.Sound fs' other := by
    intro purpose hpurpose
    cases purpose with
    | reuse => exact fun hnew => hpurpose (hstaged.mp hnew)
    | raced => exact hstaged.mpr hpurpose
    | published =>
        obtain ⟨hold, inode, hentry⟩ := hpurpose
        exact ⟨hstaged.mpr hold, inode, (heffect.keeps hbounded hapart.final _ hentry).1⟩
  cases stage with
  | resolveRoot => exact fun hnew => h (hstaged.mp hnew)
  | makeDirectory parent segment rest => exact fun hnew => h (hstaged.mp hnew)
  | statDirectory parent segment rest => exact fun hnew => h (hstaged.mp hnew)
  | resolveDirectory => exact fun hnew => h (hstaged.mp hnew)
  | openStaging => exact fun hnew => h (hstaged.mp hnew)
  | writeStaging descriptor => exact onlyAt_of_effect heffect hbounded hapart h
  | syncStaging descriptor => exact onlyAt_of_effect heffect hbounded hapart h
  | closeStaging descriptor => exact onlyAt_of_effect heffect hbounded hapart h
  | readStaging => exact hstaged.mpr h
  | closeAgain => exact hstaged.mpr h
  | linkFinal =>
      obtain ⟨inode, hfile⟩ := h
      exact ⟨inode, (heffect.keeps hbounded hapart.staging).file hfile⟩
  | statFinal purpose => exact hpurpose h
  | readFinal purpose => exact hpurpose h
  | removeStaging outcome => exact ⟨hstaged.mpr h.1, houtcome h.2⟩
  | done outcome unlinkFailed =>
      exact ⟨fun hremoved hnew => h.1 hremoved (hstaged.mp hnew), houtcome h.2⟩

/-! ## The call itself -/

theorem attempt_ok {β : Type} {fault : Option Fault} {result : Except Errno β} {value : β}
    (h : attempt fault result = .ok value) : result = .ok value := by
  cases fault with
  | none => exact h
  | some f => cases h

/-- The call has linked its artifact, and is going to return that it created it. -/
def Stage.Linked : Stage → Prop
  | .statFinal purpose | .readFinal purpose => purpose = .published
  | .removeStaging outcome | .done outcome _ => outcome = .returned true
  | _ => False

/-- What an access does to a sound call. -/
structure Advanced (fs : Files) (call : Call) (result : Files × Stage) : Prop where
  effect : Effect fs call result.1
  sound : Sound result.1 call result.2
  linked : result.2.Linked → call.stage.Linked ∨ fs.entry call.final = none

theorem Advanced.same {stage : Stage} (hsound : Sound fs call stage)
    (hlinked : stage.Linked → call.stage.Linked) : Advanced fs call (fs, stage) :=
  ⟨.none, hsound, fun h => Or.inl (hlinked h)⟩

/-- The call throws before there is a staging file. -/
theorem Advanced.quit (h : ¬Staged fs call) (error : PersistError) :
    Advanced fs call (fs, quit error) :=
  .same ⟨fun _ => h, trivial⟩ nofun

/-- The call throws when there is one. -/
theorem Advanced.cleanUp (h : Staged fs call) (error : PersistError) :
    Advanced fs call (fs, cleanUp error) :=
  .same ⟨h, trivial⟩ nofun

theorem Purpose.Sound.thrown {purpose : Purpose} (h : purpose.Sound fs call)
    (error : PersistError) : Advanced fs call (fs, whenThrown purpose error) := by
  cases purpose with
  | reuse => exact .quit h error
  | raced => exact .cleanUp h error
  | published => exact .cleanUp h.1 error

theorem Purpose.Sound.absent {purpose : Purpose} (h : purpose.Sound fs call) :
    Advanced fs call (fs, whenAbsent purpose) := by
  cases purpose with
  | reuse => exact .same h nofun
  | raced => exact .cleanUp h .persistenceFailed
  | published => exact .cleanUp h.1 .persistenceFailed

theorem Purpose.Sound.present {purpose : Purpose} (h : purpose.Sound fs call)
    (hstage : call.stage = .readFinal purpose) (hplace : InPlace fs call) :
    Advanced fs call (fs, whenPresent purpose) := by
  cases purpose with
  | reuse => exact .same ⟨fun _ => h, hplace⟩ nofun
  | raced => exact .same ⟨h, hplace⟩ nofun
  | published => exact .same ⟨h.1, hplace⟩ fun _ => by rw [hstage]; rfl

variable {platform : Platform}

/-- **An access of a sound call has one of the effects, and the call is sound
after it.** -/
theorem advanced (hbounded : fs.Bounded) (hne : call.final ≠ call.staging)
    (h : Sound fs call call.stage) (fault : Option Fault) :
    Advanced fs call (call.advance platform fs fault) := by
  unfold Call.advance
  split
  · rename_i hstage
    rw [hstage] at h
    split
    · exact .quit h _
    · unfold enterDirectory
      split
      · exact .same h nofun
      · split
        · exact .quit h _
        · exact .same h nofun
  · rename_i hstage
    rw [hstage] at h
    split
    · rename_i hmkdir
      obtain ⟨hfree, rfl⟩ := mkdir_ok (attempt_ok hmkdir)
      refine ⟨.mkdir hfree, ?_, nofun⟩
      rintro ⟨inode, hentry⟩
      have hmade : Effect fs call _ := .mkdir hfree
      rcases hmade.new_file hentry with hold | ⟨-, -, hfresh⟩ | hnew
      · exact h ⟨inode, hold⟩
      · exact absurd hfresh (Nat.ne_of_lt (Nat.lt_succ_self _))
      · exact h ⟨inode, hnew.2.1⟩
    · exact .same h nofun
    · exact .quit h _
  · rename_i hstage
    rw [hstage] at h
    split
    · split
      · exact .same h nofun
      · exact .same h nofun
    · exact .quit h _
    · exact .quit h _
  · rename_i hstage
    rw [hstage] at h
    split
    · exact .quit h _
    · exact .same h nofun
  · rename_i purpose hstage
    rw [hstage] at h
    split
    · exact .same h fun hlinked => by rw [hstage]; exact hlinked
    · exact Purpose.Sound.thrown h _
    · exact Purpose.Sound.absent h
    · exact Purpose.Sound.thrown h _
  · rename_i purpose hstage
    rw [hstage] at h
    split
    · rename_i existing hread
      split
      · rename_i hsame
        obtain ⟨inode, hentry, hcontent⟩ := read_ok (attempt_ok hread)
        exact Purpose.Sound.present h hstage ⟨inode, hentry, hcontent.trans hsame.1⟩
      · exact Purpose.Sound.thrown h _
    · exact Purpose.Sound.absent h
    · exact Purpose.Sound.thrown h _
  · rename_i hstage
    rw [hstage] at h
    split
    · rename_i descriptor fs' hopen
      obtain ⟨rfl, hfree, rfl⟩ := openExclusive_ok (attempt_ok hopen)
      refine ⟨.create hfree, ⟨entry_setEntry_self, fun path hentry => ?_⟩, nofun⟩
      rcases (Effect.create hfree).new_file hentry with hold | ⟨hpath, -⟩ | ⟨-, hstaged, -⟩
      · exact absurd (hbounded _ _ hold) (Nat.lt_irrefl _)
      · exact hpath
      · rw [hfree] at hstaged
        cases hstaged
    · exact .quit h _
  · rename_i descriptor hstage
    rw [hstage] at h
    split
    · exact ⟨.write h, h, nofun⟩
    · exact ⟨.write h, ⟨_, h.1⟩, nofun⟩
  · rename_i descriptor hstage
    rw [hstage] at h
    split
    · exact .same ⟨_, h.1⟩ nofun
    · exact .same h nofun
  · rename_i descriptor hstage
    rw [hstage] at h
    split
    · exact .same ⟨_, h.1⟩ nofun
    · exact .same ⟨_, h.1⟩ nofun
  · rename_i hstage
    rw [hstage] at h
    split
    · rename_i stagedBytes hread
      split
      · rename_i hsame
        obtain ⟨inode, hentry, hcontent⟩ := read_ok (attempt_ok hread)
        exact .same ⟨inode, hentry, hcontent.trans hsame.1⟩ nofun
      · exact .cleanUp h _
    · exact .cleanUp h _
  · rename_i hstage
    rw [hstage] at h
    obtain ⟨inode, hstaged, htext⟩ := h
    split
    · rename_i fs' hlink
      obtain ⟨inode', hstaged', hfree, rfl⟩ := link_ok (attempt_ok hlink)
      rw [hstaged] at hstaged'
      cases hstaged'
      refine ⟨.publish hstaged htext hfree, ⟨⟨inode, ?_⟩, inode, entry_setEntry_self⟩,
        fun _ => Or.inr hfree⟩
      rw [entry_setEntry_of_ne hne.symm, hstaged]
    · exact .same ⟨inode, hstaged⟩ nofun
    · exact .cleanUp ⟨inode, hstaged⟩ _
  · rename_i hstage
    rw [hstage] at h
    exact .cleanUp h _
  · rename_i outcome hstage
    rw [hstage] at h
    split
    · rename_i fs' hunlink
      obtain ⟨-, rfl⟩ := unlink_ok (attempt_ok hunlink)
      refine ⟨.remove, ⟨fun _ => ?_, ?_⟩, fun hlinked => Or.inl ?_⟩
      · rintro ⟨inode, hentry⟩
        rw [entry_setEntry_self] at hentry
        cases hentry
      · cases outcome with
        | returned created =>
            obtain ⟨inode, hentry, hcontent⟩ := h.2
            exact ⟨inode, (entry_setEntry_of_ne hne).trans hentry, hcontent⟩
        | threw error => exact trivial
      · rw [hstage]
        exact hlinked
    · exact .same ⟨nofun, trivial⟩ nofun
  · rename_i outcome unlinkFailed hstage
    rw [hstage] at h
    exact .same h fun hlinked => by rw [hstage]; exact hlinked

/-! ## Runs -/

/-- The files of the project, and the calls that have started. -/
structure World (ι : Type*) where
  files : Files
  calls : ι → Option Call

inductive Step (ι : Type*)
  | start (id : ι) (rawInput : JsValue) (tag : JsString)
  | advance (id : ι) (fault : Option Fault)

section Runs

variable (platform) {ι : Type*} [DecidableEq ι]

/-- A call starts when its request passes the checks; otherwise it has thrown
without an access. -/
def World.perform (w : World ι) : Step ι → Option (World ι)
  | .start id rawInput tag =>
      if w.calls id = none then
        (persistReviewArtifactFileV1 platform rawInput).map fun input =>
          { w with calls := Function.update w.calls id (some ⟨input, tag, .resolveRoot⟩) }
      else none
  | .advance id fault =>
      (w.calls id).map fun call =>
        { files := (call.advance platform w.files fault).1
          calls := Function.update w.calls id
            (some { call with stage := (call.advance platform w.files fault).2 }) }

/-- The name of a staging file is new. -/
def World.Legal (w : World ι) : Step ι → Prop
  | .start _ rawInput tag =>
      ∀ input, persistReviewArtifactFileV1 platform rawInput = some input →
        (∀ id call, w.calls id = some call → call.staging ≠ input.staging tag) ∧
          ∀ inode, w.files.entry (input.staging tag) ≠ some (.file inode)
  | .advance _ _ => True

def World.Takes (w w' : World ι) : Prop :=
  ∃ step, w.Legal platform step ∧ w.perform platform step = some w'

/-- A file at an artifact's path holds a canonical text with the hash in its name. -/
def Genuine (fs : Files) : Prop :=
  ∀ rawInput input inode, persistReviewArtifactFileV1 platform rawInput = some input →
    fs.entry input.final = some (.file inode) →
      platform.sha256 (fs.content inode) = input.contentHash ∧
        isCanonicalText platform (fs.content inode) = true

/-- No call has started, and the artifacts that exist are genuine. -/
structure World.Initial (w : World ι) : Prop where
  calls : ∀ id, w.calls id = none
  bounded : w.files.Bounded
  genuine : Genuine platform w.files

/-- What holds in every state. -/
structure World.Published (w : World ι) : Prop where
  artifact : ∀ rawInput input, persistReviewArtifactFileV1 platform rawInput = some input →
    w.files.entry input.final = none ∨ w.files.entry input.final = some .directory ∨
      ∃ inode, w.files.entry input.final = some (.file inode) ∧
        platform.sha256 (w.files.content inode) = input.contentHash ∧
        isCanonicalText platform (w.files.content inode) = true
  inPlace : ∀ id call created unlinkFailed, w.calls id = some call →
    call.stage = .done (.returned created) unlinkFailed →
      ∃ inode, w.files.entry call.final = some (.file inode) ∧
        w.files.content inode = call.input.canonicalJson
  createdOnce : ∀ id call unlinkFailed id' call' unlinkFailed', w.calls id = some call →
    w.calls id' = some call' → call.stage = .done (.returned true) unlinkFailed →
      call'.stage = .done (.returned true) unlinkFailed' → call.final = call'.final → id = id'
  cleaned : ∀ id call outcome, w.calls id = some call → call.stage = .done outcome false →
    ∀ inode, w.files.entry call.staging ≠ some (.file inode)

/-- The invariant of the runs. -/
structure World.Safe (w : World ι) : Prop where
  bounded : w.files.Bounded
  genuine : Genuine platform w.files
  accepted : ∀ id call, w.calls id = some call →
    ∃ rawInput, persistReviewArtifactFileV1 platform rawInput = some call.input
  distinct : ∀ id id' call call', w.calls id = some call → w.calls id' = some call' → id ≠ id' →
    call.staging ≠ call'.staging
  sound : ∀ id call, w.calls id = some call → Sound w.files call call.stage
  linkedOnce : ∀ id id' call call', w.calls id = some call → w.calls id' = some call' →
    call.stage.Linked → call'.stage.Linked → call.final = call'.final → id = id'

end Runs

theorem Sound.of_linked (h : Sound fs call call.stage) (hlinked : call.stage.Linked) :
    ∃ inode, fs.entry call.final = some (.file inode) := by
  have hpurpose : ∀ {purpose : Purpose}, purpose.Sound fs call → purpose = .published →
      ∃ inode, fs.entry call.final = some (.file inode) := by
    rintro purpose hpurpose rfl
    exact hpurpose.2
  have houtcome : ∀ {outcome : Outcome}, outcome.Sound fs call → outcome = .returned true →
      ∃ inode, fs.entry call.final = some (.file inode) := by
    rintro outcome houtcome rfl
    obtain ⟨inode, hentry, -⟩ := houtcome
    exact ⟨inode, hentry⟩
  generalize call.stage = stage at h hlinked
  cases stage with
  | statFinal purpose => exact hpurpose h hlinked
  | readFinal purpose => exact hpurpose h hlinked
  | removeStaging outcome => exact houtcome h.2 hlinked
  | done outcome unlinkFailed => exact houtcome h.2 hlinked
  | _ => exact hlinked.elim

variable {ι : Type*}

theorem World.Safe.published {w : World ι} (h : w.Safe platform) : w.Published platform where
  artifact := by
    intro rawInput input hinput
    cases hentry : w.files.entry input.final with
    | none => exact Or.inl rfl
    | some node =>
        cases node with
        | directory => exact Or.inr (Or.inl rfl)
        | file inode => exact Or.inr (Or.inr ⟨inode, rfl, h.genuine _ _ _ hinput hentry⟩)
  inPlace := by
    intro id call created unlinkFailed hcall hstage
    have hsound := h.sound id call hcall
    rw [hstage] at hsound
    exact hsound.2
  createdOnce := by
    intro id call unlinkFailed id' call' unlinkFailed' hcall hcall' hstage hstage' hfinal
    refine h.linkedOnce id id' call call' hcall hcall' ?_ ?_ hfinal
    · rw [hstage]
      rfl
    · rw [hstage']
      rfl
  cleaned := by
    intro id call outcome hcall hstage inode hentry
    have hsound := h.sound id call hcall
    rw [hstage] at hsound
    exact hsound.1 rfl ⟨inode, hentry⟩

theorem World.Initial.safe {w : World ι} (h : w.Initial platform) : w.Safe platform := by
  have hnone : ∀ {id call}, w.calls id ≠ some call := by
    intro id call hcall
    rw [h.calls id] at hcall
    cases hcall
  exact
    { bounded := h.bounded
      genuine := h.genuine
      accepted := fun _ _ hcall => absurd hcall hnone
      distinct := fun _ _ _ _ hcall => absurd hcall hnone
      sound := fun _ _ hcall => absurd hcall hnone
      linkedOnce := fun _ _ _ _ hcall => absurd hcall hnone }

theorem World.Safe.final_ne_staging {w : World ι} (h : w.Safe platform) {id : ι} {call : Call}
    (hcall : w.calls id = some call) (other : Call) : call.final ≠ other.staging := by
  obtain ⟨rawInput, hinput⟩ := h.accepted id call hcall
  exact ArtifactFileInput.final_ne_staging (persistReviewArtifactFileV1_some hinput).1 other.tag

theorem World.Safe.apart {w : World ι} (h : w.Safe platform) {id id' : ι} {call other : Call}
    (hcall : w.calls id = some call) (hother : w.calls id' = some other) (hne : id' ≠ id) :
    Apart call other where
  staging := h.distinct id' id other call hother hcall hne
  final := h.final_ne_staging hother call
  published := h.final_ne_staging hcall other

variable [DecidableEq ι]

/-- The state after an access of a call, with what the access did. -/
theorem World.Safe.advance {w : World ι} (h : w.Safe platform) {id : ι} {call : Call}
    (hcall : w.calls id = some call) (fault : Option Fault) :
    Advanced w.files call (call.advance platform w.files fault) ∧
      World.Safe platform
        { files := (call.advance platform w.files fault).1
          calls := Function.update w.calls id
            (some { call with stage := (call.advance platform w.files fault).2 }) } := by
  have hadvanced : Advanced w.files call (call.advance platform w.files fault) :=
    advanced h.bounded (h.final_ne_staging hcall call) (h.sound id call hcall) fault
  refine ⟨hadvanced, ?_⟩
  generalize call.advance platform w.files fault = result at hadvanced
  obtain ⟨fs', stage⟩ := result
  have heffect : Effect w.files call fs' := hadvanced.effect
  -- a call after the step is the one before it, or the one that has advanced
  have hafter : ∀ {id' call'}, Function.update w.calls id (some { call with stage := stage }) id' =
      some call' → (id' = id ∧ call' = { call with stage := stage }) ∨
        (id' ≠ id ∧ w.calls id' = some call') := by
    intro id' call' hcall'
    by_cases heq : id' = id
    · subst heq
      rw [Function.update_self] at hcall'
      exact Or.inl ⟨rfl, (Option.some.inj hcall').symm⟩
    · rw [Function.update_of_ne heq] at hcall'
      exact Or.inr ⟨heq, hcall'⟩
  -- a call that links finds the name free, so no other call has linked it
  have hlinked : ∀ {id' call'}, id' ≠ id → w.calls id' = some call' → stage.Linked →
      call'.stage.Linked → call.final ≠ call'.final := by
    intro id' call' hne hcall' hstage hstage' hfinal
    rcases hadvanced.linked hstage with hold | hfree
    · exact hne (h.linkedOnce id id' call call' hcall hcall' hold hstage' hfinal).symm
    · obtain ⟨inode, hentry⟩ := (h.sound id' call' hcall').of_linked hstage'
      rw [← hfinal, hfree] at hentry
      cases hentry
  refine ⟨heffect.bounded h.bounded, ?_, ?_, ?_, ?_, ?_⟩
  · intro rawInput input inode hinput hentry
    have hdigest := (persistReviewArtifactFileV1_some hinput).1
    have hne : input.final ≠ call.staging := ArtifactFileInput.final_ne_staging hdigest call.tag
    rcases heffect.new_file hentry with hold | ⟨hpath, -⟩ | ⟨hpath, hstaged, htext⟩
    · rw [((heffect.keeps h.bounded hne _ hold).2 inode rfl)]
      exact h.genuine rawInput input inode hinput hold
    · exact absurd hpath hne
    · obtain ⟨callInput, hcallInput⟩ := h.accepted id call hcall
      obtain ⟨-, hhash, hcanonical⟩ := persistReviewArtifactFileV1_some hcallInput
      rw [htext, ArtifactFileInput.contentHash_eq hpath]
      exact ⟨hhash, hcanonical⟩
  · intro id' call' hcall'
    rcases hafter hcall' with ⟨-, rfl⟩ | ⟨-, hold⟩
    · exact h.accepted id call hcall
    · exact h.accepted id' call' hold
  · intro id₁ id₂ call₁ call₂ hcall₁ hcall₂ hne
    rcases hafter hcall₁ with ⟨rfl, rfl⟩ | ⟨-, hold₁⟩ <;>
      rcases hafter hcall₂ with ⟨rfl, rfl⟩ | ⟨-, hold₂⟩
    · exact absurd rfl hne
    · exact h.distinct id₁ id₂ call call₂ hcall hold₂ hne
    · exact h.distinct id₁ id₂ call₁ call hold₁ hcall hne
    · exact h.distinct id₁ id₂ call₁ call₂ hold₁ hold₂ hne
  · intro id' call' hcall'
    rcases hafter hcall' with ⟨-, rfl⟩ | ⟨hne, hold⟩
    · exact hadvanced.sound
    · exact (h.sound id' call' hold).of_effect heffect h.bounded (h.apart hcall hold hne)
  · intro id₁ id₂ call₁ call₂ hcall₁ hcall₂ hlinked₁ hlinked₂ hfinal
    rcases hafter hcall₁ with ⟨rfl, rfl⟩ | ⟨hne₁, hold₁⟩ <;>
      rcases hafter hcall₂ with ⟨rfl, rfl⟩ | ⟨hne₂, hold₂⟩
    · rfl
    · exact absurd hfinal (hlinked hne₂ hold₂ hlinked₁ hlinked₂)
    · exact absurd hfinal.symm (hlinked hne₁ hold₁ hlinked₂ hlinked₁)
    · exact h.linkedOnce id₁ id₂ call₁ call₂ hold₁ hold₂ hlinked₁ hlinked₂ hfinal

theorem World.Safe.start {w : World ι} (h : w.Safe platform) {id : ι} {rawInput : JsValue}
    {tag : JsString} {input : ArtifactFileInput} (hnone : w.calls id = none)
    (hinput : persistReviewArtifactFileV1 platform rawInput = some input)
    (hlegal : w.Legal platform (.start id rawInput tag)) :
    World.Safe platform
      { w with calls := Function.update w.calls id (some ⟨input, tag, .resolveRoot⟩) } := by
  obtain ⟨hdistinct, hunstaged⟩ := hlegal input hinput
  have hafter : ∀ {id' call'}, Function.update w.calls id
      (some ⟨input, tag, .resolveRoot⟩) id' = some call' →
        (id' = id ∧ call' = ⟨input, tag, .resolveRoot⟩) ∨
          (id' ≠ id ∧ w.calls id' = some call') := by
    intro id' call' hcall'
    by_cases heq : id' = id
    · subst heq
      rw [Function.update_self] at hcall'
      exact Or.inl ⟨rfl, (Option.some.inj hcall').symm⟩
    · rw [Function.update_of_ne heq] at hcall'
      exact Or.inr ⟨heq, hcall'⟩
  refine ⟨h.bounded, h.genuine, ?_, ?_, ?_, ?_⟩
  · intro id' call' hcall'
    rcases hafter hcall' with ⟨-, rfl⟩ | ⟨-, hold⟩
    · exact ⟨rawInput, hinput⟩
    · exact h.accepted id' call' hold
  · intro id₁ id₂ call₁ call₂ hcall₁ hcall₂ hne
    rcases hafter hcall₁ with ⟨rfl, rfl⟩ | ⟨-, hold₁⟩ <;>
      rcases hafter hcall₂ with ⟨rfl, rfl⟩ | ⟨-, hold₂⟩
    · exact absurd rfl hne
    · exact (hdistinct id₂ call₂ hold₂).symm
    · exact hdistinct id₁ call₁ hold₁
    · exact h.distinct id₁ id₂ call₁ call₂ hold₁ hold₂ hne
  · intro id' call' hcall'
    rcases hafter hcall' with ⟨-, rfl⟩ | ⟨-, hold⟩
    · exact fun ⟨inode, hentry⟩ => hunstaged inode hentry
    · exact h.sound id' call' hold
  · intro id₁ id₂ call₁ call₂ hcall₁ hcall₂ hlinked₁ hlinked₂ hfinal
    rcases hafter hcall₁ with ⟨rfl, rfl⟩ | ⟨-, hold₁⟩
    · exact hlinked₁.elim
    · rcases hafter hcall₂ with ⟨rfl, rfl⟩ | ⟨-, hold₂⟩
      · exact hlinked₂.elim
      · exact h.linkedOnce id₁ id₂ call₁ call₂ hold₁ hold₂ hlinked₁ hlinked₂ hfinal

/-- **A step keeps the invariant, and every artifact as it is.** -/
theorem World.Safe.takes {w w' : World ι} (h : w.Safe platform) (htakes : w.Takes platform w') :
    w'.Safe platform ∧ ∀ rawInput input,
      persistReviewArtifactFileV1 platform rawInput = some input →
        w.files.Keeps w'.files input.final := by
  obtain ⟨step, hlegal, hperform⟩ := htakes
  cases step with
  | start id rawInput tag =>
      by_cases hnone : w.calls id = none
      · rw [World.perform, if_pos hnone] at hperform
        obtain ⟨input, hinput, rfl⟩ := Option.map_eq_some_iff.mp hperform
        exact ⟨h.start hnone hinput hlegal, fun _ _ _ => Keeps.refl _ _⟩
      · rw [World.perform, if_neg hnone] at hperform
        cases hperform
  | advance id fault =>
      obtain ⟨call, hcall, rfl⟩ := Option.map_eq_some_iff.mp hperform
      obtain ⟨hadvanced, hsafe⟩ := h.advance hcall fault
      refine ⟨hsafe, fun rawInput input hinput => hadvanced.effect.keeps h.bounded ?_⟩
      exact ArtifactFileInput.final_ne_staging (persistReviewArtifactFileV1_some hinput).1 call.tag

theorem World.Safe.run {w w' : World ι} (h : w.Safe platform)
    (hrun : ReflTransGen (World.Takes platform) w w') :
    w'.Safe platform ∧ ∀ rawInput input,
      persistReviewArtifactFileV1 platform rawInput = some input →
        w.files.Keeps w'.files input.final := by
  induction hrun with
  | refl => exact ⟨h, fun _ _ _ => Keeps.refl _ _⟩
  | tail _ htakes ih =>
      obtain ⟨hsafe, hkeeps⟩ := ih.1.takes htakes
      exact ⟨hsafe, fun rawInput input hinput =>
        (ih.2 rawInput input hinput).trans (hkeeps rawInput input hinput)⟩

/-- The file system and the call after a number of accesses that do not fail. -/
def advances (platform : Platform) : ℕ → Files × Call → Files × Call
  | 0, state => state
  | n + 1, (fs, call) =>
      advances platform n ((call.advance platform fs none).1,
        { call with stage := (call.advance platform fs none).2 })

theorem reaches_advances (n : ℕ) {w : World ι} {id : ι} {call : Call}
    (hcall : w.calls id = some call) :
    ∃ w', ReflTransGen (World.Takes platform) w w' ∧
      w'.files = (advances platform n (w.files, call)).1 ∧
      w'.calls id = some (advances platform n (w.files, call)).2 := by
  induction n generalizing w call with
  | zero => exact ⟨w, .refl, rfl, hcall⟩
  | succ n ih =>
      let next : World ι :=
        { files := (call.advance platform w.files none).1
          calls := Function.update w.calls id
            (some { call with stage := (call.advance platform w.files none).2 }) }
      have htakes : w.Takes platform next :=
        ⟨.advance id none, trivial, by rw [World.perform, hcall, Option.map_some]⟩
      obtain ⟨w', hrun, hfiles, hcalls⟩ := ih (w := next) (Function.update_self ..)
      exact ⟨w', .head htakes hrun, hfiles, hcalls⟩

/-- A platform that knows one JSON text. -/
def samplePlatform : Platform where
  parseJson text := if text = js "\x7b\x7d" then some (.obj []) else none
  numberText _ := []
  sha256 _ := List.replicate 64 0x61

def sampleRequest (featureRootPath : JsString) : JsValue :=
  .record [("projectRoot", .text "/project"), ("featureRootPath", .str featureRootPath),
    ("artifactKind", .text "debt_observation"), ("contentHash", .str (List.replicate 64 0x61)),
    ("canonicalJson", .text "\x7b\x7d")]

def sampleInput (featureRootPath : JsString) : ArtifactFileInput :=
  { featureRootPath, artifactKind := .debtObservation
    contentHash := List.replicate 64 0x61, canonicalJson := js "\x7b\x7d" }

/-- A project without files. -/
def emptyProject : World Unit :=
  { files := { entry := fun _ => none, content := fun _ => [], fresh := 0 }
    calls := fun _ => none }

theorem emptyProject_initial : emptyProject.Initial samplePlatform where
  calls _ := rfl
  bounded _ _ h := nomatch h
  genuine _ _ _ _ h := nomatch h

/-- The only call has started. -/
theorem reaches_sample {featureRootPath : JsString}
    (hinput : persistReviewArtifactFileV1 samplePlatform (sampleRequest featureRootPath) =
      some (sampleInput featureRootPath)) (n : ℕ) :
    ∃ w : World Unit, ReflTransGen (World.Takes samplePlatform) emptyProject w ∧
      w.files = (advances samplePlatform n (emptyProject.files,
        ⟨sampleInput featureRootPath, js "1.a", .resolveRoot⟩)).1 ∧
      w.calls () = some (advances samplePlatform n (emptyProject.files,
        ⟨sampleInput featureRootPath, js "1.a", .resolveRoot⟩)).2 := by
  let started : World Unit :=
    { emptyProject with
      calls := Function.update emptyProject.calls ()
        (some ⟨sampleInput featureRootPath, js "1.a", .resolveRoot⟩) }
  have htakes : emptyProject.Takes samplePlatform started := by
    refine ⟨.start () (sampleRequest featureRootPath) (js "1.a"), ?_, ?_⟩
    · exact fun input _ => ⟨fun _ _ hcall => (nomatch hcall), fun _ hentry => (nomatch hentry)⟩
    · have hnone : emptyProject.calls () = none := rfl
      rw [World.perform, if_pos hnone, hinput, Option.map_some]
  have hcall : started.calls () = some ⟨sampleInput featureRootPath, js "1.a", .resolveRoot⟩ :=
    rfl
  obtain ⟨w, hrun, hfiles, hcalls⟩ := reaches_advances n hcall
  exact ⟨w, .head htakes hrun, hfiles, hcalls⟩

end Hepha.Artifacts
