import Hepha.Js.Json
import Hepha.Lib.FileSystem
import Hepha.Review.Guards
import Hepha.Review.Input

/-!
# Publication of review artifacts

`persistReviewArtifactFileV1` checks a request and publishes its text at a path
that contains the hash of the text.  The text is written to a staging file in
the same directory, read back, and given its final name by a hard link, which
fails if the name exists; the staging file is removed in the end.

A call is a sequence of accesses to the file system, with the nested `catch` and
`finally` blocks of the source between them.  `Stage` is the access that comes
next, and `Call.advance` performs it: it may fail with any error code, and a
write that fails may leave any text.  Paths are relative to the project root,
which the checks of the source never leave.
-/

namespace Hepha.Artifacts

open Review (ReviewStoreArtifactKind)

/-! ## The request -/

/-- The length of `Buffer.from(text, "utf8")`. -/
def utf8Length : JsString → ℕ
  | [] => 0
  | [u] => if u < 0x80 then 1 else if u < 0x800 then 2 else 3
  | u :: v :: rest =>
      if isHighSurrogate u && isLowSurrogate v then 4 + utf8Length rest
      else (if u < 0x80 then 1 else if u < 0x800 then 2 else 3) + utf8Length (v :: rest)

/-- `PersistReviewArtifactFileInput`, without the project root. -/
structure ArtifactFileInput where
  featureRootPath : JsString
  artifactKind : ReviewStoreArtifactKind
  contentHash : JsString
  canonicalJson : JsString
deriving DecidableEq

variable (platform : Platform)

/-- The text is canonical, and nothing in it is unsafe. -/
def isCanonicalText (text : JsString) : Bool :=
  (platform.parseJson text).any fun parsed =>
    Review.scanSafeContent text && Review.scanSafeParsedStringValues parsed &&
      canonicalizeJson platform parsed == some text

/-- The checks of `persistReviewArtifactFileV1`, `none` where they reject. -/
def persistReviewArtifactFileV1 (rawInput : JsValue) : Option ArtifactFileInput := do
  guard (rawInput.isRecord && rawInput.keys.length == 5 &&
    ["projectRoot", "featureRootPath", "artifactKind", "contentHash", "canonicalJson"].all
      rawInput.hasKey)
  guard (rawInput.hasText "projectRoot" fun root => !root.contains 0 && root.head? == some 0x2F)
  let featureRootPath ← (rawInput.get (js "featureRootPath")).isString
  guard (Review.isProjectRelativePosixPath featureRootPath && featureRootPath.length ≤ 1024)
  let artifactKind ← (rawInput.get (js "artifactKind")).isOneOf Review.allowedArtifactKinds
  let contentHash ← (rawInput.get (js "contentHash")).isString
  guard contentHash.isHexDigest
  let canonicalJson ← (rawInput.get (js "canonicalJson")).isString
  guard (canonicalJson ≠ [] ∧ utf8Length canonicalJson ≤ 256 * 1024)
  guard (isCanonicalText platform canonicalJson)
  guard (platform.sha256 canonicalJson = contentHash)
  return { featureRootPath, artifactKind, contentHash, canonicalJson }

variable {platform}

/-- What publication relies on of an input that passed the checks. -/
theorem persistReviewArtifactFileV1_some {rawInput : JsValue} {input : ArtifactFileInput}
    (h : persistReviewArtifactFileV1 platform rawInput = some input) :
    input.contentHash.isHexDigest = true ∧
      platform.sha256 input.canonicalJson = input.contentHash ∧
      isCanonicalText platform input.canonicalJson = true := by
  simp only [persistReviewArtifactFileV1, Option.bind_eq_bind, Option.bind_eq_some_iff,
    Option.guard_eq_some', Option.pure_def, Option.some.injEq] at h
  obtain ⟨_, _, _, _, _, _, _, _, _, _, _, _, _, hdigest, _, _, _, _, _, hcanonical, _, hhash,
    rfl⟩ := h
  exact ⟨hdigest, hhash, hcanonical⟩

/-! ## Paths -/

namespace ArtifactFileInput

/-- `dirname` of the artifact's path, in segments. -/
def directory (input : ArtifactFileInput) : List JsString :=
  input.featureRootPath.splitOn 0x2F ++
    [js "code-reviews", js "artifacts", js input.artifactKind.word]

/-- `resolvedFinal`. -/
def final (input : ArtifactFileInput) : List JsString :=
  input.directory ++ [input.contentHash ++ js ".json"]

/-- `stagingPath`, with the process id and the random digits in its name. -/
def staging (input : ArtifactFileInput) (tag : JsString) : List JsString :=
  input.directory ++ [js "." ++ input.contentHash ++ js "." ++ tag ++ js ".tmp"]

/-- The segments are those of the derived path. -/
theorem splitOn_deriveArtifactPath {input : ArtifactFileInput}
    (hdigest : input.contentHash.isHexDigest = true) :
    (Review.deriveArtifactPath input.featureRootPath input.artifactKind
      input.contentHash).splitOn 0x2F = input.final := by
  have hpath : Review.deriveArtifactPath input.featureRootPath input.artifactKind
      input.contentHash = input.featureRootPath ++ 0x2F :: (js "code-reviews" ++ 0x2F ::
        (js "artifacts" ++ 0x2F :: (js input.artifactKind.word ++ 0x2F ::
          (input.contentHash ++ js ".json")))) := by
    have hmiddle : js "/code-reviews/artifacts/" =
        0x2F :: (js "code-reviews" ++ 0x2F :: (js "artifacts" ++ [0x2F])) := by decide
    simp [Review.deriveArtifactPath, hmiddle, show js "/" = [0x2F] by decide]
  have hkind : (0x2F : CodeUnit) ∉ js input.artifactKind.word := by
    cases input.artifactKind <;> decide
  have hname : (0x2F : CodeUnit) ∉ input.contentHash ++ js ".json" := by
    rw [List.mem_append, not_or]
    refine ⟨fun hmem => ?_, by decide⟩
    simp only [JsString.isHexDigest, Bool.and_eq_true, List.all_eq_true] at hdigest
    simpa using hdigest.2 _ hmem
  rw [hpath, List.splitOn_append_cons_self, List.splitOn_append_cons_self_of_not_mem (by decide),
    List.splitOn_append_cons_self_of_not_mem (by decide),
    List.splitOn_append_cons_self_of_not_mem hkind, List.splitOn_eq_singleton hname]
  simp [final, directory]

/-- The name of an artifact determines its hash. -/
theorem contentHash_eq {left right : ArtifactFileInput} (h : left.final = right.final) :
    left.contentHash = right.contentHash := by
  have hlast := (List.append_inj' h rfl).2
  exact List.append_cancel_right (List.cons.inj hlast).1

/-- No artifact has the name of a staging file. -/
theorem final_ne_staging {left right : ArtifactFileInput}
    (hdigest : left.contentHash.isHexDigest = true) (tag : JsString) :
    left.final ≠ right.staging tag := by
  intro h
  have hlast := (List.cons.inj (List.append_inj' h rfl).2).1
  have hdot : js "." = [0x2E] := by decide
  simp only [JsString.isHexDigest, Bool.and_eq_true, beq_iff_eq, List.all_eq_true] at hdigest
  cases hhash : left.contentHash with
  | nil => simp [hhash] at hdigest
  | cons u rest =>
      have hu := hdigest.2 u (by simp [hhash])
      rw [hhash, hdot] at hlast
      obtain rfl : u = 0x2E := (List.cons.inj hlast).1
      simp at hu

end ArtifactFileInput

/-! ## A call -/

inductive PersistError
  | invalidInput
  | fileCollision
  | persistenceFailed
deriving DecidableEq, Repr

inductive Outcome
  | returned (created : Bool)
  | threw (error : PersistError)
deriving DecidableEq, Repr

/-- Where `verifyExisting` is called: before staging, after a link that found
the name taken, and after a link that succeeded. -/
inductive Purpose
  | reuse
  | raced
  | published
deriving DecidableEq, Repr

/-- The next access of a call to the file system.  From `closeAgain` on it is in
the `finally` block. -/
inductive Stage
  | resolveRoot
  | makeDirectory (parent : List JsString) (segment : JsString) (rest : List JsString)
  | statDirectory (parent : List JsString) (segment : JsString) (rest : List JsString)
  | resolveDirectory
  | statFinal (purpose : Purpose)
  | readFinal (purpose : Purpose)
  | openStaging
  | writeStaging (descriptor : ℕ)
  | syncStaging (descriptor : ℕ)
  | closeStaging (descriptor : ℕ)
  | readStaging
  | linkFinal
  | closeAgain
  | removeStaging (outcome : Outcome)
  | done (outcome : Outcome) (unlinkFailed : Bool)
deriving DecidableEq

/-- A call of `persistValidated`. -/
structure Call where
  input : ArtifactFileInput
  tag : JsString
  stage : Stage
deriving DecidableEq

namespace Call

def final (call : Call) : List JsString := call.input.final

def staging (call : Call) : List JsString := call.input.staging call.tag

end Call

abbrev Files := FileSystem JsString JsString

/-- An access that fails, with the text that it leaves if it is a write. -/
structure Fault where
  error : Errno
  torn : JsString

def attempt {β : Type} (fault : Option Fault) (result : Except Errno β) : Except Errno β :=
  fault.elim result fun f => .error f.error

/-- The end of the outer `try` block, before there is a staging file. -/
def quit (error : PersistError) : Stage :=
  .done (.threw error) false

/-- The end of the inner `try` block by an error. -/
def cleanUp (error : PersistError) : Stage :=
  .removeStaging (.threw error)

/-- What follows `verifyExisting` when it returns `null`. -/
def whenAbsent : Purpose → Stage
  | .reuse => .openStaging
  | .raced | .published => cleanUp .persistenceFailed

/-- What follows `verifyExisting` when it returns the file. -/
def whenPresent : Purpose → Stage
  | .reuse => .done (.returned false) false
  | .raced => .removeStaging (.returned false)
  | .published => .removeStaging (.returned true)

/-- What follows `verifyExisting` when it throws. -/
def whenThrown : Purpose → PersistError → Stage
  | .reuse, error => quit error
  | .raced, error | .published, error => cleanUp error

/-- The first segment of the directory, after the check of the resolved path. -/
def enterDirectory (input : ArtifactFileInput) : Stage :=
  match input.directory with
  | [] => .resolveDirectory
  | segment :: rest =>
      if segment.take 2 = js ".." then quit .invalidInput else .makeDirectory [] segment rest

namespace Call

variable (platform)

/-- The next access of a call, with the stage after it. -/
def advance (call : Call) (fs : Files) (fault : Option Fault) : Files × Stage :=
  match call.stage with
  | .resolveRoot =>
      if fault.isSome then (fs, quit .persistenceFailed) else (fs, enterDirectory call.input)
  | .makeDirectory parent segment rest =>
      match attempt fault (fs.mkdir (parent ++ [segment])) with
      | .ok fs' => (fs', .statDirectory parent segment rest)
      | .error .exists => (fs, .statDirectory parent segment rest)
      | .error _ => (fs, quit .persistenceFailed)
  | .statDirectory parent segment rest =>
      match attempt fault (fs.lstat (parent ++ [segment])) with
      | .ok .directory =>
          match rest with
          | [] => (fs, .resolveDirectory)
          | next :: rest => (fs, .makeDirectory (parent ++ [segment]) next rest)
      | .ok (.file _) => (fs, quit .invalidInput)
      | .error _ => (fs, quit .persistenceFailed)
  | .resolveDirectory =>
      if fault.isSome then (fs, quit .persistenceFailed) else (fs, .statFinal .reuse)
  | .statFinal purpose =>
      match attempt fault (fs.lstat call.final) with
      | .ok (.file _) => (fs, .readFinal purpose)
      | .ok .directory => (fs, whenThrown purpose .fileCollision)
      | .error .missing => (fs, whenAbsent purpose)
      | .error _ => (fs, whenThrown purpose .persistenceFailed)
  | .readFinal purpose =>
      match attempt fault (fs.read call.final) with
      | .ok existing =>
          if existing = call.input.canonicalJson ∧
              platform.sha256 existing = call.input.contentHash then
            (fs, whenPresent purpose)
          else (fs, whenThrown purpose .fileCollision)
      | .error .missing => (fs, whenAbsent purpose)
      | .error _ => (fs, whenThrown purpose .persistenceFailed)
  | .openStaging =>
      match attempt fault (fs.openExclusive call.staging) with
      | .ok (descriptor, fs') => (fs', .writeStaging descriptor)
      | .error _ => (fs, quit .persistenceFailed)
  | .writeStaging descriptor =>
      match fault with
      | none => (fs.write descriptor call.input.canonicalJson.toWellFormed,
          .syncStaging descriptor)
      | some f => (fs.write descriptor f.torn, .closeAgain)
  | .syncStaging descriptor =>
      if fault.isSome then (fs, .closeAgain) else (fs, .closeStaging descriptor)
  | .closeStaging _ =>
      if fault.isSome then (fs, .closeAgain) else (fs, .readStaging)
  | .readStaging =>
      match attempt fault (fs.read call.staging) with
      | .ok stagedBytes =>
          if stagedBytes = call.input.canonicalJson ∧
              platform.sha256 stagedBytes = call.input.contentHash then
            (fs, .linkFinal)
          else (fs, cleanUp .persistenceFailed)
      | .error _ => (fs, cleanUp .persistenceFailed)
  | .linkFinal =>
      match attempt fault (fs.link call.staging call.final) with
      | .ok fs' => (fs', .statFinal .published)
      | .error .exists => (fs, .statFinal .raced)
      | .error _ => (fs, cleanUp .persistenceFailed)
  | .closeAgain => (fs, cleanUp .persistenceFailed)
  | .removeStaging outcome =>
      match attempt fault (fs.unlink call.staging) with
      | .ok fs' => (fs', .done outcome false)
      | .error _ => (fs, .done (.threw .persistenceFailed) true)
  | .done outcome unlinkFailed => (fs, .done outcome unlinkFailed)

end Call

end Hepha.Artifacts
