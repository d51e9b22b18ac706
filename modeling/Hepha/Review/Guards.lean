import Hepha.Js.Collections
import Hepha.Js.Date
import Hepha.Review.Contracts
import Hepha.Review.SafeText

/-!
# The fields of review records

The rules that the review stores share: for identifiers, texts, timestamps,
digests and paths.  Each has a guard on a text and a reader of a value.
-/

namespace Hepha.Review

open JsValue Pattern

/-! ## Texts -/

/-- `assertSafeBoundedString` with a limit. -/
def isSafeText (maxLength : ℕ) (value : JsString) : Bool :=
  0 < value.length && value.length ≤ maxLength && scanSafeContent value

/-- `assertSafeIdentifier`. -/
def isSafeIdentifier (value : JsString) : Bool :=
  isSafeText 256 value

/-- `assertSafeBoundedString`. -/
def isSafeBoundedString (value : JsString) : Bool :=
  isSafeText 4096 value

/-- `assertKebabIdentifier` with a limit. -/
def isKebabText (maxLength : ℕ) (value : JsString) : Bool :=
  0 < value.length && value.length ≤ maxLength && value.isKebabCase

/-- `assertKebabIdentifier`. -/
def isKebabIdentifier (value : JsString) : Bool :=
  isKebabText 128 value

/-- `/(\.\d+)?(Z|[+-]00:00)$/`. -/
def utcSuffix : Pattern :=
  seq (optional (seq (lit ".") (atLeast 1 isDigit)))
    (oneOf [lit "Z", seq (unit (anyOf "+-")) (lit "00:00")])

/-- `assertUtcTimestamp`. -/
def isUtcTimestamp (value : JsString) : Bool :=
  (Date.readDateTime value).any fun (time, rest) =>
    testWhole utcSuffix rest && 2000 ≤ time.year && time.year ≤ 2099 && time.exists

/-! ## Paths -/

def isLetter (u : CodeUnit) : Bool := isUpper u || isLower u

/-- `/^[A-Za-z]:/` and `/^[a-z][a-z0-9+.-]*:/i`. -/
def hasUriScheme (value : JsString) : Bool :=
  value.head?.any isLetter &&
    (value.dropWhile fun u => isAlphanumeric u || anyOf "+.-" u).head? == some 0x3A

/-- `assertProjectRelativePosixPath`. -/
def isProjectRelativePosixPath (value : JsString) : Bool :=
  0 < value.length &&
    !(value.contains 0x5C || value.contains 0 || value.head? == some 0x2F || hasUriScheme value) &&
    (value.splitOn 0x2F).all fun segment =>
      segment ≠ [] && segment ≠ js "." && segment ≠ js ".."

/-- `deriveArtifactPath`, of arguments that have been checked. -/
def deriveArtifactPath (featureRootPath : JsString) (artifactKind : ReviewStoreArtifactKind)
    (contentHash : JsString) : JsString :=
  featureRootPath ++ js "/code-reviews/artifacts/" ++ js artifactKind.word ++ js "/" ++
    contentHash ++ js ".json"

/-! ## Readers -/

def safeIdentifier (value : JsValue) : Option JsString :=
  value.isString.filter isSafeIdentifier

def kebabIdentifier (value : JsValue) : Option JsString :=
  value.isString.filter isKebabIdentifier

def safeText (maxLength : ℕ) (value : JsValue) : Option JsString :=
  value.isString.filter (isSafeText maxLength)

def safeBoundedString (value : JsValue) : Option JsString :=
  value.isString.filter isSafeBoundedString

def utcTimestamp (value : JsValue) : Option JsString :=
  value.isString.filter isUtcTimestamp

def projectRelativePosixPath (value : JsValue) : Option JsString :=
  value.isString.filter isProjectRelativePosixPath

/-- `assertValidHash`. -/
def validHash (value : JsValue) : Option JsString :=
  value.isString.filter JsString.isHexDigest

/-! ### What is read has been checked -/

section Read

variable {value : JsValue}

theorem kebabIdentifier_some {id : JsString} (h : kebabIdentifier value = some id) :
    isKebabIdentifier id = true :=
  (Option.filter_eq_some_iff.mp h).2

theorem safeIdentifier_some {id : JsString} (h : safeIdentifier value = some id) :
    isSafeIdentifier id = true :=
  (Option.filter_eq_some_iff.mp h).2

theorem utcTimestamp_some {time : JsString} (h : utcTimestamp value = some time) :
    isUtcTimestamp time = true :=
  (Option.filter_eq_some_iff.mp h).2

theorem validHash_some {digest : JsString} (h : validHash value = some digest) :
    digest.isHexDigest = true :=
  (Option.filter_eq_some_iff.mp h).2

end Read

end Hepha.Review
