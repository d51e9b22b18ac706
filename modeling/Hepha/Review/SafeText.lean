import Hepha.Js.Pattern

/-!
# Safe text

The store and the contract each have a scan for text that must not be kept,
with patterns for credentials that overlap but do not agree: the store knows
more words and more kinds of keys, the contract accepts shorter keys as such.
-/

namespace Hepha.Review

open Pattern

/-! ## The store's scan -/

/-- A word for a credential, followed by a value. -/
def storeAssignment : Pattern :=
  concat [optional (unit (anyOf "\"'")),
    oneOf [concat [litIgnoreCase "api", optional (unit (anyOf "_-")), litIgnoreCase "key"],
      litIgnoreCase "apikey",
      concat [litIgnoreCase "secret", optional (unit (anyOf "_-")), litIgnoreCase "key"],
      litIgnoreCase "secretkey",
      concat [litIgnoreCase "access", optional (unit (anyOf "_-")), litIgnoreCase "key"],
      litIgnoreCase "password", litIgnoreCase "passwd", litIgnoreCase "pwd",
      litIgnoreCase "token",
      concat [litIgnoreCase "auth", optional (unit (anyOf "_-")), litIgnoreCase "token"],
      litIgnoreCase "bearer", litIgnoreCase "jwt",
      concat [litIgnoreCase "private", optional (unit (anyOf "_-")), litIgnoreCase "key"]],
    optional (unit (anyOf "\"'")), many isWhiteSpace, unit (anyOf "=:"),
    optional (seq (optional (unit (anyOf "\"'"))) (many isWhiteSpace)),
    atLeast 1 (!isWhiteSpace ·)]

def storePrivateKey : Pattern :=
  concat [litIgnoreCase "-----begin", atLeast 1 isWhiteSpace,
    oneOf [litIgnoreCase "rsa", litIgnoreCase "ec", litIgnoreCase "dsa", litIgnoreCase "openssh",
      litIgnoreCase "pgp"],
    atLeast 1 isWhiteSpace, litIgnoreCase "private", atLeast 1 isWhiteSpace,
    litIgnoreCase "key-----"]

def githubToken : Pattern :=
  seq (oneOf [lit "ghp_", lit "gho_", lit "ghu_", lit "ghs_", lit "ghr_"])
    (atLeast 36 isAlphanumeric)

def storeSecretKey : Pattern :=
  concat [lit "sk-", atLeast 20 isAlphanumeric, optional (atLeast 10 isAlphanumeric)]

def awsKey : Pattern :=
  concat [lit "AKIA", concat (List.replicate 16 (unit fun u => isDigit u || isUpper u)),
    concat (List.replicate 40 (unit fun u => isAlphanumeric u || u == 0x2B || u == 0x2F))]

/-- The store's `SECRET_LIKE_PATTERNS`. -/
def secretLikePatterns : List Pattern :=
  [storeAssignment, storePrivateKey, githubToken, storeSecretKey, awsKey]

/-- `scanSafeStringValue`: no control characters but tab and line ends, no
lone surrogate and nothing like a secret. -/
def scanSafeStringValue (content : JsString) : Bool :=
  (content.all fun u => 0x20 ≤ u || u == 0x09 || u == 0x0A || u == 0x0D) &&
    content.isWellFormed && !secretLikePatterns.any fun pattern => test pattern content

/-- `scanSafeContent`. -/
def scanSafeContent (content : JsString) : Bool :=
  !content.isEmpty && scanSafeStringValue content

/-! ## The contract's scan -/

def contractAssignment : Pattern :=
  concat [oneOf [concat [litIgnoreCase "api", optional (unit (anyOf "_-")), litIgnoreCase "key"],
      litIgnoreCase "authorization", litIgnoreCase "bearer", litIgnoreCase "password",
      litIgnoreCase "secret", litIgnoreCase "token"],
    many isWhiteSpace, unit (anyOf ":="), many isWhiteSpace, atLeast 1 (!isWhiteSpace ·)]

def contractPrivateKey : Pattern :=
  concat [lit "-----BEGIN ", optional (seq (atLeast 1 fun u => isUpper u || u == 0x20) (lit " ")),
    lit "PRIVATE KEY-----"]

def contractSecretKey : Pattern :=
  seq (lit "sk-") (atLeast 12 fun u => isAlphanumeric u || u == 0x5F || u == 0x2D)

/-- The contract's `secretPatterns`. -/
def secretPatterns : List Pattern :=
  [contractAssignment, contractPrivateKey, contractSecretKey]

/-- Replacing lone surrogates makes nothing like a secret. -/
theorem secretPatterns_toWellFormed (value : JsString) :
    (secretPatterns.any fun pattern => test pattern value.toWellFormed) =
      secretPatterns.any fun pattern => test pattern value := by
  have hspace : BlindClass isWhiteSpace := JsString.isWhiteSpace_surrogate
  have hvisible : BlindClass (!isWhiteSpace ·) := fun u hu =>
    congrArg (! ·) (hspace u hu)
  have hascii {text : String} (h : (js text).all (· < 0xD800) = true) : ∀ u ∈ js text, u < 0xD800 :=
    fun u hu => of_decide_eq_true (List.all_eq_true.mp h u hu)
  have hseparator : BlindClass (anyOf ":=") := blindClass_anyOf (hascii rfl)
  have hjoint : BlindClass (anyOf "_-") := blindClass_anyOf (hascii rfl)
  have hupper : BlindClass fun u => isUpper u || u == 0x20 := by
    refine blindClass_of_false fun u hu => ?_
    rw [UInt16.le_iff_toNat_le] at hu
    simp [isUpper, UInt16.le_iff_toNat_le, ← UInt16.toNat_inj] at hu ⊢
    omega
  have hkey : BlindClass fun u => isAlphanumeric u || u == 0x5F || u == 0x2D := by
    refine blindClass_of_false fun u hu => ?_
    rw [UInt16.le_iff_toNat_le] at hu
    simp [isAlphanumeric, isDigit, isUpper, isLower, UInt16.le_iff_toNat_le,
      ← UInt16.toNat_inj] at hu ⊢
    omega
  have hword {text : String} (h : (js text).all (· < 0xD800) = true) : Blind (litIgnoreCase text) :=
    blind_litIgnoreCase (hascii h)
  have htext {text : String} (h : (js text).all (· < 0xD800) = true) : Blind (lit text) :=
    blind_lit (hascii h)
  have hassignment : Blind contractAssignment := by
    refine blind_seq (blind_oneOf ?_) (blind_seq (blind_many hspace)
      (blind_seq (blind_unit hseparator) (blind_seq (blind_many hspace)
        (blind_seq (blind_atLeast hvisible) blind_done))))
    simp only [List.forall_mem_cons, List.not_mem_nil, false_implies, implies_true, and_true]
    exact ⟨blind_seq (hword rfl) (blind_seq (blind_optional (blind_unit hjoint))
      (blind_seq (hword rfl) blind_done)), hword rfl, hword rfl, hword rfl, hword rfl, hword rfl⟩
  have hprivate : Blind contractPrivateKey :=
    blind_seq (htext rfl) (blind_seq (blind_optional (blind_seq (blind_atLeast hupper)
      (htext rfl))) (blind_seq (htext rfl) blind_done))
  have hsecret : Blind contractSecretKey := blind_seq (htext rfl) (blind_atLeast hkey)
  simp only [secretPatterns, List.any_cons, List.any_nil, test_toWellFormed hassignment,
    test_toWellFormed hprivate, test_toWellFormed hsecret]

def reviewArtifactMaxStringLength : ℕ := 4096

/-- `isReviewContractSafeString`. -/
def isReviewContractSafeString (value : JsString) : Bool :=
  0 < value.length && value.length ≤ reviewArtifactMaxStringLength &&
    !secretPatterns.any fun pattern => test pattern value

/-- `/[\u0000-\u001f\u007f-\u009f]/`. -/
def isTextControl (u : CodeUnit) : Bool :=
  u ≤ 0x1F || (0x7F ≤ u && u ≤ 0x9F)

example : isReviewContractSafeString (js "task-aaaaaaaaaaaa") = false := by decide +kernel

example : scanSafeContent (js "task-aaaaaaaaaaaa") = true := by decide +kernel

end Hepha.Review
