import Hepha.Js.Unicode

/-!
# Regular expressions

A pattern is the function from a string to what may remain of it after a
match at its start: one suffix for each way to match.  `test` looks for a
match at any position, as `RegExp.prototype.test` does, so whether a pattern
matches does not depend on the order in which the ways are tried.
-/

namespace Hepha

/-- What may remain of a string after a match at its start. -/
abbrev Pattern := JsString → List JsString

namespace Pattern

/-- One unit of a class. -/
def unit (p : CodeUnit → Bool) : Pattern
  | [] => []
  | u :: s => if p u then [s] else []

/-- The empty match. -/
def done : Pattern := fun s => [s]

def seq (a b : Pattern) : Pattern := fun s => (a s).flatMap b

def concat (patterns : List Pattern) : Pattern := patterns.foldr seq done

def oneOf (patterns : List Pattern) : Pattern := fun s => patterns.flatMap fun p => p s

/-- `a?`. -/
def optional (a : Pattern) : Pattern := fun s => a s ++ [s]

/-- `p*`, on a class of units. -/
def many (p : CodeUnit → Bool) : Pattern
  | [] => [[]]
  | u :: s => if p u then many p s ++ [u :: s] else [u :: s]

/-- `p{n,}`, on a class of units. -/
def atLeast (n : ℕ) (p : CodeUnit → Bool) : Pattern :=
  concat (List.replicate n (unit p) ++ [many p])

/-- The given text. -/
def lit (text : String) : Pattern :=
  concat ((js text).map fun u => unit (· == u))

def lowerCase (u : CodeUnit) : CodeUnit :=
  if 0x41 ≤ u && u ≤ 0x5A then u + 0x20 else u

/-- The given lower case text under the flag `i`. -/
def litIgnoreCase (text : String) : Pattern :=
  concat ((js text).map fun u => unit fun v => lowerCase v == u)

/-- A class of the listed units. -/
def anyOf (text : String) (u : CodeUnit) : Bool := (js text).contains u

def isDigit (u : CodeUnit) : Bool := 0x30 ≤ u && u ≤ 0x39

def isUpper (u : CodeUnit) : Bool := 0x41 ≤ u && u ≤ 0x5A

def isLower (u : CodeUnit) : Bool := 0x61 ≤ u && u ≤ 0x7A

def isAlphanumeric (u : CodeUnit) : Bool := isDigit u || isUpper u || isLower u

/-- `pattern.test(text)`. -/
def test (pattern : Pattern) (text : JsString) : Bool :=
  text.tails.any fun s => !(pattern s).isEmpty

/-- `pattern.test(text)` for a pattern between `^` and `$`. -/
def testWhole (pattern : Pattern) (text : JsString) : Bool :=
  (pattern text).any List.isEmpty

/-! ## Lone surrogates

A pattern whose classes treat surrogates like U+FFFD does not see whether the
lone surrogates of a string have been replaced. -/

open JsString (Replaces)

/-- A class of units with all surrogates and U+FFFD, or with none of them. -/
def BlindClass (p : CodeUnit → Bool) : Prop :=
  ∀ u, isSurrogate u = true → p u = p 0xFFFD

/-- A pattern that leaves corresponding suffixes of corresponding strings. -/
def Blind (pattern : Pattern) : Prop :=
  ∀ s t, List.Forall₂ Replaces s t →
    List.Forall₂ (List.Forall₂ Replaces) (pattern s) (pattern t)

theorem BlindClass.eq {p : CodeUnit → Bool} (h : BlindClass p) {u v : CodeUnit}
    (huv : Replaces u v) : p v = p u := by
  rcases huv with rfl | ⟨hu, rfl⟩
  · rfl
  · exact (h u hu).symm

/-- A class without surrogates and without U+FFFD. -/
theorem blindClass_of_false {p : CodeUnit → Bool} (h : ∀ u : CodeUnit, 0xD800 ≤ u → p u = false) :
    BlindClass p := by
  intro u hu
  rw [h 0xFFFD (by decide), h u]
  simp only [isSurrogate, isHighSurrogate, isLowSurrogate, Bool.or_eq_true,
    Bool.and_eq_true, decide_eq_true_eq, UInt16.le_iff_toNat_le] at hu ⊢
  simp at hu ⊢
  omega

theorem blind_unit {p : CodeUnit → Bool} (h : BlindClass p) : Blind (unit p) := by
  intro s t hst
  cases hst with
  | nil => exact .nil
  | cons huv hrest =>
      simp only [unit, h.eq huv]
      split
      · exact .cons hrest .nil
      · exact .nil

theorem blind_done : Blind done := fun _ _ hst => .cons hst .nil

theorem blind_seq {a b : Pattern} (ha : Blind a) (hb : Blind b) : Blind (seq a b) := by
  intro s t hst
  have hsuffixes := ha s t hst
  simp only [seq]
  generalize a s = suffixes at hsuffixes
  generalize a t = suffixes' at hsuffixes
  induction hsuffixes with
  | nil => exact .nil
  | cons hxy _ ih =>
      rw [List.flatMap_cons, List.flatMap_cons]
      exact List.rel_append (hb _ _ hxy) ih

theorem blind_concat {patterns : List Pattern} (h : ∀ p ∈ patterns, Blind p) :
    Blind (concat patterns) := by
  induction patterns with
  | nil => exact blind_done
  | cons p rest ih =>
      exact blind_seq (h p List.mem_cons_self) (ih fun q hq => h q (List.mem_cons_of_mem _ hq))

theorem blind_oneOf {patterns : List Pattern} (h : ∀ p ∈ patterns, Blind p) :
    Blind (oneOf patterns) := by
  intro s t hst
  simp only [oneOf]
  induction patterns with
  | nil => exact .nil
  | cons p rest ih =>
      rw [List.flatMap_cons, List.flatMap_cons]
      exact List.rel_append (h p List.mem_cons_self s t hst)
        (ih fun q hq => h q (List.mem_cons_of_mem _ hq))

theorem blind_optional {a : Pattern} (ha : Blind a) : Blind (optional a) :=
  fun s t hst => List.rel_append (ha s t hst) (.cons hst .nil)

theorem blind_many {p : CodeUnit → Bool} (h : BlindClass p) : Blind (many p) := by
  intro s t hst
  induction hst with
  | nil => exact .cons .nil .nil
  | cons huv hrest ih =>
      simp only [many, h.eq huv]
      split
      · exact List.rel_append ih (.cons (.cons huv hrest) .nil)
      · exact .cons (.cons huv hrest) .nil

theorem blind_atLeast {n : ℕ} {p : CodeUnit → Bool} (h : BlindClass p) : Blind (atLeast n p) := by
  refine blind_concat fun q hq => ?_
  rcases List.mem_append.mp hq with hq | hq
  · rw [List.eq_of_mem_replicate hq]
    exact blind_unit h
  · rw [List.mem_singleton.mp hq]
    exact blind_many h

theorem blindClass_anyOf {text : String} (h : ∀ u ∈ js text, u < 0xD800) :
    BlindClass (anyOf text) := by
  refine blindClass_of_false fun v hv => ?_
  rw [anyOf, ← Bool.not_eq_true, List.contains_iff_mem]
  intro hmem
  have hlt := h v hmem
  rw [UInt16.le_iff_toNat_le] at hv
  rw [UInt16.lt_iff_toNat_lt] at hlt
  omega

/-- A text of units below the surrogates. -/
theorem blind_lit {text : String} (h : ∀ u ∈ js text, u < 0xD800) : Blind (lit text) := by
  refine blind_concat fun q hq => ?_
  obtain ⟨u, hu, rfl⟩ := List.mem_map.mp hq
  refine blind_unit (blindClass_of_false fun v hv => ?_)
  have hlt := h u hu
  rw [beq_eq_false_iff_ne]
  rintro rfl
  rw [UInt16.le_iff_toNat_le] at hv
  rw [UInt16.lt_iff_toNat_lt] at hlt
  omega

theorem blind_litIgnoreCase {text : String} (h : ∀ u ∈ js text, u < 0xD800) :
    Blind (litIgnoreCase text) := by
  refine blind_concat fun q hq => ?_
  obtain ⟨u, hu, rfl⟩ := List.mem_map.mp hq
  refine blind_unit (blindClass_of_false fun v hv => ?_)
  have hlt := h u hu
  have hlower : lowerCase v = v := by
    simp only [lowerCase, Bool.and_eq_true, decide_eq_true_eq, UInt16.le_iff_toNat_le] at hv ⊢
    rw [if_neg]
    simp at hv ⊢
    omega
  rw [hlower, beq_eq_false_iff_ne]
  rintro rfl
  rw [UInt16.le_iff_toNat_le] at hv
  rw [UInt16.lt_iff_toNat_lt] at hlt
  omega

/-- **A blind pattern does not see the replacement of lone surrogates.** -/
theorem test_toWellFormed {pattern : Pattern} (h : Blind pattern) (text : JsString) :
    test pattern text.toWellFormed = test pattern text := by
  have hempty : ∀ s t, List.Forall₂ Replaces s t →
      (pattern t).isEmpty = (pattern s).isEmpty := by
    intro s t hst
    have hsuffixes := h s t hst
    generalize pattern s = suffixes at hsuffixes
    generalize pattern t = suffixes' at hsuffixes
    cases hsuffixes with
    | nil => rfl
    | cons _ _ => rfl
  have hreplaces := JsString.toWellFormed_replaces text
  generalize text.toWellFormed = text' at hreplaces
  unfold test
  induction hreplaces with
  | nil => rfl
  | cons huv hrest ih =>
      simp only [List.tails, List.any_cons, ih, hempty _ _ (.cons huv hrest)]

/-! ## The units of a match -/

/-- A match takes units of a class only. -/
def Within (p : CodeUnit → Bool) (pattern : Pattern) : Prop :=
  ∀ s, ∀ t ∈ pattern s, ∃ front, s = front ++ t ∧ ∀ u ∈ front, p u = true

variable {p q : CodeUnit → Bool}

theorem within_unit (h : ∀ u, q u = true → p u = true) : Within p (unit q) := by
  intro s t ht
  cases s with
  | nil => cases ht
  | cons u rest =>
      rw [unit] at ht
      split at ht
      · rename_i hu
        obtain rfl := List.mem_singleton.mp ht
        exact ⟨[u], rfl, by simpa using h u hu⟩
      · cases ht

theorem within_done : Within p done :=
  fun _ _ ht => ⟨[], by rw [List.mem_singleton.mp ht, List.nil_append], by simp⟩

theorem within_seq {a b : Pattern} (ha : Within p a) (hb : Within p b) : Within p (seq a b) := by
  intro s t ht
  obtain ⟨middle, hmiddle, hlast⟩ := List.mem_flatMap.mp ht
  obtain ⟨front, rfl, hfront⟩ := ha s middle hmiddle
  obtain ⟨rest, rfl, hrest⟩ := hb middle t hlast
  exact ⟨front ++ rest, (List.append_assoc _ _ _).symm,
    fun u hu => (List.mem_append.mp hu).elim (hfront u) (hrest u)⟩

theorem within_concat {patterns : List Pattern} (h : ∀ a ∈ patterns, Within p a) :
    Within p (concat patterns) := by
  induction patterns with
  | nil => exact within_done
  | cons a rest ih =>
      exact within_seq (h a List.mem_cons_self) (ih fun b hb => h b (List.mem_cons_of_mem _ hb))

theorem within_many (h : ∀ u, q u = true → p u = true) : Within p (many q) := by
  intro s
  induction s with
  | nil => exact fun t ht => ⟨[], by rw [List.mem_singleton.mp ht, List.nil_append], by simp⟩
  | cons u rest ih =>
      intro t ht
      rw [many] at ht
      split at ht
      · rename_i hu
        rcases List.mem_append.mp ht with ht | ht
        · obtain ⟨front, rfl, hfront⟩ := ih t ht
          exact ⟨u :: front, rfl, List.forall_mem_cons.mpr ⟨h u hu, hfront⟩⟩
        · exact ⟨[], by rw [List.mem_singleton.mp ht, List.nil_append], by simp⟩
      · exact ⟨[], by rw [List.mem_singleton.mp ht, List.nil_append], by simp⟩

end Pattern

namespace JsString

open Pattern

/-- `/^[a-z][a-z0-9]*(?:-[a-z0-9]+)*$/`: words of lower case letters and
digits, joined by single hyphens, the first beginning with a letter. -/
def isKebabCase (text : JsString) : Bool :=
  text.head?.any isLower && (text.all fun u => isLower u || isDigit u || u == 0x2D) &&
    text.getLast? != some 0x2D && !(text.zip text.tail).any fun pair => pair == (0x2D, 0x2D)

/-- Every surrogate of the text is in a pair. -/
def isWellFormed : JsString → Bool
  | [] => true
  | [u] => !isSurrogate u
  | u :: v :: rest =>
      if isHighSurrogate u then isLowSurrogate v && isWellFormed rest
      else !isLowSurrogate u && isWellFormed (v :: rest)

end JsString

end Hepha
