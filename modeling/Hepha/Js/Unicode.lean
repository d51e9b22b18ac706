import Hepha.Js.Text
import Mathlib.Data.List.Forall2
import Mathlib.Data.List.Lex
import Mathlib.Data.List.TakeWhile
import Mathlib.Data.Nat.Notation

/-!
# Surrogates, white space and stored text

A text column keeps a JavaScript string as UTF-8, which cannot hold a lone
surrogate: each is replaced by U+FFFD on the way in, and also when a string is
bound to look a row up.  `toWellFormed` is this replacement.  It changes single
units only, and only surrogates, so every test of the source that looks at
lengths, white space or control characters gives the same answer before and
after (`toWellFormed_replaces`).

`codePoints` is the order of text columns: SQLite compares their UTF-8 bytes,
which is the order of the code points and not of the code units.
-/

namespace Hepha

def isHighSurrogate (u : CodeUnit) : Bool :=
  0xD800 ≤ u && u ≤ 0xDBFF

def isLowSurrogate (u : CodeUnit) : Bool :=
  0xDC00 ≤ u && u ≤ 0xDFFF

def isSurrogate (u : CodeUnit) : Bool :=
  isHighSurrogate u || isLowSurrogate u

/-- The white space and line terminators that `trim` removes. -/
def isWhiteSpace (u : CodeUnit) : Bool :=
  (0x09 ≤ u && u ≤ 0x0D) || u == 0x20 || u == 0xA0 || u == 0x1680 ||
    (0x2000 ≤ u && u ≤ 0x200A) || u == 0x2028 || u == 0x2029 || u == 0x202F ||
    u == 0x205F || u == 0x3000 || u == 0xFEFF

/-- `/[\u0000-\u001f\u007f]/`. -/
def isControl (u : CodeUnit) : Bool :=
  u ≤ 0x1F || u == 0x7F

theorem isSurrogate_of_lt {u : CodeUnit} (h : u.toNat < 0xD800) : isSurrogate u = false := by
  simp only [isSurrogate, isHighSurrogate, isLowSurrogate, Bool.or_eq_false_iff,
    Bool.and_eq_false_imp, decide_eq_true_eq, UInt16.le_iff_toNat_le]
  simp
  omega

namespace JsString

def trim (s : JsString) : JsString :=
  ((s.dropWhile isWhiteSpace).reverse.dropWhile isWhiteSpace).reverse

/-- The string as UTF-8 keeps it: a lone surrogate becomes U+FFFD. -/
def toWellFormed : JsString → JsString
  | [] => []
  | [u] => if isSurrogate u then [0xFFFD] else [u]
  | u :: v :: rest =>
      if isHighSurrogate u && isLowSurrogate v then u :: v :: toWellFormed rest
      else if isSurrogate u then 0xFFFD :: toWellFormed (v :: rest)
      else u :: toWellFormed (v :: rest)

/-- The code points of a string, a lone surrogate counting as itself. -/
def codePoints : JsString → List ℕ
  | [] => []
  | [u] => [u.toNat]
  | u :: v :: rest =>
      if isHighSurrogate u && isLowSurrogate v then
        (0x10000 + (u.toNat - 0xD800) * 0x400 + (v.toNat - 0xDC00)) :: codePoints rest
      else u.toNat :: codePoints (v :: rest)

/-- The order of a text column. -/
def textLe (s t : JsString) : Bool :=
  decide (s.codePoints ≤ t.codePoints)

/-! ### What the replacement keeps -/

theorem toWellFormed_singleton (u : CodeUnit) :
    toWellFormed [u] = if isSurrogate u then [0xFFFD] else [u] :=
  rfl

theorem toWellFormed_cons_cons (u v : CodeUnit) (rest : JsString) :
    toWellFormed (u :: v :: rest) =
      if isHighSurrogate u && isLowSurrogate v then u :: v :: toWellFormed rest
      else if isSurrogate u then 0xFFFD :: toWellFormed (v :: rest)
      else u :: toWellFormed (v :: rest) :=
  rfl

/-- `v` stands where `u` stood: the same unit, or U+FFFD for a surrogate. -/
def Replaces (u v : CodeUnit) : Prop :=
  v = u ∨ isSurrogate u = true ∧ v = 0xFFFD

theorem toWellFormed_replaces (s : JsString) : List.Forall₂ Replaces s s.toWellFormed := by
  induction s using toWellFormed.induct with
  | case1 => exact List.Forall₂.nil
  | case2 u h =>
      rw [toWellFormed_singleton, if_pos h]
      exact .cons (Or.inr ⟨h, rfl⟩) .nil
  | case3 u h =>
      rw [toWellFormed_singleton, if_neg h]
      exact .cons (Or.inl rfl) .nil
  | case4 u v rest h ih =>
      rw [toWellFormed_cons_cons, if_pos h]
      exact .cons (Or.inl rfl) (.cons (Or.inl rfl) ih)
  | case5 u v rest h hu ih =>
      rw [toWellFormed_cons_cons, if_neg h, if_pos hu]
      exact .cons (Or.inr ⟨hu, rfl⟩) ih
  | case6 u v rest h hu ih =>
      rw [toWellFormed_cons_cons, if_neg h, if_neg hu]
      exact .cons (Or.inl rfl) ih

@[simp] theorem length_toWellFormed (s : JsString) : s.toWellFormed.length = s.length :=
  (toWellFormed_replaces s).length_eq.symm

/-- A property of units that treats surrogates like U+FFFD is kept unit by unit. -/
theorem map_toWellFormed {α : Type*} {f : CodeUnit → α}
    (hf : ∀ u, isSurrogate u = true → f u = f 0xFFFD) (s : JsString) :
    s.toWellFormed.map f = s.map f := by
  have h := toWellFormed_replaces s
  generalize s.toWellFormed = t at h
  induction h with
  | nil => rfl
  | cons hab _ ih =>
      rw [List.map_cons, List.map_cons, ih]
      rcases hab with rfl | ⟨hu, rfl⟩
      · rfl
      · rw [hf _ hu]

/-- A unit that is no surrogate stays, whatever follows it. -/
theorem toWellFormed_cons {u : CodeUnit} (h : isSurrogate u = false) (s : JsString) :
    toWellFormed (u :: s) = u :: s.toWellFormed := by
  cases s with
  | nil =>
      rw [toWellFormed_singleton, if_neg (Bool.eq_false_iff.mp h)]
      rfl
  | cons v rest =>
      have hhigh : isHighSurrogate u = false := by
        simp only [isSurrogate, Bool.or_eq_false_iff] at h
        exact h.1
      simp [toWellFormed_cons_cons, h, hhigh]

/-- Without surrogates there is nothing to replace. -/
theorem toWellFormed_eq_self {s : JsString} (h : ∀ u ∈ s, isSurrogate u = false) :
    s.toWellFormed = s := by
  induction s with
  | nil => rfl
  | cons u rest ih =>
      rw [toWellFormed_cons (h u List.mem_cons_self),
        ih fun v hv => h v (List.mem_cons_of_mem _ hv)]

@[simp] theorem toWellFormed_toWellFormed (s : JsString) :
    s.toWellFormed.toWellFormed = s.toWellFormed := by
  induction s using toWellFormed.induct with
  | case1 => rfl
  | case2 u h => simp [toWellFormed_singleton, h, show isSurrogate 0xFFFD = false from rfl]
  | case3 u h => simp [toWellFormed_singleton, h]
  | case4 u v rest h ih => simp [toWellFormed_cons_cons, h, ih]
  | case5 u v rest h hu ih =>
      rw [toWellFormed_cons_cons, if_neg h, if_pos hu, toWellFormed_cons rfl, ih]
  | case6 u v rest h hu ih =>
      rw [toWellFormed_cons_cons, if_neg h, if_neg hu, toWellFormed_cons (by simpa using hu), ih]

/-! ### Trimmed strings -/

theorem dropWhile_eq_self_iff {α : Type*} {p : α → Bool} {l : List α} :
    l.dropWhile p = l ↔ (l.map p).head? ≠ some true := by
  cases l with
  | nil => simp
  | cons a rest =>
      by_cases h : p a = true
      · have : (rest.dropWhile p).length ≤ rest.length := (List.dropWhile_sublist p).length_le
        simp only [List.dropWhile_cons, h, if_true, List.map_cons, List.head?_cons, ne_eq,
          not_true_eq_false, iff_false]
        intro heq
        have := congrArg List.length heq
        simp at this
        omega
      · simp [h]

/-- `s.trim() === s`: the string neither begins nor ends in white space. -/
theorem trim_eq_self_iff {s : JsString} :
    s.trim = s ↔ (s.map isWhiteSpace).head? ≠ some true ∧
      (s.map isWhiteSpace).getLast? ≠ some true := by
  have hlength (l : JsString) : (l.dropWhile isWhiteSpace).length ≤ l.length :=
    (List.dropWhile_sublist _).length_le
  constructor
  · intro h
    have hfront : s.dropWhile isWhiteSpace = s := by
      refine (List.dropWhile_sublist _).eq_of_length (Nat.le_antisymm (hlength s) ?_)
      have := congrArg List.length h
      rw [trim, List.length_reverse] at this
      have := hlength (s.dropWhile isWhiteSpace).reverse
      rw [List.length_reverse] at this
      omega
    refine ⟨dropWhile_eq_self_iff.1 hfront, ?_⟩
    rw [trim, hfront, List.reverse_eq_iff, dropWhile_eq_self_iff, List.map_reverse,
      List.head?_reverse] at h
    exact h
  · rintro ⟨hfront, hback⟩
    rw [trim, dropWhile_eq_self_iff.2 hfront, List.reverse_eq_iff, dropWhile_eq_self_iff,
      List.map_reverse, List.head?_reverse]
    exact hback

/-- Neither a surrogate nor U+FFFD is white space. -/
theorem isWhiteSpace_surrogate (u : CodeUnit) (hu : isSurrogate u = true) :
    isWhiteSpace u = isWhiteSpace 0xFFFD := by
  simp only [isSurrogate, isHighSurrogate, isLowSurrogate, Bool.or_eq_true, Bool.and_eq_true,
    decide_eq_true_eq, UInt16.le_iff_toNat_le] at hu
  simp [isWhiteSpace, UInt16.le_iff_toNat_le, ← UInt16.toNat_inj] at hu ⊢
  omega

theorem trim_toWellFormed (s : JsString) :
    s.toWellFormed.trim = s.toWellFormed ↔ s.trim = s := by
  rw [trim_eq_self_iff, trim_eq_self_iff, map_toWellFormed isWhiteSpace_surrogate]

/-- A string of white space alone is empty when it is trimmed. -/
theorem trim_eq_nil_iff {s : JsString} : s.trim = [] ↔ ∀ u ∈ s, isWhiteSpace u = true := by
  simp only [trim, List.reverse_eq_nil_iff, List.dropWhile_eq_nil_iff, List.mem_reverse]
  constructor
  · intro h u hu
    rw [← List.takeWhile_append_dropWhile (p := isWhiteSpace) (l := s)] at hu
    rcases List.mem_append.mp hu with hfront | hback
    · exact List.mem_takeWhile_imp hfront
    · exact h u hback
  · exact fun h u hu => h u ((List.dropWhile_sublist _).mem hu)

theorem any_isControl_toWellFormed (s : JsString) :
    s.toWellFormed.any isControl = s.any isControl := by
  have hcontrol : ∀ u, isSurrogate u = true → isControl u = isControl 0xFFFD := by
    intro u hu
    simp only [isSurrogate, isHighSurrogate, isLowSurrogate, Bool.or_eq_true, Bool.and_eq_true,
      decide_eq_true_eq, UInt16.le_iff_toNat_le] at hu
    simp [isControl, UInt16.le_iff_toNat_le, ← UInt16.toNat_inj] at hu ⊢
    omega
  have := map_toWellFormed hcontrol s
  have hany (l : JsString) : l.any isControl = (l.map isControl).any id := by simp [List.any_map]
  rw [hany, this, ← hany]

end JsString

end Hepha
