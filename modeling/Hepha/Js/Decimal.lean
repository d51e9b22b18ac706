import Hepha.Js.Pattern
import Mathlib.Data.Nat.Digits.Lemmas

/-!
# Natural numbers as texts

The decimal text of a natural number, as a template string writes it, and the
number a text of digits stands for.
-/

namespace Hepha

open Pattern

/-- The text of a natural number. -/
def decimalText (n : ℕ) : JsString :=
  if n = 0 then [0x30] else (Nat.digits 10 n).reverse.map fun d => 0x30 + UInt16.ofNat d

/-- `Number(digits)`. -/
def decimal (digits : JsString) : ℕ :=
  Nat.ofDigits 10 (digits.reverse.map fun u => u.toNat - 0x30)

theorem isDigit_add : ∀ d < 10, isDigit (0x30 + UInt16.ofNat d) = true := by
  decide

theorem toNat_add : ∀ d < 10, (0x30 + UInt16.ofNat d).toNat - 0x30 = d := by
  decide

theorem decimal_decimalText (n : ℕ) : decimal (decimalText n) = n := by
  unfold decimal decimalText
  split
  · rename_i hzero
    subst hzero
    decide
  · rw [← List.map_reverse, List.reverse_reverse, List.map_map]
    have hdigits : (Nat.digits 10 n).map
        ((fun u : CodeUnit => u.toNat - 0x30) ∘ fun d => 0x30 + UInt16.ofNat d) =
        Nat.digits 10 n := by
      refine (List.map_congr_left fun d hd => ?_).trans (List.map_id _)
      exact toNat_add d (Nat.digits_lt_base (by decide) hd)
    rw [hdigits, Nat.ofDigits_digits]

theorem decimalText_injective : Function.Injective decimalText := by
  intro m n h
  rw [← decimal_decimalText m, h, decimal_decimalText]

theorem decimalText_ne_nil (n : ℕ) : decimalText n ≠ [] := by
  unfold decimalText
  split
  · decide
  · rename_i hzero
    simpa [Nat.digits_eq_nil_iff_eq_zero] using hzero

theorem isDigit_of_mem_decimalText {n : ℕ} {u : CodeUnit} (hu : u ∈ decimalText n) :
    isDigit u = true := by
  unfold decimalText at hu
  split at hu
  · rw [List.mem_singleton] at hu
    subst hu
    decide
  · obtain ⟨d, hd, rfl⟩ := List.mem_map.mp hu
    exact isDigit_add d (Nat.digits_lt_base (by decide) (List.mem_reverse.mp hd))

/-- A number below a power of ten has at most that many digits. -/
theorem length_decimalText_le {n k : ℕ} (hk : 0 < k) (h : n < 10 ^ k) :
    (decimalText n).length ≤ k := by
  unfold decimalText
  split
  · exact hk
  · rw [List.length_map, List.length_reverse]
    exact (Nat.digits_length_le_iff (by decide) n).mpr h

end Hepha
