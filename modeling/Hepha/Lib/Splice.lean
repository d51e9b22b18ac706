import Mathlib.Data.List.Sort
import Mathlib.Data.List.TakeDrop

/-!
# Replacing ranges of a list

Some ranges of a list are replaced, each by a list of its own.  Replacing the last range
first leaves the places of the others as they are, so that all of them can be given by
their places in the old list (`spliceBack_eq`).  Ranges that do not overlap have one order
(`inOrder_eq_of_perm`), so that it does not matter in which they are given.
-/

namespace Hepha

variable {α : Type}

/-- A range and what it is replaced by. -/
structure Splice (α : Type) where
  start : ℕ
  stop : ℕ
  text : List α

/-- The ranges stand in order, from a place on. -/
def Apart : ℕ → List (Splice α) → Prop
  | _, [] => True
  | place, range :: rest => place ≤ range.start ∧ range.start ≤ range.stop ∧ Apart range.stop rest

/-- The list from a place on, with its ranges replaced. -/
def spliceFrom (source : List α) : ℕ → List (Splice α) → List α
  | place, [] => source.drop place
  | place, range :: rest =>
      (source.drop place).take (range.start - place) ++
        (range.text ++ spliceFrom source range.stop rest)

/-- One range is replaced, in a list where the places before it are those of the old one. -/
def splice (text : List α) (range : Splice α) : List α :=
  text.take range.start ++ range.text ++ text.drop range.stop

/-- The ranges are replaced from the last one to the first. -/
def spliceBack (source : List α) (ranges : List (Splice α)) : List α :=
  ranges.reverse.foldl splice source

variable {source : List α} {place : ℕ} {ranges : List (Splice α)}

theorem spliceBack_cons (range : Splice α) :
    spliceBack source (range :: ranges) = splice (spliceBack source ranges) range := by
  rw [spliceBack, List.reverse_cons, List.foldl_append]
  rfl

/-- What stands between two places stands behind the first one. -/
theorem take_append_drop_take {start : ℕ} (h : place ≤ start) :
    source.take place ++ (source.drop place).take (start - place) = source.take start := by
  obtain ⟨k, rfl⟩ := Nat.exists_eq_add_of_le h
  rw [Nat.add_sub_cancel_left, List.take_add]

/-- **Replacing from the end** gives the list with its ranges replaced. -/
theorem spliceBack_eq (h : Apart place ranges) (hplace : place ≤ source.length)
    (hbound : ∀ range ∈ ranges, range.stop ≤ source.length) :
    spliceBack source ranges = source.take place ++ spliceFrom source place ranges := by
  induction ranges generalizing place with
  | nil => exact (List.take_append_drop place source).symm
  | cons range rest ih =>
      obtain ⟨hle, hstop, hrest⟩ := h
      have hlength := hbound range List.mem_cons_self
      have hback :=
          ih hrest hlength fun other hother => hbound other (List.mem_cons_of_mem _ hother)
      have htake : (source.take range.stop).length = range.stop := List.length_take_of_le hlength
      have hbefore :
          (source.take range.stop ++ spliceFrom source range.stop rest).take range.start =
          source.take range.start := by
        rw [List.take_append_of_le_length (by omega), List.take_take, Nat.min_eq_left hstop]
      have hbehind : (source.take range.stop ++ spliceFrom source range.stop rest).drop range.stop =
          spliceFrom source range.stop rest := by
        rw [List.drop_append_of_le_length (by omega), List.drop_of_length_le (by omega),
          List.nil_append]
      rw [spliceBack_cons, hback, splice, hbefore, hbehind, spliceFrom, ← take_append_drop_take hle]
      simp only [List.append_assoc]

/-- Some parts of a list are replaced, in their order, and nothing else. -/
inductive Replaced : List (List α × List α) → List α → List α → Prop
  | nil (text : List α) : Replaced [] text text
  | cons (gap old new : List α) {parts : List (List α × List α)} {text result : List α}
      (h : Replaced parts text result) :
      Replaced ((old, new) :: parts) (gap ++ (old ++ text)) (gap ++ (new ++ result))

/-- The text of a range. -/
def Splice.old (source : List α) (range : Splice α) : List α :=
  (source.drop range.start).take (range.stop - range.start)

theorem replaced_spliceFrom (h : Apart place ranges) :
    Replaced (ranges.map fun range => (range.old source, range.text)) (source.drop place)
      (spliceFrom source place ranges) := by
  induction ranges generalizing place with
  | nil => exact .nil _
  | cons range rest ih =>
      obtain ⟨hle, hstop, hrest⟩ := h
      have hsource : source.drop place = (source.drop place).take (range.start - place) ++
          (range.old source ++ source.drop range.stop) := by
        obtain ⟨k, hk⟩ := Nat.exists_eq_add_of_le hle
        obtain ⟨m, hm⟩ := Nat.exists_eq_add_of_le hstop
        have hrange : range.old source ++ source.drop range.stop = source.drop range.start := by
          rw [Splice.old, hm, Nat.add_sub_cancel_left, ← List.drop_drop, List.take_append_drop]
        rw [hrange, hk, Nat.add_sub_cancel_left, ← List.drop_drop, List.take_append_drop]
      have hcons := Replaced.cons ((source.drop place).take (range.start - place))
        (range.old source) range.text (ih hrest)
      rwa [← hsource] at hcons

/-! ## The order of the ranges -/

/-- Two ranges do not overlap. -/
def Beside (a b : Splice α) : Prop :=
  a.stop ≤ b.start ∨ b.stop ≤ a.start

/-- The ranges by their starts. -/
def inOrder (ranges : List (Splice α)) : List (Splice α) :=
  ranges.insertionSort fun a b => a.start ≤ b.start

theorem inOrder_perm (ranges : List (Splice α)) : (inOrder ranges).Perm ranges :=
  List.perm_insertionSort _ _

theorem inOrder_pairwise (ranges : List (Splice α)) :
    (inOrder ranges).Pairwise fun a b => a.start ≤ b.start :=
  haveI : Std.Total fun a b : Splice α => a.start ≤ b.start := ⟨fun _ _ => le_total _ _⟩
  haveI : IsTrans (Splice α) fun a b => a.start ≤ b.start := ⟨fun _ _ _ => le_trans⟩
  List.pairwise_insertionSort _ _

theorem beside_comm {a b : Splice α} (h : Beside a b) : Beside b a :=
  Or.symm h

theorem apart_iff (hproper : ∀ range ∈ ranges, range.start ≤ range.stop) :
    Apart place ranges ↔
      (∀ range ∈ ranges, place ≤ range.start) ∧ ranges.Pairwise fun a b => a.stop ≤ b.start := by
  induction ranges generalizing place with
  | nil => simp [Apart]
  | cons range rest ih =>
      have hrange := hproper range List.mem_cons_self
      rw [Apart, ih fun other hother => hproper other (List.mem_cons_of_mem _ hother),
        List.pairwise_cons, List.forall_mem_cons]
      constructor
      · rintro ⟨hle, -, hrest, hpairwise⟩
        exact ⟨⟨hle, fun other hother => hle.trans (hrange.trans (hrest other hother))⟩,
          hrest, hpairwise⟩
      · rintro ⟨⟨hle, -⟩, hrest, hpairwise⟩
        exact ⟨hle, hrange, hrest, hpairwise⟩

/-- Sorted ranges that hold something are apart when no two of them overlap. -/
theorem apart_inOrder_iff (hproper : ∀ range ∈ ranges, range.start < range.stop) :
    Apart 0 (inOrder ranges) ↔ ranges.Pairwise Beside := by
  have hsorted : ∀ range ∈ inOrder ranges, range.start < range.stop :=
    fun range hrange => hproper range ((inOrder_perm ranges).mem_iff.mp hrange)
  rw [apart_iff fun range hrange => (hsorted range hrange).le,
    ← (inOrder_perm ranges).pairwise_iff beside_comm]
  constructor
  · rintro ⟨-, hpairwise⟩
    exact hpairwise.imp Or.inl
  · intro hbeside
    refine ⟨fun _ _ => Nat.zero_le _, ?_⟩
    refine (hbeside.and (inOrder_pairwise ranges)).imp_of_mem ?_
    intro a b _ hb ⟨h, hle⟩
    have := hsorted b hb
    rcases h with h | h <;> omega

/-- **The order of ranges that do not overlap** is the same however they are given. -/
theorem inOrder_eq_of_perm {ranges' : List (Splice α)} (hperm : ranges.Perm ranges')
    (hproper : ∀ range ∈ ranges, range.start < range.stop) (hbeside : ranges.Pairwise Beside) :
    inOrder ranges = inOrder ranges' := by
  have hproper' : ∀ range ∈ ranges', range.start < range.stop :=
    fun range hrange => hproper range (hperm.mem_iff.mpr hrange)
  have hstrict : ∀ {list : List (Splice α)}, (∀ range ∈ list, range.start < range.stop) →
      list.Pairwise Beside → (inOrder list).Pairwise fun a b => a.start < b.start := by
    intro list hlist hpairwise
    have hapart := ((apart_iff fun range hrange =>
      (hlist range ((inOrder_perm list).mem_iff.mp hrange)).le).mp
        ((apart_inOrder_iff hlist).mpr hpairwise)).2
    refine hapart.imp_of_mem fun ha _ h => ?_
    exact (hlist _ ((inOrder_perm list).mem_iff.mp ha)).trans_le h
  refine List.Perm.eq_of_pairwise (fun a b _ _ hab hba => absurd hab (lt_asymm hba))
    (hstrict hproper hbeside) (hstrict hproper' ((hperm.pairwise_iff beside_comm).mp hbeside)) ?_
  exact (inOrder_perm ranges).trans (hperm.trans (inOrder_perm ranges').symm)

end Hepha
