import Mathlib.Data.List.Basic
import Mathlib.Data.List.Infix

/-!
# Scanning for tokens

A text is scanned from the left for tokens, which have a text each; a unit that
begins no token stands for itself.  The texts of the tokens are such that none
begins inside another, so that a scan finds every occurrence of a token
(`inr_mem_scan_iff`).

A token may straddle the edge between two parts of a text: it begins in one and
ends in the other.  Where none does, the scan of the text is that of its parts
(`scan_append`).  Where one does, and each token stands for something longer
than itself, the parts expand to less than the text (`length_expand_append`).
-/

namespace Hepha

/-- Tokens with their texts, and how the token in front of a text is read. -/
structure Tokens (α β : Type*) where
  text : β → List α
  read : List α → Option (β × List α)
  read_eq_some : ∀ {s token rest}, read s = some (token, rest) ↔ s = text token ++ rest
  text_ne_nil : ∀ token, text token ≠ []
  /-- No token begins inside a token. -/
  inner : ∀ {token other x p y z}, x ≠ [] → p ≠ [] → text token = x ++ p →
    p ++ y ≠ text other ++ z

namespace Tokens

variable {α β : Type*} (T : Tokens α β)

theorem length_lt_of_read {s rest : List α} {token : β} (h : T.read s = some (token, rest)) :
    rest.length < s.length := by
  have hpositive := List.length_pos_iff.mpr (T.text_ne_nil token)
  rw [T.read_eq_some.1 h, List.length_append]
  omega

/-- The units and the tokens of a text, from the left. -/
def scan (s : List α) : List (α ⊕ β) :=
  match _h : T.read s with
  | some (token, rest) => .inr token :: scan rest
  | none =>
      match s with
      | [] => []
      | u :: rest => .inl u :: scan rest
termination_by s.length
decreasing_by
  · exact T.length_lt_of_read _h
  · exact Nat.lt_succ_self _

/-- The text of what was scanned. -/
def render (cells : List (α ⊕ β)) : List α :=
  cells.flatMap (Sum.elim (fun u => [u]) T.text)

/-- What was scanned, with a value in the place of each token. -/
def expand (value : β → List α) (cells : List (α ⊕ β)) : List α :=
  cells.flatMap (Sum.elim (fun u => [u]) value)

/-- A token begins in the left part and ends in the right part. -/
def Straddles (left right : List α) : Prop :=
  ∃ x p s y token, left = x ++ p ∧ right = s ++ y ∧ p ≠ [] ∧ s ≠ [] ∧ T.text token = p ++ s

section Scan

variable {T} {a b s rest : List α} {token : β}

theorem read_text_append : T.read (T.text token ++ rest) = some (token, rest) :=
  T.read_eq_some.2 rfl

theorem scan_text_append : T.scan (T.text token ++ rest) = .inr token :: T.scan rest := by
  rw [scan]
  split
  · rename_i other tail heq
    obtain ⟨rfl, rfl⟩ := Prod.mk.inj (Option.some.inj (heq.symm.trans read_text_append))
    rfl
  · rename_i heq
    exact absurd (heq.symm.trans read_text_append) (by simp)

theorem scan_nil : T.scan [] = [] := by
  rw [scan]
  split
  · rename_i token tail heq
    have hnil := T.read_eq_some.1 heq
    exact absurd (List.append_eq_nil_iff.mp hnil.symm).1 (T.text_ne_nil token)
  · rfl

theorem scan_cons {u : α} (h : T.read (u :: s) = none) :
    T.scan (u :: s) = .inl u :: T.scan s := by
  rw [scan]
  split
  · rename_i heq
    exact absurd (heq.symm.trans h) (by simp)
  · rfl

/-- The cases of a scan: a token in front, the end, or one more unit. -/
theorem scan_induction {P : List α → Prop}
    (htoken : ∀ token rest, P rest → P (T.text token ++ rest))
    (hnil : P []) (hcons : ∀ u rest, T.read (u :: rest) = none → P rest → P (u :: rest))
    (s : List α) : P s := by
  induction hlength : s.length using Nat.strong_induction_on generalizing s with
  | _ n ih =>
      cases hread : T.read s with
      | some found =>
          obtain ⟨token, rest⟩ := found
          have hshorter := T.length_lt_of_read hread
          obtain rfl := T.read_eq_some.1 hread
          exact htoken token rest (ih rest.length (hlength ▸ hshorter) rest rfl)
      | none =>
          cases s with
          | nil => exact hnil
          | cons u rest =>
              exact hcons u rest hread (ih rest.length (hlength ▸ Nat.lt_succ_self _) rest rfl)

/-- **What is scanned is the text.** -/
theorem render_scan (s : List α) : T.render (T.scan s) = s := by
  induction s using scan_induction (T := T) with
  | htoken token rest ih =>
      rw [scan_text_append]
      exact congrArg (T.text token ++ ·) ih
  | hnil => rw [scan_nil]; rfl
  | hcons u rest hread ih =>
      rw [scan_cons hread]
      exact congrArg (u :: ·) ih

/-! ## Two parts of a text -/

theorem Straddles.of_append_left (h : T.Straddles b s) : T.Straddles (a ++ b) s := by
  obtain ⟨x, p, q, y, token, rfl, rfl, hp, hq, htext⟩ := h
  exact ⟨a ++ x, p, q, y, token, by simp, rfl, hp, hq, htext⟩

/-- A token that crosses an edge begins in one of two parts before it. -/
theorem Straddles.append_left (h : T.Straddles (a ++ b) s) :
    T.Straddles b s ∨ T.Straddles a (b ++ s) := by
  obtain ⟨x, p, q, y, token, hleft, rfl, hp, hq, htext⟩ := h
  rcases List.append_eq_append_iff.mp hleft with ⟨c, rfl, rfl⟩ | ⟨c, rfl, rfl⟩
  · exact .inl ⟨c, p, q, y, token, rfl, rfl, hp, hq, htext⟩
  · by_cases hc : c = []
    · subst hc
      exact .inl ⟨[], b, q, y, token, rfl, rfl, by simpa using hp, hq, by simpa using htext⟩
    · exact .inr ⟨x, c, b ++ q, y, token, rfl, by simp, hc, by simp [hq], by simpa using htext⟩

/-- A token that begins a text and not its first part ends in the second part. -/
theorem read_append_some (ha : T.read a = none) (h : T.read (a ++ b) = some (token, rest)) :
    ∃ c, c ≠ [] ∧ T.text token = a ++ c ∧ b = c ++ rest := by
  rcases List.append_eq_append_iff.mp (T.read_eq_some.1 h) with ⟨c, htext, rfl⟩ | ⟨c, hleft, rfl⟩
  · refine ⟨c, ?_, htext, rfl⟩
    rintro rfl
    rw [List.append_nil] at htext
    have hself := T.read_eq_some.2 (List.append_nil (T.text token)).symm
    rw [htext, ha] at hself
    cases hself
  · rw [T.read_eq_some.2 hleft] at ha
    cases ha

/-- **Parts that no token straddles are scanned on their own.** -/
theorem scan_append (h : ¬T.Straddles a b) : T.scan (a ++ b) = T.scan a ++ T.scan b := by
  induction a using scan_induction (T := T) with
  | htoken token rest ih =>
      rw [List.append_assoc, scan_text_append, scan_text_append,
        ih fun hstraddles => h hstraddles.of_append_left]
      rfl
  | hnil => rw [scan_nil]; rfl
  | hcons u rest hread ih =>
      have hnone : T.read (u :: (rest ++ b)) = none := by
        by_contra hsome
        obtain ⟨⟨token, tail⟩, htoken⟩ := Option.ne_none_iff_exists'.mp hsome
        obtain ⟨c, hc, htext, hb⟩ := read_append_some hread htoken
        exact h ⟨[], u :: rest, c, tail, token, rfl, hb, List.cons_ne_nil _ _, hc, htext⟩
      rw [List.cons_append, scan_cons hnone, scan_cons hread,
        ih fun hstraddles => h (hstraddles.of_append_left (a := [u]))]
      rfl

/-! ## Occurrences of tokens -/

/-- No token straddles the edge before a token. -/
theorem not_straddles_text_append : ¬T.Straddles a (T.text token ++ rest) := by
  rintro ⟨x, p, q, y, other, rfl, heq, hp, hq, htext⟩
  exact T.inner hp hq htext heq.symm

/-- No token straddles the edge after a token. -/
theorem not_straddles_text : ¬T.Straddles (T.text token) rest := by
  rintro ⟨x, p, q, y, other, hleft, rfl, hp, hq, htext⟩
  by_cases hx : x = []
  · subst hx
    rw [List.nil_append] at hleft
    have hself : T.read (T.text other) = some (other, []) :=
      T.read_eq_some.2 (List.append_nil _).symm
    have hlonger : T.read (T.text other) = some (token, q) :=
      T.read_eq_some.2 (by rw [htext, hleft])
    have hnil := (Prod.mk.inj (Option.some.inj (hself.symm.trans hlonger))).2
    exact hq hnil.symm
  · exact T.inner hx hp hleft (htext.symm.trans (List.append_nil _).symm)

theorem scan_append_text :
    T.scan (a ++ (T.text token ++ rest)) = T.scan a ++ .inr token :: T.scan rest := by
  rw [scan_append not_straddles_text_append, scan_text_append]

/-- **A scan finds the tokens that occur.** -/
theorem inr_mem_scan_iff : .inr token ∈ T.scan s ↔ T.text token <:+: s := by
  constructor
  · intro h
    obtain ⟨before, after, hscan⟩ := List.append_of_mem h
    refine ⟨T.render before, T.render after, ?_⟩
    calc T.render before ++ T.text token ++ T.render after
      _ = T.render (before ++ .inr token :: after) := by simp [render]
      _ = s := by rw [← hscan, render_scan]
  · rintro ⟨before, after, rfl⟩
    rw [List.append_assoc, scan_append_text]
    simp

/-- A text in which no token occurs. -/
theorem scan_eq_map_inl (h : ∀ token, ¬T.text token <:+: s) : T.scan s = s.map .inl := by
  induction s using scan_induction (T := T) with
  | htoken token rest _ => exact absurd (List.prefix_append _ _).isInfix (h token)
  | hnil => exact scan_nil
  | hcons u rest hread ih =>
      rw [scan_cons hread,
        ih fun token hoccurs => h token (hoccurs.trans (List.suffix_cons u _).isInfix)]
      rfl

/-- The end of a token that has lost its beginning is scanned unit by unit. -/
theorem scan_inner {x : List α} (hx : x ≠ []) (htext : T.text token = x ++ s) :
    T.scan (s ++ rest) = s.map .inl ++ T.scan rest := by
  induction s generalizing x with
  | nil => rfl
  | cons u tail ih =>
      have hnone : T.read (u :: (tail ++ rest)) = none := by
        by_contra hsome
        obtain ⟨⟨other, z⟩, hother⟩ := Option.ne_none_iff_exists'.mp hsome
        exact T.inner hx (List.cons_ne_nil _ _) htext (T.read_eq_some.1 hother)
      rw [List.cons_append, scan_cons hnone, ih (by simp) (htext.trans (List.append_cons x u tail))]
      rfl

/-! ## Lengths -/

variable {value : β → List α}

theorem expand_append (left right : List (α ⊕ β)) :
    expand value (left ++ right) = expand value left ++ expand value right :=
  List.flatMap_append

theorem expand_congr {other : β → List α} {cells : List (α ⊕ β)}
    (h : ∀ token, .inr token ∈ cells → value token = other token) :
    expand value cells = expand other cells := by
  refine List.flatMap_congr fun cell hcell => ?_
  cases cell with
  | inl u => rfl
  | inr token => exact h token hcell

theorem expand_map_inl : expand value (s.map .inl) = s := by
  simp [expand, List.flatMap_map]

/-- **Parts of a text expand to no more than the text, and to less if a token
straddles them.**  Each token that occurs stands for something longer. -/
theorem length_expand_append
    (hgain : ∀ token, T.text token <:+: a ++ b → (T.text token).length < (value token).length) :
    (expand value (T.scan a)).length + (expand value (T.scan b)).length ≤
        (expand value (T.scan (a ++ b))).length ∧
      (T.Straddles a b →
        (expand value (T.scan a)).length + (expand value (T.scan b)).length <
          (expand value (T.scan (a ++ b))).length) := by
  induction a using scan_induction (T := T) with
  | htoken token rest ih =>
      obtain ⟨hle, hlt⟩ := ih fun other hoccurs => hgain other
        (hoccurs.trans ⟨T.text token, [], by simp⟩)
      have hstraddles : T.Straddles (T.text token ++ rest) b → T.Straddles rest b :=
        fun h => h.append_left.resolve_right not_straddles_text
      rw [List.append_assoc, scan_text_append, scan_text_append]
      simp only [expand, List.flatMap_cons, Sum.elim_inr, List.length_append] at hle hlt ⊢
      exact ⟨by omega, fun h => by have := hlt (hstraddles h); omega⟩
  | hnil =>
      rw [scan_nil]
      refine ⟨by simp [expand], ?_⟩
      rintro ⟨x, p, q, y, token, hnil, -, hp, -, -⟩
      exact absurd (List.append_eq_nil_iff.mp hnil.symm).2 hp
  | hcons u rest hread ih =>
      cases hboth : T.read (u :: rest ++ b) with
      | none =>
          obtain ⟨hle, hlt⟩ := ih fun other hoccurs => hgain other
            (hoccurs.trans (List.suffix_cons u (rest ++ b)).isInfix)
          have hstraddles : T.Straddles (u :: rest) b → T.Straddles rest b := by
            intro h
            rcases Straddles.append_left (a := [u]) h with
              h | ⟨x, p, q, y, token, hx, hy, hp, -, ht⟩
            · exact h
            · obtain ⟨rfl, rfl⟩ : x = [] ∧ p = [u] := by
                rcases List.singleton_eq_append_iff.mp hx with h | ⟨-, h⟩
                · exact h
                · exact absurd h hp
              have htoken : T.read ([u] ++ (rest ++ b)) = some (token, y) :=
                T.read_eq_some.2 (by rw [hy, ht, List.append_assoc])
              exact absurd (hboth.symm.trans htoken) (by simp)
          rw [List.cons_append] at hboth ⊢
          rw [scan_cons hboth, scan_cons hread]
          simp only [expand, List.flatMap_cons, Sum.elim_inl, List.length_append,
            List.length_singleton] at hle hlt ⊢
          exact ⟨by omega, fun h => by have := hlt (hstraddles h); omega⟩
      | some found =>
          obtain ⟨token, tail⟩ := found
          obtain ⟨c, hc, htext, rfl⟩ := read_append_some hread hboth
          have hgained := hgain token
            ⟨[], tail, by rw [htext, List.nil_append, List.append_assoc]⟩
          -- The token begins with the left part, in which there is none, and no
          -- other begins in what is left of it.
          have hleft : T.scan (u :: rest) = (u :: rest).map .inl := by
            rw [scan_cons hread, scan_eq_map_inl]
            · rfl
            · rintro other ⟨x, z, rfl⟩
              have hsplit : T.text token = u :: x ++ (T.text other ++ z ++ c) := by
                rw [htext]
                simp
              have hinner : T.text other ++ z ++ c ++ [] ≠ T.text other ++ (z ++ c) :=
                T.inner (List.cons_ne_nil _ _) (by simp [T.text_ne_nil]) hsplit
              exact hinner (by simp)
          have hright : T.scan (c ++ tail) = c.map .inl ++ T.scan tail :=
            scan_inner (List.cons_ne_nil u rest) htext
          have hlength := congrArg List.length htext
          rw [← List.append_assoc, ← htext, scan_text_append, hleft, hright, expand_append,
            expand_map_inl, expand_map_inl]
          simp only [expand, List.flatMap_cons, Sum.elim_inr, List.length_append] at hlength ⊢
          exact ⟨by omega, fun _ => by omega⟩

end Scan

end Tokens

end Hepha
