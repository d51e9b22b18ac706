import Hepha.Verification.LiteralShell

/-!
# Line continuations in commands

For a shell a line continuation is not there, wherever it stands.  The loop of
`literalCommandTokens` reads the operators and the names of assignments from the
text as it is, so a continuation inside one of them splits it
(`Cursor.Split`).  This module proves that a command has the tokens of the text
without its continuations exactly if none of them splits a token
(`literalCommandTokens_removeContinuations_iff`).

## Strategy

A word has the same value without its continuations (`literalWordFrom_spec`), so
a token that is not split is also what the loop pushes for the other text, and a
split token is not (`token_joined`).  The loop over the one text is then followed
by the loop over the other (`tokensFrom_joined_iff`).
-/

namespace Hepha.Verification

open Pattern

variable {quote : Quote} {present : Bool} {c next : CodeUnit}
  {value word source rest tail after : JsString}

/-! ## Removing continuations -/

theorem removeContinuations_cons (h : c ≠ 0x5C ∨ quote = .single) :
    removeContinuations quote (c :: rest) = c :: removeContinuations (quote.after c) rest := by
  have hnot : ¬ (c = 0x5C ∧ quote ≠ .single) := by
    rintro ⟨hbackslash, hquote⟩
    exact h.elim (absurd hbackslash) hquote
  rw [removeContinuations.eq_def]
  exact if_neg hnot

theorem removeContinuations_escape (hquote : quote ≠ .single) (hnext : next ≠ 0x0A) :
    removeContinuations quote (0x5C :: next :: tail) =
      0x5C :: next :: removeContinuations quote tail := by
  rw [removeContinuations, if_pos ⟨rfl, hquote⟩, if_neg hnext]

@[simp] theorem removeContinuations_continuation (hquote : quote ≠ .single) :
    removeContinuations quote (0x5C :: 0x0A :: tail) = removeContinuations quote tail := by
  rw [removeContinuations, if_pos ⟨rfl, hquote⟩, if_pos rfl]

@[simp] theorem removeContinuations_nil : removeContinuations quote [] = [] := by
  cases quote <;> rfl

/-- A unit that is not a quote nor a backslash. -/
def isPlain (c : CodeUnit) : Bool :=
  c != 0x5C && c != 0x27 && c != 0x22

theorem removeContinuations_plain (h : ∀ c ∈ word, isPlain c = true) :
    removeContinuations .bare (word ++ rest) = word ++ removeContinuations .bare rest := by
  induction word with
  | nil => rfl
  | cons c tail ih =>
      obtain ⟨hc, htail⟩ := List.forall_mem_cons.mp h
      simp only [isPlain, Bool.and_eq_true, bne_iff_ne] at hc
      have hquote : Quote.bare.after c = .bare := by simp [Quote.after, hc.1.2, hc.2]
      rw [List.cons_append, removeContinuations_cons (.inl hc.1.1), hquote, ih htail,
        List.cons_append]

/-- In double quotes a backslash before most units stands for itself. -/
theorem removeContinuations_double (h : rest.head?.any (anyOf "\n\"$`\\") = false) :
    removeContinuations .double (0x5C :: rest) = 0x5C :: removeContinuations .double rest ∧
      (removeContinuations .double rest).head? = rest.head? := by
  cases rest with
  | nil => exact ⟨rfl, rfl⟩
  | cons next tail =>
      have hnext : anyOf "\n\"$`\\" next = false := h
      have hnot : ∀ c ∈ js "\n\"$`\\", next ≠ c := by
        rintro c hc rfl
        rw [anyOf, List.contains_eq_mem, decide_eq_true hc] at hnext
        cases hnext
      have hline : next ≠ 0x0A := hnot _ (by decide)
      have hquote : next ≠ 0x22 := hnot _ (by decide)
      have hbackslash : next ≠ 0x5C := hnot _ (by decide)
      have hdouble : Quote.double ≠ .single := by decide
      rw [removeContinuations_escape hdouble hline, removeContinuations_cons (.inl hbackslash),
        Quote.after, if_neg hquote]
      exact ⟨rfl, rfl⟩

/-! ## Words -/

/-- A word is also read from the text without its continuations. -/
def ReadJoined (quote : Quote) (present : Bool) (value source word after : JsString) : Prop :=
  ∃ slice, source = slice ++ after ∧ (present = false → slice ≠ []) ∧
    removeContinuations quote source =
      removeContinuations quote slice ++ removeContinuations .bare after ∧
    literalWordFrom quote present value (removeContinuations quote source) =
      some (word, removeContinuations .bare after)

variable {quote' : Quote} {present' : Bool} {value' : JsString}

/-- A unit that is read by itself. -/
theorem ReadJoined.cons (h : ReadJoined quote' present' value' rest word after)
    (hplain : c ≠ 0x5C ∨ quote = .single) (hquote : quote.after c = quote')
    (hread : ∀ rest, literalWordFrom quote present value (c :: rest) =
      literalWordFrom quote' present' value' rest) :
    ReadJoined quote present value (c :: rest) word after := by
  obtain ⟨slice, rfl, -, hremoved, hword⟩ := h
  refine ⟨c :: slice, rfl, fun _ => List.cons_ne_nil _ _, ?_, ?_⟩
  · rw [removeContinuations_cons hplain, removeContinuations_cons hplain, hquote, hremoved,
      List.cons_append]
  · rw [removeContinuations_cons hplain, hquote, hread, hword]

/-- A unit that is read with the backslash before it. -/
theorem ReadJoined.escape (h : ReadJoined quote present' value' tail word after)
    (hsingle : quote ≠ .single) (hline : next ≠ 0x0A)
    (hread : ∀ tail, literalWordFrom quote present value (0x5C :: next :: tail) =
      literalWordFrom quote present' value' tail) :
    ReadJoined quote present value (0x5C :: next :: tail) word after := by
  obtain ⟨slice, rfl, -, hremoved, hword⟩ := h
  refine ⟨0x5C :: next :: slice, rfl, fun _ => List.cons_ne_nil _ _, ?_, ?_⟩
  · rw [removeContinuations_escape hsingle hline, removeContinuations_escape hsingle hline,
      hremoved, List.cons_append, List.cons_append]
  · rw [removeContinuations_escape hsingle hline, hread, hword]

/-- A continuation in a word. -/
theorem ReadJoined.continuation (h : ReadJoined quote present value tail word after)
    (hsingle : quote ≠ .single) :
    ReadJoined quote present value (0x5C :: 0x0A :: tail) word after := by
  obtain ⟨slice, rfl, -, hremoved, hword⟩ := h
  refine ⟨0x5C :: 0x0A :: slice, rfl, fun _ => List.cons_ne_nil _ _, ?_, ?_⟩
  · rw [removeContinuations_continuation hsingle, removeContinuations_continuation hsingle,
      hremoved]
  · rw [removeContinuations_continuation hsingle, hword]

/-- A backslash in double quotes that escapes nothing. -/
theorem ReadJoined.backslash (h : ReadJoined .double present (value ++ [0x5C]) rest word after)
    (hrest : rest.head?.any (anyOf "\n\"$`\\") = false) :
    ReadJoined .double present value (0x5C :: rest) word after := by
  obtain ⟨slice, rfl, -, hremoved, hword⟩ := h
  have hslice : slice.head?.any (anyOf "\n\"$`\\") = false := by
    cases slice with
    | nil => rfl
    | cons next tail => exact hrest
  refine ⟨0x5C :: slice, rfl, fun _ => List.cons_ne_nil _ _, ?_, ?_⟩
  · rw [(removeContinuations_double hrest).1, (removeContinuations_double hslice).1, hremoved,
      List.cons_append]
  · obtain ⟨hremove, hhead⟩ := removeContinuations_double hrest
    rw [← hhead] at hrest
    rw [hremove, ← hword, literalWordFrom.eq_def]
    simp [hrest, isLineEnd]

theorem eq_bare (hsingle : quote ≠ .single) (hdouble : quote ≠ .double) : quote = .bare := by
  cases quote with
  | bare => rfl
  | single => exact absurd rfl hsingle
  | double => exact absurd rfl hdouble

theorem after_bare (h : ¬ (decide (c = 0x27) || decide (c = 0x22)) = true) :
    Quote.bare.after c = .bare := by
  simp only [Bool.or_eq_true, decide_eq_true_eq, not_or] at h
  rw [Quote.after, if_neg h.1, if_neg h.2]

theorem literalWordFrom_joined
    (h : literalWordFrom quote present value source = some (word, after)) :
    ReadJoined quote present value source word after := by
  have hbackslash : isLineEnd 0x5C = false := by decide
  fun_induction literalWordFrom quote present value source with
  | case1 | case3 | case7 | case10 | case13 | case17 | case18 => cases h
  -- the text ends with the word
  | case2 quote present value hnone =>
      cases h
      rw [not_or, not_not, Bool.not_eq_false] at hnone
      obtain ⟨rfl, rfl⟩ := hnone
      exact ⟨[], rfl, nofun, rfl, rfl⟩
  | case4 present value rest hline ih =>
      refine (ih h).cons (.inr rfl) rfl fun rest => ?_
      simp [literalWordFrom.eq_def _ _ _ (0x27 :: rest), hline]
  | case5 present value c rest hline hquote ih =>
      refine (ih h).cons (.inr rfl) (if_neg hquote) fun rest => ?_
      simp [literalWordFrom.eq_def _ _ _ (c :: rest), hline, hquote]
  | case6 quote present value c rest hline hsingle hescape ih =>
      simp only [Bool.and_eq_true, decide_eq_true_eq, Bool.not_eq_true'] at hescape
      obtain ⟨⟨rfl, rfl⟩, hrest⟩ := hescape
      exact (ih h).backslash hrest
  | case8 quote present value hsingle tail _ _ ih => exact (ih h).continuation hsingle
  | case9 present value next tail hnext hsingle _ hescape ih =>
      refine (ih h).escape hsingle hnext fun tail => ?_
      have hspecial : anyOf "\n\"$`\\" next = true := by simpa using hescape
      simp [literalWordFrom.eq_def _ _ _ (0x5C :: next :: tail), hnext, hspecial, hbackslash]
  | case11 quote present value hsingle next tail hnext hdouble hline _ _ ih =>
      obtain rfl : quote = .bare := eq_bare hsingle hdouble
      refine (ih h).escape hsingle hnext fun tail => ?_
      simp [literalWordFrom.eq_def _ _ _ (0x5C :: next :: tail), hnext, hline, hbackslash]
  | case12 present value rest _ hline _ _ ih =>
      refine (ih h).cons (.inl (by decide)) rfl fun rest => ?_
      simp [literalWordFrom.eq_def _ _ _ (0x22 :: rest), hline]
  | case14 present value c rest hline hplain hquote hexpansion _ _ ih =>
      refine (ih h).cons (.inl hplain) (if_neg hquote) fun rest => ?_
      simp only [Bool.or_eq_true, decide_eq_true_eq, not_or] at hexpansion
      simp [literalWordFrom.eq_def _ _ _ (c :: rest), hline, hplain, hquote, hexpansion]
  | case15 quote present value c rest hline hsingle _ hplain hdouble hquote ih =>
      refine (ih h).cons (.inl hplain) rfl fun rest => ?_
      simp only [Bool.or_eq_true, decide_eq_true_eq] at hquote
      simp [literalWordFrom.eq_def _ _ _ (c :: rest), hline, hplain, hsingle, hdouble, hquote]
  -- a blank or an operator ends the word and stays
  | case16 quote value c rest hline hsingle _ hplain hdouble hquote hstop =>
      cases h
      obtain rfl : quote = .bare := eq_bare hsingle hdouble
      have hafter := after_bare hquote
      refine ⟨[], rfl, nofun, rfl, ?_⟩
      rw [removeContinuations_cons (.inl hplain), hafter]
      simp only [Bool.or_eq_true, decide_eq_true_eq] at hquote
      simp [literalWordFrom.eq_def _ _ _ (c :: _), hline, hplain, hquote, hstop]
  | case19 quote present value c rest hline hsingle _ hplain hdouble hquote hstop hglob ih =>
      obtain rfl : quote = .bare := eq_bare hsingle hdouble
      refine (ih h).cons (.inl hplain) (after_bare hquote) fun rest => ?_
      simp only [Bool.or_eq_true, decide_eq_true_eq] at hquote
      simp [literalWordFrom.eq_def _ _ _ (c :: rest), hline, hplain, hquote, hstop, hglob]

theorem length_lt_of_literalWordAt (h : literalWordAt source = some (word, after)) :
    after.length < source.length := by
  obtain ⟨slice, rfl, hslice, -⟩ := literalWordFrom_joined h
  rw [List.length_append]
  have hpos := List.length_pos_iff.mpr (hslice rfl)
  omega

/-! ## Operators -/

theorem isPlain_of_isDigit (h : isDigit c = true) : isPlain c = true := by
  simp only [isDigit, Bool.and_eq_true, decide_eq_true_eq, UInt16.le_iff_toNat_le] at h
  simp [isPlain, ← UInt16.toNat_inj] at h ⊢
  omega

theorem isPlain_of_mem {operator : JsString}
    (h : operator ∈ redirections ++ controlOperators) :
    operator ≠ [] ∧ ∀ c ∈ operator, isPlain c = true := by
  have hall : ∀ operator ∈ redirections ++ controlOperators,
      operator ≠ [] ∧ operator.all isPlain = true := by decide
  exact ⟨(hall operator h).1, List.all_eq_true.mp (hall operator h).2⟩

/-- An operator has no quotes and no backslash. -/
theorem operatorAt_eq_some (h : operatorAt source = some value) :
    value ≠ [] ∧ (∀ c ∈ value, isPlain c = true) ∧ ∃ after, source = value ++ after := by
  rw [operatorAt] at h
  split at h
  · rename_i operator hfind
    cases h
    rw [redirectionAt] at hfind
    have hmem := List.mem_of_find?_eq_some hfind
    obtain ⟨hne, hplain⟩ := isPlain_of_mem (List.mem_append_left _ hmem)
    have hprefix := List.find?_some hfind
    rw [Bool.and_eq_true, List.isPrefixOf_iff_prefix] at hprefix
    obtain ⟨⟨after, hafter⟩, -⟩ := hprefix
    refine ⟨fun hnil => hne (List.append_eq_nil_iff.mp hnil).2, ?_, after, ?_⟩
    · intro c hc
      rcases List.mem_append.mp hc with hc | hc
      · -- the digits of a descriptor
        exact isPlain_of_isDigit (List.mem_takeWhile_imp hc)
      · exact hplain c hc
    · rw [List.append_assoc, hafter, List.takeWhile_append_dropWhile]
  · have hmem := List.mem_of_find?_eq_some h
    obtain ⟨hne, hplain⟩ := isPlain_of_mem (List.mem_append_right _ hmem)
    have hprefix := List.find?_some (p := fun operator : JsString => operator.isPrefixOf source) h
    obtain ⟨after, hafter⟩ := List.isPrefixOf_iff_prefix.mp hprefix
    exact ⟨hne, hplain, after, hafter.symm⟩

/-! ## Tokens -/

/-- The loop over the text without the continuations. -/
def Cursor.joined (s : Cursor) : Cursor :=
  { s with rest := removeContinuations .bare s.rest }

/-- A continuation splits the token in front of the loop: without it the pattern of the
operators matches something else there, or a word is an assignment that is none. -/
def Cursor.Split (s : Cursor) : Prop :=
  skipLength s.rest = 0 ∧
    (operatorAt (removeContinuations .bare s.rest) ≠ operatorAt s.rest ∨
      operatorAt s.rest = none ∧ s.commandStart = true ∧ s.redirectTarget = false ∧
        ∃ word after, literalWordAt s.rest = some (word, after) ∧
          isAssignment (removeContinuations .bare (wordSlice s.rest after)) ≠
            isAssignment (wordSlice s.rest after))

variable {s t u : Cursor} {token : LiteralShellToken} {pushed : List LiteralShellToken}

theorem wordSlice_append {slice : JsString} : wordSlice (slice ++ after) after = slice := by
  rw [wordSlice, List.length_append, Nat.add_sub_cancel, List.take_left]

/-- What a pass pushes: an operator or, where there is none, a word. -/
theorem token_eq_some_iff : s.token = some (token, t) ↔
    (∃ value, operatorAt s.rest = some value ∧ value ∉ unsupportedOperators ∧
      ⟨.operator, value, none⟩ = token ∧ s.afterOperator value = t) ∨
    operatorAt s.rest = none ∧ ∃ word after, literalWordAt s.rest = some (word, after) ∧
      word ∉ reservedWords ∧ ⟨.word, word, some (s.assigns (wordSlice s.rest after))⟩ = token ∧
        s.afterWord (s.assigns (wordSlice s.rest after)) after = t := by
  rw [Cursor.token]
  cases operatorAt s.rest with
  | some value => simp
  | none => simp [Option.bind_eq_some_iff]

theorem length_lt_of_token (h : s.token = some (token, t)) : t.rest.length < s.rest.length := by
  rcases token_eq_some_iff.1 h with ⟨value, hoperator, -, -, rfl⟩ |
      ⟨-, word, after, hword, -, -, rfl⟩
  · obtain ⟨hne, -, after, hafter⟩ := operatorAt_eq_some hoperator
    have hpos := List.length_pos_iff.mpr hne
    rw [Cursor.afterOperator, hafter, List.drop_left, List.length_append]
    exact Nat.lt_add_of_pos_left hpos
  · exact length_lt_of_literalWordAt hword

/-- The text that a word is read from, and the word without the continuations. -/
theorem literalWordAt_joined (h : literalWordAt source = some (word, after)) :
    literalWordAt (removeContinuations .bare source) =
        some (word, removeContinuations .bare after) ∧
      wordSlice (removeContinuations .bare source) (removeContinuations .bare after) =
        removeContinuations .bare (wordSlice source after) := by
  obtain ⟨slice, rfl, -, hremoved, hword⟩ := literalWordFrom_joined h
  refine ⟨hword, ?_⟩
  rw [hremoved, wordSlice_append, wordSlice_append]

/-- **A token that no continuation splits** is a token of the text without them. -/
theorem token_joined (hskip : skipLength s.rest = 0) (hsplit : ¬ s.Split)
    (h : s.token = some (token, t)) : s.joined.token = some (token, t.joined) := by
  have hoperator : operatorAt s.joined.rest = operatorAt s.rest := by
    by_contra hne
    exact hsplit ⟨hskip, .inl hne⟩
  rw [token_eq_some_iff, hoperator]
  rcases token_eq_some_iff.1 h with ⟨value, hvalue, hsupported, rfl, rfl⟩ |
      ⟨hnone, word, after, hword, hreserved, rfl, rfl⟩
  · obtain ⟨-, hplain, after, hafter⟩ := operatorAt_eq_some hvalue
    refine .inl ⟨value, hvalue, hsupported, rfl, ?_⟩
    simp only [Cursor.afterOperator, Cursor.joined]
    rw [hafter, removeContinuations_plain hplain, List.drop_left, List.drop_left]
  · obtain ⟨hjoined, hslice⟩ := literalWordAt_joined hword
    have hassigns : s.joined.assigns (wordSlice s.joined.rest (removeContinuations .bare after)) =
        s.assigns (wordSlice s.rest after) := by
      simp only [Cursor.joined, Cursor.assigns, hslice]
      cases hstart : s.commandStart with
      | false => rfl
      | true =>
          cases htarget : s.redirectTarget with
          | true => rfl
          | false =>
              by_contra hne
              exact hsplit ⟨hskip, .inr ⟨hnone, hstart, htarget, word, after, hword, hne⟩⟩
    refine .inr ⟨hnone, word, removeContinuations .bare after, hjoined, hreserved, ?_, ?_⟩
    · rw [hassigns]
    · rw [hassigns]
      rfl

/-- A token that a continuation splits is not a token of the text without them. -/
theorem ne_of_split (hsplit : s.Split) (h : s.token = some (token, t))
    {other : LiteralShellToken} (hother : s.joined.token = some (other, u)) : other ≠ token := by
  rintro rfl
  obtain ⟨-, hsplit⟩ := hsplit
  rcases token_eq_some_iff.1 h with ⟨value, hvalue, -, rfl, -⟩ |
      ⟨hnone, word, after, hword, -, rfl, -⟩
  · rcases token_eq_some_iff.1 hother with ⟨value', hvalue', -, hsame, -⟩ |
        ⟨-, _, _, -, -, hsame, -⟩
    · cases hsame
      rcases hsplit with hne | ⟨hnone, -⟩
      -- two operators: the pattern matched different texts
      · exact hne (hvalue'.trans hvalue.symm)
      · rw [hvalue] at hnone
        cases hnone
    · cases hsame
  · rcases token_eq_some_iff.1 hother with ⟨value', hvalue', -, hsame, -⟩ |
        ⟨hnone', word', after', hword', -, hsame, -⟩
    · cases hsame
    · rcases hsplit with hne | ⟨-, hstart, htarget, first, rest, hfirst, hne⟩
      · exact hne (hnone'.trans hnone.symm)
      -- two words: they have one value, and only one is an assignment
      · obtain ⟨rfl, rfl⟩ := Prod.mk.inj (Option.some.inj (hfirst.symm.trans hword))
        obtain ⟨hjoined, hslice⟩ := literalWordAt_joined hword
        obtain ⟨rfl, rfl⟩ := Prod.mk.inj (Option.some.inj (hword'.symm.trans hjoined))
        have hassigns := Option.some.inj (congrArg LiteralShellToken.assignment hsame)
        simp only [Cursor.joined, Cursor.assigns, hslice, hstart, htarget, Bool.not_false,
          Bool.true_and] at hassigns
        exact hne hassigns

/-! ## The loop -/

/-- The loop comes from one place to the other. -/
def Cursor.Leads (s t : Cursor) : Prop :=
  ∃ pushed, s.next = some (pushed, t)

/-- The places that the loop comes to. -/
def Cursor.Visits : Cursor → Cursor → Prop :=
  Relation.ReflTransGen Cursor.Leads

theorem forall_visits_iff {P : Cursor → Prop} (h : s.next = some (pushed, t)) :
    (∀ u, s.Visits u → P u) ↔ P s ∧ ∀ u, t.Visits u → P u := by
  constructor
  · intro hall
    exact ⟨hall s .refl, fun u hu => hall u (hu.head ⟨pushed, h⟩)⟩
  · rintro ⟨hs, ht⟩ u hu
    rcases hu.cases_head with rfl | ⟨v, ⟨pushed', hv⟩, hu⟩
    · exact hs
    · obtain ⟨-, rfl⟩ := Prod.mk.inj (Option.some.inj (h.symm.trans hv))
      exact ht u hu

/-- The loop skips a blank or a continuation. -/
theorem skipLength_cases (h : skipLength source ≠ 0) :
    (∃ c tail, source = c :: tail ∧ (c = 0x09 ∨ c = 0x20) ∧ skipLength source = 1) ∨
      ∃ tail, source = 0x5C :: 0x0A :: tail ∧ skipLength source = 2 := by
  cases source with
  | nil => exact absurd rfl h
  | cons c rest =>
      rw [skipLength] at h
      split at h
      · rename_i hblank
        have hc : c = 0x09 ∨ c = 0x20 := by simpa using hblank
        exact .inl ⟨c, rest, rfl, hc, if_pos hblank⟩
      · split at h
        · rename_i hblank hcontinued
          simp only [Bool.and_eq_true, beq_iff_eq, List.head?_eq_some_iff] at hcontinued
          obtain ⟨rfl, tail, rfl⟩ := hcontinued
          exact .inr ⟨tail, rfl, rfl⟩
        · exact absurd rfl h

theorem length_lt_of_next (h : s.next = some (pushed, t)) : t.rest.length < s.rest.length := by
  rw [Cursor.next] at h
  split at h
  · rename_i hskip
    cases h
    dsimp only
    rcases skipLength_cases hskip with ⟨c, tail, hrest, -, hlength⟩ | ⟨tail, hrest, hlength⟩
    · rw [hlength, hrest]
      exact Nat.lt_succ_self _
    · rw [hlength, hrest]
      exact Nat.lt_succ_of_lt (Nat.lt_succ_self _)
  · obtain ⟨⟨token, u⟩, htoken, heq⟩ := Option.map_eq_some_iff.mp h
    cases heq
    exact length_lt_of_token htoken

/-- What the loop skips, it skips in the other text too, or it is not there. -/
theorem joined_of_skip (hskip : skipLength s.rest ≠ 0) (h : s.next = some (pushed, t)) :
    pushed = [] ∧ (s.joined = t.joined ∨ s.joined.next = some ([], t.joined)) := by
  rw [Cursor.next, if_pos hskip] at h
  cases h
  refine ⟨rfl, ?_⟩
  rcases skipLength_cases hskip with ⟨c, tail, hrest, hblank, hlength⟩ | ⟨tail, hrest, hlength⟩
  · have hc : isPlain c = true := by
      rcases hblank with rfl | rfl <;> decide
    have hremoved : removeContinuations .bare s.rest = c :: removeContinuations .bare tail := by
      rw [hrest]
      exact @removeContinuations_plain [c] tail (by simpa using hc)
    have hskips : skipLength (c :: removeContinuations .bare tail) = 1 := by
      rcases hblank with rfl | rfl <;> rfl
    refine .inr ?_
    rw [Cursor.next, Cursor.joined, hremoved, hskips, if_pos Nat.one_ne_zero, hlength, hrest]
    rfl
  · refine .inl ?_
    have hbare : Quote.bare ≠ .single := by decide
    rw [Cursor.joined, Cursor.joined, hlength, hrest, removeContinuations_continuation hbare]
    rfl

theorem skipLength_joined (h : skipLength source = 0) :
    skipLength (removeContinuations .bare source) = 0 := by
  cases source with
  | nil => rfl
  | cons c rest =>
      have hkept : ∀ tail : JsString, (c = 0x5C → tail.head? = some 0x0A → False) →
          skipLength (c :: tail) = 0 := by
        intro tail htail
        have hblank : ¬ (c == 0x09 || c == 0x20) = true := by
          intro hblank
          rw [skipLength, if_pos hblank] at h
          cases h
        rw [skipLength, if_neg hblank, if_neg]
        intro hcontinued
        rw [Bool.and_eq_true, beq_iff_eq, beq_iff_eq] at hcontinued
        exact htail hcontinued.1 hcontinued.2
      by_cases hc : c = 0x5C
      · subst hc
        cases rest with
        | nil => rfl
        | cons next tail =>
            have hnext : next ≠ 0x0A := by
              rintro rfl
              cases h
            have hbare : Quote.bare ≠ .single := by decide
            rw [removeContinuations_escape hbare hnext]
            exact hkept _ fun _ hhead => hnext (Option.some.inj hhead)
      · rw [removeContinuations_cons (.inl hc)]
        exact hkept _ fun heq => absurd heq hc

/-- A pass of the loop, where there are enough passes. -/
theorem tokensFrom_of_next {passes : ℕ} (h : s.next = some (pushed, t))
    (hpasses : s.rest.length ≤ passes) :
    ∃ fewer, t.rest.length ≤ fewer ∧
      tokensFrom passes s = (tokensFrom fewer t).map (pushed ++ ·) := by
  have hlength := length_lt_of_next h
  cases passes with
  | zero => exact absurd hlength (Nat.not_lt_of_le (hpasses.trans (Nat.zero_le _)))
  | succ passes =>
      refine ⟨passes, by omega, ?_⟩
      have hrest : s.rest ≠ [] := by
        rw [← List.length_pos_iff]
        exact Nat.zero_lt_of_lt hlength
      rw [tokensFrom, if_neg hrest, h, Option.bind_some]

/-- The first token is one that a pass pushes. -/
theorem token_of_tokensFrom {passes : ℕ} {tokens : List LiteralShellToken}
    (h : tokensFrom passes s = some (token :: tokens)) (hskip : skipLength s.rest = 0) :
    ∃ t, s.token = some (token, t) := by
  cases passes with
  | zero =>
      rw [tokensFrom, Option.ite_none_right_eq_some] at h
      cases h.2
  | succ passes =>
      rw [tokensFrom] at h
      split at h
      · cases h
      · obtain ⟨⟨pushed, t⟩, hnext, hmap⟩ := Option.bind_eq_some_iff.mp h
        rw [Cursor.next, if_neg (not_not.mpr hskip)] at hnext
        obtain ⟨⟨first, u⟩, htoken, heq⟩ := Option.map_eq_some_iff.mp hnext
        cases heq
        obtain ⟨rest, -, heq⟩ := Option.map_eq_some_iff.mp hmap
        cases heq
        exact ⟨t, htoken⟩

theorem forall_visits_of_nil (h : s.rest = []) : ∀ u, s.Visits u → ¬ u.Split := by
  intro u hu
  rcases hu.cases_head with rfl | ⟨v, ⟨pushed, hv⟩, -⟩
  · rintro ⟨-, hne | ⟨-, -, -, word, after, hword, -⟩⟩
    · rw [h, removeContinuations_nil] at hne
      exact hne rfl
    · rw [h] at hword
      cases hword
  · have hlength := length_lt_of_next hv
    rw [h] at hlength
    exact absurd hlength (Nat.not_lt_zero _)

theorem tokensFrom_joined_of_nil {passes : ℕ} (h : s.rest = []) :
    tokensFrom passes s.joined = some [] ↔ ∀ u, s.Visits u → ¬ u.Split := by
  have hjoined : s.joined.rest = [] := by
    rw [Cursor.joined, h, removeContinuations_nil]
  refine iff_of_true ?_ (forall_visits_of_nil h)
  cases passes with
  | zero => rw [tokensFrom, if_pos hjoined]
  | succ passes => rw [tokensFrom, if_pos hjoined]

/-- **The loop over a text and over the text without its continuations** push the same
tokens, exactly if no continuation splits a token. -/
theorem tokensFrom_joined_iff {passes passes' : ℕ} {tokens : List LiteralShellToken}
    (h : tokensFrom passes s = some tokens) (hpasses : s.joined.rest.length ≤ passes') :
    tokensFrom passes' s.joined = some tokens ↔ ∀ u, s.Visits u → ¬ u.Split := by
  induction passes generalizing s tokens passes' with
  | zero =>
      rw [tokensFrom, Option.ite_none_right_eq_some, Option.some.injEq] at h
      obtain ⟨hrest, rfl⟩ := h
      exact tokensFrom_joined_of_nil hrest
  | succ passes ih =>
      rw [tokensFrom] at h
      split at h
      · rename_i hrest
        cases h
        exact tokensFrom_joined_of_nil hrest
      · obtain ⟨⟨pushed, t⟩, hnext, hmap⟩ := Option.bind_eq_some_iff.mp h
        obtain ⟨rest, hrest, rfl⟩ := Option.map_eq_some_iff.mp hmap
        rw [forall_visits_iff hnext]
        -- Once both loops push the same, the rest is the induction hypothesis.
        have hfollow : s.joined.next = some (pushed, t.joined) →
            (tokensFrom passes' s.joined = some (pushed ++ rest) ↔
              ∀ u, t.Visits u → ¬ u.Split) := by
          intro hjoined
          obtain ⟨fewer, hfewer, heq⟩ := tokensFrom_of_next hjoined hpasses
          rw [heq, ← ih hrest hfewer, Option.map_eq_some_iff]
          constructor
          · rintro ⟨others, hothers, hsame⟩
            rw [hothers, List.append_cancel_left hsame]
          · intro hothers
            exact ⟨rest, hothers, rfl⟩
        by_cases hskip : skipLength s.rest = 0
        · rw [Cursor.next, if_neg (not_not.mpr hskip)] at hnext
          obtain ⟨⟨token, t'⟩, htoken, heq⟩ := Option.map_eq_some_iff.mp hnext
          cases heq
          have hskip' : skipLength s.joined.rest = 0 := skipLength_joined hskip
          by_cases hsplit : s.Split
          · -- The first token of the other text is another one.
            refine iff_of_false ?_ fun hall => hall.1 hsplit
            intro hjoined
            obtain ⟨u, hother⟩ := token_of_tokensFrom hjoined hskip'
            exact ne_of_split hsplit htoken hother rfl
          · rw [and_iff_right hsplit]
            apply hfollow
            rw [Cursor.next, if_neg (not_not.mpr hskip'), token_joined hskip hsplit htoken]
            rfl
        · obtain ⟨rfl, hjoined⟩ := joined_of_skip hskip hnext
          have hsplit : ¬ s.Split := fun hsplit => hskip hsplit.1
          -- what is skipped is no token, so nothing splits it
          rw [and_iff_right hsplit]
          rcases hjoined with hjoined | hjoined
          · rw [hjoined] at hpasses ⊢
            exact ih hrest hpasses
          · exact hfollow hjoined

/-- The loop ends before its passes do: more of them change nothing. -/
theorem tokensFrom_eq_of_le {passes : ℕ} (h : s.rest.length ≤ passes) :
    tokensFrom passes s = tokensFrom s.rest.length s := by
  induction hlength : s.rest.length using Nat.strong_induction_on generalizing s passes with
  | _ n ih =>
      subst hlength
      cases hnext : s.next with
      | none =>
          -- a text that no pass reads has no tokens, however many passes there are
          have hstuck : ∀ passes, tokensFrom passes s = if s.rest = [] then some [] else none := by
            intro passes
            cases passes with
            | zero => rfl
            | succ passes => rw [tokensFrom, hnext, Option.bind_none]
          rw [hstuck, hstuck]
      | some pass =>
          obtain ⟨pushed, t⟩ := pass
          have hless := length_lt_of_next hnext
          obtain ⟨fewer, hfewer, heq⟩ := tokensFrom_of_next hnext h
          obtain ⟨fewer', hfewer', heq'⟩ := tokensFrom_of_next hnext le_rfl
          rw [heq, heq', ih _ hless hfewer rfl, ih _ hless hfewer' rfl]

/-! ## Commands -/

variable {tokens : List LiteralShellToken} {left right : JsString}

theorem literalCommandTokens_eq_some : literalCommandTokens source = some tokens ↔
    tokensFrom source.length ⟨true, false, source⟩ = some tokens ∧ tokens ≠ [] := by
  rw [literalCommandTokens, Option.filter_eq_some_iff, decide_eq_true_eq, List.length_pos_iff]

theorem sameLiteralTokens_iff {left right : List LiteralShellToken} :
    sameLiteralTokens left right = true ↔ left = right := by
  induction left generalizing right with
  | nil => cases right <;> simp [sameLiteralTokens]
  | cons t rest ih =>
      cases right with
      | nil => simp [sameLiteralTokens]
      | cons u others =>
          rw [List.cons.injEq, ← ih, LiteralShellToken.ext_iff]
          simp [sameLiteralTokens]
          tauto

theorem literalCommandsMatch_iff : literalCommandsMatch left right = true ↔
    left = right ∨ ∃ tokens, literalCommandTokens left = some tokens ∧
      literalCommandTokens right = some tokens := by
  rw [literalCommandsMatch]
  split
  · rename_i heq
    exact iff_of_true rfl (.inl heq)
  · rename_i hne
    rw [or_iff_right hne]
    cases literalCommandTokens left with
    | none => simp
    | some a =>
        cases literalCommandTokens right with
        | none => simp
        | some b =>
            dsimp only
            rw [sameLiteralTokens_iff]
            simp [eq_comm]

/-- A command is read like its text without the continuations: it has the same tokens, and
it matches the same commands. -/
structure ReadAlike (source : JsString) (tokens : List LiteralShellToken) : Prop where
  tokens : literalCommandTokens (removeContinuations .bare source) = some tokens
  matchesRight : ∀ other, literalCommandsMatch source other =
    literalCommandsMatch (removeContinuations .bare source) other
  matchesLeft : ∀ other, literalCommandsMatch other source =
    literalCommandsMatch other (removeContinuations .bare source)

/-- Commands with the same tokens match the same commands. -/
theorem readAlike_of_tokens (h : literalCommandTokens source = some tokens)
    (hremoved : literalCommandTokens (removeContinuations .bare source) = some tokens) :
    ReadAlike source tokens := by
  have hmatch : ∀ text other, literalCommandTokens text = some tokens →
      ((text = other ∨ ∃ tokens, literalCommandTokens text = some tokens ∧
        literalCommandTokens other = some tokens) ↔ literalCommandTokens other = some tokens) := by
    intro text other htext
    constructor
    · rintro (rfl | ⟨others, hothers, hother⟩)
      · exact htext
      · rw [hother, ← hothers, htext]
    · intro hother
      exact .inr ⟨tokens, htext, hother⟩
  refine ⟨hremoved, ?_, ?_⟩
  · intro other
    rw [Bool.eq_iff_iff, literalCommandsMatch_iff, literalCommandsMatch_iff, hmatch _ _ h,
      hmatch _ _ hremoved]
  · intro other
    rw [Bool.eq_iff_iff, literalCommandsMatch_iff, literalCommandsMatch_iff]
    simp only [eq_comm (a := other), and_comm (a := literalCommandTokens other = _),
      hmatch _ _ h, hmatch _ _ hremoved]

/-- **A command is read as a shell reads it** exactly if no continuation splits a token. -/
theorem literalCommandTokens_removeContinuations_iff
    (h : literalCommandTokens source = some tokens) :
    ReadAlike source tokens ↔ ∀ u, Cursor.Visits ⟨true, false, source⟩ u → ¬ u.Split := by
  obtain ⟨hloop, hne⟩ := literalCommandTokens_eq_some.1 h
  have hjoined := tokensFrom_joined_iff (s := ⟨true, false, source⟩) hloop le_rfl
  rw [← hjoined]
  constructor
  · intro halike
    exact (literalCommandTokens_eq_some.1 halike.tokens).1
  · intro htokens
    exact readAlike_of_tokens h (literalCommandTokens_eq_some.2 ⟨htokens, hne⟩)

/-- A continuation between words. -/
theorem literalCommandTokens_removeContinuations_words :
    literalCommandTokens (js "x \\\n2>f") = some [⟨.word, js "x", some false⟩,
        ⟨.operator, js "2>", none⟩, ⟨.word, js "f", some false⟩] ∧
      ∀ u, Cursor.Visits ⟨true, false, js "x \\\n2>f"⟩ u → ¬ u.Split := by
  have htokens : literalCommandTokens (js "x \\\n2>f") = some [⟨.word, js "x", some false⟩,
      ⟨.operator, js "2>", none⟩, ⟨.word, js "f", some false⟩] := by decide
  have halike := readAlike_of_tokens htokens (by decide)
  exact ⟨htokens, (literalCommandTokens_removeContinuations_iff htokens).mp halike⟩

/-- **A descriptor that is continued** becomes an argument: the command matches one that a
shell reads in another way. -/
theorem descriptor_continued :
    literalCommandTokens (js "x 2\\\n>f") = some [⟨.word, js "x", some false⟩,
        ⟨.word, js "2", some false⟩, ⟨.operator, js ">", none⟩, ⟨.word, js "f", some false⟩] ∧
      literalCommandTokens (removeContinuations .bare (js "x 2\\\n>f")) =
        some [⟨.word, js "x", some false⟩, ⟨.operator, js "2>", none⟩,
          ⟨.word, js "f", some false⟩] ∧
      literalCommandsMatch (js "x 2\\\n>f") (js "x 2 >f") = true ∧
      literalCommandsMatch (removeContinuations .bare (js "x 2\\\n>f")) (js "x 2 >f") = false := by
  decide

end Hepha.Verification
