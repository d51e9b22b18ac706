import Hepha.Coverage.Headings
import Hepha.Js.Unicode

/-!
# Passages of a source text

A source text is cut into passages of at most 1800 code units, behind a line feed where
there is one, and never inside a surrogate pair.  A passage carries the headings that
are open where it begins.

The loop keeps the headings that are still to come and the open headings of those that
begin before the last passage.  Since the headings come in the order of their offsets,
what it has entered at an offset is what begins before that offset.
-/

namespace Hepha.Coverage

open JsString Pattern

structure SourcePassage where
  id : ℕ
  offset : ℕ
  text : JsString
  context : List SourceHeading
  deriving DecidableEq, Repr

/-- `PASSAGE_SIZE`. -/
def PASSAGE_SIZE : ℕ := 1800

/-- `source.slice(start, end)`. -/
def slice (source : JsString) (start stop : ℕ) : JsString :=
  (source.take stop).drop start

/-- `source.lastIndexOf(unit, position)`. -/
def lastIndexOf (source : JsString) (u : CodeUnit) : ℕ → Option ℕ
  | 0 => if source[0]? = some u then some 0 else none
  | position + 1 =>
      if source[position + 1]? = some u then some (position + 1)
      else lastIndexOf source u position

/-- `/[\uD800-\uDBFF]/.test(source[index]!)`. -/
def highSurrogateAt (source : JsString) (index : ℕ) : Bool :=
  source[index]?.any isHighSurrogate

/-- Where the passage that begins at an offset ends. -/
def passageEnd (source : JsString) (offset : ℕ) : ℕ :=
  let stop := min (offset + PASSAGE_SIZE) source.length
  if stop < source.length then
    match lastIndexOf source 0x0A (stop - 1) with
    | some newline =>
        if offset < newline then newline + 1
        else if highSurrogateAt source (stop - 1) then stop - 1
        else stop
    | none => if highSurrogateAt source (stop - 1) then stop - 1 else stop
  else stop

/-- The headings before an offset are entered into the context. -/
def enterHeadings (offset : ℕ) (context : List SourceHeading) :
    List SourceHeading → List SourceHeading × List SourceHeading
  | [] => (context, [])
  | heading :: rest =>
      if heading.offset < offset then
        enterHeadings offset (openItem SourceHeading.level context heading) rest
      else (context, heading :: rest)

theorem lastIndexOf_eq_some {source : JsString} {u : CodeUnit} {position index : ℕ}
    (h : lastIndexOf source u position = some index) :
    index ≤ position ∧ source[index]? = some u := by
  induction position with
  | zero =>
      rw [lastIndexOf] at h
      split at h
      · obtain rfl := Option.some.inj h
        exact ⟨Nat.le_refl _, ‹_›⟩
      · cases h
  | succ position ih =>
      rw [lastIndexOf] at h
      split at h
      · obtain rfl := Option.some.inj h
        exact ⟨Nat.le_refl _, ‹_›⟩
      · exact ⟨Nat.le_succ_of_le (ih h).1, (ih h).2⟩

/-- A place between the two halves of a surrogate pair. -/
def SplitsPair (source : JsString) (index : ℕ) : Prop :=
  ∃ before high low after, source = before ++ high :: low :: after ∧
    index = before.length + 1 ∧ isHighSurrogate high = true ∧ isLowSurrogate low = true

theorem splitsPair_iff {source : JsString} {index : ℕ} :
    SplitsPair source index ↔ ∃ high low, 0 < index ∧ source[index - 1]? = some high ∧
      source[index]? = some low ∧ isHighSurrogate high = true ∧ isLowSurrogate low = true := by
  constructor
  · rintro ⟨before, high, low, after, rfl, rfl, hhigh, hlow⟩
    exact ⟨high, low, Nat.succ_pos _, by simp, by simp, hhigh, hlow⟩
  · rintro ⟨high, low, hpos, hfirst, hsecond, hhigh, hlow⟩
    obtain ⟨k, rfl⟩ := Nat.exists_eq_succ_of_ne_zero (Nat.pos_iff_ne_zero.mp hpos)
    obtain ⟨hk, hfirst⟩ := List.getElem?_eq_some_iff.mp hfirst
    obtain ⟨hk', hsecond⟩ := List.getElem?_eq_some_iff.mp hsecond
    refine ⟨source.take k, high, low, source.drop (k + 2), ?_, ?_, hhigh, hlow⟩
    · have hdrop : source.drop k = high :: low :: source.drop (k + 2) := by
        rw [← hfirst, ← hsecond]
        simp only [Nat.add_sub_cancel, Nat.succ_eq_add_one, List.getElem_cons_drop]
      rw [← hdrop, List.take_append_drop]
    · rw [List.length_take, Nat.min_eq_left (by omega)]

/-- **A passage ends behind its beginning**, in the text and at most 1800 units on; it
does not end inside a surrogate pair. -/
theorem passageEnd_spec {source : JsString} {offset : ℕ} (h : offset < source.length) :
    offset < passageEnd source offset ∧ passageEnd source offset ≤ source.length ∧
      passageEnd source offset ≤ offset + PASSAGE_SIZE ∧
        ¬SplitsPair source (passageEnd source offset) := by
  have hsize : PASSAGE_SIZE = 1800 := rfl
  unfold passageEnd
  generalize hstop : min (offset + PASSAGE_SIZE) source.length = stop
  simp only
  -- a cut that steps back from the first half of a pair
  have hcut (hlt : stop < source.length) :
      let cut := if highSurrogateAt source (stop - 1) then stop - 1 else stop
      offset < cut ∧ cut ≤ source.length ∧ cut ≤ offset + PASSAGE_SIZE ∧
        ¬SplitsPair source cut := by
    have hcover : stop = offset + PASSAGE_SIZE := by omega
    split
    · rename_i hhigh
      refine ⟨by omega, by omega, by omega, fun hsplit => ?_⟩
      obtain ⟨_, low, -, -, hlow, -, hislow⟩ := splitsPair_iff.1 hsplit
      rw [highSurrogateAt, hlow, Option.any_some] at hhigh
      simp only [isHighSurrogate, isLowSurrogate, Bool.and_eq_true, decide_eq_true_eq,
        UInt16.le_iff_toNat_le] at hhigh hislow
      simp at hhigh hislow
      omega
    · rename_i hhigh
      refine ⟨by omega, by omega, by omega, fun hsplit => hhigh ?_⟩
      obtain ⟨high, _, -, hfirst, -, hishigh, -⟩ := splitsPair_iff.1 hsplit
      rw [highSurrogateAt, hfirst, Option.any_some, hishigh]
  split
  · rename_i hlt
    split
    · rename_i newline hnewline
      obtain ⟨hle, hfeed⟩ := lastIndexOf_eq_some hnewline
      split
      · refine ⟨by omega, by omega, by omega, fun hsplit => ?_⟩
        obtain ⟨high, _, -, hfirst, -, hishigh, -⟩ := splitsPair_iff.1 hsplit
        rw [Nat.add_sub_cancel, hfeed] at hfirst
        obtain rfl := Option.some.inj hfirst
        exact absurd hishigh (by decide)
      · exact hcut hlt
    · exact hcut hlt
  · rename_i hend
    refine ⟨by omega, by omega, by omega, fun hsplit => ?_⟩
    obtain ⟨_, _, -, -, hlow, -, -⟩ := splitsPair_iff.1 hsplit
    have hlt := (List.getElem?_eq_some_iff.mp hlow).1
    omega

/-- The loop of `coverageSourcePassages`. -/
def passagesFrom (source : JsString) (id offset : ℕ) (context remaining : List SourceHeading) :
    List SourcePassage :=
  if _h : offset < source.length then
    let entered := enterHeadings offset context remaining
    let stop := passageEnd source offset
    ⟨id, offset, slice source offset stop, entered.1⟩ ::
      passagesFrom source (id + 1) stop entered.1 entered.2
  else []
termination_by source.length - offset
decreasing_by
  have := (passageEnd_spec _h).1
  omega

theorem passagesFrom_of_lt {source : JsString} {id offset : ℕ}
    {context remaining : List SourceHeading} (h : offset < source.length) :
    passagesFrom source id offset context remaining =
      ⟨id, offset, slice source offset (passageEnd source offset),
          (enterHeadings offset context remaining).1⟩ ::
        passagesFrom source (id + 1) (passageEnd source offset)
          (enterHeadings offset context remaining).1
            (enterHeadings offset context remaining).2 := by
  rw [passagesFrom, dif_pos h]

/-- `coverageSourcePassages`. -/
def coverageSourcePassages (source : JsString) : List SourcePassage :=
  passagesFrom source 0 0 [] (headings source)

/-! ## Open headings -/

/-- A heading is open at an offset when it begins before it, and no heading of its level
or above begins between the two. -/
def OpenAt (all : List SourceHeading) (offset : ℕ) (heading : SourceHeading) : Prop :=
  heading.offset < offset ∧ ∀ later ∈ all, heading.offset < later.offset →
    later.offset < offset → heading.level < later.level

instance (all : List SourceHeading) (offset : ℕ) : DecidablePred (OpenAt all offset) :=
  fun _ => inferInstanceAs (Decidable (_ ∧ _))

/-- The headings of a source that are open at an offset. -/
def openHeadings (source : JsString) (offset : ℕ) : List SourceHeading :=
  (headings source).filter fun heading => OpenAt (headings source) offset heading

section Open

variable {source : JsString} {offset : ℕ} {context before remaining : List SourceHeading}

/-- The open headings are the outline of the headings that begin before the offset. -/
theorem openHeadings_eq_outline :
    openHeadings source offset = outline SourceHeading.level
      ((headings source).filter fun heading => heading.offset < offset) := by
  rw [outline_eq_filter ((headings_pairwise source).filter _), List.filter_filter, openHeadings]
  refine List.filter_congr fun heading _ => ?_
  rw [Bool.eq_iff_iff, decide_eq_true_iff, Bool.and_eq_true, List.all_eq_true]
  simp only [OpenAt, List.mem_filter, decide_eq_true_eq, and_imp]
  exact ⟨fun h => ⟨fun later hmem hlt hle => h.2 later hmem hle hlt, h.1⟩,
    fun h => ⟨h.2, fun later hmem hlt hle => h.1 later hmem hle hlt⟩⟩

theorem enterHeadings_eq (hcontext : context = outline SourceHeading.level before) :
    enterHeadings offset context remaining =
      (outline SourceHeading.level
          (before ++ remaining.takeWhile fun heading => heading.offset < offset),
        remaining.dropWhile fun heading => heading.offset < offset) := by
  induction remaining generalizing context before with
  | nil => rw [enterHeadings, hcontext, List.takeWhile_nil, List.append_nil, List.dropWhile_nil]
  | cons heading rest ih =>
      rw [enterHeadings]
      split
      · rename_i hlt
        have hnext : openItem SourceHeading.level context heading =
            outline SourceHeading.level (before ++ [heading]) := by
          rw [hcontext, outline, outline, List.foldl_append]
          rfl
        rw [ih hnext, List.takeWhile_cons_of_pos (by simpa using hlt),
          List.dropWhile_cons_of_pos (by simpa using hlt), List.append_assoc,
          List.singleton_append]
      · rename_i hge
        rw [List.takeWhile_cons_of_neg (by simpa using hge),
          List.dropWhile_cons_of_neg (by simpa using hge), hcontext, List.append_nil]

theorem takeWhile_offset {all : List SourceHeading}
    (h : all.Pairwise fun a b => a.offset < b.offset) :
    (all.takeWhile fun heading => heading.offset < offset) =
      all.filter fun heading => heading.offset < offset := by
  induction all with
  | nil => rfl
  | cons heading rest ih =>
      obtain ⟨hheading, hrest⟩ := List.pairwise_cons.mp h
      by_cases hlt : heading.offset < offset
      · rw [List.takeWhile_cons_of_pos (by simpa using hlt),
          List.filter_cons_of_pos (by simpa using hlt), ih hrest]
      · rw [List.takeWhile_cons_of_neg (by simpa using hlt),
          List.filter_cons_of_neg (by simpa using hlt), eq_comm, List.filter_eq_nil_iff]
        intro later hlater
        have hle := hheading later hlater
        rw [decide_eq_true_eq]
        omega

/-- **What has been entered at an offset are the headings before it.** -/
theorem before_eq_filter (hall : headings source = before ++ remaining)
    (hbefore : ∀ heading ∈ before, heading.offset < offset) :
    before ++ remaining.takeWhile (fun heading => heading.offset < offset) =
      (headings source).filter fun heading => heading.offset < offset := by
  have hfront : before.filter (fun heading => heading.offset < offset) = before :=
    List.filter_eq_self.mpr fun heading hmem => decide_eq_true (hbefore heading hmem)
  have hpairwise : remaining.Pairwise fun a b => a.offset < b.offset :=
    (List.pairwise_append.mp (hall ▸ headings_pairwise source)).2.1
  rw [hall, List.filter_append, hfront, takeWhile_offset hpairwise]

end Open

/-! ## What a passage is -/

/-- A passage of a source text. -/
structure IsPassage (source : JsString) (passage : SourcePassage) : Prop where
  text : passage.text = slice source passage.offset (passage.offset + passage.text.length)
  nonempty : passage.text ≠ []
  bounded : passage.text.length ≤ 1800
  whole : ¬SplitsPair source (passage.offset + passage.text.length)
  context : passage.context = openHeadings source passage.offset

/-- Passages that follow one another from an id and an offset. -/
def Consecutive (id offset : ℕ) (passages : List SourcePassage) : Prop :=
  ∀ i passage, passages[i]? = some passage → passage.id = id + i ∧
    passage.offset = offset + ((passages.take i).flatMap SourcePassage.text).length

theorem length_slice {source : JsString} {start stop : ℕ} (h : stop ≤ source.length) :
    (slice source start stop).length = stop - start := by
  rw [slice, List.length_drop, List.length_take, Nat.min_eq_left h]

theorem slice_append_drop {source : JsString} {start stop : ℕ} (h : start ≤ stop) :
    slice source start stop ++ source.drop stop = source.drop start := by
  rw [slice, List.drop_take, ← Nat.add_sub_cancel' h, Nat.add_sub_cancel_left, ← List.drop_drop,
    List.take_append_drop]

theorem consecutive_cons {id offset : ℕ} {passage : SourcePassage} {passages : List SourcePassage}
    (hid : passage.id = id) (hoffset : passage.offset = offset)
    (h : Consecutive (id + 1) (offset + passage.text.length) passages) :
    Consecutive id offset (passage :: passages) := by
  intro i other hother
  cases i with
  | zero =>
      obtain rfl := Option.some.inj hother
      simp [hid, hoffset]
  | succ i =>
      obtain ⟨hid', hoffset'⟩ := h i other hother
      rw [List.take_succ_cons, List.flatMap_cons, List.length_append]
      omega

/-- **The loop cuts off passages**: what is before the offset has been cut, and its
headings have been entered. -/
theorem passagesFrom_spec {source : JsString} {id offset : ℕ}
    {context before remaining : List SourceHeading} (hall : headings source = before ++ remaining)
    (hbefore : ∀ heading ∈ before, heading.offset < offset)
    (hcontext : context = outline SourceHeading.level before) :
    (passagesFrom source id offset context remaining).flatMap SourcePassage.text =
        source.drop offset ∧
      Consecutive id offset (passagesFrom source id offset context remaining) ∧
        ∀ passage ∈ passagesFrom source id offset context remaining,
          IsPassage source passage := by
  induction hlength : source.length - offset using Nat.strong_induction_on
    generalizing id offset context before remaining with
  | _ n ih =>
      by_cases hlt : offset < source.length
      · rw [passagesFrom_of_lt hlt]
        obtain ⟨hprogress, hstop, hsize, hpair⟩ := passageEnd_spec hlt
        rw [enterHeadings_eq hcontext, before_eq_filter hall hbefore]
        generalize hentered : (headings source).filter (fun heading => heading.offset < offset) =
          entered
        have hnext : headings source =
            entered ++ remaining.dropWhile fun heading => heading.offset < offset := by
          rw [← hentered, ← before_eq_filter hall hbefore, List.append_assoc,
            List.takeWhile_append_dropWhile, hall]
        have hentered' (heading : SourceHeading) (hmem : heading ∈ entered) :
            heading.offset < passageEnd source offset := by
          rw [← hentered, List.mem_filter, decide_eq_true_eq] at hmem
          omega
        obtain ⟨htext, hconsecutive, hpassages⟩ :=
          ih _ (by omega) hnext hentered' rfl rfl
        have hlen := @length_slice source offset _ hstop
        refine ⟨?_, consecutive_cons rfl rfl ?_, List.forall_mem_cons.mpr ⟨?_, hpassages⟩⟩
        · rw [List.flatMap_cons, htext]
          exact slice_append_drop (Nat.le_of_lt hprogress)
        · rw [hlen, Nat.add_sub_cancel' (Nat.le_of_lt hprogress)]
          exact hconsecutive
        · have hplace : offset + (slice source offset (passageEnd source offset)).length =
              passageEnd source offset := by omega
          refine ⟨by rw [hplace], ?_, ?_, by rw [hplace]; exact hpair, ?_⟩
          · refine List.ne_nil_of_length_pos ?_
            show 0 < (slice source offset (passageEnd source offset)).length
            omega
          · rw [hlen]
            exact Nat.sub_le_of_le_add (by rw [Nat.add_comm]; exact hsize)
          · rw [openHeadings_eq_outline, hentered]
      · rw [passagesFrom, dif_neg hlt]
        refine ⟨(List.drop_eq_nil_of_le (Nat.le_of_not_lt hlt)).symm, ?_, ?_⟩
        · intro i passage hpassage
          cases hpassage
        · intro passage hpassage
          cases hpassage

/-! ## The result -/

theorem coverageSourcePassages_isPassage {source : JsString} {passage : SourcePassage}
    (h : passage ∈ coverageSourcePassages source) : IsPassage source passage :=
  (passagesFrom_spec (List.nil_append _).symm (by simp) rfl).2.2 passage h

/-- **The passages of a source text** are its consecutive slices, numbered from zero; each
is not empty, has at most 1800 units, does not end inside a surrogate pair and carries
the headings that are open at its offset. -/
theorem coverageSourcePassages_spec (source : JsString) :
    (coverageSourcePassages source).flatMap SourcePassage.text = source ∧
      Consecutive 0 0 (coverageSourcePassages source) ∧
        ∀ passage ∈ coverageSourcePassages source, IsPassage source passage := by
  have h := @passagesFrom_spec source 0 0 [] [] _ (List.nil_append _).symm (by simp) rfl
  rwa [List.drop_zero] at h

/-- A heading that only the alternative for path lines matches. -/
def SourceHeading.isPathLine (heading : SourceHeading) : Bool :=
  !testWhole markdownHeading heading.text

/-- Two path lines; the second begins with `#`. -/
def hashedSource : JsString :=
  js "/a.md\n#b.md\n" ++ List.replicate 1800 0x0A

theorem headings_replicate_lineFeed (n : ℕ) : headings (List.replicate n 0x0A) = [] := by
  induction n with
  | zero => decide
  | succ n ih =>
      have h := headings_append_lineFeed (List.not_mem_nil (a := 0x0A)) (List.replicate n 0x0A)
      rw [ih] at h
      exact h

theorem headings_hashedSource :
    headings hashedSource = [⟨0, js "/a.md"⟩, ⟨6, js "#b.md"⟩] := by
  have hsplit : hashedSource =
      js "/a.md" ++ 0x0A :: (js "#b.md" ++ 0x0A :: List.replicate 1800 0x0A) := rfl
  rw [hsplit, headings_append_lineFeed (by decide),
    headings_append_lineFeed (by decide), headings_replicate_lineFeed]
  decide

/-- A path line that begins with `#` does not close the path line before it. -/
theorem pathLine_left_open :
    ¬∀ source, ∀ passage ∈ coverageSourcePassages source, passage.context =
      (headings source).filter fun heading => heading.offset < passage.offset ∧
        ∀ later ∈ headings source, heading.offset < later.offset → later.offset < passage.offset →
          later.isPathLine = false ∧ heading.level < later.level := by
  intro h
  have hend : passageEnd hashedSource 0 = 1800 := by decide +kernel
  have hlength : hashedSource.length = 1812 := by decide +kernel
  obtain ⟨passage, hmem, hoffset⟩ :
      ∃ passage ∈ coverageSourcePassages hashedSource, passage.offset = 1800 := by
    rw [coverageSourcePassages, passagesFrom_of_lt (by rw [hlength]; decide), hend,
      passagesFrom_of_lt (by rw [hlength]; decide)]
    exact ⟨_, List.mem_cons_of_mem _ List.mem_cons_self, rfl⟩
  have hopen := (coverageSourcePassages_isPassage hmem).context
  rw [h hashedSource passage hmem, openHeadings, hoffset, headings_hashedSource] at hopen
  exact absurd hopen (by decide)

end Hepha.Coverage
