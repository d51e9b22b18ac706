import Hepha.Coverage.Scope
import Mathlib.Data.List.Range

/-!
# Facts in their groups

Facts are grouped under the JSON text of their quote and scope, which no other pair has
(`factKey_inj`).  After any list of facts a group therefore holds places of facts with its
own quote and its own scope, and every fact is in a group (`GroupsOf`); so whether the
groups are sound is a matter of the scope that is read for each fact.
-/

namespace Hepha.Coverage

open JsString

/-! ## Occurrences -/

theorem mem_occurrences {text quote : JsString} {offset : ℕ} :
    offset ∈ occurrences text quote ↔ offset ≤ text.length ∧ quote <+: text.drop offset := by
  simp [occurrences]

theorem occurrences_pairwise (text quote : JsString) :
    (occurrences text quote).Pairwise (· < ·) :=
  List.pairwise_lt_range.filter _

/-- The next occurrence behind the one that was found. -/
theorem filter_lt_of_filter_le {offsets rest : List ℕ} {start offset : ℕ}
    (hsorted : offsets.Pairwise (· < ·))
    (h : offsets.filter (fun o => start ≤ o) = offset :: rest) :
    offsets.filter (fun o => offset + 1 ≤ o) = rest := by
  have hpairwise := hsorted.filter fun o => decide (start ≤ o)
  rw [h] at hpairwise
  obtain ⟨hoffset, -⟩ := List.pairwise_cons.mp hpairwise
  have hstart : start ≤ offset := by
    have hmem : offset ∈ offsets.filter fun o => start ≤ o := h ▸ List.mem_cons_self
    simpa using (List.mem_filter.mp hmem).2
  have htwice : offsets.filter (fun o => offset + 1 ≤ o) =
      (offsets.filter fun o => start ≤ o).filter fun o => offset + 1 ≤ o := by
    rw [List.filter_filter]
    refine List.filter_congr fun o _ => ?_
    rw [Bool.eq_iff_iff]
    simp only [Bool.and_eq_true, decide_eq_true_eq]
    omega
  rw [htwice, h, List.filter_cons_of_neg (by simp), List.filter_eq_self]
  intro o ho
  exact decide_eq_true (hoffset o ho)

/-- **`quoteOffset` finds the occurrence that a fact names**, counted from zero. -/
theorem quoteOffset_eq (text quote : JsString) (occurrence : Option ℕ) :
    quoteOffset text quote occurrence = (occurrences text quote)[occurrence.getD 0]? := by
  have hfrom (start i : ℕ) : quoteOffsetFrom text quote start i =
      ((occurrences text quote).filter fun o => start ≤ o)[i]? := by
    induction i generalizing start with
    | zero => rw [quoteOffsetFrom, indexOf, ← List.head?_filter, List.head?_eq_getElem?]
    | succ i ih =>
        rw [quoteOffsetFrom, indexOf, ← List.head?_filter]
        cases hfound : (occurrences text quote).filter fun o => start ≤ o with
        | nil => rfl
        | cons offset rest =>
            have hrest := filter_lt_of_filter_le (occurrences_pairwise text quote) hfound
            rw [List.head?_cons, Option.bind_some, ih, hrest, List.getElem?_cons_succ]
  rw [quoteOffset, hfrom]
  simp

/-! ## Keys -/

theorem quote_append_inj {a b r s : JsString} (h : Hepha.quote a ++ r = Hepha.quote b ++ s) :
    a = b ∧ r = s := by
  rw [quote_append, quote_append] at h
  have hread := congrArg readQuoted (List.cons.inj h).2
  rw [readQuoted_quoteUnits, readQuoted_quoteUnits] at hread
  exact Prod.mk.inj (Option.some.inj hread)

theorem quotes_inj {scope scope' : List JsString}
    (h : [0x2C].intercalate (scope.map Hepha.quote) ++ js "]]" =
      [0x2C].intercalate (scope'.map Hepha.quote) ++ js "]]") : scope = scope' := by
  have hclose : js "]]" = [0x5D, 0x5D] := by decide
  have hopen (text : JsString) (rest : JsString) :
      ∃ s, Hepha.quote text ++ rest = 0x22 :: s := ⟨_, quote_append text rest⟩
  -- a text in quotation marks begins otherwise than what closes the array
  have hnil (first : JsString) (rest : List JsString) :
      js "]]" ≠ [0x2C].intercalate ((first :: rest).map Hepha.quote) ++ js "]]" := by
    intro heq
    cases rest with
    | nil =>
        obtain ⟨s, hs⟩ := hopen first (js "]]")
        rw [List.map_singleton, List.intercalate_singleton, hs, hclose] at heq
        exact absurd (List.cons.inj heq).1 (by decide)
    | cons next rest =>
        rw [List.map_cons, List.map_cons, List.intercalate_cons_cons, List.append_assoc,
          List.append_assoc] at heq
        obtain ⟨s, hs⟩ := hopen first _
        rw [hs, hclose] at heq
        exact absurd (List.cons.inj heq).1 (by decide)
  induction scope generalizing scope' with
  | nil =>
      cases scope' with
      | nil => rfl
      | cons first rest => exact absurd h (by simpa using hnil first rest)
  | cons first rest ih =>
      cases scope' with
      | nil => exact absurd h.symm (by simpa using hnil first rest)
      | cons first' rest' =>
          cases rest with
          | nil =>
              cases rest' with
              | nil =>
                  simp only [List.map_singleton, List.intercalate_singleton] at h
                  rw [(quote_append_inj h).1]
              | cons next rest' =>
                  simp only [List.map_cons, List.map_nil, List.intercalate_singleton,
                    List.intercalate_cons_cons, List.append_assoc] at h
                  have htail := (quote_append_inj h).2
                  rw [hclose] at htail
                  exact absurd (List.cons.inj htail).1 (by decide)
          | cons next rest =>
              cases rest' with
              | nil =>
                  simp only [List.map_cons, List.map_nil, List.intercalate_singleton,
                    List.intercalate_cons_cons, List.append_assoc] at h
                  have htail := (quote_append_inj h).2
                  rw [hclose] at htail
                  exact absurd (List.cons.inj htail).1 (by decide)
              | cons next' rest' =>
                  simp only [List.map_cons, List.intercalate_cons_cons, List.append_assoc] at h
                  obtain ⟨rfl, htail⟩ := quote_append_inj h
                  have hrest := List.append_cancel_left htail
                  have htail' : next :: rest = next' :: rest' :=
                    ih (by simpa only [List.map_cons] using hrest)
                  rw [htail']

/-- **A key stands for one quote and one scope.** -/
theorem factKey_inj {quote quote' : JsString} {scope scope' : List JsString}
    (h : factKey quote scope = factKey quote' scope') : quote = quote' ∧ scope = scope' := by
  rw [factKey, factKey, List.append_assoc, List.append_assoc] at h
  obtain ⟨rfl, hscope⟩ := quote_append_inj (List.append_cancel_left h)
  exact ⟨rfl, quotes_inj (List.append_cancel_left hscope)⟩

/-! ## What a fact cites -/

/-- The passages of a source have different ids. -/
theorem nodup_ids (source : JsString) :
    ((coverageSourcePassages source).map SourcePassage.id).Nodup := by
  obtain ⟨-, hconsecutive, -⟩ := coverageSourcePassages_spec source
  have hids : (coverageSourcePassages source).map SourcePassage.id =
      List.range (coverageSourcePassages source).length := by
    refine List.ext_getElem (by simp) fun i hi _ => ?_
    rw [List.length_map] at hi
    obtain ⟨hid, -⟩ := hconsecutive i _ (List.getElem?_eq_getElem hi)
    rw [List.getElem_map, List.getElem_range, hid, Nat.zero_add]
  rw [hids]
  exact List.nodup_range

theorem passageOf_eq_some_iff {source : JsString} {id : ℕ} {passage : SourcePassage} :
    passageOf (coverageSourcePassages source) id = some passage ↔
      passage ∈ coverageSourcePassages source ∧ passage.id = id := by
  have hkeys : (((coverageSourcePassages source).map fun passage => (passage.id, passage)).map
      Prod.fst).Nodup := by
    rw [List.map_map]
    exact nodup_ids source
  constructor
  · intro h
    obtain ⟨other, hother, heq⟩ := List.mem_map.mp (JsMap.mem_of_get h)
    cases heq
    exact ⟨hother, rfl⟩
  · rintro ⟨hmem, rfl⟩
    exact JsMap.get_of_mem hkeys (List.mem_map.mpr ⟨passage, hmem, rfl⟩)

/-- A fact cites one place. -/
theorem CitesAt.unique {source : JsString} {fact : SourceFact} {passage other : SourcePassage}
    {index place : ℕ} (h : CitesAt source fact passage index)
    (hother : CitesAt source fact other place) : other = passage ∧ place = index := by
  have hpassage := passageOf_eq_some_iff.2 ⟨h.1, h.2.1⟩
  rw [passageOf_eq_some_iff.2 ⟨hother.1, hother.2.1⟩] at hpassage
  obtain rfl := Option.some.inj hpassage
  exact ⟨rfl, Option.some.inj (hother.2.2.symm.trans h.2.2)⟩

theorem CitesAt.le {source : JsString} {fact : SourceFact} {passage : SourcePassage} {index : ℕ}
    (h : CitesAt source fact passage index) : index ≤ passage.text.length :=
  (mem_occurrences.1 (List.mem_of_getElem? h.2.2)).1

/-- The quote stands in the source where the fact cites it. -/
theorem CitesAt.isPrefix {source : JsString} {fact : SourceFact} {passage : SourcePassage}
    {index : ℕ} (h : CitesAt source fact passage index) :
    fact.quote <+: source.drop (passage.offset + index) := by
  have htext : passage.text <+: source.drop passage.offset := by
    rw [(coverageSourcePassages_isPassage h.1).text, slice, ← List.take_drop]
    exact List.take_prefix _ _
  have hquote := (mem_occurrences.1 (List.mem_of_getElem? h.2.2)).2
  rw [← List.drop_drop]
  exact hquote.trans (htext.drop index)

/-! ## Accepted facts -/

theorem mem_of_mapM_except {ε α β : Type} {f : α → Except ε β} {items : List α} {values : List β}
    (h : items.mapM f = .ok values) {value : β} (hvalue : value ∈ values) :
    ∃ item ∈ items, f item = .ok value := by
  induction items generalizing values with
  | nil =>
      cases h
      cases hvalue
  | cons item rest ih =>
      rw [List.mapM_cons] at h
      cases hfirst : f item with
      | error e =>
          rw [hfirst] at h
          cases h
      | ok first =>
          cases hrest : rest.mapM f with
          | error e =>
              rw [hfirst, hrest] at h
              cases h
          | ok others =>
              rw [hfirst, hrest] at h
              cases h
              rcases List.mem_cons.mp hvalue with rfl | hmem
              · exact ⟨item, List.mem_cons_self, hfirst⟩
              · obtain ⟨found, hfound, heq⟩ := ih hrest hmem
                exact ⟨found, List.mem_cons_of_mem _ hfound, heq⟩

/-- A fact that is read cites a passage in which its quote is found. -/
theorem readFact_ok {passages : List SourcePassage} {requested : List JsString} {value : JsValue}
    {fact : SourceFact} (h : readFact passages requested value = .ok fact) :
    ∃ passage ∈ passages, passage.id = fact.passageId ∧
      ∃ index, quoteOffset passage.text fact.quote fact.occurrence = some index := by
  unfold readFact at h
  split at h
  · rename_i sourceIds passage quote _ hpassage _
    obtain ⟨id, -, hfound⟩ := Option.bind_eq_some_iff.mp hpassage
    obtain ⟨found, hmem, heq⟩ := List.mem_map.mp (JsMap.mem_of_get hfound)
    cases heq
    split at h
    · cases h
    · split at h
      · cases h
      · split at h
        · cases h
        · split at h
          · cases h
          · rename_i hoffset
            cases h
            obtain ⟨index, hindex⟩ := Option.ne_none_iff_exists'.mp (by simpa using hoffset)
            exact ⟨passage, hmem, rfl, index, hindex⟩
  · cases h

/-- **An accepted fact cites a place** of the source. -/
theorem Accepted.citesAt {source : JsString} {fact : SourceFact} (h : Accepted source fact) :
    ∃ passage index, CitesAt source fact passage index := by
  obtain ⟨platform, response, page, requested, facts, hpage, hfacts, hmem⟩ := h
  have hread : ∃ values : List JsValue, values.mapM (readFact page requested) = .ok facts := by
    unfold validateSourceFacts at hfacts
    split at hfacts
    · cases hfacts
    · split at hfacts
      · cases hfacts
      · split at hfacts
        · cases hfacts
        · simp only at hfacts
          split at hfacts
          · cases hfacts
          · exact ⟨_, hfacts⟩
  obtain ⟨values, hvalues⟩ := hread
  obtain ⟨value, -, hvalue⟩ := mem_of_mapM_except hvalues hmem
  obtain ⟨passage, hpassage, hid, index, hindex⟩ := readFact_ok hvalue
  rw [quoteOffset_eq] at hindex
  exact ⟨passage, index, hpage hpassage, hid, hindex⟩

/-! ## The groups after a list of facts -/

/-- What the groups hold of the facts that have been recorded. -/
structure GroupsOf (source : JsString) (facts : List SourceFact)
    (groups : List (JsString × FactGroup)) : Prop where
  unique : (groups.map Prod.fst).Nodup
  keyed : ∀ entry ∈ groups, entry.1 = factKey entry.2.quote entry.2.scope
  placed : ∀ entry ∈ groups, ∀ citation ∈ entry.2.citations, citation.1 = citation.2.offset
  recorded : ∀ fact ∈ facts, ∃ passage index, CitesAt source fact passage index ∧
    ∃ entry ∈ groups, entry.2.quote = fact.quote ∧ entry.2.scope = scopeAtQuote passage index ∧
      fact.sourceIds ⊆ entry.2.sourceIds ∧ entry.2.Cites (passage.offset + index)
  cited : ∀ entry ∈ groups, ∀ offset, entry.2.Cites offset →
    ∃ fact ∈ facts, ∃ passage index, CitesAt source fact passage index ∧
      offset = passage.offset + index ∧ entry.2.quote = fact.quote ∧
        entry.2.scope = scopeAtQuote passage index

theorem mem_addAll {values added : List JsString} {value : JsString} :
    value ∈ addAll values added ↔ value ∈ values ∨ value ∈ added := by
  induction added generalizing values with
  | nil => simp [addAll]
  | cons first rest ih =>
      have hstep : addAll values (first :: rest) =
          addAll (if values.contains first then values else values ++ [first]) rest := rfl
      rw [hstep, ih]
      by_cases hfirst : values.contains first = true
      · rw [if_pos hfirst]
        rw [List.contains_iff_mem] at hfirst
        grind
      · rw [if_neg hfirst]
        grind

/-- The group to which a fact is added: the one with its key, or a new one. -/
def groupFor (groups : List (JsString × FactGroup)) (quote : JsString) (scope : List JsString) :
    FactGroup :=
  (JsMap.get groups (factKey quote scope)).getD ⟨quote, scope, [], []⟩

/-- The group of a fact when the fact has been added. -/
def FactGroup.add (group : FactGroup) (sourceIds : List JsString) (citation : Citation) :
    FactGroup :=
  { group with
    sourceIds := addAll group.sourceIds sourceIds
    citations := JsMap.set group.citations citation.offset citation }

section Step

variable {source : JsString} {facts : List SourceFact} {groups : List (JsString × FactGroup)}
  {fact : SourceFact} {passage : SourcePassage} {index : ℕ}

theorem recordFact_eq (h : CitesAt source fact passage index) :
    recordFact (coverageSourcePassages source) groups fact =
      some (JsMap.set groups (factKey fact.quote (scopeAtQuote passage index))
        ((groupFor groups fact.quote (scopeAtQuote passage index)).add fact.sourceIds
          ⟨passage.id, passage.offset + index⟩)) := by
  have hpassage := passageOf_eq_some_iff.2 ⟨h.1, h.2.1⟩
  have hoffset := (quoteOffset_eq passage.text fact.quote fact.occurrence).trans h.2.2
  rw [recordFact, hpassage]
  simp only [Option.bind_eq_bind, Option.bind_some, hoffset, Option.pure_def]
  rfl

/-- The group of a key is new, or one of the groups and has the quote and the scope. -/
theorem groupFor_spec (hkeyed : ∀ entry ∈ groups, entry.1 = factKey entry.2.quote entry.2.scope)
    (quote : JsString) (scope : List JsString) :
    (groupFor groups quote scope).quote = quote ∧ (groupFor groups quote scope).scope = scope ∧
      ((factKey quote scope, groupFor groups quote scope) ∈ groups ∨
        (groupFor groups quote scope).citations = []) := by
  unfold groupFor
  cases hget : JsMap.get groups (factKey quote scope) with
  | none => exact ⟨rfl, rfl, .inr rfl⟩
  | some group =>
      have hmem := JsMap.mem_of_get hget
      obtain ⟨hquote, hscope⟩ := factKey_inj (hkeyed _ hmem)
      exact ⟨hquote.symm, hscope.symm, .inl hmem⟩

theorem FactGroup.cites_add {group : FactGroup} {sourceIds : List JsString} {citation : Citation}
    (hplaced : ∀ c ∈ group.citations, c.1 = c.2.offset) {offset : ℕ} :
    (group.add sourceIds citation).Cites offset ↔
      offset = citation.offset ∨ group.Cites offset := by
  simp only [FactGroup.Cites, FactGroup.add, JsMap.mem_set]
  constructor
  · rintro ⟨c, rfl | ⟨hc, -⟩, rfl⟩
    · exact .inl rfl
    · exact .inr ⟨c, hc, rfl⟩
  · rintro (rfl | ⟨c, hc, rfl⟩)
    · exact ⟨(citation.offset, citation), .inl rfl, rfl⟩
    · by_cases hsame : c.1 = citation.offset
      · exact ⟨(citation.offset, citation), .inl rfl, hsame.symm.trans (hplaced c hc)⟩
      · exact ⟨c, .inr ⟨hc, hsame⟩, rfl⟩

/-- **A recorded fact joins the group of its quote and scope**; every other group stays. -/
theorem GroupsOf.record (h : GroupsOf source facts groups)
    (hcites : CitesAt source fact passage index) :
    ∃ after, recordFact (coverageSourcePassages source) groups fact = some after ∧
      GroupsOf source (facts ++ [fact]) after := by
  refine ⟨_, recordFact_eq hcites, ?_⟩
  obtain ⟨hquote, hscope, hold⟩ :=
    groupFor_spec h.keyed fact.quote (scopeAtQuote passage index)
  generalize hgroup : groupFor groups fact.quote (scopeAtQuote passage index) = group
    at hquote hscope hold
  generalize hcitation : Citation.mk passage.id (passage.offset + index) = citation
  have hoffset : citation.offset = passage.offset + index := by rw [← hcitation]
  have hplaced : ∀ c ∈ group.citations, c.1 = c.2.offset := by
    rcases hold with hmem | hnew
    · exact h.placed _ hmem
    · intro c hc
      rw [hnew] at hc
      cases hc
  constructor
  case unique => exact JsMap.nodup_keys_set h.unique
  case keyed =>
    intro entry hentry
    rcases JsMap.mem_set.1 hentry with rfl | ⟨hmem, -⟩
    · show _ = factKey group.quote group.scope
      rw [hquote, hscope]
    · exact h.keyed entry hmem
  case placed =>
    intro entry hentry c hc
    rcases JsMap.mem_set.1 hentry with rfl | ⟨hmem, -⟩
    · rcases JsMap.mem_set.1 hc with rfl | ⟨hc, -⟩
      · rfl
      · exact hplaced c hc
    · exact h.placed entry hmem c hc
  case recorded =>
    intro other hother
    rcases List.mem_append.mp hother with hmem | hlast
    · obtain ⟨otherPassage, place, hplace, entry, hentry, hq, hs, hids, hat⟩ :=
        h.recorded other hmem
      by_cases hkey : entry.1 = factKey fact.quote (scopeAtQuote passage index)
      · have hfound : groupFor groups fact.quote (scopeAtQuote passage index) = entry.2 := by
          rw [groupFor, ← hkey, JsMap.get_of_mem h.unique hentry, Option.getD_some]
        obtain rfl : group = entry.2 := hgroup.symm.trans hfound
        refine ⟨otherPassage, place, hplace, _, JsMap.mem_set.2 (.inl rfl), hq, hs, ?_, ?_⟩
        · exact fun id hid => mem_addAll.2 (.inl (hids hid))
        · exact (FactGroup.cites_add hplaced).mpr (.inr hat)
      · exact ⟨otherPassage, place, hplace, entry, JsMap.mem_set.2 (.inr ⟨hentry, hkey⟩), hq, hs,
          hids, hat⟩
    · obtain rfl := List.mem_singleton.mp hlast
      refine ⟨passage, index, hcites, _, JsMap.mem_set.2 (.inl rfl), hquote, hscope, ?_, ?_⟩
      · exact fun id hid => mem_addAll.2 (.inr hid)
      · exact (FactGroup.cites_add hplaced).mpr (.inl hoffset.symm)
  case cited =>
    intro entry hentry offset hat
    rcases JsMap.mem_set.1 hentry with rfl | ⟨hmem, -⟩
    · rcases (FactGroup.cites_add hplaced).mp hat with rfl | hbefore
      · exact ⟨fact, by simp, passage, index, hcites, hoffset, hquote, hscope⟩
      · rcases hold with hmem | hnew
        · obtain ⟨other, hother, found⟩ := h.cited _ hmem offset hbefore
          exact ⟨other, List.mem_append_left _ hother, found⟩
        · obtain ⟨c, hc, -⟩ := hbefore
          rw [hnew] at hc
          cases hc
    · obtain ⟨other, hother, found⟩ := h.cited entry hmem offset hat
      exact ⟨other, List.mem_append_left _ hother, found⟩

end Step

/-- **After any list of accepted facts** the groups hold what has been recorded. -/
theorem aggregateSourceFacts_groupsOf {source : JsString} {facts : List SourceFact}
    (h : ∀ fact ∈ facts, Accepted source fact) :
    ∃ groups, aggregateSourceFacts facts (coverageSourcePassages source) = some groups ∧
      GroupsOf source facts groups := by
  induction facts using List.reverseRecOn with
  | nil => exact ⟨[], rfl, List.nodup_nil, by simp, by simp, by simp, by simp⟩
  | append_singleton facts fact ih =>
      obtain ⟨groups, hgroups, hold⟩ := ih fun other hother => h other (by simp [hother])
      obtain ⟨passage, index, hcites⟩ := (h fact (by simp)).citesAt
      obtain ⟨after, hafter, hnew⟩ := hold.record hcites
      refine ⟨after, ?_, hnew⟩
      rw [aggregateSourceFacts, List.foldlM_append, ← aggregateSourceFacts, hgroups]
      simp [hafter]

/-! ## The result -/

/-- **The groups of accepted facts are sound** exactly when for every fact the lines that
are cut before its quote agree with the whole lines. -/
theorem factsSound_iff {source : JsString} {facts : List SourceFact}
    (haccepted : ∀ fact ∈ facts, Accepted source fact) :
    ∃ groups, aggregateSourceFacts facts (coverageSourcePassages source) = some groups ∧
      (FactsSound source facts (groups.map Prod.snd) ↔
        ∀ fact ∈ facts, ∀ passage index, CitesAt source fact passage index →
          CutLinesAgree source passage.offset (passage.offset + index)) := by
  obtain ⟨groups, hgroups, h⟩ := aggregateSourceFacts_groupsOf haccepted
  refine ⟨groups, hgroups, fun hsound fact hfact passage index hcites => ?_, fun hagree => ?_⟩
  · obtain ⟨other, place, hplace, entry, hentry, -, hscope, -, hat⟩ := h.recorded fact hfact
    obtain ⟨rfl, rfl⟩ := hcites.unique hplace
    have hchain := (hsound.enclosed _ (List.mem_map_of_mem hentry) _ hat).2
    rw [← scopeAtQuote_eq_chain_iff hcites.1 hcites.le, ← hscope]
    exact hchain
  · constructor
    case recorded =>
      intro fact hfact
      obtain ⟨passage, index, hcites, entry, hentry, hquote, -, hids, hat⟩ := h.recorded fact hfact
      exact ⟨passage, index, hcites, entry.2, List.mem_map_of_mem hentry, hquote, hids, hat⟩
    case enclosed =>
      intro group hgroup offset hat
      obtain ⟨entry, hentry, rfl⟩ := List.mem_map.mp hgroup
      obtain ⟨fact, hfact, passage, index, hcites, rfl, hquote, hscope⟩ :=
        h.cited entry hentry offset hat
      refine ⟨hquote ▸ hcites.isPrefix, hscope.trans ?_⟩
      exact (scopeAtQuote_eq_chain_iff hcites.1 hcites.le).mpr
        (hagree fact hfact passage index hcites)

/-! ## A quote in a heading -/

/-- A heading, and a line below it. -/
def titledSource : JsString :=
  js "# Alpha beta\nText."

def titledPassage : SourcePassage :=
  ⟨0, 0, titledSource, []⟩

/-- A fact that quotes the heading itself. -/
def headingFact : SourceFact :=
  ⟨[js "AC-1"], 0, js "beta", none⟩

/-- A fact that quotes the line. -/
def lineFact : SourceFact :=
  ⟨[js "AC-1"], 0, js "Text.", none⟩

/-- What a worker answers that reports one fact. -/
def oneFactResponse (fact : SourceFact) : JsValue :=
  .record [("complete", .bool true), ("inspectedCount", .num (.int 1)),
    ("accountedSourceIds", .arr [.text "AC-1"]),
    ("facts", .arr [.record [("sourceIds", .arr (fact.sourceIds.map .str)),
      ("passageId", .num (.int fact.passageId)), ("quote", .str fact.quote)]])]

theorem mem_titledPassage : titledPassage ∈ coverageSourcePassages titledSource := by
  have hend : passageEnd titledSource 0 = titledSource.length := by decide
  have hcontext : enterHeadings 0 [] (headings titledSource) = ([], headings titledSource) := by
    decide
  rw [coverageSourcePassages, passagesFrom_of_lt (by decide), hend, hcontext]
  refine List.mem_cons.mpr (.inl ?_)
  rw [titledPassage, slice, List.take_length, List.drop_zero]

theorem accepted_of_response {fact : SourceFact}
    (h : validateSourceFacts ⟨fun _ => some (oneFactResponse fact), fun _ => 0⟩ [] [titledPassage]
      [js "AC-1"] = .ok [fact]) : Accepted titledSource fact :=
  ⟨_, _, _, _, _, by simpa using mem_titledPassage, h, List.mem_cons_self⟩

theorem accepted_headingFact : Accepted titledSource headingFact :=
  accepted_of_response (by decide)

theorem accepted_lineFact : Accepted titledSource lineFact :=
  accepted_of_response (by decide)

theorem citesAt_headingFact : CitesAt titledSource headingFact titledPassage 8 :=
  ⟨mem_titledPassage, rfl, by decide⟩

theorem citesAt_lineFact : CitesAt titledSource lineFact titledPassage 13 :=
  ⟨mem_titledPassage, rfl, by decide⟩

/-- A quote in a heading is recorded under the part of the heading before it. -/
theorem headingFact_not_sound :
    ¬∀ source facts, (∀ fact ∈ facts, Accepted source fact) →
      ∃ groups, aggregateSourceFacts facts (coverageSourcePassages source) = some groups ∧
        FactsSound source facts (groups.map Prod.snd) := by
  intro h
  obtain ⟨groups, hgroups, hsound⟩ := h titledSource [headingFact]
    (List.forall_mem_singleton.mpr accepted_headingFact)
  have hrecorded := @recordFact_eq _ [] _ _ _ citesAt_headingFact
  rw [aggregateSourceFacts, List.foldlM_cons, hrecorded] at hgroups
  obtain rfl := Option.some.inj hgroups
  have hscope := (hsound.enclosed _ List.mem_cons_self 8
    ⟨(8, ⟨0, 8⟩), List.mem_cons_self, rfl⟩).2
  exact absurd hscope (by decide)

theorem factsSound_lineFact :
    ∃ groups, aggregateSourceFacts [lineFact] (coverageSourcePassages titledSource) = some groups ∧
      FactsSound titledSource [lineFact] (groups.map Prod.snd) := by
  obtain ⟨groups, hgroups, hiff⟩ :=
    factsSound_iff (List.forall_mem_singleton.mpr accepted_lineFact)
  refine ⟨groups, hgroups, hiff.mpr (List.forall_mem_singleton.mpr fun passage index hcites => ?_)⟩
  obtain ⟨rfl, rfl⟩ := citesAt_lineFact.unique hcites
  show outline _ _ = outline _ _
  decide +kernel

end Hepha.Coverage
