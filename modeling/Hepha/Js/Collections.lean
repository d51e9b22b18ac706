import Mathlib.Data.List.Dedup
import Mathlib.Data.List.Perm.Subperm

/-!
# Sets and maps built from arrays

The modelled code builds a `Set` or a `Map` from an array and reads its size
or its members.  Both are kept here as the array they are built from: the size
of `new Set(values)` is the number of distinct values, and in
`new Map(entries)` the last entry of a key wins.

The last section is about two arrays compared as multisets of keys: when one
has no repeated key, is as long as the other and has only the other's keys,
the two lists of keys are permutations of each other.
-/

namespace Hepha

variable {α β : Type*} [DecidableEq α]

/-- `new Set(values).size`. -/
def setSize (values : List α) : ℕ :=
  values.dedup.length

/-- `new Set(values).size === values.length`. -/
def hasUniqueValues (values : List α) : Bool :=
  setSize values == values.length

theorem setSize_eq_length {values : List α} : setSize values = values.length ↔ values.Nodup := by
  constructor
  · intro h
    exact List.dedup_eq_self.mp ((List.dedup_sublist values).eq_of_length h)
  · intro h
    rw [setSize, h.dedup]

@[simp] theorem hasUniqueValues_iff {values : List α} :
    hasUniqueValues values = true ↔ values.Nodup := by
  simp [hasUniqueValues, setSize_eq_length]

namespace JsMap

/-- `new Map(entries).get(key)`: the last entry of a key wins. -/
def get (entries : List (α × β)) (key : α) : Option β :=
  entries.reverse.lookup key

/-- `new Map(entries).size`. -/
def size (entries : List (α × β)) : ℕ :=
  setSize (entries.map Prod.fst)

theorem mem_of_get {entries : List (α × β)} {key : α} {value : β}
    (h : get entries key = some value) : (key, value) ∈ entries := by
  obtain ⟨before, after, heq, -⟩ := List.lookup_eq_some_iff.mp h
  rw [← List.mem_reverse, heq]
  simp

theorem get_eq_none_iff {entries : List (α × β)} {key : α} :
    get entries key = none ↔ key ∉ entries.map Prod.fst := by
  simp only [get, List.lookup_eq_none_iff, List.mem_reverse, bne_iff_ne, List.mem_map, not_exists,
    not_and]
  exact ⟨fun h p hp heq => h p hp heq.symm, fun h p hp heq => h p hp heq.symm⟩

/-- A map whose keys are all different returns what it was given. -/
theorem get_of_mem {entries : List (α × β)} (hnodup : (entries.map Prod.fst).Nodup) {key : α}
    {value : β} (h : (key, value) ∈ entries) : get entries key = some value := by
  cases hget : get entries key with
  | none => exact absurd (List.mem_map_of_mem h) (get_eq_none_iff.1 hget)
  | some other =>
      have := List.inj_on_of_nodup_map hnodup (mem_of_get hget) h rfl
      cases this
      rfl

theorem get_eq_some_iff {entries : List (α × β)} {key : α} {value : β} :
    get entries key = some value ↔ ∃ before after, entries = before ++ (key, value) :: after ∧
      key ∉ after.map Prod.fst := by
  rw [get, List.lookup_eq_some_iff]
  constructor
  · rintro ⟨after, before, heq, hafter⟩
    refine ⟨before.reverse, after.reverse, ?_, ?_⟩
    · rw [← List.reverse_reverse entries, heq]
      simp
    · rintro hmem
      obtain ⟨entry, hentry, rfl⟩ := List.mem_map.mp hmem
      simpa using hafter entry (List.mem_reverse.mp hentry)
  · rintro ⟨before, after, rfl, hafter⟩
    refine ⟨after.reverse, before.reverse, by simp, fun entry hentry => ?_⟩
    rw [bne_iff_ne]
    rintro rfl
    exact hafter (List.mem_map_of_mem (List.mem_reverse.mp hentry))

/-- Where the entries stand in the order of a measure, the entry of a key with the
largest measure wins. -/
theorem get_eq_some_iff_of_pairwise {entries : List (α × β)} {measure : β → ℕ}
    (h : entries.Pairwise fun entry later => measure entry.2 < measure later.2) {key : α}
    {value : β} :
    get entries key = some value ↔ (key, value) ∈ entries ∧
      ∀ other, (key, other) ∈ entries → measure other ≤ measure value := by
  constructor
  · intro hget
    refine ⟨mem_of_get hget, fun other hother => ?_⟩
    obtain ⟨before, after, rfl, hafter⟩ := get_eq_some_iff.1 hget
    rcases List.mem_append.mp hother with hmem | hmem
    · exact Nat.le_of_lt ((List.pairwise_append.mp h).2.2 _ hmem _ List.mem_cons_self)
    · rcases List.mem_cons.mp hmem with heq | hmem
      · cases heq
        exact Nat.le_refl _
      · exact absurd (List.mem_map_of_mem hmem) hafter
  · rintro ⟨hmem, hlargest⟩
    cases hget : get entries key with
    | none => exact absurd (List.mem_map_of_mem hmem) (get_eq_none_iff.1 hget)
    | some found =>
        have hle := hlargest found (mem_of_get hget)
        obtain ⟨before, after, rfl, hafter⟩ := get_eq_some_iff.1 hget
        rcases List.mem_append.mp hmem with hmem | hmem
        · have hlt := (List.pairwise_append.mp h).2.2 _ hmem _ List.mem_cons_self
          exact absurd hlt (Nat.not_lt_of_le hle)
        · rcases List.mem_cons.mp hmem with heq | hmem
          · cases heq
            rfl
          · exact absurd (List.mem_map_of_mem hmem) hafter

/-- `map.set(key, value)`: a key that the map has keeps its place. -/
def set (entries : List (α × β)) (key : α) (value : β) : List (α × β) :=
  if key ∈ entries.map Prod.fst then
    entries.map fun entry => if entry.1 = key then (key, value) else entry
  else entries ++ [(key, value)]

theorem keys_set {entries : List (α × β)} {key : α} {value : β} :
    (set entries key value).map Prod.fst =
      if key ∈ entries.map Prod.fst then entries.map Prod.fst
      else entries.map Prod.fst ++ [key] := by
  unfold set
  split
  · rw [List.map_map]
    refine List.map_congr_left fun entry _ => ?_
    by_cases h : entry.1 = key <;> simp [h]
  · rw [List.map_append, List.map_singleton]

theorem mem_set {entries : List (α × β)} {key : α} {value : β} {entry : α × β} :
    entry ∈ set entries key value ↔ entry = (key, value) ∨ (entry ∈ entries ∧ entry.1 ≠ key) := by
  unfold set
  split
  · rename_i hkey
    obtain ⟨old, hold, rfl⟩ := List.mem_map.mp hkey
    rw [List.mem_map]
    constructor
    · rintro ⟨other, hother, rfl⟩
      by_cases h : other.1 = old.1
      · simp [h]
      · simp [h, hother]
    · rintro (rfl | ⟨hmem, hne⟩)
      · exact ⟨old, hold, if_pos rfl⟩
      · exact ⟨entry, hmem, if_neg hne⟩
  · rename_i hkey
    rw [List.mem_append, List.mem_singleton, or_comm]
    refine or_congr_right ⟨fun hmem => ⟨hmem, fun heq => hkey ?_⟩, And.left⟩
    exact heq ▸ List.mem_map_of_mem hmem

theorem nodup_keys_set {entries : List (α × β)} {key : α} {value : β}
    (h : (entries.map Prod.fst).Nodup) : ((set entries key value).map Prod.fst).Nodup := by
  rw [keys_set]
  split
  · exact h
  · rename_i hkey
    exact (List.nodup_append_comm.mp (List.nodup_cons.mpr ⟨hkey, h⟩))

theorem lookup_map_replace (entries : List (α × β)) (key k : α) (value : β) :
    (entries.map fun entry => if entry.1 = key then (key, value) else entry).lookup k =
      if k = key then (entries.lookup key).map fun _ => value else entries.lookup k := by
  induction entries with
  | nil => simp
  | cons entry rest ih =>
      obtain ⟨name, old⟩ := entry
      rw [List.map_cons]
      by_cases hname : name = key
      · subst hname
        by_cases hk : k = name
        · subst hk
          simp
        · simp [List.lookup_cons, beq_false_of_ne hk, ih, hk]
      · by_cases hk : k = key
        · subst hk
          simp [List.lookup_cons, hname, beq_false_of_ne (Ne.symm hname), ih]
        · by_cases hkn : k = name
          · subst hkn
            simp [hname]
          · simp [List.lookup_cons, hname, beq_false_of_ne hkn, ih, hk]

/-- What a map answers after `map.set(key, value)`. -/
theorem get_set (entries : List (α × β)) (key k : α) (value : β) :
    get (set entries key value) k = if k = key then some value else get entries k := by
  unfold set
  split
  · rename_i hkey
    rw [get, ← List.map_reverse, lookup_map_replace]
    split
    · obtain ⟨old, hold⟩ : ∃ old, entries.reverse.lookup key = some old := by
        refine Option.ne_none_iff_exists'.mp fun hnone => ?_
        exact get_eq_none_iff.1 hnone hkey
      rw [hold, Option.map_some]
    · rfl
  · rw [get, List.reverse_append, List.reverse_singleton, List.singleton_append, List.lookup_cons]
    by_cases hk : k = key
    · simp [hk]
    · simp [hk, beq_false_of_ne hk, get]

/-- A map that is filled with different keys holds its entries in their order. -/
theorem foldl_set {ι : Type} {key : ι → α} {value : ι → β} {items : List ι}
    (hnodup : (items.map key).Nodup) (entries : List (α × β))
    (hnew : ∀ item ∈ items, key item ∉ entries.map Prod.fst) :
    items.foldl (fun entries item => set entries (key item) (value item)) entries =
      entries ++ items.map fun item => (key item, value item) := by
  induction items generalizing entries with
  | nil => simp
  | cons item rest ih =>
      obtain ⟨hnot, hrest⟩ := List.nodup_cons.mp hnodup
      have hset : set entries (key item) (value item) = entries ++ [(key item, value item)] :=
        if_neg (hnew item List.mem_cons_self)
      rw [List.foldl_cons, hset, ih hrest, List.append_assoc, List.singleton_append, List.map_cons]
      intro other hother hmem
      rw [List.map_append, List.mem_append] at hmem
      rcases hmem with hmem | hmem
      · exact hnew other (List.mem_cons_of_mem _ hother) hmem
      · rw [List.map_singleton, List.mem_singleton] at hmem
        exact hnot (List.mem_map.mpr ⟨other, hother, hmem⟩)

end JsMap

/-! ## Arrays read item by item -/

section MapM

variable {γ δ : Type} {f : γ → Option δ} {items : List γ} {values : List δ}

theorem mapM_isSome (h : ∀ item ∈ items, (f item).isSome = true) :
    ∃ values, items.mapM f = some values := by
  induction items with
  | nil => exact ⟨[], rfl⟩
  | cons item rest ih =>
      obtain ⟨value, hvalue⟩ := Option.isSome_iff_exists.mp (h item (by simp))
      obtain ⟨values, hvalues⟩ := ih fun x hx => h x (by simp [hx])
      exact ⟨value :: values, by simp [hvalue, hvalues]⟩

theorem mapM_cons_eq_some {item : γ} :
    (item :: items).mapM f = some values ↔
      ∃ value rest, f item = some value ∧ items.mapM f = some rest ∧ values = value :: rest := by
  simp only [List.mapM_cons, Option.bind_eq_bind, Option.bind_eq_some_iff, Option.pure_def,
    Option.some.injEq]
  constructor
  · rintro ⟨value, hvalue, rest, hrest, rfl⟩
    exact ⟨value, rest, hvalue, hrest, rfl⟩
  · rintro ⟨value, rest, hvalue, hrest, rfl⟩
    exact ⟨value, hvalue, rest, hrest, rfl⟩

theorem exists_value_of_mapM (h : items.mapM f = some values) {item : γ} (hitem : item ∈ items) :
    ∃ value ∈ values, f item = some value := by
  induction items generalizing values with
  | nil => cases hitem
  | cons first rest ih =>
      obtain ⟨value, others, hvalue, hothers, rfl⟩ := mapM_cons_eq_some.1 h
      rcases List.mem_cons.mp hitem with rfl | hrest
      · exact ⟨value, List.mem_cons_self, hvalue⟩
      · obtain ⟨other, hmem, hother⟩ := ih hothers hrest
        exact ⟨other, List.mem_cons_of_mem _ hmem, hother⟩

theorem exists_item_of_mapM (h : items.mapM f = some values) {value : δ} (hvalue : value ∈ values) :
    ∃ item ∈ items, f item = some value := by
  induction items generalizing values with
  | nil =>
      obtain rfl : [] = values := Option.some.inj h
      cases hvalue
  | cons first rest ih =>
      obtain ⟨head, others, hhead, hothers, rfl⟩ := mapM_cons_eq_some.1 h
      rcases List.mem_cons.mp hvalue with rfl | hrest
      · exact ⟨first, List.mem_cons_self, hhead⟩
      · obtain ⟨item, hmem, hitem⟩ := ih hothers hrest
        exact ⟨item, List.mem_cons_of_mem _ hmem, hitem⟩

/-- A key of the items that their values keep. -/
theorem map_of_mapM {κ : Type} {key : γ → κ} {key' : δ → κ} (h : items.mapM f = some values)
    (hkey : ∀ item value, f item = some value → key' value = key item) :
    values.map key' = items.map key := by
  induction items generalizing values with
  | nil =>
      obtain rfl : [] = values := Option.some.inj h
      rfl
  | cons first rest ih =>
      obtain ⟨head, others, hhead, hothers, rfl⟩ := mapM_cons_eq_some.1 h
      rw [List.map_cons, List.map_cons, hkey first head hhead, ih hothers]

theorem filterMap_of_mapM (h : items.mapM f = some values) : values = items.filterMap f := by
  induction items generalizing values with
  | nil =>
      obtain rfl : [] = values := Option.some.inj h
      rfl
  | cons first rest ih =>
      obtain ⟨head, others, hhead, hothers, rfl⟩ := mapM_cons_eq_some.1 h
      rw [List.filterMap_cons_some hhead, ← ih hothers]

theorem mapM_ok {ε : Type} {g : γ → Except ε δ} {k : γ → δ}
    (h : ∀ item ∈ items, g item = .ok (k item)) : items.mapM g = .ok (items.map k) := by
  induction items with
  | nil => rfl
  | cons item rest ih =>
      rw [List.mapM_cons, h item List.mem_cons_self,
        ih fun other hother => h other (List.mem_cons_of_mem _ hother)]
      rfl

end MapM

/-! ## Arrays compared by their keys -/

/-- In an array without repeated keys, the elements with the key of `x` are `x` alone. -/
theorem filter_eq_singleton {values : List β} {key : β → α} (hnodup : (values.map key).Nodup)
    {x : β} (hx : x ∈ values) : values.filter (fun y => key y = key x) = [x] := by
  induction values with
  | nil => simp at hx
  | cons y rest ih =>
      rw [List.map_cons, List.nodup_cons] at hnodup
      rcases List.mem_cons.mp hx with rfl | hrest
      · have hnone : rest.filter (fun z => key z = key x) = [] := by
          rw [List.filter_eq_nil_iff]
          intro z hz heq
          exact hnodup.1 (of_decide_eq_true heq ▸ List.mem_map_of_mem hz)
        simp [hnone]
      · have hne : key y ≠ key x := fun heq =>
          hnodup.1 (heq ▸ List.mem_map_of_mem hrest)
        simpa [hne] using ih hnodup.2 hrest

/-! ## Arrays side by side -/

section Forall₂

variable {γ δ : Type*} {R : γ → δ → Prop} {left : List γ} {right : List δ}

theorem exists_of_forall₂ (h : List.Forall₂ R left right) {a : γ} (ha : a ∈ left) :
    ∃ b ∈ right, R a b := by
  induction h with
  | nil => cases ha
  | cons hab _ ih =>
      rcases List.mem_cons.mp ha with rfl | ha
      · exact ⟨_, List.mem_cons_self, hab⟩
      · obtain ⟨b, hb, hR⟩ := ih ha
        exact ⟨b, List.mem_cons_of_mem _ hb, hR⟩

theorem map_eq_of_forall₂ {κ : Type*} {f : γ → κ} {g : δ → κ}
    (h : List.Forall₂ (fun a b => g b = f a) left right) : right.map g = left.map f := by
  induction h with
  | nil => rfl
  | cons hab _ ih => rw [List.map_cons, List.map_cons, hab, ih]

end Forall₂

end Hepha
