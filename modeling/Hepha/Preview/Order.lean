import Hepha.Js.Collections
import Hepha.Js.Text
import Hepha.Lib.Kahn
import Mathlib.Data.List.Induction
import Mathlib.Data.Rat.Defs
import Mathlib.Algebra.Order.Ring.Rat

/-!
# The order of the candidates

The candidates of a preview are ordered by their dependencies.  A candidate waits until
all candidates it depends on are in order; of those that wait no longer, the one with the
smallest source order comes next.  What is left when nothing can be taken any more is
part of a cycle or depends on one; it follows in its old order, and the result is
blocked.

## Strategy

The maps of the code are read as functions (`degreeOf`), and its loop becomes the one of
`Kahn` (`taken_eq`, `taking_eq`).  What is left to show is that the two passes over the
candidates set up its invariant (`links_inv`).
-/

namespace Hepha.Preview

open Relation (TransGen)

/-- The fields of a candidate that the order reads.  The source order is a finite number. -/
structure DependencyCandidate where
  plannedFeatureId : JsString
  dependencyIds : List JsString
  sourceOrder : ℚ
deriving DecidableEq

structure OrderedCandidatesResult where
  ordered : List DependencyCandidate
  warnings : List JsString
  blocked : Bool

/-- The warning for a dependency that is no candidate. -/
def unresolvedDependency (featureId depId : JsString) : JsString :=
  js "Unresolved dependency: " ++ featureId ++ js " depends on " ++ depId ++
    js ", which is not in the candidate list."

def cycleDetected : JsString :=
  js "Dependency cycle detected. Some candidates cannot be fully ordered."

/-! ## The two passes over the candidates -/

/-- `candidateMap`. -/
def candidateMap (candidates : List DependencyCandidate) :
    List (JsString × DependencyCandidate) :=
  candidates.foldl (fun entries c => JsMap.set entries c.plannedFeatureId c) []

/-- `adjacency`, `inDegree` and the warnings. -/
structure Links where
  adjacency : List (JsString × List JsString)
  inDegree : List (JsString × ℤ)
  warnings : List JsString

def initialLinks (candidates : List DependencyCandidate) : Links where
  adjacency := candidates.foldl (fun entries c => JsMap.set entries c.plannedFeatureId []) []
  inDegree := candidates.foldl (fun entries c => JsMap.set entries c.plannedFeatureId 0) []
  warnings := []

/-- One dependency of a candidate. -/
def linkDependency (known : List (JsString × DependencyCandidate)) (c : DependencyCandidate)
    (s : Links) (depId : JsString) : Links :=
  if (JsMap.get known depId).isSome then
    { s with
      adjacency := JsMap.set s.adjacency depId
        ((JsMap.get s.adjacency depId).getD [] ++ [c.plannedFeatureId])
      inDegree := JsMap.set s.inDegree c.plannedFeatureId
        ((JsMap.get s.inDegree c.plannedFeatureId).getD 0 + 1) }
  else { s with warnings := s.warnings ++ [unresolvedDependency c.plannedFeatureId depId] }

def linkCandidate (known : List (JsString × DependencyCandidate)) (s : Links)
    (c : DependencyCandidate) : Links :=
  c.dependencyIds.foldl (linkDependency known c) s

def links (candidates : List DependencyCandidate) : Links :=
  candidates.foldl (linkCandidate (candidateMap candidates)) (initialLinks candidates)

/-! ## The loop -/

/-- `candidateMap.get(id)?.sourceOrder ?? 0`. -/
def sourceOrderOf (known : List (JsString × DependencyCandidate)) (id : JsString) : ℚ :=
  ((JsMap.get known id).map DependencyCandidate.sourceOrder).getD 0

/-- `queue.sort(…)`. -/
def sortQueue (known : List (JsString × DependencyCandidate)) (queue : List JsString) :
    List JsString :=
  queue.insertionSort fun a b => sourceOrderOf known a ≤ sourceOrderOf known b

/-- The loop over the queue. -/
structure Taking where
  inDegree : List (JsString × ℤ)
  queue : List JsString
  sorted : List JsString
  visitedCount : ℕ

/-- One dependent of the candidate that is taken. -/
def relaxNeighbor (s : List (JsString × ℤ) × List JsString) (neighbor : JsString) :
    List (JsString × ℤ) × List JsString :=
  let newDegree := (JsMap.get s.1 neighbor).getD 1 - 1
  (JsMap.set s.1 neighbor newDegree, if newDegree = 0 then s.2 ++ [neighbor] else s.2)

/-- One turn of the loop; nothing happens when the queue is empty. -/
def Taking.turn (known : List (JsString × DependencyCandidate))
    (adjacency : List (JsString × List JsString)) (s : Taking) : Taking :=
  match sortQueue known s.queue with
  | [] => s
  | current :: rest =>
      let relaxed := ((JsMap.get adjacency current).getD []).foldl relaxNeighbor (s.inDegree, rest)
      ⟨relaxed.1, relaxed.2, s.sorted ++ [current], s.visitedCount + 1⟩

def Taking.turns (known : List (JsString × DependencyCandidate))
    (adjacency : List (JsString × List JsString)) : ℕ → Taking → Taking
  | 0, s => s
  | fuel + 1, s => turns known adjacency fuel (s.turn known adjacency)

/-- The state before the loop. -/
def initialTaking (candidates : List DependencyCandidate) : Taking where
  inDegree := (links candidates).inDegree
  queue := sortQueue (candidateMap candidates)
    (((links candidates).inDegree.filter fun entry => entry.2 = 0).map Prod.fst)
  sorted := []
  visitedCount := 0

/-- The state after the loop, which ends after one turn for each candidate
(`taken_queue`). -/
def taken (candidates : List DependencyCandidate) : Taking :=
  (initialTaking candidates).turns (candidateMap candidates) (links candidates).adjacency
    candidates.length

/-- `if (!sorted.includes(c.plannedFeatureId)) sorted.push(c.plannedFeatureId)`. -/
def pushUnsorted (sorted : List JsString) (c : DependencyCandidate) : List JsString :=
  if c.plannedFeatureId ∈ sorted then sorted else sorted ++ [c.plannedFeatureId]

/-- `orderByDependencies`. -/
def orderByDependencies (candidates : List DependencyCandidate) : OrderedCandidatesResult :=
  let known := candidateMap candidates
  let s := taken candidates
  if s.visitedCount < candidates.length then
    { ordered := (candidates.foldl pushUnsorted s.sorted).filterMap (JsMap.get known)
      warnings := (links candidates).warnings ++ [cycleDetected]
      blocked := true }
  else
    { ordered := s.sorted.filterMap (JsMap.get known)
      warnings := (links candidates).warnings
      blocked := false }

/-! ## What the order promises -/

/-- The dependencies of a candidate that are candidates. -/
def candidateDependencies (candidates : List DependencyCandidate) (c : DependencyCandidate) :
    List JsString :=
  c.dependencyIds.filter (· ∈ candidates.map DependencyCandidate.plannedFeatureId)

/-- The dependency graph, restricted to the candidates. -/
def DependsOn (candidates : List DependencyCandidate) (a b : JsString) : Prop :=
  ∃ c ∈ candidates, c.plannedFeatureId = a ∧ b ∈ candidateDependencies candidates c

structure DependencyOrder (candidates : List DependencyCandidate)
    (result : OrderedCandidatesResult) : Prop where
  /-- No candidate is lost or comes twice. -/
  perm : result.ordered.Perm candidates
  /-- The result is blocked exactly by a cycle. -/
  blocked_iff : result.blocked = true ↔ ∃ id, TransGen (DependsOn candidates) id id
  /-- A candidate comes after its dependencies. -/
  after : result.blocked = false → ∀ before c after, result.ordered = before ++ c :: after →
    ∀ depId ∈ candidateDependencies candidates c,
      depId ∈ before.map DependencyCandidate.plannedFeatureId
  /-- Of the candidates whose dependencies are placed, the first one comes next. -/
  least : result.blocked = false → ∀ before c after, result.ordered = before ++ c :: after →
    ∀ other ∈ candidates, other ∉ before → (∀ depId ∈ candidateDependencies candidates other,
      depId ∈ before.map DependencyCandidate.plannedFeatureId) → c.sourceOrder ≤ other.sourceOrder
  /-- Every dependency outside the list has its warning. -/
  warnings : result.warnings = (candidates.flatMap fun c =>
      (c.dependencyIds.filter (· ∉ candidates.map DependencyCandidate.plannedFeatureId)).map
        (unresolvedDependency c.plannedFeatureId)) ++
    if result.blocked then [cycleDetected] else []

/-! ## The maps -/

section Maps

variable {candidates : List DependencyCandidate}

/-- The ids of the candidates. -/
abbrev ids (candidates : List DependencyCandidate) : List JsString :=
  candidates.map DependencyCandidate.plannedFeatureId

variable (hdistinct : (ids candidates).Nodup)

include hdistinct

theorem candidateMap_eq : candidateMap candidates =
    candidates.map fun c => (c.plannedFeatureId, c) :=
  (JsMap.foldl_set hdistinct [] (by simp)).trans (List.nil_append _)

theorem get_candidateMap {c : DependencyCandidate} (hc : c ∈ candidates) :
    JsMap.get (candidateMap candidates) c.plannedFeatureId = some c := by
  rw [candidateMap_eq hdistinct]
  refine JsMap.get_of_mem ?_ (List.mem_map.mpr ⟨c, hc, rfl⟩)
  rw [List.map_map]
  exact hdistinct

theorem isSome_candidateMap {id : JsString} :
    (JsMap.get (candidateMap candidates) id).isSome = true ↔ id ∈ ids candidates := by
  have hnone := @JsMap.get_eq_none_iff _ _ _ (candidateMap candidates) id
  rw [candidateMap_eq hdistinct, List.map_map] at hnone
  rw [candidateMap_eq hdistinct, ← Option.ne_none_iff_isSome, ne_eq, hnone, not_not]
  rfl

/-- Ids of candidates and the candidates they belong to. -/
theorem map_filterMap_get {l : List JsString} (hl : l ⊆ ids candidates) :
    (l.filterMap (JsMap.get (candidateMap candidates))).map
      DependencyCandidate.plannedFeatureId = l := by
  induction l with
  | nil => rfl
  | cons id rest ih =>
      obtain ⟨hid, hrest⟩ := List.cons_subset.mp hl
      obtain ⟨c, hc, rfl⟩ := List.mem_map.mp hid
      rw [List.filterMap_cons_some (get_candidateMap hdistinct hc), List.map_cons, ih hrest]

theorem filterMap_get_ids :
    (ids candidates).filterMap (JsMap.get (candidateMap candidates)) = candidates := by
  rw [List.filterMap_map]
  refine (List.filterMap_congr fun c hc => ?_).trans List.filterMap_some
  exact get_candidateMap hdistinct hc

theorem sourceOrderOf_candidate {c : DependencyCandidate} (hc : c ∈ candidates) :
    sourceOrderOf (candidateMap candidates) c.plannedFeatureId = c.sourceOrder := by
  rw [sourceOrderOf, get_candidateMap hdistinct hc]
  rfl

end Maps

/-! ## The passes as one -/

/-- Each candidate with each of its dependencies. -/
def dependencyPairs (candidates : List DependencyCandidate) : List (JsString × JsString) :=
  candidates.flatMap fun c => c.dependencyIds.map fun depId => (c.plannedFeatureId, depId)

/-- The dependencies that the pairs name for a candidate. -/
def openDependencies (known : List JsString) (pairs : List (JsString × JsString))
    (id : JsString) : List JsString :=
  (pairs.filter fun pair => pair.1 = id ∧ pair.2 ∈ known).map Prod.snd

theorem openDependencies_snoc (known : List JsString) (pairs : List (JsString × JsString))
    (pair : JsString × JsString) (id : JsString) :
    openDependencies known (pairs ++ [pair]) id = openDependencies known pairs id ++
      if pair.1 = id ∧ pair.2 ∈ known then [pair.2] else [] := by
  unfold openDependencies
  rw [List.filter_append, List.map_append, List.filter_singleton]
  by_cases h : pair.1 = id ∧ pair.2 ∈ known <;> simp [h]

theorem links_eq (candidates : List DependencyCandidate) :
    links candidates = (dependencyPairs candidates).foldl (fun s pair =>
      linkDependency (candidateMap candidates) ⟨pair.1, [], 0⟩ s pair.2)
        (initialLinks candidates) := by
  rw [links, dependencyPairs, List.foldl_flatMap]
  refine List.foldl_ext _ _ _ fun s c _ => ?_
  rw [linkCandidate, List.foldl_map]
  rfl

/-- What the maps hold once some pairs are linked. -/
structure Linked (known : List JsString) (pairs : List (JsString × JsString)) (s : Links) :
    Prop where
  inDegree : ∀ id ∈ known,
    JsMap.get s.inDegree id = some ((openDependencies known pairs id).length : ℤ)
  keys : s.inDegree.map Prod.fst = known
  adjacency : ∀ depId ∈ known, ∀ id ∈ known,
    ((JsMap.get s.adjacency depId).getD []).count id = (openDependencies known pairs id).count depId
  sub : ∀ depId, (JsMap.get s.adjacency depId).getD [] ⊆ known
  warnings : s.warnings = (pairs.filter fun pair => pair.2 ∉ known).map fun pair =>
    unresolvedDependency pair.1 pair.2

theorem initialLinks_linked {candidates : List DependencyCandidate}
    (hdistinct : (ids candidates).Nodup) :
      Linked (ids candidates) [] (initialLinks candidates) := by
  have hdegrees : (initialLinks candidates).inDegree =
      candidates.map fun c => (c.plannedFeatureId, (0 : ℤ)) :=
    (JsMap.foldl_set hdistinct [] (by simp)).trans (List.nil_append _)
  have hlists : (initialLinks candidates).adjacency =
      candidates.map fun c => (c.plannedFeatureId, []) :=
    (JsMap.foldl_set hdistinct [] (by simp)).trans (List.nil_append _)
  have hkeys : (initialLinks candidates).inDegree.map Prod.fst = ids candidates := by
    rw [hdegrees, List.map_map]
    rfl
  have hempty (depId : JsString) :
      (JsMap.get (initialLinks candidates).adjacency depId).getD [] = [] := by
    cases hget : JsMap.get (initialLinks candidates).adjacency depId with
    | none => rfl
    | some neighbors =>
        have hmem := JsMap.mem_of_get hget
        rw [hlists] at hmem
        obtain ⟨c, -, heq⟩ := List.mem_map.mp hmem
        cases heq
        rfl
  refine ⟨fun id hid => ?_, hkeys, fun depId _ id _ => ?_, fun depId => ?_, rfl⟩
  · refine JsMap.get_of_mem (hkeys ▸ hdistinct) ?_
    obtain ⟨c, hc, rfl⟩ := List.mem_map.mp hid
    rw [hdegrees]
    exact List.mem_map.mpr ⟨c, hc, rfl⟩
  · rw [hempty]
    rfl
  · rw [hempty]
    exact List.nil_subset _

theorem Linked.snoc {candidates : List DependencyCandidate} (hdistinct : (ids candidates).Nodup)
    {pairs : List (JsString × JsString)} {pair : JsString × JsString} {s : Links}
    (h : Linked (ids candidates) pairs s) (hpair : pair.1 ∈ ids candidates) :
    Linked (ids candidates) (pairs ++ [pair])
      (linkDependency (candidateMap candidates) ⟨pair.1, [], 0⟩ s pair.2) := by
  unfold linkDependency
  have hknown := @isSome_candidateMap _ hdistinct pair.2
  by_cases hdep : pair.2 ∈ ids candidates
  · rw [if_pos (hknown.mpr hdep)]
    refine ⟨fun id hid => ?_, ?_, fun depId hdepId id hid => ?_, fun depId => ?_, ?_⟩
    · dsimp only
      rw [JsMap.get_set, h.inDegree _ hpair, openDependencies_snoc]
      by_cases heq : id = pair.1
      · subst heq
        simp [hdep]
      · rw [if_neg heq, h.inDegree id hid, if_neg fun hand => heq hand.1.symm, List.append_nil]
    · dsimp only
      rw [JsMap.keys_set, if_pos (h.keys ▸ hpair), h.keys]
    · dsimp only
      rw [JsMap.get_set, openDependencies_snoc, List.count_append]
      by_cases heq : depId = pair.2
      · subst heq
        rw [if_pos rfl, Option.getD_some, List.count_append, h.adjacency _ hdepId id hid]
        by_cases hsame : pair.1 = id <;> simp [hsame, hdep]
      · rw [if_neg heq, h.adjacency depId hdepId id hid]
        by_cases hsame : pair.1 = id <;> simp [hsame, hdep, Ne.symm heq]
    · dsimp only
      rw [JsMap.get_set]
      split
      · exact List.append_subset.mpr ⟨h.sub _, List.cons_subset.mpr ⟨hpair, List.nil_subset _⟩⟩
      · exact h.sub depId
    · dsimp only
      rw [h.warnings, List.filter_append, List.filter_singleton]
      simp [hdep]
  · rw [if_neg fun hsome => hdep (hknown.mp hsome)]
    refine ⟨fun id hid => ?_, h.keys, fun depId hdepId id hid => ?_, h.sub, ?_⟩
    · rw [openDependencies_snoc, if_neg fun hand => hdep hand.2, List.append_nil]
      exact h.inDegree id hid
    · rw [openDependencies_snoc, if_neg fun hand => hdep hand.2, List.append_nil]
      exact h.adjacency depId hdepId id hid
    · dsimp only
      rw [h.warnings, List.filter_append, List.filter_singleton]
      simp [hdep]

theorem links_linked {candidates : List DependencyCandidate} (hdistinct : (ids candidates).Nodup) :
    Linked (ids candidates) (dependencyPairs candidates) (links candidates) := by
  have hpairs : ∀ pair ∈ dependencyPairs candidates, pair.1 ∈ ids candidates := by
    intro pair hpair
    obtain ⟨c, hc, hmem⟩ := List.mem_flatMap.mp hpair
    obtain ⟨depId, -, rfl⟩ := List.mem_map.mp hmem
    exact List.mem_map_of_mem hc
  rw [links_eq]
  generalize dependencyPairs candidates = pairs at hpairs
  induction pairs using List.reverseRecOn with
  | nil => exact initialLinks_linked hdistinct
  | append_singleton pairs pair ih =>
      rw [List.foldl_append]
      exact (ih fun other hother => hpairs other (List.mem_append_left _ hother)).snoc hdistinct
        (hpairs pair (by simp))

/-! ## The graph -/

section Graph

variable {candidates : List DependencyCandidate}

/-- The dependencies of an id that are candidates. -/
def dependenciesOf (candidates : List DependencyCandidate) : JsString → List JsString :=
  openDependencies (ids candidates) (dependencyPairs candidates)

/-- The ids that depend on an id. -/
def dependentsOf (candidates : List DependencyCandidate) (id : JsString) : List JsString :=
  (JsMap.get (links candidates).adjacency id).getD []

theorem mem_dependenciesOf {a b : JsString} :
    b ∈ dependenciesOf candidates a ↔ DependsOn candidates a b := by
  unfold dependenciesOf openDependencies dependencyPairs DependsOn candidateDependencies
  simp only [List.mem_map, List.mem_filter, List.mem_flatMap, decide_eq_true_eq]
  constructor
  · rintro ⟨pair, ⟨⟨c, hc, depId, hdep, rfl⟩, rfl, hknown⟩, rfl⟩
    exact ⟨c, hc, rfl, hdep, hknown⟩
  · rintro ⟨c, hc, rfl, hdep, hknown⟩
    exact ⟨(c.plannedFeatureId, b), ⟨⟨c, hc, b, hdep, rfl⟩, rfl, hknown⟩, rfl⟩

theorem edge_dependenciesOf : Kahn.Edge (dependenciesOf candidates) = DependsOn candidates := by
  funext a b
  exact propext mem_dependenciesOf

theorem dependenciesOf_sub (id : JsString) : dependenciesOf candidates id ⊆ ids candidates := by
  intro b hb
  obtain ⟨c, -, -, hdep⟩ := mem_dependenciesOf.1 hb
  simpa [candidateDependencies] using (List.mem_filter.mp hdep).2

theorem dependenciesOf_leaf {id : JsString} (hid : id ∉ ids candidates) :
    dependenciesOf candidates id = [] := by
  refine List.eq_nil_iff_forall_not_mem.mpr fun b hb => ?_
  obtain ⟨c, hc, rfl, -⟩ := mem_dependenciesOf.1 hb
  exact hid (List.mem_map_of_mem hc)

theorem mem_dependenciesOf_candidate (hdistinct : (ids candidates).Nodup)
    {c : DependencyCandidate} (hc : c ∈ candidates) {b : JsString} :
    b ∈ dependenciesOf candidates c.plannedFeatureId ↔ b ∈ candidateDependencies candidates c := by
  rw [mem_dependenciesOf]
  constructor
  · rintro ⟨other, hother, hsame, hdep⟩
    rwa [← List.inj_on_of_nodup_map hdistinct hother hc hsame]
  · intro hdep
    exact ⟨c, hc, rfl, hdep⟩

theorem graph_links (hdistinct : (ids candidates).Nodup) :
    Kahn.Graph (ids candidates) (dependenciesOf candidates) (dependentsOf candidates) where
  count v hv w hw := by
    have hcount := (links_linked hdistinct).adjacency v hv w hw
    rwa [lawful_beq_subsingleton instBEqOfDecidableEq List.instBEq]
  next_sub v _ := (links_linked hdistinct).sub v
  deps_sub v _ := dependenciesOf_sub v

end Graph

/-! ## The loop is the one of the library -/

/-- The numbers of open dependencies, as a function. -/
def degreeOf (inDegree : List (JsString × ℤ)) (id : JsString) : ℤ :=
  (JsMap.get inDegree id).getD 1

def Taking.view (s : Taking) : Kahn.State JsString :=
  ⟨degreeOf s.inDegree, s.queue, s.sorted⟩

theorem relaxNeighbor_view (s : List (JsString × ℤ) × List JsString) (neighbor : JsString) :
    (degreeOf (relaxNeighbor s neighbor).1, (relaxNeighbor s neighbor).2) =
      Kahn.relax (degreeOf s.1, s.2) neighbor := by
  refine Prod.ext (funext fun id => ?_) rfl
  dsimp only [Kahn.relax, relaxNeighbor]
  rw [Function.update_apply, degreeOf, JsMap.get_set]
  split <;> rfl

theorem foldl_relaxNeighbor (neighbors : List JsString) (s : List (JsString × ℤ) × List JsString) :
    (degreeOf (neighbors.foldl relaxNeighbor s).1, (neighbors.foldl relaxNeighbor s).2) =
      neighbors.foldl Kahn.relax (degreeOf s.1, s.2) := by
  induction neighbors generalizing s with
  | nil => rfl
  | cons neighbor rest ih =>
      rw [List.foldl_cons, List.foldl_cons, ih, relaxNeighbor_view]

section Loop

variable {known : List (JsString × DependencyCandidate)}
  {adjacency : List (JsString × List JsString)}

theorem Taking.turn_view (s : Taking) : (s.turn known adjacency).view =
    Kahn.step (fun id => (JsMap.get adjacency id).getD []) (sourceOrderOf known) s.view := by
  unfold Taking.turn Kahn.step
  rw [show (s.view.queue.insertionSort fun a b => sourceOrderOf known a ≤ sourceOrderOf known b) =
    sortQueue known s.queue from rfl]
  cases sortQueue known s.queue with
  | nil => rfl
  | cons current rest =>
      have hrelaxed := foldl_relaxNeighbor ((JsMap.get adjacency current).getD [])
        (s.inDegree, rest)
      dsimp only [Taking.view] at hrelaxed ⊢
      rw [← hrelaxed]

theorem Taking.turns_view (fuel : ℕ) (s : Taking) : (s.turns known adjacency fuel).view =
    Kahn.run (fun id => (JsMap.get adjacency id).getD []) (sourceOrderOf known) fuel s.view := by
  induction fuel generalizing s with
  | zero => rfl
  | succ fuel ih => rw [Taking.turns, Kahn.run, ih, Taking.turn_view]

/-- The candidates that are taken are counted. -/
theorem Taking.turns_count (fuel : ℕ) {s : Taking} (h : s.visitedCount = s.sorted.length) :
    (s.turns known adjacency fuel).visitedCount =
      (s.turns known adjacency fuel).sorted.length := by
  induction fuel generalizing s with
  | zero => exact h
  | succ fuel ih =>
      refine ih ?_
      unfold Taking.turn
      split
      · exact h
      · rw [List.length_append, h]
        rfl

end Loop

section Taken

variable {candidates : List DependencyCandidate} (hdistinct : (ids candidates).Nodup)

include hdistinct

/-- Before the loop the queue holds the candidates without a dependency. -/
theorem initialTaking_inv : Kahn.Inv (ids candidates) (dependenciesOf candidates)
    (sourceOrderOf (candidateMap candidates)) (initialTaking candidates).view := by
  have hlinked := links_linked hdistinct
  have hkeys : ((links candidates).inDegree.map Prod.fst).Nodup := hlinked.keys ▸ hdistinct
  have hperm := List.perm_insertionSort (fun a b => sourceOrderOf (candidateMap candidates) a ≤
    sourceOrderOf (candidateMap candidates) b)
      (((links candidates).inDegree.filter fun entry => entry.2 = 0).map Prod.fst)
  refine ⟨fun id hid => ?_, ?_, fun id => ?_, .nil, List.nil_subset _, .nil⟩
  · have hget := hlinked.inDegree id hid
    simp only [Taking.view, initialTaking, degreeOf, hget, Option.getD_some, dependenciesOf,
      List.not_mem_nil, not_false_eq_true, decide_true, List.filter_true]
  · refine hperm.nodup_iff.mpr (hkeys.sublist ?_)
    exact (List.filter_sublist).map Prod.fst
  · change id ∈ sortQueue _ _ ↔ _
    rw [sortQueue, hperm.mem_iff, Kahn.ready_iff]
    simp only [Taking.view, initialTaking, List.mem_map, List.mem_filter, decide_eq_true_eq,
      List.not_mem_nil, not_false_eq_true, decide_true, List.filter_true, true_and]
    constructor
    · rintro ⟨⟨id, _⟩, ⟨hmem, rfl⟩, rfl⟩
      have hid : id ∈ ids candidates := hlinked.keys ▸ List.mem_map_of_mem hmem
      have hget := hlinked.inDegree id hid
      rw [JsMap.get_of_mem hkeys hmem] at hget
      have hzero := Option.some.inj hget
      exact ⟨List.mem_map.mp hid, List.length_eq_zero_iff.mp (by exact_mod_cast hzero.symm)⟩
    · rintro ⟨hid, hnone⟩
      have hget := hlinked.inDegree id (List.mem_map.mpr hid)
      refine ⟨(id, 0), ⟨?_, rfl⟩, rfl⟩
      have hmem := JsMap.mem_of_get hget
      rwa [show openDependencies (ids candidates) (dependencyPairs candidates) id = [] from hnone]
        at hmem

theorem taken_inv : Kahn.Inv (ids candidates) (dependenciesOf candidates)
    (sourceOrderOf (candidateMap candidates)) (taken candidates).view := by
  rw [taken, Taking.turns_view]
  exact (initialTaking_inv hdistinct).run (graph_links hdistinct) _

/-- The loop has ended. -/
theorem taken_queue : (taken candidates).queue = [] := by
  have hrun := Kahn.run_queue (initialTaking_inv hdistinct) (graph_links hdistinct)
    candidates.length (by simp [ids])
  have hview := @Taking.turns_view (candidateMap candidates) (links candidates).adjacency
    candidates.length (initialTaking candidates)
  exact (congrArg Kahn.State.queue hview).trans hrun

/-- Fewer candidates are taken than there are exactly if there is a cycle. -/
theorem visitedCount_lt_iff : (taken candidates).visitedCount < candidates.length ↔
    ∃ id, TransGen (DependsOn candidates) id id := by
  have hinv := taken_inv hdistinct
  have hcount : (taken candidates).visitedCount = (taken candidates).sorted.length :=
    Taking.turns_count _ rfl
  have hcomplete := Kahn.complete_iff hinv (taken_queue hdistinct)
    (fun id _ => dependenciesOf_sub id) fun id => dependenciesOf_leaf
  rw [edge_dependenciesOf] at hcomplete
  have hsub : (taken candidates).sorted.Subperm (ids candidates) := hinv.nodup.subperm hinv.sub
  have hlength : (ids candidates).length = candidates.length := List.length_map _
  rw [hcount, ← hlength]
  constructor
  · intro hlt
    by_contra hnone
    have hall := hcomplete.mpr fun id hcycle => hnone ⟨id, hcycle⟩
    have := (hdistinct.subperm hall).length_le
    exact absurd hlt (Nat.not_lt.mpr this)
  · rintro ⟨id, hcycle⟩
    refine Nat.lt_of_not_le fun hle => ?_
    have hall := (hsub.perm_of_length_le hle).symm.subset
    exact hcomplete.mp hall id hcycle

end Taken

/-! ## The result -/

theorem foldl_pushUnsorted {cs : List DependencyCandidate} (hdistinct : (ids cs).Nodup)
    (sorted : List JsString) :
    cs.foldl pushUnsorted sorted = sorted ++ (ids cs).filter (· ∉ sorted) := by
  induction cs generalizing sorted with
  | nil => simp
  | cons c rest ih =>
      obtain ⟨hnot, hrest⟩ := List.nodup_cons.mp hdistinct
      rw [List.foldl_cons, ih hrest, ids, ids, List.map_cons, List.filter_cons]
      unfold pushUnsorted
      by_cases hmem : c.plannedFeatureId ∈ sorted
      · simp [hmem]
      · rw [if_neg hmem, if_pos (by simpa using hmem), List.append_assoc, List.singleton_append]
        congr 2
        refine List.filter_congr fun id hid => ?_
        have hne : id ≠ c.plannedFeatureId := fun heq => hnot (heq ▸ hid)
        simp [hne]

/-- The ids that are left after a cycle come behind the others. -/
theorem sorted_perm {sorted known : List JsString} (hsorted : sorted.Nodup) (hknown : known.Nodup)
    (hsub : sorted ⊆ known) : (sorted ++ known.filter (· ∉ sorted)).Perm known := by
  refine (List.perm_ext_iff_of_nodup ?_ hknown).mpr fun id => ?_
  · refine List.nodup_append.mpr ⟨hsorted, hknown.filter _, ?_⟩
    rintro a ha _ hb rfl
    simpa [ha] using (List.mem_filter.mp hb).2
  · rw [List.mem_append, List.mem_filter]
    constructor
    · rintro (hid | ⟨hid, -⟩)
      · exact hsub hid
      · exact hid
    · intro hid
      by_cases hmem : id ∈ sorted
      · exact .inl hmem
      · exact .inr ⟨hid, by simpa using hmem⟩

/-- **The order of the candidates**: a permutation in the order of the dependencies, and by
source order where these leave a choice; blocked exactly by a cycle. -/
theorem orderByDependencies_order {candidates : List DependencyCandidate}
    (hdistinct : (candidates.map DependencyCandidate.plannedFeatureId).Nodup) :
    (taken candidates).queue = [] ∧
      DependencyOrder candidates (orderByDependencies candidates) := by
  refine ⟨taken_queue hdistinct, ?_⟩
  have hinv := taken_inv hdistinct
  have hblocked := visitedCount_lt_iff hdistinct
  have hwarnings : (links candidates).warnings = candidates.flatMap fun c =>
      (c.dependencyIds.filter (· ∉ candidates.map DependencyCandidate.plannedFeatureId)).map
        (unresolvedDependency c.plannedFeatureId) := by
    rw [(links_linked hdistinct).warnings, dependencyPairs, List.filter_flatMap, List.map_flatMap]
    refine List.flatMap_congr fun c _ => ?_
    rw [List.filter_map, List.map_map]
    rfl
  unfold orderByDependencies
  dsimp only
  by_cases hlt : (taken candidates).visitedCount < candidates.length
  · rw [if_pos hlt]
    refine ⟨?_, ⟨fun _ => hblocked.mp hlt, fun _ => rfl⟩, fun h => ?_, fun h => ?_, ?_⟩
    · have hperm := (sorted_perm hinv.nodup hdistinct hinv.sub).filterMap
        (JsMap.get (candidateMap candidates))
      rw [filterMap_get_ids hdistinct] at hperm
      rwa [foldl_pushUnsorted hdistinct]
    · cases h
    · cases h
    · rw [hwarnings]
      rfl
  · rw [if_neg hlt]
    -- all candidates are taken
    have hall : ids candidates ⊆ (taken candidates).sorted :=
      (Kahn.complete_iff hinv (taken_queue hdistinct) (fun id _ => dependenciesOf_sub id)
        fun id => dependenciesOf_leaf).mpr fun id hcycle =>
          hlt (hblocked.mpr ⟨id, edge_dependenciesOf ▸ hcycle⟩)
    have hperm : (taken candidates).sorted.Perm (ids candidates) :=
      (List.perm_ext_iff_of_nodup hinv.nodup hdistinct).mpr fun id =>
        ⟨fun hid => hinv.sub hid, fun hid => hall hid⟩
    have hordered := hperm.filterMap (JsMap.get (candidateMap candidates))
    rw [filterMap_get_ids hdistinct] at hordered
    -- the ids of the result are those in order
    have hsplit {before after : List DependencyCandidate} {c} (hsplit : (taken candidates).sorted.filterMap
          (JsMap.get (candidateMap candidates)) = before ++ c :: after) : c ∈ candidates ∧
        (taken candidates).sorted = before.map DependencyCandidate.plannedFeatureId ++
          c.plannedFeatureId :: after.map DependencyCandidate.plannedFeatureId := by
      refine ⟨hordered.subset (hsplit ▸ by simp), ?_⟩
      have hids := map_filterMap_get hdistinct hinv.sub
      rw [show (taken candidates).view.sorted = (taken candidates).sorted from rfl, hsplit] at hids
      rw [← hids, List.map_append, List.map_cons]
    refine ⟨hordered, ⟨fun h => Bool.noConfusion h, fun h => absurd (hblocked.mpr h) hlt⟩,
      fun _ before c after heq depId hdep => ?_, fun _ before c after heq other hother hnot hready
      => ?_, ?_⟩
    · obtain ⟨hc, hsorted⟩ := hsplit heq
      exact (hinv.ordered.split hsorted).1 depId
        ((mem_dependenciesOf_candidate hdistinct hc).mpr hdep)
    · obtain ⟨hc, hsorted⟩ := hsplit heq
      have hle := (hinv.ordered.split hsorted).2 other.plannedFeatureId
        (List.mem_map_of_mem hother) ?_ fun depId hdep =>
          hready depId ((mem_dependenciesOf_candidate hdistinct hother).mp hdep)
      · rwa [sourceOrderOf_candidate hdistinct hc, sourceOrderOf_candidate hdistinct hother] at hle
      · intro hmem
        obtain ⟨same, hsame, hid⟩ := List.mem_map.mp hmem
        have hin : same ∈ candidates := by
          have hmem : same ∈ before ++ c :: after := List.mem_append_left _ hsame
          rw [← heq] at hmem
          exact hordered.subset hmem
        exact hnot (List.inj_on_of_nodup_map hdistinct hin hother hid ▸ hsame)
    · rw [hwarnings]
      simp

/-- Two candidates, of which the first one depends on the other one twice. -/
theorem orderByDependencies_order_two :
    let candidates : List DependencyCandidate :=
      [⟨js "FEAT-001", [js "FEAT-002", js "FEAT-002", js "FEAT-009"], 1⟩, ⟨js "FEAT-002", [], 2⟩]
    (taken candidates).queue = [] ∧
      DependencyOrder candidates (orderByDependencies candidates) :=
  orderByDependencies_order (by decide)

end Hepha.Preview
