import ClusterLoader.PodPairs

/-!
# What the pod pairs are

For every map of nodes with pods, and every order in which it is gone through,
no round of the loop misses a pod, so that the indices are those of the rounds.
The pods of a round are on two nodes and are not seen again. No other way to pair
the pods across nodes gives more pairs.
-/

namespace PodPairing

open GroupPairs KeyedStore PodPairs

/-- The pods of all nodes. -/
def podsOf (wp : WorkerPodMap) : List WorkerPodData := (wp.entries.map Prod.snd).flatten

/-- The number of pods on the fullest node. -/
def mostPods (wp : WorkerPodMap) : Nat := (wp.entries.map fun entry => entry.2.length).foldr max 0

def OnNode (wp : WorkerPodMap) (node : String) (pod : WorkerPodData) : Prop :=
  ∃ podList, wp.get node = some podList ∧ pod ∈ podList

/-- The pods of a pair are on different nodes, and no pod is in two pairs. -/
structure Valid (wp : WorkerPodMap) (pairing : List (WorkerPodData × WorkerPodData)) :
    Prop where
  across : ∀ pair ∈ pairing, ∃ source destination, source ≠ destination ∧
    OnNode wp source pair.1 ∧ OnNode wp destination pair.2
  once : ((members pairing).map WorkerPodData.podName).Nodup

/-- The pods of each pair by name and IP, the pairs numbered from 0. -/
def numbered (pairing : List (WorkerPodData × WorkerPodData)) : List PodPair :=
  pairing.zipIdx.map fun ((source, destination), i) => {
    index := i
    sourcePodName := source.podName
    sourcePodIP := source.podIP
    destinationPodName := destination.podName
    destinationPodIP := destination.podIP }

/-! ## The rounds -/

abbrev Popped := Except String WorkerPodData

/-- What the rounds of the loop take from the two nodes. -/
def rounds (heap : Array WorkerNodeInfo) (wp : WorkerPodMap) : List (Popped × Popped) :=
  match h : takeTwo heap with
  | none => []
  | some (firstNode, secondNode, heap') =>
    let source := pop wp firstNode.nodeName
    let destination := pop source.2 secondNode.nodeName
    have := remaining_takeTwo h
    (source.1, destination.1) :: rounds heap' destination.2
termination_by remaining heap

/-- A round with a missing pod gives no pair. -/
def pairOf : (Popped × Popped) × Nat → Option PodPair
  | ((.ok source, .ok destination), i) => some (newPodPair i source destination)
  | _ => none

variable {heap : Array WorkerNodeInfo}

theorem rounds_of_none (h : takeTwo heap = none) (wp : WorkerPodMap) : rounds heap wp = [] := by
  rw [rounds]
  split
  · rfl
  · rename_i h'
    rw [h] at h'
    cases h'

variable {first second : WorkerNodeInfo} {after : Array WorkerNodeInfo}

theorem rounds_of_some (h : takeTwo heap = some (first, second, after)) (wp : WorkerPodMap) :
    rounds heap wp =
      ((pop wp first.nodeName).1, (pop (pop wp first.nodeName).2 second.nodeName).1) ::
        rounds after (pop (pop wp first.nodeName).2 second.nodeName).2 := by
  rw [rounds]
  split
  · rename_i h'
    rw [h] at h'
    cases h'
  · rename_i h'
    rw [h] at h'
    cases h'
    rfl

theorem pairLoop_eq_rounds (heap : Array WorkerNodeInfo) (wp : WorkerPodMap) (i : Nat) :
    pairLoop heap wp i = ((rounds heap wp).zipIdx i).filterMap pairOf := by
  fun_induction pairLoop heap wp i with
  | case1 heap wp i h =>
    rw [rounds_of_none h]
    rfl
  | case2 heap wp i first second heap' h source destination decreasing sourcePod
      destinationPod hdestination hsource ih =>
    rw [rounds_of_some h, List.zipIdx_cons, ih]
    rw [hsource, hdestination]
    rfl
  | case3 heap wp i first second heap' h source destination decreasing missing ih =>
    rw [rounds_of_some h, List.zipIdx_cons, List.filterMap_cons, ih]
    have hnone : pairOf (((pop wp first.nodeName).1,
        (pop (pop wp first.nodeName).2 second.nodeName).1), i) = none := by
      unfold pairOf
      split
      · rename_i hround
        simp only [Prod.mk.injEq] at hround
        exact (missing _ _ hround.1.1 hround.1.2).elim
      · rfl
    rw [hnone]

/-! ## One round -/

variable {node : String} {pod : WorkerPodData}

variable {wp wp' : WorkerPodMap}

section
variable (h : pop wp node = (.ok pod, wp'))
include h

theorem pop_eq_ok :
    ∃ rest, wp.get node = some (rest ++ [pod]) ∧ wp' = wp.set node rest := by
  simp only [pop, podListPop] at h
  cases hget : wp.get node with
  | none => simp [hget] at h
  | some podList =>
    cases hlast : podList.getLast? with
    | none => simp [hget, hlast] at h
    | some last =>
      simp only [hget, hlast, Prod.mk.injEq, Except.ok.injEq] at h
      obtain ⟨rfl, rfl⟩ := h
      exact ⟨podList.dropLast, by rw [List.dropLast_append_getLast? last hlast], rfl⟩

/-- A pod that is popped is gone from the map, and no other. -/
theorem podsOf_pop : (podsOf wp).Perm (pod :: podsOf wp') := by
  obtain ⟨rest, hget, rfl⟩ := pop_eq_ok h
  have hbefore := ((Store.entries_perm (Map.mem_of_get hget)).map Prod.snd).flatten
  refine hbefore.trans ?_
  change ((rest ++ [pod]) ++ _).Perm (pod :: (rest ++ _))
  rw [List.append_assoc]
  exact List.perm_middle

theorem onNode_of_pop : OnNode wp node pod := by
  obtain ⟨rest, hget, _⟩ := pop_eq_ok h
  exact ⟨_, hget, List.mem_append_right _ (List.mem_singleton_self pod)⟩

theorem OnNode.of_pop {other : String} {otherPod : WorkerPodData}
    (hother : OnNode wp' other otherPod) :
    OnNode wp other otherPod := by
  obtain ⟨rest, hget, rfl⟩ := pop_eq_ok h
  obtain ⟨podList, hget', hmem⟩ := hother
  rw [Map.get_set] at hget'
  split at hget'
  · cases hget'
    subst other
    exact ⟨_, hget, List.mem_append_left _ hmem⟩
  · exact ⟨podList, hget', hmem⟩

end

theorem nodeName_ne {wp : WorkerPodMap} (matching : Matching heap wp)
    (h : takeTwo heap = some (first, second, after)) : first.nodeName ≠ second.nodeName := by
  obtain ⟨_, rest, hbefore, _⟩ := heaped_takeTwo matching.heaped h
  have distinct := (hbefore.map WorkerNodeInfo.nodeName).nodup_iff.mp matching.distinct
  intro same
  exact (List.nodup_cons.mp distinct).1 (same ▸ List.mem_cons_self)

/-! ## All rounds -/

def bothOk (pair : WorkerPodData × WorkerPodData) : Popped × Popped := (.ok pair.1, .ok pair.2)

theorem rounds_of_matching {wp : WorkerPodMap} (matching : Matching heap wp) :
    ∃ pairing : List (WorkerPodData × WorkerPodData),
      rounds heap wp = pairing.map bothOk ∧
      (∀ pair ∈ pairing, ∃ source destination, source ≠ destination ∧
        OnNode wp source pair.1 ∧ OnNode wp destination pair.2) ∧
      (members pairing).Subperm (podsOf wp) := by
  fun_induction rounds heap wp with
  | case1 heap wp h => exact ⟨[], rfl, nofun, List.nil_subperm⟩
  | case2 heap wp first second after h source destination decreasing ih =>
    obtain ⟨sourcePod, destinationPod, wp₁, wp₂, hsource, hdestination, hmatching, _⟩ :=
      matching.takeTwo h
    have hwp : destination.2 = wp₂ := by
      change (pop (pop wp first.nodeName).2 second.nodeName).2 = wp₂
      rw [hsource, hdestination]
    have hpods : (source.1, destination.1) = bothOk (sourcePod, destinationPod) := by
      change ((pop wp first.nodeName).1, (pop (pop wp first.nodeName).2 second.nodeName).1) = _
      rw [hsource, hdestination]
      rfl
    rw [hwp] at ih
    obtain ⟨pairing, hrounds, hacross, hsub⟩ := ih hmatching
    refine ⟨(sourcePod, destinationPod) :: pairing, ?_, ?_, ?_⟩
    · rw [List.map_cons, hpods, hwp, hrounds]
    · intro pair hpair
      rcases List.mem_cons.mp hpair with rfl | hpair
      · exact ⟨_, _, nodeName_ne matching h, onNode_of_pop hsource,
          (onNode_of_pop hdestination).of_pop hsource⟩
      · obtain ⟨node, node', hne, hon, hon'⟩ := hacross pair hpair
        exact ⟨node, node', hne, (hon.of_pop hdestination).of_pop hsource,
          (hon'.of_pop hdestination).of_pop hsource⟩
    · have hperm := (podsOf_pop hsource).trans ((podsOf_pop hdestination).cons sourcePod)
      refine List.Subperm.trans ?_ hperm.symm.subperm
      exact (List.subperm_cons _).mpr ((List.subperm_cons _).mpr hsub)

/-- The rounds number the pairs when none of them misses a pod. -/
theorem filterMap_bothOk (pairing : List (WorkerPodData × WorkerPodData)) :
    ((pairing.map bothOk).zipIdx).filterMap pairOf = numbered pairing := by
  rw [List.zipIdx_map, List.filterMap_map]
  exact congrFun List.filterMap_eq_map _

/-! ## No pairing has more pairs -/

theorem onNode_iff {wp : WorkerPodMap} :
    OnNode wp node pod ↔ ∃ entry ∈ wp.entries, entry.1 = node ∧ pod ∈ entry.2 := by
  constructor
  · rintro ⟨podList, hget, hmem⟩
    exact ⟨(node, podList), Map.mem_of_get hget, rfl, hmem⟩
  · rintro ⟨entry, hentry, rfl, hmem⟩
    exact ⟨entry.2, Map.get_of_mem hentry, hmem⟩

theorem OnNode.mem_podsOf {wp : WorkerPodMap} (h : OnNode wp node pod) : pod ∈ podsOf wp := by
  obtain ⟨entry, hentry, _, hmem⟩ := onNode_iff.mp h
  exact List.mem_flatten.mpr ⟨entry.2, List.mem_map_of_mem hentry, hmem⟩

/-- The names of the pods, node by node. -/
def namesByNode (wp : WorkerPodMap) : List (List String) :=
  wp.entries.map fun entry => entry.2.map WorkerPodData.podName

theorem flatten_namesByNode (wp : WorkerPodMap) :
    (namesByNode wp).flatten = (podsOf wp).map WorkerPodData.podName := by
  rw [podsOf, List.map_flatten, List.map_map]
  rfl

section Distinct

variable {wp : WorkerPodMap} (distinct : ((podsOf wp).map WorkerPodData.podName).Nodup)

include distinct

theorem node_unique {node node' : String} {pod pod' : WorkerPodData} (h : OnNode wp node pod)
    (h' : OnNode wp node' pod') (same : pod.podName = pod'.podName) : node = node' := by
  obtain ⟨entry, hentry, rfl, hmem⟩ := onNode_iff.mp h
  obtain ⟨entry', hentry', rfl, hmem'⟩ := onNode_iff.mp h'
  rw [← flatten_namesByNode, List.nodup_flatten, namesByNode, List.pairwise_map] at distinct
  by_contra hne
  have symm : Std.Symm fun a b : String × List WorkerPodData =>
      (a.2.map WorkerPodData.podName).Disjoint (b.2.map WorkerPodData.podName) :=
    ⟨fun _ _ h => h.symm⟩
  have hdisjoint := distinct.2.forall hentry hentry' fun heq => hne (congrArg Prod.fst heq)
  exact hdisjoint (List.mem_map_of_mem hmem) (same ▸ List.mem_map_of_mem hmem')

theorem Valid.length_le {pairing : List (WorkerPodData × WorkerPodData)}
    (valid : Valid wp pairing) :
    pairing.length ≤ pairs (wp.entries.map fun entry => entry.2.length : List ℕ) := by
  let names := pairing.map (Prod.map WorkerPodData.podName WorkerPodData.podName)
  have hmembers : members names = (members pairing).map WorkerPodData.podName := members_map _ _
  have inside : ∀ x ∈ members names, x ∈ (namesByNode wp).flatten := by
    rw [hmembers, flatten_namesByNode]
    refine List.map_subset _ fun pod hpod => ?_
    obtain ⟨pair, hpair, hpod⟩ := List.mem_flatMap.mp hpod
    obtain ⟨source, destination, _, hsource, hdestination⟩ := valid.across pair hpair
    rcases List.mem_pair.mp hpod with rfl | rfl
    · exact hsource.mem_podsOf
    · exact hdestination.mem_podsOf
  have across : ∀ pair ∈ names, ∀ group ∈ namesByNode wp,
      ¬ (pair.1 ∈ group ∧ pair.2 ∈ group) := by
    rintro _ hnames _ hgroup ⟨hfirst, hsecond⟩
    obtain ⟨pair, hpair, rfl⟩ := List.mem_map.mp hnames
    obtain ⟨entry, hentry, rfl⟩ := List.mem_map.mp hgroup
    obtain ⟨source, destination, hne, hsource, hdestination⟩ := valid.across pair hpair
    obtain ⟨pod, hpod, hname⟩ := List.mem_map.mp hfirst
    obtain ⟨pod', hpod', hname'⟩ := List.mem_map.mp hsecond
    have hon := node_unique distinct (onNode_iff.mpr ⟨entry, hentry, rfl, hpod⟩) hsource hname
    have hon' := node_unique distinct (onNode_iff.mpr ⟨entry, hentry, rfl, hpod'⟩)
      hdestination hname'
    exact hne (hon.symm.trans hon')
  have hle := length_le_pairs inside across (hmembers ▸ valid.once)
  rw [List.length_map, namesByNode, List.map_map] at hle
  simpa only [Function.comp_def, List.length_map] using hle

end Distinct

theorem pairs_entries (wp : WorkerPodMap) :
    pairs (wp.entries.map fun entry => entry.2.length : List ℕ) =
      min ((podsOf wp).length / 2) ((podsOf wp).length - mostPods wp) := by
  have hsum : (wp.entries.map fun entry => entry.2.length).sum = (podsOf wp).length := by
    rw [podsOf, List.length_flatten, List.map_map]
    rfl
  rw [pairs, Multiset.sum_coe, hsum]
  rfl

/-- The pairs are across nodes and disjoint, numbered from 0 without a gap, and as
many as any pairing has: no round misses a pod. -/
theorem formUniquePodPair_maximum {wp : WorkerPodMap}
    {order : List (String × List WorkerPodData)} (horder : order.Perm wp.entries)
    (nonempty : ∀ entry ∈ wp.entries, entry.2 ≠ [])
    (distinct : ((podsOf wp).map WorkerPodData.podName).Nodup) :
    ∃ pairing : List (WorkerPodData × WorkerPodData),
      rounds (nodeHeapOf order) wp = pairing.map bothOk ∧
      formUniquePodPair wp order = numbered pairing ∧
      (formUniquePodPair wp order).map PodPair.index = List.range pairing.length ∧
      Valid wp pairing ∧
      pairing.length = min ((podsOf wp).length / 2) ((podsOf wp).length - mostPods wp) ∧
      ∀ other, Valid wp other → other.length ≤ pairing.length := by
  have matching := matching_nodeHeapOf horder fun entry hentry =>
    List.length_pos_of_ne_nil (nonempty entry hentry)
  obtain ⟨pairing, hrounds, hacross, hsub⟩ := rounds_of_matching matching
  have hpairs : formUniquePodPair wp order = numbered pairing := by
    rw [formUniquePodPair_eq, pairLoop_eq_rounds, hrounds, filterMap_bothOk]
  have hlength : pairing.length = pairs (sizes (nodeHeapOf order)) := by
    rw [← length_pairLoop (i := 0) matching, ← formUniquePodPair_eq, hpairs]
    simp [numbered]
  rw [sizes_nodeHeapOf horder] at hlength
  refine ⟨pairing, hrounds, hpairs, ?_, ⟨hacross, ?_⟩, ?_, ?_⟩
  · rw [hpairs, numbered, List.map_map, List.range_eq_range']
    exact List.zipIdx_map_snd 0 pairing
  · obtain ⟨used, hperm, hsublist⟩ := hsub
    exact (hperm.map _).nodup_iff.mp (distinct.sublist (hsublist.map _))
  · rw [hlength, pairs_entries]
  · intro other hother
    rw [hlength]
    exact hother.length_le distinct

def twoNodes : WorkerPodMap where
  entries := [("a", [⟨"w0", "a", "10.0.0.1"⟩, ⟨"w1", "a", "10.0.0.2"⟩]),
    ("b", [⟨"w2", "b", "10.0.0.3"⟩])]
  unique := by decide

theorem formUniquePodPair_twoNodes : ∃ pairing : List (WorkerPodData × WorkerPodData),
    formUniquePodPair twoNodes twoNodes.entries.reverse = numbered pairing ∧
    Valid twoNodes pairing ∧ pairing.length = 1 := by
  obtain ⟨pairing, _, hpairs, _, hvalid, hlength, _⟩ :=
    formUniquePodPair_maximum (List.reverse_perm twoNodes.entries) (by decide) (by decide)
  exact ⟨pairing, hpairs, hvalid, hlength⟩

end PodPairing
