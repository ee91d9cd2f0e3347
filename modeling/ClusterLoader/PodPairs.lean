import ClusterLoader.BinaryHeaps
import ClusterLoader.GroupPairs
import ClusterLoader.KeyedStore

/-!
# Pairs of worker pods

The pods are kept in a map from nodes to the pods on them. A heap of the nodes
gives, over and over, the two nodes with the most pods left, and the last pods
of the two become a pair. The map is gone through in any order when the heap is
filled, so the order of nodes with equally many pods is not known; the number
of pairs does not depend on it.
-/

namespace PodPairs

open BinaryHeaps GroupPairs KeyedStore

structure WorkerNodeInfo where
  nodeName : String
  numberOfPods : Nat

/-- The node with more pods comes first. -/
def nodeHeapLess (a b : WorkerNodeInfo) : Bool := b.numberOfPods < a.numberOfPods

structure WorkerPodData where
  podName : String
  workerNode : String
  podIP : String

structure PodPair where
  index : Nat
  sourcePodName : String
  sourcePodIP : String
  destinationPodName : String
  destinationPodIP : String

def newPodPair (index : Nat) (sourcePod destinationPod : WorkerPodData) : PodPair where
  index := index
  sourcePodName := sourcePod.podName
  sourcePodIP := sourcePod.podIP
  destinationPodName := destinationPod.podName
  destinationPodIP := destinationPod.podIP

abbrev WorkerPodMap := Map String (List WorkerPodData)

/-- The last pod of a list and the others. -/
def podListPop (l : List WorkerPodData) : Except String (WorkerPodData × List WorkerPodData) :=
  match l.getLast? with
  | none => .error "empty pod list"
  | some lastElement => .ok (lastElement, l.dropLast)

def pop (wp : WorkerPodMap) (nodeName : String) : Except String WorkerPodData × WorkerPodMap :=
  match wp.get nodeName with
  | none => (.error ("worker node " ++ nodeName ++ " is removed"), wp)
  | some podList =>
    match podListPop podList with
    | .error err => (.error err, Store.erase wp nodeName)
    | .ok (pod, podList) => (.ok pod, wp.set nodeName podList)

/-- A node that has lost a pod, unless it was the last. -/
def again (node : WorkerNodeInfo) : List WorkerNodeInfo :=
  if 1 < node.numberOfPods then [{ node with numberOfPods := node.numberOfPods - 1 }] else []

def pushAll (heap : Array WorkerNodeInfo) (nodes : List WorkerNodeInfo) :
    Array WorkerNodeInfo :=
  nodes.foldl (push nodeHeapLess) heap

/-- The two nodes taken from the heap, and the heap with what is left of them. -/
def takeTwo (heap : Array WorkerNodeInfo) :
    Option (WorkerNodeInfo × WorkerNodeInfo × Array WorkerNodeInfo) := do
  guard (1 < heap.size)
  let (firstNode, heap) ← BinaryHeaps.pop nodeHeapLess heap
  let (secondNode, heap) ← BinaryHeaps.pop nodeHeapLess heap
  return (firstNode, secondNode, pushAll (pushAll heap (again firstNode)) (again secondNode))

theorem pushAll_perm (heap : Array WorkerNodeInfo) (nodes : List WorkerNodeInfo) :
    (pushAll heap nodes).toList.Perm (nodes ++ heap.toList) := by
  induction nodes generalizing heap with
  | nil => exact .refl _
  | cons node rest ih =>
    refine (ih (push nodeHeapLess heap node)).trans ?_
    refine ((push_perm heap node).append_left rest).trans ?_
    exact List.perm_middle

variable {heap after : Array WorkerNodeInfo} {first second : WorkerNodeInfo}

theorem takeTwo_eq_some (h : takeTwo heap = some (first, second, after)) :
    ∃ heap₁ heap₂, BinaryHeaps.pop nodeHeapLess heap = some (first, heap₁) ∧
      BinaryHeaps.pop nodeHeapLess heap₁ = some (second, heap₂) ∧
      after = pushAll (pushAll heap₂ (again first)) (again second) := by
  simp only [takeTwo, Option.bind_eq_bind, Option.bind_eq_some_iff, Prod.exists] at h
  obtain ⟨_, _, first', heap₁, hfirst, second', heap₂, hsecond, rfl, rfl, rfl⟩ := h
  exact ⟨heap₁, heap₂, hfirst, hsecond, rfl⟩

theorem pushAll_again_perm (heap : Array WorkerNodeInfo) (first second : WorkerNodeInfo) :
    (pushAll (pushAll heap (again first)) (again second)).toList.Perm
      (again first ++ again second ++ heap.toList) := by
  refine (pushAll_perm _ _).trans ?_
  refine ((pushAll_perm heap (again first)).append_left _).trans ?_
  rw [← List.append_assoc]
  exact List.perm_append_comm.append_right _

/-- Every round lowers it. -/
def remaining (heap : Array WorkerNodeInfo) : Nat :=
  (heap.toList.map fun node => node.numberOfPods + 1).sum

variable (node : WorkerNodeInfo)

theorem sum_again_le :
    ((again node).map fun node => node.numberOfPods + 1).sum ≤ node.numberOfPods := by
  unfold again
  split
  · simp only [List.map_cons, List.map_nil, List.sum_cons, List.sum_nil]
    omega
  · exact Nat.zero_le _

theorem remaining_takeTwo
    (h : takeTwo heap = some (first, second, after)) : remaining after < remaining heap := by
  obtain ⟨heap₁, heap₂, htake, htake', rfl⟩ := takeTwo_eq_some h
  have hbefore := (pop_perm htake).trans ((pop_perm htake').cons first)
  have hfirst := sum_again_le first
  have hsecond := sum_again_le second
  rw [remaining, remaining, (hbefore.map _).sum_eq,
    ((pushAll_again_perm heap₂ first second).map _).sum_eq]
  simp only [List.map_append, List.sum_append, List.map_cons, List.sum_cons]
  omega

/-- Where a pod is missing the round gives no pair, but its index is used up. -/
def pairLoop (heap : Array WorkerNodeInfo) (wp : WorkerPodMap) (i : Nat) : List PodPair :=
  match h : takeTwo heap with
  | none => []
  | some (firstNode, secondNode, heap') =>
    let source := pop wp firstNode.nodeName
    let destination := pop source.2 secondNode.nodeName
    have := remaining_takeTwo h
    match source.1, destination.1 with
    | .ok sourcePod, .ok destinationPod =>
      newPodPair i sourcePod destinationPod :: pairLoop heap' destination.2 (i + 1)
    | _, _ => pairLoop heap' destination.2 (i + 1)
termination_by remaining heap

/-- `order` is the order in which the map is gone through. -/
def formUniquePodPair (wp : WorkerPodMap) (order : List (String × List WorkerPodData)) :
    List PodPair :=
  pairLoop (init nodeHeapLess
    (order.map fun entry => ⟨entry.1, entry.2.length⟩).toArray) wp 0

/-! ## The number of pairs -/

theorem nodeHeapLess_ranked : Ranked nodeHeapLess where
  asymm h := by
    simp only [nodeHeapLess, decide_eq_true_eq, decide_eq_false_iff_not] at *
    omega
  trans hab hbc := by
    simp only [nodeHeapLess, decide_eq_false_iff_not] at *
    omega

theorem nodeHeapLess_eq_false {a b : WorkerNodeInfo} :
    nodeHeapLess a b = false ↔ a.numberOfPods ≤ b.numberOfPods := by
  simp [nodeHeapLess]

theorem heaped_pushAll (heaped : Heaped nodeHeapLess heap)
    (nodes : List WorkerNodeInfo) : Heaped nodeHeapLess (pushAll heap nodes) := by
  induction nodes generalizing heap with
  | nil => exact heaped
  | cons node rest ih => exact ih (heaped_push nodeHeapLess_ranked heaped node)

/-- The two nodes have the most pods. -/
theorem heaped_takeTwo
    (heaped : Heaped nodeHeapLess heap) (h : takeTwo heap = some (first, second, after)) :
    Heaped nodeHeapLess after ∧ ∃ rest, heap.toList.Perm (first :: second :: rest) ∧
      after.toList.Perm (again first ++ again second ++ rest) ∧
      second.numberOfPods ≤ first.numberOfPods ∧
      ∀ node ∈ rest, node.numberOfPods ≤ second.numberOfPods := by
  obtain ⟨heap₁, heap₂, htake, htake', rfl⟩ := takeTwo_eq_some h
  obtain ⟨heaped₁, hmost⟩ := pop_heaped nodeHeapLess_ranked heaped htake
  obtain ⟨heaped₂, hmost'⟩ := pop_heaped nodeHeapLess_ranked heaped₁ htake'
  have hperm := pop_perm htake'
  refine ⟨heaped_pushAll (heaped_pushAll heaped₂ _) _, heap₂.toList,
    (pop_perm htake).trans (hperm.cons first), pushAll_again_perm heap₂ first second, ?_, ?_⟩
  · have hmem := hperm.mem_iff.mpr List.mem_cons_self
    exact nodeHeapLess_eq_false.mp
      (hmost second ((pop_perm htake).mem_iff.mpr (List.mem_cons_of_mem first hmem)))
  · intro node hnode
    exact nodeHeapLess_eq_false.mp
      (hmost' node (hperm.mem_iff.mpr (List.mem_cons_of_mem second hnode)))

theorem takeTwo_eq_none (h : takeTwo heap = none) : heap.size ≤ 1 := by
  by_contra two
  have hsize : 1 < heap.size := by omega
  obtain ⟨first, heap₁, htake⟩ : ∃ first heap₁,
      BinaryHeaps.pop nodeHeapLess heap = some (first, heap₁) := exists_pop (by omega)
  have hlen := (pop_perm htake).length_eq
  rw [List.length_cons, Array.length_toList, Array.length_toList] at hlen
  obtain ⟨second, heap₂, htake'⟩ : ∃ second heap₂,
      BinaryHeaps.pop nodeHeapLess heap₁ = some (second, heap₂) := exists_pop (by omega)
  simp [takeTwo, htake, htake', hsize] at h

/-- The heap has the nodes of the map that still have pods, with their numbers. -/
structure Matching (heap : Array WorkerNodeInfo) (wp : WorkerPodMap) : Prop where
  heaped : Heaped nodeHeapLess heap
  distinct : (heap.toList.map WorkerNodeInfo.nodeName).Nodup
  counted : ∀ node ∈ heap.toList, 0 < node.numberOfPods ∧
    ∃ podList, wp.get node.nodeName = some podList ∧ podList.length = node.numberOfPods

def sizes (heap : Array WorkerNodeInfo) : Multiset ℕ :=
  (heap.toList.map WorkerNodeInfo.numberOfPods : List ℕ)

variable {wp : WorkerPodMap}

theorem pop_of_get {nodeName : String} {podList : List WorkerPodData}
    (h : wp.get nodeName = some podList) (hpos : 0 < podList.length) :
    ∃ pod, pop wp nodeName = (.ok pod, wp.set nodeName podList.dropLast) := by
  have hne : podList ≠ [] := List.ne_nil_of_length_pos hpos
  refine ⟨podList.getLast hne, ?_⟩
  rw [pop, h]
  simp only [podListPop, List.getLast?_eq_some_getLast hne]

theorem nodeNames_again_sublist :
    ((again node).map WorkerNodeInfo.nodeName).Sublist [node.nodeName] := by
  unfold again
  split
  · exact .refl _
  · exact List.nil_sublist _

theorem mem_again {node other : WorkerNodeInfo} (h : other ∈ again node) :
    other.nodeName = node.nodeName ∧ 0 < other.numberOfPods ∧
      other.numberOfPods = node.numberOfPods - 1 := by
  unfold again at h
  split at h
  · obtain rfl := List.mem_singleton.mp h
    refine ⟨rfl, ?_, rfl⟩
    change 0 < node.numberOfPods - 1
    omega
  · cases h

theorem sizes_again :
    ((again node).map WorkerNodeInfo.numberOfPods : Multiset ℕ) = lowered node.numberOfPods := by
  unfold again lowered
  split <;> rfl

/-- A round makes one pair of all that can be made. -/
theorem pairs_of_round
    {rest : List WorkerNodeInfo} (hbefore : heap.toList.Perm (first :: second :: rest))
    (hafter : after.toList.Perm (again first ++ again second ++ rest))
    (hpos : 0 < second.numberOfPods) (hle : second.numberOfPods ≤ first.numberOfPods)
    (hrest : ∀ node ∈ rest, node.numberOfPods ≤ second.numberOfPods) :
    pairs (sizes heap) = pairs (sizes after) + 1 := by
  have hsizes : sizes heap = first.numberOfPods ::ₘ second.numberOfPods ::ₘ
      (rest.map WorkerNodeInfo.numberOfPods : List ℕ) :=
    Multiset.coe_eq_coe.mpr (hbefore.map WorkerNodeInfo.numberOfPods)
  have hsizes' : sizes after = lowered first.numberOfPods + lowered second.numberOfPods +
      (rest.map WorkerNodeInfo.numberOfPods : List ℕ) := by
    rw [← sizes_again, ← sizes_again, Multiset.coe_add, Multiset.coe_add, ← List.map_append,
      ← List.map_append]
    exact Multiset.coe_eq_coe.mpr (hafter.map WorkerNodeInfo.numberOfPods)
  rw [hsizes, hsizes']
  refine pairs_cons_cons hpos hle ?_
  intro n hn
  obtain ⟨node, hnode, rfl⟩ := List.mem_map.mp hn
  exact hrest node hnode

/-- A round finds a pod on either node, and the heap still matches the map. -/
theorem Matching.takeTwo (matching : Matching heap wp)
    (h : takeTwo heap = some (first, second, after)) :
    ∃ source destination wp₁ wp₂, pop wp first.nodeName = (.ok source, wp₁) ∧
      pop wp₁ second.nodeName = (.ok destination, wp₂) ∧ Matching after wp₂ ∧
      pairs (sizes heap) = pairs (sizes after) + 1 := by
  obtain ⟨heaped, rest, hbefore, hafter, hle, hrest⟩ := heaped_takeTwo matching.heaped h
  have counted : ∀ node ∈ first :: second :: rest, 0 < node.numberOfPods ∧
      ∃ podList, wp.get node.nodeName = some podList ∧
        podList.length = node.numberOfPods :=
    fun node hnode => matching.counted node (hbefore.mem_iff.mpr hnode)
  obtain ⟨hpos₁, podList₁, hget₁, hlen₁⟩ := counted first (by simp)
  obtain ⟨hpos₂, podList₂, hget₂, hlen₂⟩ := counted second (by simp)
  have distinct : (first.nodeName :: second.nodeName ::
      rest.map WorkerNodeInfo.nodeName).Nodup :=
    (hbefore.map WorkerNodeInfo.nodeName).nodup_iff.mp matching.distinct
  obtain ⟨hfirst, hothers⟩ := List.nodup_cons.mp distinct
  obtain ⟨hsecond, _⟩ := List.nodup_cons.mp hothers
  rw [List.mem_cons, not_or] at hfirst
  obtain ⟨source, hsource⟩ := pop_of_get hget₁ (by omega)
  have hget₂' : (wp.set first.nodeName podList₁.dropLast).get second.nodeName =
      some podList₂ := by
    rw [Map.get_set, if_neg (Ne.symm hfirst.1), hget₂]
  obtain ⟨destination, hdestination⟩ := pop_of_get hget₂' (by omega)
  refine ⟨source, destination, _, _, hsource, hdestination, ⟨heaped, ?_, ?_⟩, ?_⟩
  · refine (hafter.map WorkerNodeInfo.nodeName).nodup_iff.mpr ?_
    rw [List.map_append, List.map_append]
    refine distinct.sublist ?_
    exact ((nodeNames_again_sublist first).append (nodeNames_again_sublist second)).append
      (.refl _)
  · intro node hnode
    rw [Map.get_set, Map.get_set]
    rcases List.mem_append.mp (hafter.mem_iff.mp hnode) with hnode | hnode
    · rcases List.mem_append.mp hnode with hnode | hnode
      · obtain ⟨hname, hpos, hnumber⟩ := mem_again hnode
        rw [hname, if_neg hfirst.1, if_pos rfl]
        exact ⟨hpos, _, rfl, by rw [List.length_dropLast]; omega⟩
      · obtain ⟨hname, hpos, hnumber⟩ := mem_again hnode
        rw [hname, if_pos rfl]
        exact ⟨hpos, _, rfl, by rw [List.length_dropLast]; omega⟩
    · have hname := List.mem_map_of_mem (f := WorkerNodeInfo.nodeName) hnode
      rw [if_neg (ne_of_mem_of_not_mem hname hsecond),
        if_neg (ne_of_mem_of_not_mem hname hfirst.2)]
      exact counted node (List.mem_cons_of_mem _ (List.mem_cons_of_mem _ hnode))
  · exact pairs_of_round hbefore hafter hpos₂ hle hrest

theorem length_pairLoop {i : Nat}
    (matching : Matching heap wp) : (pairLoop heap wp i).length = pairs (sizes heap) := by
  fun_induction pairLoop heap wp i with
  | case1 heap wp i h =>
    have hsize := takeTwo_eq_none h
    rw [pairs_of_card_le_one]
    · rfl
    · simpa [sizes] using hsize
  | case2 heap wp i first second heap' h source destination decreasing sourcePod
      destinationPod hsource hdestination ih =>
    obtain ⟨_, _, wp₁, wp₂, hsource', hdestination', hmatching, hpairs⟩ := matching.takeTwo h
    have hwp : destination.2 = wp₂ := by
      change (pop (pop wp first.nodeName).2 second.nodeName).2 = wp₂
      rw [hsource', hdestination']
    rw [List.length_cons, ih (hwp ▸ hmatching), hpairs]
  | case3 heap wp i first second heap' h source destination decreasing missing ih =>
    obtain ⟨sourcePod, destinationPod, wp₁, wp₂, hsource', hdestination', _⟩ :=
      matching.takeTwo h
    refine (missing sourcePod destinationPod (congrArg Prod.fst hsource') ?_).elim
    change (pop (pop wp first.nodeName).2 second.nodeName).1 = _
    rw [hsource', hdestination']

/-- The heap the loop starts with. -/
def nodeHeapOf (order : List (String × List WorkerPodData)) : Array WorkerNodeInfo :=
  init nodeHeapLess (order.map fun entry => ⟨entry.1, entry.2.length⟩).toArray

theorem formUniquePodPair_eq (wp : WorkerPodMap) (order : List (String × List WorkerPodData)) :
    formUniquePodPair wp order = pairLoop (nodeHeapOf order) wp 0 := rfl

variable {order : List (String × List WorkerPodData)}

theorem nodeHeapOf_perm (horder : order.Perm wp.entries) : (nodeHeapOf order).toList.Perm
      (wp.entries.map fun entry => ⟨entry.1, entry.2.length⟩) :=
  (init_perm _).trans (horder.map _)

theorem matching_nodeHeapOf
    (horder : order.Perm wp.entries) (hpos : ∀ entry ∈ wp.entries, 0 < entry.2.length) :
    Matching (nodeHeapOf order) wp := by
  have hheap := nodeHeapOf_perm horder
  refine ⟨heaped_init nodeHeapLess_ranked _, ?_, ?_⟩
  · refine (hheap.map WorkerNodeInfo.nodeName).nodup_iff.mpr ?_
    rw [List.map_map]
    exact wp.unique
  · intro node hnode
    obtain ⟨entry, hentry, rfl⟩ := List.mem_map.mp (hheap.mem_iff.mp hnode)
    exact ⟨hpos entry hentry, entry.2, Map.get_of_mem hentry, rfl⟩

theorem sizes_nodeHeapOf (horder : order.Perm wp.entries) :
    sizes (nodeHeapOf order) = (wp.entries.map fun entry => entry.2.length : List ℕ) := by
  have hsizes := (nodeHeapOf_perm horder).map WorkerNodeInfo.numberOfPods
  rw [List.map_map] at hsizes
  exact Multiset.coe_eq_coe.mpr hsizes

/-! ## The pods of the namespace -/

structure Pod where
  name : String
  nodeName : String
  podIP : String

def newWorkerPodData (pod : Pod) : WorkerPodData := ⟨pod.name, pod.nodeName, pod.podIP⟩

def addPodWorker (wp : WorkerPodMap) (data : WorkerPodData) : WorkerPodMap :=
  wp.set data.workerNode ((wp.get data.workerNode).getD [] ++ [data])

/-- Pods without an address are passed over. -/
def storeWorkerPods (pods : List Pod) : WorkerPodMap :=
  pods.foldl (fun wp pod =>
    if pod.podIP = "" then wp else addPodWorker wp (newWorkerPodData pod)) Store.empty

/-- The nodes of the pods that have an address, one for each such pod. -/
def nodesOf (pods : List Pod) : List String :=
  (pods.filter fun pod => pod.podIP ≠ "").map Pod.nodeName

def mostOnOneNode (pods : List Pod) : Nat :=
  Multiset.sup ((nodesOf pods).map fun node => (nodesOf pods).count node : List ℕ)

/-- Half of the pods, or those that are not on the fullest node. -/
def pairCount (pods : List Pod) : Nat :=
  min ((nodesOf pods).length / 2) ((nodesOf pods).length - mostOnOneNode pods)

theorem length_getD {podList : Option (List WorkerPodData)} {n : Nat}
    (h : podList.map List.length = if n = 0 then none else some n) :
    (podList.getD []).length = n := by
  split at h
  · rw [Option.map_eq_none_iff.mp h]
    exact Eq.symm ‹n = 0›
  · obtain ⟨l, rfl, hl⟩ := Option.map_eq_some_iff.mp h
    exact hl

theorem get_storeWorkerPods (pods : List Pod) (node : String) :
    ((storeWorkerPods pods).get node).map List.length =
      if (nodesOf pods).count node = 0 then none else some ((nodesOf pods).count node) := by
  induction pods using List.reverseRecOn with
  | nil => rfl
  | append_singleton pods pod ih =>
    rw [storeWorkerPods, List.foldl_append]
    change ((if pod.podIP = "" then storeWorkerPods pods
      else addPodWorker (storeWorkerPods pods) (newWorkerPodData pod)).get node).map _ = _
    by_cases haddress : pod.podIP = ""
    · have hnodes : nodesOf (pods ++ [pod]) = nodesOf pods := by simp [nodesOf, haddress]
      rw [if_pos haddress, hnodes, ih]
    · have hnodes : nodesOf (pods ++ [pod]) = nodesOf pods ++ [pod.nodeName] := by
        simp [nodesOf, haddress]
      rw [if_neg haddress, hnodes, addPodWorker, Map.get_set, List.count_append]
      change Option.map _ (if node = pod.nodeName then _ else _) = _
      by_cases same : node = pod.nodeName
      · subst same
        rw [if_pos rfl, List.count_singleton_self, Option.map_some,
          List.length_append]
        exact congrArg (fun n => some (n + 1)) (length_getD ih)
      · rw [if_neg same, ih]
        simp [Ne.symm same]

theorem mem_entries_storeWorkerPods {pods : List Pod} {entry : String × List WorkerPodData}
    (h : entry ∈ (storeWorkerPods pods).entries) :
    0 < entry.2.length ∧ entry.2.length = (nodesOf pods).count entry.1 := by
  have hget := get_storeWorkerPods pods entry.1
  rw [Map.get_of_mem h] at hget
  split at hget
  · cases hget
  · have hlen := Option.some.inj hget
    omega

theorem keys_storeWorkerPods (pods : List Pod) :
    (storeWorkerPods pods).keys.Perm (nodesOf pods).dedup := by
  refine (List.perm_ext_iff_of_nodup (storeWorkerPods pods).unique
    (List.nodup_dedup _)).mpr fun node => ?_
  change node ∈ Map.keys _ ↔ _
  have hget := get_storeWorkerPods pods node
  rw [Map.mem_keys, List.mem_dedup, ← List.count_pos_iff, ← Option.isSome_map, hget]
  split
  · exact ⟨nofun, by omega⟩
  · exact ⟨fun _ => by omega, fun _ => rfl⟩

/-- The sizes of the groups, as the list of nodes tells them. -/
def groupSizes (pods : List Pod) : Multiset ℕ :=
  ((nodesOf pods).dedup.map fun node => (nodesOf pods).count node : List ℕ)

theorem pairs_groupSizes (pods : List Pod) : pairs (groupSizes pods) = pairCount pods := by
  have hsum : (groupSizes pods).sum = (nodesOf pods).length := by
    exact List.sum_map_count_dedup_eq_length _
  have hsup : (groupSizes pods).sup = mostOnOneNode pods := by
    apply le_antisymm
    · refine Multiset.sup_le.mpr fun n hn => ?_
      obtain ⟨node, hnode, rfl⟩ := List.mem_map.mp hn
      exact Multiset.le_sup (List.mem_map.mpr ⟨node, List.mem_dedup.mp hnode, rfl⟩)
    · refine Multiset.sup_le.mpr fun n hn => ?_
      obtain ⟨node, hnode, rfl⟩ := List.mem_map.mp hn
      exact Multiset.le_sup (List.mem_map.mpr ⟨node, List.mem_dedup.mpr hnode, rfl⟩)
  rw [pairs, hsum, hsup, pairCount]

/-- Whatever the order of the map, as many pairs are formed as the numbers of
pods on the nodes allow. -/
theorem length_formUniquePodPair {pods : List Pod}
    (horder : order.Perm (storeWorkerPods pods).entries) :
    (formUniquePodPair (storeWorkerPods pods) order).length = pairCount pods := by
  have matching := matching_nodeHeapOf horder fun _ hentry =>
    (mem_entries_storeWorkerPods hentry).1
  have hsizes : sizes (nodeHeapOf order) = groupSizes pods := by
    rw [sizes_nodeHeapOf horder]
    refine Multiset.coe_eq_coe.mpr (List.Perm.trans (.of_eq ?_)
      ((keys_storeWorkerPods pods).map fun node => (nodesOf pods).count node))
    rw [Map.keys, List.map_map]
    exact List.map_congr_left fun entry hentry => (mem_entries_storeWorkerPods hentry).2
  rw [formUniquePodPair_eq, length_pairLoop matching, hsizes, pairs_groupSizes]

end PodPairs
