import ClusterLoader.NodeCounter

/-!
# Waiting for preloaded images

`PreloadImages` compares two numbers: how many nodes it has marked as done, and
how many the node counter of the preload DaemonSet holds. The first comes from
an informer on all nodes, the second from an informer on the nodes that the
DaemonSet's label selector selects, and the two deliver independently of each
other. Creating the DaemonSet and pulling the images happen in the cluster;
here they are the changes that the informers deliver.
-/

namespace ImagePreload

open KeyedStore Informers NodeCounter EnabledRuns

variable {Terms Selector : Type}

abbrev NameSet := Store (id : String → String)

def hasPrefix (s start : String) : Bool := start.toList.isPrefixOf s.toList

def hasPreloadedImages (images : List String) (node : Node) : Bool :=
  images.all fun image => node.images.flatten.any fun name => hasPrefix name image

def markDone (set : NameSet) (node : String) (done : Bool) : NameSet :=
  if done then set.insert node else set.erase node

def checkNode (images : List String) (set : NameSet) (oldObj newObj : Option Node) : NameSet :=
  match newObj, oldObj with
  | some node, _ => markDone set node.name (hasPreloadedImages images node)
  | none, some node => markDone set node.name false
  | none, none => set

/-- The controller with what its two informers hold. -/
structure Preload (Terms Selector : Type) where
  images : List String
  nodes : Store Node.name
  doneNodes : NameSet
  size : Watch Terms Selector

def created (images : List String) (nodeSelector : Selector)
    (affinity : Option (Affinity Terms)) (tolerations : List Toleration) :
    Preload Terms Selector where
  images := images
  nodes := Store.empty
  doneNodes := Store.empty
  size := started nodeSelector affinity tolerations

inductive Action where
  | nodeInformer (n : Notification Node)
  | sizeInformer (n : Notification Node)

def onNode (images : List String) (set : NameSet) : Notification Node → NameSet
  | .add obj => checkNode images set none (some obj)
  | .update oldObj newObj => checkNode images set (some oldObj) (some newObj)
  | .delete obj => checkNode images set (some obj.last) none

variable (m : Matching Terms Selector)

def step (s : Preload Terms Selector) : Action → Option (Preload Terms Selector)
  | .nodeInformer n =>
    if n.Deliverable s.nodes then
      some { s with nodes := n.applyTo s.nodes, doneNodes := onNode s.images s.doneNodes n }
    else none
  | .sizeInformer n =>
    -- the API server only sends what the selector selects
    if n.stored.all (m.selects s.size.counter.nodeSelector) then
      (deliver m s.size n).map fun size => { s with size := size }
    else none

/-- What `wait.Poll` waits for. -/
def Preload.polled (s : Preload Terms Selector) : Bool :=
  (s.doneNodes.entries.length : Int) == s.size.counter.replicas

/-- The name is that of the image, or names it by a digest. -/
def Lists (name image : String) : Prop :=
  name = image ∨ ∃ digest, name = image ++ "@" ++ digest

def ListsAll (images : List String) (node : Node) : Prop :=
  ∀ image ∈ images, ∃ name ∈ node.images.flatten, Lists name image

theorem hasPreloadedImages_iff (images : List String) (node : Node) :
    hasPreloadedImages images node = true ↔
      ∀ image ∈ images, ∃ name ∈ node.images.flatten, hasPrefix name image = true := by
  simp only [hasPreloadedImages, List.all_eq_true, List.any_eq_true]

theorem mem_markDone (set : NameSet) (node : String) (done : Bool) (name : String) :
    name ∈ markDone set node done ↔ if name = node then done = true else name ∈ set := by
  cases done with
  | true =>
    change name ∈ set.insert node ↔ _
    by_cases h : name = node <;> simp [h]
  | false =>
    change name ∈ set.erase node ↔ _
    by_cases h : name = node <;> simp [h]

/-- The marked names are those of the nodes in view that have all images. -/
def Marks (images : List String) (nodes : Store Node.name) (done : NameSet) : Prop :=
  ∀ name, name ∈ done ↔ ∃ node ∈ nodes, node.name = name ∧ hasPreloadedImages images node = true

section
variable {images : List String} {nodes : Store Node.name} {done : NameSet}

theorem Marks.insert (marks : Marks images nodes done) (node : Node) :
    Marks images (nodes.insert node)
      (markDone done node.name (hasPreloadedImages images node)) := by
  intro name
  rw [mem_markDone]
  by_cases h : name = node.name
  · subst h
    rw [if_pos rfl]
    constructor
    · intro preloaded
      exact ⟨node, Store.mem_insert.mpr (.inl rfl), rfl, preloaded⟩
    · rintro ⟨other, hother, hname, preloaded⟩
      rcases Store.mem_insert.mp hother with rfl | ⟨_, hne⟩
      · exact preloaded
      · exact absurd hname hne
  · rw [if_neg h, marks name]
    constructor
    · rintro ⟨other, hother, rfl, preloaded⟩
      exact ⟨other, Store.mem_insert.mpr (.inr ⟨hother, h⟩), rfl, preloaded⟩
    · rintro ⟨other, hother, rfl, preloaded⟩
      rcases Store.mem_insert.mp hother with rfl | ⟨hmem, _⟩
      · exact absurd rfl h
      · exact ⟨other, hmem, rfl, preloaded⟩

theorem Marks.erase (marks : Marks images nodes done) (node : String) :
    Marks images (nodes.erase node) (markDone done node false) := by
  intro name
  rw [mem_markDone]
  by_cases h : name = node
  · subst h
    rw [if_pos rfl]
    refine iff_of_false Bool.false_ne_true ?_
    rintro ⟨other, hother, hname, _⟩
    exact (Store.mem_erase.mp hother).2 hname
  · rw [if_neg h, marks name]
    constructor
    · rintro ⟨other, hother, rfl, preloaded⟩
      exact ⟨other, Store.mem_erase.mpr ⟨hother, h⟩, rfl, preloaded⟩
    · rintro ⟨other, hother, rfl, preloaded⟩
      exact ⟨other, (Store.mem_erase.mp hother).1, rfl, preloaded⟩

theorem Marks.onNode (marks : Marks images nodes done) (n : Notification Node) :
    Marks images (n.applyTo nodes) (onNode images done n) := by
  cases n with
  | add obj => exact marks.insert obj
  | update oldObj newObj => exact marks.insert newObj
  | delete obj => exact marks.erase obj.last.name

end

/-- What every reachable state of the controller satisfies. -/
structure Tracked (images : List String) (affinity : Option (Affinity Terms))
    (tolerations : List Toleration) (s : Preload Terms Selector) : Prop where
  images_eq : s.images = images
  marks : Marks images s.nodes s.doneNodes
  counts : Counts m affinity tolerations s.size

section
variable {m} {images : List String} {nodeSelector : Selector}
  {affinity : Option (Affinity Terms)} {tolerations : List Toleration}
  {s t : Preload Terms Selector}

theorem created_tracked :
    Tracked m images affinity tolerations
      (created images nodeSelector affinity tolerations) := by
  refine ⟨rfl, ?_, started_counts nodeSelector affinity tolerations⟩
  intro name
  refine iff_of_false (Store.notMem_empty name) ?_
  rintro ⟨node, hnode, _⟩
  exact Store.notMem_empty node hnode

theorem step_tracked (valid : ValidAffinity m affinity) {a : Action}
    (tracked : Tracked m images affinity tolerations s)
    (h : step m s a = some t) : Tracked m images affinity tolerations t := by
  cases a with
  | nodeInformer n =>
    obtain ⟨_, h⟩ := Option.ite_none_right_eq_some.mp h
    cases h
    refine ⟨tracked.images_eq, ?_, tracked.counts⟩
    rw [tracked.images_eq]
    exact tracked.marks.onNode n
  | sizeInformer n =>
    obtain ⟨_, h⟩ := Option.ite_none_right_eq_some.mp h
    obtain ⟨size, hdeliver, rfl⟩ := Option.map_eq_some_iff.mp h
    exact ⟨tracked.images_eq, tracked.marks, tracked.counts.deliver valid hdeliver⟩

/-- Where as many names are marked as nodes are counted, and every marked one is
among these, all of these are marked. -/
theorem marked_of_polled (tracked : Tracked m images affinity tolerations s)
    (among : ∀ name ∈ s.doneNodes,
      ∃ node ∈ s.size.view, RunsOn m affinity tolerations node ∧ node.name = name)
    (polled : s.polled = true) {node : Node} (hnode : node ∈ s.size.view)
    (runs : RunsOn m affinity tolerations node) : node.name ∈ s.doneNodes := by
  let expected := s.size.view.select fun node => decide (RunsOn m affinity tolerations node)
  have hexpected : ∀ node, node ∈ expected ↔
      node ∈ s.size.view ∧ RunsOn m affinity tolerations node := by
    intro node
    rw [Store.mem_select, decide_eq_true_iff]
  have hdone : s.doneNodes.entries.Nodup := List.map_id s.doneNodes.entries ▸ s.doneNodes.unique
  have hsubset : s.doneNodes.entries ⊆ expected.map Node.name := by
    intro name hname
    obtain ⟨node, hview, hruns, rfl⟩ := among name hname
    exact List.mem_map_of_mem ((hexpected node).mpr ⟨hview, hruns⟩)
  have hlength : (expected.map Node.name).length ≤ s.doneNodes.entries.length := by
    have hcounts := tracked.counts.replicas_eq
    have hequal := beq_iff_eq.mp polled
    have hexact : expected.length =
        s.size.view.count fun node => decide (RunsOn m affinity tolerations node) :=
      List.countP_eq_length_filter.symm
    rw [List.length_map]
    omega
  exact mem_of_subset_of_length_le hdone hsubset hlength
    (List.mem_map_of_mem ((hexpected node).mpr ⟨hnode, runs⟩))

/-- Where the two informers have delivered the same nodes, only nodes that the
DaemonSet should run on have all images, and no image name goes on after a
requested one except with a digest, the wait ends only when every node that the
DaemonSet should run on lists all images. -/
theorem polled_all_listed (m : Matching Terms Selector) (images : List String)
    (nodeSelector : Selector) (affinity : Option (Affinity Terms))
    (tolerations : List Toleration) (valid : ValidAffinity m affinity)
    (actions : List Action) (s : Preload Terms Selector)
    (run : exec (step m) (created images nodeSelector affinity tolerations) actions = some s)
    (sameNodes : ∀ node, node ∈ s.size.view ↔
      node ∈ s.nodes ∧ m.selects nodeSelector node = true)
    (onlyExpected : ∀ node ∈ s.nodes, hasPreloadedImages images node = true →
      m.selects nodeSelector node = true ∧ RunsOn m affinity tolerations node)
    (onlyDigests : ∀ node ∈ s.nodes, ∀ name ∈ node.images.flatten, ∀ image ∈ images,
      hasPrefix name image = true → Lists name image)
    (polled : s.polled = true) :
    ∀ node ∈ s.nodes, m.selects nodeSelector node = true →
      RunsOn m affinity tolerations node → ListsAll images node := by
  have tracked := exec_keeps (fun _ _ _ _ tracked h => step_tracked valid tracked h)
    created_tracked run
  have among : ∀ name ∈ s.doneNodes,
      ∃ node ∈ s.size.view, RunsOn m affinity tolerations node ∧ node.name = name := by
    intro name hname
    obtain ⟨node, hnode, rfl, preloaded⟩ := (tracked.marks name).mp hname
    obtain ⟨selected, runs⟩ := onlyExpected node hnode preloaded
    exact ⟨node, (sameNodes node).mpr ⟨hnode, selected⟩, runs, rfl⟩
  intro node hnode selected runs
  have hmarked := marked_of_polled tracked among polled
    ((sameNodes node).mpr ⟨hnode, selected⟩) runs
  obtain ⟨other, hother, hname, preloaded⟩ := (tracked.marks node.name).mp hmarked
  obtain rfl := Store.eq_of_key hother hnode hname
  intro image himage
  obtain ⟨name, hmem, hprefix⟩ := (hasPreloadedImages_iff images other).mp preloaded image himage
  exact ⟨name, hmem, onlyDigests other hother name hmem image himage hprefix⟩

end

/-- A node that has pulled the image, under its tag and its digest. -/
def pulled (name : String) (taints : List Taint) : Node :=
  ⟨name, [], taints, [["nginx:1.2", "nginx:1.2@sha256:0"]]⟩

theorem polled_all_listed_pulled :
    ∃ s, exec (step byName) (created ["nginx:1.2"] () none [])
        [.nodeInformer (.add ⟨"a", [], [], []⟩), .sizeInformer (.add ⟨"a", [], [], []⟩),
          .nodeInformer (.update ⟨"a", [], [], []⟩ (pulled "a" [])),
          .sizeInformer (.update ⟨"a", [], [], []⟩ (pulled "a" []))] = some s ∧
      s.polled = true ∧ ∀ node ∈ s.nodes, byName.selects () node = true →
        RunsOn byName none [] node → ListsAll ["nginx:1.2"] node := by
  have reached : exec (step byName) (created ["nginx:1.2"] () none [])
      [.nodeInformer (.add ⟨"a", [], [], []⟩), .sizeInformer (.add ⟨"a", [], [], []⟩),
        .nodeInformer (.update ⟨"a", [], [], []⟩ (pulled "a" [])),
        .sizeInformer (.update ⟨"a", [], [], []⟩ (pulled "a" []))] = some _ := rfl
  refine ⟨_, reached, rfl, ?_⟩
  refine polled_all_listed byName ["nginx:1.2"] () none [] (fun _ _ _ => ⟨_, rfl⟩) _ _ reached
    (fun node => (and_iff_left rfl).symm) ?_ ?_ rfl
  · intro node hnode _
    obtain rfl := List.mem_singleton.mp hnode
    exact ⟨rfl, by decide⟩
  · intro node hnode name hname image himage _
    obtain rfl := List.mem_singleton.mp hnode
    obtain rfl := List.mem_singleton.mp himage
    rcases List.mem_cons.mp hname with rfl | hname
    · exact .inl rfl
    · obtain rfl := List.mem_singleton.mp hname
      exact .inr ⟨"sha256:0", rfl⟩

theorem not_lists_next_tag : ¬ Lists "nginx:1.21" "nginx:1.2" := by
  rintro (h | ⟨digest, h⟩)
  · exact absurd h (by decide)
  · have hchars := congrArg String.toList h
    simp at hchars

/-- In the first run the image is only on a node that is cordoned, in the second
the one node has an image whose tag goes on after the requested one. -/
theorem polled_image_missing :
    (∃ s, exec (step byName) (created ["nginx:1.2"] () none [])
        [.nodeInformer (.add ⟨"a", [], [], []⟩), .sizeInformer (.add ⟨"a", [], [], []⟩),
          .nodeInformer (.add (pulled "b" [cordoned])),
          .sizeInformer (.add (pulled "b" [cordoned]))] = some s ∧
      s.polled = true ∧ ∃ node ∈ s.nodes, byName.selects () node = true ∧
        RunsOn byName none [] node ∧ ¬ ListsAll ["nginx:1.2"] node) ∧
    ∃ s, exec (step byName) (created ["nginx:1.2"] () none [])
        [.nodeInformer (.add ⟨"a", [], [], [["nginx:1.21"]]⟩),
          .sizeInformer (.add ⟨"a", [], [], [["nginx:1.21"]]⟩)] = some s ∧
      s.polled = true ∧ ∃ node ∈ s.nodes, byName.selects () node = true ∧
        RunsOn byName none [] node ∧ ¬ ListsAll ["nginx:1.2"] node := by
  refine ⟨⟨_, rfl, rfl, ⟨"a", [], [], []⟩, by decide, rfl, by decide, ?_⟩,
    _, rfl, rfl, ⟨"a", [], [], [["nginx:1.21"]]⟩, by decide, rfl, by decide, ?_⟩
  · intro lists
    obtain ⟨name, hname, _⟩ := lists "nginx:1.2" List.mem_cons_self
    cases hname
  · intro lists
    obtain ⟨name, hname, hlists⟩ := lists "nginx:1.2" List.mem_cons_self
    obtain rfl := List.mem_singleton.mp hname
    exact not_lists_next_tag hlists

end ImagePreload
