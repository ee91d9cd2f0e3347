import ClusterLoader.NodeCounter

/-!
# When a node counter's Start returns

`Start` waits until the informer has synced. The informer is synced once every
listed node is in its store; each of them is put into the handler's buffer at
that moment, and another goroutine takes the notifications from there one at a
time. `WaitForCacheSync` looks at the store only.

The list call is answered with the nodes of the cluster that the label selector
selects. Notifications of the watch that follows are not modelled.
-/

namespace CounterStart

open KeyedStore Informers EnabledRuns NodeCounter

/-- Where `GetReplicasOnce` stands: in `Start`, behind it, or at its end. -/
inductive Call where
  | starting
  | started
  | failed (text : String)
  | returned (replicas : Int)
  deriving DecidableEq

structure System (Terms Selector : Type) where
  /-- What the list call has returned and is not in the store; `none` before it. -/
  deltas : Option (List Node)
  view : Store Node.name
  buffer : List (Notification Node)
  /-- The notification in the hands of the handler goroutine. -/
  handling : Option (Notification Node)
  counter : Counter Terms Selector
  call : Call

inductive Action where
  | list
  | index
  | take
  | handle
  | poll
  | timeout
  | read

section
variable {Terms Selector : Type}

def start (counter : Counter Terms Selector) : System Terms Selector where
  deltas := none
  view := Store.empty
  buffer := []
  handling := none
  counter := counter
  call := .starting

def System.hasSynced (s : System Terms Selector) : Prop := s.deltas = some []

instance (s : System Terms Selector) : Decidable s.hasSynced :=
  inferInstanceAs (Decidable (s.deltas = some []))

variable (m : Matching Terms Selector) (nodes : Store Node.name)

/-- What `ListFunc` returns. -/
def listed (nodeSelector : Selector) : List Node := nodes.select (m.selects nodeSelector)

def step (s : System Terms Selector) : Action → Option (System Terms Selector)
  | .list =>
    match s.deltas with
    | none => some { s with deltas := some (listed m nodes s.counter.nodeSelector) }
    | some _ => none
  | .index =>
    match s.deltas with
    | some (node :: rest) =>
      some { s with
        deltas := some rest, view := s.view.insert node, buffer := s.buffer ++ [.add node] }
    | _ => none
  | .take =>
    match s.handling, s.buffer with
    | none, n :: rest => some { s with handling := some n, buffer := rest }
    | _, _ => none
  | .handle =>
    match s.handling with
    | some n => some { s with handling := none, counter := s.counter.onNotification m n }
    | none => none
  | .poll =>
    if s.call = .starting ∧ s.hasSynced then some { s with call := .started } else none
  | .timeout =>
    if s.call = .starting then
      some { s with call := .failed "timed out waiting for caches to sync" }
    else none
  | .read =>
    if s.call = .started then some { s with call := .returned s.counter.replicas } else none

inductive Effect (s : System Terms Selector) : Action → System Terms Selector → Prop where
  | list (unlisted : s.deltas = none) :
    Effect s .list { s with deltas := some (listed m nodes s.counter.nodeSelector) }
  | index (node : Node) (rest : List Node) (h : s.deltas = some (node :: rest)) :
    Effect s .index { s with
      deltas := some rest, view := s.view.insert node, buffer := s.buffer ++ [.add node] }
  | take (n : Notification Node) (rest : List (Notification Node)) (free : s.handling = none)
    (h : s.buffer = n :: rest) :
    Effect s .take { s with handling := some n, buffer := rest }
  | handle (n : Notification Node) (h : s.handling = some n) :
    Effect s .handle { s with handling := none, counter := s.counter.onNotification m n }
  | poll (starting : s.call = .starting) (synced : s.hasSynced) :
    Effect s .poll { s with call := .started }
  | timeout (starting : s.call = .starting) :
    Effect s .timeout { s with call := .failed "timed out waiting for caches to sync" }
  | read (started : s.call = .started) :
    Effect s .read { s with call := .returned s.counter.replicas }

/-- The nodes the counter has not been told of yet. -/
def System.awaited (s : System Terms Selector) : List Node :=
  (s.handling.toList ++ s.buffer).filterMap Notification.stored

variable {m nodes} {s t : System Terms Selector}

theorem effect_of_step {a : Action} (h : step m nodes s a = some t) : Effect m nodes s a t := by
  cases a with
  | list =>
    simp only [step] at h
    split at h
    · rename_i unlisted
      exact Option.some.inj h ▸ .list unlisted
    · cases h
  | index =>
    simp only [step] at h
    split at h
    · rename_i node rest hdeltas
      exact Option.some.inj h ▸ .index node rest hdeltas
    · cases h
  | take =>
    simp only [step] at h
    split at h
    · rename_i n rest free hbuffer
      exact Option.some.inj h ▸ .take n rest free hbuffer
    · cases h
  | handle =>
    simp only [step] at h
    split at h
    · rename_i n hhandling
      exact Option.some.inj h ▸ .handle n hhandling
    · cases h
  | poll =>
    obtain ⟨⟨starting, synced⟩, h⟩ := Option.ite_none_right_eq_some.mp h
    exact Option.some.inj h ▸ .poll starting synced
  | timeout =>
    obtain ⟨starting, h⟩ := Option.ite_none_right_eq_some.mp h
    exact Option.some.inj h ▸ .timeout starting
  | read =>
    obtain ⟨started, h⟩ := Option.ite_none_right_eq_some.mp h
    exact Option.some.inj h ▸ .read started

end

section
variable {Terms Selector : Type} (m : Matching Terms Selector) (nodes : Store Node.name)
  (nodeSelector : Selector) (affinity : Option (Affinity Terms)) (tolerations : List Toleration)

/-- How many of the nodes a pod with this affinity and these tolerations should run on. -/
def running (among : List Node) : Nat :=
  among.countP fun node => decide (RunsOn m affinity tolerations node)

/-- Behind `Start` the count is right, and so is what `GetReplicasOnce` returns. -/
structure Blocks (s : System Terms Selector) : Prop where
  started : s.call = .started →
    s.counter.replicas = running m affinity tolerations (listed m nodes nodeSelector)
  returned : ∀ replicas, s.call = .returned replicas →
    replicas = running m affinity tolerations (listed m nodes nodeSelector)

/-- When the poll finds the informer synced, the nodes whose notifications are
still in the buffer or being handled are none that the pod should run on. -/
def Guard (s : System Terms Selector) (a : Action) : Prop :=
  a = .poll → ∀ node ∈ s.awaited, ¬ RunsOn m affinity tolerations node

/-- Nodes are listed, handed on and counted without loss: what is counted, what
is awaited and what is not yet in the store make up the list. -/
structure Kept (s : System Terms Selector) : Prop where
  config : s.counter = { newNodeCounter nodeSelector affinity tolerations with
    replicas := s.counter.replicas }
  adds : ∀ n ∈ s.handling.toList ++ s.buffer, ∃ node, n = .add node
  total : s.counter.replicas + running m affinity tolerations s.awaited +
      running m affinity tolerations (s.deltas.getD (listed m nodes nodeSelector)) =
    running m affinity tolerations (listed m nodes nodeSelector)
  synced : s.call = .started → s.hasSynced
  settled : s.call = .started → ∀ node ∈ s.awaited, ¬ RunsOn m affinity tolerations node
  returned : ∀ replicas, s.call = .returned replicas →
    replicas = running m affinity tolerations (listed m nodes nodeSelector)

end

section
variable {Terms Selector : Type} {m : Matching Terms Selector} {nodes : Store Node.name}
  {nodeSelector : Selector} {affinity : Option (Affinity Terms)} {tolerations : List Toleration}
  {s t : System Terms Selector}

theorem running_eq_zero {among : List Node}
    (h : ∀ node ∈ among, ¬ RunsOn m affinity tolerations node) :
    running m affinity tolerations among = 0 := by
  refine List.countP_eq_zero.mpr fun node hnode => ?_
  rw [decide_eq_true_iff]
  exact h node hnode

theorem running_pos {among : List Node} {node : Node} (hmem : node ∈ among)
    (h : RunsOn m affinity tolerations node) : 0 < running m affinity tolerations among :=
  List.countP_pos_iff.mpr ⟨node, hmem, decide_eq_true h⟩

theorem running_cons (node : Node) (rest : List Node) :
    running m affinity tolerations (node :: rest) = running m affinity tolerations rest +
      (decide (RunsOn m affinity tolerations node)).toNat := by
  rw [running, List.countP_cons]
  cases decide (RunsOn m affinity tolerations node) <;> rfl

theorem running_append (before after : List Node) :
    running m affinity tolerations (before ++ after) =
      running m affinity tolerations before + running m affinity tolerations after :=
  List.countP_append

theorem kept_start :
    Kept m nodes nodeSelector affinity tolerations
      (start (newNodeCounter nodeSelector affinity tolerations)) where
  config := rfl
  adds := nofun
  total := by
    change (0 : Int) + (0 : Nat) +
      (running m affinity tolerations (listed m nodes nodeSelector) : Int) = _
    omega
  synced := nofun
  settled := nofun
  returned := nofun

namespace Kept

section
variable (kept : Kept m nodes nodeSelector affinity tolerations s)
include kept

/-- In a synced informer the awaited nodes are all that is missing. -/
theorem replicas_eq (synced : s.hasSynced) :
    s.counter.replicas + running m affinity tolerations s.awaited =
      running m affinity tolerations (listed m nodes nodeSelector) := by
  have htotal := kept.total
  have hdeltas : s.deltas = some [] := synced
  rw [hdeltas] at htotal
  change _ + ((0 : Nat) : Int) = _ at htotal
  omega

theorem blocks :
    Blocks m nodes nodeSelector affinity tolerations s :=
  { kept with
    started := by
      intro started
      have htotal := kept.replicas_eq (kept.synced started)
      rw [running_eq_zero (kept.settled started)] at htotal
      omega }

theorem list (unlisted : s.deltas = none) :
    Kept m nodes nodeSelector affinity tolerations
      { s with deltas := some (listed m nodes s.counter.nodeSelector) } :=
  { kept with
    total := by
      have htotal := kept.total
      have hselector : s.counter.nodeSelector = nodeSelector := by rw [kept.config]; rfl
      rw [unlisted] at htotal
      rw [hselector]
      exact htotal
    synced := by
      intro started
      cases unlisted.symm.trans (kept.synced started) }

theorem index {node : Node} {rest : List Node} (h : s.deltas = some (node :: rest)) :
    Kept m nodes nodeSelector affinity tolerations { s with
      deltas := some rest, view := s.view.insert node, buffer := s.buffer ++ [.add node] } where
  config := kept.config
  adds := by
    intro n hn
    rw [← List.append_assoc, List.mem_append, List.mem_singleton] at hn
    rcases hn with hn | rfl
    · exact kept.adds n hn
    · exact ⟨node, rfl⟩
  total := by
    have htotal := kept.total
    rw [h, Option.getD_some, running_cons] at htotal
    have hawaited : (s.handling.toList ++ (s.buffer ++ [Notification.add node])).filterMap
        Notification.stored = s.awaited ++ [node] := by
      rw [← List.append_assoc, List.filterMap_append]
      rfl
    rw [System.awaited, hawaited, running_append, running_cons]
    change s.counter.replicas + ((_ + (0 + _) : Nat) : Int) + running m affinity tolerations rest =
      _
    omega
  synced := by
    intro started
    cases h.symm.trans (kept.synced started)
  settled := by
    intro started
    cases h.symm.trans (kept.synced started)
  returned := kept.returned

theorem take {n : Notification Node} {rest : List (Notification Node)} (free : s.handling = none)
    (h : s.buffer = n :: rest) :
    Kept m nodes nodeSelector affinity tolerations
      { s with handling := some n, buffer := rest } := by
  have hwaiting : s.handling.toList ++ s.buffer = (some n).toList ++ rest := by
    rw [free, h]
    rfl
  have hawaited : s.awaited =
      System.awaited { s with handling := some n, buffer := rest } := by
    rw [System.awaited, hwaiting]
    rfl
  refine ⟨kept.config, hwaiting ▸ kept.adds, ?_, kept.synced, ?_, kept.returned⟩
  · rw [← hawaited]
    exact kept.total
  · rw [← hawaited]
    exact kept.settled

theorem handle {n : Notification Node} (h : s.handling = some n) :
    Kept m nodes nodeSelector affinity tolerations
      { s with handling := none, counter := s.counter.onNotification m n } := by
  have hconfig := kept.config
  obtain ⟨node, rfl⟩ : ∃ node, n = .add node := by
    refine kept.adds n ?_
    rw [h]
    exact List.mem_cons_self
  have hcounter : s.counter.onNotification m (.add node) = { s.counter with
      replicas := s.counter.replicas +
        (decide (RunsOn m affinity tolerations node)).toNat } := by
    rw [Counter.onNotification, handle_add, hconfig]
    rfl
  have hawaited : s.awaited = node :: s.buffer.filterMap Notification.stored := by
    rw [System.awaited, h]
    rfl
  have htotal := kept.total
  rw [hawaited, running_cons] at htotal
  refine ⟨?_, fun n hn => kept.adds n (List.mem_append_right _ hn), ?_, kept.synced, ?_,
    kept.returned⟩
  · rw [hcounter, hconfig]
  · change (s.counter.onNotification m (.add node)).replicas +
      running m affinity tolerations (s.buffer.filterMap Notification.stored) + _ = _
    rw [hcounter]
    change s.counter.replicas + ((decide (RunsOn m affinity tolerations node)).toNat : Int) + _ +
      (running m affinity tolerations (s.deltas.getD (listed m nodes nodeSelector)) : Int) = _
    omega
  · intro started other hother
    refine kept.settled started other ?_
    rw [hawaited]
    exact List.mem_cons_of_mem _ hother

theorem step {a : Action} (guarded : Guard m affinity tolerations s a)
    (effect : Effect m nodes s a t) :
    Kept m nodes nodeSelector affinity tolerations t := by
  cases effect with
  | list unlisted => exact kept.list unlisted
  | index node rest h => exact kept.index h
  | take n rest free h => exact kept.take free h
  | handle n h => exact kept.handle h
  | poll starting synced =>
    exact ⟨kept.config, kept.adds, kept.total, fun _ => synced, fun _ => guarded rfl, nofun⟩
  | timeout starting => exact ⟨kept.config, kept.adds, kept.total, nofun, nofun, nofun⟩
  | read started =>
    refine ⟨kept.config, kept.adds, kept.total, nofun, nofun, ?_⟩
    intro replicas h
    obtain rfl := Call.returned.inj h
    exact kept.blocks.started started

/-- A poll that comes too early returns while a node is missing from the count. -/
theorem not_blocks_of_poll {a : Action} (early : ¬ Guard m affinity tolerations s a)
    (effect : Effect m nodes s a t) :
    ¬ Blocks m nodes nodeSelector affinity tolerations t := by
  intro blocks
  obtain ⟨rfl, node, hnode, runs⟩ : a = .poll ∧ ∃ node ∈ s.awaited,
      RunsOn m affinity tolerations node := by
    simpa only [Guard, not_forall, not_not, exists_prop] using early
  cases effect with
  | poll starting synced =>
    have hpos := running_pos hnode runs
    have htotal := kept.replicas_eq synced
    have hright := blocks.started rfl
    change s.counter.replicas = _ at hright
    omega

end

end Kept

/-- Start blocks until the count is right exactly if no poll finds the informer
synced while a node that the pod should run on waits for its handler. -/
theorem start_blocks_iff (m : Matching Terms Selector) (nodes : Store Node.name)
    (nodeSelector : Selector) (affinity : Option (Affinity Terms))
    (tolerations : List Toleration) (actions : List Action) :
    Throughout (CounterStart.step m nodes) (Blocks m nodes nodeSelector affinity tolerations)
        (start (newNodeCounter nodeSelector affinity tolerations)) actions ↔
      Along (CounterStart.step m nodes) (Guard m affinity tolerations)
        (start (newNodeCounter nodeSelector affinity tolerations)) actions :=
  throughout_iff_along (fun _ kept => kept.blocks)
    (fun _ _ _ kept guarded h => kept.step guarded (effect_of_step h))
    (fun _ _ _ kept early h => kept.not_blocks_of_poll early (effect_of_step h)) kept_start

end

/-- One node, in the store when the poll comes and not counted yet. -/
theorem start_returns_early :
    ∃ s, exec (step byName (Store.empty.insert ⟨"a", [], [], []⟩))
        (start (newNodeCounter () none [])) [.list, .index, .poll, .read] = some s ∧
      s.call = .returned 0 ∧
      running byName none [] (listed byName (Store.empty.insert ⟨"a", [], [], []⟩) ()) = 1 :=
  ⟨_, rfl, rfl, by decide⟩

end CounterStart
