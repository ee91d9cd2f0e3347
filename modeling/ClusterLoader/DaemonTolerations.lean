import Mathlib.Data.Fintype.EquivFin
import ClusterLoader.ExpectedReplicas

/-!
# Which taints a counted DaemonSet accepts

The DaemonSet controller adds tolerations of its own to those of the template,
and `addOrUpdateDaemonPodTolerations` says to be kept in sync with it. The
controller's rules are stated here on their own and compared with the taints
that the `NodeCounter` of an unstructured DaemonSet accepts. The two differ in
two places: the parser adds nothing for unreachable nodes, and it never reads
`hostNetwork`, so the toleration that depends on it is never added.
-/

namespace DaemonTolerations

open NodeCounter ExpectedReplicas

variable {Terms Selector Content Item : Type} (c : Converter Terms Content Item)
  (m : Matching Terms Selector)

def unreachable : String := "node.kubernetes.io/unreachable"

def networkUnavailable : String := "node.kubernetes.io/network-unavailable"

def existsToleration (key : String) (effect : TaintEffect) : Toleration :=
  ⟨key, .opExists, "", some effect, none⟩

/-- What the DaemonSet controller adds to the tolerations of its pods. -/
def controllerTolerations (hostNetwork : Bool) : List Toleration :=
  [existsToleration "node.kubernetes.io/not-ready" .noExecute,
    existsToleration unreachable .noExecute,
    existsToleration "node.kubernetes.io/disk-pressure" .noSchedule,
    existsToleration "node.kubernetes.io/memory-pressure" .noSchedule,
    existsToleration "node.kubernetes.io/pid-pressure" .noSchedule,
    existsToleration "node.kubernetes.io/unschedulable" .noSchedule] ++
  (if hostNetwork then [existsToleration networkUnavailable .noSchedule] else [])

/-- The nodes of the unstructured DaemonSet with template `p` are counted by `counter`. -/
def CountedBy (p : PodSpec Terms) (counter : Counter Terms Selector) : Prop :=
  getReplicasFromRuntimeObject c.toAccessors m
      (.unstructured (c.toUnstructured (.daemonSet p))) =
    .ok (.nodeCounter counter)

/-- The counter accepts the taints that the controller's pods accept, and which
those are depends on the set of the template's tolerations only. -/
structure AcceptsAsController (p : PodSpec Terms) (counter : Counter Terms Selector) :
    Prop where
  exactly : ∀ taint, Tolerated m counter.tolerations taint ↔
    Tolerated m p.tolerations taint ∨ Tolerated m (controllerTolerations p.hostNetwork) taint
  of_set : ∀ (p' : PodSpec Terms) (counter' : Counter Terms Selector),
    (∀ t, t ∈ p'.tolerations ↔ t ∈ p.tolerations) → CountedBy c m p' counter' →
      ∀ taint, Tolerated m counter'.tolerations taint ↔ Tolerated m counter.tolerations taint

/-- One toleration accepts the key with the effect whatever the taint's value. -/
def Covers (tolerations : List Toleration) (key : String) (effect : TaintEffect) : Prop :=
  ∃ t ∈ tolerations, t.operator = .opExists ∧ (t.key = "" ∨ t.key = key) ∧
    (t.effect = none ∨ t.effect = some effect)

instance (tolerations : List Toleration) (key : String) (effect : TaintEffect) :
    Decidable (Covers tolerations key effect) :=
  inferInstanceAs (Decidable (∃ t ∈ tolerations, t.operator = .opExists ∧
    (t.key = "" ∨ t.key = key) ∧ (t.effect = none ∨ t.effect = some effect)))

variable {taint : Taint}

section Tolerated
variable {m}

theorem existsToleration_tolerates {key : String} (named : key ≠ "") (effect : TaintEffect)
    (taint : Taint) :
    m.toleratesTaint (existsToleration key effect) taint = true ↔
      taint.key = key ∧ taint.effect = effect := by
  rw [m.toleratesTaint_iff]
  constructor
  · rintro ⟨heffect, hkey, _⟩
    rcases heffect with h | h
    · cases h
    · rcases hkey with empty | same
      · exact absurd empty named
      · exact ⟨same.symm, (Option.some.inj h).symm⟩
  · rintro ⟨hkey, heffect⟩
    exact ⟨.inr (congrArg some heffect.symm), .inr hkey.symm, .inl rfl⟩

/-- A toleration for one value each does not add up: there are more values than
tolerations in a list. -/
theorem covers_iff (tolerations : List Toleration) (key : String) (effect : TaintEffect) :
    Covers tolerations key effect ↔ ∀ value, Tolerated m tolerations ⟨key, value, effect⟩ := by
  constructor
  · rintro ⟨t, ht, hoperator, hkey, heffect⟩ value
    exact ⟨t, ht, (m.toleratesTaint_iff t _).mpr ⟨heffect, hkey, .inl hoperator⟩⟩
  · intro tolerated
    obtain ⟨value, fresh⟩ :=
      Infinite.exists_notMem_finset (tolerations.map Toleration.value).toFinset
    obtain ⟨t, ht, hvalue⟩ := tolerated value
    obtain ⟨heffect, hkey, hoperator⟩ := (m.toleratesTaint_iff t _).mp hvalue
    rcases hoperator with hexists | hsame
    · exact ⟨t, ht, hexists, hkey, heffect⟩
    · refine absurd ?_ fresh
      rw [List.mem_toFinset]
      exact List.mem_map.mpr ⟨t, ht, hsame⟩

theorem tolerated_of_covers {tolerations : List Toleration}
    (covers : Covers tolerations taint.key taint.effect) : Tolerated m tolerations taint :=
  (covers_iff tolerations _ _).mp covers taint.value

theorem tolerated_of_mem_iff {ts ts' : List Toleration} (same : ∀ t, t ∈ ts ↔ t ∈ ts')
    (taint : Taint) : Tolerated m ts taint ↔ Tolerated m ts' taint := by
  simp only [Tolerated, same]

/-- The controller's tolerations are the parser's and the two that it leaves out. -/
theorem tolerated_controllerTolerations (hostNetwork : Bool) (taint : Taint) :
    Tolerated m (controllerTolerations hostNetwork) taint ↔
      Tolerated m (daemonPodTolerations false) taint ∨
        (taint.key = unreachable ∧ taint.effect = .noExecute) ∨
          (hostNetwork = true ∧ taint.key = networkUnavailable ∧
            taint.effect = .noSchedule) := by
  have hunreachable := existsToleration_tolerates (m := m)
    (by decide : unreachable ≠ "") .noExecute taint
  have hnetwork := existsToleration_tolerates (m := m)
    (by decide : networkUnavailable ≠ "") .noSchedule taint
  rw [← hunreachable, ← hnetwork]
  cases hostNetwork with
  | false =>
    simp only [Tolerated, controllerTolerations, daemonPodTolerations, existsToleration]
    grind
  | true =>
    simp only [Tolerated, controllerTolerations, daemonPodTolerations, existsToleration]
    grind

/-- None of the parser's own tolerations has the key of one that it leaves out. -/
theorem not_tolerated_daemonPodTolerations
    (key : taint.key = unreachable ∨ taint.key = networkUnavailable) :
    ¬ Tolerated m (daemonPodTolerations false) taint := by
  rintro ⟨t, ht, htolerates⟩
  have hkey := ((m.toleratesTaint_iff t taint).mp htolerates).2.1
  have hnamed : ∀ t ∈ daemonPodTolerations false,
      t.key ≠ "" ∧ t.key ≠ unreachable ∧ t.key ≠ networkUnavailable := by decide
  obtain ⟨hempty, hnotUnreachable, hnotNetwork⟩ := hnamed t ht
  rcases hkey with h | h
  · exact hempty h
  · rcases key with hu | hn
    · exact hnotUnreachable (h.trans hu)
    · exact hnotNetwork (h.trans hn)

end Tolerated

section Counted
variable {c m} {p : PodSpec Terms} {counter : Counter Terms Selector}

/-- What the loop over the template's tolerations comes to, as a set of taints. -/
theorem CountedBy.tolerated (counted : CountedBy c m p counter) (taint : Taint) :
    Tolerated m counter.tolerations taint ↔
      Tolerated m p.tolerations taint ∨ Tolerated m (daemonPodTolerations false) taint := by
  rw [CountedBy, getReplicas_daemonSet, getDaemonSetNumSchedulableNodes] at counted
  rw [← tolerated_append, ← tolerated_parsedPodSpec]
  cases hselector : m.labelSelectorAsSelector (parsedPodSpec m p).nodeSelector with
  | error text =>
    rw [hselector] at counted
    cases counted
  | ok selector =>
    rw [hselector] at counted
    cases counted
    exact Iff.rfl

theorem CountedBy.of_set (counted : CountedBy c m p counter) {p' : PodSpec Terms}
    {counter' : Counter Terms Selector} (counted' : CountedBy c m p' counter')
    (same : ∀ t, t ∈ p'.tolerations ↔ t ∈ p.tolerations) (taint : Taint) :
    Tolerated m counter'.tolerations taint ↔ Tolerated m counter.tolerations taint := by
  rw [counted.tolerated, counted'.tolerated, tolerated_of_mem_iff same]

/-- A taint that only the controller's own tolerations accept has to be accepted
by the template's. -/
theorem CountedBy.template (counted : CountedBy c m p counter)
    (accepts : AcceptsAsController c m p counter)
    (key : taint.key = unreachable ∨ taint.key = networkUnavailable)
    (added : Tolerated m (controllerTolerations p.hostNetwork) taint) :
    Tolerated m p.tolerations taint := by
  have hcounter := (accepts.exactly taint).mpr (.inr added)
  rcases (counted.tolerated taint).mp hcounter with h | h
  · exact h
  · exact absurd h (not_tolerated_daemonPodTolerations key)

end Counted

/-- The counter accepts the taints that the controller's pods accept exactly if
the template has a toleration of its own for each of the two that are left out. -/
theorem nodeCounter_accepts_iff (p : PodSpec Terms) (counter : Counter Terms Selector)
    (counted : CountedBy c m p counter) :
    AcceptsAsController c m p counter ↔
      Covers p.tolerations unreachable .noExecute ∧
        (p.hostNetwork = true → Covers p.tolerations networkUnavailable .noSchedule) := by
  constructor
  · intro accepts
    refine ⟨(covers_iff (m := m) _ _ _).mpr fun value => ?_,
      fun host => (covers_iff (m := m) _ _ _).mpr fun value => ?_⟩
    · apply counted.template accepts (.inl rfl)
      exact (tolerated_controllerTolerations _ _).mpr (.inr (.inl ⟨rfl, rfl⟩))
    · apply counted.template accepts (.inr rfl)
      exact (tolerated_controllerTolerations _ _).mpr (.inr (.inr ⟨host, rfl, rfl⟩))
  · rintro ⟨hunreachable, hnetwork⟩
    refine ⟨fun taint => ?_, fun p' counter' same counted' => counted.of_set counted' same⟩
    rw [counted.tolerated, tolerated_controllerTolerations]
    constructor
    · rintro (h | h)
      · exact .inl h
      · exact .inr (.inl h)
    · rintro (h | h | ⟨hkey, heffect⟩ | ⟨host, hkey, heffect⟩)
      · exact .inl h
      · exact .inr h
      · rw [← hkey, ← heffect] at hunreachable
        exact .inl (tolerated_of_covers hunreachable)
      · have hcovers := hnetwork host
        rw [← hkey, ← heffect] at hcovers
        exact .inl (tolerated_of_covers hcovers)

/-- A template that tolerates everything, as the pods of a network plugin do. -/
def tolerant : PodSpec String := ⟨[], none, [⟨"", .opExists, "", none, none⟩], true⟩

theorem nodeCounter_accepts_tolerant :
    AcceptsAsController converter byName tolerant
      (newNodeCounter () none (parsedPodSpec byName tolerant).tolerations) :=
  (nodeCounter_accepts_iff converter byName tolerant _
    (getReplicas_daemonSet byName converter tolerant)).mpr ⟨by decide, fun _ => by decide⟩

/-- Without tolerations in the template no pod is counted for an unreachable
node, where the controller keeps one. -/
theorem unreachable_not_accepted :
    ∃ counter, CountedBy converter byName ⟨[], none, [], false⟩ counter ∧
      ¬ AcceptsAsController converter byName ⟨[], none, [], false⟩ counter := by
  refine ⟨_, getReplicas_daemonSet byName converter _, fun accepts => ?_⟩
  have added : Tolerated byName (controllerTolerations false) ⟨unreachable, "", .noExecute⟩ :=
    ⟨existsToleration unreachable .noExecute, by decide, by decide⟩
  have refused : ∀ t ∈ daemonPodTolerations false,
      byName.toleratesTaint t ⟨unreachable, "", .noExecute⟩ = false := by decide
  obtain ⟨t, ht, htolerates⟩ := (accepts.exactly _).mpr (.inr added)
  rw [refused t ht] at htolerates
  cases htolerates

end DaemonTolerations
