import ClusterLoader.APIAvailability

/-!
# The handshake of pause and unpause

Execute looks at the flag and, where it differs from the request, hands the
request to the worker; the worker writes the flag after it has received. Between
the two the flag says the opposite of where the worker is heading. A request
issued then is either dropped although it is not yet fulfilled, or sent to a
worker that will not receive it.

`heading` is where the worker comes to rest if it receives nothing more. Every
step of the worker keeps it, and only a handshake turns it. Both results follow
from this: which calls of Execute can return, and whether the worker ends where
the last request wanted it.

That a state is left by an enabled step in the end is not claimed; a call can
return if some steps of the worker lead there.
-/

namespace PauseProtocol

open KeyedStore EnabledRuns APIAvailability

section Invariant

/-- What holds in every state, whatever is issued. -/
structure Coherent (s : System) : Prop where
  paused : s.worker = .parked ∨ s.worker = .resuming → s.measurement.isPaused = true
  unpaused : s.worker = .polling ∨ s.worker = .pausing → s.measurement.isPaused = false
  running : s.worker ≠ .gone → s.measurement.isRunning = true
  exist : s.worker ≠ .gone → MetricsExist s.measurement
  known : s.measurement.isRunning = false → HostsKnown s.measurement
  stopping : s.controller = .gathering ↔
    s.measurement.stopped = true ∧ s.measurement.isRunning = true

theorem coherent_created : Coherent created where
  paused := by simp [created]
  unpaused := by simp [created]
  running := fun alive => absurd rfl alive
  exist := fun alive => absurd rfl alive
  known := fun _ enabled => absurd enabled (by decide)
  stopping := by decide

variable {s t : System}

section
variable (coherent : Coherent s)
include coherent

theorem Coherent.gone_of_resting (resting : s.measurement.isRunning = false) :
    s.worker = .gone := by
  by_contra alive
  cases resting.symm.trans (coherent.running alive)

theorem Coherent.start (idle : s.controller = .idle) (config : Config) :
    Coherent (start config s) := by
  have effect := start_effect config s
  generalize APIAvailability.start config s = t at effect ⊢
  cases effect with
  | ignored running => exact coherent
  | failed resting result running stopped summaries =>
    have gone := coherent.gone_of_resting resting
    exact {
      paused := by simp [gone]
      unpaused := by simp [gone]
      running := fun _ => running
      exist := fun alive => absurd gone alive
      known := fun resting => by cases running.symm.trans resting
      stopping := by simp [idle, stopped] }
  | succeeded resting result running stopped summaries started =>
    exact {
      paused := by simp
      unpaused := by simp
      running := fun _ => running
      exist := fun _ => started.metricsExist (coherent.known resting)
      known := fun resting => by cases running.symm.trans resting
      stopping := by simp [idle, stopped] }

/-- Nothing but the controller changes, and no gather begins. -/
theorem Coherent.waiting (idle : s.controller = .idle) {controller : Controller}
    (h : controller ≠ .gathering) :
    Coherent { s with controller := controller } :=
  { coherent with
    stopping := by
      refine ⟨fun gathering => absurd gathering h, fun stopping => ?_⟩
      rw [coherent.stopping.mpr stopping] at idle
      cases idle }

theorem Coherent.execute (idle : s.controller = .idle) (r : Request) :
    Coherent (execute r s) := by
  cases r with
  | start config => exact coherent.start idle config
  | pause | unpause =>
    simp only [APIAvailability.execute, pause, unpause]
    split
    · exact coherent.waiting idle (by decide)
    · exact coherent
  | gather =>
    rw [APIAvailability.execute, gather]
    split
    · rename_i running
      exact { coherent with
        exist := fun alive => ⟨(coherent.exist alive).cluster, (coherent.exist alive).hosts⟩
        stopping := by simp [running] }
    · exact coherent
  | unknown action => exact coherent

theorem Coherent.tick (polling : s.worker = .polling) (cluster : Bool)
    {hosts : List (String × Bool)} (answers : Answers s.measurement hosts) :
    ∃ a, tick s (s.measurement.probe cluster hosts) =
        { s with measurement := a, worker := .checking } ∧
      MetricsExist a ∧ a.isPaused = false ∧
      Coherent { s with measurement := a, worker := .checking } := by
  have alive : s.worker ≠ .gone := by
    rw [polling]
    decide
  obtain ⟨a, hprobe, exist, framed⟩ := (coherent.exist alive).probe answers cluster
  rw [hprobe]
  refine ⟨a, rfl, exist, framed.isPaused.trans (coherent.unpaused (.inl polling)), ?_⟩
  exact {
    paused := by simp
    unpaused := by simp
    running := fun _ => framed.isRunning.trans (coherent.running alive)
    exist := fun _ => exist
    known := fun _ => exist.hosts
    stopping := by
      rw [coherent.stopping, framed.stopped, framed.isRunning] }

theorem Coherent.finish (gone : s.worker = .gone) :
    Coherent (finish s s.measurement.gathered) := by
  by_cases exist : MetricsExist s.measurement
  · obtain ⟨output, violation, -, hgathered⟩ := exist.gathered
    rw [hgathered]
    exact {
      paused := by simp [APIAvailability.finish, gone]
      unpaused := by simp [APIAvailability.finish, gone]
      running := fun alive => absurd gone alive
      exist := fun alive => absurd gone alive
      known := fun _ => exist.hosts
      stopping := by simp [APIAvailability.finish] }
  · rw [gathered_eq_none exist]
    exact ⟨coherent.paused, coherent.unpaused, coherent.running, coherent.exist, coherent.known,
      coherent.stopping⟩

/-- The worker moves on, having perhaps received or written the flag. -/
theorem Coherent.moved (alive : s.worker ≠ .gone) {controller : Controller} {worker : Worker}
    (isPaused : Bool) (same : controller = .gathering ↔ s.controller = .gathering)
    (paused : worker = .parked ∨ worker = .resuming → isPaused = true)
    (unpaused : worker = .polling ∨ worker = .pausing → isPaused = false) :
    Coherent { setPaused s isPaused with controller := controller, worker := worker } where
  paused := paused
  unpaused := unpaused
  running := fun _ => coherent.running alive
  exist := fun _ => ⟨(coherent.exist alive).cluster, (coherent.exist alive).hosts⟩
  known := coherent.known
  stopping := same.trans coherent.stopping

theorem Coherent.effect {action : Action} (effect : Effect s action t) :
    Coherent t := by
  cases effect with
  | issue r idle => exact coherent.execute idle r
  | receivePause pausing polling =>
    have unpaused := coherent.unpaused (.inl polling)
    exact coherent.moved (by simp [polling]) s.measurement.isPaused
      (by simp [pausing]) (by simp) fun _ => unpaused
  | receiveUnpause unpausing parked =>
    have paused := coherent.paused (.inl parked)
    exact coherent.moved (by simp [parked]) s.measurement.isPaused
      (by simp [unpausing]) (fun _ => paused) (by simp)
  | check checking =>
    refine coherent.moved (by simp [checking]) s.measurement.isPaused Iff.rfl ?_ ?_
    · cases s.measurement.isPaused <;> simp
    · cases s.measurement.isPaused <;> simp
  | clear resuming =>
    exact coherent.moved (by simp [resuming]) false Iff.rfl (by simp) (by simp)
  | set pausing =>
    exact coherent.moved (by simp [pausing]) true Iff.rfl (by simp) (by simp)
  | probe cluster hosts polling answers =>
    obtain ⟨a, eq, -, -, coherent⟩ := coherent.tick polling cluster answers
    rw [eq]
    exact coherent
  | exit stopped waiting =>
    exact ⟨by simp, by simp, by simp, by simp, coherent.known, coherent.stopping⟩
  | join gathering gone => exact coherent.finish gone

end

theorem coherent_of_exec {actions : List Action} (h : exec step created actions = some s) :
    Coherent s :=
  exec_keeps (fun _ _ _ _ coherent h => coherent.effect (step_eq_some.mp h).2) coherent_created h

end Invariant

section Heading

/-- Where the worker comes to rest if it receives nothing more. -/
def heading (s : System) : Bool :=
  match s.worker with
  | .gone | .checking => s.measurement.isPaused
  | .parked | .pausing => true
  | .polling | .resuming => false

/-- The worker has written the flag for all that it has received. -/
def Settled (s : System) : Prop := s.worker ≠ .pausing ∧ s.worker ≠ .resuming

instance (s : System) : Decidable (Settled s) := inferInstanceAs (Decidable (_ ∧ _))

variable {s t : System}

/-- Between a receive and its write the flag says the opposite. -/
theorem Coherent.heading_eq_iff (coherent : Coherent s) :
    heading s = s.measurement.isPaused ↔ Settled s := by
  rw [heading, Settled]
  cases h : s.worker with
  | gone | checking => simp
  | parked => simp [coherent.paused (.inl h)]
  | resuming => simp [coherent.paused (.inr h)]
  | polling => simp [coherent.unpaused (.inl h)]
  | pausing => simp [coherent.unpaused (.inr h)]

/-- The request for this flag, and the call of Execute that waits to hand it over. -/
def ask : Bool → Request
  | true => .pause
  | false => .unpause

def sending : Bool → Controller
  | true => .pausing
  | false => .unpausing

theorem execute_ask (s : System) (requested : Bool) :
    execute (ask requested) s =
      if s.measurement.isRunning = true ∧ s.measurement.isPaused = !requested then
        { s with controller := sending requested }
      else s := by
  cases requested <;> simp [execute, ask, pause, unpause, sending]

/-- What the worker can do while the controller issues nothing. -/
inductive Progress (s t : System) : Prop where
  | kept : t.controller = s.controller → heading t = heading s →
      s.worker ≠ .gone → (s.controller ≠ .gathering → t.worker ≠ .gone) → t.panicked = s.panicked →
      MetricsExist s.measurement → MetricsExist t.measurement → Progress s t
  | received (requested : Bool) : s.controller = sending requested → heading s = !requested →
      t.controller = .idle → heading t = requested → s.worker ≠ .gone →
      t.panicked = s.panicked → Progress s t
  | joined : s.controller = .gathering → s.worker = .gone →
      t = finish s s.measurement.gathered → Progress s t

def Internal : Action → Prop
  | .issue _ => False
  | _ => True

theorem progress {action : Action} (coherent : Coherent s) (effect : Effect s action t)
    (internal : Internal action) : Progress s t := by
  cases effect with
  | issue r idle => exact internal.elim
  | receivePause pausing polling =>
    exact .received true pausing (by simp [heading, polling]) rfl rfl (by simp [polling]) rfl
  | receiveUnpause unpausing parked =>
    exact .received false unpausing (by simp [heading, parked]) rfl rfl (by simp [parked]) rfl
  | check checking =>
    have alive : s.worker ≠ .gone := by simp [checking]
    have exist := coherent.exist alive
    refine .kept rfl ?_ alive ?_ rfl exist exist
    · simp only [heading, checking]
      cases s.measurement.isPaused <;> rfl
    · cases s.measurement.isPaused <;> simp
  | clear resuming =>
    have alive : s.worker ≠ .gone := by simp [resuming]
    have exist := coherent.exist alive
    exact .kept rfl (by simp [heading, resuming]) alive (by simp) rfl exist
      ⟨exist.cluster, exist.hosts⟩
  | set pausing =>
    have alive : s.worker ≠ .gone := by simp [pausing]
    have exist := coherent.exist alive
    exact .kept rfl (by simp [heading, pausing, setPaused]) alive (by simp) rfl exist
      ⟨exist.cluster, exist.hosts⟩
  | probe cluster hosts polling answers =>
    have alive : s.worker ≠ .gone := by simp [polling]
    obtain ⟨a, eq, exist, unpaused, -⟩ := coherent.tick polling cluster answers
    rw [eq]
    exact .kept rfl (by simp [heading, polling, unpaused]) alive (by simp) rfl
      (coherent.exist alive) exist
  | exit stopped waits =>
    have alive : s.worker ≠ .gone := by
      rcases waits with h | h <;> simp [h]
    have settled : Settled s := by
      rcases waits with h | h <;> simp [Settled, h]
    have gathering := coherent.stopping.mpr ⟨stopped, coherent.running alive⟩
    have exist := coherent.exist alive
    exact .kept rfl (coherent.heading_eq_iff.mpr settled).symm alive
      (fun h => absurd gathering h) rfl exist exist
  | join gathering gone => exact .joined gathering gone rfl

theorem sending_ne_idle (requested : Bool) : sending requested ≠ .idle := by
  cases requested <;> decide

theorem sending_ne_gathering (requested : Bool) : sending requested ≠ .gathering := by
  cases requested <;> decide

theorem sending_injective {requested requested' : Bool}
    (h : sending requested = sending requested') : requested = requested' := by
  cases requested <;> cases requested' <;> first | rfl | cases h

end Heading

section LastRequest

variable {s t : System}

theorem internal_keeps {p : System → Prop}
    (kept : ∀ u v, u.panicked = false → p u → Progress u v → p v)
    (coherent : Coherent s) (holds : p s) (run : Reaches step Internal s t) : p t := by
  refine (run.keeps (p := fun u => Coherent u ∧ p u) ?_ ⟨coherent, holds⟩).2
  rintro u a v internal ⟨coherent, holds⟩ h
  obtain ⟨calm, effect⟩ := step_eq_some.mp h
  exact ⟨coherent.effect effect, kept u v calm holds (progress coherent effect internal)⟩

section
variable (coherent : Coherent s)
include coherent

/-- A worker that is gone is not brought back by what is still in progress. -/
theorem gone_of_internal (gone : s.worker = .gone) (run : Reaches step Internal s t) :
    t.worker = .gone := by
  refine internal_keeps (p := fun u => u.worker = .gone) ?_ coherent gone run
  rintro u v - gone (⟨_, _, alive⟩ | ⟨_, _, _, _, _, alive⟩ | ⟨_, _, eq⟩)
  · exact absurd gone alive
  · exact absurd gone alive
  · rw [eq]
    cases u.measurement.gathered <;> exact gone

/-- Without a request in progress the worker comes to rest where it is heading. -/
theorem heading_of_idle (idle : s.controller = .idle) (run : Reaches step Internal s t) :
    heading t = heading s := by
  refine (internal_keeps (p := fun u => u.controller = .idle ∧ heading u = heading s) ?_
    coherent ⟨idle, rfl⟩ run).2
  rintro u v - ⟨idle, eq⟩ (⟨controller, same⟩ | ⟨requested, sent⟩ | ⟨gathering⟩)
  · exact ⟨controller.trans idle, same.trans eq⟩
  · exact absurd (sent.symm.trans idle) (sending_ne_idle requested)
  · rw [gathering] at idle
    cases idle

/-- A request that returns has turned the worker. -/
theorem heading_of_sent {requested : Bool} (sent : s.controller = sending requested)
    (run : Reaches step Internal s t) (returned : t.controller = .idle) :
    heading t = requested := by
  have either : t.controller = sending requested ∨
      t.controller = .idle ∧ heading t = requested := by
    refine internal_keeps (p := fun u => u.controller = sending requested ∨
      u.controller = .idle ∧ heading u = requested) ?_ coherent (.inl sent) run
    rintro u v - either (⟨controller, same⟩ | ⟨requested', sent', _, idle, turned⟩ | ⟨gathering⟩)
    · rw [controller, same]
      exact either
    · rcases either with sent | ⟨idle', -⟩
      · obtain rfl := sending_injective (sent.symm.trans sent')
        exact .inr ⟨idle, turned⟩
      · exact absurd (sent'.symm.trans idle') (sending_ne_idle requested')
    · rcases either with sent | ⟨idle, -⟩
      · exact absurd (sent.symm.trans gathering) (sending_ne_gathering requested)
      · rw [gathering] at idle
        cases idle
  rcases either with sent | ⟨-, turned⟩
  · exact absurd (sent.symm.trans returned) (sending_ne_idle requested)
  · exact turned

/-- A request sent to a worker that is already heading there is never received. -/
theorem unheard_of_heading {requested : Bool} (sent : s.controller = sending requested)
    (already : heading s = requested) (run : Reaches step Internal s t) :
    t.controller = sending requested := by
  refine (internal_keeps (p := fun u => u.controller = sending requested ∧
    heading u = requested) ?_ coherent ⟨sent, already⟩ run).1
  rintro u v - ⟨sent, already⟩ (⟨controller, same⟩ | ⟨requested', sent', other⟩ | ⟨gathering⟩)
  · exact ⟨controller.trans sent, same.trans already⟩
  · obtain rfl := sending_injective (sent.symm.trans sent')
    rw [already] at other
    simp at other
  · exact absurd (sent.symm.trans gathering) (sending_ne_gathering requested)

end

theorem parked_iff_heading (waits : t.worker = .parked ∨ t.worker = .polling) :
    t.worker = .parked ↔ heading t = true := by
  rcases waits with h | h <;> simp [heading, h]

/-- Every call up to the last request has returned, the request is issued in `s`
and returns, and the worker has come to rest: it rests where the request wanted
it exactly if no write of the flag was pending when the request was issued. -/
theorem last_request_honoured_iff {before rest : List Action} {requested : Bool}
    (reached : exec step created before = some s) (internal : ∀ a ∈ rest, Internal a)
    (run : exec step s (.issue (ask requested) :: rest) = some t)
    (returned : t.controller = .idle) (waits : t.worker = .parked ∨ t.worker = .polling) :
    (t.worker = .parked ↔ requested = true) ↔ Settled s := by
  have coherent := coherent_of_exec reached
  obtain ⟨u, issued, others⟩ := exec_cons_some run
  have others : Reaches step Internal u t := ⟨rest, internal, others⟩
  obtain ⟨-, effect⟩ := step_eq_some.mp issued
  have coherent_u := coherent.effect effect
  generalize u_eq : u = u' at effect
  cases effect with
  | issue _ idle =>
    rw [execute_ask] at u_eq
    rw [parked_iff_heading waits, ← coherent.heading_eq_iff]
    have alive : s.worker ≠ .gone := by
      intro gone
      have gone_u : u.worker = .gone := by
        rw [u_eq]
        split <;> exact gone
      have := gone_of_internal coherent_u gone_u others
      rcases waits with h | h <;> simp [h] at this
    have running := coherent.running alive
    by_cases differs : s.measurement.isPaused = !requested
    · rw [if_pos ⟨running, differs⟩] at u_eq
      subst u_eq
      by_cases already : heading s = requested
      · have unheard := unheard_of_heading coherent_u rfl already others
        exact absurd (unheard.symm.trans returned) (sending_ne_idle _)
      · have other := Bool.eq_not.mpr already
        have turned := heading_of_sent coherent_u rfl others returned
        rw [turned, differs, other]
        simp
    · rw [if_neg fun h => differs h.2] at u_eq
      rw [u_eq] at others
      have agrees : s.measurement.isPaused = requested := by
        simpa using differs
      rw [heading_of_idle coherent idle others, agrees]
      exact Bool.eq_iff_iff.symm

/-- A measurement of the cluster only, at every tick of one second. -/
def clusterOnly : Config where
  pollFrequency := some (.ok 1000000000)
  threshold := none
  useHostInternalIPs := none
  useHostPublicIPs := none
  hostPollTimeoutSeconds := none
  hostPollExecTimeoutSeconds := none
  execServiceEnable := false
  masterInternalIPs := []
  masterIPs := []

theorem unpause_after_write_honoured :
    ∃ s t, exec step created [.issue (.start clusterOnly), .check, .issue (ask true),
        .receivePause, .write] = some s ∧
      exec step s [.issue (ask false), .check, .receiveUnpause, .write] = some t ∧
      t.controller = .idle ∧ t.worker = .polling ∧ Settled s ∧
      ((t.worker = .parked ↔ false = true) ↔ Settled s) :=
  have reached : exec step created [.issue (.start clusterOnly), .check, .issue (ask true),
      .receivePause, .write] = some _ := rfl
  have internal : ∀ a ∈ [Action.check, .receiveUnpause, .write], Internal a := by simp [Internal]
  ⟨_, _, rfl, rfl, rfl, rfl, by decide,
    last_request_honoured_iff reached internal rfl rfl (.inr rfl)⟩

/-- The pause is received and returns. The unpause comes before the flag is
written and is dropped; the worker then writes the flag and parks. -/
theorem unpause_before_write_dropped :
    ∃ s t, exec step created [.issue (.start clusterOnly), .check, .issue (ask true),
        .receivePause] = some s ∧
      exec step s [.issue (ask false), .write, .check] = some t ∧
      t.controller = .idle ∧ t.worker = .parked ∧ ¬ (t.worker = .parked ↔ false = true) :=
  ⟨_, _, rfl, rfl, rfl, rfl, by decide⟩

end LastRequest

section Liveness

variable {s t : System}

/-- The Execute in progress can return by steps of the worker and its own. -/
def Returnable (s : System) : Prop :=
  ∃ t, Reaches step Internal s t ∧ t.controller = .idle

/-- What the Execute in progress needs in order to return: a worker that comes
to the select which receives its request, or the metrics of its report. -/
structure Heard (s : System) : Prop where
  received : ∀ requested, s.controller = sending requested →
    s.worker ≠ .gone ∧ heading s = !requested
  reported : s.controller = .gathering → MetricsExist s.measurement

theorem heard_of_idle (idle : s.controller = .idle) : Heard s where
  received := fun requested sent => absurd (sent.symm.trans idle) (sending_ne_idle requested)
  reported := by simp [idle]

/-- The worker as it waits for its next message or tick. -/
def rested (s : System) : System :=
  { setPaused s (heading s) with worker := if heading s then .parked else .polling }

variable {action : Action}

theorem reaches_by {u : System} (effect : Effect s action u)
    (internal : Internal action) (calm : s.panicked = false)
    (rest : Reaches step Internal u t) : Reaches step Internal s t :=
  rest.head internal (step_eq_some.mpr ⟨calm, effect⟩)

theorem reaches_rested (coherent : Coherent s) (calm : s.panicked = false)
    (alive : s.worker ≠ .gone) : Reaches step Internal s (rested s) := by
  obtain ⟨a, controller, worker, panicked⟩ := s
  cases worker with
  | gone => exact absurd rfl alive
  | checking => exact reaches_by (.check rfl) trivial calm (.refl _)
  | parked =>
    have paused : a.isPaused = true := coherent.paused (.inl rfl)
    have same : rested ⟨a, controller, .parked, panicked⟩ = ⟨a, controller, .parked, panicked⟩ := by
      simp [rested, heading, setPaused, ← paused]
    rw [same]
    exact .refl _
  | polling =>
    have unpaused : a.isPaused = false := coherent.unpaused (.inl rfl)
    have same : rested ⟨a, controller, .polling, panicked⟩ =
        ⟨a, controller, .polling, panicked⟩ := by
      simp [rested, heading, setPaused, ← unpaused]
    rw [same]
    exact .refl _
  | resuming => exact reaches_by (.clear rfl) trivial calm (.refl _)
  | pausing =>
    refine reaches_by (.set rfl) trivial calm ?_
    exact reaches_by (.check rfl) trivial calm (.refl _)

/-- Gather returns once the worker has left. -/
theorem returnable_of_gone (calm : s.panicked = false) (gathering : s.controller = .gathering)
    (gone : s.worker = .gone) (exist : MetricsExist s.measurement) : Returnable s := by
  refine ⟨_, reaches_by (.join gathering gone) trivial calm (.refl _), ?_⟩
  obtain ⟨output, violation, -, hgathered⟩ := exist.gathered
  rw [hgathered]
  rfl

theorem Returnable.of_reaches (first : Reaches step Internal s t) (h : Returnable t) :
    Returnable s := by
  obtain ⟨u, rest, idle⟩ := h
  exact ⟨u, first.trans rest, idle⟩

section
variable (coherent : Coherent s)
include coherent

theorem returnable_of_heard (calm : s.panicked = false) (heard : Heard s) : Returnable s := by
  cases controller : s.controller with
  | idle => exact ⟨s, .refl s, controller⟩
  | pausing =>
    obtain ⟨alive, toward⟩ := heard.received true controller
    have polling : (rested s).worker = .polling := by simp [rested, toward]
    refine .of_reaches (reaches_rested coherent calm alive) ?_
    exact ⟨_, reaches_by (.receivePause controller polling) trivial calm (.refl _), rfl⟩
  | unpausing =>
    obtain ⟨alive, toward⟩ := heard.received false controller
    have parked : (rested s).worker = .parked := by simp [rested, toward]
    refine .of_reaches (reaches_rested coherent calm alive) ?_
    exact ⟨_, reaches_by (.receiveUnpause controller parked) trivial calm (.refl _), rfl⟩
  | gathering =>
    have exist := heard.reported controller
    by_cases gone : s.worker = .gone
    · exact returnable_of_gone calm controller gone exist
    · have stopped := (coherent.stopping.mp controller).1
      have waits : (rested s).worker = .parked ∨ (rested s).worker = .polling := by
        cases h : heading s <;> simp [rested]
      refine .of_reaches (reaches_rested coherent calm gone) ?_
      refine .of_reaches (reaches_by (.exit stopped waits) trivial calm (.refl _)) ?_
      exact returnable_of_gone calm controller rfl ⟨exist.cluster, exist.hosts⟩

/-- A call that is not heard stays so, or ends the process. -/
theorem not_returnable (unheard : ¬ Heard s) : ¬ Returnable s := by
  rintro ⟨t, run, idle⟩
  have stuck : t.controller ≠ .idle := by
    refine (internal_keeps (p := fun u => u.controller ≠ .idle ∧ (u.panicked = true ∨ ¬ Heard u))
      ?_ coherent ⟨fun h => unheard (heard_of_idle h), .inr unheard⟩ run).1
    rintro u v calm ⟨busy, unheard⟩ progress
    have unheard : ¬ Heard u := unheard.resolve_left (by simp [calm])
    cases progress with
    | kept controller same alive _ _ exist _ =>
      refine ⟨controller ▸ busy, .inr fun heard => unheard ⟨?_, fun _ => exist⟩⟩
      intro requested sent
      exact ⟨alive, same ▸ (heard.received requested (controller.trans sent)).2⟩
    | received requested sent other _ _ alive _ =>
      refine absurd ⟨fun requested' sent' => ?_, fun gathering => ?_⟩ unheard
      · obtain rfl := sending_injective (sent.symm.trans sent')
        exact ⟨alive, other⟩
      · exact absurd (sent.symm.trans gathering) (sending_ne_gathering requested)
    | joined gathering gone eq =>
      have missing : ¬ MetricsExist u.measurement := by
        refine fun exist => unheard ⟨fun requested sent => ?_, fun _ => exist⟩
        exact absurd (sent.symm.trans gathering) (sending_ne_gathering requested)
      rw [eq, gathered_eq_none missing]
      exact ⟨busy, .inl rfl⟩
  exact stuck idle

/-- The state before a request that can be answered: no request to pause or
unpause goes to a worker that is not there or has yet to write the flag, and no
report is made without its metrics. -/
def Answerable (s : System) : Action → Prop
  | .issue .pause => s.measurement.isRunning = true → s.measurement.isPaused = false →
      s.worker ≠ .gone ∧ s.worker ≠ .pausing
  | .issue .unpause => s.measurement.isRunning = true → s.measurement.isPaused = true →
      s.worker ≠ .gone ∧ s.worker ≠ .resuming
  | .issue .gather => s.measurement.isRunning = true → MetricsExist s.measurement
  | _ => True

theorem answerable_ask (requested : Bool) :
    Answerable s (.issue (ask requested)) ↔
      (s.measurement.isRunning = true → s.measurement.isPaused = !requested →
        s.worker ≠ .gone ∧ heading s = !requested) := by
  have settled : s.measurement.isPaused = !requested → (heading s = !requested ↔ Settled s) := by
    intro flag
    rw [← flag]
    exact coherent.heading_eq_iff
  cases requested with
  | true =>
    refine forall_congr' fun running => forall_congr' fun flag => and_congr_right fun alive => ?_
    rw [settled flag]
    refine ⟨fun h => ⟨h, fun resuming => ?_⟩, And.left⟩
    cases flag.symm.trans (coherent.paused (.inr resuming))
  | false =>
    refine forall_congr' fun running => forall_congr' fun flag => and_congr_right fun alive => ?_
    rw [settled flag]
    refine ⟨fun h => ⟨fun pausing => ?_, h⟩, And.right⟩
    cases flag.symm.trans (coherent.unpaused (.inr pausing))

theorem heard_ask_iff (idle : s.controller = .idle) (requested : Bool) :
    Heard (execute (ask requested) s) ↔ Answerable s (.issue (ask requested)) := by
  rw [answerable_ask coherent, execute_ask]
  split
  · rename_i sent
    constructor
    · intro heard _ _
      exact heard.received requested rfl
    · intro answerable
      refine ⟨fun requested' sent' => ?_, fun gathering => ?_⟩
      · obtain rfl := sending_injective sent'
        exact answerable sent.1 sent.2
      · exact absurd gathering (sending_ne_gathering requested)
  · rename_i ignored
    exact ⟨fun _ running flag => absurd ⟨running, flag⟩ ignored, fun _ => heard_of_idle idle⟩

end

theorem heard_gather_iff (idle : s.controller = .idle) :
    Heard (gather s) ↔ Answerable s (.issue .gather) := by
  rw [gather]
  split
  · rename_i running
    constructor
    · intro heard _
      exact ⟨(heard.reported rfl).cluster, (heard.reported rfl).hosts⟩
    · intro answerable
      refine ⟨fun requested sent => absurd sent.symm (sending_ne_gathering requested), fun _ => ?_⟩
      exact ⟨(answerable running).cluster, (answerable running).hosts⟩
  · rename_i resting
    exact ⟨fun _ running => absurd running resting, fun _ => heard_of_idle idle⟩

theorem heard_execute_iff (coherent : Coherent s) (idle : s.controller = .idle) (r : Request) :
    Heard (execute r s) ↔ Answerable s (.issue r) := by
  cases r with
  | start config =>
    exact iff_of_true (heard_of_idle ((start_frame config s).1.trans idle)) trivial
  | pause => exact heard_ask_iff coherent idle true
  | unpause => exact heard_ask_iff coherent idle false
  | gather => exact heard_gather_iff idle
  | unknown action => exact iff_of_true (heard_of_idle idle) trivial

theorem execute_panicked (r : Request) : (execute r s).panicked = s.panicked := by
  have frame := execute_frame s r
  cases r with
  | start config => exact (start_frame config s).2
  | _ =>
    obtain ⟨_, _, eq⟩ := frame (by simp)
    rw [eq]

/-- No call waits in vain. -/
structure Sound (s : System) : Prop where
  coherent : Coherent s
  calm : s.panicked = false
  heard : Heard s

theorem sound_created : Sound created :=
  ⟨coherent_created, rfl, heard_of_idle rfl⟩

theorem Sound.internal (sound : Sound s) (coherent : Coherent t) (progress : Progress s t) :
    Sound t := by
  obtain ⟨-, calm, heard⟩ := sound
  cases progress with
  | kept controller same _ stays panicked _ exist =>
    refine ⟨coherent, panicked.trans calm, fun requested sent => ?_, fun _ => exist⟩
    rw [controller] at sent
    refine ⟨stays ?_, same.trans (heard.received requested sent).2⟩
    rw [sent]
    exact sending_ne_gathering requested
  | received _ _ _ idle _ _ panicked => exact ⟨coherent, panicked.trans calm, heard_of_idle idle⟩
  | joined gathering _ eq =>
    obtain ⟨output, violation, -, hgathered⟩ := (heard.reported gathering).gathered
    rw [hgathered] at eq
    subst eq
    exact ⟨coherent, calm, heard_of_idle rfl⟩

theorem Sound.effect (sound : Sound s) (answerable : Answerable s action)
    (effect : Effect s action t) : Sound t := by
  have coherent := sound.coherent.effect effect
  cases action with
  | issue r =>
    cases effect with
    | issue _ idle =>
      refine ⟨coherent, (execute_panicked r).trans sound.calm, ?_⟩
      exact (heard_execute_iff sound.coherent idle r).mpr answerable
  | _ => exact sound.internal coherent (progress sound.coherent effect trivial)

theorem not_returnable_of_not_answerable (sound : Sound s)
    (unanswerable : ¬ Answerable s action) (effect : Effect s action t) : ¬ Returnable t := by
  have coherent := sound.coherent.effect effect
  cases action with
  | issue r =>
    cases effect with
    | issue _ idle =>
      refine not_returnable coherent fun heard => unanswerable ?_
      exact (heard_execute_iff sound.coherent idle r).mp heard
  | _ => exact absurd trivial unanswerable

/-- Every Execute can return in every state that the run comes to, exactly if
each request of the run is answerable where it is issued. -/
theorem every_call_returnable_iff (actions : List Action) :
    Throughout step Returnable created actions ↔ Along step Answerable created actions := by
  refine throughout_iff_along (q := Sound) ?_ ?_ ?_ sound_created
  · intro s sound
    exact returnable_of_heard sound.coherent sound.calm sound.heard
  · intro s action t sound answerable h
    exact sound.effect answerable (step_eq_some.mp h).2
  · intro s action t sound unanswerable h
    exact not_returnable_of_not_answerable sound unanswerable (step_eq_some.mp h).2

/-- The second pause is issued before the worker has written the flag. It waits
for a worker that only another unpause, which cannot be issued, would free. -/
theorem second_pause_never_returns :
    ∃ s, exec step created [.issue (.start clusterOnly), .check, .issue .pause, .receivePause,
        .issue .pause] = some s ∧ s.controller = .pausing ∧ ¬ Returnable s := by
  have reached : exec step created [.issue (.start clusterOnly), .check, .issue .pause,
      .receivePause, .issue .pause] = some _ := rfl
  refine ⟨_, reached, rfl, not_returnable (coherent_of_exec reached) fun heard => ?_⟩
  cases (heard.received true rfl).2

end Liveness

end PauseProtocol
