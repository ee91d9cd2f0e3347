import ClusterLoader.FallibleLoops
import Mathlib.Data.List.Rotate

/-!
# Sets of clients used round robin

The set of clients and the set of dynamic clients are one program with two kinds
of client. GetClient holds the lock from its first access to its last, so calls
of any number of goroutines come one after another, in the order in which they
get the lock.

What PrepareConfig and NewForConfig yield is given, for each turn of the loop of
a constructor. Numbers so large that the clients do not fit into memory are left
out.
-/

namespace MultiClients

open FallibleLoops

universe u v

variable {Config : Type u} {Client : Type v} {Caller : Type}

inductive Result (α : Type u) where
  | ok (a : α)
  | error (message : String)
  | panic (message : String)

structure Multi (Client : Type v) where
  clients : List Client
  current : Nat

/-- The cluster as the constructors see it. -/
structure Environment (Config : Type u) (Client : Type v) where
  prepareConfig : Nat → Except String Config
  newForConfig : Nat → Config → Except String Client

/-- One turn of the loop; `failed` begins the message for a client that cannot be
created. -/
def createClient (failed : String) (env : Environment Config Client) (number : Int) (i : Nat) :
    Except String Client :=
  match env.prepareConfig i with
  | .error err => .error ("config prepare failed: " ++ err)
  | .ok conf =>
    if number < 1 then .error "incorrect clients number"
    else
      match env.newForConfig i conf with
      | .error err => .error (failed ++ err)
      | .ok client => .ok client

def newMulti (failed : String) (env : Environment Config Client) (number : Int) :
    Result (Multi Client) :=
  if number < 0 then .panic "runtime error: makeslice: len out of range"
  else
    match (List.range number.toNat).mapM (createClient failed env number) with
    | .error err => .error err
    | .ok clients => .ok ⟨clients, 0⟩

def newMultiClientSet : Environment Config Client → Int → Result (Multi Client) :=
  newMulti "creating clientset failed: "

def newMultiDynamicClient : Environment Config Client → Int → Result (Multi Client) :=
  newMulti "creating dynamic config failed: "

abbrev nodesPerClients : Int := 100

/-- The number of clients if none is given; `single` is the case of the providers
KCP and Kubestellar. -/
def getClientsNumber (single : Bool) (nodesNumber : Int) : Int :=
  if single then 1 else (nodesNumber + nodesPerClients - 1).tdiv nodesPerClients

/-- An error is a panic here. -/
def getClient (m : Multi Client) : Except String (Client × Multi Client) :=
  if m.clients.length = 0 then .error "runtime error: integer divide by zero"
  else
    match m.clients[(m.current + 1) % m.clients.length]? with
    | none => .error "runtime error: index out of range"
    | some client => .ok (client, { m with current := (m.current + 1) % m.clients.length })

/-- What callers get that take the lock in the given order. -/
def serve (m : Multi Client) : List Caller → Except String (List (Caller × Client))
  | [] => .ok []
  | i :: order => do
    let (client, m) ← getClient m
    let served ← serve m order
    return (i, client) :: served

/-- Each call gets one of the clients, and any `n` calls in a row get each of the
`n` clients once. -/
structure RoundRobin (clients : List Client) (order : List Caller)
    (served : List (Caller × Client)) : Prop where
  callers : served.map Prod.fst = order
  created : ∀ call ∈ served, call.2 ∈ clients
  each : ∀ i, i + clients.length ≤ served.length →
    (((served.drop i).take clients.length).map Prod.snd).Perm clients

/-- The calls go through the clients from the one after `current`. -/
theorem exists_serve (clients : List Client) (positive : 0 < clients.length) (current : Nat)
    (order : List Caller) : ∃ served, serve ⟨clients, current⟩ order = .ok served ∧
      served.map Prod.fst = order ∧ ∀ j, j < served.length →
        (served.map Prod.snd)[j]? = clients[(current + 1 + j) % clients.length]? := by
  induction order generalizing current with
  | nil => exact ⟨[], rfl, rfl, fun j hj => absurd hj (Nat.not_lt_zero j)⟩
  | cons i order ih =>
    have bound := Nat.mod_lt (current + 1) positive
    obtain ⟨served, run, callers, chosen⟩ := ih ((current + 1) % clients.length)
    have first : getClient ⟨clients, current⟩ = .ok (clients[(current + 1) % clients.length],
        ⟨clients, (current + 1) % clients.length⟩) := by
      simp only [getClient, if_neg (Nat.ne_of_gt positive), List.getElem?_eq_getElem bound]
    refine ⟨(i, clients[(current + 1) % clients.length]) :: served, ?_, ?_, fun j hj => ?_⟩
    · simp only [serve, first, bind, Except.bind, run]
      rfl
    · rw [List.map_cons, callers]
    · cases j with
      | zero => simp
      | succ j =>
        rw [List.map_cons, List.getElem?_cons_succ, chosen j (Nat.lt_of_succ_lt_succ hj),
          Nat.add_assoc, Nat.mod_add_mod]
        congr 2
        omega

theorem roundRobin {clients : List Client} {order : List Caller} {start : Nat}
    {served : List (Caller × Client)} (callers : served.map Prod.fst = order)
    (chosen : ∀ j, j < served.length →
      (served.map Prod.snd)[j]? = clients[(start + j) % clients.length]?) :
    RoundRobin clients order served := by
  refine ⟨callers, fun call hcall => ?_, fun i hi => ?_⟩
  · obtain ⟨j, hj, rfl⟩ := List.mem_iff_getElem.mp hcall
    have := chosen j hj
    rw [List.getElem?_map, List.getElem?_eq_getElem hj] at this
    exact List.mem_of_getElem? this.symm
  · have window : ((served.drop i).take clients.length).map Prod.snd =
        clients.rotate (start + i) := by
      refine List.ext_getElem? fun j => ?_
      by_cases inside : j < clients.length
      · rw [List.getElem?_rotate inside, List.map_take, List.map_drop,
          List.getElem?_take_of_lt inside, List.getElem?_drop, chosen (i + j) (by omega)]
        congr 2
        omega
      · rw [List.getElem?_eq_none (by simp; omega), List.getElem?_eq_none (by simp; omega)]
    exact window ▸ List.rotate_perm clients (start + i)

/-- What a constructor called with `number` has to return: an error for a number
below one, and otherwise a set of as many clients that are used round robin, or an
error. -/
def Correct (number : Int) (result : Result (Multi Client)) : Prop :=
  (number < 1 → ∃ message, result = .error message) ∧
  ∀ m, result = .ok m → m.clients.length = number ∧
    ∀ (Caller : Type) (order : List Caller), ∃ served, serve m order = .ok served ∧
      RoundRobin m.clients order served

variable (failed : String) (env : Environment Config Client) (number : Int)

theorem correct_newMulti_iff : Correct number (newMulti failed env number) ↔ 1 ≤ number := by
  constructor
  · intro correct
    by_contra low
    obtain ⟨message, error⟩ := correct.1 (by omega)
    unfold newMulti at error
    split at error
    · cases error
    · obtain rfl : number = 0 := by omega
      cases error
  · intro high
    refine ⟨fun low => by omega, fun m made => ?_⟩
    rw [newMulti, if_neg (by omega)] at made
    split at made
    · cases made
    · rename_i clients created
      cases made
      have length := length_of_mapM_ok created
      rw [List.length_range] at length
      refine ⟨by simp only [length]; omega, fun Caller order => ?_⟩
      obtain ⟨served, run, callers, chosen⟩ := exists_serve clients (by omega) 0 order
      exact ⟨served, run, roundRobin callers chosen⟩

/-- The clients of either kind are used as they should exactly if at least one is
asked for. -/
theorem clients_round_robin_iff :
    (Correct number (newMultiClientSet env number) ↔ 1 ≤ number) ∧
      (Correct number (newMultiDynamicClient env number) ↔ 1 ≤ number) :=
  ⟨correct_newMulti_iff _ env number, correct_newMulti_iff _ env number⟩

/-- Every configuration is prepared and every client created. -/
def healthy : Environment Unit Unit where
  prepareConfig _ := .ok ()
  newForConfig _ _ := .ok ()

/-- The number chosen for a cluster without nodes gives a set without clients and
no error; the first call of GetClient divides by zero. A negative number panics. -/
theorem no_clients_created :
    getClientsNumber false 0 = 0 ∧
      newMultiClientSet healthy (getClientsNumber false 0) = .ok ⟨[], 0⟩ ∧
      serve (⟨[], 0⟩ : Multi Unit) [()] = .error "runtime error: integer divide by zero" ∧
      newMultiClientSet healthy (-1) = .panic "runtime error: makeslice: len out of range" :=
  ⟨by decide, rfl, rfl, rfl⟩

end MultiClients
