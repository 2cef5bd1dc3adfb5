import SharedObjects.Chat
import SharedObjects.Cluster
set_option autoImplicit false

namespace SharedObjects

structure TrialResult where
  posted : Nat
  rejected : Nat
  deliveries : Nat
  applyErrors : Nat
  resubscribes : Nat
  diverged : List ObjectId
  deriving DecidableEq, Repr

namespace TrialResult

def none : TrialResult := ⟨0, 0, 0, 0, 0, []⟩

def converged (r : TrialResult) : Bool := r.diverged.isEmpty

def isValid (r : TrialResult) : Bool := r.converged && r.applyErrors = 0

end TrialResult

structure Trial where
  cluster : Cluster
  rooms : List ObjectId
  clients : List EndpointId

namespace Trial

def new (catalog : Catalog) (faults : LinkFaults) : Trial :=
  ⟨.new catalog .testing faults, [], []⟩

def historyLength : Nat := 4

def addRoom (clock : Nat → Instant) (t : Trial) (number : Nat) : Except Fault Trial :=
  let fields := [(Chat.roomName, .text ("room-" ++ Nat.repr number)),
    (Chat.roomHistory, .list (List.replicate historyLength .null))]
  match t.cluster.host (clock number) Chat.roomType fields with
  | (.ok id, cluster) => .ok { t with cluster := cluster, rooms := t.rooms ++ [id] }
  | (.error fault, _) => .error fault

def subscribeAll (e : EndpointId) : List ObjectId → Cluster → Except Fault Cluster
  | [], c => .ok c
  | id :: ids, c =>
    match c.subscribe e id with
    | (.ok _, c) => subscribeAll e ids c
    | (.error fault, _) => .error fault

def addClient (t : Trial) : Except Fault Trial := do
  let (e, cluster) := t.cluster.addClient
  return { t with cluster := ← subscribeAll e t.rooms cluster, clients := t.clients ++ [e] }

/-- Rooms first, then clients; the clock is read once for every room. -/
def setUp (clock : Nat → Instant) (faults : LinkFaults) (clients objects : Nat) :
    Except Fault Trial := do
  let t := new (← Chat.catalog) faults
  let t ← (List.range objects).foldlM (addRoom clock) t
  (List.range clients).foldlM (fun t _ => addClient t) t

/-- Delivers everything and compares, unless there is nothing to compare. -/
def run (t : Trial) : TrialResult × Trial :=
  if t.rooms.isEmpty then (.none, t)
  else
    let (pumped, cluster) := t.cluster.pump
    ({ TrialResult.none with
        deliveries := pumped.delivered
        applyErrors := pumped.errors.length
        diverged := t.rooms.filter (fun id => !cluster.converged id) },
      { t with cluster := cluster })

end Trial

end SharedObjects
