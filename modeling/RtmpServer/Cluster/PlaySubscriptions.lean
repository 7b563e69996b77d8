import RtmpServer.Media.MediaHub

/-!
# Who subscribes to remote owners

The manager's drivers of `subscribe_remote` and `unsubscribe_remote`: a local player that starts or
stops, the ownership sync, and the placement of standby replicas. None of them touches the hub's
references itself. Each spawns detached tasks that do.

`PlayState.step` is one call of a driver, one of its tasks, one step of the hub, or a change of what
the drivers read: the owners in the database, the known addresses, the health of the nodes. Reads of
the database are taken to succeed, and the stream rows do not change.
-/

namespace RtmpServer

def standbySubOwner : String := "standby"

inductive NodeHealthState where
  | ready
  | draining
  | down
  | isolated
  | joining
  | learner
  | leaving
  deriving DecidableEq, Repr

/-- `streams` are the ids and apps of the stream rows. -/
structure PlayConfig where
  nodeId : UInt64
  mediaReplicas : Nat
  streams : List (String × String)
  queue : LiveQueueConfig

abbrev PlayConfig.hub (cfg : PlayConfig) : HubConfig := ⟨cfg.nodeId, cfg.queue⟩

def PlayConfig.app (cfg : PlayConfig) (sid : String) : String :=
  (cfg.streams.lookup sid).getD "live"

def PlayConfig.key (cfg : PlayConfig) (sid : String) : StreamKey := (cfg.app sid, sid)

inductive PlayTask where
  | subscribe (addr : String) (peer : UInt64) (key : StreamKey) (epoch : UInt64) (session : String)
  | standby (addr : String) (peer : UInt64) (key : StreamKey) (epoch : UInt64)
  | unsubscribe (session : String) (peer : UInt64) (key : StreamKey)
  | unsubscribeAll (peer : UInt64) (key : StreamKey)
  deriving DecidableEq

/-- `owners`: the ownership rows, node and epoch. `players`: the active player rows, by session,
with their stream. `nodeMeta`: the media addresses. The hub's tracker is the manager's. -/
structure PlayState (cfg : PlayConfig) where
  owners : AList fun _ : String => UInt64 × UInt64
  players : AList fun _ : String => String
  nodeMeta : AList fun _ : UInt64 => String
  health : AList fun _ : UInt64 => NodeHealthState
  standbySubs : AList fun _ : StreamKey => UInt64
  hub : MediaHub cfg.hub
  tasks : List PlayTask

namespace PlayState

variable {cfg : PlayConfig}

def new : PlayState cfg := ⟨∅, ∅, ∅, ∅, ∅, .new, []⟩

variable (s : PlayState cfg)

def activePlayers (sid : String) : List String :=
  (s.players.entries.filter fun e => e.2 == sid).map fun e => e.1

def spawn (tasks : List PlayTask) : PlayState cfg := { s with tasks := s.tasks ++ tasks }

/-! ### Players -/

def notifyPlaySubscription (session : String) (key : StreamKey) : List PlayTask :=
  match s.owners.lookup key.2 with
  | none => []
  | some (node, epoch) =>
    if node = cfg.nodeId then []
    else
      match s.nodeMeta.lookup node with
      | none => []
      | some addr => [.subscribe addr node key epoch session]

def notifyPlayUnsubscribe (session : String) (key : StreamKey) : List PlayTask :=
  match (s.hub.ownership.get key.2).or (s.owners.lookup key.2) with
  | none => []
  | some (node, _) => if node = cfg.nodeId then [] else [.unsubscribe session node key]

/-! ### Ownership -/

/-- `unsubscribe_captured_remote_owners`, with the owners before the change. -/
def unsubscribeCapturedRemoteOwners (previous : List (String × Option (UInt64 × UInt64))) :
    List PlayTask :=
  previous.flatMap fun (sid, old) =>
    match old with
    | none => []
    | some (node, _) =>
      if node = cfg.nodeId then []
      else if (s.hub.ownership.get sid).map Prod.fst = some node then []
      else [.unsubscribeAll node (cfg.key sid)]

/-- `resubscribe_active_players`, and `refresh_subscriptions_for`. -/
def resubscribeActivePlayers (sids : List String) : List PlayTask :=
  sids.flatMap fun sid =>
    (s.activePlayers sid).flatMap fun session => s.notifyPlaySubscription session (cfg.key sid)

/-- `stream_owner_list_result`; the time of an acquisition is not used. -/
def ownerRows : List StreamOwner := s.owners.entries.map fun e => ⟨e.1, e.2.1, e.2.2, 0⟩

/-- `sync_ownership_from_db`, as far as it is about subscriptions. -/
def syncOwnershipFromDb : PlayState cfg :=
  let (ownership, changed) := s.hub.ownership.syncFrom s.ownerRows
  let s := { s with hub := { s.hub with ownership } }
  (s.spawn (s.unsubscribeCapturedRemoteOwners changed)).spawn
    (s.resubscribeActivePlayers (changed.map Prod.fst))

/-! ### Standby replicas -/

def standbyCandidates (owner : Option UInt64) (exclude : List UInt64) : List UInt64 :=
  if cfg.mediaReplicas = 0 then []
  else
    let eligible := s.nodeMeta.keys.filter fun id =>
      id ∉ exclude && owner != some id && (id = cfg.nodeId ||
        match s.health.lookup id with
        | some .down | some .isolated | none => false
        | _ => true)
    (eligible.insertionSort (· ≤ ·)).take cfg.mediaReplicas

def desiredStandbys : AList fun _ : StreamKey => UInt64 :=
  cfg.streams.foldl (fun desired (sid, app) =>
    match s.owners.lookup sid with
    | none => desired
    | some (node, _) =>
      if node = cfg.nodeId then desired
      else if cfg.nodeId ∈ s.standbyCandidates (some node) [] then desired.insert (app, sid) node
      else desired) ∅

/-- The address of an owner, if it was learned already. -/
def standbyAddress (node : UInt64) : Option String := (s.nodeMeta.lookup node).filter (· ≠ "")

/-- What `reconcile_media_replicas` spawns for a key whose owner goes from `old` to `new`. -/
def standbyTasks (key : StreamKey) (old new : Option UInt64) : List PlayTask :=
  if old = new then []
  else
    (old.map fun node => PlayTask.unsubscribe standbySubOwner node key).toList ++
      (new.bind fun node => (s.standbyAddress node).map fun addr =>
        PlayTask.standby addr node key (((s.owners.lookup key.2).map Prod.snd).getD 0)).toList

/-- The key has a new owner whose address is not known, so that it is left for a later tick. -/
def lacksAddress (desired : AList fun _ : StreamKey => UInt64) (key : StreamKey) : Bool :=
  desired.lookup key != s.standbySubs.lookup key &&
    (desired.lookup key).any fun node => (s.standbyAddress node).isNone

def reconcileMediaReplicas : PlayState cfg :=
  if cfg.mediaReplicas = 0 then s
  else
    let desired := s.desiredStandbys
    let keys := desired.keys ++ s.standbySubs.keys.filter fun key => (desired.lookup key).isNone
    let tasks := keys.flatMap fun key =>
      s.standbyTasks key (s.standbySubs.lookup key) (desired.lookup key)
    { s with
      standbySubs := keys.foldl (fun m key => if s.lacksAddress desired key then m.erase key else m)
        desired }.spawn tasks

/-! ### Tasks -/

/-- A task runs. Only a standby looks at the answer of `subscribe_remote`. -/
def runTask (now : Nat) : PlayTask → PlayState cfg
  | .subscribe addr peer key epoch session =>
    { s with hub := (s.hub.subscribeRemote peer key addr epoch session now).2 }
  | .standby addr peer key epoch =>
    match s.hub.subscribeRemote peer key addr epoch standbySubOwner now with
    | (true, hub) => { s with hub }
    | (false, hub) =>
      { s with
        hub
        standbySubs :=
          if s.standbySubs.lookup key = some peer then s.standbySubs.erase key else s.standbySubs }
  | .unsubscribe session peer key => { s with hub := s.hub.unsubscribeRemote peer key session now }
  | .unsubscribeAll peer key => { s with hub := s.hub.unsubscribeRemoteAll peer key now }

end PlayState

/-- `start` and `stop` are those of a player: its row changes and the manager is told. `run`: the
task that waits at a position runs. -/
inductive PlayOp where
  | learn (node : UInt64) (addr : String)
  | health (node : UInt64) (state : NodeHealthState)
  | owner (sid : String) (owner : Option (UInt64 × UInt64))
  | start (session sid : String)
  | stop (session : String)
  | sync
  | resubscribe (sids : List String)
  | replicas
  | run (i : Nat) (now : Nat)
  | hub (op : HubOp)

/-- The steps of the hub that are not those of the manager's tasks, or of its tracker. -/
def HubOp.isInternal : HubOp → Bool
  | .subscribe .. | .unsubscribe .. | .unsubscribeAll .. | .ownership .. => false
  | _ => true

def PlayOp.isChange : PlayOp → Bool
  | .owner .. | .start .. | .stop .. => true
  | _ => false

namespace PlayState

variable {cfg : PlayConfig} (s : PlayState cfg)

/-- One step. The ids of sessions are fresh, and never that of the standby. -/
def step : PlayOp → Option (PlayState cfg)
  | .learn node addr => some { s with nodeMeta := s.nodeMeta.insert node addr }
  | .health node state => some { s with health := s.health.insert node state }
  | .owner sid owner =>
    some { s with
      owners :=
        match owner with
        | some owner => s.owners.insert sid owner
        | none => s.owners.erase sid }
  | .start session sid =>
    if session = standbySubOwner ∨ (s.players.lookup session).isSome ∨
        (cfg.streams.lookup sid).isNone then none
    else
      let s := { s with players := s.players.insert session sid }
      some (s.spawn (s.notifyPlaySubscription session (cfg.key sid)))
  | .stop session =>
    (s.players.lookup session).map fun sid =>
      let s := { s with players := s.players.erase session }
      s.spawn (s.notifyPlayUnsubscribe session (cfg.key sid))
  | .sync => some s.syncOwnershipFromDb
  | .resubscribe sids => some (s.spawn (s.resubscribeActivePlayers sids))
  | .replicas => some s.reconcileMediaReplicas
  | .run i now =>
    (s.tasks[i]?).map fun task => { s with tasks := s.tasks.eraseIdx i }.runTask now task
  | .hub op =>
    if op.isInternal then (s.hub.step op).map fun hub => { s with hub } else none

end PlayState

end RtmpServer
