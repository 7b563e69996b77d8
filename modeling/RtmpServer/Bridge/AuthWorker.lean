import RtmpServer.Bridge.Operations

/-!
# The auth worker

`auth_worker.rs` takes jobs from its queue in order and runs them on one thread, a run of
consecutive authorizations in one transaction of SQLite (`run_authorization_group`). A statement
that fails for want of space ends the transaction, and what the group writes after it is committed
at once. The state of the bridge is not part of it.

The worker is modelled alone, with the outcomes of the actions it performs as a stream.
-/

namespace RtmpServer

open Lib.Program

inductive AuthKind where
  | publish
  | play
  deriving DecidableEq, Repr

structure AuthRequest where
  kind : AuthKind
  connId : UInt64
  app : String
  streamKey : String
  requestId : UInt64
  deriving DecidableEq, Repr

inductive Job where
  | authorize (req : AuthRequest)
  | close (connId : UInt64)
  | persistPlay (connId : UInt64) (row : PlayerRecord)
  | persistPublish (connId : UInt64) (row : PublisherRecord)
  deriving DecidableEq

def Job.isAuthorize : Job → Bool
  | .authorize _ => true
  | _ => false

structure AuthCompletion where
  kind : AuthKind
  connId : UInt64
  allow : Bool
  requestId : UInt64
  publisherId : Option String
  playerId : Option String
  deriving DecidableEq, Repr

/-- A connection and its `session_rows`. -/
abbrev HeldRows := UInt64 × Option PublisherRecord × Option PlayerRecord

/-- How the transaction of a group ends. If it cannot be opened, every operation commits itself. -/
inductive Commit where
  | notBegun
  | committed
  | failed
  deriving DecidableEq, Repr

structure Worker where
  bridge : Bridge
  outcomes : Nat → Outcome

def Worker.perform (a : Action) (t : Worker) : Worker × a.Answer :=
  let r := a.exec (t.outcomes 0) t.bridge
  (⟨r.1, fun n => t.outcomes (n + 1)⟩, r.2)

/-- The worker in a group, with the tables of the `BEGIN` while the transaction is open. -/
structure Grouped where
  worker : Worker
  before : Option Db

def Grouped.perform (a : Action) (g : Grouped) : Grouped × a.Answer :=
  let r := a.execIn (g.worker.outcomes 0) g.worker.bridge g.before
  (⟨⟨r.1.1, fun n => g.worker.outcomes (n + 1)⟩, r.1.2⟩, r.2)

/-! ### Jobs one by one -/

namespace Bridge

def authorize (req : AuthRequest) : BridgeM Bool :=
  match req.kind with
  | .publish => authorizePublish req.connId req.app req.streamKey
  | .play => authorizePlay req.connId req.app req.streamKey

def sessionIds (req : AuthRequest) (allow : Bool) : BridgeM (Option String × Option String) :=
  if allow then do
    let rows : Option PublisherRecord × Option PlayerRecord ← look (.sessionRows req.connId)
    pure (match req.kind with
      | .publish => (rows.1.map (·.id), none)
      | .play => (none, rows.2.map (·.id)))
  else pure (none, none)

def runJob : Job → BridgeM (List AuthCompletion)
  | .close connId => do
    onClose connId
    pure []
  | .persistPlay connId row => do
    persistFastPlay connId row
    pure []
  | .persistPublish connId row => do
    persistFastPublish connId row
    pure []
  | .authorize req => do
    let allow ← authorize req
    let ids ← sessionIds req allow
    pure [⟨req.kind, req.connId, allow, req.requestId, ids.1, ids.2⟩]

def runJobs : List Job → BridgeM (List AuthCompletion)
  | [] => pure []
  | job :: jobs => do
    let completion ← runJob job
    let completions ← runJobs jobs
    pure (completion ++ completions)

/-! ### Groups -/

def sessionsBefore (s : Bridge) (group : List Job) : List HeldRows :=
  group.filterMap fun job =>
    match job with
    | .authorize req => some (req.connId, s.publisherOf req.connId, s.playerOf req.connId)
    | _ => none

/-- A row the connection held before the group and does not hold any more is deactivated again. The
result is ignored. -/
def dropReplacedPublisher (publisher now : Option PublisherRecord) : BridgeM (List Bool) :=
  match publisher.filter fun row => now.all fun p => p.id ≠ row.id with
  | none => pure []
  | some row => do
    let updated ← deactivatePublisher .regroup row
    pure [updated]

def dropReplacedPlayer (player now : Option PlayerRecord) : BridgeM (List Bool) :=
  match player.filter fun row => now.all fun p => p.id ≠ row.id with
  | none => pure []
  | some row => do
    let updated ← deactivatePlayer .regroup row
    pure [updated]

def dropReplaced : List HeldRows → BridgeM (List Bool)
  | [] => pure []
  | (connId, publisher, player) :: before => do
    let now : Option PublisherRecord × Option PlayerRecord ← look (.sessionRows connId)
    let first ← dropReplacedPublisher publisher now.1
    let second ← dropReplacedPlayer player now.2
    let rest ← dropReplaced before
    pure (first ++ second ++ rest)

/-- What follows a failed commit: the connections of what was allowed are closed and the rows that
were replaced are deactivated again. -/
def followUp (completions : List AuthCompletion) (before : List HeldRows) :
    BridgeM (List Bool) := do
  perform (.forceClose ((completions.filter (·.allow)).map (·.connId)))
  dropReplaced before

end Bridge

namespace Worker

open Bridge

def runGroup (t : Worker) (group : List Job) : Grouped × List AuthCompletion :=
  (runJobs group).run Grouped.perform ⟨t, some t.bridge.db⟩

/-- The worker after a failed commit of the group, and the results of the writes that follow. -/
def undoGroup (t : Worker) (group : List Job) : Worker × List Bool :=
  let ran := t.runGroup group
  (followUp ran.2 (sessionsBefore t.bridge group)).run perform
    { ran.1.worker with bridge := (ran.1.worker.bridge.endBatch ran.1.before true).1 }

/-- The group is run as its jobs are, or its transaction is still open at the end and committed. -/
def commits (commit : Commit) (t : Worker) (group : List Job) : Bool :=
  group.length ≤ 1 || commit = .notBegun ||
    (commit = .committed && (t.runGroup group).1.before.isSome)

def runAuthorizationGroup (commit : Commit) (t : Worker) (group : List Job) :
    Worker × List AuthCompletion :=
  if group.length ≤ 1 ∨ commit = .notBegun then (runJobs group).run perform t
  else
    let ran := t.runGroup group
    let ended := ran.1.worker.bridge.endBatch ran.1.before (commit = .failed)
    if ended.2 then ({ ran.1.worker with bridge := ended.1 }, ran.2)
    else ((t.undoGroup group).1, ran.2.map fun c => { c with allow := false })

/-- `run_grouped`, with the group so far; the transactions of the run end as `commits` says, from the
`n`th on. -/
def runGrouped (commits : Nat → Commit) :
    Nat → Worker → List Job → List Job → Worker × List AuthCompletion
  | n, t, group, [] => runAuthorizationGroup (commits n) t group
  | n, t, group, job :: jobs =>
    if job.isAuthorize then runGrouped commits n t (group ++ [job]) jobs
    else
      let first := runAuthorizationGroup (commits n) t group
      let alone := (runJobs [job]).run perform first.1
      let rest := runGrouped commits (n + 1) alone.1 [] jobs
      (rest.1, first.2 ++ alone.2 ++ rest.2)

structure GroupCall where
  worker : Worker
  group : List Job
  commit : Commit

def groupCalls (commits : Nat → Commit) : Nat → Worker → List Job → List Job → List GroupCall
  | n, t, group, [] => [⟨t, group, commits n⟩]
  | n, t, group, job :: jobs =>
    if job.isAuthorize then groupCalls commits n t (group ++ [job]) jobs
    else
      let first := runAuthorizationGroup (commits n) t group
      let alone := (runJobs [job]).run perform first.1
      ⟨t, group, commits n⟩ :: groupCalls commits (n + 1) alone.1 [] jobs

end Worker

end RtmpServer
