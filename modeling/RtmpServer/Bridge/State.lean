import RtmpServer.Db.KeyCache
import RtmpServer.Db.PlayerCounts
import RtmpServer.Http.StreamDelete
import RtmpServer.Lib.Program

/-!
# The RTMP bridge: its state and its atomic actions

`DbRtmpBridge` of `rtmp_bridge.rs` keeps for every connection the sessions it holds, and their rows
in the database. The auth worker, the threads that poll RTMP, the HTTP handlers and the cluster call
it, and each of its locks is held only for a short section. An `Action` is one such section, one
call of a `Db` method or one call of the coordinator.

What the model does not decide about an action is its `Outcome`: which statements fail, what the
coordinator says, the clock and the generated ids. The failed attempts that limit the rate of
authorizations, the statistics of a connection and the subscriptions on other nodes are left out.
-/

namespace RtmpServer

open Lib.Table Lib.Program

structure ConnState where
  publisher : Option PublisherRecord := none
  player : Option PlayerRecord := none
  viewerId : String := ""
  streamId : String := ""
  deriving DecidableEq

/-- The `StateCoordinator`, if one was set. -/
inductive Coordinator where
  | absent
  | standalone
  | cluster
  deriving DecidableEq, Repr

/-- A row that `on_close` could not write, with `active` already cleared. -/
inductive PendingDeactivation where
  | publisher (row : PublisherRecord) (inactive : row.active = false)
  | player (row : PlayerRecord) (inactive : row.active = false)
  deriving DecidableEq

/-- The row of an admitted session on its way to the auth worker. -/
inductive PersistJob where
  | publish (conn : UInt64) (row : PublisherRecord)
  | play (conn : UInt64) (row : PlayerRecord)
  deriving DecidableEq

def maxPendingDeactivationBatch : Nat := 4

structure Bridge where
  sessions : SessionDb
  conns : AList fun _ : UInt64 => ConnState
  deletedStreams : Finset String
  coordinator : Coordinator
  ownershipEpochs : AList fun _ : UInt64 => String × UInt64
  pendingOwnershipReleases : List (String × UInt64)
  pendingForceClose : Finset UInt64
  pendingDeactivations : List PendingDeactivation
  /-- The queue of the auth worker, as far as it holds rows to write. -/
  persistJobs : List PersistJob
  /-- The epochs the cluster granted to this node, the newest first. -/
  granted : List (String × UInt64)
  /-- The epochs this node released. -/
  released : List (String × UInt64)

structure Outcome where
  /-- The call fails or says no. -/
  fails : Bool := false
  /-- The cluster carried out a release it reports as failed. -/
  applied : Bool := false
  /-- The statements of a write that fail. -/
  faults : UpdateFaults := ⟨false, false, false⟩
  /-- A statement fails and with it the transaction it stands in. -/
  ends : Bool := false
  sessionId : Option String := none
  now : Int := 0
  epoch : Option UInt64 := none
  remoteSessions : Nat := 0

/-! ### Connections -/

def mapValues {κ β : Type} (f : β → β) (m : AList fun _ : κ => β) : AList fun _ : κ => β :=
  ⟨m.entries.map fun e => ⟨e.1, f e.2⟩, List.NodupKeys.map₂ (fun _ => f) m.entries m.nodupKeys⟩

theorem lookup_mapValues {κ β : Type} [DecidableEq κ] (f : β → β) (m : AList fun _ : κ => β)
    (k : κ) : (mapValues f m).lookup k = (m.lookup k).map f :=
  List.dlookup_map₂ (f := fun _ => f) k

namespace ConnState

def holdsPublisher (cs : ConnState) (id : String) : Bool := cs.publisher.any fun p => p.id = id

def holdsPlayer (cs : ConnState) (id : String) : Bool := cs.player.any fun p => p.id = id

/-- The publisher's role ends; a player keeps the connection on its stream. -/
def withoutPublisher (cs : ConnState) : ConnState :=
  { cs with publisher := none, streamId := cs.player.elim "" (·.streamId) }

def withoutPlayer (cs : ConnState) : ConnState :=
  { cs with player := none, viewerId := "", streamId := cs.publisher.elim "" (·.streamId) }

def publishes (cs : ConnState) (streamId : String) : Bool :=
  cs.publisher.any fun p => p.streamId = streamId

def plays (cs : ConnState) (streamId : String) : Bool := cs.player.any fun p => p.streamId = streamId

/-- What `abandon_roles_for_stream` makes of one connection. -/
def abandoned (cs : ConnState) (streamId : String) : ConnState :=
  if cs.publishes streamId || cs.plays streamId then
    let publisher := cs.publisher.filter fun p => p.streamId ≠ streamId
    let player := cs.player.filter fun p => p.streamId ≠ streamId
    { publisher, player
      viewerId := if cs.plays streamId then "" else cs.viewerId
      streamId := (publisher.map (·.streamId)).getD ((player.map (·.streamId)).getD "") }
  else cs

end ConnState

namespace Bridge

def db (s : Bridge) : Db := s.sessions.db

/-- `DbRtmpBridge::new`. -/
def start (db : Db) (coordinator : Coordinator) : Bridge where
  sessions := ⟨db, ∅, ∅⟩
  conns := ∅
  deletedStreams := ∅
  coordinator := coordinator
  ownershipEpochs := ∅
  pendingOwnershipReleases := []
  pendingForceClose := ∅
  pendingDeactivations := []
  persistJobs := []
  granted := []
  released := []

def setDb (s : Bridge) (db : Db) : Bridge := { s with sessions := { s.sessions with db := db } }

/-- `entry(conn).or_default()`. -/
def connState (s : Bridge) (conn : UInt64) : ConnState := (s.conns.lookup conn).getD {}

def setConn (s : Bridge) (conn : UInt64) (cs : ConnState) : Bridge :=
  { s with conns := s.conns.insert conn cs }

/-- `get_mut(&conn)`: nothing happens to a connection that is gone. -/
def modifyConn (s : Bridge) (conn : UInt64) (f : ConnState → ConnState) : Bridge :=
  match s.conns.lookup conn with
  | some cs => s.setConn conn (f cs)
  | none => s

def publisherOf (s : Bridge) (conn : UInt64) : Option PublisherRecord := (s.connState conn).publisher

def playerOf (s : Bridge) (conn : UInt64) : Option PlayerRecord := (s.connState conn).player

def newestEpoch (s : Bridge) (streamId : String) : Option UInt64 :=
  (s.granted.find? fun g => g.1 = streamId).map (·.2)

end Bridge

/-! ### Reads -/

/-- A section that only reads, or a call outside the bridge that only answers. -/
inductive Query where
  | rateLimited (conn : UInt64)
  | publishKey (key : String)
  | playKey (key : String)
  | cachedPublishKey (key : String)
  | cachedPlayKey (key : String)
  | deleted (streamId : String)
  | sessionId
  | now
  | publisher (conn : UInt64)
  | player (conn : UInt64)
  | sessionRows (conn : UInt64)
  | ownership (conn : UInt64)
  | coordinator
  | acceptsPlay
  | localSessions (viewerId : String)
  | remoteSessions (viewerId : String)
  | publisherExists (id : String)
  | playerExists (id : String)
  | retryDue

abbrev Query.Answer : Query → Type
  | .rateLimited _ => Bool
  | .publishKey _ => DbLookup Stream
  | .playKey _ => DbLookup (StreamViewer × Stream)
  | .cachedPublishKey _ => Option Stream
  | .cachedPlayKey _ => Option (StreamViewer × Stream)
  | .deleted _ => Bool
  | .sessionId => Option String
  | .now => Int
  | .publisher _ => Option PublisherRecord
  | .player _ => Option PlayerRecord
  | .sessionRows _ => Option PublisherRecord × Option PlayerRecord
  | .ownership _ => Option (String × UInt64)
  | .coordinator => Coordinator
  | .acceptsPlay => Bool
  | .localSessions _ => Nat
  | .remoteSessions _ => Nat
  | .publisherExists _ => Bool
  | .playerExists _ => Bool
  | .retryDue => Bool

/-- The snapshot of the keys is only used while it is current, so a key is answered with the rows of
the database. An existence check that fails counts as found. -/
def Bridge.answer (s : Bridge) (w : Outcome) : (q : Query) → q.Answer
  | .rateLimited _ => w.fails
  | .publishKey key => DbLookup.ofOption w.fails (s.db.streamFindByPublishKeyAny key)
  | .playKey key => DbLookup.ofOption w.fails (s.db.viewerAndStreamByPlayKey key)
  | .cachedPublishKey key => if w.fails then none else s.db.streamFindByPublishKeyAny key
  | .cachedPlayKey key => if w.fails then none else s.db.viewerAndStreamByPlayKey key
  | .deleted streamId => decide (streamId ∈ s.deletedStreams)
  | .sessionId => w.sessionId
  | .now => w.now
  | .publisher conn => s.publisherOf conn
  | .player conn => s.playerOf conn
  | .sessionRows conn => (s.publisherOf conn, s.playerOf conn)
  | .ownership conn => s.ownershipEpochs.lookup conn
  | .coordinator => s.coordinator
  | .acceptsPlay => !w.fails
  | .localSessions viewerId => s.db.activePlayerCounts viewerId
  | .remoteSessions _ => w.remoteSessions
  | .publisherExists id => w.fails || s.db.publishers.any fun p => p.id = id
  | .playerExists id => w.fails || s.db.players.any fun p => p.id = id
  | .retryDue => !s.pendingDeactivations.isEmpty && !w.fails

/-! ### Actions -/

inductive Cause where
  /-- An authorization: it gives up the session it replaces and takes the slot of the new one. -/
  | authorize
  /-- A refused authorization takes back what it has taken. -/
  | undo
  /-- A refused authorization brings the prior session back. -/
  | restore
  /-- A fast session was dropped before its row was written. -/
  | dropped
  /-- The row of a fast session. -/
  | persist
  | release
  | close
  | retry
  /-- A group of authorizations was rolled back. -/
  | regroup
  deriving DecidableEq, Repr

inductive Action where
  | look (q : Query)
  | publisherUpdate (cause : Cause) (row : PublisherRecord)
  | publisherTryAcquire (cause : Cause) (row : PublisherRecord)
  | playerUpdate (cause : Cause) (row : PlayerRecord)
  | playerTryAcquire (cause : Cause) (row : PlayerRecord)
  | playerInsertReserved (row : PlayerRecord)
  | playerCancelReservation (viewerId : String)
  | acquireStreamOwner (streamId : String)
  | releaseStreamOwner (cause : Cause) (streamId : String) (epoch : UInt64)
  /-- The last section of an authorization. -/
  | installPublisher (conn : UInt64) (row : PublisherRecord)
  | installPlayer (conn : UInt64) (row : PlayerRecord)
  /-- The section in which a fast authorization checks and admits. -/
  | admitPublisher (conn : UInt64) (row : PublisherRecord)
  | admitPlayer (conn : UInt64) (row : PlayerRecord)
  /-- The role ends if the connection still has this session. -/
  | clearPublisher (conn : UInt64) (id : String)
  | clearPlayer (conn : UInt64) (id : String)
  /-- Like `clearPlayer`, but the connection's viewer and stream stay. -/
  | dropPlayer (conn : UInt64) (id : String)
  | removeConn (conn : UInt64)
  | abandonRoles (streamId : String)
  | forceClose (conns : List UInt64)
  | takeForceClose (conn : UInt64)
  /-- An authorization that found the entry `prior` records its epoch. -/
  | recordOwnership (conn : UInt64) (streamId : String) (epoch : UInt64)
    (prior : Option (String × UInt64))
  /-- `ownership_epochs.remove(&conn)`, once the coordinator has answered the release of the epoch:
  whatever the entry is. -/
  | forgetOwnership (conn : UInt64) (streamId : String) (epoch : UInt64) (released : Bool)
  /-- The entry of a fast session that is taken back. -/
  | forgetFastOwnership (conn : UInt64) (streamId : String)
  | retagStreamEpoch (streamId : String) (epoch : UInt64)
  | queueReleases (epochs : List (String × UInt64))
  | takeReleases
  | queueDeactivation (row : PendingDeactivation)
  | takeDeactivations
  | queuePersist (job : PersistJob)
  | takePersist

abbrev Action.Answer : Action → Type
  | .look q => q.Answer
  | .publisherUpdate _ _ => Bool
  | .publisherTryAcquire _ _ => Bool
  | .playerUpdate _ _ => Bool
  | .playerTryAcquire _ _ => Bool
  | .playerInsertReserved _ => Bool
  | .playerCancelReservation _ => Unit
  | .acquireStreamOwner _ => Option UInt64
  | .releaseStreamOwner _ _ _ => Bool
  | .installPublisher _ _ => Unit
  | .installPlayer _ _ => Unit
  | .admitPublisher _ _ => Bool
  | .admitPlayer _ _ => Bool
  | .clearPublisher _ _ => Unit
  | .clearPlayer _ _ => Unit
  | .dropPlayer _ _ => Unit
  | .removeConn _ => Option ConnState
  | .abandonRoles _ => List UInt64 × List UInt64
  | .forceClose _ => Unit
  | .takeForceClose _ => Unit
  | .recordOwnership _ _ _ _ => Unit
  | .forgetOwnership _ _ _ _ => Unit
  | .forgetFastOwnership _ _ => Unit
  | .retagStreamEpoch _ _ => Bool
  | .queueReleases _ => Unit
  | .takeReleases => List (String × UInt64)
  | .queueDeactivation _ => Unit
  | .takeDeactivations => List PendingDeactivation
  | .queuePersist _ => Bool
  | .takePersist => Option PersistJob

namespace Bridge

/-! ### What the actions do -/

def publisherUpdate (s : Bridge) (row : PublisherRecord) (faults : UpdateFaults) : Bridge × Bool :=
  let r := s.sessions.publisherUpdate row.id row faults
  ({ s with sessions := r.1 }, r.2)

def publisherTryAcquire (s : Bridge) (row : PublisherRecord) (fault : Bool) : Bridge × Bool :=
  let r := s.db.publisherTryAcquire row fault
  (s.setDb r.1, r.2)

def playerUpdate (s : Bridge) (row : PlayerRecord) (fault : Bool) : Bridge × Bool :=
  let r := s.sessions.playerUpdate row.id row fault
  ({ s with sessions := r.1 }, r.2)

def playerTryAcquire (s : Bridge) (row : PlayerRecord) (fault : Bool) : Bridge × Bool :=
  let r := s.db.playerTryAcquire row fault
  (s.setDb r.1, r.2)

def playerInsertReserved (s : Bridge) (row : PlayerRecord) (fault : Bool) : Bridge × Bool :=
  let r := s.db.playerInsertReserved row fault
  (s.setDb r.1, r.2)

/-- `acquire_stream_owner`. The cluster grants an epoch it did not grant before; a standalone node
has nobody to ask and keeps no books. -/
def acquireStreamOwner (s : Bridge) (streamId : String) (epoch : Option UInt64) :
    Bridge × Option UInt64 :=
  if s.coordinator = .cluster then
    match epoch.filter fun e => (streamId, e) ∉ s.granted with
    | some e => ({ s with granted := (streamId, e) :: s.granted }, some e)
    | none => (s, none)
  else (s, some 1)

def releaseStreamOwner (s : Bridge) (streamId : String) (epoch : UInt64) (w : Outcome) :
    Bridge × Bool :=
  if s.coordinator = .cluster then
    (if w.fails && !w.applied then s else { s with released := (streamId, epoch) :: s.released },
      !w.fails)
  else (s, true)

def installPublisher (s : Bridge) (conn : UInt64) (row : PublisherRecord) : Bridge :=
  s.setConn conn { s.connState conn with publisher := some row, streamId := row.streamId }

def installPlayer (s : Bridge) (conn : UInt64) (row : PlayerRecord) : Bridge :=
  let cs := s.connState conn
  s.setConn conn
    { cs with
      player := some row
      viewerId := row.viewerId
      streamId := if cs.publisher.isNone || cs.streamId = "" then row.streamId else cs.streamId }

/-- The admission of `try_fast_authorize_publish`. Asking for the connection's entry creates it. -/
def admitPublisher (s : Bridge) (conn : UInt64) (row : PublisherRecord) : Bridge × Bool :=
  if row.streamId ∈ s.deletedStreams then (s, false)
  else
    let taken := s.conns.entries.any fun e => e.2.publishes row.streamId
    if taken || (s.publisherOf conn).isSome ||
        (s.coordinator ≠ .absent && (s.ownershipEpochs.lookup conn).isSome) then
      (s.setConn conn (s.connState conn), false)
    else
      let s := s.installPublisher conn row
      (if s.coordinator = .absent then s
        else { s with ownershipEpochs := s.ownershipEpochs.insert conn (row.streamId, 1) }, true)

/-- The admission of `try_fast_authorize_play`. -/
def admitPlayer (s : Bridge) (conn : UInt64) (row : PlayerRecord) : Bridge × Bool :=
  if row.streamId ∈ s.deletedStreams then (s, false)
  else if (s.playerOf conn).isSome then (s, false)
  else
    match s.db.playerReserve row.viewerId with
    | none => (s.setConn conn (s.connState conn), false)
    | some db => ((s.setDb db).installPlayer conn row, true)

def clearPublisher (s : Bridge) (conn : UInt64) (id : String) : Bridge :=
  s.modifyConn conn fun cs => if cs.holdsPublisher id then cs.withoutPublisher else cs

def clearPlayer (s : Bridge) (conn : UInt64) (id : String) : Bridge :=
  s.modifyConn conn fun cs => if cs.holdsPlayer id then cs.withoutPlayer else cs

def dropPlayer (s : Bridge) (conn : UInt64) (id : String) : Bridge :=
  s.modifyConn conn fun cs => if cs.holdsPlayer id then { cs with player := none } else cs

/-- The first section of `abandon_roles_for_stream`: the connections whose publisher was dropped and
those left without a role. -/
def abandonRoles (s : Bridge) (streamId : String) : Bridge × (List UInt64 × List UInt64) :=
  let publishing := s.conns.entries.filter fun e => e.2.publishes streamId
  let left := s.conns.entries.filter fun e =>
    (e.2.publishes streamId || e.2.plays streamId) &&
      (e.2.abandoned streamId).publisher.isNone && (e.2.abandoned streamId).player.isNone
  ({ s with conns := mapValues (·.abandoned streamId) s.conns },
    publishing.map (·.1), left.map (·.1))

def retagStreamEpoch (s : Bridge) (streamId : String) (epoch : UInt64) : Bridge × Bool :=
  ({ s with
      ownershipEpochs :=
        mapValues (fun e => if e.1 = streamId then (e.1, epoch) else e) s.ownershipEpochs },
    s.ownershipEpochs.entries.any fun e => e.2.1 = streamId)

/-- `try_submit_persist_play` and `try_submit_persist_publish`: they fail once the worker is gone. -/
def queuePersist (s : Bridge) (job : PersistJob) (fails : Bool) : Bridge × Bool :=
  if fails then (s, false) else ({ s with persistJobs := s.persistJobs ++ [job] }, true)

def forgetFastOwnership (s : Bridge) (conn : UInt64) (streamId : String) : Bridge :=
  if (s.ownershipEpochs.lookup conn).any fun e => e.1 = streamId then
    { s with ownershipEpochs := s.ownershipEpochs.erase conn }
  else s

end Bridge

def Action.exec : (a : Action) → Outcome → Bridge → Bridge × a.Answer
  | .look q, w, s => (s, s.answer w q)
  | .publisherUpdate _ row, w, s => s.publisherUpdate row w.faults
  | .publisherTryAcquire _ row, w, s => s.publisherTryAcquire row w.faults.write
  | .playerUpdate _ row, w, s => s.playerUpdate row w.faults.write
  | .playerTryAcquire _ row, w, s => s.playerTryAcquire row w.faults.write
  | .playerInsertReserved row, w, s => s.playerInsertReserved row w.faults.write
  | .playerCancelReservation viewerId, _, s =>
    (s.setDb (s.db.playerCancelReservation viewerId), ())
  | .acquireStreamOwner streamId, w, s => s.acquireStreamOwner streamId w.epoch
  | .releaseStreamOwner _ streamId epoch, w, s => s.releaseStreamOwner streamId epoch w
  | .installPublisher conn row, _, s => (s.installPublisher conn row, ())
  | .installPlayer conn row, _, s => (s.installPlayer conn row, ())
  | .admitPublisher conn row, _, s => s.admitPublisher conn row
  | .admitPlayer conn row, _, s => s.admitPlayer conn row
  | .clearPublisher conn id, _, s => (s.clearPublisher conn id, ())
  | .clearPlayer conn id, _, s => (s.clearPlayer conn id, ())
  | .dropPlayer conn id, _, s => (s.dropPlayer conn id, ())
  | .removeConn conn, _, s => ({ s with conns := s.conns.erase conn }, s.conns.lookup conn)
  | .abandonRoles streamId, _, s => s.abandonRoles streamId
  | .forceClose conns, _, s =>
    ({ s with pendingForceClose := conns.foldl (fun set c => insert c set) s.pendingForceClose }, ())
  | .takeForceClose conn, _, s =>
    ({ s with pendingForceClose := s.pendingForceClose.erase conn }, ())
  | .recordOwnership conn streamId epoch _, _, s =>
    ({ s with ownershipEpochs := s.ownershipEpochs.insert conn (streamId, epoch) }, ())
  | .forgetOwnership conn _ _ _, _, s =>
    ({ s with ownershipEpochs := s.ownershipEpochs.erase conn }, ())
  | .forgetFastOwnership conn streamId, _, s => (s.forgetFastOwnership conn streamId, ())
  | .retagStreamEpoch streamId epoch, _, s => s.retagStreamEpoch streamId epoch
  | .queueReleases epochs, _, s =>
    ({ s with pendingOwnershipReleases := s.pendingOwnershipReleases ++ epochs }, ())
  | .takeReleases, _, s => ({ s with pendingOwnershipReleases := [] }, s.pendingOwnershipReleases)
  | .queueDeactivation row, _, s =>
    ({ s with pendingDeactivations := s.pendingDeactivations ++ [row] }, ())
  | .takeDeactivations, _, s =>
    ({ s with pendingDeactivations := s.pendingDeactivations.drop maxPendingDeactivationBatch },
      s.pendingDeactivations.take maxPendingDeactivationBatch)
  | .queuePersist job, w, s => s.queuePersist job w.fails
  | .takePersist, _, s => ({ s with persistJobs := s.persistJobs.tail }, s.persistJobs.head?)

/-! ### Transactions -/

/-- The call takes the connection of the database. -/
def Action.usesDb : Action → Bool
  | .look (.publishKey _) => true
  | .look (.playKey _) => true
  | .look (.publisherExists _) => true
  | .look (.playerExists _) => true
  | .publisherUpdate _ _ => true
  | .publisherTryAcquire _ _ => true
  | .playerUpdate _ _ => true
  | .playerTryAcquire _ _ => true
  | .playerInsertReserved _ => true
  | _ => false

/-- SQLite is back at the tables of `before`; the counts of viewer sessions are in memory. -/
def Bridge.revert (s : Bridge) (before : Db) : Bridge :=
  s.setDb { before with
    activePlayerCounts := s.db.activePlayerCounts
    unpersistedPlayerCounts := s.db.unpersistedPlayerCounts }

/-- The call ends the transaction that is open. -/
def Action.endsIn (a : Action) (w : Outcome) (before : Option Db) : Bool :=
  before.isSome && w.ends && a.usesDb

def Action.outcomeIn (a : Action) (w : Outcome) (before : Option Db) : Outcome :=
  if a.endsIn w before then { w with fails := true, faults := ⟨true, true, true⟩ } else w

/-- An action in `batch`. `before` are the tables at the `BEGIN` while the transaction is open; once
it has ended every operation commits itself. -/
def Action.execIn (a : Action) (w : Outcome) (s : Bridge) (before : Option Db) :
    (Bridge × Option Db) × a.Answer :=
  let r := a.exec (a.outcomeIn w before) s
  match before.filter fun _ => a.endsIn w before with
  | some tables => ((r.1.revert tables, none), r.2)
  | none => ((r.1, before), r.2)

/-- `COMMIT` fails if the transaction is gone, and then so does `ROLLBACK`. The counts of viewer
sessions are taken from the tables again. -/
def Bridge.endBatch (s : Bridge) (before : Option Db) (fails : Bool) : Bridge × Bool :=
  match before with
  | some tables =>
    if fails then
      let s := s.revert tables
      (s.setDb s.db.resyncActivePlayerCounts, false)
    else (s, true)
  | none => (s.setDb s.db.resyncActivePlayerCounts, false)

end RtmpServer
