import Mathlib.Data.List.AList
import RtmpServer.Db.Operations

/-!
# The session tables

The operations of `db.rs` on `publishers` and the statistics queued for both session tables, each in
one section of the connection lock. `fault` says that some statement of the operation failed, after
which its transaction is rolled back. `batch` groups operations into one transaction, whose rollback
leaves the queued statistics, which are in memory, as the operations left them.
-/

namespace RtmpServer

open Lib.Table

/-- The struct `Publisher`, with the byte count still a `u64`. -/
structure PublisherRecord where
  id : String
  streamId : String
  app : String
  streamName : String
  bytesIn : UInt64
  stats : PublisherStats := {}
  connectedAt : Int
  active : Bool
  deriving DecidableEq, Repr

/-- The struct `Player`. -/
structure PlayerRecord where
  id : String
  streamId : String
  viewerId : String
  app : String
  streamName : String
  bytesOut : UInt64
  stats : PlayerStats := {}
  connectedAt : Int
  active : Bool
  deriving DecidableEq, Repr

structure PendingStats where
  publishers : AList fun _ : String => PublisherRecord
  players : AList fun _ : String => PlayerRecord

structure SessionDb where
  db : Db
  pending : PendingStats

/-- `i64::try_from`. -/
def tryI64 (n : UInt64) : Option Int64 := if n.toNat < 2 ^ 63 then some n.toInt64 else none

def Publisher.activeOn (streamId : String) (p : Publisher) : Bool :=
  p.streamId = streamId ∧ p.active = true

namespace Db

/-- `INSERT INTO publishers`: the id is new and the stream exists. -/
def insertPublisher (db : Db) (p : Publisher) : Option Db :=
  if db.publishers.any (fun q => q.id = p.id) ∨ db.hasStream p.streamId = false then none
  else some { db with publishers := db.publishers ++ [p] }

def publisherTryAcquire (db : Db) (p : PublisherRecord) (fault : Bool) : Db × Bool :=
  match tryI64 p.bytesIn with
  | none => (db, false)
  | some bytesIn =>
    if fault then (db, false)
    else if 0 < db.publishers.countP (Publisher.activeOn p.streamId) then (db, false)
    else
      match db.insertPublisher
          ⟨p.id, p.streamId, p.app, p.streamName, bytesIn, p.stats, p.connectedAt, true⟩ with
      | some db => (db, true)
      | none => (db, false)

/-- `write_publisher_stats`. A byte count that does not fit is dropped like a row that is gone. -/
def writePublisherStats (db : Db) (id : String) (p : PublisherRecord) : Db :=
  match tryI64 p.bytesIn with
  | none => db
  | some bytesIn =>
    { db with
      publishers := updateWhere (fun q => q.id = id ∧ q.active = true)
        (fun q => { q with bytesIn, stats := p.stats }) db.publishers }

def writePlayerStats (db : Db) (id : String) (p : PlayerRecord) : Db :=
  match tryI64 p.bytesOut with
  | none => db
  | some bytesOut =>
    { db with
      players := updateWhere (fun q => q.id = id ∧ q.active = true)
        (fun q => { q with bytesOut, stats := p.stats }) db.players }

/-- `stream_delete`, with the `ON DELETE CASCADE` of the remaining child tables. -/
def streamDelete (db : Db) (id : String) (fault : Bool) : Db :=
  if fault then db
  else
    { db with
      streams := deleteWhere (fun r => r.id = id) db.streams
      viewers := deleteWhere (fun v => v.streamId = id) db.viewers
      owners := deleteWhere (fun o => o.streamId = id) db.owners
      publishers := deleteWhere (fun p => p.streamId = id) db.publishers
      players := deleteWhere (fun p => p.streamId = id) db.players }

def resyncActivePlayerCounts (db : Db) : Db :=
  { db with
    activePlayerCounts := fun viewerId =>
      db.players.countP (fun p => p.viewerId = viewerId ∧ p.active = true)
        + db.unpersistedPlayerCounts viewerId }

end Db

/-- Which statements of `publisher_update` fail: the read of the row, the count and the write. -/
structure UpdateFaults where
  current : Bool
  count : Bool
  write : Bool
  deriving DecidableEq, Repr

namespace SessionDb

def updatedPublisher (p : PublisherRecord) (bytesIn : Int64) (q : Publisher) : Publisher :=
  { q with
    streamId := p.streamId
    app := p.app
    streamName := p.streamName
    bytesIn := bytesIn
    stats := p.stats
    active := p.active }

/-- `is_transition`: the row is not already active on the stream. A failed read counts as one. -/
def isTransition (db : Db) (id : String) (p : PublisherRecord) (fault : Bool) : Bool :=
  match if fault then none else lookup (·.id) db.publishers id with
  | some q => !(q.active && q.streamId == p.streamId)
  | none => true

def otherActive (db : Db) (id : String) (p : PublisherRecord) : Bool :=
  0 < db.publishers.countP fun q => q.activeOn p.streamId && q.id != id

/-- `publisher_update`. Moving an existing row to a stream that does not exist violates the foreign
key. -/
def publisherUpdate (s : SessionDb) (id : String) (p : PublisherRecord) (fault : UpdateFaults) :
    SessionDb × Bool :=
  match tryI64 p.bytesIn with
  | none => (s, false)
  | some bytesIn =>
    let s := { s with pending := { s.pending with publishers := s.pending.publishers.erase id } }
    if p.active && isTransition s.db id p fault.current && (fault.count || otherActive s.db id p) then
      (s, false)
    else
      let found := s.db.publishers.any fun q => q.id = id
      if fault.write || (found && !s.db.hasStream p.streamId) then (s, false)
      else
        ({ s with db := { s.db with
            publishers := updateWhere (fun q => q.id = id) (updatedPublisher p bytesIn)
              s.db.publishers } }, found)

def queuePublisherStats (s : SessionDb) (id : String) (p : PublisherRecord) : SessionDb :=
  { s with pending := { s.pending with publishers := s.pending.publishers.insert id p } }

def queuePlayerStats (s : SessionDb) (id : String) (p : PlayerRecord) : SessionDb :=
  { s with pending := { s.pending with players := s.pending.players.insert id p } }

/-- `requeue_pending_stats`: a row queued in the meantime is newer and wins. -/
def requeuePendingStats (queued pending : PendingStats) : PendingStats :=
  ⟨queued.publishers ∪ pending.publishers, queued.players ∪ pending.players⟩

/-- `flush_pending_stats`. The queue is taken first and only the connection stays locked, so
`newer` may be queued meanwhile. -/
def flushPendingStats (s : SessionDb) (newer : PendingStats) (fault : Bool) : SessionDb :=
  if fault then { s with pending := requeuePendingStats newer s.pending }
  else
    { db := s.pending.players.entries.foldl (fun db e => db.writePlayerStats e.1 e.2)
        (s.pending.publishers.entries.foldl (fun db e => db.writePublisherStats e.1 e.2) s.db)
      pending := newer }

end SessionDb

/-- The operations on sessions. `players` stands for all that change the `players` table and the
counts of viewer sessions. -/
inductive SessionsOp where
  | publisherTryAcquire (p : PublisherRecord) (fault : Bool)
  | publisherUpdate (id : String) (p : PublisherRecord) (fault : UpdateFaults)
  | publisherUpdateStats (id : String) (p : PublisherRecord) (fault : Bool)
  | queuePublisherStats (id : String) (p : PublisherRecord)
  | queuePlayerStats (id : String) (p : PlayerRecord)
  | flushPendingStats (newer : PendingStats) (fault : Bool)
  | players (rows : List Player) (active unpersisted : String → Nat)

namespace SessionDb

def run (s : SessionDb) : SessionsOp → SessionDb
  | .publisherTryAcquire p fault => { s with db := (s.db.publisherTryAcquire p fault).1 }
  | .publisherUpdate id p fault => (s.publisherUpdate id p fault).1
  | .publisherUpdateStats id p fault =>
    if fault then s else { s with db := s.db.writePublisherStats id p }
  | .queuePublisherStats id p => s.queuePublisherStats id p
  | .queuePlayerStats id p => s.queuePlayerStats id p
  | .flushPendingStats newer fault => s.flushPendingStats newer fault
  | .players rows active unpersisted => { s with db := { s.db with
      players := rows, activePlayerCounts := active, unpersistedPlayerCounts := unpersisted } }

/-- The whole group runs in one section. When the outer transaction could not be opened (`begun` is
false) every operation commits itself and the group counts as committed. -/
def batch (s : SessionDb) (ops : List SessionsOp) (begun committed : Bool) : SessionDb :=
  let s' := ops.foldl run s
  if begun && !committed then
    let db := { s.db with unpersistedPlayerCounts := s'.db.unpersistedPlayerCounts }
    { s' with db := db.resyncActivePlayerCounts }
  else s'

end SessionDb

end RtmpServer
