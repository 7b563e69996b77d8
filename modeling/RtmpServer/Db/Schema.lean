import Mathlib.Algebra.GroupWithZero.Nat
import RtmpServer.Lib.Table

/-!
# The database: rows, columns and constraints

The tables of `db.rs` that the Raft state machine writes (`streams`, `stream_viewers`,
`stream_owners` and the two replicated `settings` rows) and the node-local session tables
(`publishers`, `players`) that cascade from them, as lists of rows in insertion order.

`SchemaOk` is what the `PRIMARY KEY`, `UNIQUE` and `REFERENCES` clauses of `SCHEMA` guarantee; a
`Database` carries it. An `INSERT` refuses exactly the rows these clauses reject. No other failure
of SQLite is modelled.
-/

namespace RtmpServer

open Lib.Table

/-! ### Access keys and delete tokens -/

def minAccessKeyLen : Nat := 32

/-- `keygen::is_valid_access_key`. Lengths are in bytes. -/
def isValidAccessKey (value : String) : Bool :=
  if value.utf8ByteSize < minAccessKeyLen || value.utf8ByteSize > 63 then false
  else
    match value.toList with
    | [] => false
    | first :: rest =>
      first.isAlphanum && rest.all fun c => c.isAlphanum || c == '.' || c == '_' || c == '-'

/-- The inner `fnv1a64` of `legacy_delete_token`: `wrapping_mul` is multiplication of `UInt64`. -/
def fnv1a64 (seed : UInt64) (bytes : List UInt8) : UInt64 :=
  bytes.foldl (fun hash byte => (hash ^^^ byte.toUInt64) * 0x00000100000001b3) seed

/-- `format!("\x7bhash:016x\x7d")`. -/
def hex016 (hash : UInt64) : String :=
  String.ofList ((List.range 16).map fun i => Nat.digitChar (hash.toNat / 16 ^ (15 - i) % 16))

def legacyDeleteToken (id publishKey : String) : String :=
  let hash (seed : UInt64) :=
    fnv1a64 (fnv1a64 seed id.toUTF8.data.toList) publishKey.toUTF8.data.toList
  hex016 (hash 0xcbf29ce484222325) ++ hex016 (hash 0x9e3779b97f4a7c15)

theorem legacyDeleteToken_ne_empty (id publishKey : String) :
    legacyDeleteToken id publishKey ≠ "" := by
  intro h
  have hlen := congrArg String.length h
  simp [legacyDeleteToken, hex016] at hlen

/-! ### Rows -/

structure Stream where
  id : String
  name : String
  app : String
  publishKey : String
  playKey : String
  statsKey : String
  enabled : Bool
  createdAt : Int
  deriving DecidableEq, Repr

/-- A row of `streams`: the columns of `Stream` and the two it does not expose. -/
structure StreamRow extends Stream where
  pendingDelete : Bool
  deleteToken : String
  deriving DecidableEq, Repr

structure StreamViewer where
  id : String
  streamId : String
  name : String
  playKey : String
  enabled : Bool
  createdAt : Int
  deriving DecidableEq, Repr

structure StreamOwner where
  streamId : String
  ownerNodeId : UInt64
  epoch : UInt64
  acquiredAt : Int
  deriving DecidableEq, Repr

/-- A row of `stream_owners`: SQLite stores the `u64` fields `as i64`. -/
structure OwnerRow where
  streamId : String
  ownerNodeId : Int64
  epoch : Int64
  acquiredAt : Int
  deriving DecidableEq, Repr

/-- The statistics written beside a publisher's byte count; an `f64` is given by its bits. -/
structure PublisherStats where
  videoCodec : String := ""
  audioCodec : String := ""
  videoWidth : UInt32 := 0
  videoHeight : UInt32 := 0
  fps : UInt64 := 0
  audioSampleRate : UInt32 := 0
  audioChannels : UInt32 := 0
  bitrateKbps : UInt64 := 0
  rttMs : UInt64 := 0
  deriving DecidableEq, Repr

/-- Those written beside a player's. -/
structure PlayerStats where
  bitrateKbps : UInt64 := 0
  rttMs : UInt64 := 0
  deriving DecidableEq, Repr

structure Publisher where
  id : String
  streamId : String
  app : String
  streamName : String
  bytesIn : Int64
  stats : PublisherStats := {}
  connectedAt : Int
  active : Bool
  deriving DecidableEq, Repr

/-- A row of `players`. `viewerId` references no table. -/
structure Player where
  id : String
  streamId : String
  viewerId : String
  app : String
  streamName : String
  bytesOut : Int64
  stats : PlayerStats := {}
  connectedAt : Int
  active : Bool
  deriving DecidableEq, Repr

/-- The row of a `StreamOwner` and back, `as i64` and `as u64`. -/
def StreamOwner.toRow (o : StreamOwner) : OwnerRow :=
  ⟨o.streamId, o.ownerNodeId.toInt64, o.epoch.toInt64, o.acquiredAt⟩

def OwnerRow.toOwner (r : OwnerRow) : StreamOwner :=
  ⟨r.streamId, r.ownerNodeId.toUInt64, r.epoch.toUInt64, r.acquiredAt⟩

@[simp] theorem OwnerRow.toRow_toOwner (r : OwnerRow) : r.toOwner.toRow = r := by
  simp [toOwner, StreamOwner.toRow]

/-! ### Tables -/

structure Tables where
  streams : List StreamRow
  viewers : List StreamViewer
  owners : List OwnerRow
  /-- The `settings` row `api_token`. -/
  apiToken : Option String
  /-- The `settings` row `cluster_id`. -/
  clusterId : Option String
  deriving DecidableEq, Repr

/-- A node's database, with the session tables and the in-memory session counters. -/
structure Db extends Tables where
  publishers : List Publisher
  players : List Player
  activePlayerCounts : String → Nat
  unpersistedPlayerCounts : String → Nat

def Db.empty : Db where
  streams := []
  viewers := []
  owners := []
  apiToken := none
  clusterId := none
  publishers := []
  players := []
  activePlayerCounts := fun _ => 0
  unpersistedPlayerCounts := fun _ => 0

structure SchemaOk (db : Db) : Prop where
  streamId : UniqueOn (·.id) db.streams
  publishKey : UniqueOn (·.publishKey) db.streams
  playKey : UniqueOn (·.playKey) db.streams
  statsKey : UniqueOn (·.statsKey) db.streams
  viewerId : UniqueOn (·.id) db.viewers
  viewerKey : UniqueOn (·.playKey) db.viewers
  ownerStream : UniqueOn (·.streamId) db.owners
  publisherId : UniqueOn (·.id) db.publishers
  playerId : UniqueOn (·.id) db.players
  viewerParent : ∀ v ∈ db.viewers, ∃ s ∈ db.streams, s.id = v.streamId
  ownerParent : ∀ o ∈ db.owners, ∃ s ∈ db.streams, s.id = o.streamId
  publisherParent : ∀ p ∈ db.publishers, ∃ s ∈ db.streams, s.id = p.streamId
  playerParent : ∀ p ∈ db.players, ∃ s ∈ db.streams, s.id = p.streamId

structure Database where
  db : Db
  schemaOk : SchemaOk db

theorem SchemaOk.empty : SchemaOk Db.empty := by
  constructor <;> simp [Db.empty]

end RtmpServer
