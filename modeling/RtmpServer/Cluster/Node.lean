import RtmpServer.Cluster.Redo
import RtmpServer.Cluster.Snapshot

/-!
# A node of the cluster

What one `SqliteStateMachine` keeps in its database file, and the moves of the state machine on it.
An install commits three transactions, and a crash can fall before, between or after them
(`CrashPoint`). A `RaftLog` is a sequence of entries with consecutive indexes from 1; `log.stateAt
i` is the database its first `i` entries produce from an empty file.
-/

namespace RtmpServer

open Lib.Table Lib.Replay

structure StoredMembership where
  logId : Option LogId
  membership : Membership
  deriving DecidableEq, Repr

structure SnapshotMeta where
  lastLogId : Option LogId
  lastMembership : StoredMembership
  snapshotId : String
  deriving DecidableEq, Repr

/-- A snapshot with its payload; the JSON encoding of the payload is not modelled. -/
structure StoredSnapshot where
  snapMeta : SnapshotMeta
  data : AppSnapshot
  deriving DecidableEq, Repr

/-- The durable state: application rows, `last_applied` and `last_membership` in `raft_meta`, and
the row of `raft_snapshots`. -/
structure Node where
  db : Db
  lastApplied : Option LogId
  lastMembership : StoredMembership
  snapshot : Option StoredSnapshot

def Node.fresh : Node := ⟨.empty, none, ⟨none, ⟨[], []⟩⟩, none⟩

def Node.applied (n : Node) : Nat := (n.lastApplied.map (·.index.toNat)).getD 0

/-! ### Applying entries -/

def membershipAfter (mem : StoredMembership) (e : Entry) : StoredMembership :=
  match e.payload with
  | .membership m => ⟨some e.logId, m⟩
  | _ => mem

/-- One entry of `apply`. An `Error` response returns before `last_applied` is written. -/
def Node.apply (n : Node) (e : Entry) : Node :=
  if (applyEntry n.db e).response.isError then { n with db := (applyEntry n.db e).db }
  else
    { n with
      db := (applyEntry n.db e).db
      lastApplied := some e.logId
      lastMembership := membershipAfter n.lastMembership e }

/-- What `Db::open` does to an existing file: missing delete tokens are derived and the sessions of
the previous process end. -/
def Db.reopen (db : Db) : Db :=
  { db.backfillTokens with
    publishers := updateWhere (·.active) (fun p => { p with active := false }) db.publishers
    players := updateWhere (·.active) (fun p => { p with active := false }) db.players
    activePlayerCounts := fun _ => 0
    unpersistedPlayerCounts := fun _ => 0 }

def Node.restart (n : Node) : Node := { n with db := n.db.reopen }

/-- A crash after the command's SQL committed and before `last_applied` was written. -/
def Node.crashAfterSql (n : Node) (e : Entry) : Node :=
  Node.restart { n with db := (applyEntry n.db e).db }

/-! ### Snapshots -/

def Node.buildSnapshot (n : Node) (snapshotId : String) : StoredSnapshot :=
  ⟨⟨n.lastApplied, n.lastMembership, snapshotId⟩, buildAppSnapshot n.db n.lastApplied⟩

def Node.store (n : Node) (snap : StoredSnapshot) : Node := { n with snapshot := some snap }

def Node.installRowsTx (n : Node) (snap : StoredSnapshot) : Option Node :=
  (installAppSnapshot n.db snap.data).map fun r => { n with db := r.1 }

def Node.installAppliedTx (n : Node) (snapMeta : SnapshotMeta) : Node :=
  { n with lastApplied := snapMeta.lastLogId, lastMembership := snapMeta.lastMembership }

/-- `install_snapshot`; the third transaction stores the snapshot itself. -/
def Node.installSnapshot (n : Node) (snap : StoredSnapshot) : Option Node :=
  (n.installRowsTx snap).map fun n₁ => (n₁.installAppliedTx snap.snapMeta).store snap

inductive CrashPoint where
  | beforeRows
  | afterRows
  | afterApplied
  | afterStore
  deriving DecidableEq, Repr

/-- The node after an install that crashed at `c` and a restart. -/
def Node.crashInstall (n : Node) (snap : StoredSnapshot) (c : CrashPoint) : Option Node :=
  match c with
  | .beforeRows => some n.restart
  | .afterRows => (n.installRowsTx snap).map Node.restart
  | .afterApplied =>
    (n.installRowsTx snap).map fun n₁ => (n₁.installAppliedTx snap.snapMeta).restart
  | .afterStore => (n.installSnapshot snap).map Node.restart

/-! ### Logs -/

/-- The committed entries with indexes 1, 2, … as `log_store` keeps them (an `INTEGER` column). The
entry of index 0, the membership `raft.initialize` writes, changes no row and is left out. -/
structure RaftLog where
  entries : List Entry
  index_eq : entries.map (·.logId.index.toNat) = List.range' 1 entries.length
  length_lt : entries.length < 2 ^ 63

namespace RaftLog

/-- The database after the first `i` entries; nothing when one of them answered `Error`. -/
def stateAt (log : RaftLog) (i : Nat) : Option Db := Lib.Replay.stateAt step .empty log.entries i

/-- No entry of the log answers `Error`, so that it has a state at every index. -/
def Replays (log : RaftLog) : Prop := (log.stateAt log.entries.length).isSome = true

instance (log : RaftLog) : Decidable log.Replays := by unfold Replays; infer_instance

theorem index_of_getElem? (log : RaftLog) {k : Nat} {e : Entry} (h : log.entries[k]? = some e) :
    e.logId.index.toNat = k + 1 := by
  have hmap := congrArg (·[k]?) log.index_eq
  have hk := (List.getElem?_eq_some_iff.1 h).1
  simp only [List.getElem?_map, h, Option.map_some] at hmap
  rw [List.getElem?_range' (by omega)] at hmap
  simp only [Option.some.injEq] at hmap
  omega

theorem stateAt_schemaOk {log : RaftLog} {i : Nat} {db : Db} (h : log.stateAt i = some db) :
    SchemaOk db :=
  replay_inv (fun _ _ _ _ hdb hs => step_schemaOk hdb hs) SchemaOk.empty h

end RaftLog

theorem Node.applied_apply {log : RaftLog} {n : Node} {e : Entry}
    (he : log.entries[n.applied]? = some e) (h : (applyEntry n.db e).response.isError = false) :
    (n.apply e).applied = n.applied + 1 := by
  unfold Node.apply
  rw [h]
  exact log.index_of_getElem? he

theorem Node.db_apply (n : Node) (e : Entry) : (n.apply e).db = (applyEntry n.db e).db := by
  unfold Node.apply
  split_ifs <;> rfl

/-! ### Reopening the file -/

theorem reopen_sameTables {db : Db} (h : ∀ r ∈ db.streams, r.deleteToken ≠ "") :
    SameTables db.reopen db := by
  refine .of_toTables ?_
  show db.backfillTokens.toTables = _
  rw [backfillTokens_of_tokens h]

theorem SchemaOk.reopen {db : Db} (hok : SchemaOk db) : SchemaOk db.reopen := by
  have parent {id : String} (h : ∃ s ∈ db.streams, s.id = id) :
      ∃ s ∈ db.reopen.streams, s.id = id := exists_backfillTokens.2 h
  exact {
    streamId := hok.streamId.updateWhere _ fun _ => rfl
    publishKey := hok.publishKey.updateWhere _ fun _ => rfl
    playKey := hok.playKey.updateWhere _ fun _ => rfl
    statsKey := hok.statsKey.updateWhere _ fun _ => rfl
    viewerId := hok.viewerId
    viewerKey := hok.viewerKey
    ownerStream := hok.ownerStream
    publisherId := hok.publisherId.updateWhere _ fun _ => rfl
    playerId := hok.playerId.updateWhere _ fun _ => rfl
    viewerParent := fun v hv => parent (hok.viewerParent v hv)
    ownerParent := fun o ho => parent (hok.ownerParent o ho)
    publisherParent := by
      intro p hp
      obtain ⟨q, hq, rfl⟩ := mem_updateWhere.1 hp
      have := parent (hok.publisherParent q hq)
      split_ifs <;> exact this
    playerParent := by
      intro p hp
      obtain ⟨q, hq, rfl⟩ := mem_updateWhere.1 hp
      have := parent (hok.playerParent q hq)
      split_ifs <;> exact this }

end RtmpServer
