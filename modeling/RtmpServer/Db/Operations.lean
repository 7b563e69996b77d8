import RtmpServer.Db.Schema

/-!
# The database operations

The functions of `db.rs` that the Raft state machine calls, each as one function of the database.
Those that can refuse return the reason; a refused operation leaves the database as it was, since
the source runs it in one statement or in a transaction that is rolled back.
-/

namespace RtmpServer

open Lib.Table

inductive StreamAddError where
  | duplicate
  | db
  deriving DecidableEq, Repr

inductive ViewerAddError where
  | duplicate
  | parentUnavailable
  | db
  deriving DecidableEq, Repr

inductive StreamDisableOutcome where
  | disabled
  | missing
  | stale
  deriving DecidableEq, Repr

inductive OwnerError where
  | conflict
  | notFound
  | db
  deriving DecidableEq, Repr

/-- `SET enabled=?, pending_delete=?`. -/
def StreamRow.withFlags (enabled pendingDelete : Bool) (r : StreamRow) : StreamRow :=
  { r with enabled := enabled, pendingDelete := pendingDelete }

namespace Db

/-! ### Inserts -/

/-- A row of `streams` already holds the id or one of the keys of `s` in the same column. -/
def streamConstraintViolated (db : Db) (s : Stream) : Bool :=
  db.streams.any fun r =>
    r.id = s.id ∨ r.publishKey = s.publishKey ∨ r.playKey = s.playKey ∨ r.statsKey = s.statsKey

/-- `INSERT INTO streams`; `pending_delete` takes its default. -/
def insertStream (db : Db) (s : Stream) (deleteToken : String) : Option Db :=
  if db.streamConstraintViolated s then none
  else some { db with
    streams := db.streams ++ [{ toStream := s, pendingDelete := false, deleteToken := deleteToken }] }

def viewerConstraintViolated (db : Db) (v : StreamViewer) : Bool :=
  db.viewers.any fun r => r.id = v.id ∨ r.playKey = v.playKey

def hasStream (db : Db) (id : String) : Bool := db.streams.any fun s => s.id = id

/-- `INSERT INTO stream_viewers`. -/
def insertViewer (db : Db) (v : StreamViewer) : Option Db :=
  if db.viewerConstraintViolated v || !db.hasStream v.streamId then none
  else some { db with viewers := db.viewers ++ [v] }

/-- `INSERT INTO stream_owners`. -/
def insertOwner (db : Db) (o : OwnerRow) : Option Db :=
  if db.owners.any (fun r => r.streamId = o.streamId) || !db.hasStream o.streamId then none
  else some { db with owners := db.owners ++ [o] }

/-! ### Settings -/

/-- `token_get`: an empty value reads as unset. -/
def tokenGet (db : Db) : Option String := db.apiToken.filter (· ≠ "")

def tokenReplace (db : Db) (token : String) : Db := { db with apiToken := some token }

/-- `setting_get("cluster_id")`. -/
def clusterIdGet (db : Db) : Option String := db.clusterId.filter (· ≠ "")

/-- `setting_set("cluster_id", val)`. -/
def clusterIdSet (db : Db) (val : String) : Db := { db with clusterId := some val }

/-! ### Streams -/

/-- `key_globally_in_use_locked`. -/
def keyGloballyInUse (db : Db) (key : String) : Bool :=
  isValidAccessKey key &&
    (db.streams.any (fun s => s.publishKey = key ∨ s.playKey = key ∨ s.statsKey = key) ||
      db.viewers.any fun v => v.playKey = key)

/-- The loop both stream inserts run over the three keys of the new stream. -/
def streamKeysInUse (db : Db) (s : Stream) : Bool :=
  [s.publishKey, s.playKey, s.statsKey].any db.keyGloballyInUse

/-- `stream_insert_only_with_token(s, Some(token))`. -/
def streamInsertOnlyWithToken (db : Db) (s : Stream) (deleteToken : String) :
    Except StreamAddError Db :=
  if db.streamKeysInUse s then .error .duplicate
  else
    match db.insertStream s deleteToken with
    | none => .error .duplicate
    | some db' => .ok db'

def streamAddWithViewerWithToken (db : Db) (s : Stream) (viewer : StreamViewer)
    (deleteToken : String) : Except StreamAddError Db :=
  if viewer.streamId ≠ s.id ∨ viewer.playKey ≠ s.playKey then .error .db
  else if db.streamKeysInUse s then .error .duplicate
  else
    match db.insertStream s deleteToken with
    | none => .error .duplicate
    | some db' =>
      -- any failure of the second insert is reported as a database error
      match db'.insertViewer viewer with
      | none => .error .db
      | some db'' => .ok db''

/-- `SELECT … FROM streams WHERE id=?`. -/
def streamRow (db : Db) (id : String) : Option StreamRow := lookup (·.id) db.streams id

def streamGet (db : Db) (id : String) : Option Stream := (db.streamRow id).map (·.toStream)

/-- The `WHERE` clause of `stream_disable_expecting`. -/
def disableMatches (id : String) (expectedCreatedAt : Option Int)
    (expectedDeleteToken : Option String) (r : StreamRow) : Bool :=
  match expectedCreatedAt, expectedDeleteToken with
  | some expected, some token => r.id = id ∧ r.createdAt = expected ∧ r.deleteToken = token
  | some expected, none => r.id = id ∧ r.createdAt = expected
  | none, some token => r.id = id ∧ r.deleteToken = token
  | none, none => r.id = id

/-- `UPDATE streams SET enabled=?, pending_delete=? WHERE p`. -/
def setStreamFlags (db : Db) (p : StreamRow → Bool) (enabled pendingDelete : Bool) : Db :=
  { db with streams := updateWhere p (StreamRow.withFlags enabled pendingDelete) db.streams }

def streamDisableExpecting (db : Db) (id : String) (expectedCreatedAt : Option Int)
    (expectedDeleteToken : Option String) : Db × StreamDisableOutcome :=
  let p := disableMatches id expectedCreatedAt expectedDeleteToken
  (db.setStreamFlags p false true,
    if db.streams.any p then .disabled else if db.hasStream id then .stale else .missing)

def streamDisable (db : Db) (id : String) : Db × Bool :=
  let r := db.streamDisableExpecting id none none
  (r.1, r.2 = .disabled)

def streamSetEnabled (db : Db) (id : String) (enabled : Bool) : Db × Bool :=
  (db.setStreamFlags (fun r => r.id = id) enabled false, db.hasStream id)

/-- `stream_delete_if_pending`, with the `ON DELETE CASCADE` of the child tables. -/
def streamDeleteIfPending (db : Db) (id : String) : Db × Bool :=
  let p := fun r : StreamRow => decide (r.id = id ∧ r.pendingDelete = true)
  if db.streams.any p then
    ({ db with
      streams := deleteWhere p db.streams
      viewers := deleteWhere (fun v => v.streamId = id) db.viewers
      owners := deleteWhere (fun o => o.streamId = id) db.owners
      publishers := deleteWhere (fun q => q.streamId = id) db.publishers
      players := deleteWhere (fun q => q.streamId = id) db.players }, true)
  else (db, false)

/-- `stream_delete_tokens_result`. -/
def streamDeleteTokens (db : Db) : List (String × String) :=
  db.streams.map fun s => (s.id, s.deleteToken)

/-! ### Viewers -/

/-- The duplicate checks of `viewer_add`: the stream's own play key is only compared with the other
viewers, any other key with every access key. -/
def viewerKeyTaken (db : Db) (v : StreamViewer) : Bool :=
  if (db.streamRow v.streamId).map (·.playKey) = some v.playKey then
    db.viewers.any fun r => r.playKey = v.playKey
  else db.keyGloballyInUse v.playKey

/-- The parent row the insert of `viewer_add` selects from. -/
def parentAvailable (db : Db) (streamId : String) : Bool :=
  db.streams.any fun s => s.id = streamId ∧ s.pendingDelete = false

def viewerAdd (db : Db) (v : StreamViewer) : Except ViewerAddError Db :=
  if db.viewerKeyTaken v then .error .duplicate
  else if !db.parentAvailable v.streamId then .error .parentUnavailable
  else
    match db.insertViewer v with
    | none => .error .duplicate
    | some db' => .ok db'

/-- `ORDER BY created_at`. -/
def orderByCreatedAt {α : Type} (createdAt : α → Int) (rows : List α) : List α :=
  rows.insertionSort fun a b => createdAt a ≤ createdAt b

def viewerList (db : Db) (streamId : String) : List StreamViewer :=
  orderByCreatedAt (·.createdAt) (db.viewers.filter fun v => v.streamId = streamId)

def viewerDelete (db : Db) (streamId viewerId : String) : Db × Bool :=
  let p := fun v : StreamViewer => decide (v.streamId = streamId ∧ v.id = viewerId)
  ({ db with viewers := deleteWhere p db.viewers }, db.viewers.any p)

def playersDeactivateForViewer (db : Db) (viewerId : String) : Db :=
  { db with
    players := updateWhere (fun q => q.viewerId = viewerId ∧ q.active = true)
      (fun q => { q with active := false }) db.players
    activePlayerCounts :=
      Function.update db.activePlayerCounts viewerId (db.unpersistedPlayerCounts viewerId) }

/-! ### Stream owners -/

def streamOwnerGet (db : Db) (streamId : String) : Option StreamOwner :=
  (lookup (·.streamId) db.owners streamId).map OwnerRow.toOwner

def streamOwnerList (db : Db) : List StreamOwner := db.owners.map OwnerRow.toOwner

def streamOwnerAcquire (db : Db) (streamId : String) (nodeId epoch : UInt64) (acquiredAt : Int) :
    Except OwnerError (Db × UInt64) :=
  match db.streamRow streamId with
  | none => .error .notFound
  | some s =>
    if s.enabled = true ∧ s.pendingDelete = false then
      match lookup (·.streamId) db.owners streamId with
      | some o =>
        if o.ownerNodeId.toUInt64 ≠ nodeId then .error .conflict
        else
          .ok ({ db with
            owners := updateWhere (fun r => r.streamId = streamId)
              (fun r => { r with epoch := epoch.toInt64, acquiredAt := acquiredAt }) db.owners },
            epoch)
      | none =>
        match db.insertOwner ⟨streamId, nodeId.toInt64, epoch.toInt64, acquiredAt⟩ with
        | none => .error .db
        | some db' => .ok (db', epoch)
    else .error .notFound

def deleteOwners (db : Db) (p : OwnerRow → Bool) : Db :=
  { db with owners := deleteWhere p db.owners }

def streamOwnerRelease (db : Db) (streamId : String) (epoch : UInt64) : Db × Bool :=
  let p := fun o : OwnerRow => decide (o.streamId = streamId ∧ o.epoch = epoch.toInt64)
  (db.deleteOwners p, db.owners.any p)

/-- `i64::try_from(n).unwrap_or(i64::MAX)`. -/
def clampToI64 (n : UInt64) : Int64 := if n.toNat < 2 ^ 63 then n.toInt64 else Int64.maxValue

def streamOwnersReleaseForNode (db : Db) (nodeId maxEpoch : UInt64) : Db × Nat :=
  let p := fun o : OwnerRow =>
    decide (o.ownerNodeId = nodeId.toInt64 ∧ o.epoch ≤ clampToI64 maxEpoch)
  (db.deleteOwners p, db.owners.countP p)

end Db

end RtmpServer
