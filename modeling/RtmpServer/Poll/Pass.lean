import RtmpServer.Bridge.ConnRoles

/-!
# The passes of the poll loop

After each poll of the library `process_server_connections` of `server.rs` goes over its
connections. It compares what the library says of a session (`SessionStream`) with what the loop has
recorded (`TrackedConn`) and with the roles the bridge holds, ends and starts roles accordingly, and
sets the route on which the library relays the connection's media: `relay_key`, if `relay_enabled`.

`Turn.visitConn` is the body of its loop, and `Poll.pass` the whole. The statistics of a connection,
its queued frames, codecs and round-trip times are left out, as no decision depends on them.
-/

namespace RtmpServer

open Lib.Program

/-! ### What the bridge answers -/

namespace Bridge

def streamIdForConn (s : Bridge) (conn : UInt64) : String := (s.connState conn).streamId

def viewerIdForConn (s : Bridge) (conn : UInt64) : String := (s.connState conn).viewerId

def hasPublisher (s : Bridge) (conn : UInt64) : Bool := (s.publisherOf conn).isSome

def hasPlayer (s : Bridge) (conn : UInt64) : Bool := (s.playerOf conn).isSome

def hasAuthorizedSession (s : Bridge) (conn : UInt64) : Bool := s.hasPublisher conn || s.hasPlayer conn

def publisherStreamIdForConn (s : Bridge) (conn : UInt64) : Option String :=
  (s.publisherOf conn).map (·.streamId)

def playerStreamIdForConn (s : Bridge) (conn : UInt64) : Option String :=
  (s.playerOf conn).map (·.streamId)

def streamIdsForConn (s : Bridge) (conn : UInt64) : List String :=
  let ids := (s.publisherStreamIdForConn conn).toList
  let ids := ids ++ ((s.playerStreamIdForConn conn).filter fun id => id ∉ ids).toList
  if ids.isEmpty && s.streamIdForConn conn ≠ "" then [s.streamIdForConn conn] else ids

/-- `on_connect`. Of a connection that is registered already it would only rewrite the address. -/
def onConnect (s : Bridge) (conn : UInt64) : Bridge := s.setConn conn (s.connState conn)

def call {α : Type} (s : Bridge) (w : Action → Outcome) (op : BridgeM α) : Bridge :=
  (op.run (fun a s => a.exec (w a) s) s).1

end Bridge

namespace Poll

/-! ### The two roles -/

inductive Role where
  | publish
  | play
  deriving DecidableEq, Repr

def Role.other : Role → Role
  | .publish => .play
  | .play => .publish

/-- `release_publisher` and `release_player`. -/
def Role.release : Role → UInt64 → BridgeM Unit
  | .publish, conn => Bridge.releasePublisher conn
  | .play, conn => Bridge.releasePlayer conn

/-- `has_publisher` and `has_player`. -/
def Role.heldBy (s : Bridge) (conn : UInt64) : Role → Bool
  | .publish => s.hasPublisher conn
  | .play => s.hasPlayer conn

def Role.streamId (s : Bridge) (conn : UInt64) : Role → Option String
  | .publish => s.publisherStreamIdForConn conn
  | .play => s.playerStreamIdForConn conn

/-! ### What a pass reads and writes -/

/-- The session of a connection, as the library sees it. -/
structure SessionStream where
  isPublishing : Bool
  isPlaying : Bool
  deriving DecidableEq, Repr

def SessionStream.runs (s : SessionStream) : Role → Bool
  | .publish => s.isPublishing
  | .play => s.isPlaying

def SessionStream.stop (s : SessionStream) : Role → SessionStream
  | .publish => { s with isPublishing := false }
  | .play => { s with isPlaying := false }

structure Conn where
  connId : UInt64
  /-- `client_fd` is not negative. -/
  isOpen : Bool := true
  currentStream : Option SessionStream := none
  pendingPublishAuthorization : Bool := false
  pendingPlayAuthorization : Bool := false
  pendingAuthorization : Bool := false
  relayKey : String := ""
  relayEnabled : Bool := false
  deriving DecidableEq, Repr

def Conn.pending (c : Conn) : Role → Bool
  | .publish => c.pendingPublishAuthorization
  | .play => c.pendingPlayAuthorization

structure TrackedConn where
  connected : Bool := false
  publishing : Bool := false
  playing : Bool := false
  firstSeenAt : Option Nat := none
  streamId : String := ""
  deriving DecidableEq, Repr

def TrackedConn.runs (e : TrackedConn) : Role → Bool
  | .publish => e.publishing
  | .play => e.playing

def TrackedConn.mark (e : TrackedConn) (running : Bool) : Role → TrackedConn
  | .publish => { e with publishing := running }
  | .play => { e with playing := running }

/-- What the model leaves open about the visit of a connection. -/
structure Visit where
  /-- The clock. -/
  now : Nat
  /-- The outcomes of a release, when the session has ended and when its stream is deleted. -/
  teardown : Role → Action → Outcome
  drain : Role → Action → Outcome
  /-- If the auth worker does not take the close of a rejected connection, `on_close` runs here. -/
  close : Option (Action → Outcome)

structure Pass where
  deletedNow : Finset String
  revokedNow : Finset String
  idleTimeout : Nat
  visits : UInt64 → Visit

/-- The connection whose turn it is, its entry, and the bridge. -/
structure Turn where
  conn : Conn
  entry : TrackedConn
  bridge : Bridge

def shouldEvictIdleConn (entry : TrackedConn) (hasAuthorizedSession : Bool) (now idleTimeout : Nat) :
    Bool :=
  if entry.publishing || entry.playing || hasAuthorizedSession then false
  else entry.firstSeenAt.any fun seen => idleTimeout ≤ now - seen

/-! ### The visit of a connection -/

namespace Turn

/-- `stream_id_for_conn`. -/
def sid (t : Turn) : String := t.bridge.streamIdForConn t.conn.connId

def holds (t : Turn) (r : Role) : Bool := r.heldBy t.bridge t.conn.connId

def mark (t : Turn) (running : Bool) (r : Role) : Turn := { t with entry := t.entry.mark running r }

def release (t : Turn) (w : Action → Outcome) (r : Role) : Turn :=
  { t with bridge := t.bridge.call w (r.release t.conn.connId) }

/-- The connection is relayed on the stream the bridge names. -/
def reroute (t : Turn) : Turn :=
  { t with
    entry := { t.entry with streamId := t.sid }
    conn := { t.conn with relayKey := t.sid, relayEnabled := true } }

def unroute (t : Turn) (now : Nat) : Turn :=
  { t with
    entry := { t.entry with streamId := "", firstSeenAt := some now }
    conn := { t.conn with relayKey := "", relayEnabled := false } }

def register (t : Turn) (now : Nat) : Turn :=
  if t.entry.connected then
    if t.entry.firstSeenAt.isNone then { t with entry := { t.entry with firstSeenAt := some now } }
    else t
  else
    { t with
      bridge := t.bridge.onConnect t.conn.connId
      entry := { t.entry with connected := true, firstSeenAt := some now } }

/-- The library has ended the role. If the bridge cannot give it up, it stays with the connection. -/
def teardown (v : Visit) (stream : SessionStream) (r : Role) (t : Turn) : Turn :=
  if !stream.runs r && (t.entry.runs r || (t.holds r && !t.conn.pending r)) then
    let t := t.release (v.teardown r) r
    if t.holds r then t
    else if stream.runs r.other then (t.mark false r).reroute
    else (t.mark false r).unroute v.now
  else t

/-- The bridge may have moved the session to another stream. -/
def follow (t : Turn) : Turn :=
  if t.sid ≠ "" ∧ t.sid ≠ t.entry.streamId then
    { t with
      entry := { t.entry with streamId := t.sid }
      conn := { t.conn with relayKey := t.sid } }
  else t

/-- The library has switched the relay off for a rename that is settled now. -/
def resume (t : Turn) : Turn :=
  if t.holds .publish && !t.conn.pendingAuthorization then
    { t with conn := { t.conn with relayEnabled := true } }
  else t

/-- The session of the library goes on; only a publisher's relay is resumed. -/
def sync (t : Turn) : Role → Turn
  | .publish => t.follow.resume
  | .play => t.follow

/-- The library runs the role. One that starts needs the bridge's consent; `.error` rejects the
connection, here and below. -/
def enter (stream : SessionStream) (r : Role) (t : Turn) : Except Turn Turn :=
  if stream.runs r then
    if t.entry.runs r then .ok (t.sync r)
    else if t.holds r then .ok (t.mark true r).reroute
    else .error t
  else .ok t

def hit (t : Turn) (deletedNow : Finset String) (r : Role) : Bool :=
  (r.streamId t.bridge t.conn.connId).any fun id => id ∈ deletedNow

/-- The release of a role whose stream is deleted; the library learns of it. -/
def shed (w : Action → Outcome) (r : Role) (t : Turn) : Turn :=
  let t := t.release w r
  if t.holds r then t
  else
    { t.mark false r with
      conn := { t.conn with currentStream := t.conn.currentStream.map fun s => s.stop r } }

/-- A role that is left keeps the connection, on its stream. If its release has failed, that stream
may be deleted, and the relay is off. -/
def survive (deletedNow : Finset String) (t : Turn) : Except Turn Turn :=
  if t.holds .publish || t.holds .play then
    if t.sid ≠ "" ∧ t.sid ∉ deletedNow then .ok t.reroute
    else
      .ok { t with
        entry := { t.entry with streamId := t.sid }
        conn := { t.conn with relayKey := "", relayEnabled := false } }
  else .error t

def drainDeletedStreamRoles (deletedNow : Finset String) (v : Visit) (t : Turn) :
    Except Turn Turn :=
  if deletedNow = ∅ then .ok t
  else
    let pubHit := t.hit deletedNow .publish
    let playHit := t.hit deletedNow .play
    if !pubHit && !playHit then
      if (t.bridge.streamIdsForConn t.conn.connId).isEmpty && t.entry.streamId ≠ "" &&
          t.entry.streamId ∈ deletedNow then .error t
      else .ok t
    else
      let t := if pubHit then t.shed (v.drain .publish) .publish else t
      let t := if playHit then t.shed (v.drain .play) .play else t
      t.survive deletedNow

def checkRevoked (revokedNow : Finset String) (t : Turn) : Except Turn Turn :=
  let viewerId := t.bridge.viewerIdForConn t.conn.connId
  if viewerId ≠ "" ∧ viewerId ∈ revokedNow then .error t else .ok t

def visitStream (p : Pass) (v : Visit) (stream : SessionStream) (t : Turn) : Except Turn Turn := do
  let t := (t.teardown v stream .publish).teardown v stream .play
  let t ← t.enter stream .publish
  let t ← t.enter stream .play
  let t ← t.drainDeletedStreamRoles p.deletedNow v
  t.checkRevoked p.revokedNow

def visitConn (p : Pass) (v : Visit) (t : Turn) : Except Turn Turn :=
  let t := t.register v.now
  let hasAuthorizedSession :=
    t.entry.publishing || t.entry.playing || t.bridge.hasAuthorizedSession t.conn.connId
  if shouldEvictIdleConn t.entry hasAuthorizedSession v.now p.idleTimeout then .error t
  else if t.conn.connId ∈ t.bridge.pendingForceClose then
    .error { t with bridge := ((Action.takeForceClose t.conn.connId).exec {} t.bridge).1 }
  else
    match t.conn.currentStream with
    | none => .ok t
    | some stream => t.visitStream p v stream

end Turn

/-! ### The pass over all connections -/

structure Shared where
  tracked : AList fun _ : UInt64 => TrackedConn
  bridge : Bridge

namespace Shared

/-- `tracked.entry(conn_id).or_default()`. -/
def entry (s : Shared) (conn : UInt64) : TrackedConn := (s.tracked.lookup conn).getD {}

def turn (s : Shared) (conn : Conn) : Turn := ⟨conn, s.entry conn.connId, s.bridge⟩

def leave (s : Shared) (t : Turn) : Shared :=
  ⟨s.tracked.insert t.conn.connId t.entry, t.bridge⟩

/-- `close_conn_off_poll_thread`: the auth worker closes the connection later, or `on_close` runs. -/
def closeConnOffPollThread (b : Bridge) (close : Option (Action → Outcome)) (conn : UInt64) : Bridge :=
  match close with
  | none => b
  | some w => b.call w (Bridge.onClose conn)

def drop (p : Pass) (conn : UInt64) (s : Shared) : Shared :=
  ⟨s.tracked.erase conn, closeConnOffPollThread s.bridge (p.visits conn).close conn⟩

end Shared

def visit (p : Pass) (s : Shared) (conn : Conn) : Shared × Conn × Bool :=
  if conn.isOpen then
    match (s.turn conn).visitConn p (p.visits conn.connId) with
    | .ok t => (s.leave t, t.conn, false)
    | .error t => (s.leave t, t.conn, true)
  else (s, conn, false)

def visitAll (p : Pass) : Shared → List Conn → Shared × List (Conn × Bool)
  | s, [] => (s, [])
  | s, conn :: conns =>
    let here := visit p s conn
    let rest := visitAll p here.1 conns
    (rest.1, here.2 :: rest.2)

/-- The transport of a rejected connection is dropped; the library reaps it on the next poll. -/
def settle (c : Conn × Bool) : Conn :=
  if c.2 then { c.1 with isOpen := false, relayEnabled := false, relayKey := "" } else c.1

/-- The rejected connections are closed from the last to the first. -/
def process (p : Pass) (s : Shared) (conns : List Conn) : Shared × List Conn :=
  let visited := visitAll p s conns
  let rejected := (visited.2.filter (·.2)).map (·.1.connId)
  (rejected.foldr (Shared.drop p) visited.1, visited.2.map settle)

end Poll

end RtmpServer
