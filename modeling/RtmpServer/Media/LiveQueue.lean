import Mathlib.Algebra.GroupWithZero.Nat
import RtmpServer.Media.Protocol
import Mathlib.Data.List.AList

/-!
# The outbound queue of a media connection

`LiveMediaQueue` prefers fresh media to a complete backlog. A stream whose queued frames get too
old, or that holds the most bytes when a bound is hit, loses its queued non-critical frames and
waits for its next resync point. Critical frames and control messages are spared, critical frames as
long as anything else can be evicted.

`LiveQueue` is the inner state, the counters and the re-init flag in one record. The number `seq` an
entry got when it was offered and the log `events` of what became of the offers are not in the code,
and nothing reads them. Instants and durations are in nanoseconds.
-/

namespace RtmpServer

structure LiveQueueConfig where
  maxMessages : Nat
  maxBytes : Nat
  maxMediaAge : Nat
  resyncWaitMax : Nat
  deriving DecidableEq, Repr

inductive DropCause where
  | oversized
  | awaitingResync
  | full
  | closed
  deriving DecidableEq, Repr

inductive PushResult where
  | queued
  | dropped (cause : DropCause)
  deriving DecidableEq, Repr

inductive Kind where
  | control
  | media (hint : DeliveryHint)
  deriving DecidableEq, Repr

/-- `Kind::of`. -/
def MediaMessage.kind : MediaMessage → Kind
  | .mediaFrame _ _ _ _ _ _ hint _ => .media hint
  | _ => .control

def MediaMessage.names : MediaMessage → Option StreamKey
  | .mediaFrame app stream _ _ _ _ _ _ => some (app, stream)
  | _ => none

def Kind.evictable : Kind → Bool
  | .media hint => hint ≠ .critical
  | .control => false

def Kind.isMedia : Kind → Bool
  | .media _ => true
  | .control => false

/-- An entry of the queue. Its size and its kind are those of the message. -/
structure QueueEntry where
  seq : Nat
  msg : MediaMessage
  time : Nat
  deriving DecidableEq, Repr

def QueueEntry.size (e : QueueEntry) : Nat := e.msg.approxSize

def QueueEntry.kind (e : QueueEntry) : Kind := e.msg.kind

def QueueEntry.names (e : QueueEntry) : Option StreamKey := e.msg.names

def QueueEntry.evictableOf (k : StreamKey) (e : QueueEntry) : Bool :=
  e.kind.evictable && e.names = some k

def QueueEntry.isResync (e : QueueEntry) : Bool := e.kind = .media .resyncPoint

structure StreamState where
  awaitingSince : Option Nat := none
  evictableBytes : Nat := 0
  queuedFrames : Nat := 0
  needsReinit : Bool := false
  deriving DecidableEq, Repr

def StreamState.idle (st : StreamState) : Bool :=
  st.awaitingSince.isNone && st.queuedFrames = 0 && !st.needsReinit

/-- `awaiting_since.get_or_insert(now)`. -/
def StreamState.await (now : Nat) (st : StreamState) : StreamState :=
  { st with awaitingSince := st.awaitingSince.or (some now) }

def StreamState.resume (st : StreamState) : StreamState := { st with awaitingSince := none }

def StreamState.removeFrame (e : QueueEntry) (st : StreamState) : StreamState :=
  { st with
    queuedFrames := st.queuedFrames - 1
    evictableBytes :=
      if e.kind.evictable then st.evictableBytes - e.size else st.evictableBytes }

def StreamState.addFrame (e : QueueEntry) (st : StreamState) : StreamState :=
  { st with
    queuedFrames := st.queuedFrames + 1
    evictableBytes :=
      if e.kind.evictable then st.evictableBytes + e.size else st.evictableBytes }

inductive Reason where
  | stale
  | pressure
  deriving DecidableEq, Repr

/-- The counters wrap around. -/
structure LiveQueueStats where
  droppedTotal : UInt64 := 0
  droppedDroppable : UInt64 := 0
  droppedStale : UInt64 := 0
  droppedCritical : UInt64 := 0
  oversizedDropped : UInt64 := 0
  resyncCount : UInt64 := 0
  resyncTimeouts : UInt64 := 0
  maxBytesSeen : UInt64 := 0
  maxMessagesSeen : UInt64 := 0
  maxAgeMsSeen : UInt64 := 0
  deriving DecidableEq, Repr

/-- What became of an offer, and the waits that timed out. `refused` is a control message that was
too large. -/
inductive QueueEvent where
  | lost (e : QueueEntry)
  | refused (e : QueueEntry)
  | delivered (e : QueueEntry)
  | timedOut (k : StreamKey)
  deriving DecidableEq, Repr

structure LiveQueue where
  entries : List QueueEntry
  bytes : Nat
  streams : AList fun _ : StreamKey => StreamState
  closed : Bool
  reinitDirty : Bool
  reinitPending : Bool
  stats : LiveQueueStats
  events : List QueueEvent
  deriving DecidableEq

def LiveQueue.new : LiveQueue := ⟨[], 0, ∅, false, false, false, {}, []⟩

namespace LiveQueue

/-! ### States of streams -/

/-- A write through `state_mut`, which creates the state. -/
def modifyState (q : LiveQueue) (k : StreamKey) (f : StreamState → StreamState) : LiveQueue :=
  { q with streams := q.streams.insert k (f ((q.streams.lookup k).getD {})) }

/-- A write through `get_mut`, to a state that exists. -/
def modifyExisting (q : LiveQueue) (k : StreamKey) (f : StreamState → StreamState) : LiveQueue :=
  match q.streams.lookup k with
  | some st => { q with streams := q.streams.insert k (f st) }
  | none => q

def pruneIdle (q : LiveQueue) (k : StreamKey) : LiveQueue :=
  if (q.streams.lookup k).any StreamState.idle then { q with streams := q.streams.erase k } else q

def isAwaiting (q : LiveQueue) (k : StreamKey) : Bool :=
  (q.streams.lookup k).any (·.awaitingSince.isSome)

/-! ### Removal and its accounting -/

def accountRemoved (q : LiveQueue) (e : QueueEntry) : LiveQueue :=
  let q := { q with bytes := q.bytes - e.size }
  match e.names with
  | none => q
  | some k =>
    (q.modifyExisting k (StreamState.removeFrame e)).pruneIdle k

def countDrop (q : LiveQueue) (e : QueueEntry) (reason : Reason) : LiveQueue :=
  let stats := { q.stats with droppedTotal := q.stats.droppedTotal + 1 }
  { q with
    stats :=
      match e.kind, reason with
      | .media .critical, _ => { stats with droppedCritical := stats.droppedCritical + 1 }
      | _, .stale => { stats with droppedStale := stats.droppedStale + 1 }
      | _, .pressure => { stats with droppedDroppable := stats.droppedDroppable + 1 }
    events := .lost e :: q.events }

def countResync (q : LiveQueue) : LiveQueue :=
  { q with stats := { q.stats with resyncCount := q.stats.resyncCount + 1 } }

/-- The common end of the purges: `kept` stays, and `removed` is counted and accounted for. -/
def discard (q : LiveQueue) (kept removed : List QueueEntry) (reason : Reason) : LiveQueue :=
  removed.foldl (fun q e => (q.countDrop e reason).accountRemoved e) { q with entries := kept }

def purgeStream (q : LiveQueue) (k : StreamKey) (reason : Reason) : LiveQueue :=
  q.discard (q.entries.filter (!·.evictableOf k)) (q.entries.filter (·.evictableOf k)) reason

def freshResync (k : StreamKey) (now maxAge : Nat) (e : QueueEntry) : Bool :=
  e.names = some k && e.isResync && now - e.time ≤ maxAge

/-- The queue, whether a fresh resync point was found, and whether a dependent frame was removed. -/
def purgeStaleStream (q : LiveQueue) (k : StreamKey) (now maxAge : Nat) :
    LiveQueue × Bool × Bool :=
  let (before, after) := q.entries.span (!freshResync k now maxAge ·)
  let removed := before.filter (·.evictableOf k)
  (q.discard (before.filter (!·.evictableOf k) ++ after) removed .stale, !after.isEmpty,
    removed.any (·.kind = .media .droppable))

/-! ### The age rule -/

/-- What `enforce_age` does with one stream. -/
def enforceAgeOn (q : LiveQueue) (now : Nat) (cfg : LiveQueueConfig) (k : StreamKey) : LiveQueue :=
  let (q, resynced, skipped) := q.purgeStaleStream k now cfg.maxMediaAge
  let q :=
    if resynced then
      (if skipped then q.countResync else q).modifyExisting k StreamState.resume
    else q.modifyState k (StreamState.await now)
  q.pruneIdle k

/-- The streams with a non-critical frame among the entries that are too old. -/
def staleStreams (q : LiveQueue) (now : Nat) (cfg : LiveQueueConfig) : List StreamKey :=
  ((q.entries.takeWhile fun e => now - e.time > cfg.maxMediaAge).filterMap fun e =>
    if e.kind.evictable then e.names else none).eraseDups

/-- An entry at the head that is fresh ends the search at once, so the list is empty then. -/
def enforceAge (q : LiveQueue) (now : Nat) (cfg : LiveQueueConfig) : LiveQueue :=
  (q.staleStreams now cfg).foldl (fun q k => q.enforceAgeOn now cfg k) q

/-! ### The bounds -/

def heavier (a b : Nat × StreamKey) : Bool :=
  b.1 < a.1 ∨ b.1 = a.1 ∧ (a.2.1 < b.2.1 ∨ a.2.1 = b.2.1 ∧ a.2.2 < b.2.2)

def heaviestEvictable (q : LiveQueue) : Option StreamKey :=
  (q.streams.entries.foldl (fun best s =>
    if s.2.evictableBytes = 0 then best
    else
      match best with
      | none => some (s.2.evictableBytes, s.1)
      | some b =>
        if heavier (s.2.evictableBytes, s.1) b then some (s.2.evictableBytes, s.1) else best)
    none).map Prod.snd

def fits (q : LiveQueue) (size : Nat) (cfg : LiveQueueConfig) : Bool :=
  q.entries.length < cfg.maxMessages ∧ q.bytes + size ≤ cfg.maxBytes

def evictStream (q : LiveQueue) (k : StreamKey) (now : Nat) : LiveQueue :=
  (q.purgeStream k .pressure).modifyState k (StreamState.await now)

/-- The last resort: the oldest critical frame, `e`, goes. -/
def evictCritical (q : LiveQueue) (rest : List QueueEntry) (e : QueueEntry) : LiveQueue :=
  let q := { q with entries := rest }.countDrop e .pressure
  let q :=
    match e.names with
    | some k => { q.modifyState k (fun st => { st with needsReinit := true }) with reinitDirty := true }
    | none => q
  q.accountRemoved e

/-- The loop of `make_room`, with a bound on its iterations; nothing when the bound is reached. -/
def makeRoomLoop (size now : Nat) (cfg : LiveQueueConfig) : Nat → LiveQueue → Option (Bool × LiveQueue)
  | 0, _ => none
  | fuel + 1, q =>
    if q.fits size cfg then some (true, q)
    else
      match q.heaviestEvictable with
      | some k => makeRoomLoop size now cfg fuel (q.evictStream k now)
      | none =>
        match q.entries.span (·.kind ≠ .media .critical) with
        | (before, e :: after) => makeRoomLoop size now cfg fuel (q.evictCritical (before ++ after) e)
        | (_, []) => some (false, q)

/-- Every iteration removes an entry, so one more than there are entries is enough. -/
def makeRoom (q : LiveQueue) (size now : Nat) (cfg : LiveQueueConfig) : Option (Bool × LiveQueue) :=
  makeRoomLoop size now cfg (q.entries.length + 1) q

/-! ### Waits that end -/

def expiredWait (now : Nat) (cfg : LiveQueueConfig) (st : StreamState) : Bool :=
  st.awaitingSince.any fun t => cfg.resyncWaitMax ≤ now - t

def releaseWait (q : LiveQueue) (k : StreamKey) : LiveQueue :=
  ({ q with
    stats := { q.stats with resyncTimeouts := q.stats.resyncTimeouts + 1 }
    events := .timedOut k :: q.events }.modifyExisting k StreamState.resume).pruneIdle k

def releaseExpiredWaits (q : LiveQueue) (now : Nat) (cfg : LiveQueueConfig) : LiveQueue :=
  ((q.streams.entries.filter fun s => expiredWait now cfg s.2).map (·.1)).foldl releaseWait q

/-! ### Push -/

def noteHighWater (q : LiveQueue) (now : Nat) : LiveQueue :=
  { q with
    stats :=
      { q.stats with
        maxBytesSeen := max q.stats.maxBytesSeen (.ofNat q.bytes)
        maxMessagesSeen := max q.stats.maxMessagesSeen (.ofNat q.entries.length)
        maxAgeMsSeen :=
          match q.entries with
          | head :: _ => max q.stats.maxAgeMsSeen (.ofNat ((now - head.time) / 10 ^ 6))
          | [] => q.stats.maxAgeMsSeen } }

def pushLimit (cfg : LiveQueueConfig) : Kind → Nat
  | .media _ => cfg.maxBytes / 2
  | .control => cfg.maxBytes

def refuseOversized (q : LiveQueue) (e : QueueEntry) : LiveQueue :=
  { q with
    stats :=
      { q.stats with
        droppedTotal := q.stats.droppedTotal + 1
        oversizedDropped := q.stats.oversizedDropped + 1 }
    events := (if e.kind.isMedia then .lost e else .refused e) :: q.events }

/-- The stream of a resync point is not waiting any more. -/
def resumeStream (q : LiveQueue) (k : StreamKey) : LiveQueue :=
  (q.modifyExisting k StreamState.resume).countResync

/-- `std::mem::take(&mut g.reinit_dirty)` and its consequence. -/
def publishReinit (q : LiveQueue) : LiveQueue :=
  { q with reinitPending := q.reinitPending || q.reinitDirty, reinitDirty := false }

def enqueue (q : LiveQueue) (e : QueueEntry) : LiveQueue :=
  let q :=
    match e.names with
    | none => q
    | some k =>
      let q := q.modifyState k (StreamState.addFrame e)
      { q with reinitPending := q.reinitPending || (q.streams.lookup k).any StreamState.needsReinit }
  { q with bytes := q.bytes + e.size, entries := q.entries ++ [e] }.noteHighWater e.time

/-- The check a push makes before and after it makes room: what a frame of a waiting stream does.
Nothing means that the frame is refused. -/
def resyncCheck (q : LiveQueue) (e : QueueEntry) (purge : Bool) : Option LiveQueue :=
  match e.kind, e.names with
  | .media hint, some k =>
    if q.isAwaiting k then
      match hint with
      | .droppable => none
      | .resyncPoint =>
        some ((if purge then q.purgeStream k .stale else q).resumeStream k)
      | .critical => some q
    else some q
  | _, _ => some q

/-- `push_at`. The instant of the entry is the one of the call. -/
def pushAt (q : LiveQueue) (cfg : LiveQueueConfig) (e : QueueEntry) :
    Option (PushResult × LiveQueue) :=
  if q.closed then some (.dropped .closed, q)
  else if pushLimit cfg e.kind < e.size then some (.dropped .oversized, q.refuseOversized e)
  else
    let q := (q.enforceAge e.time cfg).releaseExpiredWaits e.time cfg
    match q.resyncCheck e true with
    | none => some (.dropped .awaitingResync, q.countDrop e .pressure)
    | some q =>
      match q.makeRoom e.size e.time cfg with
      | none => none
      | some (false, q) =>
        let q := if e.kind.isMedia then q.countDrop e .pressure else q
        some (.dropped .full, q.publishReinit)
      | some (true, q) =>
        let q := q.publishReinit
        match q.resyncCheck e false with
        | none => some (.dropped .awaitingResync, q.countDrop e .pressure)
        | some q => some (.queued, q.enqueue e)

/-! ### Pop and the rest -/

/-- `pop_at`, with the whole entry; the code hands out its message. -/
def popAt (q : LiveQueue) (cfg : LiveQueueConfig) (now : Nat) : Option QueueEntry × LiveQueue :=
  if q.closed then (none, q)
  else
    let q := ((q.noteHighWater now).enforceAge now cfg).releaseExpiredWaits now cfg
    match q.entries with
    | [] => (none, q)
    | e :: rest =>
      (some e, { q with entries := rest, events := .delivered e :: q.events }.accountRemoved e)

def close (q : LiveQueue) : LiveQueue :=
  { q with closed := true, entries := [], bytes := 0, streams := ∅ }

def onConnectionReset (q : LiveQueue) (now : Nat) : LiveQueue :=
  ((q.streams.entries.filter fun s => 0 < s.2.evictableBytes).map (·.1)).foldl
    (fun q k => (q.purgeStream k .stale).modifyState k (StreamState.await now)) q

def takeReinit (q : LiveQueue) (k : StreamKey) : Bool × LiveQueue :=
  if q.reinitPending then
    let taken := (q.streams.lookup k).any StreamState.needsReinit
    let q := q.modifyExisting k fun st => { st with needsReinit := false }
    let q := { q with reinitPending := q.streams.entries.any (·.2.needsReinit) }
    (taken, q.pruneIdle k)
  else (false, q)

def markReinit (q : LiveQueue) (k : StreamKey) : LiveQueue :=
  { q.modifyState k (fun st => { st with needsReinit := true }) with reinitPending := true }

end LiveQueue

end RtmpServer
