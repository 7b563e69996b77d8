import RtmpServer.Media.HubState
import RtmpServer.Media.InboundSessions
import RtmpServer.Media.QueueInvariant

/-!
# The subscriber's side of the media hub

`subscribe_remote`, `unsubscribe_remote`, the replay after a reconnect, the retries and the handling
of `subscribe_denied` and `subscribe_unavailable`, with everything they work on: the outbound
references, the subscribe generations, the queue of each `MediaPeer`, its dial loop and the session
the owner runs for its connection. `MediaHub.step` is one section under a lock of one of the tasks
involved. What holds `subscribe_lock` is one step; a retry and the handling of an answer take a step
for each of the tables they look at.
-/

namespace RtmpServer

open Lib.Refcount

/-! ### The queue of a peer -/

structure PeerQueue (cfg : LiveQueueConfig) where
  queue : LiveQueue
  ok : queue.Ok cfg

namespace PeerQueue

variable {cfg : LiveQueueConfig}

def new : PeerQueue cfg :=
  ⟨.new, .empty rfl rfl rfl⟩

theorem pushAt_ok {q q' : LiveQueue} (hq : q.Ok cfg) {e : QueueEntry} {r : PushResult}
    (h : q.pushAt cfg e = some (r, q')) : q'.Ok cfg := by
  obtain ⟨r₁, q₁, hpush, hpushed⟩ := LiveQueue.pushAt_spec hq.booked cfg e
  rw [h] at hpush
  cases hpush
  exact hq.pushed hpushed

theorem pushAt_returns {q : LiveQueue} (hq : q.Ok cfg) (e : QueueEntry) :
    q.pushAt cfg e ≠ none := by
  obtain ⟨r, q', hpush, -⟩ := LiveQueue.pushAt_spec hq.booked cfg e
  rw [hpush]
  exact Option.some_ne_none _

/-- `push`. The numbers of the entries are of no use here. -/
def push (q : PeerQueue cfg) (msg : MediaMessage) (now : Nat) : PushResult × PeerQueue cfg :=
  match h : q.queue.pushAt cfg ⟨0, msg, now⟩ with
  | some (r, q') => (r, ⟨q', pushAt_ok q.ok h⟩)
  | none => absurd h (pushAt_returns q.ok _)

/-- `pop`, with the message alone. -/
def pop (q : PeerQueue cfg) (now : Nat) : Option MediaMessage × PeerQueue cfg :=
  ((q.queue.popAt cfg now).1.map QueueEntry.msg,
    ⟨(q.queue.popAt cfg now).2, q.ok.popped (q.queue.popAt_spec cfg now)⟩)

def onConnectionReset (q : PeerQueue cfg) (now : Nat) : PeerQueue cfg :=
  ⟨q.queue.onConnectionReset now, q.ok.maintained (q.queue.maintained_onConnectionReset now)⟩

end PeerQueue

/-! ### A peer and its connection -/

/-- A connection: what was written and not yet read, the owner's session at the other end, and the
generation of the `Subscribe` it read last. -/
structure Link where
  wire : List MediaMessage
  session : MediaSession
  asked : UInt64

inductive PeerPhase where
  | waiting
  | dialing
  | running (link : Link)

/-- `MediaPeer`. `incarnation` tells one `Arc` from another; `first` is the dial loop's variable. -/
structure MediaPeer (cfg : LiveQueueConfig) where
  incarnation : Nat
  addr : String
  queue : PeerQueue cfg
  first : Bool
  phase : PeerPhase

namespace MediaPeer

variable {cfg : LiveQueueConfig} (p : MediaPeer cfg)

def isClosed : Bool := p.queue.queue.closed

/-- `try_send`, and whether the message was queued. -/
def trySend (msg : MediaMessage) (now : Nat) : Bool × MediaPeer cfg :=
  let (r, queue) := p.queue.push msg now
  (decide (r = .queued), { p with queue })

end MediaPeer

/-! ### Answers to a `Subscribe` -/

def subscribeDenied : String := "subscribe_denied"

def subscribeUnavailable : String := "subscribe_unavailable"

def subscribeDeniedPayload (key : StreamKey) : String := key.1 ++ "\t" ++ key.2

def parseSubscribeDenied (message : String) : Option StreamKey :=
  match message.toList.span (· ≠ '\t') with
  | (app, _ :: stream) =>
    if app.isEmpty || stream.isEmpty then none else some (String.ofList app, String.ofList stream)
  | (_, []) => none

/-- What the owner answers; the wire has no answer to a `Subscribe` that was accepted. -/
def InboundSubscribeVerdict.answer (v : InboundSubscribeVerdict) (key : StreamKey)
    (generation : UInt64) : Option MediaMessage :=
  match v with
  | .allow => none
  | .deny => some (.error subscribeDenied (subscribeDeniedPayload key) generation)
  | .transient => some (.error subscribeUnavailable (subscribeDeniedPayload key) generation)

def Link.read (l : Link) : Option Link :=
  match l.wire with
  | [] => none
  | msg :: wire => do
    let (session, _) ← l.session.step (.read msg)
    let asked :=
      match msg with
      | .subscribe _ _ _ generation => generation
      | _ => l.asked
    some { wire, session, asked }

/-- Another section of the owner's session, with its answer. -/
def Link.serve (l : Link) (op : SessionOp) : Option (Link × Option MediaMessage) :=
  match op with
  | .read _ => none
  | op => do
    let (session, _) ← l.session.step op
    let answer :=
      match op, l.session.phase with
      | .verdict v _, .judging key => v.answer key l.asked
      | _, _ => none
    some ({ l with session }, answer)

/-! ### The hub -/

structure HubConfig where
  localId : UInt64
  queue : LiveQueueConfig

def subscribeNackMax : Nat := 3

def subscribeNackSendRetries : Nat := 3

def subscribeTransientMaxAttempts : Nat := 6

def subscribeReplaySendRetries : Nat := 16

def maxSubGens : Nat := 4096

/-- Where a `run_subscribe_retry` is, by the section that comes next. -/
inductive RetryPhase where
  | asleep
  | checkRef
  | checkWired
  | readEpoch
  | findPeer (epoch : UInt64)
  | build (epoch : UInt64) (incarnation : Nat)
  | send (incarnation : Nat) (epoch generation : UInt64)
  | markWired
  | done
  deriving DecidableEq

structure RetryTask where
  peer : UInt64
  key : StreamKey
  generation : UInt64
  sendRetries : Nat
  phase : RetryPhase
  deriving DecidableEq

/-- Where the handling of an answer is, by the section that comes next. -/
inductive AnswerPhase where
  | checkRef
  | readGen
  | unwire (generation : UInt64)
  | count (generation : UInt64)
  | arm (generation : UInt64) (n : Nat)
  | clearRounds
  | clearNacks
  | bump (again : Bool)
  deriving DecidableEq

structure AnswerTask where
  peer : UInt64
  key : StreamKey
  generation : UInt64
  transient : Bool
  phase : AnswerPhase
  deriving DecidableEq

/-- The parts of `MediaHub` that subscribing works with, the tasks it spawned and the channels its
loops read from: `answers` of the owners, `reconnects` the peers to replay. -/
structure MediaHub (cfg : HubConfig) where
  outbound : OutboundSubscriptions
  subs : SubscriptionTable
  ownership : OwnershipTracker
  peers : AList fun _ : UInt64 => MediaPeer cfg.queue
  subscribeGens : AList fun _ : PeerKey => UInt64
  nextSubGen : UInt64
  subscribeNacks : AList fun _ : PeerKey => Nat
  transientSubRetries : AList fun _ : PeerKey => Nat
  retries : List RetryTask
  answering : Option AnswerTask
  answers : List (UInt64 × MediaMessage)
  reconnects : List UInt64
  nextIncarnation : Nat

namespace MediaHub

variable {cfg : HubConfig}

def new : MediaHub cfg :=
  ⟨∅, ∅, ⟨∅, 1⟩, ∅, ∅, 1, ∅, ∅, [], none, [], [], 0⟩

variable (h : MediaHub cfg) (peer : UInt64) (key : StreamKey)

def subGen : UInt64 := (h.subscribeGens.lookup (peer, key)).getD 0

def hasSubscription : Bool := h.subs.has peer key || h.outbound.has peer key

/-- `bump_sub_gen`, and the generation it recorded. -/
def bumpSubGen : UInt64 × MediaHub cfg :=
  let generation := h.nextSubGen
  let gens := h.subscribeGens.insert (peer, key) generation
  let gens :=
    if gens.entries.length > maxSubGens then
      ⟨gens.entries.filter fun e =>
        (h.subscribeNacks.lookup e.1).isSome || h.hasSubscription e.1.1 e.1.2,
        gens.nodupKeys.sublist List.filter_sublist⟩
    else gens
  (generation, { h with nextSubGen := h.nextSubGen + 1, subscribeGens := gens })

def clearSubscribeNacks : MediaHub cfg :=
  let had := (h.subscribeNacks.lookup (peer, key)).isSome
  let h := { h with
    transientSubRetries := h.transientSubRetries.erase (peer, key)
    subscribeNacks := h.subscribeNacks.erase (peer, key) }
  if had then (h.bumpSubGen peer key).2 else h

def subscribeMessage (epoch : UInt64) : MediaMessage :=
  .subscribe key.1 key.2 epoch (h.subGen peer key)

/-- `schedule_subscribe_retry`; the delay is not modelled. -/
def scheduleSubscribeRetry (generation : UInt64) (sendRetries : Nat) : MediaHub cfg :=
  { h with retries := h.retries ++ [⟨peer, key, generation, sendRetries, .asleep⟩] }

/-- `peer.try_send` for the peer of the map; nothing is sent without one. -/
def trySend (msg : MediaMessage) (now : Nat) : Bool × MediaHub cfg :=
  match h.peers.lookup peer with
  | some p =>
    let (sent, p) := p.trySend msg now
    (sent, { h with peers := h.peers.insert peer p })
  | none => (false, h)

def setWired (wired : Bool) : MediaHub cfg :=
  { h with outbound := h.outbound.setWired peer key wired }

def ownsStream : Bool := (h.ownership.get key.2).any fun owner => owner.1 == cfg.localId

def resubscribeStream (now : Nat) : MediaHub cfg :=
  if h.ownsStream key then h
  else
    let epoch := (h.ownership.epochOf key).getD 0
    let (generation, h) :=
      if h.subGen peer key = 0 then h.bumpSubGen peer key else (h.subGen peer key, h)
    let (sent, h) := h.trySend peer (h.subscribeMessage peer key epoch) now
    if sent then h.setWired peer key true
    else h.scheduleSubscribeRetry peer key generation subscribeReplaySendRetries

/-- `resubscribe_peer_locked`. -/
def resubscribePeer (now : Nat) : MediaHub cfg :=
  match h.peers.lookup peer with
  | none => h
  | some _ =>
    let h := { h with outbound := h.outbound.clearWired peer }
    (h.outbound.streamsForPeer peer).foldl (fun h key => h.resubscribeStream peer key now) h

/-- The peer of the map cannot be used: there is none, it is closed, or the address changed. -/
def needsPeer (addr : String) : Bool :=
  match h.peers.lookup peer with
  | some p => p.isClosed || p.addr != addr
  | none => true

/-- `ensure_peer_locked`. -/
def ensurePeer (addr : String) (now : Nat) : MediaHub cfg :=
  if h.needsPeer peer addr then
    let p : MediaPeer cfg.queue := ⟨h.nextIncarnation, addr, .new, true, .waiting⟩
    { h with
      peers := h.peers.insert peer p
      nextIncarnation := h.nextIncarnation + 1 }.resubscribePeer peer now
  else h

/-- The end of `subscribe_remote`, when the key is not wired yet. -/
def sendSubscribe (epoch : UInt64) (owner : String) (now : Nat) : Bool × MediaHub cfg :=
  let (sent, h) := h.trySend peer (h.subscribeMessage peer key epoch) now
  if sent then (true, h.setWired peer key true)
  else
    match h.outbound.removeIfSole owner peer key with
    | (outbound, true) => (false, ({ h with outbound }.bumpSubGen peer key).2)
    | (_, false) =>
      let (sent, h) := h.trySend peer (h.subscribeMessage peer key epoch) now
      (true, if sent then h.setWired peer key true else h)

/-- The start of `subscribe_remote`: a first reference comes with a new budget of retries. -/
def addRef (owner : String) : MediaHub cfg :=
  let (outbound, firstRef) := h.outbound.add owner peer key
  { h with
    outbound
    transientSubRetries :=
      if firstRef then h.transientSubRetries.erase (peer, key) else h.transientSubRetries }

def subscribeRemote (addr : String) (epoch : UInt64) (owner : String) (now : Nat) :
    Bool × MediaHub cfg :=
  let h := h.addRef peer key owner
  if addr = "" then (true, h)
  else
    let h := h.ensurePeer peer addr now
    if h.outbound.isWired peer key then (true, h)
    else if h.ownsStream key then (true, h)
    else h.sendSubscribe peer key epoch owner now

def finishUnsubscribe (now : Nat) : MediaHub cfg :=
  let (_, h) := h.bumpSubGen peer key
  let h := { h with
    subscribeNacks := h.subscribeNacks.erase (peer, key)
    transientSubRetries := h.transientSubRetries.erase (peer, key) }
  (h.trySend peer (.unsubscribe key.1 key.2) now).2

def unsubscribeRemote (owner : String) (now : Nat) : MediaHub cfg :=
  match h.outbound.remove owner peer key with
  | (outbound, true) => { h with outbound }.finishUnsubscribe peer key now
  | (outbound, false) => { h with outbound }

def unsubscribeRemoteAll (now : Nat) : MediaHub cfg :=
  match h.outbound.removeAll peer key with
  | (outbound, true) => { h with outbound }.finishUnsubscribe peer key now
  | (outbound, false) => { h with outbound }

/-! ### Retries -/

def setRetry (i : Nat) (t : RetryTask) (phase : RetryPhase) : MediaHub cfg :=
  { h with retries := h.retries.set i { t with phase } }

/-- The `try_send` of a retry, to the peer it found: one that was replaced since is closed. -/
def retrySend (incarnation : Nat) (msg : MediaMessage) (now : Nat) : Bool × MediaHub cfg :=
  match h.peers.lookup peer with
  | some p => if p.incarnation = incarnation then h.trySend peer msg now else (false, h)
  | none => (false, h)

/-- One section of `run_subscribe_retry`. -/
def runSubscribeRetry (i : Nat) (t : RetryTask) (shutdown : Bool) (now : Nat) :
    Option (MediaHub cfg) :=
  match t.phase with
  | .asleep =>
    some (h.setRetry i t
      (if shutdown || h.subGen t.peer t.key != t.generation then .done else .checkRef))
  | .checkRef =>
    some (h.setRetry i t (if h.outbound.has t.peer t.key then .checkWired else .done))
  | .checkWired =>
    some (h.setRetry i t (if h.outbound.isWired t.peer t.key then .done else .readEpoch))
  | .readEpoch => some (h.setRetry i t (.findPeer ((h.ownership.epochOf t.key).getD 0)))
  | .findPeer epoch =>
    match h.peers.lookup t.peer with
    | some p => some (h.setRetry i t (.build epoch p.incarnation))
    | none => some (h.setRetry i t .done)
  | .build epoch incarnation =>
    some (h.setRetry i t (.send incarnation epoch (h.subGen t.peer t.key)))
  | .send incarnation epoch generation =>
    let msg := .subscribe t.key.1 t.key.2 epoch generation
    let (sent, h) := h.retrySend t.peer incarnation msg now
    if sent then some (h.setRetry i t .markWired)
    else
      let h := h.setRetry i t .done
      some (if t.sendRetries > 0 then
        h.scheduleSubscribeRetry t.peer t.key t.generation (t.sendRetries - 1) else h)
  | .markWired => some ((h.setWired t.peer t.key true).setRetry i t .done)
  | .done => none

/-! ### Answers -/

/-- A message of an owner: one that answers a `Subscribe` starts its handling. -/
def receiveAnswer (msg : MediaMessage) : Option AnswerTask :=
  match msg with
  | .error code message generation =>
    if code = subscribeUnavailable ∨ code = subscribeDenied then
      (parseSubscribeDenied message).map fun key =>
        ⟨peer, key, generation, code = subscribeUnavailable, .checkRef⟩
    else none
  | _ => none

def setAnswer (a : AnswerTask) (phase : AnswerPhase) : MediaHub cfg :=
  { h with answering := some { a with phase } }

def endAnswer : MediaHub cfg := { h with answering := none }

/-- The `saturating_add` of the counters. -/
def spend (m : AList fun _ : PeerKey => Nat) (k : PeerKey) : Nat :=
  min ((m.lookup k).getD 0 + 1) 255

def handleAnswer (a : AnswerTask) : MediaHub cfg :=
  match a.phase with
  | .checkRef => if h.outbound.has a.peer a.key then h.setAnswer a .readGen else h.endAnswer
  | .readGen =>
    let generation := h.subGen a.peer a.key
    -- an answer of generation 0 is taken for one to whatever was sent last
    if a.generation ≠ 0 ∧ a.generation ≠ generation then h.endAnswer
    else h.setAnswer a (.unwire generation)
  | .unwire generation => (h.setWired a.peer a.key false).setAnswer a (.count generation)
  | .count generation =>
    if a.transient then
      if (h.transientSubRetries.lookup (a.peer, a.key)).getD 0 ≥ subscribeTransientMaxAttempts then
        h.endAnswer
      else
        { h with
          transientSubRetries := h.transientSubRetries.insert (a.peer, a.key)
            (spend h.transientSubRetries (a.peer, a.key)) }.setAnswer a (.arm generation 0)
    else
      let n := spend h.subscribeNacks (a.peer, a.key)
      { h with subscribeNacks := h.subscribeNacks.insert (a.peer, a.key) n }.setAnswer a
        (.arm generation n)
  | .arm generation n =>
    let (generation, h) := if generation = 0 then h.bumpSubGen a.peer a.key else (generation, h)
    if a.transient then (h.scheduleSubscribeRetry a.peer a.key generation 2).endAnswer
    else if n > subscribeNackMax then h.setAnswer a .clearRounds
    else (h.scheduleSubscribeRetry a.peer a.key generation subscribeNackSendRetries).endAnswer
  | .clearRounds =>
    { h with transientSubRetries := h.transientSubRetries.erase (a.peer, a.key) }.setAnswer a
      .clearNacks
  | .clearNacks =>
    { h with subscribeNacks := h.subscribeNacks.erase (a.peer, a.key) }.setAnswer a
      (.bump (h.subscribeNacks.lookup (a.peer, a.key)).isSome)
  | .bump again =>
    let (_, h) := h.bumpSubGen a.peer a.key
    if again then h.setAnswer a (.bump false) else h.endAnswer

/-! ### Steps -/

/-- A peer of the map changes; nothing happens without one, or when it cannot change so. -/
def updatePeer (f : MediaPeer cfg.queue → Option (MediaPeer cfg.queue)) : Option (MediaHub cfg) :=
  (h.peers.lookup peer).bind fun p => (f p).map fun p =>
    { h with peers := h.peers.insert peer p }

/-- The end of a connection as `ConnectEnd::Transient`: the hub is told to replay. `last` is what
the writer did to the queue before. -/
def connectionLost (last : PeerQueue cfg.queue → PeerQueue cfg.queue) : Option (MediaHub cfg) :=
  (h.updatePeer peer fun p =>
    match p.phase with
    | .running _ => some { p with queue := last p.queue, phase := .waiting }
    | _ => none).map fun h => { h with reconnects := h.reconnects ++ [peer] }

end MediaHub

/-- `heard`: media of a stream arrived. `send`: any other message for a peer. `writeFails`: the
message is popped and lost with the connection. -/
inductive HubOp where
  | subscribe (addr : String) (peer : UInt64) (key : StreamKey) (epoch : UInt64) (owner : String)
      (now : Nat)
  | unsubscribe (owner : String) (peer : UInt64) (key : StreamKey) (now : Nat)
  | unsubscribeAll (peer : UInt64) (key : StreamKey) (now : Nat)
  | connectPeer (peer : UInt64) (addr : String) (now : Nat)
  | resubscribe (now : Nat)
  | retry (i : Nat) (shutdown : Bool) (now : Nat)
  | answer
  | heard (peer : UInt64) (key : StreamKey)
  | ownership (t : OwnershipTracker)
  | inbound (t : SubscriptionTable)
  | send (peer : UInt64) (msg : MediaMessage) (now : Nat)
  | dial (peer : UInt64) (now : Nat)
  | connected (peer : UInt64)
  | dialFails (peer : UInt64)
  | versionRejected (peer : UInt64)
  | write (peer : UInt64) (now : Nat)
  | writeFails (peer : UInt64) (now : Nat)
  | connectionLost (peer : UInt64)
  | ownerReads (peer : UInt64)
  | owner (peer : UInt64) (op : SessionOp) (sent : Bool)

def MediaMessage.isSubscription : MediaMessage → Bool
  | .subscribe .. | .unsubscribe .. => true
  | _ => false

namespace MediaHub

variable {cfg : HubConfig} (h : MediaHub cfg)

def step : HubOp → Option (MediaHub cfg)
  | .subscribe addr peer key epoch owner now =>
    some (h.subscribeRemote peer key addr epoch owner now).2
  | .unsubscribe owner peer key now => some (h.unsubscribeRemote peer key owner now)
  | .unsubscribeAll peer key now => some (h.unsubscribeRemoteAll peer key now)
  | .connectPeer peer addr now => some (h.ensurePeer peer addr now)
  | .resubscribe now =>
    match h.reconnects with
    | [] => none
    | peer :: reconnects => some ({ h with reconnects }.resubscribePeer peer now)
  | .retry i shutdown now =>
    (h.retries[i]?).bind fun t => h.runSubscribeRetry i t shutdown now
  | .answer =>
    match h.answering with
    | some a => some (h.handleAnswer a)
    | none =>
      match h.answers with
      | [] => none
      | (peer, msg) :: answers => some { h with answers, answering := receiveAnswer peer msg }
  | .heard peer key => some (h.clearSubscribeNacks peer key)
  | .ownership ownership => some { h with ownership }
  | .inbound subs => some { h with subs }
  | .send peer msg now =>
    if msg.isSubscription then none else some (h.trySend peer msg now).2
  | .dial peer now =>
    h.updatePeer peer fun p =>
      match p.phase with
      | .waiting => some { p with
          queue := if p.first then p.queue else p.queue.onConnectionReset now
          first := false
          phase := .dialing }
      | _ => none
  | .connected peer =>
    h.updatePeer peer fun p =>
      match p.phase with
      | .dialing => some { p with
          phase := .running ⟨[], ⟨cfg.localId, .reading, ∅, false, false⟩, 0⟩ }
      | _ => none
  -- neither tells the hub: nothing was popped, so what is queued is still there
  | .dialFails peer | .versionRejected peer =>
    h.updatePeer peer fun p =>
      match p.phase with
      | .dialing => some { p with phase := .waiting }
      | _ => none
  | .write peer now =>
    h.updatePeer peer fun p =>
      match p.phase with
      | .running link =>
        let (msg, queue) := p.queue.pop now
        some { p with queue, phase := .running { link with wire := link.wire ++ msg.toList } }
      | _ => none
  | .writeFails peer now => h.connectionLost peer fun queue => (queue.pop now).2
  | .connectionLost peer => h.connectionLost peer id
  | .ownerReads peer =>
    h.updatePeer peer fun p =>
      match p.phase with
      | .running link => link.read.map fun link => { p with phase := .running link }
      | _ => none
  | .owner peer op sent =>
    match h.peers.lookup peer with
    | some p =>
      match p.phase with
      | .running link => (link.serve op).map fun (link, answer) =>
          { h with
            peers := h.peers.insert peer { p with phase := .running link }
            answers := if sent then h.answers ++ answer.toList.map (peer, ·) else h.answers }
      | _ => none
    | none => none

end MediaHub

end RtmpServer
