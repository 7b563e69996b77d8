import RtmpServer.Lib.Trace
import RtmpServer.Media.MediaHub
import RtmpServer.Media.Reinit
import RtmpServer.Media.SessionCache

/-!
# Fanning out local frames

The export task hands every local frame to `fanout_local_frame`, which stages it for the init cache
and queues it for each subscribed peer, on the inbound session's sink or on the outbound connection.
A connection that lost a codec header wants the init cache first; the request is taken from the
queue, and marked again where it was not served. Every access to a queue is under its lock and the
accesses of one call are not together, so the call is a program of such accesses.
-/

namespace RtmpServer

open Lib.Program

/-! ### Connections -/

theorem PeerQueue.push_steps {cfg : LiveQueueConfig} (q : PeerQueue cfg) (msg : MediaMessage)
    (now : Nat) :
    LiveQueue.Pushing cfg q.queue ⟨0, msg, now⟩ (q.push msg now).1 (q.push msg now).2.queue := by
  obtain ⟨r, q', hpush, hpushing⟩ := LiveQueue.pushAt_steps q.ok.booked cfg ⟨0, msg, now⟩
  rw [PeerQueue.push]
  split
  · rename_i r₁ q₁ h
    rw [h] at hpush
    cases hpush
    exact hpushing
  · rename_i h
    exact absurd h (PeerQueue.pushAt_returns q.ok _)

theorem LiveQueue.announced_of_no_streams {q : LiveQueue} (hclean : q.reinitDirty = false)
    (hstreams : q.streams = ∅) : q.Announced := by
  refine ⟨hclean, fun k hk => ?_⟩
  obtain ⟨st, hst, -⟩ := LiveQueue.needsReinit_eq_true.1 hk
  rw [hstreams] at hst
  cases hst

/-- `InboundMediaSink` or `MediaPeer`: the `closed` flag and the queue, in which every request for the
init cache is announced. -/
structure MediaConn (cfg : LiveQueueConfig) where
  closed : Bool
  queue : PeerQueue cfg
  announced : queue.queue.Announced

namespace MediaConn

variable {cfg : LiveQueueConfig} (c : MediaConn cfg)

def new : MediaConn cfg := ⟨false, .new, LiveQueue.announced_of_no_streams rfl rfl⟩

def needsReinit (key : StreamKey) : Bool := c.queue.queue.needsReinit key

/-- `queue.push`, and whether the message was queued. -/
def push (msg : MediaMessage) (now : Nat) : Bool × MediaConn cfg :=
  (decide ((c.queue.push msg now).1 = .queued),
    ⟨c.closed, (c.queue.push msg now).2,
      (c.announced.pushing c.queue.ok.booked (c.queue.push_steps msg now) ("", "")).announced⟩)

/-- `queue.pop`; the message goes to the socket. -/
def pop (now : Nat) : MediaConn cfg :=
  ⟨c.closed, (c.queue.pop now).2,
    c.announced.same (c.queue.queue.popAt_steps cfg now).sameFlags⟩

def onConnectionReset (now : Nat) : MediaConn cfg :=
  ⟨c.closed, c.queue.onConnectionReset now,
    c.announced.same (c.queue.queue.sameFlags_onConnectionReset now)⟩

/-- `queue.close`. -/
def closeQueue : MediaConn cfg :=
  ⟨c.closed, ⟨c.queue.queue.close, .empty rfl rfl rfl⟩,
    LiveQueue.announced_of_no_streams c.announced.clean rfl⟩

def takeReinit (key : StreamKey) : Bool × MediaConn cfg :=
  ((c.queue.queue.takeReinit key).1,
    ⟨c.closed, ⟨(c.queue.queue.takeReinit key).2,
        c.queue.ok.maintenance (c.queue.queue.maintenance_takeReinit key)⟩,
      (c.announced.takeReinit key).2.1⟩)

def markReinit (key : StreamKey) : MediaConn cfg :=
  ⟨c.closed, ⟨c.queue.queue.markReinit key,
      c.queue.ok.maintenance (c.queue.queue.maintenance_markReinit key)⟩,
    (c.announced.markReinit key).1⟩

end MediaConn

/-! ### The hub -/

/-- The connections, told apart as `Arc`s are. -/
inductive MediaConnId where
  | sink (n : Nat)
  | peer (n : Nat)
  deriving DecidableEq, Repr

structure FanoutHub (cfg : LiveQueueConfig) where
  staging : Staging
  subs : SubscriptionTable
  inboundSinks : AList fun _ : UInt64 => Nat
  peers : AList fun _ : UInt64 => Nat
  conns : MediaConnId → MediaConn cfg

/-- The accesses to it. The first ones are those of `fanout_local_frame`; other tasks also pop, reset and
close connections and change the tables. -/
inductive FanoutAct where
  | stage (frame : MeshFrame)
  | inboundSinks
  | peers
  | subscribers (key : StreamKey)
  | isClosed (c : MediaConnId)
  | takeReinit (c : MediaConnId) (key : StreamKey)
  | initCacheMessage (key : StreamKey)
  | push (c : MediaConnId) (msg : MediaMessage)
  | markReinit (c : MediaConnId) (key : StreamKey)
  | pop (c : MediaConnId)
  | onConnectionReset (c : MediaConnId)
  | setClosed (c : MediaConnId)
  | closeQueue (c : MediaConnId)
  | setSubs (subs : SubscriptionTable)
  | setInboundSinks (sinks : AList fun _ : UInt64 => Nat)
  | setPeers (peers : AList fun _ : UInt64 => Nat)
  | evictInitCache (stream : String)

abbrev FanoutAct.Answer : FanoutAct → Type
  | .stage _ => UInt32
  | .inboundSinks | .peers => AList fun _ : UInt64 => Nat
  | .subscribers _ => List UInt64
  | .isClosed _ | .takeReinit _ _ | .push _ _ => Bool
  | .initCacheMessage _ => Option MediaMessage
  | _ => Unit

namespace FanoutHub

variable {cfg : LiveQueueConfig}

def setConn (h : FanoutHub cfg) (c : MediaConnId) (conn : MediaConn cfg) : FanoutHub cfg :=
  { h with conns := Function.update h.conns c conn }

/-- An access at the instant `now`. -/
def exec (classify : FrameClassifier) (a : FanoutAct) (now : Nat) (h : FanoutHub cfg) :
    FanoutHub cfg × a.Answer :=
  match a with
  | .stage frame => ({ h with staging := (h.staging.stage classify frame).1 },
      (h.staging.stage classify frame).2)
  | .inboundSinks => (h, h.inboundSinks)
  | .peers => (h, h.peers)
  | .subscribers key => (h, (h.subs.keys.filter fun k => k.2 = key).map Prod.fst)
  | .isClosed c => (h, (h.conns c).closed)
  | .takeReinit c key => (h.setConn c ((h.conns c).takeReinit key).2, ((h.conns c).takeReinit key).1)
  | .initCacheMessage key => (h, RtmpServer.initCacheMessage h.staging.cache key)
  | .push c msg => (h.setConn c ((h.conns c).push msg now).2, ((h.conns c).push msg now).1)
  | .markReinit c key => (h.setConn c ((h.conns c).markReinit key), ())
  | .pop c => (h.setConn c ((h.conns c).pop now), ())
  | .onConnectionReset c => (h.setConn c ((h.conns c).onConnectionReset now), ())
  | .setClosed c => (h.setConn c { h.conns c with closed := true }, ())
  | .closeQueue c => (h.setConn c (h.conns c).closeQueue, ())
  | .setSubs subs => ({ h with subs }, ())
  | .setInboundSinks inboundSinks => ({ h with inboundSinks }, ())
  | .setPeers peers => ({ h with peers }, ())
  | .evictInitCache stream =>
    ({ h with staging := { h.staging with cache := h.staging.cache.removeStream stream } }, ())

end FanoutHub

/-! ### `fanout_local_frame` -/

abbrev Fanout (α : Type) : Type := Prog FanoutAct FanoutAct.Answer α

abbrev FanoutTrace : Type := List (Performed FanoutAct FanoutAct.Answer)

namespace Fanout

/-- `filter(|c| !c.is_closed())`. -/
def filterOpen : Option MediaConnId → Fanout (Option MediaConnId)
  | none => pure none
  | some c => do
    let closed : Bool ← Prog.perform (FanoutAct.isClosed c)
    pure (if closed then none else some c)

/-- `map(|c| c.take_reinit(..)).unwrap_or(false)`. -/
def takeReinit (key : StreamKey) : Option MediaConnId → Fanout Bool
  | none => pure false
  | some c => Prog.perform (FanoutAct.takeReinit c key)

def markReinit (key : StreamKey) : Option MediaConnId → Fanout Unit
  | none => pure ()
  | some c => Prog.perform (FanoutAct.markReinit c key)

/-- `try_send`, and whether the message was queued. -/
def trySend (msg : MediaMessage) (c : MediaConnId) : Fanout Bool := do
  let closed : Bool ← Prog.perform (FanoutAct.isClosed c)
  if closed then pure false else Prog.perform (FanoutAct.push c msg)

/-- `reinit.then(|| self.init_cache_message(..)).flatten()`. -/
def initFor (key : StreamKey) : Bool → Fanout (Option MediaMessage)
  | true => Prog.perform (FanoutAct.initCacheMessage key)
  | false => pure none

/-- `init.as_ref().is_none_or(|i| try_send(i.clone()))`. -/
def sendInit (c : MediaConnId) : Option MediaMessage → Fanout Bool
  | none => pure true
  | some i => trySend i c

def send (init : Option MediaMessage) (msg : MediaMessage) (c : MediaConnId) : Fanout Bool := do
  let ready : Bool ← sendInit c init
  if ready then trySend msg c else pure false

/-- `send` on a connection that need not be there. -/
def sendTo (init : Option MediaMessage) (msg : MediaMessage) : Option MediaConnId → Fanout Bool
  | none => pure false
  | some c => send init msg c

def deliver (key : StreamKey) (msg : MediaMessage) (sink peer : Option MediaConnId)
    (sinkReinit peerReinit : Bool) : Fanout Unit := do
  let reinit := sinkReinit || peerReinit
  let init : Option MediaMessage ← initFor key reinit
  let onSink : Bool ← sendTo init msg sink
  if onSink then
    if reinit && peerReinit && init.isSome then markReinit key peer else pure ()
  else
    let onPeer : Bool ← sendTo init msg peer
    if onPeer then
      if reinit && sinkReinit && init.isSome then markReinit key sink else pure ()
    else if reinit then
      markReinit key sink
      markReinit key peer
    else pure ()

/-- What is done for one subscribed peer, with its connections of the two maps. -/
def toPeer (key : StreamKey) (hint : DeliveryHint) (msg : MediaMessage)
    (sink peer : Option MediaConnId) : Fanout Unit := do
  let sink ← filterOpen sink
  let peer ← filterOpen peer
  if hint = .resyncPoint then
    let sinkReinit ← takeReinit key sink
    let peerReinit ← takeReinit key peer
    deliver key msg sink peer sinkReinit peerReinit
  else deliver key msg sink peer false false

def frameMessage (frame : MeshFrame) (timelineTs : UInt32) : MediaMessage :=
  .mediaFrame frame.app frame.stream frame.epoch frame.frameType frame.timestamp timelineTs frame.hint
    frame.payload

/-- The loop over the subscribers, over copies of the maps. -/
def toSubscribers (frame : MeshFrame) (msg : MediaMessage) : Fanout Unit := do
  let sinks : AList (fun _ : UInt64 => Nat) ← Prog.perform FanoutAct.inboundSinks
  let peers : AList (fun _ : UInt64 => Nat) ← Prog.perform FanoutAct.peers
  let subscribers : List UInt64 ← Prog.perform (FanoutAct.subscribers (frame.app, frame.stream))
  subscribers.forM fun peer =>
    toPeer (frame.app, frame.stream) frame.hint msg ((sinks.lookup peer).map MediaConnId.sink)
      ((peers.lookup peer).map MediaConnId.peer)

def fanoutLocalFrame (frame : MeshFrame) : Fanout Unit := do
  let timelineTs : UInt32 ← Prog.perform (FanoutAct.stage frame)
  toSubscribers frame (frameMessage frame timelineTs)

def exportFrames (frames : List MeshFrame) : Fanout Unit := frames.forM fanoutLocalFrame

end Fanout

end RtmpServer
