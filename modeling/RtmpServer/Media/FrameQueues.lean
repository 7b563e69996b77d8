import RtmpServer.Media.LiveQueue

/-!
# The inject and export queues

The byte-bounded queues between librtmp2 and the mesh. Both make room for a frame by the policy of
`evict_for_room`: the cheapest class that is queued anywhere goes first, and within it the oldest
frame of the stream that holds the most bytes. A frame larger than the whole queue is refused before
anything is evicted.
-/

namespace RtmpServer

/-- A queued frame as the eviction policy sees it. -/
class QueuedMedia (α : Type) where
  names : α → StreamKey
  hint : α → DeliveryHint
  size : α → Nat

/-- Frame exported from local librtmp2, and the frame from a remote peer ready for local inject. -/
structure MeshFrame where
  app : String
  stream : String
  epoch : UInt64
  frameType : UInt8
  timestamp : UInt32
  hint : DeliveryHint
  payload : List UInt8
  deriving DecidableEq, Repr

instance : QueuedMedia MeshFrame where
  names f := (f.app, f.stream)
  hint f := f.hint
  size f := f.payload.length + 64

structure EvictionCounters where
  droppable : UInt64
  resyncPoint : UInt64
  critical : UInt64
  oversized : UInt64
  deriving DecidableEq, Repr

def EvictionCounters.count (c : EvictionCounters) : DeliveryHint → EvictionCounters
  | .droppable => { c with droppable := c.droppable + 1 }
  | .resyncPoint => { c with resyncPoint := c.resyncPoint + 1 }
  | .critical => { c with critical := c.critical + 1 }

/-- The frames oldest first, and the sum of their sizes. -/
structure FrameQueue (α : Type) where
  frames : List α
  bytes : Nat
  counters : EvictionCounters

/-- What one stream has queued: frames of each class, and bytes. -/
structure StreamTotals where
  classes : DeliveryHint → Nat
  bytes : Nat

/-- What the eviction loop keeps beside the queue: the totals of one scan, updated frame by
frame. -/
structure EvictionScan where
  perStream : AList fun _ : StreamKey => StreamTotals
  classCount : DeliveryHint → Nat

def bump (f : Nat → Nat) (counts : DeliveryHint → Nat) (h : DeliveryHint) : DeliveryHint → Nat :=
  Function.update counts h (f (counts h))

namespace FrameQueue

variable {α : Type} [QueuedMedia α]

open QueuedMedia

def empty : FrameQueue α := ⟨[], 0, ⟨0, 0, 0, 0⟩⟩

def scan (frames : List α) : EvictionScan :=
  frames.foldl (fun s f =>
    let t := (s.perStream.lookup (names f)).getD ⟨fun _ => 0, 0⟩
    { perStream := s.perStream.insert (names f)
        ⟨bump (· + 1) t.classes (hint f), t.bytes + size f⟩
      classCount := bump (· + 1) s.classCount (hint f) }) ⟨∅, fun _ => 0⟩

def cheapestClass (s : EvictionScan) : Option DeliveryHint :=
  [DeliveryHint.droppable, .resyncPoint, .critical].find? fun c => 0 < s.classCount c

/-- The stream with the most bytes among those with a frame of the class; on a tie the smaller
name. -/
def heaviestOf (s : EvictionScan) (c : DeliveryHint) : Option StreamKey :=
  ((s.perStream.entries.filter fun e => 0 < e.2.classes c).foldl (fun best e =>
    match best with
    | none => some (e.2.bytes, e.1)
    | some b => if LiveQueue.heavier (e.2.bytes, e.1) b then some (e.2.bytes, e.1) else best)
    none).map Prod.snd

def EvictionScan.remove (s : EvictionScan) (key : StreamKey) (old : α) : EvictionScan where
  perStream :=
    match s.perStream.lookup key with
    | some t => s.perStream.insert key ⟨bump (· - 1) t.classes (hint old), t.bytes - size old⟩
    | none => s.perStream
  classCount := bump (· - 1) s.classCount (hint old)

/-- Every round that goes on takes a frame out, so the number of queued frames bounds the rounds;
without a frame the class counts are all 0 and the loop ends. -/
def evictLoop (maxBytes need : Nat) : Nat → FrameQueue α → EvictionScan → FrameQueue α × Bool
  | 0, q, _ => (q, q.bytes + need ≤ maxBytes)
  | n + 1, q, s =>
    if q.bytes + need ≤ maxBytes then (q, true)
    else
      match cheapestClass s with
      | none => (q, false)
      | some c =>
        match heaviestOf s c with
        | none => (q, false)
        | some key =>
          let oldest := fun f : α => names f = key ∧ hint f = c
          match q.frames.find? oldest with
          | none => (q, false)
          | some old =>
            evictLoop maxBytes need n
              ⟨q.frames.eraseP oldest, q.bytes - size old, q.counters.count (hint old)⟩
              (EvictionScan.remove s key old)

def evictForRoom (q : FrameQueue α) (need maxBytes : Nat) : FrameQueue α × Bool :=
  if need > maxBytes then (q, false)
  else evictLoop maxBytes need q.frames.length q (scan q.frames)

/-- `InjectQueue::try_send` and `ExportQueue::push`, and whether the frame was placed. -/
def trySend (q : FrameQueue α) (maxBytes : Nat) (frame : α) : FrameQueue α × Bool :=
  match q.evictForRoom (size frame) maxBytes with
  | (q, true) => ({ q with frames := q.frames ++ [frame], bytes := q.bytes + size frame }, true)
  | (q, false) => ({ q with counters := { q.counters with oversized := q.counters.oversized + 1 } }, false)

def drain (q : FrameQueue α) : FrameQueue α × List α := ({ q with frames := [], bytes := 0 }, q.frames)

theorem evictLoop_sublist (maxBytes need n : Nat) (q : FrameQueue α) (s : EvictionScan) :
    (evictLoop maxBytes need n q s).1.frames.Sublist q.frames := by
  induction n generalizing q s with
  | zero => exact .refl _
  | succ n ih =>
    rw [evictLoop]
    split_ifs
    · exact .refl _
    · split
      · exact .refl _
      · split
        · exact .refl _
        · dsimp only
          split
          · exact .refl _
          · exact (ih _ _).trans List.eraseP_sublist

theorem evictForRoom_sublist (q : FrameQueue α) (need maxBytes : Nat) :
    (q.evictForRoom need maxBytes).1.frames.Sublist q.frames := by
  unfold evictForRoom
  split_ifs
  · exact .refl _
  · exact evictLoop_sublist _ _ _ _ _

theorem trySend_sublist (q : FrameQueue α) (maxBytes : Nat) (frame : α) :
    (q.trySend maxBytes frame).1.frames.Sublist
      (q.frames ++ if (q.trySend maxBytes frame).2 then [frame] else []) := by
  have hsub := q.evictForRoom_sublist (size frame) maxBytes
  unfold trySend
  rcases heq : q.evictForRoom (size frame) maxBytes with ⟨q', fits⟩
  rw [heq] at hsub
  cases fits with
  | true =>
    rw [if_pos rfl]
    exact hsub.append (.refl _)
  | false =>
    rw [if_neg Bool.false_ne_true, List.append_nil]
    exact hsub

end FrameQueue

end RtmpServer
