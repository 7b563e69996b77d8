import Mathlib.Data.List.AList
import RtmpServer.Db.Schema
import RtmpServer.Media.Protocol

/-!
# What the hub knows of a stream

The small pieces of state behind `MediaHub`, each under its own lock: who owns a stream and under
which epoch (`OwnershipTracker`), how its timestamps are mapped (`TimelineRemapper`) and the headers
staged for late joiners (`InitCacheStore`).
-/

namespace RtmpServer

/-! ### Ownership -/

/-- `stream_id -> (node_id, epoch)` and the source of new epochs. -/
structure OwnershipTracker where
  owners : AList fun _ : String => UInt64 × UInt64
  nextEpoch : UInt64

namespace OwnershipTracker

/-- `fetch_max(epoch.saturating_add(1))`. -/
def advancePast (t : OwnershipTracker) (epoch : UInt64) : OwnershipTracker :=
  { t with nextEpoch := max t.nextEpoch (if epoch = 0xFFFFFFFFFFFFFFFF then epoch else epoch + 1) }

def get (t : OwnershipTracker) (streamId : String) : Option (UInt64 × UInt64) :=
  t.owners.lookup streamId

/-- `epoch_of`: ownership is keyed by the stream alone. -/
def epochOf (t : OwnershipTracker) (key : StreamKey) : Option UInt64 := (t.get key.2).map Prod.snd

def set (t : OwnershipTracker) (streamId : String) (node epoch : UInt64) : OwnershipTracker :=
  { t with owners := t.owners.insert streamId (node, epoch) }.advancePast epoch

/-- `clear_if_epoch`: only an entry that still records the epoch. -/
def clearIfEpoch (t : OwnershipTracker) (streamId : String) (epoch : UInt64) :
    OwnershipTracker × Bool :=
  if (t.get streamId).map Prod.snd = some epoch then
    ({ t with owners := t.owners.erase streamId }, true)
  else (t, false)

/-- The map `sync_from` builds from the rows. -/
def ofRows (owners : List StreamOwner) : AList fun _ : String => UInt64 × UInt64 :=
  owners.foldl (fun m o => m.insert o.streamId (o.ownerNodeId, o.epoch)) ∅

theorem ofRows_lookup {owners : List StreamOwner} {sid : String} {p : UInt64 × UInt64}
    (h : (ofRows owners).lookup sid = some p) :
    ∃ o ∈ owners, o.streamId = sid ∧ p = (o.ownerNodeId, o.epoch) := by
  suffices hgen : ∀ (m : AList fun _ : String => UInt64 × UInt64),
      (owners.foldl (fun m o => m.insert o.streamId (o.ownerNodeId, o.epoch)) m).lookup sid = some p →
        m.lookup sid = some p ∨ ∃ o ∈ owners, o.streamId = sid ∧ p = (o.ownerNodeId, o.epoch) by
    rcases hgen ∅ h with h | h
    · cases h
    · exact h
  clear h
  induction owners with
  | nil => exact fun m h => .inl h
  | cons o owners ih =>
    intro m h
    rcases ih _ h with h | ⟨o', ho', heq⟩
    · by_cases hsid : sid = o.streamId
      · rw [hsid, AList.lookup_insert, Option.some.injEq] at h
        exact .inr ⟨o, List.mem_cons_self, hsid.symm, h.symm⟩
      · rw [AList.lookup_insert_ne hsid] at h
        exact .inl h
    · exact .inr ⟨o', List.mem_cons_of_mem _ ho', heq⟩

/-- `sync_from`, with the streams whose owner changed and the owner before. -/
def syncFrom (t : OwnershipTracker) (owners : List StreamOwner) :
    OwnershipTracker × List (String × Option (UInt64 × UInt64)) :=
  let next := ofRows owners
  let changed := (next.keys.filter fun sid => t.get sid != next.lookup sid) ++
    t.owners.keys.filter fun sid => (next.lookup sid).isNone
  let t' := { t with owners := next }
  (t'.advancePast (owners.foldl (fun m o => max m o.epoch) 0), changed.map fun sid => (sid, t.get sid))

def hydrateFrom (t : OwnershipTracker) (owners : List StreamOwner) : OwnershipTracker :=
  let t' := { t with owners := ofRows owners }
  t'.advancePast (owners.foldl (fun m o => max m o.epoch) 0)

/-- `accepts_owner`: only the recorded owner, at its epoch. -/
def acceptsOwner (t : OwnershipTracker) (streamId : String) (node epoch : UInt64) : Bool :=
  t.get streamId = some (node, epoch)

end OwnershipTracker

/-! ### Timelines -/

/-- Arithmetic is that of `u32` and wraps around. -/
structure TimelineRemapper where
  offset : UInt32
  lastOut : UInt32
  currentEpoch : Option UInt64
  prevEpochLastIn : UInt32
  deriving DecidableEq, Repr

namespace TimelineRemapper

/-- `default`. -/
def new : TimelineRemapper := ⟨0, 0, none, 0⟩

/-- The offset of a new epoch continues after the last output, or is 0 for the first one. -/
def enterEpoch (r : TimelineRemapper) (epoch : UInt64) (tsIn : UInt32) : TimelineRemapper :=
  if r.currentEpoch ≠ some epoch then
    { r with
      offset := if r.currentEpoch.isSome then r.lastOut + 1 - tsIn else 0
      currentEpoch := some epoch
      prevEpochLastIn := tsIn }
  else { r with prevEpochLastIn := tsIn }

/-- `map`: the state after it and the output. An output below the last one, as after an encoder
reset, anchors the offset anew. -/
def map (r : TimelineRemapper) (epoch : UInt64) (tsIn : UInt32) : TimelineRemapper × UInt32 :=
  let r := r.enterEpoch epoch tsIn
  let out := tsIn + r.offset
  if r.currentEpoch.isSome ∧ out < r.lastOut then
    let offset := r.lastOut + 1 - tsIn
    ({ r with offset, lastOut := tsIn + offset }, tsIn + offset)
  else ({ r with lastOut := out }, out)

end TimelineRemapper

/-! ### Init cache -/

structure InitCacheEntry where
  metadata : Option (List UInt8)
  avcHeader : Option (List UInt8)
  aacHeader : Option (List UInt8)
  keyframe : Option (UInt32 × List UInt8)
  epoch : UInt64
  deriving DecidableEq, Repr

abbrev InitCacheStore := AList fun _ : StreamKey => InitCacheEntry

/-- `put` (`put_if_epoch_ge`): an entry of an older epoch does not replace the staged one. -/
def InitCacheStore.put (c : InitCacheStore) (key : StreamKey) (entry : InitCacheEntry) :
    InitCacheStore :=
  if (c.lookup key).any fun existing => decide (entry.epoch < existing.epoch) then c
  else c.insert key entry

end RtmpServer
