import RtmpServer.Lib.Replay
import RtmpServer.Media.FrameQueues
import RtmpServer.Media.HubState

/-!
# Injecting a remote owner's media

What `handle_inbound`, and the read loop of an inbound session in the same words, does with a
`MediaFrame` or an `InitCache`: the ownership fence, the staging of an init cache, the timestamp
mapping and the enqueue are sections of different locks. Several reader tasks run them at the same
time and `sync_from` replaces the owners between any two of them. `InjectState` has the frames
placed in the inject queue and those handed to local players as lists, oldest first.
-/

namespace RtmpServer

open List Lib.Replay Option Prod

/-- `accepted`: the fence let the message pass. `staged`: the init cache entry was put into the
store. `sending`: the frames still to be enqueued. -/
inductive ReaderPhase where
  | idle
  | accepted (peer : UInt64) (msg : MediaMessage)
  | staged (peer : UInt64) (key : StreamKey) (entry : InitCacheEntry)
  | sending (peer : UInt64) (frames : List MeshFrame)
  deriving DecidableEq

/-- `fence` is not in the source: the last epoch the tracker had for a stream. -/
structure InjectState where
  tracker : OwnershipTracker
  timelines : AList fun _ : StreamKey => TimelineRemapper
  cache : InitCacheStore
  inject : FrameQueue MeshFrame
  readers : List ReaderPhase
  fence : String → Option UInt64
  placed : List MeshFrame
  delivered : List MeshFrame

inductive InjectOp where
  /-- Reader `i` has a message of `peer` and asks the fence. -/
  | receive (i : Nat) (peer : UInt64) (msg : MediaMessage)
  /-- `cache.put` of an accepted init cache. -/
  | stage (i : Nat)
  /-- The section of the `timelines` lock. -/
  | remap (i : Nat)
  /-- One `try_send`. -/
  | send (i : Nat)
  | sync (owners : List StreamOwner)
  /-- The local side takes all queued frames. -/
  | drain
  deriving DecidableEq

namespace InjectState

def start (tracker : OwnershipTracker) (n : Nat) : InjectState where
  tracker := tracker
  timelines := ∅
  cache := ∅
  inject := .empty
  readers := List.replicate n .idle
  fence := fun sid => (tracker.get sid).map snd
  placed := []
  delivered := []

/-- Of the messages, the fence is asked for media frames and init caches. -/
def fenceAccepts (t : OwnershipTracker) (peer : UInt64) : MediaMessage → Bool
  | .mediaFrame _ stream epoch _ _ _ _ _ => t.acceptsOwner stream peer epoch
  | .initCache _ stream epoch _ _ _ _ => t.acceptsOwner stream peer epoch
  | _ => false

/-- The remapper of a stream, a new one when it has none. -/
def remapper (s : InjectState) (key : StreamKey) : TimelineRemapper :=
  (s.timelines.lookup key).getD .new

/-- The frames `inject_init_cache_live` enqueues, all with one timestamp. -/
def initFrames (key : StreamKey) (entry : InitCacheEntry) (ts : UInt32) : List MeshFrame :=
  let frame := fun (frameType : UInt8) (hint : DeliveryHint) (payload : List UInt8) =>
    (⟨key.1, key.2, entry.epoch, frameType, ts, hint, payload⟩ : MeshFrame)
  (entry.metadata.map (frame 2 .critical)).toList ++ (entry.avcHeader.map (frame 1 .critical)).toList ++
    (entry.aacHeader.map (frame 0 .critical)).toList ++
    (entry.keyframe.map fun kf => frame 1 .resyncPoint kf.2).toList

/-- The timestamp of the init frames: a stream that has output keeps its place, since mapping a
keyframe from behind would move every later frame. -/
def initTimestamp (r : TimelineRemapper) (entry : InitCacheEntry) : TimelineRemapper × UInt32 :=
  match entry.keyframe with
  | some (ts, _) => if r.lastOut = 0 then r.map entry.epoch ts else (r, r.lastOut)
  | none => (r, r.lastOut)

/-- The section of the `timelines` lock: the remapper moves on and the frames are ready to send. -/
def remap (s : InjectState) : ReaderPhase → Option (StreamKey × TimelineRemapper × ReaderPhase)
  | .accepted peer (.mediaFrame app stream epoch frameType _ timelineTs hint payload) =>
    let (r, ts) := (s.remapper (app, stream)).map epoch timelineTs
    some ((app, stream), r, .sending peer [⟨app, stream, epoch, frameType, ts, hint, payload⟩])
  | .staged peer key entry =>
    let (r, ts) := initTimestamp (s.remapper key) entry
    some (key, r, .sending peer (initFrames key entry ts))
  | _ => none

/-- Every entry `sync_from` changes gets an epoch the stream never had. -/
def advances (s : InjectState) (owners : List StreamOwner) : Bool :=
  owners.all fun o =>
    s.tracker.get o.streamId = some (o.ownerNodeId, o.epoch) ∨
      (s.fence o.streamId).all (fun e => decide (e < o.epoch)) = true

/-- One section of one task. Owner changes are those to larger epochs. -/
def step (maxBytes : Nat) (s : InjectState) : InjectOp → Option InjectState
  | .receive i peer msg =>
    if s.readers[i]? = some .idle then
      if fenceAccepts s.tracker peer msg then
        some { s with readers := s.readers.set i (.accepted peer msg) }
      else some s
    else none
  | .stage i =>
    match s.readers[i]? with
    | some (.accepted peer (.initCache app stream epoch metadata avcHeader aacHeader keyframe)) =>
      let entry : InitCacheEntry := ⟨metadata, avcHeader, aacHeader, keyframe, epoch⟩
      some { s with
        cache := s.cache.put (app, stream) entry
        readers := s.readers.set i (.staged peer (app, stream) entry) }
    | _ => none
  | .remap i => do
    let (key, r, phase) ← s.remap (← s.readers[i]?)
    return { s with timelines := s.timelines.insert key r, readers := s.readers.set i phase }
  | .send i =>
    match s.readers[i]? with
    | some (.sending peer (frame :: frames)) =>
      let (inject, sent) := s.inject.trySend maxBytes frame
      some { s with
        inject := inject
        placed := s.placed ++ if sent then [frame] else []
        readers := s.readers.set i (if frames = [] then .idle else .sending peer frames) }
    | some (.sending _ []) => some { s with readers := s.readers.set i .idle }
    | _ => none
  | .sync owners =>
    if s.advances owners then some { s with
      tracker := (s.tracker.syncFrom owners).1
      fence := fun sid => ((s.tracker.syncFrom owners).1.get sid).map snd <|> s.fence sid }
    else none
  | .drain => some { s with
      inject := s.inject.drain.1
      delivered := s.delivered ++ s.inject.drain.2 }

/-- A frame that is enqueued is one the fence still accepts from its sender. -/
def stillFenced (s : InjectState) : InjectOp → Bool
  | .send i =>
    match s.readers[i]? with
    | some (.sending peer (frame :: _)) => s.tracker.acceptsOwner frame.stream peer frame.epoch
    | _ => true
  | _ => true

/-- Of two frames of one stream the first has no larger epoch. -/
def InOrder (a b : MeshFrame) : Prop := a.stream = b.stream → a.epoch ≤ b.epoch

/-- `current`: what the tracker holds is the last epoch. `bounded`: nothing placed is beyond it.
`fifo`: what players got and what is queued was placed in this order. -/
structure Inv (s : InjectState) : Prop where
  current : ∀ sid node e, s.tracker.get sid = some (node, e) → s.fence sid = some e
  bounded : ∀ f ∈ s.placed, ∃ e, s.fence f.stream = some e ∧ f.epoch ≤ e
  sorted : s.placed.Pairwise InOrder
  fifo : (s.delivered ++ s.inject.frames).Sublist s.placed

variable {s s' : InjectState} {maxBytes : Nat}

theorem Inv.start (tracker : OwnershipTracker) (n : Nat) : (start tracker n).Inv := by
  refine ⟨fun sid node e h => ?_, nofun, .nil, .slnil⟩
  show (tracker.get sid).map snd = some e
  have h : tracker.get sid = some (node, e) := h
  rw [h, map_some]

theorem Inv.congr (h : s.Inv) (htracker : s'.tracker = s.tracker) (hfence : s'.fence = s.fence)
    (hinject : s'.inject = s.inject) (hplaced : s'.placed = s.placed)
    (hdelivered : s'.delivered = s.delivered) : s'.Inv := by
  obtain ⟨hcurrent, hbounded, hsorted, hfifo⟩ := h
  refine ⟨?_, ?_, ?_, ?_⟩
  · rwa [htracker, hfence]
  · rwa [hplaced, hfence]
  · rwa [hplaced]
  · rwa [hdelivered, hinject, hplaced]

theorem Inv.send (h : s.Inv) {peer : UInt64} {frame : MeshFrame} {readers : List ReaderPhase}
    (hfenced : s.tracker.acceptsOwner frame.stream peer frame.epoch) :
    Inv { s with
      inject := (s.inject.trySend maxBytes frame).1
      placed := s.placed ++ if (s.inject.trySend maxBytes frame).2 then [frame] else []
      readers := readers } := by
  have hlast : s.fence frame.stream = some frame.epoch :=
    h.current _ _ _ (of_decide_eq_true hfenced)
  have hnew : ∀ f ∈ (if (s.inject.trySend maxBytes frame).2 then [frame] else []), f = frame := by
    split_ifs
    · exact fun f hf => mem_singleton.1 hf
    · exact nofun
  refine ⟨h.current, fun f hf => ?_, ?_, ?_⟩
  · rcases mem_append.1 hf with hf | hf
    · exact h.bounded f hf
    · rw [hnew f hf]
      exact ⟨frame.epoch, hlast, UInt64.le_refl _⟩
  · refine pairwise_append.2 ⟨h.sorted, ?_, fun a ha b hb hstream => ?_⟩
    · split_ifs
      · exact pairwise_singleton _ _
      · exact .nil
    · rw [hnew b hb] at hstream ⊢
      obtain ⟨e, he, hle⟩ := h.bounded a ha
      rw [hstream, hlast, some.injEq] at he
      rwa [he]
  · have hsub := (s.inject.trySend_sublist maxBytes frame).append_left s.delivered
    rw [← append_assoc] at hsub
    exact hsub.trans (h.fifo.append (.refl _))

theorem Inv.sync (h : s.Inv) {owners : List StreamOwner} (hadv : s.advances owners) :
    Inv { s with
      tracker := (s.tracker.syncFrom owners).1
      fence := fun sid => ((s.tracker.syncFrom owners).1.get sid).map snd <|> s.fence sid } := by
  refine ⟨fun sid node e hget => ?_, fun f hf => ?_, h.sorted, h.fifo⟩
  · have hget : (s.tracker.syncFrom owners).1.get sid = some (node, e) := hget
    show (((s.tracker.syncFrom owners).1.get sid).map snd <|> s.fence sid) = some e
    rw [hget]
    rfl
  · obtain ⟨e, he, hle⟩ := h.bounded f hf
    show ∃ e', (((s.tracker.syncFrom owners).1.get f.stream).map snd <|> s.fence f.stream) =
      some e' ∧ f.epoch ≤ e'
    cases hget : (s.tracker.syncFrom owners).1.get f.stream with
    | none => exact ⟨e, he, hle⟩
    | some p =>
      refine ⟨p.2, rfl, ?_⟩
      obtain ⟨o, ho, hsid, rfl⟩ := OwnershipTracker.ofRows_lookup hget
      rcases of_decide_eq_true (all_eq_true.1 hadv o ho) with hsame | hless
      · -- the entry is the one the tracker has
        have hcur := h.current _ _ _ hsame
        rw [hsid, he, some.injEq] at hcur
        rwa [← hcur]
      · rw [hsid, he, all_some, decide_eq_true_eq] at hless
        exact UInt64.le_of_lt (UInt64.lt_of_le_of_lt hle hless)

theorem Inv.drain (h : s.Inv) :
    Inv { s with inject := s.inject.drain.1, delivered := s.delivered ++ s.inject.drain.2 } := by
  refine ⟨h.current, h.bounded, h.sorted, ?_⟩
  show ((s.delivered ++ s.inject.frames) ++ []).Sublist s.placed
  rw [append_nil]
  exact h.fifo

theorem Inv.step (h : s.Inv) {op : InjectOp} (hfenced : s.stillFenced op)
    (hstep : s.step maxBytes op = some s') : s'.Inv := by
  cases op with
  | receive i peer msg =>
    rw [InjectState.step] at hstep
    split_ifs at hstep
    · cases hstep
      exact h.congr rfl rfl rfl rfl rfl
    · cases hstep
      exact h
  | stage i =>
    rw [InjectState.step] at hstep
    split at hstep
    · cases hstep
      exact h.congr rfl rfl rfl rfl rfl
    · cases hstep
  | remap i =>
    rw [InjectState.step] at hstep
    obtain ⟨phase, -, hstep⟩ := bind_eq_some_iff.1 hstep
    obtain ⟨⟨key, r, phase'⟩, -, hstep⟩ := bind_eq_some_iff.1 hstep
    cases hstep
    exact h.congr rfl rfl rfl rfl rfl
  | send i =>
    rw [InjectState.step] at hstep
    rw [stillFenced] at hfenced
    split at hstep
    case h_1 peer frame frames hread =>
      rw [hread] at hfenced
      cases hstep
      exact h.send hfenced
    case h_2 =>
      cases hstep
      exact h.congr rfl rfl rfl rfl rfl
    case h_3 => cases hstep
  | sync owners =>
    rw [InjectState.step] at hstep
    split_ifs at hstep with hadv
    cases hstep
    exact h.sync hadv
  | drain =>
    cases hstep
    exact h.drain

end InjectState

open InjectState

/-- **Injected media does not go back in epoch.** As long as a frame is still accepted by the
ownership fence when it is enqueued, the frames of a stream are placed in the inject queue, and
handed to the local players, in the order of their epochs. -/
theorem inject_epochs_sorted (maxBytes n : Nat) (tracker : OwnershipTracker) (ops : List InjectOp)
    (s : InjectState) (hfenced : along (InjectState.step maxBytes) stillFenced ops (start tracker n) = true)
    (hrun : replay (InjectState.step maxBytes) (start tracker n) ops = some s) :
    s.placed.Pairwise InOrder ∧ s.delivered.Pairwise InOrder := by
  have hinv : s.Inv := replay_inv_along (P := Inv)
    (fun _ _ _ h hok hstep => h.step hok hstep) (Inv.start tracker n) hfenced hrun
  have hsub : s.delivered.Sublist s.placed :=
    (sublist_append_left _ _).trans hinv.fifo
  exact ⟨hinv.sorted, hinv.sorted.sublist hsub⟩

/-- Node 2 owns the stream `a` under epoch 5. -/
def firstOwner : OwnershipTracker := ⟨AList.singleton "a" (2, 5), 6⟩

def mediaOf (epoch : UInt64) : MediaMessage :=
  .mediaFrame "live" "a" epoch 1 0 0 .critical [0]

def takeOver : InjectOp := .sync [⟨"a", 3, 9, 0⟩]

/-- Node 2's frame is enqueued before the takeover. -/
def orderedOps : List InjectOp :=
  [.receive 0 2 (mediaOf 5), .remap 0, .send 0, takeOver, .receive 1 3 (mediaOf 9), .remap 1,
    .send 1, .drain]

theorem inject_epochs_sorted_handover :
    along (InjectState.step 1000) stillFenced orderedOps (start firstOwner 2) = true ∧
      ∃ s, replay (InjectState.step 1000) (start firstOwner 2) orderedOps = some s ∧
        s.delivered.Pairwise InOrder ∧ s.delivered.map (·.epoch) = [5, 9] :=
  ⟨by decide, _, rfl, (inject_epochs_sorted 1000 2 firstOwner orderedOps _ (by decide) rfl).2,
    by decide⟩

/-- Node 2's frame passes the fence, and is enqueued after the takeover and node 3's frame. -/
def overtakenOps : List InjectOp :=
  [.receive 0 2 (mediaOf 5), .remap 0, takeOver, .receive 1 3 (mediaOf 9), .remap 1, .send 1,
    .send 0, .drain]

/-- The players get the superseded owner's frame after the new owner's. -/
theorem stale_frame_placed :
    ∃ s, replay (InjectState.step 1000) (start firstOwner 2) overtakenOps = some s ∧
      ¬ s.placed.Pairwise InOrder ∧ s.delivered.map (·.epoch) = [9, 5] := by
  refine ⟨_, rfl, fun h => ?_, by decide⟩
  have hpair := pairwise_cons.1 h
  exact absurd (hpair.1 _ mem_cons_self rfl) (by decide)

end RtmpServer
