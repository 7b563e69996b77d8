import RtmpServer.Cluster.Ownership
import RtmpServer.Cluster.StorageErrors

/-!
# Releasing every row of a node

When a node is removed, rejoins or stays down, `release_owners_for_node_with_fence` releases its
owner rows up to a fence: the highest epoch the local table has for the node. The local table may
lag, so the call follows up with a repair release just below the index its first release was applied
at. A call that fails queues the fence it got to, and every health tick retries the queued fences
with the plain fenced release, without a repair pass.

A run is over one fixed committed log and one released node, and interleaves commits, local applies,
any number of calls and the retries. A write is answered when its entry is committed after the write
was dispatched; a write that failed leaves nothing here, and its entry may still turn up anywhere in
the log.
-/

namespace RtmpServer

open List Lib.Replay

/-! ### Calls -/

/-- What a call reads before its first release: the owner table, nothing when it is unreadable, and
the length of the local Raft log. -/
structure OwnersView where
  owners : Option (List StreamOwner)
  lastLogIndex : UInt64

def releaseFence (nodeId : UInt64) (view : OwnersView) : UInt64 :=
  match view.owners with
  | some owners => ((owners.filter (·.ownerNodeId = nodeId)).map (·.epoch)).foldr max 0
  | none => view.lastLogIndex

/-- Who called. A call for a node that is down is repeated by the next tick and queues nothing. -/
inductive CallKind where
  | removePeer
  | rejoin
  | down
  deriving DecidableEq, Repr

def CallKind.queues : CallKind → Bool
  | .removePeer | .rejoin => true
  | .down => false

/-- How far a call of `release_owners_for_node_with_fence` got, and how much of the log was
committed when the write it waits for was dispatched. -/
inductive CallPhase where
  | reading
  | releasing (view : OwnersView) (since : Nat)
  | repairing (fence : UInt64) (since : Nat)
  | succeeded
  | failed (fence : UInt64)

structure ReleaseCall where
  kind : CallKind
  start : Nat
  phase : CallPhase

/-- How far the log is committed and applied, the calls, the fences of the released node in
`pending_node_cleanups`, those the running tick still has to retry, and the retry it waits for. -/
structure CleanupState where
  committed : Nat
  applied : Nat
  calls : List ReleaseCall
  pending : List UInt64
  retrying : List UInt64
  attempt : Option (UInt64 × Nat)

def CleanupState.start : CleanupState := ⟨0, 0, [], [], [], none⟩

/-- The caller's part after an answer: an entry for the node is no longer needed. -/
def CleanupState.succeed (s : CleanupState) (i : Nat) (c : ReleaseCall) : CleanupState :=
  { s with
    calls := s.calls.set i { c with phase := .succeeded }
    pending := if c.kind.queues then [] else s.pending }

/-- The caller's part after an error: the fence is queued. -/
def CleanupState.fail (s : CleanupState) (i : Nat) (c : ReleaseCall) (fence : UInt64) :
    CleanupState :=
  { s with
    calls := s.calls.set i { c with phase := .failed fence }
    pending := if c.kind.queues then s.pending.insert fence else s.pending }

theorem CleanupState.mem_pending_succeed {s : CleanupState} {i : Nat} {c : ReleaseCall}
    {fence : UInt64} :
    fence ∈ (s.succeed i c).pending ↔ ¬ c.kind.queues ∧ fence ∈ s.pending := by
  unfold CleanupState.succeed
  split_ifs with h <;> simp [h]

theorem CleanupState.mem_pending_fail {s : CleanupState} {i : Nat} {c : ReleaseCall}
    {fence f : UInt64} :
    f ∈ (s.fail i c fence).pending ↔ f ∈ s.pending ∨ c.kind.queues ∧ f = fence := by
  unfold CleanupState.fail
  split_ifs with h <;> simp [h, or_comm]

def CleanupState.Finished (s : CleanupState) (c : ReleaseCall) : Prop :=
  c.phase = .succeeded ∨ c.kind.queues = true ∧ (∃ fence, c.phase = .failed fence) ∧ s.pending = []

/-- A call's first release fails, and fences leave the queue on the answer of a release that `index`
entries precede. -/
inductive CleanupEvent where
  | firstFailed (start : Nat) (view : OwnersView)
  | dropped (index : Nat) (fences : List UInt64)

/-! ### Runs -/

section Runs

variable (log : RaftLog) (node : UInt64)

/-- The entry after the first `k` ones releases the node up to the fence. -/
def RaftLog.ReleasesNode (fence : UInt64) (k : Nat) : Prop :=
  ∃ e, log.entries[k]? = some e ∧ e.payload = .normal (.releaseOwnersForNode node fence)

/-- A release dispatched at `since` is answered with the index it was applied at. -/
def Answered (s : CleanupState) (fence : UInt64) (since : Nat) (applied : UInt64) : Prop :=
  ∃ k db e, since ≤ k ∧ k < s.committed ∧ log.stateAt k = some db ∧ log.entries[k]? = some e ∧
    e.payload = .normal (.releaseOwnersForNode node fence) ∧
    (applyEntry db e).response = .released applied

structure Views (s : CleanupState) (view : OwnersView) : Prop where
  owners : view.owners = (log.stateAt s.applied).map Db.streamOwnerList ∨ view.owners = none
  lastLogIndex : s.applied ≤ view.lastLogIndex.toNat

/-- One step of the releasing node or of its surroundings. `D` says which events may happen. -/
inductive CleanupStep (D : CleanupEvent → CleanupState → Prop) (s : CleanupState) :
    CleanupState → Prop
  | commit (e : Entry) (he : log.entries[s.committed]? = some e) :
    CleanupStep D s { s with committed := s.committed + 1 }
  | apply (h : s.applied < s.committed) (hs : (log.stateAt (s.applied + 1)).isSome = true) :
    CleanupStep D s { s with applied := s.applied + 1 }
  | call (kind : CallKind) :
    CleanupStep D s { s with calls := s.calls ++ [⟨kind, s.committed, .reading⟩] }
  | read (i : Nat) (c : ReleaseCall) (hi : s.calls[i]? = some c) (hc : c.phase = .reading)
      (view : OwnersView) (hview : Views log s view) :
    CleanupStep D s
      { s with calls := s.calls.set i { c with phase := .releasing view s.committed } }
  | released (i : Nat) (c : ReleaseCall) (hi : s.calls[i]? = some c) (view : OwnersView)
      (since : Nat) (hc : c.phase = .releasing view since) (applied : UInt64)
      (ha : Answered log node s (releaseFence node view) since applied)
      (hrepair : 1 < applied) :
    CleanupStep D s
      { s with calls := s.calls.set i { c with phase := .repairing (applied - 1) s.committed } }
  | releaseFailed (i : Nat) (c : ReleaseCall) (hi : s.calls[i]? = some c) (view : OwnersView)
      (since : Nat) (hc : c.phase = .releasing view since)
      (hD : c.kind.queues = true → D (.firstFailed c.start view) s) :
    CleanupStep D s (s.fail i c (releaseFence node view))
  /-- The first entry of the log has nothing to release, and there is no repair pass after it. -/
  | releasedFirst (i : Nat) (c : ReleaseCall) (hi : s.calls[i]? = some c) (view : OwnersView)
      (since : Nat) (hc : c.phase = .releasing view since) (applied : UInt64)
      (ha : Answered log node s (releaseFence node view) since applied)
      (hfirst : ¬ 1 < applied) (hD : c.kind.queues = true → D (.dropped 0 s.pending) s) :
    CleanupStep D s (s.succeed i c)
  | repaired (i : Nat) (c : ReleaseCall) (hi : s.calls[i]? = some c) (fence : UInt64)
      (since : Nat) (hc : c.phase = .repairing fence since) (applied : UInt64)
      (ha : Answered log node s fence since applied)
      (hD : c.kind.queues = true → D (.dropped fence.toNat s.pending) s) :
    CleanupStep D s (s.succeed i c)
  | repairFailed (i : Nat) (c : ReleaseCall) (hi : s.calls[i]? = some c) (fence : UInt64)
      (since : Nat) (hc : c.phase = .repairing fence since) :
    CleanupStep D s (s.fail i c fence)
  | tick (hr : s.retrying = []) (ha : s.attempt = none) :
    CleanupStep D s { s with retrying := s.pending }
  | retry (fence : UInt64) (rest : List UInt64) (hr : s.retrying = fence :: rest)
      (ha : s.attempt = none) :
    CleanupStep D s { s with retrying := rest, attempt := some (fence, s.committed) }
  | retryFailed (fence : UInt64) (since : Nat) (ha : s.attempt = some (fence, since)) :
    CleanupStep D s { s with attempt := none }
  | retried (fence : UInt64) (since : Nat) (ha : s.attempt = some (fence, since)) (applied : UInt64)
      (hw : Answered log node s fence since applied)
      (hD : D (.dropped (applied.toNat - 1) [fence]) s) :
    CleanupStep D s { s with attempt := none, pending := s.pending.filter (· ≠ fence) }

abbrev CleanupRun (D : CleanupEvent → CleanupState → Prop) (s : CleanupState) : Prop :=
  Relation.ReflTransGen (CleanupStep log node D) .start s

/-! ### What a cleanup guarantees -/

/-- Among the first `committed` entries' rows of the node none was granted up to `start`. -/
def Clean (start committed : Nat) : Prop :=
  ∀ o, log.HasOwner committed o → o.ownerNodeId = node → start < o.epoch.toNat

/-- Every finished cleanup is complete, and no release of the node removes another node's row, one
beyond its fence, or one granted after the last of them. -/
structure CleanupSound (s : CleanupState) : Prop where
  complete : ∀ c ∈ s.calls, s.Finished c → Clean log node c.start s.committed
  fenced : ∀ last, (∀ k fence, k < s.committed → log.ReleasesNode node fence k → k < last) →
    ∀ k fence, k < s.committed → log.ReleasesNode node fence k →
      ∀ o, log.HasOwner k o → ¬ log.HasOwner (k + 1) o →
        o.ownerNodeId = node ∧ o.epoch ≤ fence ∧ o.epoch.toNat < last

/-- For every row the node has after the first `start` entries the view has one of the node that is
at least as new; an unreadable table leaves it to the local Raft log. -/
def OwnersView.Covers (view : OwnersView) (start : Nat) : Prop :=
  ∀ o, log.HasOwner start o → o.ownerNodeId = node →
    match view.owners with
    | some owners => ∃ r ∈ owners, r.ownerNodeId = node ∧ o.epoch ≤ r.epoch
    | none => o.epoch ≤ view.lastLogIndex

/-- A first release only fails where the local view was good enough, and a fence only leaves the
queue on the answer of a release that is newer than the calls that queued it. -/
def CleanupCond (event : CleanupEvent) (s : CleanupState) : Prop :=
  match event with
  | .firstFailed start view => view.Covers log node start
  | .dropped index fences => ∀ c ∈ s.calls, c.kind.queues = true →
      ∀ fence ∈ fences, c.phase = .failed fence → c.start ≤ index

/-! ### Releases -/

variable {log} {node}

theorem RaftLog.ReleasesNode.lt_epoch {fence : UInt64} {k m : Nat} {o : StreamOwner}
    (h : log.ReleasesNode node fence k) (hk : k < m) (ho : log.HasOwner m o)
    (hn : o.ownerNodeId = node) (hle : o.epoch.toNat ≤ k + 1) : fence < o.epoch := by
  obtain ⟨e, he, hp⟩ := h
  obtain ⟨db', hs', hmem⟩ := ho.of_le hle hk
  rw [RaftLog.stateAt, stateAt_succ he, Option.bind_eq_some_iff] at hs'
  obtain ⟨db, hs, hstep⟩ := hs'
  obtain ⟨-, rfl⟩ := step_eq_some.1 hstep
  rw [applyEntry_releaseNode hs hp, mem_filter, decide_eq_true_iff] at hmem
  exact UInt64.not_le.1 fun hle => hmem.2 ⟨hn, hle⟩

theorem applyEntry_released {db : Db} {e : Entry} {n fence : UInt64}
    (hp : e.payload = .normal (.releaseOwnersForNode n fence)) :
    (applyEntry db e).response = .released (max e.logId.index 1) := by
  unfold applyEntry
  rw [hp]
  rfl

theorem RaftLog.ReleasesNode.removed {fence : UInt64} {k : Nat} {o : StreamOwner}
    (h : log.ReleasesNode node fence k) (ho : log.HasOwner k o) (hno : ¬ log.HasOwner (k + 1) o) :
    o.ownerNodeId = node ∧ o.epoch ≤ fence := by
  obtain ⟨e, he, hp⟩ := h
  obtain ⟨db, hs, hmem⟩ := ho
  by_contra hkeep
  refine hno ⟨(applyEntry db e).db, ?_, ?_⟩
  · rw [RaftLog.stateAt, stateAt_succ he, Option.bind_eq_some_iff]
    refine ⟨db, hs, step_eq_some.2 ⟨?_, rfl⟩⟩
    rw [applyEntry_released hp]
    rfl
  · rw [applyEntry_releaseNode hs hp, mem_filter, decide_eq_true_iff]
    exact ⟨hmem, hkeep⟩

theorem Answered.release {s : CleanupState} {fence applied : UInt64} {since : Nat}
    (h : Answered log node s fence since applied) :
    ∃ k, since ≤ k ∧ k < s.committed ∧ log.ReleasesNode node fence k ∧ applied.toNat = k + 1 := by
  obtain ⟨k, db, e, hsince, hk, -, he, hp, hresp⟩ := h
  obtain ⟨hmax, hidx, -⟩ := entry_index he
  rw [applyEntry_released hp, hmax, ClusterResponse.released.injEq] at hresp
  exact ⟨k, hsince, hk, ⟨e, he, hp⟩, hresp ▸ hidx⟩

theorem Clean.mono {start m m' : Nat} (h : Clean log node start m) (hs : start ≤ m)
    (hm : m ≤ m') : Clean log node start m' := by
  intro o ho hn
  by_contra hle
  exact hle (h o (ho.of_le (by omega) hm) hn)

theorem Clean.of_release {fence : UInt64} {k start m : Nat} (h : log.ReleasesNode node fence k)
    (hk : k < m) (hstart : start ≤ k + 1)
    (hfence : ∀ o, log.HasOwner m o → o.ownerNodeId = node → o.epoch.toNat ≤ start →
      o.epoch ≤ fence) : Clean log node start m := by
  intro o ho hn
  by_contra hle
  exact UInt64.not_le.2 (h.lt_epoch hk ho hn (by omega)) (hfence o ho hn (by omega))

theorem Clean.zero (m : Nat) : Clean log node 0 m := by
  intro o ho hn
  obtain ⟨k, -, -, -, hk, -⟩ := ho.lastGrant.grant
  omega

theorem le_foldr_max {epochs : List UInt64} {x : UInt64} (h : x ∈ epochs) :
    x ≤ epochs.foldr max 0 := by
  induction epochs with
  | nil => cases h
  | cons y ys ih =>
    show x ≤ if y ≤ ys.foldr max 0 then ys.foldr max 0 else y
    rcases mem_cons.1 h with rfl | h
    · split_ifs with hle
      · exact hle
      · exact UInt64.le_refl x
    · split_ifs with hle
      · exact ih h
      · exact UInt64.le_trans (ih h) (UInt64.le_of_lt (UInt64.not_le.1 hle))

theorem OwnersView.Covers.le_fence {view : OwnersView} {start : Nat}
    (h : view.Covers log node start) {o : StreamOwner} (ho : log.HasOwner start o)
    (hn : o.ownerNodeId = node) : o.epoch ≤ releaseFence node view := by
  have hcover := h o ho hn
  unfold releaseFence
  split at hcover
  · next owners _ =>
    obtain ⟨r, hr, hnode, hle⟩ := hcover
    refine UInt64.le_trans hle (le_foldr_max (mem_map_of_mem (mem_filter.2 ⟨hr, ?_⟩)))
    exact decide_eq_true hnode
  · exact hcover

/-! ### The invariant -/

variable (log node) in
/-- What a call has secured in each phase. A queued fence bounds the rows the call is after, and is
in the queue until they are gone. -/
def CallOk (committed : Nat) (pending : List UInt64) (c : ReleaseCall) : Prop :=
  c.start ≤ committed ∧
  match c.phase with
  | .reading => True
  | .releasing _ since => c.start ≤ since
  | .repairing fence since => c.start ≤ fence.toNat ∧ fence.toNat ≤ since
  | .succeeded => Clean log node c.start committed
  | .failed fence => c.kind.queues = true →
      (∀ o, log.HasOwner c.start o → o.ownerNodeId = node → o.epoch ≤ fence) ∧
        (fence ∈ pending ∨ Clean log node c.start committed)

theorem CallOk.mono {m m' : Nat} {pending pending' : List UInt64} {c : ReleaseCall}
    (h : CallOk log node m pending c) (hm : m ≤ m')
    (hp : ∀ fence ∈ pending, c.phase = .failed fence → c.kind.queues →
      fence ∈ pending' ∨ Clean log node c.start m') : CallOk log node m' pending' c := by
  obtain ⟨kind, start, phase⟩ := c
  obtain ⟨hstart, hphase⟩ := h
  refine ⟨hstart.trans hm, ?_⟩
  cases phase with
  | reading => trivial
  | releasing view since => exact hphase
  | repairing fence since => exact hphase
  | succeeded => exact Clean.mono hphase hstart hm
  | failed fence =>
    intro hq
    obtain ⟨hcover, hpend | hclean⟩ := hphase hq
    · exact ⟨hcover, hp fence hpend rfl hq⟩
    · exact ⟨hcover, .inr (hclean.mono hstart hm)⟩

variable (log node) in
def CleanupInv (s : CleanupState) : Prop :=
  ∀ c ∈ s.calls, CallOk log node s.committed s.pending c

namespace CleanupInv

variable {s : CleanupState} {i : Nat} {c : ReleaseCall}

theorem get (h : CleanupInv log node s) (hi : s.calls[i]? = some c) :
    CallOk log node s.committed s.pending c :=
  h c (mem_of_getElem? hi)

theorem set {calls : List ReleaseCall} {m : Nat} {pending : List UInt64} {d : ReleaseCall}
    (h : ∀ c ∈ calls, CallOk log node m pending c) (hd : CallOk log node m pending d) :
    ∀ c ∈ calls.set i d, CallOk log node m pending c := by
  intro c hc
  rcases mem_or_eq_of_mem_set hc with hc | rfl
  · exact h c hc
  · exact hd

section

variable (h : CleanupInv log node s)
include h

theorem succeed (hi : s.calls[i]? = some c) (hclean : Clean log node c.start s.committed)
    (hothers : c.kind.queues → ∀ d ∈ s.calls, d.kind.queues →
      ∀ fence ∈ s.pending, d.phase = .failed fence → Clean log node d.start s.committed) :
    CleanupInv log node (s.succeed i c) := by
  refine set (fun d hd => (h d hd).mono le_rfl fun fence hf hphase hq => ?_)
    ⟨(h.get hi).1, hclean⟩
  rw [CleanupState.mem_pending_succeed]
  by_cases hk : c.kind.queues = true
  · exact .inr (hothers hk d hd hq fence hf hphase)
  · exact .inl ⟨hk, hf⟩

theorem fail (hi : s.calls[i]? = some c) {fence : UInt64}
    (hcover : c.kind.queues →
      ∀ o, log.HasOwner c.start o → o.ownerNodeId = node → o.epoch ≤ fence) :
    CleanupInv log node (s.fail i c fence) := by
  refine set (fun d hd => (h d hd).mono le_rfl fun f hf _ _ => .inl ?_)
    ⟨(h.get hi).1, fun hq => ⟨hcover hq, .inl ?_⟩⟩
  · exact CleanupState.mem_pending_fail.2 (.inl hf)
  · exact CleanupState.mem_pending_fail.2 (.inr ⟨hq, rfl⟩)

/-- The first release of a call was applied `k` entries after the start of the log, with all that
was committed when the call began before it. -/
theorem start_le (hi : s.calls[i]? = some c) {view : OwnersView}
    {since k : Nat} (hc : c.phase = .releasing view since) (hk : since ≤ k) : c.start ≤ k := by
  have hok := (h.get hi).2
  rw [hc] at hok
  exact Nat.le_trans hok hk

theorem step {s' : CleanupState}
    (hs : CleanupStep log node (CleanupCond log node) s s') : CleanupInv log node s' := by
  cases hs with
  | commit e he => exact fun c hc => (h c hc).mono (Nat.le_succ _) fun _ hf _ _ => .inl hf
  | apply hlt hs => exact h
  | call kind =>
    intro c hc
    rcases mem_append.1 hc with hc | hc
    · exact h c hc
    · rw [mem_singleton.1 hc]
      exact ⟨le_rfl, trivial⟩
  | read i c hi hc view hview => exact set h ⟨(h.get hi).1, (h.get hi).1⟩
  | released i c hi view since hc applied ha hrepair =>
    obtain ⟨k, hsince, hk, -, hidx⟩ := ha.release
    have hstart := h.start_le hi hc hsince
    have hfence : (applied - 1).toNat = k := by
      rw [UInt64.toNat_sub_of_le _ _ (UInt64.le_of_lt hrepair), hidx]
      rfl
    refine set h ⟨(h.get hi).1, ?_⟩
    dsimp only
    omega
  | releaseFailed i c hi view since hc hD =>
    exact h.fail hi fun hq o ho hn => (hD hq).le_fence ho hn
  | releasedFirst i c hi view since hc applied ha hfirst hD =>
    obtain ⟨k, hsince, -, -, hidx⟩ := ha.release
    have hstart := h.start_le hi hc hsince
    have hk : k = 0 := by
      have hle := UInt64.le_iff_toNat_le.1 (UInt64.not_lt.1 hfirst)
      rw [hidx] at hle
      exact Nat.le_zero.1 (Nat.le_of_succ_le_succ hle)
    refine h.succeed hi ?_ fun hq d hd hdq fence hf hphase => ?_
    · have hzero : c.start = 0 := by omega
      rw [hzero]
      exact .zero _
    · have hzero : d.start = 0 := Nat.le_zero.1 (hD hq d hd hdq fence hf hphase)
      rw [hzero]
      exact .zero _
  | repaired i c hi fence since hc applied ha hD =>
    obtain ⟨k, hsince, hk, hrel, -⟩ := ha.release
    have hok := (h.get hi).2
    rw [hc] at hok
    obtain ⟨hstart, hfence⟩ := hok
    -- the repair release takes every row the first release came after
    have hclean {start : Nat} (hle : start ≤ fence.toNat) : Clean log node start s.committed := by
      refine .of_release hrel hk (by omega) fun o _ _ hepoch => ?_
      exact UInt64.le_iff_toNat_le.2 (hepoch.trans hle)
    exact h.succeed hi (hclean hstart) fun hq d hd hdq f hf hphase =>
      hclean (hD hq d hd hdq f hf hphase)
  | repairFailed i c hi fence since hc =>
    have hok := (h.get hi).2
    rw [hc] at hok
    refine h.fail hi fun _ o ho _ => UInt64.le_iff_toNat_le.2 ?_
    exact ho.lastGrant.le.trans hok.1
  | tick hr ha => exact h
  | retry fence rest hr ha => exact h
  | retryFailed fence since ha => exact h
  | retried fence since ha applied hw hD =>
    obtain ⟨k, -, hk, hrel, hidx⟩ := hw.release
    refine fun c hc => (h c hc).mono le_rfl fun f hf hphase hq => ?_
    by_cases hne : f = fence
    · subst hne
      right
      have hok := h c hc
      have hstart : c.start ≤ k := by
        have hle := hD c hc hq f (mem_singleton.2 rfl) hphase
        omega
      rw [CallOk, hphase] at hok
      refine .of_release hrel hk (by omega) fun o ho hn hepoch => ?_
      exact (hok.2 hq).1 o (ho.of_le hepoch hok.1) hn
    · exact .inl (mem_filter.2 ⟨hf, decide_eq_true hne⟩)

end

theorem run (h : CleanupRun log node (CleanupCond log node) s) : CleanupInv log node s := by
  induction h with
  | refl => exact fun _ hc => absurd hc not_mem_nil
  | tail _ hs ih => exact ih.step hs

end CleanupInv

/-- **A finished node-wide release is complete and fenced.** -/
theorem node_release_sound {s : CleanupState} (h : CleanupRun log node (CleanupCond log node) s) :
    CleanupSound log node s := by
  refine ⟨fun c hc hfin => ?_, fun last hlast k fence hk hrel o ho hno => ?_⟩
  · have hok := (CleanupInv.run h c hc).2
    rcases hfin with hphase | ⟨hq, ⟨fence, hphase⟩, hempty⟩
    · rw [hphase] at hok
      exact hok
    · rw [hphase] at hok
      rcases (hok hq).2 with hpend | hclean
      · rw [hempty] at hpend
        cases hpend
      · exact hclean
  · obtain ⟨hn, hle⟩ := hrel.removed ho hno
    exact ⟨hn, hle, ho.lastGrant.le.trans_lt (hlast k fence hk hrel)⟩

end Runs

/-! ### Two runs that release node 2 -/

/-- Node 2 acquires the stream; the lagging releaser sends the fence 0, then repairs up to 2. -/
def repairedRelease : RaftLog where
  entries :=
    [⟨⟨1, 1, 1⟩, .normal (.createStream cameraStream cameraViewer "t")⟩,
      ⟨⟨1, 1, 2⟩, .normal (.acquireStreamOwner "cam" 2 1 3)⟩,
      ⟨⟨1, 1, 3⟩, .normal (.releaseOwnersForNode 2 0)⟩,
      ⟨⟨1, 1, 4⟩, .normal (.releaseOwnersForNode 2 2)⟩]
  index_eq := by decide
  length_lt := by decide

/-- The first release is answered, the repair pass fails, and the retry of its fence finishes the
cleanup that began after two entries. -/
theorem node_release_sound_repaired :
    ∃ s, CleanupRun repairedRelease 2 (CleanupCond repairedRelease 2) s ∧
      s.calls = [⟨.removePeer, 2, .failed 2⟩] ∧ s.Finished ⟨.removePeer, 2, .failed 2⟩ ∧
      CleanupSound repairedRelease 2 s := by
  have hlagging : CleanupRun repairedRelease 2 (CleanupCond repairedRelease 2) _ :=
    .tail (.tail (.tail .refl (.commit _ rfl)) (.apply (by decide) (by decide))) (.commit _ rfl)
  have hcalled : CleanupRun repairedRelease 2 (CleanupCond repairedRelease 2) _ :=
    .tail (.tail hlagging (.call .removePeer))
      (.read 0 _ rfl rfl ⟨_, 1⟩ ⟨.inl rfl, by decide⟩)
  have hreleased : CleanupRun repairedRelease 2 (CleanupCond repairedRelease 2) _ :=
    .tail (.tail hcalled (.commit _ rfl))
      (.released 0 _ rfl _ _ rfl 3 ⟨2, _, _, by decide, by decide, rfl, rfl, rfl, by decide⟩
        (by decide))
  have hqueued : CleanupRun repairedRelease 2 (CleanupCond repairedRelease 2) _ :=
    .tail (.tail (.tail hreleased (.repairFailed 0 _ rfl _ _ rfl)) (.tick rfl rfl))
      (.retry _ _ rfl rfl)
  have hretried : CleanupRun repairedRelease 2 (CleanupCond repairedRelease 2) _ :=
    .tail (.tail hqueued (.commit _ rfl))
      (.retried _ _ rfl 4 ⟨3, _, _, by decide, by decide, rfl, rfl, rfl, by decide⟩
        fun c hc _ _ _ _ => by
          rw [mem_singleton.1 hc]
          decide)
  exact ⟨_, hretried, rfl, .inr ⟨rfl, ⟨_, rfl⟩, by decide⟩, node_release_sound hretried⟩

/-- The first release of the lagging releaser fails, and so its fence is retried. -/
def laggingRelease : RaftLog where
  entries :=
    [⟨⟨1, 1, 1⟩, .normal (.createStream cameraStream cameraViewer "t")⟩,
      ⟨⟨1, 1, 2⟩, .normal (.acquireStreamOwner "cam" 2 1 3)⟩,
      ⟨⟨1, 1, 3⟩, .normal (.releaseOwnersForNode 2 0)⟩]
  index_eq := by decide
  length_lt := by decide

/-- The retry is answered, nothing is queued any more, and the row of node 2 is still there. -/
theorem lagging_release_leaves_row :
    ∃ s, CleanupRun laggingRelease 2 (fun _ _ => True) s ∧ ¬ CleanupSound laggingRelease 2 s := by
  have hlagging : CleanupRun laggingRelease 2 (fun _ _ => True) _ :=
    .tail (.tail (.tail .refl (.commit _ rfl)) (.apply (by decide) (by decide))) (.commit _ rfl)
  have hcalled : CleanupRun laggingRelease 2 (fun _ _ => True) _ :=
    .tail (.tail hlagging (.call .removePeer))
      (.read 0 _ rfl rfl ⟨_, 1⟩ ⟨.inl rfl, by decide⟩)
  have hqueued : CleanupRun laggingRelease 2 (fun _ _ => True) _ :=
    .tail (.tail (.tail hcalled (.releaseFailed 0 _ rfl _ _ rfl fun _ => trivial)) (.tick rfl rfl))
      (.retry _ _ rfl rfl)
  have hretried : CleanupRun laggingRelease 2 (fun _ _ => True) _ :=
    .tail (.tail hqueued (.commit _ rfl))
      (.retried _ _ rfl 3 ⟨2, _, _, by decide, by decide, rfl, rfl, rfl, by decide⟩ trivial)
  refine ⟨_, hretried, fun hsound => ?_⟩
  have hclean := hsound.complete _ (mem_singleton.2 rfl)
    (.inr ⟨rfl, ⟨_, rfl⟩, by decide⟩) ⟨"cam", 2, 2, 3⟩ ⟨_, rfl, by decide⟩ rfl
  exact absurd hclean (by decide)

end RtmpServer
