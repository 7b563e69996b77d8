import Mathlib.Data.List.Induction
import RtmpServer.Cluster.AmbiguousAcquire
import RtmpServer.Lib.Assoc
import RtmpServer.Media.HubState

/-!
# What the ownership tracker records

The tracker is a copy of `stream_owners` that media is fenced by. `acquire_stream_owner` writes the
epoch it was answered, `release_stream_owner` clears an entry, and `refresh_ownership_from_db` and
`sync_ownership_from_db` replace the whole map by rows they read before. No lock spans the read, or
the answer of the write, and the tracker call.

What a tracker call writes has a source in the log: the entry that answered the acquire, or the
entries that were applied when the rows were read.
-/

namespace RtmpServer

open List Lib.Replay Option Function

/-! ### The node -/

/-- Rows that were read and not yet written, with the entries applied at the read. -/
structure OwnerRead where
  applied : Nat
  rows : List StreamOwner

/-- `source` is where in the log the last call that gave a stream an epoch had it from; no step
reads it. -/
structure TrackerNode where
  applied : Nat
  tracker : OwnershipTracker
  reads : List OwnerRead
  source : String → Nat

inductive TrackerOp where
  | applyEntry
  /-- `stream_owner_list_result`, in a refresh or a sync. -/
  | read
  /-- `acquire_stream_owner` was answered by entry `m` and calls `set`. -/
  | acquired (m : Nat)
  /-- `release_stream_owner` calls `clear_if_epoch`. -/
  | released (streamId : String) (epoch : UInt64)
  /-- The refresh with the `i`th read calls `hydrate_from`. -/
  | hydrate (i : Nat)
  /-- The sync with the `i`th read calls `sync_from`. -/
  | sync (i : Nat)
  deriving DecidableEq

/-- The stream, node and epoch of the acquire at index `m`, if it was granted. -/
def RaftLog.granted (log : RaftLog) : Nat → Option (String × UInt64 × UInt64)
  | 0 => none
  | k + 1 =>
    (log.stateAt k).bind fun db => log.entries[k]?.bind fun e =>
      match e.payload, (applyEntry db e).response with
      | .normal (.acquireStreamOwner streamId nodeId _ _), .ownerEpoch epoch =>
        some (streamId, nodeId, epoch)
      | _, _ => none

namespace TrackerNode

def start (applied : Nat) : TrackerNode := ⟨applied, ⟨∅, 1⟩, [], fun _ => 0⟩

def write (s : TrackerNode) (i : Nat) (r : OwnerRead) (tracker : OwnershipTracker) : TrackerNode :=
  { s with
    tracker
    reads := s.reads.eraseIdx i
    source := fun sid => if r.rows.any fun o => o.streamId = sid then r.applied else s.source sid }

def step (log : RaftLog) (localId : UInt64) (s : TrackerNode) : TrackerOp → Option TrackerNode
  | .applyEntry =>
    if s.applied < log.entries.length then some { s with applied := s.applied + 1 } else none
  | .read =>
    (log.stateAt s.applied).map fun db =>
      { s with reads := s.reads ++ [⟨s.applied, db.streamOwnerList⟩] }
  | .acquired m =>
    (log.granted m).bind fun g =>
      if g.2.1 = localId then
        some { s with
          tracker := s.tracker.set g.1 g.2.1 g.2.2
          source := update s.source g.1 m }
      else none
  | .released streamId epoch => some { s with tracker := (s.tracker.clearIfEpoch streamId epoch).1 }
  | .hydrate i => s.reads[i]?.map fun r => s.write i r (s.tracker.hydrateFrom r.rows)
  | .sync i => s.reads[i]?.map fun r => s.write i r (s.tracker.syncFrom r.rows).1

/-- No stream is given an epoch from an older source than the last. -/
def meets (log : RaftLog) (s : TrackerNode) : TrackerOp → Bool
  | .acquired m => (log.granted m).all fun g => s.source g.1 ≤ m
  | .hydrate i | .sync i => s.reads[i]?.all fun r => r.rows.all fun o => s.source o.streamId ≤ r.applied
  | _ => true

end TrackerNode

/-! ### The tracker calls -/

namespace OwnershipTracker

variable {t : OwnershipTracker} {streamId sid : String} {node epoch : UInt64}

theorem get_set : (t.set streamId node epoch).get sid =
    if sid = streamId then some (node, epoch) else t.get sid :=
  Lib.Assoc.lookup_insert t.owners streamId sid (node, epoch)

theorem get_of_clearIfEpoch {p : UInt64 × UInt64}
    (h : (t.clearIfEpoch streamId epoch).1.get sid = some p) : t.get sid = some p := by
  unfold clearIfEpoch at h
  split at h
  · rw [get, Lib.Assoc.lookup_erase] at h
    split at h
    · cases h
    · exact h
  · exact h

end OwnershipTracker

theorem RaftLog.granted_grants {log : RaftLog} {m : Nat} {g : String × UInt64 × UInt64}
    (h : log.granted m = some g) : ∃ acquiredAt, log.Grants m g.1 g.2.1 acquiredAt g.2.2 := by
  cases m with
  | zero => cases h
  | succ k =>
    rw [granted, bind_eq_some_iff] at h
    obtain ⟨db, hdb, h⟩ := h
    rw [bind_eq_some_iff] at h
    obtain ⟨e, he, h⟩ := h
    split at h
    · rename_i streamId nodeId ep acquiredAt epoch hpayload hresponse
      cases h
      exact ⟨acquiredAt, k, db, e, ep, rfl, hdb, he, hpayload, hresponse⟩
    · cases h

/-! ### The invariant -/

/-- What was read is the table's, and what the tracker holds is the last grant up to its source. -/
structure TrackerInv (log : RaftLog) (s : TrackerNode) : Prop where
  read : ∀ r ∈ s.reads, ∀ o ∈ r.rows, log.LastGrant r.applied o
  newest : ∀ sid n e, s.tracker.get sid = some (n, e) →
    ∃ o, log.LastGrant (s.source sid) o ∧ o.streamId = sid ∧ o.epoch = e

namespace TrackerInv

variable {log : RaftLog} {localId : UInt64} {s s' : TrackerNode}

theorem start (applied : Nat) : TrackerInv log (.start applied) :=
  ⟨fun _ hr => absurd hr not_mem_nil, fun _ _ _ hget => by cases hget⟩

theorem write (h : TrackerInv log s) {i : Nat} {r : OwnerRead} (hr : s.reads[i]? = some r)
    {tracker : OwnershipTracker}
    (hget : ∀ sid, tracker.get sid = (OwnershipTracker.ofRows r.rows).lookup sid) :
    TrackerInv log (s.write i r tracker) := by
  refine ⟨fun r' hr' => h.read r' (mem_of_mem_eraseIdx hr'), fun sid n e hsid => ?_⟩
  rw [TrackerNode.write, hget] at hsid
  obtain ⟨o, ho, rfl, heq⟩ := OwnershipTracker.ofRows_lookup hsid
  have hany : (r.rows.any fun o' => o'.streamId = o.streamId) = true :=
    any_eq_true.2 ⟨o, ho, decide_eq_true rfl⟩
  refine ⟨o, ?_, rfl, (Prod.mk.inj heq).2.symm⟩
  simp only [TrackerNode.write, if_pos hany]
  exact h.read r (mem_of_getElem? hr) o ho

theorem acquired (h : TrackerInv log s) {m : Nat} {g : String × UInt64 × UInt64}
    (hg : log.granted m = some g) :
    TrackerInv log { s with
      tracker := s.tracker.set g.1 g.2.1 g.2.2, source := update s.source g.1 m } := by
  refine ⟨h.read, fun sid n e hsid => ?_⟩
  rw [OwnershipTracker.get_set] at hsid
  by_cases hsame : sid = g.1
  · rw [if_pos hsame, some.injEq] at hsid
    subst hsame
    obtain ⟨a, hgrant⟩ := RaftLog.granted_grants hg
    have hepoch := hgrant.epoch_eq
    refine ⟨⟨g.1, g.2.1, g.2.2, a⟩, ?_, rfl, congrArg Prod.snd hsid⟩
    simp only [update_self]
    exact ⟨hepoch.symm ▸ hgrant, hepoch.le, fun _ _ _ _ _ hle => hle.trans hepoch.ge⟩
  · rw [if_neg hsame] at hsid
    simp only [update_of_ne hsame]
    exact h.newest sid n e hsid

theorem step {op : TrackerOp} (h : TrackerInv log s) (hstep : s.step log localId op = some s') :
    TrackerInv log s' := by
  cases op with
  | applyEntry =>
    simp only [TrackerNode.step, ite_none_right_eq_some, some.injEq] at hstep
    obtain ⟨-, rfl⟩ := hstep
    exact ⟨h.read, h.newest⟩
  | read =>
    obtain ⟨db, hdb, rfl⟩ := map_eq_some_iff.1 hstep
    refine ⟨fun r hr => ?_, h.newest⟩
    rcases mem_append.1 hr with hr | hr
    · exact h.read r hr
    · rw [mem_singleton.1 hr]
      exact fun o ho => RaftLog.HasOwner.lastGrant ⟨db, hdb, ho⟩
  | acquired m =>
    obtain ⟨g, hg, hstep⟩ := bind_eq_some_iff.1 hstep
    rw [ite_none_right_eq_some, some.injEq] at hstep
    obtain ⟨-, rfl⟩ := hstep
    exact h.acquired hg
  | released streamId epoch =>
    obtain rfl := some.inj hstep
    exact ⟨h.read, fun sid n e hget => h.newest sid n e (OwnershipTracker.get_of_clearIfEpoch hget)⟩
  | hydrate i | sync i =>
    obtain ⟨r, hr, rfl⟩ := map_eq_some_iff.1 hstep
    exact h.write hr fun _ => rfl

end TrackerInv

theorem TrackerNode.source_le_write {s : TrackerNode} {i : Nat} {r : OwnerRead}
    (hok : r.rows.all fun o => s.source o.streamId ≤ r.applied) (tracker : OwnershipTracker)
    (sid : String) : s.source sid ≤ (s.write i r tracker).source sid := by
  simp only [write]
  split_ifs with hany
  · obtain ⟨o, ho, hsid⟩ := any_eq_true.1 hany
    have hle := all_eq_true.1 hok o ho
    simp only [decide_eq_true_eq] at hsid hle
    exact hsid ▸ hle
  · exact Nat.le_refl _

theorem TrackerNode.source_mono {log : RaftLog} {localId : UInt64} {s s' : TrackerNode}
    {ops : List TrackerOp} (hok : along (step log localId) (meets log) ops s)
    (h : replay (step log localId) s ops = some s') (sid : String) : s.source sid ≤ s'.source sid := by
  refine replay_inv_along (P := fun s₁ => s.source sid ≤ s₁.source sid) (fun s op s' hs hok hstep =>
    hs.trans ?_) (Nat.le_refl _) hok h
  cases op with
  | applyEntry =>
    simp only [step, ite_none_right_eq_some, some.injEq] at hstep
    obtain ⟨-, rfl⟩ := hstep
    exact Nat.le_refl _
  | read =>
    obtain ⟨db, -, rfl⟩ := map_eq_some_iff.1 hstep
    exact Nat.le_refl _
  | acquired m =>
    obtain ⟨g, hg, hstep⟩ := bind_eq_some_iff.1 hstep
    rw [ite_none_right_eq_some, some.injEq] at hstep
    obtain ⟨-, rfl⟩ := hstep
    simp only [meets, hg, all_some, decide_eq_true_eq] at hok
    by_cases hsame : sid = g.1
    · simpa [hsame] using hok
    · simp [hsame]
  | released streamId epoch =>
    obtain rfl := some.inj hstep
    exact Nat.le_refl _
  | hydrate i | sync i =>
    obtain ⟨r, hr, rfl⟩ := map_eq_some_iff.1 hstep
    simp only [meets, hr, all_some] at hok
    exact source_le_write hok _ sid

/-- **The tracker does not go back**: once an epoch is recorded for a stream, none smaller is
recorded and no owner of a smaller one is accepted. -/
theorem tracker_never_goes_back (log : RaftLog) (localId : UInt64) (applied : Nat)
    (before after : List TrackerOp) (s t : TrackerNode)
    (hs : replay (TrackerNode.step log localId) (.start applied) before = some s)
    (ht : replay (TrackerNode.step log localId) s after = some t)
    (hok : along (TrackerNode.step log localId) (TrackerNode.meets log) (before ++ after)
      (.start applied) = true)
    (sid : String) (node epoch : UInt64) (hget : s.tracker.get sid = some (node, epoch)) :
    (∀ node' epoch', t.tracker.get sid = some (node', epoch') → epoch ≤ epoch') ∧
      ∀ node' epoch', epoch' < epoch → t.tracker.acceptsOwner sid node' epoch' = false := by
  rw [along_append, hs, all_some, Bool.and_eq_true_iff] at hok
  have hinv : TrackerInv log s :=
    replay_inv (fun _ _ _ _ h hstep => h.step hstep) (.start applied) hs
  have hinv' : TrackerInv log t := replay_inv (fun _ _ _ _ h hstep => h.step hstep) hinv ht
  have hle : ∀ node' epoch', t.tracker.get sid = some (node', epoch') → epoch ≤ epoch' := by
    intro node' epoch' hget'
    obtain ⟨o, ho, rfl, rfl⟩ := hinv.newest sid node epoch hget
    obtain ⟨o', ho', hsid, rfl⟩ := hinv'.newest _ node' epoch' hget'
    -- the earlier grant is among those of which the later one is the last
    have hsource := TrackerNode.source_mono hok.2 ht o.streamId
    exact UInt64.le_iff_toNat_le.2 (ho'.last _ _ _ _ (hsid ▸ ho.grant) (ho.le.trans hsource))
  refine ⟨hle, fun node' epoch' hlt => decide_eq_false fun hget' => ?_⟩
  exact absurd hlt (UInt64.not_lt.2 (hle node' epoch' hget'))

def handoverLog : RaftLog := overtakenAcquire

/-- Node 1 refreshes, acquires the stream and syncs with what it has applied. -/
theorem tracker_never_goes_back_handover :
    ∃ s t, replay (TrackerNode.step handoverLog 1) (.start 2)
        [.read, .hydrate 0, .applyEntry, .applyEntry, .acquired 4] = some s ∧
      replay (TrackerNode.step handoverLog 1) s [.read, .sync 0] = some t ∧
      s.tracker.get "cam" = some (1, 4) ∧ t.tracker.acceptsOwner "cam" 2 2 = false := by
  refine ⟨_, _, rfl, rfl, by decide +kernel, ?_⟩
  exact (tracker_never_goes_back handoverLog 1 2
    [.read, .hydrate 0, .applyEntry, .applyEntry, .acquired 4] [.read, .sync 0] _ _ rfl rfl
    (by decide +kernel) "cam" 1 4 (by decide +kernel)).2 2 2 (by decide)

/-- A refresh that read the rows before the handover writes them after it, and node 2 is accepted
again. -/
theorem stale_rows_go_back :
    (replay (TrackerNode.step handoverLog 1) (.start 2)
        [.read, .applyEntry, .applyEntry, .acquired 4]).map (·.tracker.get "cam") =
          some (some (1, 4)) ∧
      (replay (TrackerNode.step handoverLog 1) (.start 2)
        [.read, .applyEntry, .applyEntry, .acquired 4, .hydrate 0]).map
          (fun t => (t.tracker.get "cam", t.tracker.acceptsOwner "cam" 2 2)) =
            some (some (2, 2), true) := by
  decide +kernel

end RtmpServer
