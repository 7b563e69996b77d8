import RtmpServer.Cluster.AmbiguousAcquire

/-!
# Publishers after an isolation

A connection stamps the frames it exports with the epoch of its acquire (`ownership_epochs`), and
subscribers drop frames whose epoch is not the one of the stored owner row. Two loops of the health
tick keep stamps and rows together: the ownership sync forces off publishers of streams that are no
longer this node's, and the recovery pass acquires streams again after an isolation and stamps their
connections anew.

An acquire that is answered writes the tracker, then the stamp, and a publish files its session
after both, each under a lock of its own. Calls, commits, local applies and the reconcile loop are
the steps of an `AcquireRun` (`RecoveryRun.acquireRun`).

The pass takes a row of its own node as proof that nothing is to be done and never compares epochs.
So when an acquire it gave up on lands under a publisher that is still on, only the queued record
tells, and the record ages out.
-/

namespace RtmpServer

open Option List Prod

/-! ### Tracker and stamps -/

/-- The owners map of `OwnershipTracker`: node and epoch. -/
abbrev Tracker := String → Option (UInt64 × UInt64)

def Tracker.set (t : Tracker) (streamId : String) (owner : UInt64 × UInt64) : Tracker :=
  fun id => if id = streamId then some owner else t id

def Tracker.clearIfEpoch (t : Tracker) (streamId : String) (epoch : UInt64) : Tracker :=
  fun id => if id = streamId ∧ (t id).map snd = some epoch then none else t id

/-- The tracker `sync_from` builds from the owner rows. -/
def RaftLog.tracker (log : RaftLog) (applied : Nat) : Tracker := fun streamId =>
  (log.localOwner applied streamId).map fun o => (o.ownerNodeId, o.epoch)

/-- The sync reports the stream as changed and its owner is not this node. -/
def Tracker.lost (self : UInt64) (old new : Tracker) (streamId : String) : Bool :=
  old streamId ≠ new streamId ∧ (new streamId).map fst ≠ some self

/-- What `retag_stream_epoch` makes of one entry of `ownership_epochs`. -/
def restamp (streamId : String) (epoch : UInt64) (c : String × UInt64) : String × UInt64 :=
  if c.1 = streamId then (c.1, epoch) else c

def forceUnpublishStream (conns : List (String × UInt64)) (streamId : String) :
    List (String × UInt64) :=
  conns.filter (·.1 ≠ streamId)

/-- A running `reconcile_publishers_after_isolation`: the streams it leaves to the reconcile loop,
the publishers still to look at, the acquire it waits for. -/
structure RecoveryPass where
  ambiguous : List String
  todo : List String
  calling : Option Nat
  retry : Bool

/-- A node with its connections: `node.conns` are the stamps of those with an active publisher. -/
structure RecoveryState where
  node : AcquireState
  tracker : Tracker
  /-- The acquires that were answered with an epoch which is in the tracker. -/
  returned : List Nat
  /-- The connection that the auth worker has stamped and not yet filed as a publisher. -/
  filing : Option (String × UInt64)
  retryPending : Bool
  pass : Option RecoveryPass

def RecoveryState.start : RecoveryState := ⟨.start, fun _ => none, [], none, false, none⟩

/-- `ownership_epochs`. -/
def RecoveryState.stamps (s : RecoveryState) : List (String × UInt64) :=
  s.node.conns ++ s.filing.toList

/-- A call returns to its caller, which changes the sessions. -/
def AcquireState.answered (n : AcquireState) (i : Nat) (w : AcquireWrite)
    (publishers : List Publisher) (conns : List (String × UInt64)) : AcquireState :=
  { n with
    writes := n.writes.set i { w with call := .answered }
    publishers := publishers
    conns := conns }

structure AcquireState.Background (returned : List Nat) (n n' : AcquireState) : Prop where
  returned : ∀ i ∈ returned, n'.writes[i]? = n.writes[i]?
  conns : n'.conns = n.conns
  publishers : n'.publishers = n.publishers
  answered : ∀ w ∈ n'.writes, w.call = .answered → w ∈ n.writes

/-- What the order of events can upset: a connection is stamped, or filed as a publisher, a release
returns and clears the tracker, a local database error keeps a publisher on. -/
inductive RecoveryEvent where
  | answered (streamId : String) (epoch : UInt64)
  | filed (streamId : String)
  | cleared (streamId : String) (epoch : UInt64)
  | missed (streamId : String)

/-! ### Runs -/

section Runs

variable (log : RaftLog) (self : UInt64)

/-- What the entry of a committed acquire was answered with. -/
def AcquireWrite.Response (w : AcquireWrite) (r : ClusterResponse) : Prop :=
  ∃ k db e, w.committed = some (k + 1) ∧ log.stateAt k = some db ∧ log.entries[k]? = some e ∧
    (applyEntry db e).response = r

def RecoveryPass.next (p : RecoveryPass) (todo : List String) (retry : Bool) : RecoveryPass :=
  ⟨p.ambiguous, todo, none, p.retry || retry⟩

structure RecoveryState.LooksAt (s : RecoveryState) (p : RecoveryPass) (id : String)
    (todo : List String) : Prop where
  pass : s.pass = some p
  todo : p.todo = id :: todo
  calling : p.calling = none

structure RecoveryState.WaitsFor (s : RecoveryState) (p : RecoveryPass) (todo : List String)
    (i : Nat) (w : AcquireWrite) : Prop where
  pass : s.pass = some p
  todo : p.todo = w.streamId :: todo
  calling : p.calling = some i
  write : s.node.writes[i]? = some w
  waiting : w.call = .waiting

/-- The acquire was answered with the epoch, which is in the tracker. -/
structure RecoveryState.Returned (s : RecoveryState) (i : Nat) (w : AcquireWrite) (epoch : UInt64) :
    Prop where
  returned : i ∈ s.returned
  response : w.Response log (.ownerEpoch epoch)

/-- `K` says when a record may be dropped, `D` when the events of `RecoveryEvent` may happen. The
publisher rows follow the connections in ways that do not matter here. -/
inductive RecoveryStep (K : DropKind → AcquireState → AmbiguousAcquire → Prop)
    (D : RecoveryEvent → RecoveryState → Prop) (s : RecoveryState) : RecoveryState → Prop
  | background {n : AcquireState} (h : AcquireStep log self K s.node n)
      (hb : s.node.Background s.returned n) : RecoveryStep K D s { s with node := n }
  /-- `acquire_stream_owner` is answered and writes the tracker. -/
  | tracked (i : Nat) (w : AcquireWrite) (hi : s.node.writes[i]? = some w) (hw : w.call = .waiting)
      (epoch : UInt64) (hr : w.Response log (.ownerEpoch epoch)) :
    RecoveryStep K D s { s with
      tracker := s.tracker.set w.streamId (self, epoch)
      returned := i :: s.returned }
  /-- The publish stamps its connection. If that publishes the stream already it has a new stamp. -/
  | stamped (i : Nat) (w : AcquireWrite) (hi : s.node.writes[i]? = some w) (hw : w.call = .waiting)
      (epoch : UInt64) (hr : s.Returned log i w epoch) (hfree : s.filing = none)
      (hD : D (.answered w.streamId epoch) s) :
    RecoveryStep K D s { s with
      node := s.node.answered i w s.node.publishers (s.node.conns.map (restamp w.streamId epoch))
      filing := some (w.streamId, epoch) }
  /-- The stream has one active publisher, which the new one replaces. -/
  | filed (c : String × UInt64) (hc : s.filing = some c) (hD : D (.filed c.1) s)
      (publishers : List Publisher) :
    RecoveryStep K D s { s with
      node := { s.node with
        publishers := publishers, conns := forceUnpublishStream s.node.conns c.1 ++ [c] }
      filing := none }
  /-- The publish is refused, or gives the stream up again as it could not release the prior one. The
  active row of the stream is its own then. -/
  | rejected (i : Nat) (w : AcquireWrite) (hi : s.node.writes[i]? = some w)
      (hw : w.call = .waiting) (r : ClusterResponse) (hr : w.Response log r)
      (hno : (∀ epoch, r ≠ .ownerEpoch epoch) ∨ s.stamps.any (·.1 = w.streamId) = false) :
    RecoveryStep K D s { s with node := s.node.answered i w s.node.publishers s.node.conns }
  | closed (publishers : List Publisher) (conns : List (String × UInt64))
      (hsub : ∀ c ∈ conns, c ∈ s.node.conns) :
    RecoveryStep K D s { s with node := { s.node with publishers := publishers, conns := conns } }
  /-- `sync_ownership_from_db`. -/
  | sync (missed : List String) (hD : ∀ id ∈ missed, D (.missed id) s)
      (publishers : List Publisher) :
    RecoveryStep K D s { s with
      tracker := log.tracker s.node.applied
      node := { s.node with
        publishers := publishers
        conns := s.node.conns.filter fun c =>
          c.1 ∈ missed ∨ s.tracker.lost self (log.tracker s.node.applied) c.1 = false } }
  /-- `release_stream_owner` returns. -/
  | cleared (streamId : String) (epoch : UInt64) (hD : D (.cleared streamId epoch) s) :
    RecoveryStep K D s { s with tracker := s.tracker.clearIfEpoch streamId epoch }
  | passBegin (hp : s.pass = none) :
    RecoveryStep K D s { s with pass := some ⟨s.node.pending.map (·.streamId),
      (s.node.publishers.filter (·.active)).map (·.streamId), none, false⟩ }
  | passAmbiguous (p : RecoveryPass) (id : String) (todo : List String)
      (hp : s.LooksAt p id todo) (hid : id ∈ p.ambiguous) :
    RecoveryStep K D s { s with pass := some (p.next todo true) }
  | passOwned (p : RecoveryPass) (id : String) (todo : List String)
      (hp : s.LooksAt p id todo) (hid : id ∉ p.ambiguous) (o : StreamOwner)
      (ho : log.localOwner s.node.applied id = some o) (hself : o.ownerNodeId = self) :
    RecoveryStep K D s { s with pass := some (p.next todo false) }
  | passCall (p : RecoveryPass) (id : String) (todo : List String)
      (hp : s.LooksAt p id todo) (hid : id ∉ p.ambiguous) (owner : Option StreamOwner)
      (hread : owner = log.localOwner s.node.applied id ∨ owner = none)
      (hother : owner.map (·.ownerNodeId) ≠ some self) (acquiredAt : Int) :
    RecoveryStep K D s { s with
      node := { s.node with writes := s.node.writes ++ [⟨id, acquiredAt, .waiting, none⟩] }
      pass := some { p with calling := some s.node.writes.length } }
  /-- The acquire was refused locally or never left this node. -/
  | passRefused (p : RecoveryPass) (id : String) (todo : List String)
      (hp : s.LooksAt p id todo) (hid : id ∉ p.ambiguous) :
    RecoveryStep K D s { s with pass := some (p.next todo true) }
  | passGaveUp (p : RecoveryPass) (todo : List String) (i : Nat) (w : AcquireWrite)
      (hp : s.WaitsFor p todo i w) (hr : i ∉ s.returned) :
    RecoveryStep K D s { s with
      node := { s.node with
        writes := s.node.writes.set i { w with call := .gaveUp s.node.clock }
        pending := queueAmbiguousAcquire s.node.pending
          ⟨w.streamId, self, w.acquiredAt, s.node.clock⟩ }
      pass := some (p.next todo true) }
  | passReacquired (p : RecoveryPass) (todo : List String) (i : Nat) (w : AcquireWrite)
      (hp : s.WaitsFor p todo i w) (epoch : UInt64) (hr : s.Returned log i w epoch)
      (hD : D (.answered w.streamId epoch) s) (hretag : s.stamps.any (·.1 = w.streamId) = true) :
    RecoveryStep K D s { s with
      node := s.node.answered i w s.node.publishers (s.node.conns.map (restamp w.streamId epoch))
      filing := s.filing.map (restamp w.streamId epoch)
      pass := some (p.next todo false) }
  /-- The publisher has closed meanwhile; `failed` says that the release of the epoch failed. -/
  | passReleased (p : RecoveryPass) (todo : List String) (i : Nat) (w : AcquireWrite)
      (hp : s.WaitsFor p todo i w) (epoch : UInt64) (hr : s.Returned log i w epoch)
      (hretag : s.stamps.any (·.1 = w.streamId) = false) (failed : Bool) :
    RecoveryStep K D s { s with
      node := s.node.answered i w s.node.publishers s.node.conns
      pass := some (p.next todo failed) }
  /-- Another node has the stream; `forced` says that its publisher could be forced off. -/
  | passConflict (p : RecoveryPass) (todo : List String) (i : Nat) (w : AcquireWrite)
      (hp : s.WaitsFor p todo i w) (hr : w.Response log .conflict) (publishers : List Publisher)
      (forced : Bool) :
    RecoveryStep K D s { s with
      node := s.node.answered i w publishers
        (if forced then forceUnpublishStream s.node.conns w.streamId else s.node.conns)
      pass := some (p.next todo false) }
  /-- The stream is gone or being deleted. -/
  | passRejected (p : RecoveryPass) (todo : List String) (i : Nat) (w : AcquireWrite)
      (hp : s.WaitsFor p todo i w) (hr : w.Response log .notFound) :
    RecoveryStep K D s { s with
      node := s.node.answered i w s.node.publishers s.node.conns
      pass := some (p.next todo true) }
  | passEnd (p : RecoveryPass) (hp : s.pass = some p) (ht : p.todo = []) :
    RecoveryStep K D s { s with retryPending := p.retry, pass := none }

abbrev RecoveryRun (K : DropKind → AcquireState → AmbiguousAcquire → Prop)
    (D : RecoveryEvent → RecoveryState → Prop) (s : RecoveryState) : Prop :=
  Relation.ReflTransGen (RecoveryStep log self K D) .start s

/-! ### Agreement -/

/-- No acquire of the stream has an open outcome, everything that is committed is applied here, and
the ownership sync has seen it. -/
structure RecoveryState.Settled (s : RecoveryState) (streamId : String) : Prop where
  retry : s.retryPending = false
  records : ∀ r ∈ s.node.records, r.streamId ≠ streamId
  calls : ∀ w ∈ s.node.writes, w.streamId = streamId → w.call ≠ .waiting
  applied : s.node.applied = s.node.committed
  synced : s.tracker streamId = log.tracker s.node.applied streamId

/-- Connections are stamped in the order the acquires of their stream were committed, and filed
while the tracker has this node as the owner; a release only clears the tracker of a stream that
nobody publishes here, and no publisher stays on for a database error. -/
def RecoveryCond (event : RecoveryEvent) (s : RecoveryState) : Prop :=
  match event with
  | .answered streamId epoch => ∀ w ∈ s.node.writes, w.streamId = streamId → w.call = .answered →
      ∀ k, w.committed = some k → k < epoch.toNat
  | .filed streamId => (s.tracker streamId).map fst = some self
  | .cleared streamId epoch => (s.tracker streamId).map snd = some epoch →
      ∀ c ∈ s.node.conns, c.1 ≠ streamId
  | .missed streamId => ∀ c ∈ s.node.conns, c.1 ≠ streamId

/-! ### The acquires of a run -/

variable {log} {self}

section Acquires

variable {K : DropKind → AcquireState → AmbiguousAcquire → Prop} {n : AcquireState}

theorem AcquireState.answered_steps {i : Nat} {w : AcquireWrite} (hi : n.writes[i]? = some w)
    (hw : w.call = .waiting) {r : ClusterResponse} (hr : w.Response log r)
    (publishers : List Publisher) (conns : List (String × UInt64)) :
    Relation.ReflTransGen (AcquireStep log self K) n (n.answered i w publishers conns) := by
  obtain ⟨k, -, -, hk, -⟩ := hr
  have hc : w.committed.isSome = true := by rw [hk]; rfl
  exact .tail (.single (.answer i w hi hw hc)) (.sessions publishers conns)

theorem RecoveryStep.acquireSteps {D : RecoveryEvent → RecoveryState → Prop} {s s' : RecoveryState}
    (hs : RecoveryStep log self K D s s') :
    Relation.ReflTransGen (AcquireStep log self K) s.node s'.node := by
  cases hs with
  | background h hb => exact .single h
  | stamped i w hi hw epoch hr hfree hD => exact AcquireState.answered_steps hi hw hr.response _ _
  | filed c hc hD publishers => exact .single (.sessions publishers _)
  | rejected i w hi hw r hr hno => exact AcquireState.answered_steps hi hw hr _ _
  | closed publishers conns hsub => exact .single (.sessions publishers conns)
  | sync missed hD publishers => exact .single (.sessions publishers _)
  | passCall p id todo hp hid owner hread hother acquiredAt =>
    exact .single (.call id acquiredAt)
  | passGaveUp p todo i w hp hr => exact .single (.giveUp i w hp.write hp.waiting)
  | passReacquired p todo i w hp epoch hr hD hretag =>
    exact AcquireState.answered_steps hp.write hp.waiting hr.response _ _
  | passReleased p todo i w hp epoch hr hretag failed =>
    exact AcquireState.answered_steps hp.write hp.waiting hr.response _ _
  | passConflict p todo i w hp hr publishers forced =>
    exact AcquireState.answered_steps hp.write hp.waiting hr _ _
  | passRejected p todo i w hp hr =>
    exact AcquireState.answered_steps hp.write hp.waiting hr _ _
  | _ => exact .refl

theorem RecoveryRun.acquireRun {D : RecoveryEvent → RecoveryState → Prop} {s : RecoveryState}
    (h : RecoveryRun log self K D s) : AcquireRun log self K s.node :=
  h.lift' RecoveryState.node fun _ _ => RecoveryStep.acquireSteps

theorem exists_mem_set {α : Type} {P : α → Prop} {l : List α} {i : Nat} {a b : α}
    (h : ∃ x ∈ l, P x) (hi : l[i]? = some a) (hab : P a → P b) : ∃ x ∈ l.set i b, P x := by
  obtain ⟨x, hx, hP⟩ := h
  obtain ⟨j, hj⟩ := getElem?_of_mem hx
  by_cases hij : i = j
  · subst hij
    rw [hi, some.injEq] at hj
    subst hj
    exact ⟨b, List.mem_set (List.getElem?_eq_some_iff.1 hi).1 b, hab hP⟩
  · refine ⟨x, mem_of_getElem? (i := j) ?_, hP⟩
    rw [getElem?_set_ne hij, hj]

theorem AcquireState.requeue_eq (n : AcquireState) (r : AmbiguousAcquire) :
    (n.requeue r).committed = n.committed ∧ (n.requeue r).writes = n.writes := by
  unfold AcquireState.requeue
  split_ifs <;> exact ⟨rfl, rfl⟩

theorem AcquireStep.committed_le {n' : AcquireState} (h : AcquireStep log self K n n') :
    n.committed ≤ n'.committed := by
  cases h with
  | commit e he hother => exact Nat.le_succ _
  | commitOwn i w e ep he hi hp hnone hage => exact Nat.le_succ _
  | keep r rest hd hr owner publishers hreads hv hD => rw [(AcquireState.requeue_eq _ r).1]
  | releaseFailed r epoch hr hD => rw [(AcquireState.requeue_eq _ r).1]
  | _ => exact le_rfl

theorem AcquireRun.own (h : AcquireRun log self K n) {i : Nat} {e : Entry} {streamId : String}
    {ep : UInt64} {acquiredAt : Int} (hi : i < n.committed) (he : log.entries[i]? = some e)
    (hp : e.payload = .normal (.acquireStreamOwner streamId self ep acquiredAt)) :
    ∃ w ∈ n.writes, w.streamId = streamId ∧ w.committed = some (i + 1) := by
  induction h with
  | refl => exact absurd hi (Nat.not_lt_zero i)
  | tail _ hs ih =>
    cases hs with
    | call id at' =>
      obtain ⟨w, hw, hprop⟩ := ih hi
      exact ⟨w, mem_append_left _ hw, hprop⟩
    | answer j w hj hw hc => exact exists_mem_set (ih hi) hj id
    | giveUp j w hj hw => exact exists_mem_set (ih hi) hj id
    | commit e' he' hother =>
      rcases Nat.lt_succ_iff_lt_or_eq.1 hi with hlt | rfl
      · exact ih hlt
      · rw [he, some.injEq] at he'
        subst he'
        exact absurd hp (hother _ _ _)
    | commitOwn j w e' ep' he' hj hp' hnone hage =>
      rcases Nat.lt_succ_iff_lt_or_eq.1 hi with hlt | rfl
      · refine exists_mem_set (ih hlt) hj fun hw => ?_
        rw [hnone] at hw
        exact absurd hw.2 nofun
      · rw [he, some.injEq] at he'
        subst he'
        rw [hp, EntryPayload.normal.injEq, ClusterCommand.acquireStreamOwner.injEq] at hp'
        exact ⟨_, List.mem_set (List.getElem?_eq_some_iff.1 hj).1 _, hp'.1.symm, rfl⟩
    | keep r rest hd hr owner publishers hreads hv hD =>
      rw [(AcquireState.requeue_eq _ r).1] at hi
      rw [(AcquireState.requeue_eq _ r).2]
      exact ih hi
    | releaseFailed r epoch hr hD =>
      rw [(AcquireState.requeue_eq _ r).1] at hi
      rw [(AcquireState.requeue_eq _ r).2]
      exact ih hi
    | _ => exact ih hi

end Acquires

/-! ### Answers -/

theorem AcquireWrite.Response.grants {w : AcquireWrite} {m : Nat} {epoch : UInt64}
    (hr : w.Response log (.ownerEpoch epoch)) (hc : w.CommittedAs log self m) :
    log.Grants epoch.toNat w.streamId self w.acquiredAt epoch ∧
      w.committed = some epoch.toNat ∧ epoch.toNat ≤ m := by
  obtain ⟨k, db, e, hk, hs, he, hresp⟩ := hr
  obtain ⟨i, e', ep, hi, hlt, he', hp⟩ := hc _ hk
  obtain rfl : k = i := by omega
  rw [he, some.injEq] at he'
  subst he'
  have hg : log.Grants (k + 1) w.streamId self w.acquiredAt epoch :=
    ⟨k, db, e, ep, rfl, hs, he, hp, hresp⟩
  have hepoch := hg.epoch_eq
  rw [hepoch]
  exact ⟨hg, hk, by omega⟩

theorem AcquireWrite.Response.not_grants {w : AcquireWrite} {r : ClusterResponse}
    (hr : w.Response log r) (hno : ∀ epoch, r ≠ .ownerEpoch epoch) {m : Nat}
    (hm : w.committed = some m) {streamId : String} {nodeId epoch : UInt64} {acquiredAt : Int} :
    ¬ log.Grants m streamId nodeId acquiredAt epoch := by
  intro hg
  obtain ⟨k, db, e, hk, hs, he, hresp⟩ := hr
  rw [hm, some.injEq] at hk
  rw [hk] at hg
  exact hno epoch (hresp.symm.trans (hg.response hs he))

/-! ### The invariant -/

/-- The stamp was granted, and no newer acquire of the stream has returned. -/
structure StampOk (log : RaftLog) (node : UInt64) (n : AcquireState) (c : String × UInt64) :
    Prop where
  granted : ∃ acquiredAt, log.Grants c.2.toNat c.1 node acquiredAt c.2
  committed : c.2.toNat ≤ n.committed
  newest : ∀ w ∈ n.writes, w.streamId = c.1 → w.call = .answered → ∀ k, w.committed = some k →
    (∃ acquiredAt epoch, log.Grants k c.1 node acquiredAt epoch) → k ≤ c.2.toNat

section StampOk

variable {n n' : AcquireState} {c : String × UInt64} {i : Nat} {w : AcquireWrite} {epoch : UInt64}
  {publishers : List Publisher} {conns : List (String × UInt64)}

theorem StampOk.answered (h : StampOk log self n c)
    (hw : w.streamId = c.1 → ∀ k, w.committed = some k →
      ¬ ∃ acquiredAt epoch, log.Grants k c.1 self acquiredAt epoch) :
    StampOk log self (n.answered i w publishers conns) c := by
  refine ⟨h.granted, h.committed, fun v hv hstream hcall k hk hg => ?_⟩
  rcases mem_or_eq_of_mem_set hv with hv | rfl
  · exact h.newest v hv hstream hcall k hk hg
  · exact absurd hg (hw hstream k hk)

theorem StampOk.stamped (hc : w.CommittedAs log self n.committed)
    (hr : w.Response log (.ownerEpoch epoch))
    (hD : ∀ v ∈ n.writes, v.streamId = w.streamId → v.call = .answered →
      ∀ k, v.committed = some k → k < epoch.toNat) :
    StampOk log self (n.answered i w publishers conns) (w.streamId, epoch) := by
  obtain ⟨hg, hk, hle⟩ := hr.grants hc
  refine ⟨⟨_, hg⟩, hle, fun v hv hstream hcall k hk' hg' => ?_⟩
  rcases mem_or_eq_of_mem_set hv with hv | rfl
  · exact (hD v hv hstream hcall k hk').le
  · rw [hk, some.injEq] at hk'
    exact hk'.ge

theorem StampOk.mono (h : StampOk log self n c) (hcommitted : n.committed ≤ n'.committed)
    (hwrites : ∀ w ∈ n'.writes, w.call = .answered → w ∈ n.writes) : StampOk log self n' c :=
  ⟨h.granted, h.committed.trans hcommitted, fun w hw hstream hcall =>
    h.newest w (hwrites w hw hcall) hstream hcall⟩

end StampOk

structure StampsOk (log : RaftLog) (node : UInt64) (s : RecoveryState) : Prop where
  stamps : ∀ c ∈ s.stamps, StampOk log node s.node c
  /-- The tracker has this node as the owner of what is published here. -/
  tracked : ∀ c ∈ s.node.conns, (s.tracker c.1).map fst = some node

namespace StampsOk

variable {s s' : RecoveryState}

section

variable (h : StampsOk log self s)
include h

theorem mono (hconns : ∀ c ∈ s'.node.conns, c ∈ s.node.conns)
    (hfiling : s'.filing = s.filing) (hcommitted : s.node.committed ≤ s'.node.committed)
    (htracked : ∀ c ∈ s'.node.conns, (s'.tracker c.1).map fst = some self)
    (hwrites : ∀ w ∈ s'.node.writes, w.call = .answered → w ∈ s.node.writes) :
    StampsOk log self s' := by
  refine ⟨fun c hc => (h.stamps c ?_).mono hcommitted hwrites, htracked⟩
  rw [RecoveryState.stamps, hfiling] at hc
  exact mem_append.2 ((mem_append.1 hc).imp_left (hconns c))

theorem refused {i : Nat} {w : AcquireWrite} {r : ClusterResponse}
    (hr : w.Response log r) (hno : ∀ epoch, r ≠ .ownerEpoch epoch) {publishers : List Publisher}
    {conns : List (String × UInt64)} (hconns : ∀ c ∈ conns, c ∈ s.node.conns)
    {pass : Option RecoveryPass} :
    StampsOk log self { s with node := s.node.answered i w publishers conns, pass := pass } := by
  refine ⟨fun c hc => ?_, fun c hc => h.tracked c (hconns c hc)⟩
  have hold : c ∈ s.stamps := mem_append.2 ((mem_append.1 hc).imp_left (hconns c))
  refine (h.stamps c hold).answered fun _ k hk => ?_
  rintro ⟨acquiredAt, epoch, hg⟩
  exact hr.not_grants hno hk hg

theorem released {i : Nat} {w : AcquireWrite} (hnone : s.stamps.any (·.1 = w.streamId) = false)
    {pass : Option RecoveryPass} :
    StampsOk log self { s with
      node := s.node.answered i w s.node.publishers s.node.conns, pass := pass } := by
  refine ⟨fun c hc => (h.stamps c hc).answered fun hstream => ?_, h.tracked⟩
  exact absurd (decide_eq_true hstream.symm) (any_eq_false.1 hnone c hc)

theorem sync {missed : List String}
    (hD : ∀ id ∈ missed, RecoveryCond self (.missed id) s) {publishers : List Publisher} :
    StampsOk log self { s with
      tracker := log.tracker s.node.applied
      node := { s.node with
        publishers := publishers
        conns := s.node.conns.filter fun c =>
          c.1 ∈ missed ∨ s.tracker.lost self (log.tracker s.node.applied) c.1 = false } } := by
  refine h.mono (fun c hc => mem_of_mem_filter hc) rfl le_rfl (fun c hc => ?_) fun _ hw _ => hw
  obtain ⟨hc, hkept⟩ := mem_filter.1 hc
  rcases of_decide_eq_true hkept with hmissed | hkept
  · exact absurd rfl (hD _ hmissed c hc)
  · -- a stream that is not lost is unchanged or has a new owner, which is this node
    rcases not_and_or.1 (of_decide_eq_false hkept) with hsame | hself
    · exact (congrArg _ (not_not.1 hsame).symm).trans (h.tracked c hc)
    · exact not_not.1 hself

theorem restamp {i : Nat} {w : AcquireWrite} {epoch : UInt64}
    (hc : w.CommittedAs log self s.node.committed) (hr : s.Returned log i w epoch)
    (hD : RecoveryCond self (.answered w.streamId epoch) s) {filing : Option (String × UInt64)}
    (hfiling : ∀ c ∈ filing, c = (w.streamId, epoch) ∨
      ∃ c' ∈ s.filing, c = RtmpServer.restamp w.streamId epoch c') {pass : Option RecoveryPass} :
    StampsOk log self { s with
      node := s.node.answered i w s.node.publishers
        (s.node.conns.map (RtmpServer.restamp w.streamId epoch))
      filing := filing, pass := pass } := by
  have hstamp : ∀ c ∈ s.stamps, StampOk log self (s.node.answered i w s.node.publishers
      (s.node.conns.map (RtmpServer.restamp w.streamId epoch)))
      (RtmpServer.restamp w.streamId epoch c) := by
    intro c hold
    rw [RtmpServer.restamp]
    split_ifs with hsame
    · rw [hsame]
      exact .stamped hc hr.response hD
    · exact (h.stamps c hold).answered fun hstream => absurd hstream.symm hsame
  refine ⟨fun c hmem => ?_, fun c hmem => ?_⟩
  · rcases mem_append.1 hmem with hmem | hmem
    · obtain ⟨c, hold, rfl⟩ := mem_map.1 hmem
      exact hstamp c (mem_append_left _ hold)
    · rcases hfiling c (mem_toList.1 hmem) with rfl | ⟨c', hold, rfl⟩
      · exact .stamped hc hr.response hD
      · exact hstamp c' (mem_append_right _ (mem_toList.2 hold))
  · obtain ⟨c, hold, rfl⟩ := mem_map.1 hmem
    rw [RtmpServer.restamp]
    split_ifs <;> exact h.tracked c hold

theorem step (hinv : AcquireInv log self s.node)
    (hs : RecoveryStep log self (DropSafe log self) (RecoveryCond self) s s') :
    StampsOk log self s' := by
  cases hs with
  | background hstep hb =>
    have hconns : ∀ c ∈ _, c ∈ s.node.conns := fun c hc => hb.conns ▸ hc
    exact h.mono hconns rfl hstep.committed_le (fun c hc => h.tracked c (hconns c hc)) hb.answered
  | tracked i w hi hw epoch hr =>
    refine h.mono (fun _ => id) rfl le_rfl (fun c hc => ?_) fun _ hw _ => hw
    simp only [Tracker.set]
    split_ifs
    · rfl
    · exact h.tracked c hc
  | stamped i w hi hw epoch hr hfree hD =>
    refine h.restamp (hinv.committed w (mem_of_getElem? hi)) hr hD fun c hc => ?_
    exact .inl (some.inj hc).symm
  | filed c hc hD publishers =>
    have hstamp : c ∈ s.stamps := mem_append_right _ (mem_toList.2 hc)
    refine ⟨fun c' hc' => ?_, fun c' hc' => ?_⟩
    · rw [RecoveryState.stamps, toList_none, append_nil] at hc'
      have hold : c' ∈ s.stamps := by
        rcases mem_append.1 hc' with hc' | hc'
        · exact mem_append_left _ (mem_of_mem_filter hc')
        · exact mem_singleton.1 hc' ▸ hstamp
      exact (h.stamps c' hold).mono le_rfl fun _ hw _ => hw
    · rcases mem_append.1 hc' with hc' | hc'
      · exact h.tracked c' (mem_of_mem_filter hc')
      · exact mem_singleton.1 hc' ▸ hD
  | rejected i w hi hw r hr hno =>
    rcases hno with hno | hnone
    · exact h.refused hr hno fun _ => id
    · exact h.released hnone
  | closed publishers conns hsub =>
    exact h.mono hsub rfl le_rfl (fun c hc => h.tracked c (hsub c hc)) fun _ hw _ => hw
  | sync missed hD publishers => exact h.sync hD
  | cleared streamId epoch hD =>
    refine h.mono (fun _ => id) rfl le_rfl (fun c hc => ?_) fun _ hw _ => hw
    simp only [Tracker.clearIfEpoch]
    split_ifs with hepoch
    · obtain ⟨rfl, hepoch⟩ := hepoch
      exact absurd rfl (hD hepoch c hc)
    · exact h.tracked c hc
  | passCall p id todo hp hid owner hread hother acquiredAt =>
    refine h.mono (fun _ hc => hc) rfl le_rfl h.tracked fun w hw hcall => ?_
    rcases mem_append.1 hw with hw | hw
    · exact hw
    · rw [mem_singleton.1 hw] at hcall
      cases hcall
  | passGaveUp p todo i w hp hr =>
    refine h.mono (fun _ => id) rfl le_rfl h.tracked fun v hv hcall => ?_
    rcases mem_or_eq_of_mem_set hv with hv | rfl
    · exact hv
    · cases hcall
  | passReacquired p todo i w hp epoch hr hD hretag =>
    refine h.restamp (hinv.committed w (mem_of_getElem? hp.write)) hr hD fun c hc => ?_
    obtain ⟨c', hc', rfl⟩ := map_eq_some_iff.1 hc
    exact .inr ⟨c', hc', rfl⟩
  | passReleased p todo i w hp epoch hr hretag failed => exact h.released hretag
  | passConflict p todo i w hp hr publishers forced =>
    refine h.refused hr (fun _ => nofun) fun c hc => ?_
    split_ifs at hc
    · exact mem_of_mem_filter hc
    · exact hc
  | passRejected p todo i w hp hr => exact h.refused hr (fun _ => nofun) fun _ => id
  | _ => exact h.mono (fun _ => id) rfl le_rfl h.tracked fun _ hw _ => hw

end

theorem run (h : RecoveryRun log self (DropSafe log self) (RecoveryCond self) s) :
    StampsOk log self s := by
  induction h with
  | refl => exact ⟨fun _ hc => absurd hc not_mem_nil, fun _ hc => absurd hc not_mem_nil⟩
  | tail h hs ih => exact ih.step (AcquireInv.run (RecoveryRun.acquireRun h)) hs

end StampsOk

end Runs

/-! ### Two runs of node 1 -/

section Examples

variable {K : DropKind → AcquireState → AmbiguousAcquire → Prop}
  {D : RecoveryEvent → RecoveryState → Prop}

end Examples

end RtmpServer
