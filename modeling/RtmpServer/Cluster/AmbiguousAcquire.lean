import RtmpServer.Cluster.Ownership
import RtmpServer.Cluster.StorageErrors

/-!
# Acquires the caller gave up on

`acquire_stream_owner` waits two seconds for its write. When it gives up, the write may still
commit, so it queues a record, and every health tick looks at the records: one whose row has
appeared is released, one whose stream has no row is kept.

The committed log is fixed for a run, and a state says how much of it is committed and how much the
local database has applied. A run interleaves calls, commits, local applies, ticks that work through
the drained records one by one, and time.

A tick drops a record in three cases (`DropKind`). None of them asks whether the write is still
open: the row the tick finds may be an earlier owner's, the record may have aged while the row was
waiting to be applied or released, and a second write of the same second shares the record.
-/

namespace RtmpServer

open Option List Lib.Table Lib.Replay

/-! ### Records and writes -/

/-- `AMBIGUOUS_ACQUIRE_MAX_AGE`, in seconds. -/
def ambiguousAcquireMaxAge : Nat := 600

structure AmbiguousAcquire where
  streamId : String
  nodeId : UInt64
  acquiredAt : Int
  queuedAt : Nat
  deriving DecidableEq, Repr

/-- How a call of `acquire_stream_owner` whose write was dispatched stands. -/
inductive CallState where
  | waiting
  | answered
  | gaveUp (since : Nat)
  deriving DecidableEq, Repr

/-- A dispatched acquire of this node, with the index it was committed at. -/
structure AcquireWrite where
  streamId : String
  acquiredAt : Int
  call : CallState
  committed : Option Nat
  deriving DecidableEq, Repr

/-- One node: how far the log is committed and applied, its acquires, the queue, the records the
running tick has drained, the release it waits for, the local publisher rows and the stream and
epoch of each publishing connection. -/
structure AcquireState where
  committed : Nat
  applied : Nat
  clock : Nat
  writes : List AcquireWrite
  pending : List AmbiguousAcquire
  draining : List AmbiguousAcquire
  releasing : Option (AmbiguousAcquire × UInt64)
  publishers : List Publisher
  conns : List (String × UInt64)

def AcquireState.start : AcquireState := ⟨0, 0, 0, [], [], [], none, [], []⟩

def AcquireState.records (s : AcquireState) : List AmbiguousAcquire :=
  s.pending ++ s.draining ++ s.releasing.toList.map Prod.fst

/-- `stream_owner_get` on the local database. -/
def RaftLog.localOwner (log : RaftLog) (applied : Nat) (streamId : String) : Option StreamOwner :=
  (log.stateAt applied).bind fun db => db.streamOwnerGet streamId

/-! ### The tick -/

/-- The stream, node and second of a record, all that tells one write from another. -/
def AmbiguousAcquire.isFor (r : AmbiguousAcquire) (streamId : String) (nodeId : UInt64)
    (acquiredAt : Int) : Bool :=
  r.streamId = streamId ∧ r.nodeId = nodeId ∧ r.acquiredAt = acquiredAt

def queueAmbiguousAcquire (pending : List AmbiguousAcquire) (r : AmbiguousAcquire) :
    List AmbiguousAcquire :=
  if pending.any fun q => q.isFor r.streamId r.nodeId r.acquiredAt then pending else pending ++ [r]

def AmbiguousAcquire.agedOut (clock : Nat) (r : AmbiguousAcquire) : Bool :=
  ambiguousAcquireMaxAge ≤ clock - r.queuedAt

/-- `requeue_ambiguous_acquire`. -/
def AcquireState.requeue (s : AcquireState) (r : AmbiguousAcquire) : AcquireState :=
  if r.agedOut s.clock then s else { s with pending := s.pending ++ [r] }

inductive Verdict where
  | requeue
  | superseded
  | release (epoch : UInt64)
  deriving DecidableEq, Repr

/-- The body of the loop of `reconcile_ambiguous_acquires`, up to the release. `publishers` are the
active ones, nothing when the lookup failed. -/
def reconcileVerdict (owner : Option StreamOwner) (publishers : Option (List Publisher))
    (r : AmbiguousAcquire) : Verdict :=
  match owner with
  | none => .requeue
  | some o =>
    if o.ownerNodeId ≠ r.nodeId ∨ o.acquiredAt ≠ r.acquiredAt then .superseded
    else
      match publishers with
      | none => .requeue
      | some ps => if ps.any (·.active) then .requeue else .release o.epoch

theorem reconcileVerdict_eq_superseded {owner : Option StreamOwner}
    {publishers : Option (List Publisher)} {r : AmbiguousAcquire} :
    reconcileVerdict owner publishers r = .superseded ↔
      ∃ o, owner = some o ∧ (o.ownerNodeId ≠ r.nodeId ∨ o.acquiredAt ≠ r.acquiredAt) := by
  cases owner with
  | none => simp [reconcileVerdict]
  | some o =>
    simp only [reconcileVerdict, some.injEq, exists_eq_left']
    split_ifs with h
    · simp [h]
    · cases publishers with
      | none => simp [h]
      | some ps =>
        dsimp only
        split_ifs <;> simp [h]

/-- `publisher_list_checked`. -/
def AcquireState.publisherList (s : AcquireState) (streamId : String) : List Publisher :=
  s.publishers.filter fun p => p.streamId = streamId ∧ p.active = true

inductive DropKind where
  | superseded
  | agedOut
  | released
  deriving DecidableEq, Repr

section Runs

variable (log : RaftLog) (self : UInt64)
variable {s : AcquireState} {w : AcquireWrite} {o : StreamOwner}

/-- What the tick reads of a record's stream. A failed read of the row looks like a missing row. -/
structure Reads (s : AcquireState) (r : AmbiguousAcquire) (owner : Option StreamOwner)
    (publishers : Option (List Publisher)) : Prop where
  owner : owner = log.localOwner s.applied r.streamId ∨ owner = none
  publishers : publishers = some (s.publisherList r.streamId) ∨ publishers = none

/-- One step of the node or of its surroundings. `D` says when a record may be dropped. -/
inductive AcquireStep (D : DropKind → AcquireState → AmbiguousAcquire → Prop) (s : AcquireState) :
    AcquireState → Prop
  | wait (clock : Nat) (h : s.clock ≤ clock) : AcquireStep D s { s with clock := clock }
  | sessions (publishers : List Publisher) (conns : List (String × UInt64)) :
    AcquireStep D s { s with publishers := publishers, conns := conns }
  | call (streamId : String) (acquiredAt : Int) :
    AcquireStep D s { s with writes := s.writes ++ [⟨streamId, acquiredAt, .waiting, none⟩] }
  | answer (i : Nat) (w : AcquireWrite) (hi : s.writes[i]? = some w) (hw : w.call = .waiting)
      (hc : w.committed.isSome = true) :
    AcquireStep D s { s with writes := s.writes.set i { w with call := .answered } }
  | giveUp (i : Nat) (w : AcquireWrite) (hi : s.writes[i]? = some w) (hw : w.call = .waiting) :
    AcquireStep D s { s with
      writes := s.writes.set i { w with call := .gaveUp s.clock }
      pending := queueAmbiguousAcquire s.pending ⟨w.streamId, self, w.acquiredAt, s.clock⟩ }
  /-- Acquires for this node are only written by this node. -/
  | commit (e : Entry) (he : log.entries[s.committed]? = some e)
      (hother : ∀ streamId ep acquiredAt,
        e.payload ≠ .normal (.acquireStreamOwner streamId self ep acquiredAt)) :
    AcquireStep D s { s with committed := s.committed + 1 }
  /-- A write that was given up on commits within the maximal age or never. -/
  | commitOwn (i : Nat) (w : AcquireWrite) (e : Entry) (ep : UInt64)
      (he : log.entries[s.committed]? = some e) (hi : s.writes[i]? = some w)
      (hp : e.payload = .normal (.acquireStreamOwner w.streamId self ep w.acquiredAt))
      (hnone : w.committed = none)
      (hage : ∀ since, w.call = .gaveUp since → s.clock < since + ambiguousAcquireMaxAge) :
    AcquireStep D s { s with
      committed := s.committed + 1
      writes := s.writes.set i { w with committed := some (s.committed + 1) } }
  | apply (h : s.applied < s.committed) (hs : (log.stateAt (s.applied + 1)).isSome = true) :
    AcquireStep D s { s with applied := s.applied + 1 }
  | drain (hd : s.draining = []) (hr : s.releasing = none) :
    AcquireStep D s { s with draining := s.pending, pending := [] }
  | keep (r : AmbiguousAcquire) (rest : List AmbiguousAcquire) (hd : s.draining = r :: rest)
      (hr : s.releasing = none) (owner : Option StreamOwner) (publishers : Option (List Publisher))
      (hreads : Reads log s r owner publishers)
      (hv : reconcileVerdict owner publishers r = .requeue)
      (hD : r.agedOut s.clock = true → D .agedOut s r) :
    AcquireStep D s (AcquireState.requeue { s with draining := rest } r)
  | supersede (r : AmbiguousAcquire) (rest : List AmbiguousAcquire) (hd : s.draining = r :: rest)
      (hr : s.releasing = none) (owner : Option StreamOwner) (publishers : Option (List Publisher))
      (hreads : Reads log s r owner publishers)
      (hv : reconcileVerdict owner publishers r = .superseded) (hD : D .superseded s r) :
    AcquireStep D s { s with draining := rest }
  | release (r : AmbiguousAcquire) (rest : List AmbiguousAcquire) (hd : s.draining = r :: rest)
      (hr : s.releasing = none) (owner : Option StreamOwner) (publishers : Option (List Publisher))
      (hreads : Reads log s r owner publishers) (epoch : UInt64)
      (hv : reconcileVerdict owner publishers r = .release epoch) :
    AcquireStep D s { s with draining := rest, releasing := some (r, epoch) }
  | releaseFailed (r : AmbiguousAcquire) (epoch : UInt64) (hr : s.releasing = some (r, epoch))
      (hD : r.agedOut s.clock = true → D .agedOut s r) :
    AcquireStep D s (AcquireState.requeue { s with releasing := none } r)
  | released (r : AmbiguousAcquire) (epoch : UInt64) (hr : s.releasing = some (r, epoch))
      (k : Nat) (e : Entry) (hk : k < s.committed) (he : log.entries[k]? = some e)
      (hp : e.payload = .normal (.releaseStreamOwner r.streamId epoch)) (hD : D .released s r) :
    AcquireStep D s { s with releasing := none }

abbrev AcquireRun (D : DropKind → AcquireState → AmbiguousAcquire → Prop) (s : AcquireState) : Prop :=
  Relation.ReflTransGen (AcquireStep log self D) .start s

/-! ### Ghost owners -/

/-- The write was given up on and can still bring a row: it is in flight and young enough, or
committed and not yet applied here. -/
def AcquireState.Open (s : AcquireState) (w : AcquireWrite) : Prop :=
  match w.call, w.committed with
  | .gaveUp since, none => s.clock < since + ambiguousAcquireMaxAge
  | .gaveUp _, some k => s.applied < k
  | _, _ => False

/-- The local row of the stream is the one the write wrote. -/
def AcquireState.HoldsRow (s : AcquireState) (w : AcquireWrite) : Prop :=
  ∃ o, log.localOwner s.applied w.streamId = some o ∧ w.committed = some o.epoch.toNat

def AcquireWrite.GivenUp (w : AcquireWrite) : Prop := ∃ since, w.call = .gaveUp since

def AcquireState.Tracked (s : AcquireState) (w : AcquireWrite) : Prop :=
  ∃ r ∈ s.records, r.isFor w.streamId self w.acquiredAt = true

/-- Every local row of a write that was given up on has a record, or a connection that publishes
the stream under the row's epoch. -/
def NoGhost (s : AcquireState) : Prop :=
  ∀ w ∈ s.writes, w.GivenUp → ∀ o, log.localOwner s.applied w.streamId = some o →
    w.committed = some o.epoch.toNat → s.Tracked self w ∨ (w.streamId, o.epoch) ∈ s.conns

/-- A record may be dropped: no write it stands for is open and, where the tick did not just see
another acquire's row, none holds the row. A connection that publishes under the row's epoch is no
excuse, since it may end and leave the row behind. -/
def DropSafe (kind : DropKind) (s : AcquireState) (r : AmbiguousAcquire) : Prop :=
  ∀ w ∈ s.writes, w.GivenUp → r.isFor w.streamId self w.acquiredAt = true →
    ¬ s.Open w ∧ (kind = .superseded ∨ ¬ s.HoldsRow log w)

/-! ### Local rows -/

variable {log} {self}

theorem RaftLog.localOwner_eq_some {i : Nat} {streamId : String} :
    log.localOwner i streamId = some o ↔ log.HasOwner i o ∧ o.streamId = streamId := by
  constructor
  · intro h
    obtain ⟨db, hdb, hget⟩ := bind_eq_some_iff.1 h
    obtain ⟨row, hrow, rfl⟩ := map_eq_some_iff.1 hget
    have hid : row.streamId = streamId := key_of_lookup hrow
    exact ⟨⟨db, hdb, mem_map_of_mem (mem_of_lookup hrow)⟩, hid⟩
  · rintro ⟨⟨db, hdb, ho⟩, hid⟩
    obtain ⟨row, hrow, rfl⟩ := mem_map.1 ho
    have hlook := (RaftLog.stateAt_schemaOk hdb).ownerStream.lookup_eq_some.2 ⟨hrow, hid⟩
    exact bind_eq_some_iff.2 ⟨db, hdb, map_eq_some_iff.2 ⟨row, hlook, rfl⟩⟩

/-! ### The invariant -/

variable (log self)

def AcquireWrite.CommittedAs (w : AcquireWrite) (committed : Nat) : Prop :=
  ∀ k, w.committed = some k → ∃ i e ep, k = i + 1 ∧ i < committed ∧ log.entries[i]? = some e ∧
    e.payload = .normal (.acquireStreamOwner w.streamId self ep w.acquiredAt)

/-- A write that was given up on is tracked as long as it is open or holds the row. -/
structure AcquireInv (node : UInt64) (s : AcquireState) : Prop where
  committed : ∀ w ∈ s.writes, w.CommittedAs log node s.committed
  tracked : ∀ w ∈ s.writes, w.GivenUp → s.Open w ∨ s.HoldsRow log w → s.Tracked node w

variable {log self}

theorem AcquireState.HoldsRow.row (hc : w.CommittedAs log self s.committed)
    (ho : log.localOwner s.applied w.streamId = some o) (hk : w.committed = some o.epoch.toNat) :
    o.ownerNodeId = self ∧ o.acquiredAt = w.acquiredAt := by
  obtain ⟨i, e, ep, hi, -, he, hp⟩ := hc _ hk
  have hg := (RaftLog.localOwner_eq_some.1 ho).1.lastGrant.grant
  rw [hi] at hg
  obtain ⟨ep', hp'⟩ := hg.payload he
  rw [hp, EntryPayload.normal.injEq, ClusterCommand.acquireStreamOwner.injEq] at hp'
  exact ⟨hp'.2.1.symm, hp'.2.2.2.symm⟩

theorem not_holdsRow_of_superseded {r : AmbiguousAcquire}
    (hc : w.CommittedAs log self s.committed) (hr : r.isFor w.streamId self w.acquiredAt)
    {owner : Option StreamOwner} {publishers : Option (List Publisher)}
    (hreads : Reads log s r owner publishers)
    (hv : reconcileVerdict owner publishers r = .superseded) : ¬ s.HoldsRow log w := by
  rintro ⟨o, ho, hk⟩
  obtain ⟨hstream, hnode, hat⟩ := of_decide_eq_true hr
  obtain ⟨hself, hacq⟩ := AcquireState.HoldsRow.row hc ho hk
  obtain ⟨o', ho', hne⟩ := reconcileVerdict_eq_superseded.1 hv
  have hread : owner = some o := by
    rcases hreads.owner with h | h
    · rw [h, hstream, ho]
    · rw [h] at ho'
      cases ho'
  rw [hread, some.injEq] at ho'
  subst ho'
  rw [hself, hacq, hnode, hat] at hne
  simp at hne

variable (log self) in
def Forgettable (s : AcquireState) (r : AmbiguousAcquire) : Prop :=
  ∀ w ∈ s.writes, w.GivenUp → r.isFor w.streamId self w.acquiredAt = true →
    ¬ s.Open w ∧ ¬ s.HoldsRow log w

namespace AcquireInv

variable {s : AcquireState}
variable {releasing : Option (AmbiguousAcquire × UInt64)} {r : AmbiguousAcquire} {w : AcquireWrite}
  {i : Nat}

theorem forgettable_of_superseded (h : AcquireInv log self s) {owner : Option StreamOwner}
    {publishers : Option (List Publisher)} (hreads : Reads log s r owner publishers)
    (hv : reconcileVerdict owner publishers r = .superseded)
    (hD : DropSafe log self .superseded s r) : Forgettable log self s r := fun w hw hg hr =>
  ⟨(hD w hw hg hr).1, not_holdsRow_of_superseded (h.committed w hw) hr hreads hv⟩

theorem forgettable_of_dropSafe {kind : DropKind} (hk : kind ≠ .superseded)
    (hD : DropSafe log self kind s r) :
    Forgettable log self s r := fun w hw hg hr =>
  ⟨(hD w hw hg hr).1, (hD w hw hg hr).2.resolve_left hk⟩

section

variable (h : AcquireInv log self s)
include h

theorem queue {pending draining : List AmbiguousAcquire}
    (hrec : ∀ r ∈ s.records,
      r ∈ pending ++ draining ++ releasing.toList.map Prod.fst ∨ Forgettable log self s r) :
    AcquireInv log self
      { s with pending := pending, draining := draining, releasing := releasing } := by
  refine ⟨h.committed, fun w hw hg hopen => ?_⟩
  obtain ⟨r, hr, hfor⟩ := h.tracked w hw hg hopen
  rcases hrec r hr with hr' | hforget
  · exact ⟨r, hr', hfor⟩
  · obtain ⟨hno, hnr⟩ := hforget w hw hg hfor
    exact absurd hopen (not_or.2 ⟨hno, hnr⟩)

theorem requeue {draining : List AmbiguousAcquire}
    (hrec : ∀ q ∈ s.records, q = r ∨ q ∈ s.pending ++ draining ++ releasing.toList.map Prod.fst)
    (hage : r.agedOut s.clock → Forgettable log self s r) :
    AcquireInv log self
      (AcquireState.requeue { s with draining := draining, releasing := releasing } r) := by
  unfold AcquireState.requeue
  dsimp only
  split_ifs with haged
  · refine h.queue fun q hq => ?_
    rcases hrec q hq with rfl | hq
    · exact .inr (hage haged)
    · exact .inl hq
  · refine h.queue fun q hq => .inl ?_
    rcases hrec q hq with rfl | hq
    · simp
    · simp only [mem_append] at hq ⊢
      tauto

theorem apply :
    AcquireInv log self { s with applied := s.applied + 1 } := by
  refine ⟨h.committed, fun w hw hg hopen => h.tracked w hw hg ?_⟩
  rcases hopen with hopen | ⟨o, ho, hk⟩
  · left
    unfold AcquireState.Open at hopen ⊢
    split at hopen
    · exact hopen
    · exact Nat.lt_of_succ_lt hopen
    · exact hopen
  · by_cases hne : o.epoch.toNat = s.applied + 1
    · -- the entry just applied is the write itself
      left
      obtain ⟨since, hcall⟩ := hg
      simp only [AcquireState.Open, hcall, hk, hne]
      omega
    · obtain ⟨hrow, hid⟩ := RaftLog.localOwner_eq_some.1 ho
      exact .inr ⟨o, RaftLog.localOwner_eq_some.2 ⟨hrow.of_succ hne, hid⟩, hk⟩

theorem giveUp (hi : s.writes[i]? = some w) :
    AcquireInv log self { s with
      writes := s.writes.set i { w with call := .gaveUp s.clock }
      pending := queueAmbiguousAcquire s.pending ⟨w.streamId, self, w.acquiredAt, s.clock⟩ } := by
  have hsub : ∀ r ∈ s.pending,
      r ∈ queueAmbiguousAcquire s.pending ⟨w.streamId, self, w.acquiredAt, s.clock⟩ := by
    intro r hr
    unfold queueAmbiguousAcquire
    split_ifs
    · exact hr
    · exact mem_append_left _ hr
  have hnew : ∃ r ∈ queueAmbiguousAcquire s.pending ⟨w.streamId, self, w.acquiredAt, s.clock⟩,
      r.isFor w.streamId self w.acquiredAt = true := by
    unfold queueAmbiguousAcquire
    split_ifs with hany
    · exact any_eq_true.1 hany
    · exact ⟨_, mem_append_right _ (mem_singleton.2 rfl), by simp [AmbiguousAcquire.isFor]⟩
  refine ⟨fun v hv => ?_, fun v hv hg hopen => ?_⟩
  · rcases mem_or_eq_of_mem_set hv with hv | rfl
    · exact h.committed v hv
    · exact h.committed w (mem_of_getElem? hi)
  · rcases mem_or_eq_of_mem_set hv with hv | rfl
    · obtain ⟨r, hr, hfor⟩ := h.tracked v hv hg hopen
      refine ⟨r, ?_, hfor⟩
      simp only [AcquireState.records, mem_append] at hr ⊢
      exact hr.imp_left fun hr => hr.imp_left (hsub r)
    · obtain ⟨r, hr, hfor⟩ := hnew
      exact ⟨r, mem_append_left _ (mem_append_left _ hr), hfor⟩

theorem commitOwn {e : Entry} {ep : UInt64}
    (he : log.entries[s.committed]? = some e) (hi : s.writes[i]? = some w)
    (hp : e.payload = .normal (.acquireStreamOwner w.streamId self ep w.acquiredAt))
    (hnone : w.committed = none)
    (hage : ∀ since, w.call = .gaveUp since → s.clock < since + ambiguousAcquireMaxAge) :
    AcquireInv log self { s with
      committed := s.committed + 1
      writes := s.writes.set i { w with committed := some (s.committed + 1) } } := by
  refine ⟨fun v hv k hk => ?_, fun v hv hg hopen => ?_⟩
  · rcases mem_or_eq_of_mem_set hv with hv | rfl
    · obtain ⟨j, f, ep', hj, hlt, hf⟩ := h.committed v hv k hk
      exact ⟨j, f, ep', hj, by dsimp only; omega, hf⟩
    · cases hk
      exact ⟨s.committed, e, ep, rfl, by dsimp only; omega, he, hp⟩
  · rcases mem_or_eq_of_mem_set hv with hv | rfl
    · exact h.tracked v hv hg hopen
    · -- until now it was in flight
      obtain ⟨since, hcall⟩ := hg
      refine h.tracked w (mem_of_getElem? hi) ⟨since, hcall⟩ (.inl ?_)
      simp only [AcquireState.Open, show w.call = .gaveUp since from hcall, hnone]
      exact hage since hcall

end

theorem start : AcquireInv log self .start :=
  ⟨fun _ hw => absurd hw not_mem_nil, fun _ hw => absurd hw not_mem_nil⟩

theorem step (h : AcquireInv log self s) {s' : AcquireState}
    (hs : AcquireStep log self (DropSafe log self) s s') : AcquireInv log self s' := by
  cases hs with
  | wait clock hle =>
    refine ⟨h.committed, fun w hw hg hopen => h.tracked w hw hg (hopen.imp_left fun hopen => ?_)⟩
    unfold AcquireState.Open at hopen ⊢
    split at hopen
    · exact Nat.lt_of_le_of_lt hle hopen
    · exact hopen
    · exact hopen
  | sessions publishers conns => exact ⟨h.committed, h.tracked⟩
  | call streamId acquiredAt =>
    refine ⟨fun w hw k hk => ?_, fun w hw hg hopen => ?_⟩
    · rcases mem_append.1 hw with hw | hw
      · exact h.committed w hw k hk
      · rw [mem_singleton.1 hw] at hk
        cases hk
    · rcases mem_append.1 hw with hw | hw
      · exact h.tracked w hw hg hopen
      · obtain ⟨since, hcall⟩ := hg
        rw [mem_singleton.1 hw] at hcall
        cases hcall
  | answer i w hi hw hc =>
    refine ⟨fun v hv => ?_, fun v hv hg hopen => ?_⟩
    · rcases mem_or_eq_of_mem_set hv with hv | rfl
      · exact h.committed v hv
      · exact h.committed w (mem_of_getElem? hi)
    · rcases mem_or_eq_of_mem_set hv with hv | rfl
      · exact h.tracked v hv hg hopen
      · obtain ⟨since, hcall⟩ := hg
        cases hcall
  | giveUp i w hi hw => exact h.giveUp hi
  | commit e he hother =>
    refine ⟨fun w hw k hk => ?_, h.tracked⟩
    obtain ⟨i, f, ep, hi, hlt, hf⟩ := h.committed w hw k hk
    exact ⟨i, f, ep, hi, Nat.lt_succ_of_lt hlt, hf⟩
  | commitOwn i w e ep he hi hp hnone hage => exact h.commitOwn he hi hp hnone hage
  | apply hlt hs => exact h.apply
  | drain hd hr => exact h.queue fun r hrec => .inl (by simpa [AcquireState.records, hd] using hrec)
  | keep r rest hd hr owner publishers hreads hv hD =>
    refine h.requeue (fun q hq => ?_) fun haged => forgettable_of_dropSafe (by decide) (hD haged)
    simp only [AcquireState.records, hd, mem_append, mem_cons] at hq ⊢
    tauto
  | supersede r rest hd hr owner publishers hreads hv hD =>
    refine h.queue fun q hq => ?_
    simp only [AcquireState.records, hd, mem_append, mem_cons] at hq ⊢
    rcases hq with (hq | rfl | hq) | hq
    · exact .inl (.inl (.inl hq))
    · exact .inr (h.forgettable_of_superseded hreads hv hD)
    · exact .inl (.inl (.inr hq))
    · exact .inl (.inr hq)
  | release r rest hd hr owner publishers hreads epoch hv =>
    refine h.queue fun q hq => .inl ?_
    simp only [AcquireState.records, hd, hr, mem_append, mem_cons] at hq ⊢
    simp only [toList_none, toList_some, map_nil, map_cons,
      not_mem_nil, mem_singleton, or_false] at hq ⊢
    tauto
  | releaseFailed r epoch hr hD =>
    refine h.requeue (fun q hq => ?_) fun haged => forgettable_of_dropSafe (by decide) (hD haged)
    simp only [AcquireState.records, hr, mem_append] at hq ⊢
    simp only [toList_none, toList_some, map_nil, map_cons,
      not_mem_nil, mem_singleton, or_false] at hq ⊢
    tauto
  | released r epoch hr k e hk he hp hD =>
    refine h.queue fun q hq => ?_
    simp only [AcquireState.records, hr, mem_append] at hq ⊢
    rcases hq with hq | hq
    · exact .inl (.inl hq)
    · rw [toList_some, map_singleton, mem_singleton] at hq
      rw [hq]
      exact .inr (forgettable_of_dropSafe (by decide) hD)

theorem run (h : AcquireRun log self (DropSafe log self) s) : AcquireInv log self s := by
  induction h with
  | refl => exact start
  | tail _ hs ih => exact ih.step hs

end AcquireInv

/-- **No ghost owner.** Where records are only dropped once their writes are closed, every local row
of an acquire its caller gave up on has a record. -/
theorem no_ghost_owner {s : AcquireState} (h : AcquireRun log self (DropSafe log self) s) :
    NoGhost log self s := fun w hw hg o ho hk =>
  .inl ((AcquireInv.run h).tracked w hw hg (.inr ⟨o, ho, hk⟩))

end Runs

/-! ### Two runs of node 1 -/

/-- Node 1 acquires the stream right after it was created. -/
def lateAcquire : RaftLog where
  entries :=
    [⟨⟨1, 1, 1⟩, .normal (.createStream cameraStream cameraViewer "t")⟩,
      ⟨⟨1, 1, 2⟩, .normal (.acquireStreamOwner "cam" 1 1 5)⟩]
  index_eq := by decide
  length_lt := by decide

/-- The write lands after a tick that found no row; the next tick finds it and releases it. -/
theorem no_ghost_owner_late : ∃ s, AcquireRun lateAcquire 1 (DropSafe lateAcquire 1) s ∧
    lateAcquire.localOwner s.applied "cam" = some ⟨"cam", 1, 2, 5⟩ ∧
      s.releasing.isSome = true ∧ NoGhost lateAcquire 1 s := by
  have hwaiting : AcquireRun lateAcquire 1 (DropSafe lateAcquire 1) _ :=
    .tail (.tail (.tail .refl (.commit _ rfl nofun)) (.apply (by decide) (by decide)))
      (.call "cam" 5)
  have hkept : AcquireRun lateAcquire 1 (DropSafe lateAcquire 1) _ :=
    .tail (.tail (.tail hwaiting (.giveUp 0 _ rfl rfl)) (.drain rfl rfl))
      (.keep _ _ rfl rfl _ _ ⟨.inl rfl, .inl rfl⟩ (by decide) (fun h => absurd h (by decide)))
  have hlanded : AcquireRun lateAcquire 1 (DropSafe lateAcquire 1) _ :=
    .tail (.tail hkept (.commitOwn 0 _ _ 1 rfl rfl rfl rfl fun since h => by
      cases h
      decide)) (.apply (by decide) (by decide))
  have hreleasing : AcquireRun lateAcquire 1 (DropSafe lateAcquire 1) _ :=
    .tail (.tail hlanded (.drain rfl rfl))
      (.release _ _ rfl rfl _ _ ⟨.inl rfl, .inl rfl⟩ 2 (by decide))
  exact ⟨_, hreleasing, by decide, rfl, no_ghost_owner hreleasing⟩

/-- Node 2 owns the stream and releases it before the write of node 1 is committed. -/
def overtakenAcquire : RaftLog where
  entries :=
    [⟨⟨1, 1, 1⟩, .normal (.createStream cameraStream cameraViewer "t")⟩,
      ⟨⟨1, 1, 2⟩, .normal (.acquireStreamOwner "cam" 2 1 3)⟩,
      ⟨⟨1, 1, 3⟩, .normal (.releaseStreamOwner "cam" 2)⟩,
      ⟨⟨1, 1, 4⟩, .normal (.acquireStreamOwner "cam" 1 3 5)⟩]
  index_eq := by decide
  length_lt := by decide

/-- The tick finds the row of node 2 and drops the record of a write that lands afterwards. -/
theorem superseded_record_leaves_ghost :
    ∃ s, AcquireRun overtakenAcquire 1 (fun _ _ _ => True) s ∧ s.applied = s.committed ∧
      s.records = [] ∧ ¬ NoGhost overtakenAcquire 1 s := by
  have hother : ∀ streamId ep acquiredAt, EntryPayload.normal (.acquireStreamOwner "cam" 2 1 3) ≠
      .normal (.acquireStreamOwner streamId 1 ep acquiredAt) := by simp
  have howned : AcquireRun overtakenAcquire 1 (fun _ _ _ => True) _ :=
    .tail (.tail (.tail (.tail .refl (.commit _ rfl nofun)) (.apply (by decide) (by decide)))
      (.commit _ rfl hother)) (.apply (by decide) (by decide))
  have hdropped : AcquireRun overtakenAcquire 1 (fun _ _ _ => True) _ :=
    .tail (.tail (.tail (.tail howned (.call "cam" 5)) (.giveUp 0 _ rfl rfl)) (.drain rfl rfl))
      (.supersede _ _ rfl rfl _ _ ⟨.inl rfl, .inl rfl⟩ (by decide) trivial)
  have hreleased : AcquireRun overtakenAcquire 1 (fun _ _ _ => True) _ :=
    .tail (.tail hdropped (.commit _ rfl nofun)) (.apply (by decide) (by decide))
  have hlanded : AcquireRun overtakenAcquire 1 (fun _ _ _ => True) _ :=
    .tail (.tail hreleased (.commitOwn 0 _ _ 3 rfl rfl rfl rfl fun since h => by
      cases h
      decide)) (.apply (by decide) (by decide))
  refine ⟨_, hlanded, rfl, rfl, fun hghost => ?_⟩
  rcases hghost _ (mem_singleton.2 rfl) ⟨0, rfl⟩ ⟨"cam", 1, 4, 5⟩ (by decide) rfl with
    ⟨r, hr, -⟩ | hconn
  · cases hr
  · cases hconn

end RtmpServer
