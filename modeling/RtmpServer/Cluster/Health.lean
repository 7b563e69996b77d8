import RtmpServer.Cluster.PlaySubscriptions
import RtmpServer.Lib.History

/-!
# Peers that are taken for dead

`HealthTracker` of `health.rs`. A peer is down once `sweep_stale` finds that its heartbeats are
missing, and when it has been down for a grace period the leader releases its streams. The maps are
functions of the node id, and a list of ids that is returned is the predicate of its members. The
load and the addresses of a note are left out.
-/

namespace RtmpServer

open Lib.History Option List Function

namespace NodeHealthState

def parse : String → Option NodeHealthState
  | "READY" => some .ready
  | "DRAINING" => some .draining
  | "DOWN" => some .down
  | "ISOLATED" => some .isolated
  | "JOINING" => some .joining
  | "LEARNER" => some .learner
  | "LEAVING" => some .leaving
  | _ => none

def fromHeartbeat (advertised : String) : NodeHealthState :=
  match parse advertised with
  | some .down | some .isolated | none => .ready
  | some other => other

theorem fromHeartbeat_ne_down (advertised : String) : fromHeartbeat advertised ≠ .down := by
  unfold fromHeartbeat
  split <;> simp_all

end NodeHealthState

structure PeerHealth where
  state : NodeHealthState
  lastSeen : Nat

structure HealthTracker (missLimit : Nat) where
  peers : UInt64 → Option PeerHealth
  downSince : UInt64 → Option Nat
  ownershipReleased : UInt64 → Bool

namespace HealthTracker

/-- The `miss_limit` of a heartbeat. Durations and instants are milliseconds here. -/
def missLimit (heartbeat : Nat) : Nat := max (heartbeat * 5) 2000

variable {limit : Nat}

def new (heartbeat : Nat) : HealthTracker (missLimit heartbeat) :=
  ⟨fun _ => none, fun _ => none, fun _ => false⟩

def notePeer (h : HealthTracker limit) (id : UInt64) (state : NodeHealthState) (now : Nat) :
    HealthTracker limit where
  peers := update h.peers id (some ⟨state, now⟩)
  downSince := update h.downSince id
    (if state = .down then some ((h.downSince id).getD now) else none)
  ownershipReleased := if state = .down then h.ownershipReleased
    else update h.ownershipReleased id false

def remove (h : HealthTracker limit) (id : UInt64) : HealthTracker limit :=
  { h with
    peers := update h.peers id none
    downSince := update h.downSince id none
    ownershipReleased := update h.ownershipReleased id false }

def stale (limit now : Nat) (p : PeerHealth) : Bool :=
  p.state ≠ .down && limit < now - p.lastSeen

/-- Also the peers that are newly down. -/
def sweepStale (h : HealthTracker limit) (now : Nat) : HealthTracker limit × (UInt64 → Bool) :=
  let down := fun id => (h.peers id).any (stale limit now)
  ({ h with
      peers := fun id => (h.peers id).map fun p =>
        if stale limit now p then { p with state := .down } else p
      downSince := fun id =>
        if down id then some ((h.downSince id).getD now) else h.downSince id }, down)

def peersReadyForOwnershipRelease (h : HealthTracker limit) (grace now : Nat) (id : UInt64) : Bool :=
  (h.downSince id).any fun since => !h.ownershipReleased id && grace ≤ now - since

def markOwnershipReleased (h : HealthTracker limit) (id : UInt64) : HealthTracker limit :=
  { h with ownershipReleased := update h.ownershipReleased id true }

end HealthTracker

/-- A call, with its time. The state of a note is that of a heartbeat. -/
inductive HealthOp where
  | note (id : UInt64) (advertised : String) (now : Nat)
  | remove (id : UInt64) (now : Nat)
  | sweep (now : Nat)
  | ready (grace now : Nat)
  | released (id : UInt64) (now : Nat)

namespace HealthOp

def time : HealthOp → Nat
  | .note _ _ now | .remove _ now | .sweep now | .ready _ now | .released _ now => now

def noted (id : UInt64) : HealthOp → Option Nat
  | .note id' _ now => if id' = id then some now else none
  | _ => none

theorem time_of_noted {id : UInt64} {op : HealthOp} {t : Nat} (h : op.noted id = some t) :
    op.time = t := by
  cases op with
  | note id' advertised now =>
    simp only [noted, ite_none_right_eq_some, some.injEq] at h
    exact h.2
  | _ => cases h

end HealthOp

namespace HealthTracker

variable {limit : Nat} {id : UInt64} {past : List HealthOp} {h : HealthTracker limit} {op : HealthOp}

def step (h : HealthTracker limit) : HealthOp → HealthTracker limit
  | .note id advertised now => h.notePeer id (.fromHeartbeat advertised) now
  | .remove id _ => h.remove id
  | .sweep now => (h.sweepStale now).1
  | .ready _ _ => h
  | .released id _ => h.markOwnershipReleased id

def seen (h : HealthTracker limit) (id : UInt64) : Option Nat := (h.peers id).map (·.lastSeen)

/-- What a call does to one peer: it notes it, forgets it, or leaves it, and may find it down. -/
theorem step_peer (h : HealthTracker limit) (op : HealthOp) (id : UInt64) :
    (op.noted id = some op.time ∧ (h.step op).seen id = some op.time ∧
      (h.step op).downSince id = none) ∨
    op.noted id = none ∧ ((h.step op).seen id = none ∧ (h.step op).downSince id = none ∨
      (h.step op).seen id = h.seen id ∧
        ((h.step op).downSince id = h.downSince id ∨ (h.step op).downSince id = some op.time ∧
          ∃ n, h.seen id = some n ∧ n + limit < op.time)) := by
  cases op with
  | note id' advertised now =>
    have hne := NodeHealthState.fromHeartbeat_ne_down advertised
    by_cases hid : id' = id
    · simp [step, notePeer, seen, hne, HealthOp.noted, HealthOp.time, hid]
    · simp [step, notePeer, seen, HealthOp.noted, hid, Ne.symm hid]
  | remove id' now =>
    by_cases hid : id = id' <;> simp [step, remove, seen, HealthOp.noted, hid]
  | sweep now =>
    refine .inr ⟨rfl, .inr ?_⟩
    cases hp : h.peers id with
    | none => simp [step, sweepStale, seen, hp]
    | some p =>
      cases hstale : stale limit now p with
      | false => simp [step, sweepStale, seen, hp, hstale]
      | true =>
        have hlt : limit < now - p.lastSeen := by simp_all [stale]
        cases hd : h.downSince id with
        | some d => simp [step, sweepStale, seen, hp, hstale, hd]
        | none => simpa [step, sweepStale, seen, hp, hstale, hd, HealthOp.time] using by omega
  | ready grace now | released id' now => exact .inr ⟨rfl, .inr ⟨rfl, .inl rfl⟩⟩

def notes (id : UInt64) (ops : List HealthOp) : List Nat := ops.filterMap (·.noted id)

/-- The tracker against the calls so far: a peer was last noted when it says, and one that is down
had been silent for the limit by then. -/
structure Tracks (id : UInt64) (past : List HealthOp) (h : HealthTracker limit) : Prop where
  noted : ∀ n, h.seen id = some n → n ∈ notes id past ∧ ∀ m ∈ notes id past, m ≤ n
  down : ∀ since, h.downSince id = some since → since ∈ past.map (·.time) ∧
    ∃ n, h.seen id = some n ∧ n + limit < since

theorem Tracks.step (ht : Tracks id past h) (hpast : ∀ x ∈ past, x.time ≤ op.time) :
    Tracks id (past ++ [op]) (h.step op) := by
  have hlast : ∀ n ∈ notes id past, n ≤ op.time := by
    intro n hn
    obtain ⟨x, hx, hxn⟩ := mem_filterMap.1 hn
    exact HealthOp.time_of_noted hxn ▸ hpast x hx
  have hnotes : notes id (past ++ [op]) = notes id past ++ (op.noted id).toList := by
    cases hop : op.noted id <;> simp [notes, hop]
  obtain ⟨hnoted, hdown⟩ := ht
  rcases h.step_peer op id with ⟨hop, hp, hd⟩ | ⟨hop, ⟨hp, hd⟩ | ⟨hp, hd⟩⟩
  · constructor <;> simp [hp, hd, hnotes, hop, or_imp, forall_and]
    exact hlast
  · constructor <;> simp [hp, hd]
  · rw [hop, toList_none, append_nil] at hnotes
    refine ⟨by simpa [hp, hnotes] using hnoted, fun since hs => ?_⟩
    rcases hd with hd | ⟨hd, hsilent⟩
    · obtain ⟨hmem, hsilent⟩ := hdown since (hd ▸ hs)
      exact ⟨by simp [hmem], hp ▸ hsilent⟩
    · obtain rfl : op.time = since := some.inj (hd.symm.trans hs)
      exact ⟨by simp, hp ▸ hsilent⟩

/-- `alive_voters`, given the state of the node itself. -/
def aliveVoters (h : HealthTracker limit) (own : NodeHealthState) (voters : List UInt64)
    (self : UInt64) : Nat :=
  voters.countP fun id =>
    if id = self then own ≠ .down else (h.peers id).any fun p => p.state ≠ .down

/-- When `health_loop` isolates the node. -/
def quorumLost (voters : List UInt64) (alive : Nat) : Bool :=
  voters ≠ [] ∧ alive < voters.length / 2 + 1

def Dead (h : HealthTracker limit) (id : UInt64) : Prop := ∀ p, h.peers id = some p → p.state = .down

theorem Dead.step (hd : h.Dead id) (hop : op.noted id = none) : (h.step op).Dead id := by
  cases op with
  | note id' advertised now =>
    have hid : id ≠ id' := by
      rintro rfl
      simp [HealthOp.noted] at hop
    simpa [Dead, HealthTracker.step, notePeer, hid] using hd
  | remove id' now => by_cases hid : id = id' <;> simp_all [Dead, HealthTracker.step, remove]
  | sweep now =>
    intro p hp
    obtain ⟨q, hq, rfl⟩ := map_eq_some_iff.1 hp
    simp [stale, hd q hq]
  | ready grace now | released id' now => exact hd

theorem Tracks.dead_sweep {t : Nat} (ht : Tracks id past h)
    (hsilent : ∀ n ∈ notes id past, n + limit < t) : (h.step (.sweep t)).Dead id := by
  intro p hp
  obtain ⟨q, hq, rfl⟩ := map_eq_some_iff.1 hp
  have hlt := hsilent q.lastSeen (ht.noted _ (by simp [seen, hq])).1
  by_cases hdown : q.state = .down
  · simp [stale, hdown]
  · rw [if_pos (by simp [stale, hdown]; omega)]

/-- The calls of a node to whom no voter outside `side` gets through: not for the limit before some
sweep, nor after it. -/
def CutOff (limit : Nat) (voters : List UInt64) (side : UInt64 → Bool) (ops : List HealthOp) : Prop :=
  ops.Pairwise (fun x y => x.time ≤ y.time) ∧ ∃ before t after, ops = before ++ .sweep t :: after ∧
    ∀ id ∈ voters, side id = false → (∀ n ∈ notes id before, n + limit < t) ∧ notes id after = []

theorem CutOff.aliveVoters_le {heartbeat : Nat} {voters : List UInt64} {side : UInt64 → Bool}
    {ops : List HealthOp} (h : CutOff (missLimit heartbeat) voters side ops) (own : NodeHealthState)
    (self : UInt64) (hself : side self) :
    (ops.foldl step (.new heartbeat)).aliveVoters own voters self ≤ voters.countP side := by
  obtain ⟨hops, before, t, after, rfl, hcut⟩ := h
  refine List.countP_mono_left fun id hid halive => ?_
  by_contra hside
  rw [Bool.not_eq_true] at hside
  obtain ⟨hbefore, hafter⟩ := hcut id hid hside
  have htracks : Tracks id before (before.foldl step (.new heartbeat)) :=
    foldl_history (List.pairwise_append.1 hops).1 ⟨nofun, nofun⟩ fun _ _ _ hpast hh => hh.step hpast
  have hdead : ((before ++ .sweep t :: after).foldl step (.new heartbeat)).Dead id := by
    rw [List.foldl_append, List.foldl_cons]
    exact List.foldlRecOn (motive := (Dead · id)) after _ (htracks.dead_sweep hbefore)
      fun h hd op hop => hd.step (List.filterMap_eq_nil_iff.1 hafter op hop)
  rw [if_neg (by rintro rfl; simp_all), Option.any_eq_true] at halive
  obtain ⟨p, hp, hstate⟩ := halive
  simp [hdead p hp] at hstate

/-- **No split brain.** When the voters fall apart in two sides for longer than the limit, no node of
the one has a quorum while a node of the other does. -/
theorem partition_one_quorum (heartbeat : Nat) (voters : List UInt64) (hvoters : voters ≠ [])
    (side : UInt64 → Bool) (i j : UInt64) (hi : side i) (hj : side j = false)
    (own own' : NodeHealthState) (ops ops' : List HealthOp)
    (hops : CutOff (missLimit heartbeat) voters side ops)
    (hops' : CutOff (missLimit heartbeat) voters (!side ·) ops') :
    quorumLost voters ((ops.foldl step (.new heartbeat)).aliveVoters own voters i) ∨
      quorumLost voters ((ops'.foldl step (.new heartbeat)).aliveVoters own' voters j) := by
  have hle := hops.aliveVoters_le own i hi
  have hle' := hops'.aliveVoters_le own' j (by simp [hj])
  have hsplit := length_eq_countP_add_countP side (l := voters)
  simp only [Bool.not_eq_true, Bool.decide_eq_false] at hsplit
  simp only [quorumLost, hvoters, decide_eq_true_eq, ne_eq, not_false_eq_true, true_and]
  omega

/-- Node 1 hears of nobody, node 3 of node 2. -/
theorem partition_one_quorum_three :
    quorumLost [1, 2, 3] (([.sweep 3000].foldl step (.new 0)).aliveVoters .ready [1, 2, 3] 1) ∧
      quorumLost [1, 2, 3] (([.sweep 3000, .note 2 "DOWN" 3000].foldl step (.new 0)).aliveVoters
        .ready [1, 2, 3] 3) = false :=
  ⟨(partition_one_quorum 0 [1, 2, 3] (by decide) (· == 1) 1 3 rfl rfl .ready .ready _ _
      ⟨by decide, [], 3000, [], rfl, fun _ _ _ => ⟨by simp [notes], rfl⟩⟩
      ⟨by decide, [], 3000, [.note 2 "DOWN" 3000], rfl, fun id _ hid => by
        simp_all [notes, HealthOp.noted]⟩).resolve_right (by decide), by decide⟩

end HealthTracker

/-- **A live peer keeps its streams.** A peer whose ownership is to be released was noted before,
and not within the limit and the grace period. -/
theorem live_peer_not_released (heartbeat grace t : Nat) (ops : List HealthOp)
    (hops : ops.Pairwise fun x y => x.time ≤ y.time) (ht : ∀ op ∈ ops, op.time ≤ t) (id : UInt64)
    (hready : (ops.foldl HealthTracker.step (.new heartbeat)).peersReadyForOwnershipRelease grace t
      id = true) :
    HealthTracker.notes id ops ≠ [] ∧ ∀ n ∈ HealthTracker.notes id ops,
      n + HealthTracker.missLimit heartbeat + grace < t := by
  have htracks : HealthTracker.Tracks id ops (ops.foldl HealthTracker.step (.new heartbeat)) :=
    foldl_history hops ⟨nofun, nofun⟩ fun past h op hpast hh => hh.step hpast
  obtain ⟨since, hsince, hgrace⟩ := (any_eq_true _ _).1 hready
  simp only [Bool.and_eq_true, decide_eq_true_eq] at hgrace
  obtain ⟨hmem, n, hn, hlt⟩ := htracks.down since hsince
  obtain ⟨x, hx, rfl⟩ := mem_map.1 hmem
  have hnow := ht x hx
  refine ⟨ne_nil_of_mem (htracks.noted n hn).1, fun m hm => ?_⟩
  have hseen := (htracks.noted n hn).2 m hm
  omega

/-- Node 2 is heard of once, advertising that it is down. -/
def silentPeer : List HealthOp := [.note 2 "DOWN" 0, .ready 5000 100, .sweep 3000, .ready 5000 7999]

theorem live_peer_not_released_silent :
    (silentPeer.foldl HealthTracker.step (.new 100)).peersReadyForOwnershipRelease 5000 8000 2 = true ∧
      ∀ n ∈ HealthTracker.notes 2 silentPeer, n + 2000 + 5000 < 8000 := by
  have hready : (silentPeer.foldl HealthTracker.step (.new 100)).peersReadyForOwnershipRelease
      5000 8000 2 = true := by decide
  exact ⟨hready, (live_peer_not_released 100 5000 8000 silentPeer (by decide) (by decide) 2 hready).2⟩

end RtmpServer
