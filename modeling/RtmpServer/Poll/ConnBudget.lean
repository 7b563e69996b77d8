import Mathlib.Algebra.BigOperators.Fin
import RtmpServer.Lib.Replay

/-!
# The connection cap across shards

Every shard polls its own connections, and `ShardConnBudget` keeps their total under the configured
cap: a shard publishes its count, takes what the others leave free as its own limit for the poll,
and after the poll closes its newest connections without a session when the counts together are too
many. The counts are atomics of their own, so that each shard decides from counts that may be
outdated.
-/

namespace RtmpServer

open List Lib.Replay
open Option hiding map_map mem_map

/-! ### One shard -/

/-- A connection in `server.connections`, open as long as `client_fd >= 0`. -/
structure ShardConn where
  connId : UInt64
  isOpen : Bool
  authorized : Bool
  deriving DecidableEq, Repr

namespace ShardConn

/-- Closed first: without `has_authorized_session`. -/
def pending (c : ShardConn) : Bool := c.isOpen && !c.authorized

def serving (c : ShardConn) : Bool := c.isOpen && c.authorized

/-- `disconnect_transport`. -/
def disconnect (c : ShardConn) : ShardConn := { c with isOpen := false }

end ShardConn

/-- `Reverse(conn_id)`. -/
def newerFirst (a b : UInt64 × Nat) : Prop := b.1 ≤ a.1

instance : DecidableRel newerFirst := fun a b => inferInstanceAs (Decidable (b.1 ≤ a.1))

/-- The ids and places of the connections without a session, newest first. -/
def newestPending (conns : List ShardConn) : List (UInt64 × Nat) :=
  ((conns.zipIdx.filter fun p => p.1.pending).map fun p => (p.1.connId, p.2)).insertionSort newerFirst

def disconnectAt (conns : List ShardConn) (places : List Nat) : List ShardConn :=
  conns.zipIdx.map fun p => if p.2 ∈ places then p.1.disconnect else p.1

def trimmedPlaces (global total : Nat) (conns : List ShardConn) : List Nat :=
  ((newestPending conns).take (total - global)).map Prod.snd

/-- The trim of `after_poll`, with the number of connections closed. -/
def trimConns (global total : Nat) (conns : List ShardConn) : List ShardConn × Nat :=
  if global < total then
    (disconnectAt conns (trimmedPlaces global total conns), (trimmedPlaces global total conns).length)
  else (conns, 0)

/-! ### All shards -/

/-- `capping` and `trimming` are the loads of `others` in `before_poll` and `after_poll`: the shards
still to load and the sum so far. -/
inductive BudgetPhase (n : Nat) where
  | idle
  | capping (rest : List (Fin n)) (sum : Nat)
  | polling
  | polled
  | trimming (own : Nat) (rest : List (Fin n)) (sum : Nat)
  deriving DecidableEq

structure BudgetShard (n : Nat) where
  conns : List ShardConn
  maxConnections : Nat
  phase : BudgetPhase n

structure ShardBudgets (n : Nat) where
  counts : Fin n → Nat
  shards : Fin n → BudgetShard n

inductive BudgetOp (n : Nat) where
  /-- `before_poll` stores the shard's count. -/
  | publish (i : Fin n)
  /-- The next load of `others`. -/
  | load (i : Fin n)
  /-- `before_poll` sets the limit. -/
  | limit (i : Fin n)
  /-- The poll reaps what was dropped and accepts connections. -/
  | poll (i : Fin n) (accepted : List UInt64)
  /-- `after_poll` takes the shard's count. -/
  | count (i : Fin n)
  /-- `after_poll` closes connections and stores what is left. -/
  | trim (i : Fin n)
  /-- A session of the connection at a place is authorised. -/
  | authorize (i : Fin n) (place : Nat)
  /-- The connection at a place is dropped. -/
  | drop (i : Fin n) (place : Nat)
  deriving DecidableEq

namespace ShardBudgets

variable {n : Nat}

/-- Any connections and any counts, with every shard between two ticks. -/
def start (conns : Fin n → List ShardConn) (counts : Fin n → Nat) : ShardBudgets n :=
  ⟨counts, fun i => ⟨conns i, 1, .idle⟩⟩

def others (i : Fin n) : List (Fin n) := (List.finRange n).filter (· ≠ i)

def setShard (s : ShardBudgets n) (i : Fin n) (shard : BudgetShard n) : ShardBudgets n :=
  { s with shards := Function.update s.shards i shard }

def setCount (s : ShardBudgets n) (i : Fin n) (count : Nat) : ShardBudgets n :=
  { s with counts := Function.update s.counts i count }

/-- The limit a shard takes: librtmp2 reads 0 as no limit. -/
def freeConns (global sum : Nat) : Nat := min (max (global - sum) 1) 0x7FFFFFFF

def step (global : Nat) (s : ShardBudgets n) : BudgetOp n → Option (ShardBudgets n)
  | .publish i =>
    let shard := s.shards i
    if shard.phase = .idle then
      some ((s.setCount i shard.conns.length).setShard i { shard with phase := .capping (others i) 0 })
    else none
  | .load i =>
    let shard := s.shards i
    match shard.phase with
    | .capping (k :: rest) sum =>
      some (s.setShard i { shard with phase := .capping rest (sum + s.counts k) })
    | .trimming own (k :: rest) sum =>
      some (s.setShard i { shard with phase := .trimming own rest (sum + s.counts k) })
    | _ => none
  | .limit i =>
    let shard := s.shards i
    match shard.phase with
    | .capping [] sum =>
      some (s.setShard i { shard with maxConnections := freeConns global sum, phase := .polling })
    | _ => none
  | .poll i accepted =>
    let shard := s.shards i
    let conns := shard.conns.filter (·.isOpen) ++ accepted.map (⟨·, true, false⟩)
    if shard.phase = .polling ∧ (accepted = [] ∨ conns.length ≤ shard.maxConnections) then
      some (s.setShard i { shard with conns, phase := .polled })
    else none
  | .count i =>
    let shard := s.shards i
    if shard.phase = .polled then
      some (s.setShard i { shard with phase := .trimming shard.conns.length (others i) 0 })
    else none
  | .trim i =>
    let shard := s.shards i
    match shard.phase with
    | .trimming own [] sum =>
      let (conns, trimmed) := trimConns global (own + sum) shard.conns
      some ((s.setCount i (own - trimmed)).setShard i { shard with conns, phase := .idle })
    | _ => none
  | .authorize i place =>
    let shard := s.shards i
    some (s.setShard i
      { shard with conns := shard.conns.modify place fun c => { c with authorized := true } })
  | .drop i place =>
    let shard := s.shards i
    some (s.setShard i { shard with conns := shard.conns.modify place ShardConn.disconnect })

/-- The open connections of a shard, and those of them with a session. -/
def openConns (s : ShardBudgets n) (i : Fin n) : Nat := (s.shards i).conns.countP (·.isOpen)

def servingConns (s : ShardBudgets n) (i : Fin n) : Nat := (s.shards i).conns.countP ShardConn.serving

end ShardBudgets

def BudgetOp.quiet {n : Nat} : BudgetOp n → Bool
  | .poll _ accepted => accepted.isEmpty
  | .authorize _ _ => false
  | _ => true

/-! ### Trimming -/

instance : Std.Total newerFirst := ⟨fun a b => UInt64.le_total b.1 a.1⟩

instance : IsTrans (UInt64 × Nat) newerFirst := ⟨fun _ _ _ hab hbc => UInt64.le_trans hbc hab⟩

section Trim

variable {conns : List ShardConn} {places : List Nat} {global total : Nat}

theorem mem_newestPending {x : UInt64 × Nat} :
    x ∈ newestPending conns ↔ ∃ c, conns[x.2]? = some c ∧ c.pending ∧ c.connId = x.1 := by
  simp only [newestPending, mem_insertionSort, mem_map, mem_filter,
    mem_zipIdx_iff_getElem?]
  constructor
  · rintro ⟨⟨c, i⟩, ⟨hc, hpending⟩, rfl⟩
    exact ⟨c, hc, hpending, rfl⟩
  · rintro ⟨c, hc, hpending, hid⟩
    exact ⟨(c, x.2), ⟨hc, hpending⟩, by rw [hid]⟩

theorem nodup_newestPending : ((newestPending conns).map Prod.snd).Nodup := by
  have hperm := (perm_insertionSort newerFirst
    ((conns.zipIdx.filter fun p => p.1.pending).map fun p => (p.1.connId, p.2))).map Prod.snd
  rw [newestPending, hperm.nodup_iff, map_map]
  have hsub : ((conns.zipIdx.filter fun p => p.1.pending).map Prod.snd).Sublist
      (range' 0 conns.length) := by
    rw [← zipIdx_map_snd]
    exact filter_sublist.map _
  exact hsub.nodup nodup_range'

theorem mem_trimmedPlaces {i : Nat} (h : i ∈ trimmedPlaces global total conns) :
    ∃ c, conns[i]? = some c ∧ c.pending = true := by
  obtain ⟨x, hx, rfl⟩ := mem_map.1 h
  obtain ⟨c, hc, hpending, -⟩ := mem_newestPending.1 (mem_of_mem_take hx)
  exact ⟨c, hc, hpending⟩

theorem nodup_trimmedPlaces : (trimmedPlaces global total conns).Nodup :=
  ((take_sublist _ _).map _).nodup nodup_newestPending

theorem le_of_trimmed {i j : Nat} {c d : ShardConn} (hi : i ∈ trimmedPlaces global total conns)
    (hj : j ∉ trimmedPlaces global total conns) (hc : conns[i]? = some c) (hd : conns[j]? = some d)
    (hpending : d.pending) : d.connId ≤ c.connId := by
  have hsorted := pairwise_insertionSort newerFirst
    ((conns.zipIdx.filter fun p => p.1.pending).map fun p => (p.1.connId, p.2))
  rw [← newestPending, ← take_append_drop (total - global) (newestPending conns),
    pairwise_append] at hsorted
  obtain ⟨x, hx, rfl⟩ := mem_map.1 hi
  have hmem : (d.connId, j) ∈ newestPending conns := mem_newestPending.2 ⟨d, hd, hpending, rfl⟩
  rw [← take_append_drop (total - global) (newestPending conns), mem_append] at hmem
  have hdrop := hmem.resolve_left fun htake => hj (mem_map_of_mem htake)
  obtain ⟨c', hc', -, hid⟩ := mem_newestPending.1 (mem_of_mem_take hx)
  obtain rfl : c' = c := some.inj (hc'.symm.trans hc)
  rw [hid]
  exact hsorted.2.2 x hx _ hdrop

theorem getElem?_disconnectAt (conns : List ShardConn) (places : List Nat) (i : Nat) :
    (disconnectAt conns places)[i]? =
      conns[i]?.map fun c => if i ∈ places then c.disconnect else c := by
  simp only [disconnectAt, getElem?_map, getElem?_zipIdx, Option.map_map, Nat.zero_add]
  rfl

theorem countP_zipIdx (p : ShardConn → Bool) (conns : List ShardConn) :
    conns.countP p = conns.zipIdx.countP fun x => p x.1 := by
  conv_lhs => rw [← zipIdx_map_fst 0 conns, countP_map]
  rfl

theorem countP_places (hnodup : places.Nodup) {p : ShardConn → Bool}
    (hplaces : ∀ i ∈ places, ∃ c, conns[i]? = some c ∧ p c) :
    conns.zipIdx.countP (fun x => p x.1 && decide (x.2 ∈ places)) = places.length := by
  have hnodup' : ((conns.zipIdx.filter fun x => p x.1 && decide (x.2 ∈ places)).map Prod.snd).Nodup := by
    refine List.Sublist.nodup ?_ (nodup_range' (s := 0) (n := conns.length))
    rw [← zipIdx_map_snd]
    exact filter_sublist.map _
  have hperm : ((conns.zipIdx.filter fun x => p x.1 && decide (x.2 ∈ places)).map Prod.snd).Perm
      places := by
    rw [perm_ext_iff_of_nodup hnodup' hnodup]
    intro i
    simp only [mem_map, mem_filter, mem_zipIdx_iff_getElem?, Bool.and_eq_true,
      decide_eq_true_eq]
    constructor
    · rintro ⟨x, ⟨-, -, hx⟩, rfl⟩
      exact hx
    · intro hi
      obtain ⟨c, hc, hp⟩ := hplaces i hi
      exact ⟨(c, i), ⟨hc, hp, hi⟩, rfl⟩
  rw [← hperm.length_eq, length_map, countP_eq_length_filter]

theorem countP_isOpen_disconnectAt (hnodup : places.Nodup)
    (hplaces : ∀ i ∈ places, ∃ c, conns[i]? = some c ∧ c.isOpen) :
    (disconnectAt conns places).countP (fun c => c.isOpen) + places.length =
      conns.countP fun c => c.isOpen := by
  have hcount := countP_places hnodup hplaces
  have hrest : (disconnectAt conns places).countP (fun c => c.isOpen) =
      conns.zipIdx.countP fun x => x.1.isOpen && !decide (x.2 ∈ places) := by
    rw [disconnectAt, countP_map]
    refine countP_congr fun x _ => ?_
    by_cases hx : x.2 ∈ places <;> simp [hx, ShardConn.disconnect]
  have hsplit := countP_eq_countP_filter_add conns.zipIdx (fun x => x.1.isOpen)
    fun x => decide (x.2 ∈ places)
  rw [countP_filter, countP_filter, hcount, ← hrest] at hsplit
  rw [countP_zipIdx _ conns, hsplit, Nat.add_comm]

theorem countP_serving_disconnectAt (hplaces : ∀ i ∈ places, ∃ c, conns[i]? = some c ∧ c.pending) :
    (disconnectAt conns places).countP ShardConn.serving = conns.countP ShardConn.serving := by
  rw [countP_zipIdx _ conns, disconnectAt, countP_map]
  refine countP_congr fun x hx => ?_
  rw [mem_zipIdx_iff_getElem?] at hx
  by_cases hmem : x.2 ∈ places
  · obtain ⟨c, hc, hpending⟩ := hplaces x.2 hmem
    obtain rfl : x.1 = c := some.inj (hx.symm.trans hc)
    simp only [ShardConn.pending, Bool.and_eq_true, Bool.not_eq_true'] at hpending
    simp [hmem, ShardConn.serving, ShardConn.disconnect, hpending.2]
  · simp [hmem]

theorem length_trimmedPlaces {j : Nat} {d : ShardConn} (hd : conns[j]? = some d)
    (hpending : d.pending) (hj : j ∉ trimmedPlaces global total conns) :
    (trimmedPlaces global total conns).length = total - global := by
  have hmem : (d.connId, j) ∈ newestPending conns := mem_newestPending.2 ⟨d, hd, hpending, rfl⟩
  rw [trimmedPlaces, length_map, length_take, min_eq_left_iff]
  by_contra hlt
  refine hj (mem_map.2 ⟨(d.connId, j), ?_, rfl⟩)
  rwa [take_of_length_le (by omega)]

/-- Connections without a session are closed, and none is left that is newer than a closed one. -/
structure Trimmed (conns conns' : List ShardConn) : Prop where
  closes : ∀ i : Nat, conns'[i]? = conns[i]? ∨
    ∃ c : ShardConn, conns[i]? = some c ∧ c.pending = true ∧ conns'[i]? = some c.disconnect
  newest : ∀ (i j : Nat) (c d : ShardConn), conns[i]? = some c → c.isOpen = true →
    conns'[i]? = some c.disconnect → conns'[j]? = some d → d.pending = true → d.connId ≤ c.connId

theorem pending_disconnectAt {j : Nat} {d : ShardConn} (hd : (disconnectAt conns places)[j]? = some d)
    (hpending : d.pending) : conns[j]? = some d ∧ j ∉ places := by
  rw [getElem?_disconnectAt, map_eq_some_iff] at hd
  obtain ⟨c, hc, rfl⟩ := hd
  by_cases hj : j ∈ places
  · simp [hj, ShardConn.pending, ShardConn.disconnect] at hpending
  · simp [hj, hc]

theorem trimmed_trimConns (global total : Nat) (conns : List ShardConn) :
    Trimmed conns (trimConns global total conns).1 := by
  unfold trimConns
  split
  · refine ⟨fun i => ?_, fun i j c d hc hopen hclosed hd hpending => ?_⟩
    · rw [getElem?_disconnectAt]
      by_cases hi : i ∈ trimmedPlaces global total conns
      · obtain ⟨c, hc, hpending⟩ := mem_trimmedPlaces hi
        exact .inr ⟨c, hc, hpending, by simp [hc, hi]⟩
      · simp [hi]
    · obtain ⟨hd, hj⟩ := pending_disconnectAt hd hpending
      have hi : i ∈ trimmedPlaces global total conns := by
        by_contra hi
        rw [getElem?_disconnectAt, hc, map_some, if_neg hi, some.injEq] at hclosed
        rw [hclosed, ShardConn.disconnect] at hopen
        cases hopen
      exact le_of_trimmed hi hj hc hd hpending
  · refine ⟨fun i => .inl rfl, fun i j c d hc hopen hclosed => ?_⟩
    rw [hc, some.injEq] at hclosed
    rw [hclosed, ShardConn.disconnect] at hopen
    cases hopen

theorem trimConns_counts (global total : Nat) (conns : List ShardConn) :
    (trimConns global total conns).1.countP (fun c => c.isOpen) + (trimConns global total conns).2 =
        conns.countP (fun c => c.isOpen) ∧
      (trimConns global total conns).1.countP ShardConn.serving = conns.countP ShardConn.serving ∧
      ((∀ c ∈ (trimConns global total conns).1, c.pending = false) ∨
        (trimConns global total conns).2 = total - global) := by
  unfold trimConns
  split
  · have hplaces : ∀ i ∈ trimmedPlaces global total conns, ∃ c, conns[i]? = some c ∧ c.pending = true :=
      fun i hi => mem_trimmedPlaces hi
    refine ⟨countP_isOpen_disconnectAt nodup_trimmedPlaces fun i hi => ?_,
      countP_serving_disconnectAt hplaces, ?_⟩
    · obtain ⟨c, hc, hpending⟩ := hplaces i hi
      simp only [ShardConn.pending, Bool.and_eq_true] at hpending
      exact ⟨c, hc, hpending.1⟩
    · rw [or_iff_not_imp_left]
      intro hleft
      simp only [not_forall, Bool.not_eq_false] at hleft
      obtain ⟨d, hd, hpending⟩ := hleft
      obtain ⟨j, hj⟩ := mem_iff_getElem?.1 hd
      obtain ⟨hd, hj⟩ := pending_disconnectAt hj hpending
      exact length_trimmedPlaces hd hpending hj
  · exact ⟨rfl, rfl, .inr (by omega)⟩

end Trim

/-! ### Steps -/

namespace ShardBudgets

variable {n : Nat} {global : Nat} {s s' : ShardBudgets n}

inductive Moves (global : Nat) (s : ShardBudgets n) : BudgetOp n → ShardBudgets n → Prop where
  | publish (i : Fin n) (hp : (s.shards i).phase = .idle) :
    Moves global s (.publish i) ((s.setCount i (s.shards i).conns.length).setShard i
      { s.shards i with phase := .capping (others i) 0 })
  | loadCap (i k : Fin n) (rest : List (Fin n)) (sum : Nat)
    (hp : (s.shards i).phase = .capping (k :: rest) sum) :
    Moves global s (.load i)
      (s.setShard i { s.shards i with phase := .capping rest (sum + s.counts k) })
  | loadTrim (i k : Fin n) (own : Nat) (rest : List (Fin n)) (sum : Nat)
    (hp : (s.shards i).phase = .trimming own (k :: rest) sum) :
    Moves global s (.load i)
      (s.setShard i { s.shards i with phase := .trimming own rest (sum + s.counts k) })
  | limit (i : Fin n) (sum : Nat) (hp : (s.shards i).phase = .capping [] sum) :
    Moves global s (.limit i)
      (s.setShard i { s.shards i with maxConnections := freeConns global sum, phase := .polling })
  | poll (i : Fin n) (accepted : List UInt64) (hp : (s.shards i).phase = .polling) :
    Moves global s (.poll i accepted) (s.setShard i
      { s.shards i with
        conns := (s.shards i).conns.filter (·.isOpen) ++ accepted.map (⟨·, true, false⟩)
        phase := .polled })
  | count (i : Fin n) (hp : (s.shards i).phase = .polled) :
    Moves global s (.count i) (s.setShard i
      { s.shards i with phase := .trimming (s.shards i).conns.length (others i) 0 })
  | trim (i : Fin n) (own sum : Nat) (hp : (s.shards i).phase = .trimming own [] sum) :
    Moves global s (.trim i)
      ((s.setCount i (own - (trimConns global (own + sum) (s.shards i).conns).2)).setShard i
        { s.shards i with
          conns := (trimConns global (own + sum) (s.shards i).conns).1, phase := .idle })
  | authorize (i : Fin n) (place : Nat) :
    Moves global s (.authorize i place) (s.setShard i
      { s.shards i with
        conns := (s.shards i).conns.modify place fun c => { c with authorized := true } })
  | drop (i : Fin n) (place : Nat) :
    Moves global s (.drop i place)
      (s.setShard i { s.shards i with conns := (s.shards i).conns.modify place ShardConn.disconnect })

theorem moves_of_step {op : BudgetOp n} (h : s.step global op = some s') : Moves global s op s' := by
  cases op with
  | publish i =>
    simp only [step, ite_none_right_eq_some, some.injEq] at h
    obtain ⟨hp, rfl⟩ := h
    exact .publish i hp
  | load i =>
    simp only [step] at h
    split at h
    · rename_i k rest sum hp
      obtain rfl := some.inj h
      exact .loadCap i k rest sum hp
    · rename_i own k rest sum hp
      obtain rfl := some.inj h
      exact .loadTrim i k own rest sum hp
    · cases h
  | limit i =>
    simp only [step] at h
    split at h
    · rename_i sum hp
      obtain rfl := some.inj h
      exact .limit i sum hp
    · cases h
  | poll i accepted =>
    simp only [step, ite_none_right_eq_some, some.injEq] at h
    obtain ⟨⟨hp, -⟩, rfl⟩ := h
    exact .poll i accepted hp
  | count i =>
    simp only [step, ite_none_right_eq_some, some.injEq] at h
    obtain ⟨hp, rfl⟩ := h
    exact .count i hp
  | trim i =>
    simp only [step] at h
    split at h
    · rename_i own sum hp
      obtain rfl := some.inj h
      exact .trim i own sum hp
    · cases h
  | authorize i place =>
    obtain rfl := some.inj h
    exact .authorize i place
  | drop i place =>
    obtain rfl := some.inj h
    exact .drop i place

end ShardBudgets

end RtmpServer
