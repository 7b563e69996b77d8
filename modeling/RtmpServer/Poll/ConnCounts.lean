import Mathlib.Algebra.Order.Group.Nat
import RtmpServer.Poll.ConnBudget

/-!
# Published counts

What the published counts say of the shards. Without new connections and sessions the connections
only become fewer, so that a count that covered them goes on to do so.
-/

namespace RtmpServer

open List Lib.Replay Function

/-! ### Fewer connections -/

structure Fewer (conns' conns : List ShardConn) : Prop where
  isOpen : conns'.countP (fun c => c.isOpen) ≤ conns.countP fun c => c.isOpen
  serving : conns'.countP ShardConn.serving ≤ conns.countP ShardConn.serving
  pending : conns'.countP ShardConn.pending ≤ conns.countP ShardConn.pending

theorem countP_isOpen_eq (conns : List ShardConn) :
    conns.countP (fun c => c.isOpen) =
      conns.countP ShardConn.serving + conns.countP ShardConn.pending := by
  induction conns with
  | nil => rfl
  | cons c conns ih =>
    simp only [countP_cons, ih]
    cases hopen : c.isOpen <;> cases hauth : c.authorized <;>
      simp [ShardConn.serving, ShardConn.pending, hopen, hauth] <;> omega

namespace Fewer

theorem refl (conns : List ShardConn) : Fewer conns conns :=
  ⟨Nat.le_refl _, Nat.le_refl _, Nat.le_refl _⟩

theorem reaped (conns : List ShardConn) : Fewer (conns.filter fun c => c.isOpen) conns :=
  ⟨filter_sublist.countP_le, filter_sublist.countP_le, filter_sublist.countP_le⟩

theorem countP_modify_le {p : ShardConn → Bool} (hp : ∀ c : ShardConn, p c.disconnect = false)
    (conns : List ShardConn) (place : Nat) :
    (conns.modify place ShardConn.disconnect).countP p ≤ conns.countP p := by
  induction conns generalizing place with
  | nil => simp
  | cons c conns ih =>
    cases place with
    | zero => simp [countP_cons, hp]
    | succ place =>
      have hle := ih place
      simp only [modify_succ_cons, countP_cons]
      omega

theorem dropped (conns : List ShardConn) (place : Nat) :
    Fewer (conns.modify place ShardConn.disconnect) conns :=
  ⟨countP_modify_le (fun _ => rfl) conns place, countP_modify_le (fun _ => rfl) conns place,
    countP_modify_le (fun _ => rfl) conns place⟩

theorem trimmed (global total : Nat) (conns : List ShardConn) :
    Fewer (trimConns global total conns).1 conns := by
  obtain ⟨hopen, hserving, -⟩ := trimConns_counts global total conns
  have hsplit := countP_isOpen_eq conns
  have hsplit' := countP_isOpen_eq (trimConns global total conns).1
  exact ⟨by omega, by omega, by omega⟩

end Fewer

namespace ShardBudgets

variable {n : Nat} {global : Nat} {s s' : ShardBudgets n}

def pendingConns (s : ShardBudgets n) (i : Fin n) : Nat := (s.shards i).conns.countP ShardConn.pending

theorem openConns_eq (s : ShardBudgets n) (i : Fin n) :
    s.openConns i = s.servingConns i + s.pendingConns i :=
  countP_isOpen_eq _

/-- A step of shard `i` without an accept or an authorisation: the other shards stay as they are,
and shard `i` gets no connections. -/
structure Quieter (i : Fin n) (s s' : ShardBudgets n) : Prop where
  shards : ∀ k, k ≠ i → s'.shards k = s.shards k
  counts : ∀ k, k ≠ i → s'.counts k = s.counts k
  fewer : Fewer (s'.shards i).conns (s.shards i).conns

namespace Quieter

variable {i : Fin n}

theorem openConns_le (h : Quieter i s s') (k : Fin n) : s'.openConns k ≤ s.openConns k := by
  by_cases hk : k = i
  · subst hk
    exact h.fewer.isOpen
  · rw [openConns, openConns, h.shards k hk]

theorem servingConns_le (h : Quieter i s s') (k : Fin n) : s'.servingConns k ≤ s.servingConns k := by
  by_cases hk : k = i
  · subst hk
    exact h.fewer.serving
  · rw [servingConns, servingConns, h.shards k hk]

theorem pendingConns_le (h : Quieter i s s') (k : Fin n) : s'.pendingConns k ≤ s.pendingConns k := by
  by_cases hk : k = i
  · subst hk
    exact h.fewer.pending
  · rw [pendingConns, pendingConns, h.shards k hk]

end Quieter

variable {i k : Fin n} {shard : BudgetShard n} {op : BudgetOp n} {count : Nat}

theorem openConns_le_length (s : ShardBudgets n) (i : Fin n) :
    s.openConns i ≤ (s.shards i).conns.length :=
  countP_le_length

theorem servingConns_le_openConns (s : ShardBudgets n) (i : Fin n) :
    s.servingConns i ≤ s.openConns i := by
  rw [openConns_eq]
  omega

theorem setShard_shards (s : ShardBudgets n) (i : Fin n) (shard : BudgetShard n) :
    (s.setShard i shard).shards i = shard :=
  update_self _ _ _

theorem quieter_setShard (s : ShardBudgets n) (i : Fin n) (shard : BudgetShard n)
    (h : Fewer shard.conns (s.shards i).conns) : Quieter i s (s.setShard i shard) := by
  refine ⟨fun k hk => update_of_ne hk _ _, fun k _ => rfl, ?_⟩
  rw [setShard_shards]
  exact h

theorem quieter_setCount (s : ShardBudgets n) (i : Fin n) (count : Nat) (shard : BudgetShard n)
    (h : Fewer shard.conns (s.shards i).conns) :
    Quieter i s ((s.setCount i count).setShard i shard) := by
  refine ⟨fun k hk => update_of_ne hk _ _, fun k hk => update_of_ne hk _ _, ?_⟩
  rw [setShard_shards]
  exact h

/-! ### Before -/

def Counted (s : ShardBudgets n) : Prop :=
  ∀ i own rest sum, (s.shards i).phase = .trimming own rest sum → own = (s.shards i).conns.length

theorem Counted.setShard (h : s.Counted) (i : Fin n)
    (hshard : ∀ own rest sum, shard.phase = .trimming own rest sum → own = shard.conns.length) :
    (s.setShard i shard).Counted := by
  intro k own rest sum hp
  by_cases hk : k = i
  · subst hk
    rw [setShard_shards] at hp ⊢
    exact hshard own rest sum hp
  · have hsame : (s.setShard i shard).shards k = s.shards k := update_of_ne hk _ _
    rw [hsame] at hp ⊢
    exact h k own rest sum hp

theorem Counted.setShard_of_ne (h : s.Counted) (i : Fin n)
    (hshard : ∀ own rest sum, shard.phase ≠ .trimming own rest sum) :
    (s.setShard i shard).Counted :=
  h.setShard i fun own rest sum hp => absurd hp (hshard own rest sum)

theorem Counted.step (h : s.Counted) (hstep : s.step global op = some s') : s'.Counted := by
  cases moves_of_step hstep with
  | publish i hp =>
    exact Counted.setShard_of_ne (s := s.setCount i (s.shards i).conns.length) h i (by simp)
  | trim i own sum hp => exact Counted.setShard_of_ne (s := s.setCount i _) h i (by simp)
  | loadCap i k rest sum hp => exact h.setShard_of_ne i (by simp)
  | limit i sum hp => exact h.setShard_of_ne i (by simp)
  | poll i accepted hp => exact h.setShard_of_ne i (by simp)
  | loadTrim i k own rest sum hp =>
    refine h.setShard i fun own' rest' sum' hp' => ?_
    cases hp'
    exact h i own (k :: rest) sum hp
  | count i hp =>
    refine h.setShard i fun own rest sum hp => ?_
    cases hp
    rfl
  | authorize i place =>
    refine h.setShard i fun own rest sum hp => ?_
    rw [length_modify]
    exact h i own rest sum hp
  | drop i place =>
    refine h.setShard i fun own rest sum hp => ?_
    rw [length_modify]
    exact h i own rest sum hp

theorem Counted.trim_le (h : s.Counted) (global : Nat) {own sum : Nat}
    (hp : (s.shards i).phase = .trimming own [] sum) :
    (trimConns global (own + sum) (s.shards i).conns).1.countP (fun c => c.isOpen) ≤
      own - (trimConns global (own + sum) (s.shards i).conns).2 := by
  obtain ⟨hopen, -, -⟩ := trimConns_counts global (own + sum) (s.shards i).conns
  have hown := h i own [] sum hp
  have hlen := s.openConns_le_length i
  rw [openConns] at hlen
  omega

/-- A shard has published at least its connections with a session. -/
def Covered (s : ShardBudgets n) (k : Fin n) : Prop := s.servingConns k ≤ s.counts k

theorem Covered.setShard (h : s.Covered k) (i : Fin n)
    (hfewer : Fewer shard.conns (s.shards i).conns) : (s.setShard i shard).Covered k :=
  Nat.le_trans ((s.quieter_setShard i shard hfewer).servingConns_le k) h

theorem Covered.of_setCount (h : s.Covered k ∨ k = i)
    (hfewer : Fewer shard.conns (s.shards i).conns)
    (hcount : shard.conns.countP ShardConn.serving ≤ count) :
    ((s.setCount i count).setShard i shard).Covered k := by
  by_cases hk : k = i
  · subst hk
    have hcounts : ((s.setCount k count).setShard k shard).counts k = count :=
      update_self _ _ _
    rw [Covered, servingConns, setShard_shards, hcounts]
    exact hcount
  · have hq := s.quieter_setCount i count shard hfewer
    rw [Covered, hq.counts k hk]
    exact Nat.le_trans (hq.servingConns_le k) (h.resolve_right hk)

theorem Covered.step (h : s.Covered k ∨ op = .publish k) (hcounted : s.Counted)
    (hop : op.quiet) (hstep : s.step global op = some s') : s'.Covered k := by
  cases moves_of_step hstep with
  | publish i hp =>
    refine .of_setCount (h.imp_right fun hop => ?_) (.refl _) countP_le_length
    cases hop
    rfl
  | loadCap i j rest sum hp => exact (h.resolve_right (by simp)).setShard i (.refl _)
  | loadTrim i j own rest sum hp => exact (h.resolve_right (by simp)).setShard i (.refl _)
  | limit i sum hp => exact (h.resolve_right (by simp)).setShard i (.refl _)
  | count i hp => exact (h.resolve_right (by simp)).setShard i (.refl _)
  | poll i accepted hp =>
    rw [BudgetOp.quiet, List.isEmpty_iff] at hop
    subst hop
    exact (h.resolve_right (by simp)).setShard i (by simpa using Fewer.reaped (s.shards i).conns)
  | trim i own sum hp =>
    refine .of_setCount (.inl (h.resolve_right (by simp)))
      (.trimmed global (own + sum) (s.shards i).conns) ?_
    have hsplit := countP_isOpen_eq (trimConns global (own + sum) (s.shards i).conns).1
    have hle := hcounted.trim_le global hp
    dsimp only
    omega
  | authorize i place => cases hop
  | drop i place => exact (h.resolve_right (by simp)).setShard i (.dropped _ place)

theorem covered_run {ops : List (BudgetOp n)} (h : s.Covered k ∨ .publish k ∈ ops)
    (hcounted : s.Counted) (hops : ∀ op ∈ ops, op.quiet)
    (hrun : replay (step global) s ops = some s') : s'.Covered k := by
  induction ops generalizing s with
  | nil =>
    cases hrun
    exact h.resolve_right not_mem_nil
  | cons op ops ih =>
    obtain ⟨s₁, hstep, hrun⟩ := replay_cons_eq_some.1 hrun
    have hquiet := hops op mem_cons_self
    refine ih ?_ (hcounted.step hstep) (fun op hop => hops op (mem_cons_of_mem _ hop)) hrun
    rcases h with h | h
    · exact .inl (Covered.step (.inl h) hcounted hquiet hstep)
    · rcases mem_cons.1 h with h | h
      · exact .inl (Covered.step (.inr h.symm) hcounted hquiet hstep)
      · exact .inr h

end ShardBudgets

end RtmpServer
