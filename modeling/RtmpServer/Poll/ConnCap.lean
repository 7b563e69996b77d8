import Mathlib.Algebra.Order.BigOperators.Group.List
import RtmpServer.Poll.ConnCounts

/-!
# The cap over a run

From the point on where no connection is accepted or authorised, the connections of a shard only
become fewer. A shard that has published since is counted by the others with at least what it has
left, any other with at least its connections with a session. The shard with connections left to
close whose trim was the latest has counted every other such shard in full.
-/

namespace RtmpServer

open Option List Lib.Replay Function

/-! ### The clock -/

/-- When a shard first published, when its trim in progress took its count, and when its last
finished trim did. -/
structure BudgetClock (n : Nat) where
  now : Nat
  fresh : Fin n → Option Nat
  asked : Fin n → Nat
  settled : Fin n → Option Nat

namespace BudgetClock

variable {n : Nat}
variable {g : BudgetClock n} {k : Fin n} {ops : List (BudgetOp n)} {t : Nat}

def start : BudgetClock n := ⟨0, fun _ => none, fun _ => 0, fun _ => none⟩

def tick (g : BudgetClock n) : BudgetOp n → BudgetClock n
  | .publish i =>
    { g with
      now := g.now + 1
      fresh := update g.fresh i (some ((g.fresh i).getD (g.now + 1))) }
  | .count i => { g with asked := update g.asked i g.now }
  | .trim i =>
    { g with
      settled := update g.settled i
        (if (g.fresh i).isSome then some (g.asked i) else g.settled i) }
  | _ => g

def freshBy (g : BudgetClock n) (t : Nat) (k : Fin n) : Bool := (g.fresh k).any (· ≤ t)

theorem freshBy_iff : g.freshBy t k ↔ ∃ t', g.fresh k = some t' ∧ t' ≤ t := by
  simp [freshBy, Option.any_eq_true]

/-- A step of shard `i` later. -/
structure Later (i : Fin n) (g g' : BudgetClock n) : Prop where
  now : g.now ≤ g'.now
  fresh : ∀ k, k ≠ i → g'.fresh k = g.fresh k
  asked : ∀ k, k ≠ i → g'.asked k = g.asked k
  settled : ∀ k, k ≠ i → g'.settled k = g.settled k
  /-- What is fresh stays so, and what becomes fresh does so now. -/
  freshSelf : g'.fresh i = g.fresh i ∨ g.fresh i = none ∧ g'.fresh i = some (g.now + 1)

theorem Later.freshBy {i : Fin n} {g g' : BudgetClock n} (h : Later i g g') (ht : t ≤ g.now)
    (k : Fin n) : g'.freshBy t k = g.freshBy t k := by
  by_cases hk : k = i
  · subst hk
    rcases h.freshSelf with heq | ⟨hnone, hnew⟩
    · rw [BudgetClock.freshBy, BudgetClock.freshBy, heq]
    · have hlt : ¬ g.now + 1 ≤ t := by omega
      simp [BudgetClock.freshBy, hnone, hnew, hlt]
  · rw [BudgetClock.freshBy, BudgetClock.freshBy, h.fresh k hk]

theorem Later.refl (i : Fin n) (g : BudgetClock n) : Later i g g :=
  ⟨Nat.le_refl _, fun _ _ => rfl, fun _ _ => rfl, fun _ _ => rfl, .inl rfl⟩

theorem fresh_publish (g : BudgetClock n) (i : Fin n) :
    (g.tick (.publish i)).fresh i = some ((g.fresh i).getD (g.now + 1)) :=
  update_self _ _ _

theorem settled_trim (g : BudgetClock n) (i : Fin n) :
    (g.tick (.trim i)).settled i = if (g.fresh i).isSome then some (g.asked i) else g.settled i :=
  update_self _ _ _

theorem later_publish (g : BudgetClock n) (i : Fin n) : Later i g (g.tick (.publish i)) := by
  refine ⟨Nat.le_succ _, fun _ hk => update_of_ne hk _ _, fun _ _ => rfl, fun _ _ => rfl, ?_⟩
  rw [fresh_publish]
  cases g.fresh i with
  | none => exact .inr ⟨rfl, rfl⟩
  | some t => exact .inl rfl

theorem later_count (g : BudgetClock n) (i : Fin n) : Later i g (g.tick (.count i)) :=
  ⟨Nat.le_refl _, fun _ _ => rfl, fun _ hk => update_of_ne hk _ _, fun _ _ => rfl, .inl rfl⟩

theorem later_trim (g : BudgetClock n) (i : Fin n) : Later i g (g.tick (.trim i)) :=
  ⟨Nat.le_refl _, fun _ _ => rfl, fun _ _ => rfl, fun _ hk => update_of_ne hk _ _, .inl rfl⟩

def run (g : BudgetClock n) (ops : List (BudgetOp n)) : BudgetClock n := ops.foldl tick g

theorem fresh_tick (h : (g.fresh k).isSome) (op : BudgetOp n) : ((g.tick op).fresh k).isSome := by
  cases op with
  | publish i =>
    by_cases hk : k = i
    · subst hk
      rw [fresh_publish]
      rfl
    · rw [(later_publish g i).fresh k hk]
      exact h
  | load i | limit i | poll i accepted | count i | trim i | authorize i place | drop i place =>
    exact h

theorem settled_tick (h : (g.settled k).isSome) (op : BudgetOp n) :
    ((g.tick op).settled k).isSome := by
  cases op with
  | trim i =>
    by_cases hk : k = i
    · subst hk
      rw [settled_trim]
      split
      · rfl
      · exact h
    · rw [(later_trim g i).settled k hk]
      exact h
  | publish i | load i | limit i | poll i accepted | count i | authorize i place | drop i place =>
    exact h

theorem settled_run (h : (g.settled k).isSome) (ops : List (BudgetOp n)) :
    ((g.run ops).settled k).isSome := by
  induction ops generalizing g with
  | nil => exact h
  | cons op ops ih => exact ih (settled_tick h op)

theorem settled_run_of_mem (h : (g.fresh k).isSome) (hmem : .trim k ∈ ops) :
    ((g.run ops).settled k).isSome := by
  induction ops generalizing g with
  | nil => cases hmem
  | cons op ops ih =>
    rcases mem_cons.1 hmem with rfl | hmem
    · refine settled_run ?_ ops
      rw [settled_trim, if_pos h]
      rfl
    · exact ih (fresh_tick h op) hmem

theorem settled_run_of_sublist (g : BudgetClock n) (h : [.publish k, .trim k].Sublist ops) :
    ((g.run ops).settled k).isSome := by
  induction ops generalizing g with
  | nil => cases h
  | cons op ops ih =>
    cases h with
    | cons _ h => exact ih (g.tick op) h
    | cons_cons _ h =>
      refine settled_run_of_mem (g := g.tick (.publish k)) ?_ (singleton_sublist.1 h)
      rw [fresh_publish]
      rfl

end BudgetClock

/-! ### The invariant -/

namespace ShardBudgets

open BudgetClock

variable {n : Nat} {global : Nat} {s s' : ShardBudgets n} {g g' : BudgetClock n} {i : Fin n}
variable {k : Fin n} {rest : List (Fin n)} {own sum : Nat} {t : Nat}

/-- What a shard that took its counts at time `t` has counted shard `k` with, at least. -/
def counted (s : ShardBudgets n) (g : BudgetClock n) (t : Nat) (k : Fin n) : Nat :=
  if g.freshBy t k then s.openConns k else s.servingConns k

/-- What the trim of shard `i` knows of the shards it has loaded. -/
structure Asking (s : ShardBudgets n) (g : BudgetClock n) (i : Fin n) (rest : List (Fin n))
    (sum : Nat) : Prop where
  freshBy : g.freshBy (g.asked i) i = true
  asked : g.asked i ≤ g.now
  loaded : ∃ loaded, others i = loaded ++ rest ∧ (loaded.map (s.counted g (g.asked i))).sum ≤ sum

/-- What the last trim of shard `i`, which took its counts at time `t`, has left. -/
structure Settled (global : Nat) (s : ShardBudgets n) (g : BudgetClock n) (i : Fin n) (t : Nat) :
    Prop where
  freshBy : g.freshBy t i = true
  past : t ≤ g.now
  within : 0 < s.pendingConns i → s.openConns i + ((others i).map (s.counted g t)).sum ≤ global

structure ShardInv (global : Nat) (s : ShardBudgets n) (g : BudgetClock n) (i : Fin n) : Prop where
  own : ∀ own rest sum, (s.shards i).phase = .trimming own rest sum →
    own = (s.shards i).conns.length
  serving : s.servingConns i ≤ s.counts i
  fresh : ∀ t, g.fresh i = some t → t ≤ g.now ∧ s.openConns i ≤ s.counts i
  asking : ∀ own rest sum, (s.shards i).phase = .trimming own rest sum → (g.fresh i).isSome →
    s.Asking g i rest sum
  settled : ∀ t, g.settled i = some t → s.Settled global g i t

theorem counted_le (hq : Quieter i s s') (hg : Later i g g') (ht : t ≤ g.now) (k : Fin n) :
    s'.counted g' t k ≤ s.counted g t k := by
  rw [counted, counted, hg.freshBy ht]
  split
  · exact hq.openConns_le k
  · exact hq.servingConns_le k

theorem sum_counted_le (hq : Quieter i s s') (hg : Later i g g') (ht : t ≤ g.now)
    (l : List (Fin n)) : (l.map (s'.counted g' t)).sum ≤ (l.map (s.counted g t)).sum :=
  sum_le_sum fun k _ => counted_le hq hg ht k

theorem Asking.later {sum : Nat} (h : s.Asking g k rest sum) (hq : Quieter i s s')
    (hg : Later i g g') (hk : g'.asked k = g.asked k) : s'.Asking g' k rest sum := by
  obtain ⟨loaded, hsplit, hsum⟩ := h.loaded
  refine ⟨?_, ?_, loaded, hsplit, ?_⟩
  · rw [hk, hg.freshBy h.asked]
    exact h.freshBy
  · rw [hk]
    exact Nat.le_trans h.asked hg.now
  · rw [hk]
    exact Nat.le_trans (sum_counted_le hq hg h.asked loaded) hsum

theorem Settled.later (h : s.Settled global g k t) (hq : Quieter i s s') (hg : Later i g g') :
    s'.Settled global g' k t := by
  refine ⟨?_, Nat.le_trans h.past hg.now, fun hpending => ?_⟩
  · rw [hg.freshBy h.past]
    exact h.freshBy
  · have hopen := hq.openConns_le k
    have hsum := sum_counted_le hq hg h.past (others k)
    have hwithin := h.within (Nat.lt_of_lt_of_le hpending (hq.pendingConns_le k))
    omega

theorem ShardInv.start (hown : ∀ own rest sum, (s.shards i).phase = .trimming own rest sum →
      own = (s.shards i).conns.length)
    (hserving : s.servingConns i ≤ s.counts i) : ShardInv global s BudgetClock.start i := by
  constructor
  · exact hown
  · exact hserving
  · intro t ht
    cases ht
  · intro own rest sum _ hfresh
    cases hfresh
  · intro t ht
    cases ht

theorem ShardInv.other (h : ShardInv global s g k) (hq : Quieter i s s') (hg : Later i g g')
    (hk : k ≠ i) : ShardInv global s' g' k := by
  have hopen : s'.openConns k = s.openConns k := by rw [openConns, openConns, hq.shards k hk]
  have hserving : s'.servingConns k = s.servingConns k := by
    rw [servingConns, servingConns, hq.shards k hk]
  constructor
  · rw [hq.shards k hk]
    exact h.own
  · rw [hserving, hq.counts k hk]
    exact h.serving
  · intro t ht
    rw [hg.fresh k hk] at ht
    rw [hopen, hq.counts k hk]
    exact ⟨Nat.le_trans (h.fresh t ht).1 hg.now, (h.fresh t ht).2⟩
  · rw [hq.shards k hk, hg.fresh k hk]
    intro own rest sum hphase hfresh
    exact (h.asking own rest sum hphase hfresh).later hq hg (hg.asked k hk)
  · intro t ht
    rw [hg.settled k hk] at ht
    exact (h.settled t ht).later hq hg

/-! ### The shard that moves -/

theorem ShardInv.counted_le (h : ShardInv global s g k) (t : Nat) :
    s.counted g t k ≤ s.counts k := by
  rw [counted]
  split
  · rename_i hfresh
    obtain ⟨t', ht', -⟩ := freshBy_iff.1 hfresh
    exact (h.fresh t' ht').2
  · exact h.serving

theorem ShardInv.quiet (h : ShardInv global s g i) (hq : Quieter i s s')
    (hcount : s'.counts i = s.counts i)
    (hphase : ∀ own rest sum, (s'.shards i).phase = .trimming own rest sum →
      (s.shards i).phase = .trimming own rest sum ∧
        (s'.shards i).conns.length = (s.shards i).conns.length) :
    ShardInv global s' g i := by
  have hg := Later.refl i g
  constructor
  · intro own rest sum hp
    rw [(hphase own rest sum hp).2]
    exact h.own own rest sum (hphase own rest sum hp).1
  · rw [hcount]
    exact Nat.le_trans (hq.servingConns_le i) h.serving
  · intro t ht
    rw [hcount]
    exact ⟨(h.fresh t ht).1, Nat.le_trans (hq.openConns_le i) (h.fresh t ht).2⟩
  · intro own rest sum hp hfresh
    exact (h.asking own rest sum (hphase own rest sum hp).1 hfresh).later hq hg rfl
  · exact fun t ht => (h.settled t ht).later hq hg

theorem ShardInv.published (h : ShardInv global s g i) (hq : Quieter i s s') (hg : Later i g g')
    (hcount : s'.counts i = (s'.shards i).conns.length) (hsettled : g'.settled i = g.settled i)
    (hnow : ∀ t, g'.fresh i = some t → t ≤ g'.now)
    (hphase : ∀ own rest sum, (s'.shards i).phase ≠ .trimming own rest sum) :
    ShardInv global s' g' i := by
  have hopen := s'.openConns_le_length i
  have hserving := s'.servingConns_le_openConns i
  constructor
  · exact fun own rest sum hp => absurd hp (hphase own rest sum)
  · omega
  · exact fun t ht => ⟨hnow t ht, by omega⟩
  · exact fun own rest sum hp => absurd hp (hphase own rest sum)
  · intro t ht
    rw [hsettled] at ht
    exact (h.settled t ht).later hq hg

theorem ShardInv.begun (h : ShardInv global s g i) (hq : Quieter i s s') (hg : Later i g g')
    (hcount : s'.counts i = s.counts i) (hfresh : g'.fresh = g.fresh) (hnow : g'.now = g.now)
    (hasked : g'.asked i = g.now) (hsettled : g'.settled i = g.settled i)
    (hphase : (s'.shards i).phase = .trimming (s'.shards i).conns.length (others i) 0) :
    ShardInv global s' g' i := by
  constructor
  · intro own rest sum hp
    rw [hphase] at hp
    cases hp
    rfl
  · rw [hcount]
    exact Nat.le_trans (hq.servingConns_le i) h.serving
  · intro t ht
    rw [hfresh] at ht
    rw [hcount, hnow]
    exact ⟨(h.fresh t ht).1, Nat.le_trans (hq.openConns_le i) (h.fresh t ht).2⟩
  · intro own rest sum hp hsome
    rw [hphase] at hp
    cases hp
    rw [hfresh] at hsome
    obtain ⟨t, ht⟩ := isSome_iff_exists.1 hsome
    refine ⟨?_, by rw [hasked, hnow], [], rfl, Nat.le_refl _⟩
    rw [freshBy_iff, hasked, hfresh]
    exact ⟨t, ht, (h.fresh t ht).1⟩
  · intro t ht
    rw [hsettled] at ht
    exact (h.settled t ht).later hq hg

theorem Asking.load {sum : Nat} (h : s.Asking g i (k :: rest) sum) (hk : ShardInv global s g k) :
    s.Asking g i rest (sum + s.counts k) := by
  obtain ⟨loaded, hsplit, hsum⟩ := h.loaded
  refine ⟨h.freshBy, h.asked, loaded ++ [k], by simp [hsplit], ?_⟩
  have hcounted := hk.counted_le (g.asked i)
  simp only [map_append, sum_append, map_cons, map_nil, sum_cons,
    sum_nil]
  omega

theorem ShardInv.loaded (h : ShardInv global s g i) (hk : ShardInv global s g k)
    (hq : Quieter i s s') (hcount : s'.counts i = s.counts i)
    (hconns : (s'.shards i).conns = (s.shards i).conns)
    (hp : (s.shards i).phase = .trimming own (k :: rest) sum)
    (hp' : (s'.shards i).phase = .trimming own rest (sum + s.counts k)) :
    ShardInv global s' g i := by
  have hg := Later.refl i g
  constructor
  · intro own' rest' sum' hphase
    rw [hp'] at hphase
    cases hphase
    rw [hconns]
    exact h.own own (k :: rest) sum hp
  · rw [hcount]
    exact Nat.le_trans (hq.servingConns_le i) h.serving
  · intro t ht
    rw [hcount]
    exact ⟨(h.fresh t ht).1, Nat.le_trans (hq.openConns_le i) (h.fresh t ht).2⟩
  · intro own' rest' sum' hphase hfresh
    rw [hp'] at hphase
    cases hphase
    exact ((h.asking own (k :: rest) sum hp hfresh).load hk).later hq hg rfl
  · exact fun t ht => (h.settled t ht).later hq hg

/-- A trim ends: the shard has closed all it had to, or has no connection without a session left. -/
theorem ShardInv.trimmed (h : ShardInv global s g i) (hq : Quieter i s s') (hg : Later i g g')
    (hp : (s.shards i).phase = .trimming own [] sum)
    (hconns : (s'.shards i).conns = (trimConns global (own + sum) (s.shards i).conns).1)
    (hcount : s'.counts i = own - (trimConns global (own + sum) (s.shards i).conns).2)
    (hp' : (s'.shards i).phase = .idle) (hfresh : g'.fresh = g.fresh) (hnow : g'.now = g.now)
    (hsettled : g'.settled i = if (g.fresh i).isSome then some (g.asked i) else g.settled i) :
    ShardInv global s' g' i := by
  obtain ⟨htrim, -, hleft⟩ := trimConns_counts global (own + sum) (s.shards i).conns
  rw [← hconns] at htrim hleft
  have hown := h.own own [] sum hp
  have hlen := s.openConns_le_length i
  have hserving := s'.servingConns_le_openConns i
  have hopen : s'.openConns i + (trimConns global (own + sum) (s.shards i).conns).2 = s.openConns i :=
    htrim
  have hphase : ∀ own rest sum, (s'.shards i).phase ≠ .trimming own rest sum := by simp [hp']
  constructor
  · exact fun own rest sum hphase' => absurd hphase' (hphase own rest sum)
  · omega
  · intro t ht
    rw [hfresh] at ht
    rw [hnow]
    exact ⟨(h.fresh t ht).1, by omega⟩
  · exact fun own rest sum hphase' => absurd hphase' (hphase own rest sum)
  · intro t ht
    by_cases hsome : (g.fresh i).isSome
    · rw [hsettled, if_pos hsome, some.injEq] at ht
      subst ht
      have hasking := h.asking own [] sum hp hsome
      refine ⟨?_, by rw [hnow]; exact hasking.asked, fun hpending => ?_⟩
      · rw [hg.freshBy hasking.asked]
        exact hasking.freshBy
      · have hexcess : (trimConns global (own + sum) (s.shards i).conns).2 = own + sum - global := by
          refine hleft.resolve_left fun hnone => ?_
          have hzero : s'.pendingConns i = 0 := countP_eq_zero.2 fun c hc => by simp [hnone c hc]
          omega
        obtain ⟨loaded, hsplit, hsum⟩ := hasking.loaded
        rw [append_nil] at hsplit
        have hcounted := sum_counted_le hq hg hasking.asked (others i)
        rw [hsplit] at hcounted ⊢
        omega
    · rw [hsettled, if_neg hsome] at ht
      exact (h.settled t ht).later hq hg

/-! ### Steps and runs -/

section

variable (h : ∀ k, ShardInv global s g k)
include h

theorem ShardInv.all (hq : Quieter i s s') (hg : Later i g g')
    (hi : ShardInv global s' g' i) (k : Fin n) : ShardInv global s' g' k := by
  by_cases hk : k = i
  · rw [hk]
    exact hi
  · exact (h k).other hq hg hk

theorem inv_setShard (i : Fin n) (shard : BudgetShard n)
    (hfewer : Fewer shard.conns (s.shards i).conns)
    (hphase : ∀ own rest sum, shard.phase ≠ .trimming own rest sum) :
    ∀ k, ShardInv global (s.setShard i shard) g k := by
  have hq := s.quieter_setShard i shard hfewer
  refine ShardInv.all h hq (.refl i g) ((h i).quiet hq rfl fun own rest sum hp => ?_)
  rw [setShard_shards] at hp
  exact absurd hp (hphase own rest sum)

theorem inv_publish (i : Fin n) :
    ∀ k, ShardInv global ((s.setCount i (s.shards i).conns.length).setShard i
      { s.shards i with phase := .capping (others i) 0 }) (g.tick (.publish i)) k := by
  have hq := s.quieter_setCount i (s.shards i).conns.length
    { s.shards i with phase := .capping (others i) 0 } (.refl (s.shards i).conns)
  have hg := later_publish g i
  refine ShardInv.all h hq hg ((h i).published hq hg ?_ rfl ?_ ?_)
  · rw [setShard_shards]
    exact update_self _ _ _
  · intro t ht
    rw [fresh_publish, some.injEq] at ht
    subst ht
    cases hfresh : g.fresh i with
    | none => exact Nat.le_refl _
    | some t => exact Nat.le_succ_of_le ((h i).fresh t hfresh).1
  · rw [setShard_shards]
    simp

theorem inv_step {op : BudgetOp n} (hop : op.quiet)
    (hstep : s.step global op = some s') : ∀ k, ShardInv global s' (g.tick op) k := by
  cases moves_of_step hstep with
  | publish i hp => exact inv_publish h i
  | loadCap i k rest sum hp => exact inv_setShard h i _ (.refl _) (by simp)
  | limit i sum hp => exact inv_setShard h i _ (.refl _) (by simp)
  | poll i accepted hp =>
    rw [BudgetOp.quiet, List.isEmpty_iff] at hop
    subst hop
    refine inv_setShard h i _ ?_ (by simp)
    simpa using Fewer.reaped (s.shards i).conns
  | loadTrim i k own rest sum hp =>
    have hq := s.quieter_setShard i
      { s.shards i with phase := .trimming own rest (sum + s.counts k) } (.refl (s.shards i).conns)
    refine ShardInv.all h hq (.refl i g) ((h i).loaded (h k) hq rfl ?_ hp ?_)
    · rw [setShard_shards]
    · rw [setShard_shards]
  | count i hp =>
    have hq := s.quieter_setShard i
      { s.shards i with phase := .trimming (s.shards i).conns.length (others i) 0 }
      (.refl (s.shards i).conns)
    refine ShardInv.all h hq (later_count g i)
      ((h i).begun hq (later_count g i) rfl rfl rfl (update_self _ _ _) rfl ?_)
    rw [setShard_shards]
  | trim i own sum hp =>
    have hq := s.quieter_setCount i (own - (trimConns global (own + sum) (s.shards i).conns).2)
      { s.shards i with
        conns := (trimConns global (own + sum) (s.shards i).conns).1, phase := .idle }
      (.trimmed global (own + sum) (s.shards i).conns)
    refine ShardInv.all h hq (later_trim g i)
      ((h i).trimmed hq (later_trim g i) hp ?_ (update_self _ _ _) ?_ rfl rfl
        (settled_trim g i))
    · rw [setShard_shards]
    · rw [setShard_shards]
  | authorize i place => cases hop
  | drop i place =>
    have hq := s.quieter_setShard i
      { s.shards i with conns := (s.shards i).conns.modify place ShardConn.disconnect }
      (.dropped (s.shards i).conns place)
    refine ShardInv.all h hq (.refl i g) ((h i).quiet hq rfl fun own rest sum hp => ?_)
    rw [setShard_shards] at hp ⊢
    exact ⟨hp, length_modify _ _ _⟩

theorem inv_run {ops : List (BudgetOp n)}
    (hops : ∀ op ∈ ops, op.quiet) (hrun : replay (step global) s ops = some s') :
    ∀ k, ShardInv global s' (g.run ops) k := by
  induction ops generalizing s g with
  | nil =>
    cases hrun
    exact h
  | cons op ops ih =>
    obtain ⟨s₁, hstep, hrun⟩ := replay_cons_eq_some.1 hrun
    exact ih (inv_step h (hops op mem_cons_self) hstep)
      (fun op hop => hops op (mem_cons_of_mem _ hop)) hrun

end

/-! ### The total -/

theorem sum_others (f : Fin n → Nat) (j : Fin n) :
    ∑ k, f k = f j + ((others j).map f).sum := by
  have hothers : others j = (finRange n).erase j := by
    rw [(nodup_finRange n).erase_eq_filter]
    exact filter_congr fun k _ => Bool.eq_iff_iff.2 (by simp)
  have hperm : (finRange n).Perm (j :: others j) := by
    rw [hothers]
    exact perm_cons_erase (mem_finRange j)
  rw [Fin.sum_univ_def, (hperm.map f).sum_eq, map_cons, sum_cons]

/-- The latest trim of a shard that has connections without a session left has counted every shard
in full. -/
theorem total_le (h : ∀ k, ShardInv global s g k) (hsettled : ∀ k, (g.settled k).isSome) :
    ∑ k, s.openConns k ≤ max global (∑ k, s.servingConns k) := by
  by_cases hnone : ∀ k, s.pendingConns k = 0
  · refine le_max_of_le_right (Nat.le_of_eq (Finset.sum_congr rfl fun k _ => ?_))
    rw [openConns_eq, hnone k, Nat.add_zero]
  · simp only [not_forall] at hnone
    obtain ⟨j₀, hj₀⟩ := hnone
    obtain ⟨j, hj, hlatest⟩ := Finset.exists_max_image (Finset.univ.filter fun k => 0 < s.pendingConns k)
      (fun k => (g.settled k).getD 0) ⟨j₀, by simpa using Nat.pos_of_ne_zero hj₀⟩
    rw [Finset.mem_filter] at hj
    obtain ⟨t, ht⟩ := isSome_iff_exists.1 (hsettled j)
    have hwithin := ((h j).settled t ht).within hj.2
    have hfull : ∀ k, s.openConns k ≤ s.counted g t k := by
      intro k
      rw [counted]
      split
      · exact Nat.le_refl _
      · rename_i hstale
        by_cases hk : 0 < s.pendingConns k
        · -- a shard with such connections published before its own trim, which was not later
          obtain ⟨t', ht'⟩ := isSome_iff_exists.1 (hsettled k)
          have hle := hlatest k (Finset.mem_filter.2 ⟨Finset.mem_univ k, hk⟩)
          simp only [ht, ht', getD_some] at hle
          obtain ⟨t₀, hfresh, ht₀⟩ := freshBy_iff.1 ((h k).settled t' ht').freshBy
          exact absurd (freshBy_iff.2 ⟨t₀, hfresh, by omega⟩) hstale
        · rw [openConns_eq]
          omega
    have hsum : ((others j).map s.openConns).sum ≤ ((others j).map (s.counted g t)).sum :=
      sum_le_sum fun k _ => hfull k
    rw [sum_others s.openConns j]
    exact le_max_of_le_left (by omega)

end ShardBudgets

open ShardBudgets in
/-- **The cap across shards.** Once no connection is accepted or authorised and every shard has
published a count that covers its connections with a session, a whole tick of every shard leaves at
most the larger of the cap and the connections with a session. A trim closes connections without a
session only, the newest first, and none within the cap. -/
theorem shard_cap_enforced (n global : Nat) :
    (∀ (conns : Fin n → List ShardConn) (counts : Fin n → Nat)
      (before first second : List (BudgetOp n)) (s s₁ t : ShardBudgets n),
      replay (ShardBudgets.step global) (start conns counts) before = some s →
      replay (ShardBudgets.step global) s first = some s₁ →
      replay (ShardBudgets.step global) s₁ second = some t →
      (∀ op ∈ first ++ second, op.quiet = true) →
      (∀ i, s.servingConns i ≤ s.counts i ∨ .publish i ∈ first) →
      (∀ i, [.publish i, .trim i].Sublist second) →
      ∑ i, t.openConns i ≤ max global (∑ i, t.servingConns i)) ∧
    ∀ (s s' : ShardBudgets n) (i : Fin n) (own sum : Nat),
      (s.shards i).phase = .trimming own [] sum → s.step global (.trim i) = some s' →
      Trimmed (s.shards i).conns (s'.shards i).conns ∧
        (own + sum ≤ global → (s'.shards i).conns = (s.shards i).conns) ∧
        ∀ k, k ≠ i → s'.shards k = s.shards k := by
  constructor
  · intro conns counts before first second s s₁ t hbefore hfirst hsecond hquiet hcovered hticks
    have hcounted : s.Counted := replay_inv (fun _ _ _ _ h hstep => Counted.step h hstep)
      (fun i own rest sum hp => by cases hp) hbefore
    have hcounted₁ : s₁.Counted :=
      replay_inv (fun _ _ _ _ h hstep => Counted.step h hstep) hcounted hfirst
    have hcovered₁ : ∀ k, s₁.Covered k := fun k => covered_run (hcovered k) hcounted
      (fun op hop => hquiet op (mem_append_left _ hop)) hfirst
    refine total_le (inv_run (fun k => .start (hcounted₁ k) (hcovered₁ k))
      (fun op hop => hquiet op (mem_append_right _ hop)) hsecond) ?_
    exact fun k => BudgetClock.settled_run_of_sublist _ (hticks k)
  · intro s s' i own sum hp hstep
    simp only [ShardBudgets.step, hp, some.injEq] at hstep
    subst hstep
    rw [setShard_shards]
    refine ⟨trimmed_trimConns _ _ _, fun hle => ?_, fun k hk => update_of_ne hk _ _⟩
    rw [trimConns, if_neg (by omega)]

def tickOps (i : Fin 2) : List (BudgetOp 2) :=
  [.publish i, .load i, .limit i, .poll i [], .count i, .load i, .trim i]

/-- Three connections, one with a session, over a cap of two. -/
theorem shard_cap_enforced_twice :
    ∃ t, replay (ShardBudgets.step 2)
        (.start ![[⟨1, true, true⟩, ⟨2, true, false⟩], [⟨3, true, false⟩]] fun _ => 0)
        (tickOps 0 ++ tickOps 1 ++ (tickOps 1 ++ tickOps 0)) = some t ∧
      ∑ i, t.openConns i ≤ max 2 (∑ i, t.servingConns i) := by
  have hrun : (replay (ShardBudgets.step 2)
      (.start ![[⟨1, true, true⟩, ⟨2, true, false⟩], [⟨3, true, false⟩]] fun _ => 0)
      (tickOps 0 ++ tickOps 1 ++ (tickOps 1 ++ tickOps 0))).isSome = true := by decide +kernel
  obtain ⟨t, ht⟩ := isSome_iff_exists.1 hrun
  obtain ⟨s₁, hfirst, hsecond⟩ := replay_append_eq_some.1 ht
  refine ⟨t, ht, (shard_cap_enforced 2 2).1 _ _ [] (tickOps 0 ++ tickOps 1) (tickOps 1 ++ tickOps 0)
    _ s₁ t rfl hfirst hsecond (by decide) (fun i => .inr ?_) (by decide)⟩
  revert i
  decide

/-- Shard 1 accepts two connections and both are authorised while it polls; shard 0 accepts a third
one in the same instant. -/
def acceptOps : List (BudgetOp 2) :=
  [.publish 1, .load 1, .limit 1, .publish 0, .load 0, .limit 0, .poll 1 [1, 2], .authorize 1 0,
    .authorize 1 1, .poll 0 [3]]

/-- Shard 0 ends its tick and runs two more before shard 1 goes on and does the same. -/
def unfairOps : List (BudgetOp 2) :=
  [.count 0, .load 0, .trim 0] ++ tickOps 0 ++ tickOps 0 ++
    ([.count 1, .load 1, .trim 1] ++ tickOps 1 ++ tickOps 1)

theorem two_ticks_above_cap :
    (∀ op ∈ unfairOps, op.quiet = true) ∧
      (∀ i, [.publish i, .trim i, .publish i, .trim i].Sublist unfairOps) ∧
      (replay (ShardBudgets.step 2) (.start (fun _ => []) fun _ => 0) (acceptOps ++ unfairOps)).map
        (fun t => (∑ i, t.openConns i, ∑ i, t.servingConns i)) = some (3, 2) := by
  decide +kernel

end RtmpServer
