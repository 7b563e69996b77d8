import Mathlib.Algebra.GroupWithZero.Nat

/-!
# Copies stamped with a generation

A value behind a lock, with transactions, and a counter that any thread may read. The holder of the
lock works on copies of the value, one for each transaction or savepoint that is open, and the
innermost is merged outwards when it commits. A write to a copy counts, and a holder that writes
without being counted has counted when it took the lock.

A reader that takes the lock for itself can stamp what it sees with the counter. `Fresh` is what
such a stamp is worth from then on (`Fresh.step`). The counter wraps, so it tells this only to one
who knows that fewer than `2 ^ 64` actions have counted (`Fresh.current`).
-/

namespace Lib.Stamp

open List

variable {α : Type*}

structure Holder (α : Type*) where
  /-- Its writes are not counted one by one. -/
  raw : Bool
  /-- Its copies, the innermost first. -/
  working : List α

structure Versioned (α : Type*) where
  value : α
  generation : UInt64
  holder : Option (Holder α)

inductive WriteOp (α : Type*) where
  | lock
  | lockRaw
  | begin
  | write (x : α)
  | rawWrite (x : α)
  | commit
  | rollback
  | unlock

def WriteOp.counts : WriteOp α → Bool
  | .lockRaw | .write _ => true
  | _ => false

namespace Versioned

def view (v : Versioned α) (h : Holder α) : α := h.working.headD v.value

/-- One action of a writer. The lock is re-entrant, so a holder may become a raw one. -/
def step (v : Versioned α) : WriteOp α → Option (Versioned α)
  | .lock =>
    match v.holder with
    | none => some { v with holder := some ⟨false, []⟩ }
    | some _ => none
  | .lockRaw =>
    some { v with
      generation := v.generation + 1
      holder := some ⟨true, (v.holder.map (·.working)).getD []⟩ }
  | .begin => v.holder.map fun h => { v with holder := some { h with working := v.view h :: h.working } }
  | .write x =>
    match v.holder with
    | some ⟨raw, _ :: rest⟩ =>
      some { v with generation := v.generation + 1, holder := some ⟨raw, x :: rest⟩ }
    | _ => none
  | .rawWrite x =>
    match v.holder with
    | some ⟨true, _ :: rest⟩ => some { v with holder := some ⟨true, x :: rest⟩ }
    | _ => none
  | .commit =>
    match v.holder with
    | some ⟨raw, [x]⟩ => some { v with value := x, holder := some ⟨raw, []⟩ }
    | some ⟨raw, x :: _ :: rest⟩ => some { v with holder := some ⟨raw, x :: rest⟩ }
    | _ => none
  | .rollback =>
    match v.holder with
    | some ⟨raw, _ :: rest⟩ => some { v with holder := some ⟨raw, rest⟩ }
    | _ => none
  | .unlock =>
    match v.holder with
    | some ⟨_, []⟩ => some { v with holder := none }
    | _ => none

def Settled (v : Versioned α) : Prop :=
  ∀ h ∈ v.holder, h.raw = false ∧ ∀ x ∈ h.working, x = v.value

/-- The copy `x` that was stamped `g`, when `n` actions have counted since. -/
def Fresh (v : Versioned α) (n : Nat) (g : UInt64) (x : α) : Prop :=
  v.generation = g + .ofNat n ∧ (n = 0 → x = v.value ∧ v.Settled)

variable {v v' : Versioned α} {n : Nat} {g : UInt64} {x : α}

theorem Fresh.read (h : v.holder = none) : v.Fresh 0 v.generation v.value := by
  refine ⟨by simp, fun _ => ⟨rfl, fun t ht => ?_⟩⟩
  rw [h] at ht
  cases ht

theorem Fresh.current (h : v.Fresh n v.generation x) (hn : n < 2 ^ 64) : x = v.value := by
  have hg := congrArg UInt64.toNat h.1
  rw [UInt64.toNat_add, UInt64.toNat_ofNat'] at hg
  exact (h.2 (by omega)).1

theorem Fresh.count (h : v.Fresh n g x) (hg : v'.generation = v.generation + 1) :
    v'.Fresh (n + 1) g x := by
  refine ⟨?_, nofun⟩
  rw [hg, h.1, UInt64.ofNat_add, UInt64.add_assoc]
  rfl

theorem Fresh.same (h : v.Fresh n g x) (hg : v'.generation = v.generation)
    (hkeep : v.Settled → v'.value = v.value ∧ v'.Settled) : v'.Fresh n g x := by
  refine ⟨hg.trans h.1, fun hn => ?_⟩
  obtain ⟨hx, hs⟩ := h.2 hn
  exact ⟨hx.trans (hkeep hs).1.symm, (hkeep hs).2⟩

theorem Settled.of_holder {h : Holder α} (hh : v.holder = some h) (hraw : h.raw = false)
    (hw : ∀ x ∈ h.working, x = v.value) : v.Settled := by
  intro t ht
  rw [hh] at ht
  cases ht
  exact ⟨hraw, hw⟩

/-- **A stamp stays worth what it was** under every action of the writers. -/
theorem Fresh.step {op : WriteOp α} (h : v.Fresh n g x) (hs : v.step op = some v') :
    v'.Fresh (n + if op.counts then 1 else 0) g x := by
  obtain ⟨value, generation, holder⟩ := v
  cases op with
  | lock =>
    cases holder with
    | some t => cases hs
    | none =>
      cases hs
      exact h.same rfl fun _ => ⟨rfl, .of_holder rfl rfl (by simp)⟩
  | lockRaw =>
    cases hs
    exact h.count rfl
  | begin =>
    cases holder with
    | none => cases hs
    | some t =>
      cases hs
      refine h.same rfl fun hset => ⟨rfl, ?_⟩
      obtain ⟨hraw, hw⟩ := hset t rfl
      refine .of_holder rfl hraw fun y hy => ?_
      rcases mem_cons.1 hy with rfl | hy
      · unfold view
        cases hl : t.working with
        | nil => rfl
        | cons z rest => exact hw z (hl ▸ mem_cons_self)
      · exact hw y hy
  | write y =>
    rcases holder with _ | ⟨raw, _ | ⟨z, rest⟩⟩ <;> cases hs
    exact h.count rfl
  | rawWrite y =>
    rcases holder with _ | ⟨_ | _, _ | ⟨z, rest⟩⟩ <;> cases hs
    exact h.same rfl fun hset => absurd (hset _ rfl).1 (by simp)
  | commit =>
    rcases holder with _ | ⟨raw, _ | ⟨z, _ | ⟨y, rest⟩⟩⟩ <;> cases hs
    · refine h.same rfl fun hset => ?_
      obtain ⟨hraw, hw⟩ := hset _ rfl
      exact ⟨hw z mem_cons_self, .of_holder rfl hraw (by simp)⟩
    · refine h.same rfl fun hset => ⟨rfl, ?_⟩
      obtain ⟨hraw, hw⟩ := hset _ rfl
      refine .of_holder rfl hraw fun u hu => hw u ?_
      rcases mem_cons.1 hu with rfl | hu
      · exact mem_cons_self
      · exact mem_cons_of_mem _ (mem_cons_of_mem _ hu)
  | rollback =>
    rcases holder with _ | ⟨raw, _ | ⟨z, rest⟩⟩ <;> cases hs
    refine h.same rfl fun hset => ⟨rfl, ?_⟩
    obtain ⟨hraw, hw⟩ := hset _ rfl
    exact .of_holder rfl hraw fun u hu => hw u (mem_cons_of_mem _ hu)
  | unlock =>
    rcases holder with _ | ⟨raw, _ | ⟨z, rest⟩⟩ <;> cases hs
    refine h.same rfl fun _ => ⟨rfl, fun t ht => ?_⟩
    cases ht

end Versioned

end Lib.Stamp
