import Mathlib.Algebra.GroupWithZero.Nat
import Mathlib.Data.List.Perm.Lattice
import Mathlib.Logic.Relation

/-!
# Bounded queues with eviction

A queue of elements with a weight each, and a limit on their sum. For a new element others are taken
out, one after the other and only while it does not fit; which one goes next is a policy
(`MakesRoom`). A `Log` is such a queue with what it accepted, evicted and handed out so far, and
`Log.Sound` says that every accepted element is in exactly one place and that none overtakes
another.

`keepBest` is the fold of a search for the best element under a strict order.
-/

namespace Lib.Eviction

open List

variable {α : Type*}

/-! ### The best element -/

def keepBest (better : α → α → Prop) [DecidableRel better] (best : Option α) (x : α) : Option α :=
  match best with
  | none => some x
  | some b => if better x b then some x else some b

section Best

variable {better : α → α → Prop} [DecidableRel better]

def BestOf (better : α → α → Prop) (seen : List α) : Option α → Prop
  | none => seen = []
  | some b => b ∈ seen ∧ ∀ x ∈ seen, ¬ better x b

theorem BestOf.keepBest [Std.Irrefl better] [IsTrans α better] {seen : List α} {best : Option α}
    (h : BestOf better seen best) (x : α) :
    BestOf better (seen ++ [x]) (keepBest better best x) := by
  have hx : x ∈ seen ++ [x] := mem_append_right _ (mem_singleton_self x)
  cases best with
  | none =>
    refine ⟨hx, forall_mem_append.2 ⟨?_, forall_mem_singleton.2 (irrefl x)⟩⟩
    rw [show seen = [] from h]
    exact forall_mem_nil _
  | some b =>
    obtain ⟨hmem, hbest⟩ := h
    rw [Eviction.keepBest]
    split
    · rename_i hbetter
      refine ⟨hx, forall_mem_append.2 ⟨?_, forall_mem_singleton.2 (irrefl x)⟩⟩
      exact fun y hy hyx => hbest y hy (IsTrans.trans y x b hyx hbetter)
    · rename_i hworse
      exact ⟨mem_append_left _ hmem,
        forall_mem_append.2 ⟨hbest, forall_mem_singleton.2 hworse⟩⟩

theorem bestOf_foldl (better : α → α → Prop) [DecidableRel better] [Std.Irrefl better]
    [IsTrans α better] (l : List α) : BestOf better l (l.foldl (keepBest better) none) := by
  suffices h : ∀ seen best, BestOf better seen best →
      BestOf better (seen ++ l) (l.foldl (keepBest better) best) by
    exact h [] none rfl
  induction l with
  | nil =>
    intro seen best h
    rwa [append_nil]
  | cons x l ih =>
    intro seen best h
    rw [append_cons, foldl_cons]
    exact ih _ _ (h.keepBest x)

end Best

/-! ### Making room -/

def total (weight : α → Nat) (l : List α) : Nat := (l.map weight).sum

@[simp] theorem total_nil (weight : α → Nat) : total weight [] = 0 := rfl

@[simp] theorem total_cons (weight : α → Nat) (x : α) (l : List α) :
    total weight (x :: l) = weight x + total weight l := rfl

@[simp] theorem total_append (weight : α → Nat) (l l' : List α) :
    total weight (l ++ l') = total weight l + total weight l' := by
  rw [total, map_append, sum_append]
  rfl

/-- Elements go until `need` more fit: `gone` in this order, and `kept` is left. By `picks before x
after`, `x` may go from between `before` and `after`. -/
inductive MakesRoom (weight : α → Nat) (picks : List α → α → List α → Prop) (limit need : Nat) :
    List α → List α → List α → Prop
  | fits {l : List α} (room : total weight l + need ≤ limit) :
      MakesRoom weight picks limit need l [] l
  | evict {before after gone kept : List α} {x : α}
      (full : limit < total weight (before ++ x :: after) + need) (picked : picks before x after)
      (rest : MakesRoom weight picks limit need (before ++ after) gone kept) :
      MakesRoom weight picks limit need (before ++ x :: after) (x :: gone) kept

section MakesRoom

variable {weight : α → Nat} {picks : List α → α → List α → Prop} {limit need : Nat}
  {l gone kept : List α}

variable (h : MakesRoom weight picks limit need l gone kept)
include h

theorem MakesRoom.room :
    total weight kept + need ≤ limit := by
  induction h with
  | fits room => exact room
  | evict _ _ _ ih => exact ih

theorem MakesRoom.sublist : kept.Sublist l := by
  induction h with
  | fits => exact .refl _
  | evict _ _ _ ih => exact ih.trans ((sublist_cons_self _ _).append_left _)

theorem MakesRoom.perm : l.Perm (kept ++ gone) := by
  induction h with
  | fits => rw [append_nil]
  | evict _ _ _ ih => exact perm_middle.trans ((ih.cons _).trans perm_middle.symm)

end MakesRoom

/-! ### Whole runs -/

structure Log (α : Type*) where
  queued : List α
  accepted : List α
  evicted : List α
  drained : List α

namespace Log

def empty : Log α := ⟨[], [], [], []⟩

inductive Next (weight : α → Nat) (picks : List α → α → List α → Prop) (limit : Nat) (l : Log α) :
    Log α → Prop
  | accept {x : α} {gone kept : List α}
      (room : MakesRoom weight picks limit (weight x) l.queued gone kept) :
      Next weight picks limit l
        ⟨kept ++ [x], l.accepted ++ [x], l.evicted ++ gone, l.drained⟩
  | drain : Next weight picks limit l ⟨[], l.accepted, l.evicted, l.drained ++ l.queued⟩

abbrev Reached (weight : α → Nat) (picks : List α → α → List α → Prop) (limit : Nat) : Log α → Prop :=
  Relation.ReflTransGen (Next weight picks limit) empty

/-- What is queued is within the limit; every accepted element was handed out, is queued or was
evicted; and the first two are in the order of their arrival. -/
structure Sound (weight : α → Nat) (limit : Nat) (l : Log α) : Prop where
  within : total weight l.queued ≤ limit
  inOrder : (l.drained ++ l.queued).Sublist l.accepted
  once : l.accepted.Perm (l.drained ++ l.queued ++ l.evicted)

variable {weight : α → Nat} {picks : List α → α → List α → Prop} {limit : Nat} {l l' : Log α}

theorem Sound.next (h : l.Sound weight limit) (hnext : Next weight picks limit l l') :
    l'.Sound weight limit := by
  cases hnext with
  | @accept x gone kept room =>
    refine ⟨?_, ?_, ?_⟩
    · simpa using room.room
    · rw [← append_assoc]
      exact ((room.sublist.append_left _).trans h.inOrder).append (.refl _)
    · have hplaces : (l.drained ++ (kept ++ gone) ++ l.evicted ++ [x]).Perm
          (l.drained ++ (kept ++ [x]) ++ (l.evicted ++ gone)) := by
        simp only [append_assoc]
        refine ((perm_append_comm.trans ?_).append_left kept).append_left l.drained
        rw [← append_assoc]
        exact perm_append_comm.append_right gone
      exact ((h.once.trans ((room.perm.append_left _).append_right _)).append_right _).trans hplaces
  | drain =>
    refine ⟨Nat.zero_le _, ?_, ?_⟩
    · rw [append_nil]
      exact h.inOrder
    · rw [append_nil]
      exact h.once

theorem Reached.sound (h : Reached weight picks limit l) : l.Sound weight limit := by
  induction h with
  | refl => exact ⟨Nat.zero_le _, .refl _, .refl _⟩
  | tail _ hnext ih => exact ih.next hnext

end Log

end Lib.Eviction
