import Mathlib.Algebra.Order.BigOperators.Group.List
import RtmpServer.Lib.Refcount
import RtmpServer.Lib.Replay

/-!
# Tasks over a shared memory

Any number of tasks take steps, one at a time and in any order. A step reads and writes the shared
memory and the state of the task that takes it. What the tasks hold together is a sum over them,
which a step moves by what its own task holds (`Moves.held`).
-/

namespace Lib

open List Replay

structure Tasks (σ τ : Type*) where
  shared : σ
  tasks : List τ
  deriving DecidableEq, Repr

namespace Tasks

variable {σ τ ω : Type*} {f : σ → τ → ω → Option (σ × τ)} {s s' : Tasks σ τ} {i : Nat} {t t' : τ}

def step (f : σ → τ → ω → Option (σ × τ)) (s : Tasks σ τ) (e : Nat × ω) : Option (Tasks σ τ) :=
  (s.tasks[e.1]?).bind fun t => (f s.shared t e.2).map fun r => ⟨r.1, s.tasks.set e.1 r.2⟩

def held (g : τ → Nat) (s : Tasks σ τ) : Nat := (s.tasks.map g).sum

/-- The task at `i` goes from `t` to `t'`, and the others stay. -/
structure Moves (s s' : Tasks σ τ) (i : Nat) (t t' : τ) : Prop where
  old : s.tasks[i]? = some t
  tasks : s'.tasks = s.tasks.set i t'

theorem step_eq_some {e : Nat × ω} (h : step f s e = some s') :
    ∃ t t', f s.shared t e.2 = some (s'.shared, t') ∧ Moves s s' e.1 t t' := by
  obtain ⟨t, ht, hstep⟩ := Option.bind_eq_some_iff.1 h
  obtain ⟨⟨m, t'⟩, htask, rfl⟩ := Option.map_eq_some_iff.1 hstep
  exact ⟨t, t', htask, ht, rfl⟩

theorem Moves.new (h : Moves s s' i t t') : s'.tasks[i]? = some t' := by
  rw [h.tasks, getElem?_set_self (List.getElem?_eq_some_iff.1 h.old).1]

theorem Moves.held (h : Moves s s' i t t') (g : τ → Nat) :
    s'.held g + g t = s.held g + g t' := by
  rw [Tasks.held, h.tasks]
  exact Refcount.sum_map_set g h.old t'

theorem Moves.mem (h : Moves s s' i t t') {u : τ} (hu : u ∈ s'.tasks) : u ∈ s.tasks ∨ u = t' := by
  rw [h.tasks] at hu
  exact mem_or_eq_of_mem_set hu

theorem held_eq (hi : s.tasks[i]? = some t) (g : τ → Nat) :
    s.held g = g t + ((s.tasks.eraseIdx i).map g).sum := by
  obtain ⟨hlt, rfl⟩ := List.getElem?_eq_some_iff.1 hi
  have hperm := (getElem_cons_eraseIdx_perm hlt).map g
  rw [Tasks.held, ← hperm.sum_eq, map_cons, sum_cons]

theorem held_le (hi : s.tasks[i]? = some t) (g : τ → Nat) : g t ≤ s.held g := by
  rw [held_eq hi]
  exact Nat.le_add_right _ _

/-- What the steps of the task at `i` keep, whatever the others do in between. -/
theorem run_task {P : τ → Prop} {es : List (Nat × ω)}
    (hstep : ∀ m t op m' t', (i, op) ∈ es → P t → f m t op = some (m', t') → P t')
    (hs : ∃ t, s.tasks[i]? = some t ∧ P t) (h : replay (step f) s es = some s') :
    ∃ t, s'.tasks[i]? = some t ∧ P t := by
  refine replay_inv (P := fun s => ∃ t, s.tasks[i]? = some t ∧ P t) (fun s e s' he hs h => ?_) hs h
  obtain ⟨t, ht, hP⟩ := hs
  obtain ⟨u, u', htask, hmoves⟩ := step_eq_some h
  by_cases hi : e.1 = i
  · subst hi
    obtain rfl : u = t := Option.some.inj (hmoves.old.symm.trans ht)
    exact ⟨u', hmoves.new, hstep _ _ _ _ _ he hP htask⟩
  · exact ⟨t, by rw [hmoves.tasks, getElem?_set_ne hi, ht], hP⟩

end Tasks

end Lib
