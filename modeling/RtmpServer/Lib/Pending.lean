import Mathlib.Data.Finset.Option

/-!
# Pending changes

A family of finite sets, and changes to them that are decided now and made later. Each works on the
set at one place, where it puts in at most one element and drops others. `settle` is the set at a
place once a list of changes was made. Two changes conflict if one of them drops what the other puts
in at the same place; a change that overtakes others it does not conflict with comes to the same
(`settle_overtake`).
-/

namespace Lib.Pending

open List

structure SetChange (ι α : Type*) where
  target : ι
  adds : Option α
  drops : α → Bool

variable {ι α : Type*} [DecidableEq ι]

namespace SetChange

def conflicts (c d : SetChange ι α) : Bool :=
  decide (c.target = d.target) && (c.adds.any d.drops || d.adds.any c.drops)

theorem drops_eq_false {c d : SetChange ι α} (h : c.conflicts d = false)
    (htarget : c.target = d.target) {x : α} :
    (c.adds = some x → d.drops x = false) ∧ (d.adds = some x → c.drops x = false) := by
  rw [conflicts, decide_eq_true htarget, Bool.true_and, Bool.or_eq_false_iff] at h
  refine ⟨fun hadds => ?_, fun hadds => ?_⟩
  · simpa [hadds] using h.1
  · simpa [hadds] using h.2

variable [DecidableEq α]

def applyAt (c : SetChange ι α) (p : ι) (s : Finset α) : Finset α :=
  if c.target = p then (s.filter fun x => c.drops x = false) ∪ c.adds.toFinset else s

theorem mem_applyAt {c : SetChange ι α} {p : ι} {s : Finset α} {x : α} :
    x ∈ c.applyAt p s ↔
      (c.target = p ∧ c.adds = some x) ∨ (x ∈ s ∧ (c.target = p → c.drops x = false)) := by
  rw [applyAt]
  by_cases hp : c.target = p
  · simp [hp, or_comm]
  · simp [hp]

theorem applyAt_comm {c d : SetChange ι α} (h : c.conflicts d = false) (p : ι) (s : Finset α) :
    c.applyAt p (d.applyAt p s) = d.applyAt p (c.applyAt p s) := by
  by_cases hc : c.target = p
  · by_cases hd : d.target = p
    · ext x
      have hx := @drops_eq_false _ _ _ _ _ h (hc.trans hd.symm) x
      simp only [mem_applyAt, hc, hd, true_and, true_implies]
      tauto
    · simp [applyAt, hd]
  · simp [applyAt, hc]

end SetChange

variable [DecidableEq α]

def settle (p : ι) (s : Finset α) (cs : List (SetChange ι α)) : Finset α :=
  cs.foldl (fun s c => c.applyAt p s) s

theorem settle_cons (p : ι) (s : Finset α) (c : SetChange ι α) (cs : List (SetChange ι α)) :
    settle p s (c :: cs) = settle p (c.applyAt p s) cs := rfl

theorem settle_append (p : ι) (s : Finset α) (cs ds : List (SetChange ι α)) :
    settle p s (cs ++ ds) = settle p (settle p s cs) ds := foldl_append

theorem settle_overtake {c : SetChange ι α} {before : List (SetChange ι α)}
    (h : ∀ d ∈ before, c.conflicts d = false) (p : ι) (s : Finset α)
    (after : List (SetChange ι α)) :
    settle p (c.applyAt p s) (before ++ after) = settle p s (before ++ c :: after) := by
  induction before generalizing s with
  | nil => rfl
  | cons d before ih =>
    rw [cons_append, cons_append, settle_cons, settle_cons,
      ← SetChange.applyAt_comm (h d mem_cons_self)]
    exact ih (fun d' hd' => h d' (mem_cons_of_mem _ hd')) _

theorem mem_settle_of_kept {p : ι} {x : α} {cs : List (SetChange ι α)}
    (h : ∀ c ∈ cs, c.target = p → c.drops x = false) (s : Finset α) :
    x ∈ settle p s cs ↔ x ∈ s ∨ ∃ c ∈ cs, c.target = p ∧ c.adds = some x := by
  induction cs generalizing s with
  | nil => simp [settle]
  | cons c cs ih =>
    have hc := h c mem_cons_self
    rw [settle_cons, ih fun d hd => h d (mem_cons_of_mem _ hd), SetChange.mem_applyAt]
    simp only [mem_cons, exists_eq_or_imp]
    tauto

theorem mem_settle_of_unadded {p : ι} {x : α} {cs : List (SetChange ι α)}
    (h : ∀ c ∈ cs, c.target = p → c.adds ≠ some x) (s : Finset α) :
    x ∈ settle p s cs ↔ x ∈ s ∧ ∀ c ∈ cs, c.target = p → c.drops x = false := by
  induction cs generalizing s with
  | nil => simp [settle]
  | cons c cs ih =>
    have hc := h c mem_cons_self
    rw [settle_cons, ih fun d hd => h d (mem_cons_of_mem _ hd), SetChange.mem_applyAt]
    simp only [mem_cons, forall_eq_or_imp]
    tauto

end Lib.Pending
