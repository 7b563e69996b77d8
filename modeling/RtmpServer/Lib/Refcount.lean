import Mathlib.Algebra.GroupWithZero.Nat
import Mathlib.Algebra.BigOperators.Group.List.Basic
import Mathlib.Algebra.Order.Group.Nat
import RtmpServer.Lib.Assoc

/-!
# Reference counts

A finite map from keys to numbers of references, where a key with none may be left out. `count` is
the number a key stands for and the only thing the lemmas speak of. The references are held by
someone: `sum_map_set` moves the sum over a list of holders when one of them changes.
-/

namespace Lib.Refcount

open List

variable {κ : Type*} [DecidableEq κ]

abbrev Counts (κ : Type*) := AList fun _ : κ => Nat

def count (m : Counts κ) (k : κ) : Nat := (m.lookup k).getD 0

def incr (m : Counts κ) (k : κ) : Counts κ := m.insert k (count m k + 1)

/-- One reference less; the last one takes the key with it. -/
def decr (m : Counts κ) (k : κ) : Counts κ :=
  match m.lookup k with
  | some c => if c > 1 then m.insert k (c - 1) else m.erase k
  | none => m

def retain (p : κ → Bool) (m : Counts κ) : Counts κ :=
  ⟨m.entries.filter fun e => p e.1, m.nodupKeys.sublist filter_sublist⟩

@[simp] theorem count_empty (k : κ) : count (∅ : Counts κ) k = 0 := rfl

@[grind =] theorem count_insert (m : Counts κ) (k j : κ) (c : Nat) :
    count (m.insert k c) j = if j = k then c else count m j := by
  grind [count]

@[grind =] theorem count_erase (m : Counts κ) (k j : κ) :
    count (m.erase k) j = if j = k then 0 else count m j := by
  grind [count]

@[grind =] theorem count_incr (m : Counts κ) (k j : κ) :
    count (incr m k) j = count m j + if j = k then 1 else 0 := by
  grind [incr]

@[grind =] theorem count_decr (m : Counts κ) (k j : κ) :
    count (decr m k) j = count m j - if j = k then 1 else 0 := by
  cases hk : m.lookup k <;> grind [decr, count]

@[grind =] theorem count_retain (p : κ → Bool) (m : Counts κ) (k : κ) :
    count (retain p m) k = if p k then count m k else 0 := by
  have hlookup : (retain p m).lookup k = (m.lookup k).filter fun _ => p k :=
    Assoc.lookup_retain (fun k _ => p k) m k
  rw [count, hlookup, count]
  cases m.lookup k <;> cases p k <;> rfl

theorem lookup_isSome_of_count {m : Counts κ} {k : κ} (h : 0 < count m k) :
    (m.lookup k).isSome = true := by
  cases hk : m.lookup k with
  | none => rw [count, hk, Option.getD_none] at h; exact absurd h (Nat.lt_irrefl 0)
  | some c => rfl

/-! ### Holders -/

section Holders

variable {α : Type*}

theorem sum_map_set (f : α → Nat) {l : List α} {i : Nat} {a : α} (h : l[i]? = some a) (b : α) :
    ((l.set i b).map f).sum + f a = (l.map f).sum + f b := by
  induction l generalizing i with
  | nil => cases h
  | cons x l ih =>
    cases i with
    | zero =>
      cases h
      rw [set_cons_zero, map_cons, map_cons, sum_cons, sum_cons]
      omega
    | succ i =>
      have := ih (i := i) h
      rw [set_cons_succ, map_cons, map_cons, sum_cons, sum_cons]
      omega

end Holders

end Lib.Refcount
