import Mathlib.Data.List.AList

/-!
# Finite maps

What the operations of a hash map do to a lookup, for maps whose values do not depend on the key:
`lookup_insert` and `lookup_erase` as one equation each, and `retain`, which keeps the entries of a
predicate.
-/

namespace Lib.Assoc

open Option

variable {κ ν : Type*} [DecidableEq κ]

section

variable (m : AList fun _ : κ => ν)
include m

@[grind =] theorem lookup_insert (k j : κ) (v : ν) :
    (m.insert k v).lookup j = if j = k then some v else m.lookup j := by
  by_cases h : j = k
  · subst h
    rw [if_pos rfl, AList.lookup_insert]
  · rw [if_neg h, AList.lookup_insert_ne h]

@[grind =] theorem lookup_erase (k j : κ) :
    (m.erase k).lookup j = if j = k then none else m.lookup j := by
  by_cases h : j = k
  · subst h
    rw [if_pos rfl, AList.lookup_erase]
  · rw [if_neg h, AList.lookup_erase_ne h]

theorem lookup_elim_erase (o : Option κ) (j : κ) :
    (o.elim m m.erase).lookup j = if o = some j then none else m.lookup j := by
  cases o with
  | none => simp
  | some k =>
    simp only [elim_some, lookup_erase, some.injEq, eq_comm]

theorem lookup_insert_unless [DecidableEq ν] (k j : κ) (v : ν) :
    (if m.lookup k ≠ some v then m.insert k v else m).lookup j =
      if j = k then some v else m.lookup j := by
  split
  · exact lookup_insert m k j v
  · rename_i h
    by_cases hj : j = k
    · subst hj
      rw [if_pos rfl]
      exact not_not.1 h
    · rw [if_neg hj]

end

def retain (p : κ → ν → Bool) (m : AList fun _ : κ => ν) : AList fun _ : κ => ν :=
  ⟨m.entries.filter fun e => p e.1 e.2, m.nodupKeys.sublist List.filter_sublist⟩

theorem lookup_retain_eq_some {p : κ → ν → Bool} {m : AList fun _ : κ => ν} {k : κ} {v : ν} :
    (retain p m).lookup k = some v ↔ m.lookup k = some v ∧ p k v = true := by
  rw [← mem_def, AList.mem_lookup_iff, ← mem_def, AList.mem_lookup_iff]
  exact List.mem_filter

theorem lookup_retain (p : κ → ν → Bool) (m : AList fun _ : κ => ν) (k : κ) :
    (retain p m).lookup k = (m.lookup k).filter (p k) := by
  apply Option.ext
  intro v
  rw [lookup_retain_eq_some, filter_eq_some_iff]

end Lib.Assoc
