import Mathlib.Data.List.Perm.Basic
import Mathlib.Data.List.Sort

/-!
# Keyed tables

A table is the list of its rows in insertion order, and `UniqueOn` says that no two rows share a
value in a column. Row order is never meaningful, so two tables are compared up to `List.Perm`;
under a unique key that is equality as sets of rows (`perm_of_mem_iff`), and a lookup by the key
cannot tell permuted tables apart (`lookup_perm`).
-/

namespace Lib.Table

open List

variable {α κ : Type*}
variable {t : List α} {p : α → Bool} {key : α → κ} {f : α → α} {β : Type*} {r : α}

def UniqueOn (key : α → κ) (t : List α) : Prop := (t.map key).Nodup

/-- `SELECT * WHERE key = k`, for a column `key` that identifies the row. -/
def lookup [DecidableEq κ] (key : α → κ) (t : List α) (k : κ) : Option α :=
  t.find? fun r => decide (key r = k)

/-- `UPDATE SET f WHERE p`. -/
def updateWhere (p : α → Bool) (f : α → α) (t : List α) : List α :=
  t.map fun r => if p r then f r else r

/-- `DELETE WHERE p`. -/
def deleteWhere (p : α → Bool) (t : List α) : List α := t.filter fun r => !p r

/-! ### Membership -/

theorem mem_updateWhere : r ∈ updateWhere p f t ↔ ∃ a ∈ t, (if p a then f a else a) = r := by
  simp [updateWhere]

@[simp] theorem mem_deleteWhere : r ∈ deleteWhere p t ↔ r ∈ t ∧ p r = false := by
  simp [deleteWhere]

theorem mem_of_mem_deleteWhere (h : r ∈ deleteWhere p t) : r ∈ t :=
  (mem_deleteWhere.1 h).1

theorem updateWhere_of_none (h : ∀ r ∈ t, p r = false) : updateWhere p f t = t := by
  unfold updateWhere
  conv_rhs => rw [← map_id t]
  refine map_congr_left fun r hr => ?_
  simp [h r hr]

theorem updateWhere_of_fixed (h : ∀ r ∈ t, p r → f r = r) : updateWhere p f t = t := by
  unfold updateWhere
  conv_rhs => rw [← map_id t]
  refine map_congr_left fun r hr => ?_
  by_cases hp : p r = true
  · simp [hp, h r hr hp]
  · simp [hp]

theorem deleteWhere_of_none (h : ∀ r ∈ t, p r = false) : deleteWhere p t = t :=
  filter_eq_self.2 fun r hr => by simp [h r hr]

@[simp] theorem deleteWhere_deleteWhere (p : α → Bool) (t : List α) :
    deleteWhere p (deleteWhere p t) = deleteWhere p t :=
  deleteWhere_of_none fun _ hr => (mem_deleteWhere.1 hr).2

/-! ### Rows under another name -/

theorem updateWhere_map {g : α → β} {q : β → Bool} {f' : β → β} (hq : ∀ r, q (g r) = p r)
    (hf : ∀ r, f' (g r) = g (f r)) (t : List α) :
    updateWhere q f' (t.map g) = (updateWhere p f t).map g := by
  rw [updateWhere, updateWhere, map_map, map_map]
  refine map_congr_left fun r _ => ?_
  show (if q (g r) then f' (g r) else g r) = g (if p r then f r else r)
  rw [hq]
  split_ifs
  · exact hf r
  · rfl

theorem deleteWhere_map {g : α → β} {q : β → Bool} (hq : ∀ r, q (g r) = p r) (t : List α) :
    deleteWhere q (t.map g) = (deleteWhere p t).map g := by
  rw [deleteWhere, deleteWhere, filter_map]
  congr 2
  funext r
  show (!q (g r)) = !p r
  rw [hq]

theorem any_map_of_eq {g : α → β} {q : β → Bool} (hq : ∀ r, q (g r) = p r) (t : List α) :
    (t.map g).any q = t.any p := by
  rw [any_map]
  congr 1
  funext r
  exact hq r

theorem updateWhere_updateWhere (hf : ∀ r, f (f r) = f r) (t : List α) :
    updateWhere p f (updateWhere p f t) = updateWhere p f t := by
  refine updateWhere_of_fixed fun r hr hpr => ?_
  obtain ⟨a, -, rfl⟩ := mem_updateWhere.1 hr
  by_cases ha : p a = true
  · simp [ha, hf]
  · simp [ha] at hpr

/-! ### Unique columns -/

theorem UniqueOn.eq_of_key (h : UniqueOn key t) {r s : α} (hr : r ∈ t) (hs : s ∈ t)
    (hk : key r = key s) : r = s :=
  inj_on_of_nodup_map h hr hs hk

@[simp] theorem uniqueOn_nil (key : α → κ) : UniqueOn key ([] : List α) := by
  simp [UniqueOn]

theorem UniqueOn.nodup (h : UniqueOn key t) : t.Nodup :=
  List.Nodup.of_map key h

theorem UniqueOn.sublist {t u : List α} (h : UniqueOn key t) (hu : u.Sublist t) : UniqueOn key u :=
  List.Nodup.sublist (hu.map key) h

theorem UniqueOn.deleteWhere (h : UniqueOn key t) (p : α → Bool) : UniqueOn key (deleteWhere p t) :=
  h.sublist (filter_sublist)

theorem UniqueOn.updateWhere (h : UniqueOn key t) (p : α → Bool) (hf : ∀ r, key (f r) = key r) :
    UniqueOn key (updateWhere p f t) := by
  have hmap : (Table.updateWhere p f t).map key = t.map key := by
    rw [Table.updateWhere, map_map]
    refine map_congr_left fun r _ => ?_
    by_cases hp : p r = true <;> simp [hp, hf]
  rw [UniqueOn, hmap]
  exact h

theorem UniqueOn.append (h : UniqueOn key t) (hr : ∀ s ∈ t, key s ≠ key r) :
    UniqueOn key (t ++ [r]) := by
  unfold UniqueOn
  rw [map_append, nodup_append]
  refine ⟨h, by simp, ?_⟩
  intro k hk l hl
  obtain ⟨s, hs, rfl⟩ := mem_map.1 hk
  simp only [map_cons, map_nil, mem_singleton] at hl
  subst hl
  exact hr s hs

theorem UniqueOn.ne_of_append {t u : List α} (h : UniqueOn key (t ++ r :: u)) :
    ∀ s ∈ t, key s ≠ key r := by
  intro s hs
  unfold UniqueOn at h
  rw [map_append, nodup_append] at h
  exact h.2.2 _ (mem_map_of_mem hs) _ (by simp)

theorem UniqueOn.perm {t u : List α} (h : UniqueOn key t) (hp : t.Perm u) : UniqueOn key u :=
  (hp.map key).nodup_iff.1 h

theorem UniqueOn.map_of_key (h : UniqueOn key t) {g : α → β} {key' : β → κ}
    (hg : ∀ r, key' (g r) = key r) : UniqueOn key' (t.map g) := by
  have hmap : (t.map g).map key' = t.map key := by
    rw [map_map]
    exact map_congr_left fun r _ => hg r
  rw [UniqueOn, hmap]
  exact h

theorem UniqueOn.countP_eq_one (h : UniqueOn key t) (hr : r ∈ t) (hp : p r)
    (honly : ∀ s ∈ t, p s → key s = key r) : t.countP p = 1 := by
  classical
  have hsame : ∀ s ∈ t, p s = true ↔ (s == r) = true := fun s hs =>
    ⟨fun hps => beq_iff_eq.2 (h.eq_of_key hs hr (honly s hs hps)), fun heq => by
      rw [eq_of_beq heq]
      exact hp⟩
  rw [countP_congr hsame]
  exact count_eq_one_of_mem h.nodup hr

theorem perm_of_mem_iff {key key' : α → κ} {t u : List α} (ht : UniqueOn key t)
    (hu : UniqueOn key' u) (h : ∀ r, r ∈ t ↔ r ∈ u) : t.Perm u :=
  (perm_ext_iff_of_nodup ht.nodup hu.nodup).2 h

/-! ### Permuted tables -/

theorem updateWhere_perm {t u : List α} (h : t.Perm u) (p : α → Bool) (f : α → α) :
    (updateWhere p f t).Perm (updateWhere p f u) :=
  h.map _

theorem deleteWhere_perm {t u : List α} (h : t.Perm u) (p : α → Bool) :
    (deleteWhere p t).Perm (deleteWhere p u) :=
  h.filter _

theorem any_perm {t u : List α} (h : t.Perm u) (p : α → Bool) : t.any p = u.any p := by
  rw [Bool.eq_iff_iff, any_eq_true, any_eq_true]
  simp only [h.mem_iff]

/-! ### Lookup by key -/

section Lookup

variable [DecidableEq κ] {key : α → κ} {t : List α}
variable {k : κ} {r : α}

theorem mem_of_lookup (h : lookup key t k = some r) : r ∈ t :=
  mem_of_find?_eq_some h

theorem key_of_lookup (h : lookup key t k = some r) : key r = k := by
  simpa using find?_some h

theorem lookup_eq_none : lookup key t k = none ↔ ∀ r ∈ t, key r ≠ k := by
  simp [lookup, find?_eq_none]

theorem UniqueOn.lookup_eq_some (h : UniqueOn key t) :
    lookup key t k = some r ↔ r ∈ t ∧ key r = k := by
  refine ⟨fun hl => ⟨mem_of_lookup hl, key_of_lookup hl⟩, fun ⟨hr, hk⟩ => ?_⟩
  cases hl : lookup key t k with
  | none => exact absurd hk (lookup_eq_none.1 hl r hr)
  | some s =>
    have hs : key s = key r := (key_of_lookup hl).trans hk.symm
    rw [h.eq_of_key (mem_of_lookup hl) hr hs]

theorem lookup_perm {u : List α} (ht : UniqueOn key t) (h : t.Perm u) (k : κ) :
    lookup key t k = lookup key u k := by
  have hu := ht.perm h
  refine Option.ext fun r => ?_
  rw [ht.lookup_eq_some, hu.lookup_eq_some, h.mem_iff]

theorem lookup_map {β : Type*} {g : α → β} {key' : β → κ} (hkey : ∀ r, key' (g r) = key r)
    (t : List α) (k : κ) : lookup key' (t.map g) k = (lookup key t k).map g := by
  unfold lookup
  rw [find?_map]
  simp only [Function.comp_def, hkey]

theorem lookup_updateWhere {p : α → Bool} {f : α → α} (hf : ∀ r, key (f r) = key r)
    (t : List α) (k : κ) :
    lookup key (updateWhere p f t) k = (lookup key t k).map fun r => if p r then f r else r := by
  have hkey : ∀ r, key (if p r then f r else r) = key r := by
    intro r
    split_ifs
    · exact hf r
    · rfl
  unfold lookup updateWhere
  rw [find?_map]
  simp only [Function.comp_def, hkey]

theorem UniqueOn.countP_updateWhere (h : UniqueOn key t) (q : α → Bool) (f : α → α) (k : κ) :
    (Table.updateWhere (fun r => decide (key r = k)) f t).countP q +
        (lookup key t k).toList.countP q =
      t.countP q + (lookup key t k).toList.countP fun r => q (f r) := by
  induction t with
  | nil => rfl
  | cons r t ih =>
    rw [UniqueOn, map_cons, nodup_cons] at h
    have hcons : Table.updateWhere (fun r => decide (key r = k)) f (r :: t) =
        (if decide (key r = k) = true then f r else r) ::
          Table.updateWhere (fun r => decide (key r = k)) f t := rfl
    by_cases hk : key r = k
    · have hrest : Table.updateWhere (fun r => decide (key r = k)) f t = t :=
        updateWhere_of_none fun s hs =>
          decide_eq_false fun heq => h.1 (hk.trans heq.symm ▸ mem_map_of_mem hs)
      have hrow : lookup key (r :: t) k = some r := by
        simp [lookup, hk]
      rw [hcons, hrest, hrow, if_pos (decide_eq_true hk)]
      simp only [Option.toList_some, countP_cons, countP_nil]
      omega
    · have hrow : lookup key (r :: t) k = lookup key t k := by
        simp [lookup, hk]
      have hne : ¬ decide (key r = k) = true := by
        simp [hk]
      have ih := ih h.2
      rw [hcons, hrow, if_neg hne, countP_cons, countP_cons]
      omega

end Lookup

/-! ### One row -/

section OneRow

variable [DecidableEq κ]
variable {f : α → α}

theorem filter_updateWhere (key : α → κ) (hkey : ∀ r, key (f r) = key r) (t : List α) {id x : κ}
    (hx : x ≠ id) :
    (updateWhere (fun r => key r = id) f t).filter (fun r => key r = x) =
      t.filter fun r => key r = x := by
  induction t with
  | nil => rfl
  | cons r t ih =>
    rw [updateWhere, map_cons, filter_cons, filter_cons]
    rw [updateWhere] at ih
    rw [ih]
    by_cases hr : key r = id
    · have hne : ¬ id = x := Ne.symm hx
      simp [hr, hkey, hne]
    · simp [hr]

/-- Writing the row `id` gives it the flag of the write, if it is there, and leaves the flag of every
other row as it is. -/
theorem any_updateWhere (key : α → κ) (active : α → Bool) {b : Bool}
    (hkey : ∀ r, key (f r) = key r) (hflag : ∀ r, active (f r) = b) (t : List α) (id x : κ) :
    (updateWhere (fun r => key r = id) f t).any (fun r => key r = x && active r) =
      if x = id then b && t.any fun r => key r = id else t.any fun r => key r = x && active r := by
  induction t with
  | nil => simp [updateWhere]
  | cons r t ih =>
    rw [updateWhere, map_cons, any_cons, any_cons, any_cons]
    rw [updateWhere] at ih
    rw [ih]
    by_cases hx : x = id
    · subst hx
      by_cases hr : key r = x
      · cases b <;> simp [hr, hkey, hflag]
      · simp [hr]
    · by_cases hr : key r = id
      · have hne : id ≠ x := Ne.symm hx
        simp [hr, hkey, hx, hne]
      · simp [hr, hx]

theorem filter_updateWhere_self (key : α → κ) (hkey : ∀ r, key (f r) = key r) (t : List α)
    (id : κ) :
    (updateWhere (fun r => key r = id) f t).filter (fun r => key r = id) =
      (t.filter fun r => key r = id).map f := by
  induction t with
  | nil => rfl
  | cons r t ih =>
    rw [updateWhere, map_cons, filter_cons, filter_cons]
    rw [updateWhere] at ih
    rw [ih]
    by_cases hr : key r = id
    · simp [hr, hkey]
    · simp [hr]

end OneRow

end Lib.Table
