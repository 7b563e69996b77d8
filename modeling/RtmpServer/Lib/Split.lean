import Mathlib.Data.List.TakeWhile
import Mathlib.Data.List.TakeDrop

/-!
# Lists that are split

A list is the part before its first element with a property and the rest (`span_spec`,
`filter_dropWhile`, `mem_takeWhile_of_pairwise`).
-/

namespace Lib.Split

open List

variable {α : Type*}

/-- What `List.span` gives: the two parts of the list, with every element of the first satisfying the
test and the head of the second failing it. -/
theorem span_spec (p : α → Bool) (l : List α) {before after : List α}
    (h : l.span p = (before, after)) :
    l = before ++ after ∧ (∀ x ∈ before, p x) ∧
      ∀ x rest, after = x :: rest → p x = false := by
  rw [span_eq_takeWhile_dropWhile] at h
  obtain ⟨rfl, rfl⟩ := Prod.mk.inj h
  refine ⟨takeWhile_append_dropWhile.symm, fun x hx => mem_takeWhile_imp hx, ?_⟩
  intro x rest hcons
  have hne : l.dropWhile p ≠ [] := by
    rw [hcons]
    exact cons_ne_nil _ _
  have hhead := head_dropWhile_not p hne
  simpa [hcons] using hhead

theorem filter_dropWhile {p f : α → Bool} (h : ∀ x, p x = false → f x) (l : List α) :
    (l.dropWhile p).filter f = (l.filter f).dropWhile p := by
  induction l with
  | nil => rfl
  | cons x l ih =>
    cases hp : p x with
    | false =>
      rw [dropWhile_cons_of_neg (by simp [hp]), filter_cons_of_pos (h x hp),
        dropWhile_cons_of_neg (by simp [hp])]
    | true =>
      rw [dropWhile_cons_of_pos hp, ih]
      cases hf : f x with
      | false => rw [filter_cons_of_neg (by simp [hf])]
      | true => rw [filter_cons_of_pos hf, dropWhile_cons_of_pos hp]

theorem mem_takeWhile_of_pairwise {p : α → Bool} {l : List α}
    (h : l.Pairwise fun x y => p y = true → p x) {x : α} (hx : x ∈ l) (hp : p x) :
    x ∈ l.takeWhile p := by
  induction l with
  | nil => cases hx
  | cons y l ih =>
    obtain ⟨hy, hl⟩ := pairwise_cons.1 h
    rcases mem_cons.1 hx with rfl | hx
    · rw [takeWhile_cons_of_pos hp]
      exact mem_cons_self
    · rw [takeWhile_cons_of_pos (hy x hx hp)]
      exact mem_cons_of_mem _ (ih hl hx)

end Lib.Split
