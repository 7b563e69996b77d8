import Mathlib.Data.List.Basic

/-!
# Signals that switch something on and off

A sender puts signals on a channel, `true` for on and `false` for off, and a receiver counts them:
on adds one, off takes one away if there is one. `settle` is the count after a list of signals, and
`Single` says that it never passes one on the way. A sender who sends on only when everything before
settles at nothing keeps the channel `Single`, whatever the receiver has read so far. `Kept` is that
discipline as an invariant of sender and receiver.
-/

namespace Lib.Toggle

open List Nat

def settle (n : Nat) : List Bool → Nat
  | [] => n
  | true :: l => settle (n + 1) l
  | false :: l => settle (n - 1) l

def Single (n : Nat) : List Bool → Prop
  | [] => n ≤ 1
  | true :: l => n = 0 ∧ Single 1 l
  | false :: l => n ≤ 1 ∧ Single 0 l

def net (l : List Bool) : Int := l.count true - l.count false

theorem net_on (l : List Bool) : net (true :: l) = net l + 1 := by
  simp only [net, count_cons_self, count_cons_of_ne (by decide : true ≠ false)]
  omega

theorem net_off (l : List Bool) : net (false :: l) = net l - 1 := by
  simp only [net, count_cons_self, count_cons_of_ne (by decide : false ≠ true)]
  omega

theorem settle_append (n : Nat) (l₁ l₂ : List Bool) :
    settle n (l₁ ++ l₂) = settle (settle n l₁) l₂ := by
  induction l₁ generalizing n with
  | nil => rfl
  | cons b l₁ ih =>
    cases b with
    | true => exact ih (n + 1)
    | false => exact ih (n - 1)

theorem settle_mono (l : List Bool) {m n : Nat} (h : m ≤ n) : settle m l ≤ settle n l := by
  induction l generalizing m n with
  | nil => exact h
  | cons b l ih =>
    cases b with
    | true => exact ih (by omega)
    | false => exact ih (by omega)

/-- With nothing counted and no signal on the way that switches on, nothing will be counted. -/
theorem settle_eq_zero {l : List Bool} (h : true ∉ l) : settle 0 l = 0 := by
  induction l with
  | nil => rfl
  | cons b l ih =>
    cases b with
    | true => exact absurd mem_cons_self h
    | false => exact ih fun hl => h (mem_cons_of_mem _ hl)

/-- Less at the receiver settles at nothing if more does. -/
theorem settle_eq_zero_of_le {l : List Bool} {m n : Nat} (hle : m ≤ n) (h : settle n l = 0) :
    settle m l = 0 := by
  have := settle_mono l hle
  omega

namespace Single

variable {n : Nat} {l : List Bool}

theorem le (h : Single n l) : n ≤ 1 := by
  cases l with
  | nil => exact h
  | cons b l =>
    cases b with
    | true => exact h.1 ▸ zero_le 1
    | false => exact h.1

theorem anti {m : Nat} (h : Single n l) (hle : m ≤ n) : Single m l := by
  cases l with
  | nil => exact Nat.le_trans hle h
  | cons b l =>
    cases b with
    | true => exact ⟨le_zero.1 (h.1 ▸ hle), h.2⟩
    | false => exact ⟨Nat.le_trans hle h.1, h.2⟩

theorem append_iff (n : Nat) (l₁ l₂ : List Bool) :
    Single n (l₁ ++ l₂) ↔ Single n l₁ ∧ Single (settle n l₁) l₂ := by
  induction l₁ generalizing n with
  | nil => exact ⟨fun h => ⟨h.le, h⟩, fun h => h.2⟩
  | cons b l₁ ih =>
    cases b with
    | true =>
      show n = 0 ∧ Single 1 (l₁ ++ l₂) ↔ (n = 0 ∧ Single 1 l₁) ∧ Single (settle (n + 1) l₁) l₂
      rw [ih, and_assoc]
      refine and_congr_right fun hn => ?_
      rw [hn]
    | false =>
      show n ≤ 1 ∧ Single 0 (l₁ ++ l₂) ↔ (n ≤ 1 ∧ Single 0 l₁) ∧ Single (settle (n - 1) l₁) l₂
      rw [ih, and_assoc]
      refine and_congr_right fun hn => ?_
      rw [Nat.sub_eq_zero_of_le hn]

theorem settle_le (h : Single n l) : settle n l ≤ 1 := by
  have h' : Single n (l ++ []) := by rwa [append_nil]
  exact ((append_iff n l []).1 h').2

/-- Switching on is safe once everything before settles at nothing. -/
theorem on (h : Single n l) (hl : settle n l = 0) : Single n (l ++ [true]) :=
  (append_iff n l [true]).2 ⟨h, hl, Nat.le_refl 1⟩

theorem off (h : Single n l) : Single n (l ++ [false]) :=
  (append_iff n l [false]).2 ⟨h, h.settle_le, zero_le 1⟩

theorem settle_off (h : Single n l) : settle n (l ++ [false]) = 0 := by
  rw [settle_append]
  exact Nat.sub_eq_zero_of_le h.settle_le

/-- What was counted and what is on the way come to one at most. -/
theorem net_le (h : Single n l) : (n : Int) + net l ≤ 1 := by
  induction l generalizing n with
  | nil =>
    have : n ≤ 1 := h
    show (n : Int) + 0 ≤ 1
    omega
  | cons b l ih =>
    cases b with
    | true =>
      have hrest := ih h.2
      have hn := h.1
      rw [net_on]
      omega
    | false =>
      have hrest := ih h.2
      have hn := h.1
      rw [net_off]
      omega

end Single

/-! ### What a sender relies on -/

/-- Never more than one, and nothing in the end while the sender is `idle`. -/
structure Kept (idle : Prop) (n : Nat) (l : List Bool) : Prop where
  single : Single n l
  settled : idle → settle n l = 0

namespace Kept

variable {idle idle' : Prop} {n : Nat} {l : List Bool}

theorem start : Kept idle 0 [] := ⟨zero_le 1, fun _ => rfl⟩

theorem mono (h : Kept idle n l) (himp : idle' → idle) : Kept idle' n l :=
  ⟨h.single, fun hidle => h.settled (himp hidle)⟩

/-- A sender with nothing counted and nothing on the way may take itself for idle. -/
theorem of_quiet (h : Kept idle 0 l) (hl : true ∉ l) : Kept idle' 0 l :=
  ⟨h.single, fun _ => settle_eq_zero hl⟩

theorem less {m : Nat} (h : Kept idle n l) (hle : m ≤ n) : Kept idle m l :=
  ⟨h.single.anti hle, fun hidle => settle_eq_zero_of_le hle (h.settled hidle)⟩

theorem counted (h : Kept idle n (true :: l)) : Kept idle (n + 1) l :=
  ⟨h.single.1 ▸ h.single.2, h.settled⟩

theorem refused (h : Kept idle n (true :: l)) : Kept idle n l := h.counted.less (le_succ n)

theorem uncounted (h : Kept idle n (false :: l)) : Kept idle (n - 1) l :=
  ⟨h.single.2.anti (by have := h.single.1; omega), h.settled⟩

/-- The receiver starts anew and the signals before `l` are lost. -/
theorem lost {l₁ : List Bool} (h : Kept idle n (l₁ ++ l)) : Kept idle 0 l := by
  refine ⟨(((Single.append_iff n l₁ l).1 h.single).2).anti (zero_le _), fun hidle => ?_⟩
  have hsettled := h.settled hidle
  rw [settle_append] at hsettled
  exact settle_eq_zero_of_le (zero_le _) hsettled

/-- An idle sender switches on, and is not idle any more. -/
theorem on (h : Kept idle n l) (hidle : idle) (hbusy : ¬ idle') : Kept idle' n (l ++ [true]) :=
  ⟨h.single.on (h.settled hidle), fun hidle' => absurd hidle' hbusy⟩

theorem off (h : Kept idle n l) : Kept idle' n (l ++ [false]) :=
  ⟨h.single.off, fun _ => h.single.settle_off⟩

end Kept

end Lib.Toggle
