import Mathlib.Data.List.Basic
import Mathlib.Data.List.TakeDrop
import Mathlib.Data.Option.Basic

/-!
# Replaying a log

A state machine is a partial step function: `step s e` is the state after entry `e`, or nothing
when the machine refuses to go on. `replay` folds it over a list of entries and `stateAt` over the
first `i` entries of a log, from a fixed initial state.

* The induction rules are `replay_inv` for invariants, `replay_sim` for simulations,
  `replay_inv_along` for entries that all meet a condition `along` the way, and `replay_survives` for
  what entries can only take away.
* A `Replica` is a state together with the number of entries it stands for. It `Agrees` with the
  log when its state is `Same` as the replayed one.
-/

namespace Lib.Replay

open Option List

variable {σ ε : Type*}

/-- The state after the entries `es`, or nothing when a step refuses. -/
def replay (step : σ → ε → Option σ) (s : σ) (es : List ε) : Option σ := es.foldlM step s

section Replay

variable {step : σ → ε → Option σ}
variable {es : List ε} {P : σ → ε → Prop} {s t : σ} {ok : σ → ε → Bool} {e : ε}

@[simp] theorem replay_nil (s : σ) : replay step s [] = some s := rfl

@[simp] theorem replay_cons (s : σ) (e : ε) (es : List ε) :
    replay step s (e :: es) = (step s e).bind fun s' => replay step s' es := by
  simp [replay]

theorem replay_append (s : σ) (es fs : List ε) :
    replay step s (es ++ fs) = (replay step s es).bind fun s' => replay step s' fs := by
  simp [replay, foldlM_append]

theorem replay_cons_eq_some :
    replay step s (e :: es) = some t ↔ ∃ s', step s e = some s' ∧ replay step s' es = some t := by
  rw [replay_cons, bind_eq_some_iff]

theorem replay_append_eq_some {es fs : List ε} :
    replay step s (es ++ fs) = some t ↔
      ∃ s', replay step s es = some s' ∧ replay step s' fs = some t := by
  rw [replay_append, bind_eq_some_iff]

/-- The rule for invariants. The step may use that its entry is one of the list. -/
theorem replay_inv {P : σ → Prop} (hstep : ∀ s e s', e ∈ es → P s → step s e = some s' → P s')
    (hs : P s) (h : replay step s es = some t) : P t := by
  induction es generalizing s with
  | nil =>
    cases h
    exact hs
  | cons e es ih =>
    obtain ⟨s', he, h⟩ := replay_cons_eq_some.1 h
    refine ih (fun s e s' hm => hstep s e s' (mem_cons_of_mem _ hm)) ?_ h
    exact hstep s e s' mem_cons_self hs he

theorem replay_sim {τ : Type*} {step' : τ → ε → Option τ} {R : σ → τ → Prop}
    (hstep : ∀ s t e s', e ∈ es → R s t → step s e = some s' → ∃ t', step' t e = some t' ∧ R s' t')
    {s s' : σ} {t : τ} (hR : R s t) (h : replay step s es = some s') :
    ∃ t', replay step' t es = some t' ∧ R s' t' := by
  induction es generalizing s t with
  | nil =>
    cases h
    exact ⟨t, rfl, hR⟩
  | cons e es ih =>
    obtain ⟨s₁, he, h⟩ := replay_cons_eq_some.1 h
    obtain ⟨t₁, ht₁, hR₁⟩ := hstep s t e s₁ mem_cons_self hR he
    obtain ⟨t', ht', hR'⟩ :=
      ih (fun s t e s' hm => hstep s t e s' (mem_cons_of_mem _ hm)) hR₁ h
    refine ⟨t', ?_, hR'⟩
    rw [replay_cons, ht₁]
    exact ht'

/-- The rule for what one entry brings about and the others keep. -/
theorem replay_established {P : σ → Prop} (hmem : e ∈ es) (hset : ∀ s s', step s e = some s' → P s')
    (hkeep : ∀ s f s', f ∈ es → P s → step s f = some s' → P s') (h : replay step s es = some t) :
    P t := by
  obtain ⟨before, after, rfl⟩ := append_of_mem hmem
  obtain ⟨s₁, -, h₁⟩ := replay_append_eq_some.1 h
  rw [replay_cons] at h₁
  obtain ⟨s₂, hs₂, h₂⟩ := bind_eq_some_iff.1 h₁
  refine replay_inv (fun s f s' hf hs hstep => ?_) (hset s₁ s₂ hs₂) h₂
  exact hkeep s f s' (mem_append_right _ (mem_cons_of_mem _ hf)) hs hstep

/-- Every entry meets `ok` in the state it is applied in. -/
def along (step : σ → ε → Option σ) (ok : σ → ε → Bool) : List ε → σ → Bool
  | [], _ => true
  | e :: es, s => ok s e && (step s e).all (along step ok es)

theorem along_mono {ok ok' : σ → ε → Bool} (hok : ∀ s e, ok s e → ok' s e) {s : σ}
    (h : along step ok es s) : along step ok' es s = true := by
  induction es generalizing s with
  | nil => rfl
  | cons e es ih =>
    rw [along, Bool.and_eq_true_iff] at h ⊢
    refine ⟨hok s e h.1, ?_⟩
    cases hs : step s e with
    | none => rfl
    | some s' =>
      rw [hs] at h
      exact ih h.2

theorem along_append (es fs : List ε) (s : σ) :
    along step ok (es ++ fs) s =
      (along step ok es s && (replay step s es).all (along step ok fs)) := by
  induction es generalizing s with
  | nil => simp [along]
  | cons e es ih =>
    rw [cons_append, along, along, replay_cons]
    cases step s e with
    | none => simp
    | some s' => simp [ih, Bool.and_assoc]

theorem replay_inv_along {P : σ → Prop}
    (hstep : ∀ s e s', P s → ok s e → step s e = some s' → P s') (hs : P s)
    (hok : along step ok es s) (h : replay step s es = some t) : P t := by
  induction es generalizing s with
  | nil =>
    cases h
    exact hs
  | cons e es ih =>
    obtain ⟨s', he, h⟩ := replay_cons_eq_some.1 h
    rw [along, he, all_some, Bool.and_eq_true_iff] at hok
    exact ih (hstep s e s' hs hok.1 he) hok.2 h

/-- A machine with fewer steps: where `P` holds, each of its steps is one of the larger machine. -/
theorem replay_refines {step' : σ → ε → Option σ} {ok' : σ → ε → Bool} {P : σ → Prop}
    (hstep : ∀ s e s', P s → ok' s e → step' s e = some s' → step s e = some s' ∧ ok s e ∧ P s')
    (hs : P s) (hok : along step' ok' es s) (h : replay step' s es = some t) :
    replay step s es = some t ∧ along step ok es s := by
  induction es generalizing s with
  | nil => exact ⟨h, rfl⟩
  | cons e es ih =>
    obtain ⟨s', he, h⟩ := replay_cons_eq_some.1 h
    rw [along, he, all_some, Bool.and_eq_true_iff] at hok
    obtain ⟨he, hoke, hs'⟩ := hstep s e s' hs hok.1 he
    rw [replay_cons, along, he, all_some, hoke]
    exact ih hs' hok.2 h

/-- Some entry of the replay is applied in a state where `P` holds of it. -/
def Occurs (step : σ → ε → Option σ) (P : σ → ε → Prop) (s : σ) (es : List ε) : Prop :=
  ∃ before e after s', es = before ++ e :: after ∧ replay step s before = some s' ∧ P s' e

theorem not_occurs_nil {s : σ} : ¬ Occurs step P s [] := by
  rintro ⟨before, e, after, s', h, -⟩
  simp at h

theorem occurs_cons {s : σ} :
    Occurs step P s (e :: es) ↔ P s e ∨ ∃ s', step s e = some s' ∧ Occurs step P s' es := by
  constructor
  · rintro ⟨before, f, after, s', heq, hr, hP⟩
    cases before with
    | nil =>
      cases hr
      cases heq
      exact .inl hP
    | cons g before =>
      rw [cons_append, cons.injEq] at heq
      obtain ⟨rfl, rfl⟩ := heq
      obtain ⟨s₁, hs₁, hr⟩ := replay_cons_eq_some.1 hr
      exact .inr ⟨s₁, hs₁, before, f, after, s', rfl, hr, hP⟩
  · rintro (hP | ⟨s₁, hs₁, before, f, after, s', rfl, hr, hP⟩)
    · exact ⟨[], e, es, s, rfl, rfl, hP⟩
    · refine ⟨e :: before, f, after, s', rfl, ?_, hP⟩
      rw [replay_cons, hs₁]
      exact hr

/-- The rule for what a machine can lose but not gain: it is there at the end when it was there at
the start and no entry took it. -/
theorem replay_survives {R : σ → Prop}
    (hstep : ∀ s e s', step s e = some s' → (R s' ↔ R s ∧ ¬ P s e))
    (h : replay step s es = some t) : R t ↔ R s ∧ ¬ Occurs step P s es := by
  induction es generalizing s with
  | nil =>
    cases h
    simp [not_occurs_nil]
  | cons e es ih =>
    obtain ⟨s₁, he, h⟩ := replay_cons_eq_some.1 h
    have hocc : (∃ s', step s e = some s' ∧ Occurs step P s' es) ↔ Occurs step P s₁ es := by
      simp [he]
    rw [ih h, hstep s e s₁ he, occurs_cons, hocc, not_or, and_assoc]

end Replay

/-! ### States of one log -/

def stateAt (step : σ → ε → Option σ) (s₀ : σ) (log : List ε) (i : Nat) : Option σ :=
  replay step s₀ (log.take i)

section StateAt

variable {step : σ → ε → Option σ} {s₀ : σ} {log : List ε}
variable {i k : Nat}

@[simp] theorem stateAt_zero : stateAt step s₀ log 0 = some s₀ := by
  simp [stateAt]

theorem stateAt_succ {i : Nat} {e : ε} (he : log[i]? = some e) :
    stateAt step s₀ log (i + 1) = (stateAt step s₀ log i).bind fun s => step s e := by
  unfold stateAt
  rw [take_add_one, he, toList_some, replay_append]
  simp

theorem stateAt_succ_of_none {i : Nat} (he : log[i]? = none) :
    stateAt step s₀ log (i + 1) = stateAt step s₀ log i := by
  unfold stateAt
  rw [take_add_one, he, toList_none, append_nil]

theorem stateAt_add (h : i ≤ k) :
    stateAt step s₀ log k =
      (stateAt step s₀ log i).bind fun s => replay step s ((log.take k).drop i) := by
  unfold stateAt
  conv_lhs => rw [← take_append_drop i (log.take k), replay_append]
  rw [take_take, Nat.min_eq_left h]

theorem stateAt_isSome_of_le (h : i ≤ k) (hk : (stateAt step s₀ log k).isSome) :
    (stateAt step s₀ log i).isSome := by
  rw [stateAt_add h] at hk
  cases hi : stateAt step s₀ log i with
  | none => simp [hi] at hk
  | some s => rfl

theorem stateAt_of_length_le {k : Nat} (h : log.length ≤ k) :
    stateAt step s₀ log k = stateAt step s₀ log log.length := by
  unfold stateAt
  rw [take_of_length_le h, take_length]

end StateAt

/-! ### Replicas -/

/-- A state that stands for the first `applied` entries of a log. -/
structure Replica (σ : Type*) where
  state : σ
  applied : Nat

/-- The replica's state is `Same` as the state of the log it stands for. -/
def Agrees (step : σ → ε → Option σ) (s₀ : σ) (log : List ε) (Same : σ → σ → Prop)
    (r : Replica σ) : Prop :=
  ∃ s, stateAt step s₀ log r.applied = some s ∧ Same r.state s

section Agrees

variable {step : σ → ε → Option σ} {s₀ : σ} {log : List ε} {Same : σ → σ → Prop}
variable {r : Replica σ} {e : ε}

/-- A replica that agrees can apply the next entry of a log that replays. The step has to be matched
from the replica's state only. -/
theorem Agrees.apply (hlog : (stateAt step s₀ log log.length).isSome)
    (hsim : ∀ s s', stateAt step s₀ log r.applied = some s → Same r.state s → step s e = some s' →
      ∃ t, step r.state e = some t ∧ Same t s')
    (hr : Agrees step s₀ log Same r) (he : log[r.applied]? = some e) :
    ∃ t, step r.state e = some t ∧ Agrees step s₀ log Same ⟨t, r.applied + 1⟩ := by
  obtain ⟨s, hs, hsame⟩ := hr
  have hlt : r.applied + 1 ≤ log.length := (List.getElem?_eq_some_iff.1 he).1
  obtain ⟨s', hs'⟩ := isSome_iff_exists.1 (stateAt_isSome_of_le hlt hlog)
  have hstep := hs'
  rw [stateAt_succ he, hs] at hstep
  obtain ⟨t, ht, hsame'⟩ := hsim s s' hs hsame hstep
  exact ⟨t, ht, s', hs', hsame'⟩

end Agrees

end Lib.Replay
