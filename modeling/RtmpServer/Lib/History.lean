import Mathlib.Data.List.Induction

/-!
# Runs that remember their past

A total step function folded over a list of operations. What is to be shown often relates the state
to everything that was done before, and the operations come in the order of a clock.
-/

namespace Lib.History

variable {σ ε : Type*} {step : σ → ε → σ} {s₀ : σ} {ops : List ε} {time : ε → Nat}

/-- The induction rule: each step may use that its past is not later. -/
theorem foldl_history {I : List ε → σ → Prop} (hops : ops.Pairwise fun x y => time x ≤ time y)
    (hstart : I [] s₀)
    (hstep : ∀ past s e, (∀ x ∈ past, time x ≤ time e) → I past s → I (past ++ [e]) (step s e)) :
    I ops (ops.foldl step s₀) := by
  induction ops using List.reverseRecOn with
  | nil => exact hstart
  | append_singleton past e ih =>
    obtain ⟨hpast, -, hlast⟩ := List.pairwise_append.1 hops
    rw [List.foldl_append]
    exact hstep past _ e (fun x hx => hlast x hx e (by simp)) (ih hpast)

end Lib.History
