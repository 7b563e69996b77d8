import RtmpServer.Lib.Program

/-!
# What a program performs

A `Path` is what a program performs, action by action with the answers, whatever these are. Paths
are taken apart along the program (`path_bind_iff`), without a state. `trace` is what one program
performs in a run among others; it is a path (`path_of_run`). `cleared_of_run` is the rule for a
flag that others do not clear, and `Followed` the shape of what is then to show about the paths.
-/

namespace Lib.Program

open Lib.Replay List Option

variable {A : Type} {R : A → Type} {α β σ ω : Type}

abbrev Performed (A : Type) (R : A → Type) : Type := (a : A) × R a

/-! ### Paths -/

/-- The program performs `tr` and goes on as another. -/
inductive Path : Prog A R α → List (Performed A R) → Prog A R α → Prop
  | nil (p : Prog A R α) : Path p [] p
  | cons {a : A} {next : R a → Prog A R α} {r : R a} {tr : List (Performed A R)} {p : Prog A R α}
      (h : Path (next r) tr p) : Path (.act a next) (⟨a, r⟩ :: tr) p

section Path

variable {tr : List (Performed A R)} {p : Prog A R α} {x : α}

@[simp] theorem path_ret_iff : Path (.ret x) tr p ↔ tr = [] ∧ p = .ret x := by
  constructor
  · intro h
    cases h
    exact ⟨rfl, rfl⟩
  · rintro ⟨rfl, rfl⟩
    exact .nil _

@[simp] theorem path_act_iff {a : A} {next : R a → Prog A R α} :
    Path (.act a next) tr (.ret x) ↔ ∃ r tr', tr = ⟨a, r⟩ :: tr' ∧ Path (next r) tr' (.ret x) := by
  constructor
  · intro h
    cases h with
    | cons h => exact ⟨_, _, rfl, h⟩
  · rintro ⟨r, tr', rfl, h⟩
    exact .cons h

@[simp] theorem path_perform_iff {a : A} {r : R a} :
    Path (Prog.perform a) tr (.ret r) ↔ tr = [⟨a, r⟩] := by
  rw [Prog.perform, path_act_iff]
  constructor
  · rintro ⟨r', tr', rfl, h⟩
    obtain ⟨rfl, hr⟩ := path_ret_iff.1 h
    cases hr
    rfl
  · rintro rfl
    exact ⟨r, [], rfl, .nil _⟩

theorem path_bind_iff {f : α → Prog A R β} {y : β} :
    Path (p >>= f) tr (.ret y) ↔
      ∃ tr₁ x tr₂, tr = tr₁ ++ tr₂ ∧ Path p tr₁ (.ret x) ∧ Path (f x) tr₂ (.ret y) := by
  constructor
  · intro h
    induction p generalizing tr with
    | ret x => exact ⟨[], x, tr, rfl, .nil _, h⟩
    | act a next ih =>
      obtain ⟨r, tr', rfl, hnext⟩ := path_act_iff.1 h
      obtain ⟨tr₁, x, tr₂, rfl, h₁, h₂⟩ := ih r hnext
      exact ⟨⟨a, r⟩ :: tr₁, x, tr₂, rfl, .cons h₁, h₂⟩
  · rintro ⟨tr₁, x, tr₂, rfl, h₁, h₂⟩
    induction p generalizing tr₁ with
    | ret x' =>
      obtain ⟨rfl, hx⟩ := path_ret_iff.1 h₁
      cases hx
      exact h₂
    | act a next ih =>
      obtain ⟨r, tr', rfl, hnext⟩ := path_act_iff.1 h₁
      exact .cons (ih r tr' hnext)

theorem Path.only {S : A → Prop} {p' : Prog A R α} (h : Path p tr p') (hp : p.Only S) :
    (∀ e ∈ tr, S e.1) ∧ p'.Only S := by
  induction h with
  | nil p => exact ⟨fun e he => (by cases he), hp⟩
  | cons h ih =>
    cases hp with
    | act ha hnext =>
      obtain ⟨htr, hp'⟩ := ih (hnext _)
      exact ⟨forall_mem_cons.2 ⟨ha, htr⟩, hp'⟩

end Path

/-! ### What follows -/

section Followed

variable {ε : Type} {P : ε → Prop} {Q : List ε → Prop} {l l₁ l₂ : List ε} {e : ε}

/-- Whenever `P` happens, what comes after is as `Q` says. -/
def Followed (P : ε → Prop) (Q : List ε → Prop) : List ε → Prop
  | [] => True
  | e :: l => (P e → Q l) ∧ Followed P Q l

theorem Followed.of_not (h : ∀ e ∈ l, ¬ P e) : Followed P Q l := by
  induction l with
  | nil => trivial
  | cons e l ih =>
    rw [forall_mem_cons] at h
    exact ⟨fun he => absurd he h.1, ih h.2⟩

theorem Followed.append (hQ : ∀ l l', Q l → Q (l ++ l')) (h₁ : Followed P Q l₁)
    (h₂ : Followed P Q l₂) : Followed P Q (l₁ ++ l₂) := by
  induction l₁ with
  | nil => exact h₂
  | cons e l ih => exact ⟨fun he => hQ _ _ (h₁.1 he), ih h₁.2⟩

theorem Followed.after (h : Followed P Q (l₁ ++ e :: l₂)) (he : P e) : Q l₂ := by
  induction l₁ with
  | nil => exact h.1 he
  | cons e l ih => exact ih h.2

/-- What the answers make of each round of a loop. -/
theorem followed_forM {P : Performed A R → Prop} {Q : List (Performed A R) → Prop}
    {f : β → Prog A R Unit} {xs : List β} {tr : List (Performed A R)} (good : Performed A R → Prop)
    (hQ : ∀ l l', Q l → Q (l ++ l'))
    (hf : ∀ x tr, Path (f x) tr (.ret ()) → (∀ e ∈ tr, good e) → Followed P Q tr)
    (h : Path (xs.forM f) tr (.ret ())) (hgood : ∀ e ∈ tr, good e) : Followed P Q tr := by
  induction xs generalizing tr with
  | nil =>
    obtain ⟨rfl, -⟩ := path_ret_iff.1 h
    trivial
  | cons x xs ih =>
    obtain ⟨tr₁, _, tr₂, rfl, h₁, h₂⟩ := path_bind_iff.1 h
    rw [forall_mem_append] at hgood
    exact (hf x tr₁ h₁ hgood.1).append hQ (ih h₂ hgood.2)

end Followed

/-! ### Runs -/

section Runs

variable (exec : (a : A) → ω → σ → σ × R a)

def trace : List (AmidEvent A ω) → Prog A R α × σ → List (Performed A R)
  | [], _ => []
  | .own w :: es, (.act a next, s) =>
    ⟨a, (exec a w s).2⟩ :: trace es (next (exec a w s).2, (exec a w s).1)
  | .own _ :: es, (.ret x, s) => trace es (.ret x, s)
  | .other a w :: es, (p, s) => trace es (p, (exec a w s).1)

variable {exec} {es es₁ es₂ : List (AmidEvent A ω)} {p p' : Prog A R α} {s s' : σ}

theorem path_of_run (h : replay (amidStep exec) (p, s) es = some (p', s')) :
    Path p (trace exec es (p, s)) p' := by
  induction es generalizing p s with
  | nil =>
    cases h
    exact .nil _
  | cons e es ih =>
    obtain ⟨⟨p₁, s₁⟩, hstep, h⟩ := replay_cons_eq_some.1 h
    cases e with
    | other a w =>
      cases hstep
      exact ih h
    | own w =>
      cases p with
      | ret x => cases hstep
      | act a next =>
        cases hstep
        exact .cons (ih h)

theorem trace_append {p₁ : Prog A R α} {s₁ : σ}
    (h : replay (amidStep exec) (p, s) es₁ = some (p₁, s₁)) (es₂ : List (AmidEvent A ω)) :
    trace exec (es₁ ++ es₂) (p, s) = trace exec es₁ (p, s) ++ trace exec es₂ (p₁, s₁) := by
  induction es₁ generalizing p s with
  | nil =>
    cases h
    rfl
  | cons e es ih =>
    obtain ⟨⟨p₂, s₂⟩, hstep, h⟩ := replay_cons_eq_some.1 h
    cases e with
    | other a w =>
      cases hstep
      exact ih h
    | own w =>
      cases p with
      | ret x => cases hstep
      | act a next =>
        cases hstep
        exact congrArg _ (ih h)

theorem run_bind_split {f : α → Prog A R β} {y : β}
    (h : replay (amidStep exec) (p >>= f, s) es = some (.ret y, s')) :
    ∃ es₁ es₂ x s₁, es = es₁ ++ es₂ ∧ replay (amidStep exec) (p, s) es₁ = some (.ret x, s₁) ∧
      replay (amidStep exec) (f x, s₁) es₂ = some (.ret y, s') ∧
      trace exec es (p >>= f, s) = trace exec es₁ (p, s) ++ trace exec es₂ (f x, s₁) := by
  induction es generalizing p s with
  | nil =>
    cases p with
    | ret x => exact ⟨[], [], x, s, rfl, rfl, h, rfl⟩
    | act a next => cases h
  | cons e es ih =>
    cases p with
    | ret x => exact ⟨[], e :: es, x, s, rfl, rfl, h, rfl⟩
    | act a next =>
      obtain ⟨⟨p₁, s₁⟩, hstep, h⟩ := replay_cons_eq_some.1 h
      cases e with
      | other a' w =>
        cases hstep
        obtain ⟨es₁, es₂, x, s₂, rfl, h₁, h₂, htr⟩ := ih (p := .act a next) h
        exact ⟨.other a' w :: es₁, es₂, x, s₂, rfl, h₁, h₂, htr⟩
      | own w =>
        cases hstep
        obtain ⟨es₁, es₂, x, s₂, rfl, h₁, h₂, htr⟩ := ih h
        exact ⟨.own w :: es₁, es₂, x, s₂, rfl, h₁, h₂, congrArg _ htr⟩

/-- A flag that others do not clear. The program clears it by what `clears` and sets it by what `sets`
says. -/
theorem cleared_of_run (h : replay (amidStep exec) (p, s) es = some (p', s')) (flag : σ → Prop)
    (clears sets : Performed A R → Prop)
    (hother : ∀ a w s, .other a w ∈ es → flag s → flag (exec a w s).1)
    (hkeep : ∀ a w s, ¬ clears ⟨a, (exec a w s).2⟩ → flag s → flag (exec a w s).1)
    (hset : ∀ a w s, sets ⟨a, (exec a w s).2⟩ → flag (exec a w s).1)
    (hflag : flag s ∨ ∃ e ∈ trace exec es (p, s), sets e) :
    flag s' ∨ ∃ tr₁ e tr₂, trace exec es (p, s) = tr₁ ++ e :: tr₂ ∧ clears e ∧ ∀ e' ∈ tr₂, ¬ sets e' := by
  induction es generalizing p s with
  | nil =>
    cases h
    refine .inl (hflag.resolve_right ?_)
    rintro ⟨e, he, -⟩
    cases he
  | cons e es ih =>
    obtain ⟨⟨p₁, s₁⟩, hstep, h⟩ := replay_cons_eq_some.1 h
    have hrest : ∀ a w s, .other a w ∈ es → flag s → flag (exec a w s).1 :=
      fun a w s ha => hother a w s (mem_cons_of_mem _ ha)
    cases e with
    | other a w =>
      cases hstep
      exact ih h hrest (hflag.imp_left (hother a w s mem_cons_self))
    | own w =>
      cases p with
      | ret x => cases hstep
      | act a next =>
        cases hstep
        by_cases hnow : flag (exec a w s).1 ∨
            ∃ e ∈ trace exec es (next (exec a w s).2, (exec a w s).1), sets e
        · refine (ih h hrest hnow).imp_right ?_
          rintro ⟨tr₁, e, tr₂, htr, he, hnone⟩
          exact ⟨⟨a, (exec a w s).2⟩ :: tr₁, e, tr₂, congrArg _ htr, he, hnone⟩
        · -- not set any more and never again: this action has cleared the flag
          rw [not_or, not_exists] at hnow
          have hs : flag s := by
            refine hflag.resolve_right ?_
            rintro ⟨e, he, hsets⟩
            rcases mem_cons.1 he with rfl | he
            · exact hnow.1 (hset a w s hsets)
            · exact hnow.2 e ⟨he, hsets⟩
          refine .inr ⟨[], ⟨a, (exec a w s).2⟩, _, rfl, ?_, fun e he hsets => hnow.2 e ⟨he, hsets⟩⟩
          by_contra hclears
          exact hnow.1 (hkeep a w s hclears hs)

/-- Where `I` holds, the actions of `S` are answered as `good` says. -/
theorem answers_of_run (h : replay (amidStep exec) (p, s) es = some (p', s')) {S : A → Prop}
    (hp : p.Only S) (I : σ → Prop) (good : Performed A R → Prop) (hI : I s)
    (hother : ∀ a w s, .other a w ∈ es → I s → I (exec a w s).1)
    (hown : ∀ a w s, S a → I s → I (exec a w s).1 ∧ good ⟨a, (exec a w s).2⟩) :
    ∀ e ∈ trace exec es (p, s), good e := by
  induction es generalizing p s with
  | nil =>
    intro e he
    cases he
  | cons e es ih =>
    obtain ⟨⟨p₁, s₁⟩, hstep, h⟩ := replay_cons_eq_some.1 h
    have hrest : ∀ a w s, .other a w ∈ es → I s → I (exec a w s).1 :=
      fun a w s ha => hother a w s (mem_cons_of_mem _ ha)
    cases e with
    | other a w =>
      cases hstep
      exact ih h hp (hother a w s mem_cons_self hI) hrest
    | own w =>
      cases hp with
      | ret x => cases hstep
      | act ha hnext =>
        cases hstep
        obtain ⟨hI', hgood⟩ := hown _ w s ha hI
        exact forall_mem_cons.2 ⟨hgood, ih h (hnext _) hI' hrest⟩

end Runs

end Lib.Program
