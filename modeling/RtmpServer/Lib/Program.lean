import Mathlib.Data.Set.Basic
import RtmpServer.Lib.Replay

/-!
# Programs of atomic actions

A `Prog` performs actions one after another and goes on with their answers. What an action does to
the shared state, and what it answers, is a handler `exec`; the outcome `ω` it gets is what the
model does not decide. Between two actions anything may happen.

* `Prog.run` is a program alone, with a handler that needs no outcomes.
* A `Pool` is a state and the programs under way on it, of which any may go on next. The rule for
  pools is `Contract.Settles`: a program may run up debts, things that must not be left over, as long
  as it answers for them itself and has settled them when it ends.
* `Amid` is the rule for one program among foreign actions. `P` marks certain actions of its own;
  it comes to `Q` when none of them occurs and to `B` when one does.
-/

namespace Lib.Program

open Lib.Replay List Function

/-- A program with actions `A`, of which `a` is answered by an `R a`. -/
inductive Prog (A : Type) (R : A → Type) (α : Type) where
  | ret (result : α)
  | act (a : A) (next : R a → Prog A R α)

variable {A : Type} {R : A → Type} {α β : Type}

namespace Prog

variable {p : Prog A R α} {T : Prog A R α → Prop} {S : A → Prop} {f : α → Prog A R β} {τ : Type}

def bind : Prog A R α → (α → Prog A R β) → Prog A R β
  | .ret result, f => f result
  | .act a next, f => .act a fun r => (next r).bind f

instance : Monad (Prog A R) where
  pure := .ret
  bind := Prog.bind

def perform (a : A) : Prog A R (R a) := .act a .ret

@[simp] theorem pure_eq (result : α) : (pure result : Prog A R α) = .ret result := rfl

@[simp] theorem ret_bind (result : α) (f : α → Prog A R β) : (.ret result >>= f) = f result := rfl

@[simp] theorem act_bind (a : A) (next : R a → Prog A R α) (f : α → Prog A R β) :
    (.act a next >>= f) = .act a fun r => next r >>= f := rfl

@[simp] theorem perform_bind (a : A) (f : R a → Prog A R β) : (perform a >>= f) = .act a f := rfl

theorem bind_ret (p : Prog A R α) : p >>= .ret = p := by
  induction p with
  | ret result => rfl
  | act a next ih =>
    simp only [act_bind]
    congr 1
    funext r
    exact ih r

theorem bind_assoc {γ : Type} (p : Prog A R α) (f : α → Prog A R β) (g : β → Prog A R γ) :
    (p >>= f) >>= g = p >>= fun x => f x >>= g := by
  induction p with
  | ret result => rfl
  | act a next ih =>
    simp only [act_bind]
    congr 1
    funext r
    exact ih r

def next? : Prog A R α → Option A
  | .ret _ => none
  | .act a _ => some a

def result? : Prog A R α → Option α
  | .ret result => some result
  | .act _ _ => none

theorem eq_ret_of_result? {result : α} (h : p.result? = some result) : p = .ret result := by
  cases p with
  | ret result' => exact congrArg Prog.ret (Option.some.inj h)
  | act a next => cases h

/-- The program performs actions of `S` until it goes on as one of `T`. -/
inductive Leads (S : A → Prop) (T : Prog A R α → Prop) : Prog A R α → Prop
  | here {p : Prog A R α} (h : T p) : Leads S T p
  | act {a : A} {next : R a → Prog A R α} (ha : S a) (h : ∀ r, Leads S T (next r)) :
    Leads S T (.act a next)

theorem Leads.bind {T' : Prog A R β → Prop} (h : Leads S T p)
    (hf : ∀ q, T q → Leads S T' (q >>= f)) : Leads S T' (p >>= f) := by
  induction h with
  | here h => exact hf _ h
  | act ha _ ih => exact .act ha ih

inductive Only (S : A → Prop) : Prog A R α → Prop
  | ret (result : α) : Only S (.ret result)
  | act {a : A} {next : R a → Prog A R α} (ha : S a) (h : ∀ r, Only S (next r)) :
    Only S (.act a next)

theorem Only.bind (hp : p.Only S) (hf : ∀ x, (f x).Only S) : (p >>= f).Only S := by
  induction hp with
  | ret result => exact hf result
  | act ha _ ih => exact .act ha ih

theorem Only.mono {S S' : A → Prop} (hp : p.Only S) (h : ∀ a, S a → S' a) : p.Only S' := by
  induction hp with
  | ret result => exact .ret result
  | act ha _ ih => exact .act (h _ ha) ih

theorem Leads.only {S S' : A → Prop} (h : p.Leads S T) (hS : ∀ a, S a → S' a)
    (hT : ∀ q, T q → q.Only S') : p.Only S' := by
  induction h with
  | here h => exact hT _ h
  | act ha _ ih => exact .act (hS _ ha) ih

def run {τ : Type} (handle : (a : A) → τ → τ × R a) : Prog A R α → τ → τ × α
  | .ret result, s => (s, result)
  | .act a next, s => (next (handle a s).2).run handle (handle a s).1

theorem run_bind (handle : (a : A) → τ → τ × R a) (p : Prog A R α) (f : α → Prog A R β) (s : τ) :
    (p >>= f).run handle s = (f (p.run handle s).2).run handle (p.run handle s).1 := by
  induction p generalizing s with
  | ret result => rfl
  | act a next ih => exact ih _ _

theorem run_inv {handle : (a : A) → τ → τ × R a} {I : τ → Prop}
    (h : ∀ a s, I s → I (handle a s).1) (p : Prog A R α) {s : τ} (hs : I s) :
    I (p.run handle s).1 := by
  induction p generalizing s with
  | ret result => exact hs
  | act a next ih => exact ih _ (h a s hs)

theorem Only.run_inv {handle : (a : A) → τ → τ × R a} {I : τ → Prop} (hp : p.Only S)
    (h : ∀ a s, S a → I s → I (handle a s).1) {s : τ} (hs : I s) : I (p.run handle s).1 := by
  induction hp generalizing s with
  | ret result => exact hs
  | act ha _ ih => exact ih _ (h _ s ha hs)

def lift {B : Type} {S : B → Type} (f : A → B) (back : ∀ a, S (f a) → R a) :
    Prog A R α → Prog B S α
  | .ret result => .ret result
  | .act a next => .act (f a) fun r => (next (back a r)).lift f back

end Prog

variable {σ ω ι δ : Type}

/-! ### Programs side by side -/

structure Pool (σ A : Type) (R : A → Type) where
  state : σ
  threads : List (Prog A R Unit)

inductive Event (ι ω : Type) where
  | start (op : ι)
  | advance (i : Nat) (outcome : ω)

namespace Pool

def idle (p : Pool σ A R) : Bool := p.threads.all fun t => t.next?.isNone

section Step

variable (exec : (a : A) → ω → σ → σ × R a) (prog : ι → Prog A R Unit)

def step (p : Pool σ A R) : Event ι ω → Option (Pool σ A R)
  | .start op => some { p with threads := p.threads ++ [prog op] }
  | .advance i w =>
    match p.threads[i]? with
    | some (.act a next) =>
      some ⟨(exec a w p.state).1, p.threads.set i (next (exec a w p.state).2)⟩
    | _ => none

/-- The condition `ok` on the action that is performed. -/
def allows (ok : σ → A → ω → Bool) (p : Pool σ A R) : Event ι ω → Bool
  | .start _ => true
  | .advance i w => ((p.threads[i]?).bind Prog.next?).all fun a => ok p.state a w

variable {exec prog}

theorem step_advance {p p' : Pool σ A R} {i : Nat} {w : ω}
    (h : step exec prog p (.advance i w) = some p') :
    ∃ a next, p.threads[i]? = some (.act a next) ∧
      p' = ⟨(exec a w p.state).1, p.threads.set i (next (exec a w p.state).2)⟩ := by
  rw [step] at h
  cases hi : p.threads[i]? with
  | none =>
    rw [hi] at h
    cases h
  | some t =>
    rw [hi] at h
    cases t with
    | ret result => cases h
    | act a next =>
      cases h
      exact ⟨a, next, rfl, rfl⟩

theorem allows_advance {ok : σ → A → ω → Bool} {p : Pool σ A R} {i : Nat} {w : ω} {a : A}
    {next : R a → Prog A R Unit} (hi : p.threads[i]? = some (.act a next)) :
    p.allows ok (.advance i w : Event ι ω) = ok p.state a w := by
  rw [allows, hi]
  rfl

end Step

end Pool

/-! ### Debts -/

/-- What the actions of a pool do and what its programs have to keep to. -/
structure Contract (σ A : Type) (R : A → Type) (ω δ φ : Type) where
  exec : (a : A) → ω → σ → σ × R a
  /-- The condition on the steps of the run. -/
  ok : σ → A → ω → Bool
  /-- What a program may know: facts that stay true once they are. -/
  facts : σ → Set φ
  facts_mono : ∀ s a w, facts s ⊆ facts (exec a w s).1
  /-- Holds of every step. -/
  guar : σ → A → σ → Prop
  /-- What must not be left when nothing is under way. -/
  debts : σ → Set δ

variable {φ : Type}

namespace Contract

variable (C : Contract σ A R ω δ φ)
variable {p : Prog A R α} {Q : α → Set δ → Set φ → Prop} {K : Set φ} {W : Set δ}
  {f : α → Prog A R β} {t : Prog A R Unit} {a : A}

/-- With the debts `W` to answer for and the facts `K` known, the program settles: every debt its
steps leave was there before and not among `W`, or is one the program answers for from then on. `Q`
holds of the result, the debts and the facts it ends with. -/
def Settles : Prog A R α → Set δ → Set φ → (α → Set δ → Set φ → Prop) → Prop
  | .ret result, W, K, Q => Q result W K
  | .act a next, W, K, Q =>
    ∀ s w, K ⊆ C.facts s → C.ok s a w = true →
      C.guar s a (C.exec a w s).1 ∧
        ∃ W' K', K' ⊆ C.facts (C.exec a w s).1 ∧
          C.debts (C.exec a w s).1 ⊆ (C.debts s \ W) ∪ W' ∧ Settles (next (C.exec a w s).2) W' K' Q

/-- The program starts without debts and ends without any. -/
def Honours (p : Prog A R α) : Prop := ∀ K, C.Settles p ∅ K fun _ W _ => W = ∅

variable {C}

theorem Settles.mono {Q Q' : α → Set δ → Set φ → Prop} (h : C.Settles p W K Q)
    (hQ : ∀ result W K, Q result W K → Q' result W K) : C.Settles p W K Q' := by
  induction p generalizing W K with
  | ret result => exact hQ _ _ _ h
  | act a next ih =>
    intro s w hK hok
    obtain ⟨hguar, W', K', hK', hdebts, hnext⟩ := h s w hK hok
    exact ⟨hguar, W', K', hK', hdebts, ih _ hnext⟩

theorem Settles.bind {Q : β → Set δ → Set φ → Prop}
    (h : C.Settles p W K fun result W K => C.Settles (f result) W K Q) :
    C.Settles (p >>= f) W K Q := by
  induction p generalizing W K with
  | ret result => exact h
  | act a next ih =>
    intro s w hK hok
    obtain ⟨hguar, W', K', hK', hdebts, hnext⟩ := h s w hK hok
    exact ⟨hguar, W', K', hK', hdebts, ih _ hnext⟩

/-- Debts the program does not touch stay with its caller. -/
theorem Settles.frame {W F : Set δ} (h : C.Settles p W K Q) :
    C.Settles p (W ∪ F) K fun result W' K' => ∃ V, W' = V ∪ F ∧ Q result V K' := by
  induction p generalizing W K with
  | ret result => exact ⟨W, rfl, h⟩
  | act a next ih =>
    intro s w hK hok
    obtain ⟨hguar, W', K', hK', hdebts, hnext⟩ := h s w hK hok
    refine ⟨hguar, W' ∪ F, K', hK', ?_, ih _ hnext⟩
    intro d hd
    by_cases hF : d ∈ F
    · exact .inr (.inr hF)
    · rcases hdebts hd with ⟨hds, hdW⟩ | hdW'
      · exact .inl ⟨hds, fun hdWF => hdWF.elim hdW hF⟩
      · exact .inr (.inl hdW')

theorem Settles.neutral {next : R a → Prog A R α}
    (ha : ∀ s w, C.ok s a w →
      C.guar s a (C.exec a w s).1 ∧ C.debts (C.exec a w s).1 ⊆ C.debts s)
    (h : ∀ r, C.Settles (next r) W K Q) : C.Settles (.act a next) W K Q := by
  intro s w hK hok
  refine ⟨(ha s w hok).1, W, K, hK.trans (C.facts_mono s a w), ?_, h _⟩
  intro d hd
  by_cases hW : d ∈ W
  · exact .inr hW
  · exact .inl ⟨(ha s w hok).2 hd, hW⟩

theorem Honours.ret (result : α) : C.Honours (.ret result) := fun _ => rfl

theorem Honours.neutral {next : R a → Prog A R α}
    (ha : ∀ s w, C.ok s a w →
      C.guar s a (C.exec a w s).1 ∧ C.debts (C.exec a w s).1 ⊆ C.debts s)
    (h : ∀ r, C.Honours (next r)) : C.Honours (.act a next) :=
  fun K => Settles.neutral ha fun r => h r K

theorem Honours.bind (hp : C.Honours p) (hf : ∀ result, C.Honours (f result)) :
    C.Honours (p >>= f) := by
  intro K
  refine Settles.bind ((hp K).mono fun result W K' hW => ?_)
  subst hW
  exact hf result K'

/-- A program without debts of its own leaves those of its caller as they are. -/
theorem Honours.frame (h : C.Honours p) (W : Set δ) (K : Set φ) :
    C.Settles p W K fun _ W' _ => W' = W := by
  have hframe := (h K).frame (F := W)
  rw [Set.empty_union] at hframe
  refine hframe.mono ?_
  rintro result W' K' ⟨V, rfl, rfl⟩
  exact Set.empty_union W

theorem Honours.leads {S : A → Prop} {T : Prog A R α → Prop}
    (hS : ∀ a, S a → ∀ s w, C.ok s a w →
      C.guar s a (C.exec a w s).1 ∧ C.debts (C.exec a w s).1 ⊆ C.debts s)
    (hT : ∀ q, T q → C.Honours q) (h : p.Leads S T) : C.Honours p := by
  induction h with
  | here h => exact hT _ h
  | act ha _ ih => exact .neutral (hS _ ha) ih

theorem Honours.forM {γ : Type} {f : γ → Prog A R PUnit} (hf : ∀ x, C.Honours (f x))
    (l : List γ) : C.Honours (l.forM f) := by
  induction l with
  | nil => exact Honours.ret _
  | cons x l ih => exact (hf x).bind fun _ => ih

/-! #### The pool -/

/-- The program can settle the debts `W` from where it stands. -/
def Answers (C : Contract σ A R ω δ φ) (s : σ) (t : Prog A R Unit) (W : Set δ) : Prop :=
  ∃ K, K ⊆ C.facts s ∧ C.Settles t W K fun _ W _ => W = ∅

/-- Every debt is one of the old ones `D` or one that a program under way answers for. -/
def Covered (C : Contract σ A R ω δ φ) (D : Set δ) (p : Pool σ A R) : Prop :=
  ∃ W : Nat → Set δ, (∀ i t, p.threads[i]? = some t → C.Answers p.state t (W i)) ∧
    ∀ d ∈ C.debts p.state, d ∈ D ∨ ∃ i, i < p.threads.length ∧ d ∈ W i

theorem Answers.step {s : σ} (h : C.Answers s t W) (a : A) (w : ω) :
    C.Answers (C.exec a w s).1 t W := by
  obtain ⟨K, hK, ht⟩ := h
  exact ⟨K, hK.trans (C.facts_mono s a w), ht⟩

variable {D : Set δ}

theorem Covered.start {p : Pool σ A R} (h : C.Covered D p) (ht : C.Honours t) :
    C.Covered D { p with threads := p.threads ++ [t] } := by
  obtain ⟨W, hW, hdebts⟩ := h
  refine ⟨Function.update W p.threads.length ∅, ?_, ?_⟩
  · intro i u hu
    rcases Nat.lt_or_ge i p.threads.length with hlt | hge
    · rw [List.getElem?_append_left hlt] at hu
      rw [Function.update_of_ne hlt.ne]
      exact hW i u hu
    · rw [List.getElem?_append_right hge] at hu
      obtain ⟨hi, rfl⟩ := List.getElem?_eq_some_iff.1 hu
      have hlen : i = p.threads.length := by
        rw [List.length_singleton] at hi
        omega
      subst hlen
      rw [Function.update_self]
      exact ⟨∅, Set.empty_subset _, by simpa using ht ∅⟩
  · intro d hd
    refine (hdebts d hd).imp_right ?_
    rintro ⟨i, hi, hdW⟩
    refine ⟨i, ?_, ?_⟩
    · rw [List.length_append]
      omega
    · rwa [Function.update_of_ne hi.ne]

/-- A program under way goes on: the debts it leaves are those of the others and its own. -/
theorem Covered.advance {p : Pool σ A R} (h : C.Covered D p) {i : Nat}
    {next : R a → Prog A R Unit} (hi : p.threads[i]? = some (.act a next)) {w : ω}
    (hok : C.ok p.state a w) :
    C.guar p.state a (C.exec a w p.state).1 ∧
      C.Covered D ⟨(C.exec a w p.state).1, p.threads.set i (next (C.exec a w p.state).2)⟩ := by
  obtain ⟨W, hW, hdebts⟩ := h
  obtain ⟨K, hK, ht⟩ := hW i _ hi
  obtain ⟨hguar, W', K', hK', hsub, hnext⟩ := ht p.state w hK hok
  have hlt : i < p.threads.length := (List.getElem?_eq_some_iff.1 hi).1
  refine ⟨hguar, update W i W', ?_, ?_⟩
  · intro j u hu
    by_cases hj : j = i
    · subst hj
      rw [getElem?_set_self hlt] at hu
      cases hu
      rw [update_self]
      exact ⟨K', hK', hnext⟩
    · rw [getElem?_set_ne (Ne.symm hj)] at hu
      rw [update_of_ne hj]
      exact (hW j u hu).step a w
  · intro d hd
    rcases hsub hd with ⟨hds, hdW⟩ | hdW'
    · refine (hdebts d hds).imp_right ?_
      rintro ⟨j, hj, hdj⟩
      have hne : j ≠ i := fun hji => hdW (hji ▸ hdj)
      refine ⟨j, by simpa using hj, ?_⟩
      rwa [update_of_ne hne]
    · refine .inr ⟨i, by simpa using hlt, ?_⟩
      rwa [update_self]

section Runs

variable {prog : ι → Prog A R Unit} {es : List (Event ι ω)} {s : σ} {p : Pool σ A R}

variable (hops : ∀ op, C.Honours (prog op))
include hops

theorem Covered.step {e : Event ι ω} {p' : Pool σ A R}
    (h : C.Covered D p) (hok : p.allows C.ok e) (hstep : p.step C.exec prog e = some p') :
    C.Covered D p' := by
  cases e with
  | start op =>
    cases hstep
    exact h.start (hops op)
  | advance i w =>
    obtain ⟨a, next, hi, rfl⟩ := Pool.step_advance hstep
    rw [Pool.allows_advance hi] at hok
    exact (h.advance hi hok).2

variable (hok : along (Pool.step C.exec prog) (Pool.allows C.ok) es ⟨s, []⟩)
include hok

variable (h : replay (Pool.step C.exec prog) ⟨s, []⟩ es = some p)
include h

theorem covered_of_replay : C.Covered (C.debts s) p := by
  refine replay_inv_along (fun p e p' hp he hstep => hp.step hops he hstep) ?_ hok h
  refine ⟨fun _ => ∅, ?_, ?_⟩
  · intro i t ht
    cases ht
  · exact fun d hd => .inl hd

theorem settled (hidle : p.idle) :
    C.debts p.state ⊆ C.debts s := by
  obtain ⟨W, hW, hdebts⟩ := covered_of_replay hops hok h
  refine fun d hd => (hdebts d hd).resolve_right ?_
  rintro ⟨i, hi, hdW⟩
  have hget := getElem?_eq_getElem hi
  have hdone := all_eq_true.1 hidle _ (getElem_mem hi)
  obtain ⟨K, -, ht⟩ := hW i _ hget
  cases hp : p.threads[i] with
  | act a next =>
    rw [hp] at hdone
    cases hdone
  | ret result =>
    rw [hp] at ht
    have hempty : W i = ∅ := ht
    rw [hempty] at hdW
    cases hdW

theorem guarantee {i : Nat} {a : A}
    {next : R a → Prog A R Unit} (hi : p.threads[i]? = some (.act a next)) {w : ω}
    (hw : C.ok p.state a w) : C.guar p.state a (C.exec a w p.state).1 :=
  ((covered_of_replay hops hok h).advance hi hw).1

end Runs

end Contract

/-! ### One program among others -/

inductive AmidEvent (A ω : Type) where
  | own (outcome : ω)
  | other (a : A) (outcome : ω)

def amidStep (exec : (a : A) → ω → σ → σ × R a) (p : Prog A R α × σ) :
    AmidEvent A ω → Option (Prog A R α × σ)
  | .own w =>
    match p.1 with
    | .ret _ => none
    | .act a next => some (next (exec a w p.2).2, (exec a w p.2).1)
  | .other a w => some (p.1, (exec a w p.2).1)

/-- The others perform `foreign` actions and the program's own have `fine` outcomes. -/
def amidOk (foreign : A → Bool) (fine : A → ω → Bool) (p : Prog A R α × σ) :
    AmidEvent A ω → Bool
  | .own w => p.1.next?.all fun a => fine a w
  | .other a _ => foreign a

def marked (P : σ → A → Prop) (p : Prog A R α × σ) : AmidEvent A ω → Prop
  | .own _ => ∃ a ∈ p.1.next?, P p.2 a
  | .other _ _ => False

section Amid

variable (exec : (a : A) → ω → σ → σ × R a) (foreign : A → Bool) (fine : A → ω → Bool)
  (P : σ → A → Prop)
variable {Q B : α → (σ → Prop) → Prop} {I : σ → Prop} {p : Prog A R α} {a : A}

/-- The others do not make `I` false. -/
def Lasting (I : σ → Prop) : Prop :=
  ∀ s a w, foreign a = true → I s → I (exec a w s).1

/-- From the states `I` the program comes to `Q`, and from the first marked action on to `B`. -/
def Amid : Prog A R α → (σ → Prop) → (Q B : α → (σ → Prop) → Prop) → Prop
  | .ret result, I, Q, _ => Q result I
  | .act a next, I, Q, B =>
    ∀ s w, I s → fine a w = true →
      ∃ I', Lasting exec foreign I' ∧ I' (exec a w s).1 ∧
        (P s a → Amid (next (exec a w s).2) I' B B) ∧
        (¬ P s a → Amid (next (exec a w s).2) I' Q B)

variable {exec foreign fine P}

theorem Amid.bind {f : α → Prog A R β} {Q B : β → (σ → Prop) → Prop}
    (h : Amid exec foreign fine P p I (fun r I => Amid exec foreign fine P (f r) I Q B)
      fun r I => Amid exec foreign fine P (f r) I B B) :
    Amid exec foreign fine P (p >>= f) I Q B := by
  induction p generalizing I Q with
  | ret result => exact h
  | act a next ih =>
    intro s w hI hfine
    obtain ⟨I', hlast, hI', hmarked, hother⟩ := h s w hI hfine
    exact ⟨I', hlast, hI', fun hP => ih _ (hmarked hP), fun hP => ih _ (hother hP)⟩

theorem Amid.unmarked {next : R a → Prog A R α} (hP : ∀ s, I s → ¬ P s a)
    (h : ∀ s w, I s → fine a w → ∃ I', Lasting exec foreign I' ∧ I' (exec a w s).1 ∧
      Amid exec foreign fine P (next (exec a w s).2) I' Q B) :
    Amid exec foreign fine P (.act a next) I Q B := by
  intro s w hI hfine
  obtain ⟨I', hlast, hI', hnext⟩ := h s w hI hfine
  exact ⟨I', hlast, hI', fun hmarked => absurd hmarked (hP s hI), fun _ => hnext⟩

theorem Amid.neutral {next : R a → Prog A R α} (hlast : Lasting exec foreign I)
    (hP : ∀ s, I s → ¬ P s a) (ha : ∀ s w, I s → I (exec a w s).1)
    (h : ∀ r, Amid exec foreign fine P (next r) I Q B) :
    Amid exec foreign fine P (.act a next) I Q B :=
  .unmarked hP fun s w hI _ => ⟨I, hlast, ha s w hI, h _⟩

theorem Amid.leads {S : A → Prop} {T : Prog A R α → Prop} (hlast : Lasting exec foreign I)
    (hS : ∀ a, S a → (∀ s, ¬ P s a) ∧ ∀ s w, I s → I (exec a w s).1)
    (hT : ∀ q, T q → Amid exec foreign fine P q I Q B) (h : p.Leads S T) :
    Amid exec foreign fine P p I Q B := by
  induction h with
  | here h => exact hT _ h
  | act ha _ ih => exact .neutral hlast (fun s _ => (hS _ ha).1 s) (hS _ ha).2 ih

theorem Amid.sound {q b : α → σ → Prop} {es : List (AmidEvent A ω)} {s t : σ} {result : α}
    (hlast : Lasting exec foreign I) (hI : I s)
    (h : Amid exec foreign fine P p I (fun r I => ∀ s, I s → q r s) fun r I => ∀ s, I s → b r s)
    (hok : along (amidStep exec) (amidOk foreign fine) es (p, s))
    (hrun : replay (amidStep exec) (p, s) es = some (.ret result, t)) :
    (¬ Occurs (amidStep exec) (marked P) (p, s) es → q result t) ∧
      (Occurs (amidStep exec) (marked P) (p, s) es → b result t) := by
  induction es generalizing p s I q with
  | nil =>
    cases hrun
    exact ⟨fun _ => h t hI, fun hocc => absurd hocc not_occurs_nil⟩
  | cons e es ih =>
    obtain ⟨⟨p', s'⟩, hstep, hrun⟩ := replay_cons_eq_some.1 hrun
    rw [along, hstep, Option.all_some, Bool.and_eq_true_iff] at hok
    have hocc : ∀ hm : Prop, (marked P (p, s) e ↔ hm) →
        (Occurs (amidStep exec) (marked P) (p, s) (e :: es) ↔
          hm ∨ Occurs (amidStep exec) (marked P) (p', s') es) := by
      intro hm hiff
      rw [occurs_cons, hiff]
      simp [hstep]
    cases e with
    | other a w =>
      cases hstep
      rw [hocc False Iff.rfl, false_or]
      exact ih hlast (hlast s a w hok.1 hI) h hok.2 hrun
    | own w =>
      cases p with
      | ret result' => cases hstep
      | act a next =>
        cases hstep
        obtain ⟨I', hlast', hI', hmarked, hother⟩ := h s w hI hok.1
        rw [hocc (P s a) (by simp [marked, Prog.next?])]
        by_cases hP : P s a
        · have hrest := ih hlast' hI' (hmarked hP) hok.2 hrun
          exact ⟨fun hno => absurd (.inl hP) hno, fun _ => (Classical.em _).elim hrest.2 hrest.1⟩
        · have hrest := ih hlast' hI' (hother hP) hok.2 hrun
          exact ⟨fun hno => hrest.1 fun hrun => hno (.inr hrun), fun hrun =>
            hrest.2 (hrun.resolve_left hP)⟩

end Amid

end Lib.Program
