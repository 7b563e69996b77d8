import RtmpServer.Lib.Tasks

/-!
# The in-flight byte budget

`InflightByteBudgetGuard` of `security.rs`: a guard holds a slice of a counter that all guards of a
budget share. A reservation, the first one or one that grows the guard, loads the counter and swaps
in the sum, and starts again when another one came in between. Each access of the counter is a step,
and any number of tasks take them in any order. The counter is a machine word, so sums and
differences wrap around.
-/

namespace RtmpServer

open List Lib Lib.Replay Option

/-- `usize::MAX`. -/
def usizeMax : Nat := 2 ^ 64 - 1

/-- A reservation under way: about to load the counter, about to swap, or with the swap done. -/
inductive BudgetCall where
  | loading (additional : Nat)
  | swapping (additional cur : Nat)
  | taken (additional : Nat)
  deriving DecidableEq, Repr

/-- A task with its guard, if it has one, and the answer of its last reservation. -/
structure BudgetTask where
  guard : Option Nat := none
  call : Option BudgetCall := none
  answer : Option Bool := none
  deriving DecidableEq, Repr

/-- `reserve` is `try_reserve_inflight_bytes`, `grow` grows the task's guard; the next three are the
steps of either, and `drop` is that of the guard. -/
inductive ReserveOp where
  | reserve (len : Nat)
  | grow (additional : Nat)
  | load
  | swap
  | finish
  | drop
  deriving DecidableEq, Repr

/-- The step goes on with a reservation that is under way. -/
def ReserveOp.continues : ReserveOp → Bool
  | .load | .swap | .finish => true
  | _ => false

namespace BudgetTask

/-- A reservation of nothing does not touch the counter. -/
def begin (guard : Option Nat) (additional : Nat) : BudgetTask :=
  if additional = 0 then ⟨some (guard.getD 0), none, some true⟩
  else ⟨guard, some (.loading additional), none⟩

/-- One step of a task, with what it makes of the counter. -/
def step (max counter : Nat) : BudgetTask → ReserveOp → Option (Nat × BudgetTask)
  | ⟨none, none, _⟩, .reserve len => some (counter, begin none len)
  | ⟨some bytes, none, _⟩, .grow additional => some (counter, begin (some bytes) additional)
  | ⟨guard, some (.loading additional), _⟩, .load =>
    if min (counter + additional) usizeMax > max then some (counter, ⟨guard, none, some false⟩)
    else some (counter, ⟨guard, some (.swapping additional counter), none⟩)
  | ⟨guard, some (.swapping additional cur), _⟩, .swap =>
    if counter = cur then
      some ((cur + additional) % 2 ^ 64, ⟨guard, some (.taken additional), none⟩)
    else some (counter, ⟨guard, some (.loading additional), none⟩)
  | ⟨guard, some (.taken additional), _⟩, .finish =>
    some (counter, ⟨some ((guard.getD 0 + additional) % 2 ^ 64), none, some true⟩)
  | ⟨some bytes, none, answer⟩, .drop =>
    some (if bytes > 0 then (counter + 2 ^ 64 - bytes) % 2 ^ 64 else counter, ⟨none, none, answer⟩)
  | _, _ => none

/-- The sum or difference of the step does not wrap. -/
def exact (counter : Nat) : BudgetTask → ReserveOp → Prop
  | ⟨_, some (.swapping additional cur), _⟩, .swap => cur + additional < 2 ^ 64
  | ⟨guard, some (.taken additional), _⟩, .finish => guard.getD 0 + additional < 2 ^ 64
  | ⟨some bytes, none, _⟩, .drop => bytes ≤ counter
  | _, _ => True

/-- The bytes of the guard and of a reservation whose swap is done. -/
def held (t : BudgetTask) : Nat :=
  t.guard.getD 0 + match t.call with
    | some (.taken additional) => additional
    | _ => 0

/-- A swap that is about to be tried stays within the maximum. -/
def fits (max : Nat) (t : BudgetTask) : Prop :=
  ∀ additional cur, t.call = some (.swapping additional cur) → cur + additional ≤ max

/-- The reservation has its bytes, or had them when it ended. -/
def won (t : BudgetTask) : Bool :=
  match t.call with
  | some (.taken _) => true
  | some _ => false
  | none => t.answer = some true

theorem begin_spec (guard : Option Nat) (additional max : Nat) :
    (begin guard additional).held = guard.getD 0 ∧ (begin guard additional).fits max := by
  rw [begin]
  split_ifs <;> exact ⟨rfl, nofun⟩

variable {max counter counter' : Nat} {t t' : BudgetTask} {op : ReserveOp}

/-- While the maximum is below the largest word, the counter goes along with what the task holds,
and an attempt that does not win changes nothing. -/
theorem step_spec (hmax : max < usizeMax) (hle : counter ≤ max) (hheld : t.held ≤ counter)
    (hfits : t.fits max) (h : t.step max counter op = some (counter', t')) :
    t.exact counter op ∧ counter' + t.held = counter + t'.held ∧ counter' ≤ max ∧ t'.fits max := by
  rw [usizeMax] at hmax
  unfold step at h
  split at h
  · cases h
    exact ⟨trivial, congrArg _ (begin_spec none _ max).1.symm, hle, (begin_spec none _ max).2⟩
  · next bytes _ additional =>
    cases h
    obtain ⟨hbegin, hfits⟩ := begin_spec (some bytes) additional max
    exact ⟨trivial, congrArg _ hbegin.symm, hle, hfits⟩
  · rw [usizeMax] at h
    split_ifs at h with hfull <;> cases h
    · exact ⟨trivial, rfl, hle, nofun⟩
    · refine ⟨trivial, rfl, hle, fun a cur hcall => ?_⟩
      cases hcall
      omega
  · have hsum := hfits _ _ rfl
    split_ifs at h with hcur <;> cases h
    · rw [Nat.mod_eq_of_lt (by omega)]
      refine ⟨show _ < _ by omega, ?_, hsum, nofun⟩
      simp only [held]
      omega
    · exact ⟨show _ < _ by omega, rfl, hle, nofun⟩
  · next guard additional _ =>
    cases h
    have hsum : guard.getD 0 + additional < 2 ^ 64 := lt_of_le_of_lt hheld (by omega)
    rw [Nat.mod_eq_of_lt hsum]
    exact ⟨hsum, rfl, hle, nofun⟩
  · next bytes answer =>
    cases h
    have hbytes : bytes ≤ counter := hheld
    have hdiff : (if bytes > 0 then (counter + 2 ^ 64 - bytes) % 2 ^ 64 else counter) =
        counter - bytes := by split_ifs <;> omega
    rw [hdiff]
    refine ⟨hbytes, ?_, by omega, nofun⟩
    simp only [held, getD_some, getD_none]
    omega
  · cases h

theorem step_continues (hop : op.continues = true)
    (h : t.step max counter op = some (counter', t')) :
    (t.won = true → t'.won = true) ∧
      (t'.won = false → t'.guard = t.guard ∧ counter' = counter) := by
  unfold step at h
  split at h
  · cases hop
  · cases hop
  · split_ifs at h <;> cases h <;> exact ⟨nofun, fun _ => ⟨rfl, rfl⟩⟩
  · split_ifs at h <;> cases h
    · exact ⟨fun _ => rfl, nofun⟩
    · exact ⟨nofun, fun _ => ⟨rfl, rfl⟩⟩
  · cases h
    exact ⟨fun _ => rfl, nofun⟩
  · cases hop
  · cases h

end BudgetTask

abbrev InflightBudget := Tasks Nat BudgetTask

namespace InflightBudget

def start (n : Nat) : InflightBudget := ⟨0, replicate n {}⟩

abbrev step (max : Nat) : InflightBudget → Nat × ReserveOp → Option InflightBudget :=
  Tasks.step (BudgetTask.step max)

variable {max i additional : Nat} {s s' : InflightBudget} {e : Nat × ReserveOp} {t : BudgetTask}
variable {es : List (Nat × ReserveOp)}

/-- The counter is what is held, within the maximum, and no swap under way exceeds it. -/
structure Balanced (max : Nat) (s : InflightBudget) : Prop where
  counter : s.shared = s.held BudgetTask.held
  le : s.shared ≤ max
  fits : ∀ t ∈ s.tasks, t.fits max

theorem balanced_start (max n : Nat) : Balanced max (start n) := by
  refine ⟨by simp [start, Tasks.held, BudgetTask.held], Nat.zero_le max, fun t ht a cur hcall => ?_⟩
  rw [eq_of_mem_replicate ht] at hcall
  cases hcall

theorem Balanced.task_step (hmax : max < usizeMax) (h : Balanced max s) {op : ReserveOp}
    {counter' : Nat} {t' : BudgetTask} (ht : s.tasks[i]? = some t)
    (hstep : t.step max s.shared op = some (counter', t')) :
    t.exact s.shared op ∧ counter' + t.held = s.shared + t'.held ∧ counter' ≤ max ∧ t'.fits max :=
  BudgetTask.step_spec hmax h.le (h.counter ▸ Tasks.held_le ht _) (h.fits t (mem_of_getElem? ht))
    hstep

theorem Balanced.step (hmax : max < usizeMax) (h : Balanced max s)
    (hstep : step max s e = some s') : Balanced max s' := by
  obtain ⟨t, t', htask, hmoves⟩ := Tasks.step_eq_some hstep
  obtain ⟨-, hsum, hle, hfits⟩ := h.task_step hmax hmoves.old htask
  refine ⟨?_, hle, fun u hu => ?_⟩
  · have hheld := hmoves.held BudgetTask.held
    have hold := h.counter
    omega
  · rcases hmoves.mem hu with hu | rfl
    · exact h.fits u hu
    · exact hfits

/-! ### Reservations that fail -/

/-- From `s` the task at `i` grows its guard, while others do what they like, and is told no. -/
def FailedGrow (max : Nat) (s : InflightBudget) (i additional : Nat) (es : List (Nat × ReserveOp))
    (s' : InflightBudget) : Prop :=
  replay (step max) s ((i, .grow additional) :: es) = some s' ∧
    (∀ e ∈ es, e.1 = i → e.2.continues = true) ∧
    ∃ t, s'.tasks[i]? = some t ∧ t.call = none ∧ t.answer = some false

theorem FailedGrow.unchanged (h : FailedGrow max s i additional es s') :
    (s'.tasks[i]?).map (·.guard) = (s.tasks[i]?).map (·.guard) ∧
      ∀ before op after s₁ s₂, es = before ++ (i, op) :: after →
        replay (step max) s ((i, .grow additional) :: before) = some s₁ →
        step max s₁ (i, op) = some s₂ → s₂.shared = s₁.shared := by
  obtain ⟨hrun, hes, t', ht', hcall, hanswer⟩ := h
  have hlost : t'.won = false := by simp [BudgetTask.won, hcall, hanswer]
  obtain ⟨s₀, hgrow, hrun⟩ := replay_cons_eq_some.1 hrun
  refine ⟨?_, ?_⟩
  · obtain ⟨t, t₀, htask, hmoves⟩ := Tasks.step_eq_some hgrow
    have ht : s.tasks[i]? = some t := hmoves.old
    have hbegin : t₀.guard = t.guard := by
      unfold BudgetTask.step at htask
      split at htask <;> simp_all
      rw [← htask.2, BudgetTask.begin]
      split_ifs <;> rfl
    -- as long as the call has not won, the guard is the one it started with
    obtain ⟨u, hu, hguard⟩ := Tasks.run_task (P := fun u => u.won = false → u.guard = t.guard)
      (fun _ u op _ u' hop hold hstep hlost => by
        obtain ⟨hwon, hkeeps⟩ := BudgetTask.step_continues (hes _ hop rfl) hstep
        exact (hkeeps hlost).1.trans (hold (by grind)))
      ⟨t₀, hmoves.new, fun _ => hbegin⟩ hrun
    obtain rfl : t' = u := some.inj (ht'.symm.trans hu)
    simp [hu, ht, hguard hlost]
  · rintro before op after s₁ s₂ rfl hbefore hstep
    rw [replay_cons, hgrow, bind_some] at hbefore
    rw [replay_append, hbefore, bind_some, replay_cons, hstep, bind_some] at hrun
    obtain ⟨u, u', htask, hmoves⟩ := Tasks.step_eq_some hstep
    have hkeeps := (BudgetTask.step_continues (hes (i, op) (by simp) rfl) htask).2
    refine (hkeeps (Bool.eq_false_iff.2 fun hwon => ?_)).2
    obtain ⟨v, hv, hvwon⟩ := Tasks.run_task (P := fun u => u.won = true)
      (fun _ u op _ u' hop hold hstep =>
        (BudgetTask.step_continues (hes (i, op) (by simp [hop]) rfl) hstep).1 hold)
      ⟨u', hmoves.new, hwon⟩ hrun
    obtain rfl : t' = v := some.inj (ht'.symm.trans hv)
    simp [hlost] at hvwon

end InflightBudget

/-- **The budget balances.** In every interleaving the counter is the sum of what the guards hold
and of the reservations that are through with their swap, and no step wraps; it is 0 when there is
neither. An attempt to grow that failed has changed nothing. -/
theorem budget_balanced (max : Nat) (hmax : max < usizeMax) (n : Nat) (es : List (Nat × ReserveOp))
    (s : InflightBudget) (hrun : replay (InflightBudget.step max) (.start n) es = some s) :
    s.shared = s.held BudgetTask.held ∧ s.shared ≤ max ∧
      (∀ i op t s', s.tasks[i]? = some t → InflightBudget.step max s (i, op) = some s' →
        t.exact s.shared op) ∧
      ((∀ t ∈ s.tasks, t.guard = none ∧ ∀ additional, t.call ≠ some (.taken additional)) →
        s.shared = 0) ∧
      ∀ i additional more s', InflightBudget.FailedGrow max s i additional more s' →
        (s'.tasks[i]?).map (·.guard) = (s.tasks[i]?).map (·.guard) ∧
        ∀ before op after s₁ s₂, more = before ++ (i, op) :: after →
          replay (InflightBudget.step max) s ((i, .grow additional) :: before) = some s₁ →
          InflightBudget.step max s₁ (i, op) = some s₂ → s₂.shared = s₁.shared := by
  have hinv : InflightBudget.Balanced max s :=
    replay_inv (fun s e s' _ hs hstep => hs.step hmax hstep)
      (InflightBudget.balanced_start max n) hrun
  refine ⟨hinv.counter, hinv.le, fun i op t s' ht hstep => ?_, fun hidle => ?_,
    fun _ _ _ _ h => h.unchanged⟩
  · obtain ⟨u, u', htask, hmoves⟩ := Tasks.step_eq_some hstep
    obtain rfl : t = u := some.inj (ht.symm.trans hmoves.old)
    exact (hinv.task_step hmax ht htask).1
  · have hzero : ∀ t ∈ s.tasks, t.held = 0 := by
      intro t ht
      obtain ⟨hguard, hcall⟩ := hidle t ht
      rw [BudgetTask.held, hguard]
      split
      · exact absurd ‹_› (hcall _)
      · rfl
    rw [hinv.counter, Tasks.held, map_congr_left hzero]
    simp

/-- Two tasks on a budget of 10: the second one comes in between, and the first cannot grow. -/
def contendedBudget : List (Nat × ReserveOp) :=
  [(0, .reserve 4), (0, .load), (1, .reserve 5), (1, .load), (1, .swap), (0, .swap), (0, .load),
    (0, .swap), (0, .finish), (1, .finish)]

theorem budget_balanced_contended :
    ∃ s, replay (InflightBudget.step 10) (.start 2) contendedBudget = some s ∧ s.shared = 9 ∧
      s.shared = s.held BudgetTask.held ∧
      ∃ s', InflightBudget.FailedGrow 10 s 0 2 [(0, .load)] s' ∧
        (s'.tasks[0]?).map (·.guard) = (s.tasks[0]?).map (·.guard) := by
  have h := budget_balanced 10 (by decide) 2 contendedBudget _ rfl
  refine ⟨_, rfl, rfl, h.1, _, ⟨rfl, by decide, _, rfl, rfl, rfl⟩, ?_⟩
  exact (h.2.2.2.2 0 2 [(0, .load)] _ ⟨rfl, by decide, _, rfl, rfl, rfl⟩).1

/-- Under a maximum that is the largest word the check is passed by a sum that has saturated, and
the counter wraps around. -/
theorem budget_wraps_at_max :
    ∃ s, replay (InflightBudget.step usizeMax) (.start 2)
        [(0, .reserve usizeMax), (0, .load), (0, .swap), (0, .finish), (1, .reserve 2), (1, .load),
          (1, .swap)] = some s ∧
      s.shared = 1 ∧ s.held BudgetTask.held = usizeMax + 2 :=
  ⟨_, rfl, by decide, by decide⟩

end RtmpServer
