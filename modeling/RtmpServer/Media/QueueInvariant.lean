import RtmpServer.Media.QueueSteps

/-!
# The invariant of the live queue

`Pushed` and `Popped` say what a push and a pop do as far as the entries, the log and the waits are
concerned: maintenance, and then one of a few things with the frame. From these the invariant of the
representation follows.
-/

namespace RtmpServer

open List

variable {cfg : LiveQueueConfig} {s : QueueRun}

namespace LiveQueue

variable {cfg : LiveQueueConfig} {q q' : LiveQueue} {e : QueueEntry}

/-! ### What a push and a pop do -/

inductive Pushed (cfg : LiveQueueConfig) (q : LiveQueue) (e : QueueEntry) :
    PushResult → LiveQueue → Prop
  | closed (h : q.closed = true) : Pushed cfg q e (.dropped .closed) q
  | oversized (h : pushLimit cfg e.kind < e.size) :
      Pushed cfg q e (.dropped .oversized) (q.refuseOversized e)
  | awaiting {q₁ : LiveQueue} (k : StreamKey) (maintained : Maintained q q₁)
      (names : e.names = some k) (droppable : e.kind = .media .droppable)
      (waits : q₁.isAwaiting k = true) :
      Pushed cfg q e (.dropped .awaitingResync) (q₁.countDrop e .pressure)
  | full {q₁ q₂ q₃ : LiveQueue} (before : Maintained q q₁) (resumed : Resumed e q₁ q₂)
      (after : Maintained q₂ q₃) (noRoom : q₃.fits e.size cfg = false)
      (control : ∀ x ∈ q₃.entries, x.kind = .control) :
      Pushed cfg q e (.dropped .full)
        (if e.kind.isMedia then q₃.countDrop e .pressure else q₃).publishReinit
  | queued {q₁ q₂ q₃ q₄ : LiveQueue} (before : Maintained q q₁) (resumed : Resumed e q₁ q₂)
      (after : Maintained q₂ q₃) (again : Resumed e q₃ q₄) (room : q₄.fits e.size cfg = true)
      (ready : ∀ k, e.evictableOf k = true → q₄.isAwaiting k = false) :
      Pushed cfg q e .queued (q₄.enqueue e)

theorem pushAt_spec {q : LiveQueue} (hq : q.Booked q.entries) (cfg : LiveQueueConfig)
    (e : QueueEntry) : ∃ r q', q.pushAt cfg e = some (r, q') ∧ Pushed cfg q e r q' := by
  obtain ⟨r, q', hpush, hsteps⟩ := pushAt_steps hq cfg e
  refine ⟨r, q', hpush, ?_⟩
  cases hsteps with
  | closed h => exact .closed h
  | oversized h => exact .oversized h
  | awaiting k hupkeep hnames hdrop hwait =>
    exact .awaiting k hupkeep.maintained hnames hdrop hwait
  | @crowdedOut q₁ q₂ k hupkeep hevicted hnames hdrop hwait =>
    exact .awaiting k ((hupkeep.maintained.trans hevicted.maintained).tail
      q₂.maintenance_publishReinit) hnames hdrop hwait
  | full hupkeep hresumed hevicted hfits hcontrol =>
    exact .full hupkeep.maintained hresumed hevicted.maintained hfits hcontrol
  | @queued q₁ q₂ q₃ q₄ hupkeep hresumed hevicted hagain hfits hready =>
    exact .queued hupkeep.maintained hresumed
      (hevicted.maintained.tail q₃.maintenance_publishReinit) hagain hfits hready

inductive Popped (q : LiveQueue) : Option QueueEntry → LiveQueue → Prop
  | closed (h : q.closed = true) : Popped q none q
  | empty {q₁ : LiveQueue} (maintained : Maintained q q₁) (h : q₁.entries = []) : Popped q none q₁
  | head {q₁ : LiveQueue} (e : QueueEntry) (rest : List QueueEntry) (maintained : Maintained q q₁)
      (h : q₁.entries = e :: rest) : Popped q (some e) (q₁.deliver e rest)

theorem popAt_spec (q : LiveQueue) (cfg : LiveQueueConfig) (now : Nat) :
    Popped q (q.popAt cfg now).1 (q.popAt cfg now).2 := by
  have hsteps := q.popAt_steps cfg now
  generalize q.popAt cfg now = popped at hsteps ⊢
  obtain ⟨e, q'⟩ := popped
  cases hsteps with
  | closed h => exact .closed h
  | empty hupkeep h => exact .empty hupkeep.maintained h
  | head e rest hupkeep h => exact .head e rest hupkeep.maintained h

/-! ### Frame lemmas of the last step -/

theorem enqueue_eq (q : LiveQueue) (e : QueueEntry) :
    (q.enqueue e).entries = q.entries ++ [e] ∧ (q.enqueue e).events = q.events ∧
      (q.enqueue e).bytes = q.bytes + e.size ∧ (q.enqueue e).closed = q.closed ∧
      (∀ k, (q.enqueue e).isAwaiting k = q.isAwaiting k) ∧ (q.Counted → (q.enqueue e).Counted) := by
  rw [enqueue]
  cases e.names with
  | none => exact ⟨rfl, rfl, rfl, rfl, fun _ => rfl, fun h => ⟨h.total, h.categories⟩⟩
  | some k =>
    refine ⟨rfl, rfl, rfl, rfl, fun j => ?_, fun h => ⟨h.total, h.categories⟩⟩
    exact q.isAwaiting_modifyState_of_eq k j (f := StreamState.addFrame e) fun _ => rfl

theorem Booked.enqueue {q : LiveQueue} {l : List QueueEntry} (h : q.Booked l) (e : QueueEntry) :
    (q.enqueue e).Booked (e :: l) := by
  have hbytes : q.bytes + e.size = bytesOf (e :: l) := by
    rw [h.bytes]
    simp [bytesOf, Nat.add_comm]
  rw [LiveQueue.enqueue]
  cases hnames : e.names with
  | none =>
    refine ⟨hbytes, fun k => ?_, fun k => ?_⟩
    · rw [framesOf_cons, if_neg (by simp [hnames])]
      exact h.frames k
    · rw [evictableBytesOf_cons, if_neg (by simp [QueueEntry.evictableOf, hnames])]
      exact h.evictable k
  | some k =>
    refine ⟨hbytes, fun j => ?_, fun j => ?_⟩
    · have hframes := h.frames j
      show (AList.lookup j (q.modifyState k (StreamState.addFrame e)).streams).elim 0 _ = _
      rw [framesOf_cons, hnames, lookup_modifyState, ← hframes, queuedFrames]
      by_cases hj : j = k
      · rw [if_pos hj, if_pos (by rw [hj]), hj]
        cases q.streams.lookup k <;> rfl
      · rw [if_neg hj, if_neg (by simpa using Ne.symm hj)]
        rfl
    · have hevictable := h.evictable j
      show (AList.lookup j (q.modifyState k (StreamState.addFrame e)).streams).elim 0 _ = _
      rw [evictableBytesOf_cons, QueueEntry.evictableOf, hnames, lookup_modifyState, ← hevictable,
        evictableBytes]
      by_cases hj : j = k
      · rw [if_pos hj, hj]
        cases q.streams.lookup k <;> cases hev : e.kind.evictable <;>
          simp [StreamState.addFrame, hev]
      · rw [if_neg hj, if_neg (by simpa using fun _ => Ne.symm hj)]
        rfl

theorem deliver_eq (q : LiveQueue) (e : QueueEntry) (rest : List QueueEntry) :
    (q.deliver e rest).entries = rest ∧ (q.deliver e rest).events = .delivered e :: q.events ∧
      (q.deliver e rest).closed = q.closed ∧
      (∀ k, (q.deliver e rest).isAwaiting k = q.isAwaiting k) ∧
      (q.Booked (e :: rest) → (q.deliver e rest).Booked rest) ∧
      (q.Counted → (q.deliver e rest).Counted) := by
  rw [deliver]
  set q₁ : LiveQueue := { q with entries := rest, events := .delivered e :: q.events } with hq₁
  obtain ⟨_, _, heq⟩ := q₁.accountRemoved_eq e
  refine ⟨by rw [heq], by rw [heq], by rw [heq], fun k => ?_, fun h => ?_, fun h => ?_⟩
  · exact q₁.isAwaiting_accountRemoved e k
  · have h₁ : q₁.Booked (e :: rest) := h.congr rfl rfl
    exact h₁.accountRemoved
  · have h₁ : q₁.Counted := ⟨by simpa [hq₁, QueueEvent.isDrop] using h.total, h.categories⟩
    exact h₁.accountRemoved e

theorem Resumed.frame (h : Resumed e q q') :
    q'.entries = q.entries ∧ q'.events = q.events ∧ q'.bytes = q.bytes ∧ q'.closed = q.closed ∧
      (∀ k, q'.isAwaiting k → q.isAwaiting k) ∧ (q.Counted → q'.Counted) := by
  rcases h with rfl | ⟨k, -, -, -, rfl⟩
  · exact ⟨rfl, rfl, rfl, rfl, fun _ h => h, fun h => h⟩
  · refine ⟨by simp [resumeStream, countResync], by simp [resumeStream, countResync],
      by simp [resumeStream, countResync], by simp [resumeStream, countResync], fun j hj => ?_,
      fun h => ?_⟩
    · have := q.isAwaiting_resume k j
      rw [show (q.modifyExisting k StreamState.resume).isAwaiting j = true from hj] at this
      exact (Bool.and_eq_true_iff.1 this.symm).2
    · have h₁ : (q.modifyExisting k StreamState.resume).Counted := h.congr (by simp) (by simp)
      exact ⟨h₁.total, h₁.categories⟩

/-! ### The invariant -/

structure Ok (cfg : LiveQueueConfig) (q : LiveQueue) : Prop where
  bytes : q.bytes = (q.entries.map (·.size)).sum
  bytes_le : q.bytes ≤ cfg.maxBytes
  length_le : q.entries.length ≤ cfg.maxMessages
  frames : ∀ k, q.queuedFrames k = q.entries.countP (·.names = some k)
  evictable : ∀ k, q.evictableBytes k = ((q.entries.filter (·.evictableOf k)).map (·.size)).sum
  awaiting : ∀ k, q.isAwaiting k = true → ∀ e ∈ q.entries, e.evictableOf k = false

theorem Ok.booked {q : LiveQueue} (h : q.Ok cfg) : q.Booked q.entries :=
  ⟨h.bytes, h.frames, h.evictable⟩

theorem Ok.of_booked {q : LiveQueue} (h : q.Booked q.entries) (hbytes : q.bytes ≤ cfg.maxBytes)
    (hlength : q.entries.length ≤ cfg.maxMessages)
    (hawaiting : ∀ k, q.isAwaiting k → ∀ e ∈ q.entries, e.evictableOf k = false) :
    q.Ok cfg :=
  ⟨h.bytes, hbytes, hlength, h.frames, h.evictable, hawaiting⟩

theorem Ok.empty {q : LiveQueue} (hentries : q.entries = []) (hbytes : q.bytes = 0)
    (hstreams : q.streams = ∅) : q.Ok cfg := by
  refine .of_booked ⟨?_, fun k => ?_, fun k => ?_⟩ ?_ ?_ fun k _ e he => ?_
  · rw [hentries, hbytes]
    rfl
  · rw [queuedFrames, hstreams, hentries]
    rfl
  · rw [evictableBytes, hstreams, hentries]
    rfl
  · rw [hbytes]
    exact Nat.zero_le _
  · rw [hentries]
    exact Nat.zero_le _
  · rw [hentries] at he
    cases he

theorem Ok.sublist (h : q.Ok cfg) (hbooked : q'.Booked q'.entries)
    (hsub : q'.entries.Sublist q.entries)
    (hawaiting : ∀ k, q'.isAwaiting k → ∀ e ∈ q'.entries, e.evictableOf k = false) :
    q'.Ok cfg := by
  refine .of_booked hbooked ?_ (hsub.length_le.trans h.length_le) hawaiting
  refine le_trans ?_ h.bytes_le
  rw [hbooked.bytes, h.bytes]
  exact (hsub.map _).sum_le_sum fun _ _ => Nat.zero_le _

theorem QueueChange.sublist (h : QueueChange q q') : q'.entries.Sublist q.entries := by
  cases h with
  | unchanged hentries => rw [hentries]
  | purged k hentries =>
    rw [hentries]
    exact filter_sublist
  | trimmed k before r after hsplit _ hentries =>
    rw [hentries, hsplit]
    exact filter_sublist.append_right _
  | evicted before e after hsplit _ hentries =>
    rw [hentries, hsplit]
    exact (sublist_cons_self e after).append_left before
  | timedOut k hentries => rw [hentries]

theorem QueueChange.awaiting (h : QueueChange q q') {k : StreamKey} (hk : q'.isAwaiting k) :
    q.isAwaiting k ∨ ∀ e ∈ q'.entries, e.evictableOf k = false := by
  cases h with
  | unchanged _ _ hawaiting => exact .inl (by rw [← hawaiting, hk])
  | purged k' hentries _ hawaiting =>
    rw [hawaiting] at hk
    by_cases hkk : k = k'
    · refine .inr fun e he => ?_
      rw [hentries] at he
      simpa [hkk] using (mem_filter.1 he).2
    · exact .inl (by simpa [hkk] using hk)
  | trimmed _ _ _ _ _ _ _ _ hawaiting =>
    rw [hawaiting] at hk
    exact .inl (Bool.and_eq_true_iff.1 hk).2
  | evicted _ _ _ _ _ _ _ hawaiting => exact .inl (by rw [← hawaiting, hk])
  | timedOut _ _ _ hawaiting =>
    rw [hawaiting] at hk
    exact .inl (Bool.and_eq_true_iff.1 hk).2

theorem Ok.maintenance (hm : Maintenance q q') (h : q.Ok cfg) : q'.Ok cfg := by
  have hsub := hm.change.sublist
  refine h.sublist (hm.booked h.booked) hsub fun k hk e he => ?_
  rcases hm.change.awaiting hk with hbefore | hnone
  · exact h.awaiting k hbefore e (hsub.subset he)
  · exact hnone e he

theorem Ok.maintained (hm : Maintained q q') (h : q.Ok cfg) : q'.Ok cfg :=
  hm.inv (P := Ok cfg) (fun _ _ hm h => h.maintenance hm) h

theorem Ok.resumed (hr : Resumed e q q') (h : q.Ok cfg) : q'.Ok cfg := by
  obtain ⟨hentries, -, -, -, hawaiting, -⟩ := hr.frame
  refine h.sublist (hr.booked h.booked) (by rw [hentries]) fun k hk x hx => ?_
  exact h.awaiting k (hawaiting k hk) x (hentries ▸ hx)

theorem Ok.enqueue {q : LiveQueue} (h : q.Ok cfg) (hroom : q.fits e.size cfg)
    (hready : ∀ k, e.evictableOf k → q.isAwaiting k = false) : (q.enqueue e).Ok cfg := by
  obtain ⟨hentries, -, hbytes, -, hawaiting, -⟩ := q.enqueue_eq e
  simp only [fits, decide_eq_true_eq] at hroom
  refine .of_booked ?_ ?_ ?_ fun k hk x hx => ?_
  · rw [hentries]
    exact (h.booked.enqueue e).perm (@List.perm_append_comm _ [e] _)
  · rw [hbytes]
    exact hroom.2
  · rw [hentries, length_append]
    exact hroom.1
  · rw [hawaiting] at hk
    rw [hentries, mem_append, mem_singleton] at hx
    rcases hx with hx | rfl
    · exact h.awaiting k hk x hx
    · by_contra hev
      rw [hready k (by simpa using hev)] at hk
      cases hk

theorem Ok.congr (h : q.Ok cfg) (hentries : q'.entries = q.entries) (hbytes : q'.bytes = q.bytes)
    (hstreams : q'.streams = q.streams) : q'.Ok cfg := by
  refine .of_booked (by rw [hentries]; exact h.booked.congr hbytes hstreams)
    (hbytes ▸ h.bytes_le) (hentries ▸ h.length_le) fun k hk e he => ?_
  exact h.awaiting k (by rw [← hk, isAwaiting, isAwaiting, hstreams]) e (hentries ▸ he)

theorem Ok.pushed {r : PushResult} (hp : Pushed cfg q e r q') (h : q.Ok cfg) : q'.Ok cfg := by
  cases hp with
  | closed => exact h
  | oversized => exact h.congr rfl rfl rfl
  | awaiting k hm => exact (h.maintained hm).congr rfl rfl rfl
  | full hbefore hresumed hafter =>
    have h₃ := ((h.maintained hbefore).resumed hresumed).maintained hafter
    split
    · exact h₃.congr rfl rfl rfl
    · exact h₃.congr rfl rfl rfl
  | queued hbefore hresumed hafter hagain hroom hready =>
    exact (((h.maintained hbefore).resumed hresumed).maintained hafter).resumed hagain
      |>.enqueue hroom hready

theorem Ok.popped {e : Option QueueEntry} (hp : Popped q e q') (h : q.Ok cfg) : q'.Ok cfg := by
  cases hp with
  | closed => exact h
  | empty hm => exact h.maintained hm
  | @head q₁ e rest hm hentries =>
    have h₁ := h.maintained hm
    obtain ⟨hrest, -, -, hawaiting, hbooked, -⟩ := q₁.deliver_eq e rest
    refine h₁.sublist ?_ ?_ fun k hk x hx => ?_
    · rw [hrest]
      exact hbooked (hentries ▸ h₁.booked)
    · rw [hrest, hentries]
      exact sublist_cons_self _ _
    · rw [hawaiting] at hk
      rw [hrest] at hx
      exact h₁.awaiting k hk x (hentries ▸ mem_cons_of_mem _ hx)

end LiveQueue

/-! ### Runs -/

inductive QueueOp where
  | push (msg : MediaMessage) (now : Nat)
  | pop (now : Nat)
  | connectionReset (now : Nat)
  | takeReinit (k : StreamKey)
  | markReinit (k : StreamKey)
  | close
  deriving DecidableEq, Repr

/-- The queue, with what the pushes answered and what the pops returned, in order. -/
structure QueueRun where
  queue : LiveQueue
  pushes : List (QueueEntry × PushResult)
  returned : List QueueEntry
  deriving DecidableEq

def QueueRun.start : QueueRun := ⟨.new, [], []⟩

def QueueRun.step (cfg : LiveQueueConfig) (s : QueueRun) : QueueOp → Option QueueRun
  | .push msg now =>
    let e : QueueEntry := ⟨s.pushes.length, msg, now⟩
    (s.queue.pushAt cfg e).map fun (r, q) => { s with queue := q, pushes := s.pushes ++ [(e, r)] }
  | .pop now =>
    let (e, q) := s.queue.popAt cfg now
    some { s with queue := q, returned := s.returned ++ e.toList }
  | .connectionReset now => some { s with queue := s.queue.onConnectionReset now }
  | .takeReinit k => some { s with queue := (s.queue.takeReinit k).2 }
  | .markReinit k => some { s with queue := s.queue.markReinit k }
  | .close => some { s with queue := s.queue.close }

def QueueRun.exec (cfg : LiveQueueConfig) (s : QueueRun) (ops : List QueueOp) : Option QueueRun :=
  ops.foldlM (QueueRun.step cfg) s

theorem QueueRun.start_ok (cfg : LiveQueueConfig) : QueueRun.start.queue.Ok cfg :=
  .empty rfl rfl rfl

open LiveQueue in
theorem QueueRun.step_ok (h : s.queue.Ok cfg) (op : QueueOp) :
    ∃ s', s.step cfg op = some s' ∧ s'.queue.Ok cfg := by
  cases op with
  | push msg now =>
    obtain ⟨r, q', hpush, hpushed⟩ :=
      pushAt_spec h.booked cfg ⟨s.pushes.length, msg, now⟩
    exact ⟨_, by rw [QueueRun.step, hpush]; rfl, h.pushed hpushed⟩
  | pop now => exact ⟨_, rfl, h.popped (s.queue.popAt_spec cfg now)⟩
  | connectionReset now => exact ⟨_, rfl, h.maintained (s.queue.maintained_onConnectionReset now)⟩
  | takeReinit k => exact ⟨_, rfl, h.maintenance (s.queue.maintenance_takeReinit k)⟩
  | markReinit k => exact ⟨_, rfl, h.maintenance (s.queue.maintenance_markReinit k)⟩
  | close => exact ⟨_, rfl, .empty rfl rfl rfl⟩

theorem QueueRun.exec_ok (h : s.queue.Ok cfg) (ops : List QueueOp) :
    ∃ s', s.exec cfg ops = some s' ∧ s'.queue.Ok cfg := by
  induction ops generalizing s with
  | nil => exact ⟨s, rfl, h⟩
  | cons op ops ih =>
    obtain ⟨s₁, hstep, h₁⟩ := QueueRun.step_ok h op
    obtain ⟨s', hrest, h'⟩ := ih h₁
    exact ⟨s', by rw [QueueRun.exec, foldlM_cons, hstep]; exact hrest, h'⟩

/-- **The invariant of the queue.** In every sequence of calls, at any times, every call returns and
the queue satisfies the invariant of its representation. -/
theorem queue_invariant (cfg : LiveQueueConfig) (ops : List QueueOp) :
    ∃ s, QueueRun.start.exec cfg ops = some s ∧ s.queue.Ok cfg :=
  QueueRun.exec_ok (QueueRun.start_ok cfg) ops

end RtmpServer
