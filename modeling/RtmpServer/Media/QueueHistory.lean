import RtmpServer.Media.QueueInvariant

/-!
# Conservation and order in the live queue

What the pops returned, followed by what is still queued, is a subsequence of what the pushes
accepted, and every offered frame is returned, still queued or lost, and is so once. The drop
counters are exact modulo `2 ^ 64`. This holds for every run until the queue is closed.
-/

namespace RtmpServer

open List

/-! ### The log -/

def QueueEvent.lost? : QueueEvent → Option QueueEntry
  | .lost e => some e
  | _ => none

def lostOf (events : List QueueEvent) : List QueueEntry := events.filterMap QueueEvent.lost?

def QueueEvent.isRefused : QueueEvent → Bool
  | .refused _ => true
  | _ => false

theorem lostOf_append (l₁ l₂ : List QueueEvent) : lostOf (l₁ ++ l₂) = lostOf l₁ ++ lostOf l₂ :=
  filterMap_append

theorem lostOf_lost (l : List QueueEntry) : lostOf (l.map .lost) = l := by
  induction l with
  | nil => rfl
  | cons e l ih => exact congrArg (e :: ·) ih

theorem countP_isRefused_lost (l : List QueueEntry) :
    (l.map QueueEvent.lost).countP QueueEvent.isRefused = 0 := by
  rw [countP_eq_zero]
  intro x hx
  obtain ⟨e, -, rfl⟩ := mem_map.1 hx
  exact Bool.false_ne_true

theorem countP_isDrop (events : List QueueEvent) :
    events.countP QueueEvent.isDrop =
      (lostOf events).length + events.countP QueueEvent.isRefused := by
  induction events with
  | nil => rfl
  | cons x events ih =>
    rw [countP_cons, countP_cons, ih]
    cases x with
    | lost e =>
      show _ + 1 = ((lostOf events).length + 1) + (_ + 0)
      omega
    | refused e =>
      show _ + 1 = (lostOf events).length + (_ + 1)
      omega
    | delivered e => rfl
    | timedOut k => rfl

def QueueEntry.isMedia (e : QueueEntry) : Bool := e.kind.isMedia

theorem QueueEntry.isMedia_of_evictableOf {e : QueueEntry} {k : StreamKey}
    (h : e.evictableOf k) : e.isMedia = true := by
  simp only [QueueEntry.evictableOf, Bool.and_eq_true] at h
  rw [QueueEntry.isMedia]
  cases hkind : e.kind with
  | control => simp [hkind, Kind.evictable] at h
  | media hint => rfl

namespace LiveQueue

variable {q q' : LiveQueue}

theorem QueueChange.moved (h : QueueChange q q') :
    ∃ lost : List QueueEntry, lostOf q'.events = lost.reverse ++ lostOf q.events ∧
      (lost ++ q'.entries).Perm q.entries ∧ (∀ e ∈ lost, e.isMedia) ∧
      q'.entries.filter (!·.isMedia) = q.entries.filter (!·.isMedia) ∧
      q'.events.countP QueueEvent.isRefused = q.events.countP QueueEvent.isRefused := by
  -- an evictable frame is not a control message
  have spare : ∀ (k : StreamKey) (l : List QueueEntry),
      (l.filter (!·.evictableOf k)).filter (!·.isMedia) = l.filter (!·.isMedia) := by
    intro k l
    rw [filter_filter]
    refine filter_congr fun e _ => ?_
    cases hev : e.evictableOf k with
    | false => simp
    | true => simp [QueueEntry.isMedia_of_evictableOf hev]
  cases h with
  | unchanged hentries hevents => exact ⟨[], by simp [hentries, hevents]⟩
  | purged k hentries hevents =>
    refine ⟨q.entries.filter (·.evictableOf k), ?_, ?_, ?_, ?_, ?_⟩
    · rw [hevents, lostOf_append, lostOf_lost]
    · rw [hentries]
      exact (filter_append_perm _ _).symm
    · exact fun e he => QueueEntry.isMedia_of_evictableOf (mem_filter.1 he).2
    · rw [hentries, spare]
    · rw [hevents, countP_append, countP_isRefused_lost, Nat.zero_add]
  | trimmed k before r after hsplit _ hentries hevents =>
    refine ⟨before.filter (·.evictableOf k), ?_, ?_, ?_, ?_, ?_⟩
    · rw [hevents, lostOf_append, lostOf_lost]
    · rw [hentries, hsplit, ← append_assoc]
      exact (filter_append_perm _ _).symm.append_right _
    · exact fun e he => QueueEntry.isMedia_of_evictableOf (mem_filter.1 he).2
    · rw [hentries, hsplit, filter_append, spare, ← filter_append]
    · rw [hevents, countP_append, countP_isRefused_lost, Nat.zero_add]
  | evicted before e after hsplit hcritical hentries hevents =>
    have hmedia : e.isMedia = true := by
      rw [QueueEntry.isMedia, hcritical]
      rfl
    refine ⟨[e], ?_, ?_, by simpa using hmedia, ?_, ?_⟩
    · rw [hevents]
      rfl
    · rw [hentries, hsplit]
      show (e :: (before ++ after)).Perm _
      exact perm_middle.symm
    · rw [hentries, hsplit]
      simp [hmedia]
    · rw [hevents]
      rfl
  | timedOut k hentries hevents =>
    refine ⟨[], ?_, by rw [hentries]; rfl, by simp, by rw [hentries], ?_⟩
    · rw [hevents]
      rfl
    · rw [hevents]
      rfl

theorem Maintained.sublist (h : Maintained q q') : q'.entries.Sublist q.entries :=
  h.inv (P := fun q' => q'.entries.Sublist q.entries)
    (fun _ _ hstep hsub => hstep.change.sublist.trans hsub) (.refl _)

theorem Maintained.control (h : Maintained q q') :
    q'.entries.filter (!·.isMedia) = q.entries.filter (!·.isMedia) := by
  refine h.inv (P := fun x => x.entries.filter (!·.isMedia) = q.entries.filter (!·.isMedia))
    (fun x y h hx => ?_) rfl
  obtain ⟨_, -, -, -, hcontrol, -⟩ := h.change.moved
  exact hcontrol.trans hx

/-- There is room for one more message of `size` bytes beside the control messages that are queued. -/
def RoomBeside (cfg : LiveQueueConfig) (q : LiveQueue) (size : Nat) : Prop :=
  (q.entries.filter (!·.isMedia)).length < cfg.maxMessages ∧
    bytesOf (q.entries.filter (!·.isMedia)) + size ≤ cfg.maxBytes

/-- Control messages are all that is left when a push finds no room, so with room beside them it
finds some. -/
theorem RoomBeside.fits {cfg : LiveQueueConfig} {q q₁ q₂ q₃ : LiveQueue} {e : QueueEntry}
    (hroom : RoomBeside cfg q e.size) (hq : q.Booked q.entries) (hbefore : Maintained q q₁)
    (hresumed : Resumed e q₁ q₂) (hafter : Maintained q₂ q₃)
    (hcontrol : ∀ x ∈ q₃.entries, x.kind = .control) : q₃.fits e.size cfg = true := by
  have hentries : q₃.entries = q.entries.filter (!·.isMedia) := by
    have hall : q₃.entries.filter (!·.isMedia) = q₃.entries := by
      rw [filter_eq_self]
      intro x hx
      simp [QueueEntry.isMedia, hcontrol x hx, Kind.isMedia]
    rw [← hall, hafter.control, hresumed.frame.1, hbefore.control]
  have hbytes := (hafter.booked (hresumed.booked (hbefore.booked hq))).bytes
  simp only [LiveQueue.fits, decide_eq_true_eq]
  rw [hbytes, hentries]
  exact hroom

end LiveQueue

/-! ### Conservation -/

namespace QueueRun

variable {s : QueueRun} {q' : LiveQueue} {e : QueueEntry} {cfg : LiveQueueConfig} {r : PushResult}

def offered (s : QueueRun) : List QueueEntry := s.pushes.map Prod.fst

def accepted (s : QueueRun) : List QueueEntry := (s.pushes.filter (·.2 = .queued)).map Prod.fst

def passed (s : QueueRun) : List QueueEntry := s.returned ++ s.queue.entries

def oversizedControl (s : QueueRun) : Nat :=
  s.pushes.countP fun p => !p.1.isMedia && p.2 = .dropped .oversized

/-- Nothing is invented, reordered or lost unaccounted for. Offers are told apart by their number. -/
structure Conserved (s : QueueRun) : Prop where
  order : s.passed.Sublist s.accepted
  distinct : (s.offered.map (·.seq)).Nodup
  frames : (s.offered.filter (·.isMedia)).Perm
    (s.returned.filter (·.isMedia) ++ s.queue.entries.filter (·.isMedia) ++ lostOf s.queue.events)
  control : s.accepted.filter (!·.isMedia) = s.passed.filter (!·.isMedia)
  categories : s.queue.stats.droppedTotal = s.queue.stats.droppedDroppable
    + s.queue.stats.droppedStale + s.queue.stats.droppedCritical + s.queue.stats.oversizedDropped
  total : s.queue.stats.droppedTotal = .ofNat ((lostOf s.queue.events).length + s.oversizedControl)

structure Ledger (s : QueueRun) : Prop where
  opened : s.queue.closed = false
  numbers : s.offered.map (·.seq) = List.range s.pushes.length
  order : s.passed.Sublist s.accepted
  frames : (s.offered.filter (·.isMedia)).Perm
    ((s.passed ++ lostOf s.queue.events).filter (·.isMedia))
  lost : ∀ e ∈ lostOf s.queue.events, e.isMedia = true
  control : s.accepted.filter (!·.isMedia) = s.passed.filter (!·.isMedia)
  counted : s.queue.Counted
  refused : s.queue.events.countP QueueEvent.isRefused = s.oversizedControl

theorem Ledger.start : Ledger .start where
  opened := rfl
  numbers := rfl
  order := .slnil
  frames := .nil
  lost _ he := absurd he not_mem_nil
  control := rfl
  counted := ⟨rfl, rfl⟩
  refused := rfl

theorem Ledger.conserved (h : s.Ledger) : s.Conserved where
  order := h.order
  distinct := by rw [h.numbers]; exact nodup_range
  frames := by
    have hlost : (lostOf s.queue.events).filter (·.isMedia) = lostOf s.queue.events :=
      filter_eq_self.2 h.lost
    have hframes := h.frames
    rwa [passed, filter_append, filter_append, hlost] at hframes
  control := h.control
  categories := h.counted.categories
  total := by rw [h.counted.total, countP_isDrop, h.refused]

open LiveQueue in
theorem Ledger.maintenance (h : s.Ledger) (hm : Maintenance s.queue q') :
    Ledger { s with queue := q' } := by
  obtain ⟨lost, hlost, hperm, hmedia, hcontrol, hrefused⟩ := hm.change.moved
  have hsub := hm.change.sublist
  refine ⟨hm.closed.trans h.opened, h.numbers, (hsub.append_left _).trans h.order, ?_, ?_, ?_,
    hm.counted h.counted, hrefused.trans h.refused⟩
  · refine h.frames.trans (List.Perm.filter _ ?_)
    show (s.returned ++ s.queue.entries ++ lostOf s.queue.events).Perm
      (s.returned ++ q'.entries ++ lostOf q'.events)
    rw [hlost, append_assoc, append_assoc, ← append_assoc q'.entries]
    refine List.Perm.append_left _ (List.Perm.append_right _ ?_)
    exact hperm.symm.trans (perm_append_comm.trans (lost.reverse_perm.symm.append_left _))
  · intro e he
    show e.isMedia = true
    rw [show ({ s with queue := q' } : QueueRun).queue.events = q'.events from rfl, hlost,
      mem_append, mem_reverse] at he
    rcases he with he | he
    · exact hmedia e he
    · exact h.lost e he
  · refine h.control.trans ?_
    show (s.returned ++ s.queue.entries).filter _ = (s.returned ++ q'.entries).filter _
    rw [filter_append, filter_append, hcontrol]

open LiveQueue in
theorem Ledger.maintained (h : s.Ledger) (hm : Maintained s.queue q') :
    Ledger { s with queue := q' } := by
  refine hm.inv (P := fun q => Ledger { s with queue := q }) (fun q q' hstep hq => ?_) h
  exact Ledger.maintenance (s := { s with queue := q }) hq hstep

theorem Ledger.congr (h : s.Ledger) (hentries : q'.entries = s.queue.entries)
    (hevents : q'.events = s.queue.events) (hclosed : q'.closed = s.queue.closed)
    (hcounted : q'.Counted) :
    Ledger { s with queue := q' } where
  opened := hclosed.trans h.opened
  numbers := h.numbers
  order := by
    show (s.returned ++ q'.entries).Sublist _
    rw [hentries]
    exact h.order
  frames := by
    show (s.offered.filter (·.isMedia)).Perm
      ((s.returned ++ q'.entries ++ lostOf q'.events).filter (·.isMedia))
    rw [hentries, hevents]
    exact h.frames
  lost := by
    show ∀ e ∈ lostOf q'.events, e.isMedia = true
    rw [hevents]
    exact h.lost
  control := by
    show _ = (s.returned ++ q'.entries).filter _
    rw [hentries]
    exact h.control
  counted := hcounted
  refused := by
    show q'.events.countP _ = _
    rw [hevents]
    exact h.refused

open LiveQueue in
theorem Ledger.resumed (h : s.Ledger) (hr : Resumed e s.queue q') :
    Ledger { s with queue := q' } := by
  obtain ⟨hentries, hevents, -, hclosed, -, hcounted⟩ := hr.frame
  exact h.congr hentries hevents hclosed (hcounted h.counted)

def answer (s : QueueRun) (q : LiveQueue) (e : QueueEntry) (r : PushResult) : QueueRun :=
  { s with queue := q, pushes := s.pushes ++ [(e, r)] }

theorem offered_answer (s : QueueRun) (q : LiveQueue) (e : QueueEntry) (r : PushResult) :
    (s.answer q e r).offered = s.offered ++ [e] := by
  simp [offered, answer]

theorem accepted_answer (s : QueueRun) (q : LiveQueue) (e : QueueEntry) (r : PushResult) :
    (s.answer q e r).accepted = s.accepted ++ if r = .queued then [e] else [] := by
  by_cases hr : r = .queued <;> simp [accepted, answer, hr]

theorem Ledger.numbers_answer (h : s.Ledger) (q : LiveQueue) (hseq : e.seq = s.pushes.length)
    (r : PushResult) :
    (s.answer q e r).offered.map (·.seq) = List.range (s.answer q e r).pushes.length := by
  rw [offered_answer, map_append, h.numbers]
  simp [answer, range_succ, hseq]

theorem oversizedControl_answer (s : QueueRun) (q : LiveQueue) (e : QueueEntry) (r : PushResult) :
    (s.answer q e r).oversizedControl =
      s.oversizedControl + if !e.isMedia && r = .dropped .oversized then 1 else 0 := by
  simp [oversizedControl, answer, countP_append, countP_singleton]

/-- A push that is refused: a frame is entered in the log, a control message only if it was too
large. -/
theorem Ledger.refuse (h : s.Ledger)
    (hseq : e.seq = s.pushes.length) (hr : r ≠ .queued) (hentries : q'.entries = s.queue.entries)
    (hclosed : q'.closed = s.queue.closed) (hcounted : q'.Counted)
    (hlost : lostOf q'.events = (if e.isMedia then [e] else []) ++ lostOf s.queue.events)
    (hrefused : q'.events.countP QueueEvent.isRefused = s.queue.events.countP QueueEvent.isRefused
      + if !e.isMedia && r = .dropped .oversized then 1 else 0) :
    Ledger (s.answer q' e r) := by
  have hpassed : (s.answer q' e r).passed = s.passed := congrArg (s.returned ++ ·) hentries
  have haccepted : (s.answer q' e r).accepted = s.accepted := by
    rw [accepted_answer, if_neg hr, append_nil]
  refine ⟨hclosed.trans h.opened, h.numbers_answer q' hseq r, ?_, ?_, ?_, ?_, hcounted, ?_⟩
  · rw [hpassed, haccepted]
    exact h.order
  · rw [hpassed, offered_answer, show (s.answer q' e r).queue.events = q'.events from rfl, hlost]
    have hframes := h.frames
    cases hmedia : e.isMedia with
    | false => simpa [hmedia] using hframes
    | true =>
      rw [if_pos rfl, filter_append, filter_append, filter_append]
      rw [filter_append] at hframes
      have he : [e].filter (·.isMedia) = [e] := by simp [hmedia]
      rw [he]
      refine (hframes.append_right [e]).trans ?_
      rw [append_assoc]
      exact List.Perm.append_left _ perm_append_comm
  · show ∀ x ∈ lostOf q'.events, x.isMedia = true
    rw [hlost]
    intro x hx
    rcases mem_append.1 hx with hx | hx
    · by_cases hmedia : e.isMedia = true
      · rw [if_pos hmedia, mem_singleton] at hx
        rw [hx, hmedia]
      · rw [if_neg hmedia] at hx
        cases hx
    · exact h.lost x hx
  · rw [hpassed, haccepted]
    exact h.control
  · rw [oversizedControl_answer, ← h.refused]
    exact hrefused

open LiveQueue in
theorem Ledger.enqueue (h : s.Ledger) (hseq : e.seq = s.pushes.length) :
    Ledger (s.answer (s.queue.enqueue e) e .queued) := by
  obtain ⟨hentries, hevents, -, hclosed, -, hcounted⟩ := s.queue.enqueue_eq e
  have hpassed : (s.answer (s.queue.enqueue e) e .queued).passed = s.passed ++ [e] := by
    show s.returned ++ (s.queue.enqueue e).entries = _
    rw [hentries, ← append_assoc]
    rfl
  have haccepted : (s.answer (s.queue.enqueue e) e .queued).accepted = s.accepted ++ [e] := by
    rw [accepted_answer, if_pos rfl]
  refine ⟨hclosed.trans h.opened, h.numbers_answer _ hseq _, ?_, ?_, ?_, ?_, hcounted h.counted, ?_⟩
  · rw [hpassed, haccepted]
    exact h.order.append_right [e]
  · rw [hpassed, offered_answer,
      show (s.answer (s.queue.enqueue e) e .queued).queue.events = (s.queue.enqueue e).events from rfl,
      hevents, filter_append, append_assoc]
    have hframes := h.frames
    refine (hframes.append_right _).trans ?_
    rw [← filter_append, append_assoc]
    exact List.Perm.filter _ (List.Perm.append_left _ perm_append_comm)
  · show ∀ x ∈ lostOf (s.queue.enqueue e).events, x.isMedia = true
    rw [hevents]
    exact h.lost
  · rw [hpassed, haccepted, filter_append, filter_append, h.control]
  · rw [oversizedControl_answer]
    show (s.queue.enqueue e).events.countP _ = _
    rw [hevents, h.refused]
    simp

open LiveQueue in
theorem Ledger.pushed (h : s.Ledger) (hseq : e.seq = s.pushes.length)
    (hp : Pushed cfg s.queue e r q') : Ledger (s.answer q' e r) := by
  -- after maintenance the answer is recorded in the run whose queue was maintained
  cases hp with
  | closed hclosed =>
    rw [h.opened] at hclosed
    cases hclosed
  | oversized =>
    have hcounted : (s.queue.refuseOversized e).Counted := by
      have htotal := h.counted.total
      have hcategories := h.counted.categories
      constructor
      · cases hmedia : e.kind.isMedia <;>
          simp [refuseOversized, hmedia, countP_cons, QueueEvent.isDrop, htotal]
      · simp only [refuseOversized]
        grind
    refine h.refuse hseq (by simp) rfl rfl hcounted ?_ ?_
    · cases hmedia : e.kind.isMedia <;>
        simp [refuseOversized, hmedia, QueueEntry.isMedia, lostOf, filterMap_cons,
          QueueEvent.lost?]
    · cases hmedia : e.kind.isMedia <;>
        simp [refuseOversized, hmedia, QueueEntry.isMedia, countP_cons, QueueEvent.isRefused]
  | @awaiting q₁ k hm hnames hdrop hwait =>
    have hmedia : e.isMedia = true := by
      rw [QueueEntry.isMedia, hdrop]
      rfl
    have h₁ := h.maintained hm
    refine Ledger.refuse (s := { s with queue := q₁ }) h₁ hseq (by simp) rfl rfl
      (h₁.counted.countDrop e .pressure) ?_ ?_
    · rw [hmedia]
      rfl
    · rw [hmedia]
      rfl
  | @full q₁ q₂ q₃ hbefore hresumed hafter =>
    have h₁ := h.maintained hbefore
    have h₂ : Ledger { s with queue := q₂ } := Ledger.resumed (s := { s with queue := q₁ }) h₁ hresumed
    have h₃ : Ledger { s with queue := q₃ } := Ledger.maintained (s := { s with queue := q₂ }) h₂ hafter
    cases hmedia : e.isMedia with
    | true =>
      rw [if_pos (show e.kind.isMedia = true from hmedia)]
      refine Ledger.refuse (s := { s with queue := q₃ }) h₃ hseq (by simp) rfl rfl
        ((h₃.counted.countDrop e .pressure).congr rfl rfl) ?_ ?_
      · rw [hmedia]
        rfl
      · rw [hmedia]
        rfl
    | false =>
      rw [if_neg (by simpa [QueueEntry.isMedia] using hmedia)]
      refine Ledger.refuse (s := { s with queue := q₃ }) h₃ hseq (by simp) rfl rfl
        (h₃.counted.congr rfl rfl) ?_ ?_
      · rw [hmedia]
        rfl
      · simp [publishReinit]
  | @queued q₁ q₂ q₃ q₄ hbefore hresumed hafter hagain =>
    have h₁ := h.maintained hbefore
    have h₂ : Ledger { s with queue := q₂ } := Ledger.resumed (s := { s with queue := q₁ }) h₁ hresumed
    have h₃ : Ledger { s with queue := q₃ } := Ledger.maintained (s := { s with queue := q₂ }) h₂ hafter
    have h₄ : Ledger { s with queue := q₄ } := Ledger.resumed (s := { s with queue := q₃ }) h₃ hagain
    exact h₄.enqueue hseq

open LiveQueue in
theorem Ledger.popped (h : s.Ledger) {e : Option QueueEntry} (hp : Popped s.queue e q') :
    Ledger { s with queue := q', returned := s.returned ++ e.toList } := by
  cases hp with
  | closed hclosed =>
    rw [h.opened] at hclosed
    cases hclosed
  | empty hm => simpa using h.maintained hm
  | @head q₁ e rest hm hentries =>
    have h₁ := h.maintained hm
    obtain ⟨hrest, hevents, hclosed, -, -, hcounted⟩ := q₁.deliver_eq e rest
    -- the head of the queue moves to what was returned
    have hpassed : s.returned ++ [e] ++ (q₁.deliver e rest).entries = s.returned ++ q₁.entries := by
      rw [hrest, hentries, append_assoc]
      rfl
    have hlost : lostOf (q₁.deliver e rest).events = lostOf q₁.events := by
      rw [hevents]
      rfl
    refine ⟨hclosed.trans h₁.opened, h₁.numbers, ?_, ?_, ?_, ?_, hcounted h₁.counted, ?_⟩
    · show (s.returned ++ [e] ++ (q₁.deliver e rest).entries).Sublist _
      rw [hpassed]
      exact h₁.order
    · show (s.offered.filter (·.isMedia)).Perm ((s.returned ++ [e] ++ (q₁.deliver e rest).entries
        ++ lostOf (q₁.deliver e rest).events).filter (·.isMedia))
      rw [hpassed, hlost]
      exact h₁.frames
    · show ∀ x ∈ lostOf (q₁.deliver e rest).events, x.isMedia = true
      rw [hlost]
      exact h₁.lost
    · show s.accepted.filter _ = (s.returned ++ [e] ++ (q₁.deliver e rest).entries).filter _
      rw [hpassed]
      exact h₁.control
    · show (q₁.deliver e rest).events.countP _ = _
      rw [hevents]
      exact h₁.refused

open LiveQueue in
theorem Ledger.step {s s' : QueueRun} (h : s.Ledger) (hok : s.queue.Ok cfg) {op : QueueOp}
    (hop : op ≠ .close) (hstep : s.step cfg op = some s') : s'.Ledger := by
  cases op with
  | push msg now =>
    obtain ⟨r, q', hpush, hpushed⟩ := pushAt_spec hok.booked cfg ⟨s.pushes.length, msg, now⟩
    rw [QueueRun.step, hpush] at hstep
    obtain rfl := Option.some.inj hstep
    exact h.pushed rfl hpushed
  | pop now =>
    obtain rfl := Option.some.inj hstep
    exact h.popped (s.queue.popAt_spec cfg now)
  | connectionReset now =>
    obtain rfl := Option.some.inj hstep
    exact h.maintained (s.queue.maintained_onConnectionReset now)
  | takeReinit k =>
    obtain rfl := Option.some.inj hstep
    exact h.maintenance (s.queue.maintenance_takeReinit k)
  | markReinit k =>
    obtain rfl := Option.some.inj hstep
    exact h.maintenance (s.queue.maintenance_markReinit k)
  | close => exact absurd rfl hop

end QueueRun

/-- **Conservation.** Until it is closed, every run of the queue delivers in order, loses nothing
unaccounted for, and counts every drop once. -/
theorem queue_conserves (cfg : LiveQueueConfig) (ops : List QueueOp) (hopen : .close ∉ ops) :
    ∃ s, QueueRun.start.exec cfg ops = some s ∧ s.Conserved := by
  suffices h : ∀ s : QueueRun, s.queue.Ok cfg → s.Ledger →
      ∃ s', s.exec cfg ops = some s' ∧ s'.Ledger by
    obtain ⟨s, hs, hledger⟩ := h .start (QueueRun.start_ok cfg) .start
    exact ⟨s, hs, hledger.conserved⟩
  induction ops with
  | nil => exact fun s _ h => ⟨s, rfl, h⟩
  | cons op ops ih =>
    intro s hok h
    obtain ⟨hop, hrest⟩ := not_or.1 (mem_cons.not.1 hopen)
    obtain ⟨s₁, hstep, hok₁⟩ := QueueRun.step_ok hok op
    obtain ⟨s', hexec, h'⟩ := ih hrest s₁ hok₁ (h.step hok (Ne.symm hop) hstep)
    exact ⟨s', by rw [QueueRun.exec, foldlM_cons, hstep]; exact hexec, h'⟩

/-- Two messages fit: the third push finds the queue full, the resync point takes the place of the
frame that was queued, and a pop returns the control message. -/
theorem queue_conserves_small :
    (.close : QueueOp) ∉ ([.push .authOk 0, .push (.mediaFrame "live" "a" 1 1 0 0 .droppable [1]) 0,
      .push (.mediaFrame "live" "a" 1 1 1 1 .resyncPoint [2]) 1, .pop 2] : List QueueOp) ∧
    ∃ s, QueueRun.start.exec ⟨2, 1000, 3000, 10000⟩
      [.push .authOk 0, .push (.mediaFrame "live" "a" 1 1 0 0 .droppable [1]) 0,
        .push (.mediaFrame "live" "a" 1 1 1 1 .resyncPoint [2]) 1, .pop 2] = some s ∧ s.Conserved :=
  ⟨by decide, queue_conserves _ _ (by decide)⟩

end RtmpServer
