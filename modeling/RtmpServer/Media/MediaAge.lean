import Mathlib.Data.List.DropRight
import RtmpServer.Media.QueueHistory

/-!
# The age of delivered media

The age rule looks at the streams with a frame among the entries at the front that are too old. As
the entries are in the order of their times (`Timed`), these are all the streams that have such a
frame, and what is left of each of them begins with a resync point that is fresh (`AgeRule`).
-/

namespace RtmpServer

open List Lib.Split
open Option hiding filter_filter

variable {cfg : LiveQueueConfig} {op : QueueOp} {t : Nat}

def QueueEntry.overAge (now : Nat) (cfg : LiveQueueConfig) (e : QueueEntry) : Bool :=
  now - e.time > cfg.maxMediaAge

/-- A stream with a frame that is too old keeps its non-critical frames from its first fresh resync
point on; nothing else is touched. -/
structure AgeRule (now : Nat) (cfg : LiveQueueConfig) (l l' : List QueueEntry) : Prop where
  stale : ∀ k, (∃ e ∈ l, e.evictableOf k = true ∧ e.overAge now cfg = true) →
    l'.filter (·.evictableOf k) = (l.filter (·.evictableOf k)).dropWhile
      (!LiveQueue.freshResync k now cfg.maxMediaAge ·)
  spared : ∀ k, (¬ ∃ e ∈ l, e.evictableOf k = true ∧ e.overAge now cfg = true) →
    l'.filter (·.evictableOf k) = l.filter (·.evictableOf k)
  others : l'.filter (!·.kind.evictable) = l.filter (!·.kind.evictable)
  order : l'.Sublist l

namespace LiveQueue

variable {e : QueueEntry} {l l' : List QueueEntry} {k : StreamKey} {q : LiveQueue} {t : Nat}

/-! ### One stream -/

variable {now : Nat} {cfg : LiveQueueConfig}

theorem evictableOf_of_freshResync {maxAge : Nat} (h : freshResync k now maxAge e) :
    e.evictableOf k = true := by
  simp only [freshResync, QueueEntry.isResync, Bool.and_eq_true, decide_eq_true_eq] at h
  simp [QueueEntry.evictableOf, h.1.1, h.1.2, Kind.evictable]

def aged (now : Nat) (cfg : LiveQueueConfig) (k : StreamKey) (l : List QueueEntry) :
    List QueueEntry :=
  (l.takeWhile (!freshResync k now cfg.maxMediaAge ·)).filter (!·.evictableOf k) ++
    l.dropWhile (!freshResync k now cfg.maxMediaAge ·)

theorem enforceAgeOn_entries (q : LiveQueue) (k : StreamKey) :
    (q.enforceAgeOn now cfg k).entries = aged now cfg k q.entries := by
  rw [enforceAgeOn, purgeStaleStream, span_eq_takeWhile_dropWhile]
  dsimp only
  have hentries := (q.discard_spec
    ((q.entries.takeWhile (!freshResync k now cfg.maxMediaAge ·)).filter (!·.evictableOf k) ++
      q.entries.dropWhile (!freshResync k now cfg.maxMediaAge ·))
    ((q.entries.takeWhile (!freshResync k now cfg.maxMediaAge ·)).filter (·.evictableOf k)) .stale).1
  rw [pruneIdle_entries]
  split
  · rw [modifyExisting_entries]
    split <;> exact hentries
  · exact hentries

theorem aged_stream (k : StreamKey) (l : List QueueEntry) :
    (aged now cfg k l).filter (·.evictableOf k) =
      (l.filter (·.evictableOf k)).dropWhile (!freshResync k now cfg.maxMediaAge ·) := by
  rw [aged, filter_append, filter_filter]
  have hnone : (l.takeWhile (!freshResync k now cfg.maxMediaAge ·)).filter
      (fun e => e.evictableOf k && !e.evictableOf k) = [] := by
    rw [filter_eq_nil_iff]
    intro e _
    simp
  rw [hnone, nil_append]
  refine filter_dropWhile (fun e he => ?_) l
  exact evictableOf_of_freshResync (by simpa using he)

theorem aged_filter {f : QueueEntry → Bool} (hf : ∀ e, f e → e.evictableOf k = false)
    (l : List QueueEntry) : (aged now cfg k l).filter f = l.filter f := by
  have hspared : (l.takeWhile (!freshResync k now cfg.maxMediaAge ·)).filter
      (fun e => f e && !e.evictableOf k) =
      (l.takeWhile (!freshResync k now cfg.maxMediaAge ·)).filter f := by
    refine filter_congr fun e _ => ?_
    cases he : f e with
    | false => rfl
    | true => rw [hf e he]; rfl
  rw [aged, filter_append, filter_filter, hspared, ← filter_append,
    takeWhile_append_dropWhile]

theorem aged_sublist (k : StreamKey) (l : List QueueEntry) : (aged now cfg k l).Sublist l := by
  rw [aged]
  conv_rhs => rw [← takeWhile_append_dropWhile (p := (!freshResync k now cfg.maxMediaAge ·))
    (l := l)]
  exact filter_sublist.append_right _

/-! ### All streams -/

theorem enforceAge_entries (q : LiveQueue) :
    (q.enforceAge now cfg).entries =
      (q.staleStreams now cfg).foldl (fun l k => aged now cfg k l) q.entries := by
  rw [enforceAge]
  generalize q.staleStreams now cfg = ks
  induction ks generalizing q with
  | nil => rfl
  | cons k ks ih => rw [foldl_cons, foldl_cons, ih, enforceAgeOn_entries]

theorem foldl_aged_stream (ks : List StreamKey) (l : List QueueEntry) (k : StreamKey) :
    (ks.foldl (fun l k => aged now cfg k l) l).filter (·.evictableOf k) =
      if k ∈ ks then
        (l.filter (·.evictableOf k)).dropWhile (!freshResync k now cfg.maxMediaAge ·)
      else l.filter (·.evictableOf k) := by
  induction ks generalizing l with
  | nil => rfl
  | cons j ks ih =>
    rw [foldl_cons, ih]
    by_cases hjk : k = j
    · subst hjk
      rw [aged_stream, if_pos mem_cons_self, dropWhile_idempotent, ite_self]
    · have hother : (aged now cfg j l).filter (·.evictableOf k) = l.filter (·.evictableOf k) := by
        refine aged_filter (fun e he => ?_) l
        by_contra hj
        exact hjk (evictableOf_inj he (Bool.eq_true_of_not_eq_false hj))
      simp only [hother, mem_cons, hjk, false_or]

theorem foldl_aged_others (ks : List StreamKey) (l : List QueueEntry) :
    (ks.foldl (fun l k => aged now cfg k l) l).filter (!·.kind.evictable) =
      l.filter (!·.kind.evictable) := by
  induction ks generalizing l with
  | nil => rfl
  | cons j ks ih =>
    rw [foldl_cons, ih]
    refine aged_filter (fun e he => ?_) l
    have hev : e.kind.evictable = false := by simpa using he
    rw [QueueEntry.evictableOf, hev, Bool.false_and]

theorem foldl_aged_sublist (ks : List StreamKey) (l : List QueueEntry) :
    (ks.foldl (fun l k => aged now cfg k l) l).Sublist l := by
  induction ks generalizing l with
  | nil => exact .refl l
  | cons j ks ih => exact (ih _).trans (aged_sublist j l)

/-! ### The order of times -/

/-- The entries are in the order of their times, and none is later than `t`. -/
structure Timed (t : Nat) (l : List QueueEntry) : Prop where
  sorted : l.Pairwise (·.time ≤ ·.time)
  past : ∀ e ∈ l, e.time ≤ t

theorem Timed.sublist (h : Timed t l) (hsub : l'.Sublist l) : Timed t l' :=
  ⟨h.sorted.sublist hsub, fun e he => h.past e (hsub.subset he)⟩

theorem Timed.mono {t t' : Nat} {l : List QueueEntry} (h : Timed t l) (ht : t ≤ t') : Timed t' l :=
  ⟨h.sorted, fun e he => (h.past e he).trans ht⟩

theorem Timed.push {l : List QueueEntry} (h : Timed t l) (he : e.time = t) :
    Timed t (l ++ [e]) := by
  refine ⟨pairwise_append.2 ⟨h.sorted, pairwise_singleton _ _, fun x hx y hy => ?_⟩,
    fun x hx => ?_⟩
  · rw [mem_singleton.1 hy, he]
    exact h.past x hx
  · rcases mem_append.1 hx with hx | hx
    · exact h.past x hx
    · rw [mem_singleton.1 hx, he]

/-- As the entries are in order, the streams that are found are those with a frame that is too old. -/
theorem mem_staleStreams (hq : q.entries.Pairwise (·.time ≤ ·.time)) (k : StreamKey) :
    k ∈ q.staleStreams now cfg ↔
      ∃ e ∈ q.entries, e.evictableOf k ∧ e.overAge now cfg = true := by
  rw [staleStreams, mem_eraseDups, mem_filterMap]
  constructor
  · rintro ⟨e, he, hk⟩
    by_cases hev : e.kind.evictable = true
    · rw [if_pos hev] at hk
      refine ⟨e, (takeWhile_sublist _).subset he, ?_, mem_takeWhile_imp he⟩
      simp [QueueEntry.evictableOf, hev, hk]
    · rw [if_neg hev] at hk
      cases hk
  · rintro ⟨e, he, hev, hover⟩
    have hmem : e ∈ q.entries.takeWhile fun e => now - e.time > cfg.maxMediaAge := by
      refine mem_takeWhile_of_pairwise (hq.imp fun {x y} hxy hy => ?_) he hover
      rw [decide_eq_true_eq] at hy ⊢
      omega
    simp only [QueueEntry.evictableOf, Bool.and_eq_true, decide_eq_true_eq] at hev
    exact ⟨e, hmem, by rw [if_pos hev.1, hev.2]⟩

/-- A frame that is left after the rule is not too old: what follows a fresh resync point is not
older than it. -/
theorem fresh_of_ageRule (h : AgeRule now cfg l l') (hl : l.Pairwise (·.time ≤ ·.time))
    (he : e ∈ l') (hev : e.evictableOf k) : e.overAge now cfg = false := by
  by_contra hover
  rw [Bool.not_eq_false] at hover
  have hkept : e ∈ l'.filter (·.evictableOf k) := mem_filter.2 ⟨he, hev⟩
  rw [h.stale k ⟨e, h.order.subset he, hev, hover⟩] at hkept
  cases hdrop : (l.filter (·.evictableOf k)).dropWhile
      (!freshResync k now cfg.maxMediaAge ·) with
  | nil =>
    rw [hdrop] at hkept
    cases hkept
  | cons r rest =>
    have hfresh : freshResync k now cfg.maxMediaAge r = true := by
      have := (span_spec _ (l.filter (·.evictableOf k)) (span_eq_takeWhile_dropWhile _ _)).2.2 r
        rest hdrop
      simpa using this
    have hsorted : (r :: rest).Pairwise (·.time ≤ ·.time) := by
      rw [← hdrop]
      exact hl.sublist ((dropWhile_sublist _).trans filter_sublist)
    have hle : r.time ≤ e.time := by
      rw [hdrop] at hkept
      rcases mem_cons.1 hkept with rfl | hmem
      · exact le_rfl
      · exact rel_of_pairwise_cons hsorted hmem
    simp only [freshResync, Bool.and_eq_true, decide_eq_true_eq] at hfresh
    rw [QueueEntry.overAge, decide_eq_true_eq] at hover
    omega

theorem ageRule_enforceAge (hq : q.entries.Pairwise (·.time ≤ ·.time)) :
    AgeRule now cfg q.entries (q.enforceAge now cfg).entries := by
  rw [enforceAge_entries]
  refine ⟨fun k hk => ?_, fun k hk => ?_, foldl_aged_others _ _, foldl_aged_sublist _ _⟩
  · rw [foldl_aged_stream, if_pos ((mem_staleStreams hq k).2 hk)]
  · rw [foldl_aged_stream, if_neg (fun hmem => hk ((mem_staleStreams hq k).1 hmem))]

theorem releaseExpiredWaits_entries (q : LiveQueue) :
    (q.releaseExpiredWaits now cfg).entries = q.entries := by
  rw [releaseExpiredWaits]
  generalize (q.streams.entries.filter _).map _ = ks
  induction ks generalizing q with
  | nil => rfl
  | cons k ks ih =>
    rw [foldl_cons, ih, releaseWait, pruneIdle_entries, modifyExisting_entries]

theorem popAt_fresh (hq : q.entries.Pairwise (·.time ≤ ·.time)) (h : (q.popAt cfg now).1 = some e)
    (hev : e.kind.evictable) : e.overAge now cfg = false := by
  rw [popAt] at h
  split_ifs at h with hclosed
  dsimp only at h
  have hrule : AgeRule now cfg q.entries
      (((q.noteHighWater now).enforceAge now cfg).releaseExpiredWaits now cfg).entries := by
    rw [releaseExpiredWaits_entries]
    exact ageRule_enforceAge (q := q.noteHighWater now) hq
  obtain ⟨k, hk⟩ := exists_evictableOf hev
  split at h
  next => cases h
  next e' rest hentries =>
    obtain rfl := some.inj h
    exact fresh_of_ageRule hrule hq (by rw [hentries]; exact mem_cons_self) hk

end LiveQueue

/-! ### Runs -/

def QueueOp.time? : QueueOp → Option Nat
  | .push _ now => some now
  | .pop now => some now
  | .connectionReset now => some now
  | _ => none

def timesInOrder (ops : List QueueOp) : Prop := (ops.filterMap QueueOp.time?).Pairwise (· ≤ ·)

theorem exists_instant {ops : List QueueOp}
    (h : (t :: (op :: ops).filterMap QueueOp.time?).Pairwise (· ≤ ·)) :
    ∃ t', t ≤ t' ∧ (∀ now ∈ op.time?, now = t') ∧
      (t' :: ops.filterMap QueueOp.time?).Pairwise (· ≤ ·) := by
  rw [filterMap_cons] at h
  cases hop : op.time? with
  | none =>
    rw [hop] at h
    exact ⟨t, le_rfl, fun now hnow => absurd hnow (not_mem_none now), h⟩
  | some now =>
    rw [hop] at h
    obtain ⟨hfirst, hrest⟩ := pairwise_cons.1 h
    exact ⟨now, hfirst now mem_cons_self, fun _ h => (some.inj h).symm, hrest⟩

open LiveQueue in
theorem QueueRun.timed_step {s s' : QueueRun} (hok : s.queue.Ok cfg) (h : Timed t s.queue.entries)
    (hop : ∀ now ∈ op.time?, now = t) (hstep : s.step cfg op = some s') :
    Timed t s'.queue.entries := by
  cases op with
  | push msg now =>
    obtain rfl := hop now rfl
    obtain ⟨r, q', hpush, hpushed⟩ := pushAt_spec hok.booked cfg ⟨s.pushes.length, msg, now⟩
    rw [QueueRun.step, hpush] at hstep
    obtain rfl := some.inj hstep
    show Timed now q'.entries
    cases hpushed with
    | closed => exact h
    | oversized => exact h
    | awaiting k hm => exact h.sublist hm.sublist
    | full hbefore hresumed hafter =>
      have hsub := hafter.sublist.trans (hresumed.frame.1 ▸ hbefore.sublist)
      split
      · exact h.sublist hsub
      · exact h.sublist hsub
    | @queued q₁ q₂ q₃ q₄ hbefore hresumed hafter hagain =>
      have hsub := hafter.sublist.trans (hresumed.frame.1 ▸ hbefore.sublist)
      rw [(q₄.enqueue_eq _).1, hagain.frame.1]
      exact (h.sublist hsub).push rfl
  | pop now =>
    obtain rfl := some.inj hstep
    have hpopped := s.queue.popAt_spec cfg now
    show Timed t (s.queue.popAt cfg now).2.entries
    generalize s.queue.popAt cfg now = popped at hpopped
    obtain ⟨e, q'⟩ := popped
    cases hpopped with
    | closed => exact h
    | empty hm => exact h.sublist hm.sublist
    | @head q₁ e rest hm hentries =>
      show Timed t (q₁.deliver e rest).entries
      rw [(q₁.deliver_eq e rest).1]
      refine (h.sublist hm.sublist).sublist ?_
      rw [hentries]
      exact sublist_cons_self _ _
  | connectionReset now =>
    obtain rfl := some.inj hstep
    exact h.sublist (s.queue.maintained_onConnectionReset now).sublist
  | takeReinit k =>
    obtain rfl := some.inj hstep
    exact h.sublist (s.queue.maintenance_takeReinit k).change.sublist
  | markReinit k =>
    obtain rfl := some.inj hstep
    exact h
  | close =>
    obtain rfl := some.inj hstep
    exact ⟨.nil, fun e he => absurd he not_mem_nil⟩

theorem QueueRun.sorted_exec (ops : List QueueOp) {s : QueueRun} (hok : s.queue.Ok cfg)
    (ht : LiveQueue.Timed t s.queue.entries)
    (hops : (t :: ops.filterMap QueueOp.time?).Pairwise (· ≤ ·)) :
    ∃ s', s.exec cfg ops = some s' ∧ s'.queue.entries.Pairwise (·.time ≤ ·.time) := by
  induction ops generalizing s t with
  | nil => exact ⟨s, rfl, ht.sorted⟩
  | cons op ops ih =>
    obtain ⟨s₁, hstep, hok₁⟩ := QueueRun.step_ok hok op
    obtain ⟨t', hle, htime, hops'⟩ := exists_instant hops
    obtain ⟨s', hexec, hsorted⟩ := ih hok₁ (QueueRun.timed_step hok (ht.mono hle) htime hstep) hops'
    exact ⟨s', by rw [QueueRun.exec, foldlM_cons, hstep]; exact hexec, hsorted⟩

/-- **No stale media.** In every run at times in order, no frame that has been queued for more than
the age bound is delivered, and the age rule trims every stream with a frame that is too old to what
follows its first fresh resync point and touches nothing else. -/
theorem no_stale_media (cfg : LiveQueueConfig) (ops : List QueueOp) (hops : timesInOrder ops) :
    ∃ s, QueueRun.start.exec cfg ops = some s ∧
      (∀ now e, (s.queue.popAt cfg now).1 = some e → e.kind.evictable = true →
        now - e.time ≤ cfg.maxMediaAge) ∧
      ∀ now (q : LiveQueue), q.entries = s.queue.entries →
        AgeRule now cfg q.entries (q.enforceAge now cfg).entries := by
  obtain ⟨s, hexec, hsorted⟩ := QueueRun.sorted_exec ops (QueueRun.start_ok cfg) (t := 0)
    ⟨.nil, fun e he => absurd he not_mem_nil⟩
    (pairwise_cons.2 ⟨fun _ _ => Nat.zero_le _, hops⟩)
  refine ⟨s, hexec, fun now e hpop hev => ?_, fun now q hq => ?_⟩
  · have hfresh := LiveQueue.popAt_fresh hsorted hpop hev
    rw [QueueEntry.overAge, decide_eq_false_iff_not] at hfresh
    omega
  · exact LiveQueue.ageRule_enforceAge (hq ▸ hsorted)

/-- Two streams: the frames of the first are too old when the resync point of the second is pushed. -/
def agingOps : List QueueOp :=
  [.push (.mediaFrame "live" "a" 1 1 0 0 .droppable [1]) 0,
    .push (.mediaFrame "live" "a" 1 1 0 0 .resyncPoint [2]) 4,
    .push (.mediaFrame "live" "b" 1 1 0 0 .resyncPoint [3]) 12]

theorem no_stale_media_aging :
    timesInOrder agingOps ∧ ∃ s, QueueRun.start.exec ⟨9, 1000, 10, 100⟩ agingOps = some s ∧
      ∀ now e, (s.queue.popAt ⟨9, 1000, 10, 100⟩ now).1 = some e → e.kind.evictable = true →
        now - e.time ≤ 10 := by
  have htimes : timesInOrder agingOps := by
    show [0, 4, 12].Pairwise (· ≤ ·)
    decide
  obtain ⟨s, hexec, hpop, -⟩ := no_stale_media ⟨9, 1000, 10, 100⟩ agingOps htimes
  exact ⟨htimes, s, hexec, hpop⟩

end RtmpServer
