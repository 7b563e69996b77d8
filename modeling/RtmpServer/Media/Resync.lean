import RtmpServer.Media.QueueHistory

/-!
# Resync safety of the live queue

A receiver that misses a dependent frame cannot decode the ones after it until the next resync point
(`ResyncSafe`). What keeps a run safe is that a stream that lost a frame waits, or has a resync
point as its first frame in the queue (`ResyncInv`).

Two refusals do not make the stream wait: a frame that is too large, and a frame that finds no room
because control messages fill the queue. The second one also ends a wait that was on, when the frame
is a resync point: the wait ends before it is known that the frame can be queued.
-/

namespace RtmpServer

open List
open Option hiding filter_filter or_assoc

variable {log : List QueueEvent} {g : QueueEntry} {n : Nat}

/-! ### The property of the log -/

/-- A resync point that was offered after the lost frame has been delivered, or the stream stopped
waiting after the loss. The log is newest first. -/
def Bridged (log : List QueueEvent) (k : StreamKey) (f : QueueEntry) : Prop :=
  (∃ r, .delivered r ∈ log ∧ r.names = some k ∧ r.isResync = true ∧ f.seq < r.seq) ∨
    ∃ after before, log = after ++ .lost f :: before ∧ .timedOut k ∈ after

def QueueEntry.droppableOf (k : StreamKey) (e : QueueEntry) : Bool :=
  e.names = some k && e.kind = .media .droppable

def ResyncSafe (log : List QueueEvent) : Prop :=
  ∀ after g before k, log = after ++ .delivered g :: before → g.droppableOf k = true →
    ∀ f, .lost f ∈ log → f.evictableOf k = true → f.seq < g.seq → Bridged before k f

theorem Bridged.append {k : StreamKey} {f : QueueEntry} (h : Bridged log k f)
    (new : List QueueEvent) : Bridged (new ++ log) k f := by
  rcases h with ⟨r, hr, h⟩ | ⟨after, before, hlog, htime⟩
  · exact .inl ⟨r, mem_append_right _ hr, h⟩
  · exact .inr ⟨new ++ after, before, by rw [hlog, append_assoc],
      mem_append_right _ htime⟩

theorem split_delivered {new log after before : List QueueEvent} (hnew : .delivered g ∉ new)
    (h : new ++ log = after ++ .delivered g :: before) :
    ∃ after', after = new ++ after' ∧ log = after' ++ .delivered g :: before := by
  rcases append_eq_append_iff.1 h with ⟨l, rfl, hlog⟩ | ⟨l, rfl, hlog⟩
  · exact ⟨l, rfl, hlog⟩
  · cases l with
    | nil => exact ⟨[], by simp, by simpa using hlog.symm⟩
    | cons x l =>
      obtain ⟨rfl, -⟩ := cons.inj hlog
      exact absurd (mem_append_right after mem_cons_self) hnew

structure LogOk (n : Nat) (log : List QueueEvent) : Prop where
  lost_lt : ∀ f, .lost f ∈ log → f.seq < n
  delivered_lt : ∀ g, .delivered g ∈ log → g.seq < n
  late : ∀ after g before, log = after ++ .delivered g :: before →
    ∀ f, .lost f ∈ after → g.seq < f.seq
  safe : ∀ after g before k, log = after ++ .delivered g :: before → g.droppableOf k = true →
    ∀ f, .lost f ∈ before → f.evictableOf k = true → Bridged before k f

theorem LogOk.nil : LogOk 0 [] where
  lost_lt _ h := absurd h not_mem_nil
  delivered_lt _ h := absurd h not_mem_nil
  late after g before h := by simp at h
  safe after g before k h := by simp at h

theorem LogOk.resyncSafe (h : LogOk n log) : ResyncSafe log := by
  intro after g before k hlog hg f hf hev hlt
  rw [hlog] at hf
  rcases mem_append.1 hf with hf | hf
  · have := h.late after g before hlog f hf
    omega
  · rcases mem_cons.1 hf with heq | hf
    · cases heq
    · exact h.safe after g before k hlog hg f hf hev

theorem LogOk.mono {n m : Nat} (h : LogOk n log) (hnm : n ≤ m) : LogOk m log :=
  ⟨fun f hf => (h.lost_lt f hf).trans_le hnm, fun g hg => (h.delivered_lt g hg).trans_le hnm,
    h.late, h.safe⟩

/-- Losses and timeouts extend the log, as long as what is lost comes after what was delivered. -/
theorem LogOk.extend {log new : List QueueEvent} (h : LogOk n log)
    (hnew : ∀ g, .delivered g ∉ new) (hlost : ∀ f, .lost f ∈ new → f.seq < n)
    (hlate : ∀ f, .lost f ∈ new → ∀ g, .delivered g ∈ log → g.seq < f.seq) :
    LogOk n (new ++ log) := by
  refine ⟨fun f hf => ?_, fun g hg => ?_, fun after g before hlog f hf => ?_,
    fun after g before k hlog => ?_⟩
  · rcases mem_append.1 hf with hf | hf
    · exact hlost f hf
    · exact h.lost_lt f hf
  · rcases mem_append.1 hg with hg | hg
    · exact absurd hg (hnew g)
    · exact h.delivered_lt g hg
  · obtain ⟨after', rfl, hlog'⟩ := split_delivered (hnew g) hlog
    rcases mem_append.1 hf with hf | hf
    · exact hlate f hf g (by rw [hlog']; simp)
    · exact h.late after' g before hlog' f hf
  · obtain ⟨after', rfl, hlog'⟩ := split_delivered (hnew g) hlog
    exact h.safe after' g before k hlog'

theorem LogOk.deliver (h : LogOk n log)
    (hn : g.seq < n) (hsafe : ∀ k, g.droppableOf k → ∀ f, .lost f ∈ log →
      f.evictableOf k → Bridged log k f) : LogOk n (.delivered g :: log) := by
  refine ⟨fun f hf => ?_, fun g' hg' => ?_, fun after g' before hlog f hf => ?_,
    fun after g' before k hlog hg' => ?_⟩
  · rcases mem_cons.1 hf with heq | hf
    · cases heq
    · exact h.lost_lt f hf
  · rcases mem_cons.1 hg' with heq | hg'
    · obtain rfl := QueueEvent.delivered.inj heq
      exact hn
    · exact h.delivered_lt g' hg'
  · cases after with
    | nil => cases hf
    | cons x after =>
      obtain ⟨rfl, hlog'⟩ := cons.inj hlog
      rcases mem_cons.1 hf with heq | hf
      · cases heq
      · exact h.late after g' before hlog' f hf
  · cases after with
    | nil =>
      obtain ⟨heq, rfl⟩ := cons.inj hlog
      obtain rfl := QueueEvent.delivered.inj heq
      exact hsafe k hg'
    | cons x after => exact h.safe after g' before k (cons.inj hlog).2 hg'

/-! ### The invariant -/

namespace LiveQueue

variable {e : QueueEntry} {before after : List QueueEntry} {k : StreamKey} {l : List QueueEntry}

/-- The stream takes nothing but a resync point next: it waits, or a push has ended its wait for a
resync point that is not queued yet. -/
def Waits (pending : Option StreamKey) (q : LiveQueue) (k : StreamKey) : Prop :=
  q.isAwaiting k = true ∨ pending = some k

/-- The first non-critical frame of the stream in the queue is a resync point that was offered after
`f`. -/
def ResyncFirst (entries : List QueueEntry) (k : StreamKey) (f : QueueEntry) : Prop :=
  ∃ r rest, entries.filter (·.evictableOf k) = r :: rest ∧ r.isResync = true ∧ f.seq < r.seq

structure ResyncInv (pending : Option StreamKey) (n : Nat) (q : LiveQueue) : Prop where
  log : LogOk n q.events
  ordered : q.entries.Pairwise (·.seq < ·.seq)
  below : ∀ e ∈ q.entries, e.seq < n
  delivered : ∀ g, .delivered g ∈ q.events → ∀ e ∈ q.entries, g.seq < e.seq
  waits : ∀ k, q.Waits pending k → ∀ e ∈ q.entries, e.evictableOf k = false
  gap : ∀ k f, .lost f ∈ q.events → f.evictableOf k = true →
    Bridged q.events k f ∨ q.Waits pending k ∨ ResyncFirst q.entries k f

theorem ResyncInv.empty {q : LiveQueue} (hentries : q.entries = []) (hevents : q.events = []) :
    ResyncInv none 0 q := by
  refine ⟨hevents ▸ .nil, hentries ▸ .nil, fun e he => ?_, fun g hg => ?_, fun k _ e he => ?_,
    fun k f hf => ?_⟩
  · rw [hentries] at he
    cases he
  · rw [hevents] at hg
    cases hg
  · rw [hentries] at he
    cases he
  · rw [hevents] at hf
    cases hf

theorem filter_purge_of_ne {j k : StreamKey} (hjk : j ≠ k) (l : List QueueEntry) :
    (l.filter (!·.evictableOf k)).filter (·.evictableOf j) = l.filter (·.evictableOf j) := by
  rw [filter_filter]
  refine filter_congr fun e _ => ?_
  cases hj : e.evictableOf j with
  | false => rfl
  | true =>
    cases hk : e.evictableOf k with
    | false => rfl
    | true => exact absurd (evictableOf_inj hj hk) hjk

theorem filter_purge_self (k : StreamKey) (l : List QueueEntry) :
    (l.filter (!·.evictableOf k)).filter (·.evictableOf k) = [] := by
  rw [filter_filter, filter_eq_nil_iff]
  intro e _
  cases e.evictableOf k <;> simp

theorem lost_mem_map_reverse {f : QueueEntry}
    (h : QueueEvent.lost f ∈ l.reverse.map QueueEvent.lost) : f ∈ l := by
  obtain ⟨x, hx, heq⟩ := mem_map.1 h
  exact QueueEvent.lost.inj heq ▸ mem_reverse.1 hx

theorem delivered_notMem_map_lost {g : QueueEntry} :
    QueueEvent.delivered g ∉ l.map QueueEvent.lost := by
  intro h
  obtain ⟨x, -, heq⟩ := mem_map.1 h
  cases heq

variable {pending : Option StreamKey} {n : Nat} {q q' : LiveQueue}

theorem ResyncInv.log_lost (h : q.ResyncInv pending n) (lost : List QueueEntry)
    (hsub : ∀ e ∈ lost, e ∈ q.entries) :
    LogOk n (lost.reverse.map QueueEvent.lost ++ q.events) := by
  refine h.log.extend (fun g => delivered_notMem_map_lost) (fun f hf => ?_) fun f hf g hg => ?_
  · exact h.below f (hsub f (lost_mem_map_reverse hf))
  · exact h.delivered g hg f (hsub f (lost_mem_map_reverse hf))

/-- The rule for a change that drops entries and adds to the log, but delivers nothing. -/
theorem ResyncInv.extend (h : q.ResyncInv pending n) {m : Nat} {new : List QueueEvent} (hle : n ≤ m)
    (hsub : q'.entries.Sublist q.entries) (hevents : q'.events = new ++ q.events)
    (hlog : LogOk m (new ++ q.events)) (hdelivered : ∀ g, .delivered g ∉ new)
    (hwaits : ∀ k, q'.Waits pending k → ∀ e ∈ q'.entries, e.evictableOf k = false)
    (hlost : ∀ k f, .lost f ∈ new → f.evictableOf k →
      q'.Waits pending k ∨ ResyncFirst q'.entries k f)
    (hgap : ∀ k f, .lost f ∈ q.events → q.Waits pending k ∨ ResyncFirst q.entries k f →
      Bridged q'.events k f ∨ q'.Waits pending k ∨ ResyncFirst q'.entries k f) :
    q'.ResyncInv pending m := by
  refine ⟨hevents ▸ hlog, h.ordered.sublist hsub,
    fun e he => (h.below e (hsub.subset he)).trans_le hle, fun g hg e he => ?_, hwaits,
    fun k f hf hev => ?_⟩
  · rw [hevents] at hg
    rcases mem_append.1 hg with hg | hg
    · exact absurd hg (hdelivered g)
    · exact h.delivered g hg e (hsub.subset he)
  · rw [hevents] at hf
    rcases mem_append.1 hf with hf | hf
    · exact .inr (hlost k f hf hev)
    · rcases h.gap k f hf hev with hbridged | hrest
      · rw [hevents]
        exact .inl (hbridged.append _)
      · exact hgap k f hf hrest

theorem ResyncInv.same (h : q.ResyncInv pending n) {pending' : Option StreamKey}
    (hentries : q'.entries = q.entries) (hevents : q'.events = q.events)
    (hwaits : ∀ j, q'.Waits pending' j ↔ q.Waits pending j) : q'.ResyncInv pending' n := by
  refine ⟨hevents ▸ h.log, hentries ▸ h.ordered, fun e he => h.below e (hentries ▸ he),
    fun g hg e he => h.delivered g (hevents ▸ hg) e (hentries ▸ he),
    fun j hj e he => h.waits j ((hwaits j).1 hj) e (hentries ▸ he), fun j f hf hev => ?_⟩
  rw [hentries, hevents, hwaits]
  exact h.gap j f (hevents ▸ hf) hev

theorem waits_congr (hawaiting : ∀ j, q'.isAwaiting j = q.isAwaiting j) (j : StreamKey) :
    q'.Waits pending j ↔ q.Waits pending j := by
  rw [Waits, Waits, hawaiting]

theorem waits_of_ended (hawaiting : ∀ j, q'.isAwaiting j = (decide (j ≠ k) && q.isAwaiting j))
    (j : StreamKey) (hj : q'.Waits pending j) : q.Waits pending j := by
  rcases hj with hj | hj
  · rw [hawaiting, Bool.and_eq_true_iff] at hj
    exact .inl hj.2
  · exact .inr hj

theorem waits_ended_of_ne {j k : StreamKey}
    (hawaiting : ∀ j, q'.isAwaiting j = (decide (j ≠ k) && q.isAwaiting j)) (hjk : j ≠ k)
    (hj : q.Waits pending j) : q'.Waits pending j := by
  rcases hj with hj | hj
  · exact .inl (by rw [hawaiting, hj]; simp [hjk])
  · exact .inr hj

section

variable (h : q.ResyncInv pending n)
include h

theorem ResyncInv.purged (hentries : q'.entries = q.entries.filter (!·.evictableOf k))
    (hevents : q'.events = (q.entries.filter (·.evictableOf k)).reverse.map .lost ++ q.events)
    (hawaiting : ∀ j, q'.isAwaiting j = (decide (j = k) || q.isAwaiting j)) :
    q'.ResyncInv pending n := by
  have hsub : q'.entries.Sublist q.entries := by
    rw [hentries]
    exact filter_sublist
  have hwaits : ∀ j, q'.Waits pending j ↔ j = k ∨ q.Waits pending j := by
    intro j
    rw [Waits, Waits, hawaiting]
    simp [or_assoc]
  refine h.extend le_rfl hsub hevents (h.log_lost _ fun e he => (mem_filter.1 he).1)
    (fun g => delivered_notMem_map_lost) (fun j hj e he => ?_) (fun j f hf hev => ?_)
    fun j f _ hrest => ?_
  · rcases (hwaits j).1 hj with rfl | hj
    · rw [hentries] at he
      simpa using (mem_filter.1 he).2
    · exact h.waits j hj e (hsub.subset he)
  · have hjk := evictableOf_inj hev (mem_filter.1 (lost_mem_map_reverse hf)).2
    exact .inl ((hwaits j).2 (.inl hjk))
  · by_cases hjk : j = k
    · exact .inr (.inl ((hwaits j).2 (.inl hjk)))
    rcases hrest with hj | ⟨r, rest, hfirst, hr⟩
    · exact .inr (.inl ((hwaits j).2 (.inr hj)))
    · exact .inr (.inr ⟨r, rest, by rw [hentries, filter_purge_of_ne hjk, hfirst], hr⟩)

theorem ResyncInv.trimmed {r : QueueEntry}
    (hsplit : q.entries = before ++ r :: after) (hresync : r.names = some k ∧ r.isResync)
    (hentries : q'.entries = before.filter (!·.evictableOf k) ++ r :: after)
    (hevents : q'.events = (before.filter (·.evictableOf k)).reverse.map .lost ++ q.events)
    (hawaiting : ∀ j, q'.isAwaiting j = (decide (j ≠ k) && q.isAwaiting j)) :
    q'.ResyncInv pending n := by
  have hrev : r.evictableOf k = true := by
    have hkind : r.kind = .media .resyncPoint := by simpa [QueueEntry.isResync] using hresync.2
    simp [QueueEntry.evictableOf, hkind, Kind.evictable, hresync.1]
  have hr : r ∈ q.entries := by rw [hsplit]; simp
  have hnotwait : ¬ q.Waits pending k := fun hk => by
    rw [h.waits k hk r hr] at hrev
    cases hrev
  have hsub : q'.entries.Sublist q.entries := by
    rw [hentries, hsplit]
    exact filter_sublist.append_right _
  have hbefore : ∀ e ∈ before, e ∈ q.entries := fun e he => by rw [hsplit]; simp [he]
  have hordered := h.ordered
  rw [hsplit, pairwise_append] at hordered
  have hfirst : q'.entries.filter (·.evictableOf k) = r :: after.filter (·.evictableOf k) := by
    rw [hentries, filter_append, filter_purge_self, nil_append, filter_cons,
      if_pos hrev]
  have hother : ∀ j, j ≠ k →
      q'.entries.filter (·.evictableOf j) = q.entries.filter (·.evictableOf j) := by
    intro j hj
    rw [hentries, hsplit, filter_append, filter_append, filter_purge_of_ne hj]
  refine h.extend le_rfl hsub hevents (h.log_lost _ fun e he => hbefore e (mem_filter.1 he).1)
    (fun g => delivered_notMem_map_lost)
    (fun j hj e he => h.waits j (waits_of_ended hawaiting j hj) e (hsub.subset he))
    (fun j f hf hev => ?_) fun j f _ hrest => ?_
  · -- lost now, so queued before the resync point
    have hfb := mem_filter.1 (lost_mem_map_reverse hf)
    obtain rfl := evictableOf_inj hev hfb.2
    exact .inr ⟨r, _, hfirst, hresync.2, hordered.2.2 f hfb.1 r (by simp)⟩
  · rcases hrest with hj | ⟨r₀, rest, hfirst₀, hr₀, hlt⟩
    · have hjk : j ≠ k := fun hjk => hnotwait (hjk ▸ hj)
      exact .inr (.inl (waits_ended_of_ne hawaiting hjk hj))
    · by_cases hjk : j = k
      · subst hjk
        refine .inr (.inr ⟨r, _, hfirst, hresync.2, ?_⟩)
        -- the old first frame is not after the resync point
        have hmem : r ∈ r₀ :: rest := hfirst₀ ▸ mem_filter.2 ⟨hr, hrev⟩
        have hsorted : (r₀ :: rest).Pairwise (·.seq < ·.seq) :=
          hfirst₀ ▸ h.ordered.sublist filter_sublist
        rcases mem_cons.1 hmem with rfl | hmem
        · exact hlt
        · exact hlt.trans (rel_of_pairwise_cons hsorted hmem)
      · exact .inr (.inr ⟨r₀, rest, by rw [hother j hjk, hfirst₀], hr₀, hlt⟩)

theorem ResyncInv.evicted (hsplit : q.entries = before ++ e :: after)
    (hcritical : e.kind = .media .critical) (hentries : q'.entries = before ++ after)
    (hevents : q'.events = .lost e :: q.events)
    (hawaiting : ∀ j, q'.isAwaiting j = q.isAwaiting j) : q'.ResyncInv pending n := by
  have hne : ∀ k, e.evictableOf k = false := by
    intro k
    simp [QueueEntry.evictableOf, hcritical, Kind.evictable]
  have hsub : q'.entries.Sublist q.entries := by
    rw [hentries, hsplit]
    exact (sublist_cons_self e after).append_left before
  have he : e ∈ q.entries := by rw [hsplit]; simp
  have hfilter : ∀ j, q'.entries.filter (·.evictableOf j) = q.entries.filter (·.evictableOf j) := by
    intro j
    rw [hentries, hsplit, filter_append, filter_append, filter_cons, hne]
    rfl
  have hlog : LogOk n ([QueueEvent.lost e] ++ q.events) := h.log_lost [e] (by simpa using he)
  refine h.extend le_rfl hsub hevents hlog (by simp)
    (fun j hj x hx => h.waits j ((waits_congr hawaiting j).1 hj) x (hsub.subset hx))
    (fun j f hf hev => ?_) fun j f _ hrest => ?_
  · obtain rfl := QueueEvent.lost.inj (mem_singleton.1 hf)
    rw [hne] at hev
    cases hev
  · rcases hrest with hj | ⟨r, rest, hfirst, hr⟩
    · exact .inr (.inl ((waits_congr hawaiting j).2 hj))
    · exact .inr (.inr ⟨r, rest, by rw [hfilter, hfirst], hr⟩)

theorem ResyncInv.timedOut (hentries : q'.entries = q.entries)
    (hevents : q'.events = .timedOut k :: q.events)
    (hawaiting : ∀ j, q'.isAwaiting j = (decide (j ≠ k) && q.isAwaiting j)) :
    q'.ResyncInv pending n := by
  have hlog : LogOk n ([QueueEvent.timedOut k] ++ q.events) :=
    h.log.extend (by simp) (by simp) (by simp)
  refine h.extend le_rfl (hentries ▸ .refl _) hevents hlog (by simp)
    (fun j hj x hx => h.waits j (waits_of_ended hawaiting j hj) x (hentries ▸ hx))
    (by simp) fun j f hf hrest => ?_
  by_cases hjk : j = k
  · obtain ⟨after, before, hlog⟩ := append_of_mem hf
    refine .inl (.inr ⟨.timedOut k :: after, before, by rw [hevents, hlog]; rfl, ?_⟩)
    rw [hjk]
    exact mem_cons_self
  rcases hrest with hj | hfirst
  · exact .inr (.inl (waits_ended_of_ne hawaiting hjk hj))
  · exact .inr (.inr (by rw [hentries]; exact hfirst))

end

theorem ResyncInv.maintenance (hm : Maintenance q q') (h : q.ResyncInv pending n) :
    q'.ResyncInv pending n := by
  cases hm.change with
  | unchanged hentries hevents hawaiting => exact h.same hentries hevents (waits_congr hawaiting)
  | purged k hentries hevents hawaiting => exact h.purged hentries hevents hawaiting
  | trimmed k before r after hsplit hresync hentries hevents hawaiting =>
    exact h.trimmed hsplit hresync hentries hevents hawaiting
  | evicted before e after hsplit hcritical hentries hevents hawaiting =>
    exact h.evicted hsplit hcritical hentries hevents hawaiting
  | timedOut k hentries hevents hawaiting => exact h.timedOut hentries hevents hawaiting

theorem ResyncInv.maintained (hm : Maintained q q') (h : q.ResyncInv pending n) :
    q'.ResyncInv pending n :=
  hm.inv (P := ResyncInv pending n) (fun _ _ hm h => h.maintenance hm) h

/-- Only the stream of the resync point that is being pushed can be pending. -/
def PendingFor (e : QueueEntry) (pending : Option StreamKey) : Prop :=
  ∀ k, pending = some k → e.names = some k ∧ e.isResync = true

theorem ResyncInv.resumed (hr : Resumed e q q') (h : q.ResyncInv pending n)
    (hp : PendingFor e pending) : ∃ pending', q'.ResyncInv pending' n ∧ PendingFor e pending' := by
  rcases hr with rfl | ⟨k, hnames, hresync, hwait, rfl⟩
  · exact ⟨pending, h, hp⟩
  refine ⟨some k, ?_, fun j hj => some.inj hj ▸ ⟨hnames, hresync⟩⟩
  have hentries : (q.resumeStream k).entries = q.entries := q.modifyExisting_entries k _
  have hevents : (q.resumeStream k).events = q.events := q.modifyExisting_events k _
  have hawaiting : ∀ j, (q.resumeStream k).isAwaiting j = (decide (j ≠ k) && q.isAwaiting j) :=
    q.isAwaiting_resume k
  have hwaits : ∀ j, (q.resumeStream k).Waits (some k) j ↔ q.Waits pending j := by
    intro j
    by_cases hj : j = k
    · subst hj
      exact iff_of_true (.inr rfl) (.inl hwait)
    · have hpend : pending ≠ some j := fun hpj =>
        hj (some.inj ((hp j hpj).1.symm.trans hnames))
      simp [Waits, hawaiting, hj, hpend, Ne.symm hj]
  exact h.same hentries hevents hwaits

theorem ResyncInv.enqueue (h : q.ResyncInv pending n) (hseq : e.seq = n)
    (hp : PendingFor e pending) (hready : ∀ k, e.evictableOf k → q.isAwaiting k = false) :
    (q.enqueue e).ResyncInv none (n + 1) := by
  obtain ⟨hentries, hevents, -, -, hawaiting, -⟩ := q.enqueue_eq e
  have hwaits : ∀ j, (q.enqueue e).Waits none j → q.Waits pending j := by
    intro j hj
    rcases hj with hj | hj
    · exact .inl ((hawaiting j).symm.trans hj)
    · cases hj
  refine ⟨hevents ▸ h.log.mono (Nat.le_succ n), ?_, fun x hx => ?_, fun g hg x hx => ?_,
    fun j hj x hx => ?_, fun j f hf hev => ?_⟩
  · rw [hentries, pairwise_append]
    refine ⟨h.ordered, pairwise_singleton _ _, fun x hx y hy => ?_⟩
    obtain rfl := mem_singleton.1 hy
    rw [hseq]
    exact h.below x hx
  · rw [hentries, mem_append, mem_singleton] at hx
    rcases hx with hx | rfl
    · exact (h.below x hx).trans (Nat.lt_succ_self n)
    · omega
  · rw [hevents] at hg
    rw [hentries, mem_append, mem_singleton] at hx
    rcases hx with hx | rfl
    · exact h.delivered g hg x hx
    · rw [hseq]
      exact h.log.delivered_lt g hg
  · rw [hentries, mem_append, mem_singleton] at hx
    rcases hx with hx | rfl
    · exact h.waits j (hwaits j hj) x hx
    · by_contra hev
      have := hready j (by simpa using hev)
      rcases hj with hj | hj
      · rw [hawaiting, this] at hj
        cases hj
      · cases hj
  · rw [hevents] at hf ⊢
    have hlt := h.log.lost_lt f hf
    rcases h.gap j f hf hev with hbridged | hj | ⟨r, rest, hfirst, hr⟩
    · exact .inl hbridged
    · rcases hj with hj | hj
      · exact .inr (.inl (.inl ((hawaiting j).trans hj)))
      · -- the stream was pending, so the frame is its resync point and nothing is before it
        obtain ⟨hnames, hresync⟩ := hp j hj
        have hkind : e.kind = .media .resyncPoint := by simpa [QueueEntry.isResync] using hresync
        have heev : e.evictableOf j = true := by
          simp [QueueEntry.evictableOf, hkind, Kind.evictable, hnames]
        have hnone : q.entries.filter (·.evictableOf j) = [] := by
          rw [filter_eq_nil_iff]
          intro x hx
          rw [h.waits j (.inr hj) x hx]
          exact Bool.false_ne_true
        refine .inr (.inr ⟨e, [], ?_, hresync, by omega⟩)
        rw [hentries, filter_append, hnone, nil_append, filter_cons, if_pos heev]
        rfl
    · refine .inr (.inr ⟨r, rest ++ [e].filter (·.evictableOf j), ?_, hr⟩)
      rw [hentries, filter_append, hfirst]
      rfl

theorem ResyncInv.refuse (h : q.ResyncInv none n) (new : List QueueEvent) (hseq : e.seq = n)
    (hnew : ∀ x ∈ new, x = .refused e ∨ x = .lost e) (hentries : q'.entries = q.entries)
    (hevents : q'.events = new ++ q.events) (hawaiting : ∀ j, q'.isAwaiting j = q.isAwaiting j)
    (hwait : ∀ k, e.evictableOf k → q.isAwaiting k) : q'.ResyncInv none (n + 1) := by
  have hlost : ∀ f, .lost f ∈ new → f = e := fun f hf => by
    rcases hnew _ hf with heq | heq
    · cases heq
    · exact QueueEvent.lost.inj heq
  have hdelivered : ∀ g, .delivered g ∉ new := fun g hg => by
    rcases hnew _ hg with heq | heq
    · cases heq
    · cases heq
  have hlog : LogOk (n + 1) (new ++ q.events) := by
    refine (h.log.mono (Nat.le_succ n)).extend hdelivered (fun f hf => ?_) fun f hf g hg => ?_
    · rw [hlost f hf, hseq]
      exact Nat.lt_succ_self n
    · rw [hlost f hf, hseq]
      exact h.log.delivered_lt g hg
  refine h.extend (Nat.le_succ n) (hentries ▸ .refl _) hevents hlog hdelivered
    (fun j hj x hx => h.waits j ((waits_congr hawaiting j).1 hj) x (hentries ▸ hx))
    (fun j f hf hev => ?_) fun j f _ hrest => ?_
  · rw [hlost f hf] at hev
    exact .inl ((waits_congr hawaiting j).2 (.inl (hwait j hev)))
  · rcases hrest with hj | hfirst
    · exact .inr (.inl ((waits_congr hawaiting j).2 hj))
    · exact .inr (.inr (by rw [hentries]; exact hfirst))

/-- The head of the queue is delivered: a dependent frame only once every gap is bridged, and a
resync point bridges the gaps of its stream. -/
theorem ResyncInv.deliver {rest : List QueueEntry} (h : q.ResyncInv none n)
    (hhead : q.entries = e :: rest) : (q.deliver e rest).ResyncInv none n := by
  obtain ⟨hentries, hevents, -, hawaiting, -, -⟩ := q.deliver_eq e rest
  have he : e ∈ q.entries := by rw [hhead]; simp
  have hrest : ∀ x ∈ rest, x ∈ q.entries := fun x hx => by rw [hhead]; simp [hx]
  have hordered := pairwise_cons.1 (hhead ▸ h.ordered)
  have hwaits : ∀ j, (q.deliver e rest).Waits none j ↔ q.Waits none j := waits_congr hawaiting
  refine ⟨?_, by rw [hentries]; exact hordered.2, fun x hx => ?_, fun g hg x hx => ?_,
    fun j hj x hx => ?_, fun j f hf hev => ?_⟩
  · rw [hevents]
    refine h.log.deliver (h.below e he) fun k hk f hf hev => ?_
    simp only [QueueEntry.droppableOf, Bool.and_eq_true, decide_eq_true_eq] at hk
    have heev : e.evictableOf k = true := by
      simp [QueueEntry.evictableOf, hk.1, hk.2, Kind.evictable]
    rcases h.gap k f hf hev with hbridged | hwait | ⟨r, tail, hfirst, hr, -⟩
    · exact hbridged
    · rw [h.waits k hwait e he] at heev
      cases heev
    · rw [hhead, filter_cons, if_pos heev] at hfirst
      obtain ⟨rfl, -⟩ := cons.inj hfirst
      simp [QueueEntry.isResync, hk.2] at hr
  · rw [hentries] at hx
    exact h.below x (hrest x hx)
  · rw [hevents] at hg
    rw [hentries] at hx
    rcases mem_cons.1 hg with heq | hg
    · obtain rfl := QueueEvent.delivered.inj heq
      exact hordered.1 x hx
    · exact h.delivered g hg x (hrest x hx)
  · rw [hentries] at hx
    exact h.waits j ((hwaits j).1 hj) x (hrest x hx)
  · rw [hevents] at hf ⊢
    rcases mem_cons.1 hf with heq | hf
    · cases heq
    rcases h.gap j f hf hev with hbridged | hj | ⟨r, tail, hfirst, hr, hlt⟩
    · exact .inl (hbridged.append [_])
    · exact .inr (.inl ((hwaits j).2 hj))
    · rw [hhead, filter_cons] at hfirst
      by_cases heev : e.evictableOf j = true
      · rw [if_pos heev] at hfirst
        obtain ⟨rfl, -⟩ := cons.inj hfirst
        simp only [QueueEntry.evictableOf, Bool.and_eq_true, decide_eq_true_eq] at heev
        exact .inl (.inl ⟨e, by simp, heev.2, hr, hlt⟩)
      · rw [if_neg heev] at hfirst
        exact .inr (.inr ⟨r, tail, by rw [hentries, hfirst], hr, hlt⟩)

/-! ### Room beside the control messages -/

/-- A non-critical frame is not larger than half the queue, and there is room for it beside the
control messages that are queued. -/
def RoomFor (cfg : LiveQueueConfig) (q : LiveQueue) (msg : MediaMessage) : Prop :=
  msg.kind.evictable = true →
    msg.approxSize ≤ cfg.maxBytes / 2 ∧
    (q.entries.filter (!·.isMedia)).length < cfg.maxMessages ∧
    bytesOf (q.entries.filter (!·.isMedia)) + msg.approxSize ≤ cfg.maxBytes

theorem ResyncInv.pushed {cfg : LiveQueueConfig} {r : PushResult} (hp : Pushed cfg q e r q')
    (h : q.ResyncInv none n) (hok : q.Ok cfg) (hseq : e.seq = n) (hopen : q.closed = false)
    (hroom : RoomFor cfg q e.msg) : q'.ResyncInv none (n + 1) := by
  have hnone : PendingFor e none := fun _ hk => by cases hk
  cases hp with
  | closed hclosed =>
    rw [hopen] at hclosed
    cases hclosed
  | oversized hsize =>
    refine h.refuse [if e.kind.isMedia then .lost e else .refused e] hseq ?_ rfl rfl
      (fun _ => rfl) fun k hev => ?_
    · intro x hx
      rw [mem_singleton] at hx
      rw [hx]
      split
      · exact .inr rfl
      · exact .inl rfl
    · exfalso
      simp only [QueueEntry.evictableOf, Bool.and_eq_true] at hev
      obtain ⟨hsmall, -⟩ := hroom hev.1
      cases hkind : e.kind with
      | control => simp [hkind, Kind.evictable] at hev
      | media hint =>
        rw [hkind] at hsize
        simp only [pushLimit] at hsize
        have : e.size ≤ cfg.maxBytes / 2 := hsmall
        omega
  | @awaiting q₁ k hm hnames hdrop hwait =>
    refine (h.maintained hm).refuse [.lost e] hseq (by simp) rfl rfl (fun _ => rfl) ?_
    intro j hev
    simp only [QueueEntry.evictableOf, hnames, Bool.and_eq_true, decide_eq_true_eq,
      some.injEq] at hev
    exact hev.2 ▸ hwait
  | @full q₁ q₂ q₃ hbefore hresumed hafter hfull hcontrol =>
    have hnotev : e.kind.evictable = false := by
      by_contra hev
      rw [Bool.not_eq_false] at hev
      have hbeside : RoomBeside cfg q e.size := (hroom hev).2
      have := hbeside.fits hok.booked hbefore hresumed hafter hcontrol
      rw [this] at hfull
      cases hfull
    -- neither a control message nor a critical frame resumes a stream
    have hq₂ : q₂ = q₁ := by
      rcases hresumed with h | ⟨-, -, hresync, -⟩
      · exact h
      · have hkind : e.kind = .media .resyncPoint := by simpa [QueueEntry.isResync] using hresync
        rw [hkind] at hnotev
        cases hnotev
    have h₃ : q₃.ResyncInv none n := (h.maintained hbefore).maintained (hq₂ ▸ hafter)
    have hwait : ∀ k, e.evictableOf k = true → q₃.isAwaiting k = true := by
      intro k hev
      simp [QueueEntry.evictableOf, hnotev] at hev
    split
    · exact h₃.refuse [.lost e] hseq (by simp) rfl rfl (fun _ => rfl) hwait
    · exact h₃.refuse [] hseq (by simp) rfl rfl (fun _ => rfl) hwait
  | @queued q₁ q₂ q₃ q₄ hbefore hresumed hafter hagain _ hready =>
    obtain ⟨p₂, h₂, hp₂⟩ := (h.maintained hbefore).resumed hresumed hnone
    obtain ⟨p₄, h₄, hp₄⟩ := (h₂.maintained hafter).resumed hagain hp₂
    exact h₄.enqueue hseq hp₄ hready

theorem ResyncInv.popped {e : Option QueueEntry} (hp : Popped q e q') (h : q.ResyncInv none n) :
    q'.ResyncInv none n := by
  cases hp with
  | closed => exact h
  | empty hm => exact h.maintained hm
  | head e rest hm hhead => exact (h.maintained hm).deliver hhead

end LiveQueue

/-! ### Runs -/

instance (cfg : LiveQueueConfig) (q : LiveQueue) (msg : MediaMessage) :
    Decidable (LiveQueue.RoomFor cfg q msg) :=
  inferInstanceAs (Decidable (_ → _))

def QueueOp.hasRoom (cfg : LiveQueueConfig) (q : LiveQueue) : QueueOp → Bool
  | .push msg _ => LiveQueue.RoomFor cfg q msg
  | _ => true

def roomAlong (cfg : LiveQueueConfig) : List QueueOp → QueueRun → Bool
  | [], _ => true
  | op :: ops, s => op.hasRoom cfg s.queue && (s.step cfg op).all (roomAlong cfg ops)

def QueueRun.Inv (cfg : LiveQueueConfig) (s : QueueRun) : Prop :=
  s.queue.Ok cfg ∧ s.Ledger ∧ s.queue.ResyncInv none s.pushes.length

theorem QueueRun.Inv.start (cfg : LiveQueueConfig) : QueueRun.start.Inv cfg :=
  ⟨QueueRun.start_ok cfg, .start, LiveQueue.ResyncInv.empty rfl rfl⟩

open LiveQueue in
theorem QueueRun.Inv.step {cfg : LiveQueueConfig} {s s' : QueueRun} (h : s.Inv cfg) {op : QueueOp}
    (hop : op ≠ .close) (hroom : ∀ msg now, op = .push msg now → RoomFor cfg s.queue msg)
    (hstep : s.step cfg op = some s') (hok' : s'.queue.Ok cfg) : s'.Inv cfg := by
  obtain ⟨hok, hledger, hinv⟩ := h
  refine ⟨hok', hledger.step hok hop hstep, ?_⟩
  cases op with
  | push msg now =>
    obtain ⟨r, q', hpush, hpushed⟩ := pushAt_spec hok.booked cfg ⟨s.pushes.length, msg, now⟩
    rw [QueueRun.step, hpush] at hstep
    obtain rfl := some.inj hstep
    show q'.ResyncInv none (s.pushes ++ [_]).length
    rw [length_append]
    exact hinv.pushed hpushed hok rfl hledger.opened (hroom msg now rfl)
  | pop now =>
    obtain rfl := some.inj hstep
    exact hinv.popped (s.queue.popAt_spec cfg now)
  | connectionReset now =>
    obtain rfl := some.inj hstep
    exact hinv.maintained (s.queue.maintained_onConnectionReset now)
  | takeReinit k =>
    obtain rfl := some.inj hstep
    exact hinv.maintenance (s.queue.maintenance_takeReinit k)
  | markReinit k =>
    obtain rfl := some.inj hstep
    exact hinv.maintenance (s.queue.maintenance_markReinit k)
  | close => exact absurd rfl hop

/-- **Resync safety.** In every run whose pushes all find room beside the control messages, no
dependent frame is delivered across a gap of its stream. -/
theorem queue_resync_safe (cfg : LiveQueueConfig) (ops : List QueueOp) (hopen : .close ∉ ops)
    (hroom : roomAlong cfg ops .start = true) :
    ∃ s, QueueRun.start.exec cfg ops = some s ∧ ResyncSafe s.queue.events := by
  suffices h : ∀ s : QueueRun, s.Inv cfg → roomAlong cfg ops s = true →
      ∃ s', s.exec cfg ops = some s' ∧ s'.Inv cfg by
    obtain ⟨s, hexec, -, -, hinv⟩ := h .start (.start cfg) hroom
    exact ⟨s, hexec, hinv.log.resyncSafe⟩
  clear hroom
  induction ops with
  | nil => exact fun s h _ => ⟨s, rfl, h⟩
  | cons op ops ih =>
    intro s h hroom
    obtain ⟨hop, hrest⟩ := not_or.1 (mem_cons.not.1 hopen)
    obtain ⟨s₁, hstep, hok₁⟩ := QueueRun.step_ok h.1 op
    rw [roomAlong, hstep, all_some, Bool.and_eq_true_iff] at hroom
    have h₁ : s₁.Inv cfg := by
      refine h.step (Ne.symm hop) (fun msg now heq => ?_) hstep hok₁
      rw [heq] at hroom
      exact of_decide_eq_true hroom.1
    obtain ⟨s', hexec, h'⟩ := ih hrest s₁ h₁ hroom.2
    exact ⟨s', by rw [QueueRun.exec, foldlM_cons, hstep]; exact hexec, h'⟩

def smallFrame (hint : DeliveryHint) (tag : UInt8) : MediaMessage :=
  .mediaFrame "live" "a" 1 1 0 0 hint [tag]

def tinyQueue : LiveQueueConfig := ⟨2, 1000, 3000, 10000⟩

/-- Two dependent frames fill the queue, so the third is refused and the stream is purged; the
resync point is queued and the frame after it is delivered. -/
def pressureOps : List QueueOp :=
  [.push (smallFrame .droppable 1) 0, .push (smallFrame .droppable 2) 0,
    .push (smallFrame .droppable 3) 0, .push (smallFrame .resyncPoint 4) 1,
    .push (smallFrame .droppable 5) 1, .pop 1, .pop 1]

theorem queue_resync_safe_pressure :
    roomAlong tinyQueue pressureOps .start = true ∧
      ∃ s, QueueRun.start.exec tinyQueue pressureOps = some s ∧ ResyncSafe s.queue.events :=
  ⟨by decide, queue_resync_safe tinyQueue pressureOps (by decide) (by decide)⟩

/-- The connection is lost and the stream waits. Two control messages fill the queue, and the resync
point is refused, but the wait is over: a dependent frame is delivered next. -/
def refusedResyncOps : List QueueOp :=
  [.push (smallFrame .droppable 1) 0, .connectionReset 1, .push .authOk 1, .push .authOk 1,
    .push (smallFrame .resyncPoint 2) 2, .pop 3, .pop 3, .push (smallFrame .droppable 3) 3, .pop 3]

theorem refused_resync_ends_wait :
    ∃ s, QueueRun.start.exec tinyQueue refusedResyncOps = some s ∧ ¬ ResyncSafe s.queue.events := by
  have hrun : (QueueRun.start.exec tinyQueue refusedResyncOps).map (·.queue.events) =
      some [.delivered ⟨4, smallFrame .droppable 3, 3⟩, .delivered ⟨2, .authOk, 1⟩,
        .delivered ⟨1, .authOk, 1⟩, .lost ⟨3, smallFrame .resyncPoint 2, 2⟩,
        .lost ⟨0, smallFrame .droppable 1, 0⟩] := by decide
  obtain ⟨s, hexec, hevents⟩ := map_eq_some_iff.1 hrun
  refine ⟨s, hexec, fun h => ?_⟩
  rw [hevents] at h
  have hbridged := h [] ⟨4, smallFrame .droppable 3, 3⟩ _ ("live", "a") rfl (by decide)
    ⟨0, smallFrame .droppable 1, 0⟩ (by decide) (by decide) (by decide)
  rcases hbridged with ⟨r, hr, hnames, -⟩ | ⟨after, before, hlog, htime⟩
  · simp only [mem_cons, QueueEvent.delivered.injEq, reduceCtorEq, not_mem_nil,
      or_false] at hr
    rcases hr with rfl | rfl <;> cases hnames
  · have hmem := mem_append_left (.lost ⟨0, smallFrame .droppable 1, 0⟩ :: before) htime
    rw [← hlog] at hmem
    exact absurd hmem (by decide)

end RtmpServer
