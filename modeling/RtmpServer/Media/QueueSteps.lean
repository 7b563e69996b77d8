import RtmpServer.Media.QueueBooks

/-!
# The steps of the live queue

A push begins with upkeep: stale frames go, waits that are over end, and what a resync point
supersedes is discarded (`UpkeepStep`). Then it may have to make room, by evicting the contents of a
stream or a critical frame (`EvictStep`). The loop of `make_room` ends because every step removes an
entry (`makeRoom_steps`).
-/

namespace RtmpServer

open List Lib.Split

namespace LiveQueue

variable {q q' : LiveQueue} {cfg : LiveQueueConfig} {a b : Nat × StreamKey} {size now : Nat}

/-! ### Upkeep -/

/-- One step of the upkeep at the instant `now`. -/
inductive UpkeepStep (now : Nat) (cfg : LiveQueueConfig) (q : LiveQueue) : LiveQueue → Prop
  | age (k : StreamKey) : UpkeepStep now cfg q (q.enforceAgeOn now cfg k)
  | release (k : StreamKey) (st : StreamState) (found : q.streams.lookup k = some st)
      (expired : expiredWait now cfg st = true) : UpkeepStep now cfg q (q.releaseWait k)
  | supersede (k : StreamKey) (waits : q.isAwaiting k = true) :
      UpkeepStep now cfg q (q.purgeStream k .stale)
  | note : UpkeepStep now cfg q (q.noteHighWater now)

abbrev Upkeep (now : Nat) (cfg : LiveQueueConfig) := Relation.ReflTransGen (UpkeepStep now cfg)

theorem UpkeepStep.maintenance {now : Nat} (h : UpkeepStep now cfg q q') : Maintenance q q' := by
  cases h with
  | age k => exact q.maintenance_enforceAgeOn now cfg k
  | release k => exact q.maintenance_releaseWait k
  | supersede k hwaits => exact q.maintenance_purge_waiting hwaits .stale
  | note => exact q.maintenance_noteHighWater now

theorem upkeep_enforceAge (q : LiveQueue) (now : Nat) (cfg : LiveQueueConfig) :
    Upkeep now cfg q (q.enforceAge now cfg) := by
  rw [enforceAge]
  generalize q.staleStreams now cfg = l
  induction l generalizing q with
  | nil => exact .refl
  | cons k l ih => exact .head (.age k) (ih _)

theorem lookup_releaseWait_of_ne (q : LiveQueue) {j k : StreamKey} (h : j ≠ k) :
    (q.releaseWait k).streams.lookup j = q.streams.lookup j := by
  rw [releaseWait, lookup_pruneIdle, if_neg h, lookup_modifyExisting, if_neg h]

theorem upkeep_releaseExpiredWaits (q : LiveQueue) (now : Nat) (cfg : LiveQueueConfig) :
    Upkeep now cfg q (q.releaseExpiredWaits now cfg) := by
  suffices h : ∀ (l : List (Sigma fun _ : StreamKey => StreamState)) (q : LiveQueue),
      (l.map (·.1)).Nodup →
      (∀ s ∈ l, q.streams.lookup s.1 = some s.2 ∧ expiredWait now cfg s.2 = true) →
      Upkeep now cfg q ((l.map (·.1)).foldl releaseWait q) by
    refine h _ q ?_ fun s hs => ?_
    · exact (filter_sublist.map _).nodup q.streams.nodupKeys
    · obtain ⟨hmem, hexpired⟩ := mem_filter.1 hs
      exact ⟨AList.mem_lookup_iff.2 hmem, hexpired⟩
  intro l
  induction l with
  | nil => exact fun _ _ _ => .refl
  | cons s l ih =>
    intro q hnodup hl
    obtain ⟨hfound, hexpired⟩ := hl s mem_cons_self
    rw [map_cons, nodup_cons] at hnodup
    refine .head (.release s.1 s.2 hfound hexpired) (ih _ hnodup.2 fun s' hs' => ?_)
    have hne : s'.1 ≠ s.1 := fun heq => hnodup.1 (heq ▸ mem_map_of_mem hs')
    rw [lookup_releaseWait_of_ne q hne]
    exact hl s' (mem_cons_of_mem _ hs')

/-! ### Making room -/

/-- What the search for the heaviest stream has found among the states `seen`. -/
def Heaviest (seen : List (Sigma fun _ : StreamKey => StreamState)) :
    Option (Nat × StreamKey) → Prop
  | none => ∀ s ∈ seen, s.2.evictableBytes = 0
  | some b => (∃ s ∈ seen, b = (s.2.evictableBytes, s.1)) ∧ 0 < b.1 ∧
      ∀ s ∈ seen, s.2.evictableBytes ≤ b.1

theorem heavier_le (h : heavier a b) : b.1 ≤ a.1 := by
  rw [heavier, decide_eq_true_eq] at h
  omega

theorem le_of_not_heavier (h : ¬ heavier a b) : a.1 ≤ b.1 := by
  rw [heavier, decide_eq_true_eq] at h
  omega

section Heaviest

variable {seen : List (Sigma fun _ : StreamKey => StreamState)}
  {s : Sigma fun _ : StreamKey => StreamState} {best : Option (Nat × StreamKey)}

theorem Heaviest.keep (h : Heaviest seen best)
    (hle : s.2.evictableBytes ≤ (best.map Prod.fst).getD 0) : Heaviest (seen ++ [s]) best := by
  cases best with
  | none =>
    intro s' hs'
    rcases mem_append.1 hs' with hs' | hs'
    · exact h s' hs'
    · rw [mem_singleton.1 hs']
      exact Nat.le_zero.1 hle
  | some b =>
    obtain ⟨⟨s₀, hs₀, hb⟩, hpos, hmax⟩ := h
    refine ⟨⟨s₀, mem_append_left _ hs₀, hb⟩, hpos, fun s' hs' => ?_⟩
    rcases mem_append.1 hs' with hs' | hs'
    · exact hmax s' hs'
    · rwa [mem_singleton.1 hs']

theorem Heaviest.replace (hpos : 0 < s.2.evictableBytes)
    (hmax : ∀ s' ∈ seen, s'.2.evictableBytes ≤ s.2.evictableBytes) :
    Heaviest (seen ++ [s]) (some (s.2.evictableBytes, s.1)) := by
  refine ⟨⟨s, mem_append_right _ (mem_singleton_self s), rfl⟩, hpos, fun s' hs' => ?_⟩
  rcases mem_append.1 hs' with hs' | hs'
  · exact hmax s' hs'
  · rw [mem_singleton.1 hs']

end Heaviest

theorem heaviest_heaviestEvictable (q : LiveQueue) :
    ∃ best, q.heaviestEvictable = best.map Prod.snd ∧ Heaviest q.streams.entries best := by
  rw [heaviestEvictable]
  refine ⟨_, rfl, ?_⟩
  suffices h : ∀ l seen best, Heaviest seen best → Heaviest (seen ++ l) (l.foldl _ best) from
    h q.streams.entries [] none fun s hs => absurd hs not_mem_nil
  intro l
  induction l with
  | nil => exact fun seen best h => by rwa [append_nil]
  | cons s l ih =>
    intro seen best h
    rw [append_cons, foldl_cons]
    refine ih _ _ ?_
    by_cases hzero : s.2.evictableBytes = 0
    · rw [if_pos hzero]
      exact h.keep (hzero.le.trans (Nat.zero_le _))
    · rw [if_neg hzero]
      have hpos : 0 < s.2.evictableBytes := Nat.pos_of_ne_zero hzero
      cases best with
      | none => exact .replace hpos fun s' hs' => (h s' hs').le.trans hpos.le
      | some b =>
        dsimp only
        split
        next hheavier => exact .replace hpos fun s' hs' => (h.2.2 s' hs').trans (heavier_le hheavier)
        next hlighter => exact h.keep (le_of_not_heavier hlighter)

/-- The stream that is purged has as much to evict as any, and there is one as long as any stream has
something to evict. -/
theorem heaviestEvictable_max (q : LiveQueue) :
    (∀ k, q.heaviestEvictable = some k →
      0 < q.evictableBytes k ∧ ∀ j, q.evictableBytes j ≤ q.evictableBytes k) ∧
      (q.heaviestEvictable = none → ∀ k, q.evictableBytes k = 0) := by
  obtain ⟨best, hbest, hheaviest⟩ := q.heaviest_heaviestEvictable
  -- a stream without a state has nothing to evict
  have hstate : ∀ {n : Nat}, (∀ s ∈ q.streams.entries, s.2.evictableBytes ≤ n) →
      ∀ j, q.evictableBytes j ≤ n := by
    intro n hle j
    rw [evictableBytes]
    cases hst : q.streams.lookup j with
    | none => exact Nat.zero_le n
    | some st => exact hle ⟨j, st⟩ (AList.mem_lookup_iff.1 hst)
  rw [hbest]
  cases best with
  | none =>
    refine ⟨fun k hk => (by cases hk), fun _ k => ?_⟩
    exact Nat.le_zero.1 (hstate (fun s hs => (hheaviest s hs).le) k)
  | some b =>
    obtain ⟨⟨s, hs, rfl⟩, hpos, hmax⟩ := hheaviest
    refine ⟨fun k hk => ?_, fun hk => (by cases hk)⟩
    obtain rfl := Option.some.inj hk
    have hbytes : q.evictableBytes s.1 = s.2.evictableBytes := by
      rw [evictableBytes, AList.mem_lookup_iff.2 hs]
      rfl
    rw [hbytes]
    exact ⟨hpos, hstate hmax⟩

theorem Booked.none_evictable {q : LiveQueue} (hq : q.Booked q.entries)
    (hzero : ∀ k, q.evictableBytes k = 0) : ∀ e ∈ q.entries, e.kind.evictable = false := by
  intro e he
  by_contra hev
  rw [Bool.not_eq_false] at hev
  obtain ⟨k, hof⟩ := exists_evictableOf hev
  have hbytes : e.size ≤ evictableBytesOf k q.entries :=
    single_le_sum (by simp) _ (mem_map_of_mem (mem_filter.2 ⟨he, hof⟩))
  have := hq.evictable k
  have := hzero k
  have := e.size_pos
  omega

/-- One turn of `make_room`: the contents of the heaviest stream go, or the oldest critical frame
when there is nothing else. -/
inductive EvictStep (size now : Nat) (cfg : LiveQueueConfig) (q : LiveQueue) : LiveQueue → Prop
  | stream (k : StreamKey) (full : q.fits size cfg = false)
      (heaviest : q.heaviestEvictable = some k) : EvictStep size now cfg q (q.evictStream k now)
  | critical (before : List QueueEntry) (e : QueueEntry) (after : List QueueEntry)
      (full : q.fits size cfg = false) (nothing : q.heaviestEvictable = none)
      (split : q.entries = before ++ e :: after)
      (first : ∀ x ∈ before, x.kind ≠ .media .critical) (critical : e.kind = .media .critical) :
      EvictStep size now cfg q (q.evictCritical (before ++ after) e)

abbrev Evicted (size now : Nat) (cfg : LiveQueueConfig) :=
  Relation.ReflTransGen (EvictStep size now cfg)

theorem EvictStep.maintenance (h : EvictStep size now cfg q q') : Maintenance q q' := by
  cases h with
  | stream k => exact q.maintenance_purge k .pressure now
  | critical before e after _ _ hsplit _ hcritical =>
    exact q.maintenance_evictCritical hsplit hcritical

theorem evictStream_length {q : LiveQueue} (hq : q.Booked q.entries) {k : StreamKey}
    (hk : 0 < q.evictableBytes k) (now : Nat) :
    (q.evictStream k now).entries.length < q.entries.length := by
  have hentries : (q.evictStream k now).entries = q.entries.filter (!·.evictableOf k) :=
    (q.discard_spec _ _ _).1
  have hlength : (q.entries.filter (·.evictableOf k)).length
      + (q.entries.filter (!·.evictableOf k)).length = q.entries.length := by
    rw [← length_append]
    exact (filter_append_perm _ _).length_eq.symm
  have hne : q.entries.filter (·.evictableOf k) ≠ [] := by
    intro hnil
    rw [hq.evictable k, evictableBytesOf, hnil] at hk
    exact absurd hk (by decide)
  have := length_pos_of_ne_nil hne
  rw [hentries]
  omega

/-- `make_room` returns, after evictions only. It gives up only when nothing but control messages is
left and the message still does not fit. -/
theorem makeRoom_steps {q : LiveQueue} (hq : q.Booked q.entries) (size now : Nat)
    (cfg : LiveQueueConfig) :
    ∃ b q', q.makeRoom size now cfg = some (b, q') ∧ Evicted size now cfg q q' ∧
      q'.fits size cfg = b ∧ (b = false → ∀ e ∈ q'.entries, e.kind = .control) := by
  suffices h : ∀ fuel (q : LiveQueue), q.Booked q.entries → q.entries.length < fuel →
      ∃ b q', makeRoomLoop size now cfg fuel q = some (b, q') ∧ Evicted size now cfg q q' ∧
        q'.fits size cfg = b ∧ (b = false → ∀ e ∈ q'.entries, e.kind = .control) from
    h _ q hq (Nat.lt_succ_self _)
  intro fuel
  induction fuel with
  | zero => intro q _ hlength; omega
  | succ fuel ih =>
    intro q hq hlength
    rw [makeRoomLoop]
    by_cases hfits : q.fits size cfg = true
    · rw [if_pos hfits]
      exact ⟨true, q, rfl, .refl, hfits, by simp⟩
    rw [if_neg hfits]
    rw [Bool.not_eq_true] at hfits
    obtain ⟨hsome, hnone⟩ := q.heaviestEvictable_max
    cases hheavy : q.heaviestEvictable with
    | some k =>
      have hstep : EvictStep size now cfg q (q.evictStream k now) := .stream k hfits hheavy
      have hless := evictStream_length hq (hsome k hheavy).1 now
      obtain ⟨b, q', hloop, hevicted, hrest⟩ := ih _ (hstep.maintenance.booked hq) (by omega)
      exact ⟨b, q', hloop, hevicted.head hstep, hrest⟩
    | none =>
      cases hspan : q.entries.span fun e => decide (e.kind ≠ .media .critical) with
      | mk before after =>
      obtain ⟨hsplit, hspared, hfirst⟩ := span_spec _ _ hspan
      cases after with
      | nil =>
        refine ⟨false, q, rfl, .refl, hfits, fun _ e he => ?_⟩
        have hcritical : e.kind ≠ .media .critical := by
          rw [append_nil] at hsplit
          simpa using hspared e (hsplit ▸ he)
        have hev := hq.none_evictable (hnone hheavy) e he
        cases hkind : e.kind with
        | control => rfl
        | media hint =>
          rw [hkind, Kind.evictable, decide_eq_false_iff_not, not_not] at hev
          exact absurd (hev ▸ hkind) hcritical
      | cons e after =>
        have hcritical : e.kind = .media .critical := by simpa using hfirst e after rfl
        have hstep : EvictStep size now cfg q (q.evictCritical (before ++ after) e) :=
          .critical before e after hfits hheavy hsplit (fun x hx => by simpa using hspared x hx)
            hcritical
        have hless : (q.evictCritical (before ++ after) e).entries.length < q.entries.length := by
          rw [evictCritical_entries, hsplit]
          simp
        obtain ⟨b, q', hloop, hevicted, hrest⟩ := ih _ (hstep.maintenance.booked hq) (by omega)
        exact ⟨b, q', hloop, hevicted.head hstep, hrest⟩

theorem Upkeep.maintained {now : Nat} (h : Upkeep now cfg q q') : Maintained q q' :=
  Relation.ReflTransGen.mono (fun _ _ => UpkeepStep.maintenance) _ _ h

theorem Evicted.maintained (h : Evicted size now cfg q q') : Maintained q q' :=
  Relation.ReflTransGen.mono (fun _ _ => EvictStep.maintenance) _ _ h

theorem Maintained.booked (h : Maintained q q') (hq : q.Booked q.entries) : q'.Booked q'.entries :=
  h.inv (P := fun q => q.Booked q.entries) (fun _ _ h => h.booked) hq

/-! ### What a push does -/

/-- The stream of a waiting resync point is resumed; for every other frame nothing happens. -/
def Resumed (e : QueueEntry) (q q' : LiveQueue) : Prop :=
  q' = q ∨
    ∃ k, e.names = some k ∧ e.isResync = true ∧ q.isAwaiting k = true ∧ q' = q.resumeStream k

/-- The check of a push: a dependent frame of a waiting stream is refused, and a resync point ends
the wait. -/
theorem resyncCheck_spec (q : LiveQueue) (e : QueueEntry) (purge : Bool) (now : Nat)
    (cfg : LiveQueueConfig) :
    (q.resyncCheck e purge = none ∧
      ∃ k, e.names = some k ∧ e.kind = .media .droppable ∧ q.isAwaiting k) ∨
    ∃ q₁ q₂, q.resyncCheck e purge = some q₂ ∧ Upkeep now cfg q q₁ ∧ (purge = false → q₁ = q) ∧
      Resumed e q₁ q₂ ∧ ∀ k, e.evictableOf k → q₂.isAwaiting k = false := by
  have plain : (∀ k, e.evictableOf k = true → q.isAwaiting k = false) →
      ∃ q₁ q₂, some q = some q₂ ∧ Upkeep now cfg q q₁ ∧ (purge = false → q₁ = q) ∧
        Resumed e q₁ q₂ ∧ ∀ k, e.evictableOf k = true → q₂.isAwaiting k = false :=
    fun h => ⟨q, q, rfl, .refl, fun _ => rfl, .inl rfl, h⟩
  have hmedia := e.isMedia_iff
  rw [resyncCheck]
  cases hkind : e.kind with
  | control => exact .inr (plain fun k hev => by simp [QueueEntry.evictableOf, hkind,
      Kind.evictable] at hev)
  | media hint =>
    cases hnames : e.names with
    | none => simp [hkind, hnames, Kind.isMedia] at hmedia
    | some k =>
      have hother : ∀ j, e.evictableOf j = true → j = k := by
        intro j hev
        simp only [QueueEntry.evictableOf, hnames, Bool.and_eq_true, decide_eq_true_eq,
          Option.some.injEq] at hev
        exact hev.2.symm
      dsimp only
      by_cases hwait : q.isAwaiting k = true
      · rw [if_pos hwait]
        cases hint with
        | droppable => exact .inl ⟨rfl, k, rfl, rfl, hwait⟩
        | critical =>
          exact .inr (plain fun j hev => by simp [QueueEntry.evictableOf, hkind,
            Kind.evictable] at hev)
        | resyncPoint =>
          refine .inr ⟨if purge then q.purgeStream k .stale else q, _, rfl, ?_, ?_, ?_, ?_⟩
          · cases purge with
            | false => exact .refl
            | true => exact .single (.supersede k hwait)
          · rintro rfl
            rfl
          · refine .inr ⟨k, hnames, by simp [QueueEntry.isResync, hkind], ?_, rfl⟩
            cases purge with
            | false => exact hwait
            | true => exact ((q.discard_spec _ _ _).2.2.1 k).trans hwait
          · intro j hev
            show ((_ : LiveQueue).modifyExisting k StreamState.resume).isAwaiting j = false
            rw [isAwaiting_resume, hother j hev]
            simp
      · rw [if_neg hwait]
        exact .inr (plain fun j hev => by rw [hother j hev]; exact Bool.eq_false_iff.2 hwait)

theorem Resumed.booked {e : QueueEntry} (h : Resumed e q q') (hq : q.Booked q.entries) :
    q'.Booked q'.entries := by
  rcases h with rfl | ⟨k, -, -, -, rfl⟩
  · exact hq
  · have := hq.modifyExisting k (f := StreamState.resume) (fun _ => rfl) fun _ => rfl
    refine Booked.congr (q := q.modifyExisting k StreamState.resume) ?_ rfl rfl
    show LiveQueue.Booked _ (q.modifyExisting k StreamState.resume).entries
    rwa [modifyExisting_entries]

inductive Pushing (cfg : LiveQueueConfig) (q : LiveQueue) (e : QueueEntry) :
    PushResult → LiveQueue → Prop
  | closed (h : q.closed = true) : Pushing cfg q e (.dropped .closed) q
  | oversized (h : pushLimit cfg e.kind < e.size) :
      Pushing cfg q e (.dropped .oversized) (q.refuseOversized e)
  | awaiting {q₁ : LiveQueue} (k : StreamKey) (upkeep : Upkeep e.time cfg q q₁)
      (names : e.names = some k) (droppable : e.kind = .media .droppable)
      (waits : q₁.isAwaiting k = true) :
      Pushing cfg q e (.dropped .awaitingResync) (q₁.countDrop e .pressure)
  | crowdedOut {q₁ q₂ : LiveQueue} (k : StreamKey) (upkeep : Upkeep e.time cfg q q₁)
      (evicted : Evicted e.size e.time cfg q₁ q₂) (names : e.names = some k)
      (droppable : e.kind = .media .droppable) (waits : q₂.isAwaiting k = true) :
      Pushing cfg q e (.dropped .awaitingResync) (q₂.publishReinit.countDrop e .pressure)
  | full {q₁ q₂ q₃ : LiveQueue} (upkeep : Upkeep e.time cfg q q₁) (resumed : Resumed e q₁ q₂)
      (evicted : Evicted e.size e.time cfg q₂ q₃) (noRoom : q₃.fits e.size cfg = false)
      (control : ∀ x ∈ q₃.entries, x.kind = .control) (small : e.size ≤ pushLimit cfg e.kind) :
      Pushing cfg q e (.dropped .full)
        (if e.kind.isMedia then q₃.countDrop e .pressure else q₃).publishReinit
  | queued {q₁ q₂ q₃ q₄ : LiveQueue} (upkeep : Upkeep e.time cfg q q₁) (resumed : Resumed e q₁ q₂)
      (evicted : Evicted e.size e.time cfg q₂ q₃) (again : Resumed e q₃.publishReinit q₄)
      (room : q₄.fits e.size cfg = true)
      (ready : ∀ k, e.evictableOf k = true → q₄.isAwaiting k = false) :
      Pushing cfg q e .queued (q₄.enqueue e)

theorem pushAt_steps {q : LiveQueue} (hq : q.Booked q.entries) (cfg : LiveQueueConfig)
    (e : QueueEntry) : ∃ r q', q.pushAt cfg e = some (r, q') ∧ Pushing cfg q e r q' := by
  rw [pushAt]
  by_cases hclosed : q.closed = true
  · rw [if_pos hclosed]
    exact ⟨_, _, rfl, .closed hclosed⟩
  rw [if_neg hclosed]
  by_cases hsize : pushLimit cfg e.kind < e.size
  · rw [if_pos hsize]
    exact ⟨_, _, rfl, .oversized hsize⟩
  rw [if_neg hsize]
  dsimp only
  have hage := (q.upkeep_enforceAge e.time cfg).trans
    ((q.enforceAge e.time cfg).upkeep_releaseExpiredWaits e.time cfg)
  set q₀ := (q.enforceAge e.time cfg).releaseExpiredWaits e.time cfg
  rcases q₀.resyncCheck_spec e true e.time cfg with ⟨hnone, k, hnames, hdrop, hwait⟩ |
    ⟨q₁, q₂, hsome, hpurge, -, hresumed, -⟩
  · rw [hnone]
    exact ⟨_, _, rfl, .awaiting k hage hnames hdrop hwait⟩
  rw [hsome]
  have hupkeep : Upkeep e.time cfg q q₁ := hage.trans hpurge
  obtain ⟨b, q₃, hroom, hevicted, hfits, hcontrol⟩ :=
    makeRoom_steps (hresumed.booked (hupkeep.maintained.booked hq)) e.size e.time cfg
  dsimp only
  rw [hroom]
  cases b with
  | false =>
    exact ⟨_, _, rfl, .full hupkeep hresumed hevicted hfits (hcontrol rfl) (Nat.le_of_not_lt hsize)⟩
  | true =>
    dsimp only
    rcases q₃.publishReinit.resyncCheck_spec e false e.time cfg with ⟨hnone, k, hnames, hdrop, hwait⟩ |
      ⟨q₄, q₅, hsome, -, hsame, hagain, hready⟩
    · rw [hnone]
      -- a dependent frame was not resumed
      have hq₂ : q₂ = q₁ := by
        rcases hresumed with h | ⟨-, -, hresync, -⟩
        · exact h
        · simp [QueueEntry.isResync, hdrop] at hresync
      exact ⟨_, _, rfl, .crowdedOut k hupkeep (hq₂ ▸ hevicted) hnames hdrop hwait⟩
    · rw [hsome]
      obtain rfl := hsame rfl
      refine ⟨_, _, rfl, .queued hupkeep hresumed hevicted hagain ?_ hready⟩
      rcases hagain with rfl | ⟨k, -, -, -, rfl⟩
      · exact hfits
      · have hsame : (q₃.publishReinit.resumeStream k).fits e.size cfg = q₃.fits e.size cfg := by
          simp [fits, resumeStream, countResync, publishReinit]
        rw [hsame, hfits]

/-! ### What a pop does -/

def deliver (q : LiveQueue) (e : QueueEntry) (rest : List QueueEntry) : LiveQueue :=
  { q with entries := rest, events := .delivered e :: q.events }.accountRemoved e

inductive Popping (now : Nat) (cfg : LiveQueueConfig) (q : LiveQueue) :
    Option QueueEntry → LiveQueue → Prop
  | closed (h : q.closed = true) : Popping now cfg q none q
  | empty {q₁ : LiveQueue} (upkeep : Upkeep now cfg q q₁) (h : q₁.entries = []) :
      Popping now cfg q none q₁
  | head {q₁ : LiveQueue} (e : QueueEntry) (rest : List QueueEntry) (upkeep : Upkeep now cfg q q₁)
      (h : q₁.entries = e :: rest) : Popping now cfg q (some e) (q₁.deliver e rest)

theorem popAt_steps (q : LiveQueue) (cfg : LiveQueueConfig) (now : Nat) :
    Popping now cfg q (q.popAt cfg now).1 (q.popAt cfg now).2 := by
  rw [popAt]
  split_ifs with hclosed
  · exact .closed hclosed
  have hupkeep : Upkeep now cfg q
      (((q.noteHighWater now).enforceAge now cfg).releaseExpiredWaits now cfg) :=
    .head .note ((upkeep_enforceAge _ now cfg).trans (upkeep_releaseExpiredWaits _ now cfg))
  dsimp only
  split
  · rename_i hentries
    exact .empty hupkeep hentries
  · rename_i e rest hentries
    exact .head e rest hupkeep hentries

end LiveQueue

end RtmpServer
