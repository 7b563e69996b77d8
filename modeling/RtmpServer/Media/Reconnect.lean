import RtmpServer.Media.StreamStates
import RtmpServer.Media.MediaAge

/-!
# The live queue after a reconnect

When the connection is lost, the streams with non-critical frames in the queue lose them and wait
for a resync point. From then on a stream waits since the reset or later, or the first of its frames
in the queue is a resync point, or the time the wait may last since the reset is over (`Resuming`).

A stream without non-critical frames in the queue is not made to wait, even if frames of it went to
the old connection; one that was waiting already keeps its earlier deadline; and a resync point that
is refused because control messages fill the queue ends the wait all the same.
-/

namespace RtmpServer

open Option List Lib.Replay

variable {cfg : LiveQueueConfig} {s s' : QueueRun} {k : StreamKey} {op : QueueOp}

namespace LiveQueue

variable {now : Nat} {cfg : LiveQueueConfig} {k : StreamKey} {q q' : LiveQueue}
variable {e : QueueEntry} {size : Nat}

def awaitingSince (q : LiveQueue) (k : StreamKey) : Option Nat := q.read StreamState.awaitingSince k

def evictables (q : LiveQueue) (k : StreamKey) : List QueueEntry := q.entries.filter (·.evictableOf k)

theorem isAwaiting_eq (q : LiveQueue) (k : StreamKey) :
    q.isAwaiting k = (q.awaitingSince k).isSome :=
  q.isAwaiting_eq_read k

theorem Ok.evictables_eq_nil (h : q.Ok cfg) (hk : (q.awaitingSince k).isSome) :
    q.evictables k = [] := by
  rw [evictables, filter_eq_nil_iff]
  intro e he hev
  rw [h.awaiting k (by rw [isAwaiting_eq, hk]) e he] at hev
  cases hev

/-! ### What a step does to one stream -/

/-- What a step of a push or a pop at the instant `now` does to one stream. -/
inductive WaitChange (now : Nat) (cfg : LiveQueueConfig) (k : StreamKey) (q q' : LiveQueue) : Prop
  | same (frames : q'.evictables k = q.evictables k) (since : q'.awaitingSince k = q.awaitingSince k)
  | purged (since : q'.awaitingSince k = (q.awaitingSince k).or (some now))
  | trimmed (r : QueueEntry) (tail : List QueueEntry) (frames : q'.evictables k = r :: tail)
      (resync : r.isResync = true) (since : q'.awaitingSince k = none)
  | released (t : Nat) (since : q.awaitingSince k = some t) (expired : cfg.resyncWaitMax ≤ now - t)

theorem awaitingSince_discard (q : LiveQueue) (kept removed : List QueueEntry) (reason : Reason)
    (k : StreamKey) : (q.discard kept removed reason).awaitingSince k = q.awaitingSince k :=
  q.read_discard kept removed reason k (fun _ => StreamState.awaitingSince_of_idle)
    fun _ _ => rfl

theorem awaitingSince_await (q : LiveQueue) (j : StreamKey) (now : Nat) (k : StreamKey) :
    (q.modifyState j (StreamState.await now)).awaitingSince k =
      if k = j then (q.awaitingSince k).or (some now) else q.awaitingSince k := by
  rw [awaitingSince, read_modifyState]
  by_cases hk : k = j
  · rw [if_pos hk, if_pos hk, hk]
    rfl
  · rw [if_neg hk, if_neg hk]
    rfl

theorem awaitingSince_pruneIdle (q : LiveQueue) (j k : StreamKey) :
    (q.pruneIdle j).awaitingSince k = q.awaitingSince k :=
  q.read_pruneIdle j k fun _ => StreamState.awaitingSince_of_idle

theorem awaitingSince_resume (q : LiveQueue) (j k : StreamKey) :
    (q.modifyExisting j StreamState.resume).awaitingSince k =
      if k = j then none else q.awaitingSince k :=
  q.read_modifyExisting_reset j k fun _ => rfl

theorem waitChange_purge (q : LiveQueue) (j : StreamKey) (reason : Reason) (now : Nat) :
    WaitChange now cfg k q ((q.purgeStream j reason).modifyState j (StreamState.await now)) := by
  have hsince : (q.purgeStream j reason).awaitingSince k = q.awaitingSince k :=
    q.awaitingSince_discard _ _ reason k
  by_cases hk : k = j
  · refine .purged ?_
    rw [awaitingSince_await, if_pos hk, hsince]
  · refine .same ?_ ?_
    · show ((q.purgeStream j reason).entries).filter _ = _
      rw [purgeStream, (q.discard_spec _ _ _).1, filter_purge_of_ne hk, evictables]
    · rw [awaitingSince_await, if_neg hk, hsince]

theorem WaitChange.pruneIdle (h : WaitChange now cfg k q q') (j : StreamKey) :
    WaitChange now cfg k q (q'.pruneIdle j) := by
  have hframes : (q'.pruneIdle j).evictables k = q'.evictables k := by
    rw [evictables, pruneIdle_entries, evictables]
  have hsince := q'.awaitingSince_pruneIdle j k
  cases h with
  | same frames since => exact .same (hframes.trans frames) (hsince.trans since)
  | purged since => exact .purged (hsince.trans since)
  | trimmed r tail frames resync since =>
    exact .trimmed r tail (hframes.trans frames) resync (hsince.trans since)
  | released t since expired => exact .released t since expired

theorem waitChange_enforceAgeOn (q : LiveQueue) (now : Nat) (cfg : LiveQueueConfig) (j : StreamKey) :
    WaitChange now cfg k q (q.enforceAgeOn now cfg j) := by
  obtain heq | ⟨before, r, rest, q₁, q₂, hsplit, hnames, hresync, hq₁, hq₂, heq⟩ :=
    q.enforceAgeOn_cases now cfg j
  · rw [heq]
    exact (q.waitChange_purge j .stale now).pruneIdle j
  · rw [heq]
    refine WaitChange.pruneIdle ?_ j
    have hentries : q₂.entries = before.filter (!·.evictableOf j) ++ r :: rest := by
      have hdiscarded := (q.discard_spec (before.filter (!·.evictableOf j) ++ r :: rest)
        (before.filter (·.evictableOf j)) .stale).1
      rw [← hq₁] at hdiscarded
      rcases hq₂ with rfl | rfl
      · exact hdiscarded
      · exact hdiscarded
    have hsince : q₂.awaitingSince k = q.awaitingSince k := by
      have hdiscarded := q.awaitingSince_discard (before.filter (!·.evictableOf j) ++ r :: rest)
        (before.filter (·.evictableOf j)) .stale k
      rw [← hq₁] at hdiscarded
      rcases hq₂ with rfl | rfl
      · exact hdiscarded
      · exact hdiscarded
    have hframes : (q₂.modifyExisting j StreamState.resume).evictables k =
        (before.filter (!·.evictableOf j) ++ r :: rest).filter (·.evictableOf k) := by
      rw [evictables, modifyExisting_entries, hentries]
    by_cases hk : k = j
    · have hev : r.evictableOf k = true := by
        have hkind : r.kind = .media .resyncPoint := by simpa [QueueEntry.isResync] using hresync
        simp [QueueEntry.evictableOf, hkind, Kind.evictable, hnames, hk]
      refine .trimmed r (rest.filter (·.evictableOf k)) ?_ hresync ?_
      · rw [hframes, hk, filter_append, filter_purge_self, nil_append, filter_cons,
          if_pos (hk ▸ hev)]
      · rw [awaitingSince_resume, if_pos hk]
    · -- the frames of the other streams stay
      refine .same ?_ ?_
      · rw [hframes, evictables, hsplit, filter_append, filter_append,
          filter_purge_of_ne hk]
      · rw [awaitingSince_resume, if_neg hk, hsince]

theorem awaitingSince_eq_of_lookup {st : StreamState} (h : q.streams.lookup k = some st) :
    q.awaitingSince k = st.awaitingSince := by
  rw [awaitingSince, read, h]
  rfl

theorem UpkeepStep.waitChange (h : UpkeepStep now cfg q q') (k : StreamKey) :
    WaitChange now cfg k q q' := by
  cases h with
  | age j => exact q.waitChange_enforceAgeOn now cfg j
  | release j st hfound hexpired =>
    by_cases hk : k = j
    · obtain ⟨t, ht, hle⟩ := (any_eq_true _ _).1 hexpired
      refine .released t ?_ (by simpa using hle)
      rw [hk, awaitingSince_eq_of_lookup hfound, ht]
    · refine .same ?_ ?_
      · rw [releaseWait, evictables, pruneIdle_entries, modifyExisting_entries, evictables]
      · rw [releaseWait, awaitingSince_pruneIdle, awaitingSince_resume, if_neg hk]
        rfl
  | supersede j hwaits =>
    have hsince : (q.purgeStream j .stale).awaitingSince k = q.awaitingSince k :=
      q.awaitingSince_discard _ _ .stale k
    by_cases hk : k = j
    · rw [isAwaiting_eq, ← hk] at hwaits
      obtain ⟨t, ht⟩ := isSome_iff_exists.1 hwaits
      exact .purged (by rw [hsince, ht]; rfl)
    · refine .same ?_ hsince
      rw [evictables, purgeStream, (q.discard_spec _ _ _).1, filter_purge_of_ne hk, evictables]
  | note => exact .same rfl rfl

theorem EvictStep.waitChange (h : EvictStep size now cfg q q') (k : StreamKey) :
    WaitChange now cfg k q q' := by
  cases h with
  | stream j => exact q.waitChange_purge j .pressure now
  | critical before e after _ _ hsplit _ hcritical =>
    have hev : e.evictableOf k = false := by
      simp [QueueEntry.evictableOf, hcritical, Kind.evictable]
    obtain ⟨j, hnames⟩ := names_of_critical hcritical
    refine .same ?_ ?_
    · rw [evictables, evictCritical_entries, evictables, hsplit, filter_append,
        filter_append, filter_cons, if_neg (by simp [hev])]
    · have hmark : ∀ st : StreamState,
          ({ st with needsReinit := true } : StreamState).awaitingSince = st.awaitingSince :=
        fun _ => rfl
      rw [evictCritical, hnames]
      refine (read_accountRemoved _ e k (fun _ => StreamState.awaitingSince_of_idle)
        fun _ => rfl).trans ?_
      exact read_modifyState_of_eq ({ q with entries := before ++ after }.countDrop e .pressure) j k
        hmark

/-! ### The stream after the reset -/

/-- A stream at the instant `clock` after a reset at the instant `reset`. Inside a push, the resync
point that ended the wait may still be `pending`. -/
inductive Resuming (reset : Nat) (cfg : LiveQueueConfig) (k : StreamKey) (pending : Prop)
    (clock : Nat) (q : LiveQueue) : Prop
  | waiting (t : Nat) (since : q.awaitingSince k = some t) (later : reset ≤ t)
  | first (r : QueueEntry) (tail : List QueueEntry) (frames : q.evictables k = r :: tail)
      (resync : r.isResync = true) (since : q.awaitingSince k = none)
  | expired (h : reset + cfg.resyncWaitMax ≤ clock)
  | pending (h : pending) (frames : q.evictables k = []) (since : q.awaitingSince k = none)

variable {reset clock : Nat} {pending : Prop}

section

variable (h : Resuming reset cfg k pending clock q)
include h

theorem Resuming.congr (hframes : q'.evictables k = q.evictables k)
    (hsince : q'.awaitingSince k = q.awaitingSince k) : Resuming reset cfg k pending clock q' := by
  cases h with
  | waiting t ht hlater => exact .waiting t (hsince.trans ht) hlater
  | first r tail hr hresync hnone => exact .first r tail (hframes.trans hr) hresync (hsince.trans hnone)
  | expired h => exact .expired h
  | pending h hnil hnone => exact .pending h (hframes.trans hnil) (hsince.trans hnone)

theorem Resuming.later (hle : clock ≤ now) :
    Resuming reset cfg k pending now q := by
  cases h with
  | waiting t ht hlater => exact .waiting t ht hlater
  | first r tail hr hresync hnone => exact .first r tail hr hresync hnone
  | expired h => exact .expired (h.trans hle)
  | pending h hnil hnone => exact .pending h hnil hnone

theorem Resuming.mono {pending' : Prop}
    (himp : pending → pending') : Resuming reset cfg k pending' clock q := by
  cases h with
  | waiting t ht hlater => exact .waiting t ht hlater
  | first r tail hr hresync hnone => exact .first r tail hr hresync hnone
  | expired h => exact .expired h
  | pending h hnil hnone => exact .pending (himp h) hnil hnone

end

theorem Resuming.change (h : Resuming reset cfg k pending now q) (hreset : reset ≤ now)
    (hc : WaitChange now cfg k q q') : Resuming reset cfg k pending now q' := by
  cases hc with
  | same hframes hsince => exact h.congr hframes hsince
  | purged hsince =>
    -- the stream waits from now on, or it was waiting
    cases h with
    | waiting t ht hlater => exact .waiting t (by rw [hsince, ht]; rfl) hlater
    | first r tail _ _ hnone => exact .waiting now (by rw [hsince, hnone]; rfl) hreset
    | expired h => exact .expired h
    | pending _ _ hnone => exact .waiting now (by rw [hsince, hnone]; rfl) hreset
  | trimmed r tail hframes hresync hsince => exact .first r tail hframes hresync hsince
  | released t ht hexpired =>
    cases h with
    | waiting t' ht' hlater =>
      obtain rfl := some.inj (ht.symm.trans ht')
      exact .expired (by omega)
    | first r tail _ _ hnone =>
      rw [hnone] at ht
      cases ht
    | expired h => exact .expired h
    | pending _ _ hnone =>
      rw [hnone] at ht
      cases ht

theorem Resuming.upkeep (h : Resuming reset cfg k pending now q) (hreset : reset ≤ now)
    (hu : Upkeep now cfg q q') : Resuming reset cfg k pending now q' := by
  induction hu with
  | refl => exact h
  | tail _ hstep ih => exact ih.change hreset (hstep.waitChange k)

theorem Resuming.evicted (h : Resuming reset cfg k pending now q) (hreset : reset ≤ now)
    (he : Evicted size now cfg q q') : Resuming reset cfg k pending now q' := by
  induction he with
  | refl => exact h
  | tail _ hstep ih => exact ih.change hreset (hstep.waitChange k)

def ResyncOf (k : StreamKey) (e : QueueEntry) : Prop := e.names = some k ∧ e.isResync = true

theorem Resuming.resumed (h : Resuming reset cfg k pending now q) (hok : q.Ok cfg)
    (hr : Resumed e q q') (hpending : ResyncOf k e → pending) :
    Resuming reset cfg k pending now q' := by
  rcases hr with rfl | ⟨j, hnames, hresync, hwaits, rfl⟩
  · exact h
  have hframes : (q.resumeStream j).evictables k = q.evictables k := by
    show (q.modifyExisting j StreamState.resume).entries.filter _ = _
    rw [modifyExisting_entries, evictables]
  have hsince : (q.resumeStream j).awaitingSince k = if k = j then none else q.awaitingSince k :=
    q.awaitingSince_resume j k
  by_cases hk : k = j
  · subst hk
    rw [isAwaiting_eq] at hwaits
    rw [if_pos rfl] at hsince
    exact .pending (hpending ⟨hnames, hresync⟩) (hframes.trans (hok.evictables_eq_nil hwaits)) hsince
  · rw [if_neg hk] at hsince
    exact h.congr hframes hsince

theorem Resuming.enqueue (h : Resuming reset cfg k (ResyncOf k e) now q) :
    Resuming reset cfg k False now (q.enqueue e) := by
  have hframes : (q.enqueue e).evictables k =
      q.evictables k ++ [e].filter (·.evictableOf k) := by
    rw [evictables, (q.enqueue_eq e).1, filter_append, evictables]
  have hsince : (q.enqueue e).awaitingSince k = q.awaitingSince k := by
    rw [LiveQueue.enqueue]
    cases e.names with
    | none => rfl
    | some j => exact q.read_modifyState_of_eq j k (f := StreamState.addFrame e) fun _ => rfl
  cases h with
  | waiting t ht hlater => exact .waiting t (hsince.trans ht) hlater
  | first r tail hr hresync hnone =>
    refine .first r (tail ++ [e].filter (·.evictableOf k)) ?_ hresync (hsince.trans hnone)
    rw [hframes, hr]
    rfl
  | expired h => exact .expired h
  | pending h hnil hnone =>
    have hkind : e.kind = .media .resyncPoint := by simpa [QueueEntry.isResync] using h.2
    have hev : e.evictableOf k = true := by
      simp [QueueEntry.evictableOf, hkind, Kind.evictable, h.1]
    refine .first e [] ?_ h.2 (hsince.trans hnone)
    rw [hframes, hnil, filter_cons, if_pos hev]
    rfl

theorem Resuming.pushing {r : PushResult} (h : Resuming reset cfg k False e.time q)
    (hreset : reset ≤ e.time) (hok : q.Ok cfg) (hroom : e.names = some k → ResyncRoom cfg q e.msg)
    (hp : Pushing cfg q e r q') : Resuming reset cfg k False e.time q' := by
  cases hp with
  | closed => exact h
  | oversized => exact h.congr rfl rfl
  | awaiting _ hupkeep => exact (h.upkeep hreset hupkeep).congr rfl rfl
  | crowdedOut _ hupkeep hevicted =>
    exact ((h.upkeep hreset hupkeep).evicted hreset hevicted).congr rfl rfl
  | @full q₁ q₂ q₃ hupkeep hresumed hevicted hfull hcontrol hsmall =>
    -- with room for it, a resync point of the stream is not refused
    have hnot : ResyncOf k e → False := by
      rintro ⟨hnames, hresync⟩
      have hkind : e.kind = .media .resyncPoint := by simpa [QueueEntry.isResync] using hresync
      rw [hkind] at hsmall
      rw [(hroom hnames hkind hsmall).fits hok.booked hupkeep.maintained hresumed
        hevicted.maintained hcontrol] at hfull
      cases hfull
    have h₁ := h.upkeep hreset hupkeep
    have h₃ := (h₁.resumed (hok.maintained hupkeep.maintained) hresumed hnot).evicted hreset hevicted
    split
    · exact h₃.congr rfl rfl
    · exact h₃.congr rfl rfl
  | @queued q₁ q₂ q₃ q₄ hupkeep hresumed hevicted hagain =>
    have hok₁ := hok.maintained hupkeep.maintained
    have hok₃ := (hok₁.resumed hresumed).maintained hevicted.maintained
    have h₁ : Resuming reset cfg k (ResyncOf k e) e.time q₁ := (h.upkeep hreset hupkeep).mono False.elim
    have h₃ := (h₁.resumed hok₁ hresumed id).evicted hreset hevicted
    have h₃' : Resuming reset cfg k (ResyncOf k e) e.time q₃.publishReinit := h₃.congr rfl rfl
    have hok₃' : q₃.publishReinit.Ok cfg := hok₃.congr rfl rfl rfl
    exact (h₃'.resumed hok₃' hagain id).enqueue

/-- What a pop delivers of the stream is the resync point, unless the wait was over. -/
theorem Resuming.popping {e : Option QueueEntry} (h : Resuming reset cfg k False now q)
    (hreset : reset ≤ now) (hok : q.Ok cfg) (hp : Popping now cfg q e q') :
    (∀ x, e = some x → x.evictableOf k →
      x.isResync ∨ reset + cfg.resyncWaitMax ≤ now) ∧
    ((∀ x, e = some x → x.evictableOf k = false) → Resuming reset cfg k False now q') := by
  cases hp with
  | closed => exact ⟨fun x hx => (by cases hx), fun _ => h⟩
  | empty hupkeep => exact ⟨fun x hx => (by cases hx), fun _ => h.upkeep hreset hupkeep⟩
  | @head q₁ x rest hupkeep hentries =>
    have h₁ := h.upkeep hreset hupkeep
    have hok₁ := hok.maintained hupkeep.maintained
    constructor
    · rintro _ ⟨⟩ hev
      have hmem : x ∈ q₁.evictables k := by
        rw [evictables, hentries]
        exact mem_filter.2 ⟨mem_cons_self, hev⟩
      cases h₁ with
      | waiting t ht =>
        rw [hok₁.evictables_eq_nil (by rw [ht]; rfl)] at hmem
        cases hmem
      | first r tail hframes hresync =>
        rw [evictables, hentries, filter_cons, if_pos hev] at hframes
        obtain ⟨rfl, -⟩ := cons.inj hframes
        exact .inl hresync
      | expired h => exact .inr h
      | pending h => exact h.elim
    · intro hnot
      refine h₁.congr ?_ ?_
      · rw [evictables, (q₁.deliver_eq x rest).1, evictables, hentries, filter_cons,
          if_neg (by simp [hnot x rfl])]
      · exact read_accountRemoved _ x k (fun _ => StreamState.awaitingSince_of_idle) fun _ => rfl

theorem Resuming.onConnectionReset (h : Resuming reset cfg k False now q) (hreset : reset ≤ now) :
    Resuming reset cfg k False now (q.onConnectionReset now) := by
  refine onConnectionReset_inv (P := Resuming reset cfg k False now) ?_ h
  intro q j hq
  exact hq.change hreset (q.waitChange_purge j .stale now)

theorem Ok.resuming (hok : q.Ok cfg) (hk : 0 < q.evictableBytes k) (now : Nat) :
    Resuming now cfg k False now (q.onConnectionReset now) := by
  have hnone : q.awaitingSince k = none := by
    cases hsince : q.awaitingSince k with
    | none => rfl
    | some t =>
      rw [hok.evictable k, ← evictables, hok.evictables_eq_nil (by rw [hsince]; rfl)] at hk
      cases hk
  have hmem : k ∈ (q.streams.entries.filter fun s => 0 < s.2.evictableBytes).map (·.1) := by
    rw [evictableBytes] at hk
    cases hst : q.streams.lookup k with
    | none => simp [hst] at hk
    | some st =>
      rw [hst] at hk
      refine mem_map.2 ⟨⟨k, st⟩, mem_filter.2 ⟨AList.mem_lookup_iff.1 hst, ?_⟩, rfl⟩
      exact decide_eq_true hk
  rw [LiveQueue.onConnectionReset]
  generalize (q.streams.entries.filter fun s => 0 < s.2.evictableBytes).map (·.1) = l at hmem
  -- the streams before it in the list leave it alone, those after it find it waiting
  suffices h : ∀ q : LiveQueue, q.awaitingSince k = none ∧ k ∈ l ∨ q.awaitingSince k = some now →
      (l.foldl (fun q k => (q.purgeStream k .stale).modifyState k (StreamState.await now))
        q).awaitingSince k = some now from
    .waiting now (h q (.inl ⟨hnone, hmem⟩)) le_rfl
  clear hmem
  induction l with
  | nil =>
    rintro q (⟨-, hmem⟩ | h)
    · cases hmem
    · exact h
  | cons j l ih =>
    intro q h
    refine ih _ ?_
    have hsince : (q.purgeStream j .stale).awaitingSince k = q.awaitingSince k :=
      q.awaitingSince_discard _ _ .stale k
    rw [awaitingSince_await, hsince]
    rcases h with ⟨hnone, hmem⟩ | h
    · by_cases hk : k = j
      · exact .inr (by rw [if_pos hk, hnone]; rfl)
      · rw [if_neg hk]
        exact .inl ⟨hnone, (mem_cons.1 hmem).resolve_left hk⟩
    · exact .inr (by rw [h]; split <;> rfl)

theorem Resuming.takeReinit (h : Resuming reset cfg k False now q) (j : StreamKey) :
    Resuming reset cfg k False now (q.takeReinit j).2 := by
  rw [LiveQueue.takeReinit]
  split
  · refine h.congr ?_ ?_
    · show ((_ : LiveQueue).pruneIdle j).entries.filter _ = _
      rw [pruneIdle_entries]
      exact congrArg _ (q.modifyExisting_entries j _)
    · have hmark : ∀ st : StreamState,
          ({ st with needsReinit := false } : StreamState).awaitingSince = st.awaitingSince :=
        fun _ => rfl
      rw [awaitingSince_pruneIdle]
      exact q.read_modifyExisting_of_eq j k hmark
  · exact h

theorem Resuming.markReinit (h : Resuming reset cfg k False now q) (j : StreamKey) :
    Resuming reset cfg k False now (q.markReinit j) := by
  have hmark : ∀ st : StreamState,
      ({ st with needsReinit := true } : StreamState).awaitingSince = st.awaitingSince :=
    fun _ => rfl
  exact h.congr rfl (q.read_modifyState_of_eq j k hmark)

end LiveQueue

/-! ### Runs -/

/-- A resync point of the stream that is pushed has room beside the queued control messages. -/
def QueueOp.resyncRoomOf (cfg : LiveQueueConfig) (k : StreamKey) (s : QueueRun) : QueueOp → Bool
  | .push msg _ => msg.names = some k → LiveQueue.ResyncRoom cfg s.queue msg
  | _ => true

def QueueRun.returnedOf (k : StreamKey) (s : QueueRun) : Nat :=
  s.returned.countP (·.evictableOf k)

theorem QueueRun.returnedOf_step (hstep : s.step cfg op = some s') (k : StreamKey) :
    s.returnedOf k ≤ s'.returnedOf k := by
  cases op with
  | push msg now =>
    obtain ⟨_, -, rfl⟩ := map_eq_some_iff.1 hstep
    exact le_rfl
  | pop now =>
    obtain rfl := some.inj hstep
    simp [QueueRun.returnedOf, countP_append]
  | connectionReset now =>
    obtain rfl := some.inj hstep
    exact le_rfl
  | takeReinit j =>
    obtain rfl := some.inj hstep
    exact le_rfl
  | markReinit j =>
    obtain rfl := some.inj hstep
    exact le_rfl
  | close =>
    obtain rfl := some.inj hstep
    exact le_rfl

theorem QueueRun.returnedOf_exec {ops : List QueueOp} (h : s.exec cfg ops = some s')
    (k : StreamKey) : s.returnedOf k ≤ s'.returnedOf k :=
  replay_inv (P := fun x => s.returnedOf k ≤ x.returnedOf k)
    (fun _ _ _ _ hle hstep => hle.trans (QueueRun.returnedOf_step hstep k)) le_rfl h

open LiveQueue in
theorem QueueRun.resuming_step {reset t : Nat} (hok : s.queue.Ok cfg) (hreset : reset ≤ t)
    (h : Resuming reset cfg k False t s.queue) (hop : ∀ now ∈ op.time?, now = t)
    (hopen : op ≠ .close) (hroom : op.resyncRoomOf cfg k s)
    (hstep : s.step cfg op = some s') (hnone : s'.returnedOf k = s.returnedOf k) :
    Resuming reset cfg k False t s'.queue := by
  cases op with
  | push msg now =>
    obtain rfl := hop now rfl
    obtain ⟨r, q', hpush, hpushing⟩ := pushAt_steps hok.booked cfg ⟨s.pushes.length, msg, now⟩
    rw [QueueRun.step, hpush] at hstep
    obtain rfl := some.inj hstep
    have hroom : msg.names = some k → ResyncRoom cfg s.queue msg := of_decide_eq_true hroom
    exact Resuming.pushing (e := ⟨s.pushes.length, msg, now⟩) h hreset hok hroom hpushing
  | pop now =>
    obtain rfl := hop now rfl
    obtain rfl := some.inj hstep
    refine (h.popping hreset hok (s.queue.popAt_steps cfg now)).2 fun x hx => ?_
    have hsame : (s.returned ++ (s.queue.popAt cfg now).1.toList).countP (·.evictableOf k) =
        s.returned.countP (·.evictableOf k) := hnone
    rw [countP_append, hx] at hsame
    simpa using hsame
  | connectionReset now =>
    obtain rfl := hop now rfl
    obtain rfl := some.inj hstep
    exact h.onConnectionReset hreset
  | takeReinit j =>
    obtain rfl := some.inj hstep
    exact h.takeReinit j
  | markReinit j =>
    obtain rfl := some.inj hstep
    exact h.markReinit j
  | close => exact absurd rfl hopen

open LiveQueue in
theorem QueueRun.resuming_exec {reset : Nat} (ops : List QueueOp) {t t' : Nat}
    (hok : s.queue.Ok cfg) (hreset : reset ≤ t) (h : Resuming reset cfg k False t s.queue)
    (hopen : .close ∉ ops)
    (htimes : (t :: (ops ++ [QueueOp.pop t']).filterMap QueueOp.time?).Pairwise (· ≤ ·))
    (hroom : along (QueueRun.step cfg) (QueueOp.resyncRoomOf cfg k) ops s)
    (hexec : s.exec cfg ops = some s') (hnone : s'.returnedOf k = s.returnedOf k) :
    reset ≤ t' ∧ s'.queue.Ok cfg ∧ Resuming reset cfg k False t' s'.queue := by
  induction ops generalizing s t with
  | nil =>
    cases hexec
    have hle : t ≤ t' := (pairwise_cons.1 htimes).1 t' mem_cons_self
    exact ⟨hreset.trans hle, hok, h.later hle⟩
  | cons op ops ih =>
    obtain ⟨hop, hrest⟩ := not_or.1 (mem_cons.not.1 hopen)
    obtain ⟨s₁, hstep, hok₁⟩ := QueueRun.step_ok hok op
    rw [QueueRun.exec, foldlM_cons, hstep] at hexec
    rw [along, hstep, all_some, Bool.and_eq_true] at hroom
    obtain ⟨t₁, hle, htime, htimes₁⟩ := exists_instant htimes
    have hmono := QueueRun.returnedOf_step hstep k
    have hmono' : s₁.returnedOf k ≤ s'.returnedOf k := QueueRun.returnedOf_exec hexec k
    have h₁ := QueueRun.resuming_step hok (hreset.trans hle) (h.later hle) htime (Ne.symm hop)
      hroom.1 hstep (by omega)
    exact ih hok₁ (hreset.trans hle) h₁ hrest htimes₁ hroom.2 hexec (by omega)

open LiveQueue in
/-- **The first frame after a reconnect.** Let the connection be lost when a non-critical frame of a
stream is queued, and let every later resync point of the stream have room beside the queued control
messages. Then the first non-critical frame of the stream that a pop returns after the reset is a
resync point, unless the wait that began with the reset is over. -/
theorem reconnect_resyncs (cfg : LiveQueueConfig) (before after : List QueueOp) (reset t : Nat)
    (k : StreamKey) (hopen : .close ∉ after)
    (htimes : timesInOrder (.connectionReset reset :: after ++ [.pop t])) :
    ∃ s₁ s₂, QueueRun.start.exec cfg before = some s₁ ∧
      s₁.exec cfg (.connectionReset reset :: after) = some s₂ ∧
      (0 < s₁.queue.evictableBytes k →
        along (QueueRun.step cfg) (QueueOp.resyncRoomOf cfg k) (.connectionReset reset :: after) s₁
          = true →
        s₂.returnedOf k = s₁.returnedOf k →
        ∀ e, (s₂.queue.popAt cfg t).1 = some e → e.evictableOf k = true →
          e.isResync = true ∨ reset + cfg.resyncWaitMax ≤ t) := by
  obtain ⟨s₁, hbefore, hok₁⟩ := QueueRun.exec_ok (QueueRun.start_ok cfg) before
  obtain ⟨s₂, hafter, -⟩ := QueueRun.exec_ok hok₁ (.connectionReset reset :: after)
  refine ⟨s₁, s₂, hbefore, hafter, fun hqueued hroom hnone e hpop hev => ?_⟩
  obtain ⟨s, hstep, hok⟩ := QueueRun.step_ok hok₁ (.connectionReset reset)
  rw [along, hstep, all_some, Bool.and_eq_true] at hroom
  rw [QueueRun.exec, foldlM_cons, hstep] at hafter
  obtain rfl := some.inj hstep
  obtain ⟨hle, hok₂, h₂⟩ := QueueRun.resuming_exec after hok le_rfl (hok₁.resuming hqueued reset)
    hopen htimes hroom.2 hafter hnone
  exact (h₂.popping hle hok₂ (s₂.queue.popAt_steps cfg t)).1 e hpop hev

/-- The reset finds two frames of the stream; the dependent frame after it is refused and the resync
point is what the next pop returns. -/
theorem reconnect_resyncs_queued :
    ∃ s₁ s₂, QueueRun.start.exec tinyQueue
        [.push (smallFrame .resyncPoint 1) 0, .push (smallFrame .droppable 2) 0] = some s₁ ∧
      s₁.exec tinyQueue [.connectionReset 1, .push (smallFrame .droppable 3) 2,
        .push (smallFrame .resyncPoint 4) 3] = some s₂ ∧
      ∃ e, (s₂.queue.popAt tinyQueue 4).1 = some e ∧ e.evictableOf ("live", "a") = true ∧
        (e.isResync = true ∨ 1 + tinyQueue.resyncWaitMax ≤ 4) := by
  obtain ⟨s₁, s₂, hbefore, hafter, h⟩ := reconnect_resyncs tinyQueue
    [.push (smallFrame .resyncPoint 1) 0, .push (smallFrame .droppable 2) 0]
    [.push (smallFrame .droppable 3) 2, .push (smallFrame .resyncPoint 4) 3] 1 4 ("live", "a")
    (by decide) (by show [1, 2, 3, 4].Pairwise (· ≤ ·); decide)
  refine ⟨s₁, s₂, hbefore, hafter, ⟨3, smallFrame .resyncPoint 4, 3⟩, ?_⟩
  have hfirst : (QueueRun.start.exec tinyQueue
      [.push (smallFrame .resyncPoint 1) 0, .push (smallFrame .droppable 2) 0]).all (fun s₁ =>
        0 < s₁.queue.evictableBytes ("live", "a") &&
        along (QueueRun.step tinyQueue) (QueueOp.resyncRoomOf tinyQueue ("live", "a"))
          [.connectionReset 1, .push (smallFrame .droppable 3) 2,
            .push (smallFrame .resyncPoint 4) 3] s₁ &&
        (s₁.exec tinyQueue [.connectionReset 1, .push (smallFrame .droppable 3) 2,
          .push (smallFrame .resyncPoint 4) 3]).all (fun s₂ =>
            s₂.returnedOf ("live", "a") = s₁.returnedOf ("live", "a") &&
            (s₂.queue.popAt tinyQueue 4).1 = some ⟨3, smallFrame .resyncPoint 4, 3⟩)) = true := by
    decide
  rw [hbefore, all_some, hafter, all_some] at hfirst
  simp only [Bool.and_eq_true, decide_eq_true_eq] at hfirst
  obtain ⟨⟨hqueued, hroom⟩, hnone, hpop⟩ := hfirst
  exact ⟨hpop, by decide, h hqueued hroom hnone _ hpop (by decide)⟩

/-- The resync point went to the old connection, so nothing of the stream is queued when the
connection is lost, and the stream does not wait. -/
theorem reconnect_dependent_frame :
    ∃ s₁ s₂, QueueRun.start.exec tinyQueue [.push (smallFrame .resyncPoint 1) 0, .pop 0] = some s₁ ∧
      s₁.returnedOf ("live", "a") = 1 ∧
      s₁.exec tinyQueue [.connectionReset 1, .push (smallFrame .droppable 2) 2] = some s₂ ∧
      s₂.returnedOf ("live", "a") = 1 ∧
      (s₂.queue.popAt tinyQueue 2).1 = some ⟨1, smallFrame .droppable 2, 2⟩ ∧
      ¬ 1 + tinyQueue.resyncWaitMax ≤ 2 := by
  have hrun : ((QueueRun.start.exec tinyQueue [.push (smallFrame .resyncPoint 1) 0, .pop 0]).bind
      fun s₁ => (s₁.exec tinyQueue [.connectionReset 1, .push (smallFrame .droppable 2) 2]).map
        fun s₂ => (s₁.returnedOf ("live", "a"), s₂.returnedOf ("live", "a"),
          (s₂.queue.popAt tinyQueue 2).1)) =
      some (1, 1, some ⟨1, smallFrame .droppable 2, 2⟩) := by decide
  obtain ⟨s₁, hbefore, hrest⟩ := bind_eq_some_iff.1 hrun
  obtain ⟨s₂, hafter, hs⟩ := map_eq_some_iff.1 hrest
  simp only [Prod.mk.injEq] at hs
  exact ⟨s₁, s₂, hbefore, hs.1, hafter, hs.2.1, hs.2.2, by decide⟩

end RtmpServer
