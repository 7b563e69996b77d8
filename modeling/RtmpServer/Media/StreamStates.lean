import RtmpServer.Media.Resync
import RtmpServer.Lib.Replay

/-!
# The states of the streams in the live queue

The queue keeps a state for a stream as long as the state says something: the stream waits, has
queued frames or is owed a re-init. `prune_idle` removes the others. Every step leaves the states of
all streams but one alone, and does not leave that one idle (`Tidy`).

The exception is inside a push: a resync point ends the wait of its stream before there is room for
the frame, so until the frame is queued the state may be idle. When there is no room it stays so.
-/

namespace RtmpServer

open Option Lib.Replay

theorem StreamState.idle_await (now : Nat) (st : StreamState) : (st.await now).idle = false := by
  cases hst : st.awaitingSince <;> simp [StreamState.idle, StreamState.await, hst]

theorem StreamState.idle_addFrame (e : QueueEntry) (st : StreamState) :
    (st.addFrame e).idle = false := by
  simp [StreamState.idle, StreamState.addFrame]

namespace LiveQueue

variable {q q' : LiveQueue} {k : StreamKey}
variable {cfg : LiveQueueConfig} {e : QueueEntry} {now : Nat}

/-! ### Steps that touch one stream -/

def SameBut (k : StreamKey) (q q' : LiveQueue) : Prop :=
  ∀ j, j ≠ k → q'.streams.lookup j = q.streams.lookup j

theorem SameBut.modifyState (h : SameBut k q q') (f : StreamState → StreamState) :
    SameBut k q (q'.modifyState k f) := by
  grind [SameBut]

theorem SameBut.modifyExisting (h : SameBut k q q') (f : StreamState → StreamState) :
    SameBut k q (q'.modifyExisting k f) := by
  grind [SameBut]

theorem SameBut.pruneIdle (h : SameBut k q q') : SameBut k q (q'.pruneIdle k) := by
  grind [SameBut]

/-- The states of the other streams are left alone, and that of the stream is not left idle. -/
structure Tidy (k : StreamKey) (q q' : LiveQueue) : Prop where
  others : SameBut k q q'
  busy : ∀ st, q'.streams.lookup k = some st → st.idle = false

theorem SameBut.tidy_pruneIdle (h : SameBut k q q') : Tidy k q (q'.pruneIdle k) :=
  ⟨h.pruneIdle, by simp [lookup_pruneIdle, filter_eq_some_iff]⟩

theorem SameBut.tidy_modifyState (h : SameBut k q q') {f : StreamState → StreamState}
    (hf : ∀ st, (f st).idle = false) : Tidy k q (q'.modifyState k f) :=
  ⟨h.modifyState f, by grind⟩

theorem SameBut.tidy_accountRemoved (h : SameBut k q q') (he : e.names = some k) :
    Tidy k q (q'.accountRemoved e) := by
  rw [LiveQueue.accountRemoved, he]
  refine SameBut.tidy_pruneIdle (SameBut.modifyExisting ?_ _)
  exact h

theorem sameBut_discard (q : LiveQueue) (kept : List QueueEntry) {removed : List QueueEntry}
    (hremoved : ∀ e ∈ removed, e.names = some k) (reason : Reason) :
    SameBut k q (q.discard kept removed reason) := by
  refine (discard_inv kept removed reason
    (P := fun rest q' => (∀ e ∈ rest, e.names = some k) ∧ SameBut k q q')
    ⟨hremoved, fun _ _ => rfl⟩ ?_).2
  rintro e rest q' ⟨hrest, h⟩
  have hdrop : SameBut k q (q'.countDrop e reason) := h
  exact ⟨fun x hx => hrest x (List.mem_cons_of_mem _ hx),
    (hdrop.tidy_accountRemoved (hrest e List.mem_cons_self)).others⟩

theorem names_of_mem_filter {l : List QueueEntry} (h : e ∈ l.filter (·.evictableOf k)) :
    e.names = some k := by
  have hev := (List.mem_filter.1 h).2
  simp only [QueueEntry.evictableOf, Bool.and_eq_true, decide_eq_true_eq] at hev
  exact hev.2

theorem sameBut_purgeStream (q : LiveQueue) (k : StreamKey) (reason : Reason) :
    SameBut k q (q.purgeStream k reason) :=
  q.sameBut_discard _ (fun _ => names_of_mem_filter) reason

theorem tidy_purge (q : LiveQueue) (k : StreamKey) (reason : Reason) (now : Nat) :
    Tidy k q ((q.purgeStream k reason).modifyState k (StreamState.await now)) :=
  (q.sameBut_purgeStream k reason).tidy_modifyState (StreamState.idle_await now)

theorem tidy_purge_waiting (hk : q.isAwaiting k) (reason : Reason) :
    Tidy k q (q.purgeStream k reason) := by
  refine ⟨q.sameBut_purgeStream k reason, fun st hst => ?_⟩
  have hwaits : (q.purgeStream k reason).isAwaiting k = true :=
    ((q.discard_spec _ _ _).2.2.1 k).trans hk
  rw [isAwaiting, hst, any_some] at hwaits
  cases hidle : st.idle with
  | false => rfl
  | true =>
    rw [StreamState.awaiting_of_idle hidle] at hwaits
    cases hwaits

theorem tidy_enforceAgeOn (q : LiveQueue) (now : Nat) (cfg : LiveQueueConfig) (k : StreamKey) :
    Tidy k q (q.enforceAgeOn now cfg k) := by
  obtain heq | ⟨before, r, rest, q₁, q₂, -, -, -, rfl, hq₂, heq⟩ := q.enforceAgeOn_cases now cfg k
  · rw [heq]
    exact ((q.sameBut_purgeStream k .stale).modifyState _).tidy_pruneIdle
  · rw [heq]
    have hpurged : SameBut k q (q.discard (before.filter (!·.evictableOf k) ++ r :: rest)
        (before.filter (·.evictableOf k)) .stale) :=
      q.sameBut_discard _ (fun _ => names_of_mem_filter) .stale
    have hcounted : SameBut k q q₂ := by rcases hq₂ with rfl | rfl <;> exact hpurged
    exact (hcounted.modifyExisting _).tidy_pruneIdle

theorem tidy_evictCritical (q : LiveQueue) (rest : List QueueEntry) (he : e.names = some k) :
    Tidy k q (q.evictCritical rest e) := by
  have hmarked : SameBut k q (({ q with entries := rest }.countDrop e .pressure).modifyState k
      fun st => { st with needsReinit := true }) :=
    SameBut.modifyState (fun _ _ => rfl) _
  rw [evictCritical]
  refine SameBut.tidy_accountRemoved ?_ he
  rw [he]
  exact hmarked

theorem tidy_enqueue (q : LiveQueue) (he : e.names = some k) : Tidy k q (q.enqueue e) := by
  have h : Tidy k q (q.modifyState k (StreamState.addFrame e)) :=
    SameBut.tidy_modifyState (fun _ _ => rfl) (StreamState.idle_addFrame e)
  rw [enqueue, he]
  exact ⟨h.others, h.busy⟩

/-! ### The invariant -/

/-- No state is idle, except that of a stream whose resync point is being pushed. -/
def NoIdle (pending : Option StreamKey) (q : LiveQueue) : Prop :=
  ∀ k st, q.streams.lookup k = some st → st.idle = true → pending = some k

variable {pending : Option StreamKey}

section

variable (h : q.NoIdle pending)
include h

theorem NoIdle.congr (hstreams : q'.streams = q.streams) :
    q'.NoIdle pending := by
  rwa [NoIdle, hstreams]

theorem NoIdle.tidy (ht : Tidy k q q') : q'.NoIdle pending := by
  intro j st hst hidle
  by_cases hj : j = k
  · simp [ht.busy st (hj ▸ hst)] at hidle
  · exact h j st ((ht.others j hj).symm.trans hst) hidle

theorem NoIdle.upkeepStep (hstep : UpkeepStep now cfg q q') :
    q'.NoIdle pending := by
  cases hstep with
  | age k => exact h.tidy (q.tidy_enforceAgeOn now cfg k)
  | release k =>
    exact h.tidy (SameBut.tidy_pruneIdle (SameBut.modifyExisting (fun _ _ => rfl) _))
  | supersede k hwaits => exact h.tidy (tidy_purge_waiting hwaits .stale)
  | note => exact h.congr rfl

theorem NoIdle.upkeep (hsteps : Upkeep now cfg q q') :
    q'.NoIdle pending := by
  induction hsteps with
  | refl => exact h
  | tail _ hstep ih => exact ih.upkeepStep hstep

theorem NoIdle.evictStep {size now : Nat}
    (hstep : EvictStep size now cfg q q') : q'.NoIdle pending := by
  cases hstep with
  | stream k => exact h.tidy (q.tidy_purge k .pressure now)
  | critical before e after _ _ _ _ hcritical =>
    obtain ⟨k, hnames⟩ := names_of_critical hcritical
    exact h.tidy (q.tidy_evictCritical _ hnames)

theorem NoIdle.evicted {size now : Nat}
    (hsteps : Evicted size now cfg q q') : q'.NoIdle pending := by
  induction hsteps with
  | refl => exact h
  | tail _ hstep ih => exact ih.evictStep hstep

theorem NoIdle.resumed (hr : Resumed e q q') (hp : PendingFor e pending) :
    ∃ pending', q'.NoIdle pending' ∧ PendingFor e pending' := by
  rcases hr with rfl | ⟨k, hnames, hresync, -, rfl⟩
  · exact ⟨pending, h, hp⟩
  refine ⟨some k, fun j st hst hidle => ?_, fun j hj => some.inj hj ▸ ⟨hnames, hresync⟩⟩
  by_cases hj : j = k
  · rw [hj]
  · have hsame : SameBut k q (q.modifyExisting k StreamState.resume) :=
      SameBut.modifyExisting (fun _ _ => rfl) _
    have hpending := h j st ((hsame j hj).symm.trans hst) hidle
    exact absurd (some.inj ((hp j hpending).1.symm.trans hnames)) hj

theorem NoIdle.enqueue (hp : PendingFor e pending) :
    (q.enqueue e).NoIdle none := by
  cases hnames : e.names with
  | none =>
    have hsame : (q.enqueue e).streams = q.streams := by
      rw [LiveQueue.enqueue, hnames]
      rfl
    intro j st hst hidle
    have := (hp j (h.congr hsame j st hst hidle)).1
    rw [hnames] at this
    cases this
  | some k =>
    have ht := q.tidy_enqueue hnames
    intro j st hst hidle
    have hpending := h.tidy ht j st hst hidle
    obtain rfl := some.inj (hnames.symm.trans (hp j hpending).1)
    rw [ht.busy st hst] at hidle
    cases hidle

end

/-- A resync point that is not too large has room beside the queued control messages. -/
def ResyncRoom (cfg : LiveQueueConfig) (q : LiveQueue) (msg : MediaMessage) : Prop :=
  msg.kind = .media .resyncPoint → msg.approxSize ≤ cfg.maxBytes / 2 →
    RoomBeside cfg q msg.approxSize

variable (h : q.NoIdle none)
include h

theorem NoIdle.pushing {r : PushResult} (hq : q.Booked q.entries)
    (hroom : ResyncRoom cfg q e.msg) (hp : Pushing cfg q e r q') : q'.NoIdle none := by
  have hnone : PendingFor e none := fun _ hk => by cases hk
  cases hp with
  | closed => exact h
  | oversized => exact h.congr rfl
  | awaiting k hupkeep => exact (h.upkeep hupkeep).congr rfl
  | crowdedOut k hupkeep hevicted => exact ((h.upkeep hupkeep).evicted hevicted).congr rfl
  | @full q₁ q₂ q₃ hupkeep hresumed hevicted hfull hcontrol hsmall =>
    have hq₂ : q₂ = q₁ := by
      rcases hresumed with h | ⟨k, hnames, hresync, hwait, hq₂⟩
      · exact h
      · have hkind : e.kind = .media .resyncPoint := by simpa [QueueEntry.isResync] using hresync
        rw [hkind] at hsmall
        have hfits := (hroom hkind hsmall).fits hq hupkeep.maintained
          (.inr ⟨k, hnames, hresync, hwait, hq₂⟩) hevicted.maintained hcontrol
        rw [hfits] at hfull
        cases hfull
    have h₃ : q₃.NoIdle none := (h.upkeep hupkeep).evicted (hq₂ ▸ hevicted)
    split
    · exact h₃.congr rfl
    · exact h₃.congr rfl
  | @queued q₁ q₂ q₃ q₄ hupkeep hresumed hevicted hagain =>
    obtain ⟨p₂, h₂, hp₂⟩ := (h.upkeep hupkeep).resumed hresumed hnone
    have h₃ : q₃.publishReinit.NoIdle p₂ := (h₂.evicted hevicted).congr rfl
    obtain ⟨p₄, h₄, hp₄⟩ := h₃.resumed hagain hp₂
    exact h₄.enqueue hp₄

theorem NoIdle.popping {e : Option QueueEntry} (hp : Popping now cfg q e q') :
    q'.NoIdle none := by
  cases hp with
  | closed => exact h
  | empty hupkeep => exact h.upkeep hupkeep
  | @head q₁ e rest hupkeep =>
    have h₁ := h.upkeep hupkeep
    cases hnames : e.names with
    | none =>
      refine h₁.congr ?_
      rw [deliver, LiveQueue.accountRemoved, hnames]
    | some k =>
      have hsame : SameBut k q₁ { q₁ with entries := rest, events := .delivered e :: q₁.events } :=
        fun _ _ => rfl
      exact h₁.tidy (hsame.tidy_accountRemoved hnames)

theorem NoIdle.onConnectionReset (now : Nat) :
    (q.onConnectionReset now).NoIdle none := by
  refine onConnectionReset_inv (P := fun q : LiveQueue => q.NoIdle none) ?_ h
  intro q k hq
  exact hq.tidy (q.tidy_purge k .stale now)

theorem NoIdle.takeReinit (k : StreamKey) :
    (q.takeReinit k).2.NoIdle none := by
  rw [LiveQueue.takeReinit]
  split
  · refine h.tidy (SameBut.tidy_pruneIdle ?_)
    exact SameBut.modifyExisting (fun _ _ => rfl) _
  · exact h

theorem NoIdle.markReinit (k : StreamKey) : (q.markReinit k).NoIdle none := by
  have hmarked : Tidy k q (q.modifyState k fun st => { st with needsReinit := true }) :=
    SameBut.tidy_modifyState (fun _ _ => rfl) fun st => by simp [StreamState.idle]
  exact (h.tidy hmarked).congr rfl

/-- A state that is not idle is that of a stream with frames, of one that waits, or of one that
needs a re-init. -/
theorem NoIdle.streams_eq_empty (hq : q.Booked q.entries)
    (hentries : q.entries = []) (hwaits : ∀ k, q.isAwaiting k = false)
    (hreinit : ∀ k st, q.streams.lookup k = some st → st.needsReinit = false) : q.streams = ∅ := by
  refine AList.ext (List.eq_nil_iff_forall_not_mem.2 fun s hs => ?_)
  have hst : q.streams.lookup s.1 = some s.2 := AList.mem_lookup_iff.2 hs
  have hframes : s.2.queuedFrames = 0 := by
    have := hq.frames s.1
    rwa [queuedFrames, hst, hentries] at this
  have hwait : s.2.awaitingSince.isSome = false := by
    have := hwaits s.1
    rwa [isAwaiting, hst] at this
  have hidle : s.2.idle = true := by
    simpa [StreamState.idle, hframes, hreinit s.1 s.2 hst] using hwait
  cases h s.1 s.2 hst hidle

end LiveQueue

/-! ### Runs -/

instance (cfg : LiveQueueConfig) (q : LiveQueue) (size : Nat) :
    Decidable (LiveQueue.RoomBeside cfg q size) :=
  inferInstanceAs (Decidable (_ ∧ _))

instance (cfg : LiveQueueConfig) (q : LiveQueue) (msg : MediaMessage) :
    Decidable (LiveQueue.ResyncRoom cfg q msg) :=
  inferInstanceAs (Decidable (_ → _ → _))

def QueueOp.resyncRoom (cfg : LiveQueueConfig) (s : QueueRun) : QueueOp → Bool
  | .push msg _ => LiveQueue.ResyncRoom cfg s.queue msg
  | _ => true

open LiveQueue in
theorem QueueRun.noIdle_step {cfg : LiveQueueConfig} {s s' : QueueRun} {op : QueueOp}
    (hok : s.queue.Ok cfg) (h : s.queue.NoIdle none) (hroom : op.resyncRoom cfg s)
    (hstep : s.step cfg op = some s') : s'.queue.NoIdle none := by
  cases op with
  | push msg now =>
    obtain ⟨r, q', hpush, hpushing⟩ := pushAt_steps hok.booked cfg ⟨s.pushes.length, msg, now⟩
    rw [QueueRun.step, hpush] at hstep
    obtain rfl := some.inj hstep
    have hroom : ResyncRoom cfg s.queue msg := of_decide_eq_true hroom
    exact h.pushing hok.booked hroom hpushing
  | pop now =>
    obtain rfl := some.inj hstep
    exact h.popping (s.queue.popAt_steps cfg now)
  | connectionReset now =>
    obtain rfl := some.inj hstep
    exact h.onConnectionReset now
  | takeReinit k =>
    obtain rfl := some.inj hstep
    exact h.takeReinit k
  | markReinit k =>
    obtain rfl := some.inj hstep
    exact h.markReinit k
  | close =>
    obtain rfl := some.inj hstep
    exact fun k st hst => by cases hst

/-- **No state is left behind.** Where every resync point that is pushed has room beside the queued
control messages, no state in the queue is idle. So the map of states is empty once the queue is
empty, no stream waits and no re-init is left to take. -/
theorem streams_not_idle (cfg : LiveQueueConfig) (ops : List QueueOp)
    (hroom : along (QueueRun.step cfg) (QueueOp.resyncRoom cfg) ops .start = true) :
    ∃ s, QueueRun.start.exec cfg ops = some s ∧
      (∀ k st, s.queue.streams.lookup k = some st → st.idle = false) ∧
      (s.queue.entries = [] → (∀ k, s.queue.isAwaiting k = false) →
        (∀ k st, s.queue.streams.lookup k = some st → st.needsReinit = false) →
        s.queue.streams = ∅) := by
  obtain ⟨s, hexec, hok⟩ := QueueRun.exec_ok (QueueRun.start_ok cfg) ops
  have hinv : s.queue.Ok cfg ∧ s.queue.NoIdle none := by
    refine replay_inv_along (P := fun s => s.queue.Ok cfg ∧ s.queue.NoIdle none)
      (fun s op s' h hop hstep => ?_) ?_ hroom hexec
    · obtain ⟨s₁, hstep₁, hok₁⟩ := QueueRun.step_ok h.1 op
      obtain rfl := some.inj (hstep₁.symm.trans hstep)
      exact ⟨hok₁, QueueRun.noIdle_step h.1 h.2 hop hstep⟩
    · exact ⟨QueueRun.start_ok cfg, fun k st hst => by cases hst⟩
  refine ⟨s, hexec, fun k st hst => ?_, hinv.2.streams_eq_empty hok.booked⟩
  cases hidle : st.idle with
  | false => rfl
  | true => cases hinv.2 k st hst hidle

theorem streams_not_idle_pressure :
    along (QueueRun.step tinyQueue) (QueueOp.resyncRoom tinyQueue) pressureOps .start = true ∧
      ∃ s, QueueRun.start.exec tinyQueue pressureOps = some s ∧
        (∀ k st, s.queue.streams.lookup k = some st → st.idle = false) ∧
        (s.queue.entries = [] → (∀ k, s.queue.isAwaiting k = false) →
          (∀ k st, s.queue.streams.lookup k = some st → st.needsReinit = false) →
          s.queue.streams = ∅) :=
  ⟨by decide, streams_not_idle tinyQueue pressureOps (by decide)⟩

/-- The refused resync point ended the wait of its stream and the state of the stream stays, with
nothing in the queue, no wait and no re-init. -/
theorem refused_resync_leaves_state :
    ∃ s st, QueueRun.start.exec tinyQueue (refusedResyncOps.take 7) = some s ∧
      s.queue.entries = [] ∧ s.queue.streams.lookup ("live", "a") = some st ∧ st.idle = true := by
  have hrun : (QueueRun.start.exec tinyQueue (refusedResyncOps.take 7)).map
      (fun s => (s.queue.entries, s.queue.streams.lookup ("live", "a"))) =
      some ([], some {}) := by decide
  obtain ⟨s, hexec, hs⟩ := map_eq_some_iff.1 hrun
  obtain ⟨hentries, hstate⟩ := Prod.mk.inj hs
  exact ⟨s, {}, hexec, hentries, hstate, rfl⟩

end RtmpServer
