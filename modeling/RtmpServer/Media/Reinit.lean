import RtmpServer.Media.StreamStates

/-!
# Lost codec headers

A receiver that misses a critical frame (codec headers, metadata) needs the init cache of the stream
again. When `make_room` evicts one, the stream is flagged and the flag is announced: first in
`reinit_dirty`, inside the call, then in `reinit_pending`, which `take_reinit` reads before it looks
at the stream (`Announced`).

`owed` follows a run and says whether a re-init of a stream is owed: a critical frame of it was
lost, or it was marked, and no take has returned true since. When one is owed a take returns true,
except after a critical frame that was refused: one that is too large, or that finds the queue full
of control messages, is lost without the flag.
-/

namespace RtmpServer

open Lib.Replay

def QueueEntry.criticalOf (k : StreamKey) (e : QueueEntry) : Bool :=
  e.names = some k && e.kind = .media .critical

def QueueEvent.losesHeader (k : StreamKey) : QueueEvent → Bool
  | .lost e => e.criticalOf k
  | _ => false

theorem QueueEntry.criticalOf_of_kind {e : QueueEntry} (k : StreamKey)
    (h : e.kind ≠ .media .critical) : e.criticalOf k = false := by
  simp [QueueEntry.criticalOf, h]

namespace LiveQueue

variable {q q' q₁ : LiveQueue} {k : StreamKey}
variable {cfg : LiveQueueConfig} {e : QueueEntry} {f : StreamState → StreamState} {room : Prop}
  {now : Nat}

def lostHeaders (q : LiveQueue) (k : StreamKey) : Nat := q.events.countP (QueueEvent.losesHeader k)

def needsReinit (q : LiveQueue) (k : StreamKey) : Bool := q.read StreamState.needsReinit k

theorem needsReinit_eq_true :
    q.needsReinit k ↔ ∃ st, q.streams.lookup k = some st ∧ st.needsReinit = true := by
  rw [needsReinit, read]
  cases q.streams.lookup k <;> simp

/-! ### Steps that leave the flags alone -/

structure SameFlags (q q' : LiveQueue) : Prop where
  needs : ∀ k, q'.needsReinit k = q.needsReinit k
  lost : ∀ k, q'.lostHeaders k = q.lostHeaders k
  dirty : q'.reinitDirty = q.reinitDirty
  pending : q'.reinitPending = q.reinitPending

theorem SameFlags.refl (q : LiveQueue) : SameFlags q q :=
  ⟨fun _ => rfl, fun _ => rfl, rfl, rfl⟩

theorem SameFlags.trans (h : SameFlags q q₁) (h' : SameFlags q₁ q') : SameFlags q q' :=
  ⟨fun k => (h'.needs k).trans (h.needs k), fun k => (h'.lost k).trans (h.lost k),
    h'.dirty.trans h.dirty, h'.pending.trans h.pending⟩

theorem SameFlags.modifyState (h : SameFlags q q') (k : StreamKey)
    (hf : ∀ st, (f st).needsReinit = st.needsReinit) : SameFlags q (q'.modifyState k f) :=
  ⟨fun j => (q'.read_modifyState_of_eq k j hf).trans (h.needs j), h.lost, h.dirty, h.pending⟩

theorem SameFlags.modifyExisting (h : SameFlags q q') (k : StreamKey)
    (hf : ∀ st, (f st).needsReinit = st.needsReinit) : SameFlags q (q'.modifyExisting k f) := by
  obtain ⟨_, heq⟩ := q'.modifyExisting_eq k f
  refine ⟨fun j => (q'.read_modifyExisting_of_eq k j hf).trans (h.needs j), ?_, ?_, ?_⟩
  · rw [heq]
    exact h.lost
  · rw [heq]
    exact h.dirty
  · rw [heq]
    exact h.pending

theorem SameFlags.pruneIdle (h : SameFlags q q') (k : StreamKey) :
    SameFlags q (q'.pruneIdle k) := by
  obtain ⟨_, heq⟩ := q'.pruneIdle_eq k
  refine ⟨fun j => ?_, ?_, ?_, ?_⟩
  · exact (q'.read_pruneIdle k j fun _ => StreamState.needsReinit_of_idle).trans (h.needs j)
  · rw [heq]
    exact h.lost
  · rw [heq]
    exact h.dirty
  · rw [heq]
    exact h.pending

theorem SameFlags.accountRemoved (h : SameFlags q q') (e : QueueEntry) :
    SameFlags q (q'.accountRemoved e) := by
  obtain ⟨_, _, heq⟩ := q'.accountRemoved_eq e
  refine ⟨fun j => ?_, ?_, ?_, ?_⟩
  · exact (q'.read_accountRemoved e j (fun _ => StreamState.needsReinit_of_idle) fun _ => rfl).trans
      (h.needs j)
  · rw [heq]
    exact h.lost
  · rw [heq]
    exact h.dirty
  · rw [heq]
    exact h.pending

theorem lostHeaders_countDrop (q : LiveQueue) (e : QueueEntry) (reason : Reason) (k : StreamKey) :
    (q.countDrop e reason).lostHeaders k =
      q.lostHeaders k + if e.criticalOf k = true then 1 else 0 := by
  show (QueueEvent.lost e :: q.events).countP _ = _
  rw [List.countP_cons]
  rfl

theorem SameFlags.discard (h : SameFlags q q') (kept : List QueueEntry) {removed : List QueueEntry}
    (hremoved : ∀ e ∈ removed, e.kind ≠ .media .critical) (reason : Reason) :
    SameFlags q (q'.discard kept removed reason) := by
  have hstart : SameFlags q { q' with entries := kept } := ⟨h.needs, h.lost, h.dirty, h.pending⟩
  rw [LiveQueue.discard]
  generalize { q' with entries := kept } = q₁ at hstart
  induction removed generalizing q₁ with
  | nil => exact hstart
  | cons e removed ih =>
    have hdrop : SameFlags q (q₁.countDrop e reason) := by
      refine ⟨hstart.needs, fun k => ?_, hstart.dirty, hstart.pending⟩
      rw [lostHeaders_countDrop, hstart.lost,
        QueueEntry.criticalOf_of_kind k (hremoved e List.mem_cons_self)]
      rfl
    exact ih (fun x hx => hremoved x (List.mem_cons_of_mem _ hx)) _ (hdrop.accountRemoved e)

theorem not_critical_of_mem_filter {l : List QueueEntry} :
    ∀ e ∈ l.filter (·.evictableOf k), e.kind ≠ .media .critical := by
  intro e he hkind
  have hev := (List.mem_filter.1 he).2
  simp [QueueEntry.evictableOf, hkind, Kind.evictable] at hev

theorem sameFlags_purgeStream (q : LiveQueue) (k : StreamKey) (reason : Reason) :
    SameFlags q (q.purgeStream k reason) :=
  (SameFlags.refl q).discard _ not_critical_of_mem_filter reason

theorem sameFlags_purge (q : LiveQueue) (k : StreamKey) (reason : Reason) (now : Nat) :
    SameFlags q ((q.purgeStream k reason).modifyState k (StreamState.await now)) :=
  (q.sameFlags_purgeStream k reason).modifyState k fun _ => rfl

theorem sameFlags_enforceAgeOn (q : LiveQueue) (now : Nat) (cfg : LiveQueueConfig) (k : StreamKey) :
    SameFlags q (q.enforceAgeOn now cfg k) := by
  obtain heq | ⟨before, r, rest, q₁, q₂, -, -, -, rfl, hq₂, heq⟩ := q.enforceAgeOn_cases now cfg k
  · rw [heq]
    have hpurged := q.sameFlags_purgeStream k .stale
    exact (hpurged.modifyState k (f := StreamState.await now) fun _ => rfl).pruneIdle k
  · rw [heq]
    have hpurged : SameFlags q (q.discard (before.filter (!·.evictableOf k) ++ r :: rest)
        (before.filter (·.evictableOf k)) .stale) :=
      (SameFlags.refl q).discard _ not_critical_of_mem_filter .stale
    have hcounted : SameFlags q q₂ := by
      rcases hq₂ with rfl | rfl
      · exact hpurged
      · exact ⟨hpurged.needs, hpurged.lost, hpurged.dirty, hpurged.pending⟩
    exact (hcounted.modifyExisting k (f := StreamState.resume) fun _ => rfl).pruneIdle k

theorem UpkeepStep.sameFlags (h : UpkeepStep now cfg q q') : SameFlags q q' := by
  cases h with
  | age k => exact q.sameFlags_enforceAgeOn now cfg k
  | release k =>
    rw [releaseWait]
    refine SameFlags.pruneIdle (SameFlags.modifyExisting ?_ k (f := StreamState.resume) fun _ => rfl) k
    exact ⟨fun _ => rfl, fun k => by simp [lostHeaders, QueueEvent.losesHeader], rfl, rfl⟩
  | supersede k => exact q.sameFlags_purgeStream k .stale
  | note => exact ⟨fun _ => rfl, fun _ => rfl, rfl, rfl⟩

theorem Upkeep.sameFlags (h : Upkeep now cfg q q') : SameFlags q q' := by
  induction h with
  | refl => exact .refl q
  | tail _ hstep ih => exact ih.trans hstep.sameFlags

theorem Resumed.sameFlags (h : Resumed e q q') : SameFlags q q' := by
  rcases h with rfl | ⟨k, -, -, -, rfl⟩
  · exact .refl q'
  · have := (SameFlags.refl q).modifyExisting k (f := StreamState.resume) fun _ => rfl
    exact ⟨this.needs, this.lost, this.dirty, this.pending⟩

/-! ### Steps that flag what they lose -/

/-- A stream needs a re-init afterwards if it did before or lost a critical frame, and what needs one
is still noted, in one flag or the other. -/
structure Flagging (q q' : LiveQueue) : Prop where
  lost_le : ∀ k, q.lostHeaders k ≤ q'.lostHeaders k
  needs : ∀ k, q'.needsReinit k = (q.needsReinit k || decide (q.lostHeaders k < q'.lostHeaders k))
  noted : (∀ k, q.needsReinit k = true → q.reinitPending = true ∨ q.reinitDirty = true) →
    ∀ k, q'.needsReinit k = true → q'.reinitPending = true ∨ q'.reinitDirty = true

theorem SameFlags.flagging (h : SameFlags q q') : Flagging q q' where
  lost_le k := (h.lost k).ge
  needs k := by simp [h.needs k, h.lost k]
  noted hnoted k hk := by
    rw [h.pending, h.dirty]
    exact hnoted k ((h.needs k).symm.trans hk)

theorem Flagging.trans (h : Flagging q q₁) (h' : Flagging q₁ q') : Flagging q q' where
  lost_le k := (h.lost_le k).trans (h'.lost_le k)
  needs k := by
    have hle := h.lost_le k
    have hle' := h'.lost_le k
    rw [h'.needs, h.needs, Bool.or_assoc, ← Bool.decide_or]
    congr 2
    rw [eq_iff_iff]
    omega
  noted hnoted := h'.noted (h.noted hnoted)

theorem flagging_evictCritical (q : LiveQueue) (rest : List QueueEntry)
    (hcritical : e.kind = .media .critical) : Flagging q (q.evictCritical rest e) := by
  obtain ⟨k, hnames⟩ := names_of_critical hcritical
  set q₁ : LiveQueue := { q with entries := rest }.countDrop e .pressure with hq₁
  set q₂ : LiveQueue := { q₁.modifyState k (fun st => { st with needsReinit := true }) with
    reinitDirty := true } with hq₂
  have hsame : SameFlags q₂ (q.evictCritical rest e) := by
    rw [evictCritical, hnames]
    exact (SameFlags.refl q₂).accountRemoved e
  have hlost : ∀ j, q₂.lostHeaders j = q.lostHeaders j + if j = k then 1 else 0 := by
    intro j
    have hcount : q₁.lostHeaders j = q.lostHeaders j + if e.criticalOf j = true then 1 else 0 :=
      lostHeaders_countDrop { q with entries := rest } e .pressure j
    refine hcount.trans ?_
    simp [QueueEntry.criticalOf, hnames, hcritical, eq_comm]
  have hneeds : ∀ j, q₂.needsReinit j = (q.needsReinit j || decide (j = k)) := by
    intro j
    show (q₁.modifyState k fun st => { st with needsReinit := true }).read
      StreamState.needsReinit j = _
    rw [read_modifyState]
    by_cases hj : j = k
    · simp [hj]
    · rw [if_neg hj, decide_eq_false hj, Bool.or_false]
      rfl
  have hflag : Flagging q q₂ := by
    refine ⟨fun j => ?_, fun j => ?_, fun _ j _ => .inr rfl⟩
    · rw [hlost]
      exact Nat.le_add_right _ _
    · rw [hneeds, hlost]
      by_cases hj : j = k <;> simp [hj]
  exact hflag.trans hsame.flagging

theorem Evicted.flagging {size now : Nat} (h : Evicted size now cfg q q') : Flagging q q' := by
  induction h with
  | refl => exact (SameFlags.refl q).flagging
  | @tail q₁ q₂ _ hstep ih =>
    refine ih.trans ?_
    cases hstep with
    | stream k => exact (q₁.sameFlags_purge k .pressure now).flagging
    | critical before e after _ _ _ _ hcritical => exact q₁.flagging_evictCritical _ hcritical

theorem flagging_publishReinit (q : LiveQueue) : Flagging q q.publishReinit := by
  refine ⟨fun k => le_rfl, fun k => ?_, fun hnoted k hk => .inl ?_⟩
  · simp [lostHeaders, publishReinit, needsReinit, read]
  · rcases hnoted k hk with h | h <;> simp [publishReinit, h]

theorem flagging_enqueue (q : LiveQueue) (e : QueueEntry) : Flagging q (q.enqueue e) := by
  have hlost : ∀ k, (q.enqueue e).lostHeaders k = q.lostHeaders k := fun k => by
    rw [lostHeaders, (q.enqueue_eq e).2.1, lostHeaders]
  have hneeds : ∀ k, (q.enqueue e).needsReinit k = q.needsReinit k := by
    intro k
    rw [enqueue]
    cases e.names with
    | none => rfl
    | some j => exact q.read_modifyState_of_eq j k (f := StreamState.addFrame e) fun _ => rfl
  refine ⟨fun k => (hlost k).ge, fun k => by simp [hneeds, hlost], fun hnoted k hk => ?_⟩
  rw [hneeds] at hk
  rw [enqueue]
  cases e.names with
  | none => exact hnoted k hk
  | some j =>
    refine (hnoted k hk).imp (fun h => ?_) id
    show (q.reinitPending || _) = true
    rw [h, Bool.true_or]

/-! ### Between calls -/

structure Announced (q : LiveQueue) : Prop where
  clean : q.reinitDirty = false
  pending : ∀ k, q.needsReinit k = true → q.reinitPending = true

theorem Announced.flagging (h : q.Announced) (hf : Flagging q q') (hclean : q'.reinitDirty = false) :
    q'.Announced := by
  refine ⟨hclean, fun k hk => ?_⟩
  rcases hf.noted (fun k hk => .inl (h.pending k hk)) k hk with hp | hd
  · exact hp
  · rw [hclean] at hd
    cases hd

theorem Announced.same (h : q.Announced) (hs : SameFlags q q') : q'.Announced :=
  h.flagging hs.flagging (hs.dirty.trans h.clean)

theorem Announced.congr (h : q.Announced) (hstreams : q'.streams = q.streams)
    (hdirty : q'.reinitDirty = q.reinitDirty) (hpending : q'.reinitPending = q.reinitPending) :
    q'.Announced := by
  refine ⟨hdirty.trans h.clean, fun k hk => hpending.trans (h.pending k ?_)⟩
  rw [← hk, needsReinit, needsReinit, read, read, hstreams]

/-- A critical frame of the stream is not larger than half the queue, and there is room for it
beside the control messages that are queued. -/
def HeaderRoom (cfg : LiveQueueConfig) (k : StreamKey) (q : LiveQueue) (msg : MediaMessage) : Prop :=
  msg.kind = .media .critical → msg.names = some k →
    msg.approxSize ≤ cfg.maxBytes / 2 ∧ RoomBeside cfg q msg.approxSize

structure Reports (k : StreamKey) (room : Prop) (q q' : LiveQueue) : Prop where
  announced : q'.Announced
  only : q'.needsReinit k = true → q.needsReinit k = true ∨ q.lostHeaders k < q'.lostHeaders k
  kept : q.needsReinit k = true → q'.needsReinit k = true
  flagged : room → q.lostHeaders k < q'.lostHeaders k → q'.needsReinit k = true

theorem Flagging.reports (h : Flagging q q') (k : StreamKey) (ha : q'.Announced) :
    Reports k room q q' := by
  have hneeds := h.needs k
  refine ⟨ha, fun hk => ?_, fun hk => ?_, fun _ hlost => ?_⟩
  · rw [hk] at hneeds
    simpa using hneeds.symm
  · rw [hneeds, hk, Bool.true_or]
  · rw [hneeds, decide_eq_true hlost, Bool.or_true]

/-- A frame that is refused at the end is not flagged; with room it is not a critical one of the
stream. -/
theorem Flagging.reports_refused (h : Flagging q q₁) (hstreams : q'.streams = q₁.streams)
    (hlost : q'.lostHeaders k = q₁.lostHeaders k + if e.criticalOf k = true then 1 else 0)
    (hroom : room → e.criticalOf k = false) (ha : q'.Announced) : Reports k room q q' := by
  have hsame : q'.needsReinit k = q₁.needsReinit k := by
    rw [needsReinit, needsReinit, read, read, hstreams]
  have hneeds := h.needs k
  have hle := h.lost_le k
  refine ⟨ha, fun hk => ?_, fun hk => ?_, fun hr hlt => ?_⟩
  · rw [← hsame, hk, eq_comm, Bool.or_eq_true, decide_eq_true_eq] at hneeds
    refine hneeds.imp id fun hlt => ?_
    rw [hlost]
    omega
  · rw [hsame, hneeds, hk, Bool.true_or]
  · rw [hlost, hroom hr] at hlt
    rw [hsame, hneeds, decide_eq_true (by simpa using hlt), Bool.or_true]

/-- What is owed after a step that takes and marks nothing: what was owed before, or a header that the
step has lost. -/
theorem Reports.owed {k : StreamKey} (hr : Reports k room q q') (b : Bool) :
    ((q.needsReinit k → b) → q'.needsReinit k →
      (b || decide (q.lostHeaders k < q'.lostHeaders k)) = true) ∧
      ((b → q.needsReinit k) → room →
        (b || decide (q.lostHeaders k < q'.lostHeaders k)) = true → q'.needsReinit k) := by
  rw [Bool.or_eq_true, decide_eq_true_eq]
  refine ⟨fun hb hk => (hr.only hk).imp hb id, fun hb hroom howed => ?_⟩
  rcases howed with howed | hlt
  · exact hr.kept (hb howed)
  · exact hr.flagged hroom hlt

theorem Announced.pushing {r : PushResult} (h : q.Announced) (hq : q.Booked q.entries)
    (hp : Pushing cfg q e r q') (k : StreamKey) : Reports k (HeaderRoom cfg k q e.msg) q q' := by
  have hcritical : e.criticalOf k = true → e.kind = .media .critical ∧ e.names = some k := by
    intro he
    simp only [QueueEntry.criticalOf, Bool.and_eq_true, decide_eq_true_eq] at he
    exact he.symm
  have hdroppable : e.kind = .media .droppable → e.criticalOf k = false := fun hkind =>
    QueueEntry.criticalOf_of_kind k (by simp [hkind])
  cases hp with
  | closed => exact (SameFlags.refl q).flagging.reports k h
  | oversized hsize =>
    refine (SameFlags.refl q).flagging.reports_refused (e := e) rfl ?_ (fun hroom => ?_)
      (h.congr rfl rfl rfl)
    · show List.countP _ (_ :: q.events) = _
      rw [List.countP_cons]
      cases hmedia : e.kind.isMedia with
      | true => rfl
      | false =>
        have : e.criticalOf k = false :=
          QueueEntry.criticalOf_of_kind k fun hkind => by simp [hkind, Kind.isMedia] at hmedia
        simp [this, QueueEvent.losesHeader, lostHeaders]
    · by_contra he
      obtain ⟨hkind, hnames⟩ := hcritical (by simpa using he)
      have hsmall : e.size ≤ cfg.maxBytes / 2 := (hroom hkind hnames).1
      rw [hkind, pushLimit] at hsize
      omega
  | awaiting _ hupkeep _ hdrop =>
    have hsame := hupkeep.sameFlags
    exact hsame.flagging.reports_refused (e := e) rfl (lostHeaders_countDrop _ e .pressure k)
      (fun _ => hdroppable hdrop) ((h.same hsame).congr rfl rfl rfl)
  | @crowdedOut q₁ q₂ _ hupkeep hevicted _ hdrop =>
    have hflag := (hupkeep.sameFlags.flagging.trans hevicted.flagging).trans q₂.flagging_publishReinit
    exact hflag.reports_refused (e := e) rfl (lostHeaders_countDrop _ e .pressure k)
      (fun _ => hdroppable hdrop) ((h.flagging hflag rfl).congr rfl rfl rfl)
  | @full q₁ q₂ q₃ hupkeep hresumed hevicted hfull hcontrol =>
    have hflag := ((hupkeep.sameFlags.trans hresumed.sameFlags).flagging.trans
      hevicted.flagging).trans q₃.flagging_publishReinit
    have ha := h.flagging hflag rfl
    cases hmedia : e.kind.isMedia with
    | false =>
      simp only [Bool.false_eq_true, if_false]
      exact hflag.reports k ha
    | true =>
      simp only [if_true]
      refine hflag.reports_refused (e := e) rfl (lostHeaders_countDrop _ e .pressure k)
        (fun hroom => ?_) (ha.congr rfl rfl rfl)
      by_contra he
      obtain ⟨hkind, hnames⟩ := hcritical (by simpa using he)
      have hbeside : RoomBeside cfg q e.size := (hroom hkind hnames).2
      rw [hbeside.fits hq hupkeep.maintained hresumed hevicted.maintained hcontrol] at hfull
      cases hfull
  | @queued q₁ q₂ q₃ q₄ hupkeep hresumed hevicted hagain =>
    have hflag₃ := ((hupkeep.sameFlags.trans hresumed.sameFlags).flagging.trans
      hevicted.flagging).trans q₃.flagging_publishReinit
    have hflag := (hflag₃.trans hagain.sameFlags.flagging).trans (q₄.flagging_enqueue e)
    have hclean : (q₄.enqueue e).reinitDirty = false := by
      have hq₄ : q₄.reinitDirty = false := hagain.sameFlags.dirty
      rw [enqueue]
      cases e.names <;> exact hq₄
    exact hflag.reports k (h.flagging hflag hclean)

theorem Popping.sameFlags {e : Option QueueEntry} (h : Popping now cfg q e q') :
    SameFlags q q' := by
  cases h with
  | closed => exact .refl q
  | empty hupkeep => exact hupkeep.sameFlags
  | @head q₁ e rest hupkeep =>
    refine hupkeep.sameFlags.trans (SameFlags.accountRemoved ?_ e)
    exact ⟨fun _ => rfl, fun k => by simp [lostHeaders, QueueEvent.losesHeader], rfl, rfl⟩

theorem sameFlags_onConnectionReset (q : LiveQueue) (now : Nat) :
    SameFlags q (q.onConnectionReset now) := by
  refine onConnectionReset_inv (P := SameFlags q) ?_ (.refl q)
  intro q' k hq'
  exact hq'.trans (q'.sameFlags_purge k .stale now)

theorem Announced.takeReinit (h : q.Announced) (k : StreamKey) :
    (q.takeReinit k).1 = q.needsReinit k ∧ (q.takeReinit k).2.Announced ∧
      ∀ j, (q.takeReinit k).2.needsReinit j = (decide (j ≠ k) && q.needsReinit j) := by
  rw [LiveQueue.takeReinit]
  by_cases hpending : q.reinitPending = true
  · rw [if_pos hpending]
    dsimp only
    set q₁ := q.modifyExisting k (fun st => { st with needsReinit := false }) with hq₁
    set q₂ : LiveQueue := { q₁ with reinitPending := q₁.streams.entries.any (·.2.needsReinit) }
      with hq₂
    have hsame : SameFlags q₂ (q₂.pruneIdle k) := (SameFlags.refl q₂).pruneIdle k
    have hneeds : ∀ j, q₁.needsReinit j = (decide (j ≠ k) && q.needsReinit j) := by
      intro j
      have hreset : ∀ st : StreamState,
          ({ st with needsReinit := false } : StreamState).needsReinit =
            StreamState.needsReinit {} := fun _ => rfl
      refine (q.read_modifyExisting_reset k j hreset).trans ?_
      by_cases hj : j = k <;> simp [hj, needsReinit]
    refine ⟨?_, Announced.same ⟨?_, fun j hj => ?_⟩ hsame, fun j => (hsame.needs j).trans (hneeds j)⟩
    · rw [needsReinit, read]
      cases q.streams.lookup k <;> rfl
    · obtain ⟨_, heq⟩ := q.modifyExisting_eq k fun st => { st with needsReinit := false }
      rw [hq₂, hq₁, heq]
      exact h.clean
    · obtain ⟨st, hst, hneeds⟩ := needsReinit_eq_true.1 hj
      exact List.any_eq_true.2 ⟨⟨j, st⟩, AList.mem_lookup_iff.1 hst, hneeds⟩
  · rw [if_neg hpending]
    have hnone : ∀ j, q.needsReinit j = false := fun j => by
      by_contra hj
      exact hpending (h.pending j (by simpa using hj))
    exact ⟨(hnone k).symm, h, fun j => by simp [hnone]⟩

theorem Announced.markReinit (h : q.Announced) (k : StreamKey) :
    (q.markReinit k).Announced ∧
      ∀ j, (q.markReinit k).needsReinit j = (q.needsReinit j || decide (j = k)) := by
  refine ⟨⟨h.clean, fun _ _ => rfl⟩, fun j => ?_⟩
  show (q.modifyState k fun st => { st with needsReinit := true }).read
    StreamState.needsReinit j = _
  rw [read_modifyState]
  by_cases hj : j = k
  · simp [hj]
  · rw [if_neg hj, decide_eq_false hj, Bool.or_false]
    rfl

end LiveQueue

/-! ### Runs -/

instance (cfg : LiveQueueConfig) (k : StreamKey) (q : LiveQueue) (msg : MediaMessage) :
    Decidable (LiveQueue.HeaderRoom cfg k q msg) :=
  inferInstanceAs (Decidable (_ → _ → _))

def QueueOp.headerRoom (cfg : LiveQueueConfig) (k : StreamKey) (s : QueueRun) : QueueOp → Bool
  | .push msg _ => LiveQueue.HeaderRoom cfg k s.queue msg
  | _ => true

/-- Whether a re-init of the stream is owed after a call, if `owed` says so before it. -/
def owedAfter (k : StreamKey) (owed : Bool) (s s' : QueueRun) : QueueOp → Bool
  | .markReinit j => owed || j = k
  | .takeReinit j => owed && !(j = k && (s.queue.takeReinit j).1)
  | _ => owed || s.queue.lostHeaders k < s'.queue.lostHeaders k

/-- Whether a re-init of the stream is owed at the end of a run: a critical frame of it was lost or
it was marked, and no take of it has returned true since. -/
def owed (cfg : LiveQueueConfig) (k : StreamKey) : List QueueOp → QueueRun → Bool → Bool
  | [], _, b => b
  | op :: ops, s, b =>
    (s.step cfg op).elim b fun s' => owed cfg k ops s' (owedAfter k b s s' op)

open LiveQueue in
theorem QueueRun.reinit_step {cfg : LiveQueueConfig} {s s' : QueueRun} {op : QueueOp}
    (hok : s.queue.Ok cfg) (h : s.queue.Announced) (hop : op ≠ .close)
    (hstep : s.step cfg op = some s') (k : StreamKey) (b : Bool) :
    s'.queue.Announced ∧
      ((s.queue.needsReinit k → b) → s'.queue.needsReinit k →
        owedAfter k b s s' op) ∧
      ((b → s.queue.needsReinit k) → op.headerRoom cfg k s →
        owedAfter k b s s' op → s'.queue.needsReinit k) := by
  cases op with
  | push msg now =>
    obtain ⟨r, q', hpush, hpushing⟩ := pushAt_steps hok.booked cfg ⟨s.pushes.length, msg, now⟩
    rw [QueueRun.step, hpush] at hstep
    obtain rfl := Option.some.inj hstep
    have hr := h.pushing hok.booked hpushing k
    obtain ⟨honly, hflagged⟩ := hr.owed b
    exact ⟨hr.announced, honly, fun hb hroom => hflagged hb (of_decide_eq_true hroom)⟩
  | pop now =>
    obtain rfl := Option.some.inj hstep
    have hsame := (s.queue.popAt_steps cfg now).sameFlags
    have hr : Reports k True s.queue _ := hsame.flagging.reports k (h.same hsame)
    obtain ⟨honly, hflagged⟩ := hr.owed b
    exact ⟨hr.announced, honly, fun hb _ => hflagged hb trivial⟩
  | connectionReset now =>
    obtain rfl := Option.some.inj hstep
    have hsame := s.queue.sameFlags_onConnectionReset now
    have hr : Reports k True s.queue _ := hsame.flagging.reports k (h.same hsame)
    obtain ⟨honly, hflagged⟩ := hr.owed b
    exact ⟨hr.announced, honly, fun hb _ => hflagged hb trivial⟩
  | takeReinit j =>
    obtain rfl := Option.some.inj hstep
    obtain ⟨hanswer, hann, hneeds⟩ := h.takeReinit j
    refine ⟨hann, fun hb hk => ?_, fun hb _ howed => ?_⟩
    · have hk := (hneeds k).symm.trans hk
      rw [Bool.and_eq_true, decide_eq_true_eq] at hk
      simp [owedAfter, hb hk.2, Ne.symm hk.1]
    · rw [owedAfter, hanswer, Bool.and_eq_true] at howed
      have hk := hb howed.1
      have hne : k ≠ j := by
        rintro rfl
        simp [hk] at howed
      exact (hneeds k).trans (by simp [hne, hk])
  | markReinit j =>
    obtain rfl := Option.some.inj hstep
    obtain ⟨hann, hneeds⟩ := h.markReinit j
    refine ⟨hann, fun hb hk => ?_, fun hb _ howed => ?_⟩
    · have hk := (hneeds k).symm.trans hk
      rw [Bool.or_eq_true, decide_eq_true_eq] at hk
      rcases hk with hk | rfl
      · simp [owedAfter, hb hk]
      · simp [owedAfter]
    · refine (hneeds k).trans ?_
      rw [owedAfter, Bool.or_eq_true, decide_eq_true_eq] at howed
      rcases howed with hb' | rfl
      · rw [hb hb', Bool.true_or]
      · simp
  | close => exact absurd rfl hop

/-- **Lost codec headers are repaired.** A take of a stream returns true only if a re-init of it is
owed. If every critical frame of the stream that was pushed had room beside the control messages, a
take returns true whenever one is owed. -/
theorem lost_headers_repaired (cfg : LiveQueueConfig) (ops : List QueueOp) (k : StreamKey)
    (hopen : .close ∉ ops) :
    ∃ s, QueueRun.start.exec cfg ops = some s ∧
      ((s.queue.takeReinit k).1 = true → owed cfg k ops .start false = true) ∧
      (along (QueueRun.step cfg) (QueueOp.headerRoom cfg k) ops .start = true →
        owed cfg k ops .start false = true → (s.queue.takeReinit k).1 = true) := by
  suffices h : ∀ (s : QueueRun) (b : Bool), s.queue.Ok cfg → s.queue.Announced →
      ∃ s', s.exec cfg ops = some s' ∧ s'.queue.Announced ∧
        ((s.queue.needsReinit k = true → b = true) → s'.queue.needsReinit k = true →
          owed cfg k ops s b = true) ∧
        ((b = true → s.queue.needsReinit k = true) →
          along (QueueRun.step cfg) (QueueOp.headerRoom cfg k) ops s = true →
          owed cfg k ops s b = true → s'.queue.needsReinit k = true) by
    obtain ⟨s, hexec, hann, honly, hflagged⟩ :=
      h .start false (QueueRun.start_ok cfg) ⟨rfl, fun k hk => by cases hk⟩
    obtain ⟨hanswer, -⟩ := hann.takeReinit k
    rw [hanswer.symm] at honly hflagged
    exact ⟨s, hexec, honly (fun hk => (by cases hk)), hflagged (fun hb => (by cases hb))⟩
  induction ops with
  | nil =>
    intro s b _ hann
    exact ⟨s, rfl, hann, fun hb hk => hb hk, fun hb _ howed => hb howed⟩
  | cons op ops ih =>
    intro s b hok hann
    obtain ⟨hop, hrest⟩ := not_or.1 (List.mem_cons.not.1 hopen)
    obtain ⟨s₁, hstep, hok₁⟩ := QueueRun.step_ok hok op
    obtain ⟨hann₁, honly₁, hflagged₁⟩ :=
      QueueRun.reinit_step hok hann (Ne.symm hop) hstep k b
    obtain ⟨s', hexec, hann', honly, hflagged⟩ := ih hrest s₁ (owedAfter k b s s₁ op) hok₁ hann₁
    have howed : owed cfg k (op :: ops) s b = owed cfg k ops s₁ (owedAfter k b s s₁ op) := by
      rw [owed, hstep]
      rfl
    refine ⟨s', by rw [QueueRun.exec, List.foldlM_cons, hstep]; exact hexec, hann', fun hb => ?_,
      fun hb hroom => ?_⟩
    · rw [howed]
      exact honly (honly₁ hb)
    · rw [along, hstep, Option.all_some, Bool.and_eq_true] at hroom
      rw [howed]
      exact hflagged (hflagged₁ hb hroom.1) hroom.2

def headerOps : List QueueOp :=
  [.push (smallFrame .critical 1) 0, .push (smallFrame .critical 2) 0,
    .push (smallFrame .critical 3) 0]

theorem lost_headers_repaired_evicted :
    ∃ s, QueueRun.start.exec tinyQueue headerOps = some s ∧
      owed tinyQueue ("live", "a") headerOps .start false = true ∧
      (s.queue.takeReinit ("live", "a")).1 = true := by
  obtain ⟨s, hexec, -, hflagged⟩ :=
    lost_headers_repaired tinyQueue headerOps ("live", "a") (by decide)
  exact ⟨s, hexec, by decide, hflagged (by decide) (by decide)⟩

/-- Two control messages fill the queue, so a critical frame is refused. It is lost, and the take
after it returns false. -/
theorem refused_header_not_flagged :
    ∃ s, QueueRun.start.exec tinyQueue
        [.push .authOk 0, .push .authOk 0, .push (smallFrame .critical 1) 0] = some s ∧
      s.pushes.getLast?.map Prod.snd = some (.dropped .full) ∧
      s.queue.lostHeaders ("live", "a") = 1 ∧ (s.queue.takeReinit ("live", "a")).1 = false := by
  have hrun : (QueueRun.start.exec tinyQueue
      [.push .authOk 0, .push .authOk 0, .push (smallFrame .critical 1) 0]).map
      (fun s => (s.pushes.getLast?.map Prod.snd, s.queue.lostHeaders ("live", "a"),
        (s.queue.takeReinit ("live", "a")).1)) = some (some (.dropped .full), 1, false) := by decide
  obtain ⟨s, hexec, hs⟩ := Option.map_eq_some_iff.1 hrun
  simp only [Prod.mk.injEq] at hs
  exact ⟨s, hexec, hs⟩

end RtmpServer
