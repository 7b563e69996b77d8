import RtmpServer.Lib.Assoc
import RtmpServer.Lib.Split
import RtmpServer.Media.LiveQueue
import Mathlib.Algebra.Order.BigOperators.Group.List
import Mathlib.Algebra.Order.Group.Nat

/-!
# The books of the live queue

The queue keeps the number of queued bytes, and for every stream the number of its queued frames and
the bytes of those that can be evicted. `Booked` says that these are the numbers of a list of
entries, and `Counted` that the drop counters are those of the log.

A push or a pop first changes the queue in steps of four kinds (`QueueChange`). Each keeps the books
and the counters (`Maintenance`), so what the later modules need to know of a push is what it does
in the end and that maintenance came before.
-/

namespace RtmpServer

open List Lib.Split Bool Option

variable {st : StreamState}

theorem StreamState.awaiting_of_idle (h : st.idle) : st.awaitingSince.isSome = false := by
  simp only [StreamState.idle, and_eq_true, isNone_iff_eq_none] at h
  simp [h.1.1]

theorem StreamState.awaitingSince_of_idle (h : st.idle) : st.awaitingSince = none := by
  simpa using StreamState.awaiting_of_idle h

theorem StreamState.needsReinit_of_idle (h : st.idle) : st.needsReinit = false := by
  simp only [StreamState.idle, and_eq_true] at h
  simpa using h.2

theorem StreamState.queuedFrames_of_idle (h : st.idle) : st.queuedFrames = 0 := by
  simp only [StreamState.idle, and_eq_true, decide_eq_true_eq] at h
  exact h.1.2

namespace LiveQueue

variable {f : StreamState → StreamState}

/-! ### What the writes to a stream's state do -/

@[grind =] theorem lookup_modifyState (q : LiveQueue) (k j : StreamKey)
    (f : StreamState → StreamState) :
    (q.modifyState k f).streams.lookup j =
      if j = k then some (f ((q.streams.lookup k).getD {})) else q.streams.lookup j :=
  Lib.Assoc.lookup_insert _ _ _ _

@[grind =] theorem lookup_modifyExisting (q : LiveQueue) (k j : StreamKey)
    (f : StreamState → StreamState) :
    (q.modifyExisting k f).streams.lookup j =
      if j = k then (q.streams.lookup k).map f else q.streams.lookup j := by
  cases hst : q.streams.lookup k <;> grind [modifyExisting]

@[grind =] theorem lookup_pruneIdle (q : LiveQueue) (k j : StreamKey) :
    (q.pruneIdle k).streams.lookup j =
      if j = k then (q.streams.lookup k).filter (!·.idle) else q.streams.lookup j := by
  cases hst : q.streams.lookup k <;> grind [pruneIdle]

/-- What `φ` reads off the state of a stream. A stream without a state reads as a fresh one. -/
def read {β : Type} (φ : StreamState → β) (q : LiveQueue) (k : StreamKey) : β :=
  φ ((q.streams.lookup k).getD {})

section Read

variable {β : Type} {φ : StreamState → β} (q : LiveQueue) (k j : StreamKey)
  {f : StreamState → StreamState}

theorem read_modifyState :
    (q.modifyState k f).read φ j =
      if j = k then φ (f ((q.streams.lookup k).getD {})) else q.read φ j := by
  grind [read]

theorem read_modifyState_of_eq (hf : ∀ st, φ (f st) = φ st) :
    (q.modifyState k f).read φ j = q.read φ j := by
  grind [read]

theorem read_modifyExisting_of_eq (hf : ∀ st, φ (f st) = φ st) :
    (q.modifyExisting k f).read φ j = q.read φ j := by
  cases hst : q.streams.lookup k <;> grind [read]

theorem read_modifyExisting_reset (hf : ∀ st, φ (f st) = φ {}) :
    (q.modifyExisting k f).read φ j = if j = k then φ {} else q.read φ j := by
  cases hst : q.streams.lookup k <;> grind [read]

theorem read_pruneIdle (hφ : ∀ st, st.idle → φ st = φ {}) :
    (q.pruneIdle k).read φ j = q.read φ j := by
  cases hst : q.streams.lookup k <;> grind [read]

end Read

section Frame

variable (q : LiveQueue) (k : StreamKey) (f : StreamState → StreamState)

@[simp] theorem modifyState_entries : (q.modifyState k f).entries = q.entries := rfl
@[simp] theorem modifyState_events : (q.modifyState k f).events = q.events := rfl
@[simp] theorem modifyState_bytes : (q.modifyState k f).bytes = q.bytes := rfl
@[simp] theorem modifyState_stats : (q.modifyState k f).stats = q.stats := rfl
@[simp] theorem modifyState_closed : (q.modifyState k f).closed = q.closed := rfl

theorem modifyExisting_eq :
    ∃ streams, q.modifyExisting k f = { q with streams := streams } := by
  rw [modifyExisting]
  split
  · exact ⟨_, rfl⟩
  · exact ⟨q.streams, rfl⟩

theorem pruneIdle_eq : ∃ streams, q.pruneIdle k = { q with streams := streams } := by
  rw [pruneIdle]
  split
  · exact ⟨_, rfl⟩
  · exact ⟨q.streams, rfl⟩

@[simp] theorem modifyExisting_entries : (q.modifyExisting k f).entries = q.entries := by
  obtain ⟨_, h⟩ := q.modifyExisting_eq k f; rw [h]
@[simp] theorem modifyExisting_events : (q.modifyExisting k f).events = q.events := by
  obtain ⟨_, h⟩ := q.modifyExisting_eq k f; rw [h]
@[simp] theorem modifyExisting_bytes : (q.modifyExisting k f).bytes = q.bytes := by
  obtain ⟨_, h⟩ := q.modifyExisting_eq k f; rw [h]
@[simp] theorem modifyExisting_stats : (q.modifyExisting k f).stats = q.stats := by
  obtain ⟨_, h⟩ := q.modifyExisting_eq k f; rw [h]
@[simp] theorem modifyExisting_closed : (q.modifyExisting k f).closed = q.closed := by
  obtain ⟨_, h⟩ := q.modifyExisting_eq k f; rw [h]

@[simp] theorem pruneIdle_entries : (q.pruneIdle k).entries = q.entries := by
  obtain ⟨_, h⟩ := q.pruneIdle_eq k; rw [h]
@[simp] theorem pruneIdle_events : (q.pruneIdle k).events = q.events := by
  obtain ⟨_, h⟩ := q.pruneIdle_eq k; rw [h]
@[simp] theorem pruneIdle_bytes : (q.pruneIdle k).bytes = q.bytes := by
  obtain ⟨_, h⟩ := q.pruneIdle_eq k; rw [h]
@[simp] theorem pruneIdle_stats : (q.pruneIdle k).stats = q.stats := by
  obtain ⟨_, h⟩ := q.pruneIdle_eq k; rw [h]
@[simp] theorem pruneIdle_closed : (q.pruneIdle k).closed = q.closed := by
  obtain ⟨_, h⟩ := q.pruneIdle_eq k; rw [h]

end Frame

/-! ### Which streams wait -/

variable (q : LiveQueue)
include q

theorem isAwaiting_eq_read (k : StreamKey) :
    q.isAwaiting k = (q.read StreamState.awaitingSince k).isSome := by
  rw [isAwaiting, read]
  cases q.streams.lookup k <;> rfl

theorem isAwaiting_modifyState (k j : StreamKey) (f : StreamState → StreamState) :
    (q.modifyState k f).isAwaiting j =
      if j = k then (f ((q.streams.lookup k).getD {})).awaitingSince.isSome else q.isAwaiting j := by
  grind [isAwaiting]

@[simp] theorem isAwaiting_pruneIdle (k j : StreamKey) :
    (q.pruneIdle k).isAwaiting j = q.isAwaiting j := by
  rw [isAwaiting_eq_read, isAwaiting_eq_read,
    read_pruneIdle q k j fun _ => StreamState.awaitingSince_of_idle]

theorem isAwaiting_await (k j : StreamKey) (now : Nat) :
    (q.modifyState k (StreamState.await now)).isAwaiting j = (decide (j = k) || q.isAwaiting j) := by
  grind [isAwaiting_modifyState, StreamState.await]

theorem isAwaiting_resume (k j : StreamKey) :
    (q.modifyExisting k StreamState.resume).isAwaiting j =
      (decide (j ≠ k) && q.isAwaiting j) := by
  cases hst : q.streams.lookup k <;> grind [isAwaiting, StreamState.resume]

theorem isAwaiting_modifyExisting_of_eq (k j : StreamKey)
    (hf : ∀ st, (f st).awaitingSince = st.awaitingSince) :
    (q.modifyExisting k f).isAwaiting j = q.isAwaiting j := by
  rw [isAwaiting_eq_read, isAwaiting_eq_read, read_modifyExisting_of_eq q k j hf]

theorem isAwaiting_modifyState_of_eq (k j : StreamKey)
    (hf : ∀ st, (f st).awaitingSince = st.awaitingSince) :
    (q.modifyState k f).isAwaiting j = q.isAwaiting j := by
  rw [isAwaiting_eq_read, isAwaiting_eq_read, read_modifyState_of_eq q k j hf]

end LiveQueue

/-! ### The books -/

theorem QueueEntry.size_pos (e : QueueEntry) : 0 < e.size := e.msg.approxSize_pos

theorem QueueEntry.isMedia_iff (e : QueueEntry) : e.kind.isMedia = e.names.isSome := by
  obtain ⟨seq, msg, time⟩ := e
  cases msg <;> rfl

def bytesOf (l : List QueueEntry) : Nat := (l.map (·.size)).sum

def framesOf (k : StreamKey) (l : List QueueEntry) : Nat := l.countP (·.names = some k)

def evictableBytesOf (k : StreamKey) (l : List QueueEntry) : Nat :=
  bytesOf (l.filter (·.evictableOf k))

theorem framesOf_cons (k : StreamKey) (e : QueueEntry) (l : List QueueEntry) :
    framesOf k (e :: l) = framesOf k l + if e.names = some k then 1 else 0 := by
  simp [framesOf, countP_cons]

theorem evictableBytesOf_cons (k : StreamKey) (e : QueueEntry) (l : List QueueEntry) :
    evictableBytesOf k (e :: l) =
      evictableBytesOf k l + if e.evictableOf k then e.size else 0 := by
  by_cases h : e.evictableOf k
  · simp [evictableBytesOf, h, bytesOf, Nat.add_comm]
  · simp [evictableBytesOf, h]

theorem evictableBytesOf_eq_zero {k : StreamKey} {l : List QueueEntry} (h : framesOf k l = 0) :
    evictableBytesOf k l = 0 := by
  have hnone : l.filter (·.evictableOf k) = [] := by
    rw [filter_eq_nil_iff]
    intro e he hev
    rw [framesOf, countP_eq_zero] at h
    simp only [QueueEntry.evictableOf, and_eq_true] at hev
    exact h e he hev.2
  rw [evictableBytesOf, hnone]
  rfl

namespace LiveQueue

variable {l : List QueueEntry} {q : LiveQueue} {e : QueueEntry} {f : StreamState → StreamState}

theorem evictableOf_inj {j k : StreamKey} (hj : e.evictableOf j)
    (hk : e.evictableOf k) : j = k := by
  simp only [QueueEntry.evictableOf, and_eq_true, decide_eq_true_eq] at hj hk
  exact some.inj (hj.2.symm.trans hk.2)

theorem exists_evictableOf (h : e.kind.evictable) : ∃ k, e.evictableOf k = true := by
  obtain ⟨k, hnames⟩ : ∃ k, e.names = some k := by
    rw [← isSome_iff_exists, ← QueueEntry.isMedia_iff]
    cases hkind : e.kind with
    | control => simp [hkind, Kind.evictable] at h
    | media hint => rfl
  exact ⟨k, by simp [QueueEntry.evictableOf, h, hnames]⟩

theorem names_of_critical (h : e.kind = .media .critical) : ∃ k, e.names = some k := by
  rw [← isSome_iff_exists, ← QueueEntry.isMedia_iff, h]
  rfl

def queuedFrames (q : LiveQueue) (k : StreamKey) : Nat :=
  (q.streams.lookup k).elim 0 StreamState.queuedFrames

def evictableBytes (q : LiveQueue) (k : StreamKey) : Nat :=
  (q.streams.lookup k).elim 0 StreamState.evictableBytes

/-- The books of the queue are those of a list of entries. -/
structure Booked (q : LiveQueue) (l : List QueueEntry) : Prop where
  bytes : q.bytes = bytesOf l
  frames : ∀ k, q.queuedFrames k = framesOf k l
  evictable : ∀ k, q.evictableBytes k = evictableBytesOf k l

theorem Booked.perm {l l' : List QueueEntry} (h : q.Booked l) (hl : l.Perm l') :
    q.Booked l' where
  bytes := h.bytes.trans (hl.map _).sum_nat
  frames k := (h.frames k).trans (hl.countP_eq _)
  evictable k := (h.evictable k).trans ((hl.filter _).map _).sum_nat

/-- The books are the bytes and what the states of the streams say. -/
theorem Booked.same {q q' : LiveQueue} (h : q.Booked l) (hbytes : q'.bytes = q.bytes)
    (hframes : ∀ k, q'.queuedFrames k = q.queuedFrames k)
    (hevictable : ∀ k, q'.evictableBytes k = q.evictableBytes k) : q'.Booked l :=
  ⟨hbytes.trans h.bytes, fun k => (hframes k).trans (h.frames k),
    fun k => (hevictable k).trans (h.evictable k)⟩

theorem Booked.congr {q q' : LiveQueue} (h : q.Booked l) (hbytes : q'.bytes = q.bytes)
    (hstreams : q'.streams = q.streams) : q'.Booked l :=
  h.same hbytes (by simp [queuedFrames, hstreams]) (by simp [evictableBytes, hstreams])

theorem queuedFrames_eq_read (q : LiveQueue) (k : StreamKey) :
    q.queuedFrames k = q.read StreamState.queuedFrames k := by
  rw [queuedFrames, read]
  cases q.streams.lookup k <;> rfl

theorem evictableBytes_eq_read (q : LiveQueue) (k : StreamKey) :
    q.evictableBytes k = q.read StreamState.evictableBytes k := by
  rw [evictableBytes, read]
  cases q.streams.lookup k <;> rfl

theorem Booked.modifyState (h : q.Booked l) (k : StreamKey)
    (hframes : ∀ st, (f st).queuedFrames = st.queuedFrames)
    (hbytes : ∀ st, (f st).evictableBytes = st.evictableBytes) : (q.modifyState k f).Booked l := by
  refine h.same rfl (fun j => ?_) fun j => ?_
  · rw [queuedFrames_eq_read, queuedFrames_eq_read, read_modifyState_of_eq q k j hframes]
  · rw [evictableBytes_eq_read, evictableBytes_eq_read, read_modifyState_of_eq q k j hbytes]

theorem Booked.modifyExisting (h : q.Booked l) (k : StreamKey)
    (hframes : ∀ st, (f st).queuedFrames = st.queuedFrames)
    (hbytes : ∀ st, (f st).evictableBytes = st.evictableBytes) :
    (q.modifyExisting k f).Booked l := by
  refine h.same (q.modifyExisting_bytes k f) (fun j => ?_) fun j => ?_
  · rw [queuedFrames_eq_read, queuedFrames_eq_read, read_modifyExisting_of_eq q k j hframes]
  · rw [evictableBytes_eq_read, evictableBytes_eq_read, read_modifyExisting_of_eq q k j hbytes]

theorem Booked.pruneIdle (h : q.Booked l) (k : StreamKey) : (q.pruneIdle k).Booked l := by
  have hframes := h.frames k
  have hevictable := h.evictable k
  refine h.same (q.pruneIdle_bytes k) (fun j => ?_) fun j => ?_
  · rw [queuedFrames_eq_read, read_pruneIdle q k j fun _ => StreamState.queuedFrames_of_idle,
      queuedFrames_eq_read]
  · -- an idle stream has no frames, so it has nothing to evict
    cases hst : q.streams.lookup k <;>
      grind [evictableBytes, queuedFrames, StreamState.queuedFrames_of_idle,
        evictableBytesOf_eq_zero]

theorem Booked.accountRemoved (h : q.Booked (e :: l)) : (q.accountRemoved e).Booked l := by
  have hbytes : q.bytes - e.size = bytesOf l := by
    rw [h.bytes]
    simp [bytesOf]
  have hframes := h.frames
  have hevictable := h.evictable
  simp only [framesOf_cons, queuedFrames] at hframes
  simp only [evictableBytesOf_cons, QueueEntry.evictableOf, evictableBytes] at hevictable
  rw [LiveQueue.accountRemoved]
  cases hnames : e.names with
  | none =>
    exact ⟨hbytes, by simpa [hnames, queuedFrames] using hframes,
      by simpa [hnames, evictableBytes] using hevictable⟩
  | some k =>
    refine Booked.pruneIdle ⟨by rw [modifyExisting_bytes, hbytes], fun j => ?_, fun j => ?_⟩ k
    · have := hframes j
      cases hst : q.streams.lookup k <;> grind [queuedFrames, StreamState.removeFrame]
    · have := hevictable j
      cases hst : q.streams.lookup k <;> grind [evictableBytes, StreamState.removeFrame]

theorem accountRemoved_eq (q : LiveQueue) (e : QueueEntry) :
    ∃ bytes streams, q.accountRemoved e = { q with bytes := bytes, streams := streams } := by
  rw [LiveQueue.accountRemoved]
  cases e.names with
  | none => exact ⟨_, q.streams, rfl⟩
  | some k =>
    obtain ⟨_, hprune⟩ := LiveQueue.pruneIdle_eq _ k
    obtain ⟨_, hmodify⟩ := LiveQueue.modifyExisting_eq _ k _
    dsimp only
    rw [hprune, hmodify]
    exact ⟨_, _, rfl⟩

theorem read_accountRemoved {β : Type} {φ : StreamState → β} (q : LiveQueue) (e : QueueEntry)
    (k : StreamKey) (hφ : ∀ st, st.idle → φ st = φ {})
    (he : ∀ st, φ (st.removeFrame e) = φ st) : (q.accountRemoved e).read φ k = q.read φ k := by
  rw [LiveQueue.accountRemoved]
  cases e.names with
  | none => rfl
  | some j =>
    rw [read_pruneIdle _ j k hφ]
    exact read_modifyExisting_of_eq _ j k he

@[simp] theorem isAwaiting_accountRemoved (q : LiveQueue) (e : QueueEntry) (k : StreamKey) :
    (q.accountRemoved e).isAwaiting k = q.isAwaiting k := by
  rw [isAwaiting_eq_read, isAwaiting_eq_read,
    q.read_accountRemoved e k (fun _ => StreamState.awaitingSince_of_idle) fun _ => rfl]

end LiveQueue

/-! ### The counters -/

def QueueEvent.isDrop : QueueEvent → Bool
  | .lost _ => true
  | .refused _ => true
  | _ => false

namespace LiveQueue

variable {q q' : LiveQueue} {P : LiveQueue → Prop}

/-- Modulo `2 ^ 64` the total counts the dropped frames and the refused control messages of the log,
and is the sum of the four categories. -/
structure Counted (q : LiveQueue) : Prop where
  total : q.stats.droppedTotal = .ofNat (q.events.countP QueueEvent.isDrop)
  categories : q.stats.droppedTotal = q.stats.droppedDroppable + q.stats.droppedStale
    + q.stats.droppedCritical + q.stats.oversizedDropped

theorem Counted.congr (h : q.Counted) (hstats : q'.stats = q.stats)
    (hevents : q'.events = q.events) : q'.Counted :=
  ⟨by rw [hstats, hevents, h.total], by rw [hstats, h.categories]⟩

theorem Counted.countDrop {q : LiveQueue} (h : q.Counted) (e : QueueEntry) (reason : Reason) :
    (q.countDrop e reason).Counted := by
  have htotal := h.total
  have hcategories := h.categories
  constructor
  · simp only [LiveQueue.countDrop, countP_cons, QueueEvent.isDrop, ↓reduceIte]
    split <;> simp [htotal]
  · simp only [LiveQueue.countDrop]
    split <;> grind

theorem Counted.accountRemoved {q : LiveQueue} (h : q.Counted) (e : QueueEntry) :
    (q.accountRemoved e).Counted := by
  obtain ⟨_, _, heq⟩ := q.accountRemoved_eq e
  rw [heq]
  exact h.congr rfl rfl

/-! ### Maintenance -/

/-- What a purge, the age rule, an eviction or the end of a wait does to the entries, the log and
the waits. -/
inductive QueueChange (q q' : LiveQueue) : Prop
  | unchanged (entries : q'.entries = q.entries) (events : q'.events = q.events)
      (awaiting : ∀ j, q'.isAwaiting j = q.isAwaiting j)
  | purged (k : StreamKey)
      (entries : q'.entries = q.entries.filter (!·.evictableOf k))
      (events : q'.events = (q.entries.filter (·.evictableOf k)).reverse.map .lost ++ q.events)
      (awaiting : ∀ j, q'.isAwaiting j = (decide (j = k) || q.isAwaiting j))
  | trimmed (k : StreamKey) (before : List QueueEntry) (r : QueueEntry) (after : List QueueEntry)
      (split : q.entries = before ++ r :: after) (resync : r.names = some k ∧ r.isResync = true)
      (entries : q'.entries = before.filter (!·.evictableOf k) ++ r :: after)
      (events : q'.events = (before.filter (·.evictableOf k)).reverse.map .lost ++ q.events)
      (awaiting : ∀ j, q'.isAwaiting j = (decide (j ≠ k) && q.isAwaiting j))
  | evicted (before : List QueueEntry) (e : QueueEntry) (after : List QueueEntry)
      (split : q.entries = before ++ e :: after) (critical : e.kind = .media .critical)
      (entries : q'.entries = before ++ after) (events : q'.events = .lost e :: q.events)
      (awaiting : ∀ j, q'.isAwaiting j = q.isAwaiting j)
  | timedOut (k : StreamKey) (entries : q'.entries = q.entries)
      (events : q'.events = .timedOut k :: q.events)
      (awaiting : ∀ j, q'.isAwaiting j = (decide (j ≠ k) && q.isAwaiting j))

structure Maintenance (q q' : LiveQueue) : Prop where
  change : QueueChange q q'
  booked : q.Booked q.entries → q'.Booked q'.entries
  counted : q.Counted → q'.Counted
  closed : q'.closed = q.closed

/-- The rule for `discard`: `P` says what holds while the entries that are left are to go. -/
theorem discard_inv {P : List QueueEntry → LiveQueue → Prop} (kept removed : List QueueEntry)
    (reason : Reason) (hstart : P removed { q with entries := kept })
    (hstep : ∀ e rest q, P (e :: rest) q → P rest ((q.countDrop e reason).accountRemoved e)) :
    P [] (q.discard kept removed reason) := by
  rw [discard]
  generalize { q with entries := kept } = q₁ at hstart
  induction removed generalizing q₁ with
  | nil => exact hstart
  | cons e rest ih => exact ih _ (hstep e rest q₁ hstart)

theorem discard_spec (q : LiveQueue) (kept removed : List QueueEntry) (reason : Reason) :
    (q.discard kept removed reason).entries = kept ∧
      (q.discard kept removed reason).events = removed.reverse.map .lost ++ q.events ∧
      (∀ k, (q.discard kept removed reason).isAwaiting k = q.isAwaiting k) ∧
      (q.discard kept removed reason).closed = q.closed ∧
      (q.Booked (removed ++ kept) → (q.discard kept removed reason).Booked kept) ∧
      (q.Counted → (q.discard kept removed reason).Counted) := by
  -- the entries are set before the loop, so the books are followed from there
  refine discard_inv kept removed reason (P := fun rest q' => q'.entries = kept ∧
    rest.reverse.map .lost ++ q'.events = removed.reverse.map .lost ++ q.events ∧
    (∀ k, q'.isAwaiting k = q.isAwaiting k) ∧ q'.closed = q.closed ∧
    (q.Booked (removed ++ kept) → q'.Booked (rest ++ kept)) ∧ (q.Counted → q'.Counted)) ?_ ?_
  · exact ⟨rfl, rfl, fun _ => rfl, rfl, fun h => h.congr rfl rfl, fun h => h.congr rfl rfl⟩
  · rintro e rest q' ⟨hentries, hevents, hawaiting, hclosed, hbooked, hcounted⟩
    obtain ⟨bytes, streams, heq⟩ := (q'.countDrop e reason).accountRemoved_eq e
    refine ⟨by rw [heq]; exact hentries, ?_, fun k => ?_, by rw [heq]; exact hclosed, fun h => ?_,
      fun h => ((hcounted h).countDrop e reason).accountRemoved e⟩
    · rw [← hevents, heq]
      simp [countDrop]
    · exact (isAwaiting_accountRemoved _ e k).trans (hawaiting k)
    · exact Booked.accountRemoved (Booked.congr (hbooked h) rfl rfl)

theorem read_discard {β : Type} {φ : StreamState → β} (q : LiveQueue)
    (kept removed : List QueueEntry) (reason : Reason) (k : StreamKey)
    (hφ : ∀ st, st.idle → φ st = φ {}) (he : ∀ e st, φ (st.removeFrame e) = φ st) :
    (q.discard kept removed reason).read φ k = q.read φ k :=
  discard_inv kept removed reason (P := fun _ q' => q'.read φ k = q.read φ k) rfl
    fun e _ _ h => (read_accountRemoved _ e k hφ (he e)).trans h

theorem filter_append_perm (p : QueueEntry → Bool) (l : List QueueEntry) :
    l.Perm (l.filter p ++ l.filter (!p ·)) := by
  have := List.filter_append_perm p l
  simpa using this.symm

theorem maintenance_purge (q : LiveQueue) (k : StreamKey) (reason : Reason) (now : Nat) :
    Maintenance q ((q.purgeStream k reason).modifyState k (StreamState.await now)) := by
  obtain ⟨hentries, hevents, hawaiting, hclosed, hbooked, hcounted⟩ :=
    q.discard_spec (q.entries.filter (!·.evictableOf k)) (q.entries.filter (·.evictableOf k)) reason
  refine ⟨.purged k hentries hevents fun j => ?_, fun h => ?_, fun h => ?_, hclosed⟩
  · rw [isAwaiting_await, purgeStream, hawaiting]
  · have := (hbooked (h.perm (filter_append_perm _ _))).modifyState k
      (f := StreamState.await now) (fun _ => rfl) fun _ => rfl
    rwa [modifyState_entries, purgeStream, hentries]
  · exact (hcounted h).congr rfl rfl

theorem maintenance_purge_waiting (q : LiveQueue) {k : StreamKey} (hk : q.isAwaiting k)
    (reason : Reason) : Maintenance q (q.purgeStream k reason) := by
  obtain ⟨hentries, hevents, hawaiting, hclosed, hbooked, hcounted⟩ :=
    q.discard_spec (q.entries.filter (!·.evictableOf k)) (q.entries.filter (·.evictableOf k)) reason
  refine ⟨.purged k hentries hevents fun j => ?_, fun h => ?_, hcounted, hclosed⟩
  · by_cases hj : j = k
    · rw [hj, purgeStream, hawaiting, hk]
      simp
    · simp [hj, purgeStream, hawaiting]
  · rw [purgeStream, hentries]
    exact hbooked (h.perm (filter_append_perm _ _))

/-- Without a fresh resync point the stream is purged and waits, else it is purged up to that point
and goes on. -/
theorem enforceAgeOn_cases (q : LiveQueue) (now : Nat) (cfg : LiveQueueConfig) (k : StreamKey) :
    q.enforceAgeOn now cfg k =
        ((q.purgeStream k .stale).modifyState k (StreamState.await now)).pruneIdle k ∨
      ∃ before r rest q₁ q₂, q.entries = before ++ r :: rest ∧ r.names = some k ∧ r.isResync ∧
        q₁ = q.discard (before.filter (!·.evictableOf k) ++ r :: rest)
          (before.filter (·.evictableOf k)) .stale ∧
        (q₂ = q₁ ∨ q₂ = q₁.countResync) ∧
        q.enforceAgeOn now cfg k = (q₂.modifyExisting k StreamState.resume).pruneIdle k := by
  rw [enforceAgeOn, purgeStaleStream]
  cases hspan : q.entries.span (!freshResync k now cfg.maxMediaAge ·) with
  | mk before after =>
  obtain ⟨hsplit, -, hfirst⟩ := span_spec _ _ hspan
  cases after with
  | nil =>
    left
    rw [append_nil] at hsplit
    simp only [purgeStream, hsplit, append_nil, isEmpty_nil, Bool.not_true,
      Bool.false_eq_true, if_false]
  | cons r rest =>
    right
    have hfresh : freshResync k now cfg.maxMediaAge r = true := by simpa using hfirst r rest rfl
    simp only [freshResync, Bool.and_eq_true, decide_eq_true_eq] at hfresh
    obtain ⟨⟨hnames, hresync⟩, -⟩ := hfresh
    refine ⟨before, r, rest, _, _, hsplit, hnames, hresync, rfl, ?_, rfl⟩
    split
    · exact .inr rfl
    · exact .inl rfl

theorem QueueChange.congr {q q₁ q₂ : LiveQueue} (h : QueueChange q q₁)
    (hentries : q₂.entries = q₁.entries) (hevents : q₂.events = q₁.events)
    (hawaiting : ∀ j, q₂.isAwaiting j = q₁.isAwaiting j) : QueueChange q q₂ := by
  cases h with
  | unchanged entries events awaiting =>
    exact .unchanged (hentries.trans entries) (hevents.trans events)
      fun j => (hawaiting j).trans (awaiting j)
  | purged k entries events awaiting =>
    exact .purged k (hentries.trans entries) (hevents.trans events)
      fun j => (hawaiting j).trans (awaiting j)
  | trimmed k before r after split resync entries events awaiting =>
    exact .trimmed k before r after split resync (hentries.trans entries) (hevents.trans events)
      fun j => (hawaiting j).trans (awaiting j)
  | evicted before e after split critical entries events awaiting =>
    exact .evicted before e after split critical (hentries.trans entries) (hevents.trans events)
      fun j => (hawaiting j).trans (awaiting j)
  | timedOut k entries events awaiting =>
    exact .timedOut k (hentries.trans entries) (hevents.trans events)
      fun j => (hawaiting j).trans (awaiting j)

theorem Maintenance.pruneIdle (h : Maintenance q q') (k : StreamKey) :
    Maintenance q (q'.pruneIdle k) where
  change := h.change.congr (by simp) (by simp) fun j => isAwaiting_pruneIdle q' k j
  booked hq := by
    rw [pruneIdle_entries]
    exact (h.booked hq).pruneIdle k
  counted hq := (h.counted hq).congr (by simp) (by simp)
  closed := by simpa using h.closed

theorem maintenance_enforceAgeOn (q : LiveQueue) (now : Nat) (cfg : LiveQueueConfig)
    (k : StreamKey) : Maintenance q (q.enforceAgeOn now cfg k) := by
  obtain heq | ⟨before, r, rest, q₁, q₂, hsplit, hnames, hresync, rfl, hq₂, heq⟩ :=
    q.enforceAgeOn_cases now cfg k
  · rw [heq]
    exact (q.maintenance_purge k .stale now).pruneIdle k
  · rw [heq]
    refine Maintenance.pruneIdle ?_ k
    obtain ⟨hentries, hevents, hawaiting, hclosed, hbooked, hcounted⟩ :=
      q.discard_spec (before.filter (!·.evictableOf k) ++ r :: rest)
        (before.filter (·.evictableOf k)) .stale
    have hperm : q.entries.Perm
        (before.filter (·.evictableOf k) ++ (before.filter (!·.evictableOf k) ++ r :: rest)) := by
      rw [hsplit, ← append_assoc]
      exact (filter_append_perm _ _).append_right _
    -- the count of resyncs is not in the books
    obtain ⟨stats, hstats, hcounts⟩ : ∃ stats, q₂ = { q.discard (before.filter (!·.evictableOf k) ++
        r :: rest) (before.filter (·.evictableOf k)) .stale with stats := stats } ∧
        (q.Counted → q₂.Counted) := by
      rcases hq₂ with rfl | rfl
      · exact ⟨_, rfl, hcounted⟩
      · exact ⟨_, rfl, fun h => ⟨(hcounted h).total, (hcounted h).categories⟩⟩
    refine ⟨.trimmed k before r rest hsplit ⟨hnames, hresync⟩ ?_ ?_ fun j => ?_, fun h => ?_,
      fun h => ?_, ?_⟩
    · simp [hstats, hentries]
    · simp [hstats, hevents]
    · rw [isAwaiting_resume, hstats]
      exact congrArg _ (hawaiting j)
    · have hbooked₂ : q₂.Booked (before.filter (!·.evictableOf k) ++ r :: rest) := by
        rw [hstats]
        exact Booked.congr (hbooked (h.perm hperm)) rfl rfl
      have hresumed := hbooked₂.modifyExisting k (f := StreamState.resume) (fun _ => rfl) fun _ => rfl
      simpa [hstats, hentries] using hresumed
    · exact (hcounts h).congr (by simp) (by simp)
    · simpa [hstats] using hclosed

theorem evictCritical_entries (q : LiveQueue) (rest : List QueueEntry) (e : QueueEntry) :
    (q.evictCritical rest e).entries = rest := by
  rw [evictCritical]
  obtain ⟨_, _, heq⟩ := LiveQueue.accountRemoved_eq _ e
  dsimp only
  rw [heq]
  cases e.names <;> rfl

theorem maintenance_evictCritical (q : LiveQueue) {before after : List QueueEntry} {e : QueueEntry}
    (hsplit : q.entries = before ++ e :: after) (hcritical : e.kind = .media .critical) :
    Maintenance q (q.evictCritical (before ++ after) e) := by
  have hperm : q.entries.Perm (e :: (before ++ after)) := by
    rw [hsplit]
    exact perm_middle
  rw [evictCritical]
  set q₁ := { q with entries := before ++ after }.countDrop e .pressure with hq₁
  have hbooked₁ : q.Booked q.entries → q₁.Booked (e :: (before ++ after)) :=
    fun h => (h.perm hperm).congr rfl rfl
  have hcounted₁ : q.Counted → q₁.Counted := fun h =>
    Counted.countDrop (q := { q with entries := before ++ after }) (h.congr rfl rfl) e .pressure
  obtain ⟨k, hnames⟩ := names_of_critical hcritical
  rw [hnames]
  dsimp only
  set q₂ : LiveQueue := { q₁.modifyState k (fun st => { st with needsReinit := true }) with
    reinitDirty := true } with hq₂
  have hbooked₂ : q.Booked q.entries → q₂.Booked (e :: (before ++ after)) := fun h =>
    ((hbooked₁ h).modifyState k (f := fun st => { st with needsReinit := true })
      (fun _ => rfl) fun _ => rfl).congr rfl rfl
  obtain ⟨_, _, heq⟩ := q₂.accountRemoved_eq e
  refine ⟨.evicted before e after hsplit hcritical ?_ ?_ fun j => ?_, fun h => ?_, fun h => ?_, ?_⟩
  · rw [heq]
    rfl
  · rw [heq]
    rfl
  · rw [isAwaiting_accountRemoved]
    exact isAwaiting_modifyState_of_eq q₁ k j (f := fun st => { st with needsReinit := true })
      fun _ => rfl
  · have := (hbooked₂ h).accountRemoved
    rw [heq] at this ⊢
    exact this
  · exact Counted.accountRemoved (q := q₂) ((hcounted₁ h).congr rfl rfl) e
  · rw [heq]
    rfl

theorem maintenance_releaseWait (q : LiveQueue) (k : StreamKey) :
    Maintenance q (q.releaseWait k) := by
  rw [releaseWait]
  set q₁ : LiveQueue := { q with
    stats := { q.stats with resyncTimeouts := q.stats.resyncTimeouts + 1 }
    events := .timedOut k :: q.events } with hq₁
  refine ⟨.timedOut k (by simp [hq₁]) (by simp [hq₁]) fun j => ?_, fun h => ?_, fun h => ?_, ?_⟩
  · rw [isAwaiting_pruneIdle, isAwaiting_resume]
    rfl
  · have h₁ : q₁.Booked q.entries := h.congr rfl rfl
    have := (h₁.modifyExisting k (f := StreamState.resume) (fun _ => rfl) fun _ => rfl).pruneIdle k
    simpa [hq₁] using this
  · have h₁ : q₁.Counted := ⟨by simpa [hq₁, QueueEvent.isDrop] using h.total, h.categories⟩
    exact h₁.congr (by simp) (by simp)
  · simp [hq₁]

theorem maintenance_publishReinit (q : LiveQueue) : Maintenance q q.publishReinit :=
  ⟨.unchanged rfl rfl fun _ => rfl, fun h => h.congr rfl rfl, fun h => h.congr rfl rfl, rfl⟩

theorem maintenance_noteHighWater (q : LiveQueue) (now : Nat) :
    Maintenance q (q.noteHighWater now) :=
  ⟨.unchanged rfl rfl fun _ => rfl, fun h => h.congr rfl rfl, fun h => ⟨h.total, h.categories⟩, rfl⟩

theorem maintenance_markReinit (q : LiveQueue) (k : StreamKey) : Maintenance q (q.markReinit k) := by
  refine ⟨.unchanged rfl rfl fun j => ?_, fun h => ?_, fun h => h.congr rfl rfl, rfl⟩
  · exact q.isAwaiting_modifyState_of_eq k j (f := fun st => { st with needsReinit := true })
      fun _ => rfl
  · exact (h.modifyState k (f := fun st => { st with needsReinit := true }) (fun _ => rfl)
      fun _ => rfl).congr rfl rfl

theorem maintenance_takeReinit (q : LiveQueue) (k : StreamKey) :
    Maintenance q (q.takeReinit k).2 := by
  rw [takeReinit]
  split_ifs with hpending
  · dsimp only
    set q₁ := q.modifyExisting k (fun st => { st with needsReinit := false }) with hq₁
    have hentries : q₁.entries = q.entries := modifyExisting_entries q k _
    refine ⟨.unchanged (by simp [hentries]) (by simp [hq₁]) fun j => ?_, fun h => ?_,
      fun h => h.congr (by simp [hq₁]) (by simp [hq₁]), by simp [hq₁]⟩
    · rw [isAwaiting_pruneIdle]
      exact q.isAwaiting_modifyExisting_of_eq k j (f := fun st => { st with needsReinit := false })
        fun _ => rfl
    · have h₁ : q₁.Booked q.entries := h.modifyExisting k (fun _ => rfl) fun _ => rfl
      have h₂ : LiveQueue.Booked
          { q₁ with reinitPending := q₁.streams.entries.any (·.2.needsReinit) } q.entries :=
        h₁.congr rfl rfl
      have := h₂.pruneIdle k
      simpa [hentries] using this
  · exact ⟨.unchanged rfl rfl fun _ => rfl, fun h => h, fun h => h, rfl⟩

abbrev Maintained := Relation.ReflTransGen Maintenance

theorem onConnectionReset_inv {now : Nat}
    (hpurge : ∀ q k, P q → P ((q.purgeStream k .stale).modifyState k (StreamState.await now)))
    {q : LiveQueue} (hq : P q) : P (q.onConnectionReset now) :=
  foldlRecOn _ _ hq fun q hq k _ => hpurge q k hq

theorem maintained_onConnectionReset (q : LiveQueue) (now : Nat) :
    Maintained q (q.onConnectionReset now) :=
  onConnectionReset_inv (fun q k h => h.tail (q.maintenance_purge k .stale now)) .refl

theorem Maintained.inv (hstep : ∀ q q', Maintenance q q' → P q → P q') (h : Maintained q q')
    (hq : P q) : P q' := by
  induction h with
  | refl => exact hq
  | tail _ h ih => exact hstep _ _ h ih

end LiveQueue

end RtmpServer
