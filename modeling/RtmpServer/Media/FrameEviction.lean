import Mathlib.Data.List.Induction
import Mathlib.Data.Prod.Lex
import Mathlib.Data.String.Basic
import RtmpServer.Lib.Assoc
import RtmpServer.Lib.Eviction
import RtmpServer.Media.FrameQueues

/-!
# What the inject and export queues evict

`evict_for_room` scans the queue once and keeps the totals of the scan up to date while it takes
frames out of the middle. `Tallies` ties the totals to the frames at every round, so that the
classes and streams it finds in them are those of the queue and none of its early returns is taken.
Frame by frame it takes what `Picks` says.
-/

namespace RtmpServer

open List Lib.Eviction QueuedMedia

/-- `class_idx`: the classes in the order of eviction. -/
def DeliveryHint.classIdx : DeliveryHint → Nat
  | .droppable => 0
  | .resyncPoint => 1
  | .critical => 2

namespace FrameQueue

variable {α : Type} [QueuedMedia α]

/-! ### The policy -/

def streamBytes (frames : List α) (key : StreamKey) : Nat :=
  total size (frames.filter fun f => names f = key)

structure Picks (before : List α) (old : α) (after : List α) : Prop where
  cheapest : ∀ f ∈ before ++ old :: after, (hint old).classIdx ≤ (hint f).classIdx
  heaviest : ∀ f ∈ before ++ old :: after, hint f = hint old →
    streamBytes (before ++ old :: after) (names f) ≤ streamBytes (before ++ old :: after) (names old)
  ties : ∀ f ∈ before ++ old :: after, hint f = hint old →
    streamBytes (before ++ old :: after) (names f) = streamBytes (before ++ old :: after) (names old) →
    toLex (names old) ≤ toLex (names f)
  oldest : ∀ f ∈ before, hint f = hint old → names f ≠ names old

/-! ### The totals of the scan -/

def totals (frames : List α) (key : StreamKey) : StreamTotals :=
  ⟨fun c => frames.countP fun f => names f = key ∧ hint f = c, streamBytes frames key⟩

structure Tallies (s : EvictionScan) (frames : List α) : Prop where
  classCount : ∀ c, s.classCount c = frames.countP fun f => hint f = c
  perStream : ∀ key, (s.perStream.lookup key).getD ⟨fun _ => 0, 0⟩ = totals frames key

theorem bump_apply (f : Nat → Nat) (counts : DeliveryHint → Nat) (h c : DeliveryHint) :
    bump f counts h c = if c = h then f (counts c) else counts c := by
  rw [bump, Function.update_apply]
  split
  · rename_i hc
    rw [hc]
  · rfl

theorem countP_hint_middle (before after : List α) (old : α) :
    (fun c => (before ++ old :: after).countP fun f => decide (hint f = c)) =
      bump (· + 1) (fun c => (before ++ after).countP fun f => decide (hint f = c)) (hint old) := by
  funext c
  rw [bump_apply]
  by_cases hc : c = hint old
  · simp [hc, Nat.add_assoc]
  · simp [hc, Ne.symm hc]

theorem streamBytes_middle (before after : List α) (old : α) (key : StreamKey) :
    streamBytes (before ++ old :: after) key =
      streamBytes (before ++ after) key + if key = names old then size old else 0 := by
  simp only [streamBytes, filter_append, filter_cons, total_append]
  by_cases hkey : key = names old
  · simp [hkey]
    omega
  · simp [hkey, Ne.symm hkey]

theorem totals_middle (before after : List α) (old : α) (key : StreamKey) :
    totals (before ++ old :: after) key =
      if key = names old then
        ⟨bump (· + 1) (totals (before ++ after) key).classes (hint old),
          (totals (before ++ after) key).bytes + size old⟩
      else totals (before ++ after) key := by
  simp only [totals, streamBytes_middle]
  by_cases hkey : key = names old
  · subst hkey
    rw [if_pos rfl, if_pos rfl, StreamTotals.mk.injEq]
    refine ⟨?_, rfl⟩
    funext c
    rw [bump_apply]
    by_cases hc : c = hint old
    · simp [hc, Nat.add_assoc]
    · simp [hc, Ne.symm hc]
  · simp [hkey, Ne.symm hkey]

theorem tallies_scan (frames : List α) : Tallies (scan frames) frames := by
  induction frames using reverseRecOn with
  | nil => exact ⟨fun _ => rfl, fun _ => rfl⟩
  | append_singleton frames f ih =>
    rw [scan, foldl_append, ← scan]
    refine ⟨fun c => ?_, fun key => ?_⟩
    · have hcount := congrFun (countP_hint_middle frames [] f) c
      rw [append_nil] at hcount
      rw [hcount]
      simp only [foldl_cons, foldl_nil, bump_apply, ih.classCount]
    · rw [totals_middle frames [] f, append_nil]
      simp only [foldl_cons, foldl_nil, Lib.Assoc.lookup_insert]
      by_cases hkey : key = names f
      · subst hkey
        simp only [if_pos, Option.getD_some, ih.perStream]
      · simp only [if_neg hkey, ih.perStream]

/-! ### The search for the heaviest stream -/

def Heavier (a b : Nat × StreamKey) : Prop := LiveQueue.heavier a b = true

instance : DecidableRel Heavier := fun a b => inferInstanceAs (Decidable (LiveQueue.heavier a b = true))

theorem heavier_iff {a b : Nat × StreamKey} :
    Heavier a b ↔ b.1 < a.1 ∨ b.1 = a.1 ∧ toLex a.2 < toLex b.2 := by
  rw [Heavier, LiveQueue.heavier, decide_eq_true_eq, Prod.Lex.toLex_lt_toLex]

instance : Std.Irrefl Heavier := ⟨fun a h => by simp [heavier_iff] at h⟩

instance : IsTrans (Nat × StreamKey) Heavier where
  trans a b c hab hbc := by
    rw [heavier_iff] at hab hbc ⊢
    rcases hab with hab | ⟨hab, hkey⟩ <;> rcases hbc with hbc | ⟨hbc, hkey'⟩
    · exact .inl (hbc.trans hab)
    · exact .inl (hbc ▸ hab)
    · exact .inl (hab ▸ hbc)
    · exact .inr ⟨hbc.trans hab, hkey.trans hkey'⟩

theorem heaviestOf_eq (s : EvictionScan) (c : DeliveryHint) :
    heaviestOf s c = (((s.perStream.entries.filter fun e => 0 < e.2.classes c).map
      fun e => (e.2.bytes, e.1)).foldl (keepBest Heavier) none).map Prod.snd := by
  rw [heaviestOf, foldl_map]
  congr 2
  funext best e
  cases best with
  | none => rfl
  | some b => rfl

section Tallies

variable {s : EvictionScan} {frames before after : List α} {old : α} {c : DeliveryHint}

theorem Tallies.lookup (h : Tallies s frames) {f : α} (hf : f ∈ frames) :
    s.perStream.lookup (names f) = some (totals frames (names f)) := by
  have htotals := h.perStream (names f)
  cases hlookup : s.perStream.lookup (names f) with
  | some t =>
    rw [hlookup, Option.getD_some] at htotals
    rw [htotals]
  | none =>
    rw [hlookup, Option.getD_none] at htotals
    have hcount : 0 = (totals frames (names f)).classes (hint f) := by rw [← htotals]
    have hpos : 0 < (totals frames (names f)).classes (hint f) :=
      countP_pos_iff.2 ⟨f, hf, by simp⟩
    omega

theorem Tallies.remove (h : Tallies s (before ++ old :: after)) :
    Tallies (EvictionScan.remove s (names old) old) (before ++ after) := by
  refine ⟨fun c => ?_, fun key => ?_⟩
  · have hcount := (h.classCount c).trans (congrFun (countP_hint_middle before after old) c)
    simp only [EvictionScan.remove, bump_apply] at hcount ⊢
    rw [hcount]
    split
    · exact Nat.add_sub_cancel _ _
    · rfl
  · have hold := h.lookup (mem_append_right before mem_cons_self)
    have hkey := h.perStream key
    simp only [EvictionScan.remove, hold, Lib.Assoc.lookup_insert]
    rw [totals_middle] at hkey
    by_cases heq : key = names old
    · subst heq
      rw [if_pos rfl, Option.getD_some, totals_middle, if_pos rfl]
      simp only [Nat.add_sub_cancel]
      rw [show bump (· - 1) (bump (· + 1) (totals (before ++ after) (names old)).classes (hint old))
        (hint old) = (totals (before ++ after) (names old)).classes from ?_]
      funext c
      simp only [bump_apply]
      split
      · exact Nat.add_sub_cancel _ _
      · rfl
    · rw [if_neg heq] at hkey ⊢
      exact hkey

theorem Tallies.cheapestClass (h : Tallies s frames) (hne : frames ≠ []) :
    ∃ c, cheapestClass s = some c ∧ (∃ f ∈ frames, hint f = c) ∧
      ∀ f ∈ frames, c.classIdx ≤ (hint f).classIdx := by
  have hqueued : ∀ c, 0 < s.classCount c ↔ ∃ f ∈ frames, hint f = c := by
    intro c
    rw [h.classCount, countP_pos_iff]
    simp
  have hother : ∀ c, ¬ 0 < s.classCount c → ∀ f ∈ frames, hint f ≠ c :=
    fun c hc f hf heq => hc ((hqueued c).2 ⟨f, hf, heq⟩)
  by_cases hdroppable : 0 < s.classCount .droppable
  · refine ⟨.droppable, ?_, (hqueued _).1 hdroppable, fun f _ => Nat.zero_le _⟩
    simp [FrameQueue.cheapestClass, hdroppable]
  · by_cases hresync : 0 < s.classCount .resyncPoint
    · refine ⟨.resyncPoint, ?_, (hqueued _).1 hresync, fun f hf => ?_⟩
      · simp [FrameQueue.cheapestClass, hdroppable, hresync]
      · have hne := hother _ hdroppable f hf
        cases hhint : hint f <;> simp_all [DeliveryHint.classIdx]
    · -- only critical frames are left
      have hcritical : ∀ f ∈ frames, hint f = .critical := by
        intro f hf
        have hne := hother _ hdroppable f hf
        have hne' := hother _ hresync f hf
        cases hhint : hint f <;> simp_all
      obtain ⟨f, hf⟩ := exists_mem_of_ne_nil frames hne
      have hpos := (hqueued .critical).2 ⟨f, hf, hcritical f hf⟩
      refine ⟨.critical, ?_, ⟨f, hf, hcritical f hf⟩, fun f hf => ?_⟩
      · simp [FrameQueue.cheapestClass, hdroppable, hresync, hpos]
      · rw [hcritical f hf]

theorem Tallies.mem_candidates (h : Tallies s frames) {x : Nat × StreamKey} :
    x ∈ (s.perStream.entries.filter fun e => 0 < e.2.classes c).map (fun e => (e.2.bytes, e.1)) ↔
      x.1 = streamBytes frames x.2 ∧ ∃ f ∈ frames, hint f = c ∧ names f = x.2 := by
  simp only [mem_map, mem_filter, decide_eq_true_eq]
  constructor
  · rintro ⟨⟨key, t⟩, ⟨hentry, hpos⟩, rfl⟩
    have htotals := h.perStream key
    rw [AList.mem_lookup_iff.2 hentry, Option.getD_some] at htotals
    subst htotals
    obtain ⟨f, hf, hboth⟩ := countP_pos_iff.1 hpos
    rw [decide_eq_true_eq] at hboth
    exact ⟨rfl, f, hf, hboth.2, hboth.1⟩
  · rintro ⟨hbytes, f, hf, hhint, hnames⟩
    refine ⟨⟨names f, totals frames (names f)⟩, ⟨AList.mem_lookup_iff.1 (h.lookup hf), ?_⟩, ?_⟩
    · exact countP_pos_iff.2 ⟨f, hf, by simp [hhint]⟩
    · rw [hnames]
      exact Prod.ext hbytes.symm rfl

theorem Tallies.heaviestOf (h : Tallies s frames) (hqueued : ∃ f ∈ frames, hint f = c) :
    ∃ key, heaviestOf s c = some key ∧ (∃ f ∈ frames, hint f = c ∧ names f = key) ∧
      ∀ f ∈ frames, hint f = c →
        ¬ Heavier (streamBytes frames (names f), names f) (streamBytes frames key, key) := by
  have hbest := bestOf_foldl Heavier
    ((s.perStream.entries.filter fun e => 0 < e.2.classes c).map fun e => (e.2.bytes, e.1))
  have hcandidate : ∀ f ∈ frames, hint f = c → (streamBytes frames (names f), names f) ∈
      (s.perStream.entries.filter fun e => 0 < e.2.classes c).map fun e => (e.2.bytes, e.1) :=
    fun f hf hhint => h.mem_candidates.2 ⟨rfl, f, hf, hhint, rfl⟩
  rw [heaviestOf_eq]
  revert hbest hcandidate
  generalize hcandidates : (s.perStream.entries.filter fun e => 0 < e.2.classes c).map
    (fun e => (e.2.bytes, e.1)) = candidates
  intro hbest hcandidate
  cases hfold : candidates.foldl (keepBest Heavier) none with
  | none =>
    obtain ⟨f, hf, hhint⟩ := hqueued
    rw [hfold] at hbest
    have hmem := hcandidate f hf hhint
    rw [show candidates = [] from hbest] at hmem
    cases hmem
  | some b =>
    rw [hfold] at hbest
    obtain ⟨hmem, hnone⟩ := hbest
    rw [← hcandidates] at hmem
    obtain ⟨hbytes, hframe⟩ := h.mem_candidates.1 hmem
    refine ⟨b.2, rfl, hframe, fun f hf hhint => ?_⟩
    rw [← hbytes]
    exact hnone _ (hcandidate f hf hhint)

end Tallies

/-! ### The loop -/

theorem evictLoop_round {q : FrameQueue α} {s : EvictionScan} (h : Tallies s q.frames)
    (hne : q.frames ≠ []) :
    ∃ before old after, q.frames = before ++ old :: after ∧ Picks before old after ∧
      ∀ maxBytes need n, ¬ q.bytes + need ≤ maxBytes →
        evictLoop maxBytes need (n + 1) q s = evictLoop maxBytes need n
          ⟨before ++ after, q.bytes - size old, q.counters.count (hint old)⟩
          (EvictionScan.remove s (names old) old) := by
  obtain ⟨c, hclass, hqueued, hcheapest⟩ := h.cheapestClass hne
  obtain ⟨key, hkey, ⟨f, hf, hhint, hnames⟩, hheaviest⟩ := h.heaviestOf hqueued
  obtain ⟨old, before, after, hbefore, hold, hframes, herase⟩ :=
    exists_of_eraseP (p := fun f : α => names f = key ∧ hint f = c) hf (by simp [hhint, hnames])
  simp only [decide_eq_true_eq] at hbefore hold
  obtain ⟨rfl, rfl⟩ := hold
  refine ⟨before, old, after, hframes, ⟨?_, ?_, ?_, ?_⟩, ?_⟩
  · rwa [← hframes]
  · intro f hf hhint
    rw [← hframes] at hf ⊢
    have hnot := hheaviest f hf hhint
    rw [heavier_iff] at hnot
    omega
  · intro f hf hhint hbytes
    rw [← hframes] at hf hbytes
    have hnot := hheaviest f hf hhint
    rw [heavier_iff, not_or, not_and] at hnot
    exact not_lt.1 (hnot.2 hbytes.symm)
  · exact fun f hf hhint hnames => hbefore f hf ⟨hnames, hhint⟩
  · intro maxBytes need n hfull
    have hfind : q.frames.find? (fun f => decide (names f = names old ∧ hint f = hint old)) = some old := by
      rw [find?_eq_some_iff_append]
      refine ⟨by simp, before, after, hframes, fun f hf => ?_⟩
      simpa [imp_iff_not_or] using hbefore f hf
    rw [evictLoop, if_neg hfull]
    simp only [hclass, hkey, hfind, herase]

def countEvicted (counters : EvictionCounters) (gone : List α) : EvictionCounters :=
  gone.foldl (fun c f => c.count (hint f)) counters

theorem evictLoop_of_fits {maxBytes need : Nat} {q : FrameQueue α} (s : EvictionScan)
    (hfits : q.bytes + need ≤ maxBytes) (n : Nat) : evictLoop maxBytes need n q s = (q, true) := by
  cases n with
  | zero => simp [evictLoop, hfits]
  | succ n => rw [evictLoop, if_pos hfits]

/-- The loop ends with enough room after at most as many rounds as there are frames, however many more
it is given. -/
theorem evictLoop_makesRoom {maxBytes need : Nat} (hneed : need ≤ maxBytes) {q : FrameQueue α}
    {s : EvictionScan} (h : Tallies s q.frames) (hbytes : q.bytes = total size q.frames) :
    ∃ gone kept, MakesRoom size Picks maxBytes need q.frames gone kept ∧
      ∀ n, q.frames.length ≤ n → evictLoop maxBytes need n q s =
        (⟨kept, total size kept, countEvicted q.counters gone⟩, true) := by
  induction hlength : q.frames.length generalizing q s with
  | zero =>
    have hfits : q.bytes + need ≤ maxBytes := by
      rw [hbytes, length_eq_zero_iff.1 hlength, total_nil]
      omega
    refine ⟨[], q.frames, .fits (hbytes ▸ hfits), fun n _ => ?_⟩
    rw [evictLoop_of_fits s hfits, ← hbytes]
    rfl
  | succ m ih =>
    by_cases hfits : q.bytes + need ≤ maxBytes
    · refine ⟨[], q.frames, .fits (hbytes ▸ hfits), fun n _ => ?_⟩
      rw [evictLoop_of_fits s hfits, ← hbytes]
      rfl
    · have hne : q.frames ≠ [] := by
        intro hnil
        rw [hnil] at hlength
        cases hlength
      obtain ⟨before, old, after, hframes, hpicks, hround⟩ := evictLoop_round h hne
      rw [hframes] at h hlength
      have hrest : q.bytes - size old = total size (before ++ after) := by
        rw [hbytes, hframes]
        simp only [total_append, total_cons]
        omega
      have hlength' : (before ++ after).length = m := by
        simp only [length_append, length_cons] at hlength ⊢
        omega
      obtain ⟨gone, kept, hroom, hloop⟩ := ih
        (q := ⟨before ++ after, q.bytes - size old, q.counters.count (hint old)⟩) h.remove hrest hlength'
      refine ⟨old :: gone, kept, ?_, fun n hn => ?_⟩
      · rw [hframes]
        refine .evict ?_ hpicks hroom
        rw [← hframes, ← hbytes]
        omega
      · obtain ⟨n, rfl⟩ : ∃ n', n = n' + 1 := ⟨n - 1, by omega⟩
        rw [hround _ _ _ hfits, hloop n (by omega)]
        rfl

/-! ### Single calls -/

section Calls

variable {q : FrameQueue α} {maxBytes : Nat} {frame : α}

theorem trySend_of_oversized (h : maxBytes < size frame) :
    q.trySend maxBytes frame =
      (⟨q.frames, q.bytes, { q.counters with oversized := q.counters.oversized + 1 }⟩, false) := by
  rw [trySend, evictForRoom, if_pos h]

theorem trySend_of_le (h : size frame ≤ maxBytes) (hbytes : q.bytes = total size q.frames) :
    ∃ gone kept, MakesRoom size Picks maxBytes (size frame) q.frames gone kept ∧
      (∀ n, q.frames.length ≤ n → evictLoop maxBytes (size frame) n q (scan q.frames) =
        (⟨kept, total size kept, countEvicted q.counters gone⟩, true)) ∧
      q.trySend maxBytes frame =
        (⟨kept ++ [frame], total size (kept ++ [frame]), countEvicted q.counters gone⟩, true) := by
  obtain ⟨gone, kept, hroom, hloop⟩ := evictLoop_makesRoom h (tallies_scan q.frames) hbytes
  refine ⟨gone, kept, hroom, hloop, ?_⟩
  rw [trySend, evictForRoom, if_neg (Nat.not_lt.2 h), hloop _ (Nat.le_refl _)]
  simp

end Calls

end FrameQueue

/-! ### Runs -/

/-- A call of an `InjectQueue` or an `ExportQueue`, whose `push` is `try_send` without the answer. -/
inductive FrameQueueCall (α : Type) where
  | trySend (frame : α)
  | drain

/-- A queue with what it accepted and what it handed out so far. -/
structure FrameQueueRun (α : Type) where
  queue : FrameQueue α
  accepted : List α
  drained : List α

namespace FrameQueueRun

variable {α : Type} [QueuedMedia α]

def call (maxBytes : Nat) (r : FrameQueueRun α) : FrameQueueCall α → FrameQueueRun α
  | .trySend frame =>
    match r.queue.trySend maxBytes frame with
    | (queue, true) => ⟨queue, r.accepted ++ [frame], r.drained⟩
    | (queue, false) => { r with queue }
  | .drain => ⟨r.queue.drain.1, r.accepted, r.drained ++ r.queue.drain.2⟩

def run (maxBytes : Nat) (calls : List (FrameQueueCall α)) : FrameQueueRun α :=
  calls.foldl (call maxBytes) ⟨.empty, [], []⟩

/-- The counter is right, and the frames went through the queue as the policy says. -/
structure Logged (maxBytes : Nat) (r : FrameQueueRun α) (evicted : List α) : Prop where
  bytes : r.queue.bytes = total size r.queue.frames
  reached : Log.Reached size FrameQueue.Picks maxBytes ⟨r.queue.frames, r.accepted, evicted, r.drained⟩

theorem Logged.call {maxBytes : Nat} {r : FrameQueueRun α} {evicted : List α}
    (h : Logged maxBytes r evicted) (c : FrameQueueCall α) :
    ∃ evicted', Logged maxBytes (r.call maxBytes c) evicted' := by
  cases c with
  | trySend frame =>
    by_cases hsize : size frame ≤ maxBytes
    · obtain ⟨gone, kept, hroom, -, hsend⟩ := FrameQueue.trySend_of_le hsize h.bytes
      refine ⟨evicted ++ gone, ?_⟩
      simp only [FrameQueueRun.call, hsend]
      exact ⟨rfl, h.reached.tail (.accept hroom)⟩
    · refine ⟨evicted, ?_⟩
      simp only [FrameQueueRun.call, FrameQueue.trySend_of_oversized (Nat.lt_of_not_le hsize)]
      exact ⟨h.bytes, h.reached⟩
  | drain => exact ⟨evicted, rfl, h.reached.tail .drain⟩

theorem logged_run (maxBytes : Nat) (calls : List (FrameQueueCall α)) :
    ∃ evicted, Logged maxBytes (run maxBytes calls) evicted := by
  induction calls using reverseRecOn with
  | nil => exact ⟨[], rfl, .refl⟩
  | append_singleton calls c ih =>
    obtain ⟨evicted, h⟩ := ih
    rw [run, foldl_append]
    exact h.call c

end FrameQueueRun

open FrameQueue in
/-- **Eviction in the inject and export queues.** The counter of a queue is the bytes it holds,
within the limit. A frame is refused if and only if it is larger than the limit, and then nothing is
touched; for any other frame the loop ends, by taking out what the policy picks as long as the frame
does not fit. Every accepted frame was evicted, is queued or was handed out, once, and in the order
of arrival. -/
theorem frame_queue_evicts {α : Type} [QueuedMedia α] (maxBytes : Nat)
    (calls : List (FrameQueueCall α)) :
    ∃ r evicted, FrameQueueRun.run maxBytes calls = r ∧
      r.queue.bytes = total size r.queue.frames ∧ r.queue.bytes ≤ maxBytes ∧
      (∀ frame, (r.queue.trySend maxBytes frame).2 = false ↔ maxBytes < size frame) ∧
      (∀ frame, maxBytes < size frame →
        (r.queue.trySend maxBytes frame).1.frames = r.queue.frames ∧
          (r.queue.trySend maxBytes frame).1.bytes = r.queue.bytes) ∧
      (∀ frame, size frame ≤ maxBytes →
        ∃ gone kept, MakesRoom size Picks maxBytes (size frame) r.queue.frames gone kept ∧
          (∀ n, r.queue.frames.length ≤ n →
            evictLoop maxBytes (size frame) n r.queue (scan r.queue.frames) =
              (⟨kept, total size kept, countEvicted r.queue.counters gone⟩, true)) ∧
          (r.queue.trySend maxBytes frame).1.frames = kept ++ [frame]) ∧
      r.queue.drain.2 = r.queue.frames ∧ r.queue.drain.1.frames = [] ∧
      Log.Reached size Picks maxBytes ⟨r.queue.frames, r.accepted, evicted, r.drained⟩ ∧
      (r.drained ++ r.queue.frames).Sublist r.accepted ∧
      r.accepted.Perm (r.drained ++ r.queue.frames ++ evicted) := by
  obtain ⟨evicted, hlogged⟩ := FrameQueueRun.logged_run maxBytes calls
  have hsound := hlogged.reached.sound
  refine ⟨_, evicted, rfl, hlogged.bytes, hlogged.bytes ▸ hsound.within, fun frame => ?_,
    fun frame hsize => ?_, fun frame hsize => ?_, rfl, rfl, hlogged.reached, hsound.inOrder, hsound.once⟩
  · by_cases hsize : size frame ≤ maxBytes
    · obtain ⟨gone, kept, -, -, hsend⟩ := trySend_of_le hsize hlogged.bytes
      simp [hsend, Nat.not_lt.2 hsize]
    · simp [trySend_of_oversized (Nat.lt_of_not_le hsize), Nat.lt_of_not_le hsize]
  · rw [trySend_of_oversized hsize]
    exact ⟨rfl, rfl⟩
  · obtain ⟨gone, kept, hroom, hloop, hsend⟩ := trySend_of_le hsize hlogged.bytes
    exact ⟨gone, kept, hroom, hloop, by rw [hsend]⟩

def plainFrame (hint : DeliveryHint) (payload : List UInt8) : MeshFrame :=
  ⟨"live", "cam", 1, 9, 0, hint, payload⟩

/-- A full queue gives up its droppable frame for another one, and nothing for a frame that is larger
than the limit. -/
theorem frame_queue_evicts_full :
    ∃ r, FrameQueueRun.run 150 [FrameQueueCall.trySend (plainFrame .critical []),
        .trySend (plainFrame .droppable [])] = r ∧
      (∃ gone kept, MakesRoom size FrameQueue.Picks 150 64 r.queue.frames gone kept ∧
        (r.queue.trySend 150 (plainFrame .resyncPoint [])).1.frames =
          kept ++ [plainFrame .resyncPoint []]) ∧
      (r.queue.trySend 150 (plainFrame .resyncPoint [])).1.frames =
        [plainFrame .critical [], plainFrame .resyncPoint []] ∧
      (r.queue.trySend 150 (plainFrame .critical (List.replicate 90 0))).1.frames = r.queue.frames := by
  obtain ⟨r, -, hrun, -, -, -, hrefused, hplaced, -⟩ := frame_queue_evicts 150
    [FrameQueueCall.trySend (plainFrame .critical []), .trySend (plainFrame .droppable [])]
  obtain ⟨gone, kept, hroom, -, hframes⟩ := hplaced (plainFrame .resyncPoint []) (by decide)
  refine ⟨r, hrun, ⟨gone, kept, hroom, hframes⟩, ?_, (hrefused _ (by decide)).1⟩
  rw [← hrun]
  decide +kernel

end RtmpServer
