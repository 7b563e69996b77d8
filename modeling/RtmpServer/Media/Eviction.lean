import RtmpServer.Media.QueueHistory

/-!
# The order of eviction

When a message does not fit, `make_room` takes whole streams out of the queue, the heaviest first,
and after them critical frames, the oldest first. `Evicts` is one turn in these terms.
-/

namespace RtmpServer

namespace LiveQueue

/-- One turn of making room for a message of `size` bytes. The sums the queue keeps beside its entries
are those of what is left. -/
inductive Evicts (size : Nat) (cfg : LiveQueueConfig) (q q' : LiveQueue) : Prop
  /-- All that can be evicted of a stream goes, of one that has the most bytes to evict. -/
  | stream (k : StreamKey) (full : q.fits size cfg = false) (some : 0 < q.evictableBytes k)
      (heaviest : ∀ j, q.evictableBytes j ≤ q.evictableBytes k)
      (entries : q'.entries = q.entries.filter (!·.evictableOf k)) (booked : q'.Booked q'.entries)
  /-- The oldest critical frame goes, as nothing else can. -/
  | critical (before : List QueueEntry) (e : QueueEntry) (after : List QueueEntry)
      (full : q.fits size cfg = false) (nothing : ∀ x ∈ q.entries, x.kind.evictable = false)
      (split : q.entries = before ++ e :: after) (critical : e.kind = .media .critical)
      (oldest : ∀ x ∈ before, x.kind ≠ .media .critical) (entries : q'.entries = before ++ after)
      (booked : q'.Booked q'.entries)

theorem EvictStep.evicts {size now : Nat} {cfg : LiveQueueConfig} {q q' : LiveQueue}
    (h : EvictStep size now cfg q q') (hq : q.Booked q.entries) (hq' : q'.Booked q'.entries) :
    Evicts size cfg q q' := by
  obtain ⟨hsome, hnone⟩ := q.heaviestEvictable_max
  cases h with
  | stream k hfull hheaviest =>
    obtain ⟨hpos, hmax⟩ := hsome k hheaviest
    exact .stream k hfull hpos hmax (q.discard_spec _ _ _).1 hq'
  | critical before e after hfull hnothing hsplit hfirst hcritical =>
    exact .critical before e after hfull (hq.none_evictable (hnone hnothing)) hsplit hcritical hfirst
      (q.evictCritical_entries _ e) hq'

theorem Evicted.evicts {size now : Nat} {cfg : LiveQueueConfig} {q q' : LiveQueue}
    (h : Evicted size now cfg q q') (hq : q.Booked q.entries) :
    Relation.ReflTransGen (Evicts size cfg) q q' := by
  induction h with
  | refl => exact .refl
  | @tail q₁ q₂ h₁ hstep ih =>
    exact ih.tail (hstep.evicts ((Evicted.maintained h₁).booked hq)
      ((Evicted.maintained (h₁.tail hstep)).booked hq))

theorem pushAt_oversized {q q' : LiveQueue} (hq : q.Booked q.entries) {cfg : LiveQueueConfig}
    {e : QueueEntry} (h : q.pushAt cfg e = some (.dropped .oversized, q')) :
    q' = q.refuseOversized e := by
  obtain ⟨r, q₁, hpush, hpushing⟩ := pushAt_steps hq cfg e
  rw [h] at hpush
  obtain ⟨rfl, rfl⟩ := Prod.mk.inj (Option.some.inj hpush)
  cases hpushing
  rfl

/-- **Eviction order.** `make_room` returns. It takes out whole streams, the heaviest first, then
critical frames, the oldest first, and nothing once the message fits; it gives up only beside
control messages, none of which it has taken. A frame that is refused as too large changes neither
the entries nor the states of the streams. -/
theorem eviction_order (cfg : LiveQueueConfig) (q : LiveQueue) (hq : q.Ok cfg) (size now : Nat) :
    (∃ b q', q.makeRoom size now cfg = some (b, q') ∧ q'.fits size cfg = b ∧
      Relation.ReflTransGen (Evicts size cfg) q q' ∧
      (b = false → ∀ e ∈ q'.entries, e.kind = .control) ∧
      q'.entries.Sublist q.entries ∧
      q'.entries.filter (!·.isMedia) = q.entries.filter (!·.isMedia)) ∧
    ∀ e q', q.pushAt cfg e = some (.dropped .oversized, q') →
      q'.entries = q.entries ∧ q'.streams = q.streams := by
  constructor
  · obtain ⟨b, q', hroom, hevicted, hfits, hcontrol⟩ := makeRoom_steps hq.booked size now cfg
    have hmaintained := hevicted.maintained
    exact ⟨b, q', hroom, hfits, hevicted.evicts hq.booked, hcontrol, hmaintained.sublist,
      hmaintained.control⟩
  · intro e q' hpush
    rw [pushAt_oversized hq.booked hpush]
    exact ⟨rfl, rfl⟩

/-- A queue of two frames has no room for a third. -/
theorem eviction_order_two_frames :
    ∃ q : LiveQueue, q.Ok ⟨2, 1000, 3000, 10000⟩ ∧ q.fits 65 ⟨2, 1000, 3000, 10000⟩ = false ∧
      ∃ b q', q.makeRoom 65 1 ⟨2, 1000, 3000, 10000⟩ = some (b, q') ∧
        q'.fits 65 ⟨2, 1000, 3000, 10000⟩ = b ∧
        Relation.ReflTransGen (Evicts 65 ⟨2, 1000, 3000, 10000⟩) q q' := by
  have hrun : (QueueRun.start.exec ⟨2, 1000, 3000, 10000⟩
      [.push (.mediaFrame "live" "a" 1 1 0 0 .droppable [1]) 0,
        .push (.mediaFrame "live" "b" 1 1 0 0 .critical [2]) 0]).map
      (·.queue.fits 65 ⟨2, 1000, 3000, 10000⟩) = some false := by decide
  obtain ⟨s, hexec, hfull⟩ := Option.map_eq_some_iff.1 hrun
  obtain ⟨s', hexec', hok⟩ := QueueRun.exec_ok (QueueRun.start_ok ⟨2, 1000, 3000, 10000⟩) _
  obtain rfl := Option.some.inj (hexec.symm.trans hexec')
  obtain ⟨b, q', hroom, hfits, hevicts, -⟩ := (eviction_order _ s.queue hok 65 1).1
  exact ⟨s.queue, hok, hfull, b, q', hroom, hfits, hevicts⟩

end LiveQueue

end RtmpServer
