import RtmpServer.Cluster.StateMachine
import RtmpServer.Db.PlayerCounts

/-!
# Viewer slots of a deleted stream

Deleting a stream removes its `players` rows and leaves `active_player_counts` as it is. The release
of such a session finds no row, so it does not give the slot back: the count stays balanced only if
the rows that go were inactive.
-/

namespace RtmpServer

open Lib.Table Lib.Replay Option

inductive StreamDeletion where
  | streamDelete
  | streamDeleteIfPending
  | finalizeDeleteStream (index : UInt64)

def StreamDeletion.run (db : Db) (id : String) : StreamDeletion → Db
  | .streamDelete => db.streamDelete id false
  | .streamDeleteIfPending => (db.streamDeleteIfPending id).1
  | .finalizeDeleteStream index => (applyNormal index db (.finalizeDeleteStream id)).db

/-- The operations on viewer sessions and the deletions, which need the connection too. -/
inductive SlotsOp where
  | session (op : CountsOp)
  | delete (deletion : StreamDeletion) (id : String)

namespace PlayerCounts

variable {s s' : PlayerCounts}

def slotsStep (s : PlayerCounts) : SlotsOp → Option PlayerCounts
  | .session op => s.step op
  | .delete deletion id =>
    if s.next.isSome || s.batch.isSome then none else some (s.setDb (deletion.run s.db id))

/-- A deletion takes no active row with it. -/
def takesInactive (s : PlayerCounts) : SlotsOp → Bool
  | .session _ => true
  | .delete _ id => s.db.players.all fun p => p.streamId = id → p.active = false

theorem takesInactive_delete {deletion : StreamDeletion} {id : String} :
    s.takesInactive (.delete deletion id) ↔
      ∀ p ∈ s.db.players, p.streamId = id → p.active = false := by
  rw [takesInactive, List.all_eq_true]
  exact forall₂_congr fun p _ => decide_eq_true_iff

end PlayerCounts

namespace StreamDeletion

variable {db : Db} {id : String}

/-- What a deletion leaves of the viewer sessions. -/
structure Leaves (db : Db) (id : String) (db' : Db) : Prop where
  rows : db'.players = db.players ∨ db'.players = deleteWhere (fun p => p.streamId = id) db.players
  streams : ∀ p ∈ db'.players, db.hasStream p.streamId → db'.hasStream p.streamId
  counts : db'.activePlayerCounts = db.activePlayerCounts
  unpersisted : db'.unpersistedPlayerCounts = db.unpersistedPlayerCounts

theorem run_leaves (db : Db) (id : String) (deletion : StreamDeletion) :
    Leaves db id (deletion.run db id) := by
  have hpending : Leaves db id (db.streamDeleteIfPending id).1 := by
    unfold Db.streamDeleteIfPending
    dsimp only
    split_ifs
    · refine ⟨.inr rfl, fun p hp hs => ?_, rfl, rfl⟩
      grind [Db.hasStream, mem_deleteWhere]
    · exact ⟨.inl rfl, fun _ _ hs => hs, rfl, rfl⟩
  cases deletion with
  | streamDelete =>
    refine ⟨.inr rfl, fun p hp hs => ?_, rfl, rfl⟩
    grind [run, Db.streamDelete, Db.hasStream, mem_deleteWhere]
  | streamDeleteIfPending => exact hpending
  | finalizeDeleteStream index =>
    rw [run, finalizeDeleteStream_db]
    exact hpending

variable {db' : Db} (hinactive : ∀ p ∈ db.players, p.streamId = id → p.active = false)

include hinactive

theorem Leaves.activePlayers (h : Leaves db id db') (v : String) :
    db'.activePlayers v = db.activePlayers v := by
  unfold Db.activePlayers
  rcases h.rows with hrows | hrows
  · rw [hrows]
  · rw [hrows, deleteWhere, List.countP_filter]
    refine List.countP_congr fun p hp => ?_
    have := hinactive p hp
    grind

theorem Leaves.counted (h : Leaves db id db') (hc : db.Counted none) : db'.Counted none := by
  intro v
  rw [h.counts, h.unpersisted, h.activePlayers hinactive]
  exact hc v

end StreamDeletion

namespace PlayerCounts

variable {s s' : PlayerCounts} {op : SlotsOp}

theorem Books.slotsStep (h : s.Books) (hok : s.takesInactive op)
    (hs : s.slotsStep op = some s') : s'.Books := by
  cases op with
  | session op => exact h.step hs
  | delete deletion id =>
    obtain ⟨hfree, hs⟩ := ite_none_left_eq_some.1 hs
    obtain rfl := some.inj hs
    simp only [Bool.or_eq_true, not_or, Bool.not_eq_true, isSome_eq_false_iff,
      isNone_iff_eq_none] at hfree
    have hleaves := StreamDeletion.run_leaves s.db id deletion
    have hinactive := takesInactive_delete.1 hok
    refine ⟨?_, h.saved, fun v => ?_, ?_⟩
    · show UniqueOn (·.id) (deletion.run s.db id).players
      rcases hleaves.rows with hrows | hrows
      · rw [hrows]
        exact h.unique
      · rw [hrows]
        exact h.unique.deleteWhere _
    · show (deletion.run s.db id).unpersistedPlayerCounts v = _
      rw [hleaves.unpersisted]
      exact h.reserved v
    · have hbalanced := h.balanced
      show (deletion.run s.db id).Balanced s.next
      rw [hfree.1] at hbalanced ⊢
      exact hleaves.counted hinactive hbalanced

end PlayerCounts

/-- **Deleted streams keep no slots**, if their sessions were inactive: every slot of a viewer is
one of its active rows or a reservation, and after the next deletion a viewer with rows of that
stream only has its reservations left. -/
theorem stream_deletion_releases_slots {database : Database} {ops : List SlotsOp} {s : PlayerCounts}
    (hrun : replay PlayerCounts.slotsStep (.start database) ops = some s)
    (hok : along PlayerCounts.slotsStep PlayerCounts.takesInactive ops (.start database) = true)
    (hnext : s.next = none) (v : String) :
    s.db.activePlayerCounts v = s.db.activePlayers v + s.reserved v ∧
    ∀ deletion id, s.takesInactive (.delete deletion id) = true →
      (∀ p ∈ s.db.players, p.viewerId = v → p.streamId = id) →
      (deletion.run s.db id).activePlayerCounts v = s.reserved v := by
  have hbooks : s.Books := replay_inv_along (fun _ _ _ hs hok hstep => hs.slotsStep hok hstep)
    (PlayerCounts.Books.start database) hok hrun
  have hreserved := hbooks.reserved v
  have hcounted := hbooks.balanced
  rw [hnext] at hreserved hcounted
  have hcount := Db.counted_none.1 hcounted v
  have hpending : s.db.unpersistedPlayerCounts v = s.reserved v := by
    simpa [CountStep.settling] using hreserved
  rw [hpending] at hcount
  refine ⟨hcount, fun deletion id hdelete hviewer => ?_⟩
  have hnone : s.db.activePlayers v = 0 := by
    refine List.countP_eq_zero.2 fun p hp => ?_
    have hinactive := PlayerCounts.takesInactive_delete.1 hdelete p hp
    have hstream := hviewer p hp
    grind
  rw [(StreamDeletion.run_leaves s.db id deletion).counts, hcount]
  show s.db.activePlayers v + s.reserved v = s.reserved v
  omega

/-- A session ends before its stream is deleted, while the viewer has a reservation. -/
def deletedAfterRelease : List SlotsOp :=
  [.session (.playerTryAcquire (countedPlayer "a" true)), .session (.advance false),
    .session (.playerReserve "v"), .session (.playerUpdate "a" (countedPlayer "a" false)),
    .session (.advance false), .session (.advance false), .delete .streamDelete "s"]

theorem stream_deletion_releases_slots_reserved :
    ∃ s, replay PlayerCounts.slotsStep (.start countedDatabase) deletedAfterRelease = some s ∧
      s.reserved "v" = 1 ∧
      s.db.activePlayerCounts "v" = s.db.activePlayers "v" + s.reserved "v" := by
  have hends : ((replay PlayerCounts.slotsStep (.start countedDatabase) deletedAfterRelease).map
    fun s => (s.next.isNone, s.reserved "v")) = some (true, 1) := by decide +kernel
  obtain ⟨s, hrun, hs⟩ := map_eq_some_iff.1 hends
  obtain ⟨hnext, hreserved⟩ := Prod.mk.inj hs
  exact ⟨s, hrun, hreserved, (stream_deletion_releases_slots hrun (by decide +kernel)
    (isNone_iff_eq_none.1 hnext) "v").1⟩

/-- The stream is deleted under an active session, whose release then finds no row: the slot of the
viewer is neither a row nor a reservation. -/
theorem stream_deletion_leaks_slot :
    ((replay PlayerCounts.slotsStep (.start countedDatabase)
        [.session (.playerTryAcquire (countedPlayer "a" true)), .session (.advance false),
          .delete .streamDelete "s", .session (.playerUpdate "a" (countedPlayer "a" false)),
          .session (.advance false)]).map fun s =>
      (s.next.isNone, s.db.players.length, s.reserved "v", s.db.activePlayerCounts "v")) =
    some (true, 0, 0, 1) := by
  decide +kernel

end RtmpServer
