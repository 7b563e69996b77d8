import RtmpServer.Cluster.StateMachine
import RtmpServer.Db.SameTables

/-!
# The state machine reads only the replicated tables

Two databases with the same replicated tables answer every log entry alike and hold the same tables
afterwards, whatever order their rows are in and whatever sessions each node has. Over a log this
makes `step` a simulation of itself (`SameTables.step`).
-/

namespace RtmpServer

open Lib.Table Lib.Replay

structure SameApplied (a b : Applied) : Prop where
  db : SameTables a.db b.db
  response : a.response = b.response

namespace SameTables

variable {db db' : Db}

/-! ### Seeding -/

/-- Both loops end, or both stop early, with the same tables. -/
def LoopRel : Except Db Db → Except Db Db → Prop
  | .ok a, .ok b => SameTables a b
  | .error a, .error b => SameTables a b
  | _, _ => False

theorem LoopRel.cases {a b : Except Db Db} (h : LoopRel a b) :
    (∃ d d', a = .ok d ∧ b = .ok d' ∧ SameTables d d') ∨
      ∃ d d', a = .error d ∧ b = .error d' ∧ SameTables d d' := by
  cases a with
  | ok d =>
    cases b with
    | ok d' => exact .inl ⟨d, d', rfl, rfl, h⟩
    | error d' => exact h.elim
  | error d =>
    cases b with
    | ok d' => exact h.elim
    | error d' => exact .inr ⟨d, d', rfl, rfl, h⟩

theorem seedStreams (tokens : List (String × String)) (streams : List Stream)
    (h : SameTables db db') :
    LoopRel (seedStreams tokens db streams) (RtmpServer.seedStreams tokens db' streams) := by
  induction streams generalizing db db' with
  | nil => exact h
  | cons s rest ih =>
    unfold RtmpServer.seedStreams
    rcases (h.streamInsertOnlyWithToken s (seedToken tokens s)).cases with
      ⟨d, d', ha, hb, hi⟩ | ⟨e, ha, hb⟩
    · rw [ha, hb]
      exact ih hi
    · rw [ha, hb]
      cases e with
      | duplicate => exact ih h
      | db => exact h

theorem seedViewers (viewers : List StreamViewer) (h : SameTables db db') (hok : SchemaOk db) :
    LoopRel (seedViewers db viewers) (RtmpServer.seedViewers db' viewers) := by
  induction viewers generalizing db db' with
  | nil => exact h
  | cons v rest ih =>
    unfold RtmpServer.seedViewers
    rcases (h.viewerAdd hok v).cases with ⟨d, d', ha, hb, hi⟩ | ⟨e, ha, hb⟩
    · rw [ha, hb]
      exact ih hi (hok.insertViewer (Db.viewerAdd_eq_ok.1 ha).2.2)
    · rw [ha, hb]
      cases e with
      | duplicate => exact ih h hok
      | parentUnavailable => exact h
      | db => exact h

theorem seedPending (ids : List String) (h : SameTables db db') :
    SameTables (seedPending db ids) (RtmpServer.seedPending db' ids) := by
  induction ids generalizing db db' with
  | nil => exact h
  | cons id rest ih => exact ih (h.setStreamFlags _ _ _)

variable (h : SameTables db db')
include h

variable (hok : SchemaOk db)
include hok

theorem seedFromStandalone (streams : List Stream)
    (viewers : List StreamViewer) (tokens : List (String × String)) (apiToken : Option String)
    (pending : List String) :
    SameApplied (seedFromStandalone db streams viewers tokens apiToken pending)
      (RtmpServer.seedFromStandalone db' streams viewers tokens apiToken pending) := by
  unfold RtmpServer.seedFromStandalone
  obtain ⟨d, hd, hr⟩ := seedStreams_reaches tokens streams db
  rcases (h.seedStreams tokens streams).cases with ⟨d₁, d', ha, hb, hs⟩ | ⟨d₁, d', ha, hb, -⟩
  · obtain rfl : d = d₁ := Except.ok.inj (hd.symm.trans ha)
    rw [ha, hb]
    dsimp only
    rcases (SameTables.seedViewers viewers hs (hok.reaches hr)).cases with
      ⟨e, e', ha, hb, hv⟩ | ⟨e, e', ha, hb, hv⟩
    · rw [ha, hb]
      refine ⟨SameTables.seedPending pending ?_, rfl⟩
      cases apiToken with
      | none => exact hv
      | some token => exact hv.tokenReplace token
    · rw [ha, hb]
      exact ⟨hv, rfl⟩
  · rw [hd] at ha
    cases ha

/-! ### Commands -/

theorem deleteViewer (streamId viewerId : String) :
    SameApplied (deleteViewer db streamId viewerId)
      (RtmpServer.deleteViewer db' streamId viewerId) := by
  have hl := h.viewerList streamId
  have hd := h.viewerDelete streamId viewerId
  unfold RtmpServer.deleteViewer
  dsimp only
  simp only [hl.length_eq, any_perm hl, h.streamGet hok]
  split_ifs
  · exact ⟨h, rfl⟩
  · exact ⟨h, rfl⟩
  · generalize db.viewerDelete streamId viewerId = a,
      db'.viewerDelete streamId viewerId = b at hd ⊢
    obtain ⟨d, found⟩ := a
    obtain ⟨d', found'⟩ := b
    obtain ⟨hd, rfl⟩ : SameTables d d' ∧ found = found' := hd
    cases found with
    | true => exact ⟨hd.playersDeactivateForViewer viewerId, rfl⟩
    | false => exact ⟨hd, rfl⟩

theorem acquireResponse (streamId : String)
    (nodeId epoch : UInt64) (acquiredAt : Int) (effects : List StateEffect) :
    SameApplied
      (acquireResponse db effects (db.streamOwnerAcquire streamId nodeId epoch acquiredAt))
      (RtmpServer.acquireResponse db' effects
        (db'.streamOwnerAcquire streamId nodeId epoch acquiredAt)) := by
  unfold Db.streamOwnerAcquire
  rw [← h.streamRow hok, ← h.ownerRow hok]
  cases db.streamRow streamId with
  | none => exact ⟨h, rfl⟩
  | some s =>
    dsimp only
    split_ifs
    · cases lookup (·.streamId) db.owners streamId with
      | some o =>
        dsimp only
        split_ifs
        · exact ⟨h, rfl⟩
        · exact ⟨{ h with owners := updateWhere_perm h.owners _ _ }, rfl⟩
      | none =>
        dsimp only
        have hi := h.insertOwner ⟨streamId, nodeId.toInt64, epoch.toInt64, acquiredAt⟩
        generalize db.insertOwner _ = a, db'.insertOwner _ = b at hi ⊢
        cases hi with
        | none => exact ⟨h, rfl⟩
        | some hi => exact ⟨hi, rfl⟩
    · exact ⟨h, rfl⟩

/-- **A command reads only the replicated tables.** -/
theorem applyNormal (index : UInt64) (cmd : ClusterCommand) :
    SameApplied (applyNormal index db cmd) (RtmpServer.applyNormal index db' cmd) := by
  cases cmd with
  | createStream s v token =>
    simp only [RtmpServer.applyNormal, applyCommand]
    rcases (h.streamAddWithViewerWithToken s v (createToken s token)).cases with
      ⟨d, d', ha, hb, hi⟩ | ⟨e, ha, hb⟩
    · rw [ha, hb]
      exact ⟨hi, rfl⟩
    · rw [ha, hb]
      cases e <;> exact ⟨h, rfl⟩
  | beginDeleteStream id createdAt token =>
    simp only [RtmpServer.applyNormal, applyCommand, Db.streamDisableExpecting]
    rw [any_perm h.streams, h.hasStream]
    have hf := h.setStreamFlags (Db.disableMatches id createdAt token) false true
    split_ifs <;> exact ⟨hf, rfl⟩
  | finalizeDeleteStream id =>
    simp only [RtmpServer.applyNormal, applyCommand]
    obtain ⟨hd, hflag⟩ := h.streamDeleteIfPending id
    have hok' := hok.streamDeleteIfPending id
    rcases hx : db.streamDeleteIfPending id with ⟨d, x⟩
    rcases hy : db'.streamDeleteIfPending id with ⟨d', y⟩
    rw [hx, hy] at hd hflag
    rw [hx] at hok'
    cases hflag
    cases x with
    | true => exact ⟨hd, rfl⟩
    | false => exact ⟨hd, by dsimp only; rw [hd.streamGet hok']⟩
  | setStreamEnabled id enabled =>
    simp only [RtmpServer.applyNormal, applyCommand, Db.streamSetEnabled]
    have hf := h.setStreamFlags (fun r => decide (r.id = id)) enabled false
    have hok' := hok.setStreamFlags (fun r => decide (r.id = id)) enabled false
    rw [h.hasStream]
    cases db'.hasStream id with
    | true => exact ⟨hf, rfl⟩
    | false => exact ⟨hf, by dsimp only; rw [hf.streamGet hok']⟩
  | createViewer v =>
    simp only [RtmpServer.applyNormal, applyCommand]
    rcases (h.viewerAdd hok v).cases with ⟨d, d', ha, hb, hi⟩ | ⟨e, ha, hb⟩
    · rw [ha, hb]
      exact ⟨hi, rfl⟩
    · rw [ha, hb]
      cases e <;> exact ⟨h, rfl⟩
  | deleteViewer streamId viewerId => exact h.deleteViewer hok streamId viewerId
  | setApiToken token => exact ⟨h.tokenReplace token, rfl⟩
  | acquireStreamOwner streamId nodeId epoch acquiredAt =>
    exact h.acquireResponse hok streamId nodeId (max index 1) acquiredAt _
  | releaseStreamOwner streamId epoch => exact ⟨h.deleteOwners _, rfl⟩
  | releaseOwnersForNode nodeId maxEpoch => exact ⟨h.deleteOwners _, rfl⟩
  | seedFromStandalone streams viewers tokens apiToken pending =>
    exact h.seedFromStandalone hok streams viewers tokens apiToken pending
  | setClusterId id => exact ⟨h.clusterIdSet id, rfl⟩

theorem applyEntry (e : Entry) :
    SameApplied (applyEntry db e) (RtmpServer.applyEntry db' e) := by
  unfold RtmpServer.applyEntry
  cases e.payload with
  | blank => exact ⟨h, rfl⟩
  | normal cmd => exact h.applyNormal hok _ cmd
  | membership mem => exact ⟨h, rfl⟩

theorem step {e : Entry} {d : Db}
    (hd : step db e = some d) : ∃ d', RtmpServer.step db' e = some d' ∧ SameTables d d' := by
  obtain ⟨hresp, rfl⟩ := step_eq_some.1 hd
  have ha := h.applyEntry hok e
  exact ⟨_, step_eq_some.2 ⟨ha.response ▸ hresp, rfl⟩, ha.db⟩

end SameTables

end RtmpServer
