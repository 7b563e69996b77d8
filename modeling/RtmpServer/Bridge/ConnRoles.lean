import RtmpServer.Bridge.OrphanRows
import RtmpServer.Bridge.RefusedSwitch

/-!
# The roles of a connection and what is filed beside them

A connection's state holds its sessions and, beside them, `viewer_id` and `stream_id`, by which the
poll loop finds the connections of a revoked viewer and routes media. Every operation that starts or
ends one role realigns the two by hand (`ConnState.Coherent`).

All sections keep them aligned but two: a fast play whose row cannot be written loses its session
and nothing else (`Action.dropPlayer`), and a player that joins a publisher takes an empty
`stream_id` for a missing one.
-/

namespace RtmpServer

open Lib.Program Lib.Replay

/-- `viewer_id` is the player's viewer; `stream_id` is the publisher's stream, else the player's. -/
structure ConnState.Coherent (cs : ConnState) : Prop where
  viewerId : cs.viewerId = cs.player.elim "" (·.viewerId)
  streamId : cs.streamId = cs.publisher.elim (cs.player.elim "" (·.streamId)) (·.streamId)

namespace ConnState.Coherent

variable {cs : ConnState}

theorem default : ConnState.Coherent {} := ⟨rfl, rfl⟩

theorem withoutPublisher (h : cs.Coherent) : cs.withoutPublisher.Coherent := ⟨h.viewerId, rfl⟩

theorem withoutPlayer (_ : cs.Coherent) : cs.withoutPlayer.Coherent := by
  refine ⟨rfl, ?_⟩
  show cs.publisher.elim "" (·.streamId) = cs.publisher.elim "" (·.streamId)
  rfl

theorem publishing (h : cs.Coherent) (row : PublisherRecord) :
    ConnState.Coherent { cs with publisher := some row, streamId := row.streamId } :=
  ⟨h.viewerId, rfl⟩

theorem playing (h : cs.Coherent) (hpublisher : cs.publisher.all fun p => p.streamId ≠ "")
    (row : PlayerRecord) :
    ConnState.Coherent
      { cs with
        player := some row
        viewerId := row.viewerId
        streamId := if cs.publisher.isNone || cs.streamId = "" then row.streamId else cs.streamId } := by
  refine ⟨rfl, ?_⟩
  have hstream := h.streamId
  show (if cs.publisher.isNone || cs.streamId = "" then row.streamId else cs.streamId) =
    cs.publisher.elim row.streamId (·.streamId)
  cases hp : cs.publisher with
  | none => rfl
  | some p =>
    rw [hp] at hstream hpublisher
    have hne : p.streamId ≠ "" := of_decide_eq_true hpublisher
    rw [hstream]
    simp [hne]

theorem abandoned (h : cs.Coherent) (streamId : String) : (cs.abandoned streamId).Coherent := by
  unfold ConnState.abandoned
  split
  · refine ⟨?_, ?_⟩
    · show (if cs.plays streamId then "" else cs.viewerId) =
        (cs.player.filter fun p => p.streamId ≠ streamId).elim "" (·.viewerId)
      rw [h.viewerId, ConnState.plays]
      cases cs.player with
      | none => rfl
      | some p => by_cases hp : p.streamId = streamId <;> simp [hp, Option.filter_some]
    · show ((cs.publisher.filter _).map _).getD (((cs.player.filter _).map _).getD "") = _
      cases cs.publisher.filter fun p => p.streamId ≠ streamId with
      | none => cases cs.player.filter fun p => p.streamId ≠ streamId <;> rfl
      | some p => rfl
  · exact h

end ConnState.Coherent

def Bridge.RolesCoherent (s : Bridge) : Prop := ∀ conn, (s.connState conn).Coherent

/-- No fast play whose row was not written loses a session that its connection still has, and no
player joins a publisher on a stream without a name. -/
def rolesKept (s : Bridge) : Action → Outcome → Bool
  | .dropPlayer conn id, _ => !(s.connState conn).holdsPlayer id
  | .installPlayer conn _, _ => (s.publisherOf conn).all fun p => p.streamId ≠ ""
  | .admitPlayer conn _, _ => (s.publisherOf conn).all fun p => p.streamId ≠ ""
  | _, _ => true

/-! ### The sections -/

section Sections

variable {s : Bridge}

theorem Bridge.connState_setConn (s : Bridge) (conn : UInt64) (cs : ConnState) (c : UInt64) :
    (s.setConn conn cs).connState c = if c = conn then cs else s.connState c := by
  unfold Bridge.connState Bridge.setConn
  split_ifs with hc
  · subst hc
    rw [AList.lookup_insert]
    rfl
  · rw [AList.lookup_insert_ne hc]

theorem Bridge.RolesCoherent.setConn (h : s.RolesCoherent) {conn : UInt64} {cs : ConnState}
    (hcs : cs.Coherent) : (s.setConn conn cs).RolesCoherent := by
  intro c
  rw [Bridge.connState_setConn]
  split_ifs
  · exact hcs
  · exact h c

theorem Bridge.RolesCoherent.modifyConn (h : s.RolesCoherent) {conn : UInt64}
    {f : ConnState → ConnState} (hf : (f (s.connState conn)).Coherent) :
    (s.modifyConn conn f).RolesCoherent := by
  unfold Bridge.modifyConn
  cases hconn : s.conns.lookup conn with
  | none => exact h
  | some cs =>
    have hcs : s.connState conn = cs := by
      rw [Bridge.connState, hconn]
      rfl
    rw [hcs] at hf
    exact h.setConn hf

theorem Bridge.RolesCoherent.of_conns {s' : Bridge} (h : s.RolesCoherent) (hconns : s'.conns = s.conns) :
    s'.RolesCoherent := by
  intro conn
  have hconn := h conn
  rw [Bridge.connState, ← hconns] at hconn
  exact hconn

theorem connState_abandonRoles (s : Bridge) (streamId : String) (conn : UInt64) :
    (s.abandonRoles streamId).1.connState conn = (s.connState conn).abandoned streamId := by
  show ((mapValues (·.abandoned streamId) s.conns).lookup conn).getD {} = _
  rw [lookup_mapValues, Bridge.connState]
  cases s.conns.lookup conn with
  | none => rfl
  | some cs => rfl

theorem coherent_installPublisher (h : s.RolesCoherent) (conn : UInt64) (row : PublisherRecord) :
    (s.installPublisher conn row).RolesCoherent :=
  h.setConn ((h conn).publishing row)

theorem coherent_installPlayer (h : s.RolesCoherent) {conn : UInt64}
    (hpublisher : (s.publisherOf conn).all fun p => p.streamId ≠ "") (row : PlayerRecord) :
    (s.installPlayer conn row).RolesCoherent :=
  h.setConn ((h conn).playing hpublisher row)

def Action.keepsConns : Action → Bool
  | .installPublisher _ _ => false
  | .installPlayer _ _ => false
  | .admitPublisher _ _ => false
  | .admitPlayer _ _ => false
  | .clearPublisher _ _ => false
  | .clearPlayer _ _ => false
  | .dropPlayer _ _ => false
  | .removeConn _ => false
  | .abandonRoles _ => false
  | _ => true

theorem conns_exec (a : Action) (w : Outcome) (s : Bridge) (h : a.keepsConns) :
    (a.exec w s).1.conns = s.conns := by
  by_cases hroles : a.keepsSessions = true
  · exact congrArg (·.2.1) (roles_exec a w s hroles)
  · cases a with
    | publisherUpdate => rfl
    | publisherTryAcquire => rfl
    | playerUpdate => rfl
    | playerTryAcquire => rfl
    | playerInsertReserved => rfl
    | playerCancelReservation => rfl
    | queueDeactivation => rfl
    | takeDeactivations => rfl
    | _ => first | exact absurd rfl hroles | cases h

theorem roles_coherent_exec (a : Action) (w : Outcome) (h : s.RolesCoherent)
    (hok : rolesKept s a w) : (a.exec w s).1.RolesCoherent := by
  by_cases hconns : a.keepsConns = true
  · exact h.of_conns (conns_exec a w s hconns)
  · cases a with
    | installPublisher conn row => exact coherent_installPublisher h conn row
    | installPlayer conn row => exact coherent_installPlayer h hok row
    | admitPublisher conn row =>
      show (s.admitPublisher conn row).1.RolesCoherent
      unfold Bridge.admitPublisher
      split_ifs
      · exact h
      · dsimp only
        split_ifs
        · exact h.setConn (h conn)
        · exact coherent_installPublisher h conn row
        · exact (coherent_installPublisher h conn row).of_conns rfl
    | admitPlayer conn row =>
      show (s.admitPlayer conn row).1.RolesCoherent
      unfold Bridge.admitPlayer
      split_ifs
      · exact h
      · exact h
      · cases s.db.playerReserve row.viewerId with
        | none => exact h.setConn (h conn)
        | some db =>
          have hdb : (s.setDb db).RolesCoherent := h.of_conns rfl
          exact coherent_installPlayer hdb hok row
    | clearPublisher conn id =>
      refine h.modifyConn ?_
      split_ifs
      · exact (h conn).withoutPublisher
      · exact h conn
    | clearPlayer conn id =>
      refine h.modifyConn ?_
      split_ifs
      · exact (h conn).withoutPlayer
      · exact h conn
    | dropPlayer conn id =>
      refine h.modifyConn ?_
      rw [if_neg (by simpa [rolesKept] using hok)]
      exact h conn
    | removeConn conn =>
      intro c
      show ((s.conns.erase conn).lookup c).getD {} |>.Coherent
      by_cases hc : c = conn
      · subst hc
        rw [AList.lookup_erase]
        exact .default
      · rw [AList.lookup_erase_ne hc]
        exact h c
    | abandonRoles streamId =>
      intro conn
      show ((s.abandonRoles streamId).1.connState conn).Coherent
      rw [connState_abandonRoles]
      exact (h conn).abandoned streamId
    | _ => exact absurd rfl hconns

end Sections

/-! ### Runs -/

/-- A step of the bridge, or of the HTTP handlers and the cluster, which change the tables and the set
of streams that are being deleted. -/
inductive RoleEvent where
  | bridge (e : Event SessionOperation Outcome)
  | outside (db : Db) (deleted : Finset String)

def roleStep (p : Pool Bridge Action Action.Answer) :
    RoleEvent → Option (Pool Bridge Action Action.Answer)
  | .bridge e => Pool.step Action.exec SessionOperation.prog p e
  | .outside db deleted =>
    some { p with state := { p.state.setDb db with deletedStreams := deleted } }

def roleAllows (p : Pool Bridge Action Action.Answer) : RoleEvent → Bool
  | .bridge e => Pool.allows rolesKept p e
  | .outside _ _ => true

theorem roles_coherent_step {p p' : Pool Bridge Action Action.Answer} {e : RoleEvent}
    (h : p.state.RolesCoherent) (hok : roleAllows p e) (hstep : roleStep p e = some p') :
    p'.state.RolesCoherent := by
  cases e with
  | outside db deleted =>
    cases hstep
    exact h.of_conns rfl
  | bridge e =>
    cases e with
    | start op =>
      cases hstep
      exact h
    | advance i w =>
      have hstep : Pool.step Action.exec SessionOperation.prog p (.advance i w) = some p' := hstep
      obtain ⟨a, next, hi, rfl⟩ := Pool.step_advance hstep
      have hok : (((p.threads[i]?).bind Prog.next?).all fun a => rolesKept p.state a w) = true := hok
      rw [hi] at hok
      exact roles_coherent_exec a w h hok

/-- **The roles of a connection are coherent**, in every state of every run whose steps all meet
`rolesKept`. -/
theorem conn_roles_coherent (db : Db) (coordinator : Coordinator) (es : List RoleEvent)
    (p : Pool Bridge Action Action.Answer)
    (hok : along roleStep roleAllows es ⟨Bridge.start db coordinator, []⟩ = true)
    (h : replay roleStep ⟨Bridge.start db coordinator, []⟩ es = some p) (conn : UInt64) :
    (p.state.connState conn).Coherent := by
  have hstart : (Bridge.start db coordinator).RolesCoherent := fun _ => .default
  have hroles := replay_inv_along (P := fun p : Pool Bridge Action Action.Answer =>
    p.state.RolesCoherent) (fun _ _ _ hp hok hstep => roles_coherent_step hp hok hstep) hstart hok h
  exact hroles conn

def viewedStreams : Db := { ownedStreams with viewers := [crowdedViewer] }

/-- Connection 7 is admitted to play `a` and the worker takes its row, which can be written or not. -/
def fastPlaySteps (fault : Bool) : List (Event SessionOperation Outcome) :=
  [Event.start (SessionOperation.fastPlay 7 "live" crowdedViewer.playKey)] ++
    advances 0 7 { sessionId := some "p1" } ++ [Event.start SessionOperation.persistNext] ++
    advances 1 2 { faults := ⟨false, false, fault⟩ } ++
    advances 1 (if fault then 2 else 1) {}

def fastPlayRun (fault : Bool) : List RoleEvent := (fastPlaySteps fault).map .bridge

theorem conn_roles_coherent_fast_play :
    ∃ p, replay roleStep ⟨Bridge.start viewedStreams .standalone, []⟩ (fastPlayRun false) = some p ∧
      p.state.playerOf 7 = some (crowdedPlayer "p1") ∧
      (p.state.connState 7).viewerId = "v" ∧ (p.state.connState 7).Coherent := by
  have hok : along roleStep roleAllows (fastPlayRun false)
      ⟨Bridge.start viewedStreams .standalone, []⟩ = true := by decide +kernel
  have hrun : (replay roleStep ⟨Bridge.start viewedStreams .standalone, []⟩ (fastPlayRun false)).map
      (fun p => (p.state.playerOf 7, (p.state.connState 7).viewerId)) =
      some (some (crowdedPlayer "p1"), "v") := by decide +kernel
  obtain ⟨p, hp, heq⟩ := Option.map_eq_some_iff.1 hrun
  simp only [Prod.mk.injEq] at heq
  exact ⟨p, hp, heq.1, heq.2, conn_roles_coherent viewedStreams .standalone _ p hok hp 7⟩

/-- The row cannot be written: the connection has no player, and is filed under its viewer and on its
stream. -/
theorem unwritten_fast_play_stays_filed :
    ∃ p, replay roleStep ⟨Bridge.start viewedStreams .standalone, []⟩ (fastPlayRun true) = some p ∧
      p.idle = true ∧ p.state.playerOf 7 = none ∧ p.state.publisherOf 7 = none ∧
      (p.state.connState 7).viewerId = "v" ∧ (p.state.connState 7).streamId = "a" := by
  have hrun : (replay roleStep ⟨Bridge.start viewedStreams .standalone, []⟩ (fastPlayRun true)).map
      (fun p => (p.idle, p.state.connState 7)) =
      some (true, ⟨none, none, "v", "a"⟩) := by decide +kernel
  obtain ⟨p, hp, heq⟩ := Option.map_eq_some_iff.1 hrun
  simp only [Prod.mk.injEq] at heq
  obtain ⟨hidle, hconn⟩ := heq
  refine ⟨p, hp, hidle, ?_, ?_, ?_, ?_⟩
  · rw [Bridge.playerOf, hconn]
  · rw [Bridge.publisherOf, hconn]
  · rw [hconn]
  · rw [hconn]

end RtmpServer
