import RtmpServer.Poll.Pass

/-!
# One visit of the poll loop

A visit compares three accounts of a connection: the library's session, the loop's entry and the
bridge's state. `Turn.Kept` says what of them must agree beforehand, and `Tracks` what the loop
keeps between its own entry and the route. Then a connection that is not rejected is `Held`
afterwards: each stage of the visit has its lemma, in the order of the source (`Ready`, `Aligned`,
`Held`).
-/

namespace RtmpServer

open Lib.Program Lib.Replay Poll Option

variable {conn conn' : UInt64} {s : Bridge}

/-! ### The roles of a connection -/

namespace ConnState

def has (cs : ConnState) : Role → Bool
  | .publish => cs.publisher.isSome
  | .play => cs.player.isSome

def without (cs : ConnState) : Role → ConnState
  | .publish => cs.withoutPublisher
  | .play => cs.withoutPlayer

/-- `stream_id` is the publisher's stream, else the player's, and no role is on a stream without a
name. -/
structure Routed (cs : ConnState) : Prop where
  streamId : cs.streamId = cs.publisher.elim (cs.player.elim "" (·.streamId)) (·.streamId)
  publisher : ∀ p ∈ cs.publisher, p.streamId ≠ ""
  player : ∀ p ∈ cs.player, p.streamId ≠ ""

variable {cs : ConnState}

theorem has_without_self (cs : ConnState) (r : Role) : (cs.without r).has r = false := by
  cases r <;> rfl

theorem has_without_ne {r r' : Role} (h : r' ≠ r) : (cs.without r).has r' = cs.has r' := by
  cases r <;> cases r' <;> first | rfl | exact absurd rfl h

theorem Routed.without (h : cs.Routed) (r : Role) : (cs.without r).Routed := by
  cases r with
  | publish => exact ⟨rfl, fun p hp => absurd hp (not_mem_none p), h.player⟩
  | play => exact ⟨rfl, h.publisher, fun p hp => absurd hp (not_mem_none p)⟩

theorem Routed.streamId_ne (h : cs.Routed) {r : Role} (hr : cs.has r) : cs.streamId ≠ "" := by
  rw [h.streamId]
  cases hp : cs.publisher with
  | some p => exact h.publisher p hp
  | none =>
    cases hq : cs.player with
    | some q => exact h.player q hq
    | none =>
      cases r with
      | publish =>
        rw [has, hp] at hr
        cases hr
      | play =>
        rw [has, hq] at hr
        cases hr

end ConnState

/-! ### What a release does -/

namespace Bridge

def standing (s : Bridge) (conn : UInt64) : ConnState × Prop :=
  (s.connState conn, conn ∈ s.pendingForceClose)

end Bridge

/-- The action leaves the standing of the connection alone. -/
def Action.spares (conn : UInt64) : Action → Bool
  | .look _ => true
  | .publisherUpdate _ _ => true
  | .playerUpdate _ _ => true
  | .releaseStreamOwner _ _ _ => true
  | .forgetOwnership _ _ _ _ => true
  | .queueReleases _ => true
  | .queueDeactivation _ => true
  | .clearPublisher conn' _ => conn' ≠ conn
  | .clearPlayer conn' _ => conn' ≠ conn
  | .takeForceClose conn' => conn' ≠ conn
  | .removeConn conn' => conn' ≠ conn
  | _ => false

theorem connState_modifyConn_ne (f : ConnState → ConnState) (h : conn' ≠ conn) :
    (s.modifyConn conn' f).connState conn = s.connState conn := by
  rw [Bridge.connState, lookup_modifyConn h]
  rfl

theorem standing_modifyConn (f : ConnState → ConnState) (h : conn' ≠ conn) :
    (s.modifyConn conn' f).standing conn = s.standing conn := by
  have hforce : (s.modifyConn conn' f).pendingForceClose = s.pendingForceClose := by
    unfold Bridge.modifyConn
    split <;> rfl
  rw [Bridge.standing, connState_modifyConn_ne f h, hforce]
  rfl

theorem standing_exec {conn : UInt64} (a : Action) (w : Outcome) (s : Bridge)
    (h : a.spares conn) : (a.exec w s).1.standing conn = s.standing conn := by
  cases a with
  | releaseStreamOwner cause streamId epoch =>
    show (s.releaseStreamOwner streamId epoch w).1.standing conn = s.standing conn
    unfold Bridge.releaseStreamOwner
    split
    · cases w.fails && !w.applied <;> rfl
    · rfl
  | clearPublisher conn' id => exact standing_modifyConn _ (of_decide_eq_true h)
  | clearPlayer conn' id => exact standing_modifyConn _ (of_decide_eq_true h)
  | takeForceClose conn' =>
    have hne : conn ≠ conn' := (of_decide_eq_true h).symm
    show (s.connState conn, conn ∈ s.pendingForceClose.erase conn') = s.standing conn
    rw [Finset.mem_erase, and_iff_right hne]
    rfl
  | removeConn conn' =>
    have hne : conn ≠ conn' := (of_decide_eq_true h).symm
    show (((s.conns.erase conn').lookup conn).getD {}, conn ∈ s.pendingForceClose) = s.standing conn
    rw [AList.lookup_erase_ne hne]
    rfl
  | _ => first | rfl | cases h

theorem standing_call {conn : UInt64} {op : BridgeM Unit}
    (h : op.Only fun a => a.spares conn = true) (w : Action → Outcome) (s : Bridge) :
    (s.call w op).standing conn = s.standing conn :=
  h.run_inv (I := fun s' : Bridge => s'.standing conn = s.standing conn)
    (fun a s' ha hs => (standing_exec a (w a) s' ha).trans hs) rfl

section Release

open Bridge

variable {conn conn' : UInt64}

theorem spares_tryReleaseOwnershipForConn (conn' : UInt64) :
    (tryReleaseOwnershipForConn conn').Only fun a => ∀ conn, a.spares conn = true := by
  refine .act (fun _ => rfl) fun entry => .act (fun _ => rfl) fun coordinator => ?_
  cases entry with
  | none => exact .ret _
  | some e =>
    show Prog.Only _ (if (coordinator : Coordinator) = .absent then _ else _)
    split
    · exact .ret _
    · refine .act (fun _ => rfl) fun released => .act (fun _ => rfl) fun _ => ?_
      cases released with
      | true => exact .ret _
      | false => exact .act (fun _ => rfl) fun _ => .ret _

theorem spares_releaseOwnershipOf (streamId : String) :
    (releaseOwnershipOf conn' streamId).Only fun a => ∀ conn, a.spares conn = true := by
  refine .act (fun _ => rfl) fun entry => ?_
  show Prog.Only _ (if Option.any _ entry = true then _ else _)
  split
  · exact spares_tryReleaseOwnershipForConn conn'
  · exact .ret _

def Poll.Role.clear : Role → UInt64 → String → Action
  | .publish => .clearPublisher
  | .play => .clearPlayer

theorem only_release (conn : UInt64) (r : Role) :
    (r.release conn).Only fun a => (∀ c, a.spares c) ∨ ∃ id, a = r.clear conn id := by
  cases r with
  | publish =>
    refine .act (.inl fun _ => rfl) fun publisher => ?_
    cases publisher with
    | none => exact .ret _
    | some row =>
      refine .act (.inl fun _ => rfl) fun updated => ?_
      cases updated with
      | true =>
        refine ((spares_releaseOwnershipOf row.streamId).mono fun _ => .inl).bind fun _ => ?_
        exact .act (.inr ⟨row.id, rfl⟩) fun _ => .ret _
      | false => exact .ret _
  | play =>
    refine .act (.inl fun _ => rfl) fun player => ?_
    cases player with
    | none => exact .ret _
    | some row =>
      refine .act (.inl fun _ => rfl) fun updated => ?_
      cases updated with
      | true => exact .act (.inr ⟨row.id, rfl⟩) fun _ => .ret _
      | false => exact .ret _

theorem spares_onClose (h : conn' ≠ conn) :
    (Bridge.onClose conn').Only fun a => a.spares conn = true := by
  refine .act (decide_eq_true h) fun _ => .act (decide_eq_true h) fun removed => ?_
  cases removed with
  | none => exact .ret _
  | some cs =>
    show Prog.Only _ (closePublisher cs.publisher >>= fun _ =>
      tryReleaseOwnershipForConn conn' >>= fun _ => closePlayer cs.player)
    have howner := spares_tryReleaseOwnershipForConn conn'
    refine Prog.Only.bind ?_ fun _ => (howner.mono fun _ ha => ha conn).bind fun _ => ?_
    · cases cs.publisher with
      | none => exact .ret _
      | some row =>
        refine .act rfl fun updated => ?_
        cases updated with
        | true => exact .ret _
        | false => exact .act rfl fun _ => .ret _
    · cases cs.player with
      | none => exact .ret _
      | some row =>
        refine .act rfl fun updated => ?_
        cases updated with
        | true => exact .ret _
        | false => exact .act rfl fun _ => .ret _

theorem standing_release_ne (s : Bridge) (w : Action → Outcome) (r : Role) (h : conn' ≠ conn) :
    (s.call w (r.release conn')).standing conn = s.standing conn := by
  refine standing_call ((only_release conn' r).mono ?_) w s
  rintro a (ha | ⟨id, rfl⟩)
  · exact ha conn
  · cases r <;> exact decide_eq_true h

theorem connState_modifyConn_self (s : Bridge) (conn : UInt64) (f : ConnState → ConnState) :
    (s.modifyConn conn f).connState conn = s.connState conn ∨
      (s.modifyConn conn f).connState conn = f (s.connState conn) := by
  unfold Bridge.modifyConn
  cases hconn : s.conns.lookup conn with
  | none => exact .inl rfl
  | some cs =>
    right
    rw [Bridge.connState_setConn, if_pos rfl, Bridge.connState, hconn]
    rfl

theorem connState_clear (s : Bridge) (w : Outcome) (r : Role) (conn : UInt64) (id : String) :
    ((r.clear conn id).exec w s).1.connState conn = s.connState conn ∨
      (s.connState conn).has r ∧
        ((r.clear conn id).exec w s).1.connState conn = (s.connState conn).without r := by
  cases r with
  | publish =>
    show (s.modifyConn conn _).connState conn = _ ∨ _ ∧ (s.modifyConn conn _).connState conn = _
    rcases connState_modifyConn_self s conn
      (fun cs => if cs.holdsPublisher id then cs.withoutPublisher else cs) with h | h
    · exact .inl h
    · rw [h]
      split
      · next hholds =>
        obtain ⟨p, hp, -⟩ := (any_eq_true _ _).1 hholds
        exact .inr ⟨by rw [ConnState.has, hp]; rfl, rfl⟩
      · exact .inl rfl
  | play =>
    show (s.modifyConn conn _).connState conn = _ ∨ _ ∧ (s.modifyConn conn _).connState conn = _
    rcases connState_modifyConn_self s conn
      (fun cs => if cs.holdsPlayer id then cs.withoutPlayer else cs) with h | h
    · exact .inl h
    · rw [h]
      split
      · next hholds =>
        obtain ⟨p, hp, -⟩ := (any_eq_true _ _).1 hholds
        exact .inr ⟨by rw [ConnState.has, hp]; rfl, rfl⟩
      · exact .inl rfl

theorem connState_release (s : Bridge) (w : Action → Outcome) (r : Role) (conn : UInt64) :
    (s.call w (r.release conn)).connState conn = s.connState conn ∨
      (s.call w (r.release conn)).connState conn = (s.connState conn).without r := by
  refine (only_release conn r).run_inv (I := fun s' : Bridge =>
    s'.connState conn = s.connState conn ∨ s'.connState conn = (s.connState conn).without r) ?_
    (.inl rfl)
  rintro a s' (ha | ⟨id, rfl⟩) hs
  · have hkeep : (a.exec (w a) s').1.connState conn = s'.connState conn :=
      congrArg Prod.fst (standing_exec a (w a) s' (ha conn))
    rwa [hkeep]
  · rcases connState_clear s' (w (r.clear conn id)) r conn id with h | ⟨hhas, h⟩
    · rwa [h]
    · rcases hs with hs | hs
      · exact .inr (h.trans (congrArg (·.without r) hs))
      · rw [hs, ConnState.has_without_self] at hhas
        cases hhas

end Release

/-! ### One visit -/

namespace Poll.Turn

def cs (t : Turn) : ConnState := t.bridge.connState t.conn.connId

variable {t t' : Turn} {stream : SessionStream} {deletedNow : Finset String}

theorem holds_eq (t : Turn) (r : Role) : t.holds r = t.cs.has r := by cases r <;> rfl

@[simp] theorem runs_reroute (t : Turn) (r : Role) : t.reroute.entry.runs r = t.entry.runs r := by
  cases r <;> rfl

@[simp] theorem runs_unroute (t : Turn) (now : Nat) (r : Role) :
    (t.unroute now).entry.runs r = t.entry.runs r := by
  cases r <;> rfl

@[simp] theorem entry_mark (t : Turn) (running : Bool) (r : Role) :
    (t.mark running r).entry = t.entry.mark running r := rfl

@[simp] theorem entry_release (t : Turn) (w : Action → Outcome) (r : Role) :
    (t.release w r).entry = t.entry := rfl

section Release

variable (t) (w : Action → Outcome) (r : Role)

theorem cs_release : (t.release w r).cs = t.cs ∨ (t.release w r).cs = t.cs.without r :=
  connState_release t.bridge w r t.conn.connId

variable {t}

theorem cs_release_of_holds (h : (t.release w r).holds r) : (t.release w r).cs = t.cs := by
  rcases t.cs_release w r with hcs | hcs
  · exact hcs
  · rw [holds_eq, hcs, ConnState.has_without_self] at h
    cases h

theorem routed_release (h : t.cs.Routed) : (t.release w r).cs.Routed := by
  rcases t.cs_release w r with hcs | hcs
  · rwa [hcs]
  · rw [hcs]
    exact h.without r

theorem has_release {r' : Role} (hr : r' ≠ r) : (t.release w r).cs.has r' = t.cs.has r' := by
  rcases t.cs_release w r with hcs | hcs
  · rw [hcs]
  · rw [hcs, ConnState.has_without_ne hr]

end Release

end Poll.Turn

theorem Poll.TrackedConn.runs_mark_self (e : TrackedConn) (running : Bool) (r : Role) :
    (e.mark running r).runs r = running := by
  cases r <;> rfl

theorem Poll.TrackedConn.runs_mark_ne (e : TrackedConn) (running : Bool) {r r' : Role} (h : r' ≠ r) :
    (e.mark running r).runs r' = e.runs r' := by
  cases r <;> cases r' <;> first | rfl | exact absurd rfl h

theorem Poll.SessionStream.runs_either {s : SessionStream} {r : Role} (h : s.runs r) :
    s.isPublishing ∨ s.isPlaying = true := by
  cases r with
  | publish => exact .inl h
  | play => exact .inr h

namespace Poll

/-- What the passes keep of a connection and its entry: the key is the tracked stream's, unless it is
cleared, and the relay is only on with a key. -/
structure Tracks (conn : Conn) (entry : TrackedConn) : Prop where
  key : conn.relayKey = entry.streamId ∨ conn.relayKey = ""
  relay : conn.relayEnabled = true → conn.relayKey = entry.streamId ∧ entry.streamId ≠ ""

/-- The connection is relayed only on a route it holds, and only roles it holds are tracked. -/
structure Held (deletedNow : Finset String) (conn : Conn) (entry : TrackedConn) (b : Bridge) :
    Prop where
  route : conn.relayEnabled = true →
    conn.relayKey ≠ "" ∧ conn.relayKey = b.streamIdForConn conn.connId ∧ conn.relayKey ∉ deletedNow
  publishing : entry.publishing = true → b.hasPublisher conn.connId = true
  playing : entry.playing = true → b.hasPlayer conn.connId = true

namespace Turn

variable {t t' : Turn} {stream : SessionStream} {deletedNow : Finset String}
variable {f : Turn → Except Turn Turn} {v : Visit} {x : Except Turn Turn} {p : Pass} {r : Role}

def RolesHeld (t : Turn) : Prop := ∀ r : Role, t.entry.runs r = true → t.cs.has r = true

structure Ready (deletedNow : Finset String) (stream : SessionStream) (t : Turn) : Prop where
  routed : t.cs.Routed
  key : t.conn.relayKey = t.entry.streamId ∨ t.conn.relayKey = ""
  relay : t.conn.relayEnabled = true → t.conn.relayKey = t.entry.streamId ∧
    (t.entry.streamId = t.sid ∧ t.entry.streamId ≠ "" ∨
      (stream.isPublishing = true ∨ stream.isPlaying = true))
  cleared : stream.isPublishing = true → t.entry.publishing = true →
    t.conn.relayKey ≠ t.entry.streamId → t.sid ≠ t.entry.streamId ∨ t.sid ∈ deletedNow
  roles : ∀ r, stream.runs r = true → t.entry.runs r = true → t.cs.has r = true

/-! #### Roles that the library has ended -/

theorem teardown_cases (v : Visit) (stream : SessionStream) (r : Role) (t : Turn) :
    t.teardown v stream r = t ∧ (stream.runs r ∨ t.entry.runs r = false) ∨
      stream.runs r = false ∧
        (t.teardown v stream r = t.release (v.teardown r) r ∧
            (t.release (v.teardown r) r).holds r ∨
          t.teardown v stream r = ((t.release (v.teardown r) r).mark false r).reroute ∧
            stream.runs r.other ∨
          t.teardown v stream r = ((t.release (v.teardown r) r).mark false r).unroute v.now) := by
  unfold teardown
  by_cases hends : (!stream.runs r && (t.entry.runs r || (t.holds r && !t.conn.pending r))) = true
  · rw [if_pos hends]
    simp only [Bool.and_eq_true, Bool.not_eq_true'] at hends
    refine .inr ⟨hends.1, ?_⟩
    by_cases hholds : (t.release (v.teardown r) r).holds r = true
    · exact .inl ⟨if_pos hholds, hholds⟩
    · by_cases hother : stream.runs r.other = true
      · exact .inr (.inl ⟨(if_neg hholds).trans (if_pos hother), hother⟩)
      · exact .inr (.inr ((if_neg hholds).trans (if_neg hother)))
  · rw [if_neg hends]
    refine .inl ⟨rfl, ?_⟩
    cases hruns : stream.runs r with
    | true => exact .inl rfl
    | false =>
      rw [hruns] at hends
      exact .inr (by simp_all)

theorem roles_teardown_ne (v : Visit) (stream : SessionStream) (t : Turn) {r r' : Role} (hr : r' ≠ r) :
    (t.teardown v stream r).entry.runs r' = t.entry.runs r' ∧
      (t.teardown v stream r).cs.has r' = t.cs.has r' := by
  have hhas : (t.release (v.teardown r) r).cs.has r' = t.cs.has r' := has_release _ r hr
  have hruns : (t.entry.mark false r).runs r' = t.entry.runs r' := t.entry.runs_mark_ne false hr
  obtain ⟨ht, -⟩ | ⟨-, ⟨ht, -⟩ | ⟨ht, -⟩ | ht⟩ := teardown_cases v stream r t
  · rw [ht]
    exact ⟨rfl, rfl⟩
  · rw [ht]
    exact ⟨rfl, hhas⟩
  · rw [ht]
    exact ⟨(runs_reroute _ r').trans hruns, hhas⟩
  · rw [ht]
    exact ⟨(runs_unroute _ _ r').trans hruns, hhas⟩

theorem held_teardown_self (h : t.Ready deletedNow stream) (v : Visit) (r : Role)
    (hruns : (t.teardown v stream r).entry.runs r) :
    (t.teardown v stream r).cs.has r = true := by
  obtain ⟨ht, hkept⟩ | ⟨-, ⟨ht, hholds⟩ | ⟨ht, -⟩ | ht⟩ := teardown_cases v stream r t
  · rw [ht] at hruns ⊢
    rcases hkept with hstream | hidle
    · exact h.roles r hstream hruns
    · rw [hidle] at hruns
      cases hruns
  · rw [ht, ← holds_eq]
    exact hholds
  · rw [ht, runs_reroute, entry_mark, TrackedConn.runs_mark_self] at hruns
    cases hruns
  · rw [ht, runs_unroute, entry_mark, TrackedConn.runs_mark_self] at hruns
    cases hruns

theorem ready_teardown (h : t.Ready deletedNow stream) (v : Visit) (r : Role) :
    (t.teardown v stream r).Ready deletedNow stream := by
  have hrelease := routed_release (v.teardown r) r h.routed
  have hroles (r' : Role) (hr' : stream.runs r' = true)
      (hruns : (t.teardown v stream r).entry.runs r' = true) :
      (t.teardown v stream r).cs.has r' = true := by
    by_cases hr : r' = r
    · subst hr
      exact held_teardown_self h v r' hruns
    · obtain ⟨hruns', hhas⟩ := roles_teardown_ne v stream t hr
      rw [hruns'] at hruns
      rw [hhas]
      exact h.roles r' hr' hruns
  obtain ⟨ht, -⟩ | ⟨-, ⟨ht, hholds⟩ | ⟨ht, hother⟩ | ht⟩ := teardown_cases v stream r t
  · rwa [ht]
  · have hcs : (t.release (v.teardown r) r).cs = t.cs := cs_release_of_holds _ r hholds
    have hsid : (t.release (v.teardown r) r).sid = t.sid := congrArg ConnState.streamId hcs
    rw [ht] at hroles ⊢
    refine ⟨hrelease, h.key, ?_, ?_, hroles⟩
    · rw [hsid]
      exact h.relay
    · rw [hsid]
      exact h.cleared
  · rw [ht] at hroles ⊢
    refine ⟨hrelease, .inl rfl, ?_, ?_, hroles⟩
    · exact fun _ => ⟨rfl, .inr (SessionStream.runs_either hother)⟩
    · exact fun _ _ hkey => absurd rfl hkey
  · rw [ht] at hroles ⊢
    refine ⟨hrelease, .inl rfl, ?_, ?_, hroles⟩
    · exact fun henabled => absurd henabled Bool.false_ne_true
    · exact fun _ _ hkey => absurd rfl hkey

theorem rolesHeld_teardown (h : t.Ready deletedNow stream) (v : Visit) :
    ((t.teardown v stream .publish).teardown v stream .play).RolesHeld := by
  intro r hruns
  cases r with
  | play => exact held_teardown_self (ready_teardown h v .publish) v .play hruns
  | publish =>
    have hne : Role.publish ≠ .play := by decide
    obtain ⟨hruns', hhas⟩ := roles_teardown_ne v stream (t.teardown v stream .publish) hne
    rw [hruns'] at hruns
    rw [hhas]
    exact held_teardown_self h v .publish hruns

/-! #### Roles that the library runs -/

/-- The route is the bridge's, up to a role that is still to be looked at (`later`), or a
publisher's stream is deleted. -/
structure Aligned (deletedNow : Finset String) (later : Bool) (t : Turn) : Prop where
  routed : t.cs.Routed
  key : t.conn.relayKey = t.entry.streamId ∨ t.conn.relayKey = ""
  relay : t.conn.relayEnabled = true →
    (t.conn.relayKey = t.entry.streamId ∧
      (t.entry.streamId = t.sid ∧ t.entry.streamId ≠ "" ∨ later = true)) ∨
    t.cs.has .publish = true ∧ t.sid ∈ deletedNow
  roles : t.RolesHeld

theorem aligned_start (hrouted : t.cs.Routed) (hroles : t.RolesHeld) (hholds : t.holds r)
    (later : Bool) : (t.mark true r).reroute.Aligned deletedNow later := by
  rw [holds_eq] at hholds
  have hne : t.sid ≠ "" := hrouted.streamId_ne hholds
  refine ⟨hrouted, .inl rfl, fun _ => .inl ⟨rfl, .inl ⟨rfl, hne⟩⟩, ?_⟩
  intro r' hruns
  by_cases hr : r' = r
  · rw [hr]
    exact hholds
  · rw [runs_reroute, entry_mark, TrackedConn.runs_mark_ne _ _ hr] at hruns
    exact hroles r' hruns

/-- A session that goes on is tracked on the bridge's stream; the key is, too, or it was cleared. -/
theorem follow_cases (hne : t.sid ≠ "") :
    t.follow.entry.streamId = t.sid ∧ t.follow.conn.relayKey = t.sid ∨
      t.follow = t ∧ t.entry.streamId = t.sid := by
  unfold follow
  split_ifs with hmoved
  · exact .inl ⟨rfl, rfl⟩
  · refine .inr ⟨rfl, ?_⟩
    by_contra hmoved'
    exact hmoved ⟨hne, fun h => hmoved' h.symm⟩

theorem cs_follow (t : Turn) : t.follow.cs = t.cs := by
  unfold follow
  split_ifs <;> rfl

theorem rolesHeld_follow (h : t.RolesHeld) : t.follow.RolesHeld := by
  intro r hruns
  rw [cs_follow]
  refine h r ?_
  rw [← hruns]
  unfold follow
  split_ifs <;> cases r <;> rfl

theorem aligned_resume (hrouted : t.cs.Routed) (hroles : t.RolesHeld)
    (hroute : t.conn.relayKey = t.entry.streamId ∧ t.entry.streamId = t.sid ∧ t.sid ≠ "" ∨
      t.conn.relayKey = "" ∧ t.cs.has .publish ∧ t.sid ∈ deletedNow) (later : Bool) :
    t.resume.Aligned deletedNow later := by
  have haligned (enabled : Bool) :
      Aligned deletedNow later { t with conn := { t.conn with relayEnabled := enabled } } := by
    refine ⟨hrouted, ?_, fun _ => ?_, hroles⟩
    · rcases hroute with ⟨hkey, -⟩ | ⟨hkey, -⟩
      · exact .inl hkey
      · exact .inr hkey
    · rcases hroute with ⟨hkey, hsid, hne⟩ | ⟨-, hdeleted⟩
      · exact .inl ⟨hkey, .inl ⟨hsid, hsid ▸ hne⟩⟩
      · exact .inr hdeleted
  unfold resume
  split
  · exact haligned true
  · exact haligned t.conn.relayEnabled

theorem enter_ok (h : t.enter stream r = .ok t') :
    stream.runs r = false ∧ t' = t ∨
      stream.runs r ∧ (t.entry.runs r ∧ t' = t.sync r ∨
        t.holds r ∧ t' = (t.mark true r).reroute) := by
  unfold enter at h
  split_ifs at h with hstream hruns hholds
  · cases h
    exact .inr ⟨hstream, .inl ⟨hruns, rfl⟩⟩
  · cases h
    exact .inr ⟨hstream, .inr ⟨hholds, rfl⟩⟩
  · cases h
    exact .inl ⟨Bool.eq_false_iff.2 hstream, rfl⟩

theorem aligned_enter_publish (h : t.Ready deletedNow stream) (hroles : t.RolesHeld)
    (henter : t.enter stream .publish = .ok t') : t'.Aligned deletedNow stream.isPlaying := by
  obtain ⟨hstream, rfl⟩ | ⟨hstream, ⟨hruns, rfl⟩ | ⟨hholds, rfl⟩⟩ := enter_ok henter
  · refine ⟨h.routed, h.key, fun henabled => ?_, hroles⟩
    have hstream : stream.isPublishing = false := hstream
    obtain ⟨hkey, hroute⟩ := h.relay henabled
    rw [hstream] at hroute
    exact .inl ⟨hkey, hroute.imp_right fun hr => hr.resolve_left Bool.false_ne_true⟩
  · have hhas : t.cs.has .publish = true := hroles .publish hruns
    have hne : t.sid ≠ "" := h.routed.streamId_ne hhas
    have hsid : t.follow.sid = t.sid := congrArg ConnState.streamId t.cs_follow
    refine aligned_resume (by rw [cs_follow]; exact h.routed) (rolesHeld_follow hroles) ?_ _
    rw [cs_follow, hsid]
    rcases follow_cases hne with ⟨hes, hkey⟩ | ⟨hsame, hes⟩
    · exact .inl ⟨hkey.trans hes.symm, hes, hne⟩
    · rw [hsame]
      by_cases hkey : t.conn.relayKey = t.entry.streamId
      · exact .inl ⟨hkey, hes, hne⟩
      · -- an earlier drain has cleared the key: the stream is still deleted
        have hdeleted := (h.cleared hstream hruns hkey).resolve_left fun hmoved => hmoved hes.symm
        exact .inr ⟨h.key.resolve_left hkey, hhas, hdeleted⟩
  · exact aligned_start h.routed hroles hholds _

theorem aligned_enter_play (h : t.Aligned deletedNow stream.isPlaying)
    (henter : t.enter stream .play = .ok t') : t'.Aligned deletedNow false := by
  obtain ⟨hstream, rfl⟩ | ⟨-, ⟨hruns, rfl⟩ | ⟨hholds, rfl⟩⟩ := enter_ok henter
  · have hstream : stream.isPlaying = false := hstream
    rwa [hstream] at h
  · have hne : t.sid ≠ "" := h.routed.streamId_ne (h.roles .play hruns)
    have hsid : t.follow.sid = t.sid := congrArg ConnState.streamId t.cs_follow
    have hrouted : t.follow.cs.Routed := by
      rw [cs_follow]
      exact h.routed
    rcases follow_cases hne with ⟨hes, hkey⟩ | ⟨hsame, hes⟩
    · refine ⟨hrouted, .inl (hkey.trans hes.symm), fun _ => ?_, rolesHeld_follow h.roles⟩
      refine .inl ⟨hkey.trans hes.symm, .inl ⟨hes.trans hsid.symm, ?_⟩⟩
      show t.follow.entry.streamId ≠ ""
      rw [hes]
      exact hne
    · show t.follow.Aligned deletedNow false
      rw [hsame]
      refine ⟨h.routed, h.key, fun henabled => ?_, h.roles⟩
      rcases h.relay henabled with ⟨hkey, -⟩ | hdeleted
      · exact .inl ⟨hkey, .inl ⟨hes, hes ▸ hne⟩⟩
      · exact .inr hdeleted
  · exact aligned_start h.routed h.roles hholds _

/-! #### Roles whose stream is deleted -/

theorem rolesHeld_shed (h : t.RolesHeld) (w : Action → Outcome) (r : Role) :
    (t.shed w r).RolesHeld := by
  unfold shed
  dsimp only
  split
  · next hholds =>
    intro r' hruns
    rw [cs_release_of_holds w r hholds]
    exact h r' hruns
  · intro r' hruns
    have hruns : (t.entry.mark false r).runs r' = true := hruns
    show (t.release w r).cs.has r' = true
    by_cases hr : r' = r
    · rw [hr, TrackedConn.runs_mark_self] at hruns
      cases hruns
    · rw [TrackedConn.runs_mark_ne _ _ hr] at hruns
      rw [has_release w r hr]
      exact h r' hruns

theorem hit_of_mem (h : t.cs.Routed) (hne : t.sid ≠ "") (hmem : t.sid ∈ deletedNow) :
    t.hit deletedNow .publish ∨ t.hit deletedNow .play = true := by
  have hsid : t.sid = t.cs.publisher.elim (t.cs.player.elim "" (·.streamId)) (·.streamId) := h.streamId
  have hpublish : t.hit deletedNow .publish =
    (t.cs.publisher.map (·.streamId)).any fun id => decide (id ∈ deletedNow) := rfl
  have hplay : t.hit deletedNow .play =
    (t.cs.player.map (·.streamId)).any fun id => decide (id ∈ deletedNow) := rfl
  rw [hpublish, hplay]
  rw [hsid] at hne hmem
  cases hp : t.cs.publisher with
  | some p =>
    rw [hp] at hmem
    exact .inl (decide_eq_true hmem)
  | none =>
    rw [hp] at hne hmem
    cases hq : t.cs.player with
    | some q =>
      rw [hq] at hmem
      exact .inr (decide_eq_true hmem)
    | none =>
      rw [hq] at hne
      exact absurd rfl hne

theorem held_of_relay (hroles : t.RolesHeld)
    (hrelay : t.conn.relayEnabled →
      t.conn.relayKey = t.sid ∧ t.sid ≠ "" ∧ t.sid ∉ deletedNow) :
    Held deletedNow t.conn t.entry t.bridge := by
  refine ⟨fun henabled => ?_, hroles .publish, hroles .play⟩
  obtain ⟨hkey, hne, hdeleted⟩ := hrelay henabled
  rw [hkey]
  exact ⟨hne, rfl, hdeleted⟩

theorem held_survive (hroles : t.RolesHeld) (hsurvive : t.survive deletedNow = .ok t') :
    Held deletedNow t'.conn t'.entry t'.bridge ∧ Tracks t'.conn t'.entry := by
  unfold survive at hsurvive
  split_ifs at hsurvive with hholds hroute
  · cases hsurvive
    have hrerouted : t.reroute.RolesHeld := fun r hruns => hroles r ((t.runs_reroute r).symm.trans hruns)
    exact ⟨held_of_relay hrerouted fun _ => ⟨rfl, hroute⟩, .inl rfl, fun _ => ⟨rfl, hroute.1⟩⟩
  · cases hsurvive
    refine ⟨⟨fun henabled => ?_, hroles .publish, hroles .play⟩, .inr rfl, fun henabled => ?_⟩
    · cases henabled
    · cases henabled

theorem held_drain (h : t.Aligned deletedNow false)
    (hdrain : t.drainDeletedStreamRoles deletedNow v = .ok t') :
    Held deletedNow t'.conn t'.entry t'.bridge ∧ Tracks t'.conn t'.entry := by
  -- without a role on a deleted stream, the connection is not on one
  have hfree (hhit : ¬ (t.hit deletedNow .publish = true ∨ t.hit deletedNow .play = true)) :
      Held deletedNow t.conn t.entry t.bridge ∧ Tracks t.conn t.entry := by
    have hroute (henabled : t.conn.relayEnabled = true) :
        t.conn.relayKey = t.entry.streamId ∧ t.entry.streamId = t.sid ∧ t.sid ≠ "" := by
      rcases h.relay henabled with ⟨hkey, ⟨hes, hne⟩ | hlater⟩ | ⟨hhas, hdeleted⟩
      · exact ⟨hkey, hes, hes ▸ hne⟩
      · cases hlater
      · exact absurd (hit_of_mem h.routed (h.routed.streamId_ne hhas) hdeleted) hhit
    refine ⟨held_of_relay h.roles fun henabled => ?_, h.key, fun henabled => ?_⟩
    · obtain ⟨hkey, hes, hne⟩ := hroute henabled
      exact ⟨hkey.trans hes, hne, fun hmem => hhit (hit_of_mem h.routed hne hmem)⟩
    · obtain ⟨hkey, hes, hne⟩ := hroute henabled
      exact ⟨hkey, hes ▸ hne⟩
  unfold drainDeletedStreamRoles at hdrain
  by_cases hempty : deletedNow = ∅
  · rw [if_pos hempty] at hdrain
    cases hdrain
    refine hfree ?_
    rw [hempty]
    rintro (hhit | hhit)
    · obtain ⟨id, -, hid⟩ := (any_eq_true _ _).1 hhit
      exact Finset.notMem_empty id (of_decide_eq_true hid)
    · obtain ⟨id, -, hid⟩ := (any_eq_true _ _).1 hhit
      exact Finset.notMem_empty id (of_decide_eq_true hid)
  · rw [if_neg hempty] at hdrain
    dsimp only at hdrain
    split_ifs at hdrain with hnone hkick hpub hplay hplay
    · cases hdrain
      refine hfree ?_
      simpa [not_or] using hnone
    · exact held_survive (rolesHeld_shed (rolesHeld_shed h.roles _ _) _ _) hdrain
    · exact held_survive (rolesHeld_shed h.roles _ _) hdrain
    · exact held_survive (rolesHeld_shed h.roles _ _) hdrain
    · exact held_survive h.roles hdrain

/-! #### The whole visit -/

def ended (t : Turn) (r : Role) : Bool := t.conn.currentStream.any fun s => !s.runs r

def running (t : Turn) (r : Role) : Bool := t.conn.currentStream.any fun s => s.runs r

/-- What has to be the case when a connection is visited. -/
structure Kept (deletedNow : Finset String) (t : Turn) : Prop where
  /-- The bridge's stream is that of a role. -/
  routed : t.cs.Routed
  /-- The bridge takes no role away from a session that goes on. -/
  publishing : t.entry.publishing = true → t.holds .publish = true ∨ t.ended .publish = true
  playing : t.entry.playing = true → t.holds .play = true ∨ t.ended .play = true
  /-- It moves a relayed connection to another stream only while the library runs a role. -/
  moved : t.conn.relayEnabled = true →
    t.sid = t.entry.streamId ∨ t.running .publish = true ∨ t.running .play = true
  /-- The stream of a publisher whose key was cleared is still deleted. -/
  cleared : t.running .publish = true → t.entry.publishing = true →
    t.conn.relayKey ≠ t.entry.streamId → t.sid ≠ t.entry.streamId ∨ t.sid ∈ deletedNow
  /-- The stream of a relayed connection is not deleted while the library has no session for it. -/
  paused : t.conn.currentStream = none → t.conn.relayEnabled = true → t.sid ∉ deletedNow

theorem ready_of_kept (h : t.Kept deletedNow) (htracks : Tracks t.conn t.entry)
    (hstream : t.conn.currentStream = some stream) : t.Ready deletedNow stream := by
  have hrunning (r : Role) : t.running r = stream.runs r := by rw [running, hstream]; rfl
  have hended (r : Role) : t.ended r = !stream.runs r := by rw [ended, hstream]; rfl
  refine ⟨h.routed, htracks.key, fun henabled => ?_, fun hpub => ?_, fun r hr hruns => ?_⟩
  · obtain ⟨hkey, hne⟩ := htracks.relay henabled
    refine ⟨hkey, ?_⟩
    rcases h.moved henabled with hsid | hrole
    · exact .inl ⟨hsid.symm, hne⟩
    · rw [hrunning, hrunning] at hrole
      exact .inr hrole
  · exact h.cleared ((hrunning .publish).trans hpub)
  · rw [← holds_eq]
    have hgoes : ¬ t.ended r = true := by simp [hended, hr]
    cases r with
    | publish => exact (h.publishing hruns).resolve_right hgoes
    | play => exact (h.playing hruns).resolve_right hgoes

theorem bind_ok (h : (x >>= f) = .ok t') : ∃ u, x = .ok u ∧ f u = .ok t' := by
  cases x with
  | error u => cases h
  | ok u => exact ⟨u, rfl, h⟩

theorem checkRevoked_ok {revokedNow : Finset String} (h : t.checkRevoked revokedNow = .ok t') :
    t' = t := by
  unfold checkRevoked at h
  dsimp only at h
  split_ifs at h
  cases h
  rfl

theorem held_visitStream (h : t.Ready p.deletedNow stream)
    (hvisit : t.visitStream p v stream = .ok t') :
    Held p.deletedNow t'.conn t'.entry t'.bridge ∧ Tracks t'.conn t'.entry := by
  obtain ⟨u₁, hpublish, hvisit⟩ := bind_ok hvisit
  obtain ⟨u₂, hplay, hvisit⟩ := bind_ok hvisit
  obtain ⟨u₃, hdrain, hvisit⟩ := bind_ok hvisit
  rw [checkRevoked_ok hvisit]
  have hready := ready_teardown (ready_teardown h v .publish) v .play
  have haligned := aligned_enter_publish hready (rolesHeld_teardown h v) hpublish
  exact held_drain (aligned_enter_play haligned hplay) hdrain

theorem connState_onConnect (s : Bridge) (conn c : UInt64) :
    (s.onConnect conn).connState c = s.connState c := by
  rw [Bridge.onConnect, Bridge.connState_setConn]
  split_ifs with hc
  · rw [hc]
  · rfl

theorem register_cases (t : Turn) (now : Nat) : ∃ connected firstSeenAt b,
    t.register now = ⟨t.conn, { t.entry with connected, firstSeenAt }, b⟩ ∧
      ∀ c, b.standing c = t.bridge.standing c := by
  have hconnect (c : UInt64) :
      (t.bridge.onConnect t.conn.connId).standing c = t.bridge.standing c := by
    rw [Bridge.standing, connState_onConnect]
    rfl
  unfold register
  split_ifs
  · exact ⟨t.entry.connected, some now, t.bridge, rfl, fun _ => rfl⟩
  · exact ⟨t.entry.connected, t.entry.firstSeenAt, t.bridge, rfl, fun _ => rfl⟩
  · exact ⟨true, some now, t.bridge.onConnect t.conn.connId, rfl, hconnect⟩

theorem visitConn_ok (h : t.visitConn p v = .ok t') :
    t.conn.connId ∉ t.bridge.pendingForceClose ∧
      (t.conn.currentStream = none ∧ t' = t.register v.now ∨
        ∃ stream, t.conn.currentStream = some stream ∧
          (t.register v.now).visitStream p v stream = .ok t') := by
  obtain ⟨connected, seen, b, hregister, hstanding⟩ := t.register_cases v.now
  have hforce : t.conn.connId ∈ b.pendingForceClose ↔ t.conn.connId ∈ t.bridge.pendingForceClose :=
    iff_of_eq (congrArg Prod.snd (hstanding t.conn.connId))
  unfold visitConn at h
  rw [hregister] at h ⊢
  dsimp only at h
  split_ifs at h with hidle hclose
  refine ⟨fun hmem => hclose (hforce.2 hmem), ?_⟩
  cases hstream : t.conn.currentStream with
  | none =>
    rw [hstream] at h
    cases h
    exact .inl ⟨rfl, rfl⟩
  | some stream =>
    rw [hstream] at h
    exact .inr ⟨stream, rfl, h⟩

theorem Kept.congr {u : Turn} (h : t.Kept deletedNow) (hconn : u.conn = t.conn)
    (hentry : (u.entry.publishing, u.entry.playing, u.entry.streamId) =
      (t.entry.publishing, t.entry.playing, t.entry.streamId)) (hcs : u.cs = t.cs) :
    u.Kept deletedNow := by
  simp only [Prod.mk.injEq] at hentry
  obtain ⟨hpublishing, hplaying, hstreamId⟩ := hentry
  have hsid : u.sid = t.sid := congrArg ConnState.streamId hcs
  have hended (r : Role) : u.ended r = t.ended r := by rw [ended, hconn]; rfl
  have hrunning (r : Role) : u.running r = t.running r := by rw [running, hconn]; rfl
  have hholds (r : Role) : u.holds r = t.holds r := by rw [holds_eq, holds_eq, hcs]
  refine ⟨?_, ?_, ?_, ?_, ?_, ?_⟩
  · rw [hcs]
    exact h.routed
  · rw [hpublishing, hholds, hended]
    exact h.publishing
  · rw [hplaying, hholds, hended]
    exact h.playing
  · rw [hconn, hsid, hstreamId, hrunning, hrunning]
    exact h.moved
  · rw [hrunning, hpublishing, hconn, hstreamId, hsid]
    exact h.cleared
  · rw [hconn, hsid]
    exact h.paused

theorem kept_register (h : t.Kept deletedNow) (now : Nat) : (t.register now).Kept deletedNow := by
  obtain ⟨connected, seen, b, hregister, hstanding⟩ := t.register_cases now
  rw [hregister]
  exact h.congr rfl rfl (congrArg Prod.fst (hstanding t.conn.connId))

theorem tracks_register (h : Tracks t.conn t.entry) (now : Nat) :
    Tracks (t.register now).conn (t.register now).entry := by
  obtain ⟨connected, seen, b, hregister, -⟩ := t.register_cases now
  rw [hregister]
  exact ⟨h.key, h.relay⟩

/-- **One visit.** A connection that is not rejected holds its route and its roles. -/
theorem held_visitConn (hkept : t.conn.connId ∈ t.bridge.pendingForceClose ∨ t.Kept p.deletedNow)
    (htracks : Tracks t.conn t.entry) (h : t.visitConn p v = .ok t') :
    Held p.deletedNow t'.conn t'.entry t'.bridge ∧ Tracks t'.conn t'.entry := by
  obtain ⟨hforce, hvisit⟩ := visitConn_ok h
  have hkept := kept_register (hkept.resolve_left hforce) v.now
  have htracks := tracks_register htracks v.now
  have hconn : (t.register v.now).conn = t.conn := by
    obtain ⟨_, _, _, hregister, -⟩ := t.register_cases v.now
    rw [hregister]
  rcases hvisit with ⟨hstream, rfl⟩ | ⟨stream, hstream, hvisit⟩
  · rw [← hconn] at hstream
    -- the library has no session: nothing has changed
    have hgoes (r : Role) : ¬ (t.register v.now).ended r = true := by
      rw [ended, hstream]
      exact Bool.false_ne_true
    have hidle (r : Role) : ¬ (t.register v.now).running r = true := by
      rw [running, hstream]
      exact Bool.false_ne_true
    refine ⟨held_of_relay (fun r hruns => ?_) fun henabled => ?_, htracks⟩
    · rw [← holds_eq]
      cases r with
      | publish => exact (hkept.publishing hruns).resolve_right (hgoes .publish)
      | play => exact (hkept.playing hruns).resolve_right (hgoes .play)
    · obtain ⟨hkey, hne⟩ := htracks.relay henabled
      have hsid := (hkept.moved henabled).resolve_right (not_or.2 ⟨hidle .publish, hidle .play⟩)
      exact ⟨hkey.trans hsid.symm, hsid ▸ hne, hkept.paused hstream henabled⟩
  · rw [← hconn] at hstream
    exact held_visitStream (ready_of_kept hkept htracks hstream) hvisit

/-! #### What a visit leaves alone -/

/-- The turn is of one connection, and the others keep their standing. -/
structure Within (t t' : Turn) : Prop where
  connId : t'.conn.connId = t.conn.connId
  others : ∀ c, t.conn.connId ≠ c → t'.bridge.standing c = t.bridge.standing c

theorem Within.of_bridge (hconn : t'.conn.connId = t.conn.connId) (hbridge : t'.bridge = t.bridge) :
    t.Within t' :=
  ⟨hconn, fun c _ => by rw [hbridge]⟩

theorem Within.trans {t'' : Turn} (h : t.Within t') (h' : t'.Within t'') : t.Within t'' :=
  ⟨h'.connId.trans h.connId,
    fun c hc => (h'.others c (by rwa [h.connId])).trans (h.others c hc)⟩

theorem within_release (t : Turn) (w : Action → Outcome) (r : Role) : t.Within (t.release w r) :=
  ⟨rfl, fun _ hc => standing_release_ne t.bridge w r hc⟩

theorem within_teardown (t : Turn) (v : Visit) (stream : SessionStream) (r : Role) :
    t.Within (t.teardown v stream r) := by
  have hrelease := t.within_release (v.teardown r) r
  obtain ⟨ht, -⟩ | ⟨-, ⟨ht, -⟩ | ⟨ht, -⟩ | ht⟩ := teardown_cases v stream r t
  · rw [ht]
    exact .of_bridge rfl rfl
  · rwa [ht]
  · rw [ht]
    exact ⟨rfl, hrelease.others⟩
  · rw [ht]
    exact ⟨rfl, hrelease.others⟩

theorem within_shed (t : Turn) (w : Action → Outcome) (r : Role) : t.Within (t.shed w r) := by
  unfold shed
  dsimp only
  split
  · exact t.within_release w r
  · exact ⟨rfl, (t.within_release w r).others⟩

/-- The turn a visit comes to, whether or not the connection is rejected. -/
def final : Except Turn Turn → Turn
  | .ok t => t
  | .error t => t

theorem within_bind (hx : t.Within (final x)) (hf : ∀ u : Turn, u.Within (final (f u))) :
    t.Within (final (x >>= f)) := by
  cases x with
  | error u => exact hx
  | ok u => exact Within.trans hx (hf u)

theorem within_enter (t : Turn) (stream : SessionStream) (r : Role) :
    t.Within (final (t.enter stream r)) := by
  have hfollow : t.follow.conn.connId = t.conn.connId ∧ t.follow.bridge = t.bridge := by
    unfold follow
    split_ifs <;> exact ⟨rfl, rfl⟩
  have hresume (u : Turn) : u.resume.conn.connId = u.conn.connId ∧ u.resume.bridge = u.bridge := by
    unfold resume
    split_ifs <;> exact ⟨rfl, rfl⟩
  unfold enter
  split_ifs
  · cases r with
    | publish =>
      exact .of_bridge ((hresume t.follow).1.trans hfollow.1) ((hresume t.follow).2.trans hfollow.2)
    | play => exact .of_bridge hfollow.1 hfollow.2
  · exact .of_bridge rfl rfl
  · exact .of_bridge rfl rfl
  · exact .of_bridge rfl rfl

theorem within_survive (t : Turn) (deletedNow : Finset String) :
    t.Within (final (t.survive deletedNow)) := by
  unfold survive
  split_ifs <;> exact .of_bridge rfl rfl

theorem within_drain (t : Turn) (deletedNow : Finset String) (v : Visit) :
    t.Within (final (t.drainDeletedStreamRoles deletedNow v)) := by
  have hsame (u : Turn) : u.Within u := .of_bridge rfl rfl
  have hshed (u : Turn) (hit : Bool) (r : Role) :
      u.Within (if hit = true then u.shed (v.drain r) r else u) := by
    cases hit with
    | true => exact u.within_shed (v.drain r) r
    | false => exact hsame u
  unfold drainDeletedStreamRoles
  split
  · exact hsame t
  · dsimp only
    split
    · split
      · exact hsame t
      · exact hsame t
    · exact ((hshed t _ .publish).trans (hshed _ _ .play)).trans (within_survive _ _)

theorem within_checkRevoked (t : Turn) (revokedNow : Finset String) :
    t.Within (final (t.checkRevoked revokedNow)) := by
  unfold checkRevoked
  dsimp only
  split_ifs <;> exact .of_bridge rfl rfl

theorem within_visitConn (t : Turn) (p : Pass) (v : Visit) : t.Within (final (t.visitConn p v)) := by
  obtain ⟨connected, seen, b, hregister, hstanding⟩ := t.register_cases v.now
  have hwithin : t.Within (t.register v.now) := by
    rw [hregister]
    exact ⟨rfl, fun c _ => hstanding c⟩
  unfold visitConn
  dsimp only
  generalize t.register v.now = u at hwithin
  split_ifs
  · exact hwithin
  · refine hwithin.trans ⟨rfl, fun c hc => ?_⟩
    exact standing_exec (.takeForceClose u.conn.connId) {} u.bridge (decide_eq_true hc)
  · cases u.conn.currentStream with
    | none => exact hwithin
    | some stream =>
      refine hwithin.trans (((within_teardown u v stream .publish).trans
        (within_teardown _ v stream .play)).trans ?_)
      refine within_bind (within_enter _ stream .publish) fun u => ?_
      refine within_bind (within_enter u stream .play) fun u => ?_
      exact within_bind (within_drain u p.deletedNow v) fun u => within_checkRevoked u p.revokedNow

end Turn

end Poll

end RtmpServer
