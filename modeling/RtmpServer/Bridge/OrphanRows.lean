import RtmpServer.Bridge.Operations

/-!
# Orphan rows

A row of `publishers` or `players` with `active=1` blocks the stream's publisher slot or one of the
viewer's slots. Somebody has to be left who will deactivate it: the connection that holds the
session, or the queue of deactivations that are tried again. An operation that has just activated a
row, or has taken it from its connection, answers for it itself until then.
-/

namespace RtmpServer

open Option List Lib.Table Lib.Program Lib.Replay Set AList

def ConnState.holds (cs : ConnState) : SessionRow → Bool
  | .publisher id => cs.holdsPublisher id
  | .player id => cs.holdsPlayer id

def PendingDeactivation.row : PendingDeactivation → SessionRow
  | .publisher row _ => .publisher row.id
  | .player row _ => .player row.id

namespace Bridge

def held (s : Bridge) (r : SessionRow) : Bool := s.conns.entries.any fun e => e.2.holds r

/-- The row is not lost: a connection holds the session or its deactivation is queued. -/
def Referenced (s : Bridge) (r : SessionRow) : Prop :=
  s.held r = true ∨ ∃ d ∈ s.pendingDeactivations, d.row = r

def orphanRows (s : Bridge) : Set SessionRow := {r | s.db.rowActive r = true ∧ ¬ s.Referenced r}

/-- The connection does not hold the session, or its row is not active. -/
def mayDrop (s : Bridge) (conn : UInt64) (r : SessionRow) : Bool :=
  !(s.connState conn).holds r || !s.db.rowActive r

end Bridge

/-- The condition on a step:

* a refused authorization activates the prior session again only while a connection holds it;
* the write that deactivates the row of a refused authorization, of a fast session that was dropped,
  or of a session that was replaced in a group whose commit has failed, does not fail;
* a session is taken from its connection only while its row is not active. -/
def sessionOk (s : Bridge) : Action → Outcome → Bool
  | .publisherUpdate .restore row, _ => s.held (.publisher row.id)
  | .publisherUpdate .undo row, w | .publisherUpdate .dropped row, w
  | .publisherUpdate .regroup row, w =>
    (s.publisherUpdate row w.faults).2 || !s.db.rowActive (.publisher row.id)
  | .publisherTryAcquire .restore row, _ => s.held (.publisher row.id)
  | .playerUpdate .restore row, _ => s.held (.player row.id)
  | .playerUpdate .dropped row, w | .playerUpdate .regroup row, w =>
    (s.playerUpdate row w.faults.write).2 || !s.db.rowActive (.player row.id)
  | .playerTryAcquire .restore row, _ => s.held (.player row.id)
  | .installPublisher conn row, _ =>
    (s.publisherOf conn).all fun p => p.id = row.id || !s.db.rowActive (.publisher p.id)
  | .installPlayer conn row, _ =>
    (s.playerOf conn).all fun p => p.id = row.id || !s.db.rowActive (.player p.id)
  | .clearPublisher conn id, _ => s.mayDrop conn (.publisher id)
  | .clearPlayer conn id, _ => s.mayDrop conn (.player id)
  | .dropPlayer conn id, _ => s.mayDrop conn (.player id)
  | .abandonRoles streamId, _ =>
    s.conns.entries.all fun e =>
      (e.2.publisher.all fun p => p.streamId ≠ streamId || !s.db.rowActive (.publisher p.id)) &&
        e.2.player.all fun p => p.streamId ≠ streamId || !s.db.rowActive (.player p.id)
  | _, _ => true

def Action.keepsSessions : Action → Bool
  | .look _ => true
  | .acquireStreamOwner _ => true
  | .releaseStreamOwner _ _ _ => true
  | .forceClose _ => true
  | .takeForceClose _ => true
  | .recordOwnership _ _ _ _ => true
  | .forgetOwnership _ _ _ _ => true
  | .forgetFastOwnership _ _ => true
  | .retagStreamEpoch _ _ => true
  | .queueReleases _ => true
  | .takeReleases => true
  | .queuePersist _ => true
  | .takePersist => true
  | _ => false

def Bridge.roles (s : Bridge) := (s.db, s.conns, s.pendingDeactivations)

section Roles

variable {s s' : Bridge} {r : SessionRow}

theorem roles_exec (a : Action) (w : Outcome) (s : Bridge) (h : a.keepsSessions) :
    (a.exec w s).1.roles = s.roles := by
  cases a with
  | acquireStreamOwner streamId =>
    show (s.acquireStreamOwner streamId w.epoch).1.roles = s.roles
    unfold Bridge.acquireStreamOwner
    split
    · split <;> rfl
    · rfl
  | releaseStreamOwner cause streamId epoch =>
    show (s.releaseStreamOwner streamId epoch w).1.roles = s.roles
    unfold Bridge.releaseStreamOwner
    split
    · cases w.fails && !w.applied <;> rfl
    · rfl
  | forgetFastOwnership conn streamId =>
    show (s.forgetFastOwnership conn streamId).roles = s.roles
    unfold Bridge.forgetFastOwnership
    split <;> rfl
  | queuePersist job =>
    show (s.queuePersist job w.fails).1.roles = s.roles
    cases w.fails <;> rfl
  | _ => first | rfl | cases h

theorem uncounted_exec (a : Action) (w : Outcome) (s : Bridge) (h : a.usesDb = false) :
    (a.exec w s).1.db.uncounted = s.db.uncounted := by
  have hmodify : ∀ conn f, (s.modifyConn conn f).db = s.db := by
    intro conn f
    unfold Bridge.modifyConn
    split <;> rfl
  cases hkeeps : a.keepsSessions with
  | true => exact congrArg (fun roles => Db.uncounted roles.1) (roles_exec a w s hkeeps)
  | false =>
    cases a with
    | admitPublisher conn row =>
      show (s.admitPublisher conn row).1.db.uncounted = _
      unfold Bridge.admitPublisher
      dsimp only
      split_ifs <;> rfl
    | admitPlayer conn row =>
      show (s.admitPlayer conn row).1.db.uncounted = _
      unfold Bridge.admitPlayer
      split_ifs
      · rfl
      · rfl
      · cases hreserve : s.db.playerReserve row.viewerId with
        | none => rfl
        | some db => exact uncounted_playerReserve hreserve
    | clearPublisher conn id => exact congrArg _ (hmodify conn _)
    | clearPlayer conn id => exact congrArg _ (hmodify conn _)
    | dropPlayer conn id => exact congrArg _ (hmodify conn _)
    | _ => first | rfl | exact Bool.noConfusion h | exact Bool.noConfusion hkeeps

theorem orphanRows_congr (h : s'.roles = s.roles) : s'.orphanRows = s.orphanRows := by
  simp only [Bridge.roles, Prod.mk.injEq] at h
  obtain ⟨hdb, hconns, hpending⟩ := h
  simp only [Bridge.orphanRows, Bridge.Referenced, Bridge.held, hdb, hconns, hpending]

@[grind =] theorem ConnState.holds_publisher {cs : ConnState} {id : String} :
    cs.holds (.publisher id) ↔ ∃ p, cs.publisher = some p ∧ p.id = id := by
  simp [ConnState.holds, ConnState.holdsPublisher, Option.any_eq_true]

@[grind =] theorem ConnState.holds_player {cs : ConnState} {id : String} :
    cs.holds (.player id) ↔ ∃ p, cs.player = some p ∧ p.id = id := by
  simp [ConnState.holds, ConnState.holdsPlayer, Option.any_eq_true]

theorem held_iff : s.held r ↔ ∃ conn cs, s.conns.lookup conn = some cs ∧ cs.holds r = true := by
  constructor
  · intro h
    obtain ⟨e, he, hr⟩ := any_eq_true.1 h
    exact ⟨e.1, e.2, mem_lookup_iff.2 he, hr⟩
  · rintro ⟨conn, cs, hcs, hr⟩
    exact any_eq_true.2 ⟨⟨conn, cs⟩, mem_lookup_iff.1 hcs, hr⟩

theorem referenced_of_connState (conn : UInt64) (h : (s.connState conn).holds r) :
    s.Referenced r := by
  left
  rw [held_iff]
  unfold Bridge.connState at h
  cases hcs : s.conns.lookup conn with
  | some cs =>
    rw [hcs] at h
    exact ⟨conn, cs, hcs, h⟩
  | none =>
    rw [hcs] at h
    cases r <;> cases h

/-- A connection whose state is replaced keeps the sessions that the new state holds, and those of
all other connections. -/
theorem Bridge.Referenced.setConn {conn : UInt64} {cs : ConnState} (h : s.Referenced r)
    (hcs : (s.connState conn).holds r → cs.holds r) :
    (s.setConn conn cs).Referenced r := by
  rcases h with h | h
  · obtain ⟨conn', cs', hcs', hr⟩ := held_iff.1 h
    left
    rw [held_iff]
    by_cases hconn : conn' = conn
    · subst hconn
      refine ⟨conn', cs, lookup_insert _, hcs ?_⟩
      rw [Bridge.connState, hcs']
      exact hr
    · exact ⟨conn', cs', (lookup_insert_ne hconn).trans hcs', hr⟩
  · exact .inr h

end Roles

/-- Orphan rows are what the operations must not leave. -/
def sessionContract : Contract Bridge Action Action.Answer Outcome SessionRow Empty where
  exec := Action.exec
  ok := sessionOk
  facts _ := ∅
  facts_mono _ _ _ := Set.Subset.rfl
  guar _ _ _ := True
  debts := Bridge.orphanRows

/-! ### The actions on sessions -/

section Actions

variable {α : Type} {W W' : Set SessionRow} {K : Set Empty}
variable {Q : α → Set SessionRow → Set Empty → Prop}
variable {next : Bool → BridgeM α} {conn : UInt64} {row : PlayerRecord} {id : String}
  {cause : Cause} {f : ConnState → ConnState} {s s' : Bridge} {cs : ConnState} {r : SessionRow}
  {streamId : String} {a : Action}

theorem session_act {next : a.Answer → BridgeM α}
    (h : ∀ s w, sessionOk s a w →
      ∃ W', (a.exec w s).1.orphanRows ⊆ (s.orphanRows \ W) ∪ W' ∧
        sessionContract.Settles (next (a.exec w s).2) W' K Q) :
    sessionContract.Settles (.act a next) W K Q := by
  intro s w hK hok
  obtain ⟨W', hdebts, hnext⟩ := h s w hok
  exact ⟨trivial, W', K, hK, hdebts, hnext⟩

/-- The rule for an action: a row that is orphan now is among `W'`, or was orphan before and has
not been dropped from `W`. -/
theorem orphans_split (h : ∀ r, s'.db.rowActive r → ¬ s'.Referenced r →
      r ∈ W' ∨ (s.db.rowActive r ∧ ¬ s.Referenced r ∧ (r ∈ W → r ∈ W'))) :
    s'.orphanRows ⊆ (s.orphanRows \ W) ∪ W' := by
  rintro r ⟨hactive, hlost⟩
  rcases h r hactive hlost with hW' | ⟨hold, hlost, hkept⟩
  · exact .inr hW'
  · by_cases hW : r ∈ W
    · exact .inr (hkept hW)
    · exact .inl ⟨⟨hold, hlost⟩, hW⟩

theorem orphans_keep (h : ∀ r, s'.db.rowActive r → ¬ s'.Referenced r →
      s.db.rowActive r ∧ ¬ s.Referenced r) :
    s'.orphanRows ⊆ (s.orphanRows \ W) ∪ W :=
  orphans_split fun r hactive hlost =>
    .inr ⟨(h r hactive hlost).1, (h r hactive hlost).2, fun hW => hW⟩

theorem session_other (ha : a.keepsSessions) {next : a.Answer → BridgeM α}
    (h : ∀ r, sessionContract.Settles (next r) W K Q) :
    sessionContract.Settles (.act a next) W K Q := by
  refine session_act fun s w _ => ⟨W, ?_, h _⟩
  rw [orphanRows_congr (roles_exec a w s ha)]
  exact subset_sdiff_union _ _

/-! #### Writes of rows -/

section Writes

variable {r₀ : SessionRow} {active ok : Bool} {write : Outcome → Bridge → SessionDb × Bool}
  {answer : Bool → a.Answer} {next : a.Answer → BridgeM α} {sessions : SessionDb}

theorem orphans_deactivated (hw : RowWrite s.db sessions.db r₀ false ok)
    (hdone : ok ∨ s.db.rowActive r₀ = false) :
    Bridge.orphanRows { s with sessions := sessions } ⊆ (s.orphanRows \ W) ∪ (W \ {r₀}) := by
  refine orphans_split fun r hr hlost => .inr ⟨hw.old hr, hlost, fun hW => ⟨hW, ?_⟩⟩
  rintro rfl
  have hr : sessions.db.rowActive r = true := hr
  grind [hw.rowActive r]

theorem orphans_written (hw : RowWrite s.db sessions.db r₀ active ok) :
    Bridge.orphanRows { s with sessions := sessions } ⊆
      (s.orphanRows \ W) ∪ (if ok then W ∪ {r₀} else W) := by
  refine orphans_split fun r hr hlost => ?_
  rcases hw.new hr with hold | ⟨rfl, -, rfl⟩
  · exact .inr ⟨hold, hlost, fun hW => by split_ifs <;> simp [hW]⟩
  · exact .inl (.inr rfl)

theorem session_deactivate (ha : a.WritesRow r₀ false write answer)
    (hdone : sessionContract.Settles (next (answer true)) (W \ {r₀}) K Q)
    (hfailed : sessionContract.Settles (next (answer false)) W K Q) :
    sessionContract.Settles (.act a next) W K Q := by
  refine session_act fun s w _ => ?_
  have hw := ha.row w s
  rw [ha.exec]
  cases hok : (write w s).2 with
  | false => exact ⟨W, orphans_keep fun r hr hlost => ⟨hw.old hr, hlost⟩, hfailed⟩
  | true => exact ⟨_, orphans_deactivated hw (.inl hok), hdone⟩

theorem session_giveUp (ha : a.WritesRow r₀ false write answer)
    (hfine : ∀ s w, sessionOk s a w → (write w s).2 ∨ s.db.rowActive r₀ = false)
    (h : ∀ r, sessionContract.Settles (next r) (W \ {r₀}) K Q) :
    sessionContract.Settles (.act a next) W K Q := by
  refine session_act fun s w hok => ⟨_, ?_, h _⟩
  rw [ha.exec]
  exact orphans_deactivated (ha.row w s) (hfine s w hok)

theorem session_restore (ha : a.WritesRow r₀ active write answer)
    (hheld : ∀ s w, sessionOk s a w → s.held r₀) (h : ∀ r, sessionContract.Settles (next r) W K Q) :
    sessionContract.Settles (.act a next) W K Q := by
  refine session_act fun s w hok => ⟨W, ?_, h _⟩
  rw [ha.exec]
  refine orphans_keep fun r hr hlost => ⟨?_, hlost⟩
  exact ((ha.row w s).new hr).resolve_right fun hnew => hlost (.inl (hnew.2.2 ▸ hheld s w hok))

theorem session_acquire (ha : a.WritesRow r₀ active write answer)
    (hdone : sessionContract.Settles (next (answer true)) (W ∪ {r₀}) K Q)
    (hfailed : sessionContract.Settles (next (answer false)) W K Q) :
    sessionContract.Settles (.act a next) W K Q := by
  refine session_act fun s w _ => ?_
  rw [ha.exec]
  refine ⟨_, orphans_written (ha.row w s), ?_⟩
  cases (write w s).2 with
  | false => exact hfailed
  | true => exact hdone

end Writes

theorem session_giveUpPublisher (hcause : cause = .undo ∨ cause = .dropped ∨ cause = .regroup)
    {row : PublisherRecord} (hrow : row.active = false)
    (h : ∀ ok, sessionContract.Settles (next ok) (W \ {.publisher row.id}) K Q) :
    sessionContract.Settles (.act (.publisherUpdate cause row) next) W K Q := by
  refine session_giveUp (writesRow_publisherUpdate cause hrow) (fun s w hok => ?_) h
  rcases hcause with rfl | rfl | rfl <;> simpa [sessionOk, Bridge.publisherUpdate] using hok

theorem session_giveUpPlayer (hcause : cause = .dropped ∨ cause = .regroup)
    (hrow : row.active = false)
    (h : ∀ ok, sessionContract.Settles (next ok) (W \ {.player row.id}) K Q) :
    sessionContract.Settles (.act (.playerUpdate cause row) next) W K Q := by
  refine session_giveUp (writesRow_playerUpdate cause hrow) (fun s w hok => ?_) h
  rcases hcause with rfl | rfl <;> simpa [sessionOk, Bridge.playerUpdate] using hok

/-! #### Sessions of connections -/

theorem orphans_setConn {kept : Set SessionRow}
    (hcs : ∀ r, s.db.rowActive r → (s.connState conn).holds r → cs.holds r)
    (hkept : ∀ r ∈ kept, cs.holds r) :
    (s.setConn conn cs).orphanRows ⊆ (s.orphanRows \ W) ∪ (W \ kept) :=
  orphans_split fun r hr hlost =>
    .inr ⟨hr, fun href => hlost (href.setConn (hcs r hr)), fun hW => ⟨hW, fun hmem =>
      hlost (.inl (held_iff.2 ⟨conn, cs, lookup_insert _, hkept r hmem⟩))⟩⟩

theorem orphans_keepConn (hcs : ∀ r, s.db.rowActive r → (s.connState conn).holds r → cs.holds r) :
    (s.setConn conn cs).orphanRows ⊆ (s.orphanRows \ W) ∪ W :=
  orphans_keep fun r hr hlost => ⟨hr, fun href => hlost (href.setConn (hcs r hr))⟩

theorem orphans_modifyConn (hf : ∀ r, s.db.rowActive r → (s.connState conn).holds r →
      (f (s.connState conn)).holds r) :
    (s.modifyConn conn f).orphanRows ⊆ (s.orphanRows \ W) ∪ W := by
  unfold Bridge.modifyConn
  cases hcs : s.conns.lookup conn with
  | none => exact orphans_keep fun r hr hlost => ⟨hr, hlost⟩
  | some cs =>
    have hstate : s.connState conn = cs := by rw [Bridge.connState, hcs, getD_some]
    exact orphans_keepConn (hstate ▸ hf)

theorem session_installPublisher {row : PublisherRecord} {next : Unit → BridgeM α}
    (h : sessionContract.Settles (next ()) (W \ {.publisher row.id}) K Q) :
    sessionContract.Settles (.act (.installPublisher conn row) next) W K Q := by
  refine session_act fun s w hok => ⟨_, orphans_setConn (fun r hr hheld => ?_) ?_, h⟩
  · cases r with
    | player id => exact hheld
    | publisher id =>
      obtain ⟨p, hp, rfl⟩ := ConnState.holds_publisher.1 hheld
      have hdrop : p.id = row.id ∨ s.db.rowActive (.publisher p.id) = false := by
        simpa [sessionOk, Bridge.publisherOf, hp] using hok
      grind
  · simp [ConnState.holds_publisher]

theorem session_installPlayer {next : Unit → BridgeM α}
    (h : sessionContract.Settles (next ()) (W \ {.player row.id}) K Q) :
    sessionContract.Settles (.act (.installPlayer conn row) next) W K Q := by
  refine session_act fun s w hok => ⟨_, orphans_setConn (fun r hr hheld => ?_) ?_, h⟩
  · cases r with
    | publisher id => exact hheld
    | player id =>
      obtain ⟨p, hp, rfl⟩ := ConnState.holds_player.1 hheld
      have hdrop : p.id = row.id ∨ s.db.rowActive (.player p.id) = false := by
        simpa [sessionOk, Bridge.playerOf, hp] using hok
      grind
  · simp [ConnState.holds_player]

theorem orphans_drop {r₀ : SessionRow} (hok : s.mayDrop conn r₀)
    (hf : ∀ cs r, ConnState.holds cs r → r ≠ r₀ → (f cs).holds r) :
    (s.modifyConn conn f).orphanRows ⊆ (s.orphanRows \ W) ∪ W := by
  refine orphans_modifyConn fun r hr hheld => hf _ r hheld fun heq => ?_
  subst heq
  simp [Bridge.mayDrop, hr, hheld] at hok

theorem ConnState.holds_clear {cs cs' : ConnState} {r₀ : SessionRow} (hr : cs.holds r)
    (hne : r ≠ r₀) (hcs' : ∀ r, cs.holds r → cs.holds r₀ → r ≠ r₀ →
      cs'.holds r) : (if cs.holds r₀ then cs' else cs).holds r = true := by
  split_ifs with hid
  · exact hcs' r hr hid hne
  · exact hr

theorem session_clearPublisher {next : Unit → BridgeM α}
    (h : sessionContract.Settles (next ()) W K Q) :
    sessionContract.Settles (.act (.clearPublisher conn id) next) W K Q := by
  refine session_act fun _ _ hok => ⟨W, orphans_drop hok fun cs r hr hne => ?_, h⟩
  refine ConnState.holds_clear hr hne fun r => ?_
  cases r <;> grind [ConnState.withoutPublisher]

theorem session_clearPlayer {next : Unit → BridgeM α}
    (h : sessionContract.Settles (next ()) W K Q) :
    sessionContract.Settles (.act (.clearPlayer conn id) next) W K Q := by
  refine session_act fun _ _ hok => ⟨W, orphans_drop hok fun cs r hr hne => ?_, h⟩
  refine ConnState.holds_clear hr hne fun r => ?_
  cases r <;> grind [ConnState.withoutPlayer]

theorem session_dropPlayer {next : Unit → BridgeM α} (h : sessionContract.Settles (next ()) W K Q) :
    sessionContract.Settles (.act (.dropPlayer conn id) next) W K Q := by
  refine session_act fun _ _ hok => ⟨W, orphans_drop hok fun cs r hr hne => ?_, h⟩
  refine ConnState.holds_clear hr hne fun r => ?_
  cases r <;> grind

theorem session_admitPublisher {row : PublisherRecord}
    (h : ∀ ok, sessionContract.Settles (next ok) W K Q) :
    sessionContract.Settles (.act (.admitPublisher conn row) next) W K Q := by
  refine session_act fun s w _ => ⟨W, ?_, h _⟩
  show (s.admitPublisher conn row).1.orphanRows ⊆ _
  unfold Bridge.admitPublisher
  split
  next => exact orphans_keep fun r hr hlost => ⟨hr, hlost⟩
  next =>
    dsimp only
    split
    next => exact orphans_keepConn fun _ _ hheld => hheld
    next hfree =>
      have hnone : (s.connState conn).publisher = none := by
        simp only [Bool.or_eq_true, not_or] at hfree
        exact not_isSome_iff_eq_none.1 hfree.1.2
      refine Eq.subset (orphanRows_congr (by split <;> rfl)) |>.trans
        (orphans_keepConn fun r _ (hheld : (s.connState conn).holds r = true) => ?_)
      cases r <;> grind

theorem session_admitPlayer (h : ∀ ok, sessionContract.Settles (next ok) W K Q) :
    sessionContract.Settles (.act (.admitPlayer conn row) next) W K Q := by
  refine session_act fun s w _ => ⟨W, ?_, h _⟩
  show (s.admitPlayer conn row).1.orphanRows ⊆ _
  unfold Bridge.admitPlayer
  split
  next => exact orphans_keep fun r hr hlost => ⟨hr, hlost⟩
  next =>
    split
    next => exact orphans_keep fun r hr hlost => ⟨hr, hlost⟩
    next hfree =>
      have hnone : (s.connState conn).player = none := not_isSome_iff_eq_none.1 hfree
      split
      next => exact orphans_keepConn fun _ _ hheld => hheld
      next db hdb =>
        have hrows := fun r => @rowActive_congr s.db db r (uncounted_playerReserve hdb)
        refine orphans_keep fun r hr hlost => ⟨(hrows r).symm.trans hr, fun href => hlost ?_⟩
        refine Bridge.Referenced.setConn (s := s.setDb db) href fun hheld => ?_
        have hheld : (s.connState conn).holds r = true := hheld
        cases r <;> grind

theorem session_cancelReservation {viewerId : String} {next : Unit → BridgeM α}
    (h : sessionContract.Settles (next ()) W K Q) :
    sessionContract.Settles (.act (.playerCancelReservation viewerId) next) W K Q := by
  refine session_act fun s w _ => ⟨W, orphans_keep fun r hr hlost => ⟨?_, hlost⟩, h⟩
  cases r <;> exact hr

theorem session_removeConn {next : Option ConnState → BridgeM α}
    (hsome : ∀ cs, sessionContract.Settles (next (some cs)) (W ∪ {r | cs.holds r = true}) K Q)
    (hnone : sessionContract.Settles (next none) W K Q) :
    sessionContract.Settles (.act (.removeConn conn) next) W K Q := by
  refine session_act fun s w _ => ?_
  show ∃ W', Bridge.orphanRows { s with conns := s.conns.erase conn } ⊆ _ ∪ W' ∧
    sessionContract.Settles (next (s.conns.lookup conn)) W' K Q
  have hothers : ∀ r, s.Referenced r →
      Bridge.Referenced { s with conns := s.conns.erase conn } r ∨
        ∃ cs, s.conns.lookup conn = some cs ∧ cs.holds r = true := by
    rintro r (hheld | hqueued)
    · obtain ⟨conn', cs, hcs, hr⟩ := held_iff.1 hheld
      by_cases hconn : conn' = conn
      · exact .inr ⟨cs, hconn ▸ hcs, hr⟩
      · exact .inl (.inl (held_iff.2 ⟨conn', cs, (lookup_erase_ne hconn).trans hcs, hr⟩))
    · exact .inl (.inr hqueued)
  cases hcs : s.conns.lookup conn with
  | none => exact ⟨W, orphans_keep fun r hr hlost => ⟨hr, by grind⟩, hnone⟩
  | some cs =>
    refine ⟨_, orphans_split fun r hr hlost => ?_, hsome cs⟩
    by_cases href : s.Referenced r
    · exact .inl (.inr (by grind))
    · exact .inr ⟨hr, href, .inl⟩

theorem session_queueDeactivation {d : PendingDeactivation} {next : Unit → BridgeM α}
    (h : sessionContract.Settles (next ()) (W \ {d.row}) K Q) :
    sessionContract.Settles (.act (.queueDeactivation d) next) W K Q := by
  refine session_act fun s w _ => ⟨_, orphans_split fun r hr hlost => .inr ⟨hr, ?_, ?_⟩, h⟩
  · refine fun href => hlost (href.imp_right fun ⟨e, he, hrow⟩ => ⟨e, ?_, hrow⟩)
    exact mem_append_left _ he
  · refine fun hW => ⟨hW, fun heq => hlost (.inr ⟨d, ?_, heq.symm⟩)⟩
    exact mem_append_right _ (mem_singleton_self d)

theorem session_takeDeactivations {next : List PendingDeactivation → BridgeM α}
    (h : ∀ l, sessionContract.Settles (next l) (W ∪ {r | ∃ d ∈ l, d.row = r}) K Q) :
    sessionContract.Settles (.act .takeDeactivations next) W K Q := by
  refine session_act fun s w _ => ⟨_, orphans_split fun r hr hlost => ?_, h _⟩
  by_cases href : s.Referenced r
  · rcases href with hheld | ⟨d, hd, hrow⟩
    · exact absurd (.inl hheld) hlost
    · rw [← take_append_drop maxPendingDeactivationBatch s.pendingDeactivations] at hd
      refine .inl (.inr ⟨d, (mem_append.1 hd).resolve_right fun hdrop => ?_, hrow⟩)
      exact hlost (.inr ⟨d, hdrop, hrow⟩)
  · exact .inr ⟨hr, href, .inl⟩

theorem session_look {q : Query} {next : q.Answer → BridgeM α} {fine : q.Answer → Set SessionRow}
    (hfine : ∀ s w, ∀ r ∈ fine (Bridge.answer s w q), s.db.rowActive r → s.Referenced r)
    (h : ∀ x, sessionContract.Settles (next x) (W \ fine x) K Q) :
    sessionContract.Settles (.act (.look q) next) W K Q := by
  refine session_act fun s w _ => ⟨W \ fine (s.answer w q), orphans_split fun r hr hlost => ?_, h _⟩
  exact .inr ⟨hr, hlost, fun hW => ⟨hW, fun hmem => hlost (hfine s w r hmem hr)⟩⟩

theorem session_lookPublisher {next : Option PublisherRecord → BridgeM α}
    (h : ∀ p, sessionContract.Settles (next p)
      (W \ {r | ∃ q ∈ p, r = .publisher (PublisherRecord.id q)}) K Q) :
    sessionContract.Settles (.act (.look (.publisher conn)) next) W K Q := by
  refine session_look ?_ h
  rintro s w r ⟨p, hp, rfl⟩ -
  exact referenced_of_connState conn (ConnState.holds_publisher.2 ⟨p, hp, rfl⟩)

theorem session_lookPlayer {next : Option PlayerRecord → BridgeM α}
    (h : ∀ p, sessionContract.Settles (next p)
      (W \ {r | ∃ q ∈ p, r = .player (PlayerRecord.id q)}) K Q) :
    sessionContract.Settles (.act (.look (.player conn)) next) W K Q := by
  refine session_look ?_ h
  rintro s w r ⟨p, hp, rfl⟩ -
  exact referenced_of_connState conn (ConnState.holds_player.2 ⟨p, hp, rfl⟩)

theorem session_publisherExists (h : ∀ found, sessionContract.Settles (next found)
      (W \ {r | found = false ∧ r = .publisher id}) K Q) :
    sessionContract.Settles (.act (.look (.publisherExists id)) next) W K Q := by
  refine session_look ?_ h
  rintro s w r ⟨hnone, rfl⟩ hr
  have hnone : (w.fails || s.db.publishers.any fun p => p.id = id) = false := hnone
  obtain ⟨p, hp, hid⟩ := any_eq_true.1 hr
  exact absurd (Bool.and_elim_left hid) (any_eq_false.1 (Bool.or_eq_false_iff.1 hnone).2 p hp)

theorem session_playerExists (h : ∀ found, sessionContract.Settles (next found)
      (W \ {r | found = false ∧ r = .player id}) K Q) :
    sessionContract.Settles (.act (.look (.playerExists id)) next) W K Q := by
  refine session_look ?_ h
  rintro s w r ⟨hnone, rfl⟩ hr
  have hnone : (w.fails || s.db.players.any fun p => p.id = id) = false := hnone
  obtain ⟨p, hp, hid⟩ := any_eq_true.1 hr
  exact absurd (Bool.and_elim_left hid) (any_eq_false.1 (Bool.or_eq_false_iff.1 hnone).2 p hp)

theorem session_abandonRoles {next : List UInt64 × List UInt64 → BridgeM α}
    (h : ∀ dropped, sessionContract.Settles (next dropped) W K Q) :
    sessionContract.Settles (.act (.abandonRoles streamId) next) W K Q := by
  refine session_act fun s w hok => ⟨W, ?_, h _⟩
  show (s.abandonRoles streamId).1.orphanRows ⊆ _
  refine orphans_keep fun r hr hlost => ⟨hr, fun href => hlost ?_⟩
  refine href.imp_left fun hheld => ?_
  obtain ⟨conn, cs, hcs, hheld⟩ := held_iff.1 hheld
  have hconn := all_eq_true.1 hok ⟨conn, cs⟩ (mem_lookup_iff.1 hcs)
  have hr : s.db.rowActive r = true := hr
  refine held_iff.2 ⟨conn, cs.abandoned streamId, ?_, ?_⟩
  · show (mapValues (·.abandoned streamId) s.conns).lookup conn = _
    rw [lookup_mapValues, hcs, map_some]
  · cases r <;> grind [ConnState.abandoned]

end Actions

/-! ### The operations -/

section Operations

open Bridge Contract

variable {conn : UInt64}
variable {α : Type}

theorem session_perform {a : Action} (ha : a.keepsSessions) :
    sessionContract.Honours (perform a) :=
  fun _ => session_other ha fun _ => rfl

theorem session_seek {q : Query} {next : q.Answer → BridgeM α}
    (h : ∀ x, sessionContract.Honours (next x)) : sessionContract.Honours (look q >>= next) :=
  fun K => session_other rfl fun x => h x K

theorem session_tryRelease : sessionContract.Honours (tryReleaseOwnershipForConn conn) := by
  refine session_seek fun entry => session_seek fun coordinator => ?_
  rcases entry with _ | ⟨streamId, epoch⟩
  · exact .ret _
  · simp only
    split
    · exact .ret _
    · refine (session_perform rfl).bind fun released => (session_perform rfl).bind fun _ => ?_
      split
      · exact .ret _
      · exact session_perform rfl

theorem session_releaseOwnershipOf (streamId : String) :
    sessionContract.Honours (releaseOwnershipOf conn streamId) := by
  refine session_seek fun entry => ?_
  split
  · exact session_tryRelease
  · exact .ret _

theorem session_endPublisher (cause : Cause) (row : PublisherRecord) :
    sessionContract.Honours (deactivatePublisher cause row) :=
  fun _ => session_deactivate (writesRow_publisherUpdate cause rfl) (empty_sdiff _) rfl

theorem session_endPlayer (cause : Cause) (row : PlayerRecord) :
    sessionContract.Honours (deactivatePlayer cause row) :=
  fun _ => session_deactivate (writesRow_playerUpdate cause rfl) (empty_sdiff _) rfl

theorem session_releasePublisher : sessionContract.Honours (releasePublisher conn) := by
  refine session_seek fun publisher => ?_
  cases publisher with
  | none => exact .ret _
  | some row =>
    refine (session_endPublisher _ row).bind fun updated => ?_
    split
    · exact (session_releaseOwnershipOf _).bind fun _ K => session_clearPublisher rfl
    · exact .ret _

theorem session_releasePublisherIfId (id : String) :
    sessionContract.Honours (releasePublisherIfId conn id) := by
  refine session_seek fun publisher => ?_
  split
  · exact .ret _
  · refine (session_endPublisher _ _).bind fun updated => ?_
    split
    · refine session_seek fun current => ?_
      split
      · exact (session_releaseOwnershipOf _).bind fun _ K => session_clearPublisher rfl
      · exact .ret _
    · exact .ret _

theorem session_releasePlayer : sessionContract.Honours (releasePlayer conn) := by
  refine session_seek fun player => ?_
  cases player with
  | none => exact .ret _
  | some row =>
    refine (session_endPlayer _ row).bind fun updated => ?_
    split
    · exact fun K => session_clearPlayer rfl
    · exact .ret _

theorem session_releasePlayerIfId (id : String) :
    sessionContract.Honours (releasePlayerIfId conn id) := by
  refine session_seek fun player => ?_
  split
  · exact .ret _
  · refine (session_endPlayer _ _).bind fun updated => ?_
    split
    · refine session_seek fun current => ?_
      split
      · exact fun K => session_clearPlayer rfl
      · exact .ret _
    · exact .ret _

theorem session_abandon (streamId : String) :
    sessionContract.Honours (abandonRolesForStream streamId) := by
  refine fun K => session_abandonRoles fun dropped => ?_
  have hrest : sessionContract.Honours (do
      dropped.1.forM tryReleaseOwnershipForConn
      if dropped.2.isEmpty then pure () else perform (.forceClose dropped.2)) := by
    refine (Honours.forM (fun _ => session_tryRelease) _).bind fun _ => ?_
    split
    · exact .ret _
    · exact session_perform rfl
  exact hrest K

theorem session_closePublisher (publisher : Option PublisherRecord) (W : Set SessionRow)
    (K : Set Empty) :
    sessionContract.Settles (closePublisher publisher) W K fun _ W' _ =>
      W' = W \ {r | ∃ p ∈ publisher, r = .publisher p.id} := by
  cases publisher with
  | none =>
    show W = _
    simp
  | some row =>
    refine Settles.bind (session_deactivate (writesRow_publisherUpdate _ rfl) ?_
      (session_queueDeactivation ?_))
    all_goals
      show W \ {.publisher row.id} = _
      simp

theorem session_closePlayer (player : Option PlayerRecord) (W : Set SessionRow) (K : Set Empty) :
    sessionContract.Settles (closePlayer player) W K fun _ W' _ =>
      W' = W \ {r | ∃ p ∈ player, r = .player p.id} := by
  cases player with
  | none =>
    show W = _
    simp
  | some row =>
    refine Settles.bind (session_deactivate (writesRow_playerUpdate _ rfl) ?_
      (session_queueDeactivation ?_))
    all_goals
      show W \ {.player row.id} = _
      simp

theorem session_onClose : sessionContract.Honours (onClose conn) := by
  refine fun K => session_other rfl fun _ => session_removeConn (fun cs => ?_) rfl
  simp only [Prog.bind]
  refine Settles.bind ((session_closePublisher cs.publisher _ K).mono ?_)
  rintro _ _ K' rfl
  refine Settles.bind ((session_tryRelease.frame _ K').mono ?_)
  rintro _ _ K' rfl
  refine (session_closePlayer cs.player _ K').mono ?_
  rintro _ _ _ rfl
  refine eq_empty_of_forall_notMem ?_
  rintro r ⟨⟨hr | hr, hpublisher⟩, hplayer⟩
  · exact hr
  · cases r with
    | publisher id =>
      obtain ⟨p, hp, rfl⟩ := ConnState.holds_publisher.1 hr
      exact hpublisher ⟨p, hp, rfl⟩
    | player id =>
      obtain ⟨p, hp, rfl⟩ := ConnState.holds_player.1 hr
      exact hplayer ⟨p, hp, rfl⟩

theorem session_retryDeactivation (d : PendingDeactivation) (W : Set SessionRow) (K : Set Empty) :
    sessionContract.Settles (retryDeactivation d) W K fun _ W' _ => W' ⊆ W \ {d.row} := by
  cases d with
  | publisher row inactive =>
    refine session_deactivate (writesRow_publisherUpdate _ inactive) Set.Subset.rfl ?_
    refine session_publisherExists fun found => ?_
    cases found with
    | true => exact session_queueDeactivation (sdiff_subset_sdiff_left sdiff_subset)
    | false =>
      show W \ _ ⊆ _
      simp [PendingDeactivation.row]
  | player row inactive =>
    refine session_deactivate (writesRow_playerUpdate _ inactive) Set.Subset.rfl ?_
    refine session_playerExists fun found => ?_
    cases found with
    | true => exact session_queueDeactivation (sdiff_subset_sdiff_left sdiff_subset)
    | false =>
      show W \ _ ⊆ _
      simp [PendingDeactivation.row]

theorem session_retryAll (l : List PendingDeactivation) {W : Set SessionRow} (K : Set Empty)
    (hW : W ⊆ {r | ∃ d ∈ l, d.row = r}) :
    sessionContract.Settles (l.forM retryDeactivation) W K fun _ W' _ => W' = ∅ := by
  induction l generalizing W K with
  | nil => exact subset_empty_iff.1 (hW.trans (by simp))
  | cons d l ih =>
    refine Settles.bind ((session_retryDeactivation d W K).mono fun _ W' K' hW' => ih K' ?_)
    intro r hr
    obtain ⟨d', hd', hrow⟩ := hW (hW' hr).1
    refine ⟨d', (mem_cons.1 hd').resolve_left fun heq => (hW' hr).2 ?_, hrow⟩
    rw [← hrow, heq, mem_singleton_iff]

theorem session_retryPending : sessionContract.Honours retryPendingDeactivations := by
  refine session_seek fun due => ?_
  split
  · exact fun K => session_takeDeactivations fun l => session_retryAll l K (by simp)
  · exact .ret _

/-! #### Authorization -/

theorem session_restorePublisherRow (old : PublisherRecord) :
    sessionContract.Honours (restorePublisherRow old) := by
  refine fun K => session_restore (writesRow_publisherUpdate .restore rfl) (fun _ _ hok => hok)
    fun restored => ?_
  cases restored with
  | true => rfl
  | false =>
    exact session_restore (writesRow_publisherTryAcquire .restore _) (fun _ _ hok => hok) fun _ => rfl

theorem session_restorePlayerRow (old : PlayerRecord) :
    sessionContract.Honours (restorePlayerRow old) := by
  refine fun K => session_restore (writesRow_playerUpdate .restore rfl) (fun _ _ hok => hok)
    fun restored => ?_
  cases restored with
  | true => rfl
  | false =>
    exact session_restore (writesRow_playerTryAcquire .restore _) (fun _ _ hok => hok) fun _ => rfl

theorem session_refusePublish (old : Option PublisherRecord) (kind : AuthFailureKind) :
    sessionContract.Honours (refusePublish old kind) := by
  cases old with
  | none => exact .ret _
  | some prior => exact (session_restorePublisherRow prior).bind fun _ => .ret _

theorem session_refusePlay (old : Option PlayerRecord) (kind : AuthFailureKind) :
    sessionContract.Honours (refusePlay old kind) := by
  cases old with
  | none => exact .ret _
  | some prior => exact (session_restorePlayerRow prior).bind fun _ => .ret _

section NewRow

variable {row : PublisherRecord} {old : Option PublisherRecord} {K : Set Empty}

theorem session_undoPublish (kind : AuthFailureKind) :
    sessionContract.Settles (undoPublish row old kind) {.publisher row.id} K
      fun _ W _ => W = ∅ := by
  refine session_giveUpPublisher (.inl rfl) rfl fun _ => ?_
  rw [sdiff_self]
  exact session_refusePublish old kind K

theorem session_install :
    sessionContract.Settles (do
        perform (.installPublisher conn row)
        pure (Except.ok () : Except AuthFailureKind Unit)) {.publisher row.id} K
      fun _ W _ => W = ∅ :=
  session_installPublisher Set.sdiff_self

theorem session_releasePrior (prior : Option (String × UInt64)) (streamId : String) :
    sessionContract.Honours (releasePrior prior streamId) := by
  unfold releasePrior
  split
  · exact .ret _
  · exact session_perform rfl

theorem session_claimStream (prior : Option (String × UInt64)) :
    sessionContract.Settles (claimStream conn row old prior) {.publisher row.id} K
      fun _ W _ => W = ∅ := by
  refine session_other rfl fun coordinator => ?_
  simp only [Prog.bind]
  split
  · exact session_install
  · refine session_other rfl fun granted => ?_
    cases granted with
    | none => exact session_undoPublish _
    | some epoch =>
      simp only [Prog.bind]
      refine Settles.bind (((session_releasePrior prior row.streamId).frame _ K).mono ?_)
      rintro released _ K' rfl
      cases released with
      | true => exact session_other rfl fun _ => session_install
      | false => exact session_other rfl fun _ => session_undoPublish _

end NewRow

theorem session_switchPublisher (row : PublisherRecord) :
    sessionContract.Honours (switchPublisher conn row) := by
  refine session_seek fun old => session_seek fun prior => ?_
  refine Honours.bind ?_ fun gone => ?_
  · cases old with
    | none => exact .ret _
    | some row => exact session_endPublisher _ row
  · cases gone with
    | false => exact .ret _
    | true =>
      refine fun K => session_acquire (writesRow_publisherTryAcquire _ row) ?_
        (session_refusePublish old _ K)
      rw [empty_union]
      exact session_claimStream prior

theorem session_clusterFull (viewerId : String) :
    sessionContract.Honours (clusterFull viewerId) := by
  refine session_seek fun coordinator => ?_
  split
  · exact session_seek fun here => session_seek fun elsewhere => .ret _
  · exact .ret _

theorem session_switchPlayer (row : PlayerRecord) :
    sessionContract.Honours (switchPlayer conn row) := by
  refine session_seek fun old => Honours.bind ?_ fun gone => ?_
  · cases old with
    | none => exact .ret _
    | some row => exact session_endPlayer _ row
  · cases gone with
    | false => exact .ret _
    | true =>
      refine (session_clusterFull row.viewerId).bind fun full => ?_
      cases full with
      | true => exact session_refusePlay old _
      | false =>
        refine fun K => session_acquire (writesRow_playerTryAcquire _ row) ?_
          (session_refusePlay old _ K)
        rw [empty_union]
        exact session_installPlayer Set.sdiff_self

theorem session_leads {T : BridgeM α → Prop} {p : BridgeM α} (h : p.Leads Looks T)
    (hT : ∀ q, T q → sessionContract.Honours q) : sessionContract.Honours p := by
  refine Honours.leads (fun a ha s w _ => ?_) hT h
  cases a with
  | look q => exact ⟨trivial, Set.Subset.rfl⟩
  | _ => cases ha

theorem session_authorizePublish (app streamKey : String) :
    sessionContract.Honours (authorizePublish conn app streamKey) := by
  refine session_leads (authorizePublish_leads app streamKey) ?_
  rintro _ (rfl | ⟨row, rfl⟩)
  · exact .ret _
  · exact (session_switchPublisher row).bind fun _ => .ret _

theorem session_authorizePlay (app streamKey : String) :
    sessionContract.Honours (authorizePlay conn app streamKey) := by
  refine session_leads (authorizePlay_leads app streamKey) ?_
  rintro _ (rfl | ⟨row, rfl⟩)
  · exact .ret _
  · exact (session_switchPlayer row).bind fun _ => .ret _

/-! #### The fast path -/

theorem session_tryFastPublish (app streamKey : String) :
    sessionContract.Honours (tryFastAuthorizePublish conn app streamKey) := by
  refine session_leads (tryFastAuthorizePublish_leads app streamKey) ?_
  rintro _ (rfl | ⟨row, rfl⟩)
  · exact .ret _
  · exact fun K => session_admitPublisher fun _ => rfl

theorem session_tryFastPlay (app streamKey : String) :
    sessionContract.Honours (tryFastAuthorizePlay conn app streamKey) := by
  refine session_leads (tryFastAuthorizePlay_leads app streamKey) ?_
  rintro _ (rfl | ⟨row, rfl⟩)
  · exact .ret _
  · exact fun K => session_admitPlayer fun _ => rfl

theorem session_dropFastPublisher (row : PublisherRecord) :
    sessionContract.Honours (dropFastPublisher conn row) :=
  fun _ => session_clearPublisher (session_other rfl fun _ => rfl)

theorem session_fastPublish (app streamKey : String) :
    sessionContract.Honours (fastPublish conn app streamKey) := by
  refine (session_tryFastPublish app streamKey).bind fun row => ?_
  cases row with
  | none => exact .ret _
  | some row =>
    refine (session_perform rfl).bind fun queued => ?_
    split
    · exact .ret _
    · exact session_dropFastPublisher row

theorem session_fastPlay (app streamKey : String) :
    sessionContract.Honours (fastPlay conn app streamKey) := by
  refine (session_tryFastPlay app streamKey).bind fun row => ?_
  cases row with
  | none => exact .ret _
  | some row =>
    refine (session_perform rfl).bind fun queued => ?_
    split
    · exact .ret _
    · exact fun K => session_clearPlayer (session_cancelReservation rfl)

theorem session_persistFastPublish (row : PublisherRecord) :
    sessionContract.Honours (persistFastPublish conn row) := by
  refine fun K => session_acquire (writesRow_publisherTryAcquire _ row) ?_ ?_
  · rw [empty_union]
    refine session_lookPublisher fun held => ?_
    simp only [Prog.bind]
    split
    next hheld =>
      obtain ⟨p, hp, hid⟩ := (any_eq_true _ _).1 hheld
      refine eq_empty_of_forall_notMem ?_
      rintro r ⟨hr, hnot⟩
      exact hnot ⟨p, hp, (mem_singleton_iff.1 hr).trans (congrArg _ (of_decide_eq_true hid).symm)⟩
    next =>
      refine session_giveUpPublisher (.inr (.inl rfl)) rfl fun _ => ?_
      exact subset_empty_iff.1 fun r hr => hr.2 hr.1.1
  · exact ((session_dropFastPublisher row).bind fun _ => session_perform rfl) K

theorem session_persistFastPlay (row : PlayerRecord) :
    sessionContract.Honours (persistFastPlay conn row) := by
  refine fun K => session_acquire (writesRow_playerInsertReserved row) ?_ ?_
  · rw [empty_union]
    refine session_lookPlayer fun held => ?_
    simp only [Prog.bind]
    split
    next hheld =>
      obtain ⟨p, hp, hid⟩ := (any_eq_true _ _).1 hheld
      refine eq_empty_of_forall_notMem ?_
      rintro r ⟨hr, hnot⟩
      exact hnot ⟨p, hp, (mem_singleton_iff.1 hr).trans (congrArg _ (of_decide_eq_true hid).symm)⟩
    next =>
      refine session_giveUpPlayer (.inl rfl) rfl fun _ => ?_
      exact subset_empty_iff.1 fun r hr => hr.2 hr.1.1
  · exact session_dropPlayer (session_other rfl fun _ => rfl)

theorem session_persistNext : sessionContract.Honours persistNext := by
  refine (session_perform rfl).bind fun job => ?_
  rcases job with _ | ⟨conn, row⟩ | ⟨conn, row⟩
  · exact .ret _
  · exact session_persistFastPublish row
  · exact session_persistFastPlay row

end Operations

/-! ### The operations that run alone -/

/-- The operations on sessions. The fast path is its two halves: the admission, which queues the row
or is taken back, and the worker's write of the next row. -/
inductive SessionOperation where
  | authorizePublish (conn : UInt64) (app streamKey : String)
  | authorizePlay (conn : UInt64) (app streamKey : String)
  | fastPublish (conn : UInt64) (app streamKey : String)
  | fastPlay (conn : UInt64) (app streamKey : String)
  | persistNext
  | releasePublisher (conn : UInt64)
  | releasePublisherIfId (conn : UInt64) (publisherId : String)
  | releasePlayer (conn : UInt64)
  | releasePlayerIfId (conn : UInt64) (playerId : String)
  | abandonRolesForStream (streamId : String)
  | onClose (conn : UInt64)
  | retryPendingDeactivations

def SessionOperation.prog : SessionOperation → BridgeM Unit
  | .authorizePublish conn app streamKey => do
    let _ ← Bridge.authorizePublish conn app streamKey
    pure ()
  | .authorizePlay conn app streamKey => do
    let _ ← Bridge.authorizePlay conn app streamKey
    pure ()
  | .fastPublish conn app streamKey => Bridge.fastPublish conn app streamKey
  | .fastPlay conn app streamKey => Bridge.fastPlay conn app streamKey
  | .persistNext => Bridge.persistNext
  | .releasePublisher conn => Bridge.releasePublisher conn
  | .releasePublisherIfId conn publisherId => Bridge.releasePublisherIfId conn publisherId
  | .releasePlayer conn => Bridge.releasePlayer conn
  | .releasePlayerIfId conn playerId => Bridge.releasePlayerIfId conn playerId
  | .abandonRolesForStream streamId => Bridge.abandonRolesForStream streamId
  | .onClose conn => Bridge.onClose conn
  | .retryPendingDeactivations => Bridge.retryPendingDeactivations

theorem SessionOperation.honours (op : SessionOperation) : sessionContract.Honours op.prog := by
  cases op with
  | authorizePublish conn app streamKey =>
    exact (session_authorizePublish app streamKey).bind fun _ => .ret _
  | authorizePlay conn app streamKey =>
    exact (session_authorizePlay app streamKey).bind fun _ => .ret _
  | fastPublish conn app streamKey => exact session_fastPublish app streamKey
  | fastPlay conn app streamKey => exact session_fastPlay app streamKey
  | persistNext => exact session_persistNext
  | releasePublisher conn => exact session_releasePublisher
  | releasePublisherIfId conn publisherId => exact session_releasePublisherIfId publisherId
  | releasePlayer conn => exact session_releasePlayer
  | releasePlayerIfId conn playerId => exact session_releasePlayerIfId playerId
  | abandonRolesForStream streamId => exact session_abandon streamId
  | onClose conn => exact session_onClose
  | retryPendingDeactivations => exact session_retryPending

end RtmpServer
