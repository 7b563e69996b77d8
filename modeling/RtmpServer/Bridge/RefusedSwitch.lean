import RtmpServer.Bridge.Operations

/-!
# Refused role switches

A connection that holds a session and asks for another one gives up the row of the first before the
new slot is tried, and brings it back when the request is refused. In between, others neither touch
the connection nor write the session's row (`Action.foreignTo`), but they may take the slot that it
left. Whether the session survives depends on the moment of the restore alone.
-/

namespace RtmpServer

open List Lib.Table Lib.Program Lib.Replay
open Option hiding any_map

variable {x : HeldSession} {cs : ConnState} {conn : UInt64}

inductive HeldSession where
  | publisher (row : PublisherRecord)
  | player (row : PlayerRecord)

namespace HeldSession

def row : HeldSession → SessionRow
  | .publisher p => .publisher p.id
  | .player p => .player p.id

def heldBy (cs : ConnState) : HeldSession → Prop
  | .publisher p => cs.publisher = some p
  | .player p => cs.player = some p

/-- The session's row is active, on its stream and for its viewer. -/
def live (db : Db) : HeldSession → Bool
  | .publisher p => (db.rowsOf (.publisher p.id)).1.any fun q => q.active && q.streamId = p.streamId
  | .player p => (db.rowsOf (.player p.id)).2.any fun q =>
      q.active && q.streamId = p.streamId && q.viewerId = p.viewerId

/-- The request for another session in the same role; the result is whether it is granted. -/
def switch (conn : UInt64) (app streamKey : String) : HeldSession → BridgeM Bool
  | .publisher _ => Bridge.authorizePublish conn app streamKey
  | .player _ => Bridge.authorizePlay conn app streamKey

/-- The slot the session needs is taken: its stream has another publisher, or its viewer has all the
sessions it may have. -/
def slotTaken (db : Db) : HeldSession → Bool
  | .publisher p => SessionDb.otherActive db p.id p
  | .player p => p.viewerId = "" || maxConnectionsPerPlayKey ≤ db.activePlayerCounts p.viewerId

def restore : HeldSession → Action
  | .publisher p => .publisherUpdate .restore { p with active := true }
  | .player p => .playerUpdate .restore { p with active := true }

/-- The session is to be brought back while its slot is taken. -/
def RestoreBlocked (x : HeldSession) (s : Bridge) (a : Action) : Prop :=
  a = x.restore ∧ x.slotTaken s.db = true

/-- The session's row was given up, and nothing but the slot is in the way of bringing it back. -/
def down (db : Db) : HeldSession → Prop
  | .publisher p => (db.rowsOf (.publisher p.id)).1 ≠ [] ∧
      (∀ q ∈ (db.rowsOf (.publisher p.id)).1, q.active = false) ∧
      db.hasStream p.streamId = true ∧ (tryI64 p.bytesIn).isSome = true
  | .player p => (db.rowsOf (.player p.id)).2 ≠ [] ∧
      (∀ q ∈ (db.rowsOf (.player p.id)).2, q.active = false) ∧
      db.hasStream p.streamId = true ∧ (tryI64 p.bytesOut).isSome = true

end HeldSession

/-- The action belongs to another connection and writes another session's row. -/
def Action.foreignTo (conn : UInt64) (r : SessionRow) : Action → Bool
  | .publisherUpdate _ row => r ≠ .publisher row.id
  | .publisherTryAcquire _ row => r ≠ .publisher row.id
  | .playerUpdate _ row => r ≠ .player row.id
  | .playerTryAcquire _ row => r ≠ .player row.id
  | .playerInsertReserved row => r ≠ .player row.id
  | .installPublisher conn' _ => conn' ≠ conn
  | .installPlayer conn' _ => conn' ≠ conn
  | .admitPublisher conn' _ => conn' ≠ conn
  | .admitPlayer conn' _ => conn' ≠ conn
  | .clearPublisher conn' _ => conn' ≠ conn
  | .clearPlayer conn' _ => conn' ≠ conn
  | .dropPlayer conn' _ => conn' ≠ conn
  | .removeConn conn' => conn' ≠ conn
  | .abandonRoles _ => false
  | _ => true

def noWriteFails (_ : Action) (w : Outcome) : Bool := w.faults = ⟨false, false, false⟩

/-! ### What others leave alone -/

/-- All that a session depends on, apart from its slot. -/
def Bridge.sessionView (s : Bridge) (conn : UInt64) (r : SessionRow) :=
  (s.conns.lookup conn, s.db.rowsOf r, s.db.toTables)

section View

variable {conn : UInt64} {r : SessionRow} {s : Bridge}
variable {conn' : UInt64} {f : ConnState → ConnState} {cs : ConnState}

theorem lookup_setConn (h : conn' ≠ conn) :
    (s.setConn conn' cs).conns.lookup conn = s.conns.lookup conn :=
  AList.lookup_insert_ne h.symm

theorem lookup_modifyConn (h : conn' ≠ conn) :
    (s.modifyConn conn' f).conns.lookup conn = s.conns.lookup conn := by
  unfold Bridge.modifyConn
  split
  · exact lookup_setConn h
  · rfl

theorem sessionView_modifyConn (h : conn' ≠ conn) :
    (s.modifyConn conn' f).sessionView conn r = s.sessionView conn r := by
  have hdb : (s.modifyConn conn' f).db = s.db := by
    unfold Bridge.modifyConn
    split <;> rfl
  simp only [Bridge.sessionView, lookup_modifyConn h, hdb]

theorem sessionView_setConn (h : conn' ≠ conn) :
    (s.setConn conn' cs).sessionView conn r = s.sessionView conn r :=
  congrArg (·, s.db.rowsOf r, s.db.toTables) (lookup_setConn h)

theorem sessionView_write {sessions : SessionDb} (hrows : sessions.db.rowsOf r = s.db.rowsOf r)
    (htables : sessions.db.toTables = s.db.toTables) :
    Bridge.sessionView { s with sessions := sessions } conn r = s.sessionView conn r := by
  show (s.conns.lookup conn, sessions.db.rowsOf r, sessions.db.toTables) = _
  rw [hrows, htables]
  rfl

theorem sessionView_row {a : Action} {r' : SessionRow} {active : Bool}
    {write : Outcome → Bridge → SessionDb × Bool} {answer : Bool → a.Answer}
    (ha : a.WritesRow r' active write answer) (h : r ≠ r') (w : Outcome) (s : Bridge) :
    (a.exec w s).1.sessionView conn r = s.sessionView conn r := by
  rw [ha.exec]
  exact sessionView_write ((ha.row w s).others r h) (ha.row w s).toTables

theorem sessionView_exec (a : Action) (w : Outcome) (s : Bridge) (h : a.foreignTo conn r) :
    (a.exec w s).1.sessionView conn r = s.sessionView conn r := by
  cases a with
  | publisherUpdate cause row =>
    exact sessionView_row (writesRow_publisherUpdate cause rfl) (of_decide_eq_true h) w s
  | playerUpdate cause row =>
    exact sessionView_row (writesRow_playerUpdate cause rfl) (of_decide_eq_true h) w s
  | publisherTryAcquire cause row =>
    exact sessionView_row (writesRow_publisherTryAcquire cause row) (of_decide_eq_true h) w s
  | playerTryAcquire cause row =>
    exact sessionView_row (writesRow_playerTryAcquire cause row) (of_decide_eq_true h) w s
  | playerInsertReserved row =>
    exact sessionView_row (writesRow_playerInsertReserved row) (of_decide_eq_true h) w s
  | playerCancelReservation viewerId => cases r <;> rfl
  | installPublisher conn' row => exact sessionView_setConn (of_decide_eq_true h)
  | installPlayer conn' row => exact sessionView_setConn (of_decide_eq_true h)
  | admitPublisher conn' row =>
    show (s.admitPublisher conn' row).1.sessionView conn r = _
    unfold Bridge.admitPublisher
    split
    · rfl
    · dsimp only
      split
      · exact sessionView_setConn (of_decide_eq_true h)
      · split
        all_goals exact sessionView_setConn (of_decide_eq_true h)
  | admitPlayer conn' row =>
    show (s.admitPlayer conn' row).1.sessionView conn r = _
    unfold Bridge.admitPlayer
    split
    · rfl
    · split
      · rfl
      · split
        · exact sessionView_setConn (of_decide_eq_true h)
        · rename_i db hdb
          refine Eq.trans (sessionView_setConn (of_decide_eq_true h)) ?_
          have htables := uncounted_playerReserve hdb
          exact sessionView_write (rowsOf_congr htables) (uncounted_eq htables).1
  | clearPublisher conn' id => exact sessionView_modifyConn (of_decide_eq_true h)
  | clearPlayer conn' id => exact sessionView_modifyConn (of_decide_eq_true h)
  | dropPlayer conn' id => exact sessionView_modifyConn (of_decide_eq_true h)
  | removeConn conn' =>
    have hne : conn ≠ conn' := Ne.symm (of_decide_eq_true h)
    exact congrArg (·, s.db.rowsOf r, s.db.toTables) (AList.lookup_erase_ne hne)
  | abandonRoles streamId => cases h
  | acquireStreamOwner streamId =>
    show (s.acquireStreamOwner streamId w.epoch).1.sessionView conn r = _
    unfold Bridge.acquireStreamOwner
    split
    · split <;> rfl
    · rfl
  | releaseStreamOwner cause streamId epoch =>
    show (s.releaseStreamOwner streamId epoch w).1.sessionView conn r = _
    unfold Bridge.releaseStreamOwner
    split
    · cases w.fails && !w.applied <;> rfl
    · rfl
  | forgetFastOwnership conn' streamId =>
    show (s.forgetFastOwnership conn' streamId).sessionView conn r = _
    unfold Bridge.forgetFastOwnership
    split <;> rfl
  | queuePersist job =>
    show (s.queuePersist job w.fails).1.sessionView conn r = _
    cases w.fails <;> rfl
  | _ => rfl

end View

/-! ### The session's own writes -/

section Writes

variable {db db' : Db}
variable {p : PublisherRecord} {s : SessionDb} {ok : Bool}

theorem down_of_publisherWritten
    (h : PublisherWritten db p.id { p with active := false } db' true) :
    (HeldSession.publisher p).down db' := by
  obtain ⟨bytesIn, hbytes, hstream, hrows, hself⟩ := h.rowsOf_self
  rw [HeldSession.down, hself]
  refine ⟨?_, ?_, ?_, ?_⟩
  · exact fun hnil => hrows (map_eq_nil_iff.1 hnil)
  · intro q hq
    obtain ⟨q, -, rfl⟩ := mem_map.1 hq
    rfl
  · rw [Db.hasStream, h.rowWrite.toTables]
    exact hstream
  · exact isSome_iff_exists.2 ⟨bytesIn, hbytes⟩

theorem down_of_playerWritten {p : PlayerRecord}
    (h : PlayerWritten db p.id { p with active := false } db' true) :
    (HeldSession.player p).down db' := by
  obtain ⟨bytesOut, hbytes, hstream, hrows, hself⟩ := h.rowsOf_self
  rw [HeldSession.down, hself]
  refine ⟨?_, ?_, ?_, ?_⟩
  · exact fun hnil => hrows (map_eq_nil_iff.1 hnil)
  · intro q hq
    obtain ⟨q, -, rfl⟩ := mem_map.1 hq
    rfl
  · rw [Db.hasStream, h.rowWrite.toTables]
    exact hstream
  · exact isSome_iff_exists.2 ⟨bytesOut, hbytes⟩

theorem live_of_publisherWritten (h : PublisherWritten db p.id { p with active := true } db' true) :
    (HeldSession.publisher p).live db' = true := by
  obtain ⟨bytesIn, -, -, hrows, hself⟩ := h.rowsOf_self
  obtain ⟨q, hq⟩ := exists_mem_of_ne_nil _ hrows
  rw [HeldSession.live, hself, any_map]
  exact any_eq_true.2 ⟨q, hq, by simp [SessionDb.updatedPublisher]⟩

theorem live_of_playerWritten {p : PlayerRecord}
    (h : PlayerWritten db p.id { p with active := true } db' true) :
    (HeldSession.player p).live db' = true := by
  obtain ⟨bytesOut, -, -, hrows, hself⟩ := h.rowsOf_self
  obtain ⟨q, hq⟩ := exists_mem_of_ne_nil _ hrows
  rw [HeldSession.live, hself, any_map]
  exact any_eq_true.2 ⟨q, hq, by simp [Db.updatedPlayer]⟩

theorem not_live_of_down {x : HeldSession} (h : x.down db) : x.live db = false := by
  cases x with
  | publisher p => exact any_eq_false.2 fun q hq => by simp [h.2.1 q hq]
  | player p => exact any_eq_false.2 fun q hq => by simp [h.2.1 q hq]

/-- With nothing but the slot in the way, the restore is carried out if and only if the slot is
free. -/
theorem publisherUpdate_restore (hdown : (HeldSession.publisher p).down s.db) :
    (s.publisherUpdate p.id { p with active := true } ⟨false, false, false⟩).2 =
      !(HeldSession.publisher p).slotTaken s.db := by
  obtain ⟨hrows, hinactive, hstream, hbytes⟩ := hdown
  obtain ⟨bytesIn, hbytes⟩ := isSome_iff_exists.1 hbytes
  obtain ⟨q, hq⟩ := exists_mem_of_ne_nil _ hrows
  obtain ⟨hmem, hid⟩ := mem_filter.1 hq
  have hfound : (s.db.publishers.any fun q => q.id = p.id) = true :=
    any_eq_true.2 ⟨q, hmem, hid⟩
  have htransition : SessionDb.isTransition s.db p.id { p with active := true } false = true := by
    unfold SessionDb.isTransition
    split
    next q' hq' =>
      have hq' : lookup (·.id) s.db.publishers p.id = some q' := hq'
      have hkey : q'.id = p.id := key_of_lookup hq'
      rw [hinactive q' (mem_filter.2 ⟨mem_of_lookup hq', decide_eq_true hkey⟩)]
      rfl
    next => rfl
  unfold SessionDb.publisherUpdate
  simp only [hbytes, htransition, hfound, hstream, HeldSession.slotTaken]
  cases hother : SessionDb.otherActive s.db p.id p with
  | true =>
    have hother : SessionDb.otherActive s.db p.id { p with active := true } = true := hother
    simp [hother]
  | false =>
    have hother : SessionDb.otherActive s.db p.id { p with active := true } = false := hother
    simp [hother]

theorem playerUpdate_restore {p : PlayerRecord} (hdown : (HeldSession.player p).down s.db) :
    (s.playerUpdate p.id { p with active := true } false).2 =
      !(HeldSession.player p).slotTaken s.db := by
  obtain ⟨hrows, hinactive, hstream, hbytes⟩ := hdown
  obtain ⟨bytesOut, hbytes⟩ := isSome_iff_exists.1 hbytes
  obtain ⟨q, hq⟩ := exists_mem_of_ne_nil _ hrows
  obtain ⟨hmem, hid⟩ := mem_filter.1 hq
  have hfound : (s.db.players.any fun q => q.id = p.id) = true :=
    any_eq_true.2 ⟨q, hmem, hid⟩
  have hwas : s.db.activeViewer p.id = none := by
    unfold Db.activeViewer
    rw [map_eq_none_iff, filter_eq_none_iff]
    intro q' hq'
    have hkey : q'.id = p.id := key_of_lookup hq'
    rw [hinactive q' (mem_filter.2 ⟨mem_of_lookup hq', decide_eq_true hkey⟩)]
    exact Bool.false_ne_true
  have hdrop : (s.dropPlayerStats p.id).db = s.db := rfl
  have hslot : s.db.transitionSlot none { p with active := true } =
      s.db.playerCountTryIncr p.viewerId := by
    simp [Db.transitionSlot, Db.isPlayerTransition]
  unfold SessionDb.playerUpdate
  simp only [hbytes, hdrop, hwas, hslot, HeldSession.slotTaken]
  by_cases hempty : p.viewerId = ""
  · simp [hempty]
  · by_cases hfull : maxConnectionsPerPlayKey ≤ s.db.activePlayerCounts p.viewerId
    · simp [hempty, hfull, Db.playerCountTryIncr]
    · obtain ⟨taken, htake⟩ : ∃ taken, s.db.playerCountTryIncr p.viewerId = some taken :=
        ⟨_, if_neg hfull⟩
      have htables := (Db.playerCountTryIncr_eq_some.1 htake).2
      have hwrite : (taken.writePlayer p.id { p with active := true } bytesOut false).isSome =
          true := by
        rw [Db.writePlayer, if_neg]
        · rfl
        · rw [htables]
          simpa [hfound, Db.hasStream] using hstream
      obtain ⟨db', hdb'⟩ := isSome_iff_exists.1 hwrite
      simp [hempty, hfull, htake, hdb']

theorem PublisherAcquired.fresh {row : PublisherRecord} (h : PublisherAcquired db row db' true) :
    db.rowsOf (.publisher row.id) = ([], []) := by
  cases h with
  | acquired bytesIn hnew =>
    exact congrArg (·, []) (filter_eq_nil_iff.2 fun q hq hid => hnew q hq (of_decide_eq_true hid))

theorem PlayerInserted.fresh {row : PlayerRecord} (h : PlayerInserted db row db' true) :
    db.rowsOf (.player row.id) = ([], []) := by
  cases h with
  | inserted bytesOut hnew htables =>
    exact congrArg ([], ·) (filter_eq_nil_iff.2 fun q hq hid => hnew q hq (of_decide_eq_true hid))

theorem HeldSession.down.rowsOf {x : HeldSession} (h : x.down db) : db.rowsOf x.row ≠ ([], []) := by
  cases x with
  | publisher p => exact fun hnil => h.1 (congrArg Prod.fst hnil)
  | player p => exact fun hnil => h.1 (congrArg Prod.snd hnil)

end Writes

/-! ### The session before and after -/

section States

variable (conn : UInt64) (cs : ConnState) (x : HeldSession)
variable {I : Bridge → Prop} {s s' : Bridge} {α : Type} {db db' : Db} {a : Action}

/-- The connection's roles are as before and the session's row is active. -/
def SessionUp (s : Bridge) : Prop := s.conns.lookup conn = some cs ∧ x.live s.db = true

/-- The connection's roles are as before and the session's row was given up. -/
def SessionDown (s : Bridge) : Prop := s.conns.lookup conn = some cs ∧ x.down s.db

variable {conn cs x}

theorem live_congr (h : db'.rowsOf x.row = db.rowsOf x.row) : x.live db' = x.live db := by
  cases x with
  | publisher p =>
    have h : db'.rowsOf (.publisher p.id) = db.rowsOf (.publisher p.id) := h
    simp only [HeldSession.live, h]
  | player p =>
    have h : db'.rowsOf (.player p.id) = db.rowsOf (.player p.id) := h
    simp only [HeldSession.live, h]

theorem down_congr (h : db'.rowsOf x.row = db.rowsOf x.row) (htables : db'.toTables = db.toTables) :
    x.down db' ↔ x.down db := by
  cases x with
  | publisher p =>
    have h : db'.rowsOf (.publisher p.id) = db.rowsOf (.publisher p.id) := h
    simp only [HeldSession.down, h, Db.hasStream, htables]
  | player p =>
    have h : db'.rowsOf (.player p.id) = db.rowsOf (.player p.id) := h
    simp only [HeldSession.down, h, Db.hasStream, htables]

theorem SessionUp.of_view (h : SessionUp conn cs x s)
    (hview : s'.sessionView conn x.row = s.sessionView conn x.row) : SessionUp conn cs x s' := by
  simp only [Bridge.sessionView, Prod.mk.injEq] at hview
  exact ⟨hview.1.trans h.1, (live_congr hview.2.1).trans h.2⟩

theorem SessionDown.of_view (h : SessionDown conn cs x s)
    (hview : s'.sessionView conn x.row = s.sessionView conn x.row) : SessionDown conn cs x s' := by
  simp only [Bridge.sessionView, Prod.mk.injEq] at hview
  exact ⟨hview.1.trans h.1, (down_congr hview.2.1 hview.2.2).2 h.2⟩

theorem lasting_up : Lasting Action.exec (Action.foreignTo conn x.row) (SessionUp conn cs x) :=
  fun s a w ha h => h.of_view (sessionView_exec a w s ha)

theorem lasting_down : Lasting Action.exec (Action.foreignTo conn x.row) (SessionDown conn cs x) :=
  fun s a w ha h => h.of_view (sessionView_exec a w s ha)

theorem not_blocked_of_foreign {s : Bridge} (ha : a.foreignTo conn x.row) :
    ¬ x.RestoreBlocked s a := by
  rintro ⟨rfl, -⟩
  cases x <;> simp [HeldSession.restore, HeldSession.row, Action.foreignTo] at ha

variable (conn cs x)

/-- The request among the others: it comes to `Q`, or to `B` once a restore was blocked. -/
abbrev Switching {α : Type} (p : BridgeM α) (I : Bridge → Prop)
    (Q B : α → (Bridge → Prop) → Prop) : Prop :=
  Amid Action.exec (Action.foreignTo conn x.row) noWriteFails x.RestoreBlocked p I Q B

/-- If the request is refused, the session is held as before. -/
def StaysUp {α : Type} (refused : α → Prop) (result : α) (I : Bridge → Prop) : Prop :=
  ∀ s, I s → refused result → SessionUp conn cs x s

/-- If the request is refused, the connection is left with a session whose row is not active. -/
def Lost {α : Type} (refused : α → Prop) (result : α) (I : Bridge → Prop) : Prop :=
  ∀ s, I s → refused result → SessionDown conn cs x s

def Refused (result : Except AuthFailureKind Unit) : Prop := result.toBool = false

variable {conn cs x}

theorem switching_foreign {next : a.Answer → BridgeM α} {Q B : α → (Bridge → Prop) → Prop}
    (hlast : Lasting Action.exec (Action.foreignTo conn x.row) I)
    (ha : a.foreignTo conn x.row) (h : ∀ r, Switching conn x (next r) I Q B) :
    Switching conn x (.act a next) I Q B :=
  .neutral hlast (fun _ _ => not_blocked_of_foreign ha) (fun s w => hlast s a w ha) h

section Rows

variable {r : SessionRow} {active : Bool} {write : Outcome → Bridge → SessionDb × Bool}
  {answer : Bool → a.Answer} {next : a.Answer → BridgeM α} {Q B : α → (Bridge → Prop) → Prop}

theorem switching_giveUp (ha : a.WritesRow x.row active write answer)
    (hdown : ∀ w s, (write w s).2 → x.down (write w s).1.db) (hfree : ∀ s, ¬ x.RestoreBlocked s a)
    (hdone : Switching conn x (next (answer true)) (SessionDown conn cs x) Q B)
    (hfailed : Switching conn x (next (answer false)) (SessionUp conn cs x) Q B) :
    Switching conn x (.act a next) (SessionUp conn cs x) Q B := by
  refine .unmarked (fun s _ => hfree s) fun s w hup _ => ?_
  have hw := ha.row w s
  rw [ha.exec]
  cases hok : (write w s).2 with
  | true => exact ⟨_, lasting_down, ⟨hup.1, hdown w s hok⟩, hdone⟩
  | false =>
    exact ⟨_, lasting_up, hup.of_view (sessionView_write (hw.unchanged hok) hw.toTables), hfailed⟩

theorem switching_restore (ha : a.WritesRow x.row active write answer) (hx : a = x.restore)
    (hlive : ∀ w s, (write w s).2 → x.live (write w s).1.db)
    (hrestore : ∀ w s, noWriteFails a w → x.down s.db → (write w s).2 = !x.slotTaken s.db)
    (hback : Switching conn x (next (answer true)) (SessionUp conn cs x) Q B)
    (hlost : Switching conn x (next (answer false)) (SessionDown conn cs x) B B) :
    Switching conn x (.act a next) (SessionDown conn cs x) Q B := by
  intro s w hdown hfine
  have hw := ha.row w s
  have hok := hrestore w s hfine hdown.2
  rw [ha.exec]
  cases htaken : x.slotTaken s.db with
  | true =>
    rw [htaken] at hok
    rw [hok]
    exact ⟨_, lasting_down, hdown.of_view (sessionView_write (hw.unchanged hok) hw.toTables),
      fun _ => hlost, fun hfree => absurd ⟨hx, htaken⟩ hfree⟩
  | false =>
    rw [htaken] at hok
    rw [hok]
    refine ⟨_, lasting_up, ⟨hdown.1, hlive w s hok⟩, ?_, fun _ => hback⟩
    exact fun hblocked => absurd (htaken.symm.trans hblocked.2) Bool.false_ne_true

/-- A row that is new is not the session's. -/
theorem switching_insert (ha : a.WritesRow r active write answer)
    (hfresh : ∀ w s, (write w s).2 → s.db.rowsOf r = ([], [])) (hfree : ∀ s, ¬ x.RestoreBlocked s a)
    (hdone : r ≠ x.row → Switching conn x (next (answer true)) (SessionDown conn cs x) Q B)
    (hfailed : Switching conn x (next (answer false)) (SessionDown conn cs x) Q B) :
    Switching conn x (.act a next) (SessionDown conn cs x) Q B := by
  refine .unmarked (fun s _ => hfree s) fun s w hdown _ => ?_
  have hw := ha.row w s
  rw [ha.exec]
  cases hok : (write w s).2 with
  | true =>
    have hne : r ≠ x.row := fun heq => hdown.2.rowsOf (heq ▸ hfresh w s hok)
    exact ⟨_, lasting_down, hdown.of_view (sessionView_write (hw.others _ hne.symm) hw.toTables),
      hdone hne⟩
  | false =>
    refine ⟨_, lasting_down, hdown.of_view (sessionView_write ?_ hw.toTables), hfailed⟩
    by_cases heq : x.row = r
    · rw [heq]
      exact hw.unchanged hok
    · exact hw.others _ heq

end Rows

theorem switching_releasePrior {prior : Option (String × UInt64)} {streamId : String}
    {f : Bool → BridgeM α} {Q B : α → (Bridge → Prop) → Prop}
    (hlast : Lasting Action.exec (Action.foreignTo conn x.row) I)
    (h : ∀ released, Switching conn x (f released) I Q B) :
    Switching conn x (Bridge.releasePrior prior streamId >>= f) I Q B := by
  unfold Bridge.releasePrior
  split
  · exact h true
  · exact switching_foreign hlast rfl h

theorem switching_clusterFull {viewerId : String} {f : Bool → BridgeM α}
    {Q B : α → (Bridge → Prop) → Prop} (hlast : Lasting Action.exec (Action.foreignTo conn x.row) I)
    (h : ∀ full, Switching conn x (f full) I Q B) :
    Switching conn x (Bridge.clusterFull viewerId >>= f) I Q B := by
  refine switching_foreign hlast rfl fun coordinator => ?_
  simp only [Prog.bind]
  split
  · exact switching_foreign hlast rfl fun _ => switching_foreign hlast rfl fun _ => h _
  · exact h _

end States

/-! ### Publishers -/

section Publisher

open Bridge

variable {α : Type} {conn : UInt64} {cs : ConnState} {p : PublisherRecord}
variable {Q B : α → (Bridge → Prop) → Prop}
variable {row : PublisherRecord} {next : Bool → BridgeM α} {I : Bridge → Prop}

theorem switching_lookPublisher (hp : cs.publisher = some p)
    {next : Option PublisherRecord → BridgeM α}
    (h : Switching conn (.publisher p) (next (some p)) (SessionUp conn cs (.publisher p)) Q B) :
    Switching conn (.publisher p) (.act (.look (.publisher conn)) next)
      (SessionUp conn cs (.publisher p)) Q B := by
  refine .unmarked (fun s _ hblocked => by cases hblocked.1) fun s w hup _ =>
    ⟨_, lasting_up, hup, ?_⟩
  have hanswer : s.publisherOf conn = some p := by
    rw [Bridge.publisherOf, Bridge.connState, hup.1]
    exact hp
  show Amid _ _ _ _ (next (s.publisherOf conn)) _ _ _
  rw [hanswer]
  exact h

theorem switching_installPublisher {next : Unit → BridgeM α}
    (h : Switching conn (.publisher p) (next ()) (fun _ => True) Q B) :
    Switching conn (.publisher p) (.act (.installPublisher conn row) next) I Q B :=
  .unmarked (fun s _ hblocked => by cases hblocked.1) fun s w _ _ =>
    ⟨_, fun _ _ _ _ _ => trivial, trivial, h⟩

theorem switching_refusePublish (kind : AuthFailureKind) :
    Switching conn (.publisher p) (refusePublish (some p) kind) (SessionDown conn cs (.publisher p))
      (StaysUp conn cs (.publisher p) Refused) (Lost conn cs (.publisher p) Refused) := by
  refine switching_restore (writesRow_publisherUpdate .restore rfl) rfl (fun w s hok => ?_)
    (fun w s hfine hdown => ?_) ?_ ?_
  · exact live_of_publisherWritten (hok ▸ publisherUpdate_written _ _ _ _)
  · rw [of_decide_eq_true hfine]
    exact publisherUpdate_restore hdown
  · exact fun s hup _ => hup
  · exact switching_insert (writesRow_publisherTryAcquire .restore _)
      (fun w s hok => (hok ▸ publisherTryAcquire_acquired _ _ _ : PublisherAcquired _ _ _ true).fresh)
      (fun s hblocked => by cases hblocked.1) (fun _ s hdown _ => hdown) fun s hdown _ => hdown

theorem switching_undoPublish (hrow : row.id ≠ p.id) (kind : AuthFailureKind) :
    Switching conn (.publisher p) (undoPublish row (some p) kind)
      (SessionDown conn cs (.publisher p)) (StaysUp conn cs (.publisher p) Refused)
      (Lost conn cs (.publisher p) Refused) := by
  refine switching_foreign lasting_down ?_ fun _ => switching_refusePublish kind
  exact decide_eq_true fun heq => hrow (SessionRow.publisher.inj heq).symm

theorem switching_install :
    Switching conn (.publisher p) (do
        perform (.installPublisher conn row)
        pure (Except.ok () : Except AuthFailureKind Unit)) I
      (StaysUp conn cs (.publisher p) Refused) (Lost conn cs (.publisher p) Refused) :=
  switching_installPublisher fun _ _ hrefused => by cases hrefused

theorem switching_claimStream (hrow : row.id ≠ p.id) (prior : Option (String × UInt64)) :
    Switching conn (.publisher p) (claimStream conn row (some p) prior)
      (SessionDown conn cs (.publisher p)) (StaysUp conn cs (.publisher p) Refused)
      (Lost conn cs (.publisher p) Refused) := by
  refine switching_foreign lasting_down rfl fun coordinator => ?_
  simp only [Prog.bind]
  split
  · exact switching_install
  · refine switching_foreign lasting_down rfl fun granted => ?_
    cases granted with
    | none => exact switching_undoPublish hrow _
    | some epoch =>
      refine switching_releasePrior lasting_down fun released => ?_
      cases released with
      | true => exact switching_foreign lasting_down rfl fun _ => switching_install
      | false => exact switching_foreign lasting_down rfl fun _ => switching_undoPublish hrow _

theorem switching_switchPublisher (hp : cs.publisher = some p) (row : PublisherRecord) :
    Switching conn (.publisher p) (switchPublisher conn row) (SessionUp conn cs (.publisher p))
      (StaysUp conn cs (.publisher p) Refused) (Lost conn cs (.publisher p) Refused) := by
  refine switching_lookPublisher hp (switching_foreign lasting_up rfl fun prior => ?_)
  refine switching_giveUp (writesRow_publisherUpdate .authorize rfl) (fun w s hok => ?_)
    (fun s hblocked => by cases hblocked.1) ?_ ?_
  · exact down_of_publisherWritten (hok ▸ publisherUpdate_written _ _ _ _)
  · refine switching_insert (writesRow_publisherTryAcquire .authorize row)
      (fun w s hok => (hok ▸ publisherTryAcquire_acquired _ _ _ : PublisherAcquired _ _ _ true).fresh)
      (fun s hblocked => by cases hblocked.1) (fun hrow => ?_) (switching_refusePublish _)
    exact switching_claimStream (fun heq => hrow (congrArg _ heq)) prior
  · exact fun s hup _ => hup

end Publisher

/-! ### Players -/

section Player

open Bridge

variable {α : Type} {conn : UInt64} {cs : ConnState} {p : PlayerRecord}
variable {Q B : α → (Bridge → Prop) → Prop}
variable {next : Bool → BridgeM α}

theorem switching_lookPlayer (hp : cs.player = some p) {next : Option PlayerRecord → BridgeM α}
    (h : Switching conn (.player p) (next (some p)) (SessionUp conn cs (.player p)) Q B) :
    Switching conn (.player p) (.act (.look (.player conn)) next)
      (SessionUp conn cs (.player p)) Q B := by
  refine .unmarked (fun s _ hblocked => by cases hblocked.1) fun s w hup _ =>
    ⟨_, lasting_up, hup, ?_⟩
  have hanswer : s.playerOf conn = some p := by
    rw [Bridge.playerOf, Bridge.connState, hup.1]
    exact hp
  show Amid _ _ _ _ (next (s.playerOf conn)) _ _ _
  rw [hanswer]
  exact h

theorem switching_refusePlay (kind : AuthFailureKind) :
    Switching conn (.player p) (refusePlay (some p) kind) (SessionDown conn cs (.player p))
      (StaysUp conn cs (.player p) Refused) (Lost conn cs (.player p) Refused) := by
  refine switching_restore (writesRow_playerUpdate .restore rfl) rfl (fun w s hok => ?_)
    (fun w s hfine hdown => ?_) ?_ ?_
  · exact live_of_playerWritten (hok ▸ playerUpdate_written _ _ _ _)
  · rw [of_decide_eq_true hfine]
    exact playerUpdate_restore hdown
  · exact fun s hup _ => hup
  · exact switching_insert (writesRow_playerTryAcquire .restore _)
      (fun w s hok => (hok ▸ playerTryAcquire_inserted _ _ _ : PlayerInserted _ _ _ true).fresh)
      (fun s hblocked => by cases hblocked.1) (fun _ s hdown _ => hdown) fun s hdown _ => hdown

theorem switching_switchPlayer (hp : cs.player = some p) (row : PlayerRecord) :
    Switching conn (.player p) (switchPlayer conn row) (SessionUp conn cs (.player p))
      (StaysUp conn cs (.player p) Refused) (Lost conn cs (.player p) Refused) := by
  refine switching_lookPlayer hp (switching_giveUp (writesRow_playerUpdate .authorize rfl)
    (fun w s hok => ?_) (fun s hblocked => by cases hblocked.1) ?_ ?_)
  · exact down_of_playerWritten (hok ▸ playerUpdate_written _ _ _ _)
  · refine switching_clusterFull lasting_down fun full => ?_
    cases full with
    | true => exact switching_refusePlay _
    | false =>
      refine switching_insert (writesRow_playerTryAcquire .authorize row)
        (fun w s hok => (hok ▸ playerTryAcquire_inserted _ _ _ : PlayerInserted _ _ _ true).fresh)
        (fun s hblocked => by cases hblocked.1) (fun _ => ?_) (switching_refusePlay _)
      refine .unmarked (fun s _ hblocked => by cases hblocked.1) fun s w _ _ =>
        ⟨fun _ => True, fun _ _ _ _ _ => trivial, trivial, fun _ _ hrefused => by cases hrefused⟩
  · exact fun s hup _ => hup

end Player

/-! ### The request -/

theorem looks_foreign {a : Action} (ha : Bridge.Looks a) (conn : UInt64) (r : SessionRow) :
    a.foreignTo conn r = true := by
  cases a with
  | look q => rfl
  | _ => cases ha

theorem switching_leads {p : BridgeM Bool} {T : BridgeM Bool → Prop} (h : p.Leads Bridge.Looks T)
    (hT : ∀ q, T q → Switching conn x q (SessionUp conn cs x) (StaysUp conn cs x (· = false))
      (Lost conn cs x (· = false))) :
    Switching conn x p (SessionUp conn cs x) (StaysUp conn cs x (· = false))
      (Lost conn cs x (· = false)) := by
  refine Amid.leads lasting_up (fun a ha => ?_) hT h
  have hforeign := looks_foreign ha conn x.row
  exact ⟨fun _ => not_blocked_of_foreign hforeign, fun s w hup => lasting_up s a w hforeign hup⟩

theorem switching_switch (hx : x.heldBy cs) (app streamKey : String) :
    Switching conn x (x.switch conn app streamKey) (SessionUp conn cs x)
      (StaysUp conn cs x (· = false)) (Lost conn cs x (· = false)) := by
  cases x with
  | publisher p =>
    refine switching_leads (Bridge.authorizePublish_leads app streamKey) ?_
    rintro _ (rfl | ⟨row, rfl⟩)
    · exact fun s hup _ => hup
    · exact Amid.bind (switching_switchPublisher hx row)
  | player p =>
    refine switching_leads (Bridge.authorizePlay_leads app streamKey) ?_
    rintro _ (rfl | ⟨row, rfl⟩)
    · exact fun s hup _ => hup
    · exact Amid.bind (switching_switchPlayer hx row)

/-- A request that is refused leaves the session as it was if and only if its slot is not taken at
the moment the session is brought back. -/
theorem refused_switch_keeps_session {s t : Bridge} {conn : UInt64} {cs : ConnState}
    {x : HeldSession} {app streamKey : String} {es : List (AmidEvent Action Outcome)}
    (hcs : s.conns.lookup conn = some cs) (hx : x.heldBy cs) (hlive : x.live s.db = true)
    (hok : along (amidStep Action.exec) (amidOk (Action.foreignTo conn x.row) noWriteFails) es
      (x.switch conn app streamKey, s) = true)
    (hrun : replay (amidStep Action.exec) (x.switch conn app streamKey, s) es =
      some (.ret false, t)) :
    (t.conns.lookup conn = some cs ∧ x.live t.db = true) ↔
      ¬ Occurs (amidStep Action.exec) (marked x.RestoreBlocked) (x.switch conn app streamKey, s)
        es := by
  obtain ⟨hkept, hlost⟩ := Amid.sound (q := fun r s => r = false → SessionUp conn cs x s)
    (b := fun r s => r = false → SessionDown conn cs x s) lasting_up ⟨hcs, hlive⟩
    (switching_switch hx app streamKey) hok hrun
  refine ⟨fun hup hblocked => ?_, fun hfree => hkept hfree rfl⟩
  exact Bool.false_ne_true ((not_live_of_down (hlost hblocked rfl).2).symm.trans hup.2)

/-! ### A session that is lost -/

def crowdedViewer : StreamViewer := ⟨"v", "a", "viewer", "play_v_0000000000000000000000000", true, 0⟩

def crowdedPlayer (id : String) : PlayerRecord := ⟨id, "a", "v", "live", "first", 0, {}, 0, true⟩

/-- The viewer has all the sessions it may have, and connection 7 holds the first of them. -/
def crowded : Bridge :=
  let db : Db :=
    { ownedStreams with
      viewers := [crowdedViewer]
      players := ["p1", "p2", "p3", "p4", "p5"].map fun id => ⟨id, "a", "v", "live", "first", 0, {}, 0, true⟩
      activePlayerCounts := fun v => if v = "v" then 5 else 0 }
  (Bridge.start db .absent).installPlayer 7 (crowdedPlayer "p1")

def ownSteps (n : Nat) : List (AmidEvent Action Outcome) :=
  List.replicate n (.own { sessionId := some "p6" })

def fastAdmission : List (AmidEvent Action Outcome) :=
  [.other (.look .coordinator) {}, .other (.look (.cachedPlayKey crowdedViewer.playKey)) {},
    .other (.look (.rateLimited 8)) {}, .other (.look .sessionId) { sessionId := some "p8" },
    .other (.look .now) {}, .other (.admitPlayer 8 (crowdedPlayer "p8")) {}]

/-- Connection 7 asks for its own play key again and connection 8 takes the slot it has given up,
and may leave before the session of connection 7 is brought back. -/
def crowdedSwitch (leaves : Bool) : List (AmidEvent Action Outcome) :=
  ownSteps 8 ++ fastAdmission ++ ownSteps 2 ++
    (if leaves then
        [AmidEvent.other (Action.clearPlayer 8 "p8") ({} : Outcome),
          .other (.playerCancelReservation "v") {}]
      else []) ++
    ownSteps (if leaves then 1 else 2)

def crowdedRequest : BridgeM Bool :=
  (HeldSession.player (crowdedPlayer "p1")).switch 7 "live" crowdedViewer.playKey

theorem crowdedSwitch_ok (leaves : Bool) :
    along (amidStep Action.exec)
      (amidOk (Action.foreignTo 7 (HeldSession.player (crowdedPlayer "p1")).row) noWriteFails)
      (crowdedSwitch leaves) (crowdedRequest, crowded) = true := by
  cases leaves <;> decide +kernel

theorem refused_switch_loses_session :
    along (amidStep Action.exec)
        (amidOk (Action.foreignTo 7 (HeldSession.player (crowdedPlayer "p1")).row) noWriteFails)
        (crowdedSwitch false) (crowdedRequest, crowded) = true ∧
    ∃ t, replay (amidStep Action.exec) (crowdedRequest, crowded) (crowdedSwitch false) =
        some (.ret false, t) ∧
      t.playerOf 7 = some (crowdedPlayer "p1") ∧
      (HeldSession.player (crowdedPlayer "p1")).live crowded.db = true ∧
      (HeldSession.player (crowdedPlayer "p1")).live t.db = false := by
  have hrun : (replay (amidStep Action.exec) (crowdedRequest, crowded) (crowdedSwitch false)).map
      (fun p => (p.1.result?, p.2.playerOf 7,
        (HeldSession.player (crowdedPlayer "p1")).live p.2.db)) =
      some (some false, some (crowdedPlayer "p1"), false) := by
    decide +kernel
  obtain ⟨⟨p, t⟩, hp, heq⟩ := map_eq_some_iff.1 hrun
  simp only [Prod.mk.injEq] at heq
  obtain rfl := Prog.eq_ret_of_result? heq.1
  exact ⟨crowdedSwitch_ok false, t, hp, heq.2.1, by decide, heq.2.2⟩

theorem refused_switch_keeps_session_slot :
    ∃ t, replay (amidStep Action.exec) (crowdedRequest, crowded) (crowdedSwitch true) =
        some (.ret false, t) ∧
      t.conns.lookup 7 = crowded.conns.lookup 7 ∧
      (HeldSession.player (crowdedPlayer "p1")).live t.db = true ∧
      ¬ Occurs (amidStep Action.exec) (marked (HeldSession.player (crowdedPlayer "p1")).RestoreBlocked)
        (crowdedRequest, crowded) (crowdedSwitch true) := by
  have hrun : (replay (amidStep Action.exec) (crowdedRequest, crowded) (crowdedSwitch true)).map
      (fun p => (p.1.result?, p.2.conns.lookup 7,
        (HeldSession.player (crowdedPlayer "p1")).live p.2.db)) =
      some (some false, crowded.conns.lookup 7, true) := by
    decide +kernel
  obtain ⟨⟨p, t⟩, hp, heq⟩ := map_eq_some_iff.1 hrun
  simp only [Prod.mk.injEq] at heq
  obtain rfl := Prog.eq_ret_of_result? heq.1
  have hcs : crowded.conns.lookup 7 = some ⟨none, some (crowdedPlayer "p1"), "v", "a"⟩ := by
    decide
  have hkept := refused_switch_keeps_session (x := .player (crowdedPlayer "p1")) hcs rfl (by decide)
    (crowdedSwitch_ok true) hp
  exact ⟨t, hp, heq.2.1, heq.2.2, hkept.1 ⟨heq.2.1.trans hcs, heq.2.2⟩⟩

end RtmpServer
