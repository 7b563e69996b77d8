import RtmpServer.Db.SessionRows
import RtmpServer.Lib.Replay

/-!
# Viewer sessions and their counts

The operations of `db.rs` on `players` and on the two maps in memory: `active_player_counts`, which
holds a play key to `MAX_CONNECTIONS_PER_PLAY_KEY` sessions, and `unpersisted_player_counts`, the
sessions among them whose row is still to be written. The operations that write rows hold the
connection, but `player_reserve` and `player_cancel_reservation` do not, so they run between the
steps of the others (`PlayerCounts.step`).
-/

namespace RtmpServer

open Option Lib.Table Lib.Replay Function

def maxConnectionsPerPlayKey : Nat := 5

namespace Db

/-! ### The counts -/

/-- `player_count_try_incr`; an entry that is absent reads as 0. -/
def playerCountTryIncr (db : Db) (viewerId : String) : Option Db :=
  if maxConnectionsPerPlayKey ≤ db.activePlayerCounts viewerId then none
  else
    some { db with
      activePlayerCounts :=
        update db.activePlayerCounts viewerId (db.activePlayerCounts viewerId + 1) }

def playerCountDecr (db : Db) (viewerId : String) : Db :=
  { db with
    activePlayerCounts :=
      update db.activePlayerCounts viewerId (db.activePlayerCounts viewerId - 1) }

def playerUnreserve (db : Db) (viewerId : String) : Db :=
  { db with
    unpersistedPlayerCounts :=
      update db.unpersistedPlayerCounts viewerId (db.unpersistedPlayerCounts viewerId - 1) }

/-- `player_reserve`; both maps change under one lock. -/
def playerReserve (db : Db) (viewerId : String) : Option Db :=
  if viewerId = "" then none
  else
    (db.playerCountTryIncr viewerId).map fun db =>
      { db with
        unpersistedPlayerCounts := update db.unpersistedPlayerCounts viewerId
          (db.unpersistedPlayerCounts viewerId + 1) }

def playerCancelReservation (db : Db) (viewerId : String) : Db :=
  (db.playerUnreserve viewerId).playerCountDecr viewerId

/-- The end of `player_insert_reserved`, also under one lock. -/
def playerSettle (db : Db) (viewerId : String) (inserted : Bool) : Db :=
  if inserted then db.playerUnreserve viewerId else db.playerCancelReservation viewerId

/-- The end of `players_deactivate_for_viewer`: only reservations stay counted. -/
def playerCountForget (db : Db) (viewerId : String) : Db :=
  { db with
    activePlayerCounts :=
      update db.activePlayerCounts viewerId (db.unpersistedPlayerCounts viewerId) }

/-! ### The rows -/

/-- `insert_active_player`: the id is new and the stream exists. -/
def insertActivePlayer (db : Db) (p : PlayerRecord) (bytesOut : Int64) (fault : Bool) : Option Db :=
  if fault || db.players.any (fun q => q.id = p.id) || !db.hasStream p.streamId then none
  else
    some { db with
      players := db.players ++ [⟨p.id, p.streamId, p.viewerId, p.app, p.streamName, bytesOut,
        p.stats, p.connectedAt, true⟩] }

def updatedPlayer (p : PlayerRecord) (bytesOut : Int64) (q : Player) : Player :=
  { q with
    streamId := p.streamId
    viewerId := p.viewerId
    app := p.app
    streamName := p.streamName
    bytesOut := bytesOut
    stats := p.stats
    active := p.active }

/-- The `UPDATE` of `player_update`; nothing when no row was updated. -/
def writePlayer (db : Db) (id : String) (p : PlayerRecord) (bytesOut : Int64) (fault : Bool) :
    Option Db :=
  if fault || !db.players.any (fun q => q.id = id) || !db.hasStream p.streamId then none
  else
    some { db with players := updateWhere (fun q => q.id = id) (updatedPlayer p bytesOut) db.players }

/-- `was_active_viewer`: whose session the row is, if it is active. -/
def activeViewer (db : Db) (id : String) : Option String :=
  ((lookup (·.id) db.players id).filter (·.active)).map (·.viewerId)

/-- `UPDATE players SET active=0 WHERE viewer_id=? AND active=1`. -/
def deactivateViewerRows (db : Db) (viewerId : String) : Db :=
  { db with
    players := updateWhere (fun q => q.viewerId = viewerId ∧ q.active = true)
      (fun q => { q with active := false }) db.players }

/-! ### The operations -/

def playerTryAcquire (db : Db) (p : PlayerRecord) (fault : Bool) : Db × Bool :=
  if p.viewerId = "" then (db, false)
  else
    match tryI64 p.bytesOut with
    | none => (db, false)
    | some bytesOut =>
      match db.playerCountTryIncr p.viewerId with
      | none => (db, false)
      | some taken =>
        match taken.insertActivePlayer p bytesOut fault with
        | some db' => (db', true)
        | none => (taken.playerCountDecr p.viewerId, false)

def insertReserved (db : Db) (p : PlayerRecord) (fault : Bool) : Option Db :=
  (tryI64 p.bytesOut).bind fun bytesOut => db.insertActivePlayer p bytesOut fault

def playerInsertReserved (db : Db) (p : PlayerRecord) (fault : Bool) : Db × Bool :=
  match db.insertReserved p fault with
  | some db' => (db'.playerSettle p.viewerId true, true)
  | none => (db.playerSettle p.viewerId false, false)

/-- `is_transition`: the row becomes active, and was not already so for the viewer. -/
def isPlayerTransition (was : Option String) (p : PlayerRecord) : Bool :=
  p.active && was != some p.viewerId

/-- The slot `player_update` takes for a transition. -/
def transitionSlot (db : Db) (was : Option String) (p : PlayerRecord) : Option Db :=
  if isPlayerTransition was p then db.playerCountTryIncr p.viewerId else some db

/-- The viewer whose count goes down once the row was written. -/
def leftViewer (was : Option String) (p : PlayerRecord) : Option String :=
  was.filter fun old => !p.active || old != p.viewerId

end Db

namespace SessionDb

def dropPlayerStats (s : SessionDb) (id : String) : SessionDb :=
  { s with pending := { s.pending with players := s.pending.players.erase id } }

def playerUpdate (s : SessionDb) (id : String) (p : PlayerRecord) (fault : Bool) :
    SessionDb × Bool :=
  match tryI64 p.bytesOut with
  | none => (s, false)
  | some bytesOut =>
    let s := s.dropPlayerStats id
    let was := s.db.activeViewer id
    if p.active && p.viewerId = "" then (s, false)
    else
      match s.db.transitionSlot was p with
      | none => (s, false)
      | some db =>
        match db.writePlayer id p bytesOut fault with
        | some db' => ({ s with db := (Db.leftViewer was p).elim db' db'.playerCountDecr }, true)
        | none =>
          ({ s with
            db := if Db.isPlayerTransition was p then db.playerCountDecr p.viewerId else db }, false)

end SessionDb

/-! ### The steps of the operations -/

/-- What the thread that holds the connection does next. -/
inductive CountStep where
  /-- `player_try_acquire` has its slot and inserts the row. -/
  | insertAcquired (p : PlayerRecord) (bytesOut : Int64)
  /-- A slot is handed back. -/
  | decr (viewerId : String)
  /-- `player_insert_reserved` settles the reservation. -/
  | settle (viewerId : String) (inserted : Bool)
  /-- `player_update` writes the row. -/
  | write (id : String) (p : PlayerRecord) (bytesOut : Int64) (was : Option String)
  /-- `players_deactivate_for_viewer` drops the count. -/
  | forget (viewerId : String)
  /-- `batch` rebuilds the counts after a rollback. -/
  | resync

def CountStep.run (db : Db) (fault : Bool) : CountStep → Db × Option CountStep
  | .insertAcquired p bytesOut =>
    match db.insertActivePlayer p bytesOut fault with
    | some db' => (db', none)
    | none => (db, some (.decr p.viewerId))
  | .decr viewerId => (db.playerCountDecr viewerId, none)
  | .settle viewerId inserted => (db.playerSettle viewerId inserted, none)
  | .write id p bytesOut was =>
    match db.writePlayer id p bytesOut fault with
    | some db' => (db', (Db.leftViewer was p).map .decr)
    | none => (db, if Db.isPlayerTransition was p then some (.decr p.viewerId) else none)
  | .forget viewerId => (db.playerCountForget viewerId, none)
  | .resync => (db.resyncActivePlayerCounts, none)

/-- The database with the thread that holds its connection and the callers' reservations. -/
structure PlayerCounts where
  sessions : SessionDb
  next : Option CountStep
  /-- The tables to which an open batch would be rolled back. -/
  batch : Option Db
  /-- Reservations that were not settled yet. -/
  reserved : String → Nat

namespace PlayerCounts

def db (s : PlayerCounts) : Db := s.sessions.db

def setDb (s : PlayerCounts) (db : Db) : PlayerCounts :=
  { s with sessions := { s.sessions with db := db } }

/-- `Db::open`: no session survives a restart. -/
def start (database : Database) : PlayerCounts where
  sessions :=
    { db := { database.db with
        players := updateWhere (fun q => q.active = true) (fun q => { q with active := false })
          database.db.players
        activePlayerCounts := fun _ => 0
        unpersistedPlayerCounts := fun _ => 0 }
      pending := ⟨∅, ∅⟩ }
  next := none
  batch := none
  reserved := fun _ => 0

end PlayerCounts

inductive CountsOp where
  | playerTryAcquire (p : PlayerRecord)
  | playerReserve (viewerId : String)
  | playerInsertReserved (p : PlayerRecord) (fault : Bool)
  | playerCancelReservation (viewerId : String)
  | playerUpdate (id : String) (p : PlayerRecord)
  | playersDeactivateForViewer (viewerId : String) (fault : Bool)
  | beginBatch
  | endBatch (committed : Bool)
  /-- The thread that holds the connection goes on. -/
  | advance (fault : Bool)

namespace PlayerCounts

/-- An operation takes the connection: it does its first step and has `next` left. -/
def enter (s : PlayerCounts) (sessions : SessionDb) (next : Option CountStep) : Option PlayerCounts :=
  if s.next.isSome then none else some { s with sessions := sessions, next := next }

def useReservation (s : PlayerCounts) (viewerId : String) : Option PlayerCounts :=
  if s.reserved viewerId = 0 then none
  else
    some { s with reserved := update s.reserved viewerId (s.reserved viewerId - 1) }

/-- One step of some thread. A batch that cannot be begun runs its operations one by one. -/
def step (s : PlayerCounts) : CountsOp → Option PlayerCounts
  | .playerTryAcquire p =>
    match if p.viewerId = "" then none else tryI64 p.bytesOut with
    | none => some s
    | some bytesOut =>
      match s.db.playerCountTryIncr p.viewerId with
      | none => s.enter s.sessions none
      | some db => s.enter { s.sessions with db := db } (some (.insertAcquired p bytesOut))
  | .playerReserve viewerId =>
    match s.db.playerReserve viewerId with
    | none => some s
    | some db =>
      some { s.setDb db with
        reserved := update s.reserved viewerId (s.reserved viewerId + 1) }
  | .playerInsertReserved p fault =>
    (s.useReservation p.viewerId).bind fun s =>
      match s.db.insertReserved p fault with
      | some db => s.enter { s.sessions with db := db } (some (.settle p.viewerId true))
      | none => s.enter s.sessions (some (.settle p.viewerId false))
  | .playerCancelReservation viewerId =>
    (s.useReservation viewerId).map fun s => s.setDb (s.db.playerCancelReservation viewerId)
  | .playerUpdate id p =>
    match tryI64 p.bytesOut with
    | none => some s
    | some bytesOut =>
      let sessions := s.sessions.dropPlayerStats id
      let was := s.db.activeViewer id
      if p.active && p.viewerId = "" then s.enter sessions none
      else
        match s.db.transitionSlot was p with
        | none => s.enter sessions none
        | some db => s.enter { sessions with db := db } (some (.write id p bytesOut was))
  | .playersDeactivateForViewer viewerId fault =>
    if fault then s.enter s.sessions none
    else
      s.enter { s.sessions with db := s.db.deactivateViewerRows viewerId } (some (.forget viewerId))
  | .beginBatch =>
    if s.next.isSome || s.batch.isSome then none else some { s with batch := some s.db }
  | .endBatch committed =>
    if s.next.isSome then none
    else
      s.batch.map fun saved =>
        if committed then { s with batch := none }
        else
          { s.setDb { saved with
              activePlayerCounts := s.db.activePlayerCounts
              unpersistedPlayerCounts := s.db.unpersistedPlayerCounts } with
            batch := none, next := some .resync }
  | .advance fault =>
    s.next.map fun next =>
      let r := next.run s.db fault
      { s.setDb r.1 with next := r.2 }

end PlayerCounts

/-! ### Slots, rows and reservations -/

attribute [local grind =] update_apply

def Db.activePlayers (db : Db) (viewerId : String) : Nat :=
  db.players.countP fun p => p.viewerId = viewerId ∧ p.active = true

/-- Every slot belongs to a row or a reservation, but for one that `slot` has just taken. -/
def Db.Counted (db : Db) (slot : Option String) : Prop :=
  ∀ v, db.activePlayerCounts v =
    db.activePlayers v + db.unpersistedPlayerCounts v + if slot = some v then 1 else 0

namespace Db

variable {db db' : Db} {slot : Option String} {w : String}
variable {p : PlayerRecord} {bytesOut : Int64} {fault : Bool} {id : String}

theorem playerCountTryIncr_eq_some :
    db.playerCountTryIncr w = some db' ↔ db.activePlayerCounts w < maxConnectionsPerPlayKey ∧
      db' = { db with activePlayerCounts :=
        Function.update db.activePlayerCounts w (db.activePlayerCounts w + 1) } := by
  grind [playerCountTryIncr]

theorem Counted.take (h : db.Counted none) (ht : db.playerCountTryIncr w = some db') :
    db'.Counted (some w) := by
  obtain ⟨-, rfl⟩ := playerCountTryIncr_eq_some.1 ht
  intro v
  have hv := h v
  grind [activePlayers]

theorem Counted.giveBack (h : db.Counted (some w)) : (db.playerCountDecr w).Counted none := by
  intro v
  have hv := h v
  show update db.activePlayerCounts w _ v = db.activePlayers v + _ + _
  grind [playerCountDecr]

theorem insertActivePlayer_eq_some :
    db.insertActivePlayer p bytesOut fault = some db' ↔
      fault = false ∧ (∀ q ∈ db.players, q.id ≠ p.id) ∧ db.hasStream p.streamId ∧
      db' = { db with players := db.players ++ [⟨p.id, p.streamId, p.viewerId, p.app, p.streamName,
        bytesOut, p.stats, p.connectedAt, true⟩] } := by
  grind [insertActivePlayer]

theorem activePlayers_insert (hi : db.insertActivePlayer p bytesOut fault = some db') (v : String) :
    db'.activePlayers v = db.activePlayers v + if p.viewerId = v then 1 else 0 := by
  obtain ⟨-, -, -, rfl⟩ := insertActivePlayer_eq_some.1 hi
  simp [activePlayers, List.countP_append, List.countP_singleton]

theorem Counted.insert (h : db.Counted (some p.viewerId))
    (hi : db.insertActivePlayer p bytesOut fault = some db') : db'.Counted none := by
  intro v
  have hv := h v
  rw [activePlayers_insert hi]
  grind [insertActivePlayer_eq_some]

theorem writePlayer_eq_some (hw : db.writePlayer id p bytesOut fault = some db') :
    db' = { db with
      players := updateWhere (fun q => q.id = id) (updatedPlayer p bytesOut) db.players } ∧
      ∃ q, lookup (·.id) db.players id = some q := by
  unfold writePlayer at hw
  split_ifs at hw with h
  simp only [Bool.or_eq_true, Bool.not_eq_true', not_or, Bool.not_eq_false] at h
  refine ⟨(some.inj hw).symm, ?_⟩
  rw [← isSome_iff_exists, lookup, List.find?_isSome]
  simpa using h.1.2

theorem activePlayers_write (hu : UniqueOn (·.id) db.players)
    (hw : db.writePlayer id p bytesOut fault = some db') (v : String) :
    db'.activePlayers v + (if db.activeViewer id = some v then 1 else 0) =
      db.activePlayers v + if p.viewerId = v ∧ p.active = true then 1 else 0 := by
  obtain ⟨rfl, q, hq⟩ := writePlayer_eq_some hw
  have hcount := hu.countP_updateWhere (fun p : Player => p.viewerId = v ∧ p.active = true)
    (updatedPlayer p bytesOut) id
  rw [hq, toList_some, List.countP_singleton, List.countP_singleton] at hcount
  have hnew : (decide ((updatedPlayer p bytesOut q).viewerId = v ∧
      (updatedPlayer p bytesOut q).active = true) = true) = (p.viewerId = v ∧ p.active = true) :=
    decide_eq_true_eq
  simp only [hnew, decide_eq_true_eq] at hcount
  have hwas : db.activeViewer id = some v ↔ q.viewerId = v ∧ q.active = true := by
    unfold activeViewer
    rw [hq]
    cases hact : q.active <;> simp [Option.filter, hact]
  simp only [hwas, activePlayers]
  omega

theorem transitionSlot_eq_some {was : Option String} (h : db.transitionSlot was p = some db') :
    (isPlayerTransition was p ∧ db.playerCountTryIncr p.viewerId = some db') ∨
      (isPlayerTransition was p = false ∧ db' = db) := by
  unfold transitionSlot at h
  cases ht : isPlayerTransition was p with
  | true => exact .inl ⟨rfl, by rwa [if_pos ht] at h⟩
  | false => exact .inr ⟨rfl, by simpa [ht, eq_comm] using h⟩

theorem Counted.write (hu : UniqueOn (·.id) db.players)
    (h : db.Counted (if isPlayerTransition (db.activeViewer id) p then some p.viewerId else none))
    (hw : db.writePlayer id p bytesOut fault = some db') :
    db'.Counted (leftViewer (db.activeViewer id) p) := by
  intro v
  have hv := h v
  have hrows := activePlayers_write hu hw v
  obtain ⟨rfl, -⟩ := writePlayer_eq_some hw
  generalize db.activeViewer id = was at *
  show db.activePlayerCounts v = _ + db.unpersistedPlayerCounts v + _
  cases was <;> cases hact : p.active <;> grind [isPlayerTransition, leftViewer]

end Db

/-- The books while a thread that holds the connection has `next` left to do. -/
def Db.Balanced (db : Db) : Option CountStep → Prop
  | none => db.Counted none
  | some (.insertAcquired p _) => db.Counted (some p.viewerId)
  | some (.decr w) => db.Counted (some w)
  | some (.settle _ false) => db.Counted none
  | some (.settle w true) =>
    0 < db.activePlayers w ∧ ∀ v, db.activePlayerCounts v + (if v = w then 1 else 0) =
      db.activePlayers v + db.unpersistedPlayerCounts v
  | some (.write id p _ was) =>
    was = db.activeViewer id ∧
      db.Counted (if Db.isPlayerTransition was p then some p.viewerId else none)
  | some (.forget w) =>
    db.activePlayers w = 0 ∧ db.unpersistedPlayerCounts w ≤ db.activePlayerCounts w ∧
      ∀ v, v ≠ w → db.activePlayerCounts v = db.activePlayers v + db.unpersistedPlayerCounts v
  | some .resync => True

def CountStep.settling : Option CountStep → Option String
  | some (.settle w _) => some w
  | _ => none

namespace Db

variable {db db' : Db} {next : Option CountStep}

theorem counted_none : db.Counted none ↔
    ∀ v, db.activePlayerCounts v = db.activePlayers v + db.unpersistedPlayerCounts v := by
  simp [Counted]

theorem Balanced.unpersisted_le (h : db.Balanced next) (hn : next ≠ some .resync) (v : String) :
    db.unpersistedPlayerCounts v ≤ db.activePlayerCounts v := by
  rcases next with _ | (_ | _ | ⟨w, _ | _⟩ | _ | w | _)
  case some.forget => by_cases hv : v = w <;> grind [Balanced]
  all_goals grind [Balanced, Counted]

theorem Balanced.shift (h : db.Balanced next) (hp : db'.players = db.players)
    (hc : ∀ v, db'.activePlayerCounts v + db.unpersistedPlayerCounts v =
      db.activePlayerCounts v + db'.unpersistedPlayerCounts v) : db'.Balanced next := by
  have hrows : ∀ v, db'.activePlayers v = db.activePlayers v := by
    intro v
    rw [activePlayers, activePlayers, hp]
  have hviewer : ∀ id, db'.activeViewer id = db.activeViewer id := by
    intro id
    rw [activeViewer, activeViewer, hp]
  rcases next with _ | (_ | _ | ⟨w, _ | _⟩ | _ | w | _) <;> grind [Balanced, Counted]

end Db

/-! ### One step -/

section Run

variable {db db' : Db} {fault : Bool}
variable {p : PlayerRecord} {bytesOut : Int64} {w : String}

theorem Db.unique_insert (hu : UniqueOn (·.id) db.players)
    (hi : db.insertActivePlayer p bytesOut fault = some db') : UniqueOn (·.id) db'.players := by
  obtain ⟨-, hnew, -, rfl⟩ := Db.insertActivePlayer_eq_some.1 hi
  exact hu.append hnew

theorem Db.unique_write {id : String} (hu : UniqueOn (·.id) db.players)
    (hw : db.writePlayer id p bytesOut fault = some db') : UniqueOn (·.id) db'.players := by
  obtain ⟨rfl, -⟩ := Db.writePlayer_eq_some hw
  exact hu.updateWhere _ fun _ => rfl

theorem Db.activePlayers_deactivate (w v : String) :
    (db.deactivateViewerRows w).activePlayers v = if v = w then 0 else db.activePlayers v := by
  simp only [Db.activePlayers, Db.deactivateViewerRows, updateWhere, List.countP_map]
  split_ifs with hv
  · rw [List.countP_eq_zero]
    grind
  · exact List.countP_congr fun p _ => by grind

theorem Db.insertReserved_eq_some (hi : db.insertReserved p fault = some db') :
    ∃ bytesOut, db.insertActivePlayer p bytesOut fault = some db' := by
  obtain ⟨bytesOut, -, hi⟩ := bind_eq_some_iff.1 hi
  exact ⟨bytesOut, hi⟩

theorem Db.Counted.insertReserved (h : db.Counted none)
    (hi : db.insertReserved p fault = some db') :
    db'.Balanced (some (.settle p.viewerId true)) := by
  obtain ⟨bytesOut, hi⟩ := Db.insertReserved_eq_some hi
  have hrows := Db.activePlayers_insert hi
  have hc := Db.counted_none.1 h
  obtain ⟨-, -, -, rfl⟩ := Db.insertActivePlayer_eq_some.1 hi
  exact ⟨by grind, fun v => by grind⟩

theorem Db.counted_resync : db.resyncActivePlayerCounts.Counted none :=
  Db.counted_none.2 fun _ => rfl

theorem Db.unpersisted_settle (hw : 0 < db.unpersistedPlayerCounts w) (inserted : Bool)
    (v : String) :
    (db.playerSettle w inserted).unpersistedPlayerCounts v + (if w = v then 1 else 0) =
      db.unpersistedPlayerCounts v := by
  cases inserted <;> show update db.unpersistedPlayerCounts w _ v + _ = _ <;> grind

theorem Db.cancel_shift (hu : 0 < db.unpersistedPlayerCounts w) (ha : 0 < db.activePlayerCounts w)
    (v : String) :
    (db.playerCancelReservation w).activePlayerCounts v + db.unpersistedPlayerCounts v =
      db.activePlayerCounts v + (db.playerCancelReservation w).unpersistedPlayerCounts v := by
  show update db.activePlayerCounts w _ v + _ =
    _ + update db.unpersistedPlayerCounts w _ v
  grind [Db.playerUnreserve]

theorem Db.Balanced.settle {inserted : Bool} (hb : db.Balanced (some (.settle w inserted)))
    (hw : 0 < db.unpersistedPlayerCounts w) : (db.playerSettle w inserted).Balanced none := by
  cases inserted with
  | false =>
    have hle := hb.unpersisted_le (fun h => by cases h) w
    exact Db.Balanced.shift (show db.Balanced none from hb) rfl (Db.cancel_shift hw (by omega))
  | true =>
    refine Db.counted_none.2 fun v => ?_
    have hv := hb.2 v
    show db.activePlayerCounts v = db.activePlayers v +
      update db.unpersistedPlayerCounts w _ v
    grind

/-- What the thread with the connection does keeps the books, and settles at most one reservation. -/
theorem CountStep.run_books {c : CountStep} (hu : UniqueOn (·.id) db.players)
    (hb : db.Balanced (some c))
    (hs : ∀ w, CountStep.settling (some c) = some w → 0 < db.unpersistedPlayerCounts w) :
    UniqueOn (·.id) (c.run db fault).1.players ∧
      (c.run db fault).1.Balanced (c.run db fault).2 ∧
      CountStep.settling (c.run db fault).2 = none ∧
      ∀ v, (c.run db fault).1.unpersistedPlayerCounts v +
        (if CountStep.settling (some c) = some v then 1 else 0) = db.unpersistedPlayerCounts v := by
  cases c with
  | insertAcquired p bytesOut =>
    cases hi : db.insertActivePlayer p bytesOut fault with
    | none =>
      simp only [CountStep.run, hi]
      exact ⟨hu, hb, rfl, fun _ => rfl⟩
    | some db' =>
      simp only [CountStep.run, hi]
      refine ⟨Db.unique_insert hu hi, Db.Counted.insert hb hi, rfl, ?_⟩
      obtain ⟨-, -, -, rfl⟩ := Db.insertActivePlayer_eq_some.1 hi
      exact fun _ => rfl
  | decr w => exact ⟨hu, Db.Counted.giveBack hb, rfl, fun _ => rfl⟩
  | settle w inserted =>
    have hpos := hs w rfl
    refine ⟨?_, hb.settle hpos, rfl, fun v => ?_⟩
    · cases inserted <;> exact hu
    · simp only [CountStep.settling, some.injEq]
      exact Db.unpersisted_settle hpos inserted v
  | write id p bytesOut was =>
    obtain ⟨rfl, hc⟩ := hb
    cases hw : db.writePlayer id p bytesOut fault with
    | none =>
      simp only [CountStep.run, hw]
      split_ifs at hc ⊢ <;> exact ⟨hu, hc, rfl, fun _ => rfl⟩
    | some db' =>
      simp only [CountStep.run, hw]
      have hc' := hc.write hu hw
      refine ⟨Db.unique_write hu hw, ?_, ?_, ?_⟩
      · cases hl : Db.leftViewer (db.activeViewer id) p <;> rwa [hl] at hc'
      · cases Db.leftViewer (db.activeViewer id) p <;> rfl
      · obtain ⟨rfl, -⟩ := Db.writePlayer_eq_some hw
        exact fun _ => rfl
  | forget w =>
    obtain ⟨hzero, -, hc⟩ := hb
    refine ⟨hu, Db.counted_none.2 fun v => ?_, rfl, fun _ => rfl⟩
    show update db.activePlayerCounts w _ v =
      db.activePlayers v + db.unpersistedPlayerCounts v
    grind
  | resync => exact ⟨hu, Db.counted_resync, rfl, fun _ => rfl⟩

theorem Db.activePlayerCounts_decr_le (w v : String) :
    (db.playerCountDecr w).activePlayerCounts v ≤ db.activePlayerCounts v := by
  show update db.activePlayerCounts w _ v ≤ _
  grind

theorem Db.activePlayerCounts_tryIncr_le (ht : db.playerCountTryIncr w = some db')
    (hc : ∀ v, db.activePlayerCounts v ≤ maxConnectionsPerPlayKey) (v : String) :
    db'.activePlayerCounts v ≤ maxConnectionsPerPlayKey := by
  obtain ⟨hlt, rfl⟩ := Db.playerCountTryIncr_eq_some.1 ht
  grind

theorem CountStep.run_count_le {c : CountStep} (hb : db.Balanced (some c)) (hn : c ≠ .resync)
    (fault : Bool) : (c.run db fault).2 ≠ some .resync ∧
      ∀ v, (c.run db fault).1.activePlayerCounts v ≤ db.activePlayerCounts v := by
  cases c with
  | insertAcquired p bytesOut =>
    cases hi : db.insertActivePlayer p bytesOut fault with
    | none => simp [CountStep.run, hi]
    | some db' =>
      obtain ⟨-, -, -, rfl⟩ := Db.insertActivePlayer_eq_some.1 hi
      simp [CountStep.run, hi]
  | decr w => exact ⟨nofun, Db.activePlayerCounts_decr_le w⟩
  | settle w inserted =>
    refine ⟨nofun, fun v => ?_⟩
    cases inserted with
    | false => exact Db.activePlayerCounts_decr_le w v
    | true => exact Nat.le_refl _
  | write id p bytesOut was =>
    cases hw : db.writePlayer id p bytesOut fault with
    | none =>
      simp only [CountStep.run, hw]
      split_ifs <;> simp
    | some db' =>
      obtain ⟨rfl, -⟩ := Db.writePlayer_eq_some hw
      simp only [CountStep.run, hw]
      cases Db.leftViewer was p <;> simp
  | forget w =>
    refine ⟨nofun, fun v => ?_⟩
    have hle := hb.2.1
    show update db.activePlayerCounts w _ v ≤ _
    grind
  | resync => exact absurd rfl hn

end Run

namespace PlayerCounts

structure Books (s : PlayerCounts) : Prop where
  unique : UniqueOn (·.id) s.db.players
  saved : ∀ saved, s.batch = some saved → UniqueOn (·.id) saved.players
  reserved : ∀ v, s.db.unpersistedPlayerCounts v =
    s.reserved v + if CountStep.settling s.next = some v then 1 else 0
  balanced : s.db.Balanced s.next

/-- Nobody is over the limit, and no rollback is being mended. -/
structure Capped (s : PlayerCounts) : Prop where
  books : s.Books
  next : s.next ≠ some .resync
  count : ∀ v, s.db.activePlayerCounts v ≤ maxConnectionsPerPlayKey

/-- A step keeps the books, and the limit unless `rollback`. -/
structure Keeps (s : PlayerCounts) (rollback : Bool) (s' : PlayerCounts) : Prop where
  books : s'.Books
  capped : s.Capped → rollback = false → s'.Capped

variable {s s' : PlayerCounts} {p : PlayerRecord} {fault rollback : Bool} {v : String}

theorem Books.keeps (h : s'.Books) (hl : s.Capped → rollback = false →
    s'.next ≠ some .resync ∧ ∀ v, s'.db.activePlayerCounts v ≤ maxConnectionsPerPlayKey) :
    s.Keeps rollback s' :=
  ⟨h, fun hc hr => ⟨h, (hl hc hr).1, (hl hc hr).2⟩⟩

theorem Books.stays (h : s.Books) : s.Keeps rollback s := ⟨h, fun hc _ => hc⟩

theorem enter_eq_some {sessions : SessionDb} {next : Option CountStep} :
    s.enter sessions next = some s' ↔
      s.next = none ∧ s' = { s with sessions := sessions, next := next } := by
  unfold enter
  cases s.next with
  | none => simp [eq_comm]
  | some c => simp

theorem useReservation_eq_some : s.useReservation v = some s' ↔ 0 < s.reserved v ∧
    s' = { s with reserved := update s.reserved v (s.reserved v - 1) } := by
  grind [useReservation]

namespace Books

theorem enter (h : s.Books) {sessions : SessionDb} {next : Option CountStep}
    (he : s.enter sessions next = some s') (hsettle : CountStep.settling next = none)
    (hu : UniqueOn (·.id) sessions.db.players)
    (hc : sessions.db.unpersistedPlayerCounts = s.db.unpersistedPlayerCounts)
    (hb : s.db.Counted none → sessions.db.Balanced next) (hn : next ≠ some .resync)
    (hl : (∀ v, s.db.activePlayerCounts v ≤ maxConnectionsPerPlayKey) →
      ∀ v, sessions.db.activePlayerCounts v ≤ maxConnectionsPerPlayKey) : s.Keeps rollback s' := by
  obtain ⟨hnone, rfl⟩ := enter_eq_some.1 he
  have hr := h.reserved
  have hbal := h.balanced
  rw [hnone] at hr hbal
  refine keeps ⟨hu, h.saved, fun v => ?_, hb hbal⟩ fun hcapped _ => ⟨hn, hl hcapped.count⟩
  show sessions.db.unpersistedPlayerCounts v = s.reserved v + _
  rw [hc, hr v, hsettle]
  rfl

/-- An operation that is refused once it has the connection. -/
theorem refuse (h : s.Books) {sessions : SessionDb} (he : s.enter sessions none = some s')
    (hdb : sessions.db = s.db) : s.Keeps rollback s' := by
  refine h.enter he rfl ?_ ?_ ?_ nofun ?_
  all_goals rw [hdb]
  · exact h.unique
  · exact id
  · exact id

theorem start (database : Database) : (PlayerCounts.start database).Books where
  unique := database.schemaOk.playerId.updateWhere _ fun _ => rfl
  saved := nofun
  reserved := fun _ => rfl
  balanced := by
    refine Db.counted_none.2 fun v => ?_
    show 0 = List.countP _ (updateWhere _ _ _) + 0
    rw [Nat.add_zero, eq_comm, List.countP_eq_zero]
    grind [updateWhere]

variable (h : s.Books)
include h

theorem tryAcquire (hs : s.step (.playerTryAcquire p) = some s') :
    s.Keeps rollback s' := by
  simp only [step] at hs
  split at hs
  · exact some.inj hs ▸ h.stays
  · split at hs
    · exact h.refuse hs rfl
    · next ht =>
      have hle := Db.activePlayerCounts_tryIncr_le ht
      obtain ⟨-, rfl⟩ := Db.playerCountTryIncr_eq_some.1 ht
      exact h.enter hs rfl h.unique rfl (fun hc => hc.take ht) nofun hle

theorem reserve (hs : s.step (.playerReserve v) = some s') : s.Keeps rollback s' := by
  simp only [step, Db.playerReserve] at hs
  split at hs
  · exact some.inj hs ▸ h.stays
  · next db hr =>
    obtain ⟨-, hr⟩ := ite_none_left_eq_some.1 hr
    obtain ⟨taken, ht, rfl⟩ := map_eq_some_iff.1 hr
    have hle := Db.activePlayerCounts_tryIncr_le ht
    obtain ⟨-, rfl⟩ := Db.playerCountTryIncr_eq_some.1 ht
    obtain rfl := some.inj hs
    refine keeps ⟨h.unique, h.saved, fun u => ?_, h.balanced.shift rfl fun u => ?_⟩
      fun hcapped _ => ⟨hcapped.next, hle hcapped.count⟩
    · have hu := h.reserved u
      show Function.update s.db.unpersistedPlayerCounts v _ u =
        Function.update s.reserved v _ u + if CountStep.settling s.next = some u then 1 else 0
      grind
    · show Function.update s.db.activePlayerCounts v _ u + _ =
        _ + Function.update s.db.unpersistedPlayerCounts v _ u
      grind

theorem cancelReservation (hs : s.step (.playerCancelReservation v) = some s') :
    s.Keeps rollback s' := by
  obtain ⟨t, ht, rfl⟩ := map_eq_some_iff.1 hs
  obtain ⟨hpos, rfl⟩ := useReservation_eq_some.1 ht
  have hpending : 0 < s.db.unpersistedPlayerCounts v := by
    have := h.reserved v
    omega
  refine keeps ⟨h.unique, h.saved, fun u => ?_, ?_⟩ fun hcapped _ =>
    ⟨hcapped.next, fun u => (Db.activePlayerCounts_decr_le v u).trans (hcapped.count u)⟩
  · have hu := h.reserved u
    have hsettle := Db.unpersisted_settle hpending false u
    show (s.db.playerSettle v false).unpersistedPlayerCounts u =
      update s.reserved v _ u + if CountStep.settling s.next = some u then 1 else 0
    grind
  · show (s.db.playerCancelReservation v).Balanced s.next
    by_cases hn : s.next = some .resync
    · rw [hn]
      trivial
    · have hle := h.balanced.unpersisted_le hn v
      exact h.balanced.shift rfl (Db.cancel_shift hpending (by omega))

theorem update {id : String} (hs : s.step (.playerUpdate id p) = some s') :
    s.Keeps rollback s' := by
  simp only [step] at hs
  split at hs
  · exact some.inj hs ▸ h.stays
  by_cases hv : (p.active && decide (p.viewerId = "")) = true
  · rw [if_pos hv] at hs
    exact h.refuse hs rfl
  rw [if_neg hv] at hs
  split at hs
  · exact h.refuse hs rfl
  · next hslot =>
    rcases Db.transitionSlot_eq_some hslot with ⟨ht, htake⟩ | ⟨ht, rfl⟩
    · have hle := Db.activePlayerCounts_tryIncr_le htake
      obtain ⟨-, rfl⟩ := Db.playerCountTryIncr_eq_some.1 htake
      refine h.enter hs rfl h.unique rfl (fun hc => ⟨rfl, ?_⟩) nofun hle
      rw [if_pos ht]
      exact hc.take htake
    · refine h.enter hs rfl h.unique rfl (fun hc => ⟨rfl, ?_⟩) nofun fun hl => hl
      rw [ht]
      exact hc

theorem insertReserved (hs : s.step (.playerInsertReserved p fault) = some s') :
    s.Keeps rollback s' := by
  obtain ⟨t, ht, hs⟩ := bind_eq_some_iff.1 hs
  obtain ⟨hpos, rfl⟩ := useReservation_eq_some.1 ht
  -- the reservation the caller used up is the one its thread is about to settle
  have settle : ∀ (db : Db) inserted, s.next = none →
      db.unpersistedPlayerCounts = s.db.unpersistedPlayerCounts → ∀ v,
      db.unpersistedPlayerCounts v = Function.update s.reserved p.viewerId
        (s.reserved p.viewerId - 1) v +
        if CountStep.settling (some (.settle p.viewerId inserted)) = some v then 1 else 0 := by
    intro db inserted hnone hdb v
    have hr := h.reserved v
    grind [CountStep.settling]
  have hc : s.next = none → s.db.Counted none := by
    intro hnone
    have hb := h.balanced
    rwa [hnone] at hb
  simp only at hs
  split at hs
  · next db hi =>
    obtain ⟨hnone, rfl⟩ := enter_eq_some.1 hs
    obtain ⟨bytesOut, hins⟩ := Db.insertReserved_eq_some hi
    have hu := Db.unique_insert h.unique hins
    have hbal := (hc hnone).insertReserved hi
    obtain ⟨-, -, -, rfl⟩ := Db.insertActivePlayer_eq_some.1 hins
    exact keeps ⟨hu, h.saved, settle _ true hnone rfl, hbal⟩
      fun hcapped _ => ⟨nofun, hcapped.count⟩
  · obtain ⟨hnone, rfl⟩ := enter_eq_some.1 hs
    exact keeps ⟨h.unique, h.saved, settle _ false hnone rfl, hc hnone⟩
      fun hcapped _ => ⟨nofun, hcapped.count⟩

theorem deactivateForViewer
    (hs : s.step (.playersDeactivateForViewer v fault) = some s') : s.Keeps rollback s' := by
  simp only [step] at hs
  split_ifs at hs with hf
  · exact h.refuse hs rfl
  · refine h.enter hs rfl (h.unique.updateWhere _ fun _ => rfl) rfl (fun hc => ?_) nofun id
    have hc' := Db.counted_none.1 hc
    refine ⟨(Db.activePlayers_deactivate v v).trans (if_pos rfl), ?_, fun u hu => ?_⟩
    · show s.db.unpersistedPlayerCounts v ≤ s.db.activePlayerCounts v
      have := hc' v
      omega
    · rw [Db.activePlayers_deactivate, if_neg hu]
      exact hc' u

theorem endBatch {committed : Bool}
    (hs : s.step (.endBatch committed) = some s') : s.Keeps (!committed) s' := by
  obtain ⟨hn, hs⟩ := ite_none_left_eq_some.1 hs
  obtain ⟨saved, hsaved, rfl⟩ := map_eq_some_iff.1 hs
  cases committed with
  | true =>
    exact keeps ⟨h.unique, nofun, h.reserved, h.balanced⟩
      fun hcapped _ => ⟨hcapped.next, hcapped.count⟩
  | false =>
    refine keeps ⟨h.saved saved hsaved, nofun, fun v => ?_, trivial⟩ nofun
    have hr := h.reserved v
    rw [show s.next = none by simpa using hn] at hr
    exact hr

theorem advance (hs : s.step (.advance fault) = some s') : s.Keeps rollback s' := by
  obtain ⟨c, hnext, rfl⟩ := map_eq_some_iff.1 hs
  have hr := h.reserved
  have hb := h.balanced
  rw [hnext] at hr hb
  obtain ⟨hu, hbal, hsettle, hpending⟩ := @CountStep.run_books s.db fault c h.unique hb (by grind)
  refine keeps ⟨hu, h.saved, fun v => ?_, hbal⟩ fun hcapped _ => ?_
  · have hrv := hr v
    have hpv := hpending v
    show (c.run s.db fault).1.unpersistedPlayerCounts v = s.reserved v +
      if CountStep.settling (c.run s.db fault).2 = some v then 1 else 0
    rw [hsettle, if_neg (by simp)]
    omega
  · obtain ⟨hn, hle⟩ := CountStep.run_count_le hb (fun hc => hcapped.next (hc ▸ hnext)) fault
    exact ⟨hn, fun v => (hle v).trans (hcapped.count v)⟩

theorem keeps_step {op : CountsOp} (hs : s.step op = some s') :
    s.Keeps (op matches .endBatch false) s' := by
  cases op with
  | playerTryAcquire p => exact h.tryAcquire hs
  | playerReserve v => exact h.reserve hs
  | playerInsertReserved p fault => exact h.insertReserved hs
  | playerCancelReservation v => exact h.cancelReservation hs
  | playerUpdate id p => exact h.update hs
  | playersDeactivateForViewer v fault => exact h.deactivateForViewer hs
  | beginBatch =>
    obtain ⟨-, hs⟩ := ite_none_left_eq_some.1 hs
    obtain rfl := some.inj hs
    exact keeps ⟨h.unique, fun saved hs => some.inj hs ▸ h.unique, h.reserved, h.balanced⟩
      fun hcapped _ => ⟨hcapped.next, hcapped.count⟩
  | endBatch committed => cases committed <;> exact h.endBatch hs
  | advance fault => exact h.advance hs

theorem step {op : CountsOp} (hs : s.step op = some s') : s'.Books :=
  (h.keeps_step hs).books

end Books

theorem Capped.step (h : s.Capped) {op : CountsOp} (hop : op ≠ .endBatch false)
    (hs : s.step op = some s') : s'.Capped := by
  refine (h.books.keeps_step hs).capped h ?_
  cases op with
  | endBatch committed => cases committed <;> simp_all
  | _ => rfl

theorem Capped.start (database : Database) : (PlayerCounts.start database).Capped where
  books := Books.start database
  next := nofun
  count := fun _ => Nat.zero_le _

end PlayerCounts

/-! ### Whole operations

Nothing runs between the steps of an operation whose caller is alone. -/

namespace PlayerCounts

variable {s : PlayerCounts}

theorem playerTryAcquire_steps (s : PlayerCounts) (hn : s.next = none) (p : PlayerRecord)
    (fault : Bool) :
    ∃ ops, .endBatch false ∉ ops ∧
      replay step s ops = some (s.setDb (s.db.playerTryAcquire p fault).1) := by
  obtain ⟨sessions, next, batch, reserved⟩ := s
  obtain rfl : next = none := hn
  by_cases hv : p.viewerId = ""
  · exact ⟨[], by simp, by simp [Db.playerTryAcquire, hv, setDb, db]⟩
  cases hb : tryI64 p.bytesOut with
  | none => exact ⟨[], by simp, by simp [Db.playerTryAcquire, hv, hb, setDb, db]⟩
  | some bytesOut =>
    cases ht : sessions.db.playerCountTryIncr p.viewerId with
    | none => exact ⟨[], by simp, by simp [Db.playerTryAcquire, hv, hb, ht, setDb, db]⟩
    | some taken =>
      cases hi : taken.insertActivePlayer p bytesOut fault with
      | some db' =>
        refine ⟨[.playerTryAcquire p, .advance fault], by simp, ?_⟩
        simp [Db.playerTryAcquire, step, enter, CountStep.run, hv, hb, ht, hi, setDb, db]
      | none =>
        refine ⟨[.playerTryAcquire p, .advance fault, .advance fault], by simp, ?_⟩
        simp [Db.playerTryAcquire, step, enter, CountStep.run, hv, hb, ht, hi, setDb, db]

theorem playerInsertReserved_steps (hn : s.next = none) (p : PlayerRecord) (fault : Bool)
    (hr : 0 < s.reserved p.viewerId) :
    ∃ ops, .endBatch false ∉ ops ∧ replay step s ops =
      some { s.setDb (s.db.playerInsertReserved p fault).1 with
        reserved := update s.reserved p.viewerId (s.reserved p.viewerId - 1) } := by
  obtain ⟨sessions, next, batch, reserved⟩ := s
  obtain rfl : next = none := hn
  refine ⟨[.playerInsertReserved p fault, .advance fault], by simp, ?_⟩
  cases hi : sessions.db.insertReserved p fault with
  | some db' =>
    simp [Db.playerInsertReserved, step, useReservation, enter, CountStep.run, Nat.ne_of_gt hr, hi,
      setDb, db]
  | none =>
    simp [Db.playerInsertReserved, step, useReservation, enter, CountStep.run, Nat.ne_of_gt hr, hi,
      setDb, db]

theorem playerUpdate_steps (s : PlayerCounts) (hn : s.next = none) (id : String) (p : PlayerRecord)
    (fault : Bool) :
    ∃ ops, .endBatch false ∉ ops ∧ replay step s ops =
      some { s with sessions := (s.sessions.playerUpdate id p fault).1 } := by
  obtain ⟨sessions, next, batch, reserved⟩ := s
  obtain rfl : next = none := hn
  cases hb : tryI64 p.bytesOut with
  | none => exact ⟨[], by simp, by simp [SessionDb.playerUpdate, hb]⟩
  | some bytesOut =>
    by_cases hv : p.active = true ∧ p.viewerId = ""
    · refine ⟨[.playerUpdate id p], by simp, ?_⟩
      simp [SessionDb.playerUpdate, step, enter, hb, hv]
    have hdb : (sessions.dropPlayerStats id).db = sessions.db := rfl
    cases ht : sessions.db.transitionSlot (sessions.db.activeViewer id) p with
    | none =>
      refine ⟨[.playerUpdate id p], by simp, ?_⟩
      simp [SessionDb.playerUpdate, step, enter, hb, hv, hdb, ht, db]
    | some taken =>
      cases hw : taken.writePlayer id p bytesOut fault with
      | some db' =>
        cases hl : Db.leftViewer (sessions.db.activeViewer id) p with
        | none =>
          refine ⟨[.playerUpdate id p, .advance fault], by simp, ?_⟩
          simp [SessionDb.playerUpdate, step, enter, CountStep.run, hb, hv, hdb, ht, hw, hl, setDb, db]
        | some old =>
          refine ⟨[.playerUpdate id p, .advance fault, .advance fault], by simp, ?_⟩
          simp [SessionDb.playerUpdate, step, enter, CountStep.run, hb, hv, hdb, ht, hw, hl, setDb, db]
      | none =>
        by_cases htr : Db.isPlayerTransition (sessions.db.activeViewer id) p = true
        · refine ⟨[.playerUpdate id p, .advance fault, .advance fault], by simp, ?_⟩
          simp [SessionDb.playerUpdate, step, enter, CountStep.run, hb, hv, hdb, htr, ht, hw, setDb, db]
        · refine ⟨[.playerUpdate id p, .advance fault], by simp, ?_⟩
          simp [SessionDb.playerUpdate, step, enter, CountStep.run, hb, hv, hdb, htr, ht, hw, setDb, db]

end PlayerCounts

/-- **Viewer sessions are counted.** Whenever nobody holds the connection, the count of a viewer is
the number of its active rows and reservations; and unless a commit failed it is within
`MAX_CONNECTIONS_PER_PLAY_KEY`. -/
theorem viewer_sessions_counted {database : Database} {ops : List CountsOp} {s : PlayerCounts}
    (hrun : replay PlayerCounts.step (.start database) ops = some s) :
    (s.next = none → s.batch = none → ∀ v, s.db.activePlayerCounts v =
      s.db.players.countP (fun p => p.viewerId = v ∧ p.active = true) +
        s.db.unpersistedPlayerCounts v) ∧
    ((∀ op ∈ ops, op ≠ .endBatch false) →
      ∀ v, s.db.activePlayerCounts v ≤ maxConnectionsPerPlayKey) := by
  refine ⟨fun hnext _ => ?_, fun hops => ?_⟩
  · have hbooks : s.Books :=
      replay_inv (fun _ _ _ _ hs hstep => hs.step hstep) (PlayerCounts.Books.start database) hrun
    have hb := hbooks.balanced
    rw [hnext] at hb
    exact Db.counted_none.1 hb
  · have hcapped : s.Capped :=
      replay_inv (fun _ _ _ hop hs hstep => hs.step (hops _ hop) hstep)
        (PlayerCounts.Capped.start database) hrun
    exact hcapped.count

def countedDatabase : Database where
  db := { Db.empty with
    streams := [⟨⟨"s", "cam", "live", "pub", "play", "stats", true, 0⟩, false, ""⟩] }
  schemaOk := by
    constructor <;> simp [Db.empty, UniqueOn]

def countedPlayer (id : String) (active : Bool) : PlayerRecord :=
  ⟨id, "s", "v", "live", "cam", 0, {}, 0, active⟩

/-- Two viewers are admitted, one through a reservation; the other leaves in a batch, while a third
has its reservation. -/
def countedOps : List CountsOp :=
  [.playerReserve "v", .playerTryAcquire (countedPlayer "a" true), .advance false,
    .playerInsertReserved (countedPlayer "b" true) false, .playerReserve "v", .advance false,
    .beginBatch, .playerUpdate "a" (countedPlayer "a" false), .advance false, .advance false,
    .endBatch true]

theorem viewer_sessions_counted_batch :
    ∃ s, replay PlayerCounts.step (.start countedDatabase) countedOps = some s ∧
      s.next = none ∧ s.batch = none ∧ s.db.activePlayerCounts "v" = 2 ∧
      s.db.players.countP (fun p => p.viewerId = "v" ∧ p.active = true) = 1 ∧
      s.db.unpersistedPlayerCounts "v" = 1 ∧
      s.db.activePlayerCounts "v" ≤ maxConnectionsPerPlayKey := by
  have hends : ((replay PlayerCounts.step (.start countedDatabase) countedOps).map fun s =>
      (s.next.isNone && s.batch.isNone,
        s.db.players.countP (fun p => p.viewerId = "v" ∧ p.active = true),
        s.db.unpersistedPlayerCounts "v")) = some (true, 1, 1) := by decide +kernel
  obtain ⟨s, hrun, hs⟩ := map_eq_some_iff.1 hends
  simp only [Prod.mk.injEq, Bool.and_eq_true, isNone_iff_eq_none] at hs
  obtain ⟨⟨hnext, hbatch⟩, hrows, hpending⟩ := hs
  have hcounted := viewer_sessions_counted hrun
  refine ⟨s, hrun, hnext, hbatch, ?_, hrows, hpending, hcounted.2 (by simp [countedOps]) "v"⟩
  rw [hcounted.1 hnext hbatch "v", hrows, hpending]

end RtmpServer
