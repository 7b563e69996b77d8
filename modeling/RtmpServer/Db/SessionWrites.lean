import RtmpServer.Db.PlayerCounts

/-!
# What a session write does to the rows

The writes of `publishers` and `players` either change nothing but counts, or write the one row they
name. Everything that is said about active rows elsewhere goes through the lemmas of this module.
-/

namespace RtmpServer

open List Lib.Table

variable {db db' : Db} {p : PlayerRecord} {id : String}

inductive SessionRow where
  | publisher (id : String)
  | player (id : String)
  deriving DecidableEq, Repr

def Db.rowActive (db : Db) : SessionRow → Bool
  | .publisher id => db.publishers.any fun p => p.id = id && p.active
  | .player id => db.players.any fun p => p.id = id && p.active

/-- The rows with the session's id; there is at most one. -/
def Db.rowsOf (db : Db) : SessionRow → List Publisher × List Player
  | .publisher id => (db.publishers.filter fun p => p.id = id, [])
  | .player id => ([], db.players.filter fun p => p.id = id)

/-! ### One row of a table -/

theorem any_updatedPublisher (p : PublisherRecord) (bytesIn : Int64) (t : List Publisher)
    (id x : String) :
    (updateWhere (fun q => q.id = id) (SessionDb.updatedPublisher p bytesIn) t).any
        (fun q => q.id = x && q.active) =
      if x = id then p.active && t.any fun q => q.id = id
      else t.any fun q => q.id = x && q.active :=
  any_updateWhere Publisher.id Publisher.active (f := SessionDb.updatedPublisher p bytesIn)
    (b := p.active) (fun _ => rfl) (fun _ => rfl) t id x

theorem any_updatedPlayer (p : PlayerRecord) (bytesOut : Int64) (t : List Player) (id x : String) :
    (updateWhere (fun q => q.id = id) (Db.updatedPlayer p bytesOut) t).any
        (fun q => q.id = x && q.active) =
      if x = id then p.active && t.any fun q => q.id = id
      else t.any fun q => q.id = x && q.active :=
  any_updateWhere Player.id Player.active (f := Db.updatedPlayer p bytesOut)
    (b := p.active) (fun _ => rfl) (fun _ => rfl) t id x

/-! ### Publishers -/

inductive PublisherWritten (db : Db) (id : String) (p : PublisherRecord) : Db → Bool → Prop
  | refused : PublisherWritten db id p db false
  | written (bytesIn : Int64) (hbytes : tryI64 p.bytesIn = some bytesIn)
    (hfound : (db.publishers.any fun q => q.id = id) = true)
    (hstream : db.hasStream p.streamId = true) :
    PublisherWritten db id p
      { db with
        publishers := updateWhere (fun q => q.id = id) (SessionDb.updatedPublisher p bytesIn)
          db.publishers } true

theorem publisherUpdate_written (s : SessionDb) (id : String) (p : PublisherRecord)
    (fault : UpdateFaults) :
    PublisherWritten s.db id p (s.publisherUpdate id p fault).1.db
      (s.publisherUpdate id p fault).2 := by
  unfold SessionDb.publisherUpdate
  split
  case h_1 => exact .refused
  case h_2 bytesIn hbytes =>
    dsimp only
    split_ifs with hrefused hfails
    · exact .refused
    · exact .refused
    · cases hfound : s.db.publishers.any fun q => q.id = id with
      | true =>
        rw [hfound] at hfails
        simp only [Bool.true_and, Bool.or_eq_true, Bool.not_eq_true', not_or,
          Bool.not_eq_false] at hfails
        exact .written bytesIn hbytes hfound hfails.2
      | false =>
        have hnone : ∀ q ∈ s.db.publishers, decide (q.id = id) = false := by
          simpa using hfound
        rw [updateWhere_of_none hnone]
        exact .refused

inductive PublisherAcquired (db : Db) (p : PublisherRecord) : Db → Bool → Prop
  | refused : PublisherAcquired db p db false
  | acquired (bytesIn : Int64) (hnew : ∀ q ∈ db.publishers, q.id ≠ p.id) :
    PublisherAcquired db p
      { db with
        publishers := db.publishers ++
          [⟨p.id, p.streamId, p.app, p.streamName, bytesIn, p.stats, p.connectedAt, true⟩] } true

theorem publisherTryAcquire_acquired (db : Db) (p : PublisherRecord) (fault : Bool) :
    PublisherAcquired db p (db.publisherTryAcquire p fault).1 (db.publisherTryAcquire p fault).2 := by
  unfold Db.publisherTryAcquire
  split
  case h_1 => exact .refused
  case h_2 bytesIn _ =>
    cases fault with
    | true => exact .refused
    | false =>
      rw [if_neg Bool.false_ne_true]
      by_cases hactive : 0 < db.publishers.countP (Publisher.activeOn p.streamId)
      · rw [if_pos hactive]
        exact .refused
      · rw [if_neg hactive, Db.insertPublisher]
        split_ifs with hrefused
        · exact .refused
        · obtain ⟨hnew, -⟩ := not_or.1 hrefused
          refine .acquired bytesIn fun q hq heq => hnew ?_
          exact any_eq_true.2 ⟨q, hq, decide_eq_true heq⟩

/-! ### Players -/

def Db.uncounted (db : Db) : Db :=
  { db with activePlayerCounts := fun _ => 0, unpersistedPlayerCounts := fun _ => 0 }

theorem uncounted_eq (h : db'.uncounted = db.uncounted) :
    db'.toTables = db.toTables ∧ db'.publishers = db.publishers ∧ db'.players = db.players := by
  simpa [Db.uncounted] using h

inductive PlayerWritten (db : Db) (id : String) (p : PlayerRecord) : Db → Bool → Prop
  | refused {db' : Db} (htables : db'.uncounted = db.uncounted) : PlayerWritten db id p db' false
  | written {db' : Db} (bytesOut : Int64) (hbytes : tryI64 p.bytesOut = some bytesOut)
    (hfound : (db.players.any fun q => q.id = id) = true) (hstream : db.hasStream p.streamId = true)
    (htables : db'.uncounted = Db.uncounted
      { db with
        players := updateWhere (fun q => q.id = id) (Db.updatedPlayer p bytesOut) db.players }) :
    PlayerWritten db id p db' true

theorem uncounted_transitionSlot {db taken : Db} {was : Option String}
    (h : db.transitionSlot was p = some taken) : taken.uncounted = db.uncounted := by
  rcases Db.transitionSlot_eq_some h with ⟨-, htake⟩ | ⟨-, rfl⟩
  · obtain ⟨-, rfl⟩ := Db.playerCountTryIncr_eq_some.1 htake
    rfl
  · rfl

theorem writePlayer_cases (db : Db) (id : String) (p : PlayerRecord) (bytesOut : Int64)
    (fault : Bool) :
    db.writePlayer id p bytesOut fault = none ∨
      ((db.players.any fun q => q.id = id) = true ∧ db.hasStream p.streamId ∧
        db.writePlayer id p bytesOut fault = some { db with
          players := updateWhere (fun q => q.id = id) (Db.updatedPlayer p bytesOut) db.players }) := by
  unfold Db.writePlayer
  split_ifs with h
  · exact .inl rfl
  · simp only [Bool.or_eq_true, Bool.not_eq_true', not_or, Bool.not_eq_false] at h
    exact .inr ⟨h.1.2, h.2, rfl⟩

theorem playerUpdate_written (s : SessionDb) (id : String) (p : PlayerRecord) (fault : Bool) :
    PlayerWritten s.db id p (s.playerUpdate id p fault).1.db (s.playerUpdate id p fault).2 := by
  unfold SessionDb.playerUpdate
  cases hbytes : tryI64 p.bytesOut with
  | none => exact .refused rfl
  | some bytesOut =>
    dsimp only
    by_cases hempty : (p.active && decide (p.viewerId = "")) = true
    · rw [if_pos hempty]
      exact .refused rfl
    · rw [if_neg hempty]
      cases hslot : (s.dropPlayerStats id).db.transitionSlot
          ((s.dropPlayerStats id).db.activeViewer id) p with
      | none => exact .refused rfl
      | some taken =>
        have htables : taken.uncounted = s.db.uncounted := uncounted_transitionSlot hslot
        obtain ⟨hshared, -, hplayers⟩ := uncounted_eq htables
        dsimp only
        rcases writePlayer_cases taken id p bytesOut fault with hnone | ⟨hfound, hstream, hsome⟩
        · rw [hnone]
          refine .refused ?_
          dsimp only
          split_ifs
          · exact htables
          · exact htables
        · rw [hsome]
          rw [hplayers] at hfound ⊢
          rw [Db.hasStream, hshared] at hstream
          refine .written bytesOut hbytes hfound hstream ?_
          have hwritten := congrArg (fun db : Db => { db with
            players := updateWhere (fun q => q.id = id) (Db.updatedPlayer p bytesOut) s.db.players })
            htables
          cases Db.leftViewer _ p
          all_goals exact hwritten

inductive PlayerInserted (db : Db) (p : PlayerRecord) : Db → Bool → Prop
  | refused {db' : Db} (htables : db'.uncounted = db.uncounted) : PlayerInserted db p db' false
  | inserted {db' : Db} (bytesOut : Int64) (hnew : ∀ q ∈ db.players, q.id ≠ p.id)
    (htables : db'.uncounted = Db.uncounted
      { db with
        players := db.players ++
          [⟨p.id, p.streamId, p.viewerId, p.app, p.streamName, bytesOut, p.stats, p.connectedAt,
            true⟩] }) :
    PlayerInserted db p db' true

theorem playerTryAcquire_inserted (db : Db) (p : PlayerRecord) (fault : Bool) :
    PlayerInserted db p (db.playerTryAcquire p fault).1 (db.playerTryAcquire p fault).2 := by
  unfold Db.playerTryAcquire
  by_cases hempty : p.viewerId = ""
  · rw [if_pos hempty]
    exact .refused rfl
  · rw [if_neg hempty]
    cases tryI64 p.bytesOut with
    | none => exact .refused rfl
    | some bytesOut =>
      dsimp only
      cases htake : db.playerCountTryIncr p.viewerId with
      | none => exact .refused rfl
      | some taken =>
        obtain ⟨-, rfl⟩ := Db.playerCountTryIncr_eq_some.1 htake
        dsimp only
        cases hinsert : Db.insertActivePlayer _ p bytesOut fault with
        | none => exact .refused rfl
        | some db' =>
          obtain ⟨-, hnew, -, rfl⟩ := Db.insertActivePlayer_eq_some.1 hinsert
          exact .inserted bytesOut hnew rfl

theorem playerInsertReserved_inserted (db : Db) (p : PlayerRecord) (fault : Bool) :
    PlayerInserted db p (db.playerInsertReserved p fault).1 (db.playerInsertReserved p fault).2 := by
  unfold Db.playerInsertReserved
  cases hinsert : db.insertReserved p fault with
  | none => exact .refused rfl
  | some db' =>
    obtain ⟨bytesOut, -, hinsert⟩ := Option.bind_eq_some_iff.1 hinsert
    obtain ⟨-, hnew, -, rfl⟩ := Db.insertActivePlayer_eq_some.1 hinsert
    exact .inserted bytesOut hnew rfl

theorem uncounted_playerReserve {viewerId : String} (h : db.playerReserve viewerId = some db') :
    db'.uncounted = db.uncounted := by
  unfold Db.playerReserve at h
  split at h
  next => cases h
  next =>
    obtain ⟨taken, htaken, rfl⟩ := Option.map_eq_some_iff.1 h
    obtain ⟨-, rfl⟩ := Db.playerCountTryIncr_eq_some.1 htaken
    rfl

/-! ### The row that is written -/

section RowsOf

variable {db db' : Db} {r : SessionRow} {active ok : Bool}
variable {p : PublisherRecord} {id : String}

/-- A write of one row: it is refused, or leaves the row with this `active`. -/
structure RowWrite (db db' : Db) (r : SessionRow) (active ok : Bool) : Prop where
  toTables : db'.toTables = db.toTables
  others : ∀ x ≠ r, db'.rowsOf x = db.rowsOf x
  unchanged : ok = false → db'.rowsOf r = db.rowsOf r
  written : ok = true → db'.rowActive r = active

theorem rowActive_eq (db : Db) (r : SessionRow) :
    db.rowActive r = ((db.rowsOf r).1.any (·.active) || (db.rowsOf r).2.any (·.active)) := by
  cases r <;> simp [Db.rowActive, Db.rowsOf, any_filter]

theorem rowsOf_congr (htables : db'.uncounted = db.uncounted) : db'.rowsOf r = db.rowsOf r := by
  obtain ⟨-, hpublishers, hplayers⟩ := uncounted_eq htables
  cases r with
  | publisher id => simp only [Db.rowsOf, hpublishers]
  | player id => simp only [Db.rowsOf, hplayers]

theorem rowActive_congr (htables : db'.uncounted = db.uncounted) :
    db'.rowActive r = db.rowActive r := by
  rw [rowActive_eq, rowsOf_congr htables, ← rowActive_eq]

namespace RowWrite

theorem rowActive (h : RowWrite db db' r active ok) (x : SessionRow) :
    db'.rowActive x = if ok = true ∧ x = r then active else db.rowActive x := by
  split_ifs with hx
  · rw [hx.2, h.written hx.1]
  · rw [rowActive_eq db', rowActive_eq db]
    by_cases heq : x = r
    · rw [heq, h.unchanged (Bool.eq_false_iff.2 fun hok => hx ⟨hok, heq⟩)]
    · rw [h.others x heq]

theorem new (h : RowWrite db db' r active ok) {x : SessionRow} (hx : db'.rowActive x) :
    db.rowActive x ∨ (ok ∧ active ∧ x = r) := by
  rw [h.rowActive] at hx
  split_ifs at hx with heq
  · exact .inr ⟨heq.1, hx, heq.2⟩
  · exact .inl hx

theorem old (h : RowWrite db db' r false ok) {x : SessionRow} (hx : db'.rowActive x) :
    db.rowActive x = true :=
  (h.new hx).resolve_right fun hnew => Bool.false_ne_true hnew.2.1

theorem active_iff (h : RowWrite db db' r false true) {x : SessionRow} :
    db'.rowActive x ↔ db.rowActive x ∧ x ≠ r := by
  rw [h.rowActive]
  by_cases hx : x = r
  · simp [hx]
  · simp [hx]

theorem refused (htables : db'.uncounted = db.uncounted) : RowWrite db db' r active false :=
  ⟨(uncounted_eq htables).1, fun _ _ => rowsOf_congr htables, fun _ => rowsOf_congr htables,
    (by cases ·)⟩

theorem done (htables : db'.toTables = db.toTables) (hothers : ∀ x ≠ r, db'.rowsOf x = db.rowsOf x)
    (hwritten : db'.rowActive r = active) : RowWrite db db' r active true :=
  ⟨htables, hothers, (by cases ·), fun _ => hwritten⟩

theorem congr {db'' : Db} (htables : db''.uncounted = db'.uncounted) (h : RowWrite db db' r active ok) :
    RowWrite db db'' r active ok where
  toTables := (uncounted_eq htables).1.trans h.toTables
  others x hx := (rowsOf_congr htables).trans (h.others x hx)
  unchanged hok := (rowsOf_congr htables).trans (h.unchanged hok)
  written hok := (rowActive_congr htables).trans (h.written hok)

end RowWrite

theorem PublisherWritten.rowWrite (h : PublisherWritten db id p db' ok) :
    RowWrite db db' (.publisher id) p.active ok := by
  cases h with
  | refused => exact .refused rfl
  | written bytesIn hbytes hfound hstream =>
    refine .done rfl (fun x hx => ?_) ?_
    · cases x with
      | player x => rfl
      | publisher x =>
        have hx : x ≠ id := fun heq => hx (congrArg _ heq)
        exact congrArg (·, []) (filter_updateWhere Publisher.id
          (f := SessionDb.updatedPublisher p bytesIn) (fun _ => rfl) db.publishers hx)
    · rw [Db.rowActive, any_updatedPublisher, if_pos rfl, hfound, Bool.and_true]

theorem PublisherAcquired.rowWrite (h : PublisherAcquired db p db' ok) :
    RowWrite db db' (.publisher p.id) true ok := by
  cases h with
  | refused => exact .refused rfl
  | acquired bytesIn hnew =>
    refine .done rfl (fun x hx => ?_) (by simp [Db.rowActive])
    cases x with
    | player x => rfl
    | publisher x =>
      have hx : ¬ p.id = x := fun heq => hx (congrArg _ heq.symm)
      simp [Db.rowsOf, filter_append, hx]

theorem PlayerWritten.rowWrite {p : PlayerRecord} (h : PlayerWritten db id p db' ok) :
    RowWrite db db' (.player id) p.active ok := by
  cases h with
  | refused htables => exact .refused htables
  | written bytesOut hbytes hfound hstream htables =>
    refine .congr htables (.done rfl (fun x hx => ?_) ?_)
    · cases x with
      | publisher x => rfl
      | player x =>
        have hx : x ≠ id := fun heq => hx (congrArg _ heq)
        exact congrArg ([], ·) (filter_updateWhere Player.id (f := Db.updatedPlayer p bytesOut)
          (fun _ => rfl) db.players hx)
    · rw [Db.rowActive, any_updatedPlayer, if_pos rfl, hfound, Bool.and_true]

theorem PlayerInserted.rowWrite {p : PlayerRecord} (h : PlayerInserted db p db' ok) :
    RowWrite db db' (.player p.id) true ok := by
  cases h with
  | refused htables => exact .refused htables
  | inserted bytesOut hnew htables =>
    refine .congr htables (.done rfl (fun x hx => ?_) (by simp [Db.rowActive]))
    cases x with
    | publisher x => rfl
    | player x =>
      have hx : ¬ p.id = x := fun heq => hx (congrArg _ heq.symm)
      simp [Db.rowsOf, filter_append, hx]

theorem PublisherWritten.rowsOf_self (h : PublisherWritten db id p db' true) :
    ∃ bytesIn, tryI64 p.bytesIn = some bytesIn ∧ db.hasStream p.streamId ∧
      (db.rowsOf (.publisher id)).1 ≠ [] ∧
      (db'.rowsOf (.publisher id)).1 =
        (db.rowsOf (.publisher id)).1.map (SessionDb.updatedPublisher p bytesIn) := by
  cases h with
  | written bytesIn hbytes hfound hstream =>
    refine ⟨bytesIn, hbytes, hstream, ?_, ?_⟩
    · obtain ⟨q, hq, hid⟩ := any_eq_true.1 hfound
      exact ne_nil_of_mem (mem_filter.2 ⟨hq, hid⟩)
    · exact filter_updateWhere_self Publisher.id (f := SessionDb.updatedPublisher p bytesIn)
        (fun _ => rfl) db.publishers id

theorem PlayerWritten.rowsOf_self {p : PlayerRecord} (h : PlayerWritten db id p db' true) :
    ∃ bytesOut, tryI64 p.bytesOut = some bytesOut ∧ db.hasStream p.streamId ∧
      (db.rowsOf (.player id)).2 ≠ [] ∧
      (db'.rowsOf (.player id)).2 =
        (db.rowsOf (.player id)).2.map (Db.updatedPlayer p bytesOut) := by
  cases h with
  | written bytesOut hbytes hfound hstream htables =>
    refine ⟨bytesOut, hbytes, hstream, ?_, ?_⟩
    · obtain ⟨q, hq, hid⟩ := any_eq_true.1 hfound
      exact ne_nil_of_mem (mem_filter.2 ⟨hq, hid⟩)
    · rw [rowsOf_congr htables]
      exact filter_updateWhere_self Player.id (f := Db.updatedPlayer p bytesOut)
        (fun _ => rfl) db.players id

/-! ### Unique ids and counts -/

theorem PublisherWritten.players (h : PublisherWritten db id p db' ok) :
    db'.players = db.players := by
  cases h <;> rfl

theorem PublisherAcquired.players (h : PublisherAcquired db p db' ok) :
    db'.players = db.players := by
  cases h <;> rfl

theorem PublisherWritten.counted (h : PublisherWritten db id p db' ok) (hc : db.Counted none) :
    db'.Counted none := by
  cases h <;> exact hc

theorem PlayerWritten.unique {p : PlayerRecord} (h : PlayerWritten db id p db' ok)
    (hu : UniqueOn (·.id) db.players) : UniqueOn (·.id) db'.players := by
  cases h with
  | refused htables => rwa [(uncounted_eq htables).2.2]
  | written bytesOut _ _ _ htables =>
    rw [(uncounted_eq htables).2.2]
    exact hu.updateWhere _ fun _ => rfl

theorem PlayerInserted.unique {p : PlayerRecord} (h : PlayerInserted db p db' ok)
    (hu : UniqueOn (·.id) db.players) : UniqueOn (·.id) db'.players := by
  cases h with
  | refused htables => rwa [(uncounted_eq htables).2.2]
  | inserted bytesOut hnew htables =>
    rw [(uncounted_eq htables).2.2]
    exact hu.append hnew

theorem counted_playerUpdate {s : SessionDb} (hu : UniqueOn (·.id) s.db.players)
    (h : s.db.Counted none) (id : String) (p : PlayerRecord) (fault : Bool) :
    (s.playerUpdate id p fault).1.db.Counted none := by
  let alone : PlayerCounts := ⟨s, none, none, s.db.unpersistedPlayerCounts⟩
  have hbooks : alone.Books := ⟨hu, nofun, fun _ => rfl, h⟩
  obtain ⟨ops, -, hrun⟩ := alone.playerUpdate_steps rfl id p fault
  exact (Lib.Replay.replay_inv (fun _ _ _ _ hs hstep => hs.step hstep) hbooks hrun).balanced

end RowsOf

end RtmpServer
