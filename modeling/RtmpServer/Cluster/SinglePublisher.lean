import RtmpServer.Cluster.Node
import RtmpServer.Cluster.Sessions
import RtmpServer.Db.SessionRows

/-!
# One active publisher per stream

Nothing in the schema keeps two rows of `publishers` from being active on one stream. The code does:
a row becomes active only after a count, in the same section of the connection lock, has found no
other. Everything else that writes the table only lowers it (`Lowers`).
-/

namespace RtmpServer

open List Lib.Table Lib.Replay Function

def SingleActive (publishers : List Publisher) : Prop :=
  ∀ streamId, publishers.countP (Publisher.activeOn streamId) ≤ 1

/-- With the `PRIMARY KEY` of the table. -/
structure PublishersOk (publishers : List Publisher) : Prop where
  unique : UniqueOn (·.id) publishers
  single : SingleActive publishers

/-- `l'` has rows of `l`, changed in a way that makes none active, or active elsewhere. -/
def Lowers (l l' : List Publisher) : Prop :=
  ∃ f : Publisher → Publisher, (∀ p, (f p).id = p.id) ∧
    (∀ p ∈ l, (f p).active = true → p.active = true ∧ (f p).streamId = p.streamId) ∧
    l'.Sublist (l.map f)

variable {l l' : List Publisher}

theorem Lowers.refl (l : List Publisher) : Lowers l l :=
  ⟨id, fun _ => rfl, fun _ _ h => ⟨h, rfl⟩, by rw [map_id]⟩

theorem Lowers.of_sublist (h : l'.Sublist l) : Lowers l l' :=
  ⟨id, fun _ => rfl, fun _ _ h => ⟨h, rfl⟩, by rwa [map_id]⟩

theorem Lowers.of_updateWhere {q : Publisher → Bool} {f : Publisher → Publisher}
    (hid : ∀ p, (f p).id = p.id)
    (hact : ∀ p ∈ l, q p → (f p).active →
      p.active ∧ (f p).streamId = p.streamId) : Lowers l (updateWhere q f l) := by
  refine ⟨fun p => if q p then f p else p, fun p => ?_, fun p hp h => ?_, List.Sublist.refl _⟩
  · dsimp only
    by_cases hq : q p = true
    · rw [if_pos hq, hid]
    · rw [if_neg hq]
  · dsimp only at h ⊢
    by_cases hq : q p = true
    · rw [if_pos hq] at h ⊢
      exact hact p hp hq h
    · rw [if_neg hq] at h ⊢
      exact ⟨h, rfl⟩

theorem PublishersOk.lowers (h : PublishersOk l) (hl : Lowers l l') : PublishersOk l' := by
  obtain ⟨f, hid, hact, hsub⟩ := hl
  refine ⟨(h.unique.map_of_key hid).sublist hsub, fun streamId => ?_⟩
  calc l'.countP (Publisher.activeOn streamId)
      ≤ (l.map f).countP (Publisher.activeOn streamId) := hsub.countP_le
    _ = l.countP (Publisher.activeOn streamId ∘ f) := countP_map
    _ ≤ l.countP (Publisher.activeOn streamId) := by
        refine countP_mono_left fun p hp hon => ?_
        obtain ⟨hs, ha⟩ := of_decide_eq_true hon
        obtain ⟨ha', hs'⟩ := hact p hp ha
        exact decide_eq_true ⟨hs'.symm.trans hs, ha'⟩
    _ ≤ 1 := h.single streamId

/-! ### Rows that become active -/

theorem PublishersOk.insert (h : PublishersOk l) {p : Publisher} (hid : ∀ q ∈ l, q.id ≠ p.id)
    (hnone : l.countP (Publisher.activeOn p.streamId) = 0) : PublishersOk (l ++ [p]) := by
  refine ⟨h.unique.append hid, fun streamId => ?_⟩
  rw [countP_append, countP_singleton]
  by_cases hon : p.activeOn streamId = true
  · obtain ⟨rfl, -⟩ := of_decide_eq_true hon
    rw [if_pos hon, hnone]
  · rw [if_neg hon]
    exact h.single streamId

theorem PublishersOk.countP_id (h : PublishersOk l) (id : String) :
    l.countP (fun q => q.id = id) ≤ 1 := by
  have hcount := nodup_iff_count_le_one.1 h.unique id
  rw [count, countP_map] at hcount
  refine le_trans (countP_mono_left fun q _ hq => ?_) hcount
  exact beq_iff_eq.2 (of_decide_eq_true hq)

theorem PublishersOk.activate (h : PublishersOk l) {id streamId : String}
    {f : Publisher → Publisher} (hid : ∀ p, (f p).id = p.id)
    (hstream : ∀ p, (f p).streamId = streamId)
    (hother : l.countP (fun q => q.activeOn streamId && q.id != id) = 0) :
    PublishersOk (updateWhere (fun q => q.id = id) f l) := by
  refine ⟨h.unique.updateWhere _ hid, fun s => ?_⟩
  rw [updateWhere, countP_map]
  by_cases hs : s = streamId
  · subst hs
    refine le_trans (countP_mono_left fun q hq hon => ?_) (h.countP_id id)
    -- a row that counts now is `id`, for no other was active on the stream
    by_contra hne
    rw [comp, if_neg hne] at hon
    refine countP_eq_zero.1 hother q hq (Bool.and_eq_true_iff.2 ⟨hon, ?_⟩)
    exact bne_iff_ne.2 fun heq => hne (decide_eq_true heq)
  · refine le_trans (countP_mono_left fun q hq hon => ?_) (h.single s)
    by_cases hqid : decide (q.id = id) = true
    · rw [comp, if_pos hqid] at hon
      exact absurd ((of_decide_eq_true hon).1.symm.trans (hstream q)) hs
    · rwa [comp, if_neg hqid] at hon

/-! ### The operations -/

theorem publisherTryAcquire_ok {db : Db} (h : PublishersOk db.publishers) (p : PublisherRecord)
    (fault : Bool) : PublishersOk (db.publisherTryAcquire p fault).1.publishers := by
  unfold Db.publisherTryAcquire
  split
  case h_1 => exact h
  case h_2 bytesIn _ =>
    cases fault with
    | true => exact h
    | false =>
      rw [if_neg Bool.false_ne_true]
      by_cases hactive : 0 < db.publishers.countP (Publisher.activeOn p.streamId)
      · rw [if_pos hactive]
        exact h
      · rw [if_neg hactive, Db.insertPublisher]
        split_ifs with hrefused
        · exact h
        · obtain ⟨hnew, -⟩ := not_or.1 hrefused
          refine h.insert (fun q hq heq => hnew ?_) (Nat.eq_zero_of_not_pos hactive)
          exact any_eq_true.2 ⟨q, hq, decide_eq_true heq⟩

theorem writePublisherStats_lowers (db : Db) (id : String) (p : PublisherRecord) :
    Lowers db.publishers (db.writePublisherStats id p).publishers := by
  unfold Db.writePublisherStats
  split
  case h_1 => exact .refl _
  case h_2 => exact .of_updateWhere (fun _ => rfl) fun _ _ _ hact => ⟨hact, rfl⟩

theorem publisherUpdate_ok {s : SessionDb} (h : PublishersOk s.db.publishers) (id : String)
    (p : PublisherRecord) (fault : UpdateFaults) :
    PublishersOk (s.publisherUpdate id p fault).1.db.publishers := by
  unfold SessionDb.publisherUpdate
  split
  case h_1 => exact h
  case h_2 bytesIn _ =>
    dsimp only
    split_ifs with hrefused hfails
    · exact h
    · exact h
    · show PublishersOk (updateWhere _ _ s.db.publishers)
      cases hact : p.active with
      | false =>
        refine h.lowers (.of_updateWhere (fun _ => rfl) fun q _ _ hq => ?_)
        rw [SessionDb.updatedPublisher, hact] at hq
        cases hq
      | true =>
        rw [hact, Bool.true_and] at hrefused
        cases htrans : SessionDb.isTransition s.db id p fault.current with
        | true =>
          -- the count found no other active row
          rw [htrans, Bool.true_and, Bool.or_eq_true, not_or, SessionDb.otherActive,
            decide_eq_true_eq, Nat.pos_iff_ne_zero, not_not] at hrefused
          exact h.activate (fun _ => rfl) (fun _ => rfl) hrefused.2
        | false =>
          -- the row is already active on this stream
          refine h.lowers (.of_updateWhere (fun _ => rfl) fun q hq hqid _ => ?_)
          have hqid : q.id = id := of_decide_eq_true hqid
          unfold SessionDb.isTransition at htrans
          split at htrans
          case h_2 => cases htrans
          case h_1 r hr =>
            cases hfault : fault.current with
            | true =>
              rw [hfault, if_pos rfl] at hr
              cases hr
            | false =>
              rw [hfault, if_neg Bool.false_ne_true] at hr
              have hrq : q = r :=
                h.unique.eq_of_key hq (mem_of_lookup hr) (hqid.trans (key_of_lookup hr).symm)
              rw [Bool.not_eq_false', Bool.and_eq_true_iff, beq_iff_eq, ← hrq] at htrans
              exact ⟨htrans.1, htrans.2.symm⟩

theorem flushPendingStats_ok {s : SessionDb} (h : PublishersOk s.db.publishers)
    (newer : PendingStats) (fault : Bool) :
    PublishersOk (s.flushPendingStats newer fault).db.publishers := by
  unfold SessionDb.flushPendingStats
  cases fault with
  | true => exact h
  | false =>
    rw [if_neg Bool.false_ne_true]
    have hplayers : ∀ (es : List (Sigma fun _ : String => PlayerRecord)) (db : Db),
        (es.foldl (fun db e => db.writePlayerStats e.1 e.2) db).publishers = db.publishers := by
      intro es
      induction es with
      | nil => exact fun _ => rfl
      | cons e es ih =>
        intro db
        rw [foldl_cons, ih, Db.writePlayerStats]
        split <;> rfl
    have hpubs : ∀ (es : List (Sigma fun _ : String => PublisherRecord)) (db : Db),
        PublishersOk db.publishers →
          PublishersOk (es.foldl (fun db e => db.writePublisherStats e.1 e.2) db).publishers := by
      intro es
      induction es with
      | nil => exact fun _ hdb => hdb
      | cons e es ih => exact fun db hdb => ih _ (hdb.lowers (writePublisherStats_lowers db e.1 e.2))
    dsimp only
    rw [hplayers]
    exact hpubs _ _ h

theorem SessionDb.run_ok {s : SessionDb} (h : PublishersOk s.db.publishers) (op : SessionsOp) :
    PublishersOk (s.run op).db.publishers := by
  cases op with
  | publisherTryAcquire p fault => exact publisherTryAcquire_ok h p fault
  | publisherUpdate id p fault => exact publisherUpdate_ok h id p fault
  | publisherUpdateStats id p fault =>
    cases fault with
    | true => exact h
    | false => exact h.lowers (writePublisherStats_lowers s.db id p)
  | queuePublisherStats id p => exact h
  | queuePlayerStats id p => exact h
  | flushPendingStats newer fault => exact flushPendingStats_ok h newer fault
  | players rows active unpersisted => exact h

theorem SessionDb.batch_ok {s : SessionDb} (h : PublishersOk s.db.publishers) (ops : List SessionsOp)
    (begun committed : Bool) : PublishersOk (s.batch ops begun committed).db.publishers := by
  have hrun : ∀ s : SessionDb, PublishersOk s.db.publishers →
      PublishersOk (ops.foldl SessionDb.run s).db.publishers := by
    induction ops with
    | nil => exact fun _ hs => hs
    | cons op ops ih => exact fun s hs => ih _ (SessionDb.run_ok hs op)
  unfold SessionDb.batch
  dsimp only
  split_ifs
  · -- the rollback brings back the rows from before the group
    exact h
  · exact hrun s h

/-! ### Deletions, log entries, snapshots and restarts -/

theorem streamDeleteIfPending_lowers (db : Db) (id : String) :
    Lowers db.publishers (db.streamDeleteIfPending id).1.publishers := by
  unfold Db.streamDeleteIfPending
  dsimp only
  split_ifs
  · exact .of_sublist filter_sublist
  · exact .refl _

theorem applyEntry_lowers (db : Db) (e : Entry) :
    Lowers db.publishers (applyEntry db e).db.publishers := by
  cases applyEntry_sessions db e with
  | finalize id _ hdb =>
    rw [hdb]
    exact streamDeleteIfPending_lowers db id
  | revoke streamId viewerId _ hdb =>
    rw [hdb, deleteViewer_publishers]
    exact .refl _
  | keep _ _ hpub _ =>
    rw [hpub]
    exact .refl _

theorem replay_insertOwner_publishers {d d' : Db} {owners : List StreamOwner}
    (h : replay (fun d o => d.insertOwner o.toRow) d owners = some d') :
    d'.publishers = d.publishers := by
  refine replay_inv (P := fun e => e.publishers = d.publishers) (fun s o s' _ hs hstep => ?_) rfl h
  obtain ⟨-, -, rfl⟩ := Db.insertOwner_eq_some.1 hstep
  exact hs

theorem installAppSnapshot_lowers {db d : Db} {snap : AppSnapshot} {effects : List StateEffect}
    (h : installAppSnapshot db snap = some (d, effects)) : Lowers db.publishers d.publishers := by
  obtain ⟨d₃, hrows, heq⟩ := Option.map_eq_some_iff.1 h
  obtain ⟨d₁, -, hrows⟩ := Option.bind_eq_some_iff.1 hrows
  obtain ⟨d₂, -, hrows⟩ := Option.bind_eq_some_iff.1 hrows
  obtain ⟨d₄, howners, rfl⟩ := Option.map_eq_some_iff.1 hrows
  obtain ⟨rfl, -⟩ := Prod.mk.inj heq
  rw [foldl_deactivate_publishers]
  dsimp only
  rw [replay_insertOwner_publishers howners]
  exact ⟨fun p => { p with bytesIn := reinsertedBytes p.bytesIn }, fun _ => rfl,
    fun _ _ hact => ⟨hact, rfl⟩, filter_sublist.map _⟩

/-- What a node does to its database, one section of the connection lock each. -/
inductive DatabaseOp where
  | sessions (op : SessionsOp)
  | batch (ops : List SessionsOp) (begun committed : Bool)
  | streamDelete (id : String) (fault : Bool)
  | streamDeleteIfPending (id : String) (fault : Bool)
  | apply (e : Entry)
  | installSnapshot (snap : AppSnapshot)
  | reopen (publishersCleared playersCleared : Bool)

/-- `Db::open` on the file. It goes on when one of the two statements that end the sessions of the
previous process fails. -/
def SessionDb.reopen (s : SessionDb) (publishersCleared playersCleared : Bool) : SessionDb where
  db := { s.db.reopen with
    publishers := if publishersCleared then s.db.reopen.publishers else s.db.publishers
    players := if playersCleared then s.db.reopen.players else s.db.players }
  pending := ⟨∅, ∅⟩

def SessionDb.step (s : SessionDb) : DatabaseOp → SessionDb
  | .sessions op => s.run op
  | .batch ops begun committed => s.batch ops begun committed
  | .streamDelete id fault => { s with db := s.db.streamDelete id fault }
  | .streamDeleteIfPending id fault =>
    if fault then s else { s with db := (s.db.streamDeleteIfPending id).1 }
  | .apply e => { s with db := (applyEntry s.db e).db }
  | .installSnapshot snap =>
    match installAppSnapshot s.db snap with
    | some r => { s with db := r.1 }
    | none => s
  | .reopen publishersCleared playersCleared => s.reopen publishersCleared playersCleared

theorem SessionDb.step_ok {s : SessionDb} (h : PublishersOk s.db.publishers) (op : DatabaseOp) :
    PublishersOk (s.step op).db.publishers := by
  cases op with
  | sessions op => exact SessionDb.run_ok h op
  | batch ops begun committed => exact SessionDb.batch_ok h ops begun committed
  | streamDelete id fault =>
    cases fault with
    | true => exact h
    | false => exact h.lowers (.of_sublist filter_sublist)
  | streamDeleteIfPending id fault =>
    cases fault with
    | true => exact h
    | false => exact h.lowers (streamDeleteIfPending_lowers s.db id)
  | apply e => exact h.lowers (applyEntry_lowers s.db e)
  | installSnapshot snap =>
    rw [SessionDb.step]
    split
    case h_1 r hr => exact h.lowers (installAppSnapshot_lowers hr)
    case h_2 => exact h
  | reopen publishersCleared playersCleared =>
    cases publishersCleared with
    | false => exact h
    | true =>
      refine h.lowers (.of_updateWhere (fun _ => rfl) fun p _ _ hact => ?_)
      cases hact

/-- **One active publisher per stream**, from any database that has it, after any sections of the
connection lock. -/
theorem single_active_publisher (d : Database) (hd : SingleActive d.db.publishers)
    (pending : PendingStats) (ops : List DatabaseOp) :
    SingleActive (ops.foldl SessionDb.step ⟨d.db, pending⟩).db.publishers := by
  suffices h : ∀ s : SessionDb, PublishersOk s.db.publishers →
      PublishersOk (ops.foldl SessionDb.step s).db.publishers from
    (h ⟨d.db, pending⟩ ⟨d.schemaOk.publisherId, hd⟩).single
  induction ops with
  | nil => exact fun _ hs => hs
  | cons op ops ih => exact fun s hs => ih _ (SessionDb.step_ok hs op)

def camPublisher (id : String) : PublisherRecord := ⟨id, "cam", "live", "Camera", 0, {}, 0, true⟩

/-- A second publisher is refused, then the first is released and the second admitted in a group
whose commit fails, and the first comes back. -/
def contendedOps : List DatabaseOp :=
  [.apply ⟨⟨1, 1, 1⟩, .normal (.createStream ⟨"cam", "Camera", "live", "p", "v", "s", true, 0⟩
      ⟨"w", "cam", "viewer", "v", true, 0⟩ "")⟩,
    .sessions (.publisherTryAcquire (camPublisher "a") false),
    .sessions (.publisherTryAcquire (camPublisher "b") false),
    .batch [.publisherUpdate "a" { camPublisher "a" with active := false } ⟨false, false, false⟩,
      .publisherTryAcquire (camPublisher "b") false] true false,
    .sessions (.publisherUpdate "a" (camPublisher "a") ⟨false, false, false⟩)]

theorem single_active_publisher_contended :
    SingleActive Db.empty.publishers ∧
      SingleActive (contendedOps.foldl SessionDb.step ⟨Db.empty, ⟨∅, ∅⟩⟩).db.publishers ∧
      (contendedOps.foldl SessionDb.step ⟨Db.empty, ⟨∅, ∅⟩⟩).db.publishers =
        [⟨"a", "cam", "live", "Camera", 0, {}, 0, true⟩] :=
  ⟨fun _ => Nat.zero_le 1,
    single_active_publisher ⟨Db.empty, SchemaOk.empty⟩ (fun _ => Nat.zero_le 1) ⟨∅, ∅⟩ contendedOps,
    by decide⟩

end RtmpServer
