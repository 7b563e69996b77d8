import RtmpServer.Cluster.StorageErrors
import RtmpServer.Cluster.Snapshot

/-!
# Local sessions across a snapshot

A node that falls behind catches up by replaying entries or by installing a snapshot. A replay ends
sessions on the way: `FinalizeDeleteStream` cascades to the rows of the stream, `DeleteViewer`
deactivates the viewer's players. An install sees only the final tables, and keeps a session when
its stream, and for a player its viewer, is in them. A stream or viewer that was deleted and created
again under its id is where the two part.
-/

namespace RtmpServer

open List Lib.Table Lib.Replay

variable {db : Db} {p : Player} {streamId viewerId : String} {cmd : ClusterCommand}
  {es : List Entry} {e : Entry} {c : Change}

/-! ### What an entry ends -/

/-- The checks of `DeleteViewer` pass: the viewer is there, is not the last of its stream and does
not hold the stream's play key. -/
def Db.viewerDeletable (db : Db) (streamId viewerId : String) : Bool :=
  let viewers := db.viewerList streamId
  viewers.any (fun v => v.id = viewerId) && viewers.length != 1 &&
    !(db.streamGet streamId).any fun stream =>
      viewers.any fun v => v.id = viewerId ∧ v.playKey = stream.playKey

def Finalizes (id : String) (db : Db) (e : Entry) : Prop :=
  e.payload = .normal (.finalizeDeleteStream id) ∧ db.PendingStream id

def Revokes (viewerId : String) (db : Db) (e : Entry) : Prop :=
  ∃ streamId, e.payload = .normal (.deleteViewer streamId viewerId) ∧
    db.viewerDeletable streamId viewerId = true

def Change.EndsSessions : Change → Prop
  | .deleteStream _ | .deactivatePlayers _ => True
  | _ => False

theorem Change.sessions_run {db db' : Db} (hc : ¬ c.EndsSessions) (h : c.run db = some db') :
    db'.publishers = db.publishers ∧ db'.players = db.players := by
  cases c with
  | insertStream s token =>
    obtain ⟨-, rfl⟩ := Db.insertStream_eq_some.1 h
    exact ⟨rfl, rfl⟩
  | insertViewer v =>
    obtain ⟨-, -, rfl⟩ := Db.insertViewer_eq_some.1 h
    exact ⟨rfl, rfl⟩
  | insertOwner o =>
    obtain ⟨-, -, rfl⟩ := Db.insertOwner_eq_some.1 h
    exact ⟨rfl, rfl⟩
  | deleteStream id => exact absurd trivial hc
  | deactivatePlayers viewerId => exact absurd trivial hc
  | _ =>
    cases h
    exact ⟨rfl, rfl⟩

theorem ClusterCommand.Makes.endsSessions {index : UInt64} (h : cmd.Makes index c)
    (hc : c.EndsSessions) :
    (∃ id, cmd = .finalizeDeleteStream id) ∨ ∃ s v, cmd = .deleteViewer s v := by
  cases cmd with
  | finalizeDeleteStream id => exact .inl ⟨id, rfl⟩
  | deleteViewer s v => exact .inr ⟨s, v, rfl⟩
  | createStream s v token => rcases h with rfl | rfl <;> cases hc
  | acquireStreamOwner s n ep a => rcases h with rfl | rfl <;> cases hc
  | seedFromStandalone streams viewers tokens apiToken pending =>
    rcases h with ⟨_, _, rfl⟩ | ⟨_, _, rfl⟩ | ⟨_, _, rfl⟩ | ⟨_, _, rfl⟩ <;> cases hc
  | _ => cases h; cases hc

theorem applyNormal_sessions (index : UInt64) (hf : ∀ id, cmd ≠ .finalizeDeleteStream id)
    (hd : ∀ s v, cmd ≠ .deleteViewer s v) :
    (applyNormal index db cmd).db.publishers = db.publishers ∧
      (applyNormal index db cmd).db.players = db.players := by
  have hI : ∀ d c d', cmd.Makes index c →
      (d.publishers = db.publishers ∧ d.players = db.players) → c.run d = some d' →
        d'.publishers = db.publishers ∧ d'.players = db.players := by
    intro d c d' hc hd' hrun
    have hrun := Change.sessions_run (fun hends => ?_) hrun
    · exact ⟨hrun.1.trans hd'.1, hrun.2.trans hd'.2⟩
    · rcases hc.endsSessions hends with ⟨id, rfl⟩ | ⟨s, v, rfl⟩
      · exact hf id rfl
      · exact hd s v rfl
  exact (applyNormal_reaches index db cmd).inv hI ⟨rfl, rfl⟩

theorem streamDeleteIfPending_sessions (db : Db) (id : String) :
    (∀ p, p ∈ (db.streamDeleteIfPending id).1.publishers ↔
      p ∈ db.publishers ∧ ¬ (p.streamId = id ∧ db.PendingStream id)) ∧
    ∀ p, p ∈ (db.streamDeleteIfPending id).1.players ↔
      p ∈ db.players ∧ ¬ (p.streamId = id ∧ db.PendingStream id) := by
  have hpend : db.streams.any (fun r => decide (r.id = id ∧ r.pendingDelete = true)) = true ↔
      db.PendingStream id := by simp [Db.PendingStream]
  unfold Db.streamDeleteIfPending
  dsimp only
  by_cases h : db.PendingStream id
  · rw [if_pos (hpend.2 h)]
    simp [h]
  · rw [if_neg fun hany => h (hpend.1 hany)]
    simp [h]

theorem viewerDelete_found (db : Db) (streamId viewerId : String) :
    (db.viewerDelete streamId viewerId).2 =
      (db.viewerList streamId).any fun v => v.id = viewerId := by
  have hperm : (db.viewerList streamId).Perm (db.viewers.filter fun v => v.streamId = streamId) :=
    perm_insertionSort _ _
  rw [any_perm hperm, any_filter]
  show db.viewers.any _ = db.viewers.any _
  congr 1
  funext v
  rw [Bool.decide_and]

theorem deleteViewer_of_deletable (h : db.viewerDeletable streamId viewerId) :
    (deleteViewer db streamId viewerId).db =
      (db.viewerDelete streamId viewerId).1.playersDeactivateForViewer viewerId := by
  simp only [Db.viewerDeletable, Bool.and_eq_true, bne_iff_ne, Bool.not_eq_true'] at h
  obtain ⟨⟨hany, hlen⟩, hdef⟩ := h
  rw [← viewerDelete_found] at hany
  unfold deleteViewer
  dsimp only
  rw [if_neg fun hlast => hlen hlast.1, if_neg (Bool.eq_false_iff.1 hdef)]
  rcases hd : db.viewerDelete streamId viewerId with ⟨db', found⟩
  rw [hd] at hany
  cases hany
  rfl

theorem deleteViewer_of_not_deletable (h : db.viewerDeletable streamId viewerId = false) :
    (deleteViewer db streamId viewerId).db = db := by
  rcases deleteViewer_cases db streamId viewerId with hd | hd | ⟨hany, hd⟩
  · rw [hd]
  · rw [hd]
  · -- the viewer is there, so one of the other two checks fails, with a conflict
    rw [viewerDelete_found] at hany
    simp only [Db.viewerDeletable, hany, Bool.true_and, Bool.and_eq_false_iff, bne_eq_false_iff_eq,
      Bool.not_eq_false'] at h
    unfold deleteViewer
    dsimp only
    rcases h with hlen | hdef
    · rw [if_pos ⟨hlen, hany⟩]
    · split_ifs
      · rfl
      · rfl

theorem deleteViewer_publishers (db : Db) (streamId viewerId : String) :
    (deleteViewer db streamId viewerId).db.publishers = db.publishers := by
  cases h : db.viewerDeletable streamId viewerId with
  | true =>
    rw [deleteViewer_of_deletable h]
    rfl
  | false => rw [deleteViewer_of_not_deletable h]

theorem mem_playersDeactivate {viewerId : String} :
    p ∈ (db.playersDeactivateForViewer viewerId).players ∧ p.active ↔
      (p ∈ db.players ∧ p.active) ∧ p.viewerId ≠ viewerId := by
  constructor
  · rintro ⟨hp, hact⟩
    obtain ⟨q, hq, rfl⟩ := mem_updateWhere.1 hp
    split_ifs at hact ⊢ with hv
    simp only [decide_eq_true_eq, not_and] at hv
    exact ⟨⟨hq, hact⟩, fun heq => hv heq hact⟩
  · rintro ⟨⟨hp, hact⟩, hne⟩
    exact ⟨mem_updateWhere.2 ⟨p, hp, by simp [hne]⟩, hact⟩

inductive SessionStep (db : Db) (e : Entry) : Prop
  | finalize (id : String) (hp : e.payload = .normal (.finalizeDeleteStream id))
      (hdb : (applyEntry db e).db = (db.streamDeleteIfPending id).1)
  | revoke (streamId viewerId : String) (hp : e.payload = .normal (.deleteViewer streamId viewerId))
      (hdb : (applyEntry db e).db = (deleteViewer db streamId viewerId).db)
  | keep (hf : ∀ id, ¬ Finalizes id db e) (hr : ∀ viewerId, ¬ Revokes viewerId db e)
      (hpub : (applyEntry db e).db.publishers = db.publishers)
      (hplay : (applyEntry db e).db.players = db.players)

theorem applyEntry_sessions (db : Db) (e : Entry) : SessionStep db e := by
  by_cases hf : ∃ id, e.payload = .normal (.finalizeDeleteStream id)
  · obtain ⟨id, hp⟩ := hf
    refine .finalize id hp ?_
    unfold applyEntry
    rw [hp]
    exact finalizeDeleteStream_db _ db id
  · by_cases hd : ∃ s v, e.payload = .normal (.deleteViewer s v)
    · obtain ⟨s, v, hp⟩ := hd
      refine .revoke s v hp ?_
      unfold applyEntry
      rw [hp]
      rfl
    · have hsame : (applyEntry db e).db.publishers = db.publishers ∧
          (applyEntry db e).db.players = db.players := by
        unfold applyEntry
        cases hp : e.payload with
        | blank => exact ⟨rfl, rfl⟩
        | membership m => exact ⟨rfl, rfl⟩
        | normal cmd =>
          refine applyNormal_sessions _ (fun id hcmd => hf ⟨id, ?_⟩) fun s v hcmd => hd ⟨s, v, ?_⟩
          · rw [hp, hcmd]
          · rw [hp, hcmd]
      exact .keep (fun id h => hf ⟨id, h.1⟩) (fun v ⟨s, h, _⟩ => hd ⟨s, v, h⟩) hsame.1 hsame.2

theorem finalizes_iff {id id' : String} (hp : e.payload = .normal (.finalizeDeleteStream id)) :
    Finalizes id' db e ↔ id' = id ∧ db.PendingStream id := by
  rw [Finalizes, hp, EntryPayload.normal.injEq, ClusterCommand.finalizeDeleteStream.injEq]
  constructor
  · rintro ⟨rfl, h⟩
    exact ⟨rfl, h⟩
  · rintro ⟨rfl, h⟩
    exact ⟨rfl, h⟩

theorem mem_publishers_applyEntry {p : Publisher} :
    p ∈ (applyEntry db e).db.publishers ↔ p ∈ db.publishers ∧ ¬ Finalizes p.streamId db e := by
  cases applyEntry_sessions db e with
  | finalize id hp hdb => rw [hdb, (streamDeleteIfPending_sessions db id).1, finalizes_iff hp]
  | revoke s v hp hdb =>
    have hnf : ¬ Finalizes p.streamId db e := by
      rintro ⟨hp', -⟩
      rw [hp] at hp'
      cases hp'
    rw [hdb, deleteViewer_publishers]
    simp [hnf]
  | keep hf _ hpub _ =>
    rw [hpub]
    simp [hf p.streamId]

theorem mem_players_applyEntry :
    p ∈ (applyEntry db e).db.players ∧ p.active ↔
      (p ∈ db.players ∧ p.active) ∧
        ¬ (Finalizes p.streamId db e ∨ Revokes p.viewerId db e) := by
  cases applyEntry_sessions db e with
  | finalize id hp hdb =>
    have hnr : ¬ Revokes p.viewerId db e := by
      rintro ⟨s, hp', -⟩
      rw [hp] at hp'
      cases hp'
    rw [hdb, (streamDeleteIfPending_sessions db id).2, finalizes_iff hp, or_iff_left hnr]
    tauto
  | revoke s v hp hdb =>
    have hnf : ¬ Finalizes p.streamId db e := by
      rintro ⟨hp', -⟩
      rw [hp] at hp'
      cases hp'
    have hrev : Revokes p.viewerId db e ↔ p.viewerId = v ∧ db.viewerDeletable s v = true := by
      constructor
      · rintro ⟨s', hp', hdel⟩
        rw [hp] at hp'
        cases hp'
        exact ⟨rfl, hdel⟩
      · rintro ⟨rfl, hdel⟩
        exact ⟨s, hp, hdel⟩
    rw [hdb, or_iff_right hnf, hrev]
    cases h : db.viewerDeletable s v with
    | true =>
      rw [deleteViewer_of_deletable h, mem_playersDeactivate]
      simp [Db.viewerDelete]
    | false =>
      rw [deleteViewer_of_not_deletable h]
      simp
  | keep hf hr _ hplay =>
    rw [hplay]
    simp [hf p.streamId, hr p.viewerId]

/-! ### What a replay ends -/

def PublisherEnded (db : Db) (es : List Entry) (p : Publisher) : Prop :=
  Occurs step (Finalizes p.streamId) db es

def PlayerEnded (db : Db) (es : List Entry) (p : Player) : Prop :=
  Occurs step (fun d e => Finalizes p.streamId d e ∨ Revokes p.viewerId d e) db es

theorem mem_publishers_replay {db d : Db} (h : replay step db es = some d) {p : Publisher} :
    p ∈ d.publishers ↔ p ∈ db.publishers ∧ ¬ PublisherEnded db es p := by
  refine replay_survives (R := fun db => p ∈ db.publishers) (fun s e s' hs => ?_) h
  obtain ⟨-, rfl⟩ := step_eq_some.1 hs
  exact mem_publishers_applyEntry

theorem mem_players_replay {db d : Db} (h : replay step db es = some d) :
    p ∈ d.players ∧ p.active ↔
      (p ∈ db.players ∧ p.active) ∧ ¬ PlayerEnded db es p := by
  refine replay_survives (R := fun db => p ∈ db.players ∧ p.active = true)
    (fun s e s' hs => ?_) h
  obtain ⟨-, rfl⟩ := step_eq_some.1 hs
  exact mem_players_applyEntry

/-! ### What an install keeps -/

theorem foldl_deactivate_publishers (ids : List String) (d : Db) :
    (ids.foldl Db.playersDeactivateForViewer d).publishers = d.publishers := by
  induction ids generalizing d with
  | nil => rfl
  | cons id ids ih => exact ih _

theorem mem_foldl_deactivate {ids : List String} {d : Db} :
    p ∈ (ids.foldl Db.playersDeactivateForViewer d).players ∧ p.active ↔
      (p ∈ d.players ∧ p.active) ∧ p.viewerId ∉ ids := by
  induction ids generalizing d with
  | nil => simp
  | cons id ids ih =>
    rw [foldl_cons, ih, mem_playersDeactivate, mem_cons, not_or, and_assoc]

/-- The player finds its stream and its viewer in `m`, and so does every active player that shares
the viewer; a dropped one takes the others with it. -/
def PlayerReinserted (n m : Db) (p : Player) : Prop :=
  m.hasStream p.streamId = true ∧ m.hasViewer p.viewerId = true ∧
    ∀ q ∈ n.players, q.active = true → q.viewerId = p.viewerId → m.hasStream q.streamId = true

theorem not_mem_dropped {n d : Db} (hv : d.hasViewer p.viewerId) :
    p.viewerId ∉ droppedPlayerViewers n d ↔
      ∀ q ∈ n.players, q.active → q.viewerId = p.viewerId →
        d.hasStream q.streamId = true := by
  simp only [droppedPlayerViewers, mem_map, mem_filter, Bool.and_eq_true,
    Bool.not_eq_true', not_exists, not_and, and_imp]
  refine forall₂_congr fun q _ => ?_
  constructor
  · intro h hact hid
    by_contra hs
    refine h ?_ hact hid
    simp [playerKept, hs]
  · intro h hk hact hid
    rw [playerKept, hid, hv, h hact hid] at hk
    cases hk

theorem installAppSnapshot_sessions {m : Db} (hm : SchemaOk m) (n : Db) (la : Option LogId) :
    ∃ d effects, installAppSnapshot n (buildAppSnapshot m la) = some (d, effects) ∧
      (∀ p, p ∈ d.publishers ↔ ∃ q ∈ n.publishers, m.hasStream q.streamId ∧
        p = { q with bytesIn := reinsertedBytes q.bytesIn }) ∧
      ∀ p, p ∈ d.players ∧ p.active ↔ ∃ q ∈ n.players, q.active ∧
        PlayerReinserted n m q ∧ p = { q with bytesOut := reinsertedBytes q.bytesOut } := by
  obtain ⟨d, hd, hs, hv, -, -, -, hpub, hplay⟩ := installRows_build hm n la
  have hstream : ∀ id, d.hasStream id = m.hasStream id := by
    intro id
    have hback := @exists_backfillTokens m id
    rw [Bool.eq_iff_iff, Db.hasStream_iff, Db.hasStream_iff, ← hback]
    exact exists_congr fun r => and_congr_left fun _ => hs.mem_iff
  have hviewer : ∀ id, d.hasViewer id = m.hasViewer id := fun id => any_perm hv _
  refine ⟨_, _, by rw [installAppSnapshot, hd]; rfl, fun p => ?_, fun p => ?_⟩
  · rw [foldl_deactivate_publishers, hpub]
    simp only [reinsertSessions, mem_map, mem_filter, hstream]
    constructor
    · rintro ⟨q, ⟨hq, hk⟩, rfl⟩
      exact ⟨q, hq, hk, rfl⟩
    · rintro ⟨q, hq, hk, rfl⟩
      exact ⟨q, ⟨hq, hk⟩, rfl⟩
  · rw [mem_foldl_deactivate, hplay]
    constructor
    · rintro ⟨⟨hp, hact⟩, hdrop⟩
      obtain ⟨q, hq, rfl⟩ := mem_map.1 hp
      obtain ⟨hq, hk⟩ := mem_filter.1 hq
      simp only [playerKept, Bool.and_eq_true] at hk
      have hothers := (not_mem_dropped hk.2).1 hdrop
      simp only [hstream, hviewer] at hk hothers
      exact ⟨q, hq, hact, ⟨hk.1, hk.2, hothers⟩, rfl⟩
    · rintro ⟨q, hq, hact, ⟨hks, hkv, hothers⟩, rfl⟩
      simp only [← hstream, ← hviewer] at hks hkv hothers
      refine ⟨⟨mem_map.2 ⟨q, mem_filter.2 ⟨hq, ?_⟩, rfl⟩, hact⟩,
        (not_mem_dropped hkv).2 hothers⟩
      simp [playerKept, hks, hkv]

/-! ### Both ways compared -/

/-- Every session that is active after installing the snapshot of the state `es` leads to is also
active after replaying `es`. -/
def SessionsAgree (db : Db) (es : List Entry) : Prop :=
  ∀ d la d' effects, replay step db es = some d →
    installAppSnapshot db (buildAppSnapshot d la) = some (d', effects) →
    (∀ p ∈ d'.publishers, p.active = true → ∃ q ∈ d.publishers, q.id = p.id ∧ q.active = true) ∧
    ∀ p ∈ d'.players, p.active = true → ∃ q ∈ d.players, q.id = p.id ∧ q.active = true

/-- No active session whose parents are there at the end was ended on the way. -/
def SessionsSafe (db : Db) (es : List Entry) : Prop :=
  ∀ d, replay step db es = some d →
    (∀ p ∈ db.publishers, p.active = true → d.hasStream p.streamId = true →
      ¬ PublisherEnded db es p) ∧
    ∀ p ∈ db.players, p.active = true → PlayerReinserted db d p → ¬ PlayerEnded db es p

/-- **An install and a replay agree on the sessions exactly when no surviving parent replaced the
one a session had.** -/
theorem sessions_agree_iff (n : Database) (es : List Entry) :
    SessionsAgree n.db es ↔ SessionsSafe n.db es := by
  obtain ⟨db, hok⟩ := n
  dsimp only
  have hschema {d : Db} (hd : replay step db es = some d) : SchemaOk d :=
    replay_inv (fun _ _ _ _ h hs => step_schemaOk h hs) hok hd
  constructor
  · intro h d hd
    obtain ⟨d', effects, hinst, hpub, hplay⟩ := installAppSnapshot_sessions (hschema hd) db none
    obtain ⟨hagree, hagree'⟩ := h d none d' effects hd hinst
    refine ⟨fun p hp hact hs => ?_, fun p hp hact hre => ?_⟩
    · obtain ⟨q, hq, hid, -⟩ := hagree _ ((hpub _).2 ⟨p, hp, hs, rfl⟩) hact
      obtain ⟨hq, hne⟩ := (mem_publishers_replay hd).1 hq
      rw [← hok.publisherId.eq_of_key hq hp hid]
      exact hne
    · obtain ⟨hmem, hact'⟩ := (hplay _).2 ⟨p, hp, hact, hre, rfl⟩
      obtain ⟨q, hq, hid, hqact⟩ := hagree' _ hmem hact'
      obtain ⟨⟨hq, -⟩, hne⟩ := (mem_players_replay hd).1 ⟨hq, hqact⟩
      rw [← hok.playerId.eq_of_key hq hp hid]
      exact hne
  · intro h d la d' effects hd hinst
    obtain ⟨d₁, effects₁, hinst₁, hpub, hplay⟩ := installAppSnapshot_sessions (hschema hd) db la
    rw [hinst, Option.some.injEq, Prod.mk.injEq] at hinst₁
    obtain ⟨rfl, -⟩ := hinst₁
    obtain ⟨hsafe, hsafe'⟩ := h d hd
    refine ⟨fun p hp hact => ?_, fun p hp hact => ?_⟩
    · obtain ⟨q, hq, hs, rfl⟩ := (hpub p).1 hp
      exact ⟨q, (mem_publishers_replay hd).2 ⟨hq, hsafe q hq hact hs⟩, rfl, hact⟩
    · obtain ⟨q, hq, hqact, hre, rfl⟩ := (hplay p).1 ⟨hp, hact⟩
      obtain ⟨hmem, -⟩ := (mem_players_replay hd).2 ⟨⟨hq, hqact⟩, hsafe' q hq hqact hre⟩
      exact ⟨q, hmem, rfl, hqact⟩

/-- A node with one stream and an active publisher on it. -/
def publishingNode : Database where
  db := { Db.empty with
    streams := [⟨cameraStream, false, "t"⟩]
    viewers := [cameraViewer]
    publishers := [⟨"p1", "cam", "live", "Camera", 0, {}, 0, true⟩] }
  schemaOk := by constructor <;> simp [Db.empty, UniqueOn] <;> decide

/-- The stream is deleted and created again under its id. -/
def recreateEntries : List Entry :=
  [⟨⟨1, 1, 1⟩, .normal (.beginDeleteStream "cam" none none)⟩,
    ⟨⟨1, 1, 2⟩, .normal (.finalizeDeleteStream "cam")⟩,
    ⟨⟨1, 1, 3⟩, .normal (.createStream cameraStream cameraViewer "t2")⟩]

/-- The replay ends the publisher, the install keeps it. -/
theorem recreated_stream_keeps_publisher : ¬ SessionsAgree publishingNode.db recreateEntries := by
  intro h
  have hreplay : ((replay step publishingNode.db recreateEntries).map (·.publishers)) =
      some [] := by decide
  have hinstall : ((replay step publishingNode.db recreateEntries).bind fun d =>
      (installAppSnapshot publishingNode.db (buildAppSnapshot d none)).map (·.1.publishers)) =
        some publishingNode.db.publishers := by decide
  obtain ⟨d, hd, hpub⟩ := Option.map_eq_some_iff.1 hreplay
  rw [hd, Option.bind_some, Option.map_eq_some_iff] at hinstall
  obtain ⟨⟨d', effects⟩, hinst, hkept⟩ := hinstall
  obtain ⟨q, hq, -⟩ := (h d none d' effects hd hinst).1 ⟨"p1", "cam", "live", "Camera", 0, {}, 0, true⟩
    (by rw [hkept]; exact mem_singleton.2 rfl) rfl
  rw [hpub] at hq
  cases hq

end RtmpServer
