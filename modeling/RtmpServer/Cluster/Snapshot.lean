import RtmpServer.Cluster.Congruence

/-!
# Snapshots of the application state

`buildAppSnapshot` reads the replicated tables; `installAppSnapshot` wipes them, inserts the rows of
a snapshot one by one, puts the delete tokens and pending marks back, which travel apart from the
stream rows, and reinserts the local sessions that still have a parent. `installAppSnapshot_build`
is the round trip.
-/

namespace RtmpServer

open Option Lib.Table Lib.Replay
open List hiding filter_filter lookup map_map mem_map

structure AppSnapshot where
  streams : List Stream
  viewers : List StreamViewer
  owners : List StreamOwner
  apiToken : Option String
  clusterId : Option String
  lastAppliedIndex : Option UInt64
  pendingDeleteStreamIds : List String
  deleteTokens : List (String × String)
  deriving DecidableEq, Repr

/-- `build_app_snapshot`, with the reads of `read_replicated_snapshot`. -/
def buildAppSnapshot (db : Db) (lastApplied : Option LogId) : AppSnapshot where
  streams := Db.orderByCreatedAt (·.createdAt) (db.streams.map (·.toStream))
  viewers := Db.orderByCreatedAt (·.createdAt) db.viewers
  owners := db.streamOwnerList
  apiToken := db.tokenGet
  clusterId := db.clusterIdGet
  lastAppliedIndex := lastApplied.map (·.index)
  pendingDeleteStreamIds := (db.streams.filter (·.pendingDelete)).map (·.id)
  deleteTokens := db.streamDeleteTokens

namespace Db

/-- `DELETE FROM stream_owners; DELETE FROM stream_viewers; DELETE FROM streams;` and what cascades. -/
def wipe (db : Db) : Db :=
  { db with streams := [], viewers := [], owners := [], publishers := [], players := [] }

/-- `UPDATE streams SET delete_token=? WHERE id=?`. -/
def setDeleteToken (db : Db) (id token : String) : Db :=
  { db with
    streams := updateWhere (fun r => r.id = id) (fun r => { r with deleteToken := token })
      db.streams }

def backfillTokens (db : Db) : Db :=
  { db with
    streams := updateWhere (fun r => r.deleteToken = "")
      (fun r => { r with deleteToken := legacyDeleteToken r.id r.publishKey }) db.streams }

/-- `UPDATE streams SET pending_delete=1 WHERE id=?`. -/
def setPendingDelete (db : Db) (id : String) : Db :=
  { db with
    streams := updateWhere (fun r => r.id = id) (fun r => { r with pendingDelete := true })
      db.streams }

def hasViewer (db : Db) (id : String) : Bool := db.viewers.any fun v => v.id = id

end Db

/-- A byte counter read as `u64`, where a negative value becomes 0, and written back. -/
def reinsertedBytes (bytes : Int64) : Int64 := if bytes < 0 then 0 else bytes

/-- The rows of `streams` after the insert, token and pending loops. -/
def installStreams (db : Db) (snap : AppSnapshot) : Option Db :=
  (replay (fun d s => d.insertStream s "") db.wipe snap.streams).map fun d =>
    snap.pendingDeleteStreamIds.foldl Db.setPendingDelete
      (snap.deleteTokens.foldl (fun d t => d.setDeleteToken t.1 t.2) d).backfillTokens

def playerKept (d : Db) (p : Player) : Bool := d.hasStream p.streamId && d.hasViewer p.viewerId

/-- Reinserts the sessions of `db` that survive in `d`. They come from a table, so their ids do not
collide. -/
def reinsertSessions (db d : Db) : Db :=
  { d with
    publishers := (db.publishers.filter fun p => d.hasStream p.streamId).map fun p =>
      { p with bytesIn := reinsertedBytes p.bytesIn }
    players := (db.players.filter (playerKept d)).map fun p =>
      { p with bytesOut := reinsertedBytes p.bytesOut } }

def installRows (db : Db) (snap : AppSnapshot) : Option Db :=
  (installStreams db snap).bind fun d₁ =>
    (replay Db.insertViewer d₁ snap.viewers).bind fun d₂ =>
      (replay (fun d o => d.insertOwner o.toRow) (reinsertSessions db d₂) snap.owners).map fun d₃ =>
        { d₃ with
          apiToken := snap.apiToken
          -- a snapshot without a cluster id leaves the node's own
          clusterId := snap.clusterId <|> d₃.clusterId }

def droppedPlayerViewers (db d : Db) : List String :=
  (db.players.filter fun p => !playerKept d p && p.active).map (·.viewerId)

def installEffects (db d : Db) (snap : AppSnapshot) : List StateEffect :=
  (snap.pendingDeleteStreamIds ++
      (db.publishers.filter fun p => !d.hasStream p.streamId).map (·.streamId) ++
      (db.players.filter fun p => !d.hasStream p.streamId).map (·.streamId)).map .drainStream ++
    ((db.players.filter fun p => d.hasStream p.streamId && !d.hasViewer p.viewerId).map
      (·.viewerId)).map .revokeViewer ++
    [.apiToken (snap.apiToken.getD ""), .ownershipChanged]

/-- `install_app_snapshot`; nothing when a row violates a constraint and the transaction is rolled
back. -/
def installAppSnapshot (db : Db) (snap : AppSnapshot) : Option (Db × List StateEffect) :=
  (installRows db snap).map fun d =>
    ((droppedPlayerViewers db d).foldl Db.playersDeactivateForViewer d, installEffects db d snap)

/-! ### The insert loops -/

/-- The `UNIQUE` columns of `streams`, over the rows a snapshot carries. -/
structure StreamKeysUnique (l : List Stream) : Prop where
  id : UniqueOn (·.id) l
  publishKey : UniqueOn (·.publishKey) l
  playKey : UniqueOn (·.playKey) l
  statsKey : UniqueOn (·.statsKey) l

theorem replay_insertStream (l : List Stream) (d : Db)
    (h : StreamKeysUnique (d.streams.map (·.toStream) ++ l)) :
    replay (fun d s => d.insertStream s "") d l =
      some { d with streams := d.streams ++ l.map fun s => ⟨s, false, ""⟩ } := by
  induction l generalizing d with
  | nil => simp
  | cons s l ih =>
    have hne : ∀ r ∈ d.streams, r.id ≠ s.id ∧ r.publishKey ≠ s.publishKey ∧
        r.playKey ≠ s.playKey ∧ r.statsKey ≠ s.statsKey := by
      intro r hr
      have hm : r.toStream ∈ d.streams.map (·.toStream) := mem_map_of_mem hr
      exact ⟨h.id.ne_of_append _ hm, h.publishKey.ne_of_append _ hm, h.playKey.ne_of_append _ hm,
        h.statsKey.ne_of_append _ hm⟩
    rw [replay_cons, Db.insertStream_eq_some.2 ⟨hne, rfl⟩, bind_some, ih]
    · simp
    · simpa using h

theorem replay_insertViewer (l : List StreamViewer) (d : Db)
    (hid : UniqueOn (·.id) (d.viewers ++ l)) (hkey : UniqueOn (·.playKey) (d.viewers ++ l))
    (hparent : ∀ v ∈ l, ∃ s ∈ d.streams, s.id = v.streamId) :
    replay Db.insertViewer d l = some { d with viewers := d.viewers ++ l } := by
  induction l generalizing d with
  | nil => simp
  | cons v l ih =>
    have hne : ∀ r ∈ d.viewers, r.id ≠ v.id ∧ r.playKey ≠ v.playKey := fun r hr =>
      ⟨hid.ne_of_append r hr, hkey.ne_of_append r hr⟩
    have hv := hparent v mem_cons_self
    rw [replay_cons, Db.insertViewer_eq_some.2 ⟨hne, hv, rfl⟩, bind_some, ih]
    · simp
    · simpa using hid
    · simpa using hkey
    · exact fun w hw => hparent w (mem_cons_of_mem _ hw)

theorem replay_insertOwner (l : List StreamOwner) (d : Db)
    (hid : UniqueOn (·.streamId) (d.owners ++ l.map StreamOwner.toRow))
    (hparent : ∀ o ∈ l, ∃ s ∈ d.streams, s.id = o.streamId) :
    replay (fun d o => d.insertOwner o.toRow) d l =
      some { d with owners := d.owners ++ l.map StreamOwner.toRow } := by
  induction l generalizing d with
  | nil => simp
  | cons o l ih =>
    have hne : ∀ r ∈ d.owners, r.streamId ≠ o.toRow.streamId := fun r hr =>
      hid.ne_of_append r hr
    have ho := hparent o mem_cons_self
    rw [replay_cons, Db.insertOwner_eq_some.2 ⟨hne, ho, rfl⟩, bind_some, ih]
    · simp
    · simpa using hid
    · exact fun w hw => hparent w (mem_cons_of_mem _ hw)

/-! ### The token and pending loops -/

theorem foldl_setDeleteToken (tokens : List (String × String)) (d : Db) :
    tokens.foldl (fun d t => d.setDeleteToken t.1 t.2) d =
      { d with streams := d.streams.map fun r =>
          { r with deleteToken := (tokenFor tokens r.id).getD r.deleteToken } } := by
  induction tokens generalizing d with
  | nil => simp [tokenFor, lookup]
  | cons t tokens ih =>
    have htoken : ∀ id, tokenFor (t :: tokens) id =
        (tokenFor tokens id).or (if t.1 = id then some t.2 else none) := by
      intro id
      simp only [tokenFor, lookup, reverse_cons, find?_append, map_or]
      congr 1
      by_cases h : t.1 = id <;> simp [h]
    rw [foldl_cons, ih]
    simp only [Db.setDeleteToken, updateWhere, List.map_map]
    congr 2
    refine map_congr_left fun r _ => ?_
    by_cases h : r.id = t.1
    · cases hr : tokenFor tokens t.1 <;> simp [htoken, h, hr]
    · cases hr : tokenFor tokens r.id <;> simp [htoken, h, Ne.symm h, hr]

theorem foldl_setPendingDelete (ids : List String) (d : Db) :
    ids.foldl Db.setPendingDelete d =
      { d with streams := d.streams.map fun r =>
          { r with pendingDelete := r.pendingDelete || decide (r.id ∈ ids) } } := by
  induction ids generalizing d with
  | nil => simp
  | cons id ids ih =>
    rw [foldl_cons, ih]
    simp only [Db.setPendingDelete, updateWhere, List.map_map]
    congr 2
    refine map_congr_left fun r _ => ?_
    by_cases h : r.id = id <;> simp [h]

/-! ### The round trip -/

theorem backfillTokens_of_tokens {db : Db} (h : ∀ r ∈ db.streams, r.deleteToken ≠ "") :
    db.backfillTokens = db := by
  have hnone : ∀ r ∈ db.streams, decide (r.deleteToken = "") = false := by simpa using h
  unfold Db.backfillTokens
  rw [updateWhere_of_none hnone]

theorem exists_backfillTokens {db : Db} {id : String} :
    (∃ s ∈ db.backfillTokens.streams, s.id = id) ↔ ∃ s ∈ db.streams, s.id = id := by
  constructor
  · rintro ⟨s, hs, rfl⟩
    obtain ⟨r, hr, rfl⟩ := mem_updateWhere.1 hs
    refine ⟨r, hr, ?_⟩
    split_ifs <;> rfl
  · rintro ⟨s, hs, rfl⟩
    refine ⟨_, mem_updateWhere.2 ⟨s, hs, rfl⟩, ?_⟩
    split_ifs <;> rfl

theorem build_streams_perm (m : Db) (la : Option LogId) :
    (buildAppSnapshot m la).streams.Perm (m.streams.map StreamRow.toStream) :=
  perm_insertionSort _ _

theorem build_viewers_perm (m : Db) (la : Option LogId) :
    (buildAppSnapshot m la).viewers.Perm m.viewers :=
  perm_insertionSort _ _

section RoundTrip

variable {m : Db} (hm : SchemaOk m)

include hm

theorem tokenFor_streamDeleteTokens {r : StreamRow} (hr : r ∈ m.streams) :
    tokenFor m.streamDeleteTokens r.id = some r.deleteToken := by
  have huniq : UniqueOn Prod.fst m.streamDeleteTokens.reverse :=
    (hm.streamId.map_of_key (g := fun s => (s.id, s.deleteToken)) fun _ => rfl).perm
      (reverse_perm _).symm
  have hmem : (r.id, r.deleteToken) ∈ m.streamDeleteTokens.reverse :=
    mem_reverse.2 (List.mem_map.2 ⟨r, hr, rfl⟩)
  rw [tokenFor, huniq.lookup_eq_some.2 ⟨hmem, rfl⟩]
  rfl

theorem mem_pendingIds {r : StreamRow} (hr : r ∈ m.streams) :
    r.id ∈ (m.streams.filter (·.pendingDelete)).map (·.id) ↔ r.pendingDelete = true := by
  rw [List.mem_map]
  constructor
  · rintro ⟨s, hs, hid⟩
    obtain ⟨hs, hp⟩ := mem_filter.1 hs
    rw [← hm.streamId.eq_of_key hs hr hid]
    exact hp
  · intro hp
    exact ⟨r, mem_filter.2 ⟨hr, hp⟩, rfl⟩

theorem streamKeysUnique_build (la : Option LogId) :
    StreamKeysUnique (buildAppSnapshot m la).streams := by
  have hp := (build_streams_perm m la).symm
  exact ⟨(hm.streamId.map_of_key fun _ => rfl).perm hp,
    (hm.publishKey.map_of_key fun _ => rfl).perm hp,
    (hm.playKey.map_of_key fun _ => rfl).perm hp, (hm.statsKey.map_of_key fun _ => rfl).perm hp⟩

theorem installStreams_build (n : Db) (la : Option LogId) :
    ∃ d, installStreams n (buildAppSnapshot m la) = some d ∧
      d.streams.Perm m.backfillTokens.streams ∧
      d.viewers = [] ∧ d.owners = [] ∧ d.clusterId = n.clusterId := by
  set snap := buildAppSnapshot m la with hsnap
  -- what the four loops make of one stream of the snapshot
  let restore : Stream → StreamRow := fun s =>
    let token := (tokenFor snap.deleteTokens s.id).getD ""
    let row : StreamRow := if token = "" then ⟨s, false, legacyDeleteToken s.id s.publishKey⟩
      else ⟨s, false, token⟩
    { row with pendingDelete := row.pendingDelete || decide (row.id ∈ snap.pendingDeleteStreamIds) }
  let backfilled : StreamRow → StreamRow := fun r => if decide (r.deleteToken = "") = true then
    { r with deleteToken := legacyDeleteToken r.id r.publishKey } else r
  have hrestore : ∀ r ∈ m.streams, restore r.toStream = backfilled r := by
    intro r hr
    have ht : tokenFor snap.deleteTokens r.id = some r.deleteToken :=
      tokenFor_streamDeleteTokens hm hr
    have hp : decide (r.id ∈ snap.pendingDeleteStreamIds) = r.pendingDelete := by
      rw [Bool.eq_iff_iff, decide_eq_true_eq]
      exact mem_pendingIds hm hr
    simp only [restore, backfilled, ht, getD_some, decide_eq_true_eq]
    split_ifs <;> simp only [hp, Bool.false_or]
  refine ⟨{ n.wipe with streams := snap.streams.map restore }, ?_, ?_, rfl, rfl, rfl⟩
  · have hins := replay_insertStream snap.streams n.wipe
      (by simpa [Db.wipe] using streamKeysUnique_build hm la)
    unfold installStreams
    rw [hins, map_some, foldl_setDeleteToken, foldl_setPendingDelete]
    simp only [Db.backfillTokens, updateWhere, List.map_map, Db.wipe, nil_append]
    congr 3
    refine map_congr_left fun s _ => ?_
    by_cases h : (tokenFor snap.deleteTokens s.id).getD "" = "" <;> simp [restore, h]
  · calc (snap.streams.map restore).Perm ((m.streams.map StreamRow.toStream).map restore) :=
          (build_streams_perm m la).map restore
      _ = m.streams.map fun r => restore r.toStream := List.map_map
      _ = m.backfillTokens.streams := map_congr_left hrestore

/-- The whole transaction on the snapshot of `m`: the rows of `m`, and the sessions of `n` that
still have their parents. -/
theorem installRows_build (n : Db) (la : Option LogId) :
    ∃ d, installRows n (buildAppSnapshot m la) = some d ∧
      d.streams.Perm m.backfillTokens.streams ∧
      d.viewers.Perm m.viewers ∧ d.owners = m.owners ∧ d.apiToken = m.tokenGet ∧
      d.clusterId = (m.clusterIdGet <|> n.clusterId) ∧
      d.publishers = (reinsertSessions n d).publishers ∧
      d.players = (reinsertSessions n d).players := by
  obtain ⟨d₁, hinst, hstreams, hv₁, ho₁, hc₁⟩ := installStreams_build hm n la
  set snap := buildAppSnapshot m la with hsnap
  have hparent : ∀ id, (∃ s ∈ m.streams, s.id = id) → ∃ s ∈ d₁.streams, s.id = id := by
    intro id h
    obtain ⟨s, hs, hid⟩ := exists_backfillTokens.2 h
    exact ⟨s, hstreams.mem_iff.2 hs, hid⟩
  have hv : snap.viewers.Perm m.viewers := build_viewers_perm m la
  have hviewers := replay_insertViewer snap.viewers d₁
    (by simpa [hv₁] using hm.viewerId.perm hv.symm)
    (by simpa [hv₁] using hm.viewerKey.perm hv.symm)
    (fun v hmem => hparent _ (hm.viewerParent v (hv.mem_iff.1 hmem)))
  rw [hv₁, nil_append] at hviewers
  set d₂ : Db := reinsertSessions n { d₁ with viewers := snap.viewers } with hd₂
  have hrows : snap.owners.map StreamOwner.toRow = m.owners := by
    simp [hsnap, buildAppSnapshot, Db.streamOwnerList, Function.comp_def]
  have ho₂ : d₂.owners = [] := ho₁
  have howners := replay_insertOwner snap.owners d₂
    (by rw [hrows, ho₂]; simpa using hm.ownerStream)
    (by
      intro o ho
      have hmem : o.toRow ∈ m.owners := hrows ▸ mem_map_of_mem ho
      exact hparent _ (hm.ownerParent _ hmem))
  rw [hrows, ho₂, nil_append] at howners
  let d : Db := { d₂ with
    owners := m.owners
    apiToken := snap.apiToken
    clusterId := snap.clusterId <|> d₂.clusterId }
  refine ⟨d, ?_, hstreams, hv, rfl, rfl, ?_, rfl, rfl⟩
  · simp only [installRows, hinst, hviewers, bind_some]
    rw [← hd₂, howners]
    rfl
  · show (snap.clusterId <|> d₁.clusterId) = _
    rw [hc₁]
    rfl

end RoundTrip

theorem SchemaOk.of_perm {m d : Db} (hm : SchemaOk m) (hs : d.streams.Perm m.streams)
    (hv : d.viewers.Perm m.viewers) (ho : d.owners = m.owners)
    (hpubId : UniqueOn (·.id) d.publishers) (hplayId : UniqueOn (·.id) d.players)
    (hpub : ∀ p ∈ d.publishers, ∃ s ∈ d.streams, s.id = p.streamId)
    (hplay : ∀ p ∈ d.players, ∃ s ∈ d.streams, s.id = p.streamId) : SchemaOk d := by
  have parent {id : String} (h : ∃ s ∈ m.streams, s.id = id) : ∃ s ∈ d.streams, s.id = id := by
    obtain ⟨s, hmem, hid⟩ := h
    exact ⟨s, hs.mem_iff.2 hmem, hid⟩
  exact
    { streamId := hm.streamId.perm hs.symm
      publishKey := hm.publishKey.perm hs.symm
      playKey := hm.playKey.perm hs.symm
      statsKey := hm.statsKey.perm hs.symm
      viewerId := hm.viewerId.perm hv.symm
      viewerKey := hm.viewerKey.perm hv.symm
      ownerStream := ho ▸ hm.ownerStream
      publisherId := hpubId
      playerId := hplayId
      viewerParent := fun v h => parent (hm.viewerParent v (hv.mem_iff.1 h))
      ownerParent := fun o h => parent (hm.ownerParent o (ho ▸ h))
      publisherParent := hpub
      playerParent := hplay }

theorem foldl_deactivate_toTables (ids : List String) (d : Db) :
    (ids.foldl Db.playersDeactivateForViewer d).toTables = d.toTables := by
  induction ids generalizing d with
  | nil => rfl
  | cons id ids ih => exact ih _

theorem SchemaOk.foldl_deactivate (ids : List String) {d : Db} (h : SchemaOk d) :
    SchemaOk (ids.foldl Db.playersDeactivateForViewer d) := by
  induction ids generalizing d with
  | nil => exact h
  | cons id ids ih => exact ih (h.playersDeactivateForViewer id)

/-- **Installing a built snapshot gives the tables it was built from.** Only a node that has a
cluster id while the snapshot has none keeps its own. -/
theorem installAppSnapshot_build {n m : Db} (hn : SchemaOk n) (hm : SchemaOk m)
    (htok : ∀ r ∈ m.streams, r.deleteToken ≠ "")
    (hcid : m.clusterIdGet = none → n.clusterIdGet = none) (la : Option LogId) :
    ∃ d effects, installAppSnapshot n (buildAppSnapshot m la) = some (d, effects) ∧
      SchemaOk d ∧ SameTables d m := by
  obtain ⟨d, hd, hs, hv, ho, ht, hc, hpub, hplay⟩ := installRows_build hm n la
  rw [backfillTokens_of_tokens htok] at hs
  have hok : SchemaOk d := by
    refine hm.of_perm hs hv ho ?_ ?_ ?_ ?_
    · rw [hpub]
      exact (hn.publisherId.sublist filter_sublist).map_of_key fun _ => rfl
    · rw [hplay]
      exact (hn.playerId.sublist filter_sublist).map_of_key fun _ => rfl
    · intro p hp
      rw [hpub] at hp
      obtain ⟨q, hq, rfl⟩ := List.mem_map.1 hp
      exact Db.hasStream_iff.1 (mem_filter.1 hq).2
    · intro p hp
      rw [hplay] at hp
      obtain ⟨q, hq, rfl⟩ := List.mem_map.1 hp
      have hk := (mem_filter.1 hq).2
      simp only [playerKept, Bool.and_eq_true] at hk
      exact Db.hasStream_iff.1 hk.1
  have hsame : SameTables d m := by
    refine ⟨hs, hv, ho ▸ .refl _, ?_, ?_⟩
    · rw [Db.tokenGet, ht]
      simp [Db.tokenGet, filter_filter]
    · cases hmc : m.clusterIdGet with
      | none =>
        have hnc := hcid hmc
        rw [hmc] at hc
        rw [Db.clusterIdGet, hc]
        exact hnc
      | some cid =>
        rw [hmc] at hc
        have hne : cid ≠ "" := by
          have := filter_eq_some_iff.1 hmc
          simpa using this.2
        rw [Db.clusterIdGet, hc]
        simp [hne]
  refine ⟨_, _, by rw [installAppSnapshot, hd]; rfl, hok.foldl_deactivate _, ?_⟩
  exact (SameTables.of_toTables (foldl_deactivate_toTables _ d)).trans hsame

end RtmpServer
