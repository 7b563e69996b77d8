import Mathlib.Data.List.AList
import RtmpServer.Db.Operations
import RtmpServer.Lib.Replay
import RtmpServer.Lib.Stamp

/-!
# The cache of access keys

Plays and publishes are authorized on the RTMP thread from a snapshot of the enabled keys, which
carries the `auth_generation` it was read at. The SQLite update hook counts every row write to
`streams` and `stream_viewers`, and `with_conn` counts once before it hands the connection out. A
refresh reads the counter and the rows while it has the connection, and stores the result later
under another lock, where it can overtake or be overtaken by other refreshes.
-/

namespace RtmpServer

open Option Lib.Table Lib.Replay Lib.Stamp
open List hiding lookup map_map

/-! ### Lookups -/

namespace Db

/-- `stream_viewers sv JOIN streams s ON s.id = sv.stream_id WHERE sv.enabled=1`. -/
def playRows (db : Db) : List (StreamViewer × Stream) :=
  (db.viewers.filter (·.enabled)).filterMap fun v => (db.streamGet v.streamId).map fun s => (v, s)

def viewerAndStreamByPlayKey (db : Db) (key : String) : Option (StreamViewer × Stream) :=
  if isValidAccessKey key then lookup (·.1.playKey) db.playRows key else none

/-- `stream_find_by_publish_key_any`: also a stream that is not enabled. -/
def streamFindByPublishKeyAny (db : Db) (key : String) : Option Stream :=
  if isValidAccessKey key then (lookup (·.publishKey) db.streams key).map (·.toStream) else none

end Db

/-! ### The snapshot -/

/-- `collect` into a `HashMap`: a later row replaces an earlier one with the same key. -/
def collect {β : Type} (key : β → String) (rows : List β) : AList fun _ : String => β :=
  rows.foldl (fun m r => m.insert (key r) r) ∅

structure KeySnapshot where
  generation : Option UInt64
  play : AList fun _ : String => StreamViewer × Stream
  publish : AList fun _ : String => Stream

def KeySnapshot.load (db : Db) (generation : UInt64) : KeySnapshot where
  generation := some generation
  play := collect (·.1.playKey) db.playRows
  publish := collect (·.publishKey) ((db.streams.filter (·.enabled)).map (·.toStream))

/-- The rows behind the connection, the snapshot and the refreshes that are under way. -/
structure KeyCache where
  rows : Versioned Database
  accessKeys : KeySnapshot
  /-- Refreshes that found the snapshot out of date and have not read the rows yet. -/
  started : Nat
  /-- Refreshes that have read the rows and not stored them yet. -/
  loaded : List KeySnapshot

namespace KeyCache

def start (db : Database) (generation : UInt64) : KeyCache :=
  ⟨⟨db, generation, none⟩, ⟨none, ∅, ∅⟩, 0, []⟩

def db (s : KeyCache) : Db := s.rows.value.db

def authGeneration (s : KeyCache) : UInt64 := s.rows.generation

def cachedPlayKey (s : KeyCache) (key : String) : Option (StreamViewer × Stream) :=
  if s.accessKeys.generation ≠ some s.authGeneration then none else s.accessKeys.play.lookup key

def cachedPublishKey (s : KeyCache) (key : String) : Option Stream :=
  if s.accessKeys.generation ≠ some s.authGeneration then none else s.accessKeys.publish.lookup key

/-- The key checks of `try_fast_authorize_play`. -/
def fastPlayKey (s : KeyCache) (app key : String) : Option (StreamViewer × Stream) :=
  if isValidAccessKey key then
    (s.cachedPlayKey key).filter fun pair => pair.2.enabled && pair.2.app == app
  else none

def fastPublishKey (s : KeyCache) (app key : String) : Option Stream :=
  if isValidAccessKey key then
    (s.cachedPublishKey key).filter fun stream => stream.enabled && stream.app == app
  else none

end KeyCache

inductive KeyCacheOp where
  /-- A writer, which holds the connection for all it does. -/
  | writer (op : WriteOp Database)
  /-- The check a refresh makes before it takes the connection, with the counter as it was read
  some time before. -/
  | refresh (generation : UInt64)
  /-- The queries of a refresh, which may fail. -/
  | load (ok : Bool)
  /-- A refresh stores its result. -/
  | store (i : Nat)

def KeyCacheOp.counts : KeyCacheOp → Bool
  | .writer op => op.counts
  | _ => false

def KeyCache.step (s : KeyCache) : KeyCacheOp → Option KeyCache
  | .writer op => (s.rows.step op).map fun rows => { s with rows := rows }
  | .refresh generation =>
    if s.accessKeys.generation = some generation then some s
    else some { s with started := s.started + 1 }
  | .load ok =>
    if s.started = 0 ∨ s.rows.holder.isSome then none
    else
      some { s with
        started := s.started - 1
        loaded := if ok then s.loaded ++ [.load s.db s.authGeneration] else s.loaded }
  | .store i =>
    s.loaded[i]?.map fun snapshot =>
      { s with accessKeys := snapshot, loaded := s.loaded.eraseIdx i }

/-! ### Keys in a snapshot -/

theorem lookup_foldl_insert {β : Type} (key : β → String) (k : String) (rows : List β)
    (m : AList fun _ : String => β) :
    (rows.foldl (fun m r => m.insert (key r) r) m).lookup k =
      (lookup key rows.reverse k).or (m.lookup k) := by
  induction rows generalizing m with
  | nil => rfl
  | cons r rows ih =>
    rw [foldl_cons, ih, reverse_cons, lookup, lookup, find?_append, Option.or_assoc]
    congr 1
    by_cases hk : key r = k
    · subst hk
      simp
    · rw [AList.lookup_insert_ne (Ne.symm hk)]
      simp [hk]

theorem lookup_collect {β : Type} {key : β → String} {rows : List β} (h : UniqueOn key rows)
    (k : String) : (collect key rows).lookup k = lookup key rows k := by
  rw [collect, lookup_foldl_insert, ← lookup_perm h (reverse_perm rows).symm]
  simp

theorem SchemaOk.playRows {db : Db} (hok : SchemaOk db) : UniqueOn (·.1.playKey) db.playRows := by
  rw [UniqueOn, List.Nodup, pairwise_map, Db.playRows, pairwise_filterMap]
  have hviewers := hok.viewerKey.sublist (filter_sublist (p := (·.enabled)))
  rw [UniqueOn, List.Nodup, pairwise_map] at hviewers
  refine hviewers.imp fun {v w} hne pair hpair pair' hpair' => ?_
  obtain ⟨s, -, rfl⟩ := map_eq_some_iff.1 hpair
  obtain ⟨t, -, rfl⟩ := map_eq_some_iff.1 hpair'
  exact hne

theorem lookup_load_play {db : Db} (hok : SchemaOk db) {g : UInt64} {key : String}
    (hvalid : isValidAccessKey key) :
    (KeySnapshot.load db g).play.lookup key = db.viewerAndStreamByPlayKey key := by
  rw [Db.viewerAndStreamByPlayKey, if_pos hvalid]
  exact lookup_collect hok.playRows key

theorem lookup_load_publish {db : Db} (hok : SchemaOk db) {g : UInt64} {key : String} {stream : Stream}
    (hvalid : isValidAccessKey key) (h : (KeySnapshot.load db g).publish.lookup key = some stream) :
    db.streamFindByPublishKeyAny key = some stream := by
  have huniq : UniqueOn (·.publishKey) ((db.streams.filter (·.enabled)).map (·.toStream)) := by
    have hsub := hok.publishKey.sublist (filter_sublist (p := (·.enabled)))
    rw [UniqueOn, List.map_map]
    exact hsub
  have hfound : lookup (·.publishKey) ((db.streams.filter (·.enabled)).map (·.toStream)) key =
      some stream := by
    rw [← lookup_collect huniq]
    exact h
  obtain ⟨hmem, hkey⟩ := huniq.lookup_eq_some.1 hfound
  obtain ⟨r, hr, rfl⟩ := mem_map.1 hmem
  have hrow : lookup (·.publishKey) db.streams key = some r :=
    hok.publishKey.lookup_eq_some.2 ⟨(mem_filter.1 hr).1, hkey⟩
  rw [Db.streamFindByPublishKeyAny, if_pos hvalid, hrow]
  rfl

/-! ### No snapshot is stale -/

namespace KeyCache

variable {s s' : KeyCache} {n : Nat}

/-- The snapshot was read from rows that its stamp stands for, at most `n` counts ago. -/
def Loaded (rows : Versioned Database) (n : Nat) (snapshot : KeySnapshot) : Prop :=
  ∀ g, snapshot.generation = some g →
    ∃ (d : Database) (m : Nat), m ≤ n ∧ snapshot = .load d.db g ∧ rows.Fresh m g d

def SnapshotsOk (n : Nat) (s : KeyCache) : Prop :=
  ∀ snapshot ∈ s.accessKeys :: s.loaded, Loaded s.rows n snapshot

theorem schemaOk (s : KeyCache) : SchemaOk s.db := s.rows.value.schemaOk

theorem snapshotsOk_start (db : Database) (generation : UInt64) :
    (start db generation).SnapshotsOk 0 := by
  intro snapshot hmem g hg
  rw [mem_singleton.1 hmem] at hg
  cases hg

theorem SnapshotsOk.step (h : s.SnapshotsOk n) {op : KeyCacheOp} (hs : s.step op = some s') :
    s'.SnapshotsOk (n + if op.counts then 1 else 0) := by
  cases op with
  | writer op =>
    obtain ⟨rows, hrows, rfl⟩ := map_eq_some_iff.1 hs
    intro snapshot hmem g hg
    obtain ⟨d, m, hm, hd, hfresh⟩ := h snapshot hmem g hg
    exact ⟨d, _, Nat.add_le_add_right hm _, hd, hfresh.step hrows⟩
  | refresh generation =>
    rw [KeyCache.step] at hs
    split_ifs at hs <;> cases hs <;> exact h
  | load ok =>
    rw [KeyCache.step] at hs
    split_ifs at hs with hfree hok <;> cases hs
    · rw [not_or, Bool.not_eq_true, isSome_eq_false_iff, isNone_iff_eq_none] at hfree
      intro snapshot hmem g hg
      rw [mem_cons, mem_append, mem_singleton] at hmem
      rcases hmem with rfl | hmem | rfl
      · exact h _ mem_cons_self g hg
      · exact h snapshot (mem_cons_of_mem _ hmem) g hg
      · cases hg
        exact ⟨s.rows.value, 0, Nat.zero_le _, rfl, .read hfree.2⟩
    · exact h
  | store i =>
    obtain ⟨stored, hi, rfl⟩ := map_eq_some_iff.1 hs
    have hstored : stored ∈ s.loaded := mem_of_getElem? hi
    intro snapshot hmem
    rcases mem_cons.1 hmem with rfl | hmem
    · exact h _ (mem_cons_of_mem _ hstored)
    · exact h snapshot (mem_cons_of_mem _ (mem_of_mem_eraseIdx hmem))

theorem SnapshotsOk.run (h : s.SnapshotsOk n) {ops : List KeyCacheOp}
    (hrun : replay KeyCache.step s ops = some s') :
    s'.SnapshotsOk (n + ops.countP KeyCacheOp.counts) := by
  induction ops generalizing s n with
  | nil =>
    cases hrun
    exact h
  | cons op ops ih =>
    obtain ⟨s₁, hs, hrun⟩ := replay_cons_eq_some.1 hrun
    rw [countP_cons, Nat.add_comm (ops.countP _), ← Nat.add_assoc]
    exact ih (h.step hs) hrun

theorem SnapshotsOk.current (h : s.SnapshotsOk n) (hn : n < 2 ^ 64)
    (hg : s.accessKeys.generation = some s.authGeneration) :
    s.accessKeys = .load s.db s.authGeneration := by
  obtain ⟨d, m, hm, hd, hfresh⟩ := h _ mem_cons_self _ hg
  rw [hd, hfresh.current (hm.trans_lt hn)]
  rfl

theorem cachedPlayKey_eq_some {key : String} {pair : StreamViewer × Stream} :
    s.cachedPlayKey key = some pair ↔
      s.accessKeys.generation = some s.authGeneration ∧ s.accessKeys.play.lookup key = some pair := by
  unfold cachedPlayKey
  split_ifs with hg
  · simp [hg]
  · simp [not_not.1 hg]

theorem cachedPublishKey_eq_some {key : String} {stream : Stream} :
    s.cachedPublishKey key = some stream ↔ s.accessKeys.generation = some s.authGeneration ∧
      s.accessKeys.publish.lookup key = some stream := by
  unfold cachedPublishKey
  split_ifs with hg
  · simp [hg]
  · simp [not_not.1 hg]

theorem SnapshotsOk.fastPlayKey (h : s.SnapshotsOk n) (hn : n < 2 ^ 64) {app key : String}
    {v : StreamViewer} {stream : Stream} (hfast : s.fastPlayKey app key = some (v, stream)) :
    s.db.viewerAndStreamByPlayKey key = some (v, stream) ∧ stream.enabled ∧
      stream.app = app := by
  unfold KeyCache.fastPlayKey at hfast
  split_ifs at hfast with hvalid
  obtain ⟨hcached, hcheck⟩ := filter_eq_some_iff.1 hfast
  obtain ⟨hg, hfound⟩ := cachedPlayKey_eq_some.1 hcached
  rw [Bool.and_eq_true, beq_iff_eq] at hcheck
  rw [h.current hn hg, lookup_load_play s.schemaOk hvalid] at hfound
  exact ⟨hfound, hcheck⟩

theorem SnapshotsOk.fastPublishKey (h : s.SnapshotsOk n) (hn : n < 2 ^ 64) {app key : String}
    {stream : Stream} (hfast : s.fastPublishKey app key = some stream) :
    s.db.streamFindByPublishKeyAny key = some stream ∧ stream.enabled ∧
      stream.app = app := by
  unfold KeyCache.fastPublishKey at hfast
  split_ifs at hfast with hvalid
  obtain ⟨hcached, hcheck⟩ := filter_eq_some_iff.1 hfast
  obtain ⟨hg, hfound⟩ := cachedPublishKey_eq_some.1 hcached
  rw [Bool.and_eq_true, beq_iff_eq] at hcheck
  rw [h.current hn hg] at hfound
  exact ⟨lookup_load_publish s.schemaOk hvalid hfound, hcheck⟩

end KeyCache

/-- **Keys on the fast path are never stale.** Whatever writers and refreshes did before, a key that
the fast path accepts is found with the same rows in the database as it is at that moment, and
passes the checks of the slow path. -/
theorem fast_path_keys_current {db : Database} {generation : UInt64} {ops : List KeyCacheOp}
    {s : KeyCache} (h : replay KeyCache.step (.start db generation) ops = some s)
    (hcount : ops.countP KeyCacheOp.counts < 2 ^ 64) (app key : String) :
    (∀ v stream, s.fastPlayKey app key = some (v, stream) →
      s.db.viewerAndStreamByPlayKey key = some (v, stream) ∧ stream.enabled = true ∧
        stream.app = app) ∧
    ∀ stream, s.fastPublishKey app key = some stream →
      s.db.streamFindByPublishKeyAny key = some stream ∧ stream.enabled = true ∧
        stream.app = app := by
  have hok := (KeyCache.snapshotsOk_start db generation).run h
  rw [Nat.zero_add] at hok
  exact ⟨fun _ _ hfast => hok.fastPlayKey hcount hfast, fun _ hfast => hok.fastPublishKey hcount hfast⟩

def cachedStream : Stream :=
  ⟨"s", "cam", "live", "pub_0000000000000000000000000000", "play_000000000000000000000000000",
    "stats_00000000000000000000000000", true, 0⟩

def cachedViewer : StreamViewer :=
  ⟨"v", "s", "Player 1", "play_000000000000000000000000000", true, 0⟩

def cachedDatabase (enabled : Bool) : Database where
  db := { Db.empty with
    streams := [⟨{ cachedStream with enabled := enabled }, false, "t"⟩], viewers := [cachedViewer] }
  schemaOk := by
    constructor <;> simp [Db.empty, UniqueOn, cachedViewer, cachedStream]

/-- A refresh, a disable that is rolled back, and a second refresh. Both results are stored, the
older one first. -/
def rolledBackOps : List KeyCacheOp :=
  [.refresh 0, .load true, .writer .lock, .writer .begin, .writer (.write (cachedDatabase false)),
    .writer .rollback, .writer .unlock, .refresh 1, .load true, .store 0, .store 0]

def rolledBackState : KeyCache where
  rows := ⟨cachedDatabase true, 1, none⟩
  accessKeys := .load (cachedDatabase true).db 1
  started := 0
  loaded := []

theorem fast_path_keys_rolled_back :
    replay KeyCache.step (.start (cachedDatabase true) 0) rolledBackOps = some rolledBackState ∧
      rolledBackState.fastPlayKey "live" cachedStream.playKey =
        some (cachedViewer, cachedStream) ∧
      rolledBackState.db.viewerAndStreamByPlayKey cachedStream.playKey =
        some (cachedViewer, cachedStream) := by
  have hrun : replay KeyCache.step (.start (cachedDatabase true) 0) rolledBackOps =
      some rolledBackState := rfl
  have hfast : rolledBackState.fastPlayKey "live" cachedStream.playKey =
      some (cachedViewer, cachedStream) := by decide +kernel
  exact ⟨hrun, hfast, ((fast_path_keys_current hrun (by decide) "live" _).1 _ _ hfast).1⟩

end RtmpServer
