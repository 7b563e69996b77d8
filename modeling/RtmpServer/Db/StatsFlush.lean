import Mathlib.Data.UInt
import RtmpServer.Db.PlayerCounts
import RtmpServer.Lib.Assoc

/-!
# Queued statistics

The queues of `flush_pending_stats` under the operations that fill, flush and supersede them. The
two queues are changed alike (`StatsQueueOp`), so that a run of a database is a run of each of them.
-/

namespace RtmpServer

open List Lib.Assoc Lib.Table

abbrev StatsQueue (σ : Type) := AList fun _ : String => σ

/-- What an operation is to one of the queues. -/
inductive StatsQueueOp (σ : Type) where
  | queue (id : String) (p : σ)
  | supersede (id : String)
  | flush (newer : StatsQueue σ) (fault : Bool)
  | skip

namespace StatsQueueOp

variable {σ : Type} {q : StatsQueue σ} {op : StatsQueueOp σ} {id : String} {last : Option σ} {p : σ}

def apply (q : StatsQueue σ) : StatsQueueOp σ → StatsQueue σ
  | .queue id p => q.insert id p
  | .supersede id => q.erase id
  | .flush newer fault => if fault then newer ∪ q else newer
  | .skip => q

/-- What an operation leaves of the last record queued for `id`, if flushes leave it. -/
def latest (id : String) (last : Option σ) : StatsQueueOp σ → Option σ
  | .queue id' p => if id = id' then some p else last
  | .supersede id' => if id = id' then none else last
  | .flush newer _ => (newer.lookup id).or last
  | .skip => last

def left (id : String) (queued : Option σ) : StatsQueueOp σ → Option σ
  | .flush newer false => newer.lookup id
  | op => op.latest id queued

theorem lookup_apply (q : StatsQueue σ) (op : StatsQueueOp σ) (id : String) :
    (op.apply q).lookup id = op.left id (q.lookup id) := by
  cases op with
  | queue id' p => exact lookup_insert ..
  | supersede id' => exact lookup_erase ..
  | flush newer fault =>
    cases fault with
    | false => rfl
    | true =>
      show (newer ∪ q).lookup id = _
      by_cases hmem : id ∈ newer
      · rw [AList.lookup_union_left hmem]
        obtain ⟨p, hp⟩ := Option.isSome_iff_exists.1 (AList.lookup_isSome.2 hmem)
        simp [left, latest, hp]
      · rw [AList.lookup_union_right hmem]
        simp [left, latest, AList.lookup_eq_none.2 hmem]
  | skip => rfl

theorem latest_of_apply (h : ∀ p, q.lookup id = some p → last = some p)
    (hp : (op.apply q).lookup id = some p) : op.latest id last = some p := by
  have hlast : q.lookup id = none ∨ q.lookup id = last := by
    cases hq : q.lookup id with
    | none => exact .inl rfl
    | some q => exact .inr (h q hq).symm
  rw [lookup_apply] at hp
  unfold left at hp
  split at hp
  · rw [latest, hp, Option.some_or]
  · cases op <;> grind [latest]

theorem latest_of_run (ops : List (StatsQueueOp σ)) (id : String) :
    ∀ p, (ops.foldl apply ∅).lookup id = some p → ops.foldl (latest id) none = some p := by
  induction ops using reverseRecOn with
  | nil => exact nofun
  | append_singleton ops op ih =>
    intro p hp
    rw [foldl_append] at hp ⊢
    exact latest_of_apply ih hp

end StatsQueueOp

inductive StatsOp where
  | queuePublisherStats (id : String) (p : PublisherRecord)
  | queuePlayerStats (id : String) (p : PlayerRecord)
  | publisherUpdate (id : String) (p : PublisherRecord) (fault : UpdateFaults)
  | playerUpdate (id : String) (p : PlayerRecord) (fault : Bool)
  | flushPendingStats (newer : PendingStats) (fault : Bool)

namespace StatsOp

variable {s : SessionDb}

def run (s : SessionDb) : StatsOp → SessionDb
  | .queuePublisherStats id p => s.queuePublisherStats id p
  | .queuePlayerStats id p => s.queuePlayerStats id p
  | .publisherUpdate id p fault => (s.publisherUpdate id p fault).1
  | .playerUpdate id p fault => (s.playerUpdate id p fault).1
  | .flushPendingStats newer fault => s.flushPendingStats newer fault

/-- An update supersedes what is queued if its byte count fits. -/
def onPublishers : StatsOp → StatsQueueOp PublisherRecord
  | .queuePublisherStats id p => .queue id p
  | .publisherUpdate id p _ => if (tryI64 p.bytesIn).isSome then .supersede id else .skip
  | .flushPendingStats newer fault => .flush newer.publishers fault
  | _ => .skip

def onPlayers : StatsOp → StatsQueueOp PlayerRecord
  | .queuePlayerStats id p => .queue id p
  | .playerUpdate id p _ => if (tryI64 p.bytesOut).isSome then .supersede id else .skip
  | .flushPendingStats newer fault => .flush newer.players fault
  | _ => .skip

theorem run_pending (s : SessionDb) (op : StatsOp) : (op.run s).pending =
    ⟨op.onPublishers.apply s.pending.publishers, op.onPlayers.apply s.pending.players⟩ := by
  cases op with
  | queuePublisherStats | queuePlayerStats => rfl
  | publisherUpdate id p fault =>
    simp only [run, SessionDb.publisherUpdate, onPublishers, onPlayers]
    cases tryI64 p.bytesIn with
    | none => rfl
    | some b =>
      simp only [Option.isSome_some, if_true]
      split_ifs <;> rfl
  | playerUpdate id p fault =>
    simp only [run, SessionDb.playerUpdate, onPublishers, onPlayers]
    cases tryI64 p.bytesOut with
    | none => rfl
    | some b =>
      simp only [Option.isSome_some, if_true]
      split
      · rfl
      · split
        · rfl
        · split <;> rfl
  | flushPendingStats newer fault => cases fault <;> rfl

theorem foldl_run_pending (ops : List StatsOp) (s : SessionDb) : (ops.foldl run s).pending =
    ⟨(ops.map onPublishers).foldl StatsQueueOp.apply s.pending.publishers,
      (ops.map onPlayers).foldl StatsQueueOp.apply s.pending.players⟩ := by
  induction ops generalizing s with
  | nil => rfl
  | cons op ops ih =>
    rw [foldl_cons, ih, run_pending]
    rfl

end StatsOp

def Publisher.writeStats (q : Publisher) (p : PublisherRecord) : Publisher :=
  match tryI64 p.bytesIn with
  | some bytesIn => if q.active then { q with bytesIn, stats := p.stats } else q
  | none => q

def Player.writeStats (q : Player) (p : PlayerRecord) : Player :=
  match tryI64 p.bytesOut with
  | some bytesOut => if q.active then { q with bytesOut, stats := p.stats } else q
  | none => q

/-- A loop that writes every queued record into the row with its id. -/
theorem foldl_updateWhere {σ ρ : Type} (key : ρ → String) (write : ρ → σ → ρ)
    (hkey : ∀ q p, key (write q p) = key q) (queued : StatsQueue σ) (rows : List ρ) :
    queued.entries.foldl (fun rows e => updateWhere (fun q => key q = e.1) (write · e.2) rows)
      rows = rows.map fun q => (queued.lookup (key q)).elim q (write q) := by
  obtain ⟨entries, hnodup⟩ := queued
  show _ = rows.map fun q => (entries.dlookup (key q)).elim q (write q)
  dsimp only
  induction entries generalizing rows with
  | nil => simp
  | cons e entries ih =>
    obtain ⟨hnew, hnodup⟩ := nodupKeys_cons.1 hnodup
    rw [foldl_cons, ih _ hnodup, updateWhere, map_map]
    refine map_congr_left fun q _ => ?_
    simp only [Function.comp_apply, decide_eq_true_eq]
    by_cases he : key q = e.1
    · rw [if_pos he, hkey, he, dlookup_eq_none.2 hnew, dlookup_cons_eq]
      rfl
    · rw [if_neg he, dlookup_cons_ne _ _ he]

theorem Db.foldl_writePublisherStats (db : Db) (queued : StatsQueue PublisherRecord) :
    queued.entries.foldl (fun db e => db.writePublisherStats e.1 e.2) db = { db with
      publishers := db.publishers.map fun q => (queued.lookup q.id).elim q q.writeStats } := by
  have hkey (q : Publisher) (p : PublisherRecord) : (q.writeStats p).id = q.id := by
    unfold Publisher.writeStats
    split
    · split <;> rfl
    · rfl
  rw [← foldl_updateWhere _ _ hkey]
  refine foldl_hom (fun rows => { db with publishers := rows }) fun rows e => ?_
  unfold writePublisherStats Publisher.writeStats updateWhere
  cases tryI64 e.2.bytesIn with
  | none => simp
  | some bytesIn => grind

theorem Db.foldl_writePlayerStats (db : Db) (queued : StatsQueue PlayerRecord) :
    queued.entries.foldl (fun db e => db.writePlayerStats e.1 e.2) db = { db with
      players := db.players.map fun q => (queued.lookup q.id).elim q q.writeStats } := by
  have hkey (q : Player) (p : PlayerRecord) : (q.writeStats p).id = q.id := by
    unfold Player.writeStats
    split
    · split <;> rfl
    · rfl
  rw [← foldl_updateWhere _ _ hkey]
  refine foldl_hom (fun rows => { db with players := rows }) fun rows e => ?_
  unfold writePlayerStats Player.writeStats updateWhere
  cases tryI64 e.2.bytesOut with
  | none => simp
  | some bytesOut => grind

theorem SessionDb.flushPendingStats_db (s : SessionDb) (newer : PendingStats) :
    (s.flushPendingStats newer false).db = { s.db with
      publishers := s.db.publishers.map fun q =>
        (s.pending.publishers.lookup q.id).elim q q.writeStats
      players := s.db.players.map fun q =>
        (s.pending.players.lookup q.id).elim q q.writeStats } := by
  show s.pending.players.entries.foldl _ (s.pending.publishers.entries.foldl _ s.db) = _
  rw [Db.foldl_writePublisherStats, Db.foldl_writePlayerStats]

/-- **Queued statistics never undo a session change.** A flush writes the queued byte counts that
fit into the active rows and nothing else, and nothing at all if it fails; what is queued for a row
was queued after the last update of it whose byte count fits; and it leaves the queue by such an
update, a newer record or a successful flush only. -/
theorem stats_flush_keeps_sessions (db : Db) (ops : List StatsOp) (s : SessionDb)
    (h : ops.foldl StatsOp.run ⟨db, ⟨∅, ∅⟩⟩ = s) :
    (∀ newer fault, (s.flushPendingStats newer fault).db = if fault then s.db else { s.db with
      publishers := s.db.publishers.map fun q =>
        (s.pending.publishers.lookup q.id).elim q q.writeStats
      players := s.db.players.map fun q =>
        (s.pending.players.lookup q.id).elim q q.writeStats }) ∧
    (∀ id,
      (∀ p, s.pending.publishers.lookup id = some p →
        (ops.map StatsOp.onPublishers).foldl (StatsQueueOp.latest id) none = some p) ∧
      ∀ p, s.pending.players.lookup id = some p →
        (ops.map StatsOp.onPlayers).foldl (StatsQueueOp.latest id) none = some p) ∧
    ∀ (op : StatsOp) id,
      (op.run s).pending.publishers.lookup id =
        op.onPublishers.left id (s.pending.publishers.lookup id) ∧
      (op.run s).pending.players.lookup id =
        op.onPlayers.left id (s.pending.players.lookup id) := by
  refine ⟨fun newer fault => ?_, fun id => ?_, fun op id => ?_⟩
  · cases fault with
    | true => rfl
    | false => exact s.flushPendingStats_db newer
  · have hpending := StatsOp.foldl_run_pending ops ⟨db, ⟨∅, ∅⟩⟩
    rw [h] at hpending
    rw [hpending]
    exact ⟨StatsQueueOp.latest_of_run _ id, StatsQueueOp.latest_of_run _ id⟩
  · rw [StatsOp.run_pending]
    exact ⟨StatsQueueOp.lookup_apply _ _ id, StatsQueueOp.lookup_apply _ _ id⟩

/-- A session of seven bytes, of which the row does not know. -/
def flushedDb : Db :=
  { countedDatabase.db with players := [⟨"a", "s", "v", "live", "cam", 0, {}, 0, true⟩] }

def sevenBytes : PlayerRecord := { countedPlayer "a" true with bytesOut := 7 }

/-- What a failed flush puts back is still the last record queued, and the next flush writes it. -/
theorem stats_flush_keeps_sessions_requeued :
    let ops := [.queuePlayerStats "a" sevenBytes, .flushPendingStats ⟨∅, ∅⟩ true]
    (ops.map StatsOp.onPlayers).foldl (StatsQueueOp.latest "a") none = some sevenBytes ∧
      ((ops.foldl StatsOp.run ⟨flushedDb, ⟨∅, ∅⟩⟩).flushPendingStats ⟨∅, ∅⟩ false).db.players.map
        (·.bytesOut) = [7] := by
  intro ops
  have h := stats_flush_keeps_sessions flushedDb ops _ rfl
  refine ⟨(h.2.1 "a").2 _ rfl, ?_⟩
  rw [h.1]
  decide +kernel

/-- An update that is refused for its byte count leaves the record queued, so that the flush writes
what was queued before that update. -/
theorem stats_flush_after_refused_update :
    (([.queuePlayerStats "a" sevenBytes,
        .playerUpdate "a" { countedPlayer "a" false with bytesOut := 2 ^ 63 } false,
        .flushPendingStats ⟨∅, ∅⟩ false].foldl StatsOp.run
      ⟨flushedDb, ⟨∅, ∅⟩⟩).db.players.map (·.bytesOut)) = [7] := by
  decide +kernel

end RtmpServer
