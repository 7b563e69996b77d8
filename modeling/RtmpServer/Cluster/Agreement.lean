import RtmpServer.Cluster.Node

/-!
# Replica agreement

A node's history is any order of: applying the next entry, crashing any number of times after an
entry's SQL committed and then applying it again, building snapshots, and installing a snapshot
built by a node that is further along.

The log has to carry what the tables are compared by: non-empty delete tokens in its seeds, and
cluster ids that are not empty (`RaftLog.Carries`). A seed that is repeated has to be `SeedRedoable`
(`seed_redo_diverges`).
-/

namespace RtmpServer

open Lib.Table Lib.Replay List Option

variable {e : Entry} {db db' : Db} {c : Change}

/-! ### What the log carries -/

def ClusterCommand.Carries : ClusterCommand → Prop
  | .seedFromStandalone _ _ deleteTokens _ _ => ∀ t ∈ deleteTokens, t.2 ≠ ""
  | .setClusterId id => id ≠ ""
  | _ => True

instance (cmd : ClusterCommand) : Decidable cmd.Carries :=
  match cmd with
  | .seedFromStandalone _ _ deleteTokens _ _ =>
    inferInstanceAs (Decidable (∀ t ∈ deleteTokens, t.2 ≠ ""))
  | .setClusterId id => inferInstanceAs (Decidable (id ≠ ""))
  | .createStream .. | .beginDeleteStream .. | .finalizeDeleteStream .. | .setStreamEnabled ..
  | .createViewer .. | .deleteViewer .. | .setApiToken .. | .acquireStreamOwner ..
  | .releaseStreamOwner .. | .releaseOwnersForNode .. => .isTrue trivial

def Entry.Carries (e : Entry) : Prop :=
  match e.payload with
  | .normal cmd => cmd.Carries
  | _ => True

instance (e : Entry) : Decidable e.Carries := by
  unfold Entry.Carries
  split <;> infer_instance

/-- Seeds carry non-empty delete tokens, and a cluster id is never set to the empty string. -/
def RaftLog.Carries (log : RaftLog) : Prop := ∀ e ∈ log.entries, e.Carries

instance (log : RaftLog) : Decidable log.Carries := by
  unfold RaftLog.Carries
  infer_instance

def Change.Carries : Change → Prop
  | .insertStream _ token => token ≠ ""
  | .setClusterId id => id ≠ ""
  | _ => True

def TokensSet (db : Db) : Prop := ∀ r ∈ db.streams, r.deleteToken ≠ ""

theorem createToken_ne_empty (s : Stream) (token : String) : createToken s token ≠ "" := by
  unfold createToken
  split_ifs with h
  · exact legacyDeleteToken_ne_empty _ _
  · exact h

theorem seedToken_ne_empty {tokens : List (String × String)} (h : ∀ t ∈ tokens, t.2 ≠ "")
    (s : Stream) : seedToken tokens s ≠ "" := by
  unfold seedToken tokenFor
  cases hl : lookup Prod.fst tokens.reverse s.id with
  | none => exact legacyDeleteToken_ne_empty _ _
  | some t => exact h t (mem_reverse.1 (mem_of_lookup hl))

theorem ClusterCommand.Carries.makes {index : UInt64} {cmd : ClusterCommand} (h : cmd.Carries)
    (hc : cmd.Makes index c) : c.Carries := by
  cases cmd with
  | createStream s v token =>
    rcases hc with rfl | rfl
    · exact createToken_ne_empty s token
    · trivial
  | deleteViewer streamId viewerId => rcases hc with rfl | rfl <;> trivial
  | acquireStreamOwner streamId nodeId epoch acquiredAt => rcases hc with rfl | rfl <;> trivial
  | seedFromStandalone streams viewers tokens apiToken pending =>
    rcases hc with ⟨s, -, rfl⟩ | ⟨v, -, rfl⟩ | ⟨t, -, rfl⟩ | ⟨id, -, rfl⟩
    · exact seedToken_ne_empty h s
    all_goals trivial
  | setClusterId id =>
    cases hc
    exact h
  | _ =>
    cases hc
    trivial

theorem TokensSet.run (h : TokensSet db) (hc : c.Carries) (hr : c.run db = some db') :
    TokensSet db' := by
  cases c with
  | insertStream s token =>
    obtain ⟨-, rfl⟩ := Db.insertStream_eq_some.1 hr
    intro r hr
    rcases mem_append.1 hr with hr | hr
    · exact h r hr
    · rw [mem_singleton.1 hr]
      exact hc
  | insertViewer v =>
    obtain ⟨-, -, rfl⟩ := Db.insertViewer_eq_some.1 hr
    exact h
  | insertOwner o =>
    obtain ⟨-, -, rfl⟩ := Db.insertOwner_eq_some.1 hr
    exact h
  | setStreamFlags p enabled pendingDelete =>
    cases hr
    intro r hr
    obtain ⟨a, ha, rfl⟩ := mem_updateWhere.1 hr
    have := h a ha
    split_ifs <;> exact this
  | deleteStream id =>
    cases hr
    unfold Db.streamDeleteIfPending
    dsimp only
    split_ifs
    · exact fun r hr => h r (mem_of_mem_deleteWhere hr)
    · exact h
  | _ =>
    cases hr
    exact h

theorem clusterIdGet_run (hc : c.Carries) (hr : c.run db = some db') (h : db.clusterIdGet ≠ none) :
    db'.clusterIdGet ≠ none := by
  cases c with
  | insertStream s token =>
    obtain ⟨-, rfl⟩ := Db.insertStream_eq_some.1 hr
    exact h
  | insertViewer v =>
    obtain ⟨-, -, rfl⟩ := Db.insertViewer_eq_some.1 hr
    exact h
  | insertOwner o =>
    obtain ⟨-, -, rfl⟩ := Db.insertOwner_eq_some.1 hr
    exact h
  | deleteStream id =>
    cases hr
    unfold Db.streamDeleteIfPending
    dsimp only
    split_ifs <;> exact h
  | setClusterId id =>
    cases hr
    have hid : id ≠ "" := hc
    simp [Db.clusterIdGet, Db.clusterIdSet, hid]
  | _ =>
    cases hr
    exact h

theorem applyEntry_reaches (h : e.Carries) (db : Db) :
    Reaches Change.Carries db (applyEntry db e).db := by
  unfold applyEntry Entry.Carries at *
  cases hp : e.payload with
  | blank => exact .refl _ db
  | normal cmd =>
    rw [hp] at h
    exact (applyNormal_reaches _ db cmd).mono fun c hc => ClusterCommand.Carries.makes h hc
  | membership mem => exact .refl _ db

theorem TokensSet.applyEntry {db : Db} (h : TokensSet db) (he : e.Carries) :
    TokensSet (applyEntry db e).db :=
  (applyEntry_reaches he db).inv (fun _ _ _ hc hdb hr => hdb.run hc hr) h

theorem clusterIdGet_applyEntry {db : Db} (he : e.Carries) (h : db.clusterIdGet ≠ none) :
    (RtmpServer.applyEntry db e).db.clusterIdGet ≠ none :=
  (applyEntry_reaches he db).inv (fun _ _ _ hc hdb hr => clusterIdGet_run hc hr hdb) h

/-! ### The states of a log -/

namespace RaftLog

variable {log : RaftLog} (hlog : log.Carries)

include hlog

theorem stateAt_inv {i : Nat} {s : Db} (h : log.stateAt i = some s) : SchemaOk s ∧ TokensSet s := by
  refine replay_inv (P := fun db => SchemaOk db ∧ TokensSet db) (fun db e db' he hdb hs => ?_)
    ⟨SchemaOk.empty, by simp [TokensSet, Db.empty]⟩ h
  have hc := hlog e (mem_of_mem_take he)
  refine ⟨step_schemaOk hdb.1 hs, ?_⟩
  obtain ⟨-, rfl⟩ := step_eq_some.1 hs
  exact hdb.2.applyEntry hc

theorem stateAt_clusterId {i j : Nat} (hij : i ≤ j) {s t : Db} (hs : log.stateAt i = some s)
    (ht : log.stateAt j = some t) (h : s.clusterIdGet ≠ none) : t.clusterIdGet ≠ none := by
  unfold stateAt at hs ht
  rw [stateAt_add hij, hs, bind_some] at ht
  refine replay_inv (P := fun db : Db => db.clusterIdGet ≠ none) (fun db e db' he hdb hstep => ?_) h ht
  have hc := hlog e (mem_of_mem_take (mem_of_mem_drop he))
  obtain ⟨-, rfl⟩ := step_eq_some.1 hstep
  exact clusterIdGet_applyEntry hc hdb

end RaftLog

/-! ### Repeating an entry -/

def Entry.SeedRedoable (db : Db) (e : Entry) : Prop :=
  match e.payload with
  | .normal cmd => RtmpServer.SeedRedoable db cmd
  | _ => True

instance (db : Db) (e : Entry) : Decidable (Entry.SeedRedoable db e) := by
  unfold Entry.SeedRedoable
  split <;> infer_instance

theorem SameTables.seedRedoable (h : SameTables db db') (hok : SchemaOk db)
    (hs : Entry.SeedRedoable db e) : Entry.SeedRedoable db' e := by
  unfold Entry.SeedRedoable at hs ⊢
  cases hp : e.payload with
  | normal cmd =>
    rw [hp] at hs
    cases cmd with
    | seedFromStandalone streams viewers tokens apiToken pending =>
      intro v hv hpar
      rw [← h.viewerKeyTaken hok]
      exact hs v hv (by rw [h.parentAvailable]; exact hpar)
    | _ => trivial
  | blank => trivial
  | membership mem => trivial

theorem applyEntry_redo {db : Db} (hok : SchemaOk db) (e : Entry)
    (hfirst : (applyEntry db e).response.isError = false)
    (hseed : Entry.SeedRedoable (applyEntry db e).db e) :
    SameTables (applyEntry (applyEntry db e).db e).db (applyEntry db e).db ∧
      (applyEntry (applyEntry db e).db e).response.isError = false := by
  unfold applyEntry Entry.SeedRedoable at *
  cases hp : e.payload with
  | blank => exact ⟨.refl _, rfl⟩
  | normal cmd =>
    rw [hp] at hfirst hseed
    exact applyNormal_redo hok _ cmd hfirst hseed
  | membership mem => exact ⟨.refl _, rfl⟩

/-! ### Histories -/

/-- The nodes a history over `log` can lead to. `Redoable` restricts the databases on which an entry
is applied again after a crash. -/
inductive History (log : RaftLog) (Redoable : Db → Entry → Prop) : Node → Prop
  | start : History log Redoable .fresh
  | apply {n : Node} {e : Entry} (h : History log Redoable n)
      (he : log.entries[n.applied]? = some e) : History log Redoable (n.apply e)
  /-- `k + 1` crashes in a row, each after the SQL of `e`, and then `e` is applied. -/
  | redo {n : Node} {e : Entry} (k : Nat) (h : History log Redoable n)
      (he : log.entries[n.applied]? = some e)
      (hr : ∀ j ≤ k, Redoable ((fun m => m.crashAfterSql e)^[j + 1] n).db e) :
      History log Redoable (((fun m => m.crashAfterSql e)^[k + 1] n).apply e)
  | build {n : Node} (snapshotId : String) (h : History log Redoable n) :
      History log Redoable (n.store (n.buildSnapshot snapshotId))
  | install {n m n' : Node} (snapshotId : String) (h : History log Redoable n)
      (h' : History log Redoable m) (hlt : n.applied < m.applied)
      (hi : n.installSnapshot (m.buildSnapshot snapshotId) = some n') : History log Redoable n'

/-- The replicated tables are those of the log at the node's `last_applied`. -/
def Node.Agrees (log : RaftLog) (n : Node) : Prop :=
  ∃ s, log.stateAt n.applied = some s ∧ SameTables n.db s

structure NodeOk (log : RaftLog) (n : Node) : Prop where
  schema : SchemaOk n.db
  tokens : TokensSet n.db
  agrees : n.Agrees log

section Steps

variable {log : RaftLog} (hrep : log.Replays) (hcar : log.Carries)
variable {n : Node} {e : Entry}

include hrep hcar

theorem NodeOk.next (h : NodeOk log n) (he : log.entries[n.applied]? = some e) :
    (applyEntry n.db e).response.isError = false ∧
      ∃ s, log.stateAt (n.applied + 1) = some s ∧ SameTables (applyEntry n.db e).db s := by
  have hsim : ∀ s s', log.stateAt n.applied = some s → SameTables n.db s → step s e = some s' →
      ∃ t, step n.db e = some t ∧ SameTables t s' := by
    intro s s' hs hsame hstep
    obtain ⟨t, ht, hts⟩ := hsame.symm.step (RaftLog.stateAt_inv hcar hs).1 hstep
    exact ⟨t, ht, hts.symm⟩
  obtain ⟨t, ht, s, hs, hsame⟩ :=
    Lib.Replay.Agrees.apply (r := ⟨n.db, n.applied⟩) hrep hsim h.agrees he
  obtain ⟨hresp, rfl⟩ := step_eq_some.1 ht
  exact ⟨hresp, s, hs, hsame⟩

theorem NodeOk.apply (h : NodeOk log n) (he : log.entries[n.applied]? = some e) :
    NodeOk log (n.apply e) := by
  obtain ⟨hresp, s, hs, hsame⟩ := h.next hrep hcar he
  have hc : e.Carries := hcar e (mem_of_getElem? he)
  refine ⟨?_, ?_, s, ?_, ?_⟩
  · rw [Node.db_apply]
    exact applyEntry_schemaOk h.schema e
  · rw [Node.db_apply]
    exact h.tokens.applyEntry hc
  · rw [Node.applied_apply he hresp]
    exact hs
  · rw [Node.db_apply]
    exact hsame

/-- After any number of crashes on one entry the node holds the tables of its first application,
under the old `last_applied`. -/
theorem NodeOk.crashes (h : NodeOk log n) (he : log.entries[n.applied]? = some e) (k : Nat)
    (hr : ∀ j < k, Entry.SeedRedoable ((fun m => m.crashAfterSql e)^[j + 1] n).db e) :
    let m := (fun m => m.crashAfterSql e)^[k + 1] n
    SchemaOk m.db ∧ TokensSet m.db ∧ SameTables m.db (applyEntry n.db e).db ∧
      m.lastApplied = n.lastApplied := by
  have hc : e.Carries := hcar e (mem_of_getElem? he)
  obtain ⟨hresp, -⟩ := h.next hrep hcar he
  have hfirst := applyEntry_schemaOk h.schema e
  induction k with
  | zero =>
    have htok := h.tokens.applyEntry hc
    exact ⟨hfirst.reopen, fun r hr => htok r ((reopen_sameTables htok).streams.mem_iff.1 hr),
      reopen_sameTables htok, rfl⟩
  | succ k ih =>
    obtain ⟨hok, htok, hsame, hla⟩ := ih fun j hj => hr j (by omega)
    set m := (fun m => m.crashAfterSql e)^[k + 1] n with hm
    have hredo : Entry.SeedRedoable (applyEntry n.db e).db e :=
      hsame.seedRedoable hok (hr k (by omega))
    obtain ⟨hagain, -⟩ := applyEntry_redo h.schema e hresp hredo
    have hsame₂ : SameTables (applyEntry m.db e).db (applyEntry n.db e).db :=
      (hsame.applyEntry hok e).db.trans hagain
    have htok₂ := htok.applyEntry hc
    rw [Function.iterate_succ_apply', ← hm]
    exact ⟨(applyEntry_schemaOk hok e).reopen,
      fun r hr => htok₂ r ((reopen_sameTables htok₂).streams.mem_iff.1 hr),
      (reopen_sameTables htok₂).trans hsame₂, hla⟩

theorem NodeOk.redo (h : NodeOk log n) (he : log.entries[n.applied]? = some e) (k : Nat)
    (hr : ∀ j ≤ k, Entry.SeedRedoable ((fun m => m.crashAfterSql e)^[j + 1] n).db e) :
    NodeOk log (((fun m => m.crashAfterSql e)^[k + 1] n).apply e) := by
  obtain ⟨hok, htok, hsame, hla⟩ := h.crashes hrep hcar he k fun j hj => hr j (by omega)
  set m := (fun m => m.crashAfterSql e)^[k + 1] n
  obtain ⟨hresp, s, hs, hfirst⟩ := h.next hrep hcar he
  have hredo := hsame.seedRedoable hok (hr k le_rfl)
  obtain ⟨hagain, hresp₂⟩ := applyEntry_redo h.schema e hresp hredo
  have happly := hsame.applyEntry hok e
  have happlied : m.applied = n.applied := by rw [Node.applied, Node.applied, hla]
  have herr : (applyEntry m.db e).response.isError = false := by
    rw [happly.response]
    exact hresp₂
  have hrec : (m.apply e).applied = n.applied + 1 := by
    rw [← happlied]
    exact Node.applied_apply (by rw [happlied]; exact he) herr
  refine ⟨?_, ?_, s, ?_, ?_⟩
  · rw [Node.db_apply]
    exact applyEntry_schemaOk hok e
  · rw [Node.db_apply]
    exact htok.applyEntry (hcar e (mem_of_getElem? he))
  · rw [hrec]
    exact hs
  · rw [Node.db_apply]
    exact (happly.db.trans hagain).trans hfirst

omit hrep in
theorem NodeOk.installRows {n m : Node} (h : NodeOk log n) (h' : NodeOk log m)
    (snapshotId : String) (hlt : n.applied < m.applied) :
    ∃ d effects, installAppSnapshot n.db (m.buildSnapshot snapshotId).data = some (d, effects) ∧
      SchemaOk d ∧ SameTables d m.db := by
  obtain ⟨s, hs, hns⟩ := h.agrees
  obtain ⟨t, ht, hmt⟩ := h'.agrees
  have hcid : m.db.clusterIdGet = none → n.db.clusterIdGet = none := by
    intro hnone
    by_contra hsome
    rw [hns.clusterId] at hsome
    exact RaftLog.stateAt_clusterId hcar hlt.le hs ht hsome (hmt.clusterId ▸ hnone)
  exact installAppSnapshot_build h.schema h'.schema h'.tokens hcid m.lastApplied

omit hrep hcar in
theorem NodeOk.installApplied {n m : Node} (h' : NodeOk log m) (snapshotId : String) {d : Db}
    (hok : SchemaOk d) (hsame : SameTables d m.db) :
    NodeOk log (Node.installAppliedTx { n with db := d } (m.buildSnapshot snapshotId).snapMeta) := by
  obtain ⟨t, ht, hmt⟩ := h'.agrees
  exact ⟨hok, fun r hr => h'.tokens r (hsame.streams.mem_iff.1 hr), t, ht, hsame.trans hmt⟩

omit hrep in
theorem NodeOk.install {n m n' : Node} (h : NodeOk log n) (h' : NodeOk log m) (snapshotId : String)
    (hlt : n.applied < m.applied)
    (hi : n.installSnapshot (m.buildSnapshot snapshotId) = some n') : NodeOk log n' := by
  obtain ⟨d, effects, hd, hok, hsame⟩ := h.installRows hcar h' snapshotId hlt
  have hinst := NodeOk.installApplied (n := n) h' snapshotId hok hsame
  simp only [Node.installSnapshot, Node.installRowsTx, hd, map_some,
    some.injEq] at hi
  rw [← hi]
  exact ⟨hinst.schema, hinst.tokens, hinst.agrees⟩

theorem History.nodeOk (h : History log (fun db e => e.SeedRedoable db) n) : NodeOk log n := by
  induction h with
  | start => exact ⟨SchemaOk.empty, by simp [TokensSet, Node.fresh, Db.empty], .empty, by
      simp [RaftLog.stateAt, Node.applied, Node.fresh], .refl _⟩
  | apply _ he ih => exact ih.apply hrep hcar he
  | redo k _ he hr ih => exact ih.redo hrep hcar he k hr
  | build snapshotId _ ih => exact ⟨ih.schema, ih.tokens, ih.agrees⟩
  | install snapshotId _ _ hlt hi ih ih' => exact ih.install hcar ih' snapshotId hlt hi

/-- **Replica agreement.** In every history over a log that replays and carries its tokens, where
seeds are only repeated when redoable, a node with `last_applied = i` holds the tables the log
produces at `i`. -/
theorem node_agrees {n : Node} (h : History log (fun db e => e.SeedRedoable db) n) :
    n.Agrees log :=
  (h.nodeOk hrep hcar).agrees

end Steps

/-! ### A seed that cannot be repeated -/

/-- A stream left mid-delete by a standalone server, with keys from before the length rule. -/
def legacyStream : Stream := ⟨"s", "cam", "live", "pub", "play", "stats", false, 0⟩

def legacyDefaultViewer : StreamViewer := ⟨"v1", "s", "Player 1", "play", true, 0⟩

/-- A second viewer whose key `is_valid_access_key` refuses. -/
def legacyExtraViewer : StreamViewer := ⟨"v2", "s", "Player 2", "extra", true, 1⟩

/-- A cluster bootstrapped from a standalone server with the given viewers. -/
def seedEntry (viewers : List StreamViewer) : Entry :=
  ⟨⟨1, 1, 2⟩, .normal (.seedFromStandalone [legacyStream] viewers [("s", "t")] (some "tok") ["s"])⟩

def seedLog (viewers : List StreamViewer) : RaftLog where
  entries := [⟨⟨1, 1, 1⟩, .normal (.setClusterId "c")⟩, seedEntry viewers]
  index_eq := by rfl
  length_lt := by simp

def seedRedoNode (viewers : List StreamViewer) : Node :=
  ((Node.fresh.apply ⟨⟨1, 1, 1⟩, .normal (.setClusterId "c")⟩).crashAfterSql
    (seedEntry viewers)).apply (seedEntry viewers)

/-- With the default viewer alone the seed may be repeated. -/
theorem node_agrees_seed :
    (seedRedoNode [legacyDefaultViewer]).Agrees (seedLog [legacyDefaultViewer]) :=
  node_agrees (by decide) (by decide) (.redo 0 (.apply .start rfl) rfl (by decide))

/-- The extra viewer finds its stream pending the second time: the node keeps the seeded rows under
the index before the seed. -/
theorem seed_redo_diverges :
    let log := seedLog [legacyDefaultViewer, legacyExtraViewer]
    let n := seedRedoNode [legacyDefaultViewer, legacyExtraViewer]
    log.Replays ∧ log.Carries ∧ History log (fun _ _ => True) n ∧ ¬ n.Agrees log := by
  refine ⟨by decide, by decide, .redo 0 (.apply .start rfl) rfl fun _ _ => trivial, ?_⟩
  rintro ⟨s, hs, hsame⟩
  have hlog : ((seedLog [legacyDefaultViewer, legacyExtraViewer]).stateAt
      (seedRedoNode [legacyDefaultViewer, legacyExtraViewer]).applied).map (·.streams) = some [] := by
    decide
  have hnode : (seedRedoNode [legacyDefaultViewer, legacyExtraViewer]).db.streams.length = 1 := by
    decide
  rw [hs, map_some, some.injEq] at hlog
  have hlen := hsame.streams.length_eq
  rw [hlog, hnode] at hlen
  cases hlen

end RtmpServer
