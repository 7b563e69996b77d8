import Mathlib.Data.Prod.Lex
import Mathlib.Order.WithBot
import RtmpServer.Cluster.Node

/-!
# Building snapshots while entries are applied

`build_snapshot` runs on its own task. It captures the rows under `apply_lock`, encodes them without
it and takes the lock again to publish; between the two, entries may be applied and snapshots
installed. A capture the node has moved past is thrown away, and the third one keeps the lock
throughout. `SnapSys` is one node with any number of such calls, and each step of it is one section
under `apply_lock`.
-/

namespace RtmpServer

open List Lib.Table

/-! ### Boundaries -/

/-- Log ids are compared by leader, term before node, and then by index. -/
instance : LinearOrder LogId :=
  LinearOrder.lift' (fun l : LogId => toLex (l.term.toNat, toLex (l.nodeId.toNat, l.index.toNat)))
    (by
      rintro ⟨t, n, i⟩ ⟨t', n', i'⟩ h
      simpa [UInt64.toNat_inj] using h)

/-- `Option<LogId>` with its order: nothing comes before every id. -/
abbrev Boundary := WithBot LogId

def toBoundary : Option LogId → Boundary
  | none => ⊥
  | some l => l

def StoredSnapshot.boundary (snap : StoredSnapshot) : Boundary := toBoundary snap.snapMeta.lastLogId

def Node.boundary (n : Node) : Boundary := toBoundary n.lastApplied

def storedBoundary (snap : Option StoredSnapshot) : Boundary := snap.elim ⊥ StoredSnapshot.boundary

def logIdAheadOfBoundary (current boundary : Option LogId) : Bool :=
  match current, boundary with
  | some c, some b => c > b
  | some _, none => true
  | _, _ => false

theorem logIdAheadOfBoundary_iff (current boundary : Option LogId) :
    logIdAheadOfBoundary current boundary ↔ toBoundary boundary < toBoundary current := by
  cases current with
  | none => simp [logIdAheadOfBoundary, toBoundary]
  | some c => cases boundary <;> simp [logIdAheadOfBoundary, toBoundary]

/-! ### The calls -/

def maxUnlockedAttempts : Nat := 2

/-- Where a call of `build_snapshot` stands between two lock sections. -/
inductive BuildPhase where
  | start (retries : Nat)
  | captured (retries : Nat) (snap : StoredSnapshot)
  | done (snap : StoredSnapshot)

structure Build where
  attempts : Nat
  phase : BuildPhase

/-- A node with its `current_snapshot` and the calls of `build_snapshot` on it. `raft_snapshots` is
the `snapshot` of the node. -/
structure SnapSys where
  node : Node
  current : Option StoredSnapshot
  builds : List Build

/-- A newer stored snapshot is returned instead, a capture the node has moved past is repeated, any
other is stored and returned. -/
def SnapSys.publish (s : SnapSys) (retries : Nat) (snap : StoredSnapshot) : SnapSys × BuildPhase :=
  match s.current.filter fun existing => existing.boundary > snap.boundary with
  | some existing => (s, .done existing)
  | none =>
    if logIdAheadOfBoundary s.node.lastApplied snap.snapMeta.lastLogId then
      (s, .start (retries + 1))
    else ({ s with node := s.node.store snap, current := some snap }, .done snap)

/-- `install_snapshot` is handed a snapshot some replica built, with a boundary this node has not
passed. Cluster ids come from the log, so the replica has one if this node does. -/
structure Offered (n : Node) (snap : StoredSnapshot) : Prop where
  built : ∃ (m : Node) (snapshotId : String), snap = m.buildSnapshot snapshotId ∧ SchemaOk m.db ∧
    (∀ r ∈ m.db.streams, r.deleteToken ≠ "") ∧
    (m.db.clusterIdGet = none → n.db.clusterIdGet = none)
  boundary : n.boundary ≤ snap.boundary

/-- One section under `apply_lock`, or the start of a call. -/
inductive SnapStep (s : SnapSys) : SnapSys → Prop
  | apply (e : Entry) (h : s.node.boundary < toBoundary (some e.logId)) :
    SnapStep s { s with node := s.node.apply e }
  | install (snap : StoredSnapshot) (h : Offered s.node snap) (n : Node)
      (hn : s.node.installSnapshot snap = some n) :
    SnapStep s { s with node := n, current := some snap }
  | call : SnapStep s { s with builds := s.builds ++ [⟨0, .start 0⟩] }
  | capture (i attempts retries : Nat) (snapshotId : String)
      (hi : s.builds[i]? = some ⟨attempts, .start retries⟩) (h : retries < maxUnlockedAttempts) :
    SnapStep s { s with
      builds := s.builds.set i
        ⟨attempts + 1, .captured retries (s.node.buildSnapshot snapshotId)⟩ }
  | publish (i attempts retries : Nat) (snap : StoredSnapshot)
      (hi : s.builds[i]? = some ⟨attempts, .captured retries snap⟩) :
    SnapStep s { (s.publish retries snap).1 with
      builds := s.builds.set i ⟨attempts, (s.publish retries snap).2⟩ }
  /-- The last attempt keeps the lock from the capture to the publication. -/
  | captureLocked (i attempts retries : Nat) (snapshotId : String)
      (hi : s.builds[i]? = some ⟨attempts, .start retries⟩) (h : ¬ retries < maxUnlockedAttempts) :
    SnapStep s { (s.publish retries (s.node.buildSnapshot snapshotId)).1 with
      builds := s.builds.set i
        ⟨attempts + 1, (s.publish retries (s.node.buildSnapshot snapshotId)).2⟩ }

/-- A run, with the states the node had on the way. A restart loses the calls and
`current_snapshot`. -/
inductive SnapRun : List Node → SnapSys → Prop
  | start : SnapRun [Node.fresh] ⟨Node.fresh, none, []⟩
  | step {past : List Node} {s s' : SnapSys} (h : SnapRun past s) (hs : SnapStep s s') :
    SnapRun (s'.node :: past) s'
  | restart {past : List Node} {s : SnapSys} (h : SnapRun past s) :
    SnapRun (s.node.restart :: past) ⟨s.node.restart, none, []⟩

/-- The snapshot holds the tables and the membership of `n` under its `last_applied`. -/
structure Captures (snap : StoredSnapshot) (n : Node) : Prop where
  boundary : snap.snapMeta.lastLogId = n.lastApplied
  membership : snap.snapMeta.lastMembership = n.lastMembership
  payload : ∃ m, SameTables m n.db ∧ snap.data = buildAppSnapshot m n.lastApplied

/-! ### One section -/

theorem captures_buildSnapshot (n : Node) (snapshotId : String) :
    Captures (n.buildSnapshot snapshotId) n := ⟨rfl, rfl, n.db, .refl _, rfl⟩

theorem Offered.captures {n n' : Node} {snap : StoredSnapshot} (h : Offered n snap)
    (hok : SchemaOk n.db) (hn : n.installSnapshot snap = some n') :
    Captures snap n' ∧ SchemaOk n'.db ∧ n'.boundary = snap.boundary ∧ n'.snapshot = some snap := by
  obtain ⟨m, snapshotId, rfl, hm, htok, hcid⟩ := h.built
  obtain ⟨d, effects, hinst, hd, hsame⟩ := installAppSnapshot_build hok hm htok hcid m.lastApplied
  have hrows : n.installRowsTx (m.buildSnapshot snapshotId) = some { n with db := d } := by
    show (installAppSnapshot n.db (buildAppSnapshot m.db m.lastApplied)).map _ = _
    rw [hinst]
    rfl
  rw [Node.installSnapshot, hrows, Option.map_some, Option.some.injEq] at hn
  subst hn
  exact ⟨⟨rfl, rfl, m.db, hsame.symm, rfl⟩, hd, rfl, rfl⟩

theorem Node.boundary_apply {n : Node} {e : Entry} (h : n.boundary < toBoundary (some e.logId)) :
    n.boundary ≤ (n.apply e).boundary := by
  unfold Node.apply
  split_ifs
  · exact le_rfl
  · exact h.le

inductive PublishSpec (s : SnapSys) (retries : Nat) (snap : StoredSnapshot) :
    SnapSys × BuildPhase → Prop
  | superseded (existing : StoredSnapshot) (h : existing ∈ s.current)
      (hlt : snap.boundary < existing.boundary) : PublishSpec s retries snap (s, .done existing)
  | behind (h : snap.boundary < s.node.boundary) :
    PublishSpec s retries snap (s, .start (retries + 1))
  | stored (h : s.node.boundary ≤ snap.boundary) :
    PublishSpec s retries snap
      ({ s with node := s.node.store snap, current := some snap }, .done snap)

theorem SnapSys.publish_spec (s : SnapSys) (retries : Nat) (snap : StoredSnapshot) :
    PublishSpec s retries snap (s.publish retries snap) := by
  unfold SnapSys.publish
  split
  · rename_i existing hex
    obtain ⟨hmem, hlt⟩ := Option.filter_eq_some_iff.1 hex
    exact .superseded existing hmem (of_decide_eq_true hlt)
  · have hiff := logIdAheadOfBoundary_iff s.node.lastApplied snap.snapMeta.lastLogId
    split_ifs with hahead
    · exact .behind (hiff.1 hahead)
    · exact .stored (not_lt.1 fun hlt => hahead (hiff.2 hlt))

def Held (past : List Node) (snap : StoredSnapshot) : Prop := ∃ n ∈ past, Captures snap n

theorem Held.cons {past : List Node} {snap : StoredSnapshot} (h : Held past snap) (n : Node) :
    Held (n :: past) snap := by
  obtain ⟨m, hm, hc⟩ := h
  exact ⟨m, mem_cons_of_mem _ hm, hc⟩

/-- Where a call may stand: its captures are counted by its retries, and what it holds was held by
the node. -/
def BuildOk (past : List Node) (b : Build) : Prop :=
  match b.phase with
  | .start retries => b.attempts = retries ∧ retries ≤ maxUnlockedAttempts
  | .captured retries snap =>
    b.attempts = retries + 1 ∧ retries < maxUnlockedAttempts ∧ Held past snap
  | .done snap => b.attempts ≤ maxUnlockedAttempts + 1 ∧ Held past snap

theorem BuildOk.cons {past : List Node} {b : Build} (h : BuildOk past b) (n : Node) :
    BuildOk (n :: past) b := by
  obtain ⟨attempts, phase⟩ := b
  cases phase with
  | start retries => exact h
  | captured retries snap => exact ⟨h.1, h.2.1, h.2.2.cons n⟩
  | done snap => exact ⟨h.1, h.2.cons n⟩

structure SnapInv (past : List Node) (s : SnapSys) : Prop where
  here : s.node ∈ past
  schema : SchemaOk s.node.db
  latest : ∀ n ∈ past, n.boundary ≤ s.node.boundary
  durable : ∀ snap ∈ s.node.snapshot, Held past snap
  current : ∀ snap ∈ s.current, Held past snap
  builds : ∀ b ∈ s.builds, BuildOk past b

structure Raises (s s' : SnapSys) : Prop where
  durable : storedBoundary s.node.snapshot ≤ storedBoundary s'.node.snapshot
  current : storedBoundary s.current ≤ storedBoundary s'.current

namespace SnapInv

variable {past : List Node} {s : SnapSys}

variable (h : SnapInv past s)
include h

theorem boundary_le {snap : StoredSnapshot} (hs : Held past snap) :
    snap.boundary ≤ s.node.boundary := by
  obtain ⟨n, hn, hc⟩ := hs
  rw [StoredSnapshot.boundary, hc.boundary]
  exact h.latest n hn

theorem storedBoundary_le {snap : Option StoredSnapshot}
    (hs : ∀ x ∈ snap, Held past x) : storedBoundary snap ≤ s.node.boundary := by
  cases snap with
  | none => exact bot_le
  | some x => exact h.boundary_le (hs x rfl)

theorem move {n : Node} {current : Option StoredSnapshot}
    (hschema : SchemaOk n.db) (hle : s.node.boundary ≤ n.boundary)
    (hdurable : ∀ snap ∈ n.snapshot, Held (n :: past) snap)
    (hcurrent : ∀ snap ∈ current, Held (n :: past) snap) :
    SnapInv (n :: past) ⟨n, current, s.builds⟩ := by
  refine ⟨mem_cons_self, hschema, fun m hm => ?_, hdurable, hcurrent,
    fun b hb => (h.builds b hb).cons n⟩
  rcases mem_cons.1 hm with rfl | hm
  · exact le_rfl
  · exact (h.latest m hm).trans hle

theorem set {i : Nat} {b : Build} (hb : BuildOk past b) :
    SnapInv (s.node :: past) { s with builds := s.builds.set i b } := by
  have hmove := h.move h.schema le_rfl (fun snap hs => (h.durable snap hs).cons s.node)
    (fun snap hs => (h.current snap hs).cons s.node)
  refine { hmove with builds := fun c hc => ?_ }
  rcases mem_or_eq_of_mem_set hc with hc | rfl
  · exact (h.builds c hc).cons _
  · exact hb.cons _

/-- The publishing section of a call with `attempts` captures. A capture that the node may have
moved past has a retry left. -/
theorem publish {i attempts retries : Nat} {snap : StoredSnapshot}
    (hheld : Held past snap) (hattempts : attempts = retries + 1)
    (hle : retries ≤ maxUnlockedAttempts)
    (hretry : snap.boundary < s.node.boundary → retries < maxUnlockedAttempts) :
    SnapInv ((s.publish retries snap).1.node :: past)
        { (s.publish retries snap).1 with
          builds := s.builds.set i ⟨attempts, (s.publish retries snap).2⟩ } ∧
      Raises s (s.publish retries snap).1 := by
  have hthree : attempts ≤ maxUnlockedAttempts + 1 := by omega
  have hspec := s.publish_spec retries snap
  generalize s.publish retries snap = r at hspec ⊢
  cases hspec with
  | superseded existing hmem hlt =>
    exact ⟨h.set ⟨hthree, h.current existing hmem⟩, le_rfl, le_rfl⟩
  | behind hlt =>
    exact ⟨h.set ⟨hattempts, hretry hlt⟩, le_rfl, le_rfl⟩
  | stored hge =>
    have hstored : ∀ x ∈ some snap, Held (s.node.store snap :: past) x := by
      rintro x ⟨⟩
      exact hheld.cons _
    have hmove : SnapInv (s.node.store snap :: past) ⟨s.node.store snap, some snap, s.builds⟩ :=
      h.move h.schema le_rfl hstored hstored
    refine ⟨{ hmove with builds := fun c hc => ?_ }, ?_, ?_⟩
    · rcases mem_or_eq_of_mem_set hc with hc | rfl
      · exact (h.builds c hc).cons _
      · exact ⟨hthree, hheld.cons _⟩
    · exact (h.storedBoundary_le h.durable).trans hge
    · exact (h.storedBoundary_le h.current).trans hge

/-- **Every section keeps the invariant and raises the boundaries.** -/
theorem step {s' : SnapSys} (hs : SnapStep s s') :
    SnapInv (s'.node :: past) s' ∧ Raises s s' := by
  cases hs with
  | apply e hlt =>
    have hsnap : (s.node.apply e).snapshot = s.node.snapshot := by
      unfold Node.apply
      split_ifs <;> rfl
    have hschema : SchemaOk (s.node.apply e).db := by
      rw [Node.db_apply]
      exact applyEntry_schemaOk h.schema e
    refine ⟨h.move hschema (Node.boundary_apply hlt) (fun snap hmem => ?_)
      (fun snap hmem => (h.current snap hmem).cons _), ?_, le_rfl⟩
    · rw [hsnap] at hmem
      exact (h.durable snap hmem).cons _
    · show storedBoundary s.node.snapshot ≤ storedBoundary (s.node.apply e).snapshot
      rw [hsnap]
  | install snap hoff n hn =>
    obtain ⟨hcap, hschema, hbound, hsnap⟩ := hoff.captures h.schema hn
    have hheld : ∀ x ∈ some snap, Held (n :: past) x := by
      rintro x ⟨⟩
      exact ⟨n, mem_cons_self, hcap⟩
    refine ⟨h.move hschema (hbound ▸ hoff.boundary) (hsnap ▸ hheld) hheld, ?_, ?_⟩
    · show storedBoundary s.node.snapshot ≤ storedBoundary n.snapshot
      rw [hsnap]
      exact (h.storedBoundary_le h.durable).trans hoff.boundary
    · exact (h.storedBoundary_le h.current).trans hoff.boundary
  | call =>
    have hmove := h.move h.schema le_rfl (fun snap hs => (h.durable snap hs).cons s.node)
      (fun snap hs => (h.current snap hs).cons s.node)
    refine ⟨{ hmove with builds := fun b hb => ?_ }, le_rfl, le_rfl⟩
    rcases mem_append.1 hb with hb | hb
    · exact (h.builds b hb).cons _
    · rw [mem_singleton.1 hb]
      exact ⟨rfl, Nat.zero_le _⟩
  | capture i attempts retries snapshotId hi hlt =>
    obtain ⟨hattempts, -⟩ := h.builds _ (mem_of_getElem? hi)
    refine ⟨h.set ⟨?_, hlt, s.node, h.here, captures_buildSnapshot _ _⟩, le_rfl, le_rfl⟩
    rw [show attempts = retries from hattempts]
  | publish i attempts retries snap hi =>
    obtain ⟨hattempts, hlt, hheld⟩ := h.builds _ (mem_of_getElem? hi)
    obtain ⟨hinv, hraise⟩ := h.publish (i := i) hheld hattempts hlt.le fun _ => hlt
    exact ⟨hinv, hraise.durable, hraise.current⟩
  | captureLocked i attempts retries snapshotId hi hlt =>
    obtain ⟨hattempts, hle⟩ := h.builds _ (mem_of_getElem? hi)
    have hheld : Held past (s.node.buildSnapshot snapshotId) :=
      ⟨s.node, h.here, captures_buildSnapshot _ _⟩
    -- nothing was applied since the capture, so there is no retry
    obtain ⟨hinv, hraise⟩ := h.publish (i := i) hheld
      (congrArg (· + 1) hattempts) hle fun hbehind => absurd hbehind (lt_irrefl _)
    exact ⟨hinv, hraise.durable, hraise.current⟩

theorem restart :
    SnapInv (s.node.restart :: past) ⟨s.node.restart, none, []⟩ := by
  have hmove : SnapInv (s.node.restart :: past) ⟨s.node.restart, none, s.builds⟩ :=
    h.move h.schema.reopen le_rfl (fun snap hs => (h.durable snap hs).cons _) nofun
  exact { hmove with builds := nofun }

end SnapInv

/-! ### Whole runs -/

theorem SnapRun.inv {past : List Node} {s : SnapSys} (h : SnapRun past s) : SnapInv past s := by
  induction h with
  | start =>
    refine ⟨mem_singleton.2 rfl, SchemaOk.empty, fun n hn => ?_, nofun, nofun, nofun⟩
    rw [mem_singleton.1 hn]
  | step _ hs ih => exact (ih.step hs).1
  | restart _ ih => exact ih.restart

structure SnapshotsSound (past : List Node) (s : SnapSys) : Prop where
  returned : ∀ b ∈ s.builds, ∀ snap, b.phase = .done snap → Held past snap
  current : ∀ snap ∈ s.current, Held past snap
  durable : ∀ snap ∈ s.node.snapshot, Held past snap
  raises : ∀ s', SnapStep s s' → Raises s s'
  attempts : ∀ b ∈ s.builds, b.attempts ≤ 3

/-- **Snapshots hold what their boundary says, in every interleaving.** -/
theorem snapshots_sound {past : List Node} {s : SnapSys} (h : SnapRun past s) :
    SnapshotsSound past s := by
  have hinv := h.inv
  refine ⟨fun b hb snap hphase => ?_, hinv.current, hinv.durable,
    fun s' hs => (hinv.step hs).2, fun b hb => ?_⟩
  · have hok := hinv.builds b hb
    rw [BuildOk, hphase] at hok
    exact hok.2
  · have hok := hinv.builds b hb
    have hmax : maxUnlockedAttempts = 2 := rfl
    obtain ⟨attempts, phase⟩ := b
    cases phase with
    | start retries =>
      obtain ⟨ha, hr⟩ := hok
      dsimp only at ha ⊢
      omega
    | captured retries snap =>
      obtain ⟨ha, hr, -⟩ := hok
      dsimp only at ha ⊢
      omega
    | done snap =>
      obtain ⟨ha, -⟩ := hok
      dsimp only at ha ⊢
      omega

/-- A call that an entry overtakes captures again and publishes. -/
theorem snapshots_sound_retry :
    ∃ past s, SnapRun past s ∧ s.builds.map (·.attempts) = [2] ∧ s.current.isSome = true ∧
      SnapshotsSound past s := by
  have hcaptured : SnapRun _ _ := .step (.step .start .call) (.capture 0 0 0 "--1" rfl (by decide))
  have hbehind : SnapRun _ _ := .step (.step hcaptured
    (.apply ⟨⟨1, 1, 1⟩, .blank⟩ (WithBot.bot_lt_coe _))) (.publish 0 1 0 _ rfl)
  have hdone : SnapRun _ _ := .step (.step hbehind (.capture 0 1 1 "1-1-2" rfl (by decide)))
    (.publish 0 2 1 _ rfl)
  exact ⟨_, _, hdone, rfl, rfl, snapshots_sound hdone⟩

end RtmpServer
