import RtmpServer.Cluster.Agreement

/-!
# A crash in the middle of an install

`install_snapshot` commits the rows, then `last_applied` with the membership, then the snapshot
itself. After a restart the node applies the entries above its recorded `last_applied`. Between the
first two transactions the rows are already those of the snapshot while `last_applied` still names
the old entry, and replaying a suffix of a log onto its own result is not the identity.
-/

namespace RtmpServer

open Option Lib.Table Lib.Replay

/-- After the crash and the restart, applying the entries above `last_applied` up to `k` gives the
tables of the log at `k`. -/
def Repaired (log : RaftLog) (n : Node) (snap : StoredSnapshot) (c : CrashPoint) (k : Nat) : Prop :=
  ∃ n' d s, n.crashInstall snap c = some n' ∧
    replay step n'.db ((log.entries.take k).drop n'.applied) = some d ∧
    log.stateAt k = some s ∧ SameTables d s

section Replays

variable {log : RaftLog} (hrep : log.Replays) (hcar : log.Carries)

include hrep hcar

theorem replay_of_sameTables {i k : Nat} (hik : i ≤ k) {d s : Db} (hok : SchemaOk d)
    (hs : log.stateAt i = some s) (hsame : SameTables d s) :
    ∃ d' s', replay step d ((log.entries.take k).drop i) = some d' ∧ log.stateAt k = some s' ∧
      SameTables d' s' := by
  obtain ⟨s', hs'⟩ : ∃ s', log.stateAt k = some s' := by
    refine isSome_iff_exists.1 ?_
    by_cases hk : k ≤ log.entries.length
    · exact stateAt_isSome_of_le hk hrep
    · rw [RaftLog.stateAt, stateAt_of_length_le (by omega)]
      exact hrep
  have hstate := hs'
  rw [RaftLog.stateAt, stateAt_add hik] at hstate
  rw [RaftLog.stateAt] at hs
  rw [hs, bind_some] at hstate
  -- both sides keep the schema, which the steps need to be matched
  obtain ⟨d', hd', -, -, hsame'⟩ := replay_sim
    (R := fun a b : Db => SchemaOk a ∧ SchemaOk b ∧ SameTables a b)
    (fun a b e a' _ hR hstep => by
      obtain ⟨ha, hb, hab⟩ := hR
      obtain ⟨b', hb', hab'⟩ := hab.step ha hstep
      exact ⟨b', hb', step_schemaOk ha hstep, step_schemaOk hb hb', hab'⟩)
    ⟨(RaftLog.stateAt_inv hcar hs).1, hok, hsame.symm⟩ hstate
  exact ⟨d', s', hd', hs', hsame'.symm⟩

theorem repaired_of_restart {n n' : Node} {snap : StoredSnapshot} {c : CrashPoint} {k : Nat}
    (hc : n.crashInstall snap c = some n'.restart) (h : NodeOk log n') (hk : n'.applied ≤ k) :
    Repaired log n snap c k := by
  obtain ⟨s, hs, hsame⟩ := h.agrees
  have hre := reopen_sameTables h.tokens
  obtain ⟨d', s', hd', hs', hsame'⟩ := replay_of_sameTables hrep hcar hk
    h.schema.reopen hs (hre.trans hsame)
  exact ⟨n'.restart, d', s', hc, hd', hs', hsame'⟩

end Replays

/-! ### Finalize before begin -/

def crashStream : Stream := ⟨"s", "cam", "live", "pub", "play", "stats", true, 0⟩

def crashViewer : StreamViewer := ⟨"v", "s", "Player 1", "play", true, 0⟩

def createEntry : Entry := ⟨⟨1, 1, 1⟩, .normal (.createStream crashStream crashViewer "t")⟩

def finalizeEntry : Entry := ⟨⟨1, 1, 2⟩, .normal (.finalizeDeleteStream "s")⟩

def beginEntry : Entry := ⟨⟨1, 1, 3⟩, .normal (.beginDeleteStream "s" none none)⟩

/-- A finalize that is refused because the delete has not begun, and then the begin. -/
def crashLog : RaftLog where
  entries := [createEntry, finalizeEntry, beginEntry]
  index_eq := by rfl
  length_lt := by simp

def crashSource : Node :=
  ((Node.fresh.apply createEntry).apply finalizeEntry).apply beginEntry

theorem crashSource_nodeOk : NodeOk crashLog crashSource :=
  History.nodeOk (by decide) (by decide) (.apply (.apply (.apply .start rfl) rfl) rfl)

theorem fresh_nodeOk (log : RaftLog) : NodeOk log .fresh :=
  ⟨SchemaOk.empty, by simp [TokensSet, Node.fresh, Db.empty], .empty, by
    simp [RaftLog.stateAt, Node.applied, Node.fresh], .refl _⟩

/-- The rows of the snapshot hold the pending stream; replaying from the first entry, the finalize
now succeeds and the stream is gone. -/
theorem crashLog_not_repaired :
    ¬ Repaired crashLog .fresh (crashSource.buildSnapshot "1") .afterRows 3 := by
  rintro ⟨n', d, s, hc, hd, hs, hsame⟩
  have hreplay : (Node.fresh.crashInstall (crashSource.buildSnapshot "1") .afterRows).bind
      (fun n' => (replay step n'.db ((crashLog.entries.take 3).drop n'.applied)).map
        (·.streams)) = some [] := by
    decide
  have hlog : (crashLog.stateAt 3).map (·.streams.length) = some 1 := by decide
  rw [hc, bind_some, hd, map_some, some.injEq] at hreplay
  rw [hs, map_some, some.injEq] at hlog
  have hlen := hsame.streams.length_eq
  rw [hreplay, hlog] at hlen
  cases hlen

/-- A node that dies between the rows and `last_applied` of its first install loses the stream for
good. -/
theorem install_crash_loses_stream :
    crashLog.Replays ∧ crashLog.Carries ∧ NodeOk crashLog .fresh ∧ NodeOk crashLog crashSource ∧
      Node.fresh.applied < crashSource.applied ∧ crashSource.applied ≤ 3 ∧
      ¬ Repaired crashLog .fresh (crashSource.buildSnapshot "1") .afterRows 3 :=
  ⟨by decide, by decide, fresh_nodeOk _, crashSource_nodeOk, by decide, by decide,
    crashLog_not_repaired⟩

/-- **A crash during an install is repaired by replay exactly outside the gap between the first two
transactions**, whatever the log, the node and the snapshot are. -/
theorem crashInstall_repaired_iff (c : CrashPoint) :
    (∀ (log : RaftLog) (n m : Node) (snapshotId : String) (k : Nat), log.Replays → log.Carries →
      NodeOk log n → NodeOk log m → n.applied < m.applied → m.applied ≤ k →
      Repaired log n (m.buildSnapshot snapshotId) c k) ↔ c ≠ .afterRows := by
  constructor
  · rintro h rfl
    exact crashLog_not_repaired (h crashLog .fresh crashSource "1" 3 (by decide) (by decide)
      (fresh_nodeOk _) crashSource_nodeOk (by decide) (by decide))
  · intro hc log n m snapshotId k hrep hcar hn hm hlt hk
    obtain ⟨d, effects, hd, hok, hsame⟩ := hn.installRows hcar hm snapshotId hlt
    have hinst := NodeOk.installApplied (n := n) hm snapshotId hok hsame
    cases c with
    | beforeRows => exact repaired_of_restart hrep hcar rfl hn (by omega)
    | afterRows => exact absurd rfl hc
    | afterApplied =>
      refine repaired_of_restart hrep hcar ?_ hinst hk
      simp only [Node.crashInstall, Node.installRowsTx, hd, map_some]
    | afterStore =>
      have hcrash : n.crashInstall (m.buildSnapshot snapshotId) .afterStore =
          some ((Node.installAppliedTx { n with db := d }
            (m.buildSnapshot snapshotId).snapMeta).store (m.buildSnapshot snapshotId)).restart := by
        simp only [Node.crashInstall, Node.installSnapshot, Node.installRowsTx, hd, map_some]
      exact repaired_of_restart hrep hcar hcrash ⟨hinst.schema, hinst.tokens, hinst.agrees⟩ hk

end RtmpServer
