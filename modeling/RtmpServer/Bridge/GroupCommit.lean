import RtmpServer.Bridge.AuthWorker
import RtmpServer.Bridge.OrphanRows

/-!
# Group commit

Grouping the authorizations of a run changes nothing as long as the transactions are committed. When
a commit fails, the tables are those of before the group, and the writes that follow deactivate the
rows that its connections had replaced (`Deactivates`). None of this holds of a group whose
transaction a failed statement has ended (`ended_transaction_leaves_row`).
-/

namespace RtmpServer

open Option List Lib.Table Lib.Program Bridge

variable {e : HeldRows} {s : Bridge} {group : List Job}
  {t : Worker} {r : SessionRow}

/-! ### Committed groups -/

theorem runJobs_append (jobs jobs' : List Job) :
    runJobs (jobs ++ jobs') =
      runJobs jobs >>= fun completions => runJobs jobs' >>= fun completions' =>
        .ret (completions ++ completions') := by
  induction jobs with
  | nil =>
    show runJobs jobs' = runJobs jobs' >>= .ret
    exact (Prog.bind_ret _).symm
  | cons job jobs ih =>
    simp only [cons_append, runJobs, ih, Prog.bind_assoc, Prog.pure_eq, Prog.ret_bind,
      append_assoc]

theorem run_runJobs_append (t : Worker) (jobs jobs' : List Job) :
    (runJobs (jobs ++ jobs')).run Worker.perform t =
      (((runJobs jobs').run Worker.perform ((runJobs jobs).run Worker.perform t).1).1,
        ((runJobs jobs).run Worker.perform t).2 ++
          ((runJobs jobs').run Worker.perform ((runJobs jobs).run Worker.perform t).1).2) := by
  rw [runJobs_append, Prog.run_bind, Prog.run_bind]
  rfl

/-! ### A transaction that stays open -/

theorem Action.execIn_open {a : Action} {w : Outcome} {s : Bridge} {tables : Db}
    (h : (a.execIn w s (some tables)).1.2 ≠ none) :
    a.execIn w s (some tables) = (((a.exec w s).1, some tables), (a.exec w s).2) := by
  unfold Action.execIn Action.outcomeIn at h ⊢
  cases hends : a.endsIn w (some tables) with
  | true => exact absurd (by rw [hends]; rfl) h
  | false => rfl

/-- A program at whose end the transaction is open has run as it would have alone. -/
theorem Grouped.run_open {α : Type} (p : BridgeM α) (g : Grouped)
    (h : (p.run perform g).1.before ≠ none) :
    p.run perform g = (⟨(p.run Worker.perform g.worker).1, g.before⟩,
      (p.run Worker.perform g.worker).2) := by
  induction p generalizing g with
  | ret result => rfl
  | act a next ih =>
    obtain ⟨t, before⟩ := g
    have hfirst : perform a ⟨t, before⟩ =
        (⟨(Worker.perform a t).1, before⟩, (Worker.perform a t).2) := by
      cases before with
      | none => rfl
      | some tables =>
        -- a transaction that has ended does not come back
        have hopen : (a.execIn (t.outcomes 0) t.bridge (some tables)).1.2 ≠ none := fun hended =>
          h (Prog.run_inv (I := fun g : Grouped => g.before = none)
            (fun a g hg => by rw [perform, hg]; rfl) (next _) hended)
        rw [perform, Action.execIn_open hopen]
        rfl
    rw [Prog.run, hfirst] at h ⊢
    exact ih _ _ h

namespace Worker

variable {commits : Nat → Commit}

theorem runGroup_open (h : (t.runGroup group).1.before.isSome) :
    t.runGroup group = (⟨((runJobs group).run perform t).1, some t.bridge.db⟩,
      ((runJobs group).run perform t).2) :=
  Grouped.run_open (runJobs group) ⟨t, some t.bridge.db⟩ (isSome_iff_ne_none.1 h)

theorem runAuthorizationGroup_committed {commit : Commit} (h : t.commits commit group) :
    runAuthorizationGroup commit t group = (runJobs group).run perform t := by
  unfold runAuthorizationGroup
  split_ifs with hplain
  · rfl
  · simp only [Worker.commits, Bool.or_eq_true, decide_eq_true_eq, hplain, false_or,
      Bool.and_eq_true] at h
    rw [runGroup_open h.2, h.1]
    rfl

theorem runGrouped_committed (n : Nat) (t : Worker) (group jobs : List Job)
    (h : ∀ call ∈ groupCalls commits n t group jobs, call.worker.commits call.commit call.group) :
    runGrouped commits n t group jobs = (runJobs (group ++ jobs)).run perform t := by
  induction jobs generalizing n t group with
  | nil => rw [runGrouped, runAuthorizationGroup_committed (h _ (mem_singleton_self _)), append_nil]
  | cons job jobs ih =>
    rw [groupCalls] at h
    rw [runGrouped]
    split
    next hjob =>
      rw [if_pos hjob] at h
      rw [ih _ _ _ h, append_assoc, singleton_append]
    next hjob =>
      rw [if_neg hjob] at h
      have hgroup := runAuthorizationGroup_committed (h _ mem_cons_self)
      dsimp only at h ⊢
      rw [ih _ _ _ fun call hcall => h call (mem_cons_of_mem _ hcall), hgroup, nil_append]
      have hjob : job :: jobs = [job] ++ jobs := rfl
      rw [run_runJobs_append t group (job :: jobs), hjob, run_runJobs_append _ [job] jobs,
        append_assoc]

end Worker

/-! ### Writes that deactivate -/

/-- From `s` to `s'` exactly the rows of `D` are deactivated, and the counts stay right. -/
structure Deactivates (s s' : Bridge) (D : SessionRow → Prop) : Prop where
  conns : s'.conns = s.conns
  active : ∀ r, s'.db.rowActive r = true ↔ s.db.rowActive r = true ∧ ¬ D r
  unique : UniqueOn (·.id) s.db.players → UniqueOn (·.id) s'.db.players
  counted : UniqueOn (·.id) s.db.players → s.db.Counted none → s'.db.Counted none

namespace Deactivates

variable {s s' s'' : Bridge} {D D' : SessionRow → Prop}

theorem refl (s : Bridge) : Deactivates s s fun _ => False :=
  ⟨rfl, fun _ => by simp, id, fun _ => id⟩

theorem trans (h : Deactivates s s' D) (h' : Deactivates s' s'' D') :
    Deactivates s s'' fun r => D r ∨ D' r where
  conns := h'.conns.trans h.conns
  active r := by rw [h'.active, h.active, not_or, and_assoc]
  unique hu := h'.unique (h.unique hu)
  counted hu hc := h'.counted (h.unique hu) (h.counted hu hc)

theorem congr (h : Deactivates s s' D) (hD : ∀ r, D' r ↔ D r) : Deactivates s s' D' :=
  ⟨h.conns, fun r => by rw [h.active, hD], h.unique, h.counted⟩

end Deactivates

theorem deactivates_publisher {row : PublisherRecord} {faults : UpdateFaults}
    (hrow : row.active = false) (hok : (s.publisherUpdate row faults).2) :
    Deactivates s (s.publisherUpdate row faults).1 (· = .publisher row.id) := by
  have hwritten := publisherUpdate_written s.sessions row.id row faults
  rw [show (s.sessions.publisherUpdate row.id row faults).2 = true from hok] at hwritten
  refine ⟨rfl, fun r => (hrow ▸ hwritten.rowWrite).active_iff, fun hu => ?_, fun _ => hwritten.counted⟩
  show UniqueOn _ (s.sessions.publisherUpdate row.id row faults).1.db.players
  rw [hwritten.players]
  exact hu

theorem deactivates_player {row : PlayerRecord} {fault : Bool} (hrow : row.active = false)
    (hok : (s.playerUpdate row fault).2) :
    Deactivates s (s.playerUpdate row fault).1 (· = .player row.id) := by
  have hwritten := playerUpdate_written s.sessions row.id row fault
  have hactive := hwritten
  rw [show (s.sessions.playerUpdate row.id row fault).2 = true from hok] at hactive
  exact ⟨rfl, fun r => (hrow ▸ hactive.rowWrite).active_iff, hwritten.unique,
    fun hu hc => counted_playerUpdate hu hc row.id row fault⟩

/-! ### The writes after a failed commit -/

def ReplacedPublisher (publisher now : Option PublisherRecord) (r : SessionRow) : Prop :=
  ∃ row ∈ publisher, r = .publisher row.id ∧ (now.all fun p => p.id ≠ row.id) = true

def ReplacedPlayer (player now : Option PlayerRecord) (r : SessionRow) : Prop :=
  ∃ row ∈ player, r = .player row.id ∧ (now.all fun p => p.id ≠ row.id) = true

theorem exists_mem_filter {β : Type} {o : Option β} {p : β → Bool} {P : β → Prop} :
    (∃ row ∈ o, P row ∧ p row = true) ↔ ∃ row ∈ o.filter p, P row := by
  simp only [mem_def, filter_eq_some_iff, and_assoc, and_comm]

theorem deactivates_dropPublisher {publisher now : Option PublisherRecord}
    (h : ∀ ok ∈ ((dropReplacedPublisher publisher now).run Worker.perform t).2, ok) :
    Deactivates t.bridge ((dropReplacedPublisher publisher now).run Worker.perform t).1.bridge
      (ReplacedPublisher publisher now) := by
  refine Deactivates.congr ?_ fun r => exists_mem_filter
  unfold dropReplacedPublisher at h ⊢
  cases hfilter : publisher.filter fun row => now.all fun p => p.id ≠ row.id with
  | none => exact (Deactivates.refl t.bridge).congr fun r => by simp
  | some row =>
    rw [hfilter] at h
    exact (deactivates_publisher rfl (h _ (mem_singleton_self _))).congr fun r => by simp

theorem deactivates_dropPlayer {player now : Option PlayerRecord}
    (h : ∀ ok ∈ ((dropReplacedPlayer player now).run Worker.perform t).2, ok) :
    Deactivates t.bridge ((dropReplacedPlayer player now).run Worker.perform t).1.bridge
      (ReplacedPlayer player now) := by
  refine Deactivates.congr ?_ fun r => exists_mem_filter
  unfold dropReplacedPlayer at h ⊢
  cases hfilter : player.filter fun row => now.all fun p => p.id ≠ row.id with
  | none => exact (Deactivates.refl t.bridge).congr fun r => by simp
  | some row =>
    rw [hfilter] at h
    exact (deactivates_player rfl (h _ (mem_singleton_self _))).congr fun r => by simp

/-- A row that `e` says the connection held and that it does not hold any more. -/
def Bridge.Replaced (s : Bridge) (e : HeldRows) (r : SessionRow) : Prop :=
  ReplacedPublisher e.2.1 (s.publisherOf e.1) r ∨ ReplacedPlayer e.2.2 (s.playerOf e.1) r

theorem replaced_congr {s s' : Bridge} (h : s'.conns = s.conns) (e : HeldRows) (r : SessionRow) :
    s'.Replaced e r ↔ s.Replaced e r := by
  simp only [Bridge.Replaced, Bridge.publisherOf, Bridge.playerOf, Bridge.connState, h]

theorem deactivates_dropReplaced (before : List HeldRows) (t : Worker)
    (h : ∀ ok ∈ ((dropReplaced before).run Worker.perform t).2, ok) :
    Deactivates t.bridge ((dropReplaced before).run Worker.perform t).1.bridge fun r =>
      ∃ e ∈ before, t.bridge.Replaced e r := by
  induction before generalizing t with
  | nil => exact (Deactivates.refl t.bridge).congr fun r => by simp
  | cons e before ih =>
    obtain ⟨connId, publisher, player⟩ := e
    -- the results of the three parts, each from the state the one before it leaves
    let t₀ : Worker := ⟨t.bridge, fun n => t.outcomes (n + 1)⟩
    let first := (dropReplacedPublisher publisher (t.bridge.publisherOf connId)).run Worker.perform t₀
    let second := (dropReplacedPlayer player (t.bridge.playerOf connId)).run Worker.perform first.1
    let rest := (dropReplaced before).run Worker.perform second.1
    have hrun : (dropReplaced ((connId, publisher, player) :: before)).run Worker.perform t =
        (rest.1, first.2 ++ second.2 ++ rest.2) := by
      rw [dropReplaced, Prog.run_bind, Prog.run_bind, Prog.run_bind, Prog.run_bind]
      rfl
    rw [hrun] at h ⊢
    simp only [mem_append] at h
    have hfirst := deactivates_dropPublisher fun ok hok => h ok (.inl (.inl hok))
    have hsecond := deactivates_dropPlayer fun ok hok => h ok (.inl (.inr hok))
    have hrest := ih second.1 fun ok hok => h ok (.inr hok)
    refine ((hfirst.trans hsecond).trans hrest).congr fun r => ?_
    have hconns : second.1.bridge.conns = t.bridge.conns := hsecond.conns.trans hfirst.conns
    simp only [mem_cons, exists_eq_or_imp, replaced_congr hconns]
    rfl

theorem replaced_iff : s.Replaced e r ↔
      (ConnState.holds { publisher := e.2.1, player := e.2.2 } r) ∧
        (s.connState e.1).holds r = false := by
  obtain ⟨connId, publisher, player⟩ := e
  have hnone : ∀ id, (s.publisherOf connId).all (fun p => p.id ≠ id) = true ↔
      (s.connState connId).holdsPublisher id = false := by
    intro id
    rw [Bridge.publisherOf, ConnState.holdsPublisher]
    cases (s.connState connId).publisher <;> simp
  have hnone' : ∀ id, (s.playerOf connId).all (fun p => p.id ≠ id) = true ↔
      (s.connState connId).holdsPlayer id = false := by
    intro id
    rw [Bridge.playerOf, ConnState.holdsPlayer]
    cases (s.connState connId).player <;> simp
  constructor
  · rintro (⟨row, hrow, rfl, hnow⟩ | ⟨row, hrow, rfl, hnow⟩)
    · exact ⟨(any_eq_true _ _).2 ⟨row, hrow, decide_eq_true rfl⟩, (hnone _).1 hnow⟩
    · exact ⟨(any_eq_true _ _).2 ⟨row, hrow, decide_eq_true rfl⟩, (hnone' _).1 hnow⟩
  · rintro ⟨hheld, hnow⟩
    cases r with
    | publisher id =>
      obtain ⟨row, hrow, hid⟩ := (any_eq_true _ _).1 hheld
      cases of_decide_eq_true hid
      exact .inl ⟨row, hrow, rfl, (hnone _).2 hnow⟩
    | player id =>
      obtain ⟨row, hrow, hid⟩ := (any_eq_true _ _).1 hheld
      cases of_decide_eq_true hid
      exact .inr ⟨row, hrow, rfl, (hnone' _).2 hnow⟩

/-! ### What a group leaves alone -/

def Action.leavesConn (conn : UInt64) : Action → Bool
  | .installPublisher conn' _ => conn' ≠ conn
  | .installPlayer conn' _ => conn' ≠ conn
  | .admitPublisher _ _ => false
  | .admitPlayer _ _ => false
  | .clearPublisher _ _ => false
  | .clearPlayer _ _ => false
  | .dropPlayer _ _ => false
  | .removeConn _ => false
  | .abandonRoles _ => false
  | _ => true

theorem lookup_exec {conn : UInt64} (a : Action) (w : Outcome) (s : Bridge)
    (h : a.leavesConn conn) :
    (a.exec w s).1.conns.lookup conn = s.conns.lookup conn := by
  cases hkeeps : a.keepsSessions with
  | true => exact congrArg (fun roles => roles.2.1.lookup conn) (roles_exec a w s hkeeps)
  | false =>
    cases a with
    | installPublisher conn' row => exact AList.lookup_insert_ne (of_decide_eq_true h).symm
    | installPlayer conn' row => exact AList.lookup_insert_ne (of_decide_eq_true h).symm
    | _ =>
      first
        | rfl
        | exact absurd h Bool.false_ne_true
        | exact absurd hkeeps.symm Bool.false_ne_true

section Only

variable {conn : UInt64} {α : Type}

variable {conn' : UInt64} (hconn : conn' ≠ conn)

abbrev Leaves (conn : UInt64) (p : BridgeM α) : Prop := p.Only fun a => a.leavesConn conn = true

theorem leaves_look {q : Query} {next : q.Answer → BridgeM α} (h : ∀ x, Leaves conn (next x)) :
    Leaves conn (look q >>= next) := .act rfl h

theorem leaves_refusePublish (old : Option PublisherRecord) (kind : AuthFailureKind) :
    Leaves conn (refusePublish old kind) := by
  cases old with
  | none => exact .ret _
  | some prior =>
    refine .act rfl fun restored => ?_
    cases restored with
    | true => exact .ret _
    | false => exact .act rfl fun _ => .ret _

theorem leaves_refusePlay (old : Option PlayerRecord) (kind : AuthFailureKind) :
    Leaves conn (refusePlay old kind) := by
  cases old with
  | none => exact .ret _
  | some prior =>
    refine .act rfl fun restored => ?_
    cases restored with
    | true => exact .ret _
    | false => exact .act rfl fun _ => .ret _

theorem leaves_releasePrior (prior : Option (String × UInt64)) (streamId : String) :
    Leaves conn (releasePrior prior streamId) := by
  unfold releasePrior
  split
  · exact .ret _
  · exact .act rfl fun _ => .ret _

include hconn in
theorem leaves_claimStream (row : PublisherRecord) (old : Option PublisherRecord)
    (prior : Option (String × UInt64)) : Leaves conn (claimStream conn' row old prior) := by
  refine leaves_look fun coordinator => ?_
  split
  · exact .act (decide_eq_true hconn) fun _ => .ret _
  · refine .act rfl fun granted => ?_
    cases granted with
    | none => exact .act rfl fun _ => leaves_refusePublish old _
    | some epoch =>
      refine (leaves_releasePrior prior row.streamId).bind fun released => ?_
      cases released with
      | true => exact .act rfl fun _ => .act (decide_eq_true hconn) fun _ => .ret _
      | false => exact .act rfl fun _ => .act rfl fun _ => leaves_refusePublish old _

theorem leaves_giveUpPublisher (old : Option PublisherRecord) :
    Leaves conn (giveUpPublisher old) := by
  cases old with
  | none => exact .ret _
  | some row => exact .act rfl fun _ => .ret _

theorem leaves_giveUpPlayer (old : Option PlayerRecord) : Leaves conn (giveUpPlayer old) := by
  cases old with
  | none => exact .ret _
  | some row => exact .act rfl fun _ => .ret _

include hconn in
theorem leaves_switchPublisher (row : PublisherRecord) :
    Leaves conn (switchPublisher conn' row) := by
  refine .act rfl fun old => .act rfl fun prior => ?_
  refine (leaves_giveUpPublisher old).bind fun ended => ?_
  cases ended with
  | false => exact .ret _
  | true =>
    refine .act rfl fun acquired => ?_
    cases acquired with
    | true => exact leaves_claimStream hconn row old prior
    | false => exact leaves_refusePublish old _

theorem leaves_clusterFull (viewerId : String) : Leaves conn (clusterFull viewerId) := by
  refine leaves_look fun coordinator => ?_
  split
  · exact .act rfl fun _ => .act rfl fun _ => .ret _
  · exact .ret _

include hconn in
theorem leaves_switchPlayer (row : PlayerRecord) : Leaves conn (switchPlayer conn' row) := by
  refine .act rfl fun old => ?_
  refine (leaves_giveUpPlayer old).bind fun ended => ?_
  cases ended with
  | false => exact .ret _
  | true =>
    refine (leaves_clusterFull row.viewerId).bind fun full => ?_
    cases full with
    | true => exact leaves_refusePlay old _
    | false =>
      refine .act rfl fun acquired => ?_
      cases acquired with
      | true => exact .act (decide_eq_true hconn) fun _ => .ret _
      | false => exact leaves_refusePlay old _

theorem leaves_of_looks (a : Action) (h : Looks a) : a.leavesConn conn = true := by
  cases a with
  | look q => rfl
  | _ => cases h

theorem leaves_runJob {req : AuthRequest} (hreq : req.connId ≠ conn) :
    Leaves conn (runJob (.authorize req)) := by
  refine Prog.Only.bind ?_ fun allow => Prog.Only.bind ?_ fun ids => .ret _
  · unfold authorize
    cases req.kind with
    | publish =>
      refine (authorizePublish_leads req.app req.streamKey).only leaves_of_looks ?_
      rintro _ (rfl | ⟨row, rfl⟩)
      · exact .ret _
      · exact (leaves_switchPublisher hreq row).bind fun _ => .ret _
    | play =>
      refine (authorizePlay_leads req.app req.streamKey).only leaves_of_looks ?_
      rintro _ (rfl | ⟨row, rfl⟩)
      · exact .ret _
      · exact (leaves_switchPlayer hreq row).bind fun _ => .ret _
  · cases allow with
    | true => exact .act rfl fun _ => .ret _
    | false => exact .ret _

theorem leaves_runJobs {group : List Job}
    (h : ∀ job ∈ group, ∃ req, job = .authorize req ∧ req.connId ≠ conn) :
    Leaves conn (runJobs group) := by
  induction group with
  | nil => exact .ret _
  | cons job group ih =>
    obtain ⟨req, rfl, hreq⟩ := h job mem_cons_self
    refine (leaves_runJob hreq).bind fun _ => Prog.Only.bind ?_ fun _ => .ret _
    exact ih fun job hjob => h job (mem_cons_of_mem _ hjob)

end Only

/-! ### Unique ids -/

theorem unique_exec (a : Action) (w : Outcome) (s : Bridge)
    (h : UniqueOn (·.id) s.db.players) : UniqueOn (·.id) (a.exec w s).1.db.players := by
  cases huses : a.usesDb with
  | false => exact (congrArg (UniqueOn _) (uncounted_eq (uncounted_exec a w s huses)).2.2).mpr h
  | true =>
    cases a with
    | publisherUpdate cause row =>
      have hplayers := (publisherUpdate_written s.sessions row.id row w.faults).players
      exact (congrArg (UniqueOn _) hplayers).mpr h
    | publisherTryAcquire cause row =>
      have hplayers := (publisherTryAcquire_acquired s.db row w.faults.write).players
      exact (congrArg (UniqueOn _) hplayers).mpr h
    | playerUpdate cause row => exact (playerUpdate_written s.sessions row.id row _).unique h
    | playerTryAcquire cause row => exact (playerTryAcquire_inserted s.db row _).unique h
    | playerInsertReserved row => exact (playerInsertReserved_inserted s.db row _).unique h
    | _ => first | exact h | cases huses

namespace Worker

variable {t : Worker}

theorem unique_run {α : Type} (p : BridgeM α) (h : UniqueOn (·.id) t.bridge.db.players) :
    UniqueOn (·.id) (p.run perform t).1.bridge.db.players :=
  Prog.run_inv (I := fun t : Worker => UniqueOn (·.id) t.bridge.db.players)
    (fun a t ht => unique_exec a (t.outcomes 0) t.bridge ht) p h

theorem unique_runGroup (group : List Job) (h : UniqueOn (·.id) t.bridge.db.players) :
    UniqueOn (·.id) (t.runGroup group).1.worker.bridge.db.players ∧
      ∀ tables ∈ (t.runGroup group).1.before, UniqueOn (·.id) tables.players := by
  refine Prog.run_inv (I := fun g : Grouped => UniqueOn (·.id) g.worker.bridge.db.players ∧
    ∀ tables ∈ g.before, UniqueOn (·.id) tables.players) (fun a g hg => ?_) _
    (s := ⟨t, some t.bridge.db⟩) ⟨h, fun _ ht => some.inj ht ▸ h⟩
  unfold Grouped.perform Action.execIn
  cases hends : g.before.filter fun _ => a.endsIn (g.worker.outcomes 0) g.before with
  | some tables => exact ⟨hg.2 tables (filter_eq_some_iff.1 hends).1, nofun⟩
  | none => exact ⟨unique_exec a _ _ hg.1, hg.2⟩

theorem unique_endBatch {before : Option Db} (fails : Bool) (h : UniqueOn (·.id) s.db.players)
    (hbefore : ∀ tables ∈ before, UniqueOn (·.id) tables.players) :
    UniqueOn (·.id) (s.endBatch before fails).1.db.players := by
  cases before with
  | none => exact h
  | some tables =>
    cases fails with
    | false => exact h
    | true => exact hbefore tables rfl

theorem unique_runAuthorizationGroup (commit : Commit) (group : List Job)
    (h : UniqueOn (·.id) t.bridge.db.players) :
    UniqueOn (·.id) (runAuthorizationGroup commit t group).1.bridge.db.players := by
  obtain ⟨hran, hbefore⟩ := unique_runGroup group h
  unfold runAuthorizationGroup
  split
  · exact unique_run _ h
  · dsimp only
    split
    · exact unique_endBatch _ hran hbefore
    · exact unique_run _ (unique_endBatch true hran hbefore)

theorem groupCalls_spec {commits : Nat → Commit} {jobs : List Job} (n : Nat) {group : List Job}
    (hgroup : ∀ job ∈ group, job.isAuthorize) (hu : UniqueOn (·.id) t.bridge.db.players)
    {call : GroupCall} (hcall : call ∈ groupCalls commits n t group jobs) :
    (∀ job ∈ call.group, job.isAuthorize) ∧
      UniqueOn (·.id) call.worker.bridge.db.players := by
  induction jobs generalizing n t group with
  | nil =>
    rw [groupCalls, mem_singleton] at hcall
    subst hcall
    exact ⟨hgroup, hu⟩
  | cons job jobs ih =>
    rw [groupCalls] at hcall
    split at hcall
    · next hjob =>
      refine ih n ?_ hu hcall
      intro job' hjob'
      rcases mem_append.1 hjob' with hold | hnew
      · exact hgroup job' hold
      · rwa [mem_singleton.1 hnew]
    · rcases mem_cons.1 hcall with rfl | hlater
      · exact ⟨hgroup, hu⟩
      · exact ih (n + 1) (fun _ h => absurd h not_mem_nil)
          (unique_run _ (unique_runAuthorizationGroup _ group hu)) hlater

end Worker

/-! ### A group that is undone -/

/-- Some connection held the session in `s` and does not in `s'`. -/
def Bridge.Lost (s s' : Bridge) (r : SessionRow) : Prop :=
  ∃ conn, (s.connState conn).holds r = true ∧ (s'.connState conn).holds r = false

/-- What is left of a group whose transaction could not be committed: nothing is allowed, no row of
the group is active nor any that a connection replaced, and the counts of viewer sessions are right. -/
structure GroupUndone (s : Bridge) (result : Worker × List AuthCompletion) : Prop where
  denied : ∀ c ∈ result.2, c.allow = false
  created : ∀ r, s.db.rowsOf r = ([], []) → result.1.bridge.db.rowActive r = false
  active : ∀ r, result.1.bridge.db.rowActive r = true ↔
    s.db.rowActive r = true ∧ ¬ s.Lost result.1.bridge r
  counted : ∀ v, result.1.bridge.db.activePlayerCounts v =
    result.1.bridge.db.activePlayers v + result.1.bridge.db.unpersistedPlayerCounts v

theorem rowsOf_of_active {db : Db} (h : db.rowActive r) : db.rowsOf r ≠ ([], []) := by
  cases r with
  | publisher id =>
    obtain ⟨p, hp, hid⟩ := any_eq_true.1 h
    rw [Bool.and_eq_true_iff] at hid
    exact fun heq => ne_nil_of_mem (mem_filter.2 ⟨hp, hid.1⟩) (congrArg Prod.fst heq)
  | player id =>
    obtain ⟨p, hp, hid⟩ := any_eq_true.1 h
    rw [Bool.and_eq_true_iff] at hid
    exact fun heq => ne_nil_of_mem (mem_filter.2 ⟨hp, hid.1⟩) (congrArg Prod.snd heq)

theorem mem_sessionsBefore :
    e ∈ sessionsBefore s group ↔
      ∃ req, .authorize req ∈ group ∧
        e = (req.connId, s.publisherOf req.connId, s.playerOf req.connId) := by
  rw [sessionsBefore, mem_filterMap]
  constructor
  · rintro ⟨job, hjob, he⟩
    cases job with
    | authorize req => exact ⟨req, hjob, (some.inj he).symm⟩
    | _ => cases he
  · rintro ⟨req, hreq, rfl⟩
    exact ⟨_, hreq, rfl⟩

theorem lost_iff {s' : Bridge} (hgroup : ∀ job ∈ group, job.isAuthorize)
    (hconns : s'.conns = ((runJobs group).run Worker.perform t).1.bridge.conns) :
    t.bridge.Lost s' r ↔ ∃ e ∈ sessionsBefore t.bridge group, s'.Replaced e r := by
  constructor
  · rintro ⟨conn, hheld, hlost⟩
    by_cases hconn : ∃ req, .authorize req ∈ group ∧ req.connId = conn
    · obtain ⟨req, hreq, rfl⟩ := hconn
      refine ⟨_, mem_sessionsBefore.2 ⟨req, hreq, rfl⟩, replaced_iff.2 ⟨?_, hlost⟩⟩
      cases r <;> exact hheld
    · exfalso
      have hleaves : Leaves conn (runJobs group) := by
        refine leaves_runJobs fun job hjob => ?_
        have hauthorize := hgroup job hjob
        cases job with
        | authorize req => exact ⟨req, rfl, fun heq => hconn ⟨req, hjob, heq⟩⟩
        | _ => cases hauthorize
      have hlookup : s'.conns.lookup conn = t.bridge.conns.lookup conn := by
        rw [hconns]
        exact hleaves.run_inv
          (I := fun u : Worker => u.bridge.conns.lookup conn = t.bridge.conns.lookup conn)
          (fun a u ha hu => (lookup_exec a _ u.bridge ha).trans hu) rfl
      rw [Bridge.connState, hlookup] at hlost
      exact Bool.false_ne_true (hlost.symm.trans hheld)
  · rintro ⟨e, he, hreplaced⟩
    obtain ⟨req, hreq, rfl⟩ := mem_sessionsBefore.1 he
    obtain ⟨hheld, hlost⟩ := replaced_iff.1 hreplaced
    refine ⟨req.connId, ?_, hlost⟩
    cases r <;> exact hheld

theorem group_undone (hgroup : ∀ job ∈ group, job.isAuthorize)
    (hu : UniqueOn (·.id) t.bridge.db.players) (hlength : 2 ≤ group.length)
    (hopen : (t.runGroup group).1.before.isSome) (hok : ∀ ok ∈ (t.undoGroup group).2, ok) :
    GroupUndone t.bridge (Worker.runAuthorizationGroup .failed t group) := by
  let ran := (runJobs group).run Worker.perform t
  have hrun : t.runGroup group = (⟨ran.1, some t.bridge.db⟩, ran.2) := Worker.runGroup_open hopen
  have hresult : Worker.runAuthorizationGroup .failed t group =
      ((t.undoGroup group).1, ran.2.map fun c => { c with allow := false }) := by
    rw [Worker.runAuthorizationGroup, if_neg (by simp; omega), hrun]
    rfl
  -- the state after the rollback, with the connections marked for closing
  let rolled : Worker := Worker.perform (.forceClose ((ran.2.filter (·.allow)).map (·.connId)))
    { ran.1 with bridge := (ran.1.bridge.endBatch (some t.bridge.db) true).1 } |>.1
  have hundo : t.undoGroup group =
      (dropReplaced (sessionsBefore t.bridge group)).run Worker.perform rolled := by
    rw [Worker.undoGroup, hrun]
    rfl
  rw [hundo] at hok
  have hdrops : Deactivates rolled.bridge (t.undoGroup group).1.bridge fun r =>
      ∃ e ∈ sessionsBefore t.bridge group, rolled.bridge.Replaced e r :=
    hundo ▸ deactivates_dropReplaced _ rolled hok
  have hactive : ∀ r, rolled.bridge.db.rowActive r = t.bridge.db.rowActive r := by
    intro r
    cases r <;> rfl
  have hafter : ∀ r, (t.undoGroup group).1.bridge.db.rowActive r = true ↔
      t.bridge.db.rowActive r = true ∧ ¬ t.bridge.Lost (t.undoGroup group).1.bridge r := by
    intro r
    have hlost : t.bridge.Lost (t.undoGroup group).1.bridge r ↔
        ∃ e ∈ sessionsBefore t.bridge group, (t.undoGroup group).1.bridge.Replaced e r :=
      lost_iff hgroup hdrops.conns
    simp only [replaced_congr hdrops.conns] at hlost
    rw [hdrops.active, hactive, hlost]
  rw [hresult]
  refine ⟨?_, ?_, hafter, ?_⟩
  · intro c hc
    obtain ⟨c', -, rfl⟩ := mem_map.1 hc
    rfl
  · intro r hr
    by_contra hne
    exact rowsOf_of_active ((hafter r).1 (Bool.eq_true_of_not_eq_false hne)).1 hr
  · exact Db.counted_none.1 (hdrops.counted hu Db.counted_resync)

/-- As long as every transaction is committed, a run in groups is the run of the jobs one by one;
and a group whose commit fails is undone, unless a statement has ended its transaction before. -/
theorem group_commit_transparent (commits : Nat → Commit) (t : Worker) (jobs : List Job) :
    ((∀ call ∈ Worker.groupCalls commits 0 t [] jobs,
        call.worker.commits call.commit call.group = true) →
      Worker.runGrouped commits 0 t [] jobs = (runJobs jobs).run Worker.perform t) ∧
    (UniqueOn (·.id) t.bridge.db.players →
      ∀ call ∈ Worker.groupCalls commits 0 t [] jobs, call.commit = .failed →
        2 ≤ call.group.length → (call.worker.runGroup call.group).1.before.isSome = true →
        (∀ ok ∈ (call.worker.undoGroup call.group).2, ok = true) →
        GroupUndone call.worker.bridge
          (Worker.runAuthorizationGroup call.commit call.worker call.group)) := by
  constructor
  · exact Worker.runGrouped_committed 0 t [] jobs
  · intro hu call hcall hfailed hlength hopen hok
    obtain ⟨hgroup, hunique⟩ :=
      Worker.groupCalls_spec 0 (fun _ h => absurd h not_mem_nil) hu hcall
    rw [hfailed]
    exact group_undone hgroup hunique hlength hopen hok

def switchingWorker : Worker where
  bridge :=
    { Bridge.start { ownedStreams with publishers := [⟨"p", "a", "live", "first", 0, {}, 0, true⟩] }
        .absent with
      conns := AList.singleton 1
        { publisher := some ⟨"p", "a", "live", "first", 0, {}, 0, true⟩, streamId := "a" } }
  outcomes _ := { sessionId := some "q" }

/-- It switches to `b`; another connection asks for the same stream. -/
def switchingJobs : List Job :=
  [.authorize ⟨.publish, 1, "live", "pub_b_00000000000000000000000000", 0⟩,
    .authorize ⟨.publish, 2, "live", "pub_b_00000000000000000000000000", 1⟩]

theorem group_commit_transparent_switch :
    (Worker.runGrouped (fun _ => .committed) 0 switchingWorker [] switchingJobs).2.map (·.allow) =
        [true, false] ∧
      Worker.runGrouped (fun _ => .committed) 0 switchingWorker [] switchingJobs =
        (runJobs switchingJobs).run Worker.perform switchingWorker ∧
      GroupUndone switchingWorker.bridge
        (Worker.runAuthorizationGroup .failed switchingWorker switchingJobs) ∧
      (Worker.runAuthorizationGroup .failed switchingWorker switchingJobs).1.bridge.db.rowActive
        (.publisher "p") = false := by
  refine ⟨by decide +kernel, ?_, ?_, by decide +kernel⟩
  · refine (group_commit_transparent (fun _ => .committed) switchingWorker switchingJobs).1 ?_
    decide +kernel
  · refine (group_commit_transparent (fun _ => .failed) switchingWorker switchingJobs).2 ?_
      ⟨switchingWorker, switchingJobs, .failed⟩ ?_ rfl (by decide) (by decide +kernel)
      (by decide +kernel)
    · exact nodup_nil
    · exact mem_singleton_self _

/-! ### A transaction that ends early -/

/-- The row of the first request cannot be written and the transaction ends with it. -/
def fullDisk : Worker where
  bridge := .start ownedStreams .absent
  outcomes n := { sessionId := some "q", ends := n = 7 }

def publishBoth : List Job :=
  [.authorize ⟨.publish, 1, "live", "pub_a_00000000000000000000000000", 0⟩,
    .authorize ⟨.publish, 2, "live", "pub_b_00000000000000000000000000", 1⟩]

/-- The second request commits by itself. Its row stays active although it is denied with the group,
and no write that follows fails. -/
theorem ended_transaction_leaves_row :
    (Worker.runAuthorizationGroup .committed fullDisk publishBoth).2.map (·.allow) =
        [false, false] ∧
      fullDisk.bridge.db.rowsOf (.publisher "q") = ([], []) ∧
      (Worker.runAuthorizationGroup .committed fullDisk publishBoth).1.bridge.db.rowActive
        (.publisher "q") = true ∧
      ∀ ok ∈ (fullDisk.undoGroup publishBoth).2, ok = true := by
  decide +kernel

end RtmpServer
