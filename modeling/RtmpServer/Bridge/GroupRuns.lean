import RtmpServer.Bridge.AuthWorker
import RtmpServer.Bridge.OrphanRows

/-!
# Orphan rows while groups are under way

`run_authorization_group` among the other operations on sessions. During `batch` the auth worker has
the connection of the database and the calls of the others wait for it; what they do to the bridge
goes on. A failed commit brings rows back that the group had deactivated and that no connection may
hold any more. The writes that follow have to deactivate them again.
-/

namespace RtmpServer

open Option List Lib.Program Lib.Replay
open Bool hiding and_assoc

/-- A `batch` under way: the sessions its group has read, and the tables of the `BEGIN` while the
transaction is open. -/
structure Batch where
  sessions : List HeldRows
  before : Option Db

structure Batched where
  bridge : Bridge
  batch : Option Batch

inductive BatchedAction where
  | plain (a : Action)
  | begin (sessions : List HeldRows)
  | inBatch (sessions : List HeldRows) (a : Action)
  | commit (sessions : List HeldRows)

abbrev BatchedAction.Answer : BatchedAction → Type
  | .plain a => a.Answer
  | .begin _ => Bool
  | .inBatch _ a => a.Answer
  | .commit _ => Bool

def sessionOf (rows : Option PublisherRecord × Option PlayerRecord) : ConnState :=
  { publisher := rows.1, player := rows.2 }

def heldIn (sessions : List HeldRows) (r : SessionRow) : Bool :=
  sessions.any fun e => (sessionOf e.2).holds r

def Action.deactivated : Action → Option SessionRow
  | .publisherUpdate _ row => if row.active then none else some (.publisher row.id)
  | .playerUpdate _ row => if row.active then none else some (.player row.id)
  | _ => none

namespace Batched

def before (s : Batched) : Option Db := s.batch.bind (·.before)

/-- Nobody else has the connection that the action needs. -/
def free (s : Batched) : BatchedAction → Bool
  | .plain a => !a.usesDb || s.batch.isNone
  | .begin _ => s.batch.isNone
  | .inBatch sessions _ | .commit sessions => s.batch.any fun b => b.sessions = sessions

/-- What the group has deactivated so far are rows it has read. -/
def Recoverable (s : Batched) : Prop :=
  ∀ b ∈ s.batch, ∀ tables ∈ b.before, ∀ r, tables.rowActive r = true →
    s.bridge.db.rowActive r = false → heldIn b.sessions r = true

/-- The orphan rows, but for those that a group whose transaction has ended will look at again. -/
def orphans (s : Batched) : Set SessionRow :=
  {r ∈ s.bridge.orphanRows | ∀ b ∈ s.batch, b.before = none → heldIn b.sessions r = false}

end Batched

def BatchedAction.exec : (a : BatchedAction) → Outcome → Batched → Batched × a.Answer
  | .plain a, w, s => ({ s with bridge := (a.exec w s.bridge).1 }, (a.exec w s.bridge).2)
  | .begin sessions, w, s =>
    if w.fails then (s, false) else (⟨s.bridge, some ⟨sessions, some s.bridge.db⟩⟩, true)
  | .inBatch sessions a, w, s =>
    let r := a.execIn w s.bridge s.before
    (⟨r.1.1, some ⟨sessions, r.1.2⟩⟩, r.2)
  | .commit _, w, s =>
    let r := s.bridge.endBatch s.before w.fails
    (⟨r.1, none⟩, r.2)

/-- The condition on a step: `sessionOk`, and a group deactivates a row that was active at its `BEGIN`
only if it has read the row's session. -/
def batchedOk (s : Batched) : BatchedAction → Outcome → Bool
  | .plain a, w => sessionOk s.bridge a w
  | .inBatch sessions a, w =>
    sessionOk s.bridge a (a.outcomeIn w s.before) &&
      a.deactivated.all fun r => heldIn sessions r || !s.before.any (·.rowActive r)
  | _, _ => true

/-! ### Programs -/

abbrev BatchedM := Prog BatchedAction BatchedAction.Answer

section Programs

variable {α : Type}

def plainly (p : BridgeM α) : BatchedM α := p.lift .plain fun _ => id

def batched (sessions : List HeldRows) (p : BridgeM α) : BatchedM α :=
  p.lift (.inBatch sessions) fun _ => id

end Programs

namespace Bridge

def readSessions : List AuthRequest → BridgeM (List HeldRows)
  | [] => pure []
  | req :: group => do
    let rows : Option PublisherRecord × Option PlayerRecord ← look (.sessionRows req.connId)
    let rest ← readSessions group
    pure ((req.connId, rows) :: rest)

def runAuthorizationGroup (group : List AuthRequest) : BatchedM Unit := do
  if group.length ≤ 1 then
    let _ ← plainly (runJobs (group.map .authorize))
    pure ()
  else
    let sessions ← plainly (readSessions group)
    let begun : Bool ← Prog.perform (BatchedAction.begin sessions)
    if begun then
      let completions ← batched sessions (runJobs (group.map .authorize))
      let committed : Bool ← Prog.perform (BatchedAction.commit sessions)
      if committed then pure ()
      else
        let _ ← plainly (followUp completions sessions)
        pure ()
    else
      let _ ← plainly (runJobs (group.map .authorize))
      pure ()

end Bridge

inductive GroupedOperation where
  | single (op : SessionOperation)
  | group (reqs : List AuthRequest)

def GroupedOperation.prog : GroupedOperation → BatchedM Unit
  | .single op => plainly op.prog
  | .group reqs => Bridge.runAuthorizationGroup reqs

/-- A step of the operations, none of which takes the connection from another. -/
def GroupedOperation.step (p : Pool Batched BatchedAction BatchedAction.Answer)
    (e : Event GroupedOperation Outcome) : Option (Pool Batched BatchedAction BatchedAction.Answer) :=
  if p.allows (fun s a _ => s.free a) e then p.step BatchedAction.exec GroupedOperation.prog e
  else none

/-! ### What a group has deactivated -/

section Recoverable

variable {s : Batched} {w : Outcome} {r : SessionRow}

theorem deactivated_of_gone {a : Action} {s : Bridge} (h : s.db.rowActive r)
    (hgone : (a.exec w s).1.db.rowActive r = false) : a.deactivated = some r := by
  have hwrite : ∀ {r₀ active write answer}, a.WritesRow r₀ active write answer →
      active = false ∧ r = r₀ := by
    intro r₀ active write answer ha
    rw [ha.exec] at hgone
    have hnow : (write w s).1.db.rowActive r = false := hgone
    grind [(ha.row w s).rowActive r]
  cases huses : a.usesDb with
  | false => simp [rowActive_congr (uncounted_exec a w s huses), h] at hgone
  | true =>
    cases a with
    | publisherUpdate cause row =>
      obtain ⟨hrow, rfl⟩ := hwrite (writesRow_publisherUpdate cause rfl)
      simp [Action.deactivated, hrow]
    | playerUpdate cause row =>
      obtain ⟨hrow, rfl⟩ := hwrite (writesRow_playerUpdate cause rfl)
      simp [Action.deactivated, hrow]
    | publisherTryAcquire cause row => cases (hwrite (writesRow_publisherTryAcquire cause row)).1
    | playerTryAcquire cause row => cases (hwrite (writesRow_playerTryAcquire cause row)).1
    | playerInsertReserved row => cases (hwrite (writesRow_playerInsertReserved row)).1
    | look q => exact absurd (hgone.symm.trans h) false_ne_true
    | _ => cases huses

theorem Batched.eq_of_free {sessions : List HeldRows} (h : s.batch.any fun b => b.sessions = sessions) :
    ∃ bridge before, s = ⟨bridge, some ⟨sessions, before⟩⟩ := by
  obtain ⟨bridge, batch⟩ := s
  obtain ⟨⟨_, before⟩, rfl, hsessions⟩ := (any_eq_true _ _).1 h
  cases of_decide_eq_true hsessions
  exact ⟨bridge, before, rfl⟩

theorem Batched.Recoverable.held (h : s.Recoverable) {sessions : List HeldRows} {a : Action}
    (hfree : s.free (.inBatch sessions a)) (hok : batchedOk s (.inBatch sessions a) w) {tables : Db}
    (ht : s.before = some tables) (hr : tables.rowActive r)
    (hgone : (a.exec (a.outcomeIn w s.before) s.bridge).1.db.rowActive r = false) :
    heldIn sessions r := by
  obtain ⟨bridge, before, rfl⟩ := eq_of_free hfree
  cases hnow : bridge.db.rowActive r with
  | false => exact h _ rfl tables ht r hr hnow
  | true =>
    have hdeactivated := (and_eq_true_iff.1 hok).2
    rw [deactivated_of_gone hnow hgone, all_some, ht, any_some, hr] at hdeactivated
    simpa using hdeactivated

theorem Batched.Recoverable.exec (h : s.Recoverable) {a : BatchedAction} (hfree : s.free a)
    (hok : batchedOk s a w) : (a.exec w s).1.Recoverable := by
  cases a with
  | plain a =>
    intro b hb tables ht r hr hgone
    refine h b hb tables ht r hr ?_
    have hb : s.batch = some b := hb
    have huses : a.usesDb = false := by simpa [free, hb] using hfree
    rw [← rowActive_congr (uncounted_exec a w s.bridge huses)]
    exact hgone
  | begin sessions =>
    rw [BatchedAction.exec]
    split_ifs
    · exact h
    · rintro _ ⟨⟩ _ ⟨⟩ r hr hgone
      exact absurd (hgone.symm.trans hr) false_ne_true
  | inBatch sessions a =>
    rintro _ ⟨⟩ tables ht r hr hgone
    simp only [BatchedAction.exec, Action.execIn] at ht hgone
    cases hends : s.before.filter fun _ => a.endsIn w s.before with
    | some _ =>
      rw [hends] at ht
      cases ht
    | none =>
      rw [hends] at ht hgone
      exact h.held hfree hok ht hr hgone
  | commit sessions => exact nofun

end Recoverable

/-! ### Debts -/

/-- The rows to answer for, and the batch that has to be ended. -/
def liable (rows : Set SessionRow) (batch : Bool) : Set (Option SessionRow) :=
  {d | d.elim (batch = true) (· ∈ rows)}

theorem liable_subset {X X' W W' : Set SessionRow} {c c' b b' : Bool} (h : X' ⊆ (X \ W) ∪ W')
    (hb : c' = true → b' = true ∨ c = true ∧ b = false) :
    liable X' c' ⊆ (liable X c \ liable W b) ∪ liable W' b' := by
  rintro (_ | r) hd
  · refine (hb hd).symm.imp_left fun ⟨hc, hb⟩ => ⟨hc, fun hw => ?_⟩
    exact false_ne_true (hb.symm.trans hw)
  · exact h hd

theorem liable_empty : liable ∅ false = ∅ :=
  Set.eq_empty_of_forall_notMem fun d hd => by cases d <;> cases hd

open Classical in
/-- Orphan rows are what the operations must not leave, nor a batch under way. -/
noncomputable def batchedContract :
    Contract Batched BatchedAction BatchedAction.Answer Outcome (Option SessionRow) Empty where
  exec := BatchedAction.exec
  ok s a w := batchedOk s a w && s.free a && decide s.Recoverable
  facts _ := ∅
  facts_mono _ _ _ := Set.Subset.rfl
  guar _ _ _ := True
  debts s := liable s.orphans s.batch.isSome

theorem batchedContract_ok {s : Batched} {a : BatchedAction} {w : Outcome} :
    batchedContract.ok s a w ↔ batchedOk s a w ∧ s.free a ∧ s.Recoverable := by
  simp [batchedContract, and_assoc]

section Settles

variable {α : Type} {p : BridgeM α} {W : Set SessionRow} {K : Set Empty}
  {Q : α → Set SessionRow → Set Empty → Prop} {sessions : List HeldRows}

theorem settles_plain (h : sessionContract.Settles p W K Q) :
    batchedContract.Settles (plainly p) (liable W false) K fun result V K' =>
      ∃ W', V = liable W' false ∧ Q result W' K' := by
  induction p generalizing W K with
  | ret result => exact ⟨W, rfl, h⟩
  | act a next ih =>
    intro s w hK hok
    obtain ⟨-, W', K', hK', hdebts, hnext⟩ := h s.bridge w hK (batchedContract_ok.1 hok).1
    refine ⟨trivial, liable W' false, K', hK', liable_subset (fun r hr => ?_) fun hc => .inr ⟨hc, rfl⟩,
      ih _ hnext⟩
    exact (hdebts hr.1).imp_left fun hold => ⟨⟨hold.1, hr.2⟩, hold.2⟩

theorem honours_plain (h : sessionContract.Honours p) : batchedContract.Honours (plainly p) := by
  intro K
  have hplain := settles_plain (h K)
  rw [liable_empty] at hplain
  refine hplain.mono ?_
  rintro _ _ _ ⟨_, rfl, rfl⟩
  exact liable_empty

theorem orphans_inBatch {s : Batched} {a : Action} {w : Outcome} {W' : Set SessionRow}
    (hok : batchedContract.ok s (.inBatch sessions a) w)
    (h : (a.exec (a.outcomeIn w s.before) s.bridge).1.orphanRows ⊆ (s.bridge.orphanRows \ W) ∪ W') :
    ((BatchedAction.inBatch sessions a).exec w s).1.orphans ⊆ (s.orphans \ W) ∪ W' := by
  obtain ⟨hok, hfree, hrec⟩ := batchedContract_ok.1 hok
  obtain ⟨bridge, before, rfl⟩ := Batched.eq_of_free hfree
  rintro r ⟨⟨hactive, hlost⟩, hexcused⟩
  -- the row is one of the exempted ones before the step only if it is now
  have hkeep : (before = none → heldIn sessions r = false) →
      r ∈ (a.exec (a.outcomeIn w before) bridge).1.orphanRows →
      r ∈ (Batched.orphans ⟨bridge, some ⟨sessions, before⟩⟩ \ W) ∪ W' := by
    refine fun hnone hr => (h hr).imp_left fun hold => ⟨⟨hold.1, ?_⟩, hold.2⟩
    rintro _ ⟨⟩
    exact hnone
  have hexcused := hexcused _ rfl
  simp only [BatchedAction.exec, Action.execIn, Batched.before, bind_some] at hactive hlost hexcused
  cases hends : before.filter fun _ => a.endsIn w before with
  | none =>
    rw [hends] at hactive hlost hexcused
    exact hkeep hexcused ⟨hactive, hlost⟩
  | some tables =>
    rw [hends] at hactive hlost hexcused
    obtain rfl := (filter_eq_some_iff.1 hends).1
    have hr : tables.rowActive r = true := by cases r <;> exact hactive
    cases hnow : (a.exec (a.outcomeIn w (some tables)) bridge).1.db.rowActive r with
    | true => exact hkeep nofun ⟨hnow, hlost⟩
    | false =>
      have hheld := hrec.held hfree hok rfl hr hnow
      exact absurd ((hexcused rfl).symm.trans hheld) false_ne_true

theorem settles_inBatch (h : sessionContract.Settles p W K Q) :
    batchedContract.Settles (batched sessions p) (liable W true) K fun result V K' =>
      ∃ W', V = liable W' true ∧ Q result W' K' := by
  induction p generalizing W K with
  | ret result => exact ⟨W, rfl, h⟩
  | act a next ih =>
    intro s w hK hok
    have hsession := (and_eq_true_iff.1 (batchedContract_ok.1 hok).1).1
    obtain ⟨-, W', K', hK', hdebts, hnext⟩ := h s.bridge (a.outcomeIn w s.before) hK hsession
    refine ⟨trivial, liable W' true, K', hK',
      liable_subset (orphans_inBatch hok hdebts) fun _ => .inl rfl, ih _ ?_⟩
    show sessionContract.Settles (next (a.execIn w s.bridge s.before).2) W' K' Q
    unfold Action.execIn
    split <;> exact hnext

section Commit

variable {Q : α → Set (Option SessionRow) → Set Empty → Prop} {next : Bool → BatchedM α}

theorem settles_begin (hfailed : batchedContract.Settles (next false) ∅ K Q)
    (hbegun : batchedContract.Settles (next true) (liable ∅ true) K Q) :
    batchedContract.Settles (.act (.begin sessions) next) ∅ K Q := by
  intro s w hK hok
  have hnone : s.batch = none := isNone_iff_eq_none.1 (batchedContract_ok.1 hok).2.1
  refine ⟨trivial, ?_⟩
  show ∃ W' K', _ ∧ _ ∧
    batchedContract.Settles (next ((BatchedAction.begin sessions).exec w s).2) W' K' Q
  cases hfails : w.fails with
  | true =>
    simp only [batchedContract, BatchedAction.exec, hfails, if_true]
    exact ⟨∅, K, hK, fun d hd => .inl ⟨hd, Set.notMem_empty d⟩, hfailed⟩
  | false =>
    simp only [batchedContract, BatchedAction.exec, hfails, false_eq_true, if_false]
    rw [← liable_empty]
    refine ⟨liable ∅ true, K, hK, liable_subset (fun r hr => ?_) fun _ => .inl rfl, hbegun⟩
    refine .inl ⟨⟨hr.1, fun b hb => ?_⟩, Set.notMem_empty r⟩
    rw [hnone] at hb
    cases hb

theorem settles_commit (hdone : batchedContract.Settles (next true) ∅ K Q)
    (hfailed : batchedContract.Settles (next false) (liable {r | heldIn sessions r = true} false) K Q) :
    batchedContract.Settles (.act (.commit sessions) next) (liable ∅ true) K Q := by
  intro s w hK hok
  obtain ⟨-, hfree, hrec⟩ := batchedContract_ok.1 hok
  obtain ⟨bridge, before, rfl⟩ := Batched.eq_of_free hfree
  -- a row of the group may turn up again, and only such a row
  have hfollow : ∀ s' : Bridge, (∀ r ∈ s'.orphanRows, r ∈ bridge.orphanRows ∨ heldIn sessions r) →
      liable (Batched.orphans ⟨s', none⟩) false ⊆
        (liable (Batched.orphans ⟨bridge, some ⟨sessions, before⟩⟩) true \ liable ∅ true) ∪
          liable {r | heldIn sessions r = true} false := by
    refine fun s' hs' => liable_subset (fun r hr => ?_) nofun
    cases hheld : heldIn sessions r with
    | true => exact .inr hheld
    | false =>
      refine .inl ⟨⟨(hs' r hr.1).resolve_right (by simp [hheld]), ?_⟩, Set.notMem_empty r⟩
      rintro _ ⟨⟩ _
      exact hheld
  refine ⟨trivial, ?_⟩
  show ∃ W' K', _ ∧ liable (Batched.orphans ⟨(bridge.endBatch before w.fails).1, none⟩) false ⊆ _ ∧
    batchedContract.Settles (next (bridge.endBatch before w.fails).2) W' K' Q
  cases before with
  | none =>
    refine ⟨_, K, hK, hfollow _ fun r hr => .inl ⟨?_, hr.2⟩, hfailed⟩
    cases r <;> exact hr.1
  | some tables =>
    cases w.fails with
    | false =>
      refine ⟨∅, K, hK, ?_, hdone⟩
      rw [← liable_empty]
      refine liable_subset (fun r hr => .inl ⟨⟨hr.1, ?_⟩, Set.notMem_empty r⟩) nofun
      rintro _ ⟨⟩ ⟨⟩
    | true =>
      refine ⟨_, K, hK, hfollow _ fun r hr => ?_, hfailed⟩
      have hactive : tables.rowActive r = true := by cases r <;> exact hr.1
      cases hnow : bridge.db.rowActive r with
      | true => exact .inl ⟨hnow, hr.2⟩
      | false => exact .inr (hrec _ rfl tables rfl r hactive hnow)

end Commit

end Settles

/-! ### The group -/

section Group

open Contract Bridge

variable {W : Set SessionRow} {K : Set Empty}

theorem subset_of_not_replaced {β : Type} {id : β → String} {row : String → SessionRow}
    {old now : Option β} (h : (old.filter fun p => now.all fun q => id q ≠ id p) = none)
    (hW : ∀ q ∈ now, row (id q) ∉ W) : W ⊆ W \ {r | ∃ p ∈ old, r = row (id p)} := by
  refine fun r hr => ⟨hr, ?_⟩
  rintro ⟨p, hp, rfl⟩
  rw [mem_def.1 hp, filter_some] at h
  cases now with
  | none => cases h
  | some q =>
    have hid : id q = id p := by simpa using h
    exact hW q rfl (hid ▸ hr)

theorem session_regroupPublisher {publisher now : Option PublisherRecord}
    (hW : ∀ p ∈ now, .publisher p.id ∉ W) :
    sessionContract.Settles (dropReplacedPublisher publisher now) W K fun _ W' _ =>
      W' ⊆ W \ {r | ∃ p ∈ publisher, r = .publisher p.id} := by
  unfold dropReplacedPublisher
  cases hfilter : publisher.filter fun row => now.all fun p => p.id ≠ row.id with
  | none => exact subset_of_not_replaced hfilter hW
  | some row =>
    refine session_giveUpPublisher (.inr (.inr rfl)) rfl fun _ => ?_
    show W \ _ ⊆ _
    simp [(filter_eq_some_iff.1 hfilter).1]

theorem session_regroupPlayer {player now : Option PlayerRecord}
    (hW : ∀ p ∈ now, .player p.id ∉ W) :
    sessionContract.Settles (dropReplacedPlayer player now) W K fun _ W' _ =>
      W' ⊆ W \ {r | ∃ p ∈ player, r = .player p.id} := by
  unfold dropReplacedPlayer
  cases hfilter : player.filter fun row => now.all fun p => p.id ≠ row.id with
  | none => exact subset_of_not_replaced hfilter hW
  | some row =>
    refine session_giveUpPlayer (.inr rfl) rfl fun _ => ?_
    show W \ _ ⊆ _
    simp [(filter_eq_some_iff.1 hfilter).1]

theorem session_lookRows {α : Type} {conn : UInt64} {Q : α → Set SessionRow → Set Empty → Prop}
    {next : Option PublisherRecord × Option PlayerRecord → BridgeM α}
    (h : ∀ now, sessionContract.Settles (next now) (W \ {r | (sessionOf now).holds r}) K Q) :
    sessionContract.Settles (.act (.look (.sessionRows conn)) next) W K Q := by
  refine session_look (fun s w r hr _ => ?_) h
  exact referenced_of_connState conn (by cases r <;> exact hr)

theorem session_dropReplaced (before : List HeldRows) (hW : ∀ r ∈ W, heldIn before r) :
    sessionContract.Settles (dropReplaced before) W K fun _ W' _ => W' = ∅ := by
  induction before generalizing W K with
  | nil => exact Set.eq_empty_of_forall_notMem fun r hr => false_ne_true (hW r hr)
  | cons e before ih =>
    obtain ⟨conn, publisher, player⟩ := e
    refine session_lookRows fun now => ?_
    have hpublisher : ∀ p ∈ now.1, .publisher p.id ∉ W \ {r | (sessionOf now).holds r} :=
      fun p hp hr => hr.2 (ConnState.holds_publisher.2 ⟨p, hp, rfl⟩)
    have hplayer : ∀ p ∈ now.2, .player p.id ∉ W \ {r | (sessionOf now).holds r} :=
      fun p hp hr => hr.2 (ConnState.holds_player.2 ⟨p, hp, rfl⟩)
    simp only [Prog.bind]
    refine Settles.bind ((session_regroupPublisher hpublisher).mono fun _ W₁ K₁ h₁ => ?_)
    refine Settles.bind ((session_regroupPlayer fun p hp hr => hplayer p hp (h₁ hr).1).mono
      fun _ W₂ K₂ h₂ => ?_)
    refine Settles.bind ((ih fun r hr => ?_).mono fun _ _ _ hnone => hnone)
    -- what is left of `W` are rows of the other connections
    obtain ⟨hr₁, hother⟩ := h₂ hr
    obtain ⟨hr₀, hother₁⟩ := h₁ hr₁
    rcases or_eq_true_iff.1 (hW r hr₀.1) with hheld | hrest
    · cases r with
      | publisher id =>
        obtain ⟨p, hp, rfl⟩ := ConnState.holds_publisher.1 hheld
        exact absurd ⟨p, hp, rfl⟩ hother₁
      | player id =>
        obtain ⟨p, hp, rfl⟩ := ConnState.holds_player.1 hheld
        exact absurd ⟨p, hp, rfl⟩ hother
    · exact hrest

theorem session_readSessions (group : List AuthRequest) :
    sessionContract.Honours (readSessions group) := by
  induction group with
  | nil => exact .ret _
  | cons req group ih => exact session_seek fun rows => ih.bind fun _ => .ret _

theorem session_runJobs (group : List AuthRequest) :
    sessionContract.Honours (runJobs (group.map .authorize)) := by
  induction group with
  | nil => exact .ret _
  | cons req group ih =>
    refine Honours.bind ?_ fun _ => ih.bind fun _ => .ret _
    refine Honours.bind ?_ fun allow => Honours.bind ?_ fun _ => .ret _
    · unfold authorize
      cases req.kind with
      | publish => exact session_authorizePublish _ _
      | play => exact session_authorizePlay _ _
    · cases allow with
      | true => exact session_seek fun _ => .ret _
      | false => exact .ret _

theorem GroupedOperation.honours (op : GroupedOperation) : batchedContract.Honours op.prog := by
  cases op with
  | single op => exact honours_plain op.honours
  | group reqs =>
    have hjobs := session_runJobs reqs
    show batchedContract.Honours (runAuthorizationGroup reqs)
    unfold runAuthorizationGroup
    split_ifs
    · exact (honours_plain hjobs).bind fun _ => .ret _
    · refine (honours_plain (session_readSessions reqs)).bind fun sessions K => settles_begin ?_ ?_
      · exact ((honours_plain hjobs).bind fun _ => .ret _) K
      · simp only [Prog.bind, if_true]
        refine Settles.bind ((settles_inBatch (hjobs K)).mono ?_)
        rintro completions _ K' ⟨_, rfl, rfl⟩
        refine settles_commit rfl ?_
        have hfollow : sessionContract.Settles (followUp completions sessions)
            {r | heldIn sessions r = true} K' fun _ W _ => W = ∅ :=
          session_other rfl fun _ => session_dropReplaced sessions fun _ hr => hr
        simp only [Prog.bind, false_eq_true, if_false]
        refine Settles.bind ((settles_plain hfollow).mono ?_)
        rintro _ _ _ ⟨_, rfl, rfl⟩
        exact liable_empty

end Group

/-! ### Runs -/

theorem GroupedOperation.step_refines {p p' : Pool Batched BatchedAction BatchedAction.Answer}
    {e : Event GroupedOperation Outcome} (hrec : p.state.Recoverable) (hok : p.allows batchedOk e)
    (h : GroupedOperation.step p e = some p') :
    p.step batchedContract.exec GroupedOperation.prog e = some p' ∧
      p.allows batchedContract.ok e ∧ p'.state.Recoverable := by
  rw [GroupedOperation.step, ite_none_right_eq_some] at h
  obtain ⟨hfree, hstep⟩ := h
  refine ⟨hstep, ?_⟩
  cases e with
  | start op =>
    cases hstep
    exact ⟨rfl, hrec⟩
  | advance i w =>
    obtain ⟨a, next, hi, rfl⟩ := Pool.step_advance hstep
    rw [Pool.allows_advance hi] at hok hfree ⊢
    exact ⟨batchedContract_ok.2 ⟨hok, hfree, hrec⟩, hrec.exec hfree hok⟩

/-- Whenever no operation is in progress, an active row is held by a connection or queued for
deactivation, unless it was lost before the run began. -/
theorem active_rows_referenced {s : Bridge} {es : List (Event GroupedOperation Outcome)}
    {p : Pool Batched BatchedAction BatchedAction.Answer}
    (hok : along GroupedOperation.step (Pool.allows batchedOk) es ⟨⟨s, none⟩, []⟩ = true)
    (h : replay GroupedOperation.step ⟨⟨s, none⟩, []⟩ es = some p)
    (hidle : p.idle = true) {r : SessionRow} (hr : p.state.bridge.db.rowActive r = true)
    (hold : r ∉ s.orphanRows) : p.state.bridge.Referenced r := by
  obtain ⟨h, hok⟩ := replay_refines (P := fun p => p.state.Recoverable)
    (fun _ _ _ hrec hok hstep => GroupedOperation.step_refines hrec hok hstep) nofun hok h
  have hdebts : liable p.state.orphans p.state.batch.isSome ⊆ liable (Batched.orphans ⟨s, none⟩) false :=
    Contract.settled (C := batchedContract) GroupedOperation.honours hok h hidle
  have hnone : p.state.batch = none := by
    by_contra hsome
    exact false_ne_true (@hdebts none (isSome_iff_ne_none.2 hsome))
  by_contra hlost
  refine hold (@hdebts (some r) ⟨⟨hr, hlost⟩, fun b hb => ?_⟩).1
  rw [hnone] at hb
  cases hb

/-- Connection 7 publishes `a` and asks for `b` in a group that cannot be committed, so that the row
of its first session comes back. Then connection 9 asks for `a`. -/
def failedGroup : List (Event GroupedOperation Outcome) :=
  [.start (.single (.authorizePublish 7 "live" "pub_a_00000000000000000000000000"))] ++
    advances 0 10 { sessionId := some "pa" } ++
    [.start (.group [⟨.publish, 7, "live", "pub_b_00000000000000000000000000", 0⟩,
      ⟨.publish, 8, "live", "pub_b_00000000000000000000000000", 1⟩])] ++
    advances 1 23 { sessionId := some "pb" } ++ [.advance 1 { fails := true }] ++ advances 1 4 {} ++
    [.start (.single (.authorizePublish 9 "live" "pub_a_00000000000000000000000000"))] ++
    advances 2 10 { sessionId := some "pc" }

theorem active_rows_referenced_group :
    ∃ p, replay GroupedOperation.step ⟨⟨.start ownedStreams .absent, none⟩, []⟩ failedGroup = some p ∧
      p.idle = true ∧ p.state.bridge.db.rowActive (.publisher "pa") = false ∧
      p.state.bridge.db.rowActive (.publisher "pc") = true ∧
      p.state.bridge.Referenced (.publisher "pc") := by
  have hrun : (replay GroupedOperation.step ⟨⟨.start ownedStreams .absent, none⟩, []⟩
      failedGroup).map (fun p => (p.idle, p.state.bridge.db.rowActive (.publisher "pa"),
        p.state.bridge.db.rowActive (.publisher "pc"))) = some (true, false, true) := by
    decide +kernel
  obtain ⟨p, hp, heq⟩ := map_eq_some_iff.1 hrun
  simp only [Prod.mk.injEq] at heq
  have hok : along GroupedOperation.step (Pool.allows batchedOk) failedGroup
      ⟨⟨.start ownedStreams .absent, none⟩, []⟩ = true := by
    decide +kernel
  have hstart : .publisher "pc" ∉ (Bridge.start ownedStreams .absent).orphanRows :=
    fun hlost => false_ne_true hlost.1
  exact ⟨p, hp, heq.1, heq.2.1, heq.2.2, active_rows_referenced hok hp heq.1 heq.2.2 hstart⟩

/-! ### A row that is lost -/

/-- Connection 7 asks to publish `a`. Its row is written, the cluster refuses the stream, and the
write that gives the row up fails. -/
def refusedPublish : List (Event GroupedOperation Outcome) :=
  [.start (.single (.authorizePublish 7 "live" "pub_a_00000000000000000000000000"))] ++
    advances 0 10 { sessionId := some "pa" } ++ [.advance 0 { faults := ⟨false, false, true⟩ }]

theorem active_row_lost :
    ∃ p, replay GroupedOperation.step ⟨⟨.start ownedStreams .cluster, none⟩, []⟩ refusedPublish =
        some p ∧
      p.idle = true ∧ p.state.bridge.persistJobs = [] ∧
      p.state.bridge.db.rowActive (.publisher "pa") = true ∧
      ¬ p.state.bridge.Referenced (.publisher "pa") := by
  have hrun : (replay GroupedOperation.step ⟨⟨.start ownedStreams .cluster, none⟩, []⟩
      refusedPublish).map (fun p => (p.idle, p.state.bridge.persistJobs.isEmpty,
        p.state.bridge.db.rowActive (.publisher "pa"), p.state.bridge.held (.publisher "pa"),
        p.state.bridge.pendingDeactivations.isEmpty)) = some (true, true, true, false, true) := by
    decide +kernel
  obtain ⟨p, hp, heq⟩ := map_eq_some_iff.1 hrun
  simp only [Prod.mk.injEq, List.isEmpty_iff] at heq
  obtain ⟨hidle, hjobs, hactive, hheld, hqueue⟩ := heq
  refine ⟨p, hp, hidle, hjobs, hactive, ?_⟩
  rintro (hr | ⟨d, hd, -⟩)
  · exact false_ne_true (hheld.symm.trans hr)
  · rw [hqueue] at hd
    cases hd

end RtmpServer
