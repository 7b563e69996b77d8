import Mathlib.Data.Finset.Erase
import Mathlib.Data.Finset.Insert
import RtmpServer.Cluster.StateMachine

/-!
# Deleting a stream

`handle_stream_delete` of `http.rs` and the task it leaves behind when it answers 202. The handler
and the task read the node's own copy of the tables and write through the coordinator, which may
apply a write and answer, fail, or lose the answer of a write that takes effect later or never. One
step of `DeleteSystem.step` is one such read or call of some delete, a lost write that takes effect
or is dropped, the write of another administrator, or a copy that catches up. `DeleteSystem.Stepped`
says once what each step can do.
-/

namespace RtmpServer

open List Lib.Table Lib.Replay Function
open Option hiding any_eq_false any_eq_true

variable {cmd : ClusterCommand} {phase : DeletePhase}

/-! ### The coordinator -/

/-- `CoordError`; of a cluster error only whether the write may still commit. -/
inductive CoordError where
  | duplicate
  | notFound
  | conflict
  | db
  | cluster (mayHaveCommitted : Bool)
  deriving DecidableEq, Repr

def CoordError.clusterWriteMayHaveCommitted : CoordError → Bool
  | .cluster mayHaveCommitted => mayHaveCommitted
  | _ => false

def ClusterResponse.intoCoordResult : ClusterResponse → Except CoordError Unit
  | .ok | .ownerEpoch _ | .released _ => .ok ()
  | .duplicate => .error .duplicate
  | .notFound => .error .notFound
  | .conflict => .error .conflict
  | .error _ => .error (.cluster false)

inductive CallOutcome where
  /-- The write is applied and its response comes back. -/
  | answered
  /-- The write is refused or cannot be sent. -/
  | failed
  /-- No response comes back; the write is still on its way. -/
  | lost
  deriving DecidableEq, Repr

inductive DbLookup (α : Type) where
  | ok (row : α)
  | missing
  | failed
  deriving DecidableEq, Repr

def DbLookup.ofOption {α : Type} (fails : Bool) (row : Option α) : DbLookup α :=
  if fails then .failed else row.elim .missing .ok

/-! ### The delete of one row -/

/-- What tells a row from its replacement under the same id. -/
structure StreamIdentity where
  id : String
  createdAt : Int
  deleteToken : String
  deriving DecidableEq, Repr

def StreamRow.identity (r : StreamRow) : StreamIdentity := ⟨r.id, r.createdAt, r.deleteToken⟩

inductive DeleteReply where
  | unauthorized
  | badRequest
  | notFound
  | internalError
  | deleted
  | accepted
  deriving DecidableEq, Repr

/-- Where the delete is: what its handler or its task does next. -/
inductive DeletePhase where
  /-- The handler's `begin_delete_stream_expecting`. -/
  | begin
  /-- The handler counts the sessions to drain. -/
  | countSessions
  /-- `finalize_stream_delete` with `rollback_on_error`, and what it does on an error. -/
  | finalize
  | rollbackRead
  | rollbackEnable
  /-- One round of the loop of `wait_and_finalize_stream_delete`. -/
  | retryRead (attempt : Nat)
  | retryBegin (attempt : Nat)
  | retryFinalize (attempt : Nat)
  /-- `keep_stream_disabled_after_failed_delete`. -/
  | keepBegin
  | keepReadToken
  | keepReadEnabled
  | keepReadPending
  | keepDisable
  | ended (reply : DeleteReply)
  deriving DecidableEq, Repr

/-- What happens to the marker in `sticky_deleted_streams`. -/
inductive MarkerChange where
  | keep
  | clear
  | mark
  deriving DecidableEq, Repr

def finalizeAttempts : Nat := 6

namespace DeletePhase

def command (target : StreamIdentity) : DeletePhase → Option ClusterCommand
  | .begin | .retryBegin _ | .keepBegin =>
    some (.beginDeleteStream target.id (some target.createdAt) (some target.deleteToken))
  | .finalize | .retryFinalize _ => some (.finalizeDeleteStream target.id)
  | .rollbackEnable => some (.setStreamEnabled target.id true)
  | .keepDisable => some (.setStreamEnabled target.id false)
  | _ => none

def afterCall (result : Except CoordError Unit) : DeletePhase → DeletePhase × MarkerChange
  | .begin =>
    match result with
    | .ok () => (.countSessions, .keep)
    | .error .notFound | .error .conflict => (.ended .notFound, .clear)
    | .error e =>
      if e.clusterWriteMayHaveCommitted then (.retryRead 1, .keep)
      else (.ended .internalError, .clear)
  | .finalize =>
    match result with
    | .ok () | .error .notFound => (.ended .deleted, .clear)
    | .error .conflict => (.ended .internalError, .clear)
    | .error _ => (.rollbackRead, .keep)
  | .rollbackEnable => (.ended .internalError, .clear)
  | .retryBegin attempt =>
    match result with
    | .error .conflict => (.ended .accepted, .clear)
    | _ => (.retryFinalize attempt, .keep)
  | .retryFinalize attempt =>
    match result with
    | .ok () | .error .notFound => (.ended .accepted, .clear)
    | .error e =>
      if attempt < finalizeAttempts then (.retryRead (attempt + 1), .mark)
      else (.keepBegin, if e = .conflict then .clear else .keep)
  | .keepBegin =>
    match result with
    | .ok () | .error .notFound | .error .conflict => (.ended .accepted, .clear)
    | .error _ => (.keepReadToken, .keep)
  | .keepDisable => (.ended .accepted, .clear)
  | phase => (phase, .keep)

/-- What follows a read of the node's copy of the row; nothing when the phase reads nothing. -/
def afterRead (target : StreamIdentity) (row : DbLookup StreamRow) :
    DeletePhase → Option (DeletePhase × MarkerChange)
  | .rollbackRead =>
    match row with
    | .ok _ => some (.rollbackEnable, .keep)
    | _ => some (.ended .internalError, .clear)
  | .retryRead attempt =>
    match row with
    | .missing => some (.ended .accepted, .clear)
    | .ok r =>
      if r.createdAt ≠ target.createdAt ∨ r.deleteToken ≠ target.deleteToken then
        some (.ended .accepted, .clear)
      else some (.retryBegin attempt, .keep)
    | .failed => some (.retryBegin attempt, .keep)
  | .keepReadToken =>
    match row with
    | .ok r =>
      if r.createdAt = target.createdAt ∧ r.deleteToken = target.deleteToken then
        some (.keepReadEnabled, .keep)
      else some (.ended .accepted, .clear)
    | _ => some (.ended .accepted, .clear)
  | .keepReadEnabled =>
    match row with
    | .ok r => if r.enabled then some (.keepDisable, .keep) else some (.keepReadPending, .keep)
    | _ => some (.keepDisable, .keep)
  | .keepReadPending =>
    match row with
    | .ok r =>
      if r.pendingDelete then some (.ended .accepted, .clear) else some (.keepDisable, .keep)
    | _ => some (.keepDisable, .keep)
  | _ => none

end DeletePhase

/-- A delete that a node has taken up for the row it read. -/
structure StreamDelete where
  node : UInt64
  target : StreamIdentity
  phase : DeletePhase
  deriving DecidableEq, Repr

/-! ### The system -/

def isValidStreamKeyPart (value : String) : Bool :=
  value.utf8ByteSize ≤ 63 &&
    match value.toList with
    | [] => false
    | first :: rest =>
      first.isAlphanum && rest.all fun c => c.isAlphanum || c == '.' || c == '_' || c == '-'

structure DeleteSystem where
  /-- The tables of the coordinator. -/
  db : Db
  /-- The tables a node reads, which may be behind. -/
  copies : UInt64 → Db
  /-- `sticky_deleted_streams` of each node. -/
  sticky : UInt64 → Finset String
  deletes : List StreamDelete
  /-- Writes whose response was lost, with the delete that sent them. -/
  inFlight : List (Nat × ClusterCommand)

inductive DeleteOp where
  | request (node : UInt64) (bearerOk : Bool) (id : String) (readFails : Bool)
  | call (delete : Nat) (outcome : CallOutcome)
  | countSessions (delete : Nat) (live : Bool)
  | read (delete : Nat) (fails : Bool)
  /-- A lost write takes effect after all. -/
  | commit (write : Nat)
  | drop (write : Nat)
  /-- Anybody else's write. -/
  | command (index : UInt64) (cmd : ClusterCommand)
  | replicate (node : UInt64)

namespace DeleteSystem

def start (db : Db) (copies : UInt64 → Db) : DeleteSystem := ⟨db, copies, fun _ => ∅, [], []⟩

/-- `handle_stream_delete` up to its first write: the reply, or the row to delete. -/
def handleStreamDelete (s : DeleteSystem) (node : UInt64) (bearerOk : Bool) (id : String)
    (readFails : Bool) : DeleteReply ⊕ StreamIdentity :=
  if !bearerOk then .inl .unauthorized
  else if !isValidStreamKeyPart id then .inl .badRequest
  else if id ∈ s.sticky node then .inl .accepted
  else
    match DbLookup.ofOption readFails ((s.copies node).streamRow id) with
    | .missing => .inl .notFound
    | .failed => .inl .internalError
    | .ok r => .inr r.identity

def setMarker (s : DeleteSystem) (node : UInt64) (id : String) : MarkerChange → DeleteSystem
  | .keep => s
  | .clear => { s with sticky := update s.sticky node ((s.sticky node).erase id) }
  | .mark => { s with sticky := update s.sticky node (insert id (s.sticky node)) }

def proceed (s : DeleteSystem) (i : Nat) (d : StreamDelete) (next : DeletePhase × MarkerChange) :
    DeleteSystem :=
  { s with deletes := s.deletes.set i { d with phase := next.1 } }.setMarker d.node d.target.id next.2

def send (s : DeleteSystem) (i : Nat) (cmd : ClusterCommand) :
    CallOutcome → DeleteSystem × Except CoordError Unit
  | .answered =>
    let r := applyCommand s.db cmd
    ({ s with db := r.db }, r.response.intoCoordResult)
  | .failed => (s, .error .db)
  | .lost => ({ s with inFlight := s.inFlight ++ [(i, cmd)] }, .error (.cluster true))

def step (s : DeleteSystem) : DeleteOp → Option DeleteSystem
  | .request node bearerOk id readFails =>
    match s.handleStreamDelete node bearerOk id readFails with
    | .inl _ => some s
    | .inr target =>
      some ({ s with deletes := s.deletes ++ [StreamDelete.mk node target .begin] }.setMarker node
        target.id .mark)
  | .call i outcome =>
    s.deletes[i]?.bind fun d =>
      (d.phase.command d.target).map fun cmd =>
        let r := s.send i cmd outcome
        r.1.proceed i d (d.phase.afterCall r.2)
  | .countSessions i live =>
    s.deletes[i]?.bind fun d =>
      if d.phase = .countSessions then
        some (s.proceed i d (if live then .retryRead 1 else .finalize, .keep))
      else none
  | .read i fails =>
    s.deletes[i]?.bind fun d =>
      (d.phase.afterRead d.target
        (.ofOption fails ((s.copies d.node).streamRow d.target.id))).map (s.proceed i d)
  | .commit k =>
    s.inFlight[k]?.map fun w =>
      { s with db := (applyCommand s.db w.2).db, inFlight := s.inFlight.eraseIdx k }
  | .drop k =>
    s.inFlight[k]?.map fun _ => { s with inFlight := s.inFlight.eraseIdx k }
  | .command index cmd => some { s with db := (applyNormal index s.db cmd).db }
  | .replicate node => some { s with copies := update s.copies node s.db }

def takesEffect (s : DeleteSystem) : DeleteOp → Option (Nat × ClusterCommand)
  | .call i .answered => s.deletes[i]?.bind fun d => (d.phase.command d.target).map (i, ·)
  | .commit k => s.inFlight[k]?
  | _ => none

end DeleteSystem

/-! ### What a write does to the rows -/

def Db.hits (db : Db) (target : StreamIdentity) : ClusterCommand → Bool
  | .beginDeleteStream id createdAt token =>
    db.streams.any fun r => r.identity = target && Db.disableMatches id createdAt token r
  | .finalizeDeleteStream id =>
    db.streams.any fun r => r.identity = target && (r.id = id ∧ r.pendingDelete = true)
  | .setStreamEnabled id _ => db.streams.any fun r => r.identity = target && r.id = id
  | _ => false

def ClusterCommand.isSetStreamEnabled : ClusterCommand → Bool
  | .setStreamEnabled _ _ => true
  | _ => false

def ClusterCommand.isDeleteWrite : ClusterCommand → Bool
  | .beginDeleteStream _ _ _ | .finalizeDeleteStream _ | .setStreamEnabled _ _ => true
  | _ => false

theorem DeletePhase.isDeleteWrite_command {target : StreamIdentity}
    (h : phase.command target = some cmd) : cmd.isDeleteWrite = true := by
  cases phase <;> cases h <;> rfl

theorem ClusterCommand.applyCommand_eq (hw : cmd.isDeleteWrite) (db : Db) :
    applyCommand db cmd = applyNormal 0 db cmd := by
  cases cmd <;> first | rfl | cases hw

theorem DeletePhase.id_of_hits {own target : StreamIdentity} {db : Db}
    (hc : phase.command own = some cmd) (hh : db.hits target cmd) : own.id = target.id := by
  have of_row : ∀ r : StreamRow, r.identity = target → r.id = own.id → own.id = target.id := by
    rintro r rfl hid
    exact hid.symm
  cases phase with
  | begin | retryBegin _ | keepBegin =>
    cases hc
    simp only [Db.hits, any_eq_true, Bool.and_eq_true, decide_eq_true_eq,
      Db.disableMatches] at hh
    obtain ⟨r, -, hr, hid, -⟩ := hh
    exact of_row r hr hid
  | finalize | retryFinalize _ =>
    cases hc
    simp only [Db.hits, any_eq_true, Bool.and_eq_true, decide_eq_true_eq] at hh
    obtain ⟨r, -, hr, hid, -⟩ := hh
    exact of_row r hr hid
  | rollbackEnable | keepDisable =>
    cases hc
    simp only [Db.hits, any_eq_true, Bool.and_eq_true, decide_eq_true_eq] at hh
    obtain ⟨r, -, hr, hid⟩ := hh
    exact of_row r hr hid
  | _ => cases hc

theorem DeletePhase.of_isSetStreamEnabled {own : StreamIdentity}
    (hc : phase.command own = some cmd) (hset : cmd.isSetStreamEnabled) :
    phase = .rollbackEnable ∨ phase = .keepDisable := by
  cases phase with
  | rollbackEnable => exact .inl rfl
  | keepDisable => exact .inr rfl
  | begin | finalize | retryBegin _ | retryFinalize _ | keepBegin =>
    cases hc
    simp [ClusterCommand.isSetStreamEnabled] at hset
  | _ => cases hc

namespace Db

variable {db : Db} {target : StreamIdentity} {id : String}
variable {r : StreamRow}

theorem streams_finalizeDeleteStream :
    (applyCommand db (.finalizeDeleteStream id)).db.streams =
      deleteWhere (fun r => r.id = id ∧ r.pendingDelete) db.streams := by
  have hdb := finalizeDeleteStream_db 0 db id
  rw [applyNormal] at hdb
  · rw [hdb, streamDeleteIfPending]
    split_ifs with hany
    · rfl
    · refine (deleteWhere_of_none fun r hr => ?_).symm
      rw [← Bool.not_eq_true]
      exact fun hr' => hany (any_eq_true.2 ⟨r, hr, hr'⟩)
  all_goals simp

theorem id_of_streamRow (h : db.streamRow id = some r) : r.id = id := by
  simpa using find?_some h

theorem mem_setStreamFlags {p : StreamRow → Bool} {enabled pendingDelete : Bool} :
    r ∈ (db.setStreamFlags p enabled pendingDelete).streams ↔
      (∃ a ∈ db.streams, p a ∧ a.withFlags enabled pendingDelete = r) ∨
        (r ∈ db.streams ∧ p r = false) := by
  refine mem_updateWhere.trans ⟨?_, ?_⟩
  · rintro ⟨a, ha, rfl⟩
    by_cases hp : p a = true
    · exact .inl ⟨a, ha, hp, by rw [if_pos hp]⟩
    · rw [if_neg hp]
      exact .inr ⟨ha, by simpa using hp⟩
  · rintro (⟨a, ha, hp, rfl⟩ | ⟨hr, hp⟩)
    · exact ⟨a, ha, if_pos hp⟩
    · exact ⟨r, hr, by simp [hp]⟩

theorem mem_streams_of_not_hits {cmd : ClusterCommand} (hw : cmd.isDeleteWrite)
    (hh : db.hits target cmd = false) (hr : r.identity = target) :
    r ∈ (applyCommand db cmd).db.streams ↔ r ∈ db.streams := by
  cases cmd with
  | beginDeleteStream id createdAt token =>
    have hdb : (applyCommand db (.beginDeleteStream id createdAt token)).db = _ :=
      beginDeleteStream_db 0 db id createdAt token
    simp only [hits, any_eq_false, Bool.and_eq_true, decide_eq_true_eq, not_and] at hh
    rw [hdb, mem_setStreamFlags]
    refine ⟨?_, fun hmem => .inr ⟨hmem, by simpa using hh r hmem hr⟩⟩
    rintro (⟨a, ha, hp, rfl⟩ | ⟨hmem, -⟩)
    · exact absurd hp (hh a ha hr)
    · exact hmem
  | finalizeDeleteStream id =>
    simp only [hits, any_eq_false, Bool.and_eq_true, decide_eq_true_eq, not_and] at hh
    rw [streams_finalizeDeleteStream, mem_deleteWhere]
    refine ⟨fun h => h.1, fun hmem => ⟨hmem, ?_⟩⟩
    simpa using hh r hmem hr
  | setStreamEnabled id enabled =>
    have hdb : (applyCommand db (.setStreamEnabled id enabled)).db = _ :=
      setStreamEnabled_db 0 db id enabled
    simp only [hits, any_eq_false, Bool.and_eq_true, decide_eq_true_eq, not_and] at hh
    rw [hdb, mem_setStreamFlags]
    refine ⟨?_, fun hmem => .inr ⟨hmem, by simpa using hh r hmem hr⟩⟩
    rintro (⟨a, ha, hp, rfl⟩ | ⟨hmem, -⟩)
    · exact absurd (by simpa using hp) (hh a ha hr)
    · exact hmem
  | _ => cases hw

end Db

/-! ### What a step does -/

namespace DeleteSystem

variable {s s' : DeleteSystem} {op : DeleteOp} {w : Nat × ClusterCommand}
variable {j : Nat}

@[simp] theorem setMarker_db (node : UInt64) (id : String) (c : MarkerChange) :
    (s.setMarker node id c).db = s.db := by
  cases c <;> rfl

@[simp] theorem setMarker_copies (node : UInt64) (id : String) (c : MarkerChange) :
    (s.setMarker node id c).copies = s.copies := by
  cases c <;> rfl

@[simp] theorem setMarker_deletes (node : UInt64) (id : String) (c : MarkerChange) :
    (s.setMarker node id c).deletes = s.deletes := by
  cases c <;> rfl

@[simp] theorem setMarker_inFlight (node : UInt64) (id : String) (c : MarkerChange) :
    (s.setMarker node id c).inFlight = s.inFlight := by
  cases c <;> rfl

@[simp] theorem proceed_db (i : Nat) (d : StreamDelete) (next : DeletePhase × MarkerChange) :
    (s.proceed i d next).db = s.db := setMarker_db _ _ _

@[simp] theorem proceed_deletes (i : Nat) (d : StreamDelete) (next : DeletePhase × MarkerChange) :
    (s.proceed i d next).deletes = s.deletes.set i { d with phase := next.1 } :=
  setMarker_deletes _ _ _

@[simp] theorem proceed_inFlight (i : Nat) (d : StreamDelete) (next : DeletePhase × MarkerChange) :
    (s.proceed i d next).inFlight = s.inFlight := setMarker_inFlight _ _ _

/-- What a step does to the tables, the deletes and the writes on their way. -/
inductive Stepped (s : DeleteSystem) : DeleteOp → DeleteSystem → Prop
  | refused {node : UInt64} {bearerOk : Bool} {id : String} {readFails : Bool}
    {reply : DeleteReply} (h : s.handleStreamDelete node bearerOk id readFails = .inl reply) :
    Stepped s (.request node bearerOk id readFails) s
  | taken {node : UInt64} {bearerOk : Bool} {id : String} {readFails : Bool} {s' : DeleteSystem}
    (r : StreamRow) (h : s.handleStreamDelete node bearerOk id readFails = .inr r.identity)
    (hr : (s.copies node).streamRow id = some r) (hdb : s'.db = s.db)
    (hd : s'.deletes = s.deletes ++ [⟨node, r.identity, .begin⟩])
    (hw : s'.inFlight = s.inFlight) : Stepped s (.request node bearerOk id readFails) s'
  | call {i : Nat} {outcome : CallOutcome} {s' : DeleteSystem} {d : StreamDelete}
    {cmd : ClusterCommand} (hi : s.deletes[i]? = some d)
    (hc : d.phase.command d.target = some cmd) (hdb : s'.db = (s.send i cmd outcome).1.db)
    (hd : s'.deletes = s.deletes.set i
      { d with phase := (d.phase.afterCall (s.send i cmd outcome).2).1 })
    (hw : s'.inFlight = (s.send i cmd outcome).1.inFlight) : Stepped s (.call i outcome) s'
  | counted {i : Nat} {live : Bool} {s' : DeleteSystem} {d : StreamDelete}
    (hi : s.deletes[i]? = some d) (hp : d.phase = .countSessions) (hdb : s'.db = s.db)
    (hd : s'.deletes = s.deletes.set i
      { d with phase := if live then .retryRead 1 else .finalize })
    (hw : s'.inFlight = s.inFlight) : Stepped s (.countSessions i live) s'
  | read {i : Nat} {fails : Bool} {s' : DeleteSystem} {d : StreamDelete}
    {next : DeletePhase × MarkerChange} (hi : s.deletes[i]? = some d)
    (hn : d.phase.afterRead d.target
      (.ofOption fails ((s.copies d.node).streamRow d.target.id)) = some next)
    (hdb : s'.db = s.db) (hd : s'.deletes = s.deletes.set i { d with phase := next.1 })
    (hw : s'.inFlight = s.inFlight) : Stepped s (.read i fails) s'
  | commit {k : Nat} {s' : DeleteSystem} {w : Nat × ClusterCommand} (hk : s.inFlight[k]? = some w)
    (hdb : s'.db = (applyCommand s.db w.2).db) (hd : s'.deletes = s.deletes)
    (hw : s'.inFlight = s.inFlight.eraseIdx k) : Stepped s (.commit k) s'
  | drop {k : Nat} {s' : DeleteSystem} (hdb : s'.db = s.db) (hd : s'.deletes = s.deletes)
    (hw : s'.inFlight = s.inFlight.eraseIdx k) : Stepped s (.drop k) s'
  | command {index : UInt64} {cmd : ClusterCommand} {s' : DeleteSystem}
    (hdb : s'.db = (applyNormal index s.db cmd).db) (hd : s'.deletes = s.deletes)
    (hw : s'.inFlight = s.inFlight) : Stepped s (.command index cmd) s'
  | replicate {node : UInt64} {s' : DeleteSystem} (hdb : s'.db = s.db)
    (hd : s'.deletes = s.deletes) (hw : s'.inFlight = s.inFlight) : Stepped s (.replicate node) s'

theorem step_stepped (h : s.step op = some s') : s.Stepped op s' := by
  cases op with
  | request node bearerOk id readFails =>
    simp only [step] at h
    split at h
    · next hreply =>
      obtain rfl := some.inj h
      exact .refused hreply
    · next target htarget =>
      obtain rfl := some.inj h
      have hrow : ∃ r, (s.copies node).streamRow id = some r ∧ r.identity = target := by
        unfold handleStreamDelete at htarget
        split_ifs at htarget
        cases hr : (s.copies node).streamRow id with
        | none =>
          cases readFails <;> simp [DbLookup.ofOption, hr] at htarget
        | some r =>
          cases readFails with
          | true => simp [DbLookup.ofOption] at htarget
          | false => exact ⟨r, rfl, by simpa [DbLookup.ofOption, hr] using htarget⟩
      obtain ⟨r, hr, rfl⟩ := hrow
      exact .taken r htarget hr (by simp) (by simp) (by simp)
  | call i outcome =>
    obtain ⟨d, hi, h⟩ := bind_eq_some_iff.1 h
    obtain ⟨cmd, hc, rfl⟩ := map_eq_some_iff.1 h
    refine .call hi hc (by simp) ?_ (by simp)
    cases outcome <;> simp [send]
  | countSessions i live =>
    obtain ⟨d, hi, h⟩ := bind_eq_some_iff.1 h
    obtain ⟨hp, h⟩ := ite_none_right_eq_some.1 h
    obtain rfl := some.inj h
    exact .counted hi hp (by simp) (by simp) (by simp)
  | read i fails =>
    obtain ⟨d, hi, h⟩ := bind_eq_some_iff.1 h
    obtain ⟨next, hn, rfl⟩ := map_eq_some_iff.1 h
    exact .read hi hn (by simp) (by simp) (by simp)
  | commit k =>
    obtain ⟨w, hk, rfl⟩ := map_eq_some_iff.1 h
    exact .commit hk rfl rfl rfl
  | drop k =>
    obtain ⟨w, -, rfl⟩ := map_eq_some_iff.1 h
    exact .drop rfl rfl rfl
  | command index cmd =>
    obtain rfl := some.inj h
    exact .command rfl rfl rfl
  | replicate node =>
    obtain rfl := some.inj h
    exact .replicate rfl rfl rfl

theorem step_db (h : s.step op = some s') :
    (∃ w, s.takesEffect op = some w ∧ s'.db = (applyCommand s.db w.2).db) ∨
      s.takesEffect op = none ∧ (s'.db = s.db ∨
        ∃ index cmd, op = .command index cmd ∧ s'.db = (applyNormal index s.db cmd).db) := by
  cases step_stepped h with
  | refused _ => exact .inr ⟨rfl, .inl rfl⟩
  | taken _ _ _ hdb _ _ => exact .inr ⟨rfl, .inl hdb⟩
  | @call i outcome _ d cmd hi hc hdb _ _ =>
    cases outcome with
    | answered => exact .inl ⟨(i, cmd), by simp [takesEffect, hi, hc], hdb⟩
    | failed => exact .inr ⟨rfl, .inl hdb⟩
    | lost => exact .inr ⟨rfl, .inl hdb⟩
  | counted _ _ hdb _ _ => exact .inr ⟨rfl, .inl hdb⟩
  | read _ _ hdb _ _ => exact .inr ⟨rfl, .inl hdb⟩
  | commit hk hdb _ _ => exact .inl ⟨_, hk, hdb⟩
  | drop hdb _ _ => exact .inr ⟨rfl, .inl hdb⟩
  | command hdb _ _ => exact .inr ⟨rfl, .inr ⟨_, _, rfl, hdb⟩⟩
  | replicate hdb _ _ => exact .inr ⟨rfl, .inl hdb⟩

/-- The tables keep their constraints, and only writes of deletes are on their way. -/
structure Sound (s : DeleteSystem) : Prop where
  schema : SchemaOk s.db
  writes : ∀ w ∈ s.inFlight, w.2.isDeleteWrite = true

/-- The delete that sent the write, and is answered now or was not. -/
theorem takesEffect_cases (hw : s.takesEffect op = some w) :
    (∃ d, s.deletes[w.1]? = some d ∧ d.phase.command d.target = some w.2) ∨ w ∈ s.inFlight := by
  cases op with
  | call i outcome =>
    cases outcome with
    | answered =>
      obtain ⟨d, hi, hw⟩ := bind_eq_some_iff.1 hw
      obtain ⟨cmd, hc, rfl⟩ := map_eq_some_iff.1 hw
      exact .inl ⟨d, hi, hc⟩
    | failed => cases hw
    | lost => cases hw
  | commit k => exact .inr (mem_of_getElem? hw)
  | _ => cases hw

theorem mem_inFlight_step (hs : s.step op = some s') (hmem : w ∈ s'.inFlight) :
    w ∈ s.inFlight ∨ ∃ d, s.deletes[w.1]? = some d ∧ d.phase.command d.target = some w.2 := by
  cases step_stepped hs with
  | refused _ => exact .inl hmem
  | @call i outcome _ d cmd hi hc _ _ hw =>
    rw [hw] at hmem
    cases outcome with
    | answered => exact .inl hmem
    | failed => exact .inl hmem
    | lost =>
      refine (mem_append.1 hmem).imp_right fun hmem => ?_
      obtain rfl := mem_singleton.1 hmem
      exact ⟨d, hi, hc⟩
  | taken _ _ _ _ _ hw | counted _ _ _ _ hw | read _ _ _ _ hw | command _ _ hw
  | replicate _ _ hw => exact .inl (hw ▸ hmem)
  | commit _ _ _ hw | drop _ _ hw => exact .inl (mem_of_mem_eraseIdx (hw ▸ hmem))

theorem Sound.takesEffect (h : s.Sound) (hw : s.takesEffect op = some w) :
    w.2.isDeleteWrite = true := by
  rcases takesEffect_cases hw with ⟨d, -, hc⟩ | hmem
  · exact DeletePhase.isDeleteWrite_command hc
  · exact h.writes w hmem

theorem Sound.step (h : s.Sound) (hs : s.step op = some s') : s'.Sound := by
  constructor
  · rcases step_db hs with ⟨w, hw, hdb⟩ | ⟨-, hdb | ⟨index, cmd, -, hdb⟩⟩
    · rw [hdb, ClusterCommand.applyCommand_eq (h.takesEffect hw)]
      exact applyNormal_schemaOk h.schema 0 w.2
    · rw [hdb]
      exact h.schema
    · rw [hdb]
      exact applyNormal_schemaOk h.schema index cmd
  · intro w hmem
    rcases mem_inFlight_step hs hmem with hmem | ⟨d, -, hc⟩
    · exact h.writes w hmem
    · exact DeletePhase.isDeleteWrite_command hc

theorem Sound.start {db : Db} (h : SchemaOk db) (copies : UInt64 → Db) :
    (DeleteSystem.start db copies).Sound :=
  ⟨h, fun w hw => by cases hw⟩

/-- Every write on its way was sent by one of the deletes, for its row. -/
def Owned (s : DeleteSystem) : Prop :=
  ∀ w ∈ s.inFlight, ∃ d, s.deletes[w.1]? = some d ∧
    ∃ phase : DeletePhase, phase.command d.target = some w.2

/-- One delete goes on, or one is taken up, or they all stay. -/
theorem deletes_cases (hs : s.step op = some s') :
    s'.deletes = s.deletes ∨
      (∃ node bearerOk readFails target,
        op = .request node bearerOk target.id readFails ∧
          s'.deletes = s.deletes ++ [⟨node, target, .begin⟩]) ∨
      ∃ k d phase, s.deletes[k]? = some d ∧ s'.deletes = s.deletes.set k { d with phase := phase } ∧
        ((∃ result, phase = (d.phase.afterCall result).1) ∨ d.phase = .countSessions ∨
          ∃ row marker, d.phase.afterRead d.target row = some (phase, marker)) := by
  cases step_stepped hs with
  | refused _ => exact .inl rfl
  | @taken node bearerOk id readFails _ r _ hr _ hd _ =>
    exact .inr (.inl ⟨node, bearerOk, readFails, r.identity, by rw [← Db.id_of_streamRow hr]; rfl, hd⟩)
  | call hi _ _ hd _ => exact .inr (.inr ⟨_, _, _, hi, hd, .inl ⟨_, rfl⟩⟩)
  | counted hi hp _ hd _ => exact .inr (.inr ⟨_, _, _, hi, hd, .inr (.inl hp)⟩)
  | read hi hn _ hd _ => exact .inr (.inr ⟨_, _, _, hi, hd, .inr (.inr ⟨_, _, hn⟩)⟩)
  | commit _ _ hd _ | drop _ hd _ | command _ hd _ | replicate _ hd _ => exact .inl hd

theorem getElem?_of_set {d e : StreamDelete} (hj : s.deletes[j]? = some d)
    (hd : s'.deletes = s.deletes.set j e) : s'.deletes[j]? = some e := by
  rw [hd, getElem?_set_self (List.getElem?_eq_some_iff.1 hj).1]

theorem deletes_step (hs : s.step op = some s') {d : StreamDelete} (hj : s.deletes[j]? = some d) :
    ∃ d', s'.deletes[j]? = some d' ∧ d'.target = d.target := by
  rcases deletes_cases hs with hd | ⟨_, _, _, _, -, hd⟩ | ⟨k, e, phase, hk, hd, -⟩
  · exact ⟨d, hd ▸ hj, rfl⟩
  · exact ⟨d, by rw [hd, getElem?_append_left (List.getElem?_eq_some_iff.1 hj).1, hj], rfl⟩
  · by_cases hjk : k = j
    · subst hjk
      obtain rfl : e = d := some.inj (hk.symm.trans hj)
      exact ⟨_, getElem?_of_set hk hd, rfl⟩
    · exact ⟨d, by rw [hd, getElem?_set_ne hjk, hj], rfl⟩

theorem target_step (hs : s.step op = some s') {d' : StreamDelete} (hj : s'.deletes[j]? = some d') :
    (∃ d, s.deletes[j]? = some d ∧ d.target = d'.target) ∨
      s.deletes[j]? = none ∧ j = s.deletes.length ∧
        ∃ node bearerOk readFails, op = .request node bearerOk d'.target.id readFails := by
  cases hs0 : s.deletes[j]? with
  | some d =>
    obtain ⟨e, he, ht⟩ := deletes_step hs hs0
    obtain rfl : e = d' := some.inj (he.symm.trans hj)
    exact .inl ⟨d, rfl, ht.symm⟩
  | none =>
    have hlen := List.getElem?_eq_none_iff.1 hs0
    have hlt := (List.getElem?_eq_some_iff.1 hj).1
    refine .inr ⟨rfl, ?_⟩
    rcases deletes_cases hs with hd | ⟨node, bearerOk, readFails, target, hop, hd⟩ |
      ⟨_, _, _, -, hd, -⟩
    · rw [hd] at hlt
      omega
    · rw [hd, length_append, length_singleton] at hlt
      obtain rfl : j = s.deletes.length := by omega
      rw [hd, getElem?_append_right (Nat.le_refl _), Nat.sub_self] at hj
      obtain rfl := some.inj hj
      exact ⟨rfl, node, bearerOk, readFails, hop⟩
    · rw [hd, length_set] at hlt
      omega

theorem Owned.step (h : s.Owned) (hs : s.step op = some s') : s'.Owned := by
  intro w hmem
  rcases mem_inFlight_step hs hmem with hmem | ⟨d, hd, hc⟩
  · obtain ⟨d, hd, phase, hc⟩ := h w hmem
    obtain ⟨d', hd', ht⟩ := deletes_step hs hd
    exact ⟨d', hd', phase, ht ▸ hc⟩
  · obtain ⟨d', hd', ht⟩ := deletes_step hs hd
    exact ⟨d', hd', d.phase, ht ▸ hc⟩

end DeleteSystem

end RtmpServer
